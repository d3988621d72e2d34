import Aquatic.WsProtocol.Messages

/-!
# Messages read back from JSON

Each variant has a field that no later variant is written with and without which its reader
refuses an object.
-/

namespace Aquatic.WsProtocol
open Collections Json Ws
set_option autoImplicit false

theorem read20Bytes_idText (data : Vector UInt8 20) :
    read20Bytes (.string (idText data)) = some data := by
  obtain ⟨text, htext, hdata⟩ := visitStr_serialize20Bytes data
  have hid : idText data = text := by simp [idText, htext]
  rw [read20Bytes, hid, hdata]
  rfl

@[simp] theorem readInfoHash_write (infoHash : InfoHash) :
    readInfoHash (writeInfoHash infoHash) = some infoHash := by
  rw [readInfoHash, writeInfoHash, read20Bytes_idText]
  rfl

@[simp] theorem readPeerId_write (peerId : PeerId) :
    readPeerId (writePeerId peerId) = some peerId := by
  rw [readPeerId, writePeerId, read20Bytes_idText]
  rfl

@[simp] theorem readOfferId_write (offerId : OfferId) :
    readOfferId (writeOfferId offerId) = some offerId := by
  rw [readOfferId, writeOfferId, read20Bytes_idText]
  rfl

@[simp] theorem readAnnounceAction_announceAction : readAnnounceAction announceAction = some () :=
  rfl

@[simp] theorem readScrapeAction_scrapeAction : readScrapeAction scrapeAction = some () := rfl

@[simp] theorem readRtcOffer_write (offer : RtcOffer) :
    readRtcOffer (writeRtcOffer offer) = some offer := by
  have hkeys : ["type", "sdp"].Nodup := by decide
  rw [readRtcOffer, writeRtcOffer, fields_object hkeys rfl]
  simp [field, List.lookup_cons, readVariant, readString]

@[simp] theorem readRtcAnswer_write (answer : RtcAnswer) :
    readRtcAnswer (writeRtcAnswer answer) = some answer := by
  have hkeys : ["type", "sdp"].Nodup := by decide
  rw [readRtcAnswer, writeRtcAnswer, fields_object hkeys rfl]
  simp [field, List.lookup_cons, readVariant, readString]

@[simp] theorem readAnnounceRequestOffer_write (offer : AnnounceRequestOffer) :
    readAnnounceRequestOffer (writeAnnounceRequestOffer offer) = some offer := by
  have hkeys : ["offer", "offer_id"].Nodup := by decide
  rw [readAnnounceRequestOffer, writeAnnounceRequestOffer, fields_object hkeys rfl]
  simp [field, List.lookup_cons]

@[simp] theorem readScrapeStatistics_write (statistics : ScrapeStatistics) :
    readScrapeStatistics (writeScrapeStatistics statistics) = some statistics := by
  have hkeys : ["complete", "incomplete", "downloaded"].Nodup := by decide
  rw [readScrapeStatistics, writeScrapeStatistics, fields_object hkeys rfl]
  simp [field, List.lookup_cons, readUnsigned]

theorem readAnnounceEvent_write (event : AnnounceEvent) :
    readOption readAnnounceEvent (writeAnnounceEvent event) = some (some event) := by
  cases event <;> decide

theorem readErrorResponseAction_write (action : ErrorResponseAction) :
    readOption readErrorResponseAction (writeErrorResponseAction action) = some (some action) := by
  cases action <;> decide

/-- A single info hash is a string, several are an array. -/
theorem readInfoHashes_write (infoHashes : ScrapeRequestInfoHashes) :
    untagged infoHashesReaders (writeInfoHashes infoHashes) = some infoHashes := by
  cases infoHashes with
  | single infoHash => simp [untagged, infoHashesReaders, writeInfoHashes]
  | multiple infoHashes =>
    have hsingle : readInfoHash (ofList writeInfoHash infoHashes) = none := rfl
    simp [untagged, infoHashesReaders, writeInfoHashes, hsingle, readList_ofList]

theorem readFile_writeFile (file : InfoHash × ScrapeStatistics) :
    readFile (writeFile file) = some file := by
  have hinfoHash : readInfoHash (.string (idText file.1.bytes)) = some file.1 :=
    readInfoHash_write file.1
  rw [readFile, writeFile, hinfoHash, readScrapeStatistics_write]
  rfl

theorem readFiles_write (files : IndexMap InfoHash ScrapeStatistics) :
    readFiles (.object (files.entries.map writeFile)) = some files := by
  have hfiles : IndexMap.ofList files.entries = files := by
    obtain ⟨entries, hnodup⟩ := files
    have hentries := IndexMap.entries_ofList hnodup
    cases h : IndexMap.ofList entries
    rw [h] at hentries
    subst hentries
    rfl
  rw [readFiles, mapM_map readFile_writeFile, Option.map_some, hfiles]

theorem readAnnounceRequest_entries (request : AnnounceRequest) :
    readAnnounceRequest (.object request.entries) = some request := by
  have hkeys : ["action", "info_hash", "peer_id", "left", "event", "offers", "numwant", "answer",
    "to_peer_id", "offer_id"].Nodup := by decide
  have hkeys' : ["action", "info_hash", "peer_id", "left", "offers", "numwant", "answer",
    "to_peer_id", "offer_id"].Nodup := by decide
  have hread : ∀ n, readUnsigned (.unsigned n) = some n := fun _ => rfl
  have hunsigned := readOption_ofOption hread rfl
  have hoffers := readOption_ofOption (readList_ofList readAnnounceRequestOffer_write) rfl
  have hanswer := readOption_ofOption readRtcAnswer_write rfl
  have hpeerId := readOption_ofOption readPeerId_write rfl
  have hofferId := readOption_ofOption readOfferId_write rfl
  obtain ⟨infoHash, peerId, bytesLeft, event, offers, numwant, answer, toPeerId, offerId⟩ := request
  cases event with
  | none =>
    rw [readAnnounceRequest, AnnounceRequest.entries, fields_object hkeys' rfl]
    simp [field, optionalField, List.lookup_cons, skipNone, hunsigned, hoffers, hanswer, hpeerId,
      hofferId]
  | some event =>
    rw [readAnnounceRequest, AnnounceRequest.entries, fields_object hkeys rfl]
    simp [field, optionalField, List.lookup_cons, skipNone, hunsigned, hoffers, hanswer, hpeerId,
      hofferId, readAnnounceEvent_write]

theorem readScrapeRequest_entries (request : ScrapeRequest) :
    readScrapeRequest (.object (ScrapeRequest.entries request)) = some request := by
  have hkeys : ["action", "info_hash"].Nodup := by decide
  have hinfoHashes := readOption_ofOption readInfoHashes_write rfl
  rw [readScrapeRequest, ScrapeRequest.entries, fields_object hkeys rfl]
  simp [field, optionalField, List.lookup_cons, hinfoHashes]

theorem readOfferOutMessage_entries (message : OfferOutMessage) :
    readOfferOutMessage (.object (OfferOutMessage.entries message)) = some message := by
  have hkeys : ["action", "peer_id", "info_hash", "offer", "offer_id"].Nodup := by decide
  rw [readOfferOutMessage, OfferOutMessage.entries, fields_object hkeys rfl]
  simp [field, List.lookup_cons]

theorem readAnswerOutMessage_entries (message : AnswerOutMessage) :
    readAnswerOutMessage (.object (AnswerOutMessage.entries message)) = some message := by
  have hkeys : ["action", "peer_id", "info_hash", "answer", "offer_id"].Nodup := by decide
  rw [readAnswerOutMessage, AnswerOutMessage.entries, fields_object hkeys rfl]
  simp [field, List.lookup_cons]

theorem readAnnounceResponse_entries (response : AnnounceResponse) :
    readAnnounceResponse (.object response.entries) = some response := by
  have hkeys : ["action", "info_hash", "complete", "incomplete", "interval"].Nodup := by decide
  rw [readAnnounceResponse, AnnounceResponse.entries, fields_object hkeys rfl]
  simp [field, List.lookup_cons, readUnsigned]

theorem readScrapeResponse_entries (response : ScrapeResponse) :
    readScrapeResponse (.object response.entries) = some response := by
  have hkeys : ["action", "files"].Nodup := by decide
  rw [readScrapeResponse, ScrapeResponse.entries, fields_object hkeys rfl]
  simp [field, List.lookup_cons, readFiles_write]

theorem readErrorResponse_entries (response : ErrorResponse) :
    readErrorResponse (.object (ErrorResponse.entries response)) = some response := by
  have hinfoHash : ∀ infoHash,
      readOption readInfoHash (writeInfoHash infoHash) = some (some infoHash) := by
    intro infoHash
    rw [readOption_of_ne_null (by simp [writeInfoHash]), readInfoHash_write]
    rfl
  obtain ⟨failureReason, action, infoHash⟩ := response
  have hkeys : ((ErrorResponse.entries ⟨failureReason, action, infoHash⟩).map Prod.fst).Nodup := by
    cases action <;> cases infoHash <;> simp [ErrorResponse.entries, skipNone]
  rw [readErrorResponse, fields_object hkeys rfl]
  cases action <;> cases infoHash <;>
    simp [ErrorResponse.entries, skipNone, field, optionalField, List.lookup_cons, readString,
      readErrorResponseAction_write, hinfoHash]

section Missing
variable (entries : List (String × Value))

theorem readAnnounceRequest_missing (h : entries.lookup "peer_id" = none) :
    readAnnounceRequest (.object entries) = none := by
  rw [readAnnounceRequest]
  exact bind_fields_eq_none (by simp [field_of_missing h])

theorem readOfferOutMessage_missing (h : entries.lookup "offer" = none) :
    readOfferOutMessage (.object entries) = none := by
  rw [readOfferOutMessage]
  exact bind_fields_eq_none (by simp [field_of_missing h])

theorem readAnswerOutMessage_missing (h : entries.lookup "answer" = none) :
    readAnswerOutMessage (.object entries) = none := by
  rw [readAnswerOutMessage]
  exact bind_fields_eq_none (by simp [field_of_missing h])

theorem readAnnounceResponse_missing (h : entries.lookup "complete" = none) :
    readAnnounceResponse (.object entries) = none := by
  rw [readAnnounceResponse]
  exact bind_fields_eq_none (by simp [field_of_missing h])

theorem readScrapeResponse_missing (h : entries.lookup "files" = none) :
    readScrapeResponse (.object entries) = none := by
  rw [readScrapeResponse]
  exact bind_fields_eq_none (by simp [field_of_missing h])

end Missing

theorem lookup_errorResponse (response : ErrorResponse) (name : String)
    (h : name ∉ ["failure reason", "action", "info_hash"]) :
    (ErrorResponse.entries response).lookup name = none := by
  simp only [List.mem_cons, List.not_mem_nil, or_false, not_or] at h
  obtain ⟨hreason, haction, hinfoHash⟩ := h
  obtain ⟨failureReason, action, infoHash⟩ := response
  cases action <;> cases infoHash <;>
    simp [ErrorResponse.entries, skipNone, List.lookup_cons, beq_false_of_ne hreason,
      beq_false_of_ne haction, beq_false_of_ne hinfoHash]

theorem inMessage_unambiguous (message : InMessage) :
    Unambiguous InMessage.readers InMessage.write InMessage.variant message := by
  cases message with
  | announceRequest request =>
    refine ⟨⟨_, rfl⟩, ?_, _, rfl, ?_⟩
    · intro read hread
      cases hread
    · simp [InMessage.write, readAnnounceRequest_entries]
  | scrapeRequest request =>
    have hannounce := readAnnounceRequest_missing (ScrapeRequest.entries request) rfl
    refine ⟨⟨_, rfl⟩, ?_, _, rfl, ?_⟩
    · simp [InMessage.variant, InMessage.readers, InMessage.write, hannounce]
    · simp [InMessage.write, readScrapeRequest_entries]

theorem outMessage_unambiguous (message : OutMessage) :
    Unambiguous OutMessage.readers OutMessage.write OutMessage.variant message := by
  cases message with
  | offerOutMessage message =>
    refine ⟨⟨_, rfl⟩, ?_, _, rfl, ?_⟩
    · intro read hread
      cases hread
    · simp [OutMessage.write, readOfferOutMessage_entries]
  | answerOutMessage message =>
    have hoffer := readOfferOutMessage_missing (AnswerOutMessage.entries message) rfl
    refine ⟨⟨_, rfl⟩, ?_, _, rfl, ?_⟩
    · simp [OutMessage.variant, OutMessage.readers, OutMessage.write, hoffer]
    · simp [OutMessage.write, readAnswerOutMessage_entries]
  | announceResponse response =>
    have hoffer := readOfferOutMessage_missing response.entries rfl
    have hanswer := readAnswerOutMessage_missing response.entries rfl
    refine ⟨⟨_, rfl⟩, ?_, _, rfl, ?_⟩
    · simp [OutMessage.variant, OutMessage.readers, OutMessage.write, hoffer, hanswer]
    · simp [OutMessage.write, readAnnounceResponse_entries]
  | scrapeResponse response =>
    have hoffer := readOfferOutMessage_missing response.entries rfl
    have hanswer := readAnswerOutMessage_missing response.entries rfl
    have hannounce := readAnnounceResponse_missing response.entries rfl
    refine ⟨⟨_, rfl⟩, ?_, _, rfl, ?_⟩
    · simp [OutMessage.variant, OutMessage.readers, OutMessage.write, hoffer, hanswer, hannounce]
    · simp [OutMessage.write, readScrapeResponse_entries]
  | errorResponse response =>
    have hlookup := lookup_errorResponse response
    have hoffer := readOfferOutMessage_missing _ (hlookup "offer" (by decide))
    have hanswer := readAnswerOutMessage_missing _ (hlookup "answer" (by decide))
    have hannounce := readAnnounceResponse_missing _ (hlookup "complete" (by decide))
    have hscrape := readScrapeResponse_missing _ (hlookup "files" (by decide))
    refine ⟨⟨_, rfl⟩, ?_, _, rfl, ?_⟩
    · simp [OutMessage.variant, OutMessage.readers, OutMessage.write, hoffer, hanswer, hannounce,
        hscrape]
    · simp [OutMessage.write, readErrorResponse_entries]

theorem messages_unambiguous :
    (∀ message : InMessage,
      Unambiguous InMessage.readers InMessage.write InMessage.variant message ∧
        InMessage.read message.write = some message) ∧
    (∀ message : OutMessage,
      Unambiguous OutMessage.readers OutMessage.write OutMessage.variant message ∧
        OutMessage.read message.write = some message) := by
  constructor
  · intro message
    have h := inMessage_unambiguous message
    exact ⟨h, h.untagged⟩
  · intro message
    have h := outMessage_unambiguous message
    exact ⟨h, h.untagged⟩

end Aquatic.WsProtocol
