import Aquatic.Lib.Json
import Aquatic.Ws.Storage
import Aquatic.WsProtocol.TwentyBytes

/-!
# WebSocket messages as JSON

What is derived for the messages: the objects that they are written as, and how they are
read. A `usize` has 64 bits. Messages without numbers are those of the swarm workers; their
`action` and `type` have one value each and are not stored.
-/

namespace Aquatic.WsProtocol
open Collections Json Ws
set_option autoImplicit false

structure AnnounceRequest where
  infoHash : InfoHash
  peerId : PeerId
  bytesLeft : Option UInt64
  event : Option AnnounceEvent
  offers : Option (List AnnounceRequestOffer)
  numwant : Option UInt64
  answer : Option RtcAnswer
  answerToPeerId : Option PeerId
  answerOfferId : Option OfferId
  deriving DecidableEq, Repr

inductive InMessage where
  | announceRequest (request : AnnounceRequest)
  | scrapeRequest (request : ScrapeRequest)
  deriving DecidableEq, Repr

structure AnnounceResponse where
  infoHash : InfoHash
  complete : UInt64
  incomplete : UInt64
  announceInterval : UInt64
  deriving DecidableEq, Repr

structure ScrapeStatistics where
  complete : UInt64
  incomplete : UInt64
  downloaded : UInt64
  deriving DecidableEq, Repr

/-- The entries of the hash map are in the order that it is iterated in. -/
structure ScrapeResponse where
  files : IndexMap InfoHash ScrapeStatistics
  deriving DecidableEq

inductive OutMessage where
  | offerOutMessage (message : OfferOutMessage)
  | answerOutMessage (message : AnswerOutMessage)
  | announceResponse (response : AnnounceResponse)
  | scrapeResponse (response : ScrapeResponse)
  | errorResponse (response : ErrorResponse)
  deriving DecidableEq

theorem isSome_serialize20Bytes (data : Vector UInt8 20) : (serialize20Bytes data).isSome := by
  rw [serialize20Bytes_eq]
  rfl

/-- The string that twenty bytes are written as; the serializer does not panic. -/
def idText (data : Vector UInt8 20) : String :=
  (serialize20Bytes data).get (isSome_serialize20Bytes data)

def writeInfoHash (infoHash : InfoHash) : Value := .string (idText infoHash.bytes)

def writePeerId (peerId : PeerId) : Value := .string (idText peerId.bytes)

def writeOfferId (offerId : OfferId) : Value := .string (idText offerId.bytes)

/-- `deserialize_20_bytes`: the visitor has a method for strings only. -/
def read20Bytes : Value → Option (Vector UInt8 20)
  | .string value => (visitStr value).toOption
  | _ => none

def readInfoHash (value : Value) : Option InfoHash := (read20Bytes value).map InfoHash.mk

def readPeerId (value : Value) : Option PeerId := (read20Bytes value).map PeerId.mk

def readOfferId (value : Value) : Option OfferId := (read20Bytes value).map OfferId.mk

def announceAction : Value := .string "announce"

def readAnnounceAction : Value → Option Unit := readVariant [("announce", ())]

def scrapeAction : Value := .string "scrape"

def readScrapeAction : Value → Option Unit := readVariant [("scrape", ())]

def writeRtcOffer (offer : RtcOffer) : Value :=
  .object [("type", .string "offer"), ("sdp", .string offer.sdp)]

def readRtcOffer (value : Value) : Option RtcOffer := do
  let entries ← fields ["type", "sdp"] value
  let _ ← field entries "type" (readVariant [("offer", ())])
  let sdp ← field entries "sdp" readString
  return { sdp }

def writeRtcAnswer (answer : RtcAnswer) : Value :=
  .object [("type", .string "answer"), ("sdp", .string answer.sdp)]

def readRtcAnswer (value : Value) : Option RtcAnswer := do
  let entries ← fields ["type", "sdp"] value
  let _ ← field entries "type" (readVariant [("answer", ())])
  let sdp ← field entries "sdp" readString
  return { sdp }

def writeAnnounceEvent : AnnounceEvent → Value
  | .started => .string "started"
  | .stopped => .string "stopped"
  | .completed => .string "completed"
  | .update => .string "update"

def readAnnounceEvent : Value → Option AnnounceEvent :=
  readVariant [("started", .started), ("stopped", .stopped), ("completed", .completed),
    ("update", .update)]

def writeAnnounceRequestOffer (offer : AnnounceRequestOffer) : Value :=
  .object [("offer", writeRtcOffer offer.offer), ("offer_id", writeOfferId offer.offerId)]

def readAnnounceRequestOffer (value : Value) : Option AnnounceRequestOffer := do
  let entries ← fields ["offer", "offer_id"] value
  let offer ← field entries "offer" readRtcOffer
  let offerId ← field entries "offer_id" readOfferId
  return { offer, offerId }

def AnnounceRequest.entries (request : AnnounceRequest) : List (String × Value) :=
  [("action", announceAction), ("info_hash", writeInfoHash request.infoHash),
    ("peer_id", writePeerId request.peerId), ("left", ofOption Value.unsigned request.bytesLeft)] ++
  skipNone "event" writeAnnounceEvent request.event ++
  [("offers", ofOption (ofList writeAnnounceRequestOffer) request.offers),
    ("numwant", ofOption Value.unsigned request.numwant),
    ("answer", ofOption writeRtcAnswer request.answer),
    ("to_peer_id", ofOption writePeerId request.answerToPeerId),
    ("offer_id", ofOption writeOfferId request.answerOfferId)]

def readAnnounceRequest (value : Value) : Option AnnounceRequest := do
  let entries ← fields ["action", "info_hash", "peer_id", "left", "event", "offers", "numwant",
    "answer", "to_peer_id", "offer_id"] value
  let _ ← field entries "action" readAnnounceAction
  let infoHash ← field entries "info_hash" readInfoHash
  let peerId ← field entries "peer_id" readPeerId
  let bytesLeft ← optionalField entries "left" readUnsigned
  let event ← optionalField entries "event" readAnnounceEvent
  let offers ← optionalField entries "offers" (readList readAnnounceRequestOffer)
  let numwant ← optionalField entries "numwant" readUnsigned
  let answer ← optionalField entries "answer" readRtcAnswer
  let answerToPeerId ← optionalField entries "to_peer_id" readPeerId
  let answerOfferId ← optionalField entries "offer_id" readOfferId
  return {
    infoHash, peerId, bytesLeft, event, offers, numwant, answer, answerToPeerId, answerOfferId }

def writeInfoHashes : ScrapeRequestInfoHashes → Value
  | .single infoHash => writeInfoHash infoHash
  | .multiple infoHashes => ofList writeInfoHash infoHashes

def infoHashesReaders : List (Value → Option ScrapeRequestInfoHashes) :=
  [fun value => (readInfoHash value).map .single,
    fun value => (readList readInfoHash value).map .multiple]

def ScrapeRequest.entries (request : ScrapeRequest) : List (String × Value) :=
  [("action", scrapeAction), ("info_hash", ofOption writeInfoHashes request.infoHashes)]

def readScrapeRequest (value : Value) : Option ScrapeRequest := do
  let entries ← fields ["action", "info_hash"] value
  let _ ← field entries "action" readScrapeAction
  let infoHashes ← optionalField entries "info_hash" (untagged infoHashesReaders)
  return { infoHashes }

namespace InMessage

def write : InMessage → Value
  | .announceRequest request => .object request.entries
  | .scrapeRequest request => .object (ScrapeRequest.entries request)

def readers : List (Value → Option InMessage) :=
  [fun value => (readAnnounceRequest value).map .announceRequest,
    fun value => (readScrapeRequest value).map .scrapeRequest]

def read : Value → Option InMessage := untagged readers

/-- The place of a message's variant. -/
def variant : InMessage → Nat
  | .announceRequest _ => 0
  | .scrapeRequest _ => 1

end InMessage

def OfferOutMessage.entries (message : OfferOutMessage) : List (String × Value) :=
  [("action", announceAction), ("peer_id", writePeerId message.peerId),
    ("info_hash", writeInfoHash message.infoHash), ("offer", writeRtcOffer message.offer),
    ("offer_id", writeOfferId message.offerId)]

def readOfferOutMessage (value : Value) : Option OfferOutMessage := do
  let entries ← fields ["action", "peer_id", "info_hash", "offer", "offer_id"] value
  let _ ← field entries "action" readAnnounceAction
  let peerId ← field entries "peer_id" readPeerId
  let infoHash ← field entries "info_hash" readInfoHash
  let offer ← field entries "offer" readRtcOffer
  let offerId ← field entries "offer_id" readOfferId
  return { peerId, infoHash, offer, offerId }

def AnswerOutMessage.entries (message : AnswerOutMessage) : List (String × Value) :=
  [("action", announceAction), ("peer_id", writePeerId message.peerId),
    ("info_hash", writeInfoHash message.infoHash), ("answer", writeRtcAnswer message.answer),
    ("offer_id", writeOfferId message.offerId)]

def readAnswerOutMessage (value : Value) : Option AnswerOutMessage := do
  let entries ← fields ["action", "peer_id", "info_hash", "answer", "offer_id"] value
  let _ ← field entries "action" readAnnounceAction
  let peerId ← field entries "peer_id" readPeerId
  let infoHash ← field entries "info_hash" readInfoHash
  let answer ← field entries "answer" readRtcAnswer
  let offerId ← field entries "offer_id" readOfferId
  return { peerId, infoHash, answer, offerId }

def AnnounceResponse.entries (response : AnnounceResponse) : List (String × Value) :=
  [("action", announceAction), ("info_hash", writeInfoHash response.infoHash),
    ("complete", .unsigned response.complete), ("incomplete", .unsigned response.incomplete),
    ("interval", .unsigned response.announceInterval)]

def readAnnounceResponse (value : Value) : Option AnnounceResponse := do
  let entries ← fields ["action", "info_hash", "complete", "incomplete", "interval"] value
  let _ ← field entries "action" readAnnounceAction
  let infoHash ← field entries "info_hash" readInfoHash
  let complete ← field entries "complete" readUnsigned
  let incomplete ← field entries "incomplete" readUnsigned
  let announceInterval ← field entries "interval" readUnsigned
  return { infoHash, complete, incomplete, announceInterval }

def writeScrapeStatistics (statistics : ScrapeStatistics) : Value :=
  .object [("complete", .unsigned statistics.complete),
    ("incomplete", .unsigned statistics.incomplete),
    ("downloaded", .unsigned statistics.downloaded)]

def readScrapeStatistics (value : Value) : Option ScrapeStatistics := do
  let entries ← fields ["complete", "incomplete", "downloaded"] value
  let complete ← field entries "complete" readUnsigned
  let incomplete ← field entries "incomplete" readUnsigned
  let downloaded ← field entries "downloaded" readUnsigned
  return { complete, incomplete, downloaded }

def writeFile (file : InfoHash × ScrapeStatistics) : String × Value :=
  (idText file.1.bytes, writeScrapeStatistics file.2)

def readFile (entry : String × Value) : Option (InfoHash × ScrapeStatistics) := do
  let infoHash ← readInfoHash (.string entry.1)
  let statistics ← readScrapeStatistics entry.2
  return (infoHash, statistics)

/-- Of the entries with one info hash the last stays. -/
def readFiles : Value → Option (IndexMap InfoHash ScrapeStatistics)
  | .object entries => (entries.mapM readFile).map IndexMap.ofList
  | _ => none

def ScrapeResponse.entries (response : ScrapeResponse) : List (String × Value) :=
  [("action", scrapeAction), ("files", .object (response.files.entries.map writeFile))]

def readScrapeResponse (value : Value) : Option ScrapeResponse := do
  let entries ← fields ["action", "files"] value
  let _ ← field entries "action" readScrapeAction
  let files ← field entries "files" readFiles
  return { files }

def writeErrorResponseAction : ErrorResponseAction → Value
  | .announce => .string "announce"
  | .scrape => .string "scrape"

def readErrorResponseAction : Value → Option ErrorResponseAction :=
  readVariant [("announce", .announce), ("scrape", .scrape)]

def ErrorResponse.entries (response : ErrorResponse) : List (String × Value) :=
  [("failure reason", .string response.failureReason)] ++
    skipNone "action" writeErrorResponseAction response.action ++
    skipNone "info_hash" writeInfoHash response.infoHash

def readErrorResponse (value : Value) : Option ErrorResponse := do
  let entries ← fields ["failure reason", "action", "info_hash"] value
  let failureReason ← field entries "failure reason" readString
  let action ← optionalField entries "action" readErrorResponseAction
  let infoHash ← optionalField entries "info_hash" readInfoHash
  return { failureReason, action, infoHash }

namespace OutMessage

def write : OutMessage → Value
  | .offerOutMessage message => .object (OfferOutMessage.entries message)
  | .answerOutMessage message => .object (AnswerOutMessage.entries message)
  | .announceResponse response => .object response.entries
  | .scrapeResponse response => .object response.entries
  | .errorResponse response => .object (ErrorResponse.entries response)

def readers : List (Value → Option OutMessage) :=
  [fun value => (readOfferOutMessage value).map .offerOutMessage,
    fun value => (readAnswerOutMessage value).map .answerOutMessage,
    fun value => (readAnnounceResponse value).map .announceResponse,
    fun value => (readScrapeResponse value).map .scrapeResponse,
    fun value => (readErrorResponse value).map .errorResponse]

def read : Value → Option OutMessage := untagged readers

/-- The place of a message's variant. -/
def variant : OutMessage → Nat
  | .offerOutMessage _ => 0
  | .answerOutMessage _ => 1
  | .announceResponse _ => 2
  | .scrapeResponse _ => 3
  | .errorResponse _ => 4

end OutMessage

end Aquatic.WsProtocol
