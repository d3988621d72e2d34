import Aquatic.Udp.Protocol

/-!
# What a datagram says before it is parsed

An announce and a scrape carry a connection id in their first bytes. The parser
reports the id that stands there, whether it accepts the request or not, and it
reports none for anything else.
-/

namespace Aquatic.Udp.Protocol
open Bytes
set_option autoImplicit false

/-- The connection id of an announce or a scrape, well formed or not. -/
def carriedConnectionId (bytes : List UInt8) : Option ConnectionId :=
  if Request.action bytes = some 1 ∨ Request.action bytes = some 2 then
    (readI64 bytes).map fun e => ⟨e.1⟩
  else none

/-- The parser can be asked to connect with these bytes. -/
structure IsConnect (bytes : List UInt8) : Prop where
  length : 16 ≤ bytes.length
  identifier : (readI64 bytes).map Prod.fst = some protocolIdentifier
  action : Request.action bytes = some 0

/-- Announces and scrapes whose error is answered. -/
inductive Malformed (bytes : List UInt8) : ConnectionId → Prop where
  | announce {request : AnnounceRequest} (action : Request.action bytes = some 1)
      (fields : AnnounceRequest.readFromPrefix bytes = some request)
      (invalid : request.port = 0 ∨ ¬ (0 ≤ request.event.value ∧ request.event.value ≤ 3)) :
      Malformed bytes request.connectionId
  | scrape {connectionId : Int64} {rest : List UInt8} (action : Request.action bytes = some 2)
      (fields : readI64 bytes = some (connectionId, rest)) (header : 16 ≤ bytes.length)
      (invalid : bytes.length = 16 ∨ bytes.length % 20 ≠ 16) : Malformed bytes ⟨connectionId⟩

/-- The connection id that the parser reports. -/
def reportedConnectionId : Except RequestParseError Request → Option ConnectionId
  | .ok (.connect _) => none
  | .ok (.announce request) => some request.connectionId
  | .ok (.scrape request) => some request.connectionId
  | .error (.sendable connectionId _ _) => some connectionId
  | .error (.unsendable _) => none

variable {bytes rest : List UInt8}

/-- The first field of an announce. -/
theorem connectionId_of_readFromPrefix {request : AnnounceRequest}
    (h : AnnounceRequest.readFromPrefix bytes = some request) :
    ∃ rest, readI64 bytes = some (request.connectionId.value, rest) := by
  obtain ⟨⟨connectionId, rest⟩, hconnectionId, h⟩ := Option.bind_eq_some_iff.mp h
  iterate 12 obtain ⟨⟨_, _⟩, -, h⟩ := Option.bind_eq_some_iff.mp h
  cases h
  exact ⟨rest, hconnectionId⟩

theorem orEof_bind_eq {α : Type} {x : Option α} {f : α → Except RequestParseError Request}
    {r : Except RequestParseError Request} (h : (orEof x >>= f) = r) :
    x = none ∧ r = .error (.unsendableIo .unexpectedEof) ∨ ∃ a, x = some a ∧ f a = r := by
  cases x with
  | none => exact .inl ⟨rfl, h.symm⟩
  | some a => exact .inr ⟨a, rfl, h⟩

namespace Request

/-- What the parser of connects does: it reports no id. -/
theorem parseConnect_spec {r : Except RequestParseError Request} (h : parseConnect bytes = r) :
    (∃ request, r = .ok (.connect request) ∧ 16 ≤ bytes.length ∧
      (readI64 bytes).map Prod.fst = some protocolIdentifier) ∨ ∃ err, r = .error (.unsendable err) := by
  obtain ⟨-, rfl⟩ | ⟨⟨identifier, rest⟩, hidentifier, h⟩ := orEof_bind_eq h
  · exact .inr ⟨_, rfl⟩
  obtain ⟨-, rfl⟩ | ⟨⟨_, rest'⟩, haction, h⟩ := orEof_bind_eq h
  · exact .inr ⟨_, rfl⟩
  obtain ⟨-, rfl⟩ | ⟨⟨transactionId, rest''⟩, htransactionId, h⟩ := orEof_bind_eq h
  · exact .inr ⟨_, rfl⟩
  simp only at h hidentifier haction htransactionId
  split at h
  · rename_i hequal
    rw [hequal] at hidentifier
    obtain ⟨hlength, hrest⟩ := drop_of_readWith hidentifier
    obtain ⟨hlength', hrest'⟩ := drop_of_readWith haction
    obtain ⟨hlength'', -⟩ := drop_of_readWith htransactionId
    rw [hrest', hrest, List.length_drop, List.length_drop] at hlength''
    refine .inl ⟨_, h.symm, by omega, ?_⟩
    rw [hidentifier]
    rfl
  · exact .inr ⟨_, h.symm⟩

/-- What the parser of announces does. -/
theorem parseAnnounce_spec {r : Except RequestParseError Request} (h : parseAnnounce bytes = r) :
    AnnounceRequest.readFromPrefix bytes = none ∧ (∃ err, r = .error (.unsendable err)) ∨
      ∃ request, AnnounceRequest.readFromPrefix bytes = some request ∧
      (r = .ok (.announce request) ∧ request.port ≠ 0 ∧
          0 ≤ request.event.value ∧ request.event.value ≤ 3 ∨
        (∃ err, r = .error (.sendable request.connectionId request.transactionId err)) ∧
          (request.port = 0 ∨ ¬ (0 ≤ request.event.value ∧ request.event.value ≤ 3))) := by
  unfold parseAnnounce at h
  split at h
  · rename_i hnone
    exact .inl ⟨hnone, _, h.symm⟩
  · rename_i request hrequest
    refine .inr ⟨request, hrequest, ?_⟩
    split at h
    · rename_i hport
      exact .inr ⟨⟨_, h.symm⟩, .inl hport⟩
    · rename_i hport
      split at h
      · rename_i hevent
        refine .inr ⟨⟨_, h.symm⟩, .inr ?_⟩
        intro hvalid
        simp [hvalid.1, hvalid.2] at hevent
      · rename_i hevent
        have hevent' : 0 ≤ request.event.value ∧ request.event.value ≤ 3 := by simpa using hevent
        exact .inl ⟨h.symm, hport, hevent'⟩

/-- What the parser of scrapes does. -/
theorem parseScrape_spec {maxScrapeTorrents : UInt8} {r : Except RequestParseError Request}
    (h : parseScrape bytes maxScrapeTorrents = r) :
    (∃ err, r = .error (.unsendable err)) ∧ bytes.length < 16 ∨
      ∃ connectionId transactionId rest,
        readI64 bytes = some (connectionId, rest) ∧ 16 ≤ bytes.length ∧
        ((∃ infoHashes, bytes.length ≠ 16 ∧ sliceFrom 20 (bytes.drop 16) = some infoHashes ∧
            r = .ok (.scrape ⟨⟨connectionId⟩, transactionId,
              (infoHashes.take maxScrapeTorrents.toNat).map InfoHash.mk⟩)) ∨
          (∃ err, r = .error (.sendable ⟨connectionId⟩ transactionId err)) ∧
            (bytes.length = 16 ∨ bytes.length % 20 ≠ 16)) := by
  obtain ⟨hnone, rfl⟩ | ⟨⟨connectionId, rest⟩, hconnectionId, h⟩ := orEof_bind_eq h
  · have hlength := length_lt_of_readWith hnone
    exact .inl ⟨⟨_, rfl⟩, by omega⟩
  obtain ⟨hlength, rfl⟩ := drop_of_readWith hconnectionId
  obtain ⟨hnone, rfl⟩ | ⟨⟨_, rest'⟩, haction, h⟩ := orEof_bind_eq h
  · have hlength' := length_lt_of_readWith hnone
    rw [List.length_drop] at hlength'
    exact .inl ⟨⟨_, rfl⟩, by omega⟩
  obtain ⟨hlength', rfl⟩ := drop_of_readWith haction
  obtain ⟨hnone, rfl⟩ | ⟨⟨transactionId, remaining⟩, htransactionId, h⟩ := orEof_bind_eq h
  · have hlength'' := length_lt_of_readWith hnone
    rw [List.length_drop, List.length_drop] at hlength''
    exact .inl ⟨⟨_, rfl⟩, by omega⟩
  obtain ⟨hlength'', hremaining⟩ := drop_of_readWith htransactionId
  rw [List.length_drop, List.length_drop] at hlength''
  rw [List.drop_drop, List.drop_drop] at hremaining
  have hcount := congrArg List.length hremaining
  rw [List.length_drop] at hcount
  simp only at h
  refine .inr ⟨connectionId, transactionId, _, hconnectionId, by omega, ?_⟩
  split at h
  · rename_i hempty
    rw [List.isEmpty_iff.mp hempty, List.length_nil] at hcount
    exact .inr ⟨⟨_, h.symm⟩, .inl (by omega)⟩
  · rename_i hempty
    rw [← hremaining]
    split at h
    · rename_i hslice
      have hmod := (sliceFrom_eq_none_iff (by decide)).mp hslice
      exact .inr ⟨⟨_, h.symm⟩, .inr (by omega)⟩
    · rename_i infoHashes hslice
      refine .inl ⟨infoHashes, ?_, hslice, h.symm⟩
      intro hsixteen
      have hnil := List.eq_nil_of_length_eq_zero (show remaining.length = 0 by omega)
      rw [hnil] at hempty
      exact hempty rfl

/-- What the parser makes of a datagram. -/
inductive Parsed (bytes : List UInt8) (maxScrapeTorrents : UInt8) :
    Except RequestParseError Request → Prop where
  | unsendable (err : IoError ⊕ String) : Parsed bytes maxScrapeTorrents (.error (.unsendable err))
  | sendable {connectionId : ConnectionId} (transactionId : Int32) (err : String)
      (malformed : Malformed bytes connectionId) :
      Parsed bytes maxScrapeTorrents (.error (.sendable connectionId transactionId err))
  | connect (request : ConnectRequest) (isConnect : IsConnect bytes) :
      Parsed bytes maxScrapeTorrents (.ok (.connect request))
  | announce {request : AnnounceRequest} (action : action bytes = some 1)
      (fields : AnnounceRequest.readFromPrefix bytes = some request) :
      Parsed bytes maxScrapeTorrents (.ok (.announce request))
  | scrape {connectionId : Int64} {rest : List UInt8} {infoHashes : List (Vector UInt8 20)}
      (transactionId : Int32) (action : action bytes = some 2)
      (fields : readI64 bytes = some (connectionId, rest))
      (hashes : sliceFrom 20 (bytes.drop 16) = some infoHashes) :
      Parsed bytes maxScrapeTorrents (.ok (.scrape ⟨⟨connectionId⟩, transactionId,
        (infoHashes.take maxScrapeTorrents.toNat).map InfoHash.mk⟩))

theorem parseBytes_spec (bytes : List UInt8) (maxScrapeTorrents : UInt8) :
    Parsed bytes maxScrapeTorrents (parseBytes bytes maxScrapeTorrents) := by
  unfold parseBytes
  split
  · exact .unsendable _
  rename_i code hcode
  split
  · rename_i hzero
    rw [hzero] at hcode
    obtain ⟨request, heq, hlength, hidentifier⟩ | ⟨err, heq⟩ := parseConnect_spec (Eq.refl (parseConnect bytes))
    · rw [heq]
      exact .connect request ⟨hlength, hidentifier, hcode⟩
    · rw [heq]
      exact .unsendable err
  split
  · rename_i hone
    rw [hone] at hcode
    obtain ⟨-, err, heq⟩ | ⟨request, hrequest, ⟨heq, -⟩ | ⟨⟨err, heq⟩, hinvalid⟩⟩ :=
      parseAnnounce_spec (Eq.refl (parseAnnounce bytes))
    · rw [heq]
      exact .unsendable err
    · rw [heq]
      exact .announce hcode hrequest
    · rw [heq]
      exact .sendable _ err (.announce hcode hrequest hinvalid)
  split
  · rename_i htwo
    rw [htwo] at hcode
    obtain ⟨⟨err, heq⟩, -⟩ | ⟨connectionId, transactionId, rest, hid, hheader,
        ⟨infoHashes, -, hhashes, heq⟩ | ⟨⟨err, heq⟩, hinvalid⟩⟩ :=
      parseScrape_spec (Eq.refl (parseScrape bytes maxScrapeTorrents))
    · rw [heq]
      exact .unsendable err
    · rw [heq]
      exact .scrape transactionId hcode hid hhashes
    · rw [heq]
      exact .sendable transactionId err (.scrape hcode hid hheader hinvalid)
  · exact .unsendable _

end Request

theorem carriedConnectionId_eq {connectionId : Int64}
    (haction : Request.action bytes = some 1 ∨ Request.action bytes = some 2)
    (h : readI64 bytes = some (connectionId, rest)) :
    carriedConnectionId bytes = some ⟨connectionId⟩ := by
  rw [carriedConnectionId, if_pos haction, h]
  rfl

theorem Malformed.carried {connectionId : ConnectionId} (h : Malformed bytes connectionId) :
    carriedConnectionId bytes = some connectionId := by
  cases h with
  | announce haction hfields _ =>
    obtain ⟨rest, hid⟩ := connectionId_of_readFromPrefix hfields
    exact carriedConnectionId_eq (.inl haction) hid
  | scrape haction hfields _ _ => exact carriedConnectionId_eq (.inr haction) hfields

/-- The parser reports the connection id that the datagram carries. -/
theorem Request.Parsed.carried {maxScrapeTorrents : UInt8}
    {r : Except RequestParseError Request} (h : Parsed bytes maxScrapeTorrents r)
    {connectionId : ConnectionId} (hid : reportedConnectionId r = some connectionId) :
    carriedConnectionId bytes = some connectionId := by
  cases h with
  | unsendable err => cases hid
  | sendable transactionId err hmalformed =>
    cases hid
    exact hmalformed.carried
  | connect request _ => cases hid
  | announce haction hfields =>
    cases hid
    obtain ⟨rest, hread⟩ := connectionId_of_readFromPrefix hfields
    exact carriedConnectionId_eq (.inl haction) hread
  | scrape transactionId haction hfields _ =>
    cases hid
    exact carriedConnectionId_eq (.inr haction) hfields

theorem action_take {m : Nat} (hm : 12 ≤ m) : Request.action (bytes.take m) = Request.action bytes := by
  unfold Request.action
  rw [List.drop_take]
  exact readWith_take _ _ (show 4 ≤ m - 8 by omega)

theorem carriedConnectionId_take {m : Nat} (hm : 12 ≤ m) :
    carriedConnectionId (bytes.take m) = carriedConnectionId bytes := by
  have hfirst := congrArg (Option.map ConnectionId.mk)
    (readWith_take (fun field => Int64.ofBitVec (beBits 64 field.toList)) bytes (show 8 ≤ m by omega))
  rw [Option.map_map, Option.map_map] at hfirst
  unfold carriedConnectionId
  rw [action_take hm]
  split
  · exact hfirst
  · rfl

theorem IsConnect.of_take {m : Nat} (hm : 12 ≤ m) (h : IsConnect (bytes.take m)) :
    IsConnect bytes := by
  obtain ⟨hlength, hidentifier, haction⟩ := h
  rw [List.length_take] at hlength
  rw [action_take hm] at haction
  refine ⟨by omega, ?_, haction⟩
  exact (readWith_take _ _ (show 8 ≤ m by omega)).symm.trans hidentifier

/-- The errors that are answered are exactly those of malformed announces and scrapes. -/
theorem sendable_iff {maxScrapeTorrents : UInt8} {connectionId : ConnectionId} :
    (∃ transactionId err, Request.parseBytes bytes maxScrapeTorrents =
      .error (.sendable connectionId transactionId err)) ↔ Malformed bytes connectionId := by
  constructor
  · rintro ⟨transactionId, err, heq⟩
    have hparsed := Request.parseBytes_spec bytes maxScrapeTorrents
    rw [heq] at hparsed
    cases hparsed with
    | sendable _ _ hmalformed => exact hmalformed
  · intro h
    unfold Request.parseBytes
    cases h with
    | announce haction hfields hinvalid =>
      obtain ⟨hnone, -⟩ | ⟨request, hrequest, ⟨-, hport, hlow, hhigh⟩ | ⟨⟨err, heq⟩, -⟩⟩ :=
        Request.parseAnnounce_spec (Eq.refl (Request.parseAnnounce bytes))
      · rw [hfields] at hnone
        cases hnone
      · rw [hfields] at hrequest
        cases hrequest
        rcases hinvalid with hzero | hevent
        · exact absurd hzero hport
        · exact absurd ⟨hlow, hhigh⟩ hevent
      · rw [hfields] at hrequest
        cases hrequest
        rw [haction]
        exact ⟨_, err, heq⟩
    | scrape haction hfields hheader hinvalid =>
      obtain ⟨-, hlength⟩ | ⟨connectionId, transactionId, rest, hid, -,
          ⟨infoHashes, hne, hhashes, -⟩ | ⟨⟨err, heq⟩, -⟩⟩ :=
        Request.parseScrape_spec (Eq.refl (Request.parseScrape bytes maxScrapeTorrents))
      · omega
      · have hmod : ¬ (bytes.drop 16).length % 20 ≠ 0 := by
          rw [← sliceFrom_eq_none_iff (by decide), hhashes]
          intro h
          cases h
        rw [List.length_drop] at hmod
        omega
      · rw [hfields] at hid
        cases hid
        rw [haction]
        exact ⟨_, err, heq⟩

end Aquatic.Udp.Protocol
