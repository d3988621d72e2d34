import Aquatic.Lib.Text
import Aquatic.Udp.ProtocolSpec

/-!
# Requests as they are written and parsed

A field is read exactly where it is written: `writeBytes` gives back the bytes that a
request was parsed from. The parser is stated once more with the places named in
which the code could panic.
-/

namespace Aquatic.Udp.Protocol
open Bytes
set_option autoImplicit false

theorem beBits_concat (w : Nat) (bytes : List UInt8) (byte : UInt8) :
    beBits w (bytes ++ [byte]) = beBits w bytes <<< 8 ||| byte.toBitVec.setWidth w := by
  rw [beBits, beBits, List.foldl_append]
  rfl

/-- The bit `i` is in the byte `i / 8` from the end. -/
theorem getLsbD_beBits {w : Nat} (bytes : List UInt8) (i : Nat) (hi : i < w) :
    (beBits w bytes).getLsbD i = (bytes.reverse.getD (i / 8) 0).toBitVec.getLsbD (i % 8) := by
  induction bytes using List.reverseRecOn generalizing i with
  | nil => simp [beBits]
  | append_singleton bytes byte ih =>
    rw [beBits_concat, List.reverse_append, List.reverse_singleton, List.singleton_append,
      BitVec.getLsbD_or, BitVec.getLsbD_shiftLeft, BitVec.getLsbD_setWidth]
    by_cases hlow : i < 8
    · simp [hlow, hi, Nat.div_eq_of_lt hlow, Nat.mod_eq_of_lt hlow]
    · have hdiv : i / 8 = (i - 8) / 8 + 1 := by omega
      have hmod : i % 8 = (i - 8) % 8 := by omega
      have hhigh : byte.toBitVec.getLsbD i = false := BitVec.getLsbD_of_ge _ _ (by omega)
      rw [hdiv, hmod, List.getD_cons_succ, ← ih (i - 8) (by omega), hhigh]
      simp [hlow, hi]

theorem reverse_beBytes {w : Nat} (bits : BitVec w) : (beBytes bits).reverse =
    (List.range (w / 8)).map fun i => UInt8.ofBitVec ((bits >>> (8 * i)).setWidth 8) := by
  rw [beBytes, ← List.map_reverse, List.reverse_reverse]

theorem beBits_beBytes {w : Nat} (h : w % 8 = 0) (bits : BitVec w) :
    beBits w (beBytes bits) = bits := by
  apply BitVec.eq_of_getLsbD_eq
  intro i hi
  have hbyte : i / 8 < w / 8 := by omega
  have hbit : 8 * (i / 8) + i % 8 = i := by omega
  rw [getLsbD_beBits _ i hi, reverse_beBytes]
  simp [hbyte, hbit, Nat.mod_lt]

theorem beBytes_beBits {w : Nat} {bytes : List UInt8} (h : 8 * bytes.length = w) :
    beBytes (beBits w bytes) = bytes := by
  apply List.reverse_injective
  rw [reverse_beBytes]
  apply List.ext_getElem
  · simp
    omega
  · intro i hi hi'
    rw [List.length_map, List.length_range] at hi
    rw [List.getElem_map, List.getElem_range]
    apply UInt8.eq_of_toBitVec_eq
    apply BitVec.eq_of_getLsbD_eq
    intro j hj
    have hdiv : (8 * i + j) / 8 = i := by omega
    have hmod : (8 * i + j) % 8 = j := by omega
    simp only [BitVec.getLsbD_setWidth, BitVec.getLsbD_ushiftRight, hj, decide_true, Bool.true_and]
    rw [getLsbD_beBits _ _ (by omega), hdiv, hmod, List.getD_eq_getElem?_getD,
      List.getElem?_eq_getElem hi', Option.getD_some]

section Fields
variable {bytes rest : List UInt8}

theorem readWith_eq_some_iff {n : Nat} {α : Type} {decode : Vector UInt8 n → α} (encode : α → List UInt8)
    (hencode : ∀ field, encode (decode field) = field.toList)
    (hdecode : ∀ a, ∃ field, encode a = field.toList ∧ decode field = a) {value : α} :
    readWith n decode bytes = some (value, rest) ↔ bytes = encode value ++ rest := by
  constructor
  · intro h
    obtain ⟨⟨field, rest'⟩, hread, heq⟩ := Option.map_eq_some_iff.mp h
    cases heq
    rw [hencode]
    exact readExact_eq_some_iff.mp hread
  · intro h
    obtain ⟨field, hfield, rfl⟩ := hdecode value
    rw [hfield] at h
    rw [readWith, readExact_eq_some_iff.mpr h]
    rfl

theorem exists_field {w n : Nat} (h : w = 8 * n) (bits : BitVec w) :
    ∃ field : Vector UInt8 n, beBytes bits = field.toList ∧ beBits w field.toList = bits := by
  have hlength : (beBytes bits).length = n := by
    rw [length_beBytes, h]
    omega
  refine ⟨⟨(beBytes bits).toArray, by simpa using hlength⟩, rfl, ?_⟩
  exact beBits_beBytes (by omega) bits

theorem readI32_eq_some_iff {n : Int32} :
    readI32 bytes = some (n, rest) ↔ bytes = beBytes n.toBitVec ++ rest := by
  refine readWith_eq_some_iff (fun n : Int32 => beBytes n.toBitVec) ?_ ?_
  · intro field
    exact beBytes_beBits (by rw [field.length_toList])
  · intro n
    obtain ⟨field, hfield, hbits⟩ := exists_field (n := 4) rfl n.toBitVec
    exact ⟨field, hfield, congrArg Int32.ofBitVec hbits⟩

theorem readI64_eq_some_iff {n : Int64} :
    readI64 bytes = some (n, rest) ↔ bytes = beBytes n.toBitVec ++ rest := by
  refine readWith_eq_some_iff (fun n : Int64 => beBytes n.toBitVec) ?_ ?_
  · intro field
    exact beBytes_beBits (by rw [field.length_toList])
  · intro n
    obtain ⟨field, hfield, hbits⟩ := exists_field (n := 8) rfl n.toBitVec
    exact ⟨field, hfield, congrArg Int64.ofBitVec hbits⟩

theorem readU16_eq_some_iff {n : UInt16} :
    readU16 bytes = some (n, rest) ↔ bytes = beBytes n.toBitVec ++ rest := by
  refine readWith_eq_some_iff (fun n : UInt16 => beBytes n.toBitVec) ?_ ?_
  · intro field
    exact beBytes_beBits (by rw [field.length_toList])
  · intro n
    obtain ⟨field, hfield, hbits⟩ := exists_field (n := 2) rfl n.toBitVec
    exact ⟨field, hfield, congrArg UInt16.ofBitVec hbits⟩

theorem bind_of_eq {α β : Type} {x : Option α} {a : α} (h : x = some a) {f : α → Option β}
    {b : β} (hf : f a = some b) : (x >>= f) = some b := by
  rw [h]
  exact hf

theorem readI32_append (n : Int32) (rest : List UInt8) :
    readI32 (beBytes n.toBitVec ++ rest) = some (n, rest) :=
  readI32_eq_some_iff.mpr rfl

theorem readI64_append (n : Int64) (rest : List UInt8) :
    readI64 (beBytes n.toBitVec ++ rest) = some (n, rest) :=
  readI64_eq_some_iff.mpr rfl

theorem readU16_append (n : UInt16) (rest : List UInt8) :
    readU16 (beBytes n.toBitVec ++ rest) = some (n, rest) :=
  readU16_eq_some_iff.mpr rfl

end Fields

def ConnectRequest.writeBytes (request : ConnectRequest) : List UInt8 :=
  beBytes protocolIdentifier.toBitVec ++ beBytes (0 : Int32).toBitVec ++
    beBytes request.transactionId.toBitVec

def AnnounceRequest.writeBytes (request : AnnounceRequest) : List UInt8 :=
  beBytes request.connectionId.value.toBitVec ++ beBytes request.actionPlaceholder.toBitVec ++
    beBytes request.transactionId.toBitVec ++ request.infoHash.bytes.toList ++
    request.peerId.bytes.toList ++ beBytes request.bytesDownloaded.toBitVec ++
    beBytes request.bytesLeft.toBitVec ++ beBytes request.bytesUploaded.toBitVec ++
    beBytes request.event.value.toBitVec ++ request.ipAddress.bytes.toList ++
    beBytes request.key.toBitVec ++ beBytes request.peersWanted.toBitVec ++
    beBytes request.port.toBitVec

def ScrapeRequest.writeBytes (request : ScrapeRequest) : List UInt8 :=
  beBytes request.connectionId.value.toBitVec ++ beBytes (2 : Int32).toBitVec ++
    beBytes request.transactionId.toBitVec ++
    request.infoHashes.flatMap fun infoHash => infoHash.bytes.toList

def Request.writeBytes : Request → List UInt8
  | .connect request => request.writeBytes
  | .announce request => request.writeBytes
  | .scrape request => request.writeBytes

theorem ConnectRequest.length_writeBytes (request : ConnectRequest) :
    request.writeBytes.length = 16 := by
  simp [writeBytes, length_beBytes]

theorem AnnounceRequest.length_writeBytes (request : AnnounceRequest) :
    request.writeBytes.length = 98 := by
  simp [writeBytes, length_beBytes]

theorem ScrapeRequest.length_writeBytes (request : ScrapeRequest) :
    request.writeBytes.length = 16 + 20 * request.infoHashes.length := by
  simp [writeBytes, length_beBytes, List.length_flatMap, Nat.mul_comm]
  omega

/-- Reading the fields of an announce undoes writing them. -/
theorem AnnounceRequest.readFromPrefix_eq_some_iff {bytes : List UInt8} {request : AnnounceRequest} :
    readFromPrefix bytes = some request ↔ request.writeBytes <+: bytes := by
  constructor
  · intro h
    obtain ⟨⟨_, _⟩, h1, h⟩ := Option.bind_eq_some_iff.mp h
    obtain ⟨⟨_, _⟩, h2, h⟩ := Option.bind_eq_some_iff.mp h
    obtain ⟨⟨_, _⟩, h3, h⟩ := Option.bind_eq_some_iff.mp h
    obtain ⟨⟨_, _⟩, h4, h⟩ := Option.bind_eq_some_iff.mp h
    obtain ⟨⟨_, _⟩, h5, h⟩ := Option.bind_eq_some_iff.mp h
    obtain ⟨⟨_, _⟩, h6, h⟩ := Option.bind_eq_some_iff.mp h
    obtain ⟨⟨_, _⟩, h7, h⟩ := Option.bind_eq_some_iff.mp h
    obtain ⟨⟨_, _⟩, h8, h⟩ := Option.bind_eq_some_iff.mp h
    obtain ⟨⟨_, _⟩, h9, h⟩ := Option.bind_eq_some_iff.mp h
    obtain ⟨⟨_, _⟩, h10, h⟩ := Option.bind_eq_some_iff.mp h
    obtain ⟨⟨_, _⟩, h11, h⟩ := Option.bind_eq_some_iff.mp h
    obtain ⟨⟨_, _⟩, h12, h⟩ := Option.bind_eq_some_iff.mp h
    obtain ⟨⟨_, rest⟩, h13, h⟩ := Option.bind_eq_some_iff.mp h
    cases h
    refine ⟨rest, ?_⟩
    rw [readI64_eq_some_iff.mp h1, readI32_eq_some_iff.mp h2, readI32_eq_some_iff.mp h3,
      readExact_eq_some_iff.mp h4, readExact_eq_some_iff.mp h5, readI64_eq_some_iff.mp h6,
      readI64_eq_some_iff.mp h7, readI64_eq_some_iff.mp h8, readI32_eq_some_iff.mp h9,
      readExact_eq_some_iff.mp h10, readI32_eq_some_iff.mp h11, readI32_eq_some_iff.mp h12,
      readU16_eq_some_iff.mp h13]
    simp only [writeBytes, List.append_assoc]
  · rintro ⟨rest, rfl⟩
    simp only [writeBytes, List.append_assoc]
    unfold readFromPrefix
    refine bind_of_eq (readI64_append _ _) ?_
    refine bind_of_eq (readI32_append _ _) ?_
    refine bind_of_eq (readI32_append _ _) ?_
    refine bind_of_eq (readExact_append _ _) ?_
    refine bind_of_eq (readExact_append _ _) ?_
    refine bind_of_eq (readI64_append _ _) ?_
    refine bind_of_eq (readI64_append _ _) ?_
    refine bind_of_eq (readI64_append _ _) ?_
    refine bind_of_eq (readI32_append _ _) ?_
    refine bind_of_eq (readExact_append _ _) ?_
    refine bind_of_eq (readI32_append _ _) ?_
    refine bind_of_eq (readI32_append _ _) ?_
    refine bind_of_eq (readU16_append _ _) ?_
    rfl

section Parse
variable {bytes rest : List UInt8} {maxScrapeTorrents : UInt8}

theorem orEof_bind_of_eq {α β : Type} {x : Option α} {a : α} (h : x = some a)
    {f : α → Except RequestParseError β} {r : Except RequestParseError β} (hf : f a = r) :
    (orEof x >>= f) = r := by
  rw [h]
  exact hf

theorem orEof_bind_of_none {α β : Type} {x : Option α} (h : x = none)
    {f : α → Except RequestParseError β} :
    (orEof x >>= f) = .error (RequestParseError.unsendableIo .unexpectedEof) := by
  rw [h]
  rfl

/-- The action is what follows the first eight bytes. -/
theorem action_append (first : Int64) (code : Int32) (rest : List UInt8) :
    Request.action (beBytes first.toBitVec ++ (beBytes code.toBitVec ++ rest)) = some code := by
  have hfirst : (beBytes first.toBitVec).length = 8 := length_beBytes _
  rw [Request.action, List.drop_left' hfirst, readI32_append]
  rfl

theorem parseBytes_of_action_zero (h : Request.action bytes = some 0) :
    Request.parseBytes bytes maxScrapeTorrents = Request.parseConnect bytes := by
  rw [Request.parseBytes, h]
  rfl

theorem parseBytes_of_action_one (h : Request.action bytes = some 1) :
    Request.parseBytes bytes maxScrapeTorrents = Request.parseAnnounce bytes := by
  rw [Request.parseBytes, h]
  rfl

theorem parseBytes_of_action_two (h : Request.action bytes = some 2) :
    Request.parseBytes bytes maxScrapeTorrents = Request.parseScrape bytes maxScrapeTorrents := by
  rw [Request.parseBytes, h]
  rfl

theorem parseBytes_connect (request : ConnectRequest) :
    Request.parseBytes (Request.connect request).writeBytes maxScrapeTorrents =
      .ok (.connect request) := by
  have hbytes : (Request.connect request).writeBytes = beBytes protocolIdentifier.toBitVec ++
      (beBytes (0 : Int32).toBitVec ++ (beBytes request.transactionId.toBitVec ++ [])) := by
    simp [Request.writeBytes, ConnectRequest.writeBytes]
  rw [hbytes, parseBytes_of_action_zero (action_append _ _ _)]
  refine orEof_bind_of_eq (readI64_append _ _) ?_
  refine orEof_bind_of_eq (readI32_append _ _) ?_
  exact orEof_bind_of_eq (readI32_append _ _) rfl

theorem parseBytes_announce {request : AnnounceRequest} (haction : request.actionPlaceholder = 1)
    (hport : request.port ≠ 0) (hevent : 0 ≤ request.event.value ∧ request.event.value ≤ 3) :
    Request.parseBytes (Request.announce request).writeBytes maxScrapeTorrents =
      .ok (.announce request) := by
  have hcode : Request.action request.writeBytes = some 1 := by
    rw [← haction]
    simp only [AnnounceRequest.writeBytes, List.append_assoc]
    exact action_append _ _ _
  have hfields := AnnounceRequest.readFromPrefix_eq_some_iff.mpr (List.prefix_refl request.writeBytes)
  rw [Request.writeBytes, parseBytes_of_action_one hcode, Request.parseAnnounce, hfields]
  simp [hport, hevent.1, hevent.2]

theorem parseBytes_scrape {request : ScrapeRequest} (hnil : request.infoHashes ≠ [])
    (hmax : request.infoHashes.length ≤ maxScrapeTorrents.toNat) :
    Request.parseBytes (Request.scrape request).writeBytes maxScrapeTorrents =
      .ok (.scrape request) := by
  have hbytes : (Request.scrape request).writeBytes =
      beBytes request.connectionId.value.toBitVec ++ (beBytes (2 : Int32).toBitVec ++
        (beBytes request.transactionId.toBitVec ++
          (request.infoHashes.map InfoHash.bytes).flatMap Vector.toList)) := by
    simp [Request.writeBytes, ScrapeRequest.writeBytes, List.flatMap_map]
  have hempty : ((request.infoHashes.map InfoHash.bytes).flatMap Vector.toList).isEmpty = false := by
    have hlength : 0 < request.infoHashes.length := List.length_pos_iff.mpr hnil
    rw [List.isEmpty_eq_false_iff, ← List.length_pos_iff, length_flatMap, List.length_map]
    omega
  have hslice : sliceFrom 20 ((request.infoHashes.map InfoHash.bytes).flatMap Vector.toList) =
      some (request.infoHashes.map InfoHash.bytes) := (sliceFrom_eq_some_iff (by decide)).mpr rfl
  have htake : ((request.infoHashes.map InfoHash.bytes).take maxScrapeTorrents.toNat).map InfoHash.mk =
      request.infoHashes := by
    rw [List.take_of_length_le (by simpa using hmax), List.map_map]
    exact List.map_id _
  rw [hbytes, parseBytes_of_action_two (action_append _ _ _)]
  refine orEof_bind_of_eq (readI64_append _ _) ?_
  refine orEof_bind_of_eq (readI32_append _ _) ?_
  refine orEof_bind_of_eq (readI32_append _ _) ?_
  simp only [hempty, hslice, htake, Bool.false_eq_true, if_false]

theorem ok_of_orEof_bind {α : Type} {x : Option α} {f : α → Except RequestParseError Request}
    {request : Request} (h : (orEof x >>= f) = .ok request) : ∃ a, x = some a ∧ f a = .ok request := by
  rcases orEof_bind_eq h with ⟨-, herr⟩ | hread
  · cases herr
  · exact hread

theorem writeBytes_of_parseConnect {request : Request} (haction : Request.action bytes = some 0)
    (h : Request.parseConnect bytes = .ok request) :
    ∃ connect, request = .connect connect ∧ connect.writeBytes <+: bytes := by
  obtain ⟨⟨identifier, bytes'⟩, h1, h⟩ := ok_of_orEof_bind h
  obtain ⟨⟨code, bytes''⟩, h2, h⟩ := ok_of_orEof_bind h
  obtain ⟨⟨transactionId, rest⟩, h3, h⟩ := ok_of_orEof_bind h
  simp only at h h2 h3
  split at h
  · rename_i hidentifier
    cases h
    rw [readI64_eq_some_iff.mp h1, readI32_eq_some_iff.mp h2, readI32_eq_some_iff.mp h3] at haction ⊢
    rw [action_append] at haction
    cases haction
    refine ⟨⟨transactionId⟩, rfl, rest, ?_⟩
    rw [hidentifier]
    simp [ConnectRequest.writeBytes]
  · cases h

theorem writeBytes_of_parseScrape {request : Request} (haction : Request.action bytes = some 2)
    (h : Request.parseScrape bytes maxScrapeTorrents = .ok request) :
    ∃ scrape n, request = .scrape scrape ∧ scrape.writeBytes <+: bytes ∧
      bytes.length = 16 + 20 * n ∧ scrape.infoHashes.length = min n maxScrapeTorrents.toNat := by
  obtain ⟨⟨connectionId, bytes'⟩, h1, h⟩ := ok_of_orEof_bind h
  obtain ⟨⟨code, bytes''⟩, h2, h⟩ := ok_of_orEof_bind h
  obtain ⟨⟨transactionId, rest⟩, h3, h⟩ := ok_of_orEof_bind h
  simp only at h h2 h3
  split at h
  · cases h
  split at h
  · cases h
  rename_i infoHashes hslice
  cases h
  rw [readI64_eq_some_iff.mp h1, readI32_eq_some_iff.mp h2, readI32_eq_some_iff.mp h3,
    (sliceFrom_eq_some_iff (by decide)).mp hslice] at haction ⊢
  rw [action_append] at haction
  cases haction
  refine ⟨_, infoHashes.length, rfl, ?_, ?_, ?_⟩
  · refine ⟨(infoHashes.drop maxScrapeTorrents.toNat).flatMap Vector.toList, ?_⟩
    have hsplit := congrArg (List.flatMap Vector.toList)
      (List.take_append_drop maxScrapeTorrents.toNat infoHashes)
    rw [List.flatMap_append] at hsplit
    simp only [ScrapeRequest.writeBytes, List.flatMap_map, List.append_assoc]
    rw [← hsplit]
  · simp [length_beBytes]
    omega
  · simp [Nat.min_comm]

end Parse

/-- `Cursor<&[u8]>`. The code indexes slices and converts them to arrays; `none` stands for a
panic. -/
structure Cursor where
  inner : List UInt8
  position : Nat
  deriving DecidableEq, Repr

namespace Cursor

def read {α : Type} (n : Nat) (decode : Vector UInt8 n → α) (cursor : Cursor) : Option (α × Cursor) :=
  (readWith n decode (cursor.inner.drop cursor.position)).map fun (a, _) =>
    (a, { cursor with position := cursor.position + n })

def readI32Ne (cursor : Cursor) : Option (Int32 × Cursor) :=
  cursor.read 4 fun field => Int32.ofBitVec (beBits 32 field.toList)

def readI64Ne (cursor : Cursor) : Option (Int64 × Cursor) :=
  cursor.read 8 fun field => Int64.ofBitVec (beBits 64 field.toList)

end Cursor

/-- `try_into().unwrap()` to an array. -/
def tryIntoUnwrap (n : Nat) (bytes : List UInt8) : Option (Vector UInt8 n) :=
  if h : bytes.length = n then some ⟨bytes.toArray, h⟩ else none

/-- `&inner[position..]`. -/
def indexFrom {α : Type} (list : List α) (position : Nat) : Option (List α) :=
  if position ≤ list.length then some (list.drop position) else none

/-- `&list[..n]`. -/
def indexTo {α : Type} (list : List α) (n : Nat) : Option (List α) :=
  if n ≤ list.length then some (list.take n) else none

namespace Request

def actionOrPanic (bytes : List UInt8) : Option (Option Int32) :=
  match Text.slice bytes 8 12 with
  | none => some none
  | some field => (tryIntoUnwrap 4 field).map fun field =>
      some (Int32.ofBitVec (beBits 32 field.toList))

/-- The first number, the transaction id, and the cursor behind it. -/
def readHeader (bytes : List UInt8) : Except RequestParseError (Int64 × Int32 × Cursor) := do
  let (first, cursor) ← orEof (Cursor.readI64Ne ⟨bytes, 0⟩)
  let (_, cursor) ← orEof cursor.readI32Ne
  let (transactionId, cursor) ← orEof cursor.readI32Ne
  return (first, transactionId, cursor)

def parseConnectOrPanic (bytes : List UInt8) : Option (Except RequestParseError Request) :=
  match readHeader bytes with
  | .error err => some (.error err)
  | .ok (identifier, transactionId, _) =>
    if identifier = protocolIdentifier then some (.ok (.connect ⟨transactionId⟩))
    else some (.error (RequestParseError.unsendableText "Protocol identifier missing"))

def parseScrapeOrPanic (bytes : List UInt8) (maxScrapeTorrents : UInt8) :
    Option (Except RequestParseError Request) :=
  match readHeader bytes with
  | .error err => some (.error err)
  | .ok (connectionId, transactionId, cursor) => do
    let remaining ← indexFrom cursor.inner cursor.position
    if remaining.isEmpty then
      return .error (RequestParseError.sendableText "Full scrapes are not allowed" ⟨connectionId⟩
        transactionId)
    else
      match sliceFrom 20 remaining with
      | none => return .error (RequestParseError.sendableText "Invalid info hash list"
          ⟨connectionId⟩ transactionId)
      | some infoHashes =>
        let infoHashes ← indexTo infoHashes (min maxScrapeTorrents.toNat infoHashes.length)
        return .ok (.scrape ⟨⟨connectionId⟩, transactionId, infoHashes.map InfoHash.mk⟩)

def parseBytesOrPanic (bytes : List UInt8) (maxScrapeTorrents : UInt8) :
    Option (Except RequestParseError Request) := do
  match ← actionOrPanic bytes with
  | none => return .error (RequestParseError.unsendableText "Couldn't parse action")
  | some action =>
    if action = 0 then parseConnectOrPanic bytes
    else if action = 1 then return parseAnnounce bytes
    else if action = 2 then parseScrapeOrPanic bytes maxScrapeTorrents
    else return .error (RequestParseError.unsendableText "Invalid action")

theorem actionOrPanic_eq (bytes : List UInt8) : actionOrPanic bytes = some (action bytes) := by
  unfold actionOrPanic action readI32 readWith readExact Text.slice
  by_cases hlength : 12 ≤ bytes.length
  · have hfour : 4 ≤ bytes.length - 8 := by omega
    simp [hlength, hfour, tryIntoUnwrap]
  · have hfour : ¬ 4 ≤ bytes.length - 8 := by omega
    simp [hlength, hfour]

/-- The header as the other parsers read it, and what comes after it. -/
def header (bytes : List UInt8) : Except RequestParseError (Int64 × Int32 × List UInt8) := do
  let (first, bytes) ← orEof (readI64 bytes)
  let (_, bytes) ← orEof (readI32 bytes)
  let (transactionId, bytes) ← orEof (readI32 bytes)
  return (first, transactionId, bytes)

/-- What is made of the header and the rest of a scrape. -/
def scrapeOf (maxScrapeTorrents : UInt8) (e : Int64 × Int32 × List UInt8) :
    Except RequestParseError Request :=
  if e.2.2.isEmpty then
    .error (RequestParseError.sendableText "Full scrapes are not allowed" ⟨e.1⟩ e.2.1)
  else
    match sliceFrom 20 e.2.2 with
    | none => .error (RequestParseError.sendableText "Invalid info hash list" ⟨e.1⟩ e.2.1)
    | some infoHashes =>
      .ok (.scrape ⟨⟨e.1⟩, e.2.1, (infoHashes.take maxScrapeTorrents.toNat).map InfoHash.mk⟩)

theorem header_bind {β : Type} (bytes : List UInt8)
    (f : Int64 → Int32 → List UInt8 → Except RequestParseError β) :
    (orEof (readI64 bytes) >>= fun e1 => orEof (readI32 e1.2) >>= fun e2 =>
        orEof (readI32 e2.2) >>= fun e3 => f e1.1 e3.1 e3.2) =
      header bytes >>= fun e => f e.1 e.2.1 e.2.2 := by
  unfold header
  cases readI64 bytes with
  | none => rfl
  | some e1 =>
    change (orEof (readI32 e1.2) >>= _) = (orEof (readI32 e1.2) >>= _) >>= _
    cases readI32 e1.2 with
    | none => rfl
    | some e2 =>
      change (orEof (readI32 e2.2) >>= _) = (orEof (readI32 e2.2) >>= _) >>= _
      cases readI32 e2.2 with
      | none => rfl
      | some e3 => rfl

theorem parseConnect_eq (bytes : List UInt8) : parseConnect bytes = header bytes >>= fun e =>
    if e.1 = protocolIdentifier then .ok (.connect ⟨e.2.1⟩)
    else .error (RequestParseError.unsendableText "Protocol identifier missing") :=
  header_bind bytes fun first transactionId _ =>
    if first = protocolIdentifier then .ok (Request.connect ⟨transactionId⟩)
    else .error (RequestParseError.unsendableText "Protocol identifier missing")

theorem parseScrape_eq (bytes : List UInt8) (maxScrapeTorrents : UInt8) :
    parseScrape bytes maxScrapeTorrents = header bytes >>= scrapeOf maxScrapeTorrents :=
  header_bind bytes fun first transactionId rest =>
    scrapeOf maxScrapeTorrents (first, transactionId, rest)

theorem header_cases (bytes : List UInt8) :
    header bytes = .error (RequestParseError.unsendableIo .unexpectedEof) ∧
        readHeader bytes = .error (RequestParseError.unsendableIo .unexpectedEof) ∨
      ∃ first transactionId, 16 ≤ bytes.length ∧
        header bytes = .ok (first, transactionId, bytes.drop 16) ∧
        readHeader bytes = .ok (first, transactionId, ⟨bytes, 16⟩) := by
  have hread64 : Cursor.readI64Ne ⟨bytes, 0⟩ =
      (readI64 bytes).map fun e => (e.1, ⟨bytes, 8⟩) := rfl
  have hread32 : ∀ p, Cursor.readI32Ne ⟨bytes, p⟩ =
      (readI32 (bytes.drop p)).map fun e => (e.1, ⟨bytes, p + 4⟩) := fun p => rfl
  rcases h1 : readI64 bytes with _ | ⟨first, rest⟩
  · rw [h1] at hread64
    exact .inl ⟨orEof_bind_of_none h1, orEof_bind_of_none hread64⟩
  obtain ⟨hlength1, rfl⟩ := drop_of_readWith h1
  rw [h1] at hread64
  have h8 := hread32 8
  rcases h2 : readI32 (bytes.drop 8) with _ | ⟨code, rest⟩
  · rw [h2] at h8
    exact .inl ⟨orEof_bind_of_eq h1 (orEof_bind_of_none h2),
      orEof_bind_of_eq hread64 (orEof_bind_of_none h8)⟩
  obtain ⟨hlength2, rfl⟩ := drop_of_readWith h2
  rw [h2] at h8
  have h12 := hread32 12
  rw [List.drop_drop] at h2
  rcases h3 : readI32 (bytes.drop 12) with _ | ⟨transactionId, rest⟩
  · rw [h3] at h12
    exact .inl ⟨orEof_bind_of_eq h1 (orEof_bind_of_eq h2 (orEof_bind_of_none h3)),
      orEof_bind_of_eq hread64 (orEof_bind_of_eq h8 (orEof_bind_of_none h12))⟩
  obtain ⟨hlength3, rfl⟩ := drop_of_readWith h3
  rw [h3] at h12
  rw [List.drop_drop] at h3
  rw [List.length_drop] at hlength3
  refine .inr ⟨first, transactionId, by omega, ?_, ?_⟩
  · exact orEof_bind_of_eq h1 (orEof_bind_of_eq h2 (orEof_bind_of_eq h3 rfl))
  · exact orEof_bind_of_eq hread64 (orEof_bind_of_eq h8 (orEof_bind_of_eq h12 rfl))

theorem parseConnectOrPanic_eq (bytes : List UInt8) :
    parseConnectOrPanic bytes = some (parseConnect bytes) := by
  rw [parseConnect_eq, parseConnectOrPanic]
  rcases header_cases bytes with ⟨hheader, hread⟩ | ⟨first, transactionId, -, hheader, hread⟩
  · rw [hheader, hread]
    rfl
  · rw [hheader, hread]
    change (if first = protocolIdentifier then _ else _) =
      some (if first = protocolIdentifier then _ else _)
    split
    · rfl
    · rfl

theorem parseScrapeOrPanic_eq (bytes : List UInt8) (maxScrapeTorrents : UInt8) :
    parseScrapeOrPanic bytes maxScrapeTorrents = some (parseScrape bytes maxScrapeTorrents) := by
  rw [parseScrape_eq, parseScrapeOrPanic]
  rcases header_cases bytes with ⟨hheader, hread⟩ | ⟨first, transactionId, hlength, hheader, hread⟩
  · rw [hheader, hread]
    rfl
  · rw [hheader, hread]
    change (indexFrom bytes 16 >>= _) = some (scrapeOf maxScrapeTorrents (first, transactionId, _))
    rw [indexFrom, if_pos hlength]
    change (if (bytes.drop 16).isEmpty then _ else _) = _
    rw [scrapeOf]
    cases hempty : (bytes.drop 16).isEmpty with
    | true => rfl
    | false =>
      simp only [Bool.false_eq_true, if_false]
      cases hslice : sliceFrom 20 (bytes.drop 16) with
      | none => rfl
      | some infoHashes =>
        have hle : min maxScrapeTorrents.toNat infoHashes.length ≤ infoHashes.length :=
          Nat.min_le_right _ _
        simp only [indexTo, if_pos hle, ← List.take_eq_take_min]
        rfl

theorem parseBytesOrPanic_eq (bytes : List UInt8) (maxScrapeTorrents : UInt8) :
    parseBytesOrPanic bytes maxScrapeTorrents = some (parseBytes bytes maxScrapeTorrents) := by
  unfold parseBytesOrPanic parseBytes
  rw [actionOrPanic_eq, parseConnectOrPanic_eq, parseScrapeOrPanic_eq]
  cases action bytes with
  | none => rfl
  | some code =>
    simp only [Option.bind_eq_bind, Option.bind_some]
    split
    · rfl
    split
    · rfl
    split
    · rfl
    · rfl

/-- Requests that a client may send to a tracker that answers for so many torrents. -/
def Sendable (maxScrapeTorrents : UInt8) : Request → Prop
  | .connect _ => True
  | .announce request => request.actionPlaceholder = 1 ∧ request.port ≠ 0 ∧
      0 ≤ request.event.value ∧ request.event.value ≤ 3
  | .scrape request => request.infoHashes ≠ [] ∧
      request.infoHashes.length ≤ maxScrapeTorrents.toNat

/-- The request is what stands at the front of the bytes, in its whole length. -/
def FrontOf (bytes : List UInt8) (maxScrapeTorrents : UInt8) (request : Request) : Prop :=
  request.writeBytes <+: bytes ∧
    match request with
    | .connect _ => request.writeBytes.length = 16
    | .announce _ => request.writeBytes.length = 98
    | .scrape _ => ∃ n, bytes.length = 16 + 20 * n ∧
        request.writeBytes.length = 16 + 20 * min n maxScrapeTorrents.toNat

theorem parseBytes_writeBytes {maxScrapeTorrents : UInt8} {request : Request}
    (h : request.Sendable maxScrapeTorrents) :
    parseBytes request.writeBytes maxScrapeTorrents = .ok request := by
  cases request with
  | connect request => exact parseBytes_connect request
  | announce request => exact parseBytes_announce h.1 h.2.1 h.2.2
  | scrape request => exact parseBytes_scrape h.1 h.2

theorem frontOf_of_parseBytes {bytes : List UInt8} {maxScrapeTorrents : UInt8} {request : Request}
    (h : parseBytes bytes maxScrapeTorrents = .ok request) :
    request.FrontOf bytes maxScrapeTorrents := by
  unfold parseBytes at h
  split at h
  · cases h
  rename_i code hcode
  split at h
  · rename_i hzero
    rw [hzero] at hcode
    obtain ⟨connect, rfl, hfront⟩ := writeBytes_of_parseConnect hcode h
    exact ⟨hfront, connect.length_writeBytes⟩
  split at h
  · obtain ⟨-, err, herr⟩ | ⟨announce, hannounce, ⟨heq, -⟩ | ⟨⟨err, herr⟩, -⟩⟩ :=
      parseAnnounce_spec h
    · cases herr
    · cases heq
      exact ⟨AnnounceRequest.readFromPrefix_eq_some_iff.mp hannounce, announce.length_writeBytes⟩
    · cases herr
  split at h
  · rename_i htwo
    rw [htwo] at hcode
    obtain ⟨scrape, n, rfl, hfront, hlength, hhashes⟩ := writeBytes_of_parseScrape hcode h
    refine ⟨hfront, n, hlength, ?_⟩
    rw [← hhashes]
    exact scrape.length_writeBytes
  · cases h

/-- What is written is parsed as it was; the parser never panics, and what it accepts is
what a request at the front of the datagram says. -/
theorem codec :
    (∀ (request : Request) (maxScrapeTorrents : UInt8), request.Sendable maxScrapeTorrents →
      parseBytes request.writeBytes maxScrapeTorrents = .ok request) ∧
    ∀ (bytes : List UInt8) (maxScrapeTorrents : UInt8),
      parseBytesOrPanic bytes maxScrapeTorrents = some (parseBytes bytes maxScrapeTorrents) ∧
      ∀ request, parseBytes bytes maxScrapeTorrents = .ok request →
        request.FrontOf bytes maxScrapeTorrents := by
  constructor
  · intro request maxScrapeTorrents h
    exact parseBytes_writeBytes h
  · intro bytes maxScrapeTorrents
    refine ⟨parseBytesOrPanic_eq bytes maxScrapeTorrents, ?_⟩
    intro request h
    exact frontOf_of_parseBytes h

/-- The last announce of a client. -/
def stoppedRequest : Request :=
  .announce {
    connectionId := ⟨-2⟩
    actionPlaceholder := 1
    transactionId := 7
    infoHash := ⟨.replicate 20 0xab⟩
    peerId := ⟨.replicate 20 0x2d⟩
    bytesDownloaded := 1
    bytesLeft := -1
    bytesUploaded := 256
    event := ⟨3⟩
    ipAddress := ⟨.replicate 4 0⟩
    key := -5
    peersWanted := -1
    port := 6881 }

theorem codec_stoppedRequest :
    stoppedRequest.Sendable 70 ∧ parseBytes stoppedRequest.writeBytes 70 = .ok stoppedRequest ∧
      stoppedRequest.FrontOf stoppedRequest.writeBytes 70 := by
  have hsendable : stoppedRequest.Sendable 70 := by
    simp only [Sendable, stoppedRequest]
    decide
  have hparse := codec.1 stoppedRequest 70 hsendable
  exact ⟨hsendable, hparse, (codec.2 stoppedRequest.writeBytes 70).2 stoppedRequest hparse⟩

end Request

end Aquatic.Udp.Protocol
