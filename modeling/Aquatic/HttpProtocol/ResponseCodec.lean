import Aquatic.HttpProtocol.Response
import Aquatic.Lib.Bencode
import Aquatic.Lib.Bytes

/-!
# Responses as bencoded values

What is derived for the types of the responses: their dictionaries with keys in order, and
how they are read from such. Keys are those of the attributes, peer lists default to empty
ones, other keys are ignored, and of the three responses the first that fits is taken. The
reader of bencode is a parameter, of which no more is known than that it reads what is
canonical and has integers of 64 bits.
-/

namespace Aquatic.HttpProtocol
open Text Http Bencode
set_option autoImplicit false

def keyText (name : String) : List UInt8 := utf8 name.toList

def countValue (n : Nat) : Value := .integer (.ofNat n)

/-- `serialize_response_peers_ipv4` and `serialize_response_peers_ipv6`. -/
def peersValue {I : Type} {n : Nat} (octets : I → Vector UInt8 n) (peers : List (ResponsePeer I)) :
    Value :=
  .bytes (peers.flatMap fun peer => (octets peer.ipAddress).toList ++ portBytes peer.port)

def AnnounceResponse.value (response : AnnounceResponse) : Value :=
  .dict ([(keyText "complete", countValue response.complete),
    (keyText "incomplete", countValue response.incomplete),
    (keyText "interval", countValue response.announceInterval),
    (keyText "peers", peersValue Ipv4Addr.octets response.peers),
    (keyText "peers6", peersValue Ipv6Addr.octets response.peers6)] ++
    match response.warningMessage with
    | some warningMessage => [(keyText "warning message", .bytes (utf8 warningMessage))]
    | none => [])

def statisticsValue (statistics : ScrapeStatistics) : Value :=
  .dict [(keyText "complete", countValue statistics.complete),
    (keyText "downloaded", countValue statistics.downloaded),
    (keyText "incomplete", countValue statistics.incomplete)]

def fileEntry (file : InfoHash × ScrapeStatistics) : List UInt8 × Value :=
  (file.1.bytes.toList, statisticsValue file.2)

def scrapeValue (response : ScrapeResponse) : Value :=
  .dict [(keyText "files", .dict (response.files.toList.map fileEntry))]

def FailureResponse.value (response : FailureResponse) : Value :=
  .dict [(keyText "failure reason", .bytes (utf8 response.failureReason))]

def Response.value : Response → Value
  | .announce response => response.value
  | .scrape response => scrapeValue response
  | .failure response => response.value

def readCount : Value → Option Nat
  | .integer (.ofNat n) => some n
  | _ => none

def readString : Value → Option (List Char)
  | .bytes text => fromUtf8 text
  | _ => none

/-- An address and a port, each with its highest byte first. -/
def peerOfChunk {I : Type} {n : Nat} (addr : Vector UInt8 n → I) (chunk : Vector UInt8 (n + 2)) :
    ResponsePeer I where
  ipAddress := addr (.ofFn fun i => chunk[i.val])
  port := UInt16.ofNat (chunk[n].toNat * 256 + chunk[n + 1].toNat)

/-- `visit_bytes` of the two visitors: no bytes may remain behind the last chunk. -/
def readPeers {I : Type} (n : Nat) (addr : Vector UInt8 n → I) :
    Value → Option (List (ResponsePeer I))
  | .bytes value => (Bytes.sliceFrom (n + 2) value).map fun chunks => chunks.map (peerOfChunk addr)
  | _ => none

section Fields
variable {α : Type} (entries : List (List UInt8 × Value)) (name : String)

def field (read : Value → Option α) : Option α := (entries.lookup (keyText name)).bind read

/-- A field that need not be there. -/
def fieldOr (default : α) (read : Value → Option α) : Option α :=
  match entries.lookup (keyText name) with
  | some value => read value
  | none => some default

end Fields

def readAnnounce : Value → Option AnnounceResponse
  | .dict entries => do
    let announceInterval ← field entries "interval" readCount
    let complete ← field entries "complete" readCount
    let incomplete ← field entries "incomplete" readCount
    let peers ← fieldOr entries "peers" [] (readPeers 4 Ipv4Addr.mk)
    let peers6 ← fieldOr entries "peers6" [] (readPeers 16 Ipv6Addr.mk)
    let warningMessage ← fieldOr entries "warning message" none fun value =>
      (readString value).map some
    return { announceInterval, complete, incomplete, peers, peers6, warningMessage }
  | _ => none

def readStatistics : Value → Option ScrapeStatistics
  | .dict entries => do
    let complete ← field entries "complete" readCount
    let incomplete ← field entries "incomplete" readCount
    let downloaded ← field entries "downloaded" readCount
    return { complete, incomplete, downloaded }
  | _ => none

/-- `visit_bytes` of the visitor for twenty bytes. -/
def readInfoHash (value : List UInt8) : Option InfoHash :=
  if h : value.length = 20 then some ⟨⟨value.toArray, h⟩⟩ else none

def readFile (entry : List UInt8 × Value) : Option (InfoHash × ScrapeStatistics) := do
  let infoHash ← readInfoHash entry.1
  let statistics ← readStatistics entry.2
  return (infoHash, statistics)

def readFiles : Value → Option (Std.TreeMap InfoHash ScrapeStatistics)
  | .dict entries => (entries.mapM readFile).map fun files => Std.TreeMap.ofList files
  | _ => none

def readScrape : Value → Option ScrapeResponse
  | .dict entries => (field entries "files" readFiles).map ScrapeResponse.mk
  | _ => none

def readFailure : Value → Option FailureResponse
  | .dict entries => (field entries "failure reason" readString).map FailureResponse.mk
  | _ => none

def Response.ofValue (value : Value) : Option Response :=
  ((readAnnounce value).map Response.announce).or
    (((readScrape value).map Response.scrape).or ((readFailure value).map Response.failure))

/-- `fromBytes` is what `serde_bencode` makes of the bytes. -/
def Response.parseBytes (fromBytes : List UInt8 → Option Value) (bytes : List UInt8) :
    Option Response := (fromBytes bytes).bind Response.ofValue

/-- The integers of the reader are those of an `i64`. -/
def fitsI64 (n : Int) : Bool := decide (-0x8000000000000000 ≤ n) && decide (n < 0x8000000000000000)

/-- A value in canonical form is read, unless an integer of it is out of range. -/
def ReadsCanonical (fromBytes : List UInt8 → Option Value) : Prop :=
  ∀ value, Sorted value → integersAll fitsI64 value = true → fromBytes (encode value) = some value

/-- The counters can be read. -/
def Response.InRange : Response → Prop
  | .announce response => response.announceInterval < 0x8000000000000000 ∧
      response.complete < 0x8000000000000000 ∧ response.incomplete < 0x8000000000000000
  | .scrape response => ∀ file ∈ response.files.toList, file.2.complete < 0x8000000000000000 ∧
      file.2.incomplete < 0x8000000000000000 ∧ file.2.downloaded < 0x8000000000000000
  | .failure _ => True

theorem keyText_beq (name other : String) : (keyText name == keyText other) = (name == other) := by
  by_cases h : name = other
  · simp [h]
  · have hne : keyText name ≠ keyText other := by
      intro heq
      have hparsed := congrArg fromUtf8 heq
      rw [keyText, keyText, fromUtf8_utf8, fromUtf8_utf8] at hparsed
      exact h (String.toList_inj.mp (Option.some.inj hparsed))
    rw [beq_false_of_ne h, beq_false_of_ne hne]

/-- The bytes of one peer are those that a chunk is read from. -/
theorem exists_chunk {I : Type} {n : Nat} {octets : I → Vector UInt8 n} {addr : Vector UInt8 n → I}
    (haddr : ∀ ip, addr (octets ip) = ip) (peer : ResponsePeer I) :
    ∃ chunk : Vector UInt8 (n + 2),
      chunk.toList = (octets peer.ipAddress).toList ++ portBytes peer.port ∧
        peerOfChunk addr chunk = peer := by
  obtain ⟨ip, port⟩ := peer
  have hport : port.toNat < 65536 := port.toNat_lt
  refine ⟨((octets ip).push (UInt8.ofNat (port.toNat / 256))).push (UInt8.ofNat (port.toNat % 256)),
    by simp [portBytes, Vector.toList_push], ?_⟩
  have hoctets : (Vector.ofFn fun i : Fin n =>
      (((octets ip).push (UInt8.ofNat (port.toNat / 256))).push
        (UInt8.ofNat (port.toNat % 256)))[i.val]) = octets ip := by
    ext i hi
    rw [Vector.getElem_ofFn, Vector.getElem_push_lt (by omega), Vector.getElem_push_lt hi]
  have hhigh : port.toNat / 256 % 256 = port.toNat / 256 := by omega
  have hsum : port.toNat / 256 * 256 + port.toNat % 256 = port.toNat := by omega
  rw [peerOfChunk, hoctets, haddr]
  congr 1
  simp [hhigh, hsum]

theorem readPeers_peersValue {I : Type} {n : Nat} {octets : I → Vector UInt8 n}
    {addr : Vector UInt8 n → I} (haddr : ∀ ip, addr (octets ip) = ip)
    (peers : List (ResponsePeer I)) : readPeers n addr (peersValue octets peers) = some peers := by
  have hchunks : ∃ chunks : List (Vector UInt8 (n + 2)),
      peers.flatMap (fun peer => (octets peer.ipAddress).toList ++ portBytes peer.port) =
        chunks.flatMap Vector.toList ∧ chunks.map (peerOfChunk addr) = peers := by
    induction peers with
    | nil => exact ⟨[], rfl, rfl⟩
    | cons peer peers ih =>
      obtain ⟨chunks, hbytes, hpeers⟩ := ih
      obtain ⟨chunk, hchunk, hpeer⟩ := exists_chunk haddr peer
      refine ⟨chunk :: chunks, ?_, ?_⟩
      · rw [List.flatMap_cons, List.flatMap_cons, hchunk, hbytes]
      · rw [List.map_cons, hpeer, hpeers]
  obtain ⟨chunks, hbytes, hpeers⟩ := hchunks
  simp only [readPeers, peersValue, (Bytes.sliceFrom_eq_some_iff (Nat.succ_pos _)).mpr hbytes,
    Option.map_some, hpeers]

theorem readAnnounce_value (response : AnnounceResponse) :
    readAnnounce response.value = some response := by
  have hpeers : readPeers 4 Ipv4Addr.mk (peersValue Ipv4Addr.octets response.peers) =
      some response.peers := readPeers_peersValue (fun _ => rfl) _
  have hpeers6 : readPeers 16 Ipv6Addr.mk (peersValue Ipv6Addr.octets response.peers6) =
      some response.peers6 := readPeers_peersValue (fun _ => rfl) _
  obtain ⟨announceInterval, complete, incomplete, peers, peers6, warningMessage⟩ := response
  cases warningMessage with
  | none =>
    simp [readAnnounce, AnnounceResponse.value, field, fieldOr, List.lookup_cons, keyText_beq, readCount,
      countValue, hpeers, hpeers6]
  | some warningMessage =>
    simp [readAnnounce, AnnounceResponse.value, field, fieldOr, List.lookup_cons, keyText_beq, readCount,
      countValue, hpeers, hpeers6, readString, fromUtf8_utf8]

theorem readFailure_value (response : FailureResponse) :
    readFailure response.value = some response ∧ readAnnounce response.value = none ∧
      readScrape response.value = none := by
  simp [readFailure, readAnnounce, readScrape, FailureResponse.value, field, List.lookup_cons,
    keyText_beq, readString, fromUtf8_utf8]

theorem readStatistics_value (statistics : ScrapeStatistics) :
    readStatistics (statisticsValue statistics) = some statistics := by
  simp [readStatistics, statisticsValue, field, List.lookup_cons, keyText_beq, readCount, countValue]

theorem readInfoHash_toList (infoHash : InfoHash) :
    readInfoHash infoHash.bytes.toList = some infoHash := by
  obtain ⟨⟨bytes, hsize⟩⟩ := infoHash
  have hlength : bytes.toList.length = 20 := hsize
  exact dif_pos hlength

/-- Digits are written in ASCII. -/
theorem itoa_eq (n : Nat) : itoa n = digits n := by
  have hdigits : ∀ text : List Char, (∀ c ∈ text, c.isDigit = true) →
      utf8 text = text.map Char.toUInt8 := by
    intro text htext
    induction text with
    | nil => rfl
    | cons c text ih =>
      rw [List.forall_mem_cons] at htext
      have hrange : 48 ≤ c.toNat ∧ c.toNat ≤ 57 := by
        simpa [Char.isDigit, UInt32.le_iff_toNat_le] using htext.1
      rw [utf8_cons_ascii (by omega), ih htext.2]
      rfl
  exact hdigits _ fun c hc => isDigit_of_mem_decimal hc

/-- What is between the numbers and the texts. -/
theorem literals :
    utf8 "d8:completei".toList = 0x64 :: (encodeText (keyText "complete") ++ [0x69]) ∧
    utf8 "e10:incompletei".toList = 0x65 :: (encodeText (keyText "incomplete") ++ [0x69]) ∧
    utf8 "e8:intervali".toList = 0x65 :: (encodeText (keyText "interval") ++ [0x69]) ∧
    utf8 "e5:peers".toList = 0x65 :: encodeText (keyText "peers") ∧
    utf8 "6:peers6".toList = encodeText (keyText "peers6") ∧
    utf8 "15:warning message".toList = encodeText (keyText "warning message") ∧
    utf8 "d14:failure reason".toList = 0x64 :: encodeText (keyText "failure reason") ∧
    utf8 ":".toList = [0x3a] ∧ utf8 "e".toList = [0x65] := by
  decide

theorem length_peers {I : Type} {n : Nat} (octets : I → Vector UInt8 n)
    (peers : List (ResponsePeer I)) :
    (peers.flatMap fun peer => (octets peer.ipAddress).toList ++ portBytes peer.port).length =
      peers.length * (n + 2) := by
  induction peers with
  | nil => simp
  | cons peer peers ih =>
    rw [List.flatMap_cons, List.length_append, ih, List.length_append, Vector.length_toList,
      List.length_cons, Nat.succ_mul, Nat.add_comm]
    rfl

theorem flatten_peers {I : Type} {n : Nat} (octets : I → Vector UInt8 n)
    (peers : List (ResponsePeer I)) :
    (peers.flatMap fun peer => [(octets peer.ipAddress).toList, portBytes peer.port]).flatten =
      peers.flatMap fun peer => (octets peer.ipAddress).toList ++ portBytes peer.port := by
  induction peers with
  | nil => rfl
  | cons peer peers ih =>
    rw [List.flatMap_cons, List.flatten_append, ih, List.flatMap_cons]
    simp

theorem AnnounceResponse.flatten_pieces (response : AnnounceResponse) :
    response.pieces.flatten = encode response.value := by
  obtain ⟨hcomplete, hincomplete, hinterval, hpeers, hpeers6, hwarning, -, hcolon, hend⟩ := literals
  have h4 := length_peers Ipv4Addr.octets response.peers
  have h6 := length_peers Ipv6Addr.octets response.peers6
  unfold pieces value
  cases response.warningMessage
  all_goals
    simp only [List.flatten_append, List.flatten_cons, List.flatten_nil, List.append_nil,
      flatten_peers Ipv4Addr.octets, flatten_peers Ipv6Addr.octets, hcomplete, hincomplete,
      hinterval, hpeers, hpeers6, hwarning, hcolon, hend, itoa_eq]
    simp [encode, encodeEntries, encodeText, peersValue, countValue, encodeInt, h4, h6]

theorem FailureResponse.flatten_pieces (response : FailureResponse) :
    response.pieces.flatten = encode response.value := by
  obtain ⟨-, -, -, -, -, -, hreason, hcolon, hend⟩ := literals
  simp only [pieces, value, List.flatten_cons, List.flatten_nil, List.append_nil, hreason, hcolon,
    hend, itoa_eq]
  simp [encode, encodeEntries, encodeText]

theorem AnnounceResponse.sorted (response : AnnounceResponse) : Sorted response.value := by
  have hkeys : [keyText "complete", keyText "incomplete", keyText "interval", keyText "peers",
      keyText "peers6", keyText "warning message"].Pairwise (· < ·) := by decide
  unfold value
  cases response.warningMessage with
  | none =>
    refine .dict (hkeys.sublist (List.sublist_append_left _ [keyText "warning message"])) ?_
    simp only [List.append_nil, List.forall_mem_cons]
    exact ⟨.integer _, .integer _, .integer _, .bytes _, .bytes _, List.forall_mem_nil _⟩
  | some warningMessage =>
    refine .dict hkeys ?_
    simp only [List.cons_append, List.nil_append, List.forall_mem_cons]
    exact ⟨.integer _, .integer _, .integer _, .bytes _, .bytes _, .bytes _, List.forall_mem_nil _⟩

theorem FailureResponse.sorted (response : FailureResponse) : Sorted response.value := by
  refine .dict (List.pairwise_singleton _ _) ?_
  simp only [List.forall_mem_cons]
  exact ⟨.bytes _, List.forall_mem_nil _⟩

/-- How many bytes were written to a vector, and what is in it then. -/
def writeToVec : List (List UInt8) → List UInt8 → Nat × List UInt8
  | [], output => (0, output)
  | piece :: pieces, output =>
    let (bytesWritten, output) := writeToVec pieces (output ++ piece)
    (piece.length + bytesWritten, output)

theorem writeToVec_eq (pieces : List (List UInt8)) (output : List UInt8) :
    writeToVec pieces output = (pieces.flatten.length, output ++ pieces.flatten) := by
  induction pieces generalizing output with
  | nil => simp [writeToVec]
  | cons piece pieces ih => simp [writeToVec, ih]

theorem fitsI64_natCast {n : Nat} (h : n < 0x8000000000000000) : fitsI64 n = true := by
  simp only [fitsI64, Bool.and_eq_true, decide_eq_true_eq]
  omega

theorem AnnounceResponse.integers {response : AnnounceResponse}
    (h : (Response.announce response).InRange) :
    integersAll fitsI64 response.value = true := by
  obtain ⟨hinterval, hcomplete, hincomplete⟩ := h
  unfold value
  cases response.warningMessage <;>
    simp [integersAll, integersAllEntries, countValue, peersValue, fitsI64_natCast hinterval,
      fitsI64_natCast hcomplete, fitsI64_natCast hincomplete]

/-- What is written is one dictionary in order, counted, and no other value. All fields are
in the value, and the response is read again if its counters can be. -/
structure Canonical (fromBytes : List UInt8 → Option Value) (response : Response) : Prop where
  dict : ∃ entries, response.value = .dict entries
  sorted : Sorted response.value
  written : ∀ output, writeToVec response.pieces output =
    ((encode response.value).length, output ++ encode response.value)
  decoded : ∀ value, encode value = (writeToVec response.pieces []).2 →
    Response.ofValue value = some response
  read : response.InRange →
    Response.parseBytes fromBytes (writeToVec response.pieces []).2 = some response

theorem canonical_of {fromBytes : List UInt8 → Option Value} (hfrom : ReadsCanonical fromBytes)
    {response : Response} (hdict : ∃ entries, response.value = .dict entries)
    (hsorted : Sorted response.value) (hpieces : response.pieces.flatten = encode response.value)
    (hread : Response.ofValue response.value = some response)
    (hintegers : response.InRange → integersAll fitsI64 response.value = true) :
    Canonical fromBytes response where
  dict := hdict
  sorted := hsorted
  written output := by rw [writeToVec_eq, hpieces]
  decoded value h := by
    rw [writeToVec_eq, hpieces, List.nil_append] at h
    rw [encode_injective h, hread]
  read h := by
    rw [writeToVec_eq, hpieces, List.nil_append, Response.parseBytes,
      hfrom _ hsorted (hintegers h)]
    exact hread

theorem announce_and_failure_canonical (fromBytes : List UInt8 → Option Value)
    (hfrom : ReadsCanonical fromBytes) :
    (∀ response : AnnounceResponse, Canonical fromBytes (.announce response)) ∧
      ∀ response : FailureResponse, Canonical fromBytes (.failure response) := by
  constructor
  · intro response
    refine canonical_of hfrom ⟨_, rfl⟩ response.sorted response.flatten_pieces ?_
      AnnounceResponse.integers
    rw [Response.value, Response.ofValue, readAnnounce_value]
    rfl
  · intro response
    obtain ⟨hfailure, hannounce, hscrape⟩ := readFailure_value response
    refine canonical_of hfrom ⟨_, rfl⟩ response.sorted response.flatten_pieces ?_ fun _ => rfl
    rw [Response.value, Response.ofValue, hannounce, hscrape, hfailure]
    rfl

/-- A strict reader of integers of 64 bits. -/
def decodeI64 (bytes : List UInt8) : Option Value := (decode bytes).filter (integersAll fitsI64)

theorem readsCanonical_decodeI64 : ReadsCanonical decodeI64 := by
  intro value _ hintegers
  rw [decodeI64, decode_encode]
  exact Option.filter_some_pos hintegers

def twoPeers : AnnounceResponse where
  announceInterval := 120
  complete := 1
  incomplete := 2
  peers := [⟨⟨#v[192, 0, 2, 21]⟩, 6881⟩]
  peers6 := [⟨⟨.replicate 16 0x20⟩, 6882⟩]
  warningMessage := some "half".toList

theorem announce_and_failure_canonical_twoPeers :
    Response.parseBytes decodeI64 (writeToVec (Response.announce twoPeers).pieces []).2 =
        some (.announce twoPeers) ∧
      Response.parseBytes decodeI64
        (writeToVec (Response.failure ⟨"no".toList⟩).pieces []).2 =
        some (.failure ⟨"no".toList⟩) := by
  obtain ⟨hannounce, hfailure⟩ :=
    announce_and_failure_canonical decodeI64 readsCanonical_decodeI64
  refine ⟨(hannounce twoPeers).read ?_, (hfailure ⟨"no".toList⟩).read trivial⟩
  exact ⟨by decide, by decide, by decide⟩

end Aquatic.HttpProtocol
