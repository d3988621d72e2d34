import Aquatic.Common.Utf8
import Aquatic.Udp.RequestCodec

/-!
# Responses as they are written and parsed

The lists at the end of a response have no length of their own: their elements fill the rest
of the bytes exactly. Of a connect response only the front is looked at.
-/

namespace Aquatic.Udp.Protocol
open Bytes
set_option autoImplicit false

/-- The kinds of `read_exact` at the end of the bytes and of `invalid_data`. -/
inductive ResponseParseError where
  | unexpectedEof
  | invalidData
  deriving DecidableEq, Repr

/-- A parser inside which `none` stands for a panic. -/
abbrev ResponseParser (α : Type) := ExceptT ResponseParseError Option α

def readOrEof {α : Type} : Option α → ResponseParser α
  | some a => pure a
  | none => throw .unexpectedEof

def okOrInvalidData {α : Type} : Option α → ResponseParser α
  | some a => pure a
  | none => throw .invalidData

/-- `slice_from`, which panics for a type without size. -/
def sliceOrPanic {α : Type} (read : List UInt8 → Option (α × List UInt8)) (size : Nat)
    (bytes : List UInt8) : ResponseParser (List α) :=
  if size = 0 then ExceptT.mk none else okOrInvalidData (sliceWith read size bytes)

def ConnectResponse.readFromPrefix (bytes : List UInt8) : Option ConnectResponse := do
  let (transactionId, bytes) ← readI32 bytes
  let (connectionId, _) ← readI64 bytes
  return { transactionId, connectionId := ⟨connectionId⟩ }

def AnnounceResponseFixedData.readFromPrefix (bytes : List UInt8) :
    Option AnnounceResponseFixedData := do
  let (transactionId, bytes) ← readI32 bytes
  let (announceInterval, bytes) ← readI32 bytes
  let (leechers, bytes) ← readI32 bytes
  let (seeders, _) ← readI32 bytes
  return { transactionId, announceInterval, leechers, seeders }

def readIpv4 (bytes : List UInt8) : Option (Ipv4AddrBytes × List UInt8) :=
  readWith 4 Ipv4AddrBytes.mk bytes

def readIpv6 (bytes : List UInt8) : Option (Ipv6AddrBytes × List UInt8) :=
  readWith 16 Ipv6AddrBytes.mk bytes

def readPeer {I : Type} (readIp : List UInt8 → Option (I × List UInt8)) (bytes : List UInt8) :
    Option (ResponsePeer I × List UInt8) := do
  let (ipAddress, bytes) ← readIp bytes
  let (port, bytes) ← readU16 bytes
  return ({ ipAddress, port }, bytes)

def readStatistics (bytes : List UInt8) : Option (TorrentScrapeStatistics × List UInt8) := do
  let (seeders, bytes) ← readI32 bytes
  let (completed, bytes) ← readI32 bytes
  let (leechers, bytes) ← readI32 bytes
  return ({ seeders, completed, leechers }, bytes)

/-- The two arms for announces, with a peer's address and its size. -/
def parseAnnounceResponse {I : Type} (readIp : List UInt8 → Option (I × List UInt8))
    (peerSize : Nat) (bytes : List UInt8) : ResponseParser (AnnounceResponse I) := do
  let fixed ← okOrInvalidData (AnnounceResponseFixedData.readFromPrefix bytes)
  if 16 ≤ bytes.length then
    let peers ← sliceOrPanic (readPeer readIp) peerSize (bytes.drop 16)
    return { fixed, peers }
  else return { fixed, peers := [] }

/-- The arms of the match on the action. -/
def Response.parseAction (action : Int32) (bytes : List UInt8) (ipv4 : Bool) :
    ResponseParser Response := do
  if action = 0 then
    return .connect (← okOrInvalidData (ConnectResponse.readFromPrefix bytes))
  else if action = 1 then
    if ipv4 then return .announceIpv4 (← parseAnnounceResponse readIpv4 6 bytes)
    else return .announceIpv6 (← parseAnnounceResponse readIpv6 18 bytes)
  else if action = 2 then
    let (transactionId, bytes) ← readOrEof (readI32 bytes)
    let torrentStats ← sliceOrPanic readStatistics 12 bytes
    return .scrape { transactionId, torrentStats }
  else if action = 3 then
    let (transactionId, bytes) ← readOrEof (readI32 bytes)
    return .error { transactionId, message := String.ofList (fromUtf8Lossy bytes) }
  else throw .invalidData

def Response.parse (bytes : List UInt8) (ipv4 : Bool) : ResponseParser Response := do
  let (action, bytes) ← readOrEof (readI32 bytes)
  Response.parseAction action bytes ipv4

/-- `none` where the code would panic. -/
def Response.parseBytes (bytes : List UInt8) (ipv4 : Bool) :
    Option (Except ResponseParseError Response) :=
  (Response.parse bytes ipv4).run

section Parsers
variable {α β : Type}

def Returns (parser : ResponseParser α) : Prop := ∃ result, parser.run = some result

def Accepts (parser : ResponseParser α) (a : α) : Prop := parser.run = some (.ok a)

theorem returns_pure (a : α) : Returns (pure a) := ⟨.ok a, rfl⟩

theorem returns_throw (err : ResponseParseError) : Returns (throw err : ResponseParser α) :=
  ⟨.error err, rfl⟩

theorem returns_readOrEof (x : Option α) : Returns (readOrEof x) := by
  cases x with
  | none => exact returns_throw _
  | some a => exact returns_pure a

theorem returns_okOrInvalidData (x : Option α) : Returns (okOrInvalidData x) := by
  cases x with
  | none => exact returns_throw _
  | some a => exact returns_pure a

theorem returns_bind {parser : ResponseParser α} {next : α → ResponseParser β}
    (h : Returns parser) (hnext : ∀ a, Returns (next a)) : Returns (parser >>= next) := by
  obtain ⟨result, hresult⟩ := h
  have hrun : (parser >>= next).run = parser.run >>= ExceptT.bindCont next := rfl
  rw [Returns, hrun, hresult]
  cases result with
  | error err => exact ⟨.error err, rfl⟩
  | ok a => exact hnext a

theorem accepts_pure_iff {a b : α} : Accepts (pure a) b ↔ a = b := by
  constructor
  · intro h
    cases h
    rfl
  · rintro rfl
    rfl

theorem not_accepts_throw {err : ResponseParseError} {a : α} : ¬ Accepts (throw err) a := by
  intro h
  cases h

theorem accepts_readOrEof_iff {x : Option α} {a : α} : Accepts (readOrEof x) a ↔ x = some a := by
  cases x with
  | none => simp [readOrEof, not_accepts_throw]
  | some b => exact accepts_pure_iff.trans Option.some_inj.symm

theorem accepts_okOrInvalidData_iff {x : Option α} {a : α} :
    Accepts (okOrInvalidData x) a ↔ x = some a := by
  cases x with
  | none => simp [okOrInvalidData, not_accepts_throw]
  | some b => exact accepts_pure_iff.trans Option.some_inj.symm

theorem accepts_bind_iff {parser : ResponseParser α} {next : α → ResponseParser β} {b : β} :
    Accepts (parser >>= next) b ↔ ∃ a, Accepts parser a ∧ Accepts (next a) b := by
  have hrun : (parser >>= next).run = parser.run >>= ExceptT.bindCont next := rfl
  rw [Accepts, hrun]
  constructor
  · intro h
    obtain ⟨result, hresult, h⟩ := Option.bind_eq_some_iff.mp h
    cases result with
    | error err => cases h
    | ok a => exact ⟨a, hresult, h⟩
  · rintro ⟨a, ha, hb⟩
    rw [ha]
    exact hb

end Parsers

section Fields
variable {bytes rest : List UInt8}

def fixedBytes (fixed : AnnounceResponseFixedData) : List UInt8 :=
  beBytes fixed.transactionId.toBitVec ++ beBytes fixed.announceInterval.toBitVec ++
    beBytes fixed.leechers.toBitVec ++ beBytes fixed.seeders.toBitVec

def peerBytes {I : Type} (ipBytes : I → List UInt8) (peer : ResponsePeer I) : List UInt8 :=
  ipBytes peer.ipAddress ++ beBytes peer.port.toBitVec

def statisticsBytes (statistics : TorrentScrapeStatistics) : List UInt8 :=
  beBytes statistics.seeders.toBitVec ++ beBytes statistics.completed.toBitVec ++
    beBytes statistics.leechers.toBitVec

theorem readIpv4_eq_some_iff {ip : Ipv4AddrBytes} :
    readIpv4 bytes = some (ip, rest) ↔ bytes = ip.bytes.toList ++ rest :=
  readWith_eq_some_iff (fun ip : Ipv4AddrBytes => ip.bytes.toList) (fun _ => rfl)
    fun ip => ⟨ip.bytes, rfl, rfl⟩

theorem readIpv6_eq_some_iff {ip : Ipv6AddrBytes} :
    readIpv6 bytes = some (ip, rest) ↔ bytes = ip.bytes.toList ++ rest :=
  readWith_eq_some_iff (fun ip : Ipv6AddrBytes => ip.bytes.toList) (fun _ => rfl)
    fun ip => ⟨ip.bytes, rfl, rfl⟩

theorem readPeer_eq_some_iff {I : Type} {readIp : List UInt8 → Option (I × List UInt8)}
    {ipBytes : I → List UInt8}
    (hip : ∀ {bytes ip rest}, readIp bytes = some (ip, rest) ↔ bytes = ipBytes ip ++ rest)
    {peer : ResponsePeer I} :
    readPeer readIp bytes = some (peer, rest) ↔ bytes = peerBytes ipBytes peer ++ rest := by
  constructor
  · intro h
    obtain ⟨⟨_, _⟩, h1, h⟩ := Option.bind_eq_some_iff.mp h
    obtain ⟨⟨_, _⟩, h2, h⟩ := Option.bind_eq_some_iff.mp h
    cases h
    rw [hip.mp h1, readU16_eq_some_iff.mp h2, peerBytes, List.append_assoc]
  · rintro rfl
    rw [peerBytes, List.append_assoc]
    refine bind_of_eq (hip.mpr rfl) ?_
    exact bind_of_eq (readU16_append _ _) rfl

theorem readStatistics_eq_some_iff {statistics : TorrentScrapeStatistics} :
    readStatistics bytes = some (statistics, rest) ↔
      bytes = statisticsBytes statistics ++ rest := by
  constructor
  · intro h
    obtain ⟨⟨_, _⟩, h1, h⟩ := Option.bind_eq_some_iff.mp h
    obtain ⟨⟨_, _⟩, h2, h⟩ := Option.bind_eq_some_iff.mp h
    obtain ⟨⟨_, _⟩, h3, h⟩ := Option.bind_eq_some_iff.mp h
    cases h
    rw [readI32_eq_some_iff.mp h1, readI32_eq_some_iff.mp h2, readI32_eq_some_iff.mp h3]
    simp only [statisticsBytes, List.append_assoc]
  · rintro rfl
    simp only [statisticsBytes, List.append_assoc]
    refine bind_of_eq (readI32_append _ _) ?_
    refine bind_of_eq (readI32_append _ _) ?_
    exact bind_of_eq (readI32_append _ _) rfl

theorem readFromPrefix_fixed_iff {fixed : AnnounceResponseFixedData} :
    AnnounceResponseFixedData.readFromPrefix bytes = some fixed ↔ fixedBytes fixed <+: bytes := by
  constructor
  · intro h
    obtain ⟨⟨_, _⟩, h1, h⟩ := Option.bind_eq_some_iff.mp h
    obtain ⟨⟨_, _⟩, h2, h⟩ := Option.bind_eq_some_iff.mp h
    obtain ⟨⟨_, _⟩, h3, h⟩ := Option.bind_eq_some_iff.mp h
    obtain ⟨⟨_, rest⟩, h4, h⟩ := Option.bind_eq_some_iff.mp h
    cases h
    refine ⟨rest, ?_⟩
    rw [readI32_eq_some_iff.mp h1, readI32_eq_some_iff.mp h2, readI32_eq_some_iff.mp h3,
      readI32_eq_some_iff.mp h4]
    simp only [fixedBytes, List.append_assoc]
  · rintro ⟨rest, rfl⟩
    simp only [fixedBytes, List.append_assoc]
    unfold AnnounceResponseFixedData.readFromPrefix
    refine bind_of_eq (readI32_append _ _) ?_
    refine bind_of_eq (readI32_append _ _) ?_
    refine bind_of_eq (readI32_append _ _) ?_
    exact bind_of_eq (readI32_append _ _) rfl

theorem readFromPrefix_connect (response : ConnectResponse) :
    ConnectResponse.readFromPrefix (beBytes response.transactionId.toBitVec ++
      beBytes response.connectionId.value.toBitVec) = some response := by
  rw [← List.append_nil (beBytes response.connectionId.value.toBitVec)]
  unfold ConnectResponse.readFromPrefix
  refine bind_of_eq (readI32_append _ _) ?_
  exact bind_of_eq (readI64_append _ _) rfl

theorem length_fixedBytes (fixed : AnnounceResponseFixedData) : (fixedBytes fixed).length = 16 := by
  simp [fixedBytes, length_beBytes]

theorem length_peerBytes {I : Type} {ipBytes : I → List UInt8} {n : Nat}
    (hip : ∀ ip, (ipBytes ip).length = n) (peer : ResponsePeer I) :
    (peerBytes ipBytes peer).length = n + 2 := by
  rw [peerBytes, List.length_append, hip, length_beBytes]

theorem length_statisticsBytes (statistics : TorrentScrapeStatistics) :
    (statisticsBytes statistics).length = 12 := by
  simp [statisticsBytes, length_beBytes]

end Fields

section Accepted
variable {bytes : List UInt8}

theorem returns_sliceOrPanic {α : Type} (read : List UInt8 → Option (α × List UInt8)) {size : Nat}
    (hsize : 0 < size) (bytes : List UInt8) : Returns (sliceOrPanic read size bytes) := by
  rw [sliceOrPanic, if_neg (Nat.ne_of_gt hsize)]
  exact returns_okOrInvalidData _

/-- The elements fill the bytes. -/
theorem accepts_sliceOrPanic_iff {α : Type} {read : List UInt8 → Option (α × List UInt8)}
    {write : α → List UInt8} {size : Nat} (hsize : 0 < size)
    (hread : ∀ {bytes value rest}, read bytes = some (value, rest) ↔ bytes = write value ++ rest)
    (hlength : ∀ value, (write value).length = size) {values : List α} :
    Accepts (sliceOrPanic read size bytes) values ↔ bytes = values.flatMap write := by
  rw [sliceOrPanic, if_neg (Nat.ne_of_gt hsize), accepts_okOrInvalidData_iff]
  exact sliceWith_eq_some_iff hsize hread hlength

theorem returns_parseAnnounceResponse {I : Type} (readIp : List UInt8 → Option (I × List UInt8))
    {peerSize : Nat} (hsize : 0 < peerSize) (bytes : List UInt8) :
    Returns (parseAnnounceResponse readIp peerSize bytes) := by
  refine returns_bind (returns_okOrInvalidData _) ?_
  intro fixed
  split
  · exact returns_bind (returns_sliceOrPanic _ hsize _) fun _ => returns_pure _
  · exact returns_pure _

theorem accepts_parseAnnounceResponse_iff {I : Type}
    {readIp : List UInt8 → Option (I × List UInt8)} {ipBytes : I → List UInt8} {n : Nat}
    (hip : ∀ {bytes ip rest}, readIp bytes = some (ip, rest) ↔ bytes = ipBytes ip ++ rest)
    (hlength : ∀ ip, (ipBytes ip).length = n) {response : AnnounceResponse I} :
    Accepts (parseAnnounceResponse readIp (n + 2) bytes) response ↔
      bytes = fixedBytes response.fixed ++ response.peers.flatMap (peerBytes ipBytes) := by
  have hpeers {bytes : List UInt8} {peers : List (ResponsePeer I)} :
      Accepts (sliceOrPanic (readPeer readIp) (n + 2) bytes) peers ↔
        bytes = peers.flatMap (peerBytes ipBytes) :=
    accepts_sliceOrPanic_iff (Nat.succ_pos _) (readPeer_eq_some_iff hip) (length_peerBytes hlength)
  rw [parseAnnounceResponse, accepts_bind_iff]
  constructor
  · rintro ⟨fixed, hfixed, h⟩
    obtain ⟨rest, rfl⟩ := readFromPrefix_fixed_iff.mp (accepts_okOrInvalidData_iff.mp hfixed)
    have hle : 16 ≤ (fixedBytes fixed ++ rest).length := by
      rw [List.length_append, length_fixedBytes]
      exact Nat.le_add_right _ _
    rw [if_pos hle, List.drop_left' (length_fixedBytes fixed), accepts_bind_iff] at h
    obtain ⟨peers, hrest, h⟩ := h
    obtain rfl := accepts_pure_iff.mp h
    rw [hpeers.mp hrest]
  · rintro rfl
    refine ⟨response.fixed, accepts_okOrInvalidData_iff.mpr (readFromPrefix_fixed_iff.mpr ?_), ?_⟩
    · exact List.prefix_append _ _
    · rw [if_pos (by simp [length_fixedBytes]), List.drop_left' (length_fixedBytes _), accepts_bind_iff]
      exact ⟨response.peers, hpeers.mpr rfl, accepts_pure_iff.mpr rfl⟩

theorem returns_parse (bytes : List UInt8) (ipv4 : Bool) : Returns (Response.parse bytes ipv4) := by
  refine returns_bind (returns_readOrEof _) ?_
  rintro ⟨action, rest⟩
  change Returns (Response.parseAction action rest ipv4)
  unfold Response.parseAction
  split
  · exact returns_bind (returns_okOrInvalidData _) fun _ => returns_pure _
  split
  · split
    · exact returns_bind (returns_parseAnnounceResponse _ (by decide) _) fun _ => returns_pure _
    · exact returns_bind (returns_parseAnnounceResponse _ (by decide) _) fun _ => returns_pure _
  split
  · refine returns_bind (returns_readOrEof _) fun _ => ?_
    exact returns_bind (returns_sliceOrPanic _ (by decide) _) fun _ => returns_pure _
  split
  · exact returns_bind (returns_readOrEof _) fun _ => returns_pure _
  · exact returns_throw _

theorem accepts_ipv4_iff {response : AnnounceResponse Ipv4AddrBytes} :
    Accepts (parseAnnounceResponse readIpv4 6 bytes) response ↔
      beBytes (1 : BitVec 32) ++ bytes = (Response.announceIpv4 response).writeBytes := by
  rw [accepts_parseAnnounceResponse_iff readIpv4_eq_some_iff fun ip => ip.bytes.length_toList]
  simp only [Response.writeBytes, announceResponseBytes, fixedBytes, List.append_assoc,
    List.append_cancel_left_eq]
  rfl

theorem accepts_ipv6_iff {response : AnnounceResponse Ipv6AddrBytes} :
    Accepts (parseAnnounceResponse readIpv6 18 bytes) response ↔
      beBytes (1 : BitVec 32) ++ bytes = (Response.announceIpv6 response).writeBytes := by
  rw [accepts_parseAnnounceResponse_iff readIpv6_eq_some_iff fun ip => ip.bytes.length_toList]
  simp only [Response.writeBytes, announceResponseBytes, fixedBytes, List.append_assoc,
    List.append_cancel_left_eq]
  rfl

theorem accepts_scrape_iff {transactionId : Int32} {torrentStats : List TorrentScrapeStatistics} :
    Accepts (sliceOrPanic readStatistics 12 bytes) torrentStats ↔
      beBytes (2 : BitVec 32) ++ (beBytes transactionId.toBitVec ++ bytes) =
        (Response.scrape ⟨transactionId, torrentStats⟩).writeBytes := by
  rw [accepts_sliceOrPanic_iff (by decide) readStatistics_eq_some_iff length_statisticsBytes]
  simp only [Response.writeBytes, ScrapeResponse.writeBytes, List.append_assoc,
    List.append_cancel_left_eq]
  rfl

/-- The action comes first and decides what the rest is parsed as. -/
theorem accepts_parse_append_iff {action : Int32} {rest : List UInt8} {ipv4 : Bool}
    {response : Response} :
    Accepts (Response.parse (beBytes action.toBitVec ++ rest) ipv4) response ↔
      Accepts (Response.parseAction action rest ipv4) response := by
  rw [Response.parse, accepts_bind_iff]
  constructor
  · rintro ⟨⟨action', rest'⟩, haction, h⟩
    rw [accepts_readOrEof_iff, readI32_append] at haction
    cases haction
    exact h
  · intro h
    exact ⟨(action, rest), accepts_readOrEof_iff.mpr (readI32_append _ _), h⟩

end Accepted

namespace Response

/-- The flag that a response is parsed with. -/
def ipv4 : Response → Bool
  | .announceIpv6 _ => false
  | _ => true

/-- Responses that end with a list. -/
def HasList : Response → Prop
  | .announceIpv4 _ | .announceIpv6 _ | .scrape _ => True
  | .connect _ | .error _ => False

theorem accepts_writeBytes (response : Response) :
    Accepts (parse response.writeBytes response.ipv4) response := by
  cases response with
  | connect response =>
    change Accepts (parse (beBytes (0 : Int32).toBitVec ++ _ ++ _) true) _
    rw [List.append_assoc, accepts_parse_append_iff, parseAction, if_pos rfl, accepts_bind_iff]
    exact ⟨response, accepts_okOrInvalidData_iff.mpr (readFromPrefix_connect response),
      accepts_pure_iff.mpr rfl⟩
  | announceIpv4 response =>
    have hbytes : (announceIpv4 response).writeBytes = beBytes (1 : Int32).toBitVec ++
        (fixedBytes response.fixed ++
          response.peers.flatMap (peerBytes fun ip => ip.bytes.toList)) := by
      simp only [writeBytes, announceResponseBytes, fixedBytes, List.append_assoc]
      rfl
    change Accepts (parse _ true) _
    rw [hbytes, accepts_parse_append_iff, parseAction, if_neg (by decide), if_pos rfl,
      if_pos rfl, accepts_bind_iff]
    exact ⟨response, accepts_ipv4_iff.mpr hbytes.symm, accepts_pure_iff.mpr rfl⟩
  | announceIpv6 response =>
    have hbytes : (announceIpv6 response).writeBytes = beBytes (1 : Int32).toBitVec ++
        (fixedBytes response.fixed ++
          response.peers.flatMap (peerBytes fun ip => ip.bytes.toList)) := by
      simp only [writeBytes, announceResponseBytes, fixedBytes, List.append_assoc]
      rfl
    change Accepts (parse _ false) _
    rw [hbytes, accepts_parse_append_iff, parseAction, if_neg (by decide), if_pos rfl,
      if_neg Bool.false_ne_true, accepts_bind_iff]
    exact ⟨response, accepts_ipv6_iff.mpr hbytes.symm, accepts_pure_iff.mpr rfl⟩
  | scrape response =>
    have hbytes : (scrape response).writeBytes =
        beBytes (2 : Int32).toBitVec ++ (beBytes response.transactionId.toBitVec ++
          response.torrentStats.flatMap statisticsBytes) := by
      simp only [writeBytes, ScrapeResponse.writeBytes, List.append_assoc]
      rfl
    change Accepts (parse _ true) _
    rw [hbytes, accepts_parse_append_iff, parseAction, if_neg (by decide),
      if_neg (by decide), if_pos rfl, accepts_bind_iff]
    refine ⟨_, accepts_readOrEof_iff.mpr (readI32_append _ _), ?_⟩
    rw [accepts_bind_iff]
    exact ⟨response.torrentStats, accepts_scrape_iff.mpr hbytes.symm, accepts_pure_iff.mpr rfl⟩
  | error response =>
    have hbytes : (error response).writeBytes = beBytes (3 : Int32).toBitVec ++
        (beBytes response.transactionId.toBitVec ++ utf8 response.message.toList) := by
      simp only [writeBytes, ErrorResponse.writeBytes, List.append_assoc]
      rfl
    change Accepts (parse _ true) _
    rw [hbytes, accepts_parse_append_iff, parseAction, if_neg (by decide),
      if_neg (by decide), if_neg (by decide), if_pos rfl, accepts_bind_iff]
    refine ⟨_, accepts_readOrEof_iff.mpr (readI32_append _ _), accepts_pure_iff.mpr ?_⟩
    rw [fromUtf8Lossy_utf8, String.ofList_toList]

/-- An accepted response with a list says all that the bytes do. -/
theorem writeBytes_of_accepts {bytes : List UInt8} {flag : Bool} {response : Response}
    (h : Accepts (parse bytes flag) response) (hlist : response.HasList) :
    response.writeBytes = bytes := by
  obtain ⟨⟨action, rest⟩, haction, h⟩ := accepts_bind_iff.mp h
  rw [readI32_eq_some_iff.mp (accepts_readOrEof_iff.mp haction)]
  change Accepts (parseAction action rest flag) response at h
  unfold parseAction at h
  split at h
  · obtain ⟨connectResponse, _, h⟩ := accepts_bind_iff.mp h
    obtain rfl := accepts_pure_iff.mp h
    exact hlist.elim
  split at h
  · rename_i hone
    subst hone
    split at h
    · obtain ⟨announceResponse, hannounce, h⟩ := accepts_bind_iff.mp h
      obtain rfl := accepts_pure_iff.mp h
      exact (accepts_ipv4_iff.mp hannounce).symm
    · obtain ⟨announceResponse, hannounce, h⟩ := accepts_bind_iff.mp h
      obtain rfl := accepts_pure_iff.mp h
      exact (accepts_ipv6_iff.mp hannounce).symm
  split at h
  · rename_i htwo
    subst htwo
    obtain ⟨⟨transactionId, more⟩, hid, h⟩ := accepts_bind_iff.mp h
    obtain ⟨torrentStats, hstats, h⟩ := accepts_bind_iff.mp h
    obtain rfl := accepts_pure_iff.mp h
    rw [readI32_eq_some_iff.mp (accepts_readOrEof_iff.mp hid)]
    exact (accepts_scrape_iff.mp hstats).symm
  split at h
  · obtain ⟨_, _, h⟩ := accepts_bind_iff.mp h
    obtain rfl := accepts_pure_iff.mp h
    exact hlist.elim
  · exact absurd h not_accepts_throw

/-- What is written is parsed as it was; parsing returns for all bytes, and what ends with a
list is written as the bytes it was parsed from. -/
theorem response_codec :
    (∀ response : Response, parseBytes response.writeBytes response.ipv4 = some (.ok response)) ∧
    ∀ (bytes : List UInt8) (flag : Bool), ∃ result, parseBytes bytes flag = some result ∧
      ∀ response, result = .ok response → response.HasList → response.writeBytes = bytes := by
  constructor
  · exact accepts_writeBytes
  · intro bytes flag
    obtain ⟨result, hresult⟩ := returns_parse bytes flag
    refine ⟨result, hresult, ?_⟩
    rintro response rfl hlist
    exact writeBytes_of_accepts hresult hlist

end Response

end Aquatic.Udp.Protocol
