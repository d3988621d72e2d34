import Aquatic.Http.Connection

/-!
# The buffer that responses are written to

The header is in front of it, with room for a content length. The buffer is as large as
the settings say that a response can be.
-/

namespace Aquatic.Http
open HttpProtocol Text
set_option autoImplicit false

def responseHeaderA : List UInt8 := utf8 "HTTP/1.1 200 OK\r\nContent-Length: ".toList

def responseHeaderB : List UInt8 := utf8 "        ".toList

def responseHeaderC : List UInt8 := utf8 "\r\n\r\n".toList

def responseHeader : List UInt8 := responseHeaderA ++ responseHeaderB ++ responseHeaderC

def usizeMax : Nat := 2 ^ 64 - 1

def saturatingAdd (a b : Nat) : Nat := min (a + b) usizeMax

def saturatingMul (a b : Nat) : Nat := min (a * b) usizeMax

def responseBufferSize (config : ServerConfig) : Nat :=
  let announceBody := saturatingAdd 256 (saturatingMul config.protocol.maxPeers 96)
  let scrapeBody := saturatingAdd 64 (saturatingMul config.protocol.maxScrapeTorrents 112)
  saturatingAdd (saturatingAdd responseHeader.length 2) (max announceBody scrapeBody)

def maxResponseBufferSize : Nat := 1024 * 1024

/-- What is checked at startup of the settings that the buffer depends on. -/
def runChecks (config : ServerConfig) : Except String Unit :=
  if config.swarmWorkers = 0 then .error "swarm_workers must be at least 1 (got 0)"
  else if responseBufferSize config > maxResponseBufferSize then
    .error (s!"protocol.max_peers = {config.protocol.maxPeers} and " ++
      s!"protocol.max_scrape_torrents = {config.protocol.maxScrapeTorrents} require a " ++
      s!"{responseBufferSize config}-byte response buffer per connection, above the " ++
      s!"{maxResponseBufferSize} byte limit; reduce them " ++
      "(for example max_peers <= 40000 or max_scrape_torrents <= 9000)")
  else .ok ()

/-- Settings that are accepted; an interval is a `usize`. -/
structure ServerConfig.Accepted (config : ServerConfig) : Prop where
  checked : runChecks config = .ok ()
  interval : config.peerAnnounceInterval < 2 ^ 64

/-- The room for a body and the line end after it. -/
def bodyRoom (config : ServerConfig) : Nat :=
  max (256 + 96 * config.protocol.maxPeers) (64 + 112 * config.protocol.maxScrapeTorrents)

theorem length_responseHeader : responseHeader.length = 45 := by decide

/-- Nothing saturates within the limit. -/
theorem ServerConfig.Accepted.responseBufferSize_eq {config : ServerConfig} (h : config.Accepted) :
    responseBufferSize config = 47 + bodyRoom config ∧
      responseBufferSize config ≤ maxResponseBufferSize := by
  have hlimit : responseBufferSize config ≤ maxResponseBufferSize := by
    have hchecked := h.checked
    unfold runChecks at hchecked
    split at hchecked
    · cases hchecked
    split at hchecked
    · cases hchecked
    · rename_i hle
      exact Nat.le_of_not_lt hle
  refine ⟨?_, hlimit⟩
  unfold responseBufferSize saturatingAdd saturatingMul maxResponseBufferSize usizeMax at *
  unfold bodyRoom
  simp only [length_responseHeader] at *
  omega

/-- `copy_from_slice` into a part of the buffer. -/
def copyInto (buffer : List UInt8) (start : Nat) (bytes : List UInt8) : List UInt8 :=
  buffer.take start ++ bytes ++ buffer.drop (start + bytes.length)

namespace Connection

/-- What is sent; `none` where the buffer has no room for a header. -/
def writeResponse (connection : Connection) (response : Response) :
    Option (Except ConnectionError (List UInt8) × Connection) := do
  let position := responseHeader.length
  let _room ← usizeSub connection.responseBuffer.length position
  let (bodyLen, body) := writeToSlice response.pieces (connection.responseBuffer.drop position)
  let buffer := connection.responseBuffer.take position ++ body
  let position := position + bodyLen
  if position + 2 > buffer.length then
    return (.error .responseBufferFull, { connection with responseBuffer := buffer })
  else
    let buffer := copyInto buffer position (utf8 "\r\n".toList)
    let position := position + 2
    let contentLen := bodyLen + 2
    let start := responseHeaderA.length
    let buffer := copyInto buffer start responseHeaderB
    let contentLenBytes := itoa contentLen
    if contentLenBytes.length > responseHeaderB.length then
      return (.error .responseBufferFull, { connection with responseBuffer := buffer })
    else
      let buffer := copyInto buffer start contentLenBytes
      return (.ok (buffer.take position), { connection with responseBuffer := buffer })

end Connection

theorem length_utf8EncodeChar_of_isDigit {c : Char} (h : c.isDigit = true) :
    (String.utf8EncodeChar c).length = 1 := by
  have hsmall : c.toNat ≤ 127 := by
    have hdigit : 48 ≤ c.val ∧ c.val ≤ 57 := by
      simpa [Char.isDigit] using h
    have hle : c.val.toNat ≤ 57 := hdigit.2
    change c.val.toNat ≤ 127
    omega
  rw [String.utf8EncodeChar]
  simp [hsmall]

/-- A digit is one byte. -/
theorem length_itoa (n : Nat) : (itoa n).length = (decimal n).length := by
  have hdigits : ∀ text : List Char, (∀ c ∈ text, c.isDigit = true) →
      (utf8 text).length = text.length := by
    intro text htext
    induction text with
    | nil => rfl
    | cons c text ih =>
      rw [utf8, List.flatMap_cons, List.length_append, List.length_cons,
        length_utf8EncodeChar_of_isDigit (htext c List.mem_cons_self), Nat.add_comm]
      exact congrArg (· + 1) (ih fun d hd => htext d (List.mem_cons_of_mem _ hd))
  exact hdigits _ fun c hc => isDigit_of_mem_decimal hc

theorem length_itoa_le {n k : Nat} (hk : 0 < k) (h : n < 10 ^ k) : (itoa n).length ≤ k := by
  rw [length_itoa, decimal, Nat.length_toDigits_le_iff (by decide) hk]
  exact h

/-- A `usize` has twenty digits at most. -/
theorem length_itoa_usize {n : Nat} (h : n < 2 ^ 64) : (itoa n).length ≤ 20 :=
  length_itoa_le (by decide) (h.trans (by decide))

theorem length_writeToSlice (pieces : List (List UInt8)) (slice : List UInt8) :
    (writeToSlice pieces slice).2.length = slice.length := by
  rw [writeToSlice_eq, List.length_append, List.length_take, List.length_drop]
  omega

/-- What became of a response. -/
def Sent (outcome : Option (Except ConnectionError (List UInt8) × Connection)) : Prop :=
  ∃ bytes connection, outcome = some (.ok bytes, connection)

section Write
variable {connection : Connection} (response : Response)
  (hroom : 47 ≤ connection.responseBuffer.length)
include hroom

/-- What is written does not change how long the buffer is. -/
theorem length_written : (connection.responseBuffer.take 45 ++
    (writeToSlice response.pieces (connection.responseBuffer.drop 45)).2).length =
      connection.responseBuffer.length ∧
    (writeToSlice response.pieces (connection.responseBuffer.drop 45)).1 =
      min response.pieces.flatten.length (connection.responseBuffer.length - 45) ∧
    usizeSub connection.responseBuffer.length 45 =
      some (connection.responseBuffer.length - 45) := by
  refine ⟨?_, ?_, usizeSub_of_le (by omega)⟩
  · rw [List.length_append, length_writeToSlice, ← List.length_append, List.take_append_drop]
  · rw [writeToSlice_eq, List.length_drop]

theorem writeResponse_of_full
    (hfull : connection.responseBuffer.length < 47 + response.pieces.flatten.length) :
    ∃ after, connection.writeResponse response = some (.error .responseBufferFull, after) := by
  obtain ⟨hbuffer, hbody, hsub⟩ := length_written response hroom
  unfold Connection.writeResponse
  simp only [length_responseHeader, hsub, hbuffer, hbody]
  rw [Option.bind_eq_bind, Option.bind_some, if_pos (by omega)]
  exact ⟨_, rfl⟩

/-- The content length has digits enough. -/
theorem writeResponse_of_fits (hlimit : connection.responseBuffer.length ≤ maxResponseBufferSize)
    (hfits : 47 + response.pieces.flatten.length ≤ connection.responseBuffer.length) :
    Sent (connection.writeResponse response) := by
  obtain ⟨hbuffer, hbody, hsub⟩ := length_written response hroom
  unfold Connection.writeResponse
  simp only [length_responseHeader, hsub, hbuffer, hbody]
  have hdigits : ¬ (itoa (min response.pieces.flatten.length
      (connection.responseBuffer.length - 45) + 2)).length > responseHeaderB.length := by
    have hle := length_itoa_le (n := min response.pieces.flatten.length
      (connection.responseBuffer.length - 45) + 2) (k := 8) (by decide) (by
        unfold maxResponseBufferSize at hlimit
        omega)
    have hheader : responseHeaderB.length = 8 := by decide
    omega
  rw [Option.bind_eq_bind, Option.bind_some, if_neg (by omega), if_neg hdigits]
  exact ⟨_, _, rfl⟩

/-- A response is sent if its body and a line end fit behind the header. -/
theorem sent_writeResponse_iff
    (hlimit : connection.responseBuffer.length ≤ maxResponseBufferSize) :
    Sent (connection.writeResponse response) ↔
      47 + response.pieces.flatten.length ≤ connection.responseBuffer.length := by
  constructor
  · rintro ⟨bytes, after, hsent⟩
    by_contra hfull
    obtain ⟨after', hfull⟩ := writeResponse_of_full response hroom (Nat.lt_of_not_le hfull)
    rw [hfull] at hsent
    cases hsent
  · exact writeResponse_of_fits response hroom hlimit

end Write

end Aquatic.Http
