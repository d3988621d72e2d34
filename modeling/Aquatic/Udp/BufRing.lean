import Aquatic.Lib.Ring
import Aquatic.Lib.Transition
import Aquatic.Udp.SocketWorker

/-!
# The receive buffers of the io_uring worker

Buffers are handed to the kernel through a ring in shared memory. The kernel takes one for
each datagram and names it in the completion; when the worker is done with the datagram, the
buffer goes back into the ring. In the functions `none` stands for a panic. Addresses are
counted from the start of the buffers; their place in memory is left out.
-/

namespace Aquatic.Udp.Uring
set_option autoImplicit false

abbrev Bid := UInt16

structure BufRingEntry where
  addr : Nat
  len : UInt32
  bid : Bid
  deriving DecidableEq, Repr

/-- The kernel reads `ring` and `tail`. -/
structure RawBufRing where
  ringEntriesMask : UInt16
  bufCnt : UInt16
  bufLen : Nat
  ring : Nat → BufRingEntry
  localTail : UInt16
  tail : UInt16
  possibleCur : UInt16
  possibleMin : UInt16

/-- A buffer that has been filled in by the kernel. -/
structure BufX where
  bid : Bid
  len : Nat
  deriving DecidableEq, Repr

/-- The part of the memory that the buffers take. -/
abbrev Memory := Nat → UInt8

def Memory.slice (memory : Memory) (addr len : Nat) : List UInt8 :=
  (List.range len).map fun i => memory (addr + i)

def Memory.write (memory : Memory) (addr : Nat) (bytes : List UInt8) : Memory := fun a =>
  if addr ≤ a ∧ a < addr + bytes.length then bytes.getD (a - addr) 0 else memory a

namespace RawBufRing

def stablePtr (raw : RawBufRing) (bid : Bid) : Option Nat :=
  if bid < raw.bufCnt then some (raw.bufLen * bid.toNat) else none

def bufRingAdd (raw : RawBufRing) (bid : Bid) : Option RawBufRing := do
  let curTail := raw.localTail
  let ringIdx := curTail &&& raw.ringEntriesMask
  let addr ← raw.stablePtr bid
  if raw.possibleCur = 65535 then none
  else
    return { raw with
      localTail := curTail + 1
      ring := fun idx =>
        if idx = ringIdx.toNat then ⟨addr, UInt32.ofNat raw.bufLen, bid⟩ else raw.ring idx
      possibleCur := raw.possibleCur + 1 }

def bufRingSync (raw : RawBufRing) : RawBufRing := { raw with tail := raw.localTail }

def droppingBid (raw : RawBufRing) (bid : Bid) : Option RawBufRing := do
  let raw ← raw.bufRingAdd bid
  return raw.bufRingSync

def metricGettingAnother (raw : RawBufRing) : Option RawBufRing :=
  if raw.possibleCur = 0 then none
  else
    some { raw with
      possibleCur := raw.possibleCur - 1
      possibleMin := min raw.possibleMin (raw.possibleCur - 1) }

end RawBufRing

structure Builder where
  ringEntries : UInt16
  bufCnt : UInt16
  bufLen : Nat
  deriving DecidableEq, Repr

inductive BuildError where
  | other (message : String)
  | invalidInput
  deriving DecidableEq, Repr

/-- `RawBufRing::new`, with all buffers in the ring at the end. -/
def RawBufRing.new (ringEntries bufCnt : UInt16) (bufLen : Nat) :
    Option (Except BuildError RawBufRing) :=
  if bufCnt == 0 || bufCnt > ringEntries || bufLen == 0 ||
      (ringEntries &&& (ringEntries - 1)) != 0 then
    some (.error .invalidInput)
  else do
    let raw : RawBufRing :=
      { ringEntriesMask := ringEntries - 1
        bufCnt
        bufLen
        ring := fun _ => ⟨0, 0, 0⟩
        localTail := 0
        tail := 0
        possibleCur := 0
        possibleMin := bufCnt }
    let raw ← (List.range bufCnt.toNat).foldlM (fun raw bid => raw.bufRingAdd (.ofNat bid)) raw
    return .ok raw.bufRingSync

/-- The smallest power of two that is not smaller. -/
def leastPowerOfTwo (n : UInt16) : Nat :=
  if n ≤ 1 then 1 else 1 <<< (Nat.log2 (n.toNat - 1) + 1)

/-- `none` where the power does not fit. -/
def nextPowerOfTwo (n : UInt16) : Option UInt16 :=
  if leastPowerOfTwo n < UInt16.size then some (.ofNat (leastPowerOfTwo n)) else none

namespace Builder

def new : Builder where
  ringEntries := 128
  bufCnt := 0
  bufLen := 4096

def build (b : Builder) : Option (Except BuildError RawBufRing) :=
  let b :=
    if b.bufCnt == 0 || b.ringEntries < b.bufCnt then
      let max := max b.ringEntries b.bufCnt
      { b with bufCnt := max, ringEntries := max }
    else b
  if b.ringEntries > (1 : UInt16) <<< 15 then some (.error (.other "ring_entries exceeded 32768"))
  else do
    let ringEntries ← nextPowerOfTwo b.ringEntries
    RawBufRing.new ringEntries b.bufCnt b.bufLen

end Builder

/-- The ring of a worker, unless the worker does not start. -/
def workerBufRing (ringSize : UInt16) : Option RawBufRing := do
  let ringEntries ← nextPowerOfTwo ringSize
  match ← ({ Builder.new with ringEntries, bufLen := requestBufLen } : Builder).build with
  | .ok raw => return raw
  | .error _ => none

structure Cqe where
  result : Int32
  flags : UInt32
  deriving DecidableEq, Repr

/-- The buffer that the kernel has chosen. -/
def bufferSelect (flags : UInt32) : Option Bid :=
  if flags &&& 1 ≠ 0 then some (flags >>> 16).toUInt16 else none

/-- The error is the text of what is logged. -/
def RawBufRing.getBuf (raw : RawBufRing) (res flags : UInt32) :
    Option (Except String (Option BufX) × RawBufRing) :=
  match bufferSelect flags with
  | none =>
    if res = 0 then some (.ok none, raw)
    else
      some (.error ("BufRing::get_buf failed as the buffer bit, IORING_CQE_F_BUFFER, " ++
        s!"was missing from flags, res = {res}, flags = {flags}"), raw)
  | some bid =>
    if res.toNat ≤ raw.bufLen then do
      let raw ← raw.metricGettingAnother
      return (.ok (some ⟨bid, res.toNat⟩), raw)
    else none

def BufX.asSlice (buffer : BufX) (raw : RawBufRing) (memory : Memory) : Option (List UInt8) := do
  let p ← raw.stablePtr buffer.bid
  return memory.slice p buffer.len

/-- `head` is the kernel's; `datagrams` records what the kernel has last put into a buffer. -/
structure BufGroup where
  raw : RawBufRing
  memory : Memory
  head : UInt16
  completions : List Cqe
  held : List BufX
  datagrams : Bid → List UInt8

namespace BufGroup

inductive Action where
  | receive (datagram : List UInt8) (more : Bool)
  | fail (error : Int32) (more : Bool)
  | takeCompletion
  | drop (index : Nat)
  deriving DecidableEq, Repr

def init (raw : RawBufRing) : BufGroup where
  raw
  memory := fun _ => 0
  head := 0
  completions := []
  held := []
  datagrams := fun _ => []

/-- The flags of a completion: the buffer that was used, its bit, and the bit for more. -/
def cqeFlags (bid : Option Bid) (more : Bool) : UInt32 :=
  let more := if more then 2 else 0
  match bid with
  | some bid => .ofNat (bid.toNat * 65536 + more + 1)
  | none => .ofNat more

/-- The kernel takes the next buffer for a datagram, of which it keeps what fits. -/
def receive (s : BufGroup) (datagram : List UInt8) (more : Bool) : Option BufGroup :=
  if s.head = s.raw.tail then none
  else
    let entry := s.raw.ring (s.head &&& s.raw.ringEntriesMask).toNat
    let written := datagram.take entry.len.toNat
    some { s with
      memory := s.memory.write entry.addr written
      head := s.head + 1
      completions := s.completions ++ [⟨.ofNat written.length, cqeFlags (some entry.bid) more⟩]
      datagrams := fun bid => if bid = entry.bid then written else s.datagrams bid }

/-- The first completion is handled; a buffer that comes with it is held. -/
def takeCompletion (s : BufGroup) : Option BufGroup :=
  match s.completions with
  | [] => none
  | cqe :: completions =>
    if cqe.result < 0 then some { s with completions }
    else do
      let (result, raw) ← s.raw.getBuf cqe.result.toUInt32 cqe.flags
      match result with
      | .ok (some buffer) => return { s with raw, completions, held := s.held ++ [buffer] }
      | _ => return { s with raw, completions }

/-- A buffer goes out of scope. -/
def drop (s : BufGroup) (index : Nat) : Option BufGroup := do
  let buffer ← s.held[index]?
  let raw ← s.raw.droppingBid buffer.bid
  return { s with raw, held := s.held.eraseIdx index }

def step (s : BufGroup) : Action → Option BufGroup
  | .receive datagram more => s.receive datagram more
  | .fail error more =>
    if error < 0 then
      some { s with completions := s.completions ++ [⟨error, cqeFlags none more⟩] }
    else none
  | .takeCompletion => s.takeCompletion
  | .drop index => s.drop index

end BufGroup

end Aquatic.Udp.Uring
