import Aquatic.Common.IpBlocks
import Aquatic.Lib.Transition
import Aquatic.Udp.ResponseSize

/-!
# The send buffers of the io_uring worker

A buffer that was handed to the ring is read by the kernel until its completion is back. The
worker sends what it can, submits, goes through the completions and starts again. In the
functions `none` stands for a panic; how many entries the submission queue has room for, and
when completions come, is left open.
-/

namespace Aquatic.Udp
open Protocol
set_option autoImplicit false

namespace Uring

inductive ResponseType where
  | connect
  | announce
  | scrape
  | error
  deriving DecidableEq, Repr

def ResponseType.fromResponse : Response → ResponseType
  | .connect _ => .connect
  | .announceIpv4 _ => .announce
  | .announceIpv6 _ => .announce
  | .scrape _ => .scrape
  | .error _ => .error

structure SendBufferMetadata where
  free : Bool
  receiverIsIpv4 : Bool
  responseType : ResponseType
  deriving DecidableEq, Repr

def SendBufferMetadata.default : SendBufferMetadata where
  free := true
  receiverIsIpv4 := true
  responseType := .connect

inductive SocketIdentifier where
  | v4
  | v6
  deriving DecidableEq, Repr

/-- `bytes` and the names, and of these what `iovec` and `msghdr` refer to. -/
structure SendBuffer where
  nameV4 : Ipv4Addr × UInt16
  nameV6 : Ipv6Addr × UInt16
  msgName : SocketIdentifier
  bytes : Vector UInt8 responseBufLen
  iovLen : Nat

def getIpv6Mapped (addr : CanonicalSocketAddr) : SocketAddr :=
  match addr.addr.ip with
  | .v4 ip => ⟨.v6 ip.toIpv6Mapped, addr.addr.port⟩
  | .v6 _ => addr.addr

namespace SendBuffer

def new : SendBuffer where
  nameV4 := (⟨.replicate 4 0⟩, 0)
  nameV6 := (⟨.replicate 16 0⟩, 0)
  msgName := .v4
  bytes := .replicate responseBufLen 0
  iovLen := responseBufLen

def setName (buffer : SendBuffer) (addr : CanonicalSocketAddr) (sendToIpv4Socket : Bool) :
    Option SendBuffer :=
  if sendToIpv4Socket then
    match addr.addr.ip with
    | .v4 ip => some { buffer with nameV4 := (ip, addr.addr.port), msgName := .v4 }
    | .v6 _ => none
  else
    match (getIpv6Mapped addr).ip with
    | .v6 ip => some { buffer with nameV6 := (ip, addr.addr.port), msgName := .v6 }
    | .v4 _ => none

end SendBuffer

/-- The front is written over, also where what is written does not fit. -/
def overwrite {n : Nat} (bytes : Vector UInt8 n) (written : List UInt8) : Vector UInt8 n :=
  .ofFn fun i => written.getD i.val bytes[i]

/-- A buffer and its metadata. -/
abbrev Slot := SendBufferMetadata × SendBuffer

/-- `SendBuffer::prepare_entry`: the buffer afterwards, and the socket of the entry unless the
response could not be written. -/
def Slot.prepareEntry (slot : Slot) (response : Response) (addr : CanonicalSocketAddr)
    (sendToIpv4Socket : Bool) : Option (Slot × Option SocketIdentifier) := do
  let metadata := { slot.1 with receiverIsIpv4 := sendToIpv4Socket || addr.isIpv4 }
  let buffer ← slot.2.setName addr sendToIpv4Socket
  let buffer := { buffer with bytes := overwrite buffer.bytes response.writeBytes }
  match response.serialize responseBufLen with
  | some written =>
    let metadata := { metadata with responseType := .fromResponse response }
    let entryFd := if sendToIpv4Socket then SocketIdentifier.v4 else .v6
    return ((metadata, { buffer with iovLen := written.length }), some entryFd)
  | none => return ((metadata, buffer), none)

structure SendBuffers where
  likelyNextFreeIndex : Nat
  buffers : List Slot

/-- An entry of the submission queue. -/
structure Entry where
  fd : SocketIdentifier
  userData : Nat
  deriving DecidableEq, Repr

inductive Error where
  | noBuffers (response : Response)
  | serializationFailed
  deriving DecidableEq, Repr

namespace SendBuffers

def new (capacity : Nat) : SendBuffers where
  likelyNextFreeIndex := 0
  buffers := List.replicate capacity (SendBufferMetadata.default, SendBuffer.new)

def responseTypeAndIpv4 (self : SendBuffers) (index : Nat) : Option (ResponseType × Bool) := do
  let slot ← self.buffers[index]?
  return (slot.1.responseType, slot.1.receiverIsIpv4)

def setSlot (self : SendBuffers) (index : Nat) (slot : Slot) : SendBuffers :=
  { self with buffers := self.buffers.set index slot }

def markBufferAsFree (self : SendBuffers) (index : Nat) : Option SendBuffers := do
  let slot ← self.buffers[index]?
  return self.setSlot index ({ slot.1 with free := true }, slot.2)

def resetLikelyNextFreeIndex (self : SendBuffers) : SendBuffers :=
  { self with likelyNextFreeIndex := 0 }

def nextFreeIndex (self : SendBuffers) : Option Nat :=
  if self.likelyNextFreeIndex ≥ self.buffers.length then none
  else ((self.buffers.drop self.likelyNextFreeIndex).findIdx? fun slot => slot.1.free).map
    (self.likelyNextFreeIndex + ·)

def prepareEntry (self : SendBuffers) (sendToIpv4Socket : Bool) (response : Response)
    (addr : CanonicalSocketAddr) : Option (SendBuffers × Except Error Entry) :=
  match self.nextFreeIndex with
  | none => some (self, .error (.noBuffers response))
  | some index => do
    let slot ← self.buffers[index]?
    let (slot, entryFd) ← Slot.prepareEntry slot response addr sendToIpv4Socket
    match entryFd with
    | some fd =>
      let buffers := self.setSlot index ({ slot.1 with free := false }, slot.2)
      return ({ buffers with likelyNextFreeIndex := index + 1 }, .ok ⟨fd, index⟩)
    | none => return (self.setSlot index slot, .error .serializationFailed)

end SendBuffers

/-- Of an iteration of the worker's loop: before and after `submit_and_wait`. -/
inductive Phase where
  | sending
  | completing
  deriving DecidableEq, Repr

/-- An entry that the ring has not completed, with what it was prepared for. -/
structure InFlight where
  index : Nat
  sendToIpv4Socket : Bool
  addr : CanonicalSocketAddr
  response : Response
  deriving DecidableEq

/-- The worker, the entries in flight, and all local responses so far: those that were queued,
and those that were taken off the queue for good. -/
structure Cycle where
  optSocketIpv4 : Bool
  optSocketIpv6 : Bool
  sendBuffers : SendBuffers
  localResponses : List (CanonicalSocketAddr × Response)
  phase : Phase
  inFlight : List InFlight
  queued : List (CanonicalSocketAddr × Response)
  taken : List (CanonicalSocketAddr × Response)

inductive Action where
  | send
  | submit
  | complete (index : Nat)
  | receive (addr : CanonicalSocketAddr) (response : Response)
  | reset
  deriving DecidableEq

namespace Cycle

def init (capacity : Nat) (optSocketIpv4 optSocketIpv6 : Bool) : Cycle where
  optSocketIpv4
  optSocketIpv6
  sendBuffers := .new capacity
  localResponses := []
  phase := .sending
  inFlight := []
  queued := []
  taken := []

/-- `send_to_ipv4_socket`. -/
def chooseSocket (s : Cycle) (addr : CanonicalSocketAddr) : Option Bool :=
  if addr.isIpv4 then
    if s.optSocketIpv4 then some true
    else if s.optSocketIpv6 then some false
    else none
  else if s.optSocketIpv6 then some false
  else none

/-- One response is taken off the queue and sent, unless there are none. -/
def send (s : Cycle) : Option Cycle :=
  match s.localResponses with
  | [] => none
  | (addr, response) :: localResponses => do
    let sendToIpv4Socket ← s.chooseSocket addr
    let (sendBuffers, result) ← s.sendBuffers.prepareEntry sendToIpv4Socket response addr
    match result with
    | .ok entry =>
      return { s with
        sendBuffers
        localResponses
        inFlight := ⟨entry.userData, sendToIpv4Socket, addr, response⟩ :: s.inFlight
        taken := s.taken ++ [(addr, response)] }
    | .error (.noBuffers response) =>
      -- the loop ends
      return { s with
        sendBuffers
        localResponses := (addr, response) :: localResponses
        phase := .completing }
    | .error .serializationFailed =>
      return { s with sendBuffers, localResponses, taken := s.taken ++ [(addr, response)] }

/-- The completion of an entry. -/
def complete (s : Cycle) (index : Nat) : Option Cycle :=
  if index ∈ s.inFlight.map InFlight.index then do
    let sendBuffers ← s.sendBuffers.markBufferAsFree index
    return { s with
      sendBuffers
      inFlight := s.inFlight.filter fun entry => entry.index ≠ index }
  else none

/-- A request was received and answered. -/
def receive (s : Cycle) (addr : CanonicalSocketAddr) (response : Response) : Cycle :=
  { s with
    localResponses := s.localResponses ++ [(addr, response)]
    queued := s.queued ++ [(addr, response)] }

def step (s : Cycle) : Action → Option Cycle
  | .send => if s.phase = .sending then s.send else none
  | .submit => if s.phase = .sending then some { s with phase := .completing } else none
  | .complete index => if s.phase = .completing then s.complete index else none
  | .receive addr response => if s.phase = .completing then some (s.receive addr response) else none
  | .reset =>
    if s.phase = .completing then
      some { s with sendBuffers := s.sendBuffers.resetLikelyNextFreeIndex, phase := .sending }
    else none

end Cycle

end Uring

end Aquatic.Udp
