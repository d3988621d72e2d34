import Aquatic.Common.ValidUntil
import Aquatic.Udp.BufRing
import Aquatic.Udp.ConnectionAges
import Aquatic.Udp.SendBuffers
import Aquatic.Udp.Statistics

/-!
# The loop of the io_uring worker

The worker puts entries into the submission queue: those that are to be submitted again, then
responses, as many as there is room for. It submits them, waits and goes through what has been
completed. The kernel works on the entries it has taken until it completes them, in any order;
it may complete a receive any number of times before the last time. In the functions `none`
stands for a panic. The buffer that comes with a receive is modelled by the message in it.
-/

namespace Aquatic.Udp.Uring
open Protocol
set_option autoImplicit false

def userDataRecvV4 : UInt64 := 0xffffffffffffffff

def userDataRecvV6 : UInt64 := userDataRecvV4 - 1

def userDataPulseTimeout : UInt64 := userDataRecvV4 - 2

inductive Opcode where
  | recvMsgMulti (fd : SocketIdentifier)
  | timeout (seconds : UInt64)
  | sendMsg (fd : SocketIdentifier)
  deriving DecidableEq, Repr

/-- An entry of the submission queue. -/
structure Sqe where
  opcode : Opcode
  userData : UInt64
  deriving DecidableEq, Repr

def recvSqeIpv4 : Sqe := ⟨.recvMsgMulti .v4, userDataRecvV4⟩

def recvSqeIpv6 : Sqe := ⟨.recvMsgMulti .v6, userDataRecvV6⟩

def pulseTimeoutSqe : Sqe := ⟨.timeout 5, userDataPulseTimeout⟩

/-- The entry that `prepare_entry` returns. -/
def Entry.sqe (entry : Entry) : Sqe := ⟨.sendMsg entry.fd, .ofNat entry.userData⟩

def ResponseType.counter : ResponseType → Counter
  | .connect => .responsesConnect
  | .announce => .responsesAnnounce
  | .scrape => .responsesScrape
  | .error => .responsesError

/-- An entry of the completion queue, and the message in the buffer that is named in it. -/
structure Completion where
  userData : UInt64
  result : Int32
  more : Bool
  message : Option Datagram

structure SubmissionQueue (capacity : Nat) where
  entries : List Sqe
  fits : entries.length ≤ capacity

namespace SubmissionQueue
variable {capacity : Nat}

def empty (capacity : Nat) : SubmissionQueue capacity := ⟨[], Nat.zero_le capacity⟩

def push (queue : SubmissionQueue capacity) (sqe : Sqe) : Option (SubmissionQueue capacity) :=
  if h : (queue.entries ++ [sqe]).length ≤ capacity then some ⟨queue.entries ++ [sqe], h⟩ else none

def pushAll (queue : SubmissionQueue capacity) (sqes : List Sqe) :
    Option (SubmissionQueue capacity) :=
  sqes.foldlM push queue

end SubmissionQueue

/-- Where in an iteration of the loop the worker is. -/
inductive LoopPhase where
  | resubmitting
  | sending (attempts : Nat)
  | waiting (want : Nat)
  | completing (left : Nat)
  deriving DecidableEq, Repr

/-- `armed` are the entries that the kernel works on; `counted` is what has been added to the
counters, and `sent` records the completions of responses. -/
structure WorkerLoop (ringEntries : Nat) where
  cycle : Cycle
  worker : SocketWorker
  maxPeerAge : UInt32
  statisticsActive : Bool
  resubmittableSqeBuf : List Sqe
  submissionQueue : SubmissionQueue ringEntries
  numSendAdded : Nat
  phase : LoopPhase
  armed : List Sqe
  completions : List Completion
  counted : List Added
  sent : List (InFlight × Int32)

namespace WorkerLoop
variable {ringEntries : Nat}

def init (ringEntries : Nat) (optSocketIpv4 optSocketIpv6 : Bool) (worker : SocketWorker)
    (maxPeerAge : UInt32) (statisticsActive : Bool) : WorkerLoop ringEntries where
  cycle := .init ringEntries optSocketIpv4 optSocketIpv6
  worker
  maxPeerAge
  statisticsActive
  resubmittableSqeBuf := [pulseTimeoutSqe] ++ (if optSocketIpv4 then [recvSqeIpv4] else []) ++
    (if optSocketIpv6 then [recvSqeIpv6] else [])
  submissionQueue := .empty ringEntries
  numSendAdded := 0
  phase := .resubmitting
  armed := []
  completions := []
  counted := []
  sent := []

def resubmit (s : WorkerLoop ringEntries) : Option (WorkerLoop ringEntries) := do
  let submissionQueue ← s.submissionQueue.pushAll s.resubmittableSqeBuf
  let sqSpace := ringEntries - submissionQueue.entries.length
  return { s with
    resubmittableSqeBuf := []
    submissionQueue
    numSendAdded := 0
    phase := .sending sqSpace }

/-- One turn of the loop over the space in the queue. -/
def send (s : WorkerLoop ringEntries) (attempts : Nat) : Option (WorkerLoop ringEntries) :=
  match s.cycle.localResponses with
  | [] => some { s with phase := .sending 0 }
  | (addr, response) :: localResponses => do
    let sendToIpv4Socket ← s.cycle.chooseSocket addr
    let (sendBuffers, result) ← s.cycle.sendBuffers.prepareEntry sendToIpv4Socket response addr
    match result with
    | .ok entry =>
      let submissionQueue ← s.submissionQueue.push entry.sqe
      return { s with
        cycle := { s.cycle with
          sendBuffers
          localResponses
          inFlight := ⟨entry.userData, sendToIpv4Socket, addr, response⟩ :: s.cycle.inFlight
          taken := s.cycle.taken ++ [(addr, response)] }
        submissionQueue
        numSendAdded := s.numSendAdded + 1
        phase := .sending attempts }
    | .error (.noBuffers response) =>
      return { s with
        cycle := { s.cycle with
          sendBuffers, localResponses := (addr, response) :: localResponses }
        phase := .sending 0 }
    | .error .serializationFailed =>
      return { s with
        cycle := { s.cycle with
          sendBuffers, localResponses, taken := s.cycle.taken ++ [(addr, response)] }
        phase := .sending attempts }

/-- The kernel takes all entries. -/
def submit (s : WorkerLoop ringEntries) : WorkerLoop ringEntries :=
  { s with
    cycle := { s.cycle with phase := .completing }
    submissionQueue := .empty ringEntries
    phase := .waiting (max s.numSendAdded 1)
    armed := s.armed ++ s.submissionQueue.entries }

/-- What a request is counted as; `len` is that of the buffer. -/
def receivedCounts (worker : SocketWorker) (datagram : Datagram) (len : UInt64) :
    List Added :=
  match parse worker.config.maxScrapeTorrents datagram with
  | .ok (_, addr) => [receivedBytes addr.isIpv4 len, (ipVersionOf addr.isIpv4, .requests, 1)]
  | .error (.requestParseError _ addr) => [receivedBytes addr.isIpv4 len]
  | .error .invalidSocketAddress => []
  | .error .recvMsgTruncated => []

def handleRecvCqe (s : WorkerLoop ringEntries) (cqe : Completion) :
    Option (CanonicalSocketAddr × Response) × WorkerLoop ringEntries :=
  if cqe.result < 0 then (none, s)
  else
    match cqe.message with
    | none => (none, s)
    | some datagram =>
      let counts :=
        if s.statisticsActive then
          receivedCounts s.worker datagram cqe.result.toInt64.toUInt64
        else []
      let (answer, worker) := Uring.handleRecvCqe s.worker datagram
      (answer, { s with worker, counted := s.counted ++ counts })

def handleRecv (s : WorkerLoop ringEntries) (cqe : Completion) (recvSqe : Sqe) :
    WorkerLoop ringEntries :=
  let (answer, s) := s.handleRecvCqe cqe
  let s :=
    match answer with
    | some (addr, response) => { s with cycle := s.cycle.receive addr response }
    | none => s
  if cqe.more then s
  else { s with resubmittableSqeBuf := s.resubmittableSqeBuf ++ [recvSqe] }

/-- The seconds that have passed for the validator, and since the start of the server. -/
structure Clocks where
  elapsed : Nat
  now : SecondsSinceServerStart
  deriving DecidableEq, Repr

def handlePulse (s : WorkerLoop ringEntries) (clocks : Clocks) : WorkerLoop ringEntries :=
  { s with
    worker := { s.worker with
      validator := s.worker.validator.updateElapsed clocks.elapsed
      peerValidUntil := .newWithNow clocks.now s.maxPeerAge }
    resubmittableSqeBuf := s.resubmittableSqeBuf ++ [pulseTimeoutSqe] }

def countSent (s : WorkerLoop ringEntries) (cqe : Completion) : Option (List Added) :=
  if cqe.result < 0 then some []
  else if s.statisticsActive then do
    let (responseType, receiverIsIpv4) ←
      s.cycle.sendBuffers.responseTypeAndIpv4 cqe.userData.toNat
    return sentResponse receiverIsIpv4 responseType.counter cqe.result.toInt64.toUInt64
  else some []

def handleSent (s : WorkerLoop ringEntries) (cqe : Completion) :
    Option (WorkerLoop ringEntries) := do
  let index := cqe.userData.toNat
  let counts ← s.countSent cqe
  let cycle ← s.cycle.complete index
  let sent := s.cycle.inFlight.filter fun entry => entry.index = index
  return { s with
    cycle
    counted := s.counted ++ counts
    sent := s.sent ++ sent.map fun entry => (entry, cqe.result) }

def handleCqe (s : WorkerLoop ringEntries) (cqe : Completion) (clocks : Clocks) :
    Option (WorkerLoop ringEntries) :=
  if cqe.userData = userDataRecvV4 then some (s.handleRecv cqe recvSqeIpv4)
  else if cqe.userData = userDataRecvV6 then some (s.handleRecv cqe recvSqeIpv6)
  else if cqe.userData = userDataPulseTimeout then some (s.handlePulse clocks)
  else s.handleSent cqe

/-- The next of the completions that were there when the worker woke up. -/
def handleNext (s : WorkerLoop ringEntries) (left : Nat) (clocks : Clocks) :
    Option (WorkerLoop ringEntries) :=
  match s.completions with
  | [] => none
  | cqe :: completions =>
    { s with completions, phase := .completing left }.handleCqe cqe clocks

def finish (s : WorkerLoop ringEntries) : WorkerLoop ringEntries :=
  { s with
    cycle := { s.cycle with
      sendBuffers := s.cycle.sendBuffers.resetLikelyNextFreeIndex
      phase := .sending }
    phase := .resubmitting }

/-- The kind of socket that datagrams of the sender come in on. -/
def socketOf (src : SocketAddr) : SocketIdentifier :=
  match src.ip with
  | .v4 _ => .v4
  | .v6 _ => .v6

/-- Whether an entry can be completed so: only a receive goes on after a completion, and a
message has come in on the socket it was received on. -/
def completes (sqe : Sqe) (cqe : Completion) : Bool :=
  cqe.userData == sqe.userData &&
    match sqe.opcode with
    | .recvMsgMulti fd => cqe.message.all fun datagram => socketOf datagram.src == fd
    | .timeout _ => !cqe.more
    | .sendMsg _ => !cqe.more

def complete (s : WorkerLoop ringEntries) (sqe : Sqe) (cqe : Completion) :
    Option (WorkerLoop ringEntries) :=
  if sqe ∈ s.armed ∧ completes sqe cqe then
    some { s with
      armed := if cqe.more then s.armed else s.armed.erase sqe
      completions := s.completions ++ [cqe] }
  else none

/-- `run` is a step of the worker; the clocks are read where a timeout is handled. -/
inductive Action where
  | run (clocks : Clocks)
  | complete (sqe : Sqe) (cqe : Completion)

def runStep (s : WorkerLoop ringEntries) (clocks : Clocks) : Option (WorkerLoop ringEntries) :=
  match s.phase with
  | .resubmitting => s.resubmit
  | .sending 0 => some s.submit
  | .sending (attempts + 1) => s.send attempts
  | .waiting want =>
    if want ≤ s.completions.length then
      some { s with phase := .completing s.completions.length }
    else none
  | .completing 0 => some s.finish
  | .completing (left + 1) => s.handleNext left clocks

def step (s : WorkerLoop ringEntries) : Action → Option (WorkerLoop ringEntries)
  | .run clocks => s.runStep clocks
  | .complete sqe cqe => s.complete sqe cqe

end WorkerLoop

end Aquatic.Udp.Uring
