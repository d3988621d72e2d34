import Aquatic.Common.ValidUntil
import Aquatic.Udp.ConnectionAges
import Aquatic.Udp.ResponseSize
import Aquatic.Udp.SendBuffers
import Aquatic.Udp.Statistics

/-!
# The loop of the mio worker

An iteration reads datagrams, answering each as it is read, and then sends again what could
not be sent for lack of space in the buffers of the system. What `recv_from` and `send_to`
return comes from outside. In the functions `none` stands for a panic.
-/

namespace Aquatic.Udp.Mio
open Protocol
set_option autoImplicit false

/-- What `send_to` returns. -/
inductive SendResult where
  | ok (bytesSent : UInt64)
  | enobufs
  | wouldBlock
  | failed
  deriving DecidableEq, Repr

/-- A call of `send_to`. -/
structure Attempt where
  canonicalAddr : CanonicalSocketAddr
  response : Response
  addr : SocketAddr
  result : SendResult

abbrev Answer := CanonicalSocketAddr × Response

def Attempt.answer (attempt : Attempt) : Answer := (attempt.canonicalAddr, attempt.response)

/-- The responses of an iteration on a socket, and the attempts to send them for the first time
and again. -/
structure Iteration where
  answers : List Answer
  first : List Attempt
  again : List Attempt

/-- `current` and `past` record the iterations. -/
structure Socket where
  isV4 : Bool
  optResendBuffer : Option (List Answer)
  current : Iteration
  past : List Iteration

/-- `counted` is what has been added to the counters, `sent` records all attempts. -/
structure WorkerSharedData where
  worker : SocketWorker
  statisticsActive : Bool
  resendBufferMaxLen : Nat
  counted : List Added
  sent : List Attempt

def responseCounter : Response → Counter
  | .connect _ => .responsesConnect
  | .announceIpv4 _ => .responsesAnnounce
  | .announceIpv6 _ => .responsesAnnounce
  | .scrape _ => .responsesScrape
  | .error _ => .responsesError

namespace Socket

def create (isV4 : Bool) (resendBufferMaxLen : Nat) : Socket where
  isV4
  optResendBuffer := if 0 < resendBufferMaxLen then some [] else none
  current := ⟨[], [], []⟩
  past := []

/-- The address that is sent to; `none` where an IPv6 address is to be reached over IPv4. -/
def sendAddr (socket : Socket) (canonicalAddr : CanonicalSocketAddr) : Option SocketAddr :=
  if socket.isV4 then if canonicalAddr.isIpv4 then some canonicalAddr.addr else none
  else some (Uring.getIpv6Mapped canonicalAddr)

def recordAnswer (socket : Socket) (answer : Answer) : Socket :=
  { socket with
    current := { socket.current with answers := socket.current.answers ++ [answer] } }

def record (socket : Socket) (disableResendBuffer : Bool) (attempt : Attempt) : Socket :=
  if disableResendBuffer then
    { socket with
      current := { socket.current with again := socket.current.again ++ [attempt] } }
  else
    { socket with
      current := { socket.current with first := socket.current.first ++ [attempt] } }

/-- What is done with a response that could not be sent for lack of space. -/
def keep (socket : Socket) (shared : WorkerSharedData) (answer : Answer)
    (disableResendBuffer : Bool) : Socket :=
  match socket.optResendBuffer with
  | some resendBuffer =>
    if !disableResendBuffer && resendBuffer.length < shared.resendBufferMaxLen then
      { socket with optResendBuffer := some (resendBuffer ++ [answer]) }
    else socket
  | none => socket

def sendResponse (socket : Socket) (shared : WorkerSharedData)
    (canonicalAddr : CanonicalSocketAddr) (response : Response) (disableResendBuffer : Bool)
    (result : SendResult) : Option (Socket × WorkerSharedData) :=
  match response.serialize bufferSize with
  | none => some (socket, shared)
  | some _ => do
    let addr ← socket.sendAddr canonicalAddr
    let attempt : Attempt := ⟨canonicalAddr, response, addr, result⟩
    let socket := socket.record disableResendBuffer attempt
    let shared := { shared with sent := shared.sent ++ [attempt] }
    match result with
    | .ok bytesSent =>
      let added :=
        if shared.statisticsActive then
          sentResponse canonicalAddr.isIpv4 (responseCounter response) bytesSent
        else []
      return (socket, { shared with counted := shared.counted ++ added })
    | .enobufs => return (socket.keep shared (canonicalAddr, response) disableResendBuffer, shared)
    | .wouldBlock =>
      return (socket.keep shared (canonicalAddr, response) disableResendBuffer, shared)
    | .failed => return (socket, shared)

/-- What a datagram is counted as. -/
def receivedAdded (shared : WorkerSharedData) (datagram : Datagram) : List Added :=
  let src := CanonicalSocketAddr.new datagram.src
  let bytes := datagram.payload.take bufferSize
  let requests : List Added :=
    if datagram.src.port = 0 then []
    else
      match Request.parseBytes bytes shared.worker.config.maxScrapeTorrents with
      | .ok _ => [(ipVersionOf src.isIpv4, .requests, 1)]
      | .error _ => []
  if shared.statisticsActive then receivedBytes src.isIpv4 (.ofNat bytes.length) :: requests else []

/-- One turn of the loop in `read_and_handle_requests`; `result` is what sending the response
returns, if there is one. -/
def readAndHandle (socket : Socket) (shared : WorkerSharedData) (datagram : Datagram)
    (result : SendResult) : Option (Socket × WorkerSharedData) :=
  let added := receivedAdded shared datagram
  let (answer, worker) := readAndHandleRequest shared.worker datagram
  let shared := { shared with worker, counted := shared.counted ++ added }
  match answer with
  | none => some (socket, shared)
  | some (src, response) =>
    (socket.recordAnswer (src, response)).sendResponse shared src response false result

/-- The next of the responses that are sent again, with what that returns. -/
def resendNext (results : Nat → SendResult) (s : Socket × WorkerSharedData)
    (answer : Answer × Nat) : Option (Socket × WorkerSharedData) :=
  s.1.sendResponse s.2 answer.1.1 answer.1.2 true (results answer.2)

/-- The buffer is taken out, and put back when it is empty. -/
def resendFailed (socket : Socket) (shared : WorkerSharedData) (results : Nat → SendResult) :
    Option (Socket × WorkerSharedData) :=
  match socket.optResendBuffer with
  | none => some (socket, shared)
  | some resendBuffer => do
    let socket := { socket with optResendBuffer := some [] }
    let (socket, shared) ← resendBuffer.zipIdx.foldlM (resendNext results) (socket, shared)
    return ({ socket with optResendBuffer := socket.optResendBuffer.map fun _ => [] }, shared)

def nextIteration (socket : Socket) : Socket :=
  { socket with current := ⟨[], [], []⟩, past := socket.past ++ [socket.current] }

end Socket

structure MioWorker where
  optSocketIpv4 : Option Socket
  optSocketIpv6 : Option Socket
  shared : WorkerSharedData
  maxPeerAge : UInt32
  iterCounter : UInt64

namespace MioWorker

/-- A datagram is read on a socket, or there is no more to be read on either. -/
inductive Action where
  | read (onIpv4 : Bool) (datagram : Datagram) (result : SendResult)
  | endIteration (resultsIpv4 resultsIpv6 : Nat → SendResult) (elapsed : Nat)
      (now : SecondsSinceServerStart)

def init (useIpv4 useIpv6 : Bool) (worker : SocketWorker) (statisticsActive : Bool)
    (resendBufferMaxLen : Nat) (maxPeerAge : UInt32) : MioWorker where
  optSocketIpv4 := if useIpv4 then some (.create true resendBufferMaxLen) else none
  optSocketIpv6 := if useIpv6 then some (.create false resendBufferMaxLen) else none
  shared := ⟨worker, statisticsActive, resendBufferMaxLen, [], []⟩
  maxPeerAge
  iterCounter := 0

/-- Datagrams come in on the socket for their kind of address. -/
def read (s : MioWorker) (onIpv4 : Bool) (datagram : Datagram) (result : SendResult) :
    Option MioWorker :=
  match onIpv4, datagram.src.ip with
  | true, .v4 _ => do
    let socket ← s.optSocketIpv4
    let (socket, shared) ← socket.readAndHandle s.shared datagram result
    return { s with optSocketIpv4 := some socket, shared }
  | false, .v6 _ => do
    let socket ← s.optSocketIpv6
    let (socket, shared) ← socket.readAndHandle s.shared datagram result
    return { s with optSocketIpv6 := some socket, shared }
  | _, _ => none

/-- What is done for a socket, if it is open. -/
def resendOpt (optSocket : Option Socket) (shared : WorkerSharedData)
    (results : Nat → SendResult) : Option (Option Socket × WorkerSharedData) :=
  match optSocket with
  | none => some (none, shared)
  | some socket => do
    let (socket, shared) ← socket.resendFailed shared results
    return (some socket.nextIteration, shared)

def updated (shared : WorkerSharedData) (maxPeerAge : UInt32) (elapsed : Nat)
    (now : SecondsSinceServerStart) : WorkerSharedData :=
  { shared with
    worker := { shared.worker with
      validator := shared.worker.validator.updateElapsed elapsed
      peerValidUntil := .newWithNow now maxPeerAge } }

def endIteration (s : MioWorker) (resultsIpv4 resultsIpv6 : Nat → SendResult) (elapsed : Nat)
    (now : SecondsSinceServerStart) : Option MioWorker := do
  let (optSocketIpv4, shared) ← resendOpt s.optSocketIpv4 s.shared resultsIpv4
  let (optSocketIpv6, shared) ← resendOpt s.optSocketIpv6 shared resultsIpv6
  let shared :=
    if s.iterCounter % 256 = 0 then updated shared s.maxPeerAge elapsed now else shared
  return { s with optSocketIpv4, optSocketIpv6, shared, iterCounter := s.iterCounter + 1 }

def step (s : MioWorker) : Action → Option MioWorker
  | .read onIpv4 datagram result => s.read onIpv4 datagram result
  | .endIteration resultsIpv4 resultsIpv6 elapsed now =>
    s.endIteration resultsIpv4 resultsIpv6 elapsed now

end MioWorker

end Aquatic.Udp.Mio
