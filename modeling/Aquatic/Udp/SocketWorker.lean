import Aquatic.AutoBan.Tracker
import Aquatic.Common.ClientBan
import Aquatic.Common.RequestFilter
import Aquatic.Udp.TorrentMaps
import Aquatic.Udp.Validator

/-!
# The socket worker

What one worker does with one datagram. The two backends handle a request alike and
receive it in their own ways: `mio` reads into a buffer, which cuts off what does not
fit, and `io_uring` is told of it. Statistics other than those of peer clients are
left out, and so is the sending of a response.
-/

namespace Aquatic.Udp
open AutoBan Collections Protocol
set_option autoImplicit false

structure SocketConfig extends Config where
  maxScrapeTorrents : UInt8
  ipBanMode : IpBanMode
  filterPrivateIps : Bool
  clientBan : ClientBanConfig
  deriving DecidableEq, Repr

/-- `violations` are the calls of `record_violation`, which may also write to a file. -/
structure SocketWorker where
  config : SocketConfig
  accessList : AccessList
  ipBanList : IpBanList
  clientBanList : ClientBanList
  torrentMaps : TorrentMaps
  autoBanTracker : Option AutoBanTracker
  violations : List (IpAddr × AutoBanReason)
  validator : ConnectionValidator
  clock : Instant
  rng : Rng
  peerValidUntil : ValidUntil
  statisticsMessages : List StatisticsMessage

structure Datagram where
  src : SocketAddr
  payload : List UInt8
  deriving DecidableEq, Repr

namespace SocketWorker

/-- Checks that only consult ban lists and never count violations. -/
def isListBanned (worker : SocketWorker) (src : CanonicalSocketAddr) : Bool :=
  (worker.config.ipBanMode == .on && worker.ipBanList.isBanned src.addr.ip) ||
    worker.autoBanTracker.any fun tracker => tracker.inner.isAutoBanned src.addr.ip worker.clock

def isPrivateIpBlocked (worker : SocketWorker) (src : CanonicalSocketAddr) : Bool :=
  worker.config.filterPrivateIps && !isIpAllowed src.addr.ip

def recordViolation (worker : SocketWorker) (ip : IpAddr) (reason : AutoBanReason) : SocketWorker :=
  match worker.autoBanTracker with
  | none => worker
  | some tracker =>
    let (_, _, inner) :=
      AutoBanInner.recordViolation tracker.policy tracker.inner ip reason worker.clock
    { worker with
      autoBanTracker := some { tracker with inner }
      violations := worker.violations ++ [(ip, reason)] }

/-- Whether the request should be blocked. -/
def runSecurityChecks (worker : SocketWorker) (src : CanonicalSocketAddr)
    (peerIdOpt : Option PeerId) : Bool × SocketWorker :=
  let peerIp := src.addr.ip
  if worker.isPrivateIpBlocked src then (true, worker.recordViolation peerIp .privateIp)
  else
    let checkClientBan := worker.config.clientBan.mode == .on
    let checkPeerId := worker.config.clientBan.peerIdStrictness != .off
    if !checkClientBan && !checkPeerId then (false, worker)
    else
      match peerIdOpt with
      | none => (false, worker)
      | some peerId =>
        let peerIdStr := fromUtf8Lossy peerId.bytes.toList
        if checkClientBan && worker.clientBanList.isBanned peerIdStr then
          (true, worker.recordViolation peerIp .clientBanned)
        else if checkPeerId then
          match worker.clientBanList.checkPeerIdFormat peerId
              worker.config.clientBan.peerIdStrictness with
          | .ok => (false, worker)
          | .warned => (false, worker)
          | .rejected => (true, worker.recordViolation peerIp .nonStandardPeerId)
        else (false, worker)

def handleAnnounce (worker : SocketWorker) (request : Protocol.AnnounceRequest)
    (src : CanonicalSocketAddr) : Option Response × SocketWorker :=
  let (valid, validator) := worker.validator.connectionIdValid src request.connectionId
  let worker := { worker with validator }
  if !valid then (none, worker)
  else
    let (blocked, worker) := worker.runSecurityChecks src (some request.peerId)
    if blocked then (none, worker)
    else if worker.accessList.allows worker.config.accessListMode request.infoHash then
      let (response, messages, torrentMaps, rng) :=
        worker.torrentMaps.announce worker.config.toConfig worker.rng request.toAnnounceRequest src
          worker.peerValidUntil
      (some response, { worker with
        torrentMaps
        rng
        statisticsMessages := worker.statisticsMessages ++ messages })
    else (some (.error ⟨request.transactionId, "Info hash not allowed"⟩), worker)

def handleScrape (worker : SocketWorker) (request : ScrapeRequest) (src : CanonicalSocketAddr) :
    Option Response × SocketWorker :=
  let (valid, validator) := worker.validator.connectionIdValid src request.connectionId
  let worker := { worker with validator }
  if !valid then (none, worker)
  else
    let (blocked, worker) := worker.runSecurityChecks src none
    if blocked then (none, worker)
    else
      let filteredRequest := request.filterInfoHashes fun infoHash =>
        worker.accessList.allows worker.config.accessListMode infoHash
      (some (.scrape (worker.torrentMaps.scrape filteredRequest src)), worker)

def handleRequest (worker : SocketWorker) (request : Request) (src : CanonicalSocketAddr) :
    Option Response × SocketWorker :=
  if worker.isListBanned src then (none, worker)
  else
    match request with
    | .connect request =>
      if worker.isPrivateIpBlocked src then (none, worker)
      else
        let (connectionId, validator) := worker.validator.createConnectionId src
        (some (.connect ⟨request.transactionId, connectionId⟩), { worker with validator })
    | .announce request => worker.handleAnnounce request src
    | .scrape request => worker.handleScrape request src

end SocketWorker

namespace Mio

def bufferSize : Nat := 8192

/-- One turn of the loop in `read_and_handle_requests`. -/
def readAndHandleRequest (worker : SocketWorker) (datagram : Datagram) :
    Option (CanonicalSocketAddr × Response) × SocketWorker :=
  let bytes := datagram.payload.take bufferSize
  let src := CanonicalSocketAddr.new datagram.src
  if datagram.src.port = 0 then (none, worker)
  else
    match Request.parseBytes bytes worker.config.maxScrapeTorrents with
    | .ok request =>
      match worker.handleRequest request src with
      | (some response, worker) => (some (src, response), worker)
      | (none, worker) => (none, worker)
    | .error (.sendable connectionId transactionId err) =>
      let (valid, validator) := worker.validator.connectionIdValid src connectionId
      let worker := { worker with validator }
      if valid then (some (src, .error ⟨transactionId, err⟩), worker) else (none, worker)
    | .error (.unsendable _) => (none, worker)

end Mio

namespace Uring

def requestBufLen : Nat := 512

/-- A buffer holds the header of the message and the name of its sender, too. -/
def payloadCapacity (src : SocketAddr) : Nat :=
  match src.ip with
  | .v4 _ => requestBufLen - 16 - 16
  | .v6 _ => requestBufLen - 16 - 28

inductive RecvError where
  | recvMsgTruncated
  | requestParseError (err : RequestParseError) (addr : CanonicalSocketAddr)
  | invalidSocketAddress

/-- The receive helpers; the one for IPv6 is used for every address of an IPv6 socket. -/
def parse (maxScrapeTorrents : UInt8) (datagram : Datagram) :
    Except RecvError (Request × CanonicalSocketAddr) :=
  if payloadCapacity datagram.src < datagram.payload.length then .error .recvMsgTruncated
  else if datagram.src.port = 0 then .error .invalidSocketAddress
  else
    let addr := CanonicalSocketAddr.new datagram.src
    match Request.parseBytes datagram.payload maxScrapeTorrents with
    | .ok request => .ok (request, addr)
    | .error err => .error (.requestParseError err addr)

def handleRequest (worker : SocketWorker) (request : Request) (src : CanonicalSocketAddr) :
    Option (CanonicalSocketAddr × Response) × SocketWorker :=
  let (response, worker) := worker.handleRequest request src
  (response.map fun response => (src, response), worker)

def handleRecvCqe (worker : SocketWorker) (datagram : Datagram) :
    Option (CanonicalSocketAddr × Response) × SocketWorker :=
  match parse worker.config.maxScrapeTorrents datagram with
  | .ok (request, addr) => handleRequest worker request addr
  | .error (.requestParseError (.sendable connectionId transactionId err) addr) =>
    let (valid, validator) := worker.validator.connectionIdValid addr connectionId
    let worker := { worker with validator }
    if valid then (some (addr, .error ⟨transactionId, err⟩), worker) else (none, worker)
  | .error (.requestParseError (.unsendable _) _) => (none, worker)
  | .error .invalidSocketAddress => (none, worker)
  | .error .recvMsgTruncated => (none, worker)

end Uring

inductive Backend where
  | mio
  | uring
  deriving DecidableEq, Repr

/-- What the worker sends in response to a datagram, and its state after that. -/
def Backend.receive : Backend → SocketWorker → Datagram →
    Option (CanonicalSocketAddr × Response) × SocketWorker
  | mio => Mio.readAndHandleRequest
  | uring => Uring.handleRecvCqe

end Aquatic.Udp
