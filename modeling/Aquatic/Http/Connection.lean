import Aquatic.AutoBan.Tracker
import Aquatic.Http.RequestParsing
import Aquatic.HttpProtocol.Response

/-!
# A connection

Requests are read into a buffer, checked and answered one after the other. What the
client sends is all there from the beginning; how much of it one read delivers is up to
the transport. Reads that fail are left out.
-/

namespace Aquatic.Http
open AutoBan HttpProtocol Text
set_option autoImplicit false

inductive ConnectionError where
  | badRequest (err : String)
  | requestBufferFull
  | responseBufferFull
  | peerClosed
  | responseSenderClosed
  | scrapeChannelError (err : String)
  | other (err : String)
  deriving DecidableEq, Repr

def requestBufferSize : Nat := 2048

/-- What has been read and not yet consumed. -/
structure RequestBuffer where
  bytes : List UInt8
  bounded : bytes.length ≤ requestBufferSize

namespace RequestBuffer

def free (buffer : RequestBuffer) : Nat := requestBufferSize - buffer.bytes.length

def append (buffer : RequestBuffer) (bytes : {bytes : List UInt8 // bytes.length ≤ buffer.free}) :
    RequestBuffer where
  bytes := buffer.bytes ++ bytes.val
  bounded := by
    have hbounded := buffer.bounded
    have hfree : bytes.val.length ≤ requestBufferSize - buffer.bytes.length := bytes.property
    rw [List.length_append]
    omega

def drop (buffer : RequestBuffer) (consumed : Nat) : RequestBuffer where
  bytes := buffer.bytes.drop consumed
  bounded := by
    have hbounded := buffer.bounded
    rw [List.length_drop]
    omega

end RequestBuffer

/-- What the client will have sent before it closes, and how many bytes the transport
would deliver with the next reads. -/
structure Stream where
  unread : List UInt8
  sizes : Nat → Nat

/-- A read delivers a byte at least, unless the client has closed. -/
def Stream.read (stream : Stream) (free : Nat) :
    {bytes : List UInt8 // bytes.length ≤ free} × Stream :=
  let n := min (max 1 (stream.sizes 0)) free
  (⟨stream.unread.take n, by
    rw [List.length_take]
    omega⟩, ⟨stream.unread.drop n, fun i => stream.sizes (i + 1)⟩)

structure Connection where
  config : ServerConfig
  accessList : AccessList
  ipBanList : IpBanList
  clientBanList : ClientBanList
  autoBanTracker : Option AutoBanTracker
  violations : List (IpAddr × AutoBanReason)
  clock : Instant
  peerPort : UInt16
  requestBuffer : RequestBuffer
  responseBuffer : List UInt8
  stream : Stream
  trustedProxies : TrustedProxies
  trustForwardedIp : Bool

/-- What is before the first line end, which is a bare line feed only if there is no other. -/
def requestLine (rawRequest : List Char) : List Char :=
  match splitOnce "\r\n".toList rawRequest with
  | some (line, _) => line
  | none =>
    match splitOnce ['\n'] rawRequest with
    | some (line, _) => line
    | none => rawRequest

/-- The request target from the request line. -/
def extractRequestTarget (rawRequest : List Char) : List Char :=
  match splitWhitespace isWhitespace (requestLine rawRequest) with
  | _ :: target :: _ => target
  | _ => requestLine rawRequest

structure ReadRequest where
  request : Request
  optPeerAddr : Option CanonicalSocketAddr
  optUserAgent : Option (List Char)
  requestTarget : List Char
  deriving DecidableEq, Repr

namespace Connection

/-- `none` where the subtraction of what was consumed would underflow. -/
def finishRequest (connection : Connection) (parsed : ParsedRequest) :
    Option (Except ConnectionError ReadRequest × Connection) := do
  let consumed := parsed.consumed
  let rawRequest := fromUtf8Lossy (connection.requestBuffer.bytes.take consumed)
  let requestTarget := extractRequestTarget rawRequest
  let _leftover ← usizeSub connection.requestBuffer.bytes.length consumed
  let connection := { connection with requestBuffer := connection.requestBuffer.drop consumed }
  if connection.trustForwardedIp then
    match parsed.optPeerIp with
    | some peerIp =>
      return (.ok {
        request := parsed.request
        optPeerAddr := some (.new ⟨peerIp, connection.peerPort⟩)
        optUserAgent := parsed.optUserAgent
        requestTarget }, connection)
    | none =>
      return (.error (.other "logic error: peer ip must have been extracted at this point"),
        connection)
  else
    return (.ok {
      request := parsed.request
      optPeerAddr := none
      optUserAgent := parsed.optUserAgent
      requestTarget }, connection)

/-- What to do with the outcome of the parser; `none` to read more. -/
def handleParsed (connection : Connection) :
    Except RequestParseError ParsedRequest →
      Option (Option (Except ConnectionError ReadRequest × Connection))
  | .ok parsed => some (connection.finishRequest parsed)
  | .error .moreDataNeeded => none
  | .error (.requiredPeerIpHeaderMissing _) =>
    some (some (.error (.other "required peer ip header missing or invalid"), connection))
  | .error (.other err) => some (some (.error (.badRequest err), connection))

variable (httparse : Httparse) (urlencoding : UrlEncoding)

/-- The loop of `read_request`, with a bound on its turns. -/
def readLoop : Nat → Connection → Option (Except ConnectionError ReadRequest × Connection)
  | 0, _ => none
  | turns + 1, connection =>
    let buffer := connection.requestBuffer
    let handled :=
      if buffer.bytes.length > 0 then
        connection.handleParsed (parseRequest httparse urlencoding connection.config
          connection.trustForwardedIp connection.trustedProxies buffer.bytes)
      else none
    match handled with
    | some result => result
    | none =>
      if buffer.bytes.length = requestBufferSize then
        some (.error .requestBufferFull, connection)
      else
        let (bytes, stream) := connection.stream.read buffer.free
        if bytes.val.length = 0 then some (.error .peerClosed, connection)
        else
          readLoop turns
            { connection with requestBuffer := buffer.append bytes, stream := stream }

/-- A turn that goes on has read a byte. -/
def readRequest (connection : Connection) :
    Option (Except ConnectionError ReadRequest × Connection) :=
  connection.readLoop httparse urlencoding (connection.stream.unread.length + 1)

end Connection

def failure (failureReason : String) : Response := .failure ⟨failureReason.toList⟩

namespace Connection

def recordViolation (connection : Connection) (ip : IpAddr) (reason : AutoBanReason) : Connection :=
  match connection.autoBanTracker with
  | none => connection
  | some tracker =>
    let (_, _, inner) :=
      AutoBanInner.recordViolation tracker.policy tracker.inner ip reason connection.clock
    { connection with
      autoBanTracker := some { tracker with inner }
      violations := connection.violations ++ [(ip, reason)] }

/-- Only filters that are enabled are reported. -/
def filterReason (config : RequestFilterConfig) (requestTarget : List Char)
    (optUserAgent : Option (List Char)) : Option AutoBanReason :=
  if config.filterSqlInjection && isSqlInjection requestTarget then some .sqlInjection
  else if config.filterPathTraversal && isPathTraversal requestTarget then some .pathTraversal
  else if config.filterCrawlers && isCrawler optUserAgent then some .crawler
  else if config.filterMissingUserAgent && optUserAgent.isNone then some .missingUserAgent
  else none

def recordFiltered (connection : Connection) (ip : IpAddr) (requestTarget : List Char)
    (optUserAgent : Option (List Char)) : Connection :=
  match filterReason connection.config.requestFilter requestTarget optUserAgent with
  | some reason => connection.recordViolation ip reason
  | none => connection

/-- The checks of the client that an announce is from. -/
def checkClient (connection : Connection) (peerIp : IpAddr) (optUserAgent : Option (List Char))
    (peerId : PeerId) : Option Response × Connection :=
  let clientBan := connection.config.clientBan
  let strictness := clientBan.peerIdStrictness
  let userAgentMode := clientBan.peerIdUserAgentMismatch
  let rejectsUserAgent := userAgentMode != .off && optUserAgent.any fun userAgent =>
    connection.clientBanList.checkPeerIdUserAgent peerId userAgent userAgentMode == .rejected
  if clientBan.mode == .on &&
      connection.clientBanList.isBanned (fromUtf8Lossy peerId.bytes.toList) then
    (some (failure "Client banned"), connection.recordViolation peerIp .clientBanned)
  else if strictness != .off &&
      connection.clientBanList.checkPeerIdFormat peerId strictness == .rejected then
    (some (failure "Unsupported client"), connection.recordViolation peerIp .nonStandardPeerId)
  else if rejectsUserAgent then
    (some (failure "Client identity mismatch"),
      connection.recordViolation peerIp .peerIdUserAgentMismatch)
  else (none, connection)

/-- The response to a request that is refused. -/
def runSecurityChecks (connection : Connection) (peerAddr : CanonicalSocketAddr)
    (optUserAgent : Option (List Char)) (request : Request) (requestTarget : List Char) :
    Option Response × Connection :=
  let peerIp := peerAddr.addr.ip
  let filterConfig := connection.config.requestFilter
  if connection.autoBanTracker.any fun tracker =>
      tracker.inner.isAutoBanned peerIp connection.clock then
    (some (failure "IP auto-banned"), connection)
  else if connection.config.ipBanMode == .on && connection.ipBanList.isBanned peerIp then
    (some (failure "IP banned"), connection)
  else if !isAllowedWithConfig requestTarget optUserAgent filterConfig then
    (some (failure "Request filtered"),
      connection.recordFiltered peerIp requestTarget optUserAgent)
  else if filterConfig.filterPrivateIps && !isIpAllowed peerIp then
    (some (failure "Private IP not allowed"), connection.recordViolation peerIp .privateIp)
  else
    match request with
    | .announce request => connection.checkClient peerIp optUserAgent request.peerId
    | .scrape _ => (none, connection)

end Connection

end Aquatic.Http
