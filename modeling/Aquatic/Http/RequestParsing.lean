import Aquatic.AutoBan.Policy
import Aquatic.Common.RequestFilter
import Aquatic.Common.TrustedProxies
import Aquatic.HttpProtocol.Request

/-!
# Parsing a request from the front of a buffer

The parser of the request line and of the headers is a library's. It says how many
bytes a request takes, or that it needs more of them.
-/

namespace Aquatic.Http
open AutoBan HttpProtocol
set_option autoImplicit false

inductive ReverseProxyPeerIpHeaderFormat where
  | lastAddress
  deriving DecidableEq, Repr

structure NetworkConfig where
  keepAlive : Bool
  runsBehindReverseProxy : Bool
  reverseProxyIpHeaderName : List Char
  reverseProxyIpHeaderFormat : ReverseProxyPeerIpHeaderFormat
  deriving DecidableEq, Repr

structure IdentityConfig extends ClientBanConfig where
  peerIdUserAgentMismatch : PeerIdCheckMode
  deriving DecidableEq, Repr

structure ServerConfig extends Config where
  swarmWorkers : Nat
  peerAnnounceInterval : Nat
  network : NetworkConfig
  ipBanMode : IpBanMode
  requestFilter : RequestFilterConfig
  clientBan : IdentityConfig
  deriving DecidableEq, Repr

structure Header where
  name : List Char
  value : List UInt8
  deriving DecidableEq, Repr

inductive HttpStatus where
  | complete (consumed : Nat) (path : Option (List Char)) (headers : List Header)
  | moreNeeded
  deriving DecidableEq, Repr

/-- `httparse::Request::parse`. -/
abbrev Httparse := List UInt8 → Except String HttpStatus

inductive RequestParseError where
  | requiredPeerIpHeaderMissing (err : String)
  | moreDataNeeded
  | other (err : String)
  deriving DecidableEq, Repr

structure ParsedRequest where
  request : Request
  optPeerIp : Option IpAddr
  optUserAgent : Option (List Char)
  consumed : Nat
  deriving DecidableEq, Repr

def parseUserAgentHeader : List Header → Option (List Char)
  | [] => none
  | header :: headers =>
    if eqIgnoreAsciiCase header.name "User-Agent".toList then
      match fromUtf8 header.value with
      | some ua => some ua
      | none => parseUserAgentHeader headers
    else parseUserAgentHeader headers

/-- The values of all instances of a header. -/
def collectHeaderValues (headerName : List Char) (values : List Char) :
    List Header → Except String (List Char)
  | [] => .ok values
  | header :: headers =>
    if eqIgnoreAsciiCase header.name headerName then do
      let value ← withContext "invalid utf-8 sequence" (fromUtf8 header.value)
      let values := if values.isEmpty then values else values ++ ", ".toList
      collectHeaderValues headerName (values ++ value) headers
    else collectHeaderValues headerName values headers

def parseForwardedHeader (headerName : List Char) (headerFormat : ReverseProxyPeerIpHeaderFormat)
    (trustedProxies : TrustedProxies) (headers : List Header) : Except String IpAddr := do
  let values ← collectHeaderValues headerName [] headers
  if values.isEmpty then throw "header not present"
  else
    match headerFormat with
    | .lastAddress =>
      withContext "no valid ip in header" (lastForwardedForIp values trustedProxies)

/-- The address from the header, if a trusted proxy has sent the request. -/
def optPeerIp (config : ServerConfig) (trustForwardedIp : Bool) (trustedProxies : TrustedProxies)
    (headers : List Header) : Except RequestParseError (Option IpAddr) :=
  if trustForwardedIp then
    match parseForwardedHeader config.network.reverseProxyIpHeaderName
        config.network.reverseProxyIpHeaderFormat trustedProxies headers with
    | .ok peerIp => .ok (some peerIp)
    | .error err => .error (.requiredPeerIpHeaderMissing err)
  else .ok none

def parseRequest (httparse : Httparse) (urlencoding : UrlEncoding) (config : ServerConfig)
    (trustForwardedIp : Bool) (trustedProxies : TrustedProxies) (buffer : List UInt8) :
    Except RequestParseError ParsedRequest :=
  match httparse buffer with
  | .error err => .error (.other s!"httparse: {err}")
  | .ok .moreNeeded => .error .moreDataNeeded
  | .ok (.complete consumed path headers) =>
    match path with
    | none => .error (.other "no http path")
    | some path =>
      match Request.parseHttpGetPath urlencoding path with
      | .error err => .error (.other err)
      | .ok request => do
        let optPeerIp ← optPeerIp config trustForwardedIp trustedProxies headers
        return { request, optPeerIp, optUserAgent := parseUserAgentHeader headers, consumed }

end Aquatic.Http
