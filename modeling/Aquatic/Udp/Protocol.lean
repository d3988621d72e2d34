import Aquatic.Common.IpBan
import Aquatic.Lib.Bytes
import Aquatic.Udp.Swarm

/-!
# The UDP protocol: requests and responses as bytes

Numbers are sent with their high byte first. An announce is a packed structure of
98 bytes; what follows it is ignored.
-/

namespace Aquatic.Udp.Protocol
open Bytes
set_option autoImplicit false

/-- The bytes of a number of `w` bits. -/
def beBytes {w : Nat} (bits : BitVec w) : List UInt8 :=
  (List.range (w / 8)).reverse.map fun i => UInt8.ofBitVec ((bits >>> (8 * i)).setWidth 8)

theorem length_beBytes {w : Nat} (bits : BitVec w) : (beBytes bits).length = w / 8 := by
  simp [beBytes]

structure ConnectionId where
  value : Int64
  deriving DecidableEq, Repr

def readI32 (bytes : List UInt8) : Option (Int32 × List UInt8) :=
  readWith 4 (fun field => Int32.ofBitVec (beBits 32 field.toList)) bytes

def readI64 (bytes : List UInt8) : Option (Int64 × List UInt8) :=
  readWith 8 (fun field => Int64.ofBitVec (beBits 64 field.toList)) bytes

def readU16 (bytes : List UInt8) : Option (UInt16 × List UInt8) :=
  readWith 2 (fun field => UInt16.ofBitVec (beBits 16 field.toList)) bytes

def protocolIdentifier : Int64 := 4497486125440

structure ConnectRequest where
  transactionId : Int32
  deriving DecidableEq, Repr

structure AnnounceRequest extends Udp.AnnounceRequest where
  connectionId : ConnectionId
  actionPlaceholder : Int32
  bytesDownloaded : Int64
  bytesUploaded : Int64
  ipAddress : Ipv4AddrBytes
  key : Int32
  deriving DecidableEq, Repr

structure ScrapeRequest where
  connectionId : ConnectionId
  transactionId : Int32
  infoHashes : List InfoHash
  deriving DecidableEq, Repr

inductive Request where
  | connect (request : ConnectRequest)
  | announce (request : AnnounceRequest)
  | scrape (request : ScrapeRequest)
  deriving DecidableEq, Repr

inductive IoError where
  | unexpectedEof
  deriving DecidableEq, Repr

inductive RequestParseError where
  | sendable (connectionId : ConnectionId) (transactionId : Int32) (err : String)
  | unsendable (err : IoError ⊕ String)
  deriving DecidableEq, Repr

namespace RequestParseError

def sendableText (text : String) (connectionId : ConnectionId) (transactionId : Int32) :
    RequestParseError :=
  .sendable connectionId transactionId text

def unsendableIo (err : IoError) : RequestParseError := .unsendable (.inl err)

def unsendableText (text : String) : RequestParseError := .unsendable (.inr text)

end RequestParseError

open RequestParseError

/-- A read from a cursor fails at the end of the datagram. -/
def orEof {α : Type} : Option α → Except RequestParseError α
  | some a => .ok a
  | none => .error (unsendableIo .unexpectedEof)

def AnnounceRequest.readFromPrefix (bytes : List UInt8) : Option AnnounceRequest := do
  let (connectionId, bytes) ← readI64 bytes
  let (actionPlaceholder, bytes) ← readI32 bytes
  let (transactionId, bytes) ← readI32 bytes
  let (infoHash, bytes) ← readExact 20 bytes
  let (peerId, bytes) ← readExact 20 bytes
  let (bytesDownloaded, bytes) ← readI64 bytes
  let (bytesLeft, bytes) ← readI64 bytes
  let (bytesUploaded, bytes) ← readI64 bytes
  let (event, bytes) ← readI32 bytes
  let (ipAddress, bytes) ← readExact 4 bytes
  let (key, bytes) ← readI32 bytes
  let (peersWanted, bytes) ← readI32 bytes
  let (port, _) ← readU16 bytes
  return {
    connectionId := ⟨connectionId⟩
    actionPlaceholder
    transactionId
    infoHash := ⟨infoHash⟩
    peerId := ⟨peerId⟩
    bytesDownloaded
    bytesLeft
    bytesUploaded
    event := ⟨event⟩
    ipAddress := ⟨ipAddress⟩
    key
    peersWanted
    port }

def ScrapeRequest.filterInfoHashes (request : ScrapeRequest) (filter : InfoHash → Bool) :
    ScrapeRequest :=
  { request with infoHashes := request.infoHashes.filter filter }

namespace Request

/-- What stands in the bytes 8 to 12 of every request. -/
def action (bytes : List UInt8) : Option Int32 := (readI32 (bytes.drop 8)).map Prod.fst

def parseConnect (bytes : List UInt8) : Except RequestParseError Request := do
  let (identifier, bytes) ← orEof (readI64 bytes)
  let (_, bytes) ← orEof (readI32 bytes)
  let (transactionId, _) ← orEof (readI32 bytes)
  if identifier = protocolIdentifier then .ok (.connect ⟨transactionId⟩)
  else .error (unsendableText "Protocol identifier missing")

def parseAnnounce (bytes : List UInt8) : Except RequestParseError Request :=
  match AnnounceRequest.readFromPrefix bytes with
  | none => .error (unsendableText "invalid data")
  | some request =>
    if request.port = 0 then
      .error (sendableText "Port can't be 0" request.connectionId request.transactionId)
    else if !(0 ≤ request.event.value && request.event.value ≤ 3) then
      .error (sendableText "Invalid announce event" request.connectionId request.transactionId)
    else .ok (.announce request)

def parseScrape (bytes : List UInt8) (maxScrapeTorrents : UInt8) :
    Except RequestParseError Request := do
  let (connectionId, bytes) ← orEof (readI64 bytes)
  let (_, bytes) ← orEof (readI32 bytes)
  let (transactionId, remaining) ← orEof (readI32 bytes)
  if remaining.isEmpty then
    .error (sendableText "Full scrapes are not allowed" ⟨connectionId⟩ transactionId)
  else
    match sliceFrom 20 remaining with
    | none => .error (sendableText "Invalid info hash list" ⟨connectionId⟩ transactionId)
    | some infoHashes =>
      .ok (.scrape ⟨⟨connectionId⟩, transactionId,
        (infoHashes.take maxScrapeTorrents.toNat).map InfoHash.mk⟩)

def parseBytes (bytes : List UInt8) (maxScrapeTorrents : UInt8) :
    Except RequestParseError Request :=
  match action bytes with
  | none => .error (unsendableText "Couldn't parse action")
  | some action =>
    if action = 0 then parseConnect bytes
    else if action = 1 then parseAnnounce bytes
    else if action = 2 then parseScrape bytes maxScrapeTorrents
    else .error (unsendableText "Invalid action")

end Request

structure ConnectResponse where
  transactionId : Int32
  connectionId : ConnectionId
  deriving DecidableEq, Repr

structure ScrapeResponse where
  transactionId : Int32
  torrentStats : List TorrentScrapeStatistics
  deriving DecidableEq, Repr

structure ErrorResponse where
  transactionId : Int32
  message : String
  deriving DecidableEq, Repr

inductive Response where
  | connect (response : ConnectResponse)
  | announceIpv4 (response : AnnounceResponse Ipv4AddrBytes)
  | announceIpv6 (response : AnnounceResponse Ipv6AddrBytes)
  | scrape (response : ScrapeResponse)
  | error (response : ErrorResponse)
  deriving DecidableEq, Repr

def ConnectResponse.writeBytes (response : ConnectResponse) : List UInt8 :=
  beBytes (0 : BitVec 32) ++ beBytes response.transactionId.toBitVec ++
    beBytes response.connectionId.value.toBitVec

/-- Announce responses differ in the bytes of an address only. -/
def announceResponseBytes {I : Type} (ipBytes : I → List UInt8) (response : AnnounceResponse I) :
    List UInt8 :=
  beBytes (1 : BitVec 32) ++ beBytes response.fixed.transactionId.toBitVec ++
    beBytes response.fixed.announceInterval.toBitVec ++ beBytes response.fixed.leechers.toBitVec ++
    beBytes response.fixed.seeders.toBitVec ++
    response.peers.flatMap fun peer => ipBytes peer.ipAddress ++ beBytes peer.port.toBitVec

def ScrapeResponse.writeBytes (response : ScrapeResponse) : List UInt8 :=
  beBytes (2 : BitVec 32) ++ beBytes response.transactionId.toBitVec ++
    response.torrentStats.flatMap fun stats =>
      beBytes stats.seeders.toBitVec ++ beBytes stats.completed.toBitVec ++
        beBytes stats.leechers.toBitVec

def ErrorResponse.writeBytes (response : ErrorResponse) : List UInt8 :=
  beBytes (3 : BitVec 32) ++ beBytes response.transactionId.toBitVec ++
    response.message.toList.flatMap String.utf8EncodeChar

def Response.writeBytes : Response → List UInt8
  | .connect response => response.writeBytes
  | .announceIpv4 response => announceResponseBytes (fun ip => ip.bytes.toList) response
  | .announceIpv6 response => announceResponseBytes (fun ip => ip.bytes.toList) response
  | .scrape response => response.writeBytes
  | .error response => response.writeBytes

theorem length_connect (response : ConnectResponse) :
    (Response.connect response).writeBytes.length = 16 := by
  simp [Response.writeBytes, ConnectResponse.writeBytes, length_beBytes]

end Aquatic.Udp.Protocol
