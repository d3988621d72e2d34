import Aquatic.Common.Utf8
import Aquatic.Lib.Text
import Aquatic.Http.Storage

/-!
# HTTP requests as they are written and parsed

A `usize` has 64 bits. The part of an announce request that a swarm worker reads is
`AnnounceRequest.announce`. An error is the text of its whole chain.
-/

namespace Aquatic.HttpProtocol
open Text Http
set_option autoImplicit false

/-- The functions of the crate `urlencoding`. What is not UTF-8 once decoded is an error. -/
structure UrlEncoding where
  encode : List Char → List Char
  decode : List Char → Except String (List Char)

structure AnnounceRequest where
  infoHash : InfoHash
  peerId : PeerId
  port : UInt16
  bytesUploaded : UInt64
  bytesDownloaded : UInt64
  bytesLeft : UInt64
  event : AnnounceEvent
  numwant : Option UInt64
  key : Option (List Char)
  deriving DecidableEq, Repr

/-- What a swarm worker reads of a request. -/
def AnnounceRequest.announce (request : AnnounceRequest) : Http.AnnounceRequest where
  infoHash := request.infoHash
  port := request.port
  bytesLeft := request.bytesLeft.toNat
  event := request.event
  numwant := request.numwant.map UInt64.toNat

inductive Request where
  | announce (request : AnnounceRequest)
  | scrape (request : ScrapeRequest)
  deriving DecidableEq, Repr

/-- A byte is written in two digits of lower case. -/
def urlencodeByte (byte : UInt8) : List Char :=
  ['%', Nat.digitChar (byte.toNat / 16), Nat.digitChar (byte.toNat % 16)]

def urlencode20Bytes (input : Vector UInt8 20) : List Char := input.toList.flatMap urlencodeByte

/-- The digit that the low eight bits of a character are. -/
def hexValue (c : Char) : Option Nat :=
  let byte := c.toNat % 256
  if 48 ≤ byte ∧ byte ≤ 57 then some (byte - 48)
  else if 65 ≤ byte ∧ byte ≤ 70 then some (byte - 55)
  else if 97 ≤ byte ∧ byte ≤ 102 then some (byte - 87)
  else none

/-- `{:?}` of a character. Above Latin-1 every character counts as printable. -/
def debugChar (c : Char) : String :=
  let n := c.toNat
  let shown :=
    if n = 0 then "\\0"
    else if n = 9 then "\\t"
    else if n = 10 then "\\n"
    else if n = 13 then "\\r"
    else if n = 39 then "\\'"
    else if n = 92 then "\\\\"
    else if n < 32 ∨ 127 ≤ n ∧ n ≤ 160 ∨ n = 173 then
      "\\u\x7b" ++ String.ofList (Nat.toDigits 16 n) ++ "\x7d"
    else c.toString
  "'" ++ shown ++ "'"

/-- The error of the crate `hex`, for the first of two characters that is no digit. -/
def hexDecodeError (first second : Char) : String :=
  let (c, index) := if (hexValue first).isNone then (first, 0) else (second, 1)
  "hex decode error: InvalidHexCharacter \x7b c: " ++ debugChar (Char.ofNat (c.toNat % 256)) ++
    s!", index: {index} " ++ "\x7d"

def urldecodeByte : List Char → Except String (UInt8 × List Char)
  | [] => .error "less than 20 chars"
  | c :: chars =>
    if c.toNat > 255 then .error s!"character not in single byte range: {debugChar c}"
    else if c = '%' then
      match chars with
      | [] => .error "missing first urldecode char in pair"
      | [_] => .error "missing second urldecode char in pair"
      | first :: second :: chars =>
        match hexValue first, hexValue second with
        | some high, some low => .ok (UInt8.ofNat (high * 16 + low), chars)
        | _, _ => .error (hexDecodeError first second)
    else .ok (UInt8.ofNat c.toNat, chars)

/-- The first `n` bytes of the output, and the characters that are left. -/
def urldecodeBytes : (n : Nat) → List Char → Except String (Vector UInt8 n × List Char)
  | 0, chars => .ok (#v[], chars)
  | i + 1, chars => do
    let (out, chars) ← urldecodeBytes i chars
    let (byte, chars) ← urldecodeByte chars
    return (out.push byte, chars)

def urldecode20Bytes (value : List Char) : Except String (Vector UInt8 20) := do
  let (out, chars) ← urldecodeBytes 20 value
  if chars.isEmpty then return out else throw "more than 20 chars"

namespace AnnounceRequest

def writeEvent : AnnounceEvent → List UInt8
  | .started => utf8 "&event=started".toList
  | .stopped => utf8 "&event=stopped".toList
  | .completed => utf8 "&event=completed".toList
  | .empty => []

def writeNumwant : Option UInt64 → List UInt8
  | some numwant => utf8 "&numwant=".toList ++ utf8 (decimal numwant.toNat)
  | none => []

def writeKey (urlencoding : UrlEncoding) : Option (List Char) → List UInt8
  | some key => utf8 "&key=".toList ++ utf8 (urlencoding.encode key)
  | none => []

def writeBytes (urlencoding : UrlEncoding) (request : AnnounceRequest) (urlSuffix : List UInt8) :
    List UInt8 :=
  utf8 "GET /announce".toList ++ urlSuffix ++
    utf8 "?info_hash=".toList ++ utf8 (urlencode20Bytes request.infoHash.bytes) ++
    utf8 "&peer_id=".toList ++ utf8 (urlencode20Bytes request.peerId.bytes) ++
    utf8 "&port=".toList ++ utf8 (decimal request.port.toNat) ++
    utf8 "&uploaded=".toList ++ utf8 (decimal request.bytesUploaded.toNat) ++
    utf8 "&downloaded=".toList ++ utf8 (decimal request.bytesDownloaded.toNat) ++
    utf8 "&left=".toList ++ utf8 (decimal request.bytesLeft.toNat) ++
    writeEvent request.event ++ writeNumwant request.numwant ++ writeKey urlencoding request.key ++
    -- compact responses, to ease load testing of other trackers
    utf8 "&compact=1".toList ++
    utf8 " HTTP/1.1\r\nHost: localhost\r\n\r\n".toList

end AnnounceRequest

namespace ScrapeRequest

/-- Every info hash but the first one follows an ampersand. -/
def writeInfoHashes (first : Bool) : List InfoHash → List UInt8
  | [] => []
  | infoHash :: infoHashes =>
    (if first then [] else utf8 "&".toList) ++ utf8 "info_hash=".toList ++
      utf8 (urlencode20Bytes infoHash.bytes) ++ writeInfoHashes false infoHashes

def writeBytes (request : ScrapeRequest) (urlSuffix : List UInt8) : List UInt8 :=
  utf8 "GET /scrape".toList ++ urlSuffix ++ utf8 "?".toList ++
    writeInfoHashes true request.infoHashes ++
    utf8 " HTTP/1.1\r\nHost: localhost\r\n\r\n".toList

end ScrapeRequest

def Request.write (urlencoding : UrlEncoding) (request : Request) (urlSuffix : List UInt8) :
    List UInt8 :=
  match request with
  | .announce request => request.writeBytes urlencoding urlSuffix
  | .scrape request => ScrapeRequest.writeBytes request urlSuffix

/-- A value that is there, or the error that says it is not. -/
def withContext {α : Type} (message : String) : Option α → Except String α
  | some a => .ok a
  | none => .error message

/-- The index in bytes of a position in characters. -/
def byteIndex (text : List Char) (position : Nat) : Nat := (utf8 (text.take position)).length

/-- The loop over the equal signs of a query string, in lockstep with its ampersands. -/
def parsePairs {σ : Type} (setField : σ → List Char → List Char → Except String σ)
    (queryString : List Char) : List Nat → List Nat → Nat → σ → Except String σ
  | [], _, _, fields => .ok fields
  | equalSign :: equalSigns, ampersands, position, fields => do
    let segmentEnd := ampersands.headD queryString.length
    let index := byteIndex queryString
    let key ← withContext s!"no key at {index position}..{index equalSign}"
      (slice queryString position equalSign)
    let value ← withContext s!"no value at {index (equalSign + 1)}..{index segmentEnd}"
      (slice queryString (equalSign + 1) segmentEnd)
    let fields ← setField fields key value
    if segmentEnd = queryString.length then return fields
    else parsePairs setField queryString equalSigns ampersands.tail (segmentEnd + 1) fields

def AnnounceEvent.fromStr (value : List Char) : Except String AnnounceEvent :=
  if value = "started".toList then .ok .started
  else if value = "stopped".toList then .ok .stopped
  else if value = "completed".toList then .ok .completed
  else if value = "empty".toList then .ok .empty
  else .error s!"Unknown value: {String.ofList value}"

/-- The fields of an announce request as far as they have been read. -/
structure AnnounceFields where
  infoHash : Option InfoHash
  peerId : Option PeerId
  port : Option UInt16
  bytesLeft : Option UInt64
  bytesUploaded : Option UInt64
  bytesDownloaded : Option UInt64
  event : AnnounceEvent
  numwant : Option UInt64
  key : Option (List Char)
  deriving DecidableEq, Repr

namespace AnnounceFields

def default : AnnounceFields := ⟨none, none, none, none, none, none, .empty, none, none⟩

def parsePort (value : List Char) : Except String UInt16 :=
  withContext s!"parse port: {parseError UInt16.size value}"
    ((parseUnsigned UInt16.size value).map UInt16.ofNat)

def parseUsize (message : String) (value : List Char) : Except String UInt64 :=
  withContext s!"{message}: {parseError UInt64.size value}"
    ((parseUnsigned UInt64.size value).map UInt64.ofNat)

/-- A negative number is no preference, and neither is one that no `usize` holds. -/
def numwantOf (parsed : Int) : Option UInt64 :=
  if 0 ≤ parsed ∧ parsed < UInt64.size then some (UInt64.ofNat parsed.toNat) else none

/-- `i128` holds every `usize` and numbers below 0. -/
def parseNumwant (value : List Char) : Except String (Option UInt64) := do
  let size := 170141183460469231731687303715884105728
  let parsed ← withContext s!"parse numwant: {parseSignedError size value}" (parseSigned size value)
  return numwantOf parsed

def setField (urlencoding : UrlEncoding) (fields : AnnounceFields) (key value : List Char) :
    Except String AnnounceFields :=
  if key = "info_hash".toList then do
    let value ← urldecode20Bytes value
    return { fields with infoHash := some ⟨value⟩ }
  else if key = "peer_id".toList then do
    let value ← urldecode20Bytes value
    return { fields with peerId := some ⟨value⟩ }
  else if key = "port".toList then do
    let value ← parsePort value
    return { fields with port := some value }
  else if key = "left".toList then do
    let value ← parseUsize "parse left" value
    return { fields with bytesLeft := some value }
  else if key = "uploaded".toList then do
    let value ← parseUsize "parse uploaded" value
    return { fields with bytesUploaded := some value }
  else if key = "downloaded".toList then do
    let value ← parseUsize "parse downloaded" value
    return { fields with bytesDownloaded := some value }
  else if key = "event".toList then do
    let value ← (AnnounceEvent.fromStr value).mapError fun err => s!"invalid event: {err}"
    return { fields with event := value }
  else if key = "compact".toList then
    if value = "1".toList then return fields else throw "compact set, but not to 1"
  else if key = "numwant".toList then do
    let value ← parseNumwant value
    return { fields with numwant := value }
  else if key = "key".toList then
    if (utf8 value).length > 100 then throw "'key' is too long"
    else do
      let value ← urlencoding.decode value
      return { fields with key := some value }
  else return fields

def finish (fields : AnnounceFields) : Except String AnnounceRequest := do
  let infoHash ← withContext "no info_hash" fields.infoHash
  let peerId ← withContext "no peer_id" fields.peerId
  let port ← withContext "no port" fields.port
  let bytesUploaded ← withContext "no uploaded" fields.bytesUploaded
  let bytesDownloaded ← withContext "no downloaded" fields.bytesDownloaded
  let bytesLeft ← withContext "no left" fields.bytesLeft
  return { infoHash, peerId, port, bytesUploaded, bytesDownloaded, bytesLeft,
           event := fields.event, numwant := fields.numwant, key := fields.key }

end AnnounceFields

def AnnounceRequest.parseQueryString (urlencoding : UrlEncoding) (queryString : List Char) :
    Except String AnnounceRequest := do
  let fields ← parsePairs (AnnounceFields.setField urlencoding) queryString
    (queryString.idxsOf '=') (queryString.idxsOf '&') 0 AnnounceFields.default
  fields.finish

namespace ScrapeRequest

def setField (infoHashes : List InfoHash) (key value : List Char) :
    Except String (List InfoHash) :=
  if key = "info_hash".toList then do
    let value ← urldecode20Bytes value
    return infoHashes ++ [⟨value⟩]
  else return infoHashes

def parseQueryString (queryString : List Char) : Except String ScrapeRequest := do
  let infoHashes ← parsePairs setField queryString
    (queryString.idxsOf '=') (queryString.idxsOf '&') 0 []
  if infoHashes.isEmpty then throw "No info hashes sent" else return ⟨infoHashes⟩

end ScrapeRequest

def Request.parseHttpGetPath (urlencoding : UrlEncoding) (path : List Char) :
    Except String Request :=
  match splitOnce ['?'] path with
  | none => .error "no query string"
  | some (location, queryString) =>
    if location = "/announce".toList then do
      return .announce (← AnnounceRequest.parseQueryString urlencoding queryString)
    else if location = "/scrape".toList then do
      return .scrape (← ScrapeRequest.parseQueryString queryString)
    else .error "Path must be /announce or /scrape"

end Aquatic.HttpProtocol
