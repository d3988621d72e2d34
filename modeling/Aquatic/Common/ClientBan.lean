import Aquatic.Common.Basic
import Aquatic.Lib.Text

/-!
# Client bans and the shape of peer ids

Texts are lists of characters. A peer id is any 20 bytes: the ban list looks at it
as a text, the format check at its bytes.
-/

namespace Aquatic
set_option autoImplicit false

inductive ClientBanMode where
  | on
  | off
  deriving DecidableEq, Repr

inductive PeerIdCheckMode where
  | off
  | warn
  | enforce
  deriving DecidableEq, Repr

structure ClientBanConfig where
  mode : ClientBanMode
  peerIdStrictness : PeerIdCheckMode
  deriving DecidableEq, Repr

inductive IdentityCheck where
  | ok
  | warned
  | rejected
  deriving DecidableEq, Repr

def isContinuation (byte : UInt8) : Bool := 0x80 ≤ byte && byte ≤ 0xbf

/-- How many bytes a character has that starts with this one; 0 if none does. -/
def utf8CharWidth (first : UInt8) : Nat :=
  if first < 0x80 then 1
  else if 0xc2 ≤ first && first ≤ 0xdf then 2
  else if 0xe0 ≤ first && first ≤ 0xef then 3
  else if 0xf0 ≤ first && first ≤ 0xf4 then 4
  else 0

/-- Overlong forms, surrogates and what is beyond U+10FFFF are no characters. -/
def isSecond (first second : UInt8) : Bool :=
  if first = 0xe0 then 0xa0 ≤ second && second ≤ 0xbf
  else if first = 0xed then 0x80 ≤ second && second ≤ 0x9f
  else if first = 0xf0 then 0x90 ≤ second && second ≤ 0xbf
  else if first = 0xf4 then 0x80 ≤ second && second ≤ 0x8f
  else isContinuation second

/-- The bytes that go with the first one, in a character or in the beginning of one. -/
def utf8Tail (first : UInt8) (bytes : List UInt8) : List UInt8 :=
  if utf8CharWidth first < 2 then []
  else
    match bytes with
    | [] => []
    | second :: rest =>
      if isSecond first second then
        second :: (rest.take (utf8CharWidth first - 2)).takeWhile isContinuation
      else []

def utf8Char (first : UInt8) (tail : List UInt8) : Char :=
  if tail.length + 1 = utf8CharWidth first then
    let lead := first.toNat % if tail.isEmpty then 128 else 64 >>> tail.length
    Char.ofNat (tail.foldl (fun n byte => n * 64 + byte.toNat % 64) lead)
  else Char.ofNat 0xfffd

def lossyChars : Nat → List UInt8 → List Char
  | fuel + 1, first :: bytes =>
    let tail := utf8Tail first bytes
    utf8Char first tail :: lossyChars fuel (bytes.drop tail.length)
  | _, _ => []

/-- `String::from_utf8_lossy`. -/
def fromUtf8Lossy (bytes : List UInt8) : List Char := lossyChars bytes.length bytes

/-- Entries are in lower case. -/
structure ClientBanList where
  bannedPatterns : List (List Char)
  allowedPeerIdPrefixes : List (List Char)
  banVampireClients : Bool
  deriving DecidableEq, Repr

def vampirePrefixes : List (List Char) :=
  [['-', 'x', 'l'], ['-', 's', 'd'], ['-', 'q', 'd'], ['-', 'b', 'n'], ['-', 'b', 'c'],
    ['-', 'u', 'w'], ['-', 'd', 't'], ['-', 'f', 'g'], ['-', 'f', 'w']]

def isVampireClient (peerId : List Char) : Bool :=
  vampirePrefixes.any fun start => (peerId.take start.length).map Char.toLower == start

def ClientBanList.isBanned (list : ClientBanList) (peerId : List Char) : Bool :=
  (list.banVampireClients && isVampireClient peerId) ||
    list.bannedPatterns.any fun pattern => pattern.isPrefixOf (peerId.map Char.toLower)

def isAsciiUppercase (byte : UInt8) : Bool := 65 ≤ byte && byte ≤ 90

def isAsciiLowercase (byte : UInt8) : Bool := 97 ≤ byte && byte ≤ 122

def isAsciiAlphabetic (byte : UInt8) : Bool := isAsciiUppercase byte || isAsciiLowercase byte

def isAsciiDigit (byte : UInt8) : Bool := 48 ≤ byte && byte ≤ 57

def isAsciiAlphanumeric (byte : UInt8) : Bool := isAsciiAlphabetic byte || isAsciiDigit byte

def toAsciiUppercase (byte : UInt8) : UInt8 := if isAsciiLowercase byte then byte - 32 else byte

def toAsciiLowercase (byte : UInt8) : UInt8 := if isAsciiUppercase byte then byte + 32 else byte

inductive PeerIdStyle where
  | azureus
  | mainline
  | unknown
  deriving DecidableEq, Repr

structure VersionIssue where
  code : List Char
  version : UInt8
  maxVersion : UInt8
  deriving DecidableEq, Repr

inductive PeerClientFamily where
  | uTorrent
  | transmission
  | qBittorrent
  | deluge
  | vuze
  | libtorrent
  | webTorrent
  | bitTorrent
  deriving DecidableEq, Repr

inductive PeerIdIssue where
  | nonStandard
  | unsupportedVersion (issue : VersionIssue)
  | userAgentMismatch (peerIdFamily userAgentFamily : PeerClientFamily)
  deriving DecidableEq, Repr

/-- The byte at a position below 20. -/
def PeerId.byte (peerId : PeerId) (i : Nat) : UInt8 := peerId.bytes.toList.getD i 0

/-- The bytes in `start..stop`. -/
def PeerId.slice (peerId : PeerId) (start stop : Nat) : List UInt8 :=
  (peerId.bytes.toList.drop start).take (stop - start)

def isAzureusStyle (peerId : PeerId) : Bool :=
  peerId.byte 0 == 45 && isAsciiAlphabetic (peerId.byte 1) &&
    isAsciiAlphabetic (peerId.byte 2) && (peerId.slice 3 7).all isAsciiAlphanumeric &&
    peerId.byte 7 == 45

def isMainlineStyle (peerId : PeerId) : Bool :=
  isAsciiAlphabetic (peerId.byte 0) &&
    (peerId.slice 1 7).all (fun byte => isAsciiDigit byte || byte == 45) && peerId.byte 7 == 45

def classifyPeerId (peerId : PeerId) : PeerIdStyle :=
  if isAzureusStyle peerId then .azureus
  else if isMainlineStyle peerId then .mainline
  else .unknown

/-- Two-letter client code, uppercased, for Azureus-style peer ids. -/
def peerIdCode (peerId : PeerId) : Option (List UInt8) :=
  if isAzureusStyle peerId then
    some [toAsciiUppercase (peerId.byte 1), toAsciiUppercase (peerId.byte 2)]
  else none

def maxMajorVersion (code : List UInt8) : Option UInt8 :=
  match fromUtf8Lossy code with
  | ['U', 'T'] | ['U', 'E'] | ['U', 'M'] | ['U', 'W'] => some 3
  | ['T', 'R'] => some 4
  | ['Q', 'B'] => some 5
  | ['D', 'E'] => some 2
  | ['A', 'Z'] => some 5
  | ['L', 'T'] => some 2
  | _ => none

def implausibleVersion (peerId : PeerId) : Option VersionIssue := do
  let code ← peerIdCode peerId
  let maxVersion ← maxMajorVersion code
  let versionByte := peerId.byte 3
  if !isAsciiDigit versionByte then none
  else
    let version := versionByte - 48
    if version > maxVersion then some ⟨fromUtf8Lossy code, version, maxVersion⟩ else none

def peerIdFamily (peerId : PeerId) : Option PeerClientFamily := do
  match fromUtf8Lossy (← peerIdCode peerId) with
  | ['U', 'T'] | ['U', 'E'] | ['U', 'M'] | ['U', 'W'] => some .uTorrent
  | ['T', 'R'] => some .transmission
  | ['Q', 'B'] => some .qBittorrent
  | ['D', 'E'] => some .deluge
  | ['A', 'Z'] => some .vuze
  | ['L', 'T'] => some .libtorrent
  | ['W', 'W'] | ['W', 'D'] => some .webTorrent
  | ['B', 'T'] => some .bitTorrent
  | _ => none

/-- The names are looked for in this order, since some of them are parts of others. -/
def userAgentFamily (userAgent : List Char) : Option PeerClientFamily :=
  let userAgent := userAgent.map Char.toLower
  let contains (name : List Char) : Bool :=
    (Text.windows name.length userAgent).any fun (_, window) => window == name
  if contains "qbittorrent".toList then some .qBittorrent
  else if contains "utorrent".toList || contains "µtorrent".toList then some .uTorrent
  else if contains "transmission".toList then some .transmission
  else if contains "deluge".toList then some .deluge
  else if contains "vuze".toList || contains "azureus".toList then some .vuze
  else if contains "libtorrent".toList then some .libtorrent
  else if contains "webtorrent".toList then some .webTorrent
  else if contains "bittorrent".toList then some .bitTorrent
  else none

/-- The issue itself only goes to the log. -/
def reportIdentityIssue (_issue : PeerIdIssue) (mode : PeerIdCheckMode) : IdentityCheck :=
  if mode = .enforce then .rejected else .warned

namespace ClientBanList

def isPeerIdAllowlisted (list : ClientBanList) (peerId : PeerId) : Bool :=
  list.allowedPeerIdPrefixes.any fun entry =>
    let bytes := entry.flatMap String.utf8EncodeChar
    bytes.length ≤ 20 &&
      (peerId.slice 0 bytes.length).map toAsciiLowercase == bytes.map toAsciiLowercase

def checkPeerIdFormat (list : ClientBanList) (peerId : PeerId) (mode : PeerIdCheckMode) :
    IdentityCheck :=
  if mode = .off || list.isPeerIdAllowlisted peerId then .ok
  else
    match classifyPeerId peerId with
    | .mainline => .ok
    | .unknown => reportIdentityIssue .nonStandard mode
    | .azureus =>
      match implausibleVersion peerId with
      | some issue => reportIdentityIssue (.unsupportedVersion issue) mode
      | none => .ok

/-- Clients without a recognizable identity are never flagged. -/
def checkPeerIdUserAgent (list : ClientBanList) (peerId : PeerId) (userAgent : List Char)
    (mode : PeerIdCheckMode) : IdentityCheck :=
  if mode = .off || list.isPeerIdAllowlisted peerId then .ok
  else
    match peerIdFamily peerId, userAgentFamily userAgent with
    | some peerIdFamily, some userAgentFamily =>
      if peerIdFamily = userAgentFamily then .ok
      else reportIdentityIssue (.userAgentMismatch peerIdFamily userAgentFamily) mode
    | _, _ => .ok

end ClientBanList

end Aquatic
