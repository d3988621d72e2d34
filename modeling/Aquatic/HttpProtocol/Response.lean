import Aquatic.Common.Net
import Aquatic.Common.Utf8
import Aquatic.Http.Storage
import Aquatic.Lib.Text

/-!
# HTTP responses as they are written

A body is written in pieces. A writer that is a slice of memory takes of each piece what
it has room for, and does not fail.
-/

namespace Aquatic.HttpProtocol
open Text Http
set_option autoImplicit false

structure AnnounceResponse where
  announceInterval : Nat
  complete : Nat
  incomplete : Nat
  peers : List (ResponsePeer Ipv4Addr)
  peers6 : List (ResponsePeer Ipv6Addr)
  warningMessage : Option (List Char)
  deriving DecidableEq, Repr

structure FailureResponse where
  failureReason : List Char
  deriving DecidableEq, Repr

inductive Response where
  | announce (response : AnnounceResponse)
  | scrape (response : ScrapeResponse)
  | failure (response : FailureResponse)

/-- `itoa::Buffer::format`. -/
def itoa (n : Nat) : List UInt8 := utf8 (decimal n)

def portBytes (port : UInt16) : List UInt8 :=
  [UInt8.ofNat (port.toNat / 256), UInt8.ofNat (port.toNat % 256)]

def AnnounceResponse.pieces (response : AnnounceResponse) : List (List UInt8) :=
  [utf8 "d8:completei".toList, itoa response.complete,
    utf8 "e10:incompletei".toList, itoa response.incomplete,
    utf8 "e8:intervali".toList, itoa response.announceInterval,
    utf8 "e5:peers".toList, itoa (response.peers.length * 6), utf8 ":".toList] ++
  response.peers.flatMap (fun peer => [peer.ipAddress.octets.toList, portBytes peer.port]) ++
  [utf8 "6:peers6".toList, itoa (response.peers6.length * 18), utf8 ":".toList] ++
  response.peers6.flatMap (fun peer => [peer.ipAddress.octets.toList, portBytes peer.port]) ++
  (match response.warningMessage with
    | some warningMessage =>
      [utf8 "15:warning message".toList, itoa (utf8 warningMessage).length, utf8 ":".toList,
        utf8 warningMessage]
    | none => []) ++
  [utf8 "e".toList]

/-- The files are in the order of their info hashes. -/
def ScrapeResponse.pieces (response : ScrapeResponse) : List (List UInt8) :=
  utf8 "d5:filesd".toList :: response.files.toList.flatMap (fun (infoHash, statistics) =>
    [utf8 "20:".toList, infoHash.bytes.toList, utf8 "d8:completei".toList,
      itoa statistics.complete, utf8 "e10:downloadedi0e10:incompletei".toList,
      itoa statistics.incomplete, utf8 "ee".toList]) ++ [utf8 "ee".toList]

def FailureResponse.pieces (response : FailureResponse) : List (List UInt8) :=
  [utf8 "d14:failure reason".toList, itoa (utf8 response.failureReason).length, utf8 ":".toList,
    utf8 response.failureReason, utf8 "e".toList]

/-- What is given to the writer, one piece after the other. -/
def Response.pieces : Response → List (List UInt8)
  | .announce response => response.pieces
  | .scrape response => ScrapeResponse.pieces response
  | .failure response => response.pieces

/-- How many bytes were written into a slice, and what is in it then. -/
def writeToSlice : List (List UInt8) → List UInt8 → Nat × List UInt8
  | [], slice => (0, slice)
  | piece :: pieces, slice =>
    let n := min piece.length slice.length
    let (bytesWritten, rest) := writeToSlice pieces (slice.drop n)
    (n + bytesWritten, piece.take n ++ rest)

/-- All of it is written, or as much as there is room for. -/
theorem writeToSlice_eq (pieces : List (List UInt8)) (slice : List UInt8) :
    writeToSlice pieces slice = (min pieces.flatten.length slice.length,
      pieces.flatten.take slice.length ++ slice.drop pieces.flatten.length) := by
  induction pieces generalizing slice with
  | nil => simp [writeToSlice]
  | cons piece pieces ih =>
    simp only [writeToSlice, ih, List.length_drop, List.flatten_cons, List.length_append,
      List.drop_drop, List.take_append]
    rcases Nat.le_total piece.length slice.length with hle | hle
    · rw [Nat.min_eq_left hle, List.take_of_length_le (Nat.le_refl _), List.take_of_length_le hle,
        List.append_assoc]
      congr 1
      omega
    · rw [Nat.min_eq_right hle]
      have hnone : pieces.flatten.take (slice.length - piece.length) = [] := by
        rw [Nat.sub_eq_zero_of_le hle, List.take_zero]
      rw [Nat.sub_self, List.take_zero, hnone, List.drop_eq_nil_of_le (by omega),
        List.drop_eq_nil_of_le (by omega), List.append_nil, List.append_nil, List.append_nil]
      congr 1
      omega

end Aquatic.HttpProtocol
