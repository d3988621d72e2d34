import Aquatic.Common.Utf8
import Mathlib.Data.Set.Insert

/-!
# Info hashes, peer ids and offer ids as strings

A byte is the character of Latin-1 with its number. The decoder fills the twenty slots of
its array from the characters of the string; characters that come after them are not looked
at.
-/

namespace Aquatic.WsProtocol
set_option autoImplicit false

/-- The bytes put into a buffer with `room` left, `none` where a character does not fit. -/
def encodeBytes : (room : Nat) → List UInt8 → Option (List UInt8)
  | _, [] => some []
  | room, byte :: data =>
    let encoded := String.utf8EncodeChar (Char.ofUInt8 byte)
    if encoded.length ≤ room then do
      return encoded ++ (← encodeBytes (room - encoded.length) data)
    else none

/-- The string that is serialized, `none` where the code would panic. -/
def serialize20Bytes (data : Vector UInt8 20) : Option String := do
  let strBuffer ← encodeBytes 40 data.toList
  let text ← fromUtf8 strBuffer
  return String.ofList text

/-- Why a string is refused: "character not in single byte range" with the character, or
"not 20 bytes" with the string. -/
inductive TwentyByteError where
  | notInSingleByteRange (c : Char)
  | not20Bytes (value : String)
  deriving DecidableEq, Repr

/-- The first `n` slots of the array, and the characters that are left. -/
def fillSlots (value : String) :
    (n : Nat) → List Char → Except TwentyByteError (Vector UInt8 n × List Char)
  | 0, charIter => .ok (Vector.replicate 0 0, charIter)
  | i + 1, charIter => do
    let (arr, charIter) ← fillSlots value i charIter
    match charIter with
    | [] => throw (.not20Bytes value)
    | c :: charIter =>
      if c.toNat > 255 then throw (.notInSingleByteRange c)
      else return (arr.push c.toUInt8, charIter)

def visitStr (value : String) : Except TwentyByteError (Vector UInt8 20) := do
  let (arr, _) ← fillSlots value 20 value.toList
  return arr

/-- The characters that stand for bytes. -/
def latin1 (data : List UInt8) : List Char := data.map Char.ofUInt8

theorem latin1_append (data more : List UInt8) :
    latin1 (data ++ more) = latin1 data ++ latin1 more :=
  List.map_append

theorem length_latin1 (data : List UInt8) : (latin1 data).length = data.length :=
  List.length_map _

theorem toNat_ofUInt8 (byte : UInt8) : (Char.ofUInt8 byte).toNat = byte.toNat := by
  change byte.toUInt32.toNat = byte.toNat
  exact UInt8.toNat_toUInt32 byte

theorem toNat_ofUInt8_le (byte : UInt8) : (Char.ofUInt8 byte).toNat ≤ 255 := by
  rw [toNat_ofUInt8]
  exact Nat.le_of_lt_succ byte.toNat_lt

theorem toUInt8_ofUInt8 (byte : UInt8) : (Char.ofUInt8 byte).toUInt8 = byte :=
  UInt8.toUInt8_toUInt32 byte

theorem ofUInt8_toUInt8 {c : Char} (h : c.toNat ≤ 255) : Char.ofUInt8 c.toUInt8 = c := by
  have hval : c.val.toNat < 256 := Nat.lt_succ_of_le h
  apply Char.ext
  apply UInt32.toNat_inj.mp
  calc (Char.ofUInt8 c.toUInt8).val.toNat
    _ = c.val.toUInt8.toNat := UInt8.toNat_toUInt32 _
    _ = c.val.toNat % 256 := UInt32.toNat_toUInt8 _
    _ = c.val.toNat := Nat.mod_eq_of_lt hval

theorem le_of_mem_latin1 {data : List UInt8} {c : Char} (h : c ∈ latin1 data) :
    c.toNat ≤ 255 := by
  obtain ⟨byte, _, rfl⟩ := List.mem_map.mp h
  exact toNat_ofUInt8_le byte

theorem exists_latin1 {text : List Char} (h : ∀ c ∈ text, c.toNat ≤ 255) :
    ∃ data, latin1 data = text := by
  refine ⟨text.map Char.toUInt8, ?_⟩
  rw [latin1, List.map_map]
  refine List.map_congr_left (fun c hc => ?_) |>.trans (List.map_id text)
  exact ofUInt8_toUInt8 (h c hc)

theorem length_encode_ofUInt8_le (byte : UInt8) :
    (String.utf8EncodeChar (Char.ofUInt8 byte)).length ≤ 2 := by
  have hval : (Char.ofUInt8 byte).val.toNat ≤ 255 := toNat_ofUInt8_le byte
  rw [String.length_utf8EncodeChar]
  simp only [Char.utf8Size]
  split
  · exact Nat.le_succ 1
  · rw [if_pos]
    rw [UInt32.le_iff_toNat_le]
    exact Nat.le_trans hval (by decide)

/-- Two bytes of room for each character are enough. -/
theorem encodeBytes_of_room {data : List UInt8} {room : Nat} (h : 2 * data.length ≤ room) :
    encodeBytes room data = some (utf8 (latin1 data)) := by
  induction data generalizing room with
  | nil => rfl
  | cons byte data ih =>
    have hlength := length_encode_ofUInt8_le byte
    rw [List.length_cons] at h
    rw [encodeBytes, if_pos (by omega), ih (by omega)]
    rfl

theorem serialize20Bytes_eq (data : Vector UInt8 20) :
    serialize20Bytes data = some (String.ofList (latin1 data.toList)) := by
  have hroom : 2 * data.toList.length ≤ 40 := by simp
  rw [serialize20Bytes, encodeBytes_of_room hroom]
  simp only [Option.bind_eq_bind, Option.bind_some, fromUtf8_utf8]
  rfl

theorem fillSlots_succ {value : String} {n : Nat} {charIter rest : List Char}
    {arr : Vector UInt8 n} {c : Char} (hc : c.toNat ≤ 255)
    (harr : fillSlots value n charIter = .ok (arr, c :: rest)) :
    fillSlots value (n + 1) charIter = .ok (arr.push c.toUInt8, rest) := by
  rw [fillSlots, harr]
  change (if c.toNat > 255 then throw _ else _) = _
  rw [if_neg (Nat.not_lt_of_le hc)]
  rfl

theorem fillSlots_eq_ok_iff {value : String} {n : Nat} {charIter rest : List Char}
    {arr : Vector UInt8 n} :
    fillSlots value n charIter = .ok (arr, rest) ↔ charIter = latin1 arr.toList ++ rest := by
  induction n generalizing charIter rest with
  | zero =>
    have hempty : ∀ arr : Vector UInt8 0, arr = Vector.replicate 0 0 := fun _ => Vector.eq_empty
    rw [hempty arr]
    constructor
    · intro h
      cases h
      rfl
    · intro h
      rw [h]
      rfl
  | succ n ih =>
    have hlist : latin1 arr.toList = latin1 arr.pop.toList ++ [Char.ofUInt8 arr.back] := by
      conv_lhs => rw [← Vector.push_pop_back arr, Vector.toList_push, latin1_append]
      rfl
    constructor
    · intro h
      obtain ⟨⟨front, more⟩, hfront, h⟩ := bind_eq_ok h
      rcases more with _ | ⟨c, more⟩
      · cases h
      change (if c.toNat > 255 then throw _ else _) = _ at h
      split at h
      · cases h
      rename_i hsmall
      cases h
      rw [ih.mp hfront, Vector.toList_push, latin1_append]
      simp [latin1, ofUInt8_toUInt8 (Nat.le_of_not_lt hsmall)]
    · rintro rfl
      rw [hlist, List.append_assoc, List.singleton_append]
      rw [fillSlots_succ (toNat_ofUInt8_le arr.back) (ih.mpr rfl), toUInt8_ofUInt8,
        Vector.push_pop_back]

/-- What is accepted begins with the characters of the bytes that are returned. -/
theorem visitStr_eq_ok_iff {value : String} {arr : Vector UInt8 20} :
    visitStr value = .ok arr ↔ ∃ rest, value.toList = latin1 arr.toList ++ rest := by
  constructor
  · intro h
    obtain ⟨⟨arr', rest⟩, harr, h⟩ := bind_eq_ok h
    cases h
    exact ⟨rest, fillSlots_eq_ok_iff.mp harr⟩
  · rintro ⟨rest, hrest⟩
    rw [visitStr, fillSlots_eq_ok_iff.mpr hrest]
    rfl

theorem visitStr_isOk_iff {value : String} :
    (∃ arr, visitStr value = .ok arr) ↔
      20 ≤ value.length ∧ ∀ c ∈ value.toList.take 20, c.toNat ≤ 255 := by
  rw [← String.length_toList]
  constructor
  · rintro ⟨arr, harr⟩
    obtain ⟨rest, hrest⟩ := visitStr_eq_ok_iff.mp harr
    have hlength : (latin1 arr.toList).length = 20 := by simp [length_latin1]
    rw [hrest, List.length_append, hlength, List.take_left' hlength]
    exact ⟨Nat.le_add_right _ _, fun c hc => le_of_mem_latin1 hc⟩
  · rintro ⟨hlength, hsmall⟩
    obtain ⟨data, hdata⟩ := exists_latin1 hsmall
    have hsize : data.toArray.size = 20 := by
      have h := congrArg List.length hdata
      rw [length_latin1, List.length_take, Nat.min_eq_left hlength] at h
      exact h
    refine ⟨⟨data.toArray, hsize⟩, visitStr_eq_ok_iff.mpr ⟨value.toList.drop 20, ?_⟩⟩
    exact (List.take_append_drop 20 value.toList).symm.trans (by rw [← hdata]; rfl)

theorem visitStr_serialize20Bytes (data : Vector UInt8 20) :
    ∃ text, serialize20Bytes data = some text ∧ visitStr text = .ok data := by
  refine ⟨_, serialize20Bytes_eq data, visitStr_eq_ok_iff.mpr ⟨[], ?_⟩⟩
  rw [String.toList_ofList, List.append_nil]

/-- Twenty characters, each with the number of a byte. -/
def TwentyBytes (value : String) : Prop :=
  value.length = 20 ∧ ∀ c ∈ value.toList, c.toNat ≤ 255

/-- Of the strings that are sent, those of twenty bytes are accepted, and decoding them is the
inverse of serializing. -/
structure ExactOn (sent : Set String) : Prop where
  accepts : ∀ value ∈ sent, (∃ arr, visitStr value = .ok arr) ↔ TwentyBytes value
  decodesSerialized : ∀ data : Vector UInt8 20,
    ∃ text, serialize20Bytes data = some text ∧ visitStr text = .ok data
  serializesDecoded : ∀ value ∈ sent, ∀ arr, visitStr value = .ok arr →
    serialize20Bytes arr = some value
  injective : ∀ value ∈ sent, ∀ other ∈ sent, ∀ arr, visitStr value = .ok arr →
    visitStr other = .ok arr → value = other

/-- Twenty characters with the numbers of bytes, and something after them. -/
def Overlong (value : String) : Prop :=
  20 < value.length ∧ ∀ c ∈ value.toList.take 20, c.toNat ≤ 255

theorem serialize_of_visitStr {value : String} (h : ¬ Overlong value) {arr : Vector UInt8 20}
    (harr : visitStr value = .ok arr) : serialize20Bytes arr = some value := by
  obtain ⟨rest, hrest⟩ := visitStr_eq_ok_iff.mp harr
  obtain ⟨_, hsmall⟩ := visitStr_isOk_iff.mp ⟨arr, harr⟩
  have hlength : (latin1 arr.toList).length = 20 := by simp [length_latin1]
  have hshort : value.length ≤ 20 := Nat.le_of_not_lt fun hlong => h ⟨hlong, hsmall⟩
  rw [← String.length_toList, hrest, List.length_append, hlength] at hshort
  obtain rfl : rest = [] := List.eq_nil_of_length_eq_zero (by omega)
  rw [serialize20Bytes_eq, ← List.append_nil (latin1 arr.toList), ← hrest, String.ofList_toList]

theorem twentyBytes_iff {value : String} (h : ¬ Overlong value) :
    (∃ arr, visitStr value = .ok arr) ↔ TwentyBytes value := by
  rw [visitStr_isOk_iff]
  constructor
  · rintro ⟨hlength, hsmall⟩
    have heq : value.length = 20 :=
      Nat.le_antisymm (Nat.le_of_not_lt fun hlong => h ⟨hlong, hsmall⟩) hlength
    refine ⟨heq, ?_⟩
    rwa [List.take_of_length_le (by rw [String.length_toList, heq])] at hsmall
  · rintro ⟨hlength, hsmall⟩
    exact ⟨Nat.le_of_eq hlength.symm, fun c hc => hsmall c (List.mem_of_mem_take hc)⟩

theorem twentyBytes_exact_iff (sent : Set String) :
    ExactOn sent ↔ ∀ value ∈ sent, ¬ Overlong value := by
  constructor
  · intro h value hvalue hlong
    have haccepted := visitStr_isOk_iff.mpr ⟨Nat.le_of_lt hlong.1, hlong.2⟩
    have hlength := ((h.accepts value hvalue).mp haccepted).1
    exact absurd hlength (Nat.ne_of_gt hlong.1)
  · intro h
    refine ⟨fun value hvalue => twentyBytes_iff (h value hvalue), visitStr_serialize20Bytes,
      fun value hvalue arr harr => serialize_of_visitStr (h value hvalue) harr, ?_⟩
    intro value hvalue other hother arr harr harr'
    have hserialized := serialize_of_visitStr (h value hvalue) harr
    rw [serialize_of_visitStr (h other hother) harr'] at hserialized
    exact (Option.some.inj hserialized).symm

/-- Two strings of twenty-one characters for one id. -/
theorem not_exactOn_overlong :
    visitStr "aaaabbbbccccddddeeeef" = visitStr "aaaabbbbccccddddeeeeg" ∧
      ¬ ExactOn {"aaaabbbbccccddddeeeef", "aaaabbbbccccddddeeeeg"} := by
  have hid (last : String) : visitStr ("aaaabbbbccccddddeeee" ++ last) =
      .ok #v[97, 97, 97, 97, 98, 98, 98, 98, 99, 99, 99, 99, 100, 100, 100, 100, 101, 101, 101,
        101] := by
    refine visitStr_eq_ok_iff.mpr ⟨last.toList, ?_⟩
    rw [String.toList_append]
    exact congrArg (· ++ last.toList) (by decide)
  have hfirst := hid "f"
  have hsecond := hid "g"
  refine ⟨hfirst.trans hsecond.symm, ?_⟩
  intro h
  exact absurd (h.injective _ (.inl rfl) _ (.inr rfl) _ hfirst hsecond) (by decide)

end Aquatic.WsProtocol
