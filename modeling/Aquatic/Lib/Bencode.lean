import Mathlib.Data.List.Basic

/-!
# Bencode

Integers between `i` and `e`, byte strings after their length and a colon, lists between
`l` and `e`, dictionaries between `d` and `e`. Numbers are decimal and have one spelling.
A value is the only one with its encoding, and that encoding is the only text it is read
from, whatever comes behind it.
-/

namespace Bencode
set_option autoImplicit false

inductive Value where
  | integer (n : Int)
  | bytes (text : List UInt8)
  | list (values : List Value)
  | dict (entries : List (List UInt8 × Value))

/-- Decimal digits in ASCII. -/
def digits (n : Nat) : List UInt8 := (Nat.toDigits 10 n).map Char.toUInt8

def encodeInt : Int → List UInt8
  | .ofNat n => digits n
  | .negSucc n => 0x2d :: digits (n + 1)

def encodeText (text : List UInt8) : List UInt8 := digits text.length ++ 0x3a :: text

mutual

def encode : Value → List UInt8
  | .integer n => 0x69 :: (encodeInt n ++ [0x65])
  | .bytes text => encodeText text
  | .list values => 0x6c :: (encodeValues values ++ [0x65])
  | .dict entries => 0x64 :: (encodeEntries entries ++ [0x65])

def encodeValues : List Value → List UInt8
  | [] => []
  | value :: values => encode value ++ encodeValues values

def encodeEntries : List (List UInt8 × Value) → List UInt8
  | [] => []
  | (key, value) :: entries => encodeText key ++ (encode value ++ encodeEntries entries)

end

/-- The keys of every dictionary ascend, so that none occurs twice. -/
inductive Sorted : Value → Prop
  | integer (n : Int) : Sorted (.integer n)
  | bytes (text : List UInt8) : Sorted (.bytes text)
  | list {values : List Value} (h : ∀ value ∈ values, Sorted value) : Sorted (.list values)
  | dict {entries : List (List UInt8 × Value)} (hkeys : (entries.map Prod.fst).Pairwise (· < ·))
      (h : ∀ entry ∈ entries, Sorted entry.2) : Sorted (.dict entries)

mutual

/-- Whether all integers of a value are such. -/
def integersAll (p : Int → Bool) : Value → Bool
  | .integer n => p n
  | .bytes _ => true
  | .list values => integersAllValues p values
  | .dict entries => integersAllEntries p entries

def integersAllValues (p : Int → Bool) : List Value → Bool
  | [] => true
  | value :: values => integersAll p value && integersAllValues p values

def integersAllEntries (p : Int → Bool) : List (List UInt8 × Value) → Bool
  | [] => true
  | (_, value) :: entries => integersAll p value && integersAllEntries p entries

end

def isDigit (byte : UInt8) : Bool := decide (0x30 ≤ byte) && decide (byte ≤ 0x39)

/-- The longest run of digits, if it is how its number is written. -/
def readNat (bytes : List UInt8) : Option (Nat × List UInt8) :=
  let run := bytes.takeWhile isDigit
  let n := Nat.ofDigitChars 10 (run.map Char.ofUInt8) 0
  if digits n = run then some (n, bytes.dropWhile isDigit) else none

def readByte (byte : UInt8) : List UInt8 → Option (List UInt8)
  | [] => none
  | first :: rest => if first = byte then some rest else none

/-- The digits of a negative number do not start with a zero. -/
def readInt (bytes : List UInt8) : Option (Int × List UInt8) :=
  match readByte 0x2d bytes with
  | none => (readNat bytes).map fun (n, rest) => (Int.ofNat n, rest)
  | some bytes => (readNat bytes).bind fun (n, rest) =>
    if n = 0 then none else some (Int.negSucc (n - 1), rest)

def readText (bytes : List UInt8) : Option (List UInt8 × List UInt8) := do
  let (length, rest) ← readNat bytes
  let rest ← readByte 0x3a rest
  if length ≤ rest.length then some (rest.take length, rest.drop length) else none

mutual

/-- The value that the bytes start with. The fuel is the number of nested readers. -/
def readValue : Nat → List UInt8 → Option (Value × List UInt8)
  | 0, _ => none
  | _ + 1, [] => none
  | fuel + 1, first :: rest =>
    if first = 0x69 then do
      let (n, rest) ← readInt rest
      let rest ← readByte 0x65 rest
      some (.integer n, rest)
    else if first = 0x6c then do
      let (values, rest) ← readValues fuel rest
      some (.list values, rest)
    else if first = 0x64 then do
      let (entries, rest) ← readEntries fuel rest
      some (.dict entries, rest)
    else do
      let (text, rest) ← readText (first :: rest)
      some (.bytes text, rest)

/-- The values up to the end of a list. -/
def readValues : Nat → List UInt8 → Option (List Value × List UInt8)
  | 0, _ => none
  | fuel + 1, bytes =>
    match readByte 0x65 bytes with
    | some rest => some ([], rest)
    | none => do
      let (value, rest) ← readValue fuel bytes
      let (values, rest) ← readValues fuel rest
      some (value :: values, rest)

/-- The entries up to the end of a dictionary. -/
def readEntries : Nat → List UInt8 → Option (List (List UInt8 × Value) × List UInt8)
  | 0, _ => none
  | fuel + 1, bytes =>
    match readByte 0x65 bytes with
    | some rest => some ([], rest)
    | none => do
      let (key, rest) ← readText bytes
      let (value, rest) ← readValue fuel rest
      let (entries, rest) ← readEntries fuel rest
      some ((key, value) :: entries, rest)

end

def decode (bytes : List UInt8) : Option Value :=
  match readValue bytes.length bytes with
  | some (value, []) => some value
  | _ => none

theorem isDigit_toUInt8 {c : Char} (h : c.isDigit = true) :
    isDigit c.toUInt8 = true ∧ Char.ofUInt8 c.toUInt8 = c := by
  have hall : ∀ n < 58, 48 ≤ n → isDigit (Char.ofNat n).toUInt8 = true ∧
      Char.ofUInt8 (Char.ofNat n).toUInt8 = Char.ofNat n := by decide
  have hrange : 48 ≤ c.toNat ∧ c.toNat ≤ 57 := by
    simpa [Char.isDigit, UInt32.le_iff_toNat_le] using h
  have hc := hall c.toNat (by omega) hrange.1
  rwa [Char.ofNat_toNat] at hc

theorem isDigit_of_mem_digits {n : Nat} {byte : UInt8} (h : byte ∈ digits n) :
    isDigit byte = true := by
  obtain ⟨c, hc, rfl⟩ := List.mem_map.mp h
  exact (isDigit_toUInt8 (Nat.isDigit_of_mem_toDigits (by decide) (by decide) hc)).1

theorem digits_ne_nil (n : Nat) : digits n ≠ [] :=
  fun h => Nat.toDigits_ne_nil (List.map_eq_nil_iff.mp h)

theorem ofDigitChars_digits (n : Nat) :
    Nat.ofDigitChars 10 ((digits n).map Char.ofUInt8) 0 = n := by
  have hmap : (digits n).map Char.ofUInt8 = Nat.toDigits 10 n := by
    rw [digits, List.map_map]
    conv_rhs => rw [← List.map_id (Nat.toDigits 10 n)]
    apply List.map_congr_left
    intro c hc
    exact (isDigit_toUInt8 (Nat.isDigit_of_mem_toDigits (by decide) (by decide) hc)).2
  rw [hmap, Nat.ofDigitChars_ten_toDigits]

theorem readNat_eq_some_iff {bytes rest : List UInt8} {n : Nat} :
    readNat bytes = some (n, rest) ↔
      bytes = digits n ++ rest ∧ ∀ byte ∈ rest.head?, isDigit byte = false := by
  constructor
  · intro h
    dsimp only [readNat] at h
    split at h
    · rename_i hrun
      obtain ⟨rfl, rfl⟩ := Prod.mk.inj (Option.some.inj h)
      rw [hrun, List.takeWhile_append_dropWhile]
      refine ⟨rfl, ?_⟩
      intro byte hbyte
      have hhead := List.head?_dropWhile_not isDigit bytes
      rw [Option.mem_def.mp hbyte] at hhead
      simpa using hhead
    · cases h
  · rintro ⟨rfl, hrest⟩
    have hdigits : ∀ byte ∈ digits n, isDigit byte = true := fun _ => isDigit_of_mem_digits
    have hstop : rest.takeWhile isDigit = [] ∧ rest.dropWhile isDigit = rest := by
      cases rest with
      | nil => exact ⟨rfl, rfl⟩
      | cons first rest =>
        have hfirst := hrest first rfl
        rw [List.takeWhile_cons, List.dropWhile_cons, hfirst]
        exact ⟨rfl, rfl⟩
    simp only [readNat, List.takeWhile_append_of_pos hdigits, List.dropWhile_append_of_pos hdigits,
      hstop.1, hstop.2, List.append_nil, ofDigitChars_digits, if_true]

theorem readByte_eq_some_iff {byte : UInt8} {bytes rest : List UInt8} :
    readByte byte bytes = some rest ↔ bytes = byte :: rest := by
  cases bytes with
  | nil => simp [readByte]
  | cons first bytes =>
    rw [readByte, List.cons.injEq]
    by_cases h : first = byte
    · simp [h]
    · simp [h]

theorem readText_eq_some_iff {bytes text rest : List UInt8} :
    readText bytes = some (text, rest) ↔ bytes = encodeText text ++ rest := by
  rw [readText]
  constructor
  · intro h
    obtain ⟨⟨length, afterLength⟩, hlength, hcut⟩ := Option.bind_eq_some_iff.mp h
    obtain ⟨afterColon, hcolon, hfield⟩ := Option.bind_eq_some_iff.mp hcut
    split at hfield
    · rename_i hle
      obtain ⟨rfl, rfl⟩ := Prod.mk.inj (Option.some.inj hfield)
      rw [(readNat_eq_some_iff.mp hlength).1, readByte_eq_some_iff.mp hcolon]
      simp [encodeText, List.length_take, Nat.min_eq_left hle]
    · cases hfield
  · rintro rfl
    have hnat : readNat (encodeText text ++ rest) = some (text.length, 0x3a :: (text ++ rest)) := by
      apply readNat_eq_some_iff.mpr
      constructor
      · simp [encodeText]
      · intro byte hbyte
        obtain rfl := Option.some.inj hbyte
        decide
    have hcolon : readByte 0x3a (0x3a :: (text ++ rest)) = some (text ++ rest) :=
      readByte_eq_some_iff.mpr rfl
    simp [hnat, hcolon]

/-- An integer is read together with the sign that ends it. -/
theorem readInt_eq_some_iff {bytes rest : List UInt8} {n : Int} :
    readInt bytes = some (n, 0x65 :: rest) ↔ bytes = encodeInt n ++ 0x65 :: rest := by
  have hstop : ∀ byte ∈ (0x65 :: rest : List UInt8).head?, isDigit byte = false := by
    intro byte hbyte
    obtain rfl := Option.some.inj hbyte
    decide
  constructor
  · intro h
    unfold readInt at h
    split at h
    · obtain ⟨⟨m, rest'⟩, hnat, heq⟩ := Option.map_eq_some_iff.mp h
      obtain ⟨rfl, rfl⟩ := Prod.mk.inj heq
      exact (readNat_eq_some_iff.mp hnat).1
    · rename_i digits hminus
      obtain ⟨⟨m, rest'⟩, hnat, heq⟩ := Option.bind_eq_some_iff.mp h
      dsimp only at heq
      split at heq
      · cases heq
      · obtain ⟨rfl, rfl⟩ := Prod.mk.inj (Option.some.inj heq)
        rw [readByte_eq_some_iff.mp hminus, (readNat_eq_some_iff.mp hnat).1, encodeInt,
          Nat.sub_add_cancel (by omega)]
        rfl
  · rintro rfl
    cases n with
    | ofNat n =>
      have hminus : readByte 0x2d (encodeInt (.ofNat n) ++ 0x65 :: rest) = none := by
        cases hread : readByte 0x2d (encodeInt (.ofNat n) ++ 0x65 :: rest) with
        | none => rfl
        | some rest' =>
          have heq := readByte_eq_some_iff.mp hread
          obtain ⟨first, more, hdigits⟩ := List.exists_cons_of_ne_nil (digits_ne_nil n)
          have hfirst : isDigit first = true := isDigit_of_mem_digits (hdigits ▸ List.mem_cons_self)
          rw [encodeInt, hdigits] at heq
          obtain ⟨rfl, -⟩ := List.cons.inj heq
          exact absurd hfirst (by decide)
      rw [readInt, hminus]
      simp only [readNat_eq_some_iff.mpr ⟨rfl, hstop⟩, encodeInt]
      rfl
    | negSucc n =>
      have hminus : readByte 0x2d (encodeInt (.negSucc n) ++ 0x65 :: rest) =
          some (digits (n + 1) ++ 0x65 :: rest) := readByte_eq_some_iff.mpr rfl
      rw [readInt, hminus]
      simp only [readNat_eq_some_iff.mpr ⟨rfl, hstop⟩]
      rfl

theorem exists_encodeText (text : List UInt8) :
    ∃ first more, encodeText text = first :: more ∧ isDigit first = true := by
  obtain ⟨first, more, hdigits⟩ := List.exists_cons_of_ne_nil (digits_ne_nil text.length)
  refine ⟨first, more ++ 0x3a :: text, ?_, isDigit_of_mem_digits (hdigits ▸ List.mem_cons_self)⟩
  rw [encodeText, hdigits]
  rfl

theorem readByte_encodeText {byte : UInt8} (h : isDigit byte = false) (text rest : List UInt8) :
    readByte byte (encodeText text ++ rest) = none := by
  obtain ⟨first, more, htext, hfirst⟩ := exists_encodeText text
  have hne : first ≠ byte := by
    rintro rfl
    rw [h] at hfirst
    cases hfirst
  rw [htext, List.cons_append, readByte, if_neg hne]

/-- No value starts with the sign that ends it. -/
theorem readByte_encode (value : Value) (rest : List UInt8) :
    readByte 0x65 (encode value ++ rest) = none := by
  cases value with
  | bytes text =>
    rw [encode]
    exact readByte_encodeText (by decide) text rest
  | integer | list | dict => rw [encode]; rfl

theorem length_encode_pos (value : Value) : 0 < (encode value).length := by
  cases value with
  | bytes text =>
    obtain ⟨first, more, htext, -⟩ := exists_encodeText text
    rw [encode, htext]
    exact Nat.succ_pos _
  | integer | list | dict => rw [encode]; exact Nat.succ_pos _

/-- What the three readers read is what was written. -/
structure ReadBack (fuel : Nat) : Prop where
  ofValue : ∀ {bytes rest value}, readValue fuel bytes = some (value, rest) →
    bytes = encode value ++ rest
  ofValues : ∀ {bytes rest values}, readValues fuel bytes = some (values, rest) →
    bytes = encodeValues values ++ 0x65 :: rest
  ofEntries : ∀ {bytes rest entries}, readEntries fuel bytes = some (entries, rest) →
    bytes = encodeEntries entries ++ 0x65 :: rest

section ReadBack
variable {fuel : Nat} {bytes rest : List UInt8}

theorem encode_of_readValue (ih : ReadBack fuel) {value : Value}
    (h : readValue (fuel + 1) bytes = some (value, rest)) : bytes = encode value ++ rest := by
  cases bytes with
  | nil => cases h
  | cons first bytes =>
    rw [readValue] at h
    split at h
    · rename_i hfirst
      obtain ⟨⟨n, afterInt⟩, hint, hend⟩ := Option.bind_eq_some_iff.mp h
      obtain ⟨rest', hstop, heq⟩ := Option.bind_eq_some_iff.mp hend
      obtain ⟨rfl, rfl⟩ := Prod.mk.inj (Option.some.inj heq)
      obtain rfl := readByte_eq_some_iff.mp hstop
      rw [readInt_eq_some_iff.mp hint, hfirst, encode]
      simp
    split at h
    · rename_i hfirst
      obtain ⟨⟨values, rest'⟩, hvalues, heq⟩ := Option.bind_eq_some_iff.mp h
      obtain ⟨rfl, rfl⟩ := Prod.mk.inj (Option.some.inj heq)
      rw [ih.ofValues hvalues, hfirst, encode]
      simp
    split at h
    · rename_i hfirst
      obtain ⟨⟨entries, rest'⟩, hentries, heq⟩ := Option.bind_eq_some_iff.mp h
      obtain ⟨rfl, rfl⟩ := Prod.mk.inj (Option.some.inj heq)
      rw [ih.ofEntries hentries, hfirst, encode]
      simp
    · obtain ⟨⟨text, rest'⟩, htext, heq⟩ := Option.bind_eq_some_iff.mp h
      obtain ⟨rfl, rfl⟩ := Prod.mk.inj (Option.some.inj heq)
      rw [encode]
      exact readText_eq_some_iff.mp htext

theorem encode_of_readValues (ih : ReadBack fuel) {values : List Value}
    (h : readValues (fuel + 1) bytes = some (values, rest)) :
    bytes = encodeValues values ++ 0x65 :: rest := by
  rw [readValues] at h
  split at h
  · rename_i hstop
    obtain ⟨rfl, rfl⟩ := Prod.mk.inj (Option.some.inj h)
    rw [encodeValues]
    exact readByte_eq_some_iff.mp hstop
  · obtain ⟨⟨value, afterValue⟩, hvalue, hmore⟩ := Option.bind_eq_some_iff.mp h
    obtain ⟨⟨more, rest'⟩, hvalues, heq⟩ := Option.bind_eq_some_iff.mp hmore
    obtain ⟨rfl, rfl⟩ := Prod.mk.inj (Option.some.inj heq)
    rw [ih.ofValue hvalue, ih.ofValues hvalues, encodeValues, List.append_assoc]

theorem encode_of_readEntries (ih : ReadBack fuel) {entries : List (List UInt8 × Value)}
    (h : readEntries (fuel + 1) bytes = some (entries, rest)) :
    bytes = encodeEntries entries ++ 0x65 :: rest := by
  rw [readEntries] at h
  split at h
  · rename_i hstop
    obtain ⟨rfl, rfl⟩ := Prod.mk.inj (Option.some.inj h)
    rw [encodeEntries]
    exact readByte_eq_some_iff.mp hstop
  · obtain ⟨⟨key, afterKey⟩, hkey, hafter⟩ := Option.bind_eq_some_iff.mp h
    obtain ⟨⟨value, afterValue⟩, hvalue, hmore⟩ := Option.bind_eq_some_iff.mp hafter
    obtain ⟨⟨more, rest'⟩, hentries, heq⟩ := Option.bind_eq_some_iff.mp hmore
    obtain ⟨rfl, rfl⟩ := Prod.mk.inj (Option.some.inj heq)
    rw [readText_eq_some_iff.mp hkey, ih.ofValue hvalue, ih.ofEntries hentries, encodeEntries]
    simp

end ReadBack

/-- The induction is on the fuel of all three readers. -/
theorem encode_of_read (fuel : Nat) : ReadBack fuel := by
  induction fuel with
  | zero =>
    refine ⟨?_, ?_, ?_⟩
    all_goals
      intro bytes rest value h
      first | rw [readValue] at h | rw [readValues] at h | rw [readEntries] at h
      cases h
  | succ fuel ih => exact ⟨encode_of_readValue ih, encode_of_readValues ih, encode_of_readEntries ih⟩

/-- What was written is read, whatever comes behind it. -/
structure Readable (fuel : Nat) : Prop where
  value : ∀ v rest, (encode v).length ≤ fuel → readValue fuel (encode v ++ rest) = some (v, rest)
  values : ∀ vs rest, (encodeValues vs).length < fuel →
    readValues fuel (encodeValues vs ++ 0x65 :: rest) = some (vs, rest)
  entries : ∀ es rest, (encodeEntries es).length < fuel →
    readEntries fuel (encodeEntries es ++ 0x65 :: rest) = some (es, rest)

section Readable
variable {fuel : Nat} (rest : List UInt8)

theorem readByte_stop : readByte 0x65 (0x65 :: rest) = some rest := readByte_eq_some_iff.mpr rfl

theorem readValue_encode (ih : Readable fuel) (value : Value)
    (h : (encode value).length ≤ fuel + 1) :
    readValue (fuel + 1) (encode value ++ rest) = some (value, rest) := by
  cases value with
  | integer n =>
    have hint : readInt (encodeInt n ++ 0x65 :: rest) = some (n, 0x65 :: rest) :=
      readInt_eq_some_iff.mpr rfl
    simp [encode, readValue, hint, readByte_stop]
  | bytes text =>
    obtain ⟨first, more, htext, hfirst⟩ := exists_encodeText text
    have hread : readText (first :: (more ++ rest)) = some (text, rest) := by
      rw [← List.cons_append, ← htext]
      exact readText_eq_some_iff.mpr rfl
    have hne : ∀ byte, isDigit byte = false → first ≠ byte := by
      rintro byte hbyte rfl
      rw [hbyte] at hfirst
      cases hfirst
    rw [encode, htext, List.cons_append, readValue, if_neg (hne 0x69 (by decide)),
      if_neg (hne 0x6c (by decide)), if_neg (hne 0x64 (by decide)), hread]
    rfl
  | list values =>
    simp only [encode, List.length_cons, List.length_append, List.length_nil] at h
    have hvalues := ih.values values rest (by omega)
    simp [encode, readValue, hvalues]
  | dict entries =>
    simp only [encode, List.length_cons, List.length_append, List.length_nil] at h
    have hentries := ih.entries entries rest (by omega)
    simp [encode, readValue, hentries]

theorem readValues_encode (ih : Readable fuel) (values : List Value)
    (h : (encodeValues values).length < fuel + 1) :
    readValues (fuel + 1) (encodeValues values ++ 0x65 :: rest) = some (values, rest) := by
  cases values with
  | nil => simp [encodeValues, readValues, readByte_stop]
  | cons value values =>
    rw [encodeValues, List.length_append] at h
    have hpos := length_encode_pos value
    rw [encodeValues, List.append_assoc, readValues, readByte_encode]
    have hvalue := fun rest => ih.value value rest (by omega)
    simp [hvalue, ih.values values rest (by omega)]

theorem readEntries_encode (ih : Readable fuel) (entries : List (List UInt8 × Value))
    (h : (encodeEntries entries).length < fuel + 1) :
    readEntries (fuel + 1) (encodeEntries entries ++ 0x65 :: rest) = some (entries, rest) := by
  cases entries with
  | nil => simp [encodeEntries, readEntries, readByte_stop]
  | cons entry entries =>
    obtain ⟨key, value⟩ := entry
    rw [encodeEntries, List.length_append, List.length_append] at h
    have hpos := length_encode_pos value
    have hkey : ∀ rest, readText (encodeText key ++ rest) = some (key, rest) :=
      fun rest => readText_eq_some_iff.mpr rfl
    have hvalue := fun rest => ih.value value rest (by omega)
    rw [encodeEntries, List.append_assoc, List.append_assoc, readEntries,
      readByte_encodeText (by decide)]
    simp [hkey, hvalue, ih.entries entries rest (by omega)]

end Readable

theorem read_encode (fuel : Nat) : Readable fuel := by
  induction fuel with
  | zero =>
    refine ⟨?_, ?_, ?_⟩
    · intro value rest h
      have hpos := length_encode_pos value
      omega
    · intro values rest h
      exact absurd h (Nat.not_lt_zero _)
    · intro entries rest h
      exact absurd h (Nat.not_lt_zero _)
  | succ fuel ih =>
    exact ⟨fun value rest => readValue_encode rest ih value,
      fun values rest => readValues_encode rest ih values,
      fun entries rest => readEntries_encode rest ih entries⟩

theorem decode_eq_some_iff {bytes : List UInt8} {value : Value} :
    decode bytes = some value ↔ bytes = encode value := by
  constructor
  · intro h
    unfold decode at h
    split at h
    · rename_i hread
      obtain rfl := Option.some.inj h
      rw [(encode_of_read _).ofValue hread, List.append_nil]
    · cases h
  · rintro rfl
    have hread := (read_encode _).value value [] (Nat.le_refl _)
    rw [List.append_nil] at hread
    rw [decode, hread]

theorem decode_encode (value : Value) : decode (encode value) = some value :=
  decode_eq_some_iff.mpr rfl

theorem encode_injective {value value' : Value} (h : encode value = encode value') :
    value = value' :=
  Option.some.inj ((decode_encode value).symm.trans (decode_eq_some_iff.mpr h))

end Bencode
