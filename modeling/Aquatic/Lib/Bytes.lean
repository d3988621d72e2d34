import Mathlib.Data.Nat.Basic

/-!
# Fields of a datagram

A reader takes fields of a fixed size from the front and leaves the rest. What it
accepts is described by the bytes it was given: a format is the concatenation of
its fields.
-/

namespace Bytes
set_option autoImplicit false

/-- The next `n` bytes, and what comes after them. -/
def readExact (n : Nat) (bytes : List UInt8) : Option (Vector UInt8 n × List UInt8) :=
  if h : n ≤ bytes.length then
    some (⟨(bytes.take n).toArray, by simp [h]⟩, bytes.drop n)
  else none

/-- A number in the next `n` bytes. -/
def readWith {α : Type} (n : Nat) (decode : Vector UInt8 n → α) (bytes : List UInt8) :
    Option (α × List UInt8) :=
  (readExact n bytes).map fun (field, rest) => (decode field, rest)

def pieces (n : Nat) : Nat → List UInt8 → Option (List (Vector UInt8 n))
  | 0, _ => some []
  | k + 1, bytes => (readExact n bytes).bind fun (piece, rest) => (pieces n k rest).map (piece :: ·)

/-- The bytes as a slice of arrays of `n` bytes, if their number is right. -/
def sliceFrom (n : Nat) (bytes : List UInt8) : Option (List (Vector UInt8 n)) :=
  if bytes.length % n = 0 then pieces n (bytes.length / n) bytes else none

variable {n : Nat} {bytes rest : List UInt8} {field : Vector UInt8 n}

theorem readExact_append (field : Vector UInt8 n) (rest : List UInt8) :
    readExact n (field.toList ++ rest) = some (field, rest) := by
  have hlength : field.toList.length = n := field.length_toList
  have hle : n ≤ (field.toList ++ rest).length := by simp
  unfold readExact
  rw [dif_pos hle, List.drop_left' hlength]
  simp only [List.take_left' hlength]
  rfl

theorem readExact_eq_some_iff : readExact n bytes = some (field, rest) ↔ bytes = field.toList ++ rest := by
  constructor
  · intro h
    unfold readExact at h
    split at h
    · cases h
      exact (List.take_append_drop n bytes).symm
    · cases h
  · intro h
    rw [h, readExact_append]

theorem readExact_isSome_iff : (readExact n bytes).isSome ↔ n ≤ bytes.length := by
  unfold readExact
  split <;> simp_all

theorem length_of_readExact (h : readExact n bytes = some (field, rest)) :
    bytes.length = n + rest.length := by
  rw [readExact_eq_some_iff.mp h, List.length_append, field.length_toList]

section Decode
variable {α : Type} {decode : Vector UInt8 n → α} {value : α}

theorem drop_of_readWith (h : readWith n decode bytes = some (value, rest)) :
    n ≤ bytes.length ∧ rest = bytes.drop n := by
  obtain ⟨⟨field, rest'⟩, hread, heq⟩ := Option.map_eq_some_iff.mp h
  cases heq
  have hlength := length_of_readExact hread
  refine ⟨by omega, ?_⟩
  rw [readExact_eq_some_iff.mp hread, List.drop_left' field.length_toList]

theorem length_lt_of_readWith (h : readWith n decode bytes = none) : bytes.length < n := by
  by_contra hlength
  obtain ⟨e, he⟩ := Option.isSome_iff_exists.mp
    (readExact_isSome_iff.mpr (show n ≤ bytes.length by omega))
  rw [readWith, he] at h
  cases h

/-- With fewer bytes the front is read as before, as long as it is there. -/
theorem readWith_take (decode : Vector UInt8 n → α) (bytes : List UInt8) {m : Nat} (hm : n ≤ m) :
    (readWith n decode (bytes.take m)).map Prod.fst = (readWith n decode bytes).map Prod.fst := by
  by_cases hlength : n ≤ bytes.length
  · have hmin : n ≤ min m bytes.length := by omega
    simp [readWith, readExact, hlength, hmin, hm, List.take_take]
  · have hmin : ¬ n ≤ min m bytes.length := by omega
    simp [readWith, readExact, hlength, hmin]

end Decode

section Values
variable {α : Type} (read : List UInt8 → Option (α × List UInt8))

def readTimes : Nat → List UInt8 → Option (List α × List UInt8)
  | 0, bytes => some ([], bytes)
  | k + 1, bytes => do
    let (value, bytes) ← read bytes
    let (values, bytes) ← readTimes k bytes
    return (value :: values, bytes)

/-- The bytes as a slice of values of `n` bytes each, if their number is right. -/
def sliceWith (n : Nat) (bytes : List UInt8) : Option (List α) :=
  if bytes.length % n = 0 then (readTimes read (bytes.length / n) bytes).map Prod.fst else none

variable {read} {write : α → List UInt8}

theorem readTimes_eq_some_iff
    (hread : ∀ {bytes value rest}, read bytes = some (value, rest) ↔ bytes = write value ++ rest)
    {k : Nat} {bytes rest : List UInt8} {values : List α} :
    readTimes read k bytes = some (values, rest) ↔
      values.length = k ∧ bytes = values.flatMap write ++ rest := by
  induction k generalizing bytes values with
  | zero =>
    constructor
    · intro h
      cases h
      exact ⟨rfl, rfl⟩
    · rintro ⟨hnil, rfl⟩
      rw [List.eq_nil_of_length_eq_zero hnil]
      rfl
  | succ k ih =>
    constructor
    · intro h
      obtain ⟨⟨value, more⟩, hvalue, h⟩ := Option.bind_eq_some_iff.mp h
      obtain ⟨⟨others, left⟩, hothers, h⟩ := Option.bind_eq_some_iff.mp h
      cases h
      obtain ⟨hlength, hmore⟩ := ih.mp hothers
      refine ⟨congrArg Nat.succ hlength, ?_⟩
      rw [hread.mp hvalue, hmore, List.flatMap_cons, List.append_assoc]
    · rintro ⟨hlength, rfl⟩
      cases values with
      | nil => cases hlength
      | cons value values =>
        have hvalue : read ((value :: values).flatMap write ++ rest) =
            some (value, values.flatMap write ++ rest) := by
          rw [hread, List.flatMap_cons, List.append_assoc]
        rw [readTimes, hvalue]
        simp only [Option.bind_eq_bind, Option.bind_some, ih.mpr ⟨Nat.succ.inj hlength, rfl⟩]
        rfl

theorem length_flatMap_write (hlength : ∀ value, (write value).length = n) (values : List α) :
    (values.flatMap write).length = n * values.length := by
  induction values with
  | nil => rfl
  | cons value values ih =>
    rw [List.flatMap_cons, List.length_append, ih, hlength, List.length_cons, Nat.mul_succ]
    omega

theorem sliceWith_eq_some_iff (hn : 0 < n)
    (hread : ∀ {bytes value rest}, read bytes = some (value, rest) ↔ bytes = write value ++ rest)
    (hlength : ∀ value, (write value).length = n) {values : List α} :
    sliceWith read n bytes = some values ↔ bytes = values.flatMap write := by
  constructor
  · intro h
    rw [sliceWith] at h
    split at h
    · rename_i hmod
      obtain ⟨⟨values', rest⟩, htimes, heq⟩ := Option.map_eq_some_iff.mp h
      obtain rfl := heq
      obtain ⟨hcount, hbytes⟩ := (readTimes_eq_some_iff hread).mp htimes
      have hall := congrArg List.length hbytes
      rw [List.length_append, length_flatMap_write hlength, hcount,
        Nat.mul_div_cancel' (Nat.dvd_of_mod_eq_zero hmod)] at hall
      obtain rfl : rest = [] := List.eq_nil_of_length_eq_zero (by omega)
      rw [hbytes, List.append_nil]
    · cases h
  · rintro rfl
    have hall := length_flatMap_write hlength values
    have htimes : readTimes read values.length (values.flatMap write) = some (values, []) :=
      (readTimes_eq_some_iff hread).mpr ⟨rfl, (List.append_nil _).symm⟩
    rw [sliceWith, hall, if_pos (Nat.mul_mod_right n _), Nat.mul_div_cancel_left _ hn, htimes]
    rfl

end Values

theorem length_flatMap (vs : List (Vector UInt8 n)) :
    (vs.flatMap Vector.toList).length = n * vs.length :=
  length_flatMap_write (fun v : Vector UInt8 n => v.length_toList) vs

theorem pieces_eq_readTimes (n k : Nat) (bytes : List UInt8) :
    pieces n k bytes = (readTimes (readExact n) k bytes).map Prod.fst := by
  induction k generalizing bytes with
  | zero => rfl
  | succ k ih =>
    rw [pieces, readTimes]
    cases readExact n bytes with
    | none => rfl
    | some e =>
      simp only [Option.bind_eq_bind, Option.bind_some, ih]
      cases readTimes (readExact n) k e.2 <;> rfl

theorem exists_pieces {k : Nat} {bytes : List UInt8} (h : bytes.length = n * k) :
    ∃ vs : List (Vector UInt8 n), bytes = vs.flatMap Vector.toList ∧ vs.length = k := by
  induction k generalizing bytes with
  | zero => exact ⟨[], List.eq_nil_of_length_eq_zero h, rfl⟩
  | succ k ih =>
    rw [Nat.mul_succ] at h
    obtain ⟨⟨field, rest⟩, hread⟩ := Option.isSome_iff_exists.mp
      (readExact_isSome_iff.mpr (show n ≤ bytes.length by omega))
    have hlength := length_of_readExact hread
    obtain ⟨vs, rfl, rfl⟩ := ih (show rest.length = n * k by omega)
    refine ⟨field :: vs, ?_, rfl⟩
    rw [List.flatMap_cons]
    exact readExact_eq_some_iff.mp hread

theorem sliceFrom_eq_sliceWith (n : Nat) (bytes : List UInt8) :
    sliceFrom n bytes = sliceWith (readExact n) n bytes := by
  rw [sliceFrom, sliceWith, pieces_eq_readTimes]

theorem sliceFrom_eq_some_iff (hn : 0 < n) {vs : List (Vector UInt8 n)} :
    sliceFrom n bytes = some vs ↔ bytes = vs.flatMap Vector.toList := by
  rw [sliceFrom_eq_sliceWith]
  exact sliceWith_eq_some_iff hn readExact_eq_some_iff fun v => v.length_toList

theorem sliceFrom_eq_none_iff (hn : 0 < n) : sliceFrom n bytes = none ↔ bytes.length % n ≠ 0 := by
  constructor
  · intro h hmod
    obtain ⟨vs, hvs, -⟩ := exists_pieces (Nat.mul_div_cancel' (Nat.dvd_of_mod_eq_zero hmod)).symm
    rw [(sliceFrom_eq_some_iff hn).mpr hvs] at h
    cases h
  · intro h
    exact if_neg h

end Bytes
