import Mathlib.Data.List.Basic

/-!
# JSON values and how records are read from them

A record is an object with a value for each field. It is read from an object whose other
names do not matter, or from an array with the values in order. Several readers tried one
after the other give what the first gives that accepts the value.
-/

namespace Json
set_option autoImplicit false

/-- A number of 64 bits, a negative one, or any other, of which the text is kept. -/
inductive Value where
  | null
  | bool (b : Bool)
  | unsigned (n : UInt64)
  | negative (n : Int64)
  | float (text : String)
  | string (text : String)
  | array (elements : List Value)
  | object (entries : List (String × Value))

variable {α : Type}

def readUnsigned : Value → Option UInt64
  | .unsigned n => some n
  | _ => none

def readString : Value → Option String
  | .string text => some text
  | _ => none

def ofOption (write : α → Value) : Option α → Value
  | none => .null
  | some a => write a

def readOption (read : Value → Option α) : Value → Option (Option α)
  | .null => some none
  | value => (read value).map some

def ofList (write : α → Value) (elements : List α) : Value := .array (elements.map write)

def readList (read : Value → Option α) : Value → Option (List α)
  | .array elements => elements.mapM read
  | _ => none

/-- A variant without data is its name, which may also be the only name of an object. -/
def readVariant (variants : List (String × α)) : Value → Option α
  | .string name => variants.lookup name
  | .object [(name, .null)] => variants.lookup name
  | _ => none

/-- The values of a record with these field names, none of which may stand twice. -/
def fields (names : List String) : Value → Option (List (String × Value))
  | .object entries =>
    if ((entries.map Prod.fst).filter (· ∈ names)).Nodup then some entries else none
  | .array elements =>
    if elements.length = names.length then some (names.zip elements) else none
  | _ => none

section Fields
variable (entries : List (String × Value)) (name : String) (read : Value → Option α)

def field : Option α := (entries.lookup name).bind read

/-- A field that may be missing or null. -/
def optionalField : Option (Option α) :=
  match entries.lookup name with
  | none => some none
  | some value => readOption read value

/-- A field that is left out where there is nothing to write. -/
def skipNone (write : α → Value) : Option α → List (String × Value)
  | none => []
  | some a => [(name, write a)]

end Fields

/-- The readers are tried in order. -/
def untagged (readers : List (Value → Option α)) (value : Value) : Option α :=
  readers.findSome? fun read => read value

section RoundTrip
variable {write : α → Value} {read : Value → Option α} {entries : List (String × Value)}
  {name : String}

theorem readOption_of_ne_null {value : Value} (h : value ≠ .null) :
    readOption read value = (read value).map some := by
  cases value with
  | null => exact absurd rfl h
  | _ => rfl

theorem readOption_ofOption (hread : ∀ a, read (write a) = some a) (hnull : read .null = none)
    (a : Option α) : readOption read (ofOption write a) = some a := by
  cases a with
  | none => rfl
  | some a =>
    have hne : write a ≠ .null := by
      intro heq
      have h := hread a
      rw [heq, hnull] at h
      cases h
    rw [ofOption, readOption_of_ne_null hne, hread a]
    rfl

theorem mapM_map {β : Type} {write : α → β} {read : β → Option α}
    (hread : ∀ a, read (write a) = some a) (elements : List α) :
    (elements.map write).mapM read = some elements := by
  induction elements with
  | nil => rfl
  | cons a elements ih =>
    rw [List.map_cons, List.mapM_cons, hread a, ih]
    rfl

theorem readList_ofList (hread : ∀ a, read (write a) = some a) (elements : List α) :
    readList read (ofList write elements) = some elements :=
  mapM_map hread elements

theorem fields_object {names keys : List String} (hkeys : keys.Nodup)
    (h : entries.map Prod.fst = keys) : fields names (.object entries) = some entries := by
  rw [← h] at hkeys
  exact if_pos (hkeys.filter _)

theorem bind_fields_eq_none {names : List String} {rest : List (String × Value) → Option α}
    (h : rest entries = none) : (fields names (.object entries) >>= rest) = none := by
  rw [fields]
  split
  · exact h
  · rfl

theorem field_of_missing (h : entries.lookup name = none) : field entries name read = none := by
  rw [field, h, Option.bind_none]

end RoundTrip

/-- A written value is refused by the readers before its own, which gives it back. -/
structure Unambiguous (readers : List (Value → Option α)) (write : α → Value) (own : α → Nat)
    (a : α) : Prop where
  isObject : ∃ entries, write a = .object entries
  refused : ∀ read ∈ readers.take (own a), read (write a) = none
  accepted : ∃ read, readers[own a]? = some read ∧ read (write a) = some a

/-- The first of the readers that accepts a value decides. -/
theorem untagged_of_refused {readers : List (Value → Option α)} {value : Value} {a : α} {n : Nat}
    (hrefused : ∀ read ∈ readers.take n, read value = none)
    (haccepted : ∃ read, readers[n]? = some read ∧ read value = some a) :
    untagged readers value = some a := by
  obtain ⟨read, hread, hvalue⟩ := haccepted
  induction n generalizing readers with
  | zero =>
    cases readers with
    | nil => cases hread
    | cons first more =>
      obtain rfl : first = read := Option.some.inj hread
      rw [untagged, List.findSome?_cons, hvalue]
  | succ n ih =>
    cases readers with
    | nil => cases hread
    | cons first more =>
      rw [List.take_succ_cons, List.forall_mem_cons] at hrefused
      rw [untagged, List.findSome?_cons, hrefused.1]
      exact ih hrefused.2 hread

theorem Unambiguous.untagged {readers : List (Value → Option α)} {write : α → Value}
    {own : α → Nat} {a : α} (h : Unambiguous readers write own a) :
    untagged readers (write a) = some a :=
  untagged_of_refused h.refused h.accepted

end Json
