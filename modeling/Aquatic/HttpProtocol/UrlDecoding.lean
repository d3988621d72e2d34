import Aquatic.HttpProtocol.RequestRoundTrip

/-!
# The grammar of twenty bytes

A byte is a character of Latin-1 other than the percent sign, or an escape of two digits.
The decoder looks at the low eight bits of the two digits only.
-/

namespace Aquatic.HttpProtocol
set_option autoImplicit false

/-- The value of an ASCII hex digit. -/
def hexDigit (c : Char) : Option Nat :=
  if '0' ≤ c ∧ c ≤ '9' then some (c.toNat - '0'.toNat)
  else if 'A' ≤ c ∧ c ≤ 'F' then some (c.toNat - 'A'.toNat + 10)
  else if 'a' ≤ c ∧ c ≤ 'f' then some (c.toNat - 'a'.toNat + 10)
  else none

/-- What stands for a byte, given which characters are digits. -/
inductive Encodes (digit : Char → Option Nat) : List Char → UInt8 → Prop where
  | plain (c : Char) (hsmall : c.toNat ≤ 255) (hpercent : c ≠ '%') :
      Encodes digit [c] (UInt8.ofNat c.toNat)
  | escaped (first second : Char) {high low : Nat} (hfirst : digit first = some high)
      (hsecond : digit second = some low) :
      Encodes digit ['%', first, second] (UInt8.ofNat (high * 16 + low))

/-- What stands for several bytes. -/
inductive Spells (digit : Char → Option Nat) : List Char → List UInt8 → Prop where
  | nil : Spells digit [] []
  | concat {text part : List Char} {bytes : List UInt8} {byte : UInt8}
      (htext : Spells digit text bytes) (hpart : Encodes digit part byte) :
      Spells digit (text ++ part) (bytes ++ [byte])

variable {digit digit' : Char → Option Nat} {text part : List Char} {bytes : List UInt8}
  {byte : UInt8}

theorem Encodes.mono (hdigit : ∀ c ∈ part, ∀ n, digit c = some n → digit' c = some n)
    (h : Encodes digit part byte) : Encodes digit' part byte := by
  cases h with
  | plain c hsmall hpercent => exact .plain c hsmall hpercent
  | escaped first second hfirst hsecond =>
    exact .escaped first second (hdigit first (by simp) _ hfirst) (hdigit second (by simp) _ hsecond)

theorem Spells.mono (h : Spells digit text bytes)
    (hdigit : ∀ c ∈ text, ∀ n, digit c = some n → digit' c = some n) :
    Spells digit' text bytes := by
  induction h with
  | nil => exact .nil
  | concat _ hpart ih =>
    refine .concat (ih ?_) (hpart.mono ?_)
    · intro c hc
      exact hdigit c (List.mem_append_left _ hc)
    · intro c hc
      exact hdigit c (List.mem_append_right _ hc)

theorem hexDigit_eq_some_iff {c : Char} {n : Nat} :
    hexDigit c = some n ↔ c.toNat ≤ 255 ∧ hexValue c = some n := by
  have hle : ∀ {a b : Char}, a ≤ b ↔ a.toNat ≤ b.toNat := fun {a b} => Iff.rfl
  have hnumbers : '0'.toNat = 48 ∧ '9'.toNat = 57 ∧ 'A'.toNat = 65 ∧ 'F'.toNat = 70 ∧
      'a'.toNat = 97 ∧ 'f'.toNat = 102 := by decide
  simp only [hexDigit, hle]
  unfold hexValue
  constructor
  · grind
  · rintro ⟨hsmall, h⟩
    simp only [Nat.mod_eq_of_lt (Nat.lt_succ_of_le hsmall)] at h
    grind

/-- Text in the grammar has characters of Latin-1 only. -/
theorem Spells.small (h : Spells hexDigit text bytes) : ∀ c ∈ text, c.toNat ≤ 255 := by
  induction h with
  | nil =>
    intro c hc
    cases hc
  | concat _ hpart ih =>
    intro c hc
    rcases List.mem_append.mp hc with hc | hc
    · exact ih c hc
    · cases hpart with
      | plain c' hsmall _ =>
        rw [List.mem_singleton.mp hc]
        exact hsmall
      | escaped first second hfirst hsecond =>
        simp only [List.mem_cons, List.not_mem_nil, or_false] at hc
        rcases hc with rfl | rfl | rfl
        · decide
        · exact (hexDigit_eq_some_iff.mp hfirst).1
        · exact (hexDigit_eq_some_iff.mp hsecond).1

theorem urldecodeByte_eq_ok_iff {chars rest : List Char} :
    urldecodeByte chars = .ok (byte, rest) ↔
      ∃ part, chars = part ++ rest ∧ Encodes hexValue part byte := by
  constructor
  · intro h
    rcases chars with _ | ⟨c, chars⟩
    · cases h
    rw [urldecodeByte.eq_def] at h
    simp only at h
    split at h
    · cases h
    rename_i hsmall
    split at h
    · rename_i hpercent
      subst hpercent
      rcases chars with _ | ⟨first, _ | ⟨second, chars⟩⟩
      · cases h
      · cases h
      simp only at h
      split at h
      · rename_i high low hhigh hlow
        cases h
        exact ⟨_, rfl, .escaped first second hhigh hlow⟩
      · cases h
    · rename_i hpercent
      cases h
      exact ⟨_, rfl, .plain c (Nat.le_of_not_lt hsmall) hpercent⟩
  · rintro ⟨part, rfl, hpart⟩
    cases hpart with
    | plain c hsmall hpercent =>
      rw [List.singleton_append, urldecodeByte.eq_def]
      simp only [if_neg (Nat.not_lt_of_le hsmall), if_neg hpercent]
    | escaped first second hfirst hsecond =>
      simp [urldecodeByte, hfirst, hsecond]

theorem urldecodeBytes_eq_ok_iff {n : Nat} {chars rest : List Char} {out : Vector UInt8 n} :
    urldecodeBytes n chars = .ok (out, rest) ↔
      ∃ text, chars = text ++ rest ∧ Spells hexValue text out.toList := by
  induction n generalizing chars rest with
  | zero =>
    obtain rfl : out = #v[] := Vector.eq_empty
    constructor
    · intro h
      cases h
      exact ⟨[], rfl, .nil⟩
    · rintro ⟨text, rfl, htext⟩
      generalize hbytes : (#v[] : Vector UInt8 0).toList = bytes at htext
      cases htext with
      | nil => rfl
      | concat _ _ => simp at hbytes
  | succ n ih =>
    have hlist : out.toList = out.pop.toList ++ [out.back] := by
      conv_lhs => rw [← Vector.push_pop_back out]
      exact Vector.toList_push
    constructor
    · intro h
      obtain ⟨⟨front, more⟩, hfront, h⟩ := bind_eq_ok h
      obtain ⟨⟨byte, rest'⟩, hbyte, h⟩ := bind_eq_ok h
      cases h
      obtain ⟨text, rfl, htext⟩ := ih.mp hfront
      obtain ⟨part, rfl, hpart⟩ := urldecodeByte_eq_ok_iff.mp hbyte
      refine ⟨text ++ part, (List.append_assoc _ _ _).symm, ?_⟩
      rw [Vector.toList_push]
      exact .concat htext hpart
    · rintro ⟨text, rfl, htext⟩
      rw [hlist] at htext
      generalize hbytes : out.pop.toList ++ [out.back] = bytes at htext
      cases htext with
      | nil => simp at hbytes
      | @concat text part bytes byte htext hpart =>
        obtain ⟨hfront, hback⟩ := List.append_inj' hbytes rfl
        obtain rfl := hfront
        obtain rfl := List.singleton_inj.mp hback
        have hout : urldecodeBytes n (text ++ part ++ rest) = .ok (out.pop, part ++ rest) :=
          ih.mpr ⟨text, List.append_assoc _ _ _, htext⟩
        have hback : urldecodeByte (part ++ rest) = .ok (out.back, rest) :=
          urldecodeByte_eq_ok_iff.mpr ⟨part, rfl, hpart⟩
        rw [urldecodeBytes_succ hout hback, Vector.push_pop_back]

theorem urldecode20Bytes_eq_ok_iff {value : List Char} {out : Vector UInt8 20} :
    urldecode20Bytes value = .ok out ↔ Spells hexValue value out.toList := by
  constructor
  · intro h
    obtain ⟨⟨out', chars⟩, hout, hrest⟩ := bind_eq_ok h
    obtain ⟨text, rfl, htext⟩ := urldecodeBytes_eq_ok_iff.mp hout
    change (if chars.isEmpty then Except.ok out' else .error "more than 20 chars") = .ok out
      at hrest
    split at hrest
    · rename_i hempty
      cases hrest
      rw [List.isEmpty_iff.mp hempty, List.append_nil]
      exact htext
    · cases hrest
  · intro htext
    have hout := urldecodeBytes_eq_ok_iff.mpr ⟨value, (List.append_nil value).symm, htext⟩
    rw [urldecode20Bytes, hout]
    rfl

/-- The decoder accepts what the grammar has, with the bytes that it stands for. -/
structure Faithful (value : List Char) : Prop where
  accepts : ∀ out : Vector UInt8 20,
    urldecode20Bytes value = .ok out ↔ Spells hexDigit value out.toList
  rejects : (∀ out : Vector UInt8 20, ¬ Spells hexDigit value out.toList) →
    ∃ message, urldecode20Bytes value = .error message
  roundTrip : ∀ bytes : Vector UInt8 20, urldecode20Bytes (urlencode20Bytes bytes) = .ok bytes

/-- All characters are of Latin-1, or twenty bytes are not even there if of each digit only the
low eight bits count. -/
def Latin (value : List Char) : Prop :=
  (∀ c ∈ value, c.toNat ≤ 255) ∨ ∀ out : Vector UInt8 20, ¬ Spells hexValue value out.toList

theorem urldecode_exact_iff (value : List Char) : Faithful value ↔ Latin value := by
  constructor
  · intro h
    by_cases hsome : ∃ out : Vector UInt8 20, Spells hexValue value out.toList
    · obtain ⟨out, hout⟩ := hsome
      exact .inl ((h.accepts out).mp (urldecode20Bytes_eq_ok_iff.mpr hout)).small
    · exact .inr (not_exists.mp hsome)
  · intro h
    have haccepts : ∀ out : Vector UInt8 20,
        urldecode20Bytes value = .ok out ↔ Spells hexDigit value out.toList := by
      intro out
      rw [urldecode20Bytes_eq_ok_iff]
      constructor
      · intro hout
        rcases h with hsmall | hnone
        · exact hout.mono fun c hc n hn => hexDigit_eq_some_iff.mpr ⟨hsmall c hc, hn⟩
        · exact absurd hout (hnone out)
      · intro hout
        exact hout.mono fun c _ n hn => (hexDigit_eq_some_iff.mp hn).2
    refine ⟨haccepts, ?_, urldecode20Bytes_urlencode20Bytes⟩
    intro hnone
    cases hresult : urldecode20Bytes value with
    | error message => exact ⟨message, rfl⟩
    | ok out => exact absurd ((haccepts out).mp hresult) (hnone out)

/-- The low eight bits of U+0130 are those of a zero. -/
theorem not_faithful_wide_digit : ¬ Faithful ('%' :: '\u0130' :: '0' :: List.replicate 19 'a') := by
  intro h
  have hdecoded : urldecode20Bytes ('%' :: '\u0130' :: '0' :: List.replicate 19 'a') =
      .ok ⟨#[0, 97, 97, 97, 97, 97, 97, 97, 97, 97, 97, 97, 97, 97, 97, 97, 97, 97, 97, 97], rfl⟩ := by
    decide
  have hsmall := ((h.accepts _).mp hdecoded).small '\u0130' (by simp)
  exact absurd hsmall (by decide)

end Aquatic.HttpProtocol
