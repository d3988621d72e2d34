import Aquatic.Common.TrustedProxies

/-!
# The characters of an address

A text that is an address has hexadecimal digits, dots and colons only.
-/

namespace Aquatic
set_option autoImplicit false

namespace IpParser

def isAddrChar (c : Char) : Bool := (toDigit 16 c).isSome || c == '.' || c == ':'

theorem range_of_isAddrChar {c : Char} (h : isAddrChar c = true) :
    46 ≤ c.toNat ∧ c.toNat ≤ 102 ∧ c.toNat ≠ 47 := by
  simp only [isAddrChar, Bool.or_eq_true, beq_iff_eq] at h
  rcases h with (h | rfl) | rfl
  · unfold toDigit at h
    have hle : ∀ {a b : Char}, a ≤ b ↔ a.toNat ≤ b.toNat := fun {a b} => Iff.rfl
    simp only [hle] at h
    have h0 : '0'.toNat = 48 := rfl
    have h9 : '9'.toNat = 57 := rfl
    have ha : 'a'.toNat = 97 := rfl
    have hz : 'z'.toNat = 122 := rfl
    have hA : 'A'.toNat = 65 := rfl
    have hZ : 'Z'.toNat = 90 := rfl
    grind
  · decide
  · decide

/-- What a reader has taken from the front of a text. -/
def Took (text rest : List Char) : Prop :=
  ∃ used, text = used ++ rest ∧ ∀ c ∈ used, isAddrChar c = true

section Took
variable {text rest last : List Char}

theorem Took.refl (text : List Char) : Took text text := ⟨[], rfl, fun _ h => by cases h⟩

theorem Took.trans (h : Took text rest) (h' : Took rest last) : Took text last := by
  obtain ⟨used, rfl, hused⟩ := h
  obtain ⟨used', rfl, hused'⟩ := h'
  refine ⟨used ++ used', (List.append_assoc _ _ _).symm, ?_⟩
  intro c hc
  exact (List.mem_append.mp hc).elim (hused c) (hused' c)

theorem took_cons {c : Char} (hc : isAddrChar c = true) (text : List Char) : Took (c :: text) text := by
  refine ⟨[c], rfl, ?_⟩
  intro d hd
  rw [List.mem_singleton.mp hd]
  exact hc

theorem took_readGivenChar {target : Char} (htarget : isAddrChar target = true)
    (h : readGivenChar target text = some rest) : Took text rest := by
  cases text with
  | nil => cases h
  | cons c text =>
    simp only [readGivenChar] at h
    split at h
    · rename_i hc
      cases h
      exact took_cons (hc ▸ htarget) _
    · cases h

theorem isAddrChar_of_toDigit {radix digit : Nat} {c : Char} (hradix : radix ≤ 16)
    (h : toDigit radix c = some digit) : isAddrChar c = true := by
  have hdigit : (toDigit 16 c).isSome = true := by
    unfold toDigit at h ⊢
    grind
  rw [isAddrChar, hdigit, Bool.true_or, Bool.true_or]

/-- Digits are read from the front of a text. -/
theorem used_readDigits {radix maxDigits result digitCount : Nat} {found : Nat × Nat × List Char}
    (h : readDigits radix maxDigits result digitCount text = some found) :
    ∃ used, text = used ++ found.2.2 ∧ ∀ c ∈ used, (toDigit radix c).isSome = true := by
  induction text generalizing result digitCount with
  | nil =>
    cases h
    exact ⟨[], rfl, fun c hc => by cases hc⟩
  | cons c text ih =>
    simp only [readDigits] at h
    split at h
    · rename_i digit hdigit
      split at h
      · cases h
      · obtain ⟨used, rfl, hused⟩ := ih h
        refine ⟨c :: used, rfl, ?_⟩
        intro d hd
        rcases List.mem_cons.mp hd with rfl | hd
        · rw [hdigit]
          rfl
        · exact hused d hd
    · cases h
      exact ⟨[], rfl, fun c hc => by cases hc⟩

theorem used_readNumber {radix maxDigits bound : Nat} {allowZeroPrefix : Bool}
    {found : Nat × List Char}
    (h : readNumber radix maxDigits bound allowZeroPrefix text = some found) :
    ∃ used, text = used ++ found.2 ∧ ∀ c ∈ used, (toDigit radix c).isSome = true := by
  obtain ⟨⟨result, digitCount, rest⟩, hdigits, h⟩ := Option.bind_eq_some_iff.mp h
  have hused := used_readDigits hdigits
  simp only at h
  split at h
  · cases h
  split at h
  · cases h
  split at h
  · cases h
    exact hused
  · cases h

theorem took_readNumber {radix maxDigits bound : Nat} (hradix : radix ≤ 16) {allowZeroPrefix : Bool}
    {found : Nat × List Char}
    (h : readNumber radix maxDigits bound allowZeroPrefix text = some found) :
    Took text found.2 := by
  obtain ⟨used, heq, hused⟩ := used_readNumber h
  refine ⟨used, heq, ?_⟩
  intro c hc
  obtain ⟨digit, hdigit⟩ := Option.isSome_iff_exists.mp (hused c hc)
  exact isAddrChar_of_toDigit hradix hdigit

theorem took_readSeparator {α : Type} {sep : Char} (hsep : isAddrChar sep = true) {index : Nat}
    {inner : List Char → Option (α × List Char)} {found : α × List Char}
    (hinner : ∀ {text}, inner text = some found → Took text found.2)
    (h : readSeparator sep index inner text = some found) : Took text found.2 := by
  unfold readSeparator at h
  split at h
  · obtain ⟨rest, hgiven, h⟩ := Option.bind_eq_some_iff.mp h
    exact (took_readGivenChar hsep hgiven).trans (hinner h)
  · exact hinner h

theorem took_readIpv4Addr {found : Ipv4Addr × List Char} (h : readIpv4Addr text = some found) :
    Took text found.2 := by
  have hoctet : ∀ {i : Nat} {text : List Char} {found : Nat × List Char},
      readSeparator '.' i (readNumber 10 3 256 false) text = some found → Took text found.2 :=
    fun h => took_readSeparator (by decide) (took_readNumber (by decide)) h
  obtain ⟨a, ha, h⟩ := Option.bind_eq_some_iff.mp h
  obtain ⟨b, hb, h⟩ := Option.bind_eq_some_iff.mp h
  obtain ⟨c, hc, h⟩ := Option.bind_eq_some_iff.mp h
  obtain ⟨d, hd, h⟩ := Option.bind_eq_some_iff.mp h
  cases h
  exact (((hoctet ha).trans (hoctet hb)).trans (hoctet hc)).trans (hoctet hd)

theorem took_readGroups (left i : Nat) (text : List Char) :
    Took text (readGroups left i text).2.2 := by
  have hcolon : isAddrChar ':' = true := by decide
  induction left generalizing i text with
  | zero => exact .refl _
  | succ left ih =>
    simp only [readGroups]
    split
    · rename_i addr rest h
      split at h
      · have htook := took_readSeparator hcolon took_readIpv4Addr h
        exact htook
      · cases h
    · split
      · rename_i group rest h
        have htook := took_readSeparator hcolon (took_readNumber (by decide)) h
        exact htook.trans (ih _ _)
      · exact .refl _

theorem took_readIpv6Addr {found : Ipv6Addr × List Char} (h : readIpv6Addr text = some found) :
    Took text found.2 := by
  have hhead := took_readGroups 8 0 text
  unfold readIpv6Addr at h
  simp only at h
  split at h
  · obtain rfl := Option.some.inj h
    exact hhead
  split at h
  · cases h
  obtain ⟨rest, hfirst, h⟩ := Option.bind_eq_some_iff.mp h
  obtain ⟨rest', hsecond, h⟩ := Option.bind_eq_some_iff.mp h
  obtain rfl := Option.some.inj h
  exact ((hhead.trans (took_readGivenChar (by decide) hfirst)).trans
    (took_readGivenChar (by decide) hsecond)).trans (took_readGroups _ _ _)

theorem took_readIpAddr {found : IpAddr × List Char} (h : readIpAddr text = some found) :
    Took text found.2 := by
  unfold readIpAddr at h
  split at h
  · rename_i hv4
    cases h
    exact took_readIpv4Addr hv4
  · obtain ⟨found, hv6, rfl⟩ := Option.map_eq_some_iff.mp h
    exact took_readIpv6Addr hv6

end Took

end IpParser

section Parsed
variable {text : List Char} {ip : IpAddr}

theorem isAddrChar_of_mem (h : IpAddr.parse text = some ip) {c : Char} (hc : c ∈ text) :
    IpParser.isAddrChar c = true := by
  unfold IpAddr.parse at h
  split at h
  · rename_i addr hread
    obtain ⟨used, hused, hchars⟩ := IpParser.took_readIpAddr hread
    rw [List.append_nil] at hused
    exact hchars c (hused ▸ hc)
  · cases h

theorem range_of_mem (h : IpAddr.parse text = some ip) {c : Char} (hc : c ∈ text) :
    46 ≤ c.toNat ∧ c.toNat ≤ 102 ∧ c.toNat ≠ 47 :=
  IpParser.range_of_isAddrChar (isAddrChar_of_mem h hc)

/-- Characters of other numbers do not occur. -/
theorem not_mem_of_parse (h : IpAddr.parse text = some ip) {c : Char}
    (hc : c.toNat < 46 ∨ c.toNat = 47 ∨ 102 < c.toNat) : c ∉ text := by
  intro hmem
  have hrange := range_of_mem h hmem
  omega

theorem not_white_of_parse (h : IpAddr.parse text = some ip) {c : Char} (hc : c ∈ text) :
    isWhitespace c = false := by
  have hrange := range_of_mem h hc
  unfold isWhitespace
  simp only [Bool.or_eq_false_iff, Bool.and_eq_false_iff, decide_eq_false_iff_not,
    List.contains_eq_mem, List.mem_cons, List.not_mem_nil, or_false]
  omega

theorem ne_nil_of_parse (h : IpAddr.parse text = some ip) : text ≠ [] := by
  rintro rfl
  cases h

end Parsed

end Aquatic
