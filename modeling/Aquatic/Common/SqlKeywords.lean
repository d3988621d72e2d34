import Aquatic.Common.RequestFilter

/-!
# Keywords and percent escapes

A text is read from left to right as percent escapes and plain characters. The filter looks two
characters back instead: it finds every keyword that stands in plain characters, and it also finds
some that begin in an escape or follow what only begins like one.
-/

namespace Aquatic
open Text
set_option autoImplicit false

inductive Token where
  | escape (high low : Char) (hhigh : isAsciiHexdigit high = true)
      (hlow : isAsciiHexdigit low = true)
  | plain (c : Char)
  deriving DecidableEq

def isWordByte (c : Char) : Bool := c.isAlphanum || c == '_'

namespace Token

def text : Token → List Char
  | escape high low _ _ => ['%', high, low]
  | plain c => [c]

/-- Escapes are no part of a word. -/
def isWord : Token → Bool
  | escape _ _ _ _ => false
  | plain c => isWordByte c

end Token

/-- The text from left to right. -/
def tokens : List Char → List Token
  | '%' :: high :: low :: text =>
    if h : isAsciiHexdigit high = true ∧ isAsciiHexdigit low = true then
      .escape high low h.1 h.2 :: tokens text
    else .plain '%' :: tokens (high :: low :: text)
  | c :: text => .plain c :: tokens text
  | [] => []

/-- The keyword in plain characters, without a plain word character on either side. -/
def OccursPlainly (haystack needle : List Char) : Prop :=
  ∃ before window after, tokens haystack = before ++ window.map Token.plain ++ after ∧
    eqIgnoreAsciiCase window needle = true ∧ (∀ token ∈ before.getLast?, token.isWord = false) ∧
    ∀ token ∈ after.head?, token.isWord = false

def StartsEscape (text : List Char) : Prop :=
  ∃ high low rest, text = '%' :: high :: low :: rest ∧ isAsciiHexdigit high = true ∧
    isAsciiHexdigit low = true

theorem tokens_plain {c : Char} {text : List Char} (h : ¬ StartsEscape (c :: text)) :
    tokens (c :: text) = .plain c :: tokens text := by
  rw [tokens.eq_def]
  split
  · rename_i high low rest heq
    cases heq
    rw [dif_neg]
    exact fun hdigits => h ⟨high, low, rest, rfl, hdigits⟩
  · rename_i heq
    cases heq
    rfl
  · rename_i heq
    cases heq

theorem flatMap_tokens (text : List Char) : (tokens text).flatMap Token.text = text := by
  induction text using tokens.induct with
  | case1 high low text h ih =>
    rw [tokens, dif_pos h, List.flatMap_cons, ih]
    rfl
  | case2 high low text h ih =>
    rw [tokens, dif_neg h, List.flatMap_cons, ih]
    rfl
  | case3 c text hne ih =>
    rw [tokens, List.flatMap_cons, ih]
    · rfl
    · exact hne
  | case4 => rfl

/-- An escape that begins before the rest of the text and ends in it. -/
def Straddles (before rest : List Char) : Prop :=
  ∃ front part, before = front ++ part ∧ part ≠ [] ∧ part.length < 3 ∧ StartsEscape (part ++ rest)

theorem straddles_append (front : List Char) {before rest : List Char} (h : Straddles before rest) :
    Straddles (front ++ before) rest := by
  obtain ⟨front', part, rfl, hpart⟩ := h
  exact ⟨front ++ front', part, (List.append_assoc _ _ _).symm, hpart⟩

/-- Either of the digits may be the first character of the rest. -/
theorem straddles_cases {before rest : List Char} (h : Straddles before rest) :
    ∃ front high low more, isAsciiHexdigit high = true ∧ isAsciiHexdigit low = true ∧
      (before = front ++ ['%'] ∧ rest = high :: low :: more ∨
        before = front ++ ['%', high] ∧ rest = low :: more) := by
  obtain ⟨front, part, rfl, hne, hlength, high, low, more, heq, hhigh, hlow⟩ := h
  refine ⟨front, high, low, more, hhigh, hlow, ?_⟩
  cases part with
  | nil => cases hne rfl
  | cons sign part =>
    obtain ⟨rfl, hpart⟩ := List.cons.inj heq
    cases part with
    | nil => exact .inl ⟨rfl, hpart⟩
    | cons digit part =>
      obtain ⟨rfl, hrest⟩ := List.cons.inj hpart
      obtain rfl : part = [] := by
        rw [List.length_cons, List.length_cons] at hlength
        exact List.eq_nil_of_length_eq_zero (by omega)
      exact .inr ⟨rfl, hrest⟩

/-- No escape goes on with a percent sign. -/
theorem not_straddles_percent (before rest : List Char) : ¬ Straddles before ('%' :: rest) := by
  intro h
  obtain ⟨front, high, low, more, hhigh, hlow, ⟨-, hrest⟩ | ⟨-, hrest⟩⟩ := straddles_cases h
  · cases hrest
    cases hhigh
  · cases hrest
    cases hlow

theorem tokens_append {before rest : List Char} (h : ¬ Straddles before rest) :
    tokens (before ++ rest) = tokens before ++ tokens rest := by
  induction before using tokens.induct with
  | case1 high low text hdigits ih =>
    have htext := ih fun hrest => h (straddles_append ['%', high, low] hrest)
    rw [List.cons_append, List.cons_append, List.cons_append, tokens, dif_pos hdigits, tokens,
      dif_pos hdigits, htext, List.cons_append]
  | case2 high low text hdigits ih =>
    have htext := ih fun hrest => h (straddles_append ['%'] hrest)
    have hplain : ∀ more, ¬ StartsEscape ('%' :: high :: low :: more) := by
      rintro more ⟨high', low', rest', heq, hescape⟩
      cases heq
      exact hdigits hescape
    rw [List.cons_append, List.cons_append, List.cons_append, tokens_plain (hplain _),
      tokens_plain (hplain _), ← List.cons_append, ← List.cons_append, htext, List.cons_append]
  | case3 c text hne ih =>
    have htext := ih fun hrest => h (straddles_append [c] hrest)
    have hescape : ¬ StartsEscape (c :: text ++ rest) := by
      intro hescape
      by_cases hlength : (c :: text).length < 3
      · exact h ⟨[], c :: text, rfl, List.cons_ne_nil _ _, hlength, hescape⟩
      · obtain ⟨high, low, more, heq, -⟩ := hescape
        obtain ⟨rfl, hmore⟩ := List.cons.inj heq
        cases text with
        | nil => exact hlength (by simp)
        | cons first text =>
          cases text with
          | nil => exact hlength (by simp)
          | cons second text => exact hne first second text rfl rfl
    have hcons : tokens (c :: text) = .plain c :: tokens text := by
      rw [tokens]
      exact hne
    rw [hcons, List.cons_append, List.cons_append, ← htext]
    exact tokens_plain hescape
  | case4 => rfl

theorem tokens_of_plain {text : List Char} (h : '%' ∉ text) (rest : List Char) :
    tokens (text ++ rest) = text.map Token.plain ++ tokens rest := by
  induction text with
  | nil => rfl
  | cons c text ih =>
    rw [List.mem_cons, not_or] at h
    rw [List.cons_append, tokens_plain, ih h.2]
    · rfl
    · rintro ⟨high, low, more, heq, -⟩
      exact h.1 (List.cons.inj heq).1.symm

/-- The last two characters are a percent sign and a hex digit. -/
def EndsOpen (text : List Char) : Prop :=
  ∃ front high, text = front ++ ['%', high] ∧ isAsciiHexdigit high = true

theorem endsOpen_concat {front : List Char} {c : Char} :
    EndsOpen (front ++ [c]) ↔ front.getLast? = some '%' ∧ isAsciiHexdigit c = true := by
  constructor
  · rintro ⟨front', high, heq, hhigh⟩
    obtain ⟨rfl, hlast⟩ := List.append_inj' (heq.trans (List.append_cons _ _ _)) rfl
    cases hlast
    exact ⟨List.getLast?_concat, hhigh⟩
  · rintro ⟨hsign, hc⟩
    obtain ⟨front', rfl⟩ := List.getLast?_eq_some_iff.mp hsign
    exact ⟨front', c, (List.append_cons _ _ _).symm, hc⟩

theorem not_endsOpen_of_length {text : List Char} (h : text.length < 2) : ¬ EndsOpen text := by
  rintro ⟨front, high, rfl, -⟩
  rw [List.length_append] at h
  exact absurd h (Nat.not_lt.mpr (Nat.le_add_left 2 _))

theorem isWordByteAt_append {before : List Char} {c : Char} {rest : List Char} :
    isWordByteAt (before ++ c :: rest) before.length = true ↔
      isWordByte c = true ∧ ¬ EndsOpen before := by
  have hword : ((before ++ c :: rest)[before.length]?).any
      (fun c => c.isAlphanum || c == '_') = isWordByte c := by simp [isWordByte]
  rw [isWordByteAt, hword, Bool.and_eq_true]
  refine and_congr_right fun _ => ?_
  by_cases hlength : before.length < 2
  · have hnot : ¬ 2 ≤ before.length := Nat.not_le.mpr hlength
    simp [not_endsOpen_of_length hlength, hnot]
  · have hlength := Nat.not_lt.mp hlength
    obtain ⟨front, pair, hpair, rfl⟩ :
        ∃ front pair : List Char, pair.length = 2 ∧ before = front ++ pair :=
      ⟨before.take (before.length - 2), before.drop (before.length - 2),
        by rw [List.length_drop]; omega, (List.take_append_drop _ _).symm⟩
    obtain ⟨sign, high, rfl⟩ := List.length_eq_two.mp hpair
    have hsign : (front ++ [sign, high] ++ c :: rest)[(front ++ [sign, high]).length - 2]? =
        some sign := by
      rw [List.append_assoc, List.length_append, List.length_cons, List.length_singleton,
        Nat.add_sub_cancel, List.getElem?_append_right (Nat.le_refl _), Nat.sub_self]
      rfl
    have hhigh : (front ++ [sign, high] ++ c :: rest)[(front ++ [sign, high]).length - 1]? =
        some high := by
      rw [List.append_assoc, List.length_append, List.length_cons, List.length_singleton,
        List.getElem?_append_right (by omega)]
      simp
    rw [List.append_cons, endsOpen_concat, List.getLast?_concat, Option.some.injEq,
      ← List.append_cons, hsign, hhigh]
    simp [imp_iff_not_or]

/-- The filter sees no word character at the end of the text. -/
def FreeBefore (before : List Char) : Prop :=
  ∀ front c, before = front ++ [c] → isWordByte c = true → EndsOpen front

/-- The filter sees no word character right behind the text. -/
def FreeAfter (before after : List Char) : Prop :=
  ∀ c ∈ after.head?, isWordByte c = true → EndsOpen before

section Boundaries
variable {before after : List Char}

theorem boundary_before : (before.length = 0 ∨
      isWordByteAt (before ++ after) (before.length - 1) = false) ↔ FreeBefore before := by
  rcases List.eq_nil_or_concat' before with rfl | ⟨front, c, rfl⟩
  · simp [FreeBefore]
  · have hlength : (front ++ [c]).length ≠ 0 := by simp
    have hword : isWordByteAt (front ++ [c] ++ after) ((front ++ [c]).length - 1) = true ↔
        isWordByte c = true ∧ ¬ EndsOpen front := by
      rw [List.append_assoc, List.length_append, List.length_singleton, Nat.add_sub_cancel]
      exact isWordByteAt_append
    rw [or_iff_right hlength, ← Bool.not_eq_true, hword, not_and_not_right]
    constructor
    · intro h front' c' heq
      obtain ⟨rfl, hlast⟩ := List.append_inj' heq rfl
      cases hlast
      exact h
    · exact fun h => h front c rfl

theorem boundary_after : (before.length = (before ++ after).length ∨
      isWordByteAt (before ++ after) before.length = false) ↔ FreeAfter before after := by
  cases after with
  | nil => simp [FreeAfter]
  | cons c after =>
    have hlength : before.length ≠ (before ++ c :: after).length := by simp
    rw [or_iff_right hlength, ← Bool.not_eq_true, isWordByteAt_append, not_and_not_right]
    simp [FreeAfter]

end Boundaries

/-- What the filter looks for. -/
theorem containsWord_iff {haystack needle : List Char} :
    containsWordAsciiCaseInsensitive haystack needle = true ↔ needle = [] ∨
      ∃ before window after, haystack = before ++ window ++ after ∧
        eqIgnoreAsciiCase window needle = true ∧ FreeBefore before ∧
        FreeAfter (before ++ window) after := by
  simp only [containsWordAsciiCaseInsensitive, Bool.or_eq_true, List.isEmpty_iff, List.any_eq_true,
    Bool.and_eq_true, beq_iff_eq, Bool.not_eq_true']
  refine or_congr Iff.rfl ?_
  constructor
  · rintro ⟨⟨start, window⟩, hwindow, ⟨heq, hbefore⟩, hafter⟩
    obtain ⟨hle, hwindow⟩ := mem_windows.mp hwindow
    have hstart : (haystack.take start).length = start := by
      rw [List.length_take]
      omega
    have hrest : window ++ (haystack.drop start).drop needle.length = haystack.drop start := by
      rw [hwindow, List.take_append_drop]
    have hhaystack : haystack =
        haystack.take start ++ window ++ (haystack.drop start).drop needle.length := by
      rw [List.append_assoc, hrest, List.take_append_drop]
    have hend : (haystack.take start ++ window).length = start + needle.length := by
      rw [List.length_append, hstart, hwindow, List.length_take, List.length_drop]
      omega
    have hleft : (haystack.take start).length = 0 ∨ isWordByteAt
        (haystack.take start ++ haystack.drop start) ((haystack.take start).length - 1) = false := by
      rwa [hstart, List.take_append_drop]
    have hright : (haystack.take start ++ window).length =
          (haystack.take start ++ window ++ (haystack.drop start).drop needle.length).length ∨
        isWordByteAt (haystack.take start ++ window ++ (haystack.drop start).drop needle.length)
          (haystack.take start ++ window).length = false := by
      rw [hend, ← hhaystack]
      exact hafter
    exact ⟨_, window, _, hhaystack, heq, boundary_before.mp hleft, boundary_after.mp hright⟩
  · rintro ⟨before, window, after, rfl, heq, hbefore, hafter⟩
    have hlength : needle.length = window.length := by
      have h := congrArg List.length (beq_iff_eq.mp heq)
      rw [List.length_map, List.length_map] at h
      exact h.symm
    refine ⟨(before.length, window), ?_, ⟨heq, ?_⟩, ?_⟩
    · rw [hlength, mem_windows]
      refine ⟨?_, ?_⟩
      · simp
      · rw [List.append_assoc, List.drop_left, List.take_left]
    · rw [List.append_assoc]
      exact boundary_before.mpr hbefore
    · rw [hlength, ← List.length_append]
      exact boundary_after.mpr hafter

theorem isWordByte_of_hexdigit {c : Char} (h : isAsciiHexdigit c = true) : isWordByte c = true := by
  have hupper : c.isUpper = decide ('A'.val ≤ c.val ∧ c.val ≤ 'Z'.val) := rfl
  have hlower : c.isLower = (decide ('a'.val ≤ c.val) && decide (c.val ≤ 'z'.val)) := rfl
  have halphanum : c.isAlphanum = ((c.isUpper || c.isLower) || c.isDigit) := rfl
  have hfz : 'f'.val ≤ 'z'.val := by decide
  have hFZ : 'F'.val ≤ 'Z'.val := by decide
  simp only [isAsciiHexdigit, Bool.or_eq_true, Bool.and_eq_true, decide_eq_true_eq,
    Char.le_def] at h
  simp only [isWordByte, halphanum, hupper, hlower, Bool.or_eq_true, Bool.and_eq_true,
    decide_eq_true_eq]
  rcases h with (h | ⟨hlow, hhigh⟩) | ⟨hlow, hhigh⟩
  · exact .inl (.inr h)
  · exact .inl (.inl (.inr ⟨hlow, UInt32.le_trans hhigh hfz⟩))
  · exact .inl (.inl (.inl ⟨hlow, UInt32.le_trans hhigh hFZ⟩))

theorem toLower_ne_percent {c : Char} (h : c.isAlphanum = true) : c.toLower ≠ '%' := by
  have hall : ∀ n < 128, (Char.ofNat n).isAlphanum = true → (Char.ofNat n).toLower ≠ '%' := by
    decide
  intro hlower
  by_cases hc : c.toNat < 128
  · have hchar := hall c.toNat hc
    rw [Char.ofNat_toNat] at hchar
    exact hchar h hlower
  · rw [toLower_of_le (Nat.le_of_not_lt hc)] at hlower
    rw [hlower] at hc
    exact hc (by decide)

theorem not_percent_of_eqIgnoreAsciiCase {window needle : List Char}
    (h : eqIgnoreAsciiCase window needle = true) (hneedle : needle.all Char.isAlphanum = true) :
    '%' ∉ window := by
  intro hmem
  have hlower : '%' ∈ needle.map Char.toLower :=
    beq_iff_eq.mp h ▸ List.mem_map_of_mem (f := Char.toLower) hmem
  obtain ⟨c, hc, heq⟩ := List.mem_map.mp hlower
  exact toLower_ne_percent (List.all_eq_true.mp hneedle c hc) heq

theorem append_escape (front : List Char) (high low : Char) :
    front ++ ['%', high, low] = front ++ ['%', high] ++ [low] := by
  rw [List.append_assoc]
  rfl

theorem freeBefore_of_tokens {before : List Token}
    (h : ∀ token ∈ before.getLast?, token.isWord = false) :
    FreeBefore (before.flatMap Token.text) := by
  intro front c heq hc
  rcases List.eq_nil_or_concat' before with rfl | ⟨tokens, token, rfl⟩
  · cases front <;> cases heq
  · rw [List.flatMap_append, List.flatMap_singleton] at heq
    have hword := h token (by rw [List.getLast?_concat]; rfl)
    cases token with
    | plain d =>
      obtain ⟨-, hlast⟩ := List.append_inj' heq rfl
      cases hlast
      rw [Token.isWord, hc] at hword
      cases hword
    | escape high low hhigh hlow =>
      obtain ⟨rfl, -⟩ := List.append_inj' ((append_escape _ high low).symm.trans heq) rfl
      exact ⟨_, high, rfl, hhigh⟩

theorem head_of_tokens {after : List Token} : (∀ token ∈ after.head?, token.isWord = false) ↔
    ∀ c ∈ (after.flatMap Token.text).head?, isWordByte c = false := by
  cases after with
  | nil => simp
  | cons token after =>
    rw [List.flatMap_cons]
    cases token with
    | plain c => simp [Token.isWord, Token.text]
    | escape high low hhigh hlow => simp [Token.isWord, Token.text, isWordByte]

/-- A keyword, what comes before it and what comes after it. -/
inductive Misread : List Char → List Char → List Char → Prop
  /-- An escape begins right before the keyword and ends in it. -/
  | inEscape {front window after rest : List Char} {high low : Char}
      (hhigh : isAsciiHexdigit high = true) (hlow : isAsciiHexdigit low = true)
      (hdigits : window ++ after = high :: low :: rest)
      (hafter : ∀ c ∈ after.head?, isWordByte c = false) : Misread (front ++ ['%']) window after
  /-- A keyword of one letter behind a percent sign, in a word that goes on. -/
  | letter {front after : List Char} {c next : Char} (hc : isAsciiHexdigit c = true)
      (hnext : isWordByte next = true) : Misread (front ++ ['%']) [c] (next :: after)
  /-- A word character before the keyword stands where an escape would have its second digit. -/
  | digit {front window after : List Char} {high c : Char} (hhigh : isAsciiHexdigit high = true)
      (hc : isAsciiHexdigit c = false) (hword : isWordByte c = true)
      (hafter : ∀ c ∈ after.head?, isWordByte c = false) :
      Misread (front ++ ['%', high, c]) window after

section Misread
variable {before window after : List Char}

theorem freeBefore_percent (front : List Char) : FreeBefore (front ++ ['%']) := by
  intro front' c heq hc
  cases (List.append_inj' heq rfl).2
  cases hc

theorem freeAfter_of_head {text : List Char} (h : ∀ c ∈ after.head?, isWordByte c = false) :
    FreeAfter text after := by
  intro c hmem hc
  rw [h c hmem] at hc
  cases hc

theorem free_of_misread (h : Misread before window after) :
    FreeBefore before ∧ FreeAfter (before ++ window) after := by
  cases h with
  | inEscape hhigh hlow hdigits hafter =>
    exact ⟨freeBefore_percent _, freeAfter_of_head hafter⟩
  | letter hc hnext =>
    refine ⟨freeBefore_percent _, fun d hd _ => endsOpen_concat.mpr ⟨?_, hc⟩⟩
    exact List.getLast?_concat
  | digit hhigh hc hword hafter =>
    refine ⟨?_, freeAfter_of_head hafter⟩
    intro front c heq _
    obtain ⟨rfl, -⟩ := List.append_inj' ((append_escape _ _ _).symm.trans heq) rfl
    exact ⟨_, _, rfl, hhigh⟩

theorem endsOpen_window (hpercent : '%' ∉ window) (hne : window ≠ [])
    (h : EndsOpen (before ++ window)) :
    ∃ front c, before = front ++ ['%'] ∧ window = [c] ∧ isAsciiHexdigit c = true := by
  obtain ⟨rest, c, rfl⟩ := (List.eq_nil_or_concat' window).resolve_left hne
  rw [← List.append_assoc, endsOpen_concat] at h
  obtain ⟨hlast, hc⟩ := h
  rcases List.eq_nil_or_concat' rest with rfl | ⟨rest, d, rfl⟩
  · rw [List.append_nil] at hlast
    obtain ⟨front, hfront⟩ := List.getLast?_eq_some_iff.mp hlast
    exact ⟨front, c, hfront, rfl, hc⟩
  · rw [← List.append_assoc, List.getLast?_concat] at hlast
    cases hlast
    exact absurd (by simp) hpercent

/-- A first digit before the text is a word character to the filter. -/
theorem of_straddles {rest : List Char} (h : Straddles before rest) (hbefore : FreeBefore before) :
    ∃ front high low more, before = front ++ ['%'] ∧ rest = high :: low :: more ∧
      isAsciiHexdigit high = true ∧ isAsciiHexdigit low = true := by
  obtain ⟨front, high, low, more, hhigh, hlow, ⟨rfl, hrest⟩ | ⟨rfl, -⟩⟩ := straddles_cases h
  · exact ⟨front, high, low, more, rfl, hrest, hhigh, hlow⟩
  · have hopen := hbefore (front ++ ['%']) high (List.append_cons _ _ _)
      (isWordByte_of_hexdigit hhigh)
    cases (endsOpen_concat.mp hopen).2

/-- The last token of what comes before, where the filter sees no word end. -/
theorem digit_of_isWord {token : Token} (hbefore : FreeBefore before)
    (hlast : token ∈ (tokens before).getLast?) (hword : token.isWord = true) :
    ∃ front high c, before = front ++ ['%', high, c] ∧ isAsciiHexdigit high = true ∧
      isAsciiHexdigit c = false ∧ isWordByte c = true := by
  obtain ⟨rest, hrest⟩ := List.getLast?_eq_some_iff.mp hlast
  cases token with
  | escape high low hhigh hlow => cases hword
  | plain c =>
    have htext := flatMap_tokens before
    rw [hrest, List.flatMap_append, List.flatMap_singleton, Token.text] at htext
    obtain ⟨front, high, hfront, hhigh⟩ := hbefore _ c htext.symm hword
    have hbytes : before = front ++ ['%', high, c] := by
      rw [← htext, hfront, append_escape]
    refine ⟨front, high, c, hbytes, hhigh, ?_, hword⟩
    rw [Bool.eq_false_iff]
    intro hc
    have htokens := tokens_append (not_straddles_percent front [high, c])
    rw [← hbytes, hrest, tokens, dif_pos ⟨hhigh, hc⟩] at htokens
    cases (List.append_inj' htokens rfl).2

theorem occurs_or_misread {needle : List Char} (hpercent : '%' ∉ window) (hne : window ≠ [])
    (heq : eqIgnoreAsciiCase window needle = true) (hbefore : FreeBefore before)
    (hafter : FreeAfter (before ++ window) after) :
    OccursPlainly (before ++ window ++ after) needle ∨ Misread before window after := by
  by_cases hend : ∀ c ∈ after.head?, isWordByte c = false
  · by_cases hstraddles : Straddles before (window ++ after)
    · obtain ⟨front, high, low, more, rfl, hrest, hhigh, hlow⟩ := of_straddles hstraddles hbefore
      exact .inr (.inEscape hhigh hlow hrest hend)
    · by_cases hlast : ∀ token ∈ (tokens before).getLast?, token.isWord = false
      · refine .inl ⟨tokens before, window, tokens after, ?_, heq, hlast, ?_⟩
        · rw [List.append_assoc, tokens_append hstraddles, tokens_of_plain hpercent,
            List.append_assoc]
        · rwa [head_of_tokens, flatMap_tokens]
      · obtain ⟨token, htoken⟩ := not_forall.mp hlast
        obtain ⟨hmem, hword⟩ := Classical.not_imp.mp htoken
        obtain ⟨front, high, c, rfl, hhigh, hc, hword⟩ :=
          digit_of_isWord hbefore hmem (by simpa using hword)
        exact .inr (.digit hhigh hc hword hend)
  · cases after with
    | nil => exact absurd (by simp) hend
    | cons next after =>
      have hnext : isWordByte next = true := by simpa using hend
      obtain ⟨front, c, rfl, rfl, hc⟩ := endsOpen_window hpercent hne (hafter next rfl hnext)
      exact .inr (.letter hc hnext)

theorem free_of_occurs {haystack needle : List Char} (h : OccursPlainly haystack needle) :
    ∃ before window after, haystack = before ++ window ++ after ∧
      eqIgnoreAsciiCase window needle = true ∧ FreeBefore before ∧
      FreeAfter (before ++ window) after := by
  obtain ⟨before, window, after, htokens, heq, hbefore, hafter⟩ := h
  have hwindow : (window.map Token.plain).flatMap Token.text = window := by
    rw [List.flatMap_map]
    exact List.flatMap_singleton' window
  have htext := flatMap_tokens haystack
  rw [htokens, List.flatMap_append, List.flatMap_append, hwindow] at htext
  exact ⟨_, window, _, htext.symm, heq, freeBefore_of_tokens hbefore,
    freeAfter_of_head (head_of_tokens.mp hafter)⟩

end Misread

theorem containsWord_iff_occurs {haystack needle : List Char}
    (hneedle : needle.all Char.isAlphanum = true) :
    containsWordAsciiCaseInsensitive haystack needle = true ↔
      needle = [] ∨ OccursPlainly haystack needle ∨
        ∃ before window after, haystack = before ++ window ++ after ∧
          eqIgnoreAsciiCase window needle = true ∧ Misread before window after := by
  rw [containsWord_iff]
  constructor
  · rintro (hempty | ⟨before, window, after, rfl, heq, hbefore, hafter⟩)
    · exact .inl hempty
    · by_cases hempty : needle = []
      · exact .inl hempty
      · have hne : window ≠ [] := by
          rintro rfl
          exact hempty (List.map_eq_nil_iff.mp (beq_iff_eq.mp heq).symm)
        have hpercent := not_percent_of_eqIgnoreAsciiCase heq hneedle
        rcases occurs_or_misread hpercent hne heq hbefore hafter with hoccurs | hmisread
        · exact .inr (.inl hoccurs)
        · exact .inr (.inr ⟨before, window, after, rfl, heq, hmisread⟩)
  · rintro (hempty | hoccurs | ⟨before, window, after, rfl, heq, hmisread⟩)
    · exact .inl hempty
    · exact .inr (free_of_occurs hoccurs)
    · exact .inr ⟨before, window, after, rfl, heq, free_of_misread hmisread⟩

/-- The filter finds a keyword where there is one, and only there, unless it misreads the text. -/
theorem containsWord_exact_iff (haystack : List Char) {needle : List Char}
    (hneedle : needle.all Char.isAlphanum = true) :
    (containsWordAsciiCaseInsensitive haystack needle = true ↔ OccursPlainly haystack needle) ↔
      OccursPlainly haystack needle ∨ needle ≠ [] ∧
        ¬ ∃ before window after, haystack = before ++ window ++ after ∧
          eqIgnoreAsciiCase window needle = true ∧ Misread before window after := by
  rw [containsWord_iff_occurs hneedle]
  by_cases hoccurs : OccursPlainly haystack needle
  · simp [hoccurs]
  · simp only [hoccurs, false_or, iff_false, not_or]

theorem containsWord_exact_iff_delete :
    "delete".toList.all Char.isAlphanum = true ∧
      ((containsWordAsciiCaseInsensitive "%delete".toList "delete".toList = true ↔
          OccursPlainly "%delete".toList "delete".toList) ↔
        OccursPlainly "%delete".toList "delete".toList ∨ "delete".toList ≠ [] ∧
          ¬ ∃ before window after, "%delete".toList = before ++ window ++ after ∧
            eqIgnoreAsciiCase window "delete".toList = true ∧ Misread before window after) :=
  ⟨by decide, containsWord_exact_iff "%delete".toList (by decide)⟩

/-- The escape takes two letters of the keyword. -/
theorem not_exact_delete :
    ¬ (containsWordAsciiCaseInsensitive "%delete".toList "delete".toList = true ↔
      OccursPlainly "%delete".toList "delete".toList) := by
  have hseen : containsWordAsciiCaseInsensitive "%delete".toList "delete".toList = true := by decide
  intro h
  obtain ⟨before, window, after, htokens, heq, -⟩ := h.mp hseen
  have htoken := congrArg List.length htokens
  have hlength := congrArg List.length (beq_iff_eq.mp heq)
  have hcount : (tokens "%delete".toList).length = 5 := by decide
  have hneedle : ("delete".toList.map Char.toLower).length = 6 := by decide
  rw [hcount, List.length_append, List.length_append, List.length_map] at htoken
  rw [List.length_map, hneedle] at hlength
  omega

end Aquatic
