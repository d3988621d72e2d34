import Mathlib.Data.List.Basic

/-!
# Texts

Texts are lists of characters. They are cut at positions, at separators and at
white space; numbers are written and read in decimal.
-/

namespace Text
set_option autoImplicit false

-- these look at the characters of the text, and not at all characters there are
section Decisions
variable (text : List Char) (p : Char → Prop) [DecidablePred p]

instance decidableForallMem : Decidable (∀ c ∈ text, p c) := List.decidableBAll p text

instance decidableExistsMem : Decidable (∃ c ∈ text, p c) := List.decidableBEx p text

end Decisions

/-- Only ASCII characters have another lower case. -/
theorem toLower_of_le {c : Char} (h : 0x80 ≤ c.toNat) : c.toLower = c := by
  have hupper : ¬ (c.val ≥ 'A'.val ∧ c.val ≤ 'Z'.val) := by
    rintro ⟨-, hZ⟩
    have hle : c.toNat ≤ 90 := hZ
    omega
  exact dif_neg hupper

section Slices
variable {α : Type}

/-- `str::get` of the range `start..stop`. -/
def slice (text : List α) (start stop : Nat) : Option (List α) :=
  if start ≤ stop ∧ stop ≤ text.length then some ((text.drop start).take (stop - start)) else none

theorem slice_append (before field after : List α) {start stop : Nat} (hstart : start = before.length)
    (hstop : stop = before.length + field.length) :
    slice (before ++ (field ++ after)) start stop = some field := by
  subst hstart hstop
  rw [slice, if_pos (by simp), List.drop_left, Nat.add_sub_cancel_left,
    List.take_left]

/-- The parts of length `n`, each with its position. -/
def windows (n : Nat) (text : List α) : List (Nat × List α) :=
  (List.range (text.length + 1 - n)).map fun start => (start, (text.drop start).take n)

theorem mem_windows {n : Nat} {text window : List α} {start : Nat} :
    (start, window) ∈ windows n text ↔
      start + n ≤ text.length ∧ window = (text.drop start).take n := by
  simp only [windows, List.mem_map, List.mem_range, Prod.mk.injEq]
  constructor
  · rintro ⟨i, hi, rfl, rfl⟩
    exact ⟨by omega, rfl⟩
  · rintro ⟨hle, rfl⟩
    exact ⟨start, by omega, rfl, rfl⟩

theorem infix_of_mem_windows {n : Nat} {text window : List α} {start : Nat}
    (h : (start, window) ∈ windows n text) : window <:+: text := by
  rw [(mem_windows.mp h).2]
  exact (List.take_prefix n _).isInfix.trans (List.drop_suffix start text).isInfix

theorem exists_mem_windows {text part : List α} (h : part <:+: text) :
    ∃ start, (start, part) ∈ windows part.length text := by
  obtain ⟨before, after, rfl⟩ := h
  refine ⟨before.length, mem_windows.mpr ⟨by simp, ?_⟩⟩
  rw [List.append_assoc, List.drop_left, List.take_left]

/-- A part in which the separator does not occur is on one of its sides. -/
theorem infix_of_separated {c : α} {part before after : List α} (hc : c ∉ part)
    (h : part <:+: before ++ c :: after) : part <:+: before ∨ part <:+: after := by
  have hfront : ∀ {front : List α}, front ≠ [] → front <+: c :: after → c ∈ front := by
    intro front hne hfront
    cases front with
    | nil => exact absurd rfl hne
    | cons d front =>
      obtain ⟨rfl, -⟩ := List.cons_prefix_cons.mp hfront
      exact List.mem_cons_self
  rw [List.infix_append_iff] at h
  rcases h with h | h | ⟨left, right, rfl, hleft, hright⟩
  · exact .inl h
  · rcases List.infix_cons_iff.mp h with h | h
    · by_cases hnil : part = []
      · rw [hnil]
        exact .inl (List.nil_infix)
      · exact absurd (hfront hnil h) hc
    · exact .inr h
  · by_cases hnil : right = []
    · rw [hnil, List.append_nil]
      exact .inl hleft.isInfix
    · exact absurd (List.mem_append_right left (hfront hnil hright)) hc

end Slices

section Separators
variable {α : Type} [DecidableEq α]

/-- `split_once`: what is before and after the first occurrence of a separator. -/
def splitOnce (sep : List α) : List α → Option (List α × List α)
  | [] => none
  | c :: text =>
    if sep.isPrefixOf (c :: text) then some ([], (c :: text).drop sep.length)
    else (splitOnce sep text).map fun (before, after) => (c :: before, after)

/-- `split_whitespace`: the longest runs of characters that are no white space. -/
def splitWhitespace (white : α → Bool) (text : List α) : List (List α) :=
  (text.splitOnP white).filter fun part => !part.isEmpty

theorem splitOnce_of_not_mem {c : α} {before : List α} (h : c ∉ before) (after : List α) :
    splitOnce [c] (before ++ c :: after) = some (before, after) := by
  induction before with
  | nil => simp [splitOnce]
  | cons d before ih =>
    rw [List.mem_cons, not_or] at h
    have hne : ([c].isPrefixOf (d :: (before ++ c :: after))) = false := by simp [List.isPrefixOf, h.1]
    rw [List.cons_append, splitOnce, hne, ih h.2]
    rfl

/-- Nothing of a text that the separator cannot begin in comes after it. -/
theorem splitOnce_append_cons {c : α} {sep front : List α} (h : c ∉ front) (rest : List α) :
    splitOnce (c :: sep) (front ++ rest) =
      (splitOnce (c :: sep) rest).map fun (before, after) => (front ++ before, after) := by
  induction front with
  | nil =>
    rw [List.nil_append]
    cases splitOnce (c :: sep) rest <;> rfl
  | cons d front ih =>
    rw [List.mem_cons, not_or] at h
    have hne : (c :: sep).isPrefixOf (d :: (front ++ rest)) = false := by
      simp [List.isPrefixOf, h.1]
    rw [List.cons_append, splitOnce, hne, ih h.2]
    cases splitOnce (c :: sep) rest <;> rfl

theorem splitOnce_eq_none {c : α} {text : List α} (h : c ∉ text) : splitOnce [c] text = none := by
  have hcut : splitOnce [c] (text ++ []) = none := splitOnce_append_cons h []
  rw [List.append_nil] at hcut
  exact hcut

/-- A text is one segment, or a segment, a separator and a text. -/
theorem splitOn_induction {motive : List α → Prop} (c : α)
    (last : ∀ segment, c ∉ segment → motive segment)
    (more : ∀ segment text, c ∉ segment → motive text → motive (segment ++ c :: text))
    (text : List α) : motive text := by
  obtain ⟨n, hn⟩ : ∃ n, text.length = n := ⟨_, rfl⟩
  induction n using Nat.strongRecOn generalizing text with
  | _ n ih =>
    by_cases hmem : c ∈ text
    · obtain ⟨segment, rest, rfl, hsegment⟩ := List.eq_append_cons_of_mem hmem
      rw [List.length_append, List.length_cons] at hn
      exact more segment rest hsegment (ih rest.length (by omega) rest rfl)
    · exact last text hmem

theorem splitOnce_isSome_iff {sep text : List α} (hsep : sep ≠ []) :
    (splitOnce sep text).isSome = true ↔ sep <:+: text := by
  induction text with
  | nil =>
    constructor
    · intro h
      cases h
    · intro h
      exact absurd (List.eq_nil_of_infix_nil h) hsep
  | cons c text ih =>
    rw [List.infix_cons_iff, splitOnce]
    by_cases hstart : sep <+: c :: text
    · rw [if_pos (List.isPrefixOf_iff_prefix.mpr hstart)]
      exact ⟨fun _ => .inl hstart, fun _ => rfl⟩
    · rw [if_neg (fun h => hstart (List.isPrefixOf_iff_prefix.mp h)), Option.isSome_map, ih]
      constructor
      · exact .inr
      · intro h
        exact h.resolve_left hstart

end Separators

section Words
variable {α : Type}

theorem splitWhitespace_cons {white : α → Bool} {c : α} (hc : white c = true) (text : List α) :
    splitWhitespace white (c :: text) = splitWhitespace white text := by
  rw [splitWhitespace, List.splitOnP_cons_eq_if_modifyHead, if_pos hc]
  rfl

theorem splitWhitespace_append_cons {white : α → Bool} {word : List α} (hword : word ≠ [])
    (hblack : ∀ c ∈ word, white c = false) {c : α} (hc : white c = true) (rest : List α) :
    splitWhitespace white (word ++ c :: rest) = word :: splitWhitespace white rest := by
  rw [splitWhitespace, List.splitOnP_append_cons_of_forall_mem hblack c hc, List.filter_cons_of_pos]
  · rfl
  · simp [hword]

theorem splitWhitespace_of_plain {white : α → Bool} {word : List α} (hword : word ≠ [])
    (hblack : ∀ c ∈ word, white c = false) : splitWhitespace white word = [word] := by
  rw [splitWhitespace, List.splitOnP_eq_singleton hblack, List.filter_cons_of_pos]
  · rfl
  · simp [hword]

theorem white_of_mem_splitOnP {white : α → Bool} {text : List α} :
    ∀ part ∈ text.splitOnP white, ∀ c ∈ part, white c = false := by
  induction text with
  | nil => simp
  | cons d text ih =>
    rw [List.splitOnP_cons_eq_if_modifyHead]
    split
    · intro part hpart
      rcases List.mem_cons.mp hpart with rfl | hpart
      · simp
      · exact ih part hpart
    · rename_i hd
      obtain ⟨first, rest, hsplit⟩ := List.exists_cons_of_ne_nil (List.splitOnP_ne_nil white text)
      rw [hsplit] at ih ⊢
      intro part hpart
      rcases List.mem_cons.mp hpart with rfl | hpart
      · intro c hc
        rcases List.mem_cons.mp hc with rfl | hc
        · exact Bool.eq_false_iff.mpr hd
        · exact ih first List.mem_cons_self c hc
      · exact ih part (List.mem_cons_of_mem _ hpart)

theorem white_of_mem_splitWhitespace {white : α → Bool} {text part : List α}
    (h : part ∈ splitWhitespace white text) : ∀ c ∈ part, white c = false :=
  white_of_mem_splitOnP part (List.mem_filter.mp h).1

end Words

/-- A carriage return belongs to the end of a line. -/
def stripCarriageReturn (line : List Char) : List Char :=
  if line.getLast? = some '\r' then line.dropLast else line

/-- What takes no notice of a carriage return at the end of a line. -/
theorem stripCarriageReturn_of_concat {β : Type} {f : List Char → β}
    (h : ∀ front, f (front ++ ['\r']) = f front) (line : List Char) :
    f (stripCarriageReturn line) = f line := by
  unfold stripCarriageReturn
  split
  · rename_i hlast
    obtain ⟨front, rfl⟩ := List.getLast?_eq_some_iff.mp hlast
    rw [List.dropLast_concat, h]
  · rfl

/-- Lines that a line feed ends, all of them. -/
def endedLines (text : List Char) : List (List Char) :=
  (text.splitOn '\n').map stripCarriageReturn

/-- `str::lines`: what comes after the last line feed is a line too, if there is anything. -/
def lines (text : List Char) : List (List Char) :=
  let parts := text.splitOn '\n'
  parts.dropLast.map stripCarriageReturn ++ parts.getLast?.toList.filter fun line => !line.isEmpty

theorem lines_nil : lines [] = [] := rfl

theorem splitOn_ne_nil (c : Char) (text : List Char) : text.splitOn c ≠ [] :=
  List.splitOnP_ne_nil _ text

theorem lines_append_cons (front back : List Char) :
    lines (front ++ '\n' :: back) = endedLines front ++ lines back := by
  have hne := splitOn_ne_nil '\n' back
  have hsplit : (front ++ '\n' :: back).splitOn '\n' = front.splitOn '\n' ++ back.splitOn '\n' :=
    List.splitOnP_append_cons front back (by decide)
  simp only [lines, endedLines, hsplit]
  rw [List.dropLast_append_of_ne_nil hne, List.getLast?_append_of_ne_nil _ hne, List.map_append,
    List.append_assoc]

example : lines "a\r\n\nb\r".toList = ["a".toList, [], "b\r".toList] := by decide

/-- The last line alone may keep its carriage return. -/
theorem filterMap_endedLines {β : Type} {f : List Char → Nat → Option β}
    (hnil : ∀ index, f [] index = none)
    (hstrip : ∀ line index, f (stripCarriageReturn line) index = f line index)
    (text : List Char) :
    (endedLines text).zipIdx.filterMap (fun line => f line.1 line.2) =
      (lines text).zipIdx.filterMap fun line => f line.1 line.2 := by
  obtain ⟨front, last, hparts⟩ :=
    (List.eq_nil_or_concat' (text.splitOn '\n')).resolve_left (splitOn_ne_nil '\n' text)
  simp only [endedLines, lines, hparts, List.map_append, List.dropLast_concat,
    List.getLast?_concat, List.zipIdx_append, List.filterMap_append]
  apply congrArg
  cases last with
  | nil => exact List.filterMap_cons_none (hnil _)
  | cons c last =>
    have hsame := hstrip (c :: last) (0 + front.length)
    have hlines : ((some (c :: last)).toList.filter fun line => !line.isEmpty) = [c :: last] := rfl
    rw [hlines, List.map_singleton, List.length_map, List.zipIdx_singleton, List.zipIdx_singleton,
      List.filterMap_cons, List.filterMap_cons, hsame]

section Plain
variable {line : List Char} (hfeed : '\n' ∉ line) (hreturn : '\r' ∉ line)

include hfeed hreturn in
theorem endedLines_of_plain : endedLines line = [line] := by
  have hlast : line.getLast? ≠ some '\r' := fun h => hreturn (List.mem_of_getLast? h)
  have hsplit : line.splitOn '\n' = [line] := by
    refine List.splitOnP_eq_singleton ?_
    intro c hc
    rw [beq_eq_false_iff_ne]
    rintro rfl
    exact hfeed hc
  rw [endedLines, hsplit, List.map_singleton, stripCarriageReturn, if_neg hlast]

include hfeed hreturn in
theorem lines_of_plain : lines (line ++ ['\n']) = [line] := by
  rw [lines_append_cons, endedLines_of_plain hfeed hreturn, lines_nil, List.append_nil]

end Plain

/-- Lines that are ended one after the other. -/
theorem lines_flatMap {texts : List (List Char)}
    (h : ∀ line ∈ texts, '\n' ∉ line ∧ '\r' ∉ line) :
    lines (texts.flatMap fun line => line ++ ['\n']) = texts := by
  induction texts with
  | nil => rfl
  | cons line texts ih =>
    obtain ⟨hfeed, hreturn⟩ := h line List.mem_cons_self
    rw [List.flatMap_cons, List.append_assoc, List.singleton_append, lines_append_cons,
      endedLines_of_plain hfeed hreturn, ih fun line hline => h line (List.mem_cons_of_mem _ hline)]
    rfl

theorem filterMap_endedLines_plain {β : Type} {f : List Char → Option β} (hnil : f [] = none)
    (hstrip : ∀ line, f (stripCarriageReturn line) = f line) (text : List Char) :
    (endedLines text).filterMap f = (lines text).filterMap f := by
  have h := filterMap_endedLines (f := fun line _ => f line) (fun _ => hnil)
    (fun line _ => hstrip line) text
  have hplain : ∀ texts : List (List Char),
      texts.zipIdx.filterMap (fun line => f line.1) = texts.filterMap f := by
    intro texts
    rw [← List.zipIdx_map_fst 0 texts, List.filterMap_map]
    simp
  rwa [hplain, hplain] at h

/-- The digits of a number, with or without a plus sign before them. -/
def parseNat (text : List Char) : Option Nat :=
  let digits := if text.head? = some '+' then text.tail else text
  if digits.isEmpty || !digits.all Char.isDigit then none else some (Nat.ofDigitChars 10 digits 0)

/-- `parse` for an unsigned type with `size` values. -/
def parseUnsigned (size : Nat) (text : List Char) : Option Nat :=
  (parseNat text).filter (· < size)

/-- `parse` for a signed type with `2 * size` values. -/
def parseSigned (size : Nat) (text : List Char) : Option Int :=
  match text with
  | '-' :: digits =>
    if digits.isEmpty || !digits.all Char.isDigit then none
    else (some (-Int.ofNat (Nat.ofDigitChars 10 digits 0))).filter (-Int.ofNat size ≤ ·)
  | _ => (parseUnsigned size text).map Int.ofNat

/-- Why `parse` fails: the digits are read from the left, and the first one that is none or
makes the number too large ends it. -/
def parseError (size : Nat) (text : List Char) : String :=
  let digits := if text.head? = some '+' then text.tail else text
  if text.isEmpty then "cannot parse integer from empty string"
  else if Nat.ofDigitChars 10 (digits.takeWhile Char.isDigit) 0 < size then
    "invalid digit found in string"
  else "number too large to fit in target type"

def parseSignedError (size : Nat) (text : List Char) : String :=
  match text with
  | '-' :: digits =>
    if Nat.ofDigitChars 10 (digits.takeWhile Char.isDigit) 0 ≤ size then
      "invalid digit found in string"
    else "number too small to fit in target type"
  | _ => parseError size text

/-- The decimal digits of a number. -/
def decimal (n : Nat) : List Char := Nat.toDigits 10 n

theorem isDigit_of_mem_decimal {n : Nat} {c : Char} (h : c ∈ decimal n) : c.isDigit = true :=
  Nat.isDigit_of_mem_toDigits (by decide) (by decide) h

theorem decimal_ne_nil (n : Nat) : decimal n ≠ [] :=
  List.ne_nil_of_length_pos Nat.length_toDigits_pos

theorem head_decimal_ne {n : Nat} {c : Char} (hc : c.isDigit = false) : (decimal n).head? ≠ some c := by
  intro h
  have hdigit := isDigit_of_mem_decimal (List.mem_of_head? h)
  rw [hc] at hdigit
  cases hdigit

theorem parseNat_decimal (n : Nat) : parseNat (decimal n) = some n := by
  have hall : (decimal n).all Char.isDigit = true :=
    List.all_eq_true.mpr fun c hc => isDigit_of_mem_decimal hc
  have hempty : (decimal n).isEmpty = false := List.isEmpty_eq_false_iff.mpr (decimal_ne_nil n)
  rw [parseNat, if_neg (head_decimal_ne (by decide))]
  simp only [hempty, hall, Bool.not_true, Bool.or_false, Bool.false_eq_true, if_false]
  rw [decimal, Nat.ofDigitChars_ten_toDigits]

theorem parseUnsigned_decimal {size n : Nat} (h : n < size) :
    parseUnsigned size (decimal n) = some n := by
  rw [parseUnsigned, parseNat_decimal]
  simp [h]

theorem parseSigned_decimal {size n : Nat} (h : n < size) :
    parseSigned size (decimal n) = some (Int.ofNat n) := by
  unfold parseSigned
  split
  · rename_i digits heq
    exact absurd (by rw [heq]; rfl) (head_decimal_ne (n := n) (c := '-') (by decide))
  · rw [parseUnsigned_decimal h]
    rfl

end Text
