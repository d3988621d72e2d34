import Aquatic.Common.Utf8
import Aquatic.Common.Net
import Mathlib.Data.List.TakeWhile

/-!
# Reading list files

A file is read line by line. The end of a line is no part of its entry, and neither is what
a comment says.
-/

namespace Aquatic
open Text
set_option autoImplicit false

/-- The entry on a line, if it is not blank. -/
def listEntry (line : List Char) : Option (List Char) :=
  let line := line.dropWhile (· == '\ufeff')
  let line :=
    match splitOnce ['#'] line with
    | some (entry, _) => entry
    | none => line
  let line := trim line
  if line.isEmpty then none else some line

/-- Line numbers begin at 1. -/
def numberedEntry (line : List Char) (index : Nat) : Option (Nat × List Char) :=
  (listEntry line).map fun entry => (index + 1, entry)

def entriesOfLines (lines : List (List Char)) : List (Nat × List Char) :=
  lines.zipIdx.filterMap fun line => numberedEntry line.1 line.2

/-- The entries of a file. -/
def readListFile (bytes : List UInt8) : List (Nat × List Char) :=
  entriesOfLines (lines (fromUtf8Lossy bytes))

theorem trim_concat (text : List Char) {c : Char} (hc : isWhitespace c = true) :
    trim (text ++ [c]) = trim text := by
  unfold trim
  rw [List.dropWhile_append]
  split
  · rename_i hempty
    rw [List.isEmpty_iff.mp hempty, List.dropWhile_cons_of_pos hc]
    rfl
  · rw [List.reverse_append, List.reverse_singleton, List.singleton_append,
      List.dropWhile_cons_of_pos hc]

theorem trim_eq_self {text : List Char} (hhead : ∀ c ∈ text.head?, isWhitespace c = false)
    (hlast : ∀ c ∈ text.getLast?, isWhitespace c = false) : trim text = text := by
  have hself : ∀ {text : List Char}, (∀ c ∈ text.head?, isWhitespace c = false) →
      text.dropWhile isWhitespace = text := by
    intro text hhead
    cases text with
    | nil => rfl
    | cons c text => rw [List.dropWhile_cons_of_neg (by simp [hhead c rfl])]
  have hreverse : ∀ c ∈ text.reverse.head?, isWhitespace c = false := by
    rw [List.head?_reverse]
    exact hlast
  rw [trim, hself hhead, hself hreverse, List.reverse_reverse]

/-- What is before the first of some characters. -/
theorem cut_eq_takeWhile (c : Char) (text : List Char) :
    (match splitOnce [c] text with
      | some (entry, _) => entry
      | none => text) = text.takeWhile (· != c) := by
  induction text with
  | nil => rfl
  | cons d text ih =>
    rw [splitOnce]
    by_cases hd : d = c
    · subst hd
      simp
    · have hfront : [c].isPrefixOf (d :: text) = false := by simp [List.isPrefixOf, Ne.symm hd]
      rw [hfront, List.takeWhile_cons_of_pos (by simp [hd]), ← ih]
      cases splitOnce [c] text <;> rfl

theorem listEntry_congr {line line' : List Char}
    (h : trim ((line.dropWhile (· == '\ufeff')).takeWhile (· != '#')) =
      trim ((line'.dropWhile (· == '\ufeff')).takeWhile (· != '#'))) :
    listEntry line = listEntry line' := by
  simp only [listEntry, cut_eq_takeWhile, h]

theorem listEntry_stripCarriageReturn (line : List Char) :
    listEntry (stripCarriageReturn line) = listEntry line := by
  refine stripCarriageReturn_of_concat ?_ line
  intro front
  apply listEntry_congr
  have hdrop : (front ++ ['\r']).dropWhile (· == '\ufeff') =
      front.dropWhile (· == '\ufeff') ++ ['\r'] := by
    rw [List.dropWhile_append]
    split
    · rename_i hempty
      rw [List.isEmpty_iff.mp hempty]
      decide
    · rfl
  rw [hdrop, List.takeWhile_append]
  split
  · rename_i hall
    rw [List.IsPrefix.eq_of_length (List.takeWhile_prefix _) hall]
    exact trim_concat _ (by decide)
  · rfl

/-- A text without any of the characters that are cut off. -/
theorem listEntry_eq_self {line : List Char} (hne : line ≠ []) (hbom : '\ufeff' ∉ line)
    (hcomment : '#' ∉ line) (hwhite : ∀ c ∈ line, isWhitespace c = false) :
    listEntry line = some line := by
  have hdrop : line.dropWhile (· == '\ufeff') = line := by
    cases line with
    | nil => rfl
    | cons c line =>
      have hc : ¬ (c == '\ufeff') = true := by
        rw [beq_iff_eq]
        rintro rfl
        exact hbom List.mem_cons_self
      exact List.dropWhile_cons_of_neg hc
  have htake : line.takeWhile (· != '#') = line := by
    rw [List.takeWhile_eq_self_iff]
    intro c hc
    rw [bne_iff_ne]
    rintro rfl
    exact hcomment hc
  have htrim : trim line = line := trim_eq_self (fun c hc => hwhite c (List.mem_of_head? hc))
    fun c hc => hwhite c (List.mem_of_getLast? hc)
  simp only [listEntry, cut_eq_takeWhile, hdrop, htake, htrim]
  rw [if_neg (by simpa using hne)]

/-- How the last line ends does not matter. -/
theorem entriesOfLines_endedLines (text : List Char) :
    entriesOfLines (endedLines text) = entriesOfLines (lines text) := by
  refine filterMap_endedLines (f := numberedEntry) ?_ ?_ text
  · exact fun _ => rfl
  · intro line index
    rw [numberedEntry, listEntry_stripCarriageReturn, numberedEntry]

theorem entriesOfLines_concat (front : List (List Char)) {line entry : List Char}
    (h : listEntry line = some entry) :
    entriesOfLines (front ++ [line]) = entriesOfLines front ++ [(front.length + 1, entry)] := by
  unfold entriesOfLines
  rw [List.zipIdx_append, List.filterMap_append, List.zipIdx_singleton, Nat.zero_add]
  apply congrArg
  rw [List.filterMap_cons, numberedEntry, h]
  rfl

end Aquatic
