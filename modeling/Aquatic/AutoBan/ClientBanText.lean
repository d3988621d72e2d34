import Aquatic.AutoBan.BanListFile
import Aquatic.AutoBan.ClientBanFile

/-!
# The text of the client ban file

A line is an address and the second at which its ban expires. What is appended and what the
daily cleaning writes is read back as it was meant; one byte that is no text, and nothing
of the file is read.
-/

namespace Aquatic.AutoBan
open Collections Text
set_option autoImplicit false

def parseClientBanLine (line : List Char) : ClientBanLine :=
  let line := trim line
  if line.isEmpty || line.head? == some '#' then .skipped
  else
    let parts := splitWhitespace isWhitespace line
    match parts.head?.bind IpAddr.parse with
    | none => .skipped
    | some ip =>
      match parts.tail.head?.bind parseU64 with
      | none => .skipped
      | some expire => .ban ip expire

def clientBanLines (content : List Char) : List ClientBanLine :=
  (lines content).map parseClientBanLine

def clientBanText (ip : IpAddr) (expire : UInt64) : List Char :=
  ip.display ++ ' ' :: decimal expire.toNat

def appendClientBanLine (content : List UInt8) (ip : IpAddr) (expire : UInt64) : List UInt8 :=
  appendLine content (clientBanText ip expire)

/-- A file that is no text is not read at all. -/
def AutoBanInner.loadClientBanFile (inner : AutoBanInner) (content : List UInt8) (now : Instant)
    (nowUnix : UInt64) : Nat × AutoBanInner :=
  match fromUtf8 content with
  | some text => inner.loadClientBans (clientBanLines text) now nowUnix
  | none => (0, inner)

def clientBanComment : List Char :=
  "# auto_ban client bans, format: <ip> <expire_unix>".toList

/-- The file after the daily cleaning. -/
def cleanupClientBans (content : List UInt8) (nowUnix : UInt64) : List UInt8 :=
  match fromUtf8 content with
  | some text =>
    let kept := (parseClientBanLines (clientBanLines text) nowUnix).entries.mergeSort
      fun a b => a.1.le b.1
    utf8 (clientBanComment ++ '\n' ::
      kept.flatMap fun e => clientBanText e.1 e.2 ++ ['\n'])
  | none => content

theorem parseU64_eq (text : List Char) :
    parseU64 text = (parseUnsigned UInt64.size text).map UInt64.ofNat := by
  have hvalue : ∀ digits : List Char, digits.foldl (fun n c => n * 10 + (c.toNat - 48)) 0 =
      Nat.ofDigitChars 10 digits 0 := by
    intro digits
    rw [Nat.ofDigitChars_eq_foldl]
    simp only [Nat.mul_comm]
    rfl
  unfold parseU64 parseUnsigned parseNat
  simp only [hvalue]
  generalize (if text.head? = some '+' then text.tail else text) = digits
  split
  · rfl
  · simp only [Option.filter_some]
    split <;> simp_all

theorem parseU64_decimal (n : UInt64) : parseU64 (decimal n.toNat) = some n := by
  rw [parseU64_eq, parseUnsigned_decimal n.toNat_lt]
  simp

theorem not_white_of_isDigit {c : Char} (h : c.isDigit = true) : isWhitespace c = false := by
  have hrange : 48 ≤ c.toNat ∧ c.toNat ≤ 57 := by
    simpa [Char.isDigit, UInt32.le_iff_toNat_le] using h
  unfold isWhitespace
  simp only [Bool.or_eq_false_iff, Bool.and_eq_false_iff, decide_eq_false_iff_not,
    List.contains_eq_mem, List.mem_cons, List.not_mem_nil, or_false]
  omega

theorem parseClientBanLine_clientBanText (ip : IpAddr) (expire : UInt64) :
    parseClientBanLine (clientBanText ip expire) = .ban ip expire := by
  have hdisplay := ip.parse_display
  have hne := ne_nil_of_parse hdisplay
  have hwhite : ∀ c ∈ ip.display, isWhitespace c = false := fun _ => not_white_of_parse hdisplay
  have hdigits : ∀ c ∈ decimal expire.toNat, isWhitespace c = false :=
    fun _ hc => not_white_of_isDigit (isDigit_of_mem_decimal hc)
  have hhead : (clientBanText ip expire).head? = ip.display.head? :=
    List.head?_append_of_ne_nil _ hne
  have hlast : (clientBanText ip expire).getLast? = (decimal expire.toNat).getLast? := by
    rw [clientBanText, List.getLast?_append_of_ne_nil _ (List.cons_ne_nil _ _),
      List.getLast?_cons_of_ne_nil (decimal_ne_nil _)]
  have htrim : trim (clientBanText ip expire) = clientBanText ip expire := by
    refine trim_eq_self ?_ ?_
    · intro c hc
      rw [hhead] at hc
      exact hwhite c (List.mem_of_head? hc)
    · intro c hc
      rw [hlast] at hc
      exact hdigits c (List.mem_of_getLast? hc)
  have hcomment : ¬ ((clientBanText ip expire).isEmpty ||
      (clientBanText ip expire).head? == some '#') = true := by
    rw [hhead, Bool.or_eq_true, beq_iff_eq]
    rintro (h | h)
    · exact hne (List.append_eq_nil_iff.mp (List.isEmpty_iff.mp h)).1
    · exact not_mem_of_parse hdisplay (by decide) (List.mem_of_head? h)
  have hsplit : splitWhitespace isWhitespace (clientBanText ip expire) =
      [ip.display, decimal expire.toNat] := by
    rw [clientBanText, splitWhitespace_append_cons hne hwhite (by decide),
      splitWhitespace_of_plain (decimal_ne_nil _) hdigits]
  simp only [parseClientBanLine, htrim, if_neg hcomment, hsplit, List.head?_cons, Option.bind_some,
    hdisplay, List.tail_cons, parseU64_decimal]

theorem char_of_mem_clientBanText {ip : IpAddr} {expire : UInt64} {c : Char}
    (h : c ∈ clientBanText ip expire) : c = ' ' ∨ 46 ≤ c.toNat ∧ c.toNat ≤ 102 := by
  rcases List.mem_append.mp h with h | h
  · have hrange := range_of_mem ip.parse_display h
    exact .inr ⟨hrange.1, hrange.2.1⟩
  · rcases List.mem_cons.mp h with rfl | h
    · exact .inl rfl
    · have hdigit : 48 ≤ c.toNat ∧ c.toNat ≤ 57 := by
        simpa [Char.isDigit, UInt32.le_iff_toNat_le] using isDigit_of_mem_decimal h
      exact .inr ⟨by omega, by omega⟩

theorem plain_clientBanText (ip : IpAddr) (expire : UInt64) :
    '\n' ∉ clientBanText ip expire ∧ '\r' ∉ clientBanText ip expire := by
  constructor
  · intro h
    exact absurd (char_of_mem_clientBanText h) (by decide)
  · intro h
    exact absurd (char_of_mem_clientBanText h) (by decide)

theorem clientBanText_ne_nil (ip : IpAddr) (expire : UInt64) : clientBanText ip expire ≠ [] :=
  List.append_ne_nil_of_right_ne_nil _ (List.cons_ne_nil _ _)

theorem ascii_clientBanText {ip : IpAddr} {expire : UInt64} :
    ∀ c ∈ clientBanText ip expire, c.toNat < 0x80 := by
  intro c hc
  rcases char_of_mem_clientBanText hc with rfl | hrange
  · decide
  · omega

theorem parseClientBanLine_stripCarriageReturn (line : List Char) :
    parseClientBanLine (stripCarriageReturn line) = parseClientBanLine line := by
  refine stripCarriageReturn_of_concat ?_ line
  intro front
  simp only [parseClientBanLine, trim_concat front (show isWhitespace '\r' = true by decide)]

/-- How the last line ends does not matter to a ban. -/
theorem mem_map_endedLines {text : List Char} {ip : IpAddr} {expire : UInt64} :
    .ban ip expire ∈ (endedLines text).map parseClientBanLine ↔
      .ban ip expire ∈ clientBanLines text := by
  have hmem : ∀ texts : List (List Char), .ban ip expire ∈ texts.map parseClientBanLine ↔
      .ban ip expire ∈ texts.filterMap fun line =>
        if parseClientBanLine line = .skipped then none else some (parseClientBanLine line) := by
    intro texts
    simp only [List.mem_map, List.mem_filterMap, Option.ite_none_left_eq_some, Option.some.injEq]
    constructor
    · rintro ⟨line, hline, heq⟩
      exact ⟨line, hline, by rw [heq]; simp, heq⟩
    · rintro ⟨line, hline, -, heq⟩
      exact ⟨line, hline, heq⟩
  rw [clientBanLines, hmem, hmem, filterMap_endedLines_plain rfl]
  intro line
  rw [parseClientBanLine_stripCarriageReturn]

theorem mem_appendClientBanLine {content : List UInt8} {ip ip' : IpAddr} {expire expire' : UInt64} :
    .ban ip' expire' ∈ clientBanLines (fromUtf8Lossy (appendClientBanLine content ip expire)) ↔
      .ban ip' expire' ∈ clientBanLines (fromUtf8Lossy content) ∨
        ip' = ip ∧ expire' = expire := by
  obtain ⟨hfeed, hreturn⟩ := plain_clientBanText ip expire
  have hlast : ClientBanLine.ban ip' expire' ∈ [parseClientBanLine (clientBanText ip expire)] ↔
      ip' = ip ∧ expire' = expire := by
    rw [parseClientBanLine_clientBanText, List.mem_singleton, ClientBanLine.ban.injEq]
  rcases lines_appendLine hfeed hreturn (clientBanText_ne_nil ip expire) ascii_clientBanText
    content with h | h
  · rw [clientBanLines, appendClientBanLine, h, List.map_append, List.mem_append,
      List.map_singleton, hlast, clientBanLines]
  · rw [clientBanLines, appendClientBanLine, h, List.map_append, List.mem_append,
      List.map_singleton, hlast, mem_map_endedLines]

theorem eq_of_fromUtf8 {bytes : List UInt8} {text : List Char} (h : fromUtf8 bytes = some text) :
    text = fromUtf8Lossy bytes := by
  rw [← utf8_of_fromUtf8 h, fromUtf8Lossy_utf8]

theorem isSome_fromUtf8_append (bytes : List UInt8) {c : Char} (hc : c.toNat < 0x80)
    (text : List Char) :
    (fromUtf8 (bytes ++ utf8 (c :: text))).isSome = (fromUtf8 bytes).isSome := by
  rw [utf8_cons_ascii hc, fromUtf8_append_cons bytes (utf8 text)
    (by rw [toNat_ofNat_byte (by omega)]; exact hc), fromUtf8_utf8]
  cases fromUtf8 bytes <;> rfl

theorem isSome_fromUtf8_appendClientBanLine (content : List UInt8) (ip : IpAddr)
    (expire : UInt64) :
    (fromUtf8 (appendClientBanLine content ip expire)).isSome = (fromUtf8 content).isSome := by
  obtain ⟨c, text, htext⟩ := List.exists_cons_of_ne_nil (clientBanText_ne_nil ip expire)
  have hmem : c ∈ clientBanText ip expire := htext ▸ List.mem_cons_self
  have hc := ascii_clientBanText c hmem
  unfold appendClientBanLine appendLine
  rw [htext]
  cases fileEndsWithNewline content with
  | false => exact isSome_fromUtf8_append content (by decide) _
  | true => exact isSome_fromUtf8_append content hc _

theorem isSome_fromUtf8_cleanupClientBans (content : List UInt8) (nowUnix : UInt64) :
    (fromUtf8 (cleanupClientBans content nowUnix)).isSome = (fromUtf8 content).isSome := by
  unfold cleanupClientBans
  cases h : fromUtf8 content with
  | none => simp [h]
  | some text =>
    simp only [fromUtf8_utf8]
    rfl

theorem clientBanLines_cleanupClientBans {content : List UInt8}
    (h : (fromUtf8 content).isSome = true) (nowUnix : UInt64) :
    clientBanLines (fromUtf8Lossy (cleanupClientBans content nowUnix)) =
      cleanedLines (clientBanLines (fromUtf8Lossy content)) nowUnix := by
  obtain ⟨text, htext⟩ := Option.isSome_iff_exists.mp h
  obtain rfl := eq_of_fromUtf8 htext
  simp only [cleanupClientBans, htext, fromUtf8Lossy_utf8, cleanedLines]
  generalize (parseClientBanLines (clientBanLines (fromUtf8Lossy content)) nowUnix).entries.mergeSort
    (fun a b => a.1.le b.1) = kept
  have hcomment : endedLines clientBanComment = [clientBanComment] :=
    endedLines_of_plain (by decide) (by decide)
  have hkept : lines ((kept.map fun e => clientBanText e.1 e.2).flatMap fun line =>
      line ++ ['\n']) = kept.map fun e => clientBanText e.1 e.2 := by
    refine lines_flatMap ?_
    intro line hline
    obtain ⟨e, -, rfl⟩ := List.mem_map.mp hline
    exact plain_clientBanText e.1 e.2
  rw [List.flatMap_map] at hkept
  rw [clientBanLines, lines_append_cons, hcomment, hkept, List.map_append, List.map_map]
  refine congrArg₂ List.cons (by decide) (List.map_congr_left ?_)
  intro e _
  exact parseClientBanLine_clientBanText e.1 e.2

end Aquatic.AutoBan
