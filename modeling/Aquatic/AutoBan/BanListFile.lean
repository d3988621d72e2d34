import Aquatic.Common.AddressDisplay
import Aquatic.Common.IpBanLines
import Aquatic.Common.ListFile

/-!
# Appending to the ban list file

An address that is appended gets a line of its own, whatever the file ended with.
-/

namespace Aquatic

set_option autoImplicit false

namespace IpBanList

/-- A line that is no entry is left out of the list. -/
def createFromPath (bytes : List UInt8) : IpBanList :=
  fromLines ((readListFile bytes).map Prod.snd)

theorem matchesIp_insert (list : IpBanList) (ip query : IpAddr) :
    ({ list with bannedIps := list.bannedIps.insert ip } : IpBanList).matchesIp query = true ↔
      list.matchesIp query = true ∨ query = ip := by
  simp only [matchesIp, Bool.or_eq_true, List.contains_iff_mem, List.mem_insert_iff]
  constructor
  · rintro ((rfl | hmem) | hrange)
    · exact .inr rfl
    · exact .inl (.inl hmem)
    · exact .inl (.inr hrange)
  · rintro ((hmem | hrange) | rfl)
    · exact .inl (.inr hmem)
    · exact .inr hrange
    · exact .inl (.inl rfl)

/-- An address bans itself in both of its spellings. -/
theorem isBanned_concat (entries : List IpBanEntry) (ip query : IpAddr) :
    (fromEntries (entries ++ [.address ip])).isBanned query = true ↔
      (fromEntries entries).isBanned query = true ∨ canonicalIp query = canonicalIp ip := by
  have hconcat : fromEntries (entries ++ [.address ip]) = { fromEntries entries with
      bannedIps := (fromEntries entries).bannedIps.insert (canonicalIp ip) } := by
    rw [fromEntries_concat]
    rfl
  rw [hconcat]
  simp only [isBanned, Bool.or_eq_true, Bool.and_eq_true, matchesIp_insert, bne_iff_ne, ne_eq]
  constructor
  · rintro ((hmatch | rfl) | ⟨hne, hmatch | heq⟩)
    · exact .inl (.inl hmatch)
    · exact .inr (canonicalIp_canonicalIp ip)
    · exact .inl (.inr ⟨hne, hmatch⟩)
    · exact .inr heq
  · rintro ((hmatch | ⟨hne, hmatch⟩) | heq)
    · exact .inl (.inl hmatch)
    · exact .inr ⟨hne, .inl hmatch⟩
    · by_cases hne : canonicalIp query = query
      · exact .inl (.inr (hne.symm.trans heq))
      · exact .inr ⟨hne, .inr heq⟩

theorem entriesOf_concat {line : List Char} {ip : IpAddr} (h : IpAddr.parse line = some ip)
    (lines : List (List Char)) : entriesOf (lines ++ [line]) = entriesOf lines ++ [.address ip] := by
  have hslash : ¬ line.contains '/' = true := by
    rw [List.contains_iff_mem]
    exact not_mem_of_parse h (by decide)
  have hparse : IpBanEntry.parse line = .ok (.address ip) := by
    rw [IpBanEntry.parse, if_neg hslash, IpAddr.fromStr, h]
    rfl
  rw [entriesOf, List.filterMap_append, List.filterMap_cons, hparse]
  rfl

end IpBanList

end Aquatic

namespace Aquatic.AutoBan
open Text
set_option autoImplicit false

/-- An empty file needs no newline at its end. -/
def fileEndsWithNewline (content : List UInt8) : Bool :=
  match content.getLast? with
  | some byte => byte == 0x0a
  | none => true

/-- The bytes of a file after the append of a line. -/
def appendLine (content : List UInt8) (line : List Char) : List UInt8 :=
  let newline := if !fileEndsWithNewline content then ['\n'] else []
  content ++ utf8 (newline ++ line ++ ['\n'])

def appendIpLine (content : List UInt8) (ip : IpAddr) : List UInt8 := appendLine content ip.display

section Line
variable {line : List Char} (hfeed : '\n' ∉ line) (hreturn : '\r' ∉ line)

include hfeed hreturn in
/-- The line before it may get another end. -/
theorem lines_appendLine (hne : line ≠ []) (hascii : ∀ c ∈ line, c.toNat < 0x80)
    (content : List UInt8) :
    lines (fromUtf8Lossy (appendLine content line)) = lines (fromUtf8Lossy content) ++ [line] ∨
      lines (fromUtf8Lossy (appendLine content line)) =
        endedLines (fromUtf8Lossy content) ++ [line] := by
  have hline := lines_of_plain hfeed hreturn
  unfold appendLine
  cases hend : fileEndsWithNewline content with
  | false =>
    right
    have htext := fromUtf8Lossy_append_cons content (show '\n'.toNat < 0x80 by decide)
      (line ++ ['\n'])
    change lines (fromUtf8Lossy (content ++ utf8 ('\n' :: (line ++ ['\n'])))) = _
    rw [htext, lines_append_cons, hline]
  | true =>
    left
    have happend : fromUtf8Lossy (content ++ utf8 (line ++ ['\n'])) =
        fromUtf8Lossy content ++ (line ++ ['\n']) := by
      obtain ⟨c, text, rfl⟩ := List.exists_cons_of_ne_nil hne
      exact fromUtf8Lossy_append_cons content (hascii c List.mem_cons_self) _
    change lines (fromUtf8Lossy (content ++ utf8 (line ++ ['\n']))) = _
    rw [happend]
    rcases List.eq_nil_or_concat' content with rfl | ⟨before, last, rfl⟩
    · exact hline
    · have hlast : last = 0x0a := by simpa [fileEndsWithNewline] using hend
      subst hlast
      have hbefore : fromUtf8Lossy (before ++ [0x0a]) = fromUtf8Lossy before ++ ['\n'] :=
        fromUtf8Lossy_append_cons before (show '\n'.toNat < 0x80 by decide) []
      rw [hbefore, List.append_assoc, List.singleton_append, lines_append_cons, hline,
        lines_append_cons, lines_nil, List.append_nil]

end Line

theorem ascii_of_parse {text : List Char} {ip : IpAddr} (h : IpAddr.parse text = some ip) :
    ∀ c ∈ text, c.toNat < 0x80 := by
  intro c hc
  have hrange := range_of_mem h hc
  omega

theorem readListFile_appendIpLine (content : List UInt8) (ip : IpAddr) :
    ∃ number, readListFile (appendIpLine content ip) =
      readListFile content ++ [(number, ip.display)] := by
  have hdisplay := ip.parse_display
  have hentry : listEntry ip.display = some ip.display :=
    listEntry_eq_self (ne_nil_of_parse hdisplay) (not_mem_of_parse hdisplay (by decide))
      (not_mem_of_parse hdisplay (by decide)) fun _ => not_white_of_parse hdisplay
  rcases lines_appendLine (not_mem_of_parse hdisplay (by decide))
    (not_mem_of_parse hdisplay (by decide)) (ne_nil_of_parse hdisplay) (ascii_of_parse hdisplay)
    content with h | h
  · refine ⟨(lines (fromUtf8Lossy content)).length + 1, ?_⟩
    rw [readListFile, appendIpLine, h, entriesOfLines_concat _ hentry, readListFile]
  · refine ⟨(endedLines (fromUtf8Lossy content)).length + 1, ?_⟩
    rw [readListFile, appendIpLine, h, entriesOfLines_concat _ hentry, entriesOfLines_endedLines,
      readListFile]

/-- The list after the append has one entry more, and bans one address more. -/
theorem appended_ban_exact (content : List UInt8) (ip : IpAddr) :
    (∃ number, readListFile (appendIpLine content ip) =
      readListFile content ++ [(number, ip.display)]) ∧
    ∀ query, (IpBanList.createFromPath (appendIpLine content ip)).isBanned query = true ↔
      (IpBanList.createFromPath content).isBanned query = true ∨
        canonicalIp query = canonicalIp ip := by
  obtain ⟨number, hread⟩ := readListFile_appendIpLine content ip
  refine ⟨⟨number, hread⟩, ?_⟩
  intro query
  have hlist : IpBanList.createFromPath (appendIpLine content ip) = IpBanList.fromEntries
      (IpBanList.entriesOf ((readListFile content).map Prod.snd) ++ [.address ip]) := by
    rw [IpBanList.createFromPath, hread, List.map_append, IpBanList.fromLines_eq]
    exact congrArg _ (IpBanList.entriesOf_concat ip.parse_display _)
  rw [hlist, IpBanList.isBanned_concat, IpBanList.createFromPath, IpBanList.fromLines_eq]

end Aquatic.AutoBan
