import Aquatic.Common.IpBan
import Aquatic.Lib.Text

/-!
# The request filter

Patterns are ASCII, so that windows of bytes are windows of characters.
-/

namespace Aquatic
open Text
set_option autoImplicit false

inductive FilterResult where
  | allowed
  | blockedSqlInjection
  | blockedPathTraversal
  | blockedCrawler
  | blockedPrivateIp
  | blockedMissingUserAgent
  deriving DecidableEq, Repr

structure RequestFilterConfig where
  filterSqlInjection : Bool
  filterPathTraversal : Bool
  filterCrawlers : Bool
  filterPrivateIps : Bool
  filterMissingUserAgent : Bool
  deriving DecidableEq, Repr

/-- Keywords are matched on word boundaries, everything else as it stands. -/
def sqlInjectionPatterns : List (List Char) :=
  ["--".toList, "/*".toList, "*/".toList, "union".toList, "select".toList, "insert".toList,
    "delete".toList, "update".toList, "drop".toList, "exec".toList, "execute".toList, "xp_".toList,
    "sp_".toList]

def pathTraversalPatterns : List (List Char) :=
  ["../".toList, "..\\".toList, "%2e%2e".toList, "%252e".toList, "..%2f".toList, "..%5c".toList]

def crawlerUserAgents : List (List Char) :=
  ["bot".toList, "crawler".toList, "spider".toList, "scraper".toList, "python-requests".toList,
    "python-urllib".toList, "curl".toList, "wget".toList, "httpie".toList, "go-http-client".toList]

def eqIgnoreAsciiCase (a b : List Char) : Bool := a.map Char.toLower == b.map Char.toLower

def containsAsciiCaseInsensitive (haystack needle : List Char) : Bool :=
  needle.isEmpty || (windows needle.length haystack).any fun (_, window) =>
    eqIgnoreAsciiCase window needle

def isAsciiHexdigit (c : Char) : Bool :=
  c.isDigit || ('a' ≤ c && c ≤ 'f') || ('A' ≤ c && c ≤ 'F')

/-- The digit that ends a percent escape is none of the next word. -/
def isWordByteAt (haystack : List Char) (index : Nat) : Bool :=
  (haystack[index]?).any (fun c => c.isAlphanum || c == '_') &&
    !(2 ≤ index && haystack[index - 2]? == some '%' &&
      (haystack[index - 1]?).any isAsciiHexdigit)

def containsWordAsciiCaseInsensitive (haystack needle : List Char) : Bool :=
  needle.isEmpty || (windows needle.length haystack).any fun (start, window) =>
    eqIgnoreAsciiCase window needle && (start == 0 || !isWordByteAt haystack (start - 1)) &&
      (start + needle.length == haystack.length ||
        !isWordByteAt haystack (start + needle.length))

def matchesPattern (haystack pattern : List Char) : Bool :=
  if pattern.all Char.isAlphanum then containsWordAsciiCaseInsensitive haystack pattern
  else containsAsciiCaseInsensitive haystack pattern

def isSqlInjection (uri : List Char) : Bool :=
  sqlInjectionPatterns.any fun pattern => matchesPattern uri pattern

def isPathTraversal (uri : List Char) : Bool :=
  pathTraversalPatterns.any fun pattern => containsAsciiCaseInsensitive uri pattern

def isCrawler (userAgent : Option (List Char)) : Bool :=
  userAgent.any fun ua =>
    crawlerUserAgents.any fun pattern => containsAsciiCaseInsensitive ua pattern

def checkRequestWithConfig (uri : List Char) (userAgent : Option (List Char))
    (config : RequestFilterConfig) : FilterResult :=
  if config.filterSqlInjection && isSqlInjection uri then .blockedSqlInjection
  else if config.filterPathTraversal && isPathTraversal uri then .blockedPathTraversal
  else if config.filterCrawlers && isCrawler userAgent then .blockedCrawler
  else if userAgent.isNone && config.filterMissingUserAgent then .blockedMissingUserAgent
  else .allowed

def isAllowedWithConfig (uri : List Char) (userAgent : Option (List Char))
    (config : RequestFilterConfig) : Bool :=
  checkRequestWithConfig uri userAgent config == .allowed

theorem containsAsciiCaseInsensitive_iff {haystack needle : List Char} :
    containsAsciiCaseInsensitive haystack needle = true ↔
      needle.map Char.toLower <:+: haystack.map Char.toLower := by
  simp only [containsAsciiCaseInsensitive, eqIgnoreAsciiCase, Bool.or_eq_true,
    List.isEmpty_iff, List.any_eq_true, beq_iff_eq]
  constructor
  · rintro (rfl | ⟨⟨start, window⟩, hwindow, heq⟩)
    · exact List.nil_infix
    · rw [← heq]
      exact (infix_of_mem_windows hwindow).map _
  · intro h
    obtain ⟨part, hpart, heq⟩ := List.infix_map_iff.mp h
    have hlength : needle.length = part.length := by
      rw [← List.length_map (f := Char.toLower), heq, List.length_map]
    obtain ⟨start, hstart⟩ := exists_mem_windows hpart
    rw [← hlength] at hstart
    exact .inr ⟨(start, part), hstart, heq.symm⟩

theorem infix_of_matchesPattern {haystack pattern : List Char}
    (h : matchesPattern haystack pattern = true) :
    pattern.map Char.toLower <:+: haystack.map Char.toLower := by
  apply containsAsciiCaseInsensitive_iff.mp
  unfold matchesPattern at h
  split at h
  · simp only [containsWordAsciiCaseInsensitive, containsAsciiCaseInsensitive, Bool.or_eq_true,
      List.any_eq_true, Bool.and_eq_true] at h ⊢
    rcases h with h | ⟨window, hwindow, ⟨heq, -⟩, -⟩
    · exact .inl h
    · exact .inr ⟨window, hwindow, heq⟩
  · exact h

def privateIpRanges : List IpRange :=
  [⟨.v4 ⟨#v[0, 0, 0, 0]⟩, 8, by decide⟩,
    ⟨.v4 ⟨#v[10, 0, 0, 0]⟩, 8, by decide⟩,
    ⟨.v4 ⟨#v[100, 64, 0, 0]⟩, 10, by decide⟩,
    ⟨.v4 ⟨#v[127, 0, 0, 0]⟩, 8, by decide⟩,
    ⟨.v4 ⟨#v[169, 254, 0, 0]⟩, 16, by decide⟩,
    ⟨.v4 ⟨#v[172, 16, 0, 0]⟩, 12, by decide⟩,
    ⟨.v4 ⟨#v[192, 168, 0, 0]⟩, 16, by decide⟩,
    ⟨.v4 ⟨#v[198, 18, 0, 0]⟩, 15, by decide⟩,
    ⟨.v4 ⟨#v[224, 0, 0, 0]⟩, 4, by decide⟩,
    ⟨.v4 ⟨#v[240, 0, 0, 0]⟩, 4, by decide⟩,
    ⟨.v6 ⟨#v[0, 0, 0, 0, 0, 0, 0, 0, 0, 0, 0, 0, 0, 0, 0, 0]⟩, 128, by decide⟩,
    ⟨.v6 ⟨#v[0, 0, 0, 0, 0, 0, 0, 0, 0, 0, 0, 0, 0, 0, 0, 1]⟩, 128, by decide⟩,
    ⟨.v6 ⟨#v[0xfc, 0, 0, 0, 0, 0, 0, 0, 0, 0, 0, 0, 0, 0, 0, 0]⟩, 7, by decide⟩,
    ⟨.v6 ⟨#v[0xfe, 0x80, 0, 0, 0, 0, 0, 0, 0, 0, 0, 0, 0, 0, 0, 0]⟩, 10, by decide⟩,
    ⟨.v6 ⟨#v[0xff, 0, 0, 0, 0, 0, 0, 0, 0, 0, 0, 0, 0, 0, 0, 0]⟩, 8, by decide⟩]

def checkIp (ip : IpAddr) : FilterResult :=
  if privateIpRanges.any fun range => range.contains (canonicalIp ip) then .blockedPrivateIp
  else .allowed

def isIpAllowed (ip : IpAddr) : Bool := checkIp ip == .allowed

end Aquatic
