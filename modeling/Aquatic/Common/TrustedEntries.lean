import Aquatic.Common.IpBlocks
import Aquatic.Common.TrustedProxies
import Aquatic.Lib.Text

/-!
# The entries of the trusted proxies

A query is looked up as it is and without the mapping of an IPv4 address, the
networks stay as they were written. The parser of networks and the table are a
library's.
-/

namespace Aquatic
set_option autoImplicit false

/-- A network, or an address as a network of its own. -/
def parseTrustedProxyEntry (parseNetwork : List Char → Option IpRange)
    (display : IpAddr → List Char) (line : List Char) : Option IpRange :=
  match parseNetwork line with
  | some network => some network
  | none => do
    let ip ← IpAddr.parse line
    parseNetwork (display ip ++ '/' :: Text.decimal ip.maxPrefix)

/-- `table` is what the library makes of the networks. -/
def TrustedProxies.fromIter (table : List IpRange → IpNetworkTable) (networks : List IpRange) :
    TrustedProxies := ⟨table networks⟩

/-- The table finds the longest one of the networks that an address is in. -/
structure LongestPrefixMatch (table : IpNetworkTable) (networks : List IpRange) : Prop where
  isEmpty : table.isEmpty = true ↔ networks = []
  longest : ∀ {ip range}, table.longestMatch ip = some range →
    range ∈ networks ∧ range.contains ip = true ∧
      ∀ range' ∈ networks, range'.contains ip = true → range'.prefixLen ≤ range.prefixLen
  found : ∀ {ip range}, range ∈ networks → range.contains ip = true →
    (table.longestMatch ip).isSome = true

namespace IpRange

/-- The network has the address in it, where a network of mapped addresses is read as
one of IPv4 addresses. -/
def ReadsAs (range : IpRange) (addr : Ipv4Addr) : Prop :=
  InBlock range.base range.prefixLen.toNat (.v4 addr) ∨
    ∃ base : Ipv4Addr, range.base = .v6 base.toIpv6Mapped ∧ 96 ≤ range.prefixLen.toNat ∧
      InBlock (.v4 base) (range.prefixLen.toNat - 96) (.v4 addr)

theorem contains_of_readsAs {range : IpRange} {addr : Ipv4Addr} (h : range.ReadsAs addr) :
    range.contains (.v4 addr) = true ∨ range.contains (.v6 addr.toIpv6Mapped) = true := by
  rw [contains_iff, contains_iff]
  refine h.imp_right ?_
  rintro ⟨base, hbase, hle, hblock⟩
  rw [hbase]
  exact (inBlock_mapped_iff base hle addr).mpr hblock

end IpRange

namespace TrustedProxies
variable {proxies : TrustedProxies} {networks : List IpRange}

theorem isTrusted_iff (htable : LongestPrefixMatch proxies.table networks) (ip : IpAddr) :
    proxies.isTrusted ip = true ↔
      ∃ range ∈ networks, range.contains ip = true ∨ range.contains (canonicalIp ip) = true := by
  have hmatch : ∀ ip, (proxies.table.longestMatch ip).isSome = true ↔
      ∃ range ∈ networks, range.contains ip = true := by
    intro ip
    constructor
    · intro h
      obtain ⟨range, hrange⟩ := Option.isSome_iff_exists.mp h
      obtain ⟨hmem, hcontains, -⟩ := htable.longest hrange
      exact ⟨range, hmem, hcontains⟩
    · rintro ⟨range, hmem, hcontains⟩
      exact htable.found hmem hcontains
  have hempty : proxies.table.isEmpty = true → ¬ ∃ range ∈ networks,
      range.contains ip = true ∨ range.contains (canonicalIp ip) = true := by
    rintro h ⟨range, hmem, -⟩
    rw [htable.isEmpty.mp h] at hmem
    cases hmem
  unfold isTrusted
  split
  · rename_i h
    exact iff_of_false Bool.false_ne_true (hempty h)
  split
  · rename_i h
    obtain ⟨range, hmem, hcontains⟩ := (hmatch ip).mp h
    exact iff_of_true rfl ⟨range, hmem, .inl hcontains⟩
  · rename_i h
    have hdirect : ¬ ∃ range ∈ networks, range.contains ip = true := fun h' => h ((hmatch ip).mpr h')
    simp only [Bool.and_eq_true, bne_iff_ne, hmatch]
    constructor
    · rintro ⟨-, range, hmem, hcontains⟩
      exact ⟨range, hmem, .inr hcontains⟩
    · rintro ⟨range, hmem, hcontains | hcontains⟩
      · exact absurd ⟨range, hmem, hcontains⟩ hdirect
      · refine ⟨fun hsame => hdirect ⟨range, hmem, hsame ▸ hcontains⟩, range, hmem, hcontains⟩

/-- Whether an IPv4 address is trusted does not depend on its spelling, and is what
the networks say. -/
structure SpellingFree (proxies : TrustedProxies) (networks : List IpRange) (addr : Ipv4Addr) :
    Prop where
  same : proxies.isTrusted (.v4 addr) = proxies.isTrusted (.v6 addr.toIpv6Mapped)
  meaning : proxies.isTrusted (.v4 addr) = true ↔ ∃ range ∈ networks, range.ReadsAs addr

/-- A network of IPv6 addresses with the mapped spelling in it comes with one of IPv4
addresses. -/
def SpelledOut (networks : List IpRange) (addr : Ipv4Addr) : Prop :=
  (∃ range ∈ networks, range.contains (.v6 addr.toIpv6Mapped) = true) →
    ∃ range ∈ networks, range.contains (.v4 addr) = true

theorem isTrusted_v4_iff (htable : LongestPrefixMatch proxies.table networks) (addr : Ipv4Addr) :
    proxies.isTrusted (.v4 addr) = true ↔
      ∃ range ∈ networks, range.contains (.v4 addr) = true := by
  rw [isTrusted_iff htable]
  simp only [canonicalIp, or_self]

theorem isTrusted_mapped_iff (htable : LongestPrefixMatch proxies.table networks)
    (addr : Ipv4Addr) :
    proxies.isTrusted (.v6 addr.toIpv6Mapped) = true ↔
      (∃ range ∈ networks, range.contains (.v6 addr.toIpv6Mapped) = true) ∨
        ∃ range ∈ networks, range.contains (.v4 addr) = true := by
  rw [isTrusted_iff htable, canonicalIp_toIpv6Mapped]
  constructor
  · rintro ⟨range, hmem, h | h⟩
    · exact .inl ⟨range, hmem, h⟩
    · exact .inr ⟨range, hmem, h⟩
  · rintro (⟨range, hmem, h⟩ | ⟨range, hmem, h⟩)
    · exact ⟨range, hmem, .inl h⟩
    · exact ⟨range, hmem, .inr h⟩

theorem spellingFree_iff (htable : LongestPrefixMatch proxies.table networks) (addr : Ipv4Addr) :
    SpellingFree proxies networks addr ↔ SpelledOut networks addr := by
  constructor
  · intro h hmapped
    have htrusted := (isTrusted_mapped_iff htable addr).mpr (.inl hmapped)
    rw [← h.same] at htrusted
    exact (isTrusted_v4_iff htable addr).mp htrusted
  · intro hspelled
    refine ⟨Bool.eq_iff_iff.mpr ?_, ?_⟩
    · rw [isTrusted_v4_iff htable, isTrusted_mapped_iff htable]
      exact ⟨.inr, fun h => h.elim hspelled id⟩
    · rw [isTrusted_v4_iff htable]
      constructor
      · rintro ⟨range, hmem, h⟩
        exact ⟨range, hmem, .inl ((range.contains_iff _).mp h)⟩
      · rintro ⟨range, hmem, hreads⟩
        rcases IpRange.contains_of_readsAs hreads with h | h
        · exact ⟨range, hmem, h⟩
        · exact hspelled ⟨range, hmem, h⟩

/-- For all lines of a list and every IPv4 address: its spelling makes no difference,
if and only if IPv4 networks have it wherever IPv6 networks have its mapped spelling. -/
theorem trusted_spelling_iff (parseNetwork : List Char → Option IpRange)
    (display : IpAddr → List Char) (table : List IpRange → IpNetworkTable)
    (lines : List (List Char))
    (htable : LongestPrefixMatch
      (table (lines.filterMap (parseTrustedProxyEntry parseNetwork display)))
      (lines.filterMap (parseTrustedProxyEntry parseNetwork display))) (addr : Ipv4Addr) :
    SpellingFree
        (fromIter table (lines.filterMap (parseTrustedProxyEntry parseNetwork display)))
        (lines.filterMap (parseTrustedProxyEntry parseNetwork display)) addr ↔
      SpelledOut (lines.filterMap (parseTrustedProxyEntry parseNetwork display)) addr :=
  spellingFree_iff htable addr

/-- A table of one network. -/
def oneNetwork (range : IpRange) : IpNetworkTable :=
  ⟨false, fun ip => if range.contains ip then some range else none⟩

theorem longestPrefixMatch_oneNetwork (range : IpRange) :
    LongestPrefixMatch (oneNetwork range) [range] := by
  refine ⟨by simp [oneNetwork], ?_, ?_⟩
  · intro ip range' h
    obtain ⟨hcontains, rfl⟩ : range.contains ip = true ∧ range = range' := by
      simpa [oneNetwork] using h
    refine ⟨List.mem_singleton_self _, hcontains, ?_⟩
    intro range' hmem _
    rw [List.mem_singleton.mp hmem]
    exact UInt8.le_refl _
  · intro ip range' hmem hcontains
    rw [List.mem_singleton.mp hmem] at hcontains
    simp [oneNetwork, hcontains]

def tenNetwork : IpRange := ⟨.v4 ⟨#v[10, 1, 0, 0]⟩, 16, by decide⟩

def mappedTenNetwork : IpRange :=
  ⟨.v6 (Ipv4Addr.mk #v[10, 1, 0, 0]).toIpv6Mapped, 112, by decide⟩

theorem trusted_spelling_tenNetwork :
    SpellingFree (fromIter (fun _ => oneNetwork tenNetwork) [tenNetwork]) [tenNetwork]
      ⟨#v[10, 1, 2, 3]⟩ := by
  refine (trusted_spelling_iff
    (fun line => if line = "10.1.0.0/16".toList then some tenNetwork else none) (fun _ => [])
    (fun _ => oneNetwork tenNetwork) ["10.1.0.0/16".toList]
    (longestPrefixMatch_oneNetwork tenNetwork) ⟨#v[10, 1, 2, 3]⟩).mpr ?_
  exact fun _ => ⟨tenNetwork, List.mem_singleton_self _, by decide⟩

/-- A network in mapped notation trusts an IPv4 address in one of its spellings. -/
theorem spelled_mapped_only :
    LongestPrefixMatch (oneNetwork mappedTenNetwork) [mappedTenNetwork] ∧
      parseTrustedProxyEntry
          (fun line => if line = "::ffff:10.1.0.0/112".toList then some mappedTenNetwork else none)
          (fun _ => []) "::ffff:10.1.0.0/112".toList = some mappedTenNetwork ∧
      ¬ SpellingFree (fromIter (fun _ => oneNetwork mappedTenNetwork) [mappedTenNetwork])
          [mappedTenNetwork] ⟨#v[10, 1, 2, 3]⟩ := by
  refine ⟨longestPrefixMatch_oneNetwork _, rfl, fun h => ?_⟩
  exact absurd h.same (by decide)

end TrustedProxies

end Aquatic
