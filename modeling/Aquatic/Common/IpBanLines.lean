import Aquatic.Common.IpBlocks
import Aquatic.Common.TrustedProxies
import Aquatic.Lib.Text

/-!
# What the lines of a ban list ban

An entry stands for an address or a block. In the list the blocks of mapped
addresses have become blocks of IPv4 addresses, and a query is looked up as it is
and without the mapping.
-/

namespace Aquatic
set_option autoImplicit false

def IpAddr.fromStr (text : List Char) : Except String IpAddr :=
  match IpAddr.parse text with
  | some ip => .ok ip
  | none => .error "invalid IP address syntax"

/-- `parse::<u8>()`. -/
def parseU8 (text : List Char) : Except String UInt8 :=
  match Text.parseUnsigned 256 text with
  | some n => .ok (UInt8.ofNat n)
  | none => .error (Text.parseError 256 text)

def IpBanEntry.parse (line : List Char) : Except String IpBanEntry :=
  if line.contains '/' then
    match line.splitOn '/' with
    | [ip, prefixLen] => do
      let ip ← IpAddr.fromStr ip
      let prefixLen ← parseU8 prefixLen
      return .network ip prefixLen
    | _ => .error "Invalid CIDR format"
  else do
    let ip ← IpAddr.fromStr line
    return .address ip

namespace IpBanList

def addLine (list : IpBanList) (line : List Char) : Except String IpBanList := do
  let entry ← IpBanEntry.parse line
  list.addEntry entry

/-- Lines that cannot be added are left out. -/
def fromLines (lines : List (List Char)) : IpBanList :=
  lines.foldl (fun list line =>
    match list.addLine line with
    | .ok list => list
    | .error _ => list) empty

/-- The entries that the lines spell. -/
def entriesOf (lines : List (List Char)) : List IpBanEntry :=
  lines.filterMap fun line => (IpBanEntry.parse line).toOption

theorem fromLines_eq (lines : List (List Char)) : fromLines lines = fromEntries (entriesOf lines) := by
  suffices h : ∀ list : IpBanList, lines.foldl (fun list line =>
      match list.addLine line with
      | .ok list => list
      | .error _ => list) list =
      (entriesOf lines).foldl (fun list entry =>
        match list.addEntry entry with
        | .ok list => list
        | .error _ => list) list from h empty
  induction lines with
  | nil => exact fun _ => rfl
  | cons line lines ih =>
    intro list
    rw [List.foldl_cons, ih]
    unfold entriesOf addLine
    rw [List.filterMap_cons]
    cases IpBanEntry.parse line with
    | ok entry => rfl
    | error message => rfl

theorem fromEntries_concat (entries : List IpBanEntry) (entry : IpBanEntry) :
    fromEntries (entries ++ [entry]) =
      ((fromEntries entries).addEntry entry).toOption.getD (fromEntries entries) := by
  unfold fromEntries
  rw [List.foldl_append, List.foldl_cons, List.foldl_nil]
  cases addEntry _ entry <;> rfl

theorem mem_bannedIps {entries : List IpBanEntry} {ip : IpAddr} :
    ip ∈ (fromEntries entries).bannedIps ↔
      ∃ base, .address base ∈ entries ∧ canonicalIp base = ip := by
  induction entries using List.reverseRecOn with
  | nil => simp [fromEntries, empty]
  | append_singleton entries entry ih =>
    rw [fromEntries_concat]
    cases entry with
    | address base =>
      have hadd : (((fromEntries entries).addEntry (.address base)).toOption.getD
          (fromEntries entries)).bannedIps =
          (fromEntries entries).bannedIps.insert (canonicalIp base) := rfl
      rw [hadd, List.mem_insert_iff, ih]
      simp only [List.mem_append, List.mem_singleton, IpBanEntry.address.injEq]
      constructor
      · rintro (rfl | ⟨base', hmem, heq⟩)
        · exact ⟨base, .inr rfl, rfl⟩
        · exact ⟨base', .inl hmem, heq⟩
      · rintro ⟨base', hmem | rfl, heq⟩
        · exact .inr ⟨base', hmem, heq⟩
        · exact .inl heq.symm
    | network base prefixLen =>
      have hadd : (((fromEntries entries).addEntry (.network base prefixLen)).toOption.getD
          (fromEntries entries)).bannedIps = (fromEntries entries).bannedIps := by
        simp only [addEntry]
        split <;> rfl
      rw [hadd, ih]
      simp

theorem mem_bannedRanges {entries : List IpBanEntry} {range : IpRange} :
    range ∈ (fromEntries entries).bannedRanges ↔
      ∃ base prefixLen, .network base prefixLen ∈ entries ∧
        normalizeNetwork base prefixLen = (range.base, range.prefixLen) := by
  induction entries using List.reverseRecOn with
  | nil => simp [fromEntries, empty]
  | append_singleton entries entry ih =>
    rw [fromEntries_concat]
    cases entry with
    | address base =>
      have hadd : (((fromEntries entries).addEntry (.address base)).toOption.getD
          (fromEntries entries)).bannedRanges = (fromEntries entries).bannedRanges := rfl
      rw [hadd, ih]
      simp
    | network base prefixLen =>
      simp only [addEntry]
      split
      · rename_i hvalid
        simp only [Except.toOption, Option.getD_some, List.mem_append, List.mem_singleton, ih,
          IpBanEntry.network.injEq]
        constructor
        · rintro (⟨base', prefixLen', hmem, heq⟩ | rfl)
          · exact ⟨base', prefixLen', .inl hmem, heq⟩
          · exact ⟨base, prefixLen, .inr ⟨rfl, rfl⟩, rfl⟩
        · rintro ⟨base', prefixLen', hmem | ⟨rfl, rfl⟩, heq⟩
          · exact .inl ⟨base', prefixLen', hmem, heq⟩
          · obtain ⟨rangeBase, rangePrefixLen, hrange⟩ := range
            refine .inr ?_
            simp only [IpRange.mk.injEq]
            exact ⟨(congrArg Prod.fst heq).symm, (congrArg Prod.snd heq).symm⟩
      · rename_i hvalid
        simp only [Except.toOption, Option.getD_none, ih, List.mem_append, List.mem_singleton,
          IpBanEntry.network.injEq]
        constructor
        · rintro ⟨base', prefixLen', hmem, heq⟩
          exact ⟨base', prefixLen', .inl hmem, heq⟩
        · rintro ⟨base', prefixLen', hmem | ⟨rfl, rfl⟩, heq⟩
          · exact ⟨base', prefixLen', hmem, heq⟩
          · refine absurd ?_ hvalid
            rw [heq]
            exact range.valid

end IpBanList

namespace IpBanEntry
variable {entry : IpBanEntry} {ip : IpAddr}

/-- The addresses that the entry spells. -/
def Denotes (entry : IpBanEntry) (ip : IpAddr) : Prop :=
  match entry with
  | .address base => base = ip
  | .network base prefixLen =>
    prefixLen.toNat ≤ base.maxPrefix ∧ InBlock base prefixLen.toNat ip

/-- An address is banned with its other spelling. -/
def Bans (entry : IpBanEntry) (ip : IpAddr) : Prop :=
  ∃ ip', canonicalIp ip' = canonicalIp ip ∧ entry.Denotes ip'

/-- What of the entry is in the list. -/
def Matches (entry : IpBanEntry) (ip : IpAddr) : Prop :=
  match entry with
  | .address base => canonicalIp base = ip
  | .network base prefixLen =>
    (IpBanList.normalizeNetwork base prefixLen).2.toNat ≤
        (IpBanList.normalizeNetwork base prefixLen).1.maxPrefix ∧
      InBlock (IpBanList.normalizeNetwork base prefixLen).1
        (IpBanList.normalizeNetwork base prefixLen).2.toNat ip

/-- A block of IPv6 addresses that is too wide to be one of mapped addresses, with
the mapped spelling of the address in it. -/
def Covers (entry : IpBanEntry) (addr : Ipv4Addr) : Prop :=
  ∃ base prefixLen, entry = .network (.v6 base) prefixLen ∧ prefixLen.toNat < 96 ∧
    InBlock (.v6 base) prefixLen.toNat (.v6 addr.toIpv6Mapped)

theorem normalizeNetwork_cases (base : IpAddr) (prefixLen : UInt8) :
    (∃ addr : Ipv4Addr, base = .v6 addr.toIpv6Mapped ∧ 96 ≤ prefixLen.toNat ∧
      (prefixLen - 96).toNat = prefixLen.toNat - 96 ∧
      IpBanList.normalizeNetwork base prefixLen = (.v4 addr, prefixLen - 96)) ∨
    ((∀ addr : Ipv4Addr, base = .v6 addr.toIpv6Mapped → prefixLen.toNat < 96) ∧
      IpBanList.normalizeNetwork base prefixLen = (base, prefixLen)) := by
  cases base with
  | v4 addr => exact .inr ⟨nofun, rfl⟩
  | v6 base =>
    unfold IpBanList.normalizeNetwork
    cases hcanonical : canonicalIp (.v6 base) with
    | v6 base' =>
      refine .inr ⟨fun addr haddr => ?_, rfl⟩
      rw [haddr, canonicalIp_toIpv6Mapped] at hcanonical
      cases hcanonical
    | v4 addr =>
      obtain rfl := eq_toIpv6Mapped hcanonical
      have h96 : (96 : UInt8).toNat = 96 := rfl
      by_cases hlong : 96 ≤ prefixLen
      · have hle : 96 ≤ prefixLen.toNat := UInt8.le_iff_toNat_le.mp hlong
        exact .inl ⟨addr, rfl, hle, UInt8.toNat_sub_of_le _ _ hlong, if_pos hlong⟩
      · have hlt : prefixLen.toNat < 96 :=
          Nat.not_le.mp fun hle => hlong (UInt8.le_iff_toNat_le.mpr hle)
        exact .inr ⟨fun _ _ => hlt, if_neg hlong⟩

theorem eq_v4_of_kind {base : Ipv4Addr} (h : ip.maxPrefix = (IpAddr.v4 base).maxPrefix) :
    ∃ addr, ip = .v4 addr := by
  cases ip with
  | v4 addr => exact ⟨addr, rfl⟩
  | v6 addr => cases h

theorem eq_v6_of_kind {base : Ipv6Addr} (h : ip.maxPrefix = (IpAddr.v6 base).maxPrefix) :
    ∃ addr, ip = .v6 addr := by
  cases ip with
  | v4 addr => cases h
  | v6 addr => exact ⟨addr, rfl⟩

theorem bans_of_matches (h : entry.Matches ip ∨ entry.Matches (canonicalIp ip)) :
    entry.Bans ip := by
  have hspelling : ∃ ip', canonicalIp ip' = canonicalIp ip ∧ entry.Matches ip' := by
    rcases h with h | h
    · exact ⟨ip, rfl, h⟩
    · exact ⟨canonicalIp ip, canonicalIp_canonicalIp ip, h⟩
  obtain ⟨ip', hip, hmatches⟩ := hspelling
  cases entry with
  | address base =>
    refine ⟨base, ?_, rfl⟩
    rw [← hip, ← show canonicalIp base = ip' from hmatches, canonicalIp_canonicalIp]
  | network base prefixLen =>
    obtain ⟨hvalid, hblock⟩ := hmatches
    rcases normalizeNetwork_cases base prefixLen with
      ⟨addr, rfl, hle, hsub, heq⟩ | ⟨-, heq⟩
    · rw [heq] at hvalid hblock
      simp only [hsub] at hvalid hblock
      obtain ⟨addr', rfl⟩ := eq_v4_of_kind hblock.kind
      refine ⟨.v6 addr'.toIpv6Mapped, (canonicalIp_toIpv6Mapped addr').trans hip, ?_,
        (inBlock_mapped_iff addr hle addr').mpr hblock⟩
      simp only [IpAddr.maxPrefix] at hvalid ⊢
      omega
    · rw [heq] at hvalid hblock
      exact ⟨ip', hip, hvalid, hblock⟩

/-- A wide block is looked up in the spelling of the query only. -/
theorem matches_of_bans (h : entry.Bans ip)
    (hcovers : ∀ addr, ip = .v4 addr → ¬ entry.Covers addr) :
    entry.Matches ip ∨ entry.Matches (canonicalIp ip) := by
  obtain ⟨ip', hip, hdenotes⟩ := h
  cases entry with
  | address base =>
    obtain rfl := hdenotes
    exact .inr hip
  | network base prefixLen =>
    obtain ⟨hvalid, hblock⟩ := hdenotes
    simp only [Matches]
    rcases normalizeNetwork_cases base prefixLen with
      ⟨addr, rfl, hle, hsub, heq⟩ | ⟨hwide, heq⟩
    · obtain ⟨addr6, rfl⟩ := eq_v6_of_kind hblock.kind
      obtain ⟨addr', rfl⟩ := mapped_of_bits fun i hi => hblock.bits i (by omega)
      rw [canonicalIp_toIpv6Mapped] at hip
      right
      rw [← hip, heq]
      simp only [hsub]
      refine ⟨?_, (inBlock_mapped_iff addr hle addr').mp hblock⟩
      simp only [IpAddr.maxPrefix] at hvalid ⊢
      omega
    · rw [heq]
      cases base with
      | v4 base =>
        obtain ⟨addr, rfl⟩ := eq_v4_of_kind hblock.kind
        right
        rw [← hip]
        exact ⟨hvalid, hblock⟩
      | v6 base =>
        left
        obtain ⟨addr6, rfl⟩ := eq_v6_of_kind hblock.kind
        have hsame : ip = .v6 addr6 := by
          cases hcanonical : canonicalIp (.v6 addr6) with
          | v6 addr6' =>
            rw [hcanonical] at hip
            rw [eq_of_canonicalIp_eq_v6 hip.symm, eq_of_canonicalIp_eq_v6 hcanonical]
          | v4 addr =>
            obtain rfl := eq_toIpv6Mapped hcanonical
            rw [hcanonical] at hip
            cases ip with
            | v6 addr6' => rw [eq_toIpv6Mapped hip.symm]
            | v4 addr' =>
              obtain rfl := IpAddr.v4.inj hip
              refine absurd ⟨base, prefixLen, rfl, ?_, hblock⟩ (hcovers addr rfl)
              by_contra hlong
              obtain ⟨addr', rfl⟩ := mapped_of_bits fun i hi =>
                (hblock.bits i (by omega)).symm
              exact hlong (hwide addr' rfl)
        rw [hsame]
        exact ⟨hvalid, hblock⟩

theorem not_covers_of_matches {addr : Ipv4Addr} (h : entry.Matches (.v4 addr)) :
    ¬ entry.Covers addr := by
  rintro ⟨base, prefixLen, rfl, hlt, -⟩
  obtain ⟨-, hblock⟩ := h
  rcases normalizeNetwork_cases (.v6 base) prefixLen with ⟨_, -, hle, -⟩ | ⟨-, heq⟩
  · omega
  · rw [heq] at hblock
    cases hblock.kind

end IpBanEntry

namespace IpBanList

theorem matchesIp_iff {entries : List IpBanEntry} {ip : IpAddr} :
    (fromEntries entries).matchesIp ip = true ↔ ∃ entry ∈ entries, entry.Matches ip := by
  simp only [matchesIp, Bool.or_eq_true, List.contains_iff_mem, List.any_eq_true,
    IpRange.contains_iff]
  constructor
  · rintro (hip | ⟨range, hrange, hblock⟩)
    · obtain ⟨base, hmem, heq⟩ := mem_bannedIps.mp hip
      exact ⟨_, hmem, heq⟩
    · obtain ⟨base, prefixLen, hmem, heq⟩ := mem_bannedRanges.mp hrange
      refine ⟨_, hmem, ?_⟩
      simp only [IpBanEntry.Matches, heq]
      exact ⟨range.valid, hblock⟩
  · rintro ⟨entry, hmem, hmatches⟩
    cases entry with
    | address base => exact .inl (mem_bannedIps.mpr ⟨base, hmem, hmatches⟩)
    | network base prefixLen =>
      refine .inr ⟨⟨_, _, hmatches.1⟩, mem_bannedRanges.mpr ?_, hmatches.2⟩
      exact ⟨base, prefixLen, hmem, rfl⟩

theorem isBanned_iff {entries : List IpBanEntry} {ip : IpAddr} :
    (fromEntries entries).isBanned ip = true ↔
      ∃ entry ∈ entries, entry.Matches ip ∨ entry.Matches (canonicalIp ip) := by
  have hor : (fromEntries entries).isBanned ip = true ↔
      (fromEntries entries).matchesIp ip = true ∨
        (fromEntries entries).matchesIp (canonicalIp ip) = true := by
    simp only [isBanned, Bool.or_eq_true, Bool.and_eq_true, bne_iff_ne]
    constructor
    · exact .imp_right And.right
    · rintro (h | h)
      · exact .inl h
      · by_cases hsame : canonicalIp ip = ip
        · exact .inl (hsame ▸ h)
        · exact .inr ⟨hsame, h⟩
  rw [hor, matchesIp_iff, matchesIp_iff]
  constructor
  · rintro (⟨entry, hmem, h⟩ | ⟨entry, hmem, h⟩)
    · exact ⟨entry, hmem, .inl h⟩
    · exact ⟨entry, hmem, .inr h⟩
  · rintro ⟨entry, hmem, h | h⟩
    · exact .inl ⟨entry, hmem, h⟩
    · exact .inr ⟨entry, hmem, h⟩

/-- The list bans exactly the addresses that its lines denote, in both spellings,
and no mask is made by a shift that is too far. -/
structure Faithful (lines : List (List Char)) (ip : IpAddr) : Prop where
  meaning : (fromLines lines).isBanned ip = true ↔ ∃ entry ∈ entriesOf lines, entry.Bans ip
  mapped : ∀ addr, ip = .v4 addr →
    (fromLines lines).isBanned (.v4 addr) = (fromLines lines).isBanned (.v6 addr.toIpv6Mapped)
  shifts : ∀ range ∈ (fromLines lines).bannedRanges,
    range.prefixLen.toNat ≤ range.base.maxPrefix ∧
      (range.prefixLen ≠ 0 → range.base.maxPrefix - range.prefixLen.toNat < range.base.maxPrefix)

/-- A query for an IPv4 address, which a wide block of IPv6 addresses covers, is
answered by another line as well. -/
def OtherwiseBanned (lines : List (List Char)) (ip : IpAddr) : Prop :=
  ∀ addr, ip = .v4 addr → (∃ entry ∈ entriesOf lines, entry.Covers addr) →
    ∃ entry ∈ entriesOf lines, ¬ entry.Covers addr ∧ entry.Bans ip

theorem otherwiseBanned_v6 (lines : List (List Char)) (addr : Ipv6Addr) :
    OtherwiseBanned lines (.v6 addr) := by
  intro addr' heq
  cases heq

theorem banned_of_isBanned {lines : List (List Char)} {ip : IpAddr}
    (h : (fromLines lines).isBanned ip = true) : ∃ entry ∈ entriesOf lines, entry.Bans ip := by
  rw [fromLines_eq, isBanned_iff] at h
  obtain ⟨entry, hmem, hmatches⟩ := h
  exact ⟨entry, hmem, IpBanEntry.bans_of_matches hmatches⟩

theorem isBanned_of_banned {lines : List (List Char)} {ip : IpAddr}
    (hother : OtherwiseBanned lines ip) (h : ∃ entry ∈ entriesOf lines, entry.Bans ip) :
    (fromLines lines).isBanned ip = true := by
  rw [fromLines_eq, isBanned_iff]
  obtain ⟨entry, hmem, hbans⟩ := h
  by_cases hcovers : ∃ addr, ip = .v4 addr ∧ entry.Covers addr
  · obtain ⟨addr, rfl, hcovers⟩ := hcovers
    obtain ⟨entry', hmem', hnot, hbans'⟩ := hother addr rfl ⟨entry, hmem, hcovers⟩
    refine ⟨entry', hmem', IpBanEntry.matches_of_bans hbans' ?_⟩
    intro addr' haddr
    exact IpAddr.v4.inj haddr ▸ hnot
  · refine ⟨entry, hmem, IpBanEntry.matches_of_bans hbans ?_⟩
    exact fun addr haddr h => hcovers ⟨addr, haddr, h⟩

theorem shift_lt {range : IpRange} (h : range.prefixLen ≠ 0) :
    range.base.maxPrefix - range.prefixLen.toNat < range.base.maxPrefix := by
  have hpositive : range.prefixLen.toNat ≠ 0 := fun hzero => h (UInt8.toNat_inj.mp hzero)
  have hvalid := range.valid
  omega

/-- For every list of lines and every address: the ban list means what its lines
say, if and only if the address is not an IPv4 address that only wide blocks of
IPv6 addresses cover. -/
theorem faithful_iff (lines : List (List Char)) (ip : IpAddr) :
    Faithful lines ip ↔ OtherwiseBanned lines ip := by
  constructor
  · rintro h addr rfl ⟨entry, hmem, hcovers⟩
    obtain ⟨base, prefixLen, rfl, hlt, hblock⟩ := hcovers
    have hvalid : prefixLen.toNat ≤ (IpAddr.v6 base).maxPrefix := by
      simp only [IpAddr.maxPrefix]
      omega
    have hbanned := h.meaning.mpr
      ⟨_, hmem, .v6 addr.toIpv6Mapped, canonicalIp_toIpv6Mapped addr, hvalid, hblock⟩
    rw [fromLines_eq, isBanned_iff] at hbanned
    obtain ⟨entry', hmem', hmatches⟩ := hbanned
    have hmatches' : entry'.Matches (.v4 addr) := hmatches.elim id id
    exact ⟨entry', hmem', IpBanEntry.not_covers_of_matches hmatches',
      IpBanEntry.bans_of_matches hmatches⟩
  · intro hother
    have hmeaning : ∀ ip, OtherwiseBanned lines ip →
        ((fromLines lines).isBanned ip = true ↔ ∃ entry ∈ entriesOf lines, entry.Bans ip) :=
      fun ip hother => ⟨banned_of_isBanned, isBanned_of_banned hother⟩
    refine ⟨hmeaning ip hother, ?_, fun range _ => ⟨range.valid, shift_lt⟩⟩
    rintro addr rfl
    apply Bool.eq_iff_iff.mpr
    rw [hmeaning _ hother, hmeaning _ (otherwiseBanned_v6 lines addr.toIpv6Mapped)]
    simp only [IpBanEntry.Bans, canonicalIp_toIpv6Mapped]
    rfl

/-- A block of all IPv6 addresses bans an IPv4 address in one of its spellings. -/
theorem not_faithful_wide :
    ¬ Faithful ["::/0".toList] (.v4 ⟨#v[198, 51, 100, 9]⟩) := by
  intro h
  have hmapped := h.mapped _ rfl
  exact absurd hmapped (by decide)

end IpBanList

end Aquatic
