import Aquatic.Common.Net

/-!
# The IP ban list

A list is loaded from the entries of a file. More entries never unban anyone.
-/

namespace Aquatic
set_option autoImplicit false

/-- The number that the bytes spell, in `w` bits. -/
def beBits (w : Nat) (bytes : List UInt8) : BitVec w :=
  bytes.foldl (fun acc byte => acc <<< 8 ||| byte.toBitVec.setWidth w) 0

def Ipv4Addr.toBits (addr : Ipv4Addr) : BitVec 32 := beBits 32 addr.octets.toList

def Ipv6Addr.toBits (addr : Ipv6Addr) : BitVec 128 := beBits 128 addr.octets.toList

def IpAddr.maxPrefix : IpAddr → Nat
  | .v4 _ => 32
  | .v6 _ => 128

/-- A network, whose prefix is not longer than an address. -/
structure IpRange where
  base : IpAddr
  prefixLen : UInt8
  valid : prefixLen.toNat ≤ base.maxPrefix
  deriving DecidableEq

namespace IpRange

def mask (w prefixLen : Nat) : BitVec w :=
  if prefixLen = 0 then 0 else BitVec.allOnes w <<< (w - prefixLen)

def contains (range : IpRange) (ip : IpAddr) : Bool :=
  match range.base, ip with
  | .v4 base, .v4 ip =>
    let mask := mask 32 range.prefixLen.toNat
    base.toBits &&& mask == ip.toBits &&& mask
  | .v6 base, .v6 ip =>
    let mask := mask 128 range.prefixLen.toNat
    base.toBits &&& mask == ip.toBits &&& mask
  | _, _ => false

end IpRange

/-- What an entry of the file says, as far as it can be parsed. -/
inductive IpBanEntry where
  | address (ip : IpAddr)
  | network (ip : IpAddr) (prefixLen : UInt8)
  deriving DecidableEq, Repr

structure IpBanList where
  bannedIps : List IpAddr
  bannedRanges : List IpRange
  deriving DecidableEq

namespace IpBanList

def empty : IpBanList := ⟨[], []⟩

/-- A network of IPv4-mapped addresses is one of IPv4 addresses. -/
def normalizeNetwork (ip : IpAddr) (prefixLen : UInt8) : IpAddr × UInt8 :=
  match ip, canonicalIp ip with
  | .v6 _, .v4 addr => if prefixLen ≥ 96 then (.v4 addr, prefixLen - 96) else (ip, prefixLen)
  | _, _ => (ip, prefixLen)

def addEntry (list : IpBanList) : IpBanEntry → Except String IpBanList
  | .network ip prefixLen =>
    let network := normalizeNetwork ip prefixLen
    if valid : network.2.toNat ≤ network.1.maxPrefix then
      .ok { list with bannedRanges := list.bannedRanges ++ [⟨network.1, network.2, valid⟩] }
    else .error s!"Prefix length {network.2} is too large for IP type"
  | .address ip => .ok { list with bannedIps := list.bannedIps.insert (canonicalIp ip) }

/-- Entries that cannot be added are left out. -/
def fromEntries (entries : List IpBanEntry) : IpBanList :=
  entries.foldl (fun list entry =>
    match list.addEntry entry with
    | .ok list => list
    | .error _ => list) empty

def matchesIp (list : IpBanList) (ip : IpAddr) : Bool :=
  list.bannedIps.contains ip || list.bannedRanges.any fun range => range.contains ip

def isBanned (list : IpBanList) (ip : IpAddr) : Bool :=
  list.matchesIp ip || (canonicalIp ip != ip && list.matchesIp (canonicalIp ip))

/-- Everything that the one list says, the other one says too. -/
structure Extends (list list' : IpBanList) : Prop where
  ips : ∀ {ip}, ip ∈ list.bannedIps → ip ∈ list'.bannedIps
  ranges : ∀ {range}, range ∈ list.bannedRanges → range ∈ list'.bannedRanges

namespace Extends
variable {list list' list'' : IpBanList}

theorem refl (list : IpBanList) : Extends list list := ⟨id, id⟩

theorem trans (h : Extends list list') (h' : Extends list' list'') : Extends list list'' :=
  ⟨fun hip => h'.ips (h.ips hip), fun hrange => h'.ranges (h.ranges hrange)⟩

theorem matchesIp (h : Extends list list') {ip : IpAddr} (hip : list.matchesIp ip = true) :
    list'.matchesIp ip = true := by
  simp only [IpBanList.matchesIp, Bool.or_eq_true, List.contains_iff_mem, List.any_eq_true] at hip ⊢
  rcases hip with hip | ⟨range, hrange, hcontains⟩
  · exact .inl (h.ips hip)
  · exact .inr ⟨range, h.ranges hrange, hcontains⟩

theorem isBanned (h : Extends list list') {ip : IpAddr} (hip : list.isBanned ip = true) :
    list'.isBanned ip = true := by
  simp only [IpBanList.isBanned, Bool.or_eq_true, Bool.and_eq_true] at hip ⊢
  rcases hip with hip | ⟨hne, hip⟩
  · exact .inl (h.matchesIp hip)
  · exact .inr ⟨hne, h.matchesIp hip⟩

end Extends

theorem extends_addEntry {list list' : IpBanList} {entry : IpBanEntry}
    (h : list.addEntry entry = .ok list') : Extends list list' := by
  cases entry with
  | address ip =>
    cases h
    exact ⟨fun hip => List.mem_insert_of_mem hip, id⟩
  | network ip prefixLen =>
    simp only [addEntry] at h
    split at h
    · cases h
      exact ⟨id, fun hrange => List.mem_append_left _ hrange⟩
    · cases h

theorem extends_fromEntries_concat (entries : List IpBanEntry) (entry : IpBanEntry) :
    Extends (fromEntries entries) (fromEntries (entries ++ [entry])) := by
  rw [fromEntries, fromEntries, List.foldl_append]
  change Extends (fromEntries entries) (match (fromEntries entries).addEntry entry with
    | .ok list => list
    | .error _ => fromEntries entries)
  cases h : (fromEntries entries).addEntry entry with
  | ok list => exact extends_addEntry h
  | error message => exact .refl _

theorem extends_fromEntries (entries more : List IpBanEntry) :
    Extends (fromEntries entries) (fromEntries (entries ++ more)) := by
  induction more generalizing entries with
  | nil =>
    rw [List.append_nil]
    exact .refl _
  | cons entry more ih =>
    rw [List.append_cons]
    exact (extends_fromEntries_concat entries entry).trans (ih (entries ++ [entry]))

/-- An address in the file is banned, in both spellings. -/
theorem isBanned_of_mem {entries : List IpBanEntry} {ip : IpAddr}
    (h : IpBanEntry.address ip ∈ entries) : (fromEntries entries).isBanned ip = true := by
  obtain ⟨before, after, rfl⟩ := List.append_of_mem h
  have hextends := extends_fromEntries (before ++ [.address ip]) after
  rw [List.append_assoc] at hextends
  apply hextends.isBanned
  have hmem : canonicalIp ip ∈ (fromEntries (before ++ [.address ip])).bannedIps := by
    rw [fromEntries, List.foldl_append]
    exact List.mem_insert_self
  have hmatches : (fromEntries (before ++ [.address ip])).matchesIp (canonicalIp ip) = true := by
    simp [matchesIp, hmem]
  by_cases hip : canonicalIp ip = ip
  · rw [hip] at hmatches
    simp [isBanned, hmatches]
  · simp [isBanned, hip, hmatches]

end IpBanList

end Aquatic
