import Mathlib.Data.Nat.Basic

/-!
# Addresses, instants, paths and numbers in texts
-/

namespace Aquatic
set_option autoImplicit false

structure Ipv4Addr where
  octets : Vector UInt8 4
  deriving DecidableEq, Repr

structure Ipv6Addr where
  octets : Vector UInt8 16
  deriving DecidableEq, Repr

inductive IpAddr where
  | v4 (addr : Ipv4Addr)
  | v6 (addr : Ipv6Addr)
  deriving DecidableEq, Repr

/-- The IPv4 address of an IPv4-mapped IPv6 address. -/
def canonicalIp : IpAddr → IpAddr
  | .v4 addr => .v4 addr
  | .v6 addr =>
    match addr.octets.toList with
    | [0, 0, 0, 0, 0, 0, 0, 0, 0, 0, 0xff, 0xff, a, b, c, d] => .v4 ⟨#v[a, b, c, d]⟩
    | _ => .v6 addr

theorem eq_of_canonicalIp_eq_v6 {ip : IpAddr} {addr : Ipv6Addr} (h : canonicalIp ip = .v6 addr) :
    ip = .v6 addr := by
  cases ip with
  | v4 _ => cases h
  | v6 _ =>
    simp only [canonicalIp] at h
    split at h
    · cases h
    · exact h

theorem canonicalIp_canonicalIp (ip : IpAddr) : canonicalIp (canonicalIp ip) = canonicalIp ip := by
  cases h : canonicalIp ip with
  | v4 addr => rfl
  | v6 addr =>
    obtain rfl := eq_of_canonicalIp_eq_v6 h
    exact h

structure SocketAddr where
  ip : IpAddr
  port : UInt16
  deriving DecidableEq, Repr

/-- An address in which an IPv4-mapped IPv6 address has been replaced. -/
structure CanonicalSocketAddr where
  addr : SocketAddr
  canonical : canonicalIp addr.ip = addr.ip
  deriving DecidableEq, Repr

namespace CanonicalSocketAddr

def new (addr : SocketAddr) : CanonicalSocketAddr :=
  ⟨{ addr with ip := canonicalIp addr.ip }, canonicalIp_canonicalIp addr.ip⟩

def isIpv4 (addr : CanonicalSocketAddr) : Bool :=
  match addr.addr.ip with
  | .v4 _ => true
  | .v6 _ => false

end CanonicalSocketAddr

/-- A point of the monotonic clock, in nanoseconds. -/
structure Instant where
  nanos : Nat
  deriving DecidableEq, Repr

namespace Instant

/-- `duration_since(..).as_secs()`, which is 0 for an earlier instant. -/
def secsSince (now earlier : Instant) : Nat := (now.nanos - earlier.nanos) / 1000000000

/-- The seconds of an instant are an `i64`. -/
def checkedAdd (now : Instant) (secs : UInt64) : Option Instant :=
  if now.nanos / 1000000000 + secs.toNat < 0x8000000000000000 then
    some ⟨now.nanos + secs.toNat * 1000000000⟩
  else none

/-- An instant that there is: its seconds are an `i64`. -/
def Representable (instant : Instant) : Prop := instant.nanos / 1000000000 < 0x8000000000000000

section CheckedAdd
variable {now later : Instant} {secs : UInt64}

theorem nanos_checkedAdd (h : now.checkedAdd secs = some later) :
    later.nanos = now.nanos + secs.toNat * 1000000000 := by
  obtain ⟨-, h⟩ := Option.ite_none_right_eq_some.mp h
  exact (congrArg Instant.nanos (Option.some.inj h)).symm

theorem representable_checkedAdd (h : now.checkedAdd secs = some later) : later.Representable := by
  obtain ⟨hlt, -⟩ := Option.ite_none_right_eq_some.mp h
  rw [Representable, nanos_checkedAdd h]
  omega

end CheckedAdd

end Instant

def satAdd (a b : UInt64) : UInt64 :=
  if a.toNat + b.toNat < UInt64.size then a + b else 0xffffffffffffffff

def satSub (a b : UInt64) : UInt64 := if b ≤ a then a - b else 0

def satMul (a b : UInt64) : UInt64 :=
  if a.toNat * b.toNat < UInt64.size then a * b else 0xffffffffffffffff

theorem satAdd_eq {a b : UInt64} (h : a.toNat + b.toNat < UInt64.size) :
    (satAdd a b).toNat = a.toNat + b.toNat := by
  rw [satAdd, if_pos h, UInt64.toNat_add]
  exact Nat.mod_eq_of_lt h

theorem satMul_eq {a b : UInt64} (h : a.toNat * b.toNat < UInt64.size) :
    (satMul a b).toNat = a.toNat * b.toNat := by
  rw [satMul, if_pos h, UInt64.toNat_mul]
  exact Nat.mod_eq_of_lt h

theorem satSub_eq (a b : UInt64) : (satSub a b).toNat = a.toNat - b.toNat := by
  unfold satSub
  split
  · rename_i hle
    exact UInt64.toNat_sub_of_le _ _ hle
  · rename_i hlt
    have hle : ¬ b.toNat ≤ a.toNat := fun h => hlt (UInt64.le_iff_toNat_le.mpr h)
    rw [UInt64.toNat_zero]
    omega

theorem satAdd_le (a b : UInt64) : (satAdd a b).toNat ≤ a.toNat + b.toNat := by
  by_cases h : a.toNat + b.toNat < UInt64.size
  · exact Nat.le_of_eq (satAdd_eq h)
  · exact Nat.le_of_lt (Nat.lt_of_lt_of_le (UInt64.toNat_lt_size _) (Nat.not_lt.mp h))

theorem satSub_le (a b : UInt64) : (satSub a b).toNat ≤ a.toNat := by
  rw [satSub_eq]
  exact Nat.sub_le _ _

/-- The white space that `str::trim` takes off. -/
def isWhitespace (c : Char) : Bool :=
  (9 ≤ c.toNat && c.toNat ≤ 13) || (0x2000 ≤ c.toNat && c.toNat ≤ 0x200a) ||
    [0x20, 0x85, 0xa0, 0x1680, 0x2028, 0x2029, 0x202f, 0x205f, 0x3000].contains c.toNat

def trim (text : List Char) : List Char :=
  ((text.dropWhile isWhitespace).reverse.dropWhile isWhitespace).reverse

/-- `parse::<u64>()`: digits, with or without a plus sign before them. -/
def parseU64 (text : List Char) : Option UInt64 :=
  let digits := if text.head? = some '+' then text.tail else text
  if digits.isEmpty || !digits.all Char.isDigit then none
  else
    let value := digits.foldl (fun n c => n * 10 + (c.toNat - 48)) 0
    if value < UInt64.size then some (UInt64.ofNat value) else none

structure Path where
  text : String
  deriving DecidableEq, Repr

namespace Path

inductive Component where
  | rootDir
  | curDir
  | parentDir
  | normal (name : List Char)
  deriving DecidableEq, Repr

/-- A dot counts at the start of a relative path only. -/
def components (path : Path) : List Component :=
  let parts := List.splitOn '/' path.text.toList
  let root := if path.text.toList.head? = some '/' then [Component.rootDir] else []
  let first := if parts.head? = some ['.'] then [Component.curDir] else []
  root ++ first ++ parts.filterMap fun part =>
    if part = [] ∨ part = ['.'] then none
    else if part = ['.', '.'] then some .parentDir
    else some (.normal part)

def isEmpty (path : Path) : Bool := path.text.toList.isEmpty

/-- Lexically normalize a path without touching the filesystem. -/
def normalize (path : Path) : List Component :=
  path.components.foldl (fun normalized component =>
    match component with
    | .curDir => normalized
    | .parentDir =>
      match normalized.getLast? with
      | some (.normal _) => normalized.dropLast
      | _ => normalized ++ [component]
    | _ => normalized ++ [component]) []

/-- Paths are compared resolved by the file system if both can be, and lexically otherwise. -/
def referToSameFile (canonicalize : Path → Option Path) (a b : Path) : Bool :=
  if a.components = b.components then true
  else
    match canonicalize a, canonicalize b with
    | some a, some b => a.components == b.components
    | _, _ => a.normalize == b.normalize

end Path

end Aquatic
