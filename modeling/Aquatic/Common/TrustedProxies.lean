import Aquatic.Common.IpBan
import Mathlib.Data.List.Basic

/-!
# Trusted proxies and forwarded addresses

Addresses are parsed as the standard library does it: a parser takes what it can from
the front of the text, and the whole text must have been taken in the end. The table of
networks is a library's; it is whatever answers lookups.
-/

namespace Aquatic
set_option autoImplicit false

namespace IpParser

def readGivenChar (target : Char) : List Char → Option (List Char)
  | c :: text => if c = target then some text else none
  | [] => none

/-- `char::to_digit`. -/
def toDigit (radix : Nat) (c : Char) : Option Nat :=
  let digit :=
    if '0' ≤ c ∧ c ≤ '9' then c.toNat - '0'.toNat
    else if 'a' ≤ c ∧ c ≤ 'z' then c.toNat - 'a'.toNat + 10
    else if 'A' ≤ c ∧ c ≤ 'Z' then c.toNat - 'A'.toNat + 10
    else radix
  if digit < radix then some digit else none

/-- The number that the digits spell, how many they are, and the text after them. -/
def readDigits (radix maxDigits : Nat) (result digitCount : Nat) :
    List Char → Option (Nat × Nat × List Char)
  | [] => some (result, digitCount, [])
  | c :: text =>
    match toDigit radix c with
    | some digit =>
      if digitCount + 1 > maxDigits then none
      else readDigits radix maxDigits (result * radix + digit) (digitCount + 1) text
    | none => some (result, digitCount, c :: text)

/-- A number below `bound`. -/
def readNumber (radix maxDigits bound : Nat) (allowZeroPrefix : Bool) (text : List Char) :
    Option (Nat × List Char) := do
  let hasLeadingZero := text.head? == some '0'
  let (result, digitCount, text) ← readDigits radix maxDigits 0 0 text
  if digitCount = 0 then none
  else if !allowZeroPrefix && hasLeadingZero && digitCount > 1 then none
  else if result < bound then some (result, text)
  else none

/-- All parts but the first one come after a separator. -/
def readSeparator {α : Type} (sep : Char) (index : Nat) (inner : List Char → Option (α × List Char))
    (text : List Char) : Option (α × List Char) :=
  if index > 0 then readGivenChar sep text >>= inner else inner text

def readIpv4Addr (text : List Char) : Option (Ipv4Addr × List Char) := do
  let readOctet (i : Nat) := readSeparator '.' i (readNumber 10 3 256 false)
  let (a, text) ← readOctet 0 text
  let (b, text) ← readOctet 1 text
  let (c, text) ← readOctet 2 text
  let (d, text) ← readOctet 3 text
  return (⟨#v[UInt8.ofNat a, UInt8.ofNat b, UInt8.ofNat c, UInt8.ofNat d]⟩, text)

/-- Groups of 16 bits, of which there may be so many more; the last two may be spelled
as an IPv4 address. -/
def readGroups : Nat → Nat → List Char → List Nat × Bool × List Char
  | 0, _, text => ([], false, text)
  | left + 1, i, text =>
    match if 0 < left then readSeparator ':' i readIpv4Addr text else none with
    | some (addr, text) =>
      let octet (j : Nat) := (addr.octets.toList.getD j 0).toNat
      ([octet 0 * 256 + octet 1, octet 2 * 256 + octet 3], true, text)
    | none =>
      match readSeparator ':' i (readNumber 16 4 65536 true) text with
      | some (group, text) =>
        let (groups, ipv4, text) := readGroups left (i + 1) text
        (group :: groups, ipv4, text)
      | none => ([], false, text)

def ofGroups (groups : List Nat) : Ipv6Addr :=
  ⟨Vector.ofFn fun i : Fin 16 =>
    let group := groups.getD (i.val / 2) 0
    UInt8.ofNat (if i.val % 2 = 0 then group / 256 else group % 256)⟩

def readIpv6Addr (text : List Char) : Option (Ipv6Addr × List Char) :=
  let (head, headIpv4, text) := readGroups 8 0 text
  if head.length = 8 then some (ofGroups head, text)
  else if headIpv4 then none
  else do
    let text ← readGivenChar ':' text
    let text ← readGivenChar ':' text
    -- the two colons stand for one group at least
    let (tail, _, text) := readGroups (8 - (head.length + 1)) 0 text
    return (ofGroups (head ++ List.replicate (8 - head.length - tail.length) 0 ++ tail), text)

def readIpAddr (text : List Char) : Option (IpAddr × List Char) :=
  match readIpv4Addr text with
  | some (addr, text) => some (.v4 addr, text)
  | none => (readIpv6Addr text).map fun (addr, text) => (.v6 addr, text)

end IpParser

/-- `parse::<IpAddr>()`. -/
def IpAddr.parse (text : List Char) : Option IpAddr :=
  match IpParser.readIpAddr text with
  | some (addr, []) => some addr
  | _ => none

/-- The table finds the longest network that an address is in. -/
structure IpNetworkTable where
  isEmpty : Bool
  longestMatch : IpAddr → Option IpRange

structure TrustedProxiesConfig where
  enabled : Bool
  deriving DecidableEq, Repr

structure TrustedProxies where
  table : IpNetworkTable

def TrustedProxies.isTrusted (proxies : TrustedProxies) (addr : IpAddr) : Bool :=
  if proxies.table.isEmpty then false
  else if (proxies.table.longestMatch addr).isSome then true
  else
    let canonical := canonicalIp addr
    canonical != addr && (proxies.table.longestMatch canonical).isSome

/-- One turn of the loop over the entries of a header: the leftmost valid address and the
rightmost untrusted one so far. -/
def visitForwarded (proxies : TrustedProxies) (found : Option IpAddr × Option IpAddr)
    (value : List Char) : Option IpAddr × Option IpAddr :=
  match IpAddr.parse (trim value) with
  | none => found
  | some ip =>
    let ip := canonicalIp ip
    (found.1.or (some ip), if !proxies.isTrusted ip then some ip else found.2)

/-- The client address in an `X-Forwarded-For` header. -/
def lastForwardedForIp (header : List Char) (proxies : TrustedProxies) : Option IpAddr :=
  let (leftmostValid, rightmostUntrusted) :=
    (header.splitOn ',').foldl (visitForwarded proxies) (none, none)
  rightmostUntrusted.or leftmostValid

def forwardedAddress (value : List Char) : Option IpAddr :=
  (IpAddr.parse (trim value)).map canonicalIp

/-- The valid addresses of a header, in order. -/
def forwardedAddresses (header : List Char) : List IpAddr :=
  (header.splitOn ',').filterMap forwardedAddress

namespace TrustedProxies
variable (proxies : TrustedProxies)

def lastUntrusted (addresses : List IpAddr) : Option IpAddr :=
  (addresses.filter fun ip => !proxies.isTrusted ip).getLast?

/-- The rightmost untrusted address, or the leftmost one where all are trusted. -/
def clientAddress (addresses : List IpAddr) : Option IpAddr :=
  (proxies.lastUntrusted addresses).or addresses.head?

theorem lastUntrusted_cons (ip : IpAddr) (addresses : List IpAddr) :
    proxies.lastUntrusted (ip :: addresses) = (proxies.lastUntrusted addresses).or
      (if proxies.isTrusted ip then none else some ip) := by
  unfold lastUntrusted
  cases htrusted : proxies.isTrusted ip with
  | true => simp [htrusted]
  | false => simp [htrusted, List.getLast?_cons]

theorem lastUntrusted_append (front back : List IpAddr) :
    proxies.lastUntrusted (front ++ back) =
      (proxies.lastUntrusted back).or (proxies.lastUntrusted front) := by
  rw [lastUntrusted, List.filter_append, List.getLast?_append]
  rfl

theorem not_trusted_of_lastUntrusted {addresses : List IpAddr} {ip : IpAddr}
    (h : proxies.lastUntrusted addresses = some ip) :
    ip ∈ addresses ∧ proxies.isTrusted ip = false := by
  have hmem := List.mem_filter.mp (List.mem_of_getLast? h)
  exact ⟨hmem.1, by simpa using hmem.2⟩

theorem mem_of_clientAddress {addresses : List IpAddr} {ip : IpAddr}
    (h : proxies.clientAddress addresses = some ip) : ip ∈ addresses := by
  rcases Option.or_eq_some_iff.mp h with hlast | ⟨-, hhead⟩
  · exact (proxies.not_trusted_of_lastUntrusted hlast).1
  · exact List.mem_of_head? hhead

theorem foldl_visitForwarded (values : List (List Char)) (found : Option IpAddr × Option IpAddr) :
    values.foldl (visitForwarded proxies) found =
      (found.1.or (values.filterMap forwardedAddress).head?,
        (proxies.lastUntrusted (values.filterMap forwardedAddress)).or found.2) := by
  induction values generalizing found with
  | nil => simp [lastUntrusted]
  | cons value values ih =>
    rw [List.foldl_cons, ih, List.filterMap_cons, visitForwarded, forwardedAddress]
    cases IpAddr.parse (trim value) with
    | none => rfl
    | some ip =>
      simp only [Option.map_some, List.head?_cons, lastUntrusted_cons, Option.or_assoc]
      cases proxies.isTrusted (canonicalIp ip) with
      | true => simp
      | false => simp

theorem lastForwardedForIp_eq (header : List Char) :
    lastForwardedForIp header proxies = proxies.clientAddress (forwardedAddresses header) := by
  simp [lastForwardedForIp, foldl_visitForwarded, clientAddress, forwardedAddresses]

theorem lastUntrusted_eq_none_iff {addresses : List IpAddr} :
    proxies.lastUntrusted addresses = none ↔ ∀ ip ∈ addresses, proxies.isTrusted ip = true := by
  rw [lastUntrusted, List.getLast?_eq_none_iff, List.filter_eq_nil_iff]
  simp

theorem split_of_lastUntrusted {addresses : List IpAddr} {ip : IpAddr}
    (h : proxies.lastUntrusted addresses = some ip) :
    ∃ front back, addresses = front ++ ip :: back ∧
      ∀ other ∈ back, proxies.isTrusted other = true := by
  induction addresses with
  | nil => cases h
  | cons first addresses ih =>
    rw [lastUntrusted_cons] at h
    rcases Option.or_eq_some_iff.mp h with hlast | ⟨hnone, hfirst⟩
    · obtain ⟨front, back, rfl, hback⟩ := ih hlast
      exact ⟨first :: front, back, rfl, hback⟩
    · split at hfirst
      · cases hfirst
      · cases hfirst
        exact ⟨[], addresses, rfl, proxies.lastUntrusted_eq_none_iff.mp hnone⟩

end TrustedProxies

theorem canonicalIp_of_mem_forwardedAddresses {header : List Char} {ip : IpAddr}
    (h : ip ∈ forwardedAddresses header) : canonicalIp ip = ip := by
  obtain ⟨value, -, hvalue⟩ := List.mem_filterMap.mp h
  obtain ⟨addr, -, rfl⟩ := Option.map_eq_some_iff.mp hvalue
  exact canonicalIp_canonicalIp addr

theorem forwardedAddresses_nil : forwardedAddresses [] = [] := by decide

/-- A space after the comma is trimmed. -/
theorem forwardedAddresses_cons_space (header : List Char) :
    forwardedAddresses (' ' :: header) = forwardedAddresses header := by
  obtain ⟨value, values, hvalues⟩ :=
    List.exists_cons_of_ne_nil (List.splitOnP_ne_nil (· == ',') header)
  have htrim : forwardedAddress (' ' :: value) = forwardedAddress value := rfl
  unfold forwardedAddresses List.splitOn
  rw [List.splitOnP_cons_eq_if_modifyHead, hvalues]
  simp [htrim, List.filterMap_cons]

theorem forwardedAddresses_append_comma (front back : List Char) :
    forwardedAddresses (front ++ ',' :: back) =
      forwardedAddresses front ++ forwardedAddresses back := by
  unfold forwardedAddresses List.splitOn
  rw [List.splitOnP_append_cons front back (by decide), List.filterMap_append]

theorem forwardedAddresses_append (front back : List Char) :
    forwardedAddresses (front ++ ", ".toList ++ back) =
      forwardedAddresses front ++ forwardedAddresses back := by
  rw [← forwardedAddresses_cons_space back, ← forwardedAddresses_append_comma, List.append_assoc]
  rfl

end Aquatic
