import Aquatic.Common.AddressText
import Aquatic.Common.IpBlocks
import Aquatic.Lib.Text

/-!
# Printing addresses

Addresses are printed as the standard library does it: the longest run of zero groups of
an IPv6 address is left out, and a mapped address ends with the IPv4 address. What is
printed is parsed to the same address.
-/

namespace Aquatic
open Text
set_option autoImplicit false

namespace IpParser

/-- The number ends before a text. -/
def Ends (radix : Nat) (rest : List Char) : Prop := ∀ c ∈ rest.head?, toDigit radix c = none

theorem toDigit_digitChar {radix : Nat} (h : radix = 10 ∨ radix = 16) {n : Nat} (hn : n < radix) :
    toDigit radix n.digitChar = some n := by
  rcases h with rfl | rfl
  · revert n
    decide
  · revert n
    decide

theorem readDigits_toDigits {radix maxDigits : Nat} (hradix : radix = 10 ∨ radix = 16) (n : Nat)
    (hlen : (Nat.toDigits radix n).length ≤ maxDigits) (rest : List Char) :
    readDigits radix maxDigits 0 0 (Nat.toDigits radix n ++ rest) =
      readDigits radix maxDigits n (Nat.toDigits radix n).length rest := by
  have hbase : 1 < radix := by omega
  induction n using Nat.strong_induction_on generalizing rest with
  | _ n ih =>
    by_cases hn : n < radix
    · rw [Nat.toDigits_of_lt_base hn] at hlen ⊢
      have hone : ¬ 0 + 1 > maxDigits := Nat.not_lt.mpr hlen
      simp only [List.singleton_append, readDigits, toDigit_digitChar hradix hn, if_neg hone,
        Nat.zero_mul, Nat.zero_add, List.length_singleton]
    · have hle : radix ≤ n := Nat.not_lt.mp hn
      have hsplit := Nat.toDigits_of_base_le hbase hle
      have hdigit := toDigit_digitChar hradix (Nat.mod_lt n (by omega))
      rw [hsplit, List.length_append, List.length_singleton] at hlen
      have hmax : ¬ (Nat.toDigits radix (n / radix)).length + 1 > maxDigits := Nat.not_lt.mpr hlen
      rw [hsplit, List.append_assoc, ih (n / radix) (Nat.div_lt_self (by omega) hbase)
        (by omega), List.singleton_append]
      simp only [readDigits, hdigit, if_neg hmax, List.length_append, List.length_singleton]
      rw [Nat.div_add_mod']

theorem readDigits_of_ends {radix maxDigits result digitCount : Nat} {rest : List Char}
    (h : Ends radix rest) : readDigits radix maxDigits result digitCount rest =
      some (result, digitCount, rest) := by
  cases rest with
  | nil => rfl
  | cons c rest => simp only [readDigits, h c rfl]

theorem head_toDigits {radix : Nat} (hbase : 1 < radix) (hradix : radix ≤ 16) {n : Nat} (hn : 0 < n) :
    (Nat.toDigits radix n).head? ≠ some '0' := by
  induction n using Nat.strong_induction_on with
  | _ n ih =>
    by_cases hlt : n < radix
    · rw [Nat.toDigits_of_lt_base hlt]
      have hdigit : ∀ m : Fin 16, 0 < m.val → m.val.digitChar ≠ '0' := by decide
      intro h
      exact hdigit ⟨n, by omega⟩ hn (Option.some.inj h)
    · have hle : radix ≤ n := Nat.not_lt.mp hlt
      rw [Nat.toDigits_of_base_le hbase hle, List.head?_append_of_ne_nil _ Nat.toDigits_ne_nil]
      exact ih (n / radix) (Nat.div_lt_self hn hbase) (Nat.div_pos hle (by omega))

theorem readNumber_toDigits {radix maxDigits bound : Nat} (hradix : radix = 10 ∨ radix = 16)
    (allowZeroPrefix : Bool) {n : Nat} (hlen : (Nat.toDigits radix n).length ≤ maxDigits)
    (hbound : n < bound) {rest : List Char} (hrest : Ends radix rest) :
    readNumber radix maxDigits bound allowZeroPrefix (Nat.toDigits radix n ++ rest) =
      some (n, rest) := by
  have hdigits := readDigits_toDigits hradix n hlen rest
  rw [readDigits_of_ends hrest] at hdigits
  have hpos : (Nat.toDigits radix n).length ≠ 0 :=
    Nat.ne_of_gt Nat.length_toDigits_pos
  have hzero : ((Nat.toDigits radix n ++ rest).head? == some '0' &&
      decide ((Nat.toDigits radix n).length > 1)) = false := by
    by_cases hn : 0 < n
    · have hhead : (Nat.toDigits radix n).head? ≠ some '0' :=
        head_toDigits (by omega) (by omega) hn
      rw [List.head?_append_of_ne_nil _ Nat.toDigits_ne_nil, beq_eq_false_iff_ne.mpr hhead]
      rfl
    · obtain rfl : n = 0 := by omega
      simp
  unfold readNumber
  simp only [hdigits, Option.bind_eq_bind, Option.bind_some, if_neg hpos, Bool.and_assoc, hzero,
    Bool.and_false, Bool.false_eq_true, if_false, if_pos hbound]

theorem toDigit_separator {radix : Nat} (h : radix = 10 ∨ radix = 16) :
    toDigit radix '.' = none ∧ toDigit radix ':' = none := by
  rcases h with rfl | rfl
  · decide
  · decide

theorem ends_cons {radix : Nat} {c : Char} (h : toDigit radix c = none) (rest : List Char) :
    Ends radix (c :: rest) := by
  intro d hd
  cases hd
  exact h

end IpParser

def Ipv4Addr.display (addr : Ipv4Addr) : List Char :=
  ['.'].intercalate (addr.octets.toList.map fun octet => decimal octet.toNat)

namespace IpParser

theorem readOctet (octet : UInt8) {rest : List Char} (hrest : Ends 10 rest) :
    readNumber 10 3 256 false (decimal octet.toNat ++ rest) = some (octet.toNat, rest) :=
  readNumber_toDigits (.inl rfl) false
    ((Nat.length_toDigits_le_iff (by decide) (by decide)).mpr
      (Nat.lt_of_lt_of_le octet.toNat_lt (by decide))) octet.toNat_lt hrest

theorem readIpv4Addr_display (addr : Ipv4Addr) {rest : List Char} (hrest : Ends 10 rest) :
    readIpv4Addr (addr.display ++ rest) = some (addr, rest) := by
  obtain ⟨⟨⟨octets⟩, hlen⟩⟩ := addr
  rcases octets with _ | ⟨a, _ | ⟨b, _ | ⟨c, _ | ⟨d, _ | ⟨e, octets⟩⟩⟩⟩⟩
  case cons.cons.cons.cons.nil =>
    have hdot : ∀ more, Ends 10 ('.' :: more) := ends_cons (toDigit_separator (.inl rfl)).1
    have htext : (Ipv4Addr.mk ⟨⟨[a, b, c, d]⟩, hlen⟩).display ++ rest =
        decimal a.toNat ++ '.' :: (decimal b.toNat ++ '.' :: (decimal c.toNat ++ '.' ::
          (decimal d.toNat ++ rest))) := by
      simp [Ipv4Addr.display, List.intercalate]
    rw [htext]
    simp [readIpv4Addr, readSeparator, readGivenChar, readOctet, hdot, hrest]
  all_goals simp at hlen

end IpParser

/-- A run of groups. -/
structure Span where
  start : Nat
  len : Nat
  deriving DecidableEq, Repr

/-- The longest run of zero groups so far, and the one that is going on. -/
def visitSegment (spans : Span × Span) (segment : Nat × Nat) : Span × Span :=
  if segment.1 = 0 then
    let current : Span := ⟨if spans.2.len = 0 then segment.2 else spans.2.start, spans.2.len + 1⟩
    (if current.len > spans.1.len then current else spans.1, current)
  else (spans.1, ⟨0, 0⟩)

def longestZeros (segments : List Nat) : Span :=
  (segments.zipIdx.foldl visitSegment (⟨0, 0⟩, ⟨0, 0⟩)).1

def hex (n : Nat) : List Char := Nat.toDigits 16 n

def fmtSubslice : List Nat → List Char
  | [] => []
  | first :: tail => hex first ++ tail.flatMap fun segment => ':' :: hex segment

/-- The eight groups of 16 bits. -/
def Ipv6Addr.segments (addr : Ipv6Addr) : List Nat :=
  let octet (j : Nat) := (addr.octets.toList.getD j 0).toNat
  (List.range 8).map fun i => octet (2 * i) * 256 + octet (2 * i + 1)

def Ipv6Addr.display (addr : Ipv6Addr) : List Char :=
  match canonicalIp (.v6 addr) with
  | .v4 addr => "::ffff:".toList ++ addr.display
  | .v6 _ =>
    let segments := addr.segments
    let zeroes := longestZeros segments
    if zeroes.len > 1 then
      fmtSubslice (segments.take zeroes.start) ++ "::".toList ++
        fmtSubslice (segments.drop (zeroes.start + zeroes.len))
    else fmtSubslice segments

def IpAddr.display : IpAddr → List Char
  | .v4 addr => addr.display
  | .v6 addr => addr.display

/-- The run is in the list, and it is a run of zeros. -/
def Span.IsZeros (span : Span) (segments front back : List Nat) : Prop :=
  segments = front ++ List.replicate span.len 0 ++ back ∧
    (span.len = 0 ∨ front.length = span.start)

theorem isZeros_visitSegment {spans : Span × Span} {segments front back last : List Nat}
    (hlongest : spans.1.IsZeros segments front back) (hcurrent : spans.2.IsZeros segments last [])
    (segment : Nat) :
    (∃ front back, (visitSegment spans (segment, segments.length)).1.IsZeros
      (segments ++ [segment]) front back) ∧
      ∃ last, (visitSegment spans (segment, segments.length)).2.IsZeros
        (segments ++ [segment]) last [] := by
  have hlonger : spans.1.IsZeros (segments ++ [segment]) front (back ++ [segment]) := by
    refine ⟨?_, hlongest.2⟩
    rw [hlongest.1, List.append_assoc]
  unfold visitSegment
  by_cases hzero : segment = 0
  · subst hzero
    have hnew : ∃ last, Span.IsZeros
        ⟨if spans.2.len = 0 then segments.length else spans.2.start, spans.2.len + 1⟩
        (segments ++ [0]) last [] := by
      by_cases hlen : spans.2.len = 0
      · exact ⟨segments, by simp [hlen], .inr (if_pos hlen).symm⟩
      · refine ⟨last, ?_, .inr ?_⟩
        · rw [hcurrent.1, List.append_nil, List.append_nil, List.replicate_succ', List.append_assoc]
        · exact (hcurrent.2.resolve_left hlen).trans (if_neg hlen).symm
    simp only [if_true]
    refine ⟨?_, hnew⟩
    split
    · obtain ⟨last, hlast⟩ := hnew
      exact ⟨last, [], hlast⟩
    · exact ⟨front, back ++ [0], hlonger⟩
  · simp only [if_neg hzero]
    exact ⟨⟨front, back ++ [segment], hlonger⟩, segments ++ [segment], by simp, .inl rfl⟩

theorem isZeros_longestZeros (segments : List Nat) :
    ∃ front back, (longestZeros segments).IsZeros segments front back := by
  suffices h : (∃ front back, (segments.zipIdx.foldl visitSegment (⟨0, 0⟩, ⟨0, 0⟩)).1.IsZeros
      segments front back) ∧
      ∃ last, (segments.zipIdx.foldl visitSegment (⟨0, 0⟩, ⟨0, 0⟩)).2.IsZeros segments last [] from
    h.1
  induction segments using List.reverseRecOn with
  | nil => exact ⟨⟨[], [], rfl, .inl rfl⟩, [], rfl, .inl rfl⟩
  | append_singleton segments segment ih =>
    obtain ⟨⟨front, back, hlongest⟩, last, hcurrent⟩ := ih
    have hstep := isZeros_visitSegment hlongest hcurrent segment
    rw [List.zipIdx_append, List.foldl_append, List.zipIdx_singleton, Nat.zero_add]
    exact hstep

/-- The groups around the run. -/
theorem split_longestZeros {segments : List Nat} (h : 1 < (longestZeros segments).len) :
    segments = segments.take (longestZeros segments).start ++
      (List.replicate (longestZeros segments).len 0 ++
        segments.drop ((longestZeros segments).start + (longestZeros segments).len)) := by
  obtain ⟨front, back, hsplit, hstart⟩ := isZeros_longestZeros segments
  have hlength := hstart.resolve_left (by omega)
  generalize longestZeros segments = span at *
  subst hsplit
  rw [← hlength, List.append_assoc, List.take_left, ← List.drop_drop, List.drop_left]
  apply congrArg
  apply congrArg
  exact (List.drop_left' (List.length_replicate)).symm

namespace IpParser

theorem readNumber_of_ends {radix maxDigits bound : Nat} {allowZeroPrefix : Bool}
    {text : List Char} (h : Ends radix text) :
    readNumber radix maxDigits bound allowZeroPrefix text = none := by
  unfold readNumber
  rw [readDigits_of_ends h]
  rfl

theorem readIpv4Addr_of_ends {text : List Char} (h : Ends 10 text) : readIpv4Addr text = none := by
  have hfirst : readSeparator '.' 0 (readNumber 10 3 256 false) text = none :=
    readNumber_of_ends h
  simp [readIpv4Addr, hfirst]

/-- Nothing more, or two colons. -/
def Stop (rest : List Char) : Prop := rest = [] ∨ ∃ more, rest = ':' :: ':' :: more

/-- Nothing more, or a colon. -/
def Boundary (rest : List Char) : Prop := rest = [] ∨ ∃ more, rest = ':' :: more

theorem Boundary.ends {radix : Nat} (hradix : radix = 10 ∨ radix = 16) {rest : List Char}
    (h : Boundary rest) : Ends radix rest := by
  rcases h with rfl | ⟨more, rfl⟩
  · intro c hc
    cases hc
  · exact ends_cons (toDigit_separator hradix).2 more

theorem Stop.boundary {rest : List Char} (h : Stop rest) : Boundary rest := by
  rcases h with rfl | ⟨more, rfl⟩
  · exact .inl rfl
  · exact .inr ⟨':' :: more, rfl⟩

theorem isSome_toDigit_of_mem {n : Nat} {c : Char} (hc : c ∈ hex n) :
    (toDigit 16 c).isSome = true := by
  unfold hex at hc
  induction n using Nat.strong_induction_on with
  | _ n ih =>
    have hdigit : ∀ m, m < 16 → (toDigit 16 m.digitChar).isSome = true := by
      intro m hm
      rw [toDigit_digitChar (.inr rfl) hm]
      rfl
    by_cases hn : n < 16
    · rw [Nat.toDigits_of_lt_base hn, List.mem_singleton] at hc
      rw [hc]
      exact hdigit n hn
    · rw [Nat.toDigits_of_base_le (by decide) (Nat.not_lt.mp hn)] at hc
      rcases List.mem_append.mp hc with hc | hc
      · exact ih (n / 16) (Nat.div_lt_self (by omega) (by decide)) hc
      · rw [List.mem_singleton.mp hc]
        exact hdigit (n % 16) (Nat.mod_lt n (by decide))

theorem eq_of_readGivenChar {target : Char} {text rest : List Char}
    (h : readGivenChar target text = some rest) : text = target :: rest := by
  cases text with
  | nil => cases h
  | cons c text =>
    simp only [readGivenChar] at h
    split at h
    · rename_i hc
      cases h
      rw [hc]
    · cases h

/-- There is a dot after the digits of an IPv4 address. -/
theorem dot_of_readIpv4Addr {text : List Char} {found : Ipv4Addr × List Char}
    (h : readIpv4Addr text = some found) :
    ∃ used more, text = used ++ '.' :: more ∧ ∀ c ∈ used, (toDigit 10 c).isSome = true := by
  obtain ⟨⟨a, rest⟩, ha, h⟩ := Option.bind_eq_some_iff.mp h
  obtain ⟨⟨b, rest'⟩, hb, -⟩ := Option.bind_eq_some_iff.mp h
  obtain ⟨used, heq, hused⟩ := used_readNumber (show readNumber 10 3 256 false text = _ from ha)
  obtain ⟨more, hmore, -⟩ := Option.bind_eq_some_iff.mp
    (show (readGivenChar '.' rest >>= readNumber 10 3 256 false) = _ from hb)
  rw [eq_of_readGivenChar hmore] at heq
  exact ⟨used, more, heq, hused⟩

/-- There is none after a group. -/
theorem readIpv4Addr_hex (n : Nat) {rest : List Char} (hrest : Boundary rest) :
    readIpv4Addr (hex n ++ rest) = none := by
  by_contra hsome
  obtain ⟨found, hfound⟩ := Option.ne_none_iff_exists'.mp hsome
  obtain ⟨used, more, heq, hused⟩ := dot_of_readIpv4Addr hfound
  have hdecimal : ∀ c ∈ used, (toDigit 16 c).isSome = true := by
    intro c hc
    have hdigit := hused c hc
    unfold toDigit at hdigit ⊢
    grind
  have hleft : (hex n ++ rest).dropWhile (fun c => (toDigit 16 c).isSome) = rest := by
    rw [List.dropWhile_append_of_pos fun c hc => isSome_toDigit_of_mem hc]
    rcases hrest with rfl | ⟨more, rfl⟩
    · rfl
    · exact List.dropWhile_cons_of_neg (by decide)
  have hright : (used ++ '.' :: more).dropWhile (fun c => (toDigit 16 c).isSome) = '.' :: more := by
    rw [List.dropWhile_append_of_pos hdecimal]
    exact List.dropWhile_cons_of_neg (by decide)
  rw [heq, hright] at hleft
  rcases hrest with rfl | ⟨more', rfl⟩
  · cases hleft
  · exact absurd (List.cons.inj hleft).1 (by decide)

/-- A group and its separator. -/
theorem readGroups_hex {left i n : Nat} (hn : n < 65536) {text rest : List Char}
    (htext : text = if i > 0 then ':' :: (hex n ++ rest) else hex n ++ rest)
    (hrest : Boundary rest) :
    readGroups (left + 1) i text =
      (n :: (readGroups left (i + 1) rest).1, (readGroups left (i + 1) rest).2.1,
        (readGroups left (i + 1) rest).2.2) := by
  have hsep : ∀ {α : Type} (inner : List Char → Option (α × List Char)),
      readSeparator ':' i inner text = inner (hex n ++ rest) := by
    intro α inner
    unfold readSeparator
    subst htext
    split
    · rfl
    · rfl
  have hnumber : readNumber 16 4 65536 true (hex n ++ rest) = some (n, rest) :=
    readNumber_toDigits (.inr rfl) true
      ((Nat.length_toDigits_le_iff (by decide) (by decide)).mpr hn) hn (hrest.ends (.inr rfl))
  have hipv4 : (if 0 < left then readSeparator ':' i readIpv4Addr text else none) = none := by
    rw [hsep, readIpv4Addr_hex n hrest, ite_self]
  rw [readGroups, hipv4, hsep, hnumber]

theorem readGroups_stop (left i : Nat) {rest : List Char} (hrest : Stop rest) :
    readGroups left i rest = ([], false, rest) := by
  cases left with
  | zero => rfl
  | succ left =>
    have hnothing : ∀ {α : Type} {inner : List Char → Option (α × List Char)},
        (∀ text, Boundary text → inner text = none) → readSeparator ':' i inner rest = none := by
      intro α inner hinner
      unfold readSeparator
      split
      · rcases hrest with rfl | ⟨more, rfl⟩
        · rfl
        · exact hinner _ (.inr ⟨more, rfl⟩)
      · exact hinner _ hrest.boundary
    have hipv4 : (if 0 < left then readSeparator ':' i readIpv4Addr rest else none) = none := by
      rw [hnothing fun text htext => readIpv4Addr_of_ends (htext.ends (.inl rfl)), ite_self]
    rw [readGroups, hipv4,
      hnothing fun text htext => readNumber_of_ends (htext.ends (.inr rfl))]

theorem boundary_groups (groups : List Nat) {rest : List Char} (hrest : Stop rest) :
    Boundary (groups.flatMap (fun segment => ':' :: hex segment) ++ rest) := by
  cases groups with
  | nil => exact hrest.boundary
  | cons segment groups => exact .inr ⟨_, rfl⟩

theorem readGroups_flatMap {left i : Nat} (hi : 0 < i) {groups : List Nat}
    (hlen : groups.length ≤ left) (hlt : ∀ segment ∈ groups, segment < 65536) {rest : List Char}
    (hrest : Stop rest) :
    readGroups left i (groups.flatMap (fun segment => ':' :: hex segment) ++ rest) =
      (groups, false, rest) := by
  induction groups generalizing left i with
  | nil => exact readGroups_stop left i hrest
  | cons segment groups ih =>
    cases left with
    | zero => cases hlen
    | succ left =>
      have hrec := ih (Nat.succ_pos i) (Nat.le_of_succ_le_succ hlen) fun s hs =>
        hlt s (List.mem_cons_of_mem _ hs)
      rw [readGroups_hex (hlt segment List.mem_cons_self) _ (boundary_groups groups hrest), hrec]
      rw [if_pos hi, List.flatMap_cons, List.append_assoc]
      rfl

theorem readGroups_fmtSubslice {left : Nat} {groups : List Nat} (hlen : groups.length ≤ left)
    (hlt : ∀ segment ∈ groups, segment < 65536) {rest : List Char} (hrest : Stop rest) :
    readGroups left 0 (fmtSubslice groups ++ rest) = (groups, false, rest) := by
  cases groups with
  | nil => exact readGroups_stop left 0 hrest
  | cons segment groups =>
    cases left with
    | zero => cases hlen
    | succ left =>
      have hrec := readGroups_flatMap (i := 1) (by decide) (Nat.le_of_succ_le_succ hlen)
        (fun s hs => hlt s (List.mem_cons_of_mem _ hs)) hrest
      rw [readGroups_hex (hlt segment List.mem_cons_self) _ (boundary_groups groups hrest), hrec]
      rw [if_neg (Nat.lt_irrefl 0), fmtSubslice, List.append_assoc]

theorem segments_lt (addr : Ipv6Addr) : ∀ segment ∈ addr.segments, segment < 65536 := by
  intro segment hsegment
  obtain ⟨i, -, rfl⟩ := List.mem_map.mp hsegment
  have hhigh := (addr.octets.toList.getD (2 * i) 0).toNat_lt
  have hlow := (addr.octets.toList.getD (2 * i + 1) 0).toNat_lt
  simp only
  omega

theorem length_segments (addr : Ipv6Addr) : addr.segments.length = 8 := by
  simp [Ipv6Addr.segments]

theorem ofGroups_segments (addr : Ipv6Addr) : ofGroups addr.segments = addr := by
  obtain ⟨octets⟩ := addr
  refine congrArg Ipv6Addr.mk (Vector.ext ?_)
  intro i hi
  have hgroup : (Ipv6Addr.mk octets).segments.getD (i / 2) 0 =
      (octets.toList.getD (2 * (i / 2)) 0).toNat * 256 +
        (octets.toList.getD (2 * (i / 2) + 1) 0).toNat := by
    have hlt : i / 2 < 8 := by omega
    simp [Ipv6Addr.segments, List.getD_eq_getElem?_getD, hlt]
  have hlow := (octets.toList.getD (2 * (i / 2) + 1) 0).toNat_lt
  have hoctet : octets.toList.getD i 0 = octets[i] := by
    simp [List.getD_eq_getElem?_getD, hi]
  simp only [Vector.getElem_ofFn, hgroup]
  generalize hhigh : octets.toList.getD (2 * (i / 2)) 0 = high
  generalize hlow' : octets.toList.getD (2 * (i / 2) + 1) 0 = low at hlow
  have hdiv : (high.toNat * 256 + low.toNat) / 256 = high.toNat := by omega
  have hmod : (high.toNat * 256 + low.toNat) % 256 = low.toNat := by omega
  rcases Nat.mod_two_eq_zero_or_one i with heven | hodd
  · have hi' : 2 * (i / 2) = i := by omega
    rw [if_pos heven, hdiv, UInt8.ofNat_toNat, ← hhigh, hi', hoctet]
  · have hi' : 2 * (i / 2) + 1 = i := by omega
    rw [if_neg (by omega), hmod, UInt8.ofNat_toNat, ← hlow', hi', hoctet]

/-- The groups that are left out are zero. -/
theorem readIpv6Addr_segments (addr : Ipv6Addr) {front back : List Nat} {len : Nat} (hlen : 0 < len)
    (h : addr.segments = front ++ (List.replicate len 0 ++ back)) :
    readIpv6Addr (fmtSubslice front ++ "::".toList ++ fmtSubslice back) = some (addr, []) := by
  have hlength := length_segments addr
  have hlt := segments_lt addr
  rw [h] at hlength hlt
  simp only [List.length_append, List.length_replicate] at hlength
  have hfront : readGroups 8 0 (fmtSubslice front ++ ("::".toList ++ fmtSubslice back)) =
      (front, false, "::".toList ++ fmtSubslice back) :=
    readGroups_fmtSubslice (by omega) (fun s hs => hlt s (by simp [hs])) (.inr ⟨_, rfl⟩)
  have hback : readGroups (8 - (front.length + 1)) 0 (fmtSubslice back) = (back, false, []) := by
    have hread : readGroups (8 - (front.length + 1)) 0 (fmtSubslice back ++ []) =
        (back, false, []) :=
      readGroups_fmtSubslice (by omega) (fun s hs => hlt s (by simp [hs])) (.inl rfl)
    rwa [List.append_nil] at hread
  have hzeros : 8 - front.length - back.length = len := by omega
  have hgroups : ofGroups (front ++ List.replicate len 0 ++ back) = addr := by
    rw [List.append_assoc, ← h, ofGroups_segments]
  have hcolons : readGivenChar ':' ("::".toList ++ fmtSubslice back) =
      some (':' :: fmtSubslice back) := rfl
  have hcolon : readGivenChar ':' (':' :: fmtSubslice back) = some (fmtSubslice back) := rfl
  have hne : front.length ≠ 8 := by omega
  rw [List.append_assoc]
  simp only [readIpv6Addr, hfront, if_neg hne, Bool.false_eq_true, if_false, hcolons, hcolon,
    Option.bind_eq_bind, Option.bind_some, hback, hzeros, hgroups]
  rfl

theorem readIpv6Addr_fmtSubslice (addr : Ipv6Addr) :
    readIpv6Addr (fmtSubslice addr.segments) = some (addr, []) := by
  have hlength := length_segments addr
  have hread := readGroups_fmtSubslice (Nat.le_of_eq hlength) (segments_lt addr)
    (show Stop [] from .inl rfl)
  rw [List.append_nil] at hread
  simp only [readIpv6Addr, hread, if_pos hlength, ofGroups_segments]

theorem readGroups_display (left : Nat) (addr : Ipv4Addr) {a b c d : UInt8}
    (h : addr.octets.toList = [a, b, c, d]) :
    readGroups (left + 2) 1 (':' :: addr.display) =
      ([a.toNat * 256 + b.toNat, c.toNat * 256 + d.toNat], true, []) := by
  have hread := readIpv4Addr_display addr (show Ends 10 [] from (Boundary.ends (.inl rfl) (.inl rfl)))
  rw [List.append_nil] at hread
  have hipv4 : (if 0 < left + 1 then readSeparator ':' 1 readIpv4Addr (':' :: addr.display)
      else none) = some (addr, []) := by
    rw [if_pos (Nat.succ_pos left)]
    exact hread
  rw [readGroups, hipv4]
  simp only [h]
  rfl

theorem readIpv6Addr_mapped (addr : Ipv4Addr) :
    readIpv6Addr ("::ffff:".toList ++ addr.display) = some (addr.toIpv6Mapped, []) := by
  obtain ⟨a, b, c, d, hoctets⟩ : ∃ a b c d, addr.octets.toList = [a, b, c, d] := by
    obtain ⟨⟨⟨octets⟩, hlen⟩⟩ := addr
    rcases octets with _ | ⟨a, _ | ⟨b, _ | ⟨c, _ | ⟨d, _ | ⟨e, octets⟩⟩⟩⟩⟩
    case cons.cons.cons.cons.nil => exact ⟨a, b, c, d, rfl⟩
    all_goals simp at hlen
  have hhead : readGroups 8 0 (':' :: ':' :: (hex 65535 ++ ':' :: addr.display)) =
      ([], false, ':' :: ':' :: (hex 65535 ++ ':' :: addr.display)) :=
    readGroups_stop 8 0 (.inr ⟨_, rfl⟩)
  have htail : readGroups 7 0 (hex 65535 ++ ':' :: addr.display) =
      ([65535, a.toNat * 256 + b.toNat, c.toNat * 256 + d.toNat], true, []) := by
    rw [readGroups_hex (show 65535 < 65536 by decide) (if_neg (Nat.lt_irrefl 0)).symm
      (.inr ⟨_, rfl⟩), readGroups_display 4 addr hoctets]
  have hsegments : addr.toIpv6Mapped.segments =
      List.replicate 5 0 ++ [65535, a.toNat * 256 + b.toNat, c.toNat * 256 + d.toNat] := by
    have hlist : addr.toIpv6Mapped.octets.toList = mappedFront ++ [a, b, c, d] :=
      congrArg (mappedFront ++ ·) hoctets
    have hrange : List.range 8 = [0, 1, 2, 3, 4, 5, 6, 7] := by decide
    rw [Ipv6Addr.segments, hlist, hrange]
    simp [mappedFront, List.replicate]
  have hgroups := ofGroups_segments addr.toIpv6Mapped
  rw [hsegments] at hgroups
  have hcolons : ∀ more, readGivenChar ':' (':' :: more) = some more := fun _ => rfl
  change readIpv6Addr (':' :: ':' :: (hex 65535 ++ ':' :: addr.display)) = _
  simp only [readIpv6Addr, hhead, List.length_nil, hcolons, htail, Option.bind_eq_bind,
    Option.bind_some]
  exact congrArg (fun addr => some (addr, [])) hgroups

theorem readIpv6Addr_display (addr : Ipv6Addr) : readIpv6Addr addr.display = some (addr, []) := by
  unfold Ipv6Addr.display
  cases hcanonical : canonicalIp (.v6 addr) with
  | v4 mapped =>
    simp only
    rw [readIpv6Addr_mapped, eq_toIpv6Mapped hcanonical]
  | v6 _ =>
    simp only
    split
    · rename_i hlen
      exact readIpv6Addr_segments addr (Nat.lt_trans Nat.zero_lt_one hlen) (split_longestZeros hlen)
    · exact readIpv6Addr_fmtSubslice addr

/-- No IPv6 address is read as one of the other kind. -/
theorem readIpv4Addr_display_v6 (addr : Ipv6Addr) : readIpv4Addr addr.display = none := by
  have hcolon : ∀ more, readIpv4Addr (':' :: more) = none := fun more =>
    readIpv4Addr_of_ends (ends_cons (toDigit_separator (.inl rfl)).2 more)
  have hgroups : ∀ {groups : List Nat} {rest : List Char}, Stop rest →
      readIpv4Addr (fmtSubslice groups ++ rest) = none := by
    intro groups rest hrest
    cases groups with
    | nil => exact readIpv4Addr_of_ends (hrest.boundary.ends (.inl rfl))
    | cons segment groups =>
      rw [fmtSubslice, List.append_assoc]
      exact readIpv4Addr_hex segment (boundary_groups groups hrest)
  unfold Ipv6Addr.display
  split
  · exact hcolon _
  · simp only
    split
    · rw [List.append_assoc]
      exact hgroups (.inr ⟨_, rfl⟩)
    · have hread : readIpv4Addr (fmtSubslice addr.segments ++ []) = none := hgroups (.inl rfl)
      rwa [List.append_nil] at hread

end IpParser

/-- What is printed is parsed to the same address. -/
theorem IpAddr.parse_display (ip : IpAddr) : IpAddr.parse ip.display = some ip := by
  cases ip with
  | v4 addr =>
    have hends : IpParser.Ends 10 [] := fun c hc => by cases hc
    have hread := IpParser.readIpv4Addr_display addr hends
    rw [List.append_nil] at hread
    simp only [IpAddr.parse, IpAddr.display, IpParser.readIpAddr, hread]
  | v6 addr =>
    simp only [IpAddr.parse, IpAddr.display, IpParser.readIpAddr,
      IpParser.readIpv4Addr_display_v6, IpParser.readIpv6Addr_display, Option.map_some]

example : (IpAddr.v6 ⟨#v[0x20, 1, 0xd, 0xb8, 0, 0, 0, 0, 0, 1, 0, 0, 0, 0, 0, 1]⟩).display =
    "2001:db8::1:0:0:1".toList := by decide

end Aquatic
