import Aquatic.Common.IpBan
import Mathlib.Data.List.GetD
import Mathlib.Data.List.Induction

/-!
# Blocks of addresses

A block is the addresses that agree with one of them in their first bits. The
masks of the code take out exactly these bits, and the blocks of IPv4 addresses
are the blocks of IPv4-mapped ones, 96 bits further down.
-/

namespace Aquatic
set_option autoImplicit false

def IpAddr.octets : IpAddr → List UInt8
  | .v4 addr => addr.octets.toList
  | .v6 addr => addr.octets.toList

/-- The bits of the bytes, the first one first. -/
def bitAt (bytes : List UInt8) (i : Nat) : Bool := (bytes.getD (i / 8) 0).toBitVec.getMsbD (i % 8)

/-- The address is of the same kind as `base`, and agrees with it in the first bits. -/
structure InBlock (base : IpAddr) (prefixLen : Nat) (ip : IpAddr) : Prop where
  kind : ip.maxPrefix = base.maxPrefix
  bits : ∀ i < prefixLen, bitAt base.octets i = bitAt ip.octets i

theorem beBits_concat (w : Nat) (bytes : List UInt8) (byte : UInt8) :
    beBits w (bytes ++ [byte]) = beBits w bytes <<< 8 ||| byte.toBitVec.setWidth w := by
  rw [beBits, List.foldl_append]
  rfl

theorem getLsbD_beBits (w : Nat) (bytes : List UInt8) {j : Nat} (hj : j < w) :
    (beBits w bytes).getLsbD j = (bytes.reverse.getD (j / 8) 0).toBitVec.getLsbD (j % 8) := by
  induction bytes using List.reverseRecOn generalizing j with
  | nil => simp [beBits]
  | append_singleton bytes byte ih =>
    rw [beBits_concat, BitVec.getLsbD_or, BitVec.getLsbD_shiftLeft, BitVec.getLsbD_setWidth,
      List.reverse_append]
    by_cases hlow : j < 8
    · simp [hlow, hj, Nat.div_eq_of_lt hlow, Nat.mod_eq_of_lt hlow]
    · have hdiv : j / 8 = (j - 8) / 8 + 1 := by omega
      have hmod : j % 8 = (j - 8) % 8 := by omega
      rw [ih (by omega), hdiv, hmod]
      simp [hlow, hj, BitVec.getLsbD_of_ge _ _ (Nat.not_lt.mp hlow)]

theorem getMsbD_beBits {w : Nat} {bytes : List UInt8} (hw : w = bytes.length * 8) {i : Nat}
    (hi : i < w) : (beBits w bytes).getMsbD i = bitAt bytes i := by
  have hrev : bytes.reverse.getD ((w - 1 - i) / 8) 0 = bytes.getD (i / 8) 0 := by
    have hindex : bytes.length - 1 - (w - 1 - i) / 8 = i / 8 := by omega
    rw [List.getD_reverse _ (by omega), hindex]
  have hbit : (w - 1 - i) % 8 = 8 - 1 - i % 8 := by omega
  rw [BitVec.getMsbD_eq_getLsbD, getLsbD_beBits w bytes (by omega), hrev, hbit, bitAt,
    BitVec.getMsbD_eq_getLsbD]
  simp [hi, Nat.mod_lt i (by decide : 0 < 8)]

theorem getMsbD_mask {w prefixLen : Nat} (h : prefixLen ≤ w) (i : Nat) :
    (IpRange.mask w prefixLen).getMsbD i = decide (i < prefixLen) := by
  unfold IpRange.mask
  split
  · rename_i hzero
    simp [hzero]
  · rw [BitVec.getMsbD_shiftLeft, BitVec.getMsbD_allOnes]
    exact decide_eq_decide.mpr (by omega)

theorem and_mask_eq_iff {w prefixLen : Nat} (h : prefixLen ≤ w) (a b : BitVec w) :
    a &&& IpRange.mask w prefixLen = b &&& IpRange.mask w prefixLen ↔
      ∀ i < prefixLen, a.getMsbD i = b.getMsbD i := by
  constructor
  · intro heq i hi
    have hbit := congrArg (fun x => x.getMsbD i) heq
    simpa [BitVec.getMsbD_and, getMsbD_mask h, hi] using hbit
  · intro hbits
    apply BitVec.eq_of_getMsbD_eq
    intro i _
    rw [BitVec.getMsbD_and, BitVec.getMsbD_and, getMsbD_mask h]
    by_cases hlt : i < prefixLen
    · rw [hbits i hlt]
    · simp [hlt]

theorem masked_iff {w prefixLen : Nat} (h : prefixLen ≤ w) (base ip : List UInt8)
    (hbase : w = base.length * 8) (hip : w = ip.length * 8) :
    beBits w base &&& IpRange.mask w prefixLen = beBits w ip &&& IpRange.mask w prefixLen ↔
      ∀ i < prefixLen, bitAt base i = bitAt ip i := by
  rw [and_mask_eq_iff h]
  refine forall_congr' fun i => forall_congr' fun hi => ?_
  have hlt : i < w := Nat.lt_of_lt_of_le hi h
  rw [getMsbD_beBits hbase hlt, getMsbD_beBits hip hlt]

/-- What the masks of the code compare. -/
theorem IpRange.contains_iff (range : IpRange) (ip : IpAddr) :
    range.contains ip = true ↔ InBlock range.base range.prefixLen.toNat ip := by
  have hvalid := range.valid
  unfold IpRange.contains
  cases hbase : range.base with
  | v4 base =>
    rw [hbase] at hvalid
    cases ip with
    | v4 ip =>
      have hmasked := masked_iff hvalid base.octets.toList ip.octets.toList
        (by simp [IpAddr.maxPrefix]) (by simp [IpAddr.maxPrefix])
      simp only [beq_iff_eq]
      exact hmasked.trans ⟨fun hbits => ⟨rfl, hbits⟩, fun hblock => hblock.bits⟩
    | v6 ip => exact iff_of_false Bool.false_ne_true fun hblock => by cases hblock.kind
  | v6 base =>
    rw [hbase] at hvalid
    cases ip with
    | v4 ip => exact iff_of_false Bool.false_ne_true fun hblock => by cases hblock.kind
    | v6 ip =>
      have hmasked := masked_iff hvalid base.octets.toList ip.octets.toList
        (by simp [IpAddr.maxPrefix]) (by simp [IpAddr.maxPrefix])
      simp only [beq_iff_eq]
      exact hmasked.trans ⟨fun hbits => ⟨rfl, hbits⟩, fun hblock => hblock.bits⟩

/-- The twelve bytes in front of a mapped address. -/
def mappedFront : List UInt8 := [0, 0, 0, 0, 0, 0, 0, 0, 0, 0, 0xff, 0xff]

/-- The IPv6 spelling of an IPv4 address. -/
def Ipv4Addr.toIpv6Mapped (addr : Ipv4Addr) : Ipv6Addr where
  octets := ⟨(mappedFront ++ addr.octets.toList).toArray, by simp [mappedFront]⟩

theorem octets_toIpv6Mapped (addr : Ipv4Addr) :
    (IpAddr.v6 addr.toIpv6Mapped).octets = mappedFront ++ (IpAddr.v4 addr).octets := rfl

theorem canonicalIp_toIpv6Mapped (addr : Ipv4Addr) :
    canonicalIp (.v6 addr.toIpv6Mapped) = .v4 addr := by
  obtain ⟨⟨⟨octets⟩, hlen⟩⟩ := addr
  rcases octets with _ | ⟨a, _ | ⟨b, _ | ⟨c, _ | ⟨d, _ | ⟨e, octets⟩⟩⟩⟩⟩
  case cons.cons.cons.cons.nil => rfl
  all_goals simp at hlen

theorem eq_toIpv6Mapped {addr : Ipv6Addr} {addr' : Ipv4Addr}
    (h : canonicalIp (.v6 addr) = .v4 addr') : addr = addr'.toIpv6Mapped := by
  simp only [canonicalIp] at h
  split at h
  · rename_i a b c d hoctets
    obtain rfl := IpAddr.v4.inj h
    obtain ⟨octets⟩ := addr
    exact congrArg Ipv6Addr.mk (Vector.toList_inj.mp hoctets)
  · cases h

theorem bitAt_append_right (front bytes : List UInt8) (i : Nat) :
    bitAt (front ++ bytes) (front.length * 8 + i) = bitAt bytes i := by
  have hdiv : (front.length * 8 + i) / 8 = front.length + i / 8 := by omega
  have hmod : (front.length * 8 + i) % 8 = i % 8 := by omega
  rw [bitAt, hdiv, hmod, List.getD_append_right _ _ _ _ (Nat.le_add_right _ _),
    Nat.add_sub_cancel_left]
  rfl

theorem bitAt_append_left {front : List UInt8} (bytes : List UInt8) {i : Nat}
    (hi : i < front.length * 8) : bitAt (front ++ bytes) i = bitAt front i := by
  rw [bitAt, List.getD_append _ _ _ _ (by omega)]
  rfl

/-- The blocks of mapped addresses, from the prefix 96 on. -/
theorem inBlock_mapped_iff (base : Ipv4Addr) {prefixLen : Nat} (h : 96 ≤ prefixLen)
    (addr : Ipv4Addr) :
    InBlock (.v6 base.toIpv6Mapped) prefixLen (.v6 addr.toIpv6Mapped) ↔
      InBlock (.v4 base) (prefixLen - 96) (.v4 addr) := by
  constructor
  · intro hblock
    refine ⟨rfl, fun i hi => ?_⟩
    have hbit := hblock.bits (96 + i) (by omega)
    rw [octets_toIpv6Mapped, octets_toIpv6Mapped] at hbit
    rwa [show 96 + i = mappedFront.length * 8 + i from rfl, bitAt_append_right,
      bitAt_append_right] at hbit
  · intro hblock
    refine ⟨rfl, fun i hi => ?_⟩
    have hlen : mappedFront.length * 8 = 96 := rfl
    rw [octets_toIpv6Mapped, octets_toIpv6Mapped]
    by_cases hfront : i < mappedFront.length * 8
    · rw [bitAt_append_left _ hfront, bitAt_append_left _ hfront]
    · have hindex : i = mappedFront.length * 8 + (i - 96) := by omega
      rw [hindex, bitAt_append_right, bitAt_append_right]
      exact hblock.bits (i - 96) (by omega)

theorem eq_of_bitAt {a b : UInt8} (h : ∀ k < 8, a.toBitVec.getMsbD k = b.toBitVec.getMsbD k) :
    a = b := UInt8.toBitVec_inj.mp (BitVec.eq_of_getMsbD_eq h)

/-- Whatever agrees with a mapped address in the first 96 bits is a mapped address. -/
theorem mapped_of_bits {base : Ipv4Addr} {addr : Ipv6Addr}
    (hbits : ∀ i < 96,
      bitAt (IpAddr.v6 base.toIpv6Mapped).octets i = bitAt (IpAddr.v6 addr).octets i) :
    ∃ addr' : Ipv4Addr, addr = addr'.toIpv6Mapped := by
  have hlen : addr.octets.toList.length = 16 := addr.octets.length_toList
  have hfront : addr.octets.toList.take 12 = mappedFront := by
    apply List.ext_getElem
    · rw [List.length_take, hlen]
      rfl
    intro n hn hn'
    have hlt : n < 12 := hn'
    apply eq_of_bitAt
    intro k hk
    have hbit := hbits (n * 8 + k) (by omega)
    have hdiv : (n * 8 + k) / 8 = n := by omega
    have hmod : (n * 8 + k) % 8 = k := by omega
    have hinside : n * 8 + k < mappedFront.length * 8 := by
      have hfrontLen : mappedFront.length = 12 := rfl
      omega
    rw [octets_toIpv6Mapped, bitAt_append_left _ hinside, bitAt, bitAt, hdiv, hmod,
      List.getD_eq_getElem _ _ hn'] at hbit
    rw [hbit, List.getElem_take]
    exact congrArg (fun byte : UInt8 => byte.toBitVec.getMsbD k)
      (List.getD_eq_getElem addr.octets.toList 0 (by omega)).symm
  refine ⟨⟨⟨(addr.octets.toList.drop 12).toArray, by simp⟩⟩, ?_⟩
  obtain ⟨octets⟩ := addr
  apply congrArg Ipv6Addr.mk
  apply Vector.toList_inj.mp
  exact (List.take_append_drop 12 octets.toList).symm.trans (congrArg (· ++ _) hfront)

end Aquatic
