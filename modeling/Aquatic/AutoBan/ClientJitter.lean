import Aquatic.AutoBan.Policy

/-!
# The offset of a client ban, computed exactly

The offset is computed in words of 64 bits, half of it in signed ones. With a
jitter that the validator lets pass no step of the computation leaves its range.
-/

namespace Aquatic.AutoBan
set_option autoImplicit false

theorem toInt_toInt64 {a : UInt64} (h : a.toNat < 0x8000000000000000) :
    a.toInt64.toInt = a.toNat := by
  have hcond : a.toInt64.toInt = a.toBitVec.toInt := rfl
  rw [hcond, BitVec.toInt_eq_toNat_cond, if_pos (by rw [UInt64.toNat_toBitVec]; omega)]
  rfl

theorem toNat_toUInt64 {x : Int64} (h : 0 ≤ x.toInt) : (x.toUInt64.toNat : Int) = x.toInt := by
  have hlt := x.toBitVec.isLt
  have hcond : x.toInt = x.toBitVec.toInt := rfl
  rw [← Int64.toNat_toBitVec, hcond]
  rw [hcond] at h
  rw [BitVec.toInt_eq_toNat_cond] at h ⊢
  split at h <;> omega

theorem toInt_nonneg_iff {x : Int64} : x ≥ 0 ↔ 0 ≤ x.toInt := Int64.le_iff_toInt_le

theorem toInt_sub {x y : Int64} (hlower : -0x8000000000000000 ≤ x.toInt - y.toInt)
    (hupper : x.toInt - y.toInt < 0x8000000000000000) : (x - y).toInt = x.toInt - y.toInt := by
  rw [Int64.toInt_sub]
  apply Int.bmod_eq_of_le <;> omega

theorem toInt_neg {x : Int64} (h : -0x8000000000000000 < x.toInt) : (-x).toInt = -x.toInt := by
  rw [Int64.toInt_neg]
  have := x.toInt_lt
  apply Int.bmod_eq_of_le <;> omega

/-- The number that the offset of an address is taken from. -/
def addressHash : IpAddr → UInt64
  | .v4 addr => fromBeBytes addr.octets.toList
  | .v6 addr =>
    rotateLeft7 (fromBeBytes (addr.octets.toList.take 8)) ^^^
      fromBeBytes (addr.octets.toList.drop 8)

def jitterSpan (jitter : UInt64) : UInt64 := satAdd (satMul jitter 2) 1

theorem clientJitter_eq (ip : IpAddr) (jitter : UInt64) :
    clientJitter ip jitter =
      if jitter = 0 then 0
      else (addressHash ip % jitterSpan jitter).toInt64 - jitter.toInt64 := rfl

/-- Every step of the computation of a client ban gives the number that it would
give without bounds. -/
structure Exact (base jitter : UInt64) (ip : IpAddr) : Prop where
  span : (jitterSpan jitter).toNat = 2 * jitter.toNat + 1
  offset : (addressHash ip % jitterSpan jitter).toInt64.toInt =
    ((addressHash ip).toNat % (2 * jitter.toNat + 1) : Nat)
  signed : jitter.toInt64.toInt = jitter.toNat
  delta : (clientJitter ip jitter).toInt =
    ((addressHash ip).toNat % (2 * jitter.toNat + 1) : Nat) - (jitter.toNat : Int)
  later : 0 ≤ (clientJitter ip jitter).toInt →
    ((clientJitter ip jitter).toUInt64.toNat : Int) = (clientJitter ip jitter).toInt
  earlier : (clientJitter ip jitter).toInt < 0 →
    ((-clientJitter ip jitter).toUInt64.toNat : Int) = -(clientJitter ip jitter).toInt
  sum : (base.toNat : Int) + (clientJitter ip jitter).toInt < UInt64.size

theorem maxBanDurationSecs_toNat : maxBanDurationSecs.toNat = 315360000 := by decide

theorem le_max_toNat {secs : UInt64} (h : secs ≤ maxBanDurationSecs) :
    secs.toNat ≤ maxBanDurationSecs.toNat := UInt64.le_iff_toNat_le.mp h

theorem jitterSpan_toNat {jitter : UInt64} (h : jitter ≤ maxBanDurationSecs) :
    (jitterSpan jitter).toNat = 2 * jitter.toNat + 1 := by
  have hsmall := le_max_toNat h
  rw [maxBanDurationSecs_toNat] at hsmall
  have htwo : (2 : UInt64).toNat = 2 := rfl
  have hmul : (satMul jitter 2).toNat = jitter.toNat * 2 :=
    satMul_eq (by rw [htwo]; simp only [UInt64.size]; omega)
  have hadd : (jitterSpan jitter).toNat = (satMul jitter 2).toNat + 1 :=
    satAdd_eq (by rw [hmul, UInt64.toNat_one]; simp only [UInt64.size]; omega)
  omega

theorem hash_mod_le (ip : IpAddr) (jitter : UInt64) :
    (addressHash ip).toNat % (2 * jitter.toNat + 1) ≤ 2 * jitter.toNat :=
  Nat.le_of_lt_succ (Nat.mod_lt _ (Nat.succ_pos _))

theorem offset_toInt (ip : IpAddr) {jitter : UInt64} (h : jitter ≤ maxBanDurationSecs) :
    (addressHash ip % jitterSpan jitter).toInt64.toInt =
      ((addressHash ip).toNat % (2 * jitter.toNat + 1) : Nat) := by
  have hsmall := le_max_toNat h
  rw [maxBanDurationSecs_toNat] at hsmall
  have hmod : (addressHash ip % jitterSpan jitter).toNat =
      (addressHash ip).toNat % (2 * jitter.toNat + 1) := by
    rw [UInt64.toNat_mod, jitterSpan_toNat h]
  have hle := hash_mod_le ip jitter
  rw [toInt_toInt64 (by omega), hmod]

theorem jitter_toInt {jitter : UInt64} (h : jitter ≤ maxBanDurationSecs) :
    jitter.toInt64.toInt = jitter.toNat := by
  have hsmall := le_max_toNat h
  rw [maxBanDurationSecs_toNat] at hsmall
  exact toInt_toInt64 (by omega)

theorem clientJitter_toInt (ip : IpAddr) {jitter : UInt64} (h : jitter ≤ maxBanDurationSecs) :
    (clientJitter ip jitter).toInt =
      ((addressHash ip).toNat % (2 * jitter.toNat + 1) : Nat) - (jitter.toNat : Int) := by
  have hsmall := le_max_toNat h
  rw [maxBanDurationSecs_toNat] at hsmall
  rw [clientJitter_eq]
  split
  · rename_i hzero
    rw [hzero]
    simp [Nat.mod_one]
  have hoffset := offset_toInt ip h
  have hjitter := jitter_toInt h
  have hle := hash_mod_le ip jitter
  rw [toInt_sub (by omega) (by omega), hoffset, hjitter]

theorem exact_of_le {base jitter : UInt64} (hbase : base ≤ maxBanDurationSecs)
    (hjitter : jitter ≤ maxBanDurationSecs) (ip : IpAddr) : Exact base jitter ip := by
  have hdelta := clientJitter_toInt ip hjitter
  have hle := hash_mod_le ip jitter
  have hb := le_max_toNat hbase
  have hj := le_max_toNat hjitter
  rw [maxBanDurationSecs_toNat] at hb hj
  refine
    { span := jitterSpan_toNat hjitter
      offset := offset_toInt ip hjitter
      signed := jitter_toInt hjitter
      delta := hdelta
      later := toNat_toUInt64
      earlier := ?_
      sum := ?_ }
  · intro hneg
    have hnegated : (-clientJitter ip jitter).toInt = -(clientJitter ip jitter).toInt :=
      toInt_neg (by omega)
    rw [toNat_toUInt64 (by omega), hnegated]
  · simp only [UInt64.size]
    omega

end Aquatic.AutoBan
