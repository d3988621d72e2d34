import Aquatic.Lib.Transition
import Aquatic.Udp.RequestCodec
import Aquatic.Udp.Validator

/-!
# How long a connection id is good for

An id is accepted from the address it was made for until it is too old, and not before the
tracker could have made it. Nothing of a call is left in the hasher for the next one.
-/

namespace Aquatic.Udp
open Protocol Transition
set_option autoImplicit false

namespace ConnectionValidator

/-- `update_elapsed`; the seconds are cut down to a `u32`. -/
def updateElapsed (validator : ConnectionValidator) (elapsedSecs : Nat) : ConnectionValidator :=
  { validator with secondsSinceStart := UInt32.ofNat elapsedSecs }

/-- The validator at a value of its clock. -/
def atSeconds (validator : ConnectionValidator) (seconds : UInt32) : ConnectionValidator :=
  { validator with secondsSinceStart := seconds }

inductive Call where
  | createConnectionId (sourceAddr : CanonicalSocketAddr)
  | connectionIdValid (sourceAddr : CanonicalSocketAddr) (connectionId : ConnectionId)
  | updateElapsed (elapsedSecs : Nat)

inductive Answer where
  | created (connectionId : ConnectionId)
  | valid (accepted : Bool)
  | updated

def call (validator : ConnectionValidator) : Call → Answer × ConnectionValidator
  | .createConnectionId sourceAddr =>
    let (connectionId, validator) := validator.createConnectionId sourceAddr
    (.created connectionId, validator)
  | .connectionIdValid sourceAddr connectionId =>
    let (accepted, validator) := validator.connectionIdValid sourceAddr connectionId
    (.valid accepted, validator)
  | .updateElapsed elapsedSecs => (.updated, validator.updateElapsed elapsedSecs)

/-- What the clock says after some calls. -/
def clockAfter (seconds : UInt32) : List Call → UInt32
  | [] => seconds
  | .updateElapsed elapsedSecs :: calls => clockAfter (UInt32.ofNat elapsedSecs) calls
  | _ :: calls => clockAfter seconds calls

/-- The time that is written into an id. -/
def embeddedTime (connectionId : ConnectionId) : UInt32 :=
  UInt32.ofBitVec (fromNeBytes 32 ((neBytes connectionId.value.toBitVec).take 4))

theorem neBytes_fromNeBytes {w : Nat} {bytes : List UInt8} (h : 8 * bytes.length = w) :
    neBytes (fromNeBytes w bytes) = bytes := by
  rw [neBytes, fromNeBytes, beBytes_beBits (by rw [List.length_reverse, h]), List.reverse_reverse]

theorem fromNeBytes_neBytes {w : Nat} (h : w % 8 = 0) (bits : BitVec w) :
    fromNeBytes w (neBytes bits) = bits := by
  rw [neBytes, fromNeBytes, List.reverse_reverse, beBits_beBytes h]

theorem length_neBytes {w : Nat} (bits : BitVec w) : (neBytes bits).length = w / 8 := by
  rw [neBytes, List.length_reverse, length_beBytes]

section
variable (validator : ConnectionValidator) (sourceAddr : CanonicalSocketAddr)

theorem length_hash (elapsed : List UInt8) (ipAddr : IpAddr) :
    (validator.hash elapsed ipAddr).1.length = 4 := by
  rw [hash]
  exact Vector.length_toList

/-- The bytes of an id, in front of the bits. -/
theorem neBytes_createConnectionId :
    neBytes (validator.createConnectionId sourceAddr).1.value.toBitVec =
      neBytes validator.secondsSinceStart.toBitVec ++
        (validator.hash (neBytes validator.secondsSinceStart.toBitVec) sourceAddr.addr.ip).1 := by
  have hlength : (neBytes validator.secondsSinceStart.toBitVec).length = 4 := length_neBytes _
  have hbytes : 8 * (neBytes validator.secondsSinceStart.toBitVec ++
      (validator.hash (neBytes validator.secondsSinceStart.toBitVec) sourceAddr.addr.ip).1).length =
        64 := by
    rw [List.length_append, hlength, length_hash]
  exact neBytes_fromNeBytes hbytes

theorem snd_call (c : Call) :
    (validator.call c).2 = validator.atSeconds (clockAfter validator.secondsSinceStart [c]) := by
  cases c with
  | createConnectionId sourceAddr =>
    simp only [call]
    rw [createConnectionId_eq]
    rfl
  | connectionIdValid sourceAddr connectionId =>
    simp only [call]
    rw [connectionIdValid_eq]
    rfl
  | updateElapsed elapsedSecs => rfl

end

theorem clockAfter_cons (seconds : UInt32) (c : Call) (calls : List Call) :
    clockAfter seconds (c :: calls) = clockAfter (clockAfter seconds [c]) calls := by
  cases c <;> rfl

theorem snd_answers (validator : ConnectionValidator) (calls : List Call) :
    (answers call validator calls).2 =
      validator.atSeconds (clockAfter validator.secondsSinceStart calls) := by
  induction calls generalizing validator with
  | nil => rfl
  | cons c calls ih =>
    rw [clockAfter_cons]
    simp only [answers]
    rw [ih, snd_call]
    rfl

/-- What becomes of an id that was made for `a` at the time `t` and is checked for `b` at the
time `t'`. -/
structure Exact (validator : ConnectionValidator) (t t' : UInt32) (a b : CanonicalSocketAddr) :
    Prop where
  sameIp : b.addr.ip = a.addr.ip →
    (((validator.atSeconds t').connectionIdValid b
        ((validator.atSeconds t).createConnectionId a).1).1 = true ↔
      t'.toNat < t.toNat + validator.maxConnectionAge.toNat ∧ t.toNat ≤ t'.toNat + 60)
  collision : ((validator.atSeconds t').connectionIdValid b
      ((validator.atSeconds t).createConnectionId a).1).1 = true →
    (validator.hash (neBytes t.toBitVec) b.addr.ip).1 =
      (validator.hash (neBytes t.toBitVec) a.addr.ip).1
  farFuture : ∀ connectionId, t'.toNat + 60 < (embeddedTime connectionId).toNat →
    ((validator.atSeconds t').connectionIdValid b connectionId).1 = false
  sums : ∀ connectionId,
    ((embeddedTime connectionId).toUInt64 + validator.maxConnectionAge.toUInt64).toNat =
        (embeddedTime connectionId).toNat + validator.maxConnectionAge.toNat ∧
      (t'.toUInt64 + 60).toNat = t'.toNat + 60
  independent : ∀ calls, (answers call validator calls).2 =
    validator.atSeconds (clockAfter validator.secondsSinceStart calls)

section
variable (validator : ConnectionValidator) (seconds : UInt32)

theorem toNat_expiration (time maxConnectionAge : UInt32) :
    (time.toUInt64 + maxConnectionAge.toUInt64).toNat = time.toNat + maxConnectionAge.toNat := by
  have htime := time.toNat_lt
  have hage := maxConnectionAge.toNat_lt
  rw [UInt64.toNat_add, UInt32.toNat_toUInt64, UInt32.toNat_toUInt64]
  exact Nat.mod_eq_of_lt (by omega)

theorem toNat_leeway : (seconds.toUInt64 + 60).toNat = seconds.toNat + 60 := by
  have hseconds := seconds.toNat_lt
  rw [UInt64.toNat_add, UInt32.toNat_toUInt64]
  exact Nat.mod_eq_of_lt (by
    rw [show (60 : UInt64).toNat = 60 from rfl]
    omega)

theorem connectionIdValid_iff (sourceAddr : CanonicalSocketAddr) (connectionId : ConnectionId) :
    ((validator.atSeconds seconds).connectionIdValid sourceAddr connectionId).1 = true ↔
      (neBytes connectionId.value.toBitVec).drop 4 =
          (validator.hash ((neBytes connectionId.value.toBitVec).take 4) sourceAddr.addr.ip).1 ∧
        seconds.toNat < (embeddedTime connectionId).toNat + validator.maxConnectionAge.toNat ∧
        (embeddedTime connectionId).toNat ≤ seconds.toNat + 60 := by
  have hsnd := (validator.atSeconds seconds).hash_snd
    ((neBytes connectionId.value.toBitVec).take 4) sourceAddr.addr.ip
  have hfst : ((validator.atSeconds seconds).hash ((neBytes connectionId.value.toBitVec).take 4)
      sourceAddr.addr.ip).1 =
    (validator.hash ((neBytes connectionId.value.toBitVec).take 4) sourceAddr.addr.ip).1 := rfl
  have hage := toNat_expiration (embeddedTime connectionId) validator.maxConnectionAge
  have hleeway := toNat_leeway seconds
  simp only [connectionIdValid, hsnd, hfst]
  split
  · rename_i hhash
    rw [bne_iff_ne] at hhash
    simp [hhash]
  · rename_i hhash
    rw [Bool.not_eq_true, bne_eq_false_iff_eq] at hhash
    rw [Bool.and_eq_true, decide_eq_true_eq, decide_eq_true_eq, gt_iff_lt, UInt64.lt_iff_toNat_lt,
      UInt64.le_iff_toNat_le]
    change seconds.toUInt64.toNat < ((embeddedTime connectionId).toUInt64 +
      validator.maxConnectionAge.toUInt64).toNat ∧
      (embeddedTime connectionId).toUInt64.toNat ≤ (seconds.toUInt64 + 60).toNat ↔ _
    rw [hage, hleeway, UInt32.toNat_toUInt64, UInt32.toNat_toUInt64]
    exact (and_iff_right hhash).symm

end

/-- The id of another address is good if the hashes are the same. -/
theorem created_valid_iff (validator : ConnectionValidator) (t t' : UInt32)
    (a b : CanonicalSocketAddr) :
    ((validator.atSeconds t').connectionIdValid b
        ((validator.atSeconds t).createConnectionId a).1).1 = true ↔
      (validator.hash (neBytes t.toBitVec) b.addr.ip).1 =
          (validator.hash (neBytes t.toBitVec) a.addr.ip).1 ∧
        t'.toNat < t.toNat + validator.maxConnectionAge.toNat ∧ t.toNat ≤ t'.toNat + 60 := by
  have hbytes : neBytes ((validator.atSeconds t).createConnectionId a).1.value.toBitVec =
      neBytes t.toBitVec ++ (validator.hash (neBytes t.toBitVec) a.addr.ip).1 :=
    (validator.atSeconds t).neBytes_createConnectionId a
  have hlength : (neBytes t.toBitVec).length = 4 := length_neBytes _
  have htake : (neBytes ((validator.atSeconds t).createConnectionId a).1.value.toBitVec).take 4 =
      neBytes t.toBitVec := by
    rw [hbytes, List.take_append_of_le_length (Nat.le_of_eq hlength.symm),
      List.take_of_length_le (Nat.le_of_eq hlength)]
  have hdrop : (neBytes ((validator.atSeconds t).createConnectionId a).1.value.toBitVec).drop 4 =
      (validator.hash (neBytes t.toBitVec) a.addr.ip).1 := by
    rw [hbytes]
    exact List.drop_left' hlength
  have htime : embeddedTime ((validator.atSeconds t).createConnectionId a).1 = t := by
    rw [embeddedTime, htake, fromNeBytes_neBytes (by decide)]
  rw [connectionIdValid_iff, htake, hdrop, htime, eq_comm (a := (validator.hash _ a.addr.ip).1)]

theorem connection_ids_exact (validator : ConnectionValidator) (t t' : UInt32)
    (a b : CanonicalSocketAddr) : Exact validator t t' a b where
  sameIp := by
    intro hip
    rw [created_valid_iff, hip]
    exact and_iff_right rfl
  collision := by
    intro h
    exact ((created_valid_iff validator t t' a b).mp h).1
  farFuture := by
    intro connectionId hfar
    rw [← Bool.not_eq_true, connectionIdValid_iff]
    rintro ⟨-, -, hnear⟩
    omega
  sums := by
    intro connectionId
    exact ⟨toNat_expiration _ _, toNat_leeway t'⟩
  independent := snd_answers validator

end ConnectionValidator

end Aquatic.Udp
