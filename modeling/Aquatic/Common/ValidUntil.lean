import Aquatic.Common.Basic

/-!
# Times that peers and connections are valid until

The seconds since the start of the server have 32 bits, and so has their sum with an age
that a config sets; no config limits the ages. A release build lets the sum wrap, a build
that checks for overflows panics where it would.
-/

namespace Aquatic
set_option autoImplicit false

/-- What `seconds_elapsed` returns after so many whole seconds; `none` where it panics. -/
def secondsElapsed (elapsed : UInt64) : Option SecondsSinceServerStart :=
  if elapsed.toNat < UInt32.size then some elapsed.toUInt32 else none

theorem toNat_secondsElapsed {elapsed : UInt64} {now : SecondsSinceServerStart}
    (h : secondsElapsed elapsed = some now) : now.toNat = elapsed.toNat := by
  unfold secondsElapsed at h
  split at h
  · rename_i hlt
    cases h
    rw [UInt64.toNat_toUInt32]
    exact Nat.mod_eq_of_lt hlt
  · cases h

namespace ValidUntil

/-- The server has run for so many whole seconds. -/
def new (elapsed : UInt64) (offsetSeconds : UInt32) : Option ValidUntil :=
  (secondsElapsed elapsed).map fun now => newWithNow now offsetSeconds

/-- `new_with_now` where overflows are checked for; `none` where it panics. -/
def newWithNowChecked (now : SecondsSinceServerStart) (offsetSeconds : UInt32) :
    Option ValidUntil :=
  if now.toNat + offsetSeconds.toNat < UInt32.size then some (newWithNow now offsetSeconds)
  else none

/-- The time `offset` seconds after `now` has not come yet at `t`. -/
def Ahead (now : SecondsSinceServerStart) (offset : UInt32) (t : SecondsSinceServerStart) : Prop :=
  t.toNat < now.toNat + offset.toNat

variable {now t : SecondsSinceServerStart} {offset : UInt32}

theorem valid_iff_toNat_lt (v : ValidUntil) (t : SecondsSinceServerStart) :
    v.valid t = true ↔ t.toNat < v.instant.toNat := by
  rw [valid, decide_eq_true_eq, UInt32.lt_iff_toNat_lt]

theorem toNat_newWithNow (h : now.toNat + offset.toNat < UInt32.size) :
    (newWithNow now offset).instant.toNat = now.toNat + offset.toNat := by
  rw [newWithNow, UInt32.toNat_add]
  exact Nat.mod_eq_of_lt h

theorem toNat_newWithNow_of_wraps (h : UInt32.size ≤ now.toNat + offset.toNat) :
    (newWithNow now offset).instant.toNat + UInt32.size = now.toNat + offset.toNat := by
  have hnow := now.toNat_lt
  have hoffset := offset.toNat_lt
  rw [newWithNow, UInt32.toNat_add]
  unfold UInt32.size at h ⊢
  omega

theorem valid_newWithNow_iff (h : now.toNat + offset.toNat < UInt32.size)
    (t : SecondsSinceServerStart) : (newWithNow now offset).valid t = true ↔ Ahead now offset t := by
  rw [valid_iff_toNat_lt, toNat_newWithNow h, Ahead]

/-- What would be valid for longest is not valid at all. -/
theorem not_valid_of_wraps (h : UInt32.size ≤ now.toNat + offset.toNat) (ht : now ≤ t) :
    (newWithNow now offset).valid t = false := by
  have hoffset := offset.toNat_lt
  have hwrapped := toNat_newWithNow_of_wraps h
  rw [UInt32.le_iff_toNat_le] at ht
  unfold UInt32.size at hwrapped
  apply Bool.eq_false_iff.mpr
  rw [ne_eq, valid_iff_toNat_lt]
  omega

/-- Any one time from `now` on tells whether the sum fits. -/
theorem valid_iff_ahead_iff (ht : now ≤ t) :
    ((newWithNow now offset).valid t = true ↔ Ahead now offset t) ↔
      now.toNat + offset.toNat < UInt32.size := by
  constructor
  · intro h
    by_contra hwraps
    have hle : UInt32.size ≤ now.toNat + offset.toNat := Nat.le_of_not_lt hwraps
    have hahead : Ahead now offset t := Nat.lt_of_lt_of_le t.toNat_lt_size hle
    exact Bool.false_ne_true ((not_valid_of_wraps hle ht).symm.trans (h.mpr hahead))
  · intro hsum
    exact valid_newWithNow_iff hsum t

end ValidUntil

end Aquatic
