import Mathlib.Data.Nat.Basic

/-!
# Values shared by the trackers

Machine integers keep their width: `UInt32` seconds wrap as they do in a release
build. A `usize` that counts elements of a collection is a `Nat`; where the code
subtracts two of them, `usizeSub` says whether it underflows.
-/

namespace Aquatic
set_option autoImplicit false

/-- `a - b` on `usize`; `none` where it would underflow. -/
def usizeSub (a b : Nat) : Option Nat := if b ≤ a then some (a - b) else none

theorem usizeSub_of_le {a b : Nat} (h : b ≤ a) : usizeSub a b = some (a - b) := if_pos h

/-- Decrementing once for every `x` with `q x` does not underflow when there are
no more of them than the counter says. -/
theorem foldlM_decrement {α : Type} (q : α → Bool) (xs : List α) (n : Nat) (h : xs.countP q ≤ n) :
    xs.foldlM (fun n x => if q x then usizeSub n 1 else some n) n = some (n - xs.countP q) := by
  induction xs generalizing n with
  | nil => rfl
  | cons x xs ih =>
    rw [List.countP_cons] at h
    rw [List.foldlM_cons, List.countP_cons]
    cases hq : q x with
    | false =>
      simp only [hq, Bool.false_eq_true, if_false, Nat.add_zero] at h ⊢
      exact ih n h
    | true =>
      simp only [hq, if_true] at h ⊢
      have hle : 1 ≤ n := by omega
      rw [usizeSub_of_le hle, Nat.add_comm (xs.countP q) 1, ← Nat.sub_sub]
      exact ih (n - 1) (by omega)

/-- What comes after something succeeds only if that does. -/
theorem bind_eq_ok {ε α β : Type} {x : Except ε α} {f : α → Except ε β} {b : β}
    (h : x >>= f = .ok b) : ∃ a, x = .ok a ∧ f a = .ok b := by
  cases x with
  | ok a => exact ⟨a, rfl, h⟩
  | error message => cases h

structure InfoHash where
  bytes : Vector UInt8 20
  deriving DecidableEq, Repr

/-- `info_hash.0[0]`, which shards and workers are chosen by. -/
def InfoHash.firstByte (infoHash : InfoHash) : Nat := infoHash.bytes[0].toNat

instance : Ord InfoHash := ⟨compareOn InfoHash.bytes⟩

instance : Std.TransOrd InfoHash := inferInstanceAs (Std.TransCmp (compareOn InfoHash.bytes))

instance : Std.LawfulEqOrd InfoHash where
  eq_of_compare {a b} h := by
    cases a
    cases b
    exact congrArg InfoHash.mk (Std.LawfulEqOrd.eq_of_compare h)

structure PeerId where
  bytes : Vector UInt8 20
  deriving DecidableEq, Repr

abbrev SecondsSinceServerStart := UInt32

/-- Peer, connection or similar valid until this instant. -/
structure ValidUntil where
  instant : SecondsSinceServerStart
  deriving DecidableEq, Repr

namespace ValidUntil

def newWithNow (now : SecondsSinceServerStart) (offsetSeconds : UInt32) : ValidUntil :=
  ⟨now + offsetSeconds⟩

def valid (v : ValidUntil) (now : SecondsSinceServerStart) : Bool := now < v.instant

end ValidUntil

inductive PeerStatus where
  | seeding
  | leeching
  | stopped
  deriving DecidableEq, Repr

inductive AccessListMode where
  | allow
  | deny
  | off
  deriving DecidableEq, Repr

structure AccessList where
  hashes : List InfoHash
  deriving DecidableEq, Repr

namespace AccessList

def allows (list : AccessList) (mode : AccessListMode) (infoHash : InfoHash) : Bool :=
  match mode with
  | .allow => list.hashes.contains infoHash
  | .deny => !list.hashes.contains infoHash
  | .off => true

end AccessList

/-- A random generator, as the numbers it will draw. -/
structure Rng where
  draw : Nat → Nat

namespace Rng

def next (rng : Rng) : Rng := ⟨fun i => rng.draw (i + 1)⟩

/-- `gen_range(low..high)`; `none` on an empty range, where it panics. -/
def genRange (rng : Rng) (low high : Nat) : Option (Nat × Rng) :=
  if low < high then some (low + rng.draw 0 % (high - low), rng.next) else none

/-- `gen_range(low..=high)`. -/
def genRangeInclusive (rng : Rng) (low high : Nat) : Option (Nat × Rng) :=
  rng.genRange low (high + 1)

theorem genRange_spec (rng : Rng) {low high : Nat} (h : low < high) :
    ∃ x, rng.genRange low high = some (x, rng.next) ∧ low ≤ x ∧ x < high := by
  refine ⟨_, if_pos h, Nat.le_add_right _ _, ?_⟩
  have := Nat.mod_lt (rng.draw 0) (show 0 < high - low by omega)
  omega

theorem genRangeInclusive_spec (rng : Rng) {low high : Nat} (h : low ≤ high) :
    ∃ x, rng.genRangeInclusive low high = some (x, rng.next) ∧ low ≤ x ∧ x ≤ high := by
  obtain ⟨x, hx, hlow, hhigh⟩ := rng.genRange_spec (Nat.lt_succ_of_le h)
  exact ⟨x, hx, hlow, Nat.le_of_lt_succ hhigh⟩

end Rng

end Aquatic
