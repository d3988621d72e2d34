import Mathlib.Data.Set.Card

/-!
# Counting in a map with finitely many entries

A map is a function to `Option`; `count` says how many of its entries have a
property, and how that changes when the map does.
-/

namespace Tally
set_option autoImplicit false

universe u v
variable {K : Type u} {V : Type v}

@[simp] theorem filter_true (o : Option V) : (o.filter fun _ => true) = o := by
  cases o <;> rfl

@[simp] theorem filter_false (o : Option V) : (o.filter fun _ => false) = none := by
  cases o <;> rfl

/-- The keys that have a value. -/
def support (f : K → Option V) : Set K := {k | f k ≠ none}

noncomputable def count (f : K → Option V) (q : V → Bool) : Nat :=
  Set.ncard {k | ∃ v, f k = some v ∧ q v}

variable {f : K → Option V}

theorem finite_of_support (hf : (support f).Finite) (P : K → V → Prop) :
    {k | ∃ v, f k = some v ∧ P k v}.Finite := by
  apply hf.subset
  rintro k ⟨v, hv, -⟩
  simp [support, hv]

theorem count_empty (q : V → Bool) : count (fun _ : K => none) q = 0 := by
  simp [count]

theorem count_pos_iff (hf : (support f).Finite) (q : V → Bool) :
    0 < count f q ↔ ∃ k v, f k = some v ∧ q v :=
  Set.ncard_pos (finite_of_support hf fun _ v => q v)

section Update
variable [DecidableEq K]

theorem support_update (f : K → Option V) (k : K) (o : Option V) :
    support (Function.update f k o) ⊆ insert k (support f) := by
  intro k' hk'
  by_cases hk : k' = k
  · exact .inl hk
  · rw [support, Set.mem_ofPred_eq, Function.update_of_ne hk] at hk'
    exact .inr hk'

/-- The entry of `k` counts by itself. -/
theorem count_at (hf : (support f).Finite) (q : V → Bool) (k : K) :
    count f q = Set.ncard {k' | k' ≠ k ∧ ∃ v, f k' = some v ∧ q v} +
      if (f k).any q then 1 else 0 := by
  have hfin : {k' | k' ≠ k ∧ ∃ v, f k' = some v ∧ q v}.Finite :=
    (finite_of_support hf fun _ v => q v).subset fun _ h => h.2
  by_cases hk : (f k).any q = true
  · have hset : {k' | ∃ v, f k' = some v ∧ q v} =
        insert k {k' | k' ≠ k ∧ ∃ v, f k' = some v ∧ q v} := by
      ext k'
      by_cases hkk : k' = k
      · subst hkk
        simpa [Option.any_eq_true] using hk
      · simp [hkk]
    rw [count, hset, Set.ncard_insert_of_notMem (by simp) hfin, if_pos hk]
  · have hset : {k' | ∃ v, f k' = some v ∧ q v} =
        {k' | k' ≠ k ∧ ∃ v, f k' = some v ∧ q v} := by
      ext k'
      by_cases hkk : k' = k
      · subst hkk
        simpa [Option.any_eq_true] using hk
      · simp [hkk]
    rw [count, hset, if_neg hk, Nat.add_zero]

/-- A new entry adds what it counts and takes away what the entry before it counted. -/
theorem count_update (hf : (support f).Finite) (q : V → Bool) (k : K) (o : Option V) :
    (count (Function.update f k o) q + if (f k).any q then 1 else 0) =
      count f q + if o.any q then 1 else 0 := by
  have hothers : {k' | k' ≠ k ∧ ∃ v, Function.update f k o k' = some v ∧ q v} =
      {k' | k' ≠ k ∧ ∃ v, f k' = some v ∧ q v} := by
    ext k'
    by_cases hkk : k' = k
    · simp [hkk]
    · simp [hkk]
  rw [count_at ((hf.insert k).subset (support_update f k o)) q k, count_at hf q k, hothers,
    Function.update_self]
  omega

end Update

theorem support_filter (f : K → Option V) (keep : K → V → Bool) :
    support (fun k => (f k).filter (keep k)) ⊆ support f := by
  intro k hk hnone
  apply hk
  simp only [hnone, Option.filter_none]

/-- What is dropped from a map is no longer counted. -/
theorem count_filter (hf : (support f).Finite) (keep : K → V → Bool) (q : V → Bool) :
    count f q = count (fun k => (f k).filter (keep k)) q +
      Set.ncard {k | ∃ v, f k = some v ∧ keep k v = false ∧ q v} := by
  have hset : {k | ∃ v, f k = some v ∧ q v} =
      {k | ∃ v, (f k).filter (keep k) = some v ∧ q v} ∪
        {k | ∃ v, f k = some v ∧ keep k v = false ∧ q v} := by
    ext k
    cases hv : f k with
    | none => simp [hv]
    | some v => cases hkeep : keep k v <;> simp [hv, hkeep]
  have hdisjoint : Disjoint {k | ∃ v, (f k).filter (keep k) = some v ∧ q v}
      {k | ∃ v, f k = some v ∧ keep k v = false ∧ q v} := by
    rw [Set.disjoint_left]
    rintro k ⟨v, hv, -⟩ ⟨w, hw, hkeep, -⟩
    obtain ⟨hfv, hv⟩ := Option.filter_eq_some_iff.mp hv
    rw [hfv] at hw
    cases hw
    rw [hkeep] at hv
    cases hv
  have hkept := finite_of_support (hf.subset (support_filter f keep)) fun _ v => q v
  have hdropped := finite_of_support hf fun k v => keep k v = false ∧ q v
  rw [count, hset, Set.ncard_union_eq hdisjoint hkept hdropped]
  rfl

end Tally
