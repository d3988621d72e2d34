import Mathlib.Logic.Function.Basic
import Mathlib.Data.List.Nodup

/-!
# Entries that are appended once

Several threads append the keys of a table to a file. A thread takes a lock,
looks up which keys are not yet marked, appends them and marks them. Entries come
and go meanwhile, and an append may fail, but only marked entries are dropped.
-/

namespace AppendOnce
set_option autoImplicit false

universe u v
variable {T : Type u} {K : Type v}

inductive Writer (K : Type v) where
  | out
  | writing (ks : List K)
  /-- The keys are in the file and not yet marked. -/
  | written (ks : List K)

namespace Writer

def keys : Writer K → List K
  | out => []
  | writing ks | written ks => ks

def unmarked : Writer K → List K
  | out | writing _ => []
  | written ks => ks

def holds : Writer K → Prop
  | out => False
  | writing _ | written _ => True

end Writer

/-- `flag` is the mark of an entry, `lines` counts the lines of a key, and
`baseline` those that were there before its entry or come from elsewhere. -/
@[ext] structure Log (T : Type u) (K : Type v) where
  flag : K → Option Bool
  lines : K → Nat
  baseline : K → Nat
  lock : Bool
  writer : T → Writer K

/-- At most one thread holds the lock, and only what is marked or about to be
marked has a line of its own. -/
structure Once (l : Log T K) : Prop where
  locked : ∀ {t}, (l.writer t).holds → l.lock = true
  alone : ∀ {t t'}, (l.writer t).holds → (l.writer t').holds → t = t'
  nodup : ∀ t, (l.writer t).keys.Nodup
  unmarked : ∀ {t k}, k ∈ (l.writer t).keys → l.flag k = some false
  fresh : ∀ {k}, l.flag k = some false → (∀ t, k ∉ (l.writer t).unmarked) →
    l.lines k = l.baseline k
  marked : ∀ {k}, l.flag k = some true → l.lines k = l.baseline k + 1
  written : ∀ {t k}, k ∈ (l.writer t).unmarked → l.lines k = l.baseline k + 1

theorem holds_of_mem {w : Writer K} {k : K} (h : k ∈ w.keys) : w.holds := by
  cases w with
  | out => cases h
  | writing | written => trivial

theorem keys_of_unmarked {w : Writer K} {k : K} (h : k ∈ w.unmarked) : k ∈ w.keys := by
  cases w with
  | out | writing => cases h
  | written => exact h

theorem once_empty (lines : K → Nat) :
    Once (T := T) ⟨fun _ => none, lines, lines, false, fun _ => .out⟩ := by
  refine ⟨False.elim, fun h => h.elim, fun _ => List.nodup_nil, ?_, nofun, nofun, ?_⟩
  · intro t k h
    cases h
  · intro t k h
    cases h

namespace Once
variable {l l' : Log T K}

/-- Every entry has at most one line of its own. -/
theorem at_most_once (hl : Once l) {k : K} {b : Bool} (h : l.flag k = some b) :
    l.baseline k ≤ l.lines k ∧ l.lines k ≤ l.baseline k + 1 := by
  cases b with
  | true =>
    have hmarked := hl.marked h
    omega
  | false =>
    by_cases hwritten : ∃ t, k ∈ (l.writer t).unmarked
    · obtain ⟨t, hmem⟩ := hwritten
      have honce := hl.written hmem
      omega
    · have hfresh := hl.fresh h fun t hmem => hwritten ⟨t, hmem⟩
      omega

theorem not_holds (hl : Once l) (hfree : l.lock = false) (t : T) : ¬ (l.writer t).holds := by
  intro h
  have hlocked := hl.locked h
  rw [hfree] at hlocked
  cases hlocked

theorem out_of_ne (hl : Once l) {t t' : T} (hholds : (l.writer t).holds) (hne : t' ≠ t) {k : K} :
    k ∉ (l.writer t').keys :=
  fun h => hne (hl.alone (holds_of_mem h) hholds)

section Threads
variable [DecidableEq T]

/-- A thread that holds the lock goes on, or lets go of it. -/
theorem alone_update (hl : Once l) {t : T} (hholds : (l.writer t).holds) (w : Writer K) {t₁ t₂ : T}
    (h₁ : (Function.update l.writer t w t₁).holds) (h₂ : (Function.update l.writer t w t₂).holds) :
    t₁ = t₂ := by
  have hself : ∀ {t'}, (Function.update l.writer t w t').holds → t' = t := by
    intro t' h
    by_contra hne
    rw [Function.update_of_ne hne] at h
    exact hne (hl.alone h hholds)
  exact (hself h₁).trans (hself h₂).symm

/-- When it lets go, nobody holds the lock. -/
theorem out_of_update (hl : Once l) {t : T} (hholds : (l.writer t).holds) (t' : T) :
    ¬ (Function.update l.writer t .out t').holds := by
  intro h
  by_cases ht : t' = t
  · subst ht
    simp only [Function.update_self] at h
    exact h
  · rw [Function.update_of_ne ht] at h
    exact ht (hl.alone h hholds)

theorem once_acquire (hl : Once l) {t : T} {ks : List K} (hfree : l.lock = false)
    (hnodup : ks.Nodup) (hunmarked : ∀ k ∈ ks, l.flag k = some false) :
    Once { l with lock := true, writer := Function.update l.writer t (.writing ks) } := by
  have hout : ∀ {t' k}, k ∉ (l.writer t').keys := fun h =>
    hl.not_holds hfree _ (holds_of_mem h)
  have hself : ∀ {t'}, (Function.update l.writer t (.writing ks) t').holds → t' = t := by
    intro t' h
    by_contra hne
    rw [Function.update_of_ne hne] at h
    exact hl.not_holds hfree t' h
  refine ⟨fun _ => rfl, fun h h' => (hself h).trans (hself h').symm, ?_, ?_, ?_, hl.marked, ?_⟩
  · intro t'
    by_cases ht : t' = t
    · subst ht
      simp only [Function.update_self]
      exact hnodup
    · simp only [Function.update_of_ne ht]
      exact hl.nodup t'
  · intro t' k h
    by_cases ht : t' = t
    · subst ht
      simp only [Function.update_self] at h
      exact hunmarked k h
    · simp only [Function.update_of_ne ht] at h
      exact hl.unmarked h
  · intro k h _
    exact hl.fresh h fun t' h' => hout (keys_of_unmarked h')
  · intro t' k h
    by_cases ht : t' = t
    · subst ht
      simp only [Function.update_self] at h
      cases h
    · simp only [Function.update_of_ne ht] at h
      exact absurd (keys_of_unmarked h) hout

theorem once_fail (hl : Once l) {t : T} {ks : List K} (hwriter : l.writer t = .writing ks) :
    Once { l with lock := false, writer := Function.update l.writer t .out } := by
  have hholds : (l.writer t).holds := by rw [hwriter]; trivial
  have hnot := hl.out_of_update hholds
  have hkeys : ∀ {t' k}, k ∉ (Function.update l.writer t .out t').keys :=
    fun h => hnot _ (holds_of_mem h)
  refine ⟨fun h => (hnot _ h).elim, fun h => (hnot _ h).elim, ?_, fun h => (hkeys h).elim, ?_,
    hl.marked, fun h => (hkeys (keys_of_unmarked h)).elim⟩
  · intro t'
    rw [List.eq_nil_iff_forall_not_mem.mpr fun _ => hkeys]
    exact List.nodup_nil
  · intro k h _
    apply hl.fresh h
    intro t' h'
    by_cases ht : t' = t
    · rw [ht, hwriter] at h'
      cases h'
    · exact hl.out_of_ne hholds ht (keys_of_unmarked h')

end Threads

section Keys
variable [DecidableEq K]

theorem once_issue (hl : Once l) {k : K} (hnew : l.flag k = none) :
    Once { l with
      flag := Function.update l.flag k (some false)
      baseline := Function.update l.baseline k (l.lines k) } := by
  have hother : ∀ {k' b}, l.flag k' = some b → k' ≠ k := by
    rintro k' b h rfl
    rw [hnew] at h
    cases h
  refine ⟨hl.locked, hl.alone, hl.nodup, ?_, ?_, ?_, ?_⟩
  · intro t k' h
    have hunmarked := hl.unmarked h
    exact (Function.update_of_ne (hother hunmarked) _ _).trans hunmarked
  · intro k' h hfresh
    by_cases hk : k' = k
    · subst hk
      simp only [Function.update_self]
    · simp only [Function.update_of_ne hk] at h ⊢
      exact hl.fresh h hfresh
  · intro k' h
    by_cases hk : k' = k
    · subst hk
      simp only [Function.update_self] at h
      cases h
    · simp only [Function.update_of_ne hk] at h ⊢
      exact hl.marked h
  · intro t k' h
    have hk := hother (hl.unmarked (keys_of_unmarked h))
    simp only [Function.update_of_ne hk]
    exact hl.written h

theorem once_drop (hl : Once l) {ks : List K} (hmarked : ∀ k ∈ ks, l.flag k = some true) :
    Once { l with flag := fun k => if k ∈ ks then none else l.flag k } := by
  refine ⟨hl.locked, hl.alone, hl.nodup, ?_, ?_, ?_, hl.written⟩
  · intro t k h
    have hunmarked := hl.unmarked h
    have hmem : k ∉ ks := by
      intro hmem
      rw [hmarked k hmem] at hunmarked
      cases hunmarked
    simp only [if_neg hmem]
    exact hunmarked
  · intro k h hfresh
    simp only at h
    split at h
    · cases h
    · exact hl.fresh h hfresh
  · intro k h
    simp only at h
    split at h
    · cases h
    · exact hl.marked h

variable [DecidableEq T]

theorem once_append (hl : Once l) {t : T} {ks : List K} (hwriter : l.writer t = .writing ks) :
    Once { l with
      lines := fun k => l.lines k + ks.count k
      writer := Function.update l.writer t (.written ks) } := by
  have hholds : (l.writer t).holds := by rw [hwriter]; trivial
  have hkeys : ∀ {k}, k ∈ ks → k ∈ (l.writer t).keys := by
    intro k h
    rw [hwriter]
    exact h
  have hnone : ∀ {k t'}, k ∉ (l.writer t').unmarked := by
    intro k t' h
    by_cases ht : t' = t
    · rw [ht, hwriter] at h
      cases h
    · exact hl.out_of_ne hholds ht (keys_of_unmarked h)
  refine ⟨?_, fun h h' => hl.alone_update hholds _ h h', ?_, ?_, ?_, ?_, ?_⟩
  · intro t' _
    exact hl.locked hholds
  · intro t'
    by_cases ht : t' = t
    · subst ht
      have hnodup := hl.nodup t'
      rw [hwriter] at hnodup
      simp only [Function.update_self]
      exact hnodup
    · simp only [Function.update_of_ne ht]
      exact hl.nodup t'
  · intro t' k h
    by_cases ht : t' = t
    · subst ht
      simp only [Function.update_self] at h
      exact hl.unmarked (hkeys h)
    · simp only [Function.update_of_ne ht] at h
      exact hl.unmarked h
  · intro k h hfresh
    have hmem : k ∉ ks := by
      have hself := hfresh t
      simp only [Function.update_self] at hself
      exact hself
    simp only [List.count_eq_zero.mpr hmem]
    exact hl.fresh h fun _ => hnone
  · intro k h
    have hmem : k ∉ ks := by
      intro hmem
      have hunmarked := hl.unmarked (hkeys hmem)
      rw [h] at hunmarked
      cases hunmarked
    simp only [List.count_eq_zero.mpr hmem]
    exact hl.marked h
  · intro t' k h
    by_cases ht : t' = t
    · subst ht
      simp only [Function.update_self] at h
      have hnodup := hl.nodup t'
      rw [hwriter] at hnodup
      have hfresh := hl.fresh (hl.unmarked (hkeys h)) fun _ => hnone
      have hcount : ks.count k = 1 := List.count_eq_one_of_mem hnodup h
      simp only [hcount]
      omega
    · simp only [Function.update_of_ne ht] at h
      exact absurd h hnone

theorem once_mark (hl : Once l) {t : T} {ks : List K} (hwriter : l.writer t = .written ks) :
    Once { l with
      flag := fun k => if k ∈ ks then (l.flag k).map fun _ => true else l.flag k
      lock := false
      writer := Function.update l.writer t .out } := by
  have hholds : (l.writer t).holds := by rw [hwriter]; trivial
  have hout := hl.out_of_update hholds
  refine ⟨fun h => (hout _ h).elim, fun h => (hout _ h).elim, ?_, ?_, ?_, ?_, ?_⟩
  · intro t'
    rw [List.eq_nil_iff_forall_not_mem.mpr fun _ h => hout t' (holds_of_mem h)]
    exact List.nodup_nil
  · intro t' k h
    exact (hout t' (holds_of_mem h)).elim
  · intro k h _
    simp only at h
    split at h
    · obtain ⟨b, -, hb⟩ := Option.map_eq_some_iff.mp h
      cases hb
    · rename_i hmem
      apply hl.fresh h
      intro t' h'
      by_cases ht : t' = t
      · rw [ht, hwriter] at h'
        exact hmem h'
      · exact hl.out_of_ne hholds ht (keys_of_unmarked h')
  · intro k h
    simp only at h
    split at h
    · rename_i hmem
      apply hl.written (t := t)
      rw [hwriter]
      exact hmem
    · exact hl.marked h
  · intro t' k h
    exact (hout t' (holds_of_mem (keys_of_unmarked h))).elim

end Keys

theorem once_add (hl : Once l) (more : K → Nat) :
    Once { l with
      lines := fun k => l.lines k + more k
      baseline := fun k => l.baseline k + more k } := by
  refine ⟨hl.locked, hl.alone, hl.nodup, hl.unmarked, ?_, ?_, ?_⟩
  · intro k h hfresh
    have heq := hl.fresh h hfresh
    simp only
    omega
  · intro k h
    have heq := hl.marked h
    simp only
    omega
  · intro t k h
    have heq := hl.written h
    simp only
    omega

end Once

variable [DecidableEq T] [DecidableEq K]

inductive Step (l : Log T K) : Log T K → Prop where
  | issue (k : K) (hnew : l.flag k = none) :
      Step l { l with
        flag := Function.update l.flag k (some false)
        baseline := Function.update l.baseline k (l.lines k) }
  | acquire (t : T) (ks : List K) (hfree : l.lock = false) (hnodup : ks.Nodup)
      (hunmarked : ∀ k ∈ ks, l.flag k = some false) :
      Step l { l with lock := true, writer := Function.update l.writer t (.writing ks) }
  | append (t : T) (ks : List K) (hwriter : l.writer t = .writing ks) :
      Step l { l with
        lines := fun k => l.lines k + ks.count k
        writer := Function.update l.writer t (.written ks) }
  | fail (t : T) (ks : List K) (hwriter : l.writer t = .writing ks) :
      Step l { l with lock := false, writer := Function.update l.writer t .out }
  | mark (t : T) (ks : List K) (hwriter : l.writer t = .written ks) :
      Step l { l with
        flag := fun k => if k ∈ ks then (l.flag k).map fun _ => true else l.flag k
        lock := false
        writer := Function.update l.writer t .out }
  | drop (ks : List K) (hmarked : ∀ k ∈ ks, l.flag k = some true) :
      Step l { l with flag := fun k => if k ∈ ks then none else l.flag k }
  | add (more : K → Nat) :
      Step l { l with
        lines := fun k => l.lines k + more k
        baseline := fun k => l.baseline k + more k }

theorem once_step {l l' : Log T K} (hl : Once l) (h : Step l l') : Once l' := by
  cases h with
  | issue k hnew => exact hl.once_issue hnew
  | acquire t ks hfree hnodup hunmarked => exact hl.once_acquire hfree hnodup hunmarked
  | append t ks hwriter => exact hl.once_append hwriter
  | fail t ks hwriter => exact hl.once_fail hwriter
  | mark t ks hwriter => exact hl.once_mark hwriter
  | drop ks hmarked => exact hl.once_drop hmarked
  | add more => exact hl.once_add more

end AppendOnce
