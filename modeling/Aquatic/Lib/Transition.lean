/-!
# Runs of a labelled step function

A system is a function `step : σ → α → Option σ`: every choice (which process
moves, what it reads from outside) is in the action, and `none` says that the
action is not enabled. `AllSteps` speaks about the steps of one run, so that a
result can ask for a condition on every step and conclude another.

The second half is about components that answer: `observe` runs one and collects
its answers, and a forward simulation makes two of them answer alike.
-/

namespace Transition
set_option autoImplicit false

universe u v w x
variable {σ : Type u} {α : Type v}

section Runs
variable (step : σ → α → Option σ)

/-- The state after the actions, if every one of them was enabled. -/
def run : σ → List α → Option σ
  | s, [] => some s
  | s, a :: as => (step s a).bind fun s' => run s' as

/-- `P s a s'` for every step of the run, taken from `s` to `s'` by `a`. -/
def AllSteps (P : σ → α → σ → Prop) : σ → List α → Prop
  | _, [] => True
  | s, a :: as => ∀ s', step s a = some s' → P s a s' ∧ AllSteps P s' as

/-- `s` is the state after some run from `init`. -/
def Reachable (init s : σ) : Prop := ∃ as, run step init as = some s

variable {step}

theorem allSteps_append {P : σ → α → σ → Prop} {s : σ} {as bs : List α} :
    AllSteps step P s (as ++ bs) ↔
      AllSteps step P s as ∧ ∀ s', run step s as = some s' → AllSteps step P s' bs := by
  induction as generalizing s with
  | nil => simp [AllSteps, run]
  | cons a as ih =>
    simp only [List.cons_append, AllSteps, run]
    constructor
    · intro h
      refine ⟨fun s' hs => ⟨(h s' hs).1, (ih.mp (h s' hs).2).1⟩, ?_⟩
      intro t ht
      obtain ⟨s', hs, ht⟩ := Option.bind_eq_some_iff.mp ht
      exact (ih.mp (h s' hs).2).2 t ht
    · rintro ⟨h, hb⟩ s' hs
      refine ⟨(h s' hs).1, ih.mpr ⟨(h s' hs).2, fun t ht => hb t ?_⟩⟩
      exact Option.bind_eq_some_iff.mpr ⟨s', hs, ht⟩

section Invariant
variable {Inv : σ → Prop} {C P : σ → α → σ → Prop}
variable (keep : ∀ {s a s'}, Inv s → step s a = some s' → C s a s' → Inv s')
include keep

/-- An invariant kept by every step that meets `C` holds after a run of such steps. -/
theorem run_invariant {s s' : σ} {as : List α} (hs : Inv s) (hC : AllSteps step C s as)
    (hrun : run step s as = some s') : Inv s' := by
  induction as generalizing s with
  | nil =>
    cases hrun
    exact hs
  | cons a as ih =>
    obtain ⟨t, ht, hrun⟩ := Option.bind_eq_some_iff.mp hrun
    obtain ⟨hCa, hCas⟩ := hC t ht
    exact ih (keep hs ht hCa) hCas hrun

/-- What an invariant and `C` give for one step holds of every step of the run. -/
theorem allSteps_of_invariant
    (give : ∀ {s a s'}, Inv s → step s a = some s' → C s a s' → P s a s')
    {s : σ} {as : List α} (hs : Inv s) (hC : AllSteps step C s as) : AllSteps step P s as := by
  induction as generalizing s with
  | nil => trivial
  | cons a as ih =>
    intro s' hs'
    obtain ⟨hCa, hCas⟩ := hC s' hs'
    exact ⟨give hs hs' hCa, ih (keep hs hs' hCa) hCas⟩

end Invariant

theorem AllSteps.cons {P : σ → α → σ → Prop} {s s' : σ} {a : α} {as : List α}
    (hstep : step s a = some s') (hP : P s a s') (h : AllSteps step P s' as) :
    AllSteps step P s (a :: as) := by
  intro t ht
  rw [hstep] at ht
  cases ht
  exact ⟨hP, h⟩

theorem AllSteps.and {P Q : σ → α → σ → Prop} {s : σ} {as : List α} (hP : AllSteps step P s as)
    (hQ : AllSteps step Q s as) : AllSteps step (fun s a s' => P s a s' ∧ Q s a s') s as := by
  induction as generalizing s with
  | nil => trivial
  | cons a as ih =>
    intro s' hs'
    exact ⟨⟨(hP s' hs').1, (hQ s' hs').1⟩, ih (hP s' hs').2 (hQ s' hs').2⟩

theorem allSteps_of_mem {Q : α → Prop} {s : σ} {as : List α} (h : ∀ a ∈ as, Q a) :
    AllSteps step (fun _ a _ => Q a) s as := by
  induction as generalizing s with
  | nil => trivial
  | cons a as ih =>
    intro s' _
    exact ⟨h a List.mem_cons_self, ih fun b hb => h b (List.mem_cons_of_mem a hb)⟩

/-- The same for an invariant that every step keeps. -/
theorem allSteps_of_kept {Inv : σ → Prop} {P : σ → α → σ → Prop}
    (keep : ∀ {s a s'}, Inv s → step s a = some s' → Inv s')
    (give : ∀ {s a s'}, Inv s → step s a = some s' → P s a s')
    {s : σ} (hs : Inv s) (as : List α) : AllSteps step P s as :=
  allSteps_of_invariant (fun hs h _ => keep hs h) (fun hs h _ => give hs h) hs
    (allSteps_of_mem (Q := fun _ => True) fun _ _ => trivial)

theorem invariant_of_reachable {Inv : σ → Prop}
    (keep : ∀ {s a s'}, Inv s → step s a = some s' → Inv s') {init s : σ} (hinit : Inv init)
    (h : Reachable step init s) : Inv s := by
  obtain ⟨as, hrun⟩ := h
  exact run_invariant (fun hs hstep _ => keep hs hstep) hinit
    (allSteps_of_mem (Q := fun _ => True) fun _ _ => trivial) hrun

/-- The same for an invariant that keeps the system from getting stuck. -/
theorem invariant_of_total {Inv : σ → Prop}
    (total : ∀ {s} a, Inv s → ∃ s', step s a = some s' ∧ Inv s') {init s : σ} (hinit : Inv init)
    (h : Reachable step init s) : Inv s := by
  refine invariant_of_reachable ?_ hinit h
  intro s a s' hs hstep
  obtain ⟨t, ht, hInv⟩ := total a hs
  rw [hstep] at ht
  cases ht
  exact hInv

/-- A system that an invariant keeps from getting stuck runs through, and `P` holds all along. -/
theorem run_of_total {Inv : σ → Prop} {P : σ → α → σ → Prop}
    (total : ∀ {s} a, Inv s → ∃ s', step s a = some s' ∧ Inv s' ∧ P s a s')
    {s : σ} (hs : Inv s) (as : List α) :
    (∃ s', run step s as = some s') ∧ AllSteps step P s as := by
  induction as generalizing s with
  | nil => exact ⟨⟨s, rfl⟩, trivial⟩
  | cons a as ih =>
    obtain ⟨s', hstep, hs', hP⟩ := total a hs
    obtain ⟨⟨t, ht⟩, hall⟩ := ih hs'
    refine ⟨⟨t, ?_⟩, .cons hstep hP hall⟩
    rw [run, hstep]
    exact ht

/-- Steps that bring something down lead to a state where no more is to be done. -/
theorem exists_run_of_decreasing {Inv Done : σ → Prop} {C : σ → α → σ → Prop}
    (measure : σ → Nat)
    (progress : ∀ {s}, Inv s → Done s ∨
      ∃ a s', step s a = some s' ∧ C s a s' ∧ Inv s' ∧ measure s' < measure s)
    {s : σ} (hs : Inv s) :
    ∃ as s', run step s as = some s' ∧ AllSteps step C s as ∧ Inv s' ∧ Done s' := by
  induction hn : measure s using Nat.strongRecOn generalizing s with
  | ind n ih =>
    rcases progress hs with hdone | ⟨a, t, hstep, hC, ht, hlt⟩
    · exact ⟨[], s, rfl, trivial, hs, hdone⟩
    · obtain ⟨as, s', hrun, hall, hs', hdone⟩ := ih (measure t) (hn ▸ hlt) ht rfl
      refine ⟨a :: as, s', ?_, .cons hstep hC hall, hs', hdone⟩
      rw [run, hstep]
      exact hrun

/-- A run is no longer than what its steps bring down. -/
theorem length_le_of_decreasing {Inv : σ → Prop} (measure : σ → Nat)
    (keep : ∀ {s a s'}, Inv s → step s a = some s' → Inv s' ∧ measure s' < measure s)
    {s s' : σ} {as : List α} (hs : Inv s) (hrun : run step s as = some s') :
    Inv s' ∧ as.length + measure s' ≤ measure s := by
  induction as generalizing s with
  | nil =>
    cases hrun
    exact ⟨hs, Nat.le_of_eq (Nat.zero_add _)⟩
  | cons a as ih =>
    obtain ⟨t, hstep, hrun⟩ := Option.bind_eq_some_iff.mp hrun
    obtain ⟨ht, hlt⟩ := keep hs hstep
    obtain ⟨hs', hle⟩ := ih ht hrun
    rw [List.length_cons]
    exact ⟨hs', by omega⟩

/-- Conditions that are equivalent at every step, as long as they have held, are
equivalent along a run. -/
theorem allSteps_iff {Inv : σ → Prop} {P Q : σ → α → σ → Prop}
    (keep : ∀ {s a s'}, Inv s → step s a = some s' → P s a s' → Inv s')
    (same : ∀ {s a s'}, Inv s → step s a = some s' → (P s a s' ↔ Q s a s'))
    {s : σ} (hs : Inv s) (as : List α) : AllSteps step P s as ↔ AllSteps step Q s as := by
  induction as generalizing s with
  | nil => exact Iff.rfl
  | cons a as ih =>
    refine forall_congr' fun s' => forall_congr' fun hs' => ?_
    constructor
    · rintro ⟨hP, hall⟩
      exact ⟨(same hs hs').mp hP, (ih (keep hs hs' hP)).mp hall⟩
    · rintro ⟨hQ, hall⟩
      have hP := (same hs hs').mpr hQ
      exact ⟨hP, (ih (keep hs hs' hP)).mpr hall⟩

/-- The same for an invariant that every step keeps. -/
theorem allSteps_congr {Inv : σ → Prop} {P Q : σ → α → σ → Prop}
    (keep : ∀ {s a s'}, Inv s → step s a = some s' → Inv s')
    (same : ∀ {s a s'}, Inv s → step s a = some s' → (P s a s' ↔ Q s a s'))
    {s : σ} (hs : Inv s) (as : List α) : AllSteps step P s as ↔ AllSteps step Q s as :=
  allSteps_iff (fun hs h _ => keep hs h) same hs as

/-- Conditions that are equivalent at every step, whatever has happened. -/
theorem allSteps_congr_step {P Q : σ → α → σ → Prop}
    (same : ∀ {s a s'}, step s a = some s' → (P s a s' ↔ Q s a s')) (s : σ) (as : List α) :
    AllSteps step P s as ↔ AllSteps step Q s as :=
  @allSteps_iff σ α step (fun _ => True) P Q (fun _ _ _ => trivial) (fun _ h => same h) s trivial as

theorem run_append (s : σ) (as bs : List α) :
    run step s (as ++ bs) = (run step s as).bind fun s' => run step s' bs := by
  induction as generalizing s with
  | nil => rfl
  | cons a as ih =>
    rw [List.cons_append, run, run, Option.bind_assoc]
    exact congrArg _ (funext fun s' => ih s')

/-- What holds of all steps of a run holds of the step after it. -/
theorem AllSteps.last {P : σ → α → σ → Prop} {s t t' : σ} {as : List α} {a : α}
    (h : AllSteps step P s (as ++ [a])) (hrun : run step s as = some t)
    (hstep : step t a = some t') : P t a t' :=
  ((allSteps_append.mp h).2 t hrun t' hstep).1

end Runs

section Observations
variable {β : Type w} {τ : Type x}

/-- Run a component that answers every action, collecting the answers. -/
def observe (step : σ → α → Option (β × σ)) : σ → List α → Option (List β × σ)
  | s, [] => some ([], s)
  | s, a :: as => do
    let (b, s) ← step s a
    let (bs, s) ← observe step s as
    return (b :: bs, s)

/-- The same for a component that never fails. -/
def answers (step : τ → α → β × τ) : τ → List α → List β × τ
  | t, [] => ([], t)
  | t, a :: as =>
    let (b, t) := step t a
    let (bs, t) := answers step t as
    (b :: bs, t)

theorem answers_append (step : τ → α → β × τ) (t : τ) (as bs : List α) :
    answers step t (as ++ bs) =
      ((answers step t as).1 ++ (answers step (answers step t as).2 bs).1,
        (answers step (answers step t as).2 bs).2) := by
  induction as generalizing t with
  | nil => rfl
  | cons a as ih => simp only [List.cons_append, answers, ih]

/-- A forward simulation: no step of the concrete component fails, it answers
what the abstract one answers, and the relation is kept. -/
theorem observe_eq_answers {step : σ → α → Option (β × σ)} {spec : τ → α → β × τ}
    {R : σ → τ → Prop}
    (sim : ∀ {s t} a, R s t → ∃ s', step s a = some ((spec t a).1, s') ∧ R s' (spec t a).2)
    {s : σ} {t : τ} (as : List α) (h : R s t) :
    ∃ s', observe step s as = some ((answers spec t as).1, s') ∧ R s' (answers spec t as).2 := by
  induction as generalizing s t with
  | nil => exact ⟨s, rfl, h⟩
  | cons a as ih =>
    obtain ⟨s₁, hs₁, h₁⟩ := sim a h
    obtain ⟨s₂, hs₂, h₂⟩ := ih h₁
    exact ⟨s₂, by simp [observe, answers, hs₁, hs₂], h₂⟩

/-- Whatever is done from `s`: each answer is one that `Spec` allows from `t` on, and the
relation holds all along. -/
def Follows (step : σ → α → Option (β × σ)) (Spec : σ → τ → α → β → τ → Prop)
    (R : σ → τ → Prop) : σ → τ → List α → Prop
  | s, t, [] => R s t
  | s, t, a :: as => R s t ∧
    ∀ b s', step s a = some (b, s') → ∃ t', Spec s t a b t' ∧ Follows step Spec R s' t' as

/-- A forward simulation where the specification leaves a choice, for actions that meet `Q`. -/
theorem follows_of_simulation_of {step : σ → α → Option (β × σ)}
    {Spec : σ → τ → α → β → τ → Prop} {Inv : σ → Prop} {R : σ → τ → Prop} {Q : α → Prop}
    (keep : ∀ {s a b s'}, Inv s → step s a = some (b, s') → Inv s')
    (sim : ∀ {s t a b s'}, Inv s → Q a → R s t → step s a = some (b, s') →
      ∃ t', Spec s t a b t' ∧ R s' t')
    {s : σ} {t : τ} (hs : Inv s) (h : R s t) {as : List α} (has : ∀ a ∈ as, Q a) :
    Follows step Spec R s t as := by
  induction as generalizing s t with
  | nil => exact h
  | cons a as ih =>
    refine ⟨h, ?_⟩
    intro b s' hstep
    obtain ⟨t', hspec, h'⟩ := sim hs (has a List.mem_cons_self) h hstep
    exact ⟨t', hspec, ih (keep hs hstep) h' fun a ha => has a (List.mem_cons_of_mem _ ha)⟩

/-- The same for all actions. -/
theorem follows_of_simulation {step : σ → α → Option (β × σ)} {Spec : σ → τ → α → β → τ → Prop}
    {Inv : σ → Prop} {R : σ → τ → Prop}
    (keep : ∀ {s a b s'}, Inv s → step s a = some (b, s') → Inv s')
    (sim : ∀ {s t a b s'}, Inv s → R s t → step s a = some (b, s') →
      ∃ t', Spec s t a b t' ∧ R s' t')
    {s : σ} {t : τ} (hs : Inv s) (h : R s t) (as : List α) : Follows step Spec R s t as :=
  follows_of_simulation_of (Q := fun _ => True) keep (fun hs _ => sim hs) hs h
    fun _ _ => trivial

end Observations

end Transition
