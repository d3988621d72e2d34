import Aquatic.Common.Startup
import Aquatic.Lib.Collections

/-!
# What becomes of a start

Every start comes to an end. If each worker has one socket, or privileges are kept, all workers
run in the end or one has stopped; privileges are dropped once, by when no socket is left to
create. With two sockets the first one is as far as a worker gets: it waits at a barrier for
sockets that nobody will create.
-/

namespace Aquatic.Startup
open Collections Transition
set_option autoImplicit false

/-- What one step does to the worker `i`. -/
inductive Moves (config : StartConfig) (s : Startup) (i : Nat) : Place → Startup → Prop where
  | created (sockets : Nat) :
      Moves config s i (.creating sockets) (s.afterSocketCreation config i (sockets + 1))
  | failed (sockets : Nat) : Moves config s i (.creating sockets) (s.setWorker i (.stopped sockets))
  | woken {sockets generationId : Nat} (h : generationId ≠ s.barrier.generationId) :
      Moves config s i (.waiting sockets generationId) (s.setWorker i (next config sockets))
  | dropped (sockets : Nat) : Moves config s i (.leading sockets)
      { s.setWorker i (next config sockets) with privilegesDropped := s.privilegesDropped + 1 }
  | refused (sockets : Nat) : Moves config s i (.leading sockets) (s.setWorker i (.stopped sockets))
  | ended (sockets : Nat) : Moves config s i (.running sockets) (s.setWorker i (.stopped sockets))

variable {config : StartConfig} {s s' : Startup} {i : Nat} {place : Place}

theorem moves_of_step {action : Action} (h : step config s action = some s') :
    ∃ i place, s.workers[i]? = some place ∧ Moves config s i place s' := by
  cases action with
  | createSocket i ok =>
    simp only [step] at h
    split at h
    · rename_i sockets hi
      cases h
      cases ok with
      | true => exact ⟨i, _, hi, .created sockets⟩
      | false => exact ⟨i, _, hi, .failed sockets⟩
    · cases h
  | wake i =>
    simp only [step] at h
    split at h
    · rename_i sockets generationId hi
      split at h
      · cases h
      · rename_i hne
        cases h
        exact ⟨i, _, hi, .woken hne⟩
    · cases h
  | dropPrivileges i ok =>
    simp only [step] at h
    split at h
    · rename_i sockets hi
      cases h
      cases ok with
      | true => exact ⟨i, _, hi, .dropped sockets⟩
      | false => exact ⟨i, _, hi, .refused sockets⟩
    · cases h
  | stop i =>
    simp only [step] at h
    split at h
    · rename_i sockets hi
      cases h
      exact ⟨i, _, hi, .ended sockets⟩
    · cases h

/-- Nothing is left to do for any worker that has not stopped. -/
def Quiet (config : StartConfig) (s : Startup) : Prop :=
  ∀ action s', step config s action = some s' → ∃ i, action = .stop i

theorem Quiet.cases (h : Quiet config s) (hplace : place ∈ s.workers) :
    place.isStopped = true ∨ (∃ sockets, place = .running sockets) ∨
      ∃ sockets, place = .waiting sockets s.barrier.generationId := by
  obtain ⟨i, hi⟩ := List.mem_iff_getElem?.mp hplace
  cases place with
  | creating sockets =>
    have hstep : step config s (.createSocket i true) =
        some (s.afterSocketCreation config i (sockets + 1)) := by
      simp only [step, hi]
      rfl
    obtain ⟨_, heq⟩ := h _ _ hstep
    cases heq
  | waiting sockets generationId =>
    by_cases heq : generationId = s.barrier.generationId
    · exact .inr (.inr ⟨sockets, heq ▸ rfl⟩)
    · have hstep : step config s (.wake i) = some (s.setWorker i (next config sockets)) := by
        simp only [step, hi]
        rw [if_neg heq]
      obtain ⟨_, heq⟩ := h _ _ hstep
      cases heq
  | leading sockets =>
    have hstep : step config s (.dropPrivileges i false) =
        some (s.setWorker i (.stopped sockets)) := by
      simp only [step, hi]
      rfl
    obtain ⟨_, heq⟩ := h _ _ hstep
    cases heq
  | running sockets => exact .inr (.inl ⟨sockets, rfl⟩)
  | stopped sockets => exact .inl rfl

/-- Privileges are kept, and the workers do not wait for each other. -/
structure Free (config : StartConfig) (s : Startup) : Prop where
  keep : config.dropPrivileges = false
  privileges : s.privilegesDropped = 0
  places : ∀ place ∈ s.workers,
    (∃ n, n < config.tracker.numSocketsPerWorker ∧ place = .creating n) ∨
    place = .running config.tracker.numSocketsPerWorker ∨ ∃ n, place = .stopped n

/-- Nobody has got past the barrier. -/
structure Gathering (config : StartConfig) (s : Startup) : Prop where
  drop : config.dropPrivileges = true
  privileges : s.privilegesDropped = 0
  numThreads : s.barrier.numThreads = config.numSockets
  generationId : s.barrier.generationId = 0
  count : s.barrier.count = s.workers.countP Place.isWaiting
  count_lt : s.barrier.count < config.numSockets
  places : ∀ place ∈ s.workers, place = .creating 0 ∨ place = .waiting 1 0 ∨ place = .stopped 0

/-- All workers have got to the barrier. -/
structure Past (config : StartConfig) (s : Startup) : Prop where
  drop : config.dropPrivileges = true
  one : config.tracker.numSocketsPerWorker = 1
  generationId : s.barrier.generationId = 1
  privileges : s.privilegesDropped + s.workers.countP Place.isLeading ≤ 1
  leader : s.privilegesDropped = 0 →
    ∃ place ∈ s.workers, place.isLeading = true ∨ place.isStopped = true
  places : ∀ place ∈ s.workers, place = .waiting 1 0 ∨ place = .leading 1 ∨ place = .running 1 ∨
    place = .stopped 1

structure Inv (config : StartConfig) (s : Startup) : Prop where
  length : s.workers.length = config.socketWorkers
  phase : Free config s ∨ Gathering config s ∨ Past config s

theorem inv_init (config : StartConfig) : Inv config (init config) where
  length := List.length_replicate
  phase := by
    have hplaces : ∀ place ∈ (init config).workers, place = .creating 0 :=
      fun place hplace => List.eq_of_mem_replicate hplace
    cases hdrop : config.dropPrivileges with
    | false =>
      refine .inl ⟨hdrop, rfl, ?_⟩
      intro place hplace
      exact .inl ⟨0, config.numSocketsPerWorker_pos, hplaces place hplace⟩
    | true =>
      refine .inr (.inl ⟨hdrop, rfl, rfl, rfl, ?_, ?_, ?_⟩)
      · change 0 = (List.replicate config.socketWorkers (Place.creating 0)).countP Place.isWaiting
        rw [List.countP_replicate]
        rfl
      · exact Nat.mul_pos config.socketWorkers_pos config.numSocketsPerWorker_pos
      · intro place hplace
        exact .inl (hplaces place hplace)

theorem forall_setWorker {P : Place → Prop} (h : ∀ place ∈ s.workers, P place) (hplace : P place) :
    ∀ other ∈ (s.setWorker i place).workers, P other := by
  intro other hother
  rcases List.mem_or_eq_of_mem_set hother with hold | rfl
  · exact h other hold
  · exact hplace

theorem Free.moves (hs : Free config s) (hi : s.workers[i]? = some place)
    (h : Moves config s i place s') : Free config s' := by
  have hplace := hs.places place (List.mem_of_getElem? hi)
  have hset : ∀ {place' : Place},
      (∃ n, n < config.tracker.numSocketsPerWorker ∧ place' = .creating n) ∨
      place' = .running config.tracker.numSocketsPerWorker ∨ (∃ n, place' = .stopped n) →
      Free config (s.setWorker i place') :=
    fun h => ⟨hs.keep, hs.privileges, forall_setWorker hs.places h⟩
  cases h with
  | created sockets =>
    obtain ⟨n, hlt, heq⟩ : ∃ n, n < config.tracker.numSocketsPerWorker ∧
        Place.creating sockets = .creating n := by
      rcases hplace with h | h | ⟨n, h⟩
      · exact h
      · cases h
      · cases h
    cases heq
    unfold afterSocketCreation next
    rw [hs.keep, if_neg Bool.false_ne_true]
    split
    · rename_i hmore
      exact hset (.inl ⟨_, hmore, rfl⟩)
    · rename_i hall
      have heq : sockets + 1 = config.tracker.numSocketsPerWorker := by omega
      exact hset (.inr (.inl (heq ▸ rfl)))
  | failed sockets => exact hset (.inr (.inr ⟨_, rfl⟩))
  | woken hne =>
    rcases hplace with ⟨n, -, h⟩ | h | ⟨n, h⟩
    · cases h
    · cases h
    · cases h
  | dropped sockets =>
    rcases hplace with ⟨n, -, h⟩ | h | ⟨n, h⟩
    · cases h
    · cases h
    · cases h
  | refused sockets => exact hset (.inr (.inr ⟨_, rfl⟩))
  | ended sockets => exact hset (.inr (.inr ⟨_, rfl⟩))

/-- The barrier is full only if everybody else waits at it, with one socket each. -/
theorem Gathering.full (hs : Gathering config s) (hlength : s.workers.length = config.socketWorkers)
    (hi : s.workers[i]? = some (.creating 0)) (hfull : config.numSockets ≤ s.barrier.count + 1) :
    config.tracker.numSocketsPerWorker = 1 ∧
      ∀ place ∈ s.workers.set i (.waiting 1 0), place = .waiting 1 0 := by
  have hcount := countP_set_add hi Place.isWaiting (.waiting 1 0)
  rw [← hs.count] at hcount
  change (s.workers.set i (.waiting 1 0)).countP Place.isWaiting + 0 = s.barrier.count + 1 at hcount
  have hle : (s.workers.set i (.waiting 1 0)).countP Place.isWaiting ≤ config.socketWorkers := by
    rw [← hlength, ← List.length_set]
    exact List.countP_le_length
  have hpos := config.numSocketsPerWorker_pos
  have hone : config.tracker.numSocketsPerWorker = 1 := by
    have hmul : config.socketWorkers * config.tracker.numSocketsPerWorker ≤
        config.socketWorkers * 1 := by
      change config.numSockets ≤ _
      omega
    have := Nat.le_of_mul_le_mul_left hmul config.socketWorkers_pos
    omega
  refine ⟨hone, ?_⟩
  have hall : (s.workers.set i (.waiting 1 0)).countP Place.isWaiting =
      (s.workers.set i (.waiting 1 0)).length := by
    rw [List.length_set, hlength]
    unfold StartConfig.numSockets at hfull
    rw [hone, Nat.mul_one] at hfull
    omega
  intro place hplace
  have hwaiting := List.countP_eq_length.mp hall place hplace
  rcases List.mem_or_eq_of_mem_set hplace with hold | rfl
  · rcases hs.places place hold with rfl | rfl | rfl
    · cases hwaiting
    · rfl
    · cases hwaiting
  · rfl

/-- The last one to arrive leads, and all others wait. -/
theorem Gathering.led (hs : Gathering config s) (hlength : s.workers.length = config.socketWorkers)
    (hi : s.workers[i]? = some (.creating 0)) (hfull : config.numSockets ≤ s.barrier.count + 1)
    (barrier : Barrier) (hgeneration : barrier.generationId = 1) :
    Past config { s.setWorker i (.leading 1) with barrier } := by
  obtain ⟨hone, hothers⟩ := hs.full hlength hi hfull
  have hleading := countP_set_add hi Place.isLeading (.leading 1)
  have hnone : s.workers.countP Place.isLeading = 0 := by
    apply List.countP_eq_zero.mpr
    intro place hplace
    rcases hs.places place hplace with rfl | rfl | rfl
    · exact Bool.false_ne_true
    · exact Bool.false_ne_true
    · exact Bool.false_ne_true
  rw [hnone] at hleading
  change (s.workers.set i (.leading 1)).countP Place.isLeading + 0 = 0 + 1 at hleading
  have hlt : i < s.workers.length := (List.getElem?_eq_some_iff.mp hi).1
  have hled : Place.leading 1 ∈ s.workers.set i (.leading 1) := List.mem_set hlt _
  refine ⟨hs.drop, hone, hgeneration, ?_, fun _ => ⟨_, hled, .inl rfl⟩, ?_⟩
  · change s.privilegesDropped + (s.workers.set i (.leading 1)).countP Place.isLeading ≤ 1
    rw [hs.privileges]
    omega
  · intro place hplace
    obtain ⟨j, hj⟩ := List.mem_iff_getElem?.mp hplace
    change (s.workers.set i (.leading 1))[j]? = some place at hj
    by_cases heq : i = j
    · rw [heq, List.getElem?_set_self (heq ▸ hlt)] at hj
      cases hj
      exact .inr (.inl rfl)
    · rw [List.getElem?_set_ne heq, ← List.getElem?_set_ne heq] at hj
      exact .inl (hothers place (List.mem_of_getElem? hj))

theorem Gathering.moves (hs : Gathering config s)
    (hlength : s.workers.length = config.socketWorkers) (hi : s.workers[i]? = some place)
    (h : Moves config s i place s') : Gathering config s' ∨ Past config s' := by
  rcases hs.places place (List.mem_of_getElem? hi) with rfl | rfl | rfl
  · have hwaiting := countP_set_add hi Place.isWaiting
    cases h with
    | created =>
      unfold afterSocketCreation Barrier.wait
      rw [hs.drop, if_pos rfl, hs.numThreads, hs.generationId]
      split
      · rename_i generationId barrier hwait
        split at hwait
        · rename_i hlt
          cases hwait
          refine .inl ⟨hs.drop, hs.privileges, rfl, rfl, ?_, hlt, ?_⟩
          · exact (congrArg (· + 1) hs.count).trans (hwaiting (.waiting 1 0)).symm
          · exact forall_setWorker hs.places (.inr (.inl rfl))
        · cases hwait
      · rename_i barrier hwait
        split at hwait
        · cases hwait
        · rename_i hfull
          cases hwait
          exact .inr (hs.led hlength hi (by omega) _ rfl)
    | failed =>
      refine .inl ⟨hs.drop, hs.privileges, hs.numThreads, hs.generationId, ?_, hs.count_lt, ?_⟩
      · exact hs.count.trans (hwaiting (.stopped 0)).symm
      · exact forall_setWorker hs.places (.inr (.inr rfl))
  · cases h with
    | woken hne => exact absurd hs.generationId.symm hne
  · cases h

theorem Past.moves (hs : Past config s) (hi : s.workers[i]? = some place)
    (h : Moves config s i place s') : Past config s' := by
  have hnext : next config 1 = .running 1 := by
    unfold next
    rw [hs.one, if_neg (Nat.lt_irrefl 1)]
  have hlt : i < s.workers.length := (List.getElem?_eq_some_iff.mp hi).1
  have hleading := countP_set_add hi Place.isLeading
  -- a worker that is not the leader moves, or the leader fails
  have hset : ∀ {place' : Place}, place'.isLeading = false →
      (place.isLeading = true → place'.isStopped = true) → place.isStopped = false →
      (place' = .running 1 ∨ place' = .stopped 1) → Past config (s.setWorker i place') := by
    intro place' hnot hfailed hgoing hplace'
    have hcount := hleading place'
    rw [hnot, if_neg Bool.false_ne_true] at hcount
    refine ⟨hs.drop, hs.one, hs.generationId, ?_, ?_, ?_⟩
    · change s.privilegesDropped + (s.workers.set i place').countP Place.isLeading ≤ 1
      have := hs.privileges
      omega
    · intro hzero
      obtain ⟨other, hother, hleads⟩ := hs.leader hzero
      obtain ⟨j, hj⟩ := List.mem_iff_getElem?.mp hother
      by_cases heq : i = j
      · rw [← heq, hi] at hj
        cases hj
        refine ⟨place', List.mem_set hlt _, .inr (hfailed ?_)⟩
        exact hleads.resolve_right (ne_true_of_eq_false hgoing)
      · refine ⟨other, List.mem_of_getElem? (i := j) ?_, hleads⟩
        exact (List.getElem?_set_ne heq).trans hj
    · exact forall_setWorker hs.places (.inr (.inr hplace'))
  rcases hs.places place (List.mem_of_getElem? hi) with rfl | rfl | rfl | rfl
  · cases h with
    | woken => exact hset (hnext ▸ rfl) nofun rfl (.inl hnext)
  · cases h with
    | dropped =>
      have hcount := hleading (.running 1)
      change (s.workers.set i (.running 1)).countP Place.isLeading + 1 = _ + 0 at hcount
      have hle := hs.privileges
      rw [hnext]
      refine ⟨hs.drop, hs.one, hs.generationId, ?_, ?_, ?_⟩
      · change s.privilegesDropped + 1 + (s.workers.set i (.running 1)).countP Place.isLeading ≤ 1
        omega
      · intro hzero
        change s.privilegesDropped + 1 = 0 at hzero
        omega
      · exact forall_setWorker hs.places (.inr (.inr (.inl rfl)))
    | refused => exact hset rfl (fun _ => rfl) rfl (.inr rfl)
  · cases h with
    | ended => exact hset rfl nofun rfl (.inr rfl)
  · cases h

/-- What a worker still has to do, at most. -/
def rank (config : StartConfig) : Place → Nat
  | .creating sockets => 2 * (config.tracker.numSocketsPerWorker - sockets) + 2
  | .waiting sockets _ | .leading sockets =>
    2 * (config.tracker.numSocketsPerWorker - sockets) + 3
  | .running _ => 1
  | .stopped _ => 0

def work (config : StartConfig) (s : Startup) : Nat := (s.workers.map (rank config)).sum

theorem rank_next (config : StartConfig) (sockets : Nat) :
    rank config (next config sockets) < 2 * (config.tracker.numSocketsPerWorker - sockets) + 3 := by
  unfold next
  split
  · exact Nat.lt_succ_self _
  · change 1 < _
    omega

theorem work_setWorker (hi : s.workers[i]? = some place) {place' : Place}
    (h : rank config place' < rank config place) :
    work config (s.setWorker i place') < work config s := by
  have hsum := sum_map_set_add hi (rank config) place'
  change ((s.workers.set i place').map (rank config)).sum < (s.workers.map (rank config)).sum
  omega

/-- Nobody creates more sockets than it should. -/
theorem Inv.creating (hs : Inv config s) {sockets : Nat}
    (hplace : .creating sockets ∈ s.workers) : sockets < config.tracker.numSocketsPerWorker := by
  rcases hs.phase with hs | hs | hs
  · rcases hs.places _ hplace with ⟨n, hlt, heq⟩ | heq | ⟨n, heq⟩
    · cases heq
      exact hlt
    · cases heq
    · cases heq
  · rcases hs.places _ hplace with heq | heq | heq
    · cases heq
      exact config.numSocketsPerWorker_pos
    · cases heq
    · cases heq
  · rcases hs.places _ hplace with heq | heq | heq | heq
    · cases heq
    · cases heq
    · cases heq
    · cases heq

theorem work_moves (hs : Inv config s) (hi : s.workers[i]? = some place)
    (h : Moves config s i place s') : work config s' < work config s := by
  cases h with
  | created sockets =>
    have hlt := hs.creating (List.mem_of_getElem? hi)
    have hnext := rank_next config (sockets + 1)
    have hwaits : 2 * (config.tracker.numSocketsPerWorker - (sockets + 1)) + 3 <
        rank config (.creating sockets) := by
      change _ < 2 * (config.tracker.numSocketsPerWorker - sockets) + 2
      omega
    unfold afterSocketCreation
    split
    · split
      · exact work_setWorker hi hwaits
      · exact work_setWorker hi hwaits
    · exact work_setWorker hi (hnext.trans hwaits)
  | failed sockets => exact work_setWorker hi (Nat.succ_pos _)
  | woken hne => exact work_setWorker hi (rank_next config _)
  | dropped sockets => exact work_setWorker hi (rank_next config _)
  | refused sockets => exact work_setWorker hi (Nat.succ_pos _)
  | ended sockets => exact work_setWorker hi Nat.one_pos

theorem inv_step {action : Action} (hs : Inv config s) (h : step config s action = some s') :
    Inv config s' ∧ work config s' < work config s := by
  obtain ⟨i, place, hi, hmoves⟩ := moves_of_step h
  refine ⟨⟨?_, ?_⟩, work_moves hs hi hmoves⟩
  · rw [← hs.length]
    cases hmoves with
    | created sockets =>
      unfold afterSocketCreation
      split
      · split
        · exact List.length_set
        · exact List.length_set
      · exact List.length_set
    | failed | woken | dropped | refused | ended => exact List.length_set
  · rcases hs.phase with hfree | hgathering | hpast
    · exact .inl (hfree.moves hi hmoves)
    · exact .inr (hgathering.moves hs.length hi hmoves)
    · exact .inr (.inr (hpast.moves hi hmoves))

/-- Privileges are to be dropped when two sockets are there. -/
def Deadlocks (config : StartConfig) : Prop :=
  config.dropPrivileges = true ∧ config.tracker.usesBoth = true

/-- What is so when all has been done. -/
inductive Ended (config : StartConfig) (s : Startup) : Prop where
  | finished {i : Nat} (h : s.finishedWorker = some i)
  | started (hdeadlocks : ¬ Deadlocks config)
      (hprivileges : s.privilegesDropped = if config.dropPrivileges then 1 else 0)
      (hplaces : ∀ place ∈ s.workers, place = .running config.tracker.numSocketsPerWorker)
  | stuck (hdeadlocks : Deadlocks config) (hprivileges : s.privilegesDropped = 0)
      (hplaces : ∀ place ∈ s.workers, place = .waiting 1 s.barrier.generationId)

/-- What is always so. -/
structure Started (config : StartConfig) (s : Startup) : Prop where
  length : s.workers.length = config.socketWorkers
  once : s.privilegesDropped ≤ if config.dropPrivileges then 1 else 0
  /-- Privileges are dropped when no socket is left to create, and no worker runs before. -/
  last : config.dropPrivileges = true →
    0 < s.privilegesDropped ∨ (∃ sockets, .running sockets ∈ s.workers) →
    ∀ place ∈ s.workers, place.sockets = config.tracker.numSocketsPerWorker
  /-- Nobody gets to its second socket. -/
  blocked : Deadlocks config → ∀ place ∈ s.workers,
    place = .creating 0 ∨ place = .waiting 1 s.barrier.generationId ∨ place = .stopped 0

theorem Free.not_deadlocks (hs : Free config s) : ¬ Deadlocks config := by
  rintro ⟨hdrop, -⟩
  rw [hs.keep] at hdrop
  cases hdrop

theorem Past.not_deadlocks (hs : Past config s) : ¬ Deadlocks config := by
  rintro ⟨-, hboth⟩
  have heq := Tracker.numSocketsPerWorker_eq config.numSocketsPerWorker_pos
  rw [hs.one, if_pos hboth] at heq
  omega

theorem Inv.started (hs : Inv config s) : Started config s := by
  refine ⟨hs.length, ?_, ?_, ?_⟩
  · rcases hs.phase with hs | hs | hs
    · rw [hs.privileges]
      exact Nat.zero_le _
    · rw [hs.privileges]
      exact Nat.zero_le _
    · rw [hs.drop, if_pos rfl]
      have := hs.privileges
      omega
  · intro hdrop hpast place hplace
    rcases hs.phase with hs | hs | hs
    · rw [hs.keep] at hdrop
      cases hdrop
    · rw [hs.privileges] at hpast
      rcases hpast with hlt | ⟨sockets, hrunning⟩
      · cases hlt
      · rcases hs.places _ hrunning with heq | heq | heq
        · cases heq
        · cases heq
        · cases heq
    · rw [hs.one]
      rcases hs.places place hplace with rfl | rfl | rfl | rfl
      · rfl
      · rfl
      · rfl
      · rfl
  · intro hdeadlocks place hplace
    rcases hs.phase with hs | hs | hs
    · exact absurd hdeadlocks hs.not_deadlocks
    · rw [hs.generationId]
      exact hs.places place hplace
    · exact absurd hdeadlocks hs.not_deadlocks

theorem Inv.ended (hs : Inv config s) (hquiet : Quiet config s) : Ended config s := by
  cases hfinished : s.finishedWorker with
  | some i => exact .finished hfinished
  | none =>
    have hgoing := List.findIdx?_eq_none_iff.mp hfinished
    have hcases : ∀ place ∈ s.workers, (∃ sockets, place = .running sockets) ∨
        ∃ sockets, place = .waiting sockets s.barrier.generationId := by
      intro place hplace
      exact (hquiet.cases hplace).resolve_left (ne_true_of_eq_false (hgoing place hplace))
    rcases hs.phase with hfree | hgathering | hpast
    · refine .started hfree.not_deadlocks ?_ ?_
      · rw [hfree.keep]
        exact hfree.privileges
      · intro place hplace
        rcases hfree.places place hplace with ⟨n, -, rfl⟩ | rfl | ⟨n, rfl⟩
        · rcases hcases _ hplace with ⟨_, heq⟩ | ⟨_, heq⟩
          · cases heq
          · cases heq
        · rfl
        · cases hgoing _ hplace
    · have hplaces : ∀ place ∈ s.workers, place = .waiting 1 0 := by
        intro place hplace
        rcases hgathering.places place hplace with rfl | rfl | rfl
        · rcases hcases _ hplace with ⟨_, heq⟩ | ⟨_, heq⟩
          · cases heq
          · cases heq
        · rfl
        · cases hgoing _ hplace
      refine .stuck ⟨hgathering.drop, ?_⟩ hgathering.privileges
        (hgathering.generationId.symm ▸ hplaces)
      -- with one socket each, all sockets would be there
      by_contra hone
      have heq := Tracker.numSocketsPerWorker_eq config.numSocketsPerWorker_pos
      rw [if_neg hone] at heq
      have hcount : s.workers.countP Place.isWaiting = s.workers.length := by
        apply List.countP_eq_length.mpr
        intro place hplace
        rw [hplaces place hplace]
        rfl
      have hlt := hgathering.count_lt
      rw [hgathering.count, hcount, hs.length, StartConfig.numSockets, heq] at hlt
      omega
    · refine .started hpast.not_deadlocks ?_ ?_
      · rw [hpast.drop, if_pos rfl]
        by_contra hne
        have hle := hpast.privileges
        have hzero : s.privilegesDropped = 0 := by omega
        obtain ⟨place, hplace, hleads⟩ := hpast.leader hzero
        rcases hcases place hplace with ⟨_, rfl⟩ | ⟨_, rfl⟩
        · exact hleads.elim Bool.false_ne_true Bool.false_ne_true
        · exact hleads.elim Bool.false_ne_true Bool.false_ne_true
      · intro place hplace
        rw [hpast.one]
        rcases hcases place hplace with ⟨_, rfl⟩ | ⟨_, rfl⟩
        · rcases hpast.places _ hplace with heq | heq | heq | heq
          · cases heq
          · cases heq
          · exact heq
          · cases heq
        · rcases hpast.places _ hplace with heq | heq | heq | heq
          · rw [hpast.generationId] at heq
            cases heq
          · cases heq
          · cases heq
          · cases heq

/-- Every start ends, and it ends well unless a worker has stopped or privileges are to be
dropped with two sockets for each worker. -/
theorem socket_workers_start (config : StartConfig) {actions : List Action} {s : Startup}
    (h : run (step config) (init config) actions = some s) :
    actions.length ≤ config.socketWorkers * (2 * config.tracker.numSocketsPerWorker + 2) ∧
      Started config s ∧ (Quiet config s → Ended config s) := by
  obtain ⟨hs, hle⟩ := length_le_of_decreasing (work config) inv_step (inv_init config) h
  have hwork : work config (init config) =
      config.socketWorkers * (2 * config.tracker.numSocketsPerWorker + 2) := by
    unfold work init
    rw [List.map_replicate, List.sum_replicate]
    rfl
  exact ⟨by omega, hs.started, hs.ended⟩

theorem socket_workers_start_both :
    Started ⟨.udp true true, true, 2, by decide, by decide⟩
      ⟨[.waiting 1 0, .waiting 1 0], ⟨4, 2, 0⟩, 0⟩ :=
  (@socket_workers_start _ [.createSocket 1 true, .createSocket 0 true] _ rfl).2.1

end Aquatic.Startup
