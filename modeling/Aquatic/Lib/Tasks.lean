import Mathlib.Data.Set.Card
import Aquatic.Lib.Collections

/-!
# Tasks with handles

A server starts a task for each of its clients and keeps a handle to it in a table, under a
key that the table hands out. A task that ends removes what is under its key. Before that, its
handle may be taken out of the table, and then the task is told to stop, over a channel that
holds one message. As long as no key is handed out twice, the table is nothing but an index:
everything is as if each task had its handle with it.
-/

namespace Tasks
open Collections
set_option autoImplicit false

universe u v w x
variable {K : Type u} {H : Type v} {T : Type w} {A : Type x}

/-- A handle shares the data and the channel of the task that it was created with. -/
structure Handle (H : Type v) where
  task : Nat
  data : H

structure Task (K : Type u) (T : Type w) where
  key : K
  data : T
  /-- The place in its channel is taken. -/
  stop : Bool
  running : Bool

/-- `issued` are the keys that have been handed out. -/
structure Table (K : Type u) (H : Type v) (T : Type w) [DecidableEq K] where
  handles : IndexMap K (Handle H)
  tasks : Nat → Option (Task K T)
  issued : List K
  started : Nat

namespace Table
variable [DecidableEq K]

def empty : Table K H T := ⟨.empty, fun _ => none, [], 0⟩

def mapTask (s : Table K H T) (n : Nat) (f : Task K T → Task K T) : Table K H T :=
  { s with tasks := fun m => if m = n then (s.tasks m).map f else s.tasks m }

/-- No key is handed out twice. -/
def start (s : Table K H T) (key : K) (handle : H) (data : T) : Option (Table K H T) :=
  if key ∈ s.issued then none
  else some {
    handles := s.handles.insert key ⟨s.started, handle⟩
    tasks := fun n => if n = s.started then some ⟨key, data, false, true⟩ else s.tasks n
    issued := key :: s.issued
    started := s.started + 1 }

/-- What is under the key is removed, whoever's handle it is. -/
def remove (s : Table K H T) (key : K) : Table K H T := { s with handles := s.handles.erase key }

/-- A task that is done ends. -/
def finish (s : Table K H T) (n : Nat) (done : T → Bool) : Option (Table K H T) :=
  (s.tasks n).bind fun task =>
    if task.running && done task.data then
      some ((s.mapTask n fun task => { task with running := false }).remove task.key)
    else none

/-- A task does something that its data tells, under its key. -/
def act (s : Table K H T) (n : Nat) (f : K → T → Option (A × T)) : Option (A × Table K H T) :=
  (s.tasks n).bind fun task =>
    if task.running then
      (f task.key task.data).map fun (answer, data) =>
        (answer, s.mapTask n fun task => { task with data })
    else none

/-- Something is done to the data that the handle under a key shares, if there is one. -/
def modifyShared (s : Table K H T) (key : K) (f : T → T) : Table K H T :=
  match s.handles.get key with
  | some handle => s.mapTask handle.task fun task => { task with data := f task.data }
  | none => s

/-- The outcome of a visit of the handle; `none` to drop it. -/
def visited (s : Table K H T) (visit : K → H → T → Option H) (key : K) (handle : Handle H) :
    Option (Handle H) :=
  (s.tasks handle.task).bind fun task =>
    (visit key handle.data task.data).map fun data => { handle with data }

/-- The handles that are dropped by a visit of all. -/
def dropped (s : Table K H T) (visit : K → H → T → Option H) : IndexMap K (Handle H) :=
  s.handles.retain fun key handle => (s.visited visit key handle).isNone

/-- Visit all handles, drop some and tell their tasks to stop. -/
def sweep (s : Table K H T) (visit : K → H → T → Option H) : Table K H T :=
  { s with
    handles := s.handles.filterMap (s.visited visit)
    tasks := fun n => (s.tasks n).map fun task =>
      if (s.dropped visit).values.any fun handle => handle.task = n then { task with stop := true }
      else task }

end Table

/-- A running task with its handle, unless that has been dropped. -/
structure Client (K : Type u) (H : Type v) (T : Type w) where
  key : K
  data : T
  handle : Option H

/-- The clients that have been let in and are not gone, by their numbers. -/
abbrev Clients (K : Type u) (H : Type v) (T : Type w) := Nat → Option (Client K H T)

namespace Client

/-- A client with a handle is visited; without an outcome it loses the handle. -/
def swept (visit : K → H → T → Option H) (client : Client K H T) : Client K H T :=
  { client with handle := client.handle.bind fun handle => visit client.key handle client.data }

end Client

namespace Clients

/-- The clients that are being served: those with a handle. -/
def served (clients : Clients K H T) : Set Nat :=
  {n | ∃ client, clients n = some client ∧ client.handle.isSome = true}

/-- The client `n` is being served under the key. -/
def Serves (clients : Clients K H T) (key : K) (n : Nat) : Prop :=
  ∃ client, clients n = some client ∧ client.key = key ∧ client.handle.isSome = true

def set (clients : Clients K H T) (n : Nat) (client : Option (Client K H T)) : Clients K H T :=
  fun m => if m = n then client else clients m

variable {clients : Clients K H T}

/-- What holds of a client that is let in or has changed, and of all others, holds of all. -/
theorem forall_set {P : Nat → Client K H T → Prop} {n : Nat} {client : Option (Client K H T)}
    (h : ∀ m other, clients m = some other → P m other) (hn : ∀ c, client = some c → P n c) :
    ∀ m other, clients.set n client m = some other → P m other := by
  intro m other hm
  unfold set at hm
  split at hm
  · rename_i heq
    rw [heq]
    exact hn other hm
  · exact h m other hm

theorem served_set_subset (n : Nat) (client : Option (Client K H T)) :
    (clients.set n client).served ⊆ insert n clients.served := by
  rintro m ⟨other, hother, hsome⟩
  unfold set at hother
  split at hother
  · rename_i heq
    exact Or.inl heq
  · exact Or.inr ⟨other, hother, hsome⟩

/-- A client that stays, or goes, is served at most as before. -/
theorem served_set_subset_of_kept {n : Nat} {client : Option (Client K H T)}
    (h : ∀ c, client = some c → c.handle.isSome = true → n ∈ clients.served) :
    (clients.set n client).served ⊆ clients.served := by
  intro m hm
  rcases served_set_subset n client hm with heq | hserved
  · obtain ⟨other, hother, hsome⟩ := hm
    rw [set, if_pos heq] at hother
    rw [heq]
    exact h other hother hsome
  · exact hserved

theorem map_set {T' : Type w} (f : Client K H T → Client K H T') (n : Nat)
    (client : Option (Client K H T)) :
    (fun m => (clients.set n client m).map f) =
      set (fun m => (clients m).map f) n (client.map f) := by
  funext m
  unfold set
  split <;> rfl

/-- Clients that change, each by itself, and get no handles. -/
theorem served_map_subset {T' : Type w} {f : Client K H T → Client K H T'}
    (h : ∀ client, (f client).handle.isSome = true → client.handle.isSome = true) :
    served (fun n => (clients n).map f) ⊆ clients.served := by
  rintro n ⟨client, hclient, hsome⟩
  obtain ⟨before, hbefore, rfl⟩ := Option.map_eq_some_iff.mp hclient
  exact ⟨before, hbefore, h before hsome⟩

theorem serves_map_iff {T' : Type w} (f : Client K H T → Client K H T')
    (hkey : ∀ client, (f client).key = client.key)
    (hhandle : ∀ client, (f client).handle = client.handle) (key : K) (n : Nat) :
    Serves (fun n => (clients n).map f) key n ↔ clients.Serves key n := by
  constructor
  · rintro ⟨client, hclient, hclient', hsome⟩
    obtain ⟨before, hbefore, rfl⟩ := Option.map_eq_some_iff.mp hclient
    exact ⟨before, hbefore, (hkey before).symm.trans hclient', hhandle before ▸ hsome⟩
  · rintro ⟨client, hclient, hclient', hsome⟩
    exact ⟨f client, congrArg (Option.map f) hclient, (hkey client).trans hclient',
      (hhandle client).symm ▸ hsome⟩

theorem served_map_eq {T' : Type w} {f : Client K H T → Client K H T'}
    (h : ∀ client, (f client).handle = client.handle) :
    served (fun n => (clients n).map f) = clients.served := by
  refine Set.Subset.antisymm (served_map_subset fun client hsome => h client ▸ hsome) ?_
  rintro n ⟨client, hclient, hsome⟩
  exact ⟨f client, congrArg (Option.map f) hclient, (h client).symm ▸ hsome⟩

end Clients

namespace Table
variable [DecidableEq K]

/-- The running tasks, each with the handle that it shares its data with. -/
def clients (s : Table K H T) : Clients K H T := fun n =>
  (s.tasks n).bind fun task =>
    if task.running then
      some {
        key := task.key
        data := task.data
        handle := ((s.handles.get task.key).filter fun handle => handle.task = n).map Handle.data }
    else none

/-- The handles are those of running tasks that have not been told to stop. -/
structure Linked (s : Table K H T) : Prop where
  handle : ∀ {key handle}, s.handles.get key = some handle → ∃ task,
    s.tasks handle.task = some task ∧ task.key = key ∧ task.running = true ∧ task.stop = false
  told : ∀ {n task}, s.tasks n = some task → task.running = true →
    s.handles.get task.key = none → task.stop = true
  unique : ∀ {n n' task task'}, s.tasks n = some task → s.tasks n' = some task' →
    task.key = task'.key → n = n'
  issued : ∀ {n task}, s.tasks n = some task → task.key ∈ s.issued ∧ n < s.started

variable {s s' : Table K H T} {key : K} {n : Nat}

theorem linked_empty : (empty : Table K H T).Linked where
  handle := by
    intro key handle h
    cases h
  told := by
    intro n task h
    cases h
  unique := by
    intro n n' task task' h
    cases h
  issued := by
    intro n task h
    cases h

theorem Linked.task_eq (hs : s.Linked) {task : Task K T} {handle : Handle H}
    (htask : s.tasks n = some task) (hhandle : s.handles.get task.key = some handle) :
    handle.task = n := by
  obtain ⟨task', htask', hkey, -, -⟩ := hs.handle hhandle
  exact hs.unique htask' htask hkey

theorem Linked.clients_eq (hs : s.Linked) {task : Task K T} (htask : s.tasks n = some task) :
    s.clients n = if task.running then
      some ⟨task.key, task.data, (s.handles.get task.key).map Handle.data⟩ else none := by
  have hfilter : (s.handles.get task.key).filter (fun handle => handle.task = n) =
      s.handles.get task.key := by
    cases hhandle : s.handles.get task.key with
    | none => rfl
    | some handle => simp [hs.task_eq htask hhandle]
  rw [clients, htask, Option.bind_some, hfilter]

theorem clients_of_none (h : s.tasks n = none) : s.clients n = none := by
  rw [clients, h, Option.bind_none]

/-- The table finds the client that a key belongs to. -/
theorem Linked.get_eq_some_iff (hs : s.Linked) {handle : Handle H} :
    s.handles.get key = some handle ↔
      ∃ data, s.clients handle.task = some ⟨key, data, some handle.data⟩ := by
  constructor
  · intro hget
    obtain ⟨task, htask, hkey, hrunning, -⟩ := hs.handle hget
    refine ⟨task.data, ?_⟩
    rw [hs.clients_eq htask, if_pos hrunning, hkey, hget, Option.map_some]
  · rintro ⟨data, hclient⟩
    cases htask : s.tasks handle.task with
    | none =>
      rw [clients_of_none htask] at hclient
      cases hclient
    | some task =>
      rw [hs.clients_eq htask] at hclient
      split at hclient
      · injection hclient with hclient
        injection hclient with hkey hdata hhandle
        obtain ⟨handle', hget, hdata'⟩ := Option.map_eq_some_iff.mp hhandle
        have htask' := hs.task_eq htask hget
        rw [← hkey, hget]
        cases handle
        cases handle'
        cases hdata'
        cases htask'
        rfl
      · cases hclient

theorem Linked.running (hs : s.Linked) {client : Client K H T} (h : s.clients n = some client) :
    ∃ task, s.tasks n = some task ∧ task.running = true ∧
      client = ⟨task.key, task.data, (s.handles.get task.key).map Handle.data⟩ := by
  cases htask : s.tasks n with
  | none =>
    rw [clients_of_none htask] at h
    cases h
  | some task =>
    rw [hs.clients_eq htask] at h
    split at h
    · rename_i hrunning
      cases h
      exact ⟨task, rfl, hrunning, rfl⟩
    · cases h

/-- A client without a handle has been told to stop. -/
theorem Linked.told_of_none (hs : s.Linked) {client : Client K H T}
    (h : s.clients n = some client) (hhandle : client.handle = none) :
    ∃ task, s.tasks n = some task ∧ task.running = true ∧ task.stop = true := by
  obtain ⟨task, htask, hrunning, rfl⟩ := hs.running h
  exact ⟨task, htask, hrunning, hs.told htask hrunning (Option.map_eq_none_iff.mp hhandle)⟩

theorem Linked.key_inj (hs : s.Linked) {m : Nat} {client client' : Client K H T}
    (h : s.clients n = some client) (h' : s.clients m = some client')
    (hkey : client.key = client'.key) : n = m := by
  obtain ⟨task, htask, -, rfl⟩ := hs.running h
  obtain ⟨task', htask', -, rfl⟩ := hs.running h'
  exact hs.unique htask htask' hkey

/-- The keys of the table are those of the clients being served. -/
theorem Linked.isSome_get_iff (hs : s.Linked) (key : K) :
    (s.handles.get key).isSome = true ↔ ∃ n, s.clients.Serves key n := by
  rw [Option.isSome_iff_exists]
  constructor
  · rintro ⟨handle, hget⟩
    obtain ⟨data, hclient⟩ := hs.get_eq_some_iff.mp hget
    exact ⟨handle.task, _, hclient, rfl, rfl⟩
  · rintro ⟨n, ⟨key', data, handle⟩, hclient, rfl, hsome⟩
    obtain ⟨opened, rfl⟩ := Option.isSome_iff_exists.mp hsome
    exact ⟨⟨n, opened⟩, hs.get_eq_some_iff.mpr ⟨data, hclient⟩⟩

/-- As many handles as there are clients being served. -/
theorem Linked.len_eq_ncard (hs : s.Linked) : s.handles.len = s.clients.served.ncard := by
  rw [IndexMap.len_eq_count, IndexMap.count_eq_ncard]
  refine Set.ncard_congr (fun _ h => (Classical.choose h).task) ?_ ?_ ?_
  · intro key h
    obtain ⟨data, hclient⟩ := hs.get_eq_some_iff.mp (Classical.choose_spec h).1
    exact ⟨_, hclient, rfl⟩
  · intro key key' h h' htask
    obtain ⟨data, hclient⟩ := hs.get_eq_some_iff.mp (Classical.choose_spec h).1
    obtain ⟨data', hclient'⟩ := hs.get_eq_some_iff.mp (Classical.choose_spec h').1
    rw [htask, hclient'] at hclient
    cases hclient
    rfl
  · rintro n ⟨client, hclient, hsome⟩
    obtain ⟨data, hdata⟩ := Option.isSome_iff_exists.mp hsome
    have hget : s.handles.get client.key = some ⟨n, data⟩ := by
      apply hs.get_eq_some_iff.mpr
      refine ⟨client.data, ?_⟩
      rw [hclient, ← hdata]
    refine ⟨client.key, ⟨_, hget, rfl⟩, ?_⟩
    have hchosen := (Classical.choose_spec (⟨_, hget, rfl⟩ :
      ∃ v, s.handles.get client.key = some v ∧ (fun _ : Handle H => true) v = true)).1
    exact congrArg Handle.task (Option.some.inj (hchosen.symm.trans hget))

theorem Linked.finite_served (hs : s.Linked) : s.clients.served.Finite := by
  refine (Set.finite_lt_nat s.started).subset ?_
  rintro n ⟨client, hclient, -⟩
  obtain ⟨task, htask, -⟩ := hs.running hclient
  exact (hs.issued htask).2

theorem Linked.ncard_served_le (hs : s.Linked) {clients : Clients K H T}
    (h : clients.served ⊆ s.clients.served) : clients.served.ncard ≤ s.clients.served.ncard :=
  Set.ncard_le_ncard h hs.finite_served

theorem Linked.ncard_served_set_le (hs : s.Linked) (n : Nat) (client : Option (Client K H T)) :
    (s.clients.set n client).served.ncard ≤ s.clients.served.ncard + 1 := by
  refine (Set.ncard_le_ncard (Clients.served_set_subset n client) ?_).trans
    (Set.ncard_insert_le _ _)
  exact hs.finite_served.insert n

/-- The tasks stay where they are, with the keys that they have. -/
theorem Linked.kept (hs : s.Linked) (g : Nat → Task K T → Task K T)
    (htasks : ∀ n, s'.tasks n = (s.tasks n).map (g n)) (hkey : ∀ n task, (g n task).key = task.key)
    (hissued : s'.issued = s.issued) (hstarted : s'.started = s.started)
    (handle : ∀ {key handle}, s'.handles.get key = some handle → ∃ task,
      s.tasks handle.task = some task ∧ task.key = key ∧ (g handle.task task).running = true ∧
        (g handle.task task).stop = false)
    (told : ∀ {n task}, s.tasks n = some task → (g n task).running = true →
      s'.handles.get task.key = none → (g n task).stop = true) : s'.Linked := by
  constructor
  · intro key h hget
    obtain ⟨task, htask, hkey', hrunning, hstop⟩ := handle hget
    refine ⟨g h.task task, ?_, (hkey _ _).trans hkey', hrunning, hstop⟩
    rw [htasks, htask, Option.map_some]
  · intro n task htask hrunning hnone
    rw [htasks] at htask
    obtain ⟨before, hbefore, rfl⟩ := Option.map_eq_some_iff.mp htask
    rw [hkey] at hnone
    exact told hbefore hrunning hnone
  · intro n n' task task' htask htask' heq
    rw [htasks] at htask htask'
    obtain ⟨before, hbefore, rfl⟩ := Option.map_eq_some_iff.mp htask
    obtain ⟨before', hbefore', rfl⟩ := Option.map_eq_some_iff.mp htask'
    rw [hkey, hkey] at heq
    exact hs.unique hbefore hbefore' heq
  · intro n task htask
    rw [htasks] at htask
    obtain ⟨before, hbefore, rfl⟩ := Option.map_eq_some_iff.mp htask
    rw [hkey, hissued, hstarted]
    exact hs.issued hbefore

theorem tasks_mapTask (s : Table K H T) (n : Nat) (f : Task K T → Task K T) (m : Nat) :
    (s.mapTask n f).tasks m = (s.tasks m).map fun task => if m = n then f task else task := by
  unfold mapTask
  by_cases heq : m = n
  · simp [heq]
  · simp [heq]

theorem Linked.start (hs : s.Linked) {handle : H} {data : T}
    (h : s.start key handle data = some s') : s'.Linked ∧ s.clients s.started = none ∧
      (∀ n client, s.clients n = some client → client.key ≠ key) ∧
      s'.clients = s.clients.set s.started (some ⟨key, data, some handle⟩) := by
  unfold Table.start at h
  split at h
  · cases h
  rename_i hfresh
  cases h
  have hkey : ∀ {n task}, s.tasks n = some task → task.key ≠ key := by
    intro n task htask heq
    exact hfresh (heq ▸ (hs.issued htask).1)
  have hnumber : ∀ {n task}, s.tasks n = some task → n ≠ s.started := by
    intro n task htask heq
    exact Nat.lt_irrefl _ (heq ▸ (hs.issued htask).2)
  have hget : ∀ {n task}, s.tasks n = some task →
      (s.handles.insert key ⟨s.started, handle⟩).get task.key = s.handles.get task.key := by
    intro n task htask
    rw [IndexMap.get_insert, if_neg (hkey htask)]
  have hlinked : Linked { handles := s.handles.insert key ⟨s.started, handle⟩
                          tasks := fun n =>
                            if n = s.started then some ⟨key, data, false, true⟩ else s.tasks n
                          issued := key :: s.issued
                          started := s.started + 1 : Table K H T } := by
    constructor
    · intro key' handle' hget'
      rw [IndexMap.get_insert] at hget'
      split at hget'
      · cases hget'
        exact ⟨_, if_pos rfl, (by assumption : key' = key).symm, rfl, rfl⟩
      · obtain ⟨task, htask, htask'⟩ := hs.handle hget'
        exact ⟨task, (if_neg (hnumber htask)).trans htask, htask'⟩
    · intro n task htask hrunning hnone
      dsimp only at htask hnone
      split at htask
      · cases htask
        rw [IndexMap.get_insert, if_pos rfl] at hnone
        cases hnone
      · rw [hget htask] at hnone
        exact hs.told htask hrunning hnone
    · intro n n' task task' htask htask' heq
      dsimp only at htask htask'
      split at htask <;> split at htask'
      · omega
      · cases htask
        exact absurd heq.symm (hkey htask')
      · cases htask'
        exact absurd heq (hkey htask)
      · exact hs.unique htask htask' heq
    · intro n task htask
      dsimp only at htask
      split at htask
      · cases htask
        exact ⟨List.mem_cons_self, by dsimp only; omega⟩
      · obtain ⟨hmem, hlt⟩ := hs.issued htask
        exact ⟨List.mem_cons_of_mem _ hmem, Nat.lt_succ_of_lt hlt⟩
  refine ⟨hlinked, ?_, ?_, ?_⟩
  · cases htask : s.tasks s.started with
    | none => exact clients_of_none htask
    | some task => exact absurd rfl (hnumber htask)
  · intro n client hclient
    obtain ⟨task, htask, -, rfl⟩ := hs.running hclient
    exact hkey htask
  · funext n
    unfold Clients.set
    split
    · rename_i heq
      rw [hlinked.clients_eq (if_pos heq), if_pos rfl, IndexMap.get_insert, if_pos rfl]
      rfl
    · rename_i hne
      cases htask : s.tasks n with
      | none => rw [clients_of_none htask, clients_of_none ((if_neg hne).trans htask)]
      | some task =>
        rw [hs.clients_eq htask, hlinked.clients_eq ((if_neg hne).trans htask), hget htask]

theorem Linked.finish (hs : s.Linked) {done : T → Bool} (h : s.finish n done = some s') :
    s'.Linked ∧ (∃ client, s.clients n = some client ∧ done client.data = true) ∧
      s'.clients = s.clients.set n none := by
  obtain ⟨task, htask, h⟩ := Option.bind_eq_some_iff.mp h
  split at h
  on_goal 2 => cases h
  rename_i hdone
  rw [Bool.and_eq_true] at hdone
  obtain ⟨hrunning, hdone⟩ := hdone
  cases h
  have htasks := s.tasks_mapTask n fun task => { task with running := false }
  have hget : ∀ {m other}, s.tasks m = some other → m ≠ n →
      ((s.mapTask n fun task => { task with running := false }).remove task.key).handles.get
        other.key = s.handles.get other.key := by
    intro m other hother hne
    exact (IndexMap.get_erase _ _ _).trans (if_neg fun heq => hne (hs.unique hother htask heq))
  have hlinked : ((s.mapTask n fun task => { task with running := false }).remove
      task.key).Linked := by
    refine hs.kept _ htasks ?_ rfl rfl ?_ ?_
    · intro m other
      split <;> rfl
    · intro key handle hhandle
      change (s.handles.erase task.key).get key = some handle at hhandle
      rw [IndexMap.get_erase] at hhandle
      split at hhandle
      · cases hhandle
      · rename_i hne
        obtain ⟨other, hother, hkey, hrunning', hstop⟩ := hs.handle hhandle
        have hm : handle.task ≠ n := by
          intro heq
          rw [heq, htask] at hother
          cases hother
          exact hne hkey.symm
        refine ⟨other, hother, hkey, ?_⟩
        rw [if_neg hm]
        exact ⟨hrunning', hstop⟩
    · intro m other hother hrunning' hnone
      split at hrunning'
      · cases hrunning'
      · rename_i hm
        rw [if_neg hm]
        rw [hget hother hm] at hnone
        exact hs.told hother hrunning' hnone
  refine ⟨hlinked, ⟨_, (hs.clients_eq htask).trans (if_pos hrunning), hdone⟩, ?_⟩
  · funext m
    unfold Clients.set
    cases hother : s.tasks m with
    | none =>
      rw [clients_of_none hother, ite_self, clients_of_none]
      exact (htasks m).trans (by rw [hother, Option.map_none])
    | some other =>
      rw [hs.clients_eq hother,
        hlinked.clients_eq ((htasks m).trans (by rw [hother, Option.map_some]))]
      by_cases hm : m = n
      · simp only [if_pos hm]
        rfl
      · simp only [if_neg hm, hget hother hm]

/-- A task changes in its data alone. -/
theorem Linked.mapTask (hs : s.Linked) (n : Nat) (f : T → T) :
    (s.mapTask n fun task => { task with data := f task.data }).Linked ∧
      (s.mapTask n fun task => { task with data := f task.data }).clients = s.clients.set n
        ((s.clients n).map fun client => { client with data := f client.data }) := by
  have htasks := s.tasks_mapTask n fun task => { task with data := f task.data }
  have hlinked : (s.mapTask n fun task => { task with data := f task.data }).Linked := by
    refine hs.kept _ htasks ?_ rfl rfl ?_ ?_
    · intro m other
      split <;> rfl
    · intro key handle hhandle
      obtain ⟨task, htask, hkey, hrunning⟩ := hs.handle hhandle
      refine ⟨task, htask, hkey, ?_⟩
      split <;> exact hrunning
    · intro m other hother hrunning hnone
      have hrunning' : other.running = true := by
        split at hrunning <;> exact hrunning
      have hstop := hs.told hother hrunning' hnone
      split <;> exact hstop
  refine ⟨hlinked, ?_⟩
  funext m
  unfold Clients.set
  cases hother : s.tasks m with
  | none =>
    have hnone := clients_of_none hother
    rw [clients_of_none ((htasks m).trans (by rw [hother, Option.map_none])), hnone]
    split
    · rename_i heq
      rw [← heq, hnone, Option.map_none]
    · rfl
  | some other =>
    rw [hlinked.clients_eq ((htasks m).trans (by rw [hother, Option.map_some]))]
    by_cases hm : m = n
    · simp only [if_pos hm]
      rw [← hm, hs.clients_eq hother]
      split <;> rfl
    · simp only [if_neg hm]
      rw [hs.clients_eq hother]
      rfl

theorem Linked.act (hs : s.Linked) {f : K → T → Option (A × T)} {answer : A}
    (h : s.act n f = some (answer, s')) :
    s'.Linked ∧ ∃ client data, s.clients n = some client ∧
      f client.key client.data = some (answer, data) ∧
      s'.clients = s.clients.set n (some { client with data }) := by
  obtain ⟨task, htask, h⟩ := Option.bind_eq_some_iff.mp h
  split at h
  on_goal 2 => cases h
  rename_i hrunning
  obtain ⟨⟨_, data⟩, hdata, h⟩ := Option.map_eq_some_iff.mp h
  cases h
  obtain ⟨hlinked, hclients⟩ := hs.mapTask n fun _ => data
  refine ⟨hlinked, _, data, (hs.clients_eq htask).trans (if_pos hrunning), hdata, ?_⟩
  rw [hclients, hs.clients_eq htask, if_pos hrunning, Option.map_some]

/-- A handle leads to the data of the client with its key. -/
theorem Linked.modifyShared (hs : s.Linked) (key : K) (f : T → T) :
    (s.modifyShared key f).Linked ∧
      (s.modifyShared key f).clients = fun n => (s.clients n).map fun client =>
        if client.key = key ∧ client.handle.isSome = true then
          { client with data := f client.data }
        else client := by
  unfold Table.modifyShared
  cases hget : s.handles.get key with
  | none =>
    refine ⟨hs, ?_⟩
    funext n
    cases hclient : s.clients n with
    | none => rfl
    | some client =>
      have hnot : ¬(client.key = key ∧ client.handle.isSome = true) := by
        rintro ⟨rfl, hsome⟩
        obtain ⟨task, -, -, rfl⟩ := hs.running hclient
        simp [hget] at hsome
      rw [Option.map_some, if_neg hnot]
  | some handle =>
    obtain ⟨hlinked, hclients⟩ := hs.mapTask handle.task f
    obtain ⟨data, howner⟩ := hs.get_eq_some_iff.mp hget
    refine ⟨hlinked, hclients.trans ?_⟩
    funext n
    unfold Clients.set
    split
    · rename_i heq
      rw [heq, howner, Option.map_some, Option.map_some, if_pos ⟨rfl, rfl⟩]
    · rename_i hne
      cases hclient : s.clients n with
      | none => rfl
      | some client =>
        have hnot : ¬(client.key = key ∧ client.handle.isSome = true) :=
          fun h => hne (hs.key_inj hclient howner h.1)
        rw [Option.map_some, if_neg hnot]

theorem any_dropped_iff (s : Table K H T) (visit : K → H → T → Option H) (n : Nat) :
    ((s.dropped visit).values.any fun handle => handle.task = n) = true ↔
      ∃ key handle, s.handles.get key = some handle ∧ handle.task = n ∧
        s.visited visit key handle = none := by
  rw [List.any_eq_true]
  constructor
  · rintro ⟨handle, hmem, htask⟩
    obtain ⟨⟨key, handle'⟩, hentry, rfl⟩ := List.mem_map.mp hmem
    have hget := ((s.dropped visit).get_eq_some_iff key handle').mpr hentry
    rw [dropped, IndexMap.get_retain] at hget
    obtain ⟨hget, hnone⟩ := Option.filter_eq_some_iff.mp hget
    exact ⟨key, handle', hget, of_decide_eq_true htask, Option.isNone_iff_eq_none.mp hnone⟩
  · rintro ⟨key, handle, hget, htask, hnone⟩
    refine ⟨handle, List.mem_map.mpr ⟨(key, handle), ?_, rfl⟩, decide_eq_true htask⟩
    apply ((s.dropped visit).get_eq_some_iff key handle).mp
    rw [dropped, IndexMap.get_retain, hget]
    exact Option.filter_eq_some_iff.mpr ⟨rfl, Option.isNone_iff_eq_none.mpr hnone⟩

theorem Linked.visited_eq (hs : s.Linked) (visit : K → H → T → Option H) {task : Task K T}
    {handle : Handle H} (htask : s.tasks n = some task)
    (hget : s.handles.get task.key = some handle) :
    (s.visited visit task.key handle).map Handle.data =
      visit task.key handle.data task.data := by
  rw [visited, hs.task_eq htask hget, htask, Option.bind_some, Option.map_map]
  exact Option.map_id'

theorem Linked.sweep (hs : s.Linked) (visit : K → H → T → Option H) :
    (s.sweep visit).Linked ∧
      (s.sweep visit).clients = fun n => (s.clients n).map (Client.swept visit) := by
  have hget : ∀ key, (s.sweep visit).handles.get key =
      (s.handles.get key).bind (s.visited visit key) := fun key => IndexMap.get_filterMap _ _ _
  have hlinked : (s.sweep visit).Linked := by
    refine hs.kept _ (fun _ => rfl) ?_ rfl rfl ?_ ?_
    · intro m other
      split <;> rfl
    · intro key handle hhandle
      rw [hget] at hhandle
      obtain ⟨before, hbefore, hvisited⟩ := Option.bind_eq_some_iff.mp hhandle
      obtain ⟨task, htask, hkey, hrunning, hstop⟩ := hs.handle hbefore
      have hsame : handle.task = before.task := by
        obtain ⟨_, -, hdata⟩ := Option.bind_eq_some_iff.mp hvisited
        obtain ⟨_, -, rfl⟩ := Option.map_eq_some_iff.mp hdata
        rfl
      have hkept : ¬((s.dropped visit).values.any fun h => h.task = handle.task) = true := by
        rw [any_dropped_iff]
        rintro ⟨key', handle', hget', htask', hnone⟩
        obtain ⟨task', htask'', hkey', -⟩ := hs.handle hget'
        rw [htask', hsame, htask] at htask''
        cases htask''
        rw [← hkey', hkey, hbefore] at hget'
        cases hget'
        rw [← hkey', hkey, hvisited] at hnone
        cases hnone
      refine ⟨task, hsame ▸ htask, hkey, ?_⟩
      rw [if_neg hkept]
      exact ⟨hrunning, hstop⟩
    · intro m other hother hrunning hnone
      split
      · rfl
      · rename_i hkept
        rw [if_neg hkept] at hrunning
        rw [hget] at hnone
        cases hhandle : s.handles.get other.key with
        | none => exact hs.told hother hrunning hhandle
        | some handle =>
          rw [hhandle, Option.bind_some] at hnone
          exact absurd ((s.any_dropped_iff visit m).mpr
            ⟨other.key, handle, hhandle, hs.task_eq hother hhandle, hnone⟩) hkept
  refine ⟨hlinked, ?_⟩
  funext m
  cases hother : s.tasks m with
  | none =>
    rw [clients_of_none hother, Option.map_none]
    exact clients_of_none (Option.map_eq_none_iff.mpr hother)
  | some other =>
    obtain ⟨after, hafter, hkey, hdata, hrunning⟩ : ∃ after, (s.sweep visit).tasks m = some after ∧
        after.key = other.key ∧ after.data = other.data ∧ after.running = other.running := by
      refine ⟨_, Option.map_eq_some_iff.mpr ⟨other, hother, rfl⟩, ?_⟩
      split <;> exact ⟨rfl, rfl, rfl⟩
    rw [hlinked.clients_eq hafter, hs.clients_eq hother, hrunning, hkey, hdata, hget]
    split
    · rw [Option.map_some, Client.swept]
      cases hhandle : s.handles.get other.key with
      | none => rfl
      | some handle =>
        rw [Option.bind_some, hs.visited_eq visit hother hhandle]
        rfl
    · rfl

/-- Those whose handles are dropped are the clients that are visited in vain. -/
theorem Linked.mem_dropped (hs : s.Linked) (visit : K → H → T → Option H) (key : K) :
    key ∈ (s.dropped visit).keys ↔ ∃ n client, s.clients n = some client ∧ client.key = key ∧
      client.handle.isSome = true ∧ (client.swept visit).handle = none := by
  constructor
  · intro hmem
    obtain ⟨⟨key', handle⟩, hentry, rfl⟩ := List.mem_map.mp hmem
    have hget := ((s.dropped visit).get_eq_some_iff key' handle).mpr hentry
    rw [dropped, IndexMap.get_retain] at hget
    obtain ⟨hget, hnone⟩ := Option.filter_eq_some_iff.mp hget
    obtain ⟨task, htask, rfl, hrunning, -⟩ := hs.handle hget
    have hclient := (hs.clients_eq htask).trans (if_pos hrunning)
    rw [hget, Option.map_some] at hclient
    refine ⟨handle.task, _, hclient, rfl, rfl, ?_⟩
    rw [Client.swept, Option.bind_some, ← hs.visited_eq visit htask hget,
      Option.isNone_iff_eq_none.mp hnone, Option.map_none]
  · rintro ⟨n, client, hclient, rfl, hsome, hnone⟩
    obtain ⟨task, htask, -, rfl⟩ := hs.running hclient
    obtain ⟨handle, hget⟩ : ∃ handle, s.handles.get task.key = some handle := by
      rw [Option.isSome_map] at hsome
      exact Option.isSome_iff_exists.mp hsome
    apply (IndexMap.mem_keys_retain_iff hget _).mpr
    rw [Client.swept, hget, Option.map_some, Option.bind_some, ← hs.visited_eq visit htask hget,
      Option.map_eq_none_iff] at hnone
    exact Option.isNone_iff_eq_none.mpr hnone

end Table

end Tasks
