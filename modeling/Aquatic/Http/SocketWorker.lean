import Aquatic.Http.ConnectionHandles
import Aquatic.Lib.Tasks
import Aquatic.Lib.Transition

/-!
# An HTTP socket worker

The worker accepts connections up to a limit and starts a task for each. Those that have made
no request for too long are told to close. Seen from outside there are no handles and no
deadlines, only connections and the times of their last requests.
-/

namespace Aquatic.Http
open Transition Tasks
set_option autoImplicit false

structure SocketWorkerConfig where
  maxConnectionsPerWorker : Nat
  maxConnectionIdle : UInt32

/-- The handles and the tasks of the connections, with the times that they share. -/
abbrev SocketWorker := Table ConnectionId Unit ValidUntil

namespace SocketWorker

inductive Action where
  /-- One of the listeners has a connection; `key` is what the slot map hands out. -/
  | accept (now : SecondsSinceServerStart) (key : ConnectionId)
  /-- A request has passed the security checks. -/
  | handleRequest (n : Nat) (now : SecondsSinceServerStart)
  | cleanConnections (now : SecondsSinceServerStart)
  /-- The connection has ended, or it has been told to close. -/
  | close (n : Nat)

inductive Answer where
  | rejected
  | accepted (n : Nat)
  | told (connections : List ConnectionId)
  | none

/-- The limit of the connections is reached; 0 is for no limit. -/
def Full (config : SocketWorkerConfig) (currentConnections : Nat) : Prop :=
  0 < config.maxConnectionsPerWorker ∧ config.maxConnectionsPerWorker ≤ currentConnections

instance (config : SocketWorkerConfig) (currentConnections : Nat) :
    Decidable (Full config currentConnections) := inferInstanceAs (Decidable (_ ∧ _))

/-- The visit of a handle by `clean_connections`. -/
def cleanConnection (now : SecondsSinceServerStart) (_ : ConnectionId) (_ : Unit)
    (validUntil : ValidUntil) : Option Unit :=
  if validUntil.valid now then some () else none

def step (config : SocketWorkerConfig) (s : SocketWorker) : Action → Option (Answer × SocketWorker)
  | .accept now key =>
    if Full config s.handles.len then some (.rejected, s)
    else
      (s.start key () (.newWithNow now config.maxConnectionIdle)).map fun s' =>
        (.accepted s.started, s')
  | .handleRequest n now =>
    s.act n fun _ _ => some (.none, .newWithNow now config.maxConnectionIdle)
  | .cleanConnections now =>
    some (.told (s.dropped (cleanConnection now)).keys, s.sweep (cleanConnection now))
  | .close n => (s.finish n fun _ => true).map fun s' => (.none, s')

/-- The connections by their numbers, each with the time of its last request, or else of its
start. -/
abbrev Lobby := Clients ConnectionId Unit SecondsSinceServerStart

/-- The connection is told to close: it has made no request for too long. -/
def Overdue (config : SocketWorkerConfig) (now : SecondsSinceServerStart)
    (client : Client ConnectionId Unit SecondsSinceServerStart) : Prop :=
  client.handle.isSome = true ∧ ¬ ValidUntil.Ahead client.data config.maxConnectionIdle now

/-- The rules: what is answered, and what becomes of the connections. -/
inductive Allowed (config : SocketWorkerConfig) (l : Lobby) : Action → Answer → Lobby → Prop where
  | rejected {now : SecondsSinceServerStart} {key : ConnectionId}
      (hfull : Full config l.served.ncard) : Allowed config l (.accept now key) .rejected l
  | accepted {now : SecondsSinceServerStart} {key : ConnectionId} {n : Nat}
      (hroom : ¬ Full config l.served.ncard)
      (hkey : ∀ m client, l m = some client → client.key ≠ key) (hn : l n = none) :
      Allowed config l (.accept now key) (.accepted n) (l.set n (some ⟨key, now, some ()⟩))
  | handleRequest {n : Nat} {now : SecondsSinceServerStart}
      {client : Client ConnectionId Unit SecondsSinceServerStart} (hclient : l n = some client) :
      Allowed config l (.handleRequest n now) .none (l.set n (some { client with data := now }))
  | told {now : SecondsSinceServerStart} {told : List ConnectionId} {l' : Lobby}
      (htold : ∀ key, key ∈ told ↔
        ∃ n client, l n = some client ∧ client.key = key ∧ Overdue config now client)
      (hkept : ∀ n client, l n = some client → ¬ Overdue config now client → l' n = some client)
      (hclosing : ∀ n client, l n = some client → Overdue config now client →
        l' n = some { client with handle := none })
      (hgone : ∀ n, l n = none → l' n = none) :
      Allowed config l (.cleanConnections now) (.told told) l'
  | closed {n : Nat} {client : Client ConnectionId Unit SecondsSinceServerStart}
      (hclient : l n = some client) : Allowed config l (.close n) .none (l.set n none)

/-- The deadline that a time stands for. -/
def deadline (config : SocketWorkerConfig)
    (client : Client ConnectionId Unit SecondsSinceServerStart) :
    Client ConnectionId Unit ValidUntil :=
  ⟨client.key, .newWithNow client.data config.maxConnectionIdle, client.handle⟩

/-- The deadline for a connection at that time is one that the clock can show. -/
def Fits (config : SocketWorkerConfig) (now : SecondsSinceServerStart) : Prop :=
  now.toNat + config.maxConnectionIdle.toNat < UInt32.size

def Action.Fits (config : SocketWorkerConfig) : Action → Prop
  | .accept now _ => SocketWorker.Fits config now
  | .handleRequest _ now => SocketWorker.Fits config now
  | .cleanConnections _ => True
  | .close _ => True

/-- The worker's tables and channels hold what there is to know of the connections. -/
structure Tracks (config : SocketWorkerConfig) (s : SocketWorker) (l : Lobby) : Prop where
  clients : s.clients = fun n => (l n).map (deadline config)
  fits : ∀ n client, l n = some client → Fits config client.data
  handles : ∀ key, (s.handles.get key).isSome = true ↔ ∃ n, l.Serves key n
  limit : 0 < config.maxConnectionsPerWorker → l.served.ncard ≤ config.maxConnectionsPerWorker
  distinct : ∀ n m client client', l n = some client → l m = some client' →
    client.key = client'.key → n = m
  told : ∀ n client, l n = some client → client.handle = none →
    ∃ task, s.tasks n = some task ∧ task.running = true ∧ task.stop = true

/-- The invariant. -/
structure Sound (config : SocketWorkerConfig) (s : SocketWorker) : Prop where
  linked : s.Linked
  limit : 0 < config.maxConnectionsPerWorker →
    s.clients.served.ncard ≤ config.maxConnectionsPerWorker

variable {config : SocketWorkerConfig} {s s' : SocketWorker} {l : Lobby}

theorem sound_init (config : SocketWorkerConfig) : Sound config Table.empty where
  linked := Table.linked_empty
  limit := fun _ => Table.linked_empty.len_eq_ncard.symm.trans_le (Nat.zero_le _)

theorem served_deadline (config : SocketWorkerConfig) (l : Lobby) :
    Clients.served (fun n => (l n).map (deadline config)) = l.served :=
  Clients.served_map_eq fun _ => rfl

theorem clients_eq (hclients : s.clients = fun n => (l n).map (deadline config)) {n : Nat}
    {client : Client ConnectionId Unit SecondsSinceServerStart} (h : l n = some client) :
    s.clients n = some (deadline config client) :=
  (congrFun hclients n).trans (congrArg (Option.map _) h)

/-- Each connection of the worker is one of the lobby. -/
theorem exists_of_clients (hclients : s.clients = fun n => (l n).map (deadline config)) {n : Nat}
    {client : Client ConnectionId Unit ValidUntil} (h : s.clients n = some client) :
    ∃ before, l n = some before ∧ client = deadline config before := by
  obtain ⟨before, hbefore, heq⟩ := Option.map_eq_some_iff.mp ((congrFun hclients n).symm.trans h)
  exact ⟨before, hbefore, heq.symm⟩

theorem Sound.tracks (hs : Sound config s)
    (hclients : s.clients = fun n => (l n).map (deadline config))
    (hfits : ∀ n client, l n = some client → Fits config client.data) : Tracks config s l where
  clients := hclients
  fits := hfits
  handles := by
    intro key
    rw [hs.linked.isSome_get_iff, hclients]
    exact exists_congr (Clients.serves_map_iff (deadline config) (fun _ => rfl) (fun _ => rfl) key)
  limit := by
    intro hpos
    rw [← served_deadline config l, ← hclients]
    exact hs.limit hpos
  distinct := by
    intro n m client client' h h' hkey
    exact hs.linked.key_inj (clients_eq hclients h) (clients_eq hclients h') hkey
  told := by
    intro n client h hnone
    exact hs.linked.told_of_none (clients_eq hclients h) hnone

instance (now : SecondsSinceServerStart)
    (client : Client ConnectionId Unit SecondsSinceServerStart) :
    Decidable (Overdue config now client) :=
  inferInstanceAs (Decidable (_ ∧ ¬ _ < _))

/-- A connection after `clean_connections`. -/
def cleaned (config : SocketWorkerConfig) (now : SecondsSinceServerStart)
    (client : Client ConnectionId Unit SecondsSinceServerStart) :
    Client ConnectionId Unit SecondsSinceServerStart :=
  if Overdue config now client then { client with handle := none } else client

theorem swept_deadline {client : Client ConnectionId Unit SecondsSinceServerStart}
    (hfits : Fits config client.data) (now : SecondsSinceServerStart) :
    (deadline config client).swept (cleanConnection now) =
      deadline config (cleaned config now client) := by
  have hvalid := ValidUntil.valid_newWithNow_iff hfits now
  obtain ⟨key, time, handle⟩ := client
  cases handle with
  | none =>
    have hnot : ¬ Overdue config now ⟨key, time, none⟩ := fun h => Bool.false_ne_true h.1
    rw [cleaned, if_neg hnot]
    rfl
  | some handle =>
    by_cases hahead : ValidUntil.Ahead time config.maxConnectionIdle now
    · have hnot : ¬ Overdue config now ⟨key, time, some handle⟩ := fun h => h.2 hahead
      rw [cleaned, if_neg hnot, Client.swept, deadline, Option.bind_some, cleanConnection,
        if_pos (hvalid.mpr hahead)]
    · have hover : Overdue config now ⟨key, time, some handle⟩ := ⟨rfl, hahead⟩
      rw [cleaned, if_pos hover, Client.swept, deadline, Option.bind_some, cleanConnection,
        if_neg fun h => hahead (hvalid.mp h)]
      rfl

theorem handle_cleaned_eq_none_iff {now : SecondsSinceServerStart}
    {client : Client ConnectionId Unit SecondsSinceServerStart}
    (hsome : client.handle.isSome = true) :
    (cleaned config now client).handle = none ↔ Overdue config now client := by
  unfold cleaned
  split
  · rename_i hover
    exact iff_of_true rfl hover
  · rename_i hnot
    refine iff_of_false ?_ hnot
    rw [← Option.isNone_iff_eq_none, Option.isNone_eq_false_iff.mpr hsome]
    exact Bool.false_ne_true

theorem mem_dropped_iff (hs : s.Linked)
    (hclients : s.clients = fun n => (l n).map (deadline config))
    (hfits : ∀ n client, l n = some client → Fits config client.data)
    (now : SecondsSinceServerStart) (key : ConnectionId) :
    key ∈ (s.dropped (cleanConnection now)).keys ↔
      ∃ n client, l n = some client ∧ client.key = key ∧ Overdue config now client := by
  rw [hs.mem_dropped]
  constructor
  · rintro ⟨n, client, hclient, rfl, hsome, hnone⟩
    obtain ⟨before, hbefore, rfl⟩ := exists_of_clients hclients hclient
    rw [swept_deadline (hfits n before hbefore)] at hnone
    exact ⟨n, before, hbefore, rfl, (handle_cleaned_eq_none_iff hsome).mp hnone⟩
  · rintro ⟨n, client, hclient, rfl, hover⟩
    refine ⟨n, _, clients_eq hclients hclient, rfl, hover.1, ?_⟩
    rw [swept_deadline (hfits n client hclient)]
    exact (handle_cleaned_eq_none_iff hover.1).mpr hover

/-- No connection has got a handle. -/
theorem Sound.kept (hs : Sound config s) (hlinked : s'.Linked)
    {clients : Clients ConnectionId Unit ValidUntil} (h : s'.clients = clients)
    (hserved : clients.served ⊆ s.clients.served) : Sound config s' where
  linked := hlinked
  limit := fun hpos => h ▸ (hs.linked.ncard_served_le hserved).trans (hs.limit hpos)

theorem Sound.step (hs : Sound config s) {action : Action} {answer : Answer}
    (h : step config s action = some (answer, s')) : Sound config s' := by
  cases action with
  | accept now key =>
    simp only [SocketWorker.step] at h
    rw [hs.linked.len_eq_ncard] at h
    split at h
    · cases h
      exact hs
    rename_i hroom
    obtain ⟨s₁, hstart, heq⟩ := Option.map_eq_some_iff.mp h
    cases heq
    obtain ⟨hlinked, -, -, hclients⟩ := hs.linked.start hstart
    refine ⟨hlinked, ?_⟩
    intro hpos
    have hlt : s.clients.served.ncard < config.maxConnectionsPerWorker := by
      by_contra hge
      exact hroom ⟨hpos, Nat.le_of_not_lt hge⟩
    have hle := hs.linked.ncard_served_set_le s.started
      (some ⟨key, .newWithNow now config.maxConnectionIdle, some ()⟩)
    rw [hclients]
    exact hle.trans hlt
  | handleRequest n now =>
    simp only [SocketWorker.step] at h
    obtain ⟨hlinked, client, data, hclient, -, hclients⟩ := hs.linked.act h
    apply hs.kept hlinked hclients
    apply Clients.served_set_subset_of_kept
    intro c hc hsome
    cases hc
    exact ⟨client, hclient, hsome⟩
  | cleanConnections now =>
    cases h
    obtain ⟨hlinked, hclients⟩ := hs.linked.sweep (cleanConnection now)
    apply hs.kept hlinked hclients
    apply Clients.served_map_subset
    intro client hsome
    obtain ⟨handle, hhandle⟩ := Option.isSome_iff_exists.mp hsome
    obtain ⟨before, hbefore, -⟩ := Option.bind_eq_some_iff.mp hhandle
    exact hbefore ▸ rfl
  | close n =>
    obtain ⟨s₁, hfinish, heq⟩ := Option.map_eq_some_iff.mp h
    cases heq
    obtain ⟨hlinked, -, hclients⟩ := hs.linked.finish hfinish
    apply hs.kept hlinked hclients
    apply Clients.served_set_subset_of_kept
    intro c hc
    cases hc

/-- What the worker does is allowed, and its deadlines are those of the connections. -/
theorem allowed_of_step (hs : Sound config s) {action : Action} {answer : Answer}
    (hfits : action.Fits config) (htracks : Tracks config s l)
    (h : step config s action = some (answer, s')) :
    ∃ l', Allowed config l action answer l' ∧
      s'.clients = (fun n => (l' n).map (deadline config)) ∧
      ∀ n client, l' n = some client → Fits config client.data := by
  cases action with
  | accept now key =>
    simp only [step] at h
    rw [hs.linked.len_eq_ncard, htracks.clients, served_deadline] at h
    split at h
    · rename_i hfull
      cases h
      exact ⟨l, .rejected hfull, htracks.clients, htracks.fits⟩
    rename_i hroom
    obtain ⟨s₁, hstart, heq⟩ := Option.map_eq_some_iff.mp h
    cases heq
    obtain ⟨-, hn, hkey, hclients⟩ := hs.linked.start hstart
    refine ⟨l.set s.started (some ⟨key, now, some ()⟩), .accepted hroom ?_ ?_, ?_, ?_⟩
    · intro m client hclient
      exact hkey m _ (clients_eq htracks.clients hclient)
    · have hnone := (congrFun htracks.clients s.started).symm.trans hn
      exact Option.map_eq_none_iff.mp hnone
    · rw [Clients.map_set, ← htracks.clients, hclients]
      rfl
    · apply Clients.forall_set htracks.fits
      intro client hclient
      cases hclient
      exact hfits
  | handleRequest n now =>
    simp only [step] at h
    obtain ⟨-, client, data, hclient, hact, hclients⟩ := hs.linked.act h
    cases hact
    obtain ⟨before, hbefore, rfl⟩ := exists_of_clients htracks.clients hclient
    refine ⟨_, .handleRequest hbefore, ?_, ?_⟩
    · rw [Clients.map_set, ← htracks.clients, hclients]
      rfl
    · apply Clients.forall_set htracks.fits
      intro c hc
      cases hc
      exact hfits
  | cleanConnections now =>
    cases h
    obtain ⟨-, hclients⟩ := hs.linked.sweep (cleanConnection now)
    refine ⟨fun n => (l n).map (cleaned config now), .told ?_ ?_ ?_ ?_, ?_, ?_⟩
    · exact mem_dropped_iff hs.linked htracks.clients htracks.fits now
    · intro n client hclient hnot
      exact (congrArg (Option.map _) hclient).trans (congrArg some (if_neg hnot))
    · intro n client hclient hover
      exact (congrArg (Option.map _) hclient).trans (congrArg some (if_pos hover))
    · intro n hnone
      exact congrArg (Option.map _) hnone
    · rw [hclients, htracks.clients]
      funext n
      dsimp only
      cases hclient : l n with
      | none => rfl
      | some client => exact congrArg some (swept_deadline (htracks.fits n client hclient) now)
    · intro n client hclient
      obtain ⟨before, hbefore, rfl⟩ := Option.map_eq_some_iff.mp hclient
      have hdata : (cleaned config now before).data = before.data := by
        unfold cleaned
        split <;> rfl
      exact hdata ▸ htracks.fits n before hbefore
  | close n =>
    obtain ⟨s₁, hfinish, heq⟩ := Option.map_eq_some_iff.mp h
    cases heq
    obtain ⟨-, ⟨client, hclient, -⟩, hclients⟩ := hs.linked.finish hfinish
    obtain ⟨before, hbefore, rfl⟩ := exists_of_clients htracks.clients hclient
    refine ⟨_, .closed hbefore, ?_, ?_⟩
    · rw [Clients.map_set, ← htracks.clients, hclients]
      rfl
    · apply Clients.forall_set htracks.fits
      intro c hc
      cases hc

/-- In every run in which the clock can show the deadlines: connections are turned away only when
as many are served as may be, and told to close exactly when they have made no request for too
long. No more are served than may be. -/
theorem connections_followed (config : SocketWorkerConfig) {as : List Action}
    (hfits : ∀ a ∈ as, a.Fits config) :
    Follows (step config) (fun _ l action answer l' => Allowed config l action answer l')
      (Tracks config) Table.empty (fun _ => none) as := by
  have hinit : Sound config Table.empty := sound_init config
  refine follows_of_simulation_of (fun hs h => hs.step h) ?_ hinit (hinit.tracks rfl ?_) hfits
  · intro s l action answer s' hs hfits htracks h
    obtain ⟨l', hallowed, hclients, hfits'⟩ := allowed_of_step hs hfits htracks h
    exact ⟨l', hallowed, (hs.step h).tracks hclients hfits'⟩
  · intro n client hclient
    cases hclient

/-- A connection that is told to close a minute after its start. -/
theorem connections_followed_idle :
    Follows (step ⟨1, 60⟩) (fun _ l action answer l' => Allowed ⟨1, 60⟩ l action answer l')
      (Tracks ⟨1, 60⟩) Table.empty (fun _ => none)
      [.accept 0 ⟨1, 1⟩, .accept 1 ⟨2, 1⟩, .handleRequest 0 5, .cleanConnections 65, .close 0] :=
  connections_followed ⟨1, 60⟩ (by
    intro a ha
    simp only [List.mem_cons, List.not_mem_nil, or_false] at ha
    rcases ha with rfl | rfl | rfl | rfl | rfl
    · change (0 : Nat) + 60 < 4294967296
      omega
    · change (1 : Nat) + 60 < 4294967296
      omega
    · change (5 : Nat) + 60 < 4294967296
      omega
    · trivial
    · trivial)

example : (observe (step ⟨1, 60⟩) Table.empty [.accept 0 ⟨1, 1⟩, .accept 1 ⟨2, 1⟩,
    .handleRequest 0 5, .cleanConnections 64, .cleanConnections 65, .close 0]).map Prod.fst =
      some [.accepted 0, .rejected, .none, .told [], .told [⟨1, 1⟩], .none] := rfl

end SocketWorker

end Aquatic.Http
