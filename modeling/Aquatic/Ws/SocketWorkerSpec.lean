import Aquatic.Ws.SocketWorker

/-!
# What a WebSocket socket worker does for its connections

Seen from outside there is no table: each connection has its handle with it, or has lost it and
has been told to close. Whatever happens in whatever order, the worker does for one connection
what the rules below allow, and nothing to the others.
-/

namespace Aquatic.Ws
open Collections Transition Tasks
set_option autoImplicit false

/-- The connections by their numbers, and the current certificate. -/
structure Lobby where
  clients : Clients ConnectionId TlsState ConnectionRunner
  optTlsConfig : Option RustlsConfig

namespace ConnectionRunner

variable {config : SocketWorkerConfig} {runner runner' : ConnectionRunner}
  {message : Option WriterMessage}

theorem mem_sendOutMessage {m : WriterMessage} {sent : Bool} {now : SecondsSinceServerStart}
    {e : OutMessageMeta × WriterMessage}
    (h : e ∈ (runner.sendOutMessage config m sent now).2.outMessages.toList) :
    e ∈ runner.outMessages.toList := by
  unfold sendOutMessage at h
  split at h
  · dsimp only at h
    split at h <;> exact h
  · cases h

theorem mem_writeOutMessage {sent : Bool} {now : SecondsSinceServerStart}
    {e : OutMessageMeta × WriterMessage}
    (hstep : runner.writeOutMessage config sent now = some (message, runner'))
    (h : e ∈ runner'.outMessages.toList) : e ∈ runner.outMessages.toList := by
  unfold writeOutMessage at hstep
  split at hstep
  · cases hstep
  rename_i metadata m rest hqueue
  have hrest : ∀ e ∈ (runner.outMessages.eraseIdx 0).toList, e ∈ runner.outMessages.toList :=
    fun e he => List.mem_of_mem_eraseIdx he
  dsimp only at hstep
  split at hstep
  · have hrunner := congrArg Prod.snd (Option.some.inj hstep)
    dsimp only at hrunner
    rw [← hrunner] at h
    exact hrest e (mem_sendOutMessage h)
  · split at hstep
    · cases hstep
      cases h
    · split at hstep
      · cases hstep
        cases h
      · obtain ⟨pending, -, hwritten⟩ := Option.map_eq_some_iff.mp hstep
        have hrunner := congrArg Prod.snd hwritten
        dsimp only at hrunner
        rw [← hrunner] at h
        split at h
        · exact hrest e (mem_sendOutMessage h)
        · exact hrest e h

/-- A connection puts messages for itself in its channel, and no others. -/
theorem mem_step {id : ConnectionId} {action : Action} {e : OutMessageMeta × WriterMessage}
    (hstep : runner.step config id action = some (message, runner'))
    (h : e ∈ runner'.outMessages.toList) :
    e ∈ runner.outMessages.toList ∨ e.1.connectionId = id := by
  unfold step at hstep
  split at hstep
  · cases hstep
  cases action with
  | scrapeRequest workers key =>
    dsimp only at hstep
    split at hstep
    · cases hstep
    · split at hstep
      · cases hstep
        cases h
      · cases hstep
        exact Or.inl h
  | errorResponse response =>
    obtain ⟨outMessages, hpush, hrunner⟩ := Option.map_eq_some_iff.mp hstep
    cases hrunner
    rcases ArrayVec.mem_of_push hpush h with hmem | heq
    · exact Or.inl hmem
    · rw [heq]
      exact Or.inr rfl
  | writeOutMessage sent now => exact Or.inl (mem_writeOutMessage hstep h)
  | close =>
    cases hstep
    cases h

theorem mem_receiveOutMessage {m e : OutMessageMeta × WriterMessage}
    (h : e ∈ (runner.receiveOutMessage m).outMessages.toList) :
    e ∈ runner.outMessages.toList ∨ e = m := by
  unfold receiveOutMessage at h
  split at h
  · exact Or.inl h
  · split at h
    · rename_i outMessages hpush
      exact ArrayVec.mem_of_push hpush h
    · exact Or.inl h

end ConnectionRunner

namespace SocketWorker

/-- Nobody has this key. -/
def Unused (clients : Clients ConnectionId TlsState ConnectionRunner) (key : ConnectionId) : Prop :=
  ∀ n client, clients n = some client → client.key ≠ key

/-- The connections that are told to close: those whose time is over. -/
def Overdue (clients : Clients ConnectionId TlsState ConnectionRunner)
    (now : SecondsSinceServerStart) (key : ConnectionId) : Prop :=
  ∃ n client tls, clients n = some client ∧ client.key = key ∧ client.handle = some tls ∧
    ¬ (tls.handle client.data).Lasts now

/-- A message is for the connection that is being served under its id. -/
def receive (metadata : OutMessageMeta) (message : WriterMessage)
    (client : Client ConnectionId TlsState ConnectionRunner) :
    Client ConnectionId TlsState ConnectionRunner :=
  if client.key = metadata.connectionId ∧ client.handle.isSome = true then
    { client with data := client.data.receiveOutMessage (metadata, message) }
  else client

/-- The rules: what is answered, and what becomes of the connections. -/
inductive Allowed (config : SocketWorkerConfig) (l : Lobby) : Action → Answer → Lobby → Prop where
  | rejected {peerAddr spawned : Bool} {now : SecondsSinceServerStart} {key : ConnectionId}
      (hfull : Full config l.clients.served.ncard) :
      Allowed config l (.accept peerAddr spawned now key) .rejected l
  | noPeerAddr {spawned : Bool} {now : SecondsSinceServerStart} {key : ConnectionId}
      (hroom : ¬ Full config l.clients.served.ncard) :
      Allowed config l (.accept false spawned now key) .noPeerAddr l
  | notSpawned {now : SecondsSinceServerStart} {key : ConnectionId}
      (hroom : ¬ Full config l.clients.served.ncard) (hkey : Unused l.clients key) :
      Allowed config l (.accept true false now key) .notSpawned l
  | accepted {now : SecondsSinceServerStart} {key : ConnectionId} {n : Nat}
      (hroom : ¬ Full config l.clients.served.ncard) (hkey : Unused l.clients key)
      (hn : l.clients n = none) :
      Allowed config l (.accept true true now key) (.accepted n) { l with
        clients := l.clients.set n (some ⟨key, .new config now, some ⟨l.optTlsConfig, none⟩⟩) }
  | told {now : SecondsSinceServerStart} {clock : ConnectionId → SecondsSinceServerStart}
      {told : List ConnectionId} (htold : ∀ key, key ∈ told ↔ Overdue l.clients now key) :
      Allowed config l (.cleanConnections now clock) (.told told) { l with
        clients := fun n => (l.clients n).map
          (Client.swept (cleanConnection config now clock l.optTlsConfig)) }
  | updateTlsConfig {tlsConfig : RustlsConfig} :
      Allowed config l (.updateTlsConfig tlsConfig) .none
        { l with optTlsConfig := some tlsConfig }
  | receiveOutMessage {metadata : OutMessageMeta} {message : WriterMessage} :
      Allowed config l (.receiveOutMessage metadata message) .none { l with
        clients := fun n => (l.clients n).map (receive metadata message) }
  | connection {n : Nat} {action : ConnectionRunner.Action} {message : Option WriterMessage}
      {client : Client ConnectionId TlsState ConnectionRunner} {runner : ConnectionRunner}
      (hclient : l.clients n = some client)
      (hstep : client.data.step config client.key action = some (message, runner)) :
      Allowed config l (.connection n action) (.sent message)
        { l with clients := l.clients.set n (some { client with data := runner }) }
  | removed {n : Nat} {client : Client ConnectionId TlsState ConnectionRunner}
      (hclient : l.clients n = some client) (hclosed : client.data.closed = true) :
      Allowed config l (.remove n) .none { l with clients := l.clients.set n none }

/-- The messages that wait for the writer are for its connection. -/
def Addressed (clients : Clients ConnectionId TlsState ConnectionRunner) : Prop :=
  ∀ n client, clients n = some client →
    ∀ e ∈ client.data.outMessages.toList, e.1.connectionId = client.key

/-- The worker's tables and channels hold what there is to know of the connections. -/
structure Tracks (config : SocketWorkerConfig) (s : SocketWorker) (l : Lobby) : Prop where
  clients : s.connections.clients = l.clients
  optTlsConfig : s.optTlsConfig = l.optTlsConfig
  handles : ∀ key, (s.connections.handles.get key).isSome = true ↔ ∃ n, l.clients.Serves key n
  limit : 0 < config.maxConnectionsPerWorker →
    l.clients.served.ncard ≤ config.maxConnectionsPerWorker
  distinct : ∀ n m client client', l.clients n = some client → l.clients m = some client' →
    client.key = client'.key → n = m
  told : ∀ n client, l.clients n = some client → client.handle = none →
    ∃ task, s.connections.tasks n = some task ∧ task.running = true ∧ task.stop = true
  addressed : Addressed l.clients

/-- The invariant. -/
structure Sound (config : SocketWorkerConfig) (s : SocketWorker) : Prop where
  linked : s.connections.Linked
  limit : 0 < config.maxConnectionsPerWorker →
    s.connections.clients.served.ncard ≤ config.maxConnectionsPerWorker
  addressed : Addressed s.connections.clients

/-- The connections of a worker. -/
def lobby (s : SocketWorker) : Lobby := ⟨s.connections.clients, s.optTlsConfig⟩

variable {config : SocketWorkerConfig} {s s' : SocketWorker}

theorem Sound.tracks (hs : Sound config s) : Tracks config s s.lobby where
  clients := rfl
  optTlsConfig := rfl
  handles := hs.linked.isSome_get_iff
  limit := hs.limit
  distinct := fun _ _ _ _ h h' hkey => hs.linked.key_inj h h' hkey
  told := fun _ _ h hhandle => hs.linked.told_of_none h hhandle
  addressed := hs.addressed

theorem Tracks.eq_lobby {l : Lobby} (h : Tracks config s l) : l = s.lobby := by
  rw [lobby, h.clients, h.optTlsConfig]

theorem sound_init (optTlsConfig : Option RustlsConfig) : Sound config (init optTlsConfig) where
  linked := Table.linked_empty
  limit := by
    intro _
    exact Table.linked_empty.len_eq_ncard.symm.trans_le (Nat.zero_le _)
  addressed := by
    intro n client hclient
    cases hclient

theorem isSome_cleanConnection_iff (config : SocketWorkerConfig) (now : SecondsSinceServerStart)
    (clock : ConnectionId → SecondsSinceServerStart) (optCurrentTlsConfig : Option RustlsConfig)
    (id : ConnectionId) (tls : TlsState) (runner : ConnectionRunner) :
    (cleanConnection config now clock optCurrentTlsConfig id tls runner).isSome = true ↔
      (tls.handle runner).Lasts now := by
  rw [cleanConnection, Option.isSome_map]
  exact ConnectionHandle.isSome_clean_iff _ _ _ _ _

theorem mem_dropped_iff (hs : s.connections.Linked) (now : SecondsSinceServerStart)
    (clock : ConnectionId → SecondsSinceServerStart) (key : ConnectionId) :
    key ∈ (s.connections.dropped (cleanConnection config now clock s.optTlsConfig)).keys ↔
      Overdue s.connections.clients now key := by
  rw [hs.mem_dropped]
  constructor
  · rintro ⟨n, client, hclient, hkey, hsome, hnone⟩
    obtain ⟨tls, htls⟩ := Option.isSome_iff_exists.mp hsome
    refine ⟨n, client, tls, hclient, hkey, htls, ?_⟩
    rw [Client.swept, htls, Option.bind_some] at hnone
    dsimp only at hnone
    rw [← isSome_cleanConnection_iff config now clock s.optTlsConfig client.key, hnone]
    exact Bool.false_ne_true
  · rintro ⟨n, client, tls, hclient, hkey, htls, hover⟩
    refine ⟨n, client, hclient, hkey, htls ▸ rfl, ?_⟩
    rw [Client.swept, htls, Option.bind_some, ← Option.not_isSome_iff_eq_none,
      isSome_cleanConnection_iff]
    exact hover

theorem lobby_eq {connections : Table ConnectionId TlsState ConnectionRunner}
    {clients : Clients ConnectionId TlsState ConnectionRunner} (h : connections.clients = clients) :
    lobby { s with connections } = { s.lobby with clients } := by
  rw [lobby, h]
  rfl

/-- No connection has got a handle, and the messages are for their connections. -/
theorem Sound.kept (hs : Sound config s)
    {connections : Table ConnectionId TlsState ConnectionRunner} (hlinked : connections.Linked)
    {clients : Clients ConnectionId TlsState ConnectionRunner} (h : connections.clients = clients)
    (hserved : clients.served ⊆ s.connections.clients.served) (haddressed : Addressed clients) :
    Sound config { s with connections } where
  linked := hlinked
  limit := fun hpos => h ▸ (hs.linked.ncard_served_le hserved).trans (hs.limit hpos)
  addressed := h ▸ haddressed

theorem Sound.accepted (hs : Sound config s) {now : SecondsSinceServerStart} {key : ConnectionId}
    {connections : Table ConnectionId TlsState ConnectionRunner}
    (hroom : ¬ Full config s.connections.clients.served.ncard)
    (h : s.connections.start key ⟨s.optTlsConfig, none⟩ (.new config now) = some connections) :
    Sound config { s with connections } := by
  obtain ⟨hlinked, -, -, hclients⟩ := hs.linked.start h
  refine ⟨hlinked, ?_, ?_⟩
  · intro hpos
    have hlt : s.connections.clients.served.ncard < config.maxConnectionsPerWorker := by
      by_contra hge
      exact hroom ⟨hpos, Nat.le_of_not_lt hge⟩
    have hle := hs.linked.ncard_served_set_le s.connections.started
      (some ⟨key, .new config now, some ⟨s.optTlsConfig, none⟩⟩)
    change connections.clients.served.ncard ≤ _
    rw [hclients]
    omega
  · change Addressed connections.clients
    rw [hclients]
    apply Clients.forall_set hs.addressed
    intro client hclient e he
    cases hclient
    cases he

theorem allowed_of_accept (hs : Sound config s) {peerAddr spawned : Bool}
    {now : SecondsSinceServerStart} {key : ConnectionId} {answer : Answer}
    (h : step config s (.accept peerAddr spawned now key) = some (answer, s')) :
    Allowed config s.lobby (.accept peerAddr spawned now key) answer s'.lobby ∧
      Sound config s' := by
  simp only [step] at h
  rw [hs.linked.len_eq_ncard] at h
  split at h
  · rename_i hfull
    cases h
    exact ⟨.rejected hfull, hs⟩
  rename_i hroom
  cases peerAddr with
  | false =>
    cases h
    exact ⟨.noPeerAddr hroom, hs⟩
  | true =>
    obtain ⟨connections, hstart, h⟩ := Option.bind_eq_some_iff.mp h
    obtain ⟨hlinked, hn, hkey, hclients⟩ := hs.linked.start hstart
    cases spawned with
    | true =>
      cases h
      rw [lobby_eq hclients]
      exact ⟨.accepted hroom hkey hn, hs.accepted hroom hstart⟩
    | false =>
      obtain ⟨connections', hfinish, heq⟩ := Option.map_eq_some_iff.mp h
      cases heq
      obtain ⟨hlinked', -, hclients'⟩ := hlinked.finish hfinish
      have hsame : connections'.clients = s.connections.clients := by
        rw [hclients', hclients]
        funext n
        unfold Clients.set
        split
        · rename_i heq
          rw [heq, hn]
        · rfl
      rw [lobby_eq hsame]
      exact ⟨.notSpawned hroom hkey, hs.kept hlinked' hsame subset_rfl hs.addressed⟩

/-- What the worker does is allowed, and it stays sound. -/
theorem allowed_of_step (hs : Sound config s) {action : Action} {answer : Answer}
    (h : step config s action = some (answer, s')) :
    Allowed config s.lobby action answer s'.lobby ∧ Sound config s' := by
  cases action with
  | accept peerAddr spawned now key => exact allowed_of_accept hs h
  | cleanConnections now clock =>
    cases h
    obtain ⟨hlinked, hclients⟩ :=
      hs.linked.sweep (cleanConnection config now clock s.optTlsConfig)
    rw [lobby_eq hclients]
    refine ⟨.told (mem_dropped_iff hs.linked now clock), hs.kept hlinked hclients ?_ ?_⟩
    · apply Clients.served_map_subset
      intro client hsome
      obtain ⟨tls, htls⟩ := Option.isSome_iff_exists.mp hsome
      obtain ⟨before, hbefore, -⟩ := Option.bind_eq_some_iff.mp htls
      exact hbefore ▸ rfl
    · intro n client hclient e he
      obtain ⟨before, hbefore, rfl⟩ := Option.map_eq_some_iff.mp hclient
      exact hs.addressed n before hbefore e he
  | updateTlsConfig tlsConfig =>
    simp only [step] at h
    split at h
    · cases h
      exact ⟨.updateTlsConfig, hs.linked, hs.limit, hs.addressed⟩
    · cases h
  | receiveOutMessage metadata message =>
    cases h
    obtain ⟨hlinked, hclients⟩ := hs.linked.modifyShared metadata.connectionId
      (ConnectionRunner.receiveOutMessage (metadata, message))
    rw [lobby_eq hclients]
    refine ⟨.receiveOutMessage, hs.kept hlinked hclients ?_ ?_⟩
    · apply Clients.served_map_subset
      intro client hsome
      split at hsome <;> exact hsome
    · intro n client hclient e he
      obtain ⟨before, hbefore, rfl⟩ := Option.map_eq_some_iff.mp hclient
      split at he
      · rename_i hfor
        rw [if_pos hfor]
        rcases ConnectionRunner.mem_receiveOutMessage he with hmem | rfl
        · exact hs.addressed n before hbefore e hmem
        · exact hfor.1.symm
      · rename_i hnot
        rw [if_neg hnot]
        exact hs.addressed n before hbefore e he
  | connection n action =>
    obtain ⟨⟨message, connections⟩, hact, heq⟩ := Option.map_eq_some_iff.mp h
    cases heq
    obtain ⟨hlinked, client, runner, hclient, hstep, hclients⟩ := hs.linked.act hact
    rw [lobby_eq hclients]
    refine ⟨.connection hclient hstep, hs.kept hlinked hclients ?_ ?_⟩
    · apply Clients.served_set_subset_of_kept
      intro c hc hsome
      cases hc
      exact ⟨client, hclient, hsome⟩
    · apply Clients.forall_set hs.addressed
      intro c hc e he
      cases hc
      rcases ConnectionRunner.mem_step hstep he with hmem | hown
      · exact hs.addressed n client hclient e hmem
      · exact hown
  | remove n =>
    obtain ⟨connections, hfinish, heq⟩ := Option.map_eq_some_iff.mp h
    cases heq
    obtain ⟨hlinked, ⟨client, hclient, hclosed⟩, hclients⟩ := hs.linked.finish hfinish
    rw [lobby_eq hclients]
    refine ⟨.removed hclient hclosed, hs.kept hlinked hclients ?_ ?_⟩
    · apply Clients.served_set_subset_of_kept
      intro c hc
      cases hc
    · apply Clients.forall_set hs.addressed
      intro c hc
      cases hc

/-- In every run, whatever the connections, the swarm workers and the clock do: the worker does
what is allowed, serves no more connections than it may, finds each of them by its key, and has
told those to close that it does not serve any more. -/
theorem connections_served (config : SocketWorkerConfig) (optTlsConfig : Option RustlsConfig)
    (as : List Action) :
    Follows (step config) (fun _ l action answer l' => Allowed config l action answer l')
      (Tracks config) (init optTlsConfig) ⟨fun _ => none, optTlsConfig⟩ as := by
  have hinit : Sound config (init optTlsConfig) := sound_init optTlsConfig
  refine follows_of_simulation (fun hs h => (allowed_of_step hs h).2) ?_ hinit hinit.tracks as
  intro s l action answer s' hs htracks h
  obtain ⟨hallowed, hs'⟩ := allowed_of_step hs h
  rw [htracks.eq_lobby]
  exact ⟨s'.lobby, hallowed, hs'.tracks⟩

end SocketWorker

end Aquatic.Ws
