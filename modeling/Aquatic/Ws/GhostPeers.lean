import Aquatic.Ws.PeerIdUse

/-!
# What a closed connection leaves behind

Announces and control messages travel in different channels. Every peer of a
connection is bound to go: it is among the announced info hashes, its stop is on
its way, or a `ConnectionClosed` lists it. This breaks when a `ConnectionClosed`
overtakes announces, and when a connection closes with a stop still to be sent.
-/

namespace Aquatic.Ws.Network
open Collections Transition
set_option autoImplicit false

/-- What a connection's own state knows to remove. -/
inductive Noted : ConnectionState → IpVersion → InfoHash → PeerId → Prop where
  | announced {ip : IpVersion} {announced : IndexMap InfoHash PeerId}
      {pending : Option AnnounceRequest} {h : InfoHash} {k : PeerId}
      (hget : announced.get h = some k) : Noted (.open ip announced pending) ip h k
  | stopping {ip : IpVersion} {announced : IndexMap InfoHash PeerId} {request : AnnounceRequest}
      (hstatus : request.status = .stopped) :
      Noted (.open ip announced (some request)) ip request.infoHash request.peerId
  | closing {message : SwarmControlMessage} {h : InfoHash} {k : PeerId}
      (hmem : (h, k) ∈ message.announcedInfoHashes) :
      Noted (.closing message) message.ipVersion h k

/-- A peer that is bound to go, if the messages `rest` are handled last of its
connection's announces. -/
inductive BoundToGo (s : Network) (c : Connection) (ip : IpVersion) (h : InfoHash) (k : PeerId)
    (rest : List (InMessageMeta × AnnounceRequest)) : Prop where
  | noted (hnoted : Noted (s.connections c) ip h k)
  | stopping {metadata : InMessageMeta} {request : AnnounceRequest}
      (hmem : (metadata, request) ∈ rest) (hc : metadata.connection = c)
      (hip : metadata.ipVersion = ip) (hh : request.infoHash = h) (hk : request.peerId = k)
      (hstatus : request.status = .stopped)
  | control {worker : ConsumerId} {message : SwarmControlMessage}
      (hqueue : (c, message) ∈ s.controlMessages worker) (hip : message.ipVersion = ip)
      (hmem : (h, k) ∈ message.announcedInfoHashes)

/-- A `ConnectionClosed` is not handled before the announces of what it lists, and
no connection closes while a stop waits to be sent to `me`. -/
def CloseInOrder (config : Config) (me : Nat) (s : Network) (act : Action) (_ : Network) : Prop :=
  match act with
  | .close c => ∀ ip announced request, s.connections c = .open ip announced (some request) →
    calculateInMessageConsumerIndex config request.infoHash = me → request.status ≠ .stopped
  | .handleControlMessage worker => ∀ c message messages,
    s.controlMessages worker = (c, message) :: messages →
    ∀ w m, m ∈ s.inMessages w → m.1.connection = c → m.2.status ≠ .stopped →
      (m.2.infoHash, m.2.peerId) ∉ message.announcedInfoHashes
  | _ => True

/-- No peers of connections whose messages have all been handled. -/
def NoGhosts (s : Network) : Prop :=
  ∀ c, s.connections c = .closed → (∀ w m, m ∈ s.controlMessages w → m.1 ≠ c) →
    (∀ w m, m ∈ s.inMessages w → m.1.connection ≠ c) →
    ∀ ip h k p, s.torrents.peer ip h k = some p → p.connection ≠ c

structure AllBoundToGo (config : Config) (me : Nat) (s : Network) : Prop where
  counted : s.torrents.Counted
  home : ∀ {ip h k p}, s.torrents.peer ip h k = some p →
    calculateInMessageConsumerIndex config h = me
  entries : ∀ {ip h k p}, s.torrents.peer ip h k = some p →
    BoundToGo s p.connection ip h k (s.inMessages p.connection.consumerId)
  routed : ∀ {w metadata request}, (metadata, request) ∈ s.inMessages w →
    calculateInMessageConsumerIndex config request.infoHash = me ∧
      metadata.outMessageConsumerId = w
  queued : ∀ {w before metadata request after},
    s.inMessages w = before ++ (metadata, request) :: after → request.status ≠ .stopped →
    BoundToGo s metadata.connection metadata.ipVersion request.infoHash request.peerId after
  pending : ∀ {c ip announced request}, s.connections c = .open ip announced (some request) →
    request.status ≠ .stopped → announced.get request.infoHash = some request.peerId

variable {config : Config} {me : Nat} {s s' : Network}

theorem noGhosts_of_allBoundToGo (hs : AllBoundToGo config me s) : NoGhosts s := by
  intro c hclosed hcontrol hqueue ip h k p hp hc
  subst hc
  cases hs.entries hp with
  | noted hnoted =>
    rw [hclosed] at hnoted
    cases hnoted
  | stopping hmem hc => exact hqueue _ _ hmem hc
  | control hmem => exact hcontrol _ _ hmem rfl

theorem allBoundToGo_init : AllBoundToGo config me init where
  counted := TorrentMaps.counted_empty
  home := by
    intro ip h k p hp
    cases ip <;> cases hp
  entries := by
    intro ip h k p hp
    cases ip <;> cases hp
  routed := nofun
  queued := by
    intro w before metadata request after hqueue
    cases before <;> cases hqueue
  pending := nofun

theorem BoundToGo.mono {c : Connection} {ip : IpVersion} {h : InfoHash} {k : PeerId}
    {rest rest' : List (InMessageMeta × AnnounceRequest)} (hb : BoundToGo s c ip h k rest)
    (hnoted : Noted (s.connections c) ip h k → BoundToGo s' c ip h k rest')
    (hrest : ∀ m ∈ rest, m ∈ rest')
    (hcontrol : ∀ w m, m ∈ s.controlMessages w → m ∈ s'.controlMessages w) :
    BoundToGo s' c ip h k rest' := by
  cases hb with
  | noted h => exact hnoted h
  | stopping hmem hc hip hh hk hstatus => exact .stopping (hrest _ hmem) hc hip hh hk hstatus
  | control hqueue hip hmem => exact .control (hcontrol _ _ hqueue) hip hmem

/-- Once the first message is taken, the peer is still bound to go, unless it was this message
that stops it. -/
theorem BoundToGo.pop {c : Connection} {ip : IpVersion} {h : InfoHash} {k : PeerId}
    {metadata : InMessageMeta} {request : AnnounceRequest}
    {messages : List (InMessageMeta × AnnounceRequest)}
    (hb : BoundToGo s c ip h k ((metadata, request) :: messages)) :
    BoundToGo s c ip h k messages ∨ request.status = .stopped ∧ metadata.connection = c ∧
      metadata.ipVersion = ip ∧ request.infoHash = h ∧ request.peerId = k := by
  cases hb with
  | noted hn => exact .inl (.noted hn)
  | control hmem hip hlisted => exact .inl (.control hmem hip hlisted)
  | stopping hmem hc hip hh hk hstatus =>
    rcases List.mem_cons.mp hmem with heq | hrest
    · cases heq
      exact .inr ⟨hstatus, hc, hip, hh, hk⟩
    · exact .inl (.stopping hrest hc hip hh hk hstatus)

/-- A connection changes its state and still knows what it knew to remove. -/
theorem allBoundToGo_setConnection (hs : AllBoundToGo config me s) {c : Connection}
    {state : ConnectionState}
    (hnoted : ∀ {ip h k}, calculateInMessageConsumerIndex config h = me →
      Noted (s.connections c) ip h k → Noted state ip h k)
    (hpending : ∀ {ip announced request}, state = .open ip announced (some request) →
      request.status ≠ .stopped → announced.get request.infoHash = some request.peerId) :
    AllBoundToGo config me (s.setConnection c state) := by
  have hkeep : ∀ {c' ip h k rest}, calculateInMessageConsumerIndex config h = me →
      BoundToGo s c' ip h k rest → BoundToGo (s.setConnection c state) c' ip h k rest := by
    intro c' ip h k rest hme hb
    refine hb.mono (fun hn => .noted ?_) (fun _ hm => hm) (fun _ _ hm => hm)
    by_cases hc : c' = c
    · subst hc
      rw [connections_setConnection_self]
      exact hnoted hme hn
    · rw [connections_setConnection_of_ne s hc]
      exact hn
  refine ⟨hs.counted, hs.home, ?_, hs.routed, ?_, ?_⟩
  · intro ip h k p hp
    exact hkeep (hs.home hp) (hs.entries hp)
  · intro w before metadata request after hqueue hstatus
    have hmem : (metadata, request) ∈ s.inMessages w := by
      have hq : s.inMessages w = before ++ (metadata, request) :: after := hqueue
      rw [hq]
      simp
    exact hkeep (hs.routed hmem).1 (hs.queued hqueue hstatus)
  · intro c' ip announced request hc' hstatus
    by_cases hc : c' = c
    · subst hc
      rw [connections_setConnection_self] at hc'
      exact hpending hc' hstatus
    · rw [connections_setConnection_of_ne s hc] at hc'
      exact hs.pending hc' hstatus

theorem noted_read {ip : IpVersion} {announced : IndexMap InfoHash PeerId}
    {request : AnnounceRequest} {state : ConnectionState}
    (hread : Read config me ip announced request state) {ip' : IpVersion} {h : InfoHash}
    {k : PeerId} (hme : calculateInMessageConsumerIndex config h = me)
    (hnoted : Noted (.open ip announced none) ip' h k) : Noted state ip' h k := by
  cases hnoted with
  | announced hget =>
    cases hread with
    | refused => exact .announced hget
    | mismatched =>
      exact @Noted.closing (connectionClosed config me ip announced) h k
        (mem_connectionClosed.mpr ⟨hget, hme⟩)
    | stopped hstatus hget' hsame =>
      by_cases hh : h = request.infoHash
      · subst hh
        rw [hsame k hget]
        exact .stopping hstatus
      · exact .announced ((hget' h).trans ((if_neg hh).trans hget))
    | forwarded hstatus hget' hsame =>
      by_cases hh : h = request.infoHash
      · subst hh
        rw [hsame k hget]
        exact .announced ((hget' _).trans (if_pos rfl))
      · exact .announced ((hget' h).trans ((if_neg hh).trans hget))

theorem allBoundToGo_read (hs : AllBoundToGo config me s) {c : Connection} {ip : IpVersion}
    {announced : IndexMap InfoHash PeerId} {request : AnnounceRequest} {state : ConnectionState}
    (hc : s.connections c = .open ip announced none)
    (hread : Read config me ip announced request state) :
    AllBoundToGo config me (s.setConnection c state) := by
  apply allBoundToGo_setConnection hs
  · intro ip' h k hme hnoted
    rw [hc] at hnoted
    exact noted_read hread hme hnoted
  · intro ip' announced' request' hstate hstatus
    cases hread with
    | refused => cases hstate
    | mismatched => cases hstate
    | stopped hstopped => cases hstate; exact absurd hstopped hstatus
    | forwarded _ hget => cases hstate; exact (hget _).trans (if_pos rfl)

/-- A message of a channel that has got one more is the new one or has it behind it. -/
theorem split_of_pushed {T : Type} {xs before after : List T} {x y : T}
    (h : xs ++ [y] = before ++ x :: after) :
    before = xs ∧ x = y ∧ after = [] ∨
      ∃ after', after = after' ++ [y] ∧ xs = before ++ x :: after' := by
  rcases List.eq_nil_or_concat after with rfl | ⟨after, last, rfl⟩
  · obtain ⟨hbefore, hlast⟩ := List.append_inj' h rfl
    cases hlast
    exact .inl ⟨hbefore.symm, rfl, rfl⟩
  · have hlonger : xs ++ [y] = (before ++ x :: after) ++ [last] := by
      simpa using h
    obtain ⟨hbefore, hlast⟩ := List.append_inj' hlonger rfl
    cases hlast
    exact .inr ⟨after, List.concat_eq_append, hbefore⟩

/-- A stop that was waiting is now the last message of the channel. -/
theorem BoundToGo.sent {c c' : Connection} {ip ip' : IpVersion} {h : InfoHash} {k : PeerId}
    {announced : IndexMap InfoHash PeerId} {request : AnnounceRequest}
    {rest rest' : List (InMessageMeta × AnnounceRequest)}
    {messages : List (InMessageMeta × AnnounceRequest)}
    (hc : s.connections c = .open ip announced (some request)) (hrest : ∀ m ∈ rest, m ∈ rest')
    (hlast : c' = c → (metaOf c ip, request) ∈ rest') (hb : BoundToGo s c' ip' h k rest) :
    BoundToGo ((s.setConnection c (.open ip announced none)).setInMessages c.consumerId messages)
      c' ip' h k rest' := by
  refine hb.mono ?_ hrest (fun _ _ hm => hm)
  intro hn
  by_cases hcc : c' = c
  · subst hcc
    rw [hc] at hn
    cases hn with
    | announced hget =>
      refine .noted ?_
      change Noted ((s.setConnection c' _).connections c') _ _ _
      rw [connections_setConnection_self]
      exact .announced hget
    | stopping hstatus => exact .stopping (hlast rfl) rfl rfl rfl rfl hstatus
  · refine .noted ?_
    change Noted ((s.setConnection c _).connections c') _ _ _
    rw [connections_setConnection_of_ne s hcc]
    exact hn

theorem allBoundToGo_sent (hs : AllBoundToGo config me s) {c : Connection} {ip : IpVersion}
    {announced : IndexMap InfoHash PeerId} {request : AnnounceRequest}
    (hc : s.connections c = .open ip announced (some request))
    (hme : calculateInMessageConsumerIndex config request.infoHash = me) :
    AllBoundToGo config me
      ((s.setConnection c (.open ip announced none)).setInMessages c.consumerId
        (s.inMessages c.consumerId ++ [(metaOf c ip, request)])) := by
  generalize hs' : (s.setConnection c (.open ip announced none)).setInMessages c.consumerId
    (s.inMessages c.consumerId ++ [(metaOf c ip, request)]) = s'
  have hqueue : ∀ w, s'.inMessages w = if w = c.consumerId then
      s.inMessages c.consumerId ++ [(metaOf c ip, request)] else s.inMessages w := by
    intro w
    rw [← hs']
    rfl
  have hself : s'.connections c = .open ip announced none := by
    rw [← hs']
    exact connections_setConnection_self s c _
  have hother : ∀ c', c' ≠ c → s'.connections c' = s.connections c' := by
    intro c' hne
    rw [← hs']
    exact connections_setConnection_of_ne s hne _
  have htorrents : s'.torrents = s.torrents := by rw [← hs']; rfl
  have hkeep : ∀ {c' ip' h k rest rest'}, (∀ m ∈ rest, m ∈ rest') →
      (c' = c → (metaOf c ip, request) ∈ rest') →
      BoundToGo s c' ip' h k rest → BoundToGo s' c' ip' h k rest' := by
    intro c' ip' h k rest rest' hrest hlast hb
    rw [← hs']
    exact hb.sent hc hrest hlast
  refine ⟨?_, ?_, ?_, ?_, ?_, ?_⟩
  · rw [htorrents]
    exact hs.counted
  · intro ip' h k p hp
    rw [htorrents] at hp
    exact hs.home hp
  · intro ip' h k p hp
    rw [htorrents] at hp
    rw [hqueue]
    refine hkeep ?_ ?_ (hs.entries hp)
    · intro m hm
      exact mem_pushed _ hm
    · intro hcc
      rw [if_pos (congrArg Connection.consumerId hcc)]
      simp
  · intro w metadata request' hm
    rw [hqueue] at hm
    rcases mem_of_pushed hm with hold | ⟨hnew, hw⟩
    · exact hs.routed hold
    · cases hnew
      exact ⟨hme, hw.symm⟩
  · intro w before metadata request' after hsplit hstatus
    rw [hqueue] at hsplit
    split at hsplit
    · rename_i hw
      rcases split_of_pushed hsplit with ⟨-, hlast, rfl⟩ | ⟨after, rfl, hbefore⟩
      · cases hlast
        refine .noted ?_
        rw [show (metaOf c ip).connection = c from rfl, hself]
        exact .announced (hs.pending hc hstatus)
      · refine hkeep ?_ ?_ (hs.queued hbefore hstatus)
        · intro m hm
          exact List.mem_append_left _ hm
        · intro _
          exact List.mem_append_right _ List.mem_cons_self
    · rename_i hw
      have hmem : (metadata, request') ∈ s.inMessages w := by
        rw [hsplit]
        simp
      refine hkeep (fun m hm => hm) ?_ (hs.queued hsplit hstatus)
      intro hcc
      have hworker := (hs.routed hmem).2
      rw [← hcc] at hw
      exact absurd hworker.symm hw
  · intro c' ip' announced' request' hc' hstatus
    by_cases hcc : c' = c
    · subst hcc
      rw [hself] at hc'
      cases hc'
    · rw [hother c' hcc] at hc'
      exact hs.pending hc' hstatus

theorem allBoundToGo_closed (hs : AllBoundToGo config me s) {c : Connection} {ip : IpVersion}
    {announced : IndexMap InfoHash PeerId} {pending : Option AnnounceRequest}
    (hc : s.connections c = .open ip announced pending)
    (hpending : ∀ request, pending = some request →
      calculateInMessageConsumerIndex config request.infoHash = me → request.status ≠ .stopped) :
    AllBoundToGo config me
      (s.setConnection c (.closing (connectionClosed config me ip announced))) := by
  apply allBoundToGo_setConnection hs
  · intro ip' h k hme hnoted
    rw [hc] at hnoted
    cases hnoted with
    | announced hget =>
      exact @Noted.closing (connectionClosed config me ip announced) h k
        (mem_connectionClosed.mpr ⟨hget, hme⟩)
    | stopping hstatus => exact absurd hstatus (hpending _ rfl hme)
  · intro ip' announced' request hstate
    cases hstate

/-- What a closed connection has to remove is in the message about it. -/
theorem BoundToGo.closedSent {c c' : Connection} {ip : IpVersion} {h : InfoHash} {k : PeerId}
    {message : SwarmControlMessage} {rest : List (InMessageMeta × AnnounceRequest)}
    (hc : s.connections c = .closing message) (hb : BoundToGo s c' ip h k rest) :
    BoundToGo ((s.setConnection c .closed).setControlMessages c.consumerId
      (s.controlMessages c.consumerId ++ [(c, message)])) c' ip h k rest := by
  have hcontrol : ∀ w, ((s.setConnection c .closed).setControlMessages c.consumerId
      (s.controlMessages c.consumerId ++ [(c, message)])).controlMessages w =
        if w = c.consumerId then s.controlMessages c.consumerId ++ [(c, message)]
        else s.controlMessages w := fun _ => rfl
  refine hb.mono ?_ (fun _ hm => hm) ?_
  · intro hn
    by_cases hcc : c' = c
    · subst hcc
      rw [hc] at hn
      cases hn with
      | closing hmem =>
        refine @BoundToGo.control _ _ _ _ _ _ c'.consumerId message ?_ rfl hmem
        rw [hcontrol, if_pos rfl]
        exact List.mem_append_right _ List.mem_cons_self
    · refine .noted ?_
      change Noted ((s.setConnection c .closed).connections c') _ _ _
      rw [connections_setConnection_of_ne s hcc]
      exact hn
  · intro w m hm
    rw [hcontrol]
    exact mem_pushed _ hm

theorem allBoundToGo_closedSent (hs : AllBoundToGo config me s) {c : Connection}
    {message : SwarmControlMessage} (hc : s.connections c = .closing message) :
    AllBoundToGo config me ((s.setConnection c .closed).setControlMessages c.consumerId
      (s.controlMessages c.consumerId ++ [(c, message)])) := by
  generalize hs' : (s.setConnection c .closed).setControlMessages c.consumerId
    (s.controlMessages c.consumerId ++ [(c, message)]) = s'
  have hself : s'.connections c = .closed := by
    rw [← hs']
    exact connections_setConnection_self s c _
  have hother : ∀ c', c' ≠ c → s'.connections c' = s.connections c' := by
    intro c' hne
    rw [← hs']
    exact connections_setConnection_of_ne s hne _
  have htorrents : s'.torrents = s.torrents := by rw [← hs']; rfl
  have hqueue : s'.inMessages = s.inMessages := by rw [← hs']; rfl
  have hkeep : ∀ {c' ip h k rest}, BoundToGo s c' ip h k rest →
      BoundToGo s' c' ip h k rest := by
    intro c' ip h k rest hb
    rw [← hs']
    exact hb.closedSent hc
  refine ⟨?_, ?_, ?_, ?_, ?_, ?_⟩
  · rw [htorrents]
    exact hs.counted
  · intro ip h k p hp
    rw [htorrents] at hp
    exact hs.home hp
  · intro ip h k p hp
    rw [htorrents] at hp
    rw [hqueue]
    exact hkeep (hs.entries hp)
  · intro w metadata request hm
    rw [hqueue] at hm
    exact hs.routed hm
  · intro w before metadata request after hsplit hstatus
    rw [hqueue] at hsplit
    exact hkeep (hs.queued hsplit hstatus)
  · intro c' ip announced request hc' hstatus
    by_cases hcc : c' = c
    · subst hcc
      rw [hself] at hc'
      cases hc'
    · rw [hother c' hcc] at hc'
      exact hs.pending hc' hstatus

/-- A stop takes its connection's peer with it. -/
theorem connection_ne_of_stopped {metadata : InMessageMeta} {request : AnnounceRequest}
    {a : Announced} {now : SecondsSinceServerStart} {before after : TorrentMaps}
    (hhandled : TorrentMap.Handled config now metadata request
      (before.torrentMap metadata.ipVersion) (after.torrentMap metadata.ipVersion) a)
    (hstatus : request.status = .stopped) {p : Peer}
    (hp : after.peer metadata.ipVersion request.infoHash request.peerId = some p) :
    p.connection ≠ metadata.connection := by
  unfold TorrentMaps.peer at hp
  cases hhandled with
  | ignored q hq hne same _ =>
    rw [same, hq] at hp
    cases hp
    exact fun hconn => hne (congrArg Connection.connectionId hconn)
  | accepted _ _ haccepted =>
    rw [haccepted.peers', TorrentData.announcedPeers_stopped hstatus] at hp
    cases hp

theorem allBoundToGo_inMessage (hs : AllBoundToGo config me s) {worker : ConsumerId}
    {metadata : InMessageMeta} {request : AnnounceRequest}
    {messages : List (InMessageMeta × AnnounceRequest)} {a : Announced}
    {now : SecondsSinceServerStart} {torrents : TorrentMaps}
    (hqueue : s.inMessages worker = (metadata, request) :: messages)
    (hframe : ∀ ipVersion, ipVersion ≠ metadata.ipVersion →
      torrents.torrentMap ipVersion = s.torrents.torrentMap ipVersion)
    (hhandled : TorrentMap.Handled config now metadata request
      (s.torrents.torrentMap metadata.ipVersion) (torrents.torrentMap metadata.ipVersion) a)
    (hcounted : torrents.Counted) :
    AllBoundToGo config me { s.setInMessages worker messages with torrents } := by
  generalize hs' : ({ s.setInMessages worker messages with torrents } : Network) = s'
  have hqueue' : ∀ w, s'.inMessages w = if w = worker then messages else s.inMessages w := by
    intro w
    rw [← hs']
    rfl
  have hconnections : s'.connections = s.connections := by rw [← hs']; rfl
  have hcontrol : s'.controlMessages = s.controlMessages := by rw [← hs']; rfl
  have htorrents : s'.torrents = torrents := by rw [← hs']
  have hrouted := hs.routed (hqueue ▸ List.mem_cons_self)
  have hkeep : ∀ {c ip h k rest rest'}, (∀ m ∈ rest, m ∈ rest') →
      BoundToGo s c ip h k rest → BoundToGo s' c ip h k rest' := by
    intro c ip h k rest rest' hrest hb
    refine hb.mono ?_ hrest (fun w m hm => hcontrol ▸ hm)
    intro hn
    refine .noted ?_
    rw [hconnections]
    exact hn
  have hfirst : request.status ≠ .stopped →
      BoundToGo s' metadata.connection metadata.ipVersion request.infoHash request.peerId
        messages := by
    intro hstatus
    have hsplit : s.inMessages worker = [] ++ (metadata, request) :: messages := hqueue
    exact hkeep (fun _ hm => hm) (hs.queued hsplit hstatus)
  refine ⟨?_, ?_, ?_, ?_, ?_, ?_⟩
  · rw [htorrents]
    exact hcounted
  · intro ip h k p hp
    rw [htorrents] at hp
    rcases origin_of_inMessage hframe hhandled hp with ⟨q, hq, -⟩ | ⟨-, rfl, -⟩
    · exact hs.home hq
    · exact hrouted.1
  · intro ip h k p hp
    rw [htorrents] at hp
    rw [hqueue']
    rcases origin_of_inMessage hframe hhandled hp with
      ⟨q, hq, hconn⟩ | ⟨rfl, rfl, rfl, hstatus, hconn⟩
    · have hb := hs.entries hq
      rw [← hconn] at hb
      split
      · rename_i hw
        rw [hw, hqueue] at hb
        rcases hb.pop with hb | ⟨hstatus, hc, rfl, rfl, rfl⟩
        · exact hkeep (fun m hm => hm) hb
        · exact absurd hc.symm (connection_ne_of_stopped hhandled hstatus hp)
      · exact hkeep (fun m hm => hm) hb
    · have hworker : p.connection.consumerId = worker := by
        rw [hconn]
        exact hrouted.2
      rw [if_pos hworker, hconn]
      exact hfirst hstatus
  · intro w metadata' request' hm
    rw [hqueue'] at hm
    exact hs.routed (mem_of_popped hqueue hm)
  · intro w before metadata' request' after hsplit hstatus
    rw [hqueue'] at hsplit
    split at hsplit
    · have hlonger : s.inMessages worker =
          ((metadata, request) :: before) ++ (metadata', request') :: after := by
        rw [hqueue, hsplit]
        rfl
      exact hkeep (fun m hm => hm) (hs.queued hlonger hstatus)
    · exact hkeep (fun m hm => hm) (hs.queued hsplit hstatus)
  · intro c ip announced request' hc hstatus
    rw [hconnections] at hc
    exact hs.pending hc hstatus

theorem allBoundToGo_controlMessage (hs : AllBoundToGo config me s) {worker : ConsumerId}
    {c : Connection} {message : SwarmControlMessage}
    {messages : List (Connection × SwarmControlMessage)} {torrents : TorrentMaps}
    (hqueue : s.controlMessages worker = (c, message) :: messages)
    (hpeer : ∀ ip h k, torrents.peer ip h k =
      if ip = message.ipVersion ∧ (h, k) ∈ message.announcedInfoHashes then none
      else s.torrents.peer ip h k)
    (horder : ∀ w m, m ∈ s.inMessages w → m.1.connection = c → m.2.status ≠ .stopped →
      (m.2.infoHash, m.2.peerId) ∉ message.announcedInfoHashes)
    (hcounted : torrents.Counted) :
    AllBoundToGo config me { s.setControlMessages worker messages with torrents } := by
  generalize hs' : ({ s.setControlMessages worker messages with torrents } : Network) = s'
  have hcontrol : ∀ w m, m ∈ s.controlMessages w →
      m ∈ s'.controlMessages w ∨ m = (c, message) := by
    intro w m hm
    rw [← hs']
    by_cases hw : w = worker
    · subst hw
      rw [hqueue] at hm
      rw [show ({ s.setControlMessages w messages with torrents } : Network).controlMessages w =
        messages from if_pos rfl]
      exact (List.mem_cons.mp hm).symm
    · rw [show ({ s.setControlMessages worker messages with torrents } : Network).controlMessages w
        = s.controlMessages w from if_neg hw]
      exact .inl hm
  have hconnections : s'.connections = s.connections := by rw [← hs']; rfl
  have hmessages : s'.inMessages = s.inMessages := by rw [← hs']; rfl
  have htorrents : s'.torrents = torrents := by rw [← hs']
  have hold : ∀ {ip h k p}, s'.torrents.peer ip h k = some p →
      s.torrents.peer ip h k = some p ∧
        ¬ (ip = message.ipVersion ∧ (h, k) ∈ message.announcedInfoHashes) := by
    intro ip h k p hp
    rw [htorrents, hpeer] at hp
    split at hp
    · cases hp
    · rename_i hlisted
      exact ⟨hp, hlisted⟩
  have hkeep : ∀ {c' ip h k rest},
      (c' = c → ¬ (ip = message.ipVersion ∧ (h, k) ∈ message.announcedInfoHashes)) →
      BoundToGo s c' ip h k rest → BoundToGo s' c' ip h k rest := by
    intro c' ip h k rest hunlisted hb
    cases hb with
    | noted hn =>
      refine .noted ?_
      rw [hconnections]
      exact hn
    | stopping hmem hc hip hh hk hstatus => exact .stopping hmem hc hip hh hk hstatus
    | control hmem hip hlisted =>
      rcases hcontrol _ _ hmem with hmem | heq
      · exact .control hmem hip hlisted
      · cases heq
        exact absurd ⟨hip.symm, hlisted⟩ (hunlisted rfl)
  refine ⟨?_, ?_, ?_, ?_, ?_, ?_⟩
  · rw [htorrents]
    exact hcounted
  · intro ip h k p hp
    exact hs.home (hold hp).1
  · intro ip h k p hp
    rw [hmessages]
    exact hkeep (fun _ => (hold hp).2) (hs.entries (hold hp).1)
  · intro w metadata request hm
    rw [hmessages] at hm
    exact hs.routed hm
  · intro w before metadata request after hsplit hstatus
    rw [hmessages] at hsplit
    have hmem : (metadata, request) ∈ s.inMessages w := by
      rw [hsplit]
      simp
    exact hkeep (fun hc hlisted => horder w _ hmem hc hstatus hlisted.2) (hs.queued hsplit hstatus)
  · intro c' ip announced request hc' hstatus
    rw [hconnections] at hc'
    exact hs.pending hc' hstatus

theorem allBoundToGo_cleaned (hs : AllBoundToGo config me s) {torrents : TorrentMaps}
    (hcounted : torrents.Counted)
    (horigin : ∀ {ip h k p}, torrents.peer ip h k = some p →
      ∃ q, s.torrents.peer ip h k = some q ∧ p.connection = q.connection) :
    AllBoundToGo config me { s with torrents } := by
  have hkeep : ∀ {c ip h k rest}, BoundToGo s c ip h k rest →
      BoundToGo { s with torrents } c ip h k rest := by
    intro c ip h k rest hb
    exact hb.mono (fun hn => .noted hn) (fun _ hm => hm) (fun _ _ hm => hm)
  refine ⟨hcounted, ?_, ?_, hs.routed, ?_, hs.pending⟩
  · intro ip h k p hp
    obtain ⟨q, hq, -⟩ := horigin hp
    exact hs.home hq
  · intro ip h k p hp
    obtain ⟨q, hq, hconn⟩ := horigin hp
    rw [hconn]
    exact hkeep (hs.entries hq)
  · intro w before metadata request after hsplit hstatus
    exact hkeep (hs.queued hsplit hstatus)

theorem allBoundToGo_step {act : Action} (hs : AllBoundToGo config me s)
    (h : step config me s act = some s') (horder : CloseInOrder config me s act s') :
    AllBoundToGo config me s' := by
  obtain ⟨hstep, hcounted⟩ := stepped_of_step hs.counted h
  cases hstep with
  | opened hc =>
    apply allBoundToGo_setConnection hs
    · intro ip h k _ hnoted
      rw [hc] at hnoted
      cases hnoted
    · exact nofun
  | read hc hread => exact allBoundToGo_read hs hc hread
  | sent hc hme => exact allBoundToGo_sent hs hc hme
  | sentElsewhere hc hme =>
    apply allBoundToGo_setConnection hs
    · intro ip h k hhome hnoted
      rw [hc] at hnoted
      cases hnoted with
      | announced hget => exact .announced hget
      | stopping _ => exact absurd hhome hme
    · exact nofun
  | closed hc =>
    refine allBoundToGo_closed hs hc ?_
    rintro request rfl
    exact horder _ _ _ hc
  | closedSent hc => exact allBoundToGo_closedSent hs hc
  | closedSilently hc hnil =>
    apply allBoundToGo_setConnection hs
    · intro ip h k _ hnoted
      rw [hc] at hnoted
      cases hnoted with
      | closing hmem =>
        rw [hnil] at hmem
        cases hmem
    · exact nofun
  | inMessage hqueue hframe hhandled =>
    exact allBoundToGo_inMessage hs hqueue hframe hhandled hcounted
  | controlMessage hqueue hpeer =>
    exact allBoundToGo_controlMessage hs hqueue hpeer (horder _ _ _ hqueue) hcounted
  | cleaned hpeer => exact allBoundToGo_cleaned hs hcounted (origin_of_clean hpeer)

/-- When every `ConnectionClosed` waits for its connection's announces, nothing is
left of a connection whose messages have all been handled. -/
theorem no_ghost_peers (config : Config) (me : Nat) (as : List Action) {s : Network}
    (horder : AllSteps (step config me) (CloseInOrder config me) init as)
    (hrun : run (step config me) init as = some s) : NoGhosts s :=
  noGhosts_of_allBoundToGo (run_invariant allBoundToGo_step allBoundToGo_init horder hrun)

def soloRun : List Action :=
  .open alice .v4 :: announceAndHandle alice .started ++
    [.close alice, .sendClosed alice, .handleControlMessage ⟨0⟩]

theorem no_ghost_peers_solo : ∃ s, run (step exampleConfig 0) init soloRun = some s ∧ NoGhosts s := by
  refine ⟨_, rfl, ?_⟩
  refine no_ghost_peers exampleConfig 0 soloRun ?_ rfl
  refine .cons rfl trivial (.cons rfl trivial (.cons rfl trivial (.cons rfl trivial
    (.cons rfl ?_ (.cons rfl trivial (.cons rfl ?_ trivial))))))
  · intro ip announced request hc
    simp [setConnection, setInMessages, alice] at hc
  · intro c message messages _ w m hm
    by_cases hw : w = alice.consumerId
    · subst hw
      cases hm
    · simp [init, setConnection, setInMessages, setControlMessages, hw] at hm

/-- The worker handles the `ConnectionClosed` first, and the announce after it. -/
def overtakingRun : List Action :=
  [.open alice .v4, .announce alice (exampleRequest .started) ⟨[]⟩ false, .send alice,
    .close alice, .sendClosed alice, .handleControlMessage ⟨0⟩,
    .handleInMessage ⟨0⟩ ⟨fun _ => 0⟩ 0]

theorem ghost_peer : ∃ s, run (step exampleConfig 0) init overtakingRun = some s ∧ ¬ NoGhosts s := by
  obtain ⟨s, hs, hclosed, hcontrol, hqueue, hpeer⟩ : ∃ s,
      run (step exampleConfig 0) init overtakingRun = some s ∧ s.connections alice = .closed ∧
      (∀ w, s.controlMessages w = []) ∧ (∀ w, s.inMessages w = []) ∧
      (s.torrents.peer .v4 (exampleRequest .started).infoHash
        (exampleRequest .started).peerId).map Peer.connection = some alice := by
    refine ⟨_, rfl, rfl, ?_, ?_, by decide⟩
    · intro w
      by_cases hw : w = ⟨0⟩
      · subst hw
        rfl
      · simp [setControlMessages, setConnection, setInMessages, alice, init, hw]
    · intro w
      by_cases hw : w = ⟨0⟩
      · subst hw
        rfl
      · simp [setControlMessages, setConnection, setInMessages, alice, init, hw]
  refine ⟨s, hs, fun hghosts => ?_⟩
  obtain ⟨p, hp, hcreator⟩ := Option.map_eq_some_iff.mp hpeer
  refine hghosts alice hclosed ?_ ?_ _ _ _ p hp hcreator
  · intro w m hm
    rw [hcontrol] at hm
    cases hm
  · intro w m hm
    rw [hqueue] at hm
    cases hm

end Aquatic.Ws.Network
