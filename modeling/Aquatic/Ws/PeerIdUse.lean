import Aquatic.Ws.Connections
import Aquatic.Ws.Ownership

/-!
# Closing a connection and other connections' peers

The socket worker notes a connection's announced peer ids before the swarm
worker has decided whether they are the connection's own. As long as no
connection announces a peer id that another one is using in the torrent, a
closing connection takes only its own peers with it.
-/

namespace Aquatic.Ws.Network
open Collections Transition
set_option autoImplicit false

/-- Everything that ties a connection to a peer id of a torrent: what it has
announced, what of it is on its way, and what is registered. -/
inductive Uses (config : Config) (me : Nat) (s : Network) (c : Connection) (ip : IpVersion)
    (h : InfoHash) (k : PeerId) : Prop where
  | announced {announced : IndexMap InfoHash PeerId} {pending : Option AnnounceRequest}
      (hc : s.connections c = .open ip announced pending) (hget : announced.get h = some k)
      (hme : calculateInMessageConsumerIndex config h = me)
  | pending {announced : IndexMap InfoHash PeerId} {request : AnnounceRequest}
      (hc : s.connections c = .open ip announced (some request)) (hh : request.infoHash = h)
      (hk : request.peerId = k) (hstatus : request.status ≠ .stopped)
      (hme : calculateInMessageConsumerIndex config h = me)
  | queued {worker : ConsumerId} {metadata : InMessageMeta} {request : AnnounceRequest}
      (hqueue : (metadata, request) ∈ s.inMessages worker) (hc : metadata.connection = c)
      (hip : metadata.ipVersion = ip) (hh : request.infoHash = h) (hk : request.peerId = k)
      (hstatus : request.status ≠ .stopped)
  | closing {message : SwarmControlMessage} (hc : s.connections c = .closing message)
      (hip : message.ipVersion = ip) (hmem : (h, k) ∈ message.announcedInfoHashes)
  | control {worker : ConsumerId} {message : SwarmControlMessage}
      (hqueue : (c, message) ∈ s.controlMessages worker) (hip : message.ipVersion = ip)
      (hmem : (h, k) ∈ message.announcedInfoHashes)
  | registered {p : Peer} (hp : s.torrents.peer ip h k = some p) (hc : p.connection = c)

/-- `c` takes an announce that registers its peer id with `me`. -/
def Announces (config : Config) (me : Nat) (s : Network) (c : Connection) (ip : IpVersion)
    (request : AnnounceRequest) (accessList : AccessList) (blocked : Bool) : Prop :=
  ∃ announced announced', s.connections c = .open ip announced none ∧
    readAnnounce config me ip announced request accessList blocked =
      .open ip announced' (some request) ∧
    request.status ≠ .stopped ∧ calculateInMessageConsumerIndex config request.infoHash = me

/-- Nobody announces a peer id that another connection is using in the torrent. -/
def PeerIdFree (config : Config) (me : Nat) (s : Network) (act : Action) (_ : Network) : Prop :=
  match act with
  | .announce c request accessList blocked => ∀ ip,
    Announces config me s c ip request accessList blocked →
    ∀ c', Uses config me s c' ip request.infoHash request.peerId → c' = c
  | _ => True

/-- A `ConnectionClosed` leaves all peers that its connection has not created. -/
def ClosesOwnOnly (s : Network) (act : Action) (s' : Network) : Prop :=
  match act with
  | .handleControlMessage worker => ∀ c message messages,
    s.controlMessages worker = (c, message) :: messages →
    ∀ ip h k p, s.torrents.peer ip h k = some p → p.connection ≠ c →
      s'.torrents.peer ip h k = some p
  | _ => True

variable {config : Config} {me : Nat} {s s' : Network}

theorem mem_connectionClosed {ip : IpVersion} {announced : IndexMap InfoHash PeerId}
    {h : InfoHash} {k : PeerId} :
    (h, k) ∈ (connectionClosed config me ip announced).announcedInfoHashes ↔
      announced.get h = some k ∧ calculateInMessageConsumerIndex config h = me := by
  simp only [connectionClosed, List.mem_filter, ← IndexMap.get_eq_some_iff, decide_eq_true_eq]

/-- Only the connection's own state has changed: uses by others are as before. -/
theorem uses_setConnection {c : Connection} {state : ConnectionState} {c' : Connection}
    {ip : IpVersion} {h : InfoHash} {k : PeerId}
    (huse : Uses config me (s.setConnection c state) c' ip h k) :
    Uses config me s c' ip h k ∨ c' = c ∧
      ((∃ announced pending, state = .open ip announced pending ∧
          calculateInMessageConsumerIndex config h = me ∧
          (announced.get h = some k ∨ ∃ request, pending = some request ∧ request.infoHash = h ∧
            request.peerId = k ∧ request.status ≠ .stopped)) ∨
        ∃ message, state = .closing message ∧ message.ipVersion = ip ∧
          (h, k) ∈ message.announcedInfoHashes) := by
  by_cases hne : c' = c
  · subst hne
    have hself : (s.setConnection c' state).connections c' = state := if_pos rfl
    cases huse with
    | announced hc hget hme =>
      exact .inr ⟨rfl, .inl ⟨_, _, hself.symm.trans hc, hme, .inl hget⟩⟩
    | pending hc hh hk hstatus hme =>
      exact .inr ⟨rfl, .inl ⟨_, _, hself.symm.trans hc, hme, .inr ⟨_, rfl, hh, hk, hstatus⟩⟩⟩
    | closing hc hip hmem => exact .inr ⟨rfl, .inr ⟨_, hself.symm.trans hc, hip, hmem⟩⟩
    | queued hqueue hc hip hh hk hstatus => exact .inl (.queued hqueue hc hip hh hk hstatus)
    | control hqueue hip hmem => exact .inl (.control hqueue hip hmem)
    | registered hp hc => exact .inl (.registered hp hc)
  · have hother : (s.setConnection c state).connections c' = s.connections c' := if_neg hne
    left
    cases huse with
    | announced hc hget hme => exact .announced (hother.symm.trans hc) hget hme
    | pending hc hh hk hstatus hme => exact .pending (hother.symm.trans hc) hh hk hstatus hme
    | closing hc hip hmem => exact .closing (hother.symm.trans hc) hip hmem
    | queued hqueue hc hip hh hk hstatus => exact .queued hqueue hc hip hh hk hstatus
    | control hqueue hip hmem => exact .control hqueue hip hmem
    | registered hp hc => exact .registered hp hc

section UsesOfStep
variable {c c' : Connection} {ip ip' : IpVersion} {h : InfoHash} {k : PeerId}
variable {announced : IndexMap InfoHash PeerId} {torrents : TorrentMaps}

/-- Where no connection has changed, a use is one from before, or it is by what is
queued or registered now. -/
theorem Uses.elim (s : Network) (huse : Uses config me s' c' ip h k) {P : Prop}
    (hconnections : s'.connections = s.connections) (hsame : Uses config me s c' ip h k → P)
    (hqueued : ∀ {w metadata request}, (metadata, request) ∈ s'.inMessages w →
      metadata.connection = c' → metadata.ipVersion = ip → request.infoHash = h →
      request.peerId = k → request.status ≠ .stopped → P)
    (hcontrol : ∀ {w message}, (c', message) ∈ s'.controlMessages w → message.ipVersion = ip →
      (h, k) ∈ message.announcedInfoHashes → P)
    (hregistered : ∀ {p}, s'.torrents.peer ip h k = some p → p.connection = c' → P) : P := by
  cases huse with
  | announced hc hget hme => exact hsame (.announced (hconnections ▸ hc) hget hme)
  | pending hc hh hk hstatus hme => exact hsame (.pending (hconnections ▸ hc) hh hk hstatus hme)
  | closing hc hip hmem => exact hsame (.closing (hconnections ▸ hc) hip hmem)
  | queued hmem hc hip hh hk hstatus => exact hqueued hmem hc hip hh hk hstatus
  | control hmem hip hmem' => exact hcontrol hmem hip hmem'
  | registered hp hc => exact hregistered hp hc

/-- Reading an announce: the one new use is by what is announced. -/
theorem uses_read {request : AnnounceRequest} {state : ConnectionState}
    (hc : s.connections c = .open ip' announced none)
    (hread : Read config me ip' announced request state)
    (huse : Uses config me (s.setConnection c state) c' ip h k) :
    Uses config me s c' ip h k ∨ c' = c ∧ ip = ip' ∧ request.infoHash = h ∧ request.peerId = k ∧
      request.status ≠ .stopped ∧ calculateInMessageConsumerIndex config h = me ∧
      ∃ announced', state = .open ip announced' (some request) := by
  rcases uses_setConnection huse with hold | ⟨rfl, hnew⟩
  · exact .inl hold
  cases hread with
  | refused =>
    rcases hnew with ⟨_, _, heq, hme, hget⟩ | ⟨_, heq, -⟩
    · cases heq
      rcases hget with hget | ⟨_, heq, -⟩
      · exact .inl (.announced hc hget hme)
      · cases heq
    · cases heq
  | mismatched =>
    rcases hnew with ⟨_, _, heq, -⟩ | ⟨_, heq, hip, hmem⟩
    · cases heq
    · cases heq
      subst hip
      obtain ⟨hget, hme⟩ := mem_connectionClosed.mp hmem
      exact .inl (.announced hc hget hme)
  | stopped hstatus hget' _ =>
    rcases hnew with ⟨_, _, heq, hme, hget⟩ | ⟨_, heq, -⟩
    · cases heq
      rcases hget with hget | ⟨_, heq, -, -, hs⟩
      · rw [hget'] at hget
        split at hget
        · cases hget
        · exact .inl (.announced hc hget hme)
      · cases heq
        exact absurd hstatus hs
    · cases heq
  | forwarded hstatus hget' _ =>
    rcases hnew with ⟨_, _, heq, hme, hget⟩ | ⟨_, heq, -⟩
    · cases heq
      rcases hget with hget | ⟨_, heq, hh, hk, -⟩
      · rw [hget'] at hget
        split at hget
        · rename_i hh
          exact .inr ⟨rfl, rfl, hh.symm, Option.some.inj hget, hstatus, hme, _, rfl⟩
        · exact .inl (.announced hc hget hme)
      · cases heq
        exact .inr ⟨rfl, rfl, hh, hk, hstatus, hme, _, rfl⟩
    · cases heq

/-- The announce that was waiting is with another worker, or in a queue. -/
theorem uses_unset {request : AnnounceRequest}
    (hc : s.connections c = .open ip' announced (some request))
    (huse : Uses config me (s.setConnection c (.open ip' announced none)) c' ip h k) :
    Uses config me s c' ip h k := by
  rcases uses_setConnection huse with hold | ⟨rfl, ⟨_, _, heq, hme, hget⟩ | ⟨_, heq, -⟩⟩
  · exact hold
  · cases heq
    rcases hget with hget | ⟨_, heq, -⟩
    · exact .announced hc hget hme
    · cases heq
  · cases heq

theorem uses_sent {request : AnnounceRequest}
    (hc : s.connections c = .open ip' announced (some request))
    (hme : calculateInMessageConsumerIndex config request.infoHash = me)
    (huse : Uses config me ((s.setConnection c (.open ip' announced none)).setInMessages
      c.consumerId (s.inMessages c.consumerId ++ [(metaOf c ip', request)])) c' ip h k) :
    Uses config me s c' ip h k := by
  refine huse.elim (s.setConnection c (.open ip' announced none)) rfl (uses_unset hc) ?_
    (fun hmem => .control hmem) (fun hp => .registered hp)
  intro w metadata request' hmem hc' hip hh hk hstatus
  rcases mem_of_pushed hmem with hold | ⟨hnew, -⟩
  · exact .queued hold hc' hip hh hk hstatus
  · cases hnew
    subst hc' hip hh hk
    exact .pending hc rfl rfl hstatus hme

/-- A connection that is closed uses nothing. -/
theorem uses_setClosed (huse : Uses config me (s.setConnection c .closed) c' ip h k) :
    Uses config me s c' ip h k := by
  rcases uses_setConnection huse with hold | ⟨rfl, ⟨_, _, heq, -⟩ | ⟨_, heq, -⟩⟩
  · exact hold
  · cases heq
  · cases heq

theorem uses_closedSent {message : SwarmControlMessage} (hc : s.connections c = .closing message)
    (huse : Uses config me ((s.setConnection c .closed).setControlMessages c.consumerId
      (s.controlMessages c.consumerId ++ [(c, message)])) c' ip h k) :
    Uses config me s c' ip h k := by
  refine huse.elim (s.setConnection c .closed) rfl uses_setClosed (fun hmem => .queued hmem) ?_
    (fun hp => .registered hp)
  intro w message' hmem hip hlisted
  rcases mem_of_pushed hmem with hold | ⟨hnew, -⟩
  · exact .control hold hip hlisted
  · cases hnew
    exact .closing hc hip hlisted

theorem uses_inMessage {worker : ConsumerId} {metadata : InMessageMeta} {request : AnnounceRequest}
    {messages : List (InMessageMeta × AnnounceRequest)} {a : Announced}
    {now : SecondsSinceServerStart} (hqueue : s.inMessages worker = (metadata, request) :: messages)
    (hframe : ∀ ipVersion, ipVersion ≠ metadata.ipVersion →
      torrents.torrentMap ipVersion = s.torrents.torrentMap ipVersion)
    (hhandled : TorrentMap.Handled config now metadata request
      (s.torrents.torrentMap metadata.ipVersion) (torrents.torrentMap metadata.ipVersion) a)
    (huse : Uses config me { s.setInMessages worker messages with torrents } c' ip h k) :
    Uses config me s c' ip h k := by
  refine huse.elim s rfl id (fun hmem => .queued (mem_of_popped hqueue hmem))
    (fun hmem => .control hmem) ?_
  intro p hp hc
  rcases origin_of_inMessage hframe hhandled hp with ⟨q, hq, hconn⟩ | ⟨hip, hh, hk, hs, hconn⟩
  · exact .registered hq (hconn ▸ hc)
  · have hmem : (metadata, request) ∈ s.inMessages worker := by
      rw [hqueue]
      exact List.mem_cons_self
    exact .queued hmem (hconn.symm.trans hc) hip.symm hh.symm hk.symm hs

theorem uses_controlMessage {worker : ConsumerId} {message : SwarmControlMessage}
    {messages : List (Connection × SwarmControlMessage)}
    (hqueue : s.controlMessages worker = (c, message) :: messages)
    (hpeer : ∀ ip h k, torrents.peer ip h k =
      if ip = message.ipVersion ∧ (h, k) ∈ message.announcedInfoHashes then none
      else s.torrents.peer ip h k)
    (huse : Uses config me { s.setControlMessages worker messages with torrents } c' ip h k) :
    Uses config me s c' ip h k := by
  refine huse.elim s rfl id (fun hmem => .queued hmem)
    (fun hmem => .control (mem_of_popped hqueue hmem)) ?_
  intro p hp hc
  have hpeer' := hpeer ip h k
  rw [hp] at hpeer'
  split at hpeer'
  · cases hpeer'
  · exact .registered hpeer'.symm hc

theorem uses_cleaned {accessList : AccessList} {now : SecondsSinceServerStart}
    (hpeer : ∀ ip h k, torrents.peer ip h k =
      if accessList.allows config.accessListMode h
      then (s.torrents.peer ip h k).bind (TorrentData.cleanedPeer now) else none)
    (huse : Uses config me { s with torrents } c' ip h k) : Uses config me s c' ip h k := by
  refine huse.elim s rfl id (fun hmem => .queued hmem) (fun hmem => .control hmem) ?_
  intro p hp hc
  obtain ⟨q, hq, hconn⟩ := origin_of_clean hpeer hp
  exact .registered hq (hconn ▸ hc)

end UsesOfStep

/-- A step makes nobody use a peer id who did not before, other than by announcing it. -/
theorem uses_of_step {act : Action} (hstep : Stepped config me s act s') {c' : Connection}
    {ip : IpVersion} {h : InfoHash} {k : PeerId} (huse : Uses config me s' c' ip h k) :
    Uses config me s c' ip h k ∨ ∃ request accessList blocked,
      act = .announce c' request accessList blocked ∧ request.infoHash = h ∧
        request.peerId = k ∧ request.status ≠ .stopped ∧
        calculateInMessageConsumerIndex config h = me ∧
        ∃ announced announced', s.connections c' = .open ip announced none ∧
          s'.connections c' = .open ip announced' (some request) := by
  cases hstep with
  | opened hc =>
    rcases uses_setConnection huse with hold | ⟨rfl, ⟨_, _, heq, -, hget⟩ | ⟨_, heq, -⟩⟩
    · exact .inl hold
    · cases heq
      rcases hget with hget | ⟨_, heq, -⟩
      · cases hget
      · cases heq
    · cases heq
  | @read c request accessList blocked ip' announced state hc hread =>
    rcases uses_read hc hread huse with hold | ⟨rfl, rfl, hh, hk, hstatus, hme, announced', hstate⟩
    · exact .inl hold
    · have hself : (s.setConnection c' state).connections c' = state := if_pos rfl
      exact .inr ⟨request, accessList, blocked, rfl, hh, hk, hstatus, hme, announced, announced',
        hc, hself.trans hstate⟩
  | sent hc hme => exact .inl (uses_sent hc hme huse)
  | sentElsewhere hc hme => exact .inl (uses_unset hc huse)
  | closed hc =>
    rcases uses_setConnection huse with hold | ⟨rfl, ⟨_, _, heq, -⟩ | ⟨_, heq, hip, hmem⟩⟩
    · exact .inl hold
    · cases heq
    · cases heq
      subst hip
      obtain ⟨hget, hme⟩ := mem_connectionClosed.mp hmem
      exact .inl (.announced hc hget hme)
  | closedSent hc => exact .inl (uses_closedSent hc huse)
  | closedSilently hc _ => exact .inl (uses_setClosed huse)
  | inMessage hqueue hframe hhandled => exact .inl (uses_inMessage hqueue hframe hhandled huse)
  | controlMessage hqueue hpeer => exact .inl (uses_controlMessage hqueue hpeer huse)
  | cleaned hpeer => exact .inl (uses_cleaned hpeer huse)

/-- At most one connection uses a peer id of a torrent. -/
structure PeerIdsApart (config : Config) (me : Nat) (s : Network) : Prop where
  counted : s.torrents.Counted
  apart : ∀ {ip h k c c'}, Uses config me s c ip h k → Uses config me s c' ip h k → c = c'

theorem not_uses_init (c : Connection) (ip : IpVersion) (h : InfoHash) (k : PeerId) :
    ¬ Uses config me init c ip h k := by
  intro huse
  cases huse with
  | announced hc => cases hc
  | pending hc => cases hc
  | queued hqueue => cases hqueue
  | closing hc => cases hc
  | control hqueue => cases hqueue
  | registered hp => cases ip <;> cases hp

theorem peerIdsApart_init : PeerIdsApart config me init :=
  ⟨TorrentMaps.counted_empty, fun huse => absurd huse (not_uses_init _ _ _ _)⟩

/-- The connection that starts to use a peer id has announced it just now. -/
theorem announces_of_step {c : Connection} {request : AnnounceRequest} {accessList : AccessList}
    {blocked : Bool} (hstep : step config me s (.announce c request accessList blocked) = some s')
    {ip : IpVersion} {announced announced' : IndexMap InfoHash PeerId}
    (hc : s.connections c = .open ip announced none)
    (hc' : s'.connections c = .open ip announced' (some request))
    (hstatus : request.status ≠ .stopped)
    (hme : calculateInMessageConsumerIndex config request.infoHash = me) :
    Announces config me s c ip request accessList blocked := by
  refine ⟨announced, announced', hc, ?_, hstatus, hme⟩
  simp only [step, hc, Option.some.injEq] at hstep
  rw [← hc', ← hstep]
  exact (if_pos rfl).symm

theorem peerIdsApart_step {act : Action} (hs : PeerIdsApart config me s)
    (h : step config me s act = some s') (hfree : PeerIdFree config me s act s') :
    PeerIdsApart config me s' := by
  obtain ⟨hstep, hcounted⟩ := stepped_of_step hs.counted h
  have hnew : ∀ {ip hash k c c'}, Uses config me s' c ip hash k → ¬ Uses config me s c ip hash k →
      Uses config me s' c' ip hash k → c = c' := by
    intro ip hash k c c' huse hnot huse'
    rcases uses_of_step hstep huse with hold | ⟨request, accessList, blocked, hact, hh, hk, hstatus,
      hme, announced, announced', hc, hc'⟩
    · exact absurd hold hnot
    · subst hact hh hk
      have hannounces := announces_of_step h hc hc' hstatus hme
      rcases uses_of_step hstep huse' with hold | ⟨_, _, _, hact, -⟩
      · exact (hfree ip hannounces c' hold).symm
      · cases hact
        rfl
  refine ⟨hcounted, ?_⟩
  intro ip hash k c c' huse huse'
  by_cases hold : Uses config me s c ip hash k
  · by_cases hold' : Uses config me s c' ip hash k
    · exact hs.apart hold hold'
    · exact (hnew huse' hold' huse).symm
  · exact hnew huse hold huse'

theorem closesOwnOnly_of_apart {act : Action} (hs : PeerIdsApart config me s)
    (h : step config me s act = some s') : ClosesOwnOnly s act s' := by
  obtain ⟨hstep, -⟩ := stepped_of_step hs.counted h
  cases hstep with
  | @controlMessage worker c message messages torrents hqueue hpeer =>
    intro c₁ message₁ messages₁ hqueue₁ ip hash k p hp hne
    rw [hqueue] at hqueue₁
    cases hqueue₁
    simp only [hpeer ip hash k]
    split
    · rename_i hlisted
      have hmem : (c, message) ∈ s.controlMessages worker := by
        rw [hqueue]
        exact List.mem_cons_self
      have hclosing : Uses config me s c ip hash k := .control hmem hlisted.1.symm hlisted.2
      exact absurd (hs.apart (.registered hp rfl) hclosing) hne
    · exact hp
  | _ => trivial

/-- In every run in which nobody announces a peer id that another connection is
using in the torrent, closing a connection removes only peers it has created. -/
theorem closed_own_only (config : Config) (me : Nat) (as : List Action)
    (hfree : AllSteps (step config me) (PeerIdFree config me) init as) :
    AllSteps (step config me) ClosesOwnOnly init as :=
  allSteps_of_invariant peerIdsApart_step (fun hs h _ => closesOwnOnly_of_apart hs h)
    peerIdsApart_init hfree

/-- Who announces which peer id in which torrent. -/
def announcement : Action → Option (Connection × InfoHash × PeerId)
  | .announce c request _ _ => some (c, request.infoHash, request.peerId)
  | _ => none

/-- What is used has been announced in the run. -/
structure UsesAnnounced (config : Config) (me : Nat) (done : List Action) (s : Network) : Prop where
  counted : s.torrents.Counted
  uses : ∀ {c ip h k}, Uses config me s c ip h k → (c, h, k) ∈ done.filterMap announcement

theorem usesAnnounced_step {done : List Action} {act : Action}
    (hs : UsesAnnounced config me done s) (h : step config me s act = some s') :
    UsesAnnounced config me (done ++ [act]) s' := by
  obtain ⟨hstep, hcounted⟩ := stepped_of_step hs.counted h
  refine ⟨hcounted, ?_⟩
  intro c ip hash k huse
  rw [List.filterMap_append, List.mem_append]
  rcases uses_of_step hstep huse with hold | ⟨request, accessList, blocked, rfl, rfl, rfl, -⟩
  · exact .inl (hs.uses hold)
  · exact .inr (List.mem_singleton_self _)

/-- Connections that announce different peer ids in a torrent use different ones. -/
theorem allSteps_peerIdFree {as : List Action}
    (hapart : ∀ a ∈ as.filterMap announcement, ∀ b ∈ as.filterMap announcement,
      a.2 = b.2 → a.1 = b.1) : AllSteps (step config me) (PeerIdFree config me) init as := by
  suffices h : ∀ rest done s, UsesAnnounced config me done s → as = done ++ rest →
      AllSteps (step config me) (PeerIdFree config me) s rest by
    refine h as [] init ⟨TorrentMaps.counted_empty, ?_⟩ rfl
    intro c ip hash k huse
    exact absurd huse (not_uses_init c ip hash k)
  intro rest
  induction rest with
  | nil => exact fun _ _ _ _ => trivial
  | cons act rest ih =>
    intro done s hs heq s' hstep
    refine ⟨?_, ih (done ++ [act]) s' (usesAnnounced_step hs hstep) (by simp [heq])⟩
    cases act with
    | announce c request accessList blocked =>
      intro ip _ c' huse
      have hmem : (c, request.infoHash, request.peerId) ∈ as.filterMap announcement :=
        List.mem_filterMap.mpr ⟨.announce c request accessList blocked, by simp [heq], rfl⟩
      have hmem' : (c', request.infoHash, request.peerId) ∈ as.filterMap announcement := by
        rw [heq, List.filterMap_append]
        exact List.mem_append_left _ (hs.uses huse)
      exact hapart _ hmem' _ hmem rfl
    | «open» | send | close | sendClosed | handleInMessage | handleControlMessage | clean => trivial

def alice : Connection := ⟨⟨0⟩, ⟨1, 1⟩⟩

def bob : Connection := ⟨⟨0⟩, ⟨2, 1⟩⟩

/-- What it takes for an announce of `c` to be handled. -/
def requestAndHandle (c : Connection) (request : AnnounceRequest) : List Action :=
  [.announce c request ⟨[]⟩ false, .send c, .handleInMessage c.consumerId ⟨fun _ => 0⟩ 0]

def announceAndHandle (c : Connection) (event : AnnounceEvent) : List Action :=
  requestAndHandle c (exampleRequest event)

def bobsRequest : AnnounceRequest :=
  { exampleRequest .started with peerId := ⟨Vector.replicate 20 2⟩ }

/-- Bob has a peer id of his own. -/
def pairRun : List Action :=
  .open alice .v4 :: .open bob .v4 :: announceAndHandle alice .started ++
    requestAndHandle bob bobsRequest ++ [.close bob, .sendClosed bob]

theorem closed_own_only_pair :
    AllSteps (step exampleConfig 0) ClosesOwnOnly init
        (pairRun ++ [.handleControlMessage ⟨0⟩]) ∧
      ∃ s s', run (step exampleConfig 0) init pairRun = some s ∧
        step exampleConfig 0 s (.handleControlMessage ⟨0⟩) = some s' ∧
        (s.torrents.peer .v4 bobsRequest.infoHash bobsRequest.peerId).isSome = true ∧
        s'.torrents.peer .v4 bobsRequest.infoHash bobsRequest.peerId = none ∧
        (s'.torrents.peer .v4 (exampleRequest .started).infoHash
          (exampleRequest .started).peerId).map Peer.connection = some alice :=
  ⟨closed_own_only exampleConfig 0 _ (allSteps_peerIdFree (by decide)),
    _, _, rfl, rfl, by decide, by decide, by decide⟩

/-- Bob announces Alice's peer id, in vain, and leaves. -/
def foreignPeerIdRun : List Action :=
  .open alice .v4 :: .open bob .v4 :: announceAndHandle alice .started ++
    announceAndHandle bob .started ++ [.close bob, .sendClosed bob]

theorem closed_removes_foreign_peer :
    ¬ AllSteps (step exampleConfig 0) ClosesOwnOnly init
      (foreignPeerIdRun ++ [.handleControlMessage ⟨0⟩]) := by
  intro h
  obtain ⟨s, s', hs, hs', hbefore, hclosed, hafter⟩ : ∃ s s',
      run (step exampleConfig 0) init foreignPeerIdRun = some s ∧
      step exampleConfig 0 s (.handleControlMessage ⟨0⟩) = some s' ∧
      (s.torrents.peer .v4 (exampleRequest .started).infoHash
        (exampleRequest .started).peerId).map Peer.connection = some alice ∧
      (s.controlMessages ⟨0⟩).map Prod.fst = [bob] ∧
      s'.torrents.peer .v4 (exampleRequest .started).infoHash
        (exampleRequest .started).peerId = none := by
    exact ⟨_, _, rfl, rfl, by decide, by decide, by decide⟩
  obtain ⟨p, hp, hcreator⟩ := Option.map_eq_some_iff.mp hbefore
  obtain ⟨⟨c, message⟩, messages, hqueue, hc, -⟩ := List.map_eq_cons_iff.mp hclosed
  cases hc
  have hkept := h.last hs hs' bob message messages hqueue .v4 _ _ p hp (by rw [hcreator]; decide)
  rw [hafter] at hkept
  cases hkept

end Aquatic.Ws.Network
