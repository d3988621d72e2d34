import Aquatic.Lib.Transition
import Aquatic.Ws.TorrentMapsSpec

/-!
# Connections and the two channels to a swarm worker

Any number of connections on any number of socket workers, seen from the swarm
worker `me`. Each socket worker has a channel of announces and one of control
messages to it; the swarm worker drains each of them in a task of its own. What
goes to other swarm workers is not followed. A connection is never opened twice,
as slot maps do not hand out a key again.
-/

namespace Aquatic.Ws
open Collections
set_option autoImplicit false

def calculateInMessageConsumerIndex (config : Config) (infoHash : InfoHash) : Nat :=
  infoHash.firstByte % max config.swarmWorkers 1

/-- `connectionClosed`, the only control message. -/
structure SwarmControlMessage where
  ipVersion : IpVersion
  announcedInfoHashes : List (InfoHash × PeerId)
  deriving DecidableEq, Repr

/-- Open connections read announces and wait for `pending` to be sent; closing
ones wait for their control message to be sent. -/
inductive ConnectionState where
  | unopened
  | open (ipVersion : IpVersion) (announcedInfoHashes : IndexMap InfoHash PeerId)
      (pending : Option AnnounceRequest)
  | closing (message : SwarmControlMessage)
  | closed

/-- Control messages are kept with the connection they are about. -/
structure Network where
  connections : Connection → ConnectionState
  inMessages : ConsumerId → List (InMessageMeta × AnnounceRequest)
  controlMessages : ConsumerId → List (Connection × SwarmControlMessage)
  torrents : TorrentMaps

def metaOf (connection : Connection) (ipVersion : IpVersion) : InMessageMeta :=
  ⟨connection.consumerId, connection.connectionId, ipVersion, none⟩

namespace Network

inductive Action where
  | open (connection : Connection) (ipVersion : IpVersion)
  /-- The reader takes an announce; `blocked` is the outcome of the security checks. -/
  | announce (connection : Connection) (request : AnnounceRequest) (accessList : AccessList)
      (blocked : Bool)
  | send (connection : Connection)
  | close (connection : Connection)
  | sendClosed (connection : Connection)
  | handleInMessage (worker : ConsumerId) (rng : Rng) (now : SecondsSinceServerStart)
  | handleControlMessage (worker : ConsumerId)
  | clean (accessList : AccessList) (now : SecondsSinceServerStart)

def init : Network := ⟨fun _ => .unopened, fun _ => [], fun _ => [], TorrentMaps.empty⟩

def setConnection (s : Network) (connection : Connection) (state : ConnectionState) : Network :=
  { s with connections := fun c => if c = connection then state else s.connections c }

theorem connections_setConnection_self (s : Network) (c : Connection) (state : ConnectionState) :
    (s.setConnection c state).connections c = state := if_pos rfl

theorem connections_setConnection_of_ne (s : Network) {c c' : Connection} (h : c' ≠ c)
    (state : ConnectionState) : (s.setConnection c state).connections c' = s.connections c' :=
  if_neg h

def setInMessages (s : Network) (worker : ConsumerId)
    (messages : List (InMessageMeta × AnnounceRequest)) : Network :=
  { s with inMessages := fun w => if w = worker then messages else s.inMessages w }

def setControlMessages (s : Network) (worker : ConsumerId)
    (messages : List (Connection × SwarmControlMessage)) : Network :=
  { s with controlMessages := fun w => if w = worker then messages else s.controlMessages w }

/-- The message for `me` that `after_close` builds from the announced info hashes. -/
def connectionClosed (config : Config) (me : Nat) (ipVersion : IpVersion)
    (announcedInfoHashes : IndexMap InfoHash PeerId) : SwarmControlMessage where
  ipVersion := ipVersion
  announcedInfoHashes := announcedInfoHashes.entries.filter fun e =>
    calculateInMessageConsumerIndex config e.1 = me

/-- The reader's part of an announce, up to the send. -/
def readAnnounce (config : Config) (me : Nat) (ipVersion : IpVersion)
    (announcedInfoHashes : IndexMap InfoHash PeerId) (request : AnnounceRequest)
    (accessList : AccessList) (blocked : Bool) : ConnectionState :=
  if blocked then .open ipVersion announcedInfoHashes none
  else if !accessList.allows config.accessListMode request.infoHash then
    .open ipVersion announcedInfoHashes none
  else
    match announcedInfoHashes.get request.infoHash with
    | some peerId =>
      -- One peer id for each torrent: the reader gives up and the connection closes.
      if peerId ≠ request.peerId then
        .closing (connectionClosed config me ipVersion announcedInfoHashes)
      else if request.event = some .stopped then
        .open ipVersion (announcedInfoHashes.swapRemove request.infoHash) (some request)
      else .open ipVersion announcedInfoHashes (some request)
    | none =>
      let announcedInfoHashes := announcedInfoHashes.insert request.infoHash request.peerId
      if request.event = some .stopped then
        .open ipVersion (announcedInfoHashes.swapRemove request.infoHash) (some request)
      else .open ipVersion announcedInfoHashes (some request)

def handleConnectionClosed (torrents : TorrentMaps) (message : SwarmControlMessage) :
    Option TorrentMaps :=
  message.announcedInfoHashes.foldlM
    (fun torrents e => torrents.handleConnectionClosed e.1 e.2 message.ipVersion) torrents

def step (config : Config) (me : Nat) (s : Network) : Action → Option Network
  | .open connection ipVersion =>
    match s.connections connection with
    | .unopened => some (s.setConnection connection (.open ipVersion IndexMap.empty none))
    | _ => none
  | .announce connection request accessList blocked =>
    match s.connections connection with
    | .open ipVersion announcedInfoHashes none =>
      some (s.setConnection connection
        (readAnnounce config me ipVersion announcedInfoHashes request accessList blocked))
    | _ => none
  | .send connection =>
    match s.connections connection with
    | .open ipVersion announcedInfoHashes (some request) =>
      let s := s.setConnection connection (.open ipVersion announcedInfoHashes none)
      if calculateInMessageConsumerIndex config request.infoHash = me then
        some (s.setInMessages connection.consumerId
          (s.inMessages connection.consumerId ++ [(metaOf connection ipVersion, request)]))
      else some s
    | _ => none
  | .close connection =>
    match s.connections connection with
    | .open ipVersion announcedInfoHashes _ =>
      some (s.setConnection connection
        (.closing (connectionClosed config me ipVersion announcedInfoHashes)))
    | _ => none
  | .sendClosed connection =>
    match s.connections connection with
    | .closing message =>
      let s := s.setConnection connection .closed
      if message.announcedInfoHashes = [] then some s
      else some (s.setControlMessages connection.consumerId
        (s.controlMessages connection.consumerId ++ [(connection, message)]))
    | _ => none
  | .handleInMessage worker rng now =>
    match s.inMessages worker with
    | (metadata, request) :: messages =>
      (s.torrents.handleAnnounceRequest config rng now metadata request).map
        fun (_, torrents, _) => { s.setInMessages worker messages with torrents }
    | [] => none
  | .handleControlMessage worker =>
    match s.controlMessages worker with
    | (_, message) :: messages =>
      (handleConnectionClosed s.torrents message).map
        fun torrents => { s.setControlMessages worker messages with torrents }
    | [] => none
  | .clean accessList now =>
    (s.torrents.clean config accessList now).map fun torrents => { s with torrents }

variable {config : Config} {me : Nat}

/-- What becomes of an open connection that has read `request`. -/
inductive Read (config : Config) (me : Nat) (ipVersion : IpVersion)
    (announced : IndexMap InfoHash PeerId) (request : AnnounceRequest) : ConnectionState → Prop where
  | refused : Read config me ipVersion announced request (.open ipVersion announced none)
  | mismatched : Read config me ipVersion announced request
      (.closing (connectionClosed config me ipVersion announced))
  | stopped {announced' : IndexMap InfoHash PeerId} (hstatus : request.status = .stopped)
      (hget : ∀ h, announced'.get h = if h = request.infoHash then none else announced.get h)
      (hsame : ∀ k, announced.get request.infoHash = some k → k = request.peerId) :
      Read config me ipVersion announced request (.open ipVersion announced' (some request))
  | forwarded {announced' : IndexMap InfoHash PeerId} (hstatus : request.status ≠ .stopped)
      (hget : ∀ h, announced'.get h =
        if h = request.infoHash then some request.peerId else announced.get h)
      (hsame : ∀ k, announced.get request.infoHash = some k → k = request.peerId) :
      Read config me ipVersion announced request (.open ipVersion announced' (some request))

theorem status_eq_stopped_iff (request : AnnounceRequest) :
    request.status = .stopped ↔ request.event = some .stopped := by
  unfold AnnounceRequest.status peerStatus
  cases request.event with
  | none =>
    simp only [Option.getD_none, reduceCtorEq, if_false, iff_false]
    split <;> exact nofun
  | some event =>
    simp only [Option.getD_some, Option.some.injEq]
    by_cases he : event = .stopped
    · simp [he]
    · simp only [he, if_false, iff_false]
      split <;> exact nofun

theorem read_readAnnounce (config : Config) (me : Nat) (ipVersion : IpVersion)
    (announced : IndexMap InfoHash PeerId) (request : AnnounceRequest) (accessList : AccessList)
    (blocked : Bool) :
    Read config me ipVersion announced request
      (readAnnounce config me ipVersion announced request accessList blocked) := by
  unfold readAnnounce
  split
  · exact .refused
  split
  · exact .refused
  split
  · rename_i peerId hget
    by_cases hne : peerId = request.peerId
    · have hsame : ∀ k, announced.get request.infoHash = some k → k = request.peerId := by
        intro k hk
        rw [hget] at hk
        cases hk
        exact hne
      rw [if_neg (not_not.mpr hne)]
      split
      · rename_i hevent
        refine .stopped ((status_eq_stopped_iff request).mpr hevent) ?_ hsame
        intro h
        rw [IndexMap.get_swapRemove]
      · rename_i hevent
        refine .forwarded (mt (status_eq_stopped_iff request).mp hevent) ?_ hsame
        intro h
        split
        · rename_i hh
          rw [hh, hget, hne]
        · rfl
    · rw [if_pos hne]
      exact .mismatched
  · rename_i hget
    have hsame : ∀ k, announced.get request.infoHash = some k → k = request.peerId := by
      intro k hk
      rw [hget] at hk
      cases hk
    simp only
    split
    · rename_i hevent
      refine .stopped ((status_eq_stopped_iff request).mpr hevent) ?_ hsame
      intro h
      rw [IndexMap.get_swapRemove, IndexMap.get_insert]
      split <;> rfl
    · rename_i hevent
      refine .forwarded (mt (status_eq_stopped_iff request).mp hevent) ?_ hsame
      intro h
      rw [IndexMap.get_insert]

theorem handleConnectionClosed_spec {torrents : TorrentMaps} (h : torrents.Counted)
    (message : SwarmControlMessage) :
    ∃ torrents', handleConnectionClosed torrents message = some torrents' ∧ torrents'.Counted ∧
      ∀ ip h k, torrents'.peer ip h k =
        if ip = message.ipVersion ∧ (h, k) ∈ message.announcedInfoHashes then none
        else torrents.peer ip h k := by
  obtain ⟨ipVersion, announced⟩ := message
  unfold handleConnectionClosed
  simp only
  induction announced generalizing torrents with
  | nil => exact ⟨torrents, rfl, h, by simp⟩
  | cons e announced ih =>
    obtain ⟨torrents₁, hclose, hcounted₁, hpeer₁⟩ :=
      TorrentMaps.handleConnectionClosed_spec h e.1 e.2 ipVersion
    obtain ⟨torrents₂, hrest, hcounted₂, hpeer₂⟩ := ih hcounted₁
    refine ⟨torrents₂, ?_, hcounted₂, ?_⟩
    · rw [List.foldlM_cons, hclose]
      exact hrest
    · intro ip infoHash k
      rw [hpeer₂, hpeer₁]
      by_cases hip : ip = ipVersion
      · by_cases he : (infoHash, k) = e
        · subst he
          simp [hip]
        · have hne : ¬ (infoHash = e.1 ∧ k = e.2) := fun hk => he (Prod.ext hk.1 hk.2)
          simp [hip, he, hne]
      · simp [hip]

/-- One constructor for each thing that can happen. -/
inductive Stepped (config : Config) (me : Nat) (s : Network) : Action → Network → Prop where
  | opened {c : Connection} {ip : IpVersion} (hc : s.connections c = .unopened) :
      Stepped config me s (.open c ip) (s.setConnection c (.open ip IndexMap.empty none))
  | read {c : Connection} {request : AnnounceRequest} {accessList : AccessList} {blocked : Bool}
      {ip : IpVersion} {announced : IndexMap InfoHash PeerId} {state : ConnectionState}
      (hc : s.connections c = .open ip announced none)
      (hread : Read config me ip announced request state) :
      Stepped config me s (.announce c request accessList blocked) (s.setConnection c state)
  | sent {c : Connection} {ip : IpVersion} {announced : IndexMap InfoHash PeerId}
      {request : AnnounceRequest} (hc : s.connections c = .open ip announced (some request))
      (hme : calculateInMessageConsumerIndex config request.infoHash = me) :
      Stepped config me s (.send c)
        ((s.setConnection c (.open ip announced none)).setInMessages c.consumerId
          (s.inMessages c.consumerId ++ [(metaOf c ip, request)]))
  | sentElsewhere {c : Connection} {ip : IpVersion} {announced : IndexMap InfoHash PeerId}
      {request : AnnounceRequest} (hc : s.connections c = .open ip announced (some request))
      (hme : calculateInMessageConsumerIndex config request.infoHash ≠ me) :
      Stepped config me s (.send c) (s.setConnection c (.open ip announced none))
  | closed {c : Connection} {ip : IpVersion} {announced : IndexMap InfoHash PeerId}
      {pending : Option AnnounceRequest} (hc : s.connections c = .open ip announced pending) :
      Stepped config me s (.close c)
        (s.setConnection c (.closing (connectionClosed config me ip announced)))
  | closedSent {c : Connection} {message : SwarmControlMessage}
      (hc : s.connections c = .closing message) :
      Stepped config me s (.sendClosed c)
        ((s.setConnection c .closed).setControlMessages c.consumerId
          (s.controlMessages c.consumerId ++ [(c, message)]))
  | closedSilently {c : Connection} {message : SwarmControlMessage}
      (hc : s.connections c = .closing message) (hnil : message.announcedInfoHashes = []) :
      Stepped config me s (.sendClosed c) (s.setConnection c .closed)
  | inMessage {worker : ConsumerId} {rng : Rng} {now : SecondsSinceServerStart}
      {metadata : InMessageMeta} {request : AnnounceRequest}
      {messages : List (InMessageMeta × AnnounceRequest)} {a : Announced} {torrents : TorrentMaps}
      (hqueue : s.inMessages worker = (metadata, request) :: messages)
      (hframe : ∀ ipVersion, ipVersion ≠ metadata.ipVersion →
        torrents.torrentMap ipVersion = s.torrents.torrentMap ipVersion)
      (hhandled : TorrentMap.Handled config now metadata request
        (s.torrents.torrentMap metadata.ipVersion) (torrents.torrentMap metadata.ipVersion) a) :
      Stepped config me s (.handleInMessage worker rng now)
        { s.setInMessages worker messages with torrents }
  | controlMessage {worker : ConsumerId} {c : Connection} {message : SwarmControlMessage}
      {messages : List (Connection × SwarmControlMessage)} {torrents : TorrentMaps}
      (hqueue : s.controlMessages worker = (c, message) :: messages)
      (hpeer : ∀ ip h k, torrents.peer ip h k =
        if ip = message.ipVersion ∧ (h, k) ∈ message.announcedInfoHashes then none
        else s.torrents.peer ip h k) :
      Stepped config me s (.handleControlMessage worker)
        { s.setControlMessages worker messages with torrents }
  | cleaned {accessList : AccessList} {now : SecondsSinceServerStart} {torrents : TorrentMaps}
      (hpeer : ∀ ip h k, torrents.peer ip h k =
        if accessList.allows config.accessListMode h
        then (s.torrents.peer ip h k).bind (TorrentData.cleanedPeer now) else none) :
      Stepped config me s (.clean accessList now) { s with torrents }

theorem stepped_of_step {s s' : Network} {act : Action} (hs : s.torrents.Counted)
    (h : step config me s act = some s') :
    Stepped config me s act s' ∧ s'.torrents.Counted := by
  cases act with
  | «open» c ip =>
    simp only [step] at h
    split at h
    · rename_i hc
      cases h
      exact ⟨.opened hc, hs⟩
    · cases h
  | announce c request accessList blocked =>
    simp only [step] at h
    split at h
    · rename_i hc
      cases h
      exact ⟨.read hc (read_readAnnounce config me _ _ request accessList blocked), hs⟩
    · cases h
  | send c =>
    simp only [step] at h
    split at h
    · rename_i hc
      split at h
      · rename_i hme
        cases h
        exact ⟨.sent hc hme, hs⟩
      · rename_i hme
        cases h
        exact ⟨.sentElsewhere hc hme, hs⟩
    · cases h
  | close c =>
    simp only [step] at h
    split at h
    · rename_i hc
      cases h
      exact ⟨.closed hc, hs⟩
    · cases h
  | sendClosed c =>
    simp only [step] at h
    split at h
    · rename_i hc
      split at h
      · rename_i hnil
        cases h
        exact ⟨.closedSilently hc hnil, hs⟩
      · cases h
        exact ⟨.closedSent hc, hs⟩
    · cases h
  | handleInMessage worker rng now =>
    simp only [step] at h
    split at h
    · rename_i metadata request messages hqueue
      obtain ⟨a, torrents, rng', ha, hcounted, hframe, hhandled⟩ :=
        TorrentMaps.handleAnnounceRequest_spec hs config rng now metadata request
      rw [ha] at h
      cases h
      exact ⟨.inMessage hqueue hframe hhandled, hcounted⟩
    · cases h
  | handleControlMessage worker =>
    simp only [step] at h
    split at h
    · rename_i c message messages hqueue
      obtain ⟨torrents, htorrents, hcounted, hpeer⟩ := handleConnectionClosed_spec hs message
      rw [htorrents] at h
      cases h
      exact ⟨.controlMessage hqueue hpeer, hcounted⟩
    · cases h
  | clean accessList now =>
    obtain ⟨torrents, htorrents, hcounted, hpeer⟩ :=
      TorrentMaps.clean_spec hs config accessList now
    simp only [step, htorrents, Option.map_some, Option.some.injEq] at h
    subst h
    exact ⟨.cleaned hpeer, hcounted⟩

theorem mem_of_popped {T : Type} {queues : ConsumerId → List T} {worker w : ConsumerId} {x y : T}
    {xs : List T} (hqueue : queues worker = x :: xs)
    (hy : y ∈ if w = worker then xs else queues w) : y ∈ queues w := by
  split at hy
  · rename_i hw
    rw [hw, hqueue]
    exact List.mem_cons_of_mem _ hy
  · exact hy

theorem mem_of_pushed {T : Type} {queues : ConsumerId → List T} {worker w : ConsumerId} {x y : T}
    (hy : y ∈ if w = worker then queues worker ++ [x] else queues w) :
    y ∈ queues w ∨ y = x ∧ w = worker := by
  split at hy
  · rename_i hw
    rw [hw]
    rcases List.mem_append.mp hy with hold | hnew
    · exact .inl hold
    · exact .inr ⟨List.mem_singleton.mp hnew, rfl⟩
  · exact .inl hy

theorem mem_pushed {T : Type} {queues : ConsumerId → List T} {worker w : ConsumerId} (x : T)
    {y : T} (hy : y ∈ queues w) : y ∈ if w = worker then queues worker ++ [x] else queues w := by
  split
  · rename_i hw
    rw [← hw]
    exact List.mem_append_left _ hy
  · exact hy

/-- Where the entries come from when a message has been handled: they were there,
or the message's connection has announced them. -/
theorem origin_of_inMessage {metadata : InMessageMeta} {request : AnnounceRequest} {a : Announced}
    {now : SecondsSinceServerStart} {before after : TorrentMaps}
    (hframe : ∀ ipVersion, ipVersion ≠ metadata.ipVersion →
      after.torrentMap ipVersion = before.torrentMap ipVersion)
    (hhandled : TorrentMap.Handled config now metadata request
      (before.torrentMap metadata.ipVersion) (after.torrentMap metadata.ipVersion) a)
    {ip : IpVersion} {h : InfoHash} {k : PeerId} {p : Peer} (hp : after.peer ip h k = some p) :
    (∃ q, before.peer ip h k = some q ∧ p.connection = q.connection) ∨
      (ip = metadata.ipVersion ∧ h = request.infoHash ∧ k = request.peerId ∧
        request.status ≠ .stopped ∧ p.connection = metadata.connection) := by
  unfold TorrentMaps.peer at hp ⊢
  by_cases hip : ip = metadata.ipVersion
  · subst hip
    cases hhandled with
    | ignored _ _ _ same _ => exact .inl ⟨p, same ▸ hp, rfl⟩
    | accepted _ hothers haccepted =>
      by_cases hh : h = request.infoHash
      · subst hh
        rw [haccepted.peers'] at hp
        rcases TorrentData.origin_of_announcedPeers hp with hold | ⟨hk, hs, -, hc⟩
        · exact .inl hold
        · exact .inr ⟨rfl, rfl, hk, hs, hc⟩
      · rw [hothers h hh] at hp
        exact .inl ⟨p, hp, rfl⟩
  · rw [hframe ip hip] at hp
    exact .inl ⟨p, hp, rfl⟩

theorem origin_of_clean {accessList : AccessList} {now : SecondsSinceServerStart}
    {before after : TorrentMaps}
    (hpeer : ∀ ip h k, after.peer ip h k =
      if accessList.allows config.accessListMode h
      then (before.peer ip h k).bind (TorrentData.cleanedPeer now) else none)
    {ip : IpVersion} {h : InfoHash} {k : PeerId} {p : Peer} (hp : after.peer ip h k = some p) :
    ∃ q, before.peer ip h k = some q ∧ p.connection = q.connection := by
  rw [hpeer] at hp
  split at hp
  · obtain ⟨q, hq, hclean⟩ := Option.bind_eq_some_iff.mp hp
    obtain ⟨-, rfl⟩ := TorrentData.cleanedPeer_eq_some_iff.mp hclean
    exact ⟨q, hq, rfl⟩
  · cases hp

end Network

end Aquatic.Ws
