import Aquatic.Lib.Transition
import Aquatic.Ws.TorrentMapsSpec

/-!
# Who may announce for a peer

A connection is a socket worker and a key of that worker's slot map. An announce
is checked against the key alone, so an entry is safe from other connections
exactly as long as none of them has its key.
-/

namespace Aquatic.Ws
open Collections Transition
set_option autoImplicit false

/-- How the keys of a slot map come and go. -/
structure SlotMap where
  State : Type
  new : State
  insert : State → ConnectionId × State
  remove : State → ConnectionId → State

/-- Socket workers with a slot map each, and one swarm worker. -/
structure Sockets (slots : SlotMap) where
  slotMaps : ConsumerId → slots.State
  opened : List Connection
  torrents : TorrentMaps

namespace Sockets
variable {slots : SlotMap}

inductive Action where
  | open (worker : ConsumerId)
  | close (connection : Connection)
  | announce (rng : Rng) (now : SecondsSinceServerStart) (metadata : InMessageMeta)
      (request : AnnounceRequest)
  | connectionClosed (infoHash : InfoHash) (peerId : PeerId) (ipVersion : IpVersion)
  | clean (accessList : AccessList) (now : SecondsSinceServerStart)

def init : Sockets slots := ⟨fun _ => slots.new, [], TorrentMaps.empty⟩

def setSlotMap (s : Sockets slots) (worker : ConsumerId) (state : slots.State) : Sockets slots :=
  { s with slotMaps := fun w => if w = worker then state else s.slotMaps w }

def step (config : Config) (s : Sockets slots) : Action → Option (Sockets slots)
  | .open worker =>
    let (connectionId, state) := slots.insert (s.slotMaps worker)
    some { s.setSlotMap worker state with opened := ⟨worker, connectionId⟩ :: s.opened }
  | .close connection =>
    if connection ∈ s.opened then
      some (s.setSlotMap connection.consumerId
        (slots.remove (s.slotMaps connection.consumerId) connection.connectionId))
    else none
  | .announce rng now metadata request =>
    if metadata.connection ∈ s.opened then
      (s.torrents.handleAnnounceRequest config rng now metadata request).map
        fun (_, torrents, _) => { s with torrents }
    else none
  | .connectionClosed infoHash peerId ipVersion =>
    (s.torrents.handleConnectionClosed infoHash peerId ipVersion).map
      fun torrents => { s with torrents }
  | .clean accessList now =>
    (s.torrents.clean config accessList now).map fun torrents => { s with torrents }

end Sockets

/-- An announce that touches and speaks for nothing but its own connection's peer. -/
structure OwnPeerOnly (metadata : InMessageMeta) (request : AnnounceRequest)
    (torrents torrents' : TorrentMaps) (a : Announced) : Prop where
  others : ∀ ipVersion infoHash k p, torrents.peer ipVersion infoHash k = some p →
    p.connection ≠ metadata.connection →
    ∃ p', torrents'.peer ipVersion infoHash k = some p' ∧ p.SameEntry p'
  offers : ∀ m b, (m, OutMessage.offer b) ∈ a.outMessages →
    ∃ p, torrents'.peer metadata.ipVersion b.infoHash b.peerId = some p ∧
      p.connection = metadata.connection
  foreign : ∀ p, torrents.peer metadata.ipVersion request.infoHash request.peerId = some p →
    p.connection ≠ metadata.connection → torrents' = torrents ∧ a.outMessages = []

/-- No other worker's connection with the sender's key has registered the peer id. -/
def KeyIsUnambiguous (metadata : InMessageMeta) (request : AnnounceRequest)
    (torrents : TorrentMaps) : Prop :=
  ∀ p, torrents.peer metadata.ipVersion request.infoHash request.peerId = some p →
    p.connectionId = metadata.connectionId → p.consumerId = metadata.outMessageConsumerId

section Announce
variable {config : Config} {now : SecondsSinceServerStart} {metadata : InMessageMeta}
variable {request : AnnounceRequest} {torrents torrents' : TorrentMaps} {a : Announced}
variable (hframe : ∀ ipVersion, ipVersion ≠ metadata.ipVersion →
  torrents'.torrentMap ipVersion = torrents.torrentMap ipVersion)
include hframe

theorem others_of_accepted
    (hothers : ∀ h, h ≠ request.infoHash → (torrents'.torrentMap metadata.ipVersion).peer h =
      (torrents.torrentMap metadata.ipVersion).peer h)
    (haccepted : TorrentData.Accepted config now metadata request
      ((torrents.torrentMap metadata.ipVersion).peer request.infoHash)
      ((torrents'.torrentMap metadata.ipVersion).peer request.infoHash) a)
    {ipVersion : IpVersion} {infoHash : InfoHash} {k : PeerId}
    (hk : ¬ (ipVersion = metadata.ipVersion ∧ infoHash = request.infoHash ∧ k = request.peerId))
    {p : Peer} (hp : torrents.peer ipVersion infoHash k = some p) :
    ∃ p', torrents'.peer ipVersion infoHash k = some p' ∧ p.SameEntry p' := by
  unfold TorrentMaps.peer at hp ⊢
  by_cases hip : ipVersion = metadata.ipVersion
  · subst hip
    by_cases hh : infoHash = request.infoHash
    · subst hh
      rw [haccepted.peers' k]
      exact TorrentData.announcedPeers_other (fun hk' => hk ⟨rfl, rfl, hk'⟩) hp
    · rw [hothers infoHash hh]
      exact ⟨p, hp, Peer.SameEntry.refl p⟩
  · rw [hframe ipVersion hip]
    exact ⟨p, hp, Peer.SameEntry.refl p⟩

/-- One announce: the key is all that stands between a peer and other connections. -/
theorem ownPeerOnly_iff
    (h : TorrentMap.Handled config now metadata request (torrents.torrentMap metadata.ipVersion)
      (torrents'.torrentMap metadata.ipVersion) a) :
    OwnPeerOnly metadata request torrents torrents' a ↔
      KeyIsUnambiguous metadata request torrents := by
  have hconnection : ∀ p : Peer, p.connection = metadata.connection ↔
      p.connectionId = metadata.connectionId ∧
        p.consumerId = metadata.outMessageConsumerId := by
    intro p
    simp only [Peer.connection, InMessageMeta.connection, Connection.mk.injEq]
    exact and_comm
  constructor
  · intro hown p hp hkey
    by_contra hworker
    have hne : p.connection ≠ metadata.connection := fun heq =>
      hworker ((hconnection p).mp heq).2
    have hsilent := (hown.foreign p hp hne).2
    cases h with
    | ignored q hq hne' _ _ =>
      have heq : some p = some q := hp.symm.trans hq
      cases heq
      exact hne' hkey
    | accepted _ _ haccepted =>
      obtain ⟨answerMessage, response, hmessages, -⟩ := haccepted.messages
      simp [hmessages] at hsilent
  · intro hkey
    cases h with
    | ignored q hq hne same silent =>
      have htorrents : torrents' = torrents := TorrentMaps.eq_of_frame hframe same
      subst htorrents
      subst silent
      exact ⟨fun _ _ _ p hp _ => ⟨p, hp, Peer.SameEntry.refl p⟩, nofun, fun _ _ _ => ⟨rfl, rfl⟩⟩
    | accepted own hothers haccepted =>
      have howner : ∀ p, torrents.peer metadata.ipVersion request.infoHash request.peerId = some p →
          p.connection = metadata.connection := fun p hp =>
        (hconnection p).mpr ⟨own p hp, hkey p hp (own p hp)⟩
      refine ⟨?_, ?_, ?_⟩
      · intro ipVersion infoHash k p hp hne
        refine others_of_accepted hframe hothers haccepted ?_ hp
        rintro ⟨rfl, rfl, rfl⟩
        exact hne (howner p hp)
      · intro m b hb
        obtain ⟨answerMessage, response, hmessages, hnooffer, -⟩ := haccepted.messages
        rw [hmessages] at hb
        simp only [List.mem_append, List.mem_map, Option.mem_toList, List.mem_singleton] at hb
        rcases hb with (⟨f, hf, heq⟩ | hb) | hb
        · simp only [TorrentData.offerOutMessage, Prod.mk.injEq, OutMessage.offer.injEq] at heq
          obtain ⟨-, rfl⟩ := heq
          have hs : request.status ≠ .stopped := by
            intro hs
            rw [haccepted.stopped hs] at hf
            cases hf
          obtain ⟨p', hp', hcreator, -⟩ := @TorrentData.announcedPeers_sender config now metadata
            request ((torrents.torrentMap metadata.ipVersion).peer request.infoHash) a.forwarded hs
          refine ⟨p', (haccepted.peers' _).trans hp', ?_⟩
          rw [hcreator]
          cases hp : (torrents.torrentMap metadata.ipVersion).peer request.infoHash
              request.peerId with
          | none => rfl
          | some p => exact howner p hp
        · exact absurd hb (hnooffer m b)
        · cases hb
      · intro p hp hne
        exact absurd (howner p hp) hne

end Announce

namespace Sockets
variable {slots : SlotMap}

theorem step_announce {config : Config} {s s' : Sockets slots} {rng : Rng}
    {now : SecondsSinceServerStart} {metadata : InMessageMeta} {request : AnnounceRequest}
    (h : step config s (.announce rng now metadata request) = some s') :
    ∃ a rng', s.torrents.handleAnnounceRequest config rng now metadata request =
      some (a, s'.torrents, rng') := by
  simp only [step] at h
  split at h
  · obtain ⟨⟨a, torrents, rng'⟩, ha, hs'⟩ := Option.map_eq_some_iff.mp h
    subst hs'
    exact ⟨a, rng', ha⟩
  · cases h

theorem step_counted {config : Config} {s s' : Sockets slots} {act : Action}
    (hs : s.torrents.Counted) (h : step config s act = some s') : s'.torrents.Counted := by
  cases act with
  | «open» worker =>
    cases h
    exact hs
  | close connection =>
    simp only [step] at h
    split at h
    · cases h
      exact hs
    · cases h
  | announce rng now metadata request =>
    obtain ⟨a, rng', ha⟩ := step_announce h
    obtain ⟨a', m', rng'', ha', hcounted, -⟩ :=
      TorrentMaps.handleAnnounceRequest_spec hs config rng now metadata request
    rw [ha] at ha'
    cases ha'
    exact hcounted
  | connectionClosed infoHash peerId ipVersion =>
    obtain ⟨m', hm', hs'⟩ := Option.map_eq_some_iff.mp h
    obtain ⟨m'', hm'', hcounted, -⟩ :=
      TorrentMaps.handleConnectionClosed_spec hs infoHash peerId ipVersion
    rw [hm'] at hm''
    cases hm''
    exact hs' ▸ hcounted
  | clean accessList now =>
    obtain ⟨m', hm', hs'⟩ := Option.map_eq_some_iff.mp h
    obtain ⟨m'', hm'', hcounted, -⟩ := TorrentMaps.clean_spec hs config accessList now
    rw [hm'] at hm''
    cases hm''
    exact hs' ▸ hcounted

/-- The announces of a run leave other connections' peers alone. -/
def AnnounceOwnOnly (config : Config) (s : Sockets slots) (act : Action) (s' : Sockets slots) :
    Prop :=
  match act with
  | .announce rng now metadata request => ∀ a rng',
    s.torrents.handleAnnounceRequest config rng now metadata request =
      some (a, s'.torrents, rng') →
    OwnPeerOnly metadata request s.torrents s'.torrents a
  | _ => True

def AnnounceUnambiguous (s : Sockets slots) (act : Action) (_ : Sockets slots) : Prop :=
  match act with
  | .announce _ _ metadata request => KeyIsUnambiguous metadata request s.torrents
  | _ => True

theorem announceOwnOnly_iff {config : Config} {s s' : Sockets slots} {act : Action}
    (hs : s.torrents.Counted) (h : step config s act = some s') :
    AnnounceOwnOnly config s act s' ↔ AnnounceUnambiguous s act s' := by
  cases act with
  | announce rng now metadata request =>
    obtain ⟨a, rng', ha⟩ := step_announce h
    obtain ⟨a', m', rng'', ha', -, hframe, hhandled⟩ :=
      TorrentMaps.handleAnnounceRequest_spec hs config rng now metadata request
    rw [ha] at ha'
    cases ha'
    have hiff := ownPeerOnly_iff hframe hhandled
    constructor
    · exact fun hown => hiff.mp (hown a rng' ha)
    · intro hkey b rng₂ hb
      rw [ha] at hb
      cases hb
      exact hiff.mpr hkey
  | _ => exact Iff.rfl

/-- In every run, whatever slot maps hand out: announces leave other connections'
peers alone if and only if no announce meets another connection with its key. -/
theorem announces_own_only_iff (slots : SlotMap) (config : Config) (as : List Action) :
    AllSteps (step config) (AnnounceOwnOnly config) (init : Sockets slots) as ↔
      AllSteps (step config) AnnounceUnambiguous (init : Sockets slots) as :=
  allSteps_congr step_counted announceOwnOnly_iff TorrentMaps.counted_empty as

end Sockets

/-- A fresh slot map hands out the keys 1, 2, 3, … in their first version. -/
def countingSlotMap : SlotMap where
  State := UInt32
  new := 0
  insert := fun n => (⟨n + 1, 1⟩, n + 1)
  remove := fun n _ => n

def exampleConfig : Config where
  swarmWorkers := 1
  protocol := ⟨10, 120⟩
  cleaning := ⟨180, 120⟩
  accessListMode := .off

def exampleRequest (event : AnnounceEvent) : AnnounceRequest where
  infoHash := ⟨Vector.replicate 20 7⟩
  peerId := ⟨Vector.replicate 20 1⟩
  bytesLeft := some 1
  event := some event
  offers := none
  answer := none
  answerToPeerId := none
  answerOfferId := none

def exampleMeta (worker : UInt8) (idx : UInt32) : InMessageMeta where
  outMessageConsumerId := ⟨worker⟩
  connectionId := ⟨idx, 1⟩
  ipVersion := .v4
  pendingScrapeId := none

/-- A peer announces itself; another worker's first connection stops it. -/
def takeoverRun : List Sockets.Action :=
  [.open ⟨0⟩, .open ⟨1⟩, .announce ⟨fun _ => 0⟩ 0 (exampleMeta 0 1) (exampleRequest .started)]

theorem takeover : ¬ AllSteps (Sockets.step exampleConfig) (Sockets.AnnounceOwnOnly exampleConfig)
    (Sockets.init : Sockets countingSlotMap)
    (takeoverRun ++ [.announce ⟨fun _ => 0⟩ 1 (exampleMeta 1 1) (exampleRequest .stopped)]) := by
  intro h
  obtain ⟨s, s', hs, hs', hbefore, hafter⟩ : ∃ s s', run (Sockets.step exampleConfig)
      (Sockets.init : Sockets countingSlotMap) takeoverRun = some s ∧
      Sockets.step exampleConfig s (.announce ⟨fun _ => 0⟩ 1 (exampleMeta 1 1)
        (exampleRequest .stopped)) = some s' ∧
      ((s.torrents.peer .v4 (exampleRequest .started).infoHash
        (exampleRequest .started).peerId).map Peer.connection) = some ⟨⟨0⟩, ⟨1, 1⟩⟩ ∧
      s'.torrents.peer .v4 (exampleRequest .started).infoHash
        (exampleRequest .started).peerId = none := by
    exact ⟨_, _, rfl, rfl, by decide, by decide⟩
  obtain ⟨p, hp, hcreator⟩ := Option.map_eq_some_iff.mp hbefore
  obtain ⟨a, rng', ha⟩ := Sockets.step_announce hs'
  obtain ⟨p', hp', -⟩ := (h.last hs hs' a rng' ha).others .v4 _ _ p hp
    (by rw [hcreator]; decide)
  rw [hafter] at hp'
  cases hp'

end Aquatic.Ws
