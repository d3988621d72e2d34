import Aquatic.Lib.Tally
import Aquatic.Udp.PeerClients
import Aquatic.Udp.ShardsSpec

/-!
# Peer clients are counted as they come and go

The messages about a peer id balance the registered peers with that id for as long
as no registered peer changes its id, no torrent is forbidden while it has peers,
and no announce is lost.
-/

namespace Aquatic.Udp
open Collections Transition
set_option autoImplicit false

def added (peerId : PeerId) (messages : List StatisticsMessage) : Nat :=
  messages.count (.peerAdded peerId)

def removed (peerId : PeerId) (messages : List StatisticsMessage) : Nat :=
  messages.count (.peerRemoved peerId)

@[simp] theorem added_nil (peerId : PeerId) : added peerId [] = 0 := rfl

@[simp] theorem removed_nil (peerId : PeerId) : removed peerId [] = 0 := rfl

theorem added_append (peerId : PeerId) (messages messages' : List StatisticsMessage) :
    added peerId (messages ++ messages') = added peerId messages + added peerId messages' :=
  List.count_append

theorem removed_append (peerId : PeerId) (messages messages' : List StatisticsMessage) :
    removed peerId (messages ++ messages') = removed peerId messages + removed peerId messages' :=
  List.count_append

theorem added_single (peerId peerId' : PeerId) :
    added peerId [.peerAdded peerId'] = if peerId' = peerId then 1 else 0 := by
  simp [added, List.count_singleton]

theorem removed_single (peerId peerId' : PeerId) :
    removed peerId [.peerRemoved peerId'] = if peerId' = peerId then 1 else 0 := by
  simp [removed, List.count_singleton]

variable {I : Type} [DecidableEq I] {config : Config}

theorem messages_announce {m : PeerMap I} {t : Torrent I} (h : m.Refines t) {rng rng' : Rng}
    {request : AnnounceRequest} {ipAddress : I} {validUntil : ValidUntil}
    {response : AnnounceResponse I} {messages : List StatisticsMessage} {m' : PeerMap I}
    (hannounce : PeerMap.announce config m rng request ipAddress validUntil =
      some (response, messages, m', rng')) :
    messages = announceStatistics config request (m.get ⟨ipAddress, request.port⟩) := by
  obtain ⟨r, m'', rng'', hr, hanswered, -⟩ := Swarm.PeerMap.announce_refines h rng request.status
    request.isCompleted ⟨ipAddress, request.port⟩ (request.peer validUntil)
    (maxNumPeersToTake config request)
  unfold PeerMap.announce at hannounce
  simp only [hr, Option.bind_eq_bind, Option.bind_some, Option.pure_def, Option.some.injEq,
    Prod.mk.injEq] at hannounce
  rw [← hannounce.2.1, hanswered.removed, h.peers]

omit [DecidableEq I] in
/-- The peers that a cleaning drops, by their id. -/
theorem messages_clean (hclients : config.statistics.peerClients = true) {m : PeerMap I}
    {now : SecondsSinceServerStart} {numPeers : Nat} {messages : List StatisticsMessage}
    {m' : PeerMap I} (hclean : PeerMap.clean config m now = some (numPeers, messages, m'))
    (peerId : PeerId) :
    added peerId messages = 0 ∧ removed peerId messages =
      m.entries.countP fun e => !e.2.validUntil.valid now && e.2.peerId == peerId := by
  have hmessages : messages = (m.entries.filter fun e => !e.2.validUntil.valid now).map
      fun e => .peerRemoved e.2.peerId := by
    obtain ⟨⟨n, m₁⟩, -, h⟩ := Option.bind_eq_some_iff.mp hclean
    simp only [hclients, if_true] at h
    cases m₁ <;> cases h <;> rfl
  rw [hmessages]
  constructor
  · apply List.count_eq_zero.mpr
    intro hmem
    obtain ⟨e, -, he⟩ := List.mem_map.mp hmem
    cases he
  · unfold removed
    rw [List.count, List.countP_map, List.countP_filter]
    apply List.countP_congr
    intro e _
    simp [and_comm]

namespace TorrentMapShards
variable {s s' : TorrentMapShards I}

/-- The peers of all torrents that are looked up. -/
def registry (s : TorrentMapShards I) (x : InfoHash × ResponsePeer I) : Option Peer :=
  (s.get x.1).bind fun arc => (s.torrentData arc).peerMap.get x.2

/-- How many registered peers have an id. -/
noncomputable def registered (s : TorrentMapShards I) (peerId : PeerId) : Nat :=
  Tally.count s.registry fun peer => peer.peerId == peerId

/-- The step tells all that it does to the registered peers: an announce of a
registered peer comes with the id that it is registered with, an announce that has
missed its torrent is a stop, and a torrent that is forbidden has no peers when it
is dropped. -/
def Accounted (config : Config) (s : TorrentMapShards I) : Action I → Prop
  | .announce worker _ => ∀ flight, s.inFlight worker = some flight →
    if s.get flight.request.infoHash = some flight.torrentData then
      ∀ peer, s.registry (flight.request.infoHash, flight.key) = some peer →
        peer.peerId = flight.request.peerId
    else flight.request.status = .stopped
  | .retain infoHash => s.accessList.allows config.accessListMode infoHash = false →
    ∀ arc, s.get infoHash = some arc → (s.torrentData arc).peerMap.isEmpty
  | _ => True

/-- The step tells as many arrivals and departures of an id as there are. -/
def Told (config : Config) (s : TorrentMapShards I) (act : Action I) (s' : TorrentMapShards I) :
    Prop :=
  ∀ peerId, s'.registered peerId +
      removed peerId (s.announceMessages config act ++ s.cleaningMessages config act) =
    s.registered peerId +
      added peerId (s.announceMessages config act ++ s.cleaningMessages config act)

end TorrentMapShards

/-- What is still to be visited of a shard. -/
def Cleaner.remaining : Cleaner → List Arc
  | .cleaning _ _ remaining => remaining
  | .cleaned _ _ remaining _ _ => remaining
  | _ => []

namespace TorrentMapShards
variable {s s' : TorrentMapShards I}

/-- `missed`: an announce that has lost its torrent on the way finds no peers. -/
structure Followed (s : TorrentMapShards I) : Prop where
  apart : Apart s
  finite : (Tally.support s.registry).Finite
  placed : ∀ {i h arc}, (s.shards i).get h = some arc → shardIndex h = i
  visited : ∀ arc ∈ s.cleaner.remaining, ∃ h, s.get h = some arc
  missed : ∀ {worker flight}, s.inFlight worker = some flight →
    s.get flight.request.infoHash = some flight.torrentData ∨
      (s.torrentData flight.torrentData).peerMap.isEmpty

theorem followed_init : Followed (init : TorrentMapShards I) where
  apart := apart_init
  finite := by
    have hempty : (init : TorrentMapShards I).registry = fun _ => none := rfl
    rw [hempty]
    exact Set.finite_empty.subset fun _ h => h rfl
  placed := nofun
  visited := nofun
  missed := nofun

theorem registered_init (peerId : PeerId) :
    (init : TorrentMapShards I).registered peerId = 0 := Tally.count_empty _

theorem registry_eq {h : InfoHash} {arc : Arc} (hget : s.get h = some arc) (k : ResponsePeer I) :
    s.registry (h, k) = (s.torrentData arc).peerMap.get k := by
  simp [registry, hget]

theorem told_of_registry_eq {act : Action I} (hregistry : s'.registry = s.registry)
    (hannounce : s.announceMessages config act = [])
    (hclean : s.cleaningMessages config act = []) : Told config s act s' := by
  intro peerId
  rw [hannounce, hclean, registered, registered, hregistry]
  rfl

theorem registry_insertNew (hs : Apart s) {h : InfoHash} (hget : s.get h = none) :
    (s.insertNew h).registry = s.registry := by
  funext x
  unfold registry
  rw [get_insertNew]
  by_cases hx : x.1 = h
  · rw [if_pos hx, hx, hget]
    have hnew : (s.insertNew h).torrentData ⟨s.allocated⟩ = TorrentData.default := if_pos rfl
    simp only [Option.bind_some, hnew]
    rfl
  · rw [if_neg hx]
    cases harc : s.get x.1 with
    | none => rfl
    | some arc =>
      simp only [Option.bind_some]
      rw [Apart.torrentData_insertNew h (hs.allocated harc)]

/-- Everything that was there is still there, and the announce has found its torrent. -/
theorem followed_lookUp (hs : Followed s) {worker : Nat} {request : AnnounceRequest}
    {ipAddress : I} {validUntil : ValidUntil}
    (h : s.lookUp worker request ipAddress validUntil = some s') :
    Followed s' ∧ s'.registry = s.registry := by
  have hapart := hs.apart.lookUp h
  unfold lookUp at h
  split at h
  · cases h
  split at h
  · rename_i arc hget
    cases h
    refine ⟨⟨hapart, hs.finite, hs.placed, hs.visited, ?_⟩, rfl⟩
    intro w f hf
    simp only [setInFlight] at hf
    split at hf
    · cases hf
      exact .inl hget
    · exact hs.missed hf
  · rename_i hget
    split at h
    · cases h
    cases h
    have hregistry := registry_insertNew hs.apart hget
    have hold : ∀ {h' arc}, s.get h' = some arc → (s.insertNew request.infoHash).get h' =
        some arc := by
      intro h' arc harc
      rw [get_insertNew]
      split
      · rename_i hh
        rw [hh, hget] at harc
        cases harc
      · exact harc
    refine ⟨⟨hapart, ?_, ?_, ?_, ?_⟩, hregistry⟩
    · have hfinite := hs.finite
      rw [← hregistry] at hfinite
      exact hfinite
    · intro i h' arc harc
      simp only [setInFlight, insertNew, setTorrentData, setShard] at harc
      split at harc
      · rename_i hi
        rw [IndexMap.get_insert] at harc
        split at harc
        · rename_i hh
          rw [hh, hi]
        · rw [hi]
          exact hs.placed harc
      · exact hs.placed harc
    · intro arc harc
      obtain ⟨h', hh'⟩ := hs.visited arc harc
      exact ⟨h', hold hh'⟩
    · intro w f hf
      simp only [setInFlight] at hf
      split at hf
      · cases hf
        refine .inl ?_
        exact (get_insertNew s request.infoHash request.infoHash).trans (if_pos rfl)
      · rcases hs.missed hf with hfound | hempty
        · exact .inl (hold hfound)
        · refine .inr ?_
          have hdata := Apart.torrentData_insertNew request.infoHash (hs.apart.flightAllocated hf)
          change ((s.insertNew request.infoHash).torrentData f.torrentData).peerMap.isEmpty
          rw [hdata]
          exact hempty

theorem announceMessages_eq (hs : Apart s) {worker : Nat} {rng : Rng} {flight : Flight I}
    (hflight : s.inFlight worker = some flight) {response : AnnounceResponse I}
    (h : s.announce config worker rng = some (response, s')) :
    s.announceMessages config (.announce worker rng) = announceStatistics config flight.request
      ((s.torrentData flight.torrentData).peerMap.get flight.key) := by
  obtain ⟨flight', hflight', h⟩ := Option.bind_eq_some_iff.mp h
  rw [hflight] at hflight'
  cases hflight'
  obtain ⟨⟨response', messages, peerMap, rng'⟩, hannounce, -⟩ := Option.bind_eq_some_iff.mp h
  obtain ⟨t, ht⟩ := hs.refines flight.torrentData
  simp only [announceMessages, hflight]
  simp only [hannounce]
  exact messages_announce ht hannounce

/-- An announce that has not missed its torrent. -/
theorem registry_announce (hs : Apart s) {worker : Nat} {flight : Flight I}
    (hflight : s.inFlight worker = some flight) (ha : Answered config flight s s')
    (hget : s.get flight.request.infoHash = some flight.torrentData) :
    s'.registry = Function.update s.registry (flight.request.infoHash, flight.key)
      (if flight.request.status = .stopped then none
        else some (flight.request.peer flight.validUntil)) := by
  funext ⟨h, k⟩
  by_cases hx : (h, k) = (flight.request.infoHash, flight.key)
  · cases hx
    rw [Function.update_self, registry_eq ((ha.get _).trans hget), ha.announced, if_pos rfl]
  · rw [Function.update_of_ne hx]
    unfold registry
    rw [ha.get]
    cases harc : s.get h with
    | none => rfl
    | some arc =>
      simp only [Option.bind_some]
      by_cases hsame : arc = flight.torrentData
      · subst hsame
        have hh := hs.flightApart hflight harc
        rw [ha.announced, if_neg fun hk => hx (Prod.ext hh hk)]
      · rw [ha.others hsame]

theorem registry_announce_missed (hs : Apart s) {worker : Nat} {flight : Flight I}
    (hflight : s.inFlight worker = some flight) (ha : Answered config flight s s')
    (hget : s.get flight.request.infoHash ≠ some flight.torrentData) :
    s'.registry = s.registry := by
  funext ⟨h, k⟩
  unfold registry
  rw [ha.get]
  cases harc : s.get h with
  | none => rfl
  | some arc =>
    simp only [Option.bind_some]
    rw [ha.others]
    rintro rfl
    rw [← hs.flightApart hflight harc] at hget
    exact hget harc

theorem get_of_isEmpty (hs : Apart s) {arc : Arc}
    (hempty : (s.torrentData arc).peerMap.isEmpty = true) (k : ResponsePeer I) :
    (s.torrentData arc).peerMap.get k = none := by
  obtain ⟨t, ht⟩ := hs.refines arc
  rw [ht.peers]
  exact ht.isEmpty_iff.mp hempty k

theorem forall_ite_eq_iff (a b : PeerId) :
    (∀ c, (if a = c then 1 else 0) = if b = c then 1 else 0) ↔ a = b := by
  constructor
  · intro h
    have hb := h b
    rw [if_pos rfl] at hb
    by_contra hne
    rw [if_neg hne] at hb
    cases hb
  · rintro rfl c
    rfl

theorem added_announceStatistics (hclients : config.statistics.peerClients = true)
    (request : AnnounceRequest) (optRemovedPeer : Option Peer) (peerId : PeerId) :
    added peerId (announceStatistics config request optRemovedPeer) =
      if request.status ≠ .stopped ∧ optRemovedPeer = none ∧ request.peerId = peerId then 1
      else 0 := by
  unfold announceStatistics
  cases hstatus : request.status <;> cases optRemovedPeer <;>
    simp [hclients, added_single, show ∀ id, added peerId [.peerRemoved id] = 0 from fun _ => rfl]

theorem removed_announceStatistics (hclients : config.statistics.peerClients = true)
    (request : AnnounceRequest) (optRemovedPeer : Option Peer) (peerId : PeerId) :
    removed peerId (announceStatistics config request optRemovedPeer) =
      if request.status = .stopped ∧ optRemovedPeer ≠ none ∧ request.peerId = peerId then 1
      else 0 := by
  unfold announceStatistics
  cases hstatus : request.status <;> cases optRemovedPeer <;>
    simp [hclients, removed_single, show ∀ id, removed peerId [.peerAdded id] = 0 from fun _ => rfl]

theorem told_announce_iff (hclients : config.statistics.peerClients = true) (hs : Followed s)
    {worker : Nat} {rng : Rng} {response : AnnounceResponse I}
    (h : s.announce config worker rng = some (response, s')) :
    Told config s (.announce worker rng) s' ↔ Accounted config s (.announce worker rng) := by
  obtain ⟨flight, hflight, ha⟩ := answered_of_announce hs.apart h
  have hmessages := announceMessages_eq hs.apart hflight h
  have haccounted : Accounted config s (.announce worker rng) ↔
      (if s.get flight.request.infoHash = some flight.torrentData then
        ∀ peer, s.registry (flight.request.infoHash, flight.key) = some peer →
          peer.peerId = flight.request.peerId
      else flight.request.status = .stopped) := by
    simp only [Accounted, hflight, Option.some.injEq]
    exact ⟨fun h => h flight rfl, fun h _ hf => hf ▸ h⟩
  have hcleaning : s.cleaningMessages config (.announce worker rng) = [] := rfl
  rw [haccounted, Told, hmessages, hcleaning, List.append_nil]
  simp only [added_announceStatistics hclients, removed_announceStatistics hclients]
  by_cases hget : s.get flight.request.infoHash = some flight.torrentData
  · have hregistry := registry_announce hs.apart hflight ha hget
    have hcount : ∀ peerId, (s'.registered peerId +
        if (s.registry (flight.request.infoHash, flight.key)).any (·.peerId == peerId) then 1
        else 0) = s.registered peerId +
        if (if flight.request.status = .stopped then none
          else some (flight.request.peer flight.validUntil)).any (·.peerId == peerId) then 1
        else 0 := by
      intro peerId
      rw [registered, hregistry]
      exact Tally.count_update hs.finite _ _ _
    rw [if_pos hget, ← registry_eq hget]
    have hpeerId : (flight.request.peer flight.validUntil).peerId = flight.request.peerId := rfl
    cases hold : s.registry (flight.request.infoHash, flight.key) with
    | none =>
      simp only [hold] at hcount
      refine iff_of_true ?_ fun peer hpeer => absurd hpeer (Option.some_ne_none peer).symm
      intro peerId
      have hid := hcount peerId
      by_cases hstatus : flight.request.status = .stopped
      · simpa [hstatus] using hid
      · simpa [hstatus, hpeerId] using hid
    | some peer =>
      simp only [Option.some.injEq, forall_eq']
      simp only [hold, Option.any_some, beq_iff_eq] at hcount
      rw [← forall_ite_eq_iff]
      apply forall_congr'
      intro peerId
      have hid := hcount peerId
      by_cases hstatus : flight.request.status = .stopped
      · simp only [hstatus, if_true, Option.any_none, Bool.false_eq_true, if_false,
          true_and, ne_eq, reduceCtorEq, not_false_eq_true, not_true_eq_false, false_and] at hid ⊢
        omega
      · simp only [hstatus, if_false, Option.any_some, hpeerId, beq_iff_eq, false_and, ne_eq,
          not_false_eq_true, true_and, reduceCtorEq] at hid ⊢
        omega
  · have hempty := (hs.missed hflight).resolve_left hget
    have hnone := get_of_isEmpty hs.apart hempty flight.key
    have hregistered : ∀ peerId, s'.registered peerId = s.registered peerId := by
      intro peerId
      rw [registered, registered, registry_announce_missed hs.apart hflight ha hget]
    rw [if_neg hget, hnone]
    simp only [hregistered, ne_eq, not_true_eq_false, false_and, and_false, if_false, true_and]
    constructor
    · intro h
      by_contra hstatus
      have hid := h flight.request.peerId
      rw [if_pos ⟨hstatus, rfl⟩] at hid
      omega
    · intro hstatus peerId
      rw [if_neg fun h => h.1 hstatus]

theorem shards_announce {worker : Nat} {rng : Rng} {response : AnnounceResponse I}
    (h : s.announce config worker rng = some (response, s')) : s'.shards = s.shards := by
  obtain ⟨flight, -, h⟩ := Option.bind_eq_some_iff.mp h
  obtain ⟨r, -, h⟩ := Option.bind_eq_some_iff.mp h
  cases h
  rfl

theorem followed_announce (hs : Followed s) {worker : Nat} {rng : Rng}
    {response : AnnounceResponse I} (h : s.announce config worker rng = some (response, s'))
    (haccounted : Accounted config s (.announce worker rng)) : Followed s' := by
  obtain ⟨flight, hflight, ha⟩ := answered_of_announce hs.apart h
  have hflightAccounted := haccounted flight hflight
  refine ⟨hs.apart.announce h, ?_, ?_, ?_, ?_⟩
  · by_cases hget : s.get flight.request.infoHash = some flight.torrentData
    · rw [registry_announce hs.apart hflight ha hget]
      exact (hs.finite.insert _).subset (Tally.support_update _ _ _)
    · rw [registry_announce_missed hs.apart hflight ha hget]
      exact hs.finite
  · rw [shards_announce h]
    exact hs.placed
  · intro arc harc
    rw [ha.cleaner] at harc
    obtain ⟨h, hh⟩ := hs.visited arc harc
    exact ⟨h, (ha.get h).trans hh⟩
  · intro w f hf
    rw [ha.get]
    rcases hs.missed (ha.inFlight hf) with hfound | hempty
    · exact .inl hfound
    by_cases hfound : s.get f.request.infoHash = some f.torrentData
    · exact .inl hfound
    refine .inr ?_
    by_cases hsame : f.torrentData = flight.torrentData
    · -- Both announces have missed the torrent, and this one is a stop.
      have hmissed : s.get flight.request.infoHash ≠ some flight.torrentData := by
        intro hget
        rw [← hsame] at hget
        rw [hs.apart.flightApart (ha.inFlight hf) hget] at hget
        exact hfound hget
      rw [if_neg hmissed] at hflightAccounted
      obtain ⟨t, ht⟩ := ha.refines
      rw [hsame] at hempty ⊢
      apply ht.isEmpty_iff.mpr
      intro k
      rw [← ht.peers, ha.announced, if_pos hflightAccounted, get_of_isEmpty hs.apart hempty]
      split <;> rfl
    · rw [ha.others hsame]
      exact hempty

/-- A cleaned torrent has lost its expired peers. -/
theorem registry_cleanTorrent (hs : Apart s) {h : InfoHash} {arc : Arc} (hget : s.get h = some arc)
    {now : SecondsSinceServerStart} {numPeers : Nat} {messages : List StatisticsMessage}
    {peerMap : PeerMap I}
    (hclean : PeerMap.clean config (s.torrentData arc).peerMap now =
      some (numPeers, messages, peerMap)) :
    (s.setTorrentData arc { s.torrentData arc with peerMap }).registry = fun x =>
      (s.registry x).filter fun peer => x.1 ≠ h || peer.validUntil.valid now := by
  obtain ⟨t, ht⟩ := hs.refines arc
  obtain ⟨messages', m', hm', hrefines⟩ := clean_simulates config ht now
  rw [hclean] at hm'
  cases hm'
  funext ⟨h', k⟩
  unfold registry
  change ((s.get h').bind _) = _
  cases harc : s.get h' with
  | none => rfl
  | some arc' =>
    simp only [Option.bind_some]
    by_cases hh : h' = h
    · subst hh
      rw [hget] at harc
      cases harc
      rw [show (s.setTorrentData arc _).torrentData arc = _ from if_pos rfl]
      change peerMap.get k = _
      rw [hrefines.peers, ht.peers]
      simp only [Swarm.Torrent.clean, ne_eq, not_true_eq_false, decide_false, Bool.false_or]
      rfl
    · have hne : arc' ≠ arc := by
        rintro rfl
        exact hh (hs.apart harc hget)
      rw [show (s.setTorrentData arc _).torrentData arc' = s.torrentData arc' from if_neg hne]
      simp [hh]

/-- The dropped peers of a torrent, counted where they are stored. -/
theorem ncard_dropped (hs : Apart s) {h : InfoHash} {arc : Arc} (hget : s.get h = some arc)
    (now : SecondsSinceServerStart) (peerId : PeerId) :
    Set.ncard {x | ∃ peer, s.registry x = some peer ∧
        (x.1 ≠ h || peer.validUntil.valid now : Bool) = false ∧ (peer.peerId == peerId) = true} =
      (s.torrentData arc).peerMap.entries.countP
        fun e => !e.2.validUntil.valid now && e.2.peerId == peerId := by
  obtain ⟨t, ht⟩ := hs.refines arc
  have hcount := ht.countP_eq fun peer => !peer.validUntil.valid now && peer.peerId == peerId
  rw [hcount, Swarm.Torrent.count, ← Set.ncard_image_of_injective
    {k | ∃ peer, t.peers k = some peer ∧ _} (Prod.mk_right_injective h)]
  apply congrArg
  apply Set.ext
  rintro ⟨h', k⟩
  simp only [Set.mem_ofPred_eq, Set.mem_image, Prod.mk.injEq, Bool.or_eq_false_iff,
    decide_eq_false_iff_not, ne_eq, not_not, Bool.and_eq_true, Bool.not_eq_true']
  constructor
  · rintro ⟨peer, hpeer, ⟨rfl, hvalid⟩, hid⟩
    rw [registry_eq hget, ht.peers] at hpeer
    exact ⟨k, ⟨peer, hpeer, hvalid, hid⟩, rfl, rfl⟩
  · rintro ⟨_, ⟨peer, hpeer, hvalid, hid⟩, rfl, rfl⟩
    rw [← ht.peers, ← registry_eq hget] at hpeer
    exact ⟨peer, hpeer, ⟨rfl, hvalid⟩, hid⟩

theorem told_cleanTorrent (hclients : config.statistics.peerClients = true) (hs : Followed s)
    {arc : Arc} {round : Round} {i : Nat} {remaining : List Arc}
    (hcleaner : s.cleaner = .cleaning round i remaining) (harc : arc ∈ remaining) {numPeers : Nat}
    {messages : List StatisticsMessage} {peerMap : PeerMap I}
    (hclean : PeerMap.clean config (s.torrentData arc).peerMap round.now =
      some (numPeers, messages, peerMap)) :
    Told config s (.cleanTorrent arc)
      (s.setTorrentData arc { s.torrentData arc with peerMap }) := by
  obtain ⟨h, hget⟩ := hs.visited arc (by rw [hcleaner]; exact harc)
  have hmessages : s.cleaningMessages config (.cleanTorrent arc) = messages := by
    simp only [cleaningMessages, hcleaner, hclean]
  intro peerId
  obtain ⟨hadded, hremoved⟩ := messages_clean hclients hclean peerId
  have hcount := Tally.count_filter hs.finite
    (fun x peer => x.1 ≠ h || peer.validUntil.valid round.now) fun peer => peer.peerId == peerId
  rw [ncard_dropped hs.apart hget, ← registry_cleanTorrent hs.apart hget hclean] at hcount
  rw [hmessages, show s.announceMessages config (.cleanTorrent arc) = [] from rfl, List.nil_append,
    hadded, hremoved]
  exact hcount.symm

theorem followed_cleanTorrent (hs : Followed s) {arc : Arc} {round : Round} {i : Nat}
    {remaining : List Arc} (hcleaner : s.cleaner = .cleaning round i remaining)
    (harc : arc ∈ remaining) {numPeers : Nat} {messages : List StatisticsMessage}
    {peerMap : PeerMap I}
    (hclean : PeerMap.clean config (s.torrentData arc).peerMap round.now =
      some (numPeers, messages, peerMap))
    (hapart : Apart (s.setTorrentData arc { s.torrentData arc with peerMap })) :
    Followed { s.setTorrentData arc { s.torrentData arc with peerMap } with
      cleaner := .cleaned round i (remaining.erase arc) arc numPeers } := by
  obtain ⟨h, hget⟩ := hs.visited arc (by rw [hcleaner]; exact harc)
  have hregistry := registry_cleanTorrent hs.apart hget hclean
  refine ⟨hapart.of_eq (fun _ => rfl) (fun _ => rfl) rfl rfl, ?_, hs.placed, ?_, ?_⟩
  · change (Tally.support (s.setTorrentData arc _).registry).Finite
    rw [hregistry]
    exact hs.finite.subset (Tally.support_filter _ _)
  · intro arc' harc'
    apply hs.visited arc'
    rw [hcleaner]
    exact List.mem_of_mem_erase harc'
  · intro worker flight hflight
    rcases hs.missed hflight with hfound | hempty
    · exact .inl hfound
    · refine .inr ?_
      by_cases hsame : flight.torrentData = arc
      · obtain ⟨t, ht⟩ := hs.apart.refines arc
        obtain ⟨messages', m', hm', hrefines⟩ := clean_simulates config ht round.now
        rw [hclean] at hm'
        cases hm'
        change ((s.setTorrentData arc _).torrentData flight.torrentData).peerMap.isEmpty = true
        rw [show (s.setTorrentData arc _).torrentData flight.torrentData = _ from if_pos hsame]
        apply hrefines.isEmpty_iff.mpr
        intro k
        rw [hsame] at hempty
        simp only [Swarm.Torrent.clean, ht.isEmpty_iff.mp hempty k, Option.filter_none]
      · change ((s.setTorrentData arc _).torrentData flight.torrentData).peerMap.isEmpty = true
        rw [show (s.setTorrentData arc _).torrentData flight.torrentData = _ from if_neg hsame]
        exact hempty

omit [DecidableEq I] in
theorem peerMap_retain (h : InfoHash) (arc arc' : Arc) :
    ((s.retain config h arc).torrentData arc').peerMap = (s.torrentData arc').peerMap := by
  unfold retain
  simp only
  split <;> split
  · exact peerMap_setPendingRemoval s arc false arc'
  · rfl
  · exact peerMap_setPendingRemoval s arc false arc'
  · rfl

omit [DecidableEq I] in
theorem shards_retain (h : InfoHash) (arc : Arc) (i : Nat) :
    (s.retain config h arc).shards i =
      if s.retains config h (s.torrentData arc) = false ∧ i = shardIndex h then
        (s.shards i).erase h
      else s.shards i := by
  have hmarked : (if s.accessList.allows config.accessListMode h then
      s.setTorrentData arc { s.torrentData arc with pendingRemoval := false } else s).shards =
      s.shards := by
    split <;> rfl
  unfold retain
  simp only
  split
  · rename_i hretains
    rw [hmarked, hretains, if_neg nofun]
  · rename_i hretains
    simp only [setShard, hmarked, Bool.eq_false_iff.mpr hretains, true_and]
    by_cases hi : i = shardIndex h
    · subst hi
      rfl
    · rw [if_neg hi, if_neg hi]

omit [DecidableEq I] in
theorem get_retain (h : InfoHash) (arc : Arc) (h' : InfoHash) :
    (s.retain config h arc).get h' =
      if s.retains config h (s.torrentData arc) = false ∧ h' = h then none else s.get h' := by
  rw [get, shards_retain]
  cases hretains : s.retains config h (s.torrentData arc) with
  | true => simp [get]
  | false =>
    by_cases hh : h' = h
    · subst hh
      simp
    · simp only [true_and, hh, if_false]
      split
      · rw [IndexMap.get_erase, if_neg hh]
        rfl
      · rfl

omit [DecidableEq I] in
theorem inFlight_retain (h : InfoHash) (arc : Arc) :
    (s.retain config h arc).inFlight = s.inFlight := by
  unfold retain
  simp only
  split <;> split <;> rfl

/-- A torrent that is dropped takes its peers with it. -/
theorem registry_retain {h : InfoHash} {arc : Arc} :
    (s.retain config h arc).registry = fun x => (s.registry x).filter
      fun _ => s.retains config h (s.torrentData arc) || x.1 ≠ h := by
  funext ⟨h', k⟩
  unfold registry
  simp only [peerMap_retain, get_retain]
  cases s.retains config h (s.torrentData arc) with
  | true => simp
  | false =>
    by_cases hh : h' = h
    · simp [hh]
    · simp [hh]

/-- A torrent that is dropped although it is allowed has no peers. -/
theorem accounted_retain_iff {h : InfoHash} {arc : Arc} (hget : s.get h = some arc) :
    Accounted config s (.retain h) ↔ (s.retains config h (s.torrentData arc) = false →
      (s.torrentData arc).peerMap.isEmpty = true) := by
  unfold Accounted retains
  cases hallowed : s.accessList.allows config.accessListMode h with
  | true =>
    refine iff_of_true (fun h => Bool.noConfusion (h.symm.trans hallowed)) ?_
    simp only [Bool.not_true, Bool.false_eq_true, if_false, Bool.not_eq_false', Bool.and_eq_true]
    exact fun h => h.2
  | false =>
    simp only [Bool.not_false, if_true, true_implies]
    refine ⟨fun h => h hallowed arc hget, ?_⟩
    intro hempty _ arc' harc'
    rw [hget] at harc'
    cases harc'
    exact hempty

theorem told_retain_iff (hs : Followed s) {h : InfoHash} {arc : Arc} (hget : s.get h = some arc) :
    Told config s (.retain h) (s.retain config h arc) ↔ Accounted config s (.retain h) := by
  rw [accounted_retain_iff hget]
  have hcount : ∀ peerId, s.registered peerId = (s.retain config h arc).registered peerId +
      Set.ncard {x | ∃ peer, s.registry x = some peer ∧
        (s.retains config h (s.torrentData arc) || x.1 ≠ h : Bool) = false ∧
        (peer.peerId == peerId) = true} := by
    intro peerId
    rw [registered, registered, registry_retain]
    exact Tally.count_filter hs.finite
      (fun x _ => s.retains config h (s.torrentData arc) || x.1 ≠ h) _
  have htold : Told config s (.retain h) (s.retain config h arc) ↔
      ∀ peerId, (s.retain config h arc).registered peerId = s.registered peerId := Iff.rfl
  rw [htold]
  constructor
  · intro hsame hretains
    obtain ⟨t, ht⟩ := hs.apart.refines arc
    rw [ht.isEmpty_iff]
    intro k
    by_contra hne
    obtain ⟨peer, hpeer⟩ := Option.ne_none_iff_exists'.mp hne
    have hid := hcount peer.peerId
    rw [hsame peer.peerId] at hid
    have hpos : 0 < Set.ncard {x | ∃ peer', s.registry x = some peer' ∧
        (s.retains config h (s.torrentData arc) || x.1 ≠ h : Bool) = false ∧
        (peer'.peerId == peer.peerId) = true} := by
      apply (Set.ncard_pos (Tally.finite_of_support hs.finite _)).mpr
      refine ⟨(h, k), peer, ?_, ?_, beq_self_eq_true _⟩
      · rw [registry_eq hget, ht.peers]
        exact hpeer
      · simp [hretains]
    omega
  · intro hempty peerId
    have hnone : {x | ∃ peer, s.registry x = some peer ∧
        (s.retains config h (s.torrentData arc) || x.1 ≠ h : Bool) = false ∧
        (peer.peerId == peerId) = true} = ∅ := by
      apply Set.eq_empty_iff_forall_notMem.mpr
      rintro ⟨h', k⟩ ⟨peer, hpeer, hdropped, -⟩
      simp only [ne_eq, Bool.or_eq_false_iff, decide_eq_false_iff_not, not_not] at hdropped
      obtain ⟨hretains, rfl⟩ := hdropped
      rw [registry_eq hget, get_of_isEmpty hs.apart (hempty hretains)] at hpeer
      cases hpeer
    have hid := hcount peerId
    rw [hnone, Set.ncard_empty, Nat.add_zero] at hid
    exact hid.symm

theorem followed_retain (hs : Followed s) {h : InfoHash} {arc : Arc} (hget : s.get h = some arc)
    (haccounted : Accounted config s (.retain h)) {cleaner : Cleaner}
    (hcleaner : cleaner.remaining = []) :
    Followed { s.retain config h arc with cleaner } := by
  rw [accounted_retain_iff hget] at haccounted
  refine ⟨(hs.apart.retain h arc).of_eq (fun _ => rfl) (fun _ => rfl) rfl rfl, ?_, ?_, ?_, ?_⟩
  · change (Tally.support (s.retain config h arc).registry).Finite
    rw [registry_retain]
    exact hs.finite.subset (Tally.support_filter _ fun x _ => _)
  · intro i h' arc' harc'
    change ((s.retain config h arc).shards i).get h' = some arc' at harc'
    rw [shards_retain] at harc'
    split at harc'
    · rw [IndexMap.get_erase] at harc'
      split at harc'
      · cases harc'
      · exact hs.placed harc'
    · exact hs.placed harc'
  · intro arc' harc'
    rw [show ({ s.retain config h arc with cleaner } : TorrentMapShards I).cleaner = cleaner
      from rfl, hcleaner] at harc'
    cases harc'
  · intro worker flight hflight
    change (s.retain config h arc).inFlight worker = some flight at hflight
    rw [inFlight_retain] at hflight
    change (s.retain config h arc).get _ = _ ∨
      ((s.retain config h arc).torrentData _).peerMap.isEmpty = true
    rw [get_retain, peerMap_retain]
    rcases hs.missed hflight with hfound | hempty
    · by_cases hdropped : s.retains config h (s.torrentData arc) = false ∧
          flight.request.infoHash = h
      · rw [hdropped.2, hget] at hfound
        cases hfound
        exact .inr (haccounted hdropped.1)
      · rw [if_neg hdropped]
        exact .inl hfound
    · exact .inr hempty

theorem followed_step {act : Action I} (hs : Followed s) (h : step config s act = some s')
    (haccounted : Accounted config s act) : Followed s' := by
  have hapart := apart_step hs.apart h
  cases step_cases h with
  | lookUp h => exact (followed_lookUp hs h).1
  | announce h => exact followed_announce hs h haccounted
  | cleanTorrent hcleaner harc hclean =>
    exact followed_cleanTorrent hs hcleaner harc hclean
      (hapart.of_eq (fun _ => rfl) (fun _ => rfl) rfl rfl)
  | @storePendingRemoval round i remaining arc numPeers hcleaner =>
    have hpeerMap := peerMap_setPendingRemoval s arc (numPeers == 0)
    refine ⟨hapart, ?_, hs.placed, ?_, ?_⟩
    · have hregistry : (s.setTorrentData arc { s.torrentData arc with
          pendingRemoval := numPeers == 0 }).registry = s.registry := by
        funext x
        simp only [registry, hpeerMap]
        rfl
      change (Tally.support (s.setTorrentData arc _).registry).Finite
      rw [hregistry]
      exact hs.finite
    · intro arc' harc'
      apply hs.visited arc'
      rw [hcleaner]
      exact harc'
    · intro worker flight hflight
      change s.get _ = _ ∨ ((s.setTorrentData arc _).torrentData _).peerMap.isEmpty = true
      rw [hpeerMap]
      exact hs.missed hflight
  | retain hcleaner hget => exact followed_retain hs hget haccounted rfl
  | @moved act cleaner hact hnow hremaining hcleaned =>
    refine ⟨hapart, hs.finite, hs.placed, ?_, hs.missed⟩
    intro arc harc
    cases cleaner with
    | cleaning round i remaining =>
      rw [hremaining rfl] at harc
      obtain ⟨⟨h, arc'⟩, hmem, rfl⟩ := List.mem_map.mp harc
      have hget := ((s.shards i).get_eq_some_iff h arc').mpr hmem
      refine ⟨h, ?_⟩
      change (s.shards (shardIndex h)).get h = some arc'
      rw [hs.placed hget]
      exact hget
    | cleaned => exact absurd rfl hcleaned
    | _ => cases harc
  | tick hle => exact ⟨hapart, hs.finite, hs.placed, hs.visited, hs.missed⟩
  | updateAccessList => exact ⟨hapart, hs.finite, hs.placed, hs.visited, hs.missed⟩

theorem told_iff_accounted (hclients : config.statistics.peerClients = true) {act : Action I}
    (hs : Followed s) (h : step config s act = some s') :
    Told config s act s' ↔ Accounted config s act := by
  cases step_cases h with
  | lookUp h =>
    exact iff_of_true (told_of_registry_eq (followed_lookUp hs h).2 rfl rfl) trivial
  | announce h => exact told_announce_iff hclients hs h
  | cleanTorrent hcleaner harc hclean =>
    exact iff_of_true (told_cleanTorrent hclients hs hcleaner harc hclean) trivial
  | @storePendingRemoval round i remaining arc numPeers hcleaner =>
    refine iff_of_true (told_of_registry_eq ?_ rfl rfl) trivial
    funext x
    simp only [registry]
    change (s.get x.1).bind (fun arc' =>
      ((s.setTorrentData arc _).torrentData arc').peerMap.get x.2) = _
    simp only [peerMap_setPendingRemoval]
  | retain hcleaner hget => exact told_retain_iff hs hget
  | @moved act cleaner hact hnow hremaining hcleaned =>
    cases act with
    | startRound | lockRead | unlockRead | lockWrite | unlockWrite =>
      exact iff_of_true (told_of_registry_eq rfl rfl rfl) trivial
    | _ => cases hact
  | tick hle => exact iff_of_true (told_of_registry_eq rfl rfl rfl) trivial
  | updateAccessList => exact iff_of_true (told_of_registry_eq rfl rfl rfl) trivial

end TorrentMapShards

end Aquatic.Udp
