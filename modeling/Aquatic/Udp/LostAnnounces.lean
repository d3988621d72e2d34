import Aquatic.Udp.ShardsSpec

/-!
# Announces that go to a dropped torrent

A torrent that has been looked up but not yet announced to is empty, so a
cleaning round can mark it and drop it. The announce then goes to a torrent
that nobody finds. Otherwise every peer that was answered is to be found.
-/

namespace Aquatic.Udp.TorrentMapShards
open Collections Transition
set_option autoImplicit false

variable {I : Type} [DecidableEq I]

/-- The peers that were answered are registered in the torrents that are looked up. -/
def NoLostAnnounce (s : TorrentMapShards I) : Prop :=
  ∀ h k v, s.owed h k = some v → v.valid s.clock → ∃ arc peer, s.get h = some arc ∧
    (s.torrentData arc).peerMap.get k = some peer ∧ peer.validUntil = v

/-- A cleaning round drops no torrent that an announce, other than a stop, has
looked up and not yet announced to. -/
def DropsNoLookedUp (config : Config) (s : TorrentMapShards I) (act : Action I)
    (_ : TorrentMapShards I) : Prop :=
  match act with
  | .retain h => ∀ arc, s.get h = some arc → s.retains config h (s.torrentData arc) = false →
    ∀ worker flight, s.inFlight worker = some flight → flight.request.infoHash = h →
      flight.request.status = .stopped
  | _ => True

structure Kept (config : Config) (s : TorrentMapShards I) : Prop where
  refines : ∀ arc, ∃ t, (s.torrentData arc).peerMap.Refines t
  allocated : ∀ {h arc}, s.get h = some arc → arc.address < s.allocated
  flightAllocated : ∀ {worker flight}, s.inFlight worker = some flight →
    flight.torrentData.address < s.allocated
  apart : ∀ {h h' arc}, s.get h = some arc → s.get h' = some arc → h = h'
  flightApart : ∀ {worker flight h}, s.inFlight worker = some flight →
    s.get h = some flight.torrentData → h = flight.request.infoHash
  lookedUp : ∀ {worker flight}, s.inFlight worker = some flight →
    flight.request.status ≠ .stopped → s.get flight.request.infoHash = some flight.torrentData
  started : ∀ {now}, s.cleaner.now = some now → now ≤ s.clock
  allowed : ∀ {h k v}, s.owed h k = some v → s.accessList.allows config.accessListMode h
  found : s.NoLostAnnounce

theorem kept_init (config : Config) : Kept config (init : TorrentMapShards I) where
  refines _ := ⟨_, Swarm.PeerMap.refines_default⟩
  allocated := nofun
  flightAllocated := nofun
  apart := nofun
  flightApart := nofun
  lookedUp := nofun
  started := nofun
  allowed := nofun
  found := nofun

variable {config : Config} {s s' : TorrentMapShards I}

theorem Kept.toApart (hs : Kept config s) : Apart s :=
  ⟨hs.refines, hs.allocated, hs.flightAllocated, hs.apart, hs.flightApart⟩

/-- Nothing changes but the cleaner and the marks. -/
structure Quiet (s s' : TorrentMapShards I) : Prop where
  get : ∀ h, s'.get h = s.get h
  peerMap : ∀ arc, (s'.torrentData arc).peerMap = (s.torrentData arc).peerMap
  allocated : s'.allocated = s.allocated
  inFlight : s'.inFlight = s.inFlight
  accessList : s'.accessList = s.accessList
  clock : s'.clock = s.clock
  owed : s'.owed = s.owed
  started : ∀ {now}, s'.cleaner.now = some now → now ≤ s.clock

theorem Kept.quiet (hs : Kept config s) (hq : Quiet s s') : Kept config s' := by
  have ha := hs.toApart.of_eq hq.get hq.peerMap hq.allocated hq.inFlight
  refine ⟨ha.refines, ha.allocated, ha.flightAllocated, ha.apart, ha.flightApart, ?_, ?_, ?_, ?_⟩
  · intro worker flight hflight hstatus
    rw [hq.inFlight] at hflight
    rw [hq.get]
    exact hs.lookedUp hflight hstatus
  · intro now hnow
    rw [hq.clock]
    exact hq.started hnow
  · intro h k v hv
    rw [hq.owed] at hv
    rw [hq.accessList]
    exact hs.allowed hv
  · intro h k v hv hvalid
    rw [hq.owed] at hv
    rw [hq.clock] at hvalid
    rw [hq.get]
    obtain ⟨arc, peer, harc, hpeer, hpv⟩ := hs.found h k v hv hvalid
    refine ⟨arc, peer, harc, ?_, hpv⟩
    rw [hq.peerMap]
    exact hpeer

/-- An announce takes off: with a torrent that is stored. -/
theorem Kept.setInFlight (hs : Kept config s) {flight : Flight I}
    (hget : s.get flight.request.infoHash = some flight.torrentData) (worker : Nat) :
    Kept config (s.setInFlight worker (some flight)) := by
  have ha := hs.toApart.setInFlight hget worker
  refine ⟨ha.refines, ha.allocated, ha.flightAllocated, ha.apart, ha.flightApart, ?_, hs.started,
    hs.allowed, hs.found⟩
  intro w f hf hstatus
  simp only [TorrentMapShards.setInFlight] at hf
  split at hf
  · cases hf
    exact hget
  · exact hs.lookedUp hf hstatus

theorem Kept.insertNew (hs : Kept config s) {h : InfoHash} (hget : s.get h = none) :
    Kept config (s.insertNew h) := by
  have ha := hs.toApart.insertNew h
  have hold : ∀ {h' arc}, s.get h' = some arc → (s.insertNew h).get h' = some arc := by
    intro h' arc harc
    rw [get_insertNew]
    split
    · rename_i hh
      rw [hh, hget] at harc
      cases harc
    · exact harc
  refine ⟨ha.refines, ha.allocated, ha.flightAllocated, ha.apart, ha.flightApart, ?_, hs.started,
    hs.allowed, ?_⟩
  · intro worker flight hflight hstatus
    exact hold (hs.lookedUp hflight hstatus)
  · intro h' k v hv hvalid
    obtain ⟨arc, peer, harc, hpeer, hpv⟩ := hs.found h' k v hv hvalid
    refine ⟨arc, peer, hold harc, ?_, hpv⟩
    rw [Apart.torrentData_insertNew h (hs.allocated harc)]
    exact hpeer

theorem Kept.announce (hs : Kept config s) {worker : Nat} {rng : Rng}
    {response : AnnounceResponse I} (h : s.announce config worker rng = some (response, s')) :
    Kept config s' := by
  have hapart := hs.toApart.announce h
  obtain ⟨flight, hflight, ha⟩ := answered_of_announce hs.toApart h
  refine ⟨hapart.refines, hapart.allocated, hapart.flightAllocated, hapart.apart,
    hapart.flightApart, ?_, ?_, ?_, ?_⟩
  · intro w f hf hstatus
    rw [ha.get]
    exact hs.lookedUp (ha.inFlight hf) hstatus
  · intro now hnow
    rw [ha.cleaner] at hnow
    rw [ha.clock]
    exact hs.started hnow
  · intro h k v hv
    rw [ha.accessList]
    rcases ha.owed hv with ⟨-, -, -, hallowed, -⟩ | ⟨-, hold⟩
    · exact hallowed
    · exact hs.allowed hold
  · intro h k v hv hvalid
    rw [ha.get]
    rw [ha.clock] at hvalid
    rcases ha.owed hv with ⟨rfl, rfl, hstatus, -, rfl⟩ | ⟨hne, hold⟩
    · refine ⟨_, flight.request.peer flight.validUntil, hs.lookedUp hflight hstatus, ?_, rfl⟩
      rw [ha.announced, if_pos rfl, if_neg hstatus]
    · obtain ⟨arc, peer, harc, hpeer, hpv⟩ := hs.found h k v hold hvalid
      refine ⟨arc, peer, harc, ?_, hpv⟩
      by_cases hsame : arc = flight.torrentData
      · subst hsame
        have hh := hs.flightApart hflight harc
        rw [ha.announced, if_neg fun hk => hne ⟨hh, hk⟩]
        exact hpeer
      · rw [ha.others hsame]
        exact hpeer

theorem Kept.cleanTorrent (hs : Kept config s) {arc : Arc} {now : SecondsSinceServerStart}
    (hnow : now ≤ s.clock) {numPeers : Nat} {messages : List StatisticsMessage} {m' : PeerMap I}
    (hclean : PeerMap.clean config (s.torrentData arc).peerMap now =
      some (numPeers, messages, m')) :
    Kept config (s.setTorrentData arc { s.torrentData arc with peerMap := m' }) := by
  obtain ⟨t, ht⟩ := hs.refines arc
  obtain ⟨messages', m'', hm'', hrefines⟩ := clean_simulates config ht now
  rw [hclean] at hm''
  cases hm''
  have ha := hs.toApart.setPeerMap arc ⟨t.clean now, hrefines⟩
  refine ⟨ha.refines, hs.allocated, hs.flightAllocated, hs.apart, hs.flightApart, hs.lookedUp,
    hs.started, hs.allowed, ?_⟩
  · intro h k v hv hvalid
    obtain ⟨arc', peer, harc', hpeer, rfl⟩ := hs.found h k v hv hvalid
    refine ⟨arc', peer, harc', ?_, rfl⟩
    by_cases harc : arc' = arc
    · -- A peer that is valid by the clock is valid for the round, which started before.
      have hlt : peer.validUntil.valid now = true := by
        simp only [ValidUntil.valid, decide_eq_true_eq] at hvalid ⊢
        exact UInt32.lt_of_le_of_lt hnow hvalid
      subst harc
      rw [show (s.setTorrentData arc' _).torrentData arc' = _ from if_pos rfl]
      change m'.get k = some peer
      rw [hrefines.peers]
      rw [ht.peers] at hpeer
      simp only [Swarm.Torrent.clean, hpeer]
      exact (Option.filter_eq_some_iff).mpr ⟨rfl, hlt⟩
    · rw [show (s.setTorrentData arc _).torrentData arc' = s.torrentData arc' from if_neg harc]
      exact hpeer

/-- A torrent is dropped when no announce but a stop is on its way to it and no
answered peer is in it. -/
theorem Kept.erase (hs : Kept config s) {h : InfoHash}
    (hflights : ∀ worker flight, s.inFlight worker = some flight → flight.request.infoHash = h →
      flight.request.status = .stopped)
    (howed : ∀ k v, s.owed h k = some v → ¬ v.valid s.clock) :
    Kept config (s.setShard (shardIndex h) ((s.shards (shardIndex h)).erase h)) := by
  have ha := hs.toApart.erase h
  have hkeep : ∀ {h' arc}, h' ≠ h → s.get h' = some arc →
      (s.setShard (shardIndex h) ((s.shards (shardIndex h)).erase h)).get h' = some arc := by
    intro h' arc hne harc
    rw [get_erase, if_neg hne]
    exact harc
  refine ⟨ha.refines, ha.allocated, ha.flightAllocated, ha.apart, ha.flightApart, ?_, hs.started,
    hs.allowed, ?_⟩
  · intro worker flight hflight hstatus
    apply hkeep
    · intro hh
      exact hstatus (hflights worker flight hflight hh)
    · exact hs.lookedUp hflight hstatus
  · intro h' k v hv hvalid
    obtain ⟨arc, peer, harc, hfound⟩ := hs.found h' k v hv hvalid
    refine ⟨arc, peer, hkeep ?_ harc, hfound⟩
    rintro rfl
    exact howed k v hv hvalid

/-- Storing a mark changes nothing that announces see. -/
theorem Kept.setPendingRemoval (hs : Kept config s) (arc : Arc) (pendingRemoval : Bool) :
    Kept config (s.setTorrentData arc { s.torrentData arc with pendingRemoval }) :=
  hs.quiet ⟨fun _ => rfl, peerMap_setPendingRemoval s arc pendingRemoval, rfl, rfl, rfl, rfl, rfl,
    hs.started⟩

theorem Kept.retain (hs : Kept config s) {h : InfoHash} {arc : Arc} (harc : s.get h = some arc)
    (hlooked : s.retains config h (s.torrentData arc) = false →
      ∀ worker flight, s.inFlight worker = some flight → flight.request.infoHash = h →
        flight.request.status = .stopped) :
    Kept config (s.retain config h arc) := by
  unfold TorrentMapShards.retain
  by_cases hallowed : s.accessList.allows config.accessListMode h = true
  · have hmarked := hs.setPendingRemoval arc false
    by_cases hretains : s.retains config h (s.torrentData arc) = true
    · simp only [hallowed, hretains, if_true]
      exact hmarked
    · have hdrop := hlooked (Bool.eq_false_iff.mpr hretains)
      simp only [hallowed, hretains, if_true]
      refine hmarked.erase hdrop ?_
      intro k v hv hvalid
      -- The torrent is empty.
      obtain ⟨arc', peer, harc', hpeer, -⟩ := hs.found h k v hv hvalid
      rw [harc] at harc'
      cases harc'
      obtain ⟨t, ht⟩ := hs.refines arc
      simp only [retains, hallowed, Bool.not_true, Bool.false_eq_true, if_false,
        Bool.not_eq_true, Bool.not_eq_false', Bool.and_eq_true] at hretains
      have hempty := ht.isEmpty_iff.mp hretains.2 k
      rw [ht.peers, hempty] at hpeer
      cases hpeer
  · have hretains : s.retains config h (s.torrentData arc) = false := by
      simp [retains, hallowed]
    simp only [hallowed, hretains, Bool.false_eq_true, if_false]
    refine hs.erase (hlooked hretains) ?_
    intro k v hv
    exact absurd (hs.allowed hv) hallowed

/-- The cleaner goes on in its round without touching a torrent. -/
theorem Kept.setCleaner (hs : Kept config s) {cleaner : Cleaner}
    (hnow : cleaner.now = s.cleaner.now) : Kept config { s with cleaner } := by
  refine hs.quiet ⟨fun _ => rfl, fun _ => rfl, rfl, rfl, rfl, rfl, rfl, ?_⟩
  intro now h
  exact hs.started (hnow.symm.trans h)

theorem Kept.tick (hs : Kept config s) {clock : SecondsSinceServerStart} (h : s.clock ≤ clock) :
    Kept config { s with clock } := by
  refine ⟨hs.refines, hs.allocated, hs.flightAllocated, hs.apart, hs.flightApart, hs.lookedUp,
    fun hnow => UInt32.le_trans (hs.started hnow) h, hs.allowed, ?_⟩
  intro h' k v hv hvalid
  apply hs.found h' k v hv
  simp only [ValidUntil.valid, decide_eq_true_eq] at hvalid ⊢
  exact UInt32.lt_of_le_of_lt h hvalid

theorem Kept.updateAccessList (hs : Kept config s) (accessList : AccessList) :
    Kept config { s with
      accessList := accessList
      owed := fun h k =>
        if accessList.allows config.accessListMode h then s.owed h k else none } := by
  have howed : ∀ {h k v}, (if accessList.allows config.accessListMode h then s.owed h k else none) =
      some v → accessList.allows config.accessListMode h = true ∧ s.owed h k = some v := by
    intro h k v hv
    split at hv
    · exact ⟨‹_›, hv⟩
    · cases hv
  refine ⟨hs.refines, hs.allocated, hs.flightAllocated, hs.apart, hs.flightApart, hs.lookedUp,
    hs.started, fun hv => (howed hv).1, ?_⟩
  intro h k v hv hvalid
  exact hs.found h k v (howed hv).2 hvalid

theorem Kept.lookUp (hs : Kept config s) {worker : Nat} {request : AnnounceRequest} {ipAddress : I}
    {validUntil : ValidUntil} (h : s.lookUp worker request ipAddress validUntil = some s') :
    Kept config s' := by
  unfold TorrentMapShards.lookUp at h
  split at h
  · cases h
  split at h
  · rename_i arc hget
    cases h
    exact hs.setInFlight hget worker
  · rename_i hget
    split at h
    · cases h
    · cases h
      refine (hs.insertNew hget).setInFlight ?_ worker
      rw [get_insertNew, if_pos rfl]

theorem kept_step {act : Action I} (hs : Kept config s) (h : step config s act = some s')
    (hdrops : DropsNoLookedUp config s act s') : Kept config s' := by
  cases step_cases h with
  | lookUp h => exact hs.lookUp h
  | announce h => exact hs.announce h
  | @cleanTorrent arc round i remaining numPeers messages peerMap hcleaner harc hclean =>
    have hnow : s.cleaner.now = some round.now := by rw [hcleaner]; rfl
    exact (hs.cleanTorrent (hs.started hnow) hclean).setCleaner hnow.symm
  | @storePendingRemoval round i remaining arc numPeers hcleaner =>
    have hnow : s.cleaner.now = some round.now := by rw [hcleaner]; rfl
    exact (hs.setPendingRemoval arc (numPeers == 0)).setCleaner hnow.symm
  | @retain infoHash arc round i remaining hcleaner hget =>
    exact (hs.retain hget (hdrops arc hget)).setCleaner (by rw [cleaner_retain, hcleaner]; rfl)
  | moved hact hnow hremaining hcleaned =>
    refine hs.quiet ⟨fun _ => rfl, fun _ => rfl, rfl, rfl, rfl, rfl, rfl, ?_⟩
    intro now h
    rcases hnow h with hold | hle
    · exact hs.started hold
    · exact hle
  | tick hle => exact hs.tick hle
  | updateAccessList => exact hs.updateAccessList _

/-- Whatever the interleaving: if no torrent is dropped while an announce is on
its way to it, no announce is lost. -/
theorem no_lost_announce (config : Config) (as : List (Action I)) {s : TorrentMapShards I}
    (hdrops : AllSteps (step config) (DropsNoLookedUp config) init as)
    (hrun : run (step config) init as = some s) : s.NoLostAnnounce :=
  (run_invariant kept_step (kept_init config) hdrops hrun).found

/-- An announce of a new torrent, in the first shard. -/
def startedRequest : AnnounceRequest where
  transactionId := 1
  infoHash := ⟨Vector.replicate 20 0⟩
  peerId := ⟨Vector.replicate 20 1⟩
  bytesLeft := 1
  event := AnnounceEvent.started.toBytes
  peersWanted := 0
  port := 6881

def startedAddress : Ipv4AddrBytes := ⟨Vector.replicate 4 10⟩

/-- A round through the first shard, up to the turn of the torrent. -/
def firstShard : List (Action Ipv4AddrBytes) :=
  [.startRound 0, .lockRead, .cleanTorrent ⟨0⟩, .storePendingRemoval, .unlockRead, .lockWrite]

/-- The round comes after the announce. -/
def orderlyRun : List (Action Ipv4AddrBytes) :=
  [.lookUp 0 startedRequest startedAddress ⟨1000⟩, .announce 0 ⟨fun _ => 0⟩] ++ firstShard ++
    [.retain startedRequest.infoHash]

theorem no_lost_announce_orderly :
    ∃ s, run (step exampleConfig) init orderlyRun = some s ∧ s.NoLostAnnounce := by
  refine ⟨_, rfl, ?_⟩
  refine no_lost_announce exampleConfig orderlyRun ?_ rfl
  refine .cons rfl trivial (.cons rfl trivial (.cons rfl trivial (.cons rfl trivial
    (.cons rfl trivial (.cons rfl trivial (.cons rfl trivial (.cons rfl trivial
    (.cons rfl ?_ trivial))))))))
  intro arc _ _ worker flight hflight
  by_cases hw : worker = 0
  · subst hw
    cases hflight
  · simp [setOwed, TorrentMapShards.setInFlight, setTorrentData, insertNew, setShard, init, hw]
      at hflight

/-- The round comes between the two steps of the announce. -/
def lostRun : List (Action Ipv4AddrBytes) :=
  .lookUp 0 startedRequest startedAddress ⟨1000⟩ :: firstShard ++
    [.retain startedRequest.infoHash, .announce 0 ⟨fun _ => 0⟩]

theorem lost_announce :
    ∃ s, run (step exampleConfig) init lostRun = some s ∧ ¬ s.NoLostAnnounce := by
  obtain ⟨s, hs, howed, hclock, hget⟩ : ∃ s, run (step exampleConfig) init lostRun = some s ∧
      s.owed startedRequest.infoHash ⟨startedAddress, startedRequest.port⟩ = some ⟨1000⟩ ∧
      s.clock = 0 ∧ s.get startedRequest.infoHash = none := by
    exact ⟨_, rfl, by decide, rfl, by decide⟩
  refine ⟨s, hs, fun hfound => ?_⟩
  obtain ⟨arc, _, harc, -⟩ := hfound _ _ _ howed (by rw [hclock]; decide)
  rw [hget] at harc
  cases harc

end Aquatic.Udp.TorrentMapShards
