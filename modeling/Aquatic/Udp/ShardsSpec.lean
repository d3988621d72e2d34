import Aquatic.Udp.Shards

/-!
# What the steps of the sharded map do

Lookups after each step, and what holds in every run: each torrent has memory of
its own, and an announce in flight points to the memory of its torrent or to that
of a torrent that was dropped.
-/

namespace Aquatic.Udp.TorrentMapShards
open Collections
set_option autoImplicit false

variable {I : Type} [DecidableEq I] {config : Config} {s s' : TorrentMapShards I}

omit [DecidableEq I] in
theorem get_setShard (s : TorrentMapShards I) (h : InfoHash) (shard : IndexMap InfoHash Arc)
    (h' : InfoHash) : (s.setShard (shardIndex h) shard).get h' =
      if shardIndex h' = shardIndex h then shard.get h' else s.get h' := by
  unfold get setShard
  simp only
  split <;> rfl

omit [DecidableEq I] in
theorem get_insertNew (s : TorrentMapShards I) (h h' : InfoHash) :
    (s.insertNew h).get h' = if h' = h then some ⟨s.allocated⟩ else s.get h' := by
  have hshard := get_setShard s h ((s.shards (shardIndex h)).insert h ⟨s.allocated⟩) h'
  rw [IndexMap.get_insert] at hshard
  refine Eq.trans hshard ?_
  by_cases hh : h' = h
  · subst hh
    rw [if_pos rfl, if_pos rfl, if_pos rfl]
  · rw [if_neg hh, if_neg hh]
    split
    · rename_i hi
      rw [get, hi]
    · rfl

omit [DecidableEq I] in
theorem get_erase (s : TorrentMapShards I) (h h' : InfoHash) :
    (s.setShard (shardIndex h) ((s.shards (shardIndex h)).erase h)).get h' =
      if h' = h then none else s.get h' := by
  rw [get_setShard, IndexMap.get_erase]
  by_cases hh : h' = h
  · subst hh
    rw [if_pos rfl, if_pos rfl, if_pos rfl]
  · rw [if_neg hh, if_neg hh]
    split
    · rename_i hi
      rw [get, hi]
    · rfl

omit [DecidableEq I] in
/-- Storing a mark leaves every peer map as it is. -/
theorem peerMap_setPendingRemoval (s : TorrentMapShards I) (arc : Arc) (pendingRemoval : Bool)
    (arc' : Arc) :
    ((s.setTorrentData arc { s.torrentData arc with pendingRemoval }).torrentData arc').peerMap =
      (s.torrentData arc').peerMap := by
  by_cases harc : arc' = arc
  · subst harc
    rw [show (s.setTorrentData arc' _).torrentData arc' = _ from if_pos rfl]
  · rw [show (s.setTorrentData arc _).torrentData arc' = s.torrentData arc' from if_neg harc]

omit [DecidableEq I] in
theorem cleaner_retain (s : TorrentMapShards I) (h : InfoHash) (arc : Arc) :
    (s.retain config h arc).cleaner = s.cleaner := by
  unfold TorrentMapShards.retain
  simp only
  split <;> split <;> rfl

structure Apart (s : TorrentMapShards I) : Prop where
  refines : ∀ arc, ∃ t, (s.torrentData arc).peerMap.Refines t
  allocated : ∀ {h arc}, s.get h = some arc → arc.address < s.allocated
  flightAllocated : ∀ {worker flight}, s.inFlight worker = some flight →
    flight.torrentData.address < s.allocated
  apart : ∀ {h h' arc}, s.get h = some arc → s.get h' = some arc → h = h'
  flightApart : ∀ {worker flight h}, s.inFlight worker = some flight →
    s.get h = some flight.torrentData → h = flight.request.infoHash

theorem apart_init : Apart (init : TorrentMapShards I) where
  refines _ := ⟨_, Swarm.PeerMap.refines_default⟩
  allocated := nofun
  flightAllocated := nofun
  apart := nofun
  flightApart := nofun

namespace Apart

theorem of_eq (hs : Apart s) (hget : ∀ h, s'.get h = s.get h)
    (hpeerMap : ∀ arc, (s'.torrentData arc).peerMap = (s.torrentData arc).peerMap)
    (hallocated : s'.allocated = s.allocated) (hinFlight : s'.inFlight = s.inFlight) :
    Apart s' := by
  refine ⟨?_, ?_, ?_, ?_, ?_⟩
  · intro arc
    rw [hpeerMap]
    exact hs.refines arc
  · intro h arc harc
    rw [hget] at harc
    rw [hallocated]
    exact hs.allocated harc
  · intro worker flight hflight
    rw [hinFlight] at hflight
    rw [hallocated]
    exact hs.flightAllocated hflight
  · intro h h' arc harc harc'
    rw [hget] at harc harc'
    exact hs.apart harc harc'
  · intro worker flight h hflight harc
    rw [hinFlight] at hflight
    rw [hget] at harc
    exact hs.flightApart hflight harc

/-- An announce takes off: with a torrent that is stored. -/
theorem setInFlight (hs : Apart s) {flight : Flight I}
    (hget : s.get flight.request.infoHash = some flight.torrentData) (worker : Nat) :
    Apart (s.setInFlight worker (some flight)) := by
  have hflights : ∀ {w f}, (s.setInFlight worker (some flight)).inFlight w = some f →
      s.inFlight w = some f ∨ f = flight := by
    intro w f hf
    simp only [TorrentMapShards.setInFlight] at hf
    split at hf
    · cases hf
      exact .inr rfl
    · exact .inl hf
  refine ⟨hs.refines, hs.allocated, ?_, hs.apart, ?_⟩
  · intro w f hf
    rcases hflights hf with hold | rfl
    · exact hs.flightAllocated hold
    · exact hs.allocated hget
  · intro w f h hf harc
    rcases hflights hf with hold | rfl
    · exact hs.flightApart hold harc
    · exact hs.apart harc hget

omit [DecidableEq I] in
/-- Memory that a torrent or an announce points to is not given away again. -/
theorem torrentData_insertNew (h : InfoHash) {arc : Arc} (harc : arc.address < s.allocated) :
    (s.insertNew h).torrentData arc = s.torrentData arc := by
  apply if_neg
  rintro rfl
  exact Nat.lt_irrefl _ harc

theorem insertNew (hs : Apart s) (h : InfoHash) : Apart (s.insertNew h) := by
  have hnew : ∀ {h' arc}, (s.insertNew h).get h' = some arc →
      s.get h' = some arc ∨ h' = h ∧ arc = ⟨s.allocated⟩ := by
    intro h' arc harc
    rw [get_insertNew] at harc
    split at harc
    · rename_i hh
      cases harc
      exact .inr ⟨hh, rfl⟩
    · exact .inl harc
  refine ⟨?_, ?_, ?_, ?_, ?_⟩
  · intro arc
    by_cases harc : arc = ⟨s.allocated⟩
    · refine ⟨Swarm.Torrent.empty, ?_⟩
      rw [show (s.insertNew h).torrentData arc = TorrentData.default from if_pos harc]
      exact Swarm.PeerMap.refines_default
    · rw [show (s.insertNew h).torrentData arc = s.torrentData arc from if_neg harc]
      exact hs.refines arc
  · intro h' arc harc
    rcases hnew harc with harc | ⟨-, rfl⟩
    · exact Nat.lt_succ_of_lt (hs.allocated harc)
    · exact Nat.lt_succ_self _
  · intro worker flight hflight
    exact Nat.lt_succ_of_lt (hs.flightAllocated hflight)
  · intro h₁ h₂ arc h₁arc h₂arc
    rcases hnew h₁arc with h₁arc | ⟨rfl, rfl⟩
    · rcases hnew h₂arc with h₂arc | ⟨-, rfl⟩
      · exact hs.apart h₁arc h₂arc
      · exact absurd (hs.allocated h₁arc) (Nat.lt_irrefl _)
    · rcases hnew h₂arc with h₂arc | ⟨rfl, -⟩
      · exact absurd (hs.allocated h₂arc) (Nat.lt_irrefl _)
      · rfl
  · intro worker flight h' hflight harc
    rcases hnew harc with harc | ⟨-, heq⟩
    · exact hs.flightApart hflight harc
    · have hlt := hs.flightAllocated hflight
      rw [heq] at hlt
      exact absurd hlt (Nat.lt_irrefl _)

theorem lookUp (hs : Apart s) {worker : Nat} {request : AnnounceRequest} {ipAddress : I}
    {validUntil : ValidUntil} (h : s.lookUp worker request ipAddress validUntil = some s') :
    Apart s' := by
  unfold TorrentMapShards.lookUp at h
  split at h
  · cases h
  split at h
  · rename_i arc hget
    cases h
    exact hs.setInFlight hget worker
  · split at h
    · cases h
    · cases h
      refine (hs.insertNew request.infoHash).setInFlight ?_ worker
      rw [get_insertNew, if_pos rfl]

theorem erase (hs : Apart s) (h : InfoHash) :
    Apart (s.setShard (shardIndex h) ((s.shards (shardIndex h)).erase h)) := by
  have hget : ∀ {h' arc}, (s.setShard (shardIndex h) ((s.shards (shardIndex h)).erase h)).get h' =
      some arc → s.get h' = some arc := by
    intro h' arc harc
    rw [get_erase] at harc
    split at harc
    · cases harc
    · exact harc
  exact ⟨hs.refines, fun harc => hs.allocated (hget harc), hs.flightAllocated,
    fun harc harc' => hs.apart (hget harc) (hget harc'),
    fun hflight harc => hs.flightApart hflight (hget harc)⟩

/-- Storing a mark changes nothing that announces see. -/
theorem setPendingRemoval (hs : Apart s) (arc : Arc) (pendingRemoval : Bool) :
    Apart (s.setTorrentData arc { s.torrentData arc with pendingRemoval }) :=
  hs.of_eq (fun _ => rfl) (peerMap_setPendingRemoval s arc pendingRemoval) rfl rfl

theorem setPeerMap (hs : Apart s) (arc : Arc) {peerMap : PeerMap I}
    (hrefines : ∃ t, peerMap.Refines t) :
    Apart (s.setTorrentData arc { s.torrentData arc with peerMap }) := by
  refine ⟨?_, hs.allocated, hs.flightAllocated, hs.apart, hs.flightApart⟩
  intro arc'
  by_cases harc : arc' = arc
  · rw [show (s.setTorrentData arc _).torrentData arc' = _ from if_pos harc]
    exact hrefines
  · rw [show (s.setTorrentData arc _).torrentData arc' = s.torrentData arc' from if_neg harc]
    exact hs.refines arc'

theorem retain (hs : Apart s) (h : InfoHash) (arc : Arc) : Apart (s.retain config h arc) := by
  have hmarked : Apart (if s.accessList.allows config.accessListMode h then
      s.setTorrentData arc { s.torrentData arc with pendingRemoval := false } else s) := by
    split
    · exact hs.setPendingRemoval arc false
    · exact hs
  have hshards : (if s.accessList.allows config.accessListMode h then
      s.setTorrentData arc { s.torrentData arc with pendingRemoval := false } else s).shards =
      s.shards := by
    split <;> rfl
  unfold TorrentMapShards.retain
  simp only
  split
  · exact hmarked
  · rw [← hshards]
    exact hmarked.erase h

end Apart

theorem peers_announce (t : Torrent I) (request : AnnounceRequest) (ipAddress : I)
    (validUntil : ValidUntil) (k : ResponsePeer I) :
    (Torrent.announce t request ipAddress validUntil).peers k =
      if k = ⟨ipAddress, request.port⟩ then
        if request.status = .stopped then none else some (request.peer validUntil)
      else t.peers k := by
  have hcounted : (t.countCompleted request.isCompleted).peers = t.peers := by
    unfold Swarm.Torrent.countCompleted
    split <;> rfl
  unfold Torrent.announce Swarm.Torrent.announce
  by_cases hstatus : request.status = .stopped
  · simp [hstatus, Swarm.Torrent.remove, hcounted]
  · simp [hstatus, Swarm.Torrent.put, hcounted]

/-- What the second step of an announce does: the torrent it has looked up gets or
loses the peer, and what is owed to the peer changes with it. -/
structure Answered (config : Config) (flight : Flight I) (s s' : TorrentMapShards I) : Prop where
  get : ∀ h, s'.get h = s.get h
  refines : ∃ t, (s'.torrentData flight.torrentData).peerMap.Refines t
  announced : ∀ k, (s'.torrentData flight.torrentData).peerMap.get k =
    if k = flight.key then
      if flight.request.status = .stopped then none
      else some (flight.request.peer flight.validUntil)
    else (s.torrentData flight.torrentData).peerMap.get k
  others : ∀ {arc}, arc ≠ flight.torrentData → s'.torrentData arc = s.torrentData arc
  allocated : s'.allocated = s.allocated
  inFlight : ∀ {w f}, s'.inFlight w = some f → s.inFlight w = some f
  cleaner : s'.cleaner = s.cleaner
  accessList : s'.accessList = s.accessList
  clock : s'.clock = s.clock
  owed : ∀ {h k v}, s'.owed h k = some v →
    (h = flight.request.infoHash ∧ k = flight.key ∧ flight.request.status ≠ .stopped ∧
      s.accessList.allows config.accessListMode h ∧ v = flight.validUntil) ∨
    (¬ (h = flight.request.infoHash ∧ k = flight.key) ∧ s.owed h k = some v)

theorem answered_of_announce (hs : Apart s) {worker : Nat} {rng : Rng}
    {response : AnnounceResponse I} (h : s.announce config worker rng = some (response, s')) :
    ∃ flight, s.inFlight worker = some flight ∧ Answered config flight s s' := by
  obtain ⟨flight, hflight, h⟩ := Option.bind_eq_some_iff.mp h
  obtain ⟨t, ht⟩ := hs.refines flight.torrentData
  obtain ⟨response', messages, m', rng', hm', -, hrefines⟩ := announce_simulates config ht rng
    flight.request flight.ipAddress flight.validUntil
  simp only [hm', Option.bind_eq_bind, Option.bind_some, Option.pure_def, Option.some.injEq,
    Prod.mk.injEq] at h
  obtain ⟨-, rfl⟩ := h
  have hself : ((((s.setTorrentData flight.torrentData { s.torrentData flight.torrentData with
      peerMap := m' }).setInFlight worker none).setOwed config flight).torrentData
      flight.torrentData).peerMap = m' := by
    simp [setOwed, TorrentMapShards.setInFlight, setTorrentData]
  refine ⟨flight, hflight, fun _ => rfl, ?_, ?_, fun hne => if_neg hne, rfl, ?_, rfl, rfl, rfl, ?_⟩
  · rw [hself]
    exact ⟨_, hrefines⟩
  · intro k
    rw [hself, hrefines.peers, ht.peers]
    exact peers_announce t flight.request flight.ipAddress flight.validUntil k
  · intro w f hf
    simp only [setOwed, TorrentMapShards.setInFlight, setTorrentData] at hf
    split at hf
    · cases hf
    · exact hf
  · intro h k v hv
    simp only [setOwed] at hv
    split at hv
    · rename_i hhk
      split at hv
      · rename_i hallowed
        cases hv
        exact .inl ⟨hhk.1, hhk.2, hallowed.1, hallowed.2, rfl⟩
      · cases hv
    · rename_i hhk
      exact .inr ⟨hhk, hv⟩

theorem Apart.announce (hs : Apart s) {worker : Nat} {rng : Rng}
    {response : AnnounceResponse I} (h : s.announce config worker rng = some (response, s')) :
    Apart s' := by
  obtain ⟨flight, hflight, ha⟩ := answered_of_announce hs h
  refine ⟨?_, ?_, ?_, ?_, ?_⟩
  · intro arc
    by_cases harc : arc = flight.torrentData
    · rw [harc]
      exact ha.refines
    · rw [ha.others harc]
      exact hs.refines arc
  · intro h arc harc
    rw [ha.get] at harc
    rw [ha.allocated]
    exact hs.allocated harc
  · intro w f hf
    rw [ha.allocated]
    exact hs.flightAllocated (ha.inFlight hf)
  · intro h₁ h₂ arc h₁arc h₂arc
    rw [ha.get] at h₁arc h₂arc
    exact hs.apart h₁arc h₂arc
  · intro w f h hf harc
    rw [ha.get] at harc
    exact hs.flightApart (ha.inFlight hf) harc

/-- The steps in which the cleaning thread takes or leaves a lock and nothing else happens. -/
def Action.movesCleaner : Action I → Bool
  | .startRound _ | .lockRead | .unlockRead | .lockWrite | .unlockWrite => true
  | _ => false

/-- What is done in one step. -/
inductive Stepped (config : Config) (s : TorrentMapShards I) :
    Action I → TorrentMapShards I → Prop where
  | lookUp {worker request ipAddress validUntil s'}
      (h : s.lookUp worker request ipAddress validUntil = some s') :
      Stepped config s (.lookUp worker request ipAddress validUntil) s'
  | announce {worker rng response s'} (h : s.announce config worker rng = some (response, s')) :
      Stepped config s (.announce worker rng) s'
  | cleanTorrent {arc round i remaining numPeers messages peerMap}
      (hcleaner : s.cleaner = .cleaning round i remaining) (harc : arc ∈ remaining)
      (hclean : PeerMap.clean config (s.torrentData arc).peerMap round.now =
        some (numPeers, messages, peerMap)) :
      Stepped config s (.cleanTorrent arc)
        { s.setTorrentData arc { s.torrentData arc with peerMap } with
          cleaner := .cleaned round i (remaining.erase arc) arc numPeers }
  | storePendingRemoval {round i remaining arc numPeers}
      (hcleaner : s.cleaner = .cleaned round i remaining arc numPeers) :
      Stepped config s .storePendingRemoval
        { s.setTorrentData arc { s.torrentData arc with pendingRemoval := numPeers == 0 } with
          cleaner := .cleaning { round with totalNumPeers := round.totalNumPeers + numPeers } i
            remaining }
  | retain {infoHash arc round i remaining}
      (hcleaner : s.cleaner = .retaining round i remaining) (hget : s.get infoHash = some arc) :
      Stepped config s (.retain infoHash)
        { s.retain config infoHash arc with
          cleaner := .retaining round i (remaining.erase infoHash) }
  | moved {act cleaner} (hact : act.movesCleaner = true)
      (hnow : ∀ {now}, cleaner.now = some now → s.cleaner.now = some now ∨ now ≤ s.clock)
      (hremaining : ∀ {round i remaining}, cleaner = .cleaning round i remaining →
        remaining = (s.shards i).values)
      (hcleaned : ∀ {round i remaining arc numPeers},
        cleaner ≠ .cleaned round i remaining arc numPeers) :
      Stepped config s act { s with cleaner }
  | tick {clock} (h : s.clock ≤ clock) : Stepped config s (.tick clock) { s with clock }
  | updateAccessList {accessList} :
      Stepped config s (.updateAccessList accessList) { s with
        accessList := accessList
        owed := fun h k =>
          if accessList.allows config.accessListMode h then s.owed h k else none }

theorem step_cases {act : Action I} (h : step config s act = some s') :
    Stepped config s act s' := by
  cases act with
  | lookUp worker request ipAddress validUntil => exact .lookUp h
  | announce worker rng =>
    obtain ⟨⟨response, s''⟩, hannounce, rfl⟩ := Option.map_eq_some_iff.mp h
    exact .announce hannounce
  | startRound now =>
    simp only [step] at h
    split at h
    · split at h
      · rename_i hnow
        cases h
        refine .moved rfl ?_ nofun nofun
        intro now' h
        cases h
        exact .inr hnow
      · cases h
    · cases h
  | lockRead =>
    simp only [step] at h
    split at h
    · rename_i hcleaner
      split at h
      · cases h
        refine .moved rfl (fun h => .inl ?_) ?_ nofun
        · rw [hcleaner]
          exact h
        · intro round i remaining h
          cases h
          rfl
      · cases h
        exact .moved rfl nofun nofun nofun
    · cases h
  | cleanTorrent arc =>
    simp only [step] at h
    split at h
    · rename_i round i remaining hcleaner
      split at h
      · rename_i harc
        obtain ⟨⟨numPeers, messages, m'⟩, hclean, rfl⟩ := Option.map_eq_some_iff.mp h
        exact .cleanTorrent hcleaner harc hclean
      · cases h
    · cases h
  | storePendingRemoval =>
    simp only [step] at h
    split at h
    · rename_i hcleaner
      cases h
      exact .storePendingRemoval hcleaner
    · cases h
  | unlockRead =>
    simp only [step] at h
    split at h
    · rename_i hcleaner
      cases h
      refine .moved rfl (fun h => .inl ?_) nofun nofun
      rw [hcleaner]
      exact h
    · cases h
  | lockWrite =>
    simp only [step] at h
    split at h
    · rename_i hcleaner
      cases h
      refine .moved rfl (fun h => .inl ?_) nofun nofun
      rw [hcleaner]
      exact h
    · cases h
  | retain infoHash =>
    simp only [step] at h
    split at h
    · rename_i hcleaner
      split at h
      · rename_i arc harc
        split at h
        · cases h
          exact .retain hcleaner harc
        · cases h
      · cases h
    · cases h
  | unlockWrite =>
    simp only [step] at h
    split at h
    · rename_i hcleaner
      cases h
      refine .moved rfl (fun h => .inl ?_) nofun nofun
      rw [hcleaner]
      exact h
    · cases h
  | tick clock =>
    simp only [step] at h
    split at h
    · rename_i hle
      cases h
      exact .tick hle
    · cases h
  | updateAccessList accessList =>
    cases h
    exact .updateAccessList

theorem apart_step {act : Action I} (hs : Apart s) (h : step config s act = some s') :
    Apart s' := by
  cases step_cases h with
  | lookUp h => exact hs.lookUp h
  | announce h => exact hs.announce h
  | @cleanTorrent arc round i remaining numPeers messages peerMap hcleaner harc hclean =>
    obtain ⟨t, ht⟩ := hs.refines arc
    obtain ⟨messages', m', hm', hrefines⟩ := clean_simulates config ht round.now
    rw [hclean] at hm'
    cases hm'
    exact (hs.setPeerMap arc ⟨_, hrefines⟩).of_eq (fun _ => rfl) (fun _ => rfl) rfl rfl
  | storePendingRemoval hcleaner =>
    exact (hs.setPendingRemoval _ _).of_eq (fun _ => rfl) (fun _ => rfl) rfl rfl
  | retain hcleaner hget =>
    exact (hs.retain _ _).of_eq (fun _ => rfl) (fun _ => rfl) rfl rfl
  | moved hact hnow hremaining hcleaned =>
    exact hs.of_eq (fun _ => rfl) (fun _ => rfl) rfl rfl
  | tick hle => exact hs.of_eq (fun _ => rfl) (fun _ => rfl) rfl rfl
  | updateAccessList => exact hs.of_eq (fun _ => rfl) (fun _ => rfl) rfl rfl

end Aquatic.Udp.TorrentMapShards
