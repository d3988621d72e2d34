import Aquatic.Udp.PeerClientsSpec

/-!
# The sharded map refines one torrent for each info hash

Each step, whatever runs at the same time, is a step of a plain map: an announce at
the moment when it has the lock of its peer map, each torrent of a scrape when it is
read, each torrent of a cleaning round when its turn comes. The one step that the
plain map does not know is an announce to a torrent that was dropped on the way: it
changes nothing that is to be found.
-/

namespace Aquatic.Udp.TorrentMapShards
open Collections Transition
set_option autoImplicit false

variable {I : Type} [DecidableEq I] {config : Config} {s s' : TorrentMapShards I}

/-- A step that has locks, or one turn of the loop of a scrape. -/
inductive Call (I : Type) where
  | act (act : Action I)
  | scrape (infoHash : InfoHash)

inductive Answer (I : Type) where
  | silent
  | announced (response : AnnounceResponse I)
  | scraped (statistics : TorrentScrapeStatistics)

def scrapeTorrent (s : TorrentMapShards I) (infoHash : InfoHash) :
    Option TorrentScrapeStatistics :=
  if s.cleaner.writes (shardIndex infoHash) then none
  else
    match s.get infoHash with
    | some arc => PeerMap.scrapeStatistics (s.torrentData arc).peerMap
    | none => some ⟨0, 0, 0⟩

def call (config : Config) (s : TorrentMapShards I) :
    Call I → Option (Answer I × TorrentMapShards I)
  | .act (.announce worker rng) =>
    (s.announce config worker rng).map fun (response, s) => (.announced response, s)
  | .act act => (step config s act).map fun s => (.silent, s)
  | .scrape infoHash => (s.scrapeTorrent infoHash).map fun statistics => (.scraped statistics, s)

/-- An unknown torrent is an empty one. -/
structure Refines (s : TorrentMapShards I) (t : InfoHash → Torrent I) : Prop where
  stored : ∀ {h arc}, s.get h = some arc → (s.torrentData arc).peerMap.Refines (t h)
  unknown : ∀ {h}, s.get h = none → t h = Swarm.Torrent.empty

/-- The answer to an announce, as the torrent is when it is answered. -/
structure AnsweredFrom (config : Config) (t : Torrent I) (flight : Flight I)
    (response : AnnounceResponse I) : Prop where
  fixed : response.fixed = Torrent.announceFixed config t flight.request flight.ipAddress
  distinct : response.peers.Nodup
  registered : ∀ k ∈ response.peers, k ≠ flight.key ∧ t.peers k ≠ none
  length : response.peers.length =
    min (maxNumPeersToTake config flight.request) ((t.remove flight.key).count fun _ => true)

/-- The steps that leave every torrent as it is. -/
def Action.quiet : Action I → Bool
  | .announce .. | .cleanTorrent _ | .retain _ => false
  | _ => true

/-- What a step does to the torrents. -/
inductive Means (config : Config) (s : TorrentMapShards I) (t : InfoHash → Torrent I) :
    Call I → Answer I → (InfoHash → Torrent I) → Prop where
  | announced {worker rng flight response} (hflight : s.inFlight worker = some flight)
      (hfound : s.get flight.request.infoHash = some flight.torrentData)
      (hanswered : AnsweredFrom config (t flight.request.infoHash) flight response) :
      Means config s t (.act (.announce worker rng)) (.announced response)
        (Function.update t flight.request.infoHash (Torrent.announce
          (t flight.request.infoHash) flight.request flight.ipAddress flight.validUntil))
  | missed {worker rng flight response} (hflight : s.inFlight worker = some flight)
      (hdropped : s.get flight.request.infoHash ≠ some flight.torrentData) :
      Means config s t (.act (.announce worker rng)) (.announced response) t
  | scraped {h} :
      Means config s t (.scrape h) (.scraped (Torrent.scrapeStatistics (t h))) t
  | cleaned {arc h now} (hget : s.get h = some arc) (hnow : s.cleaner.now = some now) :
      Means config s t (.act (.cleanTorrent arc)) .silent
        (Function.update t h ((t h).clean now))
  | dropped {h} (hdropped : s.accessList.allows config.accessListMode h = false ∨
        ∀ k, (t h).peers k = none) :
      Means config s t (.act (.retain h)) .silent (Function.update t h Swarm.Torrent.empty)
  | kept {h} (hallowed : s.accessList.allows config.accessListMode h = true) :
      Means config s t (.act (.retain h)) .silent t
  | quiet {act} (hact : act.quiet = true) : Means config s t (.act act) .silent t

/-- Torrents are in the shard of their info hash, and what a round has still to visit of
a shard is stored there. -/
structure Placed (s : TorrentMapShards I) : Prop where
  apart : Apart s
  placed : ∀ {i h arc}, (s.shards i).get h = some arc → shardIndex h = i
  visited : ∀ arc ∈ s.cleaner.remaining, ∃ h, s.get h = some arc

theorem placed_init : Placed (init : TorrentMapShards I) := ⟨apart_init, nofun, nofun⟩

omit [DecidableEq I] in
theorem get_lookUp {worker : Nat} {request : AnnounceRequest} {ipAddress : I}
    {validUntil : ValidUntil} (h : s.lookUp worker request ipAddress validUntil = some s') :
    (∀ {h' arc}, s.get h' = some arc → s'.get h' = some arc) ∧ s'.cleaner = s.cleaner := by
  unfold lookUp at h
  split at h
  · cases h
  split at h
  · cases h
    exact ⟨id, rfl⟩
  · rename_i hget
    split at h
    · cases h
    cases h
    refine ⟨?_, rfl⟩
    intro h' arc harc
    change (s.insertNew request.infoHash).get h' = some arc
    rw [get_insertNew, if_neg]
    · exact harc
    · rintro rfl
      rw [hget] at harc
      cases harc

theorem Placed.lookUp (hs : Placed s) {worker : Nat} {request : AnnounceRequest} {ipAddress : I}
    {validUntil : ValidUntil} (h : s.lookUp worker request ipAddress validUntil = some s') :
    Placed s' := by
  obtain ⟨hget, hcleaner⟩ := get_lookUp h
  refine ⟨hs.apart.lookUp h, ?_, ?_⟩
  · unfold TorrentMapShards.lookUp at h
    split at h
    · cases h
    split at h
    · cases h
      exact hs.placed
    split at h
    · cases h
    cases h
    intro i h' arc harc
    simp only [TorrentMapShards.setInFlight, insertNew, setTorrentData, setShard] at harc
    split at harc
    · rename_i hi
      subst hi
      rw [IndexMap.get_insert] at harc
      split at harc
      · rename_i hh
        rw [hh]
      · exact hs.placed harc
    · exact hs.placed harc
  · intro arc harc
    rw [hcleaner] at harc
    obtain ⟨h', harc⟩ := hs.visited arc harc
    exact ⟨h', hget harc⟩

theorem Placed.announce (hs : Placed s) {worker : Nat} {rng : Rng}
    {response : AnnounceResponse I} (h : s.announce config worker rng = some (response, s')) :
    Placed s' := by
  obtain ⟨flight, -, ha⟩ := answered_of_announce hs.apart h
  refine ⟨hs.apart.announce h, ?_, ?_⟩
  · rw [shards_announce h]
    exact hs.placed
  · intro arc harc
    rw [ha.cleaner] at harc
    obtain ⟨h', harc⟩ := hs.visited arc harc
    exact ⟨h', (ha.get h').trans harc⟩

theorem Placed.step (hs : Placed s) {act : Action I} (h : step config s act = some s') :
    Placed s' := by
  have hapart := apart_step hs.apart h
  cases step_cases h with
  | lookUp h => exact hs.lookUp h
  | announce h => exact hs.announce h
  | cleanTorrent hcleaner harc hclean =>
    refine ⟨hapart, hs.placed, ?_⟩
    intro arc' harc'
    apply hs.visited arc'
    rw [hcleaner]
    exact List.mem_of_mem_erase harc'
  | storePendingRemoval hcleaner =>
    refine ⟨hapart, hs.placed, ?_⟩
    intro arc' harc'
    apply hs.visited arc'
    rw [hcleaner]
    exact harc'
  | @retain infoHash arc round i remaining hcleaner hget =>
    refine ⟨hapart, ?_, nofun⟩
    intro i h' arc' harc'
    change ((s.retain config infoHash arc).shards i).get h' = some arc' at harc'
    rw [shards_retain] at harc'
    split at harc'
    · rw [IndexMap.get_erase] at harc'
      split at harc'
      · cases harc'
      · exact hs.placed harc'
    · exact hs.placed harc'
  | @moved act cleaner hact hnow hremaining hcleaned =>
    refine ⟨hapart, hs.placed, ?_⟩
    intro arc harc
    cases cleaner with
    | cleaning round i remaining =>
      rw [hremaining rfl] at harc
      obtain ⟨⟨h, arc'⟩, hmem, rfl⟩ := List.mem_map.mp harc
      have hget := ((s.shards i).get_eq_some_iff h arc').mpr hmem
      refine ⟨h, ?_⟩
      change (s.shards (shardIndex h)).get h = some arc'
      rw [hs.placed hget]
      exact hget
    | cleaned => exact absurd rfl hcleaned
    | _ => cases harc
  | tick hle => exact ⟨hapart, hs.placed, hs.visited⟩
  | updateAccessList => exact ⟨hapart, hs.placed, hs.visited⟩

theorem call_act {act : Action I} (hact : ∀ worker rng, act ≠ .announce worker rng) :
    call config s (.act act) = (step config s act).map fun s => (.silent, s) := by
  cases act with
  | announce worker rng => exact absurd rfl (hact worker rng)
  | _ => rfl

theorem call_cases {c : Call I} {a : Answer I} (h : call config s c = some (a, s')) :
    (∃ worker rng response, c = .act (.announce worker rng) ∧ a = .announced response ∧
      s.announce config worker rng = some (response, s')) ∨
    (∃ act, c = .act act ∧ a = .silent ∧ (∀ worker rng, act ≠ .announce worker rng) ∧
      step config s act = some s') ∨
    (∃ infoHash statistics, c = .scrape infoHash ∧ a = .scraped statistics ∧ s' = s ∧
      s.scrapeTorrent infoHash = some statistics) := by
  cases c with
  | act act =>
    by_cases hact : ∃ worker rng, act = .announce worker rng
    · obtain ⟨worker, rng, rfl⟩ := hact
      obtain ⟨⟨response, s''⟩, hannounce, heq⟩ := Option.map_eq_some_iff.mp h
      cases heq
      exact .inl ⟨worker, rng, response, rfl, rfl, hannounce⟩
    · have hact : ∀ worker rng, act ≠ .announce worker rng := fun _ _ heq => hact ⟨_, _, heq⟩
      rw [call_act hact] at h
      obtain ⟨s'', hstep, heq⟩ := Option.map_eq_some_iff.mp h
      cases heq
      exact .inr (.inl ⟨act, rfl, rfl, hact, hstep⟩)
  | scrape infoHash =>
    obtain ⟨statistics, hscrape, heq⟩ := Option.map_eq_some_iff.mp h
    cases heq
    exact .inr (.inr ⟨infoHash, statistics, rfl, rfl, rfl, hscrape⟩)

theorem Placed.call (hs : Placed s) {c : Call I} {a : Answer I}
    (h : call config s c = some (a, s')) : Placed s' := by
  rcases call_cases h with ⟨worker, rng, response, rfl, rfl, hannounce⟩ |
    ⟨act, rfl, rfl, -, hstep⟩ | ⟨infoHash, statistics, rfl, rfl, rfl, -⟩
  · exact hs.announce hannounce
  · exact hs.step hstep
  · exact hs

namespace Refines
variable {t : InfoHash → Torrent I}

theorem of_eq (h : s.Refines t) (hget : ∀ h', s'.get h' = s.get h')
    (hpeerMap : ∀ arc, (s'.torrentData arc).peerMap = (s.torrentData arc).peerMap) :
    s'.Refines t := by
  refine ⟨?_, ?_⟩
  · intro h' arc harc
    rw [hget] at harc
    rw [hpeerMap]
    exact h.stored harc
  · intro h' hnone
    rw [hget] at hnone
    exact h.unknown hnone

/-- A peer map that is found changes, and all others stay as they are. -/
theorem update (h : s.Refines t) (hs : Apart s) {h' : InfoHash} {arc : Arc}
    (harc : s.get h' = some arc) (hget : ∀ h', s'.get h' = s.get h') {torrent : Torrent I}
    (hself : (s'.torrentData arc).peerMap.Refines torrent)
    (hothers : ∀ {arc'}, arc' ≠ arc → s'.torrentData arc' = s.torrentData arc') :
    s'.Refines (Function.update t h' torrent) := by
  refine ⟨?_, ?_⟩
  · intro h₂ arc₂ harc₂
    rw [hget] at harc₂
    by_cases hh : h₂ = h'
    · subst hh
      rw [harc] at harc₂
      cases harc₂
      rw [Function.update_self]
      exact hself
    · have hne : arc₂ ≠ arc := by
        rintro rfl
        exact hh (hs.apart harc₂ harc)
      rw [Function.update_of_ne hh, hothers hne]
      exact h.stored harc₂
  · intro h₂ hnone
    rw [hget] at hnone
    have hh : h₂ ≠ h' := by
      rintro rfl
      rw [harc] at hnone
      cases hnone
    rw [Function.update_of_ne hh]
    exact h.unknown hnone

/-- An unknown torrent becomes one without peers. -/
theorem lookUp (h : s.Refines t) (hs : Apart s) {worker : Nat} {request : AnnounceRequest}
    {ipAddress : I} {validUntil : ValidUntil}
    (hstep : s.lookUp worker request ipAddress validUntil = some s') : s'.Refines t := by
  unfold TorrentMapShards.lookUp at hstep
  split at hstep
  · cases hstep
  split at hstep
  · cases hstep
    exact ⟨h.stored, h.unknown⟩
  · rename_i hget
    split at hstep
    · cases hstep
    cases hstep
    refine ⟨?_, ?_⟩
    · intro h' arc harc
      change (s.insertNew request.infoHash).get h' = some arc at harc
      change ((s.insertNew request.infoHash).torrentData arc).peerMap.Refines (t h')
      rw [get_insertNew] at harc
      split at harc
      · rename_i hh
        cases harc
        rw [hh, h.unknown hget]
        rw [show (s.insertNew request.infoHash).torrentData ⟨s.allocated⟩ = TorrentData.default
          from if_pos rfl]
        exact Swarm.PeerMap.refines_default
      · rw [Apart.torrentData_insertNew request.infoHash (hs.allocated harc)]
        exact h.stored harc
    · intro h' hnone
      change (s.insertNew request.infoHash).get h' = none at hnone
      rw [get_insertNew] at hnone
      split at hnone
      · cases hnone
      · exact h.unknown hnone

theorem retain (h : s.Refines t) {h' : InfoHash} {arc : Arc} (harc : s.get h' = some arc) :
    ∃ t', Means config s t (.act (.retain h')) .silent t' ∧
      (s.retain config h' arc).Refines t' := by
  cases hretains : s.retains config h' (s.torrentData arc) with
  | true =>
    refine ⟨t, .kept ?_, h.of_eq ?_ (peerMap_retain h' arc)⟩
    · by_contra hforbidden
      simp [retains, hforbidden] at hretains
    · intro h₂
      rw [get_retain, if_neg]
      rintro ⟨hfalse, -⟩
      rw [hretains] at hfalse
      cases hfalse
  | false =>
    refine ⟨Function.update t h' Swarm.Torrent.empty, .dropped ?_, ?_, ?_⟩
    · cases hallowed : s.accessList.allows config.accessListMode h' with
      | false => exact .inl rfl
      | true =>
        refine .inr ?_
        simp only [retains, hallowed, Bool.not_true, Bool.false_eq_true, if_false,
          Bool.not_eq_false', Bool.and_eq_true] at hretains
        exact (h.stored harc).isEmpty_iff.mp hretains.2
    · intro h₂ arc₂ harc₂
      rw [get_retain] at harc₂
      split at harc₂
      · cases harc₂
      · rename_i hne
        have hh : h₂ ≠ h' := fun hh => hne ⟨hretains, hh⟩
        rw [Function.update_of_ne hh, peerMap_retain]
        exact h.stored harc₂
    · intro h₂ hnone
      rw [get_retain] at hnone
      by_cases hh : h₂ = h'
      · rw [hh, Function.update_self]
      · rw [Function.update_of_ne hh]
        rw [if_neg fun hdropped => hh hdropped.2] at hnone
        exact h.unknown hnone

end Refines

/-- The second step of an announce, for the torrent that its peer map refines. -/
theorem announce_answers {t : Torrent I} {worker : Nat} {rng : Rng} {flight : Flight I}
    (hflight : s.inFlight worker = some flight)
    (ht : (s.torrentData flight.torrentData).peerMap.Refines t) {response : AnnounceResponse I}
    (h : s.announce config worker rng = some (response, s')) :
    AnsweredFrom config t flight response ∧
      (s'.torrentData flight.torrentData).peerMap.Refines
        (Torrent.announce t flight.request flight.ipAddress flight.validUntil) := by
  obtain ⟨r, m', rng', hr, hanswered, hrefines⟩ := Swarm.PeerMap.announce_refines ht rng
    flight.request.status flight.request.isCompleted flight.key
    (flight.request.peer flight.validUntil) (maxNumPeersToTake config flight.request)
  obtain ⟨flight', hflight', h⟩ := Option.bind_eq_some_iff.mp h
  rw [hflight] at hflight'
  cases hflight'
  obtain ⟨⟨response', messages, peerMap, rng''⟩, hannounce, h⟩ := Option.bind_eq_some_iff.mp h
  simp only [PeerMap.announce] at hannounce
  rw [show (⟨flight.ipAddress, flight.request.port⟩ : ResponsePeer I) = flight.key from rfl, hr]
    at hannounce
  cases hannounce
  obtain ⟨rfl, rfl⟩ := Prod.mk.inj (Option.some.inj h)
  refine ⟨⟨?_, hanswered.distinct, ?_, hanswered.length⟩, ?_⟩
  · simp only [announceResponse, Torrent.announceFixed, hanswered.seeders, hanswered.leechers]
    rfl
  · intro k hk
    have hothers := hanswered.registered k hk
    simp only [Swarm.Torrent.remove] at hothers
    split at hothers
    · exact absurd rfl hothers
    · exact ⟨by assumption, hothers⟩
  · simp only [setOwed, setInFlight, setTorrentData]
    exact hrefines

theorem Refines.announce {t : InfoHash → Torrent I} (h : s.Refines t) (hs : Apart s)
    {worker : Nat} {rng : Rng} {response : AnnounceResponse I}
    (hannounce : s.announce config worker rng = some (response, s')) :
    ∃ t', Means config s t (.act (.announce worker rng)) (.announced response) t' ∧
      s'.Refines t' := by
  obtain ⟨flight, hflight, ha⟩ := answered_of_announce hs hannounce
  by_cases hfound : s.get flight.request.infoHash = some flight.torrentData
  · obtain ⟨hanswered, hself⟩ := announce_answers hflight (h.stored hfound) hannounce
    exact ⟨_, .announced hflight hfound hanswered, h.update hs hfound ha.get hself ha.others⟩
  · refine ⟨t, .missed hflight hfound, ?_, ?_⟩
    · intro h' arc harc
      rw [ha.get] at harc
      have hne : arc ≠ flight.torrentData := by
        rintro rfl
        rw [hs.flightApart hflight harc] at harc
        exact hfound harc
      rw [ha.others hne]
      exact h.stored harc
    · intro h' hnone
      rw [ha.get] at hnone
      exact h.unknown hnone

theorem Refines.step {t : InfoHash → Torrent I} (h : s.Refines t) (hs : Placed s)
    {act : Action I} (hact : ∀ worker rng, act ≠ .announce worker rng)
    (hstep : step config s act = some s') :
    ∃ t', Means config s t (.act act) .silent t' ∧ s'.Refines t' := by
  cases step_cases hstep with
  | lookUp hlookUp => exact ⟨t, .quiet rfl, h.lookUp hs.apart hlookUp⟩
  | announce => exact absurd rfl (hact _ _)
  | @cleanTorrent arc round i remaining numPeers messages peerMap hcleaner harc hclean =>
    obtain ⟨h', hget⟩ := hs.visited arc (by rw [hcleaner]; exact harc)
    obtain ⟨messages', m', hm', hrefines⟩ := clean_simulates config (h.stored hget) round.now
    rw [hclean] at hm'
    cases hm'
    have hnow : s.cleaner.now = some round.now := by rw [hcleaner]; rfl
    refine ⟨Function.update t h' ((t h').clean round.now), .cleaned hget hnow, ?_⟩
    apply h.update hs.apart hget
    · exact fun _ => rfl
    · change ((s.setTorrentData arc _).torrentData arc).peerMap.Refines _
      rw [show (s.setTorrentData arc _).torrentData arc = _ from if_pos rfl]
      exact hrefines
    · exact fun hne => if_neg hne
  | @storePendingRemoval round i remaining arc numPeers hcleaner =>
    exact ⟨t, .quiet rfl, h.of_eq (fun _ => rfl) (peerMap_setPendingRemoval s arc (numPeers == 0))⟩
  | retain hcleaner hget =>
    obtain ⟨t', hmeans, hrefines⟩ := h.retain hget
    exact ⟨t', hmeans, hrefines.stored, hrefines.unknown⟩
  | @moved act cleaner hact hnow hremaining hcleaned =>
    refine ⟨t, .quiet ?_, h.stored, h.unknown⟩
    cases act with
    | startRound | lockRead | unlockRead | lockWrite | unlockWrite => rfl
    | _ => cases hact
  | tick hle => exact ⟨t, .quiet rfl, h.stored, h.unknown⟩
  | updateAccessList => exact ⟨t, .quiet rfl, h.stored, h.unknown⟩

theorem Refines.scrapeTorrent {t : InfoHash → Torrent I} (h : s.Refines t) {infoHash : InfoHash}
    {statistics : TorrentScrapeStatistics}
    (hscrape : s.scrapeTorrent infoHash = some statistics) :
    statistics = Torrent.scrapeStatistics (t infoHash) := by
  unfold TorrentMapShards.scrapeTorrent at hscrape
  split at hscrape
  · cases hscrape
  split at hscrape
  · rename_i arc harc
    rw [scrapeStatistics_eq (h.stored harc)] at hscrape
    exact (Option.some.inj hscrape).symm
  · rename_i hnone
    cases hscrape
    rw [h.unknown hnone]
    simp [Torrent.scrapeStatistics, Swarm.Torrent.seeders, Swarm.Torrent.leechers,
      Swarm.Torrent.count, Swarm.Torrent.empty, usizeToI32Checked]

/-- Every run of any number of socket workers and the cleaning thread, step by step. -/
theorem shards_refine_torrents (config : Config) (cs : List (Call I)) :
    Follows (call config) (Means config) Refines init (fun _ => Swarm.Torrent.empty) cs := by
  refine follows_of_simulation (fun hs h => hs.call h) ?_ placed_init ⟨nofun, fun _ => rfl⟩ cs
  intro s t c a s' hs h hcall
  rcases call_cases hcall with ⟨worker, rng, response, rfl, rfl, hannounce⟩ |
    ⟨act, rfl, rfl, hact, hstep⟩ | ⟨infoHash, statistics, rfl, rfl, rfl, hscrape⟩
  · exact h.announce hs.apart hannounce
  · exact h.step hs hact hstep
  · refine ⟨t, ?_, h⟩
    rw [h.scrapeTorrent hscrape]
    exact .scraped

end Aquatic.Udp.TorrentMapShards
