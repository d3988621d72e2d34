import Aquatic.Udp.LostAnnounces
import Aquatic.Udp.ShardsRefinement

/-!
# What a cleaning round has done when it ends

A round goes through the shards while announces go on. Each torrent waits for its
turn, is cleaned, and is kept or dropped. What is found when the round has ended has
been through all of this, or has come in the meantime.
-/

namespace Aquatic.Udp
open Collections Transition
set_option autoImplicit false

namespace Cleaner

/-- The turn of a torrent is still to come. -/
def waits : Cleaner → InfoHash → Arc → Bool
  | idle, _, _ => false
  | atShard _ i, h, _ => decide (i ≤ shardIndex h)
  | cleaning _ i remaining, h, arc =>
    decide (i < shardIndex h) || (decide (i = shardIndex h) && remaining.contains arc)
  | cleaned _ i remaining _ _, h, arc =>
    decide (i < shardIndex h) || (decide (i = shardIndex h) && remaining.contains arc)
  | unlocked _ i, h, _ => decide (i < shardIndex h)
  | retaining _ i _, h, _ => decide (i < shardIndex h)

/-- Whether a torrent is kept has been decided. -/
def settled : Cleaner → InfoHash → Bool
  | idle, _ => true
  | atShard _ i, h => decide (shardIndex h < i)
  | cleaning _ i _, h => decide (shardIndex h < i)
  | cleaned _ i _ _ _, h => decide (shardIndex h < i)
  | unlocked _ i, h => decide (shardIndex h < i)
  | retaining _ i remaining, h =>
    decide (shardIndex h < i) || (decide (shardIndex h = i) && !remaining.contains h)

end Cleaner

namespace TorrentMapShards
variable {I : Type} [DecidableEq I] {config : Config} {s s' : TorrentMapShards I}

def Action.startsRound : Action I → Bool
  | .startRound _ => true
  | _ => false

/-- The step of an announce of a peer to a torrent. -/
def Announces (s : TorrentMapShards I) (h : InfoHash) (k : ResponsePeer I) : Action I → Prop
  | .announce worker _ => ∃ flight, s.inFlight worker = some flight ∧
      flight.request.infoHash = h ∧ flight.key = k
  | _ => False

def LooksUp (h : InfoHash) : Action I → Prop
  | .lookUp _ request _ _ => request.infoHash = h
  | _ => False

/-- The access list forbids a torrent after the step. -/
def Forbids (config : Config) (h : InfoHash) (s : TorrentMapShards I) : Prop :=
  s.accessList.allows config.accessListMode h = false

/-- Where the cleaning thread goes when it takes or leaves a lock. -/
inductive Moves (s : TorrentMapShards I) : Action I → Cleaner → Prop where
  | startRound {now} (hcleaner : s.cleaner = .idle) :
      Moves s (.startRound now) (.atShard ⟨now, 0, 0⟩ 0)
  | lockRead {round i} (hcleaner : s.cleaner = .atShard round i) (hi : i < numShards) :
      Moves s .lockRead (.cleaning round i (s.shards i).values)
  | endRound {round i} (hcleaner : s.cleaner = .atShard round i) (hi : numShards ≤ i) :
      Moves s .lockRead .idle
  | unlockRead {round i} (hcleaner : s.cleaner = .cleaning round i []) :
      Moves s .unlockRead (.unlocked round i)
  | lockWrite {round i} (hcleaner : s.cleaner = .unlocked round i) :
      Moves s .lockWrite (.retaining round i (s.shards i).keys)
  | unlockWrite {round i round'} (hcleaner : s.cleaner = .retaining round i [])
      (hnow : round'.now = round.now) : Moves s .unlockWrite (.atShard round' (i + 1))

theorem moves_of_step {act : Action I} (hact : act.movesCleaner = true)
    (h : step config s act = some s') : Moves s act s'.cleaner := by
  cases act with
  | startRound now =>
    simp only [step] at h
    split at h
    · rename_i hcleaner
      split at h
      · cases h
        exact .startRound hcleaner
      · cases h
    · cases h
  | lockRead =>
    simp only [step] at h
    split at h
    · rename_i hcleaner
      split at h
      · rename_i hi
        cases h
        exact .lockRead hcleaner hi
      · rename_i hi
        cases h
        exact .endRound hcleaner (Nat.le_of_not_lt hi)
    · cases h
  | unlockRead =>
    simp only [step] at h
    split at h
    · rename_i hcleaner
      cases h
      exact .unlockRead hcleaner
    · cases h
  | lockWrite =>
    simp only [step] at h
    split at h
    · rename_i hcleaner
      cases h
      exact .lockWrite hcleaner
    · cases h
  | unlockWrite =>
    simp only [step] at h
    split at h
    · rename_i hcleaner
      cases h
      exact .unlockWrite hcleaner rfl
    · cases h
  | _ => cases hact

theorem shardIndex_lt (h : InfoHash) : shardIndex h < numShards := Nat.mod_lt _ (by decide)

/-- A torrent that is stored waits as long as its turn has not come. -/
theorem waits_step {act : Action I} (h : step config s act = some s')
    (hstart : act.startsRound = false) {h' : InfoHash} {arc : Arc} (hget : s.get h' = some arc)
    (hwaits : s'.cleaner.waits h' arc = false) :
    s.cleaner.waits h' arc = false ∨ act = .cleanTorrent arc := by
  have hmem : arc ∈ (s.shards (shardIndex h')).values :=
    List.mem_map.mpr ⟨(h', arc), ((s.shards _).get_eq_some_iff h' arc).mp hget, rfl⟩
  cases step_cases h with
  | lookUp h =>
    rw [(get_lookUp h).2] at hwaits
    exact .inl hwaits
  | announce h =>
    obtain ⟨flight, -, h⟩ := Option.bind_eq_some_iff.mp h
    obtain ⟨r, -, h⟩ := Option.bind_eq_some_iff.mp h
    cases h
    exact .inl hwaits
  | @cleanTorrent arc' round i remaining numPeers messages peerMap hcleaner harc hclean =>
    by_cases hsame : arc' = arc
    · exact .inr (by rw [hsame])
    · refine .inl ?_
      rw [hcleaner]
      simp only [Cleaner.waits, List.contains_eq_mem, List.mem_erase_of_ne (Ne.symm hsame)]
        at hwaits ⊢
      exact hwaits
  | storePendingRemoval hcleaner =>
    rw [hcleaner]
    exact .inl hwaits
  | retain hcleaner hget =>
    rw [hcleaner]
    exact .inl hwaits
  | moved hact hnow hremaining hcleaned =>
    refine .inl ?_
    cases moves_of_step hact h with
    | startRound => cases hstart
    | @lockRead round i hcleaner hi =>
      rw [hcleaner]
      simp only [Cleaner.waits, Bool.or_eq_false_iff, decide_eq_false_iff_not, Bool.and_eq_false_imp,
        decide_eq_true_eq, List.contains_eq_mem] at hwaits ⊢
      intro hle
      rcases Nat.lt_or_eq_of_le hle with hlt | rfl
      · exact hwaits.1 hlt
      · exact hwaits.2 rfl hmem
    | @endRound round i hcleaner hi =>
      have hlt := shardIndex_lt h'
      rw [hcleaner]
      simp only [Cleaner.waits, decide_eq_false_iff_not]
      omega
    | unlockRead hcleaner =>
      rw [hcleaner]
      simpa [Cleaner.waits] using hwaits
    | lockWrite hcleaner =>
      rw [hcleaner]
      exact hwaits
    | unlockWrite hcleaner hnow =>
      rw [hcleaner]
      simp only [Cleaner.waits, decide_eq_false_iff_not] at hwaits ⊢
      omega
  | tick hle => exact .inl hwaits
  | updateAccessList => exact .inl hwaits

/-- A torrent that is found is settled where it was retained. -/
theorem settled_step {act : Action I} (h : step config s act = some s')
    (hstart : act.startsRound = false) {h' : InfoHash} {arc : Arc} (hget : s'.get h' = some arc)
    (hsettled : s'.cleaner.settled h' = true) :
    s.cleaner.settled h' = true ∨ act = .retain h' := by
  cases step_cases h with
  | lookUp h =>
    rw [(get_lookUp h).2] at hsettled
    exact .inl hsettled
  | announce h =>
    obtain ⟨flight, -, h⟩ := Option.bind_eq_some_iff.mp h
    obtain ⟨r, -, h⟩ := Option.bind_eq_some_iff.mp h
    cases h
    exact .inl hsettled
  | cleanTorrent hcleaner harc hclean =>
    rw [hcleaner]
    exact .inl hsettled
  | storePendingRemoval hcleaner =>
    rw [hcleaner]
    exact .inl hsettled
  | @retain h₂ arc₂ round i remaining hcleaner hget₂ =>
    by_cases hsame : h' = h₂
    · exact .inr (by rw [hsame])
    · refine .inl ?_
      rw [hcleaner]
      simp only [Cleaner.settled, List.contains_eq_mem, List.mem_erase_of_ne hsame] at hsettled ⊢
      exact hsettled
  | moved hact hnow hremaining hcleaned =>
    refine .inl ?_
    cases moves_of_step hact h with
    | startRound => cases hstart
    | lockRead hcleaner hi =>
      rw [hcleaner]
      exact hsettled
    | @endRound round i hcleaner hi =>
      have hlt := shardIndex_lt h'
      rw [hcleaner]
      simp only [Cleaner.settled, decide_eq_true_eq]
      omega
    | unlockRead hcleaner =>
      rw [hcleaner]
      exact hsettled
    | @lockWrite round i hcleaner =>
      have hmem : (h', arc) ∈ (s.shards (shardIndex h')).entries :=
        ((s.shards _).get_eq_some_iff h' arc).mp hget
      rw [hcleaner]
      simp only [Cleaner.settled, Bool.or_eq_true, decide_eq_true_eq, Bool.and_eq_true,
        Bool.not_eq_true', List.contains_eq_mem, decide_eq_false_iff_not] at hsettled ⊢
      rcases hsettled with hlt | ⟨rfl, hkeys⟩
      · exact hlt
      · exact absurd (List.mem_map.mpr ⟨_, hmem, rfl⟩) hkeys
    | unlockWrite hcleaner hnow =>
      rw [hcleaner]
      simp only [Cleaner.settled, decide_eq_true_eq, Bool.or_eq_true, Bool.and_eq_true] at hsettled ⊢
      rcases Nat.lt_or_eq_of_le (Nat.le_of_lt_succ hsettled) with hlt | heq
      · exact .inl hlt
      · exact .inr ⟨heq, rfl⟩
  | tick hle => exact .inl hsettled
  | updateAccessList => exact .inl hsettled

theorem get_step (hs : Apart s) {act : Action I} (h : step config s act = some s')
    {h' : InfoHash} {arc : Arc} (hget : s'.get h' = some arc) :
    s.get h' = some arc ∨ LooksUp h' act ∧ s'.torrentData arc = TorrentData.default := by
  cases step_cases h with
  | @lookUp worker request ipAddress validUntil s' h =>
    unfold lookUp at h
    split at h
    · cases h
    split at h
    · cases h
      exact .inl hget
    split at h
    · cases h
    cases h
    change (s.insertNew request.infoHash).get h' = some arc at hget
    rw [get_insertNew] at hget
    split at hget
    · rename_i hh
      cases hget
      exact .inr ⟨hh.symm, if_pos rfl⟩
    · exact .inl hget
  | announce h =>
    obtain ⟨flight, -, ha⟩ := answered_of_announce hs h
    rw [ha.get] at hget
    exact .inl hget
  | retain hcleaner hget₂ =>
    change (s.retain config _ _).get h' = some arc at hget
    rw [get_retain] at hget
    split at hget
    · cases hget
    · exact .inl hget
  | _ => exact .inl hget

/-- What a torrent holds changes when it is cleaned, and by announces to it. -/
theorem peerMap_step (hs : Apart s) {act : Action I} (h : step config s act = some s')
    {h' : InfoHash} {arc : Arc} (hget : s.get h' = some arc) :
    (act ≠ .cleanTorrent arc ∧ (s'.torrentData arc).peerMap = (s.torrentData arc).peerMap) ∨
    (∃ round i remaining numPeers messages, s.cleaner = .cleaning round i remaining ∧
      arc ∈ remaining ∧ PeerMap.clean config (s.torrentData arc).peerMap round.now =
        some (numPeers, messages, (s'.torrentData arc).peerMap) ∧
      s'.cleaner = .cleaned round i (remaining.erase arc) arc numPeers) ∨
    (∃ worker rng flight, act = .announce worker rng ∧ s.inFlight worker = some flight ∧
      flight.request.infoHash = h' ∧ flight.torrentData = arc ∧ Answered config flight s s') := by
  cases step_cases h with
  | @lookUp worker request ipAddress validUntil s' h =>
    refine .inl ⟨nofun, ?_⟩
    unfold lookUp at h
    split at h
    · cases h
    split at h
    · cases h
      rfl
    split at h
    · cases h
    cases h
    exact congrArg TorrentData.peerMap
      (Apart.torrentData_insertNew request.infoHash (hs.allocated hget))
  | @announce worker rng response s' h =>
    obtain ⟨flight, hflight, ha⟩ := answered_of_announce hs h
    by_cases harc : arc = flight.torrentData
    · subst harc
      exact .inr (.inr
        ⟨worker, rng, flight, rfl, hflight, (hs.flightApart hflight hget).symm, rfl, ha⟩)
    · exact .inl ⟨nofun, congrArg TorrentData.peerMap (ha.others harc)⟩
  | @cleanTorrent arc' round i remaining numPeers messages peerMap hcleaner harc hclean =>
    by_cases hsame : arc' = arc
    · subst hsame
      refine .inr (.inl ⟨round, i, remaining, numPeers, messages, hcleaner, harc, ?_, rfl⟩)
      rw [hclean]
      change _ = some (_, _, ((s.setTorrentData arc' _).torrentData arc').peerMap)
      rw [show (s.setTorrentData arc' _).torrentData arc' = _ from if_pos rfl]
    · refine .inl ⟨?_, congrArg TorrentData.peerMap (if_neg fun heq => hsame heq.symm)⟩
      rintro ⟨⟩
      exact hsame rfl
  | @storePendingRemoval round i remaining arc' numPeers hcleaner =>
    exact .inl ⟨nofun, peerMap_setPendingRemoval s arc' (numPeers == 0) arc⟩
  | @retain h₂ arc₂ round i remaining hcleaner hget₂ =>
    exact .inl ⟨nofun, peerMap_retain h₂ arc₂ arc⟩
  | moved hact =>
    refine .inl ⟨?_, rfl⟩
    rintro rfl
    cases hact
  | tick => exact .inl ⟨nofun, rfl⟩
  | updateAccessList => exact .inl ⟨nofun, rfl⟩

/-- A cleaned torrent has the peers that are valid, and has been counted. -/
theorem get_clean (hs : Apart s) {arc : Arc} {now : SecondsSinceServerStart} {numPeers : Nat}
    {messages : List StatisticsMessage} {peerMap : PeerMap I}
    (hclean : PeerMap.clean config (s.torrentData arc).peerMap now =
      some (numPeers, messages, peerMap)) :
    (∀ k, peerMap.get k =
      ((s.torrentData arc).peerMap.get k).filter fun peer => peer.validUntil.valid now) ∧
      (peerMap.isEmpty = true → numPeers = 0) := by
  obtain ⟨t, ht⟩ := hs.refines arc
  obtain ⟨messages', m', hm', hrefines⟩ := clean_simulates config ht now
  rw [hclean] at hm'
  cases hm'
  refine ⟨?_, ?_⟩
  · intro k
    rw [hrefines.peers, ht.peers]
    rfl
  · intro hempty
    have hnone := hrefines.isEmpty_iff.mp hempty
    simp [Swarm.Torrent.count, hnone]

theorem inFlight_step (hs : Apart s) {act : Action I} (h : step config s act = some s')
    {worker : Nat} {flight : Flight I} (hflight : s'.inFlight worker = some flight) :
    s.inFlight worker = some flight ∨ LooksUp flight.request.infoHash act := by
  have htakesOff : ∀ {s₁ : TorrentMapShards I} {w : Nat} {f : Flight I},
      (s₁.setInFlight w (some f)).inFlight worker = some flight →
      s₁.inFlight worker = some flight ∨ f = flight := by
    intro s₁ w f hf
    simp only [setInFlight] at hf
    split at hf
    · exact .inr (Option.some.inj hf)
    · exact .inl hf
  cases step_cases h with
  | @lookUp w request ipAddress validUntil s' h =>
    unfold lookUp at h
    split at h
    · cases h
    split at h
    · cases h
      rcases htakesOff hflight with hold | rfl
      · exact .inl hold
      · exact .inr rfl
    split at h
    · cases h
    cases h
    rcases htakesOff hflight with hold | rfl
    · exact .inl hold
    · exact .inr rfl
  | announce h =>
    obtain ⟨flight', -, ha⟩ := answered_of_announce hs h
    exact .inl (ha.inFlight hflight)
  | retain =>
    change (s.retain config _ _).inFlight worker = some flight at hflight
    rw [inFlight_retain] at hflight
    exact .inl hflight
  | _ => exact .inl hflight

/-- The mark of a torrent changes when it is stored and when the torrent is retained. -/
theorem pendingRemoval_step (hs : Apart s) {act : Action I} (h : step config s act = some s')
    {h' : InfoHash} {arc : Arc} (hget : s.get h' = some arc) :
    ((s'.torrentData arc).pendingRemoval = (s.torrentData arc).pendingRemoval ∧
      ∀ {round i remaining numPeers}, s.cleaner = .cleaned round i remaining arc numPeers →
        s'.cleaner = .cleaned round i remaining arc numPeers) ∨
    (∃ round i remaining numPeers, s.cleaner = .cleaned round i remaining arc numPeers ∧
      (s'.torrentData arc).pendingRemoval = (numPeers == 0)) ∨
    act = .retain h' := by
  cases step_cases h with
  | @lookUp worker request ipAddress validUntil s' h =>
    refine .inl ⟨?_, fun hcleaner => (get_lookUp h).2.trans hcleaner⟩
    unfold lookUp at h
    split at h
    · cases h
    split at h
    · cases h
      rfl
    split at h
    · cases h
    cases h
    exact congrArg TorrentData.pendingRemoval
      (Apart.torrentData_insertNew request.infoHash (hs.allocated hget))
  | announce h =>
    obtain ⟨flight, -, h⟩ := Option.bind_eq_some_iff.mp h
    obtain ⟨r, -, h⟩ := Option.bind_eq_some_iff.mp h
    cases h
    refine .inl ⟨?_, id⟩
    simp only [setOwed, setInFlight, setTorrentData]
    split
    · rename_i harc
      rw [harc]
    · rfl
  | cleanTorrent hcleaner =>
    refine .inl ⟨?_, ?_⟩
    · simp only [setTorrentData]
      split
      · rename_i harc
        rw [harc]
      · rfl
    · intro round' i' remaining' numPeers' hcleaned
      cases hcleaner.symm.trans hcleaned
  | @storePendingRemoval round i remaining arc' numPeers hcleaner =>
    by_cases harc : arc = arc'
    · subst harc
      exact .inr (.inl ⟨round, i, remaining, numPeers, hcleaner,
        congrArg TorrentData.pendingRemoval (if_pos rfl)⟩)
    · refine .inl ⟨congrArg TorrentData.pendingRemoval (if_neg harc), ?_⟩
      intro round' i' remaining' numPeers' hcleaned
      cases hcleaner.symm.trans hcleaned
      exact absurd rfl harc
  | @retain h₂ arc₂ round i remaining hcleaner hget₂ =>
    by_cases hh : h' = h₂
    · exact .inr (.inr (by rw [hh]))
    · have hne : arc ≠ arc₂ := by
        rintro rfl
        exact hh (hs.apart hget hget₂)
      refine .inl ⟨?_, ?_⟩
      · simp only [TorrentMapShards.retain]
        split <;> split
        · exact congrArg TorrentData.pendingRemoval (if_neg hne)
        · rfl
        · exact congrArg TorrentData.pendingRemoval (if_neg hne)
        · rfl
      · intro round' i' remaining' numPeers' hcleaned
        cases hcleaner.symm.trans hcleaned
  | moved hact =>
    refine .inl ⟨rfl, ?_⟩
    intro round i remaining numPeers hcleaned
    cases moves_of_step hact h with
    | startRound hcleaner | lockRead hcleaner | endRound hcleaner =>
      cases hcleaner.symm.trans hcleaned
    | unlockRead hcleaner | lockWrite hcleaner | unlockWrite hcleaner =>
      cases hcleaner.symm.trans hcleaned
  | tick => exact .inl ⟨rfl, id⟩
  | updateAccessList => exact .inl ⟨rfl, id⟩

/-- The cleaner has just cleaned a torrent if it has done so before or in this step. -/
theorem cleaned_step {act : Action I} (h : step config s act = some s') {round : Round} {i : Nat}
    {remaining : List Arc} {arc : Arc} {numPeers : Nat}
    (hcleaner : s'.cleaner = .cleaned round i remaining arc numPeers) :
    s.cleaner = .cleaned round i remaining arc numPeers ∨ act = .cleanTorrent arc := by
  cases step_cases h with
  | lookUp h =>
    rw [(get_lookUp h).2] at hcleaner
    exact .inl hcleaner
  | announce h =>
    obtain ⟨flight, -, h⟩ := Option.bind_eq_some_iff.mp h
    obtain ⟨r, -, h⟩ := Option.bind_eq_some_iff.mp h
    cases h
    exact .inl hcleaner
  | cleanTorrent =>
    cases hcleaner
    exact .inr rfl
  | storePendingRemoval => cases hcleaner
  | retain => cases hcleaner
  | moved hact hnow hremaining hcleaned => exact absurd hcleaner hcleaned
  | tick => exact .inl hcleaner
  | updateAccessList => exact .inl hcleaner

/-- What is still to be visited was so before, or is all of the shard. -/
theorem remaining_step {act : Action I} (h : step config s act = some s') {arc : Arc}
    (harc : arc ∈ s'.cleaner.remaining) : arc ∈ s.cleaner.remaining ∨
      ∃ round i, s'.cleaner = .cleaning round i (s.shards i).values := by
  cases step_cases h with
  | lookUp h =>
    rw [(get_lookUp h).2] at harc
    exact .inl harc
  | announce h =>
    obtain ⟨flight, -, h⟩ := Option.bind_eq_some_iff.mp h
    obtain ⟨r, -, h⟩ := Option.bind_eq_some_iff.mp h
    cases h
    exact .inl harc
  | cleanTorrent hcleaner =>
    rw [hcleaner]
    exact .inl (List.mem_of_mem_erase harc)
  | storePendingRemoval hcleaner =>
    rw [hcleaner]
    exact .inl harc
  | retain => cases harc
  | @moved act cleaner hact hnow hremaining hcleaned =>
    cases cleaner with
    | cleaning round i remaining =>
      refine .inr ⟨round, i, ?_⟩
      rw [hremaining rfl]
    | cleaned => exact absurd rfl hcleaned
    | _ => cases harc
  | tick => exact .inl harc
  | updateAccessList => exact .inl harc

/-- A torrent that is found after its turn was retained. -/
theorem retains_of_step {h' : InfoHash} (h : step config s (.retain h') = some s') {arc : Arc}
    (hget : s'.get h' = some arc) : s.retains config h' (s.torrentData arc) = true ∧
      ∃ round i remaining, s.cleaner = .retaining round i remaining ∧
        s'.cleaner = .retaining round i (remaining.erase h') := by
  cases step_cases h with
  | @retain h₂ arc₂ round i remaining hcleaner hget₂ =>
    refine ⟨?_, round, i, remaining, hcleaner, rfl⟩
    change (s.retain config h' arc₂).get h' = some arc at hget
    rw [get_retain] at hget
    split at hget
    · cases hget
    · rename_i hkept
      rw [hget₂] at hget
      cases hget
      exact Bool.eq_true_of_not_eq_false fun hretains => hkept ⟨hretains, rfl⟩
  | moved hact => cases hact

/-- Until a round ends, its time is the one that it was started with. -/
theorem now_step {act : Action I} (h : step config s act = some s')
    (hstart : act.startsRound = false) {now : SecondsSinceServerStart}
    (hnow : ∀ {n}, s.cleaner.now = some n → n = now) {n : SecondsSinceServerStart}
    (hn : s'.cleaner.now = some n) : n = now := by
  apply hnow
  cases step_cases h with
  | lookUp h =>
    rw [(get_lookUp h).2] at hn
    exact hn
  | announce h =>
    obtain ⟨flight, -, h⟩ := Option.bind_eq_some_iff.mp h
    obtain ⟨r, -, h⟩ := Option.bind_eq_some_iff.mp h
    cases h
    exact hn
  | cleanTorrent hcleaner harc hclean =>
    rw [hcleaner]
    exact hn
  | storePendingRemoval hcleaner =>
    rw [hcleaner]
    exact hn
  | retain hcleaner hget =>
    rw [hcleaner]
    exact hn
  | moved hact =>
    cases moves_of_step hact h with
    | startRound => cases hstart
    | lockRead hcleaner | unlockRead hcleaner | lockWrite hcleaner =>
      rw [hcleaner]
      exact hn
    | endRound => cases hn
    | unlockWrite hcleaner heq =>
      rw [hcleaner]
      exact (congrArg some heq).symm.trans hn
  | tick => exact hn
  | updateAccessList => exact hn

/-- A peer of a torrent that does not wait any more is valid at the start of the round. -/
structure Swept (start : SecondsSinceServerStart) (h : InfoHash) (k : ResponsePeer I)
    (s : TorrentMapShards I) : Prop where
  placed : Placed s
  now : ∀ {n}, s.cleaner.now = some n → n = start
  swept : ∀ {arc peer}, s.get h = some arc → s.cleaner.waits h arc = false →
    (s.torrentData arc).peerMap.get k = some peer → peer.validUntil.valid start

theorem Swept.step {now : SecondsSinceServerStart} {h : InfoHash} {k : ResponsePeer I}
    (hs : Swept now h k s) {act : Action I} (hstep : step config s act = some s')
    (hstart : act.startsRound = false) (hannounces : ¬ s.Announces h k act) :
    Swept now h k s' := by
  refine ⟨hs.placed.step hstep, now_step hstep hstart hs.now, ?_⟩
  intro arc peer hget hwaits hpeer
  rcases get_step hs.placed.apart hstep hget with hold | ⟨-, hnew⟩
  · rcases peerMap_step hs.placed.apart hstep hold with ⟨hact, hsame⟩ |
      ⟨round, i, remaining, numPeers, messages, hcleaner, -, hclean, -⟩ |
      ⟨worker, rng, flight, rfl, hflight, hh, rfl, ha⟩
    · rw [hsame] at hpeer
      rcases waits_step hstep hstart hold hwaits with hwaits | hact'
      · exact hs.swept hold hwaits hpeer
      · exact absurd hact' hact
    · rw [(get_clean hs.placed.apart hclean).1] at hpeer
      rw [← hs.now (by rw [hcleaner]; rfl)]
      exact (Option.filter_eq_some_iff.mp hpeer).2
    · have hk : k ≠ flight.key := fun hk => hannounces ⟨flight, hflight, hh, hk.symm⟩
      rw [ha.announced, if_neg hk] at hpeer
      rw [ha.cleaner] at hwaits
      exact hs.swept hold hwaits hpeer
  · rw [hnew] at hpeer
    cases hpeer

/-- A forbidden torrent that nobody looks up is gone when it has had its turn. -/
structure Barred (config : Config) (h : InfoHash) (s : TorrentMapShards I) : Prop where
  apart : Apart s
  forbids : s.Forbids config h
  settled : ∀ {arc}, s.get h = some arc → s.cleaner.settled h = false

theorem Barred.step {h : InfoHash} (hs : Barred config h s) {act : Action I}
    (hstep : step config s act = some s') (hstart : act.startsRound = false)
    (hlooksUp : ¬ LooksUp h act) (hforbids : s'.Forbids config h) : Barred config h s' := by
  refine ⟨apart_step hs.apart hstep, hforbids, ?_⟩
  intro arc hget
  rcases get_step hs.apart hstep hget with hold | ⟨hlookUp, -⟩
  · by_contra hsettled
    rw [Bool.not_eq_false] at hsettled
    rcases settled_step hstep hstart hget hsettled with hsettled | rfl
    · rw [hs.settled hold] at hsettled
      cases hsettled
    · obtain ⟨hretains, -⟩ := retains_of_step hstep hget
      have hforbids := hs.forbids
      unfold Forbids at hforbids
      simp [retains, hforbids] at hretains
  · exact absurd hlookUp hlooksUp

/-- A torrent that no announce is on its way to has peers when it has had its turn. -/
structure Emptied (h : InfoHash) (s : TorrentMapShards I) : Prop where
  placed : Placed s
  flights : ∀ {worker flight}, s.inFlight worker = some flight → flight.request.infoHash ≠ h
  visits : ∀ {arc}, s.get h = some arc → arc ∈ s.cleaner.remaining → s.cleaner.settled h = false
  counted : ∀ {arc round i remaining numPeers}, s.get h = some arc →
    s.cleaner = .cleaned round i remaining arc numPeers →
    (s.torrentData arc).peerMap.isEmpty = true → numPeers = 0
  marked : ∀ {arc}, s.get h = some arc → s.cleaner.waits h arc = false →
    (∀ round i remaining numPeers, s.cleaner ≠ .cleaned round i remaining arc numPeers) →
    (s.torrentData arc).peerMap.isEmpty = true → (s.torrentData arc).pendingRemoval = true
  settled : ∀ {arc}, s.get h = some arc → s.cleaner.settled h = true →
    (s.torrentData arc).peerMap.isEmpty = false

namespace Emptied
variable {h : InfoHash} {act : Action I}

/-- A torrent with a mark and without peers is not retained. -/
theorem not_isEmpty (hs : Emptied h s) (hstep : step config s (.retain h) = some s') {arc : Arc}
    (hget : s.get h = some arc) (hget' : s'.get h = some arc)
    (hwaits : s.cleaner.waits h arc = false) : (s.torrentData arc).peerMap.isEmpty = false := by
  obtain ⟨hretains, round, i, remaining, hcleaner, -⟩ := retains_of_step hstep hget'
  by_contra hempty
  rw [Bool.not_eq_false] at hempty
  have hmarked := hs.marked hget hwaits (by rw [hcleaner]; nofun) hempty
  unfold retains at hretains
  split at hretains
  · cases hretains
  · simp [hmarked, hempty] at hretains

/-- A torrent without peers had none before, unless it has been cleaned. -/
theorem isEmpty_step (hs : Emptied h s) (hstep : step config s act = some s') {arc : Arc}
    (hget : s.get h = some arc) (hempty : (s'.torrentData arc).peerMap.isEmpty = true) :
    (act ≠ .cleanTorrent arc ∧ (s.torrentData arc).peerMap.isEmpty = true) ∨
    ∃ round i remaining, s.cleaner = .cleaning round i remaining ∧ arc ∈ remaining ∧
      s'.cleaner = .cleaned round i (remaining.erase arc) arc 0 := by
  rcases peerMap_step hs.placed.apart hstep hget with ⟨hact, hsame⟩ |
    ⟨round, i, remaining, numPeers, messages, hcleaner, harc, hclean, hcleaner'⟩ |
    ⟨worker, rng, flight, rfl, hflight, hh, rfl, ha⟩
  · rw [hsame] at hempty
    exact .inl ⟨hact, hempty⟩
  · rw [(get_clean hs.placed.apart hclean).2 hempty] at hcleaner'
    exact .inr ⟨round, i, remaining, hcleaner, harc, hcleaner'⟩
  · exact absurd hh (hs.flights hflight)

/-- A torrent that has been settled has not been cleaned after that. -/
theorem settled_of_step (hs : Emptied h s) (hstep : step config s act = some s')
    (hstart : act.startsRound = false) {arc : Arc} (hget : s.get h = some arc)
    (hget' : s'.get h = some arc) (hsettled : s'.cleaner.settled h = true) :
    (s'.torrentData arc).peerMap.isEmpty = false := by
  by_contra hempty
  rw [Bool.not_eq_false] at hempty
  rcases settled_step hstep hstart hget' hsettled with hsettled | rfl
  · rcases hs.isEmpty_step hstep hget hempty with ⟨-, hempty⟩ |
      ⟨round, i, remaining, hcleaner, harc, -⟩
    · rw [hs.settled hget hsettled] at hempty
      cases hempty
    · rw [hs.visits hget (by rw [hcleaner]; exact harc)] at hsettled
      cases hsettled
  · rcases hs.isEmpty_step hstep hget hempty with ⟨-, hempty⟩ |
      ⟨round, i, remaining, hcleaner, harc, hcleaner'⟩
    · obtain ⟨-, round, i, remaining, hcleaner, hcleaner'⟩ := retains_of_step hstep hget'
      have hwaits : s.cleaner.waits h arc = false := by
        rw [hcleaner'] at hsettled
        rw [hcleaner]
        simp only [Cleaner.settled, Cleaner.waits, Bool.or_eq_true, Bool.and_eq_true,
          decide_eq_true_eq, decide_eq_false_iff_not] at hsettled ⊢
        omega
      rw [hs.not_isEmpty hstep hget hget' hwaits] at hempty
      cases hempty
    · obtain ⟨-, round, i, remaining, hcleaner', -⟩ := retains_of_step hstep hget'
      rw [hcleaner] at hcleaner'
      cases hcleaner'

theorem marked_of_step (hs : Emptied h s) (hstep : step config s act = some s')
    (hstart : act.startsRound = false) {arc : Arc} (hget : s.get h = some arc)
    (hget' : s'.get h = some arc) (hwaits : s'.cleaner.waits h arc = false)
    (hcleaned : ∀ round i remaining numPeers,
      s'.cleaner ≠ .cleaned round i remaining arc numPeers)
    (hempty : (s'.torrentData arc).peerMap.isEmpty = true) :
    (s'.torrentData arc).pendingRemoval = true := by
  rcases hs.isEmpty_step hstep hget hempty with ⟨hact, hempty⟩ |
    ⟨round, i, remaining, -, -, hcleaner'⟩
  · have hwaits := (waits_step hstep hstart hget hwaits).resolve_right hact
    rcases pendingRemoval_step hs.placed.apart hstep hget with ⟨hsame, hkeeps⟩ |
      ⟨round, i, remaining, numPeers, hcleaner, hstored⟩ | rfl
    · rw [hsame]
      apply hs.marked hget hwaits _ hempty
      intro round i remaining numPeers hcleaner
      exact hcleaned round i remaining numPeers (hkeeps hcleaner)
    · rw [hstored, hs.counted hget hcleaner hempty]
      rfl
    · rw [hs.not_isEmpty hstep hget hget' hwaits] at hempty
      cases hempty
  · exact absurd hcleaner' (hcleaned _ _ _ _)

theorem step (hs : Emptied h s) (hstep : step config s act = some s')
    (hstart : act.startsRound = false) (hlooksUp : ¬ LooksUp h act) : Emptied h s' := by
  have hget : ∀ {arc}, s'.get h = some arc → s.get h = some arc := fun hget' =>
    (get_step hs.placed.apart hstep hget').resolve_right fun hnew => hlooksUp hnew.1
  refine ⟨hs.placed.step hstep, ?_, ?_, ?_, ?_, ?_⟩
  · rintro worker flight hflight rfl
    rcases inFlight_step hs.placed.apart hstep hflight with hold | hlookUp
    · exact hs.flights hold rfl
    · exact hlooksUp hlookUp
  · intro arc hget' harc
    by_contra hsettled
    rw [Bool.not_eq_false] at hsettled
    rcases remaining_step hstep harc with hold | ⟨round, i, hcleaner⟩
    · rcases settled_step hstep hstart hget' hsettled with hsettled | rfl
      · rw [hs.visits (hget hget') hold] at hsettled
        cases hsettled
      · obtain ⟨-, round, i, remaining, -, hcleaner⟩ := retains_of_step hstep hget'
        rw [hcleaner] at harc
        cases harc
    · rw [hcleaner] at harc hsettled
      obtain ⟨⟨h₂, arc₂⟩, hmem, heq⟩ := List.mem_map.mp harc
      obtain rfl : arc₂ = arc := heq
      have hmem := ((s.shards i).get_eq_some_iff h₂ arc₂).mpr hmem
      have hplaced := hs.placed.placed hmem
      have hget₂ : s.get h₂ = some arc₂ := by
        rw [TorrentMapShards.get, hplaced]
        exact hmem
      rw [hs.placed.apart.apart (hget hget') hget₂] at hsettled
      simp only [Cleaner.settled, decide_eq_true_eq] at hsettled
      omega
  · intro arc round i remaining numPeers hget' hcleaner hempty
    rcases hs.isEmpty_step hstep (hget hget') hempty with ⟨hact, hempty⟩ |
      ⟨round', i', remaining', -, -, hcleaner'⟩
    · exact hs.counted (hget hget') ((cleaned_step hstep hcleaner).resolve_right hact) hempty
    · cases hcleaner.symm.trans hcleaner'
      rfl
  · intro arc hget' hwaits hcleaned hempty
    exact hs.marked_of_step hstep hstart (hget hget') hget' hwaits hcleaned hempty
  · intro arc hget' hsettled
    exact hs.settled_of_step hstep hstart (hget hget') hget' hsettled

end Emptied

/-- What is found after a round is valid, allowed and not empty, or has come in the
meantime. -/
structure RoundDone (config : Config) (now : SecondsSinceServerStart) (s₁ : TorrentMapShards I)
    (as : List (Action I)) (s : TorrentMapShards I) : Prop where
  expired : ∀ h k, AllSteps (step config) (fun s act _ => ¬ s.Announces h k act) s₁ as →
    ∀ peer, s.registry (h, k) = some peer → peer.validUntil.valid now
  forbidden : ∀ h, s₁.Forbids config h →
    AllSteps (step config) (fun _ act s' => ¬ LooksUp h act ∧ s'.Forbids config h) s₁ as →
    s.get h = none
  empty : ∀ h, (∀ worker flight, s₁.inFlight worker = some flight →
      flight.request.infoHash ≠ h) →
    AllSteps (step config) (fun _ act _ => ¬ LooksUp h act) s₁ as →
    s.get h = none ∨ ∃ k peer, s.registry (h, k) = some peer

/-- Whatever happens during a round. -/
theorem round_cleans {now : SecondsSinceServerStart} {s₀ s₁ : TorrentMapShards I}
    {as : List (Action I)} (hreach : Reachable (step config) init s₀)
    (hstart : step config s₀ (.startRound now) = some s₁)
    (hround : ∀ act ∈ as, act.startsRound = false) (hrun : run (step config) s₁ as = some s)
    (hidle : s.cleaner = .idle) : RoundDone config now s₁ as s := by
  have hplaced : Placed s₁ :=
    (invariant_of_reachable (fun hs h => hs.step h) placed_init hreach).step hstart
  have hcleaner : s₁.cleaner = .atShard ⟨now, 0, 0⟩ 0 := by
    simp only [step] at hstart
    split at hstart
    · split at hstart
      · cases hstart
        rfl
      · cases hstart
    · cases hstart
  have hsteps : AllSteps (step config) (fun _ act _ => act.startsRound = false) s₁ as :=
    allSteps_of_mem hround
  have hsettled : ∀ h, s.cleaner.settled h = true := fun h => by rw [hidle]; rfl
  refine ⟨?_, ?_, ?_⟩
  · intro h k hannounces peer hpeer
    have hswept : Swept now h k s := by
      refine run_invariant (fun hs hstep hC => hs.step hstep hC.1 hC.2) ?_
        (hsteps.and hannounces) hrun
      refine ⟨hplaced, ?_, ?_⟩
      · intro n hn
        rw [hcleaner] at hn
        exact (Option.some.inj hn).symm
      · intro arc peer _ hwaits
        rw [hcleaner] at hwaits
        cases hwaits
    obtain ⟨arc, harc, hpeer⟩ := Option.bind_eq_some_iff.mp hpeer
    exact hswept.swept harc (by rw [hidle]; rfl) hpeer
  · intro h hforbids hsteps'
    have hbarred : Barred config h s := by
      refine run_invariant (fun hs hstep hC => hs.step hstep hC.1 hC.2.1 hC.2.2) ?_
        (hsteps.and hsteps') hrun
      refine ⟨hplaced.apart, hforbids, ?_⟩
      intro arc _
      rw [hcleaner]
      rfl
    by_contra hget
    obtain ⟨arc, harc⟩ := Option.ne_none_iff_exists'.mp hget
    exact Bool.noConfusion ((hbarred.settled harc).symm.trans (hsettled h))
  · intro h hflights hsteps'
    have hemptied : Emptied h s := by
      refine run_invariant (fun hs hstep hC => hs.step hstep hC.1 hC.2) ?_
        (hsteps.and hsteps') hrun
      refine ⟨hplaced, fun hflight => hflights _ _ hflight, ?_, ?_, ?_, ?_⟩
      · intro arc _ _
        rw [hcleaner]
        rfl
      · intro arc round i remaining numPeers _ hcleaned
        rw [hcleaner] at hcleaned
        cases hcleaned
      · intro arc _ hwaits
        rw [hcleaner] at hwaits
        cases hwaits
      · intro arc _ hsettled
        rw [hcleaner] at hsettled
        cases hsettled
    cases harc : s.get h with
    | none => exact .inl rfl
    | some arc =>
      refine .inr ?_
      have hempty := hemptied.settled harc (hsettled h)
      obtain ⟨t, ht⟩ := hemptied.placed.apart.refines arc
      by_contra hnone
      rw [ht.isEmpty_iff.mpr] at hempty
      · cases hempty
      intro k
      by_contra hk
      obtain ⟨peer, hpeer⟩ := Option.ne_none_iff_exists'.mp hk
      refine hnone ⟨k, peer, ?_⟩
      rw [registry_eq harc, ht.peers, hpeer]

/-- A peer that expires before the round. -/
def beforeRound : List (Action Ipv4AddrBytes) :=
  [.lookUp 0 startedRequest startedAddress ⟨10⟩, .announce 0 ⟨fun _ => 0⟩, .tick 20]

def fullRound : List (Action Ipv4AddrBytes) :=
  [.lockRead, .cleanTorrent ⟨0⟩, .storePendingRemoval, .unlockRead, .lockWrite,
    .retain startedRequest.infoHash, .unlockWrite] ++
    (List.replicate 15 [.lockRead, .unlockRead, .lockWrite, .unlockWrite]).flatten ++ [.lockRead]

theorem round_cleans_expired : ∃ s₀ s₁ s, run (step exampleConfig) init beforeRound = some s₀ ∧
    step exampleConfig s₀ (.startRound 20) = some s₁ ∧
    run (step exampleConfig) s₁ fullRound = some s ∧
    RoundDone exampleConfig 20 s₁ fullRound s :=
  ⟨_, _, _, rfl, rfl, rfl, round_cleans ⟨beforeRound, rfl⟩ rfl (by decide) rfl rfl⟩

end TorrentMapShards

end Aquatic.Udp
