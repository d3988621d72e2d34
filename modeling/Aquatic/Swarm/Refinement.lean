import Aquatic.Swarm.PeerMaps

/-!
# The peer maps refine a finite map

`Torrent` says what a swarm is for: who is registered and how often a download
was completed. Both representations, and the conversions between them, are
described by the list of their entries up to order; the seeder counter and the
distinctness of the keys are the invariants that make this description hold.
-/

namespace Aquatic.Swarm
open Collections
set_option autoImplicit false

variable {K P : Type} {cap : Nat}

/-- A torrent's swarm, whatever stores it. -/
structure Torrent (K P : Type) where
  peers : K → Option P
  completed : Nat

namespace Torrent

def empty : Torrent K P := ⟨fun _ => none, 0⟩

noncomputable def count (t : Torrent K P) (q : P → Bool) : Nat :=
  Set.ncard {k | ∃ p, t.peers k = some p ∧ q p}

noncomputable def seeders [PeerEntry P] (t : Torrent K P) : Nat := t.count isSeeder

noncomputable def leechers [PeerEntry P] (t : Torrent K P) : Nat := t.count fun p => !isSeeder p

open Classical in
noncomputable def isEmpty (t : Torrent K P) : Bool := decide (∀ k, t.peers k = none)

def clean [PeerEntry P] (t : Torrent K P) (now : SecondsSinceServerStart) : Torrent K P :=
  { t with peers := fun k => (t.peers k).filter fun p => (validUntil p).valid now }

def countCompleted (t : Torrent K P) (completed : Bool) : Torrent K P :=
  if completed then { t with completed := t.completed + 1 } else t

variable [DecidableEq K]

def remove (t : Torrent K P) (k : K) : Torrent K P :=
  { t with peers := fun k' => if k' = k then none else t.peers k' }

def put (t : Torrent K P) (k : K) (p : P) : Torrent K P :=
  { t with peers := fun k' => if k' = k then some p else t.peers k' }

/-- The swarm after an announce of `k`. -/
def announce (t : Torrent K P) (status : PeerStatus) (completed : Bool) (k : K) (p : P) :
    Torrent K P :=
  let t := t.countCompleted completed
  if status = .stopped then t.remove k else t.put k p

theorem peers_remove_self (t : Torrent K P) (k : K) : (t.remove k).peers k = none := if_pos rfl

theorem put_remove (t : Torrent K P) (k : K) (p : P) : (t.remove k).put k p = t.put k p := by
  simp only [put, remove, mk.injEq, and_true]
  funext k'
  by_cases hk : k' = k <;> simp [hk]

end Torrent

namespace SmallPeerMap

def Distinct (m : SmallPeerMap K P cap) : Prop := (m.peers.toList.map Prod.fst).Nodup

theorem numSeedersLeechers_eq [PeerEntry P] (m : SmallPeerMap K P cap) :
    m.numSeedersLeechers = some (m.peers.toList.countP fun e => isSeeder e.2,
      m.peers.toList.length - m.peers.toList.countP fun e => isSeeder e.2) := by
  have h : (m.peers.toList.countP fun e => isSeeder e.2) ≤ m.peers.len := List.countP_le_length
  simp only [numSeedersLeechers, usizeSub_of_le h]
  rfl

variable [DecidableEq K]

theorem eraseIdx_findIdx (key : K) {es : List (K × P)} (h : (es.map Prod.fst).Nodup) :
    match es.findIdx? fun e => e.1 = key with
    | some i => (es[i]?).map Prod.snd = lookup key es ∧ es.eraseIdx i = without key es
    | none => lookup key es = none ∧ without key es = es := by
  induction es with
  | nil => simp [lookup, without]
  | cons e es ih =>
    obtain ⟨hne, hes⟩ := List.nodup_cons.mp h
    by_cases hk : e.1 = key
    · subst hk
      simp [List.findIdx?_cons, lookup, without_cons_self hne]
    · have hrest := ih hes
      rw [without_cons_of_ne hk]
      simp only [List.findIdx?_cons, hk, decide_false, Bool.false_eq_true, if_false]
      cases hi : es.findIdx? fun e => e.1 = key with
      | none =>
        simp only [hi, lookup] at hrest
        simp [lookup, hk, hrest]
      | some i =>
        simp only [hi, lookup] at hrest
        simp [lookup, hk, hrest]

theorem remove_spec {m : SmallPeerMap K P cap} (h : m.Distinct) (key : K) :
    (m.remove key).1 = lookup key m.peers.toList ∧
      (m.remove key).2.peers.toList = without key m.peers.toList ∧
      (m.remove key).2.completedCount = m.completedCount := by
  have hspec := eraseIdx_findIdx key h
  unfold remove
  split
  · rename_i i hi
    rw [hi] at hspec
    exact ⟨hspec.1, hspec.2, rfl⟩
  · rename_i hi
    rw [hi] at hspec
    exact ⟨hspec.1.symm, hspec.2.symm, rfl⟩

theorem toLarge_spec [PeerEntry P] {m : SmallPeerMap K P cap} (h : m.Distinct) :
    ∃ l, m.toLarge = some l ∧ l.peers.entries = m.peers.toList ∧
      l.numSeeders = l.peers.count isSeeder ∧ l.completedCount = m.completedCount := by
  have hentries := IndexMap.entries_ofList h
  refine ⟨_, by simp only [toLarge, numSeedersLeechers_eq]; rfl, hentries, ?_, rfl⟩
  simp only [IndexMap.count, hentries]

end SmallPeerMap

namespace LargePeerMap
variable [PeerEntry P]

def Counted (m : LargePeerMap K P) : Prop := m.numSeeders = m.peers.count isSeeder

theorem numSeedersLeechers_eq {m : LargePeerMap K P} (h : m.Counted) :
    m.numSeedersLeechers = some (m.peers.count isSeeder,
      m.peers.len - m.peers.count isSeeder) := by
  have hle := m.peers.count_le_len isSeeder
  unfold Counted at h
  simp [numSeedersLeechers, h, usizeSub_of_le hle]

theorem cleanAndGetNumPeers_spec {m : LargePeerMap K P} (h : m.Counted)
    (now : SecondsSinceServerStart) :
    ∃ l, m.cleanAndGetNumPeers now = some (l.peers.len, l) ∧
      l.peers = m.peers.retain (fun _ p => (validUntil p).valid now) ∧
      l.Counted ∧ l.completedCount = m.completedCount := by
  have hsplit := countP_split (fun e : K × P => isSeeder e.2)
    (fun e => (validUntil e.2).valid now) m.peers.entries
  unfold Counted IndexMap.count at h
  rw [hsplit] at h
  have hfold := foldlM_decrement
    (fun e : K × P => !(validUntil e.2).valid now && isSeeder e.2) m.peers.entries m.numSeeders
    (by omega)
  refine ⟨⟨m.peers.retain fun _ p => (validUntil p).valid now,
    m.numSeeders - m.peers.entries.countP fun e => !(validUntil e.2).valid now && isSeeder e.2,
    m.completedCount⟩, ?_, rfl, ?_, rfl⟩
  · simp only [cleanAndGetNumPeers, hfold]
    rfl
  · simp only [Counted, IndexMap.count, IndexMap.retain]
    omega

omit [PeerEntry P] in
/-- Sampling never aborts; it picks `maxNumPeersToTake` distinct peers, or all. -/
theorem extractResponsePeers_spec (m : LargePeerMap K P) (rng : Rng) (maxNumPeersToTake : Nat) :
    ∃ ks rng', m.extractResponsePeers rng maxNumPeersToTake = some (ks, rng') ∧
      ks.Sublist m.peers.keys ∧ ks.length = min maxNumPeersToTake m.peers.len := by
  unfold extractResponsePeers
  by_cases hlen : m.peers.len ≤ maxNumPeersToTake
  · refine ⟨_, rng, if_pos hlen, List.Sublist.refl _, ?_⟩
    rw [Nat.min_eq_right hlen]
    simp [IndexMap.keys, IndexMap.len]
  · have hone : (maxNumPeersToTake + 1) / 2 ≤ m.peers.len / 2 := by omega
    have hmid : m.peers.len / 2 ≤ m.peers.len := by omega
    have htwo : maxNumPeersToTake / 2 ≤ m.peers.len - m.peers.len / 2 := by omega
    obtain ⟨a, ha, -, hamax⟩ := rng.genRangeInclusive_spec
      (Nat.zero_le (m.peers.len / 2 - (maxNumPeersToTake + 1) / 2))
    obtain ⟨d, hd, -, hdmax⟩ := rng.next.genRangeInclusive_spec
      (Nat.zero_le (m.peers.len - m.peers.len / 2 - maxNumPeersToTake / 2))
    have hrange₁ := IndexMap.getRange_of_le (m := m.peers)
      (Nat.le_add_right a ((maxNumPeersToTake + 1) / 2)) (by omega)
    have hrange₂ := IndexMap.getRange_of_le (m := m.peers)
      (Nat.le_add_right (m.peers.len / 2 + d) (maxNumPeersToTake / 2)) (by omega)
    have hslices := slices_sublist m.peers.entries
      (Nat.le_add_right a ((maxNumPeersToTake + 1) / 2))
      (show a + (maxNumPeersToTake + 1) / 2 ≤ m.peers.len / 2 + d by omega)
      (maxNumPeersToTake / 2)
    simp only [hlen, if_false, usizeSub_of_le hone, usizeSub_of_le hmid, usizeSub_of_le htwo,
      Option.bind_eq_bind, Option.bind_some, ha, hd, hrange₁, hrange₂, Option.getD_some,
      Nat.add_sub_cancel_left]
    rw [Nat.add_sub_cancel_left] at hslices
    have hlenentries : m.peers.entries.length = m.peers.len := rfl
    by_cases hpos : maxNumPeersToTake / 2 > 0
    · refine ⟨_, rng.next.next, by rw [if_pos hpos]; rfl, ?_, ?_⟩
      · simpa [IndexMap.keys] using hslices.map Prod.fst
      · simp only [List.length_append, List.length_map, List.length_take, List.length_drop,
          hlenentries]
        omega
    · refine ⟨_, rng.next, by rw [if_neg hpos]; rfl, ?_, ?_⟩
      · exact ((List.sublist_append_left _ _).trans hslices).map Prod.fst
      · simp only [List.length_map, List.length_take, List.length_drop, hlenentries]
        omega

variable [DecidableEq K]

theorem removePeer_spec {m : LargePeerMap K P} (h : m.Counted) (key : K) :
    ∃ l, m.removePeer key = some (m.peers.get key, l) ∧ l.peers = m.peers.swapRemove key ∧
      l.Counted ∧ l.completedCount = m.completedCount := by
  have hcount := m.peers.count_erase isSeeder key
  have hswap := m.peers.count_swapRemove isSeeder key
  unfold Counted at h
  by_cases hs : (m.peers.get key).any isSeeder
  · simp only [hs, if_true] at hcount
    have hle : 1 ≤ m.numSeeders := by omega
    refine ⟨⟨m.peers.swapRemove key, m.numSeeders - 1, m.completedCount⟩, ?_, rfl, ?_, rfl⟩
    · simp [removePeer, hs, usizeSub_of_le hle]
    · simp only [Counted, hswap]
      omega
  · simp only [hs] at hcount
    refine ⟨⟨m.peers.swapRemove key, m.numSeeders, m.completedCount⟩, ?_, rfl, ?_, rfl⟩
    · simp [removePeer, hs]
    · simp only [Counted, hswap]
      simpa using h.trans hcount

theorem insert_counted {m : LargePeerMap K P} (h : m.Counted) {key : K}
    (hkey : m.peers.get key = none) (peer : P) : (m.insert key peer).Counted := by
  have hcount := m.peers.count_insert isSeeder key peer
  unfold Counted at h
  rw [IndexMap.erase_eq_self hkey] at hcount
  simp only [Counted, insert, hcount, h]
  split <;> rfl

end LargePeerMap

namespace PeerMap
variable [PeerEntry P]

def WellFormed : PeerMap K P cap → Prop
  | small m => m.Distinct
  | large m => m.Counted

/-- A map that an announcing peer can be put into. -/
def HasRoom : PeerMap K P cap → Prop
  | small m => m.isFull = false
  | large _ => True

omit [PeerEntry P] in
theorem isEmpty_eq (m : PeerMap K P cap) : m.isEmpty = m.entries.isEmpty := by
  cases m <;> rfl

omit [PeerEntry P] in
theorem entries_countCompleted (m : PeerMap K P cap) : m.countCompleted.entries = m.entries := by
  cases m <;> rfl

omit [PeerEntry P] in
theorem completedCount_countCompleted (m : PeerMap K P cap) :
    m.countCompleted.completedCount = m.completedCount + 1 := by
  cases m <;> rfl

theorem wellFormed_countCompleted {m : PeerMap K P cap} (h : m.WellFormed) :
    m.countCompleted.WellFormed := by
  cases m <;> exact h

theorem WellFormed.nodup {m : PeerMap K P cap} (h : m.WellFormed) :
    (m.entries.map Prod.fst).Nodup := by
  cases m with
  | small m => exact h
  | large m => exact m.peers.nodup

theorem numSeedersLeechers_eq {m : PeerMap K P cap} (h : m.WellFormed) :
    m.numSeedersLeechers = some (m.entries.countP fun e => isSeeder e.2,
      m.entries.length - m.entries.countP fun e => isSeeder e.2) := by
  cases m with
  | small m => exact m.numSeedersLeechers_eq
  | large m => exact LargePeerMap.numSeedersLeechers_eq h

variable [DecidableEq K]

def get (m : PeerMap K P cap) (k : K) : Option P := lookup k m.entries

/-- The response is taken from the peers without the announcing one, and the map
goes on with exactly those. -/
structure Responded (m : PeerMap K P cap) (status : PeerStatus) (key : K)
    (maxNumPeersToTake : Nat) (r : Announced K P) (m' : PeerMap K P cap) : Prop where
  wellFormed : m'.WellFormed
  completed : m'.completedCount = m.completedCount
  others : m'.entries.Perm (without key m.entries)
  room : status ≠ .stopped → m'.HasRoom
  removed : r.removed = m.get key
  counts : m'.numSeedersLeechers = some (r.seeders, r.leechers)
  distinct : r.peers.Nodup
  registered : ∀ k ∈ r.peers, k ∈ m'.entries.map Prod.fst
  length : r.peers.length = min maxNumPeersToTake m'.entries.length

theorem respond_small {m : SmallPeerMap K P cap} (h : m.Distinct) (rng : Rng)
    (status : PeerStatus) (key : K) (maxNumPeersToTake : Nat) :
    ∃ r m' rng', (small m).respond rng status key maxNumPeersToTake = some (r, m', rng') ∧
      Responded (small m) status key maxNumPeersToTake r m' := by
  obtain ⟨hremoved, hrest, hcompleted⟩ := SmallPeerMap.remove_spec h key
  generalize hs : (m.remove key).2 = s at hrest hcompleted
  have hpair : m.remove key = (lookup key m.peers.toList, s) := by rw [← hremoved, ← hs]
  have hdistinct : s.Distinct := by
    unfold SmallPeerMap.Distinct
    rw [hrest]
    exact without_keys_nodup key h
  have hpeers : (s.extractResponsePeers maxNumPeersToTake).Sublist (s.peers.toList.map Prod.fst) :=
    (List.take_sublist _ _).map Prod.fst
  have hlen : (s.extractResponsePeers maxNumPeersToTake).length =
      min maxNumPeersToTake s.peers.toList.length := by
    simp [SmallPeerMap.extractResponsePeers]
  have hcounts := s.numSeedersLeechers_eq
  let r : Announced K P := ⟨s.peers.toList.countP fun e => isSeeder e.2,
    s.peers.toList.length - s.peers.toList.countP fun e => isSeeder e.2,
    s.extractResponsePeers maxNumPeersToTake, lookup key m.peers.toList⟩
  by_cases hfull : (s.isFull && status != .stopped) = true
  · obtain ⟨l, hl, hentries, hcounted, hlcompleted⟩ := SmallPeerMap.toLarge_spec hdistinct
    refine ⟨r, large l, rng, by simp [respond, hpair, hcounts, hfull, hl, r], ?_⟩
    have hlcounts := numSeedersLeechers_eq (m := (large l : PeerMap K P cap)) hcounted
    simp only [entries, hentries] at hlcounts
    exact {
      wellFormed := hcounted
      completed := hlcompleted.trans hcompleted
      others := List.Perm.of_eq (hentries.trans hrest)
      room := fun _ => trivial
      removed := rfl
      counts := hlcounts
      distinct := hpeers.nodup hdistinct
      registered := fun k hk => by simpa only [entries, hentries] using hpeers.subset hk
      length := by simpa only [entries, hentries] using hlen }
  · refine ⟨r, small s, rng, by simp [respond, hpair, hcounts, hfull, r], ?_⟩
    exact {
      wellFormed := hdistinct
      completed := hcompleted
      others := List.Perm.of_eq hrest
      room := fun hstatus => by simpa [HasRoom, hstatus] using hfull
      removed := rfl
      counts := hcounts
      distinct := hpeers.nodup hdistinct
      registered := fun k hk => hpeers.subset hk
      length := hlen }

omit [DecidableEq K] in
/-- Whether or not a large map shrinks, its peers and its counters are the same. -/
theorem shrink_spec {l : LargePeerMap K P} (h : l.Counted) :
    (shrink l : PeerMap K P cap).WellFormed ∧
      (shrink l : PeerMap K P cap).completedCount = l.completedCount ∧
      (shrink l : PeerMap K P cap).entries = l.peers.entries := by
  by_cases hlen : l.peers.len ≤ cap
  · have hs : (shrink l : PeerMap K P cap) = small ⟨⟨l.peers.entries, hlen⟩, l.completedCount⟩ := by
      simp [shrink, LargePeerMap.tryShrink, hlen]
    rw [hs]
    exact ⟨l.peers.nodup, rfl, rfl⟩
  · have hs : (shrink l : PeerMap K P cap) = large l := by
      simp [shrink, LargePeerMap.tryShrink, hlen]
    rw [hs]
    exact ⟨h, rfl, rfl⟩

theorem respond_large {m : LargePeerMap K P} (h : m.Counted) (rng : Rng) (status : PeerStatus)
    (key : K) (maxNumPeersToTake : Nat) :
    ∃ r m' rng', (large m : PeerMap K P cap).respond rng status key maxNumPeersToTake =
        some (r, m', rng') ∧
      Responded (large m) status key maxNumPeersToTake r m' := by
  obtain ⟨l, hl, hswap, hcounted, hcompleted⟩ := LargePeerMap.removePeer_spec h key
  have hcounts := LargePeerMap.numSeedersLeechers_eq hcounted
  obtain ⟨ks, rng', hks, hsub, hlen⟩ := l.extractResponsePeers_spec rng maxNumPeersToTake
  have hperm : l.peers.entries.Perm (without key m.peers.entries) :=
    hswap ▸ IndexMap.entries_swapRemove m.peers key
  have hconverted : ∃ m' : PeerMap K P cap,
      (if status = .stopped then shrink l else large l) = m' ∧ m'.WellFormed ∧
        m'.completedCount = l.completedCount ∧ m'.entries = l.peers.entries ∧
        (status ≠ .stopped → m'.HasRoom) := by
    by_cases hs : status = .stopped
    · obtain ⟨hwell, hcompleted', hentries⟩ :=
        (shrink_spec hcounted : (shrink l : PeerMap K P cap).WellFormed ∧ _)
      exact ⟨_, if_pos hs, hwell, hcompleted', hentries, fun hne => absurd hs hne⟩
    · exact ⟨_, if_neg hs, hcounted, rfl, rfl, fun _ => trivial⟩
  obtain ⟨m', hm', hwell, hcompleted', hentries, hroom⟩ := hconverted
  refine ⟨⟨l.peers.count isSeeder, l.peers.len - l.peers.count isSeeder, ks, m.peers.get key⟩,
    m', rng', ?_, ?_⟩
  · subst hm'
    simp only [respond, hl, hcounts, hks, Option.bind_eq_bind, Option.bind_some]
    rfl
  · exact {
      wellFormed := hwell
      completed := hcompleted'.trans hcompleted
      others := hentries ▸ hperm
      room := hroom
      removed := rfl
      counts := by
        rw [numSeedersLeechers_eq hwell, hentries]
        rfl
      distinct := hsub.nodup l.peers.nodup
      registered := fun k hk => hentries ▸ hsub.subset hk
      length := hentries ▸ hlen }

theorem respond_spec {m : PeerMap K P cap} (h : m.WellFormed) (rng : Rng) (status : PeerStatus)
    (key : K) (maxNumPeersToTake : Nat) :
    ∃ r m' rng', m.respond rng status key maxNumPeersToTake = some (r, m', rng') ∧
      Responded m status key maxNumPeersToTake r m' := by
  cases m with
  | small m => exact respond_small h rng status key maxNumPeersToTake
  | large m => exact respond_large h rng status key maxNumPeersToTake

theorem insert_spec {m : PeerMap K P cap} (h : m.WellFormed) (hroom : m.HasRoom) {key : K}
    (hkey : key ∉ m.entries.map Prod.fst) (peer : P) :
    ∃ m', m.insert key peer = some m' ∧ m'.WellFormed ∧
      m'.completedCount = m.completedCount ∧ m'.entries.Perm ((key, peer) :: m.entries) := by
  cases m with
  | small m =>
    obtain ⟨peers, hpush, hlist⟩ := ArrayVec.push_of_not_full hroom (key, peer)
    have hperm : peers.toList.Perm ((key, peer) :: m.peers.toList) := by
      rw [hlist]
      exact List.perm_append_singleton _ _
    refine ⟨small ⟨peers, m.completedCount⟩, by simp [insert, SmallPeerMap.insert, hpush], ?_, rfl,
      hperm⟩
    exact (hperm.map Prod.fst).nodup_iff.mpr (List.nodup_cons.mpr ⟨hkey, h⟩)
  | large m =>
    have hnone : m.peers.get key = none := (IndexMap.get_eq_none_iff m.peers key).mpr hkey
    refine ⟨large (m.insert key peer), rfl, LargePeerMap.insert_counted h hnone peer, rfl, ?_⟩
    have hperm := m.peers.entries_insert key peer
    rwa [IndexMap.erase_eq_self hnone] at hperm

/-- What the two representations and the conversions between them guarantee. -/
structure Sound (m : PeerMap K P cap) : Prop where
  distinct : (m.entries.map Prod.fst).Nodup
  capacity : ∀ s, m = small s → s.peers.len ≤ cap
  counted : ∀ l, m = large l → l.numSeeders = l.peers.count isSeeder
  toLarge : ∀ s, m = small s → ∃ l, s.toLarge = some l ∧ l.peers.entries = s.peers.toList ∧
    l.numSeeders = l.peers.count isSeeder ∧ l.completedCount = s.completedCount
  tryShrink : ∀ l s, m = large l → l.tryShrink cap = some s →
    s.peers.toList = l.peers.entries ∧ s.completedCount = l.completedCount

theorem WellFormed.sound {m : PeerMap K P cap} (h : m.WellFormed) : m.Sound where
  distinct := h.nodup
  capacity := by
    intro s _
    exact s.peers.bounded
  counted := by
    intro l hl
    subst hl
    exact h
  toLarge := by
    intro s hs
    subst hs
    exact SmallPeerMap.toLarge_spec h
  tryShrink := by
    intro l s _ hs
    unfold LargePeerMap.tryShrink at hs
    split at hs
    · cases hs
      exact ⟨rfl, rfl⟩
    · cases hs

/-- The map stores the torrent's peers, and its completed counter modulo 2^64. -/
structure Refines (m : PeerMap K P cap) (t : Torrent K P) : Prop where
  wellFormed : m.WellFormed
  peers : ∀ k, m.get k = t.peers k
  completed : m.completedCount = UInt64.ofNat t.completed

theorem refines_default : Refines (default : PeerMap K P cap) Torrent.empty :=
  ⟨List.nodup_nil, fun _ => rfl, rfl⟩

/-- Every well-formed map refines the torrent that it shows. -/
theorem WellFormed.refines {m : PeerMap K P cap} (h : m.WellFormed) :
    Refines m ⟨m.get, m.completedCount.toNat⟩ :=
  ⟨h, fun _ => rfl, UInt64.ofNat_toNat.symm⟩

theorem Refines.countP_eq {m : PeerMap K P cap} {t : Torrent K P} (h : Refines m t)
    (q : P → Bool) : (m.entries.countP fun e => q e.2) = t.count q := by
  have hcount := IndexMap.count_eq_ncard ⟨m.entries, h.wellFormed.nodup⟩ q
  have hget : ∀ k, (⟨m.entries, h.wellFormed.nodup⟩ : IndexMap K P).get k = t.peers k := h.peers
  simp only [hget] at hcount
  exact hcount

theorem Refines.length_eq {m : PeerMap K P cap} {t : Torrent K P} (h : Refines m t) :
    m.entries.length = t.count fun _ => true := by
  simpa using h.countP_eq fun _ => true

/-- Distinct peers of the torrent are counted one by one. -/
theorem Refines.le_count {m : PeerMap K P cap} {t : Torrent K P} (h : Refines m t) {keys : List K}
    (hkeys : keys.Nodup) (hpeers : ∀ key ∈ keys, t.peers key ≠ none) :
    keys.length ≤ t.count fun _ => true := by
  have hsub : keys ⊆ m.entries.map Prod.fst := by
    intro key hkey
    by_contra hnot
    have hnone := (IndexMap.get_eq_none_iff ⟨m.entries, h.wellFormed.nodup⟩ key).mpr hnot
    exact hpeers key hkey ((h.peers key).symm.trans hnone)
  have hlength := (List.subperm_of_subset hkeys hsub).length_le
  rw [List.length_map, h.length_eq] at hlength
  exact hlength

/-- The counts that a map reports are those of its torrent. -/
theorem Refines.numSeedersLeechers {m : PeerMap K P cap} {t : Torrent K P} (h : Refines m t) :
    m.numSeedersLeechers = some (t.seeders, t.leechers) := by
  have hsplit := List.length_eq_countP_add_countP (fun e : K × P => isSeeder e.2) (l := m.entries)
  have hleech := h.countP_eq fun p => !isSeeder p
  have hnot : (m.entries.countP fun e => decide ¬isSeeder e.2 = true) =
      m.entries.countP fun e => !isSeeder e.2 := by
    apply List.countP_congr
    simp
  rw [numSeedersLeechers_eq h.wellFormed, h.countP_eq isSeeder]
  have hseed := h.countP_eq isSeeder
  simp only [Option.some.injEq, Prod.mk.injEq, Torrent.seeders, Torrent.leechers, true_and]
  omega

theorem Refines.isEmpty_iff {m : PeerMap K P cap} {t : Torrent K P} (h : Refines m t) :
    m.isEmpty ↔ ∀ k, t.peers k = none := by
  have hempty := IndexMap.isEmpty_iff ⟨m.entries, h.wellFormed.nodup⟩
  have hget : ∀ k, (⟨m.entries, h.wellFormed.nodup⟩ : IndexMap K P).get k = t.peers k := h.peers
  simp only [hget] at hempty
  rw [PeerMap.isEmpty_eq]
  exact hempty

theorem Refines.isEmpty_eq {m : PeerMap K P cap} {t : Torrent K P} (h : Refines m t) :
    m.isEmpty = t.isEmpty := by
  rw [Bool.eq_iff_iff, h.isEmpty_iff]
  simp [Torrent.isEmpty]

theorem Refines.count_pos_iff {m : PeerMap K P cap} {t : Torrent K P} (h : Refines m t) :
    0 < (t.count fun _ => true) ↔ t.isEmpty = false := by
  rw [← h.isEmpty_eq, ← h.length_eq, PeerMap.isEmpty_eq]
  cases m.entries with
  | nil => simp
  | cons e es => simp

theorem get_of_perm {m : PeerMap K P cap} (h : m.WellFormed) {es : List (K × P)}
    (hperm : m.entries.Perm es) (k : K) : m.get k = lookup k es :=
  lookup_congr h.nodup hperm k

theorem Refines.countCompleted {m : PeerMap K P cap} {t : Torrent K P} (h : Refines m t)
    (completed : Bool) :
    Refines (if completed then m.countCompleted else m) (t.countCompleted completed) := by
  cases completed with
  | false => exact h
  | true =>
    refine ⟨wellFormed_countCompleted h.wellFormed, ?_, ?_⟩
    · intro k
      simp only [if_true, get, entries_countCompleted]
      exact h.peers k
    · simp only [if_true, completedCount_countCompleted, h.completed, Torrent.countCompleted]
      exact (UInt64.ofNat_add t.completed 1).symm

/-- What an announce answers, compared with the torrent: the announcing peer is
left out of the counts and of the peers, of which there are as many as wanted. -/
structure Answered (t : Torrent K P) (key : K) (maxNumPeersToTake : Nat) (r : Announced K P) :
    Prop where
  seeders : r.seeders = (t.remove key).seeders
  leechers : r.leechers = (t.remove key).leechers
  removed : r.removed = t.peers key
  distinct : r.peers.Nodup
  registered : ∀ k ∈ r.peers, (t.remove key).peers k ≠ none
  length : r.peers.length = min maxNumPeersToTake ((t.remove key).count fun _ => true)

theorem Responded.refines {m m' : PeerMap K P cap} {t : Torrent K P} {status : PeerStatus}
    {key : K} {maxNumPeersToTake : Nat} {r : Announced K P}
    (hr : Responded m status key maxNumPeersToTake r m') (h : Refines m t) :
    Refines m' (t.remove key) := by
  refine ⟨hr.wellFormed, ?_, hr.completed.trans h.completed⟩
  intro k
  rw [get_of_perm hr.wellFormed hr.others, lookup_without h.wellFormed.nodup]
  simp only [Torrent.remove, ← h.peers]
  rfl

theorem Responded.answered {m m' : PeerMap K P cap} {t : Torrent K P} {status : PeerStatus}
    {key : K} {maxNumPeersToTake : Nat} {r : Announced K P}
    (hr : Responded m status key maxNumPeersToTake r m') (h : Refines m t) :
    Answered t key maxNumPeersToTake r := by
  have hrefines := hr.refines h
  have hcounts := hr.counts
  rw [hrefines.numSeedersLeechers] at hcounts
  simp only [Option.some.injEq, Prod.mk.injEq] at hcounts
  refine ⟨hcounts.1.symm, hcounts.2.symm, hr.removed.trans (h.peers key), hr.distinct, ?_, ?_⟩
  · intro k hk hnone
    rw [← hrefines.peers k] at hnone
    exact (IndexMap.get_eq_none_iff ⟨m'.entries, hr.wellFormed.nodup⟩ k).mp hnone
      (hr.registered k hk)
  · rw [hr.length, hrefines.length_eq]

theorem Refines.insert {m : PeerMap K P cap} {t : Torrent K P} (h : Refines m t)
    (hroom : m.HasRoom) {key : K} (hkey : t.peers key = none) (peer : P) :
    ∃ m', m.insert key peer = some m' ∧ Refines m' (t.put key peer) := by
  have hnot : key ∉ m.entries.map Prod.fst := by
    rw [← h.peers key] at hkey
    exact (IndexMap.get_eq_none_iff ⟨m.entries, h.wellFormed.nodup⟩ key).mp hkey
  obtain ⟨m', hm', hwell, hcompleted, hperm⟩ := insert_spec h.wellFormed hroom hnot peer
  refine ⟨m', hm', hwell, ?_, hcompleted.trans h.completed⟩
  intro k
  rw [get_of_perm hwell hperm, lookup_cons]
  simp only [Torrent.put, ← h.peers]
  rfl

/-- One announce: it does not abort, answers what the torrent says and refines it again. -/
theorem announce_refines {m : PeerMap K P cap} {t : Torrent K P} (h : Refines m t) (rng : Rng)
    (status : PeerStatus) (completed : Bool) (key : K) (peer : P) (maxNumPeersToTake : Nat) :
    ∃ r m' rng', m.announce rng status completed key peer maxNumPeersToTake = some (r, m', rng') ∧
      Answered t key maxNumPeersToTake r ∧ Refines m' (t.announce status completed key peer) := by
  have h₁ := h.countCompleted completed
  obtain ⟨r, m₂, rng', hrespond, hr⟩ := respond_spec h₁.wellFormed rng status key maxNumPeersToTake
  have h₂ := hr.refines h₁
  have hanswered : Answered t key maxNumPeersToTake r := by
    have ha := hr.answered h₁
    cases completed with
    | false => exact ha
    | true => exact ⟨ha.seeders, ha.leechers, ha.removed, ha.distinct, ha.registered, ha.length⟩
  by_cases hs : status = .stopped
  · subst hs
    refine ⟨r, m₂, rng', ?_, hanswered, ?_⟩
    · simp [announce, hrespond]
    · simpa [Torrent.announce] using h₂
  · obtain ⟨m₃, hinsert, h₃⟩ := h₂.insert (hr.room hs) (Torrent.peers_remove_self _ key) peer
    refine ⟨r, m₃, rng', ?_, hanswered, ?_⟩
    · cases status with
      | stopped => exact absurd rfl hs
      | _ => simp [announce, hrespond, hinsert]
    · simpa [Torrent.announce, hs, Torrent.put_remove] using h₃

/-- Cleaning does not abort, counts the peers that are left and removes the expired ones. -/
theorem cleanAndGetNumPeers_refines {m : PeerMap K P cap} {t : Torrent K P} (h : Refines m t)
    (now : SecondsSinceServerStart) :
    ∃ m', m.cleanAndGetNumPeers now = some ((t.clean now).count fun _ => true, m') ∧
      Refines m' (t.clean now) := by
  have hget : ∀ m' : PeerMap K P cap,
      m'.entries = m.entries.filter (fun e => (validUntil e.2).valid now) →
      ∀ k, m'.get k = (t.clean now).peers k := by
    intro m' hentries k
    have hretain := (⟨m.entries, h.wellFormed.nodup⟩ : IndexMap K P).get_retain
      (fun _ p => (validUntil p).valid now) k
    rw [get, hentries]
    simp only [Torrent.clean, ← h.peers]
    exact hretain
  cases m with
  | small m =>
    have hrefines : Refines (small (m.cleanAndGetNumPeers now).2 : PeerMap K P cap)
        (t.clean now) :=
      ⟨h.wellFormed.sublist (List.filter_sublist.map Prod.fst), hget _ rfl, h.completed⟩
    exact ⟨_, by rw [← hrefines.length_eq]; rfl, hrefines⟩
  | large m =>
    obtain ⟨l, hl, hpeers, hcounted, hcompleted⟩ :=
      LargePeerMap.cleanAndGetNumPeers_spec h.wellFormed now
    have hrefines : Refines (large l : PeerMap K P cap) (t.clean now) := by
      refine ⟨hcounted, hget _ ?_, hcompleted.trans h.completed⟩
      simp only [entries, hpeers]
      rfl
    refine ⟨large l, ?_, hrefines⟩
    rw [← hrefines.length_eq]
    simp only [cleanAndGetNumPeers, hl]
    rfl

theorem Refines.shrink {l : LargePeerMap K P} {t : Torrent K P}
    (h : Refines (large l : PeerMap K P cap) t) : Refines (shrink l : PeerMap K P cap) t := by
  obtain ⟨hwell, hcompleted, hentries⟩ :=
    (shrink_spec h.wellFormed : (PeerMap.shrink l : PeerMap K P cap).WellFormed ∧ _)
  refine ⟨hwell, fun k => ?_, hcompleted.trans h.completed⟩
  rw [get, hentries]
  exact h.peers k

end PeerMap

end Aquatic.Swarm
