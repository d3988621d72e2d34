import Aquatic.Http.Storage
import Aquatic.Udp.Swarm

/-!
# The peers that are picked for a response

As many as are wanted, or all there are; each of them is in the map, and none is picked
twice. An announcing peer has been taken out of the map by then.
-/

namespace Aquatic.Swarm
open Collections
set_option autoImplicit false

variable {K P : Type} {cap : Nat}

/-- What is picked of the registered keys. -/
structure Picked (maxNumPeersToTake : Nat) (keys picked : List K) : Prop where
  length : picked.length = min maxNumPeersToTake keys.length
  registered : ∀ key ∈ picked, key ∈ keys
  distinct : keys.Nodup → picked.Nodup

theorem picked_of_sublist {maxNumPeersToTake : Nat} {keys picked : List K}
    (h : picked.Sublist keys) (hlength : picked.length = min maxNumPeersToTake keys.length) :
    Picked maxNumPeersToTake keys picked where
  length := hlength
  registered _ := fun hkey => h.subset hkey
  distinct := h.nodup

namespace PeerMap

def extractResponsePeers (m : PeerMap K P cap) (rng : Rng) (maxNumPeersToTake : Nat) :
    Option (List K × Rng) :=
  match m with
  | small m => some (m.extractResponsePeers maxNumPeersToTake, rng)
  | large m => m.extractResponsePeers rng maxNumPeersToTake

/-- Of any map, whatever the generator draws. -/
theorem extractResponsePeers_picks (m : PeerMap K P cap) (rng : Rng) (maxNumPeersToTake : Nat) :
    ∃ picked rng', m.extractResponsePeers rng maxNumPeersToTake = some (picked, rng') ∧
      Picked maxNumPeersToTake (m.entries.map Prod.fst) picked := by
  cases m with
  | small m =>
    refine ⟨_, rng, rfl, picked_of_sublist ((List.take_sublist _ _).map Prod.fst) ?_⟩
    simp [SmallPeerMap.extractResponsePeers, entries]
  | large m =>
    obtain ⟨picked, rng', hpicked, hsub, hlength⟩ := m.extractResponsePeers_spec rng maxNumPeersToTake
    refine ⟨picked, rng', hpicked, picked_of_sublist hsub ?_⟩
    rw [hlength, List.length_map]
    rfl

variable [DecidableEq K] [PeerEntry P]

/-- The maps that announces and cleanings can leave behind. -/
inductive Reachable : PeerMap K P cap → Prop where
  | default : Reachable default
  | announce {m m' : PeerMap K P cap} {rng rng' : Rng} {status : PeerStatus} {completed : Bool}
      {key : K} {peer : P} {maxNumPeersToTake : Nat} {announced : Announced K P} :
      Reachable m →
      m.announce rng status completed key peer maxNumPeersToTake = some (announced, m', rng') →
      Reachable m'
  | clean {m m' : PeerMap K P cap} {now : SecondsSinceServerStart} {numPeers : Nat} :
      Reachable m → m.cleanAndGetNumPeers now = some (numPeers, m') → Reachable m'
  | shrink {m : LargePeerMap K P} : Reachable (large m) → Reachable (shrink m)

theorem Reachable.wellFormed {m : PeerMap K P cap} (h : Reachable m) : m.WellFormed := by
  induction h with
  | default => exact List.nodup_nil
  | @announce m m' rng rng' status completed key peer maxNumPeersToTake announced _ hannounce ih =>
    obtain ⟨announced', m'', rng'', h, -, hrefines⟩ :=
      announce_refines ih.refines rng status completed key peer maxNumPeersToTake
    cases hannounce.symm.trans h
    exact hrefines.wellFormed
  | @clean m m' now numPeers _ hclean ih =>
    obtain ⟨m'', h, hrefines⟩ := cleanAndGetNumPeers_refines ih.refines now
    cases hclean.symm.trans h
    exact hrefines.wellFormed
  | shrink _ ih => exact (shrink_spec ih).1

/-- The response is picked of the peers that are registered under other keys. -/
theorem announce_picks {m m' : PeerMap K P cap} (h : m.WellFormed) {rng rng' : Rng}
    {status : PeerStatus} {completed : Bool} {key : K} {peer : P} {maxNumPeersToTake : Nat}
    {announced : Announced K P}
    (hannounce : m.announce rng status completed key peer maxNumPeersToTake =
      some (announced, m', rng')) :
    Picked maxNumPeersToTake ((without key m.entries).map Prod.fst) announced.peers := by
  have hentries : (if completed then m.countCompleted else m).entries = m.entries := by
    split
    · exact entries_countCompleted m
    · rfl
  have hwell : (if completed then m.countCompleted else m).WellFormed := by
    split
    · exact wellFormed_countCompleted h
    · exact h
  obtain ⟨r, m₁, rng₁, hrespond, hr⟩ := respond_spec hwell rng status key maxNumPeersToTake
  obtain ⟨⟨r', m₂, rng₂⟩, hrespond', hinsert⟩ := Option.bind_eq_some_iff.mp hannounce
  cases hrespond.symm.trans hrespond'
  obtain rfl : r = announced := by
    cases status
    all_goals
      obtain ⟨m₃, -, heq⟩ := Option.bind_eq_some_iff.mp hinsert
      cases heq
      rfl
  have hperm := hr.others
  rw [hentries] at hperm
  refine ⟨?_, fun k hk => (hperm.map Prod.fst).mem_iff.mp (hr.registered k hk), fun _ => hr.distinct⟩
  rw [hr.length, hperm.length_eq, List.length_map]

/-- An announce to a map that can be reached does not abort, and does not return its peer. -/
theorem Reachable.announce_picks {m : PeerMap K P cap} (h : m.Reachable) (rng : Rng)
    (status : PeerStatus) (completed : Bool) (key : K) (peer : P) (maxNumPeersToTake : Nat) :
    ∃ announced m' rng',
      m.announce rng status completed key peer maxNumPeersToTake = some (announced, m', rng') ∧
        Picked maxNumPeersToTake ((without key m.entries).map Prod.fst) announced.peers ∧
        announced.peers.Nodup ∧ key ∉ announced.peers := by
  obtain ⟨announced, m', rng', hannounce, -⟩ :=
    announce_refines h.wellFormed.refines rng status completed key peer maxNumPeersToTake
  have hpicked := PeerMap.announce_picks h.wellFormed hannounce
  refine ⟨announced, m', rng', hannounce, hpicked,
    hpicked.distinct (without_keys_nodup key h.wellFormed.nodup), ?_⟩
  intro hkey
  exact not_mem_without_keys key m.entries (hpicked.registered key hkey)

end PeerMap

/-- What a map, whether reached or not, and what an announce of either protocol picks. -/
structure Selection : Prop where
  extract : ∀ {K P : Type} {cap : Nat} (m : PeerMap K P cap) (rng : Rng) (maxNumPeersToTake : Nat),
    ∃ picked rng', m.extractResponsePeers rng maxNumPeersToTake = some (picked, rng') ∧
      Picked maxNumPeersToTake (m.entries.map Prod.fst) picked
  large : ∀ {K P : Type} {cap : Nat} (m : LargePeerMap K P),
    ((PeerMap.large m : PeerMap K P cap).entries.map Prod.fst).Nodup
  reached : ∀ {K P : Type} {cap : Nat} [DecidableEq K] [PeerEntry P] (m : PeerMap K P cap),
    m.Reachable → (m.entries.map Prod.fst).Nodup
  udp : ∀ {I : Type} [DecidableEq I] (config : Udp.Config) (m : Udp.PeerMap I) (rng : Rng)
    (request : Udp.AnnounceRequest) (ipAddress : I) (validUntil : ValidUntil), m.Reachable →
    ∃ response messages m' rng',
      Udp.PeerMap.announce config m rng request ipAddress validUntil =
        some (response, messages, m', rng') ∧
      Picked (Udp.maxNumPeersToTake config request)
        ((without ⟨ipAddress, request.port⟩ m.entries).map Prod.fst) response.peers ∧
      response.peers.Nodup ∧ ⟨ipAddress, request.port⟩ ∉ response.peers
  http : ∀ {I : Type} [DecidableEq I] (config : Http.Config) (m : Http.TorrentData I) (rng : Rng)
    (request : Http.AnnounceRequest) (ipAddress : I) (validUntil : ValidUntil), m.Reachable →
    ∃ seeders leechers peers m' rng',
      Http.TorrentData.upsertPeerAndGetResponsePeers config m rng request ipAddress validUntil =
        some ((seeders, leechers, peers), m', rng') ∧
      Picked (Http.maxNumPeersToTake config request)
        ((without ⟨ipAddress, request.port⟩ m.entries).map Prod.fst) peers ∧
      peers.Nodup ∧ ⟨ipAddress, request.port⟩ ∉ peers

theorem peers_selected : Selection where
  extract m rng maxNumPeersToTake := m.extractResponsePeers_picks rng maxNumPeersToTake
  large m := m.peers.nodup
  reached _ h := h.wellFormed.nodup
  udp config m rng request ipAddress validUntil h := by
    obtain ⟨announced, m', rng', hannounce, hpicked⟩ :=
      h.announce_picks rng request.status request.isCompleted ⟨ipAddress, request.port⟩
        (request.peer validUntil) (Udp.maxNumPeersToTake config request)
    refine ⟨Udp.announceResponse config request announced,
      Udp.announceStatistics config request announced.removed, m', rng', ?_, hpicked⟩
    rw [Udp.PeerMap.announce, hannounce]
    rfl
  http config m rng request ipAddress validUntil h := by
    obtain ⟨announced, m', rng', hannounce, hpicked⟩ :=
      h.announce_picks rng request.status request.isCompleted ⟨ipAddress, request.port⟩
        (request.peer validUntil) (Http.maxNumPeersToTake config request)
    refine ⟨announced.seeders, announced.leechers, announced.peers, m', rng', ?_, hpicked⟩
    rw [Http.TorrentData.upsertPeerAndGetResponsePeers, hannounce]
    rfl

end Aquatic.Swarm
