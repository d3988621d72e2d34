import Aquatic.Lib.Transition
import Aquatic.Udp.Swarm

/-!
# The UDP swarm of a torrent is a finite map with a counter

Counts leave the tracker as `i32`, and downloads are counted in a `u64`: the
reference map counts without bounds, and `Torrent.step` says what of it is shown.
-/

namespace Aquatic.Udp
open Collections Swarm Transition
set_option autoImplicit false

inductive Action (I : Type) where
  | announce (rng : Rng) (request : AnnounceRequest) (ipAddress : I) (validUntil : ValidUntil)
  | scrape
  | clean (now : SecondsSinceServerStart)

inductive Result where
  | announced (fixed : AnnounceResponseFixedData)
  | scraped (statistics : TorrentScrapeStatistics)
  | cleaned (numPeers : Nat)
  deriving DecidableEq, Repr

/-- What is seen of a torrent when a step is done. -/
structure Observation (I : Type) where
  result : Result
  isEmpty : Bool
  registered : ResponsePeer I → Option Peer

section Code
variable {I : Type} [DecidableEq I]

def PeerMap.observation (m : PeerMap I) (result : Result) : Observation I :=
  ⟨result, m.isEmpty, m.get⟩

def PeerMap.step (config : Config) (m : PeerMap I) : Action I → Option (Observation I × PeerMap I)
  | .announce rng request ipAddress validUntil => do
    let (response, _, m, _) ← PeerMap.announce config m rng request ipAddress validUntil
    return (PeerMap.observation m (.announced response.fixed), m)
  | .scrape => do
    let statistics ← PeerMap.scrapeStatistics m
    return (PeerMap.observation m (.scraped statistics), m)
  | .clean now => do
    let (numPeers, _, m) ← PeerMap.clean config m now
    return (PeerMap.observation m (.cleaned numPeers), m)

end Code

abbrev Torrent (I : Type) := Swarm.Torrent (ResponsePeer I) Peer

variable {I : Type} [DecidableEq I]

noncomputable def Torrent.observation (t : Torrent I) (result : Result) : Observation I :=
  ⟨result, t.isEmpty, t.peers⟩

def Torrent.announce (t : Torrent I) (request : AnnounceRequest) (ipAddress : I)
    (validUntil : ValidUntil) : Torrent I :=
  Swarm.Torrent.announce t request.status request.isCompleted ⟨ipAddress, request.port⟩
    (request.peer validUntil)

/-- Counts of everyone but the announcing peer. -/
noncomputable def Torrent.announceFixed (config : Config) (t : Torrent I)
    (request : AnnounceRequest) (ipAddress : I) : AnnounceResponseFixedData where
  transactionId := request.transactionId
  announceInterval := config.protocol.peerAnnounceInterval
  leechers := usizeToI32Checked (t.remove ⟨ipAddress, request.port⟩).leechers
  seeders := usizeToI32Checked (t.remove ⟨ipAddress, request.port⟩).seeders

noncomputable def Torrent.scrapeStatistics (t : Torrent I) : TorrentScrapeStatistics where
  seeders := usizeToI32Checked t.seeders
  completed := usizeToI32Checked (t.completed % 2 ^ 64)
  leechers := usizeToI32Checked t.leechers

noncomputable def Torrent.step (config : Config) (t : Torrent I) :
    Action I → Observation I × Torrent I
  | .announce _ request ipAddress validUntil =>
    let t' := Torrent.announce t request ipAddress validUntil
    (Torrent.observation t' (.announced (Torrent.announceFixed config t request ipAddress)), t')
  | .scrape => (Torrent.observation t (.scraped (Torrent.scrapeStatistics t)), t)
  | .clean now =>
    let t' := t.clean now
    (Torrent.observation t' (.cleaned (t'.count fun _ => true)), t')

theorem u64ToI32Checked_ofNat (n : Nat) :
    u64ToI32Checked (UInt64.ofNat n) = usizeToI32Checked (n % 2 ^ 64) := by
  have hnat : (UInt64.ofNat n).toNat = n % 2 ^ 64 := UInt64.toNat_ofNat'
  have hle : UInt64.ofNat n ≤ 2147483647 ↔ n % 2 ^ 64 ≤ 2147483647 := by
    rw [UInt64.le_iff_toNat_le, hnat]
    rfl
  simp only [u64ToI32Checked, usizeToI32Checked, hle, hnat]

theorem observation_eq {m : PeerMap I} {t : Torrent I} (h : m.Refines t) (result : Result) :
    PeerMap.observation m result = Torrent.observation t result := by
  have hget : m.get = t.peers := funext h.peers
  simp only [PeerMap.observation, Torrent.observation, h.isEmpty_eq, hget]

theorem announce_simulates (config : Config) {m : PeerMap I} {t : Torrent I} (h : m.Refines t)
    (rng : Rng) (request : AnnounceRequest) (ipAddress : I) (validUntil : ValidUntil) :
    ∃ response messages m' rng',
      PeerMap.announce config m rng request ipAddress validUntil =
        some (response, messages, m', rng') ∧
      response.fixed = Torrent.announceFixed config t request ipAddress ∧
      m'.Refines (Torrent.announce t request ipAddress validUntil) := by
  obtain ⟨r, m', rng', hr, hanswered, hrefines⟩ := PeerMap.announce_refines h rng request.status
    request.isCompleted ⟨ipAddress, request.port⟩ (request.peer validUntil)
    (maxNumPeersToTake config request)
  refine ⟨_, _, m', rng', by simp only [PeerMap.announce, hr]; rfl, ?_, hrefines⟩
  simp only [announceResponse, Torrent.announceFixed, hanswered.seeders, hanswered.leechers]

theorem scrapeStatistics_eq {m : PeerMap I} {t : Torrent I} (h : m.Refines t) :
    PeerMap.scrapeStatistics m = some (Torrent.scrapeStatistics t) := by
  simp only [PeerMap.scrapeStatistics, h.numSeedersLeechers, h.completed, u64ToI32Checked_ofNat]
  rfl

theorem clean_simulates (config : Config) {m : PeerMap I} {t : Torrent I} (h : m.Refines t)
    (now : SecondsSinceServerStart) :
    ∃ messages m', PeerMap.clean config m now =
        some ((t.clean now).count fun _ => true, messages, m') ∧ m'.Refines (t.clean now) := by
  obtain ⟨m', hm', hrefines⟩ := PeerMap.cleanAndGetNumPeers_refines h now
  cases m' with
  | small s => exact ⟨_, _, by simp only [PeerMap.clean, hm']; rfl, hrefines⟩
  | large l => exact ⟨_, _, by simp only [PeerMap.clean, hm']; rfl, hrefines.shrink⟩

theorem step_simulates (config : Config) {m : PeerMap I} {t : Torrent I} (a : Action I)
    (h : m.Refines t) :
    ∃ m', PeerMap.step config m a = some ((Torrent.step config t a).1, m') ∧
      m'.Refines (Torrent.step config t a).2 := by
  cases a with
  | announce rng request ipAddress validUntil =>
    obtain ⟨response, messages, m', rng', hm', hfixed, hrefines⟩ :=
      announce_simulates config h rng request ipAddress validUntil
    refine ⟨m', ?_, hrefines⟩
    have hobs := observation_eq hrefines (.announced response.fixed)
    simp only [PeerMap.step, hm', Torrent.step, ← hfixed, ← hobs]
    rfl
  | scrape =>
    refine ⟨m, ?_, h⟩
    simp only [PeerMap.step, scrapeStatistics_eq h, Torrent.step, ← observation_eq h]
    rfl
  | clean now =>
    obtain ⟨messages, m', hm', hrefines⟩ := clean_simulates config h now
    refine ⟨m', ?_, hrefines⟩
    simp only [PeerMap.step, hm', Torrent.step, ← observation_eq hrefines]
    rfl

/-- Every run of a torrent's swarm: nothing aborts, everything shown is what the
reference map shows, and the representation is sound. -/
theorem swarm_refines_map (config : Config) (as : List (Action I)) :
    ∃ m, observe (PeerMap.step config) Swarm.PeerMap.default as =
        some ((answers (Torrent.step config) (Swarm.Torrent.empty : Torrent I) as).1, m) ∧
      (∀ k, m.get k =
        (answers (Torrent.step config) (Swarm.Torrent.empty : Torrent I) as).2.peers k) ∧
      m.Sound := by
  obtain ⟨m, hm, hrefines⟩ := observe_eq_answers (step_simulates config) as
    (PeerMap.refines_default (K := ResponsePeer I))
  exact ⟨m, hm, hrefines.peers, hrefines.wellFormed.sound⟩

theorem completed_replicate (config : Config) (t : Torrent I) (rng : Rng)
    {request : AnnounceRequest} (hcompleted : request.isCompleted = true) (ipAddress : I)
    (validUntil : ValidUntil) (n : Nat) :
    (answers (Torrent.step config) t
      (List.replicate n (.announce rng request ipAddress validUntil))).2.completed =
      t.completed + n := by
  induction n generalizing t with
  | zero => rfl
  | succ n ih =>
    have hone : (Torrent.announce t request ipAddress validUntil).completed = t.completed + 1 := by
      simp only [Torrent.announce, Swarm.Torrent.announce, hcompleted]
      split <;> rfl
    simp only [List.replicate_succ, answers, Torrent.step, ih, hone]
    omega

def exampleConfig : Config := ⟨⟨50, 900⟩, ⟨false⟩, .off⟩

/-- A seeder that says it has just finished. -/
def completedRequest : AnnounceRequest where
  transactionId := 1
  infoHash := ⟨Vector.replicate 20 7⟩
  peerId := ⟨Vector.replicate 20 1⟩
  bytesLeft := 0
  event := AnnounceEvent.completed.toBytes
  peersWanted := 0
  port := 6881

def completedRun : List (Action Ipv4AddrBytes) :=
  List.replicate 2147483648
    (.announce ⟨fun _ => 0⟩ completedRequest ⟨Vector.replicate 4 10⟩ ⟨1000⟩)

/-- After 2^31 completed downloads a scrape still reports 2^31 - 1. -/
theorem scrape_completed_clamped :
    completedRun.length = 2147483648 ∧
      ∃ before after statistics m,
        observe (PeerMap.step exampleConfig) Swarm.PeerMap.default (completedRun ++ [.scrape]) =
          some (before ++ [after], m) ∧
        after.result = .scraped statistics ∧ statistics.completed = 2147483647 := by
  refine ⟨List.length_replicate, ?_⟩
  obtain ⟨m, hm, -⟩ := observe_eq_answers (step_simulates exampleConfig)
    (completedRun ++ [.scrape]) (PeerMap.refines_default (K := ResponsePeer Ipv4AddrBytes))
  rw [answers_append] at hm
  refine ⟨_, _, _, m, hm, rfl, ?_⟩
  have hcompleted : completedRequest.isCompleted = true := rfl
  have hcount := completed_replicate exampleConfig
    (Swarm.Torrent.empty : Torrent Ipv4AddrBytes) ⟨fun _ => 0⟩ hcompleted
    ⟨Vector.replicate 4 10⟩ ⟨1000⟩ 2147483648
  simp only [Torrent.scrapeStatistics, completedRun, hcount]
  simp [usizeToI32Checked, Swarm.Torrent.empty]

end Aquatic.Udp
