import Aquatic.Http.Storage
import Aquatic.Lib.Transition

/-!
# The HTTP torrent map refines a map of maps
-/

namespace Aquatic.Http
open Collections Swarm Transition
set_option autoImplicit false

inductive Action (I : Type) where
  | announce (rng : Rng) (validUntil : ValidUntil) (peerIpAddress : I) (request : AnnounceRequest)
  | scrape (request : ScrapeRequest)
  | clean (accessList : AccessList) (now : SecondsSinceServerStart)

inductive Result where
  | announced (seeders leechers : Nat)
  | scraped (files : InfoHash → Option ScrapeStatistics)
  | cleaned

/-- What is seen of the swarms when a step is done. -/
structure Observation (I : Type) where
  result : Result
  registered : InfoHash → Option (ResponsePeer I → Option Peer)

section Code
variable {I : Type} [DecidableEq I]

def TorrentMap.observation (m : TorrentMap I) (result : Result) : Observation I :=
  ⟨result, fun h => (m.torrents.get h).map PeerMap.get⟩

def TorrentMap.step (config : Config) (m : TorrentMap I) :
    Action I → Option (Observation I × TorrentMap I)
  | .announce rng validUntil peerIpAddress request => do
    let ((seeders, leechers, _), m, _) ←
      m.upsertPeerAndGetResponsePeers config rng validUntil peerIpAddress request
    return (m.observation (.announced seeders leechers), m)
  | .scrape request => do
    let response ← m.handleScrapeRequest config request
    return (m.observation (.scraped fun h => response.files[h]?), m)
  | .clean accessList now => do
    let m ← m.clean config accessList now
    return (m.observation .cleaned, m)

end Code

abbrev Torrent (I : Type) := Swarm.Torrent (ResponsePeer I) Peer

abbrev Torrents (I : Type) := InfoHash → Option (Torrent I)

noncomputable def Torrent.scrapeStatistics {I : Type} (t : Torrent I) : ScrapeStatistics :=
  ⟨t.seeders, t.leechers, t.completed % 2 ^ 64⟩

namespace Torrents
variable {I : Type} [DecidableEq I]

def observation (ts : Torrents I) (result : Result) : Observation I :=
  ⟨result, fun h => (ts h).map Swarm.Torrent.peers⟩

/-- An announce creates the torrent if there is none. -/
def announced (ts : Torrents I) (request : AnnounceRequest) : Torrent I :=
  (ts request.infoHash).getD Swarm.Torrent.empty

def announce (ts : Torrents I) (validUntil : ValidUntil) (peerIpAddress : I)
    (request : AnnounceRequest) : Torrents I := fun h =>
  if h = request.infoHash then
    some ((ts.announced request).announce request.status request.isCompleted
      ⟨peerIpAddress, request.port⟩ (request.peer validUntil))
  else ts h

noncomputable def scrapeOne (ts : Torrents I) (infoHash : InfoHash) : ScrapeStatistics :=
  match ts infoHash with
  | some t => Torrent.scrapeStatistics t
  | none => ⟨0, 0, 0⟩

noncomputable def scrape (config : Config) (ts : Torrents I) (request : ScrapeRequest) :
    InfoHash → Option ScrapeStatistics := fun h =>
  if h ∈ request.infoHashes.take config.protocol.maxScrapeTorrents then some (ts.scrapeOne h)
  else none

noncomputable def cleanOne (config : Config) (accessList : AccessList)
    (now : SecondsSinceServerStart) (infoHash : InfoHash) (t : Torrent I) : Option (Torrent I) :=
  if accessList.allows config.accessListMode infoHash then
    if (t.clean now).isEmpty then none else some (t.clean now)
  else none

noncomputable def clean (config : Config) (ts : Torrents I) (accessList : AccessList)
    (now : SecondsSinceServerStart) : Torrents I := fun h =>
  (ts h).bind (cleanOne config accessList now h)

noncomputable def step (config : Config) (ts : Torrents I) : Action I → Observation I × Torrents I
  | .announce _ validUntil peerIpAddress request =>
    let others := (ts.announced request).remove ⟨peerIpAddress, request.port⟩
    let ts' := ts.announce validUntil peerIpAddress request
    (ts'.observation (.announced others.seeders others.leechers), ts')
  | .scrape request => (ts.observation (.scraped (ts.scrape config request)), ts)
  | .clean accessList now =>
    let ts' := ts.clean config accessList now
    (ts'.observation .cleaned, ts')

end Torrents

variable {I : Type} [DecidableEq I]

structure TorrentMap.Refines (m : TorrentMap I) (ts : Torrents I) : Prop where
  present : ∀ {hash d}, m.torrents.get hash = some d → ∃ t, ts hash = some t ∧ d.Refines t
  absent : ∀ {hash}, m.torrents.get hash = none → ts hash = none

theorem observation_eq {m : TorrentMap I} {ts : Torrents I} (h : m.Refines ts) (result : Result) :
    m.observation result = ts.observation result := by
  have hget : ∀ hash, (m.torrents.get hash).map PeerMap.get = (ts hash).map Swarm.Torrent.peers := by
    intro hash
    cases hd : m.torrents.get hash with
    | none => rw [h.absent hd]; rfl
    | some d =>
      obtain ⟨t, ht, hrefines⟩ := h.present hd
      rw [ht]
      exact congrArg some (funext hrefines.peers)
  simp only [TorrentMap.observation, Torrents.observation, hget]

/-- An announce is answered from its torrent, and changes no other. -/
theorem announce_answered (config : Config) {m : TorrentMap I} {ts : Torrents I}
    (h : m.Refines ts) (rng : Rng) (validUntil : ValidUntil) (peerIpAddress : I)
    (request : AnnounceRequest) :
    ∃ r m' rng', m.upsertPeerAndGetResponsePeers config rng validUntil peerIpAddress request =
        some ((r.seeders, r.leechers, r.peers), m', rng') ∧
      PeerMap.Answered (ts.announced request) ⟨peerIpAddress, request.port⟩
        (maxNumPeersToTake config request) r ∧
      m'.Refines (ts.announce validUntil peerIpAddress request) := by
  have hd : ((m.torrents.get request.infoHash).getD Swarm.PeerMap.default).Refines
      (ts.announced request) := by
    unfold Torrents.announced
    cases hd : m.torrents.get request.infoHash with
    | none =>
      rw [h.absent hd]
      exact PeerMap.refines_default
    | some d =>
      obtain ⟨t, ht, hrefines⟩ := h.present hd
      rw [ht]
      exact hrefines
  obtain ⟨r, d', rng', hr, hanswered, hrefines⟩ := PeerMap.announce_refines hd rng request.status
    request.isCompleted ⟨peerIpAddress, request.port⟩ (request.peer validUntil)
    (maxNumPeersToTake config request)
  refine ⟨r, ⟨m.torrents.insert request.infoHash d'⟩, rng', ?_, hanswered, ?_⟩
  · simp only [TorrentMap.upsertPeerAndGetResponsePeers, TorrentData.upsertPeerAndGetResponsePeers,
      hr]
    rfl
  · constructor
    · intro hash d hget
      rw [IndexMap.get_insert] at hget
      split at hget
      · rename_i hhash
        cases hget
        exact ⟨_, if_pos hhash, hrefines⟩
      · rename_i hhash
        obtain ⟨t, ht, hd⟩ := h.present hget
        exact ⟨t, (if_neg hhash).trans ht, hd⟩
    · intro hash hget
      rw [IndexMap.get_insert] at hget
      split at hget
      · cases hget
      · rename_i hhash
        exact (if_neg hhash).trans (h.absent hget)

theorem announce_simulates (config : Config) {m : TorrentMap I} {ts : Torrents I}
    (h : m.Refines ts) (rng : Rng) (validUntil : ValidUntil) (peerIpAddress : I)
    (request : AnnounceRequest) :
    ∃ peers m' rng',
      m.upsertPeerAndGetResponsePeers config rng validUntil peerIpAddress request =
        some ((((ts.announced request).remove ⟨peerIpAddress, request.port⟩).seeders,
          ((ts.announced request).remove ⟨peerIpAddress, request.port⟩).leechers, peers),
          m', rng') ∧
      m'.Refines (ts.announce validUntil peerIpAddress request) := by
  obtain ⟨r, m', rng', hm', hanswered, hrefines⟩ :=
    announce_answered config h rng validUntil peerIpAddress request
  rw [hanswered.seeders, hanswered.leechers] at hm'
  exact ⟨r.peers, m', rng', hm', hrefines⟩

/-- No more peers are sent than the settings allow. -/
theorem length_peers_le (config : Config) {m m' : TorrentMap I} {ts : Torrents I}
    (h : m.Refines ts) {rng rng' : Rng} {validUntil : ValidUntil} {peerIpAddress : I}
    {request : AnnounceRequest} {seeders leechers : Nat} {peers : List (ResponsePeer I)}
    (hm' : m.upsertPeerAndGetResponsePeers config rng validUntil peerIpAddress request =
      some ((seeders, leechers, peers), m', rng')) :
    peers.length ≤ config.protocol.maxPeers := by
  obtain ⟨r, m'', rng'', hr, hanswered, -⟩ :=
    announce_answered config h rng validUntil peerIpAddress request
  cases hm'.symm.trans hr
  have hmax : maxNumPeersToTake config request ≤ config.protocol.maxPeers := by
    unfold maxNumPeersToTake
    split
    · exact Nat.le_refl _
    · exact Nat.le_refl _
    · exact Nat.min_le_right _ _
  rw [hanswered.length]
  exact (Nat.min_le_left _ _).trans hmax

theorem scrapeOne_eq {m : TorrentMap I} {ts : Torrents I} (h : m.Refines ts)
    (infoHash : InfoHash) : m.scrapeOne infoHash = some (ts.scrapeOne infoHash) := by
  unfold TorrentMap.scrapeOne Torrents.scrapeOne
  cases hd : m.torrents.get infoHash with
  | none =>
    rw [h.absent hd]
  | some d =>
    obtain ⟨t, ht, hrefines⟩ := h.present hd
    rw [ht]
    have hcompleted : ∀ n, u64ToUsizeChecked (UInt64.ofNat n) = n % 2 ^ 64 :=
      fun n => UInt64.toNat_ofNat'
    simp only [TorrentData.scrapeStatistics, hrefines.numSeedersLeechers, hrefines.completed,
      hcompleted]
    rfl

/-- Each file is what was said of its torrent when the response was made. -/
theorem getElem?_of_foldlM {scrapeOne : InfoHash → Option ScrapeStatistics}
    {hashes : List InfoHash} {files files' : Std.TreeMap InfoHash ScrapeStatistics}
    (h : hashes.foldlM (fun files hash => do
      return Std.TreeMap.insert files hash (← scrapeOne hash)) files = some files')
    (hash : InfoHash) :
    files'[hash]? = (if hash ∈ hashes then scrapeOne hash else files[hash]?) ∧
      (hash ∈ hashes → (scrapeOne hash).isSome) := by
  induction hashes generalizing files with
  | nil =>
    cases h
    exact ⟨rfl, fun hmem => absurd hmem List.not_mem_nil⟩
  | cons x hashes ih =>
    obtain ⟨files'', hinsert, hrest⟩ := Option.bind_eq_some_iff.mp h
    obtain ⟨statistics, hone, heq⟩ := Option.bind_eq_some_iff.mp hinsert
    cases heq
    obtain ⟨hfiles, hsome⟩ := ih hrest
    rw [hfiles, Std.TreeMap.getElem?_insert]
    by_cases hx : hash = x
    · subst hx
      simp [hone]
    · have hne : compare x hash ≠ .eq := fun heq => hx (Std.LawfulEqOrd.eq_of_compare heq).symm
      refine ⟨by simp [hx, hne], fun hmem => hsome ?_⟩
      exact (List.mem_cons.mp hmem).resolve_left hx

/-- Filling in the files one hash after the other, each with what `stats` gives. -/
theorem foldlM_files {scrapeOne : InfoHash → Option ScrapeStatistics}
    {stats : InfoHash → ScrapeStatistics} (h : ∀ hash, scrapeOne hash = some (stats hash))
    (hashes : List InfoHash) (files : Std.TreeMap InfoHash ScrapeStatistics) :
    ∃ files', hashes.foldlM (fun files hash => do
        return Std.TreeMap.insert files hash (← scrapeOne hash)) files = some files' ∧
      ∀ hash, files'[hash]? = if hash ∈ hashes then some (stats hash) else files[hash]? := by
  have hfold : ∃ files', hashes.foldlM (fun files hash => do
      return Std.TreeMap.insert files hash (← scrapeOne hash)) files = some files' := by
    induction hashes generalizing files with
    | nil => exact ⟨files, rfl⟩
    | cons x hashes ih =>
      rw [List.foldlM_cons, h x]
      exact ih (files.insert x (stats x))
  obtain ⟨files', hfiles'⟩ := hfold
  refine ⟨files', hfiles', ?_⟩
  intro hash
  rw [(getElem?_of_foldlM hfiles' hash).1, h hash]

omit [DecidableEq I] in
theorem handleScrapeRequest_eq {m : TorrentMap I} {stats : InfoHash → ScrapeStatistics}
    (h : ∀ hash, m.scrapeOne hash = some (stats hash)) (config : Config) (request : ScrapeRequest) :
    ∃ response, m.handleScrapeRequest config request = some response ∧
      ∀ hash, response.files[hash]? =
        if hash ∈ request.infoHashes.take config.protocol.maxScrapeTorrents then some (stats hash)
        else none := by
  obtain ⟨files, hfold, hfiles⟩ := foldlM_files h
    (request.infoHashes.take (min request.infoHashes.length config.protocol.maxScrapeTorrents)) ∅
  refine ⟨⟨files⟩, by simp only [TorrentMap.handleScrapeRequest, hfold]; rfl, ?_⟩
  intro hash
  have htake : request.infoHashes.take
      (min request.infoHashes.length config.protocol.maxScrapeTorrents) =
      request.infoHashes.take config.protocol.maxScrapeTorrents := by
    rw [Nat.min_comm, ← List.take_eq_take_min]
  rw [hfiles hash, htake]
  simp

theorem handleScrapeRequest_simulates (config : Config) {m : TorrentMap I} {ts : Torrents I}
    (h : m.Refines ts) (request : ScrapeRequest) :
    ∃ response, m.handleScrapeRequest config request = some response ∧
      ∀ hash, response.files[hash]? = ts.scrape config request hash :=
  handleScrapeRequest_eq (scrapeOne_eq h) config request

/-- The visit of one torrent: dropped, or cleaned and kept. -/
theorem cleanOne_simulates (config : Config) {d : TorrentData I} {t : Torrent I} (h : d.Refines t)
    (accessList : AccessList) (now : SecondsSinceServerStart) (infoHash : InfoHash) :
    ∃ o, TorrentMap.cleanOne config accessList now infoHash d = some o ∧
      (o = none → Torrents.cleanOne config accessList now infoHash t = none) ∧
      ∀ d', o = some d' → ∃ t', Torrents.cleanOne config accessList now infoHash t = some t' ∧
        d'.Refines t' := by
  unfold TorrentMap.cleanOne Torrents.cleanOne
  cases accessList.allows config.accessListMode infoHash with
  | false =>
    refine ⟨none, rfl, fun _ => rfl, ?_⟩
    intro d' hd'
    cases hd'
  | true =>
    obtain ⟨d', hclean, hrefines⟩ := PeerMap.cleanAndGetNumPeers_refines h now
    simp only [hclean]
    by_cases hempty : (t.clean now).isEmpty = true
    · have hzero := mt hrefines.count_pos_iff.mp (by simpa using hempty)
      refine ⟨none, by simp [hzero], fun _ => by simp [hempty], ?_⟩
      intro d'' hd''
      cases hd''
    · have hpos := hrefines.count_pos_iff.mpr (by simpa using hempty)
      refine ⟨some d', by simp [hpos], ?_, ?_⟩
      · intro hnone
        cases hnone
      · intro d'' hd''
        cases hd''
        exact ⟨_, by simp [hempty], hrefines⟩

theorem clean_simulates (config : Config) {m : TorrentMap I} {ts : Torrents I} (h : m.Refines ts)
    (accessList : AccessList) (now : SecondsSinceServerStart) :
    ∃ m', m.clean config accessList now = some m' ∧
      m'.Refines (ts.clean config accessList now) := by
  have hall : ∀ hash d, m.torrents.get hash = some d →
      ∃ o, TorrentMap.cleanOne config accessList now hash d = some o := by
    intro hash d hd
    obtain ⟨t, -, hrefines⟩ := h.present hd
    obtain ⟨o, ho, -⟩ := cleanOne_simulates config hrefines accessList now hash
    exact ⟨o, ho⟩
  refine ⟨_, by simp only [TorrentMap.clean, IndexMap.filterMapM_eq hall]; rfl, ?_⟩
  constructor
  · intro hash d' hd'
    rw [IndexMap.get_filterMap] at hd'
    obtain ⟨d, hd, hvisit⟩ := Option.bind_eq_some_iff.mp hd'
    obtain ⟨t, ht, hrefines⟩ := h.present hd
    obtain ⟨o, ho, -, hsome⟩ := cleanOne_simulates config hrefines accessList now hash
    rw [ho] at hvisit
    simp only [Torrents.clean, ht]
    exact hsome d' hvisit
  · intro hash hd'
    rw [IndexMap.get_filterMap] at hd'
    unfold Torrents.clean
    cases hd : m.torrents.get hash with
    | none => rw [h.absent hd]; rfl
    | some d =>
      obtain ⟨t, ht, hrefines⟩ := h.present hd
      obtain ⟨o, ho, hnone, -⟩ := cleanOne_simulates config hrefines accessList now hash
      rw [hd, Option.bind_some, ho] at hd'
      rw [ht]
      exact hnone hd'

theorem step_simulates (config : Config) {m : TorrentMap I} {ts : Torrents I} (a : Action I)
    (h : m.Refines ts) :
    ∃ m', m.step config a = some ((ts.step config a).1, m') ∧
      m'.Refines (ts.step config a).2 := by
  cases a with
  | announce rng validUntil peerIpAddress request =>
    obtain ⟨peers, m', rng', hm', hrefines⟩ :=
      announce_simulates config h rng validUntil peerIpAddress request
    refine ⟨m', ?_, hrefines⟩
    simp only [TorrentMap.step, hm', Torrents.step, ← observation_eq hrefines]
    rfl
  | scrape request =>
    obtain ⟨response, hresponse, hfiles⟩ := handleScrapeRequest_simulates config h request
    have hscraped : (fun hash => response.files[hash]?) = ts.scrape config request :=
      funext hfiles
    refine ⟨m, ?_, h⟩
    simp only [TorrentMap.step, hresponse, Torrents.step, ← observation_eq h, ← hscraped]
    rfl
  | clean accessList now =>
    obtain ⟨m', hm', hrefines⟩ := clean_simulates config h accessList now
    refine ⟨m', ?_, hrefines⟩
    simp only [TorrentMap.step, hm', Torrents.step, ← observation_eq hrefines]
    rfl

/-- Every run of the torrent map: nothing aborts, everything shown is what the
reference shows, and the representation of every torrent is sound. -/
theorem torrentMap_refines_map (config : Config) (as : List (Action I)) :
    ∃ m, observe (TorrentMap.step config) TorrentMap.empty as =
        some ((answers (Torrents.step config) (fun _ => none : Torrents I) as).1, m) ∧
      (∀ hash d, m.torrents.get hash = some d → d.Sound) := by
  have hempty : (TorrentMap.empty : TorrentMap I).Refines fun _ => none := ⟨nofun, fun _ => rfl⟩
  obtain ⟨m, hm, hrefines⟩ := observe_eq_answers (step_simulates config) as hempty
  refine ⟨m, hm, ?_⟩
  intro hash d hd
  obtain ⟨t, -, ht⟩ := hrefines.present hd
  exact ht.wellFormed.sound

theorem completed_replicate (config : Config) (ts : Torrents I) (rng : Rng)
    (validUntil : ValidUntil) (peerIpAddress : I) {request : AnnounceRequest}
    (hcompleted : request.isCompleted = true) (n : Nat) :
    Swarm.Torrent.completed ((answers (Torrents.step config) ts
      (List.replicate n (.announce rng validUntil peerIpAddress request))).2.announced request) =
      (ts.announced request).completed + n := by
  induction n generalizing ts with
  | zero => rfl
  | succ n ih =>
    have hone : ((ts.announce validUntil peerIpAddress request).announced request).completed =
        (ts.announced request).completed + 1 := by
      have hannounce : (ts.announce validUntil peerIpAddress request).announced request =
          (ts.announced request).announce request.status request.isCompleted
            ⟨peerIpAddress, request.port⟩ (request.peer validUntil) := by
        simp [Torrents.announce, Torrents.announced]
      rw [hannounce]
      simp only [Swarm.Torrent.announce, hcompleted]
      split <;> rfl
    simp only [List.replicate_succ, answers, Torrents.step, ih, hone]
    omega

/-- After `n` completed downloads a scrape of the torrent reports `n % 2^64`. -/
theorem scrape_replicate {config : Config} (hmax : 0 < config.protocol.maxScrapeTorrents)
    (rng : Rng) (validUntil : ValidUntil) (peerIpAddress : I) {request : AnnounceRequest}
    (hcompleted : request.isCompleted = true) (n : Nat) :
    (Torrents.scrape config (answers (Torrents.step config) (fun _ => none : Torrents I)
        (List.replicate n (.announce rng validUntil peerIpAddress request))).2
      ⟨[request.infoHash]⟩ request.infoHash).map ScrapeStatistics.downloaded =
      some (n % 2 ^ 64) := by
  have hcount := completed_replicate config (fun _ => none : Torrents I) rng validUntil
    peerIpAddress hcompleted n
  generalize (answers (Torrents.step config) (fun _ => none : Torrents I)
    (List.replicate n (.announce rng validUntil peerIpAddress request))).2 = ts at hcount ⊢
  have htake : [request.infoHash].take config.protocol.maxScrapeTorrents = [request.infoHash] :=
    List.take_of_length_le hmax
  have hempty : (Torrents.announced (fun _ => none : Torrents I) request).completed = 0 := rfl
  rw [hempty, Nat.zero_add] at hcount
  rw [← hcount]
  simp only [Torrents.scrape, htake, List.mem_singleton, if_true, Option.map_some]
  unfold Torrents.scrapeOne Torrents.announced
  cases ts request.infoHash <;> rfl

def exampleConfig : Config := ⟨⟨100, 50⟩, .off⟩

/-- A seeder that says it has just finished. -/
def completedRequest : AnnounceRequest where
  infoHash := ⟨Vector.replicate 20 7⟩
  port := 6881
  bytesLeft := 0
  event := .completed
  numwant := none

def completedRun : List (Action (BitVec 32)) :=
  List.replicate (2 ^ 64) (.announce ⟨fun _ => 0⟩ ⟨1000⟩ 0x0a000001#32 completedRequest)

/-- After 2^64 completed downloads a scrape reports none. -/
theorem scrape_downloaded_wraps :
    completedRun.length = 2 ^ 64 ∧
      ∃ before after files m,
        observe (TorrentMap.step exampleConfig) TorrentMap.empty
            (completedRun ++ [.scrape ⟨[completedRequest.infoHash]⟩]) =
          some (before ++ [after], m) ∧
        after.result = .scraped files ∧
        (files completedRequest.infoHash).map ScrapeStatistics.downloaded = some 0 := by
  refine ⟨List.length_replicate, ?_⟩
  have hempty : (TorrentMap.empty : TorrentMap (BitVec 32)).Refines fun _ => none :=
    ⟨nofun, fun _ => rfl⟩
  obtain ⟨m, hm, -⟩ := observe_eq_answers (step_simulates exampleConfig)
    (completedRun ++ [.scrape ⟨[completedRequest.infoHash]⟩]) hempty
  rw [answers_append] at hm
  have hmax : 0 < exampleConfig.protocol.maxScrapeTorrents := by decide
  have hscraped := scrape_replicate hmax ⟨fun _ => 0⟩ ⟨1000⟩ 0x0a000001#32
    (show completedRequest.isCompleted = true from rfl) (2 ^ 64)
  rw [Nat.mod_self] at hscraped
  exact ⟨_, _, _, m, hm, rfl, hscraped⟩

end Aquatic.Http
