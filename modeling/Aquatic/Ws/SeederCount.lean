import Aquatic.Lib.Transition
import Aquatic.Ws.TorrentMapsSpec

/-!
# The numbers of seeders and leechers that are reported
-/

namespace Aquatic.Ws
open Collections Transition
set_option autoImplicit false

namespace TorrentData

def seeders (d : TorrentData) : Nat := d.peers.count Peer.seeder

def nonSeeders (d : TorrentData) : Nat := d.peers.count fun peer => !peer.seeder

def statistics (d : TorrentData) : ScrapeStatistics where
  complete := d.seeders
  incomplete := d.nonSeeders
  downloaded := 0

theorem numLeechers_eq_nonSeeders {d : TorrentData} (h : d.Counted) :
    d.numLeechers = some d.nonSeeders := by
  rw [numLeechers_eq h, nonSeeders, IndexMap.count_not]

theorem handleAnswer_no_response (d : TorrentData) (metadata : InMessageMeta)
    (infoHash : InfoHash) (peerId answerReceiverId : PeerId) (offerId : OfferId)
    (answer : RtcAnswer) (m : OutMessageMeta) (response : AnnounceResponse) :
    (m, .announceResponse response) ∉
      (d.handleAnswer metadata infoHash peerId answerReceiverId offerId answer).1.toList := by
  unfold handleAnswer
  cases d.peers.get answerReceiverId with
  | none => simp
  | some answerReceiver =>
    simp only
    split <;> simp

/-- Offers and answers that are passed on are no announce responses. -/
theorem handleOffersAndAnswer_no_response {config : Config} {d d' : TorrentData} {rng rng' : Rng}
    {now : SecondsSinceServerStart} {metadata : InMessageMeta} {request : AnnounceRequest}
    {a : Announced}
    (h : d.handleOffersAndAnswer config rng now metadata request = some (a, d', rng'))
    (m : OutMessageMeta) (response : AnnounceResponse) :
    (m, .announceResponse response) ∉ a.outMessages := by
  obtain ⟨⟨forwarded, d₁, rng₁⟩, -, h⟩ := Option.bind_eq_some_iff.mp h
  cases h
  intro hmem
  rcases List.mem_append.mp hmem with hoffer | hanswer
  · obtain ⟨f, -, hf⟩ := List.mem_map.mp hoffer
    cases hf
  · cases hfull : request.fullAnswer with
    | none => simp [hfull] at hanswer
    | some triple =>
      simp only [hfull] at hanswer
      exact handleAnswer_no_response _ _ _ _ _ _ _ _ _ hanswer

/-- A response reports the counter as it is when the announce has been handled. -/
theorem handleAnnounceRequest_response {config : Config} {d d' : TorrentData} {rng rng' : Rng}
    {now : SecondsSinceServerStart} {metadata : InMessageMeta} {request : AnnounceRequest}
    {a : Announced}
    (h : d.handleAnnounceRequest config rng now metadata request = some (a, d', rng'))
    {m : OutMessageMeta} {response : AnnounceResponse}
    (hm : (m, .announceResponse response) ∈ a.outMessages) :
    response.infoHash = request.infoHash ∧ response.complete = d'.numSeeders ∧
      some response.incomplete = d'.numLeechers := by
  unfold handleAnnounceRequest at h
  split at h
  · cases h
    cases hm
  · obtain ⟨⟨peerStatus, d₁⟩, -, h⟩ := Option.bind_eq_some_iff.mp h
    simp only at h
    split at h
    · obtain ⟨⟨announced, d₂, rng₂⟩, hannounced, h⟩ := Option.bind_eq_some_iff.mp h
      obtain ⟨numLeechers, hleechers, h⟩ := Option.bind_eq_some_iff.mp h
      cases h
      rcases List.mem_append.mp hm with hbefore | hlast
      · exact absurd hbefore (handleOffersAndAnswer_no_response hannounced _ _)
      · cases List.mem_singleton.mp hlast
        exact ⟨rfl, rfl, hleechers.symm⟩
    · obtain ⟨⟨announced, d₂, rng₂⟩, hannounced, h⟩ := Option.bind_eq_some_iff.mp h
      cases hannounced
      obtain ⟨numLeechers, hleechers, h⟩ := Option.bind_eq_some_iff.mp h
      cases h
      cases List.mem_singleton.mp hm
      exact ⟨rfl, rfl, hleechers.symm⟩

end TorrentData

namespace TorrentMap

def seeders (m : TorrentMap) (infoHash : InfoHash) : Nat :=
  ((m.torrents.get infoHash).map TorrentData.seeders).getD 0

def nonSeeders (m : TorrentMap) (infoHash : InfoHash) : Nat :=
  ((m.torrents.get infoHash).map TorrentData.nonSeeders).getD 0

/-- What a scrape of the info hashes must report. -/
def statistics (m : TorrentMap) (infoHashes : List InfoHash) (infoHash : InfoHash) :
    Option ScrapeStatistics :=
  if infoHash ∈ infoHashes then (m.torrents.get infoHash).map TorrentData.statistics else none

theorem handleAnnounceRequest_response {config : Config} {m m' : TorrentMap} {rng rng' : Rng}
    {now : SecondsSinceServerStart} {metadata : InMessageMeta} {request : AnnounceRequest}
    {a : Announced} (hcounted : m'.Counted)
    (h : m.handleAnnounceRequest config rng now metadata request = some (a, m', rng'))
    {receiver : OutMessageMeta} {response : AnnounceResponse}
    (hm : (receiver, .announceResponse response) ∈ a.outMessages) :
    response.complete = m'.seeders response.infoHash ∧
      response.incomplete = m'.nonSeeders response.infoHash := by
  obtain ⟨⟨a', d', rng''⟩, hd', h⟩ := Option.bind_eq_some_iff.mp h
  cases h
  obtain ⟨hhash, hcomplete, hincomplete⟩ := TorrentData.handleAnnounceRequest_response hd' hm
  have hget : (m.torrents.insert request.infoHash d').get response.infoHash = some d' := by
    rw [hhash, IndexMap.get_insert, if_pos rfl]
  have hd : d'.Counted := hcounted hget
  rw [TorrentData.numLeechers_eq_nonSeeders hd] at hincomplete
  rw [seeders, nonSeeders, hget, hcomplete]
  exact ⟨hd, Option.some.inj hincomplete⟩

theorem scrapeOne_spec {m : TorrentMap} (h : m.Counted) (files : IndexMap InfoHash ScrapeStatistics)
    (infoHash : InfoHash) :
    ∃ files', m.scrapeOne files infoHash = some files' ∧
      ∀ k, files'.get k = if k = infoHash then
        ((m.torrents.get k).map TorrentData.statistics).or (files.get k)
        else files.get k := by
  unfold scrapeOne
  cases hd : m.torrents.get infoHash with
  | none =>
    refine ⟨files, rfl, ?_⟩
    intro k
    split
    · rename_i hk
      simp [hk, hd]
    · rfl
  | some d =>
    have hcounted : d.Counted := h hd
    refine ⟨_, by simp only [TorrentData.numLeechers_eq_nonSeeders hcounted]; rfl, ?_⟩
    intro k
    rw [IndexMap.get_insert]
    by_cases hk : k = infoHash
    · subst hk
      rw [if_pos rfl, if_pos rfl, hd, hcounted]
      rfl
    · rw [if_neg hk, if_neg hk]

/-- A loop over the info hashes collects the statistics of those that there are. -/
theorem foldlM_scrapeOne {m : TorrentMap} (h : m.Counted) (infoHashes : List InfoHash)
    (files : IndexMap InfoHash ScrapeStatistics) :
    ∃ files', infoHashes.foldlM m.scrapeOne files = some files' ∧
      ∀ k, files'.get k = (m.statistics infoHashes k).or (files.get k) := by
  induction infoHashes generalizing files with
  | nil => exact ⟨files, rfl, fun k => by simp [statistics]⟩
  | cons infoHash infoHashes ih =>
    obtain ⟨files₁, hfiles₁, hget₁⟩ := scrapeOne_spec h files infoHash
    obtain ⟨files₂, hfiles₂, hget₂⟩ := ih files₁
    refine ⟨files₂, by simp only [List.foldlM_cons, hfiles₁]; exact hfiles₂, ?_⟩
    intro k
    rw [hget₂, hget₁]
    by_cases hk : k = infoHash
    · subst hk
      by_cases hmem : k ∈ infoHashes
      · cases hd : m.torrents.get k <;> simp [statistics, hmem, hd]
      · simp [statistics, hmem]
    · simp [statistics, hk]

theorem handleScrapeRequest_spec {m : TorrentMap} (h : m.Counted) (maxScrapeTorrents : Nat)
    (metadata : InMessageMeta) (request : ScrapeRequest) :
    ∃ out, m.handleScrapeRequest maxScrapeTorrents metadata request = some out ∧
      ∀ r ∈ out, ∃ infoHashes, request.infoHashes = some infoHashes ∧ ∀ k, r.2.files.get k =
        m.statistics (infoHashes.asVec.take (min infoHashes.asVec.length maxScrapeTorrents)) k := by
  unfold handleScrapeRequest
  cases request.infoHashes with
  | none => exact ⟨[], rfl, nofun⟩
  | some infoHashes =>
    obtain ⟨files, hfiles, hget⟩ := foldlM_scrapeOne h
      (infoHashes.asVec.take (min infoHashes.asVec.length maxScrapeTorrents)) IndexMap.empty
    refine ⟨[(metadata.out, ⟨files⟩)], by simp only [hfiles]; rfl, ?_⟩
    intro r hr
    cases List.mem_singleton.mp hr
    refine ⟨infoHashes, rfl, ?_⟩
    intro k
    rw [hget, IndexMap.get_empty, Option.or_none]

end TorrentMap

/-- A message for the swarm worker, with what it reads from outside: the random
generator, the clock and the access list. -/
inductive SwarmAction where
  | announce (rng : Rng) (now : SecondsSinceServerStart) (metadata : InMessageMeta)
    (request : AnnounceRequest)
  | scrape (metadata : InMessageMeta) (request : ScrapeRequest)
  | connectionClosed (infoHash : InfoHash) (peerId : PeerId) (ipVersion : IpVersion)
  | clean (accessList : AccessList) (now : SecondsSinceServerStart)

structure SwarmOut where
  outMessages : List (OutMessageMeta × OutMessage)
  scrapeResponses : List (OutMessageMeta × ScrapeResponse)

namespace TorrentMaps

def handle (config : Config) (maxScrapeTorrents : Nat) (m : TorrentMaps) :
    SwarmAction → Option (SwarmOut × TorrentMaps)
  | .announce rng now metadata request => do
    let (announced, m, _) ← m.handleAnnounceRequest config rng now metadata request
    return (⟨announced.outMessages, []⟩, m)
  | .scrape metadata request => do
    let responses ← m.handleScrapeRequest maxScrapeTorrents metadata request
    return (⟨[], responses⟩, m)
  | .connectionClosed infoHash peerId ipVersion => do
    return (⟨[], []⟩, ← m.handleConnectionClosed infoHash peerId ipVersion)
  | .clean accessList now => do
    return (⟨[], []⟩, ← m.clean config accessList now)

def step (config : Config) (maxScrapeTorrents : Nat) (m : TorrentMaps) (action : SwarmAction) :
    Option TorrentMaps :=
  (m.handle config maxScrapeTorrents action).map Prod.snd

/-- The responses of a step report the peers that are registered after it. -/
def Reported (config : Config) (maxScrapeTorrents : Nat) (m : TorrentMaps) (action : SwarmAction)
    (m' : TorrentMaps) : Prop :=
  ∃ out, m.handle config maxScrapeTorrents action = some (out, m') ∧
    (∀ receiver response, (receiver, .announceResponse response) ∈ out.outMessages →
      ∃ rng now metadata request, action = .announce rng now metadata request ∧
        response.complete = (m'.torrentMap metadata.ipVersion).seeders response.infoHash ∧
        response.incomplete = (m'.torrentMap metadata.ipVersion).nonSeeders response.infoHash) ∧
    ∀ r ∈ out.scrapeResponses, ∃ metadata request infoHashes,
      action = .scrape metadata request ∧ request.infoHashes = some infoHashes ∧
      ∀ infoHash, r.2.files.get infoHash = (m'.torrentMap metadata.ipVersion).statistics
        (infoHashes.asVec.take (min infoHashes.asVec.length maxScrapeTorrents)) infoHash

theorem reported_of_silent {config : Config} {maxScrapeTorrents : Nat} {m m' : TorrentMaps}
    {action : SwarmAction} (h : m.handle config maxScrapeTorrents action = some (⟨[], []⟩, m')) :
    Reported config maxScrapeTorrents m action m' :=
  ⟨_, h, by simp, by simp⟩

theorem handle_spec {m : TorrentMaps} (h : m.Counted) (config : Config) (maxScrapeTorrents : Nat)
    (action : SwarmAction) :
    ∃ m', m.step config maxScrapeTorrents action = some m' ∧ m'.Counted ∧
      Reported config maxScrapeTorrents m action m' := by
  unfold step
  cases action with
  | announce rng now metadata request =>
    obtain ⟨a, m', rng', hm', hcounted, -⟩ := handleAnnounceRequest_spec h config rng now metadata
      request
    refine ⟨m', by simp [handle, hm'], hcounted, _, by simp only [handle, hm']; rfl, ?_, by simp⟩
    intro receiver response hresponse
    obtain ⟨⟨a', map, rng''⟩, hmap, hm'⟩ := Option.bind_eq_some_iff.mp hm'
    cases hm'
    have hmapCounted : map.Counted := by
      simpa [TorrentMap.Counted] using @hcounted metadata.ipVersion
    refine ⟨rng, now, metadata, request, rfl, ?_⟩
    rw [torrentMap_setTorrentMap, if_pos rfl]
    exact TorrentMap.handleAnnounceRequest_response hmapCounted hmap hresponse
  | scrape metadata request =>
    obtain ⟨out, hout, hfiles⟩ := TorrentMap.handleScrapeRequest_spec (h metadata.ipVersion)
      maxScrapeTorrents metadata request
    refine ⟨m, by simp [handle, handleScrapeRequest, hout], h, _,
      by simp only [handle, handleScrapeRequest, hout]; rfl, by simp, ?_⟩
    intro r hr
    obtain ⟨infoHashes, hinfoHashes, hget⟩ := hfiles r hr
    exact ⟨metadata, request, infoHashes, rfl, hinfoHashes, hget⟩
  | connectionClosed infoHash peerId ipVersion =>
    obtain ⟨m', hm', hcounted, -⟩ := handleConnectionClosed_spec h infoHash peerId ipVersion
    exact ⟨m', by simp [handle, hm'], hcounted, reported_of_silent (by simp [handle, hm'])⟩
  | clean accessList now =>
    obtain ⟨m', hm', hcounted, -⟩ := clean_spec h config accessList now
    exact ⟨m', by simp [handle, hm'], hcounted, reported_of_silent (by simp [handle, hm'])⟩

/-- Whatever a swarm worker is sent, nothing underflows, its seeder counters are
right after every step and its responses report the registered peers. -/
theorem seeder_count_exact (config : Config) (maxScrapeTorrents : Nat)
    (actions : List SwarmAction) :
    (∃ m, run (step config maxScrapeTorrents) empty actions = some m) ∧
      AllSteps (step config maxScrapeTorrents)
        (fun m action m' => Reported config maxScrapeTorrents m action m' ∧
          ∀ ipVersion infoHash d, (m'.torrentMap ipVersion).torrents.get infoHash = some d →
            d.numSeeders = d.seeders ∧ d.numLeechers = some d.nonSeeders)
        empty actions := by
  have total : ∀ {m : TorrentMaps} (action : SwarmAction), m.Counted →
      ∃ m', m.step config maxScrapeTorrents action = some m' ∧ m'.Counted ∧
        Reported config maxScrapeTorrents m action m' ∧
        ∀ ipVersion infoHash d, (m'.torrentMap ipVersion).torrents.get infoHash = some d →
          d.numSeeders = d.seeders ∧ d.numLeechers = some d.nonSeeders := by
    intro m action h
    obtain ⟨m', hm', hcounted, hreported⟩ := handle_spec h config maxScrapeTorrents action
    refine ⟨m', hm', hcounted, hreported, ?_⟩
    intro ipVersion infoHash d hd
    have hdcounted : d.Counted := hcounted ipVersion hd
    exact ⟨hdcounted, TorrentData.numLeechers_eq_nonSeeders hdcounted⟩
  exact run_of_total total counted_empty actions

end TorrentMaps

end Aquatic.Ws
