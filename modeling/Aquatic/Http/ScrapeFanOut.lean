import Aquatic.Http.RequestTarget
import Aquatic.Http.Workers

/-!
# Scrapes that are split up

Whatever order the workers answer in, the response is the one that a single worker with
all torrents would give.
-/

namespace Aquatic.Http
open FanOut HttpProtocol Transition
set_option autoImplicit false

theorem infoHashes_ne_nil {urlencoding : UrlEncoding} {path : List Char} {request : ScrapeRequest}
    (h : Request.parseHttpGetPath urlencoding path = .ok (.scrape request)) :
    request.infoHashes ≠ [] := by
  unfold Request.parseHttpGetPath at h
  split at h
  · cases h
  · rename_i location queryString hsplit
    split at h
    · cases hparse : AnnounceRequest.parseQueryString urlencoding queryString with
      | error err =>
        rw [hparse] at h
        cases h
      | ok announce =>
        rw [hparse] at h
        cases h
    split at h
    · cases hparse : ScrapeRequest.parseQueryString queryString with
      | error err =>
        rw [hparse] at h
        cases h
      | ok scrape =>
        rw [hparse] at h
        cases h
        unfold ScrapeRequest.parseQueryString at hparse
        cases hpairs : parsePairs ScrapeRequest.setField queryString (queryString.idxsOf '=')
            (queryString.idxsOf '&') 0 [] with
        | error err =>
          rw [hpairs] at hparse
          cases hparse
        | ok infoHashes =>
          rw [hpairs] at hparse
          cases infoHashes with
          | nil => cases hparse
          | cons infoHash infoHashes =>
            cases hparse
            exact List.cons_ne_nil _ _
    · cases h

namespace ChannelRequest

def infoHashes : ChannelRequest → List InfoHash
  | .announce request _ => [request.infoHash]
  | .scrape request _ => request.infoHashes

end ChannelRequest

section Requests
variable {config : ServerConfig} {accessList : AccessList} {peerAddr : CanonicalSocketAddr}

theorem consumerIndex_of_mem_scrapeRequests {request part : ScrapeRequest} {consumerIndex : Nat}
    (h : (consumerIndex, part) ∈ scrapeRequests config request) {infoHash : InfoHash}
    (hmem : infoHash ∈ part.infoHashes) :
    consumerIndex = calculateRequestConsumerIndex config infoHash := by
  obtain ⟨⟨i, infoHashes⟩, hgroup, heq⟩ := List.mem_map.mp h
  cases heq
  exact ((mem_group_iff hgroup infoHash).mp hmem).2.symm

/-- Every request for a torrent goes to the worker that its info hash belongs to. -/
theorem consumerIndex_eq {request : Request} {requests : List (Nat × ChannelRequest)}
    (h : channelRequests config accessList peerAddr request = .ok requests)
    {consumerIndex : Nat} {sent : ChannelRequest} (hsent : (consumerIndex, sent) ∈ requests)
    {infoHash : InfoHash} (hmem : infoHash ∈ sent.infoHashes) :
    consumerIndex = calculateRequestConsumerIndex config infoHash := by
  cases request with
  | announce request =>
    rw [channelRequests] at h
    split at h
    · cases h
      cases List.mem_singleton.mp hsent
      rw [List.mem_singleton.mp hmem]
    · cases h
  | scrape request =>
    cases h
    obtain ⟨⟨i, part⟩, hpart, heq⟩ := List.mem_map.mp hsent
    cases heq
    exact consumerIndex_of_mem_scrapeRequests hpart hmem

end Requests

namespace PendingScrapeResponse

/-- The count goes down by one for every response. -/
theorem foldlM_merge (responses : List ScrapeResponse) (pending : PendingScrapeResponse)
    (h : responses.length ≤ pending.pendingWorkerResponses) :
    responses.foldlM merge pending =
      some ⟨pending.pendingWorkerResponses - responses.length,
        (responses.map ScrapeResponse.files).foldl
          (fun merged files => merged.insertMany files.toList) pending.stats⟩ := by
  induction responses generalizing pending with
  | nil => rfl
  | cons response responses ih =>
    rw [List.length_cons] at h
    have hmerge : pending.merge response = some ⟨pending.pendingWorkerResponses - 1,
        pending.stats.insertMany response.files.toList⟩ := by
      unfold merge
      rw [usizeSub_of_le (by omega)]
      rfl
    rw [List.foldlM_cons, hmerge]
    refine (ih _ ?_).trans ?_
    · change responses.length ≤ pending.pendingWorkerResponses - 1
      omega
    · rw [List.length_cons, Nat.sub_sub, Nat.add_comm 1]
      rfl

end PendingScrapeResponse

/-- The loop ends with the last response. -/
theorem waitForScrapeResponses_eq (responses : List ScrapeResponse) (hne : responses ≠ [])
    (pending : PendingScrapeResponse) (h : pending.pendingWorkerResponses = responses.length) :
    waitForScrapeResponses (responses.map some) pending =
      some (.ok (.scrape ⟨(responses.map ScrapeResponse.files).foldl
        (fun merged files => merged.insertMany files.toList) pending.stats⟩)) := by
  induction responses generalizing pending with
  | nil => exact absurd rfl hne
  | cons response responses ih =>
    have hmerge : pending.merge response =
        some ⟨responses.length, pending.stats.insertMany response.files.toList⟩ := by
      unfold PendingScrapeResponse.merge
      rw [h, List.length_cons, usizeSub_of_le (by omega)]
      rfl
    rw [List.map_cons, waitForScrapeResponses, hmerge]
    cases responses with
    | nil => rfl
    | cons next responses =>
      exact ih (List.cons_ne_nil _ _)
        ⟨(next :: responses).length, pending.stats.insertMany response.files.toList⟩ rfl

/-- One worker that has every torrent as its owner has it. -/
def HoldsAll (config : ServerConfig) (workers : Nat → TorrentMaps) (whole : TorrentMaps) : Prop :=
  ∀ infoHash, let owner := workers (calculateRequestConsumerIndex config infoHash)
    whole.ipv4.torrents.get infoHash = owner.ipv4.torrents.get infoHash ∧
      whole.ipv6.torrents.get infoHash = owner.ipv6.torrents.get infoHash

theorem HoldsAll.scrapeOne_eq {config : ServerConfig} {workers : Nat → TorrentMaps}
    {whole : TorrentMaps} (h : HoldsAll config workers whole) (peerAddr : CanonicalSocketAddr)
    (infoHash : InfoHash) : whole.scrapeOne peerAddr infoHash =
      (workers (calculateRequestConsumerIndex config infoHash)).scrapeOne peerAddr infoHash := by
  unfold TorrentMaps.scrapeOne TorrentMap.scrapeOne
  rw [(h infoHash).1, (h infoHash).2]

/-- What the workers answer to the parts of a request, in the order of the workers. -/
def workerResponses (config : ServerConfig) (workers : Nat → TorrentMaps)
    (peerAddr : CanonicalSocketAddr) (request : ScrapeRequest) : Option (List ScrapeResponse) :=
  (scrapeRequests config request).mapM fun (consumerIndex, request) =>
    (workers consumerIndex).handleScrapeRequest config peerAddr request

/-- The responses are counted down to the last one, and together they are the response of one
worker that has every torrent. -/
structure Transparent (config : ServerConfig) (workers : Nat → TorrentMaps)
    (peerAddr : CanonicalSocketAddr) (request : ScrapeRequest) (arrivals : List ScrapeResponse) :
    Prop where
  counted : ∀ n ≤ arrivals.length, ∃ pending,
    (arrivals.take n).foldlM PendingScrapeResponse.merge (pendingScrapeResponse config request) =
      some pending ∧ pending.pendingWorkerResponses + n = arrivals.length
  merged : ∃ response,
    waitForScrapeResponses (arrivals.map some) (pendingScrapeResponse config request) =
      some (.ok (.scrape response)) ∧
    (∀ infoHash ∈ request.infoHashes, ∃ statistics, response.files[infoHash]? = some statistics ∧
      (workers (calculateRequestConsumerIndex config infoHash)).scrapeOne peerAddr infoHash =
        some statistics) ∧
    (∀ infoHash, infoHash ∉ request.infoHashes → response.files[infoHash]? = none) ∧
    ∀ whole, HoldsAll config workers whole → ∃ wholeResponse,
      whole.handleScrapeRequest config peerAddr request = some wholeResponse ∧
      wholeResponse.files.toList = response.files.toList

/-- The info hashes that the workers answer, each of them as many as the settings allow. -/
def answeredHashes (config : ServerConfig) (request : ScrapeRequest) : List InfoHash :=
  (scrapeRequests config request).flatMap fun (_, part) =>
    part.infoHashes.take config.protocol.maxScrapeTorrents

section Scrape
variable {config : ServerConfig} {workers : Nat → TorrentMaps} {request : ScrapeRequest}

theorem mem_answeredHashes_iff
    (hmax : request.infoHashes.length ≤ config.protocol.maxScrapeTorrents) (infoHash : InfoHash) :
    infoHash ∈ answeredHashes config request ↔ infoHash ∈ request.infoHashes := by
  rw [answeredHashes, List.mem_flatMap,
    ← exists_group_iff (calculateRequestConsumerIndex config) request.infoHashes]
  constructor
  · rintro ⟨e, he, hmem⟩
    obtain ⟨group, hgroup, rfl⟩ := List.mem_map.mp he
    exact ⟨group, hgroup, List.mem_of_mem_take hmem⟩
  · rintro ⟨group, hgroup, hmem⟩
    refine ⟨(group.1, ⟨group.2⟩), List.mem_map_of_mem hgroup, ?_⟩
    change infoHash ∈ group.2.take config.protocol.maxScrapeTorrents
    rw [List.take_of_length_le ((length_group_le hgroup).trans hmax)]
    exact hmem

variable (config) in
/-- What is merged tells of the torrents that are answered what their owners hold. -/
theorem merged_of_sound (hworkers : ∀ i, (workers i).Sound) (peerAddr : CanonicalSocketAddr)
    (hne : request.infoHashes ≠ []) :
    ∃ (tell : InfoHash → ScrapeStatistics) (responses : List ScrapeResponse),
      (∀ infoHash,
        (workers (calculateRequestConsumerIndex config infoHash)).scrapeOne peerAddr infoHash =
          some (tell infoHash)) ∧
      workerResponses config workers peerAddr request = some responses ∧
      responses.length = (scrapeRequests config request).length ∧
      ∀ arrivals : List ScrapeResponse, arrivals.Perm responses → ∃ response,
        waitForScrapeResponses (arrivals.map some) (pendingScrapeResponse config request) =
          some (.ok (.scrape response)) ∧
        Tells tell (answeredHashes config request) response.files := by
  choose stats hstats using fun i => TorrentMaps.scrapeOne_of_sound (hworkers i) peerAddr
  let tell infoHash := stats (calculateRequestConsumerIndex config infoHash) infoHash
  -- every worker tells of its part what the owners tell
  have hparts : ∀ e ∈ scrapeRequests config request, ∃ response,
      (workers e.1).handleScrapeRequest config peerAddr e.2 = some response ∧
        Tells tell (e.2.infoHashes.take config.protocol.maxScrapeTorrents) response.files := by
    rintro ⟨consumerIndex, part⟩ he
    obtain ⟨response, hresponse, htells⟩ :=
      TorrentMaps.handleScrapeRequest_tells config (hstats consumerIndex) part
    refine ⟨response, hresponse, ?_⟩
    apply htells.congr_tell
    intro infoHash hmem
    rw [consumerIndex_of_mem_scrapeRequests he (List.mem_of_mem_take hmem)]
  obtain ⟨responses, hresponses, hlength, hasked, hanswered⟩ := exists_mapM hparts
  refine ⟨tell, responses, fun infoHash => hstats _ infoHash, hresponses, hlength, ?_⟩
  intro arrivals harrivals
  have hcount : (scrapeRequests config request).length = arrivals.length := by
    rw [harrivals.length_eq, hlength]
  have hsome : arrivals ≠ [] := by
    intro hnil
    rw [hnil, scrapeRequests, List.length_map, List.length_nil, List.length_eq_zero_iff] at hcount
    exact groupBy_ne_nil hne hcount
  refine ⟨_, waitForScrapeResponses_eq arrivals hsome _ hcount, ?_⟩
  -- together they tell of everything that is answered
  refine Tells.merged ?_ ?_
  · intro e he
    obtain ⟨response, hresponse, htells⟩ := hasked e he
    exact ⟨response.files, List.mem_map_of_mem (harrivals.mem_iff.mpr hresponse), htells⟩
  · intro files hfiles
    obtain ⟨response, hresponse, rfl⟩ := List.mem_map.mp hfiles
    exact hanswered response (harrivals.mem_iff.mp hresponse)

theorem transparent_of_sound (hworkers : ∀ i, (workers i).Sound)
    (peerAddr : CanonicalSocketAddr) (hne : request.infoHashes ≠ [])
    (hmax : request.infoHashes.length ≤ config.protocol.maxScrapeTorrents) :
    ∃ responses, workerResponses config workers peerAddr request = some responses ∧
      ∀ arrivals, arrivals.Perm responses → Transparent config workers peerAddr request arrivals := by
  obtain ⟨tell, responses, htell, hresponses, hlength, hmerged⟩ :=
    merged_of_sound config hworkers peerAddr hne
  refine ⟨responses, hresponses, ?_⟩
  intro arrivals harrivals
  have hcount : (scrapeRequests config request).length = arrivals.length := by
    rw [harrivals.length_eq, hlength]
  obtain ⟨response, hresponse, htells⟩ := hmerged arrivals harrivals
  have hfiles := htells.congr (mem_answeredHashes_iff hmax)
  constructor
  · intro n hn
    refine ⟨_, PendingScrapeResponse.foldlM_merge _ _ ?_, ?_⟩
    · rw [List.length_take, pendingScrapeResponse, hcount]
      exact Nat.min_le_right _ _
    · rw [List.length_take, pendingScrapeResponse, hcount, Nat.min_eq_left hn]
      exact Nat.sub_add_cancel hn
  · refine ⟨response, hresponse, ?_, ?_, ?_⟩
    · intro infoHash hinfoHash
      exact ⟨tell infoHash, (hfiles infoHash).trans (if_pos hinfoHash), htell infoHash⟩
    · intro infoHash hinfoHash
      exact (hfiles infoHash).trans (if_neg hinfoHash)
    · intro whole hwhole
      obtain ⟨wholeResponse, hwholeResponse, hwholeTells⟩ :=
        TorrentMaps.handleScrapeRequest_tells config
          (fun infoHash => (hwhole.scrapeOne_eq peerAddr infoHash).trans (htell infoHash)) request
      rw [List.take_of_length_le hmax] at hwholeTells
      exact ⟨wholeResponse, hwholeResponse, hwholeTells.toList_eq hfiles⟩

/-- Announces and scrapes of a torrent go to one worker. -/
def SameWorker (config : ServerConfig) : Prop :=
  ∀ (accessList accessList' : AccessList) (peerAddr peerAddr' : CanonicalSocketAddr)
    (request request' : Request) (requests requests' : List (Nat × ChannelRequest)),
    channelRequests config accessList peerAddr request = .ok requests →
    channelRequests config accessList' peerAddr' request' = .ok requests' →
    ∀ sent ∈ requests, ∀ sent' ∈ requests', ∀ infoHash,
      infoHash ∈ sent.2.infoHashes → infoHash ∈ sent'.2.infoHashes → sent.1 = sent'.1

theorem scrape_transparent {urlencoding : UrlEncoding} {path : List Char}
    (hparsed : Request.parseHttpGetPath urlencoding path = .ok (.scrape request))
    (hmax : request.infoHashes.length ≤ config.protocol.maxScrapeTorrents)
    (hworkers : ∀ i, Reachable (TorrentMaps.step config) .empty (workers i))
    (peerAddr : CanonicalSocketAddr) :
    (∃ responses, workerResponses config workers peerAddr request = some responses ∧
      ∀ arrivals, arrivals.Perm responses →
        Transparent config workers peerAddr request arrivals) ∧
      SameWorker config := by
  constructor
  · exact transparent_of_sound (fun i => TorrentMaps.sound_of_reachable (hworkers i)) peerAddr
      (infoHashes_ne_nil hparsed) hmax
  · intro accessList accessList' peerAddr peerAddr' request request' requests requests' h h'
      sent hsent sent' hsent' infoHash hmem hmem'
    rw [consumerIndex_eq h hsent hmem, consumerIndex_eq h' hsent' hmem']

end Scrape

/-- Three info hashes, one of them twice, of two workers. -/
def twoWorkersPath : List Char :=
  ("/scrape?info_hash=aaaaaaaaaaaaaaaaaaaa&info_hash=bbbbbbbbbbbbbbbbbbbb" ++
    "&info_hash=aaaaaaaaaaaaaaaaaaaa").toList

def twoWorkersRequest : ScrapeRequest :=
  ⟨[⟨.replicate 20 97⟩, ⟨.replicate 20 98⟩, ⟨.replicate 20 97⟩]⟩

def twoWorkersConfig : ServerConfig := { exampleServerConfig with swarmWorkers := 2 }

def peerAddress : CanonicalSocketAddr := .new ⟨.v4 ⟨#v[198, 51, 100, 23]⟩, 6881⟩

/-- A seeder of one of the torrents. -/
def seederRequest : HttpProtocol.AnnounceRequest where
  infoHash := ⟨.replicate 20 97⟩
  peerId := ⟨.replicate 20 8⟩
  port := 6881
  bytesUploaded := 0
  bytesDownloaded := 0
  bytesLeft := 0
  event := .completed
  numwant := none
  key := none

def seederRun : List WorkerAction :=
  [.request ⟨fun _ => 0⟩ ⟨1000⟩ (.announce seederRequest peerAddress)]

/-- The seeder is with the worker that its torrent belongs to. -/
def twoWorkers (consumerIndex : Nat) : TorrentMaps :=
  if consumerIndex = 1 then
    (run (TorrentMaps.step twoWorkersConfig) .empty seederRun).getD .empty
  else .empty

theorem transparent_twoWorkers :
    (twoWorkers 1).scrapeOne peerAddress seederRequest.infoHash = some ⟨1, 0, 1⟩ ∧
    (∃ responses,
      workerResponses twoWorkersConfig twoWorkers peerAddress twoWorkersRequest = some responses ∧
      ∀ arrivals, arrivals.Perm responses →
        Transparent twoWorkersConfig twoWorkers peerAddress twoWorkersRequest arrivals) ∧
      SameWorker twoWorkersConfig := by
  have hparsed : Request.parseHttpGetPath percentEncoding twoWorkersPath =
      .ok (.scrape twoWorkersRequest) := rfl
  refine ⟨rfl, scrape_transparent hparsed (by decide) ?_ _⟩
  intro consumerIndex
  rw [twoWorkers]
  split
  · exact ⟨seederRun, rfl⟩
  · exact ⟨[], rfl⟩

end Aquatic.Http
