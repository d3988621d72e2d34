import Aquatic.Http.Connection
import Aquatic.Http.StorageRefinement
import Aquatic.Lib.FanOut

/-!
# Swarm workers and the requests they are sent

A connection passes a request on to the workers that own its info hashes and waits for
what they answer. The channels between them deliver everything; a sender that is closed
is what a worker that has stopped leaves behind.
-/

namespace Aquatic.Http
open Collections Transition
open HttpProtocol (AnnounceResponse Response Request)
set_option autoImplicit false

structure TorrentMaps where
  ipv4 : TorrentMap Ipv4Addr
  ipv6 : TorrentMap Ipv6Addr

inductive ChannelRequest where
  | announce (request : HttpProtocol.AnnounceRequest) (peerAddr : CanonicalSocketAddr)
  | scrape (request : ScrapeRequest) (peerAddr : CanonicalSocketAddr)
  deriving DecidableEq, Repr

inductive ChannelResponse where
  | announce (response : AnnounceResponse)
  | scrape (response : ScrapeResponse)

inductive WorkerAction where
  | request (rng : Rng) (validUntil : ValidUntil) (request : ChannelRequest)
  | clean (accessList : AccessList) (now : SecondsSinceServerStart)

namespace TorrentMaps

def empty : TorrentMaps := ⟨.empty, .empty⟩

def handleAnnounceRequest (config : ServerConfig) (m : TorrentMaps) (rng : Rng)
    (validUntil : ValidUntil) (peerAddr : CanonicalSocketAddr)
    (request : HttpProtocol.AnnounceRequest) : Option (AnnounceResponse × TorrentMaps × Rng) :=
  match peerAddr.addr.ip with
  | .v4 peerIpAddress => do
    let ((seeders, leechers, responsePeers), ipv4, rng) ←
      m.ipv4.upsertPeerAndGetResponsePeers config.toConfig rng validUntil peerIpAddress
        request.announce
    let response : AnnounceResponse := {
      complete := seeders
      incomplete := leechers
      announceInterval := config.peerAnnounceInterval
      peers := responsePeers
      peers6 := []
      warningMessage := none }
    return (response, { m with ipv4 }, rng)
  | .v6 peerIpAddress => do
    let ((seeders, leechers, responsePeers), ipv6, rng) ←
      m.ipv6.upsertPeerAndGetResponsePeers config.toConfig rng validUntil peerIpAddress
        request.announce
    let response : AnnounceResponse := {
      complete := seeders
      incomplete := leechers
      announceInterval := config.peerAnnounceInterval
      peers := []
      peers6 := responsePeers
      warningMessage := none }
    return (response, { m with ipv6 }, rng)

def handleScrapeRequest (config : ServerConfig) (m : TorrentMaps) (peerAddr : CanonicalSocketAddr)
    (request : ScrapeRequest) : Option ScrapeResponse :=
  if peerAddr.isIpv4 then m.ipv4.handleScrapeRequest config.toConfig request
  else m.ipv6.handleScrapeRequest config.toConfig request

def clean (config : ServerConfig) (m : TorrentMaps) (accessList : AccessList)
    (now : SecondsSinceServerStart) : Option TorrentMaps := do
  let ipv4 ← m.ipv4.clean config.toConfig accessList now
  let ipv6 ← m.ipv6.clean config.toConfig accessList now
  return ⟨ipv4, ipv6⟩

/-- One request of the stream. -/
def handleRequest (config : ServerConfig) (m : TorrentMaps) (rng : Rng) (validUntil : ValidUntil) :
    ChannelRequest → Option (ChannelResponse × TorrentMaps × Rng)
  | .announce request peerAddr => do
    let (response, m, rng) ← m.handleAnnounceRequest config rng validUntil peerAddr request
    return (.announce response, m, rng)
  | .scrape request peerAddr => do
    let response ← m.handleScrapeRequest config peerAddr request
    return (.scrape response, m, rng)

def step (config : ServerConfig) (m : TorrentMaps) : WorkerAction → Option TorrentMaps
  | .request rng validUntil request => do
    let (_, m, _) ← m.handleRequest config rng validUntil request
    return m
  | .clean accessList now => m.clean config accessList now

/-- What the worker holds of a torrent. -/
def scrapeOne (m : TorrentMaps) (peerAddr : CanonicalSocketAddr) (infoHash : InfoHash) :
    Option ScrapeStatistics :=
  if peerAddr.isIpv4 then m.ipv4.scrapeOne infoHash else m.ipv6.scrapeOne infoHash

end TorrentMaps

/-- At least one worker is there even if the settings were not checked. -/
def calculateRequestConsumerIndex (config : ServerConfig) (infoHash : InfoHash) : Nat :=
  infoHash.firstByte % max config.swarmWorkers 1

/-- A scrape request is split up. -/
def scrapeRequests (config : ServerConfig) (request : ScrapeRequest) : List (Nat × ScrapeRequest) :=
  (FanOut.groupBy (calculateRequestConsumerIndex config) request.infoHashes).toList.map
    fun (consumerIndex, infoHashes) => (consumerIndex, ⟨infoHashes⟩)

/-- What is sent, and to whom; or the response if nothing is. -/
def channelRequests (config : ServerConfig) (accessList : AccessList)
    (peerAddr : CanonicalSocketAddr) : Request → Except Response (List (Nat × ChannelRequest))
  | .announce request =>
    if accessList.allows config.accessListMode request.infoHash then
      .ok [(calculateRequestConsumerIndex config request.infoHash, .announce request peerAddr)]
    else .error (failure "Info hash not allowed")
  | .scrape request =>
    .ok ((scrapeRequests config request).map fun (consumerIndex, request) =>
      (consumerIndex, .scrape request peerAddr))

structure PendingScrapeResponse where
  pendingWorkerResponses : Nat
  stats : Std.TreeMap InfoHash ScrapeStatistics

/-- Nothing has arrived. -/
def pendingScrapeResponse (config : ServerConfig) (request : ScrapeRequest) :
    PendingScrapeResponse :=
  ⟨(scrapeRequests config request).length, ∅⟩

/-- A response has arrived; `none` where the count would underflow. -/
def PendingScrapeResponse.merge (pending : PendingScrapeResponse) (response : ScrapeResponse) :
    Option PendingScrapeResponse := do
  let stats := pending.stats.insertMany response.files.toList
  let pendingWorkerResponses ← usizeSub pending.pendingWorkerResponses 1
  return { pendingWorkerResponses, stats }

/-- The loop over the responses as they arrive, `none` from a sender that is closed. -/
def waitForScrapeResponses : List (Option ScrapeResponse) → PendingScrapeResponse →
    Option (Except ConnectionError Response)
  | [], _ => some (.error (.scrapeChannelError
      "stream ended before all partial scrape responses received"))
  | none :: _, _ => some (.error (.scrapeChannelError "sender is closed"))
  | some response :: responses, pending => do
    let pending ← pending.merge response
    if pending.pendingWorkerResponses = 0 then return .ok (.scrape ⟨pending.stats⟩)
    else waitForScrapeResponses responses pending

namespace TorrentMaps

/-- Both maps are as the reference has them. -/
structure Sound (m : TorrentMaps) : Prop where
  ipv4 : ∃ ts, m.ipv4.Refines ts
  ipv6 : ∃ ts, m.ipv6.Refines ts

variable (config : ServerConfig) {m : TorrentMaps}

theorem sound_empty : Sound empty := by
  constructor
  · exact ⟨fun _ => none, nofun, fun _ => rfl⟩
  · exact ⟨fun _ => none, nofun, fun _ => rfl⟩

theorem handleAnnounceRequest_sound (h : m.Sound) (rng : Rng) (validUntil : ValidUntil)
    (peerAddr : CanonicalSocketAddr) (request : HttpProtocol.AnnounceRequest) :
    ∃ response m' rng', m.handleAnnounceRequest config rng validUntil peerAddr request =
      some (response, m', rng') ∧ m'.Sound := by
  obtain ⟨ts4, h4⟩ := h.ipv4
  obtain ⟨ts6, h6⟩ := h.ipv6
  unfold handleAnnounceRequest
  cases peerAddr.addr.ip with
  | v4 peerIpAddress =>
    obtain ⟨peers, m', rng', hm', hrefines⟩ :=
      announce_simulates config.toConfig h4 rng validUntil peerIpAddress request.announce
    simp only [hm']
    exact ⟨_, _, _, rfl, ⟨_, hrefines⟩, ⟨_, h6⟩⟩
  | v6 peerIpAddress =>
    obtain ⟨peers, m', rng', hm', hrefines⟩ :=
      announce_simulates config.toConfig h6 rng validUntil peerIpAddress request.announce
    simp only [hm']
    exact ⟨_, _, _, rfl, ⟨_, h4⟩, ⟨_, hrefines⟩⟩

theorem clean_sound (h : m.Sound) (accessList : AccessList) (now : SecondsSinceServerStart) :
    ∃ m', m.clean config accessList now = some m' ∧ m'.Sound := by
  obtain ⟨ts4, h4⟩ := h.ipv4
  obtain ⟨ts6, h6⟩ := h.ipv6
  obtain ⟨ipv4, hipv4, hrefines4⟩ := clean_simulates config.toConfig h4 accessList now
  obtain ⟨ipv6, hipv6, hrefines6⟩ := clean_simulates config.toConfig h6 accessList now
  refine ⟨⟨ipv4, ipv6⟩, ?_, ⟨_, hrefines4⟩, ⟨_, hrefines6⟩⟩
  unfold clean
  simp only [hipv4, hipv6]
  rfl

/-- Nothing that is asked for can underflow. -/
theorem scrapeOne_of_sound (h : m.Sound) (peerAddr : CanonicalSocketAddr) :
    ∃ stats : InfoHash → ScrapeStatistics,
      ∀ infoHash, m.scrapeOne peerAddr infoHash = some (stats infoHash) := by
  unfold scrapeOne
  cases peerAddr.isIpv4 with
  | true =>
    obtain ⟨ts, hrefines⟩ := h.ipv4
    exact ⟨ts.scrapeOne, scrapeOne_eq hrefines⟩
  | false =>
    obtain ⟨ts, hrefines⟩ := h.ipv6
    exact ⟨ts.scrapeOne, scrapeOne_eq hrefines⟩

/-- A request is answered from what is held. -/
theorem handleScrapeRequest_tells {peerAddr : CanonicalSocketAddr}
    {stats : InfoHash → ScrapeStatistics}
    (h : ∀ infoHash, m.scrapeOne peerAddr infoHash = some (stats infoHash))
    (request : ScrapeRequest) :
    ∃ response, m.handleScrapeRequest config peerAddr request = some response ∧
      FanOut.Tells stats (request.infoHashes.take config.protocol.maxScrapeTorrents)
        response.files := by
  unfold scrapeOne at h
  unfold handleScrapeRequest
  cases hip : peerAddr.isIpv4 with
  | true =>
    rw [hip] at h
    exact handleScrapeRequest_eq h config.toConfig request
  | false =>
    rw [hip] at h
    exact handleScrapeRequest_eq h config.toConfig request

theorem step_sound (h : m.Sound) (action : WorkerAction) :
    ∃ m', m.step config action = some m' ∧ m'.Sound := by
  cases action with
  | request rng validUntil request =>
    cases request with
    | announce request peerAddr =>
      obtain ⟨response, m', rng', hm', hsound⟩ :=
        handleAnnounceRequest_sound config h rng validUntil peerAddr request
      refine ⟨m', ?_, hsound⟩
      unfold step handleRequest
      simp only [hm']
      rfl
    | scrape request peerAddr =>
      obtain ⟨stats, hstats⟩ := scrapeOne_of_sound h peerAddr
      obtain ⟨response, hresponse, -⟩ := handleScrapeRequest_tells config hstats request
      refine ⟨m, ?_, h⟩
      unfold step handleRequest
      simp only [hresponse]
      rfl
  | clean accessList now => exact clean_sound config h accessList now

variable {config} in
theorem sound_of_reachable (h : Reachable (step config) empty m) : m.Sound :=
  invariant_of_total (fun action hs => step_sound config hs action) sound_empty h

end TorrentMaps

end Aquatic.Http
