import Aquatic.Http.Pipelining
import Aquatic.Http.ResponseBuffer
import Aquatic.Http.ScrapeFanOut
import Mathlib.Algebra.Order.BigOperators.Group.List

/-!
# Responses and the room for them

Every worker answers as many of its info hashes as the settings allow, but the buffer has
room for the answers of one worker.
-/

namespace Aquatic.Http
open FanOut HttpProtocol Text Transition
set_option autoImplicit false

theorem length_flatten_flatMap {α : Type} (xs : List α) (pieces : α → List (List UInt8)) :
    (xs.flatMap pieces).flatten.length = (xs.map fun x => (pieces x).flatten.length).sum := by
  induction xs with
  | nil => rfl
  | cons x xs ih =>
    rw [List.flatMap_cons, List.flatten_append, List.length_append, ih, List.map_cons,
      List.sum_cons]

/-- So many bytes for each of them at most. -/
theorem length_flatten_flatMap_le {α : Type} {xs : List α} {pieces : α → List (List UInt8)} {n : Nat}
    (h : ∀ x ∈ xs, (pieces x).flatten.length ≤ n) :
    (xs.flatMap pieces).flatten.length ≤ n * xs.length := by
  rw [length_flatten_flatMap]
  refine (List.sum_le_card_nsmul _ n ?_).trans ?_
  · intro length hlength
    obtain ⟨x, hx, rfl⟩ := List.mem_map.mp hlength
    exact h x hx
  · rw [List.length_map]
    exact Nat.le_of_eq (Nat.mul_comm _ _)

/-- A file, with the digits of two numbers. -/
def fileLength (statistics : ScrapeStatistics) : Nat :=
  68 + (itoa statistics.complete).length + (itoa statistics.incomplete).length

theorem length_scrape (response : ScrapeResponse) :
    (ScrapeResponse.pieces response).flatten.length =
      11 + (response.files.toList.map fun file => fileLength file.2).sum := by
  have hfile : ∀ file : InfoHash × ScrapeStatistics,
      ([utf8 "20:".toList, file.1.bytes.toList, utf8 "d8:completei".toList,
        itoa file.2.complete, utf8 "e10:downloadedi0e10:incompletei".toList,
        itoa file.2.incomplete, utf8 "ee".toList] : List (List UInt8)).flatten.length =
        fileLength file.2 := by
    intro file
    have h20 : (utf8 "20:".toList).length = 3 := by decide
    have hcomplete : (utf8 "d8:completei".toList).length = 12 := by decide
    have hincomplete : (utf8 "e10:downloadedi0e10:incompletei".toList).length = 31 := by decide
    have hend : (utf8 "ee".toList).length = 2 := by decide
    simp only [List.flatten_cons, List.flatten_nil, List.length_append, List.length_nil, h20,
      hcomplete, hincomplete, hend, Vector.length_toList, fileLength]
    omega
  have hbegin : (utf8 "d5:filesd".toList).length = 9 := by decide
  have hend : ([utf8 "ee".toList] : List (List UInt8)).flatten.length = 2 := by decide
  unfold ScrapeResponse.pieces
  rw [List.flatten_append, List.flatten_cons, List.length_append, List.length_append,
    length_flatten_flatMap, List.map_congr_left fun file _ => hfile file, hbegin, hend]
  omega

theorem length_announce_le {response : AnnounceResponse} (hcomplete : response.complete < 2 ^ 64)
    (hincomplete : response.incomplete < 2 ^ 64)
    (hinterval : response.announceInterval < 2 ^ 64) (hpeers : response.peers.length * 6 < 2 ^ 64)
    (hpeers6 : response.peers6.length * 18 < 2 ^ 64) (hwarning : response.warningMessage = none) :
    response.pieces.flatten.length ≤
      158 + 6 * response.peers.length + 18 * response.peers6.length := by
  have hlength4 : ∀ peer ∈ response.peers,
      ([peer.ipAddress.octets.toList, portBytes peer.port] : List (List UInt8)).flatten.length ≤ 6 := by
    intro peer _
    simp [portBytes]
  have hlength6 : ∀ peer ∈ response.peers6,
      ([peer.ipAddress.octets.toList, portBytes peer.port] : List (List UInt8)).flatten.length ≤ 18 := by
    intro peer _
    simp [portBytes]
  have h4 := length_flatten_flatMap_le hlength4
  have h6 := length_flatten_flatMap_le hlength6
  have hc := length_itoa_usize hcomplete
  have hi := length_itoa_usize hincomplete
  have hn := length_itoa_usize hinterval
  have hp := length_itoa_usize hpeers
  have hp6 := length_itoa_usize hpeers6
  have hpiece : (utf8 "d8:completei".toList).length = 12 ∧
      (utf8 "e10:incompletei".toList).length = 15 ∧ (utf8 "e8:intervali".toList).length = 12 ∧
      (utf8 "e5:peers".toList).length = 8 ∧ (utf8 ":".toList).length = 1 ∧
      (utf8 "6:peers6".toList).length = 8 ∧ (utf8 "e".toList).length = 1 := by decide
  obtain ⟨h1, h2, h3, h5, h7, h8, h9⟩ := hpiece
  unfold AnnounceResponse.pieces
  simp only [hwarning, List.flatten_append, List.flatten_cons, List.flatten_nil,
    List.length_append, List.length_nil, h1, h2, h3, h5, h7, h8, h9]
  omega

def refusals : List String :=
  ["IP auto-banned", "IP banned", "Request filtered", "Private IP not allowed", "Client banned",
    "Unsupported client", "Client identity mismatch", "Info hash not allowed"]

theorem length_refusal_le {reason : String} (h : reason ∈ refusals) :
    (failure reason).pieces.flatten.length ≤ 64 := by
  revert reason
  decide

theorem Connection.checkClient_refuses {connection : Connection} {peerIp : IpAddr}
    {optUserAgent : Option (List Char)} {peerId : PeerId} {response : Response}
    (h : (connection.checkClient peerIp optUserAgent peerId).1 = some response) :
    ∃ reason ∈ refusals, response = failure reason := by
  unfold checkClient at h
  simp only at h
  split at h
  · cases h
    exact ⟨_, by decide, rfl⟩
  split at h
  · cases h
    exact ⟨_, by decide, rfl⟩
  split at h
  · cases h
    exact ⟨_, by decide, rfl⟩
  · cases h

theorem Connection.runSecurityChecks_refuses {connection : Connection}
    {peerAddr : CanonicalSocketAddr} {optUserAgent : Option (List Char)} {request : Request}
    {requestTarget : List Char} {response : Response}
    (h : (connection.runSecurityChecks peerAddr optUserAgent request requestTarget).1 =
      some response) : ∃ reason ∈ refusals, response = failure reason := by
  unfold runSecurityChecks at h
  simp only at h
  split at h
  · cases h
    exact ⟨_, by decide, rfl⟩
  split at h
  · cases h
    exact ⟨_, by decide, rfl⟩
  split at h
  · cases h
    exact ⟨_, by decide, rfl⟩
  split at h
  · cases h
    exact ⟨_, by decide, rfl⟩
  · cases request with
    | announce request => exact checkClient_refuses h
    | scrape request => cases h

/-- The same files with other numbers. -/
def withStatistics (statistics : InfoHash → ScrapeStatistics) (response : ScrapeResponse) :
    ScrapeResponse :=
  ⟨response.files.map fun infoHash _ => statistics infoHash⟩

/-- The responses to a request: of the checks, of the access list, and of workers in any state
that they can reach, whatever `usize` the numbers in them are. -/
inductive Produced (config : ServerConfig) : Request → Response → Prop where
  | refused {connection : Connection} {peerAddr : CanonicalSocketAddr}
      {optUserAgent : Option (List Char)} {request : Request} {requestTarget : List Char}
      {response : Response} :
      connection.config = config →
      (connection.runSecurityChecks peerAddr optUserAgent request requestTarget).1 =
        some response →
      Produced config request response
  | notAllowed {accessList : AccessList} {peerAddr : CanonicalSocketAddr} {request : Request}
      {response : Response} :
      channelRequests config accessList peerAddr request = .error response →
      Produced config request response
  | announce {worker worker' : TorrentMaps} {rng rng' : Rng} {validUntil : ValidUntil}
      {peerAddr : CanonicalSocketAddr} {request : HttpProtocol.AnnounceRequest}
      {response : AnnounceResponse} {complete incomplete : Nat} :
      Reachable (TorrentMaps.step config) .empty worker →
      worker.handleAnnounceRequest config rng validUntil peerAddr request =
        some (response, worker', rng') →
      complete < 2 ^ 64 → incomplete < 2 ^ 64 →
      Produced config (.announce request) (.announce { response with complete, incomplete })
  | scrape {workers : Nat → TorrentMaps} {peerAddr : CanonicalSocketAddr}
      {request : ScrapeRequest} {responses arrivals : List ScrapeResponse}
      {response : ScrapeResponse} {statistics : InfoHash → ScrapeStatistics} :
      (∀ i, Reachable (TorrentMaps.step config) .empty (workers i)) →
      workerResponses config workers peerAddr request = some responses →
      arrivals.Perm responses →
      waitForScrapeResponses (arrivals.map some) (pendingScrapeResponse config request) =
        some (.ok (.scrape response)) →
      (∀ infoHash, (statistics infoHash).complete < 2 ^ 64 ∧
        (statistics infoHash).incomplete < 2 ^ 64) →
      Produced config (.scrape request) (.scrape (withStatistics statistics response))

/-- The numbers of the files are the only ones that the settings have not bounded. -/
def FitsBuffer (config : ServerConfig) : Request → Prop
  | .announce _ => True
  | .scrape request => 11 + 108 * (answeredHashes config request).dedup.length ≤ bodyRoom config

instance (config : ServerConfig) (request : Request) : Decidable (FitsBuffer config request) :=
  match request with
  | .announce _ => inferInstanceAs (Decidable True)
  | .scrape _ => inferInstanceAs (Decidable (_ ≤ _))

section Sizes
variable {config : ServerConfig}

theorem notAllowed_refuses {accessList : AccessList} {peerAddr : CanonicalSocketAddr}
    {request : Request} {response : Response}
    (h : channelRequests config accessList peerAddr request = .error response) :
    ∃ reason ∈ refusals, response = failure reason := by
  cases request with
  | announce request =>
    rw [channelRequests] at h
    split at h
    · cases h
    · cases h
      exact ⟨_, by decide, rfl⟩
  | scrape request => cases h

theorem length_refused_le {response : Response}
    (h : ∃ reason ∈ refusals, response = failure reason) :
    response.pieces.flatten.length ≤ bodyRoom config := by
  obtain ⟨reason, hreason, rfl⟩ := h
  have hlength := length_refusal_le hreason
  unfold bodyRoom
  omega

/-- What the settings say of the response to an announce. -/
theorem announced_of_sound {worker worker' : TorrentMaps} (hworker : worker.Sound)
    {rng rng' : Rng} {validUntil : ValidUntil} {peerAddr : CanonicalSocketAddr}
    {request : HttpProtocol.AnnounceRequest} {response : AnnounceResponse}
    (h : worker.handleAnnounceRequest config rng validUntil peerAddr request =
      some (response, worker', rng')) :
    response.peers.length + response.peers6.length ≤ config.protocol.maxPeers ∧
      response.announceInterval = config.peerAnnounceInterval ∧
      response.warningMessage = none := by
  obtain ⟨ts4, h4⟩ := hworker.ipv4
  obtain ⟨ts6, h6⟩ := hworker.ipv6
  unfold TorrentMaps.handleAnnounceRequest at h
  cases hip : peerAddr.addr.ip with
  | v4 peerIpAddress =>
    rw [hip] at h
    obtain ⟨⟨⟨seeders, leechers, peers⟩, m', rng''⟩, hm', h⟩ :=
      Option.bind_eq_some_iff.mp h
    cases h
    exact ⟨length_peers_le config.toConfig h4 hm', rfl, rfl⟩
  | v6 peerIpAddress =>
    rw [hip] at h
    obtain ⟨⟨⟨seeders, leechers, peers⟩, m', rng''⟩, hm', h⟩ :=
      Option.bind_eq_some_iff.mp h
    cases h
    refine ⟨?_, rfl, rfl⟩
    rw [List.length_nil, Nat.zero_add]
    exact length_peers_le config.toConfig h6 hm'

/-- The peers that one response can have do fit. -/
theorem length_announced_le (h : config.Accepted) {worker worker' : TorrentMaps}
    (hworker : worker.Sound) {rng rng' : Rng} {validUntil : ValidUntil}
    {peerAddr : CanonicalSocketAddr} {request : HttpProtocol.AnnounceRequest}
    {response : AnnounceResponse} {complete incomplete : Nat}
    (hresponse : worker.handleAnnounceRequest config rng validUntil peerAddr request =
      some (response, worker', rng'))
    (hcomplete : complete < 2 ^ 64) (hincomplete : incomplete < 2 ^ 64) :
    (Response.announce { response with complete, incomplete }).pieces.flatten.length ≤
      bodyRoom config := by
  have hlimit : config.protocol.maxPeers ≤ maxResponseBufferSize := by
    obtain ⟨hsize, hle⟩ := h.responseBufferSize_eq
    rw [hsize] at hle
    unfold bodyRoom at hle
    omega
  obtain ⟨hcount, hinterval, hwarning⟩ := announced_of_sound hworker hresponse
  unfold maxResponseBufferSize at hlimit
  have hlength : (Response.announce { response with complete, incomplete }).pieces.flatten.length ≤
      158 + 6 * response.peers.length + 18 * response.peers6.length :=
    length_announce_le hcomplete hincomplete (hinterval ▸ h.interval)
      (show response.peers.length * 6 < 2 ^ 64 by omega)
      (show response.peers6.length * 18 < 2 ^ 64 by omega) hwarning
  refine hlength.trans ?_
  unfold bodyRoom
  omega

theorem length_withStatistics (statistics : InfoHash → ScrapeStatistics) (response : ScrapeResponse) :
    (Response.scrape (withStatistics statistics response)).pieces.flatten.length =
      11 + (response.files.toList.map fun file => fileLength (statistics file.1)).sum := by
  refine (length_scrape (withStatistics statistics response)).trans ?_
  rw [withStatistics, Std.TreeMap.toList_map, List.map_map]
  rfl

/-- Numbers of twenty digits. -/
def greatestStatistics : ScrapeStatistics := ⟨2 ^ 64 - 1, 2 ^ 64 - 1, 0⟩

theorem fileLength_le {statistics : ScrapeStatistics} (hcomplete : statistics.complete < 2 ^ 64)
    (hincomplete : statistics.incomplete < 2 ^ 64) : fileLength statistics ≤ 108 := by
  have hc := length_itoa_usize hcomplete
  have hi := length_itoa_usize hincomplete
  unfold fileLength
  omega

/-- A response has a file for each info hash that is answered. -/
theorem length_files_eq {workers : Nat → TorrentMaps} {peerAddr : CanonicalSocketAddr}
    {request : ScrapeRequest} {responses arrivals : List ScrapeResponse}
    {response : ScrapeResponse}
    (hworkers : ∀ i, Reachable (TorrentMaps.step config) .empty (workers i))
    (hresponses : workerResponses config workers peerAddr request = some responses)
    (harrivals : arrivals.Perm responses)
    (hresponse : waitForScrapeResponses (arrivals.map some) (pendingScrapeResponse config request) =
      some (.ok (.scrape response))) :
    response.files.toList.length = (answeredHashes config request).dedup.length := by
  have hne : request.infoHashes ≠ [] := by
    intro hnil
    have hnone : scrapeRequests config request = [] := by
      rw [scrapeRequests, hnil]
      rfl
    rw [workerResponses, hnone] at hresponses
    cases hresponses
    rw [harrivals.eq_nil] at hresponse
    cases hresponse
  obtain ⟨tell, responses', -, hresponses', -, hmerged⟩ :=
    merged_of_sound config (fun i => TorrentMaps.sound_of_reachable (hworkers i)) peerAddr hne
  cases hresponses.symm.trans hresponses'
  obtain ⟨response', hresponse', htells⟩ := hmerged arrivals harrivals
  cases hresponse.symm.trans hresponse'
  exact htells.length_toList

/-- Every response fits if there is room for twenty digits in every number. -/
theorem length_produced_le (h : config.Accepted) {request : Request}
    (hfits : FitsBuffer config request) {response : Response}
    (hproduced : Produced config request response) :
    response.pieces.flatten.length ≤ bodyRoom config := by
  cases hproduced with
  | refused _ hrefused => exact length_refused_le (Connection.runSecurityChecks_refuses hrefused)
  | notAllowed hrefused => exact length_refused_le (notAllowed_refuses hrefused)
  | announce hworker hresponse hcomplete hincomplete =>
    exact length_announced_le h (TorrentMaps.sound_of_reachable hworker) hresponse hcomplete
      hincomplete
  | @scrape workers peerAddr request responses arrivals response statistics hworkers hresponses
      harrivals hresponse hstatistics =>
    rw [length_withStatistics]
    refine le_trans ?_ hfits
    rw [← length_files_eq hworkers hresponses harrivals hresponse, Nat.mul_comm]
    apply Nat.add_le_add_left
    refine (List.sum_le_card_nsmul _ 108 ?_).trans ?_
    · intro length hlength
      obtain ⟨file, -, rfl⟩ := List.mem_map.mp hlength
      exact fileLength_le (hstatistics file.1).1 (hstatistics file.1).2
    · rw [List.length_map]
      exact Nat.le_refl _

/-- Workers that know nothing answer as many files. -/
theorem exists_produced (config : ServerConfig) {request : ScrapeRequest}
    (hne : request.infoHashes ≠ []) (peerAddr : CanonicalSocketAddr)
    (statistics : ScrapeStatistics) (hcomplete : statistics.complete < 2 ^ 64)
    (hincomplete : statistics.incomplete < 2 ^ 64) :
    ∃ response, Produced config (.scrape request) response ∧
      response.pieces.flatten.length =
        11 + fileLength statistics * (answeredHashes config request).dedup.length := by
  have hworkers : ∀ i : Nat, Reachable (TorrentMaps.step config) .empty TorrentMaps.empty :=
    fun _ => ⟨[], rfl⟩
  obtain ⟨tell, responses, -, hresponses, -, hmerged⟩ :=
    merged_of_sound config (fun i => TorrentMaps.sound_of_reachable (hworkers i)) peerAddr hne
  obtain ⟨response, hresponse, htells⟩ := hmerged responses (.refl _)
  refine ⟨.scrape (withStatistics (fun _ => statistics) response), .scrape hworkers hresponses
    (.refl _) hresponse fun _ => ⟨hcomplete, hincomplete⟩, ?_⟩
  rw [length_withStatistics, ← htells.length_toList, List.map_const', List.sum_replicate]
  exact congrArg (11 + ·) (Nat.mul_comm _ _)

/-- No response to a request is lost to the buffer exactly where there is room for the files of
all workers. -/
theorem sent_iff_fitsBuffer (h : config.Accepted) (request : Request) :
    (∀ response, Produced config request response → ∀ connection : Connection,
      connection.config = config →
      connection.responseBuffer.length = responseBufferSize config →
      Sent (connection.writeResponse response)) ↔ FitsBuffer config request := by
  obtain ⟨hsize, hlimit⟩ := h.responseBufferSize_eq
  have hsent : ∀ (connection : Connection) (response : Response),
      connection.responseBuffer.length = responseBufferSize config →
      (Sent (connection.writeResponse response) ↔
        response.pieces.flatten.length ≤ bodyRoom config) := by
    intro connection response hlength
    rw [sent_writeResponse_iff response (by omega) (by omega), hlength, hsize]
    omega
  constructor
  · intro hall
    cases request with
    | announce request => trivial
    | scrape request =>
      by_cases hne : request.infoHashes = []
      · have hnone : answeredHashes config request = [] := by
          rw [answeredHashes, scrapeRequests, hne]
          rfl
        change 11 + 108 * (answeredHashes config request).dedup.length ≤ bodyRoom config
        rw [hnone, List.dedup_nil, List.length_nil]
        unfold bodyRoom
        omega
      · obtain ⟨response, hproduced, hlength⟩ :=
          exists_produced config hne (.new ⟨.v4 ⟨#v[198, 51, 100, 1]⟩, 6881⟩) greatestStatistics
            (by decide) (by decide)
        let connection : Connection :=
          { exampleConnection with
            config
            responseBuffer := List.replicate (responseBufferSize config) 0 }
        have hbuffer : connection.responseBuffer.length = responseBufferSize config :=
          List.length_replicate
        have hroom := (hsent connection response hbuffer).mp
          (hall response hproduced connection rfl hbuffer)
        rw [hlength] at hroom
        exact hroom
  · intro hfits response hproduced connection _ hlength
    exact (hsent connection response hlength).mpr (length_produced_le h hfits hproduced)

end Sizes

theorem accepted_exampleServerConfig : exampleServerConfig.Accepted := ⟨by decide, by decide⟩

/-- With the default limits there is room for more info hashes than a request can have. -/
theorem sent_twoWorkersRequest : exampleServerConfig.Accepted ∧ ∀ response,
    Produced exampleServerConfig (.scrape twoWorkersRequest) response →
    ∀ connection : Connection, connection.config = exampleServerConfig →
      connection.responseBuffer.length = responseBufferSize exampleServerConfig →
      Sent (connection.writeResponse response) :=
  ⟨accepted_exampleServerConfig,
    (sent_iff_fitsBuffer accepted_exampleServerConfig (.scrape twoWorkersRequest)).mpr (by decide)⟩

def fourWorkersConfig : ServerConfig :=
  { exampleServerConfig with swarmWorkers := 4, protocol := ⟨1, 0⟩ }

def fourWorkersPath : List Char :=
  ("/scrape?info_hash=aaaaaaaaaaaaaaaaaaaa&info_hash=bbbbbbbbbbbbbbbbbbbb" ++
    "&info_hash=cccccccccccccccccccc&info_hash=dddddddddddddddddddd").toList

def fourWorkersText : List Char :=
  "GET ".toList ++ fourWorkersPath ++ " HTTP/1.1\r\n\r\n".toList

def fourWorkersRequest : ScrapeRequest :=
  ⟨[⟨.replicate 20 97⟩, ⟨.replicate 20 98⟩, ⟨.replicate 20 99⟩, ⟨.replicate 20 100⟩]⟩

set_option maxRecDepth 4096 in
theorem length_fourWorkersText : (utf8 fourWorkersText).length = 148 := by decide

set_option maxRecDepth 4096 in
theorem parseHttpGetPath_fourWorkersPath :
    Request.parseHttpGetPath percentEncoding fourWorkersPath = .ok (.scrape fourWorkersRequest) :=
  rfl

/-- The request has been read, and the buffer for the response is as it was allocated. -/
def fourWorkersConnection : Connection :=
  { exampleConnection with
    config := fourWorkersConfig
    requestBuffer := ⟨utf8 fourWorkersText, length_fourWorkersText.trans_le (by decide)⟩
    responseBuffer := List.replicate (responseBufferSize fourWorkersConfig) 0 }

/-- Four torrents that nobody knows take more room than there is. -/
theorem lost_fourWorkersRequest :
    fourWorkersConfig.Accepted ∧
    (∃ value after, fourWorkersConnection.readRequest (lineParser fourWorkersText fourWorkersPath)
      percentEncoding = some (.ok value, after) ∧ value.request = .scrape fourWorkersRequest) ∧
    fourWorkersConnection.responseBuffer.length = responseBufferSize fourWorkersConfig ∧
    ∃ response after, Produced fourWorkersConfig (.scrape fourWorkersRequest) response ∧
      fourWorkersConnection.writeResponse response = some (.error .responseBufferFull, after) := by
  refine ⟨⟨by decide, by decide⟩, ?_, List.length_replicate, ?_⟩
  · have hpos : fourWorkersConnection.requestBuffer.bytes.length > 0 := by
      change (utf8 fourWorkersText).length > 0
      rw [length_fourWorkersText]
      decide
    have hparsed := parseRequest_lineParser fourWorkersText parseHttpGetPath_fourWorkersPath
      fourWorkersConfig fourWorkersConnection.trustedProxies
    rw [Connection.readRequest_of_parsed hpos hparsed, Connection.finishRequest_eq (Nat.le_refl _)]
    exact ⟨_, _, rfl, rfl⟩
  · have hne : fourWorkersRequest.infoHashes ≠ [] := by decide
    obtain ⟨response, hproduced, hlength⟩ := exists_produced fourWorkersConfig hne
      (.new ⟨.v4 ⟨#v[198, 51, 100, 1]⟩, 6881⟩) ⟨0, 0, 0⟩ (by decide) (by decide)
    have hfour : (answeredHashes fourWorkersConfig fourWorkersRequest).dedup.length = 4 := by decide
    have hfile : fileLength ⟨0, 0, 0⟩ = 70 := by decide
    rw [hfour, hfile] at hlength
    have hsize : fourWorkersConnection.responseBuffer.length = 303 := List.length_replicate
    have hroom : 47 ≤ fourWorkersConnection.responseBuffer.length := by omega
    obtain ⟨after, hfull⟩ := writeResponse_of_full response hroom (by omega)
    exact ⟨response, after, hproduced, hfull⟩

end Aquatic.Http
