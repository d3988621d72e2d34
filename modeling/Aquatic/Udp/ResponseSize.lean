import Aquatic.Udp.RequestCodec
import Aquatic.Udp.SocketWorkerSpec
import Aquatic.Udp.TorrentMapsRefinement

/-!
# Responses and the buffers they are written to

A tracker refuses to start with settings that lead to responses of more than the size
of one buffer. The two backends write to buffers of their own.
-/

namespace Aquatic.Udp
open Collections Protocol
set_option autoImplicit false

namespace Uring

def responseBufLen : Nat := 2048

end Uring

/-- The buffer that a response is written to. -/
def Backend.sendBufferLen : Backend → Nat
  | mio => Mio.bufferSize
  | uring => Uring.responseBufLen

/-- A response is written to the front of a buffer of some length. -/
def Protocol.Response.serialize (response : Response) (len : Nat) : Option (List UInt8) :=
  if response.writeBytes.length ≤ len then some response.writeBytes else none

def usizeMax : Nat := 0xffffffffffffffff

def usizeSaturatingAdd (a b : Nat) : Nat := min (a + b) usizeMax

def usizeSaturatingMul (a b : Nat) : Nat := min (a * b) usizeMax

structure RunConfig extends SocketConfig where
  useIpv4 : Bool
  useIpv6 : Bool
  deriving DecidableEq, Repr

namespace RunConfig

def maxAnnounceResponseLen (config : RunConfig) : Nat :=
  usizeSaturatingAdd (usizeSaturatingMul config.protocol.maxResponsePeers 18) 20

def maxScrapeResponseLen (config : RunConfig) : Nat :=
  usizeSaturatingAdd (usizeSaturatingMul config.maxScrapeTorrents.toNat 12) 8

def maxAllowedResponseLen : Nat := Mio.bufferSize - 64

/-- What `run` checks of these settings before it starts anything. -/
def run (config : RunConfig) : Except String Unit :=
  if !(config.useIpv4 || config.useIpv6) then
    .error "Both use_ipv4 and use_ipv6 can not be set to false"
  else if config.maxAnnounceResponseLen > maxAllowedResponseLen then
    .error <| s!"protocol.max_response_peers = {config.protocol.maxResponsePeers} produces announce " ++
      s!"responses of up to {config.maxAnnounceResponseLen} bytes, which do not fit in the " ++
      s!"{Mio.bufferSize}-byte socket buffer; reduce it to at most {(maxAllowedResponseLen - 20) / 18}"
  else if config.maxScrapeResponseLen > maxAllowedResponseLen then
    .error <| s!"protocol.max_scrape_torrents = {config.maxScrapeTorrents} produces scrape " ++
      s!"responses of up to {config.maxScrapeResponseLen} bytes, which do not fit in the " ++
      s!"{Mio.bufferSize}-byte socket buffer"
  else .ok ()

def Accepted (config : RunConfig) : Prop := config.run = .ok ()

theorem accepted_iff (config : RunConfig) : config.Accepted ↔
    (config.useIpv4 = true ∨ config.useIpv6 = true) ∧ config.protocol.maxResponsePeers ≤ 450 := by
  have hscrape : config.maxScrapeTorrents.toNat < 256 := config.maxScrapeTorrents.toNat_lt
  have hpeers : config.maxAnnounceResponseLen > maxAllowedResponseLen ↔
      450 < config.protocol.maxResponsePeers := by
    simp only [maxAnnounceResponseLen, maxAllowedResponseLen, usizeSaturatingAdd,
      usizeSaturatingMul, usizeMax, Mio.bufferSize]
    omega
  have hhashes : ¬ config.maxScrapeResponseLen > maxAllowedResponseLen := by
    simp only [maxScrapeResponseLen, maxAllowedResponseLen, usizeSaturatingAdd,
      usizeSaturatingMul, usizeMax, Mio.bufferSize]
    omega
  unfold Accepted run
  rw [if_neg hhashes]
  cases config.useIpv4 with
  | true => simp [hpeers]
  | false =>
    cases config.useIpv6 with
    | true => simp [hpeers]
    | false => simp

/-- There is a socket that gets datagrams from the address. -/
def hasSocketFor (config : RunConfig) (addr : SocketAddr) : Bool :=
  match addr.ip with
  | .v4 _ => config.useIpv4
  | .v6 _ => config.useIpv6

end RunConfig

namespace Protocol

theorem length_announceResponseBytes {I : Type} {ipBytes : I → List UInt8} {width : Nat}
    (hwidth : ∀ ip, (ipBytes ip).length = width) (response : AnnounceResponse I) :
    (announceResponseBytes ipBytes response).length = 20 + (width + 2) * response.peers.length := by
  have hpeers : (response.peers.flatMap fun peer =>
      ipBytes peer.ipAddress ++ beBytes peer.port.toBitVec).length =
        (width + 2) * response.peers.length := by
    induction response.peers with
    | nil => rfl
    | cons peer peers ih =>
      rw [List.flatMap_cons, List.length_append, ih, List.length_append, hwidth, length_beBytes,
        List.length_cons, Nat.mul_succ]
      omega
  simp only [announceResponseBytes, List.length_append, length_beBytes, hpeers]

theorem length_announceIpv4 (response : AnnounceResponse Ipv4AddrBytes) :
    (Response.announceIpv4 response).writeBytes.length = 20 + 6 * response.peers.length := by
  change (announceResponseBytes (fun ip : Ipv4AddrBytes => ip.bytes.toList) response).length =
    20 + (4 + 2) * response.peers.length
  exact length_announceResponseBytes (fun ip => ip.bytes.length_toList) response

theorem length_announceIpv6 (response : AnnounceResponse Ipv6AddrBytes) :
    (Response.announceIpv6 response).writeBytes.length = 20 + 18 * response.peers.length := by
  change (announceResponseBytes (fun ip : Ipv6AddrBytes => ip.bytes.toList) response).length =
    20 + (16 + 2) * response.peers.length
  exact length_announceResponseBytes (fun ip => ip.bytes.length_toList) response

theorem length_scrape (response : ScrapeResponse) :
    (Response.scrape response).writeBytes.length = 8 + 12 * response.torrentStats.length := by
  have hstats : (response.torrentStats.flatMap fun stats =>
      beBytes stats.seeders.toBitVec ++ beBytes stats.completed.toBitVec ++
        beBytes stats.leechers.toBitVec).length = 12 * response.torrentStats.length := by
    induction response.torrentStats with
    | nil => rfl
    | cons stats rest ih =>
      simp only [List.flatMap_cons, List.length_append, length_beBytes, ih, List.length_cons]
      omega
  simp only [Response.writeBytes, ScrapeResponse.writeBytes, List.length_append, length_beBytes,
    hstats]

/-- The texts of all errors that are sent. -/
def errorMessages : List String :=
  ["Port can't be 0", "Invalid announce event", "Full scrapes are not allowed",
    "Invalid info hash list", "Info hash not allowed"]

theorem length_error {response : ErrorResponse} (h : response.message ∈ errorMessages) :
    (Response.error response).writeBytes.length ≤ 64 := by
  have hmessages : ∀ message ∈ errorMessages,
      (message.toList.flatMap String.utf8EncodeChar).length ≤ 56 := by decide
  have hmessage := hmessages response.message h
  simp only [Response.writeBytes, ErrorResponse.writeBytes, List.length_append, length_beBytes]
  omega

theorem mem_errorMessages_of_parseScrape {bytes : List UInt8} {maxScrapeTorrents : UInt8}
    {connectionId : ConnectionId} {transactionId : Int32} {err : String}
    (h : Request.parseScrape bytes maxScrapeTorrents =
      .error (.sendable connectionId transactionId err)) : err ∈ errorMessages := by
  rw [Request.parseScrape_eq] at h
  rcases Request.header_cases bytes with ⟨heof, -⟩ | ⟨first, transactionId', -, hheader, -⟩
  · rw [heof] at h
    cases h
  · rw [hheader] at h
    change Request.scrapeOf maxScrapeTorrents _ = _ at h
    unfold Request.scrapeOf at h
    split at h
    · cases h
      decide
    · split at h
      · cases h
        decide
      · cases h

theorem mem_errorMessages_of_parseBytes {bytes : List UInt8} {maxScrapeTorrents : UInt8}
    {connectionId : ConnectionId} {transactionId : Int32} {err : String}
    (h : Request.parseBytes bytes maxScrapeTorrents =
      .error (.sendable connectionId transactionId err)) : err ∈ errorMessages := by
  unfold Request.parseBytes at h
  split at h
  · cases h
  split at h
  · rw [Request.parseConnect_eq] at h
    rcases Request.header_cases bytes with ⟨heof, -⟩ | ⟨first, transactionId', -, hheader, -⟩
    · rw [heof] at h
      cases h
    · rw [hheader] at h
      change (if _ then _ else _) = _ at h
      split at h
      · cases h
      · cases h
  split at h
  · unfold Request.parseAnnounce at h
    split at h
    · cases h
    split at h
    · cases h
      decide
    split at h
    · cases h
      decide
    · cases h
  split at h
  · exact mem_errorMessages_of_parseScrape h
  · cases h

end Protocol

/-- How much of a kind of thing a response holds, and to whom it goes. -/
def Protocol.Response.Within (maxResponsePeers infoHashes : Nat) (src : CanonicalSocketAddr) :
    Response → Prop
  | .connect _ => True
  | .announceIpv4 response => response.peers.length ≤ maxResponsePeers
  | .announceIpv6 response => response.peers.length ≤ maxResponsePeers ∧ src.isIpv4 = false
  | .scrape response => response.torrentStats.length ≤ infoHashes
  | .error response => response.message ∈ errorMessages

theorem Protocol.Response.Within.length_le {maxResponsePeers infoHashes : Nat}
    {src : CanonicalSocketAddr} {response : Response}
    (h : response.Within maxResponsePeers infoHashes src) :
    response.writeBytes.length ≤ 64 ∨
      response.writeBytes.length ≤ 20 + 6 * maxResponsePeers ∨
      response.writeBytes.length ≤ 20 + 18 * maxResponsePeers ∧ src.isIpv4 = false ∨
      response.writeBytes.length ≤ 8 + 12 * infoHashes := by
  cases response with
  | connect response =>
    left
    rw [length_connect]
    omega
  | announceIpv4 response =>
    have hpeers : response.peers.length ≤ maxResponsePeers := h
    right; left
    rw [length_announceIpv4]
    omega
  | announceIpv6 response =>
    have hpeers : response.peers.length ≤ maxResponsePeers := h.1
    right; right; left
    rw [length_announceIpv6]
    exact ⟨by omega, h.2⟩
  | scrape response =>
    have hstats : response.torrentStats.length ≤ infoHashes := h
    right; right; right
    rw [length_scrape]
    omega
  | error response => exact .inl (length_error h)

theorem maxNumPeersToTake_le (config : Config) (request : AnnounceRequest) :
    maxNumPeersToTake config request ≤ config.protocol.maxResponsePeers := by
  unfold maxNumPeersToTake
  split
  · exact Nat.le_refl _
  · exact Nat.min_le_left _ _

namespace SoundPeerMap
variable {I : Type} [DecidableEq I]

/-- The peers in a response, and the torrent after the announce. -/
theorem announce_answers (config : Config) (m : SoundPeerMap I) (rng : Rng)
    (request : Udp.AnnounceRequest) (ipAddress : I) (validUntil : ValidUntil) :
    (m.announce config rng request ipAddress validUntil).1.peers.length =
        min (maxNumPeersToTake config request)
          ((m.torrent.remove ⟨ipAddress, request.port⟩).count fun _ => true) ∧
      ∀ key, (m.announce config rng request ipAddress validUntil).2.2.1.torrent.peers key =
        (Torrent.announce m.torrent request ipAddress validUntil).peers key := by
  obtain ⟨r, m', rng', hr, hanswered, hrefines⟩ :=
    Swarm.PeerMap.announce_refines m.wellFormed.refines rng request.status
      request.isCompleted ⟨ipAddress, request.port⟩ (request.peer validUntil)
    (maxNumPeersToTake config request)
  have heq := m.announce_eq config rng request ipAddress validUntil
  simp only [PeerMap.announce, hr] at heq
  obtain ⟨hresponse, -, hmap, -⟩ := by simpa using heq
  refine ⟨?_, ?_⟩
  · rw [← hresponse]
    exact hanswered.length
  · intro key
    change (m.announce config rng request ipAddress validUntil).2.2.1.peerMap.get key = _
    rw [← hmap]
    exact hrefines.peers key

end SoundPeerMap

theorem SoundShards.length_announce_le {I : Type} [DecidableEq I] (config : Config)
    (m : SoundShards I) (rng : Rng) (request : Udp.AnnounceRequest) (ipAddress : I)
    (validUntil : ValidUntil) :
    (m.announce config rng request ipAddress validUntil).1.peers.length ≤
      config.protocol.maxResponsePeers := by
  have hlength := (((m.get request.infoHash).getD .default).announce_answers config rng request
    ipAddress validUntil).1
  exact (hlength.trans_le (Nat.min_le_left _ _)).trans (maxNumPeersToTake_le config request)

theorem TorrentMaps.announce_within (config : Config) (maps : TorrentMaps) (rng : Rng)
    (request : Udp.AnnounceRequest) (src : CanonicalSocketAddr) (validUntil : ValidUntil)
    (infoHashes : Nat) :
    (maps.announce config rng request src validUntil).1.Within config.protocol.maxResponsePeers
      infoHashes src := by
  unfold TorrentMaps.announce
  split
  · exact SoundShards.length_announce_le config _ rng request _ validUntil
  · rename_i addr haddr
    refine ⟨SoundShards.length_announce_le config _ rng request _ validUntil, ?_⟩
    rw [CanonicalSocketAddr.isIpv4, haddr]

namespace SocketWorker
variable {worker : SocketWorker} {src : CanonicalSocketAddr}

theorem runSecurityChecks_of_unblocked {peerIdOpt : Option PeerId}
    (h : (worker.runSecurityChecks src peerIdOpt).1 = false) :
    worker.runSecurityChecks src peerIdOpt = (false, worker) := by
  unfold runSecurityChecks at h ⊢
  split
  · rename_i hprivate
    rw [if_pos hprivate] at h
    cases h
  rename_i hprivate
  rw [if_neg hprivate] at h
  simp only at h ⊢
  split
  · rfl
  rename_i hchecks
  rw [if_neg hchecks] at h
  cases peerIdOpt with
  | none => rfl
  | some peerId =>
    simp only at h ⊢
    split
    · rename_i hbanned
      rw [if_pos hbanned] at h
      cases h
    rename_i hbanned
    rw [if_neg hbanned] at h
    split
    · rename_i hformat
      rw [if_pos hformat] at h
      split
      · rfl
      · rfl
      · rename_i hrejected
        rw [hrejected] at h
        cases h
    · rfl

theorem handleAnnounce_within {request : Protocol.AnnounceRequest} {response : Response}
    (infoHashes : Nat) (h : (worker.handleAnnounce request src).1 = some response) :
    response.Within worker.config.protocol.maxResponsePeers infoHashes src := by
  unfold handleAnnounce at h
  rw [ConnectionValidator.connectionIdValid_eq] at h
  simp only at h
  split at h
  · cases h
  cases hblocked : (worker.runSecurityChecks src (some request.peerId)).1 with
  | true =>
    rw [hblocked] at h
    cases h
  | false =>
    rw [runSecurityChecks_of_unblocked hblocked] at h
    simp only [Bool.false_eq_true, if_false] at h
    split at h
    · cases h
      exact TorrentMaps.announce_within _ _ _ _ _ _ _
    · cases h
      change "Info hash not allowed" ∈ errorMessages
      decide

theorem handleScrape_within {request : ScrapeRequest} {response : Response}
    (h : (worker.handleScrape request src).1 = some response) :
    response.Within worker.config.protocol.maxResponsePeers request.infoHashes.length src := by
  unfold handleScrape at h
  rw [ConnectionValidator.connectionIdValid_eq] at h
  simp only at h
  split at h
  · cases h
  cases hblocked : (worker.runSecurityChecks src none).1 with
  | true =>
    rw [hblocked] at h
    cases h
  | false =>
    rw [runSecurityChecks_of_unblocked hblocked] at h
    cases h
    change (TorrentMaps.scrape _ _ _).torrentStats.length ≤ _
    rw [TorrentMaps.scrape_eq, List.length_map]
    exact List.length_filter_le _ _

end SocketWorker

/-- How many info hashes a request names. -/
def Protocol.Request.infoHashCount : Request → Nat
  | .scrape request => request.infoHashes.length
  | _ => 0

namespace SocketWorker
variable {worker : SocketWorker} {src : CanonicalSocketAddr}

theorem handleRequest_within {request : Request} {response : Response}
    (h : (worker.handleRequest request src).1 = some response) :
    response.Within worker.config.protocol.maxResponsePeers request.infoHashCount src := by
  cases request with
  | connect request =>
    rcases handleRequest_connect worker src request with heq | ⟨answer, heq⟩
    · rw [heq] at h
      cases h
    · rw [heq] at h
      cases h
      exact trivial
  | announce request =>
    unfold handleRequest at h
    split at h
    · cases h
    · exact handleAnnounce_within _ h
  | scrape request =>
    unfold handleRequest at h
    split at h
    · cases h
    · exact handleScrape_within h

/-- Whatever a worker sends is within the limits of its settings and of what it received. -/
theorem receive_within {backend : Backend} {datagram : Datagram} {addr : CanonicalSocketAddr}
    {response : Response} (h : (backend.receive worker datagram).1 = some (addr, response)) :
    ∃ infoHashes, infoHashes ≤ worker.config.maxScrapeTorrents.toNat ∧
      (backend = .uring → 16 + 20 * infoHashes ≤ Uring.requestBufLen) ∧
      response.Within worker.config.protocol.maxResponsePeers infoHashes
        (CanonicalSocketAddr.new datagram.src) := by
  cases hreceived : datagram.received backend with
  | none =>
    rw [receive_of_none hreceived] at h
    cases h
  | some bytes =>
    rw [receive_of_some hreceived] at h
    cases hparsed : Request.parseBytes bytes worker.config.maxScrapeTorrents with
    | error err =>
      rw [hparsed] at h
      cases err with
      | unsendable err => cases h
      | sendable connectionId transactionId err =>
        simp only [answer] at h
        split at h
        · cases h
          exact ⟨0, Nat.zero_le _, fun _ => by decide, mem_errorMessages_of_parseBytes hparsed⟩
        · cases h
    | ok request =>
      rw [hparsed] at h
      obtain ⟨answer, hanswer, heq⟩ := Option.map_eq_some_iff.mp h
      cases heq
      have hwithin := handleRequest_within hanswer
      have hfront := Request.frontOf_of_parseBytes hparsed
      cases request with
      | connect request => exact ⟨0, Nat.zero_le _, fun _ => by decide, hwithin⟩
      | announce request => exact ⟨0, Nat.zero_le _, fun _ => by decide, hwithin⟩
      | scrape request =>
        obtain ⟨-, n, hbytes, hlength⟩ := hfront
        have hwritten := request.length_writeBytes
        change request.writeBytes.length = _ at hlength
        refine ⟨request.infoHashes.length, by omega, ?_, hwithin⟩
        rintro rfl
        simp only [Datagram.received] at hreceived
        split at hreceived
        · cases hreceived
        rename_i hfits
        cases hreceived
        have hcapacity : Uring.payloadCapacity datagram.src ≤ Uring.requestBufLen := by
          unfold Uring.payloadCapacity
          split <;> exact Nat.le_trans (Nat.sub_le _ _) (Nat.sub_le _ _)
        omega

end SocketWorker

namespace SoundShards
variable {I : Type} [DecidableEq I] (config : Config) (m : SoundShards I) (rng : Rng)
  (request : Udp.AnnounceRequest) (ipAddress : I) (validUntil : ValidUntil)

def peers (infoHash : InfoHash) : ResponsePeer I → Option Peer :=
  ((m.get infoHash).getD .default).torrent.peers

/-- Who announces is in the torrent afterwards, and so is who was in it before. -/
theorem peers_announce (hstatus : request.status ≠ .stopped) (key : ResponsePeer I) :
    (m.announce config rng request ipAddress validUntil).2.2.1.peers request.infoHash key =
      if key = ⟨ipAddress, request.port⟩ then some (request.peer validUntil)
      else m.peers request.infoHash key := by
  have hannounce := (((m.get request.infoHash).getD .default).announce_answers config rng request
    ipAddress validUntil).2 key
  simp only [peers, announce, get_insert, if_true, Option.getD_some]
  rw [hannounce]
  simp only [Torrent.announce, Swarm.Torrent.announce, hstatus, if_false, Swarm.Torrent.put]
  split
  · rfl
  · cases request.isCompleted <;> rfl

/-- All peers but the announcing one are in the response, as far as the settings allow. -/
theorem le_length_announce (hwanted : request.peersWanted ≤ 0) {keys : List (ResponsePeer I)}
    (hkeys : keys.Nodup) (hself : ⟨ipAddress, request.port⟩ ∉ keys)
    (hpeers : ∀ key ∈ keys, m.peers request.infoHash key ≠ none) :
    min config.protocol.maxResponsePeers keys.length ≤
      (m.announce config rng request ipAddress validUntil).1.peers.length := by
  obtain ⟨-, m', -, -, -, hrefines⟩ := Swarm.PeerMap.announce_refines
    ((m.get request.infoHash).getD .default).wellFormed.refines rng .stopped false
    ⟨ipAddress, request.port⟩ (request.peer validUntil) 0
  have hcount := hrefines.le_count hkeys
  have hlength := (((m.get request.infoHash).getD .default).announce_answers config rng request
    ipAddress validUntil).1
  rw [maxNumPeersToTake, if_pos hwanted] at hlength
  refine Nat.le_trans (Nat.le_min.mpr ⟨Nat.min_le_left _ _, ?_⟩) hlength.ge
  refine Nat.le_trans (Nat.min_le_right _ _) (hcount ?_)
  intro key hkey
  have hne : key ≠ ⟨ipAddress, request.port⟩ := by
    rintro rfl
    exact hself hkey
  have hkept : (Swarm.Torrent.remove ((m.get request.infoHash).getD .default).torrent
      ⟨ipAddress, request.port⟩).peers key = m.peers request.infoHash key := if_neg hne
  intro hnone
  exact hpeers key hkey (hkept.symm.trans hnone)

/-- Announces from the ports 1 to `n` of one address. -/
def crowd : Nat → SoundShards I
  | 0 => ⟨fun _ => IndexMap.empty⟩
  | n + 1 => ((crowd n).announce config rng { request with port := UInt16.ofNat (n + 1) }
      ipAddress validUntil).2.2.1

theorem peers_crowd (hstatus : request.status ≠ .stopped) {n k : Nat} (hk : k < n) :
    (crowd config rng request ipAddress validUntil n).peers request.infoHash
      ⟨ipAddress, UInt16.ofNat (k + 1)⟩ ≠ none := by
  induction n with
  | zero => cases hk
  | succ n ih =>
    have hannounce := (crowd config rng request ipAddress validUntil n).peers_announce config rng
      { request with port := UInt16.ofNat (n + 1) } ipAddress validUntil hstatus
      ⟨ipAddress, UInt16.ofNat (k + 1)⟩
    rw [crowd, hannounce]
    split
    · exact Option.some_ne_none _
    · rename_i hne
      have hkn : k ≠ n := by
        rintro rfl
        exact hne rfl
      exact ih (by omega)

/-- The peers of such a crowd. -/
def crowdKeys (n : Nat) : List (ResponsePeer I) :=
  (List.range n).map fun k => ⟨ipAddress, UInt16.ofNat (k + 1)⟩

theorem eq_of_ofNat_succ_eq {i j : Nat} (hi : i < 65535) (hj : j < 65535)
    (h : UInt16.ofNat (i + 1) = UInt16.ofNat (j + 1)) : i = j := by
  have hnat := congrArg UInt16.toNat h
  rw [UInt16.toNat_ofNat', UInt16.toNat_ofNat', Nat.mod_eq_of_lt (by omega),
    Nat.mod_eq_of_lt (by omega)] at hnat
  omega

omit [DecidableEq I] in
theorem nodup_crowdKeys {n : Nat} (hn : n < 65535) : (crowdKeys ipAddress n).Nodup := by
  apply List.Nodup.map_on ?_ List.nodup_range
  intro i hi j hj heq
  rw [List.mem_range] at hi hj
  injection heq with _ heq
  exact eq_of_ofNat_succ_eq (by omega) (by omega) heq

theorem le_length_announce_crowd (hstatus : request.status ≠ .stopped)
    (hwanted : request.peersWanted ≤ 0) {n : Nat} (hport : request.port = UInt16.ofNat (n + 1))
    (hn : n < 65535) :
    min config.protocol.maxResponsePeers n ≤
      ((crowd config rng request ipAddress validUntil n).announce config rng request ipAddress
        validUntil).1.peers.length := by
  have hlength := (crowd config rng request ipAddress validUntil n).le_length_announce config rng
    request ipAddress validUntil hwanted (nodup_crowdKeys ipAddress hn) ?_ ?_
  · rw [crowdKeys, List.length_map, List.length_range] at hlength
    exact hlength
  · intro hmem
    obtain ⟨k, hk, heq⟩ := List.mem_map.mp hmem
    rw [List.mem_range] at hk
    injection heq with _ heq
    have hkn := eq_of_ofNat_succ_eq (by omega) hn (heq.trans hport)
    omega
  · intro key hkey
    obtain ⟨k, hk, rfl⟩ := List.mem_map.mp hkey
    exact peers_crowd config rng request ipAddress validUntil hstatus (List.mem_range.mp hk)

end SoundShards

/-- The torrents of a tracker that has answered announces. -/
inductive TorrentMaps.Announced (config : Config) : TorrentMaps → Prop where
  | empty : Announced config ⟨⟨fun _ => IndexMap.empty⟩, ⟨fun _ => IndexMap.empty⟩⟩
  | announce {maps : TorrentMaps} (h : Announced config maps) (rng : Rng)
      (request : Udp.AnnounceRequest) (src : CanonicalSocketAddr) (validUntil : ValidUntil) :
      Announced config (maps.announce config rng request src validUntil).2.2.1

namespace RunConfig

/-- Settings with which the largest response fits the buffer of the backend. -/
def FitsBuffer (config : RunConfig) : Backend → Prop
  | .mio => True
  | .uring => config.protocol.maxResponsePeers ≤ 112 ∨
      config.useIpv6 = false ∧ config.protocol.maxResponsePeers ≤ 338

/-- Whatever the worker responds to datagrams that it can receive is written. -/
def Delivers (config : RunConfig) (backend : Backend) (worker : SocketWorker) : Prop :=
  ∀ (datagram : Datagram) (addr : CanonicalSocketAddr) (response : Response),
    config.hasSocketFor datagram.src = true →
    (backend.receive worker datagram).1 = some (addr, response) →
    (response.serialize backend.sendBufferLen).isSome = true

theorem isIpv4_of_hasSocketFor {config : RunConfig} {addr : SocketAddr}
    (hsocket : config.hasSocketFor addr = true) (hipv6 : config.useIpv6 = false) :
    (CanonicalSocketAddr.new addr).isIpv4 = true := by
  obtain ⟨ip, port⟩ := addr
  cases ip with
  | v4 addr => rfl
  | v6 addr =>
    change config.useIpv6 = true at hsocket
    rw [hipv6] at hsocket
    cases hsocket

theorem delivers_of_fitsBuffer {config : RunConfig} (haccepted : config.Accepted)
    {backend : Backend} (hfits : config.FitsBuffer backend) {worker : SocketWorker}
    (hconfig : worker.config = config.toSocketConfig) : config.Delivers backend worker := by
  intro datagram addr response hsocket hresponse
  obtain ⟨infoHashes, hmax, huring, hwithin⟩ := SocketWorker.receive_within hresponse
  have hscrape : worker.config.maxScrapeTorrents.toNat < 256 :=
    worker.config.maxScrapeTorrents.toNat_lt
  have hpeers := (config.accepted_iff.mp haccepted).2
  have hlength := hwithin.length_le
  rw [hconfig] at hlength
  have hlen : response.writeBytes.length ≤ backend.sendBufferLen := by
    cases backend with
    | mio =>
      change _ ≤ 8192
      omega
    | uring =>
      have hhashes : 16 + 20 * infoHashes ≤ 512 := huring rfl
      change _ ≤ 2048
      rcases hfits with hsmall | ⟨hipv6, hsmall⟩
      · omega
      · rw [isIpv4_of_hasSocketFor hsocket hipv6] at hlength
        simp only [Bool.true_eq_false, and_false, false_or] at hlength
        omega
  rw [Response.serialize, if_pos hlen]
  rfl

end RunConfig

namespace CrowdedTorrent

def validator : ConnectionValidator := ⟨120, ⟨fun _ => #v[5, 6, 7, 8], []⟩, 0, rfl⟩

def infoHash : InfoHash := ⟨.replicate 20 0xab⟩

/-- -TR2940-0123456789ab -/
def peerId : PeerId :=
  ⟨#v[45, 84, 82, 50, 57, 52, 48, 45, 48, 49, 50, 51, 52, 53, 54, 55, 56, 57, 97, 98]⟩

/-- A leecher asks for as many peers as it can get. -/
def request (src : SocketAddr) : Protocol.AnnounceRequest where
  connectionId := (validator.createConnectionId (.new src)).1
  actionPlaceholder := 1
  transactionId := 7
  infoHash := infoHash
  peerId := peerId
  bytesDownloaded := 0
  bytesLeft := 1
  bytesUploaded := 0
  event := ⟨2⟩
  ipAddress := ⟨.replicate 4 0⟩
  key := 0
  peersWanted := -1
  port := src.port

def datagram (src : SocketAddr) : Datagram := ⟨src, (request src).writeBytes⟩

/-- Nobody is banned and the torrent is tracked. -/
def worker (config : SocketConfig) (torrentMaps : TorrentMaps) : SocketWorker where
  config := config
  accessList := ⟨if config.accessListMode = .allow then [infoHash] else []⟩
  ipBanList := .empty
  clientBanList := ⟨[], [], false⟩
  torrentMaps := torrentMaps
  autoBanTracker := none
  violations := []
  validator := validator
  clock := ⟨0⟩
  rng := ⟨fun _ => 0⟩
  peerValidUntil := ⟨1000⟩
  statisticsMessages := []

def ipv4 : Ipv4Addr := ⟨#v[198, 51, 100, 2]⟩

def ipv6 : Ipv6Addr := ⟨#v[0x20, 1, 0x0d, 0xb8, 0, 0, 0, 0, 0, 0, 0, 0, 0, 0, 0, 1]⟩

section
variable (config : SocketConfig) (torrentMaps : TorrentMaps) (src : SocketAddr)

theorem allows_infoHash :
    (worker config torrentMaps).accessList.allows config.accessListMode infoHash = true := by
  change AccessList.allows ⟨if config.accessListMode = .allow then [infoHash] else []⟩ _ _ = true
  cases config.accessListMode with
  | allow => decide
  | deny => decide
  | off => rfl

theorem runSecurityChecks_worker (hpublic : isIpAllowed (canonicalIp src.ip) = true) :
    (worker config torrentMaps).runSecurityChecks (.new src) (some peerId) =
      (false, worker config torrentMaps) := by
  apply SocketWorker.runSecurityChecks_of_unblocked
  have hprivate : (worker config torrentMaps).isPrivateIpBlocked (.new src) = false := by
    change (config.filterPrivateIps && !isIpAllowed (canonicalIp src.ip)) = false
    rw [hpublic, Bool.not_true, Bool.and_false]
  have hformat : ∀ mode,
      (worker config torrentMaps).clientBanList.checkPeerIdFormat peerId mode = .ok := by
    intro mode
    change ClientBanList.checkPeerIdFormat ⟨[], [], false⟩ peerId mode = .ok
    cases mode <;> decide
  have hbanned : ∀ text, (worker config torrentMaps).clientBanList.isBanned text = false :=
    fun _ => rfl
  unfold SocketWorker.runSecurityChecks
  rw [if_neg (by simp [hprivate])]
  simp only [hbanned, Bool.and_false, Bool.false_eq_true, if_false]
  split
  · rfl
  split
  · rw [hformat]
  · rfl

/-- The worker answers the announce from the torrent. -/
theorem receive_worker (hport : src.port ≠ 0) (hpublic : isIpAllowed (canonicalIp src.ip) = true)
    (hvalid : (validator.connectionIdValid (.new src) (request src).connectionId).1 = true) :
    (Backend.uring.receive (worker config torrentMaps) (datagram src)).1 =
      some (.new src, (torrentMaps.announce config.toConfig ⟨fun _ => 0⟩
        (request src).toAnnounceRequest (.new src) ⟨1000⟩).1) := by
  have hlength : (datagram src).payload.length = 98 := (request src).length_writeBytes
  have hcapacity : 98 ≤ Uring.payloadCapacity (datagram src).src := by
    unfold Uring.payloadCapacity
    split <;> decide
  have hreceived : (datagram src).received .uring = some (request src).writeBytes := by
    apply if_neg
    rintro (hzero | htruncated)
    · exact hport hzero
    · omega
  have hparsed : Request.parseBytes (request src).writeBytes config.maxScrapeTorrents =
      .ok (.announce (request src)) :=
    parseBytes_announce rfl hport (by change (0 : Int32) ≤ 2 ∧ (2 : Int32) ≤ 3; decide)
  rw [SocketWorker.receive_of_some hreceived]
  change ((worker config torrentMaps).answer (.new src)
    (Request.parseBytes (request src).writeBytes config.maxScrapeTorrents)).1 = _
  rw [hparsed]
  have hlisted : (worker config torrentMaps).isListBanned (.new src) = false := by
    change ((config.ipBanMode == .on && IpBanList.empty.isBanned (canonicalIp src.ip)) || false) = false
    have hempty : IpBanList.empty.isBanned (canonicalIp src.ip) = false := by
      simp [IpBanList.isBanned, IpBanList.matchesIp, IpBanList.empty]
    rw [hempty, Bool.and_false, Bool.or_false]
  have hannounce := SocketWorker.handleRequest_announce hlisted hvalid
    (runSecurityChecks_worker config torrentMaps src hpublic) (allows_infoHash config torrentMaps)
  exact congrArg (Option.map fun response => (CanonicalSocketAddr.new src, response)) hannounce

end

def srcIpv4 (n : Nat) : SocketAddr := ⟨.v4 ipv4, UInt16.ofNat (n + 1)⟩

def srcIpv6 (n : Nat) : SocketAddr := ⟨.v6 ipv6, UInt16.ofNat (n + 1)⟩

/-- The torrent after announces from the ports 1 to `n`. -/
def mapsIpv4 (config : Config) (n : Nat) : TorrentMaps where
  ipv4 := .crowd config ⟨fun _ => 0⟩ (request (srcIpv4 n)).toAnnounceRequest ⟨ipv4.octets⟩ ⟨1000⟩ n
  ipv6 := ⟨fun _ => IndexMap.empty⟩

def mapsIpv6 (config : Config) (n : Nat) : TorrentMaps where
  ipv4 := ⟨fun _ => IndexMap.empty⟩
  ipv6 := .crowd config ⟨fun _ => 0⟩ (request (srcIpv6 n)).toAnnounceRequest ⟨ipv6.octets⟩ ⟨1000⟩ n

section
variable (config : Config) (n : Nat)

theorem announced_crowdIpv4 (request : Udp.AnnounceRequest) : TorrentMaps.Announced config
    ⟨.crowd config ⟨fun _ => 0⟩ request ⟨ipv4.octets⟩ ⟨1000⟩ n, ⟨fun _ => IndexMap.empty⟩⟩ := by
  induction n with
  | zero => exact .empty
  | succ n ih =>
    exact ih.announce ⟨fun _ => 0⟩ { request with port := UInt16.ofNat (n + 1) }
      (.new ⟨.v4 ipv4, 0⟩) ⟨1000⟩

theorem announced_crowdIpv6 (request : Udp.AnnounceRequest) : TorrentMaps.Announced config
    ⟨⟨fun _ => IndexMap.empty⟩, .crowd config ⟨fun _ => 0⟩ request ⟨ipv6.octets⟩ ⟨1000⟩ n⟩ := by
  induction n with
  | zero => exact .empty
  | succ n ih =>
    exact ih.announce ⟨fun _ => 0⟩ { request with port := UInt16.ofNat (n + 1) }
      (.new ⟨.v6 ipv6, 0⟩) ⟨1000⟩

theorem length_announce_ipv4 (hn : n < 65535) : 20 + 6 * min config.protocol.maxResponsePeers n ≤
    ((mapsIpv4 config n).announce config ⟨fun _ => 0⟩ (request (srcIpv4 n)).toAnnounceRequest
      (.new (srcIpv4 n)) ⟨1000⟩).1.writeBytes.length := by
  have hlength := SoundShards.le_length_announce_crowd config ⟨fun _ => 0⟩
    (request (srcIpv4 n)).toAnnounceRequest (⟨ipv4.octets⟩ : Ipv4AddrBytes) ⟨1000⟩
    (by change peerStatus (AnnounceEvent.ofBytes ⟨2⟩) 1 ≠ .stopped; decide)
    (by change (-1 : Int32) ≤ 0; decide) rfl hn
  have hbytes := Nat.add_le_add_left (Nat.mul_le_mul_left 6 hlength) 20
  exact Nat.le_trans hbytes (length_announceIpv4 _).ge

theorem length_announce_ipv6 (hn : n < 65535) : 20 + 18 * min config.protocol.maxResponsePeers n ≤
    ((mapsIpv6 config n).announce config ⟨fun _ => 0⟩ (request (srcIpv6 n)).toAnnounceRequest
      (.new (srcIpv6 n)) ⟨1000⟩).1.writeBytes.length := by
  have hlength := SoundShards.le_length_announce_crowd config ⟨fun _ => 0⟩
    (request (srcIpv6 n)).toAnnounceRequest (⟨ipv6.octets⟩ : Ipv6AddrBytes) ⟨1000⟩
    (by change peerStatus (AnnounceEvent.ofBytes ⟨2⟩) 1 ≠ .stopped; decide)
    (by change (-1 : Int32) ≤ 0; decide) rfl hn
  have hbytes := Nat.add_le_add_left (Nat.mul_le_mul_left 18 hlength) 20
  exact Nat.le_trans hbytes (length_announceIpv6 _).ge

end

theorem not_delivers {config : RunConfig} (torrentMaps : TorrentMaps) (src : SocketAddr)
    (hsocket : config.hasSocketFor src = true) (hport : src.port ≠ 0)
    (hpublic : isIpAllowed (canonicalIp src.ip) = true)
    (hvalid : (validator.connectionIdValid (.new src) (request src).connectionId).1 = true)
    (hlong : 2048 < (torrentMaps.announce config.toConfig ⟨fun _ => 0⟩
      (request src).toAnnounceRequest (.new src) ⟨1000⟩).1.writeBytes.length) :
    ¬ config.Delivers .uring (worker config.toSocketConfig torrentMaps) := by
  intro hdelivers
  have hserialized := hdelivers (datagram src) _ _ hsocket
    (receive_worker config.toSocketConfig torrentMaps src hport hpublic hvalid)
  unfold Response.serialize at hserialized
  split at hserialized
  · rename_i hfits
    exact Nat.not_le.mpr hlong hfits
  · cases hserialized

theorem not_delivers_ipv4 {config : RunConfig} (hipv4 : config.useIpv4 = true)
    (hpeers : 339 ≤ config.protocol.maxResponsePeers) :
    ¬ config.Delivers .uring (worker config.toSocketConfig (mapsIpv4 config.toConfig 339)) := by
  have hlength := length_announce_ipv4 config.toConfig 339 (by decide)
  rw [Nat.min_eq_right hpeers] at hlength
  exact not_delivers _ (srcIpv4 339) hipv4 (by decide) (by decide) (by decide)
    (Nat.lt_of_lt_of_le (by decide) hlength)

theorem not_delivers_ipv6 {config : RunConfig} (hipv6 : config.useIpv6 = true)
    (hpeers : 113 ≤ config.protocol.maxResponsePeers) :
    ¬ config.Delivers .uring (worker config.toSocketConfig (mapsIpv6 config.toConfig 113)) := by
  have hlength := length_announce_ipv6 config.toConfig 113 (by decide)
  rw [Nat.min_eq_right hpeers] at hlength
  exact not_delivers _ (srcIpv6 113) hipv6 (by decide) (by decide) (by decide)
    (Nat.lt_of_lt_of_le (by decide) hlength)

end CrowdedTorrent

namespace RunConfig

/-- The tracker's own settings, with as many peers in a response as it accepts. -/
def exampleRunConfig (maxResponsePeers : Nat) : RunConfig where
  protocol := ⟨maxResponsePeers, 900⟩
  statistics := ⟨false⟩
  accessListMode := .off
  maxScrapeTorrents := 70
  ipBanMode := .off
  filterPrivateIps := false
  clientBan := ⟨.off, .off⟩
  useIpv4 := true
  useIpv6 := true

/-- Settings are safe for every worker if they are for those that have answered nothing
but announces. -/
theorem delivers_iff_fitsBuffer {config : RunConfig} (haccepted : config.Accepted)
    (backend : Backend) :
    ((∀ worker : SocketWorker, worker.config = config.toSocketConfig →
      config.Delivers backend worker) ↔ config.FitsBuffer backend) ∧
    ((∀ worker : SocketWorker, worker.config = config.toSocketConfig →
      worker.torrentMaps.Announced config.toConfig → config.Delivers backend worker) ↔
        config.FitsBuffer backend) := by
  have hnecessary : (∀ worker : SocketWorker, worker.config = config.toSocketConfig →
      worker.torrentMaps.Announced config.toConfig → config.Delivers backend worker) →
        config.FitsBuffer backend := by
    intro h
    cases backend with
    | mio => exact trivial
    | uring =>
      by_contra hfits
      rw [FitsBuffer, not_or, not_and_or] at hfits
      by_cases hipv6 : config.useIpv6 = true
      · exact CrowdedTorrent.not_delivers_ipv6 hipv6 (by omega)
          (h _ rfl (CrowdedTorrent.announced_crowdIpv6 _ _ _))
      · have hipv4 := (config.accepted_iff.mp haccepted).1.resolve_right hipv6
        have hpeers := hfits.2.resolve_left (fun hne => hne (Bool.eq_false_iff.mpr hipv6))
        exact CrowdedTorrent.not_delivers_ipv4 hipv4 (by omega)
          (h _ rfl (CrowdedTorrent.announced_crowdIpv4 _ _ _))
  refine ⟨⟨?_, ?_⟩, hnecessary, ?_⟩
  · intro h
    exact hnecessary fun worker hconfig _ => h worker hconfig
  · intro hfits worker hconfig
    exact delivers_of_fitsBuffer haccepted hfits hconfig
  · intro hfits worker hconfig _
    exact delivers_of_fitsBuffer haccepted hfits hconfig

theorem delivers_exampleRunConfig : (exampleRunConfig 30).Accepted ∧
    ∀ worker : SocketWorker, worker.config = (exampleRunConfig 30).toSocketConfig →
      (exampleRunConfig 30).Delivers .uring worker := by
  have haccepted : (exampleRunConfig 30).Accepted := (accepted_iff _).mpr (by decide)
  exact ⟨haccepted, (delivers_iff_fitsBuffer haccepted .uring).1.mpr (.inl (by decide))⟩

/-- Of 450 peers in a response, which are accepted, 113 IPv6 peers are too many. -/
theorem lost_response : (exampleRunConfig 450).Accepted ∧
    ∃ worker : SocketWorker, worker.config = (exampleRunConfig 450).toSocketConfig ∧
      worker.torrentMaps.Announced (exampleRunConfig 450).toConfig ∧
      ¬ (exampleRunConfig 450).Delivers .uring worker :=
  ⟨(accepted_iff _).mpr (by decide), CrowdedTorrent.worker _ _, rfl,
    CrowdedTorrent.announced_crowdIpv6 _ 113 _, CrowdedTorrent.not_delivers_ipv6 rfl (by decide)⟩

end RunConfig

end Aquatic.Udp
