import Aquatic.Udp.ConnectionIds

/-!
# Scrape answers and their requests

The answer to a scrape names no torrents: its entries are those of the request, by
position. The parser cuts the request off at a length and the lookup goes through it
in order, but the filter for the access list takes torrents out.
-/

namespace Aquatic.Udp
open Bytes Collections Protocol
set_option autoImplicit false

theorem Protocol.infoHashes_of_parsed {bytes : List UInt8} {maxScrapeTorrents : UInt8}
    {request : ScrapeRequest} {infoHashes : List InfoHash}
    (h : Request.parseBytes bytes maxScrapeTorrents = .ok (.scrape request))
    (hbytes : bytes.drop 16 = infoHashes.flatMap fun infoHash => infoHash.bytes.toList) :
    request.infoHashes = infoHashes.take maxScrapeTorrents.toNat := by
  have hparsed := Request.parseBytes_spec bytes maxScrapeTorrents
  rw [h] at hparsed
  cases hparsed with
  | @scrape connectionId rest fields transactionId haction hfields hhashes =>
    have hslice : sliceFrom 20 (bytes.drop 16) = some (infoHashes.map InfoHash.bytes) := by
      rw [sliceFrom_eq_some_iff (by decide), hbytes, List.flatMap_map]
    rw [hslice] at hhashes
    cases hhashes
    rw [← List.map_take, List.map_map]
    exact List.map_id _

namespace SocketWorker

/-- Nothing keeps the worker from answering a scrape with this connection id. -/
structure Passes (worker : SocketWorker) (src : CanonicalSocketAddr) (connectionId : ConnectionId) :
    Prop where
  notListed : worker.isListBanned src = false
  valid : (worker.validator.connectionIdValid src connectionId).1 = true
  checked : (worker.runSecurityChecks src none).1 = false

def allows (worker : SocketWorker) (infoHash : InfoHash) : Bool :=
  worker.accessList.allows worker.config.accessListMode infoHash

/-- What a scrape is to be told about a torrent. -/
noncomputable def statistics (worker : SocketWorker) (src : CanonicalSocketAddr)
    (infoHash : InfoHash) : TorrentScrapeStatistics :=
  if worker.allows infoHash then worker.torrentMaps.statistics src infoHash else ⟨0, 0, 0⟩

/-- Entries stand where their torrents stand in the request. -/
structure Aligned (worker : SocketWorker) (src : CanonicalSocketAddr) (infoHashes : List InfoHash)
    (stats : List TorrentScrapeStatistics) : Prop where
  length : stats.length = min infoHashes.length worker.config.maxScrapeTorrents.toNat
  entry : ∀ i infoHash, i < worker.config.maxScrapeTorrents.toNat →
    infoHashes[i]? = some infoHash → stats[i]? = some (worker.statistics src infoHash)

section
variable {worker : SocketWorker} {src : CanonicalSocketAddr}

theorem Passes.notPrivate {connectionId : ConnectionId} (h : worker.Passes src connectionId) :
    worker.isPrivateIpBlocked src = false := by
  rw [Bool.eq_false_iff]
  intro hprivate
  have hchecked := h.checked
  rw [runSecurityChecks, if_pos hprivate] at hchecked
  cases hchecked

/-- The entries that are sent: those of the torrents that are allowed. -/
theorem aligned_filter_iff (worker : SocketWorker) (src : CanonicalSocketAddr)
    (infoHashes : List InfoHash) :
    worker.Aligned src infoHashes
        (((infoHashes.take worker.config.maxScrapeTorrents.toNat).filter worker.allows).map
          (worker.torrentMaps.statistics src)) ↔
      ∀ infoHash ∈ infoHashes.take worker.config.maxScrapeTorrents.toNat,
        worker.allows infoHash = true := by
  constructor
  · intro h
    have hlength := h.length
    rw [List.length_map, Nat.min_comm, ← List.length_take] at hlength
    exact List.length_filter_eq_length_iff.mp hlength
  · intro h
    rw [List.filter_eq_self.mpr h]
    refine ⟨by rw [List.length_map, List.length_take, Nat.min_comm], ?_⟩
    intro i infoHash hi hget
    have htake : (infoHashes.take worker.config.maxScrapeTorrents.toNat)[i]? = some infoHash := by
      rw [List.getElem?_take, if_pos hi, hget]
    rw [List.getElem?_map, htake, Option.map_some, statistics,
      if_pos (h infoHash (List.mem_of_getElem? htake))]

end

/-- A scrape is answered in line with its request exactly if none of its torrents is
forbidden. -/
theorem scrape_aligned_iff {backend : Backend} {worker : SocketWorker} {datagram : Datagram}
    {bytes : List UInt8} {request : ScrapeRequest} {infoHashes : List InfoHash}
    (hreceived : datagram.received backend = some bytes)
    (haccepted : Request.parseBytes bytes worker.config.maxScrapeTorrents = .ok (.scrape request))
    (hbytes : bytes.drop 16 = infoHashes.flatMap fun infoHash => infoHash.bytes.toList)
    (hpasses : worker.Passes (CanonicalSocketAddr.new datagram.src) request.connectionId) :
    (∃ response, (backend.receive worker datagram).1 =
        some (CanonicalSocketAddr.new datagram.src, .scrape response) ∧
      worker.Aligned (CanonicalSocketAddr.new datagram.src) infoHashes response.torrentStats) ↔
    ∀ infoHash ∈ infoHashes.take worker.config.maxScrapeTorrents.toNat,
      worker.accessList.allows worker.config.accessListMode infoHash = true := by
  rw [receive_of_some hreceived, haccepted, answer, Uring.handleRequest,
    handleRequest_scrape hpasses.notListed hpasses.valid hpasses.notPrivate]
  have hstats : (worker.torrentMaps.scrape (request.filterInfoHashes fun infoHash =>
        worker.accessList.allows worker.config.accessListMode infoHash)
        (CanonicalSocketAddr.new datagram.src)).torrentStats =
      ((infoHashes.take worker.config.maxScrapeTorrents.toNat).filter worker.allows).map
        (worker.torrentMaps.statistics (CanonicalSocketAddr.new datagram.src)) := by
    rw [TorrentMaps.scrape_eq, ← infoHashes_of_parsed haccepted hbytes]
    rfl
  refine Iff.trans ?_ (aligned_filter_iff worker (CanonicalSocketAddr.new datagram.src) infoHashes)
  rw [← hstats]
  constructor
  · rintro ⟨response, hresponse, haligned⟩
    cases hresponse
    exact haligned
  · intro haligned
    exact ⟨_, rfl, haligned⟩

/-- A scrape of two torrents. -/
def exampleScrape : Datagram where
  src := ⟨.v4 ⟨#v[198, 51, 100, 1]⟩, 6881⟩
  payload := [4, 3, 2, 1, 0, 0, 0, 0, 0, 0, 0, 2, 0, 0, 0, 9] ++
    List.replicate 20 1 ++ List.replicate 20 2

def exampleInfoHashes : List InfoHash := [⟨Vector.replicate 20 1⟩, ⟨Vector.replicate 20 2⟩]

theorem example_scrape_aligned :
    ∃ response, (Backend.mio.receive exampleWorker exampleScrape).1 =
        some (CanonicalSocketAddr.new exampleScrape.src, .scrape response) ∧
      exampleWorker.Aligned (CanonicalSocketAddr.new exampleScrape.src) exampleInfoHashes
        response.torrentStats := by
  have haccepted : Request.parseBytes exampleScrape.payload
      exampleWorker.config.maxScrapeTorrents =
      .ok (.scrape ⟨⟨0x0403020100000000⟩, 9, exampleInfoHashes⟩) := by decide
  have hreceived : exampleScrape.received .mio = some exampleScrape.payload := by decide
  exact (scrape_aligned_iff hreceived haccepted (by decide)
    ⟨by decide, by decide, by decide⟩).mpr fun _ _ => rfl

/-- The second torrent has a seeder; the first one is forbidden. -/
def forbiddingWorker : SocketWorker :=
  { exampleWorker with
    config := { exampleWorker.config with accessListMode := .deny }
    accessList := ⟨[⟨Vector.replicate 20 1⟩]⟩
    torrentMaps := { exampleWorker.torrentMaps with
      ipv4 := exampleWorker.torrentMaps.ipv4.insert ⟨Vector.replicate 20 2⟩
        ⟨.small ⟨⟨[(⟨⟨#v[192, 0, 2, 1]⟩, 6881⟩, ⟨⟨Vector.replicate 20 3⟩, true, ⟨1000⟩⟩)],
          by decide⟩, 0⟩, by simp [Swarm.PeerMap.WellFormed, Swarm.SmallPeerMap.Distinct]⟩ } }

/-- The seeder is reported in the place of the forbidden torrent. -/
theorem forbidden_torrent_shifts_entries :
    forbiddingWorker.Passes (CanonicalSocketAddr.new exampleScrape.src) ⟨0x0403020100000000⟩ ∧
      (Backend.mio.receive forbiddingWorker exampleScrape).1 =
        some (CanonicalSocketAddr.new exampleScrape.src, .scrape ⟨9, [⟨1, 0, 0⟩]⟩) ∧
      (Backend.uring.receive forbiddingWorker exampleScrape).1 =
        some (CanonicalSocketAddr.new exampleScrape.src, .scrape ⟨9, [⟨1, 0, 0⟩]⟩) ∧
      ¬ forbiddingWorker.Aligned (CanonicalSocketAddr.new exampleScrape.src) exampleInfoHashes
        [⟨1, 0, 0⟩] := by
  refine ⟨⟨by decide, by decide, by decide⟩, by decide, by decide, ?_⟩
  intro h
  exact absurd h.length (by decide)

end SocketWorker

end Aquatic.Udp
