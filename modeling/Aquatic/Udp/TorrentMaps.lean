import Aquatic.Common.Net
import Aquatic.Udp.Protocol
import Aquatic.Udp.Shards

/-!
# The torrent maps as one request finds them

An announce and a scrape run here from beginning to end. Every peer map carries the
invariant of the swarm, so neither of them aborts.
-/

namespace Aquatic.Udp
open Collections Protocol
set_option autoImplicit false

structure SoundPeerMap (I : Type) [DecidableEq I] where
  peerMap : PeerMap I
  wellFormed : peerMap.WellFormed

namespace SoundPeerMap
variable {I : Type} [DecidableEq I]

def default : SoundPeerMap I := ⟨Swarm.PeerMap.default, List.nodup_nil⟩

theorem announce_spec (config : Config) (m : SoundPeerMap I) (rng : Rng)
    (request : Udp.AnnounceRequest) (ipAddress : I) (validUntil : ValidUntil) :
    ∃ r, PeerMap.announce config m.peerMap rng request ipAddress validUntil = some r ∧
      r.2.2.1.WellFormed := by
  obtain ⟨response, messages, m', rng', hm', -, hrefines⟩ :=
    announce_simulates config m.wellFormed.refines rng request ipAddress validUntil
  exact ⟨_, hm', hrefines.wellFormed⟩

theorem announce_isSome (config : Config) (m : SoundPeerMap I) (rng : Rng)
    (request : Udp.AnnounceRequest) (ipAddress : I) (validUntil : ValidUntil) :
    (PeerMap.announce config m.peerMap rng request ipAddress validUntil).isSome := by
  obtain ⟨r, hr, -⟩ := announce_spec config m rng request ipAddress validUntil
  rw [hr]
  rfl

def announce (config : Config) (m : SoundPeerMap I) (rng : Rng) (request : Udp.AnnounceRequest)
    (ipAddress : I) (validUntil : ValidUntil) :
    AnnounceResponse I × List StatisticsMessage × SoundPeerMap I × Rng :=
  let r := (PeerMap.announce config m.peerMap rng request ipAddress validUntil).get
    (announce_isSome config m rng request ipAddress validUntil)
  (r.1, r.2.1, ⟨r.2.2.1, by
    obtain ⟨r', hr', hwell⟩ := announce_spec config m rng request ipAddress validUntil
    simp only [r, hr', Option.get_some]
    exact hwell⟩, r.2.2.2)

theorem scrapeStatistics_isSome (m : SoundPeerMap I) :
    (PeerMap.scrapeStatistics m.peerMap).isSome := by
  rw [scrapeStatistics_eq m.wellFormed.refines]
  rfl

def scrapeStatistics (m : SoundPeerMap I) : TorrentScrapeStatistics :=
  (PeerMap.scrapeStatistics m.peerMap).get m.scrapeStatistics_isSome

/-- The torrent that the map stores. -/
def torrent (m : SoundPeerMap I) : Torrent I := ⟨m.peerMap.get, m.peerMap.completedCount.toNat⟩

theorem scrapeStatistics_eq (m : SoundPeerMap I) :
    m.scrapeStatistics = Torrent.scrapeStatistics m.torrent := by
  unfold scrapeStatistics
  simp only [Udp.scrapeStatistics_eq m.wellFormed.refines, Option.get_some]
  rfl

end SoundPeerMap

/-- The shards of one address family. -/
structure SoundShards (I : Type) [DecidableEq I] where
  shards : Nat → IndexMap InfoHash (SoundPeerMap I)

namespace SoundShards
variable {I : Type} [DecidableEq I]

def get (m : SoundShards I) (infoHash : InfoHash) : Option (SoundPeerMap I) :=
  (m.shards (shardIndex infoHash)).get infoHash

def insert (m : SoundShards I) (infoHash : InfoHash) (peerMap : SoundPeerMap I) : SoundShards I :=
  ⟨fun i => if i = shardIndex infoHash then (m.shards i).insert infoHash peerMap else m.shards i⟩

def announce (config : Config) (m : SoundShards I) (rng : Rng) (request : Udp.AnnounceRequest)
    (ipAddress : I) (validUntil : ValidUntil) :
    AnnounceResponse I × List StatisticsMessage × SoundShards I × Rng :=
  let peerMap := (m.get request.infoHash).getD SoundPeerMap.default
  let (response, messages, peerMap, rng) :=
    peerMap.announce config rng request ipAddress validUntil
  (response, messages, m.insert request.infoHash peerMap, rng)

def scrape (m : SoundShards I) (request : ScrapeRequest) : ScrapeResponse where
  transactionId := request.transactionId
  torrentStats := request.infoHashes.map fun infoHash =>
    match m.get infoHash with
    | some peerMap => peerMap.scrapeStatistics
    | none => ⟨0, 0, 0⟩

/-- What there is to be told about a torrent; zeros if it is unknown. -/
noncomputable def statistics (m : SoundShards I) (infoHash : InfoHash) : TorrentScrapeStatistics :=
  match m.get infoHash with
  | some peerMap => Torrent.scrapeStatistics peerMap.torrent
  | none => ⟨0, 0, 0⟩

theorem scrape_eq (m : SoundShards I) (request : ScrapeRequest) :
    (m.scrape request).torrentStats = request.infoHashes.map m.statistics := by
  apply List.map_congr_left
  intro infoHash _
  unfold statistics
  split <;> simp [SoundPeerMap.scrapeStatistics_eq, *]

end SoundShards

structure TorrentMaps where
  ipv4 : SoundShards Ipv4AddrBytes
  ipv6 : SoundShards Ipv6AddrBytes

namespace TorrentMaps

def announce (config : Config) (maps : TorrentMaps) (rng : Rng) (request : Udp.AnnounceRequest)
    (src : CanonicalSocketAddr) (validUntil : ValidUntil) :
    Response × List StatisticsMessage × TorrentMaps × Rng :=
  match src.addr.ip with
  | .v4 addr =>
    let (response, messages, ipv4, rng) :=
      maps.ipv4.announce config rng request ⟨addr.octets⟩ validUntil
    (.announceIpv4 response, messages, { maps with ipv4 }, rng)
  | .v6 addr =>
    let (response, messages, ipv6, rng) :=
      maps.ipv6.announce config rng request ⟨addr.octets⟩ validUntil
    (.announceIpv6 response, messages, { maps with ipv6 }, rng)

def scrape (maps : TorrentMaps) (request : ScrapeRequest) (src : CanonicalSocketAddr) :
    ScrapeResponse :=
  if src.isIpv4 then maps.ipv4.scrape request else maps.ipv6.scrape request

noncomputable def statistics (maps : TorrentMaps) (src : CanonicalSocketAddr)
    (infoHash : InfoHash) : TorrentScrapeStatistics :=
  if src.isIpv4 then maps.ipv4.statistics infoHash else maps.ipv6.statistics infoHash

/-- The lookup keeps the order of the request and leaves nothing out. -/
theorem scrape_eq (maps : TorrentMaps) (request : ScrapeRequest) (src : CanonicalSocketAddr) :
    (maps.scrape request src).torrentStats = request.infoHashes.map (maps.statistics src) := by
  unfold scrape
  split
  · rename_i hipv4
    have hfamily : maps.statistics src = maps.ipv4.statistics := funext fun _ => if_pos hipv4
    rw [hfamily, SoundShards.scrape_eq]
  · rename_i hipv6
    have hfamily : maps.statistics src = maps.ipv6.statistics := funext fun _ => if_neg hipv6
    rw [hfamily, SoundShards.scrape_eq]

end TorrentMaps

end Aquatic.Udp
