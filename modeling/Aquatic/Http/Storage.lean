import Aquatic.Swarm.Refinement

/-!
# The torrent map of an HTTP swarm worker

The same two peer maps as in the UDP tracker with room for four peers in the
small one. Cleaning does not convert a large map back; it drops torrents.
`usize` has 64 bits.
-/

namespace Aquatic.Http
open Collections Swarm
set_option autoImplicit false

def u64ToUsizeChecked (value : UInt64) : Nat := value.toNat

inductive AnnounceEvent where
  | started
  | stopped
  | completed
  | empty
  deriving DecidableEq, Repr

structure AnnounceRequest where
  infoHash : InfoHash
  port : UInt16
  bytesLeft : Nat
  event : AnnounceEvent
  numwant : Option Nat
  deriving DecidableEq, Repr

structure ScrapeRequest where
  infoHashes : List InfoHash
  deriving DecidableEq, Repr

structure ResponsePeer (I : Type) where
  ipAddress : I
  port : UInt16
  deriving DecidableEq, Repr

structure ScrapeStatistics where
  complete : Nat
  incomplete : Nat
  downloaded : Nat
  deriving DecidableEq, Repr

structure ScrapeResponse where
  files : Std.TreeMap InfoHash ScrapeStatistics

structure ProtocolConfig where
  maxScrapeTorrents : Nat
  maxPeers : Nat
  deriving DecidableEq, Repr

structure Config where
  protocol : ProtocolConfig
  accessListMode : AccessListMode
  deriving DecidableEq, Repr

structure Peer where
  validUntil : ValidUntil
  isSeeder : Bool
  deriving DecidableEq, Repr

instance : PeerEntry Peer := ⟨Peer.isSeeder, Peer.validUntil⟩

def smallPeerMapCapacity : Nat := 4

abbrev TorrentData (I : Type) := Swarm.PeerMap (ResponsePeer I) Peer smallPeerMapCapacity

structure TorrentMap (I : Type) where
  torrents : IndexMap InfoHash (TorrentData I)

def peerStatus (event : AnnounceEvent) (bytesLeft : Nat) : PeerStatus :=
  if event = .stopped then .stopped
  else if bytesLeft = 0 then .seeding
  else .leeching

def maxNumPeersToTake (config : Config) (request : AnnounceRequest) : Nat :=
  match request.numwant with
  | some 0 | none => config.protocol.maxPeers
  | some numwant => min numwant config.protocol.maxPeers

namespace AnnounceRequest

def status (request : AnnounceRequest) : PeerStatus := peerStatus request.event request.bytesLeft

def isCompleted (request : AnnounceRequest) : Bool := request.event == .completed

def peer (request : AnnounceRequest) (validUntil : ValidUntil) : Peer where
  validUntil := validUntil
  isSeeder := request.status == .seeding

end AnnounceRequest

variable {I : Type} [DecidableEq I]

namespace TorrentData

/-- Seeders, leechers and peers for the response. -/
def upsertPeerAndGetResponsePeers (config : Config) (d : TorrentData I) (rng : Rng)
    (request : AnnounceRequest) (ipAddress : I) (validUntil : ValidUntil) :
    Option ((Nat × Nat × List (ResponsePeer I)) × TorrentData I × Rng) := do
  let (announced, d, rng) ← Swarm.PeerMap.announce d rng request.status request.isCompleted
    ⟨ipAddress, request.port⟩ (request.peer validUntil) (maxNumPeersToTake config request)
  return ((announced.seeders, announced.leechers, announced.peers), d, rng)

def scrapeStatistics (d : TorrentData I) : Option ScrapeStatistics := do
  let (seeders, leechers) ← d.numSeedersLeechers
  return ⟨seeders, leechers, u64ToUsizeChecked d.completedCount⟩

end TorrentData

namespace TorrentMap

def empty : TorrentMap I := ⟨IndexMap.empty⟩

def upsertPeerAndGetResponsePeers (config : Config) (m : TorrentMap I) (rng : Rng)
    (validUntil : ValidUntil) (peerIpAddress : I) (request : AnnounceRequest) :
    Option ((Nat × Nat × List (ResponsePeer I)) × TorrentMap I × Rng) := do
  let d := (m.torrents.get request.infoHash).getD Swarm.PeerMap.default
  let (response, d, rng) ←
    TorrentData.upsertPeerAndGetResponsePeers config d rng request peerIpAddress validUntil
  return (response, ⟨m.torrents.insert request.infoHash d⟩, rng)

def scrapeOne (m : TorrentMap I) (infoHash : InfoHash) : Option ScrapeStatistics :=
  match m.torrents.get infoHash with
  | some d => TorrentData.scrapeStatistics d
  | none => some ⟨0, 0, 0⟩

def handleScrapeRequest (config : Config) (m : TorrentMap I) (request : ScrapeRequest) :
    Option ScrapeResponse := do
  let numToTake := min request.infoHashes.length config.protocol.maxScrapeTorrents
  let files ← (request.infoHashes.take numToTake).foldlM (fun files infoHash => do
    return Std.TreeMap.insert files infoHash (← m.scrapeOne infoHash)) ∅
  return ⟨files⟩

/-- Whether to keep a torrent, and its peers that are still valid. -/
def cleanOne (config : Config) (accessList : AccessList) (now : SecondsSinceServerStart)
    (infoHash : InfoHash) (d : TorrentData I) : Option (Option (TorrentData I)) :=
  if !accessList.allows config.accessListMode infoHash then some none
  else do
    let (numPeers, d) ← d.cleanAndGetNumPeers now
    return if numPeers > 0 then some d else none

def clean (config : Config) (m : TorrentMap I) (accessList : AccessList)
    (now : SecondsSinceServerStart) : Option (TorrentMap I) := do
  return ⟨← m.torrents.filterMapM (cleanOne config accessList now)⟩

end TorrentMap

end Aquatic.Http
