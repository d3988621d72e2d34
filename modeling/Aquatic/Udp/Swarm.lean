import Aquatic.Swarm.Refinement

/-!
# The UDP swarm: announces, scrapes and the cleaning of one torrent
-/

namespace Aquatic.Udp
open Collections Swarm
set_option autoImplicit false

/-- `usize` and `u64` counts are sent as `i32`: larger ones are clamped. -/
def usizeToI32Checked (value : Nat) : Int32 :=
  if value ≤ 2147483647 then Int32.ofNat value else 2147483647

def u64ToI32Checked (value : UInt64) : Int32 :=
  if value ≤ 2147483647 then Int32.ofNat value.toNat else 2147483647

inductive AnnounceEvent where
  | started
  | stopped
  | completed
  | none
  deriving DecidableEq, Repr

/-- The event of a request, as sent. -/
structure AnnounceEventBytes where
  value : Int32
  deriving DecidableEq, Repr

namespace AnnounceEvent

def toBytes : AnnounceEvent → AnnounceEventBytes
  | none => ⟨0⟩
  | completed => ⟨1⟩
  | started => ⟨2⟩
  | stopped => ⟨3⟩

def ofBytes (bytes : AnnounceEventBytes) : AnnounceEvent :=
  if bytes.value = 1 then completed
  else if bytes.value = 2 then started
  else if bytes.value = 3 then stopped
  else none

theorem ofBytes_toBytes (event : AnnounceEvent) : ofBytes event.toBytes = event := by
  cases event <;> rfl

end AnnounceEvent

structure AnnounceRequest where
  transactionId : Int32
  infoHash : InfoHash
  peerId : PeerId
  bytesLeft : Int64
  event : AnnounceEventBytes
  peersWanted : Int32
  port : UInt16
  deriving DecidableEq, Repr

structure Ipv4AddrBytes where
  bytes : Vector UInt8 4
  deriving DecidableEq, Repr

structure Ipv6AddrBytes where
  bytes : Vector UInt8 16
  deriving DecidableEq, Repr

structure ResponsePeer (I : Type) where
  ipAddress : I
  port : UInt16
  deriving DecidableEq, Repr

structure AnnounceResponseFixedData where
  transactionId : Int32
  announceInterval : Int32
  leechers : Int32
  seeders : Int32
  deriving DecidableEq, Repr

structure AnnounceResponse (I : Type) where
  fixed : AnnounceResponseFixedData
  peers : List (ResponsePeer I)
  deriving DecidableEq, Repr

structure TorrentScrapeStatistics where
  seeders : Int32
  completed : Int32
  leechers : Int32
  deriving DecidableEq, Repr

inductive StatisticsMessage where
  | peerAdded (peerId : PeerId)
  | peerRemoved (peerId : PeerId)
  deriving DecidableEq, Repr

structure ProtocolConfig where
  maxResponsePeers : Nat
  peerAnnounceInterval : Int32
  deriving DecidableEq, Repr

structure StatisticsConfig where
  peerClients : Bool
  deriving DecidableEq, Repr

structure Config where
  protocol : ProtocolConfig
  statistics : StatisticsConfig
  accessListMode : AccessListMode
  deriving DecidableEq, Repr

structure Peer where
  peerId : PeerId
  isSeeder : Bool
  validUntil : ValidUntil
  deriving DecidableEq, Repr

instance : PeerEntry Peer := ⟨Peer.isSeeder, Peer.validUntil⟩

def smallPeerMapCapacity : Nat := 2

abbrev PeerMap (I : Type) := Swarm.PeerMap (ResponsePeer I) Peer smallPeerMapCapacity

def peerStatus (event : AnnounceEvent) (bytesLeft : Int64) : PeerStatus :=
  if event = .stopped then .stopped
  else if bytesLeft = 0 then .seeding
  else .leeching

def maxNumPeersToTake (config : Config) (request : AnnounceRequest) : Nat :=
  if request.peersWanted ≤ 0 then config.protocol.maxResponsePeers
  else min config.protocol.maxResponsePeers request.peersWanted.toInt.toNat

namespace AnnounceRequest

def status (request : AnnounceRequest) : PeerStatus :=
  peerStatus (AnnounceEvent.ofBytes request.event) request.bytesLeft

def isCompleted (request : AnnounceRequest) : Bool :=
  request.event == AnnounceEvent.completed.toBytes

def peer (request : AnnounceRequest) (validUntil : ValidUntil) : Peer where
  peerId := request.peerId
  isSeeder := request.status == .seeding
  validUntil := validUntil

end AnnounceRequest

variable {I : Type} [DecidableEq I]

def announceResponse (config : Config) (request : AnnounceRequest)
    (announced : Announced (ResponsePeer I) Peer) : AnnounceResponse I where
  fixed :=
    { transactionId := request.transactionId
      announceInterval := config.protocol.peerAnnounceInterval
      leechers := usizeToI32Checked announced.leechers
      seeders := usizeToI32Checked announced.seeders }
  peers := announced.peers

def announceStatistics (config : Config) (request : AnnounceRequest) (optRemovedPeer : Option Peer) :
    List StatisticsMessage :=
  match request.status with
  | .leeching | .seeding =>
    if config.statistics.peerClients && optRemovedPeer.isNone then [.peerAdded request.peerId]
    else []
  | .stopped =>
    if config.statistics.peerClients && optRemovedPeer.isSome then [.peerRemoved request.peerId]
    else []

namespace PeerMap

def announce (config : Config) (m : PeerMap I) (rng : Rng) (request : AnnounceRequest)
    (ipAddress : I) (validUntil : ValidUntil) :
    Option (AnnounceResponse I × List StatisticsMessage × PeerMap I × Rng) := do
  let (announced, m, rng) ← Swarm.PeerMap.announce m rng request.status request.isCompleted
    ⟨ipAddress, request.port⟩ (request.peer validUntil) (maxNumPeersToTake config request)
  return (announceResponse config request announced,
    announceStatistics config request announced.removed, m, rng)

def scrapeStatistics (m : PeerMap I) : Option TorrentScrapeStatistics := do
  let (seeders, leechers) ← m.numSeedersLeechers
  return { seeders := usizeToI32Checked seeders
           leechers := usizeToI32Checked leechers
           completed := u64ToI32Checked m.completedCount }

/-- One torrent's turn in a cleaning round: a large map that has become small is
converted back. -/
def clean (config : Config) (m : PeerMap I) (now : SecondsSinceServerStart) :
    Option (Nat × List StatisticsMessage × PeerMap I) := do
  let messages :=
    if config.statistics.peerClients then
      (m.entries.filter fun e => !e.2.validUntil.valid now).map fun e => .peerRemoved e.2.peerId
    else []
  let (numPeers, m) ← m.cleanAndGetNumPeers now
  match m with
  | .small m => return (numPeers, messages, .small m)
  | .large m => return (numPeers, messages, Swarm.PeerMap.shrink m)

end PeerMap

end Aquatic.Udp
