import Aquatic.Lib.Transition
import Aquatic.Udp.SwarmRefinement

/-!
# The sharded torrent map, one lock at a time

Any number of socket workers and the cleaning thread on one torrent map. An
announce takes two steps: it looks up its torrent under the lock of the shard,
and announces to it under the lock of the peer map. A cleaning round goes from
shard to shard; in each it first cleans every torrent, then drops torrents. The
histogram and the statistics messages are left out.
-/

namespace Aquatic.Udp
open Collections
set_option autoImplicit false

/-- What an `Arc<TorrentData>` points to. -/
structure Arc where
  address : Nat
  deriving DecidableEq, Repr

structure TorrentData (I : Type) where
  peerMap : PeerMap I
  pendingRemoval : Bool

def TorrentData.default {I : Type} : TorrentData I := ⟨Swarm.PeerMap.default, false⟩

/-- An announce that has looked up its torrent. -/
structure Flight (I : Type) where
  request : AnnounceRequest
  ipAddress : I
  validUntil : ValidUntil
  torrentData : Arc

def Flight.key {I : Type} (flight : Flight I) : ResponsePeer I :=
  ⟨flight.ipAddress, flight.request.port⟩

/-- What a cleaning round takes from shard to shard. -/
structure Round where
  now : SecondsSinceServerStart
  totalNumTorrents : Nat
  totalNumPeers : Nat
  deriving DecidableEq, Repr

/-- Where the cleaning thread is. -/
inductive Cleaner where
  | idle
  | atShard (round : Round) (shard : Nat)
  /-- It holds the read lock of the shard. -/
  | cleaning (round : Round) (shard : Nat) (remaining : List Arc)
  /-- The same; `pending_removal` of a torrent is still to be stored. -/
  | cleaned (round : Round) (shard : Nat) (remaining : List Arc) (torrentData : Arc)
      (numPeers : Nat)
  | unlocked (round : Round) (shard : Nat)
  /-- It holds the write lock of the shard. -/
  | retaining (round : Round) (shard : Nat) (remaining : List InfoHash)
  deriving DecidableEq, Repr

namespace Cleaner

def reads : Cleaner → Nat → Bool
  | cleaning _ shard _, i => shard == i
  | cleaned _ shard _ _ _, i => shard == i
  | _, _ => false

def writes : Cleaner → Nat → Bool
  | retaining _ shard _, i => shard == i
  | _, _ => false

/-- The time that the round was started with. -/
def now : Cleaner → Option SecondsSinceServerStart
  | idle => none
  | atShard round _ => some round.now
  | cleaning round _ _ => some round.now
  | cleaned round _ _ _ _ => some round.now
  | unlocked round _ => some round.now
  | retaining round _ _ => some round.now

end Cleaner

/-- `owed` records until when the peers that were answered are to be found. -/
structure TorrentMapShards (I : Type) where
  shards : Nat → IndexMap InfoHash Arc
  torrentData : Arc → TorrentData I
  allocated : Nat
  inFlight : Nat → Option (Flight I)
  cleaner : Cleaner
  accessList : AccessList
  clock : SecondsSinceServerStart
  owed : InfoHash → ResponsePeer I → Option ValidUntil

def numShards : Nat := 16

def shardIndex (infoHash : InfoHash) : Nat := infoHash.firstByte % numShards

namespace TorrentMapShards
variable {I : Type} [DecidableEq I]

inductive Action (I : Type) where
  | lookUp (worker : Nat) (request : AnnounceRequest) (ipAddress : I) (validUntil : ValidUntil)
  | announce (worker : Nat) (rng : Rng)
  | startRound (now : SecondsSinceServerStart)
  | lockRead
  | cleanTorrent (torrentData : Arc)
  | storePendingRemoval
  | unlockRead
  | lockWrite
  | retain (infoHash : InfoHash)
  | unlockWrite
  | tick (clock : SecondsSinceServerStart)
  | updateAccessList (accessList : AccessList)

def init : TorrentMapShards I where
  shards := fun _ => IndexMap.empty
  torrentData := fun _ => TorrentData.default
  allocated := 0
  inFlight := fun _ => none
  cleaner := .idle
  accessList := ⟨[]⟩
  clock := 0
  owed := fun _ _ => none

def get (s : TorrentMapShards I) (infoHash : InfoHash) : Option Arc :=
  (s.shards (shardIndex infoHash)).get infoHash

def setShard (s : TorrentMapShards I) (i : Nat) (shard : IndexMap InfoHash Arc) :
    TorrentMapShards I :=
  { s with shards := fun j => if j = i then shard else s.shards j }

def setTorrentData (s : TorrentMapShards I) (arc : Arc) (torrentData : TorrentData I) :
    TorrentMapShards I :=
  { s with torrentData := fun a => if a = arc then torrentData else s.torrentData a }

def setInFlight (s : TorrentMapShards I) (worker : Nat) (flight : Option (Flight I)) :
    TorrentMapShards I :=
  { s with inFlight := fun w => if w = worker then flight else s.inFlight w }

/-- The announcing peer is to be found until its time is over, unless it has
stopped or its torrent is forbidden. -/
def setOwed (config : Config) (s : TorrentMapShards I) (flight : Flight I) : TorrentMapShards I :=
  { s with owed := fun h k =>
      if h = flight.request.infoHash ∧ k = flight.key then
        if flight.request.status ≠ .stopped ∧ s.accessList.allows config.accessListMode h then
          some flight.validUntil
        else none
      else s.owed h k }

def insertNew (s : TorrentMapShards I) (infoHash : InfoHash) : TorrentMapShards I :=
  let i := shardIndex infoHash
  { (s.setShard i ((s.shards i).insert infoHash ⟨s.allocated⟩)).setTorrentData ⟨s.allocated⟩
      TorrentData.default with
    allocated := s.allocated + 1 }

/-- The first step of an announce. A new torrent is added under the write lock. -/
def lookUp (s : TorrentMapShards I) (worker : Nat) (request : AnnounceRequest) (ipAddress : I)
    (validUntil : ValidUntil) : Option (TorrentMapShards I) :=
  if (s.inFlight worker).isSome || s.cleaner.writes (shardIndex request.infoHash) then none
  else
    match s.get request.infoHash with
    | some arc => some (s.setInFlight worker (some ⟨request, ipAddress, validUntil, arc⟩))
    | none =>
      if s.cleaner.reads (shardIndex request.infoHash) then none
      else
        some ((s.insertNew request.infoHash).setInFlight worker
          (some ⟨request, ipAddress, validUntil, ⟨s.allocated⟩⟩))

/-- The second step of an announce. -/
def announce (config : Config) (s : TorrentMapShards I) (worker : Nat) (rng : Rng) :
    Option (AnnounceResponse I × TorrentMapShards I) := do
  let flight ← s.inFlight worker
  let torrentData := s.torrentData flight.torrentData
  let (response, _, peerMap, _) ←
    PeerMap.announce config torrentData.peerMap rng flight.request flight.ipAddress
      flight.validUntil
  return (response, ((s.setTorrentData flight.torrentData { torrentData with peerMap }).setInFlight
    worker none).setOwed config flight)

/-- Whether a cleaning round keeps a torrent: not if it is forbidden, and not if it
was empty when it was cleaned and still is. -/
def retains (config : Config) (s : TorrentMapShards I) (infoHash : InfoHash)
    (torrentData : TorrentData I) : Bool :=
  if !s.accessList.allows config.accessListMode infoHash then false
  else !(torrentData.pendingRemoval && torrentData.peerMap.isEmpty)

def retain (config : Config) (s : TorrentMapShards I) (infoHash : InfoHash) (arc : Arc) :
    TorrentMapShards I :=
  let torrentData := s.torrentData arc
  let i := shardIndex infoHash
  let s' :=
    if s.accessList.allows config.accessListMode infoHash then
      s.setTorrentData arc { torrentData with pendingRemoval := false }
    else s
  if s.retains config infoHash torrentData then s'
  else s'.setShard i ((s.shards i).erase infoHash)

def step (config : Config) (s : TorrentMapShards I) : Action I → Option (TorrentMapShards I)
  | .lookUp worker request ipAddress validUntil => s.lookUp worker request ipAddress validUntil
  | .announce worker rng => (s.announce config worker rng).map Prod.snd
  | .startRound now =>
    match s.cleaner with
    | .idle => if now ≤ s.clock then some { s with cleaner := .atShard ⟨now, 0, 0⟩ 0 } else none
    | _ => none
  | .lockRead =>
    match s.cleaner with
    | .atShard round i =>
      if i < numShards then some { s with cleaner := .cleaning round i (s.shards i).values }
      else some { s with cleaner := .idle }
    | _ => none
  | .cleanTorrent arc =>
    match s.cleaner with
    | .cleaning round i remaining =>
      if arc ∈ remaining then
        (PeerMap.clean config (s.torrentData arc).peerMap round.now).map fun (numPeers, _, peerMap) =>
          { s.setTorrentData arc { s.torrentData arc with peerMap } with
            cleaner := .cleaned round i (remaining.erase arc) arc numPeers }
      else none
    | _ => none
  | .storePendingRemoval =>
    match s.cleaner with
    | .cleaned round i remaining arc numPeers =>
      some { s.setTorrentData arc { s.torrentData arc with pendingRemoval := numPeers == 0 } with
        cleaner := .cleaning { round with totalNumPeers := round.totalNumPeers + numPeers } i
          remaining }
    | _ => none
  | .unlockRead =>
    match s.cleaner with
    | .cleaning round i [] => some { s with cleaner := .unlocked round i }
    | _ => none
  | .lockWrite =>
    match s.cleaner with
    | .unlocked round i => some { s with cleaner := .retaining round i (s.shards i).keys }
    | _ => none
  | .retain infoHash =>
    match s.cleaner with
    | .retaining round i remaining =>
      match s.get infoHash with
      | some arc =>
        if infoHash ∈ remaining then
          some { s.retain config infoHash arc with
            cleaner := .retaining round i (remaining.erase infoHash) }
        else none
      | none => none
    | _ => none
  | .unlockWrite =>
    match s.cleaner with
    | .retaining round i [] =>
      some { s with
        cleaner := .atShard { round with
          totalNumTorrents := round.totalNumTorrents + (s.shards i).len } (i + 1) }
    | _ => none
  | .tick clock => if s.clock ≤ clock then some { s with clock } else none
  | .updateAccessList accessList =>
    some { s with
      accessList := accessList
      owed := fun h k =>
        if accessList.allows config.accessListMode h then s.owed h k else none }

end TorrentMapShards

end Aquatic.Udp
