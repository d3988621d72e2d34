import Aquatic.Common.Basic
import Aquatic.Lib.Collections

/-!
# The small and the large peer map

The UDP and the HTTP swarm keep the peers of a torrent in the same two
representations and only differ in the capacity of the small one, in what they
store of a peer and in when they convert. Keys are (address, port) pairs. A
result of `none` stands for an abort: an underflow, a push to a full vector.
-/

namespace Aquatic.Swarm
open Collections
set_option autoImplicit false

/-- What the peer maps read of a peer. -/
class PeerEntry (P : Type) where
  isSeeder : P → Bool
  validUntil : P → ValidUntil

export PeerEntry (isSeeder validUntil)

structure SmallPeerMap (K P : Type) (cap : Nat) where
  peers : ArrayVec (K × P) cap
  completedCount : UInt64
  deriving DecidableEq

structure LargePeerMap (K P : Type) where
  peers : IndexMap K P
  numSeeders : Nat
  completedCount : UInt64

variable {K P : Type} [DecidableEq K] [PeerEntry P] {cap : Nat}

instance [DecidableEq P] : DecidableEq (LargePeerMap K P) := fun m n =>
  decidable_of_iff (m.peers = n.peers ∧ m.numSeeders = n.numSeeders ∧
      m.completedCount = n.completedCount)
    ⟨fun h => by cases m; cases n; simp_all, fun h => by simp [h]⟩

namespace SmallPeerMap

def isFull (m : SmallPeerMap K P cap) : Bool := m.peers.isFull

def numSeedersLeechers (m : SmallPeerMap K P cap) : Option (Nat × Nat) := do
  let seeders := m.peers.toList.countP fun e => isSeeder e.2
  let leechers ← usizeSub m.peers.len seeders
  return (seeders, leechers)

def insert (m : SmallPeerMap K P cap) (key : K) (peer : P) : Option (SmallPeerMap K P cap) := do
  return { m with peers := ← m.peers.push (key, peer) }

def remove (m : SmallPeerMap K P cap) (key : K) : Option P × SmallPeerMap K P cap :=
  match m.peers.toList.findIdx? fun e => e.1 = key with
  | some i => ((m.peers.toList[i]?).map Prod.snd, { m with peers := m.peers.eraseIdx i })
  | none => (none, m)

def extractResponsePeers (m : SmallPeerMap K P cap) (maxNumPeersToTake : Nat) : List K :=
  (m.peers.toList.take maxNumPeersToTake).map Prod.fst

def cleanAndGetNumPeers (m : SmallPeerMap K P cap) (now : SecondsSinceServerStart) :
    Nat × SmallPeerMap K P cap :=
  let peers := m.peers.retain fun e => (validUntil e.2).valid now
  (peers.len, { m with peers })

def toLarge (m : SmallPeerMap K P cap) : Option (LargePeerMap K P) := do
  let (numSeeders, _) ← m.numSeedersLeechers
  return ⟨IndexMap.ofList m.peers.toList, numSeeders, m.completedCount⟩

end SmallPeerMap

namespace LargePeerMap

def numSeedersLeechers (m : LargePeerMap K P) : Option (Nat × Nat) := do
  return (m.numSeeders, ← usizeSub m.peers.len m.numSeeders)

def insert (m : LargePeerMap K P) (key : K) (peer : P) : LargePeerMap K P :=
  { m with
    numSeeders := if isSeeder peer then m.numSeeders + 1 else m.numSeeders
    peers := m.peers.insert key peer }

def removePeer (m : LargePeerMap K P) (key : K) : Option (Option P × LargePeerMap K P) := do
  let removed := m.peers.get key
  let numSeeders ← if removed.any isSeeder then usizeSub m.numSeeders 1 else some m.numSeeders
  return (removed, { m with peers := m.peers.swapRemove key, numSeeders })

/-- All peers, or a slice from each half of the map at a random offset. -/
def extractResponsePeers (m : LargePeerMap K P) (rng : Rng) (maxNumPeersToTake : Nat) :
    Option (List K × Rng) :=
  if m.peers.len ≤ maxNumPeersToTake then
    some (m.peers.keys, rng)
  else do
    let middleIndex := m.peers.len / 2
    let numToTakeHalfOne := (maxNumPeersToTake + 1) / 2
    let numToTakeHalfTwo := maxNumPeersToTake / 2
    let maxOffsetHalfOne ← usizeSub middleIndex numToTakeHalfOne
    let (offsetHalfOne, rng) ← rng.genRangeInclusive 0 maxOffsetHalfOne
    let endHalfOne := offsetHalfOne + numToTakeHalfOne
    let peers := ((m.peers.getRange offsetHalfOne endHalfOne).getD []).map Prod.fst
    if numToTakeHalfTwo > 0 then
      let maxOffsetHalfTwo ← usizeSub (← usizeSub m.peers.len middleIndex) numToTakeHalfTwo
      let (drawn, rng) ← rng.genRangeInclusive 0 maxOffsetHalfTwo
      let offsetHalfTwo := middleIndex + drawn
      let endHalfTwo := offsetHalfTwo + numToTakeHalfTwo
      let slice := ((m.peers.getRange offsetHalfTwo endHalfTwo).getD []).map Prod.fst
      return (peers ++ slice, rng)
    else
      return (peers, rng)

/-- `retain`, with the seeder counter decremented from inside the closure. -/
def cleanAndGetNumPeers (m : LargePeerMap K P) (now : SecondsSinceServerStart) :
    Option (Nat × LargePeerMap K P) := do
  let numSeeders ← m.peers.entries.foldlM (fun n e =>
    if !(validUntil e.2).valid now && isSeeder e.2 then usizeSub n 1 else some n) m.numSeeders
  let peers := m.peers.retain fun _ peer => (validUntil peer).valid now
  return (peers.len, { m with peers, numSeeders })

def tryShrink (m : LargePeerMap K P) (cap : Nat) : Option (SmallPeerMap K P cap) :=
  if h : m.peers.len ≤ cap then some ⟨⟨m.peers.entries, h⟩, m.completedCount⟩ else none

end LargePeerMap

inductive PeerMap (K P : Type) (cap : Nat) where
  | small (m : SmallPeerMap K P cap)
  | large (m : LargePeerMap K P)

/-- What an announce reports, and the peer it found under the announcing key. -/
structure Announced (K P : Type) where
  seeders : Nat
  leechers : Nat
  peers : List K
  removed : Option P

namespace PeerMap

instance [DecidableEq P] : DecidableEq (PeerMap K P cap)
  | small m, small n => decidable_of_iff (m = n) (by simp)
  | large m, large n => decidable_of_iff (m = n) (by simp)
  | small _, large _ => isFalse nofun
  | large _, small _ => isFalse nofun

def default : PeerMap K P cap := small ⟨ArrayVec.empty, 0⟩

def entries : PeerMap K P cap → List (K × P)
  | small m => m.peers.toList
  | large m => m.peers.entries

def completedCount : PeerMap K P cap → UInt64
  | small m => m.completedCount
  | large m => m.completedCount

def countCompleted : PeerMap K P cap → PeerMap K P cap
  | small m => small { m with completedCount := m.completedCount + 1 }
  | large m => large { m with completedCount := m.completedCount + 1 }

def numSeedersLeechers : PeerMap K P cap → Option (Nat × Nat)
  | small m => m.numSeedersLeechers
  | large m => m.numSeedersLeechers

def isEmpty : PeerMap K P cap → Bool
  | small m => m.peers.toList.isEmpty
  | large m => m.peers.isEmpty

/-- A large map becomes small again when its peers fit. -/
def shrink (m : LargePeerMap K P) : PeerMap K P cap :=
  match m.tryShrink cap with
  | some m => small m
  | none => large m

def cleanAndGetNumPeers (m : PeerMap K P cap) (now : SecondsSinceServerStart) :
    Option (Nat × PeerMap K P cap) :=
  match m with
  | small m =>
    let (numPeers, m) := m.cleanAndGetNumPeers now
    some (numPeers, small m)
  | large m => do
    let (numPeers, m) ← m.cleanAndGetNumPeers now
    return (numPeers, large m)

/-- The middle of an announce: take the announcing peer out, collect the
response, and convert the map if the peer is about to outgrow it (or, stopped,
to stay out of one that has become small). -/
def respond (m : PeerMap K P cap) (rng : Rng) (status : PeerStatus) (key : K)
    (maxNumPeersToTake : Nat) : Option (Announced K P × PeerMap K P cap × Rng) :=
  match m with
  | small m => do
    let (removed, m) := m.remove key
    let (seeders, leechers) ← m.numSeedersLeechers
    let peers := m.extractResponsePeers maxNumPeersToTake
    let converted ←
      if m.isFull && status != .stopped then m.toLarge.map large else some (small m)
    return (⟨seeders, leechers, peers, removed⟩, converted, rng)
  | large m => do
    let (removed, m) ← m.removePeer key
    let (seeders, leechers) ← m.numSeedersLeechers
    let (peers, rng) ← m.extractResponsePeers rng maxNumPeersToTake
    let converted := if status = .stopped then shrink m else large m
    return (⟨seeders, leechers, peers, removed⟩, converted, rng)

def insert (m : PeerMap K P cap) (key : K) (peer : P) : Option (PeerMap K P cap) :=
  match m with
  | small m => (m.insert key peer).map small
  | large m => some (large (m.insert key peer))

def announce (m : PeerMap K P cap) (rng : Rng) (status : PeerStatus) (completed : Bool) (key : K)
    (peer : P) (maxNumPeersToTake : Nat) : Option (Announced K P × PeerMap K P cap × Rng) := do
  let m := if completed then m.countCompleted else m
  let (announced, m, rng) ← m.respond rng status key maxNumPeersToTake
  let m ←
    match status with
    | .leeching | .seeding => m.insert key peer
    | .stopped => some m
  return (announced, m, rng)

end PeerMap

end Aquatic.Swarm
