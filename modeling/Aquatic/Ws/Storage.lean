import Aquatic.Common.Basic
import Aquatic.Lib.Collections

/-!
# The torrent maps of a WebSocket swarm worker

A result of `none` is an abort: an underflow, or an empty range for the random
generator. The clock is read once for a message.
-/

namespace Aquatic.Ws
open Collections
set_option autoImplicit false

inductive IpVersion where
  | v4
  | v6
  deriving DecidableEq, Repr

/-- Index of a socket worker. -/
structure ConsumerId where
  index : UInt8
  deriving DecidableEq, Repr

/-- A key of a socket worker's slot map. -/
structure ConnectionId where
  idx : UInt32
  version : UInt32
  deriving DecidableEq, Repr

structure PendingScrapeId where
  index : UInt8
  deriving DecidableEq, Repr

structure InMessageMeta where
  outMessageConsumerId : ConsumerId
  connectionId : ConnectionId
  ipVersion : IpVersion
  pendingScrapeId : Option PendingScrapeId
  deriving DecidableEq, Repr

structure OutMessageMeta where
  outMessageConsumerId : ConsumerId
  connectionId : ConnectionId
  pendingScrapeId : Option PendingScrapeId
  deriving DecidableEq, Repr

def InMessageMeta.out (metadata : InMessageMeta) : OutMessageMeta :=
  ⟨metadata.outMessageConsumerId, metadata.connectionId, metadata.pendingScrapeId⟩

structure OfferId where
  bytes : Vector UInt8 20
  deriving DecidableEq, Repr

structure RtcOffer where
  sdp : String
  deriving DecidableEq, Repr

structure RtcAnswer where
  sdp : String
  deriving DecidableEq, Repr

inductive AnnounceEvent where
  | started
  | stopped
  | completed
  | update
  deriving DecidableEq, Repr

structure AnnounceRequestOffer where
  offer : RtcOffer
  offerId : OfferId
  deriving DecidableEq, Repr

structure AnnounceRequest where
  infoHash : InfoHash
  peerId : PeerId
  bytesLeft : Option Nat
  event : Option AnnounceEvent
  offers : Option (List AnnounceRequestOffer)
  answer : Option RtcAnswer
  answerToPeerId : Option PeerId
  answerOfferId : Option OfferId
  deriving DecidableEq, Repr

structure OfferOutMessage where
  peerId : PeerId
  infoHash : InfoHash
  offer : RtcOffer
  offerId : OfferId
  deriving DecidableEq, Repr

structure AnswerOutMessage where
  peerId : PeerId
  infoHash : InfoHash
  answer : RtcAnswer
  offerId : OfferId
  deriving DecidableEq, Repr

structure AnnounceResponse where
  infoHash : InfoHash
  complete : Nat
  incomplete : Nat
  announceInterval : Nat
  deriving DecidableEq, Repr

inductive ErrorResponseAction where
  | announce
  | scrape
  deriving DecidableEq, Repr

structure ErrorResponse where
  failureReason : String
  action : Option ErrorResponseAction
  infoHash : Option InfoHash
  deriving DecidableEq, Repr

inductive OutMessage where
  | offer (message : OfferOutMessage)
  | answer (message : AnswerOutMessage)
  | announceResponse (response : AnnounceResponse)
  | errorResponse (response : ErrorResponse)
  deriving DecidableEq, Repr

inductive ScrapeRequestInfoHashes where
  | single (infoHash : InfoHash)
  | multiple (infoHashes : List InfoHash)
  deriving DecidableEq, Repr

def ScrapeRequestInfoHashes.asVec : ScrapeRequestInfoHashes → List InfoHash
  | .single infoHash => [infoHash]
  | .multiple infoHashes => infoHashes

structure ScrapeRequest where
  infoHashes : Option ScrapeRequestInfoHashes
  deriving DecidableEq, Repr

structure ScrapeStatistics where
  complete : Nat
  incomplete : Nat
  downloaded : Nat
  deriving DecidableEq, Repr

structure ScrapeResponse where
  files : IndexMap InfoHash ScrapeStatistics
  deriving DecidableEq

structure ProtocolConfig where
  maxOffers : Nat
  peerAnnounceInterval : Nat
  deriving DecidableEq, Repr

structure CleaningConfig where
  maxPeerAge : UInt32
  maxOfferAge : UInt32
  deriving DecidableEq, Repr

structure Config where
  swarmWorkers : Nat
  protocol : ProtocolConfig
  cleaning : CleaningConfig
  accessListMode : AccessListMode
  deriving DecidableEq, Repr

structure ExpectingAnswer where
  fromPeerId : PeerId
  regardingOfferId : OfferId
  deriving DecidableEq, Repr

structure Peer where
  consumerId : ConsumerId
  connectionId : ConnectionId
  seeder : Bool
  validUntil : ValidUntil
  expectingAnswers : IndexMap ExpectingAnswer ValidUntil
  deriving DecidableEq

structure TorrentData where
  peers : IndexMap PeerId Peer
  numSeeders : Nat
  deriving DecidableEq

structure TorrentMap where
  torrents : IndexMap InfoHash TorrentData
  deriving DecidableEq

structure OfferReceiver where
  peerId : PeerId
  connectionId : ConnectionId
  consumerId : ConsumerId
  deriving DecidableEq, Repr

def peerStatus (event : AnnounceEvent) (optBytesLeft : Option Nat) : PeerStatus :=
  if event = .stopped then .stopped
  else if optBytesLeft = some 0 then .seeding
  else .leeching

def AnnounceRequest.status (request : AnnounceRequest) : PeerStatus :=
  peerStatus (request.event.getD .update) request.bytesLeft

/-- The receiver, the offer and the answer, if the request has all three. -/
def AnnounceRequest.fullAnswer (request : AnnounceRequest) :
    Option (PeerId × OfferId × RtcAnswer) := do
  return (← request.answerToPeerId, ← request.answerOfferId, ← request.answer)

/-- Random peers, at most `maxNumPeersToTake` of them, without the sender. -/
def extractResponsePeers {K V R : Type} [DecidableEq K] (rng : Rng) (peerMap : IndexMap K V)
    (maxNumPeersToTake : Nat) (senderPeerMapKey : K) (peerConversionFunction : K → V → R) :
    Option (List R × Rng) :=
  let convert (es : List (K × V)) : List R := es.filterMap fun e =>
    if e.1 ≠ senderPeerMapKey then some (peerConversionFunction e.1 e.2) else none
  if peerMap.len ≤ maxNumPeersToTake + 1 then
    let peers := convert peerMap.entries
    some (if peers.length > maxNumPeersToTake then peers.dropLast else peers, rng)
  else do
    let middleIndex := peerMap.len / 2
    let numToTakePerHalf := maxNumPeersToTake / 2 + 1
    let (offsetHalfOne, rng) ← rng.genRange 0 (max 1 (← usizeSub middleIndex numToTakePerHalf))
    let (offsetHalfTwo, rng) ← rng.genRange middleIndex
      (max (middleIndex + 1) (← usizeSub peerMap.len numToTakePerHalf))
    let endHalfOne := offsetHalfOne + numToTakePerHalf
    let endHalfTwo := offsetHalfTwo + numToTakePerHalf
    let peers := convert ((peerMap.getRange offsetHalfOne endHalfOne).getD []) ++
      convert ((peerMap.getRange offsetHalfTwo endHalfTwo).getD [])
    return (peers.take maxNumPeersToTake, rng)

namespace Peer

def new (metadata : InMessageMeta) (seeder : Bool) (validUntil : ValidUntil) : Peer where
  consumerId := metadata.outMessageConsumerId
  connectionId := metadata.connectionId
  seeder := seeder
  validUntil := validUntil
  expectingAnswers := IndexMap.empty

def expectAnswer (peer : Peer) (expecting : ExpectingAnswer) (validUntil : ValidUntil) : Peer :=
  { peer with expectingAnswers := peer.expectingAnswers.insert expecting validUntil }

def forgetAnswer (peer : Peer) (expecting : ExpectingAnswer) : Peer :=
  { peer with expectingAnswers := peer.expectingAnswers.swapRemove expecting }

def cleanAnswers (peer : Peer) (now : SecondsSinceServerStart) : Peer :=
  { peer with expectingAnswers := peer.expectingAnswers.retain fun _ v => v.valid now }

/-- Expect an answer to each of the offers that have found a receiver. -/
def expectAnswers (peer : Peer) (forwarded : List (AnnounceRequestOffer × OfferReceiver))
    (validUntil : ValidUntil) : Peer :=
  forwarded.foldl (fun peer f => peer.expectAnswer ⟨f.2.peerId, f.1.offerId⟩ validUntil) peer

end Peer

/-- What an announce sends, and which offers went to whom. -/
structure Announced where
  forwarded : List (AnnounceRequestOffer × OfferReceiver)
  outMessages : List (OutMessageMeta × OutMessage)
  deriving DecidableEq, Repr

namespace TorrentData

def empty : TorrentData := ⟨IndexMap.empty, 0⟩

def numLeechers (d : TorrentData) : Option Nat := usizeSub d.peers.len d.numSeeders

/-- The seeder counter when `peer` no longer counts. -/
def withoutSeeder (d : TorrentData) (peer : Peer) : Option Nat :=
  if peer.seeder then usizeSub d.numSeeders 1 else some d.numSeeders

def insertOrUpdatePeer (config : Config) (d : TorrentData) (now : SecondsSinceServerStart)
    (metadata : InMessageMeta) (request : AnnounceRequest) : Option (PeerStatus × TorrentData) := do
  let validUntil := ValidUntil.newWithNow now config.cleaning.maxPeerAge
  let d ←
    match d.peers.get request.peerId, request.status with
    | some peer, .leeching => do
      let numSeeders ← d.withoutSeeder peer
      some ⟨d.peers.insert request.peerId { peer with seeder := false, validUntil }, numSeeders⟩
    | some peer, .seeding =>
      let numSeeders := if !peer.seeder then d.numSeeders + 1 else d.numSeeders
      some ⟨d.peers.insert request.peerId { peer with seeder := true, validUntil }, numSeeders⟩
    | some peer, .stopped => do
      let numSeeders ← d.withoutSeeder peer
      some ⟨d.peers.swapRemove request.peerId, numSeeders⟩
    | none, .leeching =>
      some { d with peers := d.peers.insert request.peerId (Peer.new metadata false validUntil) }
    | none, .seeding =>
      some ⟨d.peers.insert request.peerId (Peer.new metadata true validUntil), d.numSeeders + 1⟩
    | none, .stopped => some d
  return (request.status, d)

def offerOutMessage (infoHash : InfoHash) (senderPeerId : PeerId)
    (forwarded : AnnounceRequestOffer × OfferReceiver) : OutMessageMeta × OutMessage :=
  (⟨forwarded.2.consumerId, forwarded.2.connectionId, none⟩,
    .offer ⟨senderPeerId, infoHash, forwarded.1.offer, forwarded.1.offerId⟩)

/-- Pass on offers to random peers. -/
def handleOffers (config : Config) (d : TorrentData) (rng : Rng) (now : SecondsSinceServerStart)
    (senderPeerId : PeerId) (offers : List AnnounceRequestOffer) :
    Option (List (AnnounceRequestOffer × OfferReceiver) × TorrentData × Rng) := do
  let maxNumPeersToTake := min offers.length config.protocol.maxOffers
  let (offerReceivers, rng) ← extractResponsePeers rng d.peers maxNumPeersToTake senderPeerId
    fun peerId peer => (⟨peerId, peer.connectionId, peer.consumerId⟩ : OfferReceiver)
  match d.peers.get senderPeerId with
  | some peer =>
    let forwarded := offers.zip offerReceivers
    let validUntil := ValidUntil.newWithNow now config.cleaning.maxOfferAge
    return (forwarded,
      { d with peers := d.peers.insert senderPeerId (peer.expectAnswers forwarded validUntil) }, rng)
  | none => return ([], d, rng)

/-- Pass on answer to relevant peer. -/
def handleAnswer (d : TorrentData) (metadata : InMessageMeta) (infoHash : InfoHash)
    (peerId answerReceiverId : PeerId) (offerId : OfferId) (answer : RtcAnswer) :
    Option (OutMessageMeta × OutMessage) × TorrentData :=
  match d.peers.get answerReceiverId with
  | some answerReceiver =>
    let expectingAnswer : ExpectingAnswer := ⟨peerId, offerId⟩
    let d := { d with
      peers := d.peers.insert answerReceiverId (answerReceiver.forgetAnswer expectingAnswer) }
    if answerReceiver.expectingAnswers.contains expectingAnswer then
      (some (⟨answerReceiver.consumerId, answerReceiver.connectionId, none⟩,
        .answer ⟨peerId, infoHash, answer, offerId⟩), d)
    else
      (some (metadata.out, .errorResponse
        { failureReason :=
            "Could not find the offer corresponding to your answer. It may have expired."
          action := some .announce
          infoHash := some infoHash }), d)
  | none => (none, d)

def handleOptOffers (config : Config) (d : TorrentData) (rng : Rng)
    (now : SecondsSinceServerStart) (senderPeerId : PeerId) :
    Option (List AnnounceRequestOffer) →
      Option (List (AnnounceRequestOffer × OfferReceiver) × TorrentData × Rng)
  | some offers => d.handleOffers config rng now senderPeerId offers
  | none => some ([], d, rng)

/-- What a peer that has not stopped wants to be passed on. -/
def handleOffersAndAnswer (config : Config) (d : TorrentData) (rng : Rng)
    (now : SecondsSinceServerStart) (metadata : InMessageMeta) (request : AnnounceRequest) :
    Option (Announced × TorrentData × Rng) := do
  let (forwarded, d, rng) ← d.handleOptOffers config rng now request.peerId request.offers
  let (answerMessage, d) :=
    match request.fullAnswer with
    | some (answerReceiverId, offerId, answer) =>
      d.handleAnswer metadata request.infoHash request.peerId answerReceiverId offerId answer
    | none => (none, d)
  let offerMessages := forwarded.map (offerOutMessage request.infoHash request.peerId)
  return (⟨forwarded, offerMessages ++ answerMessage.toList⟩, d, rng)

/-- An announce, once its torrent has been looked up or created. -/
def handleAnnounceRequest (config : Config) (d : TorrentData) (rng : Rng)
    (now : SecondsSinceServerStart) (metadata : InMessageMeta) (request : AnnounceRequest) :
    Option (Announced × TorrentData × Rng) :=
  if (d.peers.get request.peerId).any fun previousPeer =>
      metadata.connectionId != previousPeer.connectionId then
    some (⟨[], []⟩, d, rng)
  else do
    let (peerStatus, d) ← d.insertOrUpdatePeer config now metadata request
    let (announced, d, rng) ←
      if peerStatus != .stopped then d.handleOffersAndAnswer config rng now metadata request
      else some (⟨[], []⟩, d, rng)
    let response : AnnounceResponse :=
      { infoHash := request.infoHash
        complete := d.numSeeders
        incomplete := ← d.numLeechers
        announceInterval := config.protocol.peerAnnounceInterval }
    return ({ announced with
      outMessages := announced.outMessages ++ [(metadata.out, .announceResponse response)] }, d, rng)

def handleConnectionClosed (d : TorrentData) (peerId : PeerId) : Option TorrentData := do
  match d.peers.get peerId with
  | some peer =>
    let numSeeders ← d.withoutSeeder peer
    return ⟨d.peers.swapRemove peerId, numSeeders⟩
  | none => return d

def cleanAndGetNumPeers (d : TorrentData) (now : SecondsSinceServerStart) :
    Option (Nat × TorrentData) := do
  let numSeeders ← d.peers.entries.foldlM (fun n e =>
    if !e.2.validUntil.valid now && e.2.seeder then usizeSub n 1 else some n) d.numSeeders
  let peers := d.peers.filterMap fun _ peer =>
    if peer.validUntil.valid now then some (peer.cleanAnswers now) else none
  return (peers.len, ⟨peers, numSeeders⟩)

end TorrentData

namespace TorrentMap

def empty : TorrentMap := ⟨IndexMap.empty⟩

def handleAnnounceRequest (config : Config) (m : TorrentMap) (rng : Rng)
    (now : SecondsSinceServerStart) (metadata : InMessageMeta) (request : AnnounceRequest) :
    Option (Announced × TorrentMap × Rng) := do
  let d := (m.torrents.get request.infoHash).getD TorrentData.empty
  let (announced, d, rng) ← d.handleAnnounceRequest config rng now metadata request
  return (announced, ⟨m.torrents.insert request.infoHash d⟩, rng)

def scrapeOne (m : TorrentMap) (files : IndexMap InfoHash ScrapeStatistics)
    (infoHash : InfoHash) : Option (IndexMap InfoHash ScrapeStatistics) :=
  match m.torrents.get infoHash with
  | some d => do
    let stats : ScrapeStatistics :=
      { complete := d.numSeeders
        downloaded := 0
        incomplete := ← d.numLeechers }
    return files.insert infoHash stats
  | none => some files

/-- A request without info hashes is not answered. -/
def handleScrapeRequest (maxScrapeTorrents : Nat) (m : TorrentMap) (metadata : InMessageMeta)
    (request : ScrapeRequest) : Option (List (OutMessageMeta × ScrapeResponse)) :=
  match request.infoHashes with
  | some infoHashes => do
    let infoHashes := infoHashes.asVec
    let numToTake := min infoHashes.length maxScrapeTorrents
    let files ← (infoHashes.take numToTake).foldlM m.scrapeOne IndexMap.empty
    return [(metadata.out, ⟨files⟩)]
  | none => some []

def handleConnectionClosed (m : TorrentMap) (infoHash : InfoHash) (peerId : PeerId) :
    Option TorrentMap := do
  match m.torrents.get infoHash with
  | some d => return ⟨m.torrents.insert infoHash (← d.handleConnectionClosed peerId)⟩
  | none => return m

def cleanOne (config : Config) (accessList : AccessList) (now : SecondsSinceServerStart)
    (infoHash : InfoHash) (d : TorrentData) : Option (Option TorrentData) :=
  if !accessList.allows config.accessListMode infoHash then some none
  else do
    let (numPeers, d) ← d.cleanAndGetNumPeers now
    return if numPeers > 0 then some d else none

def clean (config : Config) (m : TorrentMap) (accessList : AccessList)
    (now : SecondsSinceServerStart) : Option TorrentMap := do
  return ⟨← m.torrents.filterMapM (cleanOne config accessList now)⟩

end TorrentMap

structure TorrentMaps where
  ipv4 : TorrentMap
  ipv6 : TorrentMap
  deriving DecidableEq

namespace TorrentMaps

def empty : TorrentMaps := ⟨TorrentMap.empty, TorrentMap.empty⟩

def torrentMap (m : TorrentMaps) : IpVersion → TorrentMap
  | .v4 => m.ipv4
  | .v6 => m.ipv6

def setTorrentMap (m : TorrentMaps) (ipVersion : IpVersion) (map : TorrentMap) : TorrentMaps :=
  match ipVersion with
  | .v4 => { m with ipv4 := map }
  | .v6 => { m with ipv6 := map }

def handleAnnounceRequest (config : Config) (m : TorrentMaps) (rng : Rng)
    (now : SecondsSinceServerStart) (metadata : InMessageMeta) (request : AnnounceRequest) :
    Option (Announced × TorrentMaps × Rng) := do
  let (announced, map, rng) ←
    (m.torrentMap metadata.ipVersion).handleAnnounceRequest config rng now metadata request
  return (announced, m.setTorrentMap metadata.ipVersion map, rng)

def handleScrapeRequest (maxScrapeTorrents : Nat) (m : TorrentMaps) (metadata : InMessageMeta)
    (request : ScrapeRequest) : Option (List (OutMessageMeta × ScrapeResponse)) :=
  (m.torrentMap metadata.ipVersion).handleScrapeRequest maxScrapeTorrents metadata request

def handleConnectionClosed (m : TorrentMaps) (infoHash : InfoHash) (peerId : PeerId)
    (ipVersion : IpVersion) : Option TorrentMaps := do
  let map ← (m.torrentMap ipVersion).handleConnectionClosed infoHash peerId
  return m.setTorrentMap ipVersion map

def clean (config : Config) (m : TorrentMaps) (accessList : AccessList)
    (now : SecondsSinceServerStart) : Option TorrentMaps := do
  return ⟨← m.ipv4.clean config accessList now, ← m.ipv6.clean config accessList now⟩

end TorrentMaps

end Aquatic.Ws
