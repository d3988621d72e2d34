import Aquatic.Ws.Storage

/-!
# What the operations of a WebSocket swarm worker do

One lemma for each operation: it does not abort while the seeder counter is
right, it keeps the counter right, and it leaves these peers.
-/

namespace Aquatic.Ws
open Collections
set_option autoImplicit false

/-- Two slices of one length: their entries without the sender's are one fewer at most. -/
theorem slices_without {K V : Type} [DecidableEq K] (sender : K) (peerMap : IndexMap K V)
    {a b n : Nat} (hab : a + n ≤ b) (hb : b + n ≤ peerMap.len) :
    (without sender ((peerMap.entries.drop a).take n ++ (peerMap.entries.drop b).take n)).Sublist
        (without sender peerMap.entries) ∧
      n + n ≤ (without sender
        ((peerMap.entries.drop a).take n ++ (peerMap.entries.drop b).take n)).length + 1 := by
  have hslices := slices_sublist peerMap.entries (Nat.le_add_right a n) hab n
  rw [Nat.add_sub_cancel_left] at hslices
  refine ⟨hslices.filter _, ?_⟩
  have hkept := length_le_without sender (peerMap.nodup.sublist (hslices.map Prod.fst))
  have hlength : peerMap.entries.length = peerMap.len := rfl
  have hcount : ((peerMap.entries.drop a).take n ++ (peerMap.entries.drop b).take n).length =
      n + n := by
    simp only [List.length_append, List.length_take, List.length_drop, hlength]
    omega
  rwa [hcount] at hkept

/-- The entries that the response is made from: as many as wanted of the map's, or all of them,
without the sender's. -/
theorem extractResponsePeers_spec {K V R : Type} [DecidableEq K] (rng : Rng)
    (peerMap : IndexMap K V) (maxNumPeersToTake : Nat) (sender : K) (f : K → V → R) :
    ∃ (es : List (K × V)) (rng' : Rng), extractResponsePeers rng peerMap maxNumPeersToTake sender f =
        some (es.map fun e => f e.1 e.2, rng') ∧
      es.Sublist (without sender peerMap.entries) ∧
      es.length = min maxNumPeersToTake (without sender peerMap.entries).length := by
  have hconvert : ∀ es : List (K × V),
      (es.filterMap fun e => if e.1 ≠ sender then some (f e.1 e.2) else none) =
        (without sender es).map fun e => f e.1 e.2 := by
    intro es
    induction es with
    | nil => rfl
    | cons e es ih =>
      by_cases he : e.1 = sender
      · simpa [without, he] using ih
      · simpa [without, he] using ih
  unfold extractResponsePeers
  by_cases hlen : peerMap.len ≤ maxNumPeersToTake + 1
  · have hfilter : (without sender peerMap.entries).length ≤ maxNumPeersToTake + 1 :=
      (List.length_filter_le _ _).trans hlen
    simp only [hlen, if_true, hconvert, List.length_map]
    by_cases hmore : (without sender peerMap.entries).length > maxNumPeersToTake
    · refine ⟨(without sender peerMap.entries).dropLast, rng, ?_, List.dropLast_sublist _, ?_⟩
      · rw [if_pos hmore, List.map_dropLast]
      · rw [List.length_dropLast]
        omega
    · refine ⟨without sender peerMap.entries, rng, ?_, List.Sublist.refl _, by omega⟩
      rw [if_neg hmore]
  · have hmiddle : maxNumPeersToTake / 2 + 1 ≤ peerMap.len / 2 := by omega
    have htwo : maxNumPeersToTake / 2 + 1 ≤ peerMap.len := by omega
    obtain ⟨a, ha, -, hamax⟩ := rng.genRange_spec
      (show 0 < max 1 (peerMap.len / 2 - (maxNumPeersToTake / 2 + 1)) by omega)
    obtain ⟨b, hb, hbmin, hbmax⟩ := rng.next.genRange_spec
      (show peerMap.len / 2 < max (peerMap.len / 2 + 1)
        (peerMap.len - (maxNumPeersToTake / 2 + 1)) by omega)
    have hlenentries : peerMap.entries.length = peerMap.len := rfl
    have hrange₁ := IndexMap.getRange_of_le (m := peerMap)
      (Nat.le_add_right a (maxNumPeersToTake / 2 + 1)) (by omega)
    have hrange₂ := IndexMap.getRange_of_le (m := peerMap)
      (Nat.le_add_right b (maxNumPeersToTake / 2 + 1)) (by omega)
    obtain ⟨hsub, hkept⟩ := slices_without sender peerMap
      (show a + (maxNumPeersToTake / 2 + 1) ≤ b by omega) (by omega)
    have hall := hsub.length_le
    have happend : ∀ xs ys : List (K × V),
        without sender xs ++ without sender ys = without sender (xs ++ ys) :=
      fun xs ys => (List.filter_append xs ys).symm
    rw [Nat.add_sub_cancel_left] at hrange₁ hrange₂
    simp only [hlen, if_false, usizeSub_of_le hmiddle, usizeSub_of_le htwo, Option.bind_eq_bind,
      Option.bind_some, ha, hb, hrange₁, hrange₂, Option.getD_some, hconvert, ← List.map_append,
      ← List.map_take, happend]
    refine ⟨_, _, rfl, (List.take_sublist _ _).trans hsub, ?_⟩
    rw [List.length_take]
    omega

/-- The connection that created the entry. -/
structure Connection where
  consumerId : ConsumerId
  connectionId : ConnectionId
  deriving DecidableEq, Repr

def InMessageMeta.connection (metadata : InMessageMeta) : Connection :=
  ⟨metadata.outMessageConsumerId, metadata.connectionId⟩

def OutMessageMeta.connection (metadata : OutMessageMeta) : Connection :=
  ⟨metadata.outMessageConsumerId, metadata.connectionId⟩

def OfferReceiver.connection (receiver : OfferReceiver) : Connection :=
  ⟨receiver.consumerId, receiver.connectionId⟩

namespace Peer

def connection (peer : Peer) : Connection := ⟨peer.consumerId, peer.connectionId⟩

/-- Everything but the expected answers is the same. -/
structure SameEntry (p q : Peer) : Prop where
  connection : q.connection = p.connection
  seeder : q.seeder = p.seeder
  validUntil : q.validUntil = p.validUntil

theorem SameEntry.refl (p : Peer) : SameEntry p p := ⟨rfl, rfl, rfl⟩

theorem SameEntry.trans {p q r : Peer} (hpq : SameEntry p q) (hqr : SameEntry q r) :
    SameEntry p r :=
  ⟨hqr.connection.trans hpq.connection, hqr.seeder.trans hpq.seeder,
    hqr.validUntil.trans hpq.validUntil⟩

def expects (peer : Peer) (expecting : ExpectingAnswer) : Bool :=
  peer.expectingAnswers.contains expecting

theorem sameEntry_expectAnswers (forwarded : List (AnnounceRequestOffer × OfferReceiver))
    (validUntil : ValidUntil) (peer : Peer) :
    SameEntry peer (peer.expectAnswers forwarded validUntil) := by
  induction forwarded generalizing peer with
  | nil => exact SameEntry.refl peer
  | cons f forwarded ih =>
    have hone : SameEntry peer (peer.expectAnswer ⟨f.2.peerId, f.1.offerId⟩ validUntil) :=
      ⟨rfl, rfl, rfl⟩
    exact hone.trans (ih _)

theorem expects_expectAnswers (forwarded : List (AnnounceRequestOffer × OfferReceiver))
    (validUntil : ValidUntil) (peer : Peer) (x : ExpectingAnswer) :
    (peer.expectAnswers forwarded validUntil).expects x ↔
      peer.expects x ∨ ∃ f ∈ forwarded, x = ⟨f.2.peerId, f.1.offerId⟩ := by
  induction forwarded generalizing peer with
  | nil => simp [expectAnswers]
  | cons f forwarded ih =>
    have hone : (peer.expectAnswer ⟨f.2.peerId, f.1.offerId⟩ validUntil).expects x ↔
        peer.expects x ∨ x = ⟨f.2.peerId, f.1.offerId⟩ := by
      simp only [expects, expectAnswer, IndexMap.contains, IndexMap.get_insert]
      by_cases hx : x = ⟨f.2.peerId, f.1.offerId⟩
      · simp [hx]
      · simp [hx]
    have hrest := ih (peer.expectAnswer ⟨f.2.peerId, f.1.offerId⟩ validUntil)
    simp only [expectAnswers, List.foldl_cons] at hrest ⊢
    rw [hrest, hone]
    simp only [List.mem_cons, exists_eq_or_imp]
    tauto

theorem expects_forgetAnswer (peer : Peer) (x y : ExpectingAnswer) :
    (peer.forgetAnswer x).expects y ↔ peer.expects y ∧ y ≠ x := by
  simp only [expects, forgetAnswer, IndexMap.contains, IndexMap.get_swapRemove]
  by_cases hy : y = x
  · simp [hy]
  · simp [hy]

theorem expects_cleanAnswers {peer : Peer} {now : SecondsSinceServerStart} {x : ExpectingAnswer}
    (h : (peer.cleanAnswers now).expects x) : peer.expects x := by
  simp only [expects, cleanAnswers, IndexMap.contains, IndexMap.get_retain] at h ⊢
  cases hx : peer.expectingAnswers.get x with
  | none => simp [hx] at h
  | some v => rfl

end Peer

namespace TorrentData

def Counted (d : TorrentData) : Prop := d.numSeeders = d.peers.count Peer.seeder

theorem numLeechers_eq {d : TorrentData} (h : d.Counted) :
    d.numLeechers = some (d.peers.len - d.peers.count Peer.seeder) := by
  have hle := d.peers.count_le_len Peer.seeder
  unfold Counted at h
  rw [numLeechers, h, usizeSub_of_le hle]

theorem withoutSeeder_eq {d : TorrentData} (h : d.Counted) {k : PeerId} {old : Peer}
    (hold : d.peers.get k = some old) :
    d.withoutSeeder old = some (d.numSeeders - if old.seeder then 1 else 0) := by
  have hcount := d.peers.count_swapRemove_add Peer.seeder k
  unfold Counted at h
  unfold withoutSeeder
  cases hs : old.seeder with
  | false => simp
  | true =>
    simp only [hold, Option.any_some, hs, if_true] at hcount ⊢
    exact usizeSub_of_le (by omega)

theorem counted_insert {d : TorrentData} (h : d.Counted) (k : PeerId) (peer : Peer) :
    d.numSeeders - (if (d.peers.get k).any Peer.seeder then 1 else 0) +
        (if peer.seeder then 1 else 0) =
      (d.peers.insert k peer).count Peer.seeder := by
  have hadd := d.peers.count_insert_add Peer.seeder k peer
  have hsub := d.peers.count_swapRemove_add Peer.seeder k
  unfold Counted at h
  omega

theorem counted_swapRemove {d : TorrentData} (h : d.Counted) (k : PeerId) :
    d.numSeeders - (if (d.peers.get k).any Peer.seeder then 1 else 0) =
      (d.peers.swapRemove k).count Peer.seeder := by
  have hsub := d.peers.count_swapRemove_add Peer.seeder k
  unfold Counted at h
  omega

/-- The sender's entry when its announce has been entered. -/
def updatedPeer (config : Config) (now : SecondsSinceServerStart) (metadata : InMessageMeta)
    (request : AnnounceRequest) (old : Option Peer) : Option Peer :=
  if request.status = .stopped then none
  else
    let validUntil := ValidUntil.newWithNow now config.cleaning.maxPeerAge
    some { old.getD (Peer.new metadata false validUntil) with
      seeder := request.status == .seeding
      validUntil := validUntil }

theorem insertOrUpdatePeer_spec {d : TorrentData} (h : d.Counted) (config : Config)
    (now : SecondsSinceServerStart) (metadata : InMessageMeta) (request : AnnounceRequest) :
    ∃ d', d.insertOrUpdatePeer config now metadata request = some (request.status, d') ∧
      d'.Counted ∧
      ∀ k, d'.peers.get k = if k = request.peerId then
        updatedPeer config now metadata request (d.peers.get k) else d.peers.get k := by
  have hinsert := counted_insert h request.peerId
  have hentered : ∀ peer,
      updatedPeer config now metadata request (d.peers.get request.peerId) = some peer →
      ∀ k, (d.peers.insert request.peerId peer).get k = if k = request.peerId then
        updatedPeer config now metadata request (d.peers.get k) else d.peers.get k := by
    intro peer hpeer k
    rw [IndexMap.get_insert]
    by_cases hk : k = request.peerId
    · rw [if_pos hk, if_pos hk, hk, hpeer]
    · rw [if_neg hk, if_neg hk]
  have hstopped : request.status = .stopped → ∀ k,
      (if k = request.peerId then none else d.peers.get k) = if k = request.peerId then
        updatedPeer config now metadata request (d.peers.get k) else d.peers.get k := by
    intro hstatus k
    simp [updatedPeer, hstatus]
  unfold insertOrUpdatePeer
  cases hold : d.peers.get request.peerId with
  | some old =>
    have hsub := withoutSeeder_eq h hold
    have hremove := counted_swapRemove h request.peerId
    rw [hold] at hinsert hremove hentered
    cases hstatus : request.status with
    | leeching =>
      refine ⟨_, by simp only [hsub]; rfl, ?_, hentered _ (by simp only [updatedPeer, hstatus]; rfl)⟩
      simpa [Counted] using hinsert { old with
        seeder := false
        validUntil := ValidUntil.newWithNow now config.cleaning.maxPeerAge }
    | seeding =>
      refine ⟨_, rfl, ?_, hentered _ (by simp only [updatedPeer, hstatus]; rfl)⟩
      have hone := hinsert { old with
        seeder := true
        validUntil := ValidUntil.newWithNow now config.cleaning.maxPeerAge }
      have hpos := d.peers.count_swapRemove_add Peer.seeder request.peerId
      simp only [hold, Option.any_some, if_true] at hone hpos
      unfold Counted at h ⊢
      rw [← hone]
      by_cases hs : old.seeder = true
      · simp only [hs, if_true, Bool.not_true, Bool.false_eq_true, if_false] at hpos ⊢
        omega
      · simp [hs]
    | stopped =>
      refine ⟨_, by simp only [hsub]; rfl, ?_, ?_⟩
      · exact hremove
      intro k
      rw [← hstopped hstatus k, IndexMap.get_swapRemove]
  | none =>
    rw [hold] at hinsert hentered
    cases hstatus : request.status with
    | leeching =>
      refine ⟨_, rfl, ?_, hentered _ (by simp only [updatedPeer, hstatus]; rfl)⟩
      simpa [Counted, Peer.new] using
        hinsert (Peer.new metadata false (ValidUntil.newWithNow now config.cleaning.maxPeerAge))
    | seeding =>
      refine ⟨_, rfl, ?_, hentered _ (by simp only [updatedPeer, hstatus]; rfl)⟩
      simpa [Counted, Peer.new] using
        hinsert (Peer.new metadata true (ValidUntil.newWithNow now config.cleaning.maxPeerAge))
    | stopped =>
      refine ⟨d, rfl, h, ?_⟩
      intro k
      rw [← hstopped hstatus k]
      split
      · rename_i hk
        rw [hk, hold]
      · rfl

/-- Replacing an entry by one that counts the same. -/
theorem counted_replace {d : TorrentData} (h : d.Counted) {k : PeerId} {old new : Peer}
    (hold : d.peers.get k = some old) (hseeder : new.seeder = old.seeder) :
    Counted { d with peers := d.peers.insert k new } := by
  have hadd := d.peers.count_insert_add Peer.seeder k new
  rw [hold, Option.any_some, hseeder] at hadd
  unfold Counted at h ⊢
  simp only [h]
  omega

/-- Which offers of a request went to which peers. -/
structure OffersForwarded (config : Config) (peers : PeerId → Option Peer) (sender : PeerId)
    (offers : List AnnounceRequestOffer) (forwarded : List (AnnounceRequestOffer × OfferReceiver)) :
    Prop where
  inOrder : forwarded.map Prod.fst <+: offers
  bounded : forwarded.length ≤ min offers.length config.protocol.maxOffers
  distinct : (forwarded.map fun f => f.2.peerId).Nodup
  notSender : ∀ f ∈ forwarded, f.2.peerId ≠ sender
  registered : ∀ f ∈ forwarded,
    ∃ peer, peers f.2.peerId = some peer ∧ peer.connection = f.2.connection

theorem offersForwarded_nil (config : Config) (peers : PeerId → Option Peer) (sender : PeerId)
    (offers : List AnnounceRequestOffer) : OffersForwarded config peers sender offers [] :=
  ⟨List.nil_prefix, Nat.zero_le _, List.nodup_nil, nofun, nofun⟩

theorem handleOffers_spec {d : TorrentData} (h : d.Counted) (config : Config) (rng : Rng)
    (now : SecondsSinceServerStart) {sender : PeerId} {peer : Peer}
    (hpeer : d.peers.get sender = some peer) (offers : List AnnounceRequestOffer) :
    ∃ forwarded d' rng', d.handleOffers config rng now sender offers =
        some (forwarded, d', rng') ∧
      d'.Counted ∧
      (∀ k, d'.peers.get k = if k = sender then
        some (peer.expectAnswers forwarded (ValidUntil.newWithNow now config.cleaning.maxOfferAge))
        else d.peers.get k) ∧
      OffersForwarded config d.peers.get sender offers forwarded := by
  obtain ⟨es, rng', hes, hpicked, hlen⟩ := extractResponsePeers_spec rng d.peers
    (min offers.length config.protocol.maxOffers) sender
    fun peerId peer => (⟨peerId, peer.connectionId, peer.consumerId⟩ : OfferReceiver)
  generalize hreceivers : (es.map fun e =>
    (⟨e.1, e.2.connectionId, e.2.consumerId⟩ : OfferReceiver)) = receivers at hes
  have hreceiver : ∀ f ∈ offers.zip receivers, ∃ e ∈ es,
      (⟨e.1, e.2.connectionId, e.2.consumerId⟩ : OfferReceiver) = f.2 := by
    intro f hf
    have hmem := (List.of_mem_zip hf).2
    rw [← hreceivers] at hmem
    exact List.mem_map.mp hmem
  have hlenreceivers : receivers.length = es.length := by
    rw [← hreceivers, List.length_map]
  have hkeys : receivers.map OfferReceiver.peerId = es.map Prod.fst := by
    rw [← hreceivers, List.map_map]
    rfl
  refine ⟨offers.zip receivers, _, rng', by simp only [handleOffers, hes, hpeer]; rfl, ?_, ?_, ?_⟩
  · exact counted_replace h hpeer (Peer.sameEntry_expectAnswers _ _ peer).seeder
  · intro k
    rw [IndexMap.get_insert]
  · refine ⟨?_, ?_, ?_, ?_, ?_⟩
    · have hle : receivers.length ≤ offers.length := by omega
      have htake : (offers.zip receivers).map Prod.fst = offers.take receivers.length := by
        have hzip : ((offers.take receivers.length).zip receivers).map Prod.fst =
            offers.take receivers.length :=
          List.map_fst_zip (by rw [List.length_take]; omega)
        rw [← hzip, List.zip_eq_zip_take_min, Nat.min_eq_right hle, List.take_length]
      rw [htake]
      exact List.take_prefix _ _
    · rw [List.length_zip]
      omega
    · have hsnd : ((offers.zip receivers).map fun f => f.2.peerId).Sublist (es.map Prod.fst) := by
        have hzip : (offers.zip receivers).map Prod.snd = receivers :=
          List.map_snd_zip (by omega)
        have hmap : (offers.zip receivers).map (fun f => f.2.peerId) =
            ((offers.zip receivers).map Prod.snd).map OfferReceiver.peerId := by
          rw [List.map_map]
          rfl
        rw [hmap, hzip, hkeys]
      exact (without_keys_nodup sender d.peers.nodup).sublist (hsnd.trans (hpicked.map Prod.fst))
    · intro f hf
      obtain ⟨e, he, hfe⟩ := hreceiver f hf
      rw [← hfe]
      rintro rfl
      exact not_mem_without_keys e.1 d.peers.entries
        ((hpicked.map Prod.fst).subset (List.mem_map_of_mem he))
    · intro f hf
      obtain ⟨e, he, hfe⟩ := hreceiver f hf
      refine ⟨e.2, ?_, ?_⟩
      · rw [← hfe]
        exact (IndexMap.get_eq_some_iff d.peers e.1 e.2).mpr
          (List.mem_of_mem_filter (hpicked.subset he))
      · rw [← hfe]
        rfl

theorem handleAnswer_spec {d : TorrentData} (h : d.Counted) (metadata : InMessageMeta)
    (infoHash : InfoHash) (peerId receiver : PeerId) (offerId : OfferId) (answer : RtcAnswer) :
    ∃ o d', d.handleAnswer metadata infoHash peerId receiver offerId answer = (o, d') ∧
      d'.Counted ∧
      (∀ k, d'.peers.get k = if k = receiver then
        (d.peers.get k).map fun p => p.forgetAnswer ⟨peerId, offerId⟩ else d.peers.get k) ∧
      (∀ m a, o = some (m, .answer a) → ∃ p, d.peers.get receiver = some p ∧
        p.expects ⟨peerId, offerId⟩ ∧ m.connection = p.connection ∧
        a = ⟨peerId, infoHash, answer, offerId⟩) ∧
      ∀ m a, o ≠ some (m, .offer a) := by
  unfold handleAnswer
  cases hp : d.peers.get receiver with
  | none =>
    refine ⟨none, d, rfl, h, ?_, nofun, nofun⟩
    intro k
    split
    · rename_i hk
      rw [hk, hp]
      rfl
    · rfl
  | some p =>
    have hcounted : Counted { d with
        peers := d.peers.insert receiver (p.forgetAnswer ⟨peerId, offerId⟩) } :=
      counted_replace h hp rfl
    have hget : ∀ k, (d.peers.insert receiver (p.forgetAnswer ⟨peerId, offerId⟩)).get k =
        if k = receiver then (d.peers.get k).map fun p => p.forgetAnswer ⟨peerId, offerId⟩
        else d.peers.get k := by
      intro k
      rw [IndexMap.get_insert]
      split
      · rename_i hk
        rw [hk, hp]
        rfl
      · rfl
    cases hexpects : p.expectingAnswers.contains ⟨peerId, offerId⟩ with
    | true =>
      refine ⟨_, _, by simp only [hexpects]; rfl, hcounted, hget, ?_, by simp⟩
      intro m a hm
      simp only [Option.some.injEq, Prod.mk.injEq, OutMessage.answer.injEq] at hm
      exact ⟨p, rfl, hexpects, hm.1 ▸ rfl, hm.2.symm⟩
    | false =>
      exact ⟨_, _, by simp only [hexpects]; rfl, hcounted, hget, by simp, by simp⟩

/-- The entries when the sender and the offers have been entered. -/
def entered (config : Config) (now : SecondsSinceServerStart) (metadata : InMessageMeta)
    (request : AnnounceRequest) (forwarded : List (AnnounceRequestOffer × OfferReceiver))
    (peers : PeerId → Option Peer) (k : PeerId) : Option Peer :=
  if k = request.peerId then
    (updatedPeer config now metadata request (peers k)).map fun p =>
      p.expectAnswers forwarded (ValidUntil.newWithNow now config.cleaning.maxOfferAge)
  else peers k

/-- The entries after an announce: an answer is no longer expected. -/
def announcedPeers (config : Config) (now : SecondsSinceServerStart) (metadata : InMessageMeta)
    (request : AnnounceRequest) (forwarded : List (AnnounceRequestOffer × OfferReceiver))
    (peers : PeerId → Option Peer) (k : PeerId) : Option Peer :=
  let p := entered config now metadata request forwarded peers k
  match request.fullAnswer with
  | some (receiver, offerId, _) =>
    if request.status ≠ .stopped ∧ k = receiver then
      p.map fun p => p.forgetAnswer ⟨request.peerId, offerId⟩
    else p
  | none => p

section AnnouncedPeers
variable {config : Config} {now : SecondsSinceServerStart} {metadata : InMessageMeta}
variable {request : AnnounceRequest} {peers : PeerId → Option Peer}
variable {forwarded : List (AnnounceRequestOffer × OfferReceiver)}

theorem announcedPeers_of_entered {k : PeerId} {p : Peer}
    (h : entered config now metadata request forwarded peers k = some p) :
    ∃ p', announcedPeers config now metadata request forwarded peers k = some p' ∧
      Peer.SameEntry p p' ∧ ∀ x, p'.expects x ↔ p.expects x ∧
        ¬ ∃ offerId answer, request.status ≠ .stopped ∧
          request.fullAnswer = some (k, offerId, answer) ∧ x = ⟨request.peerId, offerId⟩ := by
  unfold announcedPeers
  cases hanswer : request.fullAnswer with
  | none => exact ⟨p, h, Peer.SameEntry.refl p, by simp⟩
  | some triple =>
    obtain ⟨receiver, offerId, answer⟩ := triple
    by_cases hk : request.status ≠ .stopped ∧ k = receiver
    · refine ⟨p.forgetAnswer ⟨request.peerId, offerId⟩, ?_, ⟨rfl, rfl, rfl⟩, ?_⟩
      · simp only [if_pos hk, h, Option.map_some]
      intro x
      rw [Peer.expects_forgetAnswer]
      simp [hk.1, hk.2]
    · refine ⟨p, by simp only [if_neg hk, h], Peer.SameEntry.refl p, ?_⟩
      intro x
      constructor
      · intro hx
        refine ⟨hx, ?_⟩
        rintro ⟨offerId', answer', hs, heq, -⟩
        simp only [Option.some.injEq, Prod.mk.injEq] at heq
        exact hk ⟨hs, heq.1.symm⟩
      · exact fun hx => hx.1

theorem entered_of_announcedPeers {k : PeerId} {p' : Peer}
    (h : announcedPeers config now metadata request forwarded peers k = some p') :
    ∃ p, entered config now metadata request forwarded peers k = some p := by
  cases hp : entered config now metadata request forwarded peers k with
  | some p => exact ⟨p, rfl⟩
  | none =>
    unfold announcedPeers at h
    rw [hp] at h
    split at h
    · split at h <;> cases h
    · cases h

/-- Entries of others stay what they are. -/
theorem announcedPeers_other {k : PeerId} (hk : k ≠ request.peerId) {p : Peer}
    (h : peers k = some p) :
    ∃ p', announcedPeers config now metadata request forwarded peers k = some p' ∧
      Peer.SameEntry p p' := by
  have hentered : entered config now metadata request forwarded peers k = some p := by
    rw [entered, if_neg hk, h]
  obtain ⟨p', hp', hsame, -⟩ := announcedPeers_of_entered hentered
  exact ⟨p', hp', hsame⟩

theorem announcedPeers_stopped (h : request.status = .stopped) :
    announcedPeers config now metadata request forwarded peers request.peerId = none := by
  cases hp : announcedPeers config now metadata request forwarded peers request.peerId with
  | none => rfl
  | some p' =>
    obtain ⟨p, hentered⟩ := entered_of_announcedPeers hp
    simp [entered, updatedPeer, h] at hentered

/-- The sender's own entry, new or updated, keeps its creator. -/
theorem announcedPeers_sender (h : request.status ≠ .stopped) :
    ∃ p', announcedPeers config now metadata request forwarded peers request.peerId = some p' ∧
      p'.connection = ((peers request.peerId).map Peer.connection).getD metadata.connection ∧
      ∀ f ∈ forwarded, f.2.peerId ≠ request.peerId →
        p'.expects ⟨f.2.peerId, f.1.offerId⟩ := by
  obtain ⟨p, hp⟩ : ∃ p, updatedPeer config now metadata request (peers request.peerId) = some p := by
    simp [updatedPeer, h]
  have hconnection : p.connection =
      ((peers request.peerId).map Peer.connection).getD metadata.connection := by
    simp only [updatedPeer, h, if_false, Option.some.injEq] at hp
    subst hp
    cases peers request.peerId <;> rfl
  have hentered : entered config now metadata request forwarded peers request.peerId =
      some (p.expectAnswers forwarded (ValidUntil.newWithNow now config.cleaning.maxOfferAge)) := by
    rw [entered, if_pos rfl, hp]
    rfl
  obtain ⟨p', hp', hsame, hexpects⟩ := announcedPeers_of_entered hentered
  refine ⟨p', hp', ?_, ?_⟩
  · rw [hsame.connection, (Peer.sameEntry_expectAnswers _ _ p).connection, hconnection]
  · intro f hf hne
    refine (hexpects _).mpr ⟨(Peer.expects_expectAnswers _ _ _ _).mpr (.inr ⟨f, hf, rfl⟩), ?_⟩
    rintro ⟨offerId, answer, -, -, heq⟩
    exact hne (congrArg ExpectingAnswer.fromPeerId heq)

/-- Which answers an entry expects: those of the entry before, and the sender's
those to its offers. -/
theorem origin_of_entered {k : PeerId} {p : Peer}
    (h : entered config now metadata request forwarded peers k = some p) {x : ExpectingAnswer}
    (hx : p.expects x) :
    (∃ q, peers k = some q ∧ p.connection = q.connection ∧ q.expects x) ∨
      (k = request.peerId ∧ ∃ f ∈ forwarded, x = ⟨f.2.peerId, f.1.offerId⟩) := by
  unfold entered at h
  split at h
  · rename_i hk
    obtain ⟨q, hq, hp⟩ := Option.map_eq_some_iff.mp h
    subst hp
    rcases (Peer.expects_expectAnswers _ _ _ _).mp hx with hold | hnew
    · unfold updatedPeer at hq
      split at hq
      · cases hq
      · cases hpeer : peers k with
        | none =>
          rw [hpeer] at hq
          cases hq
          cases hold
        | some old =>
          rw [hpeer] at hq
          cases hq
          refine .inl ⟨old, rfl, ?_, hold⟩
          rw [(Peer.sameEntry_expectAnswers _ _ _).connection]
          rfl
    · exact .inr ⟨hk, hnew⟩
  · exact .inl ⟨p, h, rfl, hx⟩

/-- Where an entry comes from: it was there, or the sender has just created it. -/
theorem origin_of_announcedPeers {k : PeerId} {p' : Peer}
    (h : announcedPeers config now metadata request forwarded peers k = some p') :
    (∃ p, peers k = some p ∧ p'.connection = p.connection) ∨
      (k = request.peerId ∧ request.status ≠ .stopped ∧ peers k = none ∧
        p'.connection = metadata.connection) := by
  by_cases hk : k = request.peerId
  · subst hk
    by_cases hs : request.status = .stopped
    · rw [announcedPeers_stopped hs] at h
      cases h
    · obtain ⟨q, hq, hconnection, -⟩ :=
        @announcedPeers_sender config now metadata request peers forwarded hs
      rw [h] at hq
      cases hq
      cases hp : peers request.peerId with
      | none => exact .inr ⟨rfl, hs, rfl, by rw [hconnection, hp]; rfl⟩
      | some p => exact .inl ⟨p, rfl, by rw [hconnection, hp]; rfl⟩
  · obtain ⟨p, hp⟩ := entered_of_announcedPeers h
    rw [entered, if_neg hk] at hp
    obtain ⟨q, hq, hsame⟩ :=
      @announcedPeers_other config now metadata request peers forwarded k hk p hp
    rw [h] at hq
    cases hq
    exact .inl ⟨p, hp, hsame.connection⟩

end AnnouncedPeers

/-- An announce that was not ignored: what it leaves and what it sends. -/
structure Accepted (config : Config) (now : SecondsSinceServerStart) (metadata : InMessageMeta)
    (request : AnnounceRequest) (peers peers' : PeerId → Option Peer) (a : Announced) : Prop where
  peers' : ∀ k, peers' k = announcedPeers config now metadata request a.forwarded peers k
  forwarded : OffersForwarded config peers request.peerId (request.offers.getD []) a.forwarded
  stopped : request.status = .stopped → a.forwarded = []
  messages : ∃ answerMessage response,
    a.outMessages = a.forwarded.map (offerOutMessage request.infoHash request.peerId) ++
      answerMessage.toList ++ [(metadata.out, .announceResponse response)] ∧
    (∀ m b, answerMessage ≠ some (m, .offer b)) ∧
    ∀ m b, answerMessage = some (m, .answer b) → ∃ receiver offerId answer p,
      request.status ≠ .stopped ∧ request.fullAnswer = some (receiver, offerId, answer) ∧
      entered config now metadata request a.forwarded peers receiver = some p ∧
      p.expects ⟨request.peerId, offerId⟩ ∧ m.connection = p.connection ∧
      b = ⟨request.peerId, request.infoHash, answer, offerId⟩

theorem handleOffersAndAnswer_spec {d : TorrentData} (h : d.Counted) (config : Config) (rng : Rng)
    (now : SecondsSinceServerStart) (metadata : InMessageMeta) (request : AnnounceRequest)
    {peer : Peer} (hpeer : d.peers.get request.peerId = some peer) :
    ∃ a d' rng' answerMessage, d.handleOffersAndAnswer config rng now metadata request =
        some (a, d', rng') ∧
      d'.Counted ∧
      OffersForwarded config d.peers.get request.peerId (request.offers.getD []) a.forwarded ∧
      a.outMessages = a.forwarded.map (offerOutMessage request.infoHash request.peerId) ++
        Option.toList answerMessage ∧
      (∀ m b, answerMessage ≠ some (m, .offer b)) ∧
      ∃ offered : PeerId → Option Peer,
        (∀ k, offered k = if k = request.peerId then
          some (peer.expectAnswers a.forwarded
            (ValidUntil.newWithNow now config.cleaning.maxOfferAge)) else d.peers.get k) ∧
        (∀ k, d'.peers.get k = match request.fullAnswer with
          | some (receiver, offerId, _) => if k = receiver then
            (offered k).map fun p => p.forgetAnswer ⟨request.peerId, offerId⟩ else offered k
          | none => offered k) ∧
        ∀ m b, answerMessage = some (m, .answer b) → ∃ receiver offerId answer p,
          request.fullAnswer = some (receiver, offerId, answer) ∧ offered receiver = some p ∧
          p.expects ⟨request.peerId, offerId⟩ ∧ m.connection = p.connection ∧
          b = ⟨request.peerId, request.infoHash, answer, offerId⟩ := by
  have hoffers : ∃ forwarded d₁ rng₁,
      d.handleOptOffers config rng now request.peerId request.offers =
        some (forwarded, d₁, rng₁) ∧ d₁.Counted ∧
      (∀ k, d₁.peers.get k = if k = request.peerId then
        some (peer.expectAnswers forwarded (ValidUntil.newWithNow now config.cleaning.maxOfferAge))
        else d.peers.get k) ∧
      OffersForwarded config d.peers.get request.peerId (request.offers.getD []) forwarded := by
    cases request.offers with
    | some offers => exact handleOffers_spec h config rng now hpeer offers
    | none =>
      refine ⟨[], d, rng, rfl, h, ?_, offersForwarded_nil config _ _ _⟩
      intro k
      split
      · rename_i hk
        rw [hk, hpeer]
        rfl
      · rfl
  obtain ⟨forwarded, d₁, rng₁, hd₁, hcounted, hget, hforwarded⟩ := hoffers
  unfold handleOffersAndAnswer
  cases hanswer : request.fullAnswer with
  | none =>
    refine ⟨_, d₁, rng₁, none, by simp only [hd₁]; rfl, hcounted, hforwarded, rfl, ?_,
      d₁.peers.get, hget, fun k => rfl, ?_⟩
    · intro m b hm
      cases hm
    · intro m b hm
      cases hm
  | some triple =>
    obtain ⟨receiver, offerId, answer⟩ := triple
    obtain ⟨o, d₂, hd₂, hcounted₂, hget₂, hsent, hnooffer⟩ := handleAnswer_spec hcounted metadata
      request.infoHash request.peerId receiver offerId answer
    refine ⟨_, d₂, rng₁, o, by
      simp only [hd₁, Option.bind_eq_bind, Option.bind_some, hd₂]
      rfl, hcounted₂, hforwarded, rfl, hnooffer, d₁.peers.get, hget, hget₂, ?_⟩
    intro m b hm
    obtain ⟨p, hp, hexpects, hconnection, hb⟩ := hsent m b hm
    exact ⟨receiver, offerId, answer, p, rfl, hp, hexpects, hconnection, hb⟩

theorem handleAnnounceRequest_ignored {d : TorrentData} {p : Peer} {metadata : InMessageMeta}
    {request : AnnounceRequest} (hp : d.peers.get request.peerId = some p)
    (hne : p.connectionId ≠ metadata.connectionId) (config : Config) (rng : Rng)
    (now : SecondsSinceServerStart) :
    d.handleAnnounceRequest config rng now metadata request = some (⟨[], []⟩, d, rng) := by
  apply if_pos
  simpa [hp] using fun heq => hne heq.symm

theorem handleAnnounceRequest_accepted {d : TorrentData} (h : d.Counted) (config : Config)
    (rng : Rng) (now : SecondsSinceServerStart) (metadata : InMessageMeta)
    (request : AnnounceRequest)
    (hown : ∀ p, d.peers.get request.peerId = some p → p.connectionId = metadata.connectionId) :
    ∃ a d' rng', d.handleAnnounceRequest config rng now metadata request = some (a, d', rng') ∧
      d'.Counted ∧ Accepted config now metadata request d.peers.get d'.peers.get a := by
  have hnot : ¬ ((d.peers.get request.peerId).any fun previousPeer =>
      metadata.connectionId != previousPeer.connectionId) = true := by
    intro hany
    cases hp : d.peers.get request.peerId with
    | none => simp [hp] at hany
    | some p => simp [hp, hown p hp] at hany
  obtain ⟨d₁, hd₁, hcounted₁, hget₁⟩ := insertOrUpdatePeer_spec h config now metadata request
  unfold handleAnnounceRequest
  rw [if_neg hnot]
  by_cases hs : request.status = .stopped
  · have hleechers := numLeechers_eq hcounted₁
    refine ⟨_, d₁, rng, by simp [hd₁, hs, hleechers]; rfl, hcounted₁, ?_⟩
    exact {
      peers' := by
        intro k
        rw [hget₁ k]
        unfold announcedPeers entered updatedPeer
        rw [if_pos hs]
        cases request.fullAnswer with
        | none => rfl
        | some triple => simp [hs]
      forwarded := offersForwarded_nil config _ _ _
      stopped := fun _ => rfl
      messages := by
        refine ⟨none, _, rfl, ?_, ?_⟩
        · intro m b hm
          cases hm
        · intro m b hm
          cases hm }
  · obtain ⟨peer, hpeer⟩ : ∃ peer,
        updatedPeer config now metadata request (d.peers.get request.peerId) = some peer := by
      simp [updatedPeer, hs]
    have hsender : d₁.peers.get request.peerId = some peer := by rw [hget₁, if_pos rfl, hpeer]
    obtain ⟨a, d₂, rng₂, answerMessage, hd₂, hcounted₂, hforwarded, hout, hnooffer, offered,
      hoffered, hget₂, hanswer⟩ :=
      handleOffersAndAnswer_spec hcounted₁ config rng now metadata request hsender
    have hleechers := numLeechers_eq hcounted₂
    have hentered : ∀ k, offered k =
        entered config now metadata request a.forwarded d.peers.get k := by
      intro k
      rw [hoffered k, hget₁ k]
      unfold entered
      by_cases hk : k = request.peerId
      · subst hk
        simp [hpeer]
      · simp [hk]
    refine ⟨_, d₂, rng₂, by simp [hd₁, hs, hd₂, hleechers]; rfl, hcounted₂, ?_⟩
    exact {
      peers' := by
        intro k
        rw [hget₂ k, hentered k]
        unfold announcedPeers
        cases request.fullAnswer with
        | none => rfl
        | some triple => simp [hs]
      forwarded :=
        { hforwarded with
          registered := by
            intro f hf
            obtain ⟨p, hp, hconnection⟩ := hforwarded.registered f hf
            rw [hget₁, if_neg (hforwarded.notSender f hf)] at hp
            exact ⟨p, hp, hconnection⟩ }
      stopped := fun hstopped => absurd hstopped hs
      messages := by
        refine ⟨answerMessage, _, by rw [hout], hnooffer, ?_⟩
        intro m b hm
        obtain ⟨receiver, offerId, answer, p, hfull, hp, hrest⟩ := hanswer m b hm
        exact ⟨receiver, offerId, answer, p, hs, hfull, (hentered receiver).symm.trans hp, hrest⟩ }

theorem handleConnectionClosed_spec {d : TorrentData} (h : d.Counted) (peerId : PeerId) :
    ∃ d', d.handleConnectionClosed peerId = some d' ∧ d'.Counted ∧
      ∀ k, d'.peers.get k = if k = peerId then none else d.peers.get k := by
  unfold handleConnectionClosed
  cases hp : d.peers.get peerId with
  | none =>
    refine ⟨d, rfl, h, ?_⟩
    intro k
    split
    · rename_i hk
      rw [hk, hp]
    · rfl
  | some p =>
    have hremove := counted_swapRemove h peerId
    rw [hp] at hremove
    refine ⟨_, by simp only [withoutSeeder_eq h hp]; rfl, ?_, ?_⟩
    · exact hremove
    · intro k
      rw [IndexMap.get_swapRemove]

def cleanedPeer (now : SecondsSinceServerStart) (peer : Peer) : Option Peer :=
  if peer.validUntil.valid now then some (peer.cleanAnswers now) else none

theorem cleanedPeer_eq_some_iff {now : SecondsSinceServerStart} {peer peer' : Peer} :
    cleanedPeer now peer = some peer' ↔
      peer.validUntil.valid now = true ∧ peer.cleanAnswers now = peer' := by
  rw [cleanedPeer, Option.ite_none_right_eq_some, Option.some.injEq]

theorem isSome_cleanedPeer (now : SecondsSinceServerStart) (peer : Peer) :
    (cleanedPeer now peer).isSome = peer.validUntil.valid now := by
  unfold cleanedPeer
  cases peer.validUntil.valid now <;> rfl

theorem cleanAndGetNumPeers_spec {d : TorrentData} (h : d.Counted)
    (now : SecondsSinceServerStart) :
    ∃ d', d.cleanAndGetNumPeers now = some (d'.peers.len, d') ∧ d'.Counted ∧
      ∀ k, d'.peers.get k = (d.peers.get k).bind (cleanedPeer now) := by
  have hsplit := countP_split (fun e : PeerId × Peer => e.2.seeder)
    (fun e => e.2.validUntil.valid now) d.peers.entries
  have hcount := d.peers.count_filterMap (fun p => p.validUntil.valid now)
    (g := fun p => p.cleanAnswers now) (q := Peer.seeder) (fun _ => rfl)
  unfold Counted IndexMap.count at h
  rw [hsplit] at h
  have hfold := foldlM_decrement
    (fun e : PeerId × Peer => !e.2.validUntil.valid now && e.2.seeder) d.peers.entries d.numSeeders
    (by omega)
  refine ⟨⟨d.peers.filterMap fun _ p => cleanedPeer now p, d.numSeeders -
    d.peers.entries.countP fun e => !e.2.validUntil.valid now && e.2.seeder⟩, ?_, ?_, ?_⟩
  · simp only [cleanAndGetNumPeers, hfold]
    rfl
  · simp only [Counted, cleanedPeer, hcount]
    omega
  · intro k
    rw [IndexMap.get_filterMap]

end TorrentData

end Aquatic.Ws
