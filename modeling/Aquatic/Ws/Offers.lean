import Aquatic.Lib.Tickets
import Aquatic.Lib.Transition
import Aquatic.Ws.TorrentMapsSpec

/-!
# Offers and their answers

A swarm worker with a record of the offers it has passed on and of the answers it
has sent back. An offer is a ticket for one answer: it is valid while the
offerer's entry expects the answer. Entries under one peer id are told apart by
how many of them have been removed before.
-/

namespace Aquatic.Ws
open Collections Transition Tickets
set_option autoImplicit false

/-- An offer that was passed on, or the offer that an answer is about. -/
structure Passed where
  ipVersion : IpVersion
  infoHash : InfoHash
  offerId : OfferId
  /-- The offerer's peer id, and how many entries under it have been removed. -/
  offerer : Option (PeerId × Nat)
  /-- The connection that has created the offerer's entry. -/
  connection : Option Connection
  answerer : PeerId
  deriving DecidableEq

structure Exchange where
  torrents : TorrentMaps
  removals : IpVersion → InfoHash → PeerId → Nat
  offers : List Passed
  answers : List Passed

namespace Exchange

inductive Action where
  | announce (rng : Rng) (now : SecondsSinceServerStart) (metadata : InMessageMeta)
      (request : AnnounceRequest)
  | connectionClosed (infoHash : InfoHash) (peerId : PeerId) (ipVersion : IpVersion)
  | clean (accessList : AccessList) (now : SecondsSinceServerStart)

def init : Exchange := ⟨TorrentMaps.empty, fun _ _ _ => 0, [], []⟩

/-- The worker goes on with `torrents`: entries that are not there any more are removed. -/
def setTorrents (s : Exchange) (torrents : TorrentMaps) : Exchange :=
  { s with
    torrents := torrents
    removals := fun ip h k => s.removals ip h k +
      if (s.torrents.peer ip h k).isSome && (torrents.peer ip h k).isNone then 1 else 0 }

/-- The offers of an announce that leaves `torrents`. -/
def offersOf (s : Exchange) (torrents : TorrentMaps) (metadata : InMessageMeta)
    (request : AnnounceRequest) (a : Announced) : List Passed :=
  a.forwarded.map fun f =>
    { ipVersion := metadata.ipVersion
      infoHash := request.infoHash
      offerId := f.1.offerId
      offerer := some (request.peerId,
        s.removals metadata.ipVersion request.infoHash request.peerId)
      connection := (torrents.peer metadata.ipVersion request.infoHash request.peerId).map
        Peer.connection
      answerer := f.2.peerId }

/-- The offer that a message of an announce answers. -/
def answerOf (s : Exchange) (metadata : InMessageMeta) (request : AnnounceRequest) :
    OutMessageMeta × OutMessage → Option Passed
  | (m, .answer b) => some
      { ipVersion := metadata.ipVersion
        infoHash := b.infoHash
        offerId := b.offerId
        offerer := request.answerToPeerId.map fun k =>
          (k, s.removals metadata.ipVersion b.infoHash k)
        connection := some m.connection
        answerer := b.peerId }
  | _ => none

def answersOf (s : Exchange) (metadata : InMessageMeta) (request : AnnounceRequest)
    (a : Announced) : List Passed := a.outMessages.filterMap (s.answerOf metadata request)

def step (config : Config) (s : Exchange) : Action → Option Exchange
  | .announce rng now metadata request =>
    (s.torrents.handleAnnounceRequest config rng now metadata request).map fun (a, torrents, _) =>
      { s.setTorrents torrents with
        offers := s.offers ++ s.offersOf torrents metadata request a
        answers := s.answers ++ s.answersOf metadata request a }
  | .connectionClosed infoHash peerId ipVersion =>
    (s.torrents.handleConnectionClosed infoHash peerId ipVersion).map s.setTorrents
  | .clean accessList now => (s.torrents.clean config accessList now).map s.setTorrents

def isOffer : OutMessage → Bool
  | .offer _ => true
  | _ => false

/-- What the offers of an announce that was answered with `a` came to. -/
structure PassesOn (config : Config) (before after : TorrentMaps) (metadata : InMessageMeta)
    (request : AnnounceRequest) (a : Announced) : Prop where
  forwarded : TorrentData.OffersForwarded config (before.peer metadata.ipVersion request.infoHash)
    request.peerId (request.offers.getD []) a.forwarded
  messages : a.outMessages.filter (fun m => isOffer m.2) =
    a.forwarded.map (TorrentData.offerOutMessage request.infoHash request.peerId)
  expected : ∀ f ∈ a.forwarded, ∃ p,
    after.peer metadata.ipVersion request.infoHash request.peerId = some p ∧
      p.expects ⟨f.2.peerId, f.1.offerId⟩

/-- All answers, those of this step included, are answers to offers before this
step, each to one of its own; and an announce passes on its offers as it should. -/
def Fair (config : Config) (s : Exchange) (act : Action) (s' : Exchange) : Prop :=
  s'.answers.Subperm s.offers ∧
    match act with
    | .announce rng now metadata request => ∀ a torrents rng',
      s.torrents.handleAnnounceRequest config rng now metadata request =
        some (a, torrents, rng') →
      PassesOn config s.torrents torrents metadata request a
    | _ => True

/-- The offerer is still the one that made the offer, and expects the answer. -/
def Open (s : Exchange) (x : Passed) : Prop :=
  ∃ k p, x.offerer = some (k, s.removals x.ipVersion x.infoHash k) ∧
    s.torrents.peer x.ipVersion x.infoHash k = some p ∧ x.connection = some p.connection ∧
    p.expects ⟨x.answerer, x.offerId⟩

structure Balanced (s : Exchange) : Prop where
  counted : s.torrents.Counted
  tickets : Tickets.Balanced s.offers s.answers s.Open

theorem balanced_init : Balanced init := by
  refine ⟨TorrentMaps.counted_empty, .nil ?_⟩
  rintro ⟨ip, h, _, _, _, _⟩ ⟨k, p, -, hp, -⟩
  cases ip <;> cases hp

theorem open_setTorrents {s : Exchange} {torrents : TorrentMaps} {x : Passed}
    (hx : (s.setTorrents torrents).Open x) :
    ∃ k p, x.offerer = some (k, s.removals x.ipVersion x.infoHash k) ∧
      torrents.peer x.ipVersion x.infoHash k = some p ∧ x.connection = some p.connection ∧
      p.expects ⟨x.answerer, x.offerId⟩ := by
  obtain ⟨k, p, hofferer, hp, hrest⟩ := hx
  have hp' : torrents.peer x.ipVersion x.infoHash k = some p := hp
  refine ⟨k, p, ?_, hp', hrest⟩
  rw [hofferer]
  simp [setTorrents, hp']

/-- Nothing is offered or answered: no answer is expected that was not before. -/
theorem balanced_setTorrents {s : Exchange} (hs : s.Balanced) {torrents : TorrentMaps}
    (hcounted : torrents.Counted)
    (horigin : ∀ {ip h k p'}, torrents.peer ip h k = some p' → ∃ p,
      s.torrents.peer ip h k = some p ∧ p'.connection = p.connection ∧
        ∀ x, p'.expects x → p.expects x) :
    (s.setTorrents torrents).Balanced := by
  have hissue := @Balanced.issue _ _ _ _ _ (s.setTorrents torrents).Open hs.tickets [] ?_
  · rw [List.append_nil] at hissue
    exact ⟨hcounted, hissue⟩
  · intro x hx
    obtain ⟨k, p', hofferer, hp', hconnection, hexpects⟩ := open_setTorrents hx
    obtain ⟨p, hp, hsame, hmore⟩ := horigin hp'
    exact .inl ⟨k, p, hofferer, hp, hconnection.trans (congrArg some hsame), hmore _ hexpects⟩

theorem answerToPeerId_of_fullAnswer {request : AnnounceRequest} {receiver : PeerId}
    {offerId : OfferId} {answer : RtcAnswer}
    (h : request.fullAnswer = some (receiver, offerId, answer)) :
    request.answerToPeerId = some receiver := by
  unfold AnnounceRequest.fullAnswer at h
  obtain ⟨k, hk, h⟩ := Option.bind_eq_some_iff.mp h
  obtain ⟨_, -, h⟩ := Option.bind_eq_some_iff.mp h
  obtain ⟨_, -, h⟩ := Option.bind_eq_some_iff.mp h
  cases h
  exact hk

section Accepted
variable {s : Exchange} {config : Config} {now : SecondsSinceServerStart}
variable {metadata : InMessageMeta} {request : AnnounceRequest} {torrents : TorrentMaps}
variable {a : Announced}
variable (hothers : ∀ ip h, ¬ (ip = metadata.ipVersion ∧ h = request.infoHash) →
  torrents.peer ip h = s.torrents.peer ip h)
variable (haccepted : TorrentData.Accepted config now metadata request
  (s.torrents.peer metadata.ipVersion request.infoHash)
  (torrents.peer metadata.ipVersion request.infoHash) a)
include hothers haccepted

theorem origin_of_open {x : Passed} (hx : (s.setTorrents torrents).Open x) :
    s.Open x ∨ x ∈ s.offersOf torrents metadata request a := by
  obtain ⟨k, p', hofferer, hp', hconnection, hexpects⟩ := open_setTorrents hx
  obtain ⟨ip, h, offerId, offerer, connection, answerer⟩ := x
  simp only at hofferer hp' hconnection hexpects
  by_cases hsame : ip = metadata.ipVersion ∧ h = request.infoHash
  · obtain ⟨rfl, rfl⟩ := hsame
    have hpeers := hp'
    rw [haccepted.peers'] at hpeers
    obtain ⟨p, hp⟩ := TorrentData.entered_of_announcedPeers hpeers
    obtain ⟨q, hq, hentry, hiff⟩ := TorrentData.announcedPeers_of_entered hp
    rw [hpeers] at hq
    cases hq
    rcases TorrentData.origin_of_entered hp ((hiff _).mp hexpects).1 with
      ⟨q, hq, hentry', hq'⟩ | ⟨rfl, f, hf, hfx⟩
    · left
      refine ⟨k, q, hofferer, hq, ?_, hq'⟩
      rw [hconnection, hentry.connection, hentry']
    · right
      cases hfx
      refine List.mem_map.mpr ⟨f, hf, ?_⟩
      rw [hp', hofferer, hconnection]
      rfl
  · left
    rw [hothers ip h hsame] at hp'
    exact ⟨k, p', hofferer, hp', hconnection, hexpects⟩

omit hothers in
/-- An announce answers at most one offer, an open one, and not again. -/
theorem answersOf_accepted : s.answersOf metadata request a = [] ∨
    ∃ x, s.answersOf metadata request a = [x] ∧ s.Open x ∧ ¬ (s.setTorrents torrents).Open x := by
  obtain ⟨answerMessage, response, hout, -, hanswer⟩ := haccepted.messages
  have hnone : (a.forwarded.map (TorrentData.offerOutMessage request.infoHash
      request.peerId)).filterMap (s.answerOf metadata request) = [] := by
    rw [List.filterMap_map, List.filterMap_eq_nil_iff]
    exact fun f _ => rfl
  unfold answersOf
  rw [hout, List.filterMap_append, List.filterMap_append, hnone]
  cases answerMessage with
  | none => exact .inl rfl
  | some message =>
    obtain ⟨m, message⟩ := message
    cases message with
    | offer _ => exact .inl rfl
    | announceResponse _ => exact .inl rfl
    | errorResponse _ => exact .inl rfl
    | answer b =>
      obtain ⟨receiver, offerId, answer, p, hstatus, hfull, hp, hexpects, hconnection, rfl⟩ :=
        hanswer m b rfl
      have hreceiver := answerToPeerId_of_fullAnswer hfull
      refine .inr ⟨_, rfl, ?_, ?_⟩
      · rcases TorrentData.origin_of_entered hp hexpects with
          ⟨q, hq, hentry, hq'⟩ | ⟨-, f, hf, hfx⟩
        · refine ⟨receiver, q, ?_, hq, ?_, hq'⟩
          · simp only [hreceiver, Option.map_some]
          · simp only [hconnection, hentry]
        · exact absurd (congrArg ExpectingAnswer.fromPeerId hfx).symm
            (haccepted.forwarded.notSender f hf)
      · intro hopen
        obtain ⟨k, p', hofferer, hp', -, hexpects'⟩ := open_setTorrents hopen
        simp only [hreceiver, Option.map_some, Option.some.injEq, Prod.mk.injEq] at hofferer
        obtain ⟨rfl, -⟩ := hofferer
        obtain ⟨q, hq, -, hiff⟩ := TorrentData.announcedPeers_of_entered hp
        simp only [haccepted.peers', hq, Option.some.injEq] at hp'
        subst hp'
        exact ((hiff _).mp hexpects').2 ⟨offerId, answer, hstatus, hfull, rfl⟩

/-- Before an announce passes on its offers, it redeems the offer it answers. -/
theorem tickets_accepted (hs : s.Balanced) : ∃ Valid : Passed → Prop,
    Tickets.Balanced s.offers (s.answers ++ s.answersOf metadata request a) Valid ∧
    ∀ x, (s.setTorrents torrents).Open x →
      Valid x ∨ x ∈ s.offersOf torrents metadata request a := by
  rcases answersOf_accepted haccepted with hnil | ⟨x, hanswers, hopen, hclosed⟩
  · refine ⟨s.Open, ?_, fun x hx => origin_of_open hothers haccepted hx⟩
    rw [hnil, List.append_nil]
    exact hs.tickets
  · refine ⟨fun y => s.Open y ∧ y ≠ x, ?_, ?_⟩
    · rw [hanswers]
      exact hs.tickets.redeem hopen fun hy => hy
    · intro y hy
      rcases origin_of_open hothers haccepted hy with hold | hnew
      · refine .inl ⟨hold, ?_⟩
        rintro rfl
        exact hclosed hy
      · exact .inr hnew

omit hothers in
theorem passesOn_accepted : PassesOn config s.torrents torrents metadata request a := by
  obtain ⟨answerMessage, response, hout, hnooffer, -⟩ := haccepted.messages
  refine ⟨haccepted.forwarded, ?_, ?_⟩
  · have hall : (a.forwarded.map (TorrentData.offerOutMessage request.infoHash
        request.peerId)).filter (fun m => isOffer m.2) =
        a.forwarded.map (TorrentData.offerOutMessage request.infoHash request.peerId) := by
      rw [List.filter_eq_self]
      intro m hm
      obtain ⟨f, -, rfl⟩ := List.mem_map.mp hm
      rfl
    have hanswer : answerMessage.toList.filter (fun m => isOffer m.2) = [] := by
      rw [List.filter_eq_nil_iff]
      rintro ⟨m, message⟩ hm
      cases message with
      | offer b => exact absurd (Option.mem_toList.mp hm) (hnooffer m b)
      | _ => exact Bool.false_ne_true
    rw [hout, List.filter_append, List.filter_append, hall, hanswer]
    simp [isOffer]
  · intro f hf
    by_cases hstatus : request.status = .stopped
    · rw [haccepted.stopped hstatus] at hf
      cases hf
    · obtain ⟨p, hp, -, hexpects⟩ :=
        @TorrentData.announcedPeers_sender config now metadata request
          (s.torrents.peer metadata.ipVersion request.infoHash) a.forwarded hstatus
      exact ⟨p, (haccepted.peers' _).trans hp, hexpects f hf (haccepted.forwarded.notSender f hf)⟩

end Accepted

theorem fair_announce {s : Exchange} (hs : s.Balanced) (config : Config) (rng : Rng)
    (now : SecondsSinceServerStart) (metadata : InMessageMeta) (request : AnnounceRequest) :
    ∃ s', step config s (.announce rng now metadata request) = some s' ∧ s'.Balanced ∧
      Fair config s (.announce rng now metadata request) s' := by
  obtain ⟨a, torrents, rng', ha, hcounted, hframe, hhandled⟩ :=
    TorrentMaps.handleAnnounceRequest_spec hs.counted config rng now metadata request
  obtain ⟨⟨Valid, hredeemed, hissued⟩, hpasses⟩ : (∃ Valid : Passed → Prop,
      Tickets.Balanced s.offers (s.answers ++ s.answersOf metadata request a) Valid ∧
      ∀ x, (s.setTorrents torrents).Open x →
        Valid x ∨ x ∈ s.offersOf torrents metadata request a) ∧
      PassesOn config s.torrents torrents metadata request a := by
    cases hhandled with
    | ignored _ _ _ same silent =>
      have htorrents : torrents = s.torrents := TorrentMaps.eq_of_frame hframe same
      subst htorrents silent
      refine ⟨⟨s.Open, ?_, fun x hx => .inl (open_setTorrents hx)⟩,
        ⟨TorrentData.offersForwarded_nil config _ _ _, rfl, nofun⟩⟩
      rw [show s.answersOf metadata request ⟨[], []⟩ = [] from rfl, List.append_nil]
      exact hs.tickets
    | accepted _ hothers haccepted =>
      refine ⟨tickets_accepted ?_ haccepted hs, passesOn_accepted haccepted⟩
      intro ip h hne
      unfold TorrentMaps.peer
      by_cases hip : ip = metadata.ipVersion
      · subst hip
        exact hothers h fun hh => hne ⟨rfl, hh⟩
      · rw [hframe ip hip]
  refine ⟨_, by simp only [step, ha]; rfl, ⟨hcounted, ?_⟩, hredeemed.subperm, ?_⟩
  · exact hredeemed.issue fun hx => hissued _ hx
  · intro a' torrents' rng'' ha'
    rw [ha] at ha'
    cases ha'
    exact hpasses

theorem fair_step {s : Exchange} (config : Config) (act : Action) (hs : s.Balanced) :
    ∃ s', step config s act = some s' ∧ s'.Balanced ∧ Fair config s act s' := by
  cases act with
  | announce rng now metadata request => exact fair_announce hs config rng now metadata request
  | connectionClosed infoHash peerId ipVersion =>
    obtain ⟨torrents, htorrents, hcounted, hpeer⟩ :=
      TorrentMaps.handleConnectionClosed_spec hs.counted infoHash peerId ipVersion
    refine ⟨s.setTorrents torrents, by rw [step, htorrents]; rfl,
      balanced_setTorrents hs hcounted ?_, hs.tickets.subperm, trivial⟩
    intro ip h k p' hp'
    rw [hpeer] at hp'
    split at hp'
    · cases hp'
    · exact ⟨p', hp', rfl, fun _ hx => hx⟩
  | clean accessList now =>
    obtain ⟨torrents, htorrents, hcounted, hpeer⟩ :=
      TorrentMaps.clean_spec hs.counted config accessList now
    refine ⟨s.setTorrents torrents, by rw [step, htorrents]; rfl,
      balanced_setTorrents hs hcounted ?_, hs.tickets.subperm, trivial⟩
    intro ip h k p' hp'
    rw [hpeer] at hp'
    split at hp'
    · obtain ⟨p, hp, hclean⟩ := Option.bind_eq_some_iff.mp hp'
      obtain ⟨-, rfl⟩ := TorrentData.cleanedPeer_eq_some_iff.mp hclean
      exact ⟨p, hp, rfl, fun _ hx => Peer.expects_cleanAnswers hx⟩
    · cases hp'

/-- No run aborts. Every answer is to an offer that was passed on before to the
answering peer for the connection that gets the answer, with the offerer's entry
still there; no offer is answered twice; and announces pass on their offers as
they should. -/
theorem offers_answered_once (config : Config) (as : List Action) :
    (∃ s, run (step config) init as = some s) ∧ AllSteps (step config) (Fair config) init as :=
  run_of_total (fair_step config) balanced_init as

end Exchange

end Aquatic.Ws
