import Aquatic.Lib.Slots
import Aquatic.Ws.PeerIdUse

/-!
# One peer for each torrent and connection

The reader of a connection notes one peer id for each info hash, ahead of the
swarm worker. The peers that a connection has in a torrent are a slot at the far
end of its announces in flight: there is at most one, and these announces lead
from it to what the reader has noted.
-/

namespace Aquatic.Ws.Network
open Collections Transition
set_option autoImplicit false

def messageKey (m : InMessageMeta × AnnounceRequest) : IpVersion × PeerId :=
  (m.1.ipVersion, m.2.peerId)

def messageStops (m : InMessageMeta × AnnounceRequest) : Bool := m.2.status == .stopped

def unsent (c : Connection) : ConnectionState → List (InMessageMeta × AnnounceRequest)
  | .open ip _ (some request) => [(metaOf c ip, request)]
  | _ => []

/-- The announces of a torrent that a connection has taken and the swarm worker
has not handled, in order. -/
def inFlight (s : Network) (c : Connection) (h : InfoHash) :
    List (InMessageMeta × AnnounceRequest) :=
  (s.inMessages c.consumerId ++ unsent c (s.connections c)).filter fun m =>
    m.1.connection = c ∧ m.2.infoHash = h

/-- The peers of a connection in a torrent are in the slot. -/
def InSlot (torrents : TorrentMaps) (c : Connection) (h : InfoHash)
    (slot : Option (IpVersion × PeerId)) : Prop :=
  ∀ ip k p, torrents.peer ip h k = some p → p.connection = c → slot = some (ip, k)

/-- What a connection's own state says about the slot in the end. While it
closes, this is what its `ConnectionClosed` lists, unless the closing has
cancelled an announce. -/
def EndsAt (regular : Prop) (h : InfoHash) :
    ConnectionState → Option (IpVersion × PeerId) → Prop
  | .unopened, slot => slot = none
  | .open ip announced _, slot => slot = (announced.get h).map fun k => (ip, k)
  | .closing message, slot => regular → ∀ ip k, slot = some (ip, k) →
    ip = message.ipVersion ∧ (h, k) ∈ message.announcedInfoHashes
  | .closed, _ => True

structure OneSlot (config : Config) (me : Nat) (regular : Prop) (c : Connection) (s : Network) :
    Prop where
  counted : s.torrents.Counted
  home : ∀ {ip h k p}, s.torrents.peer ip h k = some p →
    calculateInMessageConsumerIndex config h = me
  routed : ∀ {w m}, m ∈ s.inMessages w →
    calculateInMessageConsumerIndex config m.2.infoHash = me ∧ m.1.outMessageConsumerId = w
  slot : ∀ h, calculateInMessageConsumerIndex config h = me → ∃ now final,
    InSlot s.torrents c h now ∧
    Slots.Follows messageKey messageStops now (s.inFlight c h) final ∧
    EndsAt regular h (s.connections c) final

variable {config : Config} {me : Nat} {regular : Prop} {c : Connection} {s s' : Network}

theorem oneSlot_init : OneSlot config me regular c init where
  counted := TorrentMaps.counted_empty
  home := by
    intro ip h k p hp
    cases ip <;> cases hp
  routed := nofun
  slot := by
    intro h _
    refine ⟨none, none, ?_, rfl, rfl⟩
    intro ip k p hp
    cases ip <;> cases hp

theorem InSlot.mono {before after : TorrentMaps} {h : InfoHash}
    {slot : Option (IpVersion × PeerId)} (hslot : InSlot before c h slot)
    (horigin : ∀ ip k p, after.peer ip h k = some p → p.connection = c →
      ∃ q, before.peer ip h k = some q ∧ p.connection = q.connection) :
    InSlot after c h slot := by
  intro ip k p hp hc
  obtain ⟨q, hq, hcreator⟩ := horigin ip k p hp hc
  exact hslot ip k q hq (hcreator.symm.trans hc)

/-- An announce of the connection moves the slot as the reader expected. -/
theorem inSlot_after {metadata : InMessageMeta} {request : AnnounceRequest} {a : Announced}
    {now : SecondsSinceServerStart} {before after : TorrentMaps}
    (hframe : ∀ ipVersion, ipVersion ≠ metadata.ipVersion →
      after.torrentMap ipVersion = before.torrentMap ipVersion)
    (hhandled : TorrentMap.Handled config now metadata request
      (before.torrentMap metadata.ipVersion) (after.torrentMap metadata.ipVersion) a)
    (hc : metadata.connection = c) {slot : Option (IpVersion × PeerId)}
    (hslot : InSlot before c request.infoHash slot)
    (hkey : ∀ k, slot = some k → k = messageKey (metadata, request)) :
    InSlot after c request.infoHash
      (Slots.after messageKey messageStops (metadata, request)) := by
  have hold : ∀ {ip k q}, before.peer ip request.infoHash k = some q → q.connection = c →
      ip = metadata.ipVersion ∧ k = request.peerId := by
    intro ip k q hq hqc
    have heq := hkey _ (hslot ip k q hq hqc)
    exact ⟨congrArg Prod.fst heq, congrArg Prod.snd heq⟩
  intro ip k p hp hpc
  by_cases hstopped : request.status = .stopped
  · exfalso
    rcases origin_of_inMessage hframe hhandled hp with ⟨q, hq, hcreator⟩ | ⟨-, -, -, hs, -⟩
    · obtain ⟨rfl, rfl⟩ := hold hq (hcreator.symm.trans hpc)
      cases hhandled with
      | ignored p₀ hp₀ hne same _ =>
        rw [TorrentMaps.peer] at hq
        rw [hq] at hp₀
        cases hp₀
        apply hne
        exact congrArg Connection.connectionId (hcreator.symm.trans (hpc.trans hc.symm))
      | accepted _ _ haccepted =>
        rw [TorrentMaps.peer, haccepted.peers', TorrentData.announcedPeers_stopped hstopped] at hp
        cases hp
    · exact hs hstopped
  · have hafter : Slots.after messageKey messageStops (metadata, request) =
        some (metadata.ipVersion, request.peerId) := by
      simp [Slots.after, messageStops, messageKey, hstopped]
    rw [hafter]
    rcases origin_of_inMessage hframe hhandled hp with ⟨q, hq, hcreator⟩ | ⟨rfl, -, rfl, -, -⟩
    · obtain ⟨rfl, rfl⟩ := hold hq (hcreator.symm.trans hpc)
      rfl
    · rfl

theorem inFlight_congr {h : InfoHash} (hqueue : s'.inMessages c.consumerId = s.inMessages c.consumerId)
    (hunsent : unsent c (s'.connections c) = unsent c (s.connections c)) :
    s'.inFlight c h = s.inFlight c h := by
  rw [inFlight, inFlight, hqueue, hunsent]

/-- A step after which the connection's peers are some of those before. -/
theorem OneSlot.keep (hs : OneSlot config me regular c s) (hcounted : s'.torrents.Counted)
    (hrouted : ∀ {w m}, m ∈ s'.inMessages w → m ∈ s.inMessages w ∨
      calculateInMessageConsumerIndex config m.2.infoHash = me ∧ m.1.outMessageConsumerId = w)
    (horigin : ∀ {ip h k p}, s'.torrents.peer ip h k = some p →
      ∃ q, s.torrents.peer ip h k = some q ∧ p.connection = q.connection)
    (hends : ∀ {h now final}, calculateInMessageConsumerIndex config h = me →
      Slots.Follows messageKey messageStops now (s.inFlight c h) final →
      EndsAt regular h (s.connections c) final →
      ∃ final', Slots.Follows messageKey messageStops now (s'.inFlight c h) final' ∧
        EndsAt regular h (s'.connections c) final') :
    OneSlot config me regular c s' where
  counted := hcounted
  home := by
    intro ip h k p hp
    obtain ⟨q, hq, -⟩ := horigin hp
    exact hs.home hq
  routed := by
    intro w m hm
    rcases hrouted hm with hold | hnew
    · exact hs.routed hold
    · exact hnew
  slot := by
    intro h hme
    obtain ⟨now, final, hslot, hfollows, hfinal⟩ := hs.slot h hme
    obtain ⟨final', hfollows', hfinal'⟩ := hends hme hfollows hfinal
    exact ⟨now, final', hslot.mono fun ip k p hp _ => horigin hp, hfollows', hfinal'⟩

theorem OneSlot.setConnection (hs : OneSlot config me regular c s) {c' : Connection}
    {state : ConnectionState}
    (hends : c' = c → ∀ {h now final}, calculateInMessageConsumerIndex config h = me →
      Slots.Follows messageKey messageStops now (s.inFlight c h) final →
      EndsAt regular h (s.connections c) final →
      ∃ final', Slots.Follows messageKey messageStops now
          ((s.setConnection c state).inFlight c h) final' ∧ EndsAt regular h state final') :
    OneSlot config me regular c (s.setConnection c' state) := by
  refine hs.keep hs.counted .inl (fun hp => ⟨_, hp, rfl⟩) ?_
  intro h now final hme hfollows hfinal
  by_cases hc : c' = c
  · subst hc
    obtain ⟨final', hfollows', hfinal'⟩ := hends rfl hme hfollows hfinal
    refine ⟨final', hfollows', ?_⟩
    rw [connections_setConnection_self]
    exact hfinal'
  · have hstate : (s.setConnection c' state).connections c = s.connections c :=
      if_neg (Ne.symm hc)
    have hflight : (s.setConnection c' state).inFlight c h = s.inFlight c h :=
      inFlight_congr rfl (by rw [hstate])
    rw [hflight, hstate]
    exact ⟨final, hfollows, hfinal⟩

/-- The same, when nothing is taken and nothing is sent. -/
theorem OneSlot.setQuiet (hs : OneSlot config me regular c s) {c' : Connection}
    {state : ConnectionState} (hunsent : unsent c state = unsent c (s.connections c'))
    (hends : ∀ {h final}, calculateInMessageConsumerIndex config h = me →
      EndsAt regular h (s.connections c') final → EndsAt regular h state final) :
    OneSlot config me regular c (s.setConnection c' state) := by
  refine hs.setConnection ?_
  rintro rfl h now final hme hfollows hfinal
  have hstate : (s.setConnection c' state).connections c' = state := if_pos rfl
  have hflight : (s.setConnection c' state).inFlight c' h = s.inFlight c' h :=
    inFlight_congr rfl (by rw [hstate, hunsent])
  rw [hflight]
  exact ⟨final, hfollows, hends hme hfinal⟩

theorem oneSlot_read (hs : OneSlot config me regular c s) {c' : Connection} {ip : IpVersion}
    {announced : IndexMap InfoHash PeerId} {request : AnnounceRequest} {state : ConnectionState}
    (hc : s.connections c' = .open ip announced none)
    (hread : Read config me ip announced request state) :
    OneSlot config me regular c (s.setConnection c' state) := by
  have hpending : ∀ {announced' : IndexMap InfoHash PeerId},
      (∀ k, announced.get request.infoHash = some k → k = request.peerId) →
      (∀ h, announced'.get h = if h = request.infoHash then
        (if request.status = .stopped then none else some request.peerId) else announced.get h) →
      OneSlot config me regular c
        (s.setConnection c' (.open ip announced' (some request))) := by
    intro announced' hsame hget
    refine hs.setConnection ?_
    rintro rfl h now final hme hfollows hfinal
    rw [hc] at hfinal
    have hbefore : s.inFlight c' h = (s.inMessages c'.consumerId).filter fun m =>
        m.1.connection = c' ∧ m.2.infoHash = h := by
      rw [inFlight, hc, show unsent c' (.open ip announced none) = [] from rfl, List.append_nil]
    have hstate : (s.setConnection c' (.open ip announced' (some request))).inFlight c' h =
        s.inFlight c' h ++ [(metaOf c' ip, request)].filter fun m =>
          m.1.connection = c' ∧ m.2.infoHash = h := by
      rw [inFlight, connections_setConnection_self, unsent,
        List.filter_append, hbefore]
      rfl
    rw [hstate]
    by_cases hh : request.infoHash = h
    · subst hh
      refine ⟨Slots.after messageKey messageStops (metaOf c' ip, request), ?_, ?_⟩
      · refine Slots.follows_append.mpr ⟨final, hfollows, ?_⟩
        rw [List.filter_cons_of_pos (by simp [metaOf, InMessageMeta.connection]), List.filter_nil]
        refine ⟨?_, rfl⟩
        intro k hk
        rw [hfinal] at hk
        obtain ⟨k', hk', rfl⟩ := Option.map_eq_some_iff.mp hk
        rw [hsame k' hk']
        rfl
      · rw [EndsAt, hget, if_pos rfl]
        by_cases hstopped : request.status = .stopped
        · simp [Slots.after, messageStops, hstopped]
        · simp [Slots.after, messageStops, messageKey, metaOf, hstopped]
    · refine ⟨final, ?_, ?_⟩
      · rw [List.filter_cons_of_neg (by simp [hh]), List.filter_nil, List.append_nil]
        exact hfollows
      · rw [EndsAt, hget, if_neg (Ne.symm hh)]
        exact hfinal
  cases hread with
  | refused =>
    refine hs.setQuiet (by rw [hc]) ?_
    intro h final _ hfinal
    rw [hc] at hfinal
    exact hfinal
  | mismatched =>
    refine hs.setQuiet (by rw [hc]; rfl) ?_
    intro h final hme hfinal _ ip' k hk
    rw [hc] at hfinal
    rw [hfinal] at hk
    obtain ⟨k', hk', heq⟩ := Option.map_eq_some_iff.mp hk
    cases heq
    exact ⟨rfl, mem_connectionClosed.mpr ⟨hk', hme⟩⟩
  | stopped hstatus hget hsame =>
    refine hpending hsame ?_
    intro h
    rw [hget, if_pos hstatus]
  | forwarded hstatus hget hsame =>
    refine hpending hsame ?_
    intro h
    rw [hget, if_neg hstatus]

theorem oneSlot_sent (hs : OneSlot config me regular c s) {c' : Connection} {ip : IpVersion}
    {announced : IndexMap InfoHash PeerId} {request : AnnounceRequest}
    (hc : s.connections c' = .open ip announced (some request))
    (hme : calculateInMessageConsumerIndex config request.infoHash = me) :
    OneSlot config me regular c
      ((s.setConnection c' (.open ip announced none)).setInMessages c'.consumerId
        (s.inMessages c'.consumerId ++ [(metaOf c' ip, request)])) := by
  generalize hs' : (s.setConnection c' (.open ip announced none)).setInMessages c'.consumerId
    (s.inMessages c'.consumerId ++ [(metaOf c' ip, request)]) = s'
  have hqueue : ∀ w, s'.inMessages w = if w = c'.consumerId then
      s.inMessages c'.consumerId ++ [(metaOf c' ip, request)] else s.inMessages w := by
    intro w
    rw [← hs']
    rfl
  have hconnection : ∀ c, s'.connections c = if c = c' then .open ip announced none
      else s.connections c := by
    intro c
    rw [← hs']
    rfl
  refine hs.keep (by rw [← hs']; exact hs.counted) ?_ (by rw [← hs']; exact fun hp => ⟨_, hp, rfl⟩) ?_
  · intro w m hm
    rw [hqueue] at hm
    rcases mem_of_pushed hm with hold | ⟨hnew, hw⟩
    · exact .inl hold
    · cases hnew
      exact .inr ⟨hme, hw.symm⟩
  · intro h now final _ hfollows hfinal
    have hflight : s'.inFlight c h = s.inFlight c h := by
      rw [inFlight, inFlight, hqueue, hconnection]
      by_cases heq : c = c'
      · subst heq
        rw [if_pos rfl, if_pos rfl, hc]
        simp [unsent]
      · rw [if_neg heq]
        split
        · rename_i hw
          have hother : ¬ (metaOf c' ip).connection = c := fun h => heq h.symm
          simp [hw, hother]
        · rfl
    refine ⟨final, by rw [hflight]; exact hfollows, ?_⟩
    rw [hconnection]
    split
    · rename_i heq
      rw [heq, hc] at hfinal
      exact hfinal
    · exact hfinal

/-- Closing may cancel an announce, the last one in flight. -/
theorem oneSlot_closed (hs : OneSlot config me regular c s) {c' : Connection}
    (message : SwarmControlMessage) (hregular : c' = c → ¬ regular) :
    OneSlot config me regular c (s.setConnection c' (.closing message)) := by
  refine hs.setConnection ?_
  rintro rfl h now final _ hfollows _
  rw [inFlight, List.filter_append] at hfollows
  obtain ⟨final', hfollows', -⟩ := Slots.follows_append.mp hfollows
  refine ⟨final', ?_, fun hr => absurd hr (hregular rfl)⟩
  rw [inFlight, connections_setConnection_self,
    show unsent c' (.closing _) = [] from rfl, List.append_nil]
  exact hfollows'

theorem oneSlot_inMessage (hs : OneSlot config me regular c s) {w : ConsumerId}
    {now : SecondsSinceServerStart} {metadata : InMessageMeta} {request : AnnounceRequest}
    {messages : List (InMessageMeta × AnnounceRequest)} {a : Announced} {torrents : TorrentMaps}
    (hqueue : s.inMessages w = (metadata, request) :: messages)
    (hframe : ∀ ipVersion, ipVersion ≠ metadata.ipVersion →
      torrents.torrentMap ipVersion = s.torrents.torrentMap ipVersion)
    (hhandled : TorrentMap.Handled config now metadata request
      (s.torrents.torrentMap metadata.ipVersion) (torrents.torrentMap metadata.ipVersion) a)
    (hcounted : torrents.Counted) :
    OneSlot config me regular c { s.setInMessages w messages with torrents } := by
  have hmem : (metadata, request) ∈ s.inMessages w := by
    rw [hqueue]
    exact List.mem_cons_self
  obtain ⟨hme, hw⟩ := hs.routed hmem
  have hmessages : ∀ w', (s.setInMessages w messages).inMessages w' =
      if w' = w then messages else s.inMessages w' := fun _ => rfl
  refine ⟨hcounted, ?_, ?_, ?_⟩
  · intro ip h k p hp
    rcases origin_of_inMessage hframe hhandled hp with ⟨q, hq, -⟩ | ⟨-, rfl, -⟩
    · exact hs.home hq
    · exact hme
  · intro w' m hm
    rw [show _ = _ from hmessages w'] at hm
    exact hs.routed (mem_of_popped hqueue hm)
  · intro h hh
    obtain ⟨slot, final, hslot, hfollows, hfinal⟩ := hs.slot h hh
    by_cases hmine : metadata.connection = c ∧ request.infoHash = h
    · obtain ⟨hc, rfl⟩ := hmine
      have hworker : c.consumerId = w := by
        rw [← hc, ← hw]
        rfl
      have hbefore : s.inFlight c request.infoHash = (metadata, request) ::
          inFlight { s.setInMessages w messages with torrents } c request.infoHash := by
        rw [inFlight, inFlight, show _ = _ from hmessages c.consumerId, if_pos hworker, hworker,
          hqueue, List.cons_append, List.filter_cons_of_pos (by simp [hc])]
        rfl
      rw [hbefore] at hfollows
      exact ⟨_, final, inSlot_after hframe hhandled hc hslot hfollows.1, hfollows.2, hfinal⟩
    · have hsame : inFlight { s.setInMessages w messages with torrents } c h = s.inFlight c h := by
        rw [inFlight, inFlight, show _ = _ from hmessages c.consumerId]
        split
        · rename_i hworker
          rw [hworker, hqueue, List.cons_append, List.filter_cons_of_neg (by simpa using hmine)]
          rfl
        · rfl
      refine ⟨slot, final, hslot.mono ?_, by rw [hsame]; exact hfollows, hfinal⟩
      intro ip k p hp hpc
      rcases origin_of_inMessage hframe hhandled hp with hold | ⟨-, hhash, -, -, hcreator⟩
      · exact hold
      · exact absurd ⟨hcreator.symm.trans hpc, hhash.symm⟩ hmine

theorem oneSlot_step {act : Action} (hs : OneSlot config me regular c s)
    (h : step config me s act = some s') (hregular : regular → act ≠ .close c) :
    OneSlot config me regular c s' := by
  obtain ⟨hstep, hcounted⟩ := stepped_of_step hs.counted h
  cases hstep with
  | opened hc =>
    refine hs.setQuiet (by rw [hc]; rfl) ?_
    intro h final _ hfinal
    rw [hc] at hfinal
    rw [show final = none from hfinal]
    rfl
  | read hc hread => exact oneSlot_read hs hc hread
  | sent hc hme => exact oneSlot_sent hs hc hme
  | @sentElsewhere c' ip announced request hc hme =>
    refine hs.setConnection ?_
    rintro rfl h now final hh hfollows hfinal
    have hflight : (s.setConnection c' (.open ip announced none)).inFlight c' h = s.inFlight c' h := by
      have hne : request.infoHash ≠ h := fun heq => hme (heq ▸ hh)
      rw [inFlight, inFlight, connections_setConnection_self, hc]
      simp [unsent, setConnection, hne]
    rw [hc] at hfinal
    exact ⟨final, by rw [hflight]; exact hfollows, hfinal⟩
  | closed hc =>
    refine oneSlot_closed hs _ ?_
    rintro rfl hr
    exact hregular hr rfl
  | closedSent hc =>
    have hquiet : OneSlot config me regular c (s.setConnection _ .closed) :=
      hs.setQuiet (by rw [hc]; rfl) fun _ _ => trivial
    obtain ⟨hcounted, hhome, hrouted, hslot⟩ := hquiet
    exact ⟨hcounted, hhome, hrouted, hslot⟩
  | closedSilently hc hnil => exact hs.setQuiet (by rw [hc]; rfl) fun _ _ => trivial
  | inMessage hqueue hframe hhandled => exact oneSlot_inMessage hs hqueue hframe hhandled hcounted
  | controlMessage hqueue hpeer =>
    refine hs.keep hcounted .inl ?_ ?_
    · intro ip h k p hp
      rw [hpeer] at hp
      split at hp
      · cases hp
      · exact ⟨p, hp, rfl⟩
    · intro h now final _ hfollows hfinal
      exact ⟨final, hfollows, hfinal⟩
  | cleaned hpeer =>
    refine hs.keep hcounted .inl (origin_of_clean hpeer) ?_
    intro h now final _ hfollows hfinal
    exact ⟨final, hfollows, hfinal⟩

/-- A Stopped announce that the connection has taken and the swarm worker has not handled. -/
def StopInFlight (s : Network) (c : Connection) (ip : IpVersion) (h : InfoHash) (k : PeerId) :
    Prop :=
  ∃ m ∈ s.inFlight c h, m.2.event = some .stopped ∧ m.1.ipVersion = ip ∧ m.2.peerId = k

/-- In every state reached, a connection has at most one peer in a torrent, and
unless its stop is in flight, it is the one that the reader has noted; also while
the connection closes because of a second peer id. -/
theorem one_peer_per_torrent (config : Config) (me : Nat) (as : List Action) {s : Network}
    (hrun : run (step config me) init as = some s) (c : Connection) (h : InfoHash) :
    (∀ ip k p ip' k' p', s.torrents.peer ip h k = some p → p.connection = c →
      s.torrents.peer ip' h k' = some p' → p'.connection = c → ip = ip' ∧ k = k') ∧
    ∀ ip k p, s.torrents.peer ip h k = some p → p.connection = c →
      (∀ ip' announced pending, s.connections c = .open ip' announced pending →
        announced.get h = some k ∨ s.StopInFlight c ip h k) ∧
      (.close c ∉ as → ∀ message, s.connections c = .closing message →
        (h, k) ∈ message.announcedInfoHashes ∨ s.StopInFlight c ip h k) := by
  have hregular : AllSteps (step config me) (fun _ act _ => .close c ∉ as → act ≠ .close c)
      init as := by
    apply allSteps_of_mem
    rintro act hact hnever rfl
    exact hnever hact
  have hs : OneSlot config me (.close c ∉ as) c s :=
    run_invariant oneSlot_step oneSlot_init hregular hrun
  by_cases hme : calculateInMessageConsumerIndex config h = me
  · obtain ⟨now, final, hslot, hfollows, hfinal⟩ := hs.slot h hme
    refine ⟨?_, ?_⟩
    · intro ip k p ip' k' p' hp hc hp' hc'
      have heq := (hslot ip k p hp hc).symm.trans (hslot ip' k' p' hp' hc')
      cases heq
      exact ⟨rfl, rfl⟩
    · intro ip k p hp hc
      rw [hslot ip k p hp hc] at hfollows
      have hwhere : final = some (ip, k) ∨ s.StopInFlight c ip h k := by
        rcases hfollows.kept_or_cleared with hkept | ⟨m, hm, hstops, hkey⟩
        · exact .inl hkept
        · refine .inr ⟨m, hm, (status_eq_stopped_iff m.2).mp (eq_of_beq hstops), ?_⟩
          exact ⟨congrArg Prod.fst hkey, congrArg Prod.snd hkey⟩
      refine ⟨?_, ?_⟩
      · intro ip' announced pending hopen
        rw [hopen] at hfinal
        refine hwhere.imp_left ?_
        intro hk
        obtain ⟨k', hk', heq⟩ := Option.map_eq_some_iff.mp (hfinal.symm.trans hk)
        cases heq
        exact hk'
      · intro hnever message hclosing
        rw [hclosing] at hfinal
        exact hwhere.imp_left fun hk => (hfinal hnever ip k hk).2
  · have hnone : ∀ ip k p, s.torrents.peer ip h k ≠ some p := fun ip k p hp => hme (hs.home hp)
    exact ⟨fun ip k p _ _ _ hp => absurd hp (hnone ip k p),
      fun ip k p hp => absurd hp (hnone ip k p)⟩

def alicesSecondRequest : AnnounceRequest :=
  { exampleRequest .started with peerId := ⟨Vector.replicate 20 3⟩ }

/-- Alice changes her peer id, and the swarm worker has not handled it yet. -/
def changeRun : List Action :=
  .open alice .v4 :: .open bob .v4 :: announceAndHandle alice .started ++
    requestAndHandle bob bobsRequest ++
    [.announce alice (exampleRequest .stopped) ⟨[]⟩ false, .send alice,
      .announce alice alicesSecondRequest ⟨[]⟩ false, .send alice]

theorem one_peer_per_torrent_change : ∃ s, run (step exampleConfig 0) init changeRun = some s ∧
    (s.torrents.peer .v4 bobsRequest.infoHash bobsRequest.peerId).map Peer.connection = some bob ∧
    (s.torrents.peer .v4 bobsRequest.infoHash (exampleRequest .started).peerId).map
      Peer.connection = some alice ∧
    (∃ announced, s.connections alice = .open .v4 announced none ∧
      announced.get bobsRequest.infoHash = some alicesSecondRequest.peerId) ∧
    (∀ ip k p ip' k' p', s.torrents.peer ip bobsRequest.infoHash k = some p →
      p.connection = alice → s.torrents.peer ip' bobsRequest.infoHash k' = some p' →
        p'.connection = alice → ip = ip' ∧ k = k') ∧
    ∀ ip k p, s.torrents.peer ip bobsRequest.infoHash k = some p → p.connection = alice →
      (∀ ip' announced pending, s.connections alice = .open ip' announced pending →
        announced.get bobsRequest.infoHash = some k ∨
          s.StopInFlight alice ip bobsRequest.infoHash k) ∧
      (.close alice ∉ changeRun → ∀ message, s.connections alice = .closing message →
        (bobsRequest.infoHash, k) ∈ message.announcedInfoHashes ∨
          s.StopInFlight alice ip bobsRequest.infoHash k) :=
  ⟨_, rfl, by decide, by decide, ⟨_, rfl, by decide⟩,
    one_peer_per_torrent exampleConfig 0 changeRun rfl alice bobsRequest.infoHash⟩

end Aquatic.Ws.Network
