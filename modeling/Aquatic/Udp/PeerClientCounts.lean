import Aquatic.Udp.PeerClientsSpec

/-!
# The counts of the statistics worker

Messages of both families, in the order in which the channel gets them: those of
announces at once, those of a cleaning round at its end. The worker has counted an
id as often as it was announced as added and not yet as removed, and when no round
is on its way, that is how many peers are registered with it.
-/

namespace Aquatic.Udp
open Collections Transition
set_option autoImplicit false

namespace StatisticsWorker

/-- No id leaves more often than it came, however few of the messages are looked at. -/
def Orderly (messages : List StatisticsMessage) : Prop :=
  ∀ received, received <+: messages → ∀ peerId, removed peerId received ≤ added peerId received

theorem Orderly.of_prefix {messages messages' : List StatisticsMessage} (h : Orderly messages)
    (hpart : messages' <+: messages) : Orderly messages' :=
  fun received hreceived => h received (hreceived.trans hpart)

theorem Orderly.concat {messages : List StatisticsMessage} (h : Orderly messages)
    {message : StatisticsMessage}
    (hall : ∀ peerId, removed peerId (messages ++ [message]) ≤
      added peerId (messages ++ [message])) : Orderly (messages ++ [message]) := by
  intro received hreceived
  rcases List.prefix_concat_iff.mp hreceived with rfl | hreceived
  · exact hall
  · exact h received hreceived

theorem getD_listed (came left : Nat) :
    (if came = left then none else some (came - left)).getD 0 = came - left := by
  split
  · rename_i heq
    rw [heq, Nat.sub_self]
    rfl
  · rfl

/-- Every id is listed with what is left of it. -/
theorem handleMessages_spec {messages : List StatisticsMessage} (h : Orderly messages) :
    ∃ peers, handleMessages true messages = some peers ∧ ∀ peerId, peers.get peerId =
      if added peerId messages = removed peerId messages then none
      else some (added peerId messages - removed peerId messages) := by
  induction messages using List.reverseRecOn with
  | nil => exact ⟨IndexMap.empty, rfl, fun _ => rfl⟩
  | append_singleton messages message ih =>
    obtain ⟨peers, hpeers, hget⟩ := ih (h.of_prefix (List.prefix_append _ _))
    have hstep : handleMessages true (messages ++ [message]) =
        handleMessage true peers message := by
      unfold handleMessages at hpeers ⊢
      rw [List.foldlM_append, hpeers]
      simp [List.foldlM]
    rw [hstep]
    cases message with
    | peerAdded peerId =>
      refine ⟨_, rfl, ?_⟩
      intro peerId'
      have hle := h.of_prefix (List.prefix_append messages _) messages (List.prefix_refl _) peerId'
      rw [IndexMap.get_insert, hget, hget, added_append, removed_append, added_single,
        show removed peerId' [.peerAdded peerId] = 0 from rfl]
      by_cases hid : peerId' = peerId
      · subst hid
        rw [getD_listed, if_pos rfl, if_pos rfl, if_neg (by omega)]
        congr 1
        omega
      · rw [if_neg hid, if_neg (Ne.symm hid)]
        rfl
    | peerRemoved peerId =>
      have hlt := h _ (List.prefix_refl _) peerId
      rw [added_append, removed_append, removed_single, if_pos rfl,
        show added peerId [.peerRemoved peerId] = 0 from rfl] at hlt
      have hcount : peers.get peerId = some (added peerId messages - removed peerId messages) := by
        rw [hget, if_neg (by omega)]
      have hsub : usizeSub (added peerId messages - removed peerId messages) 1 =
          some (added peerId messages - removed peerId messages - 1) := usizeSub_of_le (by omega)
      simp only [handleMessage, if_true, hcount, hsub, Option.bind_eq_bind, Option.bind_some]
      refine ⟨_, rfl, ?_⟩
      intro peerId'
      rw [added_append, removed_append, removed_single,
        show added peerId' [.peerRemoved peerId] = 0 from rfl]
      by_cases hid : peerId' = peerId
      · subst hid
        rw [if_pos rfl]
        by_cases hlast : added peerId' messages - removed peerId' messages - 1 = 0
        · rw [if_pos hlast, IndexMap.get_swapRemove, if_pos rfl, if_pos (by omega)]
        · rw [if_neg hlast, IndexMap.get_insert, if_pos rfl, if_neg (by omega), Nat.sub_sub]
          rfl
      · rw [if_neg (Ne.symm hid)]
        split
        · rw [IndexMap.get_swapRemove, if_neg hid]
          exact hget peerId'
        · rw [IndexMap.get_insert, if_neg hid]
          exact hget peerId'

end StatisticsWorker

namespace TorrentMapShards
variable {I : Type} [DecidableEq I] {config : Config}

theorem announceMessages_cases (s : TorrentMapShards I) (act : Action I) :
    s.announceMessages config act = [] ∨ ∃ message, s.announceMessages config act = [message] := by
  cases act with
  | announce worker rng =>
    simp only [announceMessages]
    split
    · split
      · rename_i flight hflight response messages r hannounce
        obtain ⟨⟨announced, m, rng'⟩, -, h⟩ := Option.bind_eq_some_iff.mp hannounce
        cases h
        unfold announceStatistics
        split <;> split <;> simp
      · exact .inl rfl
    · exact .inl rfl
  | _ => exact .inl rfl

omit [DecidableEq I] in
/-- A round only tells of peers that are gone. -/
theorem added_cleaningMessages (hclients : config.statistics.peerClients = true)
    (s : TorrentMapShards I) (act : Action I) (peerId : PeerId) :
    added peerId (s.cleaningMessages config act) = 0 := by
  cases act with
  | cleanTorrent arc =>
    simp only [cleaningMessages]
    split
    · split
      · rename_i hclean
        exact (messages_clean hclients hclean peerId).1
      · rfl
    · rfl
  | _ => rfl

end TorrentMapShards

namespace ClientStatistics
open StatisticsWorker

noncomputable def registered (s : ClientStatistics) (peerId : PeerId) : Nat :=
  s.ipv4.registered peerId + s.ipv6.registered peerId

/-- All messages about an id, sent or waiting with the cleaning thread, balance the
peers that are registered with it. The worker, wherever it is in the channel, has
counted the messages it has received, and no decrement was one too many. When it has
received them all and no round is on its way, it lists the ids of registered peers. -/
structure Conserved (config : Config) (output : StatisticsOutput) (s : ClientStatistics) :
    Prop where
  balanced : ∀ peerId, (added peerId (s.sent ++ s.statisticsMessages) : Int) -
    removed peerId (s.sent ++ s.statisticsMessages) = s.registered peerId
  counted : processPeerClientData config output = true → ∀ received, received <+: s.sent →
    ∃ peers, handleMessages (processPeerClientData config output) received = some peers ∧
      ∀ peerId, ((peers.get peerId).getD 0 : Int) = added peerId received - removed peerId received
  listed : processPeerClientData config output = true → s.statisticsMessages = [] →
    ∃ peers, handleMessages (processPeerClientData config output) s.sent = some peers ∧
      ∀ peerId, peers.contains peerId = true ↔ 0 < s.registered peerId

def Accounted (config : Config) (s : ClientStatistics) : Action → Prop
  | .ipv4 act => s.ipv4.Accounted config act
  | .ipv6 act => s.ipv6.Accounted config act
  | _ => True

structure Followed (s : ClientStatistics) : Prop where
  ipv4 : s.ipv4.Followed
  ipv6 : s.ipv6.Followed
  balanced : ∀ peerId, added peerId (s.sent ++ s.statisticsMessages) =
    removed peerId (s.sent ++ s.statisticsMessages) + s.registered peerId
  leaving : ∀ peerId, added peerId s.statisticsMessages = 0
  orderly : Orderly s.sent

theorem followed_init : Followed init where
  ipv4 := TorrentMapShards.followed_init
  ipv6 := TorrentMapShards.followed_init
  balanced := by
    intro peerId
    rw [registered, show init.ipv4 = TorrentMapShards.init from rfl,
      show init.ipv6 = TorrentMapShards.init from rfl, TorrentMapShards.registered_init,
      TorrentMapShards.registered_init]
    rfl
  leaving _ := rfl
  orderly := by
    intro received hreceived peerId
    rw [List.prefix_nil.mp hreceived]
    exact Nat.le_refl _

/-- What is counted in both ways adds up for all that was sent. -/
theorem removed_sent_le {s : ClientStatistics}
    (hbalanced : ∀ peerId, added peerId (s.sent ++ s.statisticsMessages) =
      removed peerId (s.sent ++ s.statisticsMessages) + s.registered peerId)
    (hleaving : ∀ peerId, added peerId s.statisticsMessages = 0) (peerId : PeerId) :
    removed peerId s.sent ≤ added peerId s.sent := by
  have hid := hbalanced peerId
  have hnone := hleaving peerId
  rw [added_append, removed_append] at hid
  omega

theorem Followed.conserved {config : Config} (output : StatisticsOutput) {s : ClientStatistics}
    (hs : Followed s) : Conserved config output s where
  balanced := by
    intro peerId
    have hid := hs.balanced peerId
    omega
  counted := by
    intro hprocess received hreceived
    rw [hprocess]
    obtain ⟨peers, hpeers, hget⟩ := handleMessages_spec (hs.orderly.of_prefix hreceived)
    refine ⟨peers, hpeers, ?_⟩
    intro peerId
    have hle := hs.orderly received hreceived peerId
    rw [hget, getD_listed]
    omega
  listed := by
    intro hprocess hnone
    rw [hprocess]
    obtain ⟨peers, hpeers, hget⟩ := handleMessages_spec hs.orderly
    refine ⟨peers, hpeers, ?_⟩
    intro peerId
    have hid := hs.balanced peerId
    rw [hnone, List.append_nil] at hid
    rw [IndexMap.contains, hget]
    split
    · simp only [Option.isSome_none, Bool.false_eq_true, false_iff]
      omega
    · simp only [Option.isSome_some, true_iff]
      omega

variable {config : Config} {output : StatisticsOutput} {s s' : ClientStatistics}

/-- The balance is kept by a step that tells what it does. -/
theorem balanced_iff (hs : Followed s) {messages collected : List StatisticsMessage}
    (hsent : s'.sent = s.sent ++ messages)
    (hcollected : s'.statisticsMessages = s.statisticsMessages ++ collected) :
    (∀ peerId, added peerId (s'.sent ++ s'.statisticsMessages) =
      removed peerId (s'.sent ++ s'.statisticsMessages) + s'.registered peerId) ↔
    ∀ peerId, s'.registered peerId + removed peerId (messages ++ collected) =
      s.registered peerId + added peerId (messages ++ collected) := by
  apply forall_congr'
  intro peerId
  have hid := hs.balanced peerId
  rw [hsent, hcollected]
  simp only [added_append, removed_append] at hid ⊢
  omega

theorem Followed.told (hs : Followed s) {messages collected : List StatisticsMessage}
    (hipv4 : s'.ipv4.Followed) (hipv6 : s'.ipv6.Followed)
    (hsent : s'.sent = s.sent ++ messages)
    (hcollected : s'.statisticsMessages = s.statisticsMessages ++ collected)
    (hmessages : messages = [] ∨ ∃ message, messages = [message])
    (hleaving : ∀ peerId, added peerId collected = 0)
    (htold : ∀ peerId, s'.registered peerId + removed peerId (messages ++ collected) =
      s.registered peerId + added peerId (messages ++ collected)) : Followed s' := by
  have hbalanced := (balanced_iff hs hsent hcollected).mpr htold
  have hleaving' : ∀ peerId, added peerId s'.statisticsMessages = 0 := by
    intro peerId
    rw [hcollected, added_append, hs.leaving, hleaving]
  refine ⟨hipv4, hipv6, hbalanced, hleaving', ?_⟩
  rcases hmessages with rfl | ⟨message, rfl⟩
  · rw [hsent, List.append_nil]
    exact hs.orderly
  · have hall := removed_sent_le hbalanced hleaving'
    rw [hsent] at hall ⊢
    exact hs.orderly.concat hall

/-- A step that tells nothing and changes no peers. -/
theorem Followed.silent (hs : Followed s) (hipv4 : s'.ipv4.Followed) (hipv6 : s'.ipv6.Followed)
    (hsent : s'.sent = s.sent) (hcollected : s'.statisticsMessages = s.statisticsMessages)
    (hregistered : ∀ peerId, s'.registered peerId = s.registered peerId) : Followed s' := by
  refine hs.told hipv4 hipv6 (hsent.trans (List.append_nil _).symm)
    (hcollected.trans (List.append_nil _).symm) (.inl rfl) (fun _ => rfl) ?_
  intro peerId
  rw [hregistered]
  rfl

/-- A family's step that both take together: it tells nothing. -/
theorem followed_shared {I : Type} [DecidableEq I]
    (hclients : config.statistics.peerClients = true)
    {m m' : TorrentMapShards I} {act : TorrentMapShards.Action I} (hs : m.Followed)
    (h : m.step config act = some m') (hact : act.shared = true) :
    m'.Followed ∧ ∀ peerId, m'.registered peerId = m.registered peerId := by
  cases act with
  | startRound | tick | updateAccessList =>
    refine ⟨TorrentMapShards.followed_step hs h trivial, ?_⟩
    exact (TorrentMapShards.told_iff_accounted hclients hs h).mpr trivial
  | _ => cases hact

theorem registered_congr (hipv4 : ∀ peerId, s'.ipv4.registered peerId = s.ipv4.registered peerId)
    (hipv6 : ∀ peerId, s'.ipv6.registered peerId = s.ipv6.registered peerId) (peerId : PeerId) :
    s'.registered peerId = s.registered peerId := by
  rw [registered, hipv4, hipv6]
  rfl

/-- A message is sent, and what is still to be sent gets shorter by it. -/
theorem followed_sendMessage (hs : Followed s) (h : step config output s .sendMessage = some s') :
    Followed s' := by
  simp only [step] at h
  split at h
  · rename_i message messages _ hmessages
    cases h
    have hsame : s.sent ++ [message] ++ messages = s.sent ++ s.statisticsMessages := by
      rw [hmessages, List.append_assoc]
      rfl
    have hbalanced : ∀ peerId, added peerId (s.sent ++ [message] ++ messages) =
        removed peerId (s.sent ++ [message] ++ messages) + s.registered peerId := by
      rw [hsame]
      exact hs.balanced
    have hleaving : ∀ peerId, added peerId messages = 0 := by
      intro peerId
      have hid := hs.leaving peerId
      rw [hmessages, ← List.singleton_append, added_append] at hid
      omega
    exact ⟨hs.ipv4, hs.ipv6, hbalanced, hleaving,
      hs.orderly.concat (removed_sent_le
        (s := { s with sent := s.sent ++ [message], statisticsMessages := messages })
        hbalanced hleaving)⟩
  · cases h

/-- The steps of the two families, the one place where the balance can be lost. -/
theorem step_accounted (hclients : config.statistics.peerClients = true) {act : Action}
    (hs : Followed s) (h : step config output s act = some s') (hactive : output.active = true) :
    (Accounted config s act → Followed s') ∧
      ((∀ peerId, added peerId (s'.sent ++ s'.statisticsMessages) =
        removed peerId (s'.sent ++ s'.statisticsMessages) + s'.registered peerId) →
          Accounted config s act) := by
  cases act with
  | ipv4 act =>
    simp only [step] at h
    split at h
    · cases h
    obtain ⟨ipv4, hstep, rfl⟩ := Option.map_eq_some_iff.mp h
    have htold := TorrentMapShards.told_iff_accounted hclients hs.ipv4 hstep
    constructor
    · intro haccounted
      refine hs.told (TorrentMapShards.followed_step hs.ipv4 hstep haccounted) hs.ipv6 rfl rfl
        (s.ipv4.announceMessages_cases act) (s.ipv4.added_cleaningMessages hclients act) ?_
      intro peerId
      have hid := htold.mpr haccounted peerId
      simp only [registered]
      omega
    · intro hbalanced
      apply htold.mp
      intro peerId
      have hid := (balanced_iff hs rfl rfl).mp hbalanced peerId
      simp only [registered] at hid
      omega
  | ipv6 act =>
    simp only [step] at h
    split at h
    · cases h
    obtain ⟨ipv6, hstep, rfl⟩ := Option.map_eq_some_iff.mp h
    have htold := TorrentMapShards.told_iff_accounted hclients hs.ipv6 hstep
    constructor
    · intro haccounted
      refine hs.told hs.ipv4 (TorrentMapShards.followed_step hs.ipv6 hstep haccounted) rfl rfl
        (s.ipv6.announceMessages_cases act) (s.ipv6.added_cleaningMessages hclients act) ?_
      intro peerId
      have hid := htold.mpr haccounted peerId
      simp only [registered]
      omega
    · intro hbalanced
      apply htold.mp
      intro peerId
      have hid := (balanced_iff hs rfl rfl).mp hbalanced peerId
      simp only [registered] at hid
      omega
  | startRound now =>
    refine ⟨fun _ => ?_, fun _ => trivial⟩
    simp only [step] at h
    split at h
    · obtain ⟨ipv4, hstep, rfl⟩ := Option.map_eq_some_iff.mp h
      obtain ⟨hipv4, hregistered⟩ := followed_shared hclients hs.ipv4 hstep rfl
      exact hs.silent hipv4 hs.ipv6 rfl rfl (registered_congr hregistered fun _ => rfl)
    · cases h
  | startIpv6 =>
    refine ⟨fun _ => ?_, fun _ => trivial⟩
    simp only [step] at h
    split at h
    · obtain ⟨ipv6, hstep, rfl⟩ := Option.map_eq_some_iff.mp h
      obtain ⟨hipv6, hregistered⟩ := followed_shared hclients hs.ipv6 hstep rfl
      exact hs.silent hs.ipv4 hipv6 rfl rfl (registered_congr (fun _ => rfl) hregistered)
    · cases h
  | finishRound =>
    refine ⟨fun _ => ?_, fun _ => trivial⟩
    simp only [step, hactive, if_true] at h
    split at h
    · cases h
      exact hs.silent hs.ipv4 hs.ipv6 rfl rfl fun _ => rfl
    · cases h
  | sendMessage => exact ⟨fun _ => followed_sendMessage hs h, fun _ => trivial⟩
  | sleep =>
    refine ⟨fun _ => ?_, fun _ => trivial⟩
    simp only [step] at h
    split at h
    · cases h
      exact hs.silent hs.ipv4 hs.ipv6 rfl rfl fun _ => rfl
    · cases h
  | tick | updateAccessList =>
    refine ⟨fun _ => ?_, fun _ => trivial⟩
    simp only [step, Option.bind_eq_bind, Option.bind_eq_some_iff] at h
    obtain ⟨ipv4, hstep4, ipv6, hstep6, h⟩ := h
    cases h
    obtain ⟨hipv4, hregistered4⟩ := followed_shared hclients hs.ipv4 hstep4 rfl
    obtain ⟨hipv6, hregistered6⟩ := followed_shared hclients hs.ipv6 hstep6 rfl
    exact hs.silent hipv4 hipv6 rfl rfl (registered_congr hregistered4 hregistered6)

/-- Whatever the interleaving: the counts are right in every state of a run if and
only if every step of it is accounted for. -/
theorem peer_clients_conserved_iff (hclients : config.statistics.peerClients = true)
    (hactive : output.active = true) (as : List Action) :
    AllSteps (step config output) (fun _ _ s' => Conserved config output s') init as ↔
      AllSteps (step config output) (fun s act _ => Accounted config s act) init as := by
  have hiff : ∀ {s act s'}, Followed s → step config output s act = some s' →
      (Conserved config output s' ↔ Accounted config s act) := by
    intro s act s' hs h
    obtain ⟨hkeep, hgive⟩ := step_accounted hclients hs h hactive
    refine ⟨fun hconserved => hgive ?_, fun haccounted => (hkeep haccounted).conserved output⟩
    intro peerId
    have hid := hconserved.balanced peerId
    omega
  refine allSteps_iff ?_ ?_ followed_init as
  · intro s act s' hs h hconserved
    exact (step_accounted hclients hs h hactive).1 ((hiff hs h).mp hconserved)
  · exact hiff

def clientConfig : Config := ⟨⟨30, 300⟩, ⟨true⟩, .off⟩

def htmlOutput : StatisticsOutput := ⟨5, false, true, false⟩

def clientRequest (event : AnnounceEvent) (peerId : PeerId) : AnnounceRequest where
  transactionId := 2
  infoHash := ⟨.replicate 20 0⟩
  peerId := peerId
  bytesLeft := 5
  event := event.toBytes
  peersWanted := 0
  port := 6882

/-- Both steps of an announce, always from the same address. -/
def announceRun (event : AnnounceEvent) (peerId : PeerId) : List Action :=
  [.ipv4 (.lookUp 0 (clientRequest event peerId) ⟨.replicate 4 127⟩ ⟨900⟩),
    .ipv4 (.announce 0 ⟨fun _ => 0⟩)]

theorem accounted_announce {s : ClientStatistics} {worker : Nat} {rng : Rng}
    {flight : Flight Ipv4AddrBytes} (hflight : s.ipv4.inFlight worker = some flight)
    (hget : s.ipv4.get flight.request.infoHash = some flight.torrentData)
    (hid : ∀ peer, s.ipv4.registry (flight.request.infoHash, flight.key) = some peer →
      peer.peerId = flight.request.peerId) :
    Accounted config s (.ipv4 (.announce worker rng)) := by
  intro flight' hflight'
  rw [hflight] at hflight'
  cases hflight'
  rw [if_pos hget]
  exact hid

/-- A peer stops, comes back, and is found to be expired. -/
def leavingRun : List Action :=
  announceRun .started ⟨.replicate 20 8⟩ ++ announceRun .stopped ⟨.replicate 20 8⟩ ++
    announceRun .started ⟨.replicate 20 8⟩ ++
    [.tick 901, .startRound 901, .ipv4 .lockRead, .ipv4 (.cleanTorrent ⟨0⟩)]

theorem peer_clients_conserved_leaving : clientConfig.statistics.peerClients = true ∧
    (run (step clientConfig htmlOutput) init leavingRun).map statisticsMessages =
      some [.peerRemoved ⟨.replicate 20 8⟩] ∧
    AllSteps (step clientConfig htmlOutput)
      (fun _ _ s' => Conserved clientConfig htmlOutput s') init leavingRun := by
  refine ⟨rfl, rfl, (peer_clients_conserved_iff rfl rfl _).mpr ?_⟩
  -- nobody is registered at first, nor after the stop
  refine .cons rfl trivial (.cons rfl (accounted_announce rfl rfl ?_) ?_)
  · intro peer hpeer
    cases hpeer
  refine .cons rfl trivial (.cons rfl (accounted_announce rfl rfl ?_) ?_)
  · intro peer hpeer
    cases hpeer
    rfl
  refine .cons rfl trivial (.cons rfl (accounted_announce rfl rfl ?_) ?_)
  · intro peer hpeer
    cases hpeer
  exact .cons rfl trivial (.cons rfl trivial (.cons rfl trivial (.cons rfl trivial trivial)))

/-- The id that stopped had never been added. -/
theorem peer_clients_unbalanced :
    ∃ s, run (step clientConfig htmlOutput) init (announceRun .started ⟨.replicate 20 8⟩ ++
        announceRun .stopped ⟨.replicate 20 9⟩) = some s ∧
      ¬ Conserved clientConfig htmlOutput s := by
  obtain ⟨s, hs, hadded, hremoved⟩ : ∃ s, run (step clientConfig htmlOutput) init
      (announceRun .started ⟨.replicate 20 8⟩ ++ announceRun .stopped ⟨.replicate 20 9⟩) = some s ∧
      added ⟨.replicate 20 9⟩ (s.sent ++ s.statisticsMessages) = 0 ∧
      removed ⟨.replicate 20 9⟩ (s.sent ++ s.statisticsMessages) = 1 := ⟨_, rfl, by decide, by decide⟩
  refine ⟨s, hs, fun hconserved => ?_⟩
  have hid := hconserved.balanced ⟨.replicate 20 9⟩
  rw [hadded, hremoved] at hid
  omega

end ClientStatistics

end Aquatic.Udp
