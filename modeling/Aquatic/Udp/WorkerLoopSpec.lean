import Aquatic.Udp.SendBuffersSpec
import Aquatic.Udp.SocketWorkerSpec
import Aquatic.Udp.WorkerLoop
import Mathlib.Data.List.Perm.Subperm

/-!
# The io_uring worker keeps on receiving

The timeout and the receive of each open socket are always in one place: to be submitted
again, in the submission queue, with the kernel, or completed for the last time. So there is
room for them in the queue, the worker never waits for more than is sure to come, and it never
stops listening. What it sends is a run of the cycle of its send buffers.
-/

namespace Aquatic.Udp.Uring
open Protocol Transition
set_option autoImplicit false

/-- The entries that the worker keeps submitting. -/
def standing (optSocketIpv4 optSocketIpv6 : Bool) : List Sqe :=
  [pulseTimeoutSqe] ++ (if optSocketIpv4 then [recvSqeIpv4] else []) ++
    (if optSocketIpv6 then [recvSqeIpv6] else [])

def openSockets (optSocketIpv4 optSocketIpv6 : Bool) : Nat :=
  optSocketIpv4.toNat + optSocketIpv6.toNat

/-- The entries that a worker may submit. -/
inductive Known (ringEntries : Nat) (optSocketIpv4 optSocketIpv6 : Bool) : Sqe → Prop
  | standing {sqe : Sqe} (h : sqe ∈ standing optSocketIpv4 optSocketIpv6) :
    Known ringEntries optSocketIpv4 optSocketIpv6 sqe
  | send (fd : SocketIdentifier) {index : Nat} (h : index < ringEntries) :
    Known ringEntries optSocketIpv4 optSocketIpv6 ⟨.sendMsg fd, .ofNat index⟩

section Entries
variable {optSocketIpv4 optSocketIpv6 : Bool} {ringEntries index : Nat} {sqe : Sqe}

theorem mem_standing : sqe ∈ standing optSocketIpv4 optSocketIpv6 ↔
    sqe = pulseTimeoutSqe ∨ (sqe = recvSqeIpv4 ∧ optSocketIpv4 = true) ∨
      (sqe = recvSqeIpv6 ∧ optSocketIpv6 = true) := by
  cases optSocketIpv4 <;> cases optSocketIpv6 <;> simp [standing]

theorem length_standing : (standing optSocketIpv4 optSocketIpv6).length =
    1 + openSockets optSocketIpv4 optSocketIpv6 := by
  cases optSocketIpv4 <;> cases optSocketIpv6 <;> rfl

theorem nodup_standing :
    ((standing optSocketIpv4 optSocketIpv6).map Sqe.userData).Nodup := by
  cases optSocketIpv4 <;> cases optSocketIpv6 <;> decide

theorem toNat_userData (hsmall : ringEntries < UInt16.size) (hindex : index < ringEntries) :
    (UInt64.ofNat index).toNat = index := by
  rw [UInt64.toNat_ofNat']
  unfold UInt16.size at hsmall
  exact Nat.mod_eq_of_lt (by omega)

/-- The number of a buffer is none of the numbers of the other entries. -/
theorem userData_ne (hsmall : ringEntries < UInt16.size) (hindex : index < ringEntries)
    (hsqe : sqe ∈ standing optSocketIpv4 optSocketIpv6) : UInt64.ofNat index ≠ sqe.userData := by
  intro heq
  have hnat := congrArg UInt64.toNat heq
  rw [toNat_userData hsmall hindex] at hnat
  unfold UInt16.size at hsmall
  have hlarge : 65536 ≤ sqe.userData.toNat := by
    rcases mem_standing.mp hsqe with rfl | ⟨rfl, _⟩ | ⟨rfl, _⟩ <;> decide
  omega

theorem userData_inj (hsmall : ringEntries < UInt16.size) {index' : Nat}
    (hindex : index < ringEntries) (hindex' : index' < ringEntries)
    (heq : UInt64.ofNat index = UInt64.ofNat index') : index = index' := by
  rw [← toNat_userData hsmall hindex, heq, toNat_userData hsmall hindex']

/-- Entries of the worker with the same number are the same, apart from the socket. -/
theorem eq_of_userData (hsmall : ringEntries < UInt16.size)
    (hknown : Known ringEntries optSocketIpv4 optSocketIpv6 sqe) {sqe' : Sqe}
    (hsqe' : sqe' ∈ standing optSocketIpv4 optSocketIpv6) (heq : sqe.userData = sqe'.userData) :
    sqe = sqe' := by
  cases hknown with
  | standing hsqe =>
    exact List.inj_on_of_nodup_map nodup_standing hsqe hsqe' heq
  | send fd hindex => exact absurd heq (userData_ne hsmall hindex hsqe')

end Entries

namespace SubmissionQueue
variable {capacity : Nat} {queue queue' : SubmissionQueue capacity}

theorem push_eq_some_iff {sqe : Sqe} :
    queue.push sqe = some queue' ↔ queue'.entries = queue.entries ++ [sqe] := by
  rw [push]
  constructor
  · intro h
    split at h
    · cases h
      rfl
    · cases h
  · intro h
    have hfits := queue'.fits
    rw [h] at hfits
    rw [dif_pos hfits]
    obtain ⟨entries, _⟩ := queue'
    cases h
    rfl

theorem exists_push (sqe : Sqe) (h : queue.entries.length < capacity) :
    ∃ queue', queue.push sqe = some queue' := by
  have hfits : (queue.entries ++ [sqe]).length ≤ capacity := by
    rw [List.length_append]
    exact h
  exact ⟨⟨_, hfits⟩, push_eq_some_iff.mpr rfl⟩

theorem pushAll_eq_some_iff {sqes : List Sqe} :
    queue.pushAll sqes = some queue' ↔ queue'.entries = queue.entries ++ sqes := by
  induction sqes generalizing queue with
  | nil =>
    rw [List.append_nil]
    constructor
    · intro h
      cases h
      rfl
    · intro h
      obtain ⟨entries, _⟩ := queue'
      obtain ⟨entries', _⟩ := queue
      cases h
      rfl
  | cons sqe sqes ih =>
    have hcons : queue.pushAll (sqe :: sqes) = (queue.push sqe).bind fun q => q.pushAll sqes := rfl
    rw [hcons, Option.bind_eq_some_iff]
    constructor
    · rintro ⟨q, hq, h⟩
      rw [ih.mp h, push_eq_some_iff.mp hq, List.append_assoc]
      rfl
    · intro h
      have hfits := queue'.fits
      rw [h] at hfits
      rw [List.length_append, List.length_cons] at hfits
      obtain ⟨q, hq⟩ : ∃ q, queue.push sqe = some q := exists_push sqe (by omega)
      refine ⟨q, hq, ih.mpr ?_⟩
      rw [push_eq_some_iff.mp hq, h, List.append_assoc]
      rfl

/-- The entries are pushed if, and only if, there is room for all of them. -/
theorem exists_pushAll_iff {sqes : List Sqe} : (∃ queue', queue.pushAll sqes = some queue') ↔
    queue.entries.length + sqes.length ≤ capacity := by
  constructor
  · rintro ⟨queue', h⟩
    rw [← List.length_append, ← pushAll_eq_some_iff.mp h]
    exact queue'.fits
  · intro h
    have hfits : (queue.entries ++ sqes).length ≤ capacity := by
      rw [List.length_append]
      exact h
    exact ⟨⟨_, hfits⟩, pushAll_eq_some_iff.mpr rfl⟩

end SubmissionQueue

namespace WorkerLoop
variable {ringEntries : Nat} {optSocketIpv4 optSocketIpv6 : Bool} {s s' : WorkerLoop ringEntries}

def final (completions : List Completion) : List Completion :=
  completions.filter fun cqe => !cqe.more

/-- The entries that are still to be completed for the last time, or whose last completion has
not been handled. -/
def owed (s : WorkerLoop ringEntries) : List UInt64 :=
  (s.resubmittableSqeBuf ++ s.submissionQueue.entries ++ s.armed).map Sqe.userData ++
    (final s.completions).map Completion.userData

def expected (optSocketIpv4 optSocketIpv6 : Bool) (inFlight : List InFlight) : List UInt64 :=
  (standing optSocketIpv4 optSocketIpv6).map Sqe.userData ++
    (indices inFlight).map UInt64.ofNat

def isSend (sqe : Sqe) : Bool :=
  match sqe.opcode with
  | .sendMsg _ => true
  | .recvMsgMulti _ => false
  | .timeout _ => false

/-- What holds at each place of the loop. -/
def AtPhase (s : WorkerLoop ringEntries) : LoopPhase → Prop
  | .resubmitting => s.submissionQueue.entries = [] ∧ s.cycle.phase = .sending
  | .sending attempts =>
    s.resubmittableSqeBuf = [] ∧ s.submissionQueue.entries.length + attempts ≤ ringEntries ∧
      s.numSendAdded = s.submissionQueue.entries.countP isSend ∧ s.cycle.phase = .sending
  | .waiting want =>
    s.resubmittableSqeBuf = [] ∧ s.submissionQueue.entries = [] ∧
      want = max s.numSendAdded 1 ∧
      s.numSendAdded ≤ s.armed.countP isSend + s.completions.length ∧ s.cycle.phase = .completing
  | .completing left =>
    s.submissionQueue.entries = [] ∧ left ≤ s.completions.length ∧ s.cycle.phase = .completing

/-- What the completion of a response is to be counted as. -/
def countsOf (sent : InFlight × Int32) : List Added :=
  if sent.2 < 0 then []
  else
    sentResponse sent.1.addr.isIpv4 (ResponseType.fromResponse sent.1.response).counter
      sent.2.toInt64.toUInt64

structure Sound (optSocketIpv4 optSocketIpv6 : Bool) (s : WorkerLoop ringEntries) : Prop where
  cycle : s.cycle.Sound ringEntries
  socketIpv4 : s.cycle.optSocketIpv4 = optSocketIpv4
  socketIpv6 : s.cycle.optSocketIpv6 = optSocketIpv6
  owed : s.owed.Perm (expected optSocketIpv4 optSocketIpv6 s.cycle.inFlight)
  resubmitted : ∀ sqe ∈ s.resubmittableSqeBuf, sqe ∈ standing optSocketIpv4 optSocketIpv6
  submitted : ∀ sqe ∈ s.submissionQueue.entries ++ s.armed,
    Known ringEntries optSocketIpv4 optSocketIpv6 sqe
  posted : ∀ cqe ∈ s.completions, ∃ sqe, Known ringEntries optSocketIpv4 optSocketIpv6 sqe ∧
    completes sqe cqe = true
  sendable : ∀ answer ∈ s.cycle.localResponses,
    (s.cycle.chooseSocket answer.1).isSome = true
  atPhase : s.AtPhase s.phase
  counted : s.counted.filter isSentCounter =
    if s.statisticsActive then s.sent.flatMap countsOf else []

theorem sound_init (optSocketIpv4 optSocketIpv6 : Bool) (worker : SocketWorker)
    (maxPeerAge : UInt32) (statisticsActive : Bool) :
    (init ringEntries optSocketIpv4 optSocketIpv6 worker maxPeerAge statisticsActive).Sound
      optSocketIpv4 optSocketIpv6 where
  cycle := Cycle.sound_init ringEntries optSocketIpv4 optSocketIpv6
  socketIpv4 := rfl
  socketIpv6 := rfl
  owed := by
    simp [owed, expected, init, SubmissionQueue.empty, final, indices, Cycle.init, standing]
  resubmitted := fun _ hsqe => hsqe
  submitted := by
    intro sqe hsqe
    cases hsqe
  posted := by
    intro cqe hcqe
    cases hcqe
  sendable := by
    intro answer hanswer
    cases hanswer
  atPhase := ⟨rfl, rfl⟩
  counted := by
    cases statisticsActive <;> rfl

theorem Sound.index_lt (h : s.Sound optSocketIpv4 optSocketIpv6) {e : InFlight}
    (he : e ∈ s.cycle.inFlight) : e.index < ringEntries := by
  obtain ⟨slot, hslot, _⟩ := h.cycle.held.carried e he
  obtain ⟨hlt, _⟩ := List.getElem?_eq_some_iff.mp hslot
  rw [← h.cycle.length]
  exact hlt

/-- No entry is in two places. -/
theorem Sound.nodup (hsmall : ringEntries < UInt16.size)
    (h : s.Sound optSocketIpv4 optSocketIpv6) : s.owed.Nodup := by
  refine h.owed.nodup_iff.mpr (List.nodup_append.mpr ⟨nodup_standing, ?_, ?_⟩)
  · refine h.cycle.held.distinct.map_on ?_
    intro i hi j hj heq
    obtain ⟨e, he, rfl⟩ := List.mem_map.mp hi
    obtain ⟨e', he', rfl⟩ := List.mem_map.mp hj
    exact userData_inj hsmall (h.index_lt he) (h.index_lt he') heq
  · intro userData hstanding userData' hsend heq
    obtain ⟨sqe, hsqe, rfl⟩ := List.mem_map.mp hstanding
    obtain ⟨index, hindex, rfl⟩ := List.mem_map.mp hsend
    obtain ⟨e, he, rfl⟩ := List.mem_map.mp hindex
    exact userData_ne hsmall (h.index_lt he) hsqe heq.symm

theorem not_isSend {sqe : Sqe} (h : sqe ∈ standing optSocketIpv4 optSocketIpv6) :
    isSend sqe = false := by
  rcases mem_standing.mp h with rfl | ⟨rfl, _⟩ | ⟨rfl, _⟩ <;> rfl

theorem sound_resubmit (h : s.Sound optSocketIpv4 optSocketIpv6)
    (hphase : s.phase = .resubmitting) (hstep : s.resubmit = some s') :
    s'.Sound optSocketIpv4 optSocketIpv6 := by
  have hat := h.atPhase
  rw [hphase] at hat
  obtain ⟨hentries, hsending⟩ := hat
  obtain ⟨queue, hqueue, hstep⟩ := Option.bind_eq_some_iff.mp hstep
  cases hstep
  have hpushed := SubmissionQueue.pushAll_eq_some_iff.mp hqueue
  rw [hentries, List.nil_append] at hpushed
  have howed := h.owed
  rw [owed, hentries, List.append_nil] at howed
  refine ⟨h.cycle, h.socketIpv4, h.socketIpv6, ?_, ?_, ?_, h.posted, h.sendable, ?_, h.counted⟩
  · rw [owed, List.nil_append, hpushed]
    exact howed
  · intro sqe hsqe
    cases hsqe
  · intro sqe hsqe
    rcases List.mem_append.mp hsqe with hsqe | hsqe
    · rw [hpushed] at hsqe
      exact .standing (h.resubmitted sqe hsqe)
    · exact h.submitted sqe (List.mem_append_right _ hsqe)
  · refine ⟨rfl, ?_, ?_, hsending⟩
    · have hfits := queue.fits
      simp only
      omega
    · refine (List.countP_eq_zero.mpr ?_).symm
      intro sqe hsqe
      rw [hpushed] at hsqe
      rw [not_isSend (h.resubmitted sqe hsqe)]
      exact Bool.false_ne_true

theorem expected_cons (e : InFlight) (inFlight : List InFlight) :
    (expected optSocketIpv4 optSocketIpv6 (e :: inFlight)).Perm
      (UInt64.ofNat e.index :: expected optSocketIpv4 optSocketIpv6 inFlight) :=
  List.perm_middle

/-- What a turn of the sending loop does: it ends the loop, or the cycle of the send buffers
takes a response off the queue, which may have been put into a buffer. -/
theorem send_cases {attempts : Nat} (hstep : s.send attempts = some s') :
    s' = { s with phase := .sending 0 } ∨
    ∃ cycle answer, s.cycle.send = some cycle ∧ cycle.phase = s.cycle.phase ∧
      cycle.optSocketIpv4 = s.cycle.optSocketIpv4 ∧ cycle.optSocketIpv6 = s.cycle.optSocketIpv6 ∧
      s.cycle.localResponses = answer :: cycle.localResponses ∧
      ((∃ (entry : Entry) (sendToIpv4Socket : Bool) (queue : SubmissionQueue ringEntries),
        cycle.inFlight = ⟨entry.userData, sendToIpv4Socket, answer.1, answer.2⟩ ::
          s.cycle.inFlight ∧
        queue.entries = s.submissionQueue.entries ++ [entry.sqe] ∧
        s' = { s with
          cycle, submissionQueue := queue, numSendAdded := s.numSendAdded + 1
          phase := .sending attempts }) ∨
      (cycle.inFlight = s.cycle.inFlight ∧ s' = { s with cycle, phase := .sending attempts })) := by
  rw [send] at hstep
  split at hstep
  · cases hstep
    exact .inl rfl
  rename_i addr response localResponses hresponses
  obtain ⟨sendToIpv4Socket, hsocket, hstep⟩ := Option.bind_eq_some_iff.mp hstep
  obtain ⟨⟨sendBuffers, result⟩, hprepared, hstep⟩ := Option.bind_eq_some_iff.mp hstep
  rcases SendBuffers.prepareEntry_cases hprepared with ⟨rfl, rfl, _⟩ |
    ⟨index, slot, slot', _, ⟨fd, rfl, _⟩ | ⟨rfl, _⟩⟩
  · cases hstep
    left
    rw [← hresponses]
  · obtain ⟨queue, hqueue, hstep⟩ := Option.bind_eq_some_iff.mp hstep
    cases hstep
    have hsend : s.cycle.send = some { s.cycle with
        sendBuffers
        localResponses
        inFlight := ⟨index, sendToIpv4Socket, addr, response⟩ :: s.cycle.inFlight
        taken := s.cycle.taken ++ [(addr, response)] } := by
      rw [Cycle.send, hresponses]
      simp only [hsocket, hprepared, Option.bind_eq_bind, Option.bind_some]
      rfl
    exact .inr ⟨_, (addr, response), hsend, rfl, rfl, rfl, hresponses,
      .inl ⟨_, _, queue, rfl, SubmissionQueue.push_eq_some_iff.mp hqueue, rfl⟩⟩
  · cases hstep
    have hsend : s.cycle.send = some { s.cycle with
        sendBuffers, localResponses, taken := s.cycle.taken ++ [(addr, response)] } := by
      rw [Cycle.send, hresponses]
      simp only [hsocket, hprepared, Option.bind_eq_bind, Option.bind_some]
      rfl
    exact .inr ⟨_, (addr, response), hsend, rfl, rfl, rfl, hresponses, .inr ⟨rfl, rfl⟩⟩

theorem perm_pushed (resubmittable entries armed : List Sqe) (sqe : Sqe)
    (completed : List UInt64) :
    ((resubmittable ++ (entries ++ [sqe]) ++ armed).map Sqe.userData ++ completed).Perm
      (sqe.userData :: ((resubmittable ++ entries ++ armed).map Sqe.userData ++ completed)) := by
  have hmiddle : ((resubmittable ++ entries).map Sqe.userData ++
      sqe.userData :: (armed.map Sqe.userData ++ completed)).Perm
      (sqe.userData :: ((resubmittable ++ entries).map Sqe.userData ++
        (armed.map Sqe.userData ++ completed))) := List.perm_middle
  simpa [List.append_assoc] using hmiddle

theorem sendable_of_eq {cycle cycle' : Cycle} (hipv4 : cycle'.optSocketIpv4 = cycle.optSocketIpv4)
    (hipv6 : cycle'.optSocketIpv6 = cycle.optSocketIpv6) (addr : CanonicalSocketAddr) :
    cycle'.chooseSocket addr = cycle.chooseSocket addr := by
  rw [Cycle.chooseSocket, Cycle.chooseSocket, hipv4, hipv6]

theorem sound_send (h : s.Sound optSocketIpv4 optSocketIpv6) {attempts : Nat}
    (hphase : s.phase = .sending (attempts + 1)) (hstep : s.send attempts = some s') :
    s'.Sound optSocketIpv4 optSocketIpv6 := by
  have hat := h.atPhase
  rw [hphase] at hat
  obtain ⟨hresubmit, hspace, hadded, hsending⟩ := hat
  rcases send_cases hstep with rfl | ⟨cycle, answer, hsend, hsame, hipv4, hipv6, hresponses,
    ⟨entry, sendToIpv4Socket, queue, hinFlight, hqueue, rfl⟩ | ⟨hinFlight, rfl⟩⟩
  · exact ⟨h.cycle, h.socketIpv4, h.socketIpv6, h.owed, h.resubmitted, h.submitted, h.posted,
      h.sendable, ⟨hresubmit, Nat.le_of_add_right_le hspace, hadded, hsending⟩, h.counted⟩
  · have hcycle := Cycle.sound_send h.cycle hsending hsend
    have hindex : entry.userData < ringEntries := by
      have hmem : ⟨entry.userData, sendToIpv4Socket, answer.1, answer.2⟩ ∈ cycle.inFlight := by
        rw [hinFlight]
        exact List.mem_cons_self
      obtain ⟨slot, hslot, _⟩ := hcycle.held.carried _ hmem
      rw [← hcycle.length]
      exact (List.getElem?_eq_some_iff.mp hslot).1
    refine ⟨hcycle, hipv4.trans h.socketIpv4, hipv6.trans h.socketIpv6, ?_, h.resubmitted, ?_,
      h.posted, ?_, ⟨hresubmit, ?_, ?_, hsame.trans hsending⟩, h.counted⟩
    · rw [hinFlight]
      refine List.Perm.trans ?_ (expected_cons _ _).symm
      rw [owed, hqueue]
      exact (perm_pushed ..).trans (h.owed.cons _)
    · intro sqe hsqe
      rw [hqueue] at hsqe
      rcases List.mem_append.mp hsqe with hsqe | hsqe
      · rcases List.mem_append.mp hsqe with hsqe | hsqe
        · exact h.submitted sqe (List.mem_append_left _ hsqe)
        · rw [List.mem_singleton.mp hsqe]
          exact .send entry.fd hindex
      · exact h.submitted sqe (List.mem_append_right _ hsqe)
    · intro answer' hanswer'
      rw [sendable_of_eq hipv4 hipv6]
      exact h.sendable _ (hresponses ▸ List.mem_cons_of_mem _ hanswer')
    · rw [hqueue, List.length_append, List.length_singleton]
      omega
    · rw [hqueue, List.countP_append, ← hadded]
      rfl
  · have hcycle := Cycle.sound_send h.cycle hsending hsend
    refine ⟨hcycle, hipv4.trans h.socketIpv4, hipv6.trans h.socketIpv6, ?_, h.resubmitted,
      h.submitted, h.posted, ?_,
      ⟨hresubmit, Nat.le_of_succ_le hspace, hadded, hsame.trans hsending⟩, h.counted⟩
    · rw [hinFlight]
      exact h.owed
    · intro answer' hanswer'
      rw [sendable_of_eq hipv4 hipv6]
      exact h.sendable _ (hresponses ▸ List.mem_cons_of_mem _ hanswer')

theorem sound_submit (h : s.Sound optSocketIpv4 optSocketIpv6) (hphase : s.phase = .sending 0) :
    s.submit.Sound optSocketIpv4 optSocketIpv6 := by
  have hat := h.atPhase
  rw [hphase] at hat
  obtain ⟨hresubmit, _, hadded, hsending⟩ := hat
  have hcycle : s.cycle.step .submit = some { s.cycle with phase := .completing } := if_pos hsending
  refine ⟨Cycle.sound_step h.cycle hcycle, h.socketIpv4, h.socketIpv6, ?_, h.resubmitted, ?_,
    h.posted, ?_, ⟨hresubmit, rfl, rfl, ?_, rfl⟩, h.counted⟩
  · have howed := h.owed
    rw [owed] at howed ⊢
    refine List.Perm.trans (List.Perm.append_right _ (List.Perm.map _ ?_)) howed
    simp only [submit, SubmissionQueue.empty, List.append_nil, List.append_assoc]
    exact List.perm_append_comm.append_left _
  · intro sqe hsqe
    apply h.submitted
    rw [submit, SubmissionQueue.empty, List.nil_append] at hsqe
    rcases List.mem_append.mp hsqe with hsqe | hsqe
    · exact List.mem_append_right _ hsqe
    · exact List.mem_append_left _ hsqe
  · intro answer hanswer
    exact h.sendable answer hanswer
  · simp only [submit, List.countP_append]
    omega

theorem sound_finish (h : s.Sound optSocketIpv4 optSocketIpv6) (hphase : s.phase = .completing 0) :
    s.finish.Sound optSocketIpv4 optSocketIpv6 := by
  have hat := h.atPhase
  rw [hphase] at hat
  obtain ⟨hentries, _, hcompleting⟩ := hat
  have hcycle : s.cycle.step .reset = some { s.cycle with
      sendBuffers := s.cycle.sendBuffers.resetLikelyNextFreeIndex, phase := .sending } :=
    if_pos hcompleting
  exact ⟨Cycle.sound_step h.cycle hcycle, h.socketIpv4, h.socketIpv6, h.owed, h.resubmitted,
    h.submitted, h.posted, h.sendable, ⟨hentries, rfl⟩, h.counted⟩

theorem perm_completed {resubmittable entries armed : List Sqe} {sqe : Sqe} (h : sqe ∈ armed)
    (completed : List UInt64) :
    ((resubmittable ++ entries ++ armed.erase sqe).map Sqe.userData ++
      (completed ++ [sqe.userData])).Perm
      ((resubmittable ++ entries ++ armed).map Sqe.userData ++ completed) := by
  have hleft : ((resubmittable ++ entries ++ armed.erase sqe).map Sqe.userData ++
      (completed ++ [sqe.userData])).Perm
      (((resubmittable ++ entries ++ armed.erase sqe).map Sqe.userData ++
        [sqe.userData]) ++ completed) :=
    (List.perm_append_comm.append_left _).trans (List.Perm.of_eq (List.append_assoc ..).symm)
  refine hleft.trans (List.Perm.append_right _ ?_)
  have hright : ((resubmittable ++ entries) ++ (armed.erase sqe ++ [sqe])).Perm
      (resubmittable ++ entries ++ armed) :=
    (List.perm_append_comm.trans (List.perm_cons_erase h).symm).append_left _
  have hmap := hright.map Sqe.userData
  rw [← List.append_assoc, List.map_append] at hmap
  exact hmap

theorem sound_complete (h : s.Sound optSocketIpv4 optSocketIpv6) {sqe : Sqe} {cqe : Completion}
    (hstep : s.complete sqe cqe = some s') : s'.Sound optSocketIpv4 optSocketIpv6 := by
  obtain ⟨⟨harmed, hcompletes⟩, heq⟩ := Option.ite_none_right_eq_some.mp hstep
  cases heq
  have hperm := List.perm_cons_erase harmed
  have huserData : cqe.userData = sqe.userData :=
    eq_of_beq (Bool.and_eq_true_iff.mp hcompletes).1
  refine ⟨h.cycle, h.socketIpv4, h.socketIpv6, ?_, h.resubmitted, ?_, ?_, h.sendable, ?_,
    h.counted⟩
  · refine List.Perm.trans ?_ h.owed
    cases hmore : cqe.more with
    | true =>
      simp [owed, final, hmore]
    | false =>
      have hfinal : (final (s.completions ++ [cqe])).map Completion.userData =
          (final s.completions).map Completion.userData ++ [sqe.userData] := by
        simp [final, hmore, huserData]
      rw [owed, owed, hfinal]
      exact perm_completed harmed _
  · intro other hother
    refine h.submitted other ?_
    rcases List.mem_append.mp hother with hother | hother
    · exact List.mem_append_left _ hother
    · refine List.mem_append_right _ ?_
      split at hother
      · exact hother
      · exact List.mem_of_mem_erase hother
  · intro other hother
    rcases List.mem_append.mp hother with hother | hother
    · exact h.posted other hother
    · rw [List.mem_singleton.mp hother]
      exact ⟨sqe, h.submitted sqe (List.mem_append_right _ harmed), hcompletes⟩
  · have hat := h.atPhase
    cases hphase : s.phase with
    | resubmitting =>
      rw [hphase] at hat
      exact hat
    | sending attempts =>
      rw [hphase] at hat
      exact hat
    | waiting want =>
      rw [hphase] at hat
      obtain ⟨hresubmit, hentries, hwant, hadded, hcompleting⟩ := hat
      refine ⟨hresubmit, hentries, hwant, ?_, hcompleting⟩
      have hcount := hperm.countP_eq isSend
      rw [List.countP_cons] at hcount
      simp only [List.length_append, List.length_singleton]
      split <;> split at hcount <;> omega
    | completing left =>
      rw [hphase] at hat
      obtain ⟨hentries, hleft, hcompleting⟩ := hat
      refine ⟨hentries, ?_, hcompleting⟩
      simp only [List.length_append]
      omega

/-- What comes in on a socket can be answered. -/
theorem sendable_received {cycle : Cycle} {src : SocketAddr}
    (hipv4 : socketOf src = .v4 → cycle.optSocketIpv4 = true)
    (hipv6 : socketOf src = .v6 → cycle.optSocketIpv6 = true) :
    (cycle.chooseSocket (.new src)).isSome = true := by
  obtain ⟨ip, port⟩ := src
  cases ip with
  | v4 addr =>
    rw [Cycle.chooseSocket, hipv4 rfl]
    rfl
  | v6 addr =>
    rw [Cycle.chooseSocket, hipv6 rfl]
    split
    · split <;> rfl
    · rfl

theorem filter_receivedCounts (worker : SocketWorker) (datagram : Datagram) (len : UInt64) :
    (receivedCounts worker datagram len).filter isSentCounter = [] := by
  rw [receivedCounts]
  split <;> rfl

/-- What handling a receive does. -/
theorem handleRecv_cases (s : WorkerLoop ringEntries) (cqe : Completion) (recvSqe : Sqe) :
    ∃ cycle worker counts, s.handleRecv cqe recvSqe = { s with
        cycle, worker, counted := s.counted ++ counts
        resubmittableSqeBuf :=
          s.resubmittableSqeBuf ++ if cqe.more then [] else [recvSqe] } ∧
      counts.filter isSentCounter = [] ∧
      (cycle = s.cycle ∨ ∃ datagram response, cqe.message = some datagram ∧
        cycle = s.cycle.receive (.new datagram.src) response) := by
  have hcases : ∃ answer worker counts,
      s.handleRecvCqe cqe = (answer, { s with worker, counted := s.counted ++ counts }) ∧
      counts.filter isSentCounter = [] ∧
      ∀ addr response, answer = some (addr, response) →
        ∃ datagram, cqe.message = some datagram ∧ addr = .new datagram.src := by
    rw [handleRecvCqe]
    split
    · exact ⟨none, s.worker, [], by simp, rfl, by simp⟩
    split
    · exact ⟨none, s.worker, [], by simp, rfl, by simp⟩
    · rename_i datagram hdatagram
      refine ⟨_, _, _, rfl, ?_, ?_⟩
      · split
        · exact filter_receivedCounts ..
        · rfl
      · intro addr response hanswer
        have hreceive : Backend.uring.receive s.worker datagram =
            (some (addr, response), (Backend.uring.receive s.worker datagram).2) :=
          Prod.ext hanswer rfl
        exact ⟨datagram, hdatagram, SocketWorker.addr_of_receive hreceive⟩
  obtain ⟨answer, worker, counts, hhandled, hcounts, hanswer⟩ := hcases
  rw [handleRecv, hhandled]
  cases answer with
  | none =>
    refine ⟨s.cycle, worker, counts, ?_, hcounts, .inl rfl⟩
    cases cqe.more <;> simp
  | some answer =>
    obtain ⟨addr, response⟩ := answer
    obtain ⟨datagram, hdatagram, rfl⟩ := hanswer addr response rfl
    refine ⟨_, worker, counts, ?_, hcounts, .inr ⟨datagram, response, hdatagram, rfl⟩⟩
    cases cqe.more <;> simp

/-- The state in which a completion is handled. -/
def taking (s : WorkerLoop ringEntries) (completions : List Completion) (left : Nat) :
    WorkerLoop ringEntries :=
  { s with completions, phase := .completing left }

theorem perm_resubmitted (resubmittable entries armed : List Sqe) (sqe : Sqe)
    (completed : List UInt64) :
    ((resubmittable ++ [sqe] ++ entries ++ armed).map Sqe.userData ++ completed).Perm
      ((resubmittable ++ entries ++ armed).map Sqe.userData ++ (sqe.userData :: completed)) := by
  refine List.Perm.trans ?_ List.perm_middle.symm
  simp [List.append_assoc]

theorem complete_eq {cycle : Cycle} {e : InFlight} (he : e ∈ cycle.inFlight)
    {sendBuffers : SendBuffers}
    (hmarked : cycle.sendBuffers.markBufferAsFree e.index = some sendBuffers) :
    cycle.complete e.index = some { cycle with
      sendBuffers
      inFlight := cycle.inFlight.filter fun entry => entry.index ≠ e.index } := by
  rw [Cycle.complete, if_pos (List.mem_map_of_mem he), hmarked]
  rfl

/-- A completion counts the response that its buffer was handed out for. -/
theorem countSent_eq {cqe : Completion} {e : InFlight} {slot : Slot}
    (hslot : s.cycle.sendBuffers.buffers[cqe.userData.toNat]? = some slot)
    (hcarries : slot.Carries e.sendToIpv4Socket e.addr e.response) :
    s.countSent cqe = some (if s.statisticsActive then countsOf (e, cqe.result) else []) := by
  rw [countSent, countsOf]
  by_cases hresult : cqe.result < 0
  · simp only [if_pos hresult, ite_self]
  · rw [if_neg hresult, if_neg hresult]
    cases s.statisticsActive with
    | true =>
      simp only [SendBuffers.responseTypeAndIpv4, hslot, Option.bind_eq_bind, Option.bind_some,
        Option.pure_def, if_true, hcarries.responseType, hcarries.receiverIsIpv4]
    | false => rfl

theorem phase_handleRecv (s : WorkerLoop ringEntries) (cqe : Completion) (recvSqe : Sqe) :
    (s.handleRecv cqe recvSqe).phase = s.phase := by
  obtain ⟨cycle, worker, counts, heq, _⟩ := handleRecv_cases s cqe recvSqe
  rw [heq]

theorem filter_index {inFlight : List InFlight} (hdistinct : (indices inFlight).Nodup)
    {e : InFlight} (he : e ∈ inFlight) :
    (inFlight.filter fun entry => entry.index = e.index) = [e] := by
  induction inFlight with
  | nil => cases he
  | cons e' inFlight ih =>
    obtain ⟨hnotMem, hdistinct⟩ := List.nodup_cons.mp hdistinct
    rcases List.mem_cons.mp he with rfl | he
    · rw [List.filter_cons_of_pos (by simp), List.filter_eq_nil_iff.mpr]
      intro entry hentry heq
      exact hnotMem (of_decide_eq_true heq ▸ List.mem_map_of_mem hentry)
    · have hne : e'.index ≠ e.index := fun heq => hnotMem (heq ▸ List.mem_map_of_mem he)
      rw [List.filter_cons_of_neg (by simpa using hne)]
      exact ih hdistinct he

/-- An entry that is completed is no longer expected to be. -/
theorem expected_filter {inFlight : List InFlight} (hdistinct : (indices inFlight).Nodup)
    {e : InFlight} (he : e ∈ inFlight) :
    (expected optSocketIpv4 optSocketIpv6 inFlight).Perm (UInt64.ofNat e.index ::
      expected optSocketIpv4 optSocketIpv6
        (inFlight.filter fun entry => entry.index ≠ e.index)) := by
  have hsplit := List.filter_append_perm (fun entry : InFlight => entry.index = e.index) inFlight
  rw [filter_index hdistinct he] at hsplit
  have hmap := ((hsplit.symm.map InFlight.index).map UInt64.ofNat).append_left
    ((standing optSocketIpv4 optSocketIpv6).map Sqe.userData)
  refine hmap.trans (List.perm_middle.trans ?_)
  simp [expected, indices]

theorem filter_countsOf (sent : InFlight × Int32) :
    (countsOf sent).filter isSentCounter = countsOf sent := by
  obtain ⟨⟨index, sendToIpv4Socket, addr, response⟩, result⟩ := sent
  rw [countsOf]
  split
  · rfl
  · cases response <;> rfl

section Handling
variable {cqe : Completion} {completions : List Completion} {left : Nat}
variable (h : s.Sound optSocketIpv4 optSocketIpv6) (hphase : s.phase = .completing (left + 1))
variable (hcompletions : s.completions = cqe :: completions)
include h hphase hcompletions

theorem Sound.at_taking : (s.taking completions left).AtPhase (.completing left) := by
  have hat := h.atPhase
  rw [hphase, AtPhase, hcompletions] at hat
  obtain ⟨hentries, hleft, hcompleting⟩ := hat
  exact ⟨hentries, Nat.le_of_succ_le_succ hleft, hcompleting⟩

omit hphase in
theorem Sound.posted_taking : ∀ other ∈ completions, ∃ sqe,
    Known ringEntries optSocketIpv4 optSocketIpv6 sqe ∧ completes sqe other = true := by
  intro other hother
  exact h.posted other (hcompletions ▸ List.mem_cons_of_mem _ hother)

omit hphase in
/-- An entry that is completed for the last time goes back to those to be submitted. -/
theorem Sound.owed_taking {sqe : Sqe} (huserData : cqe.userData = sqe.userData) :
    (((s.resubmittableSqeBuf ++ if cqe.more then [] else [sqe]) ++
      s.submissionQueue.entries ++ s.armed).map Sqe.userData ++
        (final completions).map Completion.userData).Perm
      (expected optSocketIpv4 optSocketIpv6 s.cycle.inFlight) := by
  have howed := h.owed
  rw [WorkerLoop.owed, hcompletions, final] at howed
  cases hmore : cqe.more with
  | true =>
    rw [List.filter_cons_of_neg (by simp [hmore])] at howed
    simpa [final] using howed
  | false =>
    rw [List.filter_cons_of_pos (by simp [hmore]), List.map_cons, huserData] at howed
    exact (perm_resubmitted ..).trans howed

theorem sound_handleRecv {sqe : Sqe} (hsqe : sqe ∈ standing optSocketIpv4 optSocketIpv6)
    (huserData : cqe.userData = sqe.userData)
    (hmessage : ∀ datagram, cqe.message = some datagram →
      (s.cycle.chooseSocket (.new datagram.src)).isSome = true) :
    ((s.taking completions left).handleRecv cqe sqe).Sound optSocketIpv4 optSocketIpv6 := by
  obtain ⟨hentries, hleft, hcompleting⟩ := h.at_taking hphase hcompletions
  obtain ⟨cycle, worker, counts, heq, hcounts, hcycle⟩ :=
    handleRecv_cases (s.taking completions left) cqe sqe
  rw [heq]
  have hsound : cycle.Sound ringEntries ∧ cycle.optSocketIpv4 = optSocketIpv4 ∧
      cycle.optSocketIpv6 = optSocketIpv6 ∧ cycle.inFlight = s.cycle.inFlight ∧
      cycle.phase = .completing ∧
      ∀ answer ∈ cycle.localResponses, (cycle.chooseSocket answer.1).isSome = true := by
    rcases hcycle with rfl | ⟨datagram, response, hdatagram, rfl⟩
    · exact ⟨h.cycle, h.socketIpv4, h.socketIpv6, rfl, hcompleting, h.sendable⟩
    · have hreceive : s.cycle.step (.receive (.new datagram.src) response) =
          some (s.cycle.receive (.new datagram.src) response) := if_pos hcompleting
      refine ⟨Cycle.sound_step h.cycle hreceive, h.socketIpv4, h.socketIpv6, rfl, hcompleting, ?_⟩
      · intro answer hanswer
        rcases List.mem_append.mp hanswer with hanswer | hanswer
        · exact h.sendable answer hanswer
        · rw [List.mem_singleton.mp hanswer]
          exact hmessage datagram hdatagram
  obtain ⟨hsound, hipv4, hipv6, hinFlight, hcompleting, hsendable⟩ := hsound
  refine ⟨hsound, hipv4, hipv6, ?_, ?_, h.submitted, h.posted_taking hcompletions,
    hsendable, ⟨hentries, hleft, hcompleting⟩, ?_⟩
  · rw [hinFlight]
    exact h.owed_taking hcompletions huserData
  · intro other hother
    rcases List.mem_append.mp hother with hother | hother
    · exact h.resubmitted other hother
    · split at hother
      · cases hother
      · rw [List.mem_singleton.mp hother]
        exact hsqe
  · rw [List.filter_append, hcounts, List.append_nil]
    exact h.counted

theorem sound_handlePulse (huserData : cqe.userData = userDataPulseTimeout)
    (hmore : cqe.more = false) (clocks : Clocks) :
    ((s.taking completions left).handlePulse clocks).Sound optSocketIpv4 optSocketIpv6 := by
  have huserData : cqe.userData = pulseTimeoutSqe.userData := huserData
  have howed := h.owed_taking hcompletions huserData
  rw [hmore] at howed
  refine ⟨h.cycle, h.socketIpv4, h.socketIpv6, howed, ?_, h.submitted,
    h.posted_taking hcompletions, h.sendable, h.at_taking hphase hcompletions, h.counted⟩
  intro other hother
  rcases List.mem_append.mp hother with hother | hother
  · exact h.resubmitted other hother
  · rw [List.mem_singleton.mp hother]
    exact mem_standing.mpr (.inl rfl)

theorem handleSent_spec (hsmall : ringEntries < UInt16.size) {index : Nat}
    (hindex : index < ringEntries) (huserData : cqe.userData = .ofNat index)
    (hmore : cqe.more = false) :
    ∃ s', (s.taking completions left).handleSent cqe = some s' ∧
      s'.Sound optSocketIpv4 optSocketIpv6 ∧ s'.phase = .completing left := by
  have hat := h.at_taking hphase hcompletions
  obtain ⟨hentries, hleft, hcompleting⟩ := hat
  have hmem : cqe.userData ∈ s.owed := by
    rw [WorkerLoop.owed, hcompletions, final, List.filter_cons_of_pos (by simp [hmore])]
    exact List.mem_append_right _ List.mem_cons_self
  obtain ⟨e, he, rfl⟩ : ∃ e ∈ s.cycle.inFlight, e.index = index := by
    rcases List.mem_append.mp (h.owed.mem_iff.mp hmem) with hstanding | hsend
    · obtain ⟨sqe, hsqe, heq⟩ := List.mem_map.mp hstanding
      exact absurd (huserData.symm.trans heq.symm) (userData_ne hsmall hindex hsqe)
    · obtain ⟨i, hi, heq⟩ := List.mem_map.mp hsend
      obtain ⟨e, he, rfl⟩ := List.mem_map.mp hi
      exact ⟨e, he, userData_inj hsmall (h.index_lt he) hindex (heq.trans huserData)⟩
  have htoNat : cqe.userData.toNat = e.index := by
    rw [huserData, toNat_userData hsmall hindex]
  obtain ⟨slot, hslot, hused, hcarries⟩ := h.cycle.held.carried e he
  have hcount : (s.taking completions left).countSent cqe =
      some (if s.statisticsActive then countsOf (e, cqe.result) else []) :=
    countSent_eq (htoNat ▸ hslot) hcarries
  obtain ⟨sendBuffers, hmarked⟩ : ∃ sendBuffers,
      s.cycle.sendBuffers.markBufferAsFree e.index = some sendBuffers := by
    rw [SendBuffers.markBufferAsFree, hslot]
    exact ⟨_, rfl⟩
  have hcycle : (s.taking completions left).cycle.complete e.index = some { s.cycle with
      sendBuffers
      inFlight := s.cycle.inFlight.filter fun entry => entry.index ≠ e.index } :=
    complete_eq he hmarked
  have hsent : ((s.taking completions left).cycle.inFlight.filter fun entry =>
      entry.index = e.index) = [e] := filter_index h.cycle.held.distinct he
  have hstep : (s.taking completions left).handleSent cqe = some { s.taking completions left with
      cycle := { s.cycle with
        sendBuffers
        inFlight := s.cycle.inFlight.filter fun entry => entry.index ≠ e.index }
      counted := s.counted ++ if s.statisticsActive then countsOf (e, cqe.result) else []
      sent := s.sent ++ [(e, cqe.result)] } := by
    rw [handleSent, htoNat]
    simp only [hcount, hcycle, hsent, Option.bind_eq_bind, Option.bind_some]
    rfl
  refine ⟨_, hstep, ⟨Cycle.sound_complete h.cycle hcompleting hcycle, h.socketIpv4, h.socketIpv6,
    ?_, h.resubmitted, h.submitted, h.posted_taking hcompletions, ?_,
    ⟨hentries, hleft, hcompleting⟩, ?_⟩, rfl⟩
  · have howed := h.owed.trans (expected_filter h.cycle.held.distinct he)
    rw [WorkerLoop.owed, hcompletions, final, List.filter_cons_of_pos (by simp [hmore]),
      List.map_cons, huserData] at howed
    exact (List.perm_middle.symm.trans howed).cons_inv
  · intro answer hanswer
    exact h.sendable answer hanswer
  · have hcounted := h.counted
    rw [List.filter_append, hcounted, List.flatMap_append]
    cases hactive : s.statisticsActive with
    | true => simp [taking, hactive, filter_countsOf]
    | false => simp [taking, hactive]

end Handling

theorem socketOf_received {message : Option Datagram} {fd : SocketIdentifier}
    (h : (message.all fun datagram => socketOf datagram.src == fd) = true) {datagram : Datagram}
    (hdatagram : message = some datagram) : socketOf datagram.src = fd := by
  rw [hdatagram] at h
  exact eq_of_beq h

theorem handleCqe_pulse {cqe : Completion} (h : cqe.userData = userDataPulseTimeout)
    (clocks : Clocks) : s.handleCqe cqe clocks = some (s.handlePulse clocks) := by
  rw [handleCqe, h, if_neg (by decide), if_neg (by decide), if_pos rfl]

theorem handleCqe_recvV4 {cqe : Completion} (h : cqe.userData = userDataRecvV4)
    (clocks : Clocks) : s.handleCqe cqe clocks = some (s.handleRecv cqe recvSqeIpv4) := by
  rw [handleCqe, h, if_pos rfl]

theorem handleCqe_recvV6 {cqe : Completion} (h : cqe.userData = userDataRecvV6)
    (clocks : Clocks) : s.handleCqe cqe clocks = some (s.handleRecv cqe recvSqeIpv6) := by
  rw [handleCqe, h, if_neg (by decide), if_pos rfl]

theorem handleCqe_sent (hsmall : ringEntries < UInt16.size) {index : Nat}
    (hindex : index < ringEntries) {cqe : Completion} (h : cqe.userData = .ofNat index)
    (clocks : Clocks) : s.handleCqe cqe clocks = s.handleSent cqe := by
  have hne : ∀ sqe ∈ standing true true, cqe.userData ≠ sqe.userData := by
    intro sqe hsqe
    rw [h]
    exact userData_ne hsmall hindex hsqe
  have hipv4 : cqe.userData ≠ userDataRecvV4 := hne recvSqeIpv4 (by decide)
  have hipv6 : cqe.userData ≠ userDataRecvV6 := hne recvSqeIpv6 (by decide)
  have hpulse : cqe.userData ≠ userDataPulseTimeout := hne pulseTimeoutSqe (by decide)
  rw [handleCqe, if_neg hipv4, if_neg hipv6, if_neg hpulse]

/-- The worker goes through a completion without a failure. -/
theorem handleNext_spec (hsmall : ringEntries < UInt16.size)
    (h : s.Sound optSocketIpv4 optSocketIpv6) {left : Nat}
    (hphase : s.phase = .completing (left + 1)) (clocks : Clocks) :
    ∃ s', s.handleNext left clocks = some s' ∧ s'.Sound optSocketIpv4 optSocketIpv6 ∧
      s'.phase = .completing left := by
  have hat := h.atPhase
  rw [hphase] at hat
  cases hcompletions : s.completions with
  | nil =>
    obtain ⟨_, hleft, _⟩ := hat
    rw [hcompletions] at hleft
    cases hleft
  | cons cqe completions =>
    rw [handleNext, hcompletions]
    have hposted := h.posted cqe (hcompletions ▸ List.mem_cons_self)
    obtain ⟨sqe, hknown, hcompletes⟩ := hposted
    obtain ⟨huserData, hmatches⟩ := Bool.and_eq_true_iff.mp hcompletes
    have huserData := eq_of_beq huserData
    change ∃ s', (s.taking completions left).handleCqe cqe clocks = some s' ∧
      s'.Sound optSocketIpv4 optSocketIpv6 ∧ s'.phase = .completing left
    cases hknown with
    | standing hsqe =>
      rcases mem_standing.mp hsqe with rfl | ⟨rfl, hipv4⟩ | ⟨rfl, hipv6⟩
      · refine ⟨_, handleCqe_pulse huserData clocks,
          sound_handlePulse h hphase hcompletions huserData ?_ clocks, rfl⟩
        exact Bool.not_eq_true' _ ▸ hmatches
      · refine ⟨_, handleCqe_recvV4 huserData clocks,
          sound_handleRecv h hphase hcompletions hsqe huserData ?_, phase_handleRecv ..⟩
        intro datagram hdatagram
        have hsocket := socketOf_received hmatches hdatagram
        exact sendable_received (fun _ => h.socketIpv4.trans hipv4)
          fun hsame => absurd (hsame.symm.trans hsocket) (by decide)
      · refine ⟨_, handleCqe_recvV6 huserData clocks,
          sound_handleRecv h hphase hcompletions hsqe huserData ?_, phase_handleRecv ..⟩
        intro datagram hdatagram
        have hsocket := socketOf_received hmatches hdatagram
        exact sendable_received (fun hsame => absurd (hsame.symm.trans hsocket) (by decide))
          fun _ => h.socketIpv6.trans hipv6
    | send fd hindex =>
      rw [handleCqe_sent hsmall hindex huserData clocks]
      refine handleSent_spec h hphase hcompletions hsmall hindex huserData ?_
      exact Bool.not_eq_true' _ ▸ hmatches

/-- A response in the queue is sent, put back, or dropped, without a failure. -/
theorem exists_send (h : s.Sound optSocketIpv4 optSocketIpv6) {attempts : Nat}
    (hphase : s.phase = .sending (attempts + 1)) : ∃ s', s.send attempts = some s' := by
  have hat := h.atPhase
  rw [hphase] at hat
  obtain ⟨_, hspace, _, _⟩ := hat
  rw [send]
  split
  · exact ⟨_, rfl⟩
  rename_i addr response localResponses hresponses
  obtain ⟨sendToIpv4Socket, hsocket⟩ := Option.isSome_iff_exists.mp
    (h.sendable (addr, response) (hresponses ▸ List.mem_cons_self))
  obtain ⟨⟨sendBuffers, result⟩, hprepared⟩ := Option.isSome_iff_exists.mp
    (h.cycle.exact.noPanic addr sendToIpv4Socket hsocket response)
  simp only [hsocket, hprepared, Option.bind_eq_bind, Option.bind_some]
  cases result with
  | ok entry =>
    obtain ⟨queue, hqueue⟩ : ∃ queue, s.submissionQueue.push entry.sqe = some queue :=
      SubmissionQueue.exists_push entry.sqe (by omega)
    simp only [hqueue]
    exact ⟨_, rfl⟩
  | error err =>
    cases err with
    | noBuffers response => exact ⟨_, rfl⟩
    | serializationFailed => exact ⟨_, rfl⟩

/-- There is room for the entries that are to be submitted again. -/
theorem exists_resubmit (hsmall : ringEntries < UInt16.size)
    (hroom : 1 + openSockets optSocketIpv4 optSocketIpv6 ≤ ringEntries)
    (h : s.Sound optSocketIpv4 optSocketIpv6) (hphase : s.phase = .resubmitting) :
    ∃ s', s.resubmit = some s' := by
  have hat := h.atPhase
  rw [hphase] at hat
  obtain ⟨hentries, _⟩ := hat
  have hnodup := h.nodup hsmall
  rw [WorkerLoop.owed, List.map_append, List.map_append, List.append_assoc,
    List.append_assoc] at hnodup
  have hlength : s.resubmittableSqeBuf.length ≤
      (standing optSocketIpv4 optSocketIpv6).length := by
    have hresubmitted : s.resubmittableSqeBuf ⊆ standing optSocketIpv4 optSocketIpv6 :=
      fun sqe hsqe => h.resubmitted sqe hsqe
    exact (List.subperm_of_subset (List.nodup_append.mp hnodup).1.of_map hresubmitted).length_le
  rw [length_standing] at hlength
  obtain ⟨queue, hqueue⟩ := SubmissionQueue.exists_pushAll_iff.mpr
    (show s.submissionQueue.entries.length + s.resubmittableSqeBuf.length ≤ ringEntries by
      rw [hentries, List.length_nil]
      omega)
  rw [resubmit, hqueue]
  exact ⟨_, rfl⟩

theorem sound_step (hsmall : ringEntries < UInt16.size) {a : Action}
    (h : s.Sound optSocketIpv4 optSocketIpv6) (hstep : s.step a = some s') :
    s'.Sound optSocketIpv4 optSocketIpv6 := by
  cases a with
  | complete sqe cqe => exact sound_complete h hstep
  | run clocks =>
    rw [step, runStep] at hstep
    split at hstep
    · rename_i hphase
      exact sound_resubmit h hphase hstep
    · rename_i hphase
      cases hstep
      exact sound_submit h hphase
    · rename_i attempts hphase
      exact sound_send h hphase hstep
    · rename_i want hphase
      obtain ⟨_, heq⟩ := Option.ite_none_right_eq_some.mp hstep
      cases heq
      have hat := h.atPhase
      rw [hphase] at hat
      obtain ⟨_, hentries, _, _, hcompleting⟩ := hat
      exact { h with atPhase := ⟨hentries, Nat.le_refl _, hcompleting⟩ }
    · rename_i hphase
      cases hstep
      exact sound_finish h hphase
    · rename_i left hphase
      obtain ⟨t, ht, hsound, _⟩ := handleNext_spec hsmall h hphase clocks
      rw [hstep] at ht
      cases ht
      exact hsound

/-- Only a wait can hold the worker up. -/
theorem exists_run (hsmall : ringEntries < UInt16.size)
    (hroom : 1 + openSockets optSocketIpv4 optSocketIpv6 ≤ ringEntries)
    (h : s.Sound optSocketIpv4 optSocketIpv6) (clocks : Clocks)
    (hwait : ∀ want, s.phase = .waiting want → want ≤ s.completions.length) :
    ∃ s', s.step (.run clocks) = some s' := by
  rw [step, runStep]
  split
  · rename_i hphase
    exact exists_resubmit hsmall hroom h hphase
  · exact ⟨_, rfl⟩
  · rename_i attempts hphase
    exact exists_send h hphase
  · rename_i want hphase
    rw [if_pos (hwait want hphase)]
    exact ⟨_, rfl⟩
  · exact ⟨_, rfl⟩
  · rename_i left hphase
    obtain ⟨t, ht, _⟩ := handleNext_spec hsmall h hphase clocks
    exact ⟨t, ht⟩

/-- Entries that are completed once, whether or not anything is received. -/
def isOnce (sqe : Sqe) : Bool :=
  match sqe.opcode with
  | .sendMsg _ => true
  | .recvMsgMulti _ => false
  | .timeout _ => true

/-- A step of the worker, or one of the kernel that needs nobody else. -/
def Unaided (_ : WorkerLoop ringEntries) (a : Action) (_ : WorkerLoop ringEntries) : Prop :=
  match a with
  | .run _ => True
  | .complete sqe _ => isOnce sqe = true

/-- A bound for the steps up to the start of the loop. -/
def toGo (s : WorkerLoop ringEntries) : Nat :=
  match s.phase with
  | .resubmitting => 0
  | .completing left => left + 1
  | .waiting _ => 2 * s.armed.countP isOnce + s.completions.length + 2
  | .sending attempts => 2 * s.armed.countP isOnce +
      2 * s.submissionQueue.entries.countP isOnce + s.completions.length + 3 * attempts + 3

def lastCompletion (sqe : Sqe) : Completion := ⟨sqe.userData, 0, false, none⟩

/-- The kernel may complete an entry that it is to complete once. -/
theorem complete_once {sqe : Sqe} (harmed : sqe ∈ s.armed) (honce : isOnce sqe = true) :
    s.step (.complete sqe (lastCompletion sqe)) = some { s with
      armed := s.armed.erase sqe, completions := s.completions ++ [lastCompletion sqe] } := by
  have hcompletes : completes sqe (lastCompletion sqe) = true := by
    obtain ⟨opcode, userData⟩ := sqe
    cases opcode with
    | recvMsgMulti fd => cases honce
    | timeout seconds => simp [completes, lastCompletion]
    | sendMsg fd => simp [completes, lastCompletion]
  rw [step, complete, if_pos ⟨harmed, hcompletes⟩]
  rfl

/-- While the worker waits for more, the kernel has something to complete. -/
theorem exists_once (hsmall : ringEntries < UInt16.size)
    (h : s.Sound optSocketIpv4 optSocketIpv6) {want : Nat} (hphase : s.phase = .waiting want)
    (hwant : s.completions.length < want) : ∃ sqe ∈ s.armed, isOnce sqe = true := by
  have hat := h.atPhase
  rw [hphase] at hat
  obtain ⟨hresubmit, hentries, rfl, hadded, _⟩ := hat
  by_cases hsends : 0 < s.armed.countP isSend
  · obtain ⟨sqe, hsqe, hsend⟩ := List.countP_pos_iff.mp hsends
    obtain ⟨opcode, userData⟩ := sqe
    cases opcode with
    | recvMsgMulti fd => cases hsend
    | timeout seconds => cases hsend
    | sendMsg fd => exact ⟨_, hsqe, rfl⟩
  · have hnone : s.completions = [] := List.length_eq_zero_iff.mp (by omega)
    have hpulse : pulseTimeoutSqe ∈ standing optSocketIpv4 optSocketIpv6 :=
      mem_standing.mpr (.inl rfl)
    have hmem : pulseTimeoutSqe.userData ∈ s.owed :=
      h.owed.mem_iff.mpr (List.mem_append_left _ (List.mem_map_of_mem hpulse))
    rw [WorkerLoop.owed, hresubmit, hentries, hnone] at hmem
    simp only [final, List.nil_append, List.filter_nil, List.map_nil, List.append_nil] at hmem
    obtain ⟨sqe, hsqe, heq⟩ := List.mem_map.mp hmem
    have hknown := h.submitted sqe (List.mem_append_right _ hsqe)
    refine ⟨sqe, hsqe, ?_⟩
    rw [eq_of_userData hsmall hknown hpulse heq]
    rfl

theorem progress (hsmall : ringEntries < UInt16.size)
    (h : s.Sound optSocketIpv4 optSocketIpv6) (clocks : Clocks) :
    s.phase = .resubmitting ∨ ∃ a s', s.step a = some s' ∧ Unaided s a s' ∧
      s'.Sound optSocketIpv4 optSocketIpv6 ∧ s'.toGo < s.toGo := by
  cases hphase : s.phase with
  | resubmitting => exact .inl rfl
  | sending attempts =>
    right
    cases attempts with
    | zero =>
      have hstep : s.step (.run clocks) = some s.submit := by
        rw [step, runStep, hphase]
      refine ⟨_, _, hstep, trivial, sound_submit h hphase, ?_⟩
      rw [toGo, toGo, hphase]
      simp only [submit, List.countP_append]
      omega
    | succ attempts =>
      obtain ⟨s', hs'⟩ := exists_send h hphase
      have hstep : s.step (.run clocks) = some s' := by
        rw [step, runStep, hphase]
        exact hs'
      refine ⟨_, _, hstep, trivial, sound_send h hphase hs', ?_⟩
      rw [toGo, toGo, hphase]
      rcases send_cases hs' with rfl | ⟨cycle, answer, _, _, _, _, _,
        ⟨entry, sendToIpv4Socket, queue, _, hqueue, rfl⟩ | ⟨_, rfl⟩⟩
      · simp only
        omega
      · simp only [hqueue, List.countP_append, List.countP_singleton]
        split <;> omega
      · simp only
        omega
  | waiting want =>
    right
    by_cases hwant : want ≤ s.completions.length
    · have hstep : s.step (.run clocks) =
          some { s with phase := .completing s.completions.length } := by
        rw [step, runStep, hphase]
        exact if_pos hwant
      refine ⟨_, _, hstep, trivial, sound_step hsmall h hstep, ?_⟩
      rw [toGo, toGo, hphase]
      simp only
      omega
    · obtain ⟨sqe, hsqe, honce⟩ := exists_once hsmall h hphase (Nat.lt_of_not_le hwant)
      have hstep := complete_once hsqe honce
      refine ⟨_, _, hstep, honce, sound_step hsmall h hstep, ?_⟩
      have hcount := (List.perm_cons_erase hsqe).countP_eq isOnce
      rw [List.countP_cons, if_pos honce] at hcount
      rw [toGo, toGo, hphase]
      simp only [List.length_append, List.length_singleton]
      omega
  | completing left =>
    right
    cases left with
    | zero =>
      have hstep : s.step (.run clocks) = some s.finish := by
        rw [step, runStep, hphase]
      refine ⟨_, _, hstep, trivial, sound_finish h hphase, ?_⟩
      rw [toGo, toGo, hphase]
      exact Nat.zero_lt_one
    | succ left =>
      obtain ⟨s', hs', hsound, hphase'⟩ := handleNext_spec hsmall h hphase clocks
      have hstep : s.step (.run clocks) = some s' := by
        rw [step, runStep, hphase]
        exact hs'
      refine ⟨_, _, hstep, trivial, hsound, ?_⟩
      rw [toGo, toGo, hphase, hphase']
      exact Nat.lt_succ_self _

/-- Of a state: every entry is in one place; a waiting worker has submitted all there are; the
worker does not fail, comes back to the start of its loop without anything being received, and
counts each response that was sent for what it was. -/
structure Alive (optSocketIpv4 optSocketIpv6 : Bool) (s : WorkerLoop ringEntries) : Prop where
  once : s.owed.Nodup
  owed : s.owed.Perm (expected optSocketIpv4 optSocketIpv6 s.cycle.inFlight)
  submitted : ∀ want, s.phase = .waiting want →
    s.resubmittableSqeBuf = [] ∧ s.submissionQueue.entries = []
  runs : ∀ clocks, (∀ want, s.phase = .waiting want → want ≤ s.completions.length) →
    ∃ s', s.step (.run clocks) = some s'
  returns : ∃ as s', run step s as = some s' ∧ AllSteps step Unaided s as ∧
    s'.phase = .resubmitting
  cycle : s.cycle.Exact ringEntries
  counted : s.counted.filter isSentCounter =
    if s.statisticsActive then s.sent.flatMap countsOf else []

theorem Sound.alive (hsmall : ringEntries < UInt16.size)
    (hroom : 1 + openSockets optSocketIpv4 optSocketIpv6 ≤ ringEntries)
    (h : s.Sound optSocketIpv4 optSocketIpv6) : s.Alive optSocketIpv4 optSocketIpv6 where
  once := h.nodup hsmall
  owed := h.owed
  submitted := by
    intro want hphase
    have hat := h.atPhase
    rw [hphase] at hat
    exact ⟨hat.1, hat.2.1⟩
  runs := fun clocks hwait => exists_run hsmall hroom h clocks hwait
  returns := by
    obtain ⟨as, s', hrun, hunaided, _, hdone⟩ := exists_run_of_decreasing toGo
      (fun h => progress hsmall h ⟨0, 0⟩) h
    exact ⟨as, s', hrun, hunaided, hdone⟩
  cycle := h.cycle.exact
  counted := h.counted

/-- A worker starts to run if there is room for the timeout and a receive for each socket, and
then it keeps on running and receiving. -/
theorem worker_keeps_receiving (ringEntries : UInt16) (optSocketIpv4 optSocketIpv6 : Bool)
    (worker : SocketWorker) (maxPeerAge : UInt32) (statisticsActive : Bool) :
    ((∃ clocks s', (init ringEntries.toNat optSocketIpv4 optSocketIpv6 worker maxPeerAge
        statisticsActive).step (.run clocks) = some s') ↔
      1 + openSockets optSocketIpv4 optSocketIpv6 ≤ ringEntries.toNat) ∧
    (1 + openSockets optSocketIpv4 optSocketIpv6 ≤ ringEntries.toNat →
      ∀ s, Reachable step (init ringEntries.toNat optSocketIpv4 optSocketIpv6 worker maxPeerAge
        statisticsActive) s → s.Alive optSocketIpv4 optSocketIpv6) := by
  have hinit : (init ringEntries.toNat optSocketIpv4 optSocketIpv6 worker maxPeerAge
      statisticsActive).Sound optSocketIpv4 optSocketIpv6 := sound_init ..
  constructor
  · constructor
    · rintro ⟨clocks, s', hstep⟩
      obtain ⟨queue, hqueue, _⟩ := Option.bind_eq_some_iff.mp hstep
      have hroom := SubmissionQueue.exists_pushAll_iff.mp ⟨queue, hqueue⟩
      rw [← length_standing]
      exact Nat.le_of_add_left_le hroom
    · intro hroom
      refine ⟨⟨0, 0⟩, exists_run ringEntries.toNat_lt hroom hinit ⟨0, 0⟩ ?_⟩
      intro want hwait
      cases hwait
  · intro hroom s hreach
    exact (invariant_of_reachable (sound_step ringEntries.toNat_lt) hinit hreach).alive
      ringEntries.toNat_lt hroom

end WorkerLoop

end Aquatic.Udp.Uring
