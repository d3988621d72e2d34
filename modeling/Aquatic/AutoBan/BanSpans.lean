import Aquatic.AutoBan.ClientBans
import Aquatic.AutoBan.Escalation

/-!
# How long bans last

A ledger notes every ban that is issued or restored, and nothing else of the
records. The tracker bans exactly the addresses whose ban in the ledger is in
force, whatever the cleaning passes, the flush thread and a full map do to the
records in between.
-/

namespace Aquatic.AutoBan
open Collections Transition
set_option autoImplicit false

inductive Ban where
  | temporary (expiry : Instant)
  | permanent
  deriving DecidableEq, Repr

namespace Ban

def inForce (ban : Ban) (now : Instant) : Bool :=
  match ban with
  | temporary expiry => now.nanos < expiry.nanos
  | permanent => true

/-- A ban that would end beyond the clock does not end. -/
def issue (kind : BanKind) (now : Instant) : Ban :=
  match kind with
  | .permanent => permanent
  | .temporary secs => (now.checkedAdd secs).elim permanent temporary

/-- A restored ban, beside the ban that there is. -/
def restore (ban : Option Ban) (bannedUntil : Instant) : Ban :=
  match ban with
  | some permanent => permanent
  | some (temporary expiry) =>
    temporary (if bannedUntil.nanos > expiry.nanos then bannedUntil else expiry)
  | none => temporary bannedUntil

end Ban

/-- The tracker with the clock, the addresses that the flush thread has got from
`flush_to_file` and not yet passed to `remove_ips`, and the ledger. -/
structure BanSpans where
  inner : AutoBanInner
  clock : Instant
  flushed : Option (List IpAddr)
  ledger : IpAddr → Option Ban

namespace BanSpans

/-- `persistIp` and `persistFlushed` note that bans are in the file; `flush` may
fail to write it, and `reloadFailed` keeps the bans in the tracker. -/
inductive Action where
  | recordViolation (ip : IpAddr) (reason : AutoBanReason)
  | persistIp (ip : IpAddr)
  | loadClientBans (content : List ClientBanLine) (nowUnix : UInt64)
  | cleanup
  | flush (ok : Bool)
  | persistFlushed (ips : List IpAddr)
  | removeFlushed
  | reloadFailed
  | tick (clock : Instant)

def init (tracker : AutoBanTracker) (clock : Instant) : BanSpans :=
  ⟨tracker.inner, clock, none, fun _ => none⟩

def banned (s : BanSpans) (ip : IpAddr) : Bool :=
  (s.ledger ip).any fun ban => ban.inForce s.clock

/-- The offence number of a ban that the address gets now. -/
def nextOffense (policy : AutoBanPolicy) (s : BanSpans) (ip : IpAddr) : UInt32 :=
  (((s.inner.records.get ip).getD (.new s.clock)).registerOffense s.clock
    policy.offenseDecaySecs).offenses

/-- The kind of ban that the policy prescribes for it. -/
def nextKind (policy : AutoBanPolicy) (s : BanSpans) (ip : IpAddr) (reason : AutoBanReason) :
    BanKind :=
  policy.banKind reason ip (s.nextOffense policy ip) s.inner.banDurationSecs

/-- The ban is due from here on, whatever the records say. -/
def noteBan (policy : AutoBanPolicy) (s : BanSpans) (ip : IpAddr) (reason : AutoBanReason) :
    BanSpans :=
  { s with ledger := fun ip' =>
      if ip' = ip then some (.issue (s.nextKind policy ip reason) s.clock) else s.ledger ip' }

def noteRestored (s : BanSpans) (content : List ClientBanLine) (nowUnix : UInt64) : BanSpans :=
  { s with ledger := fun ip =>
      match restoredUntil content s.clock nowUnix ip with
      | some bannedUntil => some (.restore (s.ledger ip) bannedUntil)
      | none => s.ledger ip }

/-- Only permanent bans are lifted. -/
def noteRemoved (s : BanSpans) (ips : List IpAddr) : BanSpans :=
  { s with ledger := fun ip =>
      if ip ∈ ips ∧ s.ledger ip = some .permanent then none else s.ledger ip }

def step (tracker : AutoBanTracker) (s : BanSpans) : Action → Option BanSpans
  | .recordViolation ip reason =>
    let (banned, _, inner) := s.inner.recordViolation tracker.policy ip reason s.clock
    some (if banned then { s.noteBan tracker.policy ip reason with inner } else { s with inner })
  | .persistIp ip => some { s with inner := s.inner.markBan ip }
  | .loadClientBans content nowUnix =>
    some { s.noteRestored content nowUnix with
      inner := (s.inner.loadClientBans content s.clock nowUnix).2 }
  | .cleanup => some { s with inner := s.inner.cleanup s.clock }
  | .flush ok =>
    if s.flushed = none then
      let (banned, _) := s.inner.permanentBans tracker.policy.escalationEnabled s.clock
      some { s with flushed := some (if ok && tracker.banListPath.isSome then banned else []) }
    else none
  | .persistFlushed ips => some { s with inner := s.inner.markPersisted ips }
  | .removeFlushed =>
    s.flushed.map fun ips =>
      { s.noteRemoved ips with inner := s.inner.removeIps ips, flushed := none }
  | .reloadFailed => some { s with flushed := none }
  | .tick clock => if s.clock.nanos ≤ clock.nanos then some { s with clock } else none

/-- The ban that a record stands for. -/
def standing (record : Option IpRecord) (now : Instant) : Option Ban :=
  record.bind fun record =>
    if record.permanent then some .permanent
    else (record.bannedUntil.map Ban.temporary).filter fun ban => ban.inForce now

structure Agree (s : BanSpans) : Prop where
  standing : ∀ ip, standing (s.inner.records.get ip) s.clock =
    (s.ledger ip).filter fun ban => ban.inForce s.clock
  flushed : ∀ {ips ip}, s.flushed = some ips → ip ∈ ips → s.ledger ip = some .permanent

theorem isBanned_eq_standing (record : IpRecord) (now : Instant) :
    record.isBanned now = (standing (some record) now).isSome := by
  unfold IpRecord.isBanned standing
  cases hpermanent : record.permanent with
  | true => simp [hpermanent]
  | false =>
    cases hbanned : record.bannedUntil with
    | none => simp [hpermanent, hbanned]
    | some bannedUntil =>
      by_cases hlive : now.nanos < bannedUntil.nanos <;>
        simp [hpermanent, hbanned, Ban.inForce, Option.filter, hlive]

theorem isAutoBanned_eq_standing (inner : AutoBanInner) (ip : IpAddr) (now : Instant) :
    inner.isAutoBanned ip now = (standing (inner.records.get ip) now).isSome := by
  unfold AutoBanInner.isAutoBanned
  cases inner.records.get ip with
  | none => rfl
  | some record => exact isBanned_eq_standing record now

theorem Agree.isAutoBanned {s : BanSpans} (hs : Agree s) (ip : IpAddr) :
    s.inner.isAutoBanned ip s.clock = s.banned ip := by
  rw [isAutoBanned_eq_standing, hs.standing, banned]
  cases s.ledger ip with
  | none => rfl
  | some ban => cases h : ban.inForce s.clock <;> simp [h]

theorem agree_init (config : AutoBanConfig) (clock : Instant) :
    Agree (init (.fromConfig config) clock) :=
  ⟨fun _ => rfl, nofun⟩

theorem standing_eq_none {record : IpRecord} {now : Instant} (h : ¬ record.isBanned now = true) :
    standing (some record) now = none := by
  rw [isBanned_eq_standing, Bool.not_eq_true] at h
  exact Option.isSome_eq_false_iff.mp h |> Option.isNone_iff_eq_none.mp

theorem standing_of_pruned {now : Instant} {inner inner' : AutoBanInner}
    (h : AutoBanInner.Pruned now inner inner') (ip : IpAddr) :
    standing (inner'.records.get ip) now = standing (inner.records.get ip) now := by
  cases hget : inner.records.get ip with
  | none =>
    cases hget' : inner'.records.get ip with
    | none => rfl
    | some record =>
      have hold := h.old hget'
      rw [hget] at hold
      cases hold
  | some record =>
    by_cases hbanned : record.isBanned now = true
    · rw [h.kept hget (by simp [IpRecord.isKept, hbanned])]
    · cases hget' : inner'.records.get ip with
      | none => exact (standing_eq_none hbanned).symm
      | some record' =>
        have hold := h.old hget'
        rw [hget] at hold
        rw [hold]

theorem standing_map {f : IpRecord → IpRecord}
    (hf : ∀ record, (f record).permanent = record.permanent ∧
      (f record).bannedUntil = record.bannedUntil) (record : Option IpRecord) (now : Instant) :
    standing (record.map f) now = standing record now := by
  cases record with
  | none => rfl
  | some record =>
    obtain ⟨hpermanent, hbanned⟩ := hf record
    simp only [standing, Option.map_some, Option.bind_some, hpermanent, hbanned]

theorem not_isBanned_counted {inner : AutoBanInner} {ip : IpAddr} {now : Instant}
    {record : IpRecord} (hfree : ¬ inner.isAutoBanned ip now = true)
    (h : AutoBanInner.Counted inner ip now record) : ¬ record.isBanned now = true := by
  cases h with
  | fresh hget => simp [IpRecord.isBanned, IpRecord.new]
  | @renewed old hget =>
    have hold : ¬ old.isBanned now = true := by
      simpa [AutoBanInner.isAutoBanned, hget] using hfree
    have hrenew : (old.renew inner.windowSecs now).permanent = old.permanent ∧
        ((old.renew inner.windowSecs now).bannedUntil = none ∨
          (old.renew inner.windowSecs now).bannedUntil = old.bannedUntil) := by
      unfold IpRecord.renew
      simp only
      split <;> split <;> simp
    intro hbanned
    apply hold
    simp only [IpRecord.isBanned, Bool.or_eq_true] at hbanned ⊢
    rw [hrenew.1] at hbanned
    rcases hrenew.2 with hnone | hsame
    · rw [hnone] at hbanned
      exact .inl (hbanned.resolve_right (by simp))
    · rw [hsame] at hbanned
      exact hbanned

variable {tracker : AutoBanTracker} {s s' : BanSpans}

theorem Agree.setInner (hs : Agree s) {inner : AutoBanInner}
    (h : ∀ ip, BanSpans.standing (inner.records.get ip) s.clock =
      BanSpans.standing (s.inner.records.get ip) s.clock) : Agree { s with inner } :=
  ⟨fun ip => (h ip).trans (hs.standing ip), hs.flushed⟩

theorem Ban.inForce_mono {ban : Ban} {now later : Instant} (hle : now.nanos ≤ later.nanos)
    (h : ban.inForce later = true) : ban.inForce now = true := by
  cases ban with
  | permanent => rfl
  | temporary expiry =>
    simp only [Ban.inForce, decide_eq_true_eq] at h ⊢
    omega

theorem filter_inForce {now later : Instant} (hle : now.nanos ≤ later.nanos) (ban : Option Ban) :
    ban.filter (fun ban => ban.inForce later) =
      (ban.filter fun ban => ban.inForce now).filter fun ban => ban.inForce later := by
  rw [Option.filter_filter]
  congr 1
  funext ban
  cases hlater : ban.inForce later with
  | false => rw [Bool.and_false]
  | true => rw [Ban.inForce_mono hle hlater, Bool.and_true]

theorem standing_later {now later : Instant} (hle : now.nanos ≤ later.nanos)
    (record : Option IpRecord) :
    standing record later = (standing record now).filter fun ban => ban.inForce later := by
  cases record with
  | none => rfl
  | some record =>
    unfold standing
    simp only [Option.bind_some]
    split
    · rfl
    · exact filter_inForce hle _

theorem agree_tick (hs : Agree s) {clock : Instant} (hle : s.clock.nanos ≤ clock.nanos) :
    Agree { s with clock } := by
  refine ⟨?_, hs.flushed⟩
  intro ip
  rw [standing_later hle, hs.standing]
  exact (filter_inForce hle _).symm

theorem Agree.not_isAutoBanned (hs : Agree s) {ip : IpAddr}
    (hfree : ¬ s.inner.isAutoBanned ip s.clock = true) : s.ledger ip ≠ some .permanent := by
  intro hpermanent
  rw [hs.isAutoBanned, banned, hpermanent] at hfree
  exact hfree rfl

theorem standing_applyBan (record : IpRecord) (kind : BanKind) (now : Instant) :
    standing (some (record.applyBan kind now)) now =
      (some (Ban.issue kind now)).filter fun ban => ban.inForce now := by
  cases kind with
  | permanent => rfl
  | temporary secs =>
    simp only [IpRecord.applyBan, Ban.issue]
    cases now.checkedAdd secs <;> rfl

/-- What is counted on has the offences of the record from before. -/
theorem nextOffense_eq {policy : AutoBanPolicy} {ip : IpAddr} {record : IpRecord}
    (h : AutoBanInner.Counted s.inner ip s.clock record) :
    s.nextOffense policy ip =
      (record.registerOffense s.clock policy.offenseDecaySecs).offenses := by
  rcases h.history with ⟨old, hget, hsame⟩ | ⟨hget, hsame⟩
  · rw [nextOffense, hget, Option.getD_some, hsame.registerOffense]
  · rw [nextOffense, hget, Option.getD_none, hsame.registerOffense]

theorem standing_ban (record : IpRecord) (policy : AutoBanPolicy) (ip : IpAddr)
    (reason : AutoBanReason) (now : Instant) (banDurationSecs : UInt64) :
    standing (some (record.ban policy ip reason now banDurationSecs)) now =
      (some (Ban.issue (policy.banKind reason ip
        (record.registerOffense now policy.offenseDecaySecs).offenses banDurationSecs) now)).filter
        fun ban => ban.inForce now :=
  standing_applyBan _ _ now

theorem agree_recordViolation (hs : Agree s) (ip : IpAddr) (reason : AutoBanReason)
    (h : step tracker s (.recordViolation ip reason) = some s') : Agree s' := by
  simp only [step, Option.some.injEq] at h
  cases hbans : (s.inner.recordViolation tracker.policy ip reason s.clock).1 with
  | false =>
    rw [hbans] at h
    have hspec := s.inner.recordViolation_spec tracker.policy ip reason s.clock
    generalize s.inner.recordViolation tracker.policy ip reason s.clock = result at h hbans hspec
    simp only [Bool.false_eq_true, if_false] at h
    subst h
    cases hspec with
    | ignored hpruned => exact hs.setInner (standing_of_pruned hpruned)
    | @counted room record hfree hpruned hrecord =>
      refine hs.setInner ?_
      intro ip'
      rw [AutoBanInner.get_setRecord]
      split
      · rename_i hip
        rw [hip, standing_eq_none (not_isBanned_counted hfree hrecord)]
        rw [isAutoBanned_eq_standing, Bool.not_eq_true] at hfree
        exact (Option.isNone_iff_eq_none.mp (Option.isSome_eq_false_iff.mp hfree)).symm
      · exact standing_of_pruned hpruned ip'
    | banned => cases hbans
  | true =>
    obtain ⟨room, record, hfree, hpruned, hrecord, heq⟩ := AutoBanInner.recordViolation_ban hbans
    rw [heq] at h
    simp only [if_true] at h
    subst h
    refine ⟨?_, ?_⟩
    · intro ip'
      simp only [noteBan, AutoBanInner.get_setRecord]
      by_cases hip : ip' = ip
      · rw [if_pos hip, if_pos hip, nextKind, nextOffense_eq hrecord]
        exact standing_ban record tracker.policy ip reason s.clock s.inner.banDurationSecs
      · rw [if_neg hip, if_neg hip, standing_of_pruned hpruned]
        exact hs.standing ip'
    · intro ips ip' hips hmem
      have hpermanent := hs.flushed hips hmem
      have hip : ip' ≠ ip := fun hip => hs.not_isAutoBanned hfree (hip ▸ hpermanent)
      simp only [noteBan, if_neg hip]
      exact hpermanent

theorem permanent_filter (now : Instant) :
    ((some Ban.permanent).filter fun ban => ban.inForce now) = some .permanent := rfl

theorem temporary_filter (expiry now : Instant) :
    ((some (Ban.temporary expiry)).filter fun ban => ban.inForce now) =
      if now.nanos < expiry.nanos then some (.temporary expiry) else none := by
  by_cases h : now.nanos < expiry.nanos <;> simp [Option.filter, Ban.inForce, h]

/-- For what is restored it makes no difference whether there was no ban or one
that is over. -/
theorem restore_congr {ban ban' : Option Ban} {now : Instant}
    (h : (ban.filter fun ban => ban.inForce now) = ban'.filter fun ban => ban.inForce now)
    (bannedUntil : Instant) :
    ((some (Ban.restore ban bannedUntil)).filter fun ban => ban.inForce now) =
      (some (Ban.restore ban' bannedUntil)).filter fun ban => ban.inForce now := by
  rcases ban with _ | ⟨expiry⟩ | _ <;> rcases ban' with _ | ⟨expiry'⟩ | _ <;>
    simp only [Ban.restore, temporary_filter, permanent_filter, Option.filter_none] at h ⊢
  all_goals grind

theorem standing_restore {record : IpRecord} {ban : Option Ban} {now : Instant}
    (h : standing (some record) now = ban.filter fun ban => ban.inForce now)
    (bannedUntil : Instant) :
    standing (some (record.restore bannedUntil)) now =
      (some (Ban.restore ban bannedUntil)).filter fun ban => ban.inForce now := by
  cases hpermanent : record.permanent with
  | true =>
    have hstanding : standing (some record) now = some .permanent := by
      simp [standing, hpermanent]
    have hban : ban = some .permanent :=
      (Option.filter_eq_some_iff.mp (h.symm.trans hstanding)).1
    have hsame : record.restore bannedUntil = record := by
      simp [IpRecord.restore, hpermanent]
    rw [hban, hsame, hstanding]
    rfl
  | false =>
    have hrecord : standing (some record) now =
        (record.bannedUntil.map Ban.temporary).filter fun ban => ban.inForce now := by
      simp [standing, hpermanent]
    rw [← restore_congr (hrecord.symm.trans h) bannedUntil]
    unfold IpRecord.restore
    cases hexpiry : record.bannedUntil with
    | none => simp [standing, hpermanent, Ban.restore]
    | some expiry =>
      by_cases hlater : bannedUntil.nanos > expiry.nanos <;>
        simp [standing, hpermanent, hexpiry, Ban.restore, hlater]

theorem agree_loadClientBans (hs : Agree s) (content : List ClientBanLine) (nowUnix : UInt64) :
    Agree { s.noteRestored content nowUnix with
      inner := (s.inner.loadClientBans content s.clock nowUnix).2 } := by
  refine ⟨?_, ?_⟩
  · intro ip
    simp only [noteRestored, get_loadClientBans]
    cases restoredUntil content s.clock nowUnix ip with
    | none => exact hs.standing ip
    | some bannedUntil =>
      refine standing_restore ?_ bannedUntil
      rw [← hs.standing ip]
      cases s.inner.records.get ip <;> rfl
  · intro ips ip hips hmem
    have hpermanent := hs.flushed hips hmem
    simp only [noteRestored, hpermanent]
    cases restoredUntil content s.clock nowUnix ip <;> rfl

theorem agree_flush (hs : Agree s) {ips : List IpAddr} (escalationEnabled : Bool)
    (h : ∀ ip ∈ ips, ip ∈ (s.inner.permanentBans escalationEnabled s.clock).1) :
    Agree { s with flushed := some ips } := by
  refine ⟨hs.standing, ?_⟩
  intro ips' ip hips hmem
  cases hips
  obtain ⟨-, record, hget, hpermanent, -⟩ := AutoBanInner.mem_permanentBans (h ip hmem)
  have hstanding := hs.standing ip
  rw [hget, BanSpans.standing, Option.bind_some, if_pos hpermanent] at hstanding
  exact (Option.filter_eq_some_iff.mp hstanding.symm).1

theorem agree_removeFlushed (hs : Agree s) {ips : List IpAddr} (hips : s.flushed = some ips) :
    Agree { s.noteRemoved ips with inner := s.inner.removeIps ips, flushed := none } := by
  refine ⟨?_, nofun⟩
  intro ip
  simp only [noteRemoved, AutoBanInner.get_removeIps]
  by_cases hmem : ip ∈ ips
  · rw [if_pos hmem, if_pos ⟨hmem, hs.flushed hips hmem⟩]
    rfl
  · rw [if_neg hmem, if_neg fun h => hmem h.1]
    exact hs.standing ip

theorem agree_step {act : Action} (hs : Agree s) (h : step tracker s act = some s') :
    Agree s' := by
  cases act with
  | recordViolation ip reason => exact agree_recordViolation hs ip reason h
  | persistIp ip =>
    cases h
    refine hs.setInner ?_
    intro ip'
    rw [AutoBanInner.markBan, IndexMap.get_modify]
    split
    · rename_i hip
      rw [hip]
      apply standing_map
      intro record
      split <;> exact ⟨rfl, rfl⟩
    · rfl
  | loadClientBans content nowUnix =>
    cases h
    exact agree_loadClientBans hs content nowUnix
  | cleanup =>
    cases h
    exact hs.setInner (standing_of_pruned (s.inner.pruned_cleanup s.clock))
  | flush ok =>
    simp only [step] at h
    split at h
    · cases h
      apply agree_flush hs tracker.policy.escalationEnabled
      intro ip hip
      split at hip
      · exact hip
      · cases hip
    · cases h
  | persistFlushed ips =>
    cases h
    refine hs.setInner ?_
    intro ip
    rw [AutoBanInner.get_markPersisted]
    apply standing_map
    intro record
    split <;> exact ⟨rfl, rfl⟩
  | removeFlushed =>
    obtain ⟨ips, hips, rfl⟩ := Option.map_eq_some_iff.mp h
    exact agree_removeFlushed hs hips
  | reloadFailed =>
    cases h
    refine ⟨hs.standing, ?_⟩
    intro ips ip hips
    cases hips
  | tick clock =>
    simp only [step] at h
    split at h
    · rename_i hle
      cases h
      exact agree_tick hs hle
    · cases h

/-- A ban in the ledger is replaced by one that is issued when it is not in force,
or by a restored one that lasts longer, and only a permanent one is lifted, when
`remove_ips` is called with the address. -/
def LedgerMoves (s : BanSpans) (act : Action) (s' : BanSpans) (ip : IpAddr) : Prop :=
  s'.ledger ip = s.ledger ip ∨
  (∃ reason, act = .recordViolation ip reason ∧ s.banned ip = false) ∨
  (∃ content nowUnix bannedUntil, act = .loadClientBans content nowUnix ∧
    restoredUntil content s.clock nowUnix ip = some bannedUntil ∧
    s'.ledger ip = some (.restore (s.ledger ip) bannedUntil)) ∨
  (∃ ips, act = .removeFlushed ∧ s.flushed = some ips ∧ ip ∈ ips ∧
    s.ledger ip = some .permanent ∧ s'.ledger ip = none)

theorem ledgerMoves_step {act : Action} (hs : Agree s) (h : step tracker s act = some s')
    (ip : IpAddr) : LedgerMoves s act s' ip := by
  cases act with
  | recordViolation ip' reason =>
    simp only [step, Option.some.injEq] at h
    cases hbans : (s.inner.recordViolation tracker.policy ip' reason s.clock).1 with
    | false =>
      rw [hbans] at h
      subst h
      exact .inl rfl
    | true =>
      rw [hbans] at h
      subst h
      by_cases hip : ip = ip'
      · subst hip
        obtain ⟨_, _, hfree, -⟩ := AutoBanInner.recordViolation_ban hbans
        rw [hs.isAutoBanned, Bool.not_eq_true] at hfree
        exact .inr (.inl ⟨reason, rfl, hfree⟩)
      · exact .inl (if_neg hip)
  | loadClientBans content nowUnix =>
    cases h
    cases hrestored : restoredUntil content s.clock nowUnix ip with
    | none => exact .inl (by simp only [noteRestored, hrestored])
    | some bannedUntil =>
      exact .inr (.inr (.inl ⟨content, nowUnix, bannedUntil, rfl, hrestored,
        by simp only [noteRestored, hrestored]⟩))
  | removeFlushed =>
    obtain ⟨ips, hips, rfl⟩ := Option.map_eq_some_iff.mp h
    by_cases hmem : ip ∈ ips ∧ s.ledger ip = some .permanent
    · exact .inr (.inr (.inr ⟨ips, rfl, hips, hmem.1, hmem.2, if_pos hmem⟩))
    · exact .inl (if_neg hmem)
  | persistIp | cleanup | persistFlushed | reloadFailed =>
    cases h
    exact .inl rfl
  | flush ok =>
    simp only [step] at h
    split at h
    · cases h
      exact .inl rfl
    · cases h
  | tick clock =>
    simp only [step] at h
    split at h
    · cases h
      exact .inl rfl
    · cases h

def clockAfter (clock : Instant) : Action → Instant
  | .tick clock => clock
  | _ => clock

theorem step_clock {act : Action} (h : step tracker s act = some s') :
    s'.clock = clockAfter s.clock act ∧ s.clock.nanos ≤ s'.clock.nanos := by
  cases act with
  | recordViolation ip reason =>
    simp only [step, Option.some.injEq] at h
    subst h
    split <;> exact ⟨rfl, Nat.le_refl _⟩
  | persistIp | loadClientBans | cleanup | persistFlushed | reloadFailed =>
    cases h
    exact ⟨rfl, Nat.le_refl _⟩
  | flush ok =>
    simp only [step] at h
    split at h
    · cases h
      exact ⟨rfl, Nat.le_refl _⟩
    · cases h
  | removeFlushed =>
    obtain ⟨ips, -, rfl⟩ := Option.map_eq_some_iff.mp h
    exact ⟨rfl, Nat.le_refl _⟩
  | tick clock =>
    simp only [step] at h
    split at h
    · rename_i hle
      cases h
      exact ⟨rfl, hle⟩
    · cases h

/-- A temporary ban stays as it is until it is over, or bans are restored. -/
theorem temporary_kept {act : Action} {ip : IpAddr} {expiry : Instant} (hs : Agree s)
    (h : step tracker s act = some s')
    (hact : ∀ content nowUnix, act ≠ .loadClientBans content nowUnix)
    (hledger : s.ledger ip = some (.temporary expiry)) (hlive : s.clock.nanos < expiry.nanos) :
    s'.ledger ip = some (.temporary expiry) := by
  rcases ledgerMoves_step hs h ip with hsame | ⟨reason, -, hfree⟩ | hload | hlifted
  · exact hsame.trans hledger
  · rw [banned, hledger, Option.any_some, Ban.inForce, decide_eq_true hlive] at hfree
    cases hfree
  · obtain ⟨content, nowUnix, _, rfl, -⟩ := hload
    exact absurd rfl (hact content nowUnix)
  · obtain ⟨_, -, -, -, hpermanent, -⟩ := hlifted
    rw [hledger] at hpermanent
    cases hpermanent

theorem Agree.record_of_temporary (hs : Agree s) {ip : IpAddr} {expiry : Instant}
    (hledger : s.ledger ip = some (.temporary expiry)) (hlive : s.clock.nanos < expiry.nanos) :
    ∃ record, s.inner.records.get ip = some record ∧ record.permanent = false ∧
      record.bannedUntil = some expiry := by
  have hstanding := hs.standing ip
  rw [hledger, temporary_filter, if_pos hlive] at hstanding
  obtain ⟨record, hget, hban⟩ := Option.bind_eq_some_iff.mp hstanding
  refine ⟨record, hget, ?_⟩
  split at hban
  · cases hban
  · rename_i htemporary
    obtain ⟨bannedUntil, hbanned, hexpiry⟩ :=
      Option.map_eq_some_iff.mp (Option.filter_eq_some_iff.mp hban).1
    cases hexpiry
    exact ⟨Bool.not_eq_true _ ▸ htemporary, hbanned⟩

/-- What holds after a step: exactly the bans of the ledger are in force, the ledger
moves as it should, an address whose violation leads to a ban is banned from then on,
what `flush_to_file` returns is banned for good, and a violation of an address that
is banned changes nothing. -/
structure Exact (tracker : AutoBanTracker) (s : BanSpans) (act : Action) (s' : BanSpans) :
    Prop where
  inForce : ∀ ip, s'.inner.isAutoBanned ip s'.clock = s'.banned ip
  ledger : ∀ ip, LedgerMoves s act s' ip
  issued : ∀ ip reason, act = .recordViolation ip reason →
    (s.inner.recordViolation tracker.policy ip reason s.clock).1 = true →
      s'.ledger ip = some (.issue (s.nextKind tracker.policy ip reason) s.clock) ∧
        s'.inner.isAutoBanned ip s'.clock = true
  flushed : ∀ ips ip, s'.flushed = some ips → ip ∈ ips → s'.ledger ip = some .permanent
  ignored : ∀ ip reason, act = .recordViolation ip reason → s.banned ip = true →
    s.inner.recordViolation tracker.policy ip reason s.clock = (false, false, s.inner) ∧ s' = s

/-- No ban is over as soon as it is issued. -/
theorem fromSecs_ne_zero (secs : UInt64) : BanKind.fromSecs secs ≠ .temporary 0 := by
  unfold BanKind.fromSecs
  intro h
  split at h
  · cases h
  · rename_i hsecs
    exact hsecs (BanKind.temporary.inj h)

theorem banKind_ne_zero (policy : AutoBanPolicy) (reason : AutoBanReason) (ip : IpAddr)
    (offenses : UInt32) (fallbackSecs : UInt64) :
    policy.banKind reason ip offenses fallbackSecs ≠ .temporary 0 := by
  have hpermanent : BanKind.permanent ≠ .temporary 0 := by
    intro h
    cases h
  unfold AutoBanPolicy.banKind
  split
  · exact fromSecs_ne_zero _
  cases reason.tier with
  | immediate =>
    simp only
    split
    · exact hpermanent
    · split <;> exact fromSecs_ne_zero _
  | suspicious => exact fromSecs_ne_zero _
  | heuristic =>
    simp only
    split
    · exact fromSecs_ne_zero _
    · split
      · exact fromSecs_ne_zero _
      · exact hpermanent

theorem inForce_issue {kind : BanKind} (h : kind ≠ .temporary 0) (now : Instant) :
    (Ban.issue kind now).inForce now = true := by
  cases kind with
  | permanent => rfl
  | temporary secs =>
    have hsecs : secs.toNat ≠ 0 := fun hzero => h (congrArg _ (UInt64.toNat_inj.mp hzero))
    simp only [Ban.issue]
    cases hadd : now.checkedAdd secs with
    | none => rfl
    | some expiry =>
      have hnanos := Instant.nanos_checkedAdd hadd
      simp only [Option.elim_some, Ban.inForce, decide_eq_true_eq]
      omega

theorem issued_step (hs : Agree s) {ip : IpAddr} {reason : AutoBanReason}
    (h : step tracker s (.recordViolation ip reason) = some s')
    (hbans : (s.inner.recordViolation tracker.policy ip reason s.clock).1 = true) :
    s'.ledger ip = some (.issue (s.nextKind tracker.policy ip reason) s.clock) ∧
      s'.inner.isAutoBanned ip s'.clock = true := by
  have hs' := agree_recordViolation hs ip reason h
  simp only [step, hbans, if_true, Option.some.injEq] at h
  have hledger : s'.ledger ip = some (.issue (s.nextKind tracker.policy ip reason) s.clock) := by
    rw [← h]
    exact if_pos rfl
  have hclock : s'.clock = s.clock := by
    rw [← h]
    rfl
  refine ⟨hledger, ?_⟩
  rw [hs'.isAutoBanned, banned, hledger, hclock]
  exact inForce_issue (banKind_ne_zero _ _ _ _ _) s.clock

theorem exact_step {act : Action} (hs : Agree s) (h : step tracker s act = some s') :
    Exact tracker s act s' := by
  have hs' := agree_step hs h
  refine ⟨hs'.isAutoBanned, ledgerMoves_step hs h, ?_, fun _ _ => hs'.flushed, ?_⟩
  · rintro ip reason rfl hbans
    exact issued_step hs h hbans
  rintro ip reason rfl hbanned
  rw [← hs.isAutoBanned] at hbanned
  have hsame : s.inner.recordViolation tracker.policy ip reason s.clock =
      (false, false, s.inner) := if_pos hbanned
  refine ⟨hsame, ?_⟩
  simp only [step, hsame, Option.some.injEq] at h
  exact h.symm

/-- In every run of a tracker, bans last exactly as long as they were issued for. -/
theorem bans_last_as_issued (config : AutoBanConfig) (clock : Instant) (as : List Action) :
    AllSteps (step (.fromConfig config)) (Exact (.fromConfig config))
      (init (.fromConfig config) clock) as :=
  allSteps_of_kept agree_step exact_step (agree_init config clock) as

end BanSpans

end Aquatic.AutoBan
