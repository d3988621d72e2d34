import Aquatic.AutoBan.ClientLadder

/-!
# What a threshold ban rests on

Beside a run of the tracker, the history of each address: the violations that were
counted, and the bans that were issued, restored and lifted. The count of a record
is made of violations that the history has, since its first violation and since
the last ban.
-/

namespace Aquatic.AutoBan
open Collections Transition
set_option autoImplicit false

namespace AutoBanInner

/-- The violation is counted: the address is not banned, and there is room for it. -/
def counts (inner : AutoBanInner) (ip : IpAddr) (now : Instant) : Bool :=
  !inner.isAutoBanned ip now && !(inner.capacityGuard ip now).1

theorem threshold_capacityGuard (inner : AutoBanInner) (ip : IpAddr) (now : Instant) :
    (inner.capacityGuard ip now).2.threshold = inner.threshold := by
  have hcleanup : (inner.capacityCleanup now).threshold = inner.threshold := by
    unfold capacityCleanup
    split <;> rfl
  have hgrow : ((inner.capacityCleanup now).growCapacity now).threshold =
      (inner.capacityCleanup now).threshold := by
    unfold growCapacity
    simp only
    split
    · split
      · rfl
      · split <;> rfl
    · rfl
  unfold capacityGuard
  split
  · simp only
    split
    · split <;> exact hgrow.trans hcleanup
    · exact hgrow.trans hcleanup
  · rfl

theorem triggered_countViolation (inner : AutoBanInner) (ip : IpAddr) (reason : AutoBanReason)
    (now : Instant) :
    (inner.countViolation ip reason now).1 = true ↔
      reason.tier = .immediate ∨ inner.threshold ≤ (inner.countViolation ip reason now).2.count := by
  unfold countViolation
  cases inner.records.get ip <;> simp

theorem recordViolation_uncounted (policy : AutoBanPolicy) {inner : AutoBanInner} {ip : IpAddr}
    (reason : AutoBanReason) {now : Instant} (h : inner.counts ip now = false) :
    (inner.recordViolation policy ip reason now).1 = false ∧
      Pruned now inner (inner.recordViolation policy ip reason now).2.2 ∧
      (inner.recordViolation policy ip reason now).2.2.threshold = inner.threshold := by
  unfold recordViolation
  split
  · exact ⟨rfl, .refl inner, rfl⟩
  rename_i hfree
  have hfull : (inner.capacityGuard ip now).1 = true := by
    simpa [counts, hfree] using h
  simp only [hfull, if_true]
  exact ⟨trivial, inner.pruned_capacityGuard ip now, inner.threshold_capacityGuard ip now⟩

theorem free_of_counts {inner : AutoBanInner} {ip : IpAddr} {now : Instant}
    (h : inner.counts ip now = true) : ¬ inner.isAutoBanned ip now = true := by
  intro hbanned
  simp [counts, hbanned] at h

/-- A violation that is counted bans if it is of the first tier, or the last one
that the threshold lacked. -/
theorem recordViolation_counted (policy : AutoBanPolicy) {inner : AutoBanInner} {ip : IpAddr}
    (reason : AutoBanReason) {now : Instant} (h : inner.counts ip now = true) :
    ∃ room record, Pruned now inner room ∧ room.threshold = inner.threshold ∧
      Counted inner ip now record ∧
      inner.recordViolation policy ip reason now =
        if reason.tier = .immediate ∨ inner.threshold ≤ record.count then
          (true, (record.ban policy ip reason now inner.banDurationSecs).permanent,
            room.setRecord ip (record.ban policy ip reason now inner.banDurationSecs))
        else (false, false, room.setRecord ip record) := by
  obtain ⟨hfree, hroom⟩ : ¬ inner.isAutoBanned ip now = true ∧
      ¬ (inner.capacityGuard ip now).1 = true := by
    simpa [counts] using h
  have hpruned := inner.pruned_capacityGuard ip now
  have hthreshold := inner.threshold_capacityGuard ip now
  have hrecord := (counted_countViolation (inner.capacityGuard ip now).2 ip reason now).congr
    (get_capacityGuard_self inner ip now) hpruned.windowSecs
  have htriggered := triggered_countViolation (inner.capacityGuard ip now).2 ip reason now
  have hnot := BanSpans.not_isBanned_counted hfree hrecord
  refine ⟨_, _, hpruned, hthreshold, hrecord, ?_⟩
  rw [hthreshold] at htriggered
  unfold recordViolation
  rw [if_neg hfree]
  simp only [if_neg hroom, hnot, Bool.not_false, Bool.and_true, htriggered,
    hpruned.banDurationSecs]

end AutoBanInner

/-- What happens to an address. -/
inductive Event where
  | counted (time : Instant)
  | banned (ban : Ban)
  | lifted

/-- The violations that were counted since the last ban, the newest one first. -/
def countedSince : List Event → List Instant
  | .counted time :: events => time :: countedSince events
  | _ => []

def lastBan : List Event → Option Ban
  | .counted _ :: events => lastBan events
  | .banned ban :: _ => some ban
  | _ => none

structure Thresholds where
  spans : BanSpans
  history : IpAddr → List Event

namespace Thresholds
variable {tracker : AutoBanTracker} {s s' : Thresholds} {act : BanSpans.Action}

/-- The events of a step for an address, the newest one first. -/
def events (tracker : AutoBanTracker) (s s' : BanSpans) (act : BanSpans.Action) (ip : IpAddr) :
    List Event :=
  match act with
  | .recordViolation ip' reason =>
    if ip = ip' then
      (if (s.inner.recordViolation tracker.policy ip reason s.clock).1 then
        (s'.ledger ip).toList.map Event.banned else []) ++
      if s.inner.counts ip s.clock then [.counted s.clock] else []
    else []
  | .loadClientBans content nowUnix =>
    (restoredUntil content s.clock nowUnix ip).toList.map fun bannedUntil =>
      .banned (.restore (s.ledger ip) bannedUntil)
  | .removeFlushed =>
    if ip ∈ s.flushed.getD [] ∧ s.ledger ip = some .permanent then [.lifted] else []
  | _ => []

def init (tracker : AutoBanTracker) (clock : Instant) : Thresholds :=
  ⟨.init tracker clock, fun _ => []⟩

def step (tracker : AutoBanTracker) (s : Thresholds) (act : BanSpans.Action) :
    Option Thresholds :=
  (s.spans.step tracker act).map fun spans =>
    ⟨spans, fun ip => events tracker s.spans spans act ip ++ s.history ip⟩

/-- A ban that is not issued at once rests on as many violations as the threshold,
this one and `times`, all since the last ban and none while it was in force, in
less than `spanSecs`. -/
def Justified (tracker : AutoBanTracker) (spanSecs : Nat) (s : Thresholds)
    (act : BanSpans.Action) : Prop :=
  match act with
  | .recordViolation ip reason =>
    reason.tier ≠ .immediate →
      (s.spans.inner.recordViolation tracker.policy ip reason s.spans.clock).1 = true →
      ∃ times : List Instant, times.Sublist (countedSince (s.history ip)) ∧
        tracker.inner.threshold.toNat ≤ times.length + 1 ∧
        ∀ time ∈ s.spans.clock :: times, time.nanos ≤ s.spans.clock.nanos ∧
          s.spans.clock.secsSince time < spanSecs ∧
          ∀ ban, lastBan (s.history ip) = some ban → ban.inForce time = false
  | _ => True

/-- No count is beyond the threshold, and no count that is to be raised is at the
end of its range. -/
def CountsBounded (tracker : AutoBanTracker) (s : Thresholds) : Prop :=
  ∀ ip record, s.spans.inner.records.get ip = some record →
    record.count.toNat ≤ max tracker.inner.threshold.toNat 1 ∧
    (¬ record.isBanned s.spans.clock = true →
      (record.renew s.spans.inner.windowSecs s.spans.clock).count.toNat + 1 < UInt32.size)

/-- The times from the first violation on. -/
def recent (firstViolation : Instant) (times : List Instant) : List Instant :=
  times.filter fun time => firstViolation.nanos ≤ time.nanos

/-- The count of a record that stands for no ban is short of the threshold, and
made of violations in the history. -/
structure RecordOk (threshold : UInt32) (clock : Instant) (history : List Event)
    (record : IpRecord) : Prop where
  first : record.firstViolation.nanos ≤ clock.nanos
  count : record.count.toNat ≤ max threshold.toNat 1
  tallied : record.permanent = false → record.bannedUntil = none →
    record.count.toNat < max threshold.toNat 1 ∧
      record.count.toNat ≤ (recent record.firstViolation (countedSince history)).length

section Records
variable {threshold : UInt32} {clock clock' : Instant} {history : List Event}
variable {record record' : IpRecord}

theorem RecordOk.later (h : RecordOk threshold clock history record)
    (hle : clock.nanos ≤ clock'.nanos) : RecordOk threshold clock' history record :=
  ⟨Nat.le_trans h.first hle, h.count, h.tallied⟩

theorem RecordOk.same (h : RecordOk threshold clock history record)
    (hcount : record'.count = record.count)
    (hfirst : record'.firstViolation = record.firstViolation)
    (hpermanent : record'.permanent = record.permanent)
    (hbanned : record'.bannedUntil = record.bannedUntil) :
    RecordOk threshold clock history record' := by
  refine ⟨hfirst ▸ h.first, hcount ▸ h.count, ?_⟩
  rw [hcount, hfirst, hpermanent, hbanned]
  exact h.tallied

/-- A restored ban may come with a record of its own. -/
theorem recordOk_of_banned (hcount : record.count.toNat ≤ max threshold.toNat 1)
    (hfirst : record.firstViolation.nanos ≤ clock.nanos)
    (hbanned : record.permanent = true ∨ record.bannedUntil.isSome = true) :
    RecordOk threshold clock history record := by
  refine ⟨hfirst, hcount, ?_⟩
  intro htemporary hnone
  rcases hbanned with hpermanent | hsome
  · rw [htemporary] at hpermanent
    cases hpermanent
  · rw [hnone] at hsome
    cases hsome

/-- A record that bans nobody starts anew, or goes on as it is. -/
theorem renew_of_free (windowSecs : UInt64) {now : Instant}
    (hfree : ¬ record.isBanned now = true) :
    (record.renew windowSecs now).permanent = false ∧
      (record.renew windowSecs now).bannedUntil = none ∧
      (((record.renew windowSecs now).count = 0 ∧
          (record.renew windowSecs now).firstViolation = now) ∨
        (record.renew windowSecs now = record ∧
          now.secsSince record.firstViolation < windowSecs.toNat)) := by
  have htemporary : record.permanent = false := by
    cases hpermanent : record.permanent with
    | false => rfl
    | true => exact absurd (IpRecord.isBanned_of_permanent hpermanent now) hfree
  cases hbanned : record.bannedUntil with
  | none =>
    unfold IpRecord.renew
    by_cases hwindow : now.secsSince record.firstViolation ≥ windowSecs.toNat
    · simp [hwindow, htemporary, hbanned]
    · simp [hwindow, htemporary, hbanned, Nat.not_le.mp hwindow]
  | some bannedUntil =>
    have hover : bannedUntil.nanos ≤ now.nanos := by
      simpa [IpRecord.isBanned, htemporary, hbanned] using hfree
    unfold IpRecord.renew
    simp only
    split <;> simp [htemporary, hbanned, hover]

/-- The record that a violation is counted in. -/
structure Rests (threshold : UInt32) (windowSecs : UInt64) (now : Instant) (history : List Event)
    (record : IpRecord) : Prop where
  permanent : record.permanent = false
  bannedUntil : record.bannedUntil = none
  first : record.firstViolation.nanos ≤ now.nanos
  window : now.secsSince record.firstViolation < max windowSecs.toNat 1
  count : record.count.toNat ≤ max threshold.toNat 1
  tallied : record.count.toNat ≤
    (recent record.firstViolation (countedSince history)).length + 1

theorem rests_fresh (threshold : UInt32) (windowSecs : UInt64) {now : Instant}
    (history : List Event) (hpermanent : record.permanent = false)
    (hbanned : record.bannedUntil = none) (hfirst : record.firstViolation = now)
    (hcount : record.count = 1) : Rests threshold windowSecs now history record := by
  refine ⟨hpermanent, hbanned, Nat.le_of_eq (congrArg Instant.nanos hfirst), ?_, ?_, ?_⟩
  · rw [hfirst]
    simp [Instant.secsSince]
  · rw [hcount, UInt32.toNat_one]
    exact Nat.le_max_right _ _
  · rw [hcount, UInt32.toNat_one]
    exact Nat.le_add_left _ _

/-- The count does not wrap. -/
theorem count_add_one (h : record.count.toNat < max threshold.toNat 1) :
    (record.count + 1).toNat = record.count.toNat + 1 := by
  have hthreshold := threshold.toNat_lt
  rw [UInt32.toNat_add, UInt32.toNat_one]
  omega

theorem rests_of_counted {inner : AutoBanInner} {ip : IpAddr} {now : Instant}
    (hrecord : ∀ old, inner.records.get ip = some old → RecordOk threshold now history old)
    (hfree : ¬ inner.isAutoBanned ip now = true) (h : inner.Counted ip now record) :
    Rests threshold inner.windowSecs now history record := by
  cases h with
  | fresh hget => exact rests_fresh threshold _ history rfl rfl rfl rfl
  | @renewed old hget =>
    have hold : ¬ old.isBanned now = true := by
      simpa [AutoBanInner.isAutoBanned, hget] using hfree
    obtain ⟨hpermanent, hbanned, ⟨hcount, hfirst⟩ | ⟨hsame, hwindow⟩⟩ :=
      renew_of_free inner.windowSecs hold
    · refine rests_fresh threshold _ history hpermanent hbanned hfirst ?_
      simp only [hcount]
      rfl
    · have hok := hrecord old hget
      rw [hsame] at hpermanent hbanned ⊢
      obtain ⟨hshort, htallied⟩ := hok.tallied hpermanent hbanned
      have hadd := count_add_one hshort
      refine ⟨hpermanent, hbanned, hok.first, Nat.lt_of_lt_of_le hwindow (Nat.le_max_left _ _),
        ?_, ?_⟩
      · simp only
        omega
      · simp only
        omega

theorem banned_ban (record : IpRecord) (policy : AutoBanPolicy) (ip : IpAddr)
    (reason : AutoBanReason) (now : Instant) (banDurationSecs : UInt64) :
    (record.ban policy ip reason now banDurationSecs).count = record.count ∧
      (record.ban policy ip reason now banDurationSecs).firstViolation = record.firstViolation ∧
      ((record.ban policy ip reason now banDurationSecs).permanent = true ∨
        (record.ban policy ip reason now banDurationSecs).bannedUntil.isSome = true) := by
  simp only [IpRecord.ban]
  unfold IpRecord.applyBan
  split
  · exact ⟨rfl, rfl, .inl rfl⟩
  · split
    · exact ⟨rfl, rfl, .inr rfl⟩
    · exact ⟨rfl, rfl, .inl rfl⟩

theorem Rests.banned {windowSecs : UInt64} {now : Instant} {history' : List Event}
    (h : Rests threshold windowSecs now history record) (policy : AutoBanPolicy) (ip : IpAddr)
    (reason : AutoBanReason) (banDurationSecs : UInt64) :
    RecordOk threshold now history' (record.ban policy ip reason now banDurationSecs) := by
  obtain ⟨hcount, hfirst, hbanned⟩ := banned_ban record policy ip reason now banDurationSecs
  refine recordOk_of_banned ?_ ?_ hbanned
  · rw [hcount]
    exact h.count
  · rw [hfirst]
    exact h.first

theorem Rests.counted {windowSecs : UInt64} {now : Instant}
    (h : Rests threshold windowSecs now history record) (hshort : ¬ threshold ≤ record.count) :
    RecordOk threshold now (.counted now :: history) record := by
  have hlt : record.count.toNat < threshold.toNat :=
    Nat.not_le.mp fun hle => hshort (UInt32.le_iff_toNat_le.mpr hle)
  refine ⟨h.first, h.count, fun _ _ => ⟨Nat.lt_of_lt_of_le hlt (Nat.le_max_left _ _), ?_⟩⟩
  have hcons : recent record.firstViolation (countedSince (.counted now :: history)) =
      now :: recent record.firstViolation (countedSince history) :=
    List.filter_cons_of_pos (decide_eq_true h.first)
  rw [hcons]
  exact h.tallied

end Records

structure Tallied (tracker : AutoBanTracker) (s : Thresholds) : Prop where
  agree : BanSpans.Agree s.spans
  threshold : s.spans.inner.threshold = tracker.inner.threshold
  windowSecs : s.spans.inner.windowSecs = tracker.inner.windowSecs
  ledger : ∀ ip, lastBan (s.history ip) = s.spans.ledger ip
  outside : ∀ {ip time}, time ∈ countedSince (s.history ip) →
    time.nanos ≤ s.spans.clock.nanos ∧
      ∀ ban, lastBan (s.history ip) = some ban → ban.inForce time = false
  record : ∀ {ip record}, s.spans.inner.records.get ip = some record →
    RecordOk tracker.inner.threshold s.spans.clock (s.history ip) record

theorem tallied_init (config : AutoBanConfig) (clock : Instant) :
    Tallied (.fromConfig config) (init (.fromConfig config) clock) where
  agree := BanSpans.agree_init config clock
  threshold := rfl
  windowSecs := rfl
  ledger := fun _ => rfl
  outside := nofun
  record := nofun

/-- The address is not banned in the ledger when a violation of it is counted. -/
theorem Tallied.not_inForce (hs : Tallied tracker s) {ip : IpAddr}
    (hfree : ¬ s.spans.inner.isAutoBanned ip s.spans.clock = true) {ban : Ban}
    (hlast : lastBan (s.history ip) = some ban) : ban.inForce s.spans.clock = false := by
  rw [hs.agree.isAutoBanned, BanSpans.banned, ← hs.ledger, hlast] at hfree
  simpa using hfree

theorem Tallied.justified (hs : Tallied tracker s) (act : BanSpans.Action) :
    Justified tracker (max tracker.inner.windowSecs.toNat 1) s act := by
  cases act with
  | recordViolation ip reason =>
    intro htier htrue
    have hcounts : s.spans.inner.counts ip s.spans.clock = true := by
      by_contra hnot
      have hfalse := (AutoBanInner.recordViolation_uncounted tracker.policy reason
        (by simpa using hnot)).1
      rw [htrue] at hfalse
      cases hfalse
    obtain ⟨room, record, -, -, hrecord, hresult⟩ :=
      AutoBanInner.recordViolation_counted tracker.policy reason hcounts
    have hfree := AutoBanInner.free_of_counts hcounts
    have hrests := rests_of_counted (fun old hget => hs.record hget) hfree hrecord
    have hreached : s.spans.inner.threshold ≤ record.count := by
      rw [hresult] at htrue
      split at htrue
      · rename_i h
        exact h.resolve_left htier
      · cases htrue
    rw [hs.threshold] at hreached
    have hcount := UInt32.le_iff_toNat_le.mp hreached
    refine ⟨recent record.firstViolation (countedSince (s.history ip)), List.filter_sublist,
      Nat.le_trans hcount hrests.tallied, ?_⟩
    have hwindow := hrests.window
    rw [hs.windowSecs] at hwindow
    intro time hmem
    rcases List.mem_cons.mp hmem with rfl | hmem
    · refine ⟨Nat.le_refl _, ?_, fun ban => hs.not_inForce hfree⟩
      exact Nat.lt_of_le_of_lt (by simp [Instant.secsSince]) hwindow
    · obtain ⟨hmem, hfirst⟩ := List.mem_filter.mp hmem
      obtain ⟨hle, hoff⟩ := hs.outside hmem
      refine ⟨hle, Nat.lt_of_le_of_lt ?_ hwindow, hoff⟩
      have hfirst := of_decide_eq_true hfirst
      exact Nat.div_le_div_right (by omega)
  | persistIp | loadClientBans | cleanup | flush | persistFlushed | removeFlushed
  | reloadFailed | tick => trivial

theorem Tallied.countsBounded (hs : Tallied tracker s) : CountsBounded tracker s := by
  intro ip record hget
  have hok := hs.record hget
  refine ⟨hok.count, ?_⟩
  intro hfree
  have hthreshold := tracker.inner.threshold.toNat_lt
  obtain ⟨hpermanent, hbanned, ⟨hcount, -⟩ | ⟨hsame, -⟩⟩ :=
    renew_of_free s.spans.inner.windowSecs hfree
  · rw [hcount]
    decide
  · rw [hsame] at hpermanent hbanned ⊢
    have hshort := (hok.tallied hpermanent hbanned).1
    simp only [UInt32.size]
    omega

section Steps
variable {spans spans' : BanSpans}

theorem settings_step (h : spans.step tracker act = some spans') :
    spans'.inner.threshold = spans.inner.threshold ∧
      spans'.inner.windowSecs = spans.inner.windowSecs := by
  cases act with
  | recordViolation ip reason =>
    simp only [BanSpans.step, Option.some.injEq] at h
    have hinner : spans'.inner =
        (spans.inner.recordViolation tracker.policy ip reason spans.clock).2.2 := by
      rw [← h]
      split <;> rfl
    rw [hinner]
    cases hcounts : spans.inner.counts ip spans.clock with
    | false =>
      obtain ⟨-, hpruned, hthreshold⟩ :=
        AutoBanInner.recordViolation_uncounted tracker.policy reason hcounts
      exact ⟨hthreshold, hpruned.windowSecs⟩
    | true =>
      obtain ⟨room, record, hpruned, hthreshold, -, hresult⟩ :=
        AutoBanInner.recordViolation_counted tracker.policy reason hcounts
      rw [hresult]
      split <;> exact ⟨hthreshold, hpruned.windowSecs⟩
  | loadClientBans content nowUnix =>
    obtain rfl := Option.some.inj h
    simp only [AutoBanInner.loadClientBans]
    split <;> exact ⟨rfl, rfl⟩
  | persistIp | cleanup | persistFlushed | reloadFailed =>
    obtain rfl := Option.some.inj h
    exact ⟨rfl, rfl⟩
  | flush ok =>
    simp only [BanSpans.step] at h
    split at h
    · obtain rfl := Option.some.inj h
      exact ⟨rfl, rfl⟩
    · cases h
  | removeFlushed =>
    obtain ⟨ips, -, rfl⟩ := Option.map_eq_some_iff.mp h
    exact ⟨rfl, rfl⟩
  | tick clock =>
    simp only [BanSpans.step] at h
    split at h
    · obtain rfl := Option.some.inj h
      exact ⟨rfl, rfl⟩
    · cases h

/-- The ban in the ledger is the last one in the history. -/
theorem ledger_step (h : spans.step tracker act = some spans') {ip : IpAddr}
    {history : List Event} (hlast : lastBan history = spans.ledger ip) :
    lastBan (events tracker spans spans' act ip ++ history) = spans'.ledger ip := by
  have hcounted : ∀ counted : Bool,
      lastBan ((if counted then [Event.counted spans.clock] else []) ++ history) =
        spans.ledger ip := by
    intro counted
    cases counted <;> exact hlast
  cases act with
  | recordViolation ip' reason =>
    simp only [BanSpans.step, Option.some.injEq] at h
    simp only [events]
    by_cases hip : ip = ip'
    · subst hip
      rw [if_pos rfl]
      cases htrue : (spans.inner.recordViolation tracker.policy ip reason spans.clock).1 with
      | false =>
        rw [htrue] at h
        subst h
        exact hcounted _
      | true =>
        rw [htrue] at h
        subst h
        simp only [if_true, BanSpans.noteBan, Option.toList_some]
        rfl
    · have hledger : spans'.ledger ip = spans.ledger ip := by
        rw [← h]
        split
        · exact if_neg hip
        · rfl
      rw [if_neg hip, hledger]
      exact hlast
  | loadClientBans content nowUnix =>
    obtain rfl := Option.some.inj h
    simp only [events, BanSpans.noteRestored]
    cases restoredUntil content spans.clock nowUnix ip with
    | none => exact hlast
    | some bannedUntil => rfl
  | removeFlushed =>
    obtain ⟨ips, hips, rfl⟩ := Option.map_eq_some_iff.mp h
    simp only [events, BanSpans.noteRemoved, hips, Option.getD_some]
    split
    · rfl
    · exact hlast
  | persistIp | cleanup | persistFlushed | reloadFailed =>
    obtain rfl := Option.some.inj h
    exact hlast
  | flush ok =>
    simp only [BanSpans.step] at h
    split at h
    · obtain rfl := Option.some.inj h
      exact hlast
    · cases h
  | tick clock =>
    simp only [BanSpans.step] at h
    split at h
    · obtain rfl := Option.some.inj h
      exact hlast
    · cases h

/-- A step counts one violation at most, and whatever else it does for an address
is a ban or the end of one. -/
theorem countedSince_events (tracker : AutoBanTracker) (spans spans' : BanSpans)
    (act : BanSpans.Action) (ip : IpAddr) (history : List Event) :
    events tracker spans spans' act ip = [] ∨
      countedSince (events tracker spans spans' act ip ++ history) = [] ∨
      (spans.inner.counts ip spans.clock = true ∧
        events tracker spans spans' act ip = [.counted spans.clock]) := by
  cases act with
  | recordViolation ip' reason =>
    simp only [events]
    by_cases hip : ip = ip'
    · subst hip
      rw [if_pos rfl]
      cases (spans.inner.recordViolation tracker.policy ip reason spans.clock).1 with
      | false =>
        cases hcounts : spans.inner.counts ip spans.clock with
        | false => exact .inl rfl
        | true => exact .inr (.inr ⟨rfl, rfl⟩)
      | true =>
        cases spans'.ledger ip with
        | none =>
          cases hcounts : spans.inner.counts ip spans.clock with
          | false => exact .inl rfl
          | true => exact .inr (.inr ⟨rfl, rfl⟩)
        | some ban => exact .inr (.inl rfl)
    · exact .inl (if_neg hip)
  | loadClientBans content nowUnix =>
    simp only [events]
    cases restoredUntil content spans.clock nowUnix ip with
    | none => exact .inl rfl
    | some bannedUntil => exact .inr (.inl rfl)
  | removeFlushed =>
    simp only [events]
    split
    · exact .inr (.inl rfl)
    · exact .inl rfl
  | persistIp | cleanup | flush | persistFlushed | reloadFailed | tick => exact .inl rfl

theorem outside_step (hs : Tallied tracker s) (h : step tracker s act = some s') {ip : IpAddr}
    {time : Instant} (hmem : time ∈ countedSince (s'.history ip)) :
    time.nanos ≤ s'.spans.clock.nanos ∧
      ∀ ban, lastBan (s'.history ip) = some ban → ban.inForce time = false := by
  obtain ⟨spans', hspans, rfl⟩ := Option.map_eq_some_iff.mp h
  have hclock := (BanSpans.step_clock hspans).2
  simp only at hmem ⊢
  rcases countedSince_events tracker s.spans spans' act ip (s.history ip) with
    hnone | hempty | ⟨hcounts, hevents⟩
  · rw [hnone, List.nil_append] at hmem ⊢
    exact ⟨Nat.le_trans (hs.outside hmem).1 hclock, (hs.outside hmem).2⟩
  · rw [hempty] at hmem
    cases hmem
  · rw [hevents] at hmem ⊢
    rcases List.mem_cons.mp hmem with rfl | hmem
    · refine ⟨hclock, fun ban => hs.not_inForce ?_⟩
      intro hbanned
      simp [AutoBanInner.counts, hbanned] at hcounts
    · exact ⟨Nat.le_trans (hs.outside hmem).1 hclock, (hs.outside hmem).2⟩

/-- Records that are older than the step, in a history that it adds nothing to. -/
theorem Tallied.old (hs : Tallied tracker s) {ip : IpAddr} {record : IpRecord}
    (hget : s.spans.inner.records.get ip = some record) {newer : List Event} (hnone : newer = []) :
    RecordOk tracker.inner.threshold s.spans.clock (newer ++ s.history ip) record := by
  rw [hnone, List.nil_append]
  exact hs.record hget

theorem record_recordViolation (hs : Tallied tracker s) {ip : IpAddr} {reason : AutoBanReason}
    (h : s.spans.step tracker (.recordViolation ip reason) = some spans') {ip' : IpAddr}
    {record' : IpRecord} (hget' : spans'.inner.records.get ip' = some record') :
    RecordOk tracker.inner.threshold s.spans.clock
      (events tracker s.spans spans' (.recordViolation ip reason) ip' ++ s.history ip')
      record' := by
  simp only [BanSpans.step, Option.some.injEq] at h
  have hinner : spans'.inner =
      (s.spans.inner.recordViolation tracker.policy ip reason s.spans.clock).2.2 := by
    rw [← h]
    split <;> rfl
  rw [hinner] at hget'
  simp only [events]
  cases hcounts : s.spans.inner.counts ip s.spans.clock with
  | false =>
    obtain ⟨hfalse, hpruned, -⟩ :=
      AutoBanInner.recordViolation_uncounted tracker.policy reason hcounts
    refine hs.old (hpruned.old hget') ?_
    split
    · rename_i hip
      rw [hip, hfalse, hcounts]
      rfl
    · rfl
  | true =>
    obtain ⟨room, record, hpruned, -, hrecord, hresult⟩ :=
      AutoBanInner.recordViolation_counted tracker.policy reason hcounts
    have hfree := AutoBanInner.free_of_counts hcounts
    have hrests := rests_of_counted (fun old hget => hs.record hget) hfree hrecord
    by_cases hip : ip' = ip
    · subst hip
      rw [hresult, hs.threshold] at hget' ⊢
      rw [if_pos rfl, hcounts]
      split at hget'
      · rw [AutoBanInner.get_setRecord, if_pos rfl] at hget'
        obtain rfl := Option.some.inj hget'
        exact hrests.banned tracker.policy ip' reason s.spans.inner.banDurationSecs
      · rename_i hshort
        rw [AutoBanInner.get_setRecord, if_pos rfl] at hget'
        obtain rfl := Option.some.inj hget'
        rw [if_neg hshort]
        exact hrests.counted fun hle => hshort (.inr hle)
    · refine hs.old ?_ (if_neg hip)
      rw [hresult] at hget'
      split at hget' <;> rw [AutoBanInner.get_setRecord, if_neg hip] at hget' <;>
        exact hpruned.old hget'

theorem count_restore (record : IpRecord) (bannedUntil : Instant) :
    (record.restore bannedUntil).count = record.count ∧
      (record.restore bannedUntil).firstViolation = record.firstViolation ∧
      ((record.restore bannedUntil).permanent = true ∨
        (record.restore bannedUntil).bannedUntil.isSome = true) := by
  unfold IpRecord.restore
  simp only
  split
  · exact ⟨rfl, rfl, .inr rfl⟩
  · rename_i hkept
    refine ⟨rfl, rfl, ?_⟩
    cases hpermanent : record.permanent with
    | true => exact .inl rfl
    | false =>
      cases hbanned : record.bannedUntil with
      | none => simp [hpermanent, hbanned] at hkept
      | some bannedUntil' => exact .inr rfl

theorem record_loadClientBans (hs : Tallied tracker s) (content : List ClientBanLine)
    (nowUnix : UInt64) {ip : IpAddr} {record' : IpRecord}
    (hget' : (s.spans.inner.loadClientBans content s.spans.clock nowUnix).2.records.get ip =
      some record') :
    RecordOk tracker.inner.threshold s.spans.clock
      (events tracker s.spans spans' (.loadClientBans content nowUnix) ip ++ s.history ip)
      record' := by
  rw [get_loadClientBans] at hget'
  simp only [events]
  cases hrestored : restoredUntil content s.spans.clock nowUnix ip with
  | none =>
    rw [hrestored] at hget'
    exact hs.old hget' rfl
  | some bannedUntil =>
    rw [hrestored] at hget'
    obtain rfl := Option.some.inj hget'
    obtain ⟨hcount, hfirst, hbanned⟩ := count_restore
      ((s.spans.inner.records.get ip).getD { IpRecord.new s.spans.clock with count := 1 })
      bannedUntil
    refine recordOk_of_banned ?_ ?_ hbanned
    · rw [hcount]
      cases hget : s.spans.inner.records.get ip with
      | none => exact Nat.le_max_right _ _
      | some record => exact (hs.record hget).count
    · rw [hfirst]
      cases hget : s.spans.inner.records.get ip with
      | none => exact Nat.le_refl _
      | some record => exact (hs.record hget).first

theorem record_map (hs : Tallied tracker s) {f : IpAddr → IpRecord → IpRecord} {ip : IpAddr}
    {record' : IpRecord} (hget' : (s.spans.inner.records.get ip).map (f ip) = some record')
    (hf : ∀ record, (f ip record).count = record.count ∧
      (f ip record).firstViolation = record.firstViolation ∧
      (f ip record).permanent = record.permanent ∧
      (f ip record).bannedUntil = record.bannedUntil) :
    RecordOk tracker.inner.threshold s.spans.clock (s.history ip) record' := by
  obtain ⟨record, hold, rfl⟩ := Option.map_eq_some_iff.mp hget'
  obtain ⟨hcount, hfirst, hpermanent, hbanned⟩ := hf record
  exact (hs.record hold).same hcount hfirst hpermanent hbanned

theorem record_step (hs : Tallied tracker s) (h : s.spans.step tracker act = some spans')
    {ip : IpAddr} {record' : IpRecord} (hget' : spans'.inner.records.get ip = some record') :
    RecordOk tracker.inner.threshold spans'.clock
      (events tracker s.spans spans' act ip ++ s.history ip) record' := by
  cases act with
  | recordViolation ip' reason =>
    have hclock : spans'.clock = s.spans.clock := (BanSpans.step_clock h).1
    rw [hclock]
    exact record_recordViolation hs h hget'
  | loadClientBans content nowUnix =>
    obtain rfl := Option.some.inj h
    exact record_loadClientBans hs content nowUnix hget'
  | persistIp ip' =>
    obtain rfl := Option.some.inj h
    have hmark : (s.spans.inner.markBan ip').records.get ip =
        (s.spans.inner.records.get ip).map fun record =>
          if ip = ip' ∧ record.permanent = true then { record with persisted := true }
          else record := by
      rw [AutoBanInner.markBan, IndexMap.get_modify]
      by_cases hip : ip = ip'
      · subst hip
        simp
      · simp [hip]
    refine record_map hs (f := fun ip record =>
      if ip = ip' ∧ record.permanent = true then { record with persisted := true } else record)
      (hmark.symm.trans hget') ?_
    intro record
    split <;> exact ⟨rfl, rfl, rfl, rfl⟩
  | persistFlushed ips =>
    obtain rfl := Option.some.inj h
    refine record_map hs (f := fun ip record =>
      if ip ∈ ips then { record with persisted := true } else record)
      ((s.spans.inner.get_markPersisted ips ip).symm.trans hget') ?_
    intro record
    split <;> exact ⟨rfl, rfl, rfl, rfl⟩
  | cleanup =>
    obtain rfl := Option.some.inj h
    exact hs.record ((s.spans.inner.pruned_cleanup s.spans.clock).old hget')
  | reloadFailed =>
    obtain rfl := Option.some.inj h
    exact hs.record hget'
  | flush ok =>
    simp only [BanSpans.step] at h
    split at h
    · obtain rfl := Option.some.inj h
      exact hs.record hget'
    · cases h
  | removeFlushed =>
    obtain ⟨ips, hips, rfl⟩ := Option.map_eq_some_iff.mp h
    simp only [AutoBanInner.get_removeIps] at hget'
    split at hget'
    · cases hget'
    · rename_i hout
      refine hs.old hget' (if_neg fun hremoved => hout ?_)
      rw [hips] at hremoved
      exact hremoved.1
  | tick clock =>
    simp only [BanSpans.step] at h
    split at h
    · rename_i hle
      obtain rfl := Option.some.inj h
      exact (hs.record hget').later hle
    · cases h

theorem tallied_step (hs : Tallied tracker s) (h : step tracker s act = some s') :
    Tallied tracker s' := by
  have houtside := @outside_step tracker s s' act hs h
  obtain ⟨spans', hspans, rfl⟩ := Option.map_eq_some_iff.mp h
  obtain ⟨hthreshold, hwindow⟩ := settings_step hspans
  exact
    { agree := BanSpans.agree_step hs.agree hspans
      threshold := hthreshold.trans hs.threshold
      windowSecs := hwindow.trans hs.windowSecs
      ledger := fun ip => ledger_step hspans (hs.ledger ip)
      outside := houtside
      record := record_step hs hspans }

end Steps

/-- In every run of a tracker, a ban that is not issued at once rests on as many
violations as the threshold, and the counts stay within their range. -/
theorem threshold_bans_justified (config : AutoBanConfig) (clock : Instant)
    (as : List BanSpans.Action) :
    AllSteps (step (.fromConfig config))
      (fun s act s' => Justified (.fromConfig config) (max config.windowSecs.toNat 1) s act ∧
        CountsBounded (.fromConfig config) s')
      (init (.fromConfig config) clock) as :=
  allSteps_of_kept tallied_step
    (fun hs h => ⟨hs.justified _, (tallied_step hs h).countsBounded⟩)
    (tallied_init config clock) as

/-- A single violation takes no time, but not less than no time. -/
theorem threshold_ban_without_window :
    ¬ AllSteps (step (.fromConfig { AutoBanConfig.default with threshold := 1, windowSecs := 0 }))
      (fun s act _ => Justified (.fromConfig
        { AutoBanConfig.default with threshold := 1, windowSecs := 0 }) 0 s act)
      (init (.fromConfig { AutoBanConfig.default with threshold := 1, windowSecs := 0 }) ⟨0⟩)
      [.recordViolation History.offender .privateIp] := by
  intro h
  obtain ⟨times, -, -, hspan⟩ := (h _ rfl).1 (by decide) (by decide)
  exact absurd (hspan _ List.mem_cons_self).2.1 (Nat.not_lt_zero _)

end Thresholds

end Aquatic.AutoBan
