import Aquatic.AutoBan.TrackerSpec
import Aquatic.Lib.Transition

/-!
# Escalation and the cleaning passes

The offence number of an address is kept in its record, and the cleaning passes
drop records by their window, whatever the history in them. The ladder is right
exactly as long as the record of the previous ban is still there.
-/

namespace Aquatic.AutoBan
open Collections Transition
set_option autoImplicit false

/-- The record is banned as long as a ban of this kind lasts from now. -/
def IpRecord.Lasts (record : IpRecord) (now : Instant) : BanKind → Prop
  | .permanent => record.permanent = true
  | .temporary secs =>
    match now.checkedAdd secs with
    | some bannedUntil => record.permanent = false ∧ record.bannedUntil = some bannedUntil
    | none => record.permanent = true

/-- A tracker with a clock and the previous ban of every address: when it was
issued, and with which offence number. -/
structure History where
  inner : AutoBanInner
  clock : Instant
  lastBan : IpAddr → Option (Instant × UInt32)

namespace History

inductive Action where
  | recordViolation (ip : IpAddr) (reason : AutoBanReason)
  | cleanup
  | tick (clock : Instant)

def init (config : AutoBanConfig) (clock : Instant) : History :=
  ⟨(AutoBanTracker.fromConfig config).inner, clock, fun _ => none⟩

def setInner (s : History) (inner : AutoBanInner) : History := { s with inner }

def noteBan (s : History) (ip : IpAddr) : History :=
  { s with lastBan := fun ip' =>
      if ip' = ip then (s.inner.records.get ip).map fun record => (s.clock, record.offenses)
      else s.lastBan ip' }

def step (policy : AutoBanPolicy) (s : History) : Action → Option History
  | .recordViolation ip reason =>
    let (banned, _, inner) := s.inner.recordViolation policy ip reason s.clock
    some (if banned then (s.setInner inner).noteBan ip else s.setInner inner)
  | .cleanup => some (s.setInner (s.inner.cleanup s.clock))
  | .tick clock => if s.clock.nanos ≤ clock.nanos then some { s with clock } else none

/-- The violation leads to a ban. -/
def Bans (policy : AutoBanPolicy) (s : History) (ip : IpAddr) (reason : AutoBanReason) : Prop :=
  (s.inner.recordViolation policy ip reason s.clock).1 = true

/-- The offence number of the previous ban, 0 when it has decayed. -/
def previous (policy : AutoBanPolicy) (s : History) (ip : IpAddr) : Nat :=
  match s.lastBan ip with
  | some (last, offenses) =>
    if s.clock.secsSince last < policy.offenseDecaySecs.toNat then offenses.toNat else 0
  | none => 0

/-- The `n`-th step of the ladder, and a permanent ban after the last one. -/
def ladder (policy : AutoBanPolicy) (n : Nat) : BanKind :=
  match policy.escalationSteps[n - 1]? with
  | some secs => .fromSecs secs
  | none => .permanent

/-- A ban counts one more than the previous one, and a heuristic one lasts as the
step of the ladder with this number says. -/
def Escalates (policy : AutoBanPolicy) (s : History) (act : Action) (s' : History) : Prop :=
  match act with
  | .recordViolation ip reason => Bans policy s ip reason →
    ∃ record, s'.inner.records.get ip = some record ∧
      record.offenses.toNat = previous policy s ip + 1 ∧
      (policy.escalationEnabled = true → reason.tier = .heuristic →
        record.Lasts s.clock (ladder policy (previous policy s ip + 1)))
  | _ => True

/-- The record of an undecayed ban has not been dropped, and its offence number
can be counted up. -/
def HistoryKept (policy : AutoBanPolicy) (s : History) (act : Action) (_ : History) : Prop :=
  match act with
  | .recordViolation ip reason => Bans policy s ip reason → 0 < previous policy s ip →
    ∃ record, s.inner.records.get ip = some record ∧ record.lastOffense.isSome ∧
      record.offenses ≠ 0xffffffff
  | _ => True

/-- Records that have a history have that of the last ban. -/
structure Noted (s : History) : Prop where
  last : ∀ {ip record last}, s.inner.records.get ip = some record →
    record.lastOffense = some last → s.lastBan ip = some (last, record.offenses)
  positive : ∀ {ip last offenses}, s.lastBan ip = some (last, offenses) → offenses ≠ 0

end History

namespace IpRecord

/-- The offence history is the same. -/
def SameHistory (record record' : IpRecord) : Prop :=
  record'.offenses = record.offenses ∧ record'.lastOffense = record.lastOffense

theorem sameHistory_applyBan (record : IpRecord) (kind : BanKind) (now : Instant) :
    SameHistory record (record.applyBan kind now) := by
  unfold applyBan
  split
  · exact ⟨rfl, rfl⟩
  · split <;> exact ⟨rfl, rfl⟩

theorem lasts_applyBan (record : IpRecord) (kind : BanKind) (now : Instant) :
    (record.applyBan kind now).Lasts now kind := by
  unfold applyBan Lasts
  cases kind with
  | permanent => rfl
  | temporary secs =>
    simp only
    cases now.checkedAdd secs with
    | some bannedUntil => exact ⟨rfl, rfl⟩
    | none => rfl

theorem sameHistory_renew (record : IpRecord) (windowSecs : UInt64) (now : Instant) :
    SameHistory record (record.renew windowSecs now) := by
  unfold renew
  simp only
  split <;> split <;> exact ⟨rfl, rfl⟩

theorem isDecayed_iff (record : IpRecord) (now : Instant) (decaySecs : UInt64) :
    record.isDecayed now decaySecs ↔
      ∀ last, record.lastOffense = some last → decaySecs.toNat ≤ now.secsSince last := by
  unfold isDecayed
  cases record.lastOffense with
  | none => simp
  | some last => simp

theorem registerOffense_decayed {record : IpRecord} {now : Instant} {decaySecs : UInt64}
    (h : record.isDecayed now decaySecs = true) :
    (record.registerOffense now decaySecs).offenses = 1 := by
  simp [registerOffense, h]

/-- Without a history the first offence is registered. -/
theorem registerOffense_first {record : IpRecord} (hnone : record.lastOffense = none)
    (now : Instant) (decaySecs : UInt64) :
    (record.registerOffense now decaySecs).offenses = 1 := by
  apply registerOffense_decayed
  rw [isDecayed_iff, hnone]
  exact nofun

theorem isDecayed_iff_of_some {record : IpRecord} {last : Instant}
    (hlast : record.lastOffense = some last) (now : Instant) (decaySecs : UInt64) :
    record.isDecayed now decaySecs ↔ ¬now.secsSince last < decaySecs.toNat := by
  rw [isDecayed_iff, hlast, Nat.not_lt]
  exact ⟨fun h => h last rfl, fun h last' heq => Option.some.inj heq ▸ h⟩

theorem registerOffense_undecayed {record : IpRecord} {now : Instant} {decaySecs : UInt64}
    (h : ¬ record.isDecayed now decaySecs = true) :
    (record.registerOffense now decaySecs).offenses =
      if record.offenses = 0xffffffff then record.offenses else record.offenses + 1 := by
  simp [registerOffense, h]

theorem SameHistory.registerOffense {record record' : IpRecord} (h : record.SameHistory record')
    (now : Instant) (decaySecs : UInt64) :
    (record.registerOffense now decaySecs).offenses =
      (record'.registerOffense now decaySecs).offenses := by
  have hdecayed : record'.isDecayed now decaySecs = record.isDecayed now decaySecs := by
    rw [isDecayed, isDecayed, h.2]
  rw [IpRecord.registerOffense, IpRecord.registerOffense, hdecayed, h.1]

/-- A ban is noted with the next offence number. -/
theorem ban_spec (record : IpRecord) (policy : AutoBanPolicy) (ip : IpAddr)
    (reason : AutoBanReason) (now : Instant) (banDurationSecs : UInt64) :
    (record.ban policy ip reason now banDurationSecs).offenses =
        (record.registerOffense now policy.offenseDecaySecs).offenses ∧
      (record.ban policy ip reason now banDurationSecs).lastOffense = some now ∧
      (record.ban policy ip reason now banDurationSecs).Lasts now
        (policy.banKind reason ip (record.registerOffense now policy.offenseDecaySecs).offenses
          banDurationSecs) := by
  have hsame := sameHistory_applyBan (record.registerOffense now policy.offenseDecaySecs)
    (policy.banKind reason ip (record.registerOffense now policy.offenseDecaySecs).offenses
      banDurationSecs) now
  exact ⟨hsame.1, hsame.2, lasts_applyBan _ _ _⟩

end IpRecord

namespace AutoBanInner

/-- The counted record has the history of the address, if there is one. -/
theorem Counted.history {inner : AutoBanInner} {ip : IpAddr} {now : Instant} {record : IpRecord}
    (h : Counted inner ip now record) :
    (∃ old, inner.records.get ip = some old ∧ old.SameHistory record) ∨
      (inner.records.get ip = none ∧ (IpRecord.new now).SameHistory record) := by
  cases h with
  | @renewed old hget => exact .inl ⟨old, hget, old.sameHistory_renew inner.windowSecs now⟩
  | fresh hget => exact .inr ⟨hget, rfl, rfl⟩

end AutoBanInner

namespace History
variable {policy : AutoBanPolicy} {s s' : History}

theorem noted_init (config : AutoBanConfig) (clock : Instant) : Noted (init config clock) := by
  constructor
  · intro ip record last h
    cases h
  · intro ip last offenses h
    cases h

theorem toNat_succ {n : UInt32} (h : n ≠ 0xffffffff) : (n + 1).toNat = n.toNat + 1 := by
  have hlt := n.toNat_lt
  have hne : n.toNat ≠ 4294967295 := fun heq => h (UInt32.toNat_inj.mp heq)
  rw [UInt32.toNat_add]
  change (n.toNat + 1) % 4294967296 = n.toNat + 1
  omega

theorem offenses_ne_zero (record : IpRecord) (now : Instant) (decaySecs : UInt64) :
    (record.registerOffense now decaySecs).offenses ≠ 0 := by
  by_cases h : record.isDecayed now decaySecs = true
  · rw [IpRecord.registerOffense_decayed h]
    decide
  · rw [IpRecord.registerOffense_undecayed h]
    split
    · rename_i hmax
      rw [hmax]
      decide
    · rename_i hmax
      intro hzero
      have hsucc := toNat_succ hmax
      rw [hzero] at hsucc
      cases hsucc

theorem noted_setInner (hs : Noted s) {inner : AutoBanInner}
    (hkept : ∀ {ip record'}, inner.records.get ip = some record' →
      (∃ record, s.inner.records.get ip = some record ∧ record.SameHistory record') ∨
        record'.lastOffense = none) :
    Noted (s.setInner inner) := by
  refine ⟨?_, hs.positive⟩
  intro ip record' last hget hlast
  rcases hkept hget with ⟨record, hold, hoffenses, hsame⟩ | hnone
  · rw [hoffenses]
    exact hs.last hold (hsame.symm.trans hlast)
  · rw [hnone] at hlast
    cases hlast

theorem noted_step {act : Action} (hs : Noted s) (h : step policy s act = some s') :
    Noted s' := by
  cases act with
  | recordViolation ip reason =>
    have hspec := s.inner.recordViolation_spec policy ip reason s.clock
    simp only [step, Option.some.injEq] at h
    subst h
    generalize s.inner.recordViolation policy ip reason s.clock = result at hspec ⊢
    cases hspec with
    | ignored hpruned => exact noted_setInner hs fun hget => .inl ⟨_, hpruned.old hget, rfl, rfl⟩
    | counted hfree hpruned hrecord =>
      apply noted_setInner hs
      intro ip' record' hget
      rw [AutoBanInner.get_setRecord] at hget
      split at hget
      · rename_i hip
        cases hget
        rw [hip]
        rcases hrecord.history with hold | ⟨-, hnew⟩
        · exact .inl hold
        · exact .inr hnew.2
      · exact .inl ⟨_, hpruned.old hget, rfl, rfl⟩
    | @banned room record secs hfree hpruned hrecord =>
      obtain ⟨hoffenses, hlast, -⟩ := record.ban_spec policy ip reason s.clock secs
      have hban := (room.get_setRecord ip (record.ban policy ip reason s.clock secs) ip).trans
        (if_pos rfl)
      constructor
      · intro ip' record' last hget hlast'
        simp only [if_true, noteBan, setInner] at hget ⊢
        by_cases hip : ip' = ip
        · subst hip
          rw [hban] at hget
          cases hget
          rw [if_pos rfl, hban]
          rw [hlast] at hlast'
          cases hlast'
          rfl
        · rw [AutoBanInner.get_setRecord, if_neg hip] at hget
          rw [if_neg hip]
          exact hs.last (hpruned.old hget) hlast'
      · intro ip' last offenses hlast'
        simp only [if_true, noteBan, setInner] at hlast'
        split at hlast'
        · rw [hban] at hlast'
          cases hlast'
          rw [hoffenses]
          exact offenses_ne_zero record s.clock policy.offenseDecaySecs
        · exact hs.positive hlast'
  | cleanup =>
    cases h
    exact noted_setInner hs fun hget =>
      .inl ⟨_, (s.inner.pruned_cleanup s.clock).old hget, rfl, rfl⟩
  | tick clock =>
    simp only [step] at h
    split at h
    · cases h
      exact ⟨hs.last, hs.positive⟩
    · cases h

theorem banKind_heuristic {reason : AutoBanReason} (henabled : policy.escalationEnabled = true)
    (htier : reason.tier = .heuristic) (ip : IpAddr) (offenses : UInt32) (fallbackSecs : UInt64) :
    policy.banKind reason ip offenses fallbackSecs = ladder policy offenses.toNat := by
  have hreason : reason ≠ .clientBanned := by
    rintro rfl
    cases htier
  simp only [AutoBanPolicy.banKind, hreason, htier, henabled, if_false, Bool.not_true,
    Bool.false_eq_true]
  rfl

/-- The next number after that of the previous ban is given if the record has it. -/
theorem registerOffense_eq_iff (policy : AutoBanPolicy) (hs : Noted s) {ip : IpAddr} {record : IpRecord}
    (hrecord : (∃ old, s.inner.records.get ip = some old ∧ old.SameHistory record) ∨
      (s.inner.records.get ip = none ∧ (IpRecord.new s.clock).SameHistory record)) :
    (0 < previous policy s ip → ∃ old, s.inner.records.get ip = some old ∧
        old.lastOffense.isSome ∧ old.offenses ≠ 0xffffffff) ↔
      (record.registerOffense s.clock policy.offenseDecaySecs).offenses.toNat =
        previous policy s ip + 1 := by
  -- Without a history the number is 1, which is right if nothing is to be continued.
  have hfresh : record.lastOffense = none →
      (∀ old, s.inner.records.get ip = some old → ¬ old.lastOffense.isSome) →
      ((0 < previous policy s ip → ∃ old, s.inner.records.get ip = some old ∧
        old.lastOffense.isSome ∧ old.offenses ≠ 0xffffffff) ↔
      (record.registerOffense s.clock policy.offenseDecaySecs).offenses.toNat =
        previous policy s ip + 1) := by
    intro hnone hold
    rw [IpRecord.registerOffense_first hnone]
    change _ ↔ 1 = previous policy s ip + 1
    constructor
    · intro h
      by_contra hne
      obtain ⟨old, hget, hsome, -⟩ := h (by omega)
      exact hold old hget hsome
    · intro h hpos
      omega
  rcases hrecord with ⟨old, hget, hoffenses, hlast⟩ | ⟨hget, -, hlast⟩
  · cases hold : old.lastOffense with
    | none =>
      apply hfresh (hlast.trans hold)
      intro old' hget'
      rw [hget] at hget'
      cases hget'
      simp [hold]
    | some last =>
      have hban := hs.last hget hold
      have hdecayed := IpRecord.isDecayed_iff_of_some (hlast.trans hold) s.clock
        policy.offenseDecaySecs
      by_cases hrecent : s.clock.secsSince last < policy.offenseDecaySecs.toNat
      · have hundecayed := mt hdecayed.mp (not_not.mpr hrecent)
        have hprevious : previous policy s ip = old.offenses.toNat := by
          simp [previous, hban, hrecent]
        have hpos : 0 < old.offenses.toNat := by
          apply Nat.pos_of_ne_zero
          intro hzero
          exact hs.positive hban (UInt32.toNat_inj.mp hzero)
        rw [IpRecord.registerOffense_undecayed hundecayed, hprevious, hoffenses]
        constructor
        · intro h
          obtain ⟨old', hget', -, hmax⟩ := h hpos
          rw [hget] at hget'
          cases hget'
          rw [if_neg hmax, toNat_succ hmax]
        · intro h _
          refine ⟨old, hget, by rw [hold]; rfl, ?_⟩
          intro hmax
          rw [if_pos hmax] at h
          omega
      · have hprevious : previous policy s ip = 0 := by
          simp [previous, hban, hrecent]
        rw [IpRecord.registerOffense_decayed (hdecayed.mpr hrecent), hprevious]
        exact ⟨fun _ => rfl, fun _ hlt => absurd hlt (Nat.lt_irrefl 0)⟩
  · apply hfresh hlast
    intro old' hget'
    rw [hget] at hget'
    cases hget'

theorem escalates_iff_step {act : Action} (hs : Noted s) (h : step policy s act = some s') :
    HistoryKept policy s act s' ↔ Escalates policy s act s' := by
  cases act with
  | recordViolation ip reason =>
    have hspec := s.inner.recordViolation_spec policy ip reason s.clock
    simp only [step, Option.some.injEq] at h
    subst h
    simp only [HistoryKept, Escalates, Bans]
    generalize s.inner.recordViolation policy ip reason s.clock = result at hspec ⊢
    cases hspec with
    | ignored hpruned => simp
    | counted hfree hpruned hrecord => simp
    | @banned room record secs hfree hpruned hrecord =>
      obtain ⟨hoffenses, -, hlasts⟩ := record.ban_spec policy ip reason s.clock secs
      have hget : (room.setRecord ip (record.ban policy ip reason s.clock secs)).records.get ip =
          some (record.ban policy ip reason s.clock secs) :=
        (room.get_setRecord ip _ ip).trans (if_pos rfl)
      have hnumber := registerOffense_eq_iff policy hs hrecord.history
      simp only [if_true, forall_const]
      rw [hnumber]
      constructor
      · intro h
        refine ⟨_, hget, (congrArg UInt32.toNat hoffenses).trans h, ?_⟩
        intro henabled htier
        rw [← h, ← banKind_heuristic henabled htier ip _ secs]
        exact hlasts
      · rintro ⟨record', hget', h, -⟩
        cases hget.symm.trans hget'
        rw [← hoffenses]
        exact h
  | cleanup => exact Iff.rfl
  | tick clock => exact Iff.rfl

/-- In every run of a tracker, however it is cleaned: all bans escalate as they
should if and only if no ban finds the record of an undecayed one gone. -/
theorem escalates_iff (config : AutoBanConfig) (clock : Instant) (as : List Action) :
    AllSteps (step (AutoBanTracker.fromConfig config).policy)
        (HistoryKept (AutoBanTracker.fromConfig config).policy) (init config clock) as ↔
      AllSteps (step (AutoBanTracker.fromConfig config).policy)
        (Escalates (AutoBanTracker.fromConfig config).policy) (init config clock) as :=
  allSteps_congr noted_step escalates_iff_step (noted_init config clock) as

def offender : IpAddr := .v4 ⟨#v[198, 51, 100, 7]⟩

def ladderConfig : AutoBanConfig :=
  { AutoBanConfig.default with enabled := true, threshold := 1, escalationEnabled := true }

/-- The first ban of 300 seconds is over when the cleaning pass comes, and so is
the window of 60 seconds; the history is to be kept for a day. -/
def forgottenOffense : List Action :=
  [.recordViolation offender .nonStandardPeerId, .tick ⟨301000000000⟩, .cleanup]

theorem offense_forgotten :
    validateAutoBanConfig (fun _ => none) ladderConfig ⟨.on, ⟨"./ip-ban-list.txt"⟩⟩ = .ok () ∧
      ¬ AllSteps (step (AutoBanTracker.fromConfig ladderConfig).policy)
        (Escalates (AutoBanTracker.fromConfig ladderConfig).policy) (init ladderConfig ⟨0⟩)
        (forgottenOffense ++ [.recordViolation offender .nonStandardPeerId]) := by
  refine ⟨by decide, ?_⟩
  intro h
  have hlast := h.last rfl rfl
  obtain ⟨record, hget, hnumber, -⟩ := hlast (by unfold Bans; decide)
  cases hget
  exact absurd hnumber (by decide)

end History

end Aquatic.AutoBan
