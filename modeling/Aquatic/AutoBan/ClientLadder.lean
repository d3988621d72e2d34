import Aquatic.AutoBan.BanSpans

/-!
# Client bans and the escalation ladder

Two runs of a tracker in lockstep, which differ in client violations that only
one of them sees. A client ban has a duration of its own, but it is counted as an
offence before its reason is looked at, so it moves the next ban of another
reason up the ladder until it has decayed. When it has expired, it also sets the
count of violations back, so that the next ban may come at another violation.
-/

namespace Aquatic.AutoBan
open Collections Transition
set_option autoImplicit false

/-- The address that a step bans. -/
def BanSpans.bans (tracker : AutoBanTracker) (s : BanSpans) : BanSpans.Action → Option IpAddr
  | .recordViolation ip reason =>
    if (s.inner.recordViolation tracker.policy ip reason s.clock).1 then some ip else none
  | _ => none

/-- The ban that a step gives: the address and the reason. -/
def BanSpans.gives (tracker : AutoBanTracker) (s : BanSpans) :
    BanSpans.Action → Option (IpAddr × AutoBanReason)
  | .recordViolation ip reason =>
    if (s.inner.recordViolation tracker.policy ip reason s.clock).1 then some (ip, reason) else none
  | _ => none

namespace BanSpans
variable {tracker : AutoBanTracker} {s s' : BanSpans} {act : Action}

/-- What a step leaves that bans nobody: no offence is counted. -/
structure Uncounted (s s' : BanSpans) : Prop where
  banDurationSecs : s'.inner.banDurationSecs = s.inner.banDurationSecs
  history : ∀ {ip record'}, s'.inner.records.get ip = some record' →
    (∃ record, s.inner.records.get ip = some record ∧ record.SameHistory record') ∨
      record'.lastOffense = none

theorem Uncounted.of_old (hduration : s'.inner.banDurationSecs = s.inner.banDurationSecs)
    (hold : ∀ {ip record}, s'.inner.records.get ip = some record →
      s.inner.records.get ip = some record) : Uncounted s s' :=
  ⟨hduration, fun hget => .inl ⟨_, hold hget, rfl, rfl⟩⟩

theorem Uncounted.of_map {f : IpAddr → IpRecord → IpRecord}
    (hduration : s'.inner.banDurationSecs = s.inner.banDurationSecs)
    (hget : ∀ ip, s'.inner.records.get ip = (s.inner.records.get ip).map (f ip))
    (hf : ∀ ip (record : IpRecord), record.SameHistory (f ip record)) : Uncounted s s' := by
  refine ⟨hduration, ?_⟩
  intro ip record' hget'
  rw [hget] at hget'
  obtain ⟨record, hrecord, rfl⟩ := Option.map_eq_some_iff.mp hget'
  exact .inl ⟨record, hrecord, hf ip record⟩

theorem sameHistory_restore (record : IpRecord) (bannedUntil : Instant) :
    record.SameHistory (record.restore bannedUntil) := by
  unfold IpRecord.restore
  simp only
  split <;> exact ⟨rfl, rfl⟩

theorem uncounted_loadClientBans (content : List ClientBanLine) (nowUnix : UInt64) :
    Uncounted s { s.noteRestored content nowUnix with
      inner := (s.inner.loadClientBans content s.clock nowUnix).2 } := by
  refine ⟨?_, ?_⟩
  · simp only [AutoBanInner.loadClientBans]
    split <;> rfl
  · intro ip record' hget
    rw [get_loadClientBans] at hget
    cases hrestored : restoredUntil content s.clock nowUnix ip with
    | none =>
      rw [hrestored] at hget
      exact .inl ⟨record', hget, rfl, rfl⟩
    | some bannedUntil =>
      rw [hrestored] at hget
      cases hget
      cases hold : s.inner.records.get ip with
      | none =>
        exact .inr (sameHistory_restore { IpRecord.new s.clock with count := 1 } bannedUntil).2
      | some record => exact .inl ⟨record, rfl, sameHistory_restore record bannedUntil⟩

theorem uncounted_of_step (h : step tracker s act = some s') (hnone : s.bans tracker act = none) :
    Uncounted s s' := by
  cases act with
  | recordViolation ip reason =>
    have hbans : (s.inner.recordViolation tracker.policy ip reason s.clock).1 = false := by
      simpa [bans] using hnone
    have hspec := s.inner.recordViolation_spec tracker.policy ip reason s.clock
    simp only [step, Option.some.injEq] at h
    generalize s.inner.recordViolation tracker.policy ip reason s.clock = result at h hbans hspec
    rw [hbans] at h
    subst h
    cases hspec with
    | ignored hpruned => exact .of_old hpruned.banDurationSecs hpruned.old
    | @counted room record hfree hpruned hrecord =>
      refine ⟨hpruned.banDurationSecs, ?_⟩
      intro ip' record' hget
      simp only [Bool.false_eq_true, if_false] at hget
      rw [AutoBanInner.get_setRecord] at hget
      split at hget
      · rename_i hip
        cases hget
        rw [hip]
        exact hrecord.history.imp_right fun hnew => hnew.2.2
      · exact .inl ⟨_, hpruned.old hget, rfl, rfl⟩
    | banned => cases hbans
  | persistIp ip =>
    cases h
    refine .of_map rfl (f := fun ip' record => if ip' = ip ∧ record.permanent = true then
      { record with persisted := true } else record) ?_ ?_
    · intro ip'
      rw [AutoBanInner.markBan, IndexMap.get_modify]
      by_cases hip : ip' = ip
      · subst hip
        simp
      · simp [hip]
    · intro ip' record
      split <;> exact ⟨rfl, rfl⟩
  | loadClientBans content nowUnix =>
    cases h
    exact uncounted_loadClientBans content nowUnix
  | cleanup =>
    cases h
    exact .of_old rfl (s.inner.pruned_cleanup s.clock).old
  | flush ok =>
    simp only [step] at h
    split at h
    · cases h
      exact .of_old rfl id
    · cases h
  | persistFlushed ips =>
    cases h
    refine .of_map rfl (s.inner.get_markPersisted ips) ?_
    intro ip record
    split <;> exact ⟨rfl, rfl⟩
  | removeFlushed =>
    obtain ⟨ips, -, rfl⟩ := Option.map_eq_some_iff.mp h
    refine .of_old rfl ?_
    intro ip record hget
    simp only [AutoBanInner.get_removeIps] at hget
    split at hget
    · cases hget
    · exact hget
  | reloadFailed =>
    cases h
    exact .of_old rfl id
  | tick clock =>
    simp only [step] at h
    split at h
    · cases h
      exact .of_old rfl id
    · cases h

/-- What a step leaves that bans an address. -/
structure Offended (policy : AutoBanPolicy) (s : BanSpans) (ip : IpAddr) (s' : BanSpans) :
    Prop where
  banDurationSecs : s'.inner.banDurationSecs = s.inner.banDurationSecs
  banned : ∃ record', s'.inner.records.get ip = some record' ∧
    record'.offenses = s.nextOffense policy ip ∧ record'.lastOffense = some s.clock
  others : ∀ {ip' record'}, ip' ≠ ip → s'.inner.records.get ip' = some record' →
    s.inner.records.get ip' = some record'

/-- A record is that of the new ban or an old one. -/
theorem Offended.record {policy : AutoBanPolicy} {ip ip' : IpAddr} {record' : IpRecord}
    (h : Offended policy s ip s') (hget : s'.inner.records.get ip' = some record') :
    (ip' = ip ∧ record'.offenses = s.nextOffense policy ip ∧
      record'.lastOffense = some s.clock) ∨
      ip' ≠ ip ∧ s.inner.records.get ip' = some record' := by
  by_cases hip : ip' = ip
  · subst hip
    obtain ⟨banned, hbanned, hoffense⟩ := h.banned
    cases hget.symm.trans hbanned
    exact .inl ⟨rfl, hoffense⟩
  · exact .inr ⟨hip, h.others hip hget⟩

theorem bans_eq_some_iff {ip : IpAddr} : s.bans tracker act = some ip ↔
    ∃ reason, act = .recordViolation ip reason ∧
      (s.inner.recordViolation tracker.policy ip reason s.clock).1 = true := by
  cases act with
  | recordViolation ip' reason =>
    rw [bans, Option.ite_none_right_eq_some, Option.some.injEq]
    constructor
    · rintro ⟨hbans, rfl⟩
      exact ⟨reason, rfl, hbans⟩
    · rintro ⟨_, hact, hbans⟩
      cases hact
      exact ⟨hbans, rfl⟩
  | persistIp | loadClientBans | cleanup | flush | persistFlushed | removeFlushed
  | reloadFailed | tick => simp [bans]

theorem offended_of_step {ip : IpAddr} {reason : AutoBanReason}
    (h : step tracker s (.recordViolation ip reason) = some s')
    (htrue : (s.inner.recordViolation tracker.policy ip reason s.clock).1 = true) :
    Offended tracker.policy s ip s' := by
  obtain ⟨room, record, -, hpruned, hrecord, heq⟩ := AutoBanInner.recordViolation_ban htrue
  obtain ⟨hoffenses, hlast, -⟩ :=
    record.ban_spec tracker.policy ip reason s.clock s.inner.banDurationSecs
  simp only [step, heq, if_true, Option.some.injEq] at h
  have hget := (room.get_setRecord ip (record.ban tracker.policy ip reason s.clock
    s.inner.banDurationSecs) ip).trans (if_pos rfl)
  subst h
  refine ⟨hpruned.banDurationSecs, ⟨_, hget, ?_, hlast⟩, ?_⟩
  · rw [hoffenses, nextOffense_eq hrecord]
  · intro ip' record' hne hget'
    rw [AutoBanInner.get_setRecord, if_neg hne] at hget'
    exact hpruned.old hget'

end BanSpans

/-- One of the runs. The bans that count are all but the client bans that only this
run gives. For each address, when the last of them was given and how many there have
been in a row, the last other client ban since, and of the bans for other reasons,
the newest first, their tiers with the length of the row, and their kinds. -/
structure LadderRun where
  spans : BanSpans
  row : IpAddr → Option (Instant × UInt32)
  alone : IpAddr → Option Instant
  ranks : IpAddr → List (AutoBanTier × UInt32)
  kinds : IpAddr → List BanKind

namespace LadderRun

def init (tracker : AutoBanTracker) (clock : Instant) : LadderRun :=
  ⟨.init tracker clock, fun _ => none, fun _ => none, fun _ => [], fun _ => []⟩

/-- The tracker still has the record of an offence. -/
def remembers (r : LadderRun) (ip : IpAddr) : Bool :=
  (r.spans.inner.records.get ip).any fun record => record.lastOffense.isSome

/-- The length of the row with one more ban. -/
def nextRow (policy : AutoBanPolicy) (r : LadderRun) (ip : IpAddr) : UInt32 :=
  match r.row ip with
  | some (last, n) =>
    if r.remembers ip ∧ r.spans.clock.secsSince last < policy.offenseDecaySecs.toNat then
      if n = 0xffffffff then n else n + 1
    else 1
  | none => 1

def noteAlone (r : LadderRun) (ip : IpAddr) : LadderRun :=
  { r with alone := fun ip' => if ip' = ip then some r.spans.clock else r.alone ip' }

def noteCounted (policy : AutoBanPolicy) (r : LadderRun) (ip : IpAddr) : LadderRun :=
  { r with
    row := fun ip' =>
      if ip' = ip then some (r.spans.clock, r.nextRow policy ip) else r.row ip'
    alone := fun ip' => if ip' = ip then none else r.alone ip' }

def noteOther (policy : AutoBanPolicy) (r : LadderRun) (ip : IpAddr) (reason : AutoBanReason) :
    LadderRun :=
  { r.noteCounted policy ip with
    ranks := fun ip' =>
      if ip' = ip then (reason.tier, r.nextRow policy ip) :: r.ranks ip' else r.ranks ip'
    kinds := fun ip' =>
      if ip' = ip then r.spans.nextKind policy ip reason :: r.kinds ip' else r.kinds ip' }

/-- Note the ban of a step; `alone` says that the other run does not give it. -/
def note (policy : AutoBanPolicy) (r : LadderRun) (alone : Bool) :
    Option (IpAddr × AutoBanReason) → LadderRun
  | some (ip, reason) =>
    if reason = .clientBanned then
      if alone then r.noteAlone ip else r.noteCounted policy ip
    else r.noteOther policy ip reason
  | none => r

def gives (tracker : AutoBanTracker) (r : LadderRun) (act : Option BanSpans.Action) :
    Option (IpAddr × AutoBanReason) := act.bind (r.spans.gives tracker)

def step (tracker : AutoBanTracker) (r : LadderRun) (act : Option BanSpans.Action)
    (alone : Bool) : Option LadderRun :=
  match act with
  | some act => (r.spans.step tracker act).map fun spans =>
      { r.note tracker.policy alone (r.spans.gives tracker act) with spans }
  | none => some r

/-- When a ban is given that counts, the last client ban that does not has decayed or
is not in the records any more. -/
def Undisturbed (tracker : AutoBanTracker) (r : LadderRun) (act : Option BanSpans.Action)
    (alone : Bool) : Prop :=
  ∀ ip reason, r.gives tracker act = some (ip, reason) → (reason = .clientBanned → alone = false) →
    ∀ last, r.alone ip = some last → r.remembers ip = true →
      tracker.policy.offenseDecaySecs.toNat ≤ r.spans.clock.secsSince last

end LadderRun

structure RunPair where
  first : LadderRun
  second : LadderRun

namespace RunPair

inductive Action where
  | both (act : BanSpans.Action)
  | firstOnly (ip : IpAddr)
  | secondOnly (ip : IpAddr)

def Action.first : Action → Option BanSpans.Action
  | both act => some act
  | firstOnly ip => some (.recordViolation ip .clientBanned)
  | secondOnly _ => none

def Action.second : Action → Option BanSpans.Action
  | both act => some act
  | firstOnly _ => none
  | secondOnly ip => some (.recordViolation ip .clientBanned)

def init (tracker : AutoBanTracker) (clock : Instant) : RunPair :=
  ⟨.init tracker clock, .init tracker clock⟩

def step (tracker : AutoBanTracker) (p : RunPair) (act : Action) : Option RunPair := do
  let first ← p.first.step tracker act.first (p.second.gives tracker act.second).isNone
  let second ← p.second.step tracker act.second (p.first.gives tracker act.first).isNone
  return ⟨first, second⟩

/-- The lists agree as far as both go, from the oldest entry on. -/
def InStep {α : Type} (xs ys : List α) : Prop := xs <:+ ys ∨ ys <:+ xs

instance {α : Type} [DecidableEq α] (xs ys : List α) : Decidable (InStep xs ys) :=
  inferInstanceAs (Decidable (xs <:+ ys ∨ ys <:+ xs))

end RunPair

namespace LadderRun
variable {tracker : AutoBanTracker} {r r' : LadderRun} {ip : IpAddr}

/-- Where the history of a record comes from. -/
def FromBan (r : LadderRun) (ip : IpAddr) (record : IpRecord) : Prop :=
  ∀ last, record.lastOffense = some last → r.row ip = some (last, record.offenses) ∨
    ((∃ t, r.alone ip = some t ∧ last.nanos ≤ t.nanos) ∧
      ∀ t n, r.row ip = some (t, n) → t.nanos ≤ last.nanos)

/-- A reason of the tier, other than that of a client ban. -/
def sample : AutoBanTier → AutoBanReason
  | .immediate => .sqlInjection
  | .suspicious => .privateIp
  | .heuristic => .nonStandardPeerId

/-- The kind of ban that a rank stands for. -/
def rankKind (tracker : AutoBanTracker) (ip : IpAddr) (rank : AutoBanTier × UInt32) : BanKind :=
  tracker.policy.banKind (sample rank.1) ip rank.2 tracker.inner.banDurationSecs

structure Tracked (tracker : AutoBanTracker) (r : LadderRun) : Prop where
  agree : BanSpans.Agree r.spans
  banDurationSecs : r.spans.inner.banDurationSecs = tracker.inner.banDurationSecs
  records : ∀ {ip record}, r.spans.inner.records.get ip = some record → r.FromBan ip record
  rowPast : ∀ {ip last n}, r.row ip = some (last, n) → last.nanos ≤ r.spans.clock.nanos
  alonePast : ∀ {ip last}, r.alone ip = some last → last.nanos ≤ r.spans.clock.nanos
  kinds : ∀ ip, r.kinds ip = (r.ranks ip).map (rankKind tracker ip)

/-- Apart from client bans, the kind depends on the tier alone. -/
theorem banKind_sample {reason : AutoBanReason} (h : reason ≠ .clientBanned)
    (policy : AutoBanPolicy) (ip : IpAddr) (offenses : UInt32) (fallbackSecs : UInt64) :
    policy.banKind reason ip offenses fallbackSecs =
      policy.banKind (sample reason.tier) ip offenses fallbackSecs := by
  cases reason <;> first | rfl | exact absurd rfl h

theorem FromBan.congr {record : IpRecord} (h : r.FromBan ip record)
    (hrow : r'.row ip = r.row ip) (halone : r'.alone ip = r.alone ip) : r'.FromBan ip record := by
  intro last hlast
  rw [hrow, halone]
  exact h last hlast

theorem Tracked.noteAlone (hr : Tracked tracker r) {spans : BanSpans}
    (h : BanSpans.Offended tracker.policy r.spans ip spans) (hagree : BanSpans.Agree spans)
    (hclock : spans.clock = r.spans.clock) :
    Tracked tracker { r.noteAlone ip with spans } where
  agree := hagree
  banDurationSecs := h.banDurationSecs.trans hr.banDurationSecs
  records := by
    intro ip' record' hget
    rcases h.record hget with ⟨rfl, -, hlast⟩ | ⟨hip, hold⟩
    · intro last hlast'
      cases hlast.symm.trans hlast'
      exact .inr ⟨⟨_, if_pos rfl, Nat.le_refl _⟩, fun t n => hr.rowPast⟩
    · exact (hr.records hold).congr rfl (if_neg hip)
  rowPast := by
    intro ip' last n hrow
    rw [hclock]
    exact hr.rowPast hrow
  alonePast := by
    intro ip' last halone
    simp only [LadderRun.noteAlone] at halone
    rw [hclock]
    split at halone
    · cases halone
      exact Nat.le_refl _
    · exact hr.alonePast halone
  kinds := hr.kinds

theorem Tracked.noteCounted (hr : Tracked tracker r) {spans : BanSpans}
    (h : BanSpans.Offended tracker.policy r.spans ip spans) (hagree : BanSpans.Agree spans)
    (hclock : spans.clock = r.spans.clock)
    (hnumber : r.spans.nextOffense tracker.policy ip = r.nextRow tracker.policy ip) :
    Tracked tracker { r.noteCounted tracker.policy ip with spans } where
  agree := hagree
  banDurationSecs := h.banDurationSecs.trans hr.banDurationSecs
  records := by
    intro ip' record' hget
    rcases h.record hget with ⟨rfl, hoffenses, hlast⟩ | ⟨hip, hold⟩
    · intro last hlast'
      cases hlast.symm.trans hlast'
      rw [hoffenses, hnumber]
      exact .inl (if_pos rfl)
    · exact (hr.records hold).congr (if_neg hip) (if_neg hip)
  rowPast := by
    intro ip' last n hrow
    simp only [LadderRun.noteCounted] at hrow
    rw [hclock]
    split at hrow
    · cases hrow
      exact Nat.le_refl _
    · exact hr.rowPast hrow
  alonePast := by
    intro ip' last halone
    simp only [LadderRun.noteCounted] at halone
    rw [hclock]
    split at halone
    · cases halone
    · exact hr.alonePast halone
  kinds := hr.kinds

theorem Tracked.noteOther (hr : Tracked tracker r) {reason : AutoBanReason} {spans : BanSpans}
    (h : BanSpans.Offended tracker.policy r.spans ip spans) (hagree : BanSpans.Agree spans)
    (hclock : spans.clock = r.spans.clock)
    (hnumber : r.spans.nextOffense tracker.policy ip = r.nextRow tracker.policy ip)
    (hreason : reason ≠ .clientBanned) :
    Tracked tracker { r.noteOther tracker.policy ip reason with spans } := by
  have hcounted := hr.noteCounted h hagree hclock hnumber
  refine ⟨hcounted.agree, hcounted.banDurationSecs, ?_, hcounted.rowPast, hcounted.alonePast, ?_⟩
  · exact fun hget => (hcounted.records hget).congr rfl rfl
  · intro ip'
    simp only [LadderRun.noteOther]
    by_cases hip : ip' = ip
    · subst hip
      rw [if_pos rfl, if_pos rfl, List.map_cons, ← hr.kinds, BanSpans.nextKind, hnumber,
        banKind_sample hreason, hr.banDurationSecs]
      rfl
    · rw [if_neg hip, if_neg hip]
      exact hr.kinds ip'

end LadderRun

namespace RunPair
variable {tracker : AutoBanTracker} {p p' : RunPair}

structure Tracked (tracker : AutoBanTracker) (p : RunPair) : Prop where
  first : p.first.Tracked tracker
  second : p.second.Tracked tracker
  ranks : ∀ ip, InStep (p.first.ranks ip) (p.second.ranks ip)

theorem InStep.map {α β : Type} (f : α → β) {xs ys : List α} (h : InStep xs ys) :
    InStep (xs.map f) (ys.map f) := h.imp (fun h => h.map f) (fun h => h.map f)

def nonStandardPeerId : Action :=
  .both (.recordViolation History.offender .nonStandardPeerId)

end RunPair

end Aquatic.AutoBan
