import Aquatic.AutoBan.Tracker

/-!
# What a violation and a cleaning pass do to the records
-/

namespace Aquatic.AutoBan
open Collections
set_option autoImplicit false

namespace IpRecord

theorem isBanned_of_permanent {record : IpRecord} (h : record.permanent = true) (now : Instant) :
    record.isBanned now = true := by
  simp [isBanned, h]

theorem isKept_of_permanent {record : IpRecord} (h : record.permanent = true)
    (windowSecs : UInt64) (now : Instant) : record.isKept windowSecs now = true := by
  simp [isKept, isBanned_of_permanent h]

theorem persisted_applyBan (record : IpRecord) (kind : BanKind) (now : Instant) :
    (record.applyBan kind now).persisted = false := by
  unfold applyBan
  split
  · rfl
  · split <;> rfl

theorem permanent_renew (record : IpRecord) (windowSecs : UInt64) (now : Instant) :
    (record.renew windowSecs now).permanent = record.permanent := by
  unfold renew
  simp only
  split <;> split <;> rfl

theorem persisted_of_renew {record : IpRecord} {windowSecs : UInt64} {now : Instant}
    (h : (record.renew windowSecs now).persisted = true) : record.persisted = true := by
  unfold renew at h
  simp only at h
  split at h <;> split at h
  · cases h
  · exact h
  · cases h
  · exact h

end IpRecord

namespace AutoBanInner

/-- Some records are gone, but none that the cleaning passes keep. -/
structure Pruned (now : Instant) (inner inner' : AutoBanInner) : Prop where
  old : ∀ {ip record}, inner'.records.get ip = some record → inner.records.get ip = some record
  kept : ∀ {ip record}, inner.records.get ip = some record →
    record.isKept inner.windowSecs now = true → inner'.records.get ip = some record
  windowSecs : inner'.windowSecs = inner.windowSecs
  banDurationSecs : inner'.banDurationSecs = inner.banDurationSecs

namespace Pruned
variable {now : Instant} {inner inner' inner'' : AutoBanInner}

theorem of_records_eq (hrecords : inner'.records = inner.records)
    (hwindow : inner'.windowSecs = inner.windowSecs)
    (hduration : inner'.banDurationSecs = inner.banDurationSecs) : Pruned now inner inner' :=
  ⟨fun h => hrecords ▸ h, fun h _ => hrecords ▸ h, hwindow, hduration⟩

theorem refl (inner : AutoBanInner) : Pruned now inner inner := of_records_eq rfl rfl rfl

theorem trans (h : Pruned now inner inner') (h' : Pruned now inner' inner'') :
    Pruned now inner inner'' := by
  refine ⟨fun hget => h.old (h'.old hget), ?_, h'.windowSecs.trans h.windowSecs,
    h'.banDurationSecs.trans h.banDurationSecs⟩
  intro ip record hget hkept
  exact h'.kept (h.kept hget hkept) (h.windowSecs.symm ▸ hkept)

end Pruned

theorem pruned_cleanup (inner : AutoBanInner) (now : Instant) :
    Pruned now inner (inner.cleanup now) := by
  refine ⟨?_, ?_, rfl, rfl⟩
  · intro ip record h
    rw [cleanup, IndexMap.get_retain] at h
    exact (Option.filter_eq_some_iff.mp h).1
  · intro ip record h hkept
    rw [cleanup, IndexMap.get_retain]
    exact Option.filter_eq_some_iff.mpr ⟨h, hkept⟩

theorem pruned_capacityCleanup (inner : AutoBanInner) (now : Instant) :
    Pruned now inner (inner.capacityCleanup now) := by
  unfold capacityCleanup
  split
  · exact (inner.pruned_cleanup now).trans (.of_records_eq rfl rfl rfl)
  · exact .refl inner

theorem pruned_growCapacity (inner : AutoBanInner) (now : Instant) :
    Pruned now inner (inner.growCapacity now) := by
  unfold growCapacity
  simp only
  split
  · split
    · exact .of_records_eq rfl rfl rfl
    · split
      · exact .of_records_eq rfl rfl rfl
      · exact .refl inner
  · exact .refl inner

theorem pruned_capacityGuard (inner : AutoBanInner) (ip : IpAddr) (now : Instant) :
    Pruned now inner (inner.capacityGuard ip now).2 := by
  have hroom := (inner.pruned_capacityCleanup now).trans
    ((inner.capacityCleanup now).pruned_growCapacity now)
  unfold capacityGuard
  split
  · simp only
    split
    · split
      · exact hroom.trans (.of_records_eq rfl rfl rfl)
      · exact hroom
    · exact hroom
  · exact .refl inner

/-- Making room does not change what is known of the address that needs it. -/
theorem get_capacityGuard_self (inner : AutoBanInner) (ip : IpAddr) (now : Instant) :
    (inner.capacityGuard ip now).2.records.get ip = inner.records.get ip := by
  cases hget : inner.records.get ip with
  | none =>
    cases hget' : (inner.capacityGuard ip now).2.records.get ip with
    | none => rfl
    | some record =>
      have hold := (inner.pruned_capacityGuard ip now).old hget'
      rw [hget] at hold
      cases hold
  | some record =>
    have hcontains : inner.records.contains ip = true := by simp [IndexMap.contains, hget]
    simp [capacityGuard, hcontains, hget]

theorem get_setRecord (inner : AutoBanInner) (ip : IpAddr) (record : IpRecord) (ip' : IpAddr) :
    (inner.setRecord ip record).records.get ip' =
      if ip' = ip then some record else inner.records.get ip' :=
  IndexMap.get_insert inner.records ip record ip'

/-- The record with one more violation: the renewed one of the address, or a new one. -/
inductive Counted (inner : AutoBanInner) (ip : IpAddr) (now : Instant) : IpRecord → Prop where
  | renewed {old : IpRecord} (hget : inner.records.get ip = some old) :
      Counted inner ip now
        { old.renew inner.windowSecs now with
          count := (old.renew inner.windowSecs now).count + 1 }
  | fresh (hget : inner.records.get ip = none) :
      Counted inner ip now { IpRecord.new now with count := 1 }

theorem Counted.congr {inner inner' : AutoBanInner} {ip : IpAddr} {now : Instant}
    {record : IpRecord} (h : Counted inner' ip now record)
    (hget : inner'.records.get ip = inner.records.get ip)
    (hwindow : inner'.windowSecs = inner.windowSecs) : Counted inner ip now record := by
  cases h with
  | renewed hold =>
    rw [hwindow]
    exact .renewed (hget.symm.trans hold)
  | fresh hnone => exact .fresh (hget.symm.trans hnone)

theorem counted_countViolation (inner : AutoBanInner) (ip : IpAddr) (reason : AutoBanReason)
    (now : Instant) : Counted inner ip now (inner.countViolation ip reason now).2 := by
  unfold countViolation
  cases hget : inner.records.get ip with
  | none => exact .fresh hget
  | some old => exact .renewed hget

/-- The ways a violation goes. -/
inductive Violated (policy : AutoBanPolicy) (inner : AutoBanInner) (ip : IpAddr)
    (reason : AutoBanReason) (now : Instant) : Bool × Bool × AutoBanInner → Prop where
  | ignored {inner' : AutoBanInner} (hpruned : Pruned now inner inner') :
      Violated policy inner ip reason now (false, false, inner')
  | counted {room : AutoBanInner} {record : IpRecord}
      (hfree : ¬ inner.isAutoBanned ip now = true) (hpruned : Pruned now inner room)
      (hrecord : Counted inner ip now record) :
      Violated policy inner ip reason now (false, false, room.setRecord ip record)
  | banned {room : AutoBanInner} {record : IpRecord} (banDurationSecs : UInt64)
      (hfree : ¬ inner.isAutoBanned ip now = true) (hpruned : Pruned now inner room)
      (hrecord : Counted inner ip now record) :
      Violated policy inner ip reason now
        (true, (record.ban policy ip reason now banDurationSecs).permanent,
          room.setRecord ip (record.ban policy ip reason now banDurationSecs))

theorem recordViolation_spec (policy : AutoBanPolicy) (inner : AutoBanInner) (ip : IpAddr)
    (reason : AutoBanReason) (now : Instant) :
    Violated policy inner ip reason now (inner.recordViolation policy ip reason now) := by
  have hpruned := inner.pruned_capacityGuard ip now
  have hrecord := (counted_countViolation (inner.capacityGuard ip now).2 ip reason now).congr
    (get_capacityGuard_self inner ip now) hpruned.windowSecs
  unfold recordViolation
  split
  · exact .ignored (.refl inner)
  rename_i hfree
  simp only
  split
  · exact .ignored hpruned
  split
  · exact .banned _ hfree hpruned hrecord
  · exact .counted hfree hpruned hrecord

/-- A ban is issued with the configured duration as its fallback. -/
theorem recordViolation_ban {policy : AutoBanPolicy} {inner : AutoBanInner} {ip : IpAddr}
    {reason : AutoBanReason} {now : Instant}
    (h : (inner.recordViolation policy ip reason now).1 = true) :
    ∃ room record, ¬ inner.isAutoBanned ip now = true ∧ Pruned now inner room ∧
      Counted inner ip now record ∧
      inner.recordViolation policy ip reason now =
        (true, (record.ban policy ip reason now inner.banDurationSecs).permanent,
          room.setRecord ip (record.ban policy ip reason now inner.banDurationSecs)) := by
  have hpruned := inner.pruned_capacityGuard ip now
  have hrecord := (counted_countViolation (inner.capacityGuard ip now).2 ip reason now).congr
    (get_capacityGuard_self inner ip now) hpruned.windowSecs
  by_cases hfree : inner.isAutoBanned ip now = true
  · simp [recordViolation, hfree] at h
  refine ⟨_, _, hfree, hpruned, hrecord, ?_⟩
  unfold recordViolation at h ⊢
  rw [if_neg hfree] at h ⊢
  simp only at h ⊢
  split at h
  · cases h
  · rename_i hroom
    rw [if_neg hroom]
    split at h
    · rename_i htriggered
      rw [if_pos htriggered, hpruned.banDurationSecs]
    · cases h

theorem get_markPersisted (inner : AutoBanInner) (ips : List IpAddr) (ip : IpAddr) :
    (inner.markPersisted ips).records.get ip = (inner.records.get ip).map fun record =>
      if ip ∈ ips then { record with persisted := true } else record := by
  suffices h : ∀ records : IndexMap IpAddr IpRecord,
      (ips.foldl (fun records ip => records.modify ip fun record =>
        { record with persisted := true }) records).get ip =
        (records.get ip).map fun record =>
          if ip ∈ ips then { record with persisted := true } else record from h inner.records
  induction ips with
  | nil => simp
  | cons ip' ips ih =>
    intro records
    rw [List.foldl_cons, ih, IndexMap.get_modify]
    by_cases hip : ip = ip'
    · subst hip
      cases records.get ip <;> simp
    · simp [hip]

theorem get_removeIps (inner : AutoBanInner) (ips : List IpAddr) (ip : IpAddr) :
    (inner.removeIps ips).records.get ip = if ip ∈ ips then none else inner.records.get ip := by
  suffices h : ∀ records : IndexMap IpAddr IpRecord,
      (ips.foldl IndexMap.erase records).get ip = if ip ∈ ips then none else records.get ip from
    h inner.records
  induction ips with
  | nil => simp
  | cons ip' ips ih =>
    intro records
    rw [List.foldl_cons, ih, IndexMap.get_erase]
    by_cases hip : ip = ip' <;> by_cases hips : ip ∈ ips <;> simp [hip, hips]

/-- The address is banned for good. -/
def Holds (inner : AutoBanInner) (ip : IpAddr) : Prop :=
  ∃ record, inner.records.get ip = some record ∧ record.permanent = true

theorem Holds.isAutoBanned {inner : AutoBanInner} {ip : IpAddr} (h : inner.Holds ip)
    (now : Instant) : inner.isAutoBanned ip now = true := by
  obtain ⟨record, hget, hpermanent⟩ := h
  simp [AutoBanInner.isAutoBanned, hget, IpRecord.isBanned_of_permanent hpermanent]

theorem mem_permanentBans {inner : AutoBanInner} {escalationEnabled : Bool} {now : Instant}
    {ip : IpAddr} (h : ip ∈ (inner.permanentBans escalationEnabled now).1) :
    (inner.banDurationSecs = 0 ∨ escalationEnabled = true) ∧
      ∃ record, inner.records.get ip = some record ∧ record.permanent = true ∧
        (record.persisted = true ∨ ip ∈ (inner.permanentBans escalationEnabled now).2) := by
  unfold permanentBans at h ⊢
  split at h
  · cases h
  · rename_i hexit
    obtain ⟨⟨_, record⟩, hrecord, rfl⟩ := List.mem_map.mp h
    obtain ⟨hmem, hbanned⟩ := List.mem_filter.mp hrecord
    rw [if_neg hexit]
    refine ⟨?_, record, (inner.records.get_eq_some_iff _ _).mpr hmem, ?_, ?_⟩
    · by_cases hduration : inner.banDurationSecs = 0
      · exact .inl hduration
      · exact .inr (by_contra fun hescalation => hexit ⟨hduration, hescalation⟩)
    · exact (Bool.and_eq_true_iff.mp hbanned).1
    · cases hpersisted : record.persisted with
      | true => exact .inl rfl
      | false =>
        refine .inr (List.mem_map.mpr ⟨_, List.mem_filter.mpr ⟨hrecord, ?_⟩, rfl⟩)
        simp [hpersisted]

theorem mem_stillPending {inner : AutoBanInner} {pendingWrite : List IpAddr} {ip : IpAddr}
    {record : IpRecord} (hget : inner.records.get ip = some record) (h : ip ∈ pendingWrite) :
    record.persisted = true ∨ ip ∈ inner.stillPending pendingWrite := by
  cases hpersisted : record.persisted with
  | true => exact .inl rfl
  | false =>
    refine .inr (List.mem_filter.mpr ⟨h, ?_⟩)
    simp [hget, hpersisted]

/-- A step that keeps permanent bans, issues only `Issued` ones, and notes as
persisted only what is `Written`. -/
structure Keeps (Issued Written : IpAddr → Prop) (inner inner' : AutoBanInner) : Prop where
  holds : ∀ {ip}, inner.Holds ip → inner'.Holds ip
  issued : ∀ {ip}, inner'.Holds ip → inner.Holds ip ∨ Issued ip
  persisted : ∀ {ip record'}, inner'.records.get ip = some record' → record'.persisted = true →
    (∃ record, inner.records.get ip = some record ∧ record.persisted = true) ∨ Written ip
  banDurationSecs : inner'.banDurationSecs = inner.banDurationSecs

section Keeps
variable {Issued Written : IpAddr → Prop} {inner inner' : AutoBanInner} {now : Instant}

theorem Pruned.keeps (h : Pruned now inner inner') : Keeps Issued Written inner inner' := by
  refine ⟨?_, ?_, ?_, h.banDurationSecs⟩
  · rintro ip ⟨record, hget, hpermanent⟩
    exact ⟨record, h.kept hget (IpRecord.isKept_of_permanent hpermanent _ _), hpermanent⟩
  · rintro ip ⟨record, hget, hpermanent⟩
    exact .inl ⟨record, h.old hget, hpermanent⟩
  · intro ip record' hget hpersisted
    exact .inl ⟨record', h.old hget, hpersisted⟩

theorem Keeps.refl (inner : AutoBanInner) : Keeps Issued Written inner inner :=
  (@Pruned.refl ⟨0⟩ inner).keeps

theorem Keeps.trans {Issued' Written' : IpAddr → Prop} {inner'' : AutoBanInner}
    (h : Keeps Issued Written inner inner') (h' : Keeps Issued' Written' inner' inner'')
    (hissued : ∀ {ip}, Issued ip → Issued' ip) (hwritten : ∀ {ip}, Written ip → Written' ip) :
    Keeps Issued' Written' inner inner'' := by
  refine ⟨fun hip => h'.holds (h.holds hip), ?_, ?_, h'.banDurationSecs.trans h.banDurationSecs⟩
  · intro ip hip
    rcases h'.issued hip with hip | hip
    · exact (h.issued hip).imp_right hissued
    · exact .inr hip
  · intro ip record'' hget hpersisted
    rcases h'.persisted hget hpersisted with ⟨record', hget, hpersisted⟩ | hip
    · exact (h.persisted hget hpersisted).imp_right hwritten
    · exact .inr hip

/-- A step that changes nothing but what is noted as persisted. -/
theorem keeps_of_noted {f : IpAddr → IpRecord → IpRecord}
    (hget : ∀ ip, inner'.records.get ip = (inner.records.get ip).map (f ip))
    (hpermanent : ∀ ip record, (f ip record).permanent = record.permanent)
    (hwritten : ∀ ip record, (f ip record).persisted = true →
      record.persisted = true ∨ Written ip)
    (hduration : inner'.banDurationSecs = inner.banDurationSecs) :
    Keeps Issued Written inner inner' := by
  refine ⟨?_, ?_, ?_, hduration⟩
  · rintro ip ⟨record, hold, h⟩
    exact ⟨f ip record, by rw [hget, hold]; rfl, (hpermanent ip record).trans h⟩
  · rintro ip ⟨record', hnew, h⟩
    rw [hget] at hnew
    obtain ⟨record, hold, rfl⟩ := Option.map_eq_some_iff.mp hnew
    exact .inl ⟨record, hold, (hpermanent ip record).symm.trans h⟩
  · intro ip record' hnew h
    rw [hget] at hnew
    obtain ⟨record, hold, rfl⟩ := Option.map_eq_some_iff.mp hnew
    rcases hwritten ip record h with h | h
    · exact .inl ⟨record, hold, h⟩
    · exact .inr h

theorem keeps_markBan {ip : IpAddr} (h : Written ip) :
    Keeps Issued Written inner (inner.markBan ip) := by
  apply keeps_of_noted (f := fun ip' record =>
    if ip' = ip ∧ record.permanent = true then { record with persisted := true } else record)
  · intro ip'
    rw [markBan, IndexMap.get_modify]
    by_cases hip : ip' = ip
    · subst hip
      simp
    · simp [hip]
  · intro ip' record
    split <;> rfl
  · intro ip' record hpersisted
    split at hpersisted
    · rename_i hip
      rw [hip.1]
      exact .inr h
    · exact .inl hpersisted
  · rfl

theorem keeps_markPersisted {ips : List IpAddr} (h : ∀ ip ∈ ips, Written ip) :
    Keeps Issued Written inner (inner.markPersisted ips) := by
  apply keeps_of_noted (inner.get_markPersisted ips)
  · intro ip record
    split <;> rfl
  · intro ip record hpersisted
    split at hpersisted
    · rename_i hip
      exact .inr (h ip hip)
    · exact .inl hpersisted
  · rfl

theorem keeps_setRecord {room : AutoBanInner} {ip : IpAddr} {record : IpRecord}
    (hpruned : Pruned now inner room) (hfree : ¬ inner.Holds ip)
    (hissued : record.permanent = true → Issued ip)
    (hpersisted : record.persisted = true →
      ∃ old, inner.records.get ip = some old ∧ old.persisted = true) :
    Keeps Issued Written inner (room.setRecord ip record) := by
  have hroom : Keeps Issued Written inner room := hpruned.keeps
  refine ⟨?_, ?_, ?_, hpruned.banDurationSecs⟩
  · intro ip' h
    have hne : ip' ≠ ip := fun hip => hfree (hip ▸ h)
    obtain ⟨old, hget, hpermanent⟩ := hroom.holds h
    exact ⟨old, by rw [get_setRecord, if_neg hne]; exact hget, hpermanent⟩
  · rintro ip' ⟨record', hget, hpermanent⟩
    rw [get_setRecord] at hget
    split at hget
    · rename_i hip
      cases hget
      exact .inr (hip ▸ hissued hpermanent)
    · exact hroom.issued ⟨record', hget, hpermanent⟩
  · intro ip' record' hget h
    rw [get_setRecord] at hget
    split at hget
    · rename_i hip
      cases hget
      exact .inl (hip ▸ hpersisted h)
    · exact hroom.persisted hget h

theorem Violated.holds {policy : AutoBanPolicy} {ip : IpAddr} {reason : AutoBanReason}
    {result : Bool × Bool × AutoBanInner} (h : Violated policy inner ip reason now result)
    (hbanned : result.1 = true) (hpermanent : result.2.1 = true) : result.2.2.Holds ip := by
  cases h with
  | ignored hpruned => cases hbanned
  | counted hfree hpruned hrecord => cases hbanned
  | @banned room record secs hfree hpruned hrecord =>
    exact ⟨_, (room.get_setRecord ip _ ip).trans (if_pos rfl), hpermanent⟩

theorem Violated.keeps {policy : AutoBanPolicy} {ip : IpAddr} {reason : AutoBanReason}
    {result : Bool × Bool × AutoBanInner} (h : Violated policy inner ip reason now result)
    (hissued : result.1 = true → result.2.1 = true → Issued ip) :
    Keeps Issued Written inner result.2.2 := by
  cases h with
  | ignored hpruned => exact hpruned.keeps
  | counted hfree hpruned hrecord =>
    have hnot : ¬ inner.Holds ip := fun h => hfree (h.isAutoBanned now)
    apply keeps_setRecord hpruned hnot
    · intro hpermanent
      cases hrecord with
      | renewed hget =>
        exact absurd ⟨_, hget, (IpRecord.permanent_renew _ _ _).symm.trans hpermanent⟩ hnot
      | fresh hget => cases hpermanent
    · intro hpersisted
      cases hrecord with
      | renewed hget => exact ⟨_, hget, IpRecord.persisted_of_renew hpersisted⟩
      | fresh hget => cases hpersisted
  | banned banDurationSecs hfree hpruned hrecord =>
    have hnot : ¬ inner.Holds ip := fun h => hfree (h.isAutoBanned now)
    apply keeps_setRecord hpruned hnot
    · exact hissued rfl
    · intro hpersisted
      rw [IpRecord.ban, IpRecord.persisted_applyBan] at hpersisted
      cases hpersisted

end Keeps

end AutoBanInner

end Aquatic.AutoBan
