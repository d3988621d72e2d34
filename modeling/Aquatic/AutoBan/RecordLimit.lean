import Aquatic.AutoBan.BanSpans

/-!
# How many addresses the tracker follows

The limit is raised in two places: by the violation that finds the map full, and
by the bans that a restart brings back. The first raises it too late for itself,
the second beyond the ceiling.
-/

namespace Aquatic.AutoBan
open Collections Transition
set_option autoImplicit false

/-- What the threads do to the records, each at a time of its own. `flushToFile`
and `persistIp` only note what is in the file by now. -/
inductive Operation where
  | recordViolation (ip : IpAddr) (reason : AutoBanReason) (now : Instant)
  | persistIp (ip : IpAddr)
  | loadClientBans (content : List ClientBanLine) (now : Instant) (nowUnix : UInt64)
  | cleanup (now : Instant)
  | flushToFile (written : List IpAddr)
  | removeIps (ips : List IpAddr)

namespace AutoBanInner

def operate (policy : AutoBanPolicy) (inner : AutoBanInner) : Operation → Option AutoBanInner
  | .recordViolation ip reason now => some (inner.recordViolation policy ip reason now).2.2
  | .persistIp ip => some (inner.markBan ip)
  | .loadClientBans content now nowUnix => some (inner.loadClientBans content now nowUnix).2
  | .cleanup now => some (inner.cleanup now)
  | .flushToFile written => some (inner.markPersisted written)
  | .removeIps ips => some (inner.removeIps ips)

theorem records_growCapacity (inner : AutoBanInner) (now : Instant) :
    (inner.growCapacity now).records = inner.records := by
  unfold growCapacity
  simp only
  split
  · split
    · rfl
    · split <;> rfl
  · rfl

theorem records_capacityCleanup (inner : AutoBanInner) (now : Instant) :
    (inner.capacityCleanup now).records =
      if elapsed inner.lastCapacityCleanup now 1 then (inner.cleanup now).records
      else inner.records := by
  unfold capacityCleanup
  split <;> rfl

theorem maxRecords_capacityCleanup (inner : AutoBanInner) (now : Instant) :
    (inner.capacityCleanup now).maxRecords = inner.maxRecords := by
  unfold capacityCleanup
  split <;> rfl

/-- The records that a cleaning pass leaves. -/
def kept (inner : AutoBanInner) (now : Instant) : List (IpAddr × IpRecord) :=
  inner.records.entries.filter fun e => e.2.isKept inner.windowSecs now

/-- The address is known, or the map is not full, or it is not after the cleaning
pass that is due. -/
def HasRoom (inner : AutoBanInner) (ip : IpAddr) (now : Instant) : Prop :=
  inner.records.contains ip = true ∨ inner.records.len < inner.maxRecords ∨
    (elapsed inner.lastCapacityCleanup now 1 = true ∧ (inner.kept now).length < inner.maxRecords)

theorem capacityGuard_iff (inner : AutoBanInner) (ip : IpAddr) (now : Instant) :
    (inner.capacityGuard ip now).1 = false ↔ inner.HasRoom ip now := by
  unfold capacityGuard HasRoom
  by_cases hknown : inner.records.contains ip = true
  · simp [hknown]
  by_cases hfree : inner.records.len < inner.maxRecords
  · simp [hfree, Nat.not_le.mpr hfree]
  have hfull : (!inner.records.contains ip && decide (inner.records.len ≥ inner.maxRecords)) =
      true := by
    simp only [Bool.and_eq_true, Bool.not_eq_true', decide_eq_true_eq]
    exact ⟨by simpa using hknown, Nat.not_lt.mp hfree⟩
  rw [if_pos hfull]
  have hrecords : ((inner.capacityCleanup now).growCapacity now).records.len =
      if elapsed inner.lastCapacityCleanup now 1 then (inner.kept now).length
      else inner.records.len := by
    rw [records_growCapacity, records_capacityCleanup]
    split <;> rfl
  simp only [hrecords]
  cases elapsed inner.lastCapacityCleanup now 1 with
  | true =>
    simp only [if_true]
    split
    · rename_i hge
      simp only [hknown, hfree, Nat.not_lt.mpr hge]
      decide
    · rename_i hlt
      simp [Nat.not_le.mp hlt]
  | false =>
    simp only [Bool.false_eq_true, if_false]
    rw [if_pos (Nat.not_lt.mp hfree)]
    simp [hknown, hfree]

/-- What a full map is worth to a violation that is due for a ban. -/
theorem recordViolation_immediate (policy : AutoBanPolicy) {inner : AutoBanInner} {ip : IpAddr}
    {reason : AutoBanReason} {now : Instant} (htier : reason.tier = .immediate)
    (hfree : ¬ inner.isAutoBanned ip now = true) :
    (inner.recordViolation policy ip reason now).1 = true ↔ inner.HasRoom ip now := by
  have hpruned := inner.pruned_capacityGuard ip now
  have hrecord := (counted_countViolation (inner.capacityGuard ip now).2 ip reason now).congr
    (get_capacityGuard_self inner ip now) hpruned.windowSecs
  have hnot := BanSpans.not_isBanned_counted hfree hrecord
  have htriggered : ((inner.capacityGuard ip now).2.countViolation ip reason now).1 = true := by
    unfold countViolation
    split <;> simp [htier]
  rw [← capacityGuard_iff]
  unfold recordViolation
  rw [if_neg hfree]
  simp only [htriggered, hnot, Bool.not_false, Bool.and_self, if_true]
  split
  · rename_i hfull
    simp [hfull]
  · rename_i hroom
    simpa using hroom

end AutoBanInner

theorem banKind_ne_zero {policy : AutoBanPolicy} {reason : AutoBanReason} {ip : IpAddr}
    {offenses : UInt32} {fallbackSecs secs : UInt64}
    (h : policy.banKind reason ip offenses fallbackSecs = .temporary secs) : secs ≠ 0 := by
  have hfrom : ∀ {secs' : UInt64}, BanKind.fromSecs secs' = .temporary secs → secs ≠ 0 := by
    intro secs' hsecs
    unfold BanKind.fromSecs at hsecs
    split at hsecs
    · cases hsecs
    · cases hsecs
      assumption
  unfold AutoBanPolicy.banKind at h
  split at h
  · exact hfrom h
  split at h
  · split at h
    · cases h
    · split at h <;> exact hfrom h
  · exact hfrom h
  · split at h
    · exact hfrom h
    · split at h
      · exact hfrom h
      · cases h

/-- A ban is in force for a second at least. -/
theorem isBanned_ban (policy : AutoBanPolicy) (record : IpRecord) (ip : IpAddr)
    (reason : AutoBanReason) (banDurationSecs : UInt64) {now later : Instant}
    (hlater : later.nanos < now.nanos + 1000000000) :
    (record.ban policy ip reason now banDurationSecs).isBanned later = true := by
  simp only [IpRecord.ban]
  generalize hkind : policy.banKind reason ip _ banDurationSecs = kind
  cases kind with
  | permanent => exact IpRecord.isBanned_of_permanent rfl later
  | temporary secs =>
    have hsecs : 0 < secs.toNat :=
      Nat.pos_of_ne_zero fun h => banKind_ne_zero hkind (UInt64.toNat_inj.mp h)
    unfold IpRecord.applyBan
    simp only
    split
    · rename_i bannedUntil hadd
      have hbefore : later.nanos < bannedUntil.nanos := by
        rw [Instant.nanos_checkedAdd hadd]
        exact Nat.lt_of_lt_of_le hlater (Nat.add_le_add_left (Nat.le_mul_of_pos_left _ hsecs) _)
      simp [IpRecord.isBanned, hbefore]
    · exact IpRecord.isBanned_of_permanent rfl later

namespace AutoBanInner
variable {policy : AutoBanPolicy} {inner inner' : AutoBanInner} {op : Operation}

/-- A violation of the first tier bans its address, unless it is banned already. -/
def BansAtOnce (policy : AutoBanPolicy) (inner : AutoBanInner) (op : Operation)
    (inner' : AutoBanInner) : Prop :=
  match op with
  | .recordViolation ip reason now =>
    reason.tier = .immediate → inner.records.len < hardMaxRecords →
      ¬ inner.isAutoBanned ip now = true →
      (inner.recordViolation policy ip reason now).1 = true ∧
        ∀ later : Instant, later.nanos < now.nanos + 1000000000 →
          inner'.isAutoBanned ip later = true
  | _ => True

def FindsRoom (inner : AutoBanInner) (op : Operation) (_ : AutoBanInner) : Prop :=
  match op with
  | .recordViolation ip reason now =>
    reason.tier = .immediate → inner.records.len < hardMaxRecords →
      ¬ inner.isAutoBanned ip now = true → inner.HasRoom ip now
  | _ => True

theorem bansAtOnce_iff_findsRoom (h : inner.operate policy op = some inner') :
    BansAtOnce policy inner op inner' ↔ FindsRoom inner op inner' := by
  cases op with
  | recordViolation ip reason now =>
    obtain rfl := Option.some.inj h
    refine forall_congr' fun htier => forall_congr' fun _ => forall_congr' fun hfree => ?_
    constructor
    · rintro ⟨hbans, -⟩
      exact (recordViolation_immediate policy htier hfree).mp hbans
    · intro hroom
      have hbans := (recordViolation_immediate policy htier hfree).mpr hroom
      refine ⟨hbans, fun later hlater => ?_⟩
      obtain ⟨room, record, -, -, -, hresult⟩ := recordViolation_ban hbans
      rw [hresult, isAutoBanned, get_setRecord, if_pos rfl, Option.any_some]
      exact isBanned_ban policy record ip reason _ hlater
  | persistIp | loadClientBans | cleanup | flushToFile | removeIps => exact Iff.rfl

/-- In every run: violations of the first tier ban at once, all of them, if and only
if none of them finds the map full at the limit from before the call. -/
theorem immediate_bans_iff (config : AutoBanConfig) (ops : List Operation) :
    AllSteps (operate (AutoBanTracker.fromConfig config).policy)
        (BansAtOnce (AutoBanTracker.fromConfig config).policy)
        (AutoBanTracker.fromConfig config).inner ops ↔
      AllSteps (operate (AutoBanTracker.fromConfig config).policy) FindsRoom
        (AutoBanTracker.fromConfig config).inner ops :=
  allSteps_congr_step bansAtOnce_iff_findsRoom _ ops

def Ceiling (inner : AutoBanInner) : Prop :=
  inner.maxRecords ≤ hardMaxRecords ∧ inner.records.len ≤ hardMaxRecords

/-- The bans of the file that make a new record. -/
def newcomers (inner : AutoBanInner) (content : List ClientBanLine) (now : Instant)
    (nowUnix : UInt64) : List (IpAddr × UInt64) :=
  (parseClientBanLines content nowUnix).entries.filter fun ban =>
    !inner.records.contains ban.1 && (now.checkedAdd (satSub ban.2 nowUnix)).isSome

theorem contains_restoreBan (now : Instant) (nowUnix : UInt64) (records : IndexMap IpAddr IpRecord)
    (ban : IpAddr × UInt64) {ip : IpAddr} (hne : ip ≠ ban.1) :
    (restoreBan now nowUnix records ban).contains ip = records.contains ip := by
  rw [IndexMap.contains, IndexMap.contains, get_restoreBan, if_neg hne]

theorem len_restoreBan (now : Instant) (nowUnix : UInt64) (records : IndexMap IpAddr IpRecord)
    (ban : IpAddr × UInt64) :
    (restoreBan now nowUnix records ban).len = records.len +
      if !records.contains ban.1 && (now.checkedAdd (satSub ban.2 nowUnix)).isSome then 1 else 0 := by
  unfold restoreBan
  cases now.checkedAdd (satSub ban.2 nowUnix) with
  | none => simp
  | some bannedUntil =>
    rw [IndexMap.len_insert]
    cases records.contains ban.1 <;> simp

theorem len_foldl_restoreBan (now : Instant) (nowUnix : UInt64) {bans : List (IpAddr × UInt64)}
    (hnodup : (bans.map Prod.fst).Nodup) (records : IndexMap IpAddr IpRecord) :
    (bans.foldl (restoreBan now nowUnix) records).len = records.len +
      (bans.filter fun ban => !records.contains ban.1 &&
        (now.checkedAdd (satSub ban.2 nowUnix)).isSome).length := by
  induction bans generalizing records with
  | nil => rfl
  | cons ban bans ih =>
    obtain ⟨hnew, hrest⟩ := List.nodup_cons.mp hnodup
    have hsame : (bans.filter fun ban' =>
          !(restoreBan now nowUnix records ban).contains ban'.1 &&
            (now.checkedAdd (satSub ban'.2 nowUnix)).isSome) =
        bans.filter fun ban' => !records.contains ban'.1 &&
          (now.checkedAdd (satSub ban'.2 nowUnix)).isSome := by
      apply List.filter_congr
      intro ban' hmem
      have hne : ban'.1 ≠ ban.1 := fun h => hnew (h ▸ List.mem_map_of_mem hmem)
      rw [contains_restoreBan now nowUnix records ban hne]
    rw [List.foldl_cons, ih hrest, hsame, len_restoreBan, List.filter_cons]
    by_cases hmakes : (!records.contains ban.1 &&
        (now.checkedAdd (satSub ban.2 nowUnix)).isSome) = true
    · rw [if_pos hmakes, if_pos hmakes, List.length_cons]
      omega
    · rw [if_neg hmakes, if_neg hmakes, Nat.add_zero]

theorem len_loadClientBans (inner : AutoBanInner) (content : List ClientBanLine) (now : Instant)
    (nowUnix : UInt64) :
    (inner.loadClientBans content now nowUnix).2.records.len =
      inner.records.len + (inner.newcomers content now nowUnix).length := by
  have hfold := len_foldl_restoreBan now nowUnix (parseClientBanLines content nowUnix).nodup
    inner.records
  unfold loadClientBans newcomers
  simp only
  split
  · rename_i hlen
    rw [List.length_eq_zero_iff.mp hlen]
    rfl
  · exact hfold

theorem maxRecords_loadClientBans (inner : AutoBanInner) (content : List ClientBanLine)
    (now : Instant) (nowUnix : UInt64) :
    (inner.loadClientBans content now nowUnix).2.maxRecords =
      if (parseClientBanLines content nowUnix).len = 0 then inner.maxRecords
      else max inner.maxRecords (parseClientBanLines content nowUnix).len + 100000 := by
  unfold loadClientBans
  simp only
  split
  · rfl
  · exact if_pos (by omega)

theorem maxRecords_growCapacity_le (h : inner.maxRecords ≤ hardMaxRecords) (now : Instant) :
    (inner.growCapacity now).maxRecords ≤ hardMaxRecords := by
  unfold growCapacity
  simp only
  split
  · split
    · exact Nat.min_le_right _ _
    · split <;> exact h
  · exact h

theorem len_capacityCleanup_le (inner : AutoBanInner) (now : Instant) :
    (inner.capacityCleanup now).records.len ≤ inner.records.len := by
  rw [records_capacityCleanup]
  split
  · exact List.length_filter_le _ _
  · exact Nat.le_refl _

theorem ceiling_capacityGuard (h : inner.Ceiling) (ip : IpAddr) (now : Instant) :
    (inner.capacityGuard ip now).2.Ceiling := by
  have hroom : ((inner.capacityCleanup now).growCapacity now).Ceiling := by
    refine ⟨maxRecords_growCapacity_le ?_ now, ?_⟩
    · rw [maxRecords_capacityCleanup]
      exact h.1
    · rw [records_growCapacity]
      exact Nat.le_trans (inner.len_capacityCleanup_le now) h.2
  unfold capacityGuard
  split
  · simp only
    split
    · split <;> exact hroom
    · exact hroom
  · exact h

/-- What finds room finds it below the old limit. -/
theorem len_lt_of_capacityGuard (h : inner.Ceiling) {ip : IpAddr} {now : Instant}
    (hroom : (inner.capacityGuard ip now).1 = false)
    (hunknown : (inner.capacityGuard ip now).2.records.contains ip = false) :
    (inner.capacityGuard ip now).2.records.len < hardMaxRecords := by
  have hlimit := h.1
  have hsame : inner.records.contains ip = false := by
    rw [IndexMap.contains, get_capacityGuard_self] at hunknown
    exact hunknown
  unfold capacityGuard at hroom ⊢
  split
  · rename_i hfull
    rw [if_pos hfull] at hroom
    simp only at hroom ⊢
    split
    · rename_i hstill
      rw [if_pos hstill] at hroom
      cases hroom
    · simp only
      omega
  · rename_i hfree
    simp only [hsame, Bool.not_false, Bool.true_and, decide_eq_true_eq] at hfree ⊢
    omega

theorem ceiling_setRecord {room : AutoBanInner} (h : room.Ceiling) {ip : IpAddr}
    (hroom : room.records.contains ip = false → room.records.len < hardMaxRecords)
    (record : IpRecord) : (room.setRecord ip record).Ceiling := by
  refine ⟨h.1, ?_⟩
  rw [setRecord, IndexMap.len_insert]
  cases hknown : room.records.contains ip with
  | true => exact h.2
  | false => exact hroom hknown

theorem ceiling_recordViolation (h : inner.Ceiling) (policy : AutoBanPolicy) (ip : IpAddr)
    (reason : AutoBanReason) (now : Instant) :
    (inner.recordViolation policy ip reason now).2.2.Ceiling := by
  have hguard := ceiling_capacityGuard h ip now
  unfold recordViolation
  split
  · exact h
  simp only
  split
  · exact hguard
  rename_i hroom
  have hlen := len_lt_of_capacityGuard h (by simpa using hroom)
  split <;> exact ceiling_setRecord hguard hlen _

theorem ceiling_of_records {inner' : AutoBanInner} (h : inner.Ceiling)
    (hlimit : inner'.maxRecords = inner.maxRecords)
    (hlen : inner'.records.len ≤ inner.records.len) : inner'.Ceiling :=
  ⟨hlimit ▸ h.1, Nat.le_trans hlen h.2⟩

theorem len_markPersisted (inner : AutoBanInner) (ips : List IpAddr) :
    (inner.markPersisted ips).records.len = inner.records.len := by
  suffices h : ∀ records : IndexMap IpAddr IpRecord,
      (ips.foldl (fun records ip => records.modify ip fun record =>
        { record with persisted := true }) records).len = records.len from h inner.records
  induction ips with
  | nil => exact fun _ => rfl
  | cons ip ips ih => exact fun records => (ih _).trans (IndexMap.len_modify _ _ _)

theorem len_removeIps_le (inner : AutoBanInner) (ips : List IpAddr) :
    (inner.removeIps ips).records.len ≤ inner.records.len := by
  suffices h : ∀ records : IndexMap IpAddr IpRecord,
      (ips.foldl IndexMap.erase records).len ≤ records.len from h inner.records
  induction ips with
  | nil => exact fun _ => Nat.le_refl _
  | cons ip ips ih =>
    exact fun records => Nat.le_trans (ih _) (IndexMap.len_erase_le records ip)

/-- The bans of the file, and room for as many addresses again as there are at first,
fit under the ceiling. -/
def FitsCeiling (inner : AutoBanInner) (op : Operation) (_ : AutoBanInner) : Prop :=
  match op with
  | .loadClientBans content now nowUnix =>
    (parseClientBanLines content nowUnix).len = 0 ∨
      (inner.maxRecords + 100000 ≤ hardMaxRecords ∧
        (parseClientBanLines content nowUnix).len + 100000 ≤ hardMaxRecords ∧
        inner.records.len + (inner.newcomers content now nowUnix).length ≤ hardMaxRecords)
  | _ => True

theorem ceiling_loadClientBans_iff (h : inner.Ceiling) (content : List ClientBanLine)
    (now : Instant) (nowUnix : UInt64) :
    (inner.loadClientBans content now nowUnix).2.Ceiling ↔
      inner.FitsCeiling (.loadClientBans content now nowUnix) inner := by
  unfold Ceiling FitsCeiling
  rw [maxRecords_loadClientBans, len_loadClientBans]
  by_cases hnone : (parseClientBanLines content nowUnix).len = 0
  · rw [if_pos hnone]
    have hnewcomers : inner.newcomers content now nowUnix = [] := by
      rw [newcomers, List.length_eq_zero_iff.mp hnone]
      rfl
    rw [hnewcomers]
    exact ⟨fun _ => .inl hnone, fun _ => h⟩
  · rw [if_neg hnone]
    constructor
    · rintro ⟨hlimit, hlen⟩
      exact .inr ⟨by omega, by omega, hlen⟩
    · intro hfits
      obtain ⟨hlimit, hcount, hlen⟩ := hfits.resolve_left hnone
      exact ⟨by omega, hlen⟩

theorem ceiling_iff_step (h : inner.Ceiling) (hstep : inner.operate policy op = some inner') :
    inner'.Ceiling ↔ inner.FitsCeiling op inner' := by
  cases op with
  | loadClientBans content now nowUnix =>
    obtain rfl := Option.some.inj hstep
    exact ceiling_loadClientBans_iff h content now nowUnix
  | recordViolation ip reason now =>
    obtain rfl := Option.some.inj hstep
    exact iff_of_true (ceiling_recordViolation h policy ip reason now) trivial
  | persistIp ip =>
    obtain rfl := Option.some.inj hstep
    exact iff_of_true (ceiling_of_records h rfl (Nat.le_of_eq (IndexMap.len_modify _ _ _))) trivial
  | cleanup now =>
    obtain rfl := Option.some.inj hstep
    exact iff_of_true (ceiling_of_records h rfl (List.length_filter_le _ _)) trivial
  | flushToFile written =>
    obtain rfl := Option.some.inj hstep
    exact iff_of_true (ceiling_of_records h rfl (Nat.le_of_eq (inner.len_markPersisted _))) trivial
  | removeIps ips =>
    obtain rfl := Option.some.inj hstep
    exact iff_of_true (ceiling_of_records h rfl (inner.len_removeIps_le ips)) trivial

theorem ceiling_init (config : AutoBanConfig) : (AutoBanTracker.fromConfig config).inner.Ceiling :=
  ⟨(by decide : 100000 ≤ hardMaxRecords), Nat.zero_le _⟩

/-- In every run: the ceiling holds after every step, if and only if every file that
is loaded leaves room for its bans under it. -/
theorem ceiling_holds_iff (config : AutoBanConfig) (ops : List Operation) :
    AllSteps (operate (AutoBanTracker.fromConfig config).policy)
        (fun _ _ inner' => inner'.Ceiling) (AutoBanTracker.fromConfig config).inner ops ↔
      AllSteps (operate (AutoBanTracker.fromConfig config).policy) FitsCeiling
        (AutoBanTracker.fromConfig config).inner ops := by
  refine allSteps_iff ?_ ?_ (ceiling_init config) ops
  · intro inner op inner' _ _ hceiling
    exact hceiling
  · intro inner op inner' h hstep
    exact ceiling_iff_step h hstep

/-- Addresses of the network 10.0.0.0/8. -/
def neighbour (n : Nat) : IpAddr :=
  .v4 ⟨#v[10, UInt8.ofNat (n / 65536), UInt8.ofNat (n / 256), UInt8.ofNat n]⟩

theorem neighbour_inj {m n : Nat} (hm : m < 16777216) (hn : n < 16777216)
    (h : neighbour m = neighbour n) : m = n := by
  have hoctets : [m / 65536 % 256, m / 256 % 256, m % 256] =
      [n / 65536 % 256, n / 256 % 256, n % 256] :=
    congrArg (fun octets : Vector UInt8 4 => (octets.toList.drop 1).map UInt8.toNat)
      (Ipv4Addr.mk.inj (IpAddr.v4.inj h))
  simp only [List.cons.injEq, and_true] at hoctets
  omega

theorem nodup_neighbours {count : Nat} (h : count ≤ 16777216) :
    ((List.range count).map neighbour).Nodup := by
  refine List.Nodup.map_on ?_ List.nodup_range
  intro m hm n hn
  exact neighbour_inj (Nat.lt_of_lt_of_le (List.mem_range.mp hm) h)
    (Nat.lt_of_lt_of_le (List.mem_range.mp hn) h)

def offence (n : Nat) : Operation := .recordViolation (neighbour n) .sqlInjection ⟨0⟩

/-- As many addresses are banned for good. -/
structure Filled (count : Nat) (inner : AutoBanInner) : Prop where
  len : inner.records.len = count
  maxRecords : inner.maxRecords = 100000
  banDurationSecs : inner.banDurationSecs = 0
  permanent : ∀ {ip record}, inner.records.get ip = some record → record.permanent = true
  unknown : ∀ n < 16777216, count ≤ n → inner.records.get (neighbour n) = none

/-- The default policy bans for good. -/
theorem permanent_ban_default (record : IpRecord) (ip : IpAddr) (now : Instant) :
    (record.ban (AutoBanTracker.fromConfig .default).policy ip .sqlInjection now 0).permanent =
      true := rfl

theorem filled_offence {count : Nat} (h : Filled count inner) (hcount : count < 100000) :
    Filled (count + 1)
      (inner.recordViolation (AutoBanTracker.fromConfig .default).policy (neighbour count)
        .sqlInjection ⟨0⟩).2.2 := by
  have hnone := h.unknown count (by omega) (Nat.le_refl _)
  have hfree : ¬ inner.isAutoBanned (neighbour count) ⟨0⟩ = true := by
    simp [isAutoBanned, hnone]
  have hroom : inner.capacityGuard (neighbour count) ⟨0⟩ = (false, inner) := by
    have hlt : ¬ inner.maxRecords ≤ inner.records.len := by
      rw [h.maxRecords, h.len]
      omega
    simp [capacityGuard, hlt]
  have hresult : (inner.recordViolation (AutoBanTracker.fromConfig .default).policy
        (neighbour count) .sqlInjection ⟨0⟩).2.2 =
      inner.setRecord (neighbour count) (({ IpRecord.new ⟨0⟩ with count := 1 } : IpRecord).ban
        (AutoBanTracker.fromConfig .default).policy (neighbour count) .sqlInjection ⟨0⟩ 0) := by
    unfold recordViolation
    rw [if_neg hfree, hroom]
    simp only [Bool.false_eq_true, if_false, countViolation, hnone, h.banDurationSecs]
    rfl
  rw [hresult]
  refine
    { len := ?_
      maxRecords := h.maxRecords
      banDurationSecs := h.banDurationSecs
      permanent := ?_
      unknown := ?_ }
  · rw [setRecord, IndexMap.len_insert, IndexMap.contains, hnone, h.len]
    rfl
  · intro ip record hget
    rw [get_setRecord] at hget
    split at hget
    · obtain rfl := Option.some.inj hget
      exact permanent_ban_default _ _ _
    · exact h.permanent hget
  · intro n hn hle
    have hne : neighbour n ≠ neighbour count := by
      intro heq
      have := neighbour_inj hn (by omega) heq
      omega
    rw [get_setRecord, if_neg hne]
    exact h.unknown n hn (by omega)

theorem run_offences {count : Nat} (h : count ≤ 100000) :
    ∃ inner, run (operate (AutoBanTracker.fromConfig .default).policy)
      (AutoBanTracker.fromConfig .default).inner ((List.range count).map offence) = some inner ∧
      Filled count inner := by
  induction count with
  | zero => exact ⟨_, rfl, rfl, rfl, rfl, nofun, fun _ _ _ => rfl⟩
  | succ count ih =>
    obtain ⟨inner, hrun, hfilled⟩ := ih (by omega)
    refine ⟨_, ?_, filled_offence hfilled (by omega)⟩
    rw [List.range_succ, List.map_append, run_append, hrun]
    rfl

/-- The map is full, and no cleaning pass makes room in it. -/
theorem not_hasRoom_of_filled (h : Filled 100000 inner) :
    ¬ inner.HasRoom (neighbour 100000) ⟨0⟩ := by
  have hkept : inner.kept ⟨0⟩ = inner.records.entries := by
    apply List.filter_eq_self.mpr
    intro e hmem
    have hget : inner.records.get e.1 = some e.2 := (IndexMap.get_eq_some_iff _ _ _).mpr hmem
    exact IpRecord.isKept_of_permanent (h.permanent hget) _ _
  have hlen : inner.records.entries.length = 100000 := h.len
  have hlimit := h.maxRecords
  rintro (hknown | hlt | ⟨-, hlt⟩)
  · rw [IndexMap.contains, h.unknown 100000 (by omega) (Nat.le_refl _)] at hknown
    cases hknown
  · rw [h.len] at hlt
    omega
  · rw [hkept] at hlt
    omega

/-- The violation that raises the limit is itself dropped. -/
theorem dropped_of_filled {ops : List Operation}
    (hrun : run (operate (AutoBanTracker.fromConfig .default).policy)
      (AutoBanTracker.fromConfig .default).inner ops = some inner) (h : Filled 100000 inner) :
    ¬ AllSteps (operate (AutoBanTracker.fromConfig .default).policy)
      (BansAtOnce (AutoBanTracker.fromConfig .default).policy)
      (AutoBanTracker.fromConfig .default).inner (ops ++ [offence 100000]) := by
  intro hall
  have hroom := (bansAtOnce_iff_findsRoom rfl).mp (hall.last hrun rfl)
  have hfree : ¬ inner.isAutoBanned (neighbour 100000) ⟨0⟩ = true := by
    rw [isAutoBanned, h.unknown 100000 (by omega) (Nat.le_refl _)]
    exact Bool.false_ne_true
  have hbelow : inner.records.len < hardMaxRecords := by
    rw [h.len]
    decide
  exact not_hasRoom_of_filled h (hroom rfl hbelow hfree)

theorem immediate_ban_dropped :
    ¬ AllSteps (operate (AutoBanTracker.fromConfig .default).policy)
      (BansAtOnce (AutoBanTracker.fromConfig .default).policy)
      (AutoBanTracker.fromConfig .default).inner
      ((List.range 100000).map offence ++ [offence 100000]) := by
  obtain ⟨inner, hrun, hfilled⟩ := run_offences (Nat.le_refl 100000)
  exact dropped_of_filled hrun hfilled

/-- A file with a ban of each of these addresses, to the first second of the epoch. -/
def crowd (count : Nat) : List ClientBanLine :=
  (List.range count).map fun n => .ban (neighbour n) 1

theorem len_parse_crowd {count : Nat} (h : count ≤ 16777216) :
    count ≤ (parseClientBanLines (crowd count) 0).len := by
  have hlen := IndexMap.length_le_len (m := parseClientBanLines (crowd count) 0)
    (nodup_neighbours h) ?_
  · rw [List.length_map, List.length_range] at hlen
    exact hlen
  intro ip hip
  obtain ⟨n, hn, rfl⟩ := List.mem_map.mp hip
  have hmem : .ban (neighbour n) 1 ∈ crowd count := List.mem_map.mpr ⟨n, hn, rfl⟩
  obtain ⟨latest, hlatest, -⟩ := le_latestExpiry hmem (by decide : (0 : UInt64) < 1)
  rw [get_parseClientBanLines, hlatest]
  rfl

/-- One file takes the limit beyond the ceiling. -/
theorem ceiling_broken :
    ¬ AllSteps (operate (AutoBanTracker.fromConfig .default).policy)
      (fun _ _ inner' => inner'.Ceiling) (AutoBanTracker.fromConfig .default).inner
      [.loadClientBans (crowd 1900001) ⟨0⟩ 0] := by
  intro h
  have hceiling := (h _ rfl).1
  have hfits := (ceiling_loadClientBans_iff (ceiling_init .default) (crowd 1900001) ⟨0⟩ 0).mp
    hceiling
  have hcount := len_parse_crowd (by decide : 1900001 ≤ 16777216)
  have hhard : hardMaxRecords = 2000000 := rfl
  rcases hfits with hzero | ⟨-, hfits, -⟩ <;> omega

end AutoBanInner

end Aquatic.AutoBan
