import Aquatic.AutoBan.ClientJitter
import Aquatic.AutoBan.ClientLadder

/-!
# What a validated configuration promises

The validator and the policy were written apart. Together they make sure that no
temporary ban is too long for the clock, and that permanent bans are only issued
when they can be written to the list that is loaded.
-/

namespace Aquatic.AutoBan
open Collections Transition
set_option autoImplicit false

/-- The offset of a client ban is at most the jitter. -/
theorem clientJitter_le (ip : IpAddr) {jitter : UInt64}
    (hjitter : jitter ≤ maxBanDurationSecs) (h : clientJitter ip jitter ≥ 0) :
    (clientJitter ip jitter).toUInt64.toNat ≤ jitter.toNat := by
  have hlater := toNat_toUInt64 (toInt_nonneg_iff.mp h)
  have hle := hash_mod_le ip jitter
  rw [clientJitter_toInt ip hjitter] at hlater
  omega

/-- The durations that a policy works with are within the bounds of the validator. -/
structure Bounded (policy : AutoBanPolicy) (banDurationSecs : UInt64) : Prop where
  fallback : banDurationSecs ≤ maxBanDurationSecs
  immediate : policy.immediateBanSecs ≤ maxBanDurationSecs
  client : policy.clientBanDurationSecs ≤ maxBanDurationSecs
  jitter : policy.clientBanJitterSecs ≤ maxBanDurationSecs
  steps : ∀ secs ∈ policy.escalationSteps, secs ≤ maxBanDurationSecs

theorem checkStep_of_forM {parts : List (List Char)} (h : parts.forM checkStep = .ok ()) :
    ∀ part ∈ parts, checkStep part = .ok () := by
  induction parts with
  | nil => simp
  | cons part parts ih =>
    obtain ⟨_, hpart, hparts⟩ : ∃ a, checkStep part = .ok a ∧ parts.forM checkStep = .ok () :=
      bind_eq_ok h
    intro part' hmem
    rcases List.mem_cons.mp hmem with rfl | hmem
    · exact hpart
    · exact ih hparts part' hmem

theorem le_of_mem_parseSteps {raw : String}
    (h : (List.splitOn ',' raw.toList).forM checkStep = .ok ()) {secs : UInt64}
    (hmem : secs ∈ parseSteps raw) : secs ≤ maxBanDurationSecs := by
  obtain ⟨part, hpart, hparse⟩ := List.mem_filterMap.mp hmem
  have hcheck := checkStep_of_forM h part hpart
  split at hparse
  · cases hparse
  · rename_i hempty
    simp only [checkStep, if_neg hempty, hparse] at hcheck
    split at hcheck
    · assumption
    · cases hcheck

theorem bounded_of_valid {canonicalize : Path → Option Path} {auto : AutoBanConfig}
    {ipBan : IpBanConfig} (h : validateAutoBanConfig canonicalize auto ipBan = .ok ())
    (henabled : auto.enabled = true) :
    Bounded (AutoBanTracker.fromConfig auto).policy auto.banDurationSecs := by
  simp only [validateAutoBanConfig, henabled, Bool.not_true, Bool.false_eq_true, if_false] at h
  obtain ⟨_, -, h⟩ := bind_eq_ok h
  obtain ⟨_, -, h⟩ := bind_eq_ok h
  obtain ⟨_, hfallback, h⟩ := bind_eq_ok h
  obtain ⟨_, himmediate, h⟩ := bind_eq_ok h
  obtain ⟨_, hclient, h⟩ := bind_eq_ok h
  obtain ⟨_, hjitter, h⟩ := bind_eq_ok h
  obtain ⟨_, hsteps, -⟩ := bind_eq_ok h
  exact
    { fallback := of_decide_eq_true (require_eq_ok_iff.mp hfallback)
      immediate := of_decide_eq_true (require_eq_ok_iff.mp himmediate)
      client := of_decide_eq_true (require_eq_ok_iff.mp hclient)
      jitter := of_decide_eq_true (require_eq_ok_iff.mp hjitter)
      steps := fun _ hmem => le_of_mem_parseSteps hsteps hmem }

theorem fromSecs_temporary {secs secs' : UInt64} (h : BanKind.fromSecs secs = .temporary secs') :
    secs' = secs := by
  unfold BanKind.fromSecs at h
  split at h
  · cases h
  · cases h
    rfl

theorem fromSecs_permanent {secs : UInt64} (h : BanKind.fromSecs secs = .permanent) :
    secs = 0 := by
  unfold BanKind.fromSecs at h
  split at h
  · assumption
  · cases h

theorem toNat_max (a b : UInt64) : (max a b).toNat = max a.toNat b.toNat := by
  change (if a ≤ b then b else a).toNat = _
  split
  · rename_i hle
    exact (Nat.max_eq_right (UInt64.le_iff_toNat_le.mp hle)).symm
  · rename_i hlt
    exact (Nat.max_eq_left (Nat.le_of_lt (Nat.not_le.mp fun h =>
      hlt (UInt64.le_iff_toNat_le.mpr h)))).symm

/-- A client ban is permanent when all durations are zero, and lasts for one of
them and the offset otherwise. -/
theorem clientBanSecs_spec (policy : AutoBanPolicy) (ip : IpAddr) (fallbackSecs : UInt64) :
    (policy.clientBanSecs ip fallbackSecs = 0 ∧ fallbackSecs = 0) ∨
      ∃ base, (base = policy.clientBanDurationSecs ∨ base = policy.immediateBanSecs ∨
          base = fallbackSecs) ∧
        policy.clientBanSecs ip fallbackSecs =
          max (if clientJitter ip policy.clientBanJitterSecs ≥ 0 then
              satAdd base (clientJitter ip policy.clientBanJitterSecs).toUInt64
            else satSub base (-clientJitter ip policy.clientBanJitterSecs).toUInt64) 1 := by
  unfold AutoBanPolicy.clientBanSecs
  by_cases hclient : policy.clientBanDurationSecs ≠ 0
  · exact .inr ⟨_, .inl rfl, by rw [if_pos hclient, if_neg hclient]⟩
  by_cases himmediate : policy.immediateBanSecs ≠ 0
  · exact .inr ⟨_, .inr (.inl rfl), by rw [if_neg hclient, if_pos himmediate, if_neg himmediate]⟩
  by_cases hfallback : fallbackSecs = 0
  · exact .inl ⟨by rw [if_neg hclient, if_neg himmediate, if_pos hfallback], hfallback⟩
  · exact .inr ⟨_, .inr (.inr rfl), by rw [if_neg hclient, if_neg himmediate, if_neg hfallback]⟩

namespace Bounded
variable {policy : AutoBanPolicy} {fallbackSecs : UInt64}

theorem clientBanSecs_le (hb : Bounded policy fallbackSecs) (ip : IpAddr) :
    (policy.clientBanSecs ip fallbackSecs).toNat ≤ 2 * maxBanDurationSecs.toNat := by
  have hmax : 1 ≤ maxBanDurationSecs.toNat := by decide
  rcases clientBanSecs_spec policy ip fallbackSecs with ⟨hzero, -⟩ | ⟨base, hbase, hsecs⟩
  · rw [hzero]
    exact Nat.zero_le _
  have hle : base.toNat ≤ maxBanDurationSecs.toNat := by
    rcases hbase with rfl | rfl | rfl
    · exact le_max_toNat hb.client
    · exact le_max_toNat hb.immediate
    · exact le_max_toNat hb.fallback
  have hjitter := le_max_toNat hb.jitter
  rw [hsecs, toNat_max]
  apply Nat.max_le.mpr
  refine ⟨?_, by rw [UInt64.toNat_one]; omega⟩
  split
  · rename_i hlater
    have hdelta := clientJitter_le ip hb.jitter hlater
    have hadd := satAdd_le base (clientJitter ip policy.clientBanJitterSecs).toUInt64
    omega
  · have hsub := satSub_le base (-clientJitter ip policy.clientBanJitterSecs).toUInt64
    omega

theorem banKind_le (hb : Bounded policy fallbackSecs) {reason : AutoBanReason} {ip : IpAddr}
    {offenses : UInt32} {secs : UInt64}
    (h : policy.banKind reason ip offenses fallbackSecs = .temporary secs) :
    secs.toNat ≤ 2 * maxBanDurationSecs.toNat := by
  have hfallback := le_max_toNat hb.fallback
  have himmediate := le_max_toNat hb.immediate
  unfold AutoBanPolicy.banKind at h
  split at h
  · rw [fromSecs_temporary h]
    exact hb.clientBanSecs_le ip
  split at h
  · split at h
    · cases h
    · split at h <;> rw [fromSecs_temporary h] <;> omega
  · rw [fromSecs_temporary h]
    omega
  · split at h
    · rw [fromSecs_temporary h]
      omega
    · split at h
      · rename_i secs' hstep
        have hle := le_max_toNat (hb.steps secs' (List.mem_of_getElem? hstep))
        rw [fromSecs_temporary h]
        omega
      · cases h

end Bounded

theorem clientBanSecs_zero {policy : AutoBanPolicy} {ip : IpAddr} {fallbackSecs : UInt64}
    (h : policy.clientBanSecs ip fallbackSecs = 0) : fallbackSecs = 0 := by
  rcases clientBanSecs_spec policy ip fallbackSecs with ⟨-, hzero⟩ | ⟨base, -, hsecs⟩
  · exact hzero
  · have hone := congrArg UInt64.toNat (hsecs.symm.trans h)
    rw [toNat_max, UInt64.toNat_one, UInt64.toNat_zero] at hone
    omega

/-- A permanent ban needs a configured duration of zero, or escalation. -/
theorem banKind_permanent {policy : AutoBanPolicy} {reason : AutoBanReason} {ip : IpAddr}
    {offenses : UInt32} {fallbackSecs : UInt64}
    (h : policy.banKind reason ip offenses fallbackSecs = .permanent) :
    fallbackSecs = 0 ∨ policy.escalationEnabled = true := by
  unfold AutoBanPolicy.banKind at h
  split at h
  · exact .inl (clientBanSecs_zero (fromSecs_permanent h))
  split at h
  · split at h
    · rename_i hescalation
      exact .inr (Bool.and_eq_true_iff.mp hescalation).1
    · split at h
      · exact .inl (fromSecs_permanent h)
      · rename_i himmediate
        exact absurd (fromSecs_permanent h) himmediate
  · exact .inl (fromSecs_permanent h)
  · split at h
    · exact .inl (fromSecs_permanent h)
    · rename_i hescalation
      exact .inr (by simpa using hescalation)

/-- What the policy adds to a duration, or takes off it, and no less than a second. -/
theorem shifted_toNat {base jitter : UInt64} {ip : IpAddr} (hx : Exact base jitter ip) :
    ((max (if clientJitter ip jitter ≥ 0 then satAdd base (clientJitter ip jitter).toUInt64
        else satSub base (-clientJitter ip jitter).toUInt64) 1).toNat : Int) =
      max (base.toNat + (clientJitter ip jitter).toInt) 1 := by
  have hsum := hx.sum
  rw [toNat_max, UInt64.toNat_one]
  split
  · rename_i hsign
    have hlater := hx.later (toInt_nonneg_iff.mp hsign)
    rw [satAdd_eq (by omega)]
    omega
  · rename_i hsign
    have hneg : (clientJitter ip jitter).toInt < 0 :=
      Int.not_le.mp fun h => hsign (toInt_nonneg_iff.mpr h)
    have hearlier := hx.earlier hneg
    rw [satSub_eq]
    omega

/-- The duration does not look at the other settings. -/
theorem clientBanSecs_congr {policy policy' : AutoBanPolicy}
    (hclient : policy'.clientBanDurationSecs = policy.clientBanDurationSecs)
    (hjitter : policy'.clientBanJitterSecs = policy.clientBanJitterSecs)
    (h : policy.clientBanDurationSecs ≠ 0) (ip : IpAddr) (fallbackSecs fallbackSecs' : UInt64) :
    policy'.clientBanSecs ip fallbackSecs' = policy.clientBanSecs ip fallbackSecs := by
  unfold AutoBanPolicy.clientBanSecs
  rw [hclient, hjitter, if_pos h, if_pos h]

/-- With a duration of its own a client ban lasts for that and the offset. -/
theorem clientBanSecs_toNat {policy : AutoBanPolicy} {ip : IpAddr}
    (h : policy.clientBanDurationSecs ≠ 0)
    (hx : Exact policy.clientBanDurationSecs policy.clientBanJitterSecs ip)
    (fallbackSecs : UInt64) :
    ((policy.clientBanSecs ip fallbackSecs).toNat : Int) =
      max (policy.clientBanDurationSecs.toNat +
        (clientJitter ip policy.clientBanJitterSecs).toInt) 1 := by
  rw [← shifted_toNat hx]
  unfold AutoBanPolicy.clientBanSecs
  rw [if_pos h, if_neg h]

/-- A validated client ban is temporary, within the jitter of its duration, and
the same whatever else is configured and however often the address offended. -/
theorem client_ban_bounded (canonicalize : Path → Option Path) (auto : AutoBanConfig)
    (ipBan : IpBanConfig) (h : validateAutoBanConfig canonicalize auto ipBan = .ok ())
    (henabled : auto.enabled = true) (hclient : auto.clientBanDurationSecs ≠ 0) (ip : IpAddr) :
    Exact auto.clientBanDurationSecs auto.clientBanJitterSecs ip ∧
    ∃ secs : UInt64,
      max 1 (auto.clientBanDurationSecs.toNat - auto.clientBanJitterSecs.toNat) ≤ secs.toNat ∧
      secs.toNat ≤ auto.clientBanDurationSecs.toNat + auto.clientBanJitterSecs.toNat ∧
      ∀ (auto' : AutoBanConfig) (offenses : UInt32) (fallbackSecs : UInt64),
        auto'.clientBanDurationSecs = auto.clientBanDurationSecs →
        auto'.clientBanJitterSecs = auto.clientBanJitterSecs →
        (AutoBanTracker.fromConfig auto').policy.banKind .clientBanned ip offenses fallbackSecs =
          .temporary secs := by
  have hbounded := bounded_of_valid h henabled
  have hx : Exact auto.clientBanDurationSecs auto.clientBanJitterSecs ip :=
    exact_of_le hbounded.client hbounded.jitter ip
  have hsecs : (((AutoBanTracker.fromConfig auto).policy.clientBanSecs ip 0).toNat : Int) =
      max (auto.clientBanDurationSecs.toNat + (clientJitter ip auto.clientBanJitterSecs).toInt) 1 :=
    clientBanSecs_toNat hclient hx 0
  have hdelta := hx.delta
  have hle := hash_mod_le ip auto.clientBanJitterSecs
  have hpositive : auto.clientBanDurationSecs.toNat ≠ 0 := fun h => hclient (UInt64.toNat_inj.mp h)
  refine ⟨hx, (AutoBanTracker.fromConfig auto).policy.clientBanSecs ip 0, ?_, ?_, ?_⟩
  · omega
  · omega
  · intro auto' offenses fallbackSecs hduration hjitter
    have hsame : (AutoBanTracker.fromConfig auto').policy.clientBanSecs ip fallbackSecs =
        (AutoBanTracker.fromConfig auto).policy.clientBanSecs ip 0 :=
      clientBanSecs_congr hduration hjitter hclient ip 0 fallbackSecs
    rw [AutoBanPolicy.banKind, if_pos rfl, hsame, BanKind.fromSecs, if_neg]
    intro hzero
    rw [hzero, UInt64.toNat_zero] at hsecs
    omega

/-- By default, a client ban lasts for a day, give or take half an hour. -/
theorem client_ban_bounded_default :
    ∃ secs : UInt64, 84600 ≤ secs.toNat ∧ secs.toNat ≤ 88200 ∧
      ∀ (offenses : UInt32) (fallbackSecs : UInt64),
        (AutoBanTracker.fromConfig { AutoBanConfig.default with enabled := true }).policy.banKind
          .clientBanned History.offender offenses fallbackSecs = .temporary secs := by
  obtain ⟨-, secs, hlower, hupper, hsame⟩ :=
    client_ban_bounded (fun _ => none) { AutoBanConfig.default with enabled := true }
      ⟨.on, ⟨"./ip-ban-list.txt"⟩⟩ (by decide) rfl (by decide) History.offender
  refine ⟨secs, ?_, hupper, fun offenses fallbackSecs => hsame _ offenses fallbackSecs rfl rfl⟩
  exact Nat.le_trans (Nat.le_max_right 1 84600) hlower

/-- The validator does not look at what is disabled: a jitter that is no signed
number is accepted, and is taken for a negative one. -/
theorem client_ban_disabled_overflows :
    validateAutoBanConfig (fun _ => none)
        { AutoBanConfig.default with clientBanJitterSecs := 0x8000000000000000 }
        ⟨.on, ⟨"./ip-ban-list.txt"⟩⟩ = .ok () ∧
      AutoBanConfig.default.clientBanDurationSecs ≠ 0 ∧
      ¬ Exact AutoBanConfig.default.clientBanDurationSecs 0x8000000000000000 History.offender := by
  refine ⟨by decide, by decide, fun hx => ?_⟩
  exact absurd hx.signed (by decide)

namespace BanSpans
variable {tracker : AutoBanTracker} {s s' : BanSpans} {act : Action}

/-- The longest durations that are possible do not take the clock beyond its range. -/
def Representable (s : BanSpans) : Prop :=
  ∀ secs : UInt64, secs.toNat ≤ 2 * maxBanDurationSecs.toNat → (s.clock.checkedAdd secs).isSome

theorem Agree.permanent_iff (hs : Agree s) {ip : IpAddr} {record : IpRecord}
    (hget : s.inner.records.get ip = some record) :
    record.permanent = true ↔ s.ledger ip = some .permanent := by
  have hstanding := hs.standing ip
  rw [hget, BanSpans.standing, Option.bind_some] at hstanding
  constructor
  · intro hpermanent
    rw [if_pos hpermanent] at hstanding
    exact (Option.filter_eq_some_iff.mp hstanding.symm).1
  · intro hledger
    by_contra hpermanent
    rw [if_neg hpermanent, hledger, permanent_filter] at hstanding
    obtain ⟨expiry, -, hexpiry⟩ :=
      Option.map_eq_some_iff.mp (Option.filter_eq_some_iff.mp hstanding).1
    cases hexpiry

theorem issue_permanent {kind : BanKind} {now : Instant}
    (hfits : ∀ secs, kind = .temporary secs → (now.checkedAdd secs).isSome) :
    Ban.issue kind now = .permanent ↔ kind = .permanent := by
  cases kind with
  | permanent => exact ⟨fun _ => rfl, fun _ => rfl⟩
  | temporary secs =>
    obtain ⟨bannedUntil, hadd⟩ := Option.isSome_iff_exists.mp (hfits secs rfl)
    simp [Ban.issue, hadd]

/-- A run of a tracker with this configuration has issued permanent bans only if
the configuration asks for them. -/
structure Foreseen (auto : AutoBanConfig) (s : BanSpans) : Prop where
  agree : Agree s
  banDurationSecs : s.inner.banDurationSecs = auto.banDurationSecs
  permanent : ∀ {ip}, s.ledger ip = some .permanent →
    auto.banDurationSecs = 0 ∨ auto.escalationEnabled = true

theorem foreseen_init (auto : AutoBanConfig) (clock : Instant) :
    Foreseen auto (init (.fromConfig auto) clock) :=
  ⟨agree_init auto clock, rfl, nofun⟩

theorem representable_banKind {policy : AutoBanPolicy} {fallbackSecs : UInt64}
    (hb : Bounded policy fallbackSecs) (hclock : s.Representable) {reason : AutoBanReason}
    {ip : IpAddr} {offenses : UInt32} {secs : UInt64}
    (h : policy.banKind reason ip offenses fallbackSecs = .temporary secs) :
    (s.clock.checkedAdd secs).isSome :=
  hclock secs (hb.banKind_le h)

/-- Only a violation makes a ban permanent, that of the address it bans. -/
theorem permanent_of_not_banned (h : step tracker s act = some s') {ip : IpAddr}
    (hbans : s.bans tracker act ≠ some ip) (hpermanent : s'.ledger ip = some .permanent) :
    s.ledger ip = some .permanent := by
  cases act with
  | recordViolation ip' reason =>
    simp only [step, Option.some.injEq] at h
    cases htrue : (s.inner.recordViolation tracker.policy ip' reason s.clock).1 with
    | false =>
      rw [htrue] at h
      subst h
      exact hpermanent
    | true =>
      have hip : ip ≠ ip' := by
        rintro rfl
        exact hbans (if_pos htrue)
      rw [htrue] at h
      subst h
      exact (if_neg hip).symm.trans hpermanent
  | loadClientBans content nowUnix =>
    cases h
    simp only [noteRestored] at hpermanent
    cases hrestored : restoredUntil content s.clock nowUnix ip with
    | none =>
      rw [hrestored] at hpermanent
      exact hpermanent
    | some bannedUntil =>
      rw [hrestored] at hpermanent
      rcases hledger : s.ledger ip with _ | ⟨expiry⟩ | _
      · rw [hledger] at hpermanent
        cases hpermanent
      · rw [hledger] at hpermanent
        cases hpermanent
      · rfl
  | removeFlushed =>
    obtain ⟨ips, -, rfl⟩ := Option.map_eq_some_iff.mp h
    simp only [noteRemoved] at hpermanent
    split at hpermanent
    · cases hpermanent
    · exact hpermanent
  | persistIp | cleanup | persistFlushed | reloadFailed =>
    cases h
    exact hpermanent
  | flush ok =>
    simp only [step] at h
    split at h
    · cases h
      exact hpermanent
    · cases h
  | tick clock =>
    simp only [step] at h
    split at h
    · cases h
      exact hpermanent
    · cases h

theorem foreseen_step {auto : AutoBanConfig}
    (hb : Bounded (AutoBanTracker.fromConfig auto).policy auto.banDurationSecs)
    (hs : Foreseen auto s) (h : step (.fromConfig auto) s act = some s')
    (hclock : s.Representable) : Foreseen auto s' := by
  cases hbans : s.bans (.fromConfig auto) act with
  | none =>
    refine ⟨agree_step hs.agree h,
      (uncounted_of_step h hbans).banDurationSecs.trans hs.banDurationSecs, ?_⟩
    intro ip hpermanent
    apply hs.permanent (permanent_of_not_banned h _ hpermanent)
    rw [hbans]
    exact nofun
  | some ip =>
    obtain ⟨reason, rfl, htrue⟩ := bans_eq_some_iff.mp hbans
    refine ⟨agree_step hs.agree h,
      (offended_of_step h htrue).banDurationSecs.trans hs.banDurationSecs, ?_⟩
    intro ip' hpermanent
    by_cases hip : ip' = ip
    · subst hip
      rw [(issued_step hs.agree h htrue).1, nextKind, hs.banDurationSecs, Option.some.injEq,
        issue_permanent fun secs hkind => representable_banKind hb hclock hkind] at hpermanent
      exact banKind_permanent hpermanent
    · apply hs.permanent (permanent_of_not_banned h _ hpermanent)
      rw [hbans]
      exact fun hsame => hip (Option.some.inj hsame).symm

/-- What the configuration promises of a step: permanent bans are flushed to the
file that is loaded, and bans that are meant to be temporary have an end. -/
structure Persistable (canonicalize : Path → Option Path) (auto : AutoBanConfig)
    (ipBan : IpBanConfig) (s : BanSpans) (act : Action) (s' : BanSpans) : Prop where
  permanent : ∀ {ip record}, s'.inner.records.get ip = some record → record.permanent = true →
    auto.banListPath.isEmpty = false ∧ ipBan.mode = .on ∧
      Path.referToSameFile canonicalize auto.banListPath ipBan.path = true ∧
      ¬ (s'.inner.banDurationSecs ≠ 0 ∧ ¬ auto.escalationEnabled = true) ∧
      ip ∈ (s'.inner.permanentBans auto.escalationEnabled s'.clock).1
  temporary : ∀ {reason ip offenses secs},
    (AutoBanTracker.fromConfig auto).policy.banKind reason ip offenses s.inner.banDurationSecs =
      .temporary secs → (s.clock.checkedAdd secs).isSome
  issued : ∀ {ip reason}, act = .recordViolation ip reason →
    s.bans (.fromConfig auto) act = some ip → ∃ record, s'.inner.records.get ip = some record ∧
      (record.permanent = true ↔ (AutoBanTracker.fromConfig auto).policy.banKind reason ip
        record.offenses s.inner.banDurationSecs = .permanent)

theorem mem_permanentBans_of_permanent {inner : AutoBanInner} {escalationEnabled : Bool}
    (hexit : ¬ (inner.banDurationSecs ≠ 0 ∧ ¬ escalationEnabled = true)) (now : Instant)
    {ip : IpAddr} {record : IpRecord} (hget : inner.records.get ip = some record)
    (hpermanent : record.permanent = true) :
    ip ∈ (inner.permanentBans escalationEnabled now).1 := by
  unfold AutoBanInner.permanentBans
  rw [if_neg hexit]
  refine List.mem_map.mpr ⟨(ip, record), List.mem_filter.mpr ⟨?_, ?_⟩, rfl⟩
  · exact (inner.records.get_eq_some_iff ip record).mp hget
  · simp [hpermanent, IpRecord.isBanned_of_permanent hpermanent]

theorem persistable_step {canonicalize : Path → Option Path} {auto : AutoBanConfig}
    {ipBan : IpBanConfig} (hvalid : validateAutoBanConfig canonicalize auto ipBan = .ok ())
    (henabled : auto.enabled = true) (hs : Foreseen auto s)
    (h : step (.fromConfig auto) s act = some s') (hclock : s.Representable) :
    Persistable canonicalize auto ipBan s act s' := by
  have hb := bounded_of_valid hvalid henabled
  have hs' := foreseen_step hb hs h hclock
  refine ⟨?_, ?_, ?_⟩
  · intro ip record hget hpermanent
    have hasked := hs'.permanent ((hs'.agree.permanent_iff hget).mp hpermanent)
    obtain ⟨hempty, hmode, hsame⟩ := persistence_of_valid hvalid henabled hasked
    have hexit : ¬ (s'.inner.banDurationSecs ≠ 0 ∧ ¬ auto.escalationEnabled = true) := by
      rw [hs'.banDurationSecs]
      rintro ⟨hduration, hescalation⟩
      exact hasked.elim hduration hescalation
    exact ⟨hempty, hmode, hsame, hexit,
      mem_permanentBans_of_permanent hexit s'.clock hget hpermanent⟩
  · intro reason ip offenses secs hkind
    rw [hs.banDurationSecs] at hkind
    exact representable_banKind hb hclock hkind
  · rintro ip reason rfl hbans
    obtain ⟨reason', hact, htrue⟩ := bans_eq_some_iff.mp hbans
    cases hact
    obtain ⟨record', hget, hoffenses, -⟩ := (offended_of_step h htrue).banned
    refine ⟨record', hget, ?_⟩
    rw [hs'.agree.permanent_iff hget, (issued_step hs.agree h htrue).1, nextKind, hoffenses,
      Option.some.injEq, hs.banDurationSecs]
    exact issue_permanent fun secs hkind => representable_banKind hb hclock hkind

/-- A validated configuration issues no permanent ban that could not be persisted,
and no temporary ban that would turn into a permanent one. -/
theorem permanent_bans_persistable (canonicalize : Path → Option Path) (auto : AutoBanConfig)
    (ipBan : IpBanConfig) (hvalid : validateAutoBanConfig canonicalize auto ipBan = .ok ())
    (henabled : auto.enabled = true) (clock : Instant) (as : List Action)
    (hclock : AllSteps (step (.fromConfig auto)) (fun s _ _ => s.Representable)
      (init (.fromConfig auto) clock) as) :
    AllSteps (step (.fromConfig auto)) (Persistable canonicalize auto ipBan)
      (init (.fromConfig auto) clock) as := by
  refine allSteps_of_invariant (foreseen_step (bounded_of_valid hvalid henabled)) ?_
    (foreseen_init auto clock) hclock
  exact persistable_step hvalid henabled

/-- The default configuration bans for good. -/
theorem permanent_bans_persistable_default :
    AllSteps (step (.fromConfig { AutoBanConfig.default with enabled := true }))
      (Persistable (fun _ => none) { AutoBanConfig.default with enabled := true }
        ⟨.on, ⟨"./ip-ban-list.txt"⟩⟩)
      (init (.fromConfig { AutoBanConfig.default with enabled := true }) ⟨0⟩)
      [.recordViolation History.offender .sqlInjection, .flush true] := by
  refine permanent_bans_persistable (fun _ => none) { AutoBanConfig.default with enabled := true }
    ⟨.on, ⟨"./ip-ban-list.txt"⟩⟩ (by decide) rfl ⟨0⟩
    [.recordViolation History.offender .sqlInjection, .flush true] ?_
  have hroom : ∀ secs : UInt64, secs.toNat ≤ 2 * maxBanDurationSecs.toNat →
      ((⟨0⟩ : Instant).checkedAdd secs).isSome := by
    intro secs hsecs
    have hfits : secs.toNat < 0x8000000000000000 := by
      rw [maxBanDurationSecs_toNat] at hsecs
      omega
    simp [Instant.checkedAdd, hfits]
  exact .cons rfl hroom (.cons rfl hroom trivial)

end BanSpans

end Aquatic.AutoBan
