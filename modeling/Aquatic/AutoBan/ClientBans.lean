import Aquatic.AutoBan.TrackerSpec

/-!
# The client ban file

Client bans are the temporary bans that survive a restart. A line of their file
is an address and the second at which its ban expires; the file may hold several
lines for an address, and the latest one counts.
-/

namespace Aquatic.AutoBan
open Collections
set_option autoImplicit false

/-- What a line of the file says, as far as it can be parsed. -/
inductive ClientBanLine where
  | ban (ip : IpAddr) (expire : UInt64)
  | skipped
  deriving DecidableEq, Repr

def parseLine (nowUnix : UInt64) (out : IndexMap IpAddr UInt64) :
    ClientBanLine → IndexMap IpAddr UInt64
  | .ban ip expire =>
    if expire ≤ nowUnix then out
    else
      match out.get ip with
      | some slot => if expire > slot then out.insert ip expire else out
      | none => out.insert ip expire
  | .skipped => out

/-- The latest expiry of each address, without the bans that have expired. -/
def parseClientBanLines (content : List ClientBanLine) (nowUnix : UInt64) :
    IndexMap IpAddr UInt64 := content.foldl (parseLine nowUnix) IndexMap.empty

/-- Keep whichever expiry is later when the address is already banned. -/
def IpRecord.restore (record : IpRecord) (bannedUntil : Instant) : IpRecord :=
  let longer := record.bannedUntil.all fun existing => bannedUntil.nanos > existing.nanos
  if !record.permanent && longer then
    { record with bannedUntil := some bannedUntil, persisted := false }
  else record

namespace AutoBanInner

def restoreBan (now : Instant) (nowUnix : UInt64) (records : IndexMap IpAddr IpRecord)
    (ban : IpAddr × UInt64) : IndexMap IpAddr IpRecord :=
  match now.checkedAdd (satSub ban.2 nowUnix) with
  | some bannedUntil =>
    let record := (records.get ban.1).getD { IpRecord.new now with count := 1 }
    records.insert ban.1 (record.restore bannedUntil)
  | none => records

/-- Restore the client bans that have not expired, and make room for them. -/
def loadClientBans (inner : AutoBanInner) (content : List ClientBanLine) (now : Instant)
    (nowUnix : UInt64) : Nat × AutoBanInner :=
  let parsed := parseClientBanLines content nowUnix
  if parsed.len = 0 then (0, inner)
  else
    let needed := max inner.maxRecords parsed.len + 100000
    (parsed.len,
      { inner with
        records := parsed.entries.foldl (restoreBan now nowUnix) inner.records
        maxRecords := if inner.maxRecords < needed then needed else inner.maxRecords })

end AutoBanInner

/-- The later of two expiries, if there are any. -/
def later : Option UInt64 → Option UInt64 → Option UInt64
  | some a, some b => some (if b > a then b else a)
  | some a, none => some a
  | none, b => b

/-- What a line says about an address that is still banned. -/
def ClientBanLine.expiry (nowUnix : UInt64) (ip : IpAddr) : ClientBanLine → Option UInt64
  | .ban ip' expire => if ip' = ip ∧ nowUnix < expire then some expire else none
  | .skipped => none

/-- The latest expiry that the lines give for an address. -/
def latestExpiry (content : List ClientBanLine) (nowUnix : UInt64) (ip : IpAddr) :
    Option UInt64 :=
  content.foldl (fun expiry line => later expiry (line.expiry nowUnix ip)) none

theorem get_parseLine (nowUnix : UInt64) (out : IndexMap IpAddr UInt64) (line : ClientBanLine)
    (ip : IpAddr) :
    (parseLine nowUnix out line).get ip = later (out.get ip) (line.expiry nowUnix ip) := by
  have hnone : ∀ a, later a none = a := by
    intro a
    cases a <;> rfl
  cases line with
  | skipped => exact (hnone _).symm
  | ban ip' expire =>
    simp only [parseLine, ClientBanLine.expiry]
    by_cases hexpired : expire ≤ nowUnix
    · rw [if_pos hexpired, if_neg (fun h => UInt64.not_lt.mpr hexpired h.2), hnone]
    · rw [if_neg hexpired]
      have hlive : nowUnix < expire := UInt64.not_le.mp hexpired
      by_cases hip : ip' = ip
      · subst hip
        rw [if_pos ⟨rfl, hlive⟩]
        cases hslot : out.get ip' with
        | none =>
          simp only
          rw [IndexMap.get_insert, if_pos rfl]
          rfl
        | some slot =>
          simp only [later]
          by_cases hlater : expire > slot
          · rw [if_pos hlater, if_pos hlater, IndexMap.get_insert, if_pos rfl]
          · rw [if_neg hlater, if_neg hlater, hslot]
      · rw [if_neg fun h => hip h.1, hnone]
        cases out.get ip' with
        | none =>
          simp only
          rw [IndexMap.get_insert, if_neg (Ne.symm hip)]
        | some slot =>
          simp only
          split
          · rw [IndexMap.get_insert, if_neg (Ne.symm hip)]
          · rfl

theorem get_parseClientBanLines (content : List ClientBanLine) (nowUnix : UInt64) (ip : IpAddr) :
    (parseClientBanLines content nowUnix).get ip = latestExpiry content nowUnix ip := by
  suffices h : ∀ out : IndexMap IpAddr UInt64, (content.foldl (parseLine nowUnix) out).get ip =
      content.foldl (fun expiry line => later expiry (line.expiry nowUnix ip)) (out.get ip) from
    h IndexMap.empty
  induction content with
  | nil => exact fun _ => rfl
  | cons line content ih =>
    intro out
    rw [List.foldl_cons, List.foldl_cons, ih, get_parseLine]

theorem latestExpiry_concat (content : List ClientBanLine) (line : ClientBanLine)
    (nowUnix : UInt64) (ip : IpAddr) :
    latestExpiry (content ++ [line]) nowUnix ip =
      later (latestExpiry content nowUnix ip) (line.expiry nowUnix ip) := by
  unfold latestExpiry
  rw [List.foldl_append]
  rfl

theorem expiry_eq_some_iff {line : ClientBanLine} {nowUnix : UInt64} {ip : IpAddr}
    {expire : UInt64} :
    line.expiry nowUnix ip = some expire ↔ line = .ban ip expire ∧ nowUnix < expire := by
  cases line with
  | skipped => simp [ClientBanLine.expiry]
  | ban ip' expire' =>
    simp only [ClientBanLine.expiry, Option.ite_none_right_eq_some, Option.some.injEq,
      ClientBanLine.ban.injEq]
    constructor
    · rintro ⟨⟨rfl, hlive⟩, rfl⟩
      exact ⟨⟨rfl, rfl⟩, hlive⟩
    · rintro ⟨⟨rfl, rfl⟩, hlive⟩
      exact ⟨⟨rfl, hlive⟩, rfl⟩

theorem eq_some_of_later {a b : Option UInt64} {expire : UInt64} (h : later a b = some expire) :
    a = some expire ∨ b = some expire := by
  rcases a with _ | a <;> rcases b with _ | b
  · cases h
  · exact .inr h
  · exact .inl h
  · simp only [later] at h
    split at h
    · exact .inr h
    · exact .inl h

theorem le_later {a b : Option UInt64} {expire : UInt64}
    (h : a = some expire ∨ b = some expire) :
    ∃ latest, later a b = some latest ∧ expire ≤ latest := by
  rcases a with _ | a <;> rcases b with _ | b
  · rcases h with h | h <;> cases h
  · exact ⟨b, rfl, UInt64.le_of_eq (Option.some.inj (h.resolve_left nofun)).symm⟩
  · exact ⟨a, rfl, UInt64.le_of_eq (Option.some.inj (h.resolve_right nofun)).symm⟩
  · by_cases hlater : b > a
    · refine ⟨b, congrArg some (if_pos hlater), ?_⟩
      rcases h with h | h <;> cases h
      · exact UInt64.le_of_lt hlater
      · exact UInt64.le_refl _
    · refine ⟨a, congrArg some (if_neg hlater), ?_⟩
      rcases h with h | h <;> cases h
      · exact UInt64.le_refl _
      · exact UInt64.not_lt.mp hlater

/-- The latest expiry belongs to a line. -/
theorem mem_of_latestExpiry {content : List ClientBanLine} {nowUnix : UInt64} {ip : IpAddr}
    {expire : UInt64} (h : latestExpiry content nowUnix ip = some expire) :
    .ban ip expire ∈ content ∧ nowUnix < expire := by
  induction content using List.reverseRecOn with
  | nil => cases h
  | append_singleton content line ih =>
    rw [latestExpiry_concat] at h
    rcases eq_some_of_later h with h | h
    · exact ⟨List.mem_append_left _ (ih h).1, (ih h).2⟩
    · obtain ⟨rfl, hlive⟩ := expiry_eq_some_iff.mp h
      exact ⟨List.mem_concat_self, hlive⟩

/-- No line has a later expiry. -/
theorem le_latestExpiry {content : List ClientBanLine} {nowUnix : UInt64} {ip : IpAddr}
    {expire : UInt64} (hmem : .ban ip expire ∈ content) (hlive : nowUnix < expire) :
    ∃ latest, latestExpiry content nowUnix ip = some latest ∧ expire ≤ latest := by
  induction content using List.reverseRecOn with
  | nil => cases hmem
  | append_singleton content line ih =>
    rw [latestExpiry_concat]
    rcases List.mem_append.mp hmem with hmem | hmem
    · obtain ⟨latest, hlatest, hle⟩ := ih hmem
      obtain ⟨latest', hlatest', hle'⟩ :=
        le_later (.inl hlatest) (b := line.expiry nowUnix ip)
      exact ⟨latest', hlatest', UInt64.le_trans hle hle'⟩
    · exact le_later (.inr (expiry_eq_some_iff.mpr ⟨(List.mem_singleton.mp hmem).symm, hlive⟩))

theorem latestExpiry_eq_some_iff {content : List ClientBanLine} {nowUnix : UInt64} {ip : IpAddr}
    {expire : UInt64} :
    latestExpiry content nowUnix ip = some expire ↔
      (.ban ip expire ∈ content ∧ nowUnix < expire) ∧
        ∀ expire', .ban ip expire' ∈ content → nowUnix < expire' → expire' ≤ expire := by
  constructor
  · intro h
    refine ⟨mem_of_latestExpiry h, ?_⟩
    intro expire' hmem hlive
    obtain ⟨latest, hlatest, hle⟩ := le_latestExpiry hmem hlive
    cases h.symm.trans hlatest
    exact hle
  · rintro ⟨⟨hmem, hlive⟩, hbound⟩
    obtain ⟨latest, hlatest, hle⟩ := le_latestExpiry hmem hlive
    obtain ⟨hmem', hlive'⟩ := mem_of_latestExpiry hlatest
    rw [hlatest, UInt64.le_antisymm (hbound latest hmem' hlive') hle]

/-- Until when the lines ban an address. -/
def restoredUntil (content : List ClientBanLine) (now : Instant) (nowUnix : UInt64) (ip : IpAddr) :
    Option Instant :=
  (latestExpiry content nowUnix ip).bind fun expire => now.checkedAdd (satSub expire nowUnix)

/-- What restoring a ban leaves of an address. -/
def restored (now : Instant) (nowUnix expire : UInt64) (old : Option IpRecord) : Option IpRecord :=
  (now.checkedAdd (satSub expire nowUnix)).elim old fun bannedUntil =>
    some ((old.getD { IpRecord.new now with count := 1 }).restore bannedUntil)

theorem get_restoreBan (now : Instant) (nowUnix : UInt64) (records : IndexMap IpAddr IpRecord)
    (ban : IpAddr × UInt64) (ip : IpAddr) :
    (AutoBanInner.restoreBan now nowUnix records ban).get ip =
      if ip = ban.1 then restored now nowUnix ban.2 (records.get ip) else records.get ip := by
  unfold AutoBanInner.restoreBan restored
  cases now.checkedAdd (satSub ban.2 nowUnix) with
  | none => simp
  | some bannedUntil =>
    simp only [IndexMap.get_insert, Option.elim_some]
    by_cases hip : ip = ban.1
    · rw [if_pos hip, if_pos hip, hip]
    · rw [if_neg hip, if_neg hip]

theorem get_loadClientBans (inner : AutoBanInner) (content : List ClientBanLine) (now : Instant)
    (nowUnix : UInt64) (ip : IpAddr) :
    (inner.loadClientBans content now nowUnix).2.records.get ip =
      (restoredUntil content now nowUnix ip).elim (inner.records.get ip) fun bannedUntil =>
        some (((inner.records.get ip).getD { IpRecord.new now with count := 1 }).restore
          bannedUntil) := by
  have hparsed := get_parseClientBanLines content nowUnix ip
  unfold AutoBanInner.loadClientBans restoredUntil
  simp only
  split
  · rename_i hlen
    have hempty : (parseClientBanLines content nowUnix).isEmpty := by
      simpa [IndexMap.isEmpty] using List.length_eq_zero_iff.mp hlen
    rw [← hparsed, (IndexMap.isEmpty_iff _).mp hempty ip]
    rfl
  · rw [IndexMap.get_foldl_entries (g := fun _ => restored now nowUnix)
      (get_restoreBan now nowUnix), hparsed]
    cases latestExpiry content nowUnix ip <;> rfl

end Aquatic.AutoBan
