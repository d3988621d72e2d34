import Aquatic.AutoBan.BanSpans
import Aquatic.AutoBan.ClientBanText

/-!
# Client bans over a restart

The time at which a ban ends is written down in whole seconds of the wall clock, and read
back as seconds from now on. Beside a run, the bans that `record_violation` has issued and
whose call has returned; the file may hold anything at first.
-/

namespace Aquatic.AutoBan
open Collections Transition
set_option autoImplicit false

/-- The monotonic clock and the wall clock, in nanoseconds. -/
structure Clocks where
  now : Instant
  unixNanos : Nat
  now_representable : now.Representable
  unix_lt : unixNanos / 1000000000 < 0x8000000000000000

namespace Clocks

/-- `unix_now`. -/
def nowUnix (clocks : Clocks) : UInt64 := UInt64.ofNat (clocks.unixNanos / 1000000000)

/-- The clocks go on together. -/
def advance (clocks : Clocks) (nanos : Nat) : Option Clocks :=
  if h : (clocks.now.nanos + nanos) / 1000000000 < 0x8000000000000000 ∧
      (clocks.unixNanos + nanos) / 1000000000 < 0x8000000000000000 then
    some ⟨⟨clocks.now.nanos + nanos⟩, clocks.unixNanos + nanos, h.1, h.2⟩
  else none

/-- What the wall clock says at an instant. -/
def wall (clocks : Clocks) (instant : Instant) : Int :=
  clocks.unixNanos + (instant.nanos - clocks.now.nanos)

/-- The second that is written down for the end of a ban. -/
def expireUnix (clocks : Clocks) (bannedUntil : Instant) : UInt64 :=
  satAdd clocks.nowUnix (UInt64.ofNat (bannedUntil.secsSince clocks.now))

end Clocks

/-- Where a worker is between `record_violation` and the end of `persist_client_ban`. The
ban that it has issued ends at `bannedUntil`; `ended` says that it had ended when the
record was read. -/
inductive Persister where
  | idle
  | banned (ip : IpAddr) (bannedUntil : Instant)
  | read (ip : IpAddr) (bannedUntil : Instant) (expire : UInt64) (ended : Bool)
  deriving DecidableEq

/-- `found` is the file as it was at first. `persisted` are the temporary client bans that
have been issued since and after which `record_violation` has returned, and `stray` the
lines that were written when the ban to be written had ended. -/
structure ClientBanRestarts where
  clocks : Clocks
  inner : AutoBanInner
  flushed : Option (List IpAddr)
  ledger : IpAddr → Option Ban
  workers : Nat → Persister
  content : List UInt8
  found : List UInt8
  persisted : List (IpAddr × Instant)
  stray : List (IpAddr × UInt64)

/-- Whether there is a file for client bans. -/
def AutoBanTracker.hasClientBanFile (tracker : AutoBanTracker) : Bool :=
  tracker.clientBanListPath.any fun path => !path.isEmpty

/-- The bans that a new process has at first. -/
def AutoBanTracker.restored (tracker : AutoBanTracker) (content : List UInt8) (clocks : Clocks) :
    AutoBanInner :=
  if tracker.hasClientBanFile then
    (tracker.inner.loadClientBanFile content clocks.now clocks.nowUnix).2
  else tracker.inner

def Ban.expiry : Ban → Option Instant
  | temporary expiry => some expiry
  | permanent => none

namespace ClientBanRestarts

inductive Action where
  | recordViolation (worker : Nat) (ip : IpAddr) (reason : AutoBanReason)
  /-- The worker reads the ban and both clocks. -/
  | readBan (worker : Nat)
  /-- It has the write lock and appends the line. -/
  | appendBan (worker : Nat)
  | appendFails (worker : Nat)
  | persistIp (ip : IpAddr)
  | cleanup
  | flush (ok : Bool)
  | persistFlushed (ips : List IpAddr)
  | removeFlushed
  | reloadFailed
  | cleanupClientBans
  | restart
  | tick (nanos : Nat)

/-- The tracker and the bans that are due from it. -/
def spans (s : ClientBanRestarts) : BanSpans := ⟨s.inner, s.clocks.now, s.flushed, s.ledger⟩

def setSpans (s : ClientBanRestarts) (spans : BanSpans) : ClientBanRestarts :=
  { s with inner := spans.inner, flushed := spans.flushed, ledger := spans.ledger }

def setWorker (s : ClientBanRestarts) (worker : Nat) (state : Persister) : ClientBanRestarts :=
  { s with workers := fun w => if w = worker then state else s.workers w }

/-- `record_violation` returns, and has issued this ban. -/
def notePersisted (s : ClientBanRestarts) (ip : IpAddr) (bannedUntil : Instant) :
    ClientBanRestarts := { s with persisted := s.persisted ++ [(ip, bannedUntil)] }

/-- The bans of a new process are those that its records stand for. -/
def start (s : ClientBanRestarts) (inner : AutoBanInner) : ClientBanRestarts :=
  { s with
    inner
    flushed := none
    ledger := fun ip => BanSpans.standing (inner.records.get ip) s.clocks.now
    workers := fun _ => .idle }

section Steps
variable (tracker : AutoBanTracker)

def init (content : List UInt8) (clocks : Clocks) : ClientBanRestarts :=
  start ⟨clocks, tracker.inner, none, fun _ => none, fun _ => .idle, content, content, [], []⟩
    (tracker.restored content clocks)

def onTracker (s : ClientBanRestarts) (act : BanSpans.Action) : Option ClientBanRestarts :=
  (s.spans.step tracker act).map s.setSpans

/-- When a client ban ends that a violation leads to now. -/
def issued (s : ClientBanRestarts) (ip : IpAddr) (reason : AutoBanReason) : Option Instant :=
  let (banned, _) := s.inner.recordViolation tracker.policy ip reason s.clocks.now
  if banned && reason == .clientBanned then
    (Ban.issue (s.spans.nextKind tracker.policy ip reason) s.clocks.now).expiry
  else none

/-- The worker goes on to `persist_client_ban`, unless the ban is said to be permanent. -/
def afterViolation (s : ClientBanRestarts) (worker : Nat) (ip : IpAddr) (permanent : Bool) :
    Option Instant → ClientBanRestarts
  | some bannedUntil =>
    if permanent then s.notePersisted ip bannedUntil
    else s.setWorker worker (.banned ip bannedUntil)
  | none => s

/-- The second that `persist_client_ban` writes down, if it does not return at once. -/
def expireUnix (s : ClientBanRestarts) (ip : IpAddr) : Option UInt64 :=
  if tracker.hasClientBanFile then
    (s.inner.records.get ip).bind fun record =>
      if record.permanent then none else record.bannedUntil.map s.clocks.expireUnix
  else none

def step (s : ClientBanRestarts) : Action → Option ClientBanRestarts
  | .recordViolation worker ip reason =>
    if s.workers worker = .idle then
      let (_, permanent, _) := s.inner.recordViolation tracker.policy ip reason s.clocks.now
      (s.onTracker tracker (.recordViolation ip reason)).map fun s' =>
        s'.afterViolation worker ip permanent (s.issued tracker ip reason)
    else none
  | .readBan worker =>
    match s.workers worker with
    | .banned ip bannedUntil =>
      match s.expireUnix tracker ip with
      | some expire =>
        some (s.setWorker worker
          (.read ip bannedUntil expire (bannedUntil.nanos ≤ s.clocks.now.nanos)))
      | none => some ((s.setWorker worker .idle).notePersisted ip bannedUntil)
    | _ => none
  | .appendBan worker =>
    match s.workers worker with
    | .read ip bannedUntil expire ended =>
      some { (s.setWorker worker .idle).notePersisted ip bannedUntil with
        content := appendClientBanLine s.content ip expire
        stray := if ended then s.stray ++ [(ip, expire)] else s.stray }
    | _ => none
  | .appendFails worker =>
    match s.workers worker with
    | .read .. => some (s.setWorker worker .idle)
    | _ => none
  | .persistIp ip => s.onTracker tracker (.persistIp ip)
  | .cleanup => s.onTracker tracker .cleanup
  | .flush ok => s.onTracker tracker (.flush ok)
  | .persistFlushed ips => s.onTracker tracker (.persistFlushed ips)
  | .removeFlushed => s.onTracker tracker .removeFlushed
  | .reloadFailed => s.onTracker tracker .reloadFailed
  | .cleanupClientBans =>
    if tracker.hasClientBanFile then
      some { s with content := AutoBan.cleanupClientBans s.content s.clocks.nowUnix }
    else some s
  | .restart => some (s.start (tracker.restored s.content s.clocks))
  | .tick nanos => (s.clocks.advance nanos).map fun clocks => { s with clocks }

end Steps

/-- The lines of the file. -/
def lines (s : ClientBanRestarts) : List ClientBanLine := clientBanLines (fromUtf8Lossy s.content)

/-- When the bans of an address end by the wall clock: those that were issued in the run, and
what other lines say. -/
def expiries (s : ClientBanRestarts) (ip : IpAddr) : List Int :=
  (s.persisted.filter fun ban => ban.1 = ip).map (fun ban => s.clocks.wall ban.2) ++
    ((s.stray.filter fun line => line.1 = ip).map (fun line => (line.2.toNat * 1000000000 : Int)) ++
    (clientBanLines (fromUtf8Lossy s.found)).filterMap fun line =>
      match line with
      | .ban ip' expire => if ip' = ip then some (expire.toNat * 1000000000 : Int) else none
      | .skipped => none)

/-- The address has a temporary ban that ends within two seconds of the latest of its bans. -/
def Restored (s s' : ClientBanRestarts) (ip : IpAddr) : Prop :=
  ∃ record bannedUntil latest, s'.inner.records.get ip = some record ∧
    record.permanent = false ∧ record.bannedUntil = some bannedUntil ∧
    latest ∈ s.expiries ip ∧ (∀ expiry ∈ s.expiries ip, expiry ≤ latest) ∧
    s.clocks.wall bannedUntil < latest + 2000000000 ∧
    latest < s.clocks.wall bannedUntil + 2000000000

/-- A ban that was issued in the run and lasts for more than two seconds. -/
def Due (tracker : AutoBanTracker) (s : ClientBanRestarts) (ip : IpAddr) : Prop :=
  tracker.hasClientBanFile = true ∧ ∃ bannedUntil, (ip, bannedUntil) ∈ s.persisted ∧
    s.clocks.now.nanos + 2000000000 < bannedUntil.nanos

/-- A restart brings back what is due. -/
def Restores (tracker : AutoBanTracker) (s : ClientBanRestarts) (act : Action)
    (s' : ClientBanRestarts) : Prop :=
  match act with
  | .restart => ∀ ip, s.Due tracker ip → s.Restored s' ip
  | _ => True

/-- The file was a text at first, and no line bans an address that is due for longer than the
clock can count. -/
def Readable (tracker : AutoBanTracker) (s : ClientBanRestarts) (act : Action)
    (_ : ClientBanRestarts) : Prop :=
  match act with
  | .restart => ∀ ip, s.Due tracker ip → (fromUtf8 s.found).isSome = true ∧
      ∀ expire, .ban ip expire ∈ s.lines → s.clocks.nowUnix < expire →
        (s.clocks.now.checkedAdd (satSub expire s.clocks.nowUnix)).isSome = true
  | _ => True

end ClientBanRestarts

namespace Clocks
variable {clocks clocks' : Clocks} {expire : UInt64} {bannedUntil : Instant}

theorem nowUnix_toNat (clocks : Clocks) :
    clocks.nowUnix.toNat = clocks.unixNanos / 1000000000 := by
  have hlt := clocks.unix_lt
  have hsize : UInt64.size = 18446744073709551616 := rfl
  exact UInt64.toNat_ofNat_of_lt (by omega)

/-- What the line of a ban says: it has not ended later, as long as it is read at all, and not
two seconds earlier. -/
structure Spells (clocks : Clocks) (expire : UInt64) (bannedUntil : Instant) : Prop where
  early : clocks.nowUnix < expire → (expire.toNat * 1000000000 : Int) ≤ clocks.wall bannedUntil
  late : clocks.wall bannedUntil < expire.toNat * 1000000000 + 2000000000

theorem spells_expireUnix (h : bannedUntil.Representable) :
    clocks.Spells (clocks.expireUnix bannedUntil) bannedUntil := by
  have hunix := clocks.nowUnix_toNat
  have hlt := clocks.unix_lt
  have hsize : UInt64.size = 18446744073709551616 := rfl
  have hsecs : bannedUntil.secsSince clocks.now < 0x8000000000000000 := by
    unfold Instant.Representable at h
    unfold Instant.secsSince
    omega
  have hremaining : (UInt64.ofNat (bannedUntil.secsSince clocks.now)).toNat =
      bannedUntil.secsSince clocks.now := UInt64.toNat_ofNat_of_lt (by omega)
  have hexpire : (clocks.expireUnix bannedUntil).toNat =
      clocks.unixNanos / 1000000000 + bannedUntil.secsSince clocks.now := by
    rw [expireUnix, satAdd_eq, hunix, hremaining]
    rw [hunix, hremaining]
    omega
  constructor
  · intro hlive
    rw [UInt64.lt_iff_toNat_lt] at hlive
    unfold wall
    unfold Instant.secsSince at hexpire
    omega
  · unfold wall
    unfold Instant.secsSince at hexpire
    omega

/-- The clocks after some time. -/
structure Later (clocks clocks' : Clocks) : Prop where
  wall : ∀ instant, clocks'.wall instant = clocks.wall instant
  unix : clocks.unixNanos ≤ clocks'.unixNanos
  now : clocks.now.nanos ≤ clocks'.now.nanos

theorem Later.refl (clocks : Clocks) : Later clocks clocks :=
  ⟨fun _ => rfl, Nat.le_refl _, Nat.le_refl _⟩

theorem later_advance {nanos : Nat} (h : clocks.advance nanos = some clocks') :
    Later clocks clocks' := by
  unfold advance at h
  split at h
  · cases h
    refine ⟨?_, Nat.le_add_right _ _, Nat.le_add_right _ _⟩
    intro instant
    unfold Clocks.wall
    simp only
    omega
  · cases h

theorem Later.nowUnix_le (h : Later clocks clocks') : clocks.nowUnix ≤ clocks'.nowUnix := by
  rw [UInt64.le_iff_toNat_le, nowUnix_toNat, nowUnix_toNat]
  exact Nat.div_le_div_right h.unix

theorem Spells.later (hspells : clocks.Spells expire bannedUntil) (h : Later clocks clocks') :
    clocks'.Spells expire bannedUntil := by
  constructor
  · intro hlive
    rw [h.wall]
    exact hspells.early (UInt64.lt_of_le_of_lt h.nowUnix_le hlive)
  · rw [h.wall]
    exact hspells.late

/-- A second that has not begun is in the future. -/
theorem nowUnix_lt_of_wall_lt (h : (clocks.unixNanos : Int) < expire.toNat * 1000000000) :
    clocks.nowUnix < expire := by
  rw [UInt64.lt_iff_toNat_lt, nowUnix_toNat]
  omega

/-- A ban is restored for less than a second too long. -/
theorem wall_checkedAdd (hlive : clocks.nowUnix < expire)
    (h : clocks.now.checkedAdd (satSub expire clocks.nowUnix) = some bannedUntil) :
    (expire.toNat * 1000000000 : Int) ≤ clocks.wall bannedUntil ∧
      clocks.wall bannedUntil < expire.toNat * 1000000000 + 1000000000 := by
  have hnanos := Instant.nanos_checkedAdd h
  rw [satSub_eq, nowUnix_toNat] at hnanos
  rw [UInt64.lt_iff_toNat_lt, nowUnix_toNat] at hlive
  unfold wall
  omega

end Clocks

/-- What a new process knows about an address. -/
theorem get_restored (config : AutoBanConfig) (content : List UInt8) (clocks : Clocks)
    (ip : IpAddr) : ((AutoBanTracker.fromConfig config).restored content clocks).records.get ip =
      if (AutoBanTracker.fromConfig config).hasClientBanFile = true ∧
          (fromUtf8 content).isSome = true then
        (restoredUntil (clientBanLines (fromUtf8Lossy content)) clocks.now clocks.nowUnix ip).map
          (IpRecord.restore { IpRecord.new clocks.now with count := 1 })
      else none := by
  have hempty : (AutoBanTracker.fromConfig config).inner.records.get ip = none := rfl
  unfold AutoBanTracker.restored
  split
  · rename_i hfile
    unfold AutoBanInner.loadClientBanFile
    cases htext : fromUtf8 content with
    | none => simp [hempty]
    | some text =>
      obtain rfl := eq_of_fromUtf8 htext
      simp only [Option.isSome_some, and_self, if_true, hfile]
      rw [get_loadClientBans, hempty]
      cases restoredUntil (clientBanLines (fromUtf8Lossy content)) clocks.now clocks.nowUnix ip with
      | none => rfl
      | some bannedUntil => rfl
  · rename_i hfile
    rw [if_neg fun h => hfile h.1, hempty]

namespace ClientBanRestarts
variable {config : AutoBanConfig} {s s' : ClientBanRestarts}

theorem mem_expiries {ip : IpAddr} {expiry : Int} : expiry ∈ s.expiries ip ↔
    (∃ bannedUntil, (ip, bannedUntil) ∈ s.persisted ∧ s.clocks.wall bannedUntil = expiry) ∨
      (∃ expire, (ip, expire) ∈ s.stray ∧ (expire.toNat * 1000000000 : Int) = expiry) ∨
      ∃ expire, .ban ip expire ∈ clientBanLines (fromUtf8Lossy s.found) ∧
        (expire.toNat * 1000000000 : Int) = expiry := by
  simp only [expiries, List.mem_append, List.mem_map, List.mem_filter, decide_eq_true_eq,
    List.mem_filterMap]
  refine or_congr ?_ (or_congr ?_ ?_)
  · constructor
    · rintro ⟨⟨ip', bannedUntil⟩, ⟨hmem, rfl⟩, hwall⟩
      exact ⟨bannedUntil, hmem, hwall⟩
    · rintro ⟨bannedUntil, hmem, hwall⟩
      exact ⟨(ip, bannedUntil), ⟨hmem, rfl⟩, hwall⟩
  · constructor
    · rintro ⟨⟨ip', expire⟩, ⟨hmem, rfl⟩, hexpiry⟩
      exact ⟨expire, hmem, hexpiry⟩
    · rintro ⟨expire, hmem, hexpiry⟩
      exact ⟨(ip, expire), ⟨hmem, rfl⟩, hexpiry⟩
  · constructor
    · rintro ⟨line, hmem, hline⟩
      cases line with
      | skipped => cases hline
      | ban ip' expire =>
        obtain ⟨rfl, hexpiry⟩ := Option.ite_none_right_eq_some.mp hline
        exact ⟨expire, hmem, Option.some.inj hexpiry⟩
    · rintro ⟨expire, hmem, hexpiry⟩
      refine ⟨.ban ip expire, hmem, ?_⟩
      rw [← hexpiry]
      exact if_pos rfl

theorem mem_expiries_notePersisted {ip ip' : IpAddr} {bannedUntil : Instant} {expiry : Int} :
    expiry ∈ (s.notePersisted ip bannedUntil).expiries ip' ↔
      expiry ∈ s.expiries ip' ∨ ip' = ip ∧ s.clocks.wall bannedUntil = expiry := by
  simp only [mem_expiries, notePersisted, List.mem_append, List.mem_singleton, Prod.mk.injEq]
  constructor
  · rintro (⟨bannedUntil', hmem | ⟨rfl, rfl⟩, hwall⟩ | hline)
    · exact .inl (.inl ⟨bannedUntil', hmem, hwall⟩)
    · exact .inr ⟨rfl, hwall⟩
    · exact .inl (.inr hline)
  · rintro ((⟨bannedUntil', hmem, hwall⟩ | hline) | ⟨rfl, hwall⟩)
    · exact .inl ⟨bannedUntil', .inl hmem, hwall⟩
    · exact .inr hline
    · exact .inl ⟨bannedUntil, .inr ⟨rfl, rfl⟩, hwall⟩

/-- What a worker has in hand: a ban that is in force as it was issued, as long as it has not
ended, and a second that says when it ends. -/
def Holds (s : ClientBanRestarts) : Persister → Prop
  | .idle => True
  | .banned ip bannedUntil => bannedUntil.Representable ∧
      (s.clocks.now.nanos < bannedUntil.nanos → s.ledger ip = some (.temporary bannedUntil))
  | .read _ bannedUntil expire ended =>
      if ended then bannedUntil.nanos ≤ s.clocks.now.nanos else s.clocks.Spells expire bannedUntil

def Held (s : ClientBanRestarts) : Prop := ∀ worker, s.Holds (s.workers worker)

/-- The lines that still count are those of the bans, and of each ban that is due there is
one, or one of a ban that ends as late. -/
structure Sound (config : AutoBanConfig) (s : ClientBanRestarts) : Prop where
  agree : s.spans.Agree
  held : s.Held
  text : (fromUtf8 s.content).isSome = (fromUtf8 s.found).isSome
  lines : ∀ {ip expire}, .ban ip expire ∈ s.lines → s.clocks.nowUnix < expire →
    ∃ expiry ∈ s.expiries ip, (expire.toNat * 1000000000 : Int) ≤ expiry
  expiries : (AutoBanTracker.fromConfig config).hasClientBanFile = true →
    ∀ {ip expiry}, expiry ∈ s.expiries ip → (s.clocks.unixNanos + 2000000000 : Int) < expiry →
      ∃ expire, .ban ip expire ∈ s.lines ∧ expiry < expire.toNat * 1000000000 + 2000000000

theorem agree_start (s : ClientBanRestarts) (inner : AutoBanInner) :
    (s.start inner).spans.Agree := by
  refine ⟨fun ip => BanSpans.standing_later (Nat.le_refl _) _, ?_⟩
  intro ips ip hips
  cases hips

theorem held_start (s : ClientBanRestarts) (inner : AutoBanInner) : (s.start inner).Held :=
  fun _ => trivial

theorem sound_init (config : AutoBanConfig) (content : List UInt8) (clocks : Clocks) :
    Sound config (init (.fromConfig config) content clocks) where
  agree := agree_start _ _
  held := held_start _ _
  text := rfl
  lines := by
    intro ip expire hmem _
    exact ⟨_, mem_expiries.mpr (.inr (.inr ⟨expire, hmem, rfl⟩)), Int.le_refl _⟩
  expiries := by
    intro _ ip expiry hmem _
    rcases mem_expiries.mp hmem with ⟨_, hpersisted, -⟩ | ⟨_, hstray, -⟩ | ⟨expire, hline, rfl⟩
    · cases hpersisted
    · cases hstray
    · exact ⟨expire, hline, by omega⟩

/-- A step that leaves the file alone. -/
theorem Sound.beside (hs : Sound config s) (hcontent : s'.content = s.content)
    (hfound : s'.found = s.found) (hpersisted : s'.persisted = s.persisted)
    (hstray : s'.stray = s.stray) (hclocks : Clocks.Later s.clocks s'.clocks)
    (hagree : s'.spans.Agree) (hheld : s'.Held) : Sound config s' := by
  have hexpiries : ∀ {ip expiry}, expiry ∈ s'.expiries ip ↔ expiry ∈ s.expiries ip := by
    intro ip expiry
    simp only [mem_expiries, hfound, hpersisted, hstray, hclocks.wall]
  have hlines : s'.lines = s.lines := by
    rw [ClientBanRestarts.lines, hcontent, ClientBanRestarts.lines]
  refine ⟨hagree, hheld, ?_, ?_, ?_⟩
  · rw [hcontent, hfound]
    exact hs.text
  · intro ip expire hmem hlive
    rw [hlines] at hmem
    obtain ⟨expiry, hexpiry, hle⟩ := hs.lines hmem (UInt64.lt_of_le_of_lt hclocks.nowUnix_le hlive)
    exact ⟨expiry, hexpiries.mpr hexpiry, hle⟩
  · intro hfile ip expiry hmem hlt
    have hunix := hclocks.unix
    rw [hlines]
    exact hs.expiries hfile (hexpiries.mp hmem) (by omega)

theorem Sound.setWorker (hs : Sound config s) (worker : Nat) {state : Persister}
    (hstate : s.Holds state) : Sound config (s.setWorker worker state) := by
  refine hs.beside rfl rfl rfl rfl (.refl _) hs.agree ?_
  intro worker'
  simp only [ClientBanRestarts.setWorker]
  split
  · exact hstate
  · exact hs.held worker'

/-- A ban that has ended need not be in the file. -/
theorem Sound.notePersisted (hs : Sound config s) (ip : IpAddr) {bannedUntil : Instant}
    (h : (AutoBanTracker.fromConfig config).hasClientBanFile = true →
      bannedUntil.nanos ≤ s.clocks.now.nanos) :
    Sound config (s.notePersisted ip bannedUntil) := by
  refine ⟨hs.agree, hs.held, hs.text, ?_, ?_⟩
  · intro ip' expire hmem hlive
    obtain ⟨expiry, hexpiry, hle⟩ := hs.lines hmem hlive
    exact ⟨expiry, mem_expiries_notePersisted.mpr (.inl hexpiry), hle⟩
  · intro hfile ip' expiry hmem hlt
    rcases mem_expiries_notePersisted.mp hmem with hmem | ⟨rfl, rfl⟩
    · exact hs.expiries hfile hmem hlt
    · have hended := h hfile
      change (s.clocks.unixNanos + 2000000000 : Int) < s.clocks.wall bannedUntil at hlt
      unfold Clocks.wall at hlt
      omega

/-- A temporary ban that was issued is kept until it has ended. -/
theorem sound_onTracker {act : BanSpans.Action} (hs : Sound config s)
    (h : s.onTracker (.fromConfig config) act = some s')
    (hload : ∀ content nowUnix, act ≠ .loadClientBans content nowUnix)
    (htick : BanSpans.clockAfter s.clocks.now act = s.clocks.now) : Sound config s' := by
  obtain ⟨spans, hspans, rfl⟩ := Option.map_eq_some_iff.mp h
  have hclock : s.clocks.now = spans.clock :=
    htick.symm.trans (BanSpans.step_clock hspans).1.symm
  have hsame : (s.setSpans spans).spans = spans := by
    unfold setSpans ClientBanRestarts.spans
    simp only [hclock]
  refine hs.beside rfl rfl rfl rfl (.refl _) ?_ ?_
  · rw [hsame]
    exact BanSpans.agree_step hs.agree hspans
  · intro worker
    have hheld := hs.held worker
    change (s.setSpans spans).Holds (s.workers worker)
    cases hworker : s.workers worker with
    | idle => trivial
    | banned ip bannedUntil =>
      rw [hworker] at hheld
      obtain ⟨hrepresentable, hledger⟩ := hheld
      refine ⟨hrepresentable, ?_⟩
      intro hlive
      exact BanSpans.temporary_kept hs.agree hspans hload (hledger hlive) hlive
    | read ip bannedUntil expire ended =>
      rw [hworker] at hheld
      exact hheld

theorem expiry_eq_some_iff {ban : Ban} {bannedUntil : Instant} :
    ban.expiry = some bannedUntil ↔ ban = .temporary bannedUntil := by
  cases ban <;> simp [Ban.expiry]

theorem representable_issue {kind : BanKind} {now bannedUntil : Instant}
    (h : Ban.issue kind now = .temporary bannedUntil) : bannedUntil.Representable := by
  cases kind with
  | permanent => cases h
  | temporary secs =>
    simp only [Ban.issue] at h
    cases hadd : now.checkedAdd secs with
    | none =>
      rw [hadd] at h
      cases h
    | some later =>
      rw [hadd] at h
      cases h
      exact Instant.representable_checkedAdd hadd

theorem permanent_applyBan {record : IpRecord} {kind : BanKind} {now bannedUntil : Instant}
    (h : Ban.issue kind now = .temporary bannedUntil) :
    (record.applyBan kind now).permanent = false := by
  cases kind with
  | permanent => cases h
  | temporary secs =>
    simp only [Ban.issue, IpRecord.applyBan] at h ⊢
    cases hadd : now.checkedAdd secs with
    | none =>
      rw [hadd] at h
      cases h
    | some later => rfl

/-- A ban that ends is issued as a temporary one. -/
theorem issued_spec {ip : IpAddr} {reason : AutoBanReason} {bannedUntil : Instant}
    (hs : s.spans.Agree) {spans : BanSpans}
    (hspans : s.spans.step (.fromConfig config) (.recordViolation ip reason) = some spans)
    (h : s.issued (.fromConfig config) ip reason = some bannedUntil) :
    bannedUntil.Representable ∧ spans.ledger ip = some (.temporary bannedUntil) ∧
      (s.inner.recordViolation (AutoBanTracker.fromConfig config).policy ip reason
        s.clocks.now).2.1 = false := by
  obtain ⟨hbans, hexpiry⟩ := Option.ite_none_right_eq_some.mp h
  have htrue := (Bool.and_eq_true_iff.mp hbans).1
  have hissue := expiry_eq_some_iff.mp hexpiry
  refine ⟨representable_issue hissue, ?_, ?_⟩
  · exact (BanSpans.issued_step hs hspans htrue).1.trans (congrArg some hissue)
  · obtain ⟨room, record, -, -, hrecord, heq⟩ := AutoBanInner.recordViolation_ban htrue
    have hoffense := @BanSpans.nextOffense_eq s.spans (AutoBanTracker.fromConfig config).policy ip
      record hrecord
    rw [BanSpans.nextKind, hoffense] at hissue
    rw [heq]
    exact permanent_applyBan hissue

theorem sound_recordViolation (hs : Sound config s) {worker : Nat} {ip : IpAddr}
    {reason : AutoBanReason}
    (h : s.onTracker (.fromConfig config) (.recordViolation ip reason) = some s') :
    Sound config (s'.afterViolation worker ip
      (s.inner.recordViolation (AutoBanTracker.fromConfig config).policy ip reason
        s.clocks.now).2.1 (s.issued (.fromConfig config) ip reason)) := by
  have hs' := sound_onTracker hs h (fun _ _ => nofun) rfl
  obtain ⟨spans, hspans, rfl⟩ := Option.map_eq_some_iff.mp h
  cases hissued : s.issued (.fromConfig config) ip reason with
  | none => exact hs'
  | some bannedUntil =>
    obtain ⟨hrepresentable, hledger, htemporary⟩ := issued_spec hs.agree hspans hissued
    simp only [afterViolation, htemporary, Bool.false_eq_true, if_false]
    exact hs'.setWorker worker ⟨hrepresentable, fun _ => hledger⟩

theorem sound_readBan (hs : Sound config s) {worker : Nat} {ip : IpAddr} {bannedUntil : Instant}
    (hworker : s.workers worker = .banned ip bannedUntil)
    (h : step (.fromConfig config) s (.readBan worker) = some s') : Sound config s' := by
  have hheld := hs.held worker
  rw [hworker] at hheld
  obtain ⟨hrepresentable, hledger⟩ := hheld
  -- As long as it has not ended, the ban is in the record as it was issued.
  have hrecord : s.clocks.now.nanos < bannedUntil.nanos →
      ∃ record, s.inner.records.get ip = some record ∧ record.permanent = false ∧
        record.bannedUntil = some bannedUntil :=
    fun hlive => hs.agree.record_of_temporary (hledger hlive) hlive
  simp only [step, hworker] at h
  cases hexpire : s.expireUnix (.fromConfig config) ip with
  | none =>
    rw [hexpire] at h
    cases h
    refine (@Sound.setWorker config s hs worker .idle trivial).notePersisted ip ?_
    intro hfile
    by_contra hlive
    obtain ⟨record, hget, htemporary, hbanned⟩ := hrecord (Nat.not_le.mp hlive)
    rw [expireUnix, if_pos hfile, hget, Option.bind_some, htemporary, hbanned] at hexpire
    cases hexpire
  | some expire =>
    rw [hexpire] at h
    cases h
    refine hs.setWorker worker ?_
    by_cases hended : bannedUntil.nanos ≤ s.clocks.now.nanos
    · rw [decide_eq_true hended]
      exact hended
    · obtain ⟨record, hget, htemporary, hbanned⟩ := hrecord (Nat.not_le.mp hended)
      obtain ⟨-, hexpire⟩ := Option.ite_none_right_eq_some.mp hexpire
      rw [hget, Option.bind_some, htemporary, hbanned] at hexpire
      cases hexpire
      rw [decide_eq_false hended]
      exact Clocks.spells_expireUnix hrepresentable

theorem mem_expiries_appendBan {worker : Nat} {ip ip' : IpAddr} {expire : UInt64}
    {bannedUntil : Instant} {ended : Bool} {content : List UInt8} {expiry : Int} :
    expiry ∈ ClientBanRestarts.expiries
      { (s.setWorker worker .idle).notePersisted ip bannedUntil with
        content
        stray := if ended then s.stray ++ [(ip, expire)] else s.stray } ip' ↔
      expiry ∈ (s.notePersisted ip bannedUntil).expiries ip' ∨
        ended = true ∧ ip' = ip ∧ (expire.toNat * 1000000000 : Int) = expiry := by
  cases ended with
  | false => simp [mem_expiries, notePersisted, ClientBanRestarts.setWorker]
  | true =>
    simp only [mem_expiries, notePersisted, ClientBanRestarts.setWorker, if_true, List.mem_append,
      List.mem_singleton, Prod.mk.injEq, true_and]
    constructor
    · rintro (hpersisted | ⟨expire', hmem | ⟨rfl, rfl⟩, hexpiry⟩ | hfound)
      · exact .inl (.inl hpersisted)
      · exact .inl (.inr (.inl ⟨expire', hmem, hexpiry⟩))
      · exact .inr ⟨rfl, hexpiry⟩
      · exact .inl (.inr (.inr hfound))
    · rintro ((hpersisted | ⟨expire', hmem, hexpiry⟩ | hfound) | ⟨rfl, hexpiry⟩)
      · exact .inl hpersisted
      · exact .inr (.inl ⟨expire', .inl hmem, hexpiry⟩)
      · exact .inr (.inr hfound)
      · exact .inr (.inl ⟨expire, .inr ⟨rfl, rfl⟩, hexpiry⟩)

/-- The line of a ban stands for it, unless it was written when the ban had ended. -/
theorem sound_appendBan (hs : Sound config s) {worker : Nat} {ip : IpAddr} {expire : UInt64}
    {bannedUntil : Instant} {ended : Bool}
    (hworker : s.workers worker = .read ip bannedUntil expire ended) :
    Sound config { (s.setWorker worker .idle).notePersisted ip bannedUntil with
      content := appendClientBanLine s.content ip expire
      stray := if ended then s.stray ++ [(ip, expire)] else s.stray } := by
  have hidle := @Sound.setWorker config s hs worker .idle trivial
  have hheld := hs.held worker
  rw [hworker] at hheld
  have hlines : ∀ {ip' expire'}, .ban ip' expire' ∈
      clientBanLines (fromUtf8Lossy (appendClientBanLine s.content ip expire)) ↔
        .ban ip' expire' ∈ s.lines ∨ ip' = ip ∧ expire' = expire := mem_appendClientBanLine
  have hspells : ended = false → s.clocks.Spells expire bannedUntil := by
    intro hended
    rw [hended] at hheld
    exact hheld
  refine ⟨hidle.agree, hidle.held, ?_, ?_, ?_⟩
  · exact (isSome_fromUtf8_appendClientBanLine s.content ip expire).trans hs.text
  · intro ip' expire' hmem hlive
    rcases hlines.mp hmem with hmem | ⟨rfl, rfl⟩
    · obtain ⟨expiry, hexpiry, hle⟩ := hs.lines hmem hlive
      exact ⟨expiry, mem_expiries_appendBan.mpr (.inl (mem_expiries_notePersisted.mpr
        (.inl hexpiry))), hle⟩
    · cases hended : ended with
      | false =>
        exact ⟨_, mem_expiries_appendBan.mpr (.inl (mem_expiries_notePersisted.mpr
          (.inr ⟨rfl, rfl⟩))), (hspells hended).early hlive⟩
      | true => exact ⟨_, mem_expiries_appendBan.mpr (.inr ⟨rfl, rfl, rfl⟩), Int.le_refl _⟩
  · intro hfile ip' expiry hmem hlt
    change (s.clocks.unixNanos + 2000000000 : Int) < expiry at hlt
    rcases mem_expiries_appendBan.mp hmem with hmem | ⟨-, rfl, rfl⟩
    · rcases mem_expiries_notePersisted.mp hmem with hmem | ⟨rfl, rfl⟩
      · obtain ⟨expire', hline, hlate⟩ := hs.expiries hfile hmem hlt
        exact ⟨expire', hlines.mpr (.inl hline), hlate⟩
      · cases hended : ended with
        | false => exact ⟨expire, hlines.mpr (.inr ⟨rfl, rfl⟩), (hspells hended).late⟩
        | true =>
          rw [hended] at hheld
          have hended : bannedUntil.nanos ≤ s.clocks.now.nanos := hheld
          change (s.clocks.unixNanos + 2000000000 : Int) < s.clocks.wall bannedUntil at hlt
          unfold Clocks.wall at hlt
          omega
    · exact ⟨expire, hlines.mpr (.inr ⟨rfl, rfl⟩), by omega⟩

/-- What is thrown away has ended, or is not the latest ban of its address. -/
theorem sound_cleanupClientBans (hs : Sound config s) :
    Sound config { s with content := cleanupClientBans s.content s.clocks.nowUnix } := by
  by_cases htext : (fromUtf8 s.content).isSome = true
  · have hlines : clientBanLines (fromUtf8Lossy (cleanupClientBans s.content s.clocks.nowUnix)) =
      cleanedLines s.lines s.clocks.nowUnix := clientBanLines_cleanupClientBans htext _
    refine ⟨hs.agree, hs.held, ?_, ?_, ?_⟩
    · exact (isSome_fromUtf8_cleanupClientBans s.content _).trans hs.text
    · intro ip expire hmem hlive
      refine hs.lines ?_ hlive
      have hmem' : ClientBanLine.ban ip expire ∈ cleanedLines s.lines s.clocks.nowUnix :=
        hlines ▸ hmem
      exact (mem_of_latestExpiry (ClientBanFile.mem_cleanedLines.mp hmem')).1
    · intro hfile ip expiry hmem hlt
      change (s.clocks.unixNanos + 2000000000 : Int) < expiry at hlt
      obtain ⟨expire, hline, hlate⟩ := hs.expiries hfile hmem hlt
      have hlive : s.clocks.nowUnix < expire := Clocks.nowUnix_lt_of_wall_lt (by omega)
      obtain ⟨latest, hlatest, hle⟩ := le_latestExpiry hline hlive
      refine ⟨latest, ?_, ?_⟩
      · change _ ∈ clientBanLines (fromUtf8Lossy (cleanupClientBans s.content s.clocks.nowUnix))
        rw [hlines]
        exact ClientBanFile.mem_cleanedLines.mpr hlatest
      · have hle' := UInt64.le_iff_toNat_le.mp hle
        omega
  · have hsame : cleanupClientBans s.content s.clocks.nowUnix = s.content := by
      unfold cleanupClientBans
      rw [Option.not_isSome_iff_eq_none.mp htext]
    rw [hsame]
    exact hs

/-- Time goes on for what the workers have in hand. -/
theorem sound_tick (hs : Sound config s) {clocks : Clocks} (hlater : Clocks.Later s.clocks clocks) :
    Sound config { s with clocks } := by
  refine hs.beside rfl rfl rfl rfl hlater (BanSpans.agree_tick hs.agree hlater.now) ?_
  intro worker
  have hheld := hs.held worker
  change ClientBanRestarts.Holds { s with clocks } (s.workers worker)
  cases hworker : s.workers worker with
  | idle => trivial
  | banned ip bannedUntil =>
    rw [hworker] at hheld
    exact ⟨hheld.1, fun hlive => hheld.2 (Nat.lt_of_le_of_lt hlater.now hlive)⟩
  | read ip bannedUntil expire ended =>
    rw [hworker] at hheld
    cases ended with
    | true => exact Nat.le_trans hheld hlater.now
    | false => exact Clocks.Spells.later hheld hlater

theorem sound_step {act : Action} (hs : Sound config s)
    (h : step (.fromConfig config) s act = some s') : Sound config s' := by
  have hload : ∀ {act : BanSpans.Action},
      (∀ content nowUnix, act ≠ .loadClientBans content nowUnix) →
      BanSpans.clockAfter s.clocks.now act = s.clocks.now →
      s.onTracker (.fromConfig config) act = some s' → Sound config s' :=
    fun hload htick h => sound_onTracker hs h hload htick
  cases act with
  | recordViolation worker ip reason =>
    simp only [step] at h
    split at h
    · obtain ⟨s'', hviolation, rfl⟩ := Option.map_eq_some_iff.mp h
      exact sound_recordViolation hs hviolation
    · cases h
  | readBan worker =>
    cases hworker : s.workers worker with
    | banned ip bannedUntil => exact sound_readBan hs hworker h
    | idle | read =>
      simp only [step, hworker] at h
      cases h
  | appendBan worker =>
    simp only [step] at h
    split at h
    · rename_i hworker
      cases h
      exact sound_appendBan hs hworker
    · cases h
  | appendFails worker =>
    simp only [step] at h
    split at h
    · cases h
      exact hs.setWorker worker trivial
    · cases h
  | persistIp | cleanup | flush | persistFlushed | removeFlushed | reloadFailed =>
    refine hload ?_ rfl h
    intro content nowUnix hact
    cases hact
  | cleanupClientBans =>
    simp only [step] at h
    split at h
    · cases h
      exact sound_cleanupClientBans hs
    · cases h
      exact hs
  | restart =>
    cases h
    exact hs.beside rfl rfl rfl rfl (.refl _) (agree_start _ _) (held_start _ _)
  | tick nanos =>
    obtain ⟨clocks, hclocks, rfl⟩ := Option.map_eq_some_iff.mp h
    exact sound_tick hs (Clocks.later_advance hclocks)

/-- A ban that is due has an expiry that lies as far ahead. -/
theorem Due.expiry {tracker : AutoBanTracker} {ip : IpAddr} (h : s.Due tracker ip) :
    ∃ expiry ∈ s.expiries ip, (s.clocks.unixNanos + 2000000000 : Int) < expiry := by
  obtain ⟨-, bannedUntil, hmem, hlater⟩ := h
  refine ⟨_, mem_expiries.mpr (.inl ⟨bannedUntil, hmem, rfl⟩), ?_⟩
  unfold Clocks.wall
  omega

theorem exists_latest {tracker : AutoBanTracker} {ip : IpAddr} (h : s.Due tracker ip) :
    ∃ latest ∈ s.expiries ip, (∀ expiry ∈ s.expiries ip, expiry ≤ latest) ∧
      (s.clocks.unixNanos + 2000000000 : Int) < latest := by
  obtain ⟨expiry, hmem, hlt⟩ := h.expiry
  cases hmax : (s.expiries ip).max? with
  | none =>
    rw [List.max?_eq_none_iff] at hmax
    rw [hmax] at hmem
    cases hmem
  | some latest =>
    obtain ⟨hlatest, hbound⟩ := List.max?_eq_some_iff.mp hmax
    exact ⟨latest, hlatest, hbound, Int.lt_of_lt_of_le hlt (hbound expiry hmem)⟩

/-- The latest of the bans that are due is the latest of the lines. -/
theorem Sound.latestExpiry (hs : Sound config s) {ip : IpAddr}
    (h : s.Due (.fromConfig config) ip) :
    ∃ expire latest, latestExpiry s.lines s.clocks.nowUnix ip = some expire ∧
      latest ∈ s.expiries ip ∧ (∀ expiry ∈ s.expiries ip, expiry ≤ latest) ∧
      (expire.toNat * 1000000000 : Int) ≤ latest ∧
      latest < expire.toNat * 1000000000 + 2000000000 := by
  obtain ⟨latest, hlatest, hbound, hlt⟩ := exists_latest h
  obtain ⟨expire, hline, hlate⟩ := hs.expiries h.1 hlatest hlt
  have hlive : s.clocks.nowUnix < expire := Clocks.nowUnix_lt_of_wall_lt (by omega)
  obtain ⟨last, hlast, hle⟩ := le_latestExpiry hline hlive
  obtain ⟨hmem, hlive'⟩ := mem_of_latestExpiry hlast
  obtain ⟨expiry, hexpiry, hearly⟩ := hs.lines hmem hlive'
  have hle' := UInt64.le_iff_toNat_le.mp hle
  have hexpiry' := hbound expiry hexpiry
  exact ⟨last, latest, hlast, hlatest, hbound, by omega, by omega⟩

/-- Less can be added where more can. -/
theorem isSome_checkedAdd_of_le {now : Instant} {nowUnix expire latest : UInt64}
    (hle : expire ≤ latest) (h : (now.checkedAdd (satSub latest nowUnix)).isSome = true) :
    (now.checkedAdd (satSub expire nowUnix)).isSome = true := by
  have hle' := UInt64.le_iff_toNat_le.mp hle
  obtain ⟨later, hlater⟩ := Option.isSome_iff_exists.mp h
  obtain ⟨hlt, -⟩ := Option.ite_none_right_eq_some.mp hlater
  rw [satSub_eq] at hlt
  have hfits : now.nanos / 1000000000 + (satSub expire nowUnix).toNat < 0x8000000000000000 := by
    rw [satSub_eq]
    omega
  rw [Instant.checkedAdd, if_pos hfits]
  rfl

theorem restored_iff (hs : Sound config s) {ip : IpAddr} (hdue : s.Due (.fromConfig config) ip)
    (hinner : s'.inner = (AutoBanTracker.fromConfig config).restored s.content s.clocks) :
    s.Restored s' ip ↔ (fromUtf8 s.found).isSome = true ∧
      ∀ expire, .ban ip expire ∈ s.lines → s.clocks.nowUnix < expire →
        (s.clocks.now.checkedAdd (satSub expire s.clocks.nowUnix)).isSome = true := by
  have hget := get_restored config s.content s.clocks ip
  rw [← hinner] at hget
  constructor
  · rintro ⟨record, bannedUntil, latest, hrecord, -⟩
    rw [hrecord] at hget
    split at hget
    · rename_i hread
      obtain ⟨restored, hrestored, -⟩ := Option.map_eq_some_iff.mp hget.symm
      obtain ⟨last, hlast, hadd⟩ := Option.bind_eq_some_iff.mp hrestored
      refine ⟨hs.text.symm.trans hread.2, ?_⟩
      intro expire hmem hlive
      obtain ⟨last', hlast', hle⟩ := le_latestExpiry hmem hlive
      obtain rfl : last = last' := Option.some.inj (hlast.symm.trans hlast')
      exact isSome_checkedAdd_of_le hle (Option.isSome_of_eq_some hadd)
    · cases hget
  · rintro ⟨htext, hfits⟩
    obtain ⟨expire, latest, hlast, hlatest, hbound, hearly, hlate⟩ := hs.latestExpiry hdue
    obtain ⟨hmem, hlive⟩ := mem_of_latestExpiry hlast
    obtain ⟨bannedUntil, hadd⟩ := Option.isSome_iff_exists.mp (hfits expire hmem hlive)
    have hrestored : restoredUntil (clientBanLines (fromUtf8Lossy s.content)) s.clocks.now
        s.clocks.nowUnix ip = some bannedUntil := by
      change (latestExpiry s.lines s.clocks.nowUnix ip).bind _ = _
      rw [hlast]
      exact hadd
    rw [if_pos ⟨hdue.1, hs.text.trans htext⟩, hrestored] at hget
    obtain ⟨hlow, hhigh⟩ := Clocks.wall_checkedAdd hlive hadd
    exact ⟨_, bannedUntil, latest, hget, rfl, rfl, hlatest, hbound, by omega, by omega⟩

theorem readable_iff_restores {act : Action} (hs : Sound config s)
    (h : step (.fromConfig config) s act = some s') :
    Readable (.fromConfig config) s act s' ↔ Restores (.fromConfig config) s act s' := by
  cases act with
  | restart =>
    have hinner : s'.inner = (AutoBanTracker.fromConfig config).restored s.content s.clocks := by
      cases h
      rfl
    exact forall_congr' fun ip => forall_congr' fun hdue => (restored_iff hs hdue hinner).symm
  | recordViolation | readBan | appendBan | appendFails | persistIp | cleanup | flush
  | persistFlushed | removeFlushed | reloadFailed | cleanupClientBans | tick => exact Iff.rfl

/-- A ban that lasts at least as long. -/
structure Prolongs (record record' : IpRecord) : Prop where
  permanent : record.permanent = true → record' = record
  bannedUntil : ∀ bannedUntil, record.bannedUntil = some bannedUntil →
    ∃ bannedUntil', record'.bannedUntil = some bannedUntil' ∧ bannedUntil.nanos ≤ bannedUntil'.nanos

theorem prolongs_restore (record : IpRecord) (bannedUntil : Instant) :
    Prolongs record (record.restore bannedUntil) := by
  unfold IpRecord.restore
  simp only
  split
  · rename_i hlonger
    obtain ⟨htemporary, hlater⟩ := Bool.and_eq_true_iff.mp hlonger
    refine ⟨?_, ?_⟩
    · intro hpermanent
      rw [hpermanent] at htemporary
      cases htemporary
    · intro old hold
      rw [hold] at hlater
      exact ⟨bannedUntil, rfl, Nat.le_of_lt (of_decide_eq_true hlater)⟩
  · exact ⟨fun _ => rfl, fun old hold => ⟨old, hold, Nat.le_refl _⟩⟩

theorem prolongs_loadClientBanFile {inner : AutoBanInner} {ip : IpAddr} {record : IpRecord}
    (h : inner.records.get ip = some record) (content : List UInt8) (now : Instant)
    (nowUnix : UInt64) : ∃ record',
      (inner.loadClientBanFile content now nowUnix).2.records.get ip = some record' ∧
        Prolongs record record' := by
  have hsame : Prolongs record record :=
    ⟨fun _ => rfl, fun old hold => ⟨old, hold, Nat.le_refl _⟩⟩
  unfold AutoBanInner.loadClientBanFile
  split
  · rename_i text htext
    rw [get_loadClientBans, h]
    cases restoredUntil (clientBanLines text) now nowUnix ip with
    | none => exact ⟨record, rfl, hsame⟩
    | some bannedUntil => exact ⟨_, rfl, prolongs_restore record bannedUntil⟩
  · exact ⟨record, h, hsame⟩

/-- Bans survive restarts exactly in the runs whose file is read at each restart, and no ban
in memory is shortened. -/
theorem client_bans_survive_iff (config : AutoBanConfig) (content : List UInt8) (clocks : Clocks)
    (as : List Action) :
    (AllSteps (step (.fromConfig config)) (Readable (.fromConfig config))
        (init (.fromConfig config) content clocks) as ↔
      AllSteps (step (.fromConfig config)) (Restores (.fromConfig config))
        (init (.fromConfig config) content clocks) as) ∧
    ∀ (inner : AutoBanInner) (content : List UInt8) (now : Instant) (nowUnix : UInt64)
      (ip : IpAddr) (record : IpRecord), inner.records.get ip = some record →
        ∃ record', (inner.loadClientBanFile content now nowUnix).2.records.get ip = some record' ∧
          Prolongs record record' := by
  refine ⟨?_, ?_⟩
  · exact allSteps_congr sound_step readable_iff_restores (sound_init config content clocks) as
  · intro inner content now nowUnix ip record h
    exact prolongs_loadClientBanFile h content now nowUnix

def enabledConfig : AutoBanConfig := { AutoBanConfig.default with enabled := true }

/-- A comment in another code page. -/
def foreignComment : List UInt8 := [0x23, 0x20, 0xe9, 0x0a]

def bannedClient : IpAddr := .v4 ⟨#v[192, 0, 2, 7]⟩

def clocksAtStart : Clocks where
  now := ⟨0⟩
  unixNanos := 1700000000000000000
  now_representable := show 0 / 1000000000 < 0x8000000000000000 by decide
  unix_lt := by decide

def banAndRestart : List Action :=
  [.recordViolation 0 bannedClient .clientBanned, .readBan 0, .appendBan 0] ++ [.restart]

def permanentlyBanned : AutoBanInner :=
  (AutoBanTracker.fromConfig enabledConfig).inner.setRecord bannedClient
    { IpRecord.new clocksAtStart.now with permanent := true }

/-- Without a file at first, the ban is back after the restart. -/
theorem client_bans_survive_iff_permanent :
    AllSteps (step (.fromConfig enabledConfig)) (Restores (.fromConfig enabledConfig))
        (init (.fromConfig enabledConfig) [] clocksAtStart) banAndRestart ∧
      (∃ s, run (step (.fromConfig enabledConfig))
          (init (.fromConfig enabledConfig) [] clocksAtStart) banAndRestart = some s ∧
        s.Due (.fromConfig enabledConfig) bannedClient ∧
        s.inner.isAutoBanned bannedClient s.clocks.now = true) ∧
    ∃ record', (permanentlyBanned.loadClientBanFile (appendClientBanLine [] bannedClient 1700086400)
        clocksAtStart.now clocksAtStart.nowUnix).2.records.get bannedClient = some record' ∧
      Prolongs { IpRecord.new clocksAtStart.now with permanent := true } record' := by
  obtain ⟨hiff, hprolongs⟩ :=
    client_bans_survive_iff enabledConfig [] clocksAtStart banAndRestart
  refine ⟨hiff.mp ?_, ⟨_, rfl, ⟨rfl, ⟨86455000000000⟩, List.mem_singleton_self _, by decide⟩,
    by decide⟩, hprolongs permanentlyBanned _ _ _ bannedClient _ rfl⟩
  refine .cons rfl trivial (.cons rfl trivial (.cons rfl trivial (.cons rfl ?_ trivial)))
  intro ip _
  refine ⟨by decide, ?_⟩
  intro expire hmem _
  have hline : ClientBanLine.ban ip expire ∈ [.ban bannedClient 1700086455] := hmem
  cases List.mem_singleton.mp hline
  decide

/-- The ban is in the file, and the file is no text. -/
theorem client_ban_forgotten :
    ¬ AllSteps (step (.fromConfig enabledConfig)) (Restores (.fromConfig enabledConfig))
      (init (.fromConfig enabledConfig) foreignComment clocksAtStart) banAndRestart := by
  intro h
  have hreadable := (allSteps_congr sound_step readable_iff_restores
    (sound_init enabledConfig foreignComment clocksAtStart) banAndRestart).mpr h
  have htext := (hreadable.last rfl rfl bannedClient
    ⟨rfl, ⟨86455000000000⟩, List.mem_singleton_self _, by decide⟩).1
  exact absurd htext (by decide)

end ClientBanRestarts

end Aquatic.AutoBan
