import Aquatic.AutoBan.BanGap
import Aquatic.Lib.AppendOnce

/-!
# Permanent bans are written once

The workers and the flush thread append to the same file, each under the write
lock, and look into the records before and after. The lines are counted from the
moment at which a record becomes permanent.
-/

namespace Aquatic.AutoBan
open Collections Transition AppendOnce
set_option autoImplicit false

namespace AutoBanInner

/-- Whether the permanent ban of an address is marked as persisted. -/
def flag (inner : AutoBanInner) (ip : IpAddr) : Option Bool :=
  ((inner.records.get ip).filter fun record => record.permanent).map fun record => record.persisted

/-- Only permanent bans are marked. -/
def MarksPermanent (inner : AutoBanInner) : Prop :=
  ∀ ip record, inner.records.get ip = some record → record.persisted = true →
    record.permanent = true

section Flag
variable {inner inner' : AutoBanInner} {now : Instant}

theorem flag_eq_some_iff {ip : IpAddr} {b : Bool} :
    inner.flag ip = some b ↔ ∃ record, inner.records.get ip = some record ∧
      record.permanent = true ∧ record.persisted = b := by
  simp only [flag, Option.map_eq_some_iff, Option.filter_eq_some_iff, and_assoc]

theorem flag_eq_none {ip : IpAddr} (h : ¬ inner.Holds ip) : inner.flag ip = none := by
  cases hflag : inner.flag ip with
  | none => rfl
  | some b =>
    obtain ⟨record, hget, hpermanent, -⟩ := flag_eq_some_iff.mp hflag
    exact absurd ⟨record, hget, hpermanent⟩ h

theorem Pruned.flag_eq (h : Pruned now inner inner') : inner'.flag = inner.flag := by
  funext ip
  cases hflag : inner.flag ip with
  | some b =>
    obtain ⟨record, hget, hpermanent, hpersisted⟩ := flag_eq_some_iff.mp hflag
    exact flag_eq_some_iff.mpr
      ⟨record, h.kept hget (IpRecord.isKept_of_permanent hpermanent _ _), hpermanent, hpersisted⟩
  | none =>
    apply flag_eq_none
    rintro ⟨record, hget, hpermanent⟩
    have hsome := flag_eq_some_iff.mpr ⟨record, h.old hget, hpermanent, rfl⟩
    rw [hflag] at hsome
    cases hsome

theorem flag_setRecord (inner : AutoBanInner) (ip : IpAddr) (record : IpRecord) :
    (inner.setRecord ip record).flag = Function.update inner.flag ip
      (if record.permanent = true then some record.persisted else none) := by
  funext ip'
  unfold flag
  rw [get_setRecord]
  by_cases hip : ip' = ip
  · subst hip
    rw [if_pos rfl, Function.update_self, Option.filter_some]
    split <;> rfl
  · rw [if_neg hip, Function.update_of_ne hip]

theorem flag_markBan (inner : AutoBanInner) (ip : IpAddr) :
    (inner.markBan ip).flag = fun ip' =>
      if ip' ∈ [ip] then (inner.flag ip').map fun _ => true else inner.flag ip' := by
  funext ip'
  unfold flag
  rw [markBan, IndexMap.get_modify]
  by_cases hip : ip' = ip
  · subst hip
    rw [if_pos rfl, if_pos List.mem_cons_self]
    cases inner.records.get ip' with
    | none => rfl
    | some record => cases hpermanent : record.permanent <;> simp [Option.filter_some, hpermanent]
  · rw [if_neg hip, if_neg (by simpa using hip)]

theorem flag_markPersisted (inner : AutoBanInner) (ips : List IpAddr) :
    (inner.markPersisted ips).flag = fun ip =>
      if ip ∈ ips then (inner.flag ip).map fun _ => true else inner.flag ip := by
  funext ip
  unfold flag
  rw [get_markPersisted]
  by_cases hip : ip ∈ ips
  · simp only [if_pos hip]
    cases inner.records.get ip with
    | none => rfl
    | some record => cases hpermanent : record.permanent <;> simp [Option.filter_some, hpermanent]
  · simp only [if_neg hip, Option.map_id']

theorem flag_removeIps (inner : AutoBanInner) (ips : List IpAddr) :
    (inner.removeIps ips).flag = fun ip => if ip ∈ ips then none else inner.flag ip := by
  funext ip
  unfold flag
  rw [get_removeIps]
  split <;> rfl

theorem needsPersisting_iff {ip : IpAddr} :
    inner.needsPersisting ip = true ↔ inner.flag ip = some false := by
  unfold needsPersisting flag
  cases inner.records.get ip with
  | none => simp
  | some record => cases hpermanent : record.permanent <;> simp [hpermanent]

theorem mem_stillPending_iff {pendingWrite : List IpAddr} {ip : IpAddr}
    (hflag : (inner.flag ip).isSome) :
    ip ∈ inner.stillPending pendingWrite ↔ ip ∈ pendingWrite ∧ inner.flag ip = some false := by
  obtain ⟨b, hb⟩ := Option.isSome_iff_exists.mp hflag
  obtain ⟨record, hget, -, rfl⟩ := flag_eq_some_iff.mp hb
  simp [stillPending, hget, hb]

/-- A violation issues at most one permanent ban, which is not marked. -/
theorem Violated.flag {policy : AutoBanPolicy} {ip : IpAddr} {reason : AutoBanReason}
    {result : Bool × Bool × AutoBanInner} (h : Violated policy inner ip reason now result) :
    (result.1 && result.2.1) = true ∧ inner.flag ip = none ∧
        result.2.2.flag = Function.update inner.flag ip (some false) ∨
      (result.1 && result.2.1) = false ∧ result.2.2.flag = inner.flag := by
  cases h with
  | ignored hpruned => exact .inr ⟨rfl, hpruned.flag_eq⟩
  | @counted room record hfree hpruned hrecord =>
    have hnone := flag_eq_none fun h => hfree (h.isAutoBanned now)
    have hpermanent : ¬ record.permanent = true := by
      intro hpermanent
      cases hrecord with
      | renewed hget =>
        rw [IpRecord.permanent_renew] at hpermanent
        exact hfree (Holds.isAutoBanned ⟨_, hget, hpermanent⟩ now)
      | fresh hget => cases hpermanent
    refine .inr ⟨rfl, ?_⟩
    rw [flag_setRecord, if_neg hpermanent, hpruned.flag_eq, ← hnone, Function.update_eq_self]
  | @banned room record banDurationSecs hfree hpruned hrecord =>
    have hnone := flag_eq_none fun h => hfree (h.isAutoBanned now)
    have hpersisted := IpRecord.persisted_applyBan
      (record.registerOffense now policy.offenseDecaySecs)
      (policy.banKind reason ip (record.registerOffense now policy.offenseDecaySecs).offenses
        banDurationSecs) now
    rw [flag_setRecord, hpruned.flag_eq]
    cases hpermanent : (record.ban policy ip reason now banDurationSecs).permanent with
    | true =>
      refine .inl ⟨rfl, hnone, ?_⟩
      rw [if_pos rfl]
      exact congrArg (fun b => Function.update inner.flag ip (some b)) hpersisted
    | false =>
      refine .inr ⟨rfl, ?_⟩
      rw [if_neg Bool.false_ne_true, ← hnone, Function.update_eq_self]

theorem MarksPermanent.pruned (hm : inner.MarksPermanent) (h : Pruned now inner inner') :
    inner'.MarksPermanent :=
  fun ip record hget => hm ip record (h.old hget)

theorem MarksPermanent.setRecord (hm : inner.MarksPermanent) (ip : IpAddr) {record : IpRecord}
    (h : record.persisted = true → record.permanent = true) :
    (inner.setRecord ip record).MarksPermanent := by
  intro ip' record' hget
  rw [get_setRecord] at hget
  split at hget
  · cases hget
    exact h
  · exact hm ip' record' hget

theorem MarksPermanent.violated (hm : inner.MarksPermanent) {policy : AutoBanPolicy} {ip : IpAddr}
    {reason : AutoBanReason} {result : Bool × Bool × AutoBanInner}
    (h : Violated policy inner ip reason now result) : result.2.2.MarksPermanent := by
  cases h with
  | ignored hpruned => exact hm.pruned hpruned
  | counted hfree hpruned hrecord =>
    apply (hm.pruned hpruned).setRecord
    intro hpersisted
    cases hrecord with
    | renewed hget =>
      have hold := hm _ _ hget (IpRecord.persisted_of_renew hpersisted)
      exact (IpRecord.permanent_renew _ _ _).trans hold
    | fresh hget => cases hpersisted
  | banned banDurationSecs hfree hpruned hrecord =>
    apply (hm.pruned hpruned).setRecord
    intro hpersisted
    rw [IpRecord.ban, IpRecord.persisted_applyBan] at hpersisted
    cases hpersisted

theorem MarksPermanent.markBan (hm : inner.MarksPermanent) (ip : IpAddr) :
    (inner.markBan ip).MarksPermanent := by
  intro ip' record hget hpersisted
  rw [AutoBanInner.markBan, IndexMap.get_modify] at hget
  split at hget
  · obtain ⟨old, hold, rfl⟩ := Option.map_eq_some_iff.mp hget
    split at hpersisted
    · rename_i hpermanent
      rw [if_pos hpermanent]
      exact hpermanent
    · rename_i hpermanent
      rw [if_neg hpermanent]
      exact hm ip old hold hpersisted
  · exact hm ip' record hget hpersisted

theorem MarksPermanent.markPersisted (hm : inner.MarksPermanent) {ips : List IpAddr}
    (h : ∀ ip ∈ ips, (inner.flag ip).isSome) : (inner.markPersisted ips).MarksPermanent := by
  intro ip record hget hpersisted
  rw [get_markPersisted] at hget
  obtain ⟨old, hold, rfl⟩ := Option.map_eq_some_iff.mp hget
  split at hpersisted
  · rename_i hip
    obtain ⟨b, hb⟩ := Option.isSome_iff_exists.mp (h ip hip)
    obtain ⟨old', hold', hpermanent, -⟩ := flag_eq_some_iff.mp hb
    cases hold.symm.trans hold'
    rw [if_pos hip]
    exact hpermanent
  · rename_i hip
    rw [if_neg hip]
    exact hm ip old hold hpersisted

theorem MarksPermanent.removeIps (hm : inner.MarksPermanent) (ips : List IpAddr) :
    (inner.removeIps ips).MarksPermanent := by
  intro ip record hget
  rw [get_removeIps] at hget
  split at hget
  · cases hget
  · exact hm ip record hget

theorem pendingWrite_spec (inner : AutoBanInner) (escalationEnabled : Bool) (now : Instant) :
    (inner.permanentBans escalationEnabled now).2.Nodup ∧
      ∀ ip ∈ (inner.permanentBans escalationEnabled now).2, inner.flag ip = some false := by
  unfold permanentBans
  split
  · exact ⟨List.nodup_nil, nofun⟩
  refine ⟨?_, ?_⟩
  · have hsub := (List.filter_sublist (p := fun e : IpAddr × IpRecord => !e.2.persisted)).trans
      (List.filter_sublist (p := fun e : IpAddr × IpRecord => e.2.permanent && e.2.isBanned now)
        (l := inner.records.entries))
    exact inner.records.nodup.sublist (hsub.map Prod.fst)
  · intro ip hip
    obtain ⟨⟨_, record⟩, hrecord, rfl⟩ := List.mem_map.mp hip
    obtain ⟨hmem, hpersisted⟩ := List.mem_filter.mp hrecord
    obtain ⟨hmem, hbanned⟩ := List.mem_filter.mp hmem
    refine flag_eq_some_iff.mpr ⟨record, (inner.records.get_eq_some_iff _ _).mpr hmem, ?_, ?_⟩
    · exact (Bool.and_eq_true_iff.mp hbanned).1
    · simpa using hpersisted

end Flag

end AutoBanInner

def Worker.writer : Worker → Writer IpAddr
  | .appending ip => .writing [ip]
  | .appended ip => .written [ip]
  | _ => .out

def FlushThread.writer : FlushThread → Writer IpAddr
  | .appending _ pendingWrite => .writing pendingWrite
  | .appended _ pendingWrite => .written pendingWrite
  | _ => .out

/-- What `flush_to_file` has returned and `remove_ips` has not yet taken out. -/
def FlushThread.reported : FlushThread → Option (List IpAddr)
  | .flushed banned | .loaded banned _ | .reloaded banned => some banned
  | _ => none

/-- Which thread writes what; `none` is the flush thread. -/
def BanStores.writer (s : BanStores) : Option Nat → Writer IpAddr
  | none => s.flushThread.writer
  | some worker => (s.workers worker).writer

/-- The lines of an address in the ban list file. -/
def BanStores.lines (server : Server) (s : BanStores) (ip : IpAddr) : Nat :=
  (s.files server.banListFile).count (.address ip)

/-- The stores, and for every address the lines that there were when its record
became permanent, and those that have been added by hand since. -/
structure BanWrites where
  stores : BanStores
  baseline : IpAddr → Nat

namespace BanWrites

def init (server : Server) (clock : Instant) (files : Nat → List IpBanEntry) : BanWrites :=
  ⟨.init server clock files, (BanStores.init server clock files).lines server⟩

def noteLines (server : Server) (w : BanWrites) : BanStores.Action → IpAddr → Nat
  | .recordViolation _ ip reason =>
    let (banned, permanent, _) :=
      w.stores.tracker.recordViolation server.tracker.policy ip reason w.stores.clock
    if banned && permanent then Function.update w.baseline ip (w.stores.lines server ip)
    else w.baseline
  | .edit entries =>
    if server.ipBanFile = server.banListFile then
      fun ip => w.baseline ip + entries.count (.address ip)
    else w.baseline
  | _ => w.baseline

def step (server : Server) (w : BanWrites) (act : BanStores.Action) : Option BanWrites :=
  (w.stores.step server act).map fun stores => ⟨stores, w.noteLines server act⟩

def log (server : Server) (w : BanWrites) : Log (Option Nat) IpAddr where
  flag := w.stores.tracker.flag
  lines := w.stores.lines server
  baseline := w.baseline
  lock := w.stores.writeLock
  writer := w.stores.writer

/-- What the flush thread knows of the addresses that it has found. -/
def FlushOk (inner : AutoBanInner) : FlushThread → Prop
  | .sleeping | .cleaning => True
  | .waiting banned pendingWrite => pendingWrite.Nodup ∧
      (∀ ip ∈ pendingWrite, (inner.flag ip).isSome) ∧
      ∀ ip ∈ banned, inner.flag ip = some true ∨ ip ∈ pendingWrite
  | .appending banned pendingWrite | .appended banned pendingWrite =>
    ∀ ip ∈ banned, inner.flag ip = some true ∨ ip ∈ pendingWrite
  | .flushed banned | .loaded banned _ | .reloaded banned =>
    ∀ ip ∈ banned, inner.flag ip = some true

structure Sound (server : Server) (w : BanWrites) : Prop where
  once : Once (w.log server)
  marks : w.stores.tracker.MarksPermanent
  flushThread : FlushOk w.stores.tracker w.stores.flushThread

theorem sound_init (server : Server) (clock : Instant) (files : Nat → List IpBanEntry) :
    Sound server (init server clock files) := by
  refine ⟨?_, nofun, trivial⟩
  have hlog : (init server clock files).log server =
      ⟨fun _ => none, (BanStores.init server clock files).lines server,
        (BanStores.init server clock files).lines server, false, fun _ => .out⟩ := by
    refine Log.ext rfl rfl rfl rfl ?_
    funext t
    cases t <;> rfl
  rw [hlog]
  exact once_empty _

section Step
variable {server : Server} {s : BanStores} {w w' : BanWrites}

theorem writer_setWorker (s : BanStores) (worker : Nat) (state : Worker) :
    (s.setWorker worker state).writer = Function.update s.writer (some worker) state.writer := by
  funext t
  cases t with
  | none => rw [Function.update_of_ne (by simp)]; rfl
  | some n =>
    by_cases hn : n = worker
    · subst hn
      rw [Function.update_self]
      exact congrArg Worker.writer (if_pos rfl)
    · rw [Function.update_of_ne (by simpa using hn)]
      exact congrArg Worker.writer (if_neg hn)

theorem writer_setFlush (s : BanStores) (flushThread : FlushThread) :
    { s with flushThread }.writer = Function.update s.writer none flushThread.writer := by
  funext t
  cases t with
  | none => rw [Function.update_self]; rfl
  | some n => rw [Function.update_of_ne (by simp)]; rfl

theorem lines_append (s : BanStores) (ips : List IpAddr) :
    (s.append server.banListFile (ips.map .address)).lines server =
      fun ip => s.lines server ip + ips.count ip := by
  funext ip
  have hcount : (ips.map IpBanEntry.address).count (.address ip) = ips.count ip :=
    List.count_map_of_injective ips _ (fun _ _ h => IpBanEntry.address.inj h) ip
  simp only [BanStores.lines, BanStores.append, if_true, List.count_append, hcount]

/-- Marked bans stay marked, and permanent ones permanent. -/
def Lasts (inner inner' : AutoBanInner) : Prop :=
  ∀ ip, ((inner.flag ip).isSome → (inner'.flag ip).isSome) ∧
    (inner.flag ip = some true → inner'.flag ip = some true)

theorem Lasts.of_eq {inner inner' : AutoBanInner} (h : inner'.flag = inner.flag) :
    Lasts inner inner' := by
  intro ip
  rw [h]
  exact ⟨id, id⟩

theorem lasts_mark {inner inner' : AutoBanInner} {ips : List IpAddr}
    (h : inner'.flag = fun ip =>
      if ip ∈ ips then (inner.flag ip).map fun _ => true else inner.flag ip) :
    Lasts inner inner' := by
  intro ip
  rw [h]
  simp only
  split
  · refine ⟨fun hsome => by simpa using hsome, fun htrue => by simp [htrue]⟩
  · exact ⟨id, id⟩

theorem Lasts.flushOk {inner inner' : AutoBanInner} (h : Lasts inner inner')
    {flushThread : FlushThread} (hf : FlushOk inner flushThread) : FlushOk inner' flushThread := by
  cases flushThread with
  | sleeping | cleaning => trivial
  | waiting banned pendingWrite =>
    exact ⟨hf.1, fun ip hip => (h ip).1 (hf.2.1 ip hip),
      fun ip hip => (hf.2.2 ip hip).imp_left (h ip).2⟩
  | appending | appended => exact fun ip hip => (hf ip hip).imp_left (h ip).2
  | flushed | loaded | reloaded => exact fun ip hip => (h ip).2 (hf ip hip)

theorem writer_setWorker_out {worker : Nat} {state : Worker}
    (hout : (s.workers worker).writer = .out) (hout' : state.writer = .out) :
    (s.setWorker worker state).writer = s.writer := by
  rw [writer_setWorker, hout', ← hout]
  exact Function.update_eq_self _ _

theorem writer_returns (s : BanStores) (worker : Nat) (ip : IpAddr) :
    (s.returns worker ip).writer = Function.update s.writer (some worker) .out :=
  writer_setWorker s worker .idle

theorem writer_returns_out {worker : Nat} (hout : (s.workers worker).writer = .out) (ip : IpAddr) :
    (s.returns worker ip).writer = s.writer :=
  writer_setWorker_out hout rfl

/-- A step that does not write. -/
theorem Sound.quiet (hs : Sound server w) (hflag : w'.stores.tracker.flag = w.stores.tracker.flag)
    (hmarks : w'.stores.tracker.MarksPermanent) (hfiles : w'.stores.files = w.stores.files)
    (hbaseline : w'.baseline = w.baseline) (hlock : w'.stores.writeLock = w.stores.writeLock)
    (hwriter : w'.stores.writer = w.stores.writer)
    (hflush : FlushOk w'.stores.tracker w'.stores.flushThread) : Sound server w' := by
  refine ⟨?_, hmarks, hflush⟩
  have hlog : w'.log server = w.log server := by
    refine Log.ext hflag ?_ hbaseline hlock hwriter
    funext ip
    exact congrArg (fun files => (files server.banListFile).count (.address ip)) hfiles
  rw [hlog]
  exact hs.once

theorem sound_recordViolation (hs : Sound server w) {worker : Nat}
    (hidle : w.stores.workers worker = .idle) (ip : IpAddr) (reason : AutoBanReason) :
    Sound server ⟨w.stores.recordViolation server worker ip reason,
      w.noteLines server (.recordViolation worker ip reason)⟩ := by
  have hout : (w.stores.workers worker).writer = .out := by rw [hidle]; rfl
  have hspec := w.stores.tracker.recordViolation_spec server.tracker.policy ip reason w.stores.clock
  have hmarks := hs.marks.violated hspec
  simp only [BanStores.recordViolation, noteLines]
  generalize w.stores.tracker.recordViolation server.tracker.policy ip reason w.stores.clock =
    result at hspec hmarks ⊢
  rcases hspec.flag with ⟨hissued, hnone, hflag⟩ | ⟨hissued, hflag⟩
  · rw [if_pos hissued, if_pos hissued]
    have hlasts : Lasts w.stores.tracker result.2.2 := by
      intro ip'
      rw [hflag]
      by_cases hip : ip' = ip
      · subst hip
        simp [hnone]
      · rw [Function.update_of_ne hip]
        exact ⟨id, id⟩
    have hlog := once_step hs.once (.issue ip hnone)
    split
    · refine ⟨?_, hmarks, hlasts.flushOk hs.flushThread⟩
      convert hlog using 1
      exact Log.ext hflag rfl rfl rfl (writer_setWorker_out hout rfl)
    · refine ⟨?_, hmarks, hlasts.flushOk hs.flushThread⟩
      convert hlog using 1
      exact Log.ext hflag rfl rfl rfl (writer_returns_out hout ip)
  · rw [hissued]
    exact hs.quiet hflag hmarks rfl rfl rfl rfl ((Lasts.of_eq hflag).flushOk hs.flushThread)

theorem sound_check (hs : Sound server w) {worker : Nat}
    (hidle : w.stores.workers worker = .idle) (ip : IpAddr) :
    Sound server ⟨w.stores.check server worker ip, w.baseline⟩ := by
  have hout : (w.stores.workers worker).writer = .out := by rw [hidle]; rfl
  unfold BanStores.check
  split
  · exact hs
  · exact hs.quiet rfl hs.marks rfl rfl rfl (writer_setWorker_out hout rfl) hs.flushThread

theorem sound_continueWorker (hs : Sound server w) {worker : Nat} {ok : Bool} {stores : BanStores}
    (h : w.stores.continueWorker server worker ok = some stores) :
    Sound server ⟨stores, w.baseline⟩ := by
  unfold BanStores.continueWorker at h
  cases hworker : w.stores.workers worker with
  | idle =>
    rw [hworker] at h
    cases h
  | persisting ip =>
    have hout : (w.stores.workers worker).writer = .out := by rw [hworker]; rfl
    rw [hworker] at h
    simp only at h
    split at h
    · cases h
    rename_i hfree
    split at h
    · rename_i hneeds
      cases h
      have hunmarked : ∀ ip' ∈ [ip], w.stores.tracker.flag ip' = some false := by
        intro ip' hip'
        rw [List.mem_singleton.mp hip']
        exact AutoBanInner.needsPersisting_iff.mp hneeds
      have hlog := once_step hs.once (.acquire (some worker) [ip] (Bool.not_eq_true _ ▸ hfree)
        (List.nodup_singleton ip) hunmarked)
      refine ⟨?_, hs.marks, hs.flushThread⟩
      convert hlog using 1
      exact Log.ext rfl rfl rfl rfl (writer_setWorker _ worker _)
    · cases h
      exact hs.quiet rfl hs.marks rfl rfl rfl (writer_returns_out hout ip) hs.flushThread
  | appending ip =>
    have hwriter : (w.log server).writer (some worker) = .writing [ip] :=
      congrArg Worker.writer hworker
    rw [hworker] at h
    simp only at h
    split at h
    · cases h
      have hlog := once_step hs.once (.append (some worker) [ip] hwriter)
      refine ⟨?_, hs.marks, hs.flushThread⟩
      convert hlog using 1
      exact Log.ext rfl (lines_append w.stores [ip]) rfl rfl (writer_setWorker _ worker _)
    · cases h
      have hlog := once_step hs.once (.fail (some worker) [ip] hwriter)
      refine ⟨?_, hs.marks, hs.flushThread⟩
      convert hlog using 1
      exact Log.ext rfl rfl rfl rfl (writer_returns _ worker ip)
  | appended ip =>
    have hwriter : (w.log server).writer (some worker) = .written [ip] :=
      congrArg Worker.writer hworker
    rw [hworker] at h
    cases h
    have hlog := once_step hs.once (.mark (some worker) [ip] hwriter)
    have hflag := w.stores.tracker.flag_markBan ip
    refine ⟨?_, hs.marks.markBan ip, ?_⟩
    · convert hlog using 1
      exact Log.ext hflag rfl rfl rfl (writer_returns _ worker ip)
    · refine Lasts.flushOk ?_ hs.flushThread
      exact lasts_mark hflag
  | checking ip due =>
    have hout : (w.stores.workers worker).writer = .out := by rw [hworker]; rfl
    rw [hworker] at h
    cases h
    unfold BanStores.checkAgain
    split
    · exact hs.quiet rfl hs.marks rfl rfl rfl (writer_setWorker_out hout rfl) hs.flushThread
    · exact hs.quiet rfl hs.marks rfl rfl rfl (writer_setWorker_out hout rfl) hs.flushThread

/-- What the flush thread finds. -/
theorem flushOk_flush (server : Server) (s : BanStores) :
    FlushOk s.tracker (s.flush server) ∧ (s.flush server).writer = .out := by
  have hmem : ∀ ip ∈ (s.tracker.permanentBans server.autoBan.escalationEnabled s.clock).1,
      s.tracker.flag ip = some true ∨
        ip ∈ (s.tracker.permanentBans server.autoBan.escalationEnabled s.clock).2 := by
    intro ip hip
    obtain ⟨-, record, hget, hpermanent, hpersisted⟩ := AutoBanInner.mem_permanentBans hip
    exact hpersisted.imp_left fun hpersisted =>
      AutoBanInner.flag_eq_some_iff.mpr ⟨record, hget, hpermanent, hpersisted⟩
  obtain ⟨hnodup, hpending⟩ :=
    s.tracker.pendingWrite_spec server.autoBan.escalationEnabled s.clock
  unfold BanStores.flush
  simp only
  split
  · exact ⟨trivial, rfl⟩
  split
  · rename_i hempty
    refine ⟨?_, rfl⟩
    intro ip hip
    apply (hmem ip hip).resolve_right
    rw [List.isEmpty_iff.mp hempty]
    exact List.not_mem_nil
  · refine ⟨⟨hnodup, ?_, hmem⟩, rfl⟩
    intro ip hip
    rw [hpending ip hip]
    rfl

theorem writer_setFlush_out {flushThread : FlushThread} (hout : s.flushThread.writer = .out)
    (hout' : flushThread.writer = .out) : { s with flushThread }.writer = s.writer := by
  rw [writer_setFlush, hout', ← hout]
  exact Function.update_eq_self _ _

theorem sound_waiting (hs : Sound server w) {ok : Bool} {stores : BanStores}
    {banned pendingWrite : List IpAddr} (hflush : w.stores.flushThread = .waiting banned pendingWrite)
    (h : w.stores.continueFlush server ok = some stores) : Sound server ⟨stores, w.baseline⟩ := by
  have hf := hs.flushThread
  have hout : w.stores.flushThread.writer = .out := by rw [hflush]; rfl
  rw [hflush] at hf
  obtain ⟨hnodup, hsome, hbanned⟩ := hf
  -- What is no longer pending has been marked by a worker.
  have hstill : ∀ ip ∈ banned, w.stores.tracker.flag ip = some true ∨
      ip ∈ w.stores.tracker.stillPending pendingWrite := by
    intro ip hip
    rcases hbanned ip hip with hmarked | hmem
    · exact .inl hmarked
    · obtain ⟨b, hb⟩ := Option.isSome_iff_exists.mp (hsome ip hmem)
      cases b with
      | true => exact .inl hb
      | false => exact .inr ((AutoBanInner.mem_stillPending_iff (hsome ip hmem)).mpr ⟨hmem, hb⟩)
  simp only [BanStores.continueFlush, hflush] at h
  split at h
  · cases h
  rename_i hfree
  split at h
  · rename_i hempty
    cases h
    refine hs.quiet rfl hs.marks rfl rfl rfl (writer_setFlush_out hout rfl) ?_
    intro ip hip
    apply (hstill ip hip).resolve_right
    rw [List.isEmpty_iff.mp hempty]
    exact List.not_mem_nil
  · cases h
    have hunmarked : ∀ ip ∈ w.stores.tracker.stillPending pendingWrite,
        w.stores.tracker.flag ip = some false := by
      intro ip hip
      have hmem := (List.mem_filter.mp hip).1
      exact ((AutoBanInner.mem_stillPending_iff (hsome ip hmem)).mp hip).2
    have hlog := once_step hs.once (.acquire none _ (Bool.not_eq_true _ ▸ hfree)
      (hnodup.filter _) hunmarked)
    refine ⟨?_, hs.marks, hstill⟩
    convert hlog using 1
    exact Log.ext rfl rfl rfl rfl (writer_setFlush _ _)

theorem sound_appending (hs : Sound server w) {ok : Bool} {banned pendingWrite : List IpAddr}
    (hflush : w.stores.flushThread = .appending banned pendingWrite) {stores : BanStores}
    (h : w.stores.continueFlush server ok = some stores) : Sound server ⟨stores, w.baseline⟩ := by
  have hwriter : (w.log server).writer none = .writing pendingWrite :=
    congrArg FlushThread.writer hflush
  have hf := hs.flushThread
  rw [hflush] at hf
  simp only [BanStores.continueFlush, hflush] at h
  split at h
  · cases h
    have hlog := once_step hs.once (.append none pendingWrite hwriter)
    refine ⟨?_, hs.marks, hf⟩
    convert hlog using 1
    exact Log.ext rfl (lines_append w.stores pendingWrite) rfl rfl (writer_setFlush _ _)
  · cases h
    have hlog := once_step hs.once (.fail none pendingWrite hwriter)
    refine ⟨?_, hs.marks, trivial⟩
    convert hlog using 1
    exact Log.ext rfl rfl rfl rfl (writer_setFlush _ _)

theorem sound_appended (hs : Sound server w) {ok : Bool} {banned pendingWrite : List IpAddr}
    (hflush : w.stores.flushThread = .appended banned pendingWrite) {stores : BanStores}
    (h : w.stores.continueFlush server ok = some stores) : Sound server ⟨stores, w.baseline⟩ := by
  have hwriter : (w.log server).writer none = .written pendingWrite :=
    congrArg FlushThread.writer hflush
  have hf := hs.flushThread
  rw [hflush] at hf
  simp only [BanStores.continueFlush, hflush, Option.some.injEq] at h
  subst h
  have hflag := w.stores.tracker.flag_markPersisted pendingWrite
  have hpending : ∀ ip ∈ pendingWrite, w.stores.tracker.flag ip = some false := by
    intro ip hip
    apply hs.once.unmarked (t := none)
    rw [hwriter]
    exact hip
  have hlog := once_step hs.once (.mark none pendingWrite hwriter)
  refine ⟨?_, hs.marks.markPersisted fun ip hip => by rw [hpending ip hip]; rfl, ?_⟩
  · convert hlog using 1
    exact Log.ext hflag rfl rfl rfl (writer_setFlush _ _)
  · intro ip hip
    rcases hf ip hip with hmarked | hmem
    · exact (lasts_mark hflag ip).2 hmarked
    · simp [hflag, hmem, hpending ip hmem]

theorem sound_continueFlush (hs : Sound server w) {ok : Bool} {stores : BanStores}
    (h : w.stores.continueFlush server ok = some stores) : Sound server ⟨stores, w.baseline⟩ := by
  cases hflush : w.stores.flushThread with
  | sleeping =>
    have hout : w.stores.flushThread.writer = .out := by rw [hflush]; rfl
    simp only [BanStores.continueFlush, hflush, Option.some.injEq] at h
    subst h
    split
    · obtain ⟨hfound, hwriter⟩ := flushOk_flush server w.stores
      exact hs.quiet rfl hs.marks rfl rfl rfl (writer_setFlush_out hout hwriter) hfound
    · exact hs.quiet rfl hs.marks rfl rfl rfl (writer_setFlush_out hout rfl) trivial
  | waiting banned pendingWrite => exact sound_waiting hs hflush h
  | appending banned pendingWrite => exact sound_appending hs hflush h
  | appended banned pendingWrite => exact sound_appended hs hflush h
  | flushed banned =>
    have hout : w.stores.flushThread.writer = .out := by rw [hflush]; rfl
    have hf := hs.flushThread
    rw [hflush] at hf
    simp only [BanStores.continueFlush, hflush, Option.some.injEq] at h
    subst h
    split
    · exact hs.quiet rfl hs.marks rfl rfl rfl (writer_setFlush_out hout rfl) hf
    · exact hs.quiet rfl hs.marks rfl rfl rfl (writer_setFlush_out hout rfl) trivial
  | loaded banned list =>
    have hout : w.stores.flushThread.writer = .out := by rw [hflush]; rfl
    have hf := hs.flushThread
    rw [hflush] at hf
    simp only [BanStores.continueFlush, hflush, Option.some.injEq] at h
    subst h
    exact hs.quiet rfl hs.marks rfl rfl rfl (writer_setFlush_out hout rfl) hf
  | reloaded banned =>
    have hout : w.stores.flushThread.writer = .out := by rw [hflush]; rfl
    have hf := hs.flushThread
    rw [hflush] at hf
    simp only [BanStores.continueFlush, hflush, Option.some.injEq] at h
    subst h
    have hlog := once_step hs.once (.drop banned hf)
    refine ⟨?_, hs.marks.removeIps banned, trivial⟩
    convert hlog using 1
    exact Log.ext (w.stores.tracker.flag_removeIps banned) rfl rfl rfl (writer_setFlush_out hout rfl)
  | cleaning =>
    have hout : w.stores.flushThread.writer = .out := by rw [hflush]; rfl
    have hpruned := w.stores.tracker.pruned_cleanup w.stores.clock
    simp only [BanStores.continueFlush, hflush, Option.some.injEq] at h
    subst h
    exact hs.quiet hpruned.flag_eq (hs.marks.pruned hpruned) rfl rfl rfl
      (writer_setFlush_out hout rfl) trivial

theorem sound_edit (hs : Sound server w) (entries : List IpBanEntry) :
    Sound server ⟨w.stores.append server.ipBanFile entries,
      w.noteLines server (.edit entries)⟩ := by
  by_cases hfile : server.ipBanFile = server.banListFile
  · have hlog := once_step hs.once (.add fun ip => entries.count (.address ip))
    refine ⟨?_, hs.marks, hs.flushThread⟩
    convert hlog using 1
    refine Log.ext rfl ?_ (if_pos hfile) rfl rfl
    funext ip
    simp only [log, BanStores.lines, BanStores.append, hfile, if_true, List.count_append]
  · refine ⟨?_, hs.marks, hs.flushThread⟩
    convert hs.once using 1
    refine Log.ext rfl ?_ (if_neg hfile) rfl rfl
    funext ip
    simp only [log, BanStores.lines, BanStores.append, if_neg (Ne.symm hfile)]

theorem sound_step {act : BanStores.Action} (hs : Sound server w)
    (h : step server w act = some w') : Sound server w' := by
  obtain ⟨stores, hstores, rfl⟩ := Option.map_eq_some_iff.mp h
  cases act with
  | recordViolation worker ip reason =>
    simp only [BanStores.step] at hstores
    split at hstores
    · rename_i hidle
      cases hstores
      exact sound_recordViolation hs hidle ip reason
    · cases hstores
  | check worker ip =>
    simp only [BanStores.step] at hstores
    split at hstores
    · rename_i hidle
      cases hstores
      exact sound_check hs hidle ip
    · cases hstores
  | continueWorker worker ok => exact sound_continueWorker hs hstores
  | continueFlush ok => exact sound_continueFlush hs hstores
  | signal ok =>
    simp only [BanStores.step] at hstores
    split at hstores
    · cases hstores
      split
      · exact hs.quiet rfl hs.marks rfl rfl rfl rfl hs.flushThread
      · exact hs
    · cases hstores
  | storeSignalled =>
    obtain ⟨list, -, rfl⟩ := Option.map_eq_some_iff.mp hstores
    exact hs.quiet rfl hs.marks rfl rfl rfl rfl hs.flushThread
  | edit entries =>
    cases hstores
    exact sound_edit hs entries
  | tick clock =>
    simp only [BanStores.step] at hstores
    split at hstores
    · cases hstores
      exact hs.quiet rfl hs.marks rfl rfl rfl rfl hs.flushThread
    · cases hstores

theorem Sound.written (hs : Sound server w) {ip : IpAddr}
    (hflag : w.stores.tracker.flag ip = some true) : w.stores.Written server ip := by
  have hlines : w.stores.lines server ip = w.baseline ip + 1 := hs.once.marked hflag
  apply List.count_pos_iff.mp
  unfold BanStores.lines at hlines
  omega

theorem Sound.reported (hs : Sound server w) {banned : List IpAddr}
    (hreported : w.stores.flushThread.reported = some banned) {ip : IpAddr} (hip : ip ∈ banned) :
    w.stores.Written server ip := by
  apply hs.written
  have hf := hs.flushThread
  cases hflush : w.stores.flushThread <;> rw [hflush] at hf hreported <;> cases hreported <;>
    exact hf ip hip

end Step

/-- What holds after a step: while a record is permanent its address has got at
most one line, and one when it is marked; what is reported is in the file, and
what is taken out of the tracker would be banned by a reload. -/
structure WrittenOnce (server : Server) (w : BanWrites) (act : BanStores.Action)
    (w' : BanWrites) : Prop where
  once : ∀ {ip}, w'.stores.tracker.Holds ip → w'.baseline ip ≤ w'.stores.lines server ip ∧
    w'.stores.lines server ip ≤ w'.baseline ip + 1
  persisted : ∀ {ip record}, w'.stores.tracker.records.get ip = some record →
    record.persisted = true → w'.stores.Written server ip ∧
      w'.stores.lines server ip = w'.baseline ip + 1
  reported : ∀ {banned ip}, w'.stores.flushThread.reported = some banned → ip ∈ banned →
    w'.stores.Written server ip
  removed : ∀ {ok banned ip}, act = .continueFlush ok →
    w.stores.flushThread = .reloaded banned → ip ∈ banned →
    (IpBanList.fromEntries (w.stores.files server.banListFile)).isBanned ip = true

theorem writtenOnce_step {server : Server} {w w' : BanWrites} {act : BanStores.Action}
    (hs : Sound server w) (h : step server w act = some w') : WrittenOnce server w act w' := by
  have hs' := sound_step hs h
  refine ⟨?_, ?_, fun hreported => hs'.reported hreported, ?_⟩
  · rintro ip ⟨record, hget, hpermanent⟩
    exact hs'.once.at_most_once
      (AutoBanInner.flag_eq_some_iff.mpr ⟨record, hget, hpermanent, rfl⟩)
  · intro ip record hget hpersisted
    have hflag := AutoBanInner.flag_eq_some_iff.mpr
      ⟨record, hget, hs'.marks ip record hget hpersisted, hpersisted⟩
    exact ⟨hs'.written hflag, hs'.once.marked hflag⟩
  · rintro ok banned ip - hreloaded hip
    apply IpBanList.isBanned_of_mem
    exact hs.reported (by rw [hreloaded]; rfl) hip

/-- In every run, permanent bans are written once, and only what is in the file is
reported and removed. -/
theorem permanent_bans_written_once (server : Server) (clock : Instant)
    (files : Nat → List IpBanEntry) (as : List BanStores.Action) :
    AllSteps (step server) (WrittenOnce server) (init server clock files) as :=
  allSteps_of_kept sound_step writtenOnce_step (sound_init server clock files) as

end BanWrites

end Aquatic.AutoBan
