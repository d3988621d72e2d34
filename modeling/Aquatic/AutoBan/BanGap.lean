import Aquatic.AutoBan.BanStores
import Aquatic.AutoBan.TrackerSpec
import Aquatic.Lib.Transition

/-!
# No gap between the two ban stores

Every list that was read from the file bans what had been taken out of the
tracker by then, since it was written before. What the signal thread read earlier
is a threat only to the bans that are taken out while it is held.
-/

namespace Aquatic.AutoBan
open Transition
set_option autoImplicit false

namespace BanStores

/-- Every permanently banned address is banned by one of the stores. -/
def NoGap (s : BanStores) : Prop :=
  ∀ ip ∈ s.issued, s.tracker.isAutoBanned ip s.clock = true ∨ s.ipBanList.isBanned ip = true

/-- The bans that the flush thread takes out of the tracker are in the stored
list, and in the list that the signal thread is about to store. -/
def TakenOver (s : BanStores) (act : Action) (_ : BanStores) : Prop :=
  match act, s.flushThread with
  | .continueFlush _, .reloaded banned => ∀ ip ∈ banned, s.ipBanList.isBanned ip = true ∧
      ∀ list, s.signalThread = some list → list.isBanned ip = true
  | _, _ => True

def Written (server : Server) (s : BanStores) (ip : IpAddr) : Prop :=
  .address ip ∈ s.files server.banListFile

/-- What the tracker does not hold is banned by the list, and the list is used. -/
def Covered (server : Server) (s : BanStores) (list : IpBanList) : Prop :=
  ∀ ip ∈ s.issued, s.tracker.Holds ip ∨ (server.ipBan.mode = .on ∧ list.isBanned ip = true)

/-- What is written is loaded. -/
structure Reloads (server : Server) : Prop where
  mode : server.ipBan.mode = .on
  file : server.banListFile = server.ipBanFile

/-- What the flush thread relies on. -/
def FlushOk (server : Server) (s : BanStores) : FlushThread → Prop
  | .sleeping | .cleaning => True
  | .waiting banned pendingWrite | .appending banned pendingWrite =>
    Reloads server ∧ ∀ ip ∈ banned, s.tracker.Holds ip ∧ (s.Written server ip ∨ ip ∈ pendingWrite)
  | .appended banned pendingWrite =>
    (Reloads server ∧ ∀ ip ∈ banned, s.tracker.Holds ip ∧ s.Written server ip) ∧
      ∀ ip ∈ pendingWrite, s.Written server ip
  | .flushed banned | .reloaded banned =>
    Reloads server ∧ ∀ ip ∈ banned, s.tracker.Holds ip ∧ s.Written server ip
  | .loaded banned list =>
    (Reloads server ∧ ∀ ip ∈ banned, s.tracker.Holds ip ∧ s.Written server ip) ∧
      (∀ ip ∈ banned, list.isBanned ip = true) ∧ s.Covered server list

/-- What the workers rely on. -/
def WorkerOk (server : Server) (s : BanStores) : Worker → Prop
  | .idle | .checking _ _ => True
  | .persisting ip | .appending ip => ip ∈ s.issued
  | .appended ip => ip ∈ s.issued ∧ s.Written server ip

structure Safe (server : Server) (s : BanStores) : Prop where
  banDurationSecs : s.tracker.banDurationSecs = server.autoBan.banDurationSecs
  issued : ∀ {ip}, s.tracker.Holds ip → ip ∈ s.issued
  persisted : ∀ {ip record}, s.tracker.records.get ip = some record → record.persisted = true →
    s.Written server ip
  file : s.Covered server (s.load server)
  stored : s.Covered server s.ipBanList
  signalled : ∀ {list}, s.signalThread = some list → s.Covered server list
  flushThread : s.FlushOk server s.flushThread
  workers : ∀ worker, s.WorkerOk server (s.workers worker)
  returned : ∀ {ip}, ip ∈ s.returned → ip ∈ s.issued

/-- Files, bans and the tracker's permanent records only grow. -/
structure Grows (server : Server) (s s' : BanStores) : Prop where
  files : ∀ file, ∃ more, s'.files file = s.files file ++ more
  issued : ∀ {ip}, ip ∈ s'.issued → ip ∈ s.issued ∨ s'.tracker.Holds ip
  issued_mono : ∀ {ip}, ip ∈ s.issued → ip ∈ s'.issued
  tracker : AutoBanInner.Keeps (· ∈ s'.issued) (s'.Written server) s.tracker s'.tracker
  workers : ∀ worker, s'.workers worker = s.workers worker ∨
    s'.WorkerOk server (s'.workers worker)
  returned : ∀ {ip}, ip ∈ s'.returned → ip ∈ s.returned ∨ ip ∈ s'.issued

/-- A step that changes no list, and begins no security check. -/
structure Quiet (server : Server) (s s' : BanStores) : Prop extends Grows server s s' where
  ipBanList : s'.ipBanList = s.ipBanList
  signalThread : s'.signalThread = s.signalThread
  flushThread : s'.flushThread = s.flushThread
  checking : ∀ {worker ip due}, s'.workers worker = .checking ip due →
    s.workers worker = .checking ip due
  admitted : s'.admitted = s.admitted

section
variable {server : Server} {s s' s'' : BanStores}

theorem Covered.noGap (h : s.Covered server s.ipBanList) : s.NoGap := by
  intro ip hip
  rcases h ip hip with hholds | ⟨-, hbanned⟩
  · exact .inl (hholds.isAutoBanned s.clock)
  · exact .inr hbanned

theorem load_isBanned (hreloads : Reloads server) {ip : IpAddr} (h : s.Written server ip) :
    (s.load server).isBanned ip = true := by
  apply IpBanList.isBanned_of_mem
  rw [← hreloads.file]
  exact h

namespace Grows

theorem written (h : Grows server s s') {ip : IpAddr} (hip : s.Written server ip) :
    s'.Written server ip := by
  obtain ⟨more, hmore⟩ := h.files server.banListFile
  rw [Written, hmore]
  exact List.mem_append_left _ hip

theorem workerOk (h : Grows server s s') {t : Worker} (ht : s.WorkerOk server t) :
    s'.WorkerOk server t := by
  cases t with
  | idle => trivial
  | persisting ip => exact h.issued_mono ht
  | appending ip => exact h.issued_mono ht
  | appended ip => exact ⟨h.issued_mono ht.1, h.written ht.2⟩
  | checking ip due => trivial

theorem trans (h : Grows server s s') (h' : Grows server s' s'') : Grows server s s'' := by
  refine ⟨?_, ?_, fun hip => h'.issued_mono (h.issued_mono hip), ?_, ?_, ?_⟩
  · intro file
    obtain ⟨more, hmore⟩ := h.files file
    obtain ⟨more', hmore'⟩ := h'.files file
    exact ⟨more ++ more', by rw [hmore', hmore, List.append_assoc]⟩
  · intro ip hip
    rcases h'.issued hip with hip | hip
    · exact (h.issued hip).imp_right h'.tracker.holds
    · exact .inr hip
  · exact h.tracker.trans h'.tracker h'.issued_mono h'.written
  · intro worker
    rcases h'.workers worker with heq | hok
    · rcases h.workers worker with heq' | hok
      · exact .inl (heq.trans heq')
      · rw [heq]
        exact .inr (h'.workerOk hok)
    · exact .inr hok
  · intro ip hip
    rcases h'.returned hip with hip | hip
    · exact (h.returned hip).imp_right h'.issued_mono
    · exact .inr hip

theorem load (h : Grows server s s') : (s.load server).Extends (s'.load server) := by
  obtain ⟨more, hmore⟩ := h.files server.ipBanFile
  rw [BanStores.load, BanStores.load, hmore]
  exact IpBanList.extends_fromEntries _ _

theorem covered (h : Grows server s s') {list list' : IpBanList} (hlist : list.Extends list')
    (hcovered : s.Covered server list) : s'.Covered server list' := by
  intro ip hip
  rcases h.issued hip with hip | hholds
  · rcases hcovered ip hip with hholds | ⟨hmode, hbanned⟩
    · exact .inl (h.tracker.holds hholds)
    · exact .inr ⟨hmode, hlist.isBanned hbanned⟩
  · exact .inl hholds

theorem flushOk (h : Grows server s s') {thread : FlushThread}
    (hok : s.FlushOk server thread) : s'.FlushOk server thread := by
  have hboth : ∀ {banned : List IpAddr},
      (∀ ip ∈ banned, s.tracker.Holds ip ∧ s.Written server ip) →
        ∀ ip ∈ banned, s'.tracker.Holds ip ∧ s'.Written server ip :=
    fun hall ip hip => ⟨h.tracker.holds (hall ip hip).1, h.written (hall ip hip).2⟩
  have hpending : ∀ {banned pendingWrite : List IpAddr},
      (∀ ip ∈ banned, s.tracker.Holds ip ∧ (s.Written server ip ∨ ip ∈ pendingWrite)) →
        ∀ ip ∈ banned, s'.tracker.Holds ip ∧ (s'.Written server ip ∨ ip ∈ pendingWrite) :=
    fun hall ip hip => ⟨h.tracker.holds (hall ip hip).1, (hall ip hip).2.imp_left h.written⟩
  cases thread with
  | sleeping => trivial
  | cleaning => trivial
  | waiting banned pendingWrite => exact ⟨hok.1, hpending hok.2⟩
  | appending banned pendingWrite => exact ⟨hok.1, hpending hok.2⟩
  | appended banned pendingWrite =>
    exact ⟨⟨hok.1.1, hboth hok.1.2⟩, fun ip hip => h.written (hok.2 ip hip)⟩
  | flushed banned => exact ⟨hok.1, hboth hok.2⟩
  | loaded banned list =>
    exact ⟨⟨hok.1.1, hboth hok.1.2⟩, hok.2.1, h.covered (.refl list) hok.2.2⟩
  | reloaded banned => exact ⟨hok.1, hboth hok.2⟩

/-- What is left to show when nothing is taken out of the tracker. -/
theorem safe (h : Grows server s s') (hs : Safe server s)
    (hstored : s'.Covered server s'.ipBanList)
    (hsignalled : ∀ {list}, s'.signalThread = some list → s'.Covered server list)
    (hflush : s'.FlushOk server s'.flushThread) : Safe server s' where
  banDurationSecs := h.tracker.banDurationSecs.trans hs.banDurationSecs
  issued := by
    intro ip hip
    rcases h.tracker.issued hip with hholds | hissued
    · exact h.issued_mono (hs.issued hholds)
    · exact hissued
  persisted := by
    intro ip record' hget hpersisted
    rcases h.tracker.persisted hget hpersisted with ⟨record, hold, hpersisted⟩ | hwritten
    · exact h.written (hs.persisted hold hpersisted)
    · exact hwritten
  file := h.covered h.load hs.file
  stored := hstored
  signalled := hsignalled
  flushThread := hflush
  workers := by
    intro worker
    rcases h.workers worker with heq | hok
    · rw [heq]
      exact h.workerOk (hs.workers worker)
    · exact hok
  returned := by
    intro ip hip
    rcases h.returned hip with hip | hip
    · exact h.issued_mono (hs.returned hip)
    · exact hip

/-- The lists are the same. -/
theorem safe_of_same (h : Grows server s s') (hs : Safe server s)
    (hlist : s'.ipBanList = s.ipBanList) (hsignal : s'.signalThread = s.signalThread)
    (hflush : s'.FlushOk server s'.flushThread) : Safe server s' := by
  apply h.safe hs
  · rw [hlist]
    exact h.covered (.refl _) hs.stored
  · intro list hlist'
    rw [hsignal] at hlist'
    exact h.covered (.refl list) (hs.signalled hlist')
  · exact hflush

end Grows

/-- A step of the tracker. -/
theorem grows_of_keeps (hfiles : s'.files = s.files) (hissued : s'.issued = s.issued)
    (hworkers : s'.workers = s.workers) (hreturned : s'.returned = s.returned)
    (h : AutoBanInner.Keeps (· ∈ s'.issued) (s'.Written server) s.tracker s'.tracker) :
    Grows server s s' := by
  refine ⟨fun file => ⟨[], ?_⟩, fun hip => .inl (hissued ▸ hip), fun hip => hissued ▸ hip, h,
    fun worker => .inl (congrFun hworkers worker), fun hip => .inl (hreturned ▸ hip)⟩
  rw [hfiles, List.append_nil]

/-- A step that leaves the tracker, the files and the workers alone. -/
theorem grows_of_same (htracker : s'.tracker = s.tracker) (hfiles : s'.files = s.files)
    (hissued : s'.issued = s.issued) (hworkers : s'.workers = s.workers)
    (hreturned : s'.returned = s.returned) : Grows server s s' := by
  apply grows_of_keeps hfiles hissued hworkers hreturned
  rw [htracker]
  exact .refl s.tracker

theorem grows_append (file : Nat) (entries : List IpBanEntry) :
    Grows server s (s.append file entries) := by
  refine ⟨?_, .inl, id, .refl s.tracker, fun _ => .inl rfl, .inl⟩
  intro f
  simp only [append]
  split
  · exact ⟨entries, rfl⟩
  · exact ⟨[], (List.append_nil _).symm⟩

theorem written_append {ips : List IpAddr} {ip : IpAddr} (h : ip ∈ ips) :
    (s.append server.banListFile (ips.map .address)).Written server ip := by
  simp only [Written, append, if_true]
  exact List.mem_append_right _ (List.mem_map_of_mem h)

theorem grows_setWorker (worker : Nat) {t : Worker} (ht : s.WorkerOk server t) :
    Grows server s (s.setWorker worker t) := by
  refine ⟨fun file => ⟨[], (List.append_nil _).symm⟩, .inl, id, .refl s.tracker, ?_, .inl⟩
  intro worker'
  simp only [setWorker]
  split
  · exact .inr ht
  · exact .inl rfl

theorem grows_returns (worker : Nat) {ip : IpAddr} (hip : ip ∈ s.issued) :
    Grows server s (s.returns worker ip) := by
  have hidle : Grows server s (s.setWorker worker .idle) := grows_setWorker worker trivial
  refine ⟨hidle.files, .inl, id, .refl s.tracker, hidle.workers, ?_⟩
  intro ip' hip'
  rcases List.mem_cons.mp hip' with rfl | hip'
  · exact .inr hip
  · exact .inl hip'

theorem checking_of_setWorker {worker worker' : Nat} {t : Worker} {ip : IpAddr} {due : Bool}
    (ht : ∀ ip due, t ≠ .checking ip due)
    (h : (s.setWorker worker t).workers worker' = .checking ip due) :
    s.workers worker' = .checking ip due := by
  simp only [setWorker] at h
  split at h
  · exact absurd h (ht ip due)
  · exact h

namespace Quiet

theorem trans (h : Quiet server s s') (h' : Quiet server s' s'') : Quiet server s s'' where
  toGrows := h.toGrows.trans h'.toGrows
  ipBanList := h'.ipBanList.trans h.ipBanList
  signalThread := h'.signalThread.trans h.signalThread
  flushThread := h'.flushThread.trans h.flushThread
  checking := fun hworker => h.checking (h'.checking hworker)
  admitted := h'.admitted.trans h.admitted

theorem safe (h : Quiet server s s') (hs : Safe server s) : Safe server s' := by
  apply h.toGrows.safe_of_same hs h.ipBanList h.signalThread
  rw [h.flushThread]
  exact h.toGrows.flushOk hs.flushThread

end Quiet

theorem quiet_setWorker (worker : Nat) {t : Worker} (ht : s.WorkerOk server t)
    (hchecking : ∀ ip due, t ≠ .checking ip due) : Quiet server s (s.setWorker worker t) :=
  ⟨grows_setWorker worker ht, rfl, rfl, rfl, checking_of_setWorker hchecking, rfl⟩

theorem quiet_returns (worker : Nat) {ip : IpAddr} (hip : ip ∈ s.issued) :
    Quiet server s (s.returns worker ip) :=
  ⟨grows_returns worker hip, rfl, rfl, rfl,
    checking_of_setWorker (t := .idle) (by rintro _ _ ⟨⟩), rfl⟩

theorem quiet_lock (writeLock : Bool) : Quiet server s { s with writeLock } :=
  ⟨grows_of_same rfl rfl rfl rfl rfl, rfl, rfl, rfl, id, rfl⟩

theorem quiet_append (file : Nat) (entries : List IpBanEntry) :
    Quiet server s (s.append file entries) :=
  ⟨grows_append file entries, rfl, rfl, rfl, id, rfl⟩

theorem safe_init (server : Server) (clock : Instant) (files : Nat → List IpBanEntry) :
    Safe server (init server clock files) := by
  have hnone : ∀ list, (init server clock files).Covered server list := by
    intro list ip hip
    cases hip
  refine ⟨rfl, ?_, ?_, hnone _, hnone _, fun _ => hnone _, trivial, fun _ => trivial, ?_⟩
  · rintro ip ⟨record, hget, -⟩
    cases hget
  · intro ip record hget
    cases hget
  · intro ip hip
    cases hip

theorem quiet_recordViolation (worker : Nat) (ip : IpAddr) (reason : AutoBanReason) :
    Quiet server s (s.recordViolation server worker ip reason) := by
  have hspec := s.tracker.recordViolation_spec server.tracker.policy ip reason s.clock
  unfold recordViolation
  generalize s.tracker.recordViolation server.tracker.policy ip reason s.clock = result at hspec ⊢
  obtain ⟨banned, permanent, tracker⟩ := result
  simp only
  split
  · rename_i hban
    rw [Bool.and_eq_true] at hban
    have hissue : Quiet server s { s with tracker, issued := ip :: s.issued } := by
      refine ⟨⟨fun file => ⟨[], (List.append_nil _).symm⟩, ?_, List.mem_cons_of_mem _, ?_,
        fun _ => .inl rfl, .inl⟩, rfl, rfl, rfl, id, rfl⟩
      · intro ip' hip'
        rcases List.mem_cons.mp hip' with rfl | hip'
        · exact .inr (hspec.holds hban.1 hban.2)
        · exact .inl hip'
      · exact hspec.keeps fun _ _ => List.mem_cons_self
    split
    · apply hissue.trans
      exact quiet_setWorker worker (List.mem_cons_self (l := s.issued)) (by rintro _ _ ⟨⟩)
    · exact hissue.trans (quiet_returns worker List.mem_cons_self)
  · rename_i hban
    refine ⟨grows_of_keeps rfl rfl rfl rfl ?_, rfl, rfl, rfl, id, rfl⟩
    exact hspec.keeps fun hbanned hpermanent => absurd (by simp_all) hban

theorem quiet_continueWorker {worker : Nat} {ok : Bool} (hs : Safe server s)
    (h : s.continueWorker server worker ok = some s') :
    Quiet server s s' ∨ ∃ ip due, s.workers worker = .checking ip due ∧
      s' = s.checkAgain server worker ip due := by
  have hok := hs.workers worker
  unfold continueWorker at h
  cases hworker : s.workers worker with
  | idle =>
    rw [hworker] at h
    cases h
  | persisting ip =>
    rw [hworker] at h hok
    simp only at h
    split at h
    · cases h
    · split at h
      · cases h
        exact .inl ((quiet_lock true).trans (quiet_setWorker worker hok (by rintro _ _ ⟨⟩)))
      · cases h
        exact .inl (quiet_returns worker hok)
  | appending ip =>
    rw [hworker] at h hok
    simp only at h
    split at h
    · cases h
      have hwritten : (s.append server.banListFile ([ip].map .address)).Written server ip :=
        written_append List.mem_cons_self
      refine .inl ((quiet_append server.banListFile [.address ip]).trans ?_)
      exact quiet_setWorker worker ⟨hok, hwritten⟩ (by rintro _ _ ⟨⟩)
    · cases h
      exact .inl ((quiet_lock false).trans (quiet_returns worker hok))
  | appended ip =>
    rw [hworker] at h hok
    cases h
    have hmark : Quiet server s
        { s with tracker := s.tracker.markBan ip, writeLock := false } := by
      refine ⟨grows_of_keeps rfl rfl rfl rfl ?_, rfl, rfl, rfl, id, rfl⟩
      exact AutoBanInner.keeps_markBan hok.2
    exact .inl (hmark.trans (quiet_returns worker hok.1))
  | checking ip due =>
    rw [hworker] at h
    cases h
    exact .inr ⟨ip, due, rfl, rfl⟩

/-- Neither read of a security check changes what the stores hold. -/
theorem safe_setWorker (hs : Safe server s) (worker : Nat) {t : Worker}
    (ht : s.WorkerOk server t) : Safe server (s.setWorker worker t) := by
  have hgrows := grows_setWorker worker ht
  exact hgrows.safe_of_same hs rfl rfl (hgrows.flushOk hs.flushThread)

theorem safe_check (hs : Safe server s) (worker : Nat) (ip : IpAddr) :
    Safe server (s.check server worker ip) := by
  unfold check
  split
  · exact hs
  · exact safe_setWorker hs worker trivial

theorem safe_checkAgain (hs : Safe server s) (worker : Nat) (ip : IpAddr) (due : Bool) :
    Safe server (s.checkAgain server worker ip due) := by
  have hidle := safe_setWorker hs worker (t := .idle) trivial
  unfold checkAgain
  split
  · exact hidle
  · exact { hidle with }

/-- A flush finds permanent bans only where they are written to the loaded file. -/
theorem flushOk_flush (hs : Safe server s)
    (hreloads : server.autoBan.banDurationSecs = 0 ∨ server.autoBan.escalationEnabled = true →
      Reloads server) : s.FlushOk server (s.flush server) := by
  have hmem : ∀ ip ∈ (s.tracker.permanentBans server.autoBan.escalationEnabled s.clock).1,
      Reloads server ∧ s.tracker.Holds ip ∧ (s.Written server ip ∨
        ip ∈ (s.tracker.permanentBans server.autoBan.escalationEnabled s.clock).2) := by
    intro ip hip
    obtain ⟨hduration, record, hget, hpermanent, hwrite⟩ := AutoBanInner.mem_permanentBans hip
    rw [hs.banDurationSecs] at hduration
    exact ⟨hreloads hduration, ⟨record, hget, hpermanent⟩, hwrite.imp_left (hs.persisted hget)⟩
  unfold flush
  generalize s.tracker.permanentBans server.autoBan.escalationEnabled s.clock = bans at hmem ⊢
  obtain ⟨banned, pendingWrite⟩ := bans
  simp only
  split
  · trivial
  · rename_i hsome
    obtain ⟨ip, hip⟩ : ∃ ip, ip ∈ banned := by
      cases banned with
      | nil => simp at hsome
      | cons ip banned => exact ⟨ip, List.mem_cons_self⟩
    split
    · rename_i hnone
      rw [List.isEmpty_iff.mp hnone] at hmem
      refine ⟨(hmem ip hip).1, fun ip' hip' => ⟨(hmem ip' hip').2.1, ?_⟩⟩
      rcases (hmem ip' hip').2.2 with hwritten | hnone
      · exact hwritten
      · cases hnone
    · exact ⟨(hmem ip hip).1, fun ip' hip' => (hmem ip' hip').2⟩

/-- What the flush thread takes out of the tracker is banned by every list in use. -/
theorem safe_removeIps {banned : List IpAddr} (hs : Safe server s)
    (hthread : s.flushThread = .reloaded banned)
    (htaken : ∀ ip ∈ banned, s.ipBanList.isBanned ip = true ∧
      ∀ list, s.signalThread = some list → list.isBanned ip = true) :
    Safe server { s with tracker := s.tracker.removeIps banned, flushThread := .cleaning } := by
  have hflush := hs.flushThread
  rw [hthread] at hflush
  obtain ⟨hreloads, hbanned⟩ := hflush
  have hget : ∀ {ip record}, (s.tracker.removeIps banned).records.get ip = some record →
      s.tracker.records.get ip = some record := by
    intro ip record h
    rw [AutoBanInner.get_removeIps] at h
    split at h
    · cases h
    · exact h
  have hcovered : ∀ list, (∀ ip ∈ banned, list.isBanned ip = true) → s.Covered server list →
      Covered server { s with tracker := s.tracker.removeIps banned, flushThread := .cleaning }
        list := by
    intro list hlist h ip hip
    by_cases hmem : ip ∈ banned
    · exact .inr ⟨hreloads.mode, hlist ip hmem⟩
    · rcases h ip hip with ⟨record, hold, hpermanent⟩ | hlisted
      · refine .inl ⟨record, ?_, hpermanent⟩
        rw [AutoBanInner.get_removeIps, if_neg hmem]
        exact hold
      · exact .inr hlisted
  constructor
  · exact hs.banDurationSecs
  · rintro ip ⟨record, h, hpermanent⟩
    exact hs.issued ⟨record, hget h, hpermanent⟩
  · intro ip record h
    exact hs.persisted (hget h)
  · exact hcovered _ (fun ip hip => load_isBanned hreloads (hbanned ip hip).2) hs.file
  · exact hcovered _ (fun ip hip => (htaken ip hip).1) hs.stored
  · intro list hlist
    exact hcovered _ (fun ip hip => (htaken ip hip).2 list hlist) (hs.signalled hlist)
  · trivial
  · exact hs.workers
  · exact hs.returned

/-- The flush thread goes on without touching the stores. -/
theorem safe_thread (hs : Safe server s) {lock : Bool} {thread : FlushThread}
    (hok : s.FlushOk server thread) :
    Safe server { s with writeLock := lock, flushThread := thread } := by
  have hgrows : Grows server s { s with writeLock := lock, flushThread := thread } :=
    grows_of_same rfl rfl rfl rfl rfl
  exact hgrows.safe_of_same hs rfl rfl (hgrows.flushOk hok)

/-- Under the write lock, what is no longer pending has been written. -/
theorem flushOk_stillPending {banned pendingWrite : List IpAddr} (hs : Safe server s)
    (hok : s.FlushOk server (.waiting banned pendingWrite)) :
    s.FlushOk server (.appending banned (s.tracker.stillPending pendingWrite)) := by
  refine ⟨hok.1, fun ip hip => ?_⟩
  obtain ⟨⟨record, hget, hpermanent⟩, hwritten | hpending⟩ := hok.2 ip hip
  · exact ⟨⟨record, hget, hpermanent⟩, .inl hwritten⟩
  · refine ⟨⟨record, hget, hpermanent⟩, ?_⟩
    exact (AutoBanInner.mem_stillPending hget hpending).imp_left (hs.persisted hget)

theorem flushOk_of_nothing_pending {banned : List IpAddr}
    (hok : s.FlushOk server (.appending banned [])) : s.FlushOk server (.flushed banned) := by
  refine ⟨hok.1, fun ip hip => ⟨(hok.2 ip hip).1, ?_⟩⟩
  rcases (hok.2 ip hip).2 with hwritten | hnone
  · exact hwritten
  · cases hnone

theorem safe_appendPending {banned pendingWrite : List IpAddr} (hs : Safe server s)
    (hok : s.FlushOk server (.appending banned pendingWrite)) :
    Safe server { s.append server.banListFile (pendingWrite.map .address) with
      flushThread := .appended banned pendingWrite } := by
  have happend : Grows server s (s.append server.banListFile (pendingWrite.map .address)) :=
    grows_append _ _
  have hthread : Grows server (s.append server.banListFile (pendingWrite.map .address))
      { s.append server.banListFile (pendingWrite.map .address) with
        flushThread := .appended banned pendingWrite } := grows_of_same rfl rfl rfl rfl rfl
  apply (happend.trans hthread).safe_of_same hs rfl rfl
  refine ⟨⟨hok.1, ?_⟩, fun ip hip => written_append hip⟩
  intro ip hip
  refine ⟨(hok.2 ip hip).1, ?_⟩
  rcases (hok.2 ip hip).2 with hwritten | hpending
  · exact happend.written hwritten
  · exact written_append hpending

theorem safe_markPersisted {banned pendingWrite : List IpAddr} (hs : Safe server s)
    (hok : s.FlushOk server (.appended banned pendingWrite)) :
    Safe server { s with
      tracker := s.tracker.markPersisted pendingWrite
      writeLock := false
      flushThread := .flushed banned } := by
  have hgrows : Grows server s { s with
      tracker := s.tracker.markPersisted pendingWrite
      writeLock := false
      flushThread := .flushed banned } := by
    refine grows_of_keeps rfl rfl rfl rfl ?_
    exact AutoBanInner.keeps_markPersisted hok.2
  have hflushed : s.FlushOk server (.flushed banned) := hok.1
  exact hgrows.safe_of_same hs rfl rfl (hgrows.flushOk hflushed)

theorem safe_store {banned : List IpAddr} {list : IpBanList} (hs : Safe server s)
    (hok : s.FlushOk server (.loaded banned list)) :
    Safe server { s with ipBanList := list, flushThread := .reloaded banned } := by
  have hgrows : Grows server s { s with ipBanList := list, flushThread := .reloaded banned } :=
    grows_of_same rfl rfl rfl rfl rfl
  have hreloaded : s.FlushOk server (.reloaded banned) := hok.1
  apply hgrows.safe hs
  · exact hgrows.covered (.refl list) hok.2.2
  · intro list' hlist'
    exact hgrows.covered (.refl list') (hs.signalled hlist')
  · exact hgrows.flushOk hreloaded

theorem safe_cleanup (hs : Safe server s) :
    Safe server { s with tracker := s.tracker.cleanup s.clock, flushThread := .sleeping } := by
  have hgrows : Grows server s { s with
      tracker := s.tracker.cleanup s.clock
      flushThread := .sleeping } := by
    refine grows_of_keeps rfl rfl rfl rfl ?_
    exact (s.tracker.pruned_cleanup s.clock).keeps
  exact hgrows.safe_of_same hs rfl rfl trivial

theorem safe_continueFlush {ok : Bool} (hs : Safe server s)
    (hreloads : server.autoBan.banDurationSecs = 0 ∨ server.autoBan.escalationEnabled = true →
      Reloads server)
    (h : s.continueFlush server ok = some s') (htaken : s.TakenOver (.continueFlush ok) s') :
    Safe server s' := by
  have hok := hs.flushThread
  unfold continueFlush at h
  unfold TakenOver at htaken
  cases hthread : s.flushThread with
  | sleeping =>
    rw [hthread] at h
    cases h
    apply safe_thread hs
    split
    · exact flushOk_flush hs hreloads
    · trivial
  | waiting banned pendingWrite =>
    rw [hthread] at h hok
    have hpending := flushOk_stillPending hs hok
    simp only at h
    split at h
    · cases h
    · split at h
      · rename_i hnone
        cases h
        rw [List.isEmpty_iff.mp hnone] at hpending
        exact safe_thread hs (flushOk_of_nothing_pending hpending)
      · cases h
        exact safe_thread hs hpending
  | appending banned pendingWrite =>
    rw [hthread] at h hok
    simp only at h
    split at h
    · cases h
      exact safe_appendPending hs hok
    · cases h
      exact safe_thread hs trivial
  | appended banned pendingWrite =>
    rw [hthread] at h hok
    cases h
    exact safe_markPersisted hs hok
  | flushed banned =>
    rw [hthread] at h hok
    cases h
    apply safe_thread hs
    split
    · exact ⟨hok, fun ip hip => load_isBanned hok.1 (hok.2 ip hip).2, hs.file⟩
    · trivial
  | loaded banned list =>
    rw [hthread] at h hok
    cases h
    exact safe_store hs hok
  | reloaded banned =>
    rw [hthread] at h htaken
    cases h
    exact safe_removeIps hs hthread htaken
  | cleaning =>
    rw [hthread] at h
    cases h
    exact safe_cleanup hs

/-- The steps other than those of the flush thread. -/
inductive Stepped (server : Server) (s : BanStores) : Action → BanStores → Prop where
  | quiet {act : Action} {s' : BanStores} (h : Quiet server s s') : Stepped server s act s'
  | check (worker : Nat) (ip : IpAddr) :
      Stepped server s (.check worker ip) (s.check server worker ip)
  | checkAgain {worker : Nat} {ip : IpAddr} {due : Bool} (ok : Bool)
      (hworker : s.workers worker = .checking ip due) :
      Stepped server s (.continueWorker worker ok) (s.checkAgain server worker ip due)
  | signal (hidle : s.signalThread = none) :
      Stepped server s (.signal true) { s with signalThread := some (s.load server) }
  | store {list : IpBanList} (hlist : s.signalThread = some list) :
      Stepped server s .storeSignalled { s with ipBanList := list, signalThread := none }

theorem stepped {act : Action} (hs : Safe server s) (h : step server s act = some s') :
    Stepped server s act s' ∨ ∃ ok, act = .continueFlush ok ∧
      s.continueFlush server ok = some s' := by
  cases act with
  | recordViolation worker ip reason =>
    simp only [step] at h
    split at h
    · cases h
      exact .inl (.quiet (quiet_recordViolation worker ip reason))
    · cases h
  | check worker ip =>
    simp only [step] at h
    split at h
    · cases h
      exact .inl (.check worker ip)
    · cases h
  | continueWorker worker ok =>
    rcases quiet_continueWorker hs h with hquiet | ⟨ip, due, hworker, rfl⟩
    · exact .inl (.quiet hquiet)
    · exact .inl (.checkAgain ok hworker)
  | continueFlush ok => exact .inr ⟨ok, rfl, h⟩
  | signal ok =>
    simp only [step] at h
    split at h
    · rename_i hidle
      cases h
      split
      · rename_i hok
        rw [hok.1]
        exact .inl (.signal hidle)
      · exact .inl (.quiet (quiet_lock s.writeLock))
    · cases h
  | storeSignalled =>
    obtain ⟨list, hlist, rfl⟩ := Option.map_eq_some_iff.mp h
    exact .inl (.store hlist)
  | edit entries =>
    cases h
    exact .inl (.quiet (quiet_append server.ipBanFile entries))
  | tick clock =>
    simp only [step] at h
    split at h
    · cases h
      exact .inl (.quiet ⟨grows_of_same rfl rfl rfl rfl rfl, rfl, rfl, rfl, id, rfl⟩)
    · cases h

theorem safe_step {act : Action} (hs : Safe server s)
    (hreloads : server.autoBan.banDurationSecs = 0 ∨ server.autoBan.escalationEnabled = true →
      Reloads server)
    (h : step server s act = some s') (htaken : s.TakenOver act s') : Safe server s' := by
  rcases stepped hs h with hstepped | ⟨ok, rfl, h⟩
  · cases hstepped with
    | quiet hquiet => exact hquiet.safe hs
    | check worker ip => exact safe_check hs worker ip
    | checkAgain ok hworker => exact safe_checkAgain hs _ _ _
    | signal hidle =>
      have hgrows : Grows server s { s with signalThread := some (s.load server) } :=
        grows_of_same rfl rfl rfl rfl rfl
      apply hgrows.safe hs
      · exact hgrows.covered (.refl _) hs.stored
      · intro list hlist
        cases hlist
        exact hgrows.covered (.refl _) hs.file
      · exact hgrows.flushOk hs.flushThread
    | @store list hlist =>
      have hgrows : Grows server s { s with ipBanList := list, signalThread := none } :=
        grows_of_same rfl rfl rfl rfl rfl
      apply hgrows.safe hs
      · exact hgrows.covered (.refl list) (hs.signalled hlist)
      · rintro list' ⟨⟩
      · exact hgrows.flushOk hs.flushThread
  · exact safe_continueFlush hs hreloads h htaken

theorem reloads_of_valid {canonicalize : Path → Option Path}
    (hvalid : validateAutoBanConfig canonicalize server.autoBan server.ipBan = .ok ())
    (henabled : server.autoBan.enabled = true)
    (hinode : ∀ {a b}, Path.referToSameFile canonicalize a b = true →
      server.inode a = server.inode b)
    (hpermanent : server.autoBan.banDurationSecs = 0 ∨ server.autoBan.escalationEnabled = true) :
    Reloads server := by
  obtain ⟨-, hmode, hpath⟩ := persistence_of_valid hvalid henabled hpermanent
  exact ⟨hmode, hinode hpath⟩

theorem safe_run {canonicalize : Path → Option Path}
    (hvalid : validateAutoBanConfig canonicalize server.autoBan server.ipBan = .ok ())
    (henabled : server.autoBan.enabled = true)
    (hinode : ∀ {a b}, Path.referToSameFile canonicalize a b = true →
      server.inode a = server.inode b)
    {clock : Instant} {files : Nat → List IpBanEntry} {as : List Action}
    (htaken : AllSteps (step server) TakenOver (init server clock files) as)
    (hrun : run (step server) (init server clock files) as = some s) : Safe server s := by
  have hreloads := reloads_of_valid hvalid henabled hinode
  exact run_invariant (fun hs h htaken => safe_step hs hreloads h htaken)
    (safe_init server clock files) htaken hrun

end

/-- No permanent ban falls between the stores, in any run of a server with an
accepted configuration that takes bans out of the tracker only when the lists in
use have them. Paths that the configuration check takes for the same file are to
open the same file. -/
theorem no_gap (server : Server) (canonicalize : Path → Option Path)
    (hvalid : validateAutoBanConfig canonicalize server.autoBan server.ipBan = .ok ())
    (henabled : server.autoBan.enabled = true)
    (hinode : ∀ {a b}, Path.referToSameFile canonicalize a b = true →
      server.inode a = server.inode b)
    (clock : Instant) (files : Nat → List IpBanEntry) (as : List Action)
    (htaken : AllSteps (step server) TakenOver (init server clock files) as)
    {s : BanStores} (hrun : run (step server) (init server clock files) as = some s) : s.NoGap :=
  (safe_run hvalid henabled hinode htaken hrun).stored.noGap

/-- A ban that is taken out too early is missing at once, or as soon as the signal
thread stores what it has read. -/
theorem gap_of_not_takenOver {server : Server} {s s' : BanStores} {act : Action}
    (hs : Safe server s) (h : step server s act = some s') (hlost : ¬ s.TakenOver act s') :
    ¬ s'.NoGap ∨ ∃ s'', step server s' .storeSignalled = some s'' ∧ ¬ s''.NoGap := by
  unfold TakenOver at hlost
  split at hlost
  · rename_i ok banned hthread
    have hflush := hs.flushThread
    rw [hthread] at hflush
    simp only [step, continueFlush, hthread, Option.some.injEq] at h
    subst h
    have hgone : ∀ ip ∈ banned, (s.tracker.removeIps banned).isAutoBanned ip s.clock ≠ true := by
      intro ip hip
      rw [AutoBanInner.isAutoBanned, AutoBanInner.get_removeIps, if_pos hip]
      exact Bool.false_ne_true
    obtain ⟨ip, hip, hlost⟩ : ∃ ip ∈ banned, ¬ (s.ipBanList.isBanned ip = true ∧
        ∀ list, s.signalThread = some list → list.isBanned ip = true) := by
      simpa only [not_forall, exists_prop] using hlost
    have hissued := hs.issued (hflush.2 ip hip).1
    by_cases hstored : s.ipBanList.isBanned ip = true
    · obtain ⟨list, hlist, hmissing⟩ : ∃ list, s.signalThread = some list ∧
          list.isBanned ip ≠ true := by
        simpa only [hstored, true_and, not_forall, exists_prop] using hlost
      refine .inr ⟨_, congrArg (Option.map _) hlist, ?_⟩
      intro hgap
      rcases hgap ip hissued with h | h
      · exact hgone ip hip h
      · exact hmissing h
    · refine .inl fun hgap => ?_
      rcases hgap ip hissued with h | h
      · exact hgone ip hip h
      · exact hstored h
  · exact absurd trivial hlost

def crawlerIp : IpAddr := .v4 ⟨#v[203, 0, 113, 9]⟩

def udpServer : Server where
  frontEnd := .udp
  autoBan := { AutoBanConfig.default with enabled := true }
  ipBan := ⟨.on, ⟨"./ip-ban-list.txt"⟩⟩
  inode := fun path => if path.components = Path.components ⟨"./ip-ban-list.txt"⟩ then 1 else 0

/-- A permanent ban, written by the worker that issues it. -/
def persistBan : List Action :=
  [.recordViolation 0 crawlerIp .crawler, .continueWorker 0 true, .continueWorker 0 true,
    .continueWorker 0 true]

/-- A flush up to the point where the bans have been taken out of the tracker. -/
def flushBans : List Action :=
  [.continueFlush true, .continueFlush true, .continueFlush true, .continueFlush true]

theorem udpServer_valid :
    validateAutoBanConfig some udpServer.autoBan udpServer.ipBan = .ok () := by
  decide

theorem components_eq_of_same {a b : Path} (h : Path.referToSameFile some a b = true) :
    a.components = b.components := by
  simp only [Path.referToSameFile] at h
  split at h
  · assumption
  · exact eq_of_beq h

theorem no_gap_unsignalled : ∃ s, run (step udpServer) (init udpServer ⟨0⟩ fun _ => [])
    (persistBan ++ flushBans) = some s ∧ s.NoGap := by
  refine ⟨_, rfl, ?_⟩
  refine no_gap udpServer some udpServer_valid rfl ?_ ⟨0⟩ (fun _ => []) (persistBan ++ flushBans)
    ?_ rfl
  · intro a b h
    simp only [udpServer, components_eq_of_same h]
  · refine .cons rfl trivial (.cons rfl trivial (.cons rfl trivial (.cons rfl trivial
      (.cons rfl trivial (.cons rfl trivial (.cons rfl trivial (.cons rfl ?_ trivial)))))))
    intro ip hip
    refine ⟨?_, ?_⟩
    · revert ip
      decide
    · rintro list ⟨⟩

/-- The signal thread reads the file before the ban is written, and stores what it
has read after the flush. -/
theorem stale_list_opens_gap :
    validateAutoBanConfig some udpServer.autoBan udpServer.ipBan = .ok () ∧
      ∃ s, run (step udpServer) (init udpServer ⟨0⟩ fun _ => [])
        (.signal true :: persistBan ++ flushBans ++ [.storeSignalled]) = some s ∧ ¬ s.NoGap := by
  refine ⟨udpServer_valid, _, rfl, ?_⟩
  intro hgap
  rcases hgap crawlerIp List.mem_cons_self with h | h
  · exact absurd h (by decide)
  · exact absurd h (by decide)

end BanStores

end Aquatic.AutoBan
