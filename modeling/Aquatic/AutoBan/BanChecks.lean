import Aquatic.AutoBan.BanGap

/-!
# Refusing the requests of banned addresses

A security check reads the two stores one after the other, and a ban moves from
the tracker to the list. A check that reads the tracker first finds the ban on one
side or the other. One that reads the list first can miss it on both.
-/

namespace Aquatic.AutoBan
open Transition
set_option autoImplicit false

namespace BanStores

/-- No reload starts while another one is between its read and its store. -/
def OneReload (s : BanStores) (act : Action) (_ : BanStores) : Prop :=
  match act, s.flushThread with
  | .continueFlush _, .flushed _ => s.signalThread = none
  | .signal _, .loaded _ _ => False
  | _, _ => True

/-- No ban is taken out of the tracker while a check that started after the ban was
completed has missed it in the list and is about to read the tracker. -/
def NotBetweenReads (server : Server) (s : BanStores) (act : Action) (_ : BanStores) : Prop :=
  match act, s.flushThread with
  | .continueFlush _, .reloaded banned => server.frontEnd ≠ .http →
      ∀ ip ∈ banned, ∀ worker, s.workers worker ≠ .checking ip true
  | _, _ => True

/-- With one reload at a time, later lists say more. -/
structure Ordered (server : Server) (s : BanStores) : Prop where
  stored : s.ipBanList.Extends (s.load server)
  signalled : ∀ {list}, s.signalThread = some list →
    s.ipBanList.Extends list ∧ list.Extends (s.load server)
  loaded : ∀ {banned list}, s.flushThread = .loaded banned list →
    s.ipBanList.Extends list ∧ list.Extends (s.load server) ∧ s.signalThread = none
  reloaded : ∀ {banned}, s.flushThread = .reloaded banned →
    ∀ ip ∈ banned, s.ipBanList.isBanned ip = true

/-- The store bans the address for good. -/
def Holds (server : Server) (s : BanStores) (ip : IpAddr) : BanStore → Prop
  | .ipBanList => server.ipBan.mode = .on ∧ s.ipBanList.isBanned ip = true
  | .tracker => s.tracker.Holds ip

/-- The second read of every check that has to refuse will do so. -/
structure Watched (server : Server) (s : BanStores) : Prop where
  checking : ∀ {worker ip}, s.workers worker = .checking ip true →
    s.Holds server ip server.frontEnd.reads.2
  admitted : s.admitted = []

section
variable {server : Server} {s s' : BanStores}

theorem extends_empty (list : IpBanList) : IpBanList.empty.Extends list :=
  ⟨by rintro _ ⟨⟩, by rintro _ ⟨⟩⟩

theorem ordered_init (server : Server) (clock : Instant) (files : Nat → List IpBanEntry) :
    Ordered server (init server clock files) := by
  refine ⟨?_, by rintro _ ⟨⟩, by rintro _ _ ⟨⟩, by rintro _ ⟨⟩⟩
  simp only [init]
  split
  · exact .refl _
  · exact extends_empty _

theorem takenOver_of_ordered (h : Ordered server s) (act : Action) (s' : BanStores) :
    s.TakenOver act s' := by
  unfold TakenOver
  split
  · rename_i banned hthread
    intro ip hip
    have hbanned := h.reloaded hthread ip hip
    exact ⟨hbanned, fun list hlist => (h.signalled hlist).1.isBanned hbanned⟩
  · trivial

/-- The lists are the same, and the flush thread holds none. -/
theorem ordered_of_same (h : Ordered server s) (hload : (s.load server).Extends (s'.load server))
    (hlist : s'.ipBanList = s.ipBanList) (hsignal : s'.signalThread = s.signalThread)
    (hloaded : ∀ banned list, s'.flushThread ≠ .loaded banned list)
    (hreloaded : ∀ banned, s'.flushThread ≠ .reloaded banned) : Ordered server s' := by
  refine ⟨?_, ?_, fun hthread => absurd hthread (hloaded _ _),
    fun hthread => absurd hthread (hreloaded _)⟩
  · rw [hlist]
    exact h.stored.trans hload
  · intro list hlist'
    rw [hsignal] at hlist'
    rw [hlist]
    exact ⟨(h.signalled hlist').1, (h.signalled hlist').2.trans hload⟩

theorem ordered_quiet (h : Ordered server s) (hquiet : Quiet server s s') : Ordered server s' := by
  have hload := hquiet.toGrows.load
  constructor
  · rw [hquiet.ipBanList]
    exact h.stored.trans hload
  · intro list hlist
    rw [hquiet.signalThread] at hlist
    rw [hquiet.ipBanList]
    exact ⟨(h.signalled hlist).1, (h.signalled hlist).2.trans hload⟩
  · intro banned list hthread
    rw [hquiet.flushThread] at hthread
    rw [hquiet.ipBanList, hquiet.signalThread]
    obtain ⟨hold, hnew, hnone⟩ := h.loaded hthread
    exact ⟨hold, hnew.trans hload, hnone⟩
  · intro banned hthread
    rw [hquiet.flushThread] at hthread
    rw [hquiet.ipBanList]
    exact h.reloaded hthread

theorem holdsNoList_flush (server : Server) (s : BanStores) :
    (∀ banned list, s.flush server ≠ .loaded banned list) ∧
      ∀ banned, s.flush server ≠ .reloaded banned := by
  unfold flush
  simp only
  split
  · simp
  · split <;> simp

theorem ordered_continueFlush {ok : Bool} (hs : Safe server s) (h : Ordered server s)
    (hstep : s.continueFlush server ok = some s') (hone : s.OneReload (.continueFlush ok) s') :
    Ordered server s' := by
  have hok := hs.flushThread
  unfold continueFlush at hstep
  unfold OneReload at hone
  cases hthread : s.flushThread with
  | sleeping =>
    rw [hthread] at hstep
    cases hstep
    refine ordered_of_same h (.refl _) rfl rfl ?_ ?_
    · intro banned list hloaded
      split at hloaded
      · exact (holdsNoList_flush server s).1 banned list hloaded
      · cases hloaded
    · intro banned hreloaded
      split at hreloaded
      · exact (holdsNoList_flush server s).2 banned hreloaded
      · cases hreloaded
  | waiting banned pendingWrite =>
    rw [hthread] at hstep
    simp only at hstep
    split at hstep
    · cases hstep
    · split at hstep <;> cases hstep <;>
        exact ordered_of_same h (.refl _) rfl rfl (by simp) (by simp)
  | appending banned pendingWrite =>
    rw [hthread] at hstep
    simp only at hstep
    split at hstep
    · cases hstep
      exact ordered_of_same h (grows_append _ _).load rfl rfl (by simp) (by simp)
    · cases hstep
      exact ordered_of_same h (.refl _) rfl rfl (by simp) (by simp)
  | appended banned pendingWrite =>
    rw [hthread] at hstep
    cases hstep
    exact ordered_of_same h (.refl _) rfl rfl (by simp) (by simp)
  | flushed banned =>
    rw [hthread] at hstep hone
    cases hstep
    cases ok with
    | false => exact ordered_of_same h (.refl _) rfl rfl (by simp) (by simp)
    | true =>
      refine ⟨h.stored, h.signalled, ?_, by simp⟩
      intro banned' list hloaded
      cases hloaded
      exact ⟨h.stored, .refl _, hone⟩
  | loaded banned list =>
    rw [hthread] at hstep hok
    cases hstep
    obtain ⟨-, hnew, hnone⟩ := h.loaded hthread
    refine ⟨hnew, ?_, by simp, ?_⟩
    · intro list' hlist'
      rw [hnone] at hlist'
      cases hlist'
    · intro banned' hreloaded
      cases hreloaded
      exact hok.2.1
  | reloaded banned =>
    rw [hthread] at hstep
    cases hstep
    exact ordered_of_same h (.refl _) rfl rfl (by simp) (by simp)
  | cleaning =>
    rw [hthread] at hstep
    cases hstep
    exact ordered_of_same h (.refl _) rfl rfl (by simp) (by simp)

theorem ordered_step {act : Action} (hs : Safe server s) (h : Ordered server s)
    (hstep : step server s act = some s') (hone : s.OneReload act s') : Ordered server s' := by
  rcases stepped hs hstep with hstepped | ⟨ok, rfl, hflush⟩
  · cases hstepped with
    | quiet hquiet => exact ordered_quiet h hquiet
    | check worker ip =>
      unfold check
      split
      · exact h
      · exact ⟨h.stored, h.signalled, h.loaded, h.reloaded⟩
    | checkAgain ok hworker =>
      unfold checkAgain
      split
      · exact ⟨h.stored, h.signalled, h.loaded, h.reloaded⟩
      · exact ⟨h.stored, h.signalled, h.loaded, h.reloaded⟩
    | signal hidle =>
      refine ⟨h.stored, ?_, ?_, h.reloaded⟩
      · intro list hlist
        cases hlist
        exact ⟨h.stored, .refl _⟩
      · intro banned list hthread
        change s.flushThread = .loaded banned list at hthread
        unfold OneReload at hone
        rw [hthread] at hone
        exact hone.elim
    | @store list hlist =>
      obtain ⟨hold, hnew⟩ := h.signalled hlist
      refine ⟨hnew, by rintro _ ⟨⟩, ?_, ?_⟩
      · intro banned list' hthread
        have hnone := (h.loaded hthread).2.2
        rw [hlist] at hnone
        cases hnone
      · intro banned hthread ip hip
        exact hold.isBanned (h.reloaded hthread ip hip)
  · exact ordered_continueFlush hs h hflush hone

theorem Holds.bans {ip : IpAddr} {store : BanStore} (h : s.Holds server ip store) :
    s.bans server ip store = true := by
  cases store with
  | ipBanList => simp [BanStores.bans, h.1, h.2]
  | tracker => exact AutoBanInner.Holds.isAutoBanned h s.clock

/-- The store that is read second holds what is not in the first. -/
theorem holds_second (hs : Safe server s) {ip : IpAddr} (hissued : ip ∈ s.issued)
    (hmiss : ¬ s.bans server ip server.frontEnd.reads.1 = true) :
    s.Holds server ip server.frontEnd.reads.2 := by
  have hlist : ¬ s.bans server ip .ipBanList = true → s.Holds server ip .tracker := by
    intro hmiss
    rcases hs.stored ip hissued with hholds | hlisted
    · exact hholds
    · have h : s.Holds server ip .ipBanList := hlisted
      exact absurd h.bans hmiss
  have htracker : ¬ s.bans server ip .tracker = true → s.Holds server ip .ipBanList := by
    intro hmiss
    rcases hs.stored ip hissued with hholds | hlisted
    · have h : s.Holds server ip .tracker := hholds
      exact absurd h.bans hmiss
    · exact hlisted
  cases hfront : server.frontEnd with
  | udp =>
    rw [hfront] at hmiss
    exact hlist hmiss
  | ws =>
    rw [hfront] at hmiss
    exact hlist hmiss
  | http =>
    rw [hfront] at hmiss
    exact htracker hmiss

theorem Holds.mono {ip : IpAddr} {store : BanStore} (h : s.Holds server ip store)
    (htracker : s.tracker.Holds ip → s'.tracker.Holds ip)
    (hlist : s.ipBanList.Extends s'.ipBanList) : s'.Holds server ip store := by
  cases store with
  | ipBanList => exact ⟨h.1, hlist.isBanned h.2⟩
  | tracker => exact htracker h

/-- No check begins or ends, and the stores keep what the open ones rely on. -/
theorem watched_of_same (hw : Watched server s) (hworkers : s'.workers = s.workers)
    (hadmitted : s'.admitted = s.admitted)
    (htracker : ∀ {ip}, s.tracker.Holds ip → s'.tracker.Holds ip)
    (hlist : s.ipBanList.Extends s'.ipBanList) : Watched server s' := by
  refine ⟨?_, hadmitted.trans hw.admitted⟩
  intro worker ip hworker
  rw [hworkers] at hworker
  exact (hw.checking hworker).mono htracker hlist

theorem watched_check (hs : Safe server s) (hw : Watched server s) (worker : Nat) (ip : IpAddr) :
    Watched server (s.check server worker ip) := by
  unfold check
  split
  · exact hw
  · rename_i hmiss
    refine ⟨?_, hw.admitted⟩
    intro worker' ip' hworker
    simp only [setWorker] at hworker
    split at hworker
    · simp only [Worker.checking.injEq] at hworker
      obtain ⟨rfl, hdue⟩ := hworker
      have hreturned : ip ∈ s.returned := by
        simp only [completed, Bool.and_eq_true, List.contains_iff_mem] at hdue
        exact hdue.1
      exact holds_second hs (hs.returned hreturned) hmiss
    · exact hw.checking hworker

theorem watched_checkAgain {worker : Nat} {ip : IpAddr} {due : Bool} (hw : Watched server s)
    (hworker : s.workers worker = .checking ip due) :
    Watched server (s.checkAgain server worker ip due) := by
  have hidle : Watched server (s.setWorker worker .idle) := by
    refine ⟨?_, hw.admitted⟩
    intro worker' ip' h
    exact hw.checking (checking_of_setWorker (by rintro _ _ ⟨⟩) h)
  unfold checkAgain
  split
  · exact hidle
  · rename_i hmiss
    refine ⟨hidle.checking, ?_⟩
    cases due with
    | false => exact hw.admitted
    | true => exact absurd (hw.checking hworker).bans hmiss

theorem watched_removeIps {banned : List IpAddr} (hw : Watched server s)
    (hbetween : server.frontEnd ≠ .http →
      ∀ ip ∈ banned, ∀ worker, s.workers worker ≠ .checking ip true) :
    Watched server { s with tracker := s.tracker.removeIps banned, flushThread := .cleaning } := by
  refine ⟨?_, hw.admitted⟩
  intro worker ip hworker
  have hholds := hw.checking hworker
  have hkeep : server.frontEnd ≠ .http → s.tracker.Holds ip →
      (s.tracker.removeIps banned).Holds ip := by
    rintro hfront ⟨record, hget, hpermanent⟩
    refine ⟨record, ?_, hpermanent⟩
    rw [AutoBanInner.get_removeIps, if_neg fun hip => hbetween hfront ip hip worker hworker]
    exact hget
  cases hfront : server.frontEnd with
  | udp =>
    rw [hfront] at hholds hkeep
    exact hkeep (by rintro ⟨⟩) hholds
  | ws =>
    rw [hfront] at hholds hkeep
    exact hkeep (by rintro ⟨⟩) hholds
  | http =>
    rw [hfront] at hholds
    exact hholds

theorem watched_continueFlush {ok : Bool} (ho : Ordered server s) (hw : Watched server s)
    (hstep : s.continueFlush server ok = some s')
    (hbetween : s.NotBetweenReads server (.continueFlush ok) s') : Watched server s' := by
  unfold continueFlush at hstep
  unfold NotBetweenReads at hbetween
  cases hthread : s.flushThread with
  | sleeping =>
    rw [hthread] at hstep
    cases hstep
    exact watched_of_same hw rfl rfl id (.refl _)
  | waiting banned pendingWrite =>
    rw [hthread] at hstep
    simp only at hstep
    split at hstep
    · cases hstep
    · split at hstep <;> cases hstep <;> exact watched_of_same hw rfl rfl id (.refl _)
  | appending banned pendingWrite =>
    rw [hthread] at hstep
    simp only at hstep
    split at hstep <;> cases hstep <;> exact watched_of_same hw rfl rfl id (.refl _)
  | appended banned pendingWrite =>
    rw [hthread] at hstep
    cases hstep
    have hkeeps : AutoBanInner.Keeps (fun _ => True) (fun _ => True) s.tracker
        (s.tracker.markPersisted pendingWrite) :=
      AutoBanInner.keeps_markPersisted fun _ _ => trivial
    exact watched_of_same hw rfl rfl hkeeps.holds (.refl _)
  | flushed banned =>
    rw [hthread] at hstep
    cases hstep
    exact watched_of_same hw rfl rfl id (.refl _)
  | loaded banned list =>
    rw [hthread] at hstep
    cases hstep
    exact watched_of_same hw rfl rfl id (ho.loaded hthread).1
  | reloaded banned =>
    rw [hthread] at hstep hbetween
    cases hstep
    exact watched_removeIps hw hbetween
  | cleaning =>
    rw [hthread] at hstep
    cases hstep
    have hkeeps : AutoBanInner.Keeps (fun _ => True) (fun _ => True) s.tracker
        (s.tracker.cleanup s.clock) := (s.tracker.pruned_cleanup s.clock).keeps
    exact watched_of_same hw rfl rfl hkeeps.holds (.refl _)

theorem watched_step {act : Action} (hs : Safe server s) (ho : Ordered server s)
    (hw : Watched server s) (hstep : step server s act = some s')
    (hbetween : s.NotBetweenReads server act s') : Watched server s' := by
  rcases stepped hs hstep with hstepped | ⟨ok, rfl, hflush⟩
  · cases hstepped with
    | quiet hquiet =>
      refine ⟨?_, hquiet.admitted.trans hw.admitted⟩
      intro worker ip hworker
      apply (hw.checking (hquiet.checking hworker)).mono hquiet.tracker.holds
      rw [hquiet.ipBanList]
      exact .refl _
    | check worker ip => exact watched_check hs hw worker ip
    | checkAgain ok hworker => exact watched_checkAgain hw hworker
    | signal hidle => exact watched_of_same hw rfl rfl id (.refl _)
    | store hlist => exact watched_of_same hw rfl rfl id (ho.signalled hlist).1
  · exact watched_continueFlush ho hw hflush hbetween

/-- All that holds in a run with one reload at a time. -/
structure Guarded (server : Server) (s : BanStores) : Prop where
  safe : Safe server s
  ordered : Ordered server s
  watched : Watched server s

theorem guarded_init (server : Server) (clock : Instant) (files : Nat → List IpBanEntry) :
    Guarded server (init server clock files) :=
  ⟨safe_init server clock files, ordered_init server clock files, by rintro _ _ ⟨⟩, rfl⟩

theorem guarded_step {act : Action} (h : Guarded server s)
    (hreloads : server.autoBan.banDurationSecs = 0 ∨ server.autoBan.escalationEnabled = true →
      Reloads server)
    (hstep : step server s act = some s')
    (hrun : s.OneReload act s' ∧ s.NotBetweenReads server act s') : Guarded server s' where
  safe := safe_step h.safe hreloads hstep (takenOver_of_ordered h.ordered act s')
  ordered := ordered_step h.safe h.ordered hstep hrun.1
  watched := watched_step h.safe h.ordered h.watched hstep hrun.2

end

/-- With one reload at a time, no front end lets a request through whose address'
ban was completed before, if no ban is taken out of the tracker between the two
reads of a UDP or WebSocket check. -/
theorem completed_bans_refused (server : Server) (canonicalize : Path → Option Path)
    (hvalid : validateAutoBanConfig canonicalize server.autoBan server.ipBan = .ok ())
    (henabled : server.autoBan.enabled = true)
    (hinode : ∀ {a b}, Path.referToSameFile canonicalize a b = true →
      server.inode a = server.inode b)
    (clock : Instant) (files : Nat → List IpBanEntry) (as : List Action)
    (hsteps : AllSteps (step server)
      (fun s act s' => s.OneReload act s' ∧ s.NotBetweenReads server act s')
      (init server clock files) as)
    {s : BanStores} (hrun : run (step server) (init server clock files) as = some s) :
    s.admitted = [] := by
  have hreloads := reloads_of_valid hvalid henabled hinode
  have hguarded : Guarded server s :=
    run_invariant (fun h hstep hrun => guarded_step h hreloads hstep hrun)
      (guarded_init server clock files) hsteps hrun
  exact hguarded.watched.admitted

/-- A check that a flush overtakes between its reads lets its request through. -/
theorem admitted_of_betweenReads {server : Server} {s s' : BanStores} {act : Action}
    (hstep : step server s act = some s') (hbetween : ¬ s.NotBetweenReads server act s') :
    ∃ worker s'', step server s' (.continueWorker worker true) = some s'' ∧ s''.admitted ≠ [] := by
  unfold NotBetweenReads at hbetween
  split at hbetween
  · rename_i ok banned hthread
    simp only [step, continueFlush, hthread, Option.some.injEq] at hstep
    subst hstep
    obtain ⟨hfront, ip, hip, worker, hworker⟩ : server.frontEnd ≠ .http ∧
        ∃ ip ∈ banned, ∃ worker, s.workers worker = .checking ip true := by
      simpa only [not_forall, exists_prop, not_not] using hbetween
    have hgone : (s.tracker.removeIps banned).isAutoBanned ip s.clock = false := by
      rw [AutoBanInner.isAutoBanned, AutoBanInner.get_removeIps, if_pos hip]
      rfl
    have hsecond : server.frontEnd.reads.2 = .tracker := by
      cases hcases : server.frontEnd with
      | udp => rfl
      | ws => rfl
      | http => exact absurd hcases hfront
    refine ⟨worker, { setWorker { s with
        tracker := s.tracker.removeIps banned
        flushThread := .cleaning } worker .idle with admitted := ip :: s.admitted }, ?_,
      List.cons_ne_nil ip s.admitted⟩
    simp only [step, continueWorker, hworker, checkAgain, hsecond, BanStores.bans, hgone,
      Bool.false_eq_true, if_false, if_true]
  · exact absurd trivial hbetween

/-- The same server, run by the HTTP front end. -/
def httpServer : Server := { udpServer with frontEnd := .http }

/-- The list is stored between the two reads, and the ban taken out of the tracker after them. -/
def reloadBetweenReads : List Action :=
  persistBan ++ [.continueFlush true, .continueFlush true, .check 1 crawlerIp] ++
    [.continueFlush true, .continueWorker 1 true, .continueFlush true]

/-- An HTTP check comes when the ban has moved to the list, a UDP check while it does. -/
theorem refused_by_http_and_udp :
    (∃ s, run (step httpServer) (init httpServer ⟨0⟩ fun _ => [])
      (persistBan ++ flushBans ++ [.check 1 crawlerIp, .continueWorker 1 true]) = some s ∧
        s.admitted = []) ∧
    (∃ s, run (step udpServer) (init udpServer ⟨0⟩ fun _ => [])
      (persistBan ++ [.continueFlush true, .continueFlush true, .check 1 crawlerIp]) = some s ∧
        s.workers 1 = .checking crawlerIp true) ∧
    ∃ s, run (step udpServer) (init udpServer ⟨0⟩ fun _ => []) reloadBetweenReads = some s ∧
      s.admitted = [] := by
  have hinode : ∀ {a b : Path}, Path.referToSameFile some a b = true →
      udpServer.inode a = udpServer.inode b := by
    intro a b h
    simp only [udpServer, components_eq_of_same h]
  refine ⟨⟨_, rfl, ?_⟩, ⟨_, rfl, rfl⟩, ⟨_, rfl, ?_⟩⟩
  · refine completed_bans_refused httpServer some udpServer_valid rfl hinode ⟨0⟩ (fun _ => [])
      (persistBan ++ flushBans ++ [.check 1 crawlerIp, .continueWorker 1 true]) ?_ rfl
    refine .cons rfl ⟨trivial, trivial⟩ (.cons rfl ⟨trivial, trivial⟩ (.cons rfl ⟨trivial, trivial⟩
      (.cons rfl ⟨trivial, trivial⟩ (.cons rfl ⟨trivial, trivial⟩ (.cons rfl ⟨rfl, trivial⟩
      (.cons rfl ⟨trivial, trivial⟩ (.cons rfl ⟨trivial, fun h => absurd rfl h⟩
      (.cons rfl ⟨trivial, trivial⟩ (.cons rfl ⟨trivial, trivial⟩ trivial)))))))))
  · refine completed_bans_refused udpServer some udpServer_valid rfl hinode ⟨0⟩ (fun _ => [])
      reloadBetweenReads ?_ rfl
    refine .cons rfl ⟨trivial, trivial⟩ (.cons rfl ⟨trivial, trivial⟩ (.cons rfl ⟨trivial, trivial⟩
      (.cons rfl ⟨trivial, trivial⟩ (.cons rfl ⟨trivial, trivial⟩ (.cons rfl ⟨rfl, trivial⟩
      (.cons rfl ⟨trivial, trivial⟩ (.cons rfl ⟨trivial, trivial⟩ (.cons rfl ⟨trivial, trivial⟩
      (.cons rfl ⟨trivial, ?_⟩ trivial)))))))))
    intro _ ip _ worker hworker
    -- The check has ended, and there are no other workers.
    rcases worker with _ | _ | worker <;> cases hworker

/-- The ban moves to the list between the two reads. -/
def overtakenCheck : List Action :=
  persistBan ++ [.continueFlush true, .continueFlush true, .check 1 crawlerIp,
    .continueFlush true, .continueFlush true, .continueWorker 1 true]

/-- The run has one reload at a time, and lets the request through. -/
def LetsThrough (server : Server) (as : List Action) : Prop :=
  AllSteps (step server) OneReload (init server ⟨0⟩ fun _ => []) as ∧
    ∃ s, run (step server) (init server ⟨0⟩ fun _ => []) as = some s ∧ s.admitted = [crawlerIp]

theorem admitted_by_udp_and_ws :
    validateAutoBanConfig some udpServer.autoBan udpServer.ipBan = .ok () ∧
      LetsThrough udpServer overtakenCheck ∧
      LetsThrough { udpServer with frontEnd := .ws } overtakenCheck := by
  refine ⟨udpServer_valid, ⟨?_, _, rfl, rfl⟩, ⟨?_, _, rfl, rfl⟩⟩ <;>
    exact .cons rfl trivial (.cons rfl trivial (.cons rfl trivial (.cons rfl trivial
      (.cons rfl trivial (.cons rfl rfl (.cons rfl trivial (.cons rfl trivial
      (.cons rfl trivial (.cons rfl trivial trivial)))))))))

end BanStores

end Aquatic.AutoBan
