import Aquatic.Lib.Transition
import Mathlib.Data.List.Perm.Subperm

/-!
# Statistics of the UDP tracker

Socket workers add to counters of their own while the statistics worker goes through all
counters, one at a time, and sets each back to zero as it reads it. Rates, the texts they are
shown as, histograms and peer clients are left out.
-/

namespace Aquatic.Udp
open Transition
set_option autoImplicit false

inductive IpVersion where
  | v4
  | v6
  deriving DecidableEq, Repr

structure IpVersionStatistics (T : Type) where
  ipv4 : T
  ipv6 : T

def IpVersionStatistics.byIpVersion {T : Type} (self : IpVersionStatistics T) : IpVersion → T
  | .v4 => self.ipv4
  | .v6 => self.ipv6

def IpVersionStatistics.set {T : Type} (self : IpVersionStatistics T) (ipVersion : IpVersion)
    (value : T) : IpVersionStatistics T :=
  match ipVersion with
  | .v4 => { self with ipv4 := value }
  | .v6 => { self with ipv6 := value }

inductive Counter where
  | requests
  | responsesConnect
  | responsesAnnounce
  | responsesScrape
  | responsesError
  | bytesReceived
  | bytesSent
  deriving DecidableEq, Repr

/-- In the order in which they are collected. -/
def Counter.all : List Counter :=
  [.requests, .responsesConnect, .responsesAnnounce, .responsesScrape, .responsesError,
    .bytesReceived, .bytesSent]

abbrev SocketWorkerStatistics := Counter → UInt64

structure SwarmWorkerStatistics where
  torrents : UInt64
  peers : UInt64
  deriving DecidableEq, Repr

structure Statistics where
  socket : List (IpVersionStatistics SocketWorkerStatistics)
  swarm : IpVersionStatistics SwarmWorkerStatistics

namespace Statistics

def new (socketWorkers : Nat) : Statistics where
  socket := List.replicate socketWorkers ⟨fun _ => 0, fun _ => 0⟩
  swarm := ⟨⟨0, 0⟩, ⟨0, 0⟩⟩

def get (self : Statistics) (worker : Nat) (ipVersion : IpVersion) (counter : Counter) :
    Option UInt64 :=
  self.socket[worker]?.map fun statistics => statistics.byIpVersion ipVersion counter

def set (self : Statistics) (worker : Nat) (ipVersion : IpVersion) (counter : Counter)
    (value : UInt64) : Statistics :=
  { self with
    socket := self.socket.modify worker fun statistics =>
      statistics.set ipVersion fun c =>
        if c = counter then value else statistics.byIpVersion ipVersion c }

end Statistics

def ipVersionOf (isIpv4 : Bool) : IpVersion := if isIpv4 then .v4 else .v6

/-- Bytes of a packet in addition to its payload. -/
def extraPacketSize : IpVersion → UInt64
  | .v4 => 8 + 18 + 20 + 8
  | .v6 => 8 + 18 + 40 + 8

/-- An amount that is added to a counter. -/
abbrev Added := IpVersion × Counter × UInt64

def receivedBytes (isIpv4 : Bool) (len : UInt64) : Added :=
  (ipVersionOf isIpv4, .bytesReceived, len + extraPacketSize (ipVersionOf isIpv4))

/-- For a response of so many bytes, with the counter for its type. -/
def sentResponse (isIpv4 : Bool) (counter : Counter) (bytes : UInt64) : List Added :=
  [(ipVersionOf isIpv4, .bytesSent, bytes + extraPacketSize (ipVersionOf isIpv4)),
    (ipVersionOf isIpv4, counter, 1)]

/-- Whether the counter is for what has been sent. -/
def isSentCounter (added : Added) : Bool :=
  added.2.1 ≠ .requests ∧ added.2.1 ≠ .bytesReceived

/-- A worker adds an amount to one of its counters. -/
structure Count where
  worker : Nat
  ipVersion : IpVersion
  counter : Counter
  amount : UInt64
  deriving DecidableEq, Repr

def Count.isIn (ipVersion : IpVersion) (place : Nat × Counter) (count : Count) : Bool :=
  count.ipVersion = ipVersion ∧ (count.worker, count.counter) = place

/-- No count is in two counters. -/
theorem isIn_of_ne {count : Count} {ipVersion ipVersion' : IpVersion} {place place' : Nat × Counter}
    (h : count.isIn ipVersion' place') (hne : ¬(ipVersion' = ipVersion ∧ place' = place)) :
    count.isIn ipVersion place = false := by
  obtain ⟨hversion, hplace⟩ := of_decide_eq_true h
  refine decide_eq_false fun hsame => hne ⟨hversion.symm.trans hsame.1, ?_⟩
  exact hplace.symm.trans hsame.2

theorem filter_counter_isIn (counts : List Count) (ipVersion : IpVersion) (worker : Nat)
    (counter counter' : Counter) :
    ((counts.filter (Count.isIn ipVersion (worker, counter))).filter fun count =>
      count.counter = counter') =
      if counter' = counter then counts.filter (Count.isIn ipVersion (worker, counter)) else [] := by
  split
  · rename_i heq
    apply List.filter_eq_self.mpr
    intro count hcount
    obtain ⟨_, hplace⟩ := of_decide_eq_true (List.mem_filter.mp hcount).2
    cases hplace
    exact decide_eq_true heq.symm
  · rename_i hne
    apply List.filter_eq_nil_iff.mpr
    intro count hcount hcounter
    obtain ⟨_, hplace⟩ := of_decide_eq_true (List.mem_filter.mp hcount).2
    cases hplace
    exact hne (of_decide_eq_true hcounter).symm

/-- What is still to be read is in the next counter or in those after it. -/
theorem subperm_split (counts : List Count) (ipVersion : IpVersion) (place : Nat × Counter)
    (rest : List (Nat × Counter)) :
    (counts.filter fun count =>
      count.ipVersion = ipVersion ∧ (count.worker, count.counter) ∈ place :: rest).Subperm
      (counts.filter (Count.isIn ipVersion place) ++
        (counts.filter fun count => !Count.isIn ipVersion place count).filter fun count =>
          count.ipVersion = ipVersion ∧ (count.worker, count.counter) ∈ rest) := by
  refine ((List.filter_append_perm (Count.isIn ipVersion place) _).symm.subperm).trans ?_
  refine List.Subperm.append (List.filter_sublist.filter _).subperm ?_
  rw [List.filter_filter, List.filter_filter]
  refine (List.monotone_filter_right _ ?_).subperm
  intro count hcount
  obtain ⟨hnotIn, hcount⟩ := Bool.and_eq_true_iff.mp hcount
  obtain ⟨hversion, hplace⟩ := of_decide_eq_true hcount
  refine Bool.and_eq_true_iff.mpr ⟨decide_eq_true ⟨hversion, ?_⟩, hnotIn⟩
  rcases List.mem_cons.mp hplace with hplace | hplace
  · rw [Count.isIn, decide_eq_true ⟨hversion, hplace⟩] at hnotIn
    cases hnotIn
  · exact hplace

/-- `rest` is what is still to be read. Of what has been counted, `before` had been when the
collector started, and `read` it has read. -/
structure Collecting where
  ipVersion : IpVersion
  sums : Counter → UInt64
  rest : List (Nat × Counter)
  before : List Count
  read : List Count

structure CollectedStatistics where
  ipVersion : IpVersion
  sums : Counter → UInt64
  numTorrents : UInt64
  numPeers : UInt64
  before : List Count
  read : List Count

/-- `counted` records all that has been counted, `unread` what is in the counters. -/
structure StatisticsWorker where
  statistics : Statistics
  collecting : Option Collecting
  collected : List CollectedStatistics
  counted : List Count
  unread : List Count

namespace StatisticsWorker

inductive Action where
  | fetchAdd (count : Count)
  | store (ipVersion : IpVersion) (torrents peers : UInt64)
  | start (ipVersion : IpVersion)
  | fetchAnd
  | finish
  deriving DecidableEq, Repr

def init (socketWorkers : Nat) : StatisticsWorker where
  statistics := .new socketWorkers
  collecting := none
  collected := []
  counted := []
  unread := []

def fetchAdd (s : StatisticsWorker) (count : Count) : Option StatisticsWorker := do
  let n ← s.statistics.get count.worker count.ipVersion count.counter
  return { s with
    statistics :=
      s.statistics.set count.worker count.ipVersion count.counter (n + count.amount)
    counted := s.counted ++ [count]
    unread := s.unread ++ [count] }

/-- All counters of an IP version, worker by worker. -/
def places (socketWorkers : Nat) : List (Nat × Counter) :=
  (List.range socketWorkers).flatMap fun worker => Counter.all.map fun counter => (worker, counter)

def start (s : StatisticsWorker) (ipVersion : IpVersion) : StatisticsWorker :=
  { s with
    collecting := some
      { ipVersion
        sums := fun _ => 0
        rest := places s.statistics.socket.length
        before := s.unread.filter fun count => count.ipVersion = ipVersion
        read := [] } }

def fetchAnd (s : StatisticsWorker) (c : Collecting) : Option StatisticsWorker :=
  match c.rest with
  | [] => none
  | (worker, counter) :: rest => do
    let n ← s.statistics.get worker c.ipVersion counter
    let isIn := Count.isIn c.ipVersion (worker, counter)
    return { s with
      statistics := s.statistics.set worker c.ipVersion counter (n &&& 0)
      collecting := some { c with
        sums := fun other => if other = counter then c.sums counter + n else c.sums other
        rest
        read := c.read ++ s.unread.filter isIn }
      unread := s.unread.filter fun count => !isIn count }

def finish (s : StatisticsWorker) (c : Collecting) : Option StatisticsWorker :=
  if c.rest = [] then
    let swarm := s.statistics.swarm.byIpVersion c.ipVersion
    some { s with
      collecting := none
      collected := s.collected ++
        [⟨c.ipVersion, c.sums, swarm.torrents, swarm.peers, c.before, c.read⟩] }
  else none

def step (s : StatisticsWorker) : Action → Option StatisticsWorker
  | .fetchAdd count => s.fetchAdd count
  | .store ipVersion torrents peers =>
    some { s with
      statistics := { s.statistics with
        swarm := s.statistics.swarm.set ipVersion ⟨torrents, peers⟩ } }
  | .start ipVersion => if s.collecting.isNone then some (s.start ipVersion) else none
  | .fetchAnd => s.collecting.bind s.fetchAnd
  | .finish => s.collecting.bind s.finish

end StatisticsWorker

namespace Statistics
variable {self : Statistics} {worker : Nat} {ipVersion : IpVersion} {counter : Counter}

theorem length_set (value : UInt64) :
    (self.set worker ipVersion counter value).socket.length = self.socket.length :=
  List.length_modify ..

theorem get_eq_some_of_lt (h : worker < self.socket.length) (ipVersion : IpVersion)
    (counter : Counter) : ∃ n, self.get worker ipVersion counter = some n := by
  rw [get, List.getElem?_eq_getElem h]
  exact ⟨_, rfl⟩

theorem lt_of_get {n : UInt64} (h : self.get worker ipVersion counter = some n) :
    worker < self.socket.length := by
  obtain ⟨statistics, hstatistics, _⟩ := Option.map_eq_some_iff.mp h
  exact (List.getElem?_eq_some_iff.mp hstatistics).1

theorem byIpVersion_set {T : Type} (statistics : IpVersionStatistics T) (value : T)
    (v v' : IpVersion) :
    (statistics.set v value).byIpVersion v' = if v' = v then value else statistics.byIpVersion v' := by
  cases v <;> cases v' <;> rfl

/-- Only the counter that is written to changes. -/
theorem get_set (h : worker < self.socket.length) (value : UInt64) (worker' : Nat)
    (ipVersion' : IpVersion) (counter' : Counter) :
    (self.set worker ipVersion counter value).get worker' ipVersion' counter' =
      if ipVersion' = ipVersion ∧ (worker', counter') = (worker, counter) then some value
      else self.get worker' ipVersion' counter' := by
  rw [get, get, set, List.getElem?_modify]
  by_cases hworker : worker = worker'
  · subst hworker
    rw [List.getElem?_eq_getElem h]
    simp only [if_true, Option.map_eq_map, Option.map_some, byIpVersion_set]
    by_cases hversion : ipVersion' = ipVersion
    · subst hversion
      by_cases hcounter : counter' = counter
      · simp [hcounter]
      · simp [hcounter]
    · simp [hversion]
  · simp [hworker, Ne.symm hworker]

end Statistics

def total (counts : List Count) : UInt64 := counts.foldr (fun count sum => count.amount + sum) 0

theorem total_append (counts counts' : List Count) :
    total (counts ++ counts') = total counts + total counts' := by
  induction counts with
  | nil => exact (UInt64.zero_add _).symm
  | cons count counts ih =>
    refine (congrArg (count.amount + ·) ih).trans ?_
    exact (UInt64.add_assoc _ _ _).symm

/-- The counts of a report: those that it adds up are all those made before it was started and
not read before. -/
structure CollectedStatistics.Exact (report : CollectedStatistics) : Prop where
  sums : ∀ counter, report.sums counter =
    total (report.read.filter fun count => count.counter = counter)
  ipVersion : ∀ count ∈ report.read, count.ipVersion = report.ipVersion
  before : report.before.Subperm report.read

/-- A collection under way. -/
structure Collecting.Sound (socketWorkers : Nat) (unread : List Count) (c : Collecting) :
    Prop where
  places : ∀ place ∈ c.rest, place ∈ StatisticsWorker.places socketWorkers
  sums : ∀ counter, c.sums counter = total (c.read.filter fun count => count.counter = counter)
  ipVersion : ∀ count ∈ c.read, count.ipVersion = c.ipVersion
  before : c.before.Subperm (c.read ++ unread.filter fun count =>
    count.ipVersion = c.ipVersion ∧ (count.worker, count.counter) ∈ c.rest)

namespace StatisticsWorker
variable {socketWorkers : Nat} {s s' : StatisticsWorker}

def reading (s : StatisticsWorker) : List Count := s.collecting.elim [] Collecting.read

structure Sound (socketWorkers : Nat) (s : StatisticsWorker) : Prop where
  length : s.statistics.socket.length = socketWorkers
  stored : ∀ worker ipVersion counter, worker < socketWorkers →
    s.statistics.get worker ipVersion counter =
      some (total (s.unread.filter (Count.isIn ipVersion (worker, counter))))
  workers : ∀ count ∈ s.unread, count.worker < socketWorkers
  once : s.counted.Perm (s.collected.flatMap CollectedStatistics.read ++ s.reading ++ s.unread)
  collecting : ∀ c, s.collecting = some c → c.Sound socketWorkers s.unread
  collected : ∀ report ∈ s.collected, report.Exact

theorem sound_init (socketWorkers : Nat) : (init socketWorkers).Sound socketWorkers where
  length := List.length_replicate
  stored := by
    intro worker ipVersion counter hworker
    rw [Statistics.get]
    have hget : (List.replicate socketWorkers
        (⟨fun _ => 0, fun _ => 0⟩ : IpVersionStatistics SocketWorkerStatistics))[worker]? =
        some ⟨fun _ => 0, fun _ => 0⟩ := by
      rw [List.getElem?_replicate, if_pos hworker]
    refine (congrArg _ hget).trans ?_
    cases ipVersion <;> rfl
  workers := by
    intro count hcount
    cases hcount
  once := List.Perm.nil
  collecting := by
    intro c hc
    cases hc
  collected := by
    intro report hreport
    cases hreport

theorem mem_places {worker : Nat} {counter : Counter} :
    (worker, counter) ∈ places socketWorkers ↔ worker < socketWorkers := by
  constructor
  · intro h
    obtain ⟨w, hw, h⟩ := List.mem_flatMap.mp h
    obtain ⟨c, _, h⟩ := List.mem_map.mp h
    cases h
    exact List.mem_range.mp hw
  · intro h
    refine List.mem_flatMap.mpr ⟨worker, List.mem_range.mpr h, List.mem_map.mpr ⟨counter, ?_, rfl⟩⟩
    cases counter <;> decide

theorem sound_fetchAdd {count : Count} (h : s.Sound socketWorkers)
    (hstep : s.fetchAdd count = some s') : s'.Sound socketWorkers := by
  obtain ⟨n, hn, hstep⟩ := Option.bind_eq_some_iff.mp hstep
  cases hstep
  have hlength := Statistics.lt_of_get hn
  have hworker : count.worker < socketWorkers := h.length ▸ hlength
  have hstored := h.stored count.worker count.ipVersion count.counter hworker
  rw [hn] at hstored
  obtain rfl := Option.some.inj hstored
  refine ⟨(Statistics.length_set _).trans h.length, ?_, ?_, ?_, ?_, h.collected⟩
  · intro worker ipVersion counter hlt
    rw [Statistics.get_set hlength, h.stored worker ipVersion counter hlt, List.filter_append,
      total_append]
    split
    · rename_i hplace
      obtain ⟨rfl, hplace⟩ := hplace
      cases hplace
      rw [List.filter_cons_of_pos (by simp [Count.isIn])]
      simp [total]
    · rename_i hplace
      rw [List.filter_cons_of_neg]
      · simp [total]
      · intro hisIn
        obtain ⟨hversion, hsame⟩ := of_decide_eq_true hisIn
        exact hplace ⟨hversion.symm, hsame.symm⟩
  · intro x hx
    rcases List.mem_append.mp hx with hx | hx
    · exact h.workers x hx
    · rw [List.mem_singleton.mp hx]
      exact hworker
  · have honce := h.once.append_right [count]
    rw [List.append_assoc] at honce
    exact honce
  · intro c hc
    obtain ⟨hplaces, hsums, hversion, hbefore⟩ := h.collecting c hc
    refine ⟨hplaces, hsums, hversion, hbefore.trans ?_⟩
    rw [List.filter_append, ← List.append_assoc]
    exact (List.sublist_append_left _ _).subperm

theorem sound_start (h : s.Sound socketWorkers) (hnone : s.collecting = none)
    (ipVersion : IpVersion) : (s.start ipVersion).Sound socketWorkers := by
  have honce := h.once
  rw [reading, hnone] at honce
  refine ⟨h.length, h.stored, h.workers, honce, ?_, h.collected⟩
  intro c hc
  cases hc
  refine ⟨?_, fun _ => rfl, ?_, ?_⟩
  · rw [h.length]
    exact fun _ hplace => hplace
  · intro count hcount
    cases hcount
  · rw [List.nil_append, h.length]
    refine (List.Perm.of_eq (List.filter_congr ?_)).subperm
    intro count hcount
    have hplace : (count.worker, count.counter) ∈ places socketWorkers :=
      mem_places.mpr (h.workers count hcount)
    exact decide_eq_decide.mpr ⟨fun hversion => ⟨hversion, hplace⟩, And.left⟩

theorem sound_fetchAnd {c : Collecting} (h : s.Sound socketWorkers) (hc : s.collecting = some c)
    (hstep : s.fetchAnd c = some s') : s'.Sound socketWorkers := by
  rw [fetchAnd] at hstep
  split at hstep
  · cases hstep
  rename_i worker counter rest hrest
  obtain ⟨n, hn, hstep⟩ := Option.bind_eq_some_iff.mp hstep
  cases hstep
  obtain ⟨hplaces, hsums, hversion, hbefore⟩ := h.collecting c hc
  have hlength := Statistics.lt_of_get hn
  have hstored := h.stored worker c.ipVersion counter (h.length ▸ hlength)
  rw [hn] at hstored
  obtain rfl := Option.some.inj hstored
  have hsplit := List.filter_append_perm (Count.isIn c.ipVersion (worker, counter)) s.unread
  refine ⟨(Statistics.length_set _).trans h.length, ?_, ?_, ?_, ?_, h.collected⟩
  · intro worker' ipVersion' counter' hlt
    rw [Statistics.get_set hlength, h.stored worker' ipVersion' counter' hlt, List.filter_filter]
    split
    · rename_i hplace
      obtain ⟨rfl, hplace⟩ := hplace
      cases hplace
      have hnone : (s.unread.filter fun count => Count.isIn c.ipVersion (worker, counter) count &&
          !Count.isIn c.ipVersion (worker, counter) count) = [] := by
        apply List.filter_eq_nil_iff.mpr
        intro count _
        simp
      rw [hnone]
      exact congrArg some UInt64.and_zero
    · rename_i hplace
      refine congrArg (fun counts => some (total counts)) (List.filter_congr ?_)
      intro count _
      cases hcount : Count.isIn ipVersion' (worker', counter') count with
      | false => rfl
      | true =>
        have hne := isIn_of_ne hcount hplace
        rw [hne]
        rfl
  · intro count hcount
    exact h.workers count (List.mem_filter.mp hcount).1
  · have honce := h.once
    rw [reading, hc] at honce
    refine honce.trans ?_
    simp only [reading, Option.elim_some, List.append_assoc]
    exact (hsplit.symm.append_left _).append_left _
  · intro c' hc'
    cases hc'
    refine ⟨?_, ?_, ?_, ?_⟩
    · intro place hplace
      exact hplaces place (hrest ▸ List.mem_cons_of_mem _ hplace)
    · intro counter'
      rw [List.filter_append, total_append, ← hsums counter', filter_counter_isIn]
      by_cases heq : counter' = counter
      · subst heq
        simp only [if_true]
      · simp only [if_neg heq]
        exact (UInt64.add_zero _).symm
    · intro count hcount
      rcases List.mem_append.mp hcount with hcount | hcount
      · exact hversion count hcount
      · exact (of_decide_eq_true (List.mem_filter.mp hcount).2).1
    · refine hbefore.trans ?_
      rw [List.append_assoc]
      refine (List.subperm_append_left _).mpr ?_
      rw [hrest]
      exact subperm_split ..

theorem sound_finish {c : Collecting} (h : s.Sound socketWorkers) (hc : s.collecting = some c)
    (hstep : s.finish c = some s') : s'.Sound socketWorkers := by
  obtain ⟨hrest, heq⟩ := Option.ite_none_right_eq_some.mp hstep
  cases heq
  obtain ⟨_, hsums, hversion, hbefore⟩ := h.collecting c hc
  have honce := h.once
  rw [reading, hc] at honce
  refine ⟨h.length, h.stored, h.workers, ?_, ?_, ?_⟩
  · rw [List.flatMap_append]
    simpa [reading] using honce
  · intro c' hc'
    cases hc'
  · intro report hreport
    rcases List.mem_append.mp hreport with hreport | hreport
    · exact h.collected report hreport
    · rw [List.mem_singleton.mp hreport]
      refine ⟨hsums, hversion, ?_⟩
      rw [hrest] at hbefore
      simpa using hbefore

theorem sound_step {a : Action} (h : s.Sound socketWorkers) (hstep : s.step a = some s') :
    s'.Sound socketWorkers := by
  cases a with
  | fetchAdd count => exact sound_fetchAdd h hstep
  | store ipVersion torrents peers =>
    cases hstep
    exact ⟨h.length, h.stored, h.workers, h.once, h.collecting, h.collected⟩
  | start ipVersion =>
    obtain ⟨hnone, heq⟩ := Option.ite_none_right_eq_some.mp hstep
    cases heq
    exact sound_start h (Option.isNone_iff_eq_none.mp hnone) ipVersion
  | fetchAnd =>
    obtain ⟨c, hc, hstep⟩ := Option.bind_eq_some_iff.mp hstep
    exact sound_fetchAnd h hc hstep
  | finish =>
    obtain ⟨c, hc, hstep⟩ := Option.bind_eq_some_iff.mp hstep
    exact sound_finish h hc hstep

/-- What holds of the counts in every state. -/
structure Exact (socketWorkers : Nat) (s : StatisticsWorker) : Prop where
  once : s.counted.Perm (s.collected.flatMap CollectedStatistics.read ++ s.reading ++ s.unread)
  counters : ∀ worker ipVersion counter, worker < socketWorkers →
    s.statistics.get worker ipVersion counter =
      some (total (s.unread.filter (Count.isIn ipVersion (worker, counter))))
  reports : ∀ report ∈ s.collected, report.Exact
  counts : ∀ count : Count, count.worker < socketWorkers → ∃ s', s.step (.fetchAdd count) = some s'
  collects : ∀ c, s.collecting = some c →
    ∃ a s', (a = .fetchAnd ∨ a = .finish) ∧ s.step a = some s'

theorem Sound.collects {c : Collecting} (h : s.Sound socketWorkers) (hc : s.collecting = some c) :
    ∃ a s', (a = .fetchAnd ∨ a = .finish) ∧ s.step a = some s' := by
  cases hrest : c.rest with
  | nil =>
    refine ⟨.finish, ?_⟩
    rw [step, hc, Option.bind_some, finish, if_pos hrest]
    exact ⟨_, .inr rfl, rfl⟩
  | cons place rest =>
    obtain ⟨worker, counter⟩ := place
    have hplace := (h.collecting c hc).places _ (hrest ▸ List.mem_cons_self)
    have hlt : worker < s.statistics.socket.length := h.length ▸ mem_places.mp hplace
    obtain ⟨n, hn⟩ := Statistics.get_eq_some_of_lt hlt c.ipVersion counter
    have hstep : ∃ s', s.step .fetchAnd = some s' := by
      rw [step, hc, Option.bind_some, fetchAnd, hrest]
      simp only [hn]
      exact ⟨_, rfl⟩
    obtain ⟨s', hs'⟩ := hstep
    exact ⟨.fetchAnd, s', .inl rfl, hs'⟩

theorem statistics_collected_once {socketWorkers : Nat} {s : StatisticsWorker}
    (h : Reachable step (init socketWorkers) s) : s.Exact socketWorkers := by
  have hsound := invariant_of_reachable sound_step (sound_init socketWorkers) h
  refine ⟨hsound.once, hsound.stored, hsound.collected, ?_, fun c hc => hsound.collects hc⟩
  intro count hcount
  have hlt : count.worker < s.statistics.socket.length := hsound.length ▸ hcount
  obtain ⟨n, hn⟩ := Statistics.get_eq_some_of_lt hlt count.ipVersion count.counter
  rw [step, fetchAdd, hn]
  exact ⟨_, rfl⟩

/-- A request that is counted while the collector has just read the counter. -/
def lateRequestRun : List Action :=
  [.fetchAdd ⟨0, .v4, .requests, 1⟩, .start .v4, .fetchAnd, .fetchAdd ⟨0, .v4, .requests, 1⟩,
    .fetchAnd, .fetchAnd, .fetchAnd, .fetchAnd, .fetchAnd, .fetchAnd, .finish]

theorem statistics_collected_once_lateRequest :
    ∃ s, run step (init 1) lateRequestRun = some s ∧ s.Exact 1 := by
  have hrun : (run step (init 1) lateRequestRun).isSome = true := by decide
  obtain ⟨s, hs⟩ := Option.isSome_iff_exists.mp hrun
  exact ⟨s, hs, statistics_collected_once ⟨lateRequestRun, hs⟩⟩

end StatisticsWorker

end Aquatic.Udp
