import Aquatic.AutoBan.Tracker
import Aquatic.Common.IpBan

/-!
# The two ban stores

A permanent ban is in the tracker first. The worker that issued it appends it to
the ban list file, the flush thread catches up on what the workers could not
write, reloads the list from the file and takes the bans out of the tracker. The
signal thread reloads the list as well. Everything done under one lock is one
step, and so is taking a free lock together with the first access under it. A
write to the file adds all of its lines or none.
-/

namespace Aquatic.AutoBan
set_option autoImplicit false

inductive FrontEnd where
  | udp
  | ws
  | http
  deriving DecidableEq, Repr

inductive BanStore where
  | ipBanList
  | tracker
  deriving DecidableEq, Repr

/-- The order of the two reads of a security check. -/
def FrontEnd.reads : FrontEnd → BanStore × BanStore
  | udp | ws => (.ipBanList, .tracker)
  | http => (.tracker, .ipBanList)

/-- What a process is started with; `inode` is the file that a path opens. -/
structure Server where
  frontEnd : FrontEnd
  autoBan : AutoBanConfig
  ipBan : IpBanConfig
  inode : Path → Nat

namespace Server

def tracker (server : Server) : AutoBanTracker := .fromConfig server.autoBan

def banListFile (server : Server) : Nat := server.inode server.autoBan.banListPath

def ipBanFile (server : Server) : Nat := server.inode server.ipBan.path

end Server

/-- Where a socket worker is. -/
inductive Worker where
  | idle
  /-- It waits for the write lock with a permanent ban. -/
  | persisting (ip : IpAddr)
  | appending (ip : IpAddr)
  | appended (ip : IpAddr)
  /-- The store that it read first does not ban the address; `due` says that the
  ban of the address was completed when it started. -/
  | checking (ip : IpAddr) (due : Bool)
  deriving DecidableEq, Repr

/-- Where the flush thread is. -/
inductive FlushThread where
  | sleeping
  /-- It waits for the write lock. -/
  | waiting (banned pendingWrite : List IpAddr)
  | appending (banned pendingWrite : List IpAddr)
  | appended (banned pendingWrite : List IpAddr)
  | flushed (banned : List IpAddr)
  | loaded (banned : List IpAddr) (list : IpBanList)
  | reloaded (banned : List IpAddr)
  | cleaning
  deriving DecidableEq

/-- The shared state, and the record of the permanent bans that were issued, of
those whose `record_violation` has returned, and of the requests that were let
through although the ban of their address was completed before. -/
structure BanStores where
  tracker : AutoBanInner
  clock : Instant
  files : Nat → List IpBanEntry
  ipBanList : IpBanList
  writeLock : Bool
  workers : Nat → Worker
  flushThread : FlushThread
  signalThread : Option IpBanList
  issued : List IpAddr
  returned : List IpAddr
  admitted : List IpAddr

namespace BanStores

/-- Threads go on where they are; `ok` says whether the file can be accessed. -/
inductive Action where
  | recordViolation (worker : Nat) (ip : IpAddr) (reason : AutoBanReason)
  | check (worker : Nat) (ip : IpAddr)
  | continueWorker (worker : Nat) (ok : Bool)
  | continueFlush (ok : Bool)
  | signal (ok : Bool)
  | storeSignalled
  | edit (entries : List IpBanEntry)
  | tick (clock : Instant)

/-- What reading the ban list file gives. -/
def load (server : Server) (s : BanStores) : IpBanList := .fromEntries (s.files server.ipBanFile)

def init (server : Server) (clock : Instant) (files : Nat → List IpBanEntry) : BanStores where
  tracker := server.tracker.inner
  clock := clock
  files := files
  ipBanList :=
    if server.ipBan.mode = .on then .fromEntries (files server.ipBanFile) else .empty
  writeLock := false
  workers := fun _ => .idle
  flushThread := .sleeping
  signalThread := none
  issued := []
  returned := []
  admitted := []

def setWorker (s : BanStores) (worker : Nat) (state : Worker) : BanStores :=
  { s with workers := fun w => if w = worker then state else s.workers w }

def append (s : BanStores) (file : Nat) (entries : List IpBanEntry) : BanStores :=
  { s with files := fun f => if f = file then s.files f ++ entries else s.files f }

/-- `record_violation` is over for a permanent ban. -/
def returns (s : BanStores) (worker : Nat) (ip : IpAddr) : BanStores :=
  { s.setWorker worker .idle with returned := ip :: s.returned }

def bans (server : Server) (s : BanStores) (ip : IpAddr) : BanStore → Bool
  | .ipBanList => decide (server.ipBan.mode = .on) && s.ipBanList.isBanned ip
  | .tracker => s.tracker.isAutoBanned ip s.clock

/-- The ban of the address has been issued and written, and its worker is done. -/
def completed (server : Server) (s : BanStores) (ip : IpAddr) : Bool :=
  s.returned.contains ip && (s.files server.banListFile).contains (.address ip)

def recordViolation (server : Server) (s : BanStores) (worker : Nat) (ip : IpAddr)
    (reason : AutoBanReason) : BanStores :=
  let (banned, permanent, tracker) :=
    s.tracker.recordViolation server.tracker.policy ip reason s.clock
  let s := { s with tracker }
  if banned && permanent then
    let s := { s with issued := ip :: s.issued }
    match server.tracker.banListPath with
    | some _ => s.setWorker worker (.persisting ip)
    | none => s.returns worker ip
  else s

/-- The first read of a security check. -/
def check (server : Server) (s : BanStores) (worker : Nat) (ip : IpAddr) : BanStores :=
  if s.bans server ip server.frontEnd.reads.1 then s
  else s.setWorker worker (.checking ip (s.completed server ip))

/-- The second read of a security check. -/
def checkAgain (server : Server) (s : BanStores) (worker : Nat) (ip : IpAddr) (due : Bool) :
    BanStores :=
  if s.bans server ip server.frontEnd.reads.2 then s.setWorker worker .idle
  else
    { s.setWorker worker .idle with admitted := if due then ip :: s.admitted else s.admitted }

def continueWorker (server : Server) (s : BanStores) (worker : Nat) (ok : Bool) :
    Option BanStores :=
  match s.workers worker with
  | .idle => none
  | .persisting ip =>
    if s.writeLock then none
    else if s.tracker.needsPersisting ip then
      some ({ s with writeLock := true }.setWorker worker (.appending ip))
    else some (s.returns worker ip)
  | .appending ip =>
    if ok then some ((s.append server.banListFile [.address ip]).setWorker worker (.appended ip))
    else some ({ s with writeLock := false }.returns worker ip)
  | .appended ip =>
    some ({ s with tracker := s.tracker.markBan ip, writeLock := false }.returns worker ip)
  | .checking ip due => some (s.checkAgain server worker ip due)

/-- The first step of `flush_to_file`. -/
def flush (server : Server) (s : BanStores) : FlushThread :=
  let (banned, pendingWrite) := s.tracker.permanentBans server.autoBan.escalationEnabled s.clock
  if banned.isEmpty || server.tracker.banListPath.isNone then .cleaning
  else if pendingWrite.isEmpty then .flushed banned
  else .waiting banned pendingWrite

def continueFlush (server : Server) (s : BanStores) (ok : Bool) : Option BanStores :=
  match s.flushThread with
  | .sleeping =>
    some { s with flushThread := if server.ipBan.mode = .on then s.flush server else .cleaning }
  | .waiting banned pendingWrite =>
    if s.writeLock then none
    else
      let pendingWrite := s.tracker.stillPending pendingWrite
      if pendingWrite.isEmpty then some { s with flushThread := .flushed banned }
      else some { s with writeLock := true, flushThread := .appending banned pendingWrite }
  | .appending banned pendingWrite =>
    if ok then
      some { s.append server.banListFile (pendingWrite.map .address) with
        flushThread := .appended banned pendingWrite }
    else some { s with writeLock := false, flushThread := .cleaning }
  | .appended banned pendingWrite =>
    some { s with
      tracker := s.tracker.markPersisted pendingWrite
      writeLock := false
      flushThread := .flushed banned }
  | .flushed banned =>
    some { s with flushThread := if ok then .loaded banned (s.load server) else .cleaning }
  | .loaded banned list => some { s with ipBanList := list, flushThread := .reloaded banned }
  | .reloaded banned =>
    some { s with tracker := s.tracker.removeIps banned, flushThread := .cleaning }
  | .cleaning => some { s with tracker := s.tracker.cleanup s.clock, flushThread := .sleeping }

def step (server : Server) (s : BanStores) : Action → Option BanStores
  | .recordViolation worker ip reason =>
    if s.workers worker = .idle then some (s.recordViolation server worker ip reason) else none
  | .check worker ip => if s.workers worker = .idle then some (s.check server worker ip) else none
  | .continueWorker worker ok => s.continueWorker server worker ok
  | .continueFlush ok => s.continueFlush server ok
  | .signal ok =>
    if s.signalThread = none then
      some (if ok ∧ server.ipBan.mode = .on then { s with signalThread := some (s.load server) }
        else s)
    else none
  | .storeSignalled =>
    s.signalThread.map fun list => { s with ipBanList := list, signalThread := none }
  | .edit entries => some (s.append server.ipBanFile entries)
  | .tick clock => if s.clock.nanos ≤ clock.nanos then some { s with clock } else none

end BanStores

end Aquatic.AutoBan
