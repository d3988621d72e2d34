import Aquatic.Lib.Transition

/-!
# Starting the socket workers

A worker creates its sockets one after the other. When privileges are to be dropped, it waits
after each of them until all sockets of all workers are there, and one of the workers drops the
privileges. The main thread ends the program when a worker has stopped.
-/

namespace Aquatic
open Transition
set_option autoImplicit false

inductive Tracker where
  | udp (useIpv4 useIpv6 : Bool)
  | http (useIpv4 useIpv6 : Bool)
  | ws
  deriving DecidableEq

namespace Tracker

def numSocketsPerWorker : Tracker → Nat
  | .udp useIpv4 useIpv6 | .http useIpv4 useIpv6 =>
    (if useIpv4 then 1 else 0) + if useIpv6 then 1 else 0
  | .ws => 1

def usesBoth : Tracker → Bool
  | .udp useIpv4 useIpv6 | .http useIpv4 useIpv6 => useIpv4 && useIpv6
  | .ws => false

theorem numSocketsPerWorker_eq {tracker : Tracker} (h : 0 < tracker.numSocketsPerWorker) :
    tracker.numSocketsPerWorker = if tracker.usesBoth then 2 else 1 := by
  cases tracker with
  | udp useIpv4 useIpv6 | http useIpv4 useIpv6 =>
    cases useIpv4 with
    | false =>
      cases useIpv6 with
      | false => exact absurd h (Nat.lt_irrefl 0)
      | true => rfl
    | true => cases useIpv6 <;> rfl
  | ws => rfl

end Tracker

/-- What is left to start when the configuration has been checked. -/
structure StartConfig where
  tracker : Tracker
  dropPrivileges : Bool
  socketWorkers : Nat
  numSocketsPerWorker_pos : 0 < tracker.numSocketsPerWorker
  socketWorkers_pos : 0 < socketWorkers

/-- Zero stands for as many as can run at once. -/
def validateSocketWorkers (availableParallelism : Option {n : Nat // 0 < n}) (socketWorkers : Nat) :
    {n : Nat // 0 < n} :=
  if h : socketWorkers = 0 then availableParallelism.getD ⟨1, Nat.one_pos⟩
  else ⟨socketWorkers, Nat.pos_of_ne_zero h⟩

namespace StartConfig

def validate (tracker : Tracker) (dropPrivileges : Bool)
    (availableParallelism : Option {n : Nat // 0 < n}) (socketWorkers : Nat) :
    Except String StartConfig :=
  if h : 0 < tracker.numSocketsPerWorker then
    let socketWorkers := validateSocketWorkers availableParallelism socketWorkers
    .ok ⟨tracker, dropPrivileges, socketWorkers.val, h, socketWorkers.property⟩
  else .error "Both use_ipv4 and use_ipv6 can not be set to false"

def numSockets (config : StartConfig) : Nat :=
  config.socketWorkers * config.tracker.numSocketsPerWorker

end StartConfig

structure Barrier where
  numThreads : Nat
  count : Nat
  generationId : Nat

namespace Barrier

def new (numThreads : Nat) : Barrier := ⟨numThreads, 0, 0⟩

/-- A thread arrives: it waits for the end of a generation, or is the leader. -/
def wait (b : Barrier) : Option Nat × Barrier :=
  if b.count + 1 < b.numThreads then
    (some b.generationId, { b with count := b.count + 1 })
  else (none, { b with count := 0, generationId := b.generationId + 1 })

end Barrier

/-- Where a worker is, and the sockets that it has created. -/
inductive Place where
  | creating (sockets : Nat)
  | waiting (sockets generationId : Nat)
  | leading (sockets : Nat)
  | running (sockets : Nat)
  | stopped (sockets : Nat)
  deriving DecidableEq

namespace Place

def sockets : Place → Nat
  | .creating sockets | .waiting sockets _ | .leading sockets | .running sockets
  | .stopped sockets => sockets

def isWaiting : Place → Bool
  | .waiting _ _ => true
  | _ => false

def isLeading : Place → Bool
  | .leading _ => true
  | _ => false

def isStopped : Place → Bool
  | .stopped _ => true
  | _ => false

end Place

structure Startup where
  workers : List Place
  barrier : Barrier
  privilegesDropped : Nat

namespace Startup

/-- `ok` says whether a call to the system succeeds. -/
inductive Action where
  | createSocket (i : Nat) (ok : Bool)
  | wake (i : Nat)
  | dropPrivileges (i : Nat) (ok : Bool)
  | stop (i : Nat)

def init (config : StartConfig) : Startup :=
  ⟨.replicate config.socketWorkers (.creating 0), .new config.numSockets, 0⟩

def setWorker (s : Startup) (i : Nat) (place : Place) : Startup :=
  { s with workers := s.workers.set i place }

/-- What comes after the privileges have been seen to. -/
def next (config : StartConfig) (sockets : Nat) : Place :=
  if sockets < config.tracker.numSocketsPerWorker then .creating sockets else .running sockets

def afterSocketCreation (config : StartConfig) (s : Startup) (i sockets : Nat) : Startup :=
  if config.dropPrivileges then
    match s.barrier.wait with
    | (some generationId, barrier) =>
      { s.setWorker i (.waiting sockets generationId) with barrier }
    | (none, barrier) => { s.setWorker i (.leading sockets) with barrier }
  else s.setWorker i (next config sockets)

def step (config : StartConfig) (s : Startup) : Action → Option Startup
  | .createSocket i ok =>
    match s.workers[i]? with
    | some (.creating sockets) =>
      some (if ok then s.afterSocketCreation config i (sockets + 1)
        else s.setWorker i (.stopped sockets))
    | _ => none
  | .wake i =>
    match s.workers[i]? with
    | some (.waiting sockets generationId) =>
      if generationId = s.barrier.generationId then none
      else some (s.setWorker i (next config sockets))
    | _ => none
  | .dropPrivileges i ok =>
    match s.workers[i]? with
    | some (.leading sockets) =>
      some (if ok then
          { s.setWorker i (next config sockets) with
            privilegesDropped := s.privilegesDropped + 1 }
        else s.setWorker i (.stopped sockets))
    | _ => none
  | .stop i =>
    match s.workers[i]? with
    | some (.running sockets) => some (s.setWorker i (.stopped sockets))
    | _ => none

/-- The worker that makes the main thread end the program. -/
def finishedWorker (s : Startup) : Option Nat := s.workers.findIdx? Place.isStopped

end Startup

end Aquatic
