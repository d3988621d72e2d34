import Aquatic.AutoBan.Policy
import Aquatic.Lib.Collections

/-!
# The auto-ban tracker

Each function here runs under one lock of the tracker, so it is one step. The
time is read once, after the lock has been taken.
-/

namespace Aquatic.AutoBan
open Collections
set_option autoImplicit false

/-- Record for a single IP's violation count. -/
structure IpRecord where
  count : UInt32
  firstViolation : Instant
  bannedUntil : Option Instant
  permanent : Bool
  persisted : Bool
  offenses : UInt32
  lastOffense : Option Instant
  deriving DecidableEq, Repr

structure AutoBanInner where
  records : IndexMap IpAddr IpRecord
  threshold : UInt32
  windowSecs : UInt64
  banDurationSecs : UInt64
  maxRecords : Nat
  lastCapacityCleanup : Option Instant
  lastOverflowLog : Option Instant

structure AutoBanTracker where
  inner : AutoBanInner
  policy : AutoBanPolicy
  banListPath : Option Path
  clientBanListPath : Option Path

def hardMaxRecords : Nat := 2000000

namespace IpRecord

def new (now : Instant) : IpRecord where
  count := 0
  firstViolation := now
  bannedUntil := none
  permanent := false
  persisted := false
  offenses := 0
  lastOffense := none

def isBanned (record : IpRecord) (now : Instant) : Bool :=
  record.permanent || record.bannedUntil.any fun bannedUntil => now.nanos < bannedUntil.nanos

/-- What the two cleaning passes keep. -/
def isKept (record : IpRecord) (windowSecs : UInt64) (now : Instant) : Bool :=
  record.isBanned now || now.secsSince record.firstViolation < windowSecs.toNat

/-- Whether the offence history is forgotten. -/
def isDecayed (record : IpRecord) (now : Instant) (decaySecs : UInt64) : Bool :=
  record.lastOffense.all fun last => now.secsSince last ≥ decaySecs.toNat

/-- Count one more offence. -/
def registerOffense (record : IpRecord) (now : Instant) (decaySecs : UInt64) : IpRecord :=
  let offenses := if record.isDecayed now decaySecs then 0 else record.offenses
  { record with
    offenses := if offenses = 0xffffffff then offenses else offenses + 1
    lastOffense := some now }

def applyBan (record : IpRecord) (kind : BanKind) (now : Instant) : IpRecord :=
  match kind with
  | .permanent => { record with bannedUntil := none, permanent := true, persisted := false }
  | .temporary secs =>
    match now.checkedAdd secs with
    | some bannedUntil =>
      { record with bannedUntil := some bannedUntil, permanent := false, persisted := false }
    | none => { record with bannedUntil := none, permanent := true, persisted := false }

/-- Start a new window when the old one is over, and when a ban has expired. -/
def renew (record : IpRecord) (windowSecs : UInt64) (now : Instant) : IpRecord :=
  let record :=
    if now.secsSince record.firstViolation ≥ windowSecs.toNat then
      { record with count := 0, firstViolation := now }
    else record
  if !record.permanent && record.bannedUntil.any fun bannedUntil => bannedUntil.nanos ≤ now.nanos then
    { record with bannedUntil := none, persisted := false, count := 0, firstViolation := now }
  else record

def ban (record : IpRecord) (policy : AutoBanPolicy) (ip : IpAddr) (reason : AutoBanReason)
    (now : Instant) (banDurationSecs : UInt64) : IpRecord :=
  let record := record.registerOffense now policy.offenseDecaySecs
  record.applyBan (policy.banKind reason ip record.offenses banDurationSecs) now

end IpRecord

namespace AutoBanInner

def isAutoBanned (inner : AutoBanInner) (ip : IpAddr) (now : Instant) : Bool :=
  (inner.records.get ip).any fun record => record.isBanned now

/-- Remove expired entries. -/
def cleanup (inner : AutoBanInner) (now : Instant) : AutoBanInner :=
  { inner with records := inner.records.retain fun _ record => record.isKept inner.windowSecs now }

def elapsed (last : Option Instant) (now : Instant) (secs : Nat) : Bool :=
  last.all fun last => now.secsSince last ≥ secs

/-- The cleaning pass of a full map, at most once per second. -/
def capacityCleanup (inner : AutoBanInner) (now : Instant) : AutoBanInner :=
  if elapsed inner.lastCapacityCleanup now 1 then
    { inner.cleanup now with lastCapacityCleanup := some now }
  else inner

def growCapacity (inner : AutoBanInner) (now : Instant) : AutoBanInner :=
  if inner.records.len ≥ inner.maxRecords then
    let grown := min (inner.maxRecords * 2) hardMaxRecords
    if grown > inner.maxRecords then { inner with maxRecords := grown }
    else if elapsed inner.lastCapacityCleanup now 60 then
      { inner with lastCapacityCleanup := some now }
    else inner
  else inner

/-- Whether there is no room for a new address: the limit that counts is the one
from before it was raised. -/
def capacityGuard (inner : AutoBanInner) (ip : IpAddr) (now : Instant) : Bool × AutoBanInner :=
  if !inner.records.contains ip && decide (inner.records.len ≥ inner.maxRecords) then
    let maxRecords := inner.maxRecords
    let inner := (inner.capacityCleanup now).growCapacity now
    if inner.records.len ≥ maxRecords then
      (true, if elapsed inner.lastOverflowLog now 60 then
        { inner with lastOverflowLog := some now } else inner)
    else (false, inner)
  else (false, inner)

def setRecord (inner : AutoBanInner) (ip : IpAddr) (record : IpRecord) : AutoBanInner :=
  { inner with records := inner.records.insert ip record }

/-- The record with one more violation, and whether it is due for a ban. -/
def countViolation (inner : AutoBanInner) (ip : IpAddr) (reason : AutoBanReason) (now : Instant) :
    Bool × IpRecord :=
  match inner.records.get ip with
  | some record =>
    let record := record.renew inner.windowSecs now
    let record := { record with count := record.count + 1 }
    (reason.tier == .immediate || record.count ≥ inner.threshold, record)
  | none =>
    (reason.tier == .immediate || inner.threshold ≤ 1, { IpRecord.new now with count := 1 })

/-- Whether the violation leads to a ban, and whether the ban is permanent. -/
def recordViolation (policy : AutoBanPolicy) (inner : AutoBanInner) (ip : IpAddr)
    (reason : AutoBanReason) (now : Instant) : Bool × Bool × AutoBanInner :=
  if inner.isAutoBanned ip now then (false, false, inner)
  else
    let (full, inner) := inner.capacityGuard ip now
    if full then (false, false, inner)
    else
      let (triggered, record) := inner.countViolation ip reason now
      if triggered && !record.isBanned now then
        let record := record.ban policy ip reason now inner.banDurationSecs
        (true, record.permanent, inner.setRecord ip record)
      else (false, false, inner.setRecord ip record)

/-- Whether a ban has to be written to the file by the worker that issued it. -/
def needsPersisting (inner : AutoBanInner) (ip : IpAddr) : Bool :=
  (inner.records.get ip).any fun record => record.permanent && !record.persisted

/-- Only a permanent ban is marked: the record may be another one by now. -/
def markBan (inner : AutoBanInner) (ip : IpAddr) : AutoBanInner :=
  { inner with records := inner.records.modify ip fun record =>
      if record.permanent then { record with persisted := true } else record }

/-- The permanently banned addresses, and those of them that are not yet in the file. -/
def permanentBans (inner : AutoBanInner) (escalationEnabled : Bool) (now : Instant) :
    List IpAddr × List IpAddr :=
  if inner.banDurationSecs ≠ 0 ∧ ¬ escalationEnabled then ([], [])
  else
    let banned := inner.records.entries.filter fun e => e.2.permanent && e.2.isBanned now
    (banned.map Prod.fst, (banned.filter fun e => !e.2.persisted).map Prod.fst)

def stillPending (inner : AutoBanInner) (pendingWrite : List IpAddr) : List IpAddr :=
  pendingWrite.filter fun ip => (inner.records.get ip).any fun record => !record.persisted

def markPersisted (inner : AutoBanInner) (ips : List IpAddr) : AutoBanInner :=
  { inner with records := ips.foldl (fun records ip =>
      records.modify ip fun record => { record with persisted := true }) inner.records }

def removeIps (inner : AutoBanInner) (ips : List IpAddr) : AutoBanInner :=
  { inner with records := ips.foldl IndexMap.erase inner.records }

end AutoBanInner

def AutoBanTracker.fromConfig (config : AutoBanConfig) : AutoBanTracker where
  inner :=
    { records := IndexMap.empty
      threshold := config.threshold
      windowSecs := config.windowSecs
      banDurationSecs := config.banDurationSecs
      maxRecords := 100000
      lastCapacityCleanup := none
      lastOverflowLog := none }
  policy :=
    { immediateBanSecs := config.immediateBanSecs
      clientBanDurationSecs := config.clientBanDurationSecs
      clientBanJitterSecs := config.clientBanJitterSecs
      escalationEnabled := config.escalationEnabled
      escalationSteps := parseSteps config.escalationSteps
      offenseDecaySecs := config.offenseDecaySecs }
  banListPath := if config.banListPath.isEmpty then none else some config.banListPath
  clientBanListPath :=
    if config.clientBanListPath.isEmpty then none else some config.clientBanListPath

end Aquatic.AutoBan
