import Aquatic.Common.Basic
import Aquatic.Common.Net

/-!
# The auto-ban configuration and how long bans last
-/

namespace Aquatic.AutoBan
set_option autoImplicit false

inductive IpBanMode where
  | on
  | off
  deriving DecidableEq, Repr

structure IpBanConfig where
  mode : IpBanMode
  path : Path
  deriving DecidableEq, Repr

structure AutoBanConfig where
  enabled : Bool
  threshold : UInt32
  windowSecs : UInt64
  banDurationSecs : UInt64
  banListPath : Path
  immediateBanSecs : UInt64
  escalationEnabled : Bool
  escalationSteps : String
  offenseDecaySecs : UInt64
  clientBanDurationSecs : UInt64
  clientBanJitterSecs : UInt64
  clientBanListPath : Path
  deriving DecidableEq, Repr

namespace AutoBanConfig

def default : AutoBanConfig where
  enabled := false
  threshold := 10
  windowSecs := 60
  banDurationSecs := 0
  banListPath := ⟨"./ip-ban-list.txt"⟩
  immediateBanSecs := 0
  escalationEnabled := false
  escalationSteps := "300,3600,86400"
  offenseDecaySecs := 86400
  clientBanDurationSecs := 86400
  clientBanJitterSecs := 1800
  clientBanListPath := ⟨"./client-ban-ips.txt"⟩

end AutoBanConfig

/-- Ten years. -/
def maxBanDurationSecs : UInt64 := 10 * 365 * 24 * 60 * 60

def checkStep (entry : List Char) : Except String Unit :=
  if trim entry = [] then .ok ()
  else
    let entry := trim entry
    match parseU64 entry with
    | some secs =>
      if secs ≤ maxBanDurationSecs then .ok ()
      else .error (s!"auto_ban.escalation_steps entry '{String.ofList entry}' must be at most " ++
        s!"{maxBanDurationSecs} seconds (10 years), got {secs}")
    | none => .error ("auto_ban.escalation_steps must be a comma-separated list of " ++
        s!"seconds, but '{String.ofList entry}' is not a number")

def require (condition : Bool) (message : String) : Except String Unit :=
  if condition then .ok () else .error message

/-- The bans that stay must come back after a restart. -/
def validatePersistence (canonicalize : Path → Option Path) (auto : AutoBanConfig)
    (ipBan : IpBanConfig) : Except String Unit := do
  require (!auto.banListPath.isEmpty)
    ("auto_ban is enabled with permanent bans (ban_duration_secs = 0) but " ++
      "ban_list_path is empty: bans would be lost on restart. Set " ++
      "ban_list_path to the ip_ban list path, or use a non-zero " ++
      "ban_duration_secs for memory-only temporary bans")
  require (ipBan.mode == .on)
    (s!"auto_ban is enabled with permanent bans and ban_list_path '{auto.banListPath.text}', but " ++
      "ip_ban.mode is 'off': the file would never be loaded, so bans would " ++
      s!"be lost on restart. Set ip_ban.mode = 'on' and ip_ban.path = '{auto.banListPath.text}', " ++
      "or use a non-zero ban_duration_secs for memory-only temporary bans")
  require (Path.referToSameFile canonicalize auto.banListPath ipBan.path)
    (s!"auto_ban.ban_list_path ('{auto.banListPath.text}') must equal " ++
      s!"ip_ban.path ('{ipBan.path.text}') when " ++
      "auto_ban uses permanent bans and ip_ban is enabled; otherwise " ++
      "flushed bans are never reloaded")

def validateAutoBanConfig (canonicalize : Path → Option Path) (auto : AutoBanConfig)
    (ipBan : IpBanConfig) : Except String Unit :=
  if !auto.enabled then .ok ()
  else do
    require (auto.threshold != 0) "auto_ban.threshold must be at least 1 (got 0)"
    require (auto.windowSecs != 0) "auto_ban.window_secs must be at least 1 (got 0)"
    require (auto.banDurationSecs ≤ maxBanDurationSecs)
      (s!"auto_ban.ban_duration_secs must be at most {maxBanDurationSecs} seconds (10 years), " ++
        s!"got {auto.banDurationSecs}; larger values overflow Instant arithmetic")
    require (auto.immediateBanSecs ≤ maxBanDurationSecs)
      (s!"auto_ban.immediate_ban_secs must be at most {maxBanDurationSecs} seconds (10 years), " ++
        s!"got {auto.immediateBanSecs}; larger values overflow Instant arithmetic")
    require (auto.clientBanDurationSecs ≤ maxBanDurationSecs)
      (s!"auto_ban.client_ban_duration_secs must be at most {maxBanDurationSecs} seconds " ++
        s!"(10 years), got {auto.clientBanDurationSecs}")
    require (auto.clientBanJitterSecs ≤ maxBanDurationSecs)
      (s!"auto_ban.client_ban_jitter_secs must be at most {maxBanDurationSecs} seconds " ++
        s!"(10 years), got {auto.clientBanJitterSecs}")
    (List.splitOn ',' auto.escalationSteps.toList).forM checkStep
    require (!(auto.escalationEnabled && auto.offenseDecaySecs == 0))
      ("auto_ban.offense_decay_secs must be at least 1 when escalation is enabled: " ++
        "a value of 0 would forget the offence history immediately and escalation " ++
        "would never happen")
    if auto.banDurationSecs != 0 && !auto.escalationEnabled then .ok ()
    else validatePersistence canonicalize auto ipBan

theorem require_eq_ok_iff {condition : Bool} {message : String} :
    require condition message = .ok () ↔ condition = true := by
  unfold require
  split <;> simp [*]

/-- Permanent bans are written to the file that the ban list is loaded from. -/
theorem persistence_of_valid {canonicalize : Path → Option Path} {auto : AutoBanConfig}
    {ipBan : IpBanConfig} (h : validateAutoBanConfig canonicalize auto ipBan = .ok ())
    (henabled : auto.enabled = true)
    (hpermanent : auto.banDurationSecs = 0 ∨ auto.escalationEnabled = true) :
    auto.banListPath.isEmpty = false ∧ ipBan.mode = .on ∧
      Path.referToSameFile canonicalize auto.banListPath ipBan.path = true := by
  simp only [validateAutoBanConfig, henabled, Bool.not_true, Bool.false_eq_true, if_false] at h
  obtain ⟨_, -, h⟩ := bind_eq_ok h
  obtain ⟨_, -, h⟩ := bind_eq_ok h
  obtain ⟨_, -, h⟩ := bind_eq_ok h
  obtain ⟨_, -, h⟩ := bind_eq_ok h
  obtain ⟨_, -, h⟩ := bind_eq_ok h
  obtain ⟨_, -, h⟩ := bind_eq_ok h
  obtain ⟨_, -, h⟩ := bind_eq_ok h
  obtain ⟨_, -, h⟩ := bind_eq_ok h
  have hexit : ¬ (auto.banDurationSecs != 0 && !auto.escalationEnabled) = true := by
    rcases hpermanent with h | h <;> simp [h]
  rw [if_neg hexit] at h
  obtain ⟨_, hempty, h⟩ := bind_eq_ok h
  obtain ⟨_, hmode, h⟩ := bind_eq_ok h
  exact ⟨by simpa using require_eq_ok_iff.mp hempty, by simpa using require_eq_ok_iff.mp hmode,
    require_eq_ok_iff.mp h⟩

inductive AutoBanReason where
  | sqlInjection
  | pathTraversal
  | crawler
  | missingUserAgent
  | clientBanned
  | privateIp
  | nonStandardPeerId
  | peerIdUserAgentMismatch
  deriving DecidableEq, Repr

inductive AutoBanTier where
  /-- Ban on the first violation. -/
  | immediate
  /-- Count violations, ban when the threshold is reached. -/
  | suspicious
  /-- Count violations, then escalate. -/
  | heuristic
  deriving DecidableEq, Repr

def AutoBanReason.tier : AutoBanReason → AutoBanTier
  | sqlInjection | pathTraversal | clientBanned | crawler | missingUserAgent => .immediate
  | privateIp => .suspicious
  | nonStandardPeerId | peerIdUserAgentMismatch => .heuristic

/-- How long a ban lasts. -/
inductive BanKind where
  | temporary (secs : UInt64)
  | permanent
  deriving DecidableEq, Repr

def BanKind.fromSecs (secs : UInt64) : BanKind := if secs = 0 then permanent else temporary secs

/-- The durations among the entries. -/
def parseSteps (raw : String) : List UInt64 :=
  (List.splitOn ',' raw.toList).filterMap fun part =>
    if trim part = [] then none else parseU64 (trim part)

structure AutoBanPolicy where
  immediateBanSecs : UInt64
  clientBanDurationSecs : UInt64
  clientBanJitterSecs : UInt64
  escalationEnabled : Bool
  escalationSteps : List UInt64
  offenseDecaySecs : UInt64
  deriving DecidableEq, Repr

def fromBeBytes (bytes : List UInt8) : UInt64 :=
  bytes.foldl (fun acc byte => acc <<< 8 ||| byte.toUInt64) 0

def rotateLeft7 (x : UInt64) : UInt64 := x <<< 7 ||| x >>> 57

/-- An offset between `-jitter` and `jitter` that depends on the address alone. -/
def clientJitter (ip : IpAddr) (jitter : UInt64) : Int64 :=
  if jitter = 0 then 0
  else
    let hash :=
      match ip with
      | .v4 addr => fromBeBytes addr.octets.toList
      | .v6 addr =>
        rotateLeft7 (fromBeBytes (addr.octets.toList.take 8)) ^^^
          fromBeBytes (addr.octets.toList.drop 8)
    let span := satAdd (satMul jitter 2) 1
    (hash % span).toInt64 - jitter.toInt64

namespace AutoBanPolicy

def clientBanSecs (policy : AutoBanPolicy) (ip : IpAddr) (fallbackSecs : UInt64) : UInt64 :=
  let base :=
    if policy.clientBanDurationSecs ≠ 0 then policy.clientBanDurationSecs
    else if policy.immediateBanSecs ≠ 0 then policy.immediateBanSecs
    else fallbackSecs
  if base = 0 then 0
  else
    let delta := clientJitter ip policy.clientBanJitterSecs
    let secs := if delta ≥ 0 then satAdd base delta.toUInt64 else satSub base (-delta).toUInt64
    max secs 1

def banKind (policy : AutoBanPolicy) (reason : AutoBanReason) (ip : IpAddr) (offenses : UInt32)
    (fallbackSecs : UInt64) : BanKind :=
  -- One fixed duration, outside the ladder.
  if reason = .clientBanned then .fromSecs (policy.clientBanSecs ip fallbackSecs)
  else
    match reason.tier with
    | .immediate =>
      if policy.escalationEnabled && offenses ≥ 2 then .permanent
      else if policy.immediateBanSecs = 0 then .fromSecs fallbackSecs
      else .fromSecs policy.immediateBanSecs
    | .suspicious => .fromSecs fallbackSecs
    | .heuristic =>
      if !policy.escalationEnabled then .fromSecs fallbackSecs
      else
        match policy.escalationSteps[offenses.toNat - 1]? with
        | some secs => .fromSecs secs
        | none => .permanent

end AutoBanPolicy

end Aquatic.AutoBan
