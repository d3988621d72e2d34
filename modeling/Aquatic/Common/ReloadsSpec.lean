import Aquatic.Common.Reloads
import Aquatic.Lib.Transition

/-!
# What the lists answer from

The lists answer as the bytes of certain files say: for each list those of the last file that
could be read and used, as a whole.
-/

namespace Aquatic.Lists
open Transition
set_option autoImplicit false

/-- The bytes that a list has been read from; a list that has never been loaded has none. -/
structure InForce where
  accessList : Option (List UInt8)
  ipBanList : Option (List UInt8)
  clientBanList : Option (Option (List UInt8) × Option (List UInt8))
  trustedProxies : Option (List UInt8)

def InForce.none : InForce := ⟨Option.none, Option.none, Option.none, Option.none⟩

/-- All or nothing: what has been read is in force if it can be used, else nothing changes. -/
def Replaces {α : Type} (usable : α → Prop) (read old new : Option α) : Prop :=
  (∃ a, read = some a ∧ usable a ∧ new = some a) ∨
    (∀ a, read = some a → ¬ usable a) ∧ new = old

def UsableAccessList (bytes : List UInt8) : Prop :=
  ∀ entry ∈ byteEntries bytes, ∃ infoHash, Spells entry infoHash

def UsableProxies (library : NetworkLibrary) (bytes : List UInt8) : Prop :=
  networks library bytes ≠ []

def readAccessList (config : ListsConfig) (file : FileRead) : Option (List UInt8) :=
  if config.accessListMode = .off then none else file.toOption

def readIpBanList (config : ListsConfig) (file : FileRead) : Option (List UInt8) :=
  if config.ipBanMode = .on then file.toOption else none

def readClientBanList (config : ListsConfig) (banList allowlist : FileRead) :
    Option (Option (List UInt8) × Option (List UInt8)) :=
  if config.clientBanMode == .on || config.peerIdAllowlist then do
    let banList ← (readIf (config.clientBanMode == .on) banList).toOption
    let allowlist ← (readIf config.peerIdAllowlist allowlist).toOption
    return (banList, allowlist)
  else none

def readTrustedProxies (config : ListsConfig) (file : FileRead) : Option (List UInt8) :=
  if config.trustedProxiesPath.isEmpty then none else file.toOption

/-- The proxies are forgotten when they are not enabled. -/
def ReplacesProxies (library : NetworkLibrary) (config : ListsConfig) (file : FileRead)
    (old new : Option (List UInt8)) : Prop :=
  if config.trustedProxiesEnabled then
    Replaces (UsableProxies library) (readTrustedProxies config file) old new
  else new = none

/-- Some entry of the file spells the info hash. -/
def ListsHash (file : Option (List UInt8)) (infoHash : InfoHash) : Prop :=
  ∃ bytes, file = some bytes ∧ ∃ entry ∈ byteEntries bytes, Spells entry infoHash

/-- Some line of the file is an entry that the address is in, in one of its two spellings. -/
def ListsIp (file : Option (List UInt8)) (ip : IpAddr) : Prop :=
  ∃ bytes, file = some bytes ∧ ∃ line ∈ readListFile bytes, ∃ entry,
    IpBanEntry.parse line.2 = .ok entry ∧ (entry.Matches ip ∨ entry.Matches (canonicalIp ip))

/-- The built-in list of clients is off only if the files have been loaded with it off. -/
def BansClient (config : ListsConfig) (files : InForce) (peerId : List Char) : Prop :=
  (files.clientBanList = none ∨ config.banVampireClients = true) ∧ isVampireClient peerId = true ∨
    ∃ bytes allowlist, files.clientBanList = some (some bytes, allowlist) ∧
      ∃ line ∈ readListFile bytes, line.2.map Char.toLower <+: peerId.map Char.toLower

def ListsPeerId (files : InForce) (peerId : PeerId) : Prop :=
  ∃ banList bytes, files.clientBanList = some (banList, some bytes) ∧
    ∃ line ∈ readListFile bytes, StartsWith (utf8 line.2) peerId.bytes.toList

def proxiesOf (library : NetworkLibrary) (file : Option (List UInt8)) : TrustedProxies :=
  .fromIter library.table ((file.map (networks library)).getD [])

/-- A reload changes one file in force or none, and every question is answered from them. -/
inductive Obeys (library : NetworkLibrary) (config : ListsConfig) (files : InForce) :
    Action → Answer → InForce → Prop where
  | reloadAccessList {file new}
      (h : Replaces UsableAccessList (readAccessList config file) files.accessList new) :
      Obeys library config files (.reloadAccessList file) none { files with accessList := new }
  | reloadIpBanList {file new}
      (h : Replaces (fun _ => True) (readIpBanList config file) files.ipBanList new) :
      Obeys library config files (.reloadIpBanList file) none { files with ipBanList := new }
  | reloadClientBanList {banList allowlist new}
      (h : Replaces (fun _ => True) (readClientBanList config banList allowlist)
        files.clientBanList new) :
      Obeys library config files (.reloadClientBanList banList allowlist) none
        { files with clientBanList := new }
  | reloadTrustedProxies {file new}
      (h : ReplacesProxies library config file files.trustedProxies new) :
      Obeys library config files (.reloadTrustedProxies file) none
        { files with trustedProxies := new }
  | allows {infoHash : InfoHash} {b : Bool}
      (hallow : config.accessListMode = .allow → (b = true ↔ ListsHash files.accessList infoHash))
      (hdeny : config.accessListMode = .deny → (b = true ↔ ¬ ListsHash files.accessList infoHash))
      (hoff : config.accessListMode = .off → b = true) :
      Obeys library config files (.allows infoHash) (some b) files
  | isIpBanned {ip : IpAddr} {b : Bool} (h : b = true ↔ ListsIp files.ipBanList ip) :
      Obeys library config files (.isIpBanned ip) (some b) files
  | isClientBanned {peerId : List Char} {b : Bool} (h : b = true ↔ BansClient config files peerId) :
      Obeys library config files (.isClientBanned peerId) (some b) files
  | isPeerIdAllowlisted {peerId : PeerId} {b : Bool} (h : b = true ↔ ListsPeerId files peerId) :
      Obeys library config files (.isPeerIdAllowlisted peerId) (some b) files
  | isTrusted {ip : IpAddr} :
      Obeys library config files (.isTrusted ip)
        (some ((proxiesOf library files.trustedProxies).isTrusted ip)) files

/-- The lists are made from the files in force. -/
structure MadeFrom (library : NetworkLibrary) (config : ListsConfig) (lists : Lists)
    (files : InForce) : Prop where
  accessList : ∀ infoHash, infoHash ∈ lists.accessList.hashes ↔ ListsHash files.accessList infoHash
  ipBanList : lists.ipBanList = (files.ipBanList.map IpBanList.createFromPath).getD .empty
  clientBanList : lists.clientBanList = (files.clientBanList.map fun read =>
    ClientBanList.create read.1 config.banVampireClients read.2).getD ⟨[], [], true⟩
  trustedProxies : lists.trustedProxies = proxiesOf library files.trustedProxies

/-- Every list that is on can be read and used. -/
structure Loadable (library : NetworkLibrary) (config : ListsConfig) (sources : Sources) :
    Prop where
  accessList : config.accessListMode ≠ .off →
    ∃ bytes, sources.accessList = .ok bytes ∧ UsableAccessList bytes
  ipBanList : config.ipBanMode = .on → ∃ bytes, sources.ipBanList = .ok bytes
  clientBanList : config.clientBanMode = .on → ∃ bytes, sources.clientBanList = .ok bytes
  peerIdAllowlist : config.peerIdAllowlist = true → ∃ bytes, sources.peerIdAllowlist = .ok bytes
  trustedProxies : config.trustedProxiesEnabled = true → config.trustedProxiesPath ≠ [] ∧
    ∃ bytes, sources.trustedProxies = .ok bytes ∧ UsableProxies library bytes

/-- What is in force after a start. -/
def filesOf (config : ListsConfig) (sources : Sources) : InForce where
  accessList := readAccessList config sources.accessList
  ipBanList := readIpBanList config sources.ipBanList
  clientBanList := readClientBanList config sources.clientBanList sources.peerIdAllowlist
  trustedProxies :=
    if config.trustedProxiesEnabled then readTrustedProxies config sources.trustedProxies else none

/-- A start that does not fail is followed by answers from the files. -/
def Starts (library : NetworkLibrary) (config : ListsConfig) (sources : Sources) :
    Except String Lists → Prop
  | .ok lists => Loadable library config sources ∧ ∀ as, Follows (step library config)
      (fun _ => Obeys library config) (MadeFrom library config) lists (filesOf config sources) as
  | .error _ => ¬ Loadable library config sources

theorem toOption_eq_some {α : Type} {x : Except String α} {a : α} :
    x.toOption = some a ↔ x = .ok a := by
  cases x with
  | error err =>
    constructor <;>
      intro h <;>
      cases h
  | ok b => simp [Except.toOption]

section Updates
variable {library : NetworkLibrary} {config : ListsConfig} {lists : Lists} {files : InForce}

/-- What comes of an update: nothing when it is off, the lists with a usable file, or an error.
`set` says which files are in force with it. -/
inductive Updated {α : Type} (library : NetworkLibrary) (config : ListsConfig) (on : Prop)
    (read : Option α) (usable : α → Prop) (set : Option α → InForce) (lists : Lists) :
    Except String Lists → Prop where
  | kept (hoff : ¬ on) (hread : read = none) :
      Updated library config on read usable set lists (.ok lists)
  | loaded {a : α} {lists' : Lists} (hread : read = some a) (husable : usable a)
      (hmade : MadeFrom library config lists' (set (some a))) :
      Updated library config on read usable set lists (.ok lists')
  | failed {err : String} (hon : on) (hread : ∀ a, read = some a → ¬ usable a) :
      Updated library config on read usable set lists (.error err)

namespace Updated
variable {α : Type} {on : Prop} {read : Option α} {usable : α → Prop} {set : Option α → InForce}
  {result : Except String Lists}

theorem reload (h : Updated library config on read usable set lists result) (old : Option α)
    (hmade : MadeFrom library config lists (set old)) :
    ∃ new, Replaces usable read old new ∧
      MadeFrom library config (lists.orKeep result) (set new) := by
  cases h with
  | kept hoff hread =>
    refine ⟨old, .inr ⟨?_, rfl⟩, hmade⟩
    intro a ha
    rw [hread] at ha
    cases ha
  | @loaded a lists' hread husable hnew => exact ⟨some a, .inl ⟨a, hread, husable, rfl⟩, hnew⟩
  | failed hon hread => exact ⟨old, .inr ⟨hread, rfl⟩, hmade⟩

theorem start {lists' : Lists} (h : Updated library config on read usable set lists (.ok lists'))
    (hmade : MadeFrom library config lists (set none)) :
    MadeFrom library config lists' (set read) ∧ (on → ∃ a, read = some a ∧ usable a) := by
  cases h with
  | kept hoff hread =>
    rw [hread]
    exact ⟨hmade, fun hon => absurd hon hoff⟩
  | @loaded a _ hread husable hnew =>
    rw [hread]
    exact ⟨hnew, fun _ => ⟨a, rfl, husable⟩⟩

theorem not_start {err : String}
    (h : Updated library config on read usable set lists (.error err)) :
    ¬ (on → ∃ a, read = some a ∧ usable a) := by
  cases h with
  | failed hon hread =>
    intro hload
    obtain ⟨a, ha, husable⟩ := hload hon
    exact hread a ha husable

/-- One update of a start: the next one follows if it does not fail. -/
theorem bind {P : Except String Lists → Prop} {next : Lists → Except String Lists}
    (h : Updated library config on read usable set lists result)
    (hmade : MadeFrom library config lists (set none))
    (hok : ∀ lists', MadeFrom library config lists' (set read) →
      (on → ∃ a, read = some a ∧ usable a) → P (next lists'))
    (herror : ∀ err, ¬ (on → ∃ a, read = some a ∧ usable a) → P (.error err)) :
    P (result >>= next) := by
  cases result with
  | ok lists' =>
    obtain ⟨hmade', hload⟩ := h.start hmade
    exact hok lists' hmade' hload
  | error err => exact herror err h.not_start

end Updated

theorem readAccessList_eq (hon : config.accessListMode ≠ .off) (file : FileRead) :
    readAccessList config file = file.toOption := if_neg hon

theorem updated_accessList (hmade : MadeFrom library config lists files) (file : FileRead) :
    Updated library config (config.accessListMode ≠ .off) (readAccessList config file)
      UsableAccessList (fun new => { files with accessList := new }) lists
      (updateAccessList config lists file) := by
  unfold updateAccessList
  split
  · rename_i hoff
    exact .kept (not_not_intro hoff) (if_pos hoff)
  · rename_i hon
    rw [readAccessList_eq hon]
    cases file with
    | error err => exact .failed hon nofun
    | ok bytes =>
      cases hlist : AccessList.createFromPath bytes with
      | error err =>
        obtain ⟨entry, hentry, hnone⟩ := AccessList.createFromPath_error hlist
        change Updated _ _ _ _ _ _ _ (AccessList.createFromPath bytes >>= _)
        rw [hlist]
        refine .failed hon ?_
        intro a ha husable
        cases ha
        obtain ⟨infoHash, hspells⟩ := husable entry hentry
        exact hnone infoHash hspells
      | ok list =>
        obtain ⟨husable, hmem⟩ := AccessList.createFromPath_ok hlist
        change Updated _ _ _ _ _ _ _ (AccessList.createFromPath bytes >>= _)
        rw [hlist]
        refine .loaded rfl husable ⟨?_, hmade.ipBanList, hmade.clientBanList, hmade.trustedProxies⟩
        intro infoHash
        rw [hmem]
        constructor
        · exact fun h => ⟨bytes, rfl, h⟩
        · rintro ⟨other, hother, h⟩
          cases hother
          exact h

theorem updated_ipBanList (hmade : MadeFrom library config lists files) (file : FileRead) :
    Updated library config (config.ipBanMode = .on) (readIpBanList config file)
      (fun _ => True) (fun new => { files with ipBanList := new }) lists
      (updateIpBanList config lists file) := by
  unfold updateIpBanList readIpBanList
  split
  · rename_i hon
    cases file with
    | error err => exact .failed hon nofun
    | ok bytes =>
      exact .loaded rfl trivial
        ⟨hmade.accessList, rfl, hmade.clientBanList, hmade.trustedProxies⟩
  · rename_i hoff
    exact .kept hoff rfl

theorem updated_clientBanList (hmade : MadeFrom library config lists files)
    (banList allowlist : FileRead) :
    Updated library config (config.clientBanMode == .on || config.peerIdAllowlist)
      (readClientBanList config banList allowlist) (fun _ => True)
      (fun new => { files with clientBanList := new }) lists
      (updateClientBanList config lists banList allowlist) := by
  unfold updateClientBanList readClientBanList
  dsimp only
  split
  · rename_i hon
    cases readIf (config.clientBanMode == .on) banList with
    | error err => exact .failed hon nofun
    | ok ban =>
      cases readIf config.peerIdAllowlist allowlist with
      | error err => exact .failed hon nofun
      | ok allowed =>
        exact .loaded rfl trivial
          ⟨hmade.accessList, hmade.ipBanList, rfl, hmade.trustedProxies⟩
  · rename_i hoff
    exact .kept hoff rfl

theorem updated_trustedProxies (hmade : MadeFrom library config lists files) (file : FileRead)
    (henabled : config.trustedProxiesEnabled = true) :
    Updated library config True (readTrustedProxies config file) (UsableProxies library)
      (fun new => { files with trustedProxies := new }) lists
      (updateTrustedProxies library config lists file) := by
  have hon : ¬ (!config.trustedProxiesEnabled) = true := by rw [henabled]; exact Bool.false_ne_true
  unfold updateTrustedProxies readTrustedProxies
  rw [if_neg hon]
  by_cases hpath : config.trustedProxiesPath.isEmpty = true
  · rw [if_pos hpath, if_pos hpath]
    exact .failed trivial nofun
  · rw [if_neg hpath, if_neg hpath]
    cases file with
    | error err => exact .failed trivial nofun
    | ok bytes =>
      by_cases hempty : (networks library bytes).isEmpty = true
      · change Updated _ _ _ _ _ _ _ (if (networks library bytes).isEmpty then _ else _)
        rw [if_pos hempty]
        refine .failed trivial ?_
        intro a ha husable
        cases ha
        exact husable (List.isEmpty_iff.mp hempty)
      · change Updated _ _ _ _ _ _ _ (if (networks library bytes).isEmpty then _ else _)
        rw [if_neg hempty]
        refine .loaded rfl (fun hnil => hempty (List.isEmpty_iff.mpr hnil)) ?_
        exact ⟨hmade.accessList, hmade.ipBanList, hmade.clientBanList, rfl⟩

theorem updateTrustedProxies_off (hoff : config.trustedProxiesEnabled ≠ true) (file : FileRead) :
    updateTrustedProxies library config lists file =
      .ok { lists with trustedProxies := proxiesOf library none } := by
  have hfalse : config.trustedProxiesEnabled = false := Bool.eq_false_iff.mpr hoff
  exact if_pos (by rw [hfalse]; rfl)

theorem madeFrom_init (library : NetworkLibrary) (config : ListsConfig) :
    MadeFrom library config (init library) .none := by
  refine ⟨?_, rfl, rfl, rfl⟩
  intro infoHash
  constructor
  · exact nofun
  · rintro ⟨bytes, hnone, -⟩
    cases hnone

end Updates

section Answers
variable {library : NetworkLibrary} {config : ListsConfig} {lists : Lists} {files : InForce}

theorem contains_iff (hmade : MadeFrom library config lists files) (infoHash : InfoHash) :
    lists.accessList.hashes.contains infoHash = true ↔ ListsHash files.accessList infoHash := by
  rw [List.contains_iff_mem, hmade.accessList]

theorem mem_entriesOf {lines : List (List Char)} {entry : IpBanEntry} :
    entry ∈ IpBanList.entriesOf lines ↔ ∃ line ∈ lines, IpBanEntry.parse line = .ok entry := by
  rw [IpBanList.entriesOf, List.mem_filterMap]
  exact exists_congr fun line => and_congr_right fun _ => toOption_eq_some

theorem isIpBanned_iff (hmade : MadeFrom library config lists files) (ip : IpAddr) :
    lists.ipBanList.isBanned ip = true ↔ ListsIp files.ipBanList ip := by
  rw [hmade.ipBanList]
  cases hfile : files.ipBanList with
  | none =>
    constructor
    · intro h
      change (IpBanList.fromEntries []).isBanned ip = true at h
      obtain ⟨entry, hentry, -⟩ := IpBanList.isBanned_iff.mp h
      exact absurd hentry List.not_mem_nil
    · rintro ⟨bytes, hnone, -⟩
      cases hnone
  | some bytes =>
    change (IpBanList.fromLines ((readListFile bytes).map Prod.snd)).isBanned ip = true ↔ _
    rw [IpBanList.fromLines_eq, IpBanList.isBanned_iff]
    constructor
    · rintro ⟨entry, hentry, hmatches⟩
      obtain ⟨text, htext, hparse⟩ := mem_entriesOf.mp hentry
      obtain ⟨line, hline, rfl⟩ := List.mem_map.mp htext
      exact ⟨bytes, rfl, line, hline, entry, hparse, hmatches⟩
    · rintro ⟨other, hother, line, hline, entry, hparse, hmatches⟩
      cases hother
      exact ⟨entry, mem_entriesOf.mpr ⟨line.2, List.mem_map_of_mem hline, hparse⟩, hmatches⟩

theorem isClientBanned_iff (hmade : MadeFrom library config lists files) (peerId : List Char) :
    lists.clientBanList.isBanned peerId = true ↔ BansClient config files peerId := by
  rw [hmade.clientBanList]
  unfold BansClient ClientBanList.isBanned
  rw [Bool.or_eq_true, Bool.and_eq_true, List.any_eq_true]
  refine or_congr (and_congr_left fun _ => ?_) ?_
  · cases files.clientBanList with
    | none => exact ⟨fun _ => .inl rfl, fun _ => rfl⟩
    | some read =>
      refine ⟨.inr, ?_⟩
      rintro (hnone | hon)
      · cases hnone
      · exact hon
  · constructor
    · rintro ⟨pattern, hpattern, hbegins⟩
      cases hread : files.clientBanList with
      | none =>
        rw [hread] at hpattern
        cases hpattern
      | some read =>
        rw [hread] at hpattern
        obtain ⟨bytes, hbytes, hpattern⟩ := List.mem_flatMap.mp hpattern
        obtain ⟨line, hline, rfl⟩ := List.mem_map.mp hpattern
        refine ⟨bytes, read.2, ?_, line, hline, List.isPrefixOf_iff_prefix.mp hbegins⟩
        rw [← Option.mem_toList.mp hbytes]
    · rintro ⟨bytes, allowlist, hread, line, hline, hbegins⟩
      rw [hread]
      refine ⟨line.2.map Char.toLower, ?_, List.isPrefixOf_iff_prefix.mpr hbegins⟩
      exact List.mem_flatMap.mpr ⟨bytes, Option.mem_toList.mpr rfl,
        List.mem_map.mpr ⟨line, hline, rfl⟩⟩

/-- An entry of the allowlist is put in lower case when it is loaded. -/
theorem lowercase_utf8_toLower (text : List Char) :
    (utf8 (text.map Char.toLower)).map toAsciiLowercase = (utf8 text).map toAsciiLowercase := by
  have hascii : ∀ n < 128, (String.utf8EncodeChar (Char.ofNat n).toLower).map toAsciiLowercase =
      (String.utf8EncodeChar (Char.ofNat n)).map toAsciiLowercase := by decide
  induction text with
  | nil => rfl
  | cons c text ih =>
    have hc : (String.utf8EncodeChar c.toLower).map toAsciiLowercase =
        (String.utf8EncodeChar c).map toAsciiLowercase := by
      by_cases hlt : c.toNat < 128
      · have h := hascii c.toNat hlt
        rwa [Char.ofNat_toNat] at h
      · rw [Text.toLower_of_le (Nat.le_of_not_lt hlt)]
    unfold utf8 at ih ⊢
    rw [List.map_cons, List.flatMap_cons, List.flatMap_cons, List.map_append, List.map_append, hc,
      ih]

theorem beginsPeerId_iff (entry : List Char) (peerId : PeerId) :
    (decide ((utf8 entry).length ≤ 20) &&
      (peerId.slice 0 (utf8 entry).length).map toAsciiLowercase ==
        (utf8 entry).map toAsciiLowercase) = true ↔
      StartsWith (utf8 entry) peerId.bytes.toList := by
  have hslice : (peerId.slice 0 (utf8 entry).length).map toAsciiLowercase =
      (peerId.bytes.toList.map toAsciiLowercase).take
        ((utf8 entry).map toAsciiLowercase).length := by
    rw [List.length_map, ← List.map_take]
    rfl
  rw [Bool.and_eq_true, decide_eq_true_eq, beq_iff_eq, hslice, eq_comm, StartsWith,
    ← List.prefix_iff_eq_take, and_iff_right_iff_imp]
  intro hbegins
  have hle := hbegins.length_le
  rwa [List.length_map, List.length_map, Vector.length_toList] at hle

theorem isPeerIdAllowlisted_iff (hmade : MadeFrom library config lists files) (peerId : PeerId) :
    lists.clientBanList.isPeerIdAllowlisted peerId = true ↔ ListsPeerId files peerId := by
  rw [hmade.clientBanList]
  unfold ClientBanList.isPeerIdAllowlisted
  rw [List.any_eq_true]
  constructor
  · rintro ⟨entry, hentry, hbegins⟩
    have hstarts := (beginsPeerId_iff entry peerId).mp hbegins
    cases hread : files.clientBanList with
    | none =>
      rw [hread] at hentry
      cases hentry
    | some read =>
      rw [hread] at hentry
      obtain ⟨bytes, hbytes, hentry⟩ := List.mem_flatMap.mp hentry
      obtain ⟨line, hline, hkept⟩ := List.mem_filterMap.mp hentry
      dsimp only at hkept
      split at hkept
      · cases hkept
      · cases hkept
        refine ⟨read.1, bytes, ?_, line, hline, ?_⟩
        · rw [hread, ← Option.mem_toList.mp hbytes]
        · rwa [StartsWith, lowercase_utf8_toLower] at hstarts
  · rintro ⟨banList, bytes, hread, line, hline, hstarts⟩
    rw [hread]
    refine ⟨line.2.map Char.toLower, ?_, ?_⟩
    · refine List.mem_flatMap.mpr ⟨bytes, Option.mem_toList.mpr rfl, ?_⟩
      refine List.mem_filterMap.mpr ⟨line, hline, if_neg ?_⟩
      have hle := hstarts.length_le
      rw [List.length_map, List.length_map, Vector.length_toList] at hle
      exact Nat.not_lt.mpr hle
    · refine (beginsPeerId_iff _ peerId).mpr ?_
      rwa [StartsWith, lowercase_utf8_toLower]

end Answers

section Runs
variable {library : NetworkLibrary} {config : ListsConfig} {lists lists' : Lists} {files : InForce}

theorem step_obeys {action : Action} {answer : Answer} (hmade : MadeFrom library config lists files)
    (hstep : step library config lists action = some (answer, lists')) :
    ∃ files', Obeys library config files action answer files' ∧
      MadeFrom library config lists' files' := by
  cases action with
  | reloadAccessList file =>
    cases hstep
    obtain ⟨new, hnew, hmade'⟩ := (updated_accessList hmade file).reload files.accessList hmade
    exact ⟨_, .reloadAccessList hnew, hmade'⟩
  | reloadIpBanList file =>
    cases hstep
    obtain ⟨new, hnew, hmade'⟩ := (updated_ipBanList hmade file).reload files.ipBanList hmade
    exact ⟨_, .reloadIpBanList hnew, hmade'⟩
  | reloadClientBanList banList allowlist =>
    cases hstep
    obtain ⟨new, hnew, hmade'⟩ :=
      (updated_clientBanList hmade banList allowlist).reload files.clientBanList hmade
    exact ⟨_, .reloadClientBanList hnew, hmade'⟩
  | reloadTrustedProxies file =>
    cases hstep
    by_cases hon : config.trustedProxiesEnabled = true
    · obtain ⟨new, hnew, hmade'⟩ :=
        (updated_trustedProxies hmade file hon).reload files.trustedProxies hmade
      have hreplaces : ReplacesProxies library config file files.trustedProxies new := by
        rwa [ReplacesProxies, if_pos hon]
      exact ⟨_, .reloadTrustedProxies hreplaces, hmade'⟩
    · have hnone : ReplacesProxies library config file files.trustedProxies none := by
        rw [ReplacesProxies, if_neg hon]
      refine ⟨_, .reloadTrustedProxies hnone, ?_⟩
      rw [updateTrustedProxies_off hon]
      exact ⟨hmade.accessList, hmade.ipBanList, hmade.clientBanList, rfl⟩
  | allows infoHash =>
    cases hstep
    have hiff := contains_iff hmade infoHash
    refine ⟨files, .allows ?_ ?_ ?_, hmade⟩
    · intro hmode
      unfold AccessList.allows
      rwa [hmode]
    · intro hmode
      unfold AccessList.allows
      rw [hmode, ← hiff, Bool.not_eq_true', Bool.not_eq_true]
    · intro hmode
      unfold AccessList.allows
      rw [hmode]
  | isIpBanned ip =>
    cases hstep
    exact ⟨files, .isIpBanned (isIpBanned_iff hmade ip), hmade⟩
  | isClientBanned peerId =>
    cases hstep
    exact ⟨files, .isClientBanned (isClientBanned_iff hmade peerId), hmade⟩
  | isPeerIdAllowlisted peerId =>
    cases hstep
    exact ⟨files, .isPeerIdAllowlisted (isPeerIdAllowlisted_iff hmade peerId), hmade⟩
  | isTrusted ip =>
    cases hstep
    refine ⟨files, ?_, hmade⟩
    rw [hmade.trustedProxies]
    exact .isTrusted

theorem follows_files (hmade : MadeFrom library config lists files) (as : List Action) :
    Follows (step library config) (fun _ => Obeys library config)
      (MadeFrom library config) lists files as := by
  have keep : ∀ {s : Lists} {action : Action} {answer : Answer} {s' : Lists}, True →
      step library config s action = some (answer, s') → True := fun _ _ => trivial
  refine follows_of_simulation keep ?_ trivial hmade as
  intro s t action answer s' _ hmade hstep
  exact step_obeys hmade hstep

end Runs

section Starting
variable {library : NetworkLibrary} {config : ListsConfig} {sources : Sources}

theorem readClientBanList_eq_some {banList allowlist : FileRead}
    {read : Option (List UInt8) × Option (List UInt8)} :
    readClientBanList config banList allowlist = some read ↔
      (config.clientBanMode == .on || config.peerIdAllowlist) = true ∧
        readIf (config.clientBanMode == .on) banList = .ok read.1 ∧
        readIf config.peerIdAllowlist allowlist = .ok read.2 := by
  unfold readClientBanList
  split
  · rename_i hon
    simp only [hon, true_and, Option.bind_eq_bind, Option.bind_eq_some_iff, toOption_eq_some]
    constructor
    · rintro ⟨ban, hban, allowed, hallowed, heq⟩
      cases heq
      exact ⟨hban, hallowed⟩
    · rintro ⟨hban, hallowed⟩
      exact ⟨_, hban, _, hallowed, rfl⟩
  · rename_i hoff
    exact ⟨nofun, fun h => absurd h.1 hoff⟩

theorem readAccessList_eq_some (hon : config.accessListMode ≠ .off) {file : FileRead}
    {bytes : List UInt8} : readAccessList config file = some bytes ↔ file = .ok bytes := by
  rw [readAccessList_eq hon, toOption_eq_some]

theorem readIpBanList_eq_some (hon : config.ipBanMode = .on) {file : FileRead}
    {bytes : List UInt8} : readIpBanList config file = some bytes ↔ file = .ok bytes := by
  rw [readIpBanList, if_pos hon, toOption_eq_some]

theorem readTrustedProxies_eq_some {file : FileRead} {bytes : List UInt8} :
    readTrustedProxies config file = some bytes ↔
      config.trustedProxiesPath ≠ [] ∧ file = .ok bytes := by
  unfold readTrustedProxies
  split
  · rename_i hpath
    exact ⟨nofun, fun h => absurd (List.isEmpty_iff.mp hpath) h.1⟩
  · rename_i hpath
    rw [toOption_eq_some]
    exact ⟨fun h => ⟨fun hnil => hpath (List.isEmpty_iff.mpr hnil), h⟩, fun h => h.2⟩

theorem exists_readIf_iff {needed : Bool} {file : FileRead} :
    (∃ read, readIf needed file = .ok read) ↔ (needed = true → ∃ bytes, file = .ok bytes) := by
  unfold readIf
  cases needed with
  | false => simp
  | true =>
    cases file with
    | error err => simp [Except.map]
    | ok bytes => simp [Except.map]

theorem exists_readClientBanList_iff {banList allowlist : FileRead} :
    ((config.clientBanMode == .on || config.peerIdAllowlist) = true →
      ∃ read, readClientBanList config banList allowlist = some read ∧ True) ↔
      (config.clientBanMode = .on → ∃ bytes, banList = .ok bytes) ∧
        (config.peerIdAllowlist = true → ∃ bytes, allowlist = .ok bytes) := by
  constructor
  · intro h
    constructor
    · intro hmode
      obtain ⟨read, hread, -⟩ := h (by rw [hmode]; rfl)
      obtain ⟨-, hban, -⟩ := readClientBanList_eq_some.mp hread
      exact exists_readIf_iff.mp ⟨read.1, hban⟩ (beq_iff_eq.mpr hmode)
    · intro hpath
      obtain ⟨read, hread, -⟩ := h (by rw [hpath]; exact Bool.or_true _)
      obtain ⟨-, -, hallow⟩ := readClientBanList_eq_some.mp hread
      exact exists_readIf_iff.mp ⟨read.2, hallow⟩ hpath
  · rintro ⟨hban, hallow⟩ hon
    obtain ⟨ban, hban⟩ := exists_readIf_iff.mpr fun hmode => hban (beq_iff_eq.mp hmode)
    obtain ⟨allowed, hallow⟩ := exists_readIf_iff.mpr hallow
    exact ⟨(ban, allowed), readClientBanList_eq_some.mpr ⟨hon, hban, hallow⟩, trivial⟩

/-- The same, for each list in terms of what is read of it. -/
theorem loadable_iff : Loadable library config sources ↔
    (config.accessListMode ≠ .off → ∃ bytes, readAccessList config sources.accessList = some bytes ∧
      UsableAccessList bytes) ∧
    (config.ipBanMode = .on → ∃ bytes, readIpBanList config sources.ipBanList = some bytes ∧ True) ∧
    ((config.clientBanMode == .on || config.peerIdAllowlist) = true → ∃ read,
      readClientBanList config sources.clientBanList sources.peerIdAllowlist = some read ∧ True) ∧
    (config.trustedProxiesEnabled = true → ∃ bytes,
      readTrustedProxies config sources.trustedProxies = some bytes ∧
        UsableProxies library bytes) := by
  constructor
  · intro h
    refine ⟨?_, ?_, exists_readClientBanList_iff.mpr ⟨h.clientBanList, h.peerIdAllowlist⟩, ?_⟩
    · intro hon
      obtain ⟨bytes, hread, husable⟩ := h.accessList hon
      exact ⟨bytes, (readAccessList_eq_some hon).mpr hread, husable⟩
    · intro hon
      obtain ⟨bytes, hread⟩ := h.ipBanList hon
      exact ⟨bytes, (readIpBanList_eq_some hon).mpr hread, trivial⟩
    · intro hon
      obtain ⟨hpath, bytes, hread, husable⟩ := h.trustedProxies hon
      exact ⟨bytes, readTrustedProxies_eq_some.mpr ⟨hpath, hread⟩, husable⟩
  · rintro ⟨haccessList, hipBanList, hclientBanList, htrustedProxies⟩
    obtain ⟨hban, hallow⟩ := exists_readClientBanList_iff.mp hclientBanList
    refine ⟨?_, ?_, hban, hallow, ?_⟩
    · intro hon
      obtain ⟨bytes, hread, husable⟩ := haccessList hon
      exact ⟨bytes, (readAccessList_eq_some hon).mp hread, husable⟩
    · intro hon
      obtain ⟨bytes, hread, -⟩ := hipBanList hon
      exact ⟨bytes, (readIpBanList_eq_some hon).mp hread⟩
    · intro hon
      obtain ⟨bytes, hread, husable⟩ := htrustedProxies hon
      obtain ⟨hpath, hbytes⟩ := readTrustedProxies_eq_some.mp hread
      exact ⟨hpath, bytes, hbytes, husable⟩

/-- A tracker starts if and only if all its lists can be loaded. From then on every question is
answered from whole files, and a reload takes over a file that is usable or changes nothing. -/
theorem lists_follow_files (library : NetworkLibrary) (config : ListsConfig) (sources : Sources) :
    Starts library config sources (start library config sources) := by
  have hmade := madeFrom_init library config
  refine (updated_accessList hmade sources.accessList).bind hmade ?_
    fun err hfailed hload => hfailed (loadable_iff.mp hload).1
  intro lists₁ hmade₁ hload₁
  refine (updated_ipBanList hmade₁ sources.ipBanList).bind hmade₁ ?_
    fun err hfailed hload => hfailed (loadable_iff.mp hload).2.1
  intro lists₂ hmade₂ hload₂
  refine (updated_clientBanList hmade₂ sources.clientBanList sources.peerIdAllowlist).bind hmade₂ ?_
    fun err hfailed hload => hfailed (loadable_iff.mp hload).2.2.1
  intro lists₃ hmade₃ hload₃
  by_cases hon : config.trustedProxiesEnabled = true
  · have hupdated := updated_trustedProxies hmade₃ sources.trustedProxies hon
    cases heq : updateTrustedProxies library config lists₃ sources.trustedProxies with
    | error err =>
      rw [heq] at hupdated
      exact fun hload => hupdated.not_start fun _ => (loadable_iff.mp hload).2.2.2 hon
    | ok lists₄ =>
      rw [heq] at hupdated
      obtain ⟨hmade₄, hload₄⟩ := hupdated.start hmade₃
      refine ⟨loadable_iff.mpr ⟨hload₁, hload₂, hload₃, fun _ => hload₄ trivial⟩, ?_⟩
      intro as
      refine follows_files ?_ as
      unfold filesOf
      rw [if_pos hon]
      exact hmade₄
  · rw [updateTrustedProxies_off hon]
    refine ⟨loadable_iff.mpr ⟨hload₁, hload₂, hload₃, fun h => absurd h hon⟩, ?_⟩
    intro as
    refine follows_files ?_ as
    unfold filesOf
    rw [if_neg hon]
    exact ⟨hmade₃.accessList, hmade₃.ipBanList, hmade₃.clientBanList, rfl⟩

end Starting

end Aquatic.Lists
