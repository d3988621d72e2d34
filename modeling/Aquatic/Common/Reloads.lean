import Aquatic.AutoBan.BanListFile
import Aquatic.AutoBan.Policy
import Aquatic.Common.AccessListFile
import Aquatic.Common.TrustedEntries

/-!
# Reloading the lists

The lists are read from their files when a tracker starts, and again on signals. A file that
cannot be used leaves its list as it was, and no other list depends on it: what is in force is
always what some whole file says.
-/

namespace Aquatic
open AutoBan
set_option autoImplicit false

/-- What reading a file gives. -/
abbrev FileRead := Except String (List UInt8)

structure ListsConfig where
  accessListMode : AccessListMode
  ipBanMode : IpBanMode
  clientBanMode : ClientBanMode
  banVampireClients : Bool
  /-- `peer_id_allowlist_path` is not empty. -/
  peerIdAllowlist : Bool
  trustedProxiesEnabled : Bool
  trustedProxiesPath : List Char

structure Lists where
  accessList : AccessList
  ipBanList : IpBanList
  clientBanList : ClientBanList
  trustedProxies : TrustedProxies

/-- The library that reads networks and looks them up. -/
structure NetworkLibrary where
  parseNetwork : List Char → Option IpRange
  display : IpAddr → List Char
  table : List IpRange → IpNetworkTable

namespace Lists

def init (library : NetworkLibrary) : Lists :=
  ⟨⟨[]⟩, .empty, ⟨[], [], true⟩, .fromIter library.table []⟩

def updateAccessList (config : ListsConfig) (lists : Lists) (file : FileRead) :
    Except String Lists :=
  if config.accessListMode = .off then .ok lists
  else do
    let accessList ← AccessList.createFromPath (← file)
    return { lists with accessList }

def updateIpBanList (config : ListsConfig) (lists : Lists) (file : FileRead) :
    Except String Lists :=
  if config.ipBanMode = .on then do
    return { lists with ipBanList := IpBanList.createFromPath (← file) }
  else .ok lists

/-- A file that is needed, read. -/
def readIf (needed : Bool) (file : FileRead) : Except String (Option (List UInt8)) :=
  if needed then file.map some else .ok none

def updateClientBanList (config : ListsConfig) (lists : Lists) (banList allowlist : FileRead) :
    Except String Lists :=
  let needsBanList := config.clientBanMode == .on
  let needsAllowlist := config.peerIdAllowlist
  if needsBanList || needsAllowlist then do
    let banList ← readIf needsBanList banList
    let allowlist ← readIf needsAllowlist allowlist
    return { lists with
      clientBanList := ClientBanList.create banList config.banVampireClients allowlist }
  else .ok lists

/-- The networks of a file, without the entries that are none. -/
def networks (library : NetworkLibrary) (bytes : List UInt8) : List IpRange :=
  (readListFile bytes).filterMap fun entry =>
    parseTrustedProxyEntry library.parseNetwork library.display entry.2

def updateTrustedProxies (library : NetworkLibrary) (config : ListsConfig) (lists : Lists)
    (file : FileRead) : Except String Lists :=
  if !config.trustedProxiesEnabled then
    .ok { lists with trustedProxies := .fromIter library.table [] }
  else if config.trustedProxiesPath.isEmpty then
    .error ("trusted_proxies.enabled = true but trusted_proxies.path is empty; " ++
      "configure a path or disable trusted_proxies")
  else do
    let networks := networks library (← file)
    if networks.isEmpty then
      .error (s!"trusted_proxies.enabled = true but '{String.ofList config.trustedProxiesPath}' " ++
        "contains no usable entries; refusing to start with an empty trusted proxy list because " ++
        "every X-Forwarded-For header would be ignored")
    else return { lists with trustedProxies := .fromIter library.table networks }

/-- What the files are when they are read. -/
structure Sources where
  accessList : FileRead
  ipBanList : FileRead
  clientBanList : FileRead
  peerIdAllowlist : FileRead
  trustedProxies : FileRead

/-- Nothing starts without its lists. -/
def start (library : NetworkLibrary) (config : ListsConfig) (sources : Sources) :
    Except String Lists := do
  let lists ← updateAccessList config (init library) sources.accessList
  let lists ← updateIpBanList config lists sources.ipBanList
  let lists ← updateClientBanList config lists sources.clientBanList sources.peerIdAllowlist
  updateTrustedProxies library config lists sources.trustedProxies

/-- Later on an error is only logged. -/
def orKeep (lists : Lists) : Except String Lists → Lists
  | .ok lists => lists
  | .error _ => lists

/-- `SIGUSR1` reloads the first list and `SIGUSR2` the others, one after the other, while the
workers ask. The list of banned addresses is also reloaded after permanent bans are flushed. -/
inductive Action where
  | reloadAccessList (file : FileRead)
  | reloadIpBanList (file : FileRead)
  | reloadClientBanList (banList allowlist : FileRead)
  | reloadTrustedProxies (file : FileRead)
  | allows (infoHash : InfoHash)
  | isIpBanned (ip : IpAddr)
  | isClientBanned (peerId : List Char)
  | isPeerIdAllowlisted (peerId : PeerId)
  | isTrusted (ip : IpAddr)

/-- `none` after a reload. -/
abbrev Answer := Option Bool

def step (library : NetworkLibrary) (config : ListsConfig) (lists : Lists) :
    Action → Option (Answer × Lists)
  | .reloadAccessList file => some (none, lists.orKeep (updateAccessList config lists file))
  | .reloadIpBanList file => some (none, lists.orKeep (updateIpBanList config lists file))
  | .reloadClientBanList banList allowlist =>
    some (none, lists.orKeep (updateClientBanList config lists banList allowlist))
  | .reloadTrustedProxies file =>
    some (none, lists.orKeep (updateTrustedProxies library config lists file))
  | .allows infoHash => some (some (lists.accessList.allows config.accessListMode infoHash), lists)
  | .isIpBanned ip => some (some (lists.ipBanList.isBanned ip), lists)
  | .isClientBanned peerId => some (some (lists.clientBanList.isBanned peerId), lists)
  | .isPeerIdAllowlisted peerId =>
    some (some (lists.clientBanList.isPeerIdAllowlisted peerId), lists)
  | .isTrusted ip => some (some (lists.trustedProxies.isTrusted ip), lists)

end Lists

end Aquatic
