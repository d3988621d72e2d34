import Aquatic.Common.ValidUntil
import Aquatic.Ws.Storage

/-!
# The connection handles of a WebSocket socket worker

A connection is told to close when nothing has been sent to it for too long, or when it
has run for too long on a TLS certificate that has been replaced.
-/

namespace Aquatic.Ws
open Collections
set_option autoImplicit false

/-- The address of a shared TLS config, by which `ptr_eq` compares. -/
structure RustlsConfig where
  ptr : Nat
  deriving DecidableEq, Repr

structure ConnectionHandle where
  validUntil : ValidUntil
  optTlsConfig : Option RustlsConfig
  validUntilAfterTlsUpdate : Option ValidUntil
  deriving DecidableEq, Repr

abbrev ConnectionHandles := IndexMap ConnectionId ConnectionHandle

namespace ConnectionHandle

/-- Whether the connection runs on another certificate than the current one. -/
def isOutdated (handle : ConnectionHandle) (optCurrentTlsConfig : Option RustlsConfig) : Bool :=
  match optCurrentTlsConfig, handle.optTlsConfig with
  | some current, some config => current ≠ config
  | _, _ => false

/-- The handle after the visit of `clean_connections` at `clock`, or nothing if the connection
is told to close. -/
def clean (handle : ConnectionHandle) (now clock : SecondsSinceServerStart)
    (optCurrentTlsConfig : Option RustlsConfig) (closeAfterTlsUpdateGracePeriod : UInt32) :
    Option ConnectionHandle :=
  let (keep, handle) :=
    match handle.validUntilAfterTlsUpdate with
    | some validUntil => (validUntil.valid now, handle)
    | none =>
      if handle.isOutdated optCurrentTlsConfig then
        (true, { handle with
          validUntilAfterTlsUpdate :=
            some (ValidUntil.newWithNow clock closeAfterTlsUpdateGracePeriod) })
      else (true, handle)
  if keep && handle.validUntil.valid now then some handle else none

end ConnectionHandle

/-- The handles that are kept, and the connections that are told to close. The clock is read
again for every connection. -/
def cleanConnections (connectionSlab : ConnectionHandles) (now : SecondsSinceServerStart)
    (clock : ConnectionId → SecondsSinceServerStart) (optCurrentTlsConfig : Option RustlsConfig)
    (closeAfterTlsUpdateGracePeriod : UInt32) : ConnectionHandles × List ConnectionId :=
  let clean (id : ConnectionId) (handle : ConnectionHandle) : Option ConnectionHandle :=
    handle.clean now (clock id) optCurrentTlsConfig closeAfterTlsUpdateGracePeriod
  (connectionSlab.filterMap clean,
    (connectionSlab.retain fun id handle => (clean id handle).isNone).keys)

namespace ConnectionHandle

/-- Neither deadline of the connection is over. -/
def Lasts (handle : ConnectionHandle) (now : SecondsSinceServerStart) : Prop :=
  handle.validUntil.valid now = true ∧
    ∀ validUntil, handle.validUntilAfterTlsUpdate = some validUntil → validUntil.valid now = true

theorem isSome_clean_iff (handle : ConnectionHandle) (now clock : SecondsSinceServerStart)
    (optCurrentTlsConfig : Option RustlsConfig) (gracePeriod : UInt32) :
    (handle.clean now clock optCurrentTlsConfig gracePeriod).isSome = true ↔ handle.Lasts now := by
  unfold clean Lasts
  cases handle.validUntilAfterTlsUpdate with
  | none => cases handle.isOutdated optCurrentTlsConfig <;> simp
  | some validUntil => simp [and_comm]

end ConnectionHandle

/-- A connection keeps its handle, or else it is told to close. -/
theorem cleanConnections_spec {connectionSlab : ConnectionHandles} {id : ConnectionId}
    {handle : ConnectionHandle} (h : connectionSlab.get id = some handle)
    (now : SecondsSinceServerStart) (clock : ConnectionId → SecondsSinceServerStart)
    (optCurrentTlsConfig : Option RustlsConfig) (gracePeriod : UInt32) :
    ∃ kept told,
      cleanConnections connectionSlab now clock optCurrentTlsConfig gracePeriod = (kept, told) ∧
        ((kept.get id).isSome = true ↔ handle.Lasts now) ∧ (id ∈ told ↔ ¬handle.Lasts now) := by
  have hclean := handle.isSome_clean_iff now (clock id) optCurrentTlsConfig gracePeriod
  refine ⟨_, _, rfl, ?_, ?_⟩
  · rw [IndexMap.get_filterMap, h, Option.bind_some]
    exact hclean
  · rw [IndexMap.mem_keys_retain_iff h, ← hclean, Option.isNone_iff_eq_none,
      Option.not_isSome_iff_eq_none]

end Aquatic.Ws
