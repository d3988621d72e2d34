import Aquatic.Common.ValidUntil
import Aquatic.Lib.Collections

/-!
# The connection handles of an HTTP socket worker
-/

namespace Aquatic.Http
open Collections
set_option autoImplicit false

/-- A key of the slot map. -/
structure ConnectionId where
  idx : UInt32
  version : UInt32
  deriving DecidableEq, Repr

structure ConnectionHandle where
  validUntil : ValidUntil
  deriving DecidableEq, Repr

abbrev ConnectionHandles := IndexMap ConnectionId ConnectionHandle

/-- The handles that are kept, and the connections that are told to close. -/
def cleanConnections (connectionSlab : ConnectionHandles) (now : SecondsSinceServerStart) :
    ConnectionHandles × List ConnectionId :=
  (connectionSlab.retain fun _ handle => handle.validUntil.valid now,
    (connectionSlab.retain fun _ handle => !handle.validUntil.valid now).keys)

theorem cleanConnections_spec {connectionSlab : ConnectionHandles} {id : ConnectionId}
    {handle : ConnectionHandle} (h : connectionSlab.get id = some handle)
    (now : SecondsSinceServerStart) :
    ∃ kept told, cleanConnections connectionSlab now = (kept, told) ∧
      ((kept.get id).isSome = true ↔ handle.validUntil.valid now = true) ∧
      (id ∈ told ↔ ¬handle.validUntil.valid now = true) := by
  refine ⟨_, _, rfl, ?_, ?_⟩
  · rw [IndexMap.get_retain, h, Option.isSome_filter, Option.any_some]
  · rw [IndexMap.mem_keys_retain_iff h, Bool.not_eq_true', Bool.not_eq_true]

end Aquatic.Http
