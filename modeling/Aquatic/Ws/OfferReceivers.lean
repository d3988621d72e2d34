import Aquatic.Ws.StorageSpec

/-!
# The receivers of offers

How many receivers are taken is a `usize`, and one more than it is compared with the
number of peers. That is the only sum that may not fit.
-/

namespace Aquatic.Ws
open Collections
set_option autoImplicit false

/-- `a + b` on `usize`; `none` where it would overflow. -/
def usizeAdd (a b : Nat) : Option Nat :=
  if a + b < 18446744073709551616 then some (a + b) else none

section Selection
variable {K V R : Type} [DecidableEq K] (rng : Rng) (peerMap : IndexMap K V)
  (maxNumPeersToTake : UInt64) (senderPeerMapKey : K) (peerConversionFunction : K → V → R)

def extractResponsePeersChecked : Option (List R × Rng) := do
  let _sum ← usizeAdd maxNumPeersToTake.toNat 1
  extractResponsePeers rng peerMap maxNumPeersToTake.toNat senderPeerMapKey peerConversionFunction

/-- The values of as many entries as are wanted, or of all, but never the sender's. -/
def Selects : Prop :=
  ∃ (es : List (K × V)) (rng' : Rng),
    extractResponsePeersChecked rng peerMap maxNumPeersToTake senderPeerMapKey
      peerConversionFunction = some (es.map fun e => peerConversionFunction e.1 e.2, rng') ∧
    es.length = min maxNumPeersToTake.toNat (without senderPeerMapKey peerMap.entries).length ∧
    (∀ e ∈ es, e ∈ peerMap.entries ∧ e.1 ≠ senderPeerMapKey) ∧ (es.map Prod.fst).Nodup

theorem extractResponsePeers_selects (h : maxNumPeersToTake < 18446744073709551615) :
    Selects rng peerMap maxNumPeersToTake senderPeerMapKey peerConversionFunction := by
  have hlt : maxNumPeersToTake.toNat < 18446744073709551615 := UInt64.lt_iff_toNat_lt.mp h
  obtain ⟨es, rng', hes, hsub, hlength⟩ := extractResponsePeers_spec rng peerMap
    maxNumPeersToTake.toNat senderPeerMapKey peerConversionFunction
  refine ⟨es, rng', ?_, hlength, ?_, ?_⟩
  · rw [extractResponsePeersChecked, usizeAdd, if_pos (by omega)]
    exact hes
  · intro e he
    obtain ⟨hmem, hne⟩ := List.mem_filter.mp (hsub.subset he)
    exact ⟨hmem, of_decide_eq_true hne⟩
  · exact (without_keys_nodup senderPeerMapKey peerMap.nodup).sublist (hsub.map Prod.fst)

end Selection

/-- Two receivers of three peers, one of which sends the offers. -/
theorem extractResponsePeers_selects_two :
    (2 : UInt64) < 18446744073709551615 ∧
      Selects ⟨fun n => n⟩ (IndexMap.ofList [(0, 10), (1, 11), (2, 12)]) 2 1 fun _ value => value :=
  ⟨by decide, extractResponsePeers_selects _ _ _ _ _ (by decide)⟩

/-- The greatest limit there is, and one peer that is not the sender. -/
theorem not_selects_greatest :
    ¬ Selects ⟨fun n => n⟩ (IndexMap.ofList [(0, 10)]) 18446744073709551615 1
      fun _ value => value := by
  rintro ⟨es, rng', hes, -⟩
  cases hes

end Aquatic.Ws
