import Mathlib.Data.List.Perm.Subperm

/-!
# Tickets

A ledger of what has been issued and what has been redeemed, with the tickets
that are still valid. If a valid ticket has always been issued more often than
redeemed, and redeeming makes it invalid, then everything that was redeemed was
issued, as often at least.
-/

namespace Tickets
set_option autoImplicit false

universe u
variable {κ : Type u} [DecidableEq κ]

structure Balanced (issued redeemed : List κ) (Valid : κ → Prop) : Prop where
  redeemed_le : ∀ k, redeemed.count k ≤ issued.count k
  redeemed_lt : ∀ {k}, Valid k → redeemed.count k < issued.count k

variable {issued redeemed : List κ} {Valid Valid' : κ → Prop}

theorem Balanced.nil (h : ∀ k, ¬ Valid k) : Balanced [] [] Valid :=
  ⟨fun _ => Nat.le_refl _, fun hk => absurd hk (h _)⟩

theorem Balanced.subperm (h : Balanced issued redeemed Valid) : redeemed.Subperm issued :=
  List.subperm_ext_iff.mpr fun k _ => h.redeemed_le k

/-- A ticket that becomes valid has just been issued. -/
theorem Balanced.issue (h : Balanced issued redeemed Valid) {new : List κ}
    (hvalid : ∀ {k}, Valid' k → Valid k ∨ k ∈ new) :
    Balanced (issued ++ new) redeemed Valid' := by
  constructor
  · intro k
    have hle := h.redeemed_le k
    rw [List.count_append]
    omega
  · intro k hk
    rw [List.count_append]
    rcases hvalid hk with hold | hnew
    · have hlt := h.redeemed_lt hold
      omega
    · have hle := h.redeemed_le k
      have hpos := List.count_pos_iff.mpr hnew
      omega

/-- Redeeming a valid ticket makes it invalid. -/
theorem Balanced.redeem (h : Balanced issued redeemed Valid) {k : κ} (hk : Valid k)
    (hvalid : ∀ {k'}, Valid' k' → Valid k' ∧ k' ≠ k) :
    Balanced issued (redeemed ++ [k]) Valid' := by
  have hcount : ∀ k', (redeemed ++ [k]).count k' =
      redeemed.count k' + if k' = k then 1 else 0 := by
    intro k'
    rw [List.count_append, List.count_singleton]
    by_cases hk' : k' = k
    · simp [hk']
    · simp [hk', Ne.symm hk']
  constructor
  · intro k'
    have hle := h.redeemed_le k'
    rw [hcount]
    split
    · rename_i hk'
      subst hk'
      exact h.redeemed_lt hk
    · exact hle
  · intro k' hk'
    obtain ⟨hold, hne⟩ := hvalid hk'
    rw [hcount, if_neg hne]
    exact h.redeemed_lt hold

end Tickets
