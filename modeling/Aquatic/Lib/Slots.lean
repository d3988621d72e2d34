/-!
# A slot at the far end of a queue

The sender of messages knows what a slot will hold when all of them have arrived.
Every message is about one key: it puts the key into the slot or clears the slot,
and is only sent when the slot will hold nothing else by then.
-/

namespace Slots
set_option autoImplicit false

universe u v
variable {K : Type u} {M : Type v} (key : M → K) (clears : M → Bool)

def after (m : M) : Option K := if clears m then none else some (key m)

/-- From `e`, the messages lead to `f`, and none of them finds another key. -/
def Follows : Option K → List M → Option K → Prop
  | e, [], f => e = f
  | e, m :: ms, f => (∀ k, e = some k → k = key m) ∧ Follows (after key clears m) ms f

variable {key clears}

theorem follows_append {e f : Option K} {ms ms' : List M} :
    Follows key clears e (ms ++ ms') f ↔
      ∃ g, Follows key clears e ms g ∧ Follows key clears g ms' f := by
  induction ms generalizing e with
  | nil =>
    constructor
    · intro h
      exact ⟨e, rfl, h⟩
    · rintro ⟨g, rfl, h⟩
      exact h
  | cons m ms ih =>
    constructor
    · rintro ⟨hkey, hrest⟩
      obtain ⟨g, hg, hlast⟩ := ih.mp hrest
      exact ⟨g, ⟨hkey, hg⟩, hlast⟩
    · rintro ⟨g, ⟨hkey, hg⟩, hlast⟩
      exact ⟨hkey, ih.mpr ⟨g, hg, hlast⟩⟩

/-- A key in the slot is still there in the end, or a message on the way clears it. -/
theorem Follows.kept_or_cleared {k : K} {f : Option K} {ms : List M}
    (h : Follows key clears (some k) ms f) :
    f = some k ∨ ∃ m ∈ ms, clears m = true ∧ key m = k := by
  induction ms with
  | nil => exact .inl (Eq.symm h)
  | cons m ms ih =>
    obtain ⟨hkey, hrest⟩ := h
    have hk : k = key m := hkey k rfl
    cases hclears : clears m with
    | true => exact .inr ⟨m, List.mem_cons_self, hclears, hk.symm⟩
    | false =>
      have hafter : after key clears m = some k := by simp [after, hclears, hk]
      rw [hafter] at hrest
      rcases ih hrest with hf | ⟨m', hm', hcleared⟩
      · exact .inl hf
      · exact .inr ⟨m', List.mem_cons_of_mem m hm', hcleared⟩

end Slots
