/-!
# A ring of places with free-running counters

Writer and reader count on for ever, and the place of a counter is its remainder by the
number of places. The window are the entries that the reader has still to come to: a
queue, as long as the writer never goes around.
-/

namespace Ring
set_option autoImplicit false

universe u
variable {α : Type u} {n : Nat}

/-- What `count` counters from `head` on find at their places. -/
def window (cells : Nat → α) (n head count : Nat) : List α :=
  (List.range count).map fun i => cells ((head + i) % n)

@[simp] theorem window_zero (cells : Nat → α) (head : Nat) : window cells n head 0 = [] := rfl

@[simp] theorem length_window (cells : Nat → α) (head count : Nat) :
    (window cells n head count).length = count := by
  simp [window]

/-- Counters that wrap around keep their places. -/
theorem window_congr (cells : Nat → α) {head head' : Nat} (h : head % n = head' % n)
    (count : Nat) : window cells n head count = window cells n head' count := by
  apply List.map_congr_left
  intro i _
  rw [Nat.add_mod, h, ← Nat.add_mod]

/-- The reader takes the first entry. -/
theorem window_succ (cells : Nat → α) (head count : Nat) :
    window cells n head (count + 1) = cells (head % n) :: window cells n (head + 1) count := by
  simp only [window, List.range_succ_eq_map, List.map_cons, List.map_map, Nat.add_zero]
  congr 1
  apply List.map_congr_left
  intro i _
  simp only [Function.comp_apply, Nat.succ_eq_add_one, Nat.add_right_comm, Nat.add_assoc]

theorem place_ne (head : Nat) {i count : Nat} (hi : i < count) (hcount : count < n) :
    (head + i) % n ≠ (head + count) % n := by
  intro heq
  have hzero := Nat.sub_mod_eq_zero_of_mod_eq heq.symm
  rw [Nat.mod_eq_of_lt (by omega)] at hzero
  omega

/-- The writer adds an entry behind the others, if there is a place left. -/
theorem window_write (cells : Nat → α) (head : Nat) {count : Nat} (hcount : count < n) (x : α) :
    window (fun place => if place = (head + count) % n then x else cells place) n head
      (count + 1) = window cells n head count ++ [x] := by
  simp only [window, List.range_succ, List.map_append, List.map_cons, List.map_nil, if_true]
  congr 1
  apply List.map_congr_left
  intro i hi
  exact if_neg (place_ne head (List.mem_range.mp hi) hcount)

end Ring
