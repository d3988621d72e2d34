import Mathlib.Data.List.Nodup
import Mathlib.Data.List.Perm.Basic
import Mathlib.Data.Set.Card

/-!
# Insertion-ordered maps and bounded vectors

`IndexMap` keeps its entries in a list with distinct keys; `ArrayVec` is a list
with a capacity. Both carry their invariant as a field. Every operation on a
map is described twice: by the entries it leaves (up to order, which only
`swapRemove` disturbs) and by `get`.
-/

namespace Collections
set_option autoImplicit false

universe u v
variable {K : Type u} {V : Type v}

section Entries
variable [DecidableEq K]

def lookup (k : K) (es : List (K × V)) : Option V :=
  (es.find? fun e => e.1 = k).map Prod.snd

/-- The entries other than that of `k`, in order. -/
def without (k : K) (es : List (K × V)) : List (K × V) :=
  es.filter fun e => e.1 ≠ k

/-- Replace the value of `k` where it stands, or append a new entry. -/
def upsert (k : K) (v : V) : List (K × V) → List (K × V)
  | [] => [(k, v)]
  | e :: es => if e.1 = k then (k, v) :: es else e :: upsert k v es

/-- Remove the entry of `k` by moving the last entry into its place. -/
def swapErase (k : K) : List (K × V) → List (K × V)
  | [] => []
  | e :: es =>
    if e.1 = k then
      match es.getLast? with
      | none => []
      | some l => l :: es.dropLast
    else e :: swapErase k es

theorem without_eq_self {k : K} {es : List (K × V)} (h : k ∉ es.map Prod.fst) :
    without k es = es := by
  apply List.filter_eq_self.mpr
  intro e he
  have hne : e.1 ≠ k := fun heq => h (heq ▸ List.mem_map_of_mem he)
  simpa using hne

theorem without_cons_self {e : K × V} {es : List (K × V)} (h : e.1 ∉ es.map Prod.fst) :
    without e.1 (e :: es) = es := by
  have hw := without_eq_self h
  simpa [without] using hw

theorem without_cons_of_ne {k : K} {e : K × V} (h : e.1 ≠ k) (es : List (K × V)) :
    without k (e :: es) = e :: without k es := by
  simp [without, h]

theorem upsert_perm (k : K) (v : V) {es : List (K × V)} (h : (es.map Prod.fst).Nodup) :
    (upsert k v es).Perm ((k, v) :: without k es) := by
  induction es with
  | nil => exact List.Perm.refl _
  | cons e es ih =>
    obtain ⟨hne, hes⟩ := List.nodup_cons.mp h
    by_cases hk : e.1 = k
    · subst hk
      rw [without_cons_self hne]
      simp [upsert]
    · rw [without_cons_of_ne hk]
      simp only [upsert, hk, if_false]
      exact ((ih hes).cons e).trans (List.Perm.swap _ _ _)

theorem swapErase_perm (k : K) {es : List (K × V)} (h : (es.map Prod.fst).Nodup) :
    (swapErase k es).Perm (without k es) := by
  induction es with
  | nil => exact List.Perm.refl _
  | cons e es ih =>
    obtain ⟨hne, hes⟩ := List.nodup_cons.mp h
    by_cases hk : e.1 = k
    · subst hk
      rw [without_cons_self hne]
      rcases List.eq_nil_or_concat es with rfl | ⟨front, l, rfl⟩
      · simp [swapErase]
      · simpa [swapErase] using (List.perm_append_singleton l front).symm
    · rw [without_cons_of_ne hk]
      simpa only [swapErase, hk, if_false] using (ih hes).cons e

theorem lookup_eq_some_iff {es : List (K × V)} (h : (es.map Prod.fst).Nodup) (k : K) (v : V) :
    lookup k es = some v ↔ (k, v) ∈ es := by
  induction es with
  | nil => simp [lookup]
  | cons e es ih =>
    obtain ⟨hne, hes⟩ := List.nodup_cons.mp h
    by_cases hk : e.1 = k
    · subst hk
      have hv : ∀ w, (e.1, w) ∉ es := fun w hw => hne (List.mem_map.mpr ⟨_, hw, rfl⟩)
      simp [lookup, hv, Prod.ext_iff, eq_comm]
    · have hek : e ≠ (k, v) := fun heq => hk (by rw [heq])
      have hrest := ih hes
      simp only [lookup] at hrest
      simp [lookup, hk, hrest, Ne.symm hek]

theorem without_keys_nodup (k : K) {es : List (K × V)} (h : (es.map Prod.fst).Nodup) :
    ((without k es).map Prod.fst).Nodup :=
  h.sublist (List.filter_sublist.map Prod.fst)

theorem not_mem_without_keys (k : K) (es : List (K × V)) : k ∉ (without k es).map Prod.fst := by
  simp [without]

/-- One entry is missing at most. -/
theorem length_le_without (k : K) {es : List (K × V)} (h : (es.map Prod.fst).Nodup) :
    es.length ≤ (without k es).length + 1 := by
  induction es with
  | nil => exact Nat.zero_le _
  | cons e es ih =>
    obtain ⟨hne, hes⟩ := List.nodup_cons.mp h
    by_cases hk : e.1 = k
    · subst hk
      rw [without_cons_self hne, List.length_cons]
    · rw [without_cons_of_ne hk, List.length_cons, List.length_cons]
      exact Nat.succ_le_succ (ih hes)

theorem lookup_congr {es fs : List (K × V)} (he : (es.map Prod.fst).Nodup) (h : es.Perm fs)
    (k : K) : lookup k es = lookup k fs := by
  apply Option.ext
  intro v
  have hf := (h.map Prod.fst).nodup_iff.mp he
  rw [lookup_eq_some_iff he, lookup_eq_some_iff hf, h.mem_iff]

theorem lookup_without {es : List (K × V)} (h : (es.map Prod.fst).Nodup) (k k' : K) :
    lookup k' (without k es) = if k' = k then none else lookup k' es := by
  apply Option.ext
  intro v
  rw [lookup_eq_some_iff (without_keys_nodup k h)]
  by_cases hk : k' = k
  · simp [without, hk]
  · simp [without, hk, lookup_eq_some_iff h]

theorem lookup_cons (k : K) (v : V) (es : List (K × V)) (k' : K) :
    lookup k' ((k, v) :: es) = if k' = k then some v else lookup k' es := by
  by_cases hk : k = k'
  · simp [lookup, hk]
  · simp [lookup, hk, Ne.symm hk]

end Entries

theorem countP_split {α : Type u} (p keep : α → Bool) (xs : List α) :
    xs.countP p = (xs.filter keep).countP p + xs.countP fun x => !keep x && p x := by
  induction xs with
  | nil => rfl
  | cons x xs ih =>
    cases hk : keep x <;> cases hp : p x <;> simp [hk, hp, ih] <;> omega

theorem countP_set_add {α : Type u} {xs : List α} {i : Nat} {x : α} (h : xs[i]? = some x)
    (p : α → Bool) (y : α) :
    ((xs.set i y).countP p + if p x then 1 else 0) = xs.countP p + if p y then 1 else 0 := by
  induction xs generalizing i with
  | nil => cases h
  | cons z zs ih =>
    cases i with
    | zero =>
      cases h
      rw [List.set_cons_zero, List.countP_cons, List.countP_cons]
      omega
    | succ i =>
      have ih := ih h
      rw [List.set_cons_succ, List.countP_cons, List.countP_cons]
      omega

theorem sum_map_set_add {α : Type u} {xs : List α} {i : Nat} {x : α} (h : xs[i]? = some x)
    (f : α → Nat) (y : α) : ((xs.set i y).map f).sum + f x = (xs.map f).sum + f y := by
  induction xs generalizing i with
  | nil => cases h
  | cons z zs ih =>
    cases i with
    | zero =>
      cases h
      rw [List.set_cons_zero, List.map_cons, List.map_cons, List.sum_cons, List.sum_cons]
      omega
    | succ i =>
      have ih := ih h
      rw [List.set_cons_succ, List.map_cons, List.map_cons, List.sum_cons, List.sum_cons]
      omega

/-- Two slices, the second behind the first, pick distinct positions. -/
theorem slices_sublist {α : Type u} (xs : List α) {a b c : Nat} (hab : a ≤ b) (hbc : b ≤ c)
    (n : Nat) : ((xs.drop a).take (b - a) ++ (xs.drop c).take n).Sublist xs := by
  have hfront : ((xs.drop a).take (b - a)).Sublist (xs.take b) := by
    rw [← Nat.add_sub_cancel' hab, Nat.add_sub_cancel_left, List.take_add]
    exact List.sublist_append_right _ _
  have hback : ((xs.drop c).take n).Sublist (xs.drop b) :=
    (List.take_sublist n _).trans (List.drop_sublist_drop_left xs hbc)
  calc
    ((xs.drop a).take (b - a) ++ (xs.drop c).take n).Sublist (xs.take b ++ xs.drop b) :=
      hfront.append hback
    _ = xs := List.take_append_drop b xs

/-- A map that remembers insertion order; `nodup` says no key occurs twice. -/
structure IndexMap (K : Type u) (V : Type v) where
  entries : List (K × V)
  nodup : (entries.map Prod.fst).Nodup

namespace IndexMap

instance [DecidableEq K] [DecidableEq V] : DecidableEq (IndexMap K V) := fun m n =>
  decidable_of_iff (m.entries = n.entries)
    ⟨fun h => by cases m; cases n; simp_all, fun h => by rw [h]⟩

def empty : IndexMap K V := ⟨[], List.nodup_nil⟩

instance : Inhabited (IndexMap K V) := ⟨empty⟩

def len (m : IndexMap K V) : Nat := m.entries.length

def isEmpty (m : IndexMap K V) : Bool := m.entries.isEmpty

def keys (m : IndexMap K V) : List K := m.entries.map Prod.fst

def values (m : IndexMap K V) : List V := m.entries.map Prod.snd

/-- Entries by position; `none` when the range does not lie inside the map. -/
def getRange (m : IndexMap K V) (first last : Nat) : Option (List (K × V)) :=
  if first ≤ last ∧ last ≤ m.len then some ((m.entries.drop first).take (last - first)) else none

/-- Keep the entries that satisfy `p`, in order. -/
def retain (m : IndexMap K V) (p : K → V → Bool) : IndexMap K V :=
  ⟨m.entries.filter fun e => p e.1 e.2, m.nodup.sublist (List.filter_sublist.map Prod.fst)⟩

/-- Visit the values in order, updating or dropping each. -/
def filterMap {W : Type v} (m : IndexMap K V) (f : K → V → Option W) : IndexMap K W where
  entries := m.entries.filterMap fun e => (f e.1 e.2).map (e.1, ·)
  nodup := by
    have hsub : ∀ es : List (K × V),
        ((es.filterMap fun e => (f e.1 e.2).map (e.1, ·)).map Prod.fst).Sublist
          (es.map Prod.fst) := by
      intro es
      induction es with
      | nil => simp
      | cons e es ih =>
        cases hf : f e.1 e.2 with
        | none => simpa [List.filterMap_cons, hf] using ih.cons e.1
        | some w => simpa [List.filterMap_cons, hf] using ih.cons_cons e.1
    exact m.nodup.sublist (hsub _)

/-- The same with a visit that may abort; then the whole pass does. -/
def filterMapM {W : Type v} (m : IndexMap K V) (f : K → V → Option (Option W)) :
    Option (IndexMap K W) :=
  if m.entries.all fun e => (f e.1 e.2).isSome then some (m.filterMap fun k v => (f k v).join)
  else none

/-- How many values satisfy `q`. -/
def count (m : IndexMap K V) (q : V → Bool) : Nat := m.entries.countP fun e => q e.2

theorem count_le_len (m : IndexMap K V) (q : V → Bool) : m.count q ≤ m.len :=
  List.countP_le_length

theorem count_not (m : IndexMap K V) (q : V → Bool) :
    m.count (fun v => !q v) = m.len - m.count q := by
  have h := List.length_eq_countP_add_countP (fun e : K × V => q e.2) (l := m.entries)
  simp only [len, count]
  simp only [Bool.not_eq_true, Bool.decide_eq_false] at h
  omega

theorem getRange_of_le {m : IndexMap K V} {first last : Nat} (h : first ≤ last)
    (hlast : last ≤ m.len) :
    m.getRange first last = some ((m.entries.drop first).take (last - first)) :=
  if_pos ⟨h, hlast⟩

variable [DecidableEq K]

def get (m : IndexMap K V) (k : K) : Option V := lookup k m.entries

def contains (m : IndexMap K V) (k : K) : Bool := (m.get k).isSome

def insert (m : IndexMap K V) (k : K) (v : V) : IndexMap K V where
  entries := upsert k v m.entries
  nodup := by
    refine ((upsert_perm k v m.nodup).map Prod.fst).nodup_iff.mpr ?_
    exact List.nodup_cons.mpr ⟨not_mem_without_keys k _, without_keys_nodup k m.nodup⟩

/-- Remove `k`, filling its place with the last entry. -/
def swapRemove (m : IndexMap K V) (k : K) : IndexMap K V where
  entries := swapErase k m.entries
  nodup := ((swapErase_perm k m.nodup).map Prod.fst).nodup_iff.mpr (without_keys_nodup k m.nodup)

/-- Remove `k`, keeping the order of the others. -/
def erase (m : IndexMap K V) (k : K) : IndexMap K V :=
  ⟨without k m.entries, without_keys_nodup k m.nodup⟩

/-- Change the value of `k`, if there is one, where it stands. -/
def modify (m : IndexMap K V) (k : K) (f : V → V) : IndexMap K V :=
  match m.get k with
  | none => m
  | some v => m.insert k (f v)

/-- Collect pairs; a later pair replaces an earlier one of the same key. -/
def ofList (es : List (K × V)) : IndexMap K V :=
  es.foldl (fun m e => m.insert e.1 e.2) empty

theorem get_eq_some_iff (m : IndexMap K V) (k : K) (v : V) :
    m.get k = some v ↔ (k, v) ∈ m.entries := lookup_eq_some_iff m.nodup k v

theorem get_eq_none_iff (m : IndexMap K V) (k : K) : m.get k = none ↔ k ∉ m.keys := by
  rw [Option.eq_none_iff_forall_ne_some]
  simp [get_eq_some_iff, keys]

@[simp] theorem get_empty (k : K) : (empty : IndexMap K V).get k = none := rfl

theorem entries_insert (m : IndexMap K V) (k : K) (v : V) :
    (m.insert k v).entries.Perm ((k, v) :: (m.erase k).entries) := upsert_perm k v m.nodup

theorem entries_swapRemove (m : IndexMap K V) (k : K) :
    (m.swapRemove k).entries.Perm (m.erase k).entries := swapErase_perm k m.nodup

theorem mem_erase (m : IndexMap K V) (k : K) (e : K × V) :
    e ∈ (m.erase k).entries ↔ e ∈ m.entries ∧ e.1 ≠ k := by
  simp [erase, without]

@[simp] theorem get_insert (m : IndexMap K V) (k : K) (v : V) (k' : K) :
    (m.insert k v).get k' = if k' = k then some v else m.get k' := by
  apply Option.ext
  intro w
  rw [get_eq_some_iff, (entries_insert m k v).mem_iff, List.mem_cons, mem_erase]
  by_cases hk : k' = k
  · simp [hk, eq_comm]
  · simp [hk, get_eq_some_iff]

@[simp] theorem get_erase (m : IndexMap K V) (k k' : K) :
    (m.erase k).get k' = if k' = k then none else m.get k' := by
  apply Option.ext
  intro w
  rw [get_eq_some_iff, mem_erase]
  by_cases hk : k' = k
  · simp [hk]
  · simp [hk, get_eq_some_iff]

@[simp] theorem get_swapRemove (m : IndexMap K V) (k k' : K) :
    (m.swapRemove k).get k' = if k' = k then none else m.get k' := by
  rw [← get_erase]
  apply Option.ext
  intro w
  rw [get_eq_some_iff, get_eq_some_iff, (entries_swapRemove m k).mem_iff]

@[simp] theorem get_modify (m : IndexMap K V) (k : K) (f : V → V) (k' : K) :
    (m.modify k f).get k' = if k' = k then (m.get k).map f else m.get k' := by
  unfold modify
  split
  · rename_i hnone
    by_cases hk : k' = k
    · simp [hk, hnone]
    · simp [hk]
  · rename_i v hv
    by_cases hk : k' = k
    · simp [hk, hv]
    · simp [hk]

@[simp] theorem get_retain (m : IndexMap K V) (p : K → V → Bool) (k : K) :
    (m.retain p).get k = (m.get k).filter (p k) := by
  apply Option.ext
  intro v
  rw [get_eq_some_iff, Option.filter_eq_some_iff, get_eq_some_iff]
  simp [retain]

theorem mem_keys_retain_iff {m : IndexMap K V} {k : K} {v : V} (h : m.get k = some v)
    (p : K → V → Bool) : k ∈ (m.retain p).keys ↔ p k v = true := by
  rw [← not_iff_not, ← get_eq_none_iff, get_retain, h]
  simp [Option.filter]

@[simp] theorem get_filterMap {W : Type v} (m : IndexMap K V) (f : K → V → Option W) (k : K) :
    (m.filterMap f).get k = (m.get k).bind (f k) := by
  apply Option.ext
  intro w
  simp only [get_eq_some_iff, Option.bind_eq_some_iff]
  simp only [filterMap, List.mem_filterMap, Option.map_eq_some_iff, Prod.mk.injEq]
  constructor
  · rintro ⟨⟨k', v⟩, hmem, w', hf, rfl, rfl⟩
    exact ⟨v, hmem, hf⟩
  · rintro ⟨v, hmem, hf⟩
    exact ⟨(k, v), hmem, w, hf, rfl, rfl⟩

/-- A loop over the entries of another map that visits the value of each of their keys. -/
theorem get_foldl_entries {W : Type v} {f : IndexMap K V → K × W → IndexMap K V}
    {g : K → W → Option V → Option V}
    (hf : ∀ m e k, (f m e).get k = if k = e.1 then g k e.2 (m.get k) else m.get k)
    (n : IndexMap K W) (m : IndexMap K V) (k : K) :
    (n.entries.foldl f m).get k =
      (n.get k).elim (m.get k) fun w => g k w (m.get k) := by
  suffices h : ∀ (es : List (K × W)) (m : IndexMap K V), (es.map Prod.fst).Nodup →
      (es.foldl f m).get k = (lookup k es).elim (m.get k) fun w => g k w (m.get k) from
    h n.entries m n.nodup
  intro es
  induction es with
  | nil => exact fun _ _ => rfl
  | cons e es ih =>
    intro m hnodup
    obtain ⟨hnew, hrest⟩ := List.nodup_cons.mp hnodup
    rw [List.foldl_cons, ih (f m e) hrest, hf, lookup_cons e.1 e.2]
    by_cases hk : k = e.1
    · have hnone : lookup k es = none := by
        cases hlookup : lookup k es with
        | none => rfl
        | some w =>
          have hmem := (lookup_eq_some_iff hrest k w).mp hlookup
          exact absurd (List.mem_map.mpr ⟨_, hmem, hk⟩) hnew
      rw [hnone, if_pos hk, if_pos hk]
      rfl
    · rw [if_neg hk, if_neg hk]

theorem filterMapM_eq {W : Type v} {m : IndexMap K V} {f : K → V → Option (Option W)}
    (h : ∀ k v, m.get k = some v → ∃ w, f k v = some w) :
    m.filterMapM f = some (m.filterMap fun k v => (f k v).join) := by
  apply if_pos
  rw [List.all_eq_true]
  intro e he
  obtain ⟨w, hw⟩ := h e.1 e.2 ((get_eq_some_iff m e.1 e.2).mpr he)
  rw [hw]
  rfl

theorem isEmpty_iff (m : IndexMap K V) : m.isEmpty ↔ ∀ k, m.get k = none := by
  simp only [get_eq_none_iff, isEmpty, List.isEmpty_iff, keys]
  constructor
  · intro h
    simp [h]
  · intro h
    rw [← List.map_eq_nil_iff (f := Prod.fst), List.eq_nil_iff_forall_not_mem]
    exact h

/-- Collecting pairs with distinct keys keeps them all, in order. -/
theorem entries_ofList {es : List (K × V)} (h : (es.map Prod.fst).Nodup) :
    (ofList es).entries = es := by
  have hnew : ∀ (k : K) (v : V) (xs : List (K × V)), k ∉ xs.map Prod.fst →
      upsert k v xs = xs ++ [(k, v)] := by
    intro k v xs hk
    induction xs with
    | nil => rfl
    | cons x xs ih =>
      simp only [List.map_cons, List.mem_cons, not_or] at hk
      simp [upsert, Ne.symm hk.1, ih hk.2]
  have hfold : ∀ (xs : List (K × V)) (m : IndexMap K V), (xs.map Prod.fst).Nodup →
      (∀ e ∈ xs, e.1 ∉ m.keys) →
      (xs.foldl (fun m e => m.insert e.1 e.2) m).entries = m.entries ++ xs := by
    intro xs
    induction xs with
    | nil => simp
    | cons x xs ih =>
      intro m hxs hm
      obtain ⟨hne, htail⟩ := List.nodup_cons.mp hxs
      have hx : (m.insert x.1 x.2).entries = m.entries ++ [x] :=
        hnew x.1 x.2 m.entries (hm x List.mem_cons_self)
      rw [List.foldl_cons, ih _ htail, hx, List.append_assoc, List.singleton_append]
      intro e he hkey
      simp only [keys, hx, List.map_append, List.mem_append, List.map_cons, List.map_nil,
        List.mem_singleton] at hkey
      rcases hkey with hkey | hkey
      · exact hm e (List.mem_cons_of_mem x he) hkey
      · exact hne (hkey ▸ List.mem_map_of_mem he)
  simpa [ofList, empty] using hfold es empty h (by simp [keys, empty])

theorem count_insert (m : IndexMap K V) (q : V → Bool) (k : K) (v : V) :
    (m.insert k v).count q = (m.erase k).count q + if q v then 1 else 0 := by
  unfold count
  rw [(entries_insert m k v).countP_eq, List.countP_cons]

theorem count_swapRemove (m : IndexMap K V) (q : V → Bool) (k : K) :
    (m.swapRemove k).count q = (m.erase k).count q := (entries_swapRemove m k).countP_eq _

/-- Writing back the value of a key changes nothing, not even the order. -/
theorem insert_eq_self {m : IndexMap K V} {k : K} {v : V} (h : m.get k = some v) :
    m.insert k v = m := by
  have hlist : ∀ es : List (K × V), (es.map Prod.fst).Nodup → (k, v) ∈ es →
      upsert k v es = es := by
    intro es hes hmem
    induction es with
    | nil => cases hmem
    | cons e es ih =>
      obtain ⟨hne, hes⟩ := List.nodup_cons.mp hes
      by_cases hk : e.1 = k
      · have he : e = (k, v) := by
          rcases List.mem_cons.mp hmem with he | hmem
          · exact he.symm
          · exact absurd (List.mem_map_of_mem hmem) (hk ▸ hne)
        rw [he]
        simp [upsert]
      · have hmem : (k, v) ∈ es := by
          rcases List.mem_cons.mp hmem with he | hmem
          · exact absurd (congrArg Prod.fst he).symm hk
          · exact hmem
        simp only [upsert, hk, if_false, ih hes hmem]
  have hupsert := hlist m.entries m.nodup ((get_eq_some_iff m k v).mp h)
  cases m
  simpa [insert] using hupsert

theorem erase_eq_self {m : IndexMap K V} {k : K} (h : m.get k = none) : m.erase k = m := by
  have hw := without_eq_self ((get_eq_none_iff m k).mp h)
  cases m
  simpa [erase] using hw

theorem count_erase (m : IndexMap K V) (q : V → Bool) (k : K) :
    m.count q = (m.erase k).count q + if (m.get k).any q then 1 else 0 := by
  cases hk : m.get k with
  | none => simp [erase_eq_self hk]
  | some v =>
    have hperm : m.entries.Perm ((k, v) :: (m.erase k).entries) := by
      refine (List.perm_ext_iff_of_nodup m.nodup.of_map ?_).mpr ?_
      · refine List.nodup_cons.mpr ⟨?_, (m.erase k).nodup.of_map⟩
        rw [mem_erase]
        simp
      · rintro ⟨k', w⟩
        rw [List.mem_cons, mem_erase]
        by_cases hkk : k' = k
        · subst hkk
          rw [← get_eq_some_iff, hk]
          simp [eq_comm]
        · simp [hkk]
    unfold count
    rw [hperm.countP_eq, List.countP_cons]
    simp

theorem count_insert_add (m : IndexMap K V) (q : V → Bool) (k : K) (v : V) :
    ((m.insert k v).count q + if (m.get k).any q then 1 else 0) =
      m.count q + if q v then 1 else 0 := by
  rw [count_insert, m.count_erase q k]
  omega

theorem count_swapRemove_add (m : IndexMap K V) (q : V → Bool) (k : K) :
    ((m.swapRemove k).count q + if (m.get k).any q then 1 else 0) = m.count q := by
  rw [count_swapRemove, ← m.count_erase q k]

omit [DecidableEq K] in
/-- Dropping entries and changing the others in a way that `q` does not see. -/
theorem count_filterMap (m : IndexMap K V) (keep : V → Bool) {g : V → V} {q : V → Bool}
    (hq : ∀ v, q (g v) = q v) :
    (m.filterMap fun _ v => if keep v then some (g v) else none).count q =
      (m.entries.filter fun e => keep e.2).countP fun e => q e.2 := by
  have hlist : ∀ es : List (K × V),
      ((es.filterMap fun e => (if keep e.2 then some (g e.2) else none).map (e.1, ·)).countP
        fun e => q e.2) = (es.filter fun e => keep e.2).countP fun e => q e.2 := by
    intro es
    induction es with
    | nil => rfl
    | cons e es ih =>
      cases hk : keep e.2 with
      | false => simpa [hk] using ih
      | true =>
        simp only [List.filterMap_cons, hk, if_true, Option.map_some, List.countP_cons, hq,
          List.filter_cons]
        rw [ih]
  exact hlist m.entries

omit [DecidableEq K] in
theorem len_eq_count (m : IndexMap K V) : m.len = m.count fun _ => true :=
  (congrFun List.countP_true m.entries).symm

theorem len_insert (m : IndexMap K V) (k : K) (v : V) :
    (m.insert k v).len = if m.contains k then m.len else m.len + 1 := by
  have hadd := m.count_insert_add (fun _ => true) k v
  rw [← len_eq_count, ← len_eq_count, if_pos rfl] at hadd
  cases hk : m.get k with
  | none =>
    rw [hk, Option.any_none, if_neg Bool.false_ne_true] at hadd
    rw [contains, hk, Option.isSome_none, if_neg Bool.false_ne_true]
    exact hadd
  | some w =>
    rw [hk, Option.any_some, if_pos rfl] at hadd
    rw [contains, hk, Option.isSome_some, if_pos rfl]
    omega

theorem len_erase_le (m : IndexMap K V) (k : K) : (m.erase k).len ≤ m.len := List.length_filter_le _ _

theorem len_modify (m : IndexMap K V) (k : K) (f : V → V) : (m.modify k f).len = m.len := by
  unfold modify
  split
  · rfl
  · rename_i v hv
    rw [len_insert, contains, hv, Option.isSome_some, if_pos rfl]

/-- Keys that differ are no more than the entries. -/
theorem length_le_len {m : IndexMap K V} {ks : List K} (hnodup : ks.Nodup)
    (h : ∀ k ∈ ks, (m.get k).isSome) : ks.length ≤ m.len := by
  have hsub : ks ⊆ m.keys := by
    intro k hk
    by_contra hnot
    have hsome := h k hk
    rw [(get_eq_none_iff m k).mpr hnot] at hsome
    cases hsome
  have hlen : m.keys.length = m.len := List.length_map _
  exact hlen ▸ (hnodup.subperm hsub).length_le

/-- Counting entries is counting the keys whose value satisfies `q`. -/
theorem count_eq_ncard (m : IndexMap K V) (q : V → Bool) :
    m.count q = Set.ncard {k | ∃ v, m.get k = some v ∧ q v} := by
  have hset : {k | ∃ v, m.get k = some v ∧ q v} =
      (((m.entries.filter fun e => q e.2).map Prod.fst).toFinset : Set K) := by
    ext k
    simp [get_eq_some_iff]
  have hnodup : ((m.entries.filter fun e => q e.2).map Prod.fst).Nodup :=
    m.nodup.sublist (List.filter_sublist.map Prod.fst)
  rw [hset, Set.ncard_coe_finset, List.toFinset_card_of_nodup hnodup]
  simp [count, List.countP_eq_length_filter]

end IndexMap

/-- At most `cap` elements, stored inline. -/
structure ArrayVec (α : Type u) (cap : Nat) where
  toList : List α
  bounded : toList.length ≤ cap

namespace ArrayVec
variable {α : Type u} {cap : Nat}

instance [DecidableEq α] : DecidableEq (ArrayVec α cap) := fun a b =>
  decidable_of_iff (a.toList = b.toList)
    ⟨fun h => by cases a; cases b; simp_all, fun h => by rw [h]⟩

def empty : ArrayVec α cap := ⟨[], Nat.zero_le _⟩

def len (a : ArrayVec α cap) : Nat := a.toList.length

def isFull (a : ArrayVec α cap) : Bool := a.len == cap

/-- `none` when the vector is full, where pushing aborts the program. -/
def push (a : ArrayVec α cap) (x : α) : Option (ArrayVec α cap) :=
  if h : a.toList.length < cap then some ⟨a.toList ++ [x], by simpa using h⟩ else none

def eraseIdx (a : ArrayVec α cap) (i : Nat) : ArrayVec α cap :=
  ⟨a.toList.eraseIdx i, (List.length_eraseIdx_le a.toList i).trans a.bounded⟩

def retain (a : ArrayVec α cap) (p : α → Bool) : ArrayVec α cap :=
  ⟨a.toList.filter p, (List.length_filter_le p a.toList).trans a.bounded⟩

/-- `none` when the list does not fit, where collecting aborts the program. -/
def ofList (xs : List α) : Option (ArrayVec α cap) :=
  if h : xs.length ≤ cap then some ⟨xs, h⟩ else none

theorem push_of_not_full {a : ArrayVec α cap} (h : a.isFull = false) (x : α) :
    ∃ b, a.push x = some b ∧ b.toList = a.toList ++ [x] := by
  have hlt : a.toList.length < cap := by
    have hb := a.bounded
    simp only [isFull, len, beq_eq_false_iff_ne] at h
    omega
  exact ⟨_, dif_pos hlt, rfl⟩

theorem mem_of_push {a b : ArrayVec α cap} {x y : α} (h : a.push x = some b)
    (hy : y ∈ b.toList) : y ∈ a.toList ∨ y = x := by
  unfold push at h
  split at h
  · cases h
    rcases List.mem_append.mp hy with hy | hy
    · exact Or.inl hy
    · exact Or.inr (List.mem_singleton.mp hy)
  · cases h

end ArrayVec

end Collections
