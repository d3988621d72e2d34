import Mathlib.Data.List.Dedup
import Mathlib.Data.List.Induction
import Std.Data.TreeMap

/-!
# Asking the owners of keys

Keys are grouped by who owns them, every group is answered on its own, and the answers are
merged in any order.
-/

namespace Aquatic.FanOut
set_option autoImplicit false

universe u v
variable {K : Type u}

section Groups
variable (owner : K → Nat)

/-- The keys of each owner, in order. -/
def groupBy (keys : List K) : Std.TreeMap Nat (List K) :=
  keys.foldl (fun groups key =>
    groups.insert (owner key) (groups.getD (owner key) [] ++ [key])) ∅

variable {owner} {keys : List K}

theorem groupBy_concat (keys : List K) (key : K) : groupBy owner (keys ++ [key]) =
    (groupBy owner keys).insert (owner key) ((groupBy owner keys).getD (owner key) [] ++ [key]) := by
  rw [groupBy, List.foldl_append]
  rfl

theorem getElem?_groupBy (keys : List K) (i : Nat) : (groupBy owner keys)[i]? =
    if keys.filter (fun key => owner key == i) = [] then none
    else some (keys.filter fun key => owner key == i) := by
  induction keys using List.reverseRecOn with
  | nil => rfl
  | append_singleton keys key ih =>
    have hgetD : (groupBy owner keys).getD i [] = keys.filter fun key => owner key == i := by
      rw [Std.TreeMap.getD_eq_getD_getElem?, ih]
      split
      · rename_i hnil
        rw [hnil]
        rfl
      · rfl
    rw [groupBy_concat, Std.TreeMap.getElem?_insert, List.filter_append]
    by_cases howner : owner key = i
    · subst howner
      simp [hgetD]
    · have hne : compare (owner key) i ≠ .eq := fun heq => howner (Nat.compare_eq_eq.mp heq)
      simp [hne, howner, ih]

theorem mem_toList_groupBy {i : Nat} {group : List K} : (i, group) ∈ (groupBy owner keys).toList ↔
    group = keys.filter (fun key => owner key == i) ∧ group ≠ [] := by
  rw [Std.TreeMap.mem_toList_iff_getElem?_eq_some, getElem?_groupBy]
  constructor
  · intro h
    split at h
    · cases h
    · rename_i hne
      obtain rfl := Option.some.inj h
      exact ⟨rfl, hne⟩
  · rintro ⟨rfl, hne⟩
    rw [if_neg hne]

/-- Every key is in the group of its owner, and in no other. -/
theorem mem_group_iff {i : Nat} {group : List K} (h : (i, group) ∈ (groupBy owner keys).toList)
    (key : K) : key ∈ group ↔ key ∈ keys ∧ owner key = i := by
  rw [(mem_toList_groupBy.mp h).1, List.mem_filter, beq_iff_eq]

theorem exists_group_iff (owner : K → Nat) (keys : List K) (key : K) :
    (∃ e ∈ (groupBy owner keys).toList, key ∈ e.2) ↔ key ∈ keys := by
  constructor
  · rintro ⟨⟨i, group⟩, he, hkey⟩
    exact ((mem_group_iff he key).mp hkey).1
  · intro hkey
    have hgroup : key ∈ keys.filter (fun other => owner other == owner key) := by
      rw [List.mem_filter, beq_iff_eq]
      exact ⟨hkey, rfl⟩
    exact ⟨(owner key, _), mem_toList_groupBy.mpr ⟨rfl, List.ne_nil_of_mem hgroup⟩, hgroup⟩

theorem groupBy_ne_nil (h : keys ≠ []) : (groupBy owner keys).toList ≠ [] := by
  obtain ⟨key, rest, rfl⟩ := List.exists_cons_of_ne_nil h
  obtain ⟨e, he, -⟩ := (exists_group_iff owner (key :: rest) key).mpr List.mem_cons_self
  exact List.ne_nil_of_mem he

/-- Somebody is asked as soon as there is something to ask for. -/
theorem size_groupBy_pos : 0 < (groupBy owner keys).size ↔ keys ≠ [] := by
  constructor
  · rintro hpos rfl
    exact Nat.lt_irrefl 0 hpos
  · intro hne
    rw [← Std.TreeMap.length_toList]
    exact List.length_pos_of_ne_nil (groupBy_ne_nil hne)

theorem length_group_le {i : Nat} {group : List K}
    (h : (i, group) ∈ (groupBy owner keys).toList) : group.length ≤ keys.length := by
  rw [(mem_toList_groupBy.mp h).1]
  exact List.length_filter_le _ _

end Groups

/-- Everything that is asked is answered, in order. -/
theorem exists_mapM {α : Type u} {β : Type v} {ask : α → Option β} {Right : α → β → Prop}
    {asked : List α} (h : ∀ a ∈ asked, ∃ b, ask a = some b ∧ Right a b) :
    ∃ answers, asked.mapM ask = some answers ∧ answers.length = asked.length ∧
      (∀ a ∈ asked, ∃ b ∈ answers, Right a b) ∧ ∀ b ∈ answers, ∃ a ∈ asked, Right a b := by
  induction asked with
  | nil => exact ⟨[], rfl, rfl, by simp, by simp⟩
  | cons a asked ih =>
    obtain ⟨b, hb, hright⟩ := h a List.mem_cons_self
    obtain ⟨answers, hanswers, hlength, hall, hback⟩ :=
      ih fun a ha => h a (List.mem_cons_of_mem _ ha)
    refine ⟨b :: answers, ?_, ?_, ?_, ?_⟩
    · rw [List.mapM_cons, hb, hanswers]
      rfl
    · rw [List.length_cons, List.length_cons, hlength]
    · intro a' ha'
      rcases List.mem_cons.mp ha' with rfl | ha'
      · exact ⟨b, List.mem_cons_self, hright⟩
      · obtain ⟨b', hb', hright'⟩ := hall a' ha'
        exact ⟨b', List.mem_cons_of_mem _ hb', hright'⟩
    · intro b' hb'
      rcases List.mem_cons.mp hb' with rfl | hb'
      · exact ⟨a, List.mem_cons_self, hright⟩
      · obtain ⟨a', ha', hright'⟩ := hback b' hb'
        exact ⟨a', List.mem_cons_of_mem _ ha', hright'⟩

section Answers
variable {V : Type v} [Ord K] [Std.TransOrd K] [Std.LawfulEqOrd K] [DecidableEq K]

/-- The map holds what the function tells, for these keys and no others. -/
def Tells (tell : K → V) (keys : List K) (answer : Std.TreeMap K V) : Prop :=
  ∀ key, answer[key]? = if key ∈ keys then some (tell key) else none

theorem getElem?_insertMany_toList (answer more : Std.TreeMap K V) (key : K) :
    (answer.insertMany more.toList)[key]? = more[key]?.or answer[key]? := by
  cases hmore : more[key]? with
  | none =>
    rw [Option.none_or]
    apply Std.TreeMap.getElem?_insertMany_list_of_contains_eq_false
    rw [List.contains_eq_mem, decide_eq_false_iff_not, List.mem_map]
    rintro ⟨⟨other, value⟩, hmem, rfl⟩
    rw [Std.TreeMap.mem_toList_iff_getElem?_eq_some, hmore] at hmem
    cases hmem
  | some value =>
    rw [Option.some_or]
    apply Std.TreeMap.getElem?_insertMany_list_of_mem Std.ReflCmp.compare_self
      Std.TreeMap.distinct_keys_toList
    rw [Std.TreeMap.mem_toList_iff_getElem?_eq_some, hmore]

namespace Tells
variable {tell : K → V} {keys keys' : List K} {answer answer' : Std.TreeMap K V}

omit [Std.LawfulEqOrd K] in
theorem empty : Tells tell [] (∅ : Std.TreeMap K V) := fun _ => Std.TreeMap.getElem?_emptyc

omit [Std.TransOrd K] [Std.LawfulEqOrd K] in
theorem congr (h : Tells tell keys answer) (hkeys : ∀ key, key ∈ keys ↔ key ∈ keys') :
    Tells tell keys' answer := by
  intro key
  rw [h key]
  simp only [hkeys key]

theorem insertMany (h : Tells tell keys answer) (h' : Tells tell keys' answer') :
    Tells tell (keys ++ keys') (answer.insertMany answer'.toList) := by
  intro key
  rw [getElem?_insertMany_toList, h key, h' key]
  by_cases hkey : key ∈ keys'
  · simp [hkey]
  · simp [hkey]

omit [Std.TransOrd K] [Std.LawfulEqOrd K] in
theorem congr_tell {tell' : K → V} (h : Tells tell keys answer)
    (htell : ∀ key ∈ keys, tell key = tell' key) : Tells tell' keys answer := by
  intro key
  rw [h key]
  split
  · rename_i hkey
    rw [htell key hkey]
  · rfl

omit [Std.TransOrd K] [Std.LawfulEqOrd K] in
theorem isSome_iff (h : Tells tell keys answer) (key : K) :
    answer[key]?.isSome = true ↔ key ∈ keys := by
  rw [h key]
  split
  · rename_i hkey
    simp [hkey]
  · rename_i hkey
    simp [hkey]

/-- All the answers together tell of everything that one of them tells of. -/
theorem foldl_insertMany (h : Tells tell keys answer) {answers : List (Std.TreeMap K V)}
    (hanswers : ∀ other ∈ answers, ∃ keys', Tells tell keys' other) :
    ∃ keys', Tells tell keys' (answers.foldl (fun merged other => merged.insertMany other.toList)
        answer) ∧
      ∀ key, key ∈ keys' ↔ key ∈ keys ∨ ∃ other ∈ answers, other[key]?.isSome = true := by
  induction answers generalizing keys answer with
  | nil => exact ⟨keys, h, by simp⟩
  | cons other answers ih =>
    obtain ⟨otherKeys, hother⟩ := hanswers other List.mem_cons_self
    obtain ⟨keys', hkeys', hmem⟩ := ih (h.insertMany hother)
      fun answer hanswer => hanswers answer (List.mem_cons_of_mem _ hanswer)
    refine ⟨keys', hkeys', ?_⟩
    intro key
    simp only [hmem key, List.mem_append, List.mem_cons, exists_eq_or_imp, hother.isSome_iff,
      or_assoc]

/-- Merged in any order, the answers to all parts tell of all that was asked. -/
theorem merged {α : Type u} {asked : List α} {part : α → List K}
    {answers : List (Std.TreeMap K V)}
    (hasked : ∀ a ∈ asked, ∃ other ∈ answers, Tells tell (part a) other)
    (hanswered : ∀ other ∈ answers, ∃ a ∈ asked, Tells tell (part a) other) :
    Tells tell (asked.flatMap part)
      (answers.foldl (fun merged other => merged.insertMany other.toList) ∅) := by
  have hkeys : ∀ other ∈ answers, ∃ keys', Tells tell keys' other := by
    intro other hother
    obtain ⟨a, -, htells⟩ := hanswered other hother
    exact ⟨part a, htells⟩
  obtain ⟨keys', hkeys', hmem⟩ := Tells.empty.foldl_insertMany hkeys
  refine hkeys'.congr ?_
  intro key
  rw [hmem, List.mem_flatMap]
  constructor
  · rintro (hnil | ⟨other, hother, htold⟩)
    · cases hnil
    · obtain ⟨a, ha, htells⟩ := hanswered other hother
      exact ⟨a, ha, (htells.isSome_iff key).mp htold⟩
  · rintro ⟨a, ha, hkey⟩
    obtain ⟨other, hother, htells⟩ := hasked a ha
    exact .inr ⟨other, hother, (htells.isSome_iff key).mpr hkey⟩

/-- As many keys are told of as there are different ones. -/
theorem length_toList (h : Tells tell keys answer) :
    answer.toList.length = keys.dedup.length := by
  have hnodup : (answer.toList.map Prod.fst).Nodup := by
    rw [List.nodup_iff_pairwise_ne, List.pairwise_map]
    apply Std.TreeMap.distinct_keys_toList.imp
    intro a b hne heq
    rw [heq] at hne
    exact hne Std.ReflCmp.compare_self
  have hmem : ∀ key, key ∈ answer.toList.map Prod.fst ↔ key ∈ keys.dedup := by
    intro key
    rw [List.mem_dedup, ← h.isSome_iff, Option.isSome_iff_exists, List.mem_map]
    constructor
    · rintro ⟨⟨other, value⟩, hvalue, rfl⟩
      exact ⟨value, Std.TreeMap.mem_toList_iff_getElem?_eq_some.mp hvalue⟩
    · rintro ⟨value, hvalue⟩
      exact ⟨(key, value), Std.TreeMap.mem_toList_iff_getElem?_eq_some.mpr hvalue, rfl⟩
  have hperm := (List.perm_ext_iff_of_nodup hnodup keys.nodup_dedup).mpr hmem
  rw [← hperm.length_eq, List.length_map]

/-- The same answers are in the same order. -/
theorem toList_eq (h : Tells tell keys answer) (h' : Tells tell keys answer') :
    answer.toList = answer'.toList := by
  apply Std.TreeMap.Equiv.toList_eq
  apply Std.TreeMap.Equiv.of_forall_constGet?_eq
  intro key
  rw [h key, h' key]

end Tells
end Answers
end Aquatic.FanOut
