import Libjingle.Lib.SortedMap
import Mathlib.Data.List.Induction

/-!
# Grouping by keys

The elements of a list are collected in a map by their keys: the first one of each key, with the
parts of all of them.
-/

namespace Libjingle.Lib

variable {α K V : Type} [LinearOrder K] (key : α → K) (parts : α → List V)

/-- An element is added to the group of its key. -/
def addToGroup (m : SortedMap K (α × List V)) (a : α) : SortedMap K (α × List V) :=
  let group := (m.get? (key a)).getD (a, [])
  m.set (key a) (group.1, group.2 ++ parts a)

/-- The groups of a list. -/
def groups (l : List α) : SortedMap K (α × List V) := l.foldl (addToGroup key parts) SortedMap.empty

/-- The elements with a key. -/
def withKey (l : List α) (k : K) : List α := l.filter fun a => key a = k

variable {k : K} {a : α}

theorem mem_withKey {l : List α} : a ∈ withKey key l k ↔ a ∈ l ∧ key a = k := by
  rw [withKey, List.mem_filter, decide_eq_true_iff]

theorem withKey_eq_filter {p : α → Prop} [DecidablePred p] (h : ∀ a, key a = k ↔ p a)
    (l : List α) : withKey key l k = l.filter fun a => p a :=
  List.filter_congr fun a _ => decide_eq_decide.mpr (h a)

theorem withKey_append_of_eq (l : List α) (h : key a = k) :
    withKey key (l ++ [a]) k = withKey key l k ++ [a] := by
  rw [withKey, List.filter_append, List.filter_singleton, decide_eq_true h]
  rfl

theorem withKey_append_of_ne (l : List α) (h : key a ≠ k) :
    withKey key (l ++ [a]) k = withKey key l k := by
  rw [withKey, List.filter_append, List.filter_singleton, decide_eq_false h]
  exact List.append_nil _

/-- **A group** is the first element of its key and the parts of all of them. -/
theorem get?_groups (l : List α) (k : K) : (groups key parts l).get? k =
    (withKey key l k).head?.map fun a => (a, (withKey key l k).flatMap parts) := by
  induction l using List.reverseRecOn generalizing k with
  | nil => rfl
  | append_singleton l a ih =>
    rw [groups, List.foldl_append, List.foldl_cons, List.foldl_nil, ← groups, addToGroup]
    by_cases hkey : key a = k
    · subst hkey
      rw [SortedMap.get?_set, ih, withKey_append_of_eq key l rfl]
      cases withKey key l (key a) with
      | nil => simp
      | cons b group => simp
    · rw [SortedMap.get?_set_of_ne _ (Ne.symm hkey), ih, withKey_append_of_ne key l hkey]

theorem get?_groups_eq_none_iff (l : List α) (k : K) :
    (groups key parts l).get? k = none ↔ ∀ a ∈ l, key a ≠ k := by
  rw [get?_groups, Option.map_eq_none_iff, List.head?_eq_none_iff, withKey,
    List.filter_eq_nil_iff]
  simp only [decide_eq_true_eq]

end Libjingle.Lib
