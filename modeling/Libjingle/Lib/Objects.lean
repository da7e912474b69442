import Mathlib.Data.List.Perm.Subperm
import Mathlib.Data.List.Nodup

/-!
# Lists of objects with distinct names

A heap as a list: an object is found by its name, updated where it is, and removed. The objects may
own parts, and what changes of all parts together is said up to their order.
-/

namespace Libjingle.Lib

variable {α β γ : Type} [DecidableEq β] {name : α → β}

variable {l : List α}

/-- Among more names than are in use there is one that is not. -/
theorem exists_notMem_of_length_lt (used : List α) (hnodup : l.Nodup)
    (hlen : used.length < l.length) : ∃ x ∈ l, x ∉ used := by
  by_contra hno
  have hsub : l ⊆ used := fun x hx => not_not.mp fun hn => hno ⟨x, hx, hn⟩
  have := (List.subperm_of_subset hnodup hsub).length_le
  omega

/-- An object is what its name finds. -/
theorem find_of_mem (h : (l.map name).Nodup) {a : α} (ha : a ∈ l) :
    l.find? (fun x => name x = name a) = some a := by
  induction l with
  | nil => cases ha
  | cons b l ih =>
    rw [List.map_cons, List.nodup_cons] at h
    rw [List.find?_cons]
    rcases List.mem_cons.mp ha with rfl | ha
    · rw [decide_eq_true rfl]
    · have hne : name b ≠ name a := fun heq => h.1 (heq ▸ List.mem_map_of_mem ha)
      rw [decide_eq_false hne]
      exact ih h.2 ha

variable {n : β}

/-- An object without the name is left as it is. -/
theorem map_update_of_notMem (h : n ∉ l.map name) (f : α → α) :
    (l.map fun a => if name a = n then f a else a) = l := by
  induction l with
  | nil => rfl
  | cons a l ih =>
    rw [List.map_cons, List.mem_cons, not_or] at h
    rw [List.map_cons, if_neg (Ne.symm h.1), ih h.2]

theorem filter_ne_of_notMem (h : n ∉ l.map name) : (l.filter fun a => name a ≠ n) = l := by
  rw [List.filter_eq_self]
  intro a ha
  have hne : name a ≠ n := fun heq => h (heq ▸ List.mem_map_of_mem ha)
  exact decide_eq_true hne

/-- The object of a name is removed. -/
theorem eraseP_eq_filter (h : (l.map name).Nodup) (n : β) :
    (l.eraseP fun a => name a = n) = l.filter fun a => name a ≠ n := by
  induction l with
  | nil => rfl
  | cons a l ih =>
    obtain ⟨hnot, hnodup⟩ := List.nodup_cons.mp h
    by_cases heq : name a = n
    · subst heq
      rw [List.eraseP_cons_of_pos (by simp), List.filter_cons_of_neg (by simp),
        filter_ne_of_notMem hnot]
    · rw [List.eraseP_cons_of_neg (by simp [heq]), List.filter_cons_of_pos (by simp [heq]),
        ih hnodup]

variable {parts : α → List γ}

/-- **One object gets one more part.** -/
theorem flatMap_update_perm {f : α → α} {c : γ} (h : (l.map name).Nodup) (hn : n ∈ l.map name)
    (hf : ∀ a, (parts (f a)).Perm (c :: parts a)) :
    ((l.map fun a => if name a = n then f a else a).flatMap parts).Perm
      (c :: l.flatMap parts) := by
  induction l with
  | nil => cases hn
  | cons a l ih =>
    rw [List.map_cons, List.nodup_cons] at h
    rw [List.map_cons, List.flatMap_cons, List.flatMap_cons]
    by_cases ha : name a = n
    · rw [if_pos ha, map_update_of_notMem (ha ▸ h.1)]
      exact (hf a).append_right _
    · rw [if_neg ha]
      have hmem : n ∈ l.map name := (List.mem_cons.mp hn).resolve_left (Ne.symm ha)
      exact ((ih h.2 hmem).append_left _).trans List.perm_middle

/-- **The parts of one object go.** -/
theorem flatMap_remove_perm (h : (l.map name).Nodup) {a : α} (ha : a ∈ l) :
    (l.flatMap parts).Perm (parts a ++ (l.filter fun x => name x ≠ name a).flatMap parts) := by
  induction l with
  | nil => cases ha
  | cons b l ih =>
    rw [List.map_cons, List.nodup_cons] at h
    rw [List.flatMap_cons, List.filter_cons]
    rcases List.mem_cons.mp ha with rfl | ha
    · rw [if_neg (by simp), filter_ne_of_notMem h.1]
    · have hne : name b ≠ name a := fun heq => h.1 (heq ▸ List.mem_map_of_mem ha)
      rw [if_pos (decide_eq_true hne), List.flatMap_cons]
      have hrest : (parts b ++ l.flatMap parts).Perm
          (parts b ++ (parts a ++ (l.filter fun x => name x ≠ name a).flatMap parts)) :=
        (ih h.2 ha).append_left _
      exact hrest.trans (List.perm_append_comm_assoc _ _ _)

end Libjingle.Lib
