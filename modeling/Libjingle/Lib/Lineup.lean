import Mathlib.Data.List.Nodup

/-!
# The order of two elements of a list

`[x, y]` is a sublist of a list when `x` stands before `y` in it. In a list without duplicates this
survives whatever happens to the other elements.
-/

namespace Libjingle.Lib

variable {α : Type} {l l' : List α}

theorem eq_filter_of_sublist [DecidableEq α] (h : l'.Sublist l) (hl : l.Nodup) :
    l' = l.filter (· ∈ l') := by
  induction h with
  | slnil => rfl
  | @cons l₁ l₂ a h ih =>
    obtain ⟨ha, hl⟩ := List.nodup_cons.mp hl
    have hnot : a ∉ l₁ := fun hmem => ha (h.subset hmem)
    rw [List.filter_cons_of_neg (by simpa using hnot)]
    exact ih hl
  | @cons_cons l₁ l₂ a h ih =>
    obtain ⟨ha, hl⟩ := List.nodup_cons.mp hl
    rw [List.filter_cons_of_pos (by simp)]
    have hsame : l₂.filter (· ∈ a :: l₁) = l₂.filter (· ∈ l₁) := by
      refine List.filter_congr fun x hx => ?_
      have hne : x ≠ a := fun heq => ha (heq ▸ hx)
      simp [hne]
    rw [hsame, ← ih hl]

variable {x y : α}

/-- One of two elements stands before the other. -/
theorem pair_total (hne : x ≠ y) (hx : x ∈ l) (hy : y ∈ l) :
    [x, y].Sublist l ∨ [y, x].Sublist l := by
  induction l with
  | nil => cases hx
  | cons a l ih =>
    rcases List.mem_cons.mp hx with rfl | hxl
    · exact .inl ((List.singleton_sublist.mpr (List.mem_of_ne_of_mem hne.symm hy)).cons_cons x)
    rcases List.mem_cons.mp hy with rfl | hyl
    · exact .inr ((List.singleton_sublist.mpr hxl).cons_cons y)
    · exact (ih hxl hyl).imp (·.cons a) (·.cons a)

/-- **Removing other elements** leaves two elements in their order. -/
theorem pair_of_sublist [DecidableEq α] (h : l'.Sublist l) (hl : l.Nodup)
    (hxy : [x, y].Sublist l) (hx : x ∈ l') (hy : y ∈ l') : [x, y].Sublist l' := by
  rw [eq_filter_of_sublist h hl]
  have hpair := hxy.filter (· ∈ l')
  rwa [List.filter_cons_of_pos (by simpa using hx), List.filter_cons_of_pos (by simpa using hy),
    List.filter_nil] at hpair

variable {a b : List α}

/-- **Inserting an element** leaves two elements in their order. -/
theorem pair_insert (h : [x, y].Sublist (a ++ b)) (m : α) : [x, y].Sublist (a ++ m :: b) :=
  h.trans ((List.sublist_cons_self m b).append_left a)

/-- What stands before an element of the first part is in the first part. -/
theorem pair_left (hl : (a ++ b).Nodup) (h : [x, y].Sublist (a ++ b))
    (hy : y ∈ a) : [x, y].Sublist a := by
  obtain ⟨p, q, hpq, hp, hq⟩ := List.sublist_append_iff.mp h
  have hnot : y ∉ b := fun hb => (List.nodup_append.mp hl).2.2 y hy y hb rfl
  rcases List.append_eq_cons_iff.mp hpq.symm with ⟨rfl, rfl⟩ | ⟨p', rfl, hp'⟩
  · exact absurd (hq.subset (by simp)) hnot
  · rcases List.append_eq_singleton_iff.mp hp'.symm with ⟨rfl, rfl⟩ | ⟨rfl, rfl⟩
    · exact absurd (hq.subset (by simp)) hnot
    · exact hp

end Libjingle.Lib
