import Mathlib.Algebra.BigOperators.Group.List.Basic

/-!
# Lists of blocks laid end to end

A list of blocks, each with a `start` and a `size` in an additive monoid (positions of a stream,
or sequence numbers that wrap), tiles the stretch from `a` on when the first block starts at `a`
and every other one where the block before it ends.

* `tiles_append` reduces every edit of a tiling to what it does at the seams.
-/

namespace Libjingle.Lib

variable {α : Type}

/-! ## Editing a list at an index -/

/-- `l` with its entry at `i` replaced by `new`. -/
def splice (l : List α) (i : Nat) (new : List α) : List α :=
  l.take i ++ new ++ l.drop (i + 1)

theorem splice_append (l₁ l₂ new : List α) (x : α) :
    splice (l₁ ++ x :: l₂) l₁.length new = l₁ ++ new ++ l₂ := by
  simp [splice]

theorem splice_map {β : Type} (f : α → β) (l : List α) (i : Nat) (new : List α) :
    (splice l i new).map f = splice (l.map f) i (new.map f) := by
  simp [splice]


variable {l : List α}

/-- The entry at an index cuts the list in two. -/
theorem exists_append_of_getElem? {i : Nat} {x : α} (h : l[i]? = some x) :
    ∃ l₁ l₂, l = l₁ ++ x :: l₂ ∧ l₁.length = i := by
  obtain ⟨hi, rfl⟩ := List.getElem?_eq_some_iff.mp h
  refine ⟨l.take i, l.drop (i + 1), ?_, List.length_take_of_le (Nat.le_of_lt hi)⟩
  rw [List.cons_getElem_drop_succ, List.take_append_drop]

/-- The first entry that meets `p` cuts the list behind entries that do not. -/
theorem exists_append_of_findIdx? {i : Nat} {p : α → Bool} (h : l.findIdx? p = some i) :
    ∃ l₁ x l₂, l = l₁ ++ x :: l₂ ∧ l₁.length = i ∧ p x = true ∧ ∀ y ∈ l₁, p y = false := by
  obtain ⟨hi, hp, hlt⟩ := List.findIdx?_eq_some_iff_getElem.mp h
  obtain ⟨l₁, l₂, hl, hlen⟩ := exists_append_of_getElem? (List.getElem?_eq_getElem hi)
  refine ⟨l₁, l[i], l₂, hl, hlen, hp, fun y hy => ?_⟩
  obtain ⟨j, hj, rfl⟩ := List.getElem_of_mem hy
  have e : l₁[j] = l[j] := by
    have := congrArg (fun m => m[j]?) hl
    simp only [List.getElem?_append_left hj] at this
    rw [List.getElem?_eq_getElem hj, List.getElem?_eq_getElem (by omega)] at this
    exact (Option.some.inj this).symm
  rw [e]
  simpa using hlt j (by omega)

/-! ## Tilings -/

section Tiles

variable {G : Type} [AddMonoid G] (start size : α → G)

/-- The blocks lie end to end from `a` on. -/
def Tiles : G → List α → Prop
  | _, [] => True
  | a, x :: l => start x = a ∧ Tiles (a + size x) l

theorem tiles_append :
    ∀ (a : G) (l₁ l₂ : List α), Tiles start size a (l₁ ++ l₂) ↔
      Tiles start size a l₁ ∧ Tiles start size (a + (l₁.map size).sum) l₂
  | a, [], l₂ => by simp [Tiles]
  | a, x :: l₁, l₂ => by
    simp only [List.cons_append, Tiles, List.map_cons, List.sum_cons, and_assoc]
    rw [tiles_append (a + size x) l₁ l₂, add_assoc]

end Tiles

end Libjingle.Lib
