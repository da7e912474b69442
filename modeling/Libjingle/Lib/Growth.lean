import Mathlib.Data.List.Basic

/-!
# Folds that only grow

A fold whose steps all go up in a preorder: what one of its elements brings about is still there in
the end, when going up keeps it.
-/

namespace Libjingle.Lib

variable {α β : Type*} {R : β → β → Prop} {f : β → α → β}

/-- The result of a fold is above its start. -/
theorem foldl_grows (hrefl : ∀ b, R b b) (htrans : ∀ {a b c}, R a b → R b c → R a c)
    (hstep : ∀ b a, R b (f b a)) (l : List α) (b : β) : R b (l.foldl f b) := by
  induction l generalizing b with
  | nil => exact hrefl b
  | cons a l ih => exact htrans (hstep b a) (ih (f b a))

/-- What the step of an element brings about, from wherever it starts, holds of the result. -/
theorem foldl_reaches (hrefl : ∀ b, R b b) (htrans : ∀ {a b c}, R a b → R b c → R a c)
    (hstep : ∀ b a, R b (f b a)) {P : β → Prop} (hkeeps : ∀ {b b'}, R b b' → P b → P b')
    {l : List α} {a : α} (ha : a ∈ l) {b : β} (hbrings : ∀ b', R b b' → P (f b' a)) :
    P (l.foldl f b) := by
  induction l generalizing b with
  | nil => cases ha
  | cons a' l ih =>
    rcases List.mem_cons.mp ha with rfl | ha
    · exact hkeeps (foldl_grows hrefl htrans hstep l (f b a)) (hbrings b (hrefl b))
    · exact ih ha fun b' hb' => hbrings b' (htrans (hstep b a') hb')

end Libjingle.Lib
