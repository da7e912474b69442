import Mathlib.Data.List.TakeWhile
import Libjingle.Lib.Text

/-!
# Decimal numerals

A text that is nothing but a decimal numeral, and what a stream extracts of it.
-/

namespace Libjingle.Lib

/-- The value of a decimal numeral, which may have a minus sign. -/
def decimal (s : Text) : Option Int :=
  match s with
  | '-' :: digits =>
    if digits ≠ [] ∧ digits.all Char.isDigit then
      some (-((Nat.ofDigitChars 10 digits 0 : Nat) : Int))
    else none
  | digits =>
    if digits ≠ [] ∧ digits.all Char.isDigit then some ((Nat.ofDigitChars 10 digits 0 : Nat) : Int)
    else none

variable {s : Text}

theorem takeWhile_digits (h : s.all Char.isDigit = true) : s.takeWhile Char.isDigit = s :=
  List.takeWhile_eq_self_iff.mpr fun c hc => List.all_eq_true.mp h c hc

/-- What a stream extracts from digits. -/
theorem numeral_of_digits (hne : s ≠ []) (h : s.all Char.isDigit = true) :
    numeral s = (false, s) := by
  obtain ⟨c, t, rfl⟩ := List.exists_cons_of_ne_nil hne
  have hc : c.isDigit = true := List.all_eq_true.mp h c List.mem_cons_self
  unfold numeral
  rw [List.dropWhile_cons_of_neg (by simp [isSpace_of_isDigit hc])]
  split
  · rename_i heq
    obtain ⟨rfl, -⟩ := List.cons.inj heq
    exact absurd hc (by decide)
  · rename_i heq
    obtain ⟨rfl, -⟩ := List.cons.inj heq
    exact absurd hc (by decide)
  · exact congrArg (Prod.mk false) (takeWhile_digits h)

variable {n : Int}

end Libjingle.Lib
