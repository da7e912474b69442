import Mathlib.Order.Basic

/-!
# Loops that draw again

`do x = draw(); while (again(x));` over a generator whose draws are numbered. A draw may be such a
loop itself: it says with which number the next one goes on.
-/

namespace Libjingle.Lib

variable {α : Type} {draw : Nat → Option (α × Nat)} {again : α → Bool} {rounds n : Nat}

/-- The loop from the draw with the number `n` on: the value that is kept, and the number behind it.
There is none when a draw fails, or when the loop goes on for more rounds. -/
def redraw (draw : Nat → Option (α × Nat)) (again : α → Bool) : Nat → Nat → Option (α × Nat)
  | 0, _ => none
  | rounds + 1, n =>
    match draw n with
    | none => none
    | some (x, n) => if again x then redraw draw again rounds n else some (x, n)

/-- **What the loop ends with** is a draw that it keeps. -/
theorem redraw_spec {r : α × Nat} (h : redraw draw again rounds n = some r) :
    again r.1 = false ∧ ∃ m, draw m = some r := by
  induction rounds generalizing n with
  | zero => cases h
  | succ rounds ih =>
    rw [redraw] at h
    split at h
    · cases h
    · rename_i x m hdraw
      split at h
      · exact ih h
      · rename_i hagain
        obtain rfl := Option.some.inj h
        exact ⟨Bool.eq_false_iff.mpr hagain, n, hdraw⟩

/-- **The loop ends**, at the draw `k` at the latest, when it keeps that one and each draw up to it
goes on with one of the next ones. -/
theorem redraw_within {value : Nat → α} {k : Nat} (hk : again (value k) = false)
    (hdraw : ∀ n ≤ k, ∃ m, draw n = some (value m, m + 1) ∧ n ≤ m ∧ m ≤ k) (hn : n ≤ k)
    (hrounds : k < n + rounds) :
    ∃ m, redraw draw again rounds n = some (value m, m + 1) ∧ n ≤ m ∧ m ≤ k := by
  induction rounds generalizing n with
  | zero => omega
  | succ rounds ih =>
    obtain ⟨m, hm, hnm, hmk⟩ := hdraw n hn
    rw [redraw, hm]
    dsimp only
    split
    · rename_i hagain
      have hne : m ≠ k := fun heq => by
        rw [heq, hk] at hagain
        cases hagain
      obtain ⟨j, hj, hle, hjk⟩ := ih (n := m + 1) (by omega) (by omega)
      exact ⟨j, hj, by omega, hjk⟩
    · exact ⟨m, rfl, hnm, hmk⟩

end Libjingle.Lib
