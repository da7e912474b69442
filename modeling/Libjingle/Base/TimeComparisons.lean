import Mathlib.Tactic.Ring
import Libjingle.Base.TimeUtils

/-!
# Two implementations of the comparison of times (`base/timeutils.cc`)

The efficient implementations look at the signed difference. The others, which the preprocessor
leaves out, ask whether a time lies between two others on the circle of the `uint32`s.

* `Reference`: the others. A `long` has the range for every value that they compute, and the result
  is converted to an `int32`.

## Results

* `comparisons_iff`: all that is expected of the three comparisons holds of a pair exactly if it is
  not one of opposite times.
-/

namespace Libjingle

def timeIsBetween (earlier middle later : U32) : Bool :=
  if earlier ≤ later then earlier ≤ middle && middle ≤ later
  else !(later < middle && middle < earlier)

/-- `TimeIsLaterOrEqual`, the efficient implementation. -/
def timeIsLaterOrEqual (earlier later : U32) : Bool :=
  let diff := later - earlier
  diff.toInt ≥ 0 && diff < half

namespace Reference

def last : U32 := 0xFFFFFFFF

def timeIsLaterOrEqual (earlier later : U32) : Bool := timeIsBetween earlier later (earlier + half)

def timeIsLater (earlier later : U32) : Bool := !timeIsBetween later earlier (later + half)

/-- The `long` that `TimeDiff` computes. -/
def longDiff (later earlier : U32) : Int :=
  if timeIsBetween earlier later (earlier + half) then
    if earlier ≤ later then (later - earlier).toNat
    else (later + (last - earlier) + 1).toNat
  else if later ≤ earlier then -(earlier - later).toNat
  else -(earlier + (last - later) + 1).toNat

def timeDiff (later earlier : U32) : Int := (BitVec.ofInt 32 (longDiff later earlier)).toInt

end Reference

/-! ## The circle -/

variable {a b : U32}

theorem toNat_half : half.toNat = 2147483648 := rfl

theorem toNat_add_half (a : U32) : (a + half).toNat = (a.toNat + 2147483648) % 4294967296 := by
  rw [BitVec.toNat_add, toNat_half]

theorem toNat_difference (a b : U32) :
    (b - a).toNat = (4294967296 - a.toNat + b.toNat) % 4294967296 := BitVec.toNat_sub b a

theorem timeIsBetween_half (a b : U32) : timeIsBetween a b (a + half) = decide (b - a ≤ half) := by
  have ha := a.isLt
  have hb := b.isLt
  have hadd := toNat_add_half a
  have hsub := toNat_difference a b
  have hright : decide (b - a ≤ half) = true ↔ (b - a).toNat ≤ 2147483648 := by
    rw [decide_eq_true_eq, BitVec.le_def, toNat_half]
  rw [Bool.eq_iff_iff, hright, timeIsBetween]
  split
  · rename_i h
    rw [BitVec.le_def] at h
    rw [Bool.and_eq_true, decide_eq_true_eq, decide_eq_true_eq, BitVec.le_def, BitVec.le_def]
    omega
  · rename_i h
    rw [BitVec.le_def] at h
    rw [Bool.not_eq_true', Bool.and_eq_false_iff, decide_eq_false_iff_not,
      decide_eq_false_iff_not, BitVec.lt_def, BitVec.lt_def]
    omega

theorem timeIsLaterOrEqual_eq (a b : U32) : timeIsLaterOrEqual a b = decide (b - a < half) := by
  have hhalf : half.toNat = 2 ^ 31 := rfl
  have hlt := (b - a).isLt
  rw [Bool.eq_iff_iff]
  simp only [timeIsLaterOrEqual, BitVec.toInt_eq_toNat_cond, BitVec.lt_def, hhalf,
    Bool.and_eq_true, decide_eq_true_eq, ge_iff_le]
  omega

theorem timeIsLater_eq (a b : U32) :
    timeIsLater a b = (decide (b ≠ a) && decide (b - a < half)) := by
  have hhalf : half.toNat = 2 ^ 31 := rfl
  have ha := a.isLt
  have hb := b.isLt
  rw [Bool.eq_iff_iff]
  simp only [timeIsLater, BitVec.toInt_eq_toNat_cond, BitVec.lt_def, hhalf, Bool.and_eq_true,
    decide_eq_true_eq, gt_iff_lt, ne_eq, ← BitVec.toNat_inj, BitVec.toNat_sub]
  omega

/-- **`TimeIsLaterOrEqual` agrees** unless the times are opposite. -/
theorem laterOrEqual_agrees_iff (a b : U32) :
    timeIsLaterOrEqual a b = Reference.timeIsLaterOrEqual a b ↔ b - a ≠ half := by
  have hhalf : half.toNat = 2 ^ 31 := rfl
  rw [timeIsLaterOrEqual_eq, Reference.timeIsLaterOrEqual, timeIsBetween_half, Bool.eq_iff_iff]
  simp only [decide_eq_true_eq, BitVec.lt_def, BitVec.le_def, hhalf, ne_eq, ← BitVec.toNat_inj]
  omega

/-- **`TimeIsLater` agrees.** -/
theorem later_agrees (a b : U32) : timeIsLater a b = Reference.timeIsLater a b := by
  have hhalf : half.toNat = 2 ^ 31 := rfl
  have ha := a.isLt
  have hb := b.isLt
  rw [timeIsLater_eq, Reference.timeIsLater, timeIsBetween_half, Bool.eq_iff_iff]
  simp only [Bool.and_eq_true, decide_eq_true_eq, Bool.not_eq_true', decide_eq_false_iff_not,
    BitVec.lt_def, BitVec.le_def, BitVec.toNat_sub, hhalf, ne_eq, ← BitVec.toNat_inj]
  omega

theorem toNat_sub_of_le {x y : U32} (h : y ≤ x) : (x - y).toNat = x.toNat - y.toNat := by
  have hsub := toNat_difference y x
  have hx := x.isLt
  rw [BitVec.le_def] at h
  omega

theorem toNat_sub_of_lt {x y : U32} (h : x < y) :
    (x + (Reference.last - y) + 1).toNat + y.toNat = x.toNat + 4294967296 := by
  have hwrap : x + (Reference.last - y) + 1 = x - y := by
    have hlast : Reference.last = -1 := rfl
    rw [hlast]
    ring
  have hsub := toNat_difference y x
  have hx := x.isLt
  have hy := y.isLt
  rw [BitVec.lt_def] at h
  rw [hwrap]
  omega

/-- A `long` that differs from the difference by a multiple of the circle is converted to it. -/
theorem ofInt_eq_sub {x : Int} (h : (x - (b.toNat - a.toNat)) % 4294967296 = 0) :
    BitVec.ofInt 32 x = b - a := by
  have ha := a.isLt
  have hb := b.isLt
  apply BitVec.eq_of_toNat_eq
  rw [BitVec.toNat_ofInt, toNat_difference]
  omega

/-- **`TimeDiff` agrees**, opposite times included. -/
theorem diff_agrees (a b : U32) : timeDiff b a = Reference.timeDiff b a := by
  rw [timeDiff, Reference.timeDiff, ofInt_eq_sub]
  unfold Reference.longDiff
  split
  · split
    · rename_i h
      rw [toNat_sub_of_le h]
      rw [BitVec.le_def] at h
      omega
    · rename_i h
      have hwrap := toNat_sub_of_lt (BitVec.not_le.mp h)
      omega
  · split
    · rename_i h
      rw [toNat_sub_of_le h]
      rw [BitVec.le_def] at h
      omega
    · rename_i h
      have hwrap := toNat_sub_of_lt (BitVec.not_le.mp h)
      omega

/-! ## Shifted times -/

theorem add_sub_add_right (a b c : U32) : b + c - (a + c) = b - a := by
  apply BitVec.eq_of_toNat_eq
  have ha := a.isLt
  have hb := b.isLt
  have hc := c.isLt
  simp only [BitVec.toNat_add, BitVec.toNat_sub]
  omega

/-- **What is expected of a pair of times**: the implementations agree, the comparisons do not
change with the origin, and `TimeIsLater` has the sign of `TimeDiff`. -/
structure Compares (a b : U32) : Prop where
  laterOrEqual : timeIsLaterOrEqual a b = Reference.timeIsLaterOrEqual a b
  later : timeIsLater a b = Reference.timeIsLater a b
  diff : timeDiff b a = Reference.timeDiff b a
  shift_laterOrEqual : ∀ c, timeIsLaterOrEqual (a + c) (b + c) = timeIsLaterOrEqual a b
  shift_later : ∀ c, timeIsLater (a + c) (b + c) = timeIsLater a b
  shift_diff : ∀ c, timeDiff (b + c) (a + c) = timeDiff b a
  later_iff : b - a ≠ half → (timeIsLater a b = true ↔ 0 < timeDiff b a)
  earlier_iff : b - a ≠ half → (timeIsLater b a = true ↔ timeDiff b a < 0)

/-- **The comparisons do what is expected of a pair exactly if the times are not opposite.** -/
theorem comparisons_iff (a b : U32) : Compares a b ↔ b - a ≠ half := by
  constructor
  · intro h
    exact (laterOrEqual_agrees_iff a b).mp h.laterOrEqual
  · intro h
    have hhalf : half.toNat = 2 ^ 31 := rfl
    have ha := a.isLt
    have hb := b.isLt
    have hne : (b - a).toNat ≠ 2 ^ 31 := fun heq => h (BitVec.eq_of_toNat_eq heq)
    rw [BitVec.toNat_sub] at hne
    exact
      { laterOrEqual := (laterOrEqual_agrees_iff a b).mpr h
        later := later_agrees a b
        diff := diff_agrees a b
        shift_laterOrEqual c := by rw [timeIsLaterOrEqual, timeIsLaterOrEqual, add_sub_add_right]
        shift_later c := by rw [timeIsLater, timeIsLater, add_sub_add_right]
        shift_diff c := by rw [timeDiff, timeDiff, add_sub_add_right]
        later_iff _ := by
          simp only [timeIsLater_eq, timeDiff, BitVec.toInt_eq_toNat_cond, BitVec.lt_def, hhalf,
            Bool.and_eq_true, decide_eq_true_eq, ne_eq, ← BitVec.toNat_inj, BitVec.toNat_sub]
          omega
        earlier_iff _ := by
          simp only [timeIsLater_eq, timeDiff, BitVec.toInt_eq_toNat_cond, BitVec.lt_def, hhalf,
            Bool.and_eq_true, decide_eq_true_eq, ne_eq, ← BitVec.toNat_inj, BitVec.toNat_sub]
          omega }

/-- Of 0 and 2147483648 the implementations of `TimeIsLaterOrEqual` say different things. -/
theorem opposite_disagree :
    timeIsLaterOrEqual 0 half = false ∧ Reference.timeIsLaterOrEqual 0 half = true := by decide

end Libjingle
