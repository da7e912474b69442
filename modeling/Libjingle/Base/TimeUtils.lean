import Libjingle.Base.BasicTypes

/-!
# Wrapping millisecond times (`base/timeutils.cc`)
-/

namespace Libjingle

/-- `TimeDiff`, the efficient implementation: `int32(later - earlier)`. -/
def timeDiff (later earlier : U32) : Int := (later - earlier).toInt

def half : U32 := 0x80000000

/-- `TimeIsLater`, the efficient implementation. -/
def timeIsLater (earlier later : U32) : Bool :=
  let diff := later - earlier
  diff.toInt > 0 && diff < half

theorem timeIsLater_iff {earlier later : U32} (h : earlier.toNat ≤ later.toNat + 2 ^ 31)
    (h' : later.toNat < earlier.toNat + 2 ^ 31) :
    timeIsLater earlier later = true ↔ earlier < later := by
  have hhalf : half.toNat = 2 ^ 31 := rfl
  have he := earlier.isLt
  have hl := later.isLt
  simp only [timeIsLater, BitVec.lt_def, BitVec.toInt_eq_toNat_cond, BitVec.toNat_sub, hhalf,
    Bool.and_eq_true, decide_eq_true_eq, gt_iff_lt]
  omega

end Libjingle
