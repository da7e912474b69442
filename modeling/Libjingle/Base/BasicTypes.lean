import Mathlib.Data.BitVec

/-!
# Fixed-width integers (`base/basictypes.h`)

`uint8` … `uint64` are bit vectors: arithmetic wraps, `<` and `≤` compare unsigned values, as in
the source. `size_t` is a `Nat` kept below `2 ^ 64` by `sizeT`, written out where a sum may pass
it.
-/

namespace Libjingle

abbrev U8 := BitVec 8
abbrev U16 := BitVec 16
abbrev U32 := BitVec 32
abbrev U64 := BitVec 64

instance u8LawfulBEq : LawfulBEq U8 := inferInstance
instance u32LawfulBEq : LawfulBEq U32 := inferInstance

/-- The value of a `size_t` expression whose exact value is `n`. -/
def sizeT (n : Nat) : Nat := n % 2 ^ 64

theorem sizeT_of_lt {n : Nat} (h : n < 2 ^ 64) : sizeT n = n := Nat.mod_eq_of_lt h

/-- `talk_base::_min` at an unsigned type. -/
def umin {w : Nat} (a b : BitVec w) : BitVec w := if a > b then b else a

/-- `talk_base::_max` at an unsigned type. -/
def umax {w : Nat} (a b : BitVec w) : BitVec w := if a < b then b else a

theorem umin_toNat {w : Nat} (a b : BitVec w) : (umin a b).toNat = min a.toNat b.toNat := by
  unfold umin
  split
  · rename_i h
    rw [gt_iff_lt, BitVec.lt_def] at h
    omega
  · rename_i h
    rw [gt_iff_lt, BitVec.lt_def] at h
    omega

theorem umax_toNat {w : Nat} (a b : BitVec w) : (umax a b).toNat = max a.toNat b.toNat := by
  unfold umax
  split
  · rename_i h
    rw [BitVec.lt_def] at h
    omega
  · rename_i h
    rw [BitVec.lt_def] at h
    omega

end Libjingle
