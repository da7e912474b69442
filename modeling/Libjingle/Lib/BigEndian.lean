import Mathlib.Data.BitVec
import Libjingle.Lib.Memory

/-!
# Big-endian numerals

`toBE n x` is the number `x` in `n` bytes, most significant first; `ofBE` reads such bytes back.
Each is the inverse of the other on its own range (`ofBE_toBE`, `toBE_ofBE`).
-/

namespace Libjingle.Lib

/-- The `n` low bytes of `x`, most significant first. -/
def toBE : Nat → Nat → List (BitVec 8)
  | 0, _ => []
  | n + 1, x => toBE n (x / 256) ++ [BitVec.ofNat 8 x]

/-- The number the bytes denote, most significant first. -/
def ofBE (l : List (BitVec 8)) : Nat := l.foldl (fun a b => a * 256 + b.toNat) 0

@[simp] theorem toBE_length : ∀ n x : Nat, (toBE n x).length = n
  | 0, _ => rfl
  | n + 1, x => by simp [toBE, toBE_length n]

theorem ofBE_concat (l : List (BitVec 8)) (b : BitVec 8) :
    ofBE (l ++ [b]) = ofBE l * 256 + b.toNat := by
  simp [ofBE]

theorem ofBE_toBE : ∀ {n x : Nat}, x < 256 ^ n → ofBE (toBE n x) = x
  | 0, x, h => by
    have : x = 0 := by simpa using h
    simp [toBE, ofBE, this]
  | n + 1, x, h => by
    rw [toBE, ofBE_concat, ofBE_toBE (Nat.div_lt_of_lt_mul (by rwa [pow_succ, mul_comm] at h)),
      BitVec.toNat_ofNat]
    omega

theorem ofBE_lt : ∀ l : List (BitVec 8), ofBE l < 256 ^ l.length := by
  intro l
  induction l using List.reverseRecOn with
  | nil => simp [ofBE]
  | append_singleton l b ih =>
    rw [ofBE_concat, List.length_append, List.length_singleton, pow_succ]
    have := b.isLt
    omega

theorem toBE_ofBE : ∀ l : List (BitVec 8), toBE l.length (ofBE l) = l := by
  intro l
  induction l using List.reverseRecOn with
  | nil => rfl
  | append_singleton l b ih =>
    have hb := b.isLt
    rw [List.length_append, List.length_singleton, toBE, ofBE_concat,
      show (ofBE l * 256 + b.toNat) / 256 = ofBE l by omega, ih]
    congr 2
    apply BitVec.eq_of_toNat_eq
    rw [BitVec.toNat_ofNat]
    omega

/-- Reading a piece of a list through a pointer to the list's bytes. -/
theorem fetch_piece {α : Type} (pre mid post : List α) (d : Nat → α) :
    fetch (fun i => ((pre ++ mid ++ post)[pre.length + i]?).getD (d (pre.length + i)))
      mid.length = mid := by
  refine fetch_eq_of_getElem? rfl fun i hi => ?_
  rw [List.append_assoc, List.getElem?_append_right (by omega), Nat.add_sub_cancel_left,
    List.getElem?_append_left hi, List.getElem?_eq_getElem hi]
  rfl

end Libjingle.Lib
