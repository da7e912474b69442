import Libjingle.Stun.Attribute

/-!
# Prefixes of addresses (`base/ipaddress.cc`)

`TruncateIP` masks an address word by word, `CountIPMaskBits` looks for the last bit of a mask. An
address is a number in host order: `NetworkToHost32` and `HostToNetwork32`, which undo each other,
stand between it and the words in memory.

## Results

* `prefixes_behave`: the laws of truncation, and what is counted of the mask of a prefix.
-/

namespace Libjingle.IPAddress

/-- `v6_as_ints[i]` in host order. -/
def word (addr : BitVec 128) (i : Nat) : U32 := addr.extractLsb' (96 - 32 * i) 32

def ofWords (words : Nat → U32) : BitVec 128 := words 0 ++ words 1 ++ words 2 ++ words 3

def truncateIP (ip : IPAddress) (length : Int) : IPAddress :=
  if length < 0 then .unspec
  else
    let n := length.toNat
    match ip with
    | .ipv4 addr =>
      if n > 31 then ip
      else if n = 0 then .ipv4 0
      else .ipv4 (addr &&& (0xFFFFFFFF : U32) <<< (32 - n))
    | .ipv6 addr =>
      if n > 127 then ip
      else if n = 0 then .ipv6 0
      else
        let position := n / 32
        let innerLength := 32 - (n - position * 32)
        -- the constant has 64 bits, for a shift by 32
        let innerMask : U32 := ((0xFFFFFFFF : U64) <<< innerLength).setWidth 32
        .ipv6 (ofWords fun i =>
          if i = position then word addr i &&& innerMask
          else if i > position then 0
          else word addr i)
    | .unspec => .unspec

/-- The bit counting at the end of `CountIPMaskBits`: what is left of the word is its last bit. -/
def trailingZeroes (wordToCount : U32) : Nat :=
  let bit := wordToCount &&& -wordToCount
  32 - (if bit ≠ 0 then 1 else 0) - (if bit &&& 0x0000FFFF ≠ 0 then 16 else 0) -
    (if bit &&& 0x00FF00FF ≠ 0 then 8 else 0) - (if bit &&& 0x0F0F0F0F ≠ 0 then 4 else 0) -
    (if bit &&& 0x33333333 ≠ 0 then 2 else 0) - (if bit &&& 0x55555555 ≠ 0 then 1 else 0)

/-- The end of `CountIPMaskBits`. -/
def countWord (wordToCount : U32) (bits : Nat) : Nat :=
  if wordToCount = 0 then bits else bits + (32 - trailingZeroes wordToCount)

/-- The words of one bits in front. -/
def fullWords (addr : BitVec 128) : Nat → Nat → Nat
  | 0, i => i
  | fuel + 1, i => if word addr i ≠ 0xFFFFFFFF then i else fullWords addr fuel (i + 1)

def countIPMaskBits (mask : IPAddress) : Nat :=
  match mask with
  | .ipv4 addr => countWord addr 0
  | .ipv6 addr =>
    let i := fullWords addr 4 0
    countWord (if i < 4 then word addr i else 0) (i * 32)
  | .unspec => 0

/-! ## Bits -/

def width : IPAddress → Nat
  | .unspec => 0
  | .ipv4 _ => 32
  | .ipv6 _ => 128

/-- A bit of an address, counted from the front. -/
def leadingBit (ip : IPAddress) (i : Nat) : Bool :=
  match ip with
  | .unspec => false
  | .ipv4 addr => addr.getMsbD i
  | .ipv6 addr => addr.getMsbD i

theorem ext_leadingBit {a b : IPAddress} (hwidth : a.width = b.width)
    (hbits : ∀ i, i < a.width → a.leadingBit i = b.leadingBit i) : a = b := by
  match a, b, hwidth with
  | .unspec, .unspec, _ => rfl
  | .ipv4 x, .ipv4 y, _ => exact congrArg _ (BitVec.eq_of_getMsbD_eq hbits)
  | .ipv6 x, .ipv6 y, _ => exact congrArg _ (BitVec.eq_of_getMsbD_eq hbits)

variable {i k : Nat}

theorem getMsbD_word {addr : BitVec 128} (hi : i < 4) (hk : k < 32) :
    (word addr i).getMsbD k = addr.getMsbD (32 * i + k) := by
  have hplace : 128 - (96 - 32 * i + 32 - k) = 32 * i + k := by omega
  rw [word, BitVec.getMsbD_extractLsb', hplace, decide_eq_true hk, decide_eq_true (by omega)]
  rfl

theorem getMsbD_ofWords (words : Nat → U32) (hi : i < 4) (hk : k < 32) :
    (ofWords words).getMsbD (32 * i + k) = (words i).getMsbD k := by
  unfold ofWords
  match i, hi with
  | 0, _ =>
    rw [BitVec.getMsbD_append, if_neg (by omega), BitVec.getMsbD_append, if_neg (by omega),
      BitVec.getMsbD_append, if_neg (by omega), Nat.mul_zero, Nat.zero_add]
  | 1, _ =>
    rw [BitVec.getMsbD_append, if_neg (by omega), BitVec.getMsbD_append, if_neg (by omega),
      BitVec.getMsbD_append, if_pos (by omega), Nat.add_sub_cancel_left]
  | 2, _ =>
    rw [BitVec.getMsbD_append, if_neg (by omega), BitVec.getMsbD_append, if_pos (by omega),
      Nat.add_sub_cancel_left]
  | 3, _ => rw [BitVec.getMsbD_append, if_pos (by omega), Nat.add_sub_cancel_left]

theorem getMsbD_prefixMask {w n k : Nat} (hn : n ≤ w) :
    (BitVec.allOnes w <<< (w - n)).getMsbD k = decide (k < n) := by
  rw [BitVec.getMsbD_shiftLeft, BitVec.getMsbD_allOnes]
  exact decide_eq_decide.mpr (by omega)

theorem getMsbD_mask {n k : Nat} (hn : n ≤ 32) :
    ((0xFFFFFFFF : U32) <<< (32 - n)).getMsbD k = decide (k < n) := by
  have hones : (0xFFFFFFFF : U32) = BitVec.allOnes 32 := by decide
  rw [hones]
  exact getMsbD_prefixMask hn

theorem innerMask_eq {m : Nat} (hm : m ≤ 32) :
    ((0xFFFFFFFF : U64) <<< m).setWidth 32 = (0xFFFFFFFF : U32) <<< m := by
  have hall : ∀ m : Fin 33,
      ((0xFFFFFFFF : U64) <<< m.val).setWidth 32 = (0xFFFFFFFF : U32) <<< m.val := by
    decide +kernel
  exact hall ⟨m, by omega⟩

theorem width_truncateIP (ip : IPAddress) (n : Nat) : (ip.truncateIP n).width = ip.width := by
  unfold truncateIP
  rw [if_neg (by omega)]
  cases ip with
  | unspec => rfl
  | ipv4 addr =>
    dsimp only
    split
    · rfl
    · split <;> rfl
  | ipv6 addr =>
    dsimp only
    split
    · rfl
    · split <;> rfl

variable {n : Nat}

/-- **`TruncateIP` keeps the leading bits.** -/
theorem leadingBit_truncateIP (ip : IPAddress) (hn : n ≤ ip.width) (hi : i < ip.width) :
    (ip.truncateIP n).leadingBit i = (decide (i < n) && ip.leadingBit i) := by
  have hnonneg : ¬ (n : Int) < 0 := by omega
  unfold truncateIP
  rw [if_neg hnonneg]
  simp only [Int.toNat_natCast]
  cases ip with
  | unspec => exact absurd hi (Nat.not_lt_zero i)
  | ipv4 addr =>
    have hi' : i < 32 := hi
    have hn' : n ≤ 32 := hn
    dsimp only
    split
    · rw [decide_eq_true (by omega), Bool.true_and]
    · split
      · rename_i hzero
        subst hzero
        exact BitVec.getMsbD_zero
      · show (addr &&& _).getMsbD i = _
        rw [BitVec.getMsbD_and, getMsbD_mask hn', Bool.and_comm]
        rfl
  | ipv6 addr =>
    have hi' : i < 128 := hi
    have hn' : n ≤ 128 := hn
    dsimp only
    split
    · rw [decide_eq_true (by omega), Bool.true_and]
    · split
      · rename_i hzero
        subst hzero
        exact BitVec.getMsbD_zero
      · rename_i hmax hzero
        obtain ⟨w, k, hw, hk, rfl⟩ : ∃ w k, w < 4 ∧ k < 32 ∧ i = 32 * w + k :=
          ⟨i / 32, i % 32, by omega, by omega, by omega⟩
        show (ofWords _).getMsbD _ = (_ && addr.getMsbD _)
        rw [getMsbD_ofWords _ hw hk]
        split
        · rename_i hpos
          rw [BitVec.getMsbD_and, getMsbD_word hw hk, innerMask_eq (Nat.sub_le _ _),
            getMsbD_mask (by omega), Bool.and_comm]
          congr 1
          exact decide_eq_decide.mpr (by omega)
        · split
          · rw [decide_eq_false (by omega)]
            exact BitVec.getMsbD_zero
          · rw [getMsbD_word hw hk, decide_eq_true (by omega), Bool.true_and]

theorem truncateIP_truncateIP (ip : IPAddress) {m n : Nat} (hm : m ≤ ip.width)
    (hn : n ≤ ip.width) :
    (ip.truncateIP m).truncateIP n = ip.truncateIP ((min m n : Nat) : Int) := by
  have hwidth := width_truncateIP ip m
  refine ext_leadingBit ?_ fun i hi => ?_
  · rw [width_truncateIP, width_truncateIP, width_truncateIP]
  · rw [width_truncateIP, hwidth] at hi
    rw [leadingBit_truncateIP _ (by rw [hwidth]; exact hn) (by rw [hwidth]; exact hi),
      leadingBit_truncateIP ip hm hi, leadingBit_truncateIP ip (by omega) hi, ← Bool.and_assoc,
      ← Bool.decide_and]
    congr 1
    exact decide_eq_decide.mpr (by omega)

/-! ## Counting -/

theorem countIPMaskBits_ipv4 (hn : n ≤ 32) :
    countIPMaskBits (.ipv4 (BitVec.allOnes 32 <<< (32 - n))) = n := by
  have hall : ∀ n : Fin 33,
      countIPMaskBits (.ipv4 (BitVec.allOnes 32 <<< (32 - n.val))) = n.val := by decide +kernel
  exact hall ⟨n, by omega⟩

theorem countIPMaskBits_ipv6 (hn : n ≤ 128) :
    countIPMaskBits (.ipv6 (BitVec.allOnes 128 <<< (128 - n))) = n := by
  have hall : ∀ n : Fin 129,
      countIPMaskBits (.ipv6 (BitVec.allOnes 128 <<< (128 - n.val))) = n.val := by decide +kernel
  exact hall ⟨n, by omega⟩

theorem countIPMaskBits_mask {mask : IPAddress} (hmask : mask ≠ .unspec) (hn : n ≤ mask.width)
    (hbits : ∀ i, i < mask.width → mask.leadingBit i = decide (i < n)) :
    countIPMaskBits mask = n := by
  cases mask with
  | unspec => exact absurd rfl hmask
  | ipv4 addr =>
    have haddr : addr = BitVec.allOnes 32 <<< (32 - n) := BitVec.eq_of_getMsbD_eq fun i hi =>
      (hbits i hi).trans (getMsbD_prefixMask hn).symm
    rw [haddr, countIPMaskBits_ipv4 hn]
  | ipv6 addr =>
    have haddr : addr = BitVec.allOnes 128 <<< (128 - n) := BitVec.eq_of_getMsbD_eq fun i hi =>
      (hbits i hi).trans (getMsbD_prefixMask hn).symm
    rw [haddr, countIPMaskBits_ipv6 hn]

/-- **The laws of prefixes**: truncation keeps the family and exactly the leading bits, the shorter
of two truncations counts, and of an address whose leading bits alone are one they are counted. -/
theorem prefixes_behave (ip : IPAddress) (hip : ip ≠ .unspec) {m n : Nat} (hm : m ≤ ip.width)
    (hn : n ≤ ip.width) :
    (ip.truncateIP n).width = ip.width ∧
      (∀ i, i < ip.width →
        (ip.truncateIP n).leadingBit i = (decide (i < n) && ip.leadingBit i)) ∧
      (ip.truncateIP m).truncateIP n = ip.truncateIP ((min m n : Nat) : Int) ∧
      ((∀ i, i < ip.width → ip.leadingBit i = decide (i < n)) → countIPMaskBits ip = n) :=
  ⟨width_truncateIP ip n, fun _ hi => leadingBit_truncateIP ip hn hi,
    truncateIP_truncateIP ip hm hn, countIPMaskBits_mask hip hn⟩

theorem prefixes_behave_classC :
    ((ipv4 0xFFFFFF00).truncateIP (25 : Nat)).truncateIP (24 : Nat) =
        (ipv4 0xFFFFFF00).truncateIP ((min 25 24 : Nat) : Int) ∧
      countIPMaskBits (ipv4 0xFFFFFF00) = 24 := by
  have hip : ipv4 0xFFFFFF00 ≠ .unspec := by decide
  have hm : 25 ≤ (ipv4 0xFFFFFF00).width := by decide
  have hn : 24 ≤ (ipv4 0xFFFFFF00).width := by decide
  obtain ⟨-, -, htwice, hcount⟩ := prefixes_behave (ipv4 0xFFFFFF00) hip hm hn
  exact ⟨htwice, hcount (by decide)⟩

end Libjingle.IPAddress
