import Mathlib.Data.BitVec
import Mathlib.Data.Prod.Lex
import Mathlib.Order.WellFounded

/-!
# Strict weak orders, and serial numbers that are none

What a sort asks of its comparison, on a set of values. A comparison that looks at a key first is a
strict weak order if it is one among the values with the same key. A comparison of serial numbers
takes their difference, which wraps, as a signed number; ties are broken by a second key.

## Results

* **`weakOrderOn_anyLess_iff`**: values are ordered by any of their keys exactly if they are by all.
* **`weakOrderOn_serial_iff`**: serial numbers are ordered exactly if they lie within half of the
  range, counted from one of them, or if nothing is ordered.
-/

namespace Libjingle.Lib

variable {α β : Type} {r : α → α → Prop} {S T : Set α}

/-! ## Strict weak orders -/

/-- `r` is a strict weak order on the values in `S`. -/
structure WeakOrderOn (r : α → α → Prop) (S : Set α) : Prop where
  irrefl : ∀ a ∈ S, ¬ r a a
  asymm : ∀ a ∈ S, ∀ b ∈ S, r a b → ¬ r b a
  trans : ∀ a ∈ S, ∀ b ∈ S, ∀ c ∈ S, r a b → r b c → r a c
  incomp : ∀ a ∈ S, ∀ b ∈ S, ∀ c ∈ S, ¬ r a b → ¬ r b a → ¬ r b c → ¬ r c b → ¬ r a c ∧ ¬ r c a

theorem WeakOrderOn.mono (h : WeakOrderOn r S) (hT : T ⊆ S) : WeakOrderOn r T where
  irrefl a ha := h.irrefl a (hT ha)
  asymm a ha b hb := h.asymm a (hT ha) b (hT hb)
  trans a ha b hb c hc := h.trans a (hT ha) b (hT hb) c (hT hc)
  incomp a ha b hb c hc := h.incomp a (hT ha) b (hT hb) c (hT hc)

theorem weakOrderOn_congr {r' : α → α → Prop} (h : ∀ a ∈ S, ∀ b ∈ S, r a b ↔ r' a b) :
    WeakOrderOn r S ↔ WeakOrderOn r' S := by
  have hmp : ∀ {r r' : α → α → Prop}, (∀ a ∈ S, ∀ b ∈ S, r a b ↔ r' a b) →
      WeakOrderOn r S → WeakOrderOn r' S := by
    intro r r' h hr
    refine ⟨fun a ha => ?_, fun a ha b hb => ?_, fun a ha b hb c hc => ?_, fun a ha b hb c hc => ?_⟩
    · rw [← h a ha a ha]
      exact hr.irrefl a ha
    · rw [← h a ha b hb, ← h b hb a ha]
      exact hr.asymm a ha b hb
    · rw [← h a ha b hb, ← h b hb c hc, ← h a ha c hc]
      exact hr.trans a ha b hb c hc
    · rw [← h a ha b hb, ← h b hb a ha, ← h b hb c hc, ← h c hc b hb, ← h a ha c hc, ← h c hc a ha]
      exact hr.incomp a ha b hb c hc
  exact ⟨hmp h, hmp fun a ha b hb => (h a ha b hb).symm⟩

/-- What is not before a value that is not before a third one is not before that one. -/
theorem WeakOrderOn.not_trans (h : WeakOrderOn r S) {a b c : α} (ha : a ∈ S) (hb : b ∈ S)
    (hc : c ∈ S) (hab : ¬ r a b) (hbc : ¬ r b c) : ¬ r a c := by
  intro hac
  by_cases hba : r b a
  · exact hbc (h.trans b hb a ha c hc hba hac)
  by_cases hcb : r c b
  · exact hab (h.trans a ha c hc b hb hac hcb)
  · exact (h.incomp a ha b hb c hc hab hba hbc hcb).1 hac

/-- The order of a key is one. -/
theorem weakOrderOn_of_key [LinearOrder β] (key : α → β)
    (hr : ∀ a ∈ S, ∀ b ∈ S, r a b ↔ key a < key b) : WeakOrderOn r S where
  irrefl a ha h := lt_irrefl _ ((hr a ha a ha).mp h)
  asymm a ha b hb h h' := lt_asymm ((hr a ha b hb).mp h) ((hr b hb a ha).mp h')
  trans a ha b hb c hc h h' :=
    (hr a ha c hc).mpr (lt_trans ((hr a ha b hb).mp h) ((hr b hb c hc).mp h'))
  incomp a ha b hb c hc h₁ h₂ h₃ h₄ := by
    rw [hr a ha b hb, not_lt] at h₁
    rw [hr b hb a ha, not_lt] at h₂
    rw [hr b hb c hc, not_lt] at h₃
    rw [hr c hc b hb, not_lt] at h₄
    rw [hr a ha c hc, hr c hc a ha, not_lt, not_lt]
    exact ⟨h₃.trans h₁, h₂.trans h₄⟩

/-- Where nothing is before anything, there is nothing to ask. -/
theorem weakOrderOn_of_none (hr : ∀ a ∈ S, ∀ b ∈ S, ¬ r a b) : WeakOrderOn r S where
  irrefl a ha := hr a ha a ha
  asymm a ha b hb h := absurd h (hr a ha b hb)
  trans a ha b hb _ _ h := absurd h (hr a ha b hb)
  incomp a ha _ _ c hc _ _ _ _ := ⟨hr a ha c hc, hr c hc a ha⟩

/-- The values of `S` that have the key of `a`. -/
def sameKey (key : α → β) (S : Set α) (a : α) : Set α := {b ∈ S | key b = key a}

/-- **A key that is looked at first does not matter**: what does is the order of the values that
agree on it. -/
theorem weakOrderOn_key_iff [LinearOrder β] {key : α → β}
    (hlt : ∀ a b, key a < key b → r a b) (hgt : ∀ a b, key b < key a → ¬ r a b) :
    WeakOrderOn r S ↔ ∀ a ∈ S, WeakOrderOn r (sameKey key S a) := by
  have hle : ∀ {a b}, r a b → key a ≤ key b := fun h => not_lt.mp fun hb => hgt _ _ hb h
  have heq : ∀ {a b}, ¬ r a b → ¬ r b a → key a = key b := fun h h' =>
    le_antisymm (not_lt.mp fun hb => h' (hlt _ _ hb)) (not_lt.mp fun hb => h (hlt _ _ hb))
  constructor
  · exact fun h a ha => h.mono fun b hb => hb.1
  intro h
  refine ⟨fun a ha => (h a ha).irrefl a ⟨ha, rfl⟩, fun a ha b hb hab hba => ?_,
    fun a ha b hb c hc hab hbc => ?_, fun a ha b hb c hc h₁ h₂ h₃ h₄ => ?_⟩
  · have hkey : key b = key a := le_antisymm (hle hba) (hle hab)
    exact (h a ha).asymm a ⟨ha, rfl⟩ b ⟨hb, hkey⟩ hab hba
  · rcases (hle hab).lt_or_eq with hkab | hkab
    · exact hlt a c (hkab.trans_le (hle hbc))
    rcases (hle hbc).lt_or_eq with hkbc | hkbc
    · exact hlt a c (hkab.trans_lt hkbc)
    exact (h a ha).trans a ⟨ha, rfl⟩ b ⟨hb, hkab.symm⟩ c ⟨hc, (hkab.trans hkbc).symm⟩ hab hbc
  · have hkab := heq h₁ h₂
    have hkbc := heq h₃ h₄
    exact (h a ha).incomp a ⟨ha, rfl⟩ b ⟨hb, hkab.symm⟩ c ⟨hc, (hkab.trans hkbc).symm⟩ h₁ h₂ h₃ h₄

/-! ## Any of several keys -/

section

variable {P : Type} {f : α → P}

/-- One of the keys of `a` is less than that of `b`. The keys together are an element of a product,
and this says that those of `b` are not all at most those of `a`. -/
def AnyLess [LE P] (f : α → P) (a b : α) : Prop := ¬ f b ≤ f a

/-- Values are equivalent if they agree on all keys. -/
theorem anyLess_incomp_iff [PartialOrder P] {a b : α} :
    ¬ AnyLess f a b ∧ ¬ AnyLess f b a ↔ f a = f b := by
  unfold AnyLess
  rw [not_not, not_not]
  exact ⟨fun h => le_antisymm h.2 h.1, fun h => ⟨h.ge, h.le⟩⟩

/-- **When values are ordered by any of their keys**: exactly if of two of them one is at most the
other one in all keys. -/
theorem weakOrderOn_anyLess_iff [Preorder P] :
    WeakOrderOn (AnyLess f) S ↔ ∀ a ∈ S, ∀ b ∈ S, f a ≤ f b ∨ f b ≤ f a := by
  constructor
  · intro h a ha b hb
    by_contra hno
    rw [not_or] at hno
    exact h.asymm a ha b hb hno.2 hno.1
  · intro h
    have hle : ∀ a ∈ S, ∀ b ∈ S, AnyLess f a b → f a ≤ f b := fun a ha b hb hab =>
      (h a ha b hb).resolve_right hab
    refine ⟨fun a _ haa => haa le_rfl, fun a ha b hb hab hba => hba (hle a ha b hb hab),
      fun a ha b hb c hc hab hbc hca => ?_, fun a _ b _ c _ hab hba hbc hcb => ?_⟩
    · exact hbc (hca.trans (hle a ha b hb hab))
    · unfold AnyLess at hab hba hbc hcb ⊢
      rw [not_not] at hab hba hbc hcb
      exact ⟨fun hac => hac (hbc.trans hab), fun hca => hca (hba.trans hcb)⟩

end

/-! ## Serial numbers -/

variable {w : Nat} [LinearOrder β] {serial : α → BitVec w} {tie : α → β}

/-- The serial number of `a` is ahead of that of `b`, or they are equal and the tie is broken. -/
def SerialBefore (serial : α → BitVec w) (tie : α → β) (a b : α) : Prop :=
  0 < (serial a - serial b).toInt ∨ serial a = serial b ∧ tie a < tie b

theorem toInt_pos_iff (x : BitVec w) : 0 < x.toInt ↔ 0 < x.toNat ∧ 2 * x.toNat < 2 ^ w := by
  have hlt := x.isLt
  rw [BitVec.toInt_eq_toNat_cond]
  split
  · omega
  · omega

/-- The distances from `z` to `y` and from `y` to `x` add up to that from `z` to `x`, or go once
round. -/
theorem distance_add (x y z : BitVec w) :
    (x - y).toNat + (y - z).toNat = (x - z).toNat ∨
      (x - y).toNat + (y - z).toNat = (x - z).toNat + 2 ^ w := by
  have h₁ := (x - y).isLt
  have h₂ := (y - z).isLt
  have hsum : x - z = (x - y) + (y - z) := by
    rw [BitVec.sub_eq_add_neg, BitVec.sub_eq_add_neg, BitVec.sub_eq_add_neg, BitVec.add_assoc,
      ← BitVec.add_assoc (-y), BitVec.add_comm (-y), BitVec.add_right_neg, BitVec.zero_add]
  rw [hsum, BitVec.toNat_add]
  by_cases h : (x - y).toNat + (y - z).toNat < 2 ^ w
  · rw [Nat.mod_eq_of_lt h]
    exact Or.inl rfl
  · rw [Nat.mod_eq_sub_mod (by omega), Nat.mod_eq_of_lt (by omega)]
    omega

theorem distance_eq_zero {x y : BitVec w} : (x - y).toNat = 0 ↔ x = y := by
  constructor
  · intro h
    have hzero : x - y = 0 := BitVec.eq_of_toNat_eq h
    rw [← BitVec.sub_add_cancel x y, hzero]
    exact BitVec.zero_add y
  · rintro rfl
    rw [BitVec.sub_self]
    rfl

theorem serialBefore_iff {a b : α} : SerialBefore serial tie a b ↔
    0 < (serial a - serial b).toNat ∧ 2 * (serial a - serial b).toNat < 2 ^ w ∨
      (serial a - serial b).toNat = 0 ∧ tie a < tie b := by
  unfold SerialBefore
  rw [toInt_pos_iff, distance_eq_zero]

/-- The serial numbers in `S` lie within half of the range, counted from one of them. -/
def Spans (serial : α → BitVec w) (S : Set α) : Prop :=
  ∃ o ∈ S, ∀ b ∈ S, 2 * (serial b - serial o).toNat < 2 ^ w

/-- No two values in `S` differ, or their serial numbers lie half of the range apart. -/
def Level (serial : α → BitVec w) (tie : α → β) (S : Set α) : Prop :=
  ∀ b ∈ S, ∀ c ∈ S, serial b = serial c ∧ tie b = tie c ∨
    2 * (serial b - serial c).toNat = 2 ^ w

/-- Values that are not ordered are equal, or half of the range apart. -/
theorem level_of_incomp {b c : α} (hbc : ¬ SerialBefore serial tie b c)
    (hcb : ¬ SerialBefore serial tie c b) :
    serial b = serial c ∧ tie b = tie c ∨ 2 * (serial b - serial c).toNat = 2 ^ w := by
  rw [serialBefore_iff] at hbc hcb
  have hround := distance_add (serial b) (serial c) (serial b)
  have hself : (serial b - serial b).toNat = 0 := distance_eq_zero.mpr rfl
  by_cases heq : (serial b - serial c).toNat = 0
  · refine Or.inl ⟨distance_eq_zero.mp heq, le_antisymm (not_lt.mp fun h => hcb ?_)
      (not_lt.mp fun h => hbc (Or.inr ⟨heq, h⟩))⟩
    exact Or.inr ⟨distance_eq_zero.mpr (distance_eq_zero.mp heq).symm, h⟩
  · have hlt := (serial b - serial c).isLt
    have hlt' := (serial c - serial b).isLt
    exact Or.inr (by omega)

/-- Nothing in a level set is ordered. -/
theorem Level.none (h : Level serial tie S) :
    ∀ a ∈ S, ∀ b ∈ S, ¬ SerialBefore serial tie a b := by
  intro a ha b hb hab
  rw [serialBefore_iff] at hab
  rcases h a ha b hb with ⟨hserial, htie⟩ | hhalf
  · have hzero := distance_eq_zero.mpr hserial
    rcases hab with hab | hab
    · omega
    · exact absurd htie (ne_of_lt hab.2)
  · rcases hab with hab | hab
    · omega
    · have := Nat.two_pow_pos w
      omega

/-- Within half of the range the distance from the oldest value is a key. -/
theorem Spans.weakOrderOn (h : Spans serial S) : WeakOrderOn (SerialBefore serial tie) S := by
  obtain ⟨o, -, ho⟩ := h
  refine weakOrderOn_of_key
    (fun a => (toLex (-((serial a - serial o).toNat : ℤ), tie a) : ℤ ×ₗ β)) fun a ha b hb => ?_
  rw [serialBefore_iff, Prod.Lex.toLex_lt_toLex]
  have hadd := distance_add (serial a) (serial b) (serial o)
  have hlt := (serial a - serial b).isLt
  have hoa := ho a ha
  have hob := ho b hb
  dsimp only
  constructor
  · rintro (h | ⟨h, htie⟩)
    · exact Or.inl (by omega)
    · exact Or.inr ⟨by omega, htie⟩
  · rintro (h | ⟨h, htie⟩)
    · exact Or.inl (by omega)
    · exact Or.inr ⟨by omega, htie⟩

/-- If two values of a weak order lie half of the range apart, nothing in it is ordered. -/
theorem WeakOrderOn.level (h : WeakOrderOn (SerialBefore serial tie) S) {p q : α} (hp : p ∈ S)
    (hq : q ∈ S) (hpq : 2 * (serial p - serial q).toNat = 2 ^ w) : Level serial tie S := by
  have hpow := Nat.two_pow_pos w
  have hself : ∀ x : α, (serial x - serial x).toNat = 0 := fun x => distance_eq_zero.mpr rfl
  have hqp : 2 * (serial q - serial p).toNat = 2 ^ w := by
    have hround := distance_add (serial p) (serial q) (serial p)
    have := hself p
    omega
  have hapart : ∀ {x y : α}, 2 * (serial x - serial y).toNat = 2 ^ w →
      ¬ SerialBefore serial tie x y := by
    intro x y hxy hbefore
    rw [serialBefore_iff] at hbefore
    omega
  -- What is before `p` would be before `q`, too, which lies on the other side.
  have hfirst : ∀ x ∈ S, ¬ SerialBefore serial tie x p := by
    intro x hx hxp
    have hxq : ¬ SerialBefore serial tie x q := by
      rw [serialBefore_iff] at hxp ⊢
      have hadd := distance_add (serial x) (serial p) (serial q)
      omega
    exact h.not_trans hx hq hp hxq (hapart hqp) hxp
  have hlast : ∀ x ∈ S, ¬ SerialBefore serial tie p x := by
    intro x hx hpx
    have hqx : ¬ SerialBefore serial tie q x := by
      rw [serialBefore_iff] at hpx ⊢
      have hadd := distance_add (serial q) (serial p) (serial x)
      omega
    exact h.not_trans hp hq hx (hapart hpq) hqx hpx
  intro b hb c hc
  obtain ⟨hbc, hcb⟩ := h.incomp b hb p hp c hc (hfirst b hb) (hlast b hb) (hlast c hc) (hfirst c hc)
  exact level_of_incomp hbc hcb

/-- If no two values of a weak order lie half of the range apart, they lie within half of it: the
oldest value is the last one among those that `a` is not behind. -/
theorem WeakOrderOn.spans (h : WeakOrderOn (SerialBefore serial tie) S) {a : α} (ha : a ∈ S)
    (hno : ∀ p ∈ S, ∀ q ∈ S, 2 * (serial p - serial q).toNat ≠ 2 ^ w) : Spans serial S := by
  have hself : ∀ x : α, (serial x - serial x).toNat = 0 := fun x => distance_eq_zero.mpr rfl
  have hpow := Nat.two_pow_pos w
  obtain ⟨o, ⟨ho, hoa⟩, hmax⟩ :=
    (measure fun o : α => 2 ^ w - (serial a - serial o).toNat).wf.has_min
      {o ∈ S | 2 * (serial a - serial o).toNat < 2 ^ w} ⟨a, ha, by rw [hself]; omega⟩
  refine ⟨o, ho, fun b hb => ?_⟩
  by_contra hfar
  have hne := hno b hb o ho
  have hbo := (serial b - serial o).isLt
  have hround := distance_add (serial o) (serial b) (serial o)
  have hoo := hself o
  have hob : SerialBefore serial tie o b := serialBefore_iff.mpr (Or.inl (by omega))
  have hadd := distance_add (serial a) (serial o) (serial b)
  have hnear : 2 * (serial a - serial b).toNat < 2 ^ w := by
    by_cases hzero : (serial a - serial o).toNat = 0
    · omega
    · have hao : SerialBefore serial tie a o := serialBefore_iff.mpr (Or.inl (by omega))
      have hab := serialBefore_iff.mp (h.trans a ha o ho b hb hao hob)
      omega
  have hless := hmax b ⟨hb, hnear⟩
  change ¬ 2 ^ w - (serial a - serial b).toNat < 2 ^ w - (serial a - serial o).toNat at hless
  omega

/-- **When serial numbers are ordered**: exactly if they lie within half of the range, or nothing
is ordered. -/
theorem weakOrderOn_serial_iff {a : α} (ha : a ∈ S) :
    WeakOrderOn (SerialBefore serial tie) S ↔ Spans serial S ∨ Level serial tie S := by
  constructor
  · intro h
    by_cases hno : ∀ p ∈ S, ∀ q ∈ S, 2 * (serial p - serial q).toNat ≠ 2 ^ w
    · exact Or.inl (h.spans ha hno)
    · push Not at hno
      obtain ⟨p, hp, q, hq, hpq⟩ := hno
      exact Or.inr (h.level hp hq hpq)
  · rintro (h | h)
    · exact h.weakOrderOn
    · exact weakOrderOn_of_none h.none

end Libjingle.Lib
