import Mathlib.Algebra.Order.Group.Int
import Mathlib.Algebra.Order.Group.Nat

/-!
# Searching a table of sizes

A table is searched from its largest entry to its smallest, for the entry whose size is nearest to a
target or is the largest that is not above it.
-/

namespace Libjingle.Lib

variable {α : Type} {t : α → Int} {l : List α} {m m' : Int} {a a' b : α}

/-- The nearest to the target, and the largest of those. -/
structure Nearest [LinearOrder α] (t : α → Int) (l : List α) (m : Int) (a : α) : Prop where
  mem : a ∈ l
  le : ∀ b ∈ l, (t a - m).natAbs ≤ (t b - m).natAbs
  first : ∀ b ∈ l, a < b → (t a - m).natAbs < (t b - m).natAbs

/-- Of a size that is not above the target, and of the largest of those. -/
structure Below (t : α → Int) (l : List α) (m : Int) (a : α) : Prop where
  mem : a ∈ l
  le : t a ≤ m
  max : ∀ b ∈ l, t b ≤ m → t b ≤ t a

namespace Nearest

variable [LinearOrder α]

theorem singleton (t : α → Int) (m : Int) (a : α) : Nearest t [a] m a := by
  refine ⟨List.mem_singleton_self a, ?_, ?_⟩
  · intro b hb
    rw [List.mem_singleton.mp hb]
  · intro b hb hlt
    rw [List.mem_singleton.mp hb] at hlt
    exact absurd hlt (lt_irrefl a)

/-- The next entry is nearer. -/
theorem replace (h : Nearest t l m a) (hlt : (t b - m).natAbs < (t a - m).natAbs) :
    Nearest t (l ++ [b]) m b := by
  have hnear : ∀ c ∈ l, (t b - m).natAbs < (t c - m).natAbs := fun c hc =>
    lt_of_lt_of_le hlt (h.le c hc)
  refine ⟨List.mem_append_right l (List.mem_singleton_self b), ?_, ?_⟩
  · intro c hc
    obtain hc | hc := List.mem_append.mp hc
    · exact le_of_lt (hnear c hc)
    · rw [List.mem_singleton.mp hc]
  · intro c hc hbc
    obtain hc | hc := List.mem_append.mp hc
    · exact hnear c hc
    · rw [List.mem_singleton.mp hc] at hbc
      exact absurd hbc (lt_irrefl b)

/-- The next entry is no nearer. -/
theorem keep (h : Nearest t l m a) (hb : ∀ c ∈ l, b < c)
    (hle : (t a - m).natAbs ≤ (t b - m).natAbs) : Nearest t (l ++ [b]) m a := by
  refine ⟨List.mem_append_left _ h.mem, ?_, ?_⟩
  · intro c hc
    obtain hc | hc := List.mem_append.mp hc
    · exact h.le c hc
    · rw [List.mem_singleton.mp hc]
      exact hle
  · intro c hc hac
    obtain hc | hc := List.mem_append.mp hc
    · exact h.first c hc hac
    · rw [List.mem_singleton.mp hc] at hac
      exact absurd (hb a h.mem) (lt_asymm hac)

/-- After an exact match nothing is nearer. -/
theorem exact (h : Nearest t l m a) (ha : t a = m) {rest : List α}
    (hrest : ∀ b ∈ rest, ∀ c ∈ l, b < c) : Nearest t (l ++ rest) m a := by
  have hzero : (t a - m).natAbs = 0 := by omega
  refine ⟨List.mem_append_left _ h.mem, ?_, ?_⟩
  · intro c _
    rw [hzero]
    exact Nat.zero_le _
  · intro c hc hac
    obtain hc | hc := List.mem_append.mp hc
    · exact h.first c hc hac
    · exact absurd (hrest c hc a h.mem) (lt_asymm hac)

/-- The nearest entry to a larger target is no smaller. -/
theorem mono (ht : ∀ a ∈ l, ∀ b ∈ l, a ≤ b → t a ≤ t b) (hm : m ≤ m') (h : Nearest t l m a)
    (h' : Nearest t l m' a') : a ≤ a' := by
  by_contra hlt
  rw [not_le] at hlt
  have hsize := ht a' h'.mem a h.mem (le_of_lt hlt)
  have hnear := h.le a' h'.mem
  have hnear' := h'.first a h.mem hlt
  omega

end Nearest

namespace Below

theorem singleton (h : t a ≤ m) : Below t [a] m a := by
  refine ⟨List.mem_singleton_self a, h, ?_⟩
  intro b hb _
  rw [List.mem_singleton.mp hb]

theorem exact (h : a ∈ l) (ha : t a = m) : Below t l m a :=
  ⟨h, le_of_eq ha, fun _ _ hb => ha ▸ hb⟩

theorem replace (h : Below t l m a) (hle : t b ≤ m) (hlt : t a < t b) :
    Below t (l ++ [b]) m b := by
  refine ⟨List.mem_append_right l (List.mem_singleton_self b), hle, ?_⟩
  intro c hc hcm
  obtain hc | hc := List.mem_append.mp hc
  · exact le_trans (h.max c hc hcm) (le_of_lt hlt)
  · rw [List.mem_singleton.mp hc]

/-- The first one that is not above. -/
theorem first (h : ∀ c ∈ l, m < t c) (hle : t b ≤ m) : Below t (l ++ [b]) m b := by
  refine ⟨List.mem_append_right l (List.mem_singleton_self b), hle, ?_⟩
  intro c hc hcm
  obtain hc | hc := List.mem_append.mp hc
  · exact absurd hcm (not_le.mpr (h c hc))
  · rw [List.mem_singleton.mp hc]

theorem keep (h : Below t l m a) (hb : t b ≤ m → t b ≤ t a) : Below t (l ++ [b]) m a := by
  refine ⟨List.mem_append_left _ h.mem, h.le, ?_⟩
  intro c hc hcm
  obtain hc | hc := List.mem_append.mp hc
  · exact h.max c hc hcm
  · rw [List.mem_singleton.mp hc] at hcm ⊢
    exact hb hcm

theorem mono (hm : m ≤ m') (h : Below t l m a) (h' : Below t l m' a') : t a ≤ t a' :=
  h'.max a h.mem (le_trans h.le hm)

end Below

end Libjingle.Lib
