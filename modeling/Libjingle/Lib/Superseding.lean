import Mathlib.Data.List.Basic
import Mathlib.Data.List.Induction
import Mathlib.Order.Lattice

/-!
# Lists whose older elements are superseded

An arrival removes the elements of lower rank, and is added behind the others unless the list has
one that is the same. What is the same has the same rank.

* **`exists_mem_iff`**: after any arrivals the list represents what stands, each once
  (`pairwise_arrivals`).
* **`represents_newest_iff`**: it represents just what is of the highest rank if and only if the
  last arrival is.
-/

namespace Libjingle.Lib

/-- When elements are the same, and how they rank. -/
structure Superseding (α β : Type) [LinearOrder β] where
  same : α → α → Bool
  rank : α → β
  refl : ∀ a, same a a = true
  symm : ∀ {a b}, same a b = true → same b a = true
  trans : ∀ {a b c}, same a b = true → same b c = true → same a c = true
  rank_eq : ∀ {a b}, same a b = true → rank a = rank b

namespace Superseding

variable {α β : Type} [LinearOrder β] (r : Superseding α β)

/-- An arrival. -/
def supersede (l : List α) (a : α) : List α :=
  let kept := l.filter fun x => ¬ r.rank x < r.rank a
  if kept.any fun x => r.same x a then kept else kept ++ [a]

/-- The list after some arrivals. -/
def arrivals (l : List α) : List α := l.foldl r.supersede []

/-- Something that is the same has arrived, and nothing of higher rank after it. -/
def Stands (l : List α) (a : α) : Prop :=
  ∃ before x after, l = before ++ x :: after ∧ r.same x a = true ∧
    ∀ y ∈ after, r.rank y ≤ r.rank a

/-- The elements represent just what is of the highest rank, each once. -/
structure RepresentsNewest (l rs : List α) : Prop where
  newest : ∀ x ∈ rs, x ∈ l ∧ ∀ y ∈ l, r.rank y ≤ r.rank x
  all : ∀ a ∈ l, (∀ y ∈ l, r.rank y ≤ r.rank a) → ∃ x ∈ rs, r.same x a = true
  once : rs.Pairwise fun x y => r.same x y = false

variable {r : Superseding α β} {l : List α} {a b : α}

theorem arrivals_concat : r.arrivals (l ++ [a]) = r.supersede (r.arrivals l) a := by
  rw [arrivals, List.foldl_append]
  rfl

theorem mem_kept {x : α} : x ∈ (l.filter fun x => ¬ r.rank x < r.rank a) ↔
    x ∈ l ∧ r.rank a ≤ r.rank x := by
  simp

theorem exists_mem_supersede : (∃ x ∈ r.supersede l b, r.same x a = true) ↔
    r.same b a = true ∨ (∃ x ∈ l, r.same x a = true) ∧ r.rank b ≤ r.rank a := by
  have hkept : (∃ x ∈ l.filter fun x => ¬ r.rank x < r.rank b, r.same x a = true) ↔
      (∃ x ∈ l, r.same x a = true) ∧ r.rank b ≤ r.rank a := by
    constructor
    · rintro ⟨x, hx, hsame⟩
      obtain ⟨hx, hle⟩ := mem_kept.mp hx
      exact ⟨⟨x, hx, hsame⟩, r.rank_eq hsame ▸ hle⟩
    · rintro ⟨⟨x, hx, hsame⟩, hle⟩
      exact ⟨x, mem_kept.mpr ⟨hx, r.rank_eq hsame ▸ hle⟩, hsame⟩
  rw [← hkept]
  dsimp only [supersede]
  split
  · rename_i hany
    obtain ⟨x, hx, hdup⟩ := List.any_eq_true.mp hany
    exact ⟨.inr, fun h => h.elim (fun hb => ⟨x, hx, r.trans hdup hb⟩) id⟩
  · simp only [List.mem_append, List.mem_singleton, or_and_right, exists_or, exists_eq_left,
      or_comm]

theorem stands_concat : r.Stands (l ++ [b]) a ↔
    r.same b a = true ∨ r.Stands l a ∧ r.rank b ≤ r.rank a := by
  constructor
  · rintro ⟨before, x, after, heq, hsame, hle⟩
    rcases List.eq_nil_or_concat' after with rfl | ⟨after, y, rfl⟩
    · obtain ⟨-, hx⟩ := List.append_inj' heq rfl
      exact .inl (List.singleton_inj.mp hx ▸ hsame)
    · rw [← List.cons_append, ← List.append_assoc] at heq
      obtain ⟨hl, hy⟩ := List.append_inj' heq rfl
      obtain rfl := List.singleton_inj.mp hy
      exact .inr ⟨⟨before, x, after, hl, hsame, fun z hz => hle z (List.mem_append_left _ hz)⟩,
        hle b (List.mem_append_right _ List.mem_cons_self)⟩
  · rintro (hsame | ⟨⟨before, x, after, rfl, hsame, hle⟩, hb⟩)
    · exact ⟨l, b, [], rfl, hsame, List.forall_mem_nil _⟩
    · refine ⟨before, x, after ++ [b], by simp, hsame, fun y hy => ?_⟩
      rcases List.mem_append.mp hy with hy | hy
      · exact hle y hy
      · exact List.mem_singleton.mp hy ▸ hb

/-- **What the list represents** is what stands. -/
theorem exists_mem_iff : (∃ x ∈ r.arrivals l, r.same x a = true) ↔ r.Stands l a := by
  induction l using List.reverseRecOn with
  | nil => simp [arrivals, Stands]
  | append_singleton l b ih => rw [arrivals_concat, exists_mem_supersede, stands_concat, ih]

theorem mem_of_mem_arrivals (h : a ∈ r.arrivals l) : a ∈ l := by
  induction l using List.reverseRecOn with
  | nil => exact h
  | append_singleton l b ih =>
    rw [arrivals_concat, supersede] at h
    split at h
    · exact List.mem_append_left _ (ih (List.mem_filter.mp h).1)
    · rcases List.mem_append.mp h with h | h
      · exact List.mem_append_left _ (ih (List.mem_filter.mp h).1)
      · exact List.mem_append_right _ h

theorem pairwise_arrivals : (r.arrivals l).Pairwise fun x y => r.same x y = false := by
  induction l using List.reverseRecOn with
  | nil => exact .nil
  | append_singleton l b ih =>
    rw [arrivals_concat, supersede]
    have hkept := ih.filter fun x => ¬ r.rank x < r.rank b
    split
    · exact hkept
    · rename_i hany
      refine List.pairwise_append.mpr ⟨hkept, List.pairwise_singleton _ _, fun x hx y hy => ?_⟩
      rw [List.mem_singleton.mp hy]
      exact Bool.eq_false_iff.mpr fun hsame => hany (List.any_eq_true.mpr ⟨x, hx, hsame⟩)

/-- **Only the newest** are represented just if the last arrival is one of them. -/
theorem represents_newest_iff : r.RepresentsNewest l (r.arrivals l) ↔
    ∀ a ∈ l.getLast?, ∀ y ∈ l, r.rank y ≤ r.rank a := by
  constructor
  · intro h a ha
    obtain ⟨l, rfl⟩ := List.getLast?_eq_some_iff.mp ha
    obtain ⟨x, hx, hsame⟩ := exists_mem_iff.mpr (stands_concat.mpr (.inl (r.refl a)))
    exact r.rank_eq hsame ▸ (h.newest x hx).2
  · intro hlast
    refine ⟨fun x hx => ⟨mem_of_mem_arrivals hx, ?_⟩, fun a ha hnew => ?_, pairwise_arrivals⟩
    · have hstands := exists_mem_iff.mp ⟨x, hx, r.refl x⟩
      rcases List.eq_nil_or_concat' l with rfl | ⟨l, b, rfl⟩
      · exact List.forall_mem_nil _
      · have hb := hlast b List.getLast?_concat
        rcases stands_concat.mp hstands with hsame | ⟨-, hle⟩
        · exact r.rank_eq hsame ▸ hb
        · exact fun y hy => (hb y hy).trans hle
    · obtain ⟨before, after, rfl⟩ := List.append_of_mem ha
      exact exists_mem_iff.mpr ⟨before, a, after, rfl, r.refl a, fun y hy => hnew y (by simp [hy])⟩

end Superseding

end Libjingle.Lib
