import Libjingle.Lib.WeakOrder

/-!
# Sorting with a comparison that looks at a key first

`std::stable_sort` is `List.insertionSort`, which is stable too. Its results about order ask for a
total and transitive relation. A comparison that decides by a key where the keys differ, and in any
way where they are equal, still sorts by the key. `std::sort` is not stable.
-/

namespace Libjingle.Lib

variable {α β : Type} [LinearOrder β] {key : α → β} {r : α → α → Prop} [DecidableRel r]

theorem pairwise_orderedInsert_key (hlt : ∀ a b, key a < key b → r a b)
    (hgt : ∀ a b, key b < key a → ¬ r a b) (a : α) : ∀ {l : List α},
    l.Pairwise (fun x y => key x ≤ key y) →
      (l.orderedInsert r a).Pairwise (fun x y => key x ≤ key y)
  | [], _ => List.pairwise_singleton _ _
  | b :: l, h => by
    obtain ⟨hb, hl⟩ := List.pairwise_cons.mp h
    rw [List.orderedInsert_cons]
    by_cases hr : r a b
    · rw [if_pos hr]
      have hab : key a ≤ key b := not_lt.mp fun hlt => hgt a b hlt hr
      refine List.pairwise_cons.mpr ⟨fun x hx => ?_, h⟩
      rcases List.mem_cons.mp hx with rfl | hx
      · exact hab
      · exact hab.trans (hb x hx)
    · rw [if_neg hr]
      have hba : key b ≤ key a := not_lt.mp fun h => hr (hlt a b h)
      refine List.pairwise_cons.mpr ⟨fun x hx => ?_, pairwise_orderedInsert_key hlt hgt a hl⟩
      rcases (List.mem_orderedInsert r).mp hx with rfl | hx
      · exact hba
      · exact hb x hx

/-- **Sorting by a comparison that looks at the key first sorts by the key.** -/
theorem pairwise_insertionSort_key (hlt : ∀ a b, key a < key b → r a b)
    (hgt : ∀ a b, key b < key a → ¬ r a b) (l : List α) :
    (l.insertionSort r).Pairwise (fun x y => key x ≤ key y) := by
  induction l with
  | nil => exact List.Pairwise.nil
  | cons a l ih =>
    rw [List.insertionSort_cons]
    exact pairwise_orderedInsert_key hlt hgt a ih

section Head

variable {before : α → α → Prop} [DecidableEq α] {l : List α} {t t' : α}

/-- No value in `l` is before `t`, and `t` is before those that stand in front of it. -/
structure Leads (before : α → α → Prop) (l : List α) (t : α) : Prop where
  mem : t ∈ l
  first : ∀ x ∈ l, ¬ before x t
  front : ∀ x ∈ l, l.idxOf x < l.idxOf t → before t x

/-- Only one value does. -/
theorem Leads.unique (h : Leads before l t) (h' : Leads before l t') : t = t' := by
  rcases lt_trichotomy (l.idxOf t) (l.idxOf t') with hlt | heq | hlt
  · exact absurd (h'.front t h.mem hlt) (h.first t' h'.mem)
  · exact (List.idxOf_inj h.mem).mp heq
  · exact absurd (h.front t' h'.mem hlt) (h'.first t h.mem)

/-- A value that no value of the rest is before. -/
theorem leads_cons_self {a : α} (ha : ∀ x ∈ a :: l, ¬ before x a) : Leads before (a :: l) a where
  mem := List.mem_cons_self
  first := ha
  front x _ hx := by
    rw [List.idxOf_cons_self] at hx
    exact absurd hx (Nat.not_lt_zero _)

/-- The leader of the rest, where it is before the value in front. -/
theorem Leads.cons {a : α} (h : Leads before l t) (hat : ¬ before a t) (hta : before t a)
    (hne : a ≠ t) : Leads before (a :: l) t where
  mem := List.mem_cons_of_mem a h.mem
  first := List.forall_mem_cons.mpr ⟨hat, h.first⟩
  front x hx hlt := by
    by_cases hxa : x = a
    · rw [hxa]
      exact hta
    · rw [List.idxOf_cons_ne _ (Ne.symm hxa), List.idxOf_cons_ne _ hne] at hlt
      exact h.front x ((List.mem_cons.mp hx).resolve_left hxa) (by omega)

/-- What a stable sort puts first leads. -/
theorem leads_of_head [DecidableRel before] (h : WeakOrderOn before {x | x ∈ l})
    (ht : (l.insertionSort fun x y => ¬ before y x).head? = some t) : Leads before l t := by
  induction l generalizing t with
  | nil => cases ht
  | cons a l ih =>
    have hweak : WeakOrderOn before {x | x ∈ l} := h.mono fun x hx => List.mem_cons_of_mem a hx
    have ha : a ∈ {x | x ∈ a :: l} := List.mem_cons_self
    rw [List.insertionSort_cons] at ht
    cases hsort : l.insertionSort fun x y => ¬ before y x with
    | nil =>
      rw [hsort] at ht
      obtain rfl := Option.some.inj ht
      have hperm := List.perm_insertionSort (fun x y => ¬ before y x) l
      rw [hsort] at hperm
      obtain rfl := hperm.nil_eq
      exact leads_cons_self (List.forall_mem_singleton.mpr (h.irrefl a ha))
    | cons b rest =>
      have hb : Leads before l b := ih hweak (by rw [hsort, List.head?_cons])
      have hmem : b ∈ {x | x ∈ a :: l} := List.mem_cons_of_mem a hb.mem
      rw [hsort, List.orderedInsert_cons] at ht
      split at ht
      · rename_i hba
        obtain rfl := Option.some.inj ht
        refine leads_cons_self (List.forall_mem_cons.mpr ⟨h.irrefl a ha, fun x hx => ?_⟩)
        exact h.not_trans (List.mem_cons_of_mem a hx) hmem ha (hb.first x hx) hba
      · rename_i hba
        obtain rfl := Option.some.inj ht
        have hbefore : before b a := not_not.mp hba
        refine hb.cons (h.asymm b hmem a ha hbefore) hbefore ?_
        rintro rfl
        exact h.irrefl a ha hbefore

/-- **A stable sort puts the leader first.** -/
theorem head_insertionSort [DecidableRel before] (h : WeakOrderOn before {x | x ∈ l}) :
    (l.insertionSort fun x y => ¬ before y x).head? = some t ↔ Leads before l t := by
  refine ⟨leads_of_head h, fun ht => ?_⟩
  cases hsort : l.insertionSort fun x y => ¬ before y x with
  | nil =>
    have hmem := (List.mem_insertionSort fun x y => ¬ before y x).mpr ht.mem
    rw [hsort] at hmem
    cases hmem
  | cons b rest =>
    have hb : Leads before l b := leads_of_head h (by rw [hsort, List.head?_cons])
    rw [List.head?_cons, hb.unique ht]

end Head

/-! ## Sorts that are not stable -/

/-- `std::sort` by a key, the greatest one first: what it makes of each list. Values with one key
may come in any order. -/
structure UnstableSort (key : α → β) where
  sort : List α → List α
  perm : ∀ l, (sort l).Perm l
  sorted : ∀ l, (sort l).Pairwise fun a b => key b ≤ key a

namespace UnstableSort

/-- The stable one. -/
def stable (key : α → β) : UnstableSort key where
  sort l := l.insertionSort fun a b => key b ≤ key a
  perm l := List.perm_insertionSort _ l
  sorted l := @pairwise_insertionSort_key α βᵒᵈ _ (fun a => OrderDual.toDual (key a)) _ _
    (fun _ _ h => le_of_lt h) (fun _ _ h => not_le_of_gt h) l

/-- A sort that makes `l'` of `l`. -/
def sending [DecidableEq α] {l l' : List α} (hperm : l'.Perm l)
    (hsorted : l'.Pairwise fun a b => key b ≤ key a) : UnstableSort key where
  sort m := if m = l then l' else (stable key).sort m
  perm m := by
    split
    · rename_i h
      rw [h]
      exact hperm
    · exact (stable key).perm m
  sorted m := by
    split
    · exact hsorted
    · exact (stable key).sorted m

end UnstableSort

/-- In a list in descending order the values that satisfy a condition on the key from below come
first. -/
theorem lt_countP_iff {l : List α} (h : l.Pairwise fun a b => key b ≤ key a) {p : α → Bool}
    (hp : ∀ a b, key a ≤ key b → p a = true → p b = true) {k : Nat} (hk : k < l.length) :
    k < l.countP p ↔ p l[k] = true := by
  induction l generalizing k with
  | nil => cases hk
  | cons a l ih =>
    obtain ⟨ha, hl⟩ := List.pairwise_cons.mp h
    have hnone : p a = false → ∀ b ∈ l, p b = false := fun hpa b hb =>
      Bool.eq_false_iff.mpr fun hpb => Bool.false_ne_true (hpa.symm.trans (hp b a (ha b hb) hpb))
    cases hpa : p a with
    | true =>
      rw [List.countP_cons_of_pos hpa]
      cases k with
      | zero => simp [hpa]
      | succ k =>
        rw [Nat.add_lt_add_iff_right]
        exact ih hl (by simpa using hk)
    | false =>
      have hzero : (a :: l).countP p = 0 := List.countP_eq_zero.mpr fun b hb => by
        rcases List.mem_cons.mp hb with rfl | hb
        · simp [hpa]
        · simp [hnone hpa b hb]
      rw [hzero]
      refine iff_of_false (Nat.not_lt_zero k) (Bool.eq_false_iff.mp ?_)
      rcases List.mem_cons.mp (List.getElem_mem hk) with heq | hmem
      · rw [heq, hpa]
      · exact hnone hpa _ hmem

/-- The place `k` lies among those of the values in `l` with the key of `a`. -/
def MayStand (key : α → β) (l : List α) (a : α) (k : Nat) : Prop :=
  (l.countP fun b => key a < key b) ≤ k ∧ k < l.countP fun b => key a ≤ key b

theorem mayStand_iff {l : List α} (h : l.Pairwise fun a b => key b ≤ key a) {a : α} {k : Nat}
    (hk : k < l.length) : MayStand key l a k ↔ key l[k] = key a := by
  have habove := lt_countP_iff h (p := fun b => key a < key b) (k := k)
    (fun _ _ hle hlt => by simpa using lt_of_lt_of_le (of_decide_eq_true hlt) hle) hk
  have hlevel := lt_countP_iff h (p := fun b => key a ≤ key b) (k := k)
    (fun _ _ hle hlt => by simpa using (of_decide_eq_true hlt).trans hle) hk
  rw [MayStand, ← not_lt, habove, hlevel, decide_eq_true_eq, decide_eq_true_eq, not_lt]
  exact le_antisymm_iff.symm

theorem MayStand.perm {l l' : List α} (h : l'.Perm l) {a : α} {k : Nat} :
    MayStand key l' a k ↔ MayStand key l a k := by
  rw [MayStand, MayStand, h.countP_eq, h.countP_eq]

theorem mayStand_map {γ : Type} (f : γ → α) (l : List γ) (a : γ) (k : Nat) :
    MayStand key (l.map f) (f a) k ↔ MayStand (fun x => key (f x)) l a k := by
  rw [MayStand, MayStand, List.countP_map, List.countP_map]
  rfl

/-- **The places that a value may get** are those of the values with its key. -/
theorem exists_sorts_to_iff [DecidableEq α] {l : List α} {a : α} {k : Nat} (ha : a ∈ l) :
    (∃ s : UnstableSort key, (s.sort l)[k]? = some a) ↔ MayStand key l a k := by
  constructor
  · rintro ⟨s, hs⟩
    obtain ⟨hk, heq⟩ := List.getElem?_eq_some_iff.mp hs
    rw [← MayStand.perm (s.perm l), mayStand_iff (s.sorted l) hk, heq]
  · intro h
    -- The value changes places with the one that a stable sort puts there.
    have hsorted := (UnstableSort.stable key).sorted l
    have hperm := (UnstableSort.stable key).perm l
    rw [← MayStand.perm hperm] at h
    generalize (UnstableSort.stable key).sort l = m at hsorted hperm h
    have hk : k < m.length := h.2.trans_le List.countP_le_length
    obtain ⟨j, hj, rfl⟩ := List.getElem_of_mem (hperm.mem_iff.mpr ha)
    have hkey : key m[k] = key m[j] := (mayStand_iff hsorted hk).mp h
    have hset : ∀ i (hi : i < m.length), (m.map key).set i (key m[i]) = m.map key := by
      intro i hi
      rw [← List.getElem_map key, List.set_getElem_self]
      rwa [List.length_map]
    have hmap : ((m.set j m[k]).set k m[j]).map key = m.map key := by
      rw [List.map_set, List.map_set, hkey, hset j hj, ← hkey, hset k hk]
    refine ⟨UnstableSort.sending ((List.set_set_perm hj hk).trans hperm) ?_, ?_⟩
    · rw [← List.pairwise_map (f := key) (R := fun x y => y ≤ x), hmap]
      exact List.pairwise_map.mpr hsorted
    · simp [UnstableSort.sending, hk]

end Libjingle.Lib
