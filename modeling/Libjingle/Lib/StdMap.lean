import Libjingle.Lib.WeakOrder

/-!
# Maps over a comparison

`std::map` with the comparison of its keys as a parameter. The entries are in ascending order, and
a key is looked for up to the first entry that is not less; keys are the same if neither is less.
A comparison that does not order the keys leaves the behaviour undefined, which is `none`.
-/

namespace Libjingle.Lib

variable {K V : Type} {lt : K → K → Bool} {S : Set K} {k k' : K} {v : V} {l : List (K × V)}

/-! ## Comparisons -/

/-- Neither key is less. -/
def Same (lt : K → K → Bool) (a b : K) : Prop := lt a b = false ∧ lt b a = false

instance (lt : K → K → Bool) (a b : K) : Decidable (Same lt a b) :=
  inferInstanceAs (Decidable (_ ∧ _))

/-- The comparison is a strict weak order on the keys in `S`. -/
abbrev Orders (lt : K → K → Bool) (S : Set K) : Prop := WeakOrderOn (fun a b => lt a b = true) S

theorem Same.symm {a b : K} (h : Same lt a b) : Same lt b a := ⟨h.2, h.1⟩

section

variable {a b c : K}

theorem Orders.same_refl (h : Orders lt S) (ha : a ∈ S) : Same lt a a := by
  have hno := Bool.eq_false_iff.mpr (h.irrefl a ha)
  exact ⟨hno, hno⟩

theorem Orders.lt_asymm (h : Orders lt S) (ha : a ∈ S) (hb : b ∈ S) (hab : lt a b = true) :
    lt b a = false := Bool.eq_false_iff.mpr (h.asymm a ha b hb hab)

theorem Orders.lt_of_same_lt (h : Orders lt S) (ha : a ∈ S) (hb : b ∈ S) (hc : c ∈ S)
    (hab : Same lt a b) (hbc : lt b c = true) : lt a c = true := by
  by_contra hac
  exact h.not_trans hb ha hc (Bool.eq_false_iff.mp hab.2) hac hbc

theorem Orders.lt_of_lt_same (h : Orders lt S) (ha : a ∈ S) (hb : b ∈ S) (hc : c ∈ S)
    (hab : lt a b = true) (hbc : Same lt b c) : lt a c = true := by
  by_contra hac
  exact h.not_trans ha hc hb hac (Bool.eq_false_iff.mp hbc.2) hab

theorem Orders.same_trans (h : Orders lt S) (ha : a ∈ S) (hb : b ∈ S) (hc : c ∈ S)
    (hab : Same lt a b) (hbc : Same lt b c) : Same lt a c := by
  obtain ⟨hac, hca⟩ := h.incomp a ha b hb c hc (Bool.eq_false_iff.mp hab.1)
    (Bool.eq_false_iff.mp hab.2) (Bool.eq_false_iff.mp hbc.1) (Bool.eq_false_iff.mp hbc.2)
  exact ⟨Bool.eq_false_iff.mpr hac, Bool.eq_false_iff.mpr hca⟩

end

/-! ## Operations -/

/-- `find`, with the value. -/
def lookup (lt : K → K → Bool) (k : K) : List (K × V) → Option V
  | [] => none
  | e :: rest => if lt e.1 k then lookup lt k rest else if lt k e.1 then none else some e.2

/-- `operator[]` and an assignment. An entry that is there keeps its key. -/
def assign (lt : K → K → Bool) (k : K) (v : V) : List (K × V) → List (K × V)
  | [] => [(k, v)]
  | e :: rest =>
    if lt e.1 k then e :: assign lt k v rest
    else if lt k e.1 then (k, v) :: e :: rest
    else (e.1, v) :: rest

def erase (lt : K → K → Bool) (k : K) : List (K × V) → List (K × V)
  | [] => []
  | e :: rest =>
    if lt e.1 k then e :: erase lt k rest else if lt k e.1 then e :: rest else rest

/-- The entries ascend. -/
def Ascending (lt : K → K → Bool) (l : List (K × V)) : Prop :=
  l.Pairwise fun e f => lt e.1 f.1 = true

variable {e : K × V} {rest : List (K × V)}

theorem lookup_of_lt (h : lt e.1 k = true) : lookup lt k (e :: rest) = lookup lt k rest := if_pos h

theorem lookup_of_gt (h : lt k e.1 = true)
    (hno : lt e.1 k = false) : lookup lt k (e :: rest) = none := by
  unfold lookup
  rw [if_neg (by simp [hno]), if_pos h]

theorem lookup_of_same (h : Same lt e.1 k) : lookup lt k (e :: rest) = some e.2 := by
  unfold lookup
  rw [if_neg (by simp [h.1]), if_neg (by simp [h.2])]

/-- Two keys: one is less, the other one is, or they are the same. -/
theorem trichotomy (h : Orders lt S) {a b : K} (ha : a ∈ S) (hb : b ∈ S) :
    (lt a b = true ∧ lt b a = false) ∨ (lt b a = true ∧ lt a b = false) ∨ Same lt a b := by
  cases hab : lt a b with
  | true => exact Or.inl ⟨rfl, h.lt_asymm ha hb hab⟩
  | false =>
    cases hba : lt b a with
    | true => exact Or.inr (Or.inl ⟨rfl, rfl⟩)
    | false => exact Or.inr (Or.inr ⟨hab, hba⟩)

/-- A key that is less than all others finds nothing. -/
theorem lookup_of_first (h : Orders lt S) (hk : k ∈ S) (hl : ∀ e ∈ l, e.1 ∈ S)
    (hfirst : ∀ e ∈ l, lt k e.1 = true) : lookup lt k l = none := by
  cases l with
  | nil => rfl
  | cons e rest =>
    have hgt := hfirst e List.mem_cons_self
    exact lookup_of_gt hgt (h.lt_asymm hk (hl e List.mem_cons_self) hgt)

theorem mem_assign {x : K × V} (hx : x ∈ assign lt k v l) :
    x.1 = k ∨ x.1 ∈ l.map Prod.fst := by
  induction l with
  | nil =>
    obtain rfl := List.mem_singleton.mp hx
    exact Or.inl rfl
  | cons e rest ih =>
    unfold assign at hx
    rw [List.map_cons, List.mem_cons]
    split at hx
    · rcases List.mem_cons.mp hx with rfl | hx
      · exact Or.inr (Or.inl rfl)
      · exact (ih hx).imp_right Or.inr
    split at hx
    · rcases List.mem_cons.mp hx with rfl | hx
      · exact Or.inl rfl
      · exact Or.inr (List.mem_cons.mp (List.mem_map_of_mem hx))
    · rcases List.mem_cons.mp hx with rfl | hx
      · exact Or.inr (Or.inl rfl)
      · exact Or.inr (Or.inr (List.mem_map_of_mem hx))

/-- An assignment keeps the keys that are there. -/
theorem mem_assign_of_mem {x : K} (hx : x ∈ l.map Prod.fst) :
    x ∈ (assign lt k v l).map Prod.fst := by
  induction l with
  | nil => cases hx
  | cons e rest ih =>
    rw [List.map_cons, List.mem_cons] at hx
    unfold assign
    split
    · exact List.mem_cons.mpr (hx.imp_right ih)
    split
    · exact List.mem_cons_of_mem _ (List.mem_cons.mpr hx)
    · exact List.mem_cons.mpr hx

/-- After an assignment the key is there. -/
theorem exists_same_assign (hself : Same lt k k) : ∃ x ∈ (assign lt k v l).map Prod.fst,
    Same lt x k := by
  induction l with
  | nil => exact ⟨k, List.mem_singleton_self k, hself⟩
  | cons e rest ih =>
    unfold assign
    split
    · obtain ⟨x, hx, hsame⟩ := ih
      exact ⟨x, List.mem_cons_of_mem _ hx, hsame⟩
    split
    · exact ⟨k, List.mem_cons_self, hself⟩
    · rename_i hno hno'
      exact ⟨e.1, List.mem_cons_self, Bool.eq_false_iff.mpr hno, Bool.eq_false_iff.mpr hno'⟩

theorem erase_sublist (lt : K → K → Bool) (k : K) (l : List (K × V)) :
    (erase lt k l).Sublist l := by
  induction l with
  | nil => exact List.Sublist.refl _
  | cons e rest ih =>
    unfold erase
    split
    · exact ih.cons_cons e
    split
    · exact List.Sublist.refl _
    · exact List.sublist_cons_self e rest

/-- **What is found after an assignment.** -/
theorem lookup_assign (h : Orders lt S) (hk : k ∈ S) (hk' : k' ∈ S) (hl : ∀ e ∈ l, e.1 ∈ S)
    (v : V) : lookup lt k' (assign lt k v l) =
      if Same lt k k' then some v else lookup lt k' l := by
  induction l with
  | nil =>
    unfold assign
    rcases trichotomy h hk hk' with ⟨hlt, hno⟩ | ⟨hgt, hno⟩ | heq
    · rw [lookup_of_lt hlt, if_neg fun hs => by simp [hs.1] at hlt]
    · rw [lookup_of_gt hgt hno, if_neg fun hs => by simp [hs.2] at hgt]
      rfl
    · rw [lookup_of_same heq, if_pos heq]
  | cons e rest ih =>
    have he := hl e List.mem_cons_self
    have ih := ih fun x hx => hl x (List.mem_cons_of_mem _ hx)
    unfold assign
    rcases trichotomy h he hk with ⟨hek, -⟩ | ⟨hke, hno⟩ | heq
    · rw [if_pos hek]
      rcases trichotomy h he hk' with ⟨hlt, -⟩ | ⟨hgt, hno'⟩ | heq'
      · rw [lookup_of_lt hlt, lookup_of_lt hlt, ih]
      · rw [lookup_of_gt hgt hno', lookup_of_gt hgt hno', if_neg]
        intro hs
        have hback := h.lt_of_lt_same he hk hk' hek hs
        rw [hno'] at hback
        cases hback
      · rw [lookup_of_same heq', lookup_of_same heq', if_neg]
        intro hs
        have hback := h.lt_of_lt_same he hk hk' hek hs
        rw [heq'.1] at hback
        cases hback
    · rw [if_neg (by simp [hno]), if_pos hke]
      rcases trichotomy h hk hk' with ⟨hlt, -⟩ | ⟨hgt, hno'⟩ | heq'
      · rw [lookup_of_lt hlt, if_neg fun hs => by simp [hs.1] at hlt]
      · have hfirst := h.trans k' hk' k hk e.1 he hgt hke
        rw [lookup_of_gt hgt hno', lookup_of_gt hfirst (h.lt_asymm hk' he hfirst),
          if_neg fun hs => by simp [hs.2] at hgt]
      · rw [lookup_of_same heq', if_pos heq']
    · rw [if_neg (by simp [heq.1]), if_neg (by simp [heq.2])]
      rcases trichotomy h he hk' with ⟨hlt, -⟩ | ⟨hgt, hno'⟩ | heq'
      · have hother := h.lt_of_same_lt hk he hk' heq.symm hlt
        have hnew : lookup lt k' ((e.1, v) :: rest) = lookup lt k' rest := lookup_of_lt hlt
        rw [hnew, lookup_of_lt hlt, if_neg fun hs => by simp [hs.1] at hother]
      · have hother := h.lt_of_lt_same hk' he hk hgt heq
        have hnew : lookup lt k' ((e.1, v) :: rest) = none := lookup_of_gt hgt hno'
        rw [hnew, lookup_of_gt hgt hno', if_neg fun hs => by simp [hs.2] at hother]
      · have hnew : lookup lt k' ((e.1, v) :: rest) = some v := lookup_of_same heq'
        rw [hnew, if_pos (h.same_trans hk he hk' heq.symm heq')]

/-- **What is found after an entry was erased.** -/
theorem lookup_erase (h : Orders lt S) (hk : k ∈ S) (hk' : k' ∈ S) (hl : ∀ e ∈ l, e.1 ∈ S)
    (hasc : Ascending lt l) : lookup lt k' (erase lt k l) =
      if Same lt k k' then none else lookup lt k' l := by
  induction l with
  | nil => exact (ite_self none).symm
  | cons e rest ih =>
    have he := hl e List.mem_cons_self
    have hrest : ∀ x ∈ rest, x.1 ∈ S := fun x hx => hl x (List.mem_cons_of_mem _ hx)
    obtain ⟨hfirst, hasc⟩ := List.pairwise_cons.mp hasc
    have ih := ih hrest hasc
    unfold erase
    rcases trichotomy h he hk with ⟨hek, -⟩ | ⟨hke, hno⟩ | heq
    · rw [if_pos hek]
      rcases trichotomy h he hk' with ⟨hlt, -⟩ | ⟨hgt, hno'⟩ | heq'
      · rw [lookup_of_lt hlt, lookup_of_lt hlt, ih]
      · rw [lookup_of_gt hgt hno', lookup_of_gt hgt hno', ite_self]
      · rw [lookup_of_same heq', lookup_of_same heq', if_neg]
        intro hs
        have hback := h.lt_of_lt_same he hk hk' hek hs
        rw [heq'.1] at hback
        cases hback
    · rw [if_neg (by simp [hno]), if_pos hke]
      split
      · rename_i hs
        have hgt := h.lt_of_same_lt hk' hk he hs.symm hke
        exact lookup_of_gt hgt (h.lt_asymm hk' he hgt)
      · rfl
    · rw [if_neg (by simp [heq.1]), if_neg (by simp [heq.2])]
      rcases trichotomy h he hk' with ⟨hlt, -⟩ | ⟨hgt, hno'⟩ | heq'
      · have hother := h.lt_of_same_lt hk he hk' heq.symm hlt
        rw [lookup_of_lt hlt, if_neg fun hs => by simp [hs.1] at hother]
      · rw [lookup_of_gt hgt hno', ite_self]
        exact lookup_of_first h hk' hrest fun x hx =>
          h.trans k' hk' e.1 he x.1 (hrest x hx) hgt (hfirst x hx)
      · rw [if_pos (h.same_trans hk he hk' heq.symm heq')]
        exact lookup_of_first h hk' hrest fun x hx =>
          h.lt_of_same_lt hk' he (hrest x hx) heq'.symm (hfirst x hx)

theorem Ascending.assign (h : Orders lt S) (hk : k ∈ S) (hl : ∀ e ∈ l, e.1 ∈ S)
    (hasc : Ascending lt l) (v : V) : Ascending lt (assign lt k v l) := by
  induction l with
  | nil => exact List.pairwise_singleton _ _
  | cons e rest ih =>
    have he := hl e List.mem_cons_self
    have hrest : ∀ x ∈ rest, x.1 ∈ S := fun x hx => hl x (List.mem_cons_of_mem _ hx)
    obtain ⟨hfirst, hasc'⟩ := List.pairwise_cons.mp hasc
    unfold Lib.assign
    split
    · rename_i hek
      refine List.pairwise_cons.mpr ⟨fun x hx => ?_, ih hrest hasc'⟩
      rcases mem_assign hx with hxk | hx
      · rw [hxk]
        exact hek
      · obtain ⟨y, hy, heq⟩ := List.mem_map.mp hx
        rw [← heq]
        exact hfirst y hy
    split
    · rename_i hke
      refine List.pairwise_cons.mpr ⟨fun x hx => ?_, hasc⟩
      rcases List.mem_cons.mp hx with rfl | hx
      · exact hke
      · exact h.trans k hk e.1 he x.1 (hrest x hx) hke (hfirst x hx)
    · exact List.pairwise_cons.mpr ⟨hfirst, hasc'⟩

theorem Ascending.erase (hasc : Ascending lt l) (k : K) : Ascending lt (erase lt k l) :=
  List.Pairwise.sublist (erase_sublist lt k l) hasc

/-! ## Maps -/

/-- What a strict weak order asks of three keys. -/
def Fits (lt : K → K → Bool) (a b c : K) : Prop :=
  ¬ lt a a = true ∧ (lt a b = true → ¬ lt b a = true) ∧
    (lt a b = true → lt b c = true → lt a c = true) ∧ (Same lt a b → Same lt b c → Same lt a c)

instance (lt : K → K → Bool) (a b c : K) : Decidable (Fits lt a b c) :=
  inferInstanceAs (Decidable (_ ∧ _ ∧ _ ∧ _))

theorem orders_of_fits {ks : List K} (h : ∀ a ∈ ks, ∀ b ∈ ks, ∀ c ∈ ks, Fits lt a b c) :
    Orders lt {k | k ∈ ks} where
  irrefl a ha := (h a ha a ha a ha).1
  asymm a ha b hb := (h a ha b hb b hb).2.1
  trans a ha b hb c hc := (h a ha b hb c hc).2.2.1
  incomp a ha b hb c hc hab hba hbc hcb := by
    simp only [Bool.not_eq_true] at hab hba hbc hcb ⊢
    exact (h a ha b hb c hc).2.2.2 ⟨hab, hba⟩ ⟨hbc, hcb⟩

/-- Whether a comparison orders finitely many keys can be checked. -/
instance (lt : K → K → Bool) (ks : List K) : Decidable (Orders lt {k | k ∈ ks}) :=
  decidable_of_iff (∀ a ∈ ks, ∀ b ∈ ks, ∀ c ∈ ks, Fits lt a b c)
    ⟨orders_of_fits, fun h a ha b hb c hc => ⟨h.irrefl a ha, h.asymm a ha b hb,
      h.trans a ha b hb c hc, h.same_trans ha hb hc⟩⟩

/-- `std::map`: ascending entries, on whose keys the comparison is a strict weak order. -/
structure StdMap (lt : K → K → Bool) (V : Type) where
  entries : List (K × V)
  ascending : Ascending lt entries
  orders : Orders lt {k | k ∈ entries.map Prod.fst}

namespace StdMap

variable {m m' : StdMap lt V} {r : Option V}

/-- The keys. -/
def keys (m : StdMap lt V) : List K := m.entries.map Prod.fst

/-- The empty map. -/
def empty : StdMap lt V :=
  ⟨[], List.Pairwise.nil, ⟨nofun, nofun, nofun, nofun⟩⟩

/-- The comparison orders the keys and `k`. -/
def Accepts (m : StdMap lt V) (k : K) : Prop := Orders lt {x | x ∈ k :: m.keys}

instance (m : StdMap lt V) (k : K) : Decidable (m.Accepts k) :=
  inferInstanceAs (Decidable (Orders _ _))

theorem mem_keys (m : StdMap lt V) {e : K × V} (h : e ∈ m.entries) : e.1 ∈ m.keys :=
  List.mem_map_of_mem h

theorem keys_assign (m : StdMap lt V) (k : K) (v : V) :
    ∀ x ∈ (assign lt k v m.entries).map Prod.fst, x ∈ k :: m.keys := by
  intro x hx
  obtain ⟨e, he, rfl⟩ := List.mem_map.mp hx
  rcases mem_assign he with heq | hmem
  · exact heq ▸ List.mem_cons_self
  · exact List.mem_cons_of_mem _ hmem

/-- `find`; `none` when the behaviour is undefined. -/
def find (m : StdMap lt V) (k : K) : Option (Option V) :=
  if m.Accepts k then some (lookup lt k m.entries) else none

/-- `operator[]` with an assignment. -/
def set (m : StdMap lt V) (k : K) (v : V) : Option (StdMap lt V) :=
  if h : m.Accepts k then
    some ⟨assign lt k v m.entries,
      m.ascending.assign h List.mem_cons_self
        (fun _ he => List.mem_cons_of_mem _ (m.mem_keys he)) v,
      h.mono (m.keys_assign k v)⟩
  else none

def erase (m : StdMap lt V) (k : K) : Option (StdMap lt V) :=
  if m.Accepts k then
    some ⟨Lib.erase lt k m.entries, m.ascending.erase k,
      m.orders.mono fun _ hx => ((erase_sublist lt k m.entries).map Prod.fst).subset hx⟩
  else none

/-- The keys of the map lie in `S`. -/
def Within (m : StdMap lt V) (S : Set K) : Prop := ∀ k ∈ m.keys, k ∈ S

theorem within_empty (S : Set K) : (empty : StdMap lt V).Within S := nofun

theorem Within.accepts (hm : m.Within S) (h : Orders lt S) (hk : k ∈ S) : m.Accepts k := by
  refine h.mono fun x hx => ?_
  rcases List.mem_cons.mp hx with rfl | hx
  · exact hk
  · exact hm x hx

theorem Within.entries (hm : m.Within S) : ∀ e ∈ m.entries, e.1 ∈ S :=
  fun _ he => hm _ (m.mem_keys he)

/-- On ordered keys everything is defined. -/
theorem Within.find_eq (hm : m.Within S) (h : Orders lt S) (hk : k ∈ S) :
    m.find k = some (lookup lt k m.entries) := if_pos (hm.accepts h hk)

theorem Within.set_eq (hm : m.Within S) (h : Orders lt S) (hk : k ∈ S) (v : V) :
    ∃ m', m.set k v = some m' ∧ m'.Within S ∧
      ∀ k' ∈ S, m'.find k' = if Same lt k k' then some (some v) else m.find k' := by
  obtain ⟨m', hset, hentries⟩ : ∃ m', m.set k v = some m' ∧
      m'.entries = assign lt k v m.entries := ⟨_, dif_pos (hm.accepts h hk), rfl⟩
  have hwithin : m'.Within S := by
    intro x hx
    unfold keys at hx
    rw [hentries] at hx
    rcases List.mem_cons.mp (m.keys_assign k v x hx) with rfl | hx
    · exact hk
    · exact hm x hx
  refine ⟨m', hset, hwithin, fun k' hk' => ?_⟩
  rw [hwithin.find_eq h hk', hm.find_eq h hk', hentries, lookup_assign h hk hk' hm.entries]
  split <;> rfl

theorem Within.erase_eq (hm : m.Within S) (h : Orders lt S) (hk : k ∈ S) :
    ∃ m', m.erase k = some m' ∧ m'.Within S ∧
      ∀ k' ∈ S, m'.find k' = if Same lt k k' then some none else m.find k' := by
  obtain ⟨m', herase, hentries⟩ : ∃ m', m.erase k = some m' ∧
      m'.entries = Lib.erase lt k m.entries := ⟨_, if_pos (hm.accepts h hk), rfl⟩
  have hwithin : m'.Within S := by
    intro x hx
    unfold keys at hx
    rw [hentries] at hx
    exact hm x (((erase_sublist lt k m.entries).map Prod.fst).subset hx)
  refine ⟨m', herase, hwithin, fun k' hk' => ?_⟩
  rw [hwithin.find_eq h hk', hm.find_eq h hk', hentries,
    lookup_erase h hk hk' hm.entries m.ascending]
  split <;> rfl

theorem find_empty (h : Orders lt S) (hk : k ∈ S) :
    (empty : StdMap lt V).find k = some none := (within_empty S).find_eq h hk

/-- What is defined orders the keys. -/
theorem accepts_of_find (h : m.find k = some r) : m.Accepts k := by
  by_contra hno
  unfold find at h
  rw [if_neg hno] at h
  cases h

/-- The keys after an assignment. -/
theorem keys_set (h : m.set k v = some m') :
    (∀ x ∈ m.keys, x ∈ m'.keys) ∧ ∃ x ∈ m'.keys, Same lt x k := by
  unfold set at h
  split at h
  · rename_i ho
    obtain rfl := Option.some.inj h
    exact ⟨fun x hx => mem_assign_of_mem hx,
      exists_same_assign (Orders.same_refl ho List.mem_cons_self)⟩
  · cases h

end StdMap

end Libjingle.Lib
