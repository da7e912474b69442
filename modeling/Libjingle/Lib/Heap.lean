import Mathlib.Data.List.Sort

/-!
# Priority queues in an array

A binary heap of a list by a key: the smallest key is at the front. The algorithms that keep a heap
(`std::make_heap`, `std::push_heap`, `std::pop_heap`) may order its elements in any way that their
specification allows.
-/

namespace Libjingle.Lib

variable {α κ : Type} [LinearOrder κ]

/-- No element has a smaller key than its parent. -/
def IsHeap (key : α → κ) (elems : List α) : Prop :=
  ∀ i a b, elems[i / 2]? = some a → elems[i + 1]? = some b → key a ≤ key b

/-- Heap algorithms, as far as the standard specifies them. -/
structure HeapAlgorithms (key : α → κ) where
  makeHeap : List α → List α
  pushHeap : List α → List α
  popHeap : List α → List α
  makeHeap_perm : ∀ c, (makeHeap c).Perm c
  makeHeap_isHeap : ∀ c, IsHeap key (makeHeap c)
  pushHeap_perm : ∀ c, (pushHeap c).Perm c
  /-- The last element is put in its place among the others. -/
  pushHeap_isHeap : ∀ c x, IsHeap key c → IsHeap key (pushHeap (c ++ [x]))
  /-- The front goes to the end, and the others are a heap. -/
  popHeap_spec : ∀ t c, IsHeap key (t :: c) →
    ∃ c', popHeap (t :: c) = c' ++ [t] ∧ c'.Perm c ∧ IsHeap key c'

variable {key : α → κ}

theorem isHeap_nil : IsHeap key [] := fun _ _ _ h => by simp at h

variable {c : List α}

/-- **The front has the smallest key.** -/
theorem IsHeap.head_le {t : α} (h : IsHeap key (t :: c)) : ∀ x ∈ t :: c, key t ≤ key x := by
  have hindex : ∀ (i : Nat) (x : α), (t :: c)[i]? = some x → key t ≤ key x := by
    intro i
    induction i using Nat.strongRecOn with
    | ind i ih =>
      intro x hx
      cases i with
      | zero =>
        cases hx
        exact le_rfl
      | succ i =>
        have hlt : i / 2 < (t :: c).length := by
          have hi := (List.getElem?_eq_some_iff.mp hx).1
          omega
        have hparent := List.getElem?_eq_getElem hlt
        exact (ih (i / 2) (by omega) _ hparent).trans (h i _ _ hparent hx)
  intro x hx
  obtain ⟨i, hi⟩ := List.mem_iff_getElem?.mp hx
  exact hindex i x hi

/-- A sorted list is a heap. -/
theorem isHeap_of_pairwise (h : c.Pairwise fun a b => key a ≤ key b) : IsHeap key c := by
  intro i a b ha hb
  obtain ⟨hi, rfl⟩ := List.getElem?_eq_some_iff.mp ha
  obtain ⟨hj, rfl⟩ := List.getElem?_eq_some_iff.mp hb
  exact List.pairwise_iff_getElem.mp h _ _ hi hj (by omega)

/-! ## The order of service -/

/-- The elements by their keys. -/
def ranked (key : α → κ) (c : List α) : List α := c.insertionSort fun a b => key a ≤ key b

theorem ranked_perm (c : List α) : (ranked key c).Perm c := List.perm_insertionSort _ c

@[simp] theorem mem_ranked {a : α} : a ∈ ranked key c ↔ a ∈ c :=
  (ranked_perm c).mem_iff

theorem ranked_pairwise (c : List α) : (ranked key c).Pairwise fun a b => key a ≤ key b := by
  have htotal : Std.Total fun a b : α => key a ≤ key b := ⟨fun a b => le_total (key a) (key b)⟩
  have htrans : IsTrans α fun a b => key a ≤ key b := ⟨fun _ _ _ => le_trans⟩
  exact List.pairwise_insertionSort _ c

/-- The only sorted arrangement of elements with distinct keys. -/
theorem eq_ranked {c l : List α} (hkeys : (c.map key).Nodup) (hperm : l.Perm c)
    (hl : l.Pairwise fun a b => key a ≤ key b) : l = ranked key c := by
  refine List.Perm.eq_of_pairwise ?_ hl (ranked_pairwise c) (hperm.trans (ranked_perm c).symm)
  intro a b ha hb hab hba
  exact List.inj_on_of_nodup_map hkeys (hperm.mem_iff.mp ha) (mem_ranked.mp hb)
    (le_antisymm hab hba)

theorem ranked_congr {c c' : List α} (hkeys : (c.map key).Nodup) (h : c'.Perm c) :
    ranked key c' = ranked key c :=
  eq_ranked hkeys ((ranked_perm c').trans h) (ranked_pairwise c')

theorem ranked_filter (hkeys : (c.map key).Nodup) (p : α → Bool) :
    ranked key (c.filter p) = (ranked key c).filter p :=
  (eq_ranked (hkeys.sublist (List.filter_sublist.map key)) ((ranked_perm c).filter p)
    ((ranked_pairwise c).filter p)).symm

namespace HeapAlgorithms

variable (h : HeapAlgorithms key)

/-! ## `std::priority_queue` -/

def push (c : List α) (x : α) : List α := h.pushHeap (c ++ [x])

def pop (c : List α) : List α := (h.popHeap c).dropLast

variable {h}

theorem push_perm (c : List α) (x : α) : (h.push c x).Perm (x :: c) :=
  (h.pushHeap_perm _).trans (List.perm_append_singleton x c)

variable {c : List α}

theorem pop_spec {t : α} (hc : IsHeap key (t :: c)) :
    (h.pop (t :: c)).Perm c ∧ IsHeap key (h.pop (t :: c)) := by
  obtain ⟨c', hpop, hperm, hheap⟩ := h.popHeap_spec t c hc
  rw [pop, hpop, List.dropLast_concat]
  exact ⟨hperm, hheap⟩

/-- **Taking the front** takes the first one in the order of service. -/
theorem ranked_pop {t : α} (hc : IsHeap key (t :: c)) (hkeys : ((t :: c).map key).Nodup) :
    ranked key (t :: c) = t :: ranked key (h.pop (t :: c)) := by
  have hpop := (pop_spec (h := h) hc).1
  refine (eq_ranked hkeys (((ranked_perm _).trans hpop).cons t) ?_).symm
  refine List.pairwise_cons.mpr ⟨fun x hx => ?_, ranked_pairwise _⟩
  exact hc.head_le x (List.mem_cons_of_mem t (hpop.mem_iff.mp (mem_ranked.mp hx)))

/-- **Adding an element** leaves the others in their order. -/
theorem ranked_push {x : α} (hkeys : ((x :: c).map key).Nodup) :
    ∃ earlier later, ranked key c = earlier ++ later ∧
      ranked key (h.push c x) = earlier ++ x :: later := by
  have hpush :
      ranked key (h.push c x) = (ranked key c).orderedInsert (fun a b => key a ≤ key b) x :=
    ranked_congr hkeys (push_perm c x)
  exact ⟨_, _, (List.takeWhile_append_dropWhile ..).symm,
    hpush.trans (List.orderedInsert_eq_take_drop _ x _)⟩

/-- **Removing elements and making a heap again** leaves the others in their order. -/
theorem ranked_reheap_filter (hkeys : (c.map key).Nodup) (p : α → Bool) :
    ranked key (h.makeHeap (c.filter p)) = (ranked key c).filter p :=
  (ranked_congr (hkeys.sublist (List.filter_sublist.map key)) (h.makeHeap_perm _)).trans
    (ranked_filter hkeys p)

end HeapAlgorithms

/-- Heaps that are kept sorted. -/
def HeapAlgorithms.sorting (key : α → κ) : HeapAlgorithms key where
  makeHeap := ranked key
  pushHeap := ranked key
  popHeap
    | [] => []
    | t :: c => ranked key c ++ [t]
  makeHeap_perm := ranked_perm
  makeHeap_isHeap c := isHeap_of_pairwise (ranked_pairwise c)
  pushHeap_perm := ranked_perm
  pushHeap_isHeap c x _ := isHeap_of_pairwise (ranked_pairwise (c ++ [x]))
  popHeap_spec _ c _ := ⟨_, rfl, ranked_perm c, isHeap_of_pairwise (ranked_pairwise c)⟩

end Libjingle.Lib
