import Mathlib.Order.Lattice
import Libjingle.Lib.Tables

/-!
# Maps that iterate in the order of their keys

`std::map` as a list of entries with ascending keys.
-/

namespace Libjingle.Lib

/-- `std::map`. -/
structure SortedMap (K V : Type) [LinearOrder K] where
  entries : List (K × V)
  sorted : (entries.map Prod.fst).Pairwise (· < ·)

namespace SortedMap

variable {K V : Type} [LinearOrder K]

theorem ext_entries {m m' : SortedMap K V} (h : m.entries = m'.entries) : m = m' := by
  cases m
  cases m'
  cases h
  rfl

instance [DecidableEq V] : DecidableEq (SortedMap K V) := fun a b =>
  decidable_of_iff (a.entries = b.entries)
    ⟨ext_entries, fun h => h ▸ rfl⟩

/-- The empty map. -/
def empty : SortedMap K V := ⟨[], List.Pairwise.nil⟩

/-- The value of a key. -/
def get? (m : SortedMap K V) (k : K) : Option V :=
  (m.entries.find? fun e => e.1 = k).map Prod.snd

/-- An entry is inserted or overwritten. -/
def setEntries (k : K) (v : V) : List (K × V) → List (K × V)
  | [] => [(k, v)]
  | (k', v') :: rest =>
    if k < k' then (k, v) :: (k', v') :: rest
    else if k = k' then (k, v) :: rest
    else (k', v') :: setEntries k v rest

variable {k : K} {v : V} {l : List (K × V)}

theorem mem_setEntries {x : K}
    (h : x ∈ (setEntries k v l).map Prod.fst) : x = k ∨ x ∈ l.map Prod.fst := by
  induction l with
  | nil => exact .inl (List.mem_singleton.mp h)
  | cons e rest ih =>
    obtain ⟨k', v'⟩ := e
    rw [setEntries] at h
    split at h
    · exact List.mem_cons.mp h
    · split at h
      · rcases List.mem_cons.mp h with h | h
        · exact .inl h
        · exact .inr (List.mem_cons_of_mem _ h)
      · rcases List.mem_cons.mp h with h | h
        · exact .inr (h ▸ List.mem_cons_self)
        · rcases ih h with h | h
          · exact .inl h
          · exact .inr (List.mem_cons_of_mem _ h)

theorem sorted_setEntries (k : K) (v : V) (h : (l.map Prod.fst).Pairwise (· < ·)) :
    ((setEntries k v l).map Prod.fst).Pairwise (· < ·) := by
  induction l with
  | nil => exact List.pairwise_singleton _ _
  | cons e rest ih =>
    obtain ⟨k', v'⟩ := e
    rw [List.map_cons, List.pairwise_cons] at h
    rw [setEntries]
    split
    · rename_i hlt
      refine List.pairwise_cons.mpr ⟨fun x hx => ?_, List.pairwise_cons.mpr h⟩
      rcases List.mem_cons.mp hx with rfl | hx
      · exact hlt
      · exact lt_trans hlt (h.1 x hx)
    · rename_i hnlt
      split
      · rename_i heq
        subst heq
        exact List.pairwise_cons.mpr h
      · rename_i hne
        have hgt : k' < k := lt_of_le_of_ne (not_lt.mp hnlt) (Ne.symm hne)
        refine List.pairwise_cons.mpr ⟨fun x hx => ?_, ih h.2⟩
        rcases mem_setEntries hx with rfl | hx
        · exact hgt
        · exact h.1 x hx

/-- `m[k] = v`. -/
def set (m : SortedMap K V) (k : K) (v : V) : SortedMap K V :=
  ⟨setEntries k v m.entries, sorted_setEntries k v m.sorted⟩

theorem find_setEntries (k : K) (v : V) (l : List (K × V)) :
    (setEntries k v l).find? (fun e => e.1 = k) = some (k, v) := by
  induction l with
  | nil => simp [setEntries]
  | cons e rest ih =>
    obtain ⟨k', v'⟩ := e
    rw [setEntries]
    split
    · simp
    · split
      · simp
      · rename_i hne
        rw [List.find?_cons, decide_eq_false (Ne.symm hne)]
        exact ih

/-- The value written is read. -/
theorem get?_set (m : SortedMap K V) (k : K) (v : V) : (m.set k v).get? k = some v := by
  rw [get?, set, find_setEntries]
  rfl

theorem find_setEntries_of_ne {k k' : K} (h : k' ≠ k) (v : V) (l : List (K × V)) :
    (setEntries k v l).find? (fun e => e.1 = k') = l.find? fun e => e.1 = k' := by
  induction l with
  | nil => simp [setEntries, Ne.symm h]
  | cons e rest ih =>
    obtain ⟨key, value⟩ := e
    rw [setEntries]
    split
    · rw [List.find?_cons, decide_eq_false (Ne.symm h)]
    · split
      · rename_i heq
        subst heq
        simp [Ne.symm h]
      · by_cases hkey : key = k'
        · simp [hkey]
        · rw [List.find?_cons, List.find?_cons, decide_eq_false hkey]
          exact ih

/-- The other values stay. -/
theorem get?_set_of_ne (m : SortedMap K V) {k k' : K} (h : k' ≠ k) (v : V) :
    (m.set k v).get? k' = m.get? k' := by
  rw [get?, set, find_setEntries_of_ne h]
  rfl

@[simp] theorem get?_empty (k : K) : (empty : SortedMap K V).get? k = none := rfl

variable {m : SortedMap K V}

theorem mem_entries_iff : (k, v) ∈ m.entries ↔ m.get? k = some v := by
  obtain ⟨l, hsorted⟩ := m
  have hnodup : (l.map Prod.fst).Nodup := hsorted.imp fun hlt => ne_of_lt hlt
  exact (tableOf_eq_some_iff hnodup).symm

/-- Entries are written one after another. -/
def setAll (m : SortedMap K V) (l : List (K × V)) : SortedMap K V :=
  l.foldl (fun m e => m.set e.1 e.2) m

theorem setEntries_last (h : ∀ x ∈ l.map Prod.fst, x < k) : setEntries k v l = l ++ [(k, v)] := by
  induction l with
  | nil => rfl
  | cons e rest ih =>
    obtain ⟨k', v'⟩ := e
    have hlt : k' < k := h k' List.mem_cons_self
    rw [setEntries, if_neg (lt_asymm hlt), if_neg (ne_of_gt hlt), List.cons_append]
    rw [ih fun x hx => h x (List.mem_cons_of_mem _ hx)]

theorem setAll_entries (h : ((m.entries ++ l).map Prod.fst).Pairwise (· < ·)) :
    (m.setAll l).entries = m.entries ++ l := by
  induction l generalizing m with
  | nil => exact (List.append_nil _).symm
  | cons e l ih =>
    obtain ⟨k, v⟩ := e
    have hbelow : ∀ x ∈ m.entries.map Prod.fst, x < k := by
      rw [List.map_append, List.map_cons] at h
      intro x hx
      exact (List.pairwise_append.mp h).2.2 x hx k List.mem_cons_self
    have hset : (m.set k v).entries = m.entries ++ [(k, v)] := setEntries_last hbelow
    have hstep : m.setAll ((k, v) :: l) = (m.set k v).setAll l := rfl
    rw [hstep, ih (by rw [hset, List.append_assoc]; exact h), hset, List.append_assoc]
    rfl

theorem mem_setAll {x : K} (h : x ∈ (m.setAll l).entries.map Prod.fst) :
    x ∈ m.entries.map Prod.fst ∨ x ∈ l.map Prod.fst := by
  induction l generalizing m with
  | nil => exact .inl h
  | cons e l ih =>
    rcases ih h with h | h
    · rcases mem_setEntries h with rfl | h
      · exact .inr List.mem_cons_self
      · exact .inl h
    · exact .inr (List.mem_cons_of_mem _ h)

/-- Every value is replaced. -/
def mapValues {W : Type} (f : K → V → W) (m : SortedMap K V) : SortedMap K W :=
  ⟨m.entries.map fun e => (e.1, f e.1 e.2), by rw [List.map_map]; exact m.sorted⟩

theorem mem_mapValues {W : Type} {f : K → V → W} {w : W}
    (h : (k, w) ∈ (m.mapValues f).entries) : ∃ v, m.get? k = some v ∧ f k v = w := by
  obtain ⟨e, he, heq⟩ := List.mem_map.mp h
  cases heq
  exact ⟨e.2, mem_entries_iff.mp he, rfl⟩

/-- The entries that satisfy a condition. -/
def filter (p : K → Bool) (m : SortedMap K V) : SortedMap K V :=
  empty.setAll (m.entries.filter fun e => p e.1)

theorem entries_filter (p : K → Bool) (m : SortedMap K V) :
    (m.filter p).entries = m.entries.filter fun e => p e.1 :=
  setAll_entries (m.sorted.sublist (List.filter_sublist.map Prod.fst))

def erase (m : SortedMap K V) (k : K) : SortedMap K V := m.filter fun k' => k' ≠ k

theorem get?_filter (p : K → Bool) (m : SortedMap K V) (k : K) :
    (m.filter p).get? k = if p k = true then m.get? k else none := by
  have hmem : ∀ v, (m.filter p).get? k = some v ↔ p k = true ∧ m.get? k = some v := by
    intro v
    rw [← mem_entries_iff, ← mem_entries_iff, entries_filter, List.mem_filter, and_comm]
  by_cases hp : p k = true
  · rw [if_pos hp]
    ext v
    exact (hmem v).trans (and_iff_right hp)
  · rw [if_neg hp]
    refine Option.eq_none_iff_forall_ne_some.mpr fun v hv => ?_
    exact hp ((hmem v).mp hv).1

theorem get?_erase (m : SortedMap K V) (k k' : K) :
    (m.erase k).get? k' = if k' = k then none else m.get? k' := by
  rw [erase, get?_filter]
  by_cases h : k' = k
  · simp [h]
  · simp [h]

end SortedMap

end Libjingle.Lib
