import Mathlib.Data.List.Nodup

/-!
# Tables that are filled by keys and cleaned by values

A table follows a list of entries: entries whose key is unknown are added, and then those are
dropped whose value is not kept. An entry whose value changes under the same key is not noticed.

* **`follows_iff`**: when a table that was one list of entries becomes another one.
-/

namespace Libjingle.Lib

variable {K V : Type*} [DecidableEq K]

/-- The table of a list of entries. -/
def tableOf (l : List (K × V)) (k : K) : Option V := (l.find? fun e => e.1 = k).map Prod.snd

/-- Entries with an unknown key are added. -/
def fill (m : K → Option V) (l : List (K × V)) (k : K) : Option V := (m k).or (tableOf l k)

/-- Values that are not kept are dropped. -/
def clean (keep : V → Bool) (m : K → Option V) (k : K) : Option V := (m k).filter keep

/-- One entry is added. -/
def addMissing (m : K → Option V) (k : K) (v : V) : K → Option V :=
  if (m k).isSome then m else Function.update m k (some v)

/-! ## Entries -/

@[simp] theorem tableOf_nil (k : K) : tableOf ([] : List (K × V)) k = none := rfl

theorem tableOf_cons (e : K × V) (l : List (K × V)) (k : K) :
    tableOf (e :: l) k = if e.1 = k then some e.2 else tableOf l k := by
  rw [tableOf, List.find?_cons]
  by_cases h : e.1 = k
  · simp [h]
  · simp [h, tableOf]

variable {l : List (K × V)} {k : K}

theorem mem_of_tableOf {v : V} (h : tableOf l k = some v) : (k, v) ∈ l := by
  obtain ⟨e, he, rfl⟩ := Option.map_eq_some_iff.mp h
  have hkey : e.1 = k := by simpa using List.find?_some he
  exact hkey ▸ List.mem_of_find?_eq_some he

theorem tableOf_eq_some_iff (hnodup : (l.map Prod.fst).Nodup) {v : V} :
    tableOf l k = some v ↔ (k, v) ∈ l := by
  refine ⟨mem_of_tableOf, fun h => ?_⟩
  induction l with
  | nil => cases h
  | cons e l ih =>
    obtain ⟨hnot, hnodup⟩ := List.nodup_cons.mp hnodup
    rw [tableOf_cons]
    rcases List.mem_cons.mp h with rfl | h
    · exact if_pos rfl
    · have hne : e.1 ≠ k := fun heq => hnot (heq ▸ List.mem_map_of_mem h)
      rw [if_neg hne]
      exact ih hnodup h

theorem tableOf_eq_none_iff : tableOf l k = none ↔ k ∉ l.map Prod.fst := by
  rw [tableOf, Option.map_eq_none_iff, List.find?_eq_none]
  simp only [decide_eq_true_eq, List.mem_map, not_exists, not_and]

/-! ## Filling -/

@[simp] theorem fill_nil (m : K → Option V) : fill m [] = m := by
  funext k
  simp [fill]

/-- Entries can be added one after another. -/
theorem fill_cons (m : K → Option V) (e : K × V) (l : List (K × V)) :
    fill m (e :: l) = fill (addMissing m e.1 e.2) l := by
  funext k
  rw [fill, fill, tableOf_cons, addMissing]
  by_cases hsome : (m e.1).isSome = true
  · rw [if_pos hsome]
    by_cases hk : e.1 = k
    · subst hk
      obtain ⟨v, hv⟩ := Option.isSome_iff_exists.mp hsome
      simp [hv]
    · rw [if_neg hk]
  · rw [if_neg hsome]
    by_cases hk : e.1 = k
    · subst hk
      simp [Option.not_isSome_iff_eq_none.mp hsome]
    · rw [if_neg hk, Function.update_of_ne (Ne.symm hk)]

/-! ## Following a list -/

/-- **When a table follows**: each new entry is kept and has the value of the old one with its key,
and no old entry whose key is gone is kept. -/
theorem follows_iff {old new : List (K × V)} (hold : (old.map Prod.fst).Nodup)
    (hnew : (new.map Prod.fst).Nodup) (keep : V → Bool) :
    clean keep (fill (tableOf old) new) = tableOf new ↔
      (∀ e ∈ new, keep e.2 = true ∧ ∀ v, (e.1, v) ∈ old → v = e.2) ∧
        ∀ e ∈ old, e.1 ∉ new.map Prod.fst → keep e.2 = false := by
  constructor
  · intro h
    refine ⟨fun e he => ?_, fun e he hgone => ?_⟩
    · have hk := congrFun h e.1
      rw [(tableOf_eq_some_iff hnew).mpr he, clean, Option.filter_eq_some_iff] at hk
      refine ⟨hk.2, fun v hv => ?_⟩
      have hfill := hk.1
      rw [fill, (tableOf_eq_some_iff hold).mpr hv, Option.some_or] at hfill
      exact Option.some.inj hfill
    · have hk := congrFun h e.1
      rw [tableOf_eq_none_iff.mpr hgone, clean, fill, (tableOf_eq_some_iff hold).mpr he,
        Option.some_or] at hk
      exact Bool.eq_false_iff.mpr fun hkeep => Option.some_ne_none _
        ((Option.filter_eq_some_iff.mpr ⟨rfl, hkeep⟩).symm.trans hk)
  · rintro ⟨hkept, hdropped⟩
    funext k
    rw [clean]
    cases hk : tableOf new k with
    | some v =>
      have hmem := mem_of_tableOf hk
      obtain ⟨hkeep, hsame⟩ := hkept _ hmem
      refine Option.filter_eq_some_iff.mpr ⟨?_, hkeep⟩
      rw [fill, hk]
      cases hprev : tableOf old k with
      | none => rfl
      | some w =>
        rw [Option.some_or, hsame w (mem_of_tableOf hprev)]
    | none =>
      rw [fill, hk, Option.or_none]
      cases hprev : tableOf old k with
      | none => rfl
      | some w =>
        have hgone := hdropped _ (mem_of_tableOf hprev) (tableOf_eq_none_iff.mp hk)
        rw [Option.filter_eq_none_iff]
        rintro x hx hkeep
        obtain rfl := Option.some.inj hx
        rw [hgone] at hkeep
        cases hkeep

end Libjingle.Lib
