import Mathlib.Data.List.Basic

/-!
# Properties of runs with a history

A run as the list of its steps, each with the state before and the state after it. What has happened
so far is accumulated beside the states, from which it need not be readable.
-/

namespace Libjingle.Lib

variable {α σ η : Type*}

/-- The steps of a list follow each other, from a state. -/
def IsRun (source target : α → σ) : σ → List α → Prop
  | _, [] => True
  | s, a :: l => source a = s ∧ IsRun source target (target a) l

/-- Every step has a property, with the history that has accumulated before it. -/
def Along (next : η → α → η) (P : η → α → Prop) : η → List α → Prop
  | _, [] => True
  | h, a :: l => P h a ∧ Along next P (next h a) l

variable {source target : α → σ} {next : η → α → η} {P Q : η → α → Prop} {I : η → σ → Prop}

theorem along_true (h : η) (l : List α) : Along next (fun _ _ => True) h l := by
  induction l generalizing h with
  | nil => trivial
  | cons a l ih => exact ⟨trivial, ih (next h a)⟩

instance decidableAlong [∀ h a, Decidable (P h a)] : ∀ h l, Decidable (Along next P h l)
  | _, [] => instDecidableTrue
  | h, a :: l =>
    have := decidableAlong (next h a) l
    inferInstanceAs (Decidable (P h a ∧ Along next P (next h a) l))

variable {l : List α} {h : η}

/-- What every step keeps and draws from an invariant holds along the run. -/
theorem along_of_run {s : σ} (hrun : IsRun source target s l) (hinv : I h s)
    (hstep : ∀ h, ∀ a ∈ l, I h (source a) → Q h a → P h a ∧ I (next h a) (target a))
    (hQ : Along next Q h l) : Along next P h l := by
  induction l generalizing s h with
  | nil => trivial
  | cons a l ih =>
    obtain ⟨rfl, hrun⟩ := hrun
    obtain ⟨hP, hnext⟩ := hstep h a List.mem_cons_self hinv hQ.1
    exact ⟨hP, ih hrun hnext (fun h b hb => hstep h b (List.mem_cons_of_mem a hb)) hQ.2⟩

/-- What every step keeps and draws from an invariant of the history holds along the list. -/
theorem along_of_invariant {I : η → Prop} (hinv : I h)
    (hstep : ∀ h, ∀ a ∈ l, I h → Q h a → P h a ∧ I (next h a)) (hQ : Along next Q h l) :
    Along next P h l := by
  induction l generalizing h with
  | nil => trivial
  | cons a l ih =>
    obtain ⟨hP, hnext⟩ := hstep h a List.mem_cons_self hinv hQ.1
    exact ⟨hP, ih hnext (fun h b hb => hstep h b (List.mem_cons_of_mem a hb)) hQ.2⟩

/-- Two properties agree along a list when each step at which they hold relates their histories. -/
theorem along_iff {η' : Type*} {next' : η' → α → η'} {Q : η' → α → Prop} {R : η → η' → Prop}
    {g : η'} (hR : R h g)
    (hstep : ∀ h g, ∀ a ∈ l, R h g → (P h a ↔ Q g a) ∧ (P h a → R (next h a) (next' g a))) :
    Along next P h l ↔ Along next' Q g l := by
  induction l generalizing h g with
  | nil => exact Iff.rfl
  | cons a l ih =>
    obtain ⟨hPQ, hnext⟩ := hstep h g a List.mem_cons_self hR
    rw [Along, Along, ← hPQ]
    exact and_congr_right fun hP =>
      ih (hnext hP) fun h g b hb => hstep h g b (List.mem_cons_of_mem a hb)

/-- A property of the elements alone can be told apart. -/
theorem along_and_forall {N : α → Prop} :
    Along next (fun h a => P h a ∧ N a) h l ↔ Along next P h l ∧ ∀ a ∈ l, N a := by
  induction l generalizing h with
  | nil => exact iff_of_true trivial ⟨trivial, List.forall_mem_nil N⟩
  | cons a l ih =>
    rw [Along, Along, ih, List.forall_mem_cons]
    exact and_and_and_comm

end Libjingle.Lib
