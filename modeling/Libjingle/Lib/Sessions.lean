import Libjingle.Lib.History

/-!
# Calls and replies

A component answers calls one after the other. What it may answer is a relation on states of its
own: the state before, the call, the reply and the state after.

* **`follows_of_step`**: a component whose steps follow the specification does so in every run whose
  steps are admissible.
-/

namespace Libjingle.Lib

variable {σ τ ι β : Type*}

/-- The replies to some calls, and the state that they leave. -/
def replies (step : σ → ι → β × σ) : σ → List ι → List β × σ
  | s, [] => ([], s)
  | s, call :: calls =>
    ((step s call).1 :: (replies step (step s call).2 calls).1,
      (replies step (step s call).2 calls).2)

/-- Replies to some calls that a specification allows. -/
def Follows (spec : τ → ι → β → τ → Prop) : τ → List ι → List β → τ → Prop
  | q, [], [], q' => q' = q
  | q, call :: calls, reply :: rest, q' =>
    ∃ q₁, spec q call reply q₁ ∧ Follows spec q₁ calls rest q'
  | _, _, _, _ => False

/-- **A component whose steps follow a specification follows it in every run.** -/
theorem follows_of_step {step : σ → ι → β × σ} {spec : τ → ι → β → τ → Prop} {R : σ → τ → Prop}
    {admissible : σ → ι → Prop}
    (hstep : ∀ s q call, R s q → admissible s call →
      ∃ q', spec q call (step s call).1 q' ∧ R (step s call).2 q')
    {s : σ} {q : τ} {calls : List ι} (h : R s q)
    (hcalls : Along (fun s call => (step s call).2) admissible s calls) :
    ∃ q', Follows spec q calls (replies step s calls).1 q' ∧ R (replies step s calls).2 q' := by
  induction calls generalizing s q with
  | nil => exact ⟨q, rfl, h⟩
  | cons call calls ih =>
    obtain ⟨q₁, hspec, h₁⟩ := hstep s q call h hcalls.1
    obtain ⟨q', hrest, h'⟩ := ih h₁ hcalls.2
    exact ⟨q', ⟨q₁, hspec, hrest⟩, h'⟩

end Libjingle.Lib
