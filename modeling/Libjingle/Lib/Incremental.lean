import Mathlib.Data.List.Basic
import Mathlib.Order.Basic

/-!
# Machines that consume a stream

A machine takes something off the front of what it has been given, or waits for more. What it waits
for stays in front of what comes next.

* `logged`: a machine with a log of its steps. `logged_coherent`: the log does not depend on the cut
  either, when what two steps log is what one step that leads as far logs.
-/

namespace Libjingle.Lib

variable {σ β : Type*}

/-- A machine, with a weight that decreases in steps that take nothing. -/
structure Machine (σ β : Type*) where
  next : σ → List β → Option (σ × List β)
  weight : σ → Nat
  decreases : ∀ {s a s' r}, next s a = some (s', r) →
    r.length < a.length ∨ (r.length = a.length ∧ weight s' < weight s)

namespace Machine

variable (m : Machine σ β)

/-- The state after as many steps as possible, and what is left. -/
def run (s : σ) (a : List β) : σ × List β :=
  match _h : m.next s a with
  | none => (s, a)
  | some (s', r) => run s' r
termination_by (a.length, m.weight s)
decreasing_by
  rcases m.decreases _h with hlt | ⟨heq, hlt⟩
  · exact Prod.Lex.left _ _ hlt
  · rw [heq]
    exact Prod.Lex.right _ hlt

variable {m}

variable {s : σ}

theorem run_none {a : List β} (h : m.next s a = none) : m.run s a = (s, a) := by
  rw [run]
  split
  · rfl
  · rename_i heq
    rw [h] at heq
    cases heq

theorem run_some {s s' : σ} {a r : List β} (h : m.next s a = some (s', r)) :
    m.run s a = m.run s' r := by
  rw [run]
  split
  · rename_i heq
    rw [h] at heq
    cases heq
  · rename_i heq
    rw [h] at heq
    cases heq
    rfl

variable (m)

/-- Up to a number of steps. -/
def steps : Nat → σ × List β → σ × List β
  | 0, p => p
  | n + 1, p => (m.next p.1 p.2).elim p (steps n)

variable {m}

/-- A run can be evaluated with as many steps as it takes. -/
theorem run_eq_steps {n : Nat} {p : σ × List β}
    (h : m.next (m.steps n p).1 (m.steps n p).2 = none) : m.run p.1 p.2 = m.steps n p := by
  induction n generalizing p with
  | zero => exact run_none h
  | succ n ih =>
    rw [steps] at h ⊢
    cases hnext : m.next p.1 p.2 with
    | none => exact run_none hnext
    | some q =>
      rw [hnext] at h
      rw [run_some hnext, Option.elim_some]
      exact ih h

variable (m)

/-- A step leads to the same result when more has arrived. -/
def Coherent : Prop :=
  ∀ s a s' r b, m.next s a = some (s', r) → m.run s (a ++ b) = m.run s' (r ++ b)

/-- What is left is waited for. -/
theorem next_run (s : σ) (a : List β) : m.next (m.run s a).1 (m.run s a).2 = none := by
  induction s, a using run.induct m with
  | case1 s a h =>
    rw [run_none h]
    exact h
  | case2 s a s' r h ih =>
    rw [run_some h]
    exact ih

variable {m}

/-- **Two pieces one after the other** are as good as both at once. -/
theorem run_append (hm : m.Coherent) (s : σ) (a b : List β) :
    m.run s (a ++ b) = m.run (m.run s a).1 ((m.run s a).2 ++ b) := by
  induction s, a using run.induct m with
  | case1 s a h => rw [run_none h]
  | case2 s a s' r h ih => rw [hm s a s' r b h, ih, run_some h]

variable (m)

/-- Another piece arrives behind what is left. -/
def feed (p : σ × List β) (piece : List β) : σ × List β := m.run p.1 (p.2 ++ piece)

variable {m}

/-- **The cut of the stream does not matter.** -/
theorem feed_pieces (hm : m.Coherent) {a : List β} (h : m.next s a = none)
    (pieces : List (List β)) : pieces.foldl m.feed (s, a) = m.run s (a ++ pieces.flatten) := by
  induction pieces generalizing s a with
  | nil => rw [List.flatten_nil, List.append_nil, run_none h, List.foldl_nil]
  | cons p pieces ih =>
    rw [List.foldl_cons, List.flatten_cons, ← List.append_assoc, run_append hm s (a ++ p)]
    exact ih (m.next_run s (a ++ p))

/-! ## Steps when more has arrived -/

variable (m)

/-- When more has arrived a step leads to the same state, or to where it leads with the one behind
it. -/
def Joins (good : σ → σ → σ → Prop) : Prop :=
  ∀ s a s' r b, m.next s a = some (s', r) → m.next s (a ++ b) = some (s', r ++ b) ∨
    ∃ q, m.next s (a ++ b) = some q ∧ m.next s' (r ++ b) = some q ∧ good s s' q.1

variable {m}

theorem Joins.coherent {good : σ → σ → σ → Prop} (h : m.Joins good) : m.Coherent := by
  intro s a s' r b hnext
  rcases h s a s' r b hnext with hsame | ⟨q, hboth, hsecond, -⟩
  · exact run_some hsame
  · rw [run_some hboth, run_some hsecond]

/-! ## Logs -/

variable {ε : Type*} (m) (event : σ → σ → List ε)

/-- The machine with a log of what its steps do. -/
def logged : Machine (σ × List ε) β where
  next s a := (m.next s.1 a).map fun p => ((p.1, s.2 ++ event s.1 p.1), p.2)
  weight s := m.weight s.1
  decreases h := by
    obtain ⟨⟨s', r⟩, hnext, heq⟩ := Option.map_eq_some_iff.mp h
    cases heq
    exact m.decreases hnext

variable {m event}

theorem logged_next {s s' : σ} {a r : List β} (h : m.next s a = some (s', r)) (log : List ε) :
    (m.logged event).next (s, log) a = some ((s', log ++ event s s'), r) :=
  congrArg (Option.map _) h

theorem logged_none {a : List β} (h : m.next s a = none) (log : List ε) :
    (m.logged event).next (s, log) a = none :=
  congrArg (Option.map _) h

/-- **The log does not depend on the cut**, when two steps log what one does. -/
theorem logged_coherent
    (h : m.Joins fun s s' q => event s q = event s s' ++ event s' q) :
    (m.logged event).Coherent := by
  rintro ⟨s, log⟩ a _ _ b hnext
  obtain ⟨⟨s', r⟩, hstep, heq⟩ := Option.map_eq_some_iff.mp hnext
  cases heq
  rcases h s a s' r b hstep with hsame | ⟨q, hboth, hsecond, hevent⟩
  · exact run_some (logged_next hsame log)
  · rw [run_some (logged_next hboth log), run_some (logged_next hsecond _), hevent,
      List.append_assoc]

/-- A log is only added to. -/
theorem log_prefix (s : σ × List ε) (a : List β) : s.2 <+: ((m.logged event).run s a).1.2 := by
  induction s, a using run.induct (m.logged event) with
  | case1 s a h => exact ⟨[], by rw [run_none h, List.append_nil]⟩
  | case2 s a s' r h ih =>
    obtain ⟨q, -, heq⟩ := Option.map_eq_some_iff.mp h
    have hlog : s.2 ++ event s.1 q.1 = s'.2 := congrArg (fun p => p.1.2) heq
    have hgrows : s.2 <+: s'.2 := hlog ▸ List.prefix_append _ _
    rw [run_some h]
    exact hgrows.trans ih

/-! ## Machines in each other's place -/

section Agreement

variable {κ : Type*} (m) (others : κ → Machine σ β) (invariant : σ → List β → Prop)
  (hstep : ∀ s a s' r future, invariant s (a ++ future) → m.next s a = some (s', r) →
    invariant s' (r ++ future))
  (hagree : ∀ k s a future, invariant s (a ++ future) → (others k).next s a = m.next s a)

include hstep hagree in
theorem run_agree (k : κ) (s : σ) (a : List β) {future : List β} (h : invariant s (a ++ future)) :
    (others k).run s a = m.run s a ∧ invariant (m.run s a).1 ((m.run s a).2 ++ future) := by
  induction s, a using run.induct m with
  | case1 s a hnext =>
    rw [run_none hnext, run_none ((hagree k s a future h).trans hnext)]
    exact ⟨rfl, h⟩
  | case2 s a s' r hnext ih =>
    rw [run_some hnext, run_some ((hagree k s a future h).trans hnext)]
    exact ih (hstep s a s' r future h hnext)

include hstep hagree in
/-- **Machines that agree with one as long as an invariant holds** can take its place. -/
theorem feeds_agree (calls : List (List β × κ)) {s : σ} {a : List β}
    (h : invariant s (a ++ (calls.map Prod.fst).flatten)) :
    calls.foldl (fun p call => (others call.2).feed p call.1) (s, a) =
      (calls.map Prod.fst).foldl m.feed (s, a) := by
  induction calls generalizing s a with
  | nil => rfl
  | cons call calls ih =>
    rw [List.map_cons, List.flatten_cons, ← List.append_assoc] at h
    obtain ⟨heq, hafter⟩ := run_agree m others invariant hstep hagree call.2 s (a ++ call.1) h
    rw [List.foldl_cons, List.map_cons, List.foldl_cons]
    have hfeed : (others call.2).feed (s, a) call.1 = m.feed (s, a) call.1 := heq
    rw [hfeed]
    exact ih hafter

end Agreement

end Machine

end Libjingle.Lib
