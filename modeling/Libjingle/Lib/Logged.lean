/-!
# Programs with a log

A `Logged ε η β` leaves a log of events and returns a `β`, or it stops for some reason. It is
compared with a program that has no log and does the same work.
-/

namespace Libjingle.Lib

/-- A program that leaves a log of events of `ε` and may stop for a reason of `η`. -/
structure Logged (ε η β : Type) where
  log : List ε
  result : Except η β

namespace Logged

variable {ε η η' α β γ δ : Type}

instance : Monad (Logged ε η) where
  pure b := ⟨[], .ok b⟩
  bind m f :=
    match m.result with
    | .ok b => ⟨m.log ++ (f b).log, (f b).result⟩
    | .error e => ⟨m.log, .error e⟩

/-- An event. -/
def emit (e : ε) : Logged ε η Unit := ⟨[e], .ok ()⟩

/-- The program stops. -/
def stop (e : η) : Logged ε η β := ⟨[], .error e⟩

/-- A program without a log. -/
def ofExcept (failure : η' → η) (v : Except η' β) : Logged ε η β :=
  ⟨[], match v with
    | .ok b => .ok b
    | .error e => .error (failure e)⟩

/-- Some reasons to stop are results. -/
def recover (m : Logged ε η β) (f : η → Except η β) : Logged ε η β :=
  ⟨m.log, match m.result with
    | .ok b => .ok b
    | .error e => f e⟩

variable {f : β → Logged ε η γ}

theorem bind_of_ok {m : Logged ε η β} {b : β} (h : m.result = .ok b) :
    m >>= f = ⟨m.log ++ (f b).log, (f b).result⟩ := by
  change (match m.result with
    | .ok b => (⟨m.log ++ (f b).log, (f b).result⟩ : Logged ε η γ)
    | .error e => ⟨m.log, .error e⟩) = _
  rw [h]

theorem bind_of_error {m : Logged ε η β} {e : η} (h : m.result = .error e) :
    m >>= f = ⟨m.log, .error e⟩ := by
  change (match m.result with
    | .ok b => (⟨m.log ++ (f b).log, (f b).result⟩ : Logged ε η γ)
    | .error e => ⟨m.log, .error e⟩) = _
  rw [h]

/-! ## Simulation -/

/-- Which events are good, how a program crashes, and how it stops where the other one fails. -/
structure Terms (ε η η' : Type) where
  good : ε → Prop
  crash : η
  failure : η' → η

/-- A result that is as the one it is compared with. -/
inductive Corresponds (t : Terms ε η η') (R : β → γ → Prop) : Except η β → Except η' γ → Prop where
  | failure (e : η') : Corresponds t R (.error (t.failure e)) (.error e)
  | ok {b : β} {c : γ} (h : R b c) : Corresponds t R (.ok b) (.ok c)

/-- Under a condition the program does what another one without a log does, and only good events
are in its log. Otherwise a bad one is, and it crashes. -/
structure Simulates (t : Terms ε η η') (P : Prop) (m : Logged ε η β) (v : Except η' γ)
    (R : β → γ → Prop) : Prop where
  good : P → ∀ e ∈ m.log, t.good e
  result : P → Corresponds t R m.result v
  bad : ¬P → ∃ e ∈ m.log, ¬t.good e
  crash : ¬P → m.result = .error t.crash

namespace Simulates

variable {t : Terms ε η η'} {P Q : Prop} {m : Logged ε η β} {v : Except η' γ} {R : β → γ → Prop}

theorem of_log_nil (hlog : m.log = []) (h : Corresponds t R m.result v) :
    Simulates t True m v R where
  good _ := by
    rw [hlog]
    exact List.forall_mem_nil _
  result _ := h
  bad hP := absurd trivial hP
  crash hP := absurd trivial hP

theorem pure {b : β} {c : γ} (h : R b c) :
    Simulates t True (Pure.pure b : Logged ε η β) (.ok c) R :=
  of_log_nil rfl (.ok h)

theorem failure (e : η') : Simulates t True (stop (t.failure e) : Logged ε η β) (.error e) R :=
  of_log_nil rfl (.failure e)

theorem ofExcept {v : Except η' β} {R : β → β → Prop} (h : ∀ b, R b b) :
    Simulates t True (Logged.ofExcept t.failure v) v R := by
  refine of_log_nil rfl ?_
  cases v with
  | ok b => exact .ok (h b)
  | error e => exact .failure e

variable {e : ε}

theorem emit (h : t.good e) :
    Simulates t True (Logged.emit e : Logged ε η Unit) (.ok ()) fun _ (_ : Unit) => True where
  good _ := List.forall_mem_singleton.mpr h
  result _ := .ok trivial
  bad hP := absurd trivial hP
  crash hP := absurd trivial hP

/-- The result of the other program is known to be its result. -/
theorem and_ok (h : Simulates t P m v R) :
    Simulates t P m v fun b c => R b c ∧ v = .ok c where
  good := h.good
  result hP := by
    have hresult := h.result hP
    generalize m.result = r at hresult
    cases hresult with
    | failure e => exact .failure e
    | ok hR => exact .ok ⟨hR, rfl⟩
  bad := h.bad
  crash := h.crash

theorem congr (h : Simulates t P m v R) (hPQ : P ↔ Q) : Simulates t Q m v R :=
  propext hPQ ▸ h

variable {f : β → Logged ε η α}

theorem mem_log_bind (he : e ∈ m.log) : e ∈ (m >>= f).log := by
  cases hr : m.result with
  | error e' => rwa [bind_of_error hr]
  | ok b =>
    rw [bind_of_ok hr]
    exact List.mem_append_left _ he

variable {w : Except η' δ} {S : α → δ → Prop}

/-- Behind a crash nothing happens. -/
theorem crash_bind (hm : Simulates t False m v R) : Simulates t False (m >>= f) w S where
  good hP := hP.elim
  result hP := hP.elim
  bad hP := by
    obtain ⟨e, he, hbad⟩ := hm.bad hP
    exact ⟨e, mem_log_bind he, hbad⟩
  crash hP := by rw [bind_of_error (hm.crash hP)]

variable {g : γ → Except η' δ}

/-- **A sequence does what a sequence does, when its parts do.** -/
theorem bind (hm : Simulates t P m v R) (Q : γ → Prop)
    (hf : ∀ b c, R b c → Simulates t (Q c) (f b) (g c) S) :
    Simulates t (P ∧ ∀ c, v = .ok c → Q c) (m >>= f) (v >>= g) S := by
  by_cases hP : P
  · have hresult := hm.result hP
    generalize hr : m.result = r at hresult
    cases hresult with
    | failure e =>
      rw [bind_of_error hr]
      have hall : P ∧ ∀ c, (Except.error e : Except η' γ) = .ok c → Q c := ⟨hP, nofun⟩
      exact ⟨fun _ => hm.good hP, fun _ => .failure e, fun h => absurd hall h,
        fun h => absurd hall h⟩
    | @ok b c hR =>
      rw [bind_of_ok hr]
      have hnext := hf b c hR
      have hall : (P ∧ ∀ c', (Except.ok c : Except η' γ) = .ok c' → Q c') ↔ Q c :=
        ⟨fun h => h.2 c rfl, fun h => ⟨hP, fun c' hc => Except.ok.inj hc ▸ h⟩⟩
      rw [hall]
      refine ⟨fun hQ => ?_, hnext.result, fun hQ => ?_, hnext.crash⟩
      · exact List.forall_mem_append.mpr ⟨hm.good hP, hnext.good hQ⟩
      · obtain ⟨e, he, hbad⟩ := hnext.bad hQ
        exact ⟨e, List.mem_append_right _ he, hbad⟩
  · have hfalse : P ↔ False := iff_false_intro hP
    exact (crash_bind (hm.congr hfalse)).congr ⟨False.elim, fun h => hP h.1⟩

/-- A sequence of parts that never crash. -/
theorem seq (hm : Simulates t True m v R) (hf : ∀ b c, R b c → Simulates t True (f b) (g c) S) :
    Simulates t True (m >>= f) (v >>= g) S :=
  (bind hm (fun _ => True) hf).congr ⟨fun _ => trivial, fun _ => ⟨trivial, fun _ _ => trivial⟩⟩

/-- The first part computes a value that the other program has at hand. -/
theorem value {c : γ} (hm : Simulates t P m (.ok c) R) (hf : ∀ b, R b c → Simulates t Q (f b) w S) :
    Simulates t (P ∧ Q) (m >>= f) w S := by
  have hall := bind (g := fun _ => w) hm.and_ok (fun _ => Q) fun b c' h =>
    hf b (Except.ok.inj h.2 ▸ h.1)
  refine hall.congr (and_congr_right fun _ => ?_)
  exact ⟨fun hQ => hQ c rfl, fun hQ _ _ => hQ⟩

/-- The first part computes a value, and never crashes. -/
theorem step {f : β → Logged ε η α} {c : γ} {w : Except η' δ} {S : α → δ → Prop}
    (hm : Simulates t True m (.ok c) R) (hf : ∀ b, R b c → Simulates t Q (f b) w S) :
    Simulates t Q (m >>= f) w S :=
  (value hm hf).congr (Iff.of_eq (true_and Q))

/-- What a result becomes. -/
theorem map {v : Except η' β} (hm : Simulates t True m v Eq) (f : β → α) :
    Simulates t True (m >>= fun b => Pure.pure (f b)) (v >>= fun b => Pure.pure (f b)) Eq := by
  refine hm.seq ?_
  rintro b _ rfl
  exact pure rfl

end Simulates

end Logged

end Libjingle.Lib
