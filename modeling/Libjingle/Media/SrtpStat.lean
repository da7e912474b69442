import Libjingle.Base.TimeUtils
import Libjingle.Lib.StdMap

/-!
# The throttling of SRTP errors (`session/media/srtpfilter.h`, `srtpfilter.cc`)

`SrtpStat` remembers when it has signalled each failure, a triple of an ssrc, a mode and an error,
in a `std::map`. `FailureKey::operator<` says that one triple is less than another one if any of
its parts is, and the times are compared as signed numbers.

## Results

* **`throttled_iff_fair`**: a run is throttled exactly if all of its steps are fair.
-/

namespace Libjingle.Media

open Lib

/-! ## Failures -/

/-- `SrtpFilter::Mode`. -/
inductive SrtpMode where
  | protect
  | unprotect
  deriving DecidableEq

/-- `SrtpFilter::Error`. -/
inductive SrtpError where
  | none
  | fail
  | auth
  | replay
  deriving DecidableEq

def SrtpMode.value : SrtpMode → Nat
  | protect => 0
  | unprotect => 1

def SrtpError.value : SrtpError → Nat
  | none => 0
  | fail => 1
  | auth => 2
  | replay => 3

/-- `err_status_t` of libsrtp, as far as it is told apart. -/
inductive ErrStatus where
  | ok
  | authFail
  | replayFail
  | replayOld
  | other (code : Int)
  deriving DecidableEq

structure FailureKey where
  ssrc : U32
  mode : SrtpMode
  error : SrtpError
  deriving DecidableEq

namespace FailureKey

/-- `operator<`. -/
def lt (a b : FailureKey) : Bool :=
  a.ssrc < b.ssrc || decide (a.mode.value < b.mode.value) || decide (a.error.value < b.error.value)

/-- No part of the first triple is greater than that of the second one. -/
def AtMost (a b : FailureKey) : Prop :=
  a.ssrc ≤ b.ssrc ∧ a.mode.value ≤ b.mode.value ∧ a.error.value ≤ b.error.value

instance (a b : FailureKey) : Decidable (a.AtMost b) := inferInstanceAs (Decidable (_ ∧ _ ∧ _))

end FailureKey

/-! ## The statistics -/

/-- `SrtpStat`; `failures` holds `last_signal_time` of each triple. -/
structure SrtpStat where
  failures : StdMap FailureKey.lt U32
  signalSilentTime : U32

inductive SrtpResult where
  | protectRtp (ssrc : U32) (result : ErrStatus)
  | unprotectRtp (ssrc : U32) (result : ErrStatus)
  | protectRtcp (result : ErrStatus)
  | unprotectRtcp (result : ErrStatus)
  deriving DecidableEq

namespace SrtpStat

/-- A new object, after `set_signal_silent_time`. -/
def create (signalSilentTime : U32) : SrtpStat := ⟨.empty, signalSilentTime⟩

/-- `HandleSrtpResult`: whether it signals; `none` when the behaviour of the map is undefined. -/
def handleSrtpResult (s : SrtpStat) (now : U32) (key : FailureKey) : Option (SrtpStat × Bool) :=
  if key.error = .none then some (s, false)
  -- For errors, signal first time and wait.
  else (s.failures.find key).bind fun found =>
    let lastSignalTime := found.getD 0
    if lastSignalTime = 0 ∨ s.signalSilentTime.toInt < timeDiff now lastSignalTime then
      (s.failures.set key now).map fun failures => ({ s with failures }, true)
    else some (s, false)

end SrtpStat

/-- `AddProtectRtpResult`: the error of a result. -/
def protectError : ErrStatus → SrtpError
  | .ok => .none
  | .authFail => .auth
  | _ => .fail

/-- `AddUnprotectRtpResult`: the error of a result. -/
def unprotectError : ErrStatus → SrtpError
  | .ok => .none
  | .authFail => .auth
  | .replayFail | .replayOld => .replay
  | .other _ => .fail

/-- The triple that a result is handled as. -/
def SrtpResult.key : SrtpResult → FailureKey
  | protectRtp ssrc result => ⟨ssrc, .protect, protectError result⟩
  | unprotectRtp ssrc result => ⟨ssrc, .unprotect, unprotectError result⟩
  | protectRtcp result => ⟨0, .protect, protectError result⟩
  | unprotectRtcp result => ⟨0, .unprotect, unprotectError result⟩

namespace SrtpStat

def step (s : SrtpStat) (e : U32 × SrtpResult) : Option (SrtpStat × Bool) :=
  s.handleSrtpResult e.1 e.2.key

/-! ## The property -/

/-- The signals so far, with their times. -/
abbrev SignalLog := List (U32 × FailureKey)

/-- The triple was not signalled within the preceding silent time. -/
def Due (silent : U32) (log : SignalLog) (now : U32) (key : FailureKey) : Prop :=
  ∀ t, (t, key) ∈ log → silent.toNat < now.toNat - t.toNat

/-- In a run everything is defined, and a failure is signalled just if it is due. -/
def Throttled (s : SrtpStat) (log : SignalLog) : List (U32 × SrtpResult) → Prop
  | [] => True
  | e :: es => ∃ s' signalled, s.step e = some (s', signalled) ∧
      (signalled = true ↔ e.2.key.error ≠ .none ∧ Due s.signalSilentTime log e.1 e.2.key) ∧
      s'.Throttled (if signalled then log ++ [(e.1, e.2.key)] else log) es

/-- The triple of a failure is comparable with those in the map in all of its parts, and the time
since its last signal lies in the same half of the range as the silent time. -/
def Fair (s : SrtpStat) (e : U32 × SrtpResult) : Prop :=
  e.2.key.error ≠ .none →
    (∀ k ∈ s.failures.keys, e.2.key.AtMost k ∨ k.AtMost e.2.key) ∧
      ∀ last, s.failures.find e.2.key = some (some last) →
        (s.signalSilentTime.toNat < 2 ^ 31 ↔ e.1.toNat - last.toNat < 2 ^ 31)

/-- A run in which all steps are fair. -/
def FairRun (s : SrtpStat) : List (U32 × SrtpResult) → Prop
  | [] => True
  | e :: es => s.Fair e ∧ ∀ r, s.step e = some r → r.1.FairRun es

/-- The clock is never 0 and does not wrap. -/
def ClockRuns (es : List (U32 × SrtpResult)) : Prop :=
  (∀ e ∈ es, e.1 ≠ 0) ∧ es.Pairwise fun e f => e.1 ≤ f.1

end SrtpStat

/-! ## The comparison -/

namespace FailureKey

variable {a b : FailureKey} {S : Set FailureKey}

/-- The parts, by what they are ordered by. -/
def parts (a : FailureKey) : ℕ × ℕ × ℕ := (a.ssrc.toNat, a.mode.value, a.error.value)

theorem atMost_iff : a.AtMost b ↔ a.parts ≤ b.parts := Iff.rfl

theorem lt_iff : a.lt b = true ↔ AnyLess parts a b := by
  have hno : ¬ b.AtMost a ↔ a.lt b = true := by
    unfold AtMost lt
    rw [Bool.or_eq_true, Bool.or_eq_true, decide_eq_true_eq, decide_eq_true_eq, decide_eq_true_eq,
      not_and_or, not_and_or, not_le, not_le, BitVec.not_le, or_assoc]
  rw [← hno, atMost_iff]
  rfl

theorem parts_inj (h : a.parts = b.parts) : a = b := by
  obtain ⟨ssrc, mode, error⟩ := a
  obtain ⟨ssrc', mode', error'⟩ := b
  simp only [parts, Prod.mk.injEq] at h
  obtain rfl := BitVec.eq_of_toNat_eq h.1
  have hmode : mode = mode' := by
    cases mode <;> cases mode' <;> first | rfl | exact absurd h.2.1 (by decide)
  have herror : error = error' := by
    cases error <;> cases error' <;> first | rfl | exact absurd h.2.2 (by decide)
  rw [hmode, herror]

theorem same_iff : Same lt a b ↔ a = b := by
  have hparts : Same lt a b ↔ a.parts = b.parts := by
    rw [← anyLess_incomp_iff, ← lt_iff, ← lt_iff, Bool.not_eq_true, Bool.not_eq_true]
    rfl
  rw [hparts]
  exact ⟨parts_inj, fun h => h ▸ rfl⟩

/-- **When `operator<` orders triples.** -/
theorem orders_iff : Orders lt S ↔ ∀ a ∈ S, ∀ b ∈ S, a.AtMost b ∨ b.AtMost a := by
  unfold Orders
  rw [weakOrderOn_congr fun a _ b _ => lt_iff, weakOrderOn_anyLess_iff]
  simp only [atMost_iff]

theorem accepts_iff {V : Type} {m : StdMap lt V} :
    m.Accepts a ↔ ∀ k ∈ m.keys, a.AtMost k ∨ k.AtMost a := by
  have hkeys := orders_iff.mp m.orders
  unfold StdMap.Accepts
  rw [orders_iff]
  constructor
  · exact fun h k hk => h a List.mem_cons_self k (List.mem_cons_of_mem _ hk)
  · intro h x hx y hy
    rcases List.mem_cons.mp hx with hx | hx
    · rcases List.mem_cons.mp hy with hy | hy
      · rw [hx, hy]
        exact Or.inl (atMost_iff.mpr le_rfl)
      · rw [hx]
        exact h y hy
    · rcases List.mem_cons.mp hy with hy | hy
      · rw [hy]
        exact (h x hx).symm
      · exact hkeys x hx y hy

end FailureKey

/-! ## Times -/

/-- `HandleSrtpResult` compares signed numbers: that is right if both are in the same half. -/
theorem signed_iff {silent now last : U32} (hle : last ≤ now) :
    ((silent.toInt < timeDiff now last) ↔ silent.toNat < now.toNat - last.toNat) ↔
      (silent.toNat < 2 ^ 31 ↔ now.toNat - last.toNat < 2 ^ 31) := by
  have hsub : (now - last).toNat = now.toNat - last.toNat := BitVec.toNat_sub_of_le hle
  have hs := silent.isLt
  have hn := now.isLt
  unfold timeDiff
  rw [BitVec.toInt_eq_toNat_cond, BitVec.toInt_eq_toNat_cond, hsub]
  split <;> split <;> omega

/-! ## Runs -/

namespace SrtpStat

variable {s s' : SrtpStat} {log : SignalLog} {key : FailureKey} {now : U32}

/-- What the map knows of a triple is its last signal. -/
def Ledger (s : SrtpStat) (log : SignalLog) : Prop :=
  ∀ key found, s.failures.find key = some found → match found with
    | none => ∀ t, (t, key) ∉ log
    | some last => last ≠ 0 ∧ (last, key) ∈ log ∧ ∀ t, (t, key) ∈ log → t ≤ last

theorem ledger_create (silent : U32) : (create silent).Ledger [] := by
  intro key found hfind
  have hnone : found = none := by
    unfold create at hfind
    have ho := StdMap.accepts_of_find hfind
    rw [(StdMap.within_empty _).find_eq ho List.mem_cons_self] at hfind
    exact (Option.some.inj hfind).symm
  rw [hnone]
  exact fun t => List.not_mem_nil

theorem Ledger.set (h : s.Ledger log) {failures : StdMap FailureKey.lt U32}
    (hset : s.failures.set key now = some failures) (hnow : now ≠ 0)
    (hpast : ∀ p ∈ log, p.1 ≤ now) :
    Ledger { s with failures } (log ++ [(now, key)]) := by
  obtain ⟨hold, x, hx, hsame⟩ := StdMap.keys_set hset
  rw [FailureKey.same_iff] at hsame
  subst hsame
  intro key' found hfind
  dsimp only at hfind
  -- What is found was found before, or is the new entry.
  have ho : Orders FailureKey.lt {k | k ∈ key' :: failures.keys} := StdMap.accepts_of_find hfind
  have hwithin : s.failures.Within {k | k ∈ key' :: failures.keys} := fun k hk =>
    List.mem_cons_of_mem _ (hold k hk)
  obtain ⟨m', hset', -, hafter⟩ := hwithin.set_eq ho (List.mem_cons_of_mem _ hx) now
  rw [hset] at hset'
  obtain rfl := Option.some.inj hset'
  rw [hafter key' List.mem_cons_self] at hfind
  by_cases heq : x = key'
  · rw [if_pos (FailureKey.same_iff.mpr heq)] at hfind
    subst heq
    obtain rfl := Option.some.inj hfind
    refine ⟨hnow, List.mem_append_right _ (List.mem_singleton_self _), fun t ht => ?_⟩
    rcases List.mem_append.mp ht with ht | ht
    · exact hpast _ ht
    · cases List.mem_singleton.mp ht
      exact BitVec.le_refl _
  · rw [if_neg fun hs => heq (FailureKey.same_iff.mp hs)] at hfind
    have hother : ∀ t, (t, key') ∈ log ++ [(now, x)] ↔ (t, key') ∈ log := by
      intro t
      rw [List.mem_append, List.mem_singleton, Prod.mk.injEq]
      exact or_iff_left fun hsame => heq hsame.2.symm
    have hledger := h key' found hfind
    cases found with
    | none => exact fun t ht => hledger t ((hother t).mp ht)
    | some last =>
      exact ⟨hledger.1, (hother last).mpr hledger.2.1,
        fun t ht => hledger.2.2 t ((hother t).mp ht)⟩

/-- When `HandleSrtpResult` signals a failure whose triple the map takes. -/
theorem handle_eq (now : U32) {found : Option U32} (hfind : s.failures.find key = some found)
    (herror : key.error ≠ .none) :
    ∃ s' signalled, s.handleSrtpResult now key = some (s', signalled) ∧
      (signalled = true ↔ found.getD 0 = 0 ∨
        s.signalSilentTime.toInt < timeDiff now (found.getD 0)) ∧
      (signalled = false → s' = s) ∧
      (signalled = true → ∃ failures, s.failures.set key now = some failures ∧
        s' = { s with failures }) := by
  have ho := StdMap.accepts_of_find hfind
  unfold handleSrtpResult
  rw [if_neg herror, hfind, Option.bind_some]
  dsimp only
  split
  · rename_i hdue
    obtain ⟨failures, hset⟩ : ∃ failures, s.failures.set key now = some failures :=
      ⟨_, dif_pos ho⟩
    rw [hset]
    exact ⟨_, true, rfl, iff_of_true rfl hdue, nofun, fun _ => ⟨failures, rfl, rfl⟩⟩
  · rename_i hdue
    exact ⟨s, false, rfl, iff_of_false Bool.false_ne_true hdue, fun _ => rfl, nofun⟩

theorem Ledger.due_iff (h : s.Ledger log) {last : U32}
    (hfind : s.failures.find key = some (some last)) (silent : U32) :
    Due silent log now key ↔ silent.toNat < now.toNat - last.toNat := by
  obtain ⟨-, hmem, hmax⟩ := h key _ hfind
  constructor
  · exact fun hdue => hdue last hmem
  · intro hlast t ht
    have hle : t.toNat ≤ last.toNat := hmax t ht
    omega

/-- **One step is throttled exactly if it is fair.** -/
theorem step_iff {e : U32 × SrtpResult} (h : s.Ledger log) (hpast : ∀ p ∈ log, p.1 ≤ e.1) :
    (∃ s' signalled, s.step e = some (s', signalled) ∧
      (signalled = true ↔ e.2.key.error ≠ .none ∧ Due s.signalSilentTime log e.1 e.2.key)) ↔
    s.Fair e := by
  unfold step Fair
  by_cases herror : e.2.key.error = .none
  · refine iff_of_true ⟨s, false, if_pos herror, ?_⟩ fun hfail => absurd herror hfail
    exact iff_of_false Bool.false_ne_true fun hdue => hdue.1 herror
  simp only [ne_eq, herror, not_false_eq_true, true_and, true_implies]
  rw [← FailureKey.accepts_iff]
  constructor
  · rintro ⟨s', signalled, hstep, hdue⟩
    obtain ⟨found, hfind⟩ : ∃ found, s.failures.find e.2.key = some found := by
      unfold handleSrtpResult at hstep
      rw [if_neg herror] at hstep
      obtain ⟨found, hfind, -⟩ := Option.bind_eq_some_iff.mp hstep
      exact ⟨found, hfind⟩
    refine ⟨StdMap.accepts_of_find hfind, fun last hlast => ?_⟩
    obtain ⟨hne, hmem, -⟩ := h _ _ hlast
    obtain ⟨_, _, hstep', hsignal, -, -⟩ := handle_eq e.1 hlast herror
    rw [hstep] at hstep'
    obtain ⟨rfl, rfl⟩ := Prod.mk.inj (Option.some.inj hstep')
    rw [hsignal, h.due_iff hlast] at hdue
    simp only [Option.getD_some, hne, false_or] at hdue
    exact (signed_iff (hpast _ hmem)).mp hdue
  · rintro ⟨hkeys, hhalf⟩
    obtain ⟨found, hfind⟩ : ∃ found, s.failures.find e.2.key = some found := ⟨_, if_pos hkeys⟩
    obtain ⟨s', signalled, hstep, hsignal, -, -⟩ := handle_eq e.1 hfind herror
    refine ⟨s', signalled, hstep, ?_⟩
    rw [hsignal]
    cases found with
    | none => exact iff_of_true (Or.inl rfl) fun t ht => absurd ht (h _ _ hfind t)
    | some last =>
      obtain ⟨hne, hmem, -⟩ := h _ _ hfind
      rw [h.due_iff hfind]
      simp only [Option.getD_some, hne, false_or]
      exact (signed_iff (hpast _ hmem)).mpr (hhalf last hfind)

theorem Ledger.step {e : U32 × SrtpResult} {signalled : Bool} (h : s.Ledger log)
    (hpast : ∀ p ∈ log, p.1 ≤ e.1) (hnow : e.1 ≠ 0) (hstep : s.step e = some (s', signalled)) :
    s'.Ledger (if signalled then log ++ [(e.1, e.2.key)] else log) := by
  unfold SrtpStat.step at hstep
  by_cases herror : e.2.key.error = .none
  · unfold handleSrtpResult at hstep
    rw [if_pos herror] at hstep
    obtain ⟨rfl, rfl⟩ := Prod.mk.inj (Option.some.inj hstep)
    exact h
  obtain ⟨found, hfind⟩ : ∃ found, s.failures.find e.2.key = some found := by
    unfold handleSrtpResult at hstep
    rw [if_neg herror] at hstep
    obtain ⟨found, hfind, -⟩ := Option.bind_eq_some_iff.mp hstep
    exact ⟨found, hfind⟩
  obtain ⟨_, _, hstep', -, hsilent, hset⟩ := handle_eq e.1 hfind herror
  rw [hstep] at hstep'
  obtain ⟨rfl, rfl⟩ := Prod.mk.inj (Option.some.inj hstep')
  cases signalled with
  | false =>
    rw [hsilent rfl]
    exact h
  | true =>
    obtain ⟨failures, hfailures, rfl⟩ := hset rfl
    exact h.set hfailures hnow hpast

theorem throttled_iff {es : List (U32 × SrtpResult)} : ∀ {s : SrtpStat} {log : SignalLog},
    s.Ledger log → ClockRuns es → (∀ p ∈ log, ∀ e ∈ es, p.1 ≤ e.1) →
    (s.Throttled log es ↔ s.FairRun es) := by
  induction es with
  | nil => exact fun _ _ _ => Iff.rfl
  | cons e es ih =>
    intro s log h hclock hpast
    obtain ⟨hnow, hrest⟩ := List.forall_mem_cons.mp hclock.1
    obtain ⟨hlater, hpairs⟩ := List.pairwise_cons.mp hclock.2
    have hhere : ∀ p ∈ log, p.1 ≤ e.1 := fun p hp => hpast p hp e List.mem_cons_self
    have hnext : ∀ {s' signalled}, s.step e = some (s', signalled) →
        (s'.Throttled (if signalled then log ++ [(e.1, e.2.key)] else log) es ↔
          s'.FairRun es) := by
      intro s' signalled hstep
      refine ih (h.step hhere hnow hstep) ⟨hrest, hpairs⟩ fun p hp f hf => ?_
      have hold : p ∈ log → p.1 ≤ f.1 := fun hp => hpast p hp f (List.mem_cons_of_mem _ hf)
      split at hp
      · rcases List.mem_append.mp hp with hp | hp
        · exact hold hp
        · obtain rfl := List.mem_singleton.mp hp
          exact hlater f hf
      · exact hold hp
    unfold Throttled FairRun
    rw [← step_iff h hhere]
    constructor
    · rintro ⟨s', signalled, hstep, hdue, hrun⟩
      refine ⟨⟨s', signalled, hstep, hdue⟩, fun r hr => ?_⟩
      rw [hstep] at hr
      obtain rfl := Option.some.inj hr
      exact (hnext hstep).mp hrun
    · rintro ⟨⟨s', signalled, hstep, hdue⟩, hrun⟩
      exact ⟨s', signalled, hstep, hdue, (hnext hstep).mpr (hrun _ hstep)⟩

/-- **A run is throttled exactly if all of its steps are fair.** -/
theorem throttled_iff_fair (silent : U32) {es : List (U32 × SrtpResult)} (hclock : ClockRuns es) :
    (create silent).Throttled [] es ↔ (create silent).FairRun es :=
  throttled_iff (ledger_create silent) hclock nofun

/-! ## Concrete runs -/

/-- Decides a step by the entry that is found. -/
instance (s : SrtpStat) (e : U32 × SrtpResult) : Decidable (s.Fair e) :=
  decidable_of_iff
    (e.2.key.error ≠ .none →
      (∀ k ∈ s.failures.keys, e.2.key.AtMost k ∨ k.AtMost e.2.key) ∧
        (s.failures.find e.2.key).join.all fun last =>
          decide (s.signalSilentTime.toNat < 2 ^ 31 ↔ e.1.toNat - last.toNat < 2 ^ 31))
    (by simp only [Fair, Option.all_eq_true, decide_eq_true_eq, Option.join_eq_some_iff])

def decideFairRun : (es : List (U32 × SrtpResult)) → (s : SrtpStat) → Decidable (s.FairRun es)
  | [], _ => isTrue trivial
  | e :: es, s =>
    have : Decidable (∀ r ∈ s.step e, r.1.FairRun es) := match s.step e with
      | none => isTrue nofun
      | some r => match decideFairRun es r.1 with
        | isTrue h => isTrue fun _ hr => Option.some.inj hr ▸ h
        | isFalse h => isFalse fun hall => h (hall r rfl)
    inferInstanceAs (Decidable (_ ∧ _))

instance (s : SrtpStat) (es : List (U32 × SrtpResult)) : Decidable (s.FairRun es) :=
  decideFairRun es s

instance (es : List (U32 × SrtpResult)) : Decidable (ClockRuns es) :=
  inferInstanceAs (Decidable (_ ∧ _))

/-- A failure that is reported twice within the silent time. -/
def sampleRepeated : List (U32 × SrtpResult) :=
  [(100, .unprotectRtp 5 .authFail), (200, .unprotectRtp 5 .authFail)]

theorem throttled_iff_fair_repeated : (create 1000).Throttled [] sampleRepeated :=
  (throttled_iff_fair 1000 (by decide)).mpr (by decide)

/-- Failures of three streams of one session. -/
def sampleMixed : List (U32 × SrtpResult) :=
  [(100, .unprotectRtp 6 (.other 1)), (200, .unprotectRtp 5 .authFail),
    (300, .unprotectRtp 4 .replayFail), (400, .unprotectRtp 6 (.other 1))]

/-- **`operator<` says of two triples that each is less than the other one**: the second failure is
looked for in a map whose keys it does not order. -/
theorem srtpStat_unordered :
    ClockRuns sampleMixed ∧
      FailureKey.lt ⟨6, .unprotect, .fail⟩ ⟨5, .unprotect, .auth⟩ = true ∧
      FailureKey.lt ⟨5, .unprotect, .auth⟩ ⟨6, .unprotect, .fail⟩ = true ∧
      ¬ Orders FailureKey.lt Set.univ ∧ ¬ (create 1000).Throttled [] sampleMixed := by
  have hless : FailureKey.lt ⟨6, .unprotect, .fail⟩ ⟨5, .unprotect, .auth⟩ = true := by decide
  have hmore : FailureKey.lt ⟨5, .unprotect, .auth⟩ ⟨6, .unprotect, .fail⟩ = true := by decide
  have hclock : ClockRuns sampleMixed := by decide
  have hsecond : ¬ (create 1000).FairRun sampleMixed := by decide
  refine ⟨hclock, hless, hmore, fun h => h.asymm _ trivial _ trivial hless hmore, fun hrun => ?_⟩
  exact hsecond ((throttled_iff (ledger_create 1000) hclock nofun).mp hrun)

end SrtpStat

end Libjingle.Media
