import Libjingle.Lib.History
import Libjingle.P2p.PortAllocator

/-!
# The life of an allocation sequence (`basicportallocator.cc`)

A sequence runs its phases in steps, one for each message, and is completed by the last phase.
`Start` makes it run again, whatever it has done. Whether all candidates have been gathered
depends on it: nothing is signalled while a sequence is running.

* **`step_lives`**: the session refines that machine.
* **`settled_iff`**: sequences that have run all their phases are completed and wait for nothing,
  in the runs that start no such sequence again.
* **`spent_sequence_blocks`**: one that is started again keeps the session from ever being done.
-/

namespace Libjingle

open Lib

namespace AllocationSequence

/-- The sequence without its protocols. -/
def life (q : AllocationSequence) : AllocationSequence := { q with protocols := [] }

/-- `OnMessage`, but for the ports and protocols. -/
def advance (q : AllocationSequence) : AllocationSequence :=
  if q.stepOfPhase .ssltcp = q.step then
    { q with step := q.step + 1, state := .completed, pending := 0 }
  else { q with
    step := q.step + 1
    pending := if q.state = .running then q.pending + 1 else q.pending }

def Spent (q : AllocationSequence) : Prop := q.stepOfPhase .ssltcp < q.step

/-- A sequence that has run all its phases is completed and waits for nothing. -/
def Settled (q : AllocationSequence) : Prop := q.Spent → q.state = .completed ∧ q.pending = 0

/-- It has run all its phases, and is taken to be running. -/
def Stuck (q : AllocationSequence) : Prop := q.listed = true ∧ q.state = .running ∧ q.Spent

instance (q : AllocationSequence) : Decidable q.Spent := inferInstanceAs (Decidable (_ < _))

variable {q : AllocationSequence}

theorem settled_advance (h : ¬ q.Spent) : q.advance.Settled := by
  unfold advance
  split
  · exact fun _ => ⟨rfl, rfl⟩
  · rename_i hne
    intro hspent
    have : q.stepOfPhase .ssltcp < q.step + 1 := hspent
    exact absurd (Nat.lt_of_le_of_ne (Nat.le_of_lt_succ this) hne) h

theorem Stuck.advance (h : q.Stuck) : q.advance.Stuck := by
  obtain ⟨hlisted, hstate, hspent⟩ := h
  unfold AllocationSequence.advance
  rw [if_neg (ne_of_lt hspent)]
  exact ⟨hlisted, hstate, Nat.lt_succ_of_lt hspent⟩

end AllocationSequence

namespace AllocatorSession

variable {κ : Type*} {protocol : κ → Text} {s : AllocatorSession κ} {seq : Nat}

/-! ## The machine -/

/-- Whether the session runs, and its sequences, without their protocols. -/
structure Lives where
  running : Bool
  sequences : List AllocationSequence

namespace Lives

def modify (l : Lives) (seq : Nat) (f : AllocationSequence → AllocationSequence) : Lives :=
  { l with sequences := l.sequences.modify seq f }

/-- A new sequence, before `Init`. -/
def init (bestWritablePhase : Int) : AllocationSequence :=
  ⟨.init, 0, bestWritablePhase.toNat, [], 0, false⟩

/-- A new sequence goes to the others. -/
def enter (running : Bool) (q : AllocationSequence) : AllocationSequence :=
  { (if running then startSequence q else q) with listed := true }

/-- What an event does to the sequences. -/
def step (l : Lives) : Event κ → Lives
  | .newSequence best _ => { l with
    sequences := l.sequences ++ [enter l.running (init best).advance] }
  | .phase seq _ =>
    if (l.sequences[seq]?).any fun q => decide (0 < q.pending) then
      l.modify seq fun q => { q with pending := q.pending - 1 }.advance
    else l
  | .start => ⟨true, l.sequences.map fun q => if q.listed then startSequence q else q⟩
  | .stop => ⟨false, l.sequences.map fun q => if q.listed then stopSequence q else q⟩
  | _ => l

end Lives

def lives (s : AllocatorSession κ) : Lives :=
  ⟨s.running, s.sequences.map AllocationSequence.life⟩

/-! ## Ports -/

@[simp] theorem record_lives (e : AllocatorEntry κ) : (s.record e).lives = s.lives := rfl

@[simp] theorem setPort_lives (port : Nat) (f : PortData κ → PortData κ) :
    (s.setPort port f).lives = s.lives := rfl

@[simp] theorem maybeSignalCandidatesAllocationDone_lives :
    s.maybeSignalCandidatesAllocationDone.lives = s.lives := by
  unfold maybeSignalCandidatesAllocationDone
  split_ifs <;> rfl

@[simp] theorem onCandidateReady_lives (port : Nat) (c : κ) :
    (s.onCandidateReady protocol port c).lives = s.lives := by
  unfold onCandidateReady
  cases s.findPort port with
  | none => rfl
  | some data =>
    dsimp only
    split_ifs <;> rfl

@[simp] theorem onPortReady_lives (port : Nat) : (s.onPortReady port).lives = s.lives := by
  unfold onPortReady
  cases s.findPort port with
  | none => rfl
  | some data =>
    dsimp only
    split_ifs <;> simp

theorem act_lives (a : PortAction κ) : (s.act protocol a).lives = s.lives := by
  cases a with
  | addAllocatedPort seq =>
    dsimp only [act, addAllocatedPort]
    split_ifs <;> rfl
  | addAddress port c final =>
    dsimp only [act, addAddress]
    cases s.findPort port with
    | none => rfl
    | some data =>
      dsimp only
      split_ifs <;> simp
  | addressReady port => exact onPortReady_lives port
  | addressError port =>
    dsimp only [act, onAddressError]
    cases s.findPort port with
    | none => rfl
    | some data =>
      dsimp only
      split_ifs <;> simp
  | destroyed port =>
    dsimp only [act, onPortDestroyed]
    cases s.findPort port <;> rfl

theorem foldl_act_lives (created : List (PortAction κ)) :
    (created.foldl (act protocol) s).lives = s.lives := by
  induction created generalizing s with
  | nil => rfl
  | cons a created ih => exact ih.trans (act_lives a)

/-! ## Phases -/

theorem setSequence_lives {f : AllocationSequence → AllocationSequence}
    (g : AllocationSequence → AllocationSequence) (h : ∀ q, (f q).life = g q.life) :
    (s.setSequence seq f).lives = s.lives.modify seq g := by
  refine congrArg (Lives.mk s.running) (List.ext_getElem? fun i => ?_)
  dsimp only [setSequence, lives]
  rw [List.getElem?_map, List.getElem?_modify, List.getElem?_modify, List.getElem?_map]
  cases s.sequences[i]? with
  | none => rfl
  | some q =>
    by_cases hi : seq = i
    · simp [hi, h q]
    · simp [hi]

theorem enableProtocol_lives (proto : ProtocolType) :
    (s.enableProtocol protocol seq proto).lives = s.lives := by
  have hset : (s.setSequence seq fun q => { q with protocols := q.protocols ++ [proto] }).lives =
      s.lives.modify seq id := setSequence_lives id fun _ => rfl
  rw [Lives.modify, List.modify_id] at hset
  unfold enableProtocol onProtocolEnabled
  split_ifs
  · dsimp only
    split_ifs <;> exact hset
  · rfl

theorem perform_lives (phase : AllocationPhase) (created : List (PortAction κ)) :
    (s.perform protocol seq phase created).lives = if phase = .ssltcp then
      s.lives.modify seq fun q => { q with pending := 0, state := .completed } else s.lives := by
  cases phase with
  | udp => exact (enableProtocol_lives _).trans (foldl_act_lives created)
  | relay => exact foldl_act_lives created
  | tcp => exact (enableProtocol_lives _).trans (foldl_act_lives created)
  | ssltcp =>
    have hdone : (s.setSequence seq fun q => { q with state := .completed }).lives =
        s.lives.modify seq fun q => { q with state := .completed } :=
      setSequence_lives _ fun _ => rfl
    dsimp only [perform]
    rw [if_pos rfl, apply_ite lives, maybeSignalCandidatesAllocationDone_lives, ite_self,
      setSequence_lives (fun q => { q with pending := 0, state := .completed }) fun _ => rfl,
      enableProtocol_lives, hdone, Lives.modify, Lives.modify, List.modify_modify_eq]
    rfl

theorem modify_congr {q : AllocationSequence} {f g : AllocationSequence → AllocationSequence}
    {l : List AllocationSequence} (hq : l[seq]? = some q) (h : f q = g q) :
    l.modify seq f = l.modify seq g := by
  refine List.ext_getElem? fun i => ?_
  rw [List.getElem?_modify, List.getElem?_modify]
  by_cases hi : seq = i
  · subst hi
    rw [hq]
    simpa using h
  · simp [hi]

theorem onMessage_lives {q : AllocationSequence} (hq : s.sequences[seq]? = some q)
    (created : AllocationPhase → List (PortAction κ)) :
    (s.onMessage protocol seq created).lives = s.lives.modify seq AllocationSequence.advance := by
  have hphase : ∀ (t : AllocatorSession κ) (phase : AllocationPhase), phase ≠ .ssltcp →
      (if q.stepOfPhase phase = q.step then t.perform protocol seq phase (created phase)
        else t).lives = t.lives := by
    intro t phase hne
    split_ifs
    · rw [perform_lives, if_neg hne]
    · rfl
  have hlife : s.lives.sequences[seq]? = some q.life := List.getElem?_map.trans (congrArg _ hq)
  unfold onMessage
  rw [hq]
  simp only [AllocationPhase.all, List.foldl_cons, List.foldl_nil]
  rw [setSequence_lives (fun q => { q with
    step := q.step + 1
    pending := if q.state = .running then q.pending + 1 else q.pending }) fun _ => rfl]
  by_cases hend : q.stepOfPhase .ssltcp = q.step
  · rw [if_pos hend, perform_lives, if_pos rfl, hphase _ .tcp (by decide),
      hphase _ .relay (by decide), hphase _ .udp (by decide), Lives.modify, Lives.modify,
      List.modify_modify_eq, Lives.modify]
    exact congrArg (Lives.mk _) (modify_congr hlife (if_pos hend).symm)
  · rw [if_neg hend, hphase _ .tcp (by decide), hphase _ .relay (by decide),
      hphase _ .udp (by decide)]
    exact congrArg (Lives.mk _) (modify_congr hlife (if_neg hend).symm)

/-! ## Events -/

theorem modify_concat (f : AllocationSequence → AllocationSequence) (q : AllocationSequence)
    (l : List AllocationSequence) : (l ++ [q]).modify l.length f = l ++ [f q] := by
  induction l with
  | nil => rfl
  | cons p l ih => exact congrArg _ ih

/-- **The session refines the machine.** -/
theorem step_lives (e : Event κ) : (s.step protocol e).lives = s.lives.step e := by
  have hmap : ∀ f : AllocationSequence → AllocationSequence, (∀ q, (f q).life = f q.life) →
      (s.sequences.map f).map AllocationSequence.life = s.lives.sequences.map f := fun f hf => by
    rw [AllocatorSession.lives, List.map_map, List.map_map]
    exact List.map_congr_left fun q _ => hf q
  cases e with
  | newSequence best created =>
    have hlength : s.sequences.length = s.lives.sequences.length := (List.length_map _).symm
    have hlives : lives { s with sequences := s.sequences ++ [Lives.init best] } =
        ⟨s.running, s.lives.sequences ++ [Lives.init best]⟩ :=
      congrArg (Lives.mk s.running) List.map_append
    have hmessage := @onMessage_lives κ protocol { s with
      sequences := s.sequences ++ [Lives.init best] } s.sequences.length _
      List.getElem?_concat_length created
    rw [hlives, Lives.modify, hlength, modify_concat] at hmessage
    have henter : ∀ t : AllocatorSession κ, t.lives =
        ⟨s.running, s.lives.sequences ++ [(Lives.init best).advance]⟩ →
        (t.setSequence s.lives.sequences.length (Lives.enter t.running)).lives =
          s.lives.step (.newSequence best created) := by
      intro t ht
      rw [setSequence_lives (Lives.enter t.running) fun q => by cases t.running <;> rfl,
        show t.running = s.running from congrArg Lives.running ht, ht]
      exact congrArg (Lives.mk _) (modify_concat ..)
    have hsequence := henter _ hmessage
    rw [← hlength] at hsequence
    exact hsequence
  | phase seq created =>
    have hget : s.lives.sequences[seq]? = s.sequences[seq]?.map AllocationSequence.life :=
      List.getElem?_map
    dsimp only [step, Lives.step]
    rw [hget]
    cases hq : s.sequences[seq]? with
    | none => rfl
    | some q =>
      rw [Option.map_some, Option.any_some, Option.any_some]
      change (ite (decide (0 < q.pending) = true) _ _ : AllocatorSession κ).lives =
        ite (decide (0 < q.pending) = true) _ _
      split_ifs
      · rw [@onMessage_lives κ protocol _ _ { q with pending := q.pending - 1 }
          (by rw [setSequence, List.getElem?_modify_eq, hq]; rfl),
          setSequence_lives (fun q => { q with pending := q.pending - 1 }) fun _ => rfl,
          Lives.modify, Lives.modify, List.modify_modify_eq]
        rfl
      · rfl
  | port action => exact act_lives action
  | enableProtocol seq proto => exact enableProtocol_lives proto
  | sequencesCreated => exact maybeSignalCandidatesAllocationDone_lives
  | start => exact congrArg (Lives.mk true) (hmap _ fun q => by
      rcases q with ⟨_, _, _, _, _, _ | _⟩ <;> rfl)
  | stop => exact congrArg (Lives.mk false) (hmap _ fun q => by
      rcases q with ⟨_ | _, _, _, _, _, _ | _⟩ <;> rfl)
  | configStop =>
    dsimp only [step, onConfigStop]
    split_ifs
    · exact maybeSignalCandidatesAllocationDone_lives
    · rfl

/-! ## Runs -/

/-- Every sequence that has run all its phases is completed and waits for nothing. -/
def AllSettled (s : AllocatorSession κ) : Prop := ∀ q ∈ s.sequences, q.Settled

/-- An event starts no sequence that has run all its phases. -/
def StartsNoSpent (s : AllocatorSession κ) : Event κ → Prop
  | .newSequence best _ => s.running = true → best < 3
  | .start => ∀ q ∈ s.sequences, q.listed = true → ¬ q.Spent
  | _ => True

theorem allSettled_iff : s.AllSettled ↔ ∀ q ∈ s.lives.sequences, q.Settled := by
  rw [lives, List.forall_mem_map]
  rfl

theorem settled_enter (running : Bool) (best : Int) :
    (Lives.enter running (Lives.init best).advance).Settled ↔ (running = true → best < 3) := by
  by_cases hbest : best < 3
  · have hlast : ¬ (Lives.init best).stepOfPhase .ssltcp = (Lives.init best).step := by
      show ¬ 3 - best.toNat = 0
      omega
    refine iff_of_true (fun hspent => ?_) fun _ => hbest
    rw [AllocationSequence.advance, if_neg hlast] at hspent
    exact absurd (Nat.lt_one_iff.mp (by cases running <;> exact hspent)) hlast
  · have hlast : (Lives.init best).stepOfPhase .ssltcp = (Lives.init best).step := by
      show 3 - best.toNat = 0
      omega
    rw [AllocationSequence.advance, if_pos hlast]
    cases running with
    | false => exact iff_of_true (fun _ => ⟨rfl, rfl⟩) fun h => absurd h Bool.false_ne_true
    | true =>
      refine iff_of_false (fun h => ?_) fun h => hbest (h rfl)
      have hspent : 3 - best.toNat < 1 := Nat.lt_one_iff.mpr hlast
      cases (h hspent).1

theorem settled_start (q : AllocationSequence) (h : q.Settled) :
    (if q.listed then startSequence q else q).Settled ↔ (q.listed = true → ¬ q.Spent) := by
  split_ifs with hlisted
  · refine ⟨fun hstart _ hspent => ?_, fun hno hspent => absurd hspent (hno hlisted)⟩
    cases (hstart hspent).1
  · exact iff_of_true h fun hl => absurd hl hlisted

theorem allSettled_step_iff (h : s.AllSettled) (e : Event κ) :
    (s.step protocol e).AllSettled ↔ s.StartsNoSpent e := by
  rw [allSettled_iff, step_lives]
  have hlives := allSettled_iff.mp h
  cases e with
  | newSequence best created =>
    dsimp only [Lives.step]
    rw [List.forall_mem_append, List.forall_mem_singleton, settled_enter]
    exact and_iff_right hlives
  | phase seq created =>
    dsimp only [Lives.step]
    refine iff_of_true ?_ trivial
    split_ifs with hpending
    · intro q hq
      obtain ⟨i, hi⟩ := List.mem_iff_getElem?.mp hq
      rw [Lives.modify, List.getElem?_modify] at hi
      obtain ⟨p, hp, rfl⟩ := Option.map_eq_some_iff.mp hi
      have hsettled := hlives p (List.mem_of_getElem? hp)
      split_ifs with hseq
      · rw [hseq, hp] at hpending
        exact AllocationSequence.settled_advance fun hspent =>
          absurd (of_decide_eq_true hpending) (by rw [(hsettled hspent).2]; decide)
      · exact hsettled
    · exact hlives
  | start =>
    refine List.forall_mem_map.trans (List.forall_mem_map.trans ?_)
    exact forall₂_congr fun q hq => settled_start q.life (h q hq)
  | stop =>
    refine iff_of_true (List.forall_mem_map.mpr fun q hq => ?_) trivial
    unfold stopSequence
    split_ifs with _ hrunning
    · intro hspent
      cases hrunning.symm.trans (hlives q hq hspent).1
    · exact hlives q hq
    · exact hlives q hq
  | _ => exact iff_of_true hlives trivial

/-- **Sequences come to their end.** In every run each sequence that has run all its phases is
completed and waits for no message, after every event, just if no event starts such a sequence. -/
theorem settled_iff (es : List (Event κ)) :
    Along (step protocol) (fun s e => (s.step protocol e).AllSettled) new es ↔
      Along (step protocol) StartsNoSpent new es := by
  refine along_iff (R := fun s t => s = t ∧ s.AllSettled) ⟨rfl, List.forall_mem_nil _⟩ ?_
  rintro s _ e - ⟨rfl, h⟩
  exact ⟨allSettled_step_iff h e, fun hstep => ⟨rfl, hstep⟩⟩

theorem stuck_step {l : Lives} (e : Event κ) (he : e ≠ .stop)
    (h : ∃ q, l.sequences[seq]? = some q ∧ q.Stuck) :
    ∃ q, (l.step e).sequences[seq]? = some q ∧ q.Stuck := by
  obtain ⟨q, hq, hstuck⟩ := h
  cases e with
  | newSequence best created =>
    exact ⟨q, (List.getElem?_append_left (List.getElem?_eq_some_iff.mp hq).1).trans hq, hstuck⟩
  | phase i created =>
    dsimp only [Lives.step]
    split_ifs
    · rw [Lives.modify, List.getElem?_modify, hq]
      by_cases hi : i = seq
      · exact ⟨_, congrArg some (if_pos hi), AllocationSequence.Stuck.advance hstuck⟩
      · exact ⟨q, congrArg some (if_neg hi), hstuck⟩
    · exact ⟨q, hq, hstuck⟩
  | start =>
    refine ⟨startSequence q, ?_, hstuck.1, rfl, hstuck.2.2⟩
    exact List.getElem?_map.trans (by rw [hq, Option.map_some, if_pos hstuck.1])
  | stop => exact absurd rfl he
  | _ => exact ⟨q, hq, hstuck⟩

/-- **A sequence that is started again never ends**: it stays running with nothing to run until the
session stops, and until then the session does not signal that it is done. -/
theorem spent_sequence_blocks {q : AllocationSequence} (hq : s.sequences[seq]? = some q)
    (h : q.Stuck) (es : List (Event κ)) (hstop : ∀ e ∈ es, e ≠ .stop) :
    (∃ q, (s.run protocol es).sequences[seq]? = some q ∧ q.Stuck) ∧
      (s.run protocol es).maybeSignalCandidatesAllocationDone = s.run protocol es := by
  have hrun : ∃ q, (s.run protocol es).lives.sequences[seq]? = some q ∧ q.Stuck := by
    have hlives : ∃ q, s.lives.sequences[seq]? = some q ∧ q.Stuck :=
      ⟨q.life, List.getElem?_map.trans (congrArg _ hq), h⟩
    clear hq h
    induction es generalizing s with
    | nil => exact hlives
    | cons e es ih =>
      obtain ⟨he, hes⟩ := List.forall_mem_cons.mp hstop
      exact ih hes (by rw [step_lives]; exact stuck_step e he hlives)
  obtain ⟨p, hp, hstuck⟩ := hrun
  obtain ⟨q, hq, rfl⟩ := Option.map_eq_some_iff.mp (List.getElem?_map.symm.trans hp)
  refine ⟨⟨q, hq, hstuck⟩, ?_⟩
  have hany : (s.run protocol es).sequences.any (fun q => q.listed && q.state = .running) = true :=
    List.any_eq_true.mpr ⟨q, List.mem_of_getElem? hq, by simpa using ⟨hstuck.1, hstuck.2.1⟩⟩
  unfold maybeSignalCandidatesAllocationDone
  rw [if_pos hany, ite_self]

/-- The first sequence has run its phases and was started again. -/
def startedAgain : AllocatorSession Nat :=
  { new with running := true, sequences := [⟨.running, 4, 0, [.udp, .tcp, .ssltcp], 1, true⟩] }

theorem started_again_blocks :
    (∃ q, (startedAgain.run (fun _ => []) [.sequencesCreated, .phase 0 fun _ => []]).sequences[0]? =
      some q ∧ q.Stuck) ∧
    (startedAgain.run (fun _ => []) [.sequencesCreated, .phase 0 fun _ =>
      []]).maybeSignalCandidatesAllocationDone =
      startedAgain.run (fun _ => []) [.sequencesCreated, .phase 0 fun _ => []] :=
  spent_sequence_blocks rfl ⟨rfl, rfl, by decide⟩ _ (by simp)

end AllocatorSession

end Libjingle
