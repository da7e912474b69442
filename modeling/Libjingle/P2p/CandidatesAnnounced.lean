import Libjingle.P2p.CandidateLedger

/-!
# Candidates are announced once (`basicportallocator.cc`)

A candidate is announced by `OnCandidateReady`, when its protocol is enabled, or else by
`OnProtocolEnabled` later. Ports become complete in between, by their own signals or because the
session stops, and the phases of the sequences go on.

## Results

* **`candidates_announced_once`**: for every order of events, each candidate is announced at most
  once and only after its protocol has been enabled; and one that a port has produced before it
  became complete is announced as soon as its protocol is enabled.
-/

namespace Libjingle.AllocatorSession

open Lib

variable {κ : Type*}

/-! ## The ledger of a session -/

/-- What the ledger says about a port. -/
def ledgerPort (d : PortData κ) : LedgerPort κ := ⟨d.port, d.sequence, d.candidates⟩

/-- What a session has in its ledger. States, steps and messages are not in it. -/
def ledger (s : AllocatorSession κ) : Ledger κ :=
  ⟨s.ports.map ledgerPort, s.sequences.map AllocationSequence.protocols, s.nextPort, s.log⟩

/-- Whatever the session does, its ledger goes on in steps. -/
def Refines (protocol : κ → Text) (s s' : AllocatorSession κ) : Prop :=
  Relation.ReflTransGen (Ledger.Step protocol) s.ledger s'.ledger

variable {protocol : κ → Text} {s s' s'' : AllocatorSession κ} {seq port : Nat}
  {proto : ProtocolType} {data : PortData κ}

theorem Refines.refl (s : AllocatorSession κ) : s.Refines protocol s := Relation.ReflTransGen.refl

theorem Refines.trans (h : s.Refines protocol s') (h' : s'.Refines protocol s'') :
    s.Refines protocol s'' := Relation.ReflTransGen.trans h h'

theorem Refines.of_ledger (h : s'.ledger = s.ledger) : s.Refines protocol s' := by
  unfold Refines
  rw [h]

theorem Refines.of_step (h : Ledger.Step protocol s.ledger s'.ledger) : s.Refines protocol s' :=
  Relation.ReflTransGen.single h

theorem refines_foldl {α : Type*} {f : AllocatorSession κ → α → AllocatorSession κ}
    (hf : ∀ s a, Refines protocol s (f s a)) (l : List α) : s.Refines protocol (l.foldl f s) := by
  induction l generalizing s with
  | nil => exact .refl s
  | cons a l ih => exact (hf s a).trans ih

/-! ## What is not in the ledger -/

theorem setSequence_ledger {f : AllocationSequence → AllocationSequence}
    {g : List ProtocolType → List ProtocolType} (hf : ∀ q, (f q).protocols = g q.protocols) :
    (s.setSequence seq f).ledger =
      { s.ledger with protocols := s.ledger.protocols.modify seq g } := by
  have hmap : (s.sequences.modify seq f).map AllocationSequence.protocols =
      (s.sequences.map AllocationSequence.protocols).modify seq g := by
    refine List.ext_getElem? fun i => ?_
    rw [List.getElem?_map, List.getElem?_modify, List.getElem?_modify, List.getElem?_map]
    cases s.sequences[i]? with
    | none => rfl
    | some q =>
      by_cases hi : seq = i
      · simp [hi, hf]
      · simp [hi]
  unfold ledger setSequence
  rw [hmap]

theorem setSequence_refines {f : AllocationSequence → AllocationSequence}
    (hf : ∀ q, (f q).protocols = q.protocols) : s.Refines protocol (s.setSequence seq f) := by
  refine .of_ledger ?_
  rw [setSequence_ledger (g := id) hf, List.modify_id]

variable {f : PortData κ → PortData κ}

theorem setPort_ledger (hf : ∀ d, ledgerPort (f d) = ledgerPort d) :
    (s.setPort port f).ledger = s.ledger := by
  unfold ledger setPort
  rw [List.map_map]
  have hmap : ledgerPort ∘ (fun d => if d.port = port then f d else d) = ledgerPort := by
    funext d
    rw [Function.comp_apply]
    split
    · exact hf d
    · rfl
  rw [hmap]

theorem mapSequences_ledger {f : AllocationSequence → AllocationSequence}
    (hf : ∀ q, (f q).protocols = q.protocols) :
    { s with sequences := s.sequences.map f }.ledger = s.ledger := by
  unfold ledger
  rw [List.map_map]
  exact congrArg (Ledger.mk _ · _ _) (List.map_congr_left fun q _ => hf q)

theorem protocolEnabled_iff :
    s.protocolEnabled seq proto = true ↔ proto ∈ s.ledger.protocolsOf seq := by
  unfold protocolEnabled Ledger.protocolsOf ledger
  rw [List.getElem?_map]
  cases s.sequences[seq]? <;> simp

theorem findPort_eq_some (h : s.findPort port = some data) : data ∈ s.ports ∧ data.port = port :=
  ⟨List.mem_of_find?_eq_some h, of_decide_eq_true (List.find?_some (p := fun d : PortData κ =>
    decide (d.port = port)) h)⟩

theorem findPort_setPort (hf : ∀ d, (f d).port = d.port)
    (h : s.findPort port = some data) : (s.setPort port f).findPort port = some (f data) := by
  unfold findPort setPort at *
  rw [List.find?_map]
  have hsame : ((fun d => decide (d.port = port)) ∘ fun d => if d.port = port then f d else d) =
      fun d : PortData κ => decide (d.port = port) := by
    funext d
    rw [Function.comp_apply]
    split
    · rw [hf d]
    · rfl
  rw [hsame, h, Option.map_some, if_pos (findPort_eq_some h).2]

/-! ## Signals -/

theorem maybeSignal_refines (s : AllocatorSession κ) :
    s.Refines protocol s.maybeSignalCandidatesAllocationDone := by
  unfold maybeSignalCandidatesAllocationDone
  split
  · exact .refl s
  · split
    · exact .refl s
    · split
      · exact .refl s
      · exact .of_step (.allocationDone s.ledger)

theorem onPortReady_refines (s : AllocatorSession κ) (port : Nat) :
    s.Refines protocol (s.onPortReady port) := by
  unfold onPortReady
  split
  · exact .refl s
  · split
    · exact .refl s
    · have hstate : s.Refines protocol (s.setPort port fun d => { d with state := .ready }) :=
        .of_ledger (setPort_ledger fun _ => rfl)
      have hsignal : ∀ s : AllocatorSession κ, s.Refines protocol (s.record (.portReady port)) :=
        fun s => .of_step (.portReady s.ledger port)
      exact (hstate.trans (hsignal _)).trans (maybeSignal_refines _)

theorem onAddressError_refines (s : AllocatorSession κ) (port : Nat) :
    s.Refines protocol (s.onAddressError port) := by
  unfold onAddressError
  split
  · exact .refl s
  · split
    · exact .refl s
    · have hstate : s.Refines protocol (s.setPort port fun d => { d with state := .error }) :=
        .of_ledger (setPort_ledger fun _ => rfl)
      exact hstate.trans (maybeSignal_refines _)

theorem onPortDestroyed_refines (s : AllocatorSession κ) (port : Nat) :
    s.Refines protocol (s.onPortDestroyed port) := by
  unfold onPortDestroyed
  split
  · exact .refl s
  · rename_i data hfind
    obtain ⟨hmem, rfl⟩ := findPort_eq_some hfind
    refine .of_step ?_
    have hstep : Ledger.Step protocol s.ledger _ := .destroyPort s.ledger data.port
      (List.mem_map_of_mem (List.mem_map_of_mem hmem))
    convert hstep using 1
    unfold ledger record
    rw [List.filter_map]
    rfl

theorem addAllocatedPort_refines (s : AllocatorSession κ) (seq : Nat) :
    s.Refines protocol (s.addAllocatedPort seq) := by
  unfold addAllocatedPort
  split
  · refine .of_step ?_
    have hstep : Ledger.Step protocol s.ledger _ := .addPort s.ledger seq
    convert hstep using 1
    unfold ledger record
    rw [List.map_append]
    rfl
  · exact .refl s

/-! ## Candidates -/

theorem protocolEnabled_candidate {c : κ} :
    (stringToProto (protocol c)).any (s.protocolEnabled seq) = true ↔
      s.ledger.Enabled protocol seq c := by
  unfold Ledger.Enabled
  rw [Option.any_eq_true]
  constructor
  · rintro ⟨proto, hproto, henabled⟩
    exact ⟨proto, protocolEnabled_iff.mp henabled, hproto⟩
  · rintro ⟨proto, henabled, hproto⟩
    exact ⟨proto, hproto, protocolEnabled_iff.mpr henabled⟩

theorem produced_ledger (s : AllocatorSession κ) (port : Nat) (c : κ) (complete : Bool) :
    ((s.setPort port fun d => { d with candidates := d.candidates ++ [c] }).record
      (.produced port c complete)).ledger = { s.ledger with
        ports := s.ledger.ports.map fun d =>
          if d.port = port then { d with candidates := d.candidates ++ [c] } else d
        log := s.log ++ [.produced port c complete] } := by
  unfold ledger record setPort
  rw [List.map_map, List.map_map]
  refine congrArg (Ledger.mk · _ _ _) (List.map_congr_left fun d _ => ?_)
  rw [Function.comp_apply, Function.comp_apply]
  by_cases hport : d.port = port
  · rw [if_pos hport, if_pos (show (ledgerPort d).port = port from hport)]
    rfl
  · rw [if_neg hport, if_neg (show (ledgerPort d).port ≠ port from hport)]

/-- `OnCandidateReady` announces a candidate that has just been produced, or it does not. -/
theorem onCandidateReady_refines (hfind : s.findPort port = some data) (c : κ) :
    s.Refines protocol (((s.setPort port fun d =>
      { d with candidates := d.candidates ++ [c] }).record
        (.produced port c data.complete)).onCandidateReady protocol port c) := by
  obtain ⟨hmem, rfl⟩ := findPort_eq_some hfind
  have hledger := produced_ledger s data.port c data.complete
  generalize hs' : (s.setPort data.port fun d =>
    { d with candidates := d.candidates ++ [c] }).record
      (.produced data.port c data.complete) = s' at hledger ⊢
  have hfind' : s'.findPort data.port =
      some { data with candidates := data.candidates ++ [c] } := by
    rw [← hs']
    exact findPort_setPort (fun _ => rfl) hfind
  have henabled : s'.protocolEnabled data.sequence = s.protocolEnabled data.sequence := by
    rw [← hs']
    rfl
  have hd : ledgerPort data ∈ s.ledger.ports := List.mem_map_of_mem hmem
  unfold onCandidateReady
  rw [hfind']
  dsimp only
  have hsame : PortData.complete { data with candidates := data.candidates ++ [c] } =
    data.complete := rfl
  rw [henabled, hsame]
  by_cases hcomplete : data.complete = true
  · have hstep : Ledger.Step protocol s.ledger _ := .produce s.ledger (ledgerPort data) c
      data.complete [] hd (by simp [hcomplete]) (by simp)
    rw [if_pos hcomplete]
    refine .of_step ?_
    rw [hledger]
    rwa [announcement_nil, List.append_nil] at hstep
  · rw [if_neg hcomplete]
    split
    · rename_i hany
      have hopen := protocolEnabled_candidate.mp hany
      have hstep : Ledger.Step protocol s.ledger _ := .produce s.ledger (ledgerPort data) c
        data.complete [c] hd (by simp) (by simp [hcomplete, ledgerPort, hopen])
      refine .of_step ?_
      have hrecord : (s'.record (.candidatesReady [c])).ledger =
        { s'.ledger with log := s'.ledger.log ++ announcement [c] } := rfl
      rw [hrecord, hledger]
      exact hstep
    · rename_i hany
      have hclosed := protocolEnabled_candidate.not.mp hany
      have hstep : Ledger.Step protocol s.ledger _ := .produce s.ledger (ledgerPort data) c
        data.complete [] hd (by simp [ledgerPort, hclosed]) (by simp)
      refine .of_step ?_
      rw [hledger]
      rwa [announcement_nil, List.append_nil] at hstep

theorem addAddress_refines (s : AllocatorSession κ) (port : Nat) (c : κ) (final : Bool) :
    s.Refines protocol (s.addAddress protocol port c final) := by
  unfold addAddress
  split
  · exact .refl s
  · rename_i data hfind
    have hproduced : s.Refines protocol _ := onCandidateReady_refines hfind c
    split
    · exact hproduced.trans (onPortReady_refines _ port)
    · exact hproduced

theorem act_refines (s : AllocatorSession κ) (a : PortAction κ) :
    s.Refines protocol (s.act protocol a) := by
  cases a with
  | addAllocatedPort seq => exact addAllocatedPort_refines s seq
  | addAddress port c final => exact addAddress_refines s port c final
  | addressReady port => exact onPortReady_refines s port
  | addressError port => exact onAddressError_refines s port
  | destroyed port => exact onPortDestroyed_refines s port

/-! ## Protocols -/

theorem onProtocolEnabled_ledger (s : AllocatorSession κ) (seq : Nat) (proto : ProtocolType) :
    (s.onProtocolEnabled protocol seq proto).ledger = { s.ledger with
      log := s.log ++ announcement (s.ledger.scan protocol seq proto) } := by
  have hscan : ((s.ports.filter fun d => d.sequence = seq).flatMap fun d =>
      d.candidates.filter fun c => stringToProto (protocol c) = some proto) =
      s.ledger.scan protocol seq proto := by
    unfold Ledger.scan ledger
    rw [List.filter_map, List.flatMap_map]
    rfl
  unfold onProtocolEnabled announcement
  rw [hscan]
  dsimp only
  split
  · rfl
  · rw [List.append_nil]
    rfl

theorem enableProtocol_refines (s : AllocatorSession κ) (seq : Nat) (proto : ProtocolType) :
    s.Refines protocol (s.enableProtocol protocol seq proto) := by
  unfold enableProtocol
  split
  · rename_i hnew
    obtain ⟨hseq, hnew⟩ := hnew
    rw [protocolEnabled_iff] at hnew
    have hstep : Ledger.Step protocol s.ledger _ := .enable s.ledger seq proto
      (by rwa [ledger, List.length_map]) hnew
    refine .of_step ?_
    have hledger : ((s.setSequence seq fun q =>
        { q with protocols := q.protocols ++ [proto] }).record (.enabled seq proto)).ledger =
        { s.ledger with
          protocols := s.ledger.protocols.modify seq fun ps => ps ++ [proto]
          log := s.log ++ [.enabled seq proto] } := by
      have := @setSequence_ledger κ s seq
        (fun q => { q with protocols := q.protocols ++ [proto] }) (fun ps => ps ++ [proto])
        fun _ => rfl
      exact congrArg (fun l : Ledger κ =>
        { l with log := l.log ++ [AllocatorEntry.enabled seq proto] }) this
    dsimp only
    rw [onProtocolEnabled_ledger, hledger]
    exact hstep
  · exact .refl s

/-! ## Phases -/

theorem perform_refines (s : AllocatorSession κ) (seq : Nat) (phase : AllocationPhase)
    (created : List (PortAction κ)) :
    s.Refines protocol (s.perform protocol seq phase created) := by
  have hcreated : s.Refines protocol (created.foldl (act protocol) s) :=
    refines_foldl act_refines created
  cases phase with
  | udp => exact hcreated.trans (enableProtocol_refines _ seq .udp)
  | relay => exact hcreated
  | tcp => exact hcreated.trans (enableProtocol_refines _ seq .tcp)
  | ssltcp =>
    unfold perform
    have hcompleted : s.Refines protocol
        (s.setSequence seq fun q => { q with state := .completed }) :=
          setSequence_refines fun _ => rfl
    have henabled := hcompleted.trans (enableProtocol_refines _ seq .ssltcp)
    have hcleared : s.Refines protocol (setSequence _ seq
        fun q => { q with pending := 0, state := .completed }) :=
      henabled.trans (setSequence_refines fun _ => rfl)
    dsimp only
    split
    · exact hcleared.trans (maybeSignal_refines _)
    · exact hcleared

theorem onMessage_refines (s : AllocatorSession κ) (seq : Nat)
    (created : AllocationPhase → List (PortAction κ)) :
    s.Refines protocol (s.onMessage protocol seq created) := by
  unfold onMessage
  split
  · exact .refl s
  · refine (refines_foldl (fun s phase => ?_) AllocationPhase.all).trans
      (setSequence_refines fun _ => rfl)
    split
    · exact perform_refines s seq phase (created phase)
    · exact .refl s

theorem newSequence_refines (s : AllocatorSession κ) (best : Int)
    (created : AllocationPhase → List (PortAction κ)) :
    s.Refines protocol (s.newSequence protocol best created) := by
  have hnew : s.Refines protocol
      { s with sequences := s.sequences ++ [⟨.init, 0, best.toNat, [], 0, false⟩] } := by
    refine .of_step ?_
    have hstep : Ledger.Step protocol s.ledger _ := .newSequence s.ledger
    convert hstep using 1
    unfold ledger
    rw [List.map_append]
    rfl
  refine (hnew.trans (onMessage_refines _ s.sequences.length created)).trans
    (setSequence_refines fun q => ?_)
  split <;> rfl

/-! ## The session -/

theorem onConfigStop_refines (s : AllocatorSession κ) : s.Refines protocol s.onConfigStop := by
  have hstate : s.Refines protocol { s with ports := s.ports.map fun d =>
      if d.complete then d else { d with state := .error } } := by
    refine .of_ledger ?_
    unfold ledger
    rw [List.map_map]
    refine congrArg (Ledger.mk · _ _ _) (List.map_congr_left fun d _ => ?_)
    rw [Function.comp_apply]
    split <;> rfl
  unfold onConfigStop
  dsimp only
  split
  · exact hstate.trans (maybeSignal_refines _)
  · exact hstate

/-- **Every event refines steps of the ledger.** -/
theorem step_refines (s : AllocatorSession κ) (e : Event κ) :
    s.Refines protocol (s.step protocol e) := by
  cases e with
  | newSequence best created => exact newSequence_refines s best created
  | phase seq created =>
    unfold step
    dsimp only
    split
    · have hpending : s.Refines protocol
          (s.setSequence seq fun q => { q with pending := q.pending - 1 }) :=
        setSequence_refines fun _ => rfl
      exact hpending.trans (onMessage_refines _ seq created)
    · exact .refl s
  | port action => exact act_refines s action
  | enableProtocol seq proto => exact enableProtocol_refines s seq proto
  | sequencesCreated => exact maybeSignal_refines { s with sequencesCreated := true }
  | start =>
    refine .of_ledger (@mapSequences_ledger κ { s with running := true } _ fun q => ?_)
    split <;> rfl
  | stop =>
    refine .of_ledger (@mapSequences_ledger κ { s with running := false } _ fun q => ?_)
    unfold stopSequence
    split
    · split <;> rfl
    · rfl
  | configStop => exact onConfigStop_refines s

theorem run_refines (s : AllocatorSession κ) (es : List (Event κ)) :
    s.Refines protocol (s.run protocol es) := refines_foldl step_refines es

/-- **Candidates are announced once**: for every order of events in which the ports produce distinct
candidates, each candidate is in `SignalCandidatesReady` at most once, and then its protocol has
been enabled for the sequence of its port. One that a port has produced before it became complete is
there exactly once when its protocol is enabled; the signal comes right behind the later of the
two. -/
theorem candidates_announced_once [DecidableEq κ] (protocol : κ → Text) (es : List (Event κ))
    (hdistinct : Distinct (new.run protocol es).log) :
    (∀ c, (announced (new.run protocol es).log).count c ≤ 1) ∧
      (∀ pre cs post, (new.run protocol es).log = pre ++ .candidatesReady cs :: post →
        ∀ c ∈ cs, Open protocol pre c) ∧
      (∀ c, Due protocol (new.run protocol es).log c →
        (announced (new.run protocol es).log).count c = 1) ∧
      ∀ pre e post, (new.run protocol es).log = pre ++ e :: post →
        ∀ c, Due protocol (pre ++ [e]) c → ¬ Due protocol pre c →
          ∃ cs post', post = .candidatesReady cs :: post' ∧ c ∈ cs := by
  have hsound : (new.run protocol es).ledger.Sound protocol :=
    Ledger.Sound.new.steps (run_refines new es) hdistinct
  have hannounced := hsound.announced
  refine ⟨List.nodup_iff_count_le_one.mp hannounced.once, hannounced.gated, fun c hdue => ?_,
    hannounced.prompt⟩
  exact List.count_eq_one_of_mem hannounced.once (hannounced.passed c hdue)

theorem candidates_announced_once_sample :
    let protocol : Nat → Text := fun c => if c = 0 then "udp".toList else "tcp".toList
    let log := (new.run protocol [.newSequence (-1) fun _ => [], .port (.addAllocatedPort 0),
      .port (.addAddress 0 0 false), .port (.addAddress 0 1 true), .start, .phase 0 fun _ => [],
      .phase 0 fun _ => [], .stop, .configStop]).log
    Distinct log ∧ log.take 5 = [.enabled 0 .udp, .portAdded 0 0, .produced 0 0 false,
      .candidatesReady [0], .produced 0 1 false] ∧ (announced log).count 1 = 1 := by
  intro protocol log
  have hdistinct : Distinct log := by
    unfold Distinct
    decide
  have hdue : Due protocol log 1 :=
    ⟨0, 0, .tcp, by decide, by decide, by decide, by decide, by decide⟩
  exact ⟨hdistinct, by decide, (candidates_announced_once protocol _ hdistinct).2.2.1 1 hdue⟩

end Libjingle.AllocatorSession
