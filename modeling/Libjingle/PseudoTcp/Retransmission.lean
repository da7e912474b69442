import Libjingle.PseudoTcp.AckDuty

/-!
# Retransmissions in every run

Whatever the calls and the packets, a retransmission from `m_slist.begin()` finds a segment that
has been sent before, and so it leaves `m_snd_nxt` alone. `Assertions.lean` says the first part
for senders whose CONNECT message fits in the send buffer; here there is no such condition.

## Results

* **`reach_steady`**: `Steady` holds in every state reached.
-/

namespace Libjingle

open Lib

/-! ## The timer -/

/-- The retransmit timer runs only while an entry has been sent. -/
def TimerBacked (o : Outgoing) : Prop := o.rtoBase ≠ 0 → ∃ e ∈ o.slist, e.xmit ≠ 0

theorem SentFirst.front {e : SSegment} {l : List SSegment} (h : SentFirst l) (he : e ∈ l)
    (hx : e.xmit ≠ 0) : ∃ front rest, l = front :: rest ∧ front.xmit ≠ 0 := by
  cases l with
  | nil => cases he
  | cons front rest =>
    refine ⟨front, rest, rfl, fun h0 => ?_⟩
    rcases List.mem_cons.mp he with rfl | he
    · exact hx h0
    · exact hx ((sentFirst_cons.mp h).1 e he h0)

theorem mem_pushSegment {e fresh : SSegment} {l : List SSegment} (he : e ∈ l) (hx : e.xmit ≠ 0) :
    e ∈ Outgoing.pushSegment l fresh := by
  unfold Outgoing.pushSegment
  split
  · rename_i last hlast
    split
    · rename_i hsame
      have hl := List.dropLast_append_getLast? last hlast
      rw [← hl] at he
      rcases List.mem_append.mp he with he | he
      · exact List.mem_append_left _ he
      · exact absurd (List.mem_singleton.mp he ▸ hsame.2) hx
    · exact List.mem_append_left _ he
  · exact List.mem_append_left _ he

theorem TimerBacked.step {r : Rely} {o o' : Outgoing} (h : TimerBacked o) (hlen : Lengths o)
    (hs : SendStep r o o') : TimerBacked o' := by
  have hlen' := hlen.step hs
  cases hs with
  | note e he => exact h
  | emit p w hh hp => exact h
  | cut l₁ l₂ seg n hl hx hn =>
    intro hrto
    have hrto' : o.rtoBase ≠ 0 := by
      rw [cut_eq hl] at hrto
      split at hrto <;> exact hrto
    obtain ⟨e, he, hne⟩ := h hrto'
    refine ⟨e, ?_, hne⟩
    rw [cut_eq hl]
    split
    · rw [hl] at he
      simp only [List.mem_append, List.mem_cons] at he ⊢
      rcases he with he | rfl | he
      · exact .inl (.inl he)
      · exact absurd hx hne
      · exact .inr he
    · exact he
  | transmit l₁ l₂ seg n now p w hl hsent hx hh hp hc hwhy =>
    intro _
    rw [transmitted_eq (o := { o with written := ⟨p, w⟩ :: o.written }) hl hp.le]
    refine ⟨{ seg with len := n, xmit := seg.xmit + 1 }, ?_, ?_⟩
    · exact List.mem_append_left _ (List.mem_append_right _ List.mem_cons_self)
    · simp only
      bv_omega
  | queue data len bCtrl hn hq =>
    intro hrto
    obtain ⟨e, he, hne⟩ := h hrto
    exact ⟨e, mem_pushSegment he hne, hne⟩
  | greet w hw hq => exact h
  | window w ha => exact h
  | ack ack w now h₁ h₂ hc ha =>
    intro hrto
    obtain ⟨b, -, heq⟩ := acked_eq hlen h₁ h₂ w now
    have hne : (o.acked ack w now).sndUna ≠ (o.acked ack w now).sndNxt := by
      rw [heq] at hrto ⊢
      intro hdone
      exact hrto (if_pos hdone)
    obtain ⟨front, rest, hl, hx⟩ := hlen'.front_sent hne
    exact ⟨front, hl ▸ List.mem_cons_self, hx⟩
  | timer now hr hc => exact fun _ => h hr
  | resize mem size hsz => exact h

namespace PseudoTcp

variable {env : Env} {s s' s'' : PseudoTcp} {seg : Segment}

/-! ## The invariant -/

/-- What a retransmission counts on. -/
structure Steady (s : PseudoTcp) : Prop where
  lengths : Lengths s.toOutgoing
  armed : TimerBacked s.toOutgoing
  recover : s.state ≠ .closed → s.dupAcks ≥ 3 → Ahead s.recover s.toOutgoing

/-- A stage made steps of the send path and left the recovery alone. -/
structure Advances (s s' : PseudoTcp) : Prop where
  steps : SendSteps anyRely s.toOutgoing s'.toOutgoing
  dupAcks : s'.dupAcks = s.dupAcks
  recover : s'.recover = s.recover
  opened : s'.state ≠ .closed → s.state ≠ .closed

theorem Advances.refl (s : PseudoTcp) : Advances s s := ⟨.refl, rfl, rfl, id⟩

theorem Advances.trans (h : Advances s s') (h' : Advances s' s'') : Advances s s'' :=
  ⟨h.steps.trans h'.steps, h'.dupAcks.trans h.dupAcks, h'.recover.trans h.recover,
    h.opened ∘ h'.opened⟩

theorem Sends.advances (h : Sends anyRely s s') : Advances s s' :=
  ⟨h.steps, h.dupAcks, h.recover, fun hopen => h.state ▸ hopen⟩

variable {o : Outgoing}

theorem Steady.out (hl : Lengths s.toOutgoing) (ha : TimerBacked s.toOutgoing)
    (hs : SendSteps anyRely s.toOutgoing o) : Lengths o ∧ TimerBacked o := by
  refine SendSteps.induct (P := fun o => Lengths o ∧ TimerBacked o) ?_ hs ⟨hl, ha⟩
  intro o o' hstep ih
  exact ⟨ih.1.step hstep, ih.2.step ih.1 hstep⟩

theorem Steady.advances (h : Steady s) (ha : Advances s s') : Steady s' := by
  obtain ⟨hl, harmed⟩ := Steady.out h.lengths h.armed ha.steps
  refine ⟨hl, harmed, fun hopen hdup => ?_⟩
  rw [ha.dupAcks] at hdup
  rw [ha.recover]
  exact (h.recover (ha.opened hopen) hdup).steps h.lengths ha.steps

theorem steady_new (conv now : U32) (rmem smem : Nat → U8) : Steady (new conv now rmem smem) where
  lengths := (good_new conv now rmem smem).accounts.toLengths
  armed h := absurd rfl h
  recover _ h := absurd h (show ¬ (0 : U8) ≥ 3 by decide)

theorem serves_any (env : Env) (s : PseudoTcp) : Serves anyRely env s :=
  ⟨trivial, fun _ => trivial⟩

/-! ## `transmit` and `m_snd_nxt` -/

variable {e : SSegment}

theorem transmitPacket_out (env : Env) (he : e ∈ s.slist) :
    ∃ L W, (s.transmitPacket env e).1.toOutgoing =
      { s.toOutgoing with log := L, written := W } := by
  rcases transmitPacket_cases (serves_any env s) he with ⟨n, -, -, htr⟩ | ⟨-, htried⟩
  · obtain ⟨L, W, p, w, -, hout, -⟩ := htr.out
    exact ⟨L, _, hout⟩
  · exact htried.lists

/-- `transmit` moves `m_snd_nxt` only for a segment that has not been sent, by at most its
length. -/
theorem transmit_sndNxt (env : Env) {i : Nat} (he : s.slist[i]? = some e) (now : U32) :
    (s.transmit env i now).1.sndUna = s.sndUna ∧
      ((s.transmit env i now).1.sndNxt = s.sndNxt ∨
        e.xmit = 0 ∧ ∃ n ≤ e.len, (s.transmit env i now).1.sndNxt = s.sndNxt + n) := by
  unfold transmit
  rw [he]
  simp only
  by_cases hlimit : e.xmit ≥ (if s.state = .established then 15 else 30)
  · rw [if_pos hlimit]
    exact ⟨rfl, .inl rfl⟩
  rw [if_neg hlimit]
  obtain ⟨L, W, hout⟩ := transmitPacket_out env (List.mem_of_getElem? he)
  generalize s.transmitPacket env e = q at hout ⊢
  obtain ⟨s₁, sent⟩ := q
  have hout : s₁.toOutgoing = { s.toOutgoing with log := L, written := W } := hout
  cases sent with
  | none =>
    simp only
    rw [hout]
    exact ⟨rfl, .inl rfl⟩
  | some n =>
    simp only [Outgoing.transmitted]
    rw [hout]
    refine ⟨rfl, ?_⟩
    by_cases hx : e.xmit = 0
    · refine .inr ⟨hx, _, ?_, if_pos hx⟩
      split
      · rename_i hlt
        exact BitVec.le_of_lt hlt
      · exact BitVec.le_refl _
    · exact .inl (if_neg hx)

/-- **A retransmission of a segment that has been sent leaves `m_snd_nxt` alone.** -/
theorem retransmit_sndNxt (env : Env) (now : U32)
    (h : ∃ front rest, s.slist = front :: rest ∧ front.xmit ≠ 0) :
    (s.retransmit env now).1.sndNxt = s.sndNxt := by
  obtain ⟨front, rest, hl, hx⟩ := h
  unfold retransmit
  split
  · rfl
  · rename_i front' rest' hl'
    obtain ⟨rfl, rfl⟩ := List.cons.inj (hl.symm.trans hl')
    have he : (s.note (.retransmit front.xmit)).slist[0]? = some front := by
      show s.slist[0]? = some front
      rw [hl]
      rfl
    exact (transmit_sndNxt env he now).2.resolve_right fun h => hx h.1

theorem retransmit_sent (env : Env) (s : PseudoTcp) (now : U32) :
    Sends anyRely s (s.retransmit env now).1 :=
  retransmit_sends (serves_any env s) False.elim False.elim trivial

/-! ## Acknowledgements -/

theorem Steady.closedown (hl : Lengths s.toOutgoing) (ha : TimerBacked s.toOutgoing)
    (hs : SendSteps anyRely s.toOutgoing o) (h' : s'.toOutgoing = o) (err : TcpError) :
    Steady (s'.closedown err) := by
  obtain ⟨hl', ha'⟩ := Steady.out hl ha hs
  rw [← h'] at hl' ha'
  exact ⟨⟨hl'.opened, hl'.total, hl'.sentFirst, hl'.inFlight⟩, ha', fun hopen => absurd rfl hopen⟩

theorem countDupAck_steady (env : Env) (h : Steady s) (hopen : s.state ≠ .closed)
    (hne : s.sndUna ≠ s.sndNxt) (now : U32) :
    Steady (s.countDupAck env now).1 ∧ (s.countDupAck env now).1.sndNxt = s.sndNxt := by
  unfold countDupAck
  simp only
  by_cases hthird : s.dupAcks + 1 = 3
  · rw [if_pos hthird]
    have hsent := retransmit_sent env { s with dupAcks := s.dupAcks + 1 } now
    have hnxt := retransmit_sndNxt (s := { s with dupAcks := s.dupAcks + 1 }) env now
      (h.lengths.front_sent hne)
    generalize ({ s with dupAcks := s.dupAcks + 1 }).retransmit env now = q at hsent hnxt ⊢
    obtain ⟨s₁, ok⟩ := q
    cases ok with
    | false => exact ⟨Steady.closedown h.lengths h.armed hsent.steps rfl _, hnxt⟩
    | true =>
      obtain ⟨hl, ha⟩ := Steady.out h.lengths h.armed hsent.steps
      exact ⟨⟨hl, ha, fun _ _ _ => BitVec.le_refl _⟩, hnxt⟩
  · rw [if_neg hthird]
    split
    · rename_i hmore
      refine ⟨⟨h.lengths, h.armed, fun _ _ => h.recover hopen ?_⟩, rfl⟩
      bv_omega
    · rename_i hless
      refine ⟨⟨h.lengths, h.armed, fun _ hdup => ?_⟩, rfl⟩
      exact absurd hdup (by simp only; bv_omega)

theorem congestionAck_steady (env : Env) (h : Steady s) (hopen : s.state ≠ .closed)
    (hle : s.sndUna ≤ s.sndNxt) (now nAcked : U32) :
    Steady (s.congestionAck env now nAcked).1 ∧
      (s.congestionAck env now nAcked).1.sndNxt = s.sndNxt := by
  have hless : ¬ (0 : U8) ≥ 3 := by decide
  unfold congestionAck
  split
  · rename_i hdup
    split
    · exact ⟨⟨h.lengths, h.armed, fun _ hdup => absurd hdup hless⟩, rfl⟩
    · rename_i hpart
      -- `m_recover` is not ahead of `m_snd_nxt`, so something is in flight.
      have hne : s.sndUna ≠ s.sndNxt := by
        have := h.recover hopen hdup hle
        bv_omega
      have hsent := retransmit_sent env s now
      have hnxt := retransmit_sndNxt env now (h.lengths.front_sent hne)
      generalize s.retransmit env now = q at hsent hnxt ⊢
      obtain ⟨s₁, ok⟩ := q
      cases ok with
      | false => exact ⟨Steady.closedown h.lengths h.armed hsent.steps rfl _, hnxt⟩
      | true =>
        have h₁ := h.advances hsent.advances
        exact ⟨⟨h₁.lengths, h₁.armed, h₁.recover⟩, hnxt⟩
  · exact ⟨⟨h.lengths, h.armed, fun _ hdup => absurd hdup hless⟩, rfl⟩

/-- **The acknowledgement keeps the invariant and leaves `m_snd_nxt` alone.** -/
theorem processAck_steady (env : Env) (h : Steady s) (hopen : s.state ≠ .closed) (now : U32)
    (seg : Segment) :
    Steady (s.processAck env now seg).1 ∧ (s.processAck env now seg).1.sndNxt = s.sndNxt := by
  unfold processAck
  split
  · rename_i hnew
    unfold processNewAck
    obtain ⟨hrtt, L, hL⟩ := updateRtt_sends (r := anyRely) (s := s) now seg
    have h₁ := h.advances hrtt.advances
    have hnxt : (s.updateRtt now seg).sndNxt = s.sndNxt := by rw [hL]
    have hstate := hrtt.state
    have huna := hrtt.sndUna
    simp only
    generalize s.updateRtt now seg = s₁ at h₁ hnxt hstate huna ⊢
    have hgt : s₁.sndUna < seg.ack := huna ▸ hnew.1
    have hle : seg.ack ≤ s₁.sndNxt := hnxt ▸ hnew.2
    have hacked : Advances s₁ { s₁ with
        toOutgoing := s₁.toOutgoing.acked seg.ack (s₁.scaledWnd seg) now } :=
      ⟨.single (.ack _ _ _ _ hgt hle trivial trivial), rfl, rfl, id⟩
    obtain ⟨h₂, hnxt₂⟩ := congestionAck_steady env (h₁.advances hacked) (hstate ▸ hopen)
      (show seg.ack ≤ s₁.sndNxt from hle) now (seg.ack - s₁.sndUna)
    exact ⟨h₂, hnxt₂.trans hnxt⟩
  split
  · unfold processDupAck
    simp only
    have hwindow : Advances s { s with sndWnd := s.scaledWnd seg } :=
      ⟨.single (.window _ _ trivial), rfl, rfl, id⟩
    have h₁ := h.advances hwindow
    split
    · exact ⟨h₁, rfl⟩
    split
    · rename_i hne
      exact countDupAck_steady env h₁ hopen hne now
    · exact ⟨⟨h₁.lengths, h₁.armed, fun _ hdup => absurd hdup (show ¬ (0 : U8) ≥ 3 by decide)⟩, rfl⟩
  · exact ⟨h, rfl⟩

/-! ## `process` -/

theorem controlled_advances (env : Env) (hopen : s.state ≠ .closed) (seg : Segment) :
    Advances s (s.controlled env seg) ∧ (s.controlled env seg).sndNxt = s.sndNxt := by
  refine ⟨⟨?_, ?_, ?_, fun _ => hopen⟩, (controlled_sndNxt env s seg).2⟩
  · exact (controlled_moves (r := anyRely) env False.elim (fun _ => trivial) seg).steps
  all_goals
    unfold controlled processControl
    split
    · rfl
    split
    · rfl
    split
    · obtain ⟨-, -, -, -, -, hdup, hrec⟩ := parseOptions_spec env (s.arrive env)
        (fetch (fun k => seg.data (1 + k)) (seg.len - 1).toNat)
      simp only
      split
      · first | exact hdup | exact hrec
      split
      · first | exact hdup | exact hrec
      · first | exact hdup | exact hrec
    · rfl

theorem enterEstablished_advances (s : PseudoTcp) (bConnect : Bool) :
    Advances s (s.enterEstablished bConnect) ∧
      (s.enterEstablished bConnect).sndNxt = s.sndNxt := by
  unfold enterEstablished
  split
  · rename_i h
    refine ⟨⟨.single (.note _ _ fun _ => rfl), rfl, rfl, fun _ => ?_⟩, rfl⟩
    rw [h.1]
    exact TcpState.noConfusion
  · exact ⟨Advances.refl s, rfl⟩

theorem notifyWriteable_sndNxt (s : PseudoTcp) : s.notifyWriteable.sndNxt = s.sndNxt := by
  unfold notifyWriteable
  simp only
  split <;> rfl

/-- **Up to the conditions for an acknowledgement** `process` keeps the invariant and leaves
`m_snd_nxt` alone. -/
theorem atAckConditions_steady (h : Steady s) (hopen : s.state ≠ .closed) (seg : Segment) :
    Steady (s.atAckConditions env seg) ∧ (s.atAckConditions env seg).sndNxt = s.sndNxt := by
  obtain ⟨hcontrol, hnxt⟩ := controlled_advances env hopen seg
  have h₁ := h.advances hcontrol
  have hopen₁ : (s.controlled env seg).state ≠ .closed := by
    have hc : Controls (s.arrive env) (s.controlled env seg) := processControl_controls env _ seg
    exact hc.opened hopen
  obtain ⟨hts, hout⟩ := updateTimestamp_sends (r := anyRely) (s := s.controlled env seg) seg
  have h₂ := h₁.advances hts.advances
  obtain ⟨h₃, hnxt₃⟩ := processAck_steady env h₂ (hts.state ▸ hopen₁) (env.now s.ticks) seg
  unfold atAckConditions
  simp only
  generalize ((s.controlled env seg).updateTimestamp seg).processAck env (env.now s.ticks) seg = q
    at h₃ hnxt₃ ⊢
  generalize ((s.arrive env).processControl env seg).2.getD false = bConnect
  obtain ⟨he, hnxt₄⟩ := enterEstablished_advances q.1 bConnect
  have hw := (notifyWriteable_sends (r := anyRely) (s := q.1.enterEstablished bConnect)).advances
  refine ⟨(h₃.advances he).advances hw, ?_⟩
  rw [notifyWriteable_sndNxt, hnxt₄, hnxt₃, hout, hnxt]

theorem processData_advances (env : Env) (s : PseudoTcp) (seg : Segment) :
    Advances s (s.processData env seg) := by
  unfold processData
  simp only
  generalize s.toIncoming.receive (s.ignoresData seg) seg (s.ackFlags seg) = r
  have hstore : Advances s { s with toIncoming := r.inc } := ⟨.refl, rfl, rfl, id⟩
  have hsend : Sends anyRely { s with toIncoming := r.inc } _ :=
    (attemptSend_sends (serves_any env _) False.elim r.sflags).trans
      (notifyReadable_sends r.newData)
  exact hstore.trans hsend.advances

/-- A segment that is not taken leaves `m_snd_nxt` alone. -/
theorem process_steady (env : Env) (h : Steady s) (seg : Segment) :
    Steady (s.process env seg).1 ∧
      ((s.process env seg).2 = false → (s.process env seg).1.sndNxt = s.sndNxt) := by
  have harrive : Advances s (s.arrive env) := ⟨.refl, rfl, rfl, id⟩
  by_cases hok : (s.process env seg).2 = true
  · have hopen : s.state ≠ .closed := by
      rcases process_cases env s seg with ⟨hadm, -⟩ | ⟨-, hf, -⟩
      · exact hadm.2.1
      · exact absurd (hf.symm.trans hok) Bool.false_ne_true
    refine ⟨?_, fun hf => absurd (hf.symm.trans hok) Bool.false_ne_true⟩
    have hstate : (s.process env seg).1 = (s.atAckConditions env seg).processData env seg := by
      rw [(atAckConditions_hands hok).1]
    rw [hstate]
    have h₁ : Steady (s.atAckConditions env seg) := (atAckConditions_steady h hopen seg).1
    generalize s.atAckConditions env seg = c at h₁ ⊢
    exact h₁.advances (processData_advances env c seg)
  · rcases process_cases env s seg with ⟨hadm, bConnect, he⟩ | ⟨-, -, he | he | ⟨-, he⟩⟩
    · rw [he] at hok ⊢
      obtain ⟨hcontrol, hnxt⟩ := controlled_advances env hadm.2.1 seg
      have hopen₁ : (s.controlled env seg).state ≠ .closed := by
        have hc : Controls (s.arrive env) (s.controlled env seg) :=
          processControl_controls env _ seg
        exact hc.opened hadm.2.1
      obtain ⟨hts, hout⟩ := updateTimestamp_sends (r := anyRely) (s := s.controlled env seg) seg
      have h₂ := (h.advances hcontrol).advances hts.advances
      obtain ⟨h₃, hnxt₃⟩ := processAck_steady env h₂ (hts.state ▸ hopen₁) (env.now s.ticks) seg
      rw [hout] at hnxt₃
      unfold acknowledge at hok ⊢
      generalize ((s.controlled env seg).updateTimestamp seg).processAck env (env.now s.ticks) seg
        = q at hok h₃ hnxt₃ ⊢
      obtain ⟨s₁, ok⟩ := q
      cases ok with
      | false => exact ⟨h₃, fun _ => hnxt₃.trans hnxt⟩
      | true => exact absurd rfl hok
    · rw [he]
      exact ⟨h, fun _ => rfl⟩
    · rw [he]
      exact ⟨h.advances harrive, fun _ => rfl⟩
    · rw [he]
      have hsame : (s.arrive env).toOutgoing = s.toOutgoing := rfl
      exact ⟨Steady.closedown h.lengths h.armed .refl hsame _, fun _ => rfl⟩

/-! ## The other calls -/

theorem checkRetransmit_steady (env : Env) (h : Steady s) (now : U32) :
    Steady (s.checkRetransmit env now).1 ∧ (s.checkRetransmit env now).1.sndNxt = s.sndNxt := by
  unfold checkRetransmit
  split
  · rename_i hdue
    obtain ⟨e, he, hx⟩ := h.armed hdue.1
    have hfront := h.lengths.sentFirst.front he hx
    split
    · rename_i hnil
      rw [hnil] at he
      cases he
    · have hsent := retransmit_sent env s now
      have hnxt := retransmit_sndNxt env now hfront
      generalize s.retransmit env now = q at hsent hnxt ⊢
      obtain ⟨s₁, ok⟩ := q
      cases ok with
      | false => exact ⟨Steady.closedown h.lengths h.armed hsent.steps rfl _, hnxt⟩
      | true =>
        have h₁ := h.advances hsent.advances
        have hstep : SendSteps anyRely s₁.toOutgoing { s₁.toOutgoing with rtoBase := now } :=
          .single (.timer _ _ (hsent.rtoBase hdue.1) trivial)
        obtain ⟨hl, ha⟩ := Steady.out h₁.lengths h₁.armed hstep
        exact ⟨⟨hl, ha, fun hopen hdup => (h₁.recover hopen hdup).steps h₁.lengths hstep⟩, hnxt⟩
  · exact ⟨h, rfl⟩

theorem packet_sndNxt (env : Env) (s : PseudoTcp) (seq : U32) (flags : U8) (offset len : U32) :
    (s.packet env seq flags offset len).1.sndNxt = s.sndNxt := by
  rw [packet_out]
  rfl

theorem checkProbe_steady (env : Env) (h : Steady s) (now : U32) :
    Steady (s.checkProbe env now).1 ∧ (s.checkProbe env now).1.sndNxt = s.sndNxt := by
  unfold checkProbe
  split
  · split
    · exact ⟨Steady.closedown h.lengths h.armed .refl rfl _, rfl⟩
    · have h₁ := h.advances (packet_ack_sends (serves_any env s) (s.sndNxt - 1)).advances
      exact ⟨⟨h₁.lengths, h₁.armed, h₁.recover⟩, packet_sndNxt env s _ _ _ _⟩
  · exact ⟨h, rfl⟩

/-- **`NotifyClock` keeps the invariant and leaves `m_snd_nxt` alone.** -/
theorem notifyClock_steady (env : Env) (h : Steady s) (now : U32) :
    Steady (s.notifyClock env now) ∧ (s.notifyClock env now).sndNxt = s.sndNxt := by
  unfold notifyClock
  split
  · exact ⟨h, rfl⟩
  obtain ⟨h₁, hnxt₁⟩ := checkRetransmit_steady env h now
  generalize s.checkRetransmit env now = q at h₁ hnxt₁ ⊢
  obtain ⟨s₁, ok⟩ := q
  cases ok with
  | false => exact ⟨h₁, hnxt₁⟩
  | true =>
    obtain ⟨h₂, hnxt₂⟩ := checkProbe_steady env h₁ now
    simp only
    generalize s₁.checkProbe env now = q at h₂ hnxt₂ ⊢
    obtain ⟨s₂, ok⟩ := q
    cases ok with
    | false => exact ⟨h₂, hnxt₂.trans hnxt₁⟩
    | true =>
      refine ⟨h₂.advances (checkDelayedAck_sends (serves_any env s₂) now).advances, ?_⟩
      have hdelayed : (s₂.checkDelayedAck env now).sndNxt = s₂.sndNxt := by
        unfold checkDelayedAck
        split
        · exact packet_sndNxt env s₂ _ _ _ _
        · rfl
      exact hdelayed.trans (hnxt₂.trans hnxt₁)

theorem connect_advances (env : Env) (s : PseudoTcp) : Advances s (s.connect env).1 := by
  unfold connect
  split
  · exact ⟨.refl, rfl, rfl, id⟩
  · rename_i hlisten
    rw [not_not] at hlisten
    have hqueue : Advances s ({ s with state := .synSent } : PseudoTcp).queueConnectMessage :=
      ⟨queueConnectMessage_steps (s := { s with state := .synSent }) trivial False.elim, rfl, rfl,
        fun _ => by rw [hlisten]; exact TcpState.noConfusion⟩
    exact hqueue.trans (attemptSend_sends (serves_any env _) False.elim .none).advances

theorem send_advances (env : Env) (s : PseudoTcp) (buffer : Nat → U8) (len : Nat) :
    Advances s (s.send env buffer len).1 := by
  unfold send
  split
  · exact ⟨.refl, rfl, rfl, id⟩
  split
  · exact ⟨.refl, rfl, rfl, id⟩
  · have hqueue : Advances s (s.queue buffer (BitVec.ofNat 32 len) false).1 :=
      ⟨.single (.queue _ _ _ _ trivial False.elim), rfl, rfl, id⟩
    exact hqueue.trans (attemptSend_sends (serves_any env _) False.elim .none).advances

theorem recv_advances (env : Env) (s : PseudoTcp) (len : Nat) : Advances s (s.recv env len).1 := by
  unfold recv
  split
  · exact ⟨.refl, rfl, rfl, id⟩
  split
  · exact ⟨.refl, rfl, rfl, id⟩
  · rename_i result out rbuf _ _
    simp only
    have hopen : ∀ i : Incoming, Advances s
        { s.assert (result = .success) .recvRead with toIncoming := i } :=
      fun _ => ⟨assert_steps _ _ rfl, rfl, rfl, id⟩
    split
    · exact (hopen _).trans (attemptSend_sends (serves_any env _) False.elim .immediateAck).advances
    · exact hopen _

theorem setOption_advances (env : Env) (s : PseudoTcp) (opt : TcpOption) (value : U32) :
    Advances s (s.setOption env opt value) := by
  have h := (setOption_moves (r := anyRely) (s := s) env False.elim opt value False.elim).steps
  cases opt <;> exact ⟨h, rfl, rfl, id⟩

/-- **Every call keeps the invariant.** -/
theorem call_steady (env : Env) (h : Steady s) (c : Call) : Steady (s.call env c) := by
  cases c with
  | connect => exact h.advances (connect_advances env s)
  | send buffer len => exact h.advances (send_advances env s buffer len)
  | recv len => exact h.advances (recv_advances env s len)
  | close force => exact h.advances ⟨.refl, rfl, rfl, id⟩
  | notifyMTU mtu =>
    refine h.advances ?_
    unfold call notifyMTU
    simp only
    split <;> exact ⟨.refl, rfl, rfl, id⟩
  | notifyClock now => exact (notifyClock_steady env h now).1
  | notifyPacket buffer =>
    unfold call notifyPacket
    simp only
    split
    · exact h
    unfold parse
    split
    · exact h
    · exact (process_steady env h (wire env buffer)).1
  | setOption opt value => exact h.advances (setOption_advances env s opt value)

/-- **It holds in every state reached**, with no condition on the calls. -/
theorem reach_steady (hr : Reach Always s) : Steady s :=
  hr.induct steady_new fun env _ c ih _ => call_steady env ih c

end PseudoTcp

end Libjingle
