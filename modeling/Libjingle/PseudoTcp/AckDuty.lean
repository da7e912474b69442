import Libjingle.PseudoTcp.Calls

/-!
# The duty to acknowledge (`process`, `attemptSend`)

`process` tells `attemptSend` by a flag that the segment must be acknowledged. `attemptSend` does so
with the data it sends, or in the end without data, at once or later. Two of its exits forget the
flag: Nagle's algorithm returns while data is in flight, and the time of a delayed acknowledgement
may be noted as 0, which means that there is none.

## Results

* **`ack_duty_iff`**: a segment that must be acknowledged is acknowledged, or will be, just when
  neither exit is taken, or a retransmission or an earlier delayed acknowledgement does it.
-/

namespace Libjingle.PseudoTcp

open Lib

variable {env : Env} {s s' s'' : PseudoTcp} {seg : Segment} {sflags : SendFlags}
  {W W' : List Written}

/-! ## The duty -/

/-- Not an empty segment that points to `m_rcv_nxt`. -/
def NeedsAck (s : PseudoTcp) (seg : Segment) : Prop := ¬ (seg.len = 0 ∧ seg.seq = s.rcvNxt)

/-- From `s` to `s'` a packet with the current `m_rcv_nxt` has been handed to the notifier. -/
def Acknowledged (s s' : PseudoTcp) : Prop :=
  ∃ W, s'.written = W ++ s.written ∧ ∃ w ∈ W, w.packet.ack = s'.rcvNxt

/-- The segment has been acknowledged, or it is in order and a delayed acknowledgement will be
sent. -/
def AckDuty (env : Env) (s : PseudoTcp) (seg : Segment) : Prop :=
  Acknowledged s (s.process env seg).1 ∨
    seg.seq = s.rcvNxt ∧ (s.process env seg).1.tAck ≠ 0

/-! ## The condition -/

/-- The segment makes `process` retransmit: it acknowledges a part during fast recovery, or it is
the third duplicate. -/
def retransmits (s : PseudoTcp) (seg : Segment) : Bool :=
  if seg.ack > s.sndUna ∧ seg.ack ≤ s.sndNxt then s.dupAcks ≥ 3 ∧ seg.ack < s.recover
  else seg.ack = s.sndUna ∧ seg.len = 0 ∧ s.sndUna ≠ s.sndNxt ∧ s.dupAcks + 1 = 3

/-- `attemptSend` before its first round. -/
def restarted (env : Env) (s : PseudoTcp) : PseudoTcp :=
  { s with
    ticks := s.ticks + 1
    cwnd := if timeDiff (env.now s.ticks) s.lastsend > s.rxRto.toNat then s.mss else s.cwnd }

/-- The first round of `attemptSend` hands a packet over: an acknowledgement, or a segment that
Nagle's algorithm does not hold back. -/
def answers (env : Env) (s : PseudoTcp) (sflags : SendFlags) : Bool :=
  let nAvailable := (s.restarted env).sendQuota
  if nAvailable = 0 then sflags = .immediateAck ∨ s.tAck ≠ 0
  else ¬ (s.useNagling ∧ s.sndNxt > s.sndUna ∧ nAvailable < s.mss) ∧
    ∃ e ∈ s.slist, e.xmit = 0

/-- `m_t_ack` when it does not: the time at which it asks for a delayed acknowledgement, or what it
was. -/
def pendingAck (env : Env) (s : PseudoTcp) : U32 :=
  if (s.restarted env).sendQuota = 0 then env.now (s.ticks + 1) else s.tAck

/-- The state in which `process` comes to the conditions where acks must be sent. -/
def atAckConditions (env : Env) (s : PseudoTcp) (seg : Segment) : PseudoTcp :=
  let bConnect := ((s.arrive env).processControl env seg).2.getD false
  let s' := ((s.controlled env seg).updateTimestamp seg).processAck env (env.now s.ticks) seg
  (s'.1.enterEstablished bConnect).notifyWriteable

/-- The receive path of `process` there. -/
def receipt (env : Env) (s : PseudoTcp) (seg : Segment) : Receipt :=
  let c := s.atAckConditions env seg
  c.toIncoming.receive (c.ignoresData seg) seg (c.ackFlags seg)

/-- The acknowledgement is not forgotten, by the state in which `process` comes to its ack
conditions: `attemptSend` has to answer at once there, or the segment is in order and a delayed
acknowledgement is pending, or a retransmission has carried the current `m_rcv_nxt`. -/
def Remembered (env : Env) (s : PseudoTcp) (seg : Segment) : Prop :=
  (s.atAckConditions env seg).answers env (s.receipt env seg).sflags = true ∨
    (seg.seq = s.rcvNxt ∧ (s.atAckConditions env seg).pendingAck env ≠ 0) ∨
    (s.retransmits seg = true ∧ (s.receipt env seg).inc.rcvNxt = s.rcvNxt)

/-! ## Packets handed over -/

/-- From `s` to `s'` the packets `W` have been handed to the notifier, newest first. -/
structure Hands (s : PseudoTcp) (W : List Written) (s' : PseudoTcp) : Prop where
  rcvNxt : s'.rcvNxt = s.rcvNxt
  written : s'.written = W ++ s.written
  acks : ∀ w ∈ W, w.packet.ack = s.rcvNxt

theorem Hands.refl (s : PseudoTcp) : Hands s [] s := ⟨rfl, rfl, List.forall_mem_nil _⟩

theorem Hands.trans (h : Hands s W s') (h' : Hands s' W' s'') : Hands s (W' ++ W) s'' where
  rcvNxt := h'.rcvNxt.trans h.rcvNxt
  written := by rw [h'.written, h.written, List.append_assoc]
  acks w hw := by
    rcases List.mem_append.mp hw with hw | hw
    · rw [h'.acks w hw, h.rcvNxt]
    · exact h.acks w hw

theorem packet_hands (env : Env) (s : PseudoTcp) (seq : U32) (flags : U8) (offset len : U32) :
    ∃ w, Hands s [w] (s.packet env seq flags offset len).1 := by
  refine ⟨⟨s.stamp env seq flags offset len, env.write s.ticks⟩, ?_, ?_, fun w hw => ?_⟩
  · rw [(packet_same env s seq flags offset len).inc]
  · rw [packet_out]
    rfl
  · rw [List.mem_singleton.mp hw]
    rfl

theorem transmitLower_hands (env : Env) (e : SSegment) : ∀ (levels : List U16) (s : PseudoTcp)
    (n : U32), ∃ W, Hands s W (transmitLower env e levels s n).1
  | [], s, _ => ⟨[], Hands.refl s⟩
  | m :: rest, s, n => by
    unfold transmitLower
    split
    · exact ⟨[], Hands.refl s⟩
    simp only
    generalize m.setWidth 32 - packetOverhead = mss
    have hlower : Hands s [] { s with mss := mss, msslevel := s.msslevel + 1, cwnd := 2 * mss } :=
      ⟨rfl, rfl, List.forall_mem_nil _⟩
    generalize { s with mss := mss, msslevel := s.msslevel + 1, cwnd := 2 * mss } = s₁ at hlower ⊢
    split
    · obtain ⟨w, hw⟩ := packet_hands env s₁ e.seq (if e.bCtrl then flagCtl else 0)
        (e.seq - s₁.sndUna) mss
      change Hands s₁ [w] (s₁.packetFor env e mss).1 at hw
      generalize s₁.packetFor env e mss = q at hw ⊢
      obtain ⟨s₂, result⟩ := q
      have hw := hlower.trans hw
      cases result with
      | success => exact ⟨_, hw⟩
      | fail => exact ⟨_, hw⟩
      | tooLarge =>
        obtain ⟨W, hrest⟩ := transmitLower_hands env e rest s₂ mss
        exact ⟨_, hw.trans hrest⟩
    · obtain ⟨W, hrest⟩ := transmitLower_hands env e rest s₁ n
      exact ⟨_, hlower.trans hrest⟩

/-- `transmit` hands at least one packet over, whatever becomes of it. -/
theorem transmitPacket_hands (env : Env) (s : PseudoTcp) (e : SSegment) :
    ∃ W, W ≠ [] ∧ Hands s W (s.transmitPacket env e).1 := by
  unfold transmitPacket
  simp only
  obtain ⟨w, hw⟩ := packet_hands env s e.seq (if e.bCtrl then flagCtl else 0) (e.seq - s.sndUna)
    (umin e.len s.mss)
  change Hands s [w] (s.packetFor env e (umin e.len s.mss)).1 at hw
  generalize s.packetFor env e (umin e.len s.mss) = q at hw ⊢
  obtain ⟨s₂, result⟩ := q
  cases result with
  | success => exact ⟨_, List.cons_ne_nil _ _, hw⟩
  | fail => exact ⟨_, List.cons_ne_nil _ _, hw⟩
  | tooLarge =>
    obtain ⟨W, hrest⟩ := transmitLower_hands env e
      (packetMaximums.drop (s₂.msslevel + 1).toNat) s₂ (umin e.len s.mss)
    exact ⟨_, List.append_ne_nil_of_right_ne_nil _ (List.cons_ne_nil _ _), hw.trans hrest⟩

theorem transmit_hands (env : Env) (s : PseudoTcp) (i : Nat) (now : U32) :
    ∃ W, Hands s W (s.transmit env i now).1 ∧
      ((s.transmit env i now).2 = true ∨ (∃ e, s.slist[i]? = some e ∧ e.xmit = 0) → W ≠ []) := by
  unfold transmit
  split
  · rename_i hnone
    refine ⟨[], ⟨rfl, rfl, List.forall_mem_nil _⟩, fun h => ?_⟩
    rcases h with h | ⟨e, he, -⟩
    · exact absurd h Bool.false_ne_true
    · exact absurd (hnone.symm.trans he) (Option.some_ne_none e).symm
  · rename_i e he
    by_cases hlimit : e.xmit ≥ (if s.state = .established then 15 else 30)
    · rw [if_pos hlimit]
      refine ⟨[], Hands.refl s, fun h => ?_⟩
      rcases h with h | ⟨e', he', hx⟩
      · exact absurd h Bool.false_ne_true
      · obtain rfl := Option.some.inj (he.symm.trans he')
        rw [hx] at hlimit
        split at hlimit <;> exact absurd hlimit (by decide)
    · rw [if_neg hlimit]
      obtain ⟨W, hne, hW⟩ := transmitPacket_hands env s e
      generalize s.transmitPacket env e = q at hW ⊢
      obtain ⟨s₂, sent⟩ := q
      cases sent with
      | none => exact ⟨W, hW, fun _ => hne⟩
      | some n => exact ⟨W, ⟨hW.rcvNxt, hW.written, hW.acks⟩, fun _ => hne⟩

theorem sendAck_hands (env : Env) (s : PseudoTcp) (sflags : SendFlags) :
    ∃ W, Hands s W (s.sendAck env sflags) := by
  unfold sendAck
  split
  · exact ⟨[], Hands.refl s⟩
  split
  · obtain ⟨w, hw⟩ := packet_hands env s s.sndNxt 0 0 0
    exact ⟨[w], hw⟩
  · exact ⟨[], rfl, rfl, List.forall_mem_nil _⟩

theorem cut_written (o : Outgoing) (i : Nat) (n : U32) : (o.cut i n).written = o.written := by
  unfold Outgoing.cut
  split
  · split <;> rfl
  · rfl

theorem cut_unsent {o : Outgoing} {i : Nat} (n : U32)
    (hfind : o.slist.findIdx? (fun e => e.xmit = 0) = some i) :
    ∃ e, (o.cut i n).slist[i]? = some e ∧ e.xmit = 0 := by
  obtain ⟨l₁, e, l₂, hl, rfl, hx, -⟩ := exists_append_of_findIdx? hfind
  obtain ⟨e', l₂', hcut, hx', -⟩ := cut_found hl n
  rw [hcut]
  exact ⟨e', by simp, hx'.trans (by simpa using hx)⟩

theorem attemptSendLoop_hands (env : Env) (now : U32) : ∀ (fuel : Nat) (s : PseudoTcp)
    (sflags : SendFlags), ∃ W, Hands s W (attemptSendLoop env now fuel s sflags)
  | 0, s, _ => ⟨[], Hands.refl s⟩
  | fuel + 1, s, sflags => by
    unfold attemptSendLoop
    simp only
    split
    · exact sendAck_hands env s sflags
    split
    · exact ⟨[], Hands.refl s⟩
    split
    · exact ⟨[], rfl, rfl, List.forall_mem_nil _⟩
    · rename_i i hfind
      obtain ⟨W, hW, -⟩ := transmit_hands env
        { s with toOutgoing := s.toOutgoing.cut i s.sendQuota } i now
      have hcut : Hands s [] { s with toOutgoing := s.toOutgoing.cut i s.sendQuota } :=
        ⟨rfl, cut_written _ _ _, List.forall_mem_nil _⟩
      have hW := hcut.trans hW
      generalize ({ s with toOutgoing := s.toOutgoing.cut i s.sendQuota }).transmit env i now = q
        at hW ⊢
      obtain ⟨s₂, ok⟩ := q
      cases ok with
      | false => exact ⟨_, hW⟩
      | true =>
        obtain ⟨W', hrest⟩ := attemptSendLoop_hands env now fuel s₂ .none
        exact ⟨_, hW.trans hrest⟩

/-! ## The first round of `attemptSend` -/

theorem attemptSend_eq (env : Env) (s : PseudoTcp) (sflags : SendFlags) :
    s.attemptSend env sflags =
      attemptSendLoop env (env.now s.ticks) (backlog s.slist + 1) (s.restarted env) sflags := rfl

theorem restarted_hands (env : Env) (s : PseudoTcp) : Hands s [] (s.restarted env) :=
  ⟨rfl, rfl, List.forall_mem_nil _⟩

/-- `attemptSend` hands a packet over when its first round does. -/
theorem attemptSend_answers (hf : sflags ≠ .none) (h : s.answers env sflags = true) :
    ∃ W, W ≠ [] ∧ Hands s W (s.attemptSend env sflags) := by
  unfold answers at h
  rw [attemptSend_eq, attemptSendLoop.eq_2]
  simp only at h ⊢
  have hstart := restarted_hands env s
  by_cases hq : (s.restarted env).sendQuota = 0
  · rw [if_pos hq, decide_eq_true_eq] at h
    rw [if_pos hq]
    obtain ⟨w, hw⟩ := packet_hands env (s.restarted env) (s.restarted env).sndNxt 0 0 0
    have hnow : sflags = .immediateAck ∨ (s.restarted env).tAck ≠ 0 := h
    unfold sendAck
    rw [if_neg hf, if_pos hnow]
    exact ⟨_, List.cons_ne_nil _ _, hstart.trans hw⟩
  · rw [if_neg hq, decide_eq_true_eq] at h
    obtain ⟨hnagle, e, he, hx⟩ := h
    have hgo : ¬ ((s.restarted env).useNagling = true ∧
        (s.restarted env).sndNxt > (s.restarted env).sndUna ∧
        (s.restarted env).sendQuota < (s.restarted env).mss) := hnagle
    rw [if_neg hq, if_neg hgo]
    split
    · rename_i hnone
      have hx' := List.findIdx?_eq_none_iff.mp hnone e he
      exact absurd (decide_eq_true hx) (hx' ▸ Bool.false_ne_true)
    · rename_i i hfind
      obtain ⟨W, hW, hne⟩ := transmit_hands env
        { s.restarted env with
          toOutgoing := (s.restarted env).toOutgoing.cut i (s.restarted env).sendQuota }
        i (env.now s.ticks)
      have hne := hne (.inr (cut_unsent _ hfind))
      have hcut : Hands s [] { s.restarted env with
          toOutgoing := (s.restarted env).toOutgoing.cut i (s.restarted env).sendQuota } :=
        ⟨rfl, cut_written _ _ _, List.forall_mem_nil _⟩
      have hW := hcut.trans hW
      generalize ({ s.restarted env with
          toOutgoing := (s.restarted env).toOutgoing.cut i (s.restarted env).sendQuota }).transmit
        env i (env.now s.ticks) = q at hW ⊢
      obtain ⟨s₂, ok⟩ := q
      cases ok with
      | false => exact ⟨_, List.append_ne_nil_of_left_ne_nil hne _, hW⟩
      | true =>
        obtain ⟨W', hrest⟩ := attemptSendLoop_hands env (env.now s.ticks) (backlog s.slist) s₂ .none
        exact ⟨_, List.append_ne_nil_of_right_ne_nil _ (List.append_ne_nil_of_left_ne_nil hne _),
          hW.trans hrest⟩

/-- `attemptSend` hands nothing over when its first round does not. -/
theorem attemptSend_forgets (hf : sflags ≠ .none) (h : s.answers env sflags = false) :
    (s.attemptSend env sflags).rcvNxt = s.rcvNxt ∧ (s.attemptSend env sflags).written = s.written ∧
      (s.attemptSend env sflags).tAck = s.pendingAck env := by
  unfold answers at h
  unfold pendingAck
  rw [attemptSend_eq, attemptSendLoop.eq_2]
  simp only at h ⊢
  by_cases hq : (s.restarted env).sendQuota = 0
  · rw [if_pos hq, decide_eq_false_iff_not] at h
    have hlater : ¬ (sflags = .immediateAck ∨ (s.restarted env).tAck ≠ 0) := h
    rw [if_pos hq, if_pos hq]
    unfold sendAck
    rw [if_neg hf, if_neg hlater]
    exact ⟨rfl, rfl, rfl⟩
  · rw [if_neg hq, decide_eq_false_iff_not, not_and_or, not_not] at h
    rw [if_neg hq, if_neg hq]
    by_cases hnagle : (s.restarted env).useNagling = true ∧
        (s.restarted env).sndNxt > (s.restarted env).sndUna ∧
        (s.restarted env).sendQuota < (s.restarted env).mss
    · rw [if_pos hnagle]
      exact ⟨rfl, rfl, rfl⟩
    · rw [if_neg hnagle]
      have hsent : ¬ ∃ e ∈ s.slist, e.xmit = 0 := h.resolve_left hnagle
      have hnone : (s.restarted env).slist.findIdx? (fun e => e.xmit = 0) = none := by
        rw [List.findIdx?_eq_none_iff]
        exact fun e he => decide_eq_false fun hx => hsent ⟨e, he, hx⟩
      rw [hnone]
      exact ⟨rfl, rfl, rfl⟩

/-! ## `process` before the conditions -/

theorem retransmit_hands (env : Env) (s : PseudoTcp) (now : U32) :
    ∃ W, Hands s W (s.retransmit env now).1 ∧ ((s.retransmit env now).2 = true → W ≠ []) := by
  unfold retransmit
  split
  · exact ⟨[], ⟨rfl, rfl, List.forall_mem_nil _⟩, fun h => absurd h Bool.false_ne_true⟩
  · rename_i front rest hl
    obtain ⟨W, hW, hne⟩ := transmit_hands env (s.note (.retransmit front.xmit)) 0 now
    exact ⟨W, ⟨hW.rcvNxt, hW.written, hW.acks⟩, fun h => hne (.inl h)⟩

theorem congestionAck_hands {now nAcked : U32} (h : (s.congestionAck env now nAcked).2 = true) :
    ∃ W, Hands s W (s.congestionAck env now nAcked).1 ∧
      (W ≠ [] ↔ s.dupAcks ≥ 3 ∧ s.sndUna < s.recover) := by
  unfold congestionAck at h ⊢
  by_cases hdup : s.dupAcks ≥ 3
  · rw [if_pos hdup] at h ⊢
    by_cases hexit : s.sndUna ≥ s.recover
    · rw [if_pos hexit]
      refine ⟨[], ⟨rfl, rfl, List.forall_mem_nil _⟩, fun hne => absurd rfl hne, fun hlt => ?_⟩
      exact absurd hlt.2 (BitVec.not_lt.mpr hexit)
    · rw [if_neg hexit] at h ⊢
      obtain ⟨W, hW, hne⟩ := retransmit_hands env s now
      generalize s.retransmit env now = q at h hW hne ⊢
      obtain ⟨s₁, ok⟩ := q
      cases ok with
      | false => exact absurd h Bool.false_ne_true
      | true =>
        exact ⟨W, ⟨hW.rcvNxt, hW.written, hW.acks⟩,
          fun _ => ⟨hdup, BitVec.not_le.mp hexit⟩, fun _ => hne rfl⟩
  · rw [if_neg hdup]
    exact ⟨[], ⟨rfl, rfl, List.forall_mem_nil _⟩, fun hne => absurd rfl hne,
      fun hlt => absurd hlt.1 hdup⟩

theorem countDupAck_hands {now : U32} (h : (s.countDupAck env now).2 = true) :
    ∃ W, Hands s W (s.countDupAck env now).1 ∧ (W ≠ [] ↔ s.dupAcks + 1 = 3) := by
  unfold countDupAck at h ⊢
  simp only at h ⊢
  by_cases hthird : s.dupAcks + 1 = 3
  · rw [if_pos hthird] at h ⊢
    obtain ⟨W, hW, hne⟩ := retransmit_hands env { s with dupAcks := s.dupAcks + 1 } now
    generalize ({ s with dupAcks := s.dupAcks + 1 }).retransmit env now = q at h hW hne ⊢
    obtain ⟨s₁, ok⟩ := q
    cases ok with
    | false => exact absurd h Bool.false_ne_true
    | true => exact ⟨W, ⟨hW.rcvNxt, hW.written, hW.acks⟩, fun _ => hthird, fun _ => hne rfl⟩
  · rw [if_neg hthird]
    refine ⟨[], ?_, fun hne => absurd rfl hne, fun heq => absurd heq hthird⟩
    split <;> exact ⟨rfl, rfl, List.forall_mem_nil _⟩

theorem processAck_hands {now : U32} (h : (s.processAck env now seg).2 = true) :
    ∃ W, Hands s W (s.processAck env now seg).1 ∧ (W ≠ [] ↔ s.retransmits seg = true) := by
  unfold processAck at h ⊢
  unfold retransmits
  by_cases hnew : seg.ack > s.sndUna ∧ seg.ack ≤ s.sndNxt
  · rw [if_pos hnew] at h ⊢
    rw [if_pos hnew, decide_eq_true_eq]
    have hrtt := (updateRtt_sends (r := anyRely) (s := s) now seg).1
    have hout : (s.updateRtt now seg).written = s.written := by
      obtain ⟨L, hL⟩ := (updateRtt_sends (r := anyRely) (s := s) now seg).2
      rw [hL]
    unfold processNewAck at h ⊢
    simp only at h ⊢
    obtain ⟨W, hW, hne⟩ := congestionAck_hands h
    rw [hrtt.dupAcks, hrtt.recover] at hne
    have hacked : Hands s [] { s.updateRtt now seg with
        toOutgoing := (s.updateRtt now seg).toOutgoing.acked seg.ack
          ((s.updateRtt now seg).scaledWnd seg) now } := by
      refine ⟨?_, hout, List.forall_mem_nil _⟩
      rw [hrtt.inc]
    have hW := hacked.trans hW
    rw [List.append_nil] at hW
    exact ⟨W, hW, hne⟩
  · rw [if_neg hnew] at h ⊢
    rw [if_neg hnew, decide_eq_true_eq]
    by_cases hdup : seg.ack = s.sndUna
    · rw [if_pos hdup] at h ⊢
      unfold processDupAck at h ⊢
      simp only at h ⊢
      by_cases hlen : seg.len > 0
      · rw [if_pos hlen]
        refine ⟨[], ⟨rfl, rfl, List.forall_mem_nil _⟩, fun hne => absurd rfl hne, fun hre => ?_⟩
        exact absurd hre.2.1 (by bv_omega)
      rw [if_neg hlen] at h ⊢
      by_cases hflight : s.sndUna ≠ s.sndNxt
      · rw [if_pos hflight] at h ⊢
        obtain ⟨W, hW, hne⟩ := countDupAck_hands h
        exact ⟨W, ⟨hW.rcvNxt, hW.written, hW.acks⟩,
          fun h => ⟨hdup, by bv_omega, hflight, hne.mp h⟩, fun h => hne.mpr h.2.2.2⟩
      · rw [if_neg hflight]
        exact ⟨[], ⟨rfl, rfl, List.forall_mem_nil _⟩, fun hne => absurd rfl hne,
          fun hre => absurd hre.2.2.1 hflight⟩
    · rw [if_neg hdup]
      exact ⟨[], Hands.refl s, fun hne => absurd rfl hne, fun hre => absurd hre.1 hdup⟩

theorem parseOptions_rcvNxt (env : Env) (s : PseudoTcp) (data : List U8) :
    (s.parseOptions env data).rcvNxt = s.rcvNxt := by
  obtain ⟨x, h⟩ | ⟨-, h⟩ := parseOptions_cases env s data
  · rw [h]
  · rw [h]
    rfl

theorem processControl_hands (env : Env) (s : PseudoTcp) (seg : Segment) :
    Hands s [] (s.processControl env seg).1 ∧
      (s.processControl env seg).1.retransmits seg = s.retransmits seg := by
  unfold processControl
  split
  · exact ⟨Hands.refl s, rfl⟩
  split
  · exact ⟨Hands.refl s, rfl⟩
  split
  · obtain ⟨⟨c, hout⟩, -, -, -, -, hdup, hrec⟩ := parseOptions_spec env s
      (fetch (fun k => seg.data (1 + k)) (seg.len - 1).toNat)
    have hnxt := parseOptions_rcvNxt env s (fetch (fun k => seg.data (1 + k)) (seg.len - 1).toNat)
    generalize s.parseOptions env (fetch (fun k => seg.data (1 + k)) (seg.len - 1).toNat) = s₁
      at hout hdup hrec hnxt ⊢
    -- What follows keeps these five members of `s₁`.
    have hkeep : ∀ s₂ : PseudoTcp, s₂.rcvNxt = s₁.rcvNxt → s₂.written = s₁.written →
        s₂.sndUna = s₁.sndUna → s₂.sndNxt = s₁.sndNxt →
        s₂.dupAcks = s₁.dupAcks → s₂.recover = s₁.recover →
        Hands s [] s₂ ∧ s₂.retransmits seg = s.retransmits seg := by
      intro s₂ h₁ h₂ h₃ h₄ h₅ h₆
      rw [hout] at h₂ h₃ h₄
      refine ⟨⟨h₁.trans hnxt, h₂, List.forall_mem_nil _⟩, ?_⟩
      unfold retransmits
      rw [h₃, h₄, h₅, h₆, hdup, hrec]
      rfl
    simp only
    split
    · exact hkeep _ rfl rfl rfl rfl rfl rfl
    split
    · exact hkeep _ rfl rfl rfl rfl rfl rfl
    · exact hkeep _ rfl rfl rfl rfl rfl rfl
  · exact ⟨Hands.refl s, rfl⟩

theorem enterEstablished_hands (s : PseudoTcp) (bConnect : Bool) :
    Hands s [] (s.enterEstablished bConnect) := by
  unfold enterEstablished
  split
  · exact ⟨rfl, rfl, List.forall_mem_nil _⟩
  · exact Hands.refl s

theorem notifyWriteable_hands (s : PseudoTcp) : Hands s [] s.notifyWriteable := by
  unfold notifyWriteable
  simp only
  split
  · exact ⟨rfl, rfl, List.forall_mem_nil _⟩
  · exact Hands.refl s

/-- Up to the conditions `process` hands packets over just when it retransmits. -/
theorem atAckConditions_hands (h : (s.process env seg).2 = true) :
    s.process env seg = ((s.atAckConditions env seg).processData env seg, true) ∧
      ∃ W, Hands s W (s.atAckConditions env seg) ∧ (W ≠ [] ↔ s.retransmits seg = true) := by
  obtain ⟨hcontrol, hre⟩ := processControl_hands env (s.arrive env) seg
  have harrive : Hands s [] (s.arrive env) := ⟨rfl, rfl, List.forall_mem_nil _⟩
  have hcontrol := harrive.trans hcontrol
  have hre : ((s.arrive env).processControl env seg).1.retransmits seg = s.retransmits seg := hre
  unfold atAckConditions controlled
  unfold process at h ⊢
  by_cases hconv : seg.conv ≠ s.conv
  · rw [if_pos hconv] at h
    exact absurd h Bool.false_ne_true
  rw [if_neg hconv] at h ⊢
  simp only at h ⊢
  by_cases hclosed : (s.arrive env).state = .closed
  · rw [if_pos hclosed] at h
    exact absurd h Bool.false_ne_true
  rw [if_neg hclosed] at h ⊢
  by_cases hrst : seg.flags &&& flagRst ≠ 0
  · rw [if_pos hrst] at h
    exact absurd h Bool.false_ne_true
  rw [if_neg hrst] at h ⊢
  generalize (s.arrive env).processControl env seg = q at h hcontrol hre ⊢
  obtain ⟨s₁, bConnect⟩ := q
  cases bConnect with
  | none => exact absurd h Bool.false_ne_true
  | some bConnect =>
    unfold acknowledge at h ⊢
    have hstamp : Hands s₁ [] (s₁.updateTimestamp seg) ∧
        (s₁.updateTimestamp seg).retransmits seg = s₁.retransmits seg := by
      unfold updateTimestamp
      split
      · exact ⟨⟨rfl, rfl, List.forall_mem_nil _⟩, rfl⟩
      · exact ⟨Hands.refl s₁, rfl⟩
    have hack := @processAck_hands env (s₁.updateTimestamp seg) seg (env.now s.ticks)
    simp only at h ⊢
    rw [hstamp.2, hre] at hack
    generalize (s₁.updateTimestamp seg).processAck env (env.now s.ticks) seg = q at h hack ⊢
    obtain ⟨s₂, ok⟩ := q
    cases ok with
    | false => exact absurd h Bool.false_ne_true
    | true =>
      obtain ⟨W, hW, hne⟩ := hack rfl
      have hall := ((hcontrol.trans hstamp.1).trans hW).trans
        ((enterEstablished_hands s₂ bConnect).trans (notifyWriteable_hands _))
      simp only [List.append_nil, List.nil_append] at hall
      exact ⟨rfl, W, hall, hne⟩

/-! ## The theorem -/

theorem ackFlags_ne_none (h : s.NeedsAck seg) : s.ackFlags seg ≠ .none := by
  unfold ackFlags
  split
  · exact SendFlags.noConfusion
  · rename_i hseq
    rw [not_not] at hseq
    have hlen : seg.len ≠ 0 := fun hlen => h ⟨hlen, hseq⟩
    rw [if_pos hlen]
    split <;> exact SendFlags.noConfusion

theorem receive_sflags (i : Incoming) (b : Bool) (seg : Segment) {sflags : SendFlags}
    (h : sflags ≠ .none) : (i.receive b seg sflags).sflags ≠ .none := by
  unfold Incoming.receive Incoming.store
  simp only
  split
  · exact h
  split
  · exact h
  split
  · simp only
    split
    · exact SendFlags.noConfusion
    · exact h
  · exact h

/-- **When a segment is acknowledged.** -/
theorem ack_duty_iff (env : Env) (s : PseudoTcp) (seg : Segment)
    (haccepted : (s.process env seg).2 = true) (hneeds : s.NeedsAck seg) :
    AckDuty env s seg ↔ Remembered env s seg := by
  obtain ⟨hprocess, W, hW, hne⟩ := atAckConditions_hands haccepted
  unfold AckDuty Remembered Acknowledged receipt
  rw [hprocess]
  simp only
  generalize s.atAckConditions env seg = c at hW ⊢
  have hflags : (c.toIncoming.receive (c.ignoresData seg) seg (c.ackFlags seg)).sflags ≠ .none := by
    refine receive_sflags _ _ _ (ackFlags_ne_none fun hempty => hneeds ⟨hempty.1, ?_⟩)
    rw [hempty.2, hW.rcvNxt]
  unfold processData
  simp only
  generalize c.toIncoming.receive (c.ignoresData seg) seg (c.ackFlags seg) = r at hflags ⊢
  -- `OnTcpReadable` hands nothing over.
  have hread : ∀ s₁ : PseudoTcp, (s₁.notifyReadable r.newData).rcvNxt = s₁.rcvNxt ∧
      (s₁.notifyReadable r.newData).written = s₁.written ∧
      (s₁.notifyReadable r.newData).tAck = s₁.tAck := by
    intro s₁
    unfold notifyReadable
    split <;> exact ⟨rfl, rfl, rfl⟩
  rw [(hread _).1, (hread _).2.1, (hread _).2.2]
  have hanswers : ({ c with toIncoming := r.inc } : PseudoTcp).answers env r.sflags =
    c.answers env r.sflags := rfl
  have hpending : ({ c with toIncoming := r.inc } : PseudoTcp).pendingAck env = c.pendingAck env :=
    rfl
  cases hsends : c.answers env r.sflags with
  | true =>
    obtain ⟨W', hne', hW'⟩ := attemptSend_answers hflags (hanswers.trans hsends)
    obtain ⟨w, hw⟩ := List.exists_mem_of_ne_nil W' hne'
    refine iff_of_true (.inl ⟨W' ++ W, ?_, w, List.mem_append_left _ hw, ?_⟩) (.inl rfl)
    · rw [hW'.written, List.append_assoc, ← hW.written]
    · rw [hW'.acks w hw, hW'.rcvNxt]
  | false =>
    obtain ⟨hnxt, hwritten, hack⟩ := attemptSend_forgets hflags (hanswers.trans hsends)
    rw [hnxt, hwritten, hack, hpending]
    have hacknowledged : (∃ W', c.written = W' ++ s.written ∧
        ∃ w ∈ W', w.packet.ack = r.inc.rcvNxt) ↔
        s.retransmits seg = true ∧ r.inc.rcvNxt = s.rcvNxt := by
      constructor
      · rintro ⟨W', hW', w, hw, hnow⟩
        obtain rfl := List.append_cancel_right (hW.written.symm.trans hW')
        exact ⟨hne.mp (List.ne_nil_of_mem hw), hnow.symm.trans (hW.acks w hw)⟩
      · rintro ⟨hre, hnow⟩
        obtain ⟨w, hw⟩ := List.exists_mem_of_ne_nil W (hne.mpr hre)
        exact ⟨W, hW.written, w, hw, (hW.acks w hw).trans hnow.symm⟩
    change (∃ W', c.written = W' ++ s.written ∧ ∃ w ∈ W', w.packet.ack = r.inc.rcvNxt) ∨ _ ↔ _
    rw [hacknowledged, or_comm]
    exact ⟨.inr, fun h => h.resolve_left Bool.false_ne_true⟩

/-! ## A connection that forgets -/

/-- A connection with one byte in flight and another behind it. -/
def pipelining : PseudoTcp :=
  (established.call (still 1) (.send (fun _ => 7) 1)).call (still 1) (.send (fun _ => 8) 1)

theorem reach_pipelining : Reach Always pipelining :=
  .call _ _ (.call _ _ (.call _ _ (.call _ _ (.fresh 1 1 _ _) trivial) trivial) trivial) trivial

theorem ack_duty_iff_connect :
    AckDuty (still 1) connecting
      (wire (still 1) (peerPacket 0 4 flagCtl [ctlConnect, 3, 1, 0])) :=
  (ack_duty_iff (still 1) connecting _ (by decide) fun h => absurd h.1 (by decide)).mpr
    (.inr (.inl ⟨by decide, by decide⟩))

theorem ack_forgotten : Reach Always pipelining ∧ pipelining.state = .established ∧
    (pipelining.process (still 1) (wire (still 1) (peerPacket 4 4 0 [9]))).2 = true ∧
    pipelining.NeedsAck (wire (still 1) (peerPacket 4 4 0 [9])) ∧
    ¬ AckDuty (still 1) pipelining (wire (still 1) (peerPacket 4 4 0 [9])) := by
  refine ⟨reach_pipelining, by decide, by decide, fun h => absurd h.1 (by decide), ?_⟩
  have hwritten : (pipelining.process (still 1) (wire (still 1) (peerPacket 4 4 0 [9]))).1.written =
      pipelining.written := by decide
  have htAck : (pipelining.process (still 1) (wire (still 1) (peerPacket 4 4 0 [9]))).1.tAck = 0 :=
    by decide
  rintro (⟨W, hW, w, hw, -⟩ | ⟨-, hpending⟩)
  · have hnil : [] = W := List.append_cancel_right (hwritten.symm.trans hW)
    rw [← hnil] at hw
    cases hw
  · exact hpending htAck

end Libjingle.PseudoTcp
