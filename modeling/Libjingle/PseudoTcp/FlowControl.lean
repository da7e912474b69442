import Libjingle.Lib.History
import Libjingle.PseudoTcp.Retransmission
import Libjingle.PseudoTcp.Termination

/-!
# Flow control (`attemptSend`, `transmit`)

`m_snd_nxt` moves only in the loop of `attemptSend`, and there no further than the peer's window
and the congestion window of the round allow.

## Results

* **`attemptSend_controlled`**: the loop stops, whatever the notifier answers, and its rounds are
  controlled.
* **`flow_controlled`**: for every call from every state reached. Retransmissions do not move
  `m_snd_nxt`.
-/

namespace Libjingle.PseudoTcp

open Lib

variable {env : Env} {s t : PseudoTcp} {now : U32}

/-! ## Rounds -/

def inFlight (s : PseudoTcp) : Nat := (s.sndNxt - s.sndUna).toNat

/-- Limited Transmit: what may be in flight beyond `m_cwnd`. -/
def limitedTransmit (s : PseudoTcp) : Nat :=
  if s.dupAcks = 1 ∨ s.dupAcks = 2 then s.dupAcks.toNat * s.mss.toNat else 0

/-- A round of `attemptSend`'s loop that calls `transmit`: the states before and after it. -/
structure SendRound where
  start : PseudoTcp
  finish : PseudoTcp

/-- `m_snd_nxt` stays where it is, or what is then in flight fits in the peer's window and in the
congestion window at the start of the round. -/
def SendRound.Controlled (r : SendRound) : Prop :=
  r.finish.sndNxt = r.start.sndNxt ∨
    r.finish.inFlight ≤ r.start.sndWnd.toNat ∧
      r.finish.inFlight ≤ r.start.cwnd.toNat + r.start.limitedTransmit

/-- The rounds of `attemptSend`'s loop that transmit, or `none` when `fuel` rounds do not end it. -/
def sendRounds (env : Env) (now : U32) : Nat → PseudoTcp → Option (List SendRound)
  | 0, _ => none
  | fuel + 1, s =>
    let nAvailable := s.sendQuota
    if nAvailable = 0 then some []
    else if s.useNagling ∧ s.sndNxt > s.sndUna ∧ nAvailable < s.mss then some []
    else
      match s.slist.findIdx? (fun seg => seg.xmit = 0) with
      | none => some []
      | some i =>
        match { s with toOutgoing := s.toOutgoing.cut i nAvailable }.transmit env i now with
        | (s', false) => some [⟨s, s'⟩]
        | (s', true) => (sendRounds env now fuel s').map fun rounds => ⟨s, s'⟩ :: rounds

/-- The state that a list of rounds leads to. -/
def lastState (s : PseudoTcp) (rounds : List SendRound) : PseudoTcp :=
  rounds.foldl (fun _ r => r.finish) s

/-- The state in which a public call comes to `attemptSend`, with the flag. -/
def entersSend (env : Env) (s : PseudoTcp) : Call → Option (PseudoTcp × SendFlags)
  | .connect =>
    if s.state ≠ .listen then none
    else some ({ s with state := .synSent }.queueConnectMessage, .none)
  | .send buffer len =>
    if s.state ≠ .established then none
    else if s.sbuf.getWriteRemaining = 0 then none
    else some ((s.queue buffer (BitVec.ofNat 32 len) false).1, .none)
  | .recv len =>
    if s.state ≠ .established then none
    else
      match s.rbuf.read len with
      | (.block, _, _) => none
      | (result, _, rbuf) =>
        let i := { s.toIncoming with rbuf := rbuf }
        if opens i s.mss && decide (i.rcvWnd = 0) then
          some ({ s.assert (result = .success) .recvRead with toIncoming := reopen i s.mss },
            .immediateAck)
        else none
  | .notifyPacket buffer =>
    let seg := wire env buffer
    if buffer.length > maxPacket.toNat ∨ buffer.length < 12 then none
    else if (s.process env seg).2 then
      some ({ s.atAckConditions env seg with toIncoming := (s.receipt env seg).inc },
        (s.receipt env seg).sflags)
    else none
  | .close _ | .notifyMTU _ | .notifyClock _ | .setOption _ _ => none

/-! ## One round -/

theorem sendQuota_fits (h : s.sendQuota ≠ 0) :
    s.inFlight + s.sendQuota.toNat ≤ s.sndWnd.toNat ∧
      s.inFlight + s.sendQuota.toNat ≤ s.cwnd.toNat + s.limitedTransmit := by
  have hcwnd : (if s.dupAcks = 1 ∨ s.dupAcks = 2 then s.cwnd + s.dupAcks.setWidth 32 * s.mss
      else s.cwnd).toNat ≤ s.cwnd.toNat + s.limitedTransmit := by
    unfold limitedTransmit
    split
    · rw [BitVec.toNat_add, BitVec.toNat_mul, BitVec.toNat_setWidth]
      refine (Nat.mod_le _ _).trans (Nat.add_le_add_left ((Nat.mod_le _ _).trans ?_) _)
      exact Nat.mul_le_mul_right _ (Nat.mod_le _ _)
    · exact Nat.le_add_right _ _
  unfold sendQuota at h ⊢
  unfold inFlight
  simp only at h ⊢
  generalize s.sndNxt - s.sndUna = flight at h ⊢
  generalize (if s.dupAcks = 1 ∨ s.dupAcks = 2 then s.cwnd + s.dupAcks.setWidth 32 * s.mss
    else s.cwnd) = cwnd at h hcwnd ⊢
  have hwin := umin_toNat s.sndWnd cwnd
  generalize umin s.sndWnd cwnd = nWindow at h hwin ⊢
  generalize umin (BitVec.ofNat 32 s.sbuf.dataLength - flight) s.mss = nAvailable at h ⊢
  suffices hfit : flight.toNat + (if nAvailable > (if flight < nWindow then nWindow - flight else 0)
      then (if (if flight < nWindow then nWindow - flight else 0) * 4 < nWindow then 0
        else if flight < nWindow then nWindow - flight else 0)
      else nAvailable).toNat ≤ nWindow.toNat by omega
  by_cases hin : flight < nWindow
  · have huse : (nWindow - flight).toNat = nWindow.toNat - flight.toNat := by bv_omega
    simp only [if_pos hin] at h ⊢
    generalize nWindow - flight = nUseable at h huse ⊢
    by_cases hgt : nAvailable > nUseable
    · rw [if_pos hgt] at h ⊢
      split at h
      · exact absurd rfl h
      · rename_i hsws
        rw [if_neg hsws]
        bv_omega
    · rw [if_neg hgt] at h ⊢
      bv_omega
  · simp only [if_neg hin] at h ⊢
    by_cases hgt : nAvailable > 0
    · rw [if_pos hgt] at h ⊢
      split at h <;> exact absurd rfl h
    · rw [if_neg hgt] at h ⊢
      bv_omega

/-- **A round is controlled.** -/
theorem round_controlled (env : Env) (now : U32) (hq : s.sendQuota ≠ 0) {i : Nat}
    (hfind : s.slist.findIdx? (fun seg => seg.xmit = 0) = some i) : SendRound.Controlled
      ⟨s, ({ s with toOutgoing := s.toOutgoing.cut i s.sendQuota }.transmit env i now).1⟩ := by
  obtain ⟨l₁, seg, l₂, hl, rfl, -, -⟩ := exists_append_of_findIdx? hfind
  obtain ⟨seg', l₂', hcut, -, hlen⟩ := cut_found hl s.sendQuota
  have hseg : ({ s with toOutgoing := s.toOutgoing.cut l₁.length s.sendQuota } :
      PseudoTcp).slist[l₁.length]? = some seg' := by
    rw [hcut]
    simp
  have hnxt : (s.toOutgoing.cut l₁.length s.sendQuota).sndNxt = s.sndNxt := by rw [hcut]
  have huna : (s.toOutgoing.cut l₁.length s.sendQuota).sndUna = s.sndUna := by rw [hcut]
  obtain ⟨hsame, hmove⟩ := transmit_sndNxt env hseg now
  simp only at hsame hmove
  rw [hnxt] at hmove
  rw [huna] at hsame
  rcases hmove with hstay | ⟨-, n, hn, hmove⟩
  · exact .inl hstay
  · obtain ⟨hwnd, hcwnd⟩ := sendQuota_fits hq
    unfold SendRound.Controlled inFlight
    unfold inFlight at hwnd hcwnd
    simp only
    rw [hsame, hmove]
    have hle : (s.sndNxt + n - s.sndUna).toNat ≤
        (s.sndNxt - s.sndUna).toNat + s.sendQuota.toNat := by bv_omega
    exact .inr ⟨hle.trans hwnd, hle.trans hcwnd⟩

/-! ## The loop -/

theorem sendAck_sndNxt (env : Env) (s : PseudoTcp) (sflags : SendFlags) :
    (s.sendAck env sflags).sndNxt = s.sndNxt := by
  unfold sendAck
  split
  · rfl
  split
  · exact packet_sndNxt env s _ _ _ _
  · rfl

theorem sendRounds_spec (env : Env) (now : U32) : ∀ (fuel : Nat) (s : PseudoTcp),
    backlog s.slist < fuel → ∃ rounds, sendRounds env now fuel s = some rounds ∧
      IsRun SendRound.start SendRound.finish s rounds ∧ (∀ r ∈ rounds, r.Controlled) ∧
      ∀ sflags, (attemptSendLoop env now fuel s sflags).sndNxt = (lastState s rounds).sndNxt
  | 0, _, h => absurd h (by omega)
  | fuel + 1, s, h => by
    unfold sendRounds
    simp only [attemptSendLoop.eq_2]
    by_cases hq : s.sendQuota = 0
    · simp only [if_pos hq]
      exact ⟨[], rfl, trivial, List.forall_mem_nil _, fun sflags => sendAck_sndNxt env s sflags⟩
    simp only [if_neg hq]
    by_cases hnagle : s.useNagling = true ∧ s.sndNxt > s.sndUna ∧ s.sendQuota < s.mss
    · simp only [if_pos hnagle]
      exact ⟨[], rfl, trivial, List.forall_mem_nil _, fun _ => rfl⟩
    simp only [if_neg hnagle]
    cases hfind : s.slist.findIdx? (fun seg => seg.xmit = 0) with
    | none => exact ⟨[], rfl, trivial, List.forall_mem_nil _, fun _ => rfl⟩
    | some i =>
      have hround := round_controlled env now hq hfind
      obtain ⟨l₁, seg, l₂, hl, rfl, hx, -⟩ := exists_append_of_findIdx? hfind
      obtain ⟨seg', l₂', hl', hx', hlen, hb, hb0⟩ := cut_backlog hl (by simpa using hx) hq
      have hless := transmit_backlog env now (b := backlog s.slist)
        (s := { s with toOutgoing := s.toOutgoing.cut l₁.length s.sendQuota }) hl' hx'
        (BitVec.le_trans hlen (sendQuota_spec hq).1) hb hb0
      simp only
      generalize ({ s with toOutgoing := s.toOutgoing.cut l₁.length s.sendQuota }).transmit env
        l₁.length now = q at hround hless ⊢
      obtain ⟨s₂, ok⟩ := q
      cases ok with
      | false =>
        refine ⟨[⟨s, s₂⟩], rfl, ⟨rfl, trivial⟩, fun r hr => ?_, fun _ => rfl⟩
        exact List.mem_singleton.mp hr ▸ hround
      | true =>
        have hless := hless rfl
        obtain ⟨rounds, hrounds, hrun, hcontrolled, hlast⟩ := sendRounds_spec env now fuel s₂
          (by simp only at hless; omega)
        refine ⟨⟨s, s₂⟩ :: rounds, by simp only [hrounds, Option.map_some], ⟨rfl, hrun⟩,
          fun r hr => ?_, fun _ => hlast .none⟩
        rcases List.mem_cons.mp hr with rfl | hr
        · exact hround
        · exact hcontrolled r hr

/-- **`attemptSend` stops whatever the notifier answers**, and `m_snd_nxt` moves only in its
rounds, which are controlled. -/
theorem attemptSend_controlled (env : Env) (s : PseudoTcp) (sflags : SendFlags) :
    (∀ extra, attemptSendLoop env (env.now s.ticks) (backlog s.slist + 1 + extra)
      (s.restarted env) sflags = s.attemptSend env sflags) ∧
    ∃ rounds, sendRounds env (env.now s.ticks) (backlog s.slist + 1) (s.restarted env) =
        some rounds ∧
      IsRun SendRound.start SendRound.finish (s.restarted env) rounds ∧
      (∀ r ∈ rounds, r.Controlled) ∧
      (s.attemptSend env sflags).sndNxt = (lastState (s.restarted env) rounds).sndNxt := by
  refine ⟨fun extra => attemptSend_rounds (s.restarted env) sflags extra, ?_⟩
  obtain ⟨rounds, hrounds, hrun, hcontrolled, hlast⟩ := sendRounds_spec env (env.now s.ticks)
    (backlog s.slist + 1) (s.restarted env) (Nat.lt_succ_self _)
  exact ⟨rounds, hrounds, hrun, hcontrolled, hlast sflags⟩

/-! ## The calls -/

theorem notifyReadable_sndNxt (s : PseudoTcp) (bNewData : Bool) :
    (s.notifyReadable bNewData).sndNxt = s.sndNxt := by
  unfold notifyReadable
  split <;> rfl

/-- A call that does not come to `attemptSend` leaves `m_snd_nxt` alone. -/
theorem call_stays (env : Env) (h : Steady s) {c : Call} (hc : entersSend env s c = none) :
    (s.call env c).sndNxt = s.sndNxt := by
  cases c with
  | connect =>
    unfold entersSend at hc
    unfold call connect
    by_cases hlisten : s.state ≠ .listen
    · simp only [if_pos hlisten]
    · simp only [if_neg hlisten, reduceCtorEq] at hc
  | send buffer len =>
    unfold entersSend at hc
    unfold call send
    by_cases hest : s.state ≠ .established
    · simp only [if_pos hest]
    by_cases hfull : s.sbuf.getWriteRemaining = 0
    · simp only [if_neg hest, if_pos hfull]
    · simp only [if_neg hest, if_neg hfull, reduceCtorEq] at hc
  | recv len =>
    unfold entersSend at hc
    unfold call recv
    by_cases hest : s.state ≠ .established
    · simp only [if_pos hest]
    simp only [if_neg hest] at hc ⊢
    generalize s.rbuf.read len = q at hc ⊢
    obtain ⟨result, out, rbuf⟩ := q
    cases result with
    | block => rfl
    | success | error | eos =>
      simp only at hc ⊢
      split at hc
      · cases hc
      · rename_i hclosed
        rw [if_neg hclosed]
        rfl
  | close force => rfl
  | notifyMTU mtu =>
    unfold call notifyMTU
    simp only
    split <;> rfl
  | notifyClock now => exact (notifyClock_steady env h now).2
  | notifyPacket buffer =>
    unfold entersSend at hc
    unfold call notifyPacket
    by_cases hmax : buffer.length > maxPacket.toNat
    · simp only [if_pos hmax]
    simp only [if_neg hmax]
    unfold parse
    by_cases hmin : buffer.length < 12
    · rw [if_pos hmin]
    rw [if_neg hmin]
    refine (process_steady env h (wire env buffer)).2 ?_
    simp only [hmax, hmin, or_self, if_false] at hc
    split at hc
    · cases hc
    · rename_i hrejected
      exact Bool.eq_false_of_not_eq_true hrejected
  | setOption opt value => cases opt <;> rfl

/-- A call that does leaves it alone up to there, and moves it as `attemptSend` does. -/
theorem call_enters (env : Env) (h : Steady s) {c : Call} {sflags : SendFlags}
    (hc : entersSend env s c = some (t, sflags)) :
    t.sndNxt = s.sndNxt ∧ (s.call env c).sndNxt = (t.attemptSend env sflags).sndNxt := by
  cases c with
  | connect =>
    unfold entersSend at hc
    unfold call connect
    by_cases hlisten : s.state ≠ .listen
    · simp only [if_pos hlisten, reduceCtorEq] at hc
    · simp only [if_neg hlisten, Option.some.injEq, Prod.mk.injEq] at hc ⊢
      obtain ⟨rfl, rfl⟩ := hc
      exact ⟨rfl, rfl⟩
  | send buffer len =>
    unfold entersSend at hc
    unfold call send
    by_cases hest : s.state ≠ .established
    · simp only [if_pos hest, reduceCtorEq] at hc
    by_cases hfull : s.sbuf.getWriteRemaining = 0
    · simp only [if_neg hest, if_pos hfull, reduceCtorEq] at hc
    · simp only [if_neg hest, if_neg hfull, Option.some.injEq, Prod.mk.injEq] at hc ⊢
      obtain ⟨rfl, rfl⟩ := hc
      exact ⟨rfl, rfl⟩
  | recv len =>
    unfold entersSend at hc
    unfold call recv
    by_cases hest : s.state ≠ .established
    · simp only [if_pos hest, reduceCtorEq] at hc
    simp only [if_neg hest] at hc ⊢
    generalize s.rbuf.read len = q at hc ⊢
    obtain ⟨result, out, rbuf⟩ := q
    cases result with
    | block => cases hc
    | success | error | eos =>
      simp only at hc ⊢
      split at hc
      · rename_i hopen
        rw [if_pos hopen]
        obtain ⟨rfl, rfl⟩ := Prod.mk.inj (Option.some.inj hc)
        exact ⟨rfl, rfl⟩
      · cases hc
  | close force => cases hc
  | notifyMTU mtu => cases hc
  | notifyClock now => cases hc
  | notifyPacket buffer =>
    unfold entersSend at hc
    unfold call notifyPacket
    simp only at hc ⊢
    split at hc
    · cases hc
    rename_i harrives
    rw [not_or] at harrives
    rw [if_neg harrives.1]
    unfold parse
    rw [if_neg harrives.2]
    split at hc
    · rename_i hok
      have hopen : s.state ≠ .closed := by
        rcases process_cases env s (wire env buffer) with ⟨hadm, -⟩ | ⟨-, hf, -⟩
        · exact hadm.2.1
        · exact absurd (hf.symm.trans hok) Bool.false_ne_true
      have hnxt : (s.atAckConditions env (wire env buffer)).sndNxt = s.sndNxt :=
        (atAckConditions_steady h hopen _).2
      rw [(atAckConditions_hands hok).1]
      unfold receipt at hc
      generalize s.atAckConditions env (wire env buffer) = c at hc hnxt ⊢
      obtain ⟨rfl, rfl⟩ := Prod.mk.inj (Option.some.inj hc)
      exact ⟨hnxt, notifyReadable_sndNxt _ _⟩
    · cases hc
  | setOption opt value => cases hc

/-! ## Runs -/

/-- **Flow control**, in every state reached and for every call: retransmissions leave `m_snd_nxt`
alone; a call that does not come to `attemptSend` leaves it alone; one that does leaves it alone up
to there, the loop stops, and what is in flight when a round moves `m_snd_nxt` fits in the peer's
window and in the congestion window, Limited Transmit included, of the start of that round. -/
theorem flow_controlled (hr : Reach Always s) (env : Env) (c : Call) :
    (∀ now, s.rtoBase ≠ 0 ∨ s.sndUna ≠ s.sndNxt →
      (s.retransmit env now).1.sndNxt = s.sndNxt) ∧
    (entersSend env s c = none → (s.call env c).sndNxt = s.sndNxt) ∧
    ∀ t sflags, entersSend env s c = some (t, sflags) → t.sndNxt = s.sndNxt ∧
      (∀ extra, attemptSendLoop env (env.now t.ticks) (backlog t.slist + 1 + extra)
        (t.restarted env) sflags = t.attemptSend env sflags) ∧
      ∃ rounds, sendRounds env (env.now t.ticks) (backlog t.slist + 1) (t.restarted env) =
          some rounds ∧
        IsRun SendRound.start SendRound.finish (t.restarted env) rounds ∧
        (∀ r ∈ rounds, r.Controlled) ∧
        (s.call env c).sndNxt = (lastState (t.restarted env) rounds).sndNxt := by
  have h := reach_steady hr
  refine ⟨fun now hwhy => ?_, call_stays env h, fun t sflags hc => ?_⟩
  · refine retransmit_sndNxt env now ?_
    rcases hwhy with hrto | hne
    · obtain ⟨e, he, hx⟩ := h.armed hrto
      exact h.lengths.sentFirst.front he hx
    · exact h.lengths.front_sent hne
  · obtain ⟨hnxt, hcall⟩ := call_enters env h hc
    obtain ⟨hstop, rounds, hrounds, hrun, hcontrolled, hlast⟩ := attemptSend_controlled env t sflags
    exact ⟨hnxt, hstop, rounds, hrounds, hrun, hcontrolled, hcall.trans hlast⟩

theorem flow_controlled_samples :
    (connecting.retransmit (still 4000) 4000).1.sndNxt = connecting.sndNxt ∧
      (pipelining.call (still 4000) (.notifyClock 4000)).sndNxt = pipelining.sndNxt :=
  ⟨(flow_controlled (.call _ _ (.fresh 1 1 _ _) trivial) (still 4000) (.notifyClock 4000)).1 4000
      (.inl (by decide)),
    (flow_controlled reach_pipelining (still 4000) (.notifyClock 4000)).2.1 rfl⟩

end Libjingle.PseudoTcp
