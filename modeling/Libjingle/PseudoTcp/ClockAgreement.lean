import Libjingle.PseudoTcp.Congestion
import Libjingle.PseudoTcp.Timer

/-!
# `NotifyClock` and `GetNextClock` agree

Right after `NotifyClock(now)` no deadline of `GetNextClock(now, ..)` has passed. `NotifyClock`
serves the retransmit timer, the probe of a closed window and the delayed acknowledgement one
after the other, and the probe's back-off moves the deadline of the retransmit timer as well. That
may carry a deadline which is not due half the clock's range ahead, where it counts as past.

## Results

* **`clock_agreement`**: the timeout is positive in every state reached, unless that happens.
-/

namespace Libjingle

/-! ## Deadlines -/

theorem timeDiff_add (now r : U32) (h : r.toNat < 2 ^ 31) : timeDiff (now + r) now = r.toNat := by
  unfold timeDiff
  rw [BitVec.add_comm, BitVec.add_sub_cancel, BitVec.toInt_eq_toNat_of_lt (by omega)]

theorem timeDiff_later {deadline later now : U32} (h : 0 < timeDiff deadline now)
    (hlater : timeDiff deadline now + (later.toNat : Int) < 2 ^ 31) :
    timeDiff (deadline + later) now = timeDiff deadline now + later.toNat := by
  unfold timeDiff at *
  have hsum : deadline + later - now = (deadline - now) + later := by bv_omega
  rw [hsum]
  generalize deadline - now = left at *
  rw [BitVec.toInt_eq_toNat_cond] at h hlater ⊢
  rw [BitVec.toInt_eq_toNat_cond]
  split at h <;> bv_omega

namespace PseudoTcp

variable {s : PseudoTcp} {now : U32}

/-- The deadline of the retransmit timer has not passed. -/
def RetransmitAhead (s : PseudoTcp) (now : U32) : Prop :=
  s.rtoBase ≠ 0 → 0 < timeDiff (s.rtoBase + s.rxRto) now

def ProbeAhead (s : PseudoTcp) (now : U32) : Prop :=
  s.sndWnd = 0 → 0 < timeDiff (s.lastsend + s.rxRto) now

/-- That of the delayed acknowledgement. -/
def AckAhead (s : PseudoTcp) (now : U32) : Prop :=
  s.tAck ≠ 0 → 0 < timeDiff (s.tAck + s.ackDelay) now

/-- The retransmit timer is not due, the window is probed, and the back-off takes the deadline of
the retransmit timer half the clock's range ahead. -/
def Outruns (s : PseudoTcp) (now : U32) : Prop :=
  s.rtoBase ≠ 0 ∧ 0 < timeDiff (s.rtoBase + s.rxRto) now ∧
    s.sndWnd = 0 ∧ timeDiff (s.lastsend + s.rxRto) now ≤ 0 ∧
    2 ^ 31 ≤ timeDiff (s.rtoBase + s.rxRto) now +
      ((umin maxRto (s.rxRto * 2)).toNat - s.rxRto.toNat)

theorem getNextClock_pos {t : Int} (hopen : s.state ≠ .closed) (hr : RetransmitAhead s now)
    (hp : ProbeAhead s now) (ha : AckAhead s now) (h : s.getNextClock now = some t) : 0 < t := by
  unfold getNextClock at h
  split at h
  · cases h
  split at h
  · cases h
  simp only at h
  obtain rfl := Option.some.inj h
  have hdefault : (0 : Int) < defaultTimeout := by decide
  have hack : 0 < (if s.tAck ≠ 0 then min defaultTimeout (timeDiff (s.tAck + s.ackDelay) now)
      else defaultTimeout) := by
    split
    · rename_i hset
      exact lt_min hdefault (ha hset)
    · exact hdefault
  generalize (if s.tAck ≠ 0 then min defaultTimeout (timeDiff (s.tAck + s.ackDelay) now)
    else defaultTimeout) = t₁ at hack ⊢
  have hretransmit : 0 < (if s.rtoBase ≠ 0 then min t₁ (timeDiff (s.rtoBase + s.rxRto) now)
      else t₁) := by
    split
    · rename_i hset
      exact lt_min hack (hr hset)
    · exact hack
  generalize (if s.rtoBase ≠ 0 then min t₁ (timeDiff (s.rtoBase + s.rxRto) now) else t₁) = t₂
    at hretransmit ⊢
  split
  · rename_i hclosed
    exact lt_min hretransmit (hp hclosed)
  · exact hretransmit

/-! ## `NotifyClock` -/

/-- A deadline of `m_rx_rto` from now on is ahead. -/
theorem rto_ahead (h : RtoInRange s) (now : U32) : 0 < timeDiff (now + s.rxRto) now := by
  have h1 := BitVec.le_def.mp h.1
  have h2 := BitVec.le_def.mp h.2
  have hmin : minRto.toNat = 250 := rfl
  have hmax : maxRto.toNat = 60000 := rfl
  rw [timeDiff_add now s.rxRto (by omega)]
  omega

theorem checkRetransmit_ahead (env : Env) (h : Steady s) (hrto : RtoInRange s)
    (hok : (s.checkRetransmit env now).2 = true) :
    ((s.checkRetransmit env now).1 = s ∨ (s.checkRetransmit env now).1.rtoBase = now) ∧
      RetransmitAhead (s.checkRetransmit env now).1 now := by
  have htuned : Tuned False s.mtuAdvise (s.checkRetransmit env now).1 :=
    Tuned.checkRetransmit ⟨hrto, False.elim, rfl⟩ now
  unfold checkRetransmit at hok htuned ⊢
  by_cases hdue : s.rtoBase ≠ 0 ∧ timeDiff (s.rtoBase + s.rxRto) now ≤ 0
  · rw [if_pos hdue] at hok htuned ⊢
    obtain ⟨e, he, -⟩ := h.armed hdue.1
    have hne : s.slist ≠ [] := List.ne_nil_of_mem he
    rw [if_neg hne] at hok htuned ⊢
    generalize s.retransmit env now = q at hok htuned ⊢
    obtain ⟨s₁, ok⟩ := q
    cases ok with
    | false => exact absurd hok Bool.false_ne_true
    | true => exact ⟨.inr rfl, fun _ => rto_ahead htuned.rto now⟩
  · rw [if_neg hdue]
    refine ⟨.inl rfl, fun hset => ?_⟩
    by_contra hpast
    exact hdue ⟨hset, not_lt.mp hpast⟩

theorem probe_keeps (env : Env) (s : PseudoTcp) (seq : U32) :
    (s.packet env seq 0 0 0).1.rtoBase = s.rtoBase ∧ (s.packet env seq 0 0 0).1.rxRto = s.rxRto ∧
      (s.packet env seq 0 0 0).1.sndWnd = s.sndWnd ∧
      (s.packet env seq 0 0 0).1.lastsend = s.lastsend ∧ (s.packet env seq 0 0 0).1.tAck = 0 ∧
      (s.packet env seq 0 0 0).1.state = s.state := by
  unfold packet
  simp only
  split
  · rename_i hfailed
    exact absurd rfl hfailed.2
  · exact ⟨rfl, rfl, rfl, rfl, rfl, rfl⟩

/-- The probe is served. The back-off leaves the deadline of the retransmit timer ahead, unless it
outruns the clock. -/
theorem checkProbe_ahead (env : Env) (hrto : RtoInRange s) (hahead : RetransmitAhead s now)
    (hno : s.rtoBase = now ∨ ¬ Outruns s now) (hok : (s.checkProbe env now).2 = true) :
    RetransmitAhead (s.checkProbe env now).1 now ∧ ProbeAhead (s.checkProbe env now).1 now := by
  have htuned : Tuned False s.mtuAdvise (s.checkProbe env now).1 :=
    Tuned.checkProbe ⟨hrto, False.elim, rfl⟩ now
  unfold checkProbe at hok htuned ⊢
  by_cases hdue : s.sndWnd = 0 ∧ timeDiff (s.lastsend + s.rxRto) now ≤ 0
  · rw [if_pos hdue] at hok htuned ⊢
    split at hok
    · exact absurd hok Bool.false_ne_true
    rename_i halive
    rw [if_neg halive] at htuned ⊢
    obtain ⟨hbase, hrx, -, -, -, -⟩ := probe_keeps env s (s.sndNxt - 1)
    generalize (s.packet env (s.sndNxt - 1) 0 0 0).1 = s₁ at hbase hrx htuned ⊢
    refine ⟨fun hset => ?_, fun _ => rto_ahead htuned.rto now⟩
    rcases hno with hnow | hno
    · have hrange := rto_ahead htuned.rto now
      show 0 < timeDiff (s₁.rtoBase + umin maxRto (s₁.rxRto * 2)) now
      rw [hbase, hnow]
      exact hrange
    · show 0 < timeDiff (s₁.rtoBase + umin maxRto (s₁.rxRto * 2)) now
      have hset' : s.rtoBase ≠ 0 := hbase ▸ hset
      have hpos := hahead hset'
      rw [hbase, hrx]
      have hgrow : s.rxRto.toNat ≤ (umin maxRto (s.rxRto * 2)).toNat := by
        have hmin := umin_toNat maxRto (s.rxRto * 2)
        have h2 := BitVec.le_def.mp hrto.2
        have hmax : maxRto.toNat = 60000 := rfl
        bv_omega
      have hsplit : s.rtoBase + umin maxRto (s.rxRto * 2) =
          s.rtoBase + s.rxRto + (umin maxRto (s.rxRto * 2) - s.rxRto) := by bv_omega
      have hdiff : (umin maxRto (s.rxRto * 2) - s.rxRto).toNat =
          (umin maxRto (s.rxRto * 2)).toNat - s.rxRto.toNat :=
        BitVec.toNat_sub_of_le hgrow
      have hnear : ¬ (2 ^ 31 ≤ timeDiff (s.rtoBase + s.rxRto) now +
          ((umin maxRto (s.rxRto * 2)).toNat - s.rxRto.toNat)) :=
        fun hfar => hno ⟨hset', hpos, hdue.1, hdue.2, hfar⟩
      rw [hsplit, timeDiff_later hpos (by rw [hdiff]; omega)]
      omega
  · rw [if_neg hdue]
    refine ⟨hahead, fun hclosed => ?_⟩
    by_contra hpast
    exact hdue ⟨hclosed, not_lt.mp hpast⟩

theorem checkDelayedAck_ahead (env : Env) (hr : RetransmitAhead s now) (hp : ProbeAhead s now) :
    RetransmitAhead (s.checkDelayedAck env now) now ∧
      ProbeAhead (s.checkDelayedAck env now) now ∧ AckAhead (s.checkDelayedAck env now) now := by
  unfold checkDelayedAck
  by_cases hdue : s.tAck ≠ 0 ∧ timeDiff (s.tAck + s.ackDelay) now ≤ 0
  · rw [if_pos hdue]
    obtain ⟨hbase, hrx, hwnd, hlast, hack, -⟩ := probe_keeps env s s.sndNxt
    unfold RetransmitAhead ProbeAhead AckAhead
    rw [hbase, hrx, hwnd, hlast, hack]
    exact ⟨hr, hp, fun h => absurd rfl h⟩
  · rw [if_neg hdue]
    refine ⟨hr, hp, fun hset => ?_⟩
    by_contra hpast
    exact hdue ⟨hset, not_lt.mp hpast⟩

/-! ## Runs -/

/-- **`NotifyClock` and `GetNextClock` agree** in every state reached and for every clock value:
when the connection is still open, the next timeout is positive, unless the back-off of the probe
takes the retransmit timer half the clock's range ahead. -/
theorem clock_agreement (hreach : Reach Always s) (env : Env) (now : U32)
    (hopen : (s.notifyClock env now).state ≠ .closed) (hno : ¬ Outruns s now) (t : Int)
    (ht : (s.notifyClock env now).getNextClock now = some t) : 0 < t := by
  have hsteady := reach_steady hreach
  have hrto := reach_rto hreach
  have hfrom : s.state ≠ .closed := by
    intro hclosed
    refine hopen ?_
    unfold notifyClock
    rw [if_pos hclosed]
    exact hclosed
  unfold notifyClock at hopen ht
  rw [if_neg hfrom] at hopen ht
  have hserved := @checkRetransmit_ahead s now env hsteady hrto
  have htuned : Tuned False s.mtuAdvise (s.checkRetransmit env now).1 :=
    Tuned.checkRetransmit ⟨hrto, False.elim, rfl⟩ now
  have hclosed : Acks anyRely s (s.checkRetransmit env now).1 (s.checkRetransmit env now).2 :=
    checkRetransmit_acks (serves_any env s) False.elim trivial
  generalize s.checkRetransmit env now = q at hopen ht hserved htuned hclosed
  obtain ⟨s₁, ok⟩ := q
  cases ok with
  | false => exact absurd hclosed.state hopen
  | true =>
    obtain ⟨hwhich, hahead⟩ := hserved rfl
    have hno₁ : s₁.rtoBase = now ∨ ¬ Outruns s₁ now := by
      rcases hwhich with hsame | hnow
      · have hsame : s₁ = s := hsame
        exact .inr (hsame.symm ▸ hno)
      · exact .inl hnow
    have hprobed := checkProbe_ahead env htuned.rto hahead hno₁
    have hclosed₁ : Acks anyRely s₁ (s₁.checkProbe env now).1 (s₁.checkProbe env now).2 :=
      checkProbe_acks (serves_any env s₁) False.elim now
    simp only at hopen ht
    generalize s₁.checkProbe env now = q at hopen ht hprobed hclosed₁
    obtain ⟨s₂, ok⟩ := q
    cases ok with
    | false => exact absurd hclosed₁.state hopen
    | true =>
      obtain ⟨hr, hp⟩ := hprobed rfl
      obtain ⟨hr, hp, ha⟩ := checkDelayedAck_ahead env hr hp
      exact getNextClock_pos hopen hr hp ha ht

/-! ## A connection whose timers nobody serves -/

/-- Half the clock's range after the start. -/
def muchLater : U32 := 2147483749

/-- A connection sends a byte, and another one half the clock's range later; then the peer closes
its window. -/
def stalled : PseudoTcp :=
  ((((connecting.call (still 1) (.notifyPacket (peerPacket 0 4 flagCtl [ctlConnect, 3, 1, 0]))).call
    (still 1) (.setOption .noDelay 1)).call (still 1) (.send (fun _ => 7) 1)).call
    (still muchLater) (.send (fun _ => 8) 1)).call (still muchLater)
    (.notifyPacket (⟨1, 4, 4, 0, 0, 0, 0, []⟩ : Packet).bytes)

theorem clock_agreement_connect :
    (connecting.notifyClock (still 4000) 4000).getNextClock 4000 = some 3000 ∧
      (0 : Int) < 3000 := by
  have hnext : (connecting.notifyClock (still 4000) 4000).getNextClock 4000 = some 3000 := by decide
  have hopen : (connecting.notifyClock (still 4000) 4000).state ≠ .closed := by decide
  have hwindow : connecting.sndWnd ≠ 0 := by decide
  exact ⟨hnext, clock_agreement (.call _ _ (.fresh 1 1 _ _) trivial) (still 4000) 4000 hopen
    (fun h => hwindow h.2.2.1) 3000 hnext⟩

/-- The probe's back-off takes the retransmit timer past half the clock's range: after `NotifyClock`
the timeout is negative. No clock value is 0. -/
theorem clock_outrun : Reach ClockRuns stalled ∧
    (stalled.notifyClock (still (muchLater + 3000)) (muchLater + 3000)).state = .established ∧
    (stalled.notifyClock (still (muchLater + 3000)) (muchLater + 3000)).getNextClock
      (muchLater + 3000) = some (-2147480748) := by
  have hone : ∀ _ : Nat, (1 : U32) ≠ 0 := fun _ => by decide
  have hlater : ∀ _ : Nat, muchLater ≠ 0 := fun _ => by decide
  refine ⟨?_, by decide, by decide⟩
  refine .call _ _ (.call _ _ (.call _ _ (.call _ _ (.call _ _ (.call _ _ (.fresh 1 1 _ _)
    ⟨hone, ?_⟩) ⟨hone, ?_⟩) ⟨hone, ?_⟩) ⟨hone, ?_⟩) ⟨hlater, ?_⟩) ⟨hlater, ?_⟩
  all_goals exact fun _ h => by cases h

end PseudoTcp

end Libjingle
