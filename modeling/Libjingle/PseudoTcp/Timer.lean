import Libjingle.PseudoTcp.Calls

/-!
# The retransmit timer is armed while data is unacknowledged

`m_rto_base` is a time stamp with 0 for "off". A clock that reads 0 switches the timer off at the
moment it should be armed.

* `timer_armed`: in every state reached by calls that neither read nor are passed the clock value
  0, the timer is armed while something is unacknowledged.
-/

namespace Libjingle.PseudoTcp

variable {s : PseudoTcp}

/-- While data is unacknowledged the timer is armed: `NotifyClock` retransmits when it expires. -/
def Armed (o : Outgoing) : Prop := o.sndUna ≠ o.sndNxt → o.rtoBase ≠ 0

def ClockRuns (env : Env) (_ : PseudoTcp) (c : Call) : Prop :=
  (∀ i, env.now i ≠ 0) ∧ ∀ t, c = .notifyClock t → t ≠ 0

/-- A sender whose clock is never 0. -/
def runningRely : Rely :=
  ⟨fun _ _ _ => True, fun t => t ≠ 0, fun _ _ _ => True, fun _ _ _ => True, False⟩

theorem Armed.step {o o' : Outgoing} (h : SendStep runningRely o o') (ha : Armed o) : Armed o' := by
  cases h with
  | note e he => exact ha
  | emit p w hh hp => exact ha
  | cut l₁ l₂ seg n hl hx hn =>
    rw [cut_eq hl]
    split <;> exact ha
  | transmit l₁ l₂ seg n now p w hl hsent hx hh hp hc hwhy =>
    intro _
    simp only [Outgoing.transmitted]
    split
    · exact hc
    · assumption
  | queue data len bCtrl hn hq => exact ha
  | greet w hw hq => exact ha
  | window w hacc => exact ha
  | ack ack w now h₁ h₂ hc hacc =>
    intro hne
    have hu : (o.acked ack w now).sndUna = ack := rfl
    have hn : (o.acked ack w now).sndNxt = o.sndNxt := rfl
    have hb : (o.acked ack w now).rtoBase = if ack = o.sndNxt then 0 else now := rfl
    rw [hu, hn] at hne
    rw [hb, if_neg hne]
    exact hc
  | timer now hb hc => exact fun _ => hc
  | resize mem size hsz => exact ha

/-- **While data is unacknowledged the timer is armed**, in every state reached with a clock that
is never 0; `GetNextClock` then asks for a call in time for the retransmission. -/
theorem timer_armed (hr : Reach ClockRuns s) :
    Armed s.toOutgoing ∧
      (s.sndUna ≠ s.sndNxt → s.state ≠ .closed → ∀ now t, s.getNextClock now = some t →
        t ≤ timeDiff (s.rtoBase + s.rxRto) now) := by
  have h : Armed s.toOutgoing :=
    (hr.steps_induct (r := runningRely) (P := Armed)
      (fun env s c hc => ⟨fun _ _ _ => trivial, hc.1, hc.2, fun _ _ _ _ _ => trivial,
        fun _ _ _ => trivial, fun h => h.elim⟩)
      (fun _ _ _ _ hne => absurd rfl hne) (fun h => h.elim) fun _ _ => Armed.step).1
  refine ⟨h, fun hne hopen now t ht => ?_⟩
  unfold getNextClock at ht
  rw [if_neg hopen] at ht
  split at ht
  · exact absurd ht (by simp)
  split at ht
  · exact absurd ht (by simp)
  obtain rfl := Option.some.inj ht
  simp only [if_pos (h hne)]
  split
  · exact (Int.min_le_left _ _).trans (Int.min_le_right _ _)
  · exact Int.min_le_right _ _

theorem timer_armed_connecting :
    Reach ClockRuns connecting ∧ Armed connecting.toOutgoing := by
  have hr : Reach ClockRuns connecting :=
    .call _ _ (.fresh 1 1 _ _)
      ⟨fun _ => show (1 : U32) ≠ 0 by decide, fun _ h => absurd h (by simp)⟩
  exact ⟨hr, (timer_armed hr).1⟩

/-- **At clock value 0 the timer stays off.** `Connect` leaves four bytes unacknowledged. -/
theorem timer_unarmed_at_zero :
    ∃ s, Reach Always s ∧ s.state ≠ .closed ∧ s.sndUna ≠ s.sndNxt ∧ s.rtoBase = 0 :=
  ⟨(new 1 1 (fun _ => 0) (fun _ => 0)).call (still 0) .connect,
    .call _ _ (.fresh 1 1 _ _) trivial, by decide, by decide, by decide⟩

end Libjingle.PseudoTcp
