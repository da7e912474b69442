import Libjingle.PseudoTcp.Calls

/-!
# The sender's assertions cannot fail

Every place of the send path that asserts something, or follows an iterator that must not be
`end()`, leaves an entry in `log` when it goes wrong. `sender_assertions_hold` says that no run of
public calls leaves one, whatever segments arrive and whatever `TcpWritePacket` answers. The one
condition is on `SetOption`: a send buffer set in `TCP_LISTEN` must be able to hold the CONNECT
message.
-/

namespace Libjingle.PseudoTcp

variable {s : PseudoTcp}

/-- A send buffer set before the connection starts has at least 1024 bytes. -/
def BufferFits (_ : Env) (s : PseudoTcp) (c : Call) : Prop :=
  ∀ v, c = .setOption .sndBuf v → s.state = .listen → 1024 ≤ v.toNat

/-- A sender under its own accounting. -/
def strictRely : Rely :=
  ⟨fun _ _ _ => True, fun _ => True, fun _ _ _ => True, fun _ _ _ => True, True⟩

theorem reach_good (hr : Reach BufferFits s) : Good s := by
  refine (hr.steps_induct (r := strictRely) (P := fun _ => True) (fun env s c hc => ?_)
    (fun _ _ _ _ => trivial) (fun _ => good_new) fun _ _ _ _ => trivial).2 trivial
  refine ⟨fun _ _ _ => trivial, fun _ => trivial, fun _ _ => trivial, fun _ _ _ _ _ => trivial,
    fun _ _ _ => trivial, ?_⟩
  intro _ v hv hl
  have := hc v hv hl
  omega

/-- **No assertion of the sender fails in any run**: the loop that frees acknowledged segments
never finds `m_slist` empty, `attemptSend` always finds an unsent segment, the retransmit timer
never expires with `m_slist` empty, `ConsumeReadData` never takes more than is buffered, and every
retransmission from `m_slist.begin()` finds a segment there, one that has been transmitted. -/
theorem sender_assertions_hold (hr : Reach BufferFits s) :
    .assertFailed .freeEmpty ∉ s.log ∧ .assertFailed .noUnsent ∉ s.log ∧
      .assertFailed .timerEmpty ∉ s.log ∧ .assertFailed .consumeRead ∉ s.log ∧
      .assertFailed .transmitEnd ∉ s.log ∧ ∀ xmit, .retransmit xmit ∈ s.log → xmit ≠ 0 := by
  have hclean := (reach_good hr).accounts.clean
  have hnot : ∀ f, (Event.assertFailed f).breaks = true → .assertFailed f ∉ s.log := by
    intro f hf hmem
    rw [hclean _ hmem] at hf
    exact absurd hf (by simp)
  refine ⟨hnot _ rfl, hnot _ rfl, hnot _ rfl, hnot _ rfl, hnot _ rfl, fun xmit hmem => ?_⟩
  have := hclean _ hmem
  simpa [Event.breaks] using this

/-- A retransmission that the timer forces: `Connect`, then the clock three seconds later. -/
theorem sender_assertions_hold_timeout :
    ∃ s, Reach BufferFits s ∧ .retransmit 1 ∈ s.log ∧ .assertFailed .timerEmpty ∉ s.log := by
  have hr : Reach BufferFits (connecting.call (still 4000) (.notifyClock 4000)) :=
    .call _ _ (.call _ _ (.fresh 1 1 _ _) fun _ h => absurd h (by simp)) fun _ h =>
      absurd h (by simp)
  exact ⟨_, hr, by decide, (sender_assertions_hold hr).2.2.1⟩

end Libjingle.PseudoTcp
