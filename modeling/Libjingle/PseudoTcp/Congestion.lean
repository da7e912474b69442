import Libjingle.PseudoTcp.Retransmission
import Libjingle.PseudoTcp.Window

/-!
# Congestion control and the retransmit timeout

What `m_rx_rto`, `m_mss`, `m_cwnd` and `m_ssthresh` can be. `m_rx_rto` keeps its bounds whatever
happens. The others do not: `adjustMTU` subtracts `PACKET_OVERHEAD` from the advised MTU without a
check, and an update of `m_cwnd` may wrap around to 0.

## Results

* **`congestion_in_range`**: in every run of careful calls the values keep their bounds, no packet
  is larger than `MAX_PACKET`, and the division in congestion avoidance has a divisor.
-/

namespace Libjingle.PseudoTcp

open Lib

variable {strict : Prop} {mtu : U32} {env : Env} {s s' : PseudoTcp} {seg : Segment} {now : U32}

/-! ## The bounds -/

/-- `MIN_RTO` and `MAX_RTO` bound `m_rx_rto`. -/
def RtoInRange (s : PseudoTcp) : Prop := minRto ≤ s.rxRto ∧ s.rxRto ≤ maxRto

/-- The bounds on the segment size and the congestion window, with those on `m_ssthresh` and
`m_mtu_advise` that they rest on. No packet was too large. -/
structure Sized (s : PseudoTcp) : Prop where
  mss : 0 < s.mss
  mssMax : s.mss.toNat + packetOverhead.toNat ≤ 65535
  cwnd : 0 < s.cwnd
  ssthresh : s.ssthresh.toNat ≤ 0xFFFF0000
  advise : s.mtuAdvise.toNat ≤ 65535
  packets : .assertFailed .packetSize ∉ s.log

/-- All bounds, where `mtu` is the advised MTU; under `strict` those that a careless call loses as
well. -/
structure Tuned (strict : Prop) (mtu : U32) (s : PseudoTcp) : Prop where
  rto : RtoInRange s
  sized : strict → Sized s
  advise : s.mtuAdvise = mtu

/-- The members that the bounds are about. -/
structure Tuning where
  rxRto : U32
  mss : U32
  cwnd : U32
  ssthresh : U32
  mtuAdvise : U32

def tuning (s : PseudoTcp) : Tuning := ⟨s.rxRto, s.mss, s.cwnd, s.ssthresh, s.mtuAdvise⟩

theorem Tuned.keep (h : Tuned strict mtu s) (ht : s'.tuning = s.tuning)
    (hlog : strict → .assertFailed .packetSize ∈ s'.log → .assertFailed .packetSize ∈ s.log) :
    Tuned strict mtu s' := by
  have hrto : s'.rxRto = s.rxRto := congrArg Tuning.rxRto ht
  have hmss : s'.mss = s.mss := congrArg Tuning.mss ht
  have hcwnd : s'.cwnd = s.cwnd := congrArg Tuning.cwnd ht
  have hss : s'.ssthresh = s.ssthresh := congrArg Tuning.ssthresh ht
  have hadv : s'.mtuAdvise = s.mtuAdvise := congrArg Tuning.mtuAdvise ht
  refine ⟨?_, fun hs => ?_, hadv.trans h.advise⟩
  · unfold RtoInRange
    rw [hrto]
    exact h.rto
  · obtain ⟨h1, h2, h3, h4, h5, h6⟩ := h.sized hs
    exact ⟨hmss ▸ h1, hmss ▸ h2, hcwnd ▸ h3, hss ▸ h4, hadv ▸ h5, fun hmem => h6 (hlog hs hmem)⟩

variable {o : Outgoing}

theorem mem_note {e e' : Event} (h : e ∈ (o.note e').log) (hne : e ≠ e') : e ∈ o.log :=
  (List.mem_cons.mp h).resolve_left hne

theorem mem_assert {e : Event} {c : Bool} {f : Fault} (h : e ∈ (o.assert c f).log)
    (hne : c = true ∨ e ≠ .assertFailed f) : e ∈ o.log := by
  unfold Outgoing.assert at h
  cases c with
  | true => exact h
  | false =>
    exact (List.mem_cons.mp h).resolve_left (hne.resolve_left Bool.false_ne_true)

/-! ## Packets -/

theorem Tuned.packet (h : Tuned strict mtu s) (seq : U32) (flags : U8) (offset : U32) {len : U32}
    (hlen : strict → headerSize + len ≤ maxPacket) :
    Tuned strict mtu (s.packet env seq flags offset len).1 := by
  refine h.keep ?_ fun hs hmem => ?_
  · unfold PseudoTcp.packet
    simp only
    split <;> rfl
  · rw [packet_out] at hmem
    have hread : Event.assertFailed .packetSize ∈
        (s.toOutgoing.assert (headerSize + len ≤ maxPacket) .packetSize).log :=
      mem_assert hmem (.inr (by simp))
    exact mem_assert hread (.inl (decide_eq_true (hlen hs)))

/-- A packet of at most `m_mss` bytes is not too large. -/
theorem Sized.fits (h : Sized s) {len : U32} (hlen : len ≤ s.mss) :
    headerSize + len ≤ maxPacket := by
  have hmss := h.mssMax
  unfold packetOverhead headerSize at hmss
  unfold headerSize maxPacket
  bv_omega

theorem Tuned.packetFor (h : Tuned strict mtu s) (e : SSegment) {n : U32} (hn : n ≤ s.mss) :
    Tuned strict mtu (s.packetFor env e n).1 :=
  h.packet _ _ _ fun hs => (h.sized hs).fits hn

theorem Tuned.ack (h : Tuned strict mtu s) (seq : U32) :
    Tuned strict mtu (s.packet env seq 0 0 0).1 :=
  h.packet _ _ _ fun _ => by decide

theorem packetMaximums_overhead :
    ∀ m ∈ packetMaximums, m = 0 ∨ packetOverhead.toNat < m.toNat := by
  simp [packetMaximums, packetOverhead, headerSize]

theorem Tuned.lower (h : Tuned strict mtu s) {m : U16} (hm : packetOverhead.toNat < m.toNat)
    (level : U32) :
    Tuned strict mtu { s with
      mss := m.setWidth 32 - packetOverhead
      msslevel := level
      cwnd := 2 * (m.setWidth 32 - packetOverhead) } := by
  refine ⟨h.rto, fun hs => ?_, h.advise⟩
  have hlt := m.isLt
  have hmss : (m.setWidth 32 - packetOverhead : U32).toNat = m.toNat - packetOverhead.toNat := by
    unfold packetOverhead headerSize at hm ⊢
    bv_omega
  generalize m.setWidth 32 - packetOverhead = mss at hmss ⊢
  exact ⟨show 0 < mss by bv_omega, show mss.toNat + packetOverhead.toNat ≤ 65535 by omega,
    show 0 < 2 * mss by bv_omega, (h.sized hs).ssthresh, (h.sized hs).advise, (h.sized hs).packets⟩

theorem Tuned.transmitLower (e : SSegment) : ∀ (levels : List U16) {s : PseudoTcp} (n : U32),
    (∀ m ∈ levels, m = 0 ∨ packetOverhead.toNat < m.toNat) → Tuned strict mtu s →
    Tuned strict mtu (transmitLower env e levels s n).1
  | [], _, _, _, h => h
  | m :: rest, s, n, hlevels, h => by
    have hrest : ∀ m ∈ rest, m = 0 ∨ packetOverhead.toNat < m.toNat :=
      fun m hm => hlevels m (List.mem_cons_of_mem _ hm)
    unfold PseudoTcp.transmitLower
    split
    · exact h
    rename_i hm
    have hlower := h.lower ((hlevels m List.mem_cons_self).resolve_left hm) (s.msslevel + 1)
    simp only
    generalize m.setWidth 32 - packetOverhead = mss at hlower ⊢
    split
    · have hp : Tuned strict mtu (PseudoTcp.packetFor env
          { s with mss := mss, msslevel := s.msslevel + 1, cwnd := 2 * mss } e mss).1 :=
        hlower.packetFor e (BitVec.le_refl mss)
      generalize ({ s with mss := mss, msslevel := s.msslevel + 1, cwnd := 2 * mss } :
        PseudoTcp).packetFor env e mss = q at hp ⊢
      obtain ⟨s₁, result⟩ := q
      cases result with
      | success => exact hp
      | fail => exact hp
      | tooLarge => exact Tuned.transmitLower e rest mss hrest hp
    · exact Tuned.transmitLower e rest n hrest hlower

theorem umin_le_right (a b : U32) : umin a b ≤ b := by
  rw [BitVec.le_def, umin_toNat]
  exact Nat.min_le_right _ _

theorem Tuned.transmitPacket (h : Tuned strict mtu s) (e : SSegment) :
    Tuned strict mtu (s.transmitPacket env e).1 := by
  have hp : Tuned strict mtu (s.packetFor env e (umin e.len s.mss)).1 :=
    h.packetFor e (umin_le_right e.len s.mss)
  unfold PseudoTcp.transmitPacket
  simp only
  generalize s.packetFor env e (umin e.len s.mss) = q at hp ⊢
  obtain ⟨s₁, result⟩ := q
  cases result with
  | success => exact hp
  | fail => exact hp
  | tooLarge =>
    exact Tuned.transmitLower e _ _
      (fun m hm => packetMaximums_overhead m (List.mem_of_mem_drop hm)) hp

theorem Tuned.transmit (h : Tuned strict mtu s) (i : Nat) (now : U32) :
    Tuned strict mtu (s.transmit env i now).1 := by
  unfold PseudoTcp.transmit
  split
  · exact h.keep rfl fun _ hmem => mem_note hmem (by simp)
  · rename_i e _
    by_cases hlimit : e.xmit ≥ (if s.state = .established then 15 else 30)
    · rw [if_pos hlimit]
      exact h
    rw [if_neg hlimit]
    have hp : Tuned strict mtu (s.transmitPacket env e).1 := h.transmitPacket e
    generalize s.transmitPacket env e = q at hp ⊢
    obtain ⟨s₁, sent⟩ := q
    cases sent with
    | none => exact hp
    | some n => exact hp.keep rfl fun _ => id

theorem Tuned.retransmit (h : Tuned strict mtu s) (now : U32) :
    Tuned strict mtu (s.retransmit env now).1 := by
  unfold PseudoTcp.retransmit
  split
  · exact h.keep rfl fun _ hmem => mem_note hmem (by simp)
  · rename_i front rest _
    exact Tuned.transmit (s := s.note (.retransmit front.xmit))
      (h.keep rfl fun _ hmem => mem_note hmem (by simp)) 0 now

/-! ## `attemptSend` -/

theorem cut_log (o : Outgoing) (i : Nat) (n : U32) : (o.cut i n).log = o.log := by
  unfold Outgoing.cut
  split
  · split <;> rfl
  · rfl

theorem Tuned.sendAck (h : Tuned strict mtu s) (sflags : SendFlags) :
    Tuned strict mtu (s.sendAck env sflags) := by
  unfold PseudoTcp.sendAck
  split
  · exact h
  split
  · exact h.ack _
  · exact h.keep rfl fun _ => id

theorem Tuned.attemptSendLoop (now : U32) : ∀ (fuel : Nat) {s : PseudoTcp} (sflags : SendFlags),
    Tuned strict mtu s → Tuned strict mtu (attemptSendLoop env now fuel s sflags)
  | 0, _, _, h => h
  | fuel + 1, s, sflags, h => by
    unfold PseudoTcp.attemptSendLoop
    simp only
    split
    · exact h.sendAck sflags
    split
    · exact h
    split
    · exact h.keep rfl fun _ hmem => mem_note hmem (by simp)
    · rename_i i _
      have hcut : Tuned strict mtu { s with toOutgoing := s.toOutgoing.cut i s.sendQuota } :=
        h.keep rfl fun _ hmem => cut_log s.toOutgoing i s.sendQuota ▸ hmem
      have ht : Tuned strict mtu (PseudoTcp.transmit env
          { s with toOutgoing := s.toOutgoing.cut i s.sendQuota } i now).1 := hcut.transmit i now
      generalize ({ s with toOutgoing := s.toOutgoing.cut i s.sendQuota }).transmit env i now = q
        at ht ⊢
      obtain ⟨s₁, ok⟩ := q
      cases ok with
      | false => exact ht
      | true => exact Tuned.attemptSendLoop now fuel .none ht

theorem Tuned.attemptSend (h : Tuned strict mtu s) (sflags : SendFlags) :
    Tuned strict mtu (s.attemptSend env sflags) := by
  rw [attemptSend_eq]
  refine Tuned.attemptSendLoop _ _ _ ⟨h.rto, fun hs => ?_, h.advise⟩
  obtain ⟨h1, h2, h3, h4, h5, h6⟩ := h.sized hs
  refine ⟨h1, h2, ?_, h4, h5, h6⟩
  unfold restarted
  simp only
  split
  · exact h1
  · exact h3

/-! ## What may go wrong -/

/-- The packet makes `process` run `adjustMTU`: the CONNECT message that answers ours, or the first
packet after the answer to the peer's. -/
def Establishes (env : Env) (s : PseudoTcp) (seg : Segment) : Prop :=
  s.state = .synSent ∧ seg.flags &&& flagCtl ≠ 0 ∨
    s.state = .synReceived ∧ seg.flags &&& flagCtl = 0 ∧
      (((s.controlled env seg).updateTimestamp seg).processAck env (env.now s.ticks) seg).2 = true

/-- `congestionAck` takes `m_cwnd` to 0: around 2^32, or with a `m_ssthresh` of 0 at the end of the
recovery. -/
def AckOverflows (env : Env) (s : PseudoTcp) (now nAcked : U32) : Prop :=
  if s.dupAcks ≥ 3 then
    if s.sndUna ≥ s.recover then
      s.ssthresh = 0 ∨ (s.sndNxt - s.sndUna).toNat + s.mss.toNat = 2 ^ 32
    else
      let r := s.retransmit env now
      r.2 = true ∧ r.1.cwnd.toNat - nAcked.toNat + r.1.mss.toNat = 2 ^ 32
  else s.ssthresh ≤ s.cwnd ∧
    s.cwnd.toNat + max 1 (s.mss.toNat * s.mss.toNat / s.cwnd.toNat) = 2 ^ 32

/-- `processAck` does. -/
def Overflows (env : Env) (s : PseudoTcp) (now : U32) (seg : Segment) : Prop :=
  if seg.ack > s.sndUna ∧ seg.ack ≤ s.sndNxt then
    let r := s.updateRtt now seg
    AckOverflows env { r with toOutgoing := r.toOutgoing.acked seg.ack (r.scaledWnd seg) now } now
      (seg.ack - r.sndUna)
  else
    seg.ack = s.sndUna ∧ seg.len = 0 ∧ s.sndUna ≠ s.sndNxt ∧ s.dupAcks + 1 > 3 ∧
      s.cwnd.toNat + s.mss.toNat = 2 ^ 32

/-- `adjustMTU` does not run with an MTU of `PACKET_OVERHEAD` or less, and an acknowledgement does
not take `m_cwnd` to 0. -/
structure Careful (env : Env) (s : PseudoTcp) (c : Call) : Prop where
  notified : ∀ mtu, c = .notifyMTU mtu → s.state = .established →
    packetOverhead < mtu.setWidth 32
  established : ∀ buffer, c = .notifyPacket buffer → Arrives buffer → Admits s (wire env buffer) →
    Establishes env s (wire env buffer) → packetOverhead < s.mtuAdvise
  acked : ∀ buffer, c = .notifyPacket buffer → Arrives buffer → Admits s (wire env buffer) →
    ¬ Overflows env ((s.controlled env (wire env buffer)).updateTimestamp (wire env buffer))
      (env.now s.ticks) (wire env buffer)

/-! ## `adjustMTU` and the receive buffer -/

theorem Tuned.adjustMTU (h : Tuned strict mtu s) (hmtu : strict → packetOverhead < mtu) :
    Tuned strict mtu s.adjustMTU := by
  refine ⟨h.rto, fun hs => ?_, h.advise⟩
  obtain ⟨-, -, h3, h4, h5, h6⟩ := h.sized hs
  have hgt := h.advise.symm ▸ hmtu hs
  have hmss : (s.mtuAdvise - packetOverhead).toNat = s.mtuAdvise.toNat - packetOverhead.toNat := by
    bv_omega
  have hlt : packetOverhead.toNat < s.mtuAdvise.toNat := hgt
  unfold PseudoTcp.adjustMTU
  generalize s.mtuAdvise - packetOverhead = mss at hmss ⊢
  have hss := umax_toNat s.ssthresh (2 * mss)
  have hcwnd := umax_toNat s.cwnd mss
  refine ⟨show 0 < mss by bv_omega, show mss.toNat + packetOverhead.toNat ≤ 65535 by omega,
    show 0 < umax s.cwnd mss by bv_omega, ?_, h5, h6⟩
  show (umax s.ssthresh (2 * mss)).toNat ≤ 0xFFFF0000
  rw [hss]
  have htwo : (2 * mss).toNat ≤ 2 * mss.toNat := by
    rw [BitVec.toNat_mul]
    exact Nat.mod_le _ _
  omega

theorem roundedSize_le (size : U32) : (roundedSize size).toNat ≤ 0xFFFF0000 := by
  obtain ⟨k, hk, h1, h2, h3⟩ := scaleFor_spec 16 size 0
  have hk' : (scaleFor 16 size 0).2.toNat = k := by
    rw [h2, zero_add, BitVec.toNat_ofNat]
    omega
  have hsize := h3 (by have := size.isLt; omega)
  unfold roundedSize
  rw [hk', h1, BitVec.toNat_shiftLeft, Nat.shiftLeft_eq]
  refine (Nat.mod_le _ _).trans ?_
  calc (size >>> k).toNat * 2 ^ k ≤ 0xFFFF * 2 ^ 16 :=
        Nat.mul_le_mul hsize (Nat.pow_le_pow_right (by omega) hk)
    _ = 0xFFFF0000 := rfl

theorem Tuned.resizeReceiveBuffer (h : Tuned strict mtu s) (size : U32) :
    Tuned strict mtu (s.resizeReceiveBuffer env size) := by
  refine ⟨h.rto, fun hs => ?_, h.advise⟩
  obtain ⟨h1, h2, h3, -, h5, h6⟩ := h.sized hs
  exact ⟨h1, h2, h3, roundedSize_le size, h5, fun hmem => h6 (mem_assert hmem (.inr (by simp)))⟩

theorem Tuned.parseOptions (h : Tuned strict mtu s) (data : List U8) :
    Tuned strict mtu (s.parseOptions env data) := by
  obtain ⟨x, heq⟩ | ⟨-, heq⟩ := parseOptions_cases env s data
  · rw [heq]
    exact h.keep rfl fun _ => id
  · rw [heq]
    exact (h.resizeReceiveBuffer defaultRcvBufSize).keep rfl fun _ => id

/-! ## `process` -/

theorem queue_log (data : Nat → U8) {len : U32} {bCtrl : Bool}
    (h : .assertFailed .packetSize ∈ (o.queue data len bCtrl).1.log) :
    .assertFailed .packetSize ∈ o.log := by
  have hmem : Event.assertFailed .packetSize ∈
      (o.assert (decide (len.toNat ≤ o.sbuf.getWriteRemaining) || !bCtrl) .queueCtrl).log := h
  exact mem_assert hmem (.inr (by simp))

theorem Tuned.queueConnectMessage (h : Tuned strict mtu s) :
    Tuned strict mtu s.queueConnectMessage :=
  h.keep rfl fun _ hmem => queue_log (fun i => s.connectMessage.getD i 0) hmem

theorem Tuned.open (h : Tuned strict mtu s) (hmtu : strict → packetOverhead < mtu) :
    Tuned strict mtu ({ s with state := .established }.adjustMTU.note .onTcpOpen) := by
  have hopen : Tuned strict mtu { s with state := .established } := h.keep rfl fun _ => id
  exact (hopen.adjustMTU hmtu).keep rfl fun _ hmem => mem_note hmem (by simp)

theorem Tuned.closedown (h : Tuned strict mtu s) (err : TcpError) :
    Tuned strict mtu (s.closedown err) :=
  h.keep rfl fun _ hmem => mem_note hmem (by simp)

theorem Tuned.processControl (h : Tuned strict mtu s)
    (hmtu : strict → s.state = .synSent → seg.flags &&& flagCtl ≠ 0 →
      seg.len ≠ 0 ∧ seg.data 0 = ctlConnect → packetOverhead < mtu) :
    Tuned strict mtu (s.processControl env seg).1 := by
  unfold PseudoTcp.processControl
  split
  · exact h
  rename_i hctl
  split
  · exact h
  rename_i hlen
  split
  · rename_i hconnect
    have hp : Tuned strict mtu (s.parseOptions env (optionBytes seg)) := h.parseOptions _
    obtain ⟨-, -, hstate, -⟩ := parseOptions_spec env s (optionBytes seg)
    unfold optionBytes at hp hstate
    simp only
    generalize s.parseOptions env (fetch (fun k => seg.data (1 + k)) (seg.len - 1).toNat) = s₁
      at hp hstate ⊢
    split
    · have hnew : Tuned strict mtu { s₁ with state := .synReceived } := hp.keep rfl fun _ => id
      exact hnew.queueConnectMessage
    split
    · rename_i hsent
      exact hp.open fun hs => hmtu hs (hstate ▸ hsent) hctl ⟨hlen, hconnect⟩
    · exact hp
  · exact h

theorem bound_range (x : U32) :
    minRto ≤ bound minRto x maxRto ∧ bound minRto x maxRto ≤ maxRto := by
  have hmin := umin_toNat (umax minRto x) maxRto
  have hmax := umax_toNat minRto x
  unfold bound
  have h1 : minRto.toNat = 250 := rfl
  have h2 : maxRto.toNat = 60000 := rfl
  rw [BitVec.le_def, BitVec.le_def, hmin, hmax]
  omega

theorem Tuned.updateRtt (h : Tuned strict mtu s) (now : U32) (seg : Segment) :
    Tuned strict mtu (s.updateRtt now seg) := by
  unfold PseudoTcp.updateRtt
  split
  · exact h
  simp only
  split
  · refine ⟨bound_range _, fun hs => ?_, h.advise⟩
    obtain ⟨h1, h2, h3, h4, h5, h6⟩ := h.sized hs
    exact ⟨h1, h2, h3, h4, h5, h6⟩
  · exact h.keep rfl fun _ hmem => mem_note hmem (by simp)

theorem acked_log {ack wnd : U32} (h : .assertFailed .packetSize ∈ (o.acked ack wnd now).log) :
    .assertFailed .packetSize ∈ o.log := by
  have hfree := mem_assert (o := ({ o with
      sndWnd := wnd
      sndUna := ack
      rtoBase := if ack = o.sndNxt then 0 else now }.assert
        ((ack - o.sndUna).toNat ≤ o.sbuf.dataLength) .consumeRead)) h (.inr (by simp))
  exact mem_assert hfree (.inr (by simp))

theorem add_pos_of_ne {a b : U32} (ha : 0 < a) (h : a.toNat + b.toNat ≠ 2 ^ 32) : 0 < a + b := by
  bv_omega

/-- The `m_ssthresh` and the `m_cwnd` that start the recovery. -/
theorem recovery_cwnd (nInFlight : U32) {mss : U32} (h1 : 0 < mss)
    (h2 : mss.toNat + packetOverhead.toNat ≤ 65535) :
    (umax (nInFlight / 2) (2 * mss)).toNat ≤ 0xFFFF0000 ∧
      0 < umax (nInFlight / 2) (2 * mss) + 3 * mss := by
  have hmax := umax_toNat (nInFlight / 2) (2 * mss)
  have hhalf : (nInFlight / 2).toNat < 2 ^ 31 := by
    rw [BitVec.toNat_udiv]
    exact Nat.div_lt_of_lt_mul nInFlight.isLt
  have hsmall : mss.toNat ≤ 65535 := le_trans (Nat.le_add_right _ _) h2
  have hpos : 0 < mss.toNat := h1
  have htwo : (2 * mss).toNat = 2 * mss.toNat := by
    rw [BitVec.toNat_mul]
    exact Nat.mod_eq_of_lt (by show 2 * mss.toNat < 2 ^ 32; omega)
  have hthree : (3 * mss).toNat = 3 * mss.toNat := by
    rw [BitVec.toNat_mul]
    exact Nat.mod_eq_of_lt (by show 3 * mss.toNat < 2 ^ 32; omega)
  refine ⟨by omega, ?_⟩
  rw [BitVec.lt_def, BitVec.toNat_add, hthree, Nat.mod_eq_of_lt (by omega)]
  show 0 < _
  omega

theorem Tuned.congestionAck (h : Tuned strict mtu s) {nAcked : U32}
    (hno : strict → ¬ AckOverflows env s now nAcked) :
    Tuned strict mtu (s.congestionAck env now nAcked).1 := by
  unfold AckOverflows at hno
  unfold PseudoTcp.congestionAck
  by_cases hdup : s.dupAcks ≥ 3
  · simp only [if_pos hdup] at hno ⊢
    by_cases hexit : s.sndUna ≥ s.recover
    · simp only [if_pos hexit] at hno ⊢
      refine ⟨h.rto, fun hs => ?_, h.advise⟩
      obtain ⟨h1, h2, h3, h4, h5, h6⟩ := h.sized hs
      have hne := hno hs
      rw [not_or] at hne
      refine ⟨h1, h2, ?_, h4, h5, h6⟩
      have hmin := umin_toNat s.ssthresh (s.sndNxt - s.sndUna + s.mss)
      show 0 < umin s.ssthresh (s.sndNxt - s.sndUna + s.mss)
      have hss : 0 < s.ssthresh := by
        have := hne.1
        bv_omega
      have hsum : 0 < s.sndNxt - s.sndUna + s.mss := by
        have := hne.2
        bv_omega
      bv_omega
    · simp only [if_neg hexit] at hno ⊢
      have hr : Tuned strict mtu (s.retransmit env now).1 := h.retransmit now
      generalize s.retransmit env now = q at hno hr ⊢
      obtain ⟨s₁, ok⟩ := q
      cases ok with
      | false => exact hr.closedown _
      | true =>
        refine ⟨hr.rto, fun hs => ?_, hr.advise⟩
        obtain ⟨h1, h2, h3, h4, h5, h6⟩ := hr.sized hs
        refine ⟨h1, h2, ?_, h4, h5, h6⟩
        have hne : ¬ (s₁.cwnd.toNat - nAcked.toNat + s₁.mss.toNat = 2 ^ 32) :=
          fun heq => hno hs ⟨rfl, heq⟩
        have hmin := umin_toNat nAcked s₁.cwnd
        show 0 < s₁.cwnd + (s₁.mss - umin nAcked s₁.cwnd)
        simp only at h1 h3
        bv_omega
  · simp only [if_neg hdup] at hno ⊢
    refine ⟨h.rto, fun hs => ?_, h.advise⟩
    obtain ⟨h1, h2, h3, h4, h5, h6⟩ := h.sized hs
    refine ⟨h1, h2, ?_, h4, h5, h6⟩
    have hover : packetOverhead.toNat = 116 := rfl
    show 0 < (if s.cwnd < s.ssthresh then s.cwnd + s.mss
      else s.cwnd + umax 1 (s.mss * s.mss / s.cwnd))
    split
    · exact add_pos_of_ne h3 (by bv_omega)
    · rename_i hslow
      refine add_pos_of_ne h3 fun heq => hno hs ⟨BitVec.not_lt.mp hslow, ?_⟩
      have hsquare : (s.mss * s.mss).toNat = s.mss.toNat * s.mss.toNat := by
        rw [BitVec.toNat_mul]
        refine Nat.mod_eq_of_lt ?_
        calc s.mss.toNat * s.mss.toNat ≤ 65419 * 65419 := Nat.mul_le_mul (by omega) (by omega)
          _ < 2 ^ 32 := by decide
      rw [umax_toNat, BitVec.toNat_udiv, hsquare] at heq
      exact heq

theorem Tuned.countDupAck (h : Tuned strict mtu s)
    (hno : strict → s.dupAcks + 1 > 3 → s.cwnd.toNat + s.mss.toNat ≠ 2 ^ 32) :
    Tuned strict mtu (s.countDupAck env now).1 := by
  unfold PseudoTcp.countDupAck
  simp only
  have hcount : Tuned strict mtu { s with dupAcks := s.dupAcks + 1 } := h.keep rfl fun _ => id
  split
  · have hr :
        Tuned strict mtu (PseudoTcp.retransmit env { s with dupAcks := s.dupAcks + 1 } now).1 :=
      hcount.retransmit now
    generalize ({ s with dupAcks := s.dupAcks + 1 }).retransmit env now = q at hr ⊢
    obtain ⟨s₁, ok⟩ := q
    cases ok with
    | false => exact hr.closedown _
    | true =>
      refine ⟨hr.rto, fun hs => ?_, hr.advise⟩
      obtain ⟨h1, h2, h3, h4, h5, h6⟩ := hr.sized hs
      obtain ⟨hss, hcwnd⟩ := recovery_cwnd (s₁.sndNxt - s₁.sndUna) h1 h2
      exact ⟨h1, h2, hcwnd, hss, h5, h6⟩
  split
  · rename_i hmore
    refine ⟨h.rto, fun hs => ?_, h.advise⟩
    obtain ⟨h1, h2, h3, h4, h5, h6⟩ := h.sized hs
    exact ⟨h1, h2, add_pos_of_ne h3 (hno hs hmore), h4, h5, h6⟩
  · exact hcount

theorem Tuned.processAck (h : Tuned strict mtu s) (hno : strict → ¬ Overflows env s now seg) :
    Tuned strict mtu (s.processAck env now seg).1 := by
  unfold Overflows at hno
  unfold PseudoTcp.processAck
  by_cases hnew : seg.ack > s.sndUna ∧ seg.ack ≤ s.sndNxt
  · simp only [if_pos hnew] at hno ⊢
    have hrtt : Tuned strict mtu (s.updateRtt now seg) := h.updateRtt now seg
    unfold processNewAck
    simp only
    generalize s.updateRtt now seg = r at hno hrtt ⊢
    have hacked : Tuned strict mtu { r with
        toOutgoing := r.toOutgoing.acked seg.ack (r.scaledWnd seg) now } :=
      hrtt.keep rfl fun _ hmem => acked_log hmem
    exact hacked.congestionAck hno
  simp only [if_neg hnew] at hno ⊢
  split
  · rename_i hsame
    unfold processDupAck
    simp only
    have hwindow : Tuned strict mtu { s with sndWnd := s.scaledWnd seg } := h.keep rfl fun _ => id
    split
    · exact hwindow
    rename_i hlen
    split
    · rename_i hflight
      refine hwindow.countDupAck fun hs hmore heq => ?_
      exact hno hs ⟨hsame, by bv_omega, hflight, hmore, heq⟩
    · exact hwindow.keep rfl fun _ => id
  · exact h

variable {bConnect : Bool}

theorem Tuned.enterEstablished (h : Tuned strict mtu s)
    (hmtu : strict → s.state = .synReceived → bConnect = false → packetOverhead < mtu) :
    Tuned strict mtu (s.enterEstablished bConnect) := by
  unfold PseudoTcp.enterEstablished
  split
  · rename_i hopen
    exact h.open fun hs => hmtu hs hopen.1 hopen.2
  · exact h

theorem Tuned.processData (h : Tuned strict mtu s) (seg : Segment) :
    Tuned strict mtu (s.processData env seg) := by
  unfold PseudoTcp.processData
  simp only
  generalize s.toIncoming.receive (s.ignoresData seg) seg (s.ackFlags seg) = r
  have hstore : Tuned strict mtu { s with toIncoming := r.inc } := h.keep rfl fun _ => id
  have hsend : Tuned strict mtu (PseudoTcp.attemptSend env { s with toIncoming := r.inc }
      r.sflags) := hstore.attemptSend r.sflags
  generalize PseudoTcp.attemptSend env { s with toIncoming := r.inc } r.sflags = sent at hsend ⊢
  unfold notifyReadable
  split
  · exact hsend.keep rfl fun _ hmem => mem_note hmem (by simp)
  · exact hsend

theorem Tuned.acknowledge (h : Tuned strict mtu s)
    (hno : strict → ¬ Overflows env (s.updateTimestamp seg) now seg)
    (hmtu : strict → ((s.updateTimestamp seg).processAck env now seg).2 = true →
      ((s.updateTimestamp seg).processAck env now seg).1.state = .synReceived →
      bConnect = false → packetOverhead < mtu) :
    Tuned strict mtu (s.acknowledge env now bConnect seg).1 := by
  have hts : Tuned strict mtu (s.updateTimestamp seg) := by
    unfold updateTimestamp
    split
    · exact h.keep rfl fun _ => id
    · exact h
  have hack : Tuned strict mtu ((s.updateTimestamp seg).processAck env now seg).1 :=
    hts.processAck hno
  unfold PseudoTcp.acknowledge
  generalize (s.updateTimestamp seg).processAck env now seg = q at hmtu hack ⊢
  obtain ⟨s₁, ok⟩ := q
  cases ok with
  | false => exact hack
  | true =>
    have hest : Tuned strict mtu (s₁.enterEstablished bConnect) :=
      hack.enterEstablished fun hs hsyn hfirst => hmtu hs rfl hsyn hfirst
    have hwrite : Tuned strict mtu (s₁.enterEstablished bConnect).notifyWriteable := by
      unfold notifyWriteable
      simp only
      split
      · exact hest.keep rfl fun _ hmem => mem_note hmem (by simp)
      · exact hest
    dsimp only
    exact hwrite.processData seg

/-- Control data in front of `acknowledge` is a CONNECT message. -/
theorem processControl_connect (hctl : seg.flags &&& flagCtl ≠ 0)
    (h : (s.processControl env seg).2 = some bConnect) : bConnect = true := by
  unfold processControl at h
  rw [if_neg hctl] at h
  split at h
  · cases h
  split at h
  · simp only at h
    split at h
    · exact (Option.some.inj h).symm
    split at h
    · exact (Option.some.inj h).symm
    · exact (Option.some.inj h).symm
  · cases h

/-- **`process` keeps the bounds.** -/
theorem Tuned.process (h : Tuned strict mtu s)
    (hmtu : strict → Admits s seg → Establishes env s seg → packetOverhead < mtu)
    (hno : strict → Admits s seg →
      ¬ Overflows env ((s.controlled env seg).updateTimestamp seg) (env.now s.ticks) seg) :
    Tuned strict mtu (s.process env seg).1 := by
  have harrive : Tuned strict mtu (s.arrive env) := h.keep rfl fun _ => id
  unfold PseudoTcp.process
  by_cases hconv : seg.conv ≠ s.conv
  · rw [if_pos hconv]
    exact h
  rw [if_neg hconv]
  simp only
  split
  · exact harrive
  rename_i hopen
  split
  · exact harrive.closedown _
  rename_i hrst
  have htaken : seg.flags &&& flagCtl = 0 ∨ seg.len ≠ 0 ∧ seg.data 0 = ctlConnect → Admits s seg :=
    fun hdata => ⟨not_not.mp hconv, hopen, not_not.mp hrst, hdata⟩
  have hcontrol : Tuned strict mtu ((s.arrive env).processControl env seg).1 :=
    harrive.processControl fun hs hsyn hctl hconnect =>
      hmtu hs (htaken (.inr hconnect)) (.inl ⟨hsyn, hctl⟩)
  have hno : strict → (((s.arrive env).processControl env seg).2 ≠ none) →
      ¬ Overflows env (((s.arrive env).processControl env seg).1.updateTimestamp seg)
        (env.now s.ticks) seg := by
    intro hs hne
    refine hno hs (htaken ?_)
    by_contra hbad
    exact hne (congrArg Prod.snd (processControl_none hbad))
  have hfirst : ∀ bConnect, ((s.arrive env).processControl env seg).2 = some bConnect →
      bConnect = false → seg.flags &&& flagCtl = 0 := by
    intro bConnect hres hfalse
    by_contra hctl
    exact absurd ((processControl_connect hctl hres).symm.trans hfalse) (by decide)
  have hest : strict → s.state = .synReceived → seg.flags &&& flagCtl = 0 →
      ((((s.arrive env).processControl env seg).1.updateTimestamp seg).processAck env
        (env.now s.ticks) seg).2 = true → packetOverhead < mtu :=
    fun hs hsyn hctl hok => hmtu hs (htaken (.inl hctl)) (.inr ⟨hsyn, hctl, hok⟩)
  have hstate : seg.flags &&& flagCtl = 0 →
      ((s.arrive env).processControl env seg).1.state = s.state := by
    intro hctl
    unfold PseudoTcp.processControl
    rw [if_pos hctl]
    rfl
  generalize (s.arrive env).processControl env seg = q at hcontrol hno hfirst hest hstate ⊢
  obtain ⟨s₁, result⟩ := q
  cases result with
  | none => exact hcontrol
  | some bConnect =>
    refine hcontrol.acknowledge (fun hs => hno hs (Option.some_ne_none _)) ?_
    intro hs hok hsyn hfalse
    have hctl := hfirst bConnect rfl hfalse
    refine hest hs ?_ hctl hok
    have hts := (updateTimestamp_sends (r := anyRely) (s := s₁) seg).1
    have hopen₁ : (s₁.updateTimestamp seg).state ≠ .closed := by
      rw [hts.state, hstate hctl]
      exact hopen
    have hacks := (processAck_acks (r := anyRely) (serves_any env _) False.elim hopen₁ trivial
      fun _ _ => trivial : Acks anyRely _ ((s₁.updateTimestamp seg).processAck env
        (env.now s.ticks) seg).1 _).state
    rw [hok, if_pos rfl, hts.state, hstate hctl] at hacks
    exact hacks.symm.trans hsyn

/-! ## The calls -/

/-- A limit on the back-off that is no less than `MIN_RTO`. -/
theorem backOff_range {limit rto : U32} (h : minRto ≤ rto ∧ rto ≤ maxRto)
    (h1 : minRto ≤ limit) (h2 : limit ≤ maxRto) :
    minRto ≤ umin limit (rto * 2) ∧ umin limit (rto * 2) ≤ maxRto := by
  have hmin := umin_toNat limit (rto * 2)
  unfold minRto maxRto at *
  bv_omega

theorem Tuned.checkRetransmit (h : Tuned strict mtu s) (now : U32) :
    Tuned strict mtu (s.checkRetransmit env now).1 := by
  unfold PseudoTcp.checkRetransmit
  split
  · split
    · exact h.keep rfl fun _ hmem => mem_note hmem (by simp)
    have hr : Tuned strict mtu (s.retransmit env now).1 := h.retransmit now
    generalize s.retransmit env now = q at hr ⊢
    obtain ⟨s₁, ok⟩ := q
    cases ok with
    | false => exact hr.closedown _
    | true =>
      refine ⟨?_, fun hs => ?_, hr.advise⟩
      · exact backOff_range hr.rto (by cases s₁.state <;> simp [minRto, defRto, maxRto])
          (by cases s₁.state <;> simp [defRto, maxRto])
      · obtain ⟨h1, h2, -, -, h5, h6⟩ := hr.sized hs
        exact ⟨h1, h2, h1, (recovery_cwnd (s₁.sndNxt - s₁.sndUna) h1 h2).1, h5, h6⟩
  · exact h

theorem Tuned.checkProbe (h : Tuned strict mtu s) (now : U32) :
    Tuned strict mtu (s.checkProbe env now).1 := by
  unfold PseudoTcp.checkProbe
  split
  · split
    · exact h.closedown _
    have hp : Tuned strict mtu (s.packet env (s.sndNxt - 1) 0 0 0).1 := h.ack _
    refine ⟨backOff_range hp.rto (by decide) (by decide), fun hs => ?_, hp.advise⟩
    obtain ⟨h1, h2, h3, h4, h5, h6⟩ := hp.sized hs
    exact ⟨h1, h2, h3, h4, h5, h6⟩
  · exact h

theorem Tuned.notifyClock (h : Tuned strict mtu s) (now : U32) :
    Tuned strict mtu (s.notifyClock env now) := by
  unfold PseudoTcp.notifyClock
  split
  · exact h
  have h₁ : Tuned strict mtu (s.checkRetransmit env now).1 := h.checkRetransmit now
  generalize s.checkRetransmit env now = q at h₁ ⊢
  obtain ⟨s₁, ok⟩ := q
  cases ok with
  | false => exact h₁
  | true =>
    have h₂ : Tuned strict mtu (s₁.checkProbe env now).1 := h₁.checkProbe now
    simp only
    generalize s₁.checkProbe env now = q at h₂ ⊢
    obtain ⟨s₂, ok⟩ := q
    cases ok with
    | false => exact h₂
    | true =>
      simp only
      unfold checkDelayedAck
      split
      · exact h₂.ack _
      · exact h₂

theorem Tuned.notifyMTU (h : Tuned strict mtu s) {advised : U16}
    (hmtu : strict → s.state = .established → packetOverhead < advised.setWidth 32) :
    Tuned strict (advised.setWidth 32) (s.notifyMTU advised) := by
  have hadvised :
      Tuned strict (advised.setWidth 32) { s with mtuAdvise := advised.setWidth 32 } := by
    refine ⟨h.rto, fun hs => ?_, rfl⟩
    obtain ⟨h1, h2, h3, h4, -, h6⟩ := h.sized hs
    exact ⟨h1, h2, h3, h4, show (advised.setWidth 32).toNat ≤ 65535 by bv_omega, h6⟩
  unfold PseudoTcp.notifyMTU
  simp only
  split
  · rename_i hest
    exact hadvised.adjustMTU fun hs => hmtu hs hest
  · exact hadvised

/-- **A careful call keeps the bounds.** -/
theorem Tuned.call (h : Tuned strict mtu s) {c : Call} (hc : strict → Careful env s c) :
    ∃ advised, Tuned strict advised (s.call env c) := by
  cases c with
  | notifyMTU advised => exact ⟨_, h.notifyMTU fun hs hest => (hc hs).notified _ rfl hest⟩
  | connect =>
    refine ⟨mtu, ?_⟩
    unfold PseudoTcp.call connect
    simp only
    split
    · exact h.keep rfl fun _ => id
    · have hsent : Tuned strict mtu { s with state := .synSent } := h.keep rfl fun _ => id
      exact hsent.queueConnectMessage.attemptSend _
  | send buffer len =>
    refine ⟨mtu, ?_⟩
    unfold PseudoTcp.call send
    simp only
    split
    · exact h.keep rfl fun _ => id
    split
    · exact h.keep rfl fun _ => id
    · have hqueue : Tuned strict mtu (s.queue buffer (BitVec.ofNat 32 len) false).1 :=
        h.keep rfl fun _ hmem => queue_log buffer hmem
      exact hqueue.attemptSend _
  | recv len =>
    refine ⟨mtu, ?_⟩
    unfold PseudoTcp.call recv
    simp only
    split
    · exact h.keep rfl fun _ => id
    split
    · exact h.keep rfl fun _ => id
    · simp only
      have hread : ∀ (i : Incoming) (ok : Bool),
          Tuned strict mtu { s.assert ok .recvRead with toIncoming := i } :=
        fun i ok => h.keep rfl fun _ hmem => mem_assert hmem (.inr (by simp))
      split
      · exact (hread _ _).attemptSend _
      · exact hread _ _
  | close force => exact ⟨mtu, h.keep rfl fun _ => id⟩
  | notifyClock now => exact ⟨mtu, h.notifyClock now⟩
  | notifyPacket buffer =>
    refine ⟨mtu, ?_⟩
    unfold PseudoTcp.call notifyPacket
    simp only
    split
    · exact h
    rename_i hmax
    unfold PseudoTcp.parse
    split
    · exact h
    rename_i hmin
    have harrives : Arrives buffer := ⟨by omega, by omega⟩
    refine h.process (fun hs hadm hest => ?_) fun hs hadm => (hc hs).acked buffer rfl harrives hadm
    exact h.advise ▸ (hc hs).established buffer rfl harrives hadm hest
  | setOption opt value =>
    refine ⟨mtu, ?_⟩
    have hassert : Tuned strict mtu (s.assert (s.state = .listen) .optionState) :=
      h.keep rfl fun _ hmem => mem_assert hmem (.inr (by simp))
    cases opt with
    | noDelay => exact h.keep rfl fun _ => id
    | ackDelay => exact h.keep rfl fun _ => id
    | sndBuf => exact hassert.keep rfl fun _ => id
    | rcvBuf => exact hassert.resizeReceiveBuffer value

/-! ## Runs -/

theorem tuned_new (conv now : U32) (rmem smem : Nat → U8) :
    Tuned strict maxPacket (new conv now rmem smem) where
  rto := ⟨show minRto ≤ defRto by decide, show defRto ≤ maxRto by decide⟩
  sized _ :=
    { mss := show 0 < minPacket - packetOverhead by decide
      mssMax := show (minPacket - packetOverhead).toNat + packetOverhead.toNat ≤ 65535 by decide
      cwnd := show 0 < 2 * (minPacket - packetOverhead) by decide
      ssthresh := show defaultRcvBufSize.toNat ≤ 0xFFFF0000 by decide
      advise := show maxPacket.toNat ≤ 65535 by decide
      packets := List.not_mem_nil }
  advise := rfl

/-- **`m_rx_rto` keeps its bounds in every run.** -/
theorem reach_rto {ok : Env → PseudoTcp → Call → Prop} (hr : Reach ok s) : RtoInRange s := by
  have h : ∃ mtu, Tuned False mtu s :=
    hr.induct (P := fun s => ∃ mtu, Tuned False mtu s)
      (fun conv now rmem smem => ⟨_, tuned_new conv now rmem smem⟩)
      fun env s c ih _ => ih.choose_spec.call False.elim
  exact h.choose_spec.rto

/-- What `processControl` does to `m_cwnd` does not take it to 0. -/
theorem controlled_cwnd (env : Env) (seg : Segment) (h : 0 < s.cwnd) :
    0 < (s.controlled env seg).cwnd := by
  unfold controlled processControl
  split
  · exact h
  split
  · exact h
  split
  · have hcwnd : ((s.arrive env).parseOptions env
        (fetch (fun k => seg.data (1 + k)) (seg.len - 1).toNat)).cwnd = s.cwnd := by
      obtain ⟨x, h⟩ | ⟨-, h⟩ := parseOptions_cases env (s.arrive env)
        (fetch (fun k => seg.data (1 + k)) (seg.len - 1).toNat)
      · rw [h]
        rfl
      · rw [h]
        rfl
    generalize (s.arrive env).parseOptions env
      (fetch (fun k => seg.data (1 + k)) (seg.len - 1).toNat) = s₁ at hcwnd ⊢
    simp only
    split
    · exact hcwnd ▸ h
    split
    · show 0 < umax s₁.cwnd (s₁.mtuAdvise - packetOverhead)
      have := umax_toNat s₁.cwnd (s₁.mtuAdvise - packetOverhead)
      rw [hcwnd] at this ⊢
      bv_omega
    · exact hcwnd ▸ h
  · exact h

/-- **Congestion control keeps to its bounds** in every run of careful calls. The last part is about
the divisor of congestion avoidance, where `process` comes to it. -/
theorem congestion_in_range (hr : Reach Careful s) :
    (minRto ≤ s.rxRto ∧ s.rxRto ≤ maxRto) ∧
      (0 < s.mss ∧ s.mss.toNat ≤ 65535 - packetOverhead.toNat) ∧ 0 < s.cwnd ∧
      s.mss.toNat * s.mss.toNat < 2 ^ 32 ∧ .assertFailed .packetSize ∉ s.log ∧
      ∀ env seg, 0 < (s.controlled env seg).cwnd := by
  have h : ∃ mtu, Tuned True mtu s :=
    hr.induct (P := fun s => ∃ mtu, Tuned True mtu s)
      (fun conv now rmem smem => ⟨_, tuned_new conv now rmem smem⟩)
      fun env s c ih hc => ih.choose_spec.call fun _ => hc
  obtain ⟨mtu, h⟩ := h
  obtain ⟨h1, h2, h3, -, -, h6⟩ := h.sized trivial
  have hover : packetOverhead.toNat = 116 := rfl
  refine ⟨h.rto, ⟨h1, by omega⟩, h3, ?_, h6, fun env seg => controlled_cwnd env seg h3⟩
  calc s.mss.toNat * s.mss.toNat ≤ 65419 * 65419 := Nat.mul_le_mul (by omega) (by omega)
    _ < 2 ^ 32 := by decide

theorem congestion_in_range_acked :
    Reach Careful acked ∧ 0 < acked.mss ∧ 0 < acked.cwnd := by
  have hr : Reach Careful acked := by
    refine .call _ _ (.call _ _ (.call _ _ (.call _ _ (.fresh 1 1 _ _) ?_) ?_) ?_) ?_
    · exact ⟨fun _ h => absurd h (by simp), fun _ h => absurd h (by simp),
        fun _ h => absurd h (by simp)⟩
    · refine ⟨fun _ h => absurd h (by simp), fun _ h _ _ _ => ?_, fun _ h _ _ => ?_⟩
      · cases h
        decide
      · cases h
        unfold Overflows AckOverflows
        decide
    · exact ⟨fun _ h => absurd h (by simp), fun _ h => absurd h (by simp),
        fun _ h => absurd h (by simp)⟩
    · refine ⟨fun _ h => absurd h (by simp), fun _ h _ _ _ => ?_, fun _ h _ _ => ?_⟩
      · cases h
        decide
      · cases h
        unfold Overflows AckOverflows
        decide
  exact ⟨hr, (congestion_in_range hr).2.1.1, (congestion_in_range hr).2.2.1⟩

/-- `adjustMTU` takes an MTU of 100 and leaves a segment size of almost 2^32; its square does not
fit in 32 bits. With an MTU of 116 the segment size is 0. -/
theorem mtu_underflows : Reach Always (pipelining.call (still 1) (.notifyMTU 100)) ∧
    (pipelining.call (still 1) (.notifyMTU 100)).mss = 4294967280 ∧
    2 ^ 32 ≤ (pipelining.call (still 1) (.notifyMTU 100)).mss.toNat *
      (pipelining.call (still 1) (.notifyMTU 100)).mss.toNat ∧
    (pipelining.call (still 1) (.notifyMTU 116)).mss = 0 := by
  have hmss : (pipelining.call (still 1) (.notifyMTU 100)).mss = 4294967280 := by decide
  refine ⟨.call _ _ reach_pipelining trivial, hmss, ?_, by decide⟩
  rw [hmss]
  decide

end Libjingle.PseudoTcp
