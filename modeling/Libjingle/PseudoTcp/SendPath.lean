import Libjingle.PseudoTcp.Accounting
import Libjingle.PseudoTcp.Api

/-!
# The functions of the send path make only `SendStep`s

One lemma for each function of the source, up to the public calls: what it does to the outgoing
data is a sequence of steps, and the other parts stay as they are (`Same`). The lemmas hold for
every `Rely` whose headers and clock values are those of the call (`Serves`). Under `strict` they
ask for the sender's accounting at the start, and no step breaks one of its assertions.
-/

namespace Libjingle.PseudoTcp

open Lib

variable {r : Rely} {env : Env}

/-! ## What the send path leaves alone -/

/-- The parts the send path leaves alone. -/
structure Frame where
  inc : Incoming
  conv : U32
  state : TcpState
  shutdown : Shutdown
  swndScale : U8
  supportWndScale : Bool
  dupAcks : U8
  recover : U32
  sndUna : U32
  sbuf : FifoBuffer (2 ^ 32)
  queued : List U8

@[inherit_doc Frame]
def frame (s : PseudoTcp) : Frame :=
  ⟨s.toIncoming, s.conv, s.state, s.shutdown, s.swndScale, s.supportWndScale, s.dupAcks,
    s.recover, s.sndUna, s.sbuf, s.queued⟩

/-- `s'` is `s` but for what the send path changes; an empty list stays empty, a running timer
keeps running. -/
structure Same (s s' : PseudoTcp) : Prop where
  frame : s'.frame = s.frame
  empty : s.slist = [] → s'.slist = []
  rtoBase : s.rtoBase ≠ 0 → s'.rtoBase ≠ 0

namespace Same

variable {s s' s'' : PseudoTcp}

theorem refl (s : PseudoTcp) : Same s s := ⟨rfl, id, id⟩

theorem trans (h : Same s s') (h' : Same s' s'') : Same s s'' :=
  ⟨h'.frame.trans h.frame, h'.empty ∘ h.empty, h'.rtoBase ∘ h.rtoBase⟩

theorem inc (h : Same s s') : s'.toIncoming = s.toIncoming := congrArg Frame.inc h.frame
theorem conv (h : Same s s') : s'.conv = s.conv := congrArg Frame.conv h.frame
theorem state (h : Same s s') : s'.state = s.state := congrArg Frame.state h.frame
theorem shutdown (h : Same s s') : s'.shutdown = s.shutdown := congrArg Frame.shutdown h.frame
theorem swndScale (h : Same s s') : s'.swndScale = s.swndScale := congrArg Frame.swndScale h.frame
theorem supportWndScale (h : Same s s') : s'.supportWndScale = s.supportWndScale :=
  congrArg Frame.supportWndScale h.frame
theorem dupAcks (h : Same s s') : s'.dupAcks = s.dupAcks := congrArg Frame.dupAcks h.frame
theorem recover (h : Same s s') : s'.recover = s.recover := congrArg Frame.recover h.frame
theorem sndUna (h : Same s s') : s'.sndUna = s.sndUna := congrArg Frame.sndUna h.frame
theorem sbuf (h : Same s s') : s'.sbuf = s.sbuf := congrArg Frame.sbuf h.frame
theorem queued (h : Same s s') : s'.queued = s.queued := congrArg Frame.queued h.frame

end Same

/-- The send path took `s` to `s'`. -/
structure Sends (r : Rely) (s s' : PseudoTcp) : Prop extends Same s s' where
  steps : SendSteps r s.toOutgoing s'.toOutgoing

theorem Sends.refl (s : PseudoTcp) : Sends r s s := ⟨Same.refl s, .refl⟩

theorem Sends.trans {s s' s'' : PseudoTcp} (h : Sends r s s') (h' : Sends r s' s'') :
    Sends r s s'' :=
  ⟨h.toSame.trans h'.toSame, h.steps.trans h'.steps⟩

/-- The headers and clock values a call makes are among those `r` counts on. -/
structure Serves (r : Rely) (env : Env) (s : PseudoTcp) : Prop where
  header : r.header s.conv s.rcvNxt s.toIncoming.advertised
  clock : ∀ i, r.clock (env.now i)

theorem Serves.same {s s' : PseudoTcp} (h : Serves r env s) (hs : Same s s') : Serves r env s' where
  header := by
    rw [hs.inc, hs.conv]
    exact h.header
  clock := h.clock

/-! ## `packet` -/

theorem assert_steps (o : Outgoing) (c : Bool) {f : Fault}
    (hf : (Event.assertFailed f).breaks = false) : SendSteps r o (o.assert c f) := by
  cases c with
  | false => exact .single (.note o (.assertFailed f) fun _ => hf)
  | true => exact .refl

/-- The outgoing data after the assertions of `packet`. -/
def asserted (s : PseudoTcp) (offset len : U32) : Outgoing :=
  (s.toOutgoing.assert (headerSize + len ≤ maxPacket) .packetSize).assert
    (decide (len = 0) ||
      decide ((s.sbuf.readOffset len.toNat offset.toNat).2.length = len.toNat)) .packetRead

theorem asserted_steps (s : PseudoTcp) (offset len : U32) :
    SendSteps r s.toOutgoing (s.asserted offset len) :=
  (assert_steps _ _ rfl).trans (assert_steps _ _ rfl)

theorem packet_out (s : PseudoTcp) (seq : U32) (flags : U8) (offset len : U32) :
    (s.packet env seq flags offset len).1.toOutgoing =
      { s.asserted offset len with
        written := ⟨s.stamp env seq flags offset len, env.write s.ticks⟩ :: s.written } := by
  unfold packet
  simp only
  split <;> rfl

theorem packet_same (env : Env) (s : PseudoTcp) (seq : U32) (flags : U8) (offset len : U32) :
    Same s (s.packet env seq flags offset len).1 := by
  unfold packet
  simp only
  split <;> exact ⟨rfl, id, id⟩

theorem packet_result (s : PseudoTcp) (seq : U32) (flags : U8) (offset len : U32) :
    (s.packet env seq flags offset len).2 =
      if env.write s.ticks ≠ .success ∧ len ≠ 0 then env.write s.ticks else .success := by
  unfold packet
  simp only
  split <;> rename_i h
  · exact (if_pos h).symm
  · exact (if_neg h).symm

theorem packet_ack_sends {s : PseudoTcp} (hv : Serves r env s) (seq : U32) :
    Sends r s (s.packet env seq 0 0 0).1 where
  toSame := packet_same env s seq 0 0 0
  steps := by
    rw [packet_out]
    exact (asserted_steps s 0 0).tail
      (.emit (s.asserted 0 0) (s.stamp env seq 0 0 0) _ hv.header (Or.inl ⟨rfl, rfl⟩))

/-! ## `transmit` -/

/-- `s'` is `s` after `packet` sent off the first `n` bytes of the segment, before the bookkeeping
of `transmit`. -/
structure Transmits (r : Rely) (s : PseudoTcp) (seg : SSegment) (n : U32) (s' : PseudoTcp) : Prop
    extends Same s s' where
  out : ∃ L W p w, SendSteps r s.toOutgoing { s.toOutgoing with log := L, written := W } ∧
    s'.toOutgoing = { s.toOutgoing with log := L, written := ⟨p, w⟩ :: W } ∧
    r.header p.conv p.ack p.wnd ∧ Carries s.toOutgoing seg n p

/-- `s'` is `s` after packets that were not sent. -/
structure Tried (r : Rely) (s s' : PseudoTcp) : Prop extends Sends r s s' where
  lists : ∃ L W, s'.toOutgoing = { s.toOutgoing with log := L, written := W }

theorem Tried.refl (s : PseudoTcp) : Tried r s s := ⟨Sends.refl s, _, _, rfl⟩

theorem Tried.trans {s s' s'' : PseudoTcp} (h : Tried r s s') (h' : Tried r s' s'') :
    Tried r s s'' := by
  obtain ⟨L, W, e⟩ := h.lists
  obtain ⟨L', W', e'⟩ := h'.lists
  exact ⟨h.toSends.trans h'.toSends, L', W', by rw [e', e]⟩

variable {seg : SSegment}

theorem Tried.transmits {s s' s'' : PseudoTcp} {n : U32} (h : Tried r s s')
    (h' : Transmits r s' seg n s'') : Transmits r s seg n s'' := by
  obtain ⟨L, W, e⟩ := h.lists
  obtain ⟨L', W', p, w, hst, hout, hh, hc⟩ := h'.out
  refine ⟨h.toSame.trans h'.toSame, L', W', p, w, ?_, ?_, hh, ?_⟩
  · refine h.steps.trans ?_
    rw [e] at hst ⊢
    exact hst
  · rw [hout, e]
  · rw [e] at hc
    exact ⟨hc.seq, hc.flags, hc.payload, hc.le⟩

/-- `packet` for a segment sends it or does not. -/
theorem packetFor_cases {s : PseudoTcp} (hv : Serves r env s) (hm : seg ∈ s.slist)
    {n : U32} (hn : n ≤ seg.len) :
    ((s.packetFor env seg n).2 = .success ∧ Transmits r s seg n (s.packetFor env seg n).1) ∨
      ((s.packetFor env seg n).2 ≠ .success ∧ Tried r s (s.packetFor env seg n).1) := by
  have hc : Carries (s.asserted (seg.seq - s.sndUna) n) seg n
      (s.stamp env seg.seq (if seg.bCtrl then flagCtl else 0) (seg.seq - s.sndUna) n) :=
    ⟨rfl, rfl, ⟨env.mem, rfl⟩, hn⟩
  unfold packetFor
  have hsame := packet_same env s seg.seq (if seg.bCtrl then flagCtl else 0)
    (seg.seq - s.sndUna) n
  rw [packet_result]
  by_cases hw : env.write s.ticks ≠ .success ∧ n ≠ 0
  · rw [if_pos hw]
    refine Or.inr ⟨hw.1, ⟨hsame, ?_⟩, ?_⟩
    · rw [packet_out]
      exact (asserted_steps s _ n).tail
        (.emit _ _ _ hv.header (Or.inr ⟨hw.1, seg, hm, n, hc⟩))
    · rw [packet_out]
      exact ⟨_, _, rfl⟩
  · rw [if_neg hw]
    refine Or.inl ⟨rfl, hsame, (s.asserted (seg.seq - s.sndUna) n).log, s.written,
      s.stamp env seg.seq (if seg.bCtrl then flagCtl else 0) (seg.seq - s.sndUna) n,
      env.write s.ticks, asserted_steps s _ n, ?_, hv.header, ?_⟩
    · rw [packet_out]
      rfl
    · exact ⟨hc.seq, hc.flags, hc.payload, hc.le⟩

/-- The smallest level of `PACKET_MAXIMUMS` leaves room for data. -/
theorem packetMaximums_pos : ∀ m ∈ packetMaximums, m = 0 ∨ m.setWidth 32 - packetOverhead ≠ 0 := by
  simp [packetMaximums, packetOverhead, headerSize]

/-- `transmit`'s retries with lower levels. -/
theorem transmitLower_cases {seg : SSegment} : ∀ (levels : List U16) (s : PseudoTcp) (n : U32),
    (∀ m ∈ levels, m = 0 ∨ m.setWidth 32 - packetOverhead ≠ 0) → Serves r env s →
    seg ∈ s.slist → n ≤ seg.len →
    (∃ m, (transmitLower env seg levels s n).2 = some m ∧ m ≠ 0 ∧
        Transmits r s seg m (transmitLower env seg levels s n).1) ∨
      ((transmitLower env seg levels s n).2 = none ∧
        Tried r s (transmitLower env seg levels s n).1)
  | [], s, _, _, _, _, _ => Or.inr ⟨rfl, Tried.refl s⟩
  | m :: rest, s, n, hlev, hv, hm, hn => by
    unfold transmitLower
    by_cases h0 : m = 0
    · rw [if_pos h0]
      exact Or.inr ⟨rfl, Tried.refl s⟩
    rw [if_neg h0]
    simp only
    set mss := m.setWidth 32 - packetOverhead with hmss
    have hmss0 : mss ≠ 0 := (hlev m (by simp)).resolve_left h0
    set s₁ : PseudoTcp := { s with mss := mss, msslevel := s.msslevel + 1, cwnd := 2 * mss }
    have hlower : Tried r s s₁ := ⟨⟨⟨rfl, id, id⟩, .refl⟩, _, _, rfl⟩
    have hv₁ : Serves r env s₁ := hv.same hlower.toSame
    have hrest : ∀ m' ∈ rest, m' = 0 ∨ m'.setWidth 32 - packetOverhead ≠ 0 :=
      fun m' hm' => hlev m' (by simp [hm'])
    split
    · rename_i hlt
      have hle : mss ≤ seg.len := by bv_omega
      rcases packetFor_cases hv₁ hm hle with ⟨hres, htr⟩ | ⟨hres, htried⟩
      · generalize s₁.packetFor env seg mss = q at hres htr ⊢
        obtain ⟨s₂, w⟩ := q
        obtain rfl := hres
        exact Or.inl ⟨mss, rfl, hmss0, hlower.transmits htr⟩
      · generalize s₁.packetFor env seg mss = q at hres htried ⊢
        obtain ⟨s₂, w⟩ := q
        have htried₂ := hlower.trans htried
        cases w with
        | success => exact absurd rfl hres
        | fail => exact Or.inr ⟨rfl, htried₂⟩
        | tooLarge =>
          have hm₂ : seg ∈ s₂.slist := by
            obtain ⟨L, W, e⟩ := htried₂.lists
            simp only at e
            rw [e]
            exact hm
          rcases transmitLower_cases rest s₂ mss hrest (hv.same htried₂.toSame) hm₂ hle with
            ⟨k, hk, hk0, htr⟩ | ⟨hk, htr⟩
          · exact Or.inl ⟨k, hk, hk0, htried₂.transmits htr⟩
          · exact Or.inr ⟨hk, htried₂.trans htr⟩
    · rcases transmitLower_cases rest s₁ n hrest hv₁ hm hn with ⟨k, hk, hk0, htr⟩ | ⟨hk, htr⟩
      · exact Or.inl ⟨k, hk, hk0, hlower.transmits htr⟩
      · exact Or.inr ⟨hk, hlower.trans htr⟩

/-- `transmit`'s packets: one is sent, with the whole segment or `m_mss` of it or a lower level's
worth, or none is. -/
theorem transmitPacket_cases {s : PseudoTcp} (hv : Serves r env s) (hm : seg ∈ s.slist) :
    (∃ n, (s.transmitPacket env seg).2 = some n ∧ (umin seg.len s.mss ≠ 0 → n ≠ 0) ∧
        Transmits r s seg n (s.transmitPacket env seg).1) ∨
      ((s.transmitPacket env seg).2 = none ∧ Tried r s (s.transmitPacket env seg).1) := by
  unfold transmitPacket
  simp only
  have hle : umin seg.len s.mss ≤ seg.len := by
    rw [BitVec.le_def, umin_toNat]
    exact Nat.min_le_left _ _
  rcases packetFor_cases hv hm hle with ⟨hres, htr⟩ | ⟨hres, htried⟩
  · generalize s.packetFor env seg (umin seg.len s.mss) = q at hres htr ⊢
    obtain ⟨s₂, w⟩ := q
    obtain rfl := hres
    exact Or.inl ⟨_, rfl, id, htr⟩
  · generalize s.packetFor env seg (umin seg.len s.mss) = q at hres htried ⊢
    obtain ⟨s₂, w⟩ := q
    cases w with
    | success => exact absurd rfl hres
    | fail => exact Or.inr ⟨rfl, htried⟩
    | tooLarge =>
      have hm₂ : seg ∈ s₂.slist := by
        obtain ⟨L, W, e⟩ := htried.lists
        simp only at e
        rw [e]
        exact hm
      rcases transmitLower_cases (packetMaximums.drop (s₂.msslevel + 1).toNat) s₂
        (umin seg.len s.mss) (fun m hm => packetMaximums_pos m (List.mem_of_mem_drop hm))
        (hv.same htried.toSame) hm₂ hle with ⟨k, hk, hk0, htr⟩ | ⟨hk, htr⟩
      · exact Or.inl ⟨k, hk, fun _ => hk0, htried.transmits htr⟩
      · exact Or.inr ⟨hk, htried.trans htr⟩

variable {l₁ l₂ : List SSegment}

/-- `transmit` on the segment behind `l₁`: why it is called says which step it makes. -/
theorem transmit_sends {s : PseudoTcp} (hv : Serves r env s)
    (hl : s.slist = l₁ ++ seg :: l₂) (hsent : ∀ e ∈ l₁, e.xmit ≠ 0) {now : U32}
    (hc : r.clock now)
    (hwhy : Fresh s.toOutgoing seg ∧ seg.len ≤ s.mss ∨
      l₁ = [] ∧ (r.strict → s.sndUna ≠ s.sndNxt)) :
    Sends r s (s.transmit env l₁.length now).1 := by
  have hm : seg ∈ s.slist := by simp [hl]
  have hi : s.slist[l₁.length]? = some seg := by simp [hl]
  unfold transmit
  rw [hi]
  simp only
  by_cases hx : seg.xmit ≥ (if s.state = .established then 15 else 30)
  · rw [if_pos hx]
    exact Sends.refl s
  rw [if_neg hx]
  have hx30 : seg.xmit < 30 := by
    split at hx <;> bv_omega
  rcases transmitPacket_cases hv hm with ⟨n, hn, hpos, htr⟩ | ⟨hn, htried⟩
  · generalize s.transmitPacket env seg = q at hn htr ⊢
    obtain ⟨s₂, m⟩ := q
    obtain rfl := hn
    obtain ⟨L, W, p, w, hst, hout, hh, hcarry⟩ := htr.out
    refine ⟨⟨htr.frame, by simp [hl], fun h0 => ?_⟩, ?_⟩
    · have h1 := htr.rtoBase h0
      simp only [Outgoing.transmitted]
      rw [if_neg h1]
      exact h1
    simp only at hout ⊢
    rw [hout]
    refine hst.tail (.transmit { s.toOutgoing with log := L, written := W } l₁ l₂ seg n now p w hl
      hsent hx30 hh ⟨hcarry.seq, hcarry.flags, hcarry.payload, hcarry.le⟩ hc ?_)
    rcases hwhy with ⟨hf, hmss⟩ | hwhy
    · refine Or.inl ⟨⟨hf.unsent, hf.room, hf.data⟩, fun h0 => hpos ?_⟩
      intro hmin
      have := umin_toNat seg.len s.mss
      rw [hmin] at this
      bv_omega
    · exact Or.inr hwhy
  · generalize s.transmitPacket env seg = q at hn htried ⊢
    obtain ⟨s₂, m⟩ := q
    obtain rfl := hn
    exact htried.toSends

/-! ## `attemptSend` -/

/-- What `attemptSend` may send fits the segment size and the peer's window, and there is unsent
data. -/
theorem sendQuota_spec {s : PseudoTcp} (h : s.sendQuota ≠ 0) :
    s.sendQuota ≤ s.mss ∧
      (s.sndNxt - s.sndUna).toNat + s.sendQuota.toNat ≤ s.sndWnd.toNat ∧
      BitVec.ofNat 32 s.sbuf.dataLength - (s.sndNxt - s.sndUna) ≠ 0 := by
  unfold sendQuota at h ⊢
  simp only at h ⊢
  generalize s.sndNxt - s.sndUna = inFlight at h ⊢
  generalize (if s.dupAcks = 1 ∨ s.dupAcks = 2 then s.cwnd + s.dupAcks.setWidth 32 * s.mss
    else s.cwnd) = cwnd at h ⊢
  have hwin := umin_toNat s.sndWnd cwnd
  have hav := umin_toNat (BitVec.ofNat 32 s.sbuf.dataLength - inFlight) s.mss
  generalize umin s.sndWnd cwnd = nWindow at h hwin ⊢
  generalize BitVec.ofNat 32 s.sbuf.dataLength - inFlight = unsent at h hav ⊢
  generalize umin unsent s.mss = nAvailable at h hav ⊢
  by_cases hin : inFlight < nWindow
  · have huse : (nWindow - inFlight).toNat = nWindow.toNat - inFlight.toNat := by bv_omega
    simp only [if_pos hin] at h ⊢
    generalize nWindow - inFlight = nUseable at h huse ⊢
    by_cases hgt : nAvailable > nUseable
    · rw [if_pos hgt] at h ⊢
      split at h
      · exact absurd rfl h
      · rename_i hsws
        rw [if_neg hsws]
        bv_omega
    · rw [if_neg hgt] at h ⊢
      bv_omega
  · simp only [if_neg hin] at h ⊢
    by_cases hgt : nAvailable > 0
    · rw [if_pos hgt] at h ⊢
      split at h <;> exact absurd rfl h
    · rw [if_neg hgt] at h ⊢
      bv_omega

theorem sendAck_sends {s : PseudoTcp} (hv : Serves r env s) (sflags : SendFlags) :
    Sends r s (s.sendAck env sflags) := by
  unfold sendAck
  split
  · exact Sends.refl s
  split
  · exact packet_ack_sends hv s.sndNxt
  · exact ⟨⟨rfl, id, id⟩, .refl⟩

variable {o : Outgoing}

/-- After the cut the segment found fits in `n` bytes. -/
theorem cut_found (hl : o.slist = l₁ ++ seg :: l₂) (n : U32) :
    ∃ seg' l₂', o.cut l₁.length n = { o with slist := l₁ ++ seg' :: l₂' } ∧
      seg'.xmit = seg.xmit ∧ seg'.len ≤ n := by
  rw [cut_eq hl]
  split
  · exact ⟨{ seg with len := n }, ⟨seg.seq + n, seg.len - n, 0, seg.bCtrl⟩ :: l₂, by simp, rfl,
      BitVec.le_refl n⟩
  · exact ⟨seg, l₂, by rw [← hl], rfl, by bv_omega⟩

theorem exists_unsent (h : Lengths o)
    (hd : BitVec.ofNat 32 o.sbuf.dataLength - (o.sndNxt - o.sndUna) ≠ 0) :
    o.slist.findIdx? (fun seg => seg.xmit = 0) ≠ none := by
  intro hnone
  have hall : ∀ e ∈ o.slist, e.xmit ≠ 0 := by
    intro e he
    simpa using List.findIdx?_eq_none_iff.mp hnone e he
  have hflight := h.inFlight
  rw [sentBytes_of_sent hall, h.total] at hflight
  rw [hflight, BitVec.ofNat_toNat, BitVec.setWidth_eq, BitVec.sub_self] at hd
  exact hd rfl

theorem attemptSendLoop_sends {now : U32} (hc : r.clock now) : ∀ (fuel : Nat) (s : PseudoTcp)
    (sflags : SendFlags), Serves r env s → (r.strict → Accounts s.toOutgoing) →
    Sends r s (attemptSendLoop env now fuel s sflags)
  | 0, s, _, _, _ => Sends.refl s
  | fuel + 1, s, sflags, hv, hs => by
    unfold attemptSendLoop
    simp only
    split
    · exact sendAck_sends hv sflags
    rename_i hq
    obtain ⟨hmss, hroom, hdata⟩ := sendQuota_spec hq
    split
    · exact Sends.refl s
    split
    · rename_i hnone
      refine ⟨⟨rfl, id, id⟩,
        .single (.note _ _ fun hstrict => ?_)⟩
      exact absurd hnone (exists_unsent (hs hstrict).toLengths hdata)
    · rename_i i hfind
      obtain ⟨l₁, seg, l₂, hl, rfl, hx, hsent⟩ := exists_append_of_findIdx? hfind
      have hx0 : seg.xmit = 0 := by simpa using hx
      have hsent' : ∀ e ∈ l₁, e.xmit ≠ 0 := fun e he => by simpa using hsent e he
      obtain ⟨seg', l₂', hcut, hx', hlen⟩ := cut_found hl s.sendQuota
      have hstep : Sends r s { s with toOutgoing := s.toOutgoing.cut l₁.length s.sendQuota } := by
        refine ⟨?_, .single (.cut _ l₁ l₂ seg _ hl hx0 hq)⟩
        rw [hcut]
        exact ⟨rfl, by simp [hl], id⟩
      have hfresh : Fresh { s with toOutgoing := s.toOutgoing.cut l₁.length s.sendQuota }.toOutgoing
          seg' := by
        simp only [hcut]
        refine ⟨hx'.trans hx0, ?_, hdata⟩
        simp only
        bv_omega
      have hl' : ({ s with
          toOutgoing := s.toOutgoing.cut l₁.length s.sendQuota } : PseudoTcp).slist =
          l₁ ++ seg' :: l₂' := by simp only [hcut]
      have htr := hstep.trans (transmit_sends (hv.same hstep.toSame) hl' hsent' hc
        (Or.inl ⟨hfresh, BitVec.le_trans hlen hmss⟩))
      generalize ({ s with toOutgoing := s.toOutgoing.cut l₁.length s.sendQuota }).transmit env
        l₁.length now = q at htr ⊢
      obtain ⟨s₂, ok⟩ := q
      cases ok with
      | false => exact htr
      | true =>
        exact htr.trans (attemptSendLoop_sends hc fuel s₂ .none (hv.same htr.toSame)
          fun hstrict => (hs hstrict).steps hstrict htr.steps)

theorem attemptSend_sends {s : PseudoTcp} (hv : Serves r env s)
    (hs : r.strict → Accounts s.toOutgoing) (sflags : SendFlags) :
    Sends r s (s.attemptSend env sflags) := by
  unfold attemptSend
  simp only
  set s₁ : PseudoTcp := { s with
    ticks := s.ticks + 1
    cwnd := if timeDiff (env.now s.ticks) s.lastsend > s.rxRto.toNat then s.mss else s.cwnd }
  have h₁ : Sends r s s₁ := ⟨⟨rfl, id, id⟩, .refl⟩
  exact h₁.trans (attemptSendLoop_sends (hv.clock _) _ s₁ sflags (hv.same h₁.toSame) hs)

theorem retransmit_sends {s : PseudoTcp} (hv : Serves r env s)
    (hs : r.strict → Accounts s.toOutgoing) (hne : r.strict → s.sndUna ≠ s.sndNxt) {now : U32}
    (hc : r.clock now) : Sends r s (s.retransmit env now).1 := by
  unfold retransmit
  split
  · rename_i hnil
    refine ⟨⟨rfl, id, id⟩,
      .single (.note _ _ fun hstrict => ?_)⟩
    obtain ⟨front, rest, hfr, -⟩ := (hs hstrict).toLengths.front_sent (hne hstrict)
    rw [hnil] at hfr
    exact absurd hfr (by simp)
  · rename_i front rest hl
    have hnote : Sends r s (s.note (.retransmit front.xmit)) := by
      refine ⟨⟨rfl, id, id⟩,
        .single (.note _ _ fun hstrict => ?_)⟩
      obtain ⟨front', rest', hfr, hx⟩ := (hs hstrict).toLengths.front_sent (hne hstrict)
      rw [hl] at hfr
      obtain ⟨rfl, -⟩ := List.cons.inj hfr
      simpa [Event.breaks] using hx
    exact hnote.trans (transmit_sends (hv.same hnote.toSame) (hl.trans (List.nil_append _).symm)
      (by simp) hc (Or.inr ⟨rfl, hne⟩))

end Libjingle.PseudoTcp
