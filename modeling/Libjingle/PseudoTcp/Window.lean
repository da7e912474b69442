import Libjingle.PseudoTcp.Calls

/-!
# The receive window fits the receive buffer

`m_rcv_wnd` is a counter of its own: `Recv` raises it lazily, `process` lowers it by what it
stores, and what it stores is bounded by the free space, not by the window.

* `window_fits`: in every run in which no segment makes use of free space behind the advertised
  window (`InWindow`), the window is at most the free space, that is at most the buffer's size,
  and the window field of a header loses nothing.
-/

namespace Libjingle

open Lib

variable {i : Incoming}

/-! ## The invariant -/

/-- The window, the free space and the buffer's size are in order, and the window field of a
header loses nothing. -/
structure WindowFits (i : Incoming) : Prop where
  wnd : i.rcvWnd.toNat ≤ i.rbuf.getWriteRemaining
  free : i.rbuf.getWriteRemaining ≤ i.rbufLen.toNat
  field : i.advertised.toNat = (i.rcvWnd >>> (i.rwndScale.toNat % 32)).toNat

/-- Beside that, what is stored out of order lies inside the window. -/
structure Windowed (i : Incoming) : Prop where
  opened : i.rbuf.state = .opened
  capacity : i.rbuf.bufferLength = i.rbufLen.toNat
  scale : (i.rbufLen >>> (i.rwndScale.toNat % 32)).toNat ≤ 0xFFFF
  wnd : i.rcvWnd.toNat ≤ i.rbuf.getWriteRemaining
  entries : ∀ r ∈ i.rlist, r.seq.toNat + r.len.toNat < 2 ^ 32 ∧
    r.seq.toNat + r.len.toNat ≤ i.rcvNxt.toNat + i.rcvWnd.toNat

theorem Windowed.fits (h : Windowed i) : WindowFits i := by
  have hcap := h.capacity
  have hwnd := h.wnd
  have hscale := h.scale
  have hfree : i.rbuf.getWriteRemaining ≤ i.rbufLen.toNat := by
    unfold FifoBuffer.getWriteRemaining
    omega
  refine ⟨hwnd, hfree, ?_⟩
  unfold Incoming.advertised
  rw [BitVec.toNat_setWidth]
  refine Nat.mod_eq_of_lt ?_
  rw [BitVec.toNat_ushiftRight, Nat.shiftRight_eq_div_pow] at hscale ⊢
  have := Nat.div_le_div_right (c := 2 ^ (i.rwndScale.toNat % 32)) (hwnd.trans hfree)
  omega

/-! ## Storing -/

theorem Windowed.commit (h : Windowed i) {n : U32} (hn : n.toNat ≤ i.rcvWnd.toNat)
    (hend : i.rcvNxt.toNat + n.toNat < 2 ^ 32) : Windowed (i.commit n) := by
  have hwnd := h.wnd
  obtain ⟨b, hc, h1, h2, h3, -⟩ := Incoming.commit_spec (i := i) (n := n) (by omega)
  have hnxt : (i.rcvNxt + n).toNat = i.rcvNxt.toNat + n.toNat := by bv_omega
  have hsub : (i.rcvWnd - n).toNat = i.rcvWnd.toNat - n.toNat := by bv_omega
  unfold FifoBuffer.getWriteRemaining at hwnd
  rw [hc]
  refine ⟨h1.trans h.opened, h2.trans h.capacity, h.scale, ?_, fun r hr => ?_⟩
  · simp only [FifoBuffer.getWriteRemaining, hsub, h2, h3]
    omega
  · obtain ⟨hw, he⟩ := h.entries r hr
    simp only [hnxt, hsub]
    exact ⟨hw, by omega⟩

theorem Windowed.drain : ∀ (l : List RSegment) {i : Incoming}, Windowed { i with rlist := l } →
    Windowed (i.drain l).1
  | [], _, h => h
  | r :: rest, i, h => by
    have hrest : Windowed { i with rlist := rest } :=
      ⟨h.opened, h.capacity, h.scale, h.wnd, fun x hx => h.entries x (by simp [hx])⟩
    obtain ⟨hw, he⟩ := h.entries r (by simp)
    simp only at he
    have hend : (r.seq + r.len).toNat = r.seq.toNat + r.len.toNat := by bv_omega
    unfold Incoming.drain
    split
    · split
      · rename_i hgt
        have hn : (r.seq + r.len - i.rcvNxt).toNat =
            r.seq.toNat + r.len.toNat - i.rcvNxt.toNat := by bv_omega
        have hlt : i.rcvNxt.toNat < r.seq.toNat + r.len.toNat := by bv_omega
        have hc := hrest.commit (n := r.seq + r.len - i.rcvNxt) (by simp only; omega)
          (by simp only; omega)
        exact Windowed.drain rest hc
      · exact Windowed.drain rest hrest
    · exact h

/-- **Storing a segment** that uses no free space behind the window keeps the window in order. -/
theorem Windowed.receive (h : Windowed i) {seg : Segment} (bIgnoreData : Bool)
    (hend : seg.seq.toNat + seg.len.toNat < 2 ^ 32)
    (hin : bIgnoreData = false →
      seg.seq.toNat + seg.len.toNat ≤ i.rcvNxt.toNat + i.rcvWnd.toNat ∨
        i.rcvWnd.toNat = i.rbuf.getWriteRemaining) (sflags : SendFlags) :
    Windowed (i.receive bIgnoreData seg sflags).inc := by
  unfold Incoming.receive
  have htrim := i.trim_cases hend
  generalize i.trimNew (i.trimOld seg) = t at htrim ⊢
  have hwrap : t.len ≠ 0 → t.seq.toNat + t.len.toNat < 2 ^ 32 := by
    intro h0
    obtain ⟨-, h2, -⟩ := htrim.resolve_left h0
    omega
  have hplace : t.len = 0 ∨ i.rcvNxt.toNat ≤ t.seq.toNat ∧
      t.seq.toNat + t.len.toNat ≤ i.rcvNxt.toNat + i.rbuf.getWriteRemaining := by
    rcases htrim with h0 | ⟨h1, h2, -⟩
    · exact Or.inl h0
    · exact Or.inr ⟨by omega, by omega⟩
  have hedge : t.len ≠ 0 → bIgnoreData = false →
      t.seq.toNat + t.len.toNat ≤ i.rcvNxt.toNat + i.rcvWnd.toNat := by
    intro h0 hf
    obtain ⟨-, h2, -⟩ := htrim.resolve_left h0
    rcases hin hf with h | h <;> omega
  rcases Incoming.store_cases h.opened bIgnoreData sflags hplace with
    ⟨he, -⟩ | ⟨h0, -, hs, he⟩ | ⟨h0, hf, hlt, he⟩ | ⟨h0, hf, hs, he⟩
  · rw [he]
    exact h
  · rw [he]
    have hw := hwrap h0
    have hnxt : (i.rcvNxt + t.len).toNat = i.rcvNxt.toNat + t.len.toNat := by
      rw [hs] at hw
      bv_omega
    refine ⟨h.opened, h.capacity, h.scale, h.wnd, fun r hr => ?_⟩
    obtain ⟨hrw, hre⟩ := h.entries r hr
    simp only [hnxt]
    exact ⟨hrw, by omega⟩
  all_goals
    obtain ⟨hseq, hfit⟩ := hplace.resolve_left h0
    obtain ⟨-, g1, g2, g3, -⟩ := Incoming.placed_spec h.opened h0 hseq hfit
    have hfree : (i.placed t).getWriteRemaining = i.rbuf.getWriteRemaining := by
      simp only [FifoBuffer.getWriteRemaining, g2, g3]
    have hp : Windowed { i with rbuf := i.placed t } :=
      ⟨g1, g2.trans h.capacity, h.scale, by rw [hfree]; exact h.wnd, h.entries⟩
    rw [he]
  · refine ⟨hp.opened, hp.capacity, hp.scale, hp.wnd, fun r hr => ?_⟩
    rcases mem_insertRSegment.mp hr with rfl | hr
    · exact ⟨hwrap h0, hedge h0 hf⟩
    · exact h.entries r hr
  · have hw := hwrap h0
    have hed := hedge h0 hf
    rw [hs] at hw hed
    exact Windowed.drain i.rlist (hp.commit (by simp only; omega) (by simp only; omega))

/-! ## Resizing the buffer -/

namespace PseudoTcp

variable {env : Env} {s : PseudoTcp}

/-- The loop of `resizeReceiveBuffer` halves the size `k` times. -/
theorem scaleFor_spec : ∀ (fuel : Nat) (size : U32) (scale : U8),
    ∃ k, k ≤ fuel ∧ (scaleFor fuel size scale).1 = size >>> k ∧
      (scaleFor fuel size scale).2 = scale + BitVec.ofNat 8 k ∧
      (size.toNat < 2 ^ (16 + fuel) → (size >>> k).toNat ≤ 0xFFFF)
  | 0, size, scale => by
    refine ⟨0, le_refl 0, ?_, ?_, fun h => ?_⟩
    · simp [scaleFor]
    · simp [scaleFor]
    · simp only [BitVec.toNat_ushiftRight, Nat.shiftRight_zero]
      omega
  | fuel + 1, size, scale => by
    unfold scaleFor
    split
    · obtain ⟨k, hk, h1, h2, h3⟩ := scaleFor_spec fuel (size >>> 1) (scale + 1)
      refine ⟨k + 1, by omega, ?_, ?_, fun h => ?_⟩
      · rw [h1, Nat.add_comm, BitVec.shiftRight_add]
      · rw [h2, Nat.add_comm k 1, BitVec.ofNat_add, ← BitVec.add_assoc]
        rfl
      · rw [Nat.add_comm k 1, BitVec.shiftRight_add]
        refine h3 ?_
        rw [BitVec.toNat_ushiftRight, Nat.shiftRight_eq_div_pow]
        have : 2 ^ (16 + (fuel + 1)) = 2 * 2 ^ (16 + fuel) := by rw [← Nat.pow_succ']; congr 1
        omega
    · refine ⟨0, by omega, ?_, ?_, fun _ => ?_⟩
      · simp
      · simp
      · simp only [BitVec.toNat_ushiftRight, Nat.shiftRight_zero]
        bv_omega

/-- The size `resizeReceiveBuffer` sets: its low bits are cleared, so that the window field can
hold it. -/
def roundedSize (size : U32) : U32 :=
  (scaleFor 16 size 0).1 <<< (scaleFor 16 size 0).2.toNat

theorem roundedSize_field (size : U32) :
    (roundedSize size >>> ((scaleFor 16 size 0).2.toNat % 32)).toNat ≤ 0xFFFF := by
  obtain ⟨k, hk, h1, h2, h3⟩ := scaleFor_spec 16 size 0
  have hk' : (scaleFor 16 size 0).2.toNat = k := by
    rw [h2, zero_add, BitVec.toNat_ofNat]
    omega
  have hsize := h3 (by have := size.isLt; omega)
  unfold roundedSize
  rw [hk', h1, Nat.mod_eq_of_lt (by omega)]
  rw [BitVec.toNat_ushiftRight, Nat.shiftRight_eq_div_pow] at hsize
  rw [BitVec.toNat_ushiftRight, BitVec.toNat_shiftLeft, BitVec.toNat_ushiftRight,
    Nat.shiftRight_eq_div_pow, Nat.shiftRight_eq_div_pow, Nat.shiftLeft_eq]
  have hpos : 0 < 2 ^ k := Nat.two_pow_pos k
  have hle : size.toNat / 2 ^ k * 2 ^ k ≤ size.toNat := Nat.div_mul_le_self _ _
  have hlt := size.isLt
  rw [Nat.mod_eq_of_lt (by omega), Nat.mul_div_cancel _ hpos]
  exact hsize

/-- Everything stored fits in a buffer of `size` bytes. -/
structure Fits (i : Incoming) (size : U32) : Prop where
  data : i.rbuf.dataLength ≤ size.toNat
  entries : ∀ r ∈ i.rlist,
    r.seq.toNat + r.len.toNat ≤ i.rcvNxt.toNat + (size.toNat - i.rbuf.dataLength)

theorem Windowed.resize (h : Windowed s.toIncoming) {size : U32}
    (hf : Fits s.toIncoming (roundedSize size)) :
    Windowed (s.resizeReceiveBuffer env size).toIncoming := by
  obtain ⟨-, hread, hstate, hcap⟩ :=
    FifoBuffer.setCapacity_spec s.rbuf env.mem (roundedSize size).isLt
  have hdata := congrArg List.length hread
  rw [FifoBuffer.readable_length, FifoBuffer.readable_length] at hdata
  rw [if_pos hf.data] at hcap
  have hwnd : (s.resizeReceiveBuffer env size).rcvWnd.toNat =
      (s.resizeReceiveBuffer env size).rbuf.getWriteRemaining := getWriteRemaining_toNat _
  have hfree : (s.resizeReceiveBuffer env size).rbuf.getWriteRemaining =
      (roundedSize size).toNat - s.rbuf.dataLength := by
    show (s.rbuf.setCapacity env.mem _ (roundedSize size).isLt).2.getWriteRemaining = _
    unfold FifoBuffer.getWriteRemaining
    rw [hcap, hdata]
  refine ⟨hstate.trans h.opened, hcap, roundedSize_field size, le_of_eq hwnd, fun r hr => ?_⟩
  refine ⟨(h.entries r hr).1, ?_⟩
  rw [hwnd, hfree]
  exact hf.entries r hr

theorem Windowed.recv (h : Windowed i) {n : Nat} {b : FifoBuffer (2 ^ 32)}
    (hb : i.rbuf.consumeReadData n = some b) (mss : U32) :
    Windowed (reopen { i with rbuf := b } mss) := by
  obtain ⟨hn, h1, h2, h3, -⟩ := FifoBuffer.consumeReadData_eq_some hb
  have hwnd := h.wnd
  have hfree : b.getWriteRemaining = i.rbuf.getWriteRemaining + n := by
    have := i.rbuf.dataLength_le
    unfold FifoBuffer.getWriteRemaining
    omega
  have hall := getWriteRemaining_toNat b
  unfold reopen
  split
  · refine ⟨h2.trans h.opened, h1.trans h.capacity, h.scale, le_of_eq hall, fun r hr => ?_⟩
    obtain ⟨hw, he⟩ := h.entries r hr
    refine ⟨hw, ?_⟩
    simp only [hall]
    omega
  · refine ⟨h2.trans h.opened, h1.trans h.capacity, h.scale, ?_, h.entries⟩
    simp only [hfree]
    omega

/-! ## Control data -/

/-- The option bytes of a CONNECT message. -/
def optionBytes (seg : Segment) : List U8 := fetch (fun k => seg.data (1 + k)) (seg.len - 1).toNat

/-- The CONNECT message of a peer without window scaling makes `parseOptions` set the receive
buffer back to its default size. -/
def Reverts (s : PseudoTcp) (seg : Segment) : Prop :=
  seg.flags &&& flagCtl ≠ 0 ∧ s.rwndScale > 0 ∧
    ∃ seen, (parseOptionsLoop (optionBytes seg).length s (optionBytes seg) []).2 = some seen ∧
      tcpOptWndScale ∉ seen

theorem parseOptions_inc (env : Env) (s : PseudoTcp) (data : List U8) :
    (s.parseOptions env data).toIncoming = s.toIncoming ∨
      (s.rwndScale > 0 ∧ ∃ seen, (parseOptionsLoop data.length s data []).2 = some seen ∧
        tcpOptWndScale ∉ seen) ∧
      (s.parseOptions env data).toIncoming =
        (s.resizeReceiveBuffer env defaultRcvBufSize).toIncoming := by
  obtain ⟨x, h⟩ | ⟨hdeclined, h⟩ := parseOptions_cases env s data
  · exact Or.inl (by rw [h])
  · exact Or.inr ⟨hdeclined, by rw [h]⟩

theorem controlled_inc (env : Env) (s : PseudoTcp) (seg : Segment) :
    (s.controlled env seg).toIncoming = s.toIncoming ∨
      Reverts (s.arrive env) seg ∧ (s.controlled env seg).toIncoming =
        (s.resizeReceiveBuffer env defaultRcvBufSize).toIncoming := by
  unfold controlled processControl
  split
  · exact Or.inl rfl
  rename_i hctl
  split
  · exact Or.inl rfl
  split
  · have h := parseOptions_inc env (s.arrive env) (optionBytes seg)
    unfold optionBytes at h
    generalize (s.arrive env).parseOptions env
      (fetch (fun k => seg.data (1 + k)) (seg.len - 1).toNat) = s₁ at h ⊢
    have hinc : ∀ s₂ : PseudoTcp, s₂.toIncoming = s₁.toIncoming →
        s₂.toIncoming = s.toIncoming ∨ Reverts (s.arrive env) seg ∧ s₂.toIncoming =
          (s.resizeReceiveBuffer env defaultRcvBufSize).toIncoming := by
      intro s₂ he
      rw [he]
      rcases h with h | ⟨hrev, h⟩
      · exact Or.inl h
      · exact Or.inr ⟨⟨hctl, hrev⟩, h⟩
    simp only
    split
    · exact hinc _ rfl
    split
    · exact hinc _ rfl
    · exact hinc _ rfl
  · exact Or.inl rfl

/-! ## Runs -/

/-- A segment that `process` takes uses no free space behind the window: it ends inside the
window, or no free space is behind it, or its data is ignored. What a change of the buffer's size
leaves must hold what is stored. -/
structure InWindow (env : Env) (s : PseudoTcp) (c : Call) : Prop where
  segment : ∀ buffer, c = .notifyPacket buffer → Arrives buffer → Admits s (wire env buffer) →
    (wire env buffer).seq.toNat + (wire env buffer).len.toNat < 2 ^ 32 ∧
      (s.ignoresData (wire env buffer) = false →
        (wire env buffer).seq.toNat + (wire env buffer).len.toNat ≤
            s.rcvNxt.toNat + s.rcvWnd.toNat ∨
          s.rcvWnd.toNat = s.rbuf.getWriteRemaining)
  revert : ∀ buffer, c = .notifyPacket buffer → Arrives buffer → Admits s (wire env buffer) →
    Reverts (s.arrive env) (wire env buffer) →
    Fits s.toIncoming (roundedSize defaultRcvBufSize)
  option : ∀ v, c = .setOption .rcvBuf v → Fits s.toIncoming (roundedSize v)

theorem Reverts.ignores {seg : Segment} (h : Reverts (s.arrive env) seg) :
    s.ignoresData seg = true := by
  unfold ignoresData
  rw [decide_eq_true h.1, Bool.true_or]

theorem Windowed.takes (h : Windowed s.toIncoming) {c : Call} (hin : InWindow env s c)
    (ht : Takes env s c i) : Windowed i := by
  cases ht with
  | nothing => exact h
  | @packet buffer ok i harr hst =>
    have hcontrol : Admits s (wire env buffer) →
        Windowed (s.controlled env (wire env buffer)).toIncoming := by
      intro hadm
      rcases controlled_inc env s (wire env buffer) with he | ⟨hrev, he⟩
      · exact he ▸ h
      · rw [he]
        exact Windowed.resize h (hin.revert buffer rfl harr hadm hrev)
    cases hst with
    | rejected => exact h
    | controlled hadm => exact hcontrol hadm
    | stored hadm =>
      obtain ⟨hend, hwin⟩ := hin.segment buffer rfl harr hadm
      refine (hcontrol hadm).receive _ hend (fun hf => ?_) .none
      rcases controlled_inc env s (wire env buffer) with he | ⟨hrev, -⟩
      · rw [he]
        exact hwin hf
      · exact absurd (hrev.ignores.symm.trans hf) (by decide)
  | recv hr =>
    cases hr with
    | nothing _ => exact h
    | bytes b _ _ hb => exact Windowed.recv h hb s.mss
  | resize value => exact Windowed.resize h (hin.option value rfl)

theorem windowed_new (conv now : U32) (rmem smem : Nat → U8) :
    Windowed (new conv now rmem smem).toIncoming := by
  refine ⟨rfl, rfl, ?_, ?_, by simp [new]⟩
  · show (defaultRcvBufSize >>> 0).toNat ≤ 0xFFFF
    decide
  · show defaultRcvBufSize.toNat ≤ defaultRcvBufSize.toNat - 0
    omega

theorem reach_windowed (hr : Reach InWindow s) : Windowed s.toIncoming :=
  hr.induct (P := fun s => Windowed s.toIncoming) windowed_new
    fun _ _ c h hin => Windowed.takes h hin (call_takes h.opened c)

/-- **The receive window fits the buffer in every run** in which no segment uses free space behind
the window: `m_rcv_wnd` is at most the free space, that is at most the buffer's size, and the
window field of a header loses nothing. -/
theorem window_fits (hr : Reach InWindow s) : WindowFits s.toIncoming := (reach_windowed hr).fits

/-- A packet of the peer at `seq`, with `payload`. -/
def incoming (seq : U32) (flags : U8) (payload : List U8) : List U8 :=
  Packet.bytes ⟨1, seq, 0, flags, 1000, 1, 1, payload⟩

/-- A receiver with a buffer of eight bytes that takes the peer's CONNECT message and eight bytes,
and returns one of them. -/
def oneByteRead : PseudoTcp :=
  ((((new 1 1 (fun _ => 0) (fun _ => 0)).call (still 1) (.setOption .rcvBuf 8)).call (still 1)
    (.notifyPacket (incoming 0 flagCtl [ctlConnect, tcpOptWndScale, 1, 0]))).call (still 1)
    (.notifyPacket (incoming 4 0 [1, 2, 3, 4, 5, 6, 7, 8]))).call (still 1) (.recv 1)

theorem window_fits_oneByteRead :
    Reach InWindow oneByteRead ∧ WindowFits oneByteRead.toIncoming := by
  have hr : Reach InWindow oneByteRead := by
    refine .call _ _ (.call _ _ (.call _ _ (.call _ _ (.fresh 1 1 _ _) ?_) ?_) ?_) ?_
    · refine ⟨fun _ h => absurd h (by simp), fun _ h => absurd h (by simp), fun v h => ?_⟩
      cases h
      exact ⟨by decide, by decide⟩
    · refine ⟨fun _ h _ _ => ?_, fun _ h _ _ _ => ?_, fun v h => absurd h (by simp)⟩
      · cases h
        decide
      · cases h
        exact ⟨by decide, by decide⟩
    · refine ⟨fun _ h _ _ => ?_, fun _ h _ _ _ => ?_, fun v h => absurd h (by simp)⟩
      · cases h
        decide
      · cases h
        exact ⟨by decide, by decide⟩
    · exact ⟨fun _ h => absurd h (by simp), fun _ h => absurd h (by simp),
        fun v h => absurd h (by simp)⟩
  exact ⟨hr, window_fits hr⟩

/-- **The window wraps around.** The window is closed and one byte is free; a segment of one byte
is stored there and lowers `m_rcv_wnd` from 0 to `2 ^ 32 - 1`. -/
theorem window_underflows :
    ∃ s, Reach Always s ∧ s.state = .established ∧ s.rcvWnd = BitVec.ofNat 32 (2 ^ 32 - 1) ∧
      ¬ WindowFits s.toIncoming := by
  have hw : (oneByteRead.call (still 1) (.notifyPacket (incoming 12 0 [9]))).rcvWnd =
      BitVec.ofNat 32 (2 ^ 32 - 1) := by decide
  refine ⟨oneByteRead.call (still 1) (.notifyPacket (incoming 12 0 [9])),
    .call _ _ (.call _ _ (.call _ _ (.call _ _ (.call _ _ (.fresh 1 1 _ _) trivial) trivial)
      trivial) trivial) trivial, by decide, hw, fun h => ?_⟩
  have hle := h.wnd.trans h.free
  rw [hw] at hle
  exact absurd hle (by decide)

end PseudoTcp

end Libjingle
