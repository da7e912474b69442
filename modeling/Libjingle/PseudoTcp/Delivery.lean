import Libjingle.PseudoTcp.InFlight
import Libjingle.PseudoTcp.Reassembly
import Libjingle.PseudoTcp.Window

/-!
# What a receiver has of its peer's stream

The receiver's half of a connection. `o` is the outgoing data of the peer, `stream o` its stream
by sequence number: the CONNECT message at 0 to 3, data from 4 on.

* A segment with data must not come before the CONNECT message.
-/

namespace Libjingle

open Lib

/-! ## Packets on the wire -/

/-- The segment holds what the packet holds. -/
structure Matches (seg : Segment) (p : Packet) : Prop where
  conv : seg.conv = p.conv
  seq : seg.seq = p.seq
  ack : seg.ack = p.ack
  flags : seg.flags = p.flags
  wnd : seg.wnd = p.wnd
  len : seg.len.toNat = p.payload.length
  data : ∀ k, k < p.payload.length → p.payload[k]? = some (seg.data k)

theorem fetch_field {bytes a m z : List U8} {n k : Nat} (h : bytes = a ++ m ++ z)
    (hp : a.length = n) (hm : m.length = k) (mem : Nat → U8) :
    fetch (fun i => (bytes[n + i]?).getD (mem (n + i))) k = m := by
  subst h hp hm
  exact fetch_piece a m z mem

theorem ofBE_u32 (x : U32) : BitVec.ofNat 32 (ofBE (toBE 4 x.toNat)) = x := by
  rw [ofBE_toBE (by have := x.isLt; omega), BitVec.ofNat_toNat, BitVec.setWidth_eq]

theorem ofBE_u16 (x : U16) : BitVec.ofNat 16 (ofBE (toBE 2 x.toNat)) = x := by
  rw [ofBE_toBE (by have := x.isLt; omega), BitVec.ofNat_toNat, BitVec.setWidth_eq]

theorem Packet.bytes_length (p : Packet) : p.bytes.length = 24 + p.payload.length := by
  simp only [Packet.bytes, List.length_append, toBE_length, List.length_cons, List.length_nil]

/-- **Parsing undoes packing.** -/
theorem wire_matches (env : Env) (p : Packet) (h : PseudoTcp.Arrives p.bytes) :
    Matches (PseudoTcp.wire env p.bytes) p := by
  have hlen := p.bytes_length
  have hmax : p.bytes.length ≤ 65535 := h.2
  have hconv : fetch (fun i => (p.bytes[0 + i]?).getD (env.mem (0 + i))) 4 =
      toBE 4 p.conv.toNat :=
    fetch_field (a := []) (z := toBE 4 p.seq.toNat ++ (toBE 4 p.ack.toNat ++ ([0, p.flags] ++
      (toBE 2 p.wnd.toNat ++ (toBE 4 p.tsval.toNat ++ (toBE 4 p.tsecr.toNat ++ p.payload))))))
      (by simp [Packet.bytes]) rfl (by simp) _
  have hseq : fetch (fun i => (p.bytes[4 + i]?).getD (env.mem (4 + i))) 4 = toBE 4 p.seq.toNat :=
    fetch_field (a := toBE 4 p.conv.toNat) (z := toBE 4 p.ack.toNat ++ ([0, p.flags] ++
      (toBE 2 p.wnd.toNat ++ (toBE 4 p.tsval.toNat ++ (toBE 4 p.tsecr.toNat ++ p.payload)))))
      (by simp [Packet.bytes]) (by simp) (by simp) _
  have hack : fetch (fun i => (p.bytes[8 + i]?).getD (env.mem (8 + i))) 4 = toBE 4 p.ack.toNat :=
    fetch_field (a := toBE 4 p.conv.toNat ++ toBE 4 p.seq.toNat) (z := [0, p.flags] ++
      (toBE 2 p.wnd.toNat ++ (toBE 4 p.tsval.toNat ++ (toBE 4 p.tsecr.toNat ++ p.payload))))
      (by simp [Packet.bytes]) (by simp) (by simp) _
  have hwnd : fetch (fun i => (p.bytes[14 + i]?).getD (env.mem (14 + i))) 2 = toBE 2 p.wnd.toNat :=
    fetch_field (a := toBE 4 p.conv.toNat ++ toBE 4 p.seq.toNat ++ toBE 4 p.ack.toNat ++
      [0, p.flags]) (z := toBE 4 p.tsval.toNat ++ (toBE 4 p.tsecr.toNat ++ p.payload))
      (by simp [Packet.bytes]) (by simp) (by simp) _
  have hflags : p.bytes[13]? = some p.flags := by
    have hsplit : p.bytes = (toBE 4 p.conv.toNat ++ toBE 4 p.seq.toNat ++ toBE 4 p.ack.toNat ++
        [0]) ++ (p.flags :: (toBE 2 p.wnd.toNat ++ (toBE 4 p.tsval.toNat ++
          (toBE 4 p.tsecr.toNat ++ p.payload)))) := by simp [Packet.bytes]
    rw [hsplit, List.getElem?_append_right (by simp)]
    simp
  have hpay : ∀ k, k < p.payload.length → p.bytes[24 + k]? = p.payload[k]? := by
    intro k _
    have hsplit : p.bytes = (toBE 4 p.conv.toNat ++ toBE 4 p.seq.toNat ++ toBE 4 p.ack.toNat ++
        [0, p.flags] ++ toBE 2 p.wnd.toNat ++ toBE 4 p.tsval.toNat ++ toBE 4 p.tsecr.toNat) ++
        p.payload := rfl
    rw [hsplit, List.getElem?_append_right (by simp)]
    simp
  simp only [Nat.zero_add] at hconv
  refine ⟨?_, ?_, ?_, ?_, ?_, ?_, fun k hk => ?_⟩
  · simp only [PseudoTcp.wire, PseudoTcp.parseSegment, hconv, ofBE_u32]
  · simp only [PseudoTcp.wire, PseudoTcp.parseSegment, hseq, ofBE_u32]
  · simp only [PseudoTcp.wire, PseudoTcp.parseSegment, hack, ofBE_u32]
  · simp only [PseudoTcp.wire, PseudoTcp.parseSegment, hflags, Option.getD_some]
  · simp only [PseudoTcp.wire, PseudoTcp.parseSegment, hwnd, ofBE_u16]
  · simp only [PseudoTcp.wire, PseudoTcp.parseSegment, hlen, headerSize]
    bv_omega
  · simp only [PseudoTcp.wire, PseudoTcp.parseSegment, hpay k hk]
    rw [List.getElem?_eq_getElem hk]
    rfl

/-! ## The receiver -/

variable {o o' : Outgoing} {i : Incoming} {received : List U8}

/-- The peer's stream by sequence number. -/
def stream (o : Outgoing) (p : Nat) : U8 := o.queued.getD p 0

def windowEnd (i : Incoming) : Nat := i.rcvNxt.toNat + i.rcvWnd.toNat

/-- What a receiver holds of the stream of its peer, `received` being what it returned so far. -/
structure Inbound (o : Outgoing) (i : Incoming) (received : List U8) : Prop where
  windowed : Windowed i
  scale : i.rwndScale = 0
  mark : Mark o i.rcvNxt.toNat
  marks : ∀ r ∈ i.rlist, Mark o (r.seq.toNat + r.len.toNat)
  assembled : Assembled (stream o) i
  early : i.rcvNxt.toNat < 4 → i.rlist = []
  wide : 4 ≤ windowEnd i
  delivered : received ++ i.rbuf.readable =
    fetch (fun k => stream o (4 + k)) (i.rcvNxt.toNat - 4)

theorem Inbound.header (h : Inbound o i received) :
    Mark o i.rcvNxt.toNat ∧ i.rcvNxt.toNat + i.advertised.toNat ≤ windowEnd i := by
  refine ⟨h.mark, ?_⟩
  have hfield := h.windowed.fits.field
  rw [h.scale] at hfield
  unfold windowEnd
  rw [hfield]
  exact Nat.add_le_add_left (Nat.le_of_eq rfl) _

theorem stream_grows (h : o.queued <+: o'.queued) {p : Nat} (hp : p < o.queued.length) :
    stream o' p = stream o p := by
  obtain ⟨t, ht⟩ := h
  unfold stream
  rw [List.getD_eq_getElem?_getD, List.getD_eq_getElem?_getD, ← ht,
    List.getElem?_append_left hp]

theorem Inbound.grows (h : Inbound o i received) (hl : Listed o) (hw : o.queued.length < 2 ^ 32)
    (hm : ∀ e, Mark o e → Mark o' e) (hq : o.queued <+: o'.queued) : Inbound o' i received := by
  have hle : ∀ e, Mark o e → e ≤ o.queued.length :=
    fun e he => (he.le_next hl hw).trans (hl.next_toNat hw).2
  refine ⟨h.windowed, h.scale, hm _ h.mark, fun r hr => hm _ (h.marks r hr), ?_, h.early,
    h.wide, ?_⟩
  · refine ⟨h.assembled.opened, h.assembled.sorted, h.assembled.ahead, fun r hr => ?_⟩
    obtain ⟨h1, h2⟩ := h.assembled.stored r hr
    refine ⟨h1, fun p hp hs he => ?_⟩
    obtain ⟨h3, h4⟩ := h2 p hp hs he
    have := hle _ (h.marks r hr)
    exact ⟨h3, by rw [stream_grows hq (by omega)]; exact h4⟩
  · rw [h.delivered]
    have := hle _ h.mark
    exact fetch_congr fun k hk => (stream_grows hq (by omega)).symm

theorem Inbound.reads {s : PseudoTcp} (h : Inbound o s.toIncoming received) {len : Nat}
    {out : Option (List U8)} (hr : PseudoTcp.Reads s len i out) :
    Inbound o i (received ++ out.getD []) ∧ windowEnd s.toIncoming ≤ windowEnd i ∧
      i.rcvNxt = s.rcvNxt := by
  cases hr with
  | nothing _ => exact ⟨by simpa using h, le_refl _, rfl⟩
  | bytes b _ _ hb =>
    obtain ⟨ha, hread⟩ := recv_assembles h.assembled hb s.mss
    have hwin := PseudoTcp.Windowed.recv h.windowed hb s.mss
    have hwnd := h.windowed.wnd
    obtain ⟨hn, h1, -, h3, -⟩ := FifoBuffer.consumeReadData_eq_some hb
    have hall := getWriteRemaining_toNat b
    have hd := s.rbuf.dataLength_le
    unfold FifoBuffer.getWriteRemaining at hwnd hall
    have hend : windowEnd s.toIncoming ≤
        windowEnd (PseudoTcp.reopen { s.toIncoming with rbuf := b } s.mss) := by
      unfold PseudoTcp.reopen windowEnd
      split
      · simp only [FifoBuffer.getWriteRemaining, hall]
        omega
      · exact le_refl _
    refine ⟨⟨hwin, ?_, ?_, ?_, ha, ?_, h.wide.trans hend, ?_⟩, hend, ?_⟩
    · unfold PseudoTcp.reopen
      split <;> exact h.scale
    · unfold PseudoTcp.reopen
      split <;> exact h.mark
    · unfold PseudoTcp.reopen
      split <;> exact h.marks
    · unfold PseudoTcp.reopen
      split <;> exact h.early
    · have hout : received ++ fetch s.rbuf.peek (min len s.rbuf.dataLength) ++ b.readable =
          fetch (fun k => stream o (4 + k)) (s.rcvNxt.toNat - 4) := by
        rw [List.append_assoc, ← hread]
        exact h.delivered
      unfold PseudoTcp.reopen
      split <;> exact hout
    · unfold PseudoTcp.reopen
      split <;> rfl

/-! ## Segments -/

variable {seg : Segment}

theorem receive_empty (i : Incoming) (bIgnoreData : Bool) (h0 : seg.len = 0)
    (sflags : SendFlags) : (i.receive bIgnoreData seg sflags).inc = i := by
  have hold : (i.trimOld seg).len = 0 := by
    unfold Incoming.trimOld
    simp only
    split
    · rw [if_neg (by rw [h0]; bv_omega)]
    · exact h0
  have hnew : (i.trimNew (i.trimOld seg)).len = 0 := by
    unfold Incoming.trimNew
    simp only
    split
    · rw [if_neg (by rw [hold]; bv_omega)]
    · exact hold
  unfold Incoming.receive Incoming.store
  rw [if_pos hnew]

/-- A piece of the CONNECT message only counts: it moves `m_rcv_nxt` to its end, in front of
everything stored. -/
theorem Inbound.control (h : Inbound o i received) (hend : seg.seq.toNat + seg.len.toNat ≤ 4)
    (hmark : seg.len ≠ 0 → Mark o (seg.seq.toNat + seg.len.toNat)) (sflags : SendFlags) :
    Inbound o (i.receive true seg sflags).inc received ∧
      windowEnd i ≤ windowEnd (i.receive true seg sflags).inc := by
  have hnowrap : seg.seq.toNat + seg.len.toNat < 2 ^ 32 := by omega
  have htrim := i.trim_cases hnowrap
  unfold Incoming.receive
  generalize i.trimNew (i.trimOld seg) = t at htrim ⊢
  have hin : t.len = 0 ∨ i.rcvNxt.toNat ≤ t.seq.toNat ∧
      t.seq.toNat + t.len.toNat ≤ i.rcvNxt.toNat + i.rbuf.getWriteRemaining := by
    rcases htrim with h0 | ⟨h1, h2, -⟩
    · exact Or.inl h0
    · exact Or.inr ⟨by omega, by omega⟩
  rcases Incoming.store_cases h.windowed.opened true sflags hin with
    ⟨he, -⟩ | ⟨h0, -, hs, he⟩ | ⟨-, hf, -⟩ | ⟨-, hf, -⟩
  · rw [he]
    exact ⟨h, le_refl _⟩
  · -- the message is still to come, so nothing is stored behind it
    obtain ⟨h1, h2, -⟩ := htrim.resolve_left h0
    have hwide := h.wide
    have hwnd := h.windowed.wnd
    have hdel := h.delivered
    unfold windowEnd at hwide
    have hpos : 0 < t.len.toNat := by bv_omega
    have hs' : t.seq.toNat = i.rcvNxt.toNat := by rw [hs]
    have hnxt : (i.rcvNxt + t.len).toNat = seg.seq.toNat + seg.len.toNat := by bv_omega
    have hnil := h.early (by omega)
    rw [he]
    refine ⟨⟨⟨h.windowed.opened, h.windowed.capacity, h.windowed.scale, hwnd, ?_⟩, h.scale, ?_, ?_,
      ⟨h.assembled.opened, h.assembled.sorted, ?_, ?_⟩, fun _ => hnil, ?_, ?_⟩, ?_⟩
    · simp [hnil]
    · simp only [hnxt]
      exact hmark (by bv_omega)
    · simp [hnil]
    · simp [hnil]
    · simp [hnil]
    · unfold windowEnd
      simp only [hnxt]
      omega
    · simp only [hnxt]
      rw [hdel, Nat.sub_eq_zero_of_le (by omega), Nat.sub_eq_zero_of_le hend]
    · unfold windowEnd
      simp only [hnxt]
      omega
  · exact absurd hf (by simp)
  · exact absurd hf (by simp)

/-- **A segment of data** inside the window, behind the CONNECT message. -/
theorem Inbound.data (h : Inbound o i received) (hl : Listed o)
    (hw : o.queued.length < 2 ^ 31 + 4) (h4 : 4 ≤ i.rcvNxt.toNat)
    (ha : Agrees (stream o) seg) (hin : seg.seq.toNat + seg.len.toNat ≤ windowEnd i)
    (hmark : Mark o (seg.seq.toNat + seg.len.toNat)) (sflags : SendFlags) :
    Inbound o (i.receive false seg sflags).inc received ∧
      windowEnd i ≤ windowEnd (i.receive false seg sflags).inc := by
  have hwnd := h.windowed.wnd
  obtain ⟨has, hext⟩ := receive_assembles h.assembled ha sflags
  have hwin := h.windowed.receive false ha.noWrap (fun _ => Or.inl hin) sflags
  have hshape := i.receive_shape false seg sflags
  have htrim := i.trim_cases ha.noWrap
  obtain ⟨hnext, hlist, hsum⟩ := i.store_next (i.trimNew (i.trimOld seg)) sflags
  -- nothing of the segment is cut off behind
  have hstop : (i.trimNew (i.trimOld seg)).len ≠ 0 →
      (i.trimNew (i.trimOld seg)).seq.toNat + (i.trimNew (i.trimOld seg)).len.toNat =
        seg.seq.toNat + seg.len.toNat := by
    intro h0
    obtain ⟨-, h2, -⟩ := htrim.resolve_left h0
    unfold windowEnd at hin
    omega
  have hnowrap := ha.noWrap
  have hmark' : Mark o (i.receive false seg sflags).inc.rcvNxt.toNat := by
    unfold Incoming.receive
    rcases hnext with he | ⟨h0, he⟩ | ⟨r, hr, he⟩
    · rw [he]
      exact h.mark
    · have := hstop h0
      rw [he, show ((i.trimNew (i.trimOld seg)).seq + (i.trimNew (i.trimOld seg)).len).toNat =
        seg.seq.toNat + seg.len.toNat by bv_omega]
      exact hmark
    · have := (h.windowed.entries r hr).1
      rw [he, show (r.seq + r.len).toNat = r.seq.toNat + r.len.toNat by bv_omega]
      exact h.marks r hr
  have hle : (i.receive false seg sflags).inc.rcvNxt.toNat < 2 ^ 31 + 4 := by
    have h1 := hmark'.le_next hl (by omega)
    have h2 := (hl.next_toNat (by omega)).2
    omega
  -- the end of the window stays where it is
  have hsmall : ∀ j : Incoming, Windowed j → j.rwndScale = 0 → j.rcvWnd.toNat ≤ 0xFFFF := by
    intro j hj h0
    have h1 := hj.fits.wnd.trans hj.fits.free
    have h2 := hj.scale
    rw [h0, BitVec.toNat_ushiftRight] at h2
    exact h1.trans h2
  have hscale : (i.receive false seg sflags).inc.rwndScale = 0 :=
    (congrArg (fun x => x.2.1) hshape).trans h.scale
  have h1 := hsmall _ h.windowed h.scale
  have h2 := hsmall _ hwin hscale
  have hend : windowEnd (i.receive false seg sflags).inc = windowEnd i := by
    have hsum' : (i.receive false seg sflags).inc.rcvNxt +
      (i.receive false seg sflags).inc.rcvWnd = i.rcvNxt + i.rcvWnd := hsum
    have hle0 := hext.le
    unfold windowEnd
    bv_omega
  refine ⟨⟨hwin, hscale, hmark', fun r hr => ?_, has, fun hlt => ?_, ?_, ?_⟩, le_of_eq hend.symm⟩
  · rcases hlist r hr with hr | ⟨h0, rfl⟩
    · exact h.marks r hr
    · simp only
      rw [hstop h0]
      exact hmark
  · have := hext.le
    omega
  · rw [hend]
    exact h.wide
  · rw [hext.readable, ← List.append_assoc, h.delivered]
    exact fetch_chain (stream o) h4 hext.le

end Libjingle
