import Libjingle.PseudoTcp.Calls

/-!
# `process` under a translation of sequence space

`shift c d` adds `c` to this side's sequence numbers and `d` to the peer's, modulo `2 ^ 32`, in a
state, a segment or a packet. What the code computes from differences of sequence numbers does not
change; what it compares with `<` and `≤` changes when a number passes `2 ^ 32`.

* `process_shift`: where the numbers in use lie in a stretch of sequence space that wraps neither
  before nor after the translation (`Unbroken`), `process` commutes with it.
-/

namespace Libjingle

open Lib

variable {c d : U32}

/-! ## The translation -/

/-- Add to the sequence number of an entry of `m_rlist`. -/
def RSegment.shift (d : U32) (r : RSegment) : RSegment := { r with seq := r.seq + d }

/-- Add to the sequence number of an entry of `m_slist`. -/
def SSegment.shift (c : U32) (e : SSegment) : SSegment := { e with seq := e.seq + c }

/-- A segment that arrives counts its data by the peer's numbers and acknowledges by ours. -/
def Segment.shift (c d : U32) (seg : Segment) : Segment :=
  { seg with seq := seg.seq + d, ack := seg.ack + c }

/-- A packet that is sent counts its data by our numbers and acknowledges by the peer's. -/
def Packet.shift (c d : U32) (p : Packet) : Packet := { p with seq := p.seq + c, ack := p.ack + d }

@[inherit_doc Packet.shift]
def Written.shift (c d : U32) (w : Written) : Written := { w with packet := w.packet.shift c d }

def Incoming.shift (d : U32) (i : Incoming) : Incoming :=
  { i with rlist := i.rlist.map (RSegment.shift d), rcvNxt := i.rcvNxt + d }

/-- Translate the outgoing data, with the packets written so far. -/
def Outgoing.shift (c d : U32) (o : Outgoing) : Outgoing :=
  { o with
    slist := o.slist.map (SSegment.shift c)
    sndNxt := o.sndNxt + c
    sndUna := o.sndUna + c
    written := o.written.map (Written.shift c d) }

def PseudoTcp.shift (c d : U32) (s : PseudoTcp) : PseudoTcp :=
  { s with
    toIncoming := s.toIncoming.shift d
    toOutgoing := s.toOutgoing.shift c d
    tsLastack := s.tsLastack + d
    recover := s.recover + c }

/-! ## Stretches that do not wrap -/

/-- The numbers from `a` to `a + n` do not pass `2 ^ 32`, nor do they once `c` is added. -/
structure Unbroken (c a : U32) (n : Nat) : Prop where
  before : a.toNat + n < 2 ^ 32
  after : (a + c).toNat + n < 2 ^ 32

/-- `x` is one of them. -/
structure Among (a : U32) (n : Nat) (x : U32) : Prop where
  le : a.toNat ≤ x.toNat
  ge : x.toNat ≤ a.toNat + n

/-- Adding `c` keeps their order. -/
theorem Unbroken.lt_iff {a x y : U32} {n : Nat} (h : Unbroken c a n) (hx : Among a n x)
    (hy : Among a n y) : x + c < y + c ↔ x < y := by
  have hb := h.before
  have ha := h.after
  have h1 := hx.le
  have h2 := hx.ge
  have h3 := hy.le
  have h4 := hy.ge
  have key : ∀ z : U32, a.toNat ≤ z.toNat → z.toNat ≤ a.toNat + n →
      (z + c).toNat = (a + c).toNat + (z.toNat - a.toNat) := by
    intro z hz hz'
    bv_omega
  rw [BitVec.lt_def, BitVec.lt_def, key x h1 h2, key y h3 h4]
  omega

theorem Unbroken.le_iff {a x y : U32} {n : Nat} (h : Unbroken c a n) (hx : Among a n x)
    (hy : Among a n y) : x + c ≤ y + c ↔ x ≤ y := by
  have := h.lt_iff hy hx
  rw [← BitVec.not_lt, ← BitVec.not_lt, this]

/-! ## Storing a segment -/

namespace Incoming

variable {i : Incoming} {b : U32} {m : Nat}

theorem commit_shift (i : Incoming) (n : U32) : (i.shift d).commit n = (i.commit n).shift d := by
  simp only [commit, shift, Incoming.assert]
  rw [add_right_comm]
  rfl

/-- The entry, with its end, lies in the stretch. -/
structure EntryIn (b : U32) (m : Nat) (r : RSegment) : Prop where
  start : Among b m r.seq
  stop : r.seq.toNat + r.len.toNat ≤ b.toNat + m

theorem EntryIn.among {r : RSegment} (hu : Unbroken d b m) (h : EntryIn b m r) :
    Among b m (r.seq + r.len) := by
  have hb := hu.before
  have h1 := h.start.le
  have h2 := h.stop
  have hsum : (r.seq + r.len).toNat = r.seq.toNat + r.len.toNat := by bv_omega
  exact ⟨by omega, by omega⟩

theorem drain_shift (hu : Unbroken d b m) : ∀ (l : List RSegment) (i : Incoming),
    (∀ r ∈ l, EntryIn b m r) → Among b m i.rcvNxt →
    (i.shift d).drain (l.map (RSegment.shift d)) = (((i.drain l).1).shift d, (i.drain l).2)
  | [], _, _, _ => rfl
  | r :: rest, i, hl, hn => by
    have hr := hl r (by simp)
    have hrest : ∀ e ∈ rest, EntryIn b m e := fun e he => hl e (by simp [he])
    have hstart : (r.shift d).seq ≤ (i.shift d).rcvNxt ↔ r.seq ≤ i.rcvNxt :=
      hu.le_iff hr.start hn
    have hend : (r.shift d).seq + (r.shift d).len = r.seq + r.len + d :=
      add_right_comm r.seq d r.len
    have hstop : (r.shift d).seq + (r.shift d).len > (i.shift d).rcvNxt ↔
        r.seq + r.len > i.rcvNxt := by
      rw [hend]
      exact hu.lt_iff hn (hr.among hu)
    have hdiff : (r.shift d).seq + (r.shift d).len - (i.shift d).rcvNxt =
        r.seq + r.len - i.rcvNxt := by
      rw [hend]
      exact add_sub_add_right_eq_sub _ _ _
    rw [List.map_cons]
    unfold drain
    rw [hdiff]
    by_cases h1 : r.seq ≤ i.rcvNxt
    · rw [if_pos h1, if_pos (hstart.mpr h1)]
      by_cases h2 : r.seq + r.len > i.rcvNxt
      · have hnext : Among b m (i.commit (r.seq + r.len - i.rcvNxt)).rcvNxt := by
          show Among b m (i.rcvNxt + (r.seq + r.len - i.rcvNxt))
          rw [add_sub_cancel]
          exact hr.among hu
        rw [if_pos h2, if_pos (hstop.mpr h2), commit_shift, drain_shift hu rest _ hrest hnext]
      · rw [if_neg h2, if_neg (mt hstop.mp h2), drain_shift hu rest i hrest hn]
    · rw [if_neg h1, if_neg (mt hstart.mp h1)]
      rfl

theorem insertRSegment_shift (hu : Unbroken d b m) {r : RSegment} (hr : Among b m r.seq) :
    ∀ l : List RSegment, (∀ e ∈ l, EntryIn b m e) →
      insertRSegment (r.shift d) (l.map (RSegment.shift d)) =
        (insertRSegment r l).map (RSegment.shift d)
  | [], _ => rfl
  | e :: l, hl => by
    have he := hl e (by simp)
    have hlt : (e.shift d).seq < (r.shift d).seq ↔ e.seq < r.seq := hu.lt_iff he.start hr
    rw [List.map_cons]
    unfold insertRSegment
    by_cases h : e.seq < r.seq
    · rw [if_pos h, if_pos (hlt.mpr h), List.map_cons,
        insertRSegment_shift hu hr l fun x hx => hl x (by simp [hx])]
    · rw [if_neg h, if_neg (mt hlt.mp h), List.map_cons, List.map_cons]

/-- The numbers of the receiver and of the segment lie in the stretch. -/
structure ReceiverIn (b : U32) (m : Nat) (i : Incoming) (seg : Segment) : Prop where
  next : Among b m i.rcvNxt
  start : Among b m seg.seq
  stop : seg.seq.toNat + seg.len.toNat ≤ b.toNat + m
  entries : ∀ r ∈ i.rlist, EntryIn b m r

variable {seg : Segment}

theorem trimOld_shift (hu : Unbroken d b m) (h : ReceiverIn b m i seg) :
    (i.shift d).trimOld (seg.shift c d) = (i.trimOld seg).shift c d := by
  have hlt : (seg.shift c d).seq < (i.shift d).rcvNxt ↔ seg.seq < i.rcvNxt :=
    hu.lt_iff h.start h.next
  have hdiff : (i.shift d).rcvNxt - (seg.shift c d).seq = i.rcvNxt - seg.seq :=
    add_sub_add_right_eq_sub _ _ _
  unfold trimOld
  simp only [hdiff]
  by_cases h1 : seg.seq < i.rcvNxt
  · rw [if_pos h1, if_pos (hlt.mpr h1)]
    by_cases h2 : i.rcvNxt - seg.seq < seg.len
    · rw [if_pos h2, if_pos (show i.rcvNxt - seg.seq < (seg.shift c d).len from h2)]
      simp only [Segment.shift]
      rw [add_right_comm]
    · rw [if_neg h2, if_neg (show ¬ i.rcvNxt - seg.seq < (seg.shift c d).len from h2)]
      rfl
  · rw [if_neg h1, if_neg (mt hlt.mp h1)]

/-- Trimming by the free space only uses the distance from `m_rcv_nxt`. -/
theorem trimNew_shift (i : Incoming) (seg : Segment) :
    (i.shift d).trimNew (seg.shift c d) = (i.trimNew seg).shift c d := by
  have hdiff : seg.seq + d + seg.len - (i.rcvNxt + d) = seg.seq + seg.len - i.rcvNxt := by
    rw [add_right_comm, add_sub_add_right_eq_sub]
  simp only [trimNew, shift, Segment.shift, hdiff]
  split
  · split <;> rfl
  · rfl

theorem ReceiverIn.trim (hu : Unbroken d b m) (h : ReceiverIn b m i seg) :
    (i.trimNew (i.trimOld seg)).len = 0 ∨ ReceiverIn b m i (i.trimNew (i.trimOld seg)) := by
  have hb := hu.before
  have hstop := h.stop
  have h1 := h.start.le
  have h2 := h.next.le
  have hend : seg.seq.toNat + seg.len.toNat < 2 ^ 32 := by omega
  rcases i.trim_cases hend with h0 | ⟨hs, he, -⟩
  · exact Or.inl h0
  · exact Or.inr ⟨h.next, ⟨by omega, by omega⟩, by omega, h.entries⟩

/-- The receiver with the segment written at its offset. -/
def written (i : Incoming) (seg : Segment) : Incoming :=
  let w := i.rbuf.writeOffset seg.data seg.len.toNat (seg.seq - i.rcvNxt).toNat
  { i.assert (w.1 = .success) .receiveWrite with rbuf := w.2.2 }

theorem store_written (h : seg.len ≠ 0) (sflags : SendFlags) : i.store false seg sflags =
      if seg.seq = i.rcvNxt then
        ⟨(((i.written seg).commit seg.len).drain i.rlist).1,
          if (((i.written seg).commit seg.len).drain i.rlist).2 then .immediateAck else sflags,
          true⟩
      else
        ⟨{ i.written seg with rlist := insertRSegment ⟨seg.seq, seg.len⟩ i.rlist }, sflags,
          false⟩ := by
  unfold store
  rw [if_neg h]
  rfl

theorem written_shift (i : Incoming) (seg : Segment) :
    (i.shift d).written (seg.shift c d) = (i.written seg).shift d := by
  have hoff : (seg.shift c d).seq - (i.shift d).rcvNxt = seg.seq - i.rcvNxt :=
    add_sub_add_right_eq_sub _ _ _
  unfold written
  rw [hoff]
  rfl

theorem store_shift (hu : Unbroken d b m) (bIgnoreData : Bool)
    (h : seg.len = 0 ∨ ReceiverIn b m i seg) (sflags : SendFlags) :
    (i.shift d).store bIgnoreData (seg.shift c d) sflags =
      { i.store bIgnoreData seg sflags with
        inc := (i.store bIgnoreData seg sflags).inc.shift d } := by
  have heq : (seg.shift c d).seq = (i.shift d).rcvNxt ↔ seg.seq = i.rcvNxt := add_left_inj d
  by_cases h0 : seg.len = 0
  · unfold store
    rw [if_pos h0, if_pos (show (seg.shift c d).len = 0 from h0)]
  have h0' : (seg.shift c d).len ≠ 0 := h0
  have hin := h.resolve_left h0
  cases bIgnoreData with
  | true =>
    unfold store
    rw [if_neg h0, if_neg h0']
    simp only [if_true]
    by_cases hs : seg.seq = i.rcvNxt
    · rw [if_pos hs, if_pos (heq.mpr hs)]
      simp only [shift, Segment.shift]
      rw [add_right_comm]
    · rw [if_neg hs, if_neg (mt heq.mp hs)]
  | false =>
    rw [store_written h0, store_written h0', written_shift]
    by_cases hs : seg.seq = i.rcvNxt
    · have hnext : Among b m ((i.written seg).commit seg.len).rcvNxt := by
        show Among b m (i.rcvNxt + seg.len)
        rw [← hs]
        exact EntryIn.among (r := ⟨seg.seq, seg.len⟩) hu ⟨hin.start, hin.stop⟩
      have hd := drain_shift hu i.rlist ((i.written seg).commit seg.len) hin.entries hnext
      rw [if_pos hs, if_pos (heq.mpr hs)]
      simp only [show (seg.shift c d).len = seg.len from rfl,
        show (i.shift d).rlist = i.rlist.map (RSegment.shift d) from rfl, commit_shift, hd]
    · have hins := insertRSegment_shift (r := ⟨seg.seq, seg.len⟩) hu hin.start i.rlist hin.entries
      rw [if_neg hs, if_neg (mt heq.mp hs)]
      show Receipt.mk { (i.written seg).shift d with
        rlist := insertRSegment (RSegment.shift d ⟨seg.seq, seg.len⟩)
          (i.rlist.map (RSegment.shift d)) } _ _ = _
      rw [hins]
      rfl

/-- **Storing a segment commutes with the translation** where nothing wraps. -/
theorem receive_shift (hu : Unbroken d b m) (h : ReceiverIn b m i seg)
    (bIgnoreData : Bool) (sflags : SendFlags) :
    (i.shift d).receive bIgnoreData (seg.shift c d) sflags =
      { i.receive bIgnoreData seg sflags with
        inc := (i.receive bIgnoreData seg sflags).inc.shift d } := by
  unfold receive
  rw [trimOld_shift hu h, trimNew_shift]
  exact store_shift hu bIgnoreData (h.trim hu) sflags

end Incoming

/-! ## The segment list and the send buffer -/

namespace Outgoing

theorem cut_shift (o : Outgoing) (i : Nat) (n : U32) :
    (o.shift c d).cut i n = (o.cut i n).shift c d := by
  unfold cut
  rw [show (o.shift c d).slist = o.slist.map (SSegment.shift c) from rfl, List.getElem?_map]
  cases o.slist[i]? with
  | none => rfl
  | some seg =>
    simp only [Option.map_some]
    by_cases h : seg.len > n
    · rw [if_pos h, if_pos (show (seg.shift c).len > n from h)]
      simp only [shift, splice_map, List.map_cons, List.map_nil, SSegment.shift]
      rw [add_right_comm]
    · rw [if_neg h, if_neg (show ¬ (seg.shift c).len > n from h)]

theorem transmitted_shift (o : Outgoing) (i : Nat) (seg : SSegment) (n now : U32) :
    (o.shift c d).transmitted i (seg.shift c) n now = (o.transmitted i seg n now).shift c d := by
  have hseq : seg.seq + c + n = seg.seq + n + c := add_right_comm _ _ _
  have hnxt : ∀ k : U32, o.sndNxt + c + k = o.sndNxt + k + c := fun k => add_right_comm _ _ _
  simp only [transmitted, shift, splice_map, SSegment.shift, hseq, hnxt]
  by_cases h : n < seg.len
  · by_cases hx : seg.xmit = 0
    · simp only [h, hx, if_true, List.map_cons, List.map_nil, SSegment.shift]
      rfl
    · simp only [h, hx, if_true, if_false, List.map_cons, List.map_nil, SSegment.shift]
      rfl
  · by_cases hx : seg.xmit = 0
    · simp only [h, hx, if_true, if_false, List.map_cons, List.map_nil, SSegment.shift]
      rfl
    · simp only [h, hx, if_false, List.map_cons, List.map_nil, SSegment.shift]
      rfl

theorem pushSegment_shift (l : List SSegment) (fresh : SSegment) :
    pushSegment (l.map (SSegment.shift c)) (fresh.shift c) =
      (pushSegment l fresh).map (SSegment.shift c) := by
  unfold pushSegment
  rw [List.getLast?_map]
  cases l.getLast? with
  | none => simp
  | some last =>
    simp only [Option.map_some]
    by_cases h : last.bCtrl = fresh.bCtrl ∧ last.xmit = 0
    · rw [if_pos h, if_pos (show (last.shift c).bCtrl = (fresh.shift c).bCtrl ∧
        (last.shift c).xmit = 0 from h)]
      simp [SSegment.shift]
    · rw [if_neg h, if_neg (show ¬ ((last.shift c).bCtrl = (fresh.shift c).bCtrl ∧
        (last.shift c).xmit = 0) from h)]
      simp

theorem queue_shift (o : Outgoing) (data : Nat → U8) (len : U32) (bCtrl : Bool) :
    ((o.shift c d).queue data len bCtrl).1 = (o.queue data len bCtrl).1.shift c d := by
  have hpush := pushSegment_shift (c := c) o.slist
    ⟨o.sndUna + BitVec.ofNat 32 o.sbuf.dataLength, o.clip len, 0, bCtrl⟩
  have hseq : (o.shift c d).sndUna + BitVec.ofNat 32 o.sbuf.dataLength =
      o.sndUna + BitVec.ofNat 32 o.sbuf.dataLength + c := add_right_comm _ _ _
  unfold queue
  simp only [show (o.shift c d).sbuf = o.sbuf from rfl,
    show (o.shift c d).clip len = o.clip len from rfl, hseq]
  simp only [shift, ← hpush]
  rfl

theorem greeted_shift (o : Outgoing) (buf : List U8) :
    (o.shift c d).greeted buf = (o.greeted buf).shift c d :=
  queue_shift { o with sndWnd := BitVec.ofNat 32 buf.length } _ _ true

theorem freeAcked_shift : ∀ (l : List SSegment) (nFree largest : U32),
    freeAcked (l.map (SSegment.shift c)) nFree largest =
      ((freeAcked l nFree largest).1.map (SSegment.shift c), (freeAcked l nFree largest).2)
  | [], _, _ => rfl
  | seg :: rest, nFree, largest => by
    rw [List.map_cons]
    unfold freeAcked
    by_cases h0 : nFree = 0
    · rw [if_pos h0, if_pos h0]
      rfl
    rw [if_neg h0, if_neg h0]
    by_cases h1 : nFree < seg.len
    · rw [if_pos h1, if_pos (show nFree < (seg.shift c).len from h1)]
      rfl
    · rw [if_neg h1, if_neg (show ¬ nFree < (seg.shift c).len from h1)]
      exact freeAcked_shift rest _ _

theorem acked_shift (o : Outgoing) (ack wnd now : U32) :
    (o.shift c d).acked (ack + c) wnd now = (o.acked ack wnd now).shift c d := by
  have hdiff : ack + c - (o.shift c d).sndUna = ack - o.sndUna := add_sub_add_right_eq_sub _ _ _
  have heq : ack + c = (o.shift c d).sndNxt ↔ ack = o.sndNxt := add_left_inj c
  have hif : (if ack + c = (o.shift c d).sndNxt then 0 else now) =
      if ack = o.sndNxt then 0 else now := if_congr heq rfl rfl
  unfold acked releaseAcked
  rw [hdiff, hif]
  simp only [Outgoing.assert, shift, freeAcked_shift]
  rfl

end Outgoing

/-! ## The send path -/

namespace PseudoTcp

variable (env : Env) {s : PseudoTcp}

/-- Translate the state a function returns with its result. -/
def shiftFst {α : Type} (c d : U32) (q : PseudoTcp × α) : PseudoTcp × α := (q.1.shift c d, q.2)

theorem packet_shift (s : PseudoTcp) (seq : U32) (flags : U8) (offset len : U32) :
    (s.shift c d).packet env (seq + c) flags offset len =
      shiftFst c d (s.packet env seq flags offset len) := by
  unfold packet
  simp only
  rw [apply_ite (shiftFst c d)]
  rfl

theorem packetFor_shift (s : PseudoTcp) (seg : SSegment) (n : U32) :
    (s.shift c d).packetFor env (seg.shift c) n = shiftFst c d (s.packetFor env seg n) := by
  have hoff : (seg.shift c).seq - (s.shift c d).sndUna = seg.seq - s.sndUna :=
    add_sub_add_right_eq_sub _ _ _
  unfold packetFor
  rw [hoff]
  exact packet_shift env s seg.seq _ _ n

/-- `transmit` at the next lower level of `PACKET_MAXIMUMS`. -/
def lowered (s : PseudoTcp) (mss : U32) : PseudoTcp :=
  { s with mss := mss, msslevel := s.msslevel + 1, cwnd := 2 * mss }

theorem transmitLower_shift (seg : SSegment) : ∀ (levels : List U16) (s : PseudoTcp) (n : U32),
    transmitLower env (seg.shift c) levels (s.shift c d) n =
      shiftFst c d (transmitLower env seg levels s n)
  | [], _, _ => rfl
  | m :: rest, s, n => by
    unfold transmitLower
    by_cases h0 : m = 0
    · rw [if_pos h0, if_pos h0]
      rfl
    rw [if_neg h0, if_neg h0]
    simp only
    split
    · have hp := packetFor_shift env (c := c) (d := d)
        (s.lowered (m.setWidth 32 - packetOverhead)) seg (m.setWidth 32 - packetOverhead)
      unfold lowered at hp
      generalize PseudoTcp.packetFor env _ seg _ = q at hp ⊢
      obtain ⟨s₁, w⟩ := q
      have hp' : PseudoTcp.packetFor env
        { s.shift c d with
          mss := m.setWidth 32 - packetOverhead
          msslevel := (s.shift c d).msslevel + 1
          cwnd := 2 * (m.setWidth 32 - packetOverhead) } (seg.shift c)
        (m.setWidth 32 - packetOverhead) = (s₁.shift c d, w) := hp
      rw [hp']
      cases w with
      | success => rfl
      | fail => rfl
      | tooLarge => exact transmitLower_shift seg rest s₁ _
    · exact transmitLower_shift seg rest (s.lowered _) n

theorem transmitPacket_shift (s : PseudoTcp) (seg : SSegment) :
    (s.shift c d).transmitPacket env (seg.shift c) = shiftFst c d (s.transmitPacket env seg) := by
  have hp := packetFor_shift env (c := c) (d := d) s seg (umin seg.len s.mss)
  unfold transmitPacket
  simp only [show (seg.shift c).len = seg.len from rfl,
    show (s.shift c d).mss = s.mss from rfl, hp]
  generalize s.packetFor env seg (umin seg.len s.mss) = q
  obtain ⟨s₁, w⟩ := q
  cases w with
  | success => rfl
  | fail => rfl
  | tooLarge => exact transmitLower_shift env seg _ s₁ _

theorem transmit_shift (s : PseudoTcp) (i : Nat) (now : U32) :
    (s.shift c d).transmit env i now = shiftFst c d (s.transmit env i now) := by
  unfold transmit
  rw [show (s.shift c d).slist = s.slist.map (SSegment.shift c) from rfl, List.getElem?_map]
  cases s.slist[i]? with
  | none => rfl
  | some seg =>
    simp only [Option.map_some, show (seg.shift c).xmit = seg.xmit from rfl,
      show (s.shift c d).state = s.state from rfl, transmitPacket_shift]
    generalize (if s.state = .established then (15 : U8) else 30) = lim
    by_cases h : seg.xmit ≥ lim
    · rw [if_pos h, if_pos h]
      rfl
    · rw [if_neg h, if_neg h]
      generalize s.transmitPacket env seg = q
      obtain ⟨s₁, n⟩ := q
      cases n with
      | none => rfl
      | some n =>
        simp only [shiftFst, shift, Outgoing.transmitted_shift]

theorem retransmit_shift (s : PseudoTcp) (now : U32) :
    (s.shift c d).retransmit env now = shiftFst c d (s.retransmit env now) := by
  unfold retransmit
  rw [show (s.shift c d).slist = s.slist.map (SSegment.shift c) from rfl]
  cases s.slist with
  | nil => rfl
  | cons front rest => exact transmit_shift env (s.note (.retransmit front.xmit)) 0 now

theorem sendQuota_shift (s : PseudoTcp) : (s.shift c d).sendQuota = s.sendQuota := by
  have hdiff : (s.shift c d).sndNxt - (s.shift c d).sndUna = s.sndNxt - s.sndUna :=
    add_sub_add_right_eq_sub _ _ _
  unfold sendQuota
  rw [hdiff]
  rfl

theorem sendAck_shift (s : PseudoTcp) (sflags : SendFlags) :
    (s.shift c d).sendAck env sflags = (s.sendAck env sflags).shift c d := by
  unfold sendAck
  by_cases h0 : sflags = .none
  · rw [if_pos h0, if_pos h0]
  rw [if_neg h0, if_neg h0]
  by_cases h1 : sflags = .immediateAck ∨ s.tAck ≠ 0
  · rw [if_pos h1, if_pos (show sflags = .immediateAck ∨ (s.shift c d).tAck ≠ 0 from h1)]
    exact congrArg Prod.fst (packet_shift env s s.sndNxt 0 0 0)
  · rw [if_neg h1, if_neg (show ¬ (sflags = .immediateAck ∨ (s.shift c d).tAck ≠ 0) from h1)]
    rfl

theorem backlog_shift (l : List SSegment) : backlog (l.map (SSegment.shift c)) = backlog l := by
  unfold backlog
  rw [List.map_map]
  rfl

/-! ## How far `m_snd_nxt` can get -/

/-- The bytes of the entries that have not been transmitted. -/
def unsent (l : List SSegment) : Nat := bytes l - sentBytes l

/-- The numbers of the sender lie in the stretch, up to the last byte it may send. -/
structure SenderIn (a : U32) (n : Nat) (o : Outgoing) : Prop where
  una : Among a n o.sndUna
  nxt : a.toNat ≤ o.sndNxt.toNat
  room : o.sndNxt.toNat + unsent o.slist ≤ a.toNat + n

variable {a : U32} {n : Nat}

variable {o : Outgoing}

theorem SenderIn.among (h : SenderIn a n o) : Among a n o.sndNxt := by
  have := h.room
  exact ⟨h.nxt, by omega⟩

variable {l₁ l₂ : List SSegment}

theorem SenderIn.cut (h : SenderIn a n o)
    {seg : SSegment} (hl : o.slist = l₁ ++ seg :: l₂) (hx : seg.xmit = 0) (k : U32) :
    SenderIn a n (o.cut l₁.length k) := by
  have hroom := h.room
  rw [cut_eq hl]
  split
  · refine ⟨h.una, h.nxt, ?_⟩
    have hs := sentBytes_le_bytes l₁
    have hs' := sentBytes_le_bytes l₂
    rw [hl] at hroom
    simp only [unsent, bytes_append, bytes_cons, sentBytes_append, sentBytes_cons, bytes_nil,
      sentBytes_nil, hx, if_true] at hroom ⊢
    bv_omega
  · exact h

theorem SenderIn.transmitted (h : SenderIn a n o) (hw : a.toNat + n < 2 ^ 32)
    {seg : SSegment} (hl : o.slist = l₁ ++ seg :: l₂)
    (hx : seg.xmit < 30) {k : U32} (hk : k ≤ seg.len) (now : U32) :
    SenderIn a n (o.transmitted l₁.length seg k now) := by
  have hroom := h.room
  have hnxt := h.nxt
  have hs := sentBytes_le_bytes l₁
  have hs' := sentBytes_le_bytes l₂
  have hx' : seg.xmit + 1 ≠ 0 := by bv_omega
  rw [hl] at hroom
  rw [transmitted_eq hl hk]
  by_cases h0 : seg.xmit = 0
  · simp only [unsent, bytes_append, bytes_cons, sentBytes_append, sentBytes_cons, h0,
      if_true] at hroom
    have hsum : (o.sndNxt + k).toNat = o.sndNxt.toNat + k.toNat := by bv_omega
    refine ⟨h.una, ?_, ?_⟩
    · simp only [if_pos h0, hsum]
      omega
    · simp only [if_pos h0, hsum]
      split <;>
        simp only [unsent, bytes_append, bytes_cons, sentBytes_append, sentBytes_cons, bytes_nil,
          sentBytes_nil, if_pos h0, if_neg hx'] <;>
        bv_omega
  · refine ⟨h.una, by simp only [if_neg h0]; exact h.nxt, ?_⟩
    simp only [unsent, bytes_append, bytes_cons, sentBytes_append, sentBytes_cons,
      if_neg h0] at hroom
    simp only [if_neg h0]
    split <;>
      simp only [unsent, bytes_append, bytes_cons, sentBytes_append, sentBytes_cons, bytes_nil,
        sentBytes_nil, if_neg h0, if_neg hx'] <;>
      bv_omega

theorem SenderIn.transmit (h : SenderIn a n s.toOutgoing) (hw : a.toNat + n < 2 ^ 32) (i : Nat)
    (now : U32) : SenderIn a n (s.transmit env i now).1.toOutgoing := by
  unfold PseudoTcp.transmit
  cases hi : s.slist[i]? with
  | none => exact ⟨h.una, h.nxt, h.room⟩
  | some seg =>
    obtain ⟨l₁, l₂, hl, rfl⟩ := exists_append_of_getElem? hi
    have hm : seg ∈ s.slist := by simp [hl]
    simp only
    by_cases hx : seg.xmit ≥ (if s.state = .established then 15 else 30)
    · rw [if_pos hx]
      exact h
    rw [if_neg hx]
    have hx30 : seg.xmit < 30 := by
      split at hx <;> bv_omega
    have hv : Serves anyRely env s := ⟨trivial, fun _ => trivial⟩
    rcases transmitPacket_cases hv hm with ⟨k, hk, -, htr⟩ | ⟨hk, htried⟩
    · generalize s.transmitPacket env seg = q at hk htr ⊢
      obtain ⟨s₂, m⟩ := q
      obtain rfl := hk
      obtain ⟨L, W, p, w, -, hout, -, hcarry⟩ := htr.out
      simp only at hout ⊢
      rw [hout]
      exact SenderIn.transmitted (o := { s.toOutgoing with log := L, written := ⟨p, w⟩ :: W })
        ⟨h.una, h.nxt, h.room⟩ hw hl hx30 hcarry.le now
    · generalize s.transmitPacket env seg = q at hk htried ⊢
      obtain ⟨s₂, m⟩ := q
      obtain rfl := hk
      obtain ⟨L, W, hout⟩ := htried.lists
      simp only at hout ⊢
      rw [hout]
      exact ⟨h.una, h.nxt, h.room⟩

theorem SenderIn.retransmit (h : SenderIn a n s.toOutgoing) (hw : a.toNat + n < 2 ^ 32)
    (now : U32) : SenderIn a n (s.retransmit env now).1.toOutgoing := by
  unfold PseudoTcp.retransmit
  cases s.slist with
  | nil => exact ⟨h.una, h.nxt, h.room⟩
  | cons front rest =>
    exact SenderIn.transmit env (s := s.note (.retransmit front.xmit)) ⟨h.una, h.nxt, h.room⟩ hw 0
      now

/-- **`attemptSend` commutes with the translation** where nothing wraps: Nagle's check is its only
comparison of sequence numbers. -/
theorem attemptSendLoop_shift (hu : Unbroken c a n) (now : U32) : ∀ (fuel : Nat) (s : PseudoTcp)
    (sflags : SendFlags), SenderIn a n s.toOutgoing →
    attemptSendLoop env now fuel (s.shift c d) sflags =
      (attemptSendLoop env now fuel s sflags).shift c d
  | 0, _, _, _ => rfl
  | fuel + 1, s, sflags, hin => by
    have hlt : (s.shift c d).sndNxt > (s.shift c d).sndUna ↔ s.sndNxt > s.sndUna :=
      hu.lt_iff hin.una hin.among
    unfold attemptSendLoop
    rw [sendQuota_shift]
    simp only
    by_cases h0 : s.sendQuota = 0
    · rw [if_pos h0, if_pos h0]
      exact sendAck_shift env s sflags
    rw [if_neg h0, if_neg h0]
    have hnagle : (s.shift c d).useNagling ∧ (s.shift c d).sndNxt > (s.shift c d).sndUna ∧
        s.sendQuota < (s.shift c d).mss ↔
        s.useNagling ∧ s.sndNxt > s.sndUna ∧ s.sendQuota < s.mss := by
      rw [hlt]
      rfl
    by_cases h1 : s.useNagling ∧ s.sndNxt > s.sndUna ∧ s.sendQuota < s.mss
    · rw [if_pos h1, if_pos (hnagle.mpr h1)]
    rw [if_neg h1, if_neg (mt hnagle.mp h1)]
    have hfind : (s.shift c d).slist.findIdx? (fun seg => seg.xmit = 0) =
        s.slist.findIdx? (fun seg => seg.xmit = 0) := by
      rw [show (s.shift c d).slist = s.slist.map (SSegment.shift c) from rfl, List.findIdx?_map]
      rfl
    rw [hfind]
    cases hi : s.slist.findIdx? (fun seg => seg.xmit = 0) with
    | none => rfl
    | some i =>
      obtain ⟨l₁, seg, l₂, hl, rfl, hx, -⟩ := exists_append_of_findIdx? hi
      have hin' : SenderIn a n ({ s with
          toOutgoing := s.toOutgoing.cut l₁.length s.sendQuota } : PseudoTcp).toOutgoing :=
        hin.cut hl (by simpa using hx) s.sendQuota
      have htr := transmit_shift env (c := c) (d := d)
        { s with toOutgoing := s.toOutgoing.cut l₁.length s.sendQuota } l₁.length now
      have hin'' := SenderIn.transmit env hin' hu.before l₁.length now
      have hcut : ({ s.shift c d with
          toOutgoing := (s.shift c d).toOutgoing.cut l₁.length s.sendQuota } : PseudoTcp) =
          ({ s with
            toOutgoing := s.toOutgoing.cut l₁.length s.sendQuota } : PseudoTcp).shift c d := by
        simp only [shift, Outgoing.cut_shift]
      simp only
      rw [hcut, htr]
      generalize ({ s with toOutgoing := s.toOutgoing.cut l₁.length s.sendQuota }).transmit env
        l₁.length now = q at hin'' ⊢
      obtain ⟨s₁, ok⟩ := q
      cases ok with
      | false => rfl
      | true => exact attemptSendLoop_shift hu now fuel s₁ .none hin''

theorem attemptSend_shift (hu : Unbroken c a n) (hin : SenderIn a n s.toOutgoing)
    (sflags : SendFlags) :
    (s.shift c d).attemptSend env sflags = (s.attemptSend env sflags).shift c d := by
  unfold attemptSend
  simp only [show (s.shift c d).slist = s.slist.map (SSegment.shift c) from rfl, backlog_shift]
  exact attemptSendLoop_shift env hu _ _ { s with
    ticks := s.ticks + 1
    cwnd := if timeDiff (env.now s.ticks) s.lastsend > s.rxRto.toNat then s.mss else s.cwnd }
    sflags ⟨hin.una, hin.nxt, hin.room⟩

/-! ## The stages of `process` -/

theorem parseOptionsLoop_shift : ∀ (fuel : Nat) (s : PseudoTcp) (buf seen : List U8),
    parseOptionsLoop fuel (s.shift c d) buf seen = shiftFst c d (parseOptionsLoop fuel s buf seen)
  | 0, _, _, _ => rfl
  | _ + 1, _, [], _ => rfl
  | fuel + 1, s, kind :: buf, seen => by
    have happ : ∀ data, (s.shift c d).applyOption kind data =
        (s.applyOption kind data).shift c d := by
      intro data
      unfold applyOption
      split
      · split <;> rfl
      · rfl
    unfold parseOptionsLoop
    split
    · rfl
    split
    · exact parseOptionsLoop_shift fuel s buf seen
    simp only [happ]
    split
    · exact parseOptionsLoop_shift fuel _ _ _
    · rfl

theorem parseOptions_shift (s : PseudoTcp) (data : List U8) :
    (s.shift c d).parseOptions env data = (s.parseOptions env data).shift c d := by
  unfold parseOptions
  rw [parseOptionsLoop_shift]
  generalize parseOptionsLoop data.length s data [] = q
  obtain ⟨s₁, seen⟩ := q
  cases seen with
  | none => rfl
  | some seen =>
    simp only [shiftFst, show (s₁.shift c d).rwndScale = s₁.rwndScale from rfl]
    split
    · rfl
    · rfl

theorem processControl_shift (s : PseudoTcp) (seg : Segment) :
    (s.shift c d).processControl env (seg.shift c d) =
      shiftFst c d (s.processControl env seg) := by
  unfold processControl
  simp only [show (seg.shift c d).flags = seg.flags from rfl,
    show (seg.shift c d).len = seg.len from rfl, show (seg.shift c d).data = seg.data from rfl,
    parseOptions_shift]
  split
  · rfl
  split
  · rfl
  split
  · generalize s.parseOptions env (fetch (fun k => seg.data (1 + k)) (seg.len - 1).toNat) = s₁
    simp only [show (s₁.shift c d).state = s₁.state from rfl]
    split
    · simp only [shiftFst, queueConnectMessage]
      have hg := Outgoing.greeted_shift (c := c) (d := d) s₁.toOutgoing s₁.connectMessage
      show (({ s₁.shift c d with
        state := .synReceived
        toOutgoing := (s₁.toOutgoing.shift c d).greeted s₁.connectMessage } : PseudoTcp), _) = _
      rw [hg]
      rfl
    split
    · rfl
    · rfl
  · rfl

variable {seg : Segment}

/-- The timestamp update compares with `m_ts_lastack`. -/
theorem updateTimestamp_shift {b : U32} {m : Nat} (hu : Unbroken d b m)
    (hr : Incoming.ReceiverIn b m s.toIncoming seg) (ht : Among b m s.tsLastack) :
    (s.shift c d).updateTimestamp (seg.shift c d) = (s.updateTimestamp seg).shift c d := by
  have hend : (seg.shift c d).seq + (seg.shift c d).len = seg.seq + seg.len + d :=
    add_right_comm _ _ _
  have h1 : (seg.shift c d).seq ≤ (s.shift c d).tsLastack ↔ seg.seq ≤ s.tsLastack :=
    hu.le_iff hr.start ht
  have h2 : (s.shift c d).tsLastack < (seg.shift c d).seq + (seg.shift c d).len ↔
      s.tsLastack < seg.seq + seg.len := by
    rw [hend]
    exact hu.lt_iff ht (Incoming.EntryIn.among (r := ⟨seg.seq, seg.len⟩) hu ⟨hr.start, hr.stop⟩)
  unfold updateTimestamp
  by_cases h : seg.seq ≤ s.tsLastack ∧ s.tsLastack < seg.seq + seg.len
  · rw [if_pos h, if_pos ⟨h1.mpr h.1, h2.mpr h.2⟩]
    rfl
  · rw [if_neg h, if_neg fun h' => h ⟨h1.mp h'.1, h2.mp h'.2⟩]

theorem updateRtt_shift (s : PseudoTcp) (now : U32) (seg : Segment) :
    (s.shift c d).updateRtt now (seg.shift c d) = (s.updateRtt now seg).shift c d := by
  unfold updateRtt
  simp only [show (seg.shift c d).tsecr = seg.tsecr from rfl]
  split
  · rfl
  split
  · rfl
  · rfl

theorem unsent_freeAcked : ∀ (l : List SSegment) (nFree largest : U32),
    unsent (freeAcked l nFree largest).1 ≤ unsent l
  | [], _, _ => le_refl _
  | seg :: rest, nFree, largest => by
    have ih := unsent_freeAcked rest (nFree - seg.len)
      (if seg.len > largest then seg.len else largest)
    have hs := sentBytes_le_bytes rest
    unfold freeAcked
    split
    · exact le_refl _
    split
    · simp only [unsent, bytes_cons, sentBytes_cons]
      split <;> bv_omega
    · refine ih.trans ?_
      simp only [unsent, bytes_cons, sentBytes_cons]
      split <;> omega

theorem SenderIn.acked (h : SenderIn a n o) {ack : U32} (ha : Among a n ack)
    (wnd now : U32) : SenderIn a n (o.acked ack wnd now) := by
  have hle := unsent_freeAcked o.slist (ack - o.sndUna) o.largest
  have hroom := h.room
  refine ⟨ha, h.nxt, ?_⟩
  show o.sndNxt.toNat + unsent (freeAcked o.slist (ack - o.sndUna) o.largest).1 ≤ _
  omega

/-- The end of fast recovery compares with `m_recover`. -/
theorem congestionAck_shift (hu : Unbroken c a n) (hin : SenderIn a n s.toOutgoing)
    (hrec : s.dupAcks ≥ 3 → Among a n s.recover) (now nAcked : U32) :
    (s.shift c d).congestionAck env now nAcked =
        shiftFst c d (s.congestionAck env now nAcked) ∧
      SenderIn a n (s.congestionAck env now nAcked).1.toOutgoing := by
  have hdiff : (s.shift c d).sndNxt - (s.shift c d).sndUna = s.sndNxt - s.sndUna :=
    add_sub_add_right_eq_sub _ _ _
  unfold congestionAck
  simp only [show (s.shift c d).dupAcks = s.dupAcks from rfl, hdiff, retransmit_shift]
  by_cases h3 : s.dupAcks ≥ 3
  · have hge : (s.shift c d).sndUna ≥ (s.shift c d).recover ↔ s.sndUna ≥ s.recover :=
      hu.le_iff (hrec h3) hin.una
    rw [if_pos h3, if_pos h3]
    by_cases hr : s.sndUna ≥ s.recover
    · rw [if_pos hr, if_pos (hge.mpr hr)]
      exact ⟨rfl, hin⟩
    · rw [if_neg hr, if_neg (mt hge.mp hr)]
      have hin' := hin.retransmit env hu.before now
      generalize s.retransmit env now = q at hin' ⊢
      obtain ⟨s₁, ok⟩ := q
      cases ok with
      | false => exact ⟨rfl, hin'.una, hin'.nxt, hin'.room⟩
      | true => exact ⟨rfl, hin'⟩
  · rw [if_neg h3, if_neg h3]
    exact ⟨rfl, hin⟩

theorem processNewAck_shift (hu : Unbroken c a n) (hin : SenderIn a n s.toOutgoing)
    (hrec : s.dupAcks ≥ 3 → Among a n s.recover) (ha : Among a n seg.ack) (now : U32) :
    (s.shift c d).processNewAck env now (seg.shift c d) =
        shiftFst c d (s.processNewAck env now seg) ∧
      SenderIn a n (s.processNewAck env now seg).1.toOutgoing := by
  obtain ⟨hrtt, L, hL⟩ := updateRtt_sends (r := anyRely) (s := s) now seg
  have hin₁ : SenderIn a n (s.updateRtt now seg).toOutgoing := by
    rw [hL]
    exact ⟨hin.una, hin.nxt, hin.room⟩
  have hrec₁ : (s.updateRtt now seg).dupAcks ≥ 3 → Among a n (s.updateRtt now seg).recover := by
    rw [hrtt.recover, hrtt.dupAcks]
    exact hrec
  unfold processNewAck
  rw [updateRtt_shift]
  generalize s.updateRtt now seg = s₁ at hin₁ hrec₁ ⊢
  have hdiff : (seg.shift c d).ack - (s₁.shift c d).sndUna = seg.ack - s₁.sndUna :=
    add_sub_add_right_eq_sub _ _ _
  have hacked : (s₁.shift c d).toOutgoing.acked (seg.shift c d).ack
      ((s₁.shift c d).scaledWnd (seg.shift c d)) now =
      (s₁.toOutgoing.acked seg.ack (s₁.scaledWnd seg) now).shift c d :=
    Outgoing.acked_shift _ _ _ _
  simp only [hdiff, hacked]
  exact congestionAck_shift env
    (s := { s₁ with toOutgoing := s₁.toOutgoing.acked seg.ack (s₁.scaledWnd seg) now }) hu
    (hin₁.acked ha _ now) hrec₁ now _

theorem countDupAck_shift (hw : a.toNat + n < 2 ^ 32) (hin : SenderIn a n s.toOutgoing)
    (now : U32) :
    (s.shift c d).countDupAck env now = shiftFst c d (s.countDupAck env now) ∧
      SenderIn a n (s.countDupAck env now).1.toOutgoing := by
  unfold countDupAck
  simp only [show (s.shift c d).dupAcks = s.dupAcks from rfl]
  by_cases h3 : s.dupAcks + 1 = 3
  · rw [if_pos h3, if_pos h3]
    have hre := retransmit_shift env (c := c) (d := d) { s with dupAcks := s.dupAcks + 1 } now
    have hin' := SenderIn.retransmit env (s := { s with dupAcks := s.dupAcks + 1 }) hin hw now
    generalize ({ s with dupAcks := s.dupAcks + 1 }).retransmit env now = q at hre hin' ⊢
    obtain ⟨s₁, ok⟩ := q
    have hre' : ({ s.shift c d with dupAcks := s.dupAcks + 1 } : PseudoTcp).retransmit env now =
      (s₁.shift c d, ok) := hre
    have hdiff : (s₁.shift c d).sndNxt - (s₁.shift c d).sndUna = s₁.sndNxt - s₁.sndUna :=
      add_sub_add_right_eq_sub _ _ _
    rw [hre']
    cases ok with
    | false => exact ⟨rfl, hin'.una, hin'.nxt, hin'.room⟩
    | true =>
      refine ⟨?_, hin'⟩
      simp only [hdiff]
      rfl
  · rw [if_neg h3, if_neg h3]
    split
    · exact ⟨rfl, hin⟩
    · exact ⟨rfl, hin⟩

theorem processDupAck_shift (hw : a.toNat + n < 2 ^ 32) (hin : SenderIn a n s.toOutgoing)
    (now : U32) (seg : Segment) :
    (s.shift c d).processDupAck env now (seg.shift c d) =
        shiftFst c d (s.processDupAck env now seg) ∧
      SenderIn a n (s.processDupAck env now seg).1.toOutgoing := by
  have hne : (s.shift c d).sndUna ≠ (s.shift c d).sndNxt ↔ s.sndUna ≠ s.sndNxt :=
    not_congr (add_left_inj c)
  have hin₁ : SenderIn a n ({ s with sndWnd := s.scaledWnd seg } : PseudoTcp).toOutgoing :=
    ⟨hin.una, hin.nxt, hin.room⟩
  unfold processDupAck
  simp only [show (seg.shift c d).len = seg.len from rfl]
  by_cases h0 : seg.len > 0
  · rw [if_pos h0, if_pos h0]
    exact ⟨rfl, hin₁⟩
  rw [if_neg h0, if_neg h0]
  by_cases h1 : s.sndUna ≠ s.sndNxt
  · rw [if_pos h1, if_pos (hne.mpr h1)]
    exact countDupAck_shift env (s := { s with sndWnd := s.scaledWnd seg }) hw hin₁ now
  · rw [if_neg h1, if_neg (mt hne.mp h1)]
    exact ⟨rfl, hin₁⟩

/-- The acknowledgement compares with `m_snd_una` and `m_snd_nxt`. -/
theorem processAck_shift (hu : Unbroken c a n) (hin : SenderIn a n s.toOutgoing)
    (hrec : s.dupAcks ≥ 3 → Among a n s.recover) (ha : Among a n seg.ack) (now : U32) :
    (s.shift c d).processAck env now (seg.shift c d) =
        shiftFst c d (s.processAck env now seg) ∧
      SenderIn a n (s.processAck env now seg).1.toOutgoing := by
  have h1 : (seg.shift c d).ack > (s.shift c d).sndUna ↔ seg.ack > s.sndUna :=
    hu.lt_iff hin.una ha
  have h2 : (seg.shift c d).ack ≤ (s.shift c d).sndNxt ↔ seg.ack ≤ s.sndNxt :=
    hu.le_iff ha hin.among
  have h3 : (seg.shift c d).ack = (s.shift c d).sndUna ↔ seg.ack = s.sndUna := add_left_inj c
  unfold processAck
  by_cases hnew : seg.ack > s.sndUna ∧ seg.ack ≤ s.sndNxt
  · rw [if_pos hnew, if_pos ⟨h1.mpr hnew.1, h2.mpr hnew.2⟩]
    exact processNewAck_shift env hu hin hrec ha now
  rw [if_neg hnew, if_neg fun h => hnew ⟨h1.mp h.1, h2.mp h.2⟩]
  by_cases hdup : seg.ack = s.sndUna
  · rw [if_pos hdup, if_pos (h3.mpr hdup)]
    exact processDupAck_shift env hu.before hin now seg
  · rw [if_neg hdup, if_neg (mt h3.mp hdup)]
    exact ⟨rfl, hin⟩

/-! ## `process` -/

/-- The numbers of this side that `process` compares lie in a stretch of sequence space that
wraps neither before nor after the translation: up to the last byte queued, and the CONNECT
message that may follow it. -/
def SenderClear (c : U32) (s : PseudoTcp) (seg : Segment) : Prop :=
  ∃ a n, Unbroken c a n ∧ Among a n s.sndUna ∧ Among a n seg.ack ∧
    (s.dupAcks ≥ 3 → Among a n s.recover) ∧ a.toNat ≤ s.sndNxt.toNat ∧
    s.sndNxt.toNat + unsent s.slist + 4 ≤ a.toNat + n

def ReceiverClear (d : U32) (s : PseudoTcp) (seg : Segment) : Prop :=
  ∃ b m, Unbroken d b m ∧ Among b m s.tsLastack ∧ Incoming.ReceiverIn b m s.toIncoming seg

theorem unsent_pushSegment (l : List SSegment) (fresh : SSegment) (hx : fresh.xmit = 0) :
    unsent (Outgoing.pushSegment l fresh) ≤ unsent l + fresh.len.toNat := by
  rcases pushSegment_cases l fresh with ⟨l₁, last, rfl, -, hlast, hp⟩ | ⟨hp, -⟩
  · have hs := sentBytes_le_bytes l₁
    rw [hp]
    simp only [unsent, bytes_append, bytes_cons, sentBytes_append, sentBytes_cons, bytes_nil,
      sentBytes_nil, if_pos hlast]
    bv_omega
  · have hs := sentBytes_le_bytes l
    rw [hp]
    simp only [unsent, bytes_append, bytes_cons, sentBytes_append, sentBytes_cons, bytes_nil,
      sentBytes_nil, if_pos hx]
    omega

theorem controlled_senderIn (hu : Among a n s.sndUna) (hn : a.toNat ≤ s.sndNxt.toNat)
    (hroom : s.sndNxt.toNat + unsent s.slist + 4 ≤ a.toNat + n) :
    SenderIn a n (s.controlled env seg).toOutgoing := by
  have hc : Controls (s.arrive env) (s.controlled env seg) := processControl_controls env _ seg
  cases hc with
  | keeps L out state =>
    rw [out]
    exact ⟨hu, hn, by simp only [arrive]; omega⟩
  | answers L listen state out =>
    rw [out]
    refine ⟨hu, hn, ?_⟩
    have hpush := unsent_pushSegment s.slist ⟨s.sndUna +
      BitVec.ofNat 32 s.sbuf.dataLength, Outgoing.clip { s.toOutgoing with log := L }
        (BitVec.ofNat 32 (s.controlled env seg).connectMessage.length), 0, true⟩ rfl
    have hclip := clip_toNat { s.toOutgoing with log := L }
      (BitVec.ofNat 32 (s.controlled env seg).connectMessage.length)
    have hlen := (connectMessage_length (s.controlled env seg)).2
    rw [BitVec.toNat_ofNat, Nat.mod_eq_of_lt (by omega)] at hclip
    show s.sndNxt.toNat + unsent (Outgoing.pushSegment s.slist _) ≤ _
    refine le_trans (Nat.add_le_add_left hpush _) ?_
    simp only at hclip ⊢
    omega

theorem parseOptions_keeps (s : PseudoTcp) (data : List U8) :
    (s.parseOptions env data).rcvNxt = s.rcvNxt ∧ (s.parseOptions env data).rlist = s.rlist ∧
      (s.parseOptions env data).tsLastack = s.tsLastack := by
  obtain ⟨x, h⟩ | ⟨-, h⟩ := parseOptions_cases env s data
  · rw [h]
    exact ⟨rfl, rfl, rfl⟩
  · rw [h]
    exact ⟨rfl, rfl, rfl⟩

theorem controlled_keeps (s : PseudoTcp) (seg : Segment) :
    (s.controlled env seg).rcvNxt = s.rcvNxt ∧ (s.controlled env seg).rlist = s.rlist ∧
      (s.controlled env seg).tsLastack = s.tsLastack ∧
      (s.controlled env seg).dupAcks = s.dupAcks ∧ (s.controlled env seg).recover = s.recover := by
  unfold controlled processControl
  split
  · exact ⟨rfl, rfl, rfl, rfl, rfl⟩
  split
  · exact ⟨rfl, rfl, rfl, rfl, rfl⟩
  split
  · obtain ⟨h1, h2, h3⟩ := parseOptions_keeps env (s.arrive env)
      (fetch (fun k => seg.data (1 + k)) (seg.len - 1).toNat)
    obtain ⟨-, -, -, -, -, h4, h5⟩ := parseOptions_spec env (s.arrive env)
      (fetch (fun k => seg.data (1 + k)) (seg.len - 1).toNat)
    simp only
    generalize parseOptions env (s.arrive env)
      (fetch (fun k => seg.data (1 + k)) (seg.len - 1).toNat) = parsed at h1 h2 h3 h4 h5 ⊢
    split
    · exact ⟨h1, h2, h3, h4, h5⟩
    split
    · exact ⟨h1, h2, h3, h4, h5⟩
    · exact ⟨h1, h2, h3, h4, h5⟩
  · exact ⟨rfl, rfl, rfl, rfl, rfl⟩

theorem enterEstablished_shift (s : PseudoTcp) (bConnect : Bool) :
    (s.shift c d).enterEstablished bConnect = (s.enterEstablished bConnect).shift c d := by
  unfold enterEstablished
  rw [apply_ite (shift c d)]
  rfl

theorem notifyWriteable_shift (s : PseudoTcp) :
    (s.shift c d).notifyWriteable = s.notifyWriteable.shift c d := by
  unfold notifyWriteable
  simp only
  rw [apply_ite (shift c d)]
  rfl

theorem enterEstablished_senderIn (h : SenderIn a n s.toOutgoing) (bConnect : Bool) :
    SenderIn a n (s.enterEstablished bConnect).toOutgoing := by
  unfold enterEstablished
  split
  · exact ⟨h.una, h.nxt, h.room⟩
  · exact h

theorem notifyWriteable_senderIn (h : SenderIn a n s.toOutgoing) :
    SenderIn a n s.notifyWriteable.toOutgoing := by
  unfold notifyWriteable
  simp only
  split
  · exact ⟨h.una, h.nxt, h.room⟩
  · exact h

theorem notifyReadable_shift (s : PseudoTcp) (bNewData : Bool) :
    (s.shift c d).notifyReadable bNewData = (s.notifyReadable bNewData).shift c d := by
  unfold notifyReadable
  rw [apply_ite (shift c d)]
  rfl

theorem ackFlags_shift (s : PseudoTcp) (seg : Segment) :
    (s.shift c d).ackFlags (seg.shift c d) = s.ackFlags seg := by
  have hne : (seg.shift c d).seq ≠ (s.shift c d).rcvNxt ↔ seg.seq ≠ s.rcvNxt :=
    not_congr (add_left_inj d)
  unfold ackFlags
  exact if_congr hne rfl rfl

theorem processData_shift (hu : Unbroken c a n) (hin : SenderIn a n s.toOutgoing) {b : U32}
    {m : Nat} (hu' : Unbroken d b m)
    (hr : Incoming.ReceiverIn b m s.toIncoming seg) :
    (s.shift c d).processData env (seg.shift c d) = (s.processData env seg).shift c d := by
  have hrec := Incoming.receive_shift (c := c) hu' hr (s.ignoresData seg) (s.ackFlags seg)
  unfold processData
  rw [ackFlags_shift]
  simp only [show (s.shift c d).ignoresData (seg.shift c d) = s.ignoresData seg from rfl,
    show (s.shift c d).toIncoming = s.toIncoming.shift d from rfl, hrec]
  generalize s.toIncoming.receive (s.ignoresData seg) seg (s.ackFlags seg) = r
  have hsend := attemptSend_shift env (c := c) (d := d) (s := { s with toIncoming := r.inc }) hu
    ⟨hin.una, hin.nxt, hin.room⟩ r.sflags
  rw [← notifyReadable_shift, ← hsend]
  rfl

theorem processData_sndUna (s : PseudoTcp) (seg : Segment) :
    (s.processData env seg).sndUna = s.sndUna := by
  unfold processData
  simp only
  generalize s.toIncoming.receive (s.ignoresData seg) seg (s.ackFlags seg) = r
  have hs := attemptSend_sends (r := anyRely) (show Serves anyRely env
    { s with toIncoming := r.inc } from ⟨trivial, fun _ => trivial⟩) False.elim r.sflags
  exact (notifyReadable_sends (r := anyRely) r.newData).sndUna.trans hs.sndUna

theorem acknowledge_shift (hu : Unbroken c a n) (hin : SenderIn a n s.toOutgoing)
    (hrec : s.dupAcks ≥ 3 → Among a n s.recover) (hopen : s.state ≠ .closed) {b : U32} {m : Nat}
    (hu' : Unbroken d b m) (htl : Among b m s.tsLastack)
    (ha : Among a n seg.ack) (hr : Incoming.ReceiverIn b m s.toIncoming seg) (now : U32)
    (bConnect : Bool) :
    (s.shift c d).acknowledge env now bConnect (seg.shift c d) =
      shiftFst c d (s.acknowledge env now bConnect seg) := by
  have hts := updateTimestamp_sends (r := anyRely) (s := s) seg
  unfold acknowledge
  rw [updateTimestamp_shift hu' hr htl]
  have hin₁ : SenderIn a n (s.updateTimestamp seg).toOutgoing := hts.2 ▸ hin
  have hrec₁ : (s.updateTimestamp seg).dupAcks ≥ 3 →
      Among a n (s.updateTimestamp seg).recover := by
    rw [hts.1.dupAcks, hts.1.recover]
    exact hrec
  obtain ⟨hack, hin₂⟩ := processAck_shift env (d := d) hu hin₁ hrec₁ ha now
  have hinc := processAck_inc env (hts.1.state ▸ hopen) now seg
  rw [hts.1.inc] at hinc
  rw [hack]
  generalize (s.updateTimestamp seg).processAck env now seg = q at hin₂ hinc ⊢
  obtain ⟨s₂, ok⟩ := q
  cases ok with
  | false => rfl
  | true =>
    simp only [shiftFst] at hin₂ hinc ⊢
    have he := enterEstablished_moves (r := anyRely) (s := s₂) False.elim bConnect
    have hw := notifyWriteable_sends (r := anyRely) (s := s₂.enterEstablished bConnect)
    rw [enterEstablished_shift, notifyWriteable_shift]
    refine congrArg (·, true) (processData_shift env hu ?_ hu' ?_)
    · exact notifyWriteable_senderIn (enterEstablished_senderIn hin₂ bConnect)
    · rw [hw.inc, he.2.1, hinc]
      exact hr

/-- **`process` commutes with the translation** where nothing wraps. -/
theorem process_commutes (hs : SenderClear c s seg) (hr : ReceiverClear d s seg) :
    (s.shift c d).process env (seg.shift c d) = shiftFst c d (s.process env seg) := by
  obtain ⟨a, n, hu, huna, hack, hrec, hnxt, hroom⟩ := hs
  obtain ⟨b, m, hu', hts, hin⟩ := hr
  unfold process
  simp only [show (seg.shift c d).conv = seg.conv from rfl,
    show (s.shift c d).conv = s.conv from rfl, show (seg.shift c d).flags = seg.flags from rfl]
  by_cases hconv : seg.conv ≠ s.conv
  · rw [if_pos hconv, if_pos hconv]
    rfl
  rw [if_neg hconv, if_neg hconv]
  by_cases hclosed : s.state = .closed
  · rw [if_pos (show ((s.shift c d).arrive env).state = .closed from hclosed),
      if_pos (show (s.arrive env).state = .closed from hclosed)]
    rfl
  rw [if_neg (show ¬ ((s.shift c d).arrive env).state = .closed from hclosed),
    if_neg (show ¬ (s.arrive env).state = .closed from hclosed)]
  by_cases hrst : seg.flags &&& flagRst ≠ 0
  · rw [if_pos hrst, if_pos hrst]
    rfl
  rw [if_neg hrst, if_neg hrst]
  have hctl := processControl_shift env (c := c) (d := d) (s.arrive env) seg
  rw [show (s.shift c d).arrive env = (s.arrive env).shift c d from rfl, hctl]
  obtain ⟨k1, k2, k3, k4, k5⟩ := controlled_keeps env s seg
  have hctrls : Controls (s.arrive env) (s.controlled env seg) := processControl_controls env _ seg
  have hack := acknowledge_shift env (s := s.controlled env seg) hu
    (controlled_senderIn env huna hnxt hroom) (by rw [k4, k5]; exact hrec)
    (hctrls.opened hclosed) hu' (k3 ▸ hts) hack
    ⟨k1 ▸ hin.next, hin.start, hin.stop, k2 ▸ hin.entries⟩ (env.now s.ticks)
  unfold controlled at hack
  generalize (s.arrive env).processControl env seg = q at hack ⊢
  obtain ⟨s₁, bc⟩ := q
  cases bc with
  | none => rfl
  | some bConnect => exact hack bConnect

/-! ## Acknowledgements of data in flight -/

theorem congestionAck_sndUna (s : PseudoTcp) (now nAcked : U32) :
    (s.congestionAck env now nAcked).1.sndUna = s.sndUna := by
  have hre := retransmit_sends (r := anyRely) (show Serves anyRely env s from
    ⟨trivial, fun _ => trivial⟩) False.elim False.elim
    (show anyRely.clock now from trivial)
  unfold congestionAck
  split
  · split
    · rfl
    · generalize s.retransmit env now = q at hre ⊢
      obtain ⟨s₁, ok⟩ := q
      cases ok with
      | false => exact hre.sndUna
      | true => exact hre.sndUna
  · rfl

/-- An acknowledgement in `(m_snd_una, m_snd_nxt]` becomes the new `m_snd_una`. -/
theorem acknowledge_sndUna (h₁ : s.sndUna < seg.ack) (h₂ : seg.ack ≤ s.sndNxt)
    (now : U32) (bConnect : Bool) :
    (s.acknowledge env now bConnect seg).1.sndUna = seg.ack := by
  have hts := updateTimestamp_sends (r := anyRely) (s := s) seg
  have hack : ((s.updateTimestamp seg).processAck env now seg).1.sndUna = seg.ack := by
    unfold processAck
    rw [if_pos (by rw [hts.2]; exact ⟨h₁, h₂⟩)]
    unfold processNewAck
    rw [congestionAck_sndUna]
    rfl
  unfold acknowledge
  generalize (s.updateTimestamp seg).processAck env now seg = q at hack ⊢
  obtain ⟨s₂, ok⟩ := q
  cases ok with
  | false => exact hack
  | true =>
    have he : (s₂.enterEstablished bConnect).sndUna = s₂.sndUna := by
      unfold enterEstablished
      split <;> rfl
    have hw := notifyWriteable_sends (r := anyRely) (s := s₂.enterEstablished bConnect)
    have hd := processData_sndUna env ((s₂.enterEstablished bConnect).notifyWriteable) seg
    rw [hd, hw.sndUna, he]
    exact hack

/-- **`process` is invariant under translation where nothing wraps**: the same return value, the
same data delivered, the translated packets and the translated state. There an acknowledgement
that covers data in flight, from `m_snd_una` up to `m_snd_nxt`, advances `m_snd_una`. -/
theorem process_shift {seg : Segment} (hs : SenderClear c s seg) (hr : ReceiverClear d s seg) :
    (s.shift c d).process env (seg.shift c d) = shiftFst c d (s.process env seg) ∧
      (Admits s seg → s.sndUna ≤ s.sndNxt → seg.ack ≠ s.sndUna →
        seg.ack - s.sndUna ≤ s.sndNxt - s.sndUna → (s.process env seg).1.sndUna = seg.ack) := by
  refine ⟨process_commutes env hs hr, fun hadm hord hne hle => ?_⟩
  obtain ⟨a, n, hu, huna, hack, -, hnxt, hroom⟩ := hs
  obtain ⟨hu1, hu2⟩ := huna
  obtain ⟨ha1, ha2⟩ := hack
  have hb := hu.before
  obtain ⟨bConnect, he⟩ := process_admitted env hadm
  obtain ⟨k1, k2⟩ := controlled_sndNxt env s seg
  rw [he]
  refine acknowledge_sndUna env ?_ ?_ _ bConnect
  · rw [k1]
    bv_omega
  · rw [k2]
    bv_omega

/-- A segment that acknowledges the CONNECT message. -/
def ackOfConnect : Segment := ⟨1, 0, 4, 0, 1000, fun _ => 0, 0, 1, 1⟩

theorem process_shift_connecting :
    (connecting.shift 100 7).process (still 2) (ackOfConnect.shift 100 7) =
        shiftFst 100 7 (connecting.process (still 2) ackOfConnect) ∧
      (connecting.process (still 2) ackOfConnect).1.sndUna = 4 := by
  have h := @process_shift 100 7 (still 2) connecting ackOfConnect
    ⟨0, 100, ⟨by decide, by decide⟩, ⟨by decide, by decide⟩, ⟨by decide, by decide⟩,
      fun h => absurd h (by decide), by decide, by decide⟩
    ⟨0, 100, ⟨by decide, by decide⟩, ⟨by decide, by decide⟩, ⟨by decide, by decide⟩,
      ⟨by decide, by decide⟩, by decide, fun r hr => absurd hr (by simp [show connecting.rlist = []
        from rfl])⟩
  exact ⟨h.1, h.2 ⟨rfl, by decide, by decide, Or.inl (by decide)⟩ (by decide) (by decide)
    (by decide)⟩

/-- **Across `2 ^ 32` an acknowledgement of data in flight is not taken**: with the CONNECT
message at sequence numbers `2 ^ 32 - 2` to 1, the acknowledgement 2 leaves `m_snd_una` behind. -/
theorem wrapped_ack_ignored :
    ∃ (env : Env) (s : PseudoTcp) (seg : Segment) (c d : U32),
      (s.shift c d).process env (seg.shift c d) ≠ shiftFst c d (s.process env seg) ∧
      Admits (s.shift c d) (seg.shift c d) ∧
      (seg.shift c d).ack ≠ (s.shift c d).sndUna ∧
      (seg.shift c d).ack - (s.shift c d).sndUna ≤
        (s.shift c d).sndNxt - (s.shift c d).sndUna ∧
      ((s.shift c d).process env (seg.shift c d)).1.sndUna = (s.shift c d).sndUna := by
  refine ⟨still 2, connecting, ackOfConnect, BitVec.ofNat 32 (2 ^ 32 - 2), 0, fun h => ?_,
    ⟨rfl, by decide, by decide, Or.inl (by decide)⟩, by decide, by decide, by decide⟩
  have hu := congrArg (fun q => q.1.sndUna) h
  exact absurd hu (by decide)

end PseudoTcp

end Libjingle
