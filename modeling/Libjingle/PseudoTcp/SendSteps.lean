import Libjingle.PseudoTcp.Input

/-!
# What the send path can do to the outgoing data

`SendStep` says once what a step of the send path can do: note an event, write a packet that is
not a fresh piece of data, cut an unsent segment, transmit a segment, queue data, take an
acknowledgement or a window, restart the timer, resize the buffer. Every invariant of the
outgoing data is proved against these steps, and `SendPath.lean` proves that the functions of the
source make no others.

`Rely` is what a stretch of steps may count on: the headers it stamps, the clock values it sees, the
acknowledgements and windows it takes, what it queues, and whether it runs under the sender's own
accounting (`strict`), in which case no step notes a broken assertion of the sender.

The last section says what each edit of `m_slist` and `m_sbuf` does, by the list's pieces.
-/

namespace Libjingle

open Lib

/-! ## Steps -/

/-- The events that break an assertion of the sender. -/
def Event.breaks : Event → Bool
  | .retransmit xmit => xmit = 0
  | .assertFailed f =>
    f = .consumeRead ∨ f = .freeEmpty ∨ f = .noUnsent ∨ f = .transmitEnd ∨ f = .timerEmpty
  | _ => false

/-- What a stretch of steps may count on. -/
structure Rely where
  /-- The conversation, acknowledgement and window of the headers it stamps. -/
  header : U32 → U32 → U16 → Prop
  /-- The clock values it sees. -/
  clock : U32 → Prop
  /-- The acknowledgements it takes, each with its window. -/
  accepts : Outgoing → U32 → U32 → Prop
  /-- The lengths it queues behind a stream, of control messages or of data. -/
  queues : List U8 → U32 → Bool → Prop
  /-- It runs under the sender's accounting. -/
  strict : Prop

def anyRely : Rely :=
  ⟨fun _ _ _ => True, fun _ => True, fun _ _ _ => True, fun _ _ _ => True, False⟩

/-- The packet `p` carries the first `n` bytes of the segment. -/
structure Carries (o : Outgoing) (seg : SSegment) (n : U32) (p : Packet) : Prop where
  seq : p.seq = seg.seq
  flags : p.flags = if seg.bCtrl then flagCtl else 0
  payload : ∃ mem, p.payload = o.payload mem (seg.seq - o.sndUna) n
  le : n ≤ seg.len

/-- Why `attemptSend` may transmit the unsent segment `seg`: there is unsent data and the peer's
window has room for all of the segment. -/
structure Fresh (o : Outgoing) (seg : SSegment) : Prop where
  unsent : seg.xmit = 0
  room : (o.sndNxt - o.sndUna).toNat + seg.len.toNat ≤ o.sndWnd.toNat
  data : BitVec.ofNat 32 o.sbuf.dataLength - (o.sndNxt - o.sndUna) ≠ 0

inductive SendStep (r : Rely) : Outgoing → Outgoing → Prop
  | note (o : Outgoing) (e : Event) (he : r.strict → e.breaks = false) : SendStep r o (o.note e)
  /-- A packet with no payload, or one whose transmission failed. -/
  | emit (o : Outgoing) (p : Packet) (w : WriteResult) (hh : r.header p.conv p.ack p.wnd)
      (hp : p.flags = 0 ∧ p.payload = [] ∨
        w ≠ .success ∧ ∃ seg ∈ o.slist, ∃ n, Carries o seg n p) :
      SendStep r o { o with written := ⟨p, w⟩ :: o.written }
  | cut (o : Outgoing) (l₁ l₂ : List SSegment) (seg : SSegment) (n : U32)
      (hl : o.slist = l₁ ++ seg :: l₂) (hx : seg.xmit = 0) (hn : n ≠ 0) :
      SendStep r o (o.cut l₁.length n)
  | transmit (o : Outgoing) (l₁ l₂ : List SSegment) (seg : SSegment) (n now : U32) (p : Packet)
      (w : WriteResult) (hl : o.slist = l₁ ++ seg :: l₂) (hsent : ∀ e ∈ l₁, e.xmit ≠ 0)
      (hx : seg.xmit < 30) (hh : r.header p.conv p.ack p.wnd) (hp : Carries o seg n p)
      (hc : r.clock now)
      (hwhy : Fresh o seg ∧ (seg.len ≠ 0 → n ≠ 0) ∨ l₁ = [] ∧ (r.strict → o.sndUna ≠ o.sndNxt)) :
      SendStep r o
        ({ o with written := ⟨p, w⟩ :: o.written }.transmitted l₁.length seg n now)
  | queue (o : Outgoing) (data : Nat → U8) (len : U32) (bCtrl : Bool)
      (hn : r.queues o.queued len bCtrl)
      (hq : r.strict → bCtrl = true →
        o.slist = [] ∧ len ≠ 0 ∧ len.toNat ≤ o.sbuf.getWriteRemaining) :
      SendStep r o (o.queue data len bCtrl).1
  /-- The window of a connection that only has its CONNECT message to send. -/
  | greet (o : Outgoing) (w : U32) (hw : w ≤ 4) (hq : r.strict → o.slist = [] ∧ o.queued = []) :
      SendStep r o { o with sndWnd := w }
  | window (o : Outgoing) (w : U32) (ha : r.accepts o o.sndUna w) :
      SendStep r o { o with sndWnd := w }
  | ack (o : Outgoing) (ack w now : U32) (h₁ : o.sndUna < ack) (h₂ : ack ≤ o.sndNxt)
      (hc : r.clock now) (ha : r.accepts o ack w) : SendStep r o (o.acked ack w now)
  | timer (o : Outgoing) (now : U32) (hr : o.rtoBase ≠ 0) (hc : r.clock now) :
      SendStep r o { o with rtoBase := now }
  | resize (o : Outgoing) (mem : Nat → U8) (size : Nat) (h : size < 2 ^ 32) :
      SendStep r o { o with sbuf := (o.sbuf.setCapacity mem size h).2 }

abbrev SendSteps (r : Rely) := Relation.ReflTransGen (SendStep r)

theorem SendSteps.induct {r : Rely} {P : Outgoing → Prop}
    (hs : ∀ o o', SendStep r o o' → P o → P o') {o o' : Outgoing} (h : SendSteps r o o')
    (ho : P o) : P o' := by
  induction h with
  | refl => exact ho
  | tail _ step ih => exact hs _ _ step ih

/-! ## What each edit does -/

variable {o : Outgoing} {l₁ l₂ : List SSegment} {seg : SSegment}

theorem cut_eq (hl : o.slist = l₁ ++ seg :: l₂) (n : U32) : o.cut l₁.length n =
      if seg.len > n then
        { o with slist := l₁ ++ [{ seg with len := n },
          ⟨seg.seq + n, seg.len - n, 0, seg.bCtrl⟩] ++ l₂ }
      else o := by
  unfold Outgoing.cut
  have hi : o.slist[l₁.length]? = some seg := by simp [hl]
  rw [hi]
  simp only
  split
  · rw [hl, splice_append]
  · rfl

theorem transmitted_eq (hl : o.slist = l₁ ++ seg :: l₂) {n : U32} (hn : n ≤ seg.len) (now : U32) :
    o.transmitted l₁.length seg n now =
      { o with
        slist := l₁ ++ ({ seg with len := n, xmit := seg.xmit + 1 } ::
          if n < seg.len then [⟨seg.seq + n, seg.len - n, seg.xmit, seg.bCtrl⟩] else []) ++ l₂
        sndNxt := if seg.xmit = 0 then o.sndNxt + n else o.sndNxt
        rtoBase := if o.rtoBase = 0 then now else o.rtoBase } := by
  have hlen : (if n < seg.len then n else seg.len) = n := by
    split
    · rfl
    · bv_omega
  unfold Outgoing.transmitted
  simp only [hlen]
  rw [hl, splice_append]
  split <;> rfl

theorem getWriteRemaining_toNat (b : FifoBuffer (2 ^ 32)) :
    (BitVec.ofNat 32 b.getWriteRemaining).toNat = b.getWriteRemaining := by
  have hl := b.bufferLength_lt
  unfold FifoBuffer.getWriteRemaining
  rw [BitVec.toNat_ofNat, Nat.mod_eq_of_lt (by omega)]

/-- `queue`'s length after the cut. -/
theorem clip_toNat (o : Outgoing) (len : U32) :
    (o.clip len).toNat = min len.toNat o.sbuf.getWriteRemaining := by
  rw [Outgoing.clip, umin_toNat, getWriteRemaining_toNat]

theorem pushSegment_cases (l : List SSegment) (fresh : SSegment) :
    (∃ l₁ last, l = l₁ ++ [last] ∧ last.bCtrl = fresh.bCtrl ∧ last.xmit = 0 ∧
      Outgoing.pushSegment l fresh = l₁ ++ [{ last with len := last.len + fresh.len }]) ∨
    (Outgoing.pushSegment l fresh = l ++ [fresh] ∧
      ∀ last ∈ l.getLast?, last.bCtrl = fresh.bCtrl → last.xmit ≠ 0) := by
  unfold Outgoing.pushSegment
  rcases List.eq_nil_or_concat l with rfl | ⟨l₁, last, rfl⟩
  · exact Or.inr ⟨rfl, by simp⟩
  · rw [List.concat_eq_append]
    simp only [List.getLast?_append, List.getLast?_singleton, Option.some_or,
      List.dropLast_concat]
    by_cases hc : last.bCtrl = fresh.bCtrl ∧ last.xmit = 0
    · rw [if_pos hc]
      exact Or.inl ⟨l₁, last, rfl, hc.1, hc.2, rfl⟩
    · rw [if_neg hc]
      refine Or.inr ⟨rfl, ?_⟩
      rintro last' h hb hx
      obtain rfl := Option.some.inj h
      exact hc ⟨hb, hx⟩

/-- `queue` writes exactly the clipped length. -/
theorem queue_write (o : Outgoing) (ho : o.sbuf.state = .opened) (data : Nat → U8) (len : U32) :
    (o.sbuf.write data (o.clip len).toNat).2.1 = (o.clip len).toNat ∧
      (o.sbuf.write data (o.clip len).toNat).2.2.state = .opened ∧
      (o.sbuf.write data (o.clip len).toNat).2.2.dataLength =
        o.sbuf.dataLength + (o.clip len).toNat ∧
      ∀ i, i < o.sbuf.bufferLength → (o.sbuf.write data (o.clip len).toNat).2.2.peek i =
        if o.sbuf.dataLength ≤ i ∧ i < o.sbuf.dataLength + (o.clip len).toNat then
          data (i - o.sbuf.dataLength)
        else o.sbuf.peek i := by
  obtain ⟨w1, -, w3, w4, w5⟩ := FifoBuffer.write_spec (by omega) data (o.clip len).toNat
    (b := o.sbuf) (by rw [ho]; decide)
  have hfit : min (o.clip len).toNat o.sbuf.getWriteRemaining = (o.clip len).toNat := by
    have := clip_toNat o len
    omega
  rw [hfit] at w1 w4 w5
  exact ⟨w1, w3.trans ho, w4, w5⟩


end Libjingle
