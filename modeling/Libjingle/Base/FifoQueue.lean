import Libjingle.Base.FifoBuffer
import Libjingle.Lib.StreamQueue

/-!
# `FifoBuffer` refines a byte queue with absolute stream positions

`Run ok` is the set of pairs a sequence of calls reaches: a buffer and the abstract queue
(`Lib.StreamQueue`) that makes the same calls. Every call respects the buffer's assertions (`exec`
returns `none` otherwise) and meets `ok`.

* `fifo_refines_queue`: the two agree after every sequence of calls none of which makes
  `data_length_ + offset` wrap in `size_t` (`NoWrap`).
-/

namespace Libjingle.FifoBuffer

open Lib

/-- The calls a sequence is made of. -/
inductive Op where
  | write (src : Nat → U8) (bytes : Nat)
  | writeOffset (src : Nat → U8) (bytes offset : Nat)
  | consumeWriteBuffer (size : Nat)
  | read (bytes : Nat)
  | readOffset (bytes offset : Nat)
  | consumeReadData (size : Nat)
  | setCapacity (mem : Nat → U8) (size : Nat) (h : size < 2 ^ 63)

/-- The buffer after a call; `none` when the call fails an assertion. -/
def exec (b : FifoBuffer (2 ^ 63)) : Op → Option (FifoBuffer (2 ^ 63))
  | .write src bytes => some (b.write src bytes).2.2
  | .writeOffset src bytes offset => some (b.writeOffset src bytes offset).2.2
  | .consumeWriteBuffer size => b.consumeWriteBuffer size
  | .read bytes => some (b.read bytes).2.2
  | .readOffset _ _ => some b
  | .consumeReadData size => b.consumeReadData size
  | .setCapacity mem size h => some (b.setCapacity mem size h).2

/-- The abstract queue after the same call. -/
def track (q : StreamQueue U8) : Op → StreamQueue U8
  | .write src bytes => q.put src bytes
  | .writeOffset src bytes offset => q.putAt src bytes offset
  | .consumeWriteBuffer size => q.commit size
  | .read bytes => q.drop (min bytes q.length)
  | .readOffset _ _ => q
  | .consumeReadData size => q.drop size
  | .setCapacity _ size _ => q.resize size

/-- The buffers a sequence of calls reaches, each with its abstract queue. -/
inductive Run (ok : FifoBuffer (2 ^ 63) → Op → Prop) :
    FifoBuffer (2 ^ 63) → StreamQueue U8 → Prop
  | start (mem : Nat → U8) (capacity : Nat) (h : capacity < 2 ^ 63) (hpos : 0 < capacity) :
      Run ok (new mem capacity h) (.empty capacity)
  | call {b b' : FifoBuffer (2 ^ 63)} {q : StreamQueue U8} (op : Op) (hr : Run ok b q)
      (hop : ok b op) (he : b.exec op = some b') : Run ok b' (track q op)

/-- `data_length_ + offset` stays inside `size_t` in a `WriteOffset`. -/
def NoWrap (b : FifoBuffer (2 ^ 63)) : Op → Prop
  | .writeOffset _ _ offset => b.dataLength + offset < 2 ^ 64
  | _ => True

/-- What the buffer promises in terms of the abstract queue. -/
structure QueueView (ok : FifoBuffer (2 ^ 63) → Op → Prop) (b : FifoBuffer (2 ^ 63))
    (q : StreamQueue U8) : Prop where
  /-- `0 ≤ data_length_ = W - R ≤ capacity`. -/
  amount : q.consumed ≤ q.committed ∧ b.dataLength = q.committed - q.consumed ∧
    b.dataLength ≤ b.bufferLength ∧ b.bufferLength = q.capacity
  /-- `ReadOffset` returns the bytes last written from position `R + offset` on, limited to the
  committed data, and nothing past it. -/
  readOffset : ∀ bytes offset,
    (b.dataLength ≤ offset → b.readOffset bytes offset = (.block, [])) ∧
    (offset < b.dataLength → (b.readOffset bytes offset).1 = .success ∧
      (b.readOffset bytes offset).2.length = min bytes (b.dataLength - offset) ∧
      q.Agrees offset (b.readOffset bytes offset).2)
  /-- `Read` returns the same bytes as `ReadOffset` at offset 0. -/
  read : ∀ bytes, (b.read bytes).1 = (b.readOffset bytes 0).1 ∧
    (b.read bytes).2.1 = (b.readOffset bytes 0).2
  /-- `WriteOffset` overwrites no committed unread byte. -/
  writeOffset : ∀ src bytes offset, ok b (.writeOffset src bytes offset) →
    (b.writeOffset src bytes offset).2.2.readable = b.readable
  /-- `SetCapacity` succeeds exactly when the data fits, and keeps the readable bytes. -/
  setCapacity : ∀ mem size h, ((b.setCapacity mem size h).1 = true ↔ b.dataLength ≤ size) ∧
    (b.setCapacity mem size h).2.readable = b.readable

/-! ## The simulation -/

/-- The buffer holds what the queue says: the same amounts, every written byte of the window in
its ring slot, and nothing written past the window. -/
structure Refines (b : FifoBuffer (2 ^ 63)) (q : StreamQueue U8) : Prop where
  opened : b.state = .opened
  capacity : b.bufferLength = q.capacity
  consumed_le : q.consumed ≤ q.committed
  length : b.dataLength = q.length
  ahead : ∀ p, q.consumed + q.capacity ≤ p → q.written p = none
  holds : q.Holds b.peek

variable {b b' : FifoBuffer (2 ^ 63)} {q : StreamQueue U8}

theorem refines_new (mem : Nat → U8) {capacity : Nat} (h : capacity < 2 ^ 63) :
    Refines (new mem capacity h) (.empty capacity) :=
  ⟨rfl, rfl, le_refl _, rfl, fun _ _ => rfl, StreamQueue.holds_empty _ _⟩

variable {src : Nat → U8}

theorem Refines.writeOffset (h : Refines b q) {bytes offset : Nat}
    (hw : b.dataLength + offset < 2 ^ 64) :
    Refines (b.writeOffset src bytes offset).2.2 (q.putAt src bytes offset) := by
  obtain ⟨f1, f2, -, f4⟩ := writeOffset_frame b src bytes offset
  have hlen : q.length = q.committed - q.consumed := rfl
  have hle := h.consumed_le
  refine ⟨f4.trans h.opened, f1.trans h.capacity, hle, f2.trans h.length, fun p hp => ?_, ?_⟩
  · simp only [StreamQueue.putAt, memcpy] at hp ⊢
    rw [if_neg (by omega)]
    exact h.ahead p hp
  · refine h.holds.putAt hle fun i hi => ?_
    rw [← h.capacity] at hi
    rw [peek_writeOffset (le_refl _) b src bytes hw hi, h.length]
    by_cases hin : b.dataLength + offset < b.bufferLength
    · rw [(writeOffset_success (le_refl _) src bytes (by rw [h.opened]; decide) hin).2, h.capacity,
        h.length]
    · rw [writeOffset_block src bytes (by rw [h.opened]; decide) hw (by omega)]
      have hl := h.length
      have hc := h.capacity
      rw [if_neg (by omega), if_neg (by omega)]

variable {size : Nat}

theorem Refines.commit (h : Refines b q) (he : b.consumeWriteBuffer size = some b') :
    Refines b' (q.commit size) := by
  obtain ⟨hs, g1, g2, g3, g4⟩ := consumeWriteBuffer_eq_some he
  have hl := h.length
  have hle := h.consumed_le
  unfold StreamQueue.length at hl
  refine ⟨g2.trans h.opened, g1.trans h.capacity, ?_, ?_, h.ahead, ?_⟩
  · simp only [StreamQueue.commit]
    omega
  · simp only [StreamQueue.length, StreamQueue.commit]
    omega
  · intro i v hi hv
    rw [g4 i]
    exact h.holds i v hi hv

theorem Refines.drop (h : Refines b q) (he : b.consumeReadData size = some b') :
    Refines b' (q.drop size) := by
  obtain ⟨hs, g1, g2, g3, g4⟩ := consumeReadData_eq_some he
  have hl := h.length
  have hle := h.consumed_le
  unfold StreamQueue.length at hl
  refine ⟨g2.trans h.opened, g1.trans h.capacity, ?_, ?_, fun p hp => h.ahead p ?_,
    h.holds.drop h.ahead g4⟩
  · simp only [StreamQueue.drop]
    omega
  · simp only [StreamQueue.length, StreamQueue.drop]
    omega
  · simp only [StreamQueue.drop] at hp
    omega

variable {bytes : Nat}

theorem Refines.write (h : Refines b q) : Refines (b.write src bytes).2.2 (q.put src bytes) := by
  obtain ⟨-, w1, w2, w3, w4⟩ := write_spec (le_refl _) (b := b) src bytes
    (by rw [h.opened]; decide)
  have hl := h.length
  have hc := h.capacity
  have hle := h.consumed_le
  unfold getWriteRemaining at w3 w4
  rw [hl, hc] at w3 w4
  have hlen : q.length = q.committed - q.consumed := rfl
  refine ⟨w2.trans h.opened, w1.trans hc, ?_, ?_, fun p hp => ?_, ?_⟩
  · simp only [StreamQueue.put, StreamQueue.commit, StreamQueue.putAt]
    omega
  · rw [w3]
    simp only [StreamQueue.put, StreamQueue.length, StreamQueue.commit, StreamQueue.putAt]
    omega
  · simp only [StreamQueue.put, StreamQueue.commit, StreamQueue.putAt, memcpy] at hp ⊢
    rw [if_neg (by omega)]
    exact h.ahead p hp
  · have hp : (q.putAt src bytes 0).Holds (b.write src bytes).2.2.peek := by
      refine h.holds.putAt hle fun i hi => ?_
      simp only [Nat.add_zero]
      exact w4 i (hc ▸ hi)
    exact hp.commit _

theorem Refines.read (h : Refines b q) :
    Refines (b.read bytes).2.2 (q.drop (min bytes q.length)) := by
  rcases Nat.eq_zero_or_pos b.dataLength with h0 | h0
  · rw [read_block bytes h0, ← h.length, h0, Nat.min_zero]
    exact h
  · obtain ⟨c, hr, hc⟩ := read_success bytes h0
    rw [hr, ← h.length]
    exact h.drop hc

theorem Refines.setCapacity (h : Refines b q) {mem : Nat → U8}
    (hs : size < 2 ^ 63) : Refines (b.setCapacity mem size hs).2 (q.resize size) := by
  obtain ⟨h1, h2, h3, h4⟩ := setCapacity_spec b mem hs
  have hl := h.length
  have hc := h.capacity
  have hd := b.dataLength_le
  have hdl : (b.setCapacity mem size hs).2.dataLength = b.dataLength := by
    rw [← readable_length, h2, readable_length]
  unfold StreamQueue.resize
  by_cases hfit : q.length ≤ size ∧ size ≠ q.capacity
  · rw [if_pos hfit]
    rw [if_pos (by omega)] at h4
    refine ⟨h3.trans h.opened, h4, h.consumed_le, hdl.trans hl, fun p hp => ?_, fun i v hi hv => ?_⟩
    · simp only at hp ⊢
      unfold StreamQueue.length at hfit
      rw [if_neg (by omega)]
    · simp only at hi hv
      split at hv
      · rename_i hp
        have hi' : i < b.dataLength := by
          rw [hl]
          unfold StreamQueue.length
          omega
        -- the readable bytes are kept, and `i` is one of them
        have e := congrArg (fun l => l[i]?) h2
        simp only [readable, hdl] at e
        rw [getElem?_fetch hi', getElem?_fetch hi'] at e
        rw [Option.some.inj e]
        exact h.holds i v (by omega) hv
      · exact absurd hv (by simp)
  · rw [if_neg hfit]
    have e : (b.setCapacity mem size hs).2 = b := by
      unfold FifoBuffer.setCapacity
      split
      · rfl
      · rw [if_neg (by rw [hc]; intro hne; exact hfit ⟨by omega, hne⟩)]
    rw [e]
    exact h

theorem refines_exec (h : Refines b q) {op : Op} (hop : NoWrap b op)
    (he : b.exec op = some b') : Refines b' (track q op) := by
  cases op with
  | write src bytes => obtain rfl := Option.some.inj he; exact h.write
  | writeOffset src bytes offset => obtain rfl := Option.some.inj he; exact h.writeOffset hop
  | consumeWriteBuffer size => exact h.commit he
  | read bytes => obtain rfl := Option.some.inj he; exact h.read
  | readOffset bytes offset => obtain rfl := Option.some.inj he; exact h
  | consumeReadData size => exact h.drop he
  | setCapacity mem size hs => obtain rfl := Option.some.inj he; exact h.setCapacity hs

theorem refines_run (hr : Run NoWrap b q) : Refines b q := by
  induction hr with
  | start mem capacity h _ => exact refines_new mem h
  | call op _ hop he ih => exact refines_exec ih hop he

/-! ## The view -/

theorem Refines.view (h : Refines b q) : QueueView NoWrap b q where
  amount := ⟨h.consumed_le, h.length, b.dataLength_le, h.capacity⟩
  readOffset bytes offset := by
    refine ⟨fun hb => ?_, fun hs => ?_⟩
    · rw [readOffset_block bytes hb, if_pos (by rw [h.opened]; decide)]
    · rw [readOffset_success bytes hs]
      have hd := b.dataLength_le
      refine ⟨rfl, by simp, h.holds.agrees ?_⟩
      rw [← h.capacity]
      omega
  read bytes := by
    rcases Nat.eq_zero_or_pos b.dataLength with h0 | h0
    · rw [read_block bytes h0, readOffset_block bytes (by omega)]
      exact ⟨rfl, rfl⟩
    · obtain ⟨c, hr, -⟩ := read_success bytes h0
      rw [hr, readOffset_success bytes h0]
      simp
  writeOffset src bytes offset hw := by
    obtain ⟨f1, f2, -, -⟩ := writeOffset_frame b src bytes offset
    have hd := b.dataLength_le
    unfold readable
    rw [f2]
    refine fetch_congr fun i hi => ?_
    rw [peek_writeOffset (le_refl _) b src bytes hw (by omega), if_neg (by omega)]
  setCapacity mem size hs := ⟨(setCapacity_spec b mem hs).1, (setCapacity_spec b mem hs).2.1⟩

/-- **`FifoBuffer` refines the queue**: after every sequence of calls that respects the assertions
and never makes `data_length_ + offset` wrap, the buffer shows what the queue says. -/
theorem fifo_refines_queue (hr : Run NoWrap b q) : QueueView NoWrap b q :=
  (refines_run hr).view

/-- One byte committed in a fresh four-byte buffer. -/
def oneByte : FifoBuffer (2 ^ 63) :=
  ((new (fun _ => 0) 4 (by decide)).write (fun _ => 1) 1).2.2

theorem run_oneByte {ok : FifoBuffer (2 ^ 63) → Op → Prop} (h : ∀ b op, ok b op) :
    Run ok oneByte (track (.empty 4) (.write (fun _ => 1) 1)) :=
  .call _ (.start _ 4 (by decide) (by decide)) (h _ _) rfl

/-- One of three bytes is left in a buffer of four, and two are written behind it, the second one at
the start of the memory. -/
def wrapping : FifoBuffer (2 ^ 63) :=
  let b := ((new (fun _ => 0) 4 (by decide)).write (fun i => BitVec.ofNat 8 (i + 1)) 3).2.2
  ((b.read 2).2.2.writeOffset (fun i => BitVec.ofNat 8 (i + 8)) 2 0).2.2

theorem fifo_refines_queue_wrapping :
    ∃ b q, Run NoWrap b q ∧ QueueView NoWrap b q ∧ b.readable = [3, 8, 9] := by
  obtain ⟨q, hr⟩ : ∃ q, Run NoWrap wrapping q :=
    ⟨_, .call (.writeOffset _ _ _) (.call (.read _) (.call (.write _ _) (.start _ _ _ (by decide))
      trivial rfl) trivial rfl) (by unfold NoWrap; decide) rfl⟩
  have hcommit : Run NoWrap { wrapping with dataLength := 3, dataLength_le := by decide }
      (track q (.consumeWriteBuffer 2)) := .call _ hr trivial rfl
  exact ⟨_, _, hcommit, fifo_refines_queue hcommit, by decide +kernel⟩

/-- **Without the condition the readable bytes are not safe.** `WriteOffset` at offset
`2 ^ 64 - 1` past one committed byte wraps to position 0 and overwrites it. -/
theorem writeOffset_wrap_overwrites :
    ∃ b q, Run (fun _ _ => True) b q ∧ ¬ QueueView (fun _ _ => True) b q := by
  refine ⟨_, _, run_oneByte fun _ _ => trivial, fun h => ?_⟩
  have hw := h.writeOffset (fun _ => 2) 1 (2 ^ 64 - 1) trivial
  exact absurd hw (by decide)

end Libjingle.FifoBuffer
