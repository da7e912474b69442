import Libjingle.Base.BasicTypes
import Libjingle.Lib.Memory

/-!
# `FifoBuffer` (`base/stream.cc`)

A ring of `buffer_length_` bytes with `data_length_` readable ones from `read_position_` on.
`WriteOffset` also writes past the readable data, and `ConsumeWriteBuffer` makes such bytes
readable later.

The record keeps the bounds every method maintains, so a buffer out of bounds cannot be built.
`lim` bounds the capacity from above: `2 ^ 63` for any buffer (no array is larger than
`PTRDIFF_MAX`), `2 ^ 32` for one whose size is always given as a `uint32`.

* A method with an `ASSERT` on its argument returns an `Option`: `none` when the assertion fails.
* `new char[size]` does not initialise its bytes. They are the parameter `mem`.
* `data_length_ + offset` is `size_t` arithmetic and wraps (`sizeT`).
* The events posted to the owner's thread and the lock are left out.

`peek b i` is the byte `i` places past the read position, readable or not. The rest of the file
says what each method does to `peek`; later proofs use only that.
-/

namespace Libjingle

open Lib

inductive StreamState where
  | closed
  | opening
  | opened
  deriving DecidableEq

inductive StreamResult where
  | error
  | success
  | block
  | eos
  deriving DecidableEq

/-- `class FifoBuffer`, with a capacity below `lim`. -/
structure FifoBuffer (lim : Nat) where
  /-- `state_`: the opened/closed state of the stream. -/
  state : StreamState
  /-- `buffer_`: the allocated bytes. -/
  buffer : Nat → U8
  /-- `buffer_length_`: size of the allocated buffer. -/
  bufferLength : Nat
  /-- `data_length_`: amount of readable data in the buffer. -/
  dataLength : Nat
  /-- `read_position_`: offset to the readable data. -/
  readPosition : Nat
  dataLength_le : dataLength ≤ bufferLength
  readPosition_lt : readPosition = 0 ∨ readPosition < bufferLength
  bufferLength_lt : bufferLength < lim

namespace FifoBuffer

variable {lim : Nat}

/-- The constructor; `mem` is what the fresh array holds. -/
def new (mem : Nat → U8) (size : Nat) (h : size < lim) : FifoBuffer lim where
  state := .opened
  buffer := mem
  bufferLength := size
  dataLength := 0
  readPosition := 0
  dataLength_le := Nat.zero_le _
  readPosition_lt := Or.inl rfl
  bufferLength_lt := h

def getWriteRemaining (b : FifoBuffer lim) : Nat := b.bufferLength - b.dataLength

/-- `SetCapacity`; `mem` is what the new array holds before the copy. -/
def setCapacity (b : FifoBuffer lim) (mem : Nat → U8) (size : Nat) (h : size < lim) :
    Bool × FifoBuffer lim :=
  if hd : b.dataLength > size then (false, b)
  else if size ≠ b.bufferLength then
    let copy := b.dataLength
    let tailCopy := min copy (b.bufferLength - b.readPosition)
    let buffer := memcpy (memcpy mem 0 (fun i => b.buffer (b.readPosition + i)) tailCopy) tailCopy
      b.buffer (copy - tailCopy)
    (true, { b with
      buffer := buffer
      readPosition := 0
      bufferLength := size
      dataLength_le := Nat.le_of_not_gt hd
      readPosition_lt := Or.inl rfl
      bufferLength_lt := h })
  else (true, b)

/-- `ReadOffsetLocked`: the result and the bytes copied out. -/
def readOffsetLocked (b : FifoBuffer lim) (bytes offset : Nat) : StreamResult × List U8 :=
  if offset ≥ b.dataLength then (if b.state ≠ .closed then .block else .eos, [])
  else
    let available := b.dataLength - offset
    let readPosition := (b.readPosition + offset) % b.bufferLength
    let copy := min bytes available
    (.success, ringFetch b.buffer b.bufferLength readPosition copy)

def readOffset (b : FifoBuffer lim) (bytes offset : Nat) : StreamResult × List U8 :=
  b.readOffsetLocked bytes offset

/-- `WriteOffsetLocked`: the result, the number of bytes copied in, and the buffer. -/
def writeOffsetLocked (b : FifoBuffer lim) (src : Nat → U8) (bytes offset : Nat) :
    StreamResult × Nat × FifoBuffer lim :=
  if b.state = .closed then (.eos, 0, b)
  else if sizeT (b.dataLength + offset) ≥ b.bufferLength then (.block, 0, b)
  else
    let available := sizeT (b.bufferLength + 2 ^ 64 - sizeT (b.dataLength + offset))
    let writePosition := sizeT (b.readPosition + b.dataLength + offset) % b.bufferLength
    let copy := min bytes available
    (.success, copy,
      { b with buffer := ringStore b.buffer b.bufferLength writePosition src copy })

def writeOffset (b : FifoBuffer lim) (src : Nat → U8) (bytes offset : Nat) :
    StreamResult × Nat × FifoBuffer lim :=
  b.writeOffsetLocked src bytes offset

/-- `ConsumeReadData`; `none` when its `ASSERT(size <= data_length_)` fails. -/
def consumeReadData (b : FifoBuffer lim) (size : Nat) : Option (FifoBuffer lim) :=
  if h : size ≤ b.dataLength then
    some { b with
      readPosition := (b.readPosition + size) % b.bufferLength
      dataLength := b.dataLength - size
      dataLength_le := (Nat.sub_le _ _).trans b.dataLength_le
      readPosition_lt := by
        have h1 := b.readPosition_lt
        have h2 := b.dataLength_le
        rcases Nat.eq_zero_or_pos b.bufferLength with h0 | h0
        · left
          rw [h0, Nat.mod_zero]
          omega
        · exact Or.inr (Nat.mod_lt _ h0) }
  else none

/-- `ConsumeWriteBuffer`; `none` when its `ASSERT(size <= buffer_length_ - data_length_)` fails. -/
def consumeWriteBuffer (b : FifoBuffer lim) (size : Nat) : Option (FifoBuffer lim) :=
  if h : size ≤ b.bufferLength - b.dataLength then
    some { b with
      dataLength := b.dataLength + size
      dataLength_le := by have := b.dataLength_le; omega }
  else none

/-- `Read`: the result, the bytes read, and the buffer. The update of the two positions is the
one of `ConsumeReadData`, on a count that is at most `data_length_`. -/
def read (b : FifoBuffer lim) (bytes : Nat) : StreamResult × List U8 × FifoBuffer lim :=
  match b.readOffsetLocked bytes 0 with
  | (.success, out) => (.success, out, (b.consumeReadData out.length).getD b)
  | (r, out) => (r, out, b)

/-- `Write`: the result, the number of bytes written, and the buffer. The update of `data_length_`
is the one of `ConsumeWriteBuffer`, on a count that fits. -/
def write (b : FifoBuffer lim) (src : Nat → U8) (bytes : Nat) :
    StreamResult × Nat × FifoBuffer lim :=
  match b.writeOffsetLocked src bytes 0 with
  | (.success, copy, b') => (.success, copy, (b'.consumeWriteBuffer copy).getD b')
  | r => r

/-! ## The bytes past the read position -/

/-- The byte `i` places past the read position. -/
def peek (b : FifoBuffer lim) (i : Nat) : U8 := b.buffer ((b.readPosition + i) % b.bufferLength)

def readable (b : FifoBuffer lim) : List U8 := fetch b.peek b.dataLength

@[simp] theorem readable_length (b : FifoBuffer lim) : b.readable.length = b.dataLength :=
  fetch_length _ _

theorem readPosition_lt_of_pos (b : FifoBuffer lim) (h : 0 < b.bufferLength) :
    b.readPosition < b.bufferLength := by
  rcases b.readPosition_lt with h0 | h0 <;> omega

/-! ### Reading -/

variable {offset : Nat}

variable {b : FifoBuffer lim}

theorem readOffset_block (bytes : Nat) (h : b.dataLength ≤ offset) :
    b.readOffset bytes offset = (if b.state ≠ .closed then .block else .eos, []) := by
  unfold readOffset readOffsetLocked
  rw [if_pos h]

/-- `ReadOffset` returns the bytes at the offset, as many as asked for and readable. -/
theorem readOffset_success (bytes : Nat) (h : offset < b.dataLength) : b.readOffset bytes offset =
      (.success, fetch (fun i => b.peek (offset + i)) (min bytes (b.dataLength - offset))) := by
  have hd := b.dataLength_le
  unfold readOffset readOffsetLocked
  rw [if_neg (by omega)]
  simp only [Prod.mk.injEq, true_and]
  rw [ringFetch_eq _ (Nat.mod_lt _ (by omega)) (by omega)]
  refine fetch_congr fun i _ => ?_
  rw [ring_shift]
  rfl

/-! ### Committing and consuming -/

variable {size : Nat}

variable {b' : FifoBuffer lim}

theorem consumeReadData_eq_some (h : b.consumeReadData size = some b') :
    size ≤ b.dataLength ∧ b'.bufferLength = b.bufferLength ∧ b'.state = b.state ∧
      b'.dataLength = b.dataLength - size ∧ ∀ i, b'.peek i = b.peek (size + i) := by
  unfold consumeReadData at h
  split at h
  · rename_i hs
    obtain rfl := Option.some.inj h
    refine ⟨hs, rfl, rfl, rfl, fun i => ?_⟩
    simp only [peek, ring_shift]
  · exact absurd h (by simp)

theorem consumeReadData_isSome (h : size ≤ b.dataLength) :
    ∃ b', b.consumeReadData size = some b' := by
  unfold consumeReadData
  rw [dif_pos h]
  exact ⟨_, rfl⟩

theorem consumeWriteBuffer_eq_some (h : b.consumeWriteBuffer size = some b') :
    size ≤ b.getWriteRemaining ∧ b'.bufferLength = b.bufferLength ∧ b'.state = b.state ∧
      b'.dataLength = b.dataLength + size ∧ ∀ i, b'.peek i = b.peek i := by
  unfold consumeWriteBuffer at h
  split at h
  · rename_i hs
    obtain rfl := Option.some.inj h
    exact ⟨hs, rfl, rfl, rfl, fun _ => rfl⟩
  · exact absurd h (by simp)

theorem consumeWriteBuffer_isSome
    (h : size ≤ b.getWriteRemaining) : ∃ b', b.consumeWriteBuffer size = some b' := by
  unfold getWriteRemaining at h
  unfold consumeWriteBuffer
  rw [dif_pos h]
  exact ⟨_, rfl⟩

/-! ### Writing -/

/-- `WriteOffset` never moves the readable region. -/
theorem writeOffset_frame (b : FifoBuffer lim) (src : Nat → U8) (bytes offset : Nat) :
    (b.writeOffset src bytes offset).2.2.bufferLength = b.bufferLength ∧
      (b.writeOffset src bytes offset).2.2.dataLength = b.dataLength ∧
      (b.writeOffset src bytes offset).2.2.readPosition = b.readPosition ∧
      (b.writeOffset src bytes offset).2.2.state = b.state := by
  unfold writeOffset writeOffsetLocked
  split
  · exact ⟨rfl, rfl, rfl, rfl⟩
  · split <;> exact ⟨rfl, rfl, rfl, rfl⟩

/-- Where `data_length_ + offset` does not wrap and lies inside the buffer, `WriteOffset` copies
as much as fits. -/
theorem writeOffset_success (hlim : lim ≤ 2 ^ 63) (src : Nat → U8)
    (bytes : Nat) (ho : b.state ≠ .closed) (h : b.dataLength + offset < b.bufferLength) :
    (b.writeOffset src bytes offset).1 = .success ∧
      (b.writeOffset src bytes offset).2.1 =
        min bytes (b.bufferLength - (b.dataLength + offset)) := by
  have hl := b.bufferLength_lt
  unfold writeOffset writeOffsetLocked
  rw [if_neg ho, sizeT_of_lt (n := b.dataLength + offset) (by omega), if_neg (by omega)]
  refine ⟨rfl, ?_⟩
  simp only [sizeT]
  congr 1
  omega

theorem writeOffset_block (src : Nat → U8) (bytes : Nat)
    (ho : b.state ≠ .closed) (hw : b.dataLength + offset < 2 ^ 64)
    (h : b.bufferLength ≤ b.dataLength + offset) :
    b.writeOffset src bytes offset = (.block, 0, b) := by
  unfold writeOffset writeOffsetLocked
  rw [if_neg ho, sizeT_of_lt hw, if_pos h]

/-- The bytes `WriteOffset` leaves past the read position: its own run, `offset` places past the
readable data, is the source's, and every other byte of the ring stays. -/
theorem peek_writeOffset (hlim : lim ≤ 2 ^ 63) (b : FifoBuffer lim) (src : Nat → U8)
    (bytes : Nat) (hw : b.dataLength + offset < 2 ^ 64) {i : Nat}
    (hi : i < b.bufferLength) :
    (b.writeOffset src bytes offset).2.2.peek i =
      if b.dataLength + offset ≤ i ∧
          i < b.dataLength + offset + (b.writeOffset src bytes offset).2.1 then
        src (i - (b.dataLength + offset))
      else b.peek i := by
  have hl := b.bufferLength_lt
  by_cases hc : b.state = .closed
  · have e : b.writeOffset src bytes offset = (.eos, 0, b) := by
      unfold writeOffset writeOffsetLocked
      rw [if_pos hc]
    rw [e, if_neg (by simp only; omega)]
  by_cases hin : b.dataLength + offset < b.bufferLength
  · obtain ⟨-, hcopy⟩ := writeOffset_success hlim src bytes hc hin
    rw [hcopy]
    have hr := b.readPosition_lt_of_pos (by omega)
    have hbuf : (b.writeOffset src bytes offset).2.2.peek i =
        ringStore b.buffer b.bufferLength
          ((b.readPosition + (b.dataLength + offset)) % b.bufferLength) src
          (min bytes (b.bufferLength - (b.dataLength + offset)))
          ((b.readPosition + i) % b.bufferLength) := by
      unfold peek
      unfold writeOffset at hcopy ⊢
      unfold writeOffsetLocked at hcopy ⊢
      rw [if_neg hc, sizeT_of_lt (n := b.dataLength + offset) (by omega),
        if_neg (by omega)] at hcopy ⊢
      simp only at hcopy ⊢
      rw [hcopy, sizeT_of_lt (n := b.readPosition + b.dataLength + offset) (by omega),
        Nat.add_assoc b.readPosition]
    rw [hbuf]
    -- count the ring from the write position: slot `i` is `j` places on
    obtain ⟨j, hj, hj'⟩ : ∃ j, j < b.bufferLength ∧
        (j = i - (b.dataLength + offset) ∧ b.dataLength + offset ≤ i ∨
          j + (b.dataLength + offset) = i + b.bufferLength ∧ i < b.dataLength + offset) := by
      by_cases hle : b.dataLength + offset ≤ i
      · exact ⟨i - (b.dataLength + offset), by omega, Or.inl ⟨rfl, hle⟩⟩
      · exact ⟨i + b.bufferLength - (b.dataLength + offset), by omega, Or.inr (by omega)⟩
    have hslot : (b.readPosition + i) % b.bufferLength =
        ((b.readPosition + (b.dataLength + offset)) % b.bufferLength + j) % b.bufferLength := by
      rw [ring_shift]
      rcases hj' with ⟨rfl, _⟩ | ⟨h, _⟩
      · congr 2
        omega
      · rw [Nat.add_comm (b.dataLength + offset), h, ← Nat.add_assoc, Nat.add_mod_right]
    rw [hslot, ringStore_ring _ _ (Nat.mod_lt _ (by omega)) (by omega) hj, ← hslot]
    rcases hj' with ⟨rfl, h⟩ | ⟨h, h'⟩
    · by_cases hlt : i - (b.dataLength + offset) <
          min bytes (b.bufferLength - (b.dataLength + offset))
      · rw [if_pos hlt, if_pos (by omega)]
      · rw [if_neg hlt, if_neg (by omega)]
        rfl
    · rw [if_neg (by omega), if_neg (by omega)]
      rfl
  · rw [writeOffset_block src bytes hc hw (by omega), if_neg (by simp only; omega)]

/-! ### `Read`, `Write`, `SetCapacity` -/

theorem read_block (bytes : Nat) (h : b.dataLength = 0) :
    b.read bytes = (if b.state ≠ .closed then .block else .eos, [], b) := by
  have e : b.readOffset bytes 0 = _ := readOffset_block bytes (by omega)
  unfold readOffset at e
  unfold read
  rw [e]
  split_ifs <;> rfl

/-- `Read` takes bytes off the front, as many as asked for and readable. -/
theorem read_success (bytes : Nat) (h : 0 < b.dataLength) :
    ∃ b', b.read bytes = (.success, fetch b.peek (min bytes b.dataLength), b') ∧
      b.consumeReadData (min bytes b.dataLength) = some b' := by
  have e := readOffset_success bytes h
  simp only [Nat.zero_add, Nat.sub_zero] at e
  unfold readOffset at e
  obtain ⟨b', hb'⟩ := consumeReadData_isSome (Nat.min_le_right bytes b.dataLength)
  refine ⟨b', ?_, hb'⟩
  unfold read
  rw [e]
  simp only [fetch_length, hb', Option.getD_some]

/-- `Write` appends as many bytes as fit. -/
theorem write_spec (hlim : lim ≤ 2 ^ 63) (src : Nat → U8) (bytes : Nat) (ho : b.state ≠ .closed) :
    (b.write src bytes).2.1 = min bytes b.getWriteRemaining ∧
      (b.write src bytes).2.2.bufferLength = b.bufferLength ∧
      (b.write src bytes).2.2.state = b.state ∧
      (b.write src bytes).2.2.dataLength = b.dataLength + min bytes b.getWriteRemaining ∧
      ∀ i, i < b.bufferLength → (b.write src bytes).2.2.peek i =
        if b.dataLength ≤ i ∧ i < b.dataLength + min bytes b.getWriteRemaining then
          src (i - b.dataLength)
        else b.peek i := by
  have hd := b.dataLength_le
  have hl := b.bufferLength_lt
  unfold getWriteRemaining
  by_cases hin : b.dataLength < b.bufferLength
  · obtain ⟨h1, h2⟩ := writeOffset_success hlim src bytes ho (show b.dataLength + 0 < _ by omega)
    have hp := fun i (hi : i < b.bufferLength) => peek_writeOffset hlim b src bytes
      (show b.dataLength + 0 < _ by omega) hi
    obtain ⟨f1, f2, -, f4⟩ := writeOffset_frame b src bytes 0
    rw [Nat.add_zero] at h2
    simp only [h2, Nat.add_zero] at hp
    unfold write
    unfold writeOffset at h1 h2 hp f1 f2 f4
    generalize b.writeOffsetLocked src bytes 0 = r at h1 h2 hp f1 f2 f4
    obtain ⟨r1, copy, b'⟩ := r
    simp only at h1 h2 hp f1 f2 f4
    subst h1 h2
    have hfit : min bytes (b.bufferLength - b.dataLength) ≤ b'.getWriteRemaining := by
      unfold getWriteRemaining
      omega
    obtain ⟨c, hc⟩ := consumeWriteBuffer_isSome hfit
    obtain ⟨-, g1, g2, g3, g4⟩ := consumeWriteBuffer_eq_some hc
    simp only [hc, Option.getD_some]
    refine ⟨trivial, g1.trans f1, g2.trans f4, by omega, fun i hi => ?_⟩
    rw [g4 i, hp i hi]
  · have e := writeOffset_block src bytes ho (show b.dataLength + 0 < _ by omega)
      (by omega)
    unfold writeOffset at e
    unfold write
    rw [e]
    refine ⟨by simp only; omega, rfl, rfl, by simp only; omega, fun i hi => ?_⟩
    rw [if_neg (by omega)]

/-- **`SetCapacity` succeeds exactly when the data fits**, and then keeps it. -/
theorem setCapacity_spec (b : FifoBuffer lim) (mem : Nat → U8) (h : size < lim) :
    ((b.setCapacity mem size h).1 = true ↔ b.dataLength ≤ size) ∧
      (b.setCapacity mem size h).2.readable = b.readable ∧
      (b.setCapacity mem size h).2.state = b.state ∧
      (b.setCapacity mem size h).2.bufferLength =
        if b.dataLength ≤ size then size else b.bufferLength := by
  have hd := b.dataLength_le
  by_cases hgt : b.dataLength > size
  · rw [if_neg (by omega)]
    unfold setCapacity
    rw [dif_pos hgt]
    exact ⟨by simp only [Bool.false_eq_true, false_iff]; omega, rfl, rfl, rfl⟩
  rw [if_pos (by omega)]
  unfold setCapacity
  rw [dif_neg hgt]
  by_cases he : size = b.bufferLength
  · rw [if_neg (by simpa using he)]
    exact ⟨by simp only [true_iff]; omega, rfl, rfl, he.symm⟩
  · rw [if_pos he]
    refine ⟨by simp only [true_iff]; omega, ?_, rfl, rfl⟩
    unfold readable
    refine fetch_congr fun i hi => ?_
    simp only at hi
    have hr := b.readPosition_lt_of_pos (by omega)
    simp only [peek, memcpy, Nat.zero_add]
    rw [Nat.mod_eq_of_lt (show i < size by omega)]
    -- the copy's second piece starts where the old data wrapped
    rcases ring_index hr (i := i) (by omega) with ⟨h1, e⟩ | ⟨h1, e⟩ <;> rw [e]
    · rw [if_neg (by omega), if_pos (by omega)]
      rfl
    · rw [if_pos (by omega)]
      congr 1
      omega

end FifoBuffer

end Libjingle
