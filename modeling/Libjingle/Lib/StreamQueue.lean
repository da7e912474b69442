import Libjingle.Lib.Memory

/-!
# A queue over absolute stream positions

The abstract component behind a bounded FIFO with out-of-order writes. A stream has positions
`0, 1, 2, …`. Positions below `consumed` have been taken by the reader, those below `committed`
are readable, and any position up to `consumed + capacity` may be written, also ahead of
`committed`. `written p` is the element last written at position `p`, if any.

The queue is what a reader may rely on: a read at `offset` returns elements that agree with
`written` from `consumed + offset` on (`Agrees`). A position committed without being written has
no promised element.
-/

namespace Libjingle.Lib

variable {α : Type}

/-- The abstract queue. -/
structure StreamQueue (α : Type) where
  capacity : Nat
  consumed : Nat
  committed : Nat
  written : Nat → Option α

namespace StreamQueue

/-- Nothing written, nothing readable. -/
def empty (capacity : Nat) : StreamQueue α := ⟨capacity, 0, 0, fun _ => none⟩

/-- The number of readable elements. -/
def length (q : StreamQueue α) : Nat := q.committed - q.consumed

/-- Write `n` elements `offset` places past the committed ones, as many as fit. -/
def putAt (q : StreamQueue α) (src : Nat → α) (n offset : Nat) : StreamQueue α :=
  { q with
    written := memcpy q.written (q.committed + offset) (fun i => some (src i))
      (min n (q.capacity - (q.length + offset))) }

/-- Make `n` more positions readable. -/
def commit (q : StreamQueue α) (n : Nat) : StreamQueue α := { q with committed := q.committed + n }

/-- Write and commit, as many elements as fit. -/
def put (q : StreamQueue α) (src : Nat → α) (n : Nat) : StreamQueue α :=
  (q.putAt src n 0).commit (min n (q.capacity - q.length))

/-- Take `n` readable elements. -/
def drop (q : StreamQueue α) (n : Nat) : StreamQueue α := { q with consumed := q.consumed + n }

/-- Change the capacity if the readable elements fit; what was written ahead is lost unless the
capacity stays the same. -/
def resize (q : StreamQueue α) (size : Nat) : StreamQueue α :=
  if q.length ≤ size ∧ size ≠ q.capacity then
    { q with
      capacity := size
      written := fun p => if p < q.committed then q.written p else none }
  else q

/-- The elements `out` may be read at `offset`. -/
def Agrees (q : StreamQueue α) (offset : Nat) (out : List α) : Prop :=
  ∀ i v, i < out.length → q.written (q.consumed + offset + i) = some v → out[i]? = some v

/-- The window `slot` over positions from `consumed` on holds what was written. -/
def Holds (q : StreamQueue α) (slot : Nat → α) : Prop :=
  ∀ i v, i < q.capacity → q.written (q.consumed + i) = some v → slot i = v

theorem holds_empty (capacity : Nat) (slot : Nat → α) : (empty capacity).Holds slot :=
  fun _ _ _ h => absurd h (by simp [empty])

variable {q : StreamQueue α} {slot : Nat → α} {offset n : Nat}

theorem Holds.agrees (h : q.Holds slot)
    (hn : offset + n ≤ q.capacity) : q.Agrees offset (fetch (fun i => slot (offset + i)) n) := by
  intro i v hi hv
  rw [fetch_length] at hi
  rw [getElem?_fetch hi, h (offset + i) v (by omega) (by rwa [← Nat.add_assoc])]

variable {slot' : Nat → α}

theorem Holds.putAt (h : q.Holds slot) (hle : q.consumed ≤ q.committed) {src : Nat → α}
    (hs : ∀ i, i < q.capacity → slot' i =
      if q.length + offset ≤ i ∧ i < q.length + offset + min n (q.capacity - (q.length + offset))
      then src (i - (q.length + offset)) else slot i) : (q.putAt src n offset).Holds slot' := by
  intro i v hi hv
  simp only [StreamQueue.putAt, memcpy] at hi hv
  have hlen : q.length = q.committed - q.consumed := rfl
  rw [hs i hi]
  split at hv
  · rename_i hin
    rw [if_pos (by omega)]
    rw [← Option.some.inj hv]
    congr 1
    omega
  · rename_i hin
    rw [if_neg (by omega)]
    exact h i v hi hv

theorem Holds.commit (h : q.Holds slot) (n : Nat) : (q.commit n).Holds slot := h

theorem Holds.drop (h : q.Holds slot)
    (hahead : ∀ p, q.consumed + q.capacity ≤ p → q.written p = none)
    (hs : ∀ i, slot' i = slot (n + i)) : (q.drop n).Holds slot' := by
  intro i v hi hv
  simp only [StreamQueue.drop] at hi hv
  rw [hs i]
  by_cases hin : n + i < q.capacity
  · exact h (n + i) v hin (by rwa [← Nat.add_assoc])
  · rw [hahead _ (by omega)] at hv
    exact absurd hv (by simp)

end StreamQueue

end Libjingle.Lib
