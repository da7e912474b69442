import Mathlib.Data.List.Basic
import Mathlib.Tactic.Ring

/-!
# Raw memory: blocks behind a pointer, and rings laid over a block

A pointer is the function of what lies behind it: `p i` is the element `i` places on. Nothing here
knows an allocation's size. The developments that use these blocks carry their own bounds.

* A ring of `cap` slots lies over the block `buf`, starting at slot `start`: its element `i` is
  `buf ((start + i) % cap)`. `ringFetch` and `ringStore` move a run of elements out of and into a
  ring in at most two pieces, cut where the block ends.
-/

namespace Libjingle.Lib

variable {α : Type}

/-! ## Blocks -/

/-- `memcpy (dst + pos) src n`. -/
def memcpy (dst : Nat → α) (pos : Nat) (src : Nat → α) (n : Nat) : Nat → α :=
  fun i => if pos ≤ i ∧ i < pos + n then src (i - pos) else dst i

/-- The first `n` elements behind `p`. -/
def fetch (p : Nat → α) (n : Nat) : List α := (List.range n).map p

@[simp] theorem fetch_length (p : Nat → α) (n : Nat) : (fetch p n).length = n := by
  simp [fetch]

@[simp] theorem fetch_zero (p : Nat → α) : fetch p 0 = [] := rfl

@[simp] theorem getElem_fetch (p : Nat → α) (n i : Nat) (h : i < (fetch p n).length) :
    (fetch p n)[i] = p i := by
  simp [fetch]

variable {p : Nat → α}

theorem getElem?_fetch {n i : Nat} (h : i < n) : (fetch p n)[i]? = some (p i) := by
  rw [List.getElem?_eq_getElem (by simpa using h), getElem_fetch]

variable {n : Nat}

theorem fetch_congr {p q : Nat → α} (h : ∀ i, i < n → p i = q i) : fetch p n = fetch q n :=
  List.map_congr_left fun i hi => h i (List.mem_range.mp hi)

theorem fetch_append (p : Nat → α) (m n : Nat) :
    fetch p m ++ fetch (fun i => p (m + i)) n = fetch p (m + n) := by
  simp [fetch, List.range_add, List.map_map, Function.comp_def]

/-- Stretches of one block, end to end. -/
theorem fetch_chain (p : Nat → α) {a b c : Nat} (hab : a ≤ b) (hbc : b ≤ c) :
    fetch (fun i => p (a + i)) (b - a) ++ fetch (fun i => p (b + i)) (c - b) =
      fetch (fun i => p (a + i)) (c - a) := by
  have hshift : fetch (fun i => p (b + i)) (c - b) =
      fetch (fun i => p (a + (b - a + i))) (c - b) := by
    refine fetch_congr fun i _ => ?_
    congr 1
    omega
  rw [hshift, fetch_append (fun i => p (a + i))]
  congr 1
  omega

/-- A block that agrees with a list reads the list back. -/
theorem fetch_eq_of_getElem? {l : List α} (hn : l.length = n)
    (h : ∀ i, i < n → l[i]? = some (p i)) : fetch p n = l := by
  refine List.ext_getElem? fun i => ?_
  by_cases hi : i < n
  · rw [getElem?_fetch hi, h i hi]
  · rw [List.getElem?_eq_none (by simpa using hi), List.getElem?_eq_none (by omega)]

/-- What has been copied to the start of a block. -/
theorem fetch_memcpy_start (p src : Nat → α) (n : Nat) :
    fetch (memcpy p 0 src n) n = fetch src n :=
  fetch_congr fun i hi => by rw [memcpy, if_pos (by omega), Nat.sub_zero]

/-- What has been copied behind a stretch of a block. -/
theorem fetch_memcpy_behind (p src : Nat → α) {a e : Nat} (h : a ≤ e) (n : Nat) :
    fetch (fun i => memcpy p e src n (a + i)) (e - a + n) =
      fetch (fun i => p (a + i)) (e - a) ++ fetch src n := by
  rw [← fetch_append]
  congr 1
  · exact fetch_congr fun i hi => by rw [memcpy, if_neg (by omega)]
  · refine fetch_congr fun i hi => ?_
    rw [memcpy, if_pos (by omega)]
    congr 1
    omega

theorem fetch_getD (l : List α) (d : α) : fetch (fun i => l.getD i d) l.length = l :=
  fetch_eq_of_getElem? rfl fun i hi => by
    rw [List.getD_eq_getElem?_getD, List.getElem?_eq_getElem hi]
    rfl

theorem fetch_take (p : Nat → α) {m n : Nat} (h : m ≤ n) : (fetch p n).take m = fetch p m := by
  rw [← Nat.add_sub_cancel' h, ← fetch_append]
  exact List.take_left' (fetch_length p m)

theorem fetch_drop (p : Nat → α) {m n : Nat} (h : m ≤ n) :
    (fetch p n).drop m = fetch (fun i => p (m + i)) (n - m) := by
  obtain ⟨k, rfl⟩ := Nat.exists_eq_add_of_le h
  rw [← fetch_append, List.drop_left' (fetch_length p m), Nat.add_sub_cancel_left]

/-! ## Rings -/

/-- A ring index wraps at most once. -/
theorem ring_index {start cap i : Nat} (hs : start < cap) (hi : i < cap) :
    (start + i < cap ∧ (start + i) % cap = start + i) ∨
      (cap ≤ start + i ∧ (start + i) % cap = start + i - cap) := by
  by_cases h : start + i < cap
  · exact Or.inl ⟨h, Nat.mod_eq_of_lt h⟩
  · refine Or.inr ⟨by omega, ?_⟩
    rw [Nat.mod_eq_sub_mod (by omega), Nat.mod_eq_of_lt (by omega)]

/-- `n` elements of the ring from its slot `start` on, in two pieces. -/
def ringFetch (buf : Nat → α) (cap start n : Nat) : List α :=
  let tail := min n (cap - start)
  fetch (fun i => buf (start + i)) tail ++ fetch buf (n - tail)

/-- `n` elements behind `src` stored into the ring from its slot `start` on, in two pieces. -/
def ringStore (buf : Nat → α) (cap start : Nat) (src : Nat → α) (n : Nat) : Nat → α :=
  let tail := min n (cap - start)
  memcpy (memcpy buf start src tail) 0 (fun i => src (tail + i)) (n - tail)

variable {cap start : Nat}

theorem ringFetch_eq (buf : Nat → α) (hs : start < cap) (hn : n ≤ cap) :
    ringFetch buf cap start n = fetch (fun i => buf ((start + i) % cap)) n := by
  have hsplit : n = min n (cap - start) + (n - min n (cap - start)) := by omega
  conv_rhs => rw [hsplit]
  rw [← fetch_append]
  simp only [ringFetch]
  congr 1
  · refine fetch_congr fun i hi => ?_
    rw [Nat.mod_eq_of_lt (by omega)]
  · refine fetch_congr fun i hi => ?_
    -- the second piece is past the block's end, so the first one filled it up to there
    have hmin : min n (cap - start) = cap - start := by omega
    rcases ring_index hs (i := min n (cap - start) + i) (by omega) with ⟨h, -⟩ | ⟨_, h⟩
    · omega
    · rw [h]
      congr 1
      omega

theorem ringStore_ring (buf : Nat → α) (src : Nat → α) (hs : start < cap)
    (hn : n ≤ cap) {i : Nat} (hi : i < cap) :
    ringStore buf cap start src n ((start + i) % cap) =
      if i < n then src i else buf ((start + i) % cap) := by
  unfold ringStore memcpy
  rcases ring_index hs hi with ⟨h, e⟩ | ⟨h, e⟩ <;> rw [e] <;> simp only [Nat.zero_le, true_and]
  · rw [if_neg (by omega)]
    by_cases hin : i < n
    · rw [if_pos (by omega), if_pos hin]
      congr 1
      omega
    · rw [if_neg (by omega), if_neg hin]
  · by_cases hin : i < n
    · rw [if_pos (by omega), if_pos hin]
      congr 1
      omega
    · rw [if_neg (by omega), if_neg (by omega), if_neg hin]

/-- The store looks at the `n` elements only. -/
theorem ringStore_congr {buf : Nat → α} {src src' : Nat → α} (h : ∀ k < n, src' k = src k) :
    ringStore buf cap start src' n = ringStore buf cap start src n := by
  unfold ringStore memcpy
  funext k
  simp only
  split
  · rename_i hin
    exact h _ (by omega)
  split
  · rename_i hin
    exact h _ (by omega)
  · rfl

/-- Starting a ring `k` slots on shifts its elements by `k`. -/
theorem ring_shift (cap start k i : Nat) :
    ((start + k) % cap + i) % cap = (start + (k + i)) % cap := by
  rw [Nat.mod_add_mod, Nat.add_assoc]

end Libjingle.Lib
