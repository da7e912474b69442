import Libjingle.Lib.Memory

/-!
# Programs that read memory

A `Reading α β` reads elements of `α` behind a pointer and returns a `β`. Its run gives the value
and the places read. The places read determine the run (`footprint`), so that no program can be
built that reads a place and does not say so.
-/

namespace Libjingle.Lib

/-- A program that reads elements of `α` and returns a `β`: the value and the places read. -/
structure Reading (α β : Type) where
  run : (Nat → α) → β × List Nat
  /-- Memory that agrees on the places read gives the same run. -/
  footprint : ∀ p q, (∀ i ∈ (run p).2, q i = p i) → run q = run p

namespace Reading

variable {α β γ : Type} {m : Reading α β} {f : β → Reading α γ} {p q : Nat → α} {n : Nat}

/-- What the program returns. -/
def value (m : Reading α β) (p : Nat → α) : β := (m.run p).1

/-- The places it reads. -/
def reads (m : Reading α β) (p : Nat → α) : List Nat := (m.run p).2

/-- What a program does not read has no influence. -/
theorem value_congr (h : ∀ i ∈ m.reads p, q i = p i) : m.value q = m.value p :=
  congrArg Prod.fst (m.footprint p q h)

theorem reads_congr (h : ∀ i ∈ m.reads p, q i = p i) : m.reads q = m.reads p :=
  congrArg Prod.snd (m.footprint p q h)

instance : Monad (Reading α) where
  pure b := ⟨fun _ => (b, []), fun _ _ _ => rfl⟩
  bind m f :=
    { run := fun p =>
        (((f (m.value p)).value p), m.reads p ++ (f (m.value p)).reads p)
      footprint := fun p q h => by
        have hm : ∀ i ∈ m.reads p, q i = p i := fun i hi => h i (List.mem_append_left _ hi)
        have hf : ∀ i ∈ (f (m.value p)).reads p, q i = p i :=
          fun i hi => h i (List.mem_append_right _ hi)
        rw [value_congr hm, reads_congr hm, value_congr hf, reads_congr hf] }

/-- The element at `i`. -/
def get (i : Nat) : Reading α α := ⟨fun p => (p i, [i]), fun _ _ h => by rw [h i (by simp)]⟩

/-- The `n` elements from `i` on. -/
def block (i n : Nat) : Reading α (List α) :=
  ⟨fun p => (fetch (fun k => p (i + k)) n, (List.range n).map (i + ·)), fun p q h => by
    rw [fetch_congr fun k hk => h (i + k) (List.mem_map.mpr ⟨k, List.mem_range.mpr hk, rfl⟩)]⟩

/-! ## Values -/

@[simp] theorem value_pure (b : β) : (pure b : Reading α β).value p = b := rfl

@[simp] theorem value_bind : (m >>= f).value p = (f (m.value p)).value p := rfl

@[simp] theorem value_get (i : Nat) : (get i).value p = p i := rfl

@[simp] theorem value_block (i n : Nat) : (block i n).value p = fetch (fun k => p (i + k)) n := rfl

/-! ## Places -/

@[simp] theorem reads_pure (b : β) : (pure b : Reading α β).reads p = [] := rfl

@[simp] theorem reads_bind :
    (m >>= f).reads p = m.reads p ++ (f (m.value p)).reads p := rfl

@[simp] theorem reads_get (i : Nat) : (get i).reads p = [i] := rfl

@[simp] theorem mem_reads_block {i n k : Nat} :
    k ∈ (block i n).reads p ↔ i ≤ k ∧ k < i + n := by
  show k ∈ (List.range n).map (i + ·) ↔ _
  rw [List.mem_map]
  constructor
  · rintro ⟨j, hj, rfl⟩
    have := List.mem_range.mp hj
    omega
  · rintro ⟨hle, hlt⟩
    exact ⟨k - i, List.mem_range.mpr (by omega), by omega⟩

/-- Run on `p`, the program reads only the first `n` places. -/
def Within (m : Reading α β) (p : Nat → α) (n : Nat) : Prop := ∀ i ∈ m.reads p, i < n

theorem Within.pure (b : β) : Within (pure b : Reading α β) p n := List.forall_mem_nil _

theorem Within.get {i : Nat} (h : i < n) : Within (get i) p n := by
  intro k hk
  obtain rfl := List.mem_singleton.mp hk
  exact h

theorem Within.block {i k : Nat} (h : i + k ≤ n) : Within (block i k) p n := by
  intro j hj
  have := mem_reads_block.mp hj
  omega

theorem within_bind : Within (m >>= f) p n ↔ Within m p n ∧ Within (f (m.value p)) p n := by
  unfold Within
  rw [reads_bind, List.forall_mem_append]

theorem Within.bind (hm : Within m p n) (hf : Within (f (m.value p)) p n) :
    Within (m >>= f) p n :=
  within_bind.mpr ⟨hm, hf⟩

end Reading

end Libjingle.Lib
