import Libjingle.Lib.WeakOrder
import Libjingle.P2p.Connection

/-!
# The order on connections (`p2ptransportchannel.cc`)

`std::stable_sort` asks `ConnectionCompare` to be a strict weak order. Write states and priorities
are compared as they are, and so are the round trip times. In between it prefers the younger
generation: it takes the generations of the remote candidate and of the port together, in 32 bits,
and reads the difference of two such sums as an `int`.

## Results

* **`connectionCompare_weakOrder_iff`**: the comparison is a strict weak order exactly if the
  generations of rivals span less than half of the range, or lie opposite each other.
-/

namespace Libjingle

open Lib

variable {a b : Connection} {S : Set Connection}

/-- The generation that `CompareConnectionCandidates` looks at. -/
def Connection.generation (c : Connection) : U32 := c.remoteGeneration + c.portGeneration

/-- What is compared before the generation: a lower write state is better, and a higher priority. -/
def Connection.standing (c : Connection) : ℕ ×ₗ ℤ :=
  toLex (c.writeState.value, -(c.priority.toNat : ℤ))

/-- The connections in `S` with the write state and the priority of `a`. -/
def rivals (S : Set Connection) (a : Connection) : Set Connection :=
  {b ∈ S | b.writeState = a.writeState ∧ b.priority = a.priority}

/-- The generations in `S` span less than half of the range, from an oldest one on. -/
def GenerationsSpan (S : Set Connection) : Prop :=
  ∃ o ∈ S, ∀ b ∈ S, (b.generation - o.generation).toNat < 2 ^ 31

/-- Connections in `S` of one generation have one round trip time, and generations that differ lie
opposite each other. -/
def GenerationsOpposite (S : Set Connection) : Prop :=
  ∀ b ∈ S, ∀ c ∈ S, b.generation = c.generation ∧ b.rtt = c.rtt ∨
    (b.generation - c.generation).toNat = 2 ^ 31

/-! ## The comparison -/

theorem WriteState.value_inj {x y : WriteState} (h : x.value = y.value) : x = y := by
  cases x <;> cases y <;> first | rfl | cases h

theorem standing_lt_iff : a.standing < b.standing ↔ a.writeState.value < b.writeState.value ∨
    a.writeState = b.writeState ∧ b.priority < a.priority := by
  unfold Connection.standing
  rw [Prod.Lex.toLex_lt_toLex, BitVec.lt_def]
  dsimp only
  constructor
  · rintro (h | ⟨h, hp⟩)
    · exact Or.inl h
    · exact Or.inr ⟨WriteState.value_inj h, by omega⟩
  · rintro (h | ⟨h, hp⟩)
    · exact Or.inl h
    · exact Or.inr ⟨by rw [h], by omega⟩

theorem standing_eq_iff :
    a.standing = b.standing ↔ a.writeState = b.writeState ∧ a.priority = b.priority := by
  unfold Connection.standing
  constructor
  · intro h
    obtain ⟨hw, hp⟩ := Prod.ext_iff.mp (toLex.injective h)
    exact ⟨WriteState.value_inj hw, BitVec.eq_of_toNat_eq (by dsimp only at hp; omega)⟩
  · rintro ⟨hw, hp⟩
    rw [hw, hp]

theorem connectionCompare_of_standing_lt (h : a.standing < b.standing) :
    connectionCompare a b = true := by
  have hcmp : compareConnections a b = 1 := by
    unfold compareConnections compareConnectionCandidates
    rcases standing_lt_iff.mp h with hw | ⟨hw, hp⟩
    · rw [if_pos hw]
    · rw [hw, if_neg (lt_irrefl _), if_neg (lt_irrefl _), if_pos hp]
  unfold connectionCompare
  rw [hcmp]
  rfl

theorem connectionCompare_of_lt_standing (h : b.standing < a.standing) :
    ¬ connectionCompare a b = true := by
  have hcmp : compareConnections a b = -1 := by
    unfold compareConnections compareConnectionCandidates
    rcases standing_lt_iff.mp h with hw | ⟨hw, hp⟩
    · rw [if_neg (by omega), if_pos hw]
    · rw [hw, if_neg (lt_irrefl _), if_neg (lt_irrefl _), if_neg (BitVec.lt_asymm hp), if_pos hp]
  unfold connectionCompare
  rw [hcmp]
  exact Bool.false_ne_true

theorem compareConnections_of_rivals (hw : a.writeState = b.writeState)
    (hp : a.priority = b.priority) :
    compareConnections a b = (a.generation - b.generation).toInt := by
  unfold compareConnections compareConnectionCandidates
  rw [hw, hp, if_neg (lt_irrefl _), if_neg (lt_irrefl _), if_neg (BitVec.lt_irrefl _),
    if_neg (BitVec.lt_irrefl _)]
  rfl

theorem connectionCompare_of_rivals (hw : a.writeState = b.writeState)
    (hp : a.priority = b.priority) : connectionCompare a b = true ↔
      SerialBefore Connection.generation (fun c => c.rtt.toNat) a b := by
  unfold connectionCompare SerialBefore
  rw [compareConnections_of_rivals hw hp, ← distance_eq_zero]
  have hcond := BitVec.toInt_eq_toNat_cond (a.generation - b.generation)
  have hlt := (a.generation - b.generation).isLt
  dsimp only
  split
  · rename_i hpos
    exact iff_of_true rfl (Or.inl hpos)
  split
  · rename_i hpos hneg
    refine iff_of_false (by decide) ?_
    rintro (h | ⟨h, -⟩)
    · exact hpos h
    · omega
  · rename_i hpos hneg
    have hzero : (a.generation - b.generation).toNat = 0 := by omega
    rw [decide_eq_true_iff, BitVec.lt_def]
    exact ⟨fun h => Or.inr ⟨hzero, h⟩, fun h => h.elim (fun h => absurd h hpos) And.right⟩

/-! ## Sets of connections -/

theorem sameKey_standing (S : Set Connection) (a : Connection) :
    sameKey Connection.standing S a = rivals S a := by
  ext b
  exact and_congr_right fun _ => standing_eq_iff

theorem spans_iff : Spans Connection.generation S ↔ GenerationsSpan S := by
  unfold Spans GenerationsSpan
  refine exists_congr fun o => and_congr_right fun _ => forall₂_congr fun b _ => ?_
  omega

theorem level_iff :
    Level Connection.generation (fun c => c.rtt.toNat) S ↔ GenerationsOpposite S := by
  unfold Level GenerationsOpposite
  refine forall₂_congr fun b _ => forall₂_congr fun c _ => ?_
  refine or_congr (and_congr_right fun _ => BitVec.toNat_inj) ?_
  omega

theorem rivals_weakOrder_iff (ha : a ∈ S) :
    WeakOrderOn (fun a b => connectionCompare a b = true) (rivals S a) ↔
      GenerationsSpan (rivals S a) ∨ GenerationsOpposite (rivals S a) := by
  have hserial : ∀ b ∈ rivals S a, ∀ c ∈ rivals S a, connectionCompare b c = true ↔
      SerialBefore Connection.generation (fun c => c.rtt.toNat) b c := fun b hb c hc =>
    connectionCompare_of_rivals (hb.2.1.trans hc.2.1.symm) (hb.2.2.trans hc.2.2.symm)
  have hself : a ∈ rivals S a := ⟨ha, rfl, rfl⟩
  rw [weakOrderOn_congr hserial, weakOrderOn_serial_iff hself, spans_iff, level_iff]

/-- **When `ConnectionCompare` is a strict weak order**: exactly if among the connections that
agree in write state and priority the generations span less than half of the range, or lie opposite
each other with nothing else to decide. -/
theorem connectionCompare_weakOrder_iff (S : Set Connection) :
    WeakOrderOn (fun a b => connectionCompare a b = true) S ↔
      ∀ a ∈ S, GenerationsSpan (rivals S a) ∨ GenerationsOpposite (rivals S a) := by
  rw [weakOrderOn_key_iff (fun _ _ => connectionCompare_of_standing_lt)
    (fun _ _ => connectionCompare_of_lt_standing)]
  refine forall₂_congr fun a ha => ?_
  rw [sameKey_standing, rivals_weakOrder_iff ha]

/-- A connection whose remote candidate has the generation `n`. -/
def ofGeneration (n : U32) : Connection :=
  ⟨0, .rfc5245, .controlling, 0, 100, 100, n, .readable, .writable, false, false, 100, [], 0, 0, [],
    0⟩

theorem generations_in_a_ring : ¬ WeakOrderOn (fun a b => connectionCompare a b = true)
    {ofGeneration 0, ofGeneration 0x60000000, ofGeneration 0xC0000000} := by
  intro h
  have hring := h.trans (ofGeneration 0xC0000000) (by simp) (ofGeneration 0x60000000) (by simp)
    (ofGeneration 0) (by simp) (by decide) (by decide)
  exact absurd hring (by decide)

end Libjingle
