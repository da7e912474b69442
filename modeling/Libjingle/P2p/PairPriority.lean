import Mathlib.Data.Prod.Lex
import Libjingle.P2p.Connection

/-!
# Pair priorities (`port.cc`, `candidate.h`; RFC 5245, 5.7.2)

The two agents of a session hold a connection each for a pair of candidates. What is local to one is
remote to the other, and `priority` has to come to the same value on both sides.

## Results

* **`ranksPairs_iff`**: two pairs have the priorities of the RFC, the same on both sides and in the
  order it is made for, exactly if no candidate has a priority of `2 ^ 31` or more.
-/

namespace Libjingle

variable {c c' : Connection} {g d g' d' : U32}

/-! ## Pairs -/

/-- The connection of either agent for a pair of candidates: `g` is the priority of the candidate
of the controlling agent, `d` that of the controlled one. -/
def Connection.Pairs (c : Connection) (g d : U32) : Prop :=
  c.role = .controlling ∧ c.localPriority = g ∧ c.remotePriority = d ∨
    c.role = .controlled ∧ c.remotePriority = g ∧ c.localPriority = d

/-- `G>D?1:0`. -/
def pairBit (g d : U32) : Nat := if g > d then 1 else 0

/-- `2^32*MIN(G,D) + 2*MAX(G,D) + (G>D?1:0)`. -/
def pairFormula (g d : U32) : Nat :=
  2 ^ 32 * min g.toNat d.toNat + 2 * max g.toNat d.toNat + pairBit g d

/-- What the formula orders the pairs by: the lower priority, the higher one, and whose it is. -/
def pairRank (g d : U32) : ℕ ×ₗ ℕ ×ₗ ℕ :=
  toLex (min g.toNat d.toNat, toLex (max g.toNat d.toNat, pairBit g d))

/-! ## The value of `priority` -/

theorem pairBit_le (g d : U32) : pairBit g d ≤ 1 := by
  unfold pairBit
  split <;> omega

/-- Both agents compute one value: the higher half is the lower priority, and the lower half is
twice the higher priority with the bit, without what does not fit. -/
theorem priority_toNat (h : c.Pairs g d) : c.priority.toNat =
    2 ^ 32 * min g.toNat d.toNat + (2 * max g.toNat d.toNat + pairBit g d) % 2 ^ 32 := by
  have hvalue : c.priority = ((umin g d).setWidth 64 <<< 32) +
      (2 * umax g d + if g > d then 1 else 0).setWidth 64 := by
    unfold Connection.priority
    obtain ⟨hrole, rfl, rfl⟩ | ⟨hrole, rfl, rfl⟩ := h
    · rw [hrole]
    · rw [hrole]
  have hbit : (if g > d then (1 : U32) else 0).toNat = pairBit g d := by
    unfold pairBit
    split <;> rfl
  have hmin := umin_toNat g d
  have hlow : (2 * umax g d + if g > d then 1 else 0).toNat =
      (2 * max g.toNat d.toNat + pairBit g d) % 2 ^ 32 := by
    rw [BitVec.toNat_add, BitVec.toNat_mul, hbit, umax_toNat]
    exact Nat.mod_add_mod _ _ _
  rw [hvalue, BitVec.toNat_add, BitVec.toNat_shiftLeft, BitVec.toNat_setWidth,
    BitVec.toNat_setWidth, hlow, hmin, Nat.shiftLeft_eq]
  omega

/-- **Both agents agree on a pair**, whatever its priorities. -/
theorem priority_agreed (h : c.Pairs g d) (h' : c'.Pairs g d) : c.priority = c'.priority :=
  BitVec.eq_of_toNat_eq ((priority_toNat h).trans (priority_toNat h').symm)

theorem priority_formula_iff (h : c.Pairs g d) :
    c.priority.toNat = pairFormula g d ↔ g.toNat < 2 ^ 31 ∧ d.toNat < 2 ^ 31 := by
  have hbit := pairBit_le g d
  have hlow := Nat.mod_lt (2 * max g.toNat d.toNat + pairBit g d) (show 0 < 2 ^ 32 by decide)
  rw [priority_toNat h, pairFormula]
  constructor
  · intro heq
    omega
  · intro hlt
    rw [Nat.mod_eq_of_lt (by omega), Nat.add_assoc]

theorem exists_pairs (g d : U32) : ∃ c : Connection, c.Pairs g d :=
  ⟨⟨0, .rfc5245, .controlling, 0, g, d, 0, .init, .init, false, false, 0, [], 0, 0, [], 0⟩,
    .inl ⟨rfl, rfl, rfl⟩⟩

theorem pairFormula_lt_iff (hg : g.toNat < 2 ^ 31) (hd : d.toNat < 2 ^ 31)
    (hg' : g'.toNat < 2 ^ 31) (hd' : d'.toNat < 2 ^ 31) :
    pairFormula g d < pairFormula g' d' ↔ pairRank g d < pairRank g' d' := by
  have := pairBit_le g d
  have := pairBit_le g' d'
  unfold pairFormula pairRank
  rw [Prod.Lex.toLex_lt_toLex, Prod.Lex.toLex_lt_toLex]
  dsimp only
  omega

/-! ## Ranks -/

/-- The priorities of two pairs are what the RFC says: by the formula, the same for both agents, and
in the order of the ranks. -/
structure RanksPairs (g d g' d' : U32) : Prop where
  formula : ∀ c : Connection, c.Pairs g d → c.priority.toNat = pairFormula g d
  formula' : ∀ c : Connection, c.Pairs g' d' → c.priority.toNat = pairFormula g' d'
  agreed : ∀ c c' : Connection, c.Pairs g d → c'.Pairs g d → c.priority = c'.priority
  order : ∀ c c' : Connection, c.Pairs g d → c'.Pairs g' d' →
    (c.priority < c'.priority ↔ pairRank g d < pairRank g' d')

theorem ranksPairs_of_lt (hg : g.toNat < 2 ^ 31) (hd : d.toNat < 2 ^ 31)
    (hg' : g'.toNat < 2 ^ 31) (hd' : d'.toNat < 2 ^ 31) : RanksPairs g d g' d' where
  formula _ h := (priority_formula_iff h).mpr ⟨hg, hd⟩
  formula' _ h := (priority_formula_iff h).mpr ⟨hg', hd'⟩
  agreed _ _ h h' := priority_agreed h h'
  order c c' h h' := by
    rw [BitVec.lt_def, (priority_formula_iff h).mpr ⟨hg, hd⟩,
      (priority_formula_iff h').mpr ⟨hg', hd'⟩]
    exact pairFormula_lt_iff hg hd hg' hd'

/-- A priority of `2 ^ 31` or more loses a bit. -/
theorem RanksPairs.lt (h : RanksPairs g d g' d') :
    (g.toNat < 2 ^ 31 ∧ d.toNat < 2 ^ 31) ∧ g'.toNat < 2 ^ 31 ∧ d'.toNat < 2 ^ 31 := by
  obtain ⟨c, hc⟩ := exists_pairs g d
  obtain ⟨c', hc'⟩ := exists_pairs g' d'
  exact ⟨(priority_formula_iff hc).mp (h.formula c hc),
    (priority_formula_iff hc').mp (h.formula' c' hc')⟩

/-- **Pair priorities are those of the RFC** exactly if the priorities of all candidates are below
`2 ^ 31`. -/
theorem ranksPairs_iff (g d g' d' : U32) : RanksPairs g d g' d' ↔
    (g.toNat < 2 ^ 31 ∧ d.toNat < 2 ^ 31) ∧ g'.toNat < 2 ^ 31 ∧ d'.toNat < 2 ^ 31 :=
  ⟨RanksPairs.lt, fun h => ranksPairs_of_lt h.1.1 h.1.2 h.2.1 h.2.2⟩

/-- A remote candidate with the priority `2 ^ 31` and a host candidate: twice the higher priority
is lost. -/
theorem high_priority_lost : ¬ RanksPairs 0x7E001EFF 0x80000000 0x7E001EFF 0x7E001EFF := by
  intro h
  exact absurd h.lt.1.2 (by decide)

end Libjingle
