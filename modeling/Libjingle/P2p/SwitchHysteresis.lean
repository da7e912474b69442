import Libjingle.P2p.ConnectionOrder
import Libjingle.P2p.SortConnections

/-!
# When a sort switches (`p2ptransportchannel.cc`)

`kMinImprovement` is there to keep a channel on its best connection unless another one is faster by
10 ms. `ShouldSwitch` adds it to the round trip time of the connection in use where it should
subtract it.

## Results

* **`hysteretic_iff`**: a channel keeps to the 10 ms exactly if no connection is tied with the best
  one, can come first, and is neither that much faster nor that much slower.
* `leader_displaces`: where the comparison is a strict weak order, the 10 ms change nothing.
-/

namespace Libjingle.Selector

open Lib

variable {s : Selector} {now : U32} {l : List Nat} {b t : Nat}

/-! ## Sorting -/

/-- A connection that may come first. -/
def MayLead (s : Selector) (t : Nat) : Prop := s.Ordered → Leads s.before s.connections t

theorem Sorts.mayLead (h : s.Sorts l) (ht : l.head? = some t) :
    t ∈ s.connections ∧ s.MayLead t := by
  refine ⟨h.perm.subset (List.mem_of_head? ht), fun hord => ?_⟩
  rw [h.stable hord] at ht
  exact (head_insertionSort hord).mp ht

theorem MayLead.sorts (h : s.MayLead t) (ht : t ∈ s.connections) :
    ∃ l, s.Sorts l ∧ l.head? = some t := by
  by_cases hord : s.Ordered
  · exact ⟨_, ⟨List.perm_insertionSort _ _, fun _ => rfl⟩, (head_insertionSort hord).mpr (h hord)⟩
  · exact ⟨_, sorts_cons hord ht, rfl⟩

/-! ## Switching -/

/-- Equal write state and equal candidate preference. -/
def Tied (s : Selector) (i j : Nat) : Prop := compareConnections (s.conn i) (s.conn j) = 0

theorem sortConnectionsAs_best (s : Selector) (now : U32) (l : List Nat) :
    (s.sortConnectionsAs now l).best =
      if shouldSwitch (s.upToDate now).conn s.best l.head? then l.head? else s.best := by
  have hprune := prunes_networks { s.upToDate now with connections := l }.switchToTop
    (s.updateConnectionStates now).networks
  rw [← (keeps_upToDate s now).best]
  exact ((handleStates_frame _).2.1.trans hprune.best).trans (switchToTop_spec _).1

/-- **When a channel switches between tied connections**: unless the new one is more than 10 ms
slower. -/
theorem switch_iff (htied : s.Tied b t) (hne : t ≠ b) :
    shouldSwitch s.conn (some b) (some t) = true ↔
      (s.conn t).rtt.toNat ≤ (s.conn b).rtt.toNat + kMinImprovement := by
  unfold shouldSwitch
  dsimp only
  rw [if_neg (Ne.symm hne), htied, if_neg (lt_irrefl _), if_neg (lt_irrefl _), decide_eq_true_iff]

theorem upToDate_rtt (s : Selector) (now : U32) (i : Nat) :
    ((s.upToDate now).conn i).rtt = (s.conn i).rtt := by
  have h : ∀ (l : List Nat) (s : Selector),
      ((l.foldl (fun s i => s.update i fun c => c.updateState now) s).conn i).rtt =
        (s.conn i).rtt := by
    intro l
    induction l with
    | nil => exact fun _ => rfl
    | cons j l ih =>
      intro s
      refine (ih _).trans ?_
      show (Function.update s.conn j _ i).rtt = _
      by_cases hi : i = j
      · obtain ⟨r, w, n, hupdate⟩ := (s.conn j).updateState_eq now
        rw [hi, Function.update_self]
        show ((s.conn j).updateState now).rtt = _
        rw [hupdate]
      · rw [Function.update_of_ne hi]
  exact h s.connections s

/-- **The hysteresis**: however the sort goes, the channel leaves its best connection for one that
is tied with it only if that is faster by `kMinImprovement`. -/
def Hysteretic (s : Selector) (now : U32) : Prop :=
  ∀ l, (s.upToDate now).Sorts l → ∀ b ∈ s.best, b ∈ s.connections →
    ∀ t ∈ (s.sortConnectionsAs now l).best, t ≠ b → (s.upToDate now).Tied b t →
      (s.conn t).rtt.toNat + kMinImprovement ≤ (s.conn b).rtt.toNat

/-- **A channel is hysteretic** exactly if each connection that is tied with the best one and may
come first is faster by `kMinImprovement`, or slower by more than that. -/
theorem hysteretic_iff (s : Selector) (now : U32) : s.Hysteretic now ↔
    ∀ b ∈ s.best, b ∈ s.connections → ∀ t ∈ s.connections, t ≠ b → (s.upToDate now).Tied b t →
      (s.upToDate now).MayLead t →
        (s.conn t).rtt.toNat + kMinImprovement ≤ (s.conn b).rtt.toNat ∨
          (s.conn b).rtt.toNat + kMinImprovement < (s.conn t).rtt.toNat := by
  have hconns := (keeps_upToDate s now).connections
  constructor
  · intro h b hb hmem t ht hne htied hlead
    obtain ⟨l, hl, hhead⟩ := hlead.sorts (hconns ▸ ht)
    by_cases hswitch : shouldSwitch (s.upToDate now).conn (some b) (some t) = true
    · refine Or.inl (h l hl b hb hmem t ?_ hne htied)
      rw [sortConnectionsAs_best, hhead, Option.mem_def.mp hb, if_pos hswitch]
      rfl
    · rw [switch_iff htied hne, upToDate_rtt, upToDate_rtt] at hswitch
      exact Or.inr (not_le.mp hswitch)
  · intro h l hl b hb hmem t ht hne htied
    rw [sortConnectionsAs_best, Option.mem_def.mp hb] at ht
    split at ht
    · rename_i hswitch
      rw [Option.mem_def.mp ht, switch_iff htied hne, upToDate_rtt, upToDate_rtt] at hswitch
      obtain ⟨hin, hlead⟩ := hl.mayLead ht
      exact (h b hb hmem t (hconns ▸ hin) hne htied hlead).resolve_right (by omega)
    · exact absurd (Option.some.inj ht).symm hne

/-- Where the sort is a sort, a tied connection that comes first is never slower: the channel leaves
its best connection for it whatever the difference. -/
theorem leader_displaces (hord : (s.upToDate now).Ordered) (hl : (s.upToDate now).Sorts l)
    (hb : s.best = some b) (hmem : b ∈ s.connections) (hne : t ≠ b)
    (htied : (s.upToDate now).Tied b t)
    (hlead : Leads (s.upToDate now).before s.connections t) :
    (s.sortConnectionsAs now l).best = some t := by
  have hhead : l.head? = some t := by
    rw [hl.stable hord]
    exact (head_insertionSort hord).mpr ((keeps_upToDate s now).connections ▸ hlead)
  have hrtt : ¬ (s.conn b).rtt < (s.conn t).rtt := by
    have hfirst := hlead.first b hmem
    unfold before connectionCompare at hfirst
    rw [htied] at hfirst
    simpa [upToDate_rtt] using hfirst
  have hswitch : shouldSwitch (s.upToDate now).conn (some b) (some t) = true := by
    rw [switch_iff htied hne, upToDate_rtt, upToDate_rtt]
    rw [BitVec.lt_def] at hrtt
    omega
  rw [sortConnectionsAs_best, hhead, hb, if_pos hswitch]

/-- Two writable connections that are tied, the second one 1 ms faster than the one in use. -/
def sampleTie : Selector :=
  { sampleSelector with
    connections := [0, 1]
    conn := fun i => { sampleConnection 7 .writable 100 with rtt := if i = 0 then 100 else 99 } }

theorem sampleTie_ordered : (sampleTie.upToDate 6000).Ordered :=
  weakOrderOn_of_key (fun i => if i = 0 then 1 else 0) (by
    change ∀ a ∈ [0, 1], ∀ b ∈ [0, 1], _
    unfold before
    decide)

theorem displaced_for_little : (sampleTie.sortConnectionsAs 6000 [1, 0]).best = some 1 :=
  @leader_displaces _ _ _ 0 _ sampleTie_ordered ⟨by decide, fun _ => by decide⟩ rfl (by decide)
    (by decide) (by unfold Tied; decide) ⟨by decide, by decide, by decide⟩

theorem switch_for_little : ¬ sampleTie.Hysteretic 6000 := by
  intro h
  have hfaster := h [1, 0] ⟨by decide, fun _ => by decide⟩ 0 rfl (by decide) 1 (by decide)
    (by decide) (by unfold Tied; decide)
  exact absurd hfaster (by decide)

end Libjingle.Selector
