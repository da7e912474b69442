import Libjingle.Lib.Sorting
import Libjingle.P2p.Connection

/-!
# `SortConnections` (`p2ptransportchannel.cc`)

What a channel does when the state of a connection changes: it sorts its connections, may switch to
the top one, prunes connections that a writable one on their network makes superfluous, and derives
its own state. Connections are objects behind pointers: the list holds their addresses, and `conn`
is the object at an address. Signals to the layers above are not followed, and a posted sort runs
later.

`std::stable_sort` asks for a strict weak order. Where `ConnectionCompare` is none on the list, it
may leave the connections in any order.

## Results

* **`writable_after_sort_iff`**: the three ways to tell that the channel is writable agree after
  every outcome exactly if the comparison sorts, or no connection is writable, or the best one is
  already, or there is no best one yet and all are writable.
-/

namespace Libjingle

open Lib

/-! ## The channel -/

/-- The part of `P2PTransportChannel` that selects a connection. `sessions` says which allocator
sessions are getting ports; `mismatch` is the report of `UpdateChannelState`. -/
structure Selector where
  connections : List Nat
  conn : Nat → Connection
  best : Option Nat
  role : TransportRole
  writable : Bool
  readable : Bool
  wasWritable : Bool
  wasTimedOut : Bool
  sortDirty : Bool
  sessions : List Bool
  waitingForSignaling : Bool
  mismatch : Bool

/-- `ShouldSwitch` from the best connection to the top one. The round trip times are exact as
doubles. -/
def shouldSwitch (conn : Nat → Connection) : Option Nat → Option Nat → Bool
  | none, none => false
  | none, some _ => true
  | some _, none => true
  | some a, some b =>
    if a = b then false
    else
      let cmp := compareConnections (conn a) (conn b)
      if cmp < 0 then true
      else if cmp > 0 then false
      else (conn b).rtt.toNat ≤ (conn a).rtt.toNat + kMinImprovement

namespace Selector

/-- A method of the connection at an address is called. When one of its states changes it signals
that, and a sort is requested. -/
def update (s : Selector) (i : Nat) (f : Connection → Connection) : Selector :=
  let c := f (s.conn i)
  { s with
    conn := Function.update s.conn i c
    sortDirty := s.sortDirty || c.readState ≠ (s.conn i).readState ||
      c.writeState ≠ (s.conn i).writeState }

/-- Each connection brings its states up to date, in the order of the list. -/
def updateConnectionStates (s : Selector) (now : U32) : Selector :=
  s.connections.foldl (fun s i => s.update i fun c => c.updateState now) s

/-- The networks in use, in the order of a `std::set`. -/
def networks (s : Selector) : List Nat :=
  (s.connections.map fun i => (s.conn i).network).dedup.insertionSort (· ≤ ·)

/-- `i` comes before `j`. -/
def before (s : Selector) (i j : Nat) : Prop := connectionCompare (s.conn i) (s.conn j) = true

instance (s : Selector) : DecidableRel s.before := fun _ _ => inferInstanceAs (Decidable (_ = _))

/-- `ConnectionCompare` is a strict weak order on the connections of the channel. -/
def Ordered (s : Selector) : Prop := WeakOrderOn s.before {i | i ∈ s.connections}

/-- The orders that `std::stable_sort` may leave: the stable one, which it promises for a strict
weak order, and any order without one. -/
structure Sorts (s : Selector) (l : List Nat) : Prop where
  perm : l.Perm s.connections
  stable : s.Ordered → l = s.connections.insertionSort fun i j => ¬ s.before j i

/-- A controlling agent nominates its best connection. -/
def nominateBestConnection (s : Selector) : Selector :=
  match s.best with
  | none => s
  | some b =>
    if (s.conn b).iceProtocol = .rfc5245 ∧ s.role = .controlling then
      s.update b fun c => { c with nominated := true }
    else s

/-- `SwitchBestConnectionTo`, which nominates the new one. -/
def switchBestConnectionTo (s : Selector) (conn : Option Nat) : Selector :=
  nominateBestConnection { s with best := conn }

/-- The best connection where it is on the network, else the first one that is. -/
def getBestConnectionOnNetwork (s : Selector) (network : Nat) : Option Nat :=
  match s.best.filter fun b => (s.conn b).network = network with
  | some b => some b
  | none => s.connections.find? fun i => (s.conn i).network = network

/-- One round of the inner loop: the connection at `i` is pruned if `primier` is as good. -/
def pruneFor (network primier : Nat) (s : Selector) (i : Nat) : Selector :=
  if i ≠ primier ∧ (s.conn i).network = network ∧
      compareConnectionCandidates (s.conn primier) (s.conn i) ≥ 0 then
    s.update i Connection.prune
  else s

/-- The inner loop for one network, which needs a writable connection there. -/
def pruneNetwork (s : Selector) (network : Nat) : Selector :=
  match s.getBestConnectionOnNetwork network with
  | none => s
  | some primier =>
    if (s.conn primier).writeState ≠ .writable then s
    else s.connections.foldl (pruneFor network primier) s

/-- `Allocate`: the request for signaling. -/
def allocate (s : Selector) : Selector := { s with waitingForSignaling := true }

/-- `HandleWritable`: the allocator sessions stop getting ports. -/
def handleWritable (s : Selector) : Selector :=
  { s with
    sessions := if s.writable then s.sessions else s.sessions.map fun _ => false
    wasWritable := true
    wasTimedOut := false
    writable := true }

/-- `HandleNotWritable`: a channel that was writable allocates again. -/
def handleNotWritable (s : Selector) : Selector :=
  let s := if s.wasWritable then { s with wasWritable := false }.allocate else s
  { s with wasTimedOut := false, writable := false }

/-- `HandleAllTimedOut`: it allocates again where it has not timed out before. -/
def handleAllTimedOut (s : Selector) : Selector :=
  let s := if s.wasTimedOut then s else s.allocate
  { s with wasTimedOut := true, wasWritable := false, writable := false }

/-- The connections in the states counted as writable and as not writable, and what follows. -/
def handleStates (s : Selector) : Selector :=
  let writable := s.connections.countP fun i => (s.conn i).writeState = .writable
  let notWritable := s.connections.countP fun i =>
    (s.conn i).writeState = .unreliable ∨ (s.conn i).writeState = .init
  if writable > 0 then s.handleWritable
  else if notWritable > 0 then s.handleNotWritable
  else s.handleAllTimedOut

/-- The best connection is writable. -/
def bestWritable (s : Selector) : Bool := s.best.any fun b => (s.conn b).writeState = .writable

/-- `UpdateChannelState`, with the report of a mismatch and the readable flag. -/
def updateChannelState (s : Selector) : Selector :=
  { s with
    mismatch := s.bestWritable != s.writable
    readable := s.connections.any fun i => (s.conn i).readState = .readable }

/-- Any changes after this point will require a re-sort. -/
def clearSortDirty (s : Selector) : Selector := { s with sortDirty := false }

/-- The channel with its connections brought up to date, before the sort. -/
def upToDate (s : Selector) (now : U32) : Selector := (s.updateConnectionStates now).clearSortDirty

/-- If necessary, switch to the new choice. -/
def switchToTop (s : Selector) : Selector :=
  if shouldSwitch s.conn s.best s.connections.head? then
    s.switchBestConnectionTo s.connections.head?
  else s

/-- `SortConnections` where the sort leaves the connections in the order `l`. -/
def sortConnectionsAs (s : Selector) (now : U32) (l : List Nat) : Selector :=
  let networks := (s.updateConnectionStates now).networks
  let s := { s.upToDate now with connections := l }.switchToTop
  let s := networks.foldl pruneNetwork s
  s.handleStates.updateChannelState

/-! ## Choosing the best connection -/

variable {s s₀ s₁ : Selector}

/-- What the calls on connections during a sort leave as it is. -/
structure Keeps (s s' : Selector) : Prop where
  best : s'.best = s.best
  connections : s'.connections = s.connections
  pruned : ∀ i, (s'.conn i).pruned = (s.conn i).pruned

theorem Keeps.refl (s : Selector) : Keeps s s := ⟨rfl, rfl, fun _ => rfl⟩

theorem Keeps.trans {s' s'' : Selector} (h : Keeps s s') (h' : Keeps s' s'') : Keeps s s'' :=
  ⟨h'.best.trans h.best, h'.connections.trans h.connections,
    fun i => (h'.pruned i).trans (h.pruned i)⟩

theorem keeps_update (s : Selector) (i : Nat) {f : Connection → Connection}
    (hf : (f (s.conn i)).pruned = (s.conn i).pruned) : Keeps s (s.update i f) := by
  refine ⟨rfl, rfl, fun j => ?_⟩
  show (Function.update s.conn i (f (s.conn i)) j).pruned = _
  by_cases hj : j = i
  · rw [hj, Function.update_self, hf]
  · rw [Function.update_of_ne hj]

theorem keeps_updateConnectionStates (s : Selector) (now : U32) :
    Keeps s (s.updateConnectionStates now) := by
  have h : ∀ (l : List Nat) (s : Selector),
      Keeps s (l.foldl (fun s i => s.update i fun c => c.updateState now) s) := by
    intro l
    induction l with
    | nil => exact Keeps.refl
    | cons i l ih =>
      intro s
      refine (keeps_update s i ?_).trans (ih _)
      obtain ⟨r, w, n, h⟩ := (s.conn i).updateState_eq now
      rw [h]
  exact h s.connections s

theorem keeps_upToDate (s : Selector) (now : U32) : Keeps s (s.upToDate now) :=
  (keeps_updateConnectionStates s now).trans ⟨rfl, rfl, fun _ => rfl⟩

theorem WriteState.eq_writable {w : WriteState} (h : w.value ≤ 0) : w = .writable := by
  cases w <;> first | rfl | cases h

/-- Writable connections come first in what a sort leaves. -/
theorem Sorts.pairwise {l : List Nat} (h : s.Sorts l) (hord : s.Ordered) :
    l.Pairwise fun i j => (s.conn i).writeState.value ≤ (s.conn j).writeState.value := by
  rw [h.stable hord]
  refine pairwise_insertionSort_key (fun i j hlt => ?_) (fun i j hgt => ?_) s.connections
  · simp [before, connectionCompare, compareConnections, hlt, Nat.lt_asymm hlt]
  · simp [before, connectionCompare, compareConnections, hgt]

/-- A channel does not switch to a connection in a worse write state, or keep to one. -/
theorem writeState_shouldSwitch (conn : Nat → Connection) (a b : Nat) :
    if shouldSwitch conn (some a) (some b) then
      (conn b).writeState.value ≤ (conn a).writeState.value
    else (conn a).writeState.value ≤ (conn b).writeState.value := by
  split
  · rename_i h
    by_contra hlt
    rw [not_le] at hlt
    have hab : a ≠ b := fun hab => Nat.lt_irrefl _ (hab ▸ hlt)
    simp [shouldSwitch, compareConnections, hab, hlt] at h
  · rename_i h
    by_contra hlt
    rw [not_le] at hlt
    have hab : a ≠ b := fun hab => Nat.lt_irrefl _ (hab ▸ hlt)
    simp [shouldSwitch, compareConnections, hab, hlt, Nat.lt_asymm hlt] at h

/-- The connection that is chosen has no worse write state than the two to choose from. -/
theorem chosen_least (conn : Nat → Connection) (a b : Nat) :
    ∃ c, (if shouldSwitch conn (some a) (some b) then some b else some a) = some c ∧
      (conn c).writeState.value ≤ (conn a).writeState.value ∧
      (conn c).writeState.value ≤ (conn b).writeState.value := by
  have hle := writeState_shouldSwitch conn a b
  split at hle
  · exact ⟨b, if_pos ‹_›, hle, le_refl _⟩
  · exact ⟨a, if_neg ‹_›, le_refl _, hle⟩

theorem keeps_nominateBestConnection (s : Selector) : Keeps s s.nominateBestConnection := by
  unfold Selector.nominateBestConnection
  split
  · exact Keeps.refl s
  split
  · exact keeps_update s _ rfl
  · exact Keeps.refl s

theorem nominateBestConnection_writeState (s : Selector) (i : Nat) :
    (s.nominateBestConnection.conn i).writeState = (s.conn i).writeState := by
  unfold Selector.nominateBestConnection
  split
  · rfl
  split
  · rename_i b _ _
    show (Function.update s.conn b _ i).writeState = _
    by_cases hi : i = b
    · rw [hi, Function.update_self]
    · rw [Function.update_of_ne hi]
  · rfl

/-- **The switch**: to the top connection where `ShouldSwitch` says so. -/
theorem switchToTop_spec (s : Selector) :
    s.switchToTop.best =
        (if shouldSwitch s.conn s.best s.connections.head? then s.connections.head? else s.best) ∧
      s.switchToTop.connections = s.connections ∧
      (∀ i, (s.switchToTop.conn i).pruned = (s.conn i).pruned) ∧
      ∀ i, (s.switchToTop.conn i).writeState = (s.conn i).writeState := by
  unfold switchToTop
  split
  · have hkeeps := keeps_nominateBestConnection { s with best := s.connections.head? }
    exact ⟨hkeeps.best, hkeeps.connections, hkeeps.pruned,
      nominateBestConnection_writeState { s with best := s.connections.head? }⟩
  · exact ⟨rfl, rfl, fun _ => rfl, fun _ => rfl⟩

/-! ## Pruning -/

/-- What the pruning loop has done so far: a connection has changed only if the best connection on
its network, which is another one, is writable and at least as good; it was pruned then. -/
structure Prunes (s₀ s : Selector) : Prop where
  best : s.best = s₀.best
  connections : s.connections = s₀.connections
  conn : ∀ i, s.conn i = s₀.conn i ∨ s.conn i = (s₀.conn i).prune ∧
    ∃ p, s₀.getBestConnectionOnNetwork (s₀.conn i).network = some p ∧ p ≠ i ∧
      (s₀.conn p).writeState = .writable ∧
      compareConnectionCandidates (s₀.conn p) (s₀.conn i) ≥ 0

theorem Prunes.sameCandidates (h : Prunes s₀ s) (i : Nat) :
    Connection.SameCandidates (s₀.conn i) (s.conn i) := by
  rcases h.conn i with h | ⟨h, -⟩
  · rw [h]
    exact .refl _
  · rw [h]
    exact Connection.prune_sameCandidates _

theorem Prunes.conn_of_writable (h : Prunes s₀ s) {i : Nat}
    (hw : (s.conn i).writeState = .writable) : s.conn i = s₀.conn i := by
  rcases h.conn i with h | ⟨h, -⟩
  · exact h
  · cases hp : (s₀.conn i).pruned with
    | true => exact h.trans (if_pos hp)
    | false =>
      obtain ⟨n, hn⟩ := Connection.prune_eq hp
      rw [h, hn] at hw
      cases hw

theorem Prunes.getBestConnectionOnNetwork (h : Prunes s₀ s) (network : Nat) :
    s.getBestConnectionOnNetwork network = s₀.getBestConnectionOnNetwork network := by
  unfold Selector.getBestConnectionOnNetwork
  simp only [h.best, h.connections, (h.sameCandidates _).network]

variable {network p : Nat}

theorem Prunes.pruneFor (h : Prunes s₀ s) (hp : s₀.getBestConnectionOnNetwork network = some p)
    (hw : (s₀.conn p).writeState = .writable) (i : Nat) :
    Prunes s₀ (Selector.pruneFor network p s i) := by
  unfold Selector.pruneFor
  split
  · rename_i hi
    obtain ⟨hne, hnet, hcmp⟩ := hi
    rw [(h.sameCandidates i).network] at hnet
    rw [(h.sameCandidates p).compare (h.sameCandidates i)] at hcmp
    refine ⟨h.best, h.connections, fun j => ?_⟩
    show Function.update s.conn i _ j = _ ∨ Function.update s.conn i _ j = _ ∧ _
    by_cases hj : j = i
    · subst hj
      rw [Function.update_self]
      refine Or.inr ⟨?_, p, hnet ▸ hp, fun h => hne h.symm, hw, hcmp⟩
      rcases h.conn j with h | ⟨h, -⟩
      · rw [h]
      · rw [h, Connection.prune_prune]
    · rw [Function.update_of_ne hj]
      exact h.conn j
  · exact h

theorem Prunes.pruneNetwork (h : Prunes s₀ s) (network : Nat) :
    Prunes s₀ (s.pruneNetwork network) := by
  unfold Selector.pruneNetwork
  cases hp : s.getBestConnectionOnNetwork network with
  | none => exact h
  | some p =>
    simp only
    split
    · exact h
    · rename_i hnot
      have hw : (s.conn p).writeState = .writable := not_not.mp hnot
      rw [h.conn_of_writable hw] at hw
      clear hnot
      rw [h.getBestConnectionOnNetwork] at hp
      generalize s.connections = l
      induction l generalizing s with
      | nil => exact h
      | cons i l ih => exact ih (h.pruneFor hp hw i)

/-- **What the pruning loop does.** -/
theorem prunes_networks (s : Selector) (l : List Nat) :
    Prunes s (l.foldl Selector.pruneNetwork s) := by
  have h : ∀ (l : List Nat) (t : Selector), Prunes s t →
      Prunes s (l.foldl Selector.pruneNetwork t) := by
    intro l
    induction l with
    | nil => exact fun t h => h
    | cons network l ih => exact fun t h => ih _ (h.pruneNetwork network)
  exact h l s ⟨rfl, rfl, fun _ => Or.inl rfl⟩

theorem getBestConnectionOnNetwork_best {b : Nat} (hb : s.best = some b) :
    s.getBestConnectionOnNetwork (s.conn b).network = some b := by
  unfold Selector.getBestConnectionOnNetwork
  rw [hb, Option.filter_some, if_pos (by simp)]

theorem getBestConnectionOnNetwork_network
    (h : s.getBestConnectionOnNetwork network = some p) : (s.conn p).network = network := by
  unfold Selector.getBestConnectionOnNetwork at h
  split at h
  · rename_i b hb
    obtain rfl := Option.some.inj h
    simpa using (Option.filter_eq_some_iff.mp hb).2
  · simpa using List.find?_some h

theorem getBestConnectionOnNetwork_mem (hmem : ∀ b ∈ s.best, b ∈ s.connections)
    (h : s.getBestConnectionOnNetwork network = some p) : p ∈ s.connections := by
  unfold Selector.getBestConnectionOnNetwork at h
  split at h
  · rename_i b hb
    obtain rfl := Option.some.inj h
    exact hmem _ (Option.filter_eq_some_iff.mp hb).1
  · exact List.mem_of_find?_eq_some h

theorem Prunes.premier (h : Prunes s₀ s)
    (hp : s₀.getBestConnectionOnNetwork network = some p) : s.conn p = s₀.conn p := by
  rcases h.conn p with h | ⟨-, p', hp', hne, -⟩
  · exact h
  · rw [getBestConnectionOnNetwork_network hp, hp] at hp'
    exact absurd (Option.some.inj hp').symm hne

theorem Prunes.bestWritable_eq (h : Prunes s₀ s) : s.bestWritable = s₀.bestWritable := by
  unfold bestWritable
  rw [h.best]
  cases hb : s₀.best with
  | none => rfl
  | some b => simp only [Option.any_some, h.premier (getBestConnectionOnNetwork_best hb)]

/-- Pruning leaves a writable connection if there is one. -/
theorem Prunes.writable_iff (h : Prunes s₀ s) (hmem : ∀ b ∈ s₀.best, b ∈ s₀.connections) :
    (∃ i ∈ s.connections, (s.conn i).writeState = .writable) ↔
      ∃ i ∈ s₀.connections, (s₀.conn i).writeState = .writable := by
  rw [h.connections]
  constructor
  · rintro ⟨i, hi, hw⟩
    exact ⟨i, hi, by rw [← h.conn_of_writable hw]; exact hw⟩
  · rintro ⟨i, hi, hw⟩
    rcases h.conn i with hsame | ⟨-, p, hp, -, hpw, -⟩
    · exact ⟨i, hi, by rw [hsame]; exact hw⟩
    · exact ⟨p, getBestConnectionOnNetwork_mem hmem hp, by rw [h.premier hp]; exact hpw⟩

/-! ## The state of the channel -/

theorem handleStates_frame (s : Selector) : s.handleStates.conn = s.conn ∧
    s.handleStates.best = s.best ∧ s.handleStates.connections = s.connections := by
  unfold handleStates handleWritable handleNotWritable handleAllTimedOut allocate
  dsimp only
  split
  · exact ⟨rfl, rfl, rfl⟩
  split
  · split <;> exact ⟨rfl, rfl, rfl⟩
  · split <;> exact ⟨rfl, rfl, rfl⟩

theorem handleStates_writable (s : Selector) : s.handleStates.writable = true ↔
    ∃ i ∈ s.connections, (s.conn i).writeState = .writable := by
  unfold handleStates
  dsimp only
  split
  · rename_i h
    obtain ⟨i, hi, hw⟩ := List.countP_pos_iff.mp h
    exact ⟨fun _ => ⟨i, hi, by simpa using hw⟩, fun _ => rfl⟩
  · rename_i h
    have hnone : ¬ ∃ i ∈ s.connections, (s.conn i).writeState = .writable := by
      rintro ⟨i, hi, hw⟩
      exact h (List.countP_pos_iff.mpr ⟨i, hi, by simpa using hw⟩)
    refine ⟨fun hw => ?_, fun he => absurd he hnone⟩
    split at hw <;> cases hw

/-- **The flags tell the truth** in the state `s'` that a sort of `s` leaves: the channel is
writable exactly if its best connection is, and exactly if any of its connections is, so no mismatch
is reported; it is readable exactly if one of its connections is; the best connection is not pruned
by the call; and each connection that is has on its network another, writable connection with at
least its preference. -/
structure FlagsTrue (s s' : Selector) : Prop where
  best : s'.writable = true ↔ ∃ b ∈ s'.best, (s'.conn b).writeState = .writable
  any : s'.writable = true ↔ ∃ i ∈ s'.connections, (s'.conn i).writeState = .writable
  mismatch : s'.mismatch = false
  readable : s'.readable = true ↔ ∃ i ∈ s'.connections, (s'.conn i).readState = .readable
  kept : ∀ b ∈ s'.best, (s'.conn b).pruned = (s.conn b).pruned
  pruned : ∀ i, (s.conn i).pruned = false → (s'.conn i).pruned = true →
    ∃ p ∈ s'.connections, p ≠ i ∧ (s'.conn p).network = (s'.conn i).network ∧
      (s'.conn p).writeState = .writable ∧ compareConnectionCandidates (s'.conn p) (s'.conn i) ≥ 0

variable {now : U32} {l : List Nat}

/-- The best connection that a sort to the order `l` chooses. -/
def choice (s : Selector) (l : List Nat) : Option Nat :=
  if shouldSwitch s.conn s.best l.head? then l.head? else s.best

theorem choice_mem (hbest : ∀ b ∈ s.best, b ∈ s.connections)
    (hl : l.Perm (s.upToDate now).connections) {b : Nat}
    (hb : (s.upToDate now).choice l = some b) : b ∈ s.connections := by
  unfold choice at hb
  split at hb
  · exact (keeps_upToDate s now).connections ▸ hl.mem_iff.mp (List.mem_of_head? hb)
  · exact hbest b ((keeps_upToDate s now).best ▸ hb)

/-- All but the writable flag is right after every outcome, and that one is if the choice is. -/
theorem flagsTrue_iff (hbest : ∀ b ∈ s.best, b ∈ s.connections)
    (hl : l.Perm (s.upToDate now).connections) :
    s.FlagsTrue (s.sortConnectionsAs now l) ↔
      ((∃ b, (s.upToDate now).choice l = some b ∧
          ((s.upToDate now).conn b).writeState = .writable) ↔
        ∃ i ∈ s.connections, ((s.upToDate now).conn i).writeState = .writable) := by
  have hkeeps := keeps_upToDate s now
  obtain ⟨htop, hconns, hpruned, hstate⟩ :=
    switchToTop_spec { s.upToDate now with connections := l }
  have hmem : ∀ i, i ∈ l ↔ i ∈ s.connections := fun i => by
    rw [hl.mem_iff, hkeeps.connections]
  obtain ⟨s₁, hp, hs'⟩ : ∃ s₁, Prunes { s.upToDate now with connections := l }.switchToTop s₁ ∧
      s.sortConnectionsAs now l = s₁.handleStates.updateChannelState :=
    ⟨_, prunes_networks _ _, rfl⟩
  have hin : ∀ b ∈ { s.upToDate now with connections := l }.switchToTop.best,
      b ∈ { s.upToDate now with connections := l }.switchToTop.connections := by
    intro b hb
    rw [htop] at hb
    rw [hconns]
    exact (hmem b).mpr (choice_mem hbest hl hb)
  rw [hs']
  obtain ⟨hconn, hb, hlist⟩ := handleStates_frame s₁
  have hall := handleStates_writable s₁
  have hiff : (∃ i ∈ s₁.connections, (s₁.conn i).writeState = .writable) ↔
      ∃ i ∈ s.connections, ((s.upToDate now).conn i).writeState = .writable := by
    rw [hp.writable_iff hin, hconns]
    simp only [hstate, hmem]
  have hchoice : (∃ b ∈ s₁.best, (s₁.conn b).writeState = .writable) ↔
      ∃ b, (s.upToDate now).choice l = some b ∧
        ((s.upToDate now).conn b).writeState = .writable := by
    have heq := Bool.eq_iff_iff.mp hp.bestWritable_eq
    simp only [bestWritable, Option.any_eq_true, decide_eq_true_eq, htop, hstate] at heq
    exact heq
  have hsame : s₁.handleStates.bestWritable = s₁.bestWritable := by
    unfold bestWritable
    rw [hconn, hb]
  constructor
  · intro h
    have hboth := h.best.symm.trans h.any
    simp only [updateChannelState, hconn, hb, hlist] at hboth
    exact (hchoice.symm.trans hboth).trans hiff
  · intro h
    have hbest' := hall.trans (hiff.trans (h.symm.trans hchoice.symm))
    have hnone : ∀ i, ((s.upToDate now).conn i).pruned = (s.conn i).pruned := hkeeps.pruned
    constructor <;> simp only [updateChannelState, hsame, hconn, hb, hlist]
    · exact hbest'
    · exact hall
    · have hw : s₁.bestWritable = true ↔ s₁.handleStates.writable = true := by
        rw [hbest']
        simp [bestWritable, Option.any_eq_true]
      rw [Bool.eq_iff_iff.mpr hw]
      exact bne_self_eq_false _
    · simp [List.any_eq_true]
    · intro b hbest
      rw [hp.best] at hbest
      rw [hp.premier (getBestConnectionOnNetwork_best hbest), hpruned, hnone]
    · intro i hi hi'
      rcases hp.conn i with hsame | ⟨-, p, hget, hne, hw, hcmp⟩
      · rw [hsame, hpruned, hnone, hi] at hi'
        cases hi'
      · refine ⟨p, hp.connections ▸ getBestConnectionOnNetwork_mem hin hget, hne, ?_, ?_, ?_⟩
        · rw [hp.premier hget, (hp.sameCandidates i).network]
          exact getBestConnectionOnNetwork_network hget
        · rw [hp.premier hget]
          exact hw
        · rw [(hp.sameCandidates p).compare (hp.sameCandidates i)]
          exact hcmp

theorem sorts_cons (h : ¬ s.Ordered) {t : Nat} (ht : t ∈ s.connections) :
    s.Sorts (t :: s.connections.erase t) :=
  ⟨(List.perm_cons_erase ht).symm, fun hord => absurd hord h⟩

/-- The choice is writable if the best connection is, or else the top one. -/
theorem choice_writable {t : Nat} (htop : l.head? = some t)
    (h : (s.conn t).writeState = .writable ∨ ∃ b ∈ s.best, (s.conn b).writeState = .writable) :
    ∃ b, s.choice l = some b ∧ (s.conn b).writeState = .writable := by
  unfold choice
  rw [htop]
  cases hb : s.best with
  | none => exact ⟨t, rfl, h.resolve_right (by simp [hb])⟩
  | some b =>
    obtain ⟨c, hc, hcb, hct⟩ := chosen_least s.conn b t
    refine ⟨c, hc, WriteState.eq_writable ?_⟩
    rcases h with ht | ⟨b', hb', hw⟩
    · rw [ht] at hct
      exact hct
    · rw [hb] at hb'
      rw [Option.some.inj hb', hw] at hcb
      exact hcb

/-- **After `SortConnections` the flags tell the truth**, in every state whose best connection is
none or one of the list, exactly if `ConnectionCompare` is a strict weak order on the updated list,
or none of its connections is writable, or the best one is, or there is no best one and all are. -/
theorem writable_after_sort_iff (s : Selector) (now : U32)
    (hbest : ∀ b ∈ s.best, b ∈ s.connections) :
    (∀ l, (s.upToDate now).Sorts l → s.FlagsTrue (s.sortConnectionsAs now l)) ↔
      (s.upToDate now).Ordered ∨
        (∀ i ∈ s.connections, ((s.upToDate now).conn i).writeState ≠ .writable) ∨
        (∃ b ∈ s.best, ((s.upToDate now).conn b).writeState = .writable) ∨
        s.best = none ∧
          ∀ i ∈ s.connections, ((s.upToDate now).conn i).writeState = .writable := by
  have hkeeps := keeps_upToDate s now
  constructor
  · intro h
    by_contra hcond
    obtain ⟨hord, hsome, hnot, hall⟩ := by simpa only [not_or] using hcond
    -- A connection that is not writable, and stays the best one or becomes it.
    obtain ⟨t, ht, hchoice, hw⟩ : ∃ t ∈ s.connections,
        (∀ rest, (s.upToDate now).choice (t :: rest) = some t) ∧
        ((s.upToDate now).conn t).writeState ≠ .writable := by
      unfold choice
      rw [hkeeps.best]
      cases hb : s.best with
      | none =>
        obtain ⟨t, ht⟩ := not_forall.mp fun h => hall ⟨hb, h⟩
        obtain ⟨hmem, hw⟩ := Classical.not_imp.mp ht
        exact ⟨t, hmem, fun _ => rfl, hw⟩
      | some b => exact ⟨b, hbest b hb, fun _ => by simp [shouldSwitch], fun hw => hnot ⟨b, hb, hw⟩⟩
    have hl := sorts_cons hord (hkeeps.connections ▸ ht)
    obtain ⟨i, hi⟩ := not_forall.mp hsome
    obtain ⟨hi, hwi⟩ := Classical.not_imp.mp hi
    obtain ⟨b, hb, hwb⟩ := ((flagsTrue_iff hbest hl.perm).mp (h _ hl)).mpr ⟨i, hi, not_not.mp hwi⟩
    rw [hchoice] at hb
    exact hw (Option.some.inj hb ▸ hwb)
  · intro h l hl
    have hmem : ∀ i, i ∈ l ↔ i ∈ s.connections := fun i => by
      rw [hl.perm.mem_iff, hkeeps.connections]
    refine (flagsTrue_iff hbest hl.perm).mpr ⟨?_, ?_⟩
    · rintro ⟨b, hb, hw⟩
      exact ⟨b, choice_mem hbest hl.perm hb, hw⟩
    · rintro ⟨i, hi, hw⟩
      obtain ⟨t, rest, rfl⟩ := List.exists_cons_of_ne_nil (List.ne_nil_of_mem ((hmem i).mpr hi))
      refine choice_writable rfl ?_
      rcases h with hord | hnone | hbest | ⟨-, hall⟩
      · rcases List.mem_cons.mp ((hmem i).mpr hi) with rfl | hi
        · exact Or.inl hw
        · have hti := (List.pairwise_cons.mp (hl.pairwise hord)).1 i hi
          rw [hw] at hti
          exact Or.inl (WriteState.eq_writable hti)
      · exact absurd hw (hnone i hi)
      · rw [hkeeps.best]
        exact Or.inr hbest
      · exact Or.inl (hall t ((hmem t).mp List.mem_cons_self))

/-- A connection of a network with a write state and the priorities of its candidates. -/
def sampleConnection (network : Nat) (writeState : WriteState) (priority : U32) : Connection :=
  ⟨network, .rfc5245, .controlling, 0, priority, priority, 0, .readable, writeState, false, false,
    3000, [], 5000, 5000, [], 0⟩

/-- Three connections on two networks; the best one so far is not writable. -/
def sampleSelector : Selector :=
  ⟨[0, 1, 2], fun i => match i with
      | 0 => sampleConnection 7 .init 100
      | 1 => sampleConnection 7 .writable 200
      | _ => sampleConnection 8 .unreliable 300,
    some 0, .controlling, false, false, false, true, true, [true], false, false⟩

theorem writable_after_sort_sample :
    let s' := sampleSelector.sortConnectionsAs 6000 [1, 2, 0]
    s'.writable = true ∧ s'.best = some 1 ∧ s'.mismatch = false ∧
      (s'.conn 0).pruned = true ∧
      ∃ p ∈ s'.connections, p ≠ 0 ∧ (s'.conn p).network = (s'.conn 0).network ∧
        (s'.conn p).writeState = .writable ∧
        compareConnectionCandidates (s'.conn p) (s'.conn 0) ≥ 0 := by
  have hord : (sampleSelector.upToDate 6000).Ordered :=
    weakOrderOn_of_key (fun i => if i = 0 then 2 else if i = 1 then 0 else 1) (by
      change ∀ a ∈ [0, 1, 2], ∀ b ∈ [0, 1, 2], _
      unfold before
      decide)
  have h := (writable_after_sort_iff sampleSelector 6000 (by decide)).mpr (Or.inl hord) [1, 2, 0]
    ⟨by decide, fun _ => by decide⟩
  have hzero : ((sampleSelector.sortConnectionsAs 6000 [1, 2, 0]).conn 0).pruned = true := by decide
  exact ⟨h.best.mpr (by decide), by decide, h.mismatch, hzero, h.pruned 0 rfl hzero⟩

/-- One writable connection, and three whose generations go round. -/
def ringSelector : Selector :=
  { sampleSelector with
    connections := [0, 1, 2, 3]
    conn := fun i => match i with
      | 0 => sampleConnection 7 .writable 100
      | 1 => { sampleConnection 8 .init 100 with remoteGeneration := 0 }
      | 2 => { sampleConnection 8 .init 100 with remoteGeneration := 0x60000000 }
      | _ => { sampleConnection 8 .init 100 with remoteGeneration := 0xC0000000 }
    best := none }

theorem writable_behind_ring : ¬ ∀ l, (ringSelector.upToDate 6000).Sorts l →
    ringSelector.FlagsTrue (ringSelector.sortConnectionsAs 6000 l) := by
  intro h
  have hring : ¬ (ringSelector.upToDate 6000).Ordered := fun hord =>
    hord.asymm 1 (by decide) 3 (by decide) (by unfold before; decide)
      (hord.trans 3 (by decide) 2 (by decide) 1 (by decide) (by unfold before; decide)
        (by unfold before; decide))
  exact absurd (h _ (sorts_cons hring (by decide : 1 ∈ _))).mismatch (by decide)

end Selector

end Libjingle
