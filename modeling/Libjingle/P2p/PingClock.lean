import Mathlib.Data.List.MinMax
import Libjingle.P2p.SortConnections

/-!
# Pings and the clock (`port.cc`, `p2ptransportchannel.cc`)

The clock counts milliseconds in 32 bits and starts over every 49.7 days. `UpdateState` and
`FindNextPingableConnection` add a time-out to a stored time and compare the sum with the clock,
where `TimeIsLaterOrEqual` would compare the difference. What they do depends on where the clock
stands.

## Results

* **`clock_free_iff`**: every move agrees exactly if the channel is steady. A move agrees if the
  clock has not started over since the oldest stored time, and does not within the time-outs.
-/

namespace Libjingle

variable {c : Connection} {now k : U32}

/-! ## States -/

def maxCurrentWritableDelay : U32 := 900

/-- How far the clock is past the time-out of a time. -/
def overtime (time timeout now : U32) : U32 := now - time - timeout

namespace Connection

/-- The connection with all its times moved by `k`. -/
def later (c : Connection) (k : U32) : Connection :=
  { c with
    pingsSinceLastResponse := c.pingsSinceLastResponse.map (· + k)
    lastPingReceived := c.lastPingReceived + k
    lastDataReceived := c.lastDataReceived + k }

/-- Neither a ping nor data within `CONNECTION_READ_TIMEOUT`. -/
def readLate (c : Connection) (now : U32) : Bool :=
  c.lastPingReceived + connectionReadTimeout ≤ now &&
    c.lastDataReceived + connectionReadTimeout ≤ now

/-- Too many pings have failed, and for too long. -/
def writeLate (c : Connection) (now : U32) : Bool :=
  tooManyFailures c.pingsSinceLastResponse connectionWriteConnectFailures
      (conservativeRttEstimate c.rtt) now &&
    tooLongWithoutResponse c.pingsSinceLastResponse connectionWriteConnectTimeout now

/-- The read state that `UpdateState` leaves. -/
def readAfter (c : Connection) (now : U32) : ReadState :=
  if c.readState = .readable ∧ c.readLate now then .timeout else c.readState

/-- The write state after the first of its two checks. -/
def writeChecked (c : Connection) (now : U32) : WriteState :=
  if c.writeState = .writable ∧ c.writeLate now then .unreliable else c.writeState

/-- The write state that `UpdateState` leaves. -/
def writeAfter (c : Connection) (now : U32) : WriteState :=
  if (c.writeChecked now = .unreliable ∨ c.writeChecked now = .init) ∧
      tooLongWithoutResponse c.pingsSinceLastResponse connectionWriteTimeout now then .timeout
  else c.writeChecked now

/-- **What `UpdateState` does.** -/
theorem updateState_spec (c : Connection) (now : U32) : ∃ n, c.updateState now =
    { c with readState := c.readAfter now, writeState := c.writeAfter now, deletes := n } := by
  unfold updateState
  extract_lets rtt c₁ c₂
  obtain ⟨n, h₁⟩ : ∃ n, c₁ = { c with readState := c.readAfter now, deletes := n } := by
    simp only [c₁, readAfter, readLate, Bool.and_eq_true, decide_eq_true_eq]
    split
    · exact setReadState_eq c .timeout
    · exact ⟨c.deletes, rfl⟩
  obtain ⟨n, h₂⟩ : ∃ n, c₂ =
      { c with readState := c.readAfter now, writeState := c.writeChecked now, deletes := n } := by
    simp only [c₂, h₁, writeChecked, writeLate, rtt, Bool.and_eq_true]
    split
    · exact setWriteState_eq _ .unreliable
    · exact ⟨n, rfl⟩
  simp only [h₂, writeAfter]
  split
  · exact setWriteState_eq _ .timeout
  · exact ⟨n, rfl⟩

theorem updateState_readState (c : Connection) (now : U32) :
    (c.updateState now).readState = c.readAfter now := by
  obtain ⟨n, h⟩ := c.updateState_spec now
  rw [h]

theorem updateState_writeState (c : Connection) (now : U32) :
    (c.updateState now).writeState = c.writeAfter now := by
  obtain ⟨n, h⟩ := c.updateState_spec now
  rw [h]

end Connection

/-! ## Comparisons -/

theorem exists_later (now x : U32) : ∃ k, now + k = x := ⟨x - now, by bv_omega⟩

theorem le_iff_over (time timeout now k : U32) :
    time + k + timeout ≤ now + k ↔ overtime time timeout now ≤ now + k := by
  unfold overtime
  bv_omega

theorem lt_iff_over (time timeout now k : U32) :
    time + k + timeout < now + k ↔
      overtime time timeout now ≠ 0 ∧ overtime time timeout now ≤ now + k := by
  unfold overtime
  bv_omega

theorem moves_iff {σ γ : Type} {later : σ → U32 → σ} (hzero : ∀ s, later s 0 = s)
    (f : σ → U32 → γ) (s : σ) (now : U32) :
    (∀ k, f (later s k) (now + k) = f s now) ↔ ∃ v, ∀ k, f (later s k) (now + k) = v := by
  constructor
  · exact fun h => ⟨f s now, h⟩
  · rintro ⟨v, h⟩ k
    have hhere := h 0
    have hadd : now + 0 = now := BitVec.add_zero now
    rw [hzero, hadd] at hhere
    rw [h k, hhere]

namespace Connection

theorem later_zero (c : Connection) : c.later 0 = c := by
  have hzero : (fun time : U32 => time + 0) = id := funext BitVec.add_zero
  have hadd : ∀ time : U32, time + 0 = time := BitVec.add_zero
  unfold later
  rw [hzero, List.map_id, hadd, hadd]

theorem later_readLate (c : Connection) (now k : U32) : (c.later k).readLate (now + k) = true ↔
    overtime c.lastPingReceived connectionReadTimeout now ≤ now + k ∧
      overtime c.lastDataReceived connectionReadTimeout now ≤ now + k := by
  unfold readLate later
  rw [Bool.and_eq_true, decide_eq_true_eq, decide_eq_true_eq, le_iff_over, le_iff_over]

theorem later_tooLong (pings : List U32) (timeout now k : U32) :
    tooLongWithoutResponse (pings.map (· + k)) timeout (now + k) = true ↔
      ∃ q ∈ pings.head?, overtime q timeout now ≠ 0 ∧ overtime q timeout now ≤ now + k := by
  cases pings with
  | nil => simp [tooLongWithoutResponse]
  | cons q pings =>
    simp only [tooLongWithoutResponse, List.map_cons, decide_eq_true_eq, lt_iff_over,
      List.head?_cons, Option.mem_some_iff, exists_eq_left']

theorem later_tooMany (pings : List U32) (failures : Nat) (rtt now k : U32) :
    tooManyFailures (pings.map (· + k)) failures rtt (now + k) = true ↔
      ∃ p ∈ pings[failures - 1]?, overtime p rtt now ≠ 0 ∧ overtime p rtt now ≤ now + k := by
  unfold tooManyFailures
  rw [List.getElem?_map]
  cases pings[failures - 1]? with
  | none => simp
  | some p =>
    simp only [Option.map_some, decide_eq_true_eq, lt_iff_over, Option.mem_some_iff,
      exists_eq_left']

/-! ## Steady connections -/

/-- If the connection is readable, the last ping and the last data have timed out just now. -/
def ReadSteady (c : Connection) (now : U32) : Prop :=
  c.readState = .readable → overtime c.lastPingReceived connectionReadTimeout now = 0 ∧
    overtime c.lastDataReceived connectionReadTimeout now = 0

/-- If the connection is writable, fewer pings have failed than it takes, or one of the two times
looked at has just come; if it is unreliable or new, no ping is open or the first one has timed out
just now. -/
def WriteSteady (c : Connection) (now : U32) : Prop :=
  (c.writeState = .writable →
    ∀ p ∈ c.pingsSinceLastResponse[connectionWriteConnectFailures - 1]?,
      ∀ q ∈ c.pingsSinceLastResponse.head?,
        overtime p (conservativeRttEstimate c.rtt) now = 0 ∨
          overtime q connectionWriteConnectTimeout now = 0) ∧
  (c.writeState = .unreliable ∨ c.writeState = .init →
    ∀ q ∈ c.pingsSinceLastResponse.head?, overtime q connectionWriteTimeout now = 0)

theorem readSteady_iff (c : Connection) (now : U32) :
    (∀ k, (c.later k).readAfter (now + k) = c.readAfter now) ↔ c.ReadSteady now := by
  have hpos : ∀ k, (c.later k).readState = c.readState := fun _ => rfl
  rw [moves_iff later_zero readAfter]
  constructor
  · rintro ⟨v, h⟩ hread
    obtain ⟨k, hstart⟩ := exists_later now 0
    obtain ⟨k', hend⟩ := exists_later now 0xFFFFFFFF
    have hsame := (h k').trans (h k).symm
    have hlate : (c.later k').readLate (now + k') = true := by
      rw [later_readLate, hend]
      exact ⟨by bv_omega, by bv_omega⟩
    unfold readAfter at hsame
    rw [hpos, hpos, if_pos ⟨hread, hlate⟩] at hsame
    split at hsame
    · rename_i hdue
      obtain ⟨hping, hdata⟩ := (later_readLate c now k).mp hdue.2
      rw [hstart] at hping hdata
      exact ⟨by bv_omega, by bv_omega⟩
    · rw [hread] at hsame
      cases hsame
  · intro h
    by_cases hread : c.readState = .readable
    · obtain ⟨hping, hdata⟩ := h hread
      refine ⟨.timeout, fun k => if_pos ⟨hread, ?_⟩⟩
      rw [later_readLate, hping, hdata]
      exact ⟨by bv_omega, by bv_omega⟩
    · exact ⟨c.readState, fun k => if_neg fun hdue => hread hdue.1⟩

theorem later_writeLate (c : Connection) (now k : U32) : (c.later k).writeLate (now + k) = true ↔
    (∃ p ∈ c.pingsSinceLastResponse[connectionWriteConnectFailures - 1]?,
      overtime p (conservativeRttEstimate c.rtt) now ≠ 0 ∧
        overtime p (conservativeRttEstimate c.rtt) now ≤ now + k) ∧
    ∃ q ∈ c.pingsSinceLastResponse.head?, overtime q connectionWriteConnectTimeout now ≠ 0 ∧
      overtime q connectionWriteConnectTimeout now ≤ now + k := by
  unfold writeLate later
  rw [Bool.and_eq_true, later_tooMany, later_tooLong]

theorem writeAfter_writable (h : c.writeState = .writable) :
    c.writeAfter now = .writable ↔ ¬ c.writeLate now = true := by
  unfold writeAfter
  by_cases hlate : c.writeLate now = true
  · have hchecked : c.writeChecked now = .unreliable := if_pos ⟨h, hlate⟩
    rw [hchecked]
    refine iff_of_false (fun hsame => ?_) (not_not.mpr hlate)
    split at hsame <;> cases hsame
  · have hchecked : c.writeChecked now = .writable :=
      (if_neg fun hdue => hlate hdue.2).trans h
    rw [hchecked]
    exact iff_of_true (if_neg fun hdue => hdue.1.elim nofun nofun) hlate

theorem writeAfter_open (h : c.writeState = .unreliable ∨ c.writeState = .init) :
    c.writeAfter now =
      if tooLongWithoutResponse c.pingsSinceLastResponse connectionWriteTimeout now then .timeout
      else c.writeState := by
  have hnot : c.writeChecked now = c.writeState := if_neg fun hdue => by
    rw [hdue.1] at h
    exact h.elim nofun nofun
  unfold writeAfter
  rw [hnot]
  simp only [h, true_and]

theorem writeAfter_timeout (h : c.writeState = .timeout) : c.writeAfter now = .timeout := by
  unfold writeAfter writeChecked
  rw [h, if_neg (by simp), if_neg (by simp)]

theorem writeSteady_iff (c : Connection) (now : U32) :
    (∀ k, (c.later k).writeAfter (now + k) = c.writeAfter now) ↔ c.WriteSteady now := by
  have hws : ∀ k, (c.later k).writeState = c.writeState := fun _ => rfl
  rw [moves_iff later_zero writeAfter]
  constructor
  · rintro ⟨v, h⟩
    obtain ⟨k, hstart⟩ := exists_later now 0
    obtain ⟨k', hend⟩ := exists_later now 0xFFFFFFFF
    have hsame := (h k').trans (h k).symm
    refine ⟨fun hw p hp q hq => ?_, fun hopen q hq => ?_⟩
    · by_contra hover
      rw [not_or] at hover
      have hlate : (c.later k').writeLate (now + k') = true := by
        rw [later_writeLate, hend]
        exact ⟨⟨p, hp, hover.1, by bv_omega⟩, q, hq, hover.2, by bv_omega⟩
      have hearly : ¬ (c.later k).writeLate (now + k) = true := by
        rw [later_writeLate, hstart]
        rintro ⟨⟨p', hp', hne, hle⟩, -⟩
        exact hne (by bv_omega)
      rw [(writeAfter_writable (hws k ▸ hw)).mpr hearly,
        writeAfter_writable (hws k' ▸ hw)] at hsame
      exact hsame hlate
    · by_contra hover
      rw [writeAfter_open (hws k' ▸ hopen), writeAfter_open (hws k ▸ hopen)] at hsame
      have hlate : tooLongWithoutResponse (c.later k').pingsSinceLastResponse
          connectionWriteTimeout (now + k') = true :=
        (later_tooLong _ _ _ _).mpr ⟨q, hq, hover, by rw [hend]; bv_omega⟩
      have hearly : ¬ tooLongWithoutResponse (c.later k).pingsSinceLastResponse
          connectionWriteTimeout (now + k) = true := by
        intro hearly
        obtain ⟨q', hq', hne, hle⟩ := (later_tooLong _ _ _ _).mp hearly
        rw [hstart] at hle
        exact hne (by bv_omega)
      rw [if_pos hlate, if_neg hearly, hws] at hsame
      rw [← hsame] at hopen
      exact hopen.elim nofun nofun
  · rintro ⟨hwritable, hopen⟩
    by_cases htimeout : c.writeState = .timeout
    · exact ⟨.timeout, fun k => writeAfter_timeout htimeout⟩
    by_cases hw : c.writeState = .writable
    · have hwk : ∀ k, (c.later k).writeState = .writable := fun _ => hw
      refine ⟨.writable, fun k => (writeAfter_writable (hwk k)).mpr fun hlate => ?_⟩
      obtain ⟨⟨p, hp, hpne, -⟩, q, hq, hqne, -⟩ := (later_writeLate c now k).mp hlate
      exact (hwritable hw p hp q hq).elim hpne hqne
    · have hother : c.writeState = .unreliable ∨ c.writeState = .init := by
        cases hcase : c.writeState with
        | writable => exact absurd hcase hw
        | unreliable => exact Or.inl rfl
        | init => exact Or.inr rfl
        | timeout => exact absurd hcase htimeout
      refine ⟨c.writeState, fun k => ?_⟩
      rw [writeAfter_open (hws k ▸ hother), if_neg, hws]
      intro hlate
      obtain ⟨q, hq, hne, -⟩ := (later_tooLong _ _ _ _).mp hlate
      exact hne (hopen hother q hq)

end Connection

/-! ## The next connection to ping -/

/-- `P2PTransportChannel` with what is read of its connections for a ping. -/
structure Pinger extends Selector where
  lastPingSent : Nat → U32
  connected : Nat → Bool

namespace Pinger

variable {s : Pinger} {i b : Nat}

def isPingable (s : Pinger) (i : Nat) : Bool :=
  if ¬ s.connected i then false
  -- If we are writable, then we only want those that were not pruned.
  else if s.writable then (s.conn i).writeState ≠ .timeout
  -- Otherwise we try everything that might work.
  else (s.conn i).writeState ≠ .timeout ∨ (s.conn i).readState ≠ .timeout

/-- One round of the loop: the oldest connection so far, and its time. -/
def oldest (s : Pinger) (found : Option Nat × U32) (i : Nat) : Option Nat × U32 :=
  if s.isPingable i ∧ s.lastPingSent i < found.2 then (some i, s.lastPingSent i) else found

/-- The best connection, if it is writable. -/
def writableBest (s : Pinger) : Option Nat :=
  s.best.filter fun b => (s.conn b).writeState = .writable

def findOldest (s : Pinger) : Option Nat := (s.connections.foldl s.oldest (none, 0xFFFFFFFF)).1

def findNextPingableConnection (s : Pinger) (now : U32) : Option Nat :=
  match s.writableBest with
  | some b =>
    if s.lastPingSent b + maxCurrentWritableDelay ≤ now then some b else s.findOldest
  | none => s.findOldest

/-- The channel with all its times moved by `k`. -/
def later (s : Pinger) (k : U32) : Pinger :=
  { s with
    conn := fun i => (s.conn i).later k
    lastPingSent := fun i => s.lastPingSent i + k }

/-- The connections that may be pinged. -/
def pingable (s : Pinger) : List Nat := s.connections.filter s.isPingable

/-- What the loop holds after it has found `t`. -/
def found (s : Pinger) : Option Nat → Option Nat × U32
  | some t => if s.lastPingSent t < 0xFFFFFFFF then (some t, s.lastPingSent t)
    else (none, 0xFFFFFFFF)
  | none => (none, 0xFFFFFFFF)

theorem found_time (s : Pinger) (t : Nat) : (s.found (some t)).2 = s.lastPingSent t := by
  unfold found
  dsimp only
  split
  · rfl
  · show 0xFFFFFFFF = s.lastPingSent t
    bv_omega

theorem oldest_found (hi : s.isPingable i = true) (t : Nat) : s.oldest (s.found (some t)) i =
    s.found (if (s.lastPingSent i).toNat < (s.lastPingSent t).toNat then some i else some t) := by
  unfold oldest
  rw [found_time]
  by_cases hlt : (s.lastPingSent i).toNat < (s.lastPingSent t).toNat
  · have hend : s.lastPingSent i < 0xFFFFFFFF := by bv_omega
    rw [if_pos hlt, if_pos ⟨hi, hlt⟩]
    exact (if_pos hend).symm
  · rw [if_neg hlt, if_neg fun h => hlt h.2]

theorem oldest_none (hi : s.isPingable i = true) :
    s.oldest (s.found none) i = s.found (some i) := by
  unfold oldest found
  simp only [hi, true_and]

theorem foldl_oldest (s : Pinger) (l : List Nat) : l.foldl s.oldest (none, 0xFFFFFFFF) =
    s.found ((l.filter s.isPingable).argmin fun i => (s.lastPingSent i).toNat) := by
  induction l using List.reverseRecOn with
  | nil => rfl
  | append_singleton l i ih =>
    rw [List.foldl_append, List.foldl_cons, List.foldl_nil, ih, List.filter_append,
      List.filter_singleton]
    by_cases hi : s.isPingable i = true
    · rw [hi, cond_true, List.argmin_concat]
      cases (l.filter s.isPingable).argmin fun i => (s.lastPingSent i).toNat with
      | none => exact oldest_none hi
      | some t => exact oldest_found hi t
    · rw [Bool.not_eq_true _ |>.mp hi, cond_false, List.append_nil]
      exact if_neg fun h => hi h.1

variable {t : Nat}

theorem found_some (h : s.lastPingSent t ≠ 0xFFFFFFFF) : (s.found (some t)).1 = some t := by
  have hlt : s.lastPingSent t < 0xFFFFFFFF := by bv_omega
  exact congrArg Prod.fst (if_pos hlt)

theorem found_end (h : s.lastPingSent t = 0xFFFFFFFF) : (s.found (some t)).1 = none := by
  have hge : ¬ s.lastPingSent t < 0xFFFFFFFF := by bv_omega
  exact congrArg Prod.fst (if_neg hge)

theorem findOldest_eq (s : Pinger) :
    s.findOldest = (s.found (s.pingable.argmin fun i => (s.lastPingSent i).toNat)).1 :=
  congrArg Prod.fst (s.foldl_oldest s.connections)

/-- What the loop finds: the first of the oldest pingable connections, unless its time is the last
one of the clock. -/
theorem findOldest_eq_some : s.findOldest = some t ↔ t ∈ s.pingable ∧
    s.lastPingSent t ≠ 0xFFFFFFFF ∧ ∀ j ∈ s.pingable, s.lastPingSent t ≤ s.lastPingSent j ∧
      (s.lastPingSent j = s.lastPingSent t → s.pingable.idxOf t ≤ s.pingable.idxOf j) := by
  have hargmin := @List.argmin_eq_some_iff _ _ _ (fun i => (s.lastPingSent i).toNat) s.pingable t _
  rw [findOldest_eq]
  constructor
  · intro h
    cases hmin : s.pingable.argmin fun i => (s.lastPingSent i).toNat with
    | none =>
      rw [hmin] at h
      cases h
    | some u =>
      rw [hmin] at h
      by_cases hend : s.lastPingSent u = 0xFFFFFFFF
      · rw [found_end hend] at h
        cases h
      · rw [found_some hend] at h
        obtain rfl := Option.some.inj h
        obtain ⟨hmem, hleast, hfirst⟩ := hargmin.mp hmin
        refine ⟨hmem, hend, fun j hj => ⟨hleast j hj, fun heq => hfirst j hj ?_⟩⟩
        rw [heq]
  · rintro ⟨hmem, hend, hleast⟩
    rw [hargmin.mpr ⟨hmem, fun j hj => (hleast j hj).1, fun j hj hle => (hleast j hj).2 ?_⟩]
    · exact found_some hend
    · have := (hleast j hj).1
      bv_omega

theorem findOldest_ne_none (ht : t ∈ s.pingable) (hend : s.lastPingSent t ≠ 0xFFFFFFFF) :
    s.findOldest ≠ none := by
  rw [findOldest_eq]
  cases hmin : s.pingable.argmin fun i => (s.lastPingSent i).toNat with
  | none =>
    rw [List.argmin_eq_none.mp hmin] at ht
    cases ht
  | some u =>
    have hle : s.lastPingSent u ≤ s.lastPingSent t := (List.argmin_eq_some_iff.mp hmin).2.1 t ht
    rw [found_some (by bv_omega)]
    exact Option.some_ne_none u

theorem findOldest_eq_none (h : s.pingable = []) : s.findOldest = none := by
  rw [findOldest_eq, h]
  rfl

/-! ## Steady channels -/

/-- The loop comes to the best connection, too, wherever the clock stands before its time-out: it
was pinged just now, or the time-out is over, and all others were pinged since, within the delay. -/
structure StaysBest (s : Pinger) (now : U32) (b : Nat) : Prop where
  mem : b ∈ s.pingable
  age : now = s.lastPingSent b ∨ maxCurrentWritableDelay < now - s.lastPingSent b
  others : ∀ j ∈ s.pingable, s.lastPingSent j - s.lastPingSent b ≤ maxCurrentWritableDelay ∧
    (s.lastPingSent j = s.lastPingSent b → s.pingable.idxOf b ≤ s.pingable.idxOf j)

/-- There is nothing to ping, or the best connection is the one to ping in any case. -/
def PingSteady (s : Pinger) (now : U32) : Prop :=
  match s.writableBest with
  | some b => overtime (s.lastPingSent b) maxCurrentWritableDelay now = 0 ∨ s.StaysBest now b
  | none => s.pingable = []

theorem later_zero (s : Pinger) : s.later 0 = s := by
  have hconn : (fun i => (s.conn i).later 0) = s.conn := funext fun i => (s.conn i).later_zero
  have hsent : (fun i => s.lastPingSent i + 0) = s.lastPingSent :=
    funext fun i => BitVec.add_zero (s.lastPingSent i)
  unfold later
  rw [hconn, hsent]

theorem later_find_none (h : s.writableBest = none) (k : U32) :
    (s.later k).findNextPingableConnection (now + k) = (s.later k).findOldest := by
  have hsame : (s.later k).writableBest = s.writableBest := rfl
  unfold findNextPingableConnection
  rw [hsame, h]

theorem later_find_some (h : s.writableBest = some b) (k : U32) :
    (s.later k).findNextPingableConnection (now + k) =
      if overtime (s.lastPingSent b) maxCurrentWritableDelay now ≤ now + k then some b
      else (s.later k).findOldest := by
  have hsame : (s.later k).writableBest = s.writableBest := rfl
  have hsent : (s.later k).lastPingSent b = s.lastPingSent b + k := rfl
  unfold findNextPingableConnection
  rw [hsame, h]
  simp only [hsent, le_iff_over]

theorem later_findOldest {k : U32} : (s.later k).findOldest = some t ↔
    t ∈ s.pingable ∧ s.lastPingSent t + k ≠ 0xFFFFFFFF ∧ ∀ j ∈ s.pingable,
      s.lastPingSent t + k ≤ s.lastPingSent j + k ∧
        (s.lastPingSent j + k = s.lastPingSent t + k →
          s.pingable.idxOf t ≤ s.pingable.idxOf j) := findOldest_eq_some

theorem loop_moves (v : Option Nat) (h : ∀ k, (s.later k).findOldest = v) : s.pingable = [] := by
  refine List.eq_nil_iff_forall_not_mem.mpr fun j hj => ?_
  cases v with
  | none =>
    obtain ⟨k, hk⟩ := exists_later (s.lastPingSent j) 0
    have hsent : (s.later k).lastPingSent j = 0 := hk
    have hmem : j ∈ (s.later k).pingable := hj
    exact findOldest_ne_none hmem (by rw [hsent]; decide) (h k)
  | some i =>
    obtain ⟨k, hk⟩ := exists_later (s.lastPingSent i) 0xFFFFFFFF
    exact (later_findOldest.mp (h k)).2.1 hk

theorem staysBest_iff (hover : overtime (s.lastPingSent b) maxCurrentWritableDelay now ≠ 0) :
    (∀ k, ¬ overtime (s.lastPingSent b) maxCurrentWritableDelay now ≤ now + k →
      (s.later k).findOldest = some b) ↔ s.StaysBest now b := by
  have hdelay : maxCurrentWritableDelay = 900 := rfl
  unfold overtime at hover ⊢
  rw [hdelay] at hover ⊢
  constructor
  · intro h
    obtain ⟨k, hk⟩ := exists_later now (now - s.lastPingSent b - 901)
    obtain ⟨hmem, -, hleast⟩ := later_findOldest.mp (h k (by bv_omega))
    refine ⟨hmem, ?_, fun j hj => ⟨?_, fun heq => (hleast j hj).2 (by rw [heq])⟩⟩
    · by_contra hage
      rw [not_or, hdelay] at hage
      obtain ⟨k', hk'⟩ := exists_later (s.lastPingSent b) 0xFFFFFFFF
      exact (later_findOldest.mp (h k' (by bv_omega))).2.1 hk'
    · have hle := (hleast j hj).1
      rw [hdelay]
      bv_omega
  · intro h k hk
    have hage := h.age
    rw [hdelay] at hage
    refine later_findOldest.mpr ⟨h.mem, by bv_omega, fun j hj => ⟨?_, fun heq => ?_⟩⟩
    · have hdiff := (h.others j hj).1
      rw [hdelay] at hdiff
      bv_omega
    · exact (h.others j hj).2 (by bv_omega)

theorem pingSteady_iff (s : Pinger) (now : U32) :
    (∀ k, (s.later k).findNextPingableConnection (now + k) = s.findNextPingableConnection now) ↔
      s.PingSteady now := by
  rw [moves_iff later_zero findNextPingableConnection]
  unfold PingSteady
  cases hb : s.writableBest with
  | none =>
    simp only [later_find_none hb]
    exact ⟨fun ⟨v, h⟩ => loop_moves v h, fun h => ⟨none, fun k => findOldest_eq_none h⟩⟩
  | some b =>
    simp only [later_find_some hb]
    constructor
    · rintro ⟨v, h⟩
      obtain ⟨k', hend⟩ := exists_later now 0xFFFFFFFF
      have hbest := h k'
      rw [if_pos (by rw [hend]; bv_omega)] at hbest
      refine or_iff_not_imp_left.mpr fun hover => (staysBest_iff hover).mp fun k hk => ?_
      have hsame := h k
      rw [if_neg hk] at hsame
      exact hsame.trans hbest.symm
    · intro h
      refine ⟨some b, fun k => ?_⟩
      split
      · rfl
      · rename_i hk
        have hover : overtime (s.lastPingSent b) maxCurrentWritableDelay now ≠ 0 := fun hzero =>
          hk (by rw [hzero]; bv_omega)
        exact (staysBest_iff hover).mpr (h.resolve_left hover) k hk

end Pinger

/-! ## Clear clocks -/

/-- The clock has not started over since the time, and does not within `CONNECTION_READ_TIMEOUT`,
the longest of the time-outs. -/
def ClearAt (now time : U32) : Prop :=
  time ≤ now ∧ time.toNat + connectionReadTimeout.toNat < 2 ^ 32

variable {time timeout : U32}

theorem clearAt_le (h : ClearAt now time) (h' : ClearAt (now + k) (time + k))
    (ht : timeout ≤ connectionReadTimeout) :
    time + k + timeout ≤ now + k ↔ time + timeout ≤ now := by
  have hread : connectionReadTimeout.toNat = 30000 := rfl
  unfold ClearAt at h h'
  rw [BitVec.le_def, hread] at ht
  rw [hread] at h h'
  bv_omega

theorem clearAt_lt (h : ClearAt now time) (h' : ClearAt (now + k) (time + k))
    (ht : timeout ≤ connectionReadTimeout) :
    time + k + timeout < now + k ↔ time + timeout < now := by
  have hread : connectionReadTimeout.toNat = 30000 := rfl
  unfold ClearAt at h h'
  rw [BitVec.le_def, hread] at ht
  rw [hread] at h h'
  bv_omega

theorem clearAt_order {t u : U32} (ht : ClearAt now t) (ht' : ClearAt (now + k) (t + k))
    (hu : ClearAt now u) (hu' : ClearAt (now + k) (u + k)) : t + k ≤ u + k ↔ t ≤ u := by
  have := ht.1
  have := ht'.1
  have := hu.1
  have := hu'.1
  bv_omega

theorem conservativeRttEstimate_le (rtt : U32) :
    conservativeRttEstimate rtt ≤ connectionReadTimeout := by
  have hmax := umax_toNat minimumRtt (umin maximumRtt (2 * rtt))
  have hmin := umin_toNat maximumRtt (2 * rtt)
  have hmaximum : maximumRtt.toNat = 3000 := rfl
  have hminimum : minimumRtt.toNat = 100 := rfl
  have hread : connectionReadTimeout.toNat = 30000 := rfl
  unfold conservativeRttEstimate
  rw [BitVec.le_def]
  omega

variable {pings : List U32}

theorem clear_tooLong (h : ∀ q ∈ pings, ClearAt now q)
    (h' : ∀ q ∈ pings, ClearAt (now + k) (q + k)) (ht : timeout ≤ connectionReadTimeout) :
    tooLongWithoutResponse (pings.map (· + k)) timeout (now + k) =
      tooLongWithoutResponse pings timeout now := by
  cases pings with
  | nil => rfl
  | cons q pings =>
    have hq : q ∈ q :: pings := List.mem_cons_self
    exact decide_eq_decide.mpr (clearAt_lt (h q hq) (h' q hq) ht)

theorem clear_tooMany {rtt : U32} (failures : Nat)
    (h : ∀ q ∈ pings, ClearAt now q) (h' : ∀ q ∈ pings, ClearAt (now + k) (q + k))
    (ht : rtt ≤ connectionReadTimeout) :
    tooManyFailures (pings.map (· + k)) failures rtt (now + k) =
      tooManyFailures pings failures rtt now := by
  unfold tooManyFailures
  rw [List.getElem?_map]
  cases hp : pings[failures - 1]? with
  | none => rfl
  | some p =>
    have hmem := List.mem_of_getElem? hp
    exact decide_eq_decide.mpr (clearAt_lt (h p hmem) (h' p hmem) ht)

namespace Connection

/-- The times that a connection holds for `UpdateState`. -/
def times (c : Connection) : List U32 :=
  c.lastPingReceived :: c.lastDataReceived :: c.pingsSinceLastResponse

theorem later_times (c : Connection) (k : U32) : (c.later k).times = c.times.map (· + k) := rfl

/-- A connection whose times are clear before and after a move. -/
structure Clears (c : Connection) (now k : U32) : Prop where
  here : ∀ time ∈ c.times, ClearAt now time
  there : ∀ time ∈ c.times, ClearAt (now + k) (time + k)

theorem Clears.readAfter (h : c.Clears now k) :
    (c.later k).readAfter (now + k) = c.readAfter now := by
  have hping : c.lastPingReceived ∈ c.times := List.mem_cons_self
  have hdata : c.lastDataReceived ∈ c.times := List.mem_cons_of_mem _ List.mem_cons_self
  have hlate : (c.later k).readLate (now + k) = c.readLate now :=
    congrArg₂ (· && ·)
      (decide_eq_decide.mpr (clearAt_le (h.here _ hping) (h.there _ hping) (BitVec.le_refl _)))
      (decide_eq_decide.mpr (clearAt_le (h.here _ hdata) (h.there _ hdata) (BitVec.le_refl _)))
  unfold Connection.readAfter
  rw [hlate]
  rfl

theorem Clears.writeAfter (h : c.Clears now k) :
    (c.later k).writeAfter (now + k) = c.writeAfter now := by
  have hpings : ∀ p ∈ c.pingsSinceLastResponse, p ∈ c.times := fun p hp =>
    List.mem_cons_of_mem _ (List.mem_cons_of_mem _ hp)
  have hhere : ∀ p ∈ c.pingsSinceLastResponse, ClearAt now p := fun p hp => h.here p (hpings p hp)
  have hthere : ∀ p ∈ c.pingsSinceLastResponse, ClearAt (now + k) (p + k) := fun p hp =>
    h.there p (hpings p hp)
  have hlate : (c.later k).writeLate (now + k) = c.writeLate now := by
    unfold writeLate later
    rw [clear_tooMany _ hhere hthere (conservativeRttEstimate_le _),
      clear_tooLong hhere hthere (by decide)]
  have hchecked : (c.later k).writeChecked (now + k) = c.writeChecked now := by
    unfold writeChecked
    rw [hlate]
    rfl
  have hlong : tooLongWithoutResponse (c.later k).pingsSinceLastResponse connectionWriteTimeout
      (now + k) = tooLongWithoutResponse c.pingsSinceLastResponse connectionWriteTimeout now :=
    clear_tooLong hhere hthere (by decide)
  unfold Connection.writeAfter
  rw [hchecked, hlong]

theorem readAfter_pinged (hclear : ClearAt now c.lastPingReceived)
    (hping : now - c.lastPingReceived < connectionReadTimeout) :
    c.readAfter now = c.readState := by
  have hread : connectionReadTimeout.toNat = 30000 := rfl
  have hnot : ¬ c.readLate now = true := by
    unfold readLate ClearAt at *
    rw [Bool.and_eq_true, decide_eq_true_eq]
    bv_omega
  exact if_neg fun hdue => hnot hdue.2

theorem ReadSteady.pinged (h : c.ReadSteady now)
    (hping : now - c.lastPingReceived < connectionReadTimeout) : c.readAfter now = c.readState := by
  refine if_neg fun hdue => ?_
  have hover := (h hdue.1).1
  unfold overtime at hover
  bv_omega

end Connection

namespace Pinger

variable {s : Pinger} {i b : Nat}

/-- The times that the channel holds. -/
def times (s : Pinger) : List U32 :=
  (s.best.toList ++ s.connections).flatMap fun i => s.lastPingSent i :: (s.conn i).times

def Clear (s : Pinger) (now : U32) : Prop := ∀ time ∈ s.times, ClearAt now time

/-- All its times lie within half of the range before the present. -/
def Recent (s : Pinger) (now : U32) : Prop := ∀ time ∈ s.times, (now - time).toNat < 2 ^ 31

/-- **A move agrees**: each connection comes to the same states, the same connection is the next one
to ping, and a connection that was pinged within the time-out does not time out. -/
structure AgreesAt (s : Pinger) (now k : U32) : Prop where
  readState : ∀ i ∈ s.connections, (((s.later k).conn i).updateState (now + k)).readState =
    ((s.conn i).updateState now).readState
  writeState : ∀ i ∈ s.connections, (((s.later k).conn i).updateState (now + k)).writeState =
    ((s.conn i).updateState now).writeState
  next : (s.later k).findNextPingableConnection (now + k) = s.findNextPingableConnection now
  pinged : ∀ i ∈ s.connections, now - (s.conn i).lastPingReceived < connectionReadTimeout →
    (s.conn i).readState ≠ .timeout →
      (((s.later k).conn i).updateState (now + k)).readState ≠ .timeout

/-- All connections are steady, and so is what is to be pinged next. -/
structure Steady (s : Pinger) (now : U32) : Prop where
  read : ∀ i ∈ s.connections, (s.conn i).ReadSteady now
  write : ∀ i ∈ s.connections, (s.conn i).WriteSteady now
  next : s.PingSteady now

theorem sent_mem_times (h : i ∈ s.connections ∨ i ∈ s.best) : s.lastPingSent i ∈ s.times := by
  refine List.mem_flatMap.mpr ⟨i, List.mem_append.mpr ?_, List.mem_cons_self⟩
  exact h.symm.imp_left Option.mem_toList.mpr

theorem clears_of_clear (h : s.Clear now) (h' : (s.later k).Clear (now + k))
    (hi : i ∈ s.connections) : (s.conn i).Clears now k := by
  have hmem : ∀ {s : Pinger} {time}, i ∈ s.connections → time ∈ (s.conn i).times →
      time ∈ s.times := fun hi ht =>
    List.mem_flatMap.mpr ⟨i, List.mem_append_right _ hi, List.mem_cons_of_mem _ ht⟩
  refine ⟨fun time ht => h time (hmem hi ht), fun time ht => h' (time + k) (hmem hi ?_)⟩
  show time + k ∈ ((s.conn i).later k).times
  rw [Connection.later_times]
  exact List.mem_map_of_mem ht

theorem clear_findOldest (h : s.Clear now) (h' : (s.later k).Clear (now + k)) :
    (s.later k).findOldest = s.findOldest := by
  have hin : ∀ j ∈ s.pingable, j ∈ s.connections := fun j hj => (List.mem_filter.mp hj).1
  have hhere : ∀ j ∈ s.pingable, ClearAt now (s.lastPingSent j) := fun j hj =>
    h _ (sent_mem_times (Or.inl (hin j hj)))
  have hthere : ∀ j ∈ s.pingable, ClearAt (now + k) (s.lastPingSent j + k) := fun j hj =>
    h' _ (sent_mem_times (Or.inl (hin j hj)))
  have hend : ∀ {now time : U32}, ClearAt now time → time ≠ 0xFFFFFFFF := by
    rintro now time ⟨-, hlt⟩ rfl
    exact absurd hlt (by decide)
  refine Option.ext fun t => ?_
  rw [later_findOldest, findOldest_eq_some]
  refine and_congr_right fun ht => and_congr ?_ (forall₂_congr fun j hj => ?_)
  · exact iff_of_true (hend (hthere t ht)) (hend (hhere t ht))
  · rw [clearAt_order (hhere t ht) (hthere t ht) (hhere j hj) (hthere j hj)]
    refine and_congr_right fun _ => imp_congr_left ?_
    exact ⟨fun heq => by bv_omega, fun heq => by rw [heq]⟩

theorem clear_find (h : s.Clear now) (h' : (s.later k).Clear (now + k)) :
    (s.later k).findNextPingableConnection (now + k) = s.findNextPingableConnection now := by
  have hloop := clear_findOldest h h'
  have hsame : (s.later k).writableBest = s.writableBest := rfl
  unfold findNextPingableConnection
  rw [hsame, hloop]
  cases hb : s.writableBest with
  | none => rfl
  | some b =>
    have hbest : b ∈ s.best := (Option.filter_eq_some_iff.mp hb).1
    have hdelay : maxCurrentWritableDelay ≤ connectionReadTimeout := by decide
    have hcmp := clearAt_le (h _ (sent_mem_times (Or.inr hbest)))
      (h' _ (sent_mem_times (Or.inr hbest))) hdelay
    exact if_congr hcmp rfl rfl

/-- **While all times are clear, a move agrees.** -/
theorem agreesAt_of_clear (h : s.Clear now) (h' : (s.later k).Clear (now + k)) :
    s.AgreesAt now k := by
  have hread : ∀ i ∈ s.connections, (((s.later k).conn i).updateState (now + k)).readState =
      ((s.conn i).updateState now).readState := fun i hi => by
    rw [Connection.updateState_readState, Connection.updateState_readState]
    exact (clears_of_clear h h' hi).readAfter
  refine ⟨hread, fun i hi => ?_, clear_find h h', fun i hi hping hstate => ?_⟩
  · rw [Connection.updateState_writeState, Connection.updateState_writeState]
    exact (clears_of_clear h h' hi).writeAfter
  · have hclear := (clears_of_clear h h' hi).here _ List.mem_cons_self
    rw [hread i hi, Connection.updateState_readState, Connection.readAfter_pinged hclear hping]
    exact hstate

theorem steady_iff (s : Pinger) (now : U32) : (∀ k, s.AgreesAt now k) ↔ s.Steady now := by
  constructor
  · intro h
    refine ⟨fun i hi => ((s.conn i).readSteady_iff now).mp fun k => ?_,
      fun i hi => ((s.conn i).writeSteady_iff now).mp fun k => ?_,
      (s.pingSteady_iff now).mp fun k => (h k).next⟩
    · rw [← Connection.updateState_readState, ← Connection.updateState_readState]
      exact (h k).readState i hi
    · rw [← Connection.updateState_writeState, ← Connection.updateState_writeState]
      exact (h k).writeState i hi
  · intro h k
    have hread : ∀ i ∈ s.connections, (((s.later k).conn i).updateState (now + k)).readState =
        ((s.conn i).updateState now).readState := fun i hi => by
      rw [Connection.updateState_readState, Connection.updateState_readState]
      exact ((s.conn i).readSteady_iff now).mpr (h.read i hi) k
    refine ⟨hread, fun i hi => ?_, (s.pingSteady_iff now).mpr h.next k, fun i hi hping hstate => ?_⟩
    · rw [Connection.updateState_writeState, Connection.updateState_writeState]
      exact ((s.conn i).writeSteady_iff now).mpr (h.write i hi) k
    · rw [hread i hi, Connection.updateState_readState, (h.read i hi).pinged hping]
      exact hstate

/-- **When the clock does not matter**: every move agrees exactly if the channel is steady; and a
move agrees wherever the times are clear before and after it. -/
theorem clock_free_iff (s : Pinger) (now : U32) :
    ((∀ k, s.AgreesAt now k) ↔ s.Steady now) ∧
      ∀ k, s.Clear now → (s.later k).Clear (now + k) → s.AgreesAt now k :=
  ⟨s.steady_iff now, fun _ => agreesAt_of_clear⟩

/-- A channel with one readable connection, pinged 10 ms ago. -/
def samplePinger : Pinger where
  toSelector :=
    { Selector.sampleSelector with
      connections := [0]
      conn := fun _ =>
        { Selector.sampleConnection 7 .writable 100 with
          lastPingReceived := 5990, lastDataReceived := 5000 }
      best := none }
  lastPingSent _ := 5900
  connected _ := true

theorem pinged_times_out :
    samplePinger.Recent 6000 ∧ ¬ ∀ k, samplePinger.AgreesAt 6000 k := by
  constructor
  · show ∀ time ∈ [5900, 5990, 5000], (6000 - time : U32).toNat < 2 ^ 31
    simp
  · intro h
    exact absurd ((h (0xFFFFFFF0 - 6000)).pinged 0 (by decide) (by decide) (by decide)) (by decide)

end Pinger

end Libjingle
