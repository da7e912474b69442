import Libjingle.P2p.Port

/-!
# Connections (`port.h`, `port.cc`): the states of a candidate pair

A `Connection` with what decides its rank among the connections of a channel: the states of both
directions, the priorities and generations of its candidates, the network of its port and the
estimate of the round trip time. Times and priorities are 32-bit and wrap.
-/

namespace Libjingle

/-! ## Data -/

inductive ReadState where
  | init
  | readable
  | timeout
  deriving DecidableEq

/-- `Connection::WriteState`, best state first. -/
inductive WriteState where
  | writable
  | unreliable
  | init
  | timeout
  deriving DecidableEq

def WriteState.value : WriteState → Nat
  | writable => 0
  | unreliable => 1
  | init => 2
  | timeout => 3

/-- `Connection`, with what it reads of its port and of its candidates. A network is its address;
`deletes` counts the posted `MSG_DELETE` messages. -/
structure Connection where
  network : Nat
  iceProtocol : IceProtocol
  role : TransportRole
  portGeneration : U32
  localPriority : U32
  remotePriority : U32
  remoteGeneration : U32
  readState : ReadState
  writeState : WriteState
  pruned : Bool
  nominated : Bool
  rtt : U32
  pingsSinceLastResponse : List U32
  lastPingReceived : U32
  lastDataReceived : U32
  requests : List (List U8)
  deletes : Nat
  deriving DecidableEq

def connectionReadTimeout : U32 := 30 * 1000
def connectionWriteTimeout : U32 := 15 * 1000
def connectionWriteConnectTimeout : U32 := 5 * 1000
def connectionWriteConnectFailures : Nat := 5
def minimumRtt : U32 := 100
def maximumRtt : U32 := 3000
def kMinImprovement : Nat := 10

def conservativeRttEstimate (rtt : U32) : U32 := umax minimumRtt (umin maximumRtt (2 * rtt))

def tooManyFailures (pings : List U32) (maximumFailures : Nat) (rttEstimate now : U32) : Bool :=
  match pings[maximumFailures - 1]? with
  | none => false
  | some ping => ping + rttEstimate < now

def tooLongWithoutResponse (pings : List U32) (maximumTime now : U32) : Bool :=
  match pings with
  | [] => false
  | ping :: _ => ping + maximumTime < now

namespace Connection

/-! ## Changes of state -/

def checkTimeout (c : Connection) : Connection :=
  if (c.readState = .timeout ∨ c.readState = .init) ∧ c.writeState = .timeout then
    { c with deletes := c.deletes + 1 }
  else c

def setReadState (c : Connection) (value : ReadState) : Connection :=
  if value ≠ c.readState then checkTimeout { c with readState := value } else c

def setWriteState (c : Connection) (value : WriteState) : Connection :=
  if value ≠ c.writeState then checkTimeout { c with writeState := value } else c

def prune (c : Connection) : Connection :=
  if c.pruned then c else setWriteState { c with pruned := true, requests := [] } .timeout

def updateState (c : Connection) (now : U32) : Connection :=
  let rtt := conservativeRttEstimate c.rtt
  let c := if c.readState = .readable ∧ c.lastPingReceived + connectionReadTimeout ≤ now ∧
      c.lastDataReceived + connectionReadTimeout ≤ now then c.setReadState .timeout else c
  -- The order of these checks is important.
  let c := if c.writeState = .writable ∧
      tooManyFailures c.pingsSinceLastResponse connectionWriteConnectFailures rtt now ∧
      tooLongWithoutResponse c.pingsSinceLastResponse connectionWriteConnectTimeout now then
    c.setWriteState .unreliable else c
  if (c.writeState = .unreliable ∨ c.writeState = .init) ∧
      tooLongWithoutResponse c.pingsSinceLastResponse connectionWriteTimeout now then
    c.setWriteState .timeout else c

/-! ## The order on connections -/

/-- `priority`, RFC 5245, 5.7.2. The sum of the lower half is taken in 32 bits. -/
def priority (c : Connection) : U64 :=
  let pair (g d : U32) : U64 :=
    ((umin g d).setWidth 64 <<< 32) + (2 * umax g d + if g > d then 1 else 0).setWidth 64
  match c.role with
  | .unknown => 0
  | .controlling => pair c.localPriority c.remotePriority
  | .controlled => pair c.remotePriority c.localPriority

end Connection

/-- `CompareConnectionCandidates`. The difference of the generations is an unsigned one, read as an
`int`. -/
def compareConnectionCandidates (a b : Connection) : Int :=
  if a.priority > b.priority then 1
  else if a.priority < b.priority then -1
  -- If we're still tied at this point, prefer a younger generation.
  else ((a.remoteGeneration + a.portGeneration) - (b.remoteGeneration + b.portGeneration)).toInt

def compareConnections (a b : Connection) : Int :=
  -- Better states have lower values.
  if a.writeState.value < b.writeState.value then 1
  else if a.writeState.value > b.writeState.value then -1
  else compareConnectionCandidates a b

/-- `ConnectionCompare`: `a` comes before `b`. -/
def connectionCompare (a b : Connection) : Bool :=
  let cmp := compareConnections a b
  if cmp > 0 then true
  else if cmp < 0 then false
  else a.rtt < b.rtt

/-! ## Lemmas -/

namespace Connection

variable {c : Connection}

/-- What the rank of a connection among its candidates is read from. -/
structure SameCandidates (c c' : Connection) : Prop where
  network : c'.network = c.network
  role : c'.role = c.role
  portGeneration : c'.portGeneration = c.portGeneration
  localPriority : c'.localPriority = c.localPriority
  remotePriority : c'.remotePriority = c.remotePriority
  remoteGeneration : c'.remoteGeneration = c.remoteGeneration

theorem SameCandidates.refl (c : Connection) : SameCandidates c c := ⟨rfl, rfl, rfl, rfl, rfl, rfl⟩

theorem SameCandidates.priority {c' : Connection} (h : SameCandidates c c') :
    c'.priority = c.priority := by
  unfold Connection.priority
  rw [h.role, h.localPriority, h.remotePriority]

theorem SameCandidates.compare {a a' b b' : Connection} (ha : SameCandidates a a')
    (hb : SameCandidates b b') :
    compareConnectionCandidates a' b' = compareConnectionCandidates a b := by
  unfold compareConnectionCandidates
  rw [ha.priority, hb.priority, ha.portGeneration, ha.remoteGeneration, hb.portGeneration,
    hb.remoteGeneration]

theorem checkTimeout_eq (c : Connection) : ∃ n, c.checkTimeout = { c with deletes := n } := by
  unfold checkTimeout
  split
  · exact ⟨_, rfl⟩
  · exact ⟨c.deletes, rfl⟩

theorem setWriteState_eq (c : Connection) (value : WriteState) :
    ∃ n, c.setWriteState value = { c with writeState := value, deletes := n } := by
  unfold setWriteState
  split
  · exact checkTimeout_eq _
  · rename_i h
    obtain rfl := not_not.mp h
    exact ⟨c.deletes, rfl⟩

theorem setReadState_eq (c : Connection) (value : ReadState) :
    ∃ n, c.setReadState value = { c with readState := value, deletes := n } := by
  unfold setReadState
  split
  · exact checkTimeout_eq _
  · rename_i h
    obtain rfl := not_not.mp h
    exact ⟨c.deletes, rfl⟩

/-- `Prune` of a connection that is not pruned: it times out. -/
theorem prune_eq (h : c.pruned = false) :
    ∃ n, c.prune =
      { c with pruned := true, requests := [], writeState := .timeout, deletes := n } := by
  unfold prune
  rw [if_neg (by simp [h])]
  exact setWriteState_eq _ _

theorem prune_prune (c : Connection) : c.prune.prune = c.prune := by
  refine if_pos ?_
  cases h : c.pruned with
  | true =>
    have hsame : c.prune = c := if_pos h
    rw [hsame]
    exact h
  | false =>
    obtain ⟨n, hn⟩ := prune_eq h
    rw [hn]

theorem prune_sameCandidates (c : Connection) : SameCandidates c c.prune := by
  cases h : c.pruned with
  | true =>
    have hsame : c.prune = c := if_pos h
    rw [hsame]
    exact .refl c
  | false =>
    obtain ⟨n, hn⟩ := prune_eq h
    rw [hn]
    exact ⟨rfl, rfl, rfl, rfl, rfl, rfl⟩

/-- `UpdateState` changes the two states, and nothing else. -/
theorem updateState_eq (c : Connection) (now : U32) :
    ∃ r w n, c.updateState now = { c with readState := r, writeState := w, deletes := n } := by
  unfold updateState
  extract_lets rtt c₁ c₂
  obtain ⟨r, n, h₁⟩ : ∃ r n, c₁ = { c with readState := r, deletes := n } := by
    simp only [c₁]
    split
    · obtain ⟨n, hn⟩ := setReadState_eq c .timeout
      exact ⟨_, n, hn⟩
    · exact ⟨c.readState, c.deletes, rfl⟩
  obtain ⟨w, n, h₂⟩ : ∃ w n, c₂ = { c with readState := r, writeState := w, deletes := n } := by
    simp only [c₂]
    rw [h₁]
    split
    · obtain ⟨n, hn⟩ := setWriteState_eq { c with readState := r, deletes := n } .unreliable
      exact ⟨_, n, hn⟩
    · exact ⟨c.writeState, n, rfl⟩
  rw [h₂]
  split
  · obtain ⟨n, hn⟩ :=
      setWriteState_eq { c with readState := r, writeState := w, deletes := n } .timeout
    exact ⟨r, _, n, hn⟩
  · exact ⟨r, w, n, rfl⟩

end Connection

end Libjingle
