import Libjingle.P2p.Port

/-!
# Sessions, transports, channels and ports (`session.cc`, `transport.cc`, `p2ptransportchannel.cc`)

The ICE role is copied down when an object is created and again when a conflict is handled: from the
`BaseSession` to its transports, from a transport to its channels, from a channel to the ports in
its list. A port outlives its place in the list: a new allocation clears the list, but not the ports
and their connections.

Each method is a function on the object; a call on the worker thread with `Send` is part of its
caller. Whether a port can connect to a candidate is a parameter, `accepts`.

* `Session.Uniform`, `uniform_run`: all transports, channels and connected ports have the session's
  role, in every run without a transport created after the conflict was handled and without a
  connection on a port that had been dropped by then.
* `dropped_port_keeps_role`, `late_transport_has_initial_role`: the two ways in which it fails.
-/

namespace Libjingle

/-! ## Data -/

/-- A candidate of the other side. -/
structure RemoteCandidate where
  address : SocketAddress
  username : List U8
  password : List U8
  generation : Nat
  deriving DecidableEq

/-- A `Connection`: its remote candidate and the transaction ids of its outstanding requests. -/
structure IceConnection where
  remote : RemoteCandidate
  requests : List (List U8)
  deriving DecidableEq

/-- A port object of a channel, with its connections. -/
structure ChannelPort where
  id : Nat
  port : Port
  connections : List IceConnection
  deriving DecidableEq

/-- `P2PTransportChannel`. `objects` are the ports that exist, `ports` is `ports_`; `refs` is the
reference count of its entry in the transport's map. -/
structure Channel where
  component : Nat
  refs : Nat
  role : TransportRole
  tiebreaker : U64
  protocol : IceProtocol
  ports : List Nat
  objects : List ChannelPort
  remoteCandidates : List RemoteCandidate
  deriving DecidableEq

/-- `Transport`: the channels of a content and their role. -/
structure Transport where
  contentName : String
  role : TransportRole
  tiebreaker : U64
  channels : List Channel
  deriving DecidableEq

/-- `BaseSession`. -/
structure Session where
  initiator : Bool
  iceTiebreaker : U64
  roleSwitch : Bool
  transports : List Transport
  deriving DecidableEq

/-! ## Channels -/

namespace Channel

/-- `SetIceRole` of a port. -/
def setPortRole (role : TransportRole) (o : ChannelPort) : ChannelPort :=
  { o with port := { o.port with role := role } }

/-- `SetRole`: the ports in the list follow. -/
def setRole (c : Channel) (role : TransportRole) : Channel :=
  { c with
    role := role
    objects := c.objects.map fun o => if o.id ∈ c.ports then setPortRole role o else o }

/-- `AddAllocatorSession`: new candidates are for the ports of the new session only. -/
def addAllocatorSession (c : Channel) : Channel := { c with ports := [] }

/-- A change to a port. -/
def updatePort (c : Channel) (id : Nat) (f : ChannelPort → ChannelPort) : Channel :=
  { c with objects := c.objects.map fun o => if o.id = id then f o else o }

variable (accepts : ChannelPort → RemoteCandidate → Bool)

/-- `CreateConnection` on one port. -/
def connect (cand : RemoteCandidate) (o : ChannelPort) : ChannelPort :=
  if o.connections.any fun k => k.remote.address = cand.address then o
  else if accepts o cand then { o with connections := o.connections ++ [⟨cand, []⟩] }
  else o

/-- `RememberRemoteCandidate`. -/
def rememberRemoteCandidate (c : Channel) (cand : RemoteCandidate) : Channel :=
  -- Remove any candidates whose generation is older than this one.
  let kept := c.remoteCandidates.filter fun r => ¬ r.generation < cand.generation
  { c with remoteCandidates := if cand ∈ kept then kept else kept ++ [cand] }

/-- `CreateConnections`: on every port in the list, and on the origin port in any case. -/
def createConnections (c : Channel) (cand : RemoteCandidate) (origin : Option Nat) : Channel :=
  rememberRemoteCandidate
    { c with
      objects := c.objects.map fun o =>
        if o.id ∈ c.ports ∨ origin = some o.id then connect accepts cand o else o }
    cand

/-- `OnPortReady`. A port is announced once. -/
def onPortReady (c : Channel) (id : Nat) (port : Port) : Channel :=
  if c.objects.any fun o => o.id = id then c
  else
  let port := { port with iceProtocol := c.protocol, role := c.role, tiebreaker := c.tiebreaker }
  let o := c.remoteCandidates.foldl (fun o r => connect accepts r o) ⟨id, port, []⟩
  { c with ports := c.ports ++ [id], objects := c.objects ++ [o] }

/-- `OnConnectionDestroyed`, for the connection of a port to an address. -/
def onConnectionDestroyed (c : Channel) (id : Nat) (address : SocketAddress) : Channel :=
  c.updatePort id fun o =>
    { o with connections := o.connections.filter fun k => k.remote.address ≠ address }

/-- `OnPortDestroyed`. -/
def onPortDestroyed (c : Channel) (id : Nat) : Channel :=
  { c with ports := c.ports.filter (· ≠ id), objects := c.objects.filter (·.id ≠ id) }

/-- `Reset`. -/
def reset (c : Channel) : Channel := { c with ports := [], objects := [], remoteCandidates := [] }

/-- `SetIceProtocolType`. -/
def setIceProtocolType (c : Channel) (protocol : IceProtocol) : Channel :=
  { c with
    protocol := protocol
    objects := c.objects.map fun o =>
      if o.id ∈ c.ports then { o with port := { o.port with iceProtocol := protocol } } else o }

/-- What happens to a channel. -/
inductive Event where
  | addAllocatorSession
  | portReady (id : Nat) (port : Port)
  | candidate (cand : RemoteCandidate)
  | unknownAddress (id : Nat) (cand : RemoteCandidate)
  | connectionDestroyed (id : Nat) (address : SocketAddress)
  | portDestroyed (id : Nat)
  | reset
  | setIceProtocolType (protocol : IceProtocol)
  deriving DecidableEq

/-- One event of a session. -/
def step (c : Channel) : Event → Channel
  | .addAllocatorSession => c.addAllocatorSession
  | .portReady id port => c.onPortReady accepts id port
  | .candidate cand => c.createConnections accepts cand none
  | .unknownAddress id cand => c.createConnections accepts cand (some id)
  | .connectionDestroyed id address => c.onConnectionDestroyed id address
  | .portDestroyed id => c.onPortDestroyed id
  | .reset => c.reset
  | .setIceProtocolType protocol => c.setIceProtocolType protocol

end Channel

/-! ## Transports -/

namespace Transport

/-- `SetRole` and `SetRole_w`. -/
def setRole (t : Transport) (role : TransportRole) : Transport :=
  { t with role := role, channels := t.channels.map fun c => c.setRole role }

/-- A change to a channel. -/
def updateChannel (t : Transport) (component : Nat) (f : Channel → Channel) : Transport :=
  { t with channels := t.channels.map fun c => if c.component = component then f c else c }

/-- `CreateChannel_w`: the state of the transport is pushed down to a new channel. -/
def createChannel (t : Transport) (component : Nat) : Transport :=
  if t.channels.any fun c => c.component = component then
    t.updateChannel component fun c => { c with refs := c.refs + 1 }
  else { t with
    channels := t.channels ++ [⟨component, 1, t.role, t.tiebreaker, .google, [], [], []⟩] }

/-- `DestroyChannel_w`. -/
def destroyChannel (t : Transport) (component : Nat) : Transport :=
  let t := t.updateChannel component fun c => { c with refs := c.refs - 1 }
  { t with channels := t.channels.filter fun c => c.component ≠ component ∨ c.refs ≠ 0 }

end Transport

/-! ## Sessions -/

namespace Session

/-- The role by `initiator_`. -/
def initialRole (s : Session) : TransportRole := if s.initiator then .controlling else .controlled

/-- The reverse of the initial role. -/
def reverseRole (s : Session) : TransportRole := if s.initiator then .controlled else .controlling

/-- A new session. -/
def new (initiator : Bool) (iceTiebreaker : U64) : Session := ⟨initiator, iceTiebreaker, false, []⟩

/-- `GetTransportProxy` finds one. -/
def hasTransport (s : Session) (contentName : String) : Bool :=
  s.transports.any fun t => t.contentName = contentName

/-- `GetOrCreateTransportProxy`. -/
def getOrCreateTransportProxy (s : Session) (contentName : String) : Session :=
  if s.hasTransport contentName then s
  else { s with
    transports := s.transports ++ [⟨contentName, s.initialRole, s.iceTiebreaker, []⟩] }

/-- `DestroyTransportProxy`. -/
def destroyTransportProxy (s : Session) (contentName : String) : Session :=
  { s with transports := s.transports.filter fun t => t.contentName ≠ contentName }

/-- A change to a transport. -/
def updateTransport (s : Session) (contentName : String) (f : Transport → Transport) : Session :=
  { s with transports := s.transports.map fun t => if t.contentName = contentName then f t else t }

/-- `OnRoleConflict`: the role switches once. -/
def onRoleConflict (s : Session) : Session :=
  if s.roleSwitch then s
  else { s with
    roleSwitch := true
    -- Role will be reverse of initial role setting.
    transports := s.transports.map fun t => t.setRole s.reverseRole }

/-- What happens to a session. -/
inductive Event where
  | createTransport (contentName : String)
  | destroyTransport (contentName : String)
  | createChannel (contentName : String) (component : Nat)
  | destroyChannel (contentName : String) (component : Nat)
  | channel (contentName : String) (component : Nat) (event : Channel.Event)
  | roleConflict
  deriving DecidableEq

variable (accepts : ChannelPort → RemoteCandidate → Bool)

/-- One event. -/
def step (s : Session) : Event → Session
  | .createTransport contentName => s.getOrCreateTransportProxy contentName
  | .destroyTransport contentName => s.destroyTransportProxy contentName
  | .createChannel contentName component =>
    (s.getOrCreateTransportProxy contentName).updateTransport contentName
      fun t => t.createChannel component
  | .destroyChannel contentName component =>
    s.updateTransport contentName fun t => t.destroyChannel component
  | .channel contentName component event =>
    s.updateTransport contentName fun t =>
      t.updateChannel component fun c => c.step accepts event
  | .roleConflict => s.onRoleConflict

/-- Events one after another. -/
def run (s : Session) : List Event → Session
  | [] => s
  | e :: es => (s.step accepts e).run es

/-! ## The role of a session -/

/-- The role a session has: the initial one, and the reverse after a conflict was handled. -/
def role (s : Session) : TransportRole := if s.roleSwitch then s.reverseRole else s.initialRole

/-- All transports, all channels and all ports with a connection have the role of the session. -/
def Uniform (s : Session) : Prop :=
  ∀ t ∈ s.transports, t.role = s.role ∧ ∀ c ∈ t.channels, c.role = s.role ∧
    ∀ o ∈ c.objects, o.connections ≠ [] → o.port.role = s.role

/-- The events that keep the role uniform. -/
def Allowed (s : Session) : Event → Prop
  -- no transport is created after a conflict was handled
  | .createTransport contentName => s.roleSwitch = true → s.hasTransport contentName = true
  | .createChannel contentName _ => s.roleSwitch = true → s.hasTransport contentName = true
  -- a conflict is handled while every port with a connection is in the list of its channel
  | .roleConflict => s.roleSwitch = false → ∀ t ∈ s.transports, ∀ c ∈ t.channels,
      ∀ o ∈ c.objects, o.connections ≠ [] → o.id ∈ c.ports
  -- no connection is created on a port that was dropped before a conflict was handled
  | .channel contentName component (.unknownAddress id _) => ∀ t ∈ s.transports,
      t.contentName = contentName → ∀ c ∈ t.channels, c.component = component →
        ∀ o ∈ c.objects, o.id = id → o.id ∈ c.ports ∨ o.port.role = c.role
  | _ => True

/-- A run in which every event is allowed. -/
def AllowedRun (s : Session) : List Event → Prop
  | [] => True
  | e :: es => s.Allowed e ∧ (s.step accepts e).AllowedRun es

end Session

/-! ## One channel -/

variable {accepts : ChannelPort → RemoteCandidate → Bool} {r r' : TransportRole}

/-- A channel of role `r`: its listed ports and its ports with a connection have it too. -/
structure Channel.HasRole (c : Channel) (r : TransportRole) : Prop where
  role : c.role = r
  listed : ∀ o ∈ c.objects, o.id ∈ c.ports → o.port.role = r
  connected : ∀ o ∈ c.objects, o.connections ≠ [] → o.port.role = r

namespace Channel

variable {c : Channel}

theorem connect_id (cand : RemoteCandidate) (o : ChannelPort) :
    (connect accepts cand o).id = o.id := by
  unfold connect
  split
  · rfl
  split <;> rfl

theorem connect_port (cand : RemoteCandidate) (o : ChannelPort) :
    (connect accepts cand o).port = o.port := by
  unfold connect
  split
  · rfl
  split <;> rfl

theorem foldl_connect_port (l : List RemoteCandidate) : ∀ o : ChannelPort,
    (l.foldl (fun o r => connect accepts r o) o).port = o.port := by
  induction l with
  | nil => intro o; rfl
  | cons r l ih =>
    intro o
    rw [List.foldl_cons, ih, connect_port]

theorem HasRole.setRole (h : ∀ o ∈ c.objects, o.connections ≠ [] → o.id ∈ c.ports) :
    (c.setRole r').HasRole r' := by
  refine ⟨rfl, ?_, ?_⟩
  · intro o ho hid
    obtain ⟨o', ho', rfl⟩ := List.mem_map.mp ho
    split at hid
    · rename_i hl
      rw [if_pos hl]
      rfl
    · rename_i hl
      exact absurd hid hl
  · intro o ho hconn
    obtain ⟨o', ho', rfl⟩ := List.mem_map.mp ho
    split
    · rfl
    · rename_i hl
      rw [if_neg hl] at hconn
      exact absurd (h o' ho' hconn) hl

/-- Changes of the ports that keep their roles, and give new connections only to ports of role
`r`. -/
theorem HasRole.map {c' : Channel} {g : ChannelPort → ChannelPort} (h : c.HasRole r)
    (hc : c'.role = c.role) (hports : c'.ports = c.ports) (hobjects : c'.objects = c.objects.map g)
    (hid : ∀ o, (g o).id = o.id) (hrole : ∀ o, (g o).port.role = o.port.role)
    (hconn : ∀ o ∈ c.objects, (g o).connections ≠ [] → o.connections ≠ [] ∨ o.port.role = r) :
    c'.HasRole r := by
  refine ⟨hc.trans h.role, ?_, ?_⟩
  · intro o hmem hl
    rw [hobjects] at hmem
    obtain ⟨o', ho', rfl⟩ := List.mem_map.mp hmem
    rw [hid, hports] at hl
    rw [hrole]
    exact h.listed o' ho' hl
  · intro o hmem hne
    rw [hobjects] at hmem
    obtain ⟨o', ho', rfl⟩ := List.mem_map.mp hmem
    rw [hrole]
    rcases hconn o' ho' hne with hne | hr
    · exact h.connected o' ho' hne
    · exact hr

theorem HasRole.createConnections {cand : RemoteCandidate} {origin : Option Nat}
    (h : c.HasRole r)
    (ho : ∀ o ∈ c.objects, origin = some o.id → o.id ∈ c.ports ∨ o.port.role = c.role) :
    (c.createConnections accepts cand origin).HasRole r := by
  refine h.map rfl rfl rfl (fun o => ?_) (fun o => ?_) fun o hmem hne => ?_
  · split
    · exact connect_id cand o
    · rfl
  · split
    · rw [connect_port]
    · rfl
  · split at hne
    · rename_i hl
      right
      rcases hl with hl | hl
      · exact h.listed o hmem hl
      · rcases ho o hmem hl with hl | hrole
        · exact h.listed o hmem hl
        · exact hrole.trans h.role
    · exact Or.inl hne

theorem HasRole.onPortReady (h : c.HasRole r) (id : Nat) (port : Port) :
    (c.onPortReady accepts id port).HasRole r := by
  unfold Channel.onPortReady
  split
  · exact h
  rename_i hnew
  have hfresh : ∀ o ∈ c.objects, o.id ≠ id := by
    intro o ho hid
    exact hnew (List.any_eq_true.mpr ⟨o, ho, by simpa using hid⟩)
  refine ⟨h.role, ?_, ?_⟩
  · intro o ho hid
    rcases List.mem_append.mp ho with ho | ho
    · rcases List.mem_append.mp hid with hid | hid
      · exact h.listed o ho hid
      · exact absurd (List.mem_singleton.mp hid) (hfresh o ho)
    · obtain rfl := List.mem_singleton.mp ho
      rw [foldl_connect_port]
      exact h.role
  · intro o ho hconn
    rcases List.mem_append.mp ho with ho | ho
    · exact h.connected o ho hconn
    · obtain rfl := List.mem_singleton.mp ho
      rw [foldl_connect_port]
      exact h.role

/-- **One event of a channel.** -/
theorem HasRole.step (h : c.HasRole r) (e : Event)
    (ho : ∀ id cand, e = .unknownAddress id cand → ∀ o ∈ c.objects, o.id = id →
      o.id ∈ c.ports ∨ o.port.role = c.role) : (c.step accepts e).HasRole r := by
  cases e with
  | addAllocatorSession => exact ⟨h.role, fun _ _ hid => absurd hid (by simp [Channel.step,
      Channel.addAllocatorSession]), h.connected⟩
  | portReady id port => exact h.onPortReady id port
  | candidate cand =>
    exact h.createConnections fun _ _ hnone => by cases hnone
  | unknownAddress id cand =>
    refine h.createConnections fun o hmem hid => ?_
    exact ho id cand rfl o hmem (Option.some.inj hid).symm
  | connectionDestroyed id address =>
    refine h.map rfl rfl rfl (fun o => ?_) (fun o => ?_) fun o _ hne => Or.inl fun hnil => hne ?_
    · split <;> rfl
    · split <;> rfl
    · split
      · simp only [hnil, List.filter_nil]
      · exact hnil
  | portDestroyed id =>
    refine ⟨h.role, ?_, ?_⟩
    · intro o hmem hid
      exact h.listed o (List.mem_filter.mp hmem).1 (List.mem_filter.mp hid).1
    · intro o hmem hconn
      exact h.connected o (List.mem_filter.mp hmem).1 hconn
  | reset => exact ⟨h.role, fun _ hmem => absurd hmem (by simp [Channel.step, Channel.reset]),
      fun _ hmem => absurd hmem (by simp [Channel.step, Channel.reset])⟩
  | setIceProtocolType protocol =>
    refine h.map rfl rfl rfl (fun o => ?_) (fun o => ?_) fun o _ hne => Or.inl fun hnil => hne ?_
    · split <;> rfl
    · split <;> rfl
    · split <;> exact hnil

end Channel

/-! ## Transports and sessions -/

/-- A transport of role `r`, with its channels. -/
structure Transport.HasRole (t : Transport) (r : TransportRole) : Prop where
  role : t.role = r
  channels : ∀ c ∈ t.channels, c.HasRole r

namespace Transport

variable {t : Transport}

theorem HasRole.updateChannel (h : t.HasRole r) {component : Nat} {f : Channel → Channel}
    (hf : ∀ c ∈ t.channels, c.component = component → c.HasRole r → (f c).HasRole r) :
    (t.updateChannel component f).HasRole r := by
  refine ⟨h.role, fun c hc => ?_⟩
  obtain ⟨c', hc', rfl⟩ := List.mem_map.mp hc
  split
  · rename_i heq
    exact hf c' hc' heq (h.channels c' hc')
  · exact h.channels c' hc'

theorem HasRole.updateRefs (h : t.HasRole r) (component : Nat) (n : Channel → Nat) :
    (t.updateChannel component fun c => { c with refs := n c }).HasRole r :=
  h.updateChannel fun _ _ _ hc => ⟨hc.role, hc.listed, hc.connected⟩

theorem HasRole.createChannel (h : t.HasRole r) (component : Nat) :
    (t.createChannel component).HasRole r := by
  unfold Transport.createChannel
  split
  · exact h.updateRefs component _
  · refine ⟨h.role, fun c hc => ?_⟩
    rcases List.mem_append.mp hc with hc | hc
    · exact h.channels c hc
    · obtain rfl := List.mem_singleton.mp hc
      exact ⟨h.role, fun _ ho => absurd ho (by simp), fun _ ho => absurd ho (by simp)⟩

theorem HasRole.destroyChannel (h : t.HasRole r) (component : Nat) :
    (t.destroyChannel component).HasRole r := by
  have h' := h.updateRefs component fun c => c.refs - 1
  exact ⟨h'.role, fun c hc => h'.channels c (List.mem_filter.mp hc).1⟩

end Transport

namespace Session

variable {s : Session}

/-- What holds of a session in an allowed run. -/
def HasRole (s : Session) : Prop := ∀ t ∈ s.transports, t.HasRole s.role

theorem HasRole.uniform (h : s.HasRole) : s.Uniform := fun t ht =>
  ⟨(h t ht).role, fun c hc => ⟨((h t ht).channels c hc).role, ((h t ht).channels c hc).connected⟩⟩

variable {contentName : String}

theorem HasRole.updateTransport (h : s.HasRole) {f : Transport → Transport}
    (hf : ∀ t ∈ s.transports, t.contentName = contentName → t.HasRole s.role →
      (f t).HasRole s.role) : (s.updateTransport contentName f).HasRole := by
  intro t ht
  obtain ⟨t', ht', rfl⟩ := List.mem_map.mp ht
  split
  · rename_i heq
    exact hf t' ht' heq (h t' ht')
  · exact h t' ht'

theorem HasRole.getOrCreateTransportProxy (h : s.HasRole)
    (ha : s.roleSwitch = true → s.hasTransport contentName = true) :
    (s.getOrCreateTransportProxy contentName).HasRole := by
  unfold Session.getOrCreateTransportProxy
  split
  · exact h
  rename_i hnew
  intro t ht
  rcases List.mem_append.mp ht with ht | ht
  · exact h t ht
  · obtain rfl := List.mem_singleton.mp ht
    refine ⟨?_, fun _ hc => absurd hc (by simp)⟩
    -- the initial role is the role of the session, as no conflict was handled
    cases hsw : s.roleSwitch with
    | false => simp [Session.role, initialRole]
    | true => exact absurd (ha hsw) hnew

/-- **One event of a session.** -/
theorem HasRole.step (h : s.HasRole) {e : Event} (ha : s.Allowed e) :
    (s.step accepts e).HasRole := by
  cases e with
  | createTransport contentName => exact h.getOrCreateTransportProxy ha
  | destroyTransport contentName => exact fun t ht => h t (List.mem_filter.mp ht).1
  | createChannel contentName component =>
    exact (h.getOrCreateTransportProxy ha).updateTransport fun t _ _ ht =>
      ht.createChannel component
  | destroyChannel contentName component =>
    exact h.updateTransport fun t _ _ ht => ht.destroyChannel component
  | channel contentName component event =>
    refine h.updateTransport fun t ht htn hr => hr.updateChannel fun c hc hcc hcr => ?_
    refine hcr.step event fun id cand he o ho hid => ?_
    subst he
    exact ha t ht htn c hc hcc o ho hid
  | roleConflict =>
    show (s.onRoleConflict).HasRole
    unfold Session.onRoleConflict
    split
    · exact h
    rename_i hsw
    intro t ht
    obtain ⟨t', ht', rfl⟩ := List.mem_map.mp ht
    refine ⟨rfl, fun c hc => ?_⟩
    obtain ⟨c', hc', rfl⟩ := List.mem_map.mp hc
    exact Channel.HasRole.setRole (ha (by simpa using hsw) t' ht' c' hc')

theorem HasRole.run {es : List Event} : ∀ {s : Session}, s.HasRole → s.AllowedRun accepts es →
    (s.run accepts es).HasRole := by
  induction es with
  | nil => exact fun h _ => h
  | cons e es ih =>
    intro s h ha
    exact ih (h.step ha.1) ha.2

/-- **All transports, channels and connected ports have the role of their session**, in every state
of a run in which no transport is created after a conflict was handled, every port with a connection
is in the list of its channel when it is, and no port dropped before gets a connection after. -/
theorem uniform_run (initiator : Bool) (iceTiebreaker : U64) {es : List Event}
    (ha : (Session.new initiator iceTiebreaker).AllowedRun accepts es) :
    ((Session.new initiator iceTiebreaker).run accepts es).Uniform := by
  have h : (Session.new initiator iceTiebreaker).HasRole := fun t ht => by cases ht
  exact (h.run ha).uniform

/-- A port as an allocator makes it. -/
def samplePort : Port := ⟨.google, 1, [0x61], [0x62], .unknown, 0, false⟩

def sampleCandidate : RemoteCandidate := ⟨⟨.ipv4 0x0a000001, 5000⟩, [0x63], [0x64], 0⟩

/-- Two allocation rounds before the conflict, with a connection on the port of the second. -/
def switchingRun : List Event :=
  [.createChannel "audio" 1, .channel "audio" 1 .addAllocatorSession,
    .channel "audio" 1 (.portReady 0 samplePort), .channel "audio" 1 .addAllocatorSession,
    .channel "audio" 1 (.portReady 1 samplePort), .channel "audio" 1 (.candidate sampleCandidate),
    .roleConflict, .channel "audio" 1 (.portReady 2 samplePort)]

theorem uniform_run_switching :
    ((Session.new true 7).run (fun _ _ => true) switchingRun).Uniform := by
  refine uniform_run true 7 ?_
  simp only [switchingRun, AllowedRun, Allowed, and_true, true_and]
  refine ⟨by decide, ?_⟩
  decide

/-- The channel gets a connection, allocates again, and then a conflict is handled. -/
def droppingRun : List Event :=
  [.createChannel "audio" 1, .channel "audio" 1 .addAllocatorSession,
    .channel "audio" 1 (.portReady 0 samplePort), .channel "audio" 1 (.candidate sampleCandidate),
    .channel "audio" 1 .addAllocatorSession, .roleConflict]

/-- **A port that was dropped from the list keeps its role**, and pings with it. -/
theorem dropped_port_keeps_role :
    ¬ ((Session.new true 7).run (fun _ _ => true) droppingRun).Uniform := by
  unfold Uniform
  decide

/-- **A transport that is created after the conflict has the initial role.** -/
theorem late_transport_has_initial_role :
    ¬ ((Session.new true 7).run (fun _ _ => true)
      [.createTransport "audio", .roleConflict, .createTransport "video"]).Uniform := by
  unfold Uniform
  decide

end Session

end Libjingle
