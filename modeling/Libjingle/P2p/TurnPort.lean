import Libjingle.P2p.TurnServer

/-!
# Entries of a TURN port (`p2p/base/turnport.cc`, `stunrequest.cc`)

A `TurnPort` keeps a `TurnEntry` with a channel number for each remote address it connects to. An
entry stays until the port is deleted; connections come and go. Requests for permissions and channel
bindings wait in the request manager until they are answered or time out, and a successful binding
schedules the next request for it.

* `entries_sound`: a run is sound exactly if no connection is created to an address with an entry,
  the numbers do not run out, and no bound channel is bound again.
-/

namespace Libjingle

open StunMessage ByteBuffer

/-! ## Data -/

def turnChannelNumberStart : Nat := 0x4000

inductive BindState where
  | unbound
  | binding
  | bound
  deriving DecidableEq

structure TurnEntry where
  uid : Nat
  channelId : Nat
  extAddr : SocketAddress
  state : BindState
  deriving DecidableEq

/-- What a request in the manager is for: `TurnCreatePermissionRequest`,
`TurnChannelBindRequest`. -/
inductive TurnRequestKind where
  | createPermission
  | channelBind
  deriving DecidableEq

/-- `TurnRequestKind` to the type that `Prepare` sets. -/
def TurnRequestKind.type : TurnRequestKind → U16
  | .createPermission => turnCreatePermissionRequest
  | .channelBind => turnChannelBindRequest

/-- A request in the manager, with its entry. -/
structure TurnRequest where
  id : Nat
  kind : TurnRequestKind
  entry : Nat
  deriving DecidableEq

def getStunSuccessResponseType (type : U16) : Option U16 :=
  if isStunRequestType type then some (type ||| 0x100) else none

def getStunErrorResponseType (type : U16) : Option U16 :=
  if isStunRequestType type then some (type ||| 0x110) else none

/-- `TurnPort`. `asserted` is `false` once the assertion of `OnChannelBindSuccess` has failed. -/
structure TurnPort where
  ip : IPAddress
  nextChannelNumber : Nat
  entries : List TurnEntry
  connections : List SocketAddress
  requests : List TurnRequest
  nextRequest : Nat
  asserted : Bool
  deriving DecidableEq

/-- `IPIsPrivate` of an IPv6 address: link-local or loopback. -/
def ipv6IsPrivate (addr : BitVec 128) : Bool := addr >>> 112 = 0xFE80 || addr = 1

def isCompatibleAddress (ip : IPAddress) (addr : SocketAddress) : Bool :=
  match ip, addr.ip with
  | .unspec, .unspec => true
  | .ipv4 _, .ipv4 _ => true
  -- Link-local IPv6 ports can only connect to other link-local IPv6 ports.
  | .ipv6 a, .ipv6 b => ipv6IsPrivate a == ipv6IsPrivate b
  | _, _ => false

namespace TurnPort

/-! ## Operations -/

/-- `FindEntry` by address. -/
def findEntry (p : TurnPort) (addr : SocketAddress) : Option TurnEntry :=
  p.entries.find? fun e => e.extAddr = addr

/-- `SendRequest`: the request is scheduled. -/
def sendRequest (p : TurnPort) (kind : TurnRequestKind) (entry : Nat) : TurnPort :=
  { p with
    requests := p.requests ++ [⟨p.nextRequest, kind, entry⟩]
    nextRequest := p.nextRequest + 1 }

/-- `CreateEntry`, with the constructor of `TurnEntry`. -/
def createEntry (p : TurnPort) (addr : SocketAddress) : TurnPort :=
  let entry : TurnEntry := ⟨p.entries.length, p.nextChannelNumber, addr, .unbound⟩
  sendRequest { p with
    entries := p.entries ++ [entry]
    nextChannelNumber := p.nextChannelNumber + 1 } .createPermission entry.uid

/-- The candidate is one that `CreateConnection` accepts. -/
def accepts (p : TurnPort) (protocol : String) (addr : SocketAddress) : Bool :=
  protocol = "udp" && isCompatibleAddress p.ip addr

def createConnection (p : TurnPort) (protocol : String) (addr : SocketAddress) : TurnPort :=
  if p.accepts protocol addr then
    -- Create an entry, if needed, so we can get our permissions set up correctly.
    let p := p.createEntry addr
    { p with
      connections := if addr ∈ p.connections then p.connections else p.connections ++ [addr] }
  else p

def onConnectionDestroyed (p : TurnPort) (addr : SocketAddress) : TurnPort :=
  { p with connections := p.connections.filter (· ≠ addr) }

/-- The entry at an address in memory changes. -/
def setState (p : TurnPort) (uid : Nat) (state : BindState) : TurnPort :=
  { p with entries := p.entries.map fun e => if e.uid = uid then { e with state := state } else e }

/-- `TurnEntry::Send`: the packet for the data, a Send indication until the channel is bound. -/
def packet (e : TurnEntry) (data transactionId : List U8) : StunMessage ⊕ List U8 :=
  if e.state ≠ .bound then
    let msg := (StunMessage.new .turn).setType turnSendIndication
    let msg := (msg.setTransactionID transactionId).getD msg
    let msg := msg.withAttribute stunAttrXorPeerAddress (.xorAddress e.extAddr)
    .inl (msg.withAttribute stunAttrData (.byteString data))
  else .inr (writeUInt16 (BitVec.ofNat 16 e.channelId) ++
    writeUInt16 (BitVec.ofNat 16 data.length) ++ data)

/-- `SendTo`: what becomes of the port. -/
def sendTo (p : TurnPort) (addr : SocketAddress) (payload : Bool) : TurnPort :=
  match p.findEntry addr with
  | none => p
  | some e =>
    -- If we're sending real data, request a channel bind that we can use later.
    if e.state = .unbound ∧ payload then
      (p.sendRequest .channelBind e.uid).setState e.uid .binding
    else p

/-- `OnChannelBindSuccess`, and the request that keeps the binding. -/
def onChannelBindSuccess (p : TurnPort) (uid : Nat) : TurnPort :=
  let binding := p.entries.all fun e => e.uid = uid → e.state = .binding
  sendRequest { p.setState uid .bound with asserted := p.asserted && binding } .channelBind uid

/-- `Remove`. -/
def removeRequest (p : TurnPort) (id : Nat) : TurnPort :=
  { p with requests := p.requests.filter fun r => r.id ≠ id }

/-- `OnResponse` of the two requests. -/
def onResponse (p : TurnPort) (r : TurnRequest) : TurnPort :=
  match r.kind with
  | .createPermission => p
  | .channelBind => p.onChannelBindSuccess r.entry

/-- `CheckResponse`: the request is deleted after a response of one of its two types. -/
def checkResponse (p : TurnPort) (id : Nat) (type : U16) : TurnPort :=
  match p.requests.find? fun r => r.id = id with
  | none => p
  | some r =>
    if some type = getStunSuccessResponseType r.kind.type then
      (p.onResponse r).removeRequest id
    else if some type = getStunErrorResponseType r.kind.type then
      -- `OnCreatePermissionError` and `OnChannelBindError` only log
      p.removeRequest id
    else p

inductive Event where
  | createConnection (protocol : String) (addr : SocketAddress)
  | connectionDestroyed (addr : SocketAddress)
  | sendTo (addr : SocketAddress) (payload : Bool)
  | response (id : Nat) (type : U16)
  | requestTimeout (id : Nat)
  deriving DecidableEq

/-- One event of the port. -/
def step (p : TurnPort) : Event → TurnPort
  | .createConnection protocol addr => p.createConnection protocol addr
  | .connectionDestroyed addr => p.onConnectionDestroyed addr
  | .sendTo addr payload => p.sendTo addr payload
  | .response id type => p.checkResponse id type
  | .requestTimeout id => p.removeRequest id

def run (p : TurnPort) : List Event → TurnPort
  | [] => p
  | e :: es => (p.step e).run es

def new (ip : IPAddress) : TurnPort := ⟨ip, turnChannelNumberStart, [], [], [], 0, true⟩

/-! ## The property -/

/-- One entry per address, distinct channel numbers in range, and no failed assertion. -/
structure Sound (p : TurnPort) : Prop where
  addresses : (p.entries.map TurnEntry.extAddr).Nodup
  channels : (p.entries.map TurnEntry.channelId).Nodup
  range : ∀ e ∈ p.entries, 0x4000 ≤ e.channelId ∧ e.channelId ≤ 0x7FFF
  asserted : p.asserted = true

/-- The events that keep a port sound. -/
def Allowed (p : TurnPort) : Event → Prop
  -- a connection is created to an address without an entry, while there are channel numbers
  | .createConnection protocol addr => p.accepts protocol addr = true →
      p.findEntry addr = none ∧ p.nextChannelNumber ≤ 0x7FFF
  -- a channel that is bound is not bound again
  | .response id type => ∀ r, p.requests.find? (fun r => r.id = id) = some r →
      r.kind = .channelBind → some type = getStunSuccessResponseType turnChannelBindRequest →
      ∀ e ∈ p.entries, e.uid = r.entry → e.state ≠ .bound
  | _ => True

/-- A run in which every event is allowed. -/
def AllowedRun (p : TurnPort) : List Event → Prop
  | [] => True
  | e :: es => p.Allowed e ∧ (p.step e).AllowedRun es

/-! ## The invariant -/

variable {p : TurnPort}

/-- The entries are numbered as they were created, and a request to bind a channel is for an entry
that has left `STATE_UNBOUND`. -/
structure Numbered (p : TurnPort) : Prop where
  uids : p.entries.map TurnEntry.uid = List.range p.entries.length
  channels : ∀ e ∈ p.entries, e.channelId = turnChannelNumberStart + e.uid
  next : p.nextChannelNumber = turnChannelNumberStart + p.entries.length
  binds : ∀ r ∈ p.requests, r.kind = .channelBind → r.entry < p.entries.length ∧
    ∀ e ∈ p.entries, e.uid = r.entry → e.state ≠ .unbound

variable {e : TurnEntry}

theorem Numbered.uid_lt (h : p.Numbered) (he : e ∈ p.entries) : e.uid < p.entries.length := by
  have hmem : e.uid ∈ p.entries.map TurnEntry.uid := List.mem_map_of_mem he
  rw [h.uids] at hmem
  exact List.mem_range.mp hmem

variable {state : BindState}

theorem Numbered.setState (h : p.Numbered) (uid : Nat)
    (hs : state ≠ .unbound) : (p.setState uid state).Numbered := by
  have hlength : (p.setState uid state).entries.length = p.entries.length := List.length_map _
  refine ⟨?_, fun e he => ?_, ?_, fun r hr hkind => ?_⟩
  · rw [hlength, ← h.uids]
    unfold TurnPort.setState
    rw [List.map_map]
    refine List.map_congr_left fun e _ => ?_
    simp only [Function.comp_apply]
    split <;> rfl
  · obtain ⟨e', he', rfl⟩ := List.mem_map.mp he
    split <;> exact h.channels e' he'
  · rw [hlength]
    exact h.next
  · rw [hlength]
    obtain ⟨hlt, hstate⟩ := h.binds r hr hkind
    refine ⟨hlt, fun e he heq => ?_⟩
    obtain ⟨e', he', rfl⟩ := List.mem_map.mp he
    split at heq
    · rename_i hu
      rw [if_pos hu]
      exact hs
    · rename_i hu
      rw [if_neg hu]
      exact hstate e' he' heq

variable {uid : Nat}

theorem Numbered.sendRequest (h : p.Numbered) {kind : TurnRequestKind}
    (hkind : kind = .channelBind → uid < p.entries.length ∧
      ∀ e ∈ p.entries, e.uid = uid → e.state ≠ .unbound) :
    (p.sendRequest kind uid).Numbered := by
  refine ⟨h.uids, h.channels, h.next, fun r hr hbind => ?_⟩
  rcases List.mem_append.mp hr with hr | hr
  · exact h.binds r hr hbind
  · obtain rfl := List.mem_singleton.mp hr
    exact hkind hbind

theorem Numbered.createConnection (h : p.Numbered) (protocol : String) (addr : SocketAddress) :
    (p.createConnection protocol addr).Numbered := by
  unfold TurnPort.createConnection
  split
  · refine ⟨?_, fun e he => ?_, ?_, fun r hr hkind => ?_⟩
    · simp only [createEntry, TurnPort.sendRequest, List.map_append, List.map_cons, List.map_nil,
        List.length_append, List.length_cons, List.length_nil, List.range_succ, h.uids,
        Nat.zero_add]
    · rcases List.mem_append.mp he with he | he
      · exact h.channels e he
      · obtain rfl := List.mem_singleton.mp he
        exact h.next
    · simp only [createEntry, TurnPort.sendRequest, List.length_append, List.length_cons,
        List.length_nil, h.next]
      rfl
    · rcases List.mem_append.mp hr with hr | hr
      · obtain ⟨hlt, hstate⟩ := h.binds r hr hkind
        refine ⟨?_, fun e he heq => ?_⟩
        · simp only [createEntry, TurnPort.sendRequest, List.length_append]
          omega
        · rcases List.mem_append.mp he with he | he
          · exact hstate e he heq
          · obtain rfl := List.mem_singleton.mp he
            exact absurd heq (Nat.ne_of_gt hlt)
      · obtain rfl := List.mem_singleton.mp hr
        cases hkind
  · exact h

theorem setState_state
    (he : e ∈ (p.setState uid state).entries) (hu : e.uid = uid) : e.state = state := by
  obtain ⟨e', -, rfl⟩ := List.mem_map.mp he
  by_cases h : e'.uid = uid
  · rw [if_pos h]
  · rw [if_neg h] at hu
    exact absurd hu h

theorem setState_length (uid : Nat) (state : BindState) :
    (p.setState uid state).entries.length = p.entries.length := List.length_map _

theorem Numbered.sendTo (h : p.Numbered) (addr : SocketAddress) (payload : Bool) :
    (p.sendTo addr payload).Numbered := by
  unfold TurnPort.sendTo
  split
  · exact h
  · rename_i e hfind
    split
    · -- the state is set after the request is made
      have hset : (p.setState e.uid .binding).Numbered := h.setState e.uid nofun
      have hsent : ((p.setState e.uid .binding).sendRequest .channelBind e.uid).Numbered := by
        refine hset.sendRequest fun _ => ⟨?_, fun e' he' heq => ?_⟩
        · rw [setState_length]
          exact h.uid_lt (List.mem_of_find?_eq_some hfind)
        · rw [setState_state he' heq]
          nofun
      exact hsent
    · exact h

theorem Numbered.onChannelBindSuccess (h : p.Numbered) (hu : uid < p.entries.length) :
    (p.onChannelBindSuccess uid).Numbered := by
  have hset : (p.setState uid .bound).Numbered := h.setState uid nofun
  have hsent : ((p.setState uid .bound).sendRequest .channelBind uid).Numbered := by
    refine hset.sendRequest fun _ => ⟨?_, fun e he heq => ?_⟩
    · rw [setState_length]
      exact hu
    · rw [setState_state he heq]
      nofun
  exact ⟨hsent.uids, hsent.channels, hsent.next, hsent.binds⟩

theorem Numbered.removeRequest (h : p.Numbered) (id : Nat) : (p.removeRequest id).Numbered :=
  ⟨h.uids, h.channels, h.next, fun r hr => h.binds r (List.mem_filter.mp hr).1⟩

theorem Numbered.checkResponse (h : p.Numbered) (id : Nat) (type : U16) :
    (p.checkResponse id type).Numbered := by
  unfold TurnPort.checkResponse
  split
  · exact h
  · rename_i r hfind
    have hmem : r ∈ p.requests := List.mem_of_find?_eq_some hfind
    split
    · refine Numbered.removeRequest ?_ id
      unfold onResponse
      split
      · exact h
      · rename_i hkind
        exact h.onChannelBindSuccess (h.binds r hmem hkind).1
    · split
      · exact h.removeRequest id
      · exact h

/-- **Every event keeps the numbering.** -/
theorem Numbered.step (h : p.Numbered) (e : Event) : (p.step e).Numbered := by
  cases e with
  | createConnection protocol addr => exact h.createConnection protocol addr
  | connectionDestroyed addr => exact ⟨h.uids, h.channels, h.next, h.binds⟩
  | sendTo addr payload => exact h.sendTo addr payload
  | response id type => exact h.checkResponse id type
  | requestTimeout id => exact h.removeRequest id

theorem numbered_new (ip : IPAddress) : (new ip).Numbered :=
  ⟨rfl, nofun, rfl, nofun⟩

theorem Numbered.channels_nodup (h : p.Numbered) :
    (p.entries.map TurnEntry.channelId).Nodup := by
  have hmap : p.entries.map TurnEntry.channelId
      = (p.entries.map TurnEntry.uid).map (turnChannelNumberStart + ·) := by
    rw [List.map_map]
    exact List.map_congr_left h.channels
  rw [hmap, h.uids]
  exact List.nodup_range.map fun a b hab => Nat.add_left_cancel hab

/-- The channel numbers are in range while there are at most `0x4000` entries. -/
theorem Numbered.range_iff (h : p.Numbered) :
    (∀ e ∈ p.entries, 0x4000 ≤ e.channelId ∧ e.channelId ≤ 0x7FFF) ↔
      p.entries.length ≤ 0x4000 := by
  constructor
  · intro hrange
    by_contra hlong
    -- the last entry has the largest number
    have hlast : p.entries.length - 1 ∈ p.entries.map TurnEntry.uid := by
      rw [h.uids]
      exact List.mem_range.mpr (by omega)
    obtain ⟨e, he, huid⟩ := List.mem_map.mp hlast
    have hchannel := h.channels e he
    have hle := (hrange e he).2
    simp only [turnChannelNumberStart] at hchannel
    omega
  · intro hlen e he
    have hchannel := h.channels e he
    have hlt := h.uid_lt he
    simp only [turnChannelNumberStart] at hchannel
    omega

theorem Numbered.sound_iff (h : p.Numbered) :
    p.Sound ↔ (p.entries.map TurnEntry.extAddr).Nodup ∧ p.entries.length ≤ 0x4000 ∧
      p.asserted = true := by
  constructor
  · intro hs
    exact ⟨hs.addresses, h.range_iff.mp hs.range, hs.asserted⟩
  · rintro ⟨haddr, hlen, hassert⟩
    exact ⟨haddr, h.channels_nodup, h.range_iff.mpr hlen, hassert⟩

/-! ## What an event does to soundness -/

theorem setState_addresses (uid : Nat) (state : BindState) :
    (p.setState uid state).entries.map TurnEntry.extAddr = p.entries.map TurnEntry.extAddr := by
  unfold setState
  rw [List.map_map]
  refine List.map_congr_left fun e _ => ?_
  simp only [Function.comp_apply]
  split <;> rfl

theorem findEntry_eq_none {addr : SocketAddress} :
    p.findEntry addr = none ↔ addr ∉ p.entries.map TurnEntry.extAddr := by
  unfold findEntry
  rw [List.find?_eq_none]
  simp only [decide_eq_true_eq, List.mem_map, not_exists, not_and]

theorem sound_createConnection_iff (h : p.Numbered) (hs : p.Sound) (protocol : String)
    (addr : SocketAddress) :
    (p.createConnection protocol addr).Sound ↔ p.Allowed (.createConnection protocol addr) := by
  obtain ⟨haddr, hlen, hassert⟩ := h.sound_iff.mp hs
  by_cases haccepts : p.accepts protocol addr = true
  · rw [(h.createConnection protocol addr).sound_iff]
    unfold createConnection
    rw [if_pos haccepts]
    simp only [Allowed, findEntry_eq_none, h.next, createEntry, sendRequest, List.map_append,
      List.map_cons, List.map_nil, List.nodup_append, List.length_append, List.length_cons,
      List.length_nil, haddr, hassert, turnChannelNumberStart, List.mem_singleton, haccepts,
      true_implies]
    constructor
    · rintro ⟨⟨-, -, hne⟩, hle, -⟩
      exact ⟨fun hmem => hne addr hmem addr rfl rfl, by omega⟩
    · rintro ⟨hmem, hle⟩
      refine ⟨⟨trivial, by simp, fun a ha b hb hab => ?_⟩, by omega, trivial⟩
      exact hmem (hb ▸ hab ▸ ha)
  · unfold Allowed createConnection
    rw [if_neg haccepts]
    exact ⟨fun _ hacc => absurd hacc haccepts, fun _ => hs⟩

theorem sound_sendTo (h : p.Numbered) (hs : p.Sound) (addr : SocketAddress) (payload : Bool) :
    (p.sendTo addr payload).Sound := by
  refine (h.sendTo addr payload).sound_iff.mpr ?_
  unfold sendTo
  split
  · exact h.sound_iff.mp hs
  · split
    · rename_i e _ _
      rw [setState_addresses, setState_length]
      exact h.sound_iff.mp hs
    · exact h.sound_iff.mp hs

theorem sound_onChannelBindSuccess_iff (h : p.Numbered) (hs : p.Sound) {r : TurnRequest}
    (hr : r ∈ p.requests) (hkind : r.kind = .channelBind) :
    (p.onChannelBindSuccess r.entry).Sound ↔
      ∀ e ∈ p.entries, e.uid = r.entry → e.state ≠ .bound := by
  obtain ⟨haddr, hlen, hassert⟩ := h.sound_iff.mp hs
  obtain ⟨hlt, hstate⟩ := h.binds r hr hkind
  have hentries : (p.onChannelBindSuccess r.entry).entries = (p.setState r.entry .bound).entries :=
    rfl
  rw [(h.onChannelBindSuccess hlt).sound_iff, hentries, setState_addresses, setState_length]
  simp only [onChannelBindSuccess, sendRequest, hassert, Bool.true_and, List.all_eq_true,
    decide_eq_true_eq, haddr, hlen, true_and]
  refine forall_congr' fun e => forall_congr' fun he => forall_congr' fun heq => ?_
  have hne := hstate e he heq
  cases hcase : e.state <;> simp_all

theorem sound_removeRequest_iff (id : Nat) : (p.removeRequest id).Sound ↔ p.Sound :=
  ⟨fun hs => ⟨hs.addresses, hs.channels, hs.range, hs.asserted⟩,
    fun hs => ⟨hs.addresses, hs.channels, hs.range, hs.asserted⟩⟩

theorem sound_checkResponse_iff (h : p.Numbered) (hs : p.Sound) (id : Nat) (type : U16) :
    (p.checkResponse id type).Sound ↔ p.Allowed (.response id type) := by
  unfold checkResponse Allowed
  split
  · rename_i hnone
    refine ⟨fun _ r hr => ?_, fun _ => hs⟩
    rw [hnone] at hr
    cases hr
  · rename_i r hfind
    have hmem : r ∈ p.requests := List.mem_of_find?_eq_some hfind
    simp only [hfind, Option.some.injEq, forall_eq']
    split
    · rename_i htype
      rw [sound_removeRequest_iff]
      unfold onResponse
      split
      · rename_i hkind
        refine ⟨fun _ hk => ?_, fun _ => hs⟩
        rw [hkind] at hk
        cases hk
      · rename_i hkind
        rw [sound_onChannelBindSuccess_iff h hs hmem hkind]
        rw [hkind] at htype
        exact ⟨fun hall _ _ => hall, fun hall => hall hkind htype⟩
    · rename_i htype
      have hvac : r.kind = .channelBind →
          some type = getStunSuccessResponseType turnChannelBindRequest →
          ∀ e ∈ p.entries, e.uid = r.entry → e.state ≠ .bound := by
        intro hkind heq
        rw [hkind] at htype
        exact absurd heq htype
      split
      · exact ⟨fun _ => hvac, fun _ => (sound_removeRequest_iff id).mpr hs⟩
      · exact ⟨fun _ => hvac, fun _ => hs⟩

/-- **An event keeps a port sound exactly if it is allowed.** -/
theorem sound_step_iff (h : p.Numbered) (hs : p.Sound) (e : Event) :
    (p.step e).Sound ↔ p.Allowed e := by
  cases e with
  | createConnection protocol addr => exact sound_createConnection_iff h hs protocol addr
  | connectionDestroyed addr =>
    exact ⟨fun _ => trivial, fun _ => ⟨hs.addresses, hs.channels, hs.range, hs.asserted⟩⟩
  | sendTo addr payload => exact ⟨fun _ => trivial, fun _ => sound_sendTo h hs addr payload⟩
  | response id type => exact sound_checkResponse_iff h hs id type
  | requestTimeout id =>
    exact ⟨fun _ => trivial, fun _ => (sound_removeRequest_iff id).mpr hs⟩

/-! ## Runs -/

theorem sound_run_iff (h : p.Numbered) (hs : p.Sound) (es : List Event) :
    (∀ n, (p.run (es.take n)).Sound) ↔ p.AllowedRun es := by
  induction es generalizing p with
  | nil =>
    refine ⟨fun _ => trivial, fun _ n => ?_⟩
    rw [List.take_nil]
    exact hs
  | cons e es ih =>
    constructor
    · intro hall
      have hstep : (p.step e).Sound := hall 1
      refine ⟨(sound_step_iff h hs e).mp hstep, ?_⟩
      exact (ih (h.step e) hstep).mp fun n => hall (n + 1)
    · rintro ⟨hallowed, hrest⟩ n
      have hstep : (p.step e).Sound := (sound_step_iff h hs e).mpr hallowed
      cases n with
      | zero => exact hs
      | succ n => exact (ih (h.step e) hstep).mpr hrest n

/-- **The entries of a port.** In every state of a run there is one entry per address, the channel
numbers are distinct and in range and `OnChannelBindSuccess` has not failed its assertion, exactly
if no connection is created to an address that has an entry, none after the last channel number, and
no bound channel is bound again. -/
theorem entries_sound (ip : IPAddress) (es : List Event) :
    (∀ n, ((new ip).run (es.take n)).Sound) ↔ (new ip).AllowedRun es :=
  sound_run_iff (numbered_new ip) ⟨List.nodup_nil, List.nodup_nil, nofun, rfl⟩ es

/-- A second connection to `10.0.0.3:4000`, after the first is gone, makes a second entry. -/
theorem second_connection_second_entry :
    ¬ ∀ (ip : IPAddress) (es : List Event) (n : Nat), ((new ip).run (es.take n)).Sound := by
  intro hall
  have hs := hall (.ipv4 0x0A000001)
    [.createConnection "udp" ⟨.ipv4 0x0A000003, 4000⟩,
     .connectionDestroyed ⟨.ipv4 0x0A000003, 4000⟩,
     .createConnection "udp" ⟨.ipv4 0x0A000003, 4000⟩] 3
  exact absurd hs.addresses (by decide)

/-- The response to the second request for a channel finds it bound. -/
example :
    ((new (.ipv4 0x0A000001)).run
      [.createConnection "udp" ⟨.ipv4 0x0A000003, 4000⟩, .sendTo ⟨.ipv4 0x0A000003, 4000⟩ true,
       .response 1 0x0109, .response 2 0x0109]).asserted = false := by
  decide

end TurnPort

end Libjingle
