import Libjingle.P2p.RelayTables

/-!
# Runs of the relay server

A pointer in one of the maps is to an object while the tables are exact, so every event has a
result. The only event that can spoil the tables is a send request: it looks for the peer among the
external connections of its own binding, and not in `connections_`.

* `tables_correct`: a run is correct exactly if its events are allowed.
-/

namespace Libjingle.RelayServer

open Lib StunMessage

variable {s : RelayServer}

/-! ## The properties -/

/-- The binding a peer belongs to: the one that has its connection, or for a new peer the one it
names. -/
def Belongs (s : RelayServer) (bytes : List U8) (remoteAddr : SocketAddress)
    (b : RelayServerBinding) : Prop :=
  (∃ c ∈ b.connections, c.addrPair = ⟨remoteAddr, s.externalSocket.localAddress⟩) ∨
    (s.connections.lookup ⟨remoteAddr, s.externalSocket.localAddress⟩ = none ∧
      peerUsername bytes = some b.username)

/-- A peer's packet is sent to a client of the binding it belongs to, and nowhere if there is
none. -/
def Delivered (s : RelayServer) (out : List RelayOutput) : Event → Prop
  | .externalPacket _ bytes remoteAddr =>
    (∀ b ∈ s.objects, s.Belongs bytes remoteAddr b →
      ∃ c ∈ b.internalConnections, out = [c.sendFrom bytes remoteAddr]) ∧
    ((∀ b ∈ s.objects, ¬ s.Belongs bytes remoteAddr b) → out = [])
  | _ => True

/-- The destination of a packet that is a send request and is carried out. -/
def sendRequestDestination (c : RelayServerConnection) (b : RelayServerBinding) (bytes : List U8) :
    Option SocketAddress :=
  match parseStun bytes c.addrPair.source c.socket with
  | .error _ => none
  | .ok (username, request) =>
    if username = b.username ∧ request.type = stunSendRequest then
      match request.getAddress stunAttrDestinationAddress, request.getByteString stunAttrData with
      | some extAddr, some _ => some extAddr
      | _, _ => none
    else none

/-- The binding and the destination of a client's packet that is a send request. -/
def sendDestination (s : RelayServer) (socket : PacketSocket) (bytes : List U8)
    (remoteAddr : SocketAddress) : Option (RelayServerBinding × SocketAddress) := do
  let uid ← s.connections.lookup ⟨remoteAddr, socket.localAddress⟩
  let c ← s.connection uid
  let b ← s.binding c.binding
  if RelayServerBinding.hasMagicCookie bytes then
    (sendRequestDestination c b bytes).map fun extAddr => (b, extAddr)
  else none

/-- A client sends to a peer of its binding, or to one without a connection. -/
def Allowed (s : RelayServer) : Event → Prop
  | .internalPacket _ socket bytes remoteAddr => ∀ b extAddr,
      s.sendDestination socket bytes remoteAddr = some (b, extAddr) →
      b.getExternalConnection extAddr = none →
      s.connections.lookup ⟨extAddr, s.externalSocket.localAddress⟩ = none
  | _ => True

/-- A run in which every event is allowed. -/
def AllowedRun (s : RelayServer) : List Event → Prop
  | [] => True
  | e :: es => s.Allowed e ∧ ∀ s' out, s.step e = some (s', out) → s'.AllowedRun es

/-- A run with exact tables in every state, in which every event has a result and peers' packets are
delivered. -/
def Correct (s : RelayServer) : List Event → Prop
  | [] => s.tables.Exact
  | e :: es => s.tables.Exact ∧
      ∃ s' out, s.step e = some (s', out) ∧ s.Delivered out e ∧ s'.Correct es

/-! ## Pointers -/

theorem listed_tables :
    s.tables.listed = (s.objects.flatMap RelayServerBinding.connections).map
      RelayServerConnection.key := by
  unfold RelayTables.listed tables
  rw [List.flatMap_map, List.map_flatMap]
  exact List.flatMap_congr fun b _ => b.key_connections

variable {b : RelayServerBinding} {c : RelayServerConnection}

theorem mem_listed (hb : b ∈ s.objects) (hc : c ∈ b.connections) : c.key ∈ s.tables.listed := by
  rw [listed_tables]
  exact List.mem_map_of_mem (List.mem_flatMap.mpr ⟨b, hb, hc⟩)

theorem binding_of_mem (h : s.tables.WellFormed) (hb : b ∈ s.objects) :
    s.binding b.uid = some b := by
  have huids := h.bindingUids
  unfold tables at huids
  rw [List.map_map] at huids
  exact find_of_mem huids hb

theorem connection_of_mem (h : s.tables.WellFormed) (hb : b ∈ s.objects)
    (hc : c ∈ b.connections) : s.connection c.uid = some c := by
  have huids := h.connectionUids
  rw [listed_tables, List.map_map] at huids
  exact find_of_mem huids (List.mem_flatMap.mpr ⟨b, hb, hc⟩)

theorem owner_of_mem (h : s.tables.WellFormed) (hb : b ∈ s.objects)
    (hc : c ∈ b.connections) : c.binding = b.uid := by
  refine h.owner b.key (List.mem_map_of_mem hb) c.key ?_
  rw [b.key_connections]
  exact List.mem_map_of_mem hc

variable {uid : Nat}

theorem binding_uid (hb : s.binding uid = some b) : b.uid = uid := by
  unfold binding at hb
  simpa using List.find?_some hb

theorem uid_mem_tables (hb : b ∈ s.objects) : b.uid ∈ s.tables.objects.map BindingKey.uid :=
  List.mem_map.mpr ⟨b.key, List.mem_map_of_mem hb, rfl⟩

variable {ap : SocketAddressPair}

/-- **What `connections_` finds.** -/
theorem lookup_connection (h : s.tables.Valid) (hl : s.connections.lookup ap = some uid) :
    ∃ b ∈ s.objects, ∃ c ∈ b.connections, c.addrPair = ap ∧ s.connection uid = some c ∧
      s.binding c.binding = some b := by
  obtain ⟨k, hk, hpair, huid⟩ := (h.connections ap uid).mp hl
  rw [listed_tables] at hk
  obtain ⟨c, hc, rfl⟩ := List.mem_map.mp hk
  obtain ⟨b, hb, hcb⟩ := List.mem_flatMap.mp hc
  refine ⟨b, hb, c, hcb, hpair, ?_, ?_⟩
  · rw [← huid]
    exact connection_of_mem h.toWellFormed hb hcb
  · rw [owner_of_mem h.toWellFormed hb hcb]
    exact binding_of_mem h.toWellFormed hb

/-- **What `bindings_` finds.** -/
theorem lookup_binding (h : s.tables.Valid) {username : List U8}
    (hl : s.bindings.lookup username = some uid) :
    ∃ b ∈ s.objects, b.username = username ∧ b.uid = uid := by
  obtain ⟨k, hk, hname, huid⟩ := (h.bindings username uid).mp hl
  obtain ⟨b, hb, rfl⟩ := List.mem_map.mp hk
  exact ⟨b, hb, hname, huid⟩

/-- A connection in a binding is in `connections_`. -/
theorem lookup_of_mem (h : s.tables.Valid) (hb : b ∈ s.objects) (hc : c ∈ b.connections) :
    s.connections.lookup c.addrPair = some c.uid :=
  (h.connections c.addrPair c.uid).mpr ⟨c.key, mem_listed hb hc, rfl, rfl⟩

/-- A binding is in `bindings_`. -/
theorem lookup_username (h : s.tables.Valid) (hb : b ∈ s.objects) :
    s.bindings.lookup b.username = some b.uid :=
  (h.bindings b.username b.uid).mpr ⟨b.key, List.mem_map_of_mem hb, rfl, rfl⟩

theorem binding_isSome (hu : uid ∈ s.tables.objects.map BindingKey.uid) :
    ∃ b, s.binding uid = some b := by
  obtain ⟨k, hk, rfl⟩ := List.mem_map.mp hu
  obtain ⟨b, hb, rfl⟩ := List.mem_map.mp hk
  refine Option.isSome_iff_exists.mp (List.find?_isSome.mpr ⟨b, hb, ?_⟩)
  exact decide_eq_true rfl

theorem binding_updateBinding {f : RelayServerBinding → RelayServerBinding}
    (hf : ∀ b, (f b).uid = b.uid)
    (hb : s.binding uid = some b) : (s.updateBinding uid f).binding uid = some (f b) := by
  have huid := binding_uid hb
  have hname : ∀ x : RelayServerBinding, (if x.uid = uid then f x else x).uid = x.uid := by
    intro x
    split
    · exact hf x
    · rfl
  unfold binding updateBinding
  rw [List.find?_map]
  have hsame : (fun x : RelayServerBinding => decide (x.uid = uid)) ∘
      (fun x => if x.uid = uid then f x else x) = fun x => decide (x.uid = uid) := by
    funext x
    simp only [Function.comp_apply, hname]
  rw [hsame, show s.objects.find? _ = some b from hb, Option.map_some, if_pos huid]

theorem binding_updateConnection (f : RelayServerConnection → RelayServerConnection) (uid : Nat)
    {uid' : Nat} (hb : s.binding uid' = some b) :
    (s.updateConnection uid f).binding uid' = some { b with
      internalConnections := b.internalConnections.map fun c => if c.uid = uid then f c else c
      externalConnections := b.externalConnections.map fun c =>
        if c.uid = uid then f c else c } := by
  unfold binding updateConnection
  rw [List.find?_map]
  exact congrArg _ hb

/-! ## Timeouts -/

theorem pairs_nodup (h : s.tables.Valid) (hb : b ∈ s.objects) :
    (b.connections.map RelayServerConnection.addrPair).Nodup := by
  have hpairs := h.pairs
  rw [((RelayTables.listed_removeBinding h.toWellFormed (List.mem_map_of_mem hb)
    s.connections).map _).nodup_iff, List.map_append, b.key_connections, List.map_map] at hpairs
  exact (List.nodup_append.mp hpairs).1

/-- **A binding that is deleted finds its entries.** -/
theorem dispose_valid (h : s.tables.Valid) (uid : Nat) :
    ∃ s', s.dispose uid = some s' ∧ s'.tables.Valid := by
  unfold dispose
  split
  · exact ⟨s, rfl, h⟩
  · rename_i b hfind
    have hb : b ∈ s.objects := List.mem_of_find?_eq_some hfind
    split
    · have hmem : ∀ c ∈ b.connections, c.addrPair ∈ s.connections := by
        intro c hc
        rw [← AList.lookup_isSome, lookup_of_mem h hb hc]
        rfl
      obtain ⟨m, hm, hlookup⟩ := tables_removeConnections hmem (pairs_nodup h hb)
      have hname : b.username ∈ s.bindings := by
        rw [← AList.lookup_isSome, lookup_username h hb]
        rfl
      refine ⟨{ s with
        connections := m
        bindings := s.bindings.erase b.username
        objects := s.objects.filter fun b' => b'.uid ≠ b.uid }, ?_, ?_⟩
      · simp only [deleteBinding, hm, Option.bind_eq_bind, Option.bind_some, removeBinding,
          if_pos hname]
      · have hvalid := h.removeBinding (List.mem_map_of_mem hb) (m := m) fun ap => by
          rw [hlookup ap, b.key_connections, List.map_map]
          rfl
        have htables : (tables { s with
            connections := m
            bindings := s.bindings.erase b.username
            objects := s.objects.filter fun b' => b'.uid ≠ b.uid })
              = s.tables.removeBinding b.key m := by
          unfold tables RelayTables.removeBinding
          rw [List.filter_map]
          rfl
        exact htables ▸ hvalid
    · exact ⟨s, rfl, h⟩

/-! ## Packets of clients -/

theorem binding_newInternalConnection
    (hu : uid ∈ s.tables.objects.map BindingKey.uid) (now : U32) (ap : SocketAddressPair)
    (socket : PacketSocket) :
    ∃ b, (s.newInternalConnection now (s.newConnection uid ap socket)).binding uid = some b := by
  refine binding_isSome ?_
  rw [tables_newInternalConnection, RelayTables.uids_addConnection]
  exact hu

theorem handleStunAllocatePacket_valid (h : s.tables.Valid)
    (hap : s.connections.lookup ap = none) (now : U32) (bytes : List U8) (socket : PacketSocket) :
    ∃ s' out, s.handleStunAllocatePacket now bytes ap socket = some (s', out) ∧
      s'.tables.Valid := by
  unfold handleStunAllocatePacket
  split
  · exact ⟨s, _, rfl, h⟩
  · rename_i username request _
    split
    · exact ⟨s, _, rfl, h⟩
    · cases hl : s.bindings.lookup username with
      | some uid =>
        obtain ⟨b₀, hb₀, -, rfl⟩ := lookup_binding h hl
        have hvalid := h.addConnection true (uid_mem_tables hb₀) hap
        obtain ⟨b, hb⟩ := binding_newInternalConnection (uid_mem_tables hb₀) now ap socket
        simp only [findOrCreateBinding, hl, hb, Option.bind_eq_bind, Option.bind_some]
        refine ⟨_, _, rfl, ?_⟩
        rw [tables_noteUsed, tables_newInternalConnection]
        exact hvalid
      | none =>
        have hvalid := h.addBinding hl hap
        rw [← tables_newBinding h.toWellFormed now username (bindingLifetime request)] at hvalid
        have hu : s.nextUid ∈ (s.newBinding now username
            (bindingLifetime request)).tables.objects.map BindingKey.uid := by
          simp [newBinding, tables, RelayServerBinding.key]
        obtain ⟨b, hb⟩ := binding_newInternalConnection hu now ap socket
        simp only [findOrCreateBinding, hl, hb, Option.bind_eq_bind, Option.bind_some]
        refine ⟨_, _, rfl, ?_⟩
        rw [tables_noteUsed, tables_newInternalConnection]
        exact hvalid

/-- The tables after a send request: a connection is only added when the binding has none to the
destination. -/
def tablesAfterSend (s : RelayServer) (b : RelayServerBinding) (extAddr : SocketAddress) :
    RelayTables :=
  match b.getExternalConnection extAddr with
  | some _ => s.tables
  | none => s.tables.addConnection false b.uid ⟨extAddr, s.externalSocket.localAddress⟩

theorem tables_sendData (now : U32) (c : RelayServerConnection) (b : RelayServerBinding)
    (request : StunMessage) (extAddr : SocketAddress) (data : List U8) :
    (s.sendData now c b request extAddr data).1.tables = s.tablesAfterSend b extAddr := by
  have hfound : (s.findOrCreateExternal now b extAddr).1.tables = s.tablesAfterSend b extAddr := by
    unfold findOrCreateExternal tablesAfterSend
    cases b.getExternalConnection extAddr with
    | some e => rfl
    | none => exact tables_newExternalConnection now b.uid _ s.externalSocket
  rw [← hfound]
  simp only [sendData]
  split <;> split <;> simp only [tables_noteUsed, tables_lock, tables_setDefaultDestination]

theorem tables_handleStun (now : U32) (c : RelayServerConnection) (b : RelayServerBinding)
    (bytes : List U8) :
    (s.handleStun now c b bytes).1.tables =
      match sendRequestDestination c b bytes with
      | some extAddr => s.tablesAfterSend b extAddr
      | none => s.tables := by
  unfold handleStun sendRequestDestination
  cases parseStun bytes c.addrPair.source c.socket with
  | error out => rfl
  | ok parsed =>
    obtain ⟨username, request⟩ := parsed
    dsimp only
    by_cases hname : username = b.username
    · rw [if_neg (not_not.mpr hname)]
      by_cases hsend : request.type = stunSendRequest
      · rw [if_pos hsend, if_pos ⟨hname, hsend⟩]
        unfold handleStunSend
        cases request.getAddress stunAttrDestinationAddress with
        | none => rfl
        | some extAddr =>
          cases request.getByteString stunAttrData with
          | none => rfl
          | some data => exact tables_sendData now c b request extAddr data
      · have hother : ¬ (username = b.username ∧ request.type = stunSendRequest) :=
          fun hboth => hsend hboth.2
        rw [if_neg hsend, if_neg hother]
        split
        · exact tables_handleStunAllocate now c b request
        · rfl
    · have hother : ¬ (username = b.username ∧ request.type = stunSendRequest) :=
        fun hboth => hname hboth.1
      rw [if_pos hname, if_neg hother]

/-- **What a client's packet does to the tables.** -/
theorem onInternalPacket_spec (h : s.tables.Valid) (now : U32) (socket : PacketSocket)
    (bytes : List U8) (remoteAddr : SocketAddress) :
    ∃ s' out, s.onInternalPacket now socket bytes remoteAddr = some (s', out) ∧
      match s.sendDestination socket bytes remoteAddr with
      | some (b, extAddr) => b ∈ s.objects ∧ s'.tables = s.tablesAfterSend b extAddr
      | none => s'.tables.Valid := by
  cases hl : s.connections.lookup ⟨remoteAddr, socket.localAddress⟩ with
  | none =>
    simp only [onInternalPacket, sendDestination, hl, Option.bind_eq_bind, Option.bind_none]
    exact handleStunAllocatePacket_valid h hl now bytes socket
  | some uid =>
    obtain ⟨b, hb, c, -, -, hconn, hbind⟩ := lookup_connection h hl
    simp only [onInternalPacket, sendDestination, hl, hconn, hbind, Option.bind_eq_bind,
      Option.bind_some]
    by_cases hcookie : RelayServerBinding.hasMagicCookie bytes = true
    · rw [if_pos hcookie, if_pos hcookie]
      refine ⟨_, _, rfl, ?_⟩
      have htables := tables_handleStun (s := s) now c b bytes
      cases hdest : sendRequestDestination c b bytes with
      | none =>
        rw [hdest] at htables
        exact htables ▸ h
      | some extAddr =>
        rw [hdest] at htables
        exact ⟨hb, htables⟩
    · rw [if_neg hcookie, if_neg hcookie]
      refine ⟨_, _, rfl, ?_⟩
      exact (tables_forward now c b bytes).symm ▸ h

/-! ## Packets of peers -/

theorem getInternalConnection_mem (h : b.internalConnections ≠ []) (extAddr : SocketAddress) :
    ∃ c ∈ b.internalConnections, b.getInternalConnection extAddr = some c := by
  unfold RelayServerBinding.getInternalConnection
  split
  · rename_i c hfind
    exact ⟨c, List.mem_of_find?_eq_some hfind, rfl⟩
  · exact ⟨_, List.head_mem h, List.head?_eq_some_head h⟩

theorem internalConnections_ne_nil (h : s.tables.WellFormed)
    (hb : b ∈ s.objects) : b.internalConnections ≠ [] := by
  intro hnil
  refine h.internal b.key (List.mem_map_of_mem hb) ?_
  simp only [RelayServerBinding.key, hnil, List.map_nil]

theorem deliver_spec (h : s.tables.WellFormed) (hb : b ∈ s.objects)
    {e : RelayServerConnection} (he : e.binding = b.uid) (now : U32) (bytes : List U8) :
    ∃ c ∈ b.internalConnections, s.deliver now e bytes
      = some (s.noteUsed c.binding now, [c.sendFrom bytes e.addrPair.source]) := by
  obtain ⟨c, hc, hget⟩ :=
    getInternalConnection_mem (internalConnections_ne_nil h hb) e.addrPair.source
  refine ⟨c, hc, ?_⟩
  simp only [deliver, he, binding_of_mem h hb, hget, Option.bind_eq_bind, Option.bind_some]

theorem binding_newPeer (h : s.tables.WellFormed) (hb : b ∈ s.objects)
    (now : U32) (ap : SocketAddressPair) (socket : PacketSocket) :
    ∃ b', ((s.newExternalConnection now (s.newConnection b.uid ap socket)).lock
      s.nextUid).binding b.uid = some b' ∧ b'.internalConnections = b.internalConnections := by
  have hold : (b.internalConnections.map fun c : RelayServerConnection =>
      if c.uid = s.nextUid then { c with locked := true } else c) = b.internalConnections := by
    refine map_update_of_notMem (fun hmem => ?_) _
    obtain ⟨c, hc, huid⟩ := List.mem_map.mp hmem
    have hlt := h.connectionFresh c.key (mem_listed hb (List.mem_append_left _ hc))
    exact absurd huid (Nat.ne_of_lt hlt)
  have hused : (s.noteUsed b.uid now).binding b.uid = some { b with lastUsed := now } := by
    refine binding_updateBinding (fun _ => ?_) (binding_of_mem h hb)
    rfl
  have hadded : (s.newExternalConnection now (s.newConnection b.uid ap socket)).binding b.uid
      = some { b with
        lastUsed := now
        externalConnections := b.externalConnections ++ [s.newConnection b.uid ap socket] } := by
    refine binding_updateBinding (fun _ => ?_) hused
    rfl
  exact ⟨_, binding_updateConnection (fun c => { c with locked := true }) s.nextUid hadded, hold⟩

/-- **A peer's packet reaches the binding it belongs to.** -/
theorem onExternalPacket_spec (h : s.tables.Valid) (now : U32) (bytes : List U8)
    (remoteAddr : SocketAddress) :
    ∃ s' out, s.onExternalPacket now bytes remoteAddr = some (s', out) ∧ s'.tables.Valid ∧
      s.Delivered out (.externalPacket now bytes remoteAddr) := by
  cases hl : s.connections.lookup ⟨remoteAddr, s.externalSocket.localAddress⟩ with
  | some uid =>
    obtain ⟨b, hb, e, he, hpair, hconn, hbind⟩ := lookup_connection h hl
    have howner := owner_of_mem h.toWellFormed hb he
    obtain ⟨c, hc, hdeliver⟩ := deliver_spec h.toWellFormed hb howner now bytes
    simp only [onExternalPacket, hl, hconn, hdeliver, Option.bind_eq_bind, Option.bind_some]
    refine ⟨_, _, rfl, ?_, ?_, fun hnone => ?_⟩
    · rw [tables_lock, tables_noteUsed]
      exact h
    · rintro b' hb' (⟨c', hc', hpair'⟩ | ⟨hnew, -⟩)
      · -- the map has one connection for the pair
        have hl' := lookup_of_mem h hb' hc'
        rw [hpair', hl] at hl'
        have hsame : some e = some c' := by
          rw [← hconn, Option.some.inj hl']
          exact connection_of_mem h.toWellFormed hb' hc'
        have huid : b.uid = b'.uid := by
          rw [← howner, Option.some.inj hsame]
          exact owner_of_mem h.toWellFormed hb' hc'
        have hbb : some b = some b' := by
          rw [← binding_of_mem h.toWellFormed hb, huid]
          exact binding_of_mem h.toWellFormed hb'
        obtain rfl := Option.some.inj hbb
        exact ⟨c, hc, by rw [hpair]⟩
      · rw [hl] at hnew
        cases hnew
    · exact absurd (.inl ⟨e, he, hpair⟩) (hnone b hb)
  | none =>
    cases hname : (peerUsername bytes).bind s.bindings.lookup with
    | none =>
      simp only [onExternalPacket, hl, hname]
      refine ⟨_, _, rfl, h, ?_, fun _ => rfl⟩
      rintro b hb (⟨c, hc, hpair⟩ | ⟨-, huser⟩)
      · have hl' := lookup_of_mem h hb hc
        rw [hpair, hl] at hl'
        cases hl'
      · rw [huser, Option.bind_some, lookup_username h hb] at hname
        cases hname
    | some uid =>
      obtain ⟨username, huser, hlookup⟩ := Option.bind_eq_some_iff.mp hname
      obtain ⟨b, hb, rfl, rfl⟩ := lookup_binding h hlookup
      have hvalid := h.addConnection false (uid_mem_tables hb) hl
      rw [← tables_newExternalConnection now b.uid _ s.externalSocket,
        ← tables_lock s.nextUid] at hvalid
      obtain ⟨b', hb', hclients⟩ := binding_newPeer h.toWellFormed hb now
        ⟨remoteAddr, s.externalSocket.localAddress⟩ s.externalSocket
      have huid := binding_uid hb'
      obtain ⟨c, hc, hdeliver⟩ := deliver_spec hvalid.toWellFormed
        (List.mem_of_find?_eq_some hb') (e := s.newConnection b.uid
          ⟨remoteAddr, s.externalSocket.localAddress⟩ s.externalSocket) huid.symm now bytes
      rw [hclients] at hc
      simp only [onExternalPacket, hl, hname]
      refine ⟨_, _, hdeliver, ?_, ?_, fun hnone => ?_⟩
      · rw [tables_noteUsed]
        exact hvalid
      · rintro b₂ hb₂ (⟨c₂, hc₂, hpair⟩ | ⟨-, huser₂⟩)
        · have hl' := lookup_of_mem h hb₂ hc₂
          rw [hpair, hl] at hl'
          cases hl'
        · rw [huser] at huser₂
          have hkeys : b₂.uid = b.uid := h.binding_unique (List.mem_map_of_mem hb)
            (List.mem_map_of_mem hb₂) (Option.some.inj huser₂).symm
          have hbb : some b = some b₂ := by
            rw [← binding_of_mem h.toWellFormed hb, ← hkeys]
            exact binding_of_mem h.toWellFormed hb₂
          obtain rfl := Option.some.inj hbb
          exact ⟨c, hc, rfl⟩
      · exact absurd (.inr ⟨hl, huser⟩) (hnone b hb)

/-! ## Runs -/

/-- **An allowed event has a result, and keeps the tables exact.** -/
theorem step_valid (h : s.tables.Valid) {e : Event} (ha : s.Allowed e) :
    ∃ s' out, s.step e = some (s', out) ∧ s'.tables.Valid ∧ s.Delivered out e := by
  cases e with
  | internalPacket now socket bytes remoteAddr =>
    obtain ⟨s', out, hstep, htables⟩ := onInternalPacket_spec h now socket bytes remoteAddr
    refine ⟨s', out, hstep, ?_, trivial⟩
    cases hdest : s.sendDestination socket bytes remoteAddr with
    | none =>
      rw [hdest] at htables
      exact htables
    | some dest =>
      obtain ⟨b, extAddr⟩ := dest
      rw [hdest] at htables
      obtain ⟨hb, htables⟩ := htables
      rw [htables, tablesAfterSend]
      cases hext : b.getExternalConnection extAddr with
      | some c => exact h
      | none => exact h.addConnection false (uid_mem_tables hb) (ha b extAddr hdest hext)
  | externalPacket now bytes remoteAddr => exact onExternalPacket_spec h now bytes remoteAddr
  | lifetimeTimer now uid =>
    exact ⟨_, _, rfl, (tables_onLifetimeTimer now uid).symm ▸ h, trivial⟩
  | dispose uid =>
    obtain ⟨s', hdispose, hvalid⟩ := dispose_valid h uid
    refine ⟨s', [], ?_, hvalid, trivial⟩
    rw [step, hdispose]
    rfl

/-- **An event that keeps the tables exact is allowed.** -/
theorem allowed_of_exact (h : s.tables.Valid) {e : Event} {s' : RelayServer}
    {out : List RelayOutput} (hstep : s.step e = some (s', out)) (hexact : s'.tables.Exact) :
    s.Allowed e := by
  cases e with
  | internalPacket now socket bytes remoteAddr =>
    intro b extAddr hdest hext
    obtain ⟨s₁, out₁, hstep₁, htables⟩ := onInternalPacket_spec h now socket bytes remoteAddr
    rw [hdest] at htables
    obtain ⟨hb, htables⟩ := htables
    have hsame : s₁ = s' := congrArg Prod.fst (Option.some.inj (hstep₁.symm.trans hstep))
    rw [← hsame, htables, tablesAfterSend, hext] at hexact
    cases hl : s.connections.lookup ⟨extAddr, s.externalSocket.localAddress⟩ with
    | none => rfl
    | some uid => exact absurd hexact (h.not_exact_addConnection (uid_mem_tables hb) hl)
  | externalPacket now bytes remoteAddr => trivial
  | lifetimeTimer now uid => trivial
  | dispose uid => trivial

theorem correct_iff (h : s.tables.Valid) (es : List Event) : s.Correct es ↔ s.AllowedRun es := by
  induction es generalizing s with
  | nil => exact ⟨fun _ => trivial, fun _ => h.toExact⟩
  | cons e es ih =>
    constructor
    · rintro ⟨-, s', out, hstep, -, hcorrect⟩
      have hexact : s'.tables.Exact := by
        cases es with
        | nil => exact hcorrect
        | cons e' es => exact hcorrect.1
      have hallowed := allowed_of_exact h hstep hexact
      refine ⟨hallowed, fun s₁ out₁ hstep₁ => ?_⟩
      obtain ⟨s₂, out₂, hstep₂, hvalid, -⟩ := step_valid h hallowed
      have hs₁ : s₁ = s₂ := congrArg Prod.fst (Option.some.inj (hstep₁.symm.trans hstep₂))
      have hs' : s' = s₂ := congrArg Prod.fst (Option.some.inj (hstep.symm.trans hstep₂))
      rw [hs₁]
      exact (ih hvalid).mp (hs' ▸ hcorrect)
    · rintro ⟨hallowed, hrest⟩
      obtain ⟨s', out, hstep, hvalid, hdelivered⟩ := step_valid h hallowed
      exact ⟨h.toExact, s', out, hstep, hdelivered, (ih hvalid).mpr (hrest s' out hstep)⟩

theorem valid_new (externalSocket : PacketSocket) : (new externalSocket).tables.Valid := by
  refine ⟨⟨List.nodup_nil, List.nodup_nil, nofun, nofun, nofun, nofun⟩, fun ap uid => ?_,
    List.nodup_nil, fun username uid => ?_⟩
  · exact ⟨nofun, fun ⟨_, hc, _⟩ => nomatch hc⟩
  · exact ⟨nofun, fun ⟨_, hb, _⟩ => nomatch hb⟩

/-- **The tables of a relay server.** Along a run the maps hold exactly the connections and the
bindings there are, everything that is removed is found, and a peer's packet goes to the binding the
peer belongs to, exactly if no client sends to a peer that has a connection in another binding. -/
theorem tables_correct (externalSocket : PacketSocket) (es : List Event) :
    (new externalSocket).Correct es ↔ (new externalSocket).AllowedRun es :=
  correct_iff (valid_new externalSocket) es

/-! ## Two clients and one peer -/

/-- An allocate request for a username of four bytes. -/
def allocatePacket (username : List U8) : List U8 :=
  [0x00, 0x03, 0x00, 0x10] ++ List.replicate 16 0x30 ++
    [0x00, 0x0F, 0x00, 0x04, 0x72, 0xC6, 0x4B, 0xC6, 0x00, 0x06, 0x00, 0x04] ++ username

/-- A send request with the destination `10.0.0.9:4000` and no data in its data attribute. -/
def sendPacket (username : List U8) : List U8 :=
  [0x00, 0x04, 0x00, 0x20] ++ List.replicate 16 0x30 ++
    [0x00, 0x0F, 0x00, 0x04, 0x72, 0xC6, 0x4B, 0xC6, 0x00, 0x06, 0x00, 0x04] ++ username ++
    [0x00, 0x11, 0x00, 0x08, 0x00, 0x01, 0x0F, 0xA0, 0x0A, 0x00, 0x00, 0x09,
     0x00, 0x13, 0x00, 0x00]

/-- Two clients allocate bindings and send to the same peer. -/
def sharedPeer : List Event :=
  let socket : PacketSocket := ⟨0, ⟨.ipv4 0x0A000001, 5000⟩⟩
  [.internalPacket 0 socket (allocatePacket [0x61, 0x61, 0x61, 0x61]) ⟨.ipv4 0x0A000002, 4000⟩,
   .internalPacket 0 socket (allocatePacket [0x62, 0x62, 0x62, 0x62]) ⟨.ipv4 0x0A000003, 4000⟩,
   .internalPacket 0 socket (sendPacket [0x61, 0x61, 0x61, 0x61]) ⟨.ipv4 0x0A000002, 4000⟩,
   .internalPacket 0 socket (sendPacket [0x62, 0x62, 0x62, 0x62]) ⟨.ipv4 0x0A000003, 4000⟩]

theorem Correct.run {es : List Event} (h : s.Correct es) :
    ∃ s', s.run es = some s' ∧ s'.tables.Exact := by
  induction es generalizing s with
  | nil => exact ⟨s, rfl, h⟩
  | cons e es ih =>
    obtain ⟨-, s₁, out, hstep, -, hcorrect⟩ := h
    obtain ⟨s', hrun, hexact⟩ := ih hcorrect
    refine ⟨s', ?_, hexact⟩
    rw [RelayServer.run, hstep]
    exact hrun

theorem shared_peer_listed_twice :
    ¬ ∀ (externalSocket : PacketSocket) (es : List Event), (new externalSocket).Correct es := by
  intro hall
  obtain ⟨s, hrun, hexact⟩ := (hall ⟨1, ⟨.ipv4 0x0A000001, 6000⟩⟩ sharedPeer).run
  have hpairs : ((new ⟨1, ⟨.ipv4 0x0A000001, 6000⟩⟩).run sharedPeer).map (fun s =>
      decide (s.tables.listed.map ConnectionKey.addrPair).Nodup) = some false := by
    decide +kernel
  rw [hrun, Option.map_some] at hpairs
  exact of_decide_eq_false (Option.some.inj hpairs) hexact.pairs

end Libjingle.RelayServer
