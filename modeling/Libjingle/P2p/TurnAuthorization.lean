import Libjingle.P2p.TurnServer

/-!
# Authorization at the TURN server (`turnserver.cc`)

Every path through `OnInternalPacket` and the timers, from any state a server can reach: what
changes an allocation, its permissions or its channels, and what is sent. Steps that access a
deleted permission have no result and are left out.

* `run_guarded`: every step of every run is guarded, and every allocation has the key of its user.
-/

namespace Libjingle

open Lib StunMessage

/-! ## What is sent -/

/-- Data relayed over a permission or a channel that is installed. -/
inductive Relayed (s : TurnServer) : TurnOutput → Prop
  | permission {a : Allocation} (ha : a ∈ s.allocations) {peer : SocketAddress}
    (hp : a.hasPermission peer.ip = some true) (data : List U8) :
    Relayed s (.relay a.relayed peer data)
  | channel {a : Allocation} (ha : a ∈ s.allocations) {c : TurnChannel} (hc : c ∈ a.channels)
    (data : List U8) : Relayed s (.relay a.relayed c.peer data)
  | channelData {a : Allocation} (ha : a ∈ s.allocations) {c : TurnChannel} (hc : c ∈ a.channels)
    (data : List U8) : Relayed s (.channelData a.client (ByteBuffer.writeUInt16
      (BitVec.ofNat 16 c.id) ++ ByteBuffer.writeUInt16 (BitVec.ofNat 16 data.length) ++ data))
  | indication {a : Allocation} (ha : a ∈ s.allocations) {peer : SocketAddress}
    (hp : a.hasPermission peer.ip = some true) {m : StunMessage}
    (hm : m.type = turnDataIndication) : Relayed s (.stun a.client m)

/-- An answer to the sender of a message: an error response if the message is a request, except that
a binding request gets a binding response. -/
def Answers (src : SocketAddress) (req : StunMessage) (o : TurnOutput) : Prop :=
  ∃ m, o = .stun src m ∧ (isStunRequestType req.type = true →
    m.type = req.type ||| 0x110 ∨ req.type = stunBindingRequest ∧ m.type = stunBindingResponse)

theorem sendStun_eq (cfg : TurnConfig) (dst : SocketAddress) (msg : StunMessage) :
    ∃ m, cfg.sendStun dst msg = .stun dst m ∧ m.type = msg.type := by
  refine ⟨_, rfl, ?_⟩
  split
  · exact withAttribute_type _
  · rfl

variable {req : StunMessage}

theorem initErrorResponse_type (h : isStunRequestType req.type = true)
    (e : StunError) (resp : StunMessage) :
    (initErrorResponse req e resp).type = req.type ||| 0x110 := by
  unfold initErrorResponse
  rw [if_pos h]
  simp only [withAttribute_type, setTransactionID_type]
  rfl

theorem answers_sendErrorResponse (cfg : TurnConfig) (src : SocketAddress) (req : StunMessage)
    (e : StunError) : Answers src req (cfg.sendErrorResponse src req e) := by
  obtain ⟨m, hm, htype⟩ := sendStun_eq cfg src (initErrorResponse req e (StunMessage.new .turn))
  exact ⟨m, hm, fun hr => Or.inl (htype.trans (initErrorResponse_type hr e _))⟩

theorem answers_withRealmAndNonce (hmacMd5 : List U8 → List U8 → List U8) (cfg : TurnConfig)
    (now : U32) (src : SocketAddress) (req : StunMessage) (e : StunError) :
    Answers src req (TurnServer.sendErrorResponseWithRealmAndNonce hmacMd5 cfg now src req e) := by
  unfold TurnServer.sendErrorResponseWithRealmAndNonce
  obtain ⟨m, hm, htype⟩ := sendStun_eq cfg src
    (((initErrorResponse req e (StunMessage.new .turn)).withAttribute stunAttrNonce
      (.byteString (TurnServer.generateNonce hmacMd5 cfg now))).withAttribute stunAttrRealm
      (.byteString cfg.realm))
  refine ⟨m, hm, fun hr => Or.inl ?_⟩
  rw [htype, withAttribute_type, withAttribute_type, initErrorResponse_type hr]

theorem answers_handleBindingRequest (cfg : TurnConfig) (src : SocketAddress)
    (h : req.type = stunBindingRequest) :
    Answers src req (TurnServer.handleBindingRequest cfg src req) := by
  unfold TurnServer.handleBindingRequest
  obtain ⟨m, hm, htype⟩ := sendStun_eq cfg src
    ((initResponse req (StunMessage.new .stun)).withAttribute stunAttrXorMappedAddress
      (.xorAddress src))
  refine ⟨m, hm, fun _ => Or.inr ⟨h, ?_⟩⟩
  rw [htype, withAttribute_type]
  unfold initResponse
  rw [if_pos (by rw [h]; decide), h]
  simp only [setTransactionID_type]
  rfl

/-! ## Authorization -/

section

variable (hmac : List U8 → List U8 → Digest) (hmacMd5 : List U8 → List U8 → List U8)
  (authKey : List U8 → List U8 → List U8)

/-- The packet is a request that passed `CheckAuthorization`, with the key of the allocation of its
sender and its username; if there is none, with the key of the request's own username. -/
structure Authorized (s : TurnServer) (now : U32) (src : SocketAddress) (data : List U8)
    (mem : Nat → U8) (msg : StunMessage) : Prop where
  read : (StunMessage.new .turn).read data = some msg
  request : isStunRequestType msg.type = true
  checked : TurnServer.checkAuthorization hmac hmacMd5 s.cfg now src msg data mem
    (s.keyFor authKey src msg) = .ok ()
  username : ∀ a, s.findAllocation src = some a →
    msg.getByteString stunAttrUsername = some a.username

/-- Nothing of the allocation was created or refreshed. -/
structure Contained (a' a : Allocation) : Prop where
  client : a'.client = a.client
  relayed : a'.relayed = a.relayed
  key : a'.key = a.key
  transactionId : a'.transactionId = a.transactionId
  username : a'.username = a.username
  timeouts : a'.timeouts = a.timeouts
  perms : a'.perms = a.perms
  permissions : ∀ o ∈ a'.permissions, o ∈ a.permissions
  channels : ∀ c ∈ a'.channels, c ∈ a.channels

/-- An authorized request changes only the allocation of its client; any other packet changes
nothing and is relayed or answered; a timer creates and refreshes nothing. -/
def Guarded (s : TurnServer) (s' : TurnServer) (out : List TurnOutput) : TurnEvent → Prop
  | .internal now src data mem _ =>
    -- an authorized request: only the allocation of its client changes
    (∃ msg, Authorized hmac hmacMd5 authKey s now src data mem msg ∧
      (∀ client, client ≠ src → s'.findAllocation client = s.findAllocation client) ∧
      ∀ a', s'.findAllocation src = some a' →
        msg.getByteString stunAttrUsername = some a'.username ∧
          a'.key = s.keyFor authKey src msg) ∨
    -- any other packet: nothing changes, it is relayed or answered
    s' = s ∧ ∀ o ∈ out, Relayed s o ∨ ∃ msg, (StunMessage.new .turn).read data = some msg ∧
      Answers src msg o
  | .external .. => s' = s ∧ ∀ o ∈ out, Relayed s o
  | .permissionTimeout .. | .channelTimeout .. | .allocationTimeout .. =>
    out = [] ∧ ∀ a' ∈ s'.allocations, ∃ a ∈ s.allocations, Contained a' a

/-- Events one after another; `none` when one has no result. -/
def TurnServer.run (s : TurnServer) : List TurnEvent → Option TurnServer
  | [] => some s
  | e :: es => (s.step hmac hmacMd5 authKey e).bind fun r => r.1.run es

end

/-! ## One allocation -/

namespace Allocation

variable {hmac : List U8 → List U8 → Digest} {cfg : TurnConfig} {a a' : Allocation}
  {out : List TurnOutput} {now : U32} {msg : StunMessage}

theorem addPermission_fields {addr : IPAddress} (h : a.addPermission now addr = some a') :
    a'.client = a.client ∧ a'.key = a.key ∧ a'.username = a.username := by
  obtain ⟨perm, -, rfl⟩ := Option.map_eq_some_iff.mp h
  cases perm with
  | none => exact ⟨rfl, rfl, rfl⟩
  | some perm => exact ⟨rfl, rfl, rfl⟩

theorem bindChannel_fields (id : Nat) (peer : SocketAddress) :
    (a.bindChannel now id peer).client = a.client ∧ (a.bindChannel now id peer).key = a.key ∧
      (a.bindChannel now id peer).username = a.username := by
  unfold bindChannel
  split <;> exact ⟨rfl, rfl, rfl⟩

/-- A message changes neither the client nor the key; it sets the username when it is an allocate
request. -/
theorem handleTurnMessage_fields (h : a.handleTurnMessage hmac cfg now msg = some (a', out)) :
    a'.client = a.client ∧ a'.key = a.key ∧
      if msg.type = stunAllocateRequest then msg.getByteString stunAttrUsername = some a'.username
      else a'.username = a.username := by
  unfold handleTurnMessage at h
  split at h
  · rename_i htype
    rw [if_pos htype]
    unfold handleAllocateRequest at h
    split at h
    · cases h
    · rename_i username hname
      obtain ⟨rfl, -⟩ := Prod.mk.inj (Option.some.inj h)
      exact ⟨rfl, rfl, hname⟩
  rename_i htype
  rw [if_neg htype]
  split at h
  · obtain ⟨rfl, -⟩ := Prod.mk.inj (Option.some.inj h)
    exact ⟨rfl, rfl, rfl⟩
  split at h
  · obtain ⟨_, -, h⟩ := Option.map_eq_some_iff.mp h
    obtain ⟨rfl, -⟩ := Prod.mk.inj h
    exact ⟨rfl, rfl, rfl⟩
  split at h
  · unfold handleCreatePermissionRequest at h
    split at h
    · obtain ⟨rfl, -⟩ := Prod.mk.inj (Option.some.inj h)
      exact ⟨rfl, rfl, rfl⟩
    · obtain ⟨_, hadd, h⟩ := Option.map_eq_some_iff.mp h
      obtain ⟨rfl, -⟩ := Prod.mk.inj h
      exact addPermission_fields hadd
  split at h
  · unfold handleChannelBindRequest at h
    split at h
    · simp only at h
      split at h
      · obtain ⟨rfl, -⟩ := Prod.mk.inj (Option.some.inj h)
        exact ⟨rfl, rfl, rfl⟩
      split at h
      · obtain ⟨rfl, -⟩ := Prod.mk.inj (Option.some.inj h)
        exact ⟨rfl, rfl, rfl⟩
      · obtain ⟨_, hadd, h⟩ := Option.map_eq_some_iff.mp h
        obtain ⟨rfl, -⟩ := Prod.mk.inj h
        obtain ⟨hc, hk, hu⟩ := addPermission_fields hadd
        obtain ⟨hc', hk', hu'⟩ := bindChannel_fields (a := a) _ _
        exact ⟨hc.trans hc', hk.trans hk', hu.trans hu'⟩
    · obtain ⟨rfl, -⟩ := Prod.mk.inj (Option.some.inj h)
      exact ⟨rfl, rfl, rfl⟩
  · obtain ⟨rfl, -⟩ := Prod.mk.inj (Option.some.inj h)
    exact ⟨rfl, rfl, rfl⟩

theorem handleTurnMessage_other (hr : isStunRequestType msg.type = false)
    (h : a.handleTurnMessage hmac cfg now msg = some (a', out)) :
    a' = a ∧ ∀ o ∈ out, ∃ peer data, o = .relay a.relayed peer data ∧
      a.hasPermission peer.ip = some true := by
  have hne : ∀ type : U16, isStunRequestType type = true → msg.type ≠ type := by
    rintro type ht rfl
    rw [hr] at ht
    cases ht
  unfold handleTurnMessage at h
  rw [if_neg (hne _ (by decide)), if_neg (hne _ (by decide)),
    if_neg (hne turnCreatePermissionRequest (by decide)),
    if_neg (hne turnChannelBindRequest (by decide))] at h
  split at h
  · obtain ⟨out', hout, h⟩ := Option.map_eq_some_iff.mp h
    obtain ⟨rfl, rfl⟩ := Prod.mk.inj h
    refine ⟨rfl, fun o ho => ?_⟩
    unfold handleSendIndication at hout
    split at hout
    · rename_i data peer _ _
      obtain ⟨permitted, hp, hout⟩ := Option.map_eq_some_iff.mp hout
      cases permitted with
      | true =>
        rw [if_pos rfl] at hout
        subst hout
        exact ⟨peer, data, List.mem_singleton.mp ho, hp⟩
      | false =>
        rw [if_neg (by decide)] at hout
        subst hout
        cases ho
    · obtain rfl := Option.some.inj hout
      cases ho
  · obtain ⟨rfl, rfl⟩ := Prod.mk.inj (Option.some.inj h)
    exact ⟨rfl, nofun⟩

end Allocation

/-! ## Lookups in the map -/

namespace TurnServer

variable {s : TurnServer} {src client : SocketAddress} {a a' : Allocation}

theorem findAllocation_some (h : s.findAllocation src = some a) :
    a ∈ s.allocations ∧ a.client = src :=
  ⟨List.mem_of_find?_eq_some h, by simpa using List.find?_some h⟩

theorem findAllocation_setAllocation_ne (hc : a'.client = src) (hne : client ≠ src) :
    (s.setAllocation src a').findAllocation client = s.findAllocation client := by
  unfold findAllocation setAllocation
  simp only
  induction s.allocations with
  | nil => rfl
  | cons b l ih =>
    rw [List.map_cons, List.find?_cons, List.find?_cons, ih]
    by_cases hb : b.client = src
    · rw [if_pos hb]
      simp [hc, hb, hne.symm]
    · rw [if_neg hb]

theorem findAllocation_setAllocation_self (hc : a'.client = src)
    (h : s.findAllocation src = some a) :
    (s.setAllocation src a').findAllocation src = some a' := by
  unfold findAllocation setAllocation at *
  simp only
  generalize s.allocations = l at h
  induction l with
  | nil => cases h
  | cons b l ih =>
    rw [List.map_cons, List.find?_cons]
    by_cases hb : b.client = src
    · rw [if_pos hb]
      simp [hc]
    · rw [List.find?_cons] at h
      rw [if_neg hb]
      simp only [hb, decide_false] at h ⊢
      exact ih h

theorem findAllocation_append (b : Allocation) (client : SocketAddress) :
    (({ s with allocations := s.allocations ++ [b] } : TurnServer)).findAllocation client =
      (s.findAllocation client).or (if b.client = client then some b else none) := by
  unfold findAllocation
  rw [List.find?_append]
  congr 1
  by_cases hb : b.client = client <;> simp [hb]

/-- The allocations of the clients are distinct. -/
def Distinct (s : TurnServer) : Prop := (s.allocations.map Allocation.client).Nodup

theorem setAllocation_self (hd : s.Distinct) (h : s.findAllocation src = some a) :
    s.setAllocation src a = s := by
  obtain ⟨hmem, hc⟩ := findAllocation_some h
  have hsame : ∀ b ∈ s.allocations, (if b.client = src then a else b) = b := by
    intro b hb
    by_cases hbc : b.client = src
    · rw [if_pos hbc]
      exact List.inj_on_of_nodup_map hd hmem hb (hc.trans hbc.symm)
    · rw [if_neg hbc]
  unfold setAllocation
  rw [List.map_congr_left hsame, List.map_id']

end TurnServer

/-! ## Packets from clients -/

namespace TurnServer

variable {hmac : List U8 → List U8 → Digest} {hmacMd5 : List U8 → List U8 → List U8}
  {authKey : List U8 → List U8 → List U8} {s s' : TurnServer} {out : List TurnOutput} {now : U32}
  {src : SocketAddress} {data : List U8} {mem : Nat → U8} {socket : Option SocketAddress}
  {msg : StunMessage}

variable {key : List U8}

variable {o : TurnOutput}

theorem checkAuthorization_error {cfg : TurnConfig}
    (h : checkAuthorization hmac hmacMd5 cfg now src msg data mem key = .error o) :
    Answers src msg o := by
  unfold checkAuthorization at h
  split at h
  · obtain rfl := Except.error.inj h
    exact answers_withRealmAndNonce ..
  split at h
  · obtain rfl := Except.error.inj h
    exact answers_sendErrorResponse ..
  split at h
  · obtain rfl := Except.error.inj h
    exact answers_withRealmAndNonce ..
  split at h
  · obtain rfl := Except.error.inj h
    exact answers_withRealmAndNonce ..
  · cases h

/-- The two ways in which a packet changes the server: an authorized request is handled by the
allocation of its client, or creates it. -/
inductive Change (s : TurnServer) (src : SocketAddress) (msg : StunMessage) (key : List U8) :
    TurnServer → Prop
  | update {a a' : Allocation} (ha : s.findAllocation src = some a) (hc : a'.client = a.client)
    (hk : a'.key = a.key) (hu : a'.username = a.username) :
    Change s src msg key (s.setAllocation src a')
  | create {a' : Allocation} (hnone : s.findAllocation src = none) (hc : a'.client = src)
    (hk : a'.key = key) (hu : msg.getByteString stunAttrUsername = some a'.username) :
    Change s src msg key { s with allocations := s.allocations ++ [a'] }

/-- What is sent for a packet that changes nothing. -/
def Harmless (s : TurnServer) (src : SocketAddress) (data : List U8) (out : List TurnOutput) :
    Prop :=
  ∀ o ∈ out, Relayed s o ∨ ∃ msg, (StunMessage.new .turn).read data = some msg ∧ Answers src msg o

theorem Harmless.answer (hread : (StunMessage.new .turn).read data = some msg)
    (h : Answers src msg o) : s.Harmless src data [o] := by
  intro o' ho'
  obtain rfl := List.mem_singleton.mp ho'
  exact Or.inr ⟨msg, hread, h⟩

theorem handleAuthorized_request (hread : (StunMessage.new .turn).read data = some msg)
    (hr : isStunRequestType msg.type = true)
    (h : s.handleAuthorized hmac now src msg key socket = some (s', out)) :
    (s' = s ∧ s.Harmless src data out) ∨
      (∀ a, s.findAllocation src = some a → msg.getByteString stunAttrUsername = some a.username) ∧
        s.Change src msg key s' := by
  have herror : ∀ e, some (s, [s.cfg.sendErrorResponse src msg e]) = some (s', out) →
      s' = s ∧ s.Harmless src data out := by
    intro e he
    obtain ⟨rfl, rfl⟩ := Prod.mk.inj (Option.some.inj he)
    exact ⟨rfl, .answer hread (answers_sendErrorResponse ..)⟩
  unfold handleAuthorized at h
  cases hfind : s.findAllocation src with
  | none =>
    simp only [hfind] at h
    split at h
    · rename_i htype
      unfold handleAllocateRequest at h
      split at h
      · exact Or.inl (herror _ h)
      split at h
      · exact Or.inl (herror _ h)
      split at h
      · exact Or.inl (herror _ h)
      · obtain ⟨⟨a', out'⟩, ha', h⟩ := Option.map_eq_some_iff.mp h
        obtain ⟨rfl, rfl⟩ := Prod.mk.inj h
        obtain ⟨hc, hk, hu⟩ := Allocation.handleTurnMessage_fields ha'
        rw [if_pos htype] at hu
        exact Or.inr ⟨nofun, .create hfind hc hk hu⟩
    · exact Or.inl (herror _ h)
  | some a =>
    simp only [hfind] at h
    split at h
    · split at h
      · exact Or.inl (herror _ h)
      · rename_i hname
        have hname : msg.getByteString stunAttrUsername = some a.username :=
          not_not.mp fun hne => hname ⟨hr, hne⟩
        obtain ⟨⟨a', out'⟩, ha', h⟩ := Option.map_eq_some_iff.mp h
        obtain ⟨rfl, rfl⟩ := Prod.mk.inj h
        obtain ⟨hc, hk, hu⟩ := Allocation.handleTurnMessage_fields ha'
        refine Or.inr ⟨?_, .update hfind hc hk ?_⟩
        · rintro b hb
          rw [← Option.some.inj hb]
          exact hname
        · split at hu
          · exact (Option.some.inj (hname.symm.trans hu)).symm
          · exact hu
    · exact Or.inl (herror _ h)

theorem handleAuthorized_other (hd : s.Distinct)
    (hread : (StunMessage.new .turn).read data = some msg)
    (hr : isStunRequestType msg.type = false)
    (h : s.handleAuthorized hmac now src msg key socket = some (s', out)) :
    s' = s ∧ s.Harmless src data out := by
  have hne : msg.type ≠ stunAllocateRequest := by
    intro heq
    rw [heq] at hr
    exact absurd hr (by decide)
  unfold handleAuthorized at h
  cases hfind : s.findAllocation src with
  | none =>
    simp only [hfind, if_neg hne] at h
    obtain ⟨rfl, rfl⟩ := Prod.mk.inj (Option.some.inj h)
    exact ⟨rfl, .answer hread (answers_sendErrorResponse ..)⟩
  | some a =>
    simp only [hfind] at h
    rw [if_pos (Or.inl hne), if_neg (by simp [hr])] at h
    obtain ⟨⟨a', out'⟩, ha', h⟩ := Option.map_eq_some_iff.mp h
    obtain ⟨rfl, rfl⟩ := Prod.mk.inj h
    obtain ⟨rfl, hout⟩ := Allocation.handleTurnMessage_other hr ha'
    refine ⟨setAllocation_self hd hfind, fun o ho => Or.inl ?_⟩
    obtain ⟨peer, bytes, rfl, hp⟩ := hout o ho
    exact .permission (findAllocation_some hfind).1 hp bytes

/-- **A packet from a client**: an authorized request, or nothing changes. -/
theorem onInternalPacket_cases (hd : s.Distinct)
    (h : s.onInternalPacket hmac hmacMd5 authKey now src data mem socket = some (s', out)) :
    (s' = s ∧ s.Harmless src data out) ∨
      ∃ msg, Authorized hmac hmacMd5 authKey s now src data mem msg ∧
        s.Change src msg (s.keyFor authKey src msg) s' := by
  have hnone : some (s, ([] : List TurnOutput)) = some (s', out) →
      s' = s ∧ s.Harmless src data out := by
    intro he
    obtain ⟨rfl, rfl⟩ := Prod.mk.inj (Option.some.inj he)
    exact ⟨rfl, nofun⟩
  unfold onInternalPacket at h
  split at h
  · exact Or.inl (hnone h)
  split at h
  · unfold handleStunMessage at h
    split at h
    · exact Or.inl (hnone h)
    rename_i msg hread
    split at h
    · rename_i htype
      obtain ⟨rfl, rfl⟩ := Prod.mk.inj (Option.some.inj h)
      exact Or.inl ⟨rfl, .answer hread (answers_handleBindingRequest _ _ htype)⟩
    simp only at h
    split at h
    · rename_i hr
      split at h
      · rename_i o hcheck
        obtain ⟨rfl, rfl⟩ := Prod.mk.inj (Option.some.inj h)
        exact Or.inl ⟨rfl, .answer hread (checkAuthorization_error hcheck)⟩
      · rename_i hcheck
        rcases handleAuthorized_request hread hr h with hsame | ⟨hname, hchange⟩
        · exact Or.inl hsame
        · exact Or.inr ⟨msg, ⟨hread, hr, hcheck, hname⟩, hchange⟩
    · rename_i hr
      exact Or.inl (handleAuthorized_other hd hread (by simpa using hr) h)
  split at h
  · rename_i a hfind
    obtain ⟨rfl, rfl⟩ := Prod.mk.inj (Option.some.inj h)
    refine Or.inl ⟨rfl, fun o ho => Or.inl ?_⟩
    unfold Allocation.handleChannelData at ho
    split at ho
    · rename_i channel hc
      obtain rfl := List.mem_singleton.mp ho
      exact .channel (findAllocation_some hfind).1 (List.mem_of_find?_eq_some hc) _
    · cases ho
  · exact Or.inl (hnone h)

/-! ## Runs -/

/-- The allocations are distinct, and each has the key of its user. -/
structure Keyed (authKey : List U8 → List U8 → List U8) (cfg : TurnConfig) (s : TurnServer) :
    Prop where
  config : s.cfg = cfg
  distinct : s.Distinct
  keys : ∀ a ∈ s.allocations, a.key = authKey a.username cfg.realm

variable {cfg : TurnConfig}

theorem Keyed.setAllocation (h : s.Keyed authKey cfg) {a a' : Allocation}
    (ha : s.findAllocation src = some a) (hc : a'.client = a.client) (hk : a'.key = a.key)
    (hu : a'.username = a.username) : (s.setAllocation src a').Keyed authKey cfg := by
  obtain ⟨hmem, hsrc⟩ := findAllocation_some ha
  refine ⟨h.config, ?_, ?_⟩
  · have hclients : (s.setAllocation src a').allocations.map Allocation.client =
        s.allocations.map Allocation.client := by
      unfold TurnServer.setAllocation
      rw [List.map_map]
      refine List.map_congr_left fun b _ => ?_
      simp only [Function.comp_apply]
      by_cases hb : b.client = src
      · rw [if_pos hb, hc, hsrc, hb]
      · rw [if_neg hb]
    unfold Distinct
    rw [hclients]
    exact h.distinct
  · intro b hb
    obtain ⟨b', hb', rfl⟩ := List.mem_map.mp hb
    by_cases hbc : b'.client = src
    · rw [if_pos hbc, hk, hu]
      exact h.keys a hmem
    · rw [if_neg hbc]
      exact h.keys b' hb'

theorem Keyed.change (h : s.Keyed authKey cfg)
    (hchange : s.Change src msg (s.keyFor authKey src msg) s') : s'.Keyed authKey cfg := by
  cases hchange with
  | update ha hc hk hu => exact h.setAllocation ha hc hk hu
  | @create a' hnone hc hk hu =>
    have hkey : a'.key = authKey a'.username cfg.realm := by
      rw [hk, keyFor, hnone, getKey, hu, h.config]
    refine ⟨h.config, ?_, ?_⟩
    · unfold Distinct
      rw [List.map_append]
      refine List.nodup_append.mpr ⟨h.distinct, List.nodup_singleton _, ?_⟩
      rintro x hx y hy rfl
      obtain ⟨b, hb, hbx⟩ := List.mem_map.mp hx
      have hne := List.find?_eq_none.mp hnone b hb
      rw [List.mem_singleton.mp hy, hc] at hbx
      exact absurd hbx (by simpa using hne)
    · intro b hb
      rcases List.mem_append.mp hb with hb | hb
      · exact h.keys b hb
      · rw [List.mem_singleton.mp hb]
        exact hkey

theorem Change.guarded (hname : ∀ a, s.findAllocation src = some a →
      msg.getByteString stunAttrUsername = some a.username)
    (hkey : ∀ a, s.findAllocation src = some a → a.key = key)
    (h : s.Change src msg key s') :
    (∀ client, client ≠ src → s'.findAllocation client = s.findAllocation client) ∧
      ∀ a', s'.findAllocation src = some a' →
        msg.getByteString stunAttrUsername = some a'.username ∧ a'.key = key := by
  cases h with
  | @update a a' ha hc hk hu =>
    have hc := hc.trans (findAllocation_some ha).2
    refine ⟨fun client hne => findAllocation_setAllocation_ne hc hne, fun b hb => ?_⟩
    rw [findAllocation_setAllocation_self hc ha] at hb
    obtain rfl := Option.some.inj hb
    rw [hu, hk]
    exact ⟨hname a ha, hkey a ha⟩
  | @create a' hnone hc hk hu =>
    refine ⟨fun client hne => ?_, fun b hb => ?_⟩
    · rw [findAllocation_append, if_neg fun heq => hne (heq.symm.trans hc), Option.or_none]
    · rw [findAllocation_append, hnone, if_pos hc] at hb
      obtain rfl := Option.some.inj hb
      exact ⟨hu, hk⟩

theorem contained_setAllocation {a a' : Allocation} (ha : s.findAllocation src = some a)
    (h : Contained a' a) : ∀ b ∈ (s.setAllocation src a').allocations,
      ∃ b' ∈ s.allocations, Contained b b' := by
  intro b hb
  obtain ⟨b', hb', rfl⟩ := List.mem_map.mp hb
  by_cases hbc : b'.client = src
  · rw [if_pos hbc]
    exact ⟨a, (findAllocation_some ha).1, h⟩
  · rw [if_neg hbc]
    exact ⟨b', hb', rfl, rfl, rfl, rfl, rfl, rfl, rfl, fun _ ho => ho, fun _ hc => hc⟩

theorem contained_refl (s : TurnServer) : ∀ b ∈ s.allocations,
    ∃ b' ∈ s.allocations, Contained b b' := fun b hb =>
  ⟨b, hb, rfl, rfl, rfl, rfl, rfl, rfl, rfl, fun _ ho => ho, fun _ hc => hc⟩

theorem onExternalPacket_relayed {a : Allocation} (ha : a ∈ s.allocations) {addr : SocketAddress}
    {transactionId : List U8} (h : a.onExternalPacket cfg data addr transactionId = some out) :
    ∀ o ∈ out, Relayed s o := by
  intro o ho
  unfold Allocation.onExternalPacket at h
  split at h
  · rename_i channel hc
    obtain rfl := Option.some.inj h
    obtain rfl := List.mem_singleton.mp ho
    exact .channelData ha (List.mem_of_find?_eq_some hc) data
  · obtain ⟨permitted, hp, h⟩ := Option.map_eq_some_iff.mp h
    cases permitted with
    | false =>
      rw [if_neg (by decide)] at h
      subst h
      cases ho
    | true =>
      rw [if_pos rfl] at h
      subst h
      obtain rfl := List.mem_singleton.mp ho
      obtain ⟨m, hm, htype⟩ := sendStun_eq cfg a.client _
      rw [hm]
      refine .indication ha hp (htype.trans ?_)
      simp only [withAttribute_type, setTransactionID_type]
      rfl

/-- **One step** of a server whose allocations have the keys of their users. -/
theorem Keyed.step (h : s.Keyed authKey cfg) {e : TurnEvent}
    (hstep : s.step hmac hmacMd5 authKey e = some (s', out)) :
    s'.Keyed authKey cfg ∧ Guarded hmac hmacMd5 authKey s s' out e := by
  have hsame : some (s, ([] : List TurnOutput)) = some (s', out) → s' = s ∧ out = [] := by
    intro he
    obtain ⟨rfl, rfl⟩ := Prod.mk.inj (Option.some.inj he)
    exact ⟨rfl, rfl⟩
  cases e with
  | internal now src data mem socket =>
    rcases onInternalPacket_cases h.distinct hstep with ⟨rfl, hout⟩ | ⟨msg, hauth, hchange⟩
    · exact ⟨h, Or.inr ⟨rfl, hout⟩⟩
    · have hkey : ∀ a, s.findAllocation src = some a → a.key = s.keyFor authKey src msg := by
        intro a ha
        rw [keyFor, ha]
      exact ⟨h.change hchange, Or.inl ⟨msg, hauth, hchange.guarded hauth.username hkey⟩⟩
  | external client data addr transactionId =>
    simp only [TurnServer.step] at hstep
    split at hstep
    · obtain ⟨rfl, rfl⟩ := hsame hstep
      exact ⟨h, rfl, nofun⟩
    · rename_i a hfind
      obtain ⟨out', hout, hstep⟩ := Option.map_eq_some_iff.mp hstep
      obtain ⟨rfl, rfl⟩ := Prod.mk.inj hstep
      exact ⟨h, rfl, onExternalPacket_relayed (findAllocation_some hfind).1 hout⟩
  | permissionTimeout now client id =>
    simp only [TurnServer.step] at hstep
    split at hstep
    · obtain ⟨rfl, rfl⟩ := hsame hstep
      exact ⟨h, rfl, contained_refl s'⟩
    · rename_i a hfind
      split at hstep
      · obtain ⟨rfl, rfl⟩ := Prod.mk.inj (Option.some.inj hstep)
        refine ⟨h.setAllocation hfind rfl rfl rfl, rfl, contained_setAllocation hfind ?_⟩
        exact ⟨rfl, rfl, rfl, rfl, rfl, rfl, rfl, fun o ho => (List.mem_filter.mp ho).1,
          fun _ hc => hc⟩
      · obtain ⟨rfl, rfl⟩ := hsame hstep
        exact ⟨h, rfl, contained_refl s'⟩
  | channelTimeout now client uid =>
    simp only [TurnServer.step] at hstep
    split at hstep
    · obtain ⟨rfl, rfl⟩ := hsame hstep
      exact ⟨h, rfl, contained_refl s'⟩
    · rename_i a hfind
      split at hstep
      · obtain ⟨rfl, rfl⟩ := Prod.mk.inj (Option.some.inj hstep)
        refine ⟨h.setAllocation hfind rfl rfl rfl, rfl, contained_setAllocation hfind ?_⟩
        exact ⟨rfl, rfl, rfl, rfl, rfl, rfl, rfl, fun _ ho => ho,
          fun c hc => (List.mem_filter.mp hc).1⟩
      · obtain ⟨rfl, rfl⟩ := hsame hstep
        exact ⟨h, rfl, contained_refl s'⟩
  | allocationTimeout now client =>
    simp only [TurnServer.step] at hstep
    split at hstep
    · obtain ⟨rfl, rfl⟩ := hsame hstep
      exact ⟨h, rfl, contained_refl s'⟩
    · rename_i a hfind
      split at hstep
      · obtain ⟨t, ht, hstep⟩ := Option.map_eq_some_iff.mp hstep
        obtain ⟨rfl, rfl⟩ := Prod.mk.inj hstep
        unfold onAllocationTimeout at ht
        split at ht
        · obtain rfl := Option.some.inj ht
          refine ⟨⟨h.config, ?_, ?_⟩, rfl, ?_⟩
          · exact h.distinct.sublist (List.filter_sublist.map _)
          · exact fun b hb => h.keys b (List.mem_filter.mp hb).1
          · exact fun b hb => contained_refl s b (List.mem_filter.mp hb).1
        · cases ht
      · obtain ⟨rfl, rfl⟩ := hsame hstep
        exact ⟨h, rfl, contained_refl s'⟩

theorem Keyed.run {es : List TurnEvent} : ∀ {s s' : TurnServer}, s.Keyed authKey cfg →
    s.run hmac hmacMd5 authKey es = some s' → s'.Keyed authKey cfg := by
  induction es with
  | nil =>
    intro s s' h hrun
    obtain rfl := Option.some.inj hrun
    exact h
  | cons e es ih =>
    intro s s' h hrun
    obtain ⟨⟨t, out⟩, hstep, hrun⟩ := Option.bind_eq_some_iff.mp hrun
    exact ih (h.step hstep).1 hrun

/-- **Every step of every run is guarded, and every allocation has the key of its user.** -/
theorem run_guarded {es : List TurnEvent} {e : TurnEvent}
    (hrun : (TurnServer.mk cfg []).run hmac hmacMd5 authKey es = some s)
    (hstep : s.step hmac hmacMd5 authKey e = some (s', out)) :
    (∀ a ∈ s.allocations, a.key = authKey a.username cfg.realm) ∧
      Guarded hmac hmacMd5 authKey s s' out e := by
  have h : (TurnServer.mk cfg []).Keyed authKey cfg := ⟨rfl, List.nodup_nil, nofun⟩
  exact ⟨(h.run hrun).keys, ((h.run hrun).step hstep).2⟩

/-- A server with the nonce key `0123456789abcdef` and the realm `r`. -/
def sampleConfig : TurnConfig := ⟨bytesOf "0123456789abcdef", bytesOf "r", []⟩

/-- The digest of `u:r:p`. -/
def sampleKey : List U8 :=
  [0x44, 0xad, 0xd2, 0x2b, 0x6f, 0x31, 0x79, 0xb7, 0x51, 0xea, 0xfd, 0x68, 0xee, 0x37, 0x0f, 0x7d]

/-- The client of the requests below. -/
def sampleClient : SocketAddress := ⟨.ipv4 0x0a000001, 5000⟩

/-- An allocate request of the user `u`, with the nonce of time 1000. -/
def allocatePacket : List U8 := [
    0x00, 0x03, 0x00, 0x5c, 0x21, 0x12, 0xa4, 0x42, 0x41, 0x41, 0x41, 0x41, 0x41, 0x41, 0x41,
    0x41, 0x41, 0x41, 0x41, 0x41, 0x00, 0x19, 0x00, 0x04, 0x11, 0x00, 0x00, 0x00, 0x00, 0x06,
    0x00, 0x01, 0x75, 0x00, 0x00, 0x00, 0x00, 0x14, 0x00, 0x01, 0x72, 0x00, 0x00, 0x00, 0x00,
    0x15, 0x00, 0x28, 0x65, 0x38, 0x30, 0x33, 0x30, 0x30, 0x30, 0x30, 0x61, 0x30, 0x39, 0x63,
    0x33, 0x37, 0x64, 0x37, 0x63, 0x37, 0x35, 0x34, 0x38, 0x37, 0x65, 0x31, 0x39, 0x38, 0x32,
    0x30, 0x36, 0x36, 0x32, 0x66, 0x35, 0x33, 0x34, 0x37, 0x38, 0x31, 0x36, 0x35, 0x00, 0x08,
    0x00, 0x14, 0x66, 0xa1, 0xc4, 0x28, 0x9c, 0x19, 0x16, 0xba, 0x0f, 0x22, 0x51, 0x40, 0x4a,
    0xfb, 0x57, 0x61, 0xbe, 0x97, 0xb0, 0x03]

/-- The HMAC-SHA1 of the request under the key. -/
def allocateDigest : Digest := ⟨[
    0x66, 0xa1, 0xc4, 0x28, 0x9c, 0x19, 0x16, 0xba, 0x0f, 0x22, 0x51, 0x40, 0x4a, 0xfb, 0x57,
    0x61, 0xbe, 0x97, 0xb0, 0x03], rfl⟩

/-- The HMAC-MD5 of time 1000 under the nonce key. -/
def nonceDigest : List U8 := bytesOf "a09c37d7c75487e19820662f53478165"

theorem run_guarded_allocate : ∃ s' out,
    (TurnServer.mk sampleConfig []).step (fun _ _ => allocateDigest) (fun _ _ => nonceDigest)
      (fun _ _ => sampleKey) (.internal 2000 sampleClient allocatePacket (fun _ => 0)
        (some ⟨.ipv4 0x0a000002, 6000⟩)) = some (s', out) ∧ s'.allocations.length = 1 ∧
      Guarded (fun _ _ => allocateDigest) (fun _ _ => nonceDigest) (fun _ _ => sampleKey)
        ⟨sampleConfig, []⟩ s' out (.internal 2000 sampleClient allocatePacket (fun _ => 0)
          (some ⟨.ipv4 0x0a000002, 6000⟩)) := by
  have hsome : ((TurnServer.mk sampleConfig []).step (fun _ _ => allocateDigest)
      (fun _ _ => nonceDigest) (fun _ _ => sampleKey) (.internal 2000 sampleClient allocatePacket
        (fun _ => 0) (some ⟨.ipv4 0x0a000002, 6000⟩))).map (fun r => r.1.allocations.length) =
          some 1 := by decide +kernel
  obtain ⟨⟨s', out⟩, hstep, hlength⟩ := Option.map_eq_some_iff.mp hsome
  have hrun : (TurnServer.mk sampleConfig []).run (fun _ _ => allocateDigest)
      (fun _ _ => nonceDigest) (fun _ _ => sampleKey) [] = some ⟨sampleConfig, []⟩ := rfl
  exact ⟨s', out, hstep, hlength, (run_guarded hrun hstep).2⟩

def bindingPacket : List U8 := [
    0x00, 0x01, 0x00, 0x00, 0x21, 0x12, 0xa4, 0x42, 0x41, 0x41, 0x41, 0x41, 0x41, 0x41, 0x41, 0x41,
    0x41, 0x41, 0x41, 0x41]

def bindingMessage : StunMessage := ⟨.turn, stunBindingRequest, 0, List.replicate 12 0x41, []⟩

/-- **A binding request is answered without authorization**, with a binding response: neither
relayed data nor an error response. -/
theorem binding_request_is_answered : ∃ out,
    (TurnServer.mk sampleConfig []).step (fun _ _ => allocateDigest) (fun _ _ => nonceDigest)
      (fun _ _ => sampleKey) (.internal 2000 sampleClient bindingPacket (fun _ => 0) none) =
        some (⟨sampleConfig, []⟩, out) ∧
      (¬ ∃ msg, Authorized (fun _ _ => allocateDigest) (fun _ _ => nonceDigest)
        (fun _ _ => sampleKey) ⟨sampleConfig, []⟩ 2000 sampleClient bindingPacket (fun _ => 0)
        msg) ∧
      ¬ ∀ o ∈ out, Relayed ⟨sampleConfig, []⟩ o ∨
        ∃ m, o = .stun sampleClient m ∧ m.type &&& 0x0110 = 0x0110 := by
  have hread : (StunMessage.new .turn).read bindingPacket = some bindingMessage := by decide
  refine ⟨[handleBindingRequest sampleConfig sampleClient bindingMessage], by decide +kernel, ?_,
    ?_⟩
  · rintro ⟨msg, hauth⟩
    obtain rfl := Option.some.inj (hread.symm.trans hauth.read)
    exact absurd hauth.checked nofun
  · intro h
    rcases h _ List.mem_cons_self with h | ⟨m, hm, htype⟩
    · generalize handleBindingRequest sampleConfig sampleClient bindingMessage = o at h
      cases h with
      | permission ha => cases ha
      | channel ha => cases ha
      | channelData ha => cases ha
      | indication ha => cases ha
    · have hresponse : handleBindingRequest sampleConfig sampleClient bindingMessage =
          .stun sampleClient ((initResponse bindingMessage (StunMessage.new .stun)).withAttribute
            stunAttrXorMappedAddress (.xorAddress sampleClient)) := rfl
      obtain ⟨-, rfl⟩ := TurnOutput.stun.inj (hresponse.symm.trans hm)
      exact absurd htype (by decide)

end TurnServer

end Libjingle
