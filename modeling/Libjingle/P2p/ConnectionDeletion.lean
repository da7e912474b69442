import Libjingle.P2p.Connection
import Libjingle.P2p.RoleConflict
import Libjingle.P2p.StunRequest

/-!
# How a connection ends (`port.cc`)

`CheckTimeout` posts `MSG_DELETE` when a connection has timed out in both directions, and
`OnMessage` deletes it when the message comes up. `OnMessage` does not look at the states again,
and a message that was posted is not taken back: what arrives in between can revive the
connection.

## Results

* **`deleted_dead_iff_quiet`**: the connection is dead whenever it is deleted, exactly if the run
  is quiet.
-/

namespace Libjingle

open StunMessage

/-! ## Data -/

def defaultRtt : U32 := maximumRtt
def rttRatio : U32 := 3
def iceTypePreferencePrflx : U32 := 110

def stunErrorUnknownAttribute : Nat := 420
def stunErrorServerError : Nat := 500
def stunErrorGlobalFailure : Nat := 600

/-- A connection on its port. `manager` is `requests_`, and `conn.requests` are its keys. -/
structure ActiveConnection where
  port : Port
  remote : RemoteCandidate
  conn : Connection
  manager : StunRequestManager

/-- What a connection does to the outside: it sends a message or a packet, hands data on, or signals
something to its channel. -/
inductive ConnectionOutput where
  | sent (msg : StunMessage)
  | transmitted (packet : Option (List U8))
  | readPacket (data : List U8)
  | roleConflict
  | useCandidate
  | destroyed
  deriving DecidableEq

/-- What can happen to a connection. -/
inductive ConnectionEvent where
  /-- a packet arrives, with what lies behind it in memory -/
  | readPacket (now : U32) (data : List U8) (mem : Nat → U8)
  /-- a packet has created or found the connection (`P2PTransportChannel::CreateConnection`) -/
  | receivedPing (now : U32)
  | ping (now : U32) (id : { id : List U8 // id.length = kStunTransactionIdLength })
  /-- the timer of a request fires -/
  | timer (now : U32) (uid : Nat)
  | prune
  | destroy
  | updateState (now : U32)
  | setRole (role : TransportRole)
  | setIceProtocolType (protocol : IceProtocol)
  /-- the thread gets to a queued `MSG_DELETE` -/
  | onMessage

/-- A connection, or the state in which it was deleted. -/
inductive ConnectionLife where
  | alive (s : ActiveConnection)
  | deleted (last : ActiveConnection)

/-! ## Operations -/

namespace Connection

/-- `Connection`. -/
def create (port : Port) (network : Nat)
    (portGeneration localPriority remotePriority remoteGeneration : U32) : Connection :=
  { network, iceProtocol := port.iceProtocol, role := port.role, portGeneration, localPriority,
    remotePriority, remoteGeneration, readState := .init, writeState := .init, pruned := false,
    nominated := false, rtt := defaultRtt, pingsSinceLastResponse := [], lastPingReceived := 0,
    lastDataReceived := 0, requests := [], deletes := 0 }

def destroy (c : Connection) : Connection := (c.setReadState .timeout).setWriteState .timeout

def receivedPing (c : Connection) (now : U32) : Connection :=
  { c with lastPingReceived := now }.setReadState .readable

/-- `OnReadPacket`: if timed out sending writability checks, start up again. -/
def startUpAgain (c : Connection) : Connection :=
  if ¬ c.pruned ∧ c.writeState = .timeout then c.setWriteState .init else c

/-- `OnConnectionRequestResponse`, with `Elapsed` of the request. -/
def onConnectionRequestResponse (c : Connection) (elapsed : U32) : Connection :=
  -- We may be bringing a pruned connection back to life.
  let c := c.setWriteState .writable
  { c with pingsSinceLastResponse := [], rtt := (rttRatio * c.rtt + elapsed) / (rttRatio + 1) }

end Connection

namespace ActiveConnection

variable (hmac : List U8 → List U8 → Digest)

/-- `requests_` changes. -/
def setManager (s : ActiveConnection) (manager : StunRequestManager) : ActiveConnection :=
  { s with manager, conn := { s.conn with requests := manager.requests.map Prod.fst } }

def handleRoleConflictFromPeer (s : ActiveConnection) :
    ActiveConnection × List ConnectionOutput :=
  (if s.port.role = .controlling then { s with conn := { s.conn with nominated := false } } else s,
    [.roleConflict])

def onConnectionRequestErrorResponse (s : ActiveConnection) (response : StunMessage) :
    ActiveConnection × List ConnectionOutput :=
  let errorCode := match response.getErrorCode with
    | some (.errorCode eclass number reason) =>
      -- When doing GICE, the error code is written out incorrectly.
      if s.port.iceProtocol = .google then eclass.toNat * 256 + number.toNat
      else (StunValue.errorCode eclass number reason).code
    | _ => stunErrorGlobalFailure
  if errorCode = stunErrorUnknownAttribute ∨ errorCode = stunErrorServerError ∨
      errorCode = stunErrorUnauthorized.code then
    (s, [])
  else if errorCode = stunErrorStaleCredentials.code then (s, [])
  else if errorCode = stunErrorRoleConflict.code then s.handleRoleConflictFromPeer
  -- This is not a valid connection.
  else ({ s with conn := s.conn.setWriteState .timeout }, [])

/-- What the manager `before` has called in the step it took. -/
def handle (before : StunRequestManager) (now : U32) (s : ActiveConnection) :
    RequestOutput → ActiveConnection × List ConnectionOutput
  | .response uid _ =>
    let tstamp := ((before.object uid).map StunRequest.tstamp).getD 0
    ({ s with conn := s.conn.onConnectionRequestResponse (now - tstamp) }, [])
  | .errorResponse _ response => s.onConnectionRequestErrorResponse response
  | .timeout _ => (s, [])
  | .transmitted _ packet => (s, [.transmitted packet])

/-- A step of the manager, with the handlers it calls. -/
def handleAll (s : ActiveConnection) (now : U32)
    (result : StunRequestManager × List RequestOutput) : ActiveConnection × List ConnectionOutput :=
  result.2.foldl (fun t o => let t' := t.1.handle s.manager now o; (t'.1, t.2 ++ t'.2))
    (s.setManager result.1, [])

/-- `OnReadPacket`, for a binding request. -/
def onBindingRequest (s : ActiveConnection) (now : U32) (msg : StunMessage)
    (remoteUfrag : List U8) : ActiveConnection × List ConnectionOutput :=
  if remoteUfrag = s.remote.username then
    let ice : Bool := s.port.iceProtocol = .rfc5245
    let check := s.port.maybeIceRoleConflict msg remoteUfrag
    if ice ∧ check = .refused then
      (s, [.sent (s.port.sendBindingErrorResponse hmac msg stunErrorRoleConflict)])
    else
      -- This call will also set the connection readable.
      let response := s.port.sendBindingResponse hmac msg s.remote.address
      let conn := if response = none then s.conn else s.conn.receivedPing now
      let useCandidate := ice ∧ s.port.role = .controlled ∧
        msg.getByteString stunAttrUseCandidate ≠ none
      ({ s with conn := conn.startUpAgain },
        (if ice ∧ check = .signalled then [.roleConflict] else []) ++
          response.toList.map .sent ++ if useCandidate then [.useCandidate] else [])
  else (s, [.sent (s.port.sendBindingErrorResponse hmac msg stunErrorUnauthorized)])

/-- A response is looked at only with the remote password in it. -/
def authentic (s : ActiveConnection) (data : List U8) (mem : Nat → U8) : Bool :=
  s.port.iceProtocol = .google ||
    validateMessageIntegrity hmac (view data mem) data.length s.remote.password

def onReadPacket (s : ActiveConnection) (now : U32) (data : List U8) (mem : Nat → U8) :
    Option (ActiveConnection × List ConnectionOutput) :=
  match s.port.getStunMessage hmac data mem with
  | .notStun =>
    -- If this connection is readable, then pass along the packet.
    if s.conn.readState = .readable then
      some ({ s with conn := { s.conn with lastDataReceived := now }.startUpAgain },
        [.readPacket data])
    else some (s, [])
  | .refused request e => some (s, [.sent (s.port.sendBindingErrorResponse hmac request e)])
  | .dropped => some (s, [])
  | .message msg remoteUfrag =>
    if msg.type = stunBindingRequest then some (s.onBindingRequest hmac now msg remoteUfrag)
    else if msg.type = stunBindingResponse ∨ msg.type = stunBindingErrorResponse then
      if s.authentic hmac data mem then
        (s.manager.checkResponse now msg []).map (s.handleAll now)
      else some (s, [])
    else if msg.type = stunBindingIndication ∧ s.port.iceProtocol = .rfc5245 ∧
        s.conn.readState = .readable then
      some ({ s with conn := s.conn.receivedPing now }, [])
    else some (s, [])

end ActiveConnection

theorem connectionRequest_transactionId (hmac : List U8 → List U8 → Digest) (p : Port)
    (remote : RemoteCandidate) {id : List U8} (h : isValidTransactionId id = true)
    (retransmits prflxPriority : U32) :
    (connectionRequest hmac p remote id retransmits prflxPriority).transactionId = id := by
  have hhead : (connectionRequestHead p remote id retransmits).transactionId = id := by
    have hnew := setTransactionID_transactionId (StunMessage.new .ice) h
    unfold connectionRequestHead
    split
    · rw [withAttribute_transactionId, withAttribute_transactionId]
      exact hnew
    · rw [withAttribute_transactionId]
      exact hnew
  unfold connectionRequest withRole
  split
  · cases p.role <;> simp [hhead]
  · exact hhead

namespace ActiveConnection

variable (hmac : List U8 → List U8 → Digest)

/-- The request of a `Ping`. -/
def pingRequest (s : ActiveConnection)
    (id : { id : List U8 // id.length = kStunTransactionIdLength }) : NewRequest :=
  ⟨.connection,
    connectionRequest hmac s.port s.remote id.1
      (BitVec.ofNat 32 s.conn.pingsSinceLastResponse.length - 1)
      (iceTypePreferencePrflx <<< 24 ||| s.conn.localPriority &&& 0x00FFFFFF),
    by rw [connectionRequest_transactionId hmac _ _ (by simp [isValidTransactionId, id.2]), id.2]⟩

def ping (s : ActiveConnection) (now : U32)
    (id : { id : List U8 // id.length = kStunTransactionIdLength }) : ActiveConnection :=
  let s := { s with conn := { s.conn with
    pingsSinceLastResponse := s.conn.pingsSinceLastResponse ++ [now] } }
  s.setManager (s.manager.sendDelayed now (s.pingRequest hmac id) 0)

def prune (s : ActiveConnection) : Option ActiveConnection :=
  if s.conn.pruned then some s
  else s.manager.clear.map fun manager => { s.setManager manager with conn := s.conn.prune }

/-- One event of a connection that exists. -/
def step (s : ActiveConnection) :
    ConnectionEvent → Option (ConnectionLife × List ConnectionOutput)
  | .readPacket now data mem => (s.onReadPacket hmac now data mem).map fun r => (.alive r.1, r.2)
  | .receivedPing now => some (.alive { s with conn := s.conn.receivedPing now }, [])
  | .ping now id => some (.alive (s.ping hmac now id), [])
  | .timer now uid => (s.manager.step (.timer now uid [])).map fun r =>
    let r := s.handleAll now r
    (.alive r.1, r.2)
  | .prune => s.prune.map fun s => (.alive s, [])
  | .destroy => some (.alive { s with conn := s.conn.destroy }, [])
  | .updateState now => some (.alive { s with conn := s.conn.updateState now }, [])
  | .setRole role => some (.alive { s with
      port := { s.port with role }
      conn := { s.conn with role } }, [])
  | .setIceProtocolType protocol => some (.alive { s with
      port := { s.port with iceProtocol := protocol }
      conn := { s.conn with iceProtocol := protocol } }, [])
  -- Only what was posted comes up.
  | .onMessage =>
    if s.conn.deletes = 0 then some (.alive s, []) else some (.deleted s, [.destroyed])

def create (port : Port) (remote : RemoteCandidate) (network : Nat)
    (portGeneration localPriority remotePriority : U32) : ActiveConnection :=
  ⟨port, remote, .create port network portGeneration localPriority remotePriority
    (BitVec.ofNat 32 remote.generation), .new⟩

end ActiveConnection

namespace ConnectionLife

variable (hmac : List U8 → List U8 → Digest)

/-- One event; to a deleted connection nothing happens, since its messages are gone with it. -/
def step : ConnectionLife → ConnectionEvent → Option (ConnectionLife × List ConnectionOutput)
  | alive s, e => s.step hmac e
  | deleted last, _ => some (deleted last, [])

def run (life : ConnectionLife) : List ConnectionEvent → Option ConnectionLife
  | [] => some life
  | e :: es => (life.step hmac e).bind fun r => r.1.run es

end ConnectionLife

/-! ## Dead connections -/

namespace Connection

/-- Both directions have timed out, or the connection has never been readable. -/
structure Dead (c : Connection) : Prop where
  write : c.writeState = .timeout
  read : c.readState = .timeout ∨ c.readState = .init

/-- A queued `MSG_DELETE` finds the connection dead. -/
def Settled (c : Connection) : Prop := c.deletes ≠ 0 → c.Dead

variable {c : Connection} {now : U32}

theorem Dead.not_readable (h : c.Dead) : c.readState ≠ .readable := by
  rcases h.read with hread | hread <;> rw [hread] <;> nofun

theorem checkTimeout_settled (h : c.Settled) : c.checkTimeout.Settled := by
  unfold checkTimeout
  split
  · rename_i hdead
    exact fun _ => ⟨hdead.2, hdead.1⟩
  · exact h

theorem Settled.setReadState {value : ReadState} (h : c.Settled)
    (hvalue : c.deletes ≠ 0 → value ≠ .readable) : (c.setReadState value).Settled := by
  unfold Connection.setReadState
  split
  · refine checkTimeout_settled fun hqueued => ⟨(h hqueued).write, ?_⟩
    have hnot := hvalue hqueued
    cases value with
    | init => exact Or.inr rfl
    | readable => exact absurd rfl hnot
    | timeout => exact Or.inl rfl
  · exact h

variable {value : WriteState}

theorem Settled.setWriteState (h : c.Settled)
    (hvalue : c.deletes ≠ 0 → value = .timeout) : (c.setWriteState value).Settled := by
  unfold Connection.setWriteState
  split
  · exact checkTimeout_settled fun hqueued => ⟨hvalue hqueued, (h hqueued).read⟩
  · exact h

theorem Settled.prune (h : c.Settled) : c.prune.Settled := by
  unfold Connection.prune
  split
  · exact h
  · exact Settled.setWriteState (fun hqueued => ⟨(h hqueued).write, (h hqueued).read⟩)
      fun _ => rfl

theorem Settled.destroy (h : c.Settled) : c.destroy.Settled := by
  have hread : (c.setReadState .timeout).Settled := h.setReadState fun _ => nofun
  exact hread.setWriteState fun _ => rfl

theorem Settled.updateState (h : c.Settled) : (c.updateState now).Settled := by
  unfold Connection.updateState
  extract_lets rtt c₁ c₂
  have h₁ : c₁.Settled := by
    simp only [c₁]
    split
    · exact h.setReadState fun _ => nofun
    · exact h
  have h₂ : c₂.Settled := by
    simp only [c₂]
    split
    · rename_i hwritable
      refine h₁.setWriteState fun hqueued => ?_
      rw [(h₁ hqueued).write] at hwritable
      cases hwritable.1
    · exact h₁
  split
  · exact h₂.setWriteState fun _ => rfl
  · exact h₂

theorem setReadState_readable (c : Connection) :
    c.setReadState .readable = { c with readState := .readable } := by
  unfold Connection.setReadState
  split
  · exact if_neg fun h => h.1.elim nofun nofun
  · rename_i hsame
    rw [not_not.mp hsame]

theorem setWriteState_of_ne (h : value ≠ .timeout) :
    c.setWriteState value = { c with writeState := value } := by
  unfold Connection.setWriteState
  split
  · exact if_neg fun hdead => h hdead.2
  · rename_i hsame
    rw [not_not.mp hsame]

theorem receivedPing_eq (c : Connection) (now : U32) :
    c.receivedPing now = { c with lastPingReceived := now, readState := .readable } :=
  setReadState_readable _

theorem startUpAgain_eq (c : Connection) : ∃ w, c.startUpAgain = { c with writeState := w } := by
  unfold startUpAgain
  split
  · exact ⟨_, setWriteState_of_ne nofun⟩
  · exact ⟨c.writeState, rfl⟩

theorem onConnectionRequestResponse_eq (c : Connection) (elapsed : U32) :
    c.onConnectionRequestResponse elapsed = { c with
      writeState := .writable
      pingsSinceLastResponse := []
      rtt := (rttRatio * c.rtt + elapsed) / (rttRatio + 1) } := by
  have hne : WriteState.writable ≠ .timeout := nofun
  unfold onConnectionRequestResponse
  rw [setWriteState_of_ne hne]

/-- What a revived connection is: a message is queued, and the connection can be used. -/
structure Doomed (c : Connection) : Prop where
  queued : c.deletes ≠ 0
  usable : c.readState = .readable ∨ c.writeState = .writable

theorem Doomed.not_dead (h : c.Doomed) : ¬ c.Dead := by
  intro hdead
  rcases h.usable with hread | hwrite
  · exact hdead.not_readable hread
  · rw [hdead.write] at hwrite
    cases hwrite

end Connection

/-! ## Revival -/

/-- The message is the success response to an open request. -/
def StunRequestManager.succeeds (m : StunRequestManager) (msg : StunMessage) : Bool :=
  ((m.find msg.transactionId).bind m.object).any fun r =>
    some msg.type = getStunSuccessResponseType r.msg.type

/-- An output that calls `OnResponse`. -/
def RequestOutput.isResponse : RequestOutput → Bool
  | .response _ _ => true
  | _ => false

variable {m : StunRequestManager} {msg : StunMessage}

variable {r : StunRequestManager × List RequestOutput}

theorem StunRequestManager.checkResponse_spec {now : U32}
    (h : m.checkResponse now msg [] = some r) :
    (m.succeeds msg = true ∧ ∃ uid, r.2 = [.response uid msg]) ∨
      (m.succeeds msg = false ∧ ∀ o ∈ r.2, o.isResponse = false) := by
  unfold checkResponse at h
  unfold succeeds
  split at h
  · rename_i hfind
    obtain rfl := Option.some.inj h
    rw [hfind]
    exact Or.inr ⟨rfl, List.forall_mem_nil _⟩
  · rename_i uid hfind
    obtain ⟨request, hobject, h⟩ := Option.map_eq_some_iff.mp h
    rw [hfind, Option.bind_some, hobject, Option.any_some]
    split at h
    · rename_i hsuccess
      subst h
      exact Or.inl ⟨decide_eq_true hsuccess, uid, rfl⟩
    · rename_i hother
      refine Or.inr ⟨decide_eq_false hother, ?_⟩
      split at h
      · subst h
        exact List.forall_mem_singleton.mpr rfl
      · subst h
        exact List.forall_mem_nil _

theorem StunRequestManager.checkResponse_of_succeeds
    (h : m.succeeds msg = true) (now : U32) : (m.checkResponse now msg []).isSome := by
  obtain ⟨request, hrequest, -⟩ := (Option.any_eq_true _ _).mp h
  obtain ⟨uid, hfind, hobject⟩ := Option.bind_eq_some_iff.mp hrequest
  unfold checkResponse
  rw [hfind]
  dsimp only
  rw [hobject]
  rfl

/-- A timer calls no `OnResponse`. -/
theorem StunRequestManager.step_timer {now : U32} {uid : Nat}
    (h : m.step (.timer now uid []) = some r) :
    ∀ o ∈ r.2, o.isResponse = false := by
  unfold StunRequestManager.step at h
  dsimp only at h
  split at h
  · obtain rfl := Option.some.inj h
    exact List.forall_mem_nil _
  · obtain ⟨request, -, h⟩ := Option.map_eq_some_iff.mp h
    unfold onMessage at h
    split at h
    · subst h
      exact List.forall_mem_singleton.mpr rfl
    · subst h
      exact List.forall_mem_singleton.mpr rfl

namespace ActiveConnection

variable (hmac : List U8 → List U8 → Digest)

/-- The packet is a binding request that is accepted. -/
def pinged (s : ActiveConnection) (data : List U8) (mem : Nat → U8) : Bool :=
  match s.port.getStunMessage hmac data mem with
  | .message msg remoteUfrag =>
    msg.type = stunBindingRequest ∧ remoteUfrag = s.remote.username ∧
      ¬ (s.port.iceProtocol = .rfc5245 ∧ s.port.maybeIceRoleConflict msg remoteUfrag = .refused)
  | _ => false

/-- The packet is the success response to an open ping. -/
def answered (s : ActiveConnection) (data : List U8) (mem : Nat → U8) : Bool :=
  match s.port.getStunMessage hmac data mem with
  | .message msg _ =>
    (msg.type = stunBindingResponse ∨ msg.type = stunBindingErrorResponse) ∧
      s.authentic hmac data mem ∧ s.manager.succeeds msg
  | _ => false

/-- The event revives the connection. -/
def Revived (s : ActiveConnection) : ConnectionEvent → Prop
  | .readPacket _ data mem => s.pinged hmac data mem ∨ s.answered hmac data mem
  | .receivedPing _ => True
  | _ => False

end ActiveConnection

namespace ConnectionLife

variable (hmac : List U8 → List U8 → Digest)

/-- A connection with a queued `MSG_DELETE` is not revived. -/
def QuietAt : ConnectionLife → ConnectionEvent → Prop
  | alive s, e => s.conn.deletes ≠ 0 → ¬ s.Revived hmac e
  | deleted _, _ => True

/-- A run in which no connection with a queued `MSG_DELETE` is revived. -/
def Quiet (life : ConnectionLife) : List ConnectionEvent → Prop
  | [] => True
  | e :: es => life.QuietAt hmac e ∧ ∀ r, life.step hmac e = some r → r.1.Quiet es

end ConnectionLife

/-! ## One event -/

theorem Port.getStunMessage_username {hmac : List U8 → List U8 → Digest} {p : Port}
    {bytes : List U8} {mem : Nat → U8} {remoteUfrag : List U8}
    (h : p.getStunMessage hmac bytes mem = .message msg remoteUfrag)
    (htype : msg.type = stunBindingRequest) : msg.getByteString stunAttrUsername ≠ none := by
  unfold getStunMessage at h
  split at h
  · cases h
  split at h
  · cases h
  split at h
  · split at h
    · cases h
    rename_i hattrs
    split at h
    · cases h
    split at h
    · cases h
    split at h
    · cases h
    · cases h
      exact fun hnone => hattrs (Or.inl hnone)
  · rename_i hother
    have hsame : ∀ {m : StunMessage}, StunResult.message m [] = .message msg remoteUfrag →
        m.type = stunBindingRequest := by
      intro m hm
      cases hm
      exact htype
    split at h
    · exact absurd (hsame h) hother
    split at h
    · split at h
      · cases h
      · exact absurd (hsame h) hother
    split at h
    · exact absurd (hsame h) hother
    · cases h

namespace ActiveConnection

variable {hmac : List U8 → List U8 → Digest} {s : ActiveConnection} {now : U32}

/-- No message is queued that would find the connection alive. -/
def Settled (s : ActiveConnection) : Prop := s.conn.Settled

theorem settled_of_none (h : s.conn.deletes = 0) : s.Settled := fun hqueued => absurd h hqueued

theorem Settled.onConnectionRequestErrorResponse (h : s.Settled) (response : StunMessage) :
    (s.onConnectionRequestErrorResponse response).1.Settled := by
  unfold ActiveConnection.onConnectionRequestErrorResponse
  extract_lets errorCode
  split
  · exact h
  split
  · exact h
  split
  · unfold handleRoleConflictFromPeer
    dsimp only
    split
    · exact fun hqueued => ⟨(h hqueued).write, (h hqueued).read⟩
    · exact h
  · exact Connection.Settled.setWriteState h fun _ => rfl

theorem Settled.handle (h : s.Settled) {before : StunRequestManager} {o : RequestOutput}
    (ho : o.isResponse = false) : (s.handle before now o).1.Settled := by
  cases o with
  | response uid msg => cases ho
  | errorResponse uid msg => exact h.onConnectionRequestErrorResponse msg
  | timeout uid => exact h
  | transmitted uid packet => exact h

theorem Settled.setManager (h : s.Settled) (manager : StunRequestManager) :
    (s.setManager manager).Settled :=
  fun hqueued => ⟨(h hqueued).write, (h hqueued).read⟩

variable {r : StunRequestManager × List RequestOutput}

theorem Settled.handleAll (h : s.Settled)
    (hr : ∀ o ∈ r.2, o.isResponse = false) : (s.handleAll now r).1.Settled := by
  unfold ActiveConnection.handleAll
  refine List.foldlRecOn (motive := fun (t : ActiveConnection × List ConnectionOutput) =>
    t.1.Settled) r.2 _ (h.setManager r.1) ?_
  exact fun t ht o ho => ht.handle (hr o ho)

theorem Settled.startUpAgain (h : s.Settled) (hread : s.conn.readState = .readable) {time : U32} :
    { s with conn := { s.conn with lastDataReceived := time }.startUpAgain }.Settled := by
  obtain ⟨w, heq⟩ := Connection.startUpAgain_eq { s.conn with lastDataReceived := time }
  rw [heq]
  exact fun hqueued => absurd hread (h hqueued).not_readable

variable {msg : StunMessage}

variable {remoteUfrag : List U8}

theorem onBindingRequest_accepted (hmac : List U8 → List U8 → Digest) (now : U32)
    (hname : remoteUfrag = s.remote.username)
    (hrole : ¬ (s.port.iceProtocol = .rfc5245 ∧
      s.port.maybeIceRoleConflict msg remoteUfrag = .refused))
    (husername : msg.getByteString stunAttrUsername ≠ none) :
    ∃ w, (s.onBindingRequest hmac now msg remoteUfrag).1 = { s with conn := { s.conn with
      lastPingReceived := now
      readState := .readable
      writeState := w } } := by
  obtain ⟨w, hw⟩ := Connection.startUpAgain_eq (s.conn.receivedPing now)
  refine ⟨w, ?_⟩
  have hresponse : s.port.sendBindingResponse hmac msg s.remote.address ≠ none := by
    unfold Port.sendBindingResponse
    exact fun hnone => husername (Option.map_eq_none_iff.mp hnone)
  unfold ActiveConnection.onBindingRequest
  rw [if_pos hname]
  simp only [decide_eq_true_eq, if_neg hrole, if_neg hresponse]
  rw [hw, Connection.receivedPing_eq]

theorem onBindingRequest_refused
    (hno : ¬ (remoteUfrag = s.remote.username ∧ ¬ (s.port.iceProtocol = .rfc5245 ∧
      s.port.maybeIceRoleConflict msg remoteUfrag = .refused))) :
    (s.onBindingRequest hmac now msg remoteUfrag).1 = s := by
  unfold ActiveConnection.onBindingRequest
  split
  · rename_i hname
    simp only [decide_eq_true_eq]
    rw [if_pos (not_not.mp fun hrole => hno ⟨hname, hrole⟩)]
  · rfl

theorem handleAll_response (s : ActiveConnection) (now : U32)
    {uid : Nat} (hr : r.2 = [.response uid msg]) :
    (s.handleAll now r).1.conn.deletes = s.conn.deletes ∧
      (s.handleAll now r).1.conn.writeState = .writable := by
  unfold ActiveConnection.handleAll
  rw [hr]
  simp only [List.foldl_cons, List.foldl_nil, handle, Connection.onConnectionRequestResponse_eq,
    and_true]
  rfl

theorem Settled.onReadPacket (h : s.Settled) {data : List U8} {mem : Nat → U8}
    {r : ActiveConnection × List ConnectionOutput}
    (hread : s.onReadPacket hmac now data mem = some r)
    (hno : s.conn.deletes ≠ 0 → ¬ (s.pinged hmac data mem ∨ s.answered hmac data mem)) :
    r.1.Settled := by
  unfold ActiveConnection.onReadPacket at hread
  unfold pinged answered at hno
  cases hmsg : s.port.getStunMessage hmac data mem with
  | notStun =>
    simp only [hmsg] at hread
    split at hread
    · rename_i hreadable
      obtain rfl := Option.some.inj hread
      exact h.startUpAgain hreadable
    · obtain rfl := Option.some.inj hread
      exact h
  | refused request e =>
    simp only [hmsg] at hread
    obtain rfl := Option.some.inj hread
    exact h
  | dropped =>
    simp only [hmsg] at hread
    obtain rfl := Option.some.inj hread
    exact h
  | message msg remoteUfrag =>
    simp only [hmsg, decide_eq_true_eq] at hread hno
    split at hread
    · rename_i htype
      obtain rfl := Option.some.inj hread
      by_cases hok : remoteUfrag = s.remote.username ∧ ¬ (s.port.iceProtocol = .rfc5245 ∧
          s.port.maybeIceRoleConflict msg remoteUfrag = .refused)
      · obtain ⟨w, heq⟩ := onBindingRequest_accepted hmac now hok.1 hok.2
          (Port.getStunMessage_username hmsg htype)
        rw [heq]
        refine settled_of_none (by_contra fun hqueued => hno hqueued (Or.inl ⟨htype, hok⟩))
      · rw [onBindingRequest_refused hok]
        exact h
    split at hread
    · rename_i hresponse
      split at hread
      · rename_i hauthentic
        obtain ⟨r', hcheck, rfl⟩ := Option.map_eq_some_iff.mp hread
        rcases StunRequestManager.checkResponse_spec hcheck with ⟨hsucceeds, uid, hout⟩ | ⟨-, hout⟩
        · refine settled_of_none ?_
          rw [(handleAll_response s now hout).1]
          exact by_contra fun hqueued => hno hqueued (Or.inr ⟨hresponse, hauthentic, hsucceeds⟩)
        · exact h.handleAll hout
      · obtain rfl := Option.some.inj hread
        exact h
    split at hread
    · rename_i hindication
      obtain rfl := Option.some.inj hread
      have hreceived := Connection.receivedPing_eq s.conn now
      intro hqueued
      dsimp only at hqueued
      rw [hreceived] at hqueued
      exact absurd hindication.2.2 (h hqueued).not_readable
    · obtain rfl := Option.some.inj hread
      exact h

/-- **An event that does not revive a connection with a queued message leaves it settled.** -/
theorem Settled.step (h : s.Settled) {e : ConnectionEvent} {t : ActiveConnection}
    {out : List ConnectionOutput} (hstep : s.step hmac e = some (.alive t, out))
    (hquiet : s.conn.deletes ≠ 0 → ¬ s.Revived hmac e) : t.Settled := by
  unfold ActiveConnection.step at hstep
  cases e with
  | readPacket now data mem =>
    obtain ⟨r, hread, hr⟩ := Option.map_eq_some_iff.mp hstep
    cases hr
    exact h.onReadPacket hread hquiet
  | receivedPing now =>
    cases hstep
    have hnone : s.conn.deletes = 0 := by_contra fun hqueued => hquiet hqueued trivial
    refine settled_of_none ?_
    dsimp only
    rw [Connection.receivedPing_eq]
    exact hnone
  | ping now id =>
    cases hstep
    exact fun hqueued => ⟨(h hqueued).write, (h hqueued).read⟩
  | timer now uid =>
    obtain ⟨r, htimer, hr⟩ := Option.map_eq_some_iff.mp hstep
    cases hr
    exact h.handleAll (StunRequestManager.step_timer htimer)
  | prune =>
    obtain ⟨t', hprune, hr⟩ := Option.map_eq_some_iff.mp hstep
    cases hr
    unfold ActiveConnection.prune at hprune
    split at hprune
    · obtain rfl := Option.some.inj hprune
      exact h
    · obtain ⟨manager, -, rfl⟩ := Option.map_eq_some_iff.mp hprune
      exact Connection.Settled.prune h
  | destroy =>
    cases hstep
    exact Connection.Settled.destroy h
  | updateState now =>
    cases hstep
    exact Connection.Settled.updateState h
  | setRole role =>
    cases hstep
    exact fun hqueued => ⟨(h hqueued).write, (h hqueued).read⟩
  | setIceProtocolType protocol =>
    cases hstep
    exact fun hqueued => ⟨(h hqueued).write, (h hqueued).read⟩
  | onMessage =>
    dsimp only at hstep
    split at hstep
    · cases hstep
      exact h
    · cases hstep

variable {e : ConnectionEvent}

/-- `OnMessage` deletes what it finds. -/
theorem step_deleted {last : ActiveConnection} {out : List ConnectionOutput}
    (hstep : s.step hmac e = some (.deleted last, out)) :
    e = .onMessage ∧ last = s ∧ s.conn.deletes ≠ 0 := by
  unfold ActiveConnection.step at hstep
  cases e with
  | onMessage =>
    dsimp only at hstep
    split at hstep
    · cases hstep
    · rename_i hqueued
      cases hstep
      exact ⟨rfl, rfl, hqueued⟩
  | readPacket => simp at hstep
  | timer => simp at hstep
  | prune => simp at hstep
  | _ => cases hstep

/-- **An event that revives a connection with a queued message leaves the message in the queue.** -/
theorem revived_step (hqueued : s.conn.deletes ≠ 0) (hrevived : s.Revived hmac e) :
    ∃ t out, s.step hmac e = some (.alive t, out) ∧ t.conn.Doomed := by
  cases e with
  | readPacket now data mem =>
    have hread : ∃ r, s.onReadPacket hmac now data mem = some r ∧ r.1.conn.Doomed := by
      unfold Revived pinged answered at hrevived
      unfold ActiveConnection.onReadPacket
      cases hmsg : s.port.getStunMessage hmac data mem with
      | message msg remoteUfrag =>
        simp only [hmsg, decide_eq_true_eq] at hrevived ⊢
        rcases hrevived with ⟨htype, hname, hrole⟩ | ⟨htype, hauthentic, hsucceeds⟩
        · rw [if_pos htype]
          refine ⟨_, rfl, ?_⟩
          obtain ⟨w, heq⟩ := onBindingRequest_accepted hmac now hname hrole
            (Port.getStunMessage_username hmsg htype)
          rw [heq]
          exact ⟨hqueued, Or.inl rfl⟩
        · have hno : msg.type ≠ stunBindingRequest := by
            intro hrequest
            rw [hrequest] at htype
            exact absurd htype (by decide)
          rw [if_neg hno, if_pos htype, if_pos hauthentic]
          obtain ⟨r, hr⟩ := Option.isSome_iff_exists.mp
            (StunRequestManager.checkResponse_of_succeeds hsucceeds now)
          refine ⟨s.handleAll now r, by rw [hr]; rfl, ?_⟩
          rcases StunRequestManager.checkResponse_spec hr with ⟨-, uid, hout⟩ | ⟨hfails, -⟩
          · obtain ⟨hdeletes, hwrite⟩ := handleAll_response s now hout
            exact ⟨by rw [hdeletes]; exact hqueued, Or.inr hwrite⟩
          · rw [hsucceeds] at hfails
            cases hfails
      | _ => simp [hmsg] at hrevived
    obtain ⟨r, hr, hdoomed⟩ := hread
    refine ⟨r.1, r.2, ?_, hdoomed⟩
    unfold ActiveConnection.step
    simp only [hr, Option.map_some]
  | receivedPing now =>
    refine ⟨_, _, rfl, ?_⟩
    rw [Connection.receivedPing_eq]
    exact ⟨hqueued, Or.inl rfl⟩
  | _ => exact hrevived.elim

end ActiveConnection

/-! ## Runs -/

namespace ConnectionLife

variable {hmac : List U8 → List U8 → Digest} {life : ConnectionLife}

/-- A connection that exists is settled, and one that was deleted was dead. -/
def Good : ConnectionLife → Prop
  | alive s => s.Settled
  | deleted last => last.conn.Dead

theorem Good.step (h : life.Good) {e : ConnectionEvent} {r : ConnectionLife × List ConnectionOutput}
    (hstep : life.step hmac e = some r) (hquiet : life.QuietAt hmac e) : r.1.Good := by
  cases life with
  | deleted last =>
    obtain rfl := Option.some.inj hstep
    exact h
  | alive s =>
    obtain ⟨life', out⟩ := r
    cases life' with
    | alive t => exact ActiveConnection.Settled.step h hstep hquiet
    | deleted last =>
      obtain ⟨-, rfl, hqueued⟩ := ActiveConnection.step_deleted hstep
      exact h hqueued

variable {es : List ConnectionEvent}

theorem Good.run : ∀ {life life' : ConnectionLife}, life.Good →
    life.Quiet hmac es → life.run hmac es = some life' → life'.Good := by
  induction es with
  | nil =>
    intro life life' h _ hrun
    obtain rfl := Option.some.inj hrun
    exact h
  | cons e es ih =>
    intro life life' h hquiet hrun
    obtain ⟨r, hstep, hrun⟩ := Option.bind_eq_some_iff.mp hrun
    exact ih (h.step hstep hquiet.1) (hquiet.2 r hstep) hrun

theorem quiet_onMessage : life.QuietAt hmac .onMessage := by
  cases life with
  | alive s => exact fun _ hrevived => hrevived
  | deleted last => trivial

theorem Quiet.concat {before after : List ConnectionEvent} : ∀ {life : ConnectionLife},
    life.Quiet hmac (before ++ after) → life.Quiet hmac (before ++ [.onMessage]) := by
  induction before with
  | nil => exact fun _ => ⟨quiet_onMessage, fun _ _ => trivial⟩
  | cons e before ih => exact fun h => ⟨h.1, fun r hr => ih (h.2 r hr)⟩

theorem exists_doomed : ∀ {life : ConnectionLife},
    ¬ life.Quiet hmac es → ∃ before after last, es = before ++ after ∧
      life.run hmac (before ++ [.onMessage]) = some (deleted last) ∧ last.conn.Doomed := by
  induction es with
  | nil => exact fun h => absurd trivial h
  | cons e es ih =>
    intro life h
    by_cases hquiet : life.QuietAt hmac e
    · have hrest : ∃ r, life.step hmac e = some r ∧ ¬ r.1.Quiet hmac es := by
        by_contra hall
        exact h ⟨hquiet, fun r hr => not_not.mp fun hnot => hall ⟨r, hr, hnot⟩⟩
      obtain ⟨r, hstep, hrest⟩ := hrest
      obtain ⟨before, after, last, rfl, hrun, hdoomed⟩ := ih hrest
      refine ⟨e :: before, after, last, rfl, ?_, hdoomed⟩
      rw [List.cons_append]
      unfold ConnectionLife.run
      rw [hstep]
      exact hrun
    · cases life with
      | deleted last => exact absurd trivial hquiet
      | alive s =>
        unfold QuietAt at hquiet
        obtain ⟨hqueued, hrevived⟩ := Classical.not_imp.mp hquiet
        obtain ⟨t, out, hstep, hdoomed⟩ :=
          ActiveConnection.revived_step hqueued (not_not.mp hrevived)
        refine ⟨[e], es, t, rfl, ?_, hdoomed⟩
        have hlast : t.step hmac .onMessage = some (deleted t, [.destroyed]) :=
          if_neg hdoomed.queued
        simp only [List.cons_append, List.nil_append, ConnectionLife.run, ConnectionLife.step,
          hstep, hlast, Option.bind_some]

/-- **A connection is dead whenever it is deleted, in every quiet run; and a run is quiet exactly if
the message that is queued at some point of it would always find the connection dead.** -/
theorem deleted_dead_iff_quiet (hmac : List U8 → List U8 → Digest) (port : Port)
    (remote : RemoteCandidate) (network : Nat) (portGeneration localPriority remotePriority : U32)
    (es : List ConnectionEvent) :
    let life := alive (.create port remote network portGeneration localPriority remotePriority)
    (life.Quiet hmac es → ∀ last, life.run hmac es = some (deleted last) → last.conn.Dead) ∧
      (life.Quiet hmac es ↔ ∀ before after, es = before ++ after → ∀ last,
        life.run hmac (before ++ [.onMessage]) = some (deleted last) → last.conn.Dead) := by
  intro life
  have hnew : life.Good := ActiveConnection.settled_of_none rfl
  refine ⟨fun hquiet last hrun => hnew.run hquiet hrun, fun hquiet before after hes last hrun => ?_,
    fun h => ?_⟩
  · rw [hes] at hquiet
    exact hnew.run hquiet.concat hrun
  · by_contra hnot
    obtain ⟨before, after, last, hes, hrun, hdoomed⟩ := exists_doomed hnot
    exact hdoomed.not_dead (h before after hes last hrun)

/-- A port in GICE mode with the fragment "L". -/
def gicePort : Port := ⟨.google, 1, [0x4c], [], .controlling, 0, false⟩

/-- Its peer, with the fragment "R". -/
def gicePeer : RemoteCandidate := ⟨⟨.ipv4 0x0a000001, 5000⟩, [0x52], [], 0⟩

/-- A binding request of the peer, with the username "LR". -/
def gicePing : List U8 :=
  [0x00, 0x01, 0x00, 0x08, 0x21, 0x12, 0xa4, 0x42] ++ List.replicate 12 0x41 ++
    [0x00, 0x06, 0x00, 0x02, 0x4c, 0x52, 0x00, 0x00]

def noHmac : List U8 → List U8 → Digest := fun _ _ => ⟨List.replicate 20 0, List.length_replicate⟩

/-- The read state in which the connection was deleted. -/
def readAtEnd : ConnectionLife → Option ReadState
  | alive _ => none
  | deleted last => some last.conn.readState

/-- The connection is pruned before it was ever readable; a ping arrives before `MSG_DELETE` comes
up. -/
theorem deleted_while_readable : ∃ last,
    (alive (.create gicePort gicePeer 0 0 1 1)).run noHmac
      [.prune, .readPacket 1000 gicePing fun _ => 0, .onMessage] = some (deleted last) ∧
    last.conn.readState = .readable ∧ ¬ last.conn.Dead := by
  have hrun : ((alive (.create gicePort gicePeer 0 0 1 1)).run noHmac
      [.prune, .readPacket 1000 gicePing fun _ => 0, .onMessage]).bind readAtEnd =
        some .readable := by decide +kernel
  obtain ⟨life, hlife, hend⟩ := Option.bind_eq_some_iff.mp hrun
  cases life with
  | alive s => cases hend
  | deleted last =>
    have hread := Option.some.inj hend
    exact ⟨last, hlife, hread, fun hdead => hdead.not_readable hread⟩

end ConnectionLife

end Libjingle
