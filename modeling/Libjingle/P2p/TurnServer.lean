import Libjingle.P2p.Port
import Libjingle.Base.TimeUtils

/-!
# The TURN server (`p2p/base/turnserver.h`, `turnserver.cc`)

Clients talk to the server over one UDP socket, so an allocation is found by the client's address.
Every packet and every timer is one event; what is sent is part of the result. Delayed messages
are kept as the times they are due at.

`perms_` is a list of pointers. A `Permission` deletes itself when its timer fires: the object is
gone, and what `perms_` holds of it dangles. A function that follows such a pointer has no result,
`none`. Channels are unlinked when they are deleted, so their objects are in the list itself.

The HMACs, the keys of the users and what the socket factory returns are parameters.
-/

namespace Libjingle

open Lib ByteBuffer StunMessage

/-! ## Constants -/

def kNonceTimeout : Int := 60 * 60 * 1000
/-- `kDefaultAllocationTimeout`, in seconds. -/
def kDefaultAllocationLifetime : U32 := 10 * 60
def kPermissionTimeout : U32 := 5 * 60 * 1000
def kChannelTimeout : U32 := 10 * 60 * 1000
def kMinChannelNumber : Nat := 0x4000
def kMaxChannelNumber : Nat := 0x7FFF
def kNonceSize : Nat := 40
def turnChannelHeaderSize : Nat := 4
def ipprotoUdp : U32 := 17

def stunAllocateRequest : U16 := 0x0003
def turnRefreshRequest : U16 := 0x0004
def turnSendIndication : U16 := 0x0016
def turnDataIndication : U16 := 0x0017
def turnCreatePermissionRequest : U16 := 0x0008
def turnChannelBindRequest : U16 := 0x0009

def stunAttrRealm : U16 := 0x0014
def stunAttrNonce : U16 := 0x0015
def stunAttrSoftware : U16 := 0x8022
def stunAttrChannelNumber : U16 := 0x000C
def stunAttrLifetime : U16 := 0x000d
def stunAttrXorPeerAddress : U16 := 0x0012
def stunAttrData : U16 := 0x0013
def stunAttrXorRelayedAddress : U16 := 0x0016
def stunAttrRequestedTransport : U16 := 0x0019

def stunErrorAllocationMismatch : StunError := ⟨437, "Allocation Mismatch"⟩
def stunErrorStaleNonce : StunError := ⟨438, "Stale Nonce"⟩
def stunErrorWrongCredentials : StunError := ⟨441, "Wrong Credentials"⟩
def stunErrorUnsupportedProtocol : StunError := ⟨442, "Unsupported Protocol"⟩
/-- `STUN_ERROR_SERVER_ERROR`, where the socket could not be made. -/
def stunErrorNoSocket : StunError := ⟨500, "Failed to allocate socket"⟩

/-! ## Messages -/

/-- `IsStunRequestType`. -/
def isStunRequestType (type : U16) : Bool := type &&& 0x0110 = 0

/-- `IsTurnChannelData`. -/
def isTurnChannelData (type : Nat) : Bool := BitVec.ofNat 16 type &&& 0xC000 = 0x4000

/-- `InitResponse`. -/
def initResponse (req resp : StunMessage) : StunMessage :=
  if isStunRequestType req.type then
    let resp := resp.setType (req.type ||| 0x100)
    (resp.setTransactionID req.transactionId).getD resp
  else resp

/-- `InitErrorResponse`. -/
def initErrorResponse (req : StunMessage) (e : StunError) (resp : StunMessage) : StunMessage :=
  if isStunRequestType req.type then
    let resp := resp.setType (req.type ||| 0x110)
    let resp := (resp.setTransactionID req.transactionId).getD resp
    resp.withAttribute stunAttrErrorCode (.ofCode e.code (bytesOf e.reason))
  else resp

/-- What the server sends: a STUN message or channel data to a client, and data to a peer from the
socket of an allocation. -/
inductive TurnOutput where
  | stun (dst : SocketAddress) (msg : StunMessage)
  | channelData (dst : SocketAddress) (bytes : List U8)
  | relay (src peer : SocketAddress) (data : List U8)
  deriving DecidableEq

/-! ## Permissions and channels -/

/-- `Permission`, with the time its `MSG_TIMEOUT` is due at. -/
structure Permission where
  id : Nat
  peer : IPAddress
  timeout : U32
  deriving DecidableEq

/-- `TurnServer::Channel`. -/
structure TurnChannel where
  uid : Nat
  id : Nat
  peer : SocketAddress
  timeout : U32
  deriving DecidableEq

/-- `Allocation`. `client` is the source of `conn_` and `relayed` the address of the external
socket; `timeouts` are its pending messages. `perms` is `perms_`, and `permissions` are the objects
that exist. -/
structure Allocation where
  client : SocketAddress
  relayed : SocketAddress
  key : List U8
  transactionId : List U8
  username : List U8
  timeouts : List U32
  perms : List Nat
  permissions : List Permission
  channels : List TurnChannel
  nextId : Nat
  deriving DecidableEq

/-- The server without its allocations. -/
structure TurnConfig where
  nonceKey : List U8
  realm : List U8
  software : List U8
  deriving DecidableEq

/-- `TurnServer::SendStun`. -/
def TurnConfig.sendStun (cfg : TurnConfig) (dst : SocketAddress) (msg : StunMessage) : TurnOutput :=
  .stun dst (if cfg.software ≠ [] then
    msg.withAttribute stunAttrSoftware (.byteString cfg.software) else msg)

/-- `TurnServer::SendErrorResponse`. -/
def TurnConfig.sendErrorResponse (cfg : TurnConfig) (dst : SocketAddress) (req : StunMessage)
    (e : StunError) : TurnOutput :=
  cfg.sendStun dst (initErrorResponse req e (StunMessage.new .turn))

namespace Allocation

/-- `FindPermission` on the pointers of a list. -/
def findPermissionIn (permissions : List Permission) (addr : IPAddress) :
    List Nat → Option (Option Permission)
  | [] => some none
  | p :: rest =>
    match permissions.find? fun o => o.id = p with
    | none => none
    | some o => if o.peer = addr then some (some o) else findPermissionIn permissions addr rest

/-- `FindPermission`, which follows the pointers of `perms_`. -/
def findPermission (a : Allocation) (addr : IPAddress) : Option (Option Permission) :=
  findPermissionIn a.permissions addr a.perms

/-- `HasPermission`. -/
def hasPermission (a : Allocation) (addr : IPAddress) : Option Bool :=
  (a.findPermission addr).map Option.isSome

/-- `AddPermission`: a new one, or one refreshed. -/
def addPermission (a : Allocation) (now : U32) (addr : IPAddress) : Option Allocation :=
  (a.findPermission addr).map fun perm =>
    match perm with
    | none => { a with
        perms := a.perms ++ [a.nextId]
        permissions := a.permissions ++ [⟨a.nextId, addr, now + kPermissionTimeout⟩]
        nextId := a.nextId + 1 }
    | some perm => { a with
        permissions := a.permissions.map fun o =>
          if o.id = perm.id then { o with timeout := now + kPermissionTimeout } else o }

/-- `FindChannel` by number. -/
def findChannelId (a : Allocation) (id : Nat) : Option TurnChannel :=
  a.channels.find? fun c => c.id = id

/-- `FindChannel` by address. -/
def findChannelPeer (a : Allocation) (addr : SocketAddress) : Option TurnChannel :=
  a.channels.find? fun c => c.peer = addr

/-- `ComputeLifetime`, in seconds. -/
def computeLifetime (msg : StunMessage) : U32 :=
  match msg.getUInt32 stunAttrLifetime with
  | some value => if value < kDefaultAllocationLifetime then value else kDefaultAllocationLifetime
  | none => kDefaultAllocationLifetime

variable (hmac : List U8 → List U8 → Digest) (cfg : TurnConfig)

/-- `SendResponse`. -/
def sendResponse (a : Allocation) (msg : StunMessage) : TurnOutput :=
  cfg.sendStun a.client (msg.withMessageIntegrity hmac a.key)

/-- `SendBadRequestResponse`. -/
def sendBadRequestResponse (a : Allocation) (req : StunMessage) : TurnOutput :=
  cfg.sendErrorResponse a.client req stunErrorBadRequest

/-- `HandleAllocateRequest`. -/
def handleAllocateRequest (a : Allocation) (now : U32) (msg : StunMessage) :
    Option (Allocation × List TurnOutput) :=
  -- Copy the important info from the allocate request.
  match msg.getByteString stunAttrUsername with
  | none => none
  | some username =>
    let lifetime := computeLifetime msg
    let a := { a with
      transactionId := msg.transactionId
      username := username
      timeouts := a.timeouts ++ [now + lifetime * 1000] }
    let response := initResponse msg (StunMessage.new .turn)
    let response := response.withAttribute stunAttrXorMappedAddress (.xorAddress a.client)
    let response := response.withAttribute stunAttrXorRelayedAddress (.xorAddress a.relayed)
    let response := response.withAttribute stunAttrLifetime (.uint32 lifetime)
    some (a, [a.sendResponse hmac cfg response])

/-- `HandleRefreshRequest`. -/
def handleRefreshRequest (a : Allocation) (now : U32) (msg : StunMessage) :
    Allocation × List TurnOutput :=
  let lifetime := computeLifetime msg
  -- Reset the expiration timer.
  let a := { a with timeouts := [now + lifetime * 1000] }
  let response := (initResponse msg (StunMessage.new .turn)).withAttribute stunAttrLifetime
    (.uint32 lifetime)
  (a, [a.sendResponse hmac cfg response])

/-- `HandleSendIndication`. -/
def handleSendIndication (a : Allocation) (msg : StunMessage) : Option (List TurnOutput) :=
  match msg.getByteString stunAttrData, msg.getAddress stunAttrXorPeerAddress with
  | some data, some peer =>
    -- If a permission exists, send the data on to the peer.
    (a.hasPermission peer.ip).map fun permitted =>
      if permitted then [.relay a.relayed peer data] else []
  | _, _ => some []

/-- `HandleCreatePermissionRequest`. -/
def handleCreatePermissionRequest (a : Allocation) (now : U32) (msg : StunMessage) :
    Option (Allocation × List TurnOutput) :=
  match msg.getAddress stunAttrXorPeerAddress with
  | none => some (a, [a.sendBadRequestResponse cfg msg])
  | some peer => (a.addPermission now peer.ip).map fun a =>
      (a, [a.sendResponse hmac cfg (initResponse msg (StunMessage.new .turn))])

/-- `HandleChannelBindRequest`: the channel is added or refreshed. -/
def bindChannel (a : Allocation) (now : U32) (id : Nat) (peer : SocketAddress) : Allocation :=
  match a.findChannelId id with
  | none => { a with
      channels := a.channels ++ [⟨a.nextId, id, peer, now + kChannelTimeout⟩]
      nextId := a.nextId + 1 }
  | some channel => { a with
      channels := a.channels.map fun c =>
        if c.uid = channel.uid then { c with timeout := now + kChannelTimeout } else c }

/-- `HandleChannelBindRequest`. -/
def handleChannelBindRequest (a : Allocation) (now : U32) (msg : StunMessage) :
    Option (Allocation × List TurnOutput) :=
  match msg.getUInt32 stunAttrChannelNumber, msg.getAddress stunAttrXorPeerAddress with
  | some number, some peer =>
    let id := (number >>> 16).toNat
    if id < kMinChannelNumber ∨ id > kMaxChannelNumber then
      some (a, [a.sendBadRequestResponse cfg msg])
    -- Check that this channel id isn't bound to another transport address, and that this transport
    -- address isn't bound to another channel id.
    else if (a.findChannelId id).map TurnChannel.uid ≠
        (a.findChannelPeer peer).map TurnChannel.uid then
      some (a, [a.sendBadRequestResponse cfg msg])
    else
      -- Channel binds also refresh permissions.
      ((a.bindChannel now id peer).addPermission now peer.ip).map fun a =>
        (a, [a.sendResponse hmac cfg (initResponse msg (StunMessage.new .turn))])
  | _, _ => some (a, [a.sendBadRequestResponse cfg msg])

/-- `HandleTurnMessage`: an authorized message. -/
def handleTurnMessage (a : Allocation) (now : U32) (msg : StunMessage) :
    Option (Allocation × List TurnOutput) :=
  if msg.type = stunAllocateRequest then a.handleAllocateRequest hmac cfg now msg
  else if msg.type = turnRefreshRequest then some (a.handleRefreshRequest hmac cfg now msg)
  else if msg.type = turnSendIndication then
    (a.handleSendIndication msg).map fun out => (a, out)
  else if msg.type = turnCreatePermissionRequest then
    a.handleCreatePermissionRequest hmac cfg now msg
  else if msg.type = turnChannelBindRequest then a.handleChannelBindRequest hmac cfg now msg
  else some (a, [])

/-- `HandleChannelData`. -/
def handleChannelData (a : Allocation) (data : List U8) : List TurnOutput :=
  match a.findChannelId (ofBE (data.take 2)) with
  | some channel => [.relay a.relayed channel.peer (data.drop turnChannelHeaderSize)]
  | none => []

/-- `OnExternalPacket`, with the transaction id of the indication it may send. -/
def onExternalPacket (a : Allocation) (data : List U8) (addr : SocketAddress)
    (transactionId : List U8) : Option (List TurnOutput) :=
  match a.findChannelPeer addr with
  | some channel =>
    -- There is a channel bound to this address. Send as a channel message.
    some [.channelData a.client (writeUInt16 (BitVec.ofNat 16 channel.id) ++
      writeUInt16 (BitVec.ofNat 16 data.length) ++ data)]
  | none => (a.hasPermission addr.ip).map fun permitted =>
      if permitted then
        -- No channel, but a permission exists. Send as a data indication.
        let msg := (StunMessage.new .turn).setType turnDataIndication
        let msg := (msg.setTransactionID transactionId).getD msg
        let msg := msg.withAttribute stunAttrXorPeerAddress (.xorAddress addr)
        [cfg.sendStun a.client (msg.withAttribute stunAttrData (.byteString data))]
      else []

/-- `Permission::OnMessage`: no slot is connected to `SignalDestroyed`, the object is deleted. -/
def onPermissionTimeout (a : Allocation) (id : Nat) : Allocation :=
  { a with permissions := a.permissions.filter fun o => o.id ≠ id }

/-- `Channel::OnMessage` and `OnChannelDestroyed`. -/
def onChannelTimeout (a : Allocation) (uid : Nat) : Allocation :=
  { a with channels := a.channels.filter fun c => c.uid ≠ uid }

end Allocation

/-! ## Nonces -/

/-- `hex_decode` of a character. -/
def hexDecodeChar (ch : U8) : Option Nat :=
  if 0x30 ≤ ch ∧ ch ≤ 0x39 then some (ch.toNat - 0x30)
  else if 0x41 ≤ ch ∧ ch ≤ 0x5A then some (ch.toNat - 0x41 + 10)
  else if 0x61 ≤ ch ∧ ch ≤ 0x7A then some (ch.toNat - 0x61 + 10)
  else none

/-- `hex_decode`; `none` when it returns 0 on an error. -/
def hexDecode : List U8 → Option (List U8)
  | [] => some []
  | [_] => none
  | h :: l :: rest => do
    let h ← hexDecodeChar h
    let l ← hexDecodeChar l
    let rest ← hexDecode rest
    return BitVec.ofNat 8 (h <<< 4 ||| l) :: rest

/-- `hex_encode` of a digit. -/
def hexEncodeDigit (n : Nat) : U8 := BitVec.ofNat 8 (if n < 10 then 0x30 + n else 0x61 + (n - 10))

/-- `hex_encode`. -/
def hexEncode (bytes : List U8) : List U8 :=
  bytes.flatMap fun b => [hexEncodeDigit (b.toNat / 16), hexEncodeDigit (b.toNat % 16)]

/-- The bytes of an `uint32` in memory. -/
def uint32Bytes (n : U32) : List U8 := (writeUInt32 n).reverse

/-! ## The server -/

/-- `TurnServer`, by its allocations. -/
structure TurnServer where
  cfg : TurnConfig
  allocations : List Allocation
  deriving DecidableEq

/-- What can happen to a server: a packet from a client, with the bytes behind it in memory and the
external socket a new allocation would get; a packet from a peer to the socket of an allocation;
and a timer of a permission, of a channel and of an allocation. -/
inductive TurnEvent where
  | internal (now : U32) (src : SocketAddress) (data : List U8) (mem : Nat → U8)
    (socket : Option SocketAddress)
  | external (client : SocketAddress) (data : List U8) (addr : SocketAddress)
    (transactionId : List U8)
  | permissionTimeout (now : U32) (client : SocketAddress) (id : Nat)
  | channelTimeout (now : U32) (client : SocketAddress) (uid : Nat)
  | allocationTimeout (now : U32) (client : SocketAddress)

namespace TurnServer

variable (hmac : List U8 → List U8 → Digest) (hmacMd5 : List U8 → List U8 → List U8)
  (authKey : List U8 → List U8 → List U8)

/-- `GenerateNonce`. `hmacMd5` is `ComputeHmac` with its digest in hexadecimal. -/
def generateNonce (cfg : TurnConfig) (now : U32) : List U8 :=
  hexEncode (uint32Bytes now) ++ hmacMd5 cfg.nonceKey (uint32Bytes now)

/-- `ValidateNonce`. -/
def validateNonce (cfg : TurnConfig) (now : U32) (nonce : List U8) : Bool :=
  if nonce.length ≠ kNonceSize then false
  -- Decode the timestamp.
  else match hexDecode (nonce.take 8) with
  | none => false
  | some bytes =>
    if nonce.drop 8 ≠ hmacMd5 cfg.nonceKey bytes then false
    else timeDiff now (BitVec.ofNat 32 (ofBE bytes.reverse)) < kNonceTimeout

/-- `SendErrorResponseWithRealmAndNonce`. -/
def sendErrorResponseWithRealmAndNonce (cfg : TurnConfig) (now : U32) (dst : SocketAddress)
    (req : StunMessage) (e : StunError) : TurnOutput :=
  let resp := initErrorResponse req e (StunMessage.new .turn)
  let resp := resp.withAttribute stunAttrNonce (.byteString (generateNonce hmacMd5 cfg now))
  cfg.sendStun dst (resp.withAttribute stunAttrRealm (.byteString cfg.realm))

/-- `CheckAuthorization`: `ok` when it returns `true`, else the error it has sent. -/
def checkAuthorization (cfg : TurnConfig) (now : U32) (dst : SocketAddress) (msg : StunMessage)
    (data : List U8) (mem : Nat → U8) (key : List U8) : Except TurnOutput Unit :=
  -- Fail if no M-I.
  if msg.getByteString stunAttrMessageIntegrity = none then
    .error (sendErrorResponseWithRealmAndNonce hmacMd5 cfg now dst msg stunErrorUnauthorized)
  -- Fail if there is M-I but no username, nonce, or realm.
  else if msg.getByteString stunAttrUsername = none ∨ msg.getByteString stunAttrRealm = none ∨
      msg.getByteString stunAttrNonce = none then
    .error (cfg.sendErrorResponse dst msg stunErrorBadRequest)
  -- Fail if bad nonce.
  else if ¬ validateNonce hmacMd5 cfg now ((msg.getByteString stunAttrNonce).getD []) then
    .error (sendErrorResponseWithRealmAndNonce hmacMd5 cfg now dst msg stunErrorStaleNonce)
  -- Fail if bad username or M-I.
  else if key = [] ∨ ¬ validateMessageIntegrity hmac (view data mem) data.length key then
    .error (sendErrorResponseWithRealmAndNonce hmacMd5 cfg now dst msg stunErrorUnauthorized)
  else .ok ()

/-- `HandleBindingRequest`. -/
def handleBindingRequest (cfg : TurnConfig) (dst : SocketAddress) (req : StunMessage) :
    TurnOutput :=
  -- Tell the user the address that we received their request from.
  cfg.sendStun dst ((initResponse req (StunMessage.new .stun)).withAttribute
    stunAttrXorMappedAddress (.xorAddress dst))

/-- `FindAllocation`. -/
def findAllocation (s : TurnServer) (client : SocketAddress) : Option Allocation :=
  s.allocations.find? fun a => a.client = client

/-- The allocation of a client changes. -/
def setAllocation (s : TurnServer) (client : SocketAddress) (a : Allocation) : TurnServer :=
  { s with allocations := s.allocations.map fun b => if b.client = client then a else b }

/-- `GetKey`, and the key it has stored. -/
def getKey (cfg : TurnConfig) (msg : StunMessage) : List U8 :=
  match msg.getByteString stunAttrUsername with
  | none => []
  | some username => authKey username cfg.realm

/-- `HandleAllocateRequest`, with `CreateAllocation`. -/
def handleAllocateRequest (s : TurnServer) (now : U32) (src : SocketAddress) (msg : StunMessage)
    (key : List U8) (socket : Option SocketAddress) : Option (TurnServer × List TurnOutput) :=
  match msg.getUInt32 stunAttrRequestedTransport with
  | none => some (s, [s.cfg.sendErrorResponse src msg stunErrorBadRequest])
  | some transport =>
    -- Only UDP is supported right now.
    if transport >>> 24 ≠ ipprotoUdp then
      some (s, [s.cfg.sendErrorResponse src msg stunErrorUnsupportedProtocol])
    else match socket with
    | none => some (s, [s.cfg.sendErrorResponse src msg stunErrorNoSocket])
    | some relayed =>
      (Allocation.handleTurnMessage hmac s.cfg ⟨src, relayed, key, [], [], [], [], [], [], 0⟩
        now msg).map fun (a, out) => ({ s with allocations := s.allocations ++ [a] }, out)

/-- `HandleStunMessage` of a request or another message, when its authorization is checked. -/
def handleAuthorized (s : TurnServer) (now : U32) (src : SocketAddress) (msg : StunMessage)
    (key : List U8) (socket : Option SocketAddress) : Option (TurnServer × List TurnOutput) :=
  match s.findAllocation src with
  | none =>
    if msg.type = stunAllocateRequest then s.handleAllocateRequest hmac now src msg key socket
    else some (s, [s.cfg.sendErrorResponse src msg stunErrorAllocationMismatch])
  | some a =>
    if msg.type ≠ stunAllocateRequest ∨ msg.transactionId = a.transactionId then
      -- This is a non-allocate request, or a retransmit of an allocate.
      -- Check that the username matches the previous username used.
      if isStunRequestType msg.type ∧ msg.getByteString stunAttrUsername ≠ some a.username then
        some (s, [s.cfg.sendErrorResponse src msg stunErrorWrongCredentials])
      else (a.handleTurnMessage hmac s.cfg now msg).map fun (a, out) => (s.setAllocation src a, out)
    else some (s, [s.cfg.sendErrorResponse src msg stunErrorAllocationMismatch])

/-- The key that a message is checked with: the one of the allocation, else the one of the user. -/
def keyFor (s : TurnServer) (src : SocketAddress) (msg : StunMessage) : List U8 :=
  match s.findAllocation src with
  | some a => a.key
  | none => getKey authKey s.cfg msg

/-- `HandleStunMessage`: dispatch and authorization. -/
def handleStunMessage (s : TurnServer) (now : U32) (src : SocketAddress) (data : List U8)
    (mem : Nat → U8) (socket : Option SocketAddress) : Option (TurnServer × List TurnOutput) :=
  match (StunMessage.new .turn).read data with
  | none => some (s, [])
  | some msg =>
    -- If it's a STUN binding request, handle that specially.
    if msg.type = stunBindingRequest then some (s, [handleBindingRequest s.cfg src msg])
    else
      let key := s.keyFor authKey src msg
      -- Ensure the message is authorized; only needed for requests.
      if isStunRequestType msg.type then
        match checkAuthorization hmac hmacMd5 s.cfg now src msg data mem key with
        | .error out => some (s, [out])
        | .ok _ => s.handleAuthorized hmac now src msg key socket
      else s.handleAuthorized hmac now src msg key socket

/-- `OnInternalPacket`. -/
def onInternalPacket (s : TurnServer) (now : U32) (src : SocketAddress) (data : List U8)
    (mem : Nat → U8) (socket : Option SocketAddress) : Option (TurnServer × List TurnOutput) :=
  -- Fail if the packet is too small to even contain a channel header.
  if data.length < turnChannelHeaderSize then some (s, [])
  else if ¬ isTurnChannelData (ofBE (data.take 2)) then
    s.handleStunMessage hmac hmacMd5 authKey now src data mem socket
  else match s.findAllocation src with
    | some a => some (s, a.handleChannelData data)
    | none => some (s, [])

/-- `TimeDiff(now, timeout) >= 0`. -/
def due (now timeout : U32) : Bool := timeDiff now timeout ≥ 0

/-- `Allocation::OnMessage`: the allocation is unlinked, and its destructor deletes what `perms_`
points to. -/
def onAllocationTimeout (s : TurnServer) (a : Allocation) : Option TurnServer :=
  if a.perms.all fun p => a.permissions.any fun o => o.id = p then
    some { s with allocations := s.allocations.filter fun b => b.client ≠ a.client }
  else none

/-- One event. A timer that is not due, or whose object is gone, does not fire. -/
def step (s : TurnServer) : TurnEvent → Option (TurnServer × List TurnOutput)
  | .internal now src data mem socket =>
    s.onInternalPacket hmac hmacMd5 authKey now src data mem socket
  | .external client data addr transactionId =>
    match s.findAllocation client with
    | none => some (s, [])
    | some a => (a.onExternalPacket s.cfg data addr transactionId).map fun out => (s, out)
  | .permissionTimeout now client id =>
    match s.findAllocation client with
    | none => some (s, [])
    | some a =>
      if a.permissions.any fun o => o.id = id ∧ due now o.timeout then
        some (s.setAllocation client (a.onPermissionTimeout id), [])
      else some (s, [])
  | .channelTimeout now client uid =>
    match s.findAllocation client with
    | none => some (s, [])
    | some a =>
      if a.channels.any fun c => c.uid = uid ∧ due now c.timeout then
        some (s.setAllocation client (a.onChannelTimeout uid), [])
      else some (s, [])
  | .allocationTimeout now client =>
    match s.findAllocation client with
    | none => some (s, [])
    | some a =>
      if a.timeouts.any fun t => due now t then
        (s.onAllocationTimeout a).map fun s => (s, [])
      else some (s, [])

end TurnServer

end Libjingle
