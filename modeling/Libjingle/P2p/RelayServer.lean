import Mathlib.Data.List.AList
import Libjingle.P2p.TurnServer

/-!
# The relay server (`p2p/base/relayserver.h`, `relayserver.cc`)

A server with one external socket. Internal clients allocate a binding by its username; peers
become external connections of a binding with their first packet, or when a client sends to them.
The two maps hold pointers, written as the `uid` of the object. A binding owns its connections, so
the objects are in its two lists.

A function that follows a pointer to no object, takes the first of no internal connections or
erases what is not in a map has no result, `none`.
-/

namespace Libjingle

open Lib ByteBuffer StunMessage

/-! ## Constants -/

def maxLifetime : U32 := 15 * 60 * 1000
def usernameLength : Nat := 16
def turnMagicCookieValue : List U8 := [0x72, 0xC6, 0x4B, 0xC6]

def stunAllocateResponse : U16 := 0x0103
def stunSendRequest : U16 := 0x0004
def stunSendResponse : U16 := 0x0104
def stunDataIndication : U16 := 0x0115

def stunAttrMagicCookie : U16 := 0x000f
def stunAttrDestinationAddress : U16 := 0x0011
def stunAttrSourceAddress2 : U16 := 0x0012
def stunAttrOptions : U16 := 0x8001

/-! ## Data -/

/-- `SocketAddressPair`, the key of `connections_`. -/
structure SocketAddressPair where
  source : SocketAddress
  destination : SocketAddress
  deriving DecidableEq

/-- `AsyncPacketSocket`, with what `GetLocalAddress` returns. -/
structure PacketSocket where
  id : Nat
  localAddress : SocketAddress
  deriving DecidableEq

/-- `RelayServerConnection`. -/
structure RelayServerConnection where
  uid : Nat
  binding : Nat
  addrPair : SocketAddressPair
  socket : PacketSocket
  locked : Bool
  defaultDest : SocketAddress
  deriving DecidableEq

/-- `RelayServerBinding`. `timer` says that `MSG_LIFETIME_TIMER` is posted, `disposed` that the
binding is to be deleted. -/
structure RelayServerBinding where
  uid : Nat
  username : List U8
  lifetime : U32
  lastUsed : U32
  internalConnections : List RelayServerConnection
  externalConnections : List RelayServerConnection
  timer : Bool
  disposed : Bool
  deriving DecidableEq

/-- `RelayServer`; `objects` are the bindings that exist. -/
structure RelayServer where
  externalSocket : PacketSocket
  bindings : AList fun _ : List U8 => Nat
  connections : AList fun _ : SocketAddressPair => Nat
  objects : List RelayServerBinding
  nextUid : Nat

/-- A packet that the server sends. -/
structure RelayOutput where
  socket : PacketSocket
  dst : SocketAddress
  packet : StunMessage ⊕ List U8
  deriving DecidableEq

/-! ## Messages -/

/-- A `RelayMessage` with a type and the magic cookie. -/
def relayMessage (type : U16) (magicCookie : List U8) : StunMessage :=
  ((StunMessage.new .relay).setType type).withAttribute stunAttrMagicCookie
    (.byteString magicCookie)

/-- `SetTransactionID`, which a read message's id always passes. -/
def answering (request msg : StunMessage) : StunMessage :=
  (msg.setTransactionID request.transactionId).getD msg

/-- `SendStunError`. The type of a message that is not a request is answered with `-1`. -/
def sendStunError (msg : StunMessage) (socket : PacketSocket) (remoteAddr : SocketAddress)
    (errorCode : Nat) (errorDesc : String) (magicCookie : List U8) : RelayOutput :=
  let type := if isStunRequestType msg.type then msg.type ||| 0x110 else 0xFFFF
  let cookie := if magicCookie.length = 0 then turnMagicCookieValue else magicCookie
  ⟨socket, remoteAddr, .inl ((answering msg (relayMessage type cookie)).withAttribute
    stunAttrErrorCode (.ofCode errorCode (bytesOf errorDesc)))⟩

namespace RelayServerConnection

/-- `RelayServerConnection::Send`. -/
def send (c : RelayServerConnection) (data : List U8) : RelayOutput :=
  ⟨c.socket, c.addrPair.source, .inr data⟩

/-- `SendStun`. -/
def sendStun (c : RelayServerConnection) (msg : StunMessage) : RelayOutput :=
  ⟨c.socket, c.addrPair.source, .inl msg⟩

/-- `SendStunError` of a connection. -/
def sendStunError (c : RelayServerConnection) (request : StunMessage) (errorCode : Nat)
    (errorDesc : String) : RelayOutput :=
  Libjingle.sendStunError request c.socket c.addrPair.source errorCode errorDesc
    turnMagicCookieValue

/-- `Send` with an address: wrapped, unless the client knows where it comes from. -/
def sendFrom (c : RelayServerConnection) (data : List U8) (fromAddr : SocketAddress) :
    RelayOutput :=
  if c.locked ∧ fromAddr = c.defaultDest then c.send data
  else
    let msg := relayMessage stunDataIndication turnMagicCookieValue
    let msg := msg.withAttribute stunAttrSourceAddress2 (.address fromAddr)
    c.sendStun (msg.withAttribute stunAttrData (.byteString (data.take (data.length % 2 ^ 16))))

end RelayServerConnection

namespace RelayServerBinding

/-- The connections of a binding, in the order its destructor deletes them. -/
def connections (b : RelayServerBinding) : List RelayServerConnection :=
  b.internalConnections ++ b.externalConnections

/-- `HasMagicCookie`. -/
def hasMagicCookie (bytes : List U8) : Bool :=
  24 + turnMagicCookieValue.length ≤ bytes.length ∧
    (bytes.drop 24).take turnMagicCookieValue.length = turnMagicCookieValue

/-- `GetInternalConnection`: locked to the address, else the first. -/
def getInternalConnection (b : RelayServerBinding) (extAddr : SocketAddress) :
    Option RelayServerConnection :=
  match b.internalConnections.find? fun c => c.locked ∧ extAddr = c.defaultDest with
  | some c => some c
  | none => b.internalConnections.head?

/-- `GetExternalConnection`. -/
def getExternalConnection (b : RelayServerBinding) (extAddr : SocketAddress) :
    Option RelayServerConnection :=
  b.externalConnections.find? fun c => extAddr = c.addrPair.source

end RelayServerBinding

namespace RelayServer

/-! ## Objects -/

/-- The binding behind a pointer. -/
def binding (s : RelayServer) (uid : Nat) : Option RelayServerBinding :=
  s.objects.find? fun b => b.uid = uid

/-- The connection a pointer is to. -/
def connection (s : RelayServer) (uid : Nat) : Option RelayServerConnection :=
  (s.objects.flatMap RelayServerBinding.connections).find? fun c => c.uid = uid

/-- A change to the binding behind a pointer. -/
def updateBinding (s : RelayServer) (uid : Nat) (f : RelayServerBinding → RelayServerBinding) :
    RelayServer :=
  { s with objects := s.objects.map fun b => if b.uid = uid then f b else b }

/-- A change to the connection behind a pointer. -/
def updateConnection (s : RelayServer) (uid : Nat)
    (f : RelayServerConnection → RelayServerConnection) : RelayServer :=
  let g c := if c.uid = uid then f c else c
  { s with objects := s.objects.map fun b => { b with
      internalConnections := b.internalConnections.map g
      externalConnections := b.externalConnections.map g } }

/-- `NoteUsed`. -/
def noteUsed (s : RelayServer) (uid : Nat) (now : U32) : RelayServer :=
  s.updateBinding uid fun b => { b with lastUsed := now }

/-- `Lock`. -/
def lock (s : RelayServer) (uid : Nat) : RelayServer :=
  s.updateConnection uid fun c => { c with locked := true }

/-- `set_default_destination`. -/
def setDefaultDestination (s : RelayServer) (uid : Nat) (addr : SocketAddress) : RelayServer :=
  s.updateConnection uid fun c => { c with defaultDest := addr }

/-! ## Connections and bindings -/

/-- A new connection: unlocked, and a use of its binding. -/
def newConnection (s : RelayServer) (binding : Nat) (ap : SocketAddressPair)
    (socket : PacketSocket) : RelayServerConnection :=
  ⟨s.nextUid, binding, ap, socket, false, ⟨.unspec, 0⟩⟩

/-- `AddConnection`: the map gets a connection. -/
def addConnection (s : RelayServer) (c : RelayServerConnection) : RelayServer :=
  { s with connections := s.connections.insert c.addrPair c.uid, nextUid := s.nextUid + 1 }

/-- `new RelayServerConnection`, `AddInternalConnection` and `AddConnection`. -/
def newInternalConnection (s : RelayServer) (now : U32) (c : RelayServerConnection) :
    RelayServer :=
  ((s.noteUsed c.binding now).updateBinding c.binding fun b =>
    { b with internalConnections := b.internalConnections ++ [c] }).addConnection c

/-- `new RelayServerConnection`, `AddExternalConnection` and `AddConnection`. -/
def newExternalConnection (s : RelayServer) (now : U32) (c : RelayServerConnection) :
    RelayServer :=
  ((s.noteUsed c.binding now).updateBinding c.binding fun b =>
    { b with externalConnections := b.externalConnections ++ [c] }).addConnection c

/-- `RemoveConnection`: the map must have it. -/
def removeConnection (s : RelayServer) (c : RelayServerConnection) : Option RelayServer :=
  if c.addrPair ∈ s.connections then
    some { s with connections := s.connections.erase c.addrPair }
  else none

/-- The destructors of the connections of a binding. -/
def removeConnections (s : RelayServer) : List RelayServerConnection → Option RelayServer
  | [] => some s
  | c :: cs => (s.removeConnection c).bind fun s => s.removeConnections cs

/-- `RemoveBinding`: the map must have it. -/
def removeBinding (s : RelayServer) (b : RelayServerBinding) : Option RelayServer :=
  if b.username ∈ s.bindings then some { s with bindings := s.bindings.erase b.username }
  else none

/-- The destructor of `RelayServerBinding`. -/
def deleteBinding (s : RelayServer) (b : RelayServerBinding) : Option RelayServer := do
  let s ← s.removeConnections b.connections
  let s ← s.removeBinding b
  some { s with objects := s.objects.filter fun b' => b'.uid ≠ b.uid }

/-- A new binding, with its first timeout check. -/
def newBinding (s : RelayServer) (now : U32) (username : List U8) (lifetime : U32) : RelayServer :=
  let b : RelayServerBinding := ⟨s.nextUid, username, lifetime, now, [], [], true, false⟩
  { s with
    bindings := s.bindings.insert username b.uid
    objects := s.objects ++ [b]
    nextUid := s.nextUid + 1 }

/-! ## Packets of clients -/

/-- `HandleStun`: the message and its username, or what is sent instead. -/
def parseStun (bytes : List U8) (remoteAddr : SocketAddress) (socket : PacketSocket) :
    Except (List RelayOutput) (List U8 × StunMessage) :=
  match (StunMessage.new .relay).read bytes with
  | none => .error []
  | some msg =>
    match msg.getByteString stunAttrUsername with
    | none => .error [sendStunError msg socket remoteAddr 432 "Missing Username" []]
    | some username => .ok (username, msg)

/-- `HandleStunAllocate` of a connection: the response. -/
def handleStunAllocate (s : RelayServer) (now : U32) (c : RelayServerConnection)
    (b : RelayServerBinding) (request : StunMessage) : RelayServer × List RelayOutput :=
  let msg := answering request (relayMessage stunAllocateResponse turnMagicCookieValue)
  let msg := msg.withAttribute stunAttrMappedAddress (.address s.externalSocket.localAddress)
  let msg := msg.withAttribute stunAttrLifetime (.uint32 (b.lifetime / 1000))
  (s.noteUsed b.uid now, [c.sendStun msg])

/-- The lifetime a request asks for, within its bounds. -/
def bindingLifetime (request : StunMessage) : U32 :=
  match request.getUInt32 stunAttrLifetime with
  | some lifetime => umin maxLifetime (lifetime * 1000)
  | none => maxLifetime

/-- The binding for a username is found or created. -/
def findOrCreateBinding (s : RelayServer) (now : U32) (username : List U8)
    (request : StunMessage) : RelayServer × Nat :=
  match s.bindings.lookup username with
  | some b => (s, b)
  | none => (s.newBinding now username (bindingLifetime request), s.nextUid)

/-- `HandleStunAllocate` of a packet that came on no connection. -/
def handleStunAllocatePacket (s : RelayServer) (now : U32) (bytes : List U8)
    (ap : SocketAddressPair) (socket : PacketSocket) : Option (RelayServer × List RelayOutput) :=
  match parseStun bytes ap.source socket with
  | .error out => some (s, out)
  | .ok (username, request) =>
    if request.type ≠ stunAllocateRequest then
      some (s, [sendStunError request socket ap.source 600 "Operation Not Supported" []])
    else do
      let (s, uid) := s.findOrCreateBinding now username request
      let c := s.newConnection uid ap socket
      let s := s.newInternalConnection now c
      let b ← s.binding uid
      some (s.handleStunAllocate now c b request)

/-- The external connection of a binding to a destination is found or created. -/
def findOrCreateExternal (s : RelayServer) (now : U32) (b : RelayServerBinding)
    (extAddr : SocketAddress) : RelayServer × RelayServerConnection :=
  match b.getExternalConnection extAddr with
  | some e => (s, e)
  | none =>
    let e := s.newConnection b.uid ⟨extAddr, s.externalSocket.localAddress⟩ s.externalSocket
    (s.newExternalConnection now e, e)

/-- `HandleStunSend` behind the checks of its attributes. -/
def sendData (s : RelayServer) (now : U32) (c : RelayServerConnection) (b : RelayServerBinding)
    (request : StunMessage) (extAddr : SocketAddress) (data : List U8) :
    RelayServer × List RelayOutput :=
  let (s, e) := s.findOrCreateExternal now b extAddr
  -- If this connection has pinged us, then allow outgoing traffic.
  let (s, out) := if e.locked then (s.noteUsed e.binding now, [e.send data]) else (s, [])
  if (request.getUInt32 stunAttrOptions).getD 0 &&& 1 ≠ 0 then
    let s := (s.setDefaultDestination c.uid extAddr).lock c.uid
    let msg := answering request (relayMessage stunSendResponse turnMagicCookieValue)
    let msg := msg.withAttribute stunAttrOptions (.uint32 1)
    (s.noteUsed b.uid now, out ++ [c.sendStun msg])
  else (s, out)

/-- `HandleStunSend`. -/
def handleStunSend (s : RelayServer) (now : U32) (c : RelayServerConnection)
    (b : RelayServerBinding) (request : StunMessage) : RelayServer × List RelayOutput :=
  match request.getAddress stunAttrDestinationAddress, request.getByteString stunAttrData with
  | some extAddr, some data => s.sendData now c b request extAddr data
  | _, _ => (s, [c.sendStunError request 400 "Bad Request"])

/-- `HandleStun` of a connection. -/
def handleStun (s : RelayServer) (now : U32) (c : RelayServerConnection) (b : RelayServerBinding)
    (bytes : List U8) : RelayServer × List RelayOutput :=
  match parseStun bytes c.addrPair.source c.socket with
  | .error out => (s, out)
  | .ok (username, request) =>
    if username ≠ b.username then (s, [c.sendStunError request 430 "Stale Credentials"])
    else if request.type = stunSendRequest then s.handleStunSend now c b request
    else if request.type = stunAllocateRequest then s.handleStunAllocate now c b request
    else (s, [c.sendStunError request 600 "Operation Not Supported"])

/-- The packet of a client that is forwarded as it is. -/
def forward (s : RelayServer) (now : U32) (c : RelayServerConnection) (b : RelayServerBinding)
    (bytes : List U8) : RelayServer × List RelayOutput :=
  if c.locked then
    match b.getExternalConnection c.defaultDest with
    | some e => if e.locked then (s.noteUsed e.binding now, [e.send bytes]) else (s, [])
    | none => (s, [])
  else (s, [])

/-- `OnInternalPacket`: a packet of a client. -/
def onInternalPacket (s : RelayServer) (now : U32) (socket : PacketSocket) (bytes : List U8)
    (remoteAddr : SocketAddress) : Option (RelayServer × List RelayOutput) :=
  let ap : SocketAddressPair := ⟨remoteAddr, socket.localAddress⟩
  match s.connections.lookup ap with
  | none => s.handleStunAllocatePacket now bytes ap socket
  | some uid => do
    let c ← s.connection uid
    let b ← s.binding c.binding
    if RelayServerBinding.hasMagicCookie bytes then some (s.handleStun now c b bytes)
    else some (s.forward now c b bytes)

/-! ## Packets of peers -/

/-- The username in a peer's first packet, of which the first bytes name the binding. -/
def peerUsername (bytes : List U8) : Option (List U8) := do
  let msg ← (StunMessage.new .relay).read bytes
  let username ← msg.getByteString stunAttrUsername
  some (username.take usernameLength)

/-- The packet goes to the client of the peer's connection. -/
def deliver (s : RelayServer) (now : U32) (e : RelayServerConnection) (bytes : List U8) :
    Option (RelayServer × List RelayOutput) := do
  let b ← s.binding e.binding
  let c ← b.getInternalConnection e.addrPair.source
  some (s.noteUsed c.binding now, [c.sendFrom bytes e.addrPair.source])

/-- `OnExternalPacket`: a packet of a peer. -/
def onExternalPacket (s : RelayServer) (now : U32) (bytes : List U8)
    (remoteAddr : SocketAddress) : Option (RelayServer × List RelayOutput) :=
  let ap : SocketAddressPair := ⟨remoteAddr, s.externalSocket.localAddress⟩
  match s.connections.lookup ap with
  | some uid => do
    let e ← s.connection uid
    let (s, out) ← s.deliver now e bytes
    some (s.lock e.uid, out)
  | none =>
    match (peerUsername bytes).bind s.bindings.lookup with
    | none => some (s, [])
    | some uid =>
      let e := s.newConnection uid ap s.externalSocket
      ((s.newExternalConnection now e).lock e.uid).deliver now e bytes

/-! ## Timeouts -/

/-- `OnMessage` of a binding, and `OnTimeout`. -/
def onLifetimeTimer (s : RelayServer) (now : U32) (uid : Nat) : RelayServer :=
  s.updateBinding uid fun b =>
    if b.timer ∧ b.lastUsed + b.lifetime ≤ now then { b with timer := false, disposed := true }
    else b

/-- The thread deletes a binding that was disposed of. -/
def dispose (s : RelayServer) (uid : Nat) : Option RelayServer :=
  match s.binding uid with
  | none => some s
  | some b => if b.disposed then s.deleteBinding b else some s

/-! ## Runs -/

/-- What the server is told. -/
inductive Event where
  | internalPacket (now : U32) (socket : PacketSocket) (bytes : List U8)
      (remoteAddr : SocketAddress)
  | externalPacket (now : U32) (bytes : List U8) (remoteAddr : SocketAddress)
  | lifetimeTimer (now : U32) (uid : Nat)
  | dispose (uid : Nat)
  deriving DecidableEq

/-- One event. -/
def step (s : RelayServer) : Event → Option (RelayServer × List RelayOutput)
  | .internalPacket now socket bytes remoteAddr => s.onInternalPacket now socket bytes remoteAddr
  | .externalPacket now bytes remoteAddr => s.onExternalPacket now bytes remoteAddr
  | .lifetimeTimer now uid => some (s.onLifetimeTimer now uid, [])
  | .dispose uid => (s.dispose uid).map fun s => (s, [])

/-- Events one after another. -/
def run (s : RelayServer) : List Event → Option RelayServer
  | [] => some s
  | e :: es => (s.step e).bind fun r => r.1.run es

/-- A server with its external socket. -/
def new (externalSocket : PacketSocket) : RelayServer := ⟨externalSocket, ∅, ∅, [], 0⟩

end RelayServer

end Libjingle
