import Libjingle.P2p.TurnPort
import Libjingle.P2p.TurnChannels

/-!
# Relaying through TURN (`p2p/base/turnport.cc`, `turnserver.cc`)

Data goes from a `TurnEntry` to its peer, and back, in one of two encodings: an indication with a
masked address and a padded data attribute, or a channel header of four bytes. Each end picks the
encoding from its own state, and parses what the other end has written.

`HandleChannelData` of the server does not read the length field that `HandleChannelData` of the
client checks.

## Results

* **`relay_transparent`**: what an entry sends always departs; what its peer sends arrives exactly
  if `Deliverable`; and the server checks a length field exactly where no channel is bound.
-/

namespace Libjingle

open Lib ByteBuffer StunMessage

/-! ## The client -/

def isStunSuccessResponseType (type : U16) : Bool := type &&& 0x0110 = 0x0100

/-- The length field of a channel header. -/
def channelDataLength (data : List U8) : Nat := ofBE ((data.drop 2).take 2)

/-- What becomes of a packet from the server: `DispatchPacket` or `CheckResponse` is called. -/
inductive TurnReceived where
  | dispatched (data : List U8) (addr : SocketAddress)
  | response (data : List U8)
  | dropped
  deriving DecidableEq

namespace TurnPort

/-- `FindEntry` by channel number. -/
def findChannel (p : TurnPort) (channelId : Nat) : Option TurnEntry :=
  p.entries.find? fun e => e.channelId = channelId

def hasPermission (p : TurnPort) (ip : IPAddress) : Bool := p.entries.any fun e => e.extAddr.ip = ip

def handleDataIndication (p : TurnPort) (data : List U8) : TurnReceived :=
  match (StunMessage.new .turn).read data with
  | none => .dropped
  | some msg =>
    -- Check mandatory attributes.
    match msg.getAddress stunAttrXorPeerAddress, msg.getByteString stunAttrData with
    | some extAddr, some bytes =>
      -- Verify that the data came from somewhere we think we have a permission for.
      if p.hasPermission extAddr.ip then .dispatched bytes extAddr else .dropped
    | _, _ => .dropped

def handleChannelData (p : TurnPort) (channelId : Nat) (data : List U8) : TurnReceived :=
  let len := channelDataLength data
  if len ≠ data.length - turnChannelHeaderSize then .dropped
  -- Ensure this is a channel we know about.
  else match p.findChannel channelId with
    | none => .dropped
    | some entry => .dispatched ((data.drop turnChannelHeaderSize).take len) entry.extAddr

/-- `OnReadPacket`, with `hash_` and the bytes behind the packet in memory. -/
def onReadPacket (hmac : List U8 → List U8 → Digest) (hash : List U8) (p : TurnPort)
    (data : List U8) (mem : Nat → U8) : TurnReceived :=
  -- The message must be at least the size of a channel header.
  if data.length < turnChannelHeaderSize then .dropped
  else
    let msgType := ofBE (data.take 2)
    if isTurnChannelData msgType then p.handleChannelData msgType data
    else if msgType = turnDataIndication.toNat then p.handleDataIndication data
    -- This must be a response for one of our requests.
    else if isStunSuccessResponseType (BitVec.ofNat 16 msgType) ∧
        ¬ validateMessageIntegrity hmac (view data mem) data.length hash then .dropped
    else .response data

/-- `TurnEntry::Send`: the bytes for the server; `none` when `Write` returns `false`. -/
def wire (e : TurnEntry) (data transactionId : List U8) : Option (List U8) :=
  match packet e data transactionId with
  | .inl msg => msg.write
  | .inr bytes => some bytes

end TurnPort

/-- What `Send` of the server gives to its socket: a packet for a client. -/
def TurnOutput.toClient : TurnOutput → Option (SocketAddress × List U8)
  | .stun dst msg => msg.write.map fun bytes => (dst, bytes)
  | .channelData dst bytes => some (dst, bytes)
  | .relay .. => none

/-! ## The property -/

/-- An entry and an allocation for its port, which has the permission and, when the entry is bound,
the same channel. -/
structure Relaying (s : TurnServer) (p : TurnPort) (client : SocketAddress) (a : Allocation)
    (e : TurnEntry) : Prop where
  entry : e ∈ p.entries
  family : e.extAddr.family ≠ .undef
  allocation : s.findAllocation client = some a
  permission : a.hasPermission e.extAddr.ip = some true
  binding : e.state = .bound → ∃ c ∈ a.channels, c.id = e.channelId ∧ c.peer = e.extAddr

section

variable (hmac : List U8 → List U8 → Digest) (hmacMd5 : List U8 → List U8 → List U8)
  (authKey : List U8 → List U8 → List U8)

/-- The packet that `Send` makes of the data is sent to the peer of the entry as exactly the
data. -/
def Departs (s : TurnServer) (client : SocketAddress) (a : Allocation) (e : TurnEntry)
    (data transactionId : List U8) : Prop :=
  ∃ bytes, TurnPort.wire e data transactionId = some bytes ∧ ∀ now mem socket,
    s.step hmac hmacMd5 authKey (.internal now client bytes mem socket) =
      some (s, [.relay a.relayed e.extAddr data])

/-- Data from a peer is one packet to the client, for which `DispatchPacket` is called with exactly
the data and the peer. -/
def Arrives (hash : List U8) (s : TurnServer) (p : TurnPort) (client peer : SocketAddress)
    (data transactionId : List U8) : Prop :=
  ∃ out bytes, s.step hmac hmacMd5 authKey (.external client data peer transactionId) =
      some (s, [out]) ∧ out.toClient = some (client, bytes) ∧
    ∀ mem, p.onReadPacket hmac hash bytes mem = .dispatched data peer

/-- Channel data that the server relays says how long it is. -/
def LengthChecked (s : TurnServer) (client : SocketAddress) (data : List U8) : Prop :=
  ∀ now mem socket s' out,
    s.step hmac hmacMd5 authKey (.internal now client data mem socket) = some (s', out) →
    out ≠ [] → channelDataLength data = data.length - turnChannelHeaderSize

end

def IsChannelData (data : List U8) : Prop :=
  turnChannelHeaderSize ≤ data.length ∧ isTurnChannelData (ofBE (data.take 2)) = true

/-- The bytes of the attributes of a data indication. -/
def indicationSize (software : List U8) (peer : SocketAddress) (data : List U8) : Nat :=
  (StunValue.addressLength peer).toNat + 4 + (padded data.length + 4) +
    if software ≠ [] then padded (software.length % 2 ^ 16) + 4 else 0

/-- The port knows the channel that the server has for the peer; if there is none, an indication can
say how long it is. -/
def Deliverable (software : List U8) (p : TurnPort) (a : Allocation) (peer : SocketAddress)
    (data : List U8) : Prop :=
  match a.findChannelPeer peer with
  | some c => (p.findChannel c.id).map TurnEntry.extAddr = some peer
  | none => indicationSize software peer data < 2 ^ 16

/-! ## Indications -/

theorem writeUInt16_length (x : U16) : (writeUInt16 x).length = 2 := toBE_length 2 _

namespace StunMessage

variable {c : MessageClass} {m : StunMessage} {t : U16} {v : StunValue}

theorem Built.withAttribute (h : Built c m) : Built c (m.withAttribute t v) := by
  unfold StunMessage.withAttribute
  cases ha : m.addAttribute ⟨t, v⟩ with
  | none => exact h
  | some m' => exact h.addAttribute _ ha

theorem withAttribute_eq (hv : v.valueType = m.cls.getAttributeValueType t) :
    m.withAttribute t v = { m with
      attrs := m.attrs ++ [⟨t, v⟩]
      length := m.length + BitVec.ofNat 16 (padded v.length.toNat + 4) } := by
  unfold StunMessage.withAttribute
  rw [addAttribute_eq_some (a := ⟨t, v⟩) |>.mpr ⟨hv, rfl⟩]
  rfl

theorem withAttribute_eq_self (hv : v.valueType ≠ m.cls.getAttributeValueType t) :
    m.withAttribute t v = m := by
  unfold StunMessage.withAttribute addAttribute
  rw [if_pos hv]
  rfl

theorem write_type {bytes : List U8} (h : m.write = some bytes) :
    turnChannelHeaderSize ≤ bytes.length ∧ ofBE (bytes.take 2) = m.type.toNat := by
  obtain ⟨body, -, hbytes⟩ := Option.bind_eq_some_iff.mp h
  obtain rfl := Option.some.inj hbytes
  unfold writeHeader
  constructor
  · simp only [List.length_append, writeUInt16_length, turnChannelHeaderSize]
    omega
  · rw [List.append_assoc, List.append_assoc, List.append_assoc,
      List.take_left' (writeUInt16_length _)]
    exact ofBE_toBE m.type.isLt

theorem write_withAttribute_take (t : U16) (bytes : List U8) :
    (m.withAttribute t (.byteString bytes)).write =
      (m.withAttribute t (.byteString (bytes.take (bytes.length % 2 ^ 16)))).write := by
  have hle : bytes.length % 2 ^ 16 ≤ bytes.length := Nat.mod_le _ _
  have hlength : (StunValue.byteString (bytes.take (bytes.length % 2 ^ 16))).length =
      (StunValue.byteString bytes).length := by
    apply BitVec.eq_of_toNat_eq
    simp only [StunValue.length, BitVec.toNat_ofNat, List.length_take, Nat.min_eq_left hle,
      Nat.mod_mod]
  have hwrite : ∀ id, (StunValue.byteString (bytes.take (bytes.length % 2 ^ 16))).write id =
      (StunValue.byteString bytes).write id := by
    intro id
    simp only [StunValue.write, hlength]
    congr 2
    simp only [StunValue.length, BitVec.toNat_ofNat, List.take_take, Nat.min_self]
  have hattrs : ∀ (id : List U8) (l : List StunAttribute),
      writeAttributes id (l ++ [⟨t, .byteString (bytes.take (bytes.length % 2 ^ 16))⟩]) =
        writeAttributes id (l ++ [⟨t, .byteString bytes⟩]) := by
    intro id l
    induction l with
    | nil => simp only [List.nil_append, writeAttributes, hwrite, hlength]
    | cons a l ih => simp only [List.cons_append, writeAttributes, ih]
  by_cases hv : StunAttributeValueType.byteString = m.cls.getAttributeValueType t
  · rw [withAttribute_eq (v := .byteString bytes) hv, withAttribute_eq (v := .byteString _) hv]
    simp only [StunMessage.write, hattrs, hlength]
    rfl
  · rw [withAttribute_eq_self (v := .byteString bytes) hv,
      withAttribute_eq_self (v := .byteString _) hv]

end StunMessage

/-- An indication with data, to the server or from it. -/
def indication (type : U16) (peer : SocketAddress) (data transactionId : List U8) : StunMessage :=
  let msg := (StunMessage.new .turn).setType type
  let msg := (msg.setTransactionID transactionId).getD msg
  let msg := msg.withAttribute stunAttrXorPeerAddress (.xorAddress peer)
  msg.withAttribute stunAttrData (.byteString data)

section

variable {type : U16} {peer : SocketAddress} {data transactionId : List U8}

theorem indication_built (type : U16) (peer : SocketAddress) (data transactionId : List U8) :
    Built .turn (indication type peer data transactionId) := by
  refine Built.withAttribute (Built.withAttribute ?_)
  cases h : ((StunMessage.new .turn).setType type).setTransactionID transactionId with
  | none => exact Built.new.setType type
  | some m' => exact (Built.new.setType type).setTransactionID _ h

@[simp] theorem indication_type : (indication type peer data transactionId).type = type := by
  simp [indication, StunMessage.setType]

theorem indication_transactionId (type : U16) (peer : SocketAddress) (data : List U8)
    (hid : transactionId.length = kStunTransactionIdLength) :
    (indication type peer data transactionId).transactionId = transactionId := by
  simp [indication, setTransactionID, isValidTransactionId, hid]

theorem indication_attrs (type : U16) (peer : SocketAddress) (data transactionId : List U8) :
    (indication type peer data transactionId).attrs =
      [⟨stunAttrXorPeerAddress, .xorAddress peer⟩, ⟨stunAttrData, .byteString data⟩] := by
  unfold indication
  rw [withAttribute_eq, withAttribute_eq]
  · simp only [setTransactionID_attrs]
    rfl
  · rw [setTransactionID_cls]
    rfl
  · rw [withAttribute_cls, setTransactionID_cls]
    rfl

theorem getAddress_of_attrs {m : StunMessage} {more : List StunAttribute}
    (h : m.attrs = ⟨stunAttrXorPeerAddress, .xorAddress peer⟩ ::
      ⟨stunAttrData, .byteString data⟩ :: more) :
    m.getAddress stunAttrXorPeerAddress = some peer ∧ m.getByteString stunAttrData = some data := by
  constructor
  · unfold getAddress getAttribute
    rw [h]
    rfl
  · unfold getByteString getAttribute
    rw [h]
    rfl

end

/-! ## Channel messages -/

/-- A channel message with data, to the server or from it. -/
def channelMessage (id : Nat) (data : List U8) : List U8 :=
  writeUInt16 (BitVec.ofNat 16 id) ++ writeUInt16 (BitVec.ofNat 16 data.length) ++ data

theorem ofBE_writeUInt16 {n : Nat} (h : n < 2 ^ 16) :
    ofBE (writeUInt16 (BitVec.ofNat 16 n)) = n := by
  unfold writeUInt16
  rw [BitVec.toNat_ofNat, Nat.mod_eq_of_lt h]
  exact ofBE_toBE h

section

variable {id : Nat} {data : List U8}

theorem channelMessage_length : (channelMessage id data).length = turnChannelHeaderSize +
    data.length := by
  simp only [channelMessage, List.length_append, writeUInt16_length, turnChannelHeaderSize]

theorem channelMessage_id (h : id < 2 ^ 16) : ofBE ((channelMessage id data).take 2) = id := by
  unfold channelMessage
  rw [List.append_assoc, List.take_left' (writeUInt16_length _)]
  exact ofBE_writeUInt16 h

theorem channelMessage_dataLength (h : data.length < 2 ^ 16) :
    channelDataLength (channelMessage id data) = data.length := by
  unfold channelDataLength channelMessage
  rw [List.append_assoc, List.drop_left' (writeUInt16_length _),
    List.take_left' (writeUInt16_length _)]
  exact ofBE_writeUInt16 h

theorem channelMessage_data : (channelMessage id data).drop turnChannelHeaderSize = data := by
  unfold channelMessage
  exact List.drop_left' (by simp only [List.length_append, writeUInt16_length,
    turnChannelHeaderSize])

theorem isTurnChannelData_of_range (h : kMinChannelNumber ≤ id ∧ id ≤ kMaxChannelNumber) :
    isTurnChannelData id = true := by
  obtain ⟨hmin, hmax⟩ : 0x4000 ≤ id ∧ id ≤ 0x7FFF := h
  unfold isTurnChannelData
  rw [decide_eq_true_eq]
  apply BitVec.eq_of_toNat_eq
  rw [BitVec.toNat_and, BitVec.toNat_ofNat, Nat.mod_eq_of_lt (by omega)]
  have hhigh : (id &&& 0xC000) / 2 ^ 14 = 1 := by
    rw [Nat.and_div_two_pow, show id / 2 ^ 14 = 1 by omega]
    rfl
  have hlow : (id &&& 0xC000) % 2 ^ 14 = 0 := by
    rw [Nat.and_mod_two_pow]
    exact Nat.and_zero _
  have hbits : id &&& 0xC000 = 0x4000 := by omega
  exact hbits

end

/-! ## To the peer -/

namespace TurnServer

variable {hmac : List U8 → List U8 → Digest} {hmacMd5 : List U8 → List U8 → List U8}
  {authKey : List U8 → List U8 → List U8} {s : TurnServer} {client peer : SocketAddress}
  {a : Allocation} {e : TurnEntry} {p : TurnPort} {data transactionId : List U8}

theorem departs_indication (hd : s.Distinct) (ha : s.findAllocation client = some a)
    (hp : a.hasPermission e.extAddr.ip = some true) (hfamily : e.extAddr.family ≠ .undef)
    (hlen : data.length ≤ 65000) (hid : transactionId.length = kStunTransactionIdLength)
    (hstate : e.state ≠ .bound) :
    Departs hmac hmacMd5 authKey s client a e data transactionId := by
  have htid := indication_transactionId turnSendIndication e.extAddr data hid
  have hattrs := indication_attrs turnSendIndication e.extAddr data transactionId
  obtain ⟨bytes, hwrite, -, hread⟩ := write_read
    (indication_built turnSendIndication e.extAddr data transactionId)
    (by rw [indication_type]; decide) (Or.inl (by rw [htid, hid]))
    (by
      rw [hattrs, htid]
      rintro _ (_ | ⟨_, _ | ⟨_, hnil⟩⟩)
      · exact ⟨hfamily, fun _ => hid⟩
      · trivial
      · cases hnil)
    (by
      rw [hattrs]
      have hpad : padded data.length ≤ data.length + 3 := by unfold padded; split <;> omega
      have haddr : padded (StunValue.addressLength e.extAddr).toNat ≤ 20 := by
        unfold StunValue.addressLength
        cases e.extAddr.family <;> decide
      simp only [totalSize, List.map_cons, List.map_nil, List.sum_cons, List.sum_nil,
        StunValue.size, StunValue.length]
      omega)
  obtain ⟨hsize, htype⟩ := write_type hwrite
  obtain ⟨hpeer, hdata⟩ := getAddress_of_attrs hattrs
  rw [indication_type] at htype
  refine ⟨bytes, ?_, fun now mem socket => ?_⟩
  · unfold TurnPort.wire TurnPort.packet
    rw [if_pos hstate]
    exact hwrite
  · have hrelay : a.handleTurnMessage hmac s.cfg now
        (indication turnSendIndication e.extAddr data transactionId) =
          some (a, [.relay a.relayed e.extAddr data]) := by
      unfold Allocation.handleTurnMessage Allocation.handleSendIndication
      rw [indication_type, hpeer, hdata]
      simp only [hp]
      rfl
    show s.onInternalPacket hmac hmacMd5 authKey now client bytes mem socket = _
    unfold onInternalPacket handleStunMessage
    rw [if_neg (by omega), if_pos (by rw [htype]; decide), hread]
    simp only [indication_type]
    rw [if_neg (by decide), if_neg (by decide)]
    unfold handleAuthorized
    simp only [ha, indication_type]
    rw [if_pos (Or.inl (by decide)), if_neg (fun h => absurd h.1 (by decide)), hrelay,
      Option.map_some, setAllocation_self hd ha]

theorem departs_channel (hb : a.Bound) (ha : s.findAllocation client = some a) {c : TurnChannel}
    (hc : c ∈ a.channels) (hnumber : c.id = e.channelId) (hpeer : c.peer = e.extAddr)
    (hstate : e.state = .bound) :
    Departs hmac hmacMd5 authKey s client a e data transactionId := by
  have hrange := hb.range c hc
  have hlt : e.channelId < 2 ^ 16 := by
    obtain ⟨-, hmax⟩ : 0x4000 ≤ c.id ∧ c.id ≤ 0x7FFF := hrange
    omega
  refine ⟨channelMessage e.channelId data, ?_, fun now mem socket => ?_⟩
  · unfold TurnPort.wire TurnPort.packet
    rw [if_neg (not_not_intro hstate)]
    rfl
  · show s.onInternalPacket hmac hmacMd5 authKey now client _ mem socket = _
    unfold onInternalPacket Allocation.handleChannelData
    rw [channelMessage_length, if_neg (by omega), channelMessage_id hlt,
      isTurnChannelData_of_range (hnumber ▸ hrange)]
    simp only [ha, not_true_eq_false, if_false]
    rw [← hnumber, hb.findChannelId hc]
    simp only [channelMessage_data, hpeer]

/-! ## From the peer -/

variable {hash : List U8}

variable {bytes : List U8}

theorem arrives_iff {out : TurnOutput}
    (hstep : s.step hmac hmacMd5 authKey (.external client data peer transactionId) =
      some (s, [out])) (hout : out.toClient = some (client, bytes)) :
    Arrives hmac hmacMd5 authKey hash s p client peer data transactionId ↔
      ∀ mem, p.onReadPacket hmac hash bytes mem = .dispatched data peer := by
  constructor
  · rintro ⟨out', bytes', hstep', hout', hread⟩
    obtain ⟨-, hlist⟩ := Prod.mk.inj (Option.some.inj (hstep.symm.trans hstep'))
    obtain ⟨rfl, -⟩ := List.cons.inj hlist
    obtain ⟨-, rfl⟩ := Prod.mk.inj (Option.some.inj (hout.symm.trans hout'))
    exact hread
  · exact fun hread => ⟨out, bytes, hstep, hout, hread⟩

theorem onReadPacket_channelMessage {id : Nat}
    (hrange : kMinChannelNumber ≤ id ∧ id ≤ kMaxChannelNumber) (hlen : data.length < 2 ^ 16)
    (mem : Nat → U8) : p.onReadPacket hmac hash (channelMessage id data) mem =
      (p.findChannel id).elim .dropped fun entry => .dispatched data entry.extAddr := by
  have hid : id < 2 ^ 16 := by
    obtain ⟨-, hmax⟩ : 0x4000 ≤ id ∧ id ≤ 0x7FFF := hrange
    omega
  unfold TurnPort.onReadPacket TurnPort.handleChannelData
  rw [channelMessage_length, if_neg (by omega), channelMessage_id hid]
  simp only [isTurnChannelData_of_range hrange, if_true, channelMessage_dataLength hlen,
    channelMessage_data, Nat.add_sub_cancel_left, ne_eq, not_true_eq_false, if_false,
    List.take_length]
  cases p.findChannel id with
  | none => rfl
  | some entry => rfl

theorem arrives_channel_iff (hb : a.Bound) (ha : s.findAllocation client = some a)
    {c : TurnChannel} (hc : a.findChannelPeer peer = some c) (hlen : data.length ≤ 65000) :
    Arrives hmac hmacMd5 authKey hash s p client peer data transactionId ↔
      (p.findChannel c.id).map TurnEntry.extAddr = some peer := by
  have hstep : s.step hmac hmacMd5 authKey (.external client data peer transactionId) =
      some (s, [.channelData a.client (channelMessage c.id data)]) := by
    simp only [step, ha, Allocation.onExternalPacket, hc]
    rfl
  have hout : (TurnOutput.channelData a.client (channelMessage c.id data)).toClient =
      some (client, channelMessage c.id data) := by
    rw [TurnOutput.toClient, (findAllocation_some ha).2]
  rw [arrives_iff hstep hout]
  simp only [onReadPacket_channelMessage (hb.range c (List.mem_of_find?_eq_some hc))
    (Nat.lt_of_le_of_lt hlen (by decide)), forall_const]
  cases p.findChannel c.id with
  | none =>
    exact ⟨fun h => TurnReceived.noConfusion h, fun h => (Option.some_ne_none _ h.symm).elim⟩
  | some entry =>
    simp only [Option.elim_some, Option.map_some, TurnReceived.dispatched.injEq, true_and,
      Option.some.injEq]

theorem onReadPacket_indication (hsize : turnChannelHeaderSize ≤ bytes.length)
    (htype : ofBE (bytes.take 2) = turnDataIndication.toNat) (mem : Nat → U8) :
    p.onReadPacket hmac hash bytes mem = p.handleDataIndication bytes := by
  unfold TurnPort.onReadPacket
  rw [if_neg (by omega), htype, if_neg (by decide), if_pos rfl]

/-- The message that `SendStun` writes for a data indication. A `SOFTWARE` attribute is cut as its
length is. -/
theorem sendStun_indication (client peer : SocketAddress) (data : List U8) (cfg : TurnConfig)
    (hid : transactionId.length = kStunTransactionIdLength) :
    ∃ (m : StunMessage) (more : List StunAttribute),
      (cfg.sendStun client (indication turnDataIndication peer data transactionId)).toClient =
        m.write.map (fun bytes => (client, bytes)) ∧
      Built .turn m ∧ m.type = turnDataIndication ∧ m.transactionId = transactionId ∧
      m.attrs = ⟨stunAttrXorPeerAddress, .xorAddress peer⟩ ::
        ⟨stunAttrData, .byteString data⟩ :: more ∧
      (∀ b ∈ more, b.value.Writable transactionId ∧ b.value.size < 2 ^ 16) ∧
      totalSize m.attrs = indicationSize cfg.software peer data := by
  have haddr : padded (StunValue.addressLength peer).toNat =
      (StunValue.addressLength peer).toNat := by
    unfold StunValue.addressLength
    cases peer.family <;> rfl
  by_cases hsoft : cfg.software ≠ []
  · have hmin : (cfg.software.take (cfg.software.length % 2 ^ 16)).length =
        cfg.software.length % 2 ^ 16 := List.length_take_of_le (Nat.mod_le _ _)
    have heq := withAttribute_eq (m := indication turnDataIndication peer data transactionId)
      (t := stunAttrSoftware) (v := .byteString (cfg.software.take (cfg.software.length % 2 ^ 16)))
      (by rw [(indication_built _ _ _ _).counts.cls]; rfl)
    have hattrs := congrArg StunMessage.attrs heq
    rw [indication_attrs] at hattrs
    refine ⟨_, [⟨stunAttrSoftware, _⟩], ?_, (indication_built _ _ _ _).withAttribute, ?_, ?_,
      hattrs, ?_, ?_⟩
    · rw [TurnConfig.sendStun, if_pos hsoft, TurnOutput.toClient, write_withAttribute_take]
    · rw [withAttribute_type, indication_type]
    · rw [withAttribute_transactionId, indication_transactionId _ _ _ hid]
    · intro b hb
      obtain rfl := List.mem_singleton.mp hb
      exact ⟨trivial, by simp only [StunValue.size, hmin, Nat.mod_lt _ (Nat.two_pow_pos 16)]⟩
    · simp only [hattrs, totalSize, List.cons_append, List.nil_append, List.map_cons, List.map_nil,
        List.sum_cons, List.sum_nil, StunValue.size, StunValue.length, haddr, hmin, indicationSize,
        if_pos hsoft]
      omega
  · refine ⟨indication turnDataIndication peer data transactionId, [], ?_, indication_built _ _ _ _,
      indication_type, indication_transactionId _ _ _ hid, indication_attrs _ _ _ _,
      List.forall_mem_nil _, ?_⟩
    · rw [TurnConfig.sendStun, if_neg hsoft, TurnOutput.toClient]
    · simp only [indication_attrs, totalSize, List.map_cons, List.map_nil, List.sum_cons,
        List.sum_nil, StunValue.size, StunValue.length, haddr, indicationSize, if_neg hsoft]
      omega

/-- **A data indication is read back exactly if it is not too long.** -/
theorem sendStun_indication_read (client : SocketAddress) (cfg : TurnConfig)
    (hfamily : peer.family ≠ .undef) (hlen : data.length ≤ 65000)
    (hid : transactionId.length = kStunTransactionIdLength) :
    ∃ bytes, (cfg.sendStun client
      (indication turnDataIndication peer data transactionId)).toClient =
        some (client, bytes) ∧ turnChannelHeaderSize ≤ bytes.length ∧
      ofBE (bytes.take 2) = turnDataIndication.toNat ∧
      if indicationSize cfg.software peer data < 2 ^ 16 then
        ∃ m, (StunMessage.new .turn).read bytes = some m ∧
          m.getAddress stunAttrXorPeerAddress = some peer ∧ m.getByteString stunAttrData = some data
      else (StunMessage.new .turn).read bytes = none := by
  obtain ⟨m, more, hsent, hbuilt, htype, htid, hattrs, hmore, htotal⟩ :=
    sendStun_indication client peer data cfg hid
  have hwritable : ∀ b ∈ m.attrs, b.value.Writable m.transactionId := by
    rw [hattrs, htid]
    rintro _ (_ | ⟨_, _ | ⟨_, hb⟩⟩)
    · exact ⟨hfamily, fun _ => hid⟩
    · trivial
    · exact (hmore _ hb).1
  have hsizes : ∀ b ∈ m.attrs, b.value.size < 2 ^ 16 := by
    rw [hattrs]
    rintro _ (_ | ⟨_, _ | ⟨_, hb⟩⟩)
    · exact (StunValue.addressLength peer).isLt
    · exact Nat.lt_of_le_of_lt hlen (by decide)
    · exact (hmore _ hb).2
  have hmsb : m.type.toNat < 0x8000 := by
    rw [htype]
    decide
  have hreadable : Readable m.transactionId := Or.inl (by rw [htid, hid])
  by_cases hfits : indicationSize cfg.software peer data < 2 ^ 16
  · obtain ⟨bytes, hwrite, -, hback⟩ := write_read hbuilt hmsb hreadable hwritable
      (by rw [htotal]; exact hfits)
    obtain ⟨hsize, hfirst⟩ := write_type hwrite
    refine ⟨bytes, by rw [hsent, hwrite]; rfl, hsize, by rw [hfirst, htype], ?_⟩
    rw [if_pos hfits]
    exact ⟨m, hback, getAddress_of_attrs hattrs⟩
  · obtain ⟨bytes, hwrite, hback⟩ := write_overlong hbuilt hmsb hreadable hwritable hsizes
      (by rw [htotal]; omega)
    obtain ⟨hsize, hfirst⟩ := write_type hwrite
    refine ⟨bytes, by rw [hsent, hwrite]; rfl, hsize, by rw [hfirst, htype], ?_⟩
    rw [if_neg hfits]
    exact hback

theorem arrives_indication_iff (ha : s.findAllocation client = some a)
    (hnone : a.findChannelPeer peer = none) (hp : a.hasPermission peer.ip = some true)
    (he : p.hasPermission peer.ip = true) (hfamily : peer.family ≠ .undef)
    (hlen : data.length ≤ 65000) (hid : transactionId.length = kStunTransactionIdLength) :
    Arrives hmac hmacMd5 authKey hash s p client peer data transactionId ↔
      indicationSize s.cfg.software peer data < 2 ^ 16 := by
  have hstep : s.step hmac hmacMd5 authKey (.external client data peer transactionId) =
      some (s, [s.cfg.sendStun a.client
        (indication turnDataIndication peer data transactionId)]) := by
    simp only [step, ha, Allocation.onExternalPacket, hnone, hp]
    rfl
  rw [(findAllocation_some ha).2] at hstep
  obtain ⟨bytes, hout, hsize, htype, hread⟩ :=
    sendStun_indication_read client s.cfg hfamily hlen hid
  rw [arrives_iff hstep hout]
  simp only [onReadPacket_indication hsize htype, forall_const, TurnPort.handleDataIndication]
  split at hread
  · rename_i hfits
    obtain ⟨m, hread, hpeer, hdata⟩ := hread
    simp only [hread, hpeer, hdata, he, if_true, hfits]
  · rename_i hlong
    simp only [hread, hlong, iff_false]
    exact fun h => TurnReceived.noConfusion h

/-! ## The length field -/

theorem onReadPacket_dataLength {mem : Nat → U8} {addr : SocketAddress}
    (hchannel : IsChannelData data)
    (hread : p.onReadPacket hmac hash data mem = .dispatched bytes addr) :
    channelDataLength data = data.length - turnChannelHeaderSize := by
  obtain ⟨hsize, htype⟩ := hchannel
  unfold TurnPort.onReadPacket TurnPort.handleChannelData at hread
  rw [if_neg (by omega)] at hread
  simp only [htype, if_true] at hread
  by_contra hne
  rw [if_pos hne] at hread
  cases hread

theorem lengthChecked_iff (hchannel : IsChannelData data) :
    LengthChecked hmac hmacMd5 authKey s client data ↔
      channelDataLength data = data.length - turnChannelHeaderSize ∨
        ∀ a, s.findAllocation client = some a → a.findChannelId (ofBE (data.take 2)) = none := by
  obtain ⟨hsize, htype⟩ := hchannel
  have hstep : ∀ now mem socket,
      s.step hmac hmacMd5 authKey (.internal now client data mem socket) =
        some (s, (s.findAllocation client).elim [] fun a => a.handleChannelData data) := by
    intro now mem socket
    show s.onInternalPacket hmac hmacMd5 authKey now client data mem socket = _
    unfold onInternalPacket
    rw [if_neg (by omega), if_neg (not_not_intro htype)]
    cases s.findAllocation client with
    | none => rfl
    | some a => rfl
  constructor
  · intro hchecked
    by_contra hnot
    obtain ⟨hne, hbound⟩ := not_or.mp hnot
    push Not at hbound
    obtain ⟨a, ha, hc⟩ := hbound
    obtain ⟨c, hc⟩ := Option.ne_none_iff_exists'.mp hc
    refine hne (hchecked 0 (fun _ => 0) none s _ (hstep ..) ?_)
    simp only [ha, Option.elim_some, Allocation.handleChannelData, hc]
    exact List.cons_ne_nil _ _
  · rintro (hlen | hunbound) now mem socket s' out h hout
    · exact hlen
    · rw [hstep] at h
      obtain ⟨-, rfl⟩ := Prod.mk.inj (Option.some.inj h)
      refine absurd ?_ hout
      cases ha : s.findAllocation client with
      | none => rfl
      | some a => simp only [Option.elim_some, Allocation.handleChannelData, hunbound a ha]

/-! ## Both ends -/

variable {cfg : TurnConfig}

theorem deliverable_of_bound (hb : a.Bound) (h : Relaying s p client a e)
    (hnodup : (p.entries.map TurnEntry.channelId).Nodup) (hstate : e.state = .bound)
    (software : List U8) (data : List U8) : Deliverable software p a e.extAddr data := by
  obtain ⟨c, hc, hnumber, hpeer⟩ := h.binding hstate
  have hfind : a.findChannelPeer e.extAddr = some c := hpeer ▸ hb.findChannelPeer hc
  have hentry : p.findChannel e.channelId = some e := find_of_mem hnodup h.entry
  unfold Deliverable
  rw [hfind]
  simp only [hnumber, hentry, Option.map_some]

/-- **Relaying between an entry and its peer**, for every state a server can reach and every port.
What the entry sends, at most 65000 bytes, is sent to the peer as it is. What the peer sends reaches
`DispatchPacket` as it is exactly if `Deliverable`. The client takes channel data only with the
right length field; the server relays it only then exactly if the field is right or no channel is
bound. -/
theorem relay_transparent {es : List TurnEvent}
    (hrun : (TurnServer.mk cfg []).run hmac hmacMd5 authKey es = some s) (hash : List U8)
    (p : TurnPort) (client : SocketAddress) (data : List U8) :
    (∀ a e transactionId, Relaying s p client a e → data.length ≤ 65000 →
      transactionId.length = kStunTransactionIdLength →
      Departs hmac hmacMd5 authKey s client a e data transactionId ∧
        (Arrives hmac hmacMd5 authKey hash s p client e.extAddr data transactionId ↔
          Deliverable cfg.software p a e.extAddr data)) ∧
    (IsChannelData data →
      (∀ mem bytes addr, p.onReadPacket hmac hash data mem = .dispatched bytes addr →
        channelDataLength data = data.length - turnChannelHeaderSize) ∧
      (LengthChecked hmac hmacMd5 authKey s client data ↔
        channelDataLength data = data.length - turnChannelHeaderSize ∨
          ∀ a, s.findAllocation client = some a →
            a.findChannelId (ofBE (data.take 2)) = none)) := by
  have hnew : (TurnServer.mk cfg []).Keyed authKey cfg := ⟨rfl, List.nodup_nil, nofun⟩
  have hkeyed := hnew.run hrun
  have hempty : (TurnServer.mk cfg []).Bound := fun a ha => absurd ha List.not_mem_nil
  have hbound := hempty.run hrun
  refine ⟨fun a e transactionId h hlen hid => ⟨?_, ?_⟩, fun hchannel => ⟨?_, ?_⟩⟩
  · by_cases hstate : e.state = .bound
    · obtain ⟨c, hc, hnumber, hpeer⟩ := h.binding hstate
      exact departs_channel (hbound a (findAllocation_some h.allocation).1) h.allocation hc hnumber
        hpeer hstate
    · exact departs_indication hkeyed.distinct h.allocation h.permission h.family hlen hid hstate
  · unfold Deliverable
    cases hc : a.findChannelPeer e.extAddr with
    | some c =>
      exact arrives_channel_iff (hbound a (findAllocation_some h.allocation).1) h.allocation hc hlen
    | none =>
      have hp : p.hasPermission e.extAddr.ip = true := by
        unfold TurnPort.hasPermission
        exact List.any_eq_true.mpr ⟨e, h.entry, decide_eq_true rfl⟩
      rw [← hkeyed.config]
      exact arrives_indication_iff h.allocation hc h.permission hp h.family hlen hid
  · exact fun mem bytes addr => onReadPacket_dataLength hchannel
  · exact lengthChecked_iff hchannel

def samplePeer : SocketAddress := ⟨.ipv4 0x0a000003, 7000⟩

/-- A request of the user `u` to bind channel `0x4000` to the peer. -/
def channelBindMessage : StunMessage :=
  let m := (StunMessage.new .turn).setType turnChannelBindRequest
  let m := (m.setTransactionID (List.replicate 12 0x42)).getD m
  let m := m.withAttribute stunAttrChannelNumber (.uint32 0x40000000)
  let m := m.withAttribute stunAttrXorPeerAddress (.xorAddress samplePeer)
  let m := m.withAttribute stunAttrUsername (.byteString (bytesOf "u"))
  let m := m.withAttribute stunAttrRealm (.byteString (bytesOf "r"))
  let m := m.withAttribute stunAttrNonce (.byteString (bytesOf "e8030000" ++ nonceDigest))
  m.withMessageIntegrity (fun _ _ => allocateDigest) sampleKey

/-- An allocation, and a channel in it. -/
def bindingRun : List TurnEvent := [
    .internal 2000 sampleClient allocatePacket (fun _ => 0) (some ⟨.ipv4 0x0a000002, 6000⟩),
    .internal 3000 sampleClient (channelBindMessage.write.getD []) (fun _ => 0) none]

def boundAllocation : Allocation where
  client := sampleClient
  relayed := ⟨.ipv4 0x0a000002, 6000⟩
  key := sampleKey
  transactionId := List.replicate 12 0x41
  username := bytesOf "u"
  timeouts := [602000]
  perms := [1]
  permissions := [⟨1, samplePeer.ip, 303000⟩]
  channels := [⟨0, 0x4000, samplePeer, 603000⟩]
  nextId := 2

/-- A port with a bound entry for the peer. -/
def boundPort : TurnPort := (TurnPort.new (.ipv4 0x0a000001)).run
  [.createConnection "udp" samplePeer, .sendTo samplePeer true, .response 1 0x0109]

theorem relay_transparent_channel : ∃ s,
    (TurnServer.mk sampleConfig []).run (fun _ _ => allocateDigest) (fun _ _ => nonceDigest)
      (fun _ _ => sampleKey) bindingRun = some s ∧
    Departs (fun _ _ => allocateDigest) (fun _ _ => nonceDigest) (fun _ _ => sampleKey) s
      sampleClient boundAllocation ⟨0, 0x4000, samplePeer, .bound⟩ [1, 2, 3]
      (List.replicate 12 0x43) ∧
    Arrives (fun _ _ => allocateDigest) (fun _ _ => nonceDigest) (fun _ _ => sampleKey) [] s
      boundPort sampleClient samplePeer [1, 2, 3] (List.replicate 12 0x43) := by
  have hrun : (TurnServer.mk sampleConfig []).run (fun _ _ => allocateDigest)
      (fun _ _ => nonceDigest) (fun _ _ => sampleKey) bindingRun =
        some ⟨sampleConfig, [boundAllocation]⟩ := by decide +kernel
  have hrelaying : Relaying ⟨sampleConfig, [boundAllocation]⟩ boundPort sampleClient
      boundAllocation ⟨0, 0x4000, samplePeer, .bound⟩ :=
    ⟨by decide, by decide, by decide, by decide, fun _ => ⟨_, List.mem_singleton_self _, rfl, rfl⟩⟩
  obtain ⟨hdeparts, harrives⟩ := (relay_transparent hrun [] boundPort sampleClient [1, 2, 3]).1
    boundAllocation ⟨0, 0x4000, samplePeer, .bound⟩ (List.replicate 12 0x43) hrelaying (by decide)
    (by decide)
  exact ⟨_, hrun, hdeparts, harrives.mpr (deliverable_of_bound
    ⟨by decide, by decide, by decide⟩ hrelaying (by decide) rfl _ _)⟩

/-- **The server relays channel data with a wrong length field**, which the client drops: one byte
that says it is five. -/
theorem wrong_length_relayed : ∃ s, (TurnServer.mk sampleConfig []).run (fun _ _ => allocateDigest)
      (fun _ _ => nonceDigest) (fun _ _ => sampleKey) bindingRun = some s ∧
    s.step (fun _ _ => allocateDigest) (fun _ _ => nonceDigest) (fun _ _ => sampleKey)
      (.internal 4000 sampleClient [0x40, 0x00, 0x00, 0x05, 0x61] (fun _ => 0) none) =
        some (s, [.relay ⟨.ipv4 0x0a000002, 6000⟩ samplePeer [0x61]]) ∧
    boundPort.onReadPacket (fun _ _ => allocateDigest) [] [0x40, 0x00, 0x00, 0x05, 0x61]
      (fun _ => 0) = .dropped := by
  refine ⟨⟨sampleConfig, [boundAllocation]⟩, ?_, ?_, ?_⟩
  · decide +kernel
  · decide
  · decide

end TurnServer

end Libjingle
