import Libjingle.Stun.Attribute

/-!
# STUN messages (`p2p/base/stun.h`, `stun.cc`: `StunMessage` and its subclasses)

The four message classes differ in the table that gives an attribute type its value type. `write`
returns what `Write` appends to the buffer, `read` what is in the message when `Read` returns
`true`; each is `none` when the method returns `false`. A caller drops a message that could not be
read.

`parse` is `read` with a history of the attribute loop: a `Visit` for each attribute header, with
its offset in the body and the attribute recorded for it, if any.
-/

namespace Libjingle

open Lib ByteBuffer

/-! ## Message classes -/

/-- `StunMessage`, `RelayMessage`, `TurnMessage`, `IceMessage`. -/
inductive MessageClass where
  | stun
  | relay
  | turn
  | ice
  deriving DecidableEq

def stunAttrMessageIntegrity : U16 := 0x0008

/-- `StunMessage::GetAttributeValueType`. -/
def stunAttributeValueType (type : Nat) : StunAttributeValueType :=
  match type with
  | 0x0001 => .address      -- MAPPED-ADDRESS
  | 0x0006 => .byteString   -- USERNAME
  | 0x0008 => .byteString   -- MESSAGE-INTEGRITY
  | 0x0009 => .errorCode    -- ERROR-CODE
  | 0x000a => .uint16List   -- UNKNOWN-ATTRIBUTES
  | 0x0014 => .byteString   -- REALM
  | 0x0015 => .byteString   -- NONCE
  | 0x0020 => .xorAddress   -- XOR-MAPPED-ADDRESS
  | 0x8022 => .byteString   -- SOFTWARE
  | 0x8023 => .byteString   -- ALTERNATE-SERVER
  | 0x8028 => .uint32       -- FINGERPRINT
  | 0xFF00 => .uint32       -- RETRANSMIT-COUNT
  | _ => .unknown

/-- `GetAttributeValueType` of each class. -/
def MessageClass.getAttributeValueType (c : MessageClass) (type : U16) : StunAttributeValueType :=
  match c with
  | .stun => stunAttributeValueType type.toNat
  | .relay =>
    match type.toNat with
    | 0x000d => .uint32       -- LIFETIME
    | 0x000f => .byteString   -- MAGIC-COOKIE
    | 0x0010 => .uint32       -- BANDWIDTH
    | 0x0011 => .address      -- DESTINATION-ADDRESS
    | 0x0012 => .address      -- SOURCE-ADDRESS2
    | 0x0013 => .byteString   -- DATA
    | 0x8001 => .uint32       -- OPTIONS
    | t => stunAttributeValueType t
  | .turn =>
    match type.toNat with
    | 0x000C => .uint32       -- CHANNEL-NUMBER
    | 0x000d => .uint32       -- TURN-LIFETIME
    | 0x0012 => .xorAddress   -- XOR-PEER-ADDRESS
    | 0x0013 => .byteString   -- DATA
    | 0x0016 => .xorAddress   -- XOR-RELAYED-ADDRESS
    | 0x0018 => .byteString   -- EVEN-PORT
    | 0x0019 => .uint32       -- REQUESTED-TRANSPORT
    | 0x001A => .byteString   -- DONT-FRAGMENT
    | 0x0022 => .byteString   -- RESERVATION-TOKEN
    | t => stunAttributeValueType t
  | .ice =>
    match type.toNat with
    | 0x0024 => .uint32       -- PRIORITY
    | 0x0025 => .byteString   -- USE-CANDIDATE
    | 0x8029 => .uint64       -- ICE-CONTROLLED
    | 0x802A => .uint64       -- ICE-CONTROLLING
    | t => stunAttributeValueType t

/-! ## Messages -/

/-- A message of one of the classes. -/
structure StunMessage where
  cls : MessageClass
  type : U16
  length : U16
  transactionId : List U8
  attrs : List StunAttribute
  deriving DecidableEq

namespace StunMessage

/-- The constructor, with `EMPTY_TRANSACTION_ID`. -/
def new (c : MessageClass) : StunMessage := ⟨c, 0, 0, List.replicate 16 0x30, []⟩

def isValidTransactionId (id : List U8) : Bool :=
  id.length = kStunTransactionIdLength || id.length = kStunLegacyTransactionIdLength

def isLegacy (m : StunMessage) : Bool := m.transactionId.length = kStunLegacyTransactionIdLength

def setType (m : StunMessage) (type : U16) : StunMessage := { m with type := type }

/-- `SetTransactionID`; `none` when it returns `false`. -/
def setTransactionID (m : StunMessage) (id : List U8) : Option StunMessage :=
  if isValidTransactionId id then some { m with transactionId := id } else none

/-- A length rounded up to a multiple of 4. -/
def padded (n : Nat) : Nat := if n % 4 ≠ 0 then n + (4 - n % 4) else n

/-- `AddAttribute`; `none` when it returns `false`. -/
def addAttribute (m : StunMessage) (attr : StunAttribute) : Option StunMessage :=
  if attr.value.valueType ≠ m.cls.getAttributeValueType attr.type then none
  else some { m with
    attrs := m.attrs ++ [attr]
    length := m.length + BitVec.ofNat 16 (padded attr.value.length.toNat + 4) }

/-- `AddAttribute` of one attribute after another; `none` when one of the calls returns `false`. -/
def addAttributes (m : StunMessage) : List StunAttribute → Option StunMessage
  | [] => some m
  | a :: rest => (m.addAttribute a).bind fun m' => m'.addAttributes rest

/-! ## `Write` -/

/-- `Write`: the attributes. -/
def writeAttributes (transactionId : List U8) : List StunAttribute → Option (List U8)
  | [] => some []
  | a :: rest => do
    let body ← a.value.write transactionId
    let more ← writeAttributes transactionId rest
    return writeUInt16 a.type ++ writeUInt16 a.value.length ++ body ++ more

/-- `Write`: the header. -/
def writeHeader (m : StunMessage) : List U8 :=
  writeUInt16 m.type ++ writeUInt16 m.length ++
    (if m.isLegacy then [] else writeUInt32 kStunMagicCookie) ++ m.transactionId

def write (m : StunMessage) : Option (List U8) := do
  let body ← writeAttributes m.transactionId m.attrs
  return m.writeHeader ++ body

/-! ## `Read` -/

/-- The header of an attribute on its way through the loop, and what is recorded for it. -/
structure Visit where
  offset : Nat
  type : U16
  length : U16
  attr : Option StunAttribute
  deriving DecidableEq

/-- `Read`: the length of an unknown attribute, rounded up in place. -/
def skipLength (attrLength : U16) : U16 :=
  if attrLength % 4 ≠ 0 then attrLength + (4 - attrLength % 4) else attrLength

/-- One round of `Read`'s loop at this offset. -/
def readAttribute (c : MessageClass) (transactionId : List U8) (offset : Nat) :
    Reader U8 Visit := do
  let attrType ← readUInt16
  let attrLength ← readUInt16
  match StunValue.create (c.getAttributeValueType attrType) attrLength transactionId with
  | none => do
    -- Skip any unknown or malformed attributes.
    consume (skipLength attrLength).toNat
    return ⟨offset, attrType, attrLength, none⟩
  | some reader => do
    let value ← reader
    return ⟨offset, attrType, attrLength, some ⟨attrType, value⟩⟩

/-- `Read`'s loop. Every round takes at least four bytes, so `fuel` rounds do for `fuel` bytes. -/
def readAttributes (c : MessageClass) (transactionId : List U8) :
    Nat → Nat → List U8 → Option (List Visit)
  | _, _, [] => some []
  | 0, _, _ :: _ => none
  | fuel + 1, offset, b :: buf => do
    let (v, rest) ← readAttribute c transactionId offset (b :: buf)
    let more ← readAttributes c transactionId fuel
      (offset + ((b :: buf).length - rest.length)) rest
    return v :: more

/-- The header fields in front of a body. -/
structure Header where
  type : U16
  length : U16
  transactionId : List U8
  deriving DecidableEq

/-- `Read` up to the attributes. -/
def readHeader : Reader U8 Header := do
  let type ← readUInt16
  -- RTP and RTCP set the MSB of first byte.
  if type &&& 0x8000 ≠ 0 then failure
  else
    let length ← readUInt16
    let magicCookie ← readBytes 4
    let transactionId ← readBytes kStunTransactionIdLength
    -- If magic cookie is invalid it means that the peer implements RFC3489.
    return ⟨type, length, if ofBE magicCookie ≠ kStunMagicCookie.toNat
      then magicCookie ++ transactionId else transactionId⟩

/-- `Read`, with the visits of its loop. -/
def parse (m : StunMessage) (buf : List U8) : Option (StunMessage × List Visit) := do
  let (h, body) ← readHeader buf
  if h.length.toNat ≠ body.length then none
  else
    let visits ← readAttributes m.cls h.transactionId body.length 0 body
    return (⟨m.cls, h.type, h.length, h.transactionId, visits.filterMap Visit.attr⟩, visits)

def read (m : StunMessage) (buf : List U8) : Option StunMessage := (m.parse buf).map Prod.fst

/-! ## The walk of `ValidateMessageIntegrity` -/

/-- `ValidateMessageIntegrity`'s loop over the attributes behind `data`: the positions it visits, up
to the first MESSAGE-INTEGRITY. A position grows by at least four in each round. -/
def integrityWalk (data : Nat → U8) (size : Nat) : Nat → Nat → List Nat
  | 0, _ => []
  | fuel + 1, currentPos =>
    if currentPos < size then
      let attrType := ofBE (fetch (fun i => data (currentPos + i)) 2)
      let attrLength := ofBE (fetch (fun i => data (currentPos + 2 + i)) 2)
      if attrType = stunAttrMessageIntegrity.toNat then [currentPos]
      else currentPos :: integrityWalk data size fuel (currentPos + 4 + padded attrLength)
    else []

end StunMessage

end Libjingle
