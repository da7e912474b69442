import Libjingle.Base.ByteBuffer

/-!
# STUN attributes (`p2p/base/stun.h`, `stun.cc`: `StunAttribute` and its classes)

An attribute is its type and the value of one of the seven classes. Every method that sets a value
also sets `length_`, so `length()` is a function of the value (`StunAttribute.length`), cut to
16 bits as the setters cut it. Only an object that `Create` makes for reading has a length and no
value yet: `Create` and the `Read` of the object it makes are one function here, `create`, whose
argument is that length.

An address is `IPAddress` and port of a `SocketAddress`; its host name and scope are never read.
`in_addr` and `in6_addr` are numbers in network order.
-/

namespace Libjingle

open Lib ByteBuffer

/-! ## Constants -/

def kStunMagicCookie : U32 := 0x2112A442
def kStunTransactionIdLength : Nat := 12
def kStunLegacyTransactionIdLength : Nat := 16

inductive StunAttributeValueType where
  | unknown
  | address
  | xorAddress
  | uint32
  | uint64
  | byteString
  | errorCode
  | uint16List
  deriving DecidableEq

inductive StunAddressFamily where
  | undef
  | ipv4
  | ipv6
  deriving DecidableEq

def StunAddressFamily.code : StunAddressFamily → U8
  | undef => 0
  | ipv4 => 1
  | ipv6 => 2

/-! ## Values -/

inductive IPAddress where
  | unspec
  | ipv4 (addr : U32)
  | ipv6 (addr : BitVec 128)
  deriving DecidableEq

structure SocketAddress where
  ip : IPAddress
  port : U16
  deriving DecidableEq

def SocketAddress.family (a : SocketAddress) : StunAddressFamily :=
  match a.ip with
  | .unspec => .undef
  | .ipv4 _ => .ipv4
  | .ipv6 _ => .ipv6

/-- The value of an attribute of each class. -/
inductive StunValue where
  | address (addr : SocketAddress)
  | xorAddress (addr : SocketAddress)
  | uint32 (bits : U32)
  | uint64 (bits : U64)
  | byteString (bytes : List U8)
  | errorCode (eclass number : U8) (reason : List U8)
  | uint16List (types : List U16)
  deriving DecidableEq

namespace StunValue

def valueType : StunValue → StunAttributeValueType
  | address _ => .address
  | xorAddress _ => .xorAddress
  | uint32 _ => .uint32
  | uint64 _ => .uint64
  | byteString _ => .byteString
  | errorCode .. => .errorCode
  | uint16List _ => .uint16List

/-- `EnsureAddressLength`. -/
def addressLength (addr : SocketAddress) : U16 :=
  match addr.family with
  | .ipv4 => 8
  | .ipv6 => 20
  | .undef => 0

/-- `length()`, as the setters leave it. -/
def length : StunValue → U16
  | address addr => addressLength addr
  | xorAddress addr => addressLength addr
  | uint32 _ => 4
  | uint64 _ => 8
  | byteString bytes => BitVec.ofNat 16 bytes.length
  | errorCode _ _ reason => 4 + BitVec.ofNat 16 reason.length
  | uint16List types => BitVec.ofNat 16 (types.length * 2)

end StunValue

structure StunAttribute where
  type : U16
  value : StunValue
  deriving DecidableEq

def StunValue.code : StunValue → Nat
  | .errorCode eclass number _ => eclass.toNat * 100 + number.toNat
  | _ => 0

/-- `StunErrorCodeAttribute(type, code, reason)`. -/
def StunValue.ofCode (code : Nat) (reason : List U8) : StunValue :=
  .errorCode (BitVec.ofNat 8 (code / 100)) (BitVec.ofNat 8 (code % 100)) reason

/-! ## Padding -/

/-- The padding behind a value of this length. -/
def paddingSize (length : U16) : Nat := if length.toNat % 4 > 0 then 4 - length.toNat % 4 else 0

def writePadding (length : U16) : List U8 := List.replicate (paddingSize length) 0

/-- `ConsumePadding`: when the padding is cut short nothing is consumed. -/
def consumePadding (length : U16) : Reader U8 Unit := fun buf =>
  some ((), (consume (paddingSize length) buf).elim buf Prod.snd)

/-! ## Addresses -/

/-- `StunAddressAttribute::Write`: `false` for an undefined family. -/
def writeAddress (addr : SocketAddress) : Option (List U8) :=
  match addr.ip with
  | .unspec => none
  | .ipv4 a =>
    some (writeUInt8 0 ++ writeUInt8 addr.family.code ++ writeUInt16 addr.port ++ toBE 4 a.toNat)
  | .ipv6 a =>
    some (writeUInt8 0 ++ writeUInt8 addr.family.code ++ writeUInt16 addr.port ++ toBE 16 a.toNat)

/-- `StunAddressAttribute::Read`. -/
def readAddress (length : U16) : Reader U8 SocketAddress := do
  let _dummy ← readUInt8
  let stunFamily ← readUInt8
  let port ← readUInt16
  if stunFamily = StunAddressFamily.ipv4.code then
    if length ≠ 8 then failure
    else
      let v4addr ← readNumber 32 4
      return ⟨.ipv4 v4addr, port⟩
  else if stunFamily = StunAddressFamily.ipv6.code then
    if length ≠ 20 then failure
    else
      let v6addr ← readNumber 128 16
      return ⟨.ipv6 v6addr, port⟩
  else failure

/-- The cookie and the transaction id, which mask an IPv6 address. -/
def xorMask (transactionId : List U8) : BitVec 128 :=
  BitVec.ofNat 128 (ofBE (writeUInt32 kStunMagicCookie ++ transactionId))

/-- `GetXoredIP`, in a message with this transaction id. -/
def getXoredIP (transactionId : List U8) : IPAddress → IPAddress
  | .ipv4 a => .ipv4 (a ^^^ kStunMagicCookie)
  | .ipv6 a =>
    if transactionId.length = kStunTransactionIdLength then .ipv6 (a ^^^ xorMask transactionId)
    else .unspec
  | .unspec => .unspec

/-- `kStunMagicCookie >> 16` as the mask of a port. -/
def xorPort (port : U16) : U16 := port ^^^ (kStunMagicCookie >>> 16).setWidth 16

def xored (transactionId : List U8) (addr : SocketAddress) : SocketAddress :=
  ⟨getXoredIP transactionId addr.ip, xorPort addr.port⟩

/-! ## `Write` and `Read` of the attribute classes -/

/-- `Write` of an attribute: the bytes appended, or `none` when it returns `false`. -/
def StunValue.write (transactionId : List U8) (v : StunValue) : Option (List U8) :=
  match v with
  | .address addr => writeAddress addr
  -- fails for an undefined family and, as the masked address is then undefined, for an IPv6
  -- address in a legacy message
  | .xorAddress addr => writeAddress (xored transactionId addr)
  | .uint32 bits => some (writeUInt32 bits)
  | .uint64 bits => some (writeUInt64 bits)
  | .byteString bytes => some (bytes.take v.length.toNat ++ writePadding v.length)
  | .errorCode eclass number reason =>
    some (writeUInt32 (eclass.setWidth 32 <<< 8 ||| number.setWidth 32) ++ reason ++
      writePadding v.length)
  | .uint16List types => some (types.flatMap writeUInt16 ++ writePadding v.length)

/-- `StunXorAddressAttribute::Read`. -/
def readXorAddress (length : U16) (transactionId : List U8) : Reader U8 SocketAddress := do
  let addr ← readAddress length
  return xored transactionId addr

/-- `StunByteStringAttribute::Read`. -/
def readByteString (length : U16) : Reader U8 (List U8) := do
  let bytes ← readBytes length.toNat
  consumePadding length
  return bytes

/-- `StunErrorCodeAttribute::Read`. -/
def readErrorCode (length : U16) : Reader U8 StunValue := do
  if length < 4 then failure
  else
    let val ← readUInt32
    let reason ← readBytes (length.toNat - 4)
    consumePadding length
    return .errorCode ((val >>> 8 &&& 0x7).setWidth 8) ((val &&& 0xff).setWidth 8) reason

/-- `StunUInt16ListAttribute::Read`. -/
def readUInt16List (length : U16) : Reader U8 (List U16) := do
  if length.toNat % 2 ≠ 0 then failure
  else
    let types ← readUInt16.times (length.toNat / 2)
    consumePadding length
    return types

/-- `StunAttribute::Create` for a wire length, and the `Read` of what it creates; `none` for
`NULL`. The two integer classes do not look at the length. -/
def StunValue.create (valueType : StunAttributeValueType) (length : U16)
    (transactionId : List U8) : Option (Reader U8 StunValue) :=
  match valueType with
  | .address => some (do return .address (← readAddress length))
  | .xorAddress => some (do return .xorAddress (← readXorAddress length transactionId))
  | .uint32 => some (do return .uint32 (← readUInt32))
  | .uint64 => some (do return .uint64 (← readUInt64))
  | .byteString => some (do return .byteString (← readByteString length))
  | .errorCode => some (readErrorCode length)
  | .uint16List => some (do return .uint16List (← readUInt16List length))
  | .unknown => none

end Libjingle
