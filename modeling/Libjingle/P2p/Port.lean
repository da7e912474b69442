import Libjingle.Stun.Integrity

/-!
# Ports (`p2p/base/port.h`, `port.cc`): STUN on a port

What a `Port` makes of a STUN packet. `GetStunMessage` parses and authenticates it, and answers a
request it does not accept; `MaybeIceRoleConflict` compares roles and tiebreakers. A packet that is
sent is a result, and `SignalRoleConflict` is one of the cases of `RoleCheck`.
-/

namespace Libjingle

open Lib ByteBuffer

/-! ## Constants -/

/-- `IceProtocolType`. -/
inductive IceProtocol where
  | google
  | hybrid
  | rfc5245
  | xep0176
  deriving DecidableEq

inductive TransportRole where
  | controlling
  | controlled
  | unknown
  deriving DecidableEq

def stunBindingRequest : U16 := 0x0001
def stunBindingIndication : U16 := 0x0010
def stunBindingResponse : U16 := 0x0101
def stunBindingErrorResponse : U16 := 0x0111

def stunAttrUsername : U16 := 0x0006
def stunAttrErrorCode : U16 := 0x0009
def stunAttrMappedAddress : U16 := 0x0001
def stunAttrXorMappedAddress : U16 := 0x0020
def stunAttrPriority : U16 := 0x0024
def stunAttrUseCandidate : U16 := 0x0025
def stunAttrIceControlled : U16 := 0x8029
def stunAttrIceControlling : U16 := 0x802A
def stunAttrRetransmitCount : U16 := 0xFF00

structure StunError where
  code : Nat
  reason : String
  deriving DecidableEq

def stunErrorBadRequest : StunError := ⟨400, "Bad Request"⟩
def stunErrorUnauthorized : StunError := ⟨401, "Unauthorized"⟩
def stunErrorRoleConflict : StunError := ⟨487, "Role Conflict"⟩

def bytesOf (s : String) : List U8 := s.toList.map fun ch => BitVec.ofNat 8 ch.toNat

/-! ## Looking up attributes -/

namespace StunMessage

def getAttribute (m : StunMessage) (type : U16) : Option StunAttribute :=
  m.attrs.find? fun a => a.type == type

/-- `GetByteString`, with its bytes. -/
def getByteString (m : StunMessage) (type : U16) : Option (List U8) :=
  match m.getAttribute type with
  | some ⟨_, .byteString bytes⟩ => some bytes
  | _ => none

/-- `GetUInt32`, with its value. -/
def getUInt32 (m : StunMessage) (type : U16) : Option U32 :=
  match m.getAttribute type with
  | some ⟨_, .uint32 bits⟩ => some bits
  | _ => none

/-- `GetUInt64`, with its value. -/
def getUInt64 (m : StunMessage) (type : U16) : Option U64 :=
  match m.getAttribute type with
  | some ⟨_, .uint64 bits⟩ => some bits
  | _ => none

/-- `GetAddress`, with its address. -/
def getAddress (m : StunMessage) (type : U16) : Option SocketAddress :=
  match m.getAttribute type with
  | some ⟨_, .address addr⟩ => some addr
  | some ⟨_, .xorAddress addr⟩ => some addr
  | _ => none

def getErrorCode (m : StunMessage) : Option StunValue :=
  match m.getAttribute stunAttrErrorCode with
  | some ⟨_, .errorCode eclass number reason⟩ => some (.errorCode eclass number reason)
  | _ => none

/-- `AddAttribute` where the result is not looked at. -/
def withAttribute (m : StunMessage) (type : U16) (value : StunValue) : StunMessage :=
  (m.addAttribute ⟨type, value⟩).getD m

/-- `AddMessageIntegrity` where the result is not looked at. -/
def withMessageIntegrity (hmac : List U8 → List U8 → Digest) (m : StunMessage) (key : List U8) :
    StunMessage := (m.addMessageIntegrity hmac key).getD m

/-- `AddFingerprint` where the result is not looked at. -/
def withFingerprint (m : StunMessage) : StunMessage := m.addFingerprint.getD m

end StunMessage

/-! ## Lookups in built messages -/

namespace StunMessage

variable {m : StunMessage} {type t : U16}

variable {m' : StunMessage}

theorem getAttribute_addAttribute {a : StunAttribute} (h : m.addAttribute a = some m') :
    m'.getAttribute type = (m.getAttribute type).or (if a.type = type then some a else none) := by
  obtain ⟨-, rfl⟩ := addAttribute_eq_some.mp h
  unfold getAttribute
  simp only [List.find?_append]
  congr 1
  by_cases hat : a.type = type <;> simp [hat]

theorem getAttribute_withAttribute (value : StunValue)
    (hv : value.valueType = m.cls.getAttributeValueType t) :
    (m.withAttribute t value).getAttribute type =
      (m.getAttribute type).or (if t = type then some ⟨t, value⟩ else none) := by
  unfold withAttribute
  have h := addAttribute_eq_some (m := m) (a := ⟨t, value⟩) |>.mpr ⟨hv, rfl⟩
  rw [h]
  exact getAttribute_addAttribute h

theorem getAttribute_withAttribute_ne (value : StunValue) (h : t ≠ type) :
    (m.withAttribute t value).getAttribute type = m.getAttribute type := by
  unfold withAttribute addAttribute
  split
  · rfl
  · simp [getAttribute, List.find?_append, h]

@[simp] theorem withAttribute_cls (value : StunValue) :
    (m.withAttribute t value).cls = m.cls := by
  unfold withAttribute addAttribute
  split <;> rfl

@[simp] theorem withAttribute_type (value : StunValue) :
    (m.withAttribute t value).type = m.type := by
  unfold withAttribute addAttribute
  split <;> rfl

@[simp] theorem withAttribute_transactionId (value : StunValue) :
    (m.withAttribute t value).transactionId = m.transactionId := by
  unfold withAttribute addAttribute
  split <;> rfl

@[simp] theorem setTransactionID_type (m : StunMessage) (id : List U8) :
    ((m.setTransactionID id).getD m).type = m.type := by
  unfold setTransactionID
  split <;> rfl

theorem setTransactionID_transactionId (m : StunMessage) {id : List U8}
    (h : isValidTransactionId id = true) :
    ((m.setTransactionID id).getD m).transactionId = id := by
  unfold setTransactionID
  rw [if_pos h]
  rfl

@[simp] theorem setTransactionID_cls (m : StunMessage) (id : List U8) :
    ((m.setTransactionID id).getD m).cls = m.cls := by
  unfold setTransactionID
  split <;> rfl

@[simp] theorem setTransactionID_attrs (m : StunMessage) (id : List U8) :
    ((m.setTransactionID id).getD m).attrs = m.attrs := by
  unfold setTransactionID
  split <;> rfl

variable {hmac : List U8 → List U8 → Digest}

theorem addMessageIntegrity_fields {key : List U8} (h : m.addMessageIntegrity hmac key = some m') :
    m'.cls = m.cls ∧ m'.type = m.type ∧
      ∃ v, m'.attrs = m.attrs ++ [⟨stunAttrMessageIntegrity, v⟩] := by
  unfold addMessageIntegrity at h
  obtain ⟨m₁, h₁, h⟩ := Option.bind_eq_some_iff.mp h
  obtain ⟨-, rfl⟩ := addAttribute_eq_some.mp h₁
  obtain ⟨_, -, h⟩ := Option.bind_eq_some_iff.mp h
  obtain rfl := Option.some.inj h
  exact ⟨rfl, rfl, _, rfl⟩

theorem addFingerprint_fields (h : m.addFingerprint = some m') : m'.cls = m.cls ∧ m'.type = m.type ∧
      ∃ v, m'.attrs = m.attrs ++ [⟨stunAttrFingerprint, v⟩] := by
  unfold addFingerprint at h
  obtain ⟨m₁, h₁, h⟩ := Option.bind_eq_some_iff.mp h
  obtain ⟨-, rfl⟩ := addAttribute_eq_some.mp h₁
  obtain ⟨_, -, h⟩ := Option.bind_eq_some_iff.mp h
  obtain rfl := Option.some.inj h
  exact ⟨rfl, rfl, _, rfl⟩

@[simp] theorem withMessageIntegrity_transactionId (key : List U8) :
    (m.withMessageIntegrity hmac key).transactionId = m.transactionId := by
  unfold withMessageIntegrity
  cases h : m.addMessageIntegrity hmac key with
  | none => rfl
  | some m' =>
    unfold addMessageIntegrity at h
    obtain ⟨m₁, h₁, h⟩ := Option.bind_eq_some_iff.mp h
    obtain ⟨-, rfl⟩ := addAttribute_eq_some.mp h₁
    obtain ⟨_, -, h⟩ := Option.bind_eq_some_iff.mp h
    obtain rfl := Option.some.inj h
    rfl

@[simp] theorem withFingerprint_transactionId :
    m.withFingerprint.transactionId = m.transactionId := by
  unfold withFingerprint
  cases h : m.addFingerprint with
  | none => rfl
  | some m' =>
    unfold addFingerprint at h
    obtain ⟨m₁, h₁, h⟩ := Option.bind_eq_some_iff.mp h
    obtain ⟨-, rfl⟩ := addAttribute_eq_some.mp h₁
    obtain ⟨_, -, h⟩ := Option.bind_eq_some_iff.mp h
    obtain rfl := Option.some.inj h
    rfl

@[simp] theorem withMessageIntegrity_type (key : List U8) :
    (m.withMessageIntegrity hmac key).type = m.type := by
  unfold withMessageIntegrity
  cases h : m.addMessageIntegrity hmac key with
  | none => rfl
  | some m' => exact (addMessageIntegrity_fields h).2.1

@[simp] theorem withFingerprint_type : m.withFingerprint.type = m.type := by
  unfold withFingerprint
  cases h : m.addFingerprint with
  | none => rfl
  | some m' => exact (addFingerprint_fields h).2.1

theorem getAttribute_withMessageIntegrity (key : List U8) (h : type ≠ stunAttrMessageIntegrity) :
    (m.withMessageIntegrity hmac key).getAttribute type = m.getAttribute type := by
  unfold withMessageIntegrity
  cases hm : m.addMessageIntegrity hmac key with
  | none => rfl
  | some m' =>
    obtain ⟨-, -, v, hattrs⟩ := addMessageIntegrity_fields hm
    simp [getAttribute, hattrs, List.find?_append, Ne.symm h]

theorem getAttribute_withFingerprint (h : type ≠ stunAttrFingerprint) :
    m.withFingerprint.getAttribute type = m.getAttribute type := by
  unfold withFingerprint
  cases hm : m.addFingerprint with
  | none => rfl
  | some m' =>
    obtain ⟨-, -, v, hattrs⟩ := addFingerprint_fields hm
    simp [getAttribute, hattrs, List.find?_append, Ne.symm h]

end StunMessage

/-! ## The port -/

/-- What a `Port` reads when it handles STUN. -/
structure Port where
  iceProtocol : IceProtocol
  component : Nat
  iceUsernameFragment : List U8
  password : List U8
  role : TransportRole
  tiebreaker : U64
  sendRetransmitCountAttribute : Bool
  deriving DecidableEq

def base64Table : List U8 :=
  bytesOf "ABCDEFGHIJKLMNOPQRSTUVWXYZabcdefghijklmnopqrstuvwxyz0123456789+/"

/-- `GetNextBase64Char`; `none` for a byte outside of the table. -/
def getNextBase64Char (ch : U8) : Option U8 :=
  match base64Table.dropWhile (· != ch) with
  | [] => none
  | [_] => base64Table.head?
  | _ :: next :: _ => some next

def getRtcpUfragFromRtpUfrag (ufrag : List U8) : List U8 :=
  match ufrag.getLast? with
  | none => ufrag
  | some ch => ufrag.dropLast ++ [(getNextBase64Char ch).getD ch]

namespace Port

def iceCandidateComponentRtcp : Nat := 2

def usernameFragment (p : Port) : List U8 :=
  if p.iceProtocol = .google ∧ p.component = iceCandidateComponentRtcp then
    getRtcpUfragFromRtpUfrag p.iceUsernameFragment
  else p.iceUsernameFragment

/-- `ParseStunUsername`: the local and the remote fragment; `none` when it returns `false`. -/
def parseStunUsername (p : Port) (m : StunMessage) : Option (List U8 × List U8) :=
  match m.getByteString stunAttrUsername with
  | none => none
  | some username =>
    match p.iceProtocol with
    | .rfc5245 =>
      -- RFRAG:LFRAG
      match username.dropWhile (· != 0x3A) with
      | [] => none
      | _ :: remote => some (username.takeWhile (· != 0x3A), remote)
    | .google =>
      if username.length < p.usernameFragment.length then none
      else some (username.take p.usernameFragment.length, username.drop p.usernameFragment.length)
    | .hybrid | .xep0176 => some ([], [])

def createStunUsername (p : Port) (remoteUsername : List U8) : List U8 :=
  remoteUsername ++ (if p.iceProtocol = .rfc5245 then [0x3A] else []) ++ p.usernameFragment

variable (hmac : List U8 → List U8 → StunMessage.Digest)

/-- `SendBindingErrorResponse`: the message it sends. -/
def sendBindingErrorResponse (p : Port) (request : StunMessage) (e : StunError) : StunMessage :=
  let response := (StunMessage.new .stun).setType stunBindingErrorResponse
  let response := (response.setTransactionID request.transactionId).getD response
  match p.iceProtocol with
  | .rfc5245 =>
    let response := response.withAttribute stunAttrErrorCode
      (.ofCode e.code (bytesOf e.reason))
    -- Certain error cases don't get a MESSAGE-INTEGRITY.
    let response := if e.code ≠ 400 ∧ e.code ≠ 401 then
      response.withMessageIntegrity hmac p.password else response
    response.withFingerprint
  | .google =>
    -- The error code is written out incorrectly.
    let response := response.withAttribute stunAttrErrorCode
      (.errorCode (BitVec.ofNat 8 (e.code / 256)) (BitVec.ofNat 8 (e.code % 256))
        (bytesOf e.reason))
    match request.getByteString stunAttrUsername with
    | some username => response.withAttribute stunAttrUsername (.byteString username)
    | none => response
  | .hybrid | .xep0176 =>
    response.withAttribute stunAttrErrorCode (.errorCode 0 0 (bytesOf e.reason))

/-- `SendBindingResponse`: the message it sends to `addr`; `none` without a username. -/
def sendBindingResponse (p : Port) (request : StunMessage) (addr : SocketAddress) :
    Option StunMessage :=
  (request.getByteString stunAttrUsername).map fun username =>
    let response := (StunMessage.new .stun).setType stunBindingResponse
    let response := (response.setTransactionID request.transactionId).getD response
    -- Inherit the incoming retransmit value.
    let response := match request.getUInt32 stunAttrRetransmitCount with
      | some value => response.withAttribute stunAttrRetransmitCount (.uint32 value)
      | none => response
    match p.iceProtocol with
    | .rfc5245 =>
      ((response.withAttribute stunAttrXorMappedAddress (.xorAddress addr)).withMessageIntegrity
        hmac p.password).withFingerprint
    | .google =>
      (response.withAttribute stunAttrMappedAddress (.address addr)).withAttribute
        stunAttrUsername (.byteString username)
    | .hybrid | .xep0176 => response

/-- What `GetStunMessage` does with a packet. -/
inductive StunResult where
  /-- It returns `false`: not a STUN message. -/
  | notStun
  /-- It returns no message and has sent this error. -/
  | refused (request : StunMessage) (error : StunError)
  /-- It returns no message. -/
  | dropped
  /-- It returns this message and the remote username fragment. -/
  | message (msg : StunMessage) (remoteUfrag : List U8)
  deriving DecidableEq

/-- `GetStunMessage` of the packet `bytes`, with `mem` behind it. -/
def getStunMessage (p : Port) (bytes : List U8) (mem : Nat → U8) : StunResult :=
  -- In ICE mode, all STUN packets will have a valid fingerprint.
  if p.iceProtocol = .rfc5245 ∧
      ¬ StunMessage.validateFingerprint (StunMessage.view bytes mem) bytes.length then .notStun
  else match (StunMessage.new .ice).read bytes with
  | none => .notStun
  | some msg =>
    if msg.type = stunBindingRequest then
      -- Check for the presence of USERNAME and MESSAGE-INTEGRITY (if ICE) first.
      if msg.getByteString stunAttrUsername = none ∨
          p.iceProtocol = .rfc5245 ∧ msg.getByteString stunAttrMessageIntegrity = none then
        .refused msg stunErrorBadRequest
      else match p.parseStunUsername msg with
      | none => .refused msg stunErrorUnauthorized
      | some (localUfrag, remoteUfrag) =>
        if localUfrag ≠ p.usernameFragment then .refused msg stunErrorUnauthorized
        else if p.iceProtocol = .rfc5245 ∧
            ¬ StunMessage.validateMessageIntegrity hmac (StunMessage.view bytes mem) bytes.length
              p.password then .refused msg stunErrorUnauthorized
        else .message msg remoteUfrag
    else if msg.type = stunBindingResponse then .message msg []
    else if msg.type = stunBindingErrorResponse then
      if msg.getErrorCode = none then .dropped else .message msg []
    else if msg.type = stunBindingIndication then .message msg []
    else .dropped

/-! ## Role conflicts -/

/-- What `MaybeIceRoleConflict` does. -/
inductive RoleCheck where
  /-- It returns `true`. -/
  | ok
  /-- It signals the conflict and returns `true`. -/
  | signalled
  /-- It sends a 487 response and returns `false`. -/
  | refused
  /-- It runs into `ASSERT(false)` and returns `true`. -/
  | unexpected
  deriving DecidableEq

/-- The role and the tiebreaker a request gives for its sender; an ICE-CONTROLLED attribute
overrides an ICE-CONTROLLING one. -/
def remoteRole (m : StunMessage) : TransportRole × U64 :=
  match m.getUInt64 stunAttrIceControlled with
  | some value => (.controlled, value)
  | none =>
    match m.getUInt64 stunAttrIceControlling with
    | some value => (.controlling, value)
    | none => (.unknown, 0)

/-- The four outcomes of the role check. -/
def maybeIceRoleConflict (p : Port) (m : StunMessage) (remoteUfrag : List U8) : RoleCheck :=
  -- With our own fragment and tiebreaker this must be a loopback call.
  if p.usernameFragment = remoteUfrag ∧
      m.getUInt64 stunAttrIceControlling = some p.tiebreaker then .ok
  else
    let (remoteIceRole, remoteTiebreaker) := remoteRole m
    match p.role with
    | .controlling =>
      if remoteIceRole = .controlling then
        if remoteTiebreaker ≥ p.tiebreaker then .signalled else .refused
      else .ok
    | .controlled =>
      if remoteIceRole = .controlled then
        if remoteTiebreaker < p.tiebreaker then .signalled else .refused
      else .ok
    | .unknown => .unexpected

end Port

end Libjingle
