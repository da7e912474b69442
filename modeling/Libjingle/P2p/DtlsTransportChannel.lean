import Libjingle.Lib.Text

/-!
# `DtlsTransportChannelWrapper` (`p2p/base/dtlstransportchannel.cc`)

A transport channel over another one. With a local identity and the fingerprint of the other side
an SSL stream adapter does the handshake and carries the packets, except those of SRTP; without
them the packets of the underlying channel are passed on.

* The SSL stack is a parameter (`SslImplementation`) for what it accepts, and the environment for
  what it signals and whether its calls succeed.
* `channel_` stands for the flags of the underlying channel, which tells the wrapper of their
  changes. Its `Reset` clears both, as in `p2ptransportchannel.cc` and `rawtransportchannel.cc`.
* A step has no result when a null pointer is used: `local_identity_` in `SetupDtls`, `dtls_` and
  `downward_` elsewhere. `downward_` is set with `dtls_`.
* The packets that the adapter itself makes go down as records of the protocol; `written` is what
  it is handed.
-/

namespace Libjingle

open Lib

inductive SslRole
  | client
  | server
deriving DecidableEq

/-- `SSLIdentity`; only whether there is one matters. -/
abbrev SslIdentity := Text

/-- An `SSLStreamAdapter`, with what it was given, and whether `StartSSLWithPeer` was called. -/
structure SslStreamAdapter where
  identity : SslIdentity
  role : SslRole
  digest_algorithm : Text
  digest : List U8
  srtp_ciphers : List Text
  started : Bool
deriving DecidableEq

/-- The SSL library: whether there is one, and what `SetPeerCertificateDigest` and
`SetDtlsSrtpCiphers` accept. -/
structure SslImplementation where
  available : Bool
  acceptsDigest : Text → List U8 → Bool
  acceptsCiphers : List Text → Bool

/-- The flags of a `TransportChannel`. -/
structure TransportChannelFlags where
  readable : Bool
  writable : Bool
deriving DecidableEq

namespace DtlsTransportChannelWrapper

inductive State
  | none
  | offered
  | accepted
  | started
  | opened
  | closed
deriving DecidableEq

def pfSrtpBypass : U32 := 1

def kDtlsRecordHeaderLen : Nat := 13
def kMinRtpPacketLen : Nat := 12

end DtlsTransportChannelWrapper

open DtlsTransportChannelWrapper

structure DtlsTransportChannelWrapper where
  channel_ : TransportChannelFlags
  readable_ : Bool
  writable_ : Bool
  dtls_state_ : State
  local_identity_ : Option SslIdentity
  dtls_role_ : SslRole
  remote_fingerprint_algorithm_ : Text
  remote_fingerprint_value_ : List U8
  srtp_ciphers_ : List Text
  dtls_ : Option SslStreamAdapter
deriving DecidableEq

namespace DtlsTransportChannelWrapper

/-- The constructor, over a channel that is new as well. -/
def new : DtlsTransportChannelWrapper :=
  { channel_ := ⟨false, false⟩
    readable_ := false
    writable_ := false
    dtls_state_ := .none
    local_identity_ := none
    dtls_role_ := .client
    remote_fingerprint_algorithm_ := []
    remote_fingerprint_value_ := []
    srtp_ciphers_ := []
    dtls_ := none }

/-- What goes down to the channel below or to the adapter, and up to the listeners. -/
inductive Output
  | connect
  | sent (data : List U8)
  | written (data : List U8)
  | received (data : List U8)
  | readPacket (data : List U8) (flags : U32)
deriving DecidableEq

/-! ## Packets -/

def isDtlsPacket (data : List U8) : Bool :=
  data.length ≥ kDtlsRecordHeaderLen && (data.headD 0 > 19 && data.headD 0 < 64)

def isRtpPacket (data : List U8) : Bool :=
  data.length ≥ kMinRtpPacketLen && data.headD 0 &&& 0xC0 = 0x80

/-- The loop of `HandleDtlsPacket`: a packet is made up of whole records. -/
def wholeRecords (data : List U8) : Bool :=
  if data = [] then true
  else if data.length < kDtlsRecordHeaderLen then false
  else
    let record_len := (data.getD 11 0).toNat * 256 + (data.getD 12 0).toNat
    if record_len + kDtlsRecordHeaderLen > data.length then false
    else wholeRecords (data.drop (record_len + kDtlsRecordHeaderLen))
termination_by data.length
decreasing_by
  have hheader : 0 < kDtlsRecordHeaderLen := by decide
  rw [List.length_drop]
  omega

variable (ssl : SslImplementation)

/-! ## Setting up -/

/-- `SetupDtls`, and whether it succeeds. A missing identity is dereferenced. -/
def setupDtls (s : DtlsTransportChannelWrapper) : Option (DtlsTransportChannelWrapper × Bool) :=
  if ssl.available = false then some ({ s with dtls_ := none }, false)
  else
    s.local_identity_.map fun identity =>
      let dtls : SslStreamAdapter := ⟨identity, s.dtls_role_, [], [], [], false⟩
      if ssl.acceptsDigest s.remote_fingerprint_algorithm_ s.remote_fingerprint_value_ then
        let dtls := { dtls with
          digest_algorithm := s.remote_fingerprint_algorithm_
          digest := s.remote_fingerprint_value_ }
        if s.srtp_ciphers_ ≠ [] then
          if ssl.acceptsCiphers s.srtp_ciphers_ then
            ({ s with dtls_ := some { dtls with srtp_ciphers := s.srtp_ciphers_ } }, true)
          else ({ s with dtls_ := some dtls }, false)
        else ({ s with dtls_ := some dtls }, true)
      else ({ s with dtls_ := some dtls }, false)

/-- `MaybeStartDtls`, where `StartSSLWithPeer` returns `start`. -/
def maybeStartDtls (s : DtlsTransportChannelWrapper) (start : Int) :
    Option DtlsTransportChannelWrapper :=
  if s.channel_.writable then
    s.dtls_.map fun dtls =>
      let s := { s with dtls_ := some { dtls with started := true } }
      if start ≠ 0 then { s with dtls_state_ := .closed } else { s with dtls_state_ := .started }
  else some s

/-! ## The channel below -/

def onReadableState (s : DtlsTransportChannelWrapper) : DtlsTransportChannelWrapper :=
  if s.dtls_state_ = .none ∨ s.dtls_state_ = .opened then
    { s with readable_ := s.channel_.readable }
  else s

def onWritableState (s : DtlsTransportChannelWrapper) (start : Int) :
    Option DtlsTransportChannelWrapper :=
  match s.dtls_state_ with
  | .none | .opened => some { s with writable_ := s.channel_.writable }
  | .accepted => s.maybeStartDtls start
  | .offered | .started | .closed => some s

/-- `set_readable` of the channel below. -/
def channelReadable (s : DtlsTransportChannelWrapper) (readable : Bool) :
    DtlsTransportChannelWrapper :=
  if s.channel_.readable ≠ readable then
    { s with channel_ := { s.channel_ with readable := readable } }.onReadableState
  else s

/-- `set_writable` of the channel below. -/
def channelWritable (s : DtlsTransportChannelWrapper) (writable : Bool) (start : Int) :
    Option DtlsTransportChannelWrapper :=
  if s.channel_.writable ≠ writable then
    { s with channel_ := { s.channel_ with writable := writable } }.onWritableState start
  else some s

def onReadPacket (s : DtlsTransportChannelWrapper) (data : List U8) : Option (List Output) :=
  match s.dtls_state_ with
  | .none => some [.readPacket data 0]
  | .offered | .accepted | .closed => some []
  | .started | .opened =>
    if isDtlsPacket data then
      if wholeRecords data then s.dtls_.map fun _ => [.received data] else some []
    else if s.dtls_state_ ≠ .opened then some []
    else if isRtpPacket data then some [.readPacket data pfSrtpBypass]
    else some []

/-! ## Calls -/

def reset (s : DtlsTransportChannelWrapper) : Option DtlsTransportChannelWrapper :=
  ((s.channelReadable false).channelWritable false 0).bind fun s =>
    (setupDtls ssl { s with writable_ := false, readable_ := false }).map fun r =>
      if r.2 then { r.1 with dtls_state_ := .accepted } else { r.1 with dtls_state_ := .closed }

def setLocalIdentity (s : DtlsTransportChannelWrapper) (identity : Option SslIdentity) :
    DtlsTransportChannelWrapper × Bool :=
  if s.dtls_state_ ≠ .none then (s, false)
  else
    match identity with
    | some identity => ({ s with local_identity_ := some identity, dtls_state_ := .offered }, true)
    | none => (s, true)

def setRole (s : DtlsTransportChannelWrapper) (controlling : Bool) : DtlsTransportChannelWrapper :=
  { s with dtls_role_ := if controlling then .server else .client }

def setRemoteFingerprint (s : DtlsTransportChannelWrapper) (digest_alg : Text) (digest : List U8) :
    Option (DtlsTransportChannelWrapper × Bool) :=
  if (s.dtls_state_ ≠ .none ∧ s.dtls_state_ ≠ .offered) ∨
      (s.dtls_state_ = .none ∧ digest_alg ≠ []) then some (s, false)
  else if digest_alg = [] then some ({ s with dtls_state_ := .none }, true)
  else
    (setupDtls ssl { s with
      remote_fingerprint_value_ := digest
      remote_fingerprint_algorithm_ := digest_alg }).map fun r =>
      if r.2 then ({ r.1 with dtls_state_ := .accepted }, true)
      else ({ r.1 with dtls_state_ := .closed }, false)

def setSrtpCiphers (s : DtlsTransportChannelWrapper) (ciphers : List Text) :
    DtlsTransportChannelWrapper × Bool :=
  if s.dtls_state_ ≠ .none ∧ s.dtls_state_ ≠ .offered ∧ s.dtls_state_ ≠ .accepted then (s, false)
  else ({ s with srtp_ciphers_ := ciphers }, true)

/-- `SendPacket`, where the channel below returns `result` and `WriteAll` succeeds or not. -/
def sendPacket (s : DtlsTransportChannelWrapper) (data : List U8) (flags : U32) (result : Int)
    (writeAll : Bool) : Option (Int × List Output) :=
  match s.dtls_state_ with
  | .offered | .started | .accepted | .closed => some (-1, [])
  | .opened =>
    if flags &&& pfSrtpBypass ≠ 0 then
      if isRtpPacket data then some (result, [.sent data]) else some (0, [])
    else
      s.dtls_.map fun _ =>
        (if writeAll then (data.length : Int) else -1, [.written data])
  | .none => some (result, [.sent data])

structure DtlsSignal where
  seOpen : Bool
  seRead : Bool
  seClose : Bool
deriving DecidableEq

/-- `OnDtlsEvent`, where `GetState` is `SS_OPEN` or not and `Read` yields data or not. -/
def onDtlsEvent (s : DtlsTransportChannelWrapper) (sig : DtlsSignal) (isOpen : Bool)
    (read : Option (List U8)) : DtlsTransportChannelWrapper × List Output :=
  let s := if sig.seOpen ∧ isOpen then
    { s with dtls_state_ := .opened, readable_ := true, writable_ := true } else s
  let packets := if sig.seRead then read.toList.map fun data => .readPacket data 0 else []
  let s := if sig.seClose then
    { s with readable_ := false, writable_ := false, dtls_state_ := .closed } else s
  (s, packets)

/-! ## Events -/

/-- The calls and events of a wrapper. -/
inductive Event
  | connect
  | reset
  | setRole (controlling : Bool)
  | setLocalIdentity (identity : Option SslIdentity)
  | setRemoteFingerprint (digest_alg : Text) (digest : List U8)
  | setSrtpCiphers (ciphers : List Text)
  | channelReadable (readable : Bool)
  | channelWritable (writable : Bool) (start : Int)
  | readPacket (data : List U8)
  | dtlsEvent (sig : DtlsSignal) (isOpen : Bool) (read : Option (List U8))
  | sendPacket (data : List U8) (flags : U32) (result : Int) (writeAll : Bool)
deriving DecidableEq

/-- The wrapper after a call or an event and what goes down or up, unless a null pointer is used. -/
def step (s : DtlsTransportChannelWrapper) : Event →
    Option (DtlsTransportChannelWrapper × List Output)
  | .connect => some (s, [.connect])
  | .reset => (s.reset ssl).map fun s => (s, [])
  | .setRole controlling => some (s.setRole controlling, [])
  | .setLocalIdentity identity => some ((s.setLocalIdentity identity).1, [])
  | .setRemoteFingerprint alg digest =>
    (s.setRemoteFingerprint ssl alg digest).map fun r => (r.1, [])
  | .setSrtpCiphers ciphers => some ((s.setSrtpCiphers ciphers).1, [])
  | .channelReadable readable => some (s.channelReadable readable, [])
  | .channelWritable writable start => (s.channelWritable writable start).map fun s => (s, [])
  | .readPacket data => (s.onReadPacket data).map fun outputs => (s, outputs)
  | .dtlsEvent sig isOpen read => some (s.onDtlsEvent sig isOpen read)
  | .sendPacket data flags result writeAll =>
    (s.sendPacket data flags result writeAll).map fun r => (s, r.2)

/-! ## What the helpers do -/

variable {ssl} {s s' : DtlsTransportChannelWrapper}

theorem setupDtls_eq_none_iff :
    setupDtls ssl s = none ↔ ssl.available = true ∧ s.local_identity_ = none := by
  unfold setupDtls
  cases ssl.available with
  | false => simp
  | true => simp

/-- `SetupDtls` makes an adapter that is not started. It succeeds only with an identity and a
fingerprint that the adapter accepts. -/
theorem setupDtls_eq_some {ok : Bool} (h : setupDtls ssl s = some (s', ok)) :
    ∃ dtls, s' = { s with dtls_ := dtls } ∧
      (∀ a ∈ dtls, a.started = false ∧ s.local_identity_ ≠ none) ∧
      (ok = true → dtls ≠ none ∧
        ssl.acceptsDigest s.remote_fingerprint_algorithm_ s.remote_fingerprint_value_ = true) := by
  unfold setupDtls at h
  split at h
  · obtain ⟨rfl, rfl⟩ := Prod.mk.inj (Option.some.inj h)
    exact ⟨none, rfl, fun a ha => absurd ha (Option.not_mem_none a),
      fun hok => (Bool.false_ne_true hok).elim⟩
  obtain ⟨identity, hidentity, heq⟩ := Option.map_eq_some_iff.mp h
  have hne : s.local_identity_ ≠ none := by
    rw [hidentity]
    exact Option.some_ne_none identity
  have hmade : ∀ a : SslStreamAdapter, a.started = false →
      ∀ a' ∈ some a, a'.started = false ∧ s.local_identity_ ≠ none := by
    intro a ha a' ha'
    obtain rfl := Option.mem_some.mp ha'
    exact ⟨ha, hne⟩
  split at heq
  · rename_i haccepts
    split at heq
    · split at heq
      · obtain ⟨rfl, rfl⟩ := Prod.mk.inj heq
        exact ⟨_, rfl, hmade _ rfl, fun _ => ⟨Option.some_ne_none _, haccepts⟩⟩
      · obtain ⟨rfl, rfl⟩ := Prod.mk.inj heq
        exact ⟨_, rfl, hmade _ rfl, fun hok => (Bool.false_ne_true hok).elim⟩
    · obtain ⟨rfl, rfl⟩ := Prod.mk.inj heq
      exact ⟨_, rfl, hmade _ rfl, fun _ => ⟨Option.some_ne_none _, haccepts⟩⟩
  · obtain ⟨rfl, rfl⟩ := Prod.mk.inj heq
    exact ⟨_, rfl, hmade _ rfl, fun hok => (Bool.false_ne_true hok).elim⟩

/-- The cases of `OnWritableState`. -/
theorem onWritableState_eq (s : DtlsTransportChannelWrapper) (start : Int) :
    s.onWritableState start =
      if s.dtls_state_ = .none ∨ s.dtls_state_ = .opened then
        some { s with writable_ := s.channel_.writable }
      else if s.dtls_state_ = .accepted then s.maybeStartDtls start
      else some s := by
  unfold onWritableState
  cases hstate : s.dtls_state_ <;> rfl

/-- `Reset` clears the flags of both channels, in whatever state, and sets up DTLS. -/
theorem reset_eq (s : DtlsTransportChannelWrapper) : s.reset ssl =
    (setupDtls ssl
      { s with channel_ := ⟨false, false⟩, readable_ := false, writable_ := false }).map fun r =>
        if r.2 then { r.1 with dtls_state_ := .accepted }
        else { r.1 with dtls_state_ := .closed } := by
  have hcleared : ∃ s' : DtlsTransportChannelWrapper,
      (s.channelReadable false).channelWritable false 0 = some s' ∧
        { s' with writable_ := false, readable_ := false } =
          { s with channel_ := ⟨false, false⟩, readable_ := false, writable_ := false } := by
    obtain ⟨⟨readable, writable⟩, readable_, writable_, state, identity, role, alg, value, ciphers,
      dtls⟩ := s
    cases readable <;> cases writable <;> cases state <;> exact ⟨_, rfl, rfl⟩
  obtain ⟨s', hs', hflags⟩ := hcleared
  rw [reset, hs', Option.bind_some, hflags]

end DtlsTransportChannelWrapper

end Libjingle
