import Libjingle.Base.Base64
import Libjingle.Sdp.Description

/-!
# The SRTP filter (`session/media/srtpfilter.cc`)

The offer/answer state machine that keys the two SRTP sessions of a channel. What libsrtp answers
when a session is created is a parameter of the call that creates it.
-/

namespace Libjingle.Media

open Lib Sdp

/-! ## Sessions -/

def csAesCm128HmacSha1_80 : Text := "AES_CM_128_HMAC_SHA1_80".toList
def csAesCm128HmacSha1_32 : Text := "AES_CM_128_HMAC_SHA1_32".toList
def srtpMasterKeyLen : Nat := 30

/-- A suite and a key. -/
structure SrtpKey where
  cipherSuite : Text
  key : List U8
  deriving DecidableEq

/-- `SrtpSession`; `session` is `NULL` until it is keyed. -/
structure SrtpSession where
  session : Option SrtpKey
  deriving DecidableEq

def SrtpSession.new : SrtpSession := ⟨none⟩

/-- The cipher suites that `SetKey` knows. -/
def supportedSuite (cs : Text) : Bool := cs = csAesCm128HmacSha1_80 || cs = csAesCm128HmacSha1_32

/-- `SetKey`, behind `SetSend` and `SetRecv`; `created` tells whether libsrtp creates the session.
-/
def SrtpSession.setKey (s : SrtpSession) (cs : Text) (key : List U8) (created : Bool) :
    Option SrtpSession :=
  if s.session.isSome then none
  else if supportedSuite cs ∧ key.length = srtpMasterKeyLen ∧ created then some ⟨some ⟨cs, key⟩⟩
  else none

/-! ## The filter -/

/-- `ContentSource`. -/
inductive ContentSource where
  | csLocal
  | csRemote
  deriving DecidableEq

/-- The states of the negotiation. -/
inductive State where
  | init
  | sentOffer
  | receivedOffer
  | sentPrAnswerNoCrypto
  | receivedPrAnswerNoCrypto
  | active
  | sentUpdatedOffer
  | receivedUpdatedOffer
  | sentPrAnswer
  | receivedPrAnswer
  deriving DecidableEq

/-- The place of a state in the enumeration. -/
def State.rank : State → Nat
  | .init => 0
  | .sentOffer => 1
  | .receivedOffer => 2
  | .sentPrAnswerNoCrypto => 3
  | .receivedPrAnswerNoCrypto => 4
  | .active => 5
  | .sentUpdatedOffer => 6
  | .receivedUpdatedOffer => 7
  | .sentPrAnswer => 8
  | .receivedPrAnswer => 9

/-- `SrtpFilter`, without the sessions that only DTLS sets. -/
structure SrtpFilter where
  state : State
  offerParams : List CryptoParams
  sendSession : Option SrtpSession
  recvSession : Option SrtpSession
  deriving DecidableEq

/-- What libsrtp answers to the creation of the send and the receive session. -/
structure SrtpResults where
  send : Bool
  recv : Bool
  deriving DecidableEq

/-- `CryptoParams::Matches`. -/
def cryptoMatches (a b : CryptoParams) : Bool := a.tag = b.tag && a.cipherSuite = b.cipherSuite

/-- `ParseKeyParams`: the key behind `inline:`. -/
def parseKeyParams (keyParams : Text) : Option (List U8) :=
  if "inline:".toList.isPrefixOf keyParams then
    match Base64.decode Base64.doStrict (keyParams.drop 7) with
    | some key => if key.length = srtpMasterKeyLen then some key else none
    | none => none
  else none

namespace SrtpFilter

def new : SrtpFilter := ⟨.init, [], none, none⟩

/-- `IsActive`. -/
def isActive (f : SrtpFilter) : Bool := State.active.rank ≤ f.state.rank

/-- `ExpectOffer`. -/
def expectOffer (f : SrtpFilter) (source : ContentSource) : Bool :=
  match f.state with
  | .init | .active => true
  | .sentOffer | .sentUpdatedOffer => source = .csLocal
  | .receivedOffer | .receivedUpdatedOffer => source = .csRemote
  | _ => false

/-- `StoreParams`. -/
def storeParams (f : SrtpFilter) (params : List CryptoParams) (source : ContentSource) :
    SrtpFilter :=
  { f with
    offerParams := params
    state :=
      if f.state = .init then (if source = .csLocal then .sentOffer else .receivedOffer)
      else if source = .csLocal then .sentUpdatedOffer else .receivedUpdatedOffer }

/-- `SetOffer`. -/
def setOffer (f : SrtpFilter) (params : List CryptoParams) (source : ContentSource) :
    Bool × SrtpFilter :=
  if f.expectOffer source then (true, f.storeParams params source) else (false, f)

/-- `ExpectAnswer`. -/
def expectAnswer (f : SrtpFilter) (source : ContentSource) : Bool :=
  match f.state with
  | .sentOffer | .sentUpdatedOffer | .receivedPrAnswerNoCrypto | .receivedPrAnswer =>
    source = .csRemote
  | .receivedOffer | .receivedUpdatedOffer | .sentPrAnswerNoCrypto | .sentPrAnswer =>
    source = .csLocal
  | .init | .active => false

/-- `CreateSrtpSessions`: two sessions without keys. -/
def createSrtpSessions (f : SrtpFilter) : SrtpFilter :=
  { f with sendSession := some .new, recvSession := some .new }

/-- `NegotiateParams`: the offered parameters that the answer selects. -/
def negotiateParams (f : SrtpFilter) (answerParams : List CryptoParams) : Option CryptoParams :=
  match answerParams with
  | [answer] => f.offerParams.find? (cryptoMatches answer)
  | _ => none

/-- The parameters for the send and the receive session. -/
def sessionParams (f : SrtpFilter) (answerParams : List CryptoParams) (source : ContentSource) :
    Option (CryptoParams × CryptoParams) :=
  match f.negotiateParams answerParams, answerParams with
  | some selected, answer :: _ =>
    some (if source = .csRemote then (selected, answer) else (answer, selected))
  | _, _ => none

/-- `ApplyParams`: keys the two sessions. -/
def applyParams (f : SrtpFilter) (sendParams recvParams : CryptoParams) (results : SrtpResults) :
    Bool × SrtpFilter :=
  match parseKeyParams sendParams.keyParams, parseKeyParams recvParams.keyParams with
  | some sendKey, some recvKey =>
    let f := f.createSrtpSessions
    match SrtpSession.new.setKey sendParams.cipherSuite sendKey results.send with
    | none => (false, f)
    | some send =>
      let f := { f with sendSession := some send }
      match SrtpSession.new.setKey recvParams.cipherSuite recvKey results.recv with
      | none => (false, f)
      | some recv => (true, { f with recvSession := some recv })
  | _, _ => (false, f)

/-- `ResetParams`. -/
def resetParams (f : SrtpFilter) : SrtpFilter := { f with offerParams := [], state := .init }

/-- `DoSetAnswer`. -/
def doSetAnswer (f : SrtpFilter) (answerParams : List CryptoParams) (source : ContentSource)
    (final : Bool) (results : SrtpResults) : Bool × SrtpFilter :=
  if !f.expectAnswer source then (false, f)
  else if answerParams = [] then
    if final then (true, f.resetParams)
    else (true, { f with state :=
      if source = .csLocal then .sentPrAnswerNoCrypto else .receivedPrAnswerNoCrypto })
  else
    match f.sessionParams answerParams source with
    | none => (false, f)
    | some (sendParams, recvParams) =>
      match f.applyParams sendParams recvParams results with
      | (false, f) => (false, f)
      | (true, f) =>
        if final then (true, { f with offerParams := [], state := .active })
        else (true, { f with state :=
          if source = .csLocal then .sentPrAnswer else .receivedPrAnswer })

/-- `SetAnswer`. -/
def setAnswer (f : SrtpFilter) (answerParams : List CryptoParams) (source : ContentSource)
    (results : SrtpResults) : Bool × SrtpFilter :=
  f.doSetAnswer answerParams source true results

/-- `SetProvisionalAnswer`. -/
def setProvisionalAnswer (f : SrtpFilter) (answerParams : List CryptoParams)
    (source : ContentSource) (results : SrtpResults) : Bool × SrtpFilter :=
  f.doSetAnswer answerParams source false results

/-- What `ProtectRtp` and `UnprotectRtp` do with a session. -/
inductive Access where
  | refused
  | missing
  | unkeyed
  | keyed (key : SrtpKey)
  deriving DecidableEq

/-- The session behind an active filter. -/
def access (f : SrtpFilter) (session : Option SrtpSession) : Access :=
  if !f.isActive then .refused
  else
    match session with
    | none => .missing
    | some ⟨none⟩ => .unkeyed
    | some ⟨some key⟩ => .keyed key

/-- The session that `ProtectRtp` uses. -/
def protectRtp (f : SrtpFilter) : Access := f.access f.sendSession

/-- The session that `UnprotectRtp` uses. -/
def unprotectRtp (f : SrtpFilter) : Access := f.access f.recvSession

end SrtpFilter

end Libjingle.Media
