import Libjingle.Media.SrtpFilter

/-!
# Media channels (`session/media/channel.cc`, `session/media/rtcpmuxfilter.cc`)

The part of a `BaseChannel` that follows the negotiation: its two transport channels, the SRTP
filter, which DTLS can key as well, and the RTCP mux filter. What libsrtp, the media channel and the
session answer in a call is a parameter of that call.
-/

namespace Libjingle.Media

open Lib Sdp

/-! ## RTCP mux -/

/-- `RtcpMuxFilter::State`. -/
inductive MuxState where
  | init
  | receivedOffer
  | sentOffer
  | sentPrAnswer
  | receivedPrAnswer
  | active
  deriving DecidableEq

/-- Whether RTCP is sent on the RTP transport. -/
structure RtcpMuxFilter where
  state : MuxState
  offerEnable : Bool
  deriving DecidableEq

namespace RtcpMuxFilter

def new : RtcpMuxFilter := ⟨.init, false⟩

def isActive (f : RtcpMuxFilter) : Bool :=
  f.state = .sentPrAnswer || f.state = .receivedPrAnswer || f.state = .active

def expectOffer (f : RtcpMuxFilter) (offerEnable : Bool) (source : ContentSource) : Bool :=
  f.state = .init || (f.state = .active && offerEnable = f.offerEnable) ||
    (f.state = .sentOffer && source = .csLocal) || (f.state = .receivedOffer && source = .csRemote)

def expectAnswer (f : RtcpMuxFilter) (source : ContentSource) : Bool :=
  (f.state = .sentOffer && source = .csRemote) || (f.state = .receivedOffer && source = .csLocal) ||
    (f.state = .sentPrAnswer && source = .csLocal) ||
    (f.state = .receivedPrAnswer && source = .csRemote)

def setOffer (f : RtcpMuxFilter) (offerEnable : Bool) (source : ContentSource) :
    Bool × RtcpMuxFilter :=
  if f.expectOffer offerEnable source then
    (true, ⟨if source = .csLocal then .sentOffer else .receivedOffer, offerEnable⟩)
  else (false, f)

def setProvisionalAnswer (f : RtcpMuxFilter) (answerEnable : Bool) (source : ContentSource) :
    Bool × RtcpMuxFilter :=
  if !f.expectAnswer source then (false, f)
  else if f.offerEnable then
    if answerEnable then
      (true, { f with state := if source = .csRemote then .receivedPrAnswer else .sentPrAnswer })
    else (true, { f with state := if source = .csRemote then .sentOffer else .receivedOffer })
  else if answerEnable then (false, f)
  else (true, f)

def setAnswer (f : RtcpMuxFilter) (answerEnable : Bool) (source : ContentSource) :
    Bool × RtcpMuxFilter :=
  if !f.expectAnswer source then (false, f)
  else if f.offerEnable && answerEnable then (true, { f with state := .active })
  else if answerEnable then (false, f)
  else (true, { f with state := .init })

end RtcpMuxFilter

/-! ## The channel -/

/-- What `ExportKeyingMaterial` fills: two keys and two salts. -/
structure KeyingMaterial where
  bytes : List U8
  length : bytes.length = 60
  deriving DecidableEq

/-- `TransportChannel`, as its `BaseChannel` sees it. -/
structure TransportChannel where
  writable : Bool
  dtlsActive : Bool
  srtpCipher : Option Text
  keyingMaterial : Option KeyingMaterial
  deriving DecidableEq

inductive ContentAction where
  | caOffer
  | caPrAnswer
  | caAnswer
  | caUpdate
  deriving DecidableEq

/-- What others answer during a call: libsrtp to the sessions of an answer and of the two sets of
DTLS keys, the session whether it is the initiator, and the media channel to streams, extensions and
bandwidth. -/
structure Answers where
  negotiated : SrtpResults
  rtp : SrtpResults
  rtcp : SrtpResults
  initiator : Bool
  streams : Bool
  extensions : Bool
  bandwidth : Bool
  deriving DecidableEq

structure BaseChannel where
  transportChannel : TransportChannel
  rtcpTransportChannel : Option TransportChannel
  srtpFilter : SrtpFilter
  /-- `send_rtcp_session_` of the filter. -/
  sendRtcpSession : Option SrtpSession
  /-- `recv_rtcp_session_` of the filter. -/
  recvRtcpSession : Option SrtpSession
  rtcpMuxFilter : RtcpMuxFilter
  writable : Bool
  wasEverWritable : Bool
  dtlsKeyed : Bool
  secureRequired : Bool
  localContentDirection : MediaContentDirection
  remoteContentDirection : MediaContentDirection
  deriving DecidableEq

def SrtpFilter.setRtpParams (f : SrtpFilter) (cipher : Text) (sendKey recvKey : List U8)
    (results : SrtpResults) : Bool × SrtpFilter :=
  if f.state = .active then (false, f)
  else
    let f := f.createSrtpSessions
    match SrtpSession.new.setKey cipher sendKey results.send with
    | none => (false, f)
    | some send =>
      let f := { f with sendSession := some send }
      match SrtpSession.new.setKey cipher recvKey results.recv with
      | none => (false, f)
      | some recv => (true, { f with recvSession := some recv, state := .active })

namespace BaseChannel

variable (c : BaseChannel) (answers : Answers)

/-- The constructor and `Init`. -/
def init (transportChannel : TransportChannel) (rtcpTransportChannel : Option TransportChannel) :
    BaseChannel :=
  ⟨transportChannel, rtcpTransportChannel, .new, none, none, .new, false, false, false, false,
    .inactive, .inactive⟩

def setRtcpParams (cipher : Text) (sendKey recvKey : List U8) (results : SrtpResults) :
    Bool × BaseChannel :=
  if c.sendRtcpSession.isSome then (false, c)
  else
    match SrtpSession.new.setKey cipher sendKey results.send with
    | none => (false, { c with sendRtcpSession := some .new })
    | some send =>
      let c := { c with sendRtcpSession := some send }
      match SrtpSession.new.setKey cipher recvKey results.recv with
      | none => (false, { c with recvRtcpSession := some .new })
      | some recv => (true, { c with recvRtcpSession := some recv })

/-- `SetupDtlsSrtp` on one of the transport channels. -/
def setupDtlsSrtp (channel : TransportChannel) (rtcpChannel : Bool) : Bool × BaseChannel :=
  if !channel.dtlsActive then (true, c)
  else
    match channel.srtpCipher, channel.keyingMaterial with
    | some cipher, some material =>
      let bytes := material.bytes
      let clientWriteKey := bytes.take 16 ++ (bytes.drop 32).take 14
      let serverWriteKey := (bytes.drop 16).take 16 ++ (bytes.drop 46).take 14
      let sendKey := if answers.initiator then serverWriteKey else clientWriteKey
      let recvKey := if answers.initiator then clientWriteKey else serverWriteKey
      let (ret, c) :=
        if rtcpChannel then c.setRtcpParams cipher sendKey recvKey answers.rtcp
        else
          let (ret, filter) := c.srtpFilter.setRtpParams cipher sendKey recvKey answers.rtp
          (ret, { c with srtpFilter := filter })
      (ret, if ret then { c with dtlsKeyed := true } else c)
    | _, _ => (false, c)

/-- The DTLS keys of both transport channels; `false` is a session error. -/
def installKeys : Bool × BaseChannel :=
  match c.setupDtlsSrtp answers c.transportChannel false with
  | (false, c) => (false, c)
  | (true, c) =>
    match c.rtcpTransportChannel with
    | none => (true, c)
    | some channel => c.setupDtlsSrtp answers channel true

/-- `ChannelWritable_w`. -/
def channelWritable : BaseChannel :=
  if c.writable then c
  else
    match if c.wasEverWritable then (true, c) else c.installKeys answers with
    | (false, c) => c
    | (true, c) => { c with wasEverWritable := true, writable := true }

/-- `ChannelNotWritable_w`. -/
def channelNotWritable : BaseChannel := { c with writable := false }

/-- `OnWritableState`, when the transport channels are in new states. -/
def onWritableState (transportChannel rtcpTransportChannel : TransportChannel) : BaseChannel :=
  let c := { c with
    transportChannel := transportChannel
    rtcpTransportChannel := c.rtcpTransportChannel.map fun _ => rtcpTransportChannel }
  if c.transportChannel.writable && c.rtcpTransportChannel.all TransportChannel.writable then
    c.channelWritable answers
  else c.channelNotWritable

/-- `SetSrtp_w`. -/
def setSrtp (cryptos : List CryptoParams) (action : ContentAction) (source : ContentSource) :
    Bool × BaseChannel :=
  let filtered (p : Bool × SrtpFilter) := (p.1, { c with srtpFilter := p.2 })
  match action with
  | .caOffer => filtered (c.srtpFilter.setOffer cryptos source)
  | .caPrAnswer =>
    if c.transportChannel.dtlsActive then (true, c)
    else filtered (c.srtpFilter.setProvisionalAnswer cryptos source answers.negotiated)
  | .caAnswer =>
    if c.transportChannel.dtlsActive then (true, c)
    else filtered (c.srtpFilter.setAnswer cryptos source answers.negotiated)
  | .caUpdate => (true, c)

/-- What `SetRtcpMux_w` asks the filter. -/
def muxResult (enable : Bool) (action : ContentAction) (source : ContentSource) :
    Bool × RtcpMuxFilter :=
  match action with
  | .caOffer => c.rtcpMuxFilter.setOffer enable source
  | .caPrAnswer => c.rtcpMuxFilter.setProvisionalAnswer enable source
  | .caAnswer => c.rtcpMuxFilter.setAnswer enable source
  | .caUpdate => (true, c.rtcpMuxFilter)

/-- `SetRtcpMux_w`. -/
def setRtcpMux (enable : Bool) (action : ContentAction) (source : ContentSource) :
    Bool × BaseChannel :=
  let (ret, filter) := c.muxResult enable action source
  let c := { c with rtcpMuxFilter := filter }
  -- a final answer closes down the RTCP transport
  let c :=
    if action = .caAnswer ∧ ret ∧ filter.isActive then { c with rtcpTransportChannel := none }
    else c
  (ret,
    if ret ∧ filter.isActive ∧ c.transportChannel.writable then c.channelWritable answers else c)

/-- The part that `SetBaseLocalContent_w` and `SetBaseRemoteContent_w` have in common. -/
def setBaseContent (content : MediaContentDescription) (action : ContentAction)
    (source : ContentSource) : Bool × BaseChannel :=
  let (srtp, c) := c.setSrtp answers content.cryptos action source
  let (mux, c) := c.setRtcpMux answers content.rtcpMux action source
  (answers.streams && srtp && mux && (content.rtpHeaderExtensions = [] || answers.extensions), c)

/-- `SetBaseLocalContent_w`. -/
def setBaseLocalContent (content : MediaContentDescription) (action : ContentAction) :
    Bool × BaseChannel :=
  let c := { c with secureRequired := content.cryptoRequired }
  let (ret, c) := c.setBaseContent answers content action .csLocal
  (ret, { c with localContentDirection := content.direction })

/-- `SetBaseRemoteContent_w`. -/
def setBaseRemoteContent (content : MediaContentDescription) (action : ContentAction) :
    Bool × BaseChannel :=
  let (ret, c) := c.setBaseContent answers content action .csRemote
  (ret && (content.bandwidth = kAutoBandwidth || answers.bandwidth),
    { c with remoteContentDirection := content.direction })

/-- The channel that `SendPacket` selects. -/
def sendChannel (rtcp : Bool) : Option TransportChannel :=
  if !rtcp || c.rtcpMuxFilter.isActive then some c.transportChannel else c.rtcpTransportChannel

end BaseChannel

/-! ## Runs -/

inductive ChannelEvent where
  | content (source : ContentSource) (action : ContentAction) (content : MediaContentDescription)
  | writableState (transportChannel rtcpTransportChannel : TransportChannel)
  deriving DecidableEq

namespace BaseChannel

def step (c : BaseChannel) : ChannelEvent × Answers → BaseChannel
  | (.content .csLocal action content, answers) => (c.setBaseLocalContent answers content action).2
  | (.content .csRemote action content, answers) =>
    (c.setBaseRemoteContent answers content action).2
  | (.writableState transportChannel rtcpTransportChannel, answers) =>
    c.onWritableState answers transportChannel rtcpTransportChannel

/-- The states before and after each event. -/
def states (c : BaseChannel) : List (ChannelEvent × Answers) → List BaseChannel
  | [] => [c]
  | e :: events => c :: (c.step e).states events

end BaseChannel

end Libjingle.Media
