import Libjingle.Media.SessionFactory

/-!
# The session of a peer connection (`app/webrtc/webrtcsession.cc`, `p2p/base/session.cc`)

A `WebRtcSession` with what it keeps of its `BaseSession`: the descriptions of both levels, the
state, the error, the media channels, and the candidates of the other side. What the channel
manager, the transports and the media channels answer in a call, and the errors that they report
meanwhile, are a parameter of the call. The ICE connection state, the transports and the tracks
are not part of it: no decision depends on them.

A call that would follow a null pointer has no result.
-/

namespace Libjingle.Webrtc

open Lib Sdp Media

/-! ## Data -/

/-- `BaseSession::State`, as far as a `WebRtcSession` gets. -/
inductive SessionState where
  | init
  | sentInitiate
  | receivedInitiate
  | sentPrAccept
  | sentAccept
  | receivedPrAccept
  | receivedAccept
  | inProgress
  deriving DecidableEq

/-- `BaseSession::Error` without `ERROR_NONE`. -/
inductive SessionError where
  | time
  | response
  | network
  | content
  | transport
  deriving DecidableEq

/-- `BaseSession::Action`. -/
inductive Action where
  | kOffer
  | kPrAnswer
  | kAnswer
  deriving DecidableEq

/-- A `JsepSessionDescription` with its type. -/
structure TypedDescription where
  type : Text
  jsep : JsepSessionDescription
  deriving DecidableEq

/-- The steps of a call in which a channel or a transport may report an error to the session. -/
inductive Stage where
  | create (type : MediaType)
  | pushdown
  | state
  | candidates
  deriving DecidableEq

/-- What others answer during a call: the channel manager, whether it creates a channel, and the
transports, whether they take their descriptions. -/
structure Replies where
  creates : MediaType → Bool
  pushesDown : Bool
  error : Stage → Option SessionError

/-- Why a description is not taken. -/
inductive Failure where
  | invalidSdp
  | badState (type : Text) (state : SessionState)
  | sdpWithoutCrypto
  | mlineMismatch
  | createChannelFailed
  | updateStateFailed
  | invalidCandidates
  | sessionError (error : SessionError)
  deriving DecidableEq

/-- What the checks of a description come to. -/
inductive Check where
  | passes
  | fails (failure : Failure)
  /-- A null pointer is followed. -/
  | crashes
  deriving DecidableEq

/-- `WebRtcSession`. -/
structure WebRtcSession where
  state : SessionState
  error : Option SessionError
  initiator : Bool
  /-- `local_description_` of the `BaseSession`. -/
  localDescription : Option SessionDescription
  /-- `remote_description_` of the `BaseSession`. -/
  remoteDescription : Option SessionDescription
  /-- `session_desc_factory_`. -/
  factory : SessionFactory
  allowRtpDataEngine : Bool
  localDesc : Option TypedDescription
  remoteDesc : Option TypedDescription
  /-- The content names of `voice_channel_`, `video_channel_` and `data_channel_`. -/
  channels : MediaType → Option Text
  savedCandidates : List JsepIceCandidate
  iceRestartLatch : Bool
  sessionId : Text
  sessionVersion : Nat
  /-- The calls of `BaseSession::OnRemoteCandidates`. -/
  submitted : List (Text × Candidate)

/-! ## Types of descriptions -/

/-- `SessionDescriptionInterface::kOffer`. -/
def kOfferType : Text := "offer".toList
/-- `SessionDescriptionInterface::kPrAnswer`. -/
def kPrAnswerType : Text := "pranswer".toList
/-- `SessionDescriptionInterface::kAnswer`. -/
def kAnswerType : Text := "answer".toList

/-- `GetAction`. -/
def getAction (type : Text) : Action :=
  if type = kOfferType then .kOffer
  else if type = kPrAnswerType then .kPrAnswer
  else if type = kAnswerType then .kAnswer
  else .kOffer

/-! ## Checks -/

/-- `VerifyMediaDescriptions`. -/
def verifyMediaDescriptions (answer offer : SessionDescription) : Bool :=
  offer.contents.map ContentInfo.name = answer.contents.map ContentInfo.name

/-- `VerifyCrypto`. -/
def verifyCrypto (d : SessionDescription) : Bool :=
  d.contents.all fun c => c.rejected ||
    match d.getTransportInfoByName c.name with
    | none => false
    | some t => c.description.cryptos ≠ [] || t.description.identityFingerprint.isSome

/-- `ExpectSetLocalDescription`. -/
def expectSetLocalDescription : Action → SessionState → Bool
  | .kOffer, state => state = .init || state = .sentInitiate || state = .receivedAccept ||
      state = .sentAccept || state = .inProgress
  | .kAnswer, state => state = .receivedInitiate || state = .sentPrAccept
  | .kPrAnswer, state => state = .receivedInitiate || state = .sentPrAccept

/-- `ExpectSetRemoteDescription`. -/
def expectSetRemoteDescription : Action → SessionState → Bool
  | .kOffer, state => state = .init || state = .receivedInitiate || state = .receivedAccept ||
      state = .sentAccept || state = .inProgress
  | .kAnswer, state => state = .sentInitiate || state = .receivedPrAccept
  | .kPrAnswer, state => state = .sentInitiate || state = .receivedPrAccept

/-- `ValidStreams`: no id is used twice. -/
def validStreams (streams : List StreamOptions) : Bool := (streams.map StreamOptions.name).Nodup

/-! ## Candidates of descriptions -/

/-- `AddCandidate`: what it returns. -/
def addsCandidate (d : JsepSessionDescription) (c : JsepIceCandidate) : Bool :=
  if c.sdpMlineIndex < 0 then false
  else
    match d.getMediasectionIndex c with
    | none => false
    | some i =>
      match d.description.contents[i]?, d.candidates[i]? with
      | some content, some added =>
        hasCandidate added c || (d.description.getTransportInfoByName content.name).isSome
      | _, _ => false

/-- The candidates of a section. -/
def sectionCandidates (d : JsepSessionDescription) (m : Nat) : List JsepIceCandidate :=
  d.candidates[m]?.getD []

/-- A candidate of one description is copied to a section of another one. -/
def copyCandidate (m : Nat) (dest : JsepSessionDescription) (c : JsepIceCandidate) :
    JsepSessionDescription :=
  if hasCandidate (sectionCandidates dest m) c then dest else dest.addCandidate c

/-- `CopyCandidatesFromSessionDescription`. -/
def copyCandidatesFromSessionDescription (source : Option TypedDescription)
    (dest : JsepSessionDescription) : JsepSessionDescription :=
  match source with
  | none => dest
  | some source =>
    (List.range (min source.jsep.candidates.length dest.candidates.length)).foldl
      (fun dest m => (sectionCandidates source.jsep m).foldl (copyCandidate m) dest) dest

namespace WebRtcSession

variable (s : WebRtcSession) (replies : Replies)

/-- The constructor and `Initialize`. -/
def new (factory : SessionFactory) (allowRtpDataEngine : Bool) (sessionId : Text) : WebRtcSession :=
  ⟨.init, none, false, none, none, factory, allowRtpDataEngine, none, none, fun _ => none, [],
    false, sessionId, 2, []⟩

/-- `SetError`, when there is one. -/
def setError (error : Option SessionError) : WebRtcSession := { s with error := error.or s.error }

/-! ## Channels -/

/-- The content for which a channel of a kind has to be created. -/
def missing (d : SessionDescription) (type : MediaType) : Option ContentInfo :=
  (d.getFirstMediaContent type).filter fun c =>
    !c.rejected && (s.channels type).isNone && (type ≠ .data || s.allowRtpDataEngine)

/-- `CreateVoiceChannel`, `CreateVideoChannel` and `CreateDataChannel`, when there is need. -/
def createChannel (d : SessionDescription) (type : MediaType) : Bool × WebRtcSession :=
  match s.missing d type with
  | none => (true, s)
  | some content =>
    let s := s.setError (replies.error (.create type))
    if replies.creates type then
      (true, { s with channels := Function.update s.channels type (some content.name) })
    else (false, s)

/-- `CreateChannels`, for some kinds of media. -/
def createChannelsOf (d : SessionDescription) :
    List MediaType → WebRtcSession → Bool × WebRtcSession
  | [], s => (true, s)
  | type :: types, s =>
    match s.createChannel replies d type with
    | (false, s) => (false, s)
    | (true, s) => createChannelsOf d types s

/-- `CreateChannels`. -/
def createChannels (d : SessionDescription) : Bool × WebRtcSession :=
  createChannelsOf replies d [.audio, .video, .data] s

def unused (d : SessionDescription) (type : MediaType) : Bool :=
  (d.getFirstMediaContent type).all ContentInfo.rejected

/-- `RemoveUnusedChannelsAndTransports`. -/
def removeUnusedChannelsAndTransports (d : SessionDescription) : WebRtcSession :=
  { s with channels := fun type => if unused d type then none else s.channels type }

/-! ## States -/

/-- The state that an applied description leads to. -/
def nextState : Action → ContentSource → SessionState
  | .kOffer, .csLocal => .sentInitiate
  | .kOffer, .csRemote => .receivedInitiate
  | .kPrAnswer, .csLocal => .sentPrAccept
  | .kPrAnswer, .csRemote => .receivedPrAccept
  | .kAnswer, .csLocal => .sentAccept
  | .kAnswer, .csRemote => .receivedAccept

/-- `UpdateSessionState`. -/
def updateSessionState (action : Action) (source : ContentSource) (d : SessionDescription) :
    Bool × WebRtcSession :=
  let s := if action = .kAnswer then s.removeUnusedChannelsAndTransports d else s
  let s := s.setError (replies.error .pushdown)
  if !replies.pushesDown then (false, s)
  else
    let s := { s with state := nextState action source }.setError (replies.error .state)
    (s.error = none, s)

/-! ## Candidates of the other side -/

/-- The content that `UseCandidate` finds for an index. -/
def remoteContent (index : Int) : Option ContentInfo :=
  if index < 0 then none else s.remoteDescription.bind fun d => d.contents[index.toNat]?

/-- `UseCandidate`. -/
def useCandidate (c : JsepIceCandidate) : Bool × WebRtcSession :=
  match s.remoteContent c.sdpMlineIndex with
  | none => (false, s)
  | some content => (true, { s with submitted := s.submitted ++ [(content.name, c.candidate)] })

/-- The candidates of one section, up to the first that cannot be used. -/
def useSection : List JsepIceCandidate → Bool → WebRtcSession → Bool × WebRtcSession
  | [], ret, s => (ret, s)
  | c :: candidates, _, s =>
    match s.useCandidate c with
    | (false, s) => (false, s)
    | (true, s) => useSection candidates true s

/-- The candidates of all sections; the result is that of the last one. -/
def useSections : List (List JsepIceCandidate) → Bool → WebRtcSession → Bool × WebRtcSession
  | [], ret, s => (ret, s)
  | candidates :: sections, ret, s =>
    let (ret, s) := useSection candidates ret s
    useSections sections ret s

/-- `UseCandidatesInSessionDescription`. -/
def useCandidatesInSessionDescription (desc : Option TypedDescription) : Bool × WebRtcSession :=
  match desc with
  | none => (true, s)
  | some desc => useSections desc.jsep.candidates true s

/-- A description with the saved candidates. -/
def withSavedCandidates (desc : TypedDescription) : TypedDescription :=
  { desc with jsep := s.savedCandidates.foldl JsepSessionDescription.addCandidate desc.jsep }

/-- `StartCandidatesAllocation`; without a remote description the saved candidates stay. -/
def startCandidatesAllocation : WebRtcSession :=
  let s := match s.remoteDesc with
    | none => s
    | some desc => { s with remoteDesc := some (s.withSavedCandidates desc), savedCandidates := [] }
  (s.useCandidatesInSessionDescription s.remoteDesc).2

/-- A candidate of the other side arrives. -/
def processIceMessage (candidate : Option JsepIceCandidate) : Bool × WebRtcSession :=
  if s.state = .init then (false, s)
  else
    match candidate with
    | none => (false, s)
    | some c =>
      match s.localDesc, s.remoteDesc with
      | some _, some desc =>
        let s := { s with remoteDesc := some { desc with jsep := desc.jsep.addCandidate c } }
        if addsCandidate desc.jsep c then s.useCandidatesInSessionDescription s.remoteDesc
        else (false, s)
      | _, _ => (true, { s with savedCandidates := s.savedCandidates ++ [c] })

/-! ## Local descriptions -/

/-- `UpdateSessionDescriptionSecurePolicy`. -/
def updateSessionDescriptionSecurePolicy (d : SessionDescription) : SessionDescription :=
  { d with contents := d.contents.map fun c =>
      if c.type = nsJingleRtp then
        { c with description := { c.description with
            cryptoRequired := decide (s.factory.secure = SecurePolicy.required) } }
      else c }

/-- The description that `local_desc_` becomes. -/
def securedDescription (desc : TypedDescription) : TypedDescription :=
  { desc with jsep := { desc.jsep with
      description := s.updateSessionDescriptionSecurePolicy desc.jsep.description } }

/-- What `SetLocalDescription` checks first. -/
def checkLocalDescription (desc : Option TypedDescription) : Check :=
  match desc with
  | none => .fails .invalidSdp
  | some desc =>
    if !expectSetLocalDescription (getAction desc.type) s.state then
      .fails (.badState desc.type s.state)
    else if s.factory.secure = .required ∧ !verifyCrypto desc.jsep.description then
      .fails .sdpWithoutCrypto
    else if getAction desc.type = .kAnswer then
      match s.remoteDesc with
      | none => .crashes
      | some offer =>
        if verifyMediaDescriptions desc.jsep.description offer.jsep.description then .passes
        else .fails .mlineMismatch
    else .passes

/-- The rest of `SetLocalDescription`. -/
def applyLocalDescription (desc : TypedDescription) : Option Failure × WebRtcSession :=
  let action := getAction desc.type
  let desc := s.securedDescription desc
  let s := { s with
    initiator := s.initiator || decide (s.state = SessionState.init ∧ action = Action.kOffer)
    localDescription := some desc.jsep.description
    localDesc := some desc }
  match s.createChannels replies desc.jsep.description with
  | (false, s) => (some .createChannelFailed, s)
  | (true, s) =>
    match s.updateSessionState replies action .csLocal desc.jsep.description with
    | (false, s) => (some .updateStateFailed, s)
    | (true, s) =>
      let s := s.startCandidatesAllocation.setError (replies.error .candidates)
      (s.error.map .sessionError, s)

/-- `SetLocalDescription`. -/
def setLocalDescription (desc : Option TypedDescription) :
    Option (Option Failure × WebRtcSession) :=
  match desc, s.checkLocalDescription desc with
  | _, .crashes => none
  | _, .fails failure => some (some failure, s)
  | none, .passes => none
  | some desc, .passes => some (s.applyLocalDescription replies desc)

/-! ## Remote descriptions -/

/-- What `SetRemoteDescription` checks first. -/
def checkRemoteDescription (desc : Option TypedDescription) : Check :=
  match desc with
  | none => .fails .invalidSdp
  | some desc =>
    let crypto := if s.factory.secure = .required ∧ !verifyCrypto desc.jsep.description then
      Check.fails .sdpWithoutCrypto else .passes
    if !expectSetRemoteDescription (getAction desc.type) s.state then
      .fails (.badState desc.type s.state)
    else if getAction desc.type = .kAnswer then
      match s.localDesc with
      | none => .crashes
      | some offer =>
        if verifyMediaDescriptions desc.jsep.description offer.jsep.description then crypto
        else .fails .mlineMismatch
    else crypto

/-- The description that `remote_desc_` becomes: all candidates are retained. -/
def receivedDescription (desc : TypedDescription) : TypedDescription :=
  let desc := s.withSavedCandidates desc
  { desc with jsep := copyCandidatesFromSessionDescription s.remoteDesc desc.jsep }

/-- `CheckForRemoteIceRestart`: a content that is not rejected has new credentials. -/
def requestsIceRestart (old : Option TypedDescription) (new : TypedDescription) : Bool :=
  match old with
  | none => false
  | some old => new.type = kOfferType && new.jsep.description.contents.any fun c =>
      !c.rejected &&
        match new.jsep.description.getTransportInfoByName c.name,
          old.jsep.description.getTransportInfoByName c.name with
        | some t, some t' => t.description.icePwd ≠ t'.description.icePwd &&
            t.description.iceUfrag ≠ t'.description.iceUfrag
        | _, _ => false

/-- The end of `SetRemoteDescription`. -/
def storeRemoteDescription (desc : TypedDescription) : WebRtcSession :=
  { s with
    remoteDesc := some (s.receivedDescription desc)
    savedCandidates := []
    iceRestartLatch := s.iceRestartLatch || requestsIceRestart s.remoteDesc desc }

/-- The rest of `SetRemoteDescription`. -/
def applyRemoteDescription (desc : TypedDescription) : Option Failure × WebRtcSession :=
  match s.createChannels replies desc.jsep.description with
  | (false, s) => (some .createChannelFailed, s)
  | (true, s) =>
    let s := { s with remoteDescription := some desc.jsep.description }
    match s.updateSessionState replies (getAction desc.type) .csRemote desc.jsep.description with
    | (false, s) => (some .updateStateFailed, s)
    | (true, s) =>
      match if s.localDesc.isSome then s.useCandidatesInSessionDescription (some desc)
        else (true, s) with
      | (false, s) => (some .invalidCandidates, s.setError (replies.error .candidates))
      | (true, s) =>
        let s := (s.storeRemoteDescription desc).setError (replies.error .candidates)
        (s.error.map .sessionError, s)

/-- `SetRemoteDescription`. -/
def setRemoteDescription (desc : Option TypedDescription) :
    Option (Option Failure × WebRtcSession) :=
  match desc, s.checkRemoteDescription desc with
  | _, .crashes => none
  | _, .fails failure => some (some failure, s)
  | none, .passes => none
  | some desc, .passes => some (s.applyRemoteDescription replies desc)

/-! ## Offers and answers -/

/-- `Initialize` of a new description, with the candidates of the local one. -/
def initializeJsep (type : Text) (d : Option SessionDescription) : Option TypedDescription :=
  d.map fun d => ⟨type, copyCandidatesFromSessionDescription s.localDesc
    (.ofDescription d s.sessionId (natText s.sessionVersion))⟩

/-- `CreateOffer`; the options are those of the `MediaStreamSignaling`. -/
def createOffer (options : Option MediaSessionOptions) (r : Runtime) :
    Option TypedDescription × WebRtcSession :=
  match options with
  | none => (none, s)
  | some options =>
    if !validStreams options.streams then (none, s)
    else
      (s.initializeJsep kOfferType (s.factory.createOffer r options s.localDescription),
        { s with sessionVersion := s.sessionVersion + 1 })

/-- `CreateAnswer`. The request of an ICE restart is remembered until here. -/
def createAnswer (options : Option MediaSessionOptions) (offer : Option TypedDescription)
    (r : Runtime) : Option TypedDescription × WebRtcSession :=
  match options, offer with
  | some options, some offer =>
    if !validStreams options.streams then (none, s)
    else
      let options := { options with iceRestart := s.iceRestartLatch }
      (s.initializeJsep kAnswerType
          (s.factory.createAnswer r offer.jsep.description options s.localDescription),
        { s with iceRestartLatch := false, sessionVersion := s.sessionVersion + 1 })
  | _, _ => (none, s)

/-! ## Other events -/

/-- `ProcessNewLocalCandidate`. -/
def processNewLocalCandidate (contentName : Text) (candidates : List Candidate) : WebRtcSession :=
  match s.localDescription.bind fun d => d.contents.findIdx? fun c => c.name = contentName with
  | none => s
  | some i => { s with localDesc := s.localDesc.map fun desc => { desc with
      jsep := candidates.foldl (fun d c => d.addCandidate ⟨contentName, i, c⟩) desc.jsep } }

/-- `OnMessage` of the `BaseSession` for `MSG_STATE`. -/
def onStateMessage : WebRtcSession :=
  if s.state = .sentAccept ∨ s.state = .receivedAccept then { s with state := .inProgress } else s

end WebRtcSession

/-! ## Runs -/

inductive SessionEvent where
  | setLocalDescription (desc : Option TypedDescription) (replies : Replies)
  | setRemoteDescription (desc : Option TypedDescription) (replies : Replies)
  | processIceMessage (candidate : Option JsepIceCandidate)
  | createOffer (options : Option MediaSessionOptions) (random : Runtime)
  | createAnswer (options : Option MediaSessionOptions) (offer : Option TypedDescription)
    (random : Runtime)
  | newLocalCandidates (contentName : Text) (candidates : List Candidate)
  | stateMessage
  | error (error : SessionError)
  | setSecurePolicy (policy : SecurePolicy)

/-- A call: the session before and after it, and whether it succeeds. -/
structure Call where
  before : WebRtcSession
  event : SessionEvent
  succeeds : Bool
  after : WebRtcSession

namespace WebRtcSession

/-- One event, with whether the call succeeds. -/
def step (s : WebRtcSession) : SessionEvent → Option (Bool × WebRtcSession)
  | .setLocalDescription desc replies =>
    (s.setLocalDescription replies desc).map fun p => (p.1.isNone, p.2)
  | .setRemoteDescription desc replies =>
    (s.setRemoteDescription replies desc).map fun p => (p.1.isNone, p.2)
  | .processIceMessage candidate => some (s.processIceMessage candidate)
  | .createOffer options random =>
    let (offer, s) := s.createOffer options random
    some (offer.isSome, s)
  | .createAnswer options offer random =>
    let (answer, s) := s.createAnswer options offer random
    some (answer.isSome, s)
  | .newLocalCandidates contentName candidates =>
    some (true, s.processNewLocalCandidate contentName candidates)
  | .stateMessage => some (true, s.onStateMessage)
  | .error error => some (true, s.setError (some error))
  | .setSecurePolicy policy =>
    some (true, { s with factory := { s.factory with secure := policy } })

/-- The calls of a run, up to a crash. -/
def calls (s : WebRtcSession) : List SessionEvent → List Call
  | [] => []
  | e :: events =>
    match s.step e with
    | none => []
    | some (succeeds, after) => ⟨s, e, succeeds, after⟩ :: after.calls events

end WebRtcSession

end Libjingle.Webrtc
