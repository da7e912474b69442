import Libjingle.Sdp.Description

/-!
# Streams, tracks and data channels (`app/webrtc/mediastreamsignaling.cc`, `datachannel.cc`)

What a description makes of the streams and tracks of the other side and of the data channels. A
stream is its label with the ids of its tracks; a track is known by its id, its stream and one of
its SSRCs. The data channels that have ever existed are a list, of which the signaling knows some
by their labels.

The factory for data channels is the session, which can create them whenever it has been set. What
a channel delivers to its observer and what it sends are not part of it; the states that the
observer is told are.
-/

namespace Libjingle.Webrtc

open Lib Sdp

/-! ## Data channels -/

/-- `DataState`. -/
inductive DataState where
  | kConnecting
  | kOpen
  | kClosing
  | kClosed
  deriving DecidableEq

/-- `close`, `remotePeerRequestClose`, `setSendSsrc`, `setReceiveSsrc`. -/
structure DataChannel where
  label : Text
  state : DataState
  wasEverWritable : Bool
  /-- `IsConnectedToDataSession`. -/
  connected : Bool
  sendSsrcSet : Bool
  sendSsrc : U32
  receiveSsrcSet : Bool
  receiveSsrc : U32
  /-- The calls of `OnStateChange`, with the state then. -/
  changes : List DataState
  deriving DecidableEq

namespace DataChannel

/-- `DataChannel::Create`. -/
def create (label : Text) : DataChannel :=
  ⟨label, .kConnecting, false, false, false, 0, false, 0, []⟩

variable (c : DataChannel)

def hasNegotiationCompleted : Bool := c.sendSsrcSet = c.receiveSsrcSet

/-- `SetState`. -/
def setState (state : DataState) : DataChannel :=
  { c with state := state, changes := c.changes ++ [state] }

variable (dataSession : Bool)

/-- `UpdateState`; whether the session has a data channel decides if this one gets connected. -/
def updateState : DataChannel :=
  match c.state with
  | .kConnecting =>
    if c.hasNegotiationCompleted then
      let c := { c with connected := c.connected || dataSession }
      if c.wasEverWritable then c.setState .kOpen else c
    else c
  | .kOpen => c
  | .kClosing =>
    let c := { c with connected := false }
    if c.hasNegotiationCompleted then c.setState .kClosed else c
  | .kClosed => c

def close : DataChannel :=
  if c.state = .kClosed then c
  else ({ c with sendSsrc := 0, sendSsrcSet := false }.setState .kClosing).updateState dataSession

/-- `SetReceiveSsrc`. -/
def setReceiveSsrc (ssrc : U32) : DataChannel :=
  { c with receiveSsrc := ssrc, receiveSsrcSet := true }.updateState dataSession

def remotePeerRequestClose : DataChannel :=
  ({ c with receiveSsrcSet := false, sendSsrcSet := false }.setState .kClosing).updateState
    dataSession

/-- `SetSendSsrc`. -/
def setSendSsrc (ssrc : U32) : DataChannel :=
  { c with sendSsrc := ssrc, sendSsrcSet := true }.updateState dataSession

/-- `OnChannelReady`, which only a connected channel hears. -/
def onChannelReady (writable : Bool) : DataChannel :=
  if c.connected ∧ !c.wasEverWritable ∧ writable then
    { c with wasEverWritable := true }.updateState dataSession
  else c

end DataChannel

/-! ## Streams and tracks -/

/-- `MediaStream`, with the ids of its audio and video tracks. -/
structure MediaStream where
  label : Text
  tracks : MediaType → List Text

/-- `TrackInfo`. -/
structure TrackInfo where
  stream : Text
  ssrc : U32
  deriving DecidableEq

/-- The calls of the `RemoteMediaStreamObserver`. -/
inductive Notification where
  | onAddStream (label : Text)
  | onRemoveStream (label : Text)
  | onAddDataChannel (channel : Nat)
  deriving DecidableEq

def MediaStream.addTrack (type : MediaType) (id : Text) (s : MediaStream) : MediaStream :=
  if id ∈ s.tracks type then s
  else { s with tracks := Function.update s.tracks type (s.tracks type ++ [id]) }

def MediaStream.removeTrack (type : MediaType) (id : Text) (s : MediaStream) : MediaStream :=
  { s with tracks := Function.update s.tracks type ((s.tracks type).erase id) }

/-- A stream without audio and video tracks. -/
def MediaStream.ended (s : MediaStream) : Bool := s.tracks .audio = [] && s.tracks .video = []

def kDefaultStreamLabel : Text := "default".toList

/-- `kDefaultAudioTrackLabel` and `kDefaultVideoTrackLabel`. -/
def kDefaultTrackLabel : MediaType → Text
  | .audio => "defaulta0".toList
  | .video => "defaultv0".toList
  | .data => []

/-- `MediaStreamSignaling`. -/
structure MediaStreamSignaling where
  /-- `data_channel_factory_` is set. -/
  dataChannelFactory : Bool
  /-- The session has a data channel. -/
  dataSession : Bool
  msidSupported : Bool
  /-- `default_audio_track_needed` and `default_video_track_needed`. -/
  defaultTrackNeeded : MediaType → Bool
  remoteStreams : List MediaStream
  /-- `remote_audio_tracks_` and `remote_video_tracks_`. -/
  remoteTracks : MediaType → SortedMap Text TrackInfo
  /-- All data channels. -/
  channels : List DataChannel
  /-- `data_channels_`. -/
  dataChannels : SortedMap Text Nat
  notifications : List Notification

namespace MediaStreamSignaling

variable (s : MediaStreamSignaling)

/-- The constructor, and `SetDataChannelFactory`. -/
def new (dataChannelFactory dataSession : Bool) : MediaStreamSignaling :=
  ⟨dataChannelFactory, dataSession, false, fun _ => false, [], fun _ => .empty, [], .empty, []⟩

/-- A change to a stream. -/
def updateStream (label : Text) (f : MediaStream → MediaStream) : MediaStreamSignaling :=
  { s with remoteStreams := s.remoteStreams.map fun st => if st.label = label then f st else st }

/-- The observer is told something. -/
def notify (l : List Notification) : MediaStreamSignaling :=
  { s with notifications := s.notifications ++ l }

/-- `StreamCollection::find`: whether there is a stream with a label. -/
def hasStream (label : Text) : Bool := s.remoteStreams.any fun st => st.label = label

/-! ### Tracks -/

/-- `AddRemoteTrack`, unless the id is known. -/
def addRemoteTrack (type : MediaType) (id label : Text) (ssrc : U32) : MediaStreamSignaling :=
  if ((s.remoteTracks type).get? id).isSome then s
  else
    let s := s.updateStream label (.addTrack type id)
    { s with remoteTracks :=
        Function.update s.remoteTracks type ((s.remoteTracks type).set id ⟨label, ssrc⟩) }

/-- A track ends, and leaves its stream. -/
def endTrack (type : MediaType) (id : Text) : MediaStreamSignaling :=
  match (s.remoteTracks type).get? id with
  | none => s
  | some info =>
    let s := s.updateStream info.stream (.removeTrack type id)
    { s with remoteTracks := Function.update s.remoteTracks type ((s.remoteTracks type).erase id) }

/-- The tracks whose SSRC is in no stream. -/
def disappeared (type : MediaType) (streams : List StreamParams) : List Text :=
  ((s.remoteTracks type).entries.filter fun e => !getStreamBySsrc streams e.2.ssrc).map Prod.fst

/-- `RemoveDisappearedTracks`: those whose ssrc is not listed. -/
def removeDisappearedTracks (type : MediaType) (streams : List StreamParams) :
    MediaStreamSignaling :=
  (s.disappeared type streams).foldl (fun s id => s.endTrack type id) s

/-! ### Remote streams -/

def addStream (label : Text) : MediaStreamSignaling :=
  { s with remoteStreams := s.remoteStreams ++ [⟨label, fun _ => []⟩] }

/-- One stream in `UpdateRemoteStreamsList`, with the streams that are new. -/
def updateRemoteStream (type : MediaType) (state : List Text × MediaStreamSignaling)
    (p : StreamParams) : List Text × MediaStreamSignaling :=
  let (newStreams, s) := state
  let (newStreams, s) := if s.hasStream p.syncLabel then (newStreams, s)
    else (newStreams ++ [p.syncLabel], s.addStream p.syncLabel)
  (newStreams, s.addRemoteTrack type p.name p.syncLabel p.firstSsrc)

/-- `UpdateRemoteStreamsList`. -/
def updateRemoteStreamsList (type : MediaType) (streams : List StreamParams)
    (state : List Text × MediaStreamSignaling) : List Text × MediaStreamSignaling :=
  let (newStreams, s) := streams.foldl (updateRemoteStream type) state
  (newStreams, s.removeDisappearedTracks type streams)

/-- A content of `UpdateRemoteStreams`. -/
def updateRemoteContent (type : MediaType) (desc : SessionDescription)
    (state : List Text × MediaStreamSignaling) : List Text × MediaStreamSignaling :=
  match desc.getFirstMediaContent type with
  | none => state
  | some content =>
    let media := content.description
    let (newStreams, s) := updateRemoteStreamsList type media.streams state
    let needed := decide (media.direction = .sendrecv ∧ media.streams = [])
    (newStreams,
      { s with defaultTrackNeeded := Function.update s.defaultTrackNeeded type needed })

/-- `RemoveStream`, and the observer is told. -/
def removeStream (label : Text) : MediaStreamSignaling :=
  { s with remoteStreams := s.remoteStreams.eraseP fun st => st.label = label }.notify
    [.onRemoveStream label]

def updateEndedRemoteMediaStreams : MediaStreamSignaling :=
  (s.remoteStreams.filter MediaStream.ended).foldl (fun s st => s.removeStream st.label) s

def isDefaultMediaStreamNeeded : Bool :=
  !s.msidSupported && (s.defaultTrackNeeded .audio || s.defaultTrackNeeded .video)

/-- A default track, when it is needed and the default stream has none. -/
def maybeAddDefaultTrack (type : MediaType) : MediaStreamSignaling :=
  if s.defaultTrackNeeded type ∧
      s.remoteStreams.any fun st => st.label = kDefaultStreamLabel && st.tracks type = [] then
    s.addRemoteTrack type (kDefaultTrackLabel type) kDefaultStreamLabel 0
  else s

/-- `MaybeCreateDefaultStream`. A new default stream is in the collection at once: nobody looks
there until its tracks have been added. -/
def maybeCreateDefaultStream : MediaStreamSignaling :=
  if !s.isDefaultMediaStreamNeeded then s
  else if s.hasStream kDefaultStreamLabel then
    (s.maybeAddDefaultTrack .audio).maybeAddDefaultTrack .video
  else
    (((s.addStream kDefaultStreamLabel).maybeAddDefaultTrack .audio).maybeAddDefaultTrack
      .video).notify [.onAddStream kDefaultStreamLabel]

/-! ### Data channels -/

/-- A change to a data channel. -/
def updateChannel (id : Nat) (f : DataChannel → DataChannel) : MediaStreamSignaling :=
  { s with channels := s.channels.modify id f }

/-- A data channel comes into being. -/
def createDataChannel (label : Text) : MediaStreamSignaling :=
  { s with channels := s.channels ++ [.create label] }

/-- `AddDataChannel`. -/
def addDataChannel (id : Nat) : Bool × MediaStreamSignaling :=
  match s.channels[id]? with
  | none => (false, s)
  | some c =>
    if (s.dataChannels.get? c.label).isSome then (false, s)
    else (true, { s with dataChannels := s.dataChannels.set c.label id })

/-- `CreateRemoteDataChannel`. -/
def createRemoteDataChannel (label : Text) (ssrc : U32) : MediaStreamSignaling :=
  if !s.dataChannelFactory then s
  else
    let id := s.channels.length
    let s := ((s.createDataChannel label).addDataChannel id).2
    (s.updateChannel id fun c => c.setReceiveSsrc s.dataSession ssrc).notify [.onAddDataChannel id]

/-- What `UpdateClosingDataChannels` asks of a channel. -/
def askToClose (isLocalUpdate : Bool) (c : DataChannel) : DataChannel :=
  if isLocalUpdate then c.setSendSsrc s.dataSession 0 else c.remotePeerRequestClose s.dataSession

/-- The loop of `UpdateClosingDataChannels`, up to the end or to the first channel that is erased.
-/
def closingPass (activeChannels : List Text) (isLocalUpdate : Bool) :
    List (Text × Nat) → MediaStreamSignaling → Bool × MediaStreamSignaling
  | [], s => (false, s)
  | (key, id) :: entries, s =>
    match s.channels[id]? with
    | none => closingPass activeChannels isLocalUpdate entries s
    | some c =>
      if c.label ∈ activeChannels then closingPass activeChannels isLocalUpdate entries s
      else
        let s := s.updateChannel id (s.askToClose isLocalUpdate)
        if (s.askToClose isLocalUpdate c).state = .kClosed then
          (true, { s with dataChannels := s.dataChannels.erase key })
        else closingPass activeChannels isLocalUpdate entries s

/-- The loop of `UpdateClosingDataChannels`, which starts again after a channel has been erased. -/
def closingRounds (activeChannels : List Text) (isLocalUpdate : Bool) :
    Nat → MediaStreamSignaling → MediaStreamSignaling
  | 0, s => s
  | n + 1, s =>
    match closingPass activeChannels isLocalUpdate s.dataChannels.entries s with
    | (true, s) => closingRounds activeChannels isLocalUpdate n s
    | (false, s) => s

/-- The channels that a description does not have. -/
def updateClosingDataChannels (activeChannels : List Text) (isLocalUpdate : Bool) :
    MediaStreamSignaling :=
  closingRounds activeChannels isLocalUpdate (s.dataChannels.entries.length + 1) s

/-- `UpdateLocalDataChannels`; streams that are no channels are skipped. -/
def updateLocalDataChannels (streams : List StreamParams) : MediaStreamSignaling :=
  let known := streams.filter fun p => (s.dataChannels.get? p.syncLabel).isSome
  (known.foldl (fun s p => match s.dataChannels.get? p.syncLabel with
      | none => s
      | some id => s.updateChannel id fun c => c.setSendSsrc s.dataSession p.firstSsrc)
    s).updateClosingDataChannels (known.map StreamParams.syncLabel) true

/-- The label of a channel in a remote description. -/
def remoteChannelLabel (p : StreamParams) : Text :=
  if p.syncLabel = [] then natText p.firstSsrc.toNat else p.syncLabel

/-- One stream in `UpdateRemoteDataChannels`. -/
def updateRemoteDataChannel (p : StreamParams) : MediaStreamSignaling :=
  match s.dataChannels.get? (remoteChannelLabel p) with
  | none => s.createRemoteDataChannel (remoteChannelLabel p) p.firstSsrc
  | some id => s.updateChannel id fun c => c.setReceiveSsrc s.dataSession p.firstSsrc

/-- `UpdateRemoteDataChannels`. -/
def updateRemoteDataChannels (streams : List StreamParams) : MediaStreamSignaling :=
  (streams.foldl updateRemoteDataChannel s).updateClosingDataChannels
    (streams.map remoteChannelLabel) false

/-! ### Descriptions -/

/-- The streams of the first content of a kind. -/
def streamsOf (desc : SessionDescription) (type : MediaType) : Option (List StreamParams) :=
  (desc.getFirstMediaContent type).map fun content => content.description.streams

/-- The data content of `UpdateRemoteStreams`. -/
def updateRemoteDataContent (desc : SessionDescription) : MediaStreamSignaling :=
  match streamsOf desc .data with
  | none => s
  | some streams => s.updateRemoteDataChannels streams

/-- `UpdateRemoteStreams`. -/
def updateRemoteStreams (desc : SessionDescription) : MediaStreamSignaling :=
  let (newStreams, s) := updateRemoteContent .video desc (updateRemoteContent .audio desc ([], s))
  let s := (s.updateRemoteDataContent desc).notify (newStreams.map .onAddStream)
  let s := if s.isDefaultMediaStreamNeeded && s.hasStream kDefaultStreamLabel then s
    else
      let s := s.updateEndedRemoteMediaStreams
      { s with msidSupported := s.msidSupported || !s.remoteStreams.isEmpty }
  s.maybeCreateDefaultStream

/-- `UpdateLocalStreams`. -/
def updateLocalStreams (desc : SessionDescription) : MediaStreamSignaling :=
  match streamsOf desc .data with
  | none => s
  | some streams => s.updateLocalDataChannels streams

end MediaStreamSignaling

end Libjingle.Webrtc
