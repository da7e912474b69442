import Mathlib.Data.List.Lex
import Mathlib.Data.Char
import Libjingle.Lib.Sorting
import Libjingle.Lib.Text
import Libjingle.Lib.SortedMap
import Libjingle.Stun.Attribute

/-!
# Session descriptions (`app/webrtc/jsepsessiondescription.cc`, `p2p/base/sessiondescription.h`,
`session/media/mediasession.h`, `media/base/codec.h`, `streamparams.h`, `p2p/base/candidate.h`)

The data that the SDP writer reads, the SDP parser builds and the session factory negotiates.
Strings are lists of characters, an `int` is a bit vector read with its sign.

The audio, video and data codecs are one structure with the fields of all three; what one of them
has no field for stays `0`. Fields that none of the three uses are left out.
-/

namespace Libjingle.Sdp

open Lib

/-! ## Media contents -/

/-- `MediaType`. -/
inductive MediaType where
  | audio
  | video
  | data
  deriving DecidableEq

/-- `MediaContentDirection`. -/
inductive MediaContentDirection where
  | inactive
  | sendonly
  | recvonly
  | sendrecv
  deriving DecidableEq

/-- `CodecParameterMap`. -/
abbrev CodecParameterMap := SortedMap Text Text

/-- `AudioCodec`, `VideoCodec` and `DataCodec`. -/
structure Codec where
  id : I32
  name : Text
  clockrate : I32
  preference : Int
  params : CodecParameterMap
  bitrate : I32
  channels : I32
  width : I32
  height : I32
  framerate : I32
  deriving DecidableEq

/-- `SsrcGroup`. -/
structure SsrcGroup where
  semantics : Text
  ssrcs : List U32
  deriving DecidableEq

/-- `StreamParams`. -/
structure StreamParams where
  nick : Text
  name : Text
  ssrcs : List U32
  ssrcGroups : List SsrcGroup
  cname : Text
  syncLabel : Text
  deriving DecidableEq

/-- `first_ssrc`. -/
def StreamParams.firstSsrc (p : StreamParams) : U32 := p.ssrcs.head?.getD 0

/-- `GetStreamBySsrc`: whether there is one. -/
def getStreamBySsrc (streams : List StreamParams) (ssrc : U32) : Bool :=
  streams.any fun p => ssrc ∈ p.ssrcs

/-- `CryptoParams`. -/
structure CryptoParams where
  tag : I32
  cipherSuite : Text
  keyParams : Text
  sessionParams : Text
  deriving DecidableEq

/-- `RtpHeaderExtension`. -/
structure RtpHeaderExtension where
  uri : Text
  id : I32
  deriving DecidableEq

def kAutoBandwidth : I32 := -1

/-- `MediaContentDescription` and its three implementations. -/
structure MediaContentDescription where
  type : MediaType
  protocol : Text
  direction : MediaContentDirection
  rtcpMux : Bool
  bandwidth : I32
  cryptos : List CryptoParams
  cryptoRequired : Bool
  rtpHeaderExtensions : List RtpHeaderExtension
  streams : List StreamParams
  codecs : List Codec
  deriving DecidableEq

/-- A new description. -/
def MediaContentDescription.new (type : MediaType) : MediaContentDescription :=
  ⟨type, [], .sendrecv, false, kAutoBandwidth, [], false, [], [], []⟩

/-- What `std::sort` with `PreferenceSort` makes of codecs. -/
abbrev CodecSort := UnstableSort Codec.preference

/-- The stable one. -/
def stableCodecSort : CodecSort := .stable Codec.preference

/-- `operator=` of a codec: a `DataCodec` has that of `Codec`, which leaves the parameters. -/
def Codec.assign (type : MediaType) (c d : Codec) : Codec :=
  match type with
  | .data => { d with params := c.params }
  | .audio | .video => d

/-- `SortCodecs`. The elements of a vector are sorted by assignment. -/
def MediaContentDescription.sortCodecs (sort : CodecSort) (m : MediaContentDescription) :
    MediaContentDescription :=
  { m with codecs := List.zipWith (Codec.assign m.type) m.codecs (sort.sort m.codecs) }

theorem zipWith_assign {type : MediaType} (htype : type ≠ .data) {codecs sorted : List Codec}
    (hlen : sorted.length = codecs.length) :
    List.zipWith (Codec.assign type) codecs sorted = sorted := by
  refine List.ext_getElem (by simp [hlen]) fun i _ _ => ?_
  rw [List.getElem_zipWith]
  cases type with
  | data => exact absurd rfl htype
  | audio | video => rfl

/-- The codecs get other places, and data codecs other parameters. -/
theorem sortCodecs_perm (sort : CodecSort) (m : MediaContentDescription) {γ : Type} {g : Codec → γ}
    (hg : ∀ type c d, g (Codec.assign type c d) = g d) :
    ((m.sortCodecs sort).codecs.map g).Perm (m.codecs.map g) := by
  have hlen := (sort.perm m.codecs).length_eq
  have hsame : (m.sortCodecs sort).codecs.map g = (sort.sort m.codecs).map g := by
    refine List.ext_getElem (by simp [MediaContentDescription.sortCodecs, hlen]) fun i _ _ => ?_
    simp [MediaContentDescription.sortCodecs, hg]
  rw [hsame]
  exact (sort.perm m.codecs).map g

/-- `ContentInfo`. -/
structure ContentInfo where
  name : Text
  type : Text
  rejected : Bool
  description : MediaContentDescription
  deriving DecidableEq

/-- `ContentGroup`. -/
structure ContentGroup where
  semantics : Text
  contentNames : List Text
  deriving DecidableEq

/-- `AddContentName`. -/
def ContentGroup.addContentName (g : ContentGroup) (name : Text) : ContentGroup :=
  if name ∈ g.contentNames then g else { g with contentNames := g.contentNames ++ [name] }

/-- `SSLFingerprint`. -/
structure SSLFingerprint where
  algorithm : Text
  digest : List U8
  deriving DecidableEq

/-- `TransportDescription`. -/
structure TransportDescription where
  transportType : Text
  transportOptions : List Text
  iceUfrag : Text
  icePwd : Text
  identityFingerprint : Option SSLFingerprint
  deriving DecidableEq

/-- `TransportInfo`. -/
structure TransportInfo where
  contentName : Text
  description : TransportDescription
  deriving DecidableEq

/-- `SessionDescription`. -/
structure SessionDescription where
  contents : List ContentInfo
  transportInfos : List TransportInfo
  groups : List ContentGroup
  deriving DecidableEq

def nsJingleRtp : Text := "urn:xmpp:jingle:apps:rtp:1".toList
def nsJingleIceUdp : Text := "urn:xmpp:jingle:transports:ice-udp:1".toList
def groupTypeBundle : Text := "BUNDLE".toList

namespace SessionDescription

/-- `GetTransportInfoByName`. -/
def getTransportInfoByName (d : SessionDescription) (name : Text) : Option TransportInfo :=
  d.transportInfos.find? fun t => t.contentName = name

/-- `AddTransportInfo`; `none` when it returns `false`. -/
def addTransportInfo (d : SessionDescription) (t : TransportInfo) : Option SessionDescription :=
  match d.getTransportInfoByName t.contentName with
  | some _ => none
  | none => some { d with transportInfos := d.transportInfos ++ [t] }

/-- `GetGroupByName`. -/
def getGroupByName (d : SessionDescription) (name : Text) : Option ContentGroup :=
  d.groups.find? fun g => g.semantics = name

/-- `GetFirstAudioContent`, `GetFirstVideoContent`, `GetFirstDataContent`. -/
def getFirstMediaContent (d : SessionDescription) (type : MediaType) : Option ContentInfo :=
  d.contents.find? fun c => c.type = nsJingleRtp ∧ c.description.type = type

end SessionDescription

/-! ## Candidates -/

/-- `SocketAddress`, with the name it was made from. -/
structure HostAddress where
  hostname : Text
  ip : IPAddress
  port : U16
  deriving DecidableEq

/-- `IsNil`. -/
def HostAddress.isNil (a : HostAddress) : Bool :=
  a.hostname = [] && a.ip = .unspec && a.port = 0

/-- `IPIsAny`. -/
def ipIsAny : IPAddress → Bool
  | .ipv4 a => a = 0
  | .ipv6 a => a = 0
  | .unspec => false

/-- `operator==` of socket addresses: names only count for the wildcard address. -/
def HostAddress.equal (a b : HostAddress) : Bool :=
  a.ip = b.ip && (!ipIsAny a.ip || a.hostname = b.hostname) && a.port = b.port

/-- `Candidate`. -/
structure Candidate where
  id : Text
  component : I32
  protocol : Text
  address : HostAddress
  priority : U32
  username : Text
  password : Text
  type : Text
  generation : U32
  foundation : Text
  relatedAddress : HostAddress
  deriving DecidableEq

/-- `IsEquivalent`. -/
def Candidate.isEquivalent (a b : Candidate) : Bool :=
  a.id = b.id && a.component = b.component && a.protocol = b.protocol &&
    a.address.equal b.address && a.username = b.username && a.password = b.password &&
    a.type = b.type && a.generation = b.generation && a.foundation = b.foundation &&
    a.relatedAddress.equal b.relatedAddress

/-- `JsepIceCandidate`. -/
structure JsepIceCandidate where
  sdpMid : Text
  sdpMlineIndex : Int
  candidate : Candidate
  deriving DecidableEq

/-- `HasCandidate`. -/
def hasCandidate (l : List JsepIceCandidate) (c : JsepIceCandidate) : Bool :=
  l.any fun x => x.sdpMid = c.sdpMid && x.sdpMlineIndex = c.sdpMlineIndex &&
    x.candidate.isEquivalent c.candidate

/-! ## Descriptions with candidates -/

/-- `JsepSessionDescription`; `candidates` has a list for each content. -/
structure JsepSessionDescription where
  sessionId : Text
  sessionVersion : Text
  description : SessionDescription
  candidates : List (List JsepIceCandidate)
  deriving DecidableEq

namespace JsepSessionDescription

/-- `Initialize`. -/
def ofDescription (description : SessionDescription) (sessionId sessionVersion : Text) :
    JsepSessionDescription :=
  ⟨sessionId, sessionVersion, description, description.contents.map fun _ => []⟩

/-- `GetMediasectionIndex`. -/
def getMediasectionIndex (d : JsepSessionDescription) (c : JsepIceCandidate) : Option Nat :=
  if c.sdpMid = [] then some c.sdpMlineIndex.toNat
  else d.description.contents.findIdx? fun x => c.sdpMid = x.name

/-- A string that is filled in when it is empty. -/
def orElse (s t : Text) : Text := if s = [] then t else s

/-- `AddCandidate`: what becomes of the description. -/
def addCandidate (d : JsepSessionDescription) (c : JsepIceCandidate) : JsepSessionDescription :=
  if c.sdpMlineIndex < 0 then d
  else
    match d.getMediasectionIndex c with
    | none => d
    | some i =>
      match d.description.contents[i]?, d.candidates[i]? with
      | some content, some added =>
        if hasCandidate added c then d
        else
          match d.description.getTransportInfoByName content.name with
          | none => d
          | some t =>
            let updated := { c.candidate with
              username := orElse c.candidate.username t.description.iceUfrag
              password := orElse c.candidate.password t.description.icePwd }
            { d with candidates := d.candidates.set i (added ++ [⟨c.sdpMid, i, updated⟩]) }
      | _, _ => d

end JsepSessionDescription

end Libjingle.Sdp
