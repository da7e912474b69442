import Libjingle.Sdp.Attributes

/-!
# Reading SDP (`app/webrtc/webrtcsdp.cc`)

The position in the message is the text behind it. Every loop of the parser takes a line before it
goes round again, so the length of the text bounds its rounds.
-/

namespace Libjingle.Sdp

open Lib

/-! ## The session -/

/-- What the lines before the first m-line set. -/
structure SessionPart where
  sessionId : Text
  sessionVersion : Text
  supportsMsid : Bool
  transport : TransportDescription
  extmaps : List RtpHeaderExtension
  groups : List ContentGroup
  deriving DecidableEq

/-- `NS_JINGLE_ICE_UDP` without options and credentials. -/
def TransportDescription.new : TransportDescription := ⟨nsJingleIceUdp, [], [], [], none⟩

/-- The attributes at session level. -/
inductive SessionAttribute where
  | group
  | iceUfrag
  | icePwd
  | iceOption
  | fingerprint
  | msidSemantics
  | extmap
  deriving DecidableEq

/-- The attributes at session level in the order in which a line is compared with them. -/
def sessionAttributes : List (Text × SessionAttribute) :=
  [(kAttributeGroup, .group), (kAttributeIceUfrag, .iceUfrag), (kAttributeIcePwd, .icePwd),
   (kAttributeIceOption, .iceOption), (kAttributeFingerprint, .fingerprint),
   (kAttributeMsidSemantics, .msidSemantics), (kAttributeExtmap, .extmap)]

/-- The first attribute that a line begins with. -/
def attributeOf {α : Type} (table : List (Text × α)) (line : Text) : Option α :=
  (table.find? fun a => hasAttribute line a.1).map Prod.snd

/-- One attribute line of the session. -/
def parseSessionLine (line : Text) (s : SessionPart) : Parsed SessionPart := do
  match attributeOf sessionAttributes line with
  | some .group =>
    let group ← parseGroupAttribute line
    return { s with groups := s.groups ++ [group] }
  | some .iceUfrag =>
    let iceUfrag ← getValue line kAttributeIceUfrag
    return { s with transport := { s.transport with iceUfrag } }
  | some .icePwd =>
    let icePwd ← getValue line kAttributeIcePwd
    return { s with transport := { s.transport with icePwd } }
  | some .iceOption =>
    let options ← parseIceOptions line
    return { s with transport :=
      { s.transport with transportOptions := s.transport.transportOptions ++ options } }
  | some .fingerprint =>
    if s.transport.identityFingerprint.isSome then
      parseFailed line "Can't have multiple fingerprint attributes at the same level.".toList
    else
      let fingerprint ← parseFingerprintAttribute line
      return { s with transport := { s.transport with identityFingerprint := some fingerprint } }
  | some .msidSemantics =>
    let semantics ← getValue line kAttributeMsidSemantics
    return { s with supportsMsid := semantics = kMediaStreamSematic }
  | some .extmap =>
    let extmap ← parseExtmap line
    return { s with extmaps := s.extmaps ++ [extmap] }
  | none => return s

def skipLine (type : Char) (rest : Text) : Text :=
  match getLineWithType rest type with
  | some (_, rest) => rest
  | none => rest

/-- Any number of lines of one type. -/
def skipLines (type : Char) : Nat → Text → Text
  | 0, rest => rest
  | fuel + 1, rest =>
    match getLineWithType rest type with
    | some (_, rest) => skipLines type fuel rest
    | none => rest

/-- Any number of time descriptions with their repeat times. -/
def skipTimes : Nat → Text → Text
  | 0, rest => rest
  | fuel + 1, rest =>
    match getLineWithType rest 't' with
    | some (_, rest) => skipTimes fuel (skipLines 'r' rest.length rest)
    | none => rest

/-- The attribute lines of the session. -/
def parseSessionLines : Nat → Text → SessionPart → Parsed (SessionPart × Text)
  | 0, rest, s => return (s, rest)
  | fuel + 1, rest, s =>
    match getLineWithType rest 'a' with
    | none => return (s, rest)
    | some (line, rest) => do
      let s ← parseSessionLine line s
      parseSessionLines fuel rest s

def expectLine (message rest : Text) (type : Char) : Parsed (Text × Text) :=
  match getLineWithType rest type with
  | some r => .ok r
  | none => parseFailedExpectLine message rest type []

/-- The lines before the first m-line. -/
def parseSessionDescription (message : Text) : Parsed (SessionPart × Text) := do
  let (_, rest) ← expectLine message message 'v'
  let (origin, rest) ← expectLine message rest 'o'
  match lineFields origin with
  | [_, sessionId, sessionVersion, _, _, _] =>
    let (_, rest) ← expectLine message rest 's'
    let rest := skipLine 'c' (skipLine 'p' (skipLine 'e' (skipLine 'u' (skipLine 'i' rest))))
    let rest := skipLines 'b' rest.length rest
    let (_, rest) ← expectLine message rest 't'
    let rest := skipLines 'r' rest.length rest
    let rest := skipTimes rest.length rest
    let rest := skipLine 'k' (skipLine 'z' rest)
    parseSessionLines rest.length rest ⟨sessionId, sessionVersion, false, .new, [], []⟩
  | _ => parseFailedExpectFieldNum origin 6

/-! ## Contents -/

inductive ContentAttribute where
  | mid
  | rtcpMux
  | ssrcGroup
  | ssrc
  | crypto
  | candidate
  | rtpmap
  | fmtp
  | maxptime
  | ptime
  | iceUfrag
  | icePwd
  | iceOption
  | direction (d : MediaContentDirection)
  | fingerprint
  | extmap
  deriving DecidableEq

/-- The attributes of a section in the order in which a line is compared with them. -/
def contentAttributes : List (Text × ContentAttribute) :=
  [(kAttributeMid, .mid), (kAttributeRtcpMux, .rtcpMux), (kAttributeSsrcGroup, .ssrcGroup),
   (kAttributeSsrc, .ssrc), (kAttributeCrypto, .crypto), (kAttributeCandidate, .candidate),
   (kAttributeRtpmap, .rtpmap), (kAttributeFmtp, .fmtp), (kCodecParamMaxPTime, .maxptime),
   (kCodecParamPTime, .ptime), (kAttributeIceUfrag, .iceUfrag), (kAttributeIcePwd, .icePwd),
   (kAttributeIceOption, .iceOption), (kAttributeSendOnly, .direction .sendonly),
   (kAttributeRecvOnly, .direction .recvonly), (kAttributeInactive, .direction .inactive),
   (kAttributeSendRecv, .direction .sendrecv), (kAttributeFingerprint, .fingerprint),
   (kAttributeExtmap, .extmap)]

/-- What the loop of `ParseContent` works on. -/
structure ContentState where
  contentName : Text
  mlineId : Text
  description : MediaContentDescription
  transport : TransportDescription
  ssrcInfos : List SsrcInfo
  ssrcGroups : List SsrcGroup
  maxptimeAsString : Text
  ptimeAsString : Text
  candidatesOrig : List Candidate
  deriving DecidableEq

section

variable (inet : InetText)

/-- One attribute line of a section. -/
def parseContentAttribute (randomAppdata : U32 → Text) (type : MediaType)
    (codecPreference : List I32) (line : Text) (s : ContentState) :
    Option ContentAttribute → Parsed ContentState
  | some .mid => do
    let mlineId ← getValue line kAttributeMid
    return { s with mlineId, contentName := mlineId }
  | some .rtcpMux => return { s with description.rtcpMux := true }
  | some .ssrcGroup => do
    let group ← parseSsrcGroupAttribute line
    return { s with ssrcGroups := s.ssrcGroups ++ [group] }
  | some .ssrc => do
    let ssrcInfos ← parseSsrcAttribute randomAppdata line s.ssrcInfos
    return { s with ssrcInfos }
  | some .crypto => do
    let crypto ← parseCryptoAttribute line
    return { s with description.cryptos := s.description.cryptos ++ [crypto] }
  | some .candidate => do
    let candidate ← parseCandidate inet line false
    return { s with candidatesOrig := s.candidatesOrig ++ [candidate] }
  | some .rtpmap => do
    let codecs ← parseRtpmapAttribute line type codecPreference s.description.codecs
    return { s with description.codecs := codecs }
  | some .fmtp => do
    let codecs ← parseFmtpAttributes line type s.description.codecs
    return { s with description.codecs := codecs }
  | some .maxptime => do
    let maxptimeAsString ← getValue line kCodecParamMaxPTime
    return { s with maxptimeAsString }
  | some .ptime => do
    let ptimeAsString ← getValue line kCodecParamPTime
    return { s with ptimeAsString }
  | some .iceUfrag => do
    let iceUfrag ← getValue line kAttributeIceUfrag
    return { s with transport.iceUfrag := iceUfrag }
  | some .icePwd => do
    let icePwd ← getValue line kAttributeIcePwd
    return { s with transport.icePwd := icePwd }
  | some .iceOption => do
    let options ← parseIceOptions line
    return { s with transport.transportOptions := s.transport.transportOptions ++ options }
  | some (.direction direction) => return { s with description.direction := direction }
  | some .fingerprint => do
    let fingerprint ← parseFingerprintAttribute line
    return { s with transport.identityFingerprint := some fingerprint }
  | some .extmap => do
    let extmap ← parseExtmap line
    return { s with
      description.rtpHeaderExtensions := s.description.rtpHeaderExtensions ++ [extmap] }
  | none => return s

def parseContentLine (randomAppdata : U32 → Text) (type : MediaType) (codecPreference : List I32)
    (line : Text) (s : ContentState) : Parsed ContentState := do
  if isLineType line 'b' then
    if hasAttribute line kApplicationSpecificMaximum then
      let bandwidth ← getValue line kApplicationSpecificMaximum
      return { s with description.bandwidth := readInt bandwidth * 1000 }
    else return s
  else if !isLineType line 'a' then return s
  else
    parseContentAttribute inet randomAppdata type codecPreference line s
      (attributeOf contentAttributes line)

/-- The loop of `ParseContent`, up to the next m-line or the end. -/
def parseContentLines (randomAppdata : U32 → Text) (type : MediaType) (codecPreference : List I32)
    (message : Text) : Nat → Text → ContentState → Parsed (ContentState × Text)
  | 0, rest, s => return (s, rest)
  | fuel + 1, rest, s =>
    if isLineType rest 'm' then return (s, rest)
    else
      match getLine rest with
      | none =>
        if rest = [] then return (s, rest)
        else parseFailedAt message rest "Can't find valid SDP line.".toList
      | some (line, rest) => do
        let s ← parseContentLine inet randomAppdata type codecPreference line s
        parseContentLines randomAppdata type codecPreference message fuel rest s

/-! ## Tracks -/

/-- The first track with a name takes one more ssrc, or a new track does. -/
def addToTrack (syncLabel name cname : Text) (ssrc : U32) : List StreamParams → List StreamParams
  | [] => [⟨[], name, [ssrc], [], cname, syncLabel⟩]
  | t :: ts =>
    if t.name = name then { t with ssrcs := t.ssrcs ++ [ssrc], cname, syncLabel } :: ts
    else t :: addToTrack syncLabel name cname ssrc ts

/-- One round of `CreateTracksFromSsrcInfos`. -/
def addSsrcInfo (tracks : List StreamParams) (info : SsrcInfo) : List StreamParams :=
  if info.cname = [] then tracks
  else
    -- without an msid the labels of older clients count
    let (syncLabel, name) :=
      if info.msidIdentifier = kDefaultMsid ∧ info.mslabel ≠ [] then (info.mslabel, info.label)
      else (info.msidIdentifier, info.msidAppdata)
    if syncLabel = [] ∨ name = [] then tracks
    else addToTrack syncLabel name info.cname info.ssrcId tracks

def createTracksFromSsrcInfos (ssrcInfos : List SsrcInfo) : List StreamParams :=
  ssrcInfos.foldl addSsrcInfo []

/-- A group joins the tracks that have its first ssrc. -/
def addSsrcGroup (tracks : List StreamParams) (group : SsrcGroup) : List StreamParams :=
  match group.ssrcs with
  | [] => tracks
  | ssrc :: _ => tracks.map fun t =>
      if ssrc ∈ t.ssrcs then { t with ssrcGroups := t.ssrcGroups ++ [group] } else t

/-! ## The end of a section -/

def verifyAudioCodecs (codecs : List Codec) : Bool := codecs.all fun c => c.name ≠ []

def addAudioAttribute (name value : Text) (codecs : List Codec) : List Codec :=
  if value = [] then codecs else codecs.map fun c => { c with params := c.params.set name value }

/-- `ParseContent` behind its loop: the streams, the codecs and the candidates. -/
def finishContent (type : MediaType) (mlineIndex : Int) (s : ContentState) :
    Parsed (ContentState × List JsepIceCandidate) := do
  let tracks := s.ssrcGroups.foldl addSsrcGroup (createTracksFromSsrcInfos s.ssrcInfos)
  let m := { s.description with streams := s.description.streams ++ tracks }
  if type = .audio ∧ verifyAudioCodecs m.codecs = false then .error none
  else
    let codecs := if type = .audio then addAudioAttribute kCodecParamPTime s.ptimeAsString
      (addAudioAttribute kCodecParamMaxPTime s.maxptimeAsString m.codecs) else m.codecs
    let candidates := s.candidatesOrig.map fun c => JsepIceCandidate.mk s.mlineId mlineIndex
      { c with username := s.transport.iceUfrag, password := s.transport.icePwd }
    return ({ s with description := { m with codecs } }, candidates)

/-- `ParseContent`: the state behind it, its candidates and the text that remains. -/
def parseContent (randomAppdata : U32 → Text) (type : MediaType) (mlineIndex : Int)
    (codecPreference : List I32) (message rest : Text) (s : ContentState) :
    Parsed (ContentState × List JsepIceCandidate × Text) := do
  let (s, rest) ← parseContentLines inet randomAppdata type codecPreference message rest.length
    rest s
  let (s, candidates) ← finishContent type mlineIndex s
  return (s, candidates, rest)

/-! ## All sections -/

/-- `CN_AUDIO`, `CN_VIDEO` and `CN_DATA`. -/
def defaultContentName : MediaType → Text
  | .audio => "audio".toList
  | .video => "video".toList
  | .data => "data".toList

/-- The types of media in the order in which an m-line is compared with them. -/
def mediaTypes : List (Text × MediaType) :=
  [(MediaType.video.text, .video), (MediaType.audio.text, .audio), (MediaType.data.text, .data)]

/-- A section is added to the description. -/
def addSection (session : SessionPart) (s : ContentState) (rejected : Bool) (protocol : Text)
    (desc : SessionDescription) : Parsed SessionDescription :=
  let m := s.description
  let direction := if session.supportsMsid ∧ m.streams = [] ∧ m.direction = .sendrecv then
    .recvonly else m.direction
  if session.extmaps ≠ [] ∧ m.rtpHeaderExtensions ≠ [] then
    parseFailed [] "The a=extmap MUST be either all session level or all media level.".toList
  else
    let m := { m with
      direction, protocol, rtpHeaderExtensions := m.rtpHeaderExtensions ++ session.extmaps }
    let content : ContentInfo := ⟨s.contentName, nsJingleRtp, rejected, m⟩
    let desc := { desc with contents := desc.contents ++ [content] }
    match desc.addTransportInfo ⟨s.contentName, s.transport⟩ with
    | some desc => .ok desc
    | none => parseFailed [] ("Failed to AddTransportInfo with content name: ".toList ++
        s.contentName)

variable (sort : CodecSort)

def parseMediaDescription (randomAppdata : Int → U32 → Text) (message : Text)
    (session : SessionPart) : Nat → Int → Text → SessionDescription → List JsepIceCandidate →
    Parsed (SessionDescription × List JsepIceCandidate)
  | 0, _, _, desc, candidates => return (desc, candidates)
  | fuel + 1, mlineIndex, rest, desc, candidates =>
    match getLineWithType rest 'm' with
    | none => return (desc, candidates)
    | some (line, rest) =>
      match lineFields line with
      | _ :: port :: protocol :: fmt :: fmts =>
        let codecPreference := (fmt :: fmts).map readInt
        match attributeOf mediaTypes line with
        | none =>
          parseMediaDescription randomAppdata message session fuel (mlineIndex + 1) rest desc
            candidates
        | some type => do
          let s : ContentState :=
            ⟨defaultContentName type, [], .new type, session.transport, [], [], [], [], []⟩
          let (s, added, rest) ← parseContent inet (randomAppdata mlineIndex) type mlineIndex
            codecPreference message rest s
          let s := { s with description := s.description.sortCodecs sort }
          let desc ← addSection session s (port = kMediaPortRejected) protocol desc
          parseMediaDescription randomAppdata message session fuel (mlineIndex + 1) rest desc
            (candidates ++ added)
      | _ => parseFailedExpectMinFieldNum line 4

/-- `SdpDeserialize` into a new description. -/
def sdpDeserialize (randomAppdata : Int → U32 → Text) (message : Text) :
    Parsed JsepSessionDescription := do
  let (session, rest) ← parseSessionDescription message
  let (desc, candidates) ← parseMediaDescription inet sort randomAppdata message session rest.length
    0
    rest ⟨[], [], session.groups⟩ []
  return candidates.foldl JsepSessionDescription.addCandidate
    (.ofDescription desc session.sessionId session.sessionVersion)

end

end Libjingle.Sdp
