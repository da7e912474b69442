import Libjingle.Sdp.Description

/-!
# Writing SDP (`app/webrtc/webrtcsdp.cc`)

`AddLine` is the only way the builders write, so a message under construction is the list of its
lines and `message` puts them together. `SdpSerialize` takes the message apart again, line by
line, to put the candidates in.

What `inet_ntop` and `inet_pton` do is a parameter.
-/

namespace Libjingle.Sdp

open Lib

/-- `inet_ntop`, and `inet_pton` for one of the two families. -/
structure InetText where
  ntop : IPAddress → Text
  pton : Text → Option IPAddress

/-- `IPAddress::ToString`. -/
def InetText.toString (inet : InetText) : IPAddress → Text
  | .unspec => []
  | ip => inet.ntop ip

/-! ## Attributes -/

def kAttributeGroup : Text := "group".toList
def kAttributeMid : Text := "mid".toList
def kAttributeRtcpMux : Text := "rtcp-mux".toList
def kAttributeSsrc : Text := "ssrc".toList
def kSsrcAttributeCname : Text := "cname".toList
def kAttributeExtmap : Text := "extmap".toList
def kAttributeMsidSemantics : Text := "msid-semantic".toList
def kMediaStreamSematic : Text := "WMS".toList
def kSsrcAttributeMsid : Text := "msid".toList
def kDefaultMsid : Text := "default".toList
def kSsrcAttributeMslabel : Text := "mslabel".toList
def kSSrcAttributeLabel : Text := "label".toList
def kAttributeSsrcGroup : Text := "ssrc-group".toList
def kAttributeCrypto : Text := "crypto".toList
def kAttributeCandidate : Text := "candidate".toList
def kAttributeCandidateTyp : Text := "typ".toList
def kAttributeCandidateRaddr : Text := "raddr".toList
def kAttributeCandidateRport : Text := "rport".toList
def kAttributeCandidateUsername : Text := "username".toList
def kAttributeCandidatePassword : Text := "password".toList
def kAttributeCandidateGeneration : Text := "generation".toList
def kAttributeFingerprint : Text := "fingerprint".toList
def kAttributeFmtp : Text := "fmtp".toList
def kAttributeRtpmap : Text := "rtpmap".toList
def kAttributeRtcp : Text := "rtcp".toList
def kAttributeIceUfrag : Text := "ice-ufrag".toList
def kAttributeIcePwd : Text := "ice-pwd".toList
def kAttributeIceOption : Text := "ice-options".toList
def kAttributeSendOnly : Text := "sendonly".toList
def kAttributeRecvOnly : Text := "recvonly".toList
def kAttributeSendRecv : Text := "sendrecv".toList
def kAttributeInactive : Text := "inactive".toList

def kCandidateHost : Text := "host".toList
def kCandidateSrflx : Text := "srflx".toList
def kCandidateRelay : Text := "relay".toList
def localPortType : Text := "local".toList
def stunPortType : Text := "stun".toList
def relayPortType : Text := "relay".toList

def kMediaPortRejected : Text := "0".toList
def kDefaultAddress : Text := "0.0.0.0".toList
def kDefaultPort : Text := "1".toList
def kApplicationSpecificMaximum : Text := "AS".toList
def kDefaultVideoClockrate : Nat := 90000

def kCodecParamPTime : Text := "ptime".toList
def kCodecParamMaxPTime : Text := "maxptime".toList
def kCodecParamMinPTime : Text := "minptime".toList

def kFmtpParams : List Text :=
  [kCodecParamMinPTime, "sprop-stereo".toList, "stereo".toList, "useinbandfec".toList,
   "x-google-max-bitrate".toList, "x-google-min-bitrate".toList,
   "x-google-max-quantization".toList]

/-- `kMediaTypeVideo`, `kMediaTypeAudio` and `kMediaTypeData`. -/
def MediaType.text : MediaType → Text
  | .audio => "audio".toList
  | .video => "video".toList
  | .data => "application".toList

/-! ## Lines -/

/-- `AddLine` of each line. -/
def message (lines : List Text) : Text := lines.flatMap fun line => line ++ ['\r', '\n']

/-- A carriage return at the end is dropped. -/
def chomp (line : Text) : Text := if line.getLast? = some '\r' then line.dropLast else line

/-- The line looks like `<type>=<value>`. A character is read behind the end of an empty line, and
is taken not to be an equals sign. -/
def isLine (l : Text) : Bool := l[0]? ≠ some ' ' && l[1]? = some '=' && l[2]? ≠ some ' '

/-- `GetLine`: the line and the text behind it. -/
def getLine (rest : Text) : Option (Text × Text) :=
  match splitFirst '\n' rest with
  | none => none
  | some (line, rest) => if isLine (chomp line) then some (chomp line, rest) else none

/-- `IsLineType`. -/
def isLineType (text : Text) (type : Char) : Bool := text[0]? = some type && text[1]? = some '='

/-- `InitLine`. -/
def initLine (type : Char) (value : Text) : Text := type :: '=' :: value

/-- `InitAttrLine`. -/
def initAttrLine (name : Text) : Text := initLine 'a' name

/-- An attribute line with a value. -/
def attrLine (name value : Text) : Text := initAttrLine (name ++ ':' :: value)

/-- The line of `AddSsrcLine`. -/
def ssrcLine (ssrcId : U32) (name value : Text) : Text :=
  attrLine kAttributeSsrc (natText ssrcId.toNat ++ ' ' :: name ++ ':' :: value)

/-! ## Codecs -/

/-- `_stricmp` finds no difference. -/
def equalIgnoreCase (a b : Text) : Bool := a.map Char.toLower = b.map Char.toLower

/-- `IsFmtpParam`. -/
def isFmtpParam (name : Text) : Bool := kFmtpParams.any fun p => equalIgnoreCase name p

/-- `WriteFmtpParameters`. -/
def writeFmtpParameters : List (Text × Text) → Text
  | [] => []
  | [e] => ' ' :: e.1 ++ '=' :: e.2
  | e :: es => ' ' :: e.1 ++ '=' :: e.2 ++ ';' :: writeFmtpParameters es

/-- `AddFmtpLine`. -/
def addFmtpLine (codec : Codec) : List Text :=
  let fmtp := codec.params.filter isFmtpParam
  if fmtp.entries = [] then []
  else [attrLine kAttributeFmtp (intText codec.id ++ writeFmtpParameters fmtp.entries)]

/-- `GetParameter`. -/
def getParameter (name : Text) (params : CodecParameterMap) : Option I32 :=
  (params.entries.find? fun e => e.1 = name).map fun e => readInt e.2

/-- The `a=rtpmap` line of a codec. -/
def rtpmapLine (type : MediaType) (codec : Codec) : Text :=
  attrLine kAttributeRtpmap (intText codec.id ++ ' ' :: codec.name ++ '/' ::
    match type with
    | .video => natText kDefaultVideoClockrate
    | .audio => intText codec.clockrate ++
        if codec.channels ≠ 1 then '/' :: intText codec.channels else []
    | .data => intText codec.clockrate)

/-- `GetMinValue`. -/
def getMinValue (values : List Int) : Option Int := values.min?

/-- `AddAttributeLine`. -/
def attributeLine (name : Text) (value : Int) : Text :=
  attrLine name (intText (BitVec.ofInt 32 value))

/-- The `a=maxptime` and `a=ptime` lines of an audio content. -/
def ptimeLines (codecs : List Codec) : List Text :=
  let values name := codecs.filterMap fun c => (getParameter name c.params).map BitVec.toInt
  let maxMinptime := (values kCodecParamMinPTime).foldl max 0
  let minMaxptime := getMinValue (values kCodecParamMaxPTime)
  (minMaxptime.map (attributeLine kCodecParamMaxPTime)).toList ++
  ((getMinValue (values kCodecParamPTime)).map fun ptime =>
    attributeLine kCodecParamPTime (max (min ptime (minMaxptime.getD (2 ^ 31 - 1)))
      maxMinptime)).toList

/-- `BuildRtpMap`. -/
def buildRtpMap (m : MediaContentDescription) (type : MediaType) : List Text :=
  match type with
  | .video => m.codecs.flatMap fun c => rtpmapLine .video c :: addFmtpLine c
  | .audio => (m.codecs.flatMap fun c => rtpmapLine .audio c :: addFmtpLine c) ++
      ptimeLines m.codecs
  | .data => m.codecs.map (rtpmapLine .data)

/-! ## Streams -/

/-- The `a=ssrc-group` lines of a stream. -/
def ssrcGroupLines (track : StreamParams) : List Text :=
  (track.ssrcGroups.filter fun g => g.ssrcs ≠ []).map fun g =>
    attrLine kAttributeSsrcGroup (g.semantics ++
      g.ssrcs.flatMap fun ssrc => ' ' :: natText ssrc.toNat)

/-- The `a=ssrc` lines of a stream. -/
def ssrcLines (track : StreamParams) : List Text :=
  track.ssrcs.flatMap fun ssrc =>
    [ssrcLine ssrc kSsrcAttributeCname track.cname,
     ssrcLine ssrc kSsrcAttributeMsid (track.syncLabel ++ ' ' :: track.name),
     ssrcLine ssrc kSsrcAttributeMslabel track.syncLabel,
     ssrcLine ssrc kSSrcAttributeLabel track.name]

/-- The lines of a stream that belongs to a media stream. -/
def trackLines (track : StreamParams) : List Text :=
  if track.syncLabel = [] then [] else ssrcGroupLines track ++ ssrcLines track

/-! ## Media descriptions -/

/-- `BuildIceOptions`. -/
def buildIceOptions : List Text → List Text
  | [] => []
  | o :: os => [attrLine kAttributeIceOption (o ++ os.flatMap fun x => ' ' :: x)]

/-- A digit of `hex_encode`, in upper case. -/
def hexDigit (n : Nat) : Char :=
  Char.ofNat (if n < 10 then '0'.toNat + n else 'A'.toNat + (n - 10))

/-- `GetRfc4752Fingerprint`. -/
def getRfc4752Fingerprint : List U8 → Text
  | [] => []
  | [b] => [hexDigit (b.toNat / 16), hexDigit (b.toNat % 16)]
  | b :: bs => hexDigit (b.toNat / 16) :: hexDigit (b.toNat % 16) :: ':' :: getRfc4752Fingerprint bs

/-- The lines of a transport. -/
def transportLines (t : TransportDescription) : List Text :=
  [attrLine kAttributeIceUfrag t.iceUfrag, attrLine kAttributeIcePwd t.icePwd] ++
  buildIceOptions t.transportOptions ++
  (t.identityFingerprint.map fun fp => attrLine kAttributeFingerprint
    (fp.algorithm ++ ' ' :: getRfc4752Fingerprint fp.digest)).toList

/-- The direction that is written: a content without streams does not send. -/
def writtenDirection (m : MediaContentDescription) : MediaContentDirection :=
  if m.streams = [] ∧ m.direction = .sendrecv then .recvonly else m.direction

/-- The attribute of a direction. -/
def MediaContentDirection.text : MediaContentDirection → Text
  | .inactive => kAttributeInactive
  | .sendonly => kAttributeSendOnly
  | .recvonly => kAttributeRecvOnly
  | .sendrecv => kAttributeSendRecv

/-- The `a=crypto` line. -/
def cryptoLine (c : CryptoParams) : Text :=
  attrLine kAttributeCrypto (intText c.tag ++ ' ' :: c.cipherSuite ++ ' ' :: c.keyParams ++
    if c.sessionParams = [] then [] else ' ' :: c.sessionParams)

/-- The `m=` line, with a port that is updated later. -/
def mediaLine (content : ContentInfo) (type : MediaType) : Text :=
  initLine 'm' (type.text ++ ' ' :: (if content.rejected then kMediaPortRejected else kDefaultPort)
    ++ ' ' :: content.description.protocol ++
    content.description.codecs.flatMap fun c => ' ' :: intText c.id)

/-- `BuildMediaDescription`. -/
def buildMediaDescription (content : ContentInfo) (transport : Option TransportInfo)
    (type : MediaType) : List Text :=
  let m := content.description
  [mediaLine content type] ++
  (match transport with | some t => transportLines t.description | none => []) ++
  (m.rtpHeaderExtensions.map fun e =>
    attrLine kAttributeExtmap (intText e.id ++ ' ' :: e.uri)) ++
  [initAttrLine (writtenDirection m).text, attrLine kAttributeMid content.name] ++
  (if 1000 ≤ m.bandwidth.toInt then
    [initLine 'b' (kApplicationSpecificMaximum ++ ':' ::
      intText (BitVec.ofInt 32 (m.bandwidth.toInt / 1000)))] else []) ++
  (if m.rtcpMux then [initAttrLine kAttributeRtcpMux] else []) ++
  m.cryptos.map cryptoLine ++
  buildRtpMap m type ++
  m.streams.flatMap trackLines

/-! ## The session -/

/-- `GetMediaStreamLabels`: the labels in a set. -/
def getMediaStreamLabels (content : Option ContentInfo) (labels : SortedMap Text Unit) :
    SortedMap Text Unit :=
  match content with
  | some c => labels.setAll (c.description.streams.map fun s => (s.syncLabel, ()))
  | none => labels

/-- The lines of one of the three contents. -/
def mediaLines (d : SessionDescription) (type : MediaType) : List Text :=
  match d.getFirstMediaContent type with
  | some c => buildMediaDescription c (d.getTransportInfoByName c.name) type
  | none => []

/-- The `o=` line. -/
def originLine (sessionId sessionVersion : Text) : Text :=
  initLine 'o' ("- ".toList ++ (if sessionId = [] then "0".toList else sessionId) ++ ' ' ::
    (if sessionVersion = [] then "0".toList else sessionVersion) ++ " IN IP4 127.0.0.1".toList)

/-- The `a=msid-semantic` line. -/
def msidLine (d : SessionDescription) : Text :=
  let labels := getMediaStreamLabels (d.getFirstMediaContent .video)
    (getMediaStreamLabels (d.getFirstMediaContent .audio) .empty)
  attrLine kAttributeMsidSemantics (' ' :: kMediaStreamSematic ++
    labels.entries.flatMap fun e => ' ' :: e.1)

/-- `SdpSerializeSessionDescription`. -/
def sdpSerializeSessionDescription (d : JsepSessionDescription) : List Text :=
  ["v=0".toList, originLine d.sessionId d.sessionVersion, "s=-".toList, "t=0 0".toList] ++
  ((d.description.getGroupByName groupTypeBundle).map fun g =>
    attrLine kAttributeGroup
      (groupTypeBundle ++ g.contentNames.flatMap fun n => ' ' :: n)).toList ++
  [msidLine d.description] ++
  mediaLines d.description .audio ++ mediaLines d.description .video ++
  mediaLines d.description .data

/-! ## Candidates -/

section

variable (inet : InetText)

/-- The name of a candidate type in a candidate line. -/
def candidateTypeText (type : Text) : Text :=
  if type = localPortType then kCandidateHost
  else if type = stunPortType then kCandidateSrflx
  else if type = relayPortType then kCandidateRelay
  else []

/-- One line of `BuildCandidate`. -/
def candidateLine (c : Candidate) : Text :=
  attrLine kAttributeCandidate (c.foundation ++ ' ' :: intText c.component ++ ' ' ::
    c.protocol ++ ' ' :: natText c.priority.toNat ++ ' ' :: inet.toString c.address.ip ++ ' ' ::
    natText c.address.port.toNat ++ ' ' :: kAttributeCandidateTyp ++ ' ' ::
    candidateTypeText c.type ++ ' ' ::
    (if c.relatedAddress.isNil then []
     else kAttributeCandidateRaddr ++ ' ' :: inet.toString c.relatedAddress.ip ++ ' ' ::
      kAttributeCandidateRport ++ ' ' :: natText c.relatedAddress.port.toNat ++ [' ']) ++
    kAttributeCandidateGeneration ++ ' ' :: natText c.generation.toNat)

/-- `GetCandidatePreferenceFromType`. -/
def getCandidatePreferenceFromType (type : Text) : Nat :=
  if type = localPortType then 1
  else if type = stunPortType then 2
  else if type = relayPortType then 3
  else 0

/-- One candidate of the loop in `GetDefaultDestination`. -/
def betterDestination (componentId : I32) (best : Nat × Option HostAddress) (c : Candidate) :
    Nat × Option HostAddress :=
  if c.component ≠ componentId then best
  else if getCandidatePreferenceFromType c.type ≤ best.1 then best
  else (getCandidatePreferenceFromType c.type, some c.address)

/-- `GetDefaultDestination`. -/
def getDefaultDestination (candidates : List Candidate) (componentId : I32) : Option HostAddress :=
  (candidates.foldl (betterDestination componentId) (0, none)).2

/-- The port of a default destination. -/
def destinationPort (a : Option HostAddress) : Text :=
  match a with
  | some a => natText a.port.toNat
  | none => kDefaultPort

/-- The address of a default destination. -/
def destinationIp (a : Option HostAddress) : Text :=
  match a with
  | some a => inet.toString a.ip
  | none => kDefaultAddress

/-- The port in the m-line is replaced, unless it is `0`. -/
def replacePort (mline port : Text) : Option Text :=
  match splitFirst ' ' mline with
  | none => none
  | some (media, rest) =>
    match splitFirst ' ' rest with
    | none => none
    | some (old, rest) =>
      some (media ++ ' ' :: (if old ≠ kMediaPortRejected then port else old) ++ ' ' :: rest)

/-- `UpdateMediaDefaultDestination`: the lines that stand for the m-line. -/
def updateMediaDefaultDestination (candidates : List Candidate) (mline : Text) : List Text :=
  let rtp := getDefaultDestination candidates 1
  let rtcp := getDefaultDestination candidates 2
  match replacePort mline (destinationPort rtp) with
  | none => [mline]
  | some mline =>
    [mline, initLine 'c' ("IN IP4 ".toList ++ destinationIp inet rtp),
     attrLine kAttributeRtcp (destinationPort rtcp ++ " IN IP4 ".toList ++
      destinationIp inet rtcp)]

/-- The loop of `SdpSerialize`; `index` counts the m-lines so far. -/
def insertCandidates (candidates : Nat → List Candidate) : Nat → Nat → Text → List Text
  | 0, _, _ => []
  | fuel + 1, index, sdp =>
    match getLine sdp with
    | none => []
    | some (line, rest) =>
      if isLineType line 'm' then
        updateMediaDefaultDestination inet (candidates index) line ++
          (candidates index).map (candidateLine inet) ++
          insertCandidates candidates fuel (index + 1) rest
      else line :: insertCandidates candidates fuel index rest

/-- `GetCandidatesByMindex`. -/
def getCandidatesByMindex (d : JsepSessionDescription) (index : Nat) : List Candidate :=
  ((d.candidates[index]?).getD []).map JsepIceCandidate.candidate

/-- The message. -/
def sdpSerialize (d : JsepSessionDescription) : Text :=
  let sdp := message (sdpSerializeSessionDescription d)
  message (insertCandidates inet (getCandidatesByMindex d) sdp.length 0 sdp)

end

end Libjingle.Sdp
