import Libjingle.Sdp.LineAccesses

/-!
# Accesses to attributes (`app/webrtc/webrtcsdp.cc`)

The parsers of attribute lines as programs that say where they read. Each does what its parser
does, on every line that `GetLine` returns, and reads nothing outside of the line.
-/

namespace Libjingle.Sdp.Traced

open Lib Lib.Logged

/-! ## Candidates -/

/-- The line has a type and begins with the attribute. -/
def isAttributeLine (line name : Text) : Traced Bool := do
  let isAttribute ← isLineType line 0 'a'
  if isAttribute then hasAttribute line name else return false

def isCandidateLine (line : Text) (isRawLine : Bool) : Traced Bool :=
  if isRawLine then return true else isAttributeLine line kAttributeCandidate

section

variable (inet : InetText)

def parseCandidate (message : Text) (isRaw : Bool) : Traced Candidate := do
  let firstLine ← getFirstLine message
  let isRawLine ← isRawCandidate firstLine
  let isCandidate ← isCandidateLine firstLine isRawLine
  if !isCandidate then
    if isRaw then
      parseFailed firstLine ("Expect line: ".toList ++ kAttributeCandidate ++
        ":<candidate-str>".toList)
    else parseFailedExpectLine firstLine 0 'a' kAttributeCandidate
  else do
    let rest ← substr firstLine (if isRawLine then 0 else 2) firstLine.length
    match ← split rest ' ' with
    | first :: component :: transport :: priority :: connectionAddress :: port :: typ :: type ::
        fields =>
      if typ ≠ kAttributeCandidateTyp then parseFailedExpectMinFieldNum firstLine 8
      else do
        let foundation ← getValue first kAttributeCandidate
        match stringToProto transport with
        | none => parseFailed firstLine "Unsupported transport type.".toList
        | some protocol =>
          match candidateType type with
          | none => parseFailed firstLine "Unsupported candidate type.".toList
          | some candidateType =>
            let (relatedAddress, fields) := parseRelatedAddress inet fields
            let (generation, username, password) := candidateExtensions fields (0, [], [])
            return {
              id := []
              component := readInt component
              protocol
              address := (HostAddress.nil.setIP inet connectionAddress).setPort (readInt port)
              priority := readU32 priority
              username
              password
              type := candidateType
              generation
              foundation
              relatedAddress }
    | _ => parseFailedExpectMinFieldNum firstLine 8

end

variable {line : Text}

def parseIceOptions (line : Text) : Traced (List Text) := do
  let iceOptions ← getValue line kAttributeIceOption
  split iceOptions ' '

/-- A colon that is not the last character is left behind; any other character there is an error. -/
def skipColon (source : Text) (srcpos : Nat) : Traced (Option Nat) :=
  if 1 < source.length - srcpos then do
    let e ← charAt source srcpos
    if e ≠ ':' then return none else return some (srcpos + 1)
  else return some srcpos

/-- The loop of `hex_decode_with_delimiter` with a colon. -/
def hexDecode : Nat → Text → Nat → Traced (Option (List U8))
  | 0, _, _ => Logged.stop .unfinished
  | fuel + 1, source, srcpos =>
    if source.length ≤ srcpos then return some []
    else if source.length - srcpos < 2 then return none
    else do
      let c ← charAt source srcpos
      match hexDecodeChar c with
      | none => return none
      | some h1 => do
        let d ← charAt source (srcpos + 1)
        match hexDecodeChar d with
        | none => return none
        | some h2 => do
          match ← skipColon source (srcpos + 2) with
          | none => return none
          | some srcpos => do
            let bytes ← hexDecode fuel source srcpos
            return bytes.map fun bytes => (h1 <<< 4 ||| h2) :: bytes

def createFromRfc4572 (algorithm fingerprint : Text) : Traced (Option SSLFingerprint) :=
  if algorithm = [] ∨ maxDigestSize < (fingerprint.length + 1) / 3 then return none
  else do
    match ← hexDecode (fingerprint.length + 1) fingerprint 0 with
    | some (b :: bytes) => return some ⟨algorithm, b :: bytes⟩
    | _ => return none

def parseFingerprintAttribute (line : Text) : Traced SSLFingerprint := do
  let isFingerprint ← isAttributeLine line kAttributeFingerprint
  if !isFingerprint then parseFailedExpectLine line 0 'a' kAttributeFingerprint
  else do
    match ← lineFields line with
    | [first, digest] => do
      let algorithm ← getValue first kAttributeFingerprint
      match ← createFromRfc4572 (algorithm.map Char.toLower) digest with
      | some fingerprint => return fingerprint
      | none => parseFailed line "Failed to create fingerprint from the digest.".toList
    | _ => parseFailedExpectFieldNum line 2

variable {source rest : Text} {srcpos : Nat}

def parseExtmap (line : Text) : Traced RtpHeaderExtension := do
  match ← lineFields line with
  | first :: uri :: _ => do
    let valueDirection ← getValue first kAttributeExtmap
    let subFields ← split valueDirection '/'
    return ⟨uri, readInt (subFields.headD [])⟩
  | _ => parseFailedExpectMinFieldNum line 2

def parseGroupAttribute (line : Text) : Traced ContentGroup := do
  let fields ← lineFields line
  let semantics ← getValue (fields.headD []) kAttributeGroup
  return fields.tail.foldl ContentGroup.addContentName ⟨semantics, []⟩

def parseCryptoAttribute (line : Text) : Traced CryptoParams := do
  match ← lineFields line with
  | first :: cryptoSuite :: keyParams :: _ => do
    let tagValue ← getValue first kAttributeCrypto
    return ⟨readInt tagValue, cryptoSuite, keyParams, []⟩
  | _ => parseFailedExpectMinFieldNum line 3

/-- One attribute is stored in a `SsrcInfo`. -/
def storeSsrcInfo (line name value : Text) (info : SsrcInfo) : Traced SsrcInfo :=
  if name = kSsrcAttributeCname then return { info with cname := value }
  else if name = kSsrcAttributeMsid then do
    match ← split value ' ' with
    | [identifier] => return { info with msidIdentifier := identifier }
    | [identifier, appdata] =>
      return { info with msidIdentifier := identifier, msidAppdata := appdata }
    | _ => parseFailed line "Expected format \"msid:<identifier>[ <appdata>]\".".toList
  else if name = kSsrcAttributeMslabel then return { info with mslabel := value }
  else if name = kSSrcAttributeLabel then return { info with label := value }
  else return info

/-- The first `SsrcInfo` with an id is updated, or a new one behind the others. -/
def updateSsrcInfo (ssrcId : U32) (new : SsrcInfo) (f : SsrcInfo → Traced SsrcInfo) :
    List SsrcInfo → Traced (List SsrcInfo)
  | [] => do
    let info ← f new
    return [info]
  | info :: infos =>
    if info.ssrcId = ssrcId then do
      let info ← f info
      return info :: infos
    else do
      let infos ← updateSsrcInfo ssrcId new f infos
      return info :: infos

def parseSsrcAttribute (randomAppdata : U32 → Text) (line : Text) (ssrcInfos : List SsrcInfo) :
    Traced (List SsrcInfo) := do
  let rest ← substr line 2 line.length
  match ← splitByDelimiter rest ' ' with
  | none => parseFailedExpectFieldNum line 2
  | some (field1, field2) => do
    let ssrcIdS ← getValue field1 kAttributeSsrc
    match ← splitByDelimiter field2 ':' with
    | none =>
      parseFailed line ("Failed to get the ssrc attribute value from ".toList ++ field2 ++
        ". Expected format <attribute>:<value>.".toList)
    | some (name, value) =>
      let ssrcId := readU32 ssrcIdS
      updateSsrcInfo ssrcId (.new ssrcId (randomAppdata ssrcId)) (storeSsrcInfo line name value)
        ssrcInfos

def parseSsrcGroupAttribute (line : Text) : Traced SsrcGroup := do
  match ← lineFields line with
  | first :: ssrc :: ssrcs => do
    let semantics ← getValue first kAttributeSsrcGroup
    return ⟨semantics, (ssrc :: ssrcs).map readU32⟩
  | _ => parseFailedExpectMinFieldNum line 2

def parseRtpmapAttribute (line : Text) (type : MediaType) (codecPreference : List I32)
    (codecs : List Codec) : Traced (List Codec) := do
  match ← lineFields line with
  | first :: encoder :: _ => do
    let payloadTypeValue ← getValue first kAttributeRtpmap
    let payloadType := readInt payloadTypeValue
    let preference := codecPreferenceOf codecPreference payloadType
    let codecParams ← split encoder '/'
    if codecParams.length < 2 ∨ 3 < codecParams.length then
      parseFailed line ("Expected format \"<encoding name>/<clock rate>".toList ++
        "[/<encodingparameters>]\".".toList)
    else
      let encodingName := codecParams.headD []
      let clockRate := readInt (codecParams[1]?.getD [])
      match type with
      | .video =>
        return codecs ++ [{ Codec.new .video payloadType with
          name := encodingName, preference, width := kMaxVideoCodecWidth
          height := kMaxVideoCodecHeight, framerate := kDefaultVideoCodecFramerate }]
      | .audio =>
        let channels := (codecParams[2]?.map readInt).getD 1
        return addOrReplaceCodec { getCodec .audio codecs payloadType with
          name := encodingName, clockrate := clockRate, bitrate := 0, channels, preference } codecs
      | .data =>
        return codecs ++ [{ Codec.new .data payloadType with name := encodingName, preference }]
  | _ => parseFailedExpectMinFieldNum line 2

def pruneRight (delimiter : Char) (message : Text) : Traced Text :=
  match find message delimiter 0 with
  | none => return message
  | some trailing => substr message 0 trailing

def parseFmtpParam (line : Text) : Traced (Text × Text) := do
  match ← splitByDelimiter line '=' with
  | none => Logged.stop (.rejected none)
  | some (parameter, value) => do
    let value ← pruneRight ';' value
    return (parameter, value)

/-- `ParseFmtpParam` of each field. -/
def parseFmtpParams : List Text → Traced (List (Text × Text))
  | [] => return []
  | field :: fields => do
    let param ← parseFmtpParam field
    let params ← parseFmtpParams fields
    return param :: params

def parseFmtpAttributes (line : Text) (type : MediaType) (codecs : List Codec) :
    Traced (List Codec) :=
  if type = .data then return codecs
  else do
    match ← lineFields line with
    | first :: param :: params => do
      let payloadType ← getValue first kAttributeFmtp
      let entries ← parseFmtpParams (param :: params)
      let codec := getCodec type codecs (readInt payloadType)
      let codecParams : CodecParameterMap := SortedMap.empty.setAll entries
      return addOrReplaceCodec { codec with params := codec.params.setAll codecParams.entries }
        codecs
    | _ => Logged.stop (.rejected none)

/-- One attribute line of the session. -/
def parseSessionLine (line : Text) (s : SessionPart) : Traced SessionPart := do
  match ← attributeOf sessionAttributes line with
  | some .group => do
    let group ← parseGroupAttribute line
    return { s with groups := s.groups ++ [group] }
  | some .iceUfrag => do
    let iceUfrag ← getValue line kAttributeIceUfrag
    return { s with transport := { s.transport with iceUfrag } }
  | some .icePwd => do
    let icePwd ← getValue line kAttributeIcePwd
    return { s with transport := { s.transport with icePwd } }
  | some .iceOption => do
    let options ← parseIceOptions line
    return { s with transport :=
      { s.transport with transportOptions := s.transport.transportOptions ++ options } }
  | some .fingerprint =>
    if s.transport.identityFingerprint.isSome then
      parseFailed line "Can't have multiple fingerprint attributes at the same level.".toList
    else do
      let fingerprint ← parseFingerprintAttribute line
      return { s with transport := { s.transport with identityFingerprint := some fingerprint } }
  | some .msidSemantics => do
    let semantics ← getValue line kAttributeMsidSemantics
    return { s with supportsMsid := semantics = kMediaStreamSematic }
  | some .extmap => do
    let extmap ← parseExtmap line
    return { s with extmaps := s.extmaps ++ [extmap] }
  | none => return s

section

variable (inet : InetText)

/-- One attribute line of a section. -/
def parseContentAttribute (randomAppdata : U32 → Text) (type : MediaType)
    (codecPreference : List I32) (line : Text) (s : ContentState) :
    Option ContentAttribute → Traced ContentState
  | some .mid => do
    let mlineId ← getValue line kAttributeMid
    return { s with mlineId, contentName := mlineId }
  | some .rtcpMux => return { s with description.rtcpMux := true }
  | some .ssrcGroup => do
    let group ← parseSsrcGroupAttribute line
    return { s with ssrcGroups := s.ssrcGroups ++ [group] }
  | some .ssrc => do
    let ssrcInfos ← parseSsrcAttribute randomAppdata line s.ssrcInfos
    return { s with ssrcInfos }
  | some .crypto => do
    let crypto ← parseCryptoAttribute line
    return { s with description.cryptos := s.description.cryptos ++ [crypto] }
  | some .candidate => do
    let candidate ← parseCandidate inet line false
    return { s with candidatesOrig := s.candidatesOrig ++ [candidate] }
  | some .rtpmap => do
    let codecs ← parseRtpmapAttribute line type codecPreference s.description.codecs
    return { s with description.codecs := codecs }
  | some .fmtp => do
    let codecs ← parseFmtpAttributes line type s.description.codecs
    return { s with description.codecs := codecs }
  | some .maxptime => do
    let maxptimeAsString ← getValue line kCodecParamMaxPTime
    return { s with maxptimeAsString }
  | some .ptime => do
    let ptimeAsString ← getValue line kCodecParamPTime
    return { s with ptimeAsString }
  | some .iceUfrag => do
    let iceUfrag ← getValue line kAttributeIceUfrag
    return { s with transport.iceUfrag := iceUfrag }
  | some .icePwd => do
    let icePwd ← getValue line kAttributeIcePwd
    return { s with transport.icePwd := icePwd }
  | some .iceOption => do
    let options ← parseIceOptions line
    return { s with transport.transportOptions := s.transport.transportOptions ++ options }
  | some (.direction direction) => return { s with description.direction := direction }
  | some .fingerprint => do
    let fingerprint ← parseFingerprintAttribute line
    return { s with transport.identityFingerprint := some fingerprint }
  | some .extmap => do
    let extmap ← parseExtmap line
    return { s with
      description.rtpHeaderExtensions := s.description.rtpHeaderExtensions ++ [extmap] }
  | none => return s

def parseBandwidth (line : Text) (s : ContentState) : Traced ContentState := do
  let isMaximum ← hasAttribute line kApplicationSpecificMaximum
  if isMaximum then do
    let bandwidth ← getValue line kApplicationSpecificMaximum
    return { s with description.bandwidth := readInt bandwidth * 1000 }
  else return s

def parseContentLine (randomAppdata : U32 → Text) (type : MediaType) (codecPreference : List I32)
    (line : Text) (s : ContentState) : Traced ContentState := do
  let isBandwidth ← isLineType line 0 'b'
  if isBandwidth then parseBandwidth line s
  else do
    -- the source asks for a bandwidth twice
    let isBandwidth ← isLineType line 0 'b'
    if isBandwidth then parseBandwidth line s
    else do
      let isAttribute ← isLineType line 0 'a'
      if !isAttribute then return s
      else do
        let a ← attributeOf contentAttributes line
        parseContentAttribute inet randomAppdata type codecPreference line s a

end

end Libjingle.Sdp.Traced
