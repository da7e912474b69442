import Libjingle.Sdp.Serialize

/-!
# Reading the lines of SDP (`app/webrtc/webrtcsdp.cc`)

The functions that take one line apart. A failure carries what it wrote to the `SdpParseError`, or
nothing where the source returns `false` without a word.
-/

namespace Libjingle.Sdp

open Lib

/-! ## Failures -/

/-- `SdpParseError`. -/
structure SdpParseError where
  line : Text
  description : Text
  deriving DecidableEq

/-- What a parser returns, or the error it reports. -/
abbrev Parsed := Except (Option SdpParseError)

/-- `ParseFailed` at the line that `rest`, the end of the message, begins with. -/
def parseFailedAt {α : Type} (message rest description : Text) : Parsed α :=
  match splitFirst '\n' rest with
  | some (line, _) => .error (some ⟨chomp line, description⟩)
  | none => .error (some ⟨message, description⟩)

/-- `ParseFailed`. -/
def parseFailed {α : Type} (message description : Text) : Parsed α :=
  parseFailedAt message message description

/-- `ParseFailedExpectFieldNum`. -/
def parseFailedExpectFieldNum {α : Type} (message : Text) (expectedFields : Nat) : Parsed α :=
  parseFailed message ("Expects exactly ".toList ++ natText expectedFields ++ " fields.".toList)

/-- `ParseFailedExpectMinFieldNum`. -/
def parseFailedExpectMinFieldNum {α : Type} (message : Text) (expectedMinFields : Nat) : Parsed α :=
  parseFailed message ("Expects at least ".toList ++ natText expectedMinFields ++
    " fields.".toList)

/-- `ParseFailedGetValue`. -/
def parseFailedGetValue {α : Type} (message name : Text) : Parsed α :=
  parseFailed message ("Failed to get the value of attribute: ".toList ++ name)

/-- `ParseFailedExpectLine`. -/
def parseFailedExpectLine {α : Type} (message rest : Text) (lineType : Char) (lineValue : Text) :
    Parsed α :=
  parseFailedAt message rest ("Expect line: ".toList ++ lineType :: '=' :: lineValue)

/-! ## Lines and values -/

/-- `GetLineWithType`. -/
def getLineWithType (rest : Text) (type : Char) : Option (Text × Text) :=
  if isLineType rest type then getLine rest else none

/-- `HasAttribute`. -/
def hasAttribute (line name : Text) : Bool := name.isPrefixOf (line.drop 2)

/-- The value behind the first colon. -/
def getValue (message name : Text) : Parsed Text :=
  match splitFirst ':' message with
  | none => parseFailedGetValue message name
  | some (left, value) =>
    if name.isSuffixOf left then .ok value else parseFailedGetValue message name

/-- The fields of a line behind its type. -/
def lineFields (line : Text) : List Text := (line.drop 2).splitOn ' '

/-! ## Candidates -/

def protoNames : List Text := ["udp".toList, "tcp".toList, "ssltcp".toList]

/-- `StringToProto` and `ProtoToString`. -/
def stringToProto (value : Text) : Option Text := protoNames.find? fun p => equalIgnoreCase p value

section

variable (inet : InetText)

/-- `SetIP` of a host name. -/
def HostAddress.setIP (a : HostAddress) (hostname : Text) : HostAddress :=
  { a with hostname, ip := (inet.pton hostname).getD .unspec }

end

/-- `SetPort`. -/
def HostAddress.setPort (a : HostAddress) (port : I32) : HostAddress :=
  { a with port := port.setWidth 16 }

/-- The constructor without arguments. -/
def HostAddress.nil : HostAddress := ⟨[], .unspec, 0⟩

/-- `GetFirstLine`. -/
def getFirstLine (message : Text) : Text :=
  match getLine message with
  | some (line, _) => line
  | none => message

/-- `IsRawCandidate`. -/
def isRawCandidate (line : Text) : Bool :=
  kAttributeCandidate.isPrefixOf line && line.count ':' = 1

/-- The cricket name of a candidate type. -/
def candidateType (type : Text) : Option Text :=
  if type = kCandidateHost then some localPortType
  else if type = kCandidateSrflx then some stunPortType
  else if type = kCandidateRelay then some relayPortType
  else none

/-- The field behind a keyword, when the next two fields are the keyword and its value. -/
def takeField (keyword : Text) : List Text → Option (Text × List Text)
  | k :: value :: rest => if k = keyword then some (value, rest) else none
  | _ => none

/-- The extensions: generation, username and password. -/
def candidateExtensions : List Text → U32 × Text × Text → U32 × Text × Text
  | k :: value :: rest, (generation, username, password) =>
    if k = kAttributeCandidateGeneration then
      candidateExtensions rest (readU32 value, username, password)
    else if k = kAttributeCandidateUsername then
      candidateExtensions rest (generation, value, password)
    else if k = kAttributeCandidatePassword then
      candidateExtensions rest (generation, username, value)
    else candidateExtensions rest (generation, username, password)
  | _, extensions => extensions

section

variable (inet : InetText)

/-- The optional related address, and the fields behind it. -/
def parseRelatedAddress (fields : List Text) : HostAddress × List Text :=
  let (address, fields) :=
    match takeField kAttributeCandidateRaddr fields with
    | some (ip, rest) => (HostAddress.nil.setIP inet ip, rest)
    | none => (HostAddress.nil, fields)
  match takeField kAttributeCandidateRport fields with
  | some (port, rest) => (address.setPort (readInt port), rest)
  | none => (address, fields)

/-- `ParseCandidate`. -/
def parseCandidate (message : Text) (isRaw : Bool) : Parsed Candidate := do
  let firstLine := getFirstLine message
  let isRawLine := isRawCandidate firstLine
  if !isRawLine && (!isLineType firstLine 'a' || !hasAttribute firstLine kAttributeCandidate) then
    if isRaw then
      parseFailed firstLine ("Expect line: ".toList ++ kAttributeCandidate ++
        ":<candidate-str>".toList)
    else parseFailedExpectLine firstLine firstLine 'a' kAttributeCandidate
  else
    match (firstLine.drop (if isRawLine then 0 else 2)).splitOn ' ' with
    | first :: component :: transport :: priority :: connectionAddress :: port :: typ :: type ::
        fields =>
      if typ ≠ kAttributeCandidateTyp then parseFailedExpectMinFieldNum firstLine 8
      else
        let foundation ← getValue first kAttributeCandidate
        match stringToProto transport with
        | none => parseFailed firstLine "Unsupported transport type.".toList
        | some protocol =>
          match candidateType type with
          | none => parseFailed firstLine "Unsupported candidate type.".toList
          | some candidateType =>
            let (relatedAddress, fields) := parseRelatedAddress inet fields
            let (generation, username, password) := candidateExtensions fields (0, [], [])
            return {
              id := []
              component := readInt component
              protocol
              address := (HostAddress.nil.setIP inet connectionAddress).setPort (readInt port)
              priority := readU32 priority
              username
              password
              type := candidateType
              generation
              foundation
              relatedAddress }
    | _ => parseFailedExpectMinFieldNum firstLine 8

end

/-! ## Transports -/

/-- `ParseIceOptions`: the options that are added. -/
def parseIceOptions (line : Text) : Parsed (List Text) := do
  let iceOptions ← getValue line kAttributeIceOption
  return iceOptions.splitOn ' '

/-- `hex_decode` of one character, which takes the whole alphabet for digits. -/
def hexDecodeChar (c : Char) : Option U8 :=
  if '0' ≤ c ∧ c ≤ '9' then some (BitVec.ofNat 8 (c.toNat - '0'.toNat))
  else if 'A' ≤ c ∧ c ≤ 'Z' then some (BitVec.ofNat 8 (c.toNat - 'A'.toNat + 10))
  else if 'a' ≤ c ∧ c ≤ 'z' then some (BitVec.ofNat 8 (c.toNat - 'a'.toNat + 10))
  else none

/-- The loop of `hex_decode_with_delimiter` with a colon. -/
def hexDecode : Text → Option (List U8)
  | [] => some []
  | [_] => none
  | [c, d] => do
    let h1 ← hexDecodeChar c
    let h2 ← hexDecodeChar d
    return [h1 <<< 4 ||| h2]
  | [_, _, _] => none
  | c :: d :: e :: rest => do
    let h1 ← hexDecodeChar c
    let h2 ← hexDecodeChar d
    if e = ':' then
      let bytes ← hexDecode rest
      return (h1 <<< 4 ||| h2) :: bytes
    else none

/-- `MessageDigest::kMaxSize`. -/
def maxDigestSize : Nat := 64

/-- `CreateFromRfc4572`. -/
def createFromRfc4572 (algorithm fingerprint : Text) : Option SSLFingerprint :=
  if algorithm = [] ∨ maxDigestSize < (fingerprint.length + 1) / 3 then none
  else
    match hexDecode fingerprint with
    | some (b :: bytes) => some ⟨algorithm, b :: bytes⟩
    | _ => none

/-- `ParseFingerprintAttribute`. -/
def parseFingerprintAttribute (line : Text) : Parsed SSLFingerprint := do
  if !isLineType line 'a' || !hasAttribute line kAttributeFingerprint then
    parseFailedExpectLine line line 'a' kAttributeFingerprint
  else
    match lineFields line with
    | [first, digest] =>
      let algorithm ← getValue first kAttributeFingerprint
      match createFromRfc4572 (algorithm.map Char.toLower) digest with
      | some fingerprint => return fingerprint
      | none => parseFailed line "Failed to create fingerprint from the digest.".toList
    | _ => parseFailedExpectFieldNum line 2

/-! ## Groups and header extensions -/

/-- `ParseExtmap`. -/
def parseExtmap (line : Text) : Parsed RtpHeaderExtension := do
  match lineFields line with
  | first :: uri :: _ =>
    let valueDirection ← getValue first kAttributeExtmap
    return ⟨uri, readInt ((valueDirection.splitOn '/').headD [])⟩
  | _ => parseFailedExpectMinFieldNum line 2

/-- `ParseGroupAttribute`. -/
def parseGroupAttribute (line : Text) : Parsed ContentGroup := do
  let fields := lineFields line
  let semantics ← getValue (fields.headD []) kAttributeGroup
  return fields.tail.foldl ContentGroup.addContentName ⟨semantics, []⟩

/-! ## Cryptos -/

/-- `ParseCryptoAttribute`. -/
def parseCryptoAttribute (line : Text) : Parsed CryptoParams := do
  match lineFields line with
  | first :: cryptoSuite :: keyParams :: _ =>
    let tagValue ← getValue first kAttributeCrypto
    return ⟨readInt tagValue, cryptoSuite, keyParams, []⟩
  | _ => parseFailedExpectMinFieldNum line 3

/-! ## Streams -/

/-- `SsrcInfo`. -/
structure SsrcInfo where
  ssrcId : U32
  cname : Text
  msidIdentifier : Text
  msidAppdata : Text
  label : Text
  mslabel : Text
  deriving DecidableEq

/-- The constructor; the appdata is a random string. -/
def SsrcInfo.new (ssrcId : U32) (randomAppdata : Text) : SsrcInfo :=
  ⟨ssrcId, [], kDefaultMsid, randomAppdata, [], []⟩

/-- One attribute is stored in a `SsrcInfo`. -/
def SsrcInfo.store (line name value : Text) (info : SsrcInfo) : Parsed SsrcInfo :=
  if name = kSsrcAttributeCname then .ok { info with cname := value }
  else if name = kSsrcAttributeMsid then
    match value.splitOn ' ' with
    | [identifier] => .ok { info with msidIdentifier := identifier }
    | [identifier, appdata] =>
      .ok { info with msidIdentifier := identifier, msidAppdata := appdata }
    | _ => parseFailed line "Expected format \"msid:<identifier>[ <appdata>]\".".toList
  else if name = kSsrcAttributeMslabel then .ok { info with mslabel := value }
  else if name = kSSrcAttributeLabel then .ok { info with label := value }
  else .ok info

/-- The first `SsrcInfo` with an id is updated, or a new one behind the others. -/
def updateSsrcInfo (ssrcId : U32) (new : SsrcInfo) (f : SsrcInfo → Parsed SsrcInfo) :
    List SsrcInfo → Parsed (List SsrcInfo)
  | [] => do
    let info ← f new
    return [info]
  | info :: infos => do
    if info.ssrcId = ssrcId then
      let info ← f info
      return info :: infos
    else
      let infos ← updateSsrcInfo ssrcId new f infos
      return info :: infos

/-- `ParseSsrcAttribute`. The random strings are a parameter. -/
def parseSsrcAttribute (randomAppdata : U32 → Text) (line : Text) (ssrcInfos : List SsrcInfo) :
    Parsed (List SsrcInfo) := do
  match splitFirst ' ' (line.drop 2) with
  | none => parseFailedExpectFieldNum line 2
  | some (field1, field2) =>
    let ssrcIdS ← getValue field1 kAttributeSsrc
    match splitFirst ':' field2 with
    | none =>
      parseFailed line ("Failed to get the ssrc attribute value from ".toList ++ field2 ++
        ". Expected format <attribute>:<value>.".toList)
    | some (name, value) =>
      let ssrcId := readU32 ssrcIdS
      updateSsrcInfo ssrcId (.new ssrcId (randomAppdata ssrcId)) (SsrcInfo.store line name value)
        ssrcInfos

/-- `ParseSsrcGroupAttribute`. -/
def parseSsrcGroupAttribute (line : Text) : Parsed SsrcGroup := do
  match lineFields line with
  | first :: ssrc :: ssrcs =>
    let semantics ← getValue first kAttributeSsrcGroup
    return ⟨semantics, (ssrc :: ssrcs).map readU32⟩
  | _ => parseFailedExpectMinFieldNum line 2

/-! ## Codecs -/

/-- `kVideoCodecClockrate` and `kDataCodecClockrate`. -/
def kCodecClockrate : I32 := 90000
def kMaxVideoCodecWidth : I32 := 1280
def kMaxVideoCodecHeight : I32 := 720
def kDefaultVideoCodecFramerate : I32 := 30

/-- The constructor without arguments of each kind of codec, with its payload type. -/
def Codec.new (type : MediaType) (id : I32) : Codec :=
  ⟨id, [], if type = .audio then 0 else kCodecClockrate, 0, .empty, 0, 0, 0, 0, 0⟩

/-- `GetCodec`. -/
def getCodec (type : MediaType) (codecs : List Codec) (payloadType : I32) : Codec :=
  (codecs.find? fun c => c.id = payloadType).getD (.new type payloadType)

/-- `AddOrReplaceCodec`. -/
def addOrReplaceCodec (codec : Codec) : List Codec → List Codec
  | [] => [codec]
  | c :: codecs => if c.id = codec.id then codec :: codecs else c :: addOrReplaceCodec codec codecs

/-- The preference of a payload type by its place in the m-line. -/
def codecPreferenceOf (codecPreference : List I32) (payloadType : I32) : Int :=
  codecPreference.length - codecPreference.idxOf payloadType

/-- `ParseRtpmapAttribute`: what becomes of the codecs. -/
def parseRtpmapAttribute (line : Text) (type : MediaType) (codecPreference : List I32)
    (codecs : List Codec) : Parsed (List Codec) := do
  match lineFields line with
  | first :: encoder :: _ =>
    let payloadTypeValue ← getValue first kAttributeRtpmap
    let payloadType := readInt payloadTypeValue
    let preference := codecPreferenceOf codecPreference payloadType
    let codecParams := encoder.splitOn '/'
    if codecParams.length < 2 ∨ 3 < codecParams.length then
      parseFailed line ("Expected format \"<encoding name>/<clock rate>".toList ++
        "[/<encodingparameters>]\".".toList)
    else
      let encodingName := codecParams.headD []
      let clockRate := readInt (codecParams[1]?.getD [])
      match type with
      | .video =>
        return codecs ++ [{ Codec.new .video payloadType with
          name := encodingName, preference, width := kMaxVideoCodecWidth
          height := kMaxVideoCodecHeight, framerate := kDefaultVideoCodecFramerate }]
      | .audio =>
        let channels := (codecParams[2]?.map readInt).getD 1
        return addOrReplaceCodec { getCodec .audio codecs payloadType with
          name := encodingName, clockrate := clockRate, bitrate := 0, channels, preference } codecs
      | .data =>
        return codecs ++ [{ Codec.new .data payloadType with name := encodingName, preference }]
  | _ => parseFailedExpectMinFieldNum line 2

/-- `PruneRight`. -/
def pruneRight (delimiter : Char) (message : Text) : Text :=
  match splitFirst delimiter message with
  | some (left, _) => left
  | none => message

/-- `ParseFmtpParam`. -/
def parseFmtpParam (line : Text) : Parsed (Text × Text) :=
  match splitFirst '=' line with
  | none => .error none
  | some (parameter, value) => .ok (parameter, pruneRight ';' value)

/-- `ParseFmtpAttributes`: what becomes of the codecs. -/
def parseFmtpAttributes (line : Text) (type : MediaType) (codecs : List Codec) :
    Parsed (List Codec) := do
  if type = .data then return codecs
  match lineFields line with
  | first :: param :: params =>
    let payloadType ← getValue first kAttributeFmtp
    let entries ← (param :: params).mapM parseFmtpParam
    let codec := getCodec type codecs (readInt payloadType)
    let codecParams : CodecParameterMap := SortedMap.empty.setAll entries
    return addOrReplaceCodec { codec with params := codec.params.setAll codecParams.entries } codecs
  | _ => .error none

end Libjingle.Sdp
