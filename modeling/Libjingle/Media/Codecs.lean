import Libjingle.Sdp.Serialize

/-!
# Codecs of an offer and an answer (`session/media/mediasession.cc`, `media/base/codec.cc`)

Which codecs an offer lists, and with which payload types; which codecs an answer keeps.
-/

namespace Libjingle.Media

open Lib Sdp

/-! ## Matching -/

def kMaxStaticPayloadId : Int := 95
def kRtxCodecName : Text := "rtx".toList
def kCodecParamAssociatedPayloadType : Text := "apt".toList

/-- `Codec::Matches` by payload type or name. -/
def matchesId (c : Codec) (payload : I32) (name : Text) : Bool :=
  if payload.toInt ≤ kMaxStaticPayloadId then c.id = payload else equalIgnoreCase c.name name

/-- `Matches` of a codec of each kind. -/
def codecMatches (type : MediaType) (c codec : Codec) : Bool :=
  match type with
  | .audio =>
    matchesId c codec.id codec.name &&
      (codec.clockrate = 0 || c.clockrate = codec.clockrate) &&
      (codec.bitrate = 0 || c.bitrate.toInt ≤ 0 || c.bitrate = codec.bitrate) &&
      ((codec.channels.toInt < 2 && c.channels.toInt < 2) || c.channels = codec.channels)
  | .video => matchesId c codec.id codec.name
  | .data => matchesId c codec.id codec.name

/-- `IsRtxCodec`. -/
def isRtxCodec (c : Codec) : Bool := equalIgnoreCase c.name kRtxCodecName

/-- The payload type that an RTX codec refers to, as it is read with `operator[]`. -/
def aptOf (c : Codec) : I32 := readInt ((c.params.get? kCodecParamAssociatedPayloadType).getD [])

/-- `ContainsRtxCodec`. -/
def containsRtxCodec (codecs : List Codec) : Bool := codecs.any isRtxCodec

/-! ## Payload types -/

/-- `kDynamicPayloadTypeMax` down to `kDynamicPayloadTypeMin`. -/
def dynamicPayloadTypes : List I32 := (List.range 32).map fun i => BitVec.ofNat 32 (127 - i)

/-- `IsDynamic`: the payload types that are given out. -/
def isDynamic (payloadType : I32) : Bool := 96 ≤ payloadType.toInt && payloadType.toInt ≤ 127

/-- `UsedPayloadTypes`: the payload type that each one was asked for, and `0` when it is not in use.
-/
abbrev UsedPayloadTypes := I32 → I32

namespace UsedPayloadTypes

def new : UsedPayloadTypes := fun _ => 0

/-- The first in reverse order that satisfies a condition, or the one below all of them. -/
def findPayloadType (p : I32 → Bool) : I32 := (dynamicPayloadTypes.find? p).getD 95

/-- `FindUnusedPayloadType`. -/
def findUnusedPayloadType (u : UsedPayloadTypes) : I32 := findPayloadType fun t => u t = 0

/-- `IsPayloadTypeUsed`. -/
def isPayloadTypeUsed (u : UsedPayloadTypes) (payloadType : I32) : Bool :=
  isDynamic payloadType && u payloadType ≠ 0

/-- `SetPayloadTypeUsed`: the type, by the one it was asked for. -/
def setPayloadTypeUsed (u : UsedPayloadTypes) (newType originalType : I32) : UsedPayloadTypes :=
  if isDynamic newType then Function.update u newType originalType else u

/-- `FindNewPayloadType`: the type given for an original one. -/
def findNewPayloadType (u : UsedPayloadTypes) (originalType : I32) : I32 :=
  findPayloadType fun t => u t = originalType

/-- `FindAndSetPayloadTypeUsed` of a codec. -/
def findAndSetPayloadTypeUsed (u : UsedPayloadTypes) (codec : Codec) : Codec × UsedPayloadTypes :=
  let newType := if u.isPayloadTypeUsed codec.id then u.findUnusedPayloadType else codec.id
  ({ codec with id := newType }, u.setPayloadTypeUsed newType codec.id)

/-- `FindAndSetPayloadTypesUsed` of a list. -/
def findAndSetPayloadTypesUsed (u : UsedPayloadTypes) :
    List Codec → List Codec × UsedPayloadTypes
  | [] => ([], u)
  | codec :: codecs =>
    let (codec, u) := u.findAndSetPayloadTypeUsed codec
    let (codecs, u) := u.findAndSetPayloadTypesUsed codecs
    (codec :: codecs, u)

/-- `UpdateRtxCodecs`. The parameter is read with `operator[]`, so one that is missing is read as an
empty text; no payload type is then `0`, and it is filled in. -/
def updateRtxCodecs (u : UsedPayloadTypes) (codecs : List Codec) : List Codec :=
  codecs.map fun c =>
    if isRtxCodec c then
      let referenced := readInt ((c.params.get? kCodecParamAssociatedPayloadType).getD [])
      let updated := u.findNewPayloadType referenced
      if updated ≠ referenced then
        { c with params := c.params.set kCodecParamAssociatedPayloadType (intText updated) }
      else c
    else c

end UsedPayloadTypes

open UsedPayloadTypes

/-- `FindMatchingCodec`. -/
def hasMatchingCodec (type : MediaType) (codecs : List Codec) (codecToMatch : Codec) : Bool :=
  codecs.any fun c => codecMatches type c codecToMatch

/-- The loop of `FindCodecsToOffer`. -/
def addCodecsToOffer (type : MediaType) :
    List Codec → List Codec → UsedPayloadTypes → List Codec × UsedPayloadTypes
  | [], offered, u => (offered, u)
  | c :: reference, offered, u =>
    if hasMatchingCodec type offered c then addCodecsToOffer type reference offered u
    else
      let (codec, u) := u.findAndSetPayloadTypeUsed c
      addCodecsToOffer type reference (offered ++ [codec]) u

/-- `FindCodecsToOffer`. -/
def findCodecsToOffer (type : MediaType) (reference offered : List Codec) (u : UsedPayloadTypes) :
    List Codec × UsedPayloadTypes :=
  let (offered, u) := addCodecsToOffer type reference offered u
  (u.updateRtxCodecs offered, u)

/-- The codecs of the three kinds. -/
structure CodecLists where
  audio : List Codec
  video : List Codec
  data : List Codec

namespace CodecLists

/-- The codecs of a kind. -/
def of (l : CodecLists) : MediaType → List Codec
  | .audio => l.audio
  | .video => l.video
  | .data => l.data

/-- All codecs. -/
def all (l : CodecLists) : List Codec := l.audio ++ l.video ++ l.data

end CodecLists

/-- The codecs of the first content of a kind, when there is one. -/
def currentCodecs (current : Option SessionDescription) (type : MediaType) : List Codec :=
  match current.bind fun d => d.getFirstMediaContent type with
  | some content => content.description.codecs
  | none => []

/-- The codecs of the current description and those of the factory that are new. -/
def getCodecsToOffer (factory : CodecLists) (current : Option SessionDescription) : CodecLists :=
  let (audio, u) := findAndSetPayloadTypesUsed .new (currentCodecs current .audio)
  let (video, u) := findAndSetPayloadTypesUsed u (currentCodecs current .video)
  let (data, u) := findAndSetPayloadTypesUsed u (currentCodecs current .data)
  let (audio, u) := findCodecsToOffer .audio factory.audio audio u
  let (video, u) := findCodecsToOffer .video factory.video video u
  let (data, _) := findCodecsToOffer .data factory.data data u
  ⟨audio, video, data⟩

/-! ## Answers -/

/-- What an answer makes of a codec that matches one of the offer. -/
def negotiatedCodec (ours theirs : Codec) : Codec :=
  { ours with
    id := theirs.id
    params := if isRtxCodec ours then theirs.params else ours.params }

/-- The codecs of an answer. -/
def negotiateCodecs (type : MediaType) (localCodecs offeredCodecs : List Codec) : List Codec :=
  localCodecs.flatMap fun ours =>
    (offeredCodecs.filter fun theirs => codecMatches type ours theirs).map (negotiatedCodec ours)

end Libjingle.Media
