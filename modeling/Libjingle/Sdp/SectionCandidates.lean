import Libjingle.Sdp.Lines

/-!
# Candidates in the sections of a text (`SdpSerialize`)

The sections are written in the order audio, video, data, and the candidates are put in by the
number of the m-line. A description keeps its candidates by the number of the content.

* **`candidates_stay_iff`**: when the candidates of a content stand under its m-line.
-/

namespace Libjingle.Sdp

open Lib

/-! ## Texts -/

/-- The strings of a codec that are written. -/
def Codec.texts (c : Codec) : List Text := c.name :: c.params.entries.flatMap fun e => [e.1, e.2]

/-- The strings of a stream that are written. -/
def StreamParams.texts (t : StreamParams) : List Text :=
  [t.name, t.cname, t.syncLabel] ++ t.ssrcGroups.map SsrcGroup.semantics

/-- The strings of a transport that are written. -/
def TransportDescription.texts (t : TransportDescription) : List Text :=
  [t.iceUfrag, t.icePwd] ++ t.transportOptions ++
    (t.identityFingerprint.map SSLFingerprint.algorithm).toList

/-- The strings of a content that are written. -/
def ContentInfo.texts (c : ContentInfo) : List Text :=
  [c.name, c.description.protocol] ++
    c.description.rtpHeaderExtensions.map RtpHeaderExtension.uri ++
    (c.description.cryptos.flatMap fun x => [x.cipherSuite, x.keyParams, x.sessionParams]) ++
    c.description.codecs.flatMap Codec.texts ++ c.description.streams.flatMap StreamParams.texts

/-- The strings of a description that are written. -/
def JsepSessionDescription.texts (d : JsepSessionDescription) : List Text :=
  [d.sessionId, d.sessionVersion] ++ d.description.groups.flatMap ContentGroup.contentNames ++
    d.description.contents.flatMap ContentInfo.texts ++
    (d.description.transportInfos.flatMap fun t => t.description.texts) ++
    d.candidates.flatten.flatMap fun c => [c.candidate.foundation, c.candidate.protocol]

/-- None of the strings has a line break. -/
def OneLine (texts : List Text) : Prop := ∀ t ∈ texts, '\n' ∉ t

instance (texts : List Text) : Decidable (OneLine texts) := List.decidableBAll _ texts

theorem OneLine.of_flatMap {α : Type} {f : α → List Text} {l : List α} (h : OneLine (l.flatMap f))
    {x : α} (hx : x ∈ l) : OneLine (f x) :=
  fun t ht => h t (List.mem_flatMap.mpr ⟨x, hx, ht⟩)

@[simp] theorem oneLine_append {l l' : List Text} : OneLine (l ++ l') ↔ OneLine l ∧ OneLine l' :=
  List.forall_mem_append

@[simp] theorem oneLine_cons {t : Text} {l : List Text} :
    OneLine (t :: l) ↔ '\n' ∉ t ∧ OneLine l :=
  List.forall_mem_cons

@[simp] theorem oneLine_nil : OneLine [] := List.forall_mem_nil _

/-! ## Lines of a section -/

/-- The line begins a section of a kind. -/
def isMediaLine (type : MediaType) (line : Text) : Bool :=
  (initLine 'm' (type.text ++ [' '])).isPrefixOf line

def isCandidateLine (line : Text) : Bool :=
  (initAttrLine (kAttributeCandidate ++ [':'])).isPrefixOf line

/-- An attribute line that is no candidate line, or a bandwidth or connection line. -/
inductive BodyLine : Text → Prop where
  | attr {name value : Text} (hname : Keyword name) (hne : name ≠ kAttributeCandidate)
      (hvalue : '\n' ∉ value) : BodyLine (attrLine name value)
  | flag {name : Text} (hname : Keyword name) : BodyLine (initAttrLine name)
  | other {type : Char} {value : Text} (htype : type = 'b' ∨ type = 'c')
      (hhead : value.head? ≠ some ' ') (hvalue : '\n' ∉ value) : BodyLine (initLine type value)

theorem prefix_delimiter_iff {d : Char} {k name value : Text} (hk : d ∉ k) (hname : d ∉ name) :
    k ++ [d] <+: name ++ d :: value ↔ name = k := by
  constructor
  · rintro ⟨t, ht⟩
    have hk' := splitFirst_append hk t
    have hname' := splitFirst_append hname value
    rw [List.append_assoc, List.singleton_append] at ht
    rw [ht, hname'] at hk'
    exact (Prod.mk.inj (Option.some.inj hk')).1
  · rintro rfl
    exact ⟨value, by simp⟩

theorem BodyLine.not_candidate {line : Text} (h : BodyLine line) :
    isCandidateLine line = false := by
  rw [Bool.eq_false_iff, isCandidateLine, ne_eq, List.isPrefixOf_iff_prefix]
  have hcolon : ':' ∉ kAttributeCandidate := by decide
  cases h with
  | attr hname hne _ =>
    rw [initAttrLine, attrLine, initAttrLine, initLine, initLine, List.cons_prefix_cons,
      List.cons_prefix_cons, prefix_delimiter_iff hcolon hname.colon]
    exact fun hp => hne hp.2.2
  | flag hname =>
    rw [initAttrLine, initAttrLine, initLine, initLine, List.cons_prefix_cons,
      List.cons_prefix_cons]
    rintro ⟨-, -, t, ht⟩
    refine hname.colon ?_
    rw [← ht]
    simp
  | other htype _ _ =>
    rw [initAttrLine, initLine, initLine, List.cons_prefix_cons]
    rintro ⟨rfl, -⟩
    simp at htype

theorem BodyLine.not_media {line : Text} (h : BodyLine line) : isLineType line 'm' = false := by
  cases h with
  | attr => rfl
  | flag => rfl
  | other htype _ _ =>
    rcases htype with rfl | rfl
    · rfl
    · rfl

theorem BodyLine.line {line : Text} (h : BodyLine line) : Line line := by
  cases h with
  | attr hname _ hvalue => exact Line.attr hname hvalue
  | flag hname => exact Line.initAttr hname
  | other htype hhead hvalue =>
    refine Line.init ?_ hvalue hhead
    rcases htype with rfl | rfl
    · decide
    · decide

/-- The lines of a section behind its m-line. -/
def mediaBody (content : ContentInfo) (transport : Option TransportInfo) (type : MediaType) :
    List Text :=
  (buildMediaDescription content transport type).tail

theorem buildMediaDescription_eq (content : ContentInfo) (transport : Option TransportInfo)
    (type : MediaType) : buildMediaDescription content transport type =
      mediaLine content type :: mediaBody content transport type := by
  simp [mediaBody, buildMediaDescription]

theorem newline_ne_hexDigit {n : Nat} (h : n < 16) : '\n' ≠ hexDigit n := by
  have hall : ∀ m : Fin 16, '\n' ≠ hexDigit m := by decide
  exact hall ⟨n, h⟩

theorem newline_notMem_fingerprint (digest : List U8) :
    '\n' ∉ getRfc4752Fingerprint digest := by
  have hdigits : ∀ b : U8, '\n' ≠ hexDigit (b.toNat / 16) ∧ '\n' ≠ hexDigit (b.toNat % 16) :=
    fun b => ⟨newline_ne_hexDigit (by have := b.isLt; omega), newline_ne_hexDigit (by omega)⟩
  induction digest with
  | nil => exact List.not_mem_nil
  | cons b bs ih =>
    cases bs with
    | nil => simp [getRfc4752Fingerprint, hdigits b]
    | cons b' bs =>
      rw [getRfc4752Fingerprint]
      · simp only [List.mem_cons, not_or]
        exact ⟨(hdigits b).1, (hdigits b).2, by decide, ih⟩
      · exact List.cons_ne_nil _ _

theorem bodyLine_transport {t : TransportDescription} (h : OneLine t.texts) :
    ∀ line ∈ transportLines t, BodyLine line := by
  simp only [TransportDescription.texts, oneLine_append, oneLine_cons, oneLine_nil, and_true] at h
  obtain ⟨⟨⟨hufrag, hpwd⟩, hoptions⟩, halgorithm⟩ := h
  unfold transportLines
  simp only [List.mem_append, List.mem_cons, List.not_mem_nil, or_false]
  rintro line (((rfl | rfl) | hline) | hline)
  · exact .attr (by decide) (by decide) hufrag
  · exact .attr (by decide) (by decide) hpwd
  · cases hopts : t.transportOptions with
    | nil =>
      rw [hopts] at hline
      cases hline
    | cons o os =>
      rw [hopts, buildIceOptions, List.mem_singleton] at hline
      rw [hopts, oneLine_cons] at hoptions
      rw [hline]
      refine .attr (by decide) (by decide) ?_
      rw [List.mem_append, not_or]
      exact ⟨hoptions.1, notMem_flatMap_cons (by decide) hoptions.2⟩
  · rw [Option.mem_toList] at hline
    obtain ⟨fp, hfp, rfl⟩ := Option.map_eq_some_iff.mp hline
    rw [hfp] at halgorithm
    refine .attr (by decide) (by decide) ?_
    simp only [List.mem_append, List.mem_cons, not_or]
    exact ⟨halgorithm _ List.mem_cons_self, by decide, newline_notMem_fingerprint fp.digest⟩

theorem newline_notMem_fmtp {entries : List (Text × Text)}
    (h : ∀ e ∈ entries, '\n' ∉ e.1 ∧ '\n' ∉ e.2) : '\n' ∉ writeFmtpParameters entries := by
  induction entries with
  | nil => exact List.not_mem_nil
  | cons e es ih =>
    obtain ⟨hname, hvalue⟩ := h e List.mem_cons_self
    cases es with
    | nil => simp [writeFmtpParameters, hname, hvalue]
    | cons e' es =>
      have hrest := ih fun x hx => h x (List.mem_cons_of_mem _ hx)
      rw [writeFmtpParameters]
      · simp [hname, hvalue, hrest]
      · exact List.cons_ne_nil _ _

theorem bodyLine_fmtp {c : Codec} (h : OneLine c.texts) :
    ∀ line ∈ addFmtpLine c, BodyLine line := by
  unfold addFmtpLine
  intro line hline
  dsimp only at hline
  split at hline
  · cases hline
  · rw [List.mem_singleton.mp hline]
    refine .attr (by decide) (by decide) ?_
    rw [List.mem_append, not_or, SortedMap.entries_filter]
    refine ⟨newline_notMem_intText _, newline_notMem_fmtp fun e he => ?_⟩
    have hentry := OneLine.of_flatMap (oneLine_cons.mp h).2 (List.mem_filter.mp he).1
    simpa using hentry

theorem bodyLine_rtpmap (type : MediaType) {c : Codec} (h : '\n' ∉ c.name) :
    BodyLine (rtpmapLine type c) := by
  refine .attr (by decide) (by decide) ?_
  cases type with
  | audio =>
    dsimp only
    split <;> simp [h, newline_notMem_intText]
  | video => simp [h, newline_notMem_intText, newline_notMem_natText]
  | data => simp [h, newline_notMem_intText]

theorem bodyLine_ptime (codecs : List Codec) : ∀ line ∈ ptimeLines codecs, BodyLine line := by
  unfold ptimeLines
  intro line hline
  rcases List.mem_append.mp hline with h | h
  · obtain ⟨x, -, rfl⟩ := Option.map_eq_some_iff.mp (Option.mem_toList.mp h)
    exact .attr (by decide) (by decide) (newline_notMem_intText _)
  · obtain ⟨x, -, rfl⟩ := Option.map_eq_some_iff.mp (Option.mem_toList.mp h)
    exact .attr (by decide) (by decide) (newline_notMem_intText _)

theorem bodyLine_buildRtpMap {m : MediaContentDescription}
    (h : OneLine (m.codecs.flatMap Codec.texts))
    (type : MediaType) : ∀ line ∈ buildRtpMap m type, BodyLine line := by
  have hname : ∀ c ∈ m.codecs, '\n' ∉ c.name := fun c hc => (oneLine_cons.mp (h.of_flatMap hc)).1
  have hcodecs : ∀ type' line,
      (line ∈ m.codecs.flatMap fun c => rtpmapLine type' c :: addFmtpLine c) → BodyLine line := by
    intro type' line hline
    obtain ⟨c, hmem, hc⟩ := List.mem_flatMap.mp hline
    rcases List.mem_cons.mp hc with rfl | hc
    · exact bodyLine_rtpmap type' (hname c hmem)
    · exact bodyLine_fmtp (h.of_flatMap hmem) line hc
  intro line hline
  cases type with
  | audio =>
    rcases List.mem_append.mp hline with hline | hline
    · exact hcodecs _ line hline
    · exact bodyLine_ptime m.codecs line hline
  | video => exact hcodecs _ line hline
  | data =>
    obtain ⟨c, hmem, rfl⟩ := List.mem_map.mp hline
    exact bodyLine_rtpmap .data (hname c hmem)

theorem bodyLine_ssrc (ssrc : U32) {name value : Text} (hname : '\n' ∉ name)
    (hvalue : '\n' ∉ value) :
    BodyLine (ssrcLine ssrc name value) := by
  refine .attr (by decide) (by decide) ?_
  simp [hname, hvalue, newline_notMem_natText]

theorem bodyLine_track {track : StreamParams} (h : OneLine track.texts) :
    ∀ line ∈ trackLines track, BodyLine line := by
  simp only [StreamParams.texts, oneLine_append, oneLine_cons, oneLine_nil, and_true] at h
  obtain ⟨⟨hname, hcname, hsync⟩, hgroups⟩ := h
  unfold trackLines
  intro line hline
  split at hline
  · cases hline
  · rcases List.mem_append.mp hline with hline | hline
    · obtain ⟨g, hg, rfl⟩ := List.mem_map.mp hline
      have hsemantics := hgroups _ (List.mem_map_of_mem (List.mem_filter.mp hg).1)
      have hssrcs : '\n' ∉ g.ssrcs.flatMap fun ssrc => ' ' :: natText ssrc.toNat := by
        simp [newline_notMem_natText]
      refine .attr (by decide) (by decide) ?_
      rw [List.mem_append, not_or]
      exact ⟨hsemantics, hssrcs⟩
    · obtain ⟨ssrc, -, hline⟩ := List.mem_flatMap.mp hline
      simp only [List.mem_cons, List.not_mem_nil, or_false] at hline
      rcases hline with rfl | rfl | rfl | rfl
      · exact bodyLine_ssrc ssrc (by decide) hcname
      · exact bodyLine_ssrc ssrc (by decide) (by simp [hsync, hname])
      · exact bodyLine_ssrc ssrc (by decide) hsync
      · exact bodyLine_ssrc ssrc (by decide) hname

variable {content : ContentInfo}

/-- **The lines behind an m-line.** -/
theorem bodyLine_mediaBody {transport : Option TransportInfo} (hcontent : OneLine content.texts)
    (htransport : ∀ t, transport = some t → OneLine t.description.texts) (type : MediaType) :
    ∀ line ∈ mediaBody content transport type, BodyLine line := by
  simp only [ContentInfo.texts, oneLine_append, oneLine_cons, oneLine_nil, and_true] at hcontent
  obtain ⟨⟨⟨⟨⟨hname, -⟩, huris⟩, hcryptos⟩, hcodecs⟩, hstreams⟩ := hcontent
  intro line hline
  unfold mediaBody buildMediaDescription at hline
  simp only [List.cons_append, List.nil_append, List.tail_cons, List.mem_append, List.mem_cons,
    List.not_mem_nil, or_false, or_assoc] at hline
  rcases hline with h | h | rfl | rfl | h | h | h | h | h
  · cases transport with
    | none => cases h
    | some t => exact bodyLine_transport (htransport t rfl) line h
  · obtain ⟨e, he, rfl⟩ := List.mem_map.mp h
    have huri := huris _ (List.mem_map_of_mem he)
    refine .attr (by decide) (by decide) ?_
    simp [huri, newline_notMem_intText]
  · refine .flag ?_
    cases writtenDirection content.description <;> decide
  · exact .attr (by decide) (by decide) hname
  · split at h
    · rw [List.mem_singleton.mp h]
      refine .other (.inl rfl) nofun ?_
      simp [newline_notMem_intText, kApplicationSpecificMaximum]
    · cases h
  · split at h
    · rw [List.mem_singleton.mp h]
      exact .flag (by decide)
    · cases h
  · obtain ⟨c, hc, rfl⟩ := List.mem_map.mp h
    have htexts := hcryptos.of_flatMap hc
    simp only [oneLine_cons, oneLine_nil, and_true] at htexts
    obtain ⟨hsuite, hkey, hparams⟩ := htexts
    refine .attr (by decide) (by decide) ?_
    split <;> simp [hsuite, hkey, hparams, newline_notMem_intText]
  · exact bodyLine_buildRtpMap hcodecs type line h
  · obtain ⟨track, htrack, h⟩ := List.mem_flatMap.mp h
    exact bodyLine_track (hstreams.of_flatMap htrack) line h

/-! ## Sections -/

theorem space_notMem_mediaType (type : MediaType) : ' ' ∉ type.text := by
  cases type <;> decide

theorem newline_notMem_mediaType (type : MediaType) : '\n' ∉ type.text := by
  cases type <;> decide

variable {t type : MediaType}

theorem MediaType.text_injective (h : t.text = type.text) : t = type := by
  revert h
  cases t <;> cases type <;> decide

theorem isMediaLine_initLine (t type : MediaType) (rest : Text) :
    isMediaLine t (initLine 'm' (type.text ++ ' ' :: rest)) = true ↔ t = type := by
  rw [isMediaLine, List.isPrefixOf_iff_prefix, initLine, initLine, List.cons_prefix_cons,
    List.cons_prefix_cons,
    prefix_delimiter_iff (space_notMem_mediaType t) (space_notMem_mediaType type)]
  constructor
  · rintro ⟨-, -, h⟩
    exact (MediaType.text_injective h).symm
  · rintro rfl
    exact ⟨rfl, rfl, rfl⟩

/-- The lines of one section, with the candidate lines among them. -/
structure IsSection (type : MediaType) (candidates : List Text) (mline : Text) (body : List Text) :
    Prop where
  line : Line mline
  isMedia : isLineType mline 'm' = true
  isType : ∀ t, isMediaLine t mline = true ↔ t = type
  bodyLine : ∀ line ∈ body, Line line ∧ isLineType line 'm' = false
  filter : body.filter isCandidateLine = candidates

/-- The protocol and the payload types of an m-line. -/
def mediaFormats (m : MediaContentDescription) : Text :=
  m.protocol ++ m.codecs.flatMap fun c => ' ' :: intText c.id

theorem mediaLine_eq (content : ContentInfo) (type : MediaType) :
    mediaLine content type = initLine 'm' (type.text ++ ' ' ::
      ((if content.rejected then kMediaPortRejected else kDefaultPort) ++
        ' ' :: mediaFormats content.description)) := by
  simp [mediaLine, mediaFormats]

theorem replacePort_mediaLine (content : ContentInfo) (type : MediaType) (port : Text) :
    replacePort (mediaLine content type) port = some (initLine 'm' (type.text ++ ' ' ::
      ((if content.rejected then kMediaPortRejected else port) ++
        ' ' :: mediaFormats content.description))) := by
  have hmedia : ' ' ∉ initLine 'm' type.text := by
    simp [initLine, space_notMem_mediaType]
  have hport : ' ' ∉ if content.rejected then kMediaPortRejected else kDefaultPort := by
    split <;> decide
  have hline : mediaLine content type = initLine 'm' type.text ++ ' ' ::
      ((if content.rejected then kMediaPortRejected else kDefaultPort) ++
        ' ' :: mediaFormats content.description) := by
    rw [mediaLine_eq]
    rfl
  rw [replacePort, hline, splitFirst_append hmedia]
  simp only [splitFirst_append hport]
  cases content.rejected with
  | true => simp [initLine]
  | false =>
    have hne : kDefaultPort ≠ kMediaPortRejected := by decide
    simp [initLine, hne]

theorem newline_notMem_mediaFormats (h : OneLine content.texts) :
    '\n' ∉ mediaFormats content.description := by
  simp only [ContentInfo.texts, oneLine_append, oneLine_cons] at h
  simp [mediaFormats, newline_notMem_intText, h.1.1.1.1.2.1]

theorem line_mediaLine {port rest : Text} (hport : '\n' ∉ port) (hrest : '\n' ∉ rest) :
    Line (initLine 'm' (type.text ++ ' ' :: (port ++ ' ' :: rest))) := by
  refine Line.init (by decide) ?_ ?_
  · simp [newline_notMem_mediaType, hport, hrest]
  · cases type <;> exact nofun

theorem newline_notMem_destinationPort (a : Option HostAddress) : '\n' ∉ destinationPort a := by
  cases a with
  | none =>
    have h : '\n' ∉ kDefaultPort := by decide
    exact h
  | some a => exact newline_notMem_natText _

theorem newline_notMem_candidateTypeText (type : Text) : '\n' ∉ candidateTypeText type := by
  unfold candidateTypeText
  split
  · decide
  · split
    · decide
    · split
      · decide
      · exact List.not_mem_nil

theorem isCandidateLine_candidateLine (inet : InetText) (c : Candidate) :
    isCandidateLine (candidateLine inet c) = true := by
  rw [isCandidateLine, List.isPrefixOf_iff_prefix, candidateLine, attrLine, initAttrLine,
    initAttrLine, initLine, initLine, List.cons_prefix_cons, List.cons_prefix_cons]
  have hcolon : ':' ∉ kAttributeCandidate := by decide
  exact ⟨rfl, rfl, (prefix_delimiter_iff hcolon hcolon).mpr rfl⟩

section

variable {inet : InetText} (hinet : ∀ ip, '\n' ∉ inet.ntop ip)

include hinet

theorem newline_notMem_toString (ip : IPAddress) : '\n' ∉ inet.toString ip := by
  cases ip with
  | unspec => exact List.not_mem_nil
  | ipv4 a => exact hinet _
  | ipv6 a => exact hinet _

theorem newline_notMem_destinationIp (a : Option HostAddress) : '\n' ∉ destinationIp inet a := by
  cases a with
  | none =>
    have h : '\n' ∉ kDefaultAddress := by decide
    exact h
  | some a => exact newline_notMem_toString hinet a.ip

theorem Line.candidate {c : Candidate} (h : OneLine [c.foundation, c.protocol]) :
    Line (candidateLine inet c) := by
  simp only [oneLine_cons, oneLine_nil, and_true] at h
  obtain ⟨hfoundation, hprotocol⟩ := h
  have htyp : '\n' ∉ kAttributeCandidateTyp := by decide
  have hraddr : '\n' ∉ kAttributeCandidateRaddr := by decide
  have hrport : '\n' ∉ kAttributeCandidateRport := by decide
  have hgeneration : '\n' ∉ kAttributeCandidateGeneration := by decide
  have hip := newline_notMem_toString hinet
  refine Line.attr (by decide) ?_
  split <;>
    simp [hfoundation, hprotocol, htyp, hraddr, hrport, hgeneration, hip, newline_notMem_natText,
      newline_notMem_intText, newline_notMem_candidateTypeText]

variable {content : ContentInfo}

theorem updateMediaDefaultDestination_mediaLine
    (hcontent : OneLine content.texts) (type : MediaType) (candidates : List Candidate) :
    ∃ mline header, updateMediaDefaultDestination inet candidates (mediaLine content type) =
        mline :: header ∧
      Line mline ∧ isLineType mline 'm' = true ∧ (∀ t, isMediaLine t mline = true ↔ t = type) ∧
      ∀ line ∈ header, BodyLine line := by
  simp only [updateMediaDefaultDestination, replacePort_mediaLine]
  refine ⟨_, _, rfl, ?_, rfl, fun t => isMediaLine_initLine t type _, ?_⟩
  · refine line_mediaLine ?_ (newline_notMem_mediaFormats hcontent)
    split
    · decide
    · exact newline_notMem_destinationPort _
  · have hnet : '\n' ∉ " IN IP4 ".toList := by decide
    have hip := newline_notMem_destinationIp hinet
    simp only [List.mem_cons, List.not_mem_nil, or_false]
    rintro line (rfl | rfl)
    · refine .other (.inr rfl) nofun ?_
      rw [List.mem_append, not_or]
      exact ⟨by decide, hip _⟩
    · refine .attr (by decide) (by decide) ?_
      simp only [List.mem_append, not_or]
      exact ⟨⟨newline_notMem_destinationPort _, hnet⟩, hip _⟩

/-- **A section as it is written.** -/
theorem isSection_written {transport : Option TransportInfo} (hcontent : OneLine content.texts)
    (htransport : ∀ t, transport = some t → OneLine t.description.texts) (type : MediaType)
    {candidates : List Candidate}
    (hcandidates : ∀ c ∈ candidates, OneLine [c.foundation, c.protocol]) :
    ∃ mline body, updateMediaDefaultDestination inet candidates (mediaLine content type) ++
        candidates.map (candidateLine inet) ++ mediaBody content transport type = mline :: body ∧
      IsSection type (candidates.map (candidateLine inet)) mline body := by
  obtain ⟨mline, header, heq, hline, hmedia, htype, hheader⟩ :=
    updateMediaDefaultDestination_mediaLine hinet hcontent type candidates
  have hbody := bodyLine_mediaBody hcontent htransport type
  have hmap : ∀ line ∈ candidates.map (candidateLine inet),
      Line line ∧ isLineType line 'm' = false ∧ isCandidateLine line = true := by
    intro line hmem
    obtain ⟨c, hc, rfl⟩ := List.mem_map.mp hmem
    exact ⟨Line.candidate hinet (hcandidates c hc), rfl, isCandidateLine_candidateLine inet c⟩
  have hnone : ∀ lines : List Text, (∀ line ∈ lines, BodyLine line) →
      lines.filter isCandidateLine = [] := by
    intro lines h
    rw [List.filter_eq_nil_iff]
    intro line hmem
    rw [(h line hmem).not_candidate]
    decide
  refine ⟨mline, header ++ candidates.map (candidateLine inet) ++ mediaBody content transport type,
    by rw [heq]; rfl, ⟨hline, hmedia, htype, ?_, ?_⟩⟩
  · intro line hmem
    simp only [List.mem_append] at hmem
    rcases hmem with (hmem | hmem) | hmem
    · exact ⟨(hheader line hmem).line, (hheader line hmem).not_media⟩
    · exact ⟨(hmap line hmem).1, (hmap line hmem).2.1⟩
    · exact ⟨(hbody line hmem).line, (hbody line hmem).not_media⟩
  · rw [List.filter_append, List.filter_append, hnone header hheader, hnone _ hbody,
      List.filter_eq_self.mpr fun line hmem => (hmap line hmem).2.2]
    simp

end

/-! ## Candidates of the sections -/

/-- The lines under the m-lines of a kind. -/
def mediaSections (type : MediaType) : List Text → List (List Text)
  | [] => []
  | line :: lines =>
    if isMediaLine type line then
      (lines.takeWhile fun l => !isLineType l 'm') :: mediaSections type lines
    else mediaSections type lines

/-- The candidate lines under the m-lines of a kind. -/
def candidateSections (type : MediaType) (lines : List Text) : List (List Text) :=
  (mediaSections type lines).map fun body => body.filter isCandidateLine

theorem isMediaLine_of_not_media {line : Text} (h : isLineType line 'm' = false)
    (type : MediaType) :
    isMediaLine type line = false := by
  rw [Bool.eq_false_iff, isMediaLine, ne_eq, List.isPrefixOf_iff_prefix]
  rintro ⟨t, rfl⟩
  cases h

theorem candidateSections_append_of_not_media {lines : List Text}
    (h : ∀ line ∈ lines, isLineType line 'm' = false) (type : MediaType) (rest : List Text) :
    candidateSections type (lines ++ rest) = candidateSections type rest := by
  induction lines with
  | nil => rfl
  | cons line lines ih =>
    rw [List.forall_mem_cons] at h
    rw [← ih h.2, candidateSections, candidateSections, List.cons_append, mediaSections,
      if_neg (by simp [isMediaLine_of_not_media h.1])]

/-- The lines go on with an m-line or end without candidates. -/
def EndsSection (rest : List Text) : Prop :=
  (rest.takeWhile fun l => !isLineType l 'm').filter isCandidateLine = []

/-- **One section and what stands behind it.** -/
theorem candidateSections_section {candidates body : List Text} {mline : Text}
    (h : IsSection t candidates mline body) {rest : List Text} (hrest : EndsSection rest) :
    candidateSections type (mline :: body ++ rest) =
      if type = t then candidates :: candidateSections type rest
      else candidateSections type rest := by
  have hbody : ∀ line ∈ body, (!isLineType line 'm') = true := by
    intro line hline
    rw [(h.bodyLine line hline).2]
    rfl
  have hbehind := candidateSections_append_of_not_media (fun l hl => (h.bodyLine l hl).2) type rest
  rw [candidateSections] at hbehind
  rw [candidateSections, List.cons_append, mediaSections]
  by_cases htype : type = t
  · rw [if_pos ((h.isType type).mpr htype), if_pos htype, List.map_cons, hbehind]
    rw [List.takeWhile_append_of_pos hbody, List.filter_append, h.filter, hrest, List.append_nil]
  · rw [if_neg fun hm => htype ((h.isType type).mp hm), if_neg htype, hbehind]

/-! ## The whole text -/

/-- The contents in the order in which they are written. -/
def writtenContents (d : SessionDescription) : List ContentInfo :=
  [MediaType.audio, .video, .data].filterMap d.getFirstMediaContent

/-- The kinds of the contents in the order in which they are written. -/
def writtenTypes (d : SessionDescription) : List MediaType :=
  [MediaType.audio, .video, .data].filter fun t => (d.getFirstMediaContent t).isSome

variable {c : ContentInfo}

theorem getFirstMediaContent_type {d : SessionDescription}
    (h : d.getFirstMediaContent t = some c) : c.description.type = t := by
  have hp := List.find?_some h
  exact (of_decide_eq_true hp).2

theorem map_type_writtenContents (d : SessionDescription) :
    (writtenContents d).map (fun c => c.description.type) = writtenTypes d := by
  unfold writtenContents writtenTypes
  generalize [MediaType.audio, .video, .data] = types
  induction types with
  | nil => rfl
  | cons t types ih =>
    cases hc : d.getFirstMediaContent t with
    | none =>
      rw [List.filterMap_cons_none hc, ih, List.filter_cons_of_neg]
      rw [hc]
      decide
    | some c =>
      rw [List.filterMap_cons_some hc, List.map_cons, ih, List.filter_cons_of_pos,
        getFirstMediaContent_type hc]
      rw [hc]
      rfl

/-- The lines of a content that is written. -/
def contentLines (d : SessionDescription) (c : ContentInfo) : List Text :=
  buildMediaDescription c (d.getTransportInfoByName c.name) c.description.type

theorem flatMap_mediaLines (d : SessionDescription) :
    mediaLines d .audio ++ mediaLines d .video ++ mediaLines d .data =
      (writtenContents d).flatMap (contentLines d) := by
  have hone : ∀ t, mediaLines d t =
      (d.getFirstMediaContent t).toList.flatMap (contentLines d) := by
    intro t
    unfold mediaLines
    cases hc : d.getFirstMediaContent t with
    | none => rfl
    | some c => simp [contentLines, getFirstMediaContent_type hc]
  have hwritten : writtenContents d = (d.getFirstMediaContent .audio).toList ++
      (d.getFirstMediaContent .video).toList ++ (d.getFirstMediaContent .data).toList := by
    simp only [writtenContents, List.filterMap_cons, List.filterMap_nil]
    cases d.getFirstMediaContent .audio <;> cases d.getFirstMediaContent .video <;>
      cases d.getFirstMediaContent .data <;> rfl
  rw [hone, hone, hone, hwritten, List.flatMap_append, List.flatMap_append]

/-- The lines before the first m-line. -/
def sessionLines (d : JsepSessionDescription) : List Text :=
  ["v=0".toList, originLine d.sessionId d.sessionVersion, "s=-".toList, "t=0 0".toList] ++
  ((d.description.getGroupByName groupTypeBundle).map fun g =>
    attrLine kAttributeGroup
      (groupTypeBundle ++ g.contentNames.flatMap fun n => ' ' :: n)).toList ++
  [msidLine d.description]

theorem sdpSerializeSessionDescription_eq (d : JsepSessionDescription) :
    sdpSerializeSessionDescription d =
      sessionLines d ++ (writtenContents d.description).flatMap (contentLines d.description) := by
  rw [← flatMap_mediaLines]
  simp only [sdpSerializeSessionDescription, sessionLines, List.append_assoc]

theorem session_not_media (d : JsepSessionDescription) :
    ∀ line ∈ sessionLines d, isLineType line 'm' = false := by
  simp only [sessionLines, List.mem_append, List.mem_cons, List.not_mem_nil, or_false,
    Option.mem_toList]
  rintro line (((rfl | rfl | rfl | rfl) | hgroup) | rfl)
  · decide
  · rfl
  · decide
  · decide
  · obtain ⟨g, -, rfl⟩ := Option.map_eq_some_iff.mp hgroup
    rfl
  · rfl

theorem mem_getMediaStreamLabels {content : Option ContentInfo} {labels : SortedMap Text Unit}
    {x : Text} (h : x ∈ (getMediaStreamLabels content labels).entries.map Prod.fst) :
    x ∈ labels.entries.map Prod.fst ∨
      ∃ c, content = some c ∧ x ∈ c.description.streams.map StreamParams.syncLabel := by
  cases content with
  | none => exact .inl h
  | some c =>
    rcases SortedMap.mem_setAll h with h | h
    · exact .inl h
    · rw [List.map_map] at h
      exact .inr ⟨c, rfl, h⟩

theorem line_originLine {sessionId sessionVersion : Text} (hid : '\n' ∉ sessionId)
    (hversion : '\n' ∉ sessionVersion) : Line (originLine sessionId sessionVersion) := by
  have hnone : '\n' ∉ "0".toList := by decide
  have hfirst : '\n' ∉ "- ".toList := by decide
  have hlast : '\n' ∉ " IN IP4 127.0.0.1".toList := by decide
  have hid' : '\n' ∉ if sessionId = [] then "0".toList else sessionId := by
    split
    · exact hnone
    · exact hid
  have hversion' : '\n' ∉ if sessionVersion = [] then "0".toList else sessionVersion := by
    split
    · exact hnone
    · exact hversion
  refine Line.init (by decide) ?_ nofun
  simp only [List.mem_append, List.mem_cons, not_or]
  exact ⟨⟨⟨hfirst, hid'⟩, by decide, hversion'⟩, hlast⟩

theorem line_msidLine {d : SessionDescription}
    (h : OneLine (d.contents.flatMap ContentInfo.texts)) :
    Line (msidLine d) := by
  have hlabel : ∀ t c, d.getFirstMediaContent t = some c →
      ∀ x ∈ c.description.streams.map StreamParams.syncLabel, '\n' ∉ x := by
    intro t c hc x hx
    obtain ⟨track, htrack, rfl⟩ := List.mem_map.mp hx
    have hcontent := h.of_flatMap (List.mem_of_find?_eq_some hc)
    rw [ContentInfo.texts, oneLine_append] at hcontent
    exact hcontent.2.of_flatMap htrack _ (by simp [StreamParams.texts])
  refine Line.attr (by decide) ?_
  simp only [List.mem_append, not_or, List.mem_flatMap, not_exists, not_and, List.mem_cons]
  refine ⟨⟨by decide, by decide⟩, fun e he => ⟨by decide, ?_⟩⟩
  rcases mem_getMediaStreamLabels (List.mem_map_of_mem he) with hmem | ⟨c, hc, hmem⟩
  · rcases mem_getMediaStreamLabels hmem with hmem | ⟨c, hc, hmem⟩
    · cases hmem
    · exact hlabel _ c hc _ hmem
  · exact hlabel _ c hc _ hmem

variable {d : JsepSessionDescription}

theorem session_lines (h : OneLine d.texts) : ∀ line ∈ sessionLines d, Line line := by
  simp only [JsepSessionDescription.texts, oneLine_append, oneLine_cons, oneLine_nil,
    and_true] at h
  obtain ⟨⟨⟨⟨⟨hid, hversion⟩, hgroups⟩, hcontents⟩, -⟩, -⟩ := h
  simp only [sessionLines, List.mem_append, List.mem_cons, List.not_mem_nil, or_false,
    Option.mem_toList]
  rintro line (((rfl | rfl | rfl | rfl) | hgroup) | rfl)
  · exact ⟨by decide, by decide⟩
  · exact line_originLine hid hversion
  · exact ⟨by decide, by decide⟩
  · exact ⟨by decide, by decide⟩
  · obtain ⟨g, hg, rfl⟩ := Option.map_eq_some_iff.mp hgroup
    have hnames := hgroups.of_flatMap (List.mem_of_find?_eq_some hg)
    refine Line.attr (by decide) ?_
    rw [List.mem_append, not_or]
    exact ⟨by decide, notMem_flatMap_cons (by decide) hnames⟩
  · exact line_msidLine hcontents

/-- What belongs to the numbers that a kind has in a list of kinds. -/
def atNumbers {α : Type} (f : Nat → α) (type : MediaType) : Nat → List MediaType → List α
  | _, [] => []
  | k, t :: types =>
    if type = t then f k :: atNumbers f type (k + 1) types else atNumbers f type (k + 1) types

theorem atNumbers_of_nodup {α : Type} (f : Nat → α) (type : MediaType) {types : List MediaType}
    (hnodup : types.Nodup) (k : Nat) :
    atNumbers f type k types = if type ∈ types then [f (k + types.idxOf type)] else [] := by
  induction types generalizing k with
  | nil => rfl
  | cons t types ih =>
    rw [List.nodup_cons] at hnodup
    rw [atNumbers, ih hnodup.2]
    by_cases ht : type = t
    · subst ht
      rw [if_pos rfl, if_neg hnodup.1, if_pos List.mem_cons_self, List.idxOf_cons_self]
      rfl
    · have hmem : type ∈ t :: types ↔ type ∈ types := by
        rw [List.mem_cons]
        exact or_iff_right ht
      have hidx : k + (t :: types).idxOf type = k + 1 + types.idxOf type := by
        rw [List.idxOf_cons_ne types (Ne.symm ht)]
        omega
      rw [if_neg ht, hidx]
      simp only [hmem]

section

variable {inet : InetText} (hinet : ∀ ip, '\n' ∉ inet.ntop ip)
variable {candidates : Nat → List Candidate}
  (hcandidates : ∀ i, ∀ c ∈ candidates i, OneLine [c.foundation, c.protocol])

theorem insertLines_contentLines {d : SessionDescription} {c : ContentInfo}
    (hbody : ∀ line ∈ mediaBody c (d.getTransportInfoByName c.name) c.description.type,
      BodyLine line) (k : Nat) (rest : List Text) :
    insertLines inet candidates k (contentLines d c ++ rest) =
      (updateMediaDefaultDestination inet (candidates k) (mediaLine c c.description.type) ++
        (candidates k).map (candidateLine inet) ++
        mediaBody c (d.getTransportInfoByName c.name) c.description.type) ++
      insertLines inet candidates (k + 1) rest := by
  rw [contentLines, buildMediaDescription_eq, List.cons_append, insertLines,
    if_pos (show isLineType (mediaLine c c.description.type) 'm' = true from rfl),
    insertLines_append_of_not_media candidates (k + 1) fun line hline =>
      (hbody line hline).not_media]
  simp only [List.append_assoc]

include hinet hcandidates

/-- **The candidates under the m-lines.** -/
theorem candidateSections_insertLines {d : SessionDescription} {contents : List ContentInfo}
    (hcontents : ∀ c ∈ contents, OneLine c.texts)
    (htransports : ∀ t ∈ d.transportInfos, OneLine t.description.texts) (k : Nat) :
    EndsSection (insertLines inet candidates k (contents.flatMap (contentLines d)) ++ [[]]) ∧
    (∀ line ∈ insertLines inet candidates k (contents.flatMap (contentLines d)), '\n' ∉ line) ∧
    ∀ type, candidateSections type
        (insertLines inet candidates k (contents.flatMap (contentLines d)) ++ [[]]) =
      atNumbers (fun i => (candidates i).map (candidateLine inet)) type k
        (contents.map fun c => c.description.type) := by
  induction contents generalizing k with
  | nil =>
    refine ⟨rfl, fun line hline => absurd hline List.not_mem_nil, fun type => ?_⟩
    cases type <;> rfl
  | cons c contents ih =>
    rw [List.forall_mem_cons] at hcontents
    obtain ⟨hends, hnew, hsections⟩ := ih hcontents.2 (k + 1)
    have htransport : ∀ t, d.getTransportInfoByName c.name = some t →
        OneLine t.description.texts := fun t ht => htransports t (List.mem_of_find?_eq_some ht)
    have hbody := bodyLine_mediaBody hcontents.1 htransport c.description.type
    obtain ⟨mline, body, heq, hsection⟩ :=
      isSection_written hinet hcontents.1 htransport c.description.type (hcandidates k)
    rw [List.flatMap_cons, insertLines_contentLines hbody, heq, List.append_assoc]
    refine ⟨?_, ?_, fun type => ?_⟩
    · rw [EndsSection, List.cons_append, List.takeWhile_cons_of_neg (by simp [hsection.isMedia])]
      rfl
    · simp only [List.mem_append, List.mem_cons]
      rintro line ((rfl | hline) | hline)
      · exact hsection.line.newline
      · exact (hsection.bodyLine line hline).1.newline
      · exact hnew line hline
    · rw [candidateSections_section hsection hends, hsections, List.map_cons, atNumbers]

end

theorem lines_serialized (h : OneLine d.texts) :
    ∀ line ∈ sdpSerializeSessionDescription d, Line line := by
  have hsession := session_lines h
  simp only [JsepSessionDescription.texts, oneLine_append] at h
  rw [sdpSerializeSessionDescription_eq]
  intro line hline
  rcases List.mem_append.mp hline with hline | hline
  · exact hsession line hline
  · obtain ⟨c, hc, hline⟩ := List.mem_flatMap.mp hline
    obtain ⟨t, -, hfirst⟩ := List.mem_filterMap.mp hc
    have hcontent := h.1.1.2.of_flatMap (List.mem_of_find?_eq_some hfirst)
    rw [contentLines, buildMediaDescription_eq, List.mem_cons] at hline
    rcases hline with rfl | hline
    · rw [mediaLine_eq]
      refine line_mediaLine ?_ (newline_notMem_mediaFormats hcontent)
      split <;> decide
    · refine (bodyLine_mediaBody hcontent (fun t ht => ?_) _ line hline).line
      exact h.1.2.of_flatMap (List.mem_of_find?_eq_some ht)

theorem oneLine_candidate (h : OneLine d.texts) (i : Nat) :
    ∀ c ∈ getCandidatesByMindex d i, OneLine [c.foundation, c.protocol] := by
  simp only [JsepSessionDescription.texts, oneLine_append] at h
  intro c hc
  obtain ⟨ice, hice, rfl⟩ := List.mem_map.mp hc
  refine h.2.of_flatMap (List.mem_flatten.mpr ?_)
  cases hget : d.candidates[i]? with
  | none =>
    rw [hget] at hice
    cases hice
  | some l =>
    rw [hget] at hice
    exact ⟨l, List.mem_of_getElem? hget, hice⟩

theorem nodup_writtenTypes (d : SessionDescription) : (writtenTypes d).Nodup :=
  List.Nodup.filter _ (by decide)

theorem oneLine_written (h : OneLine d.texts) :
    (∀ c ∈ writtenContents d.description, OneLine c.texts) ∧
      ∀ t ∈ d.description.transportInfos, OneLine t.description.texts := by
  simp only [JsepSessionDescription.texts, oneLine_append] at h
  refine ⟨fun c hc => ?_, fun t ht => h.1.2.of_flatMap ht⟩
  obtain ⟨t, -, hfirst⟩ := List.mem_filterMap.mp hc
  exact h.1.1.2.of_flatMap (List.mem_of_find?_eq_some hfirst)

/-- **The lines of the text that is written.** -/
theorem textLines_serialize {inet : InetText} (hinet : ∀ ip, '\n' ∉ inet.ntop ip)
    (h : OneLine d.texts) :
    textLines (sdpSerialize inet d) = sessionLines d ++
      (insertLines inet (getCandidatesByMindex d) 0
      ((writtenContents d.description).flatMap (contentLines d.description)) ++ [[]]) := by
  obtain ⟨hcontents, htransports⟩ := oneLine_written h
  obtain ⟨-, hnew, -⟩ :=
    candidateSections_insertLines hinet (oneLine_candidate h) hcontents htransports 0
  -- the loop of the writer sees the lines it was given
  have hloop : sdpSerialize inet d = message (sessionLines d ++ insertLines inet
      (getCandidatesByMindex d) 0
      ((writtenContents d.description).flatMap (contentLines d.description))) := by
    rw [sdpSerialize, insertCandidates_message _ (lines_serialized h) (length_le_message _)]
    rw [sdpSerializeSessionDescription_eq,
      insertLines_append_of_not_media _ _ (session_not_media d)]
  have hlines : ∀ line ∈ sessionLines d ++ insertLines inet (getCandidatesByMindex d) 0
      ((writtenContents d.description).flatMap (contentLines d.description)), '\n' ∉ line := by
    intro line hline
    rcases List.mem_append.mp hline with hline | hline
    · exact (session_lines h line hline).newline
    · exact hnew line hline
  rw [hloop, textLines_message hlines, List.append_assoc]

/-- **The candidates under an m-line are those with the number of the m-line.** -/
theorem candidateSections_serialize {inet : InetText} (hinet : ∀ ip, '\n' ∉ inet.ntop ip)
    (h : OneLine d.texts)
    (htype : type ∈ writtenTypes d.description) :
    candidateSections type (textLines (sdpSerialize inet d)) =
      [(getCandidatesByMindex d ((writtenTypes d.description).idxOf type)).map
        (candidateLine inet)] := by
  obtain ⟨hcontents, htransports⟩ := oneLine_written h
  obtain ⟨-, -, hsections⟩ :=
    candidateSections_insertLines hinet (oneLine_candidate h) hcontents htransports 0
  rw [textLines_serialize hinet h, candidateSections_append_of_not_media (session_not_media d),
    hsections, map_type_writtenContents, atNumbers_of_nodup _ _ (nodup_writtenTypes _),
    if_pos htype, Nat.zero_add]

/-! ## Contents and their candidates -/

/-- The candidate lines under the m-line of each content are those of its candidates. -/
def CandidatesStay (inet : InetText) (d : JsepSessionDescription) : Prop :=
  ∀ (i : Nat) c, d.description.contents[i]? = some c →
    candidateSections c.description.type (textLines (sdpSerialize inet d)) =
      [(getCandidatesByMindex d i).map (candidateLine inet)]

/-- The number that the section of a content has in the text. -/
def writtenIndex (d : SessionDescription) (c : ContentInfo) : Nat :=
  (writtenTypes d).idxOf c.description.type

theorem mem_writtenTypes {d : SessionDescription} (hc : c ∈ d.contents)
    (hmedia : c.type = nsJingleRtp) : c.description.type ∈ writtenTypes d := by
  refine List.mem_filter.mpr ⟨?_, ?_⟩
  · cases c.description.type <;> decide
  · rw [SessionDescription.getFirstMediaContent, List.find?_isSome]
    exact ⟨c, hc, by simp [hmedia]⟩

theorem writtenIndex_of_order {d : SessionDescription}
    (h : d.contents.map (fun c => c.description.type) = writtenTypes d) {i : Nat}
    (hc : d.contents[i]? = some c) : writtenIndex d c = i := by
  have hget : (writtenTypes d)[i]? = some c.description.type := by
    rw [← h, List.getElem?_map, hc]
    rfl
  obtain ⟨hlt, heq⟩ := List.getElem?_eq_some_iff.mp hget
  rw [writtenIndex, ← heq]
  exact (nodup_writtenTypes d).idxOf_getElem i hlt

/-- **The candidates stay with their content exactly when those with the number of the section are
written alike.** -/
theorem candidates_stay_iff (inet : InetText) (hinet : ∀ ip, '\n' ∉ inet.ntop ip)
    (d : JsepSessionDescription) (hmedia : ∀ c ∈ d.description.contents, c.type = nsJingleRtp)
    (hone : OneLine d.texts) :
    CandidatesStay inet d ↔ ∀ (i : Nat) c, d.description.contents[i]? = some c →
      (getCandidatesByMindex d (writtenIndex d.description c)).map (candidateLine inet) =
        (getCandidatesByMindex d i).map (candidateLine inet) := by
  have hsection : ∀ (i : Nat) c, d.description.contents[i]? = some c →
      candidateSections c.description.type (textLines (sdpSerialize inet d)) =
        [(getCandidatesByMindex d (writtenIndex d.description c)).map (candidateLine inet)] := by
    intro i c hc
    have hmem := List.mem_of_getElem? hc
    exact candidateSections_serialize hinet hone (mem_writtenTypes hmem (hmedia c hmem))
  constructor
  · intro hstay i c hc
    exact (List.cons.inj ((hsection i c hc).symm.trans (hstay i c hc))).1
  · intro hsame i c hc
    rw [hsection i c hc, hsame i c hc]

def bareContent (type : MediaType) : ContentInfo :=
  ⟨defaultContentName type, nsJingleRtp, false,
    { MediaContentDescription.new type with protocol := "RTP/AVPF".toList }⟩

/-- A candidate of the host itself. -/
def hostCandidate : Candidate :=
  ⟨[], 1, "udp".toList, ⟨[], .ipv4 0xC0A80105, 1234⟩, 2130706432, [], [], localPortType, 0,
    "1".toList, ⟨[], .unspec, 0⟩⟩

/-- Contents of the given kinds; a candidate was added to the first. -/
def firstHasCandidate (types : List MediaType) : JsepSessionDescription :=
  let transport name := TransportInfo.mk name
    { TransportDescription.new with iceUfrag := "ufrag".toList, icePwd := "pwd".toList }
  let desc : SessionDescription :=
    ⟨types.map bareContent, types.map fun t => transport (defaultContentName t), []⟩
  (JsepSessionDescription.ofDescription desc "0".toList "0".toList).addCandidate
    ⟨[], 0, hostCandidate⟩

theorem newline_notMem_dottedQuad (ip : IPAddress) : '\n' ∉ dottedQuad.ntop ip := by
  cases ip with
  | ipv4 a => simp [dottedQuad, newline_notMem_natText]
  | ipv6 a => exact List.not_mem_nil
  | unspec => exact List.not_mem_nil

theorem candidates_stay_iff_audioVideo :
    CandidatesStay dottedQuad (firstHasCandidate [.audio, .video]) := by
  refine (candidates_stay_iff dottedQuad newline_notMem_dottedQuad _ (by decide)
    (by decide)).mpr fun i c hc => ?_
  rw [writtenIndex_of_order (by decide) hc]

theorem video_candidate_under_audio :
    ¬ CandidatesStay dottedQuad (firstHasCandidate [.video, .audio]) := by
  intro h
  have hone : OneLine (firstHasCandidate [.video, .audio]).texts := by decide
  have hvideo := h 0 (bareContent .video) rfl
  rw [candidateSections_serialize newline_notMem_dottedQuad hone (by decide)] at hvideo
  exact absurd hvideo (by decide)

end Libjingle.Sdp
