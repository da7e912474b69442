import Mathlib.Data.List.Find
import Mathlib.Data.List.MinMax
import Libjingle.Sdp.MediaSections
import Libjingle.Sdp.SectionCandidates

/-!
# Ports of m-lines (`BuildMediaDescription`, `UpdateMediaDefaultDestination`)

The m-line of a rejected content has the port `0`. Any other m-line is given the port of the
default destination, which is that of a candidate.

## Results

* **`rejection_stays_iff`**: the m-lines tell which contents are rejected, and what is read from
  them is rejected as the contents are, unless the default candidate of a content has the port
  `0`.
-/

namespace Libjingle.Sdp

open Lib

/-! ## Default destinations -/

/-- The candidates of a component that have a preference. -/
def preferredCandidates (candidates : List Candidate) (componentId : I32) : List Candidate :=
  candidates.filter fun c => c.component = componentId ∧ 0 < getCandidatePreferenceFromType c.type

/-- The first of the most preferred candidates of a component. -/
structure DefaultCandidate (candidates : List Candidate) (componentId : I32) (c : Candidate) :
    Prop where
  mem : c ∈ preferredCandidates candidates componentId
  best : ∀ x ∈ preferredCandidates candidates componentId,
    getCandidatePreferenceFromType x.type ≤ getCandidatePreferenceFromType c.type
  first : ∀ x ∈ preferredCandidates candidates componentId,
    getCandidatePreferenceFromType c.type ≤ getCandidatePreferenceFromType x.type →
      (preferredCandidates candidates componentId).idxOf c ≤
        (preferredCandidates candidates componentId).idxOf x

theorem defaultCandidate_iff {candidates : List Candidate} {componentId : I32} {c : Candidate} :
    DefaultCandidate candidates componentId c ↔
      (preferredCandidates candidates componentId).argmax
        (fun c => getCandidatePreferenceFromType c.type) = some c := by
  rw [List.argmax_eq_some_iff]
  exact ⟨fun h => ⟨h.mem, h.best, h.first⟩, fun h => ⟨h.1, h.2.1, h.2.2⟩⟩

/-- What the scan remembers of the best candidate so far. -/
def scanned : Option Candidate → Nat × Option HostAddress
  | none => (0, none)
  | some c => (getCandidatePreferenceFromType c.type, some c.address)

theorem betterDestination_scanned (componentId : I32) (best : Option Candidate) (c : Candidate) :
    betterDestination componentId (scanned best) c =
      scanned (if c.component = componentId ∧ 0 < getCandidatePreferenceFromType c.type then
        List.argAux (fun x y => getCandidatePreferenceFromType y.type <
          getCandidatePreferenceFromType x.type) best c
      else best) := by
  unfold betterDestination
  by_cases hcomponent : c.component = componentId
  · rw [if_neg (not_not.mpr hcomponent)]
    simp only [hcomponent, true_and]
    cases best with
    | none =>
      rcases Nat.eq_zero_or_pos (getCandidatePreferenceFromType c.type) with h | h
      · simp [scanned, h]
      · simp [scanned, List.argAux, h, Nat.not_le.mpr h]
    | some b =>
      by_cases hlt : getCandidatePreferenceFromType b.type < getCandidatePreferenceFromType c.type
      · have hpos := Nat.zero_lt_of_lt hlt
        simp [scanned, List.argAux, hlt, hpos, Nat.not_le.mpr hlt]
      · rcases Nat.eq_zero_or_pos (getCandidatePreferenceFromType c.type) with h | h
        · simp [scanned, h]
        · simp [scanned, List.argAux, hlt, h, Nat.not_lt.mp hlt]
  · rw [if_pos hcomponent, if_neg fun h => hcomponent h.1]

/-- **The scan ends with the address of the default candidate.** -/
theorem getDefaultDestination_eq (candidates : List Candidate) (componentId : I32) :
    getDefaultDestination candidates componentId =
      ((preferredCandidates candidates componentId).argmax
        (fun c => getCandidatePreferenceFromType c.type)).map Candidate.address := by
  have hscan : ∀ best, candidates.foldl (betterDestination componentId) (scanned best) =
      scanned ((preferredCandidates candidates componentId).foldl (List.argAux fun x y =>
        getCandidatePreferenceFromType y.type < getCandidatePreferenceFromType x.type) best) := by
    induction candidates with
    | nil => exact fun _ => rfl
    | cons c candidates ih =>
      intro best
      rw [List.foldl_cons, betterDestination_scanned, ih, preferredCandidates, preferredCandidates,
        List.filter_cons]
      simp only [decide_eq_true_eq]
      split
      · rfl
      · rfl
  have hresult : ∀ best, (scanned best).2 = best.map Candidate.address := by
    rintro (_ | c)
    · rfl
    · rfl
  rw [getDefaultDestination, List.argmax, ← hresult, ← hscan]
  rfl

/-! ## M-lines -/

/-- The m-line of a content behind `UpdateMediaDefaultDestination`. -/
def writtenMediaLine (candidates : List Candidate) (c : ContentInfo) : Text :=
  initLine 'm' (c.description.type.text ++ ' ' ::
    ((if c.rejected then kMediaPortRejected
      else destinationPort (getDefaultDestination candidates 1)) ++
      ' ' :: mediaFormats c.description))

theorem updateMediaDefaultDestination_eq (inet : InetText) (candidates : List Candidate)
    (c : ContentInfo) : ∃ header,
      updateMediaDefaultDestination inet candidates (mediaLine c c.description.type) =
        writtenMediaLine candidates c :: header ∧ ∀ line ∈ header, isLineType line 'm' = false := by
  simp only [updateMediaDefaultDestination, replacePort_mediaLine]
  refine ⟨_, rfl, ?_⟩
  rintro line (_ | ⟨_, _ | ⟨_, h⟩⟩)
  · rfl
  · rfl
  · cases h

theorem space_notMem_destinationPort (a : Option HostAddress) : ' ' ∉ destinationPort a := by
  cases a with
  | none =>
    have h : ' ' ∉ kDefaultPort := by decide
    exact h
  | some a => exact space_notMem_natText _

/-- What the m-line of a content tells, next to the candidates of its number. -/
def writtenSection (candidates : List Candidate) (c : ContentInfo) : MediaType × Bool :=
  (c.description.type, decide (c.rejected = true ∨
    destinationPort (getDefaultDestination candidates 1) = kMediaPortRejected))

theorem sectionOf_writtenMediaLine (candidates : List Candidate) (c : ContentInfo) :
    sectionOf (writtenMediaLine candidates c) =
      some (writtenSection candidates c) := by
  have htype : mediaTypeOf (writtenMediaLine candidates c) = some c.description.type := by
    unfold writtenMediaLine
    cases c.description.type <;> rfl
  have hport : ' ' ∉ if c.rejected then kMediaPortRejected
      else destinationPort (getDefaultDestination candidates 1) := by
    split
    · decide
    · exact space_notMem_destinationPort _
  have hfields : lineFields (writtenMediaLine candidates c) = c.description.type.text ::
      (if c.rejected then kMediaPortRejected
        else destinationPort (getDefaultDestination candidates 1)) ::
      (mediaFormats c.description).splitOn ' ' := by
    rw [lineFields, writtenMediaLine, initLine]
    change (c.description.type.text ++ ' ' :: _).splitOn ' ' = _
    rw [splitOn_append (space_notMem_mediaType _), splitOn_append hport]
  rw [sectionOf, htype, Option.map_some, isRejectedLine, hfields, writtenSection]
  cases c.rejected with
  | true => simp
  | false => simp

variable {d : SessionDescription}

theorem supportedSections_insertLines (inet : InetText) (candidates : Nat → List Candidate)
    {contents : List ContentInfo}
    (hcontents : ∀ c ∈ contents, OneLine c.texts)
    (htransports : ∀ t ∈ d.transportInfos, OneLine t.description.texts) (k : Nat) :
    supportedSections (insertLines inet candidates k (contents.flatMap (contentLines d)) ++ [[]]) =
      contents.mapIdx fun i c => writtenSection (candidates (k + i)) c := by
  induction contents generalizing k with
  | nil => rfl
  | cons c contents ih =>
    rw [List.forall_mem_cons] at hcontents
    have htransport : ∀ t, d.getTransportInfoByName c.name = some t →
        OneLine t.description.texts := fun t ht => htransports t (List.mem_of_find?_eq_some ht)
    have hbody := bodyLine_mediaBody hcontents.1 htransport c.description.type
    obtain ⟨header, heq, hheader⟩ := updateMediaDefaultDestination_eq inet (candidates k) c
    have hnot : ∀ line ∈ header ++ (candidates k).map (candidateLine inet) ++
        mediaBody c (d.getTransportInfoByName c.name) c.description.type,
        isLineType line 'm' = false := by
      simp only [List.mem_append, List.mem_map]
      rintro line ((hline | ⟨x, -, rfl⟩) | hline)
      · exact hheader line hline
      · rfl
      · exact (hbody line hline).not_media
    rw [List.flatMap_cons, insertLines_contentLines hbody, heq, List.cons_append, List.cons_append,
      List.cons_append, List.cons_append, List.append_assoc, supportedSections,
      List.filterMap_cons_some (sectionOf_writtenMediaLine _ _)]
    have hrest := supportedSections_append_of_not_media hnot
      (insertLines inet candidates (k + 1) (contents.flatMap (contentLines d)) ++ [[]])
    rw [supportedSections] at hrest
    rw [hrest]
    have hnumbers : (fun i => writtenSection (candidates (k + 1 + i))) =
        fun i => writtenSection (candidates (k + (i + 1))) := by
      funext i
      rw [Nat.add_assoc, Nat.add_comm 1 i]
    rw [List.mapIdx_cons]
    refine congrArg (List.cons _) ?_
    rw [← hnumbers]
    exact ih hcontents.2 (k + 1)

variable {inet : InetText} {sort : CodecSort}

/-- **The m-lines of the text that is written.** -/
theorem supportedSections_serialize (hinet : ∀ ip, '\n' ∉ inet.ntop ip)
    {d : JsepSessionDescription} (h : OneLine d.texts) :
    supportedSections (textLines (sdpSerialize inet d)) =
      (writtenContents d.description).mapIdx fun i c =>
        writtenSection (getCandidatesByMindex d i) c := by
  obtain ⟨hcontents, htransports⟩ := oneLine_written h
  rw [textLines_serialize hinet h, supportedSections_append_of_not_media (session_not_media d),
    supportedSections_insertLines inet _ hcontents htransports]
  simp only [Nat.zero_add]

/-! ## Ports of rejected contents -/

theorem natText_eq_zero {n : Nat} : natText n = kMediaPortRejected ↔ n = 0 := by
  constructor
  · intro h
    rw [← ofDigitChars_natText n, h]
    rfl
  · rintro rfl
    rfl

theorem destinationPort_rejected (candidates : List Candidate) :
    destinationPort (getDefaultDestination candidates 1) = kMediaPortRejected ↔
      ∃ x, DefaultCandidate candidates 1 x ∧ x.address.port = 0 := by
  simp only [getDefaultDestination_eq, defaultCandidate_iff]
  cases (preferredCandidates candidates 1).argmax
      (fun c => getCandidatePreferenceFromType c.type) with
  | none => exact iff_of_false (by decide) nofun
  | some x =>
    rw [Option.map_some, destinationPort, natText_eq_zero]
    simp [BitVec.toNat_eq]

theorem writtenSection_eq_iff (candidates : List Candidate) (c : ContentInfo) :
    writtenSection candidates c = c.mediaSection ↔
      (c.rejected = false → ∀ x, DefaultCandidate candidates 1 x → x.address.port ≠ 0) := by
  rw [writtenSection, ContentInfo.mediaSection, Prod.mk.injEq, and_iff_right rfl]
  cases c.rejected with
  | true => simp
  | false =>
    rw [decide_eq_false_iff_not, or_iff_right Bool.false_ne_true, destinationPort_rejected]
    simp only [not_exists, not_and, ne_eq, forall_const]

/-! ## Contents in order -/

theorem filterMap_find? {α β : Type} [DecidableEq β] (f : α → β) {keys : List β} {l : List α}
    (h : (l.map f).Sublist keys) (hnodup : keys.Nodup) :
    (keys.filterMap fun k => l.find? fun x => f x = k) = l := by
  induction keys generalizing l with
  | nil =>
    rw [List.sublist_nil, List.map_eq_nil_iff] at h
    rw [h]
    rfl
  | cons k keys ih =>
    obtain ⟨hk, hkeys⟩ := List.nodup_cons.mp hnodup
    rcases List.sublist_cons_iff.mp h with h | ⟨rest, hmap, h⟩
    · have hnone : (l.find? fun x => f x = k) = none := by
        rw [List.find?_eq_none]
        intro x hx hkey
        exact hk (of_decide_eq_true hkey ▸ h.subset (List.mem_map_of_mem hx))
      rw [List.filterMap_cons, hnone]
      exact ih h hkeys
    · obtain ⟨x, l, rfl, rfl, rfl⟩ := List.map_eq_cons_iff.mp hmap
      have hrest : ∀ k ∈ keys, ((x :: l).find? fun y => f y = k) = l.find? fun y => f y = k := by
        intro k hmem
        refine List.find?_cons_of_neg ?_
        rintro hkey
        exact hk (of_decide_eq_true hkey ▸ hmem)
      rw [List.filterMap_cons, List.find?_cons_of_pos (by simp)]
      exact congrArg (List.cons x) ((List.filterMap_congr hrest).trans (ih h hkeys))

theorem writtenContents_of_order (hmedia : ∀ c ∈ d.contents, c.type = nsJingleRtp)
    (horder : (d.contents.map fun c => c.description.type).Sublist [.audio, .video, .data]) :
    writtenContents d = d.contents := by
  have hfirst :
      d.getFirstMediaContent = fun t => d.contents.find? fun c => c.description.type = t := by
    funext t
    refine List.find?_congr fun c hc => ?_
    simp [hmedia c hc]
  rw [writtenContents, hfirst]
  exact filterMap_find? _ horder (by decide)

/-! ## Contents that are read back -/

/-- The m-lines tell which contents are rejected, and the contents that are read from the text are
rejected as they are. -/
structure RejectionStays (inet : InetText) (d : JsepSessionDescription) : Prop where
  written : supportedSections (textLines (sdpSerialize inet d)) =
    d.description.contents.map ContentInfo.mediaSection
  read : ∀ sort randomAppdata d',
    sdpDeserialize inet sort randomAppdata (sdpSerialize inet d) = .ok d' →
    d'.description.contents.map ContentInfo.mediaSection <+:
      d.description.contents.map ContentInfo.mediaSection

theorem sdpDeserialize_sections {randomAppdata : Int → U32 → Text}
    {message : Text} {d : JsepSessionDescription}
    (h : sdpDeserialize inet sort randomAppdata message = .ok d) :
    d.description.contents.map ContentInfo.mediaSection <+:
      supportedSections (textLines message) := by
  obtain ⟨⟨session, rest⟩, hsession, h⟩ := Parsed.bind_ok h
  obtain ⟨⟨desc, candidates⟩, hmedia, h⟩ := Parsed.bind_ok h
  obtain rfl := Except.ok.inj h
  obtain ⟨body, hbody, hnot⟩ := (parseSessionDescription_reads hsession).body
  obtain ⟨sections, hcontents, hsupported⟩ := parseMediaDescription_sections (Nat.le_refl _) hmedia
  rw [addCandidates_description, JsepSessionDescription.ofDescription, hcontents, hbody,
    supportedSections_append_of_not_media hnot, hsupported]
  exact List.prefix_append _ _

/-- **Rejection is told by the content alone unless the default candidate of an accepted content has
the port `0`.** -/
theorem rejection_stays_iff (inet : InetText) (hinet : ∀ ip, '\n' ∉ inet.ntop ip)
    (d : JsepSessionDescription) (hmedia : ∀ c ∈ d.description.contents, c.type = nsJingleRtp)
    (horder : (d.description.contents.map fun c => c.description.type).Sublist
      [.audio, .video, .data])
    (hone : OneLine d.texts) :
    RejectionStays inet d ↔ ∀ (i : Nat) c, d.description.contents[i]? = some c →
      c.rejected = false → ∀ x, DefaultCandidate (getCandidatesByMindex d i) 1 x →
        x.address.port ≠ 0 := by
  have hwritten : supportedSections (textLines (sdpSerialize inet d)) =
      d.description.contents.map ContentInfo.mediaSection ↔
      ∀ (i : Nat) c, d.description.contents[i]? = some c →
        writtenSection (getCandidatesByMindex d i) c = c.mediaSection := by
    rw [supportedSections_serialize hinet hone, writtenContents_of_order hmedia horder,
      List.ext_getElem?_iff]
    refine forall_congr' fun i => ?_
    rw [List.getElem?_mapIdx, List.getElem?_map]
    cases d.description.contents[i]? with
    | none => simp
    | some c => simp
  have hcondition : RejectionStays inet d ↔ supportedSections (textLines (sdpSerialize inet d)) =
      d.description.contents.map ContentInfo.mediaSection := by
    refine ⟨RejectionStays.written, fun h => ⟨h, fun _ _ d' hread => ?_⟩⟩
    rw [← h]
    exact sdpDeserialize_sections hread
  rw [hcondition, hwritten]
  simp only [writtenSection_eq_iff]

/-- An accepted audio content with one candidate. -/
def audioWithCandidate (c : Candidate) : JsepSessionDescription :=
  let pcmu : Codec := { Codec.new .audio 0 with name := "PCMU".toList, clockrate := 8000 }
  let audio := bareContent .audio
  let d := firstHasCandidate [.audio]
  { d with
    description.contents := [{ audio with description.codecs := [pcmu] }]
    candidates := [[⟨[], 0, c⟩]] }

/-- A candidate of TCP on which nothing listens. -/
def tcpCandidate : Candidate :=
  { hostCandidate with
    protocol := "tcp".toList, address := { hostCandidate.address with port := 0 } }

theorem rejection_stays_hostCandidate :
    RejectionStays dottedQuad (audioWithCandidate hostCandidate) := by
  refine (rejection_stays_iff dottedQuad newline_notMem_dottedQuad _ (by decide) (by decide)
    (by decide)).mpr fun i c hc _ x hx => ?_
  have hmem := List.mem_of_mem_filter hx.mem
  obtain rfl : i = 0 := by
    have hlt := (List.getElem?_eq_some_iff.mp hc).1
    exact Nat.lt_one_iff.mp hlt
  rw [List.mem_singleton.mp hmem]
  decide

/-- **An accepted content is written and read as a rejected one.** -/
theorem accepted_written_rejected :
    (audioWithCandidate tcpCandidate).description.contents.map ContentInfo.rejected = [false] ∧
      supportedSections (textLines (sdpSerialize dottedQuad (audioWithCandidate tcpCandidate))) =
        [(.audio, true)] ∧
      (∃ d', sdpDeserialize dottedQuad stableCodecSort (fun _ _ => [])
          (sdpSerialize dottedQuad (audioWithCandidate tcpCandidate)) = .ok d' ∧
        d'.description.contents.map ContentInfo.rejected = [true]) ∧
      ¬ RejectionStays dottedQuad (audioWithCandidate tcpCandidate) := by
  have hwritten : supportedSections (textLines (sdpSerialize dottedQuad
      (audioWithCandidate tcpCandidate))) = [(.audio, true)] := by
    rw [supportedSections_serialize newline_notMem_dottedQuad (by decide)]
    decide
  refine ⟨rfl, hwritten, ?_, fun h => ?_⟩
  · have hread : (sdpDeserialize dottedQuad stableCodecSort (fun _ _ => []) (sdpSerialize dottedQuad
        (audioWithCandidate tcpCandidate))).toOption.map (fun d' =>
          d'.description.contents.map ContentInfo.rejected) = some [true] := by
      decide +kernel
    obtain ⟨d', hd', hrejected⟩ := Option.map_eq_some_iff.mp hread
    exact ⟨d', toOption_eq_some.mp hd', hrejected⟩
  · rw [h.written] at hwritten
    exact absurd hwritten (by decide)

end Libjingle.Sdp
