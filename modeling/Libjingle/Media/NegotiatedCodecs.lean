import Libjingle.Media.PayloadTypes
import Libjingle.Media.SessionFactory
import Mathlib.Data.List.Pairwise

/-!
# The codecs of an answer (`NegotiateCodecs`, `CreateMediaContentAnswer`)

The answer has one codec for each pair of a local codec and an offered one that it matches. Then the
codecs are sorted, in any order where preferences are equal; the parameters of data codecs stay
where they are.

## Results

* **`answer_codecs_iff`**: the lists of an answer, for all that the sort may do.
-/

namespace Libjingle.Media

open Lib Sdp

variable {type : MediaType} {locals offered : List Codec}

/-! ## The list -/

/-- An RTX codec names a payload type of a list. -/
def RefersInto (c : Codec) (ids : List I32) : Prop :=
  ∃ v, c.params.get? kCodecParamAssociatedPayloadType = some v ∧ readInt v ∈ ids

/-- What one expects of the codecs `answer` that are negotiated for the codecs `offered`. -/
structure WellNegotiated (type : MediaType) (locals offered answer : List Codec) : Prop where
  distinct : (answer.map Codec.id).Nodup
  fromOffer : ∀ c ∈ answer, ∃ theirs ∈ offered, c.id = theirs.id ∧
    ∃ ours ∈ locals, codecMatches type ours theirs = true
  represented : ∀ theirs ∈ offered, (∃ ours ∈ locals, codecMatches type ours theirs = true) →
    ∃ c ∈ answer, c.id = theirs.id
  references : ∀ c ∈ answer, isRtxCodec c = true → RefersInto c (answer.map Codec.id)

theorem mem_negotiateCodecs {c : Codec} :
    c ∈ negotiateCodecs type locals offered ↔
      ∃ ours ∈ locals, ∃ theirs ∈ offered, codecMatches type ours theirs = true ∧
        negotiatedCodec ours theirs = c := by
  simp only [negotiateCodecs, List.mem_flatMap, List.mem_map, List.mem_filter, and_assoc]

theorem mem_negotiated_ids {t : I32} :
    t ∈ (negotiateCodecs type locals offered).map Codec.id ↔
      ∃ theirs ∈ offered, theirs.id = t ∧
        ∃ ours ∈ locals, codecMatches type ours theirs = true := by
  rw [List.mem_map]
  constructor
  · rintro ⟨c, hc, rfl⟩
    obtain ⟨ours, hours, theirs, htheirs, hmatch, rfl⟩ := mem_negotiateCodecs.mp hc
    exact ⟨theirs, htheirs, rfl, ours, hours, hmatch⟩
  · rintro ⟨theirs, htheirs, rfl, ours, hours, hmatch⟩
    exact ⟨_, mem_negotiateCodecs.mpr ⟨ours, hours, theirs, htheirs, hmatch, rfl⟩, rfl⟩

/-- **No payload type occurs twice** when no offered codec is matched by two local ones. -/
theorem negotiated_distinct_iff (hlocals : locals.Nodup) (hoffered : (offered.map Codec.id).Nodup) :
    ((negotiateCodecs type locals offered).map Codec.id).Nodup ↔
      ∀ theirs ∈ offered, ∀ ours ∈ locals, ∀ other ∈ locals,
        codecMatches type ours theirs = true → codecMatches type other theirs = true →
          ours = other := by
  have hlist : (negotiateCodecs type locals offered).map Codec.id = locals.flatMap fun ours =>
      (offered.filter fun theirs => codecMatches type ours theirs).map Codec.id := by
    rw [negotiateCodecs, List.map_flatMap]
    refine congrArg (locals.flatMap ·) (funext fun ours => ?_)
    rw [List.map_map]
    rfl
  have heach : ∀ ours ∈ locals,
      ((offered.filter fun theirs => codecMatches type ours theirs).map Codec.id).Nodup :=
    fun ours _ => hoffered.sublist (List.filter_sublist.map Codec.id)
  rw [hlist, List.nodup_flatMap, and_iff_right heach]
  constructor
  · intro hpair theirs htheirs ours hours other hother hmatch hmatch'
    by_contra hne
    have hsymm : Std.Symm (Function.onFun List.Disjoint fun ours =>
        (offered.filter fun theirs => codecMatches type ours theirs).map Codec.id) :=
      ⟨fun _ _ h => h.symm⟩
    have hdisjoint := hpair.forall hours hother hne
    have hmem : ∀ o, codecMatches type o theirs = true → theirs.id ∈
        (offered.filter fun theirs => codecMatches type o theirs).map Codec.id := fun o ho =>
      List.mem_map_of_mem (List.mem_filter.mpr ⟨htheirs, ho⟩)
    exact hdisjoint (hmem ours hmatch) (hmem other hmatch')
  · intro hone
    refine hlocals.pairwise_of_forall_ne fun ours hours other hother hne => ?_
    intro t ht ht'
    obtain ⟨theirs, hmem, rfl⟩ := List.mem_map.mp ht
    obtain ⟨theirs', hmem', hid⟩ := List.mem_map.mp ht'
    obtain ⟨htheirs, hmatch⟩ := List.mem_filter.mp hmem
    obtain ⟨htheirs', hmatch'⟩ := List.mem_filter.mp hmem'
    obtain rfl := List.inj_on_of_nodup_map hoffered htheirs' htheirs hid
    exact hne (hone _ htheirs ours hours other hother hmatch hmatch')

/-! ## Sorting -/

/-- The pairs of a local codec and an offered one that it matches, in the order in which
`NegotiateCodecs` comes to them. -/
def matchedPairs (type : MediaType) (locals offered : List Codec) : List (Codec × Codec) :=
  locals.flatMap fun ours =>
    (offered.filter fun theirs => codecMatches type ours theirs).map fun theirs => (ours, theirs)

theorem negotiateCodecs_eq : negotiateCodecs type locals offered =
    (matchedPairs type locals offered).map fun p => negotiatedCodec p.1 p.2 := by
  rw [negotiateCodecs, matchedPairs, List.map_flatMap]
  simp only [List.map_map]
  rfl

/-- Where the parameters of the codec of a pair come from. -/
def paramsFrom (p : Codec × Codec) : Codec := if isRtxCodec p.1 then p.2 else p.1

/-- In the end the codec of the pair `p` may have the parameters of that of `q`: they are its own,
but for data codecs, which get those of the place they are sorted to. -/
def MayCarry (type : MediaType) (pairs : List (Codec × Codec)) (p q : Codec × Codec) : Prop :=
  match type with
  | .data => ∃ k, pairs[k]? = some q ∧ MayStand (fun p => p.1.preference) pairs p k
  | .audio | .video => q = p

/-- The payload types of the offered codecs that are matched. -/
def matchedIds (type : MediaType) (locals offered : List Codec) : List I32 :=
  (offered.filter fun theirs => locals.any fun ours => codecMatches type ours theirs).map Codec.id

theorem mem_matchedIds {t : I32} : t ∈ matchedIds type locals offered ↔
    t ∈ (negotiateCodecs type locals offered).map Codec.id := by
  rw [mem_negotiated_ids]
  simp only [matchedIds, List.mem_map, List.mem_filter, List.any_eq_true]
  constructor
  · rintro ⟨theirs, ⟨htheirs, hmatch⟩, hid⟩
    exact ⟨theirs, htheirs, hid, hmatch⟩
  · rintro ⟨theirs, htheirs, hid, hmatch⟩
    exact ⟨theirs, ⟨htheirs, hmatch⟩, hid⟩

/-- The codecs of an answer, when they are sorted. -/
def sortedCodecs (type : MediaType) (sort : CodecSort) (codecs : List Codec) : List Codec :=
  List.zipWith (Codec.assign type) codecs (sort.sort codecs)

theorem mem_sortedCodecs_data {sort : CodecSort} {codecs : List Codec} {c : Codec} :
    c ∈ sortedCodecs .data sort codecs ↔ ∃ (k : Nat) (d e : Codec), codecs[k]? = some d ∧
      (sort.sort codecs)[k]? = some e ∧ { e with params := d.params } = c := by
  rw [List.mem_iff_getElem?]
  refine exists_congr fun k => ?_
  rw [sortedCodecs, List.getElem?_zipWith]
  cases codecs[k]? <;> cases (sort.sort codecs)[k]? <;> simp [Codec.assign]

/-- The references of data codecs, by the places that the codecs may get. -/
theorem data_references_iff {codecs : List Codec} {ids : List I32} :
    (∀ sort, ∀ c ∈ sortedCodecs .data sort codecs, isRtxCodec c = true → RefersInto c ids) ↔
      ∀ e ∈ codecs, isRtxCodec e = true → ∀ (k : Nat) d, codecs[k]? = some d →
        MayStand Codec.preference codecs e k → RefersInto d ids := by
  constructor
  · intro h e he hrtx k d hd hstand
    obtain ⟨sort, hsort⟩ := (exists_sorts_to_iff he).mpr hstand
    exact h sort { e with params := d.params }
      (mem_sortedCodecs_data.mpr ⟨k, d, e, hd, hsort, rfl⟩) hrtx
  · intro h sort c hc hrtx
    obtain ⟨k, d, e, hd, he, rfl⟩ := mem_sortedCodecs_data.mp hc
    have hmem : e ∈ codecs := (sort.perm codecs).mem_iff.mp (List.mem_of_getElem? he)
    exact h e hmem hrtx k d hd ((exists_sorts_to_iff hmem).mp ⟨sort, he⟩)

theorem mayStand_negotiated (pairs : List (Codec × Codec)) (p : Codec × Codec) (k : Nat) :
    MayStand Codec.preference (pairs.map fun p => negotiatedCodec p.1 p.2)
        (negotiatedCodec p.1 p.2) k ↔
      MayStand (fun p => p.1.preference) pairs p k := by
  refine (mayStand_map (fun p : Codec × Codec => negotiatedCodec p.1 p.2) pairs p k).trans ?_
  have hkey : ∀ p : Codec × Codec, (negotiatedCodec p.1 p.2).preference = p.1.preference :=
    fun p => by unfold negotiatedCodec; split <;> rfl
  simp only [MayStand, hkey]

theorem refersInto_negotiated {p : Codec × Codec} {ids : List I32} :
    RefersInto (negotiatedCodec p.1 p.2) ids ↔ RefersInto (paramsFrom p) ids := by
  unfold RefersInto negotiatedCodec paramsFrom
  cases isRtxCodec p.1 <;> rfl

/-- **The references of RTX codecs**, whatever the sort does. -/
theorem sorted_references_iff {ids : List I32} :
    (∀ sort, ∀ c ∈ sortedCodecs type sort (negotiateCodecs type locals offered),
        isRtxCodec c = true → RefersInto c ids) ↔
      ∀ p ∈ matchedPairs type locals offered, isRtxCodec p.1 = true →
        ∀ q, MayCarry type (matchedPairs type locals offered) p q →
          RefersInto (paramsFrom q) ids := by
  rw [negotiateCodecs_eq]
  generalize matchedPairs type locals offered = pairs
  by_cases hdata : type = .data
  · subst hdata
    rw [data_references_iff]
    constructor
    · rintro h p hp hrtx q ⟨k, hq, hstand⟩
      refine refersInto_negotiated.mp (h _ (List.mem_map_of_mem hp) hrtx k _ ?_ ?_)
      · rw [List.getElem?_map, hq, Option.map_some]
      · exact (mayStand_negotiated pairs p k).mpr hstand
    · intro h e he hrtx k d hd hstand
      obtain ⟨p, hp, rfl⟩ := List.mem_map.mp he
      rw [List.getElem?_map] at hd
      obtain ⟨q, hq, rfl⟩ := Option.map_eq_some_iff.mp hd
      exact refersInto_negotiated.mpr
        (h p hp hrtx q ⟨k, hq, (mayStand_negotiated pairs p k).mp hstand⟩)
  · have hcarry : ∀ p q, MayCarry type pairs p q ↔ q = p := fun p q => by
      cases type with
      | data => exact absurd rfl hdata
      | audio | video => exact Iff.rfl
    have hmem : ∀ sort c, c ∈ sortedCodecs type sort (pairs.map fun p => negotiatedCodec p.1 p.2) ↔
        ∃ p ∈ pairs, negotiatedCodec p.1 p.2 = c := fun sort c => by
      rw [sortedCodecs, zipWith_assign hdata (sort.perm _).length_eq, (sort.perm _).mem_iff,
        List.mem_map]
    constructor
    · intro h p hp hrtx q hq
      rw [(hcarry p q).mp hq]
      exact refersInto_negotiated.mp (h stableCodecSort _ ((hmem _ _).mpr ⟨p, hp, rfl⟩) hrtx)
    · intro h sort c hc hrtx
      obtain ⟨p, hp, rfl⟩ := (hmem sort c).mp hc
      exact refersInto_negotiated.mpr (h p hp hrtx p ((hcarry p p).mpr rfl))

/-- Of a sorted list it is the payload types and the references that count. -/
theorem wellNegotiated_iff {answer : List Codec} (h : (answer.map Codec.id).Perm
    ((negotiateCodecs type locals offered).map Codec.id)) :
    WellNegotiated type locals offered answer ↔
      ((negotiateCodecs type locals offered).map Codec.id).Nodup ∧
        ∀ c ∈ answer, isRtxCodec c = true → RefersInto c (matchedIds type locals offered) := by
  have hids : ∀ t, t ∈ answer.map Codec.id ↔ t ∈ matchedIds type locals offered := fun t => by
    rw [h.mem_iff, mem_matchedIds]
  have hrefers : ∀ c, RefersInto c (answer.map Codec.id) ↔
      RefersInto c (matchedIds type locals offered) := fun c => by
    simp only [RefersInto, hids]
  constructor
  · exact fun hw => ⟨h.nodup_iff.mp hw.distinct, fun c hc hrtx =>
      (hrefers c).mp (hw.references c hc hrtx)⟩
  · rintro ⟨hdistinct, hreferences⟩
    refine ⟨h.nodup_iff.mpr hdistinct, fun c hc => ?_, fun theirs htheirs hmatch => ?_,
      fun c hc hrtx => (hrefers c).mpr (hreferences c hc hrtx)⟩
    · obtain ⟨theirs, htheirs, hid, hmatch⟩ :=
        mem_negotiated_ids.mp (h.mem_iff.mp (List.mem_map_of_mem hc))
      exact ⟨theirs, htheirs, hid.symm, hmatch⟩
    · have hmem := h.mem_iff.mpr (mem_negotiated_ids.mpr ⟨theirs, htheirs, rfl, hmatch⟩)
      exact List.mem_map.mp hmem

/-! ## The answer -/

section

variable {r : Runtime} {offer : MediaContentDescription} {options : MediaSessionOptions}
  {policy : SecurePolicy} {current : Option (List CryptoParams)}
  {streams streams' : List StreamParams} {addLegacyStream bundle : Bool}
  {answer : MediaContentDescription}

theorem createMediaContentAnswer_codecs
    (h : createMediaContentAnswer r offer options locals policy current streams addLegacyStream
      bundle = some (answer, streams')) :
    answer.codecs = sortedCodecs offer.type r.sort (negotiateCodecs offer.type locals
      offer.codecs) := by
  simp only [createMediaContentAnswer] at h
  split at h
  · cases h
  · obtain ⟨s, -, hs⟩ := Option.map_eq_some_iff.mp h
    cases hs
    rfl

theorem sortedCodecs_perm (type : MediaType) (sort : CodecSort) (codecs : List Codec) {γ : Type}
    {g : Codec → γ} (hg : ∀ type c d, g (Codec.assign type c d) = g d) :
    ((sortedCodecs type sort codecs).map g).Perm (codecs.map g) :=
  sortCodecs_perm sort { MediaContentDescription.new type with codecs } hg

theorem addStreams_sort (sort : CodecSort) (type : MediaType) (all : List StreamOptions)
    (rtx : Bool) (rest : List (StreamOptions × Nat)) (current : List StreamParams) :
    addStreams { r with sort } type all rtx rest current =
      addStreams r type all rtx rest current := by
  induction rest generalizing current with
  | nil => rfl
  | cons x rest ih =>
    simp only [addStreams, ih]
    rfl

theorem containsRtxCodec_sort (type : MediaType) (sort : CodecSort) (codecs : List Codec) :
    containsRtxCodec (sortedCodecs type sort codecs) = containsRtxCodec codecs := by
  have hperm := sortedCodecs_perm type sort codecs (g := isRtxCodec) fun type c d => by
    cases type <;> rfl
  rw [Bool.eq_iff_iff, containsRtxCodec, containsRtxCodec, List.any_eq_true, List.any_eq_true]
  simpa only [List.mem_map] using hperm.mem_iff (a := true)

/-- Whether there is an answer does not depend on the sort. -/
theorem createMediaContentAnswer_sort (h : createMediaContentAnswer r offer options locals policy
      current streams addLegacyStream bundle = some (answer, streams')) (sort : CodecSort) :
    ∃ answer', createMediaContentAnswer { r with sort } offer options locals policy current streams
      addLegacyStream bundle = some (answer', streams') := by
  have hstreams : ∀ codecs, addStreamParams { r with sort } offer.type options.streams streams
      (sortedCodecs offer.type sort codecs) addLegacyStream = addStreamParams r offer.type
        options.streams streams (sortedCodecs offer.type r.sort codecs) addLegacyStream := by
    intro codecs
    simp only [addStreamParams, containsRtxCodec_sort, addStreams_sort]
    rfl
  simp only [createMediaContentAnswer] at h ⊢
  split at h
  · cases h
  · rename_i hcryptos
    obtain ⟨s, hs, heq⟩ := Option.map_eq_some_iff.mp h
    cases heq
    exact ⟨_, (if_neg hcryptos).trans
      (Option.map_eq_some_iff.mpr ⟨s, (hstreams _).trans hs, rfl⟩)⟩

/-- **The codecs of an answer.** Those that are offered and that a local codec matches are there;
they are there once, and RTX codecs refer to some of them, when no offered codec is matched by two
local ones, and the parameters that the codec of a matched RTX pair may have name a codec that is
matched too. -/
theorem answer_codecs_iff
    (h : createMediaContentAnswer r offer options locals policy current streams addLegacyStream
      bundle = some (answer, streams'))
    (hlocals : (locals.map Codec.id).Nodup) (hoffered : (offer.codecs.map Codec.id).Nodup) :
    (∀ sort answer streams', createMediaContentAnswer { r with sort } offer options locals policy
        current streams addLegacyStream bundle = some (answer, streams') →
      WellNegotiated offer.type locals offer.codecs answer.codecs) ↔
      (∀ theirs ∈ offer.codecs, ∀ ours ∈ locals, ∀ other ∈ locals,
          codecMatches offer.type ours theirs = true →
            codecMatches offer.type other theirs = true → ours = other) ∧
        ∀ p ∈ matchedPairs offer.type locals offer.codecs, isRtxCodec p.1 = true →
          ∀ q, MayCarry offer.type (matchedPairs offer.type locals offer.codecs) p q →
            RefersInto (paramsFrom q) (matchedIds offer.type locals offer.codecs) := by
  have hids : ∀ sort, ((sortedCodecs offer.type sort (negotiateCodecs offer.type locals
      offer.codecs)).map Codec.id).Perm ((negotiateCodecs offer.type locals offer.codecs).map
        Codec.id) := fun sort =>
    sortedCodecs_perm offer.type sort _ fun type c d => by cases type <;> rfl
  rw [← negotiated_distinct_iff (List.Nodup.of_map _ hlocals) hoffered, ← sorted_references_iff]
  constructor
  · intro hall
    have hwell : ∀ sort, WellNegotiated offer.type locals offer.codecs (sortedCodecs offer.type sort
        (negotiateCodecs offer.type locals offer.codecs)) := fun sort => by
      obtain ⟨answer', hanswer⟩ := createMediaContentAnswer_sort h sort
      rw [← createMediaContentAnswer_codecs hanswer]
      exact hall sort answer' streams' hanswer
    exact ⟨((wellNegotiated_iff (hids r.sort)).mp (hwell r.sort)).1, fun sort =>
      ((wellNegotiated_iff (hids sort)).mp (hwell sort)).2⟩
  · rintro ⟨hdistinct, hreferences⟩ sort answer' streams'' hanswer
    rw [createMediaContentAnswer_codecs hanswer]
    exact (wellNegotiated_iff (hids sort)).mpr ⟨hdistinct, hreferences sort⟩

end

/-! ## Answers to offers of RTX -/

def vp8 (id : I32) : Codec := namedCodec id "VP8".toList .empty

/-- A content with these codecs is offered and answered with those of a factory. -/
def answerTo (type : MediaType) (locals offered : List Codec) (r : Runtime) :
    Option (MediaContentDescription × List StreamParams) :=
  createMediaContentAnswer r { MediaContentDescription.new type with codecs := offered }
    (plainOptions false) locals .disabled none [] false false

/-- VP8 with RTX is answered, and well whatever the sort does. -/
theorem answer_codecs_iff_vp8 :
    (∃ answer, answerTo .video [vp8 100, rtxCodec 101 "100".toList]
        [vp8 96, rtxCodec 97 "96".toList] (countingRuntime 0) = some (answer, [])) ∧
      ∀ sort answer streams, answerTo .video [vp8 100, rtxCodec 101 "100".toList]
          [vp8 96, rtxCodec 97 "96".toList] { countingRuntime 0 with sort } =
            some (answer, streams) →
        WellNegotiated .video [vp8 100, rtxCodec 101 "100".toList]
          [vp8 96, rtxCodec 97 "96".toList] answer.codecs := by
  refine ⟨⟨_, rfl⟩, (answer_codecs_iff (r := countingRuntime 0)
    (show answerTo .video _ _ _ = some (_, []) from rfl) (by decide) (by decide)).mpr
    ⟨by decide, fun p hp hrtx q hq => ?_⟩⟩
  obtain rfl : q = p := hq
  have hpair : q = (rtxCodec 101 "100".toList, rtxCodec 97 "96".toList) := by
    revert hrtx hp
    revert q
    decide
  exact ⟨"96".toList, by rw [hpair]; rfl, by decide⟩

/-- With RTX for two local codecs the offered one is answered twice. With RTX for an offered codec
that is not known here the answer refers to that codec. The parameters of data codecs stay in their
places when the codecs are sorted. -/
theorem rtx_answered_twice :
    (∃ answer, answerTo .video
          [vp8 100, rtxCodec 101 "100".toList, namedCodec 102 "H264".toList .empty,
            rtxCodec 103 "102".toList]
          [vp8 96, rtxCodec 97 "96".toList] (countingRuntime 0) = some (answer, []) ∧
        answer.codecs.map Codec.id = [96, 97, 97]) ∧
      (∃ answer, answerTo .video [vp8 100, rtxCodec 101 "100".toList]
          [vp8 96, rtxCodec 97 "98".toList, namedCodec 98 "H264".toList .empty]
          (countingRuntime 0) = some (answer, []) ∧
        answer.codecs.map (fun c => (c.id, aptOf c)) = [(96, 0), (97, 98)]) ∧
      ∃ answer, answerTo .data
          [namedCodec 101 "google-data".toList .empty,
            { rtxCodec 102 "101".toList with preference := 1 }]
          [namedCodec 100 "google-data".toList .empty, rtxCodec 96 "100".toList]
          (countingRuntime 0) = some (answer, []) ∧
        answer.codecs.map (fun c => (c.id, isRtxCodec c, aptOf c)) =
          [(96, true, 0), (100, false, 100)] :=
  ⟨⟨_, rfl, by decide⟩, ⟨_, rfl, by decide⟩, _, rfl, by decide⟩

end Libjingle.Media
