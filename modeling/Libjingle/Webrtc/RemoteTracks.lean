import Libjingle.Lib.Growth
import Libjingle.Lib.History
import Libjingle.Lib.Objects
import Libjingle.Webrtc.DataChannels

/-!
# Remote tracks and streams after a description (`RemoteTracks`, `UpdateRemoteStreams`)

The maps of tracks are tables that are filled by ids and cleaned by SSRCs, so that they follow the
streams of a content unless a track changes its SSRC or its stream, or an SSRC its track. The
streams always are what their tracks say.

* **`remote_tracks_mirror_iff`**: the sequences of descriptions that the tracks and streams follow.
-/

namespace Libjingle.Webrtc.MediaStreamSignaling

open Lib Sdp

variable {s : MediaStreamSignaling}

/-! ## Streams and tracks -/

/-- The labels of the remote streams. -/
def labels (s : MediaStreamSignaling) : List Text := s.remoteStreams.map MediaStream.label

/-- The tracks of a kind, as a table. -/
def track (s : MediaStreamSignaling) (type : MediaType) : Text → Option TrackInfo :=
  (s.remoteTracks type).get?

/-- Streams have distinct labels and list exactly their tracks. -/
structure Consistent (s : MediaStreamSignaling) : Prop where
  nodup : s.labels.Nodup
  attached : ∀ type id info, s.track type id = some info → info.stream ∈ s.labels
  listed : ∀ st ∈ s.remoteStreams, ∀ type id,
    id ∈ st.tracks type ↔ ∃ info, s.track type id = some info ∧ info.stream = st.label
  distinct : ∀ st ∈ s.remoteStreams, ∀ type, (st.tracks type).Nodup
  data : s.track .data = fun _ => none

variable {s' : MediaStreamSignaling} {type : MediaType}

theorem track_update {m : SortedMap Text TrackInfo}
    (h : s'.remoteTracks = Function.update s.remoteTracks type m) :
    s'.track type = m.get? ∧ ∀ type', type' ≠ type → s'.track type' = s.track type' := by
  refine ⟨?_, fun type' hne => ?_⟩
  · rw [track, h, Function.update_self]
  · rw [track, h, Function.update_of_ne hne, track]

theorem labels_same (h : s'.remoteStreams = s.remoteStreams) :
    s'.labels = s.labels := congrArg (List.map MediaStream.label) h

theorem track_same (h : s'.remoteTracks = s.remoteTracks) : s'.track = s.track := by
  funext type
  rw [track, h, track]

theorem Consistent.same (h : Consistent s)
    (hstreams : s'.remoteStreams = s.remoteStreams) (htracks : s'.remoteTracks = s.remoteTracks) :
    Consistent s' := by
  have htrack : s'.track = s.track := track_same htracks
  refine ⟨labels_same hstreams ▸ h.nodup, ?_, ?_, ?_, htrack ▸ h.data⟩
  · rw [htrack, labels_same hstreams]
    exact h.attached
  · rw [hstreams, htrack]
    exact h.listed
  · rw [hstreams]
    exact h.distinct

theorem hasStream_iff (label : Text) : s.hasStream label = true ↔ label ∈ s.labels := by
  rw [hasStream, labels, List.any_eq_true, List.mem_map]
  exact exists_congr fun st => and_congr_right fun _ => decide_eq_true_iff

theorem labels_updateStream (label : Text) {f : MediaStream → MediaStream}
    (hf : ∀ st, (f st).label = st.label) : (s.updateStream label f).labels = s.labels := by
  rw [labels, labels, updateStream, List.map_map]
  refine List.map_congr_left fun st _ => ?_
  by_cases h : st.label = label
  · rw [Function.comp_apply, if_pos h, hf]
  · rw [Function.comp_apply, if_neg h]

theorem addTrack_label (type : MediaType) (id : Text) (st : MediaStream) :
    (st.addTrack type id).label = st.label := by
  rw [MediaStream.addTrack]
  split <;> rfl

variable {id : Text}

variable {st : MediaStream}

theorem addTrack_tracks (h : id ∉ st.tracks type) :
    (st.addTrack type id).tracks = Function.update st.tracks type (st.tracks type ++ [id]) := by
  rw [MediaStream.addTrack, if_neg h]

variable {type' : MediaType}

theorem addTrack_of_ne (h : type' ≠ type) (id : Text) (st : MediaStream) :
    (st.addTrack type id).tracks type' = st.tracks type' := by
  rw [MediaStream.addTrack]
  split
  · rfl
  · exact Function.update_of_ne h _ _

/-- What is done to a stream when one of its tracks begins or ends. -/
structure TrackChanged (type : MediaType) (id : Text) (listed : Bool) (st st' : MediaStream) :
    Prop where
  label : st'.label = st.label
  tracks : ∀ k, k ∈ st'.tracks type ↔ if k = id then listed = true else k ∈ st.tracks type
  distinct : (st'.tracks type).Nodup
  other : ∀ type', type' ≠ type → st'.tracks type' = st.tracks type'

/-- **One track** begins or ends, in its table and in its stream. -/
theorem Consistent.changed {s' : MediaStreamSignaling} (h : Consistent s) {type : MediaType}
    {id label : Text} {new : Option TrackInfo} {f : MediaStream → MediaStream}
    (hstreams : s'.remoteStreams =
      s.remoteStreams.map fun st => if st.label = label then f st else st)
    (htrack : ∀ k, s'.track type k = if k = id then new else s.track type k)
    (hother : ∀ type', type' ≠ type → s'.track type' = s.track type')
    (hold : ∀ info, s.track type id = some info → info.stream = label)
    (hnew : ∀ info, new = some info → info.stream = label ∧ label ∈ s.labels ∧ type ≠ .data)
    (hf : ∀ st ∈ s.remoteStreams, st.label = label → TrackChanged type id new.isSome st (f st)) :
    Consistent s' := by
  have hlabels : s'.labels = s.labels := by
    rw [labels, labels, hstreams, List.map_map]
    refine List.map_congr_left fun st hst => ?_
    by_cases hmine : st.label = label
    · rw [Function.comp_apply, if_pos hmine, (hf st hst hmine).label]
    · rw [Function.comp_apply, if_neg hmine]
  -- each stream is an old one, changed or not
  have hstream : ∀ {Q : MediaStream → Prop},
      (∀ st ∈ s.remoteStreams, st.label = label → Q (f st)) →
      (∀ st ∈ s.remoteStreams, st.label ≠ label → Q st) → ∀ st ∈ s'.remoteStreams, Q st := by
    intro Q hmine hothers st hst
    rw [hstreams] at hst
    obtain ⟨st₀, hst₀, rfl⟩ := List.mem_map.mp hst
    split
    · rename_i heq
      exact hmine st₀ hst₀ heq
    · rename_i hne
      exact hothers st₀ hst₀ hne
  refine ⟨hlabels ▸ h.nodup, fun type' k info hinfo => ?_,
    hstream (fun st hst hmine => ?_) fun st hst hne => ?_,
    hstream (fun st hst hmine => ?_) fun st hst _ => h.distinct st hst, ?_⟩
  · rw [hlabels]
    by_cases htype : type' = type
    · subst htype
      rw [htrack] at hinfo
      split at hinfo
      · obtain ⟨heq, hmem, -⟩ := hnew info hinfo
        exact heq ▸ hmem
      · exact h.attached type' k info hinfo
    · rw [hother type' htype] at hinfo
      exact h.attached type' k info hinfo
  · -- the stream of the track
    intro type' k
    have hchanged := hf st hst hmine
    rw [hchanged.label]
    by_cases htype : type' = type
    · subst htype
      rw [hchanged.tracks, htrack]
      split
      · rw [Option.isSome_iff_exists]
        exact exists_congr fun info => (and_iff_left_of_imp fun hinfo =>
          (hnew info hinfo).1.trans hmine.symm).symm
      · exact h.listed st hst type' k
    · rw [hchanged.other type' htype, hother type' htype]
      exact h.listed st hst type' k
  · -- another stream
    intro type' k
    have hlisted := h.listed st hst type' k
    by_cases htype : type' = type
    · subst htype
      rw [htrack]
      split
      · rename_i heq
        rw [hlisted, heq]
        constructor
        · rintro ⟨info, hinfo, hstream⟩
          exact (hne (hstream.symm.trans (hold info hinfo))).elim
        · rintro ⟨info, hinfo, hstream⟩
          exact (hne (hstream.symm.trans (hnew info hinfo).1)).elim
      · exact hlisted
    · rw [hother type' htype]
      exact hlisted
  · intro type'
    have hchanged := hf st hst hmine
    by_cases htype : type' = type
    · subst htype
      exact hchanged.distinct
    · rw [hchanged.other type' htype]
      exact h.distinct st hst type'
  · funext k
    by_cases htype : .data = type
    · subst htype
      rw [htrack, h.data]
      split
      · exact Option.eq_none_iff_forall_ne_some.mpr fun info hinfo => (hnew info hinfo).2.2 rfl
      · rfl
    · rw [hother .data htype, h.data]

/-! ### A new track -/

theorem addRemoteTrack_known (h : (s.track type id).isSome = true)
    (label : Text) (ssrc : U32) : s.addRemoteTrack type id label ssrc = s := if_pos h

theorem addRemoteTrack_new (h : ¬(s.track type id).isSome = true)
    (label : Text) (ssrc : U32) : s.addRemoteTrack type id label ssrc =
      { s.updateStream label (.addTrack type id) with
        remoteTracks :=
          Function.update s.remoteTracks type ((s.remoteTracks type).set id ⟨label, ssrc⟩) } :=
  if_neg h

theorem labels_addRemoteTrack (type : MediaType) (id label : Text) (ssrc : U32) :
    (s.addRemoteTrack type id label ssrc).labels = s.labels := by
  rw [addRemoteTrack]
  split
  · rfl
  · exact labels_updateStream label (addTrack_label type id)

theorem track_addRemoteTrack (type : MediaType) (id label : Text) (ssrc : U32) :
    (s.addRemoteTrack type id label ssrc).track type =
      addMissing (s.track type) id ⟨label, ssrc⟩ := by
  by_cases hknown : (s.track type id).isSome = true
  · rw [addRemoteTrack_known hknown, addMissing, if_pos hknown]
  · rw [addMissing, if_neg hknown, addRemoteTrack_new hknown, (track_update rfl).1]
    funext k
    by_cases hk : k = id
    · subst hk
      rw [SortedMap.get?_set, Function.update_self]
    · rw [SortedMap.get?_set_of_ne _ hk, Function.update_of_ne hk, track]

theorem track_addRemoteTrack_of_ne (h : type' ≠ type) (id label : Text)
    (ssrc : U32) : (s.addRemoteTrack type id label ssrc).track type' = s.track type' := by
  by_cases hknown : (s.track type id).isSome = true
  · rw [addRemoteTrack_known hknown]
  · rw [addRemoteTrack_new hknown, (track_update rfl).2 type' h]

variable {label : Text}

theorem Consistent.addRemoteTrack (h : Consistent s) (hlabel : label ∈ s.labels)
    (hmedia : type ≠ .data) (id : Text) (ssrc : U32) :
    Consistent (s.addRemoteTrack type id label ssrc) := by
  by_cases hknown : (s.track type id).isSome = true
  · rw [addRemoteTrack_known hknown]
    exact h
  have hnone : s.track type id = none := Option.not_isSome_iff_eq_none.mp hknown
  have htrack : ∀ k, (s.addRemoteTrack type id label ssrc).track type k =
      if k = id then some ⟨label, ssrc⟩ else s.track type k := by
    intro k
    rw [track_addRemoteTrack, addMissing, if_neg hknown, Function.update_apply]
  have hstreams : (s.addRemoteTrack type id label ssrc).remoteStreams =
      s.remoteStreams.map fun st => if st.label = label then st.addTrack type id else st := by
    rw [addRemoteTrack_new hknown]
    rfl
  refine h.changed hstreams htrack
    (fun type' hne => track_addRemoteTrack_of_ne hne id label ssrc) (fun info hinfo => ?_)
    (fun info hinfo => ?_) fun st hst _ => ?_
  · rw [hnone] at hinfo
    cases hinfo
  · obtain rfl := Option.some.inj hinfo
    exact ⟨rfl, hlabel, hmedia⟩
  · have hnot : id ∉ st.tracks type := by
      intro hmem
      obtain ⟨info, hinfo, -⟩ := (h.listed st hst type id).mp hmem
      rw [hnone] at hinfo
      cases hinfo
    refine ⟨addTrack_label type id st, fun k => ?_, ?_, fun type' hne => addTrack_of_ne hne id st⟩
    · rw [addTrack_tracks hnot, Function.update_self, List.mem_append, List.mem_singleton]
      by_cases hk : k = id
      · simp [hk]
      · simp [hk]
    · rw [addTrack_tracks hnot, Function.update_self]
      exact List.nodup_append.mpr ⟨h.distinct st hst type, List.nodup_singleton _,
        fun a ha b hb hab => hnot (List.mem_singleton.mp hb ▸ hab ▸ ha)⟩

/-! ### A track ends -/

theorem endTrack_known {info : TrackInfo} (h : s.track type id = some info) : s.endTrack type id =
      { s.updateStream info.stream (.removeTrack type id) with
        remoteTracks := Function.update s.remoteTracks type ((s.remoteTracks type).erase id) } := by
  have h : (s.remoteTracks type).get? id = some info := h
  rw [endTrack, h]
  rfl

theorem endTrack_unknown (h : s.track type id = none) : s.endTrack type id = s := by
  have h : (s.remoteTracks type).get? id = none := h
  rw [endTrack, h]

theorem labels_endTrack (type : MediaType) (id : Text) :
    (s.endTrack type id).labels = s.labels := by
  cases h : s.track type id with
  | none => rw [endTrack_unknown h]
  | some info =>
    rw [endTrack_known h]
    exact labels_updateStream info.stream fun _ => rfl

theorem track_endTrack (type : MediaType) (id k : Text) :
    (s.endTrack type id).track type k = if k = id then none else s.track type k := by
  cases h : s.track type id with
  | none =>
    rw [endTrack_unknown h]
    split
    · rename_i heq
      rw [heq, h]
    · rfl
  | some info =>
    rw [endTrack_known h, (track_update rfl).1, SortedMap.get?_erase]
    by_cases hk : k = id
    · rw [if_pos hk, if_pos hk]
    · rw [if_neg hk, if_neg hk, track]

theorem track_endTrack_of_ne (h : type' ≠ type) (id : Text) :
    (s.endTrack type id).track type' = s.track type' := by
  cases hid : s.track type id with
  | none => rw [endTrack_unknown hid]
  | some info =>
    rw [endTrack_known hid, (track_update rfl).2 type' h]

theorem Consistent.endTrack (h : Consistent s) (type : MediaType) (id : Text) :
    Consistent (s.endTrack type id) := by
  cases hinfo : s.track type id with
  | none =>
    rw [endTrack_unknown hinfo]
    exact h
  | some info =>
    have hstreams : (s.endTrack type id).remoteStreams = s.remoteStreams.map fun st =>
        if st.label = info.stream then st.removeTrack type id else st := by
      rw [endTrack_known hinfo]
      rfl
    refine h.changed hstreams (track_endTrack type id)
      (fun type' hne => track_endTrack_of_ne hne id) (fun info' hinfo' => ?_)
      (fun _ hnone => (Option.some_ne_none _ hnone.symm).elim) fun st hst _ => ?_
    · rw [hinfo] at hinfo'
      rw [Option.some.inj hinfo']
    · have hdistinct := h.distinct st hst type
      have hremoved : (st.removeTrack type id).tracks type = (st.tracks type).erase id :=
        Function.update_self type _ _
      refine ⟨rfl, fun k => ?_, ?_, fun type' hne => Function.update_of_ne hne _ _⟩
      · rw [hremoved, hdistinct.mem_erase_iff]
        by_cases hk : k = id
        · simp [hk]
        · simp [hk]
      · rw [hremoved]
        exact hdistinct.erase id

theorem endTracks_spec (type : MediaType) (ids : List Text) (h : Consistent s) :
    Consistent (ids.foldl (fun s id => s.endTrack type id) s) ∧
      (∀ k, (ids.foldl (fun s id => s.endTrack type id) s).track type k =
        if k ∈ ids then none else s.track type k) ∧
      (∀ type', type' ≠ type →
        (ids.foldl (fun s id => s.endTrack type id) s).track type' = s.track type') ∧
      (ids.foldl (fun s id => s.endTrack type id) s).labels = s.labels := by
  induction ids generalizing s with
  | nil => exact ⟨h, fun _ => by simp, fun _ _ => rfl, rfl⟩
  | cons id ids ih =>
    obtain ⟨hconsistent, htrack, hother, hlabels⟩ := ih (h.endTrack type id)
    refine ⟨hconsistent, fun k => ?_, fun type' hne => ?_, hlabels.trans (labels_endTrack type id)⟩
    · rw [List.foldl_cons, htrack, track_endTrack]
      by_cases hmem : k ∈ ids
      · simp [hmem]
      · by_cases hk : k = id
        · simp [hk]
        · simp [hmem, hk]
    · rw [List.foldl_cons, hother type' hne, track_endTrack_of_ne hne]

/-- **The tracks that are left** are those whose SSRC is in a stream. -/
theorem removeDisappearedTracks_spec (type : MediaType) (streams : List StreamParams)
    (h : Consistent s) :
    Consistent (s.removeDisappearedTracks type streams) ∧
      (s.removeDisappearedTracks type streams).track type =
        clean (fun info => getStreamBySsrc streams info.ssrc) (s.track type) ∧
      (∀ type', type' ≠ type →
        (s.removeDisappearedTracks type streams).track type' = s.track type') ∧
      (s.removeDisappearedTracks type streams).labels = s.labels := by
  obtain ⟨hconsistent, htrack, hother, hlabels⟩ :=
    endTracks_spec type (s.disappeared type streams) h
  refine ⟨hconsistent, funext fun k => ?_, hother, hlabels⟩
  rw [removeDisappearedTracks, htrack, clean]
  have hgone : k ∈ s.disappeared type streams ↔
      ∃ info, s.track type k = some info ∧ getStreamBySsrc streams info.ssrc = false := by
    simp only [disappeared, List.mem_map, List.mem_filter, Bool.not_eq_true']
    constructor
    · rintro ⟨⟨k', info⟩, ⟨hmem, hno⟩, rfl⟩
      exact ⟨info, SortedMap.mem_entries_iff.mp hmem, hno⟩
    · rintro ⟨info, hinfo, hno⟩
      exact ⟨(k, info), ⟨SortedMap.mem_entries_iff.mpr hinfo, hno⟩, rfl⟩
  cases hk : s.track type k with
  | none => exact ite_self none
  | some info =>
    rw [hk] at hgone
    by_cases hkeep : getStreamBySsrc streams info.ssrc = true
    · have hstays : k ∉ s.disappeared type streams := by
        intro hmem
        obtain ⟨info', hsame, hno⟩ := hgone.mp hmem
        obtain rfl := Option.some.inj hsame
        rw [hkeep] at hno
        cases hno
      rw [if_neg hstays, Option.filter_some, if_pos hkeep]
    · rw [if_pos (hgone.mpr ⟨info, rfl, Bool.eq_false_iff.mpr hkeep⟩), Option.filter_some,
        if_neg hkeep]

/-! ## The streams of a content -/

theorem labels_addStream (label : Text) : (s.addStream label).labels = s.labels ++ [label] :=
  List.map_append

theorem Consistent.addStream (h : Consistent s) (hnew : label ∉ s.labels) :
    Consistent (s.addStream label) := by
  have hlabels := labels_addStream (s := s) label
  refine ⟨?_, fun type id info hinfo => ?_, fun st hst type id => ?_, fun st hst type => ?_,
    h.data⟩
  · rw [hlabels]
    exact List.nodup_append.mpr ⟨h.nodup, List.nodup_singleton _, fun a ha b hb hab =>
      hnew (List.mem_singleton.mp hb ▸ hab ▸ ha)⟩
  · rw [hlabels]
    exact List.mem_append_left _ (h.attached type id info hinfo)
  · rcases List.mem_append.mp hst with hst | hst
    · exact h.listed st hst type id
    · obtain rfl := List.mem_singleton.mp hst
      refine ⟨fun hmem => absurd hmem List.not_mem_nil, ?_⟩
      rintro ⟨info, hinfo, rfl⟩
      exact (hnew (h.attached type id info hinfo)).elim
  · rcases List.mem_append.mp hst with hst | hst
    · exact h.distinct st hst type
    · obtain rfl := List.mem_singleton.mp hst
      exact List.nodup_nil

/-- What a stream says about a track. -/
def entry (p : StreamParams) : Text × TrackInfo := (p.name, ⟨p.syncLabel, p.firstSsrc⟩)

/-- Nothing but streams and tracks changes, as far as the observer and the default tracks go. -/
structure StreamsOnly (s s' : MediaStreamSignaling) : Prop where
  notifications : s'.notifications = s.notifications
  defaultTrackNeeded : s'.defaultTrackNeeded = s.defaultTrackNeeded

theorem StreamsOnly.refl (s : MediaStreamSignaling) : StreamsOnly s s := ⟨rfl, rfl⟩

variable {a b c : MediaStreamSignaling}

theorem StreamsOnly.trans (h : StreamsOnly a b) (h' : StreamsOnly b c) : StreamsOnly a c :=
  ⟨h'.notifications.trans h.notifications, h'.defaultTrackNeeded.trans h.defaultTrackNeeded⟩

theorem addRemoteTrack_only (s : MediaStreamSignaling) (type : MediaType) (id label : Text)
    (ssrc : U32) : StreamsOnly s (s.addRemoteTrack type id label ssrc) := by
  rw [addRemoteTrack]
  split
  · exact .refl s
  · exact ⟨rfl, rfl⟩

theorem endTrack_only (s : MediaStreamSignaling) (type : MediaType) (id : Text) :
    StreamsOnly s (s.endTrack type id) := by
  rw [endTrack]
  split
  · exact .refl s
  · exact ⟨rfl, rfl⟩

/-- What the streams of a content make of streams and tracks; the labels of new streams are
appended. -/
structure StreamsAdded (type : MediaType) (l : List StreamParams)
    (a b : List Text × MediaStreamSignaling) : Prop where
  consistent : Consistent b.2
  track : b.2.track type = fill (a.2.track type) (l.map entry)
  other : ∀ type', type' ≠ type → b.2.track type' = a.2.track type'
  new : ∃ added, b.1 = a.1 ++ added ∧ b.2.labels = a.2.labels ++ added
  labels : ∀ x, x ∈ b.2.labels ↔ x ∈ a.2.labels ∨ ∃ p ∈ l, p.syncLabel = x
  only : StreamsOnly a.2 b.2

theorem updateRemoteStream_spec (hmedia : type ≠ .data) (p : StreamParams)
    (a : List Text × MediaStreamSignaling) (h : Consistent a.2) :
    StreamsAdded type [p] a (updateRemoteStream type a p) := by
  obtain ⟨newStreams, s⟩ := a
  rw [updateRemoteStream]
  dsimp only at h ⊢
  by_cases hhas : s.hasStream p.syncLabel = true
  · have hmem := (hasStream_iff p.syncLabel).mp hhas
    rw [if_pos hhas]
    have hlabels := labels_addRemoteTrack (s := s) type p.name p.syncLabel p.firstSsrc
    refine ⟨h.addRemoteTrack hmem hmedia p.name p.firstSsrc, ?_, fun type' hne =>
      track_addRemoteTrack_of_ne hne _ _ _, ⟨[], by simp, by simp [hlabels]⟩, fun x => ?_,
      addRemoteTrack_only s type p.name p.syncLabel p.firstSsrc⟩
    · rw [track_addRemoteTrack, List.map_singleton, fill_cons, fill_nil]
      rfl
    · rw [hlabels]
      refine ⟨.inl, ?_⟩
      rintro (hx | ⟨q, hq, rfl⟩)
      · exact hx
      · exact List.mem_singleton.mp hq ▸ hmem
  · have hnew : p.syncLabel ∉ s.labels := fun hmem => hhas ((hasStream_iff p.syncLabel).mpr hmem)
    have hadded := labels_addStream (s := s) p.syncLabel
    have hmem : p.syncLabel ∈ (s.addStream p.syncLabel).labels := by
      rw [hadded]
      exact List.mem_append_right _ (List.mem_singleton_self _)
    rw [if_neg hhas]
    have hlabels := labels_addRemoteTrack (s := s.addStream p.syncLabel) type p.name p.syncLabel
      p.firstSsrc
    refine ⟨(h.addStream hnew).addRemoteTrack hmem hmedia p.name p.firstSsrc, ?_, fun type' hne =>
      track_addRemoteTrack_of_ne hne _ _ _, ⟨[p.syncLabel], rfl, hlabels.trans hadded⟩,
      fun x => ?_, StreamsOnly.trans (b := s.addStream p.syncLabel) ⟨rfl, rfl⟩
        (addRemoteTrack_only _ type p.name p.syncLabel p.firstSsrc)⟩
    · rw [track_addRemoteTrack, List.map_singleton, fill_cons, fill_nil]
      rfl
    · rw [hlabels, hadded, List.mem_append, List.mem_singleton]
      simp [eq_comm]

theorem StreamsAdded.trans {l l' : List StreamParams}
    {a b c : List Text × MediaStreamSignaling} (h : StreamsAdded type l a b)
    (h' : StreamsAdded type l' b c) (hfill : c.2.track type =
      fill (a.2.track type) ((l ++ l').map entry)) : StreamsAdded type (l ++ l') a c := by
  obtain ⟨added, hnew, hlabels⟩ := h.new
  obtain ⟨added', hnew', hlabels'⟩ := h'.new
  refine ⟨h'.consistent, hfill, fun type' hne => (h'.other type' hne).trans (h.other type' hne),
    ⟨added ++ added', ?_, ?_⟩, fun x => ?_, h.only.trans h'.only⟩
  · rw [hnew', hnew, List.append_assoc]
  · rw [hlabels', hlabels, List.append_assoc]
  · rw [h'.labels, h.labels, or_assoc]
    simp only [List.mem_append, or_and_right, exists_or]

theorem updateRemoteStream_foldl (hmedia : type ≠ .data) (l : List StreamParams)
    (a : List Text × MediaStreamSignaling) (h : Consistent a.2) :
    StreamsAdded type l a (l.foldl (updateRemoteStream type) a) := by
  induction l generalizing a with
  | nil =>
    exact ⟨h, by simp, fun _ _ => rfl, ⟨[], by simp, by simp⟩, fun x => by simp, .refl _⟩
  | cons p l ih =>
    have hfirst := updateRemoteStream_spec hmedia p a h
    have hrest := ih (updateRemoteStream type a p) hfirst.consistent
    refine hfirst.trans hrest ?_
    have hadd := hfirst.track
    rw [List.map_singleton, fill_cons, fill_nil] at hadd
    rw [List.singleton_append, List.map_cons, fill_cons, ← hadd]
    exact hrest.track

/-- What a content makes of streams and tracks. -/
structure ContentUpdated (type : MediaType) (l : List StreamParams)
    (a b : List Text × MediaStreamSignaling) : Prop where
  consistent : Consistent b.2
  track : b.2.track type =
    clean (fun info => getStreamBySsrc l info.ssrc) (fill (a.2.track type) (l.map entry))
  other : ∀ type', type' ≠ type → b.2.track type' = a.2.track type'
  new : ∃ added, b.1 = a.1 ++ added ∧ b.2.labels = a.2.labels ++ added
  labels : ∀ x, x ∈ b.2.labels ↔ x ∈ a.2.labels ∨ ∃ p ∈ l, p.syncLabel = x
  notifications : b.2.notifications = a.2.notifications
  needed : b.2.defaultTrackNeeded type = true → l = []
  neededOther : ∀ type', type' ≠ type → b.2.defaultTrackNeeded type' = a.2.defaultTrackNeeded type'

variable {desc : SessionDescription} {l : List StreamParams}

theorem updateRemoteContent_spec (hmedia : type ≠ .data) (hl : streamsOf desc type = some l)
    (a : List Text × MediaStreamSignaling) (h : Consistent a.2) :
    ContentUpdated type l a (updateRemoteContent type desc a) := by
  obtain ⟨content, hcontent, rfl⟩ := Option.map_eq_some_iff.mp hl
  have hadded := updateRemoteStream_foldl hmedia content.description.streams a h
  rw [updateRemoteContent, hcontent]
  simp only [updateRemoteStreamsList]
  generalize content.description.streams.foldl (updateRemoteStream type) a = b at hadded
  obtain ⟨hconsistent, htrack, hother, hlabels⟩ :=
    removeDisappearedTracks_spec type content.description.streams hadded.consistent
  have honly : StreamsOnly b.2 (b.2.removeDisappearedTracks type content.description.streams) :=
    foldl_grows StreamsOnly.refl StreamsOnly.trans (fun s id => endTrack_only s type id) _ _
  obtain ⟨added, hnew, hnewLabels⟩ := hadded.new
  refine ⟨hconsistent.same rfl rfl, ?_,
    fun type' hne => (hother type' hne).trans (hadded.other type' hne),
    ⟨added, hnew, hlabels.trans hnewLabels⟩, fun x => ?_,
    honly.notifications.trans hadded.only.notifications, fun hneeded => ?_, fun type' hne => ?_⟩
  · exact htrack.trans (by rw [hadded.track])
  · exact (hlabels ▸ hadded.labels x : _)
  · simp only [Function.update_self, decide_eq_true_eq] at hneeded
    exact hneeded.2
  · simp only [Function.update_of_ne hne]
    rw [honly.defaultTrackNeeded, hadded.only.defaultTrackNeeded]

/-! ## Data channels leave streams alone -/

/-- Nothing but data channels changes; the observer is only told of data channels. -/
structure DataOnly (s s' : MediaStreamSignaling) : Prop where
  remoteStreams : s'.remoteStreams = s.remoteStreams
  remoteTracks : s'.remoteTracks = s.remoteTracks
  defaultTrackNeeded : s'.defaultTrackNeeded = s.defaultTrackNeeded
  notifications : ∃ l, s'.notifications = s.notifications ++ l ∧
    ∀ n ∈ l, ∃ id, n = .onAddDataChannel id

theorem DataOnly.refl (s : MediaStreamSignaling) : DataOnly s s :=
  ⟨rfl, rfl, rfl, [], (List.append_nil _).symm, List.forall_mem_nil _⟩

theorem DataOnly.trans (h : DataOnly a b) (h' : DataOnly b c) : DataOnly a c := by
  obtain ⟨l, hl, hall⟩ := h.notifications
  obtain ⟨l', hl', hall'⟩ := h'.notifications
  refine ⟨h'.remoteStreams.trans h.remoteStreams, h'.remoteTracks.trans h.remoteTracks,
    h'.defaultTrackNeeded.trans h.defaultTrackNeeded, l ++ l', ?_, fun n hn => ?_⟩
  · rw [hl', hl, List.append_assoc]
  · exact (List.mem_append.mp hn).elim (hall n) (hall' n)

theorem updateChannel_dataOnly (s : MediaStreamSignaling) (id : Nat)
    (f : DataChannel → DataChannel) : DataOnly s (s.updateChannel id f) :=
  ⟨rfl, rfl, rfl, [], (List.append_nil _).symm, List.forall_mem_nil _⟩

theorem addDataChannel_dataOnly (s : MediaStreamSignaling) (id : Nat) :
    DataOnly s (s.addDataChannel id).2 := by
  rw [addDataChannel]
  split
  · exact .refl s
  · split
    · exact .refl s
    · exact ⟨rfl, rfl, rfl, [], (List.append_nil _).symm, List.forall_mem_nil _⟩

theorem createRemoteDataChannel_dataOnly (s : MediaStreamSignaling) (label : Text) (ssrc : U32) :
    DataOnly s (s.createRemoteDataChannel label ssrc) := by
  rw [createRemoteDataChannel]
  split
  · exact .refl s
  · have hcreated : DataOnly s (s.createDataChannel label) :=
      ⟨rfl, rfl, rfl, [], (List.append_nil _).symm, List.forall_mem_nil _⟩
    have hadded := hcreated.trans (addDataChannel_dataOnly _ s.channels.length)
    refine hadded.trans ⟨rfl, rfl, rfl, [.onAddDataChannel s.channels.length], rfl, fun n hn => ?_⟩
    exact ⟨_, List.mem_singleton.mp hn⟩

theorem asked_dataOnly (s : MediaStreamSignaling) (isLocal : Bool) (key : Text) (id : Nat)
    (c : DataChannel) : DataOnly s (asked isLocal key id c s) := by
  have hasked := updateChannel_dataOnly s id (s.askToClose isLocal)
  by_cases hclosed : (s.askToClose isLocal c).state = .kClosed
  · rw [asked_closed hclosed]
    exact hasked.trans ⟨rfl, rfl, rfl, [], (List.append_nil _).symm, List.forall_mem_nil _⟩
  · rw [asked_open hclosed]
    exact hasked

theorem updateRemoteDataChannels_dataOnly (s : MediaStreamSignaling) (streams : List StreamParams) :
    DataOnly s (s.updateRemoteDataChannels streams) := by
  have hstep : ∀ (s : MediaStreamSignaling) (p : StreamParams),
      DataOnly s (s.updateRemoteDataChannel p) := by
    intro s p
    rw [updateRemoteDataChannel]
    split
    · exact createRemoteDataChannel_dataOnly s _ _
    · exact updateChannel_dataOnly s _ _
  exact closing_rule (fun s' key id c h _ _ _ => h.trans (asked_dataOnly s' false key id c))
    (foldl_grows DataOnly.refl DataOnly.trans hstep streams s)

theorem updateRemoteDataContent_dataOnly (s : MediaStreamSignaling) (desc : SessionDescription) :
    DataOnly s (s.updateRemoteDataContent desc) := by
  rw [updateRemoteDataContent]
  split
  · exact .refl s
  · exact updateRemoteDataChannels_dataOnly s _

/-! ## Streams without tracks -/

theorem removeStreams_spec (ls : List Text) (h : s.labels.Nodup) :
    (ls.foldl removeStream s).remoteStreams = s.remoteStreams.filter (fun st => st.label ∉ ls) ∧
      (ls.foldl removeStream s).remoteTracks = s.remoteTracks ∧
      (ls.foldl removeStream s).defaultTrackNeeded = s.defaultTrackNeeded ∧
      (ls.foldl removeStream s).notifications = s.notifications ++ ls.map .onRemoveStream := by
  induction ls generalizing s with
  | nil => simp
  | cons x ls ih =>
    have hfirst : (s.removeStream x).remoteStreams =
        s.remoteStreams.filter fun st => st.label ≠ x := eraseP_eq_filter h x
    have hnodup : (s.removeStream x).labels.Nodup := by
      rw [labels, hfirst]
      exact h.sublist (List.filter_sublist.map _)
    obtain ⟨hstreams, htracks, hneeded, hnotes⟩ := ih hnodup
    refine ⟨?_, htracks, hneeded, ?_⟩
    · rw [List.foldl_cons, hstreams, hfirst, List.filter_filter]
      refine List.filter_congr fun st _ => ?_
      simp only [List.mem_cons, not_or, Bool.decide_and, Bool.and_comm]
    · rw [List.foldl_cons, hnotes, List.map_cons]
      simp [removeStream, notify]

theorem ended_iff (h : Consistent s) (hst : st ∈ s.remoteStreams) :
    st.ended = false ↔ ∃ type id info, s.track type id = some info ∧ info.stream = st.label := by
  have hlisted := h.listed st hst
  simp only [MediaStream.ended, Bool.and_eq_false_iff, decide_eq_false_iff_not]
  constructor
  · rintro (hne | hne)
    · obtain ⟨id, hid⟩ := List.exists_mem_of_ne_nil _ hne
      exact ⟨.audio, id, (hlisted .audio id).mp hid⟩
    · obtain ⟨id, hid⟩ := List.exists_mem_of_ne_nil _ hne
      exact ⟨.video, id, (hlisted .video id).mp hid⟩
  · rintro ⟨type, id, hinfo⟩
    have hmem := (hlisted type id).mpr hinfo
    cases type with
    | audio => exact .inl (List.ne_nil_of_mem hmem)
    | video => exact .inr (List.ne_nil_of_mem hmem)
    | data =>
      obtain ⟨info, hinfo, -⟩ := hinfo
      rw [h.data] at hinfo
      cases hinfo

/-- The labels of the streams without tracks. -/
def endedLabels (s : MediaStreamSignaling) : List Text :=
  (s.remoteStreams.filter MediaStream.ended).map MediaStream.label

theorem mem_endedLabels (h : Consistent s) (x : Text) : x ∈ s.endedLabels ↔
    x ∈ s.labels ∧ ¬ ∃ type id info, s.track type id = some info ∧ info.stream = x := by
  simp only [endedLabels, labels, List.mem_map, List.mem_filter]
  constructor
  · rintro ⟨st, ⟨hst, hended⟩, rfl⟩
    refine ⟨⟨st, hst, rfl⟩, fun hinfo => ?_⟩
    rw [(ended_iff h hst).mpr hinfo] at hended
    cases hended
  · rintro ⟨⟨st, hst, rfl⟩, hno⟩
    exact ⟨st, ⟨hst, by_contra fun hlive => hno ((ended_iff h hst).mp
      (Bool.eq_false_iff.mpr hlive))⟩, rfl⟩

/-- What is left when streams without tracks have been removed. -/
structure Pruned (s s' : MediaStreamSignaling) : Prop where
  consistent : Consistent s'
  track : s'.track = s.track
  labels : ∀ x, x ∈ s'.labels ↔ x ∈ s.labels ∧ x ∉ s.endedLabels
  defaultTrackNeeded : s'.defaultTrackNeeded = s.defaultTrackNeeded
  notifications : s'.notifications = s.notifications ++ s.endedLabels.map .onRemoveStream

theorem updateEnded_spec (h : Consistent s) : Pruned s s.updateEndedRemoteMediaStreams := by
  have heq : s.updateEndedRemoteMediaStreams = s.endedLabels.foldl removeStream s :=
    (List.foldl_map ..).symm
  obtain ⟨hstreams, htracks, hneeded, hnotes⟩ := removeStreams_spec s.endedLabels h.nodup
  rw [← heq] at hstreams htracks hneeded hnotes
  have htrack : s.updateEndedRemoteMediaStreams.track = s.track := track_same htracks
  have hlabels : ∀ x, x ∈ s.updateEndedRemoteMediaStreams.labels ↔
      x ∈ s.labels ∧ x ∉ s.endedLabels := by
    intro x
    simp only [labels, hstreams, List.mem_map, List.mem_filter, decide_eq_true_eq]
    exact ⟨fun ⟨st, ⟨hst, hno⟩, heq⟩ => ⟨⟨st, hst, heq⟩, heq ▸ hno⟩,
      fun ⟨⟨st, hst, heq⟩, hno⟩ => ⟨st, ⟨hst, heq ▸ hno⟩, heq⟩⟩
  have hsub : ∀ st ∈ s.updateEndedRemoteMediaStreams.remoteStreams, st ∈ s.remoteStreams := by
    intro st hst
    rw [hstreams] at hst
    exact (List.mem_filter.mp hst).1
  refine ⟨⟨?_, fun type id info hinfo => ?_, fun st hst => ?_, fun st hst => ?_, ?_⟩, htrack,
    hlabels, hneeded, hnotes⟩
  · rw [labels, hstreams]
    exact h.nodup.sublist (List.filter_sublist.map _)
  · rw [htrack] at hinfo
    refine (hlabels info.stream).mpr ⟨h.attached type id info hinfo, fun hended => ?_⟩
    exact ((mem_endedLabels h _).mp hended).2 ⟨type, id, info, hinfo, rfl⟩
  · rw [htrack]
    exact h.listed st (hsub st hst)
  · exact h.distinct st (hsub st hst)
  · rw [htrack]
    exact h.data

/-! ## One description -/

/-- The streams of the audio or video of a description. -/
def mediaStreamsOf (desc : Option SessionDescription) : MediaType → List StreamParams
  | .data => []
  | type => (desc.bind fun d => streamsOf d type).getD []

/-- A label occurs in a description. -/
def Occurs (desc : Option SessionDescription) (x : Text) : Prop :=
  ∃ type, ∃ p ∈ mediaStreamsOf desc type, p.syncLabel = x

/-- A description with streams of audio and video that are told apart by their names and SSRCs. -/
structure ValidRemote (desc : SessionDescription) : Prop where
  streams : ∀ type, type ≠ .data → ∃ l, streamsOf desc type = some l ∧ l ≠ []
  labels : ∀ type, ∀ p ∈ mediaStreamsOf (some desc) type, p.syncLabel ≠ []
  names : ∀ type, ((mediaStreamsOf (some desc) type).map StreamParams.name).Nodup
  ssrcs : ((mediaStreamsOf (some desc) .audio ++ mediaStreamsOf (some desc) .video).flatMap
    StreamParams.ssrcs).Nodup

/-- The observer is told something exactly once if there is reason to, and else never. -/
def OnceIff (l : List Notification) (n : Notification) (p : Prop) : Prop :=
  (p → l.count n = 1) ∧ (¬p → l.count n = 0)

variable {n : Notification}

theorem onceIff_of_part (part : List Notification) {l : List Notification}
    {p : Prop} (hcount : l.count n = part.count n) (hnodup : part.Nodup) (hmem : n ∈ part ↔ p) :
    OnceIff l n p := by
  rw [OnceIff, hcount, hnodup.count]
  exact ⟨fun hp => if_pos (hmem.mpr hp), fun hp => if_neg fun h => hp (hmem.mp h)⟩

theorem OnceIff.congr {l : List Notification} {p q : Prop} (h : OnceIff l n p)
    (hiff : p ↔ q) : OnceIff l n q :=
  ⟨fun hq => h.1 (hiff.mpr hq), fun hq => h.2 fun hp => hq (hiff.mp hp)⟩

theorem told_once {told : List Notification} {new removed : List Text}
    (htold : ∀ n ∈ told, ∃ id, n = .onAddDataChannel id) (hnew : new.Nodup)
    (hremoved : removed.Nodup) (x : Text) :
    OnceIff (told ++ new.map .onAddStream ++ removed.map .onRemoveStream) (.onAddStream x)
        (x ∈ new) ∧
      OnceIff (told ++ new.map .onAddStream ++ removed.map .onRemoveStream) (.onRemoveStream x)
        (x ∈ removed) := by
  have hadd : Function.Injective Notification.onAddStream :=
    fun _ _ heq => Notification.onAddStream.inj heq
  have hremove : Function.Injective Notification.onRemoveStream :=
    fun _ _ heq => Notification.onRemoveStream.inj heq
  have hchannels : ∀ n, (∀ id, n ≠ .onAddDataChannel id) → told.count n = 0 := by
    intro n hn
    refine List.count_eq_zero_of_not_mem fun hmem => ?_
    obtain ⟨id, hid⟩ := htold n hmem
    exact hn id hid
  have hno : (removed.map Notification.onRemoveStream).count (.onAddStream x) = 0 :=
    List.count_eq_zero_of_not_mem (by simp)
  have hno' : (new.map Notification.onAddStream).count (.onRemoveStream x) = 0 :=
    List.count_eq_zero_of_not_mem (by simp)
  constructor
  · refine onceIff_of_part (new.map .onAddStream) ?_ (hnew.map hadd)
      (List.mem_map_of_injective hadd)
    rw [List.count_append, List.count_append, hchannels (.onAddStream x) fun _ => nofun, hno,
      Nat.zero_add, Nat.add_zero]
  · refine onceIff_of_part (removed.map .onRemoveStream) ?_ (hremoved.map hremove)
      (List.mem_map_of_injective hremove)
    rw [List.count_append, List.count_append, hchannels (.onRemoveStream x) fun _ => nofun, hno',
      Nat.zero_add]

/-- Everything that a description does to tracks and streams. -/
structure Updated (desc : SessionDescription) (s s' : MediaStreamSignaling) : Prop where
  consistent : Consistent s'
  track : ∀ type, s'.track type =
    clean (fun info => getStreamBySsrc (mediaStreamsOf (some desc) type) info.ssrc)
      (fill (s.track type) ((mediaStreamsOf (some desc) type).map entry))
  labels : ∀ x, x ∈ s'.labels ↔ ∃ type id info, s'.track type id = some info ∧ info.stream = x
  notifications : ∃ l, s'.notifications = s.notifications ++ l ∧ ∀ x,
    OnceIff l (.onAddStream x) (x ∉ s.labels ∧ Occurs (some desc) x) ∧
    OnceIff l (.onRemoveStream x) ((x ∈ s.labels ∨ Occurs (some desc) x) ∧ x ∉ s'.labels)

theorem mediaStreamsOf_eq (hmedia : type ≠ .data) (hl : streamsOf desc type = some l) :
    mediaStreamsOf (some desc) type = l := by
  cases type with
  | data => exact (hmedia rfl).elim
  | audio => simp [mediaStreamsOf, hl]
  | video => simp [mediaStreamsOf, hl]

theorem occurs_iff {x : Text} : Occurs (some desc) x ↔
    (∃ p ∈ mediaStreamsOf (some desc) .audio, p.syncLabel = x) ∨
      ∃ p ∈ mediaStreamsOf (some desc) .video, p.syncLabel = x := by
  constructor
  · rintro ⟨type, p, hp, hlabel⟩
    cases type with
    | audio => exact .inl ⟨p, hp, hlabel⟩
    | video => exact .inr ⟨p, hp, hlabel⟩
    | data => cases hp
  · rintro (⟨p, hp, hlabel⟩ | ⟨p, hp, hlabel⟩)
    · exact ⟨.audio, p, hp, hlabel⟩
    · exact ⟨.video, p, hp, hlabel⟩

theorem maybeCreateDefaultStream_of_not (h : s.isDefaultMediaStreamNeeded = false) :
    s.maybeCreateDefaultStream = s := by
  rw [maybeCreateDefaultStream, h]
  rfl

/-- What the audio and video of a description make of streams and tracks, and the labels of the new
streams. -/
structure MediaUpdated (desc : SessionDescription) (s : MediaStreamSignaling)
    (b : List Text × MediaStreamSignaling) : Prop where
  consistent : Consistent b.2
  track : ∀ type, b.2.track type =
    clean (fun info => getStreamBySsrc (mediaStreamsOf (some desc) type) info.ssrc)
      (fill (s.track type) ((mediaStreamsOf (some desc) type).map entry))
  new : b.2.labels = s.labels ++ b.1
  labels : ∀ x, x ∈ b.2.labels ↔ x ∈ s.labels ∨ Occurs (some desc) x
  notifications : b.2.notifications = s.notifications
  /-- No default stream is needed. -/
  needed : b.2.defaultTrackNeeded .audio = false ∧ b.2.defaultTrackNeeded .video = false

theorem updateMedia_spec (h : Consistent s) (hdesc : ValidRemote desc) : MediaUpdated desc s
      (updateRemoteContent .video desc (updateRemoteContent .audio desc ([], s))) := by
  obtain ⟨la, hla, hane⟩ := hdesc.streams .audio nofun
  obtain ⟨lv, hlv, hvne⟩ := hdesc.streams .video nofun
  have haudio := updateRemoteContent_spec (by decide) hla ([], s) h
  have hvideo := updateRemoteContent_spec (by decide) hlv _ haudio.consistent
  generalize updateRemoteContent .audio desc ([], s) = a at haudio hvideo
  generalize updateRemoteContent .video desc a = b at hvideo
  have hmedia : mediaStreamsOf (some desc) .audio = la ∧ mediaStreamsOf (some desc) .video = lv :=
    ⟨mediaStreamsOf_eq (by decide) hla, mediaStreamsOf_eq (by decide) hlv⟩
  obtain ⟨added, hadded, hlabels⟩ := haudio.new
  obtain ⟨added', hadded', hlabels'⟩ := hvideo.new
  refine ⟨hvideo.consistent, fun type => ?_, ?_, fun x => ?_,
    hvideo.notifications.trans haudio.notifications,
    Bool.eq_false_iff.mpr fun hneeded => hane (haudio.needed ?_),
    Bool.eq_false_iff.mpr fun hneeded => hvne (hvideo.needed hneeded)⟩
  · cases type with
    | audio => rw [hvideo.other .audio nofun, haudio.track, hmedia.1]
    | video => rw [hvideo.track, haudio.other .video nofun, hmedia.2]
    | data =>
      rw [hvideo.consistent.data, h.data]
      rfl
  · rw [hlabels', hlabels, hadded', hadded, List.nil_append, List.append_assoc]
  · rw [hvideo.labels, haudio.labels, occurs_iff, hmedia.1, hmedia.2, or_assoc]
  · rw [← hvideo.neededOther .audio nofun]
    exact hneeded

/-- **One description.** -/
theorem updateRemoteStreams_spec (h : Consistent s)
    (hdesc : ValidRemote desc) : Updated desc s (s.updateRemoteStreams desc) := by
  have hmedia := updateMedia_spec h hdesc
  rw [updateRemoteStreams]
  generalize updateRemoteContent .video desc (updateRemoteContent .audio desc ([], s)) = b at hmedia
  obtain ⟨newStreams, s₂⟩ := b
  have hdata := updateRemoteDataContent_dataOnly s₂ desc
  dsimp only at hmedia ⊢
  generalize s₂.updateRemoteDataContent desc = s₃ at hdata
  have hdefault : ∀ s' : MediaStreamSignaling, s'.defaultTrackNeeded = s₃.defaultTrackNeeded →
      s'.isDefaultMediaStreamNeeded = false := by
    intro s' heq
    rw [isDefaultMediaStreamNeeded, heq, hdata.defaultTrackNeeded, hmedia.needed.1,
      hmedia.needed.2, Bool.or_self, Bool.and_false]
  rw [hdefault (s₃.notify (newStreams.map .onAddStream)) rfl, Bool.false_and,
    if_neg Bool.false_ne_true]
  -- the observer has been told of data channels and new streams
  obtain ⟨told, htold, hchannels⟩ := hdata.notifications
  have hnotes : (s₃.notify (newStreams.map .onAddStream)).notifications =
      s.notifications ++ (told ++ newStreams.map .onAddStream) := by
    rw [notify, htold, hmedia.notifications, List.append_assoc]
  have hneeded : (s₃.notify (newStreams.map .onAddStream)).defaultTrackNeeded =
      s₃.defaultTrackNeeded := rfl
  have hstreams : (s₃.notify (newStreams.map .onAddStream)).remoteStreams = s₂.remoteStreams :=
    hdata.remoteStreams
  have htracks : (s₃.notify (newStreams.map .onAddStream)).remoteTracks = s₂.remoteTracks :=
    hdata.remoteTracks
  generalize s₃.notify (newStreams.map .onAddStream) = s₄ at hnotes hneeded hstreams htracks
  -- streams without tracks are removed
  have hconsistent : Consistent s₄ := hmedia.consistent.same hstreams htracks
  have hended := mem_endedLabels hconsistent
  have hpruned := updateEnded_spec hconsistent
  generalize s₄.updateEndedRemoteMediaStreams = s₅ at hpruned
  rw [maybeCreateDefaultStream_of_not (hdefault
    { s₅ with msidSupported := s₅.msidSupported || !s₅.remoteStreams.isEmpty }
    (hpruned.defaultTrackNeeded.trans hneeded))]
  have hstays : ∀ x, x ∈ s₅.labels ↔ x ∈ s₄.labels ∧ x ∉ s₄.endedLabels := hpruned.labels
  refine ⟨hpruned.consistent.same rfl rfl, fun type => ?_, fun x => ⟨fun hx => ?_, ?_⟩,
    told ++ newStreams.map .onAddStream ++ s₄.endedLabels.map .onRemoveStream, ?_, fun x => ?_⟩
  · exact (congrFun (hpruned.track.trans (track_same htracks)) type).trans (hmedia.track type)
  · obtain ⟨hmem, hlive⟩ := (hstays x).mp hx
    have hsome := not_not.mp fun hno => hlive ((hended x).mpr ⟨hmem, hno⟩)
    rw [← hpruned.track] at hsome
    exact hsome
  · rintro ⟨type, id, info, hinfo, rfl⟩
    exact hpruned.consistent.attached type id info hinfo
  · have hnotes₅ := hpruned.notifications
    rw [hnotes, List.append_assoc] at hnotes₅
    exact hnotes₅
  · have hnodup := List.nodup_append.mp (hmedia.new ▸ hmedia.consistent.nodup)
    have hdistinct : s₄.endedLabels.Nodup :=
      hconsistent.nodup.sublist (List.filter_sublist.map _)
    have hlabels : s₄.labels = s₂.labels := labels_same hstreams
    obtain ⟨hadd, hremove⟩ := told_once hchannels hnodup.2.1 hdistinct x
    refine ⟨hadd.congr ?_, hremove.congr ?_⟩
    · have hx := hmedia.labels x
      rw [hmedia.new, List.mem_append] at hx
      constructor
      · intro hmem
        have hnot : x ∉ s.labels := fun hold => hnodup.2.2 x hold x hmem rfl
        exact ⟨hnot, (hx.mp (.inr hmem)).resolve_left hnot⟩
      · rintro ⟨hnot, hoccur⟩
        exact (hx.mpr (.inr hoccur)).resolve_left hnot
    · rw [← hmedia.labels, ← hlabels]
      constructor
      · intro hmem
        exact ⟨((hended x).mp hmem).1, fun hleft => ((hstays x).mp hleft).2 hmem⟩
      · rintro ⟨hmem, hgone⟩
        exact not_not.mp fun hlive => hgone ((hstays x).mpr ⟨hmem, hlive⟩)

/-! ## Sequences of descriptions -/

/-- Tracks and streams are those of a description, and the observer has been told what has changed
since the one before it. -/
structure Mirrors (previous : Option SessionDescription) (s : MediaStreamSignaling)
    (desc : SessionDescription) (s' : MediaStreamSignaling) : Prop where
  tracks : ∀ type id info, s'.track type id = some info ↔
    ∃ p ∈ mediaStreamsOf (some desc) type, p.name = id ∧ info = ⟨p.syncLabel, p.firstSsrc⟩
  distinct : s'.labels.Nodup
  streams : ∀ x, x ∈ s'.labels ↔ Occurs (some desc) x
  notifications : ∃ l, s'.notifications = s.notifications ++ l ∧ ∀ x,
    OnceIff l (.onAddStream x) (Occurs (some desc) x ∧ ¬Occurs previous x) ∧
    OnceIff l (.onRemoveStream x) (Occurs previous x ∧ ¬Occurs (some desc) x)

/-- A stream has an SSRC; if its name is known, its label and its first SSRC are the same as before;
and the first SSRC of a stream whose name is gone is gone too. -/
structure Follows (previous : Option SessionDescription) (desc : SessionDescription) : Prop where
  kept : ∀ type, ∀ p ∈ mediaStreamsOf (some desc) type,
    getStreamBySsrc (mediaStreamsOf (some desc) type) p.firstSsrc = true ∧
      ∀ q ∈ mediaStreamsOf previous type, q.name = p.name →
        q.syncLabel = p.syncLabel ∧ q.firstSsrc = p.firstSsrc
  gone : ∀ type, ∀ q ∈ mediaStreamsOf previous type,
    (∀ p ∈ mediaStreamsOf (some desc) type, p.name ≠ q.name) →
      getStreamBySsrc (mediaStreamsOf (some desc) type) q.firstSsrc = false

theorem names_entry (l : List StreamParams) :
    (l.map entry).map Prod.fst = l.map StreamParams.name := List.map_map

theorem tableOf_entry_iff (hnodup : (l.map StreamParams.name).Nodup)
    (id : Text) (info : TrackInfo) : tableOf (l.map entry) id = some info ↔
      ∃ p ∈ l, p.name = id ∧ info = ⟨p.syncLabel, p.firstSsrc⟩ := by
  rw [tableOf_eq_some_iff (by rw [names_entry]; exact hnodup), List.mem_map]
  simp only [entry, Prod.mk.injEq, eq_comm (a := info)]

variable {previous : Option SessionDescription}

theorem follows_iff_tables
    (hold : ∀ type, ((mediaStreamsOf previous type).map StreamParams.name).Nodup)
    (hnew : ∀ type, ((mediaStreamsOf (some desc) type).map StreamParams.name).Nodup) :
    Follows previous desc ↔ ∀ type,
      clean (fun info => getStreamBySsrc (mediaStreamsOf (some desc) type) info.ssrc)
          (fill (tableOf ((mediaStreamsOf previous type).map entry))
            ((mediaStreamsOf (some desc) type).map entry)) =
        tableOf ((mediaStreamsOf (some desc) type).map entry) := by
  have heach := fun type => @follows_iff Text TrackInfo _ ((mediaStreamsOf previous type).map entry)
    ((mediaStreamsOf (some desc) type).map entry) (by rw [names_entry]; exact hold type)
    (by rw [names_entry]; exact hnew type)
    (fun info : TrackInfo => getStreamBySsrc (mediaStreamsOf (some desc) type) info.ssrc)
  rw [forall_congr' heach]
  constructor
  · intro h type
    refine ⟨fun e he => ?_, fun e he hgone => ?_⟩
    · obtain ⟨p, hp, rfl⟩ := List.mem_map.mp he
      obtain ⟨hkeep, hsame⟩ := h.kept type p hp
      refine ⟨hkeep, fun info hinfo => ?_⟩
      obtain ⟨q, hq, heq⟩ := List.mem_map.mp hinfo
      obtain ⟨hname, rfl⟩ := Prod.mk.inj heq
      obtain ⟨hlabel, hssrc⟩ := hsame q hq hname
      rw [hlabel, hssrc]
      rfl
    · obtain ⟨q, hq, rfl⟩ := List.mem_map.mp he
      rw [names_entry] at hgone
      exact h.gone type q hq fun p hp hname => hgone (List.mem_map.mpr ⟨p, hp, hname⟩)
  · intro h
    refine ⟨fun type p hp => ?_, fun type q hq hgone => ?_⟩
    · obtain ⟨hkeep, hsame⟩ := (h type).1 (entry p) (List.mem_map_of_mem hp)
      refine ⟨hkeep, fun q hq hname => ?_⟩
      have hinfo := hsame ⟨q.syncLabel, q.firstSsrc⟩ (List.mem_map.mpr ⟨q, hq, Prod.ext hname rfl⟩)
      exact TrackInfo.mk.inj hinfo
    · refine (h type).2 (entry q) (List.mem_map_of_mem hq) ?_
      rw [names_entry]
      rintro hmem
      obtain ⟨p, hp, hname⟩ := List.mem_map.mp hmem
      exact hgone p hp hname

theorem names_none (type : MediaType) :
    ((mediaStreamsOf none type).map StreamParams.name).Nodup := by
  cases type <;> exact List.nodup_nil

/-- The signaling is as a description has left it. -/
structure Left (previous : Option SessionDescription) (s : MediaStreamSignaling) : Prop where
  consistent : Consistent s
  tracks : ∀ type, s.track type = tableOf ((mediaStreamsOf previous type).map entry)
  streams : ∀ x, x ∈ s.labels ↔ Occurs previous x
  names : ∀ type, ((mediaStreamsOf previous type).map StreamParams.name).Nodup

theorem left_new (dataChannelFactory dataSession : Bool) :
    Left none (new dataChannelFactory dataSession) := by
  refine ⟨⟨List.nodup_nil, nofun, nofun, nofun, rfl⟩, fun type => ?_, fun x => ?_, names_none⟩
  · cases type <;> rfl
  · refine ⟨fun hx => absurd hx List.not_mem_nil, ?_⟩
    rintro ⟨type, p, hp, -⟩
    cases type <;> cases hp

/-- **One description of a sequence** is mirrored exactly when it follows the one before it. -/
theorem mirrors_iff (h : Left previous s) (hdesc : ValidRemote desc) :
    (Mirrors previous s desc (s.updateRemoteStreams desc) ↔ Follows previous desc) ∧
      (Mirrors previous s desc (s.updateRemoteStreams desc) →
        Left (some desc) (s.updateRemoteStreams desc)) := by
  have hupdated := updateRemoteStreams_spec h.consistent hdesc
  have hfollows := follows_iff_tables h.names hdesc.names
  have htables : Follows previous desc ↔ ∀ type, (s.updateRemoteStreams desc).track type =
      tableOf ((mediaStreamsOf (some desc) type).map entry) := by
    rw [hfollows]
    refine forall_congr' fun type => ?_
    rw [hupdated.track, h.tracks]
  have htracks : (∀ type, (s.updateRemoteStreams desc).track type =
      tableOf ((mediaStreamsOf (some desc) type).map entry)) ↔
        ∀ type id info, (s.updateRemoteStreams desc).track type id = some info ↔
          ∃ p ∈ mediaStreamsOf (some desc) type, p.name = id ∧
            info = ⟨p.syncLabel, p.firstSsrc⟩ := by
    refine forall_congr' fun type => ⟨fun heq id info => ?_, fun hall => ?_⟩
    · rw [heq]
      exact tableOf_entry_iff (hdesc.names type) id info
    · funext id
      ext info
      rw [hall, tableOf_entry_iff (hdesc.names type)]
  refine ⟨⟨fun hmirrors => ?_, fun hf => ?_⟩, fun hmirrors => ?_⟩
  · exact htables.mpr (htracks.mpr hmirrors.tracks)
  · have hall := htracks.mp (htables.mp hf)
    have hstreams : ∀ x, x ∈ (s.updateRemoteStreams desc).labels ↔ Occurs (some desc) x := by
      intro x
      rw [hupdated.labels]
      constructor
      · rintro ⟨type, id, info, hinfo, rfl⟩
        obtain ⟨p, hp, -, rfl⟩ := (hall type id info).mp hinfo
        exact ⟨type, p, hp, rfl⟩
      · rintro ⟨type, p, hp, rfl⟩
        exact ⟨type, p.name, ⟨p.syncLabel, p.firstSsrc⟩, (hall _ _ _).mpr ⟨p, hp, rfl, rfl⟩, rfl⟩
    refine ⟨hall, hupdated.consistent.nodup, hstreams, ?_⟩
    obtain ⟨l, hl, honce⟩ := hupdated.notifications
    refine ⟨l, hl, fun x => ?_⟩
    obtain ⟨hadd, hremove⟩ := honce x
    rw [h.streams, and_comm] at hadd
    rw [h.streams, hstreams] at hremove
    refine ⟨hadd, ?_⟩
    have hsame : ((Occurs previous x ∨ Occurs (some desc) x) ∧ ¬Occurs (some desc) x) ↔
        Occurs previous x ∧ ¬Occurs (some desc) x := by
      constructor
      · rintro ⟨hold | hnew, hno⟩
        · exact ⟨hold, hno⟩
        · exact (hno hnew).elim
      · exact fun ⟨hold, hno⟩ => ⟨.inl hold, hno⟩
    rwa [hsame] at hremove
  · exact ⟨hupdated.consistent, htracks.mpr hmirrors.tracks, hmirrors.streams, hdesc.names⟩

/-- A description is applied; it is remembered as the last one. -/
def applied (h : Option SessionDescription × MediaStreamSignaling) (desc : SessionDescription) :
    Option SessionDescription × MediaStreamSignaling :=
  (some desc, h.2.updateRemoteStreams desc)

/-- **The sequences of descriptions that tracks and streams mirror** are those in which each follows
the one before it. -/
theorem remote_tracks_mirror_iff (dataChannelFactory dataSession : Bool)
    (descs : List SessionDescription) (hvalid : ∀ desc ∈ descs, ValidRemote desc) :
    Along applied (fun h desc => Mirrors h.1 h.2 desc (applied h desc).2)
        (none, new dataChannelFactory dataSession) descs ↔
      Along (fun _ desc => some desc) Follows none descs := by
  refine along_iff (R := fun h previous => h.1 = previous ∧ Left previous h.2)
    ⟨rfl, left_new dataChannelFactory dataSession⟩ fun h previous desc hmem hleft => ?_
  obtain ⟨rfl, hleft⟩ := hleft
  obtain ⟨hiff, hnext⟩ := mirrors_iff hleft (hvalid desc hmem)
  exact ⟨hiff, fun hmirrors => ⟨rfl, hnext hmirrors⟩⟩

/-! ### Two sequences -/

/-- A description with streams of audio and video. -/
def mediaDescription (audio video : List StreamParams) : SessionDescription :=
  ⟨[⟨"audio".toList, nsJingleRtp, false,
      { MediaContentDescription.new .audio with streams := audio }⟩,
    ⟨"video".toList, nsJingleRtp, false,
      { MediaContentDescription.new .video with streams := video }⟩],
    [], []⟩

theorem streamsOf_mediaDescription (audio video : List StreamParams) :
    streamsOf (mediaDescription audio video) .audio = some audio ∧
      streamsOf (mediaDescription audio video) .video = some video := by
  simp [streamsOf, SessionDescription.getFirstMediaContent, mediaDescription,
    MediaContentDescription.new]

theorem validRemote_mediaDescription {audio video : List StreamParams} (haudio : audio ≠ [])
    (hvideo : video ≠ []) (hlabels : ∀ p ∈ audio ++ video, p.syncLabel ≠ [])
    (hnames : (audio.map StreamParams.name).Nodup ∧ (video.map StreamParams.name).Nodup)
    (hssrcs : ((audio ++ video).flatMap StreamParams.ssrcs).Nodup) :
    ValidRemote (mediaDescription audio video) := by
  obtain ⟨ha, hv⟩ := streamsOf_mediaDescription audio video
  have hma := mediaStreamsOf_eq (by decide) ha
  have hmv := mediaStreamsOf_eq (by decide) hv
  refine ⟨fun type hmedia => ?_, fun type p hp => ?_, fun type => ?_, ?_⟩
  · cases type with
    | audio => exact ⟨audio, ha, haudio⟩
    | video => exact ⟨video, hv, hvideo⟩
    | data => exact (hmedia rfl).elim
  · cases type with
    | audio => exact hlabels p (List.mem_append_left _ (hma ▸ hp))
    | video => exact hlabels p (List.mem_append_right _ (hmv ▸ hp))
    | data => cases hp
  · cases type with
    | audio => exact hma.symm ▸ hnames.1
    | video => exact hmv.symm ▸ hnames.2
    | data => exact List.nodup_nil
  · rw [hma, hmv]
    exact hssrcs

def oneStream (name label : Text) (ssrc : U32) : StreamParams := ⟨[], name, [ssrc], [], [], label⟩

def firstTracks : SessionDescription :=
  mediaDescription [oneStream ['a'] ['s'] 1] [oneStream ['v'] ['s'] 2]

/-- A second track of audio in a stream of its own. -/
def moreTracks : SessionDescription :=
  mediaDescription [oneStream ['a'] ['s'] 1, oneStream ['b'] ['t'] 3] [oneStream ['v'] ['s'] 2]

/-- The track of audio has another SSRC. -/
def otherSsrc : SessionDescription :=
  mediaDescription [oneStream ['a'] ['s'] 3] [oneStream ['v'] ['s'] 2]

theorem firstTracks_valid : ValidRemote firstTracks :=
  validRemote_mediaDescription (by decide) (by decide) (by decide) (by decide) (by decide)

theorem remote_tracks_mirror_iff_more :
    Along applied (fun h desc => Mirrors h.1 h.2 desc (applied h desc).2) (none, new true true)
      [firstTracks, moreTracks] := by
  refine (remote_tracks_mirror_iff true true [firstTracks, moreTracks] ?_).mpr ⟨?_, ?_, trivial⟩
  · have hmore : ValidRemote moreTracks :=
      validRemote_mediaDescription (by decide) (by decide) (by decide) (by decide) (by decide)
    exact List.forall_mem_cons.mpr ⟨firstTracks_valid, List.forall_mem_cons.mpr
      ⟨hmore, List.forall_mem_nil _⟩⟩
  · refine ⟨fun type => ?_, fun type => ?_⟩
    · cases type <;> decide
    · cases type <;> exact List.forall_mem_nil _
  · refine ⟨fun type => ?_, fun type => ?_⟩
    · cases type <;> decide
    · cases type <;> decide

theorem changed_ssrc_loses_track :
    (ValidRemote firstTracks ∧ ValidRemote otherSsrc) ∧
      ¬ Along applied (fun h desc => Mirrors h.1 h.2 desc (applied h desc).2) (none, new true true)
        [firstTracks, otherSsrc] := by
  refine ⟨⟨firstTracks_valid, validRemote_mediaDescription (by decide) (by decide) (by decide)
    (by decide) (by decide)⟩, fun h => ?_⟩
  have hlost : (((new true true).updateRemoteStreams firstTracks).updateRemoteStreams
      otherSsrc).track .audio ['a'] = none := by decide
  have hmirrored := (h.2.1.tracks .audio ['a'] ⟨['s'], 3⟩).mpr
    ⟨oneStream ['a'] ['s'] 3, by decide, rfl, rfl⟩
  have hsome : (((new true true).updateRemoteStreams firstTracks).updateRemoteStreams
      otherSsrc).track .audio ['a'] = some ⟨['s'], 3⟩ := hmirrored
  rw [hlost] at hsome
  cases hsome

end Libjingle.Webrtc.MediaStreamSignaling
