import Libjingle.Lib.Growth
import Libjingle.Lib.History
import Libjingle.Webrtc.DataChannels

/-!
# When data channels close

A remote description that lacks the label of a known channel closes it, whether the other side ever
had the channel or not, and even if it has been closed already. A local description never starts to
close one.

* **`data_channels_close_on_request`**: the runs in which all channels close on request.
-/

namespace Libjingle.Webrtc.MediaStreamSignaling

open Lib Sdp

variable {s s' : MediaStreamSignaling}

/-! ## One step -/

/-- A channel before a step; one that came into being in it was just created. -/
def before (s : MediaStreamSignaling) (id : Nat) (label : Text) : DataChannel :=
  s.channels[id]?.getD (.create label)

/-- A step from a state, up to another one. -/
structure Progress (h : ChannelHistory) (requested : Nat → Text → Prop)
    (s₀ s : MediaStreamSignaling) : Prop where
  channels : Channels (fun id c =>
    Orderly h (requested id c.label) id (s₀.before id c.label) c) s
  known : Known s
  length : s₀.channels.length ≤ s.channels.length

variable {h : ChannelHistory} {requested : Nat → Text → Prop} {s₀ : MediaStreamSignaling}

theorem Progress.updateChannel (hp : Progress h requested s₀ s) (id : Nat)
    {f : DataChannel → DataChannel} (hlabel : ∀ c, (f c).label = c.label)
    (hf : ∀ c before, s.channels[id]? = some c → Orderly h (requested id c.label) id before c →
      Orderly h (requested id c.label) id before (f c)) :
    Progress h requested s₀ (s.updateChannel id f) := by
  refine ⟨hp.channels.updateChannel fun c hc ho => ?_, hp.known.updateChannel id hlabel, ?_⟩
  · rw [hlabel]
    exact hf c _ hc ho
  · rw [MediaStreamSignaling.updateChannel, List.length_modify]
    exact hp.length

theorem Progress.erase (hp : Progress h requested s₀ s) (key : Text) :
    Progress h requested s₀ { s with dataChannels := s.dataChannels.erase key } :=
  ⟨hp.channels, hp.known.erase key, hp.length⟩

variable {id : Nat}

theorem orderly_create (hlength : s₀.channels.length ≤ id) {label : Text} {requested : Prop} :
    Orderly h requested id (s₀.before id label) (.create label) := by
  rw [before, List.getElem?_eq_none hlength]
  exact ⟨⟨fun hc => DataState.noConfusion hc, fun _ _ => ⟨rfl, rfl, rfl⟩⟩, .refl _⟩

theorem Progress.createDataChannel (hp : Progress h requested s₀ s) (label : Text) :
    Progress h requested s₀ (s.createDataChannel label) := by
  refine ⟨hp.channels.createDataChannel (orderly_create hp.length),
    hp.known.createDataChannel label, ?_⟩
  rw [MediaStreamSignaling.createDataChannel, List.length_append]
  exact Nat.le_add_right_of_le hp.length

theorem Progress.addDataChannel (hp : Progress h requested s₀ s) (id : Nat) :
    Progress h requested s₀ (s.addDataChannel id).2 := by
  refine ⟨?_, hp.known.addDataChannel id, ?_⟩
  · rw [Channels, channels_addDataChannel]
    exact hp.channels
  · rw [channels_addDataChannel]
    exact hp.length

theorem label_setSendSsrc (c : DataChannel) (dataSession : Bool) (ssrc : U32) :
    (c.setSendSsrc dataSession ssrc).label = c.label :=
  (updateState_cases { c with sendSsrc := ssrc, sendSsrcSet := true } dataSession).1

theorem label_setReceiveSsrc (c : DataChannel) (dataSession : Bool) (ssrc : U32) :
    (c.setReceiveSsrc dataSession ssrc).label = c.label :=
  (updateState_cases { c with receiveSsrc := ssrc, receiveSsrcSet := true } dataSession).1

theorem label_close (c : DataChannel) (dataSession : Bool) :
    (c.close dataSession).label = c.label := by
  rw [DataChannel.close]
  split
  · rfl
  · exact (updateState_cases ({ c with sendSsrc := 0, sendSsrcSet := false }.setState .kClosing)
      dataSession).1

theorem label_onChannelReady (c : DataChannel) (dataSession writable : Bool) :
    (c.onChannelReady dataSession writable).label = c.label := by
  rw [DataChannel.onChannelReady]
  split
  · exact (updateState_cases { c with wasEverWritable := true } dataSession).1
  · rfl

section

variable (hreq : ∀ id ∈ h.closed, ∀ label, requested id label)

include hreq

/-! ### Local descriptions -/

theorem Progress.updateLocalDataChannels (hp : Progress h requested s₀ s)
    (streams : List StreamParams) :
    Progress h requested s₀ (s.updateLocalDataChannels streams) := by
  have hsend : ∀ {s}, Progress h requested s₀ s → ∀ id d ssrc,
      Progress h requested s₀ (s.updateChannel id fun c => c.setSendSsrc d ssrc) :=
    fun hp id d ssrc => hp.updateChannel id (fun c => label_setSendSsrc c d ssrc)
      fun c before _ ho => ho.setSendSsrc (fun hid => hreq id hid c.label) d ssrc
  rw [MediaStreamSignaling.updateLocalDataChannels]
  refine closing_rule (P := Progress h requested s₀) (fun s key id c hp _ _ _ => ?_) ?_
  · by_cases hclosed : (s.askToClose true c).state = .kClosed
    · rw [asked_closed hclosed]
      exact (hsend hp id s.dataSession 0).erase key
    · rw [asked_open hclosed]
      exact hsend hp id s.dataSession 0
  · generalize (streams.filter fun p => (s.dataChannels.get? p.syncLabel).isSome) = known
    induction known generalizing s with
    | nil => exact hp
    | cons p known ih =>
      rw [List.foldl_cons]
      cases s.dataChannels.get? p.syncLabel with
      | none => exact ih hp
      | some id => exact ih (hsend hp id s.dataSession p.firstSsrc)

end

/-! ### Remote descriptions -/

variable {active : List Text}

/-- The known channels whose labels are missing are the old ones. -/
def SameMissing (active : List Text) (s s' : MediaStreamSignaling) : Prop :=
  ∀ label id c, label ∉ active → s'.dataChannels.get? label = some id →
    s'.channels[id]? = some c →
    s.dataChannels.get? label = some id ∧ s.channels[id]? = some c

/-- The known channels whose labels are missing can be closed. -/
def Closable (h : ChannelHistory) (active : List Text) (s : MediaStreamSignaling) : Prop :=
  ∀ label id c, label ∉ active → s.dataChannels.get? label = some id →
    s.channels[id]? = some c → c.state ≠ .kClosed ∧ (id ∈ h.closed ∨ label ∈ h.labels)

variable {s'' : MediaStreamSignaling}

theorem SameMissing.trans (h : SameMissing active s s')
    (h' : SameMissing active s' s'') : SameMissing active s s'' := by
  intro label id c hnot hlabel hc
  obtain ⟨hlabel, hc⟩ := h' label id c hnot hlabel hc
  exact h label id c hnot hlabel hc

theorem SameMissing.closable (hsame : SameMissing active s s') (hclosable : Closable h active s) :
    Closable h active s' := by
  intro label id c hnot hlabel hc
  obtain ⟨hlabel, hc⟩ := hsame label id c hnot hlabel hc
  exact hclosable label id c hnot hlabel hc

theorem sameMissing_updateChannel (hknown : Known s)
    (hactive : ∀ c, s.channels[id]? = some c → c.label ∈ active) (f : DataChannel → DataChannel) :
    SameMissing active s (s.updateChannel id f) := by
  intro label id' c' hnot hlabel hc'
  obtain ⟨c, hc, rfl⟩ := channel_updateChannel hc'
  have hkey : c.label = label := channel_of_known hknown hlabel hc
  have hne : id' ≠ id := fun heq => hnot (hkey ▸ hactive c (heq ▸ hc))
  rw [if_neg hne]
  exact ⟨hlabel, hc⟩

theorem sameMissing_createDataChannel (hknown : Known s) (label : Text) :
    SameMissing active s (s.createDataChannel label) := by
  intro label' id c _ hlabel hc
  obtain ⟨c', hc', -⟩ := hknown label' id hlabel
  rw [MediaStreamSignaling.createDataChannel,
    List.getElem?_append_left (List.getElem?_eq_some_iff.mp hc').1] at hc
  exact ⟨hlabel, hc⟩

theorem sameMissing_addDataChannel (hactive : ∀ c, s.channels[id]? = some c → c.label ∈ active) :
    SameMissing active s (s.addDataChannel id).2 := by
  intro label id' c' hnot hlabel hc'
  rw [channels_addDataChannel] at hc'
  refine ⟨?_, hc'⟩
  rw [addDataChannel] at hlabel
  split at hlabel
  · exact hlabel
  · rename_i c hc
    split at hlabel
    · exact hlabel
    · have hne : label ≠ c.label := fun heq => hnot (heq ▸ hactive c hc)
      rwa [SortedMap.get?_set_of_ne _ hne] at hlabel

theorem Progress.updateRemoteDataChannel (hreq : ∀ id ∈ h.closed, ∀ label, requested id label)
    (hp : Progress h requested s₀ s) (p : StreamParams)
    (hlabel : remoteChannelLabel p ∈ h.labels) (hactive : remoteChannelLabel p ∈ active) :
    Progress h requested s₀ (s.updateRemoteDataChannel p) ∧
      SameMissing active s (s.updateRemoteDataChannel p) := by
  -- a channel with this label gets its SSRC
  have hreceive : ∀ {s} {id : Nat}, Progress h requested s₀ s →
      (∀ c, s.channels[id]? = some c → c.label = remoteChannelLabel p) → ∀ d ssrc,
      Progress h requested s₀ (s.updateChannel id fun c => c.setReceiveSsrc d ssrc) ∧
        SameMissing active s (s.updateChannel id fun c => c.setReceiveSsrc d ssrc) := by
    intro s id hp hmine d ssrc
    refine ⟨hp.updateChannel id (fun c => label_setReceiveSsrc c d ssrc) fun c before hc ho => ?_,
      sameMissing_updateChannel hp.known (fun c hc => (hmine c hc).symm ▸ hactive) _⟩
    exact ho.setReceiveSsrc (fun hid => hreq id hid c.label) ((hmine c hc).symm ▸ hlabel) d ssrc
  rw [MediaStreamSignaling.updateRemoteDataChannel]
  cases hknown : s.dataChannels.get? (remoteChannelLabel p) with
  | some id =>
    exact hreceive hp (fun c hc => channel_of_known hp.known hknown hc) s.dataSession p.firstSsrc
  | none =>
    dsimp only
    rw [createRemoteDataChannel]
    split
    · exact ⟨hp, fun label id c _ hlabel hc => ⟨hlabel, hc⟩⟩
    · have hcreated := hp.createDataChannel (remoteChannelLabel p)
      have hmine : ∀ c, (s.createDataChannel (remoteChannelLabel p)).channels[s.channels.length]? =
          some c → c.label = remoteChannelLabel p := by
        intro c hc
        rw [MediaStreamSignaling.createDataChannel, List.getElem?_concat_length] at hc
        exact congrArg DataChannel.label (Option.some.inj hc).symm
      have hadded : SameMissing active s
          ((s.createDataChannel (remoteChannelLabel p)).addDataChannel s.channels.length).2 :=
        (sameMissing_createDataChannel hp.known _).trans
          (sameMissing_addDataChannel fun c hc => (hmine c hc).symm ▸ hactive)
      rw [← channels_addDataChannel (s := s.createDataChannel _) s.channels.length] at hmine
      obtain ⟨hprogress, hsame⟩ :=
        hreceive (hcreated.addDataChannel s.channels.length) hmine _ p.firstSsrc
      exact ⟨⟨hprogress.channels, hprogress.known, hprogress.length⟩, hadded.trans hsame⟩


theorem Closable.asked (hknown : Known s) (hclosable : Closable h active s) {key : Text}
    (hkey : s.dataChannels.get? key = some id) :
    Closable h active { s.updateChannel id (s.askToClose false) with
      dataChannels := s.dataChannels.erase key } := by
  intro label id' c' hnot hlabel hc'
  rw [SortedMap.get?_erase] at hlabel
  by_cases heq : label = key
  · rw [if_pos heq] at hlabel
    cases hlabel
  · rw [if_neg heq] at hlabel
    obtain ⟨c₀, hc₀, rfl⟩ := channel_updateChannel hc'
    have hne : id' ≠ id := by
      rintro rfl
      exact heq ((channel_of_known hknown hlabel hc₀).symm.trans
        (channel_of_known hknown hkey hc₀))
    rw [if_neg hne]
    exact hclosable label id' c₀ hnot hlabel hc₀

/-- **A remote description** closes the channels that it lacks. -/
theorem Progress.updateRemoteDataChannels {streams : List StreamParams}
    (hreq : ∀ id ∈ h.closed, ∀ label, requested id label)
    (hmissing : ∀ id, ∀ label ∈ h.labels, label ∉ streams.map remoteChannelLabel →
      requested id label)
    (hlabels : ∀ p ∈ streams, remoteChannelLabel p ∈ h.labels) (hp : Progress h requested s₀ s)
    (hclosable : Closable h (streams.map remoteChannelLabel) s) :
    Progress h requested s₀ (s.updateRemoteDataChannels streams) := by
  have hactive : ∀ p ∈ streams, remoteChannelLabel p ∈ streams.map remoteChannelLabel :=
    fun p hmem => List.mem_map_of_mem hmem
  rw [MediaStreamSignaling.updateRemoteDataChannels]
  generalize streams.map remoteChannelLabel = active at hmissing hclosable hactive
  have hnamed :
      Progress h requested s₀ (streams.foldl MediaStreamSignaling.updateRemoteDataChannel s) ∧
        SameMissing active s (streams.foldl MediaStreamSignaling.updateRemoteDataChannel s) := by
    clear hmissing hclosable
    induction streams generalizing s with
    | nil => exact ⟨hp, fun label id c _ hlabel hc => ⟨hlabel, hc⟩⟩
    | cons p streams ih =>
      obtain ⟨hlabel, hlabels⟩ := List.forall_mem_cons.mp hlabels
      obtain ⟨hmine, hactive⟩ := List.forall_mem_cons.mp hactive
      obtain ⟨hprogress, hsame⟩ := hp.updateRemoteDataChannel hreq p hlabel hmine
      obtain ⟨hprogress, hrest⟩ := ih hlabels hprogress hactive
      exact ⟨hprogress, hsame.trans hrest⟩
  obtain ⟨hprogress, hsame⟩ := hnamed
  refine (closing_rule (P := fun s => Progress h requested s₀ s ∧ Closable h active s) ?_
    ⟨hprogress, hsame.closable hclosable⟩).1
  rintro s key id c ⟨hp, hclosable⟩ hkey hc hnot
  have hlabel : c.label = key := channel_of_known hp.known hkey hc
  obtain ⟨hopen, hknown⟩ := hclosable key id c (hlabel ▸ hnot) hkey hc
  rw [asked_closed rfl]
  refine ⟨Progress.erase (hp.updateChannel id (f := s.askToClose false) (fun _ => rfl)
    fun c' before hc' ho => ?_) key, hclosable.asked hp.known hkey⟩
  rw [hc] at hc'
  obtain rfl := Option.some.inj hc'
  rw [← hlabel] at hknown
  refine ho.remotePeerRequestClose hopen ?_ hknown s.dataSession
  exact hknown.elim (fun hid => hreq id hid c.label) fun hmem => hmissing id c.label hmem hnot

/-! ### Streams and tracks -/

/-- The data channels are left alone. -/
structure DataKept (s s' : MediaStreamSignaling) : Prop where
  channels : s'.channels = s.channels
  dataChannels : s'.dataChannels = s.dataChannels

theorem DataKept.refl (s : MediaStreamSignaling) : DataKept s s := ⟨rfl, rfl⟩

theorem DataKept.trans (h : DataKept s s') (h' : DataKept s' s'') : DataKept s s'' :=
  ⟨h'.channels.trans h.channels, h'.dataChannels.trans h.dataChannels⟩

theorem Progress.kept (hp : Progress h requested s₀ s) (hkept : DataKept s s') :
    Progress h requested s₀ s' := by
  obtain ⟨hchannels, hdata⟩ := hkept
  refine ⟨?_, ?_, ?_⟩
  · rw [Channels, hchannels]
    exact hp.channels
  · rw [Known, hchannels, hdata]
    exact hp.known
  · rw [hchannels]
    exact hp.length

theorem DataKept.closable (hkept : DataKept s s') (hclosable : Closable h active s) :
    Closable h active s' := by
  rw [Closable, hkept.channels, hkept.dataChannels]
  exact hclosable

theorem dataKept_addRemoteTrack (type : MediaType) (id label : Text) (ssrc : U32) :
    DataKept s (s.addRemoteTrack type id label ssrc) := by
  rw [addRemoteTrack]
  split
  · exact .refl s
  · exact ⟨rfl, rfl⟩

theorem dataKept_removeDisappearedTracks (type : MediaType) (streams : List StreamParams) :
    DataKept s (s.removeDisappearedTracks type streams) := by
  refine foldl_grows DataKept.refl DataKept.trans (fun s id => ?_) _ s
  rw [endTrack]
  split
  · exact .refl s
  · exact ⟨rfl, rfl⟩

theorem dataKept_updateRemoteStream (type : MediaType) (state : List Text × MediaStreamSignaling)
    (p : StreamParams) : DataKept state.2 (updateRemoteStream type state p).2 := by
  rw [updateRemoteStream]
  by_cases hstream : state.2.hasStream p.syncLabel = true
  · rw [if_pos hstream]
    exact dataKept_addRemoteTrack type p.name p.syncLabel p.firstSsrc
  · rw [if_neg hstream]
    have hadded : DataKept state.2 (state.2.addStream p.syncLabel) := ⟨rfl, rfl⟩
    exact hadded.trans (dataKept_addRemoteTrack type p.name p.syncLabel p.firstSsrc)

theorem dataKept_updateRemoteContent (type : MediaType) (desc : SessionDescription)
    (state : List Text × MediaStreamSignaling) :
    DataKept state.2 (updateRemoteContent type desc state).2 := by
  have hfold : ∀ (streams : List StreamParams) state,
      DataKept state.2 (streams.foldl (updateRemoteStream type) state).2 :=
    foldl_grows (R := fun a b => DataKept a.2 b.2) (fun a => .refl a.2) DataKept.trans
      fun state p => dataKept_updateRemoteStream type state p
  rw [updateRemoteContent]
  split
  · exact .refl state.2
  · rename_i content _
    have hkept := (hfold content.description.streams state).trans
      (dataKept_removeDisappearedTracks type content.description.streams)
    exact ⟨hkept.channels, hkept.dataChannels⟩

theorem dataKept_maybeAddDefaultTrack (type : MediaType) :
    DataKept s (s.maybeAddDefaultTrack type) := by
  rw [maybeAddDefaultTrack]
  split
  · exact dataKept_addRemoteTrack _ _ _ _
  · exact .refl s

theorem dataKept_maybeCreateDefaultStream : DataKept s s.maybeCreateDefaultStream := by
  have htracks : ∀ s : MediaStreamSignaling,
      DataKept s ((s.maybeAddDefaultTrack .audio).maybeAddDefaultTrack .video) := fun s =>
    (dataKept_maybeAddDefaultTrack .audio).trans (dataKept_maybeAddDefaultTrack .video)
  rw [maybeCreateDefaultStream]
  split
  · exact .refl s
  · split
    · exact htracks s
    · have hkept := htracks (s.addStream kDefaultStreamLabel)
      exact ⟨hkept.channels, hkept.dataChannels⟩

theorem dataKept_updateEndedRemoteMediaStreams : DataKept s s.updateEndedRemoteMediaStreams := by
  refine foldl_grows DataKept.refl DataKept.trans (fun s st => ?_) _ s
  exact ⟨rfl, rfl⟩

theorem updateRemoteStreams_kept (s : MediaStreamSignaling) (desc : SessionDescription) :
    ∃ s₁, DataKept s s₁ ∧
      DataKept (s₁.updateRemoteDataContent desc) (s.updateRemoteStreams desc) := by
  have hmedia := (dataKept_updateRemoteContent .audio desc ([], s)).trans
    (dataKept_updateRemoteContent .video desc _)
  refine ⟨_, hmedia, ?_⟩
  rw [updateRemoteStreams]
  generalize updateRemoteContent .video desc (updateRemoteContent .audio desc ([], s)) = state
  obtain ⟨newStreams, s₁⟩ := state
  dsimp only
  have hdone : DataKept (s₁.updateRemoteDataContent desc)
      ((s₁.updateRemoteDataContent desc).notify (newStreams.map .onAddStream)) := ⟨rfl, rfl⟩
  split
  · exact hdone.trans dataKept_maybeCreateDefaultStream
  · have hended := hdone.trans dataKept_updateEndedRemoteMediaStreams
    refine DataKept.trans ?_ dataKept_maybeCreateDefaultStream
    exact ⟨hended.channels, hended.dataChannels⟩

/-! ## Runs -/

inductive ChannelEvent where
  | create (label : Text)
  | addDataChannel (id : Nat)
  | close (id : Nat)
  | onChannelReady (id : Nat) (writable : Bool)
  /-- The session gets or loses its data channel. -/
  | setDataSession (present : Bool)
  | updateLocalStreams (desc : SessionDescription)
  | updateRemoteStreams (desc : SessionDescription)

def step (s : MediaStreamSignaling) : ChannelEvent → MediaStreamSignaling
  | .create label => s.createDataChannel label
  | .addDataChannel id => (s.addDataChannel id).2
  | .close id => s.updateChannel id fun c => c.close s.dataSession
  | .onChannelReady id writable =>
    s.updateChannel id fun c => c.onChannelReady s.dataSession writable
  | .setDataSession present => { s with dataSession := present }
  | .updateLocalStreams desc => s.updateLocalStreams desc
  | .updateRemoteStreams desc => s.updateRemoteStreams desc

/-- The labels of the data channels in a remote description. -/
def remoteLabels (desc : SessionDescription) : List Text :=
  ((streamsOf desc .data).getD []).map remoteChannelLabel

def recorded (h : ChannelHistory) : ChannelEvent → ChannelHistory
  | .close id => { h with closed := h.closed ++ [id] }
  | .updateRemoteStreams desc => { h with labels := h.labels ++ remoteLabels desc }
  | _ => h

/-- `Close` was called, or a remote description lacks the label, which an earlier one had. -/
def Requested (h : ChannelHistory) (e : ChannelEvent) (id : Nat) (label : Text) : Prop :=
  id ∈ (recorded h e).closed ∨
    ∃ desc, e = .updateRemoteStreams desc ∧ label ∈ h.labels ∧ label ∉ remoteLabels desc

/-- An event happens, and is recorded. -/
def happened (h : ChannelHistory × MediaStreamSignaling) (e : ChannelEvent) :
    ChannelHistory × MediaStreamSignaling := (recorded h.1 e, h.2.step e)

/-- Every channel goes on and closes on request only; one that was neither closed nor in a remote
description is connecting. -/
def CloseOnRequest (h : ChannelHistory × MediaStreamSignaling) (e : ChannelEvent) : Prop :=
  ∀ id c, (h.2.step e).channels[id]? = some c →
    Moves (Requested h.1 e id c.label) (h.2.before id c.label) c ∧
      (id ∉ (recorded h.1 e).closed → c.label ∉ (recorded h.1 e).labels → c.state = .kConnecting)

/-- A remote description with data channels lacks no known channel that is closed, or for which
nobody asked to close it and no remote description had its label. -/
def LacksClosable (h : ChannelHistory × MediaStreamSignaling) : ChannelEvent → Prop
  | .updateRemoteStreams desc =>
    (streamsOf desc .data).isSome = true → Closable h.1 (remoteLabels desc) h.2
  | _ => True

theorem closable_iff : Closable h active s ↔ ∀ e ∈ s.dataChannels.entries, e.1 ∉ active →
    ∀ c ∈ s.channels[e.2]?, c.state ≠ .kClosed ∧ (e.2 ∈ h.closed ∨ e.1 ∈ h.labels) := by
  constructor
  · intro hclosable e he hnot c hc
    exact hclosable e.1 e.2 c hnot (SortedMap.mem_entries_iff.mp he) (Option.mem_def.mp hc)
  · intro hentries label id c hnot hlabel hc
    exact hentries (label, id) (SortedMap.mem_entries_iff.mpr hlabel) hnot c (Option.mem_def.mpr hc)

instance : Decidable (Closable h active s) := decidable_of_iff' _ closable_iff

instance (h : ChannelHistory × MediaStreamSignaling) : ∀ e, Decidable (LacksClosable h e)
  | .updateRemoteStreams _ => inferInstanceAs (Decidable (_ → Closable _ _ _))
  | .create _ | .addDataChannel _ | .close _ | .onChannelReady _ _ | .setDataSession _
  | .updateLocalStreams _ => instDecidableTrue

structure Sound (h : ChannelHistory) (s : MediaStreamSignaling) : Prop where
  settled : Channels (Settled h) s
  known : Known s

theorem sound_new (dataChannelFactory dataSession : Bool) :
    Sound ⟨[], []⟩ (new dataChannelFactory dataSession) :=
  ⟨fun _ _ hc => (Option.some_ne_none _ hc.symm).elim,
    fun _ _ hlabel => (Option.some_ne_none _ hlabel.symm).elim⟩

theorem recorded_mono (h : ChannelHistory) (e : ChannelEvent) :
    h.closed ⊆ (recorded h e).closed ∧ h.labels ⊆ (recorded h e).labels := by
  cases e with
  | close id => exact ⟨List.subset_append_left _ _, List.Subset.refl _⟩
  | updateRemoteStreams desc => exact ⟨List.Subset.refl _, List.subset_append_left _ _⟩
  | _ => exact ⟨List.Subset.refl _, List.Subset.refl _⟩

theorem Sound.start (hs : Sound h s) (e : ChannelEvent) :
    Progress (recorded h e) (Requested h e) s s := by
  obtain ⟨hclosed, hlabels⟩ := recorded_mono h e
  refine ⟨fun id c hc => ?_, hs.known, le_refl _⟩
  have hsettled := hs.settled id c hc
  have hbefore : s.before id c.label = c := by rw [before, hc, Option.getD_some]
  dsimp only
  rw [hbefore]
  exact ⟨⟨fun hstate => hclosed (hsettled.closing hstate), fun hid hlabel =>
    hsettled.fresh (fun hmem => hid (hclosed hmem)) fun hmem => hlabel (hlabels hmem)⟩, .refl c⟩

theorem Progress.sound (hp : Progress h requested s₀ s) : Sound h s :=
  ⟨fun id c hc => (hp.channels id c hc).toSettled, hp.known⟩

/-- **One event.** -/
theorem step_progress (hs : Sound h s) {e : ChannelEvent} (hlacks : LacksClosable (h, s) e) :
    Progress (recorded h e) (Requested h e) s (s.step e) := by
  have hreq : ∀ id ∈ (recorded h e).closed, ∀ label, Requested h e id label :=
    fun id hid label => .inl hid
  have hstart := hs.start e
  cases e with
  | create label => exact hstart.createDataChannel label
  | addDataChannel id => exact hstart.addDataChannel id
  | setDataSession present => exact ⟨hstart.channels, hstart.known, hstart.length⟩
  | close id =>
    have hclosed : id ∈ (recorded h (.close id)).closed :=
      List.mem_append_right _ List.mem_cons_self
    exact hstart.updateChannel id (fun c => label_close c s.dataSession) fun c before _ ho =>
      ho.close (fun hid => hreq id hid c.label) hclosed s.dataSession
  | onChannelReady id writable =>
    exact hstart.updateChannel id (fun c => label_onChannelReady c s.dataSession writable)
      fun c before _ ho => ho.onChannelReady (fun hid => hreq id hid c.label) s.dataSession writable
  | updateLocalStreams desc =>
    rw [step, updateLocalStreams]
    split
    · exact hstart
    · exact hstart.updateLocalDataChannels hreq _
  | updateRemoteStreams desc =>
    obtain ⟨s₁, hmedia, hdone⟩ := updateRemoteStreams_kept s desc
    refine Progress.kept ?_ hdone
    have hp := hstart.kept hmedia
    rw [updateRemoteDataContent]
    cases hstreams : streamsOf desc .data with
    | none => exact hp
    | some streams =>
      have hactive : remoteLabels desc = streams.map remoteChannelLabel := by
        rw [remoteLabels, hstreams, Option.getD_some]
      have hclosable := hmedia.closable (hlacks (Option.isSome_iff_exists.mpr ⟨streams, hstreams⟩))
      rw [hactive] at hclosable
      refine hp.updateRemoteDataChannels hreq (fun id label hmem hnot => ?_) (fun p hp => ?_)
        fun label id c hnot hlabel hc => ?_
      · rcases List.mem_append.mp hmem with hmem | hmem
        · exact .inr ⟨desc, rfl, hmem, hactive ▸ hnot⟩
        · exact (hnot (hactive ▸ hmem)).elim
      · exact List.mem_append_right _ (hactive ▸ List.mem_map_of_mem hp)
      · obtain ⟨hopen, hknown⟩ := hclosable label id c hnot hlabel hc
        exact ⟨hopen, hknown.imp_right fun hmem => List.mem_append_left _ hmem⟩

/-- **Data channels close on request**, in every run whose remote descriptions lack no known channel
that is closed already or that the other side has not been told of. -/
theorem data_channels_close_on_request (dataChannelFactory dataSession : Bool)
    (events : List ChannelEvent)
    (hlacks : Along happened LacksClosable (⟨[], []⟩, new dataChannelFactory dataSession) events) :
    Along happened CloseOnRequest (⟨[], []⟩, new dataChannelFactory dataSession) events := by
  refine along_of_invariant (I := fun h => Sound h.1 h.2) (sound_new dataChannelFactory dataSession)
    (fun h e _ hs hlacks => ?_) hlacks
  have hp := step_progress hs hlacks
  refine ⟨fun id c hc => ⟨(hp.channels id c hc).moves, fun hid hlabel => ?_⟩, hp.sound⟩
  exact ((hp.channels id c hc).fresh hid hlabel).connecting

/-! ### Three runs -/

/-- A description of the data channels with some labels. -/
def dataDescription (labels : List Text) : SessionDescription :=
  ⟨[⟨"data".toList, nsJingleRtp, false, { MediaContentDescription.new .data with
    streams := labels.map fun label => ⟨[], label, [1], [], [], label⟩ }⟩], [], []⟩

/-- A channel is offered, answered, and closed by the other side. -/
def closedRemotely : List ChannelEvent :=
  [.create ['c'], .addDataChannel 0, .updateLocalStreams (dataDescription [['c']]),
    .updateRemoteStreams (dataDescription [['c']]), .updateRemoteStreams (dataDescription [])]

theorem data_channels_close_on_request_remotely :
    Along happened CloseOnRequest (⟨[], []⟩, new true true) closedRemotely :=
  data_channels_close_on_request true true closedRemotely (by decide)

/-- A channel is added when an offer without it has been sent already. -/
def addedInFlight : List ChannelEvent :=
  [.updateLocalStreams (dataDescription []), .create ['c'], .addDataChannel 0,
    .updateRemoteStreams (dataDescription [])]

/-- A channel is closed locally before the other side knew it. -/
def closedBefore : List ChannelEvent :=
  [.create ['c'], .addDataChannel 0, .close 0, .updateRemoteStreams (dataDescription [])]

/-- A channel that was closed once, or twice. -/
def closedChannel (changes : List DataState) : DataChannel :=
  { DataChannel.create ['c'] with state := .kClosed, changes := changes }

theorem added_channel_closed :
    ¬ Along happened CloseOnRequest (⟨[], []⟩, new true true) addedInFlight ∧
      ¬ Along happened CloseOnRequest (⟨[], []⟩, new true true) closedBefore := by
  refine ⟨fun hrun => ?_, fun hrun => ?_⟩
  · have hclosed : Moves (Requested ⟨[], []⟩ (.updateRemoteStreams (dataDescription [])) 0 ['c'])
        (.create ['c']) (closedChannel [.kClosing, .kClosed]) := (hrun.2.2.2.1 0 _ rfl).1
    obtain ⟨entered, -, hgoes⟩ := hclosed.goes
    rcases hgoes.requested (by decide) (by decide) with hmem | ⟨desc, -, hmem, -⟩
    · cases hmem
    · cases hmem
  · have hback : Moves (Requested ⟨[0], []⟩ (.updateRemoteStreams (dataDescription [])) 0 ['c'])
        (closedChannel [.kClosing, .kClosed])
        (closedChannel [.kClosing, .kClosed, .kClosing, .kClosed]) := (hrun.2.2.2.1 0 _ rfl).1
    obtain ⟨entered, hchanges, hgoes⟩ := hback.goes
    have hsplit :
        [.kClosing, .kClosed] ++ [.kClosing, .kClosed] = [.kClosing, .kClosed] ++ entered :=
      hchanges
    obtain rfl := List.append_cancel_left hsplit
    exact absurd (hgoes.le .kClosing List.mem_cons_self) (by decide)

end Libjingle.Webrtc.MediaStreamSignaling
