import Libjingle.Media.KeyAgreement
import Mathlib.Data.List.Flatten

/-!
# SSRCs and CNAMEs of streams (`AddStreamParams`, `GenerateSsrcs`, `GenerateCname`)

The streams that are known, those of the current description first, are added to from content to
content. A stream that is known by its name is taken over; a new one gets numbers that no known
stream has, and the name of the first stream that it is to be synchronised with.

* `streams_allocated`: the streams of an offer or an answer.
-/

namespace Libjingle.Media

open Lib Sdp

section

variable (known : List StreamParams) (all : List StreamOptions)

/-- The stream of the current description with the name of an option. -/
def currentStream (o : StreamOptions) : Option StreamParams :=
  getStreamByNickAndName known [] o.name

/-- The first stream of the current description that has a label in the options. -/
def firstSynched (label : Text) : Option StreamParams :=
  all.findSome? fun o => if o.syncLabel = label then currentStream known o else none

/-- The new streams made so far, beside the current ones. -/
structure Allocated (types : List MediaType) (added : List StreamParams) : Prop where
  distinct : ((known ++ added).flatMap StreamParams.ssrcs).Nodup
  nonzero : ∀ s ∈ added, 0 ∉ s.ssrcs
  fromOption : ∀ s ∈ added, s.nick = [] ∧ ∃ o ∈ all, o.name = s.name ∧ o.syncLabel = s.syncLabel ∧
    o.type ∈ types ∧ currentStream known o = none
  synched : ∀ s ∈ added, ∀ k, firstSynched known all s.syncLabel = some k → s.cname = k.cname
  alone : ∀ s ∈ added, firstSynched known all s.syncLabel = none →
    s.cname ∉ known.map StreamParams.cname ∧
      ∀ s' ∈ added, s.cname = s'.cname ↔ s.syncLabel = s'.syncLabel

end

variable {known : List StreamParams} {all : List StreamOptions} {types : List MediaType}
  {added : List StreamParams} {r : Runtime} {type : MediaType} {index : Nat}

variable {streams : List StreamParams} {s : StreamParams}

theorem getStream_eq_some {name : Text} (h : getStreamByNickAndName streams [] name = some s) :
    s ∈ streams ∧ s.nick = [] ∧ s.name = name := by
  have hfound := List.find?_some h
  exact ⟨List.mem_of_find?_eq_some h, by simpa using hfound⟩

theorem getStream_append (a b : List StreamParams) (name : Text) :
    getStreamByNickAndName (a ++ b) [] name =
      (getStreamByNickAndName a [] name).or (getStreamByNickAndName b [] name) :=
  List.find?_append

theorem getStream_isSome (hs : s ∈ streams)
    (hnick : s.nick = []) : (getStreamByNickAndName streams [] s.name).isSome = true :=
  List.find?_isSome.mpr ⟨s, hs, decide_eq_true ⟨hnick, rfl⟩⟩

variable {k : StreamParams}

theorem firstSynched_mem {label : Text}
    (h : firstSynched known all label = some k) : k ∈ known := by
  obtain ⟨o, -, ho⟩ := List.exists_of_findSome?_eq_some h
  split at ho
  · exact (getStream_eq_some ho).1
  · cases ho

variable {rtx : Bool}

theorem generateSsrcs_spec {current : List StreamParams}
    (h : generateSsrcs r type index current rtx = some s) :
    s.nick = [] ∧ s.ssrcs.Nodup ∧ 0 ∉ s.ssrcs ∧
      ∀ x ∈ s.ssrcs, x ∉ current.flatMap StreamParams.ssrcs := by
  simp only [generateSsrcs] at h
  split at h
  · cases h
  · rename_i primary hprimary
    obtain ⟨hzero, hnew⟩ := Runtime.ssrc_spec hprimary
    split at h
    · obtain ⟨fid, hfid, rfl⟩ := Option.map_eq_some_iff.mp h
      obtain ⟨hzero', hnew'⟩ := Runtime.ssrc_spec hfid
      rw [List.mem_append, not_or, List.mem_singleton] at hnew'
      refine ⟨rfl, ?_, ?_, ?_⟩
      · simpa [streamWithSsrcs] using Ne.symm hnew'.2
      · intro hx
        rcases List.mem_cons.mp hx with hx | hx
        · exact hzero hx.symm
        · exact hzero' (List.mem_singleton.mp hx).symm
      · intro x hx
        rcases List.mem_cons.mp hx with rfl | hx
        · exact hnew
        · exact List.mem_singleton.mp hx ▸ hnew'.1
    · obtain rfl := Option.some.inj h
      refine ⟨rfl, List.nodup_singleton _, ?_, ?_⟩
      · exact fun hx => hzero (List.mem_singleton.mp hx).symm
      · intro x hx
        exact List.mem_singleton.mp hx ▸ hnew

/-! ## One more stream -/

/-- `GenerateCname` looks for a stream with the label first. -/
theorem generateCname_eq (r : Runtime) (type : MediaType) (index : Nat)
    (current : List StreamParams) (label : Text) :
    generateCname r type index current all label =
      (firstSynched current all label).elim
        (r.cname (.cname type index) (current.map StreamParams.cname))
        fun param => some param.cname := by
  have hfound : (all.findSome? fun s =>
      if s.syncLabel = label then getStreamByNickAndName current [] s.name else none) =
        firstSynched current all label := rfl
  rw [generateCname, hfound]
  cases firstSynched current all label <;> rfl

theorem Allocated.found_none (h : Allocated known all types added) {label : Text}
    (hnone : firstSynched (known ++ added) all label = none) :
    firstSynched known all label = none ∧ ∀ s ∈ added, s.syncLabel ≠ label := by
  have hno : ∀ o ∈ all, o.syncLabel = label → getStreamByNickAndName known [] o.name = none ∧
      getStreamByNickAndName added [] o.name = none := by
    intro o ho hlabel
    have hat := List.findSome?_eq_none_iff.mp hnone o ho
    rw [if_pos hlabel, currentStream, getStream_append, Option.or_eq_none_iff] at hat
    exact hat
  constructor
  · refine List.findSome?_eq_none_iff.mpr fun o ho => ?_
    split
    · rename_i hlabel
      exact (hno o ho hlabel).1
    · rfl
  · intro s hs hlabel
    obtain ⟨hnick, o, ho, hname, hlabel', -⟩ := h.fromOption s hs
    have hsome := getStream_isSome hs hnick
    rw [← hname, (hno o ho (hlabel'.trans hlabel)).2] at hsome
    cases hsome

section

variable (hall : (all.map StreamOptions.name).Nodup) (h : Allocated known all types added)

include hall h

variable {o : StreamOptions}

variable {s : StreamParams}

theorem Allocated.label (ho : o ∈ all) (hs : s ∈ added)
    (hname : s.name = o.name) : s.syncLabel = o.syncLabel ∧ o.type ∈ types ∧
      currentStream known o = none := by
  obtain ⟨-, o', ho', hname', hlabel, htype, hnone⟩ := h.fromOption s hs
  obtain rfl := List.inj_on_of_nodup_map hall ho' ho (hname'.trans hname)
  exact ⟨hlabel.symm, htype, hnone⟩

/-- When `GenerateCname` finds a stream, it is the first current one with the label, or a new one.
-/
theorem Allocated.found_some {label : Text}
    (hs : firstSynched (known ++ added) all label = some s) :
    firstSynched known all label = some s ∨ s ∈ added ∧ s.syncLabel = label := by
  obtain ⟨l₁, o, l₂, heq, ho, hbefore⟩ := List.findSome?_eq_some_iff.mp hs
  split at ho
  · rename_i hlabel
    rw [currentStream, getStream_append] at ho
    cases hknown : getStreamByNickAndName known [] o.name with
    | some k =>
      rw [hknown, Option.some_or] at ho
      refine .inl (List.findSome?_eq_some_iff.mpr ⟨l₁, o, l₂, heq, ?_, fun x hx => ?_⟩)
      · rw [if_pos hlabel, currentStream, hknown, ho]
      · have hnone := hbefore x hx
        split at hnone
        · rename_i hx'
          rw [currentStream, getStream_append, Option.or_eq_none_iff] at hnone
          rw [if_pos hx', currentStream, hnone.1]
        · rename_i hx'
          rw [if_neg hx']
    | none =>
      rw [hknown, Option.none_or] at ho
      obtain ⟨hmem, -, hname⟩ := getStream_eq_some ho
      have hoall : o ∈ all := heq ▸ List.mem_append_right _ List.mem_cons_self
      exact .inr ⟨hmem, (h.label hall hoall hmem hname).1.trans hlabel⟩
  · cases ho

variable {cname : Text}

theorem Allocated.cname_spec
    (hcname : generateCname r type index (known ++ added) all o.syncLabel = some cname) :
    (∀ k, firstSynched known all o.syncLabel = some k → cname = k.cname) ∧
      (firstSynched known all o.syncLabel = none → cname ∉ known.map StreamParams.cname ∧
        ∀ s ∈ added, cname = s.cname ↔ o.syncLabel = s.syncLabel) := by
  rw [generateCname_eq] at hcname
  cases hfound : firstSynched (known ++ added) all o.syncLabel with
  | some s =>
    rw [hfound, Option.elim_some] at hcname
    obtain rfl := Option.some.inj hcname
    rcases h.found_some hall hfound with hfirst | ⟨hs, hlabel⟩
    · refine ⟨fun k hk => ?_, fun hnone => ?_⟩
      · rw [Option.some.inj (hfirst.symm.trans hk)]
      · rw [hfirst] at hnone
        cases hnone
    · rw [← hlabel]
      exact ⟨h.synched s hs, h.alone s hs⟩
  | none =>
    obtain ⟨hfirst, hother⟩ := h.found_none hfound
    rw [hfound, Option.elim_none] at hcname
    have hfresh := Runtime.cname_notMem hcname
    rw [List.map_append, List.mem_append, not_or] at hfresh
    refine ⟨fun k hk => ?_, fun _ => ⟨hfresh.1, fun s hs => ?_⟩⟩
    · rw [hfirst] at hk
      cases hk
    · refine iff_of_false (fun heq => ?_) (fun heq => hother s hs heq.symm)
      exact hfresh.2 (heq ▸ List.mem_map_of_mem hs)

/-- **One more new stream.** -/
theorem addStream_allocated (ho : o ∈ all) (htype : o.type ∈ types)
    (hnew : getStreamByNickAndName (known ++ added) [] o.name = none) {rtx : Bool}
    {stream : StreamParams}
    (hcname : generateCname r type index (known ++ added) all o.syncLabel = some cname)
    (hstream : generateSsrcs r type index (known ++ added) rtx = some stream) :
    Allocated known all types
      (added ++ [{ stream with name := o.name, cname := cname, syncLabel := o.syncLabel }]) := by
  obtain ⟨hnick, hnodup, hzero, hfresh⟩ := generateSsrcs_spec hstream
  rw [getStream_append, Option.or_eq_none_iff] at hnew
  generalize hp : ({ stream with name := o.name, cname := cname, syncLabel := o.syncLabel } :
    StreamParams) = param
  have hssrcs : param.ssrcs = stream.ssrcs := by rw [← hp]
  have hplabel : param.syncLabel = o.syncLabel := by rw [← hp]
  have hpcname : param.cname = cname := by rw [← hp]
  obtain ⟨hsynched, halone⟩ := h.cname_spec hall hcname
  have hmem : ∀ s, s ∈ added ++ [param] ↔ s ∈ added ∨ s = param := fun s => by
    rw [List.mem_append, List.mem_singleton]
  refine ⟨?_, ?_, ?_, ?_, ?_⟩
  · rw [← List.append_assoc, List.flatMap_append, List.flatMap_singleton, hssrcs]
    exact List.nodup_append.mpr ⟨h.distinct, hnodup, fun x hx y hy hxy => hfresh y hy (hxy ▸ hx)⟩
  · intro s hs
    rcases (hmem s).mp hs with hs | rfl
    · exact h.nonzero s hs
    · rw [hssrcs]
      exact hzero
  · intro s hs
    rcases (hmem s).mp hs with hs | rfl
    · exact h.fromOption s hs
    · refine ⟨by rw [← hp]; exact hnick, o, ho, by rw [← hp], hplabel.symm, htype, hnew.1⟩
  · intro s hs k hk
    rcases (hmem s).mp hs with hs | rfl
    · exact h.synched s hs k hk
    · rw [hplabel] at hk
      rw [hpcname]
      exact hsynched k hk
  · intro s hs hnone
    rcases (hmem s).mp hs with hold | rfl
    · obtain ⟨hknown, hadded⟩ := h.alone s hold hnone
      refine ⟨hknown, fun s' hs' => ?_⟩
      rcases (hmem s').mp hs' with hs' | rfl
      · exact hadded s' hs'
      · rw [hpcname, hplabel]
        cases hfirst : firstSynched known all o.syncLabel with
        | none =>
          have hiff := (halone hfirst).2 s hold
          exact ⟨fun heq => (hiff.mp heq.symm).symm, fun heq => (hiff.mpr heq.symm).symm⟩
        | some k =>
          refine iff_of_false (fun heq => ?_) (fun heq => ?_)
          · rw [heq, hsynched k hfirst] at hknown
            exact hknown (List.mem_map_of_mem (firstSynched_mem hfirst))
          · rw [heq, hfirst] at hnone
            cases hnone
    · rw [hplabel] at hnone
      obtain ⟨hknown, hadded⟩ := halone hnone
      rw [hpcname, hplabel]
      refine ⟨hknown, fun s' hs' => ?_⟩
      rcases (hmem s').mp hs' with hs' | rfl
      · exact hadded s' hs'
      · rw [hpcname, hplabel]
        exact iff_of_true rfl rfl

end

/-! ## The loop over the options -/

/-- What becomes of an option: the current stream with its name, or a new one. -/
def Made (known added : List StreamParams) (o : StreamOptions) (s : StreamParams) : Prop :=
  match currentStream known o with
  | some k => s = k
  | none => s ∈ added ∧ s.name = o.name

variable {o : StreamOptions}

variable {more : List StreamParams}

theorem Made.mono (h : Made known added o s) : Made known (added ++ more) o s := by
  rw [Made] at h ⊢
  split at h
  · exact h
  · exact ⟨List.mem_append_left _ h.1, h.2⟩

/-- **The loop over the options.** -/
theorem addStreams_made (hall : (all.map StreamOptions.name).Nodup)
    {rest : List (StreamOptions × Nat)} (hrest : ∀ x ∈ rest, x.1 ∈ all)
    (hnodup : (rest.map fun x => x.1.name).Nodup) (htype : type ∈ types)
    (h : Allocated known all types added)
    (hfresh : ∀ x ∈ rest, x.1.type = type → ∀ s ∈ added, s.name ≠ x.1.name)
    {streams current : List StreamParams}
    (hadd : addStreams r type all rtx rest (known ++ added) = some (streams, current)) :
    ∃ new, current = known ++ (added ++ new) ∧ Allocated known all types (added ++ new) ∧
      List.Forall₂ (Made known (added ++ new))
        ((rest.map Prod.fst).filter fun o => o.type = type) streams := by
  induction rest generalizing added streams with
  | nil =>
    cases hadd
    refine ⟨[], ?_, ?_, .nil⟩
    · rw [List.append_nil]
    · rw [List.append_nil]
      exact h
  | cons x rest ih =>
    obtain ⟨o, i⟩ := x
    have ho : o ∈ all := hrest _ List.mem_cons_self
    have hrest' : ∀ x ∈ rest, x.1 ∈ all := fun x hx => hrest x (List.mem_cons_of_mem _ hx)
    rw [List.map_cons, List.nodup_cons] at hnodup
    rw [addStreams] at hadd
    rw [List.map_cons]
    by_cases hkind : o.type = type
    · rw [if_neg (not_not.mpr hkind)] at hadd
      rw [List.filter_cons_of_pos (by simpa using hkind)]
      have hnone : getStreamByNickAndName added [] o.name = none := by
        refine List.find?_eq_none.mpr fun s hs hcon => ?_
        exact hfresh _ List.mem_cons_self hkind s hs (of_decide_eq_true hcon).2
      rw [getStream_append, hnone, Option.or_none] at hadd
      cases hcur : getStreamByNickAndName known [] o.name with
      | some k =>
        rw [hcur] at hadd
        obtain ⟨⟨streams', current'⟩, hrec, heq⟩ := Option.map_eq_some_iff.mp hadd
        cases heq
        obtain ⟨new, rfl, halloc, hmade⟩ := ih hrest' hnodup.2 h
          (fun x hx => hfresh x (List.mem_cons_of_mem _ hx)) hrec
        refine ⟨new, rfl, halloc, .cons ?_ hmade⟩
        rw [Made, currentStream, hcur]
      | none =>
        rw [hcur] at hadd
        dsimp only at hadd
        split at hadd
        · rename_i cname stream hcname hstream
          obtain ⟨⟨streams', current'⟩, hrec, heq⟩ := Option.map_eq_some_iff.mp hadd
          cases heq
          have hnew : getStreamByNickAndName (known ++ added) [] o.name = none := by
            rw [getStream_append, hcur, hnone]
            rfl
          have hstep := addStream_allocated hall h ho (hkind ▸ htype) hnew hcname hstream
          rw [List.append_assoc] at hrec
          obtain ⟨new, rfl, halloc, hmade⟩ := ih hrest' hnodup.2 hstep (by
            intro x hx hxkind s hs
            rcases List.mem_append.mp hs with hs | hs
            · exact hfresh x (List.mem_cons_of_mem _ hx) hxkind s hs
            · rw [List.mem_singleton.mp hs]
              exact fun heq => hnodup.1 (List.mem_map.mpr ⟨x, hx, heq.symm⟩)) hrec
          rw [List.append_assoc, List.singleton_append] at halloc hmade
          refine ⟨_, by rw [List.append_assoc, List.singleton_append], halloc, .cons ?_ hmade⟩
          rw [Made, currentStream, hcur]
          exact ⟨List.mem_append_right _ List.mem_cons_self, rfl⟩
        · cases hadd
    · rw [if_pos hkind] at hadd
      rw [List.filter_cons_of_neg (by simpa using hkind)]
      exact ih hrest' hnodup.2 h (fun x hx => hfresh x (List.mem_cons_of_mem _ hx)) hadd

/-! ## One content after another -/

/-- What becomes of the streams of one content. -/
def StreamsFor (known : List StreamParams) (all : List StreamOptions) (legacy : Bool)
    (added : List StreamParams) (type : MediaType) (streams : List StreamParams) : Prop :=
  if all = [] ∧ legacy = true then ∃ s, streams = [s] ∧ s.ssrcs.Nodup ∧ 0 ∉ s.ssrcs
  else List.Forall₂ (Made known added) (all.filter fun o => o.type = type) streams

/-- The kinds and streams of the contents of a description. -/
def streamLists (d : SessionDescription) : List (MediaType × List StreamParams) :=
  d.contents.map fun c => (c.description.type, c.description.streams)

/-- What holds of the contents made so far. -/
structure Progress (known : List StreamParams) (all : List StreamOptions) (legacy : Bool)
    (lists : List (MediaType × List StreamParams)) (added : List StreamParams) : Prop where
  allocated : Allocated known all (lists.map Prod.fst) added
  types : (lists.map Prod.fst).Nodup
  streams : ∀ p ∈ lists, StreamsFor known all legacy added p.1 p.2

variable {legacy : Bool} {lists : List (MediaType × List StreamParams)}

theorem Allocated.widen (h : Allocated known all types added) {types' : List MediaType}
    (hsub : ∀ t ∈ types, t ∈ types') : Allocated known all types' added := by
  refine ⟨h.distinct, h.nonzero, fun s hs => ?_, h.synched, h.alone⟩
  obtain ⟨hnick, o, ho, hname, hlabel, htype, hnone⟩ := h.fromOption s hs
  exact ⟨hnick, o, ho, hname, hlabel, hsub _ htype, hnone⟩

theorem StreamsFor.mono (h : StreamsFor known all legacy added type streams) :
    StreamsFor known all legacy (added ++ more) type streams := by
  rw [StreamsFor] at h ⊢
  split at h
  · rename_i hlegacy
    rw [if_pos hlegacy]
    exact h
  · rename_i hlegacy
    rw [if_neg hlegacy]
    exact h.imp fun _ _ hmade => hmade.mono

/-- **The streams of one more content.** -/
theorem Progress.step (hall : (all.map StreamOptions.name).Nodup)
    (h : Progress known all legacy lists added) (hnew : type ∉ lists.map Prod.fst)
    {codecs : List Codec} {streams current : List StreamParams}
    (hadd : addStreamParams r type all (known ++ added) codecs legacy = some (streams, current)) :
    ∃ new, current = known ++ (added ++ new) ∧
      Progress known all legacy (lists ++ [(type, streams)]) (added ++ new) := by
  have htypes : (lists ++ [(type, streams)]).map Prod.fst = lists.map Prod.fst ++ [type] :=
    List.map_append
  have hnodup : (lists.map Prod.fst ++ [type]).Nodup :=
    List.nodup_append.mpr ⟨h.types, List.nodup_singleton _, fun a ha b hb hab =>
      hnew (List.mem_singleton.mp hb ▸ hab ▸ ha)⟩
  have hwide : Allocated known all (lists.map Prod.fst ++ [type]) added :=
    h.allocated.widen fun t ht => List.mem_append_left _ ht
  have hlists : ∀ {new}, StreamsFor known all legacy (added ++ new) type streams →
      ∀ p ∈ lists ++ [(type, streams)], StreamsFor known all legacy (added ++ new) p.1 p.2 := by
    intro new hlast p hp
    rcases List.mem_append.mp hp with hp | hp
    · exact (h.streams p hp).mono
    · rw [List.mem_singleton.mp hp]
      exact hlast
  simp only [addStreamParams] at hadd
  split at hadd
  · rename_i hlegacy
    obtain ⟨s, hs, heq⟩ := Option.map_eq_some_iff.mp hadd
    cases heq
    obtain ⟨-, hssrcs, hzero, -⟩ := generateSsrcs_spec hs
    refine ⟨[], by rw [List.append_nil], ?_, ?_, hlists ?_⟩
    · rw [htypes, List.append_nil]
      exact hwide
    · rw [htypes]
      exact hnodup
    · rw [StreamsFor, if_pos hlegacy]
      exact ⟨s, rfl, hssrcs, hzero⟩
  · rename_i hlegacy
    have hfst : (all.zipIdx).map Prod.fst = all := List.zipIdx_map_fst 0 all
    obtain ⟨new, hcurrent, halloc, hmade⟩ := addStreams_made hall
      (fun x hx => hfst ▸ List.mem_map_of_mem hx)
      (by rw [← hfst, List.map_map] at hall; exact hall)
      (List.mem_append_right _ (List.mem_singleton_self type)) hwide (by
        intro x hx hkind s hs hname
        have hx' : x.1 ∈ all := hfst ▸ List.mem_map_of_mem hx
        have htype := (h.allocated.label hall hx' hs hname).2.1
        exact hnew (hkind ▸ htype)) hadd
    rw [hfst] at hmade
    refine ⟨new, hcurrent, ?_, ?_, hlists ?_⟩
    · rw [htypes]
      exact halloc
    · rw [htypes]
      exact hnodup
    · rw [StreamsFor, if_neg hlegacy]
      exact hmade

/-- One kind of media adds at most one content. -/
def Adds (r : Runtime) (all : List StreamOptions) (legacy : Bool) (type : MediaType)
    (n n' : Negotiation) : Prop :=
  n'.streams = n.streams ∧ streamLists n'.description = streamLists n.description ∨
    ∃ codecs streams, addStreamParams r type all n.streams codecs legacy =
        some (streams, n'.streams) ∧
      streamLists n'.description = streamLists n.description ++ [(type, streams)]

theorem foldlM_progress (hall : (all.map StreamOptions.name).Nodup)
    {step : Negotiation → MediaType → Option Negotiation}
    (hstep : ∀ n n' type, step n type = some n' → Adds r all legacy type n n')
    {order : List MediaType} (horder : order.Nodup) {n n' : Negotiation}
    (h : Progress known all legacy (streamLists n.description) added)
    (hn : n.streams = known ++ added)
    (hnew : ∀ t ∈ order, t ∉ (streamLists n.description).map Prod.fst)
    (hrun : order.foldlM step n = some n') :
    ∃ added', Progress known all legacy (streamLists n'.description) added' := by
  induction order generalizing n added with
  | nil =>
    cases hrun
    exact ⟨added, h⟩
  | cons type order ih =>
    obtain ⟨n₁, h₁, hrun⟩ := Option.bind_eq_some_iff.mp hrun
    obtain ⟨hnotin, horder'⟩ := List.nodup_cons.mp horder
    have hnew' : ∀ t ∈ order, t ∉ (streamLists n.description).map Prod.fst := fun t ht =>
      hnew t (List.mem_cons_of_mem _ ht)
    rcases hstep n n₁ type h₁ with ⟨hstreams, hlists⟩ | ⟨codecs, streams, hadd, hlists⟩
    · exact ih horder' (hlists ▸ h) (hstreams.trans hn) (hlists ▸ hnew') hrun
    · rw [hn] at hadd
      obtain ⟨new, hcurrent, hprogress⟩ := h.step hall (hnew type List.mem_cons_self) hadd
      refine ih horder' (hlists ▸ hprogress) hcurrent (fun t ht hmem => ?_) hrun
      rw [hlists, List.map_append, List.mem_append] at hmem
      rcases hmem with hmem | hmem
      · exact hnew' t ht hmem
      · obtain rfl : t = type := List.mem_singleton.mp hmem
        exact hnotin ht

/-! ## Offers and answers -/

section

variable {f : SessionFactory} {options : MediaSessionOptions} {current : Option SessionDescription}

theorem streamLists_addContent (d : SessionDescription) (c : ContentInfo) :
    streamLists (addContent d c) =
      streamLists d ++ [(c.description.type, c.description.streams)] := List.map_append

variable {d d' : SessionDescription}

theorem streamLists_addTransportInfo {t : TransportInfo}
    (h : d.addTransportInfo t = some d') : streamLists d' = streamLists d := by
  rw [(addTransportInfo_spec h).2]
  rfl

variable {n n' : Negotiation}

theorem offerMedia_adds {type : MediaType} (h : f.offerMedia r options current n type = some n') :
    Adds r options.streams f.addLegacy type n n' := by
  rw [SessionFactory.offerMedia] at h
  split at h
  · obtain rfl := Option.some.inj h
    exact .inl ⟨rfl, rfl⟩
  · split at h
    · cases h
    · rename_i media streams hmade
      obtain ⟨d, hd, rfl⟩ := Option.map_eq_some_iff.mp h
      obtain ⟨t, -, ht⟩ := Option.bind_eq_some_iff.mp hd
      simp only [createMediaContentOffer] at hmade
      split at hmade
      · rename_i added streams₁ cryptos hadded hcryptos
        split at hmade
        · cases hmade
        · cases hmade
          refine .inr ⟨_, added, hadded, ?_⟩
          rw [streamLists_addTransportInfo ht, streamLists_addContent]
          rfl
      · cases hmade

theorem addAnswer_streamLists {type : MediaType} {content : ContentInfo}
    {transport : TransportDescription} {media : MediaContentDescription}
    (h : SessionFactory.addAnswer options type content transport media d = some d') :
    streamLists d' = streamLists d ++ [(media.type, media.streams)] := by
  rw [SessionFactory.addAnswer] at h
  by_cases hrejects : SessionFactory.rejects options type media.protocol = true
  · rw [if_pos hrejects] at h
    obtain rfl := Option.some.inj h
    exact streamLists_addContent _ _
  · rw [if_neg hrejects] at h
    cases hadd : d.addTransportInfo ⟨content.name, transport⟩ with
    | some d₁ =>
      simp only [hadd] at h
      obtain rfl := Option.some.inj h
      rw [streamLists_addContent, streamLists_addTransportInfo hadd]
    | none =>
      simp only [hadd] at h
      split at h
      · rename_i hcontra
        cases hcontra
      · obtain rfl := Option.some.inj h
        exact streamLists_addContent _ _
      · cases h

theorem answerMedia_adds {offer : SessionDescription} {type : MediaType}
    (h : f.answerMedia r offer options current n type = some n') :
    Adds r options.streams f.addLegacy type n n' := by
  rw [SessionFactory.answerMedia] at h
  split at h
  · obtain rfl := Option.some.inj h
    exact .inl ⟨rfl, rfl⟩
  · rename_i content hcontent
    obtain ⟨-, -, hkind⟩ := getFirst_spec hcontent
    split at h
    · cases h
    · split at h
      · cases h
      · rename_i media streams hmade
        obtain ⟨d, hd, rfl⟩ := Option.map_eq_some_iff.mp h
        simp only [createMediaContentAnswer] at hmade
        split at hmade
        · cases hmade
        · obtain ⟨⟨added, streams₁⟩, hadded, heq⟩ := Option.map_eq_some_iff.mp hmade
          cases heq
          rw [hkind] at hadded
          refine .inr ⟨_, added, hadded, ?_⟩
          rw [addAnswer_streamLists hd]
          exact congrArg (fun t => _ ++ [(t, added)]) hkind

theorem bundle_streamLists {g : ContentGroup}
    (h : bundleContents g d = some d') : streamLists d' = streamLists d := by
  obtain ⟨_, _, _, _, _, _, _, _, _, -, hcontents⟩ := bundleContents_spec h
  refine hcontents.map_eq fun cryptos c => ?_
  unfold setCryptos
  split <;> rfl

/-- A description that the factory makes, as an offer or as an answer. -/
def Creates (f : SessionFactory) (r : Runtime) (options : MediaSessionOptions)
    (current : Option SessionDescription) (d : SessionDescription) : Prop :=
  f.createOffer r options current = some d ∨
    ∃ offer, f.createAnswer r offer options current = some d

theorem creates_progress (hall : (options.streams.map StreamOptions.name).Nodup)
    (hknown : ((getCurrentStreamParams current).flatMap StreamParams.ssrcs).Nodup)
    (h : Creates f r options current d) :
    ∃ added, Progress (getCurrentStreamParams current) options.streams f.addLegacy (streamLists d)
      added := by
  have hstart : Progress (getCurrentStreamParams current) options.streams f.addLegacy
      (streamLists (Negotiation.start current).description) [] := by
    refine ⟨⟨?_, ?_, ?_, ?_, ?_⟩, List.nodup_nil, List.forall_mem_nil _⟩
    · rw [List.append_nil]
      exact hknown
    all_goals exact List.forall_mem_nil _
  have hn : (Negotiation.start current).streams = getCurrentStreamParams current ++ [] :=
    (List.append_nil _).symm
  have hnew : ∀ t ∈ mediaOrder,
      t ∉ (streamLists (Negotiation.start current).description).map Prod.fst :=
    fun t _ => List.not_mem_nil
  rcases h with h | ⟨offer, h⟩
  · obtain ⟨pre, hpre, h⟩ := Option.bind_eq_some_iff.mp h
    obtain ⟨n, hrun, rfl⟩ := Option.map_eq_some_iff.mp hpre
    have hlists : streamLists d = streamLists n.description := by
      split at h
      · exact bundle_streamLists h
      · rw [Option.some.inj h]
    rw [hlists]
    exact foldlM_progress hall (fun _ _ _ => offerMedia_adds) (by decide) hstart hn hnew hrun
  · obtain ⟨pre, hpre, -, hmerge⟩ := createAnswer_cases h
    obtain ⟨n, hrun, rfl⟩ := Option.map_eq_some_iff.mp hpre
    have hlists : streamLists d = streamLists n.description := by
      cases hmerge with
      | none _ heq => rw [heq]
      | bundle _ _ _ hmerge => exact bundle_streamLists hmerge
    rw [hlists]
    exact foldlM_progress hall (fun _ _ _ => answerMedia_adds) (by decide) hstart hn hnew hrun

end

/-! ## The streams of a description -/

def streamsOf (d : SessionDescription) : List StreamParams :=
  d.contents.flatMap fun c => c.description.streams

/-- What is promised of the streams of a description that is made with the options `all` while the
streams `known` are current. -/
structure StreamsAllocated (known : List StreamParams) (all : List StreamOptions) (legacy : Bool)
    (d : SessionDescription) : Prop where
  /-- No number occurs twice, but for legacy streams of several contents. -/
  distinct : all ≠ [] ∨ legacy = false ∨ d.contents.length ≤ 1 →
    ((streamsOf d).flatMap StreamParams.ssrcs).Nodup
  /-- Numbers that are not taken over are not zero. -/
  nonzero : ∀ s ∈ streamsOf d, s ∈ known ∨ 0 ∉ s.ssrcs
  /-- A content has the streams of its kind. -/
  listed : all ≠ [] ∨ legacy = false → ∀ c ∈ d.contents,
    c.description.streams.map StreamParams.name =
      (all.filter fun o => o.type = c.description.type).map StreamOptions.name
  /-- A current stream is taken over as it is. -/
  kept : ∀ o ∈ all, ∀ s ∈ streamsOf d, s.name = o.name → ∀ k, currentStream known o = some k → s = k
  /-- A new stream has the name of the first current stream with its label. -/
  synched : ∀ o ∈ all, ∀ s ∈ streamsOf d, s.name = o.name → currentStream known o = none →
    ∀ k, firstSynched known all o.syncLabel = some k → s.cname = k.cname
  /-- When there is none, it shares its name with exactly the streams that have its label. -/
  alone : ∀ o ∈ all, ∀ s ∈ streamsOf d, s.name = o.name → currentStream known o = none →
    firstSynched known all o.syncLabel = none → s.cname ∉ known.map StreamParams.cname ∧
      ∀ o' ∈ all, ∀ s' ∈ streamsOf d, s'.name = o'.name →
        (s.cname = s'.cname ↔ o.syncLabel = o'.syncLabel)

theorem Made.name {o : StreamOptions} {s : StreamParams} (h : Made known added o s) :
    s.name = o.name := by
  rw [Made] at h
  split at h
  · rename_i k hk
    rw [h, (getStream_eq_some hk).2.2]
  · exact h.2

theorem Made.mem (h : Made known added o s) : s ∈ known ++ added := by
  rw [Made] at h
  split at h
  · rename_i k hk
    exact h ▸ List.mem_append_left _ (getStream_eq_some hk).1
  · exact List.mem_append_right _ h.1

theorem Made.names {l : List StreamOptions} (h : List.Forall₂ (Made known added) l streams) :
    streams.map StreamParams.name = l.map StreamOptions.name := by
  induction h with
  | nil => rfl
  | cons hmade _ ih => rw [List.map_cons, List.map_cons, hmade.name, ih]

theorem streamsOf_eq (d : SessionDescription) : streamsOf d = (streamLists d).flatMap Prod.snd := by
  rw [streamLists, List.flatMap_map]
  rfl

variable {d : SessionDescription}

theorem Progress.made
    (h : Progress known all legacy (streamLists d) added)
    (hoptions : ¬ (all = [] ∧ legacy = true)) :
    ∀ p ∈ streamLists d,
      List.Forall₂ (Made known added) (all.filter fun o => o.type = p.1) p.2 := by
  intro p hp
  have hfor := h.streams p hp
  rw [StreamsFor, if_neg hoptions] at hfor
  exact hfor

theorem Progress.names_nodup (hall : (all.map StreamOptions.name).Nodup)
    (h : Progress known all legacy (streamLists d) added)
    (hoptions : ¬ (all = [] ∧ legacy = true)) :
    ((streamsOf d).map StreamParams.name).Nodup := by
  have hmade := h.made hoptions
  have htypes := h.types
  rw [streamsOf_eq]
  generalize streamLists d = lists at hmade htypes
  rw [List.map_flatMap, List.nodup_flatMap]
  rw [List.Nodup, List.pairwise_map] at htypes
  refine ⟨fun p hp => ?_, htypes.imp_of_mem fun {p q} hp hq hne => ?_⟩
  · rw [Made.names (hmade p hp)]
    exact hall.sublist (List.filter_sublist.map _)
  · rw [Function.onFun_apply, Made.names (hmade p hp), Made.names (hmade q hq)]
    intro name hname hname'
    obtain ⟨o, ho, rfl⟩ := List.mem_map.mp hname
    obtain ⟨o', ho', heq⟩ := List.mem_map.mp hname'
    obtain ⟨ho, htype⟩ := List.mem_filter.mp ho
    obtain ⟨ho', htype'⟩ := List.mem_filter.mp ho'
    obtain rfl := List.inj_on_of_nodup_map hall ho' ho heq
    exact hne ((of_decide_eq_true htype).symm.trans (of_decide_eq_true htype'))

theorem Progress.option
    (h : Progress known all legacy (streamLists d) added) (hoptions : ¬ (all = [] ∧ legacy = true))
    (hs : s ∈ streamsOf d) : ∃ o ∈ all, Made known added o s := by
  rw [streamsOf_eq] at hs
  obtain ⟨p, hp, hs⟩ := List.mem_flatMap.mp hs
  obtain ⟨i, hi, hsi⟩ := List.getElem_of_mem hs
  have hmade := h.made hoptions p hp
  have hi' : i < (all.filter fun o => o.type = p.1).length := hmade.length_eq ▸ hi
  exact ⟨_, List.mem_of_mem_filter (List.getElem_mem hi'), hsi ▸ hmade.get hi' hi⟩

theorem Progress.mem
    (h : Progress known all legacy (streamLists d) added) (hoptions : ¬ (all = [] ∧ legacy = true))
    (hs : s ∈ streamsOf d) : s ∈ known ++ added := by
  obtain ⟨o, -, hmade⟩ := h.option hoptions hs
  exact hmade.mem

theorem Progress.made_for (hall : (all.map StreamOptions.name).Nodup)
    (h : Progress known all legacy (streamLists d) added) (hoptions : ¬ (all = [] ∧ legacy = true))
    (ho : o ∈ all) (hs : s ∈ streamsOf d)
    (hname : s.name = o.name) : Made known added o s := by
  obtain ⟨o', ho', hmade⟩ := h.option hoptions hs
  obtain rfl := List.inj_on_of_nodup_map hall ho' ho (hmade.name.symm.trans hname)
  exact hmade

theorem Progress.added_for (hall : (all.map StreamOptions.name).Nodup)
    (h : Progress known all legacy (streamLists d) added) (hoptions : ¬ (all = [] ∧ legacy = true))
    (ho : o ∈ all) (hs : s ∈ streamsOf d)
    (hname : s.name = o.name) (hnone : currentStream known o = none) :
    s ∈ added ∧ s.syncLabel = o.syncLabel := by
  have hmade := h.made_for hall hoptions ho hs hname
  rw [Made, hnone] at hmade
  exact ⟨hmade.1, (h.allocated.label hall ho hmade.1 hname).1⟩

theorem Progress.kept_for (hall : (all.map StreamOptions.name).Nodup)
    (h : Progress known all legacy (streamLists d) added) (hoptions : ¬ (all = [] ∧ legacy = true))
    (ho : o ∈ all) (hs : s ∈ streamsOf d)
    (hname : s.name = o.name) (hk : currentStream known o = some k) : s = k := by
  have hmade := h.made_for hall hoptions ho hs hname
  rw [Made, hk] at hmade
  exact hmade

theorem Progress.legacy_streams
    (h : Progress known all legacy (streamLists d) added) (hoptions : all = [] ∧ legacy = true) :
    StreamsAllocated known all legacy d := by
  have hlegacy : ∀ c ∈ d.contents, ∃ s, c.description.streams = [s] ∧ s.ssrcs.Nodup ∧
      0 ∉ s.ssrcs := by
    intro c hc
    have hfor := h.streams _ (List.mem_map_of_mem hc)
    rw [StreamsFor, if_pos hoptions] at hfor
    exact hfor
  obtain ⟨hall, hlegacies⟩ := hoptions
  refine ⟨fun hfew => ?_, fun s hs => .inr ?_, fun hcon => ?_, ?_, ?_, ?_⟩
  · have hlen : d.contents.length ≤ 1 := by
      rcases hfew with hcon | hcon | hlen
      · exact (hcon hall).elim
      · rw [hlegacies] at hcon
        cases hcon
      · exact hlen
    rw [streamsOf]
    match hcontents : d.contents, hlen with
    | [], _ => exact List.nodup_nil
    | [c], _ =>
      obtain ⟨s, hs, hnodup, -⟩ := hlegacy c (hcontents ▸ List.mem_singleton_self c)
      rw [List.flatMap_singleton, hs, List.flatMap_singleton]
      exact hnodup
  · obtain ⟨c, hc, hs⟩ := List.mem_flatMap.mp hs
    obtain ⟨s', hs', -, hzero⟩ := hlegacy c hc
    rw [hs'] at hs
    exact List.mem_singleton.mp hs ▸ hzero
  · rcases hcon with hcon | hcon
    · exact (hcon hall).elim
    · rw [hlegacies] at hcon
      cases hcon
  all_goals
    rw [hall]
    exact List.forall_mem_nil _

theorem Progress.option_streams (hall : (all.map StreamOptions.name).Nodup)
    (h : Progress known all legacy (streamLists d) added)
    (hoptions : ¬ (all = [] ∧ legacy = true)) : StreamsAllocated known all legacy d := by
  have halloc := h.allocated
  refine ⟨fun _ => ?_, fun s hs => ?_, fun _ c hc => ?_, ?_, ?_, ?_⟩
  · have hnodup := (h.names_nodup hall hoptions).of_map
    obtain ⟨l, hperm, hsub⟩ := List.subperm_of_subset hnodup fun s hs => h.mem hoptions hs
    exact ((hperm.flatMap_right StreamParams.ssrcs).nodup_iff).mp
      (halloc.distinct.sublist (hsub.flatMap _))
  · rcases List.mem_append.mp (h.mem hoptions hs) with hs | hs
    · exact .inl hs
    · exact .inr (halloc.nonzero s hs)
  · exact Made.names (h.made hoptions _ (List.mem_map_of_mem hc))
  · intro o ho s hs hname k hk
    exact h.kept_for hall hoptions ho hs hname hk
  · intro o ho s hs hname hnone k hk
    obtain ⟨hadded, hlabel⟩ := h.added_for hall hoptions ho hs hname hnone
    exact halloc.synched s hadded k (hlabel.symm ▸ hk)
  · intro o ho s hs hname hnone hfirst
    obtain ⟨hadded, hlabel⟩ := h.added_for hall hoptions ho hs hname hnone
    rw [← hlabel] at hfirst ⊢
    obtain ⟨hknown, hshare⟩ := halloc.alone s hadded hfirst
    refine ⟨hknown, fun o' ho' s' hs' hname' => ?_⟩
    cases hcur : currentStream known o' with
    | none =>
      obtain ⟨hadded', hlabel'⟩ := h.added_for hall hoptions ho' hs' hname' hcur
      rw [hshare s' hadded', hlabel']
    | some k =>
      obtain rfl := h.kept_for hall hoptions ho' hs' hname' hcur
      have hk : s' ∈ known := (getStream_eq_some hcur).1
      refine iff_of_false (fun heq => ?_) (fun heq => ?_)
      · exact hknown (heq ▸ List.mem_map_of_mem hk)
      · have hno := List.findSome?_eq_none_iff.mp hfirst o' ho'
        rw [if_pos heq.symm, hcur] at hno
        cases hno

/-- **SSRCs and CNAMEs.** -/
theorem streams_allocated (f : SessionFactory) (r : Runtime) (options : MediaSessionOptions)
    (current : Option SessionDescription)
    (hnames : (options.streams.map StreamOptions.name).Nodup)
    (hcurrent : ((getCurrentStreamParams current).flatMap StreamParams.ssrcs).Nodup)
    (d : SessionDescription) (h : Creates f r options current d) :
    StreamsAllocated (getCurrentStreamParams current) options.streams f.addLegacy d := by
  obtain ⟨added, hprogress⟩ := creates_progress hnames hcurrent h
  by_cases hoptions : options.streams = [] ∧ f.addLegacy = true
  · exact hprogress.legacy_streams hoptions
  · exact hprogress.option_streams hnames hoptions

/-! ## Streams with one label -/

def audioStream (name : Text) (ssrc : U32) (cname label : Text) : StreamParams :=
  ⟨[], name, [ssrc], [], cname, label⟩

/-- A description with two streams that have one label and two names. -/
def twoNamesDescription : SessionDescription :=
  ⟨[⟨"audio".toList, nsJingleRtp, false,
    { MediaContentDescription.new .audio with
      streams := [audioStream "one".toList 0 "a".toList "x".toList,
        audioStream "two".toList 2 "b".toList "x".toList] }⟩], [], []⟩

/-- Options for these streams and a third one. -/
def thirdStreamOptions : MediaSessionOptions :=
  { plainOptions false with
    hasVideo := false
    hasData := false
    streams := [⟨.audio, "one".toList, "x".toList⟩, ⟨.audio, "two".toList, "x".toList⟩,
      ⟨.audio, "three".toList, "x".toList⟩] }

theorem thirdStream_names : (thirdStreamOptions.streams.map StreamOptions.name).Nodup := by
  decide

theorem thirdStream_known :
    ((getCurrentStreamParams (some twoNamesDescription)).flatMap StreamParams.ssrcs).Nodup := by
  decide

theorem streams_allocated_third :
    ∃ d, Creates (plainFactory .disabled) (countingRuntime 0) thirdStreamOptions
        (some twoNamesDescription) d ∧
      StreamsAllocated
        (getCurrentStreamParams (some twoNamesDescription)) thirdStreamOptions.streams
        true d :=
  ⟨_, .inl rfl, streams_allocated (plainFactory .disabled) (countingRuntime 0) thirdStreamOptions
    (some twoNamesDescription) thirdStream_names thirdStream_known _ (.inl rfl)⟩

/-- The third stream has the name of one of the streams with its label and not of the other one; and
a number that is zero is taken over. -/
theorem third_stream_shares_one_name :
    (thirdStreamOptions.streams.map StreamOptions.name).Nodup ∧
      ((getCurrentStreamParams (some twoNamesDescription)).flatMap StreamParams.ssrcs).Nodup ∧
      ∃ d, (plainFactory .disabled).createOffer (countingRuntime 0) thirdStreamOptions
          (some twoNamesDescription) = some d ∧
        (streamsOf d).map (fun s => (s.name, s.ssrcs, s.cname)) =
          [("one".toList, [0], "a".toList), ("two".toList, [2], "b".toList),
            ("three".toList, [1], "a".toList)] :=
  ⟨thirdStream_names, thirdStream_known, _, rfl, by decide⟩

end Libjingle.Media
