import Mathlib.Data.List.Pairwise
import Libjingle.Lib.History
import Libjingle.Media.BaseChannel
import Libjingle.Media.SessionFactory

/-!
# Streams of the other side (`session/media/channel.cc`, `session/media/ssrcmuxfilter.cc`)

A `BaseChannel` keeps the streams of the other side three times: in its own list, in the filter
that lets packets through by their ssrcs, and in the media channel. An update with an offer or an
answer brings the whole list; it is compared with the list before by the first ssrcs of the
streams.

* `sameStreams_incremental`: an incremental update keeps the lists the same.

## Results

* **`streams_agree_iff`**: the lists agree after every update just if the updates are plain.
-/

namespace Libjingle.Media

open Lib Sdp

/-! ## Streams by their ssrcs -/

def removeStreamBySsrc (streams : List StreamParams) (ssrc : U32) : List StreamParams :=
  streams.filter fun p => ssrc ∉ p.ssrcs

structure SsrcMuxFilter where
  streams : List StreamParams
  deriving DecidableEq

namespace SsrcMuxFilter

def addStream (f : SsrcMuxFilter) (stream : StreamParams) : Bool × SsrcMuxFilter :=
  if getStreamBySsrc f.streams stream.firstSsrc then (false, f)
  else (true, ⟨f.streams ++ [stream]⟩)

def removeStream (f : SsrcMuxFilter) (ssrc : U32) : SsrcMuxFilter :=
  ⟨removeStreamBySsrc f.streams ssrc⟩

def findStream (f : SsrcMuxFilter) (ssrc : U32) : Bool := getStreamBySsrc f.streams ssrc

end SsrcMuxFilter

/-! ## Updates -/

/-- Which streams a media channel accepts, and which removals. -/
structure MediaChannel where
  addRecvStream : List StreamParams → StreamParams → Bool
  removeRecvStream : List StreamParams → U32 → Bool

/-- The media channel accepts everything. -/
structure MediaChannel.Accepts (m : MediaChannel) : Prop where
  add : ∀ streams p, m.addRecvStream streams p = true
  remove : ∀ streams ssrc, m.removeRecvStream streams ssrc = true

/-- What a `BaseChannel` knows of the streams of the other side. -/
structure RecvStreams where
  ssrcFilter : SsrcMuxFilter
  /-- The streams that the media channel has accepted. -/
  receiveStreams : List StreamParams
  remoteStreams : List StreamParams
  deriving DecidableEq

namespace RecvStreams

def new : RecvStreams := ⟨⟨[]⟩, [], []⟩

variable (m : MediaChannel)

/-- `AddRecvStream_w`. -/
def addRecvStream (p : StreamParams) (c : RecvStreams) : Bool × RecvStreams :=
  if !m.addRecvStream c.receiveStreams p then (false, c)
  else
    let (ret, ssrcFilter) := c.ssrcFilter.addStream p
    (ret, { c with receiveStreams := c.receiveStreams ++ [p], ssrcFilter })

/-- `RemoveRecvStream_w`. -/
def removeRecvStream (ssrc : U32) (c : RecvStreams) : Bool × RecvStreams :=
  let c := { c with ssrcFilter := c.ssrcFilter.removeStream ssrc }
  if m.removeRecvStream c.receiveStreams ssrc then
    (true, { c with receiveStreams := removeStreamBySsrc c.receiveStreams ssrc })
  else (false, c)

/-- `UpdateRemoteStreams_w` with `CA_UPDATE`: the streams that have changed. -/
def changeRemoteStreams : List StreamParams → RecvStreams → Bool × RecvStreams
  | [], c => (true, c)
  | p :: streams, c =>
    match getStreamByNickAndName c.remoteStreams p.nick p.name with
    | none =>
      if p.ssrcs = [] then changeRemoteStreams streams c
      else
        match c.addRecvStream m p with
        | (true, c) =>
          changeRemoteStreams streams { c with remoteStreams := c.remoteStreams ++ [p] }
        | (false, c) => (false, c)
    | some existing =>
      if p.ssrcs ≠ [] then changeRemoteStreams streams c
      else
        match c.removeRecvStream m existing.firstSsrc with
        | (true, c) =>
          changeRemoteStreams streams { c with
            remoteStreams := removeStreamBySsrc c.remoteStreams existing.firstSsrc }
        | (false, c) => (false, c)

/-- A stream that is not found in the new list is removed. -/
def removeMissing (streams : List StreamParams) (r : Bool × RecvStreams) (p : StreamParams) :
    Bool × RecvStreams :=
  if getStreamBySsrc streams p.firstSsrc then r
  else
    let (ret, c) := r.2.removeRecvStream m p.firstSsrc
    (r.1 && ret, c)

/-- A stream that is not found in the list before is added. -/
def addMissing (remoteStreams : List StreamParams) (r : Bool × RecvStreams) (p : StreamParams) :
    Bool × RecvStreams :=
  if getStreamBySsrc remoteStreams p.firstSsrc then r
  else
    let (ret, c) := r.2.addRecvStream m p
    (r.1 && ret, c)

/-- `UpdateRemoteStreams_w`. -/
def updateRemoteStreams (streams : List StreamParams) (action : ContentAction) (c : RecvStreams) :
    Bool × RecvStreams :=
  if action = .caUpdate then c.changeRemoteStreams m streams
  else
    let removed := c.remoteStreams.foldl (removeMissing m streams) (true, c)
    let (ret, added) := streams.foldl (addMissing m c.remoteStreams) removed
    (ret, { added with remoteStreams := streams })

end RecvStreams

/-! ## Agreement -/

/-- The filter accepts the ssrcs of the streams, and the media channel has the streams. -/
structure RecvStreams.Agrees (c : RecvStreams) : Prop where
  filter : c.remoteStreams ≠ [] →
    ∀ ssrc, c.ssrcFilter.findStream ssrc = getStreamBySsrc c.remoteStreams ssrc
  media : c.receiveStreams.Perm c.remoteStreams

/-- The three lists have the same streams. -/
structure RecvStreams.SameStreams (c : RecvStreams) : Prop where
  filter : c.ssrcFilter.streams.Perm c.remoteStreams
  media : c.receiveStreams.Perm c.remoteStreams

theorem getStreamBySsrc_perm {streams streams' : List StreamParams} (h : streams.Perm streams')
    (ssrc : U32) : getStreamBySsrc streams ssrc = getStreamBySsrc streams' ssrc := h.any_eq

theorem RecvStreams.SameStreams.agrees {c : RecvStreams} (h : c.SameStreams) : c.Agrees where
  filter _ ssrc := getStreamBySsrc_perm h.filter ssrc
  media := h.media

/-! ## Incremental updates -/

section

variable {m : MediaChannel}

variable {c c' : RecvStreams}

theorem addRecvStream_ok {p : StreamParams} (h : c.addRecvStream m p = (true, c')) : c' = { c with
      ssrcFilter := ⟨c.ssrcFilter.streams ++ [p]⟩, receiveStreams := c.receiveStreams ++ [p] } := by
  unfold RecvStreams.addRecvStream SsrcMuxFilter.addStream at h
  split at h
  · cases h
  · by_cases hfound : getStreamBySsrc c.ssrcFilter.streams p.firstSsrc = true
    · rw [if_pos hfound] at h
      cases h
    · rw [if_neg hfound] at h
      exact (Prod.mk.inj h).2.symm

theorem removeRecvStream_ok {ssrc : U32} (h : c.removeRecvStream m ssrc = (true, c')) :
    c' = { c with
      ssrcFilter := c.ssrcFilter.removeStream ssrc
      receiveStreams := removeStreamBySsrc c.receiveStreams ssrc } := by
  unfold RecvStreams.removeRecvStream at h
  dsimp only at h
  split at h
  · exact (Prod.mk.inj h).2.symm
  · cases h

theorem SameStreams.add (h : c.SameStreams) (p : StreamParams) :
    RecvStreams.SameStreams ⟨⟨c.ssrcFilter.streams ++ [p]⟩, c.receiveStreams ++ [p],
      c.remoteStreams ++ [p]⟩ :=
  ⟨h.filter.append_right [p], h.media.append_right [p]⟩

theorem SameStreams.remove (h : c.SameStreams) (ssrc : U32) :
    RecvStreams.SameStreams ⟨c.ssrcFilter.removeStream ssrc,
      removeStreamBySsrc c.receiveStreams ssrc, removeStreamBySsrc c.remoteStreams ssrc⟩ :=
  ⟨h.filter.filter _, h.media.filter _⟩

/-- **An incremental update that succeeds does to all lists the same.** -/
theorem sameStreams_incremental {streams : List StreamParams}
    (h : c.SameStreams) (hupdate : c.updateRemoteStreams m streams .caUpdate = (true, c')) :
    c'.SameStreams := by
  rw [RecvStreams.updateRemoteStreams, if_pos rfl] at hupdate
  induction streams generalizing c with
  | nil =>
    obtain rfl := (Prod.mk.inj hupdate).2
    exact h
  | cons p streams ih =>
    rw [RecvStreams.changeRemoteStreams] at hupdate
    split at hupdate
    · split at hupdate
      · exact ih h hupdate
      · split at hupdate
        · rename_i hadd
          obtain rfl := addRecvStream_ok hadd
          exact ih (SameStreams.add h p) hupdate
        · cases hupdate
    · split at hupdate
      · exact ih h hupdate
      · split at hupdate
        · rename_i existing _ _ _ _ hremove
          obtain rfl := removeRecvStream_ok hremove
          exact ih (SameStreams.remove h existing.firstSsrc) hupdate
        · cases hupdate

end

/-! ## Separate streams -/

/-- No two of the streams share an ssrc. -/
def DisjointStreams (streams : List StreamParams) : Prop :=
  streams.Pairwise fun p q => p.ssrcs.Disjoint q.ssrcs

/-- No two of the streams share an ssrc, and each has one. -/
structure Separate (streams : List StreamParams) : Prop where
  disjoint : DisjointStreams streams
  nonempty : ∀ p ∈ streams, p.ssrcs ≠ []

theorem firstSsrc_mem {p : StreamParams} (h : p.ssrcs ≠ []) : p.firstSsrc ∈ p.ssrcs := by
  obtain ⟨ssrc, ssrcs, heq⟩ := List.exists_cons_of_ne_nil h
  rw [StreamParams.firstSsrc, heq]
  exact List.mem_cons_self

namespace Separate

variable {streams : List StreamParams} (h : Separate streams) {p q : StreamParams}

include h

theorem eq_of_mem (hp : p ∈ streams) (hq : q ∈ streams) {ssrc : U32} (hpssrc : ssrc ∈ p.ssrcs)
    (hqssrc : ssrc ∈ q.ssrcs) : p = q := by
  by_contra hne
  have : Std.Symm fun p q : StreamParams => p.ssrcs.Disjoint q.ssrcs :=
    ⟨fun _ _ hdisjoint => hdisjoint.symm⟩
  exact h.disjoint.forall hp hq hne hpssrc hqssrc

theorem firstSsrc_mem (hp : p ∈ streams) : p.firstSsrc ∈ p.ssrcs :=
  Media.firstSsrc_mem (h.nonempty p hp)

theorem nodup : streams.Nodup := by
  refine h.disjoint.imp_of_mem fun hp _ hdisjoint heq => ?_
  subst heq
  exact hdisjoint (h.firstSsrc_mem hp) (h.firstSsrc_mem hp)

theorem getStreamBySsrc_self (hp : p ∈ streams) : getStreamBySsrc streams p.firstSsrc = true :=
  List.any_eq_true.mpr ⟨p, hp, decide_eq_true (h.firstSsrc_mem hp)⟩

end Separate

theorem getStreamBySsrc_iff {streams : List StreamParams} {ssrc : U32} :
    getStreamBySsrc streams ssrc = true ↔ ∃ p ∈ streams, ssrc ∈ p.ssrcs := by
  simp [getStreamBySsrc]

/-! ## Full updates -/

/-- The stream is looked up by its first ssrc. -/
def found (streams : List StreamParams) (p : StreamParams) : Bool :=
  getStreamBySsrc streams p.firstSsrc

/-- None of the streams that are not found takes the stream away. -/
def stays (streams removed : List StreamParams) (q : StreamParams) : Bool :=
  removed.all fun p => found streams p || p.firstSsrc ∉ q.ssrcs

/-- What a full update makes of a list of streams. -/
def updated (old streams l : List StreamParams) : List StreamParams :=
  l.filter (found streams) ++ streams.filter fun p => !found old p

section

variable {m : MediaChannel} (hm : m.Accepts)

include hm

theorem foldl_removeMissing (streams removed : List StreamParams) (ok : Bool) (c : RecvStreams) :
    removed.foldl (RecvStreams.removeMissing m streams) (ok, c) =
      (ok, ⟨⟨c.ssrcFilter.streams.filter (stays streams removed)⟩,
        c.receiveStreams.filter (stays streams removed), c.remoteStreams⟩) := by
  induction removed generalizing c with
  | nil =>
    have hall : stays streams [] = fun _ => true := rfl
    rw [hall, List.filter_true, List.filter_true]
    rfl
  | cons p removed ih =>
    rw [List.foldl_cons, RecvStreams.removeMissing]
    cases hfound : getStreamBySsrc streams p.firstSsrc with
    | true =>
      have hstays : stays streams (p :: removed) = stays streams removed := by
        funext q
        rw [stays, List.all_cons, found, hfound]
        rfl
      rw [if_pos rfl, ih, hstays]
    | false =>
      have hstays : stays streams (p :: removed) =
          fun q => stays streams removed q && decide (p.firstSsrc ∉ q.ssrcs) := by
        funext q
        rw [stays, List.all_cons, found, hfound, Bool.false_or, Bool.and_comm]
        rfl
      rw [if_neg Bool.false_ne_true, RecvStreams.removeRecvStream]
      simp only [hm.remove, if_true, Bool.and_true]
      rw [ih, hstays]
      simp only [SsrcMuxFilter.removeStream, removeStreamBySsrc, List.filter_filter]

theorem foldl_addMissing (remoteStreams : List StreamParams) {streams : List StreamParams}
    (hsep : Separate streams) (ok : Bool) {c : RecvStreams}
    (hfree : ∀ p ∈ streams, found remoteStreams p = false → found c.ssrcFilter.streams p = false) :
    streams.foldl (RecvStreams.addMissing m remoteStreams) (ok, c) =
      (ok, ⟨⟨c.ssrcFilter.streams ++ streams.filter fun p => !found remoteStreams p⟩,
        c.receiveStreams ++ streams.filter fun p => !found remoteStreams p, c.remoteStreams⟩) := by
  induction streams generalizing c with
  | nil => simp
  | cons p streams ih =>
    obtain ⟨hdisjoint, hrest⟩ := List.pairwise_cons.mp hsep.disjoint
    have hsep' : Separate streams :=
      ⟨hrest, fun q hq => hsep.nonempty q (List.mem_cons_of_mem p hq)⟩
    rw [List.forall_mem_cons] at hfree
    rw [List.foldl_cons, RecvStreams.addMissing]
    cases hfound : found remoteStreams p with
    | true =>
      rw [found] at hfound
      rw [if_pos hfound, ih hsep' hfree.2, List.filter_cons_of_neg (by simp [found, hfound])]
    | false =>
      have hadd : c.addRecvStream m p = (true, { c with
          ssrcFilter := ⟨c.ssrcFilter.streams ++ [p]⟩
          receiveStreams := c.receiveStreams ++ [p] }) := by
        have hnot := hfree.1 hfound
        rw [found] at hnot
        rw [RecvStreams.addRecvStream, hm.add, SsrcMuxFilter.addStream, hnot]
        rfl
      -- the stream that was added has no ssrc of the others
      have hfree' : ∀ q ∈ streams, found remoteStreams q = false →
          found (c.ssrcFilter.streams ++ [p]) q = false := by
        intro q hq hnot
        have hother : q.firstSsrc ∉ p.ssrcs :=
          fun hmem => hdisjoint q hq hmem (hsep'.firstSsrc_mem hq)
        have hbefore := hfree.2 q hq hnot
        rw [found, getStreamBySsrc] at hbefore ⊢
        rw [List.any_append, hbefore]
        simp [hother]
      have hfilter : List.filter (fun p => !found remoteStreams p) (p :: streams) =
          p :: streams.filter fun p => !found remoteStreams p :=
        List.filter_cons_of_pos (by simp [hfound])
      rw [found] at hfound
      rw [hfound, if_neg Bool.false_ne_true]
      simp only [hadd, Bool.and_true]
      rw [ih hsep' hfree', hfilter]
      simp only [List.append_assoc, List.singleton_append]

omit hm in
theorem stays_eq {old streams : List StreamParams} (hold : Separate old) {q : StreamParams}
    (hq : q ∈ old) : stays streams old q = found streams q := by
  rw [Bool.eq_iff_iff, stays, List.all_eq_true]
  simp only [Bool.or_eq_true, decide_eq_true_eq]
  constructor
  · intro h
    exact (h q hq).resolve_right (not_not.mpr (hold.firstSsrc_mem hq))
  · intro hfound p hp
    by_cases hmem : p.firstSsrc ∈ q.ssrcs
    · rw [hold.eq_of_mem hp hq (hold.firstSsrc_mem hp) hmem]
      exact .inl hfound
    · exact .inr hmem

/-- **A full update does to both lists the same.** -/
theorem updateRemoteStreams_full {c : RecvStreams} (h : c.SameStreams)
    (hold : Separate c.remoteStreams) {streams : List StreamParams} (hnew : Separate streams)
    {action : ContentAction} (haction : action ≠ .caUpdate) :
    c.updateRemoteStreams m streams action =
      (true, ⟨⟨updated c.remoteStreams streams c.ssrcFilter.streams⟩,
        updated c.remoteStreams streams c.receiveStreams, streams⟩) := by
  have hstays : ∀ l : List StreamParams, l.Perm c.remoteStreams →
      l.filter (stays streams c.remoteStreams) = l.filter (found streams) :=
    fun l hl => List.filter_congr fun q hq => stays_eq hold (hl.subset hq)
  have hfree : ∀ p ∈ streams, found c.remoteStreams p = false →
      found (c.ssrcFilter.streams.filter (found streams)) p = false := by
    intro p _ hnot
    rw [Bool.eq_false_iff] at hnot ⊢
    intro hfound
    obtain ⟨q, hq, hssrc⟩ := getStreamBySsrc_iff.mp hfound
    exact hnot (getStreamBySsrc_iff.mpr ⟨q, h.filter.subset (List.mem_of_mem_filter hq), hssrc⟩)
  rw [RecvStreams.updateRemoteStreams, if_neg haction, foldl_removeMissing hm,
    hstays _ h.filter, hstays _ h.media]
  dsimp only
  rw [foldl_addMissing hm _ hnew _ hfree]
  rfl

end

/-! ## Plain updates -/

/-- Each stream has an ssrc, and a stream that one list has under the first ssrc of a stream of the
other is that stream. -/
structure PlainUpdate (old streams : List StreamParams) : Prop where
  ssrcs : ∀ p ∈ streams, p.ssrcs ≠ []
  same : ∀ s ∈ old, ∀ t ∈ streams, s.firstSsrc ∈ t.ssrcs ∨ t.firstSsrc ∈ s.ssrcs → s = t

theorem PlainUpdate.found_iff {old streams : List StreamParams} (h : PlainUpdate old streams)
    (hold : Separate old) (hnew : Separate streams) :
    (∀ s ∈ old, found streams s = decide (s ∈ streams)) ∧
      ∀ t ∈ streams, found old t = decide (t ∈ old) := by
  constructor
  · intro s hs
    rw [Bool.eq_iff_iff, decide_eq_true_eq]
    refine ⟨fun hfound => ?_, fun hmem => hnew.getStreamBySsrc_self hmem⟩
    obtain ⟨t, ht, hssrc⟩ := getStreamBySsrc_iff.mp hfound
    rwa [h.same s hs t ht (.inl hssrc)]
  · intro t ht
    rw [Bool.eq_iff_iff, decide_eq_true_eq]
    refine ⟨fun hfound => ?_, fun hmem => hold.getStreamBySsrc_self hmem⟩
    obtain ⟨s, hs, hssrc⟩ := getStreamBySsrc_iff.mp hfound
    rwa [← h.same s hs t ht (.inr hssrc)]

/-- **A full update makes of a list the new one just if it is plain.** -/
theorem updated_perm_iff {old streams l : List StreamParams} (hl : l.Perm old)
    (hold : Separate old) (hnew : Separate streams) :
    (updated old streams l).Perm streams ↔ PlainUpdate old streams := by
  constructor
  · intro hperm
    refine ⟨hnew.nonempty, fun s hs t ht hssrc => ?_⟩
    rcases hssrc with hssrc | hssrc
    · -- the stream before is found, so it stays
      have hstays : s ∈ l.filter (found streams) :=
        List.mem_filter.mpr ⟨hl.mem_iff.mpr hs, getStreamBySsrc_iff.mpr ⟨t, ht, hssrc⟩⟩
      have hmem := hperm.subset (List.mem_append_left _ hstays)
      exact hnew.eq_of_mem hmem ht (hold.firstSsrc_mem hs) hssrc
    · -- the new stream is found, so it is not added
      have hfound : found old t = true := getStreamBySsrc_iff.mpr ⟨s, hs, hssrc⟩
      have hmem : t ∈ old := by
        rcases List.mem_append.mp (hperm.mem_iff.mpr ht) with hmem | hmem
        · exact hl.subset (List.mem_of_mem_filter hmem)
        · rw [List.mem_filter, hfound] at hmem
          exact absurd hmem.2 Bool.false_ne_true
      exact hold.eq_of_mem hs hmem hssrc (hnew.firstSsrc_mem ht)
  · intro h
    obtain ⟨hfoundOld, hfoundNew⟩ := h.found_iff hold hnew
    have hkept : (l.filter (found streams)).Perm (streams.filter fun t => decide (t ∈ old)) := by
      rw [List.filter_congr fun s hs => hfoundOld s (hl.subset hs)]
      refine (hl.filter _).trans ((List.perm_ext_iff_of_nodup (hold.nodup.filter _)
        (hnew.nodup.filter _)).mpr fun s => ?_)
      simp only [List.mem_filter, decide_eq_true_eq]
      exact and_comm
    have hadded : (streams.filter fun t => !found old t) =
        streams.filter fun t => !decide (t ∈ old) :=
      List.filter_congr fun t ht => by rw [hfoundNew t ht]
    rw [updated, hadded]
    exact (hkept.append_right _).trans (List.filter_append_perm _ _)

/-- **One full update**: the lists agree behind it just if it is plain, and are the same then. -/
theorem updateRemoteStreams_agrees_iff {m : MediaChannel} (hm : m.Accepts) {c : RecvStreams}
    (h : c.SameStreams) (hold : Separate c.remoteStreams) {streams : List StreamParams}
    (hnew : Separate streams) {action : ContentAction} (haction : action ≠ .caUpdate) :
    ∃ c', c.updateRemoteStreams m streams action = (true, c') ∧ c'.remoteStreams = streams ∧
      (c'.Agrees ↔ PlainUpdate c.remoteStreams streams) ∧
      (PlainUpdate c.remoteStreams streams → c'.SameStreams) := by
  have hsame : PlainUpdate c.remoteStreams streams → RecvStreams.SameStreams
      ⟨⟨updated c.remoteStreams streams c.ssrcFilter.streams⟩,
        updated c.remoteStreams streams c.receiveStreams, streams⟩ := fun hplain =>
    ⟨(updated_perm_iff h.filter hold hnew).mpr hplain,
      (updated_perm_iff h.media hold hnew).mpr hplain⟩
  refine ⟨_, updateRemoteStreams_full hm h hold hnew haction, rfl, ?_, hsame⟩
  exact ⟨fun hagrees => (updated_perm_iff h.media hold hnew).mp hagrees.media,
    fun hplain => (hsame hplain).agrees⟩

/-! ## Runs -/

/-- An update of the streams of the other side. -/
structure StreamUpdate where
  action : ContentAction
  streams : List StreamParams
  deriving DecidableEq

/-- One more update; the first part says that all have been successful. -/
def advance (m : MediaChannel) (h : Bool × RecvStreams) (u : StreamUpdate) : Bool × RecvStreams :=
  let (ret, c) := h.2.updateRemoteStreams m u.streams u.action
  (h.1 && ret, c)

/-- The lists agree after every update, as long as the updates are successful. -/
def StreamsAgree (m : MediaChannel) (updates : List StreamUpdate) : Prop :=
  Along (advance m) (fun h u => (advance m h u).1 = true → (advance m h u).2.Agrees)
    (true, .new) updates

/-- Every update is plain, next to the one before. -/
def PlainUpdates (updates : List StreamUpdate) : Prop :=
  Along (fun _ u => u.streams) (fun old u => PlainUpdate old u.streams) [] updates

/-- **The lists agree after every update just if the updates are plain.** -/
theorem streams_agree_iff (m : MediaChannel) (hm : m.Accepts) (updates : List StreamUpdate)
    (hfull : ∀ u ∈ updates, u.action ≠ .caUpdate)
    (hdisjoint : ∀ u ∈ updates, DisjointStreams u.streams) :
    (PlainUpdates updates → StreamsAgree m updates) ∧
      ((∀ u ∈ updates, ∀ p ∈ u.streams, p.ssrcs ≠ []) → StreamsAgree m updates →
        PlainUpdates updates) := by
  have hiff : Along (advance m) (fun h u => ((advance m h u).1 = true → (advance m h u).2.Agrees) ∧
      ∀ p ∈ u.streams, p.ssrcs ≠ []) (true, .new) updates ↔ PlainUpdates updates := by
    refine along_iff (R := fun h old => h.1 = true ∧ h.2.SameStreams ∧ h.2.remoteStreams = old ∧
      Separate old) ⟨rfl, ⟨.nil, .nil⟩, rfl, .nil, List.forall_mem_nil _⟩ ?_
    rintro ⟨ok, c⟩ old u hu ⟨rfl, hsame, rfl, hold⟩
    by_cases hssrcs : ∀ p ∈ u.streams, p.ssrcs ≠ []
    · have hnew : Separate u.streams := ⟨hdisjoint u hu, hssrcs⟩
      obtain ⟨c', hupdate, hremote, hagrees, hkeeps⟩ :=
        updateRemoteStreams_agrees_iff hm hsame hold hnew (hfull u hu)
      have hadvance : advance m (true, c) u = (true, c') := by
        rw [advance, hupdate]
        rfl
      rw [hadvance]
      refine ⟨⟨fun h => hagrees.mp (h.1 rfl), fun h => ⟨fun _ => hagrees.mpr h, hssrcs⟩⟩,
        fun h => ⟨rfl, hkeeps (hagrees.mp (h.1 rfl)), hremote, hnew⟩⟩
    · exact ⟨iff_of_false (fun h => hssrcs h.2) fun h => hssrcs h.ssrcs, fun h => absurd h.2 hssrcs⟩
  rw [along_and_forall] at hiff
  exact ⟨fun h => (hiff.mpr h).1, fun hssrcs h => hiff.mp ⟨h, hssrcs⟩⟩

/-- A media channel that accepts everything. -/
def acceptingChannel : MediaChannel := ⟨fun _ _ => true, fun _ _ => true⟩

def cameraStream (ssrcs : List U32) : StreamParams :=
  ⟨[], "camera".toList, ssrcs, [], "cname".toList, []⟩

/-- A media channel that refuses a stream. -/
def refusingChannel : MediaChannel := ⟨fun _ p => p.firstSsrc ≠ 9, fun _ _ => true⟩

/-- A camera's stream. -/
def cameraOnly : RecvStreams := ⟨⟨[cameraStream [1]]⟩, [cameraStream [1]], [cameraStream [1]]⟩

def microphoneStream (ssrc : U32) : StreamParams :=
  ⟨[], "microphone".toList, [ssrc], [], "cname".toList, []⟩

/-- A refused microphone, and one in the camera's place. -/
theorem sameStreams_microphone :
    cameraOnly.updateRemoteStreams refusingChannel [microphoneStream 9] .caUpdate =
        (false, cameraOnly) ∧
      RecvStreams.SameStreams
        ⟨⟨[microphoneStream 2]⟩, [microphoneStream 2], [microphoneStream 2]⟩ :=
  ⟨by decide, @sameStreams_incremental refusingChannel cameraOnly _
    [cameraStream [], microphoneStream 2] ⟨.refl _, .refl _⟩ (by decide)⟩

/-- An offer, and another with one stream more. -/
def offerSecondStream : List StreamUpdate :=
  [⟨.caOffer, [cameraStream [1, 2]]⟩, ⟨.caOffer, [cameraStream [1, 2], cameraStream [3]]⟩]

theorem streams_agree_secondStream : StreamsAgree acceptingChannel offerSecondStream := by
  refine (streams_agree_iff acceptingChannel ⟨fun _ _ => rfl, fun _ _ => rfl⟩ offerSecondStream
    (by decide) (by simp [offerSecondStream, DisjointStreams, cameraStream])).1 ?_
  exact ⟨⟨by decide, by decide⟩, ⟨by decide, by decide⟩, trivial⟩

/-- An offer, and another in which the stream has got a second ssrc. -/
def offerSecondSsrc : List StreamUpdate :=
  [⟨.caOffer, [cameraStream [1]]⟩, ⟨.caOffer, [cameraStream [1, 2]]⟩]

/-- **The packets of a second ssrc are filtered out.** -/
theorem second_ssrc_filtered :
    offerSecondSsrc.foldl (advance acceptingChannel) (true, .new) =
        (true, ⟨⟨[cameraStream [1]]⟩, [cameraStream [1]], [cameraStream [1, 2]]⟩) ∧
      ¬ StreamsAgree acceptingChannel offerSecondSsrc := by
  refine ⟨by decide, fun h => ?_⟩
  have hagrees := (h.2.1 (by decide)).filter (by decide) 2
  exact absurd hagrees (by decide)

end Libjingle.Media
