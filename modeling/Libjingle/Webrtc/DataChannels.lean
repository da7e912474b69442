import Libjingle.Webrtc.MediaStreamSignaling

/-!
# Closing data channels (`DataChannel`, `UpdateClosingDataChannels`)

What one call makes of the state of a channel, and what a loop that asks channels to close makes
of all of them.

* **`closing_rule`**: the invariant rule of the loop.
* **`closingRounds_enough`**: the loop ends.
-/

namespace Libjingle.Webrtc

open Lib Sdp

/-! ## One channel -/

def DataState.rank : DataState → Nat
  | .kConnecting => 0
  | .kOpen => 1
  | .kClosing => 2
  | .kClosed => 3

/-- The states of a channel that closes. -/
def DataState.closes (state : DataState) : Prop := state = .kClosing ∨ state = .kClosed

instance (state : DataState) : Decidable state.closes :=
  inferInstanceAs (Decidable (state = .kClosing ∨ state = .kClosed))

/-- States that are entered one after another, from one to another: none of them goes back, and
those of closing were requested. -/
inductive Goes (requested : Prop) : DataState → List DataState → DataState → Prop where
  | nil (a : DataState) : Goes requested a [] a
  | cons {a b c : DataState} {l : List DataState} (hle : a.rank ≤ b.rank)
      (hreq : b.closes → requested) (rest : Goes requested b l c) : Goes requested a (b :: l) c

theorem Goes.append {requested : Prop} {a b c : DataState} {l l' : List DataState}
    (h : Goes requested a l b) (h' : Goes requested b l' c) : Goes requested a (l ++ l') c := by
  induction h with
  | nil a => exact h'
  | cons hle hreq _ ih => exact .cons hle hreq (ih h')

variable {a b : DataState} {l : List DataState}

theorem Goes.requested {requested : Prop}
    (h : Goes requested a l b) (ha : ¬a.closes) (hb : b.closes) : requested := by
  induction h with
  | nil a => exact (ha hb).elim
  | @cons a b c l _ hreq _ ih =>
    by_cases hcloses : b.closes
    · exact hreq hcloses
    · exact ih hcloses hb

theorem Goes.le {requested : Prop} (h : Goes requested a l b) : ∀ x ∈ l, a.rank ≤ x.rank := by
  induction h with
  | nil a => exact List.forall_mem_nil _
  | cons hle _ _ ih =>
    exact List.forall_mem_cons.mpr ⟨hle, fun x hx => le_trans hle (ih x hx)⟩

/-- The states of a channel only go forward, and to the closing ones only on request. -/
structure Moves (requested : Prop) (before c : DataChannel) : Prop where
  label : c.label = before.label
  goes : ∃ entered, c.changes = before.changes ++ entered ∧
    Goes requested before.state entered c.state

/-- A channel of which only this side knows. -/
structure Fresh (c : DataChannel) : Prop where
  connecting : c.state = .kConnecting
  receiveSsrcSet : c.receiveSsrcSet = false
  connected : c.connected = false

/-- What has happened to data channels. -/
structure ChannelHistory where
  /-- The channels for which `Close` was called. -/
  closed : List Nat
  /-- The labels in remote descriptions. -/
  labels : List Text

/-- What a history says about a channel. -/
structure Settled (h : ChannelHistory) (id : Nat) (c : DataChannel) : Prop where
  /-- When the other side closes a channel, it is closed at once. -/
  closing : c.state = .kClosing → id ∈ h.closed
  fresh : id ∉ h.closed → c.label ∉ h.labels → Fresh c

/-- What holds of a channel during a step. -/
structure Orderly (h : ChannelHistory) (requested : Prop) (id : Nat) (before c : DataChannel) :
    Prop extends Settled h id c where
  moves : Moves requested before c

section

variable {h : ChannelHistory} {requested : Prop} {id : Nat} {before c : DataChannel}

theorem Moves.refl (c : DataChannel) : Moves requested c c :=
  ⟨rfl, [], (List.append_nil _).symm, .nil c.state⟩

theorem Moves.setState (hmoves : Moves requested before c) {state : DataState}
    (hle : c.state.rank ≤ state.rank) (hreq : state.closes → requested) :
    Moves requested before (c.setState state) := by
  obtain ⟨entered, hchanges, hgoes⟩ := hmoves.goes
  refine ⟨hmoves.label, entered ++ [state], ?_, hgoes.append (.cons hle hreq (.nil state))⟩
  rw [DataChannel.setState, hchanges, List.append_assoc]

/-- `UpdateState` opens a channel, ends its closing, or leaves its state. -/
theorem updateState_cases (c : DataChannel) (dataSession : Bool) :
    (c.updateState dataSession).label = c.label ∧
      (((c.updateState dataSession).state = c.state ∧
          (c.updateState dataSession).changes = c.changes) ∨
        (c.state = .kConnecting ∧ (c.updateState dataSession).state = .kOpen ∧
          (c.updateState dataSession).changes = c.changes ++ [.kOpen]) ∨
        (c.state = .kClosing ∧ (c.updateState dataSession).state = .kClosed ∧
          (c.updateState dataSession).changes = c.changes ++ [.kClosed])) := by
  rw [DataChannel.updateState]
  cases hstate : c.state with
  | kConnecting =>
    by_cases hdone : c.hasNegotiationCompleted = true
    · by_cases hwritable : c.wasEverWritable = true
      · simp [hdone, hwritable, DataChannel.setState]
      · simp [hdone, hwritable]
    · simp [hdone, hstate]
  | kOpen => exact ⟨rfl, .inl ⟨hstate, rfl⟩⟩
  | kClosing =>
    by_cases hdone : c.hasNegotiationCompleted = true
    · simp [DataChannel.hasNegotiationCompleted] at hdone
      simp [hdone, DataChannel.hasNegotiationCompleted, DataChannel.setState]
    · simp [DataChannel.hasNegotiationCompleted] at hdone
      simp [hdone, DataChannel.hasNegotiationCompleted]
  | kClosed => exact ⟨rfl, .inl ⟨hstate, rfl⟩⟩

theorem Moves.updateState (hmoves : Moves requested before c)
    (hreq : c.state = .kClosing → requested) (dataSession : Bool) :
    Moves requested before (c.updateState dataSession) := by
  obtain ⟨entered, hchanges, hgoes⟩ := hmoves.goes
  obtain ⟨hlabel, ⟨hstate, hsame⟩ | ⟨hold, hstate, hadded⟩ | ⟨hold, hstate, hadded⟩⟩ :=
    updateState_cases c dataSession
  · refine ⟨hlabel.trans hmoves.label, entered, hsame.trans hchanges, ?_⟩
    rw [hstate]
    exact hgoes
  · refine ⟨hlabel.trans hmoves.label, entered ++ [.kOpen], ?_, ?_⟩
    · rw [hadded, hchanges, List.append_assoc]
    · rw [hstate]
      rw [hold] at hgoes
      exact hgoes.append (.cons (by decide) (fun hcloses => hcloses.elim nofun nofun) (.nil .kOpen))
  · refine ⟨hlabel.trans hmoves.label, entered ++ [.kClosed], ?_, ?_⟩
    · rw [hadded, hchanges, List.append_assoc]
    · rw [hstate]
      have hrequested : requested := hreq hold
      rw [hold] at hgoes
      exact hgoes.append (.cons (by decide) (fun _ => hrequested) (.nil .kClosed))

variable {dataSession : Bool}

theorem closing_of_updateState
    (hclosing : (c.updateState dataSession).state = .kClosing) : c.state = .kClosing := by
  obtain ⟨-, ⟨hstate, -⟩ | ⟨-, hstate, -⟩ | ⟨-, hstate, -⟩⟩ := updateState_cases c dataSession
  · exact hstate.symm.trans hclosing
  · rw [hstate] at hclosing
    cases hclosing
  · rw [hstate] at hclosing
    cases hclosing

/-- What `UpdateState` needs, and what is left to show. -/
theorem orderly_updateState (hmoves : Moves requested before c)
    (hclosing : c.state = .kClosing → id ∈ h.closed) (hreq : id ∈ h.closed → requested)
    (hfresh : id ∉ h.closed → c.label ∉ h.labels → Fresh (c.updateState dataSession)) :
    Orderly h requested id before (c.updateState dataSession) := by
  refine ⟨⟨fun hc => hclosing (closing_of_updateState hc), fun hid hlabel => hfresh hid ?_⟩,
    hmoves.updateState (fun hc => hreq (hclosing hc)) dataSession⟩
  rwa [(updateState_cases c dataSession).1] at hlabel

theorem Fresh.setSendSsrc (hfresh : Fresh c) (dataSession : Bool) (ssrc : U32) :
    Fresh (c.setSendSsrc dataSession ssrc) := by
  have hsame :
      c.setSendSsrc dataSession ssrc = { c with sendSsrc := ssrc, sendSsrcSet := true } := by
    rw [DataChannel.setSendSsrc, DataChannel.updateState]
    simp [hfresh.connecting, DataChannel.hasNegotiationCompleted, hfresh.receiveSsrcSet]
  rw [hsame]
  exact ⟨hfresh.connecting, hfresh.receiveSsrcSet, hfresh.connected⟩

theorem Moves.closing (hmoves : Moves requested before c) (hopen : c.state ≠ .kClosed)
    (hrequested : requested) : Moves requested before (c.setState .kClosing) := by
  refine hmoves.setState ?_ fun _ => hrequested
  cases hstate : c.state with
  | kClosed => exact (hopen hstate).elim
  | _ => decide

namespace Orderly

variable (ho : Orderly h requested id before c) (hreq : id ∈ h.closed → requested)

include ho hreq

theorem setSendSsrc (dataSession : Bool) (ssrc : U32) :
    Orderly h requested id before (c.setSendSsrc dataSession ssrc) :=
  orderly_updateState ⟨ho.moves.label, ho.moves.goes⟩ ho.closing hreq fun hid hlabel =>
    (ho.fresh hid hlabel).setSendSsrc dataSession ssrc

theorem setReceiveSsrc (hlabel : c.label ∈ h.labels) (dataSession : Bool) (ssrc : U32) :
    Orderly h requested id before (c.setReceiveSsrc dataSession ssrc) :=
  orderly_updateState ⟨ho.moves.label, ho.moves.goes⟩ ho.closing hreq fun _ hnot =>
    (hnot hlabel).elim

theorem onChannelReady (dataSession writable : Bool) :
    Orderly h requested id before (c.onChannelReady dataSession writable) := by
  rw [DataChannel.onChannelReady]
  split
  · rename_i hready
    refine orderly_updateState ⟨ho.moves.label, ho.moves.goes⟩ ho.closing hreq fun hid hlabel => ?_
    have hconnected := (ho.fresh hid hlabel).connected
    rw [hready.1] at hconnected
    cases hconnected
  · exact ho

theorem close (hclosed : id ∈ h.closed) (dataSession : Bool) :
    Orderly h requested id before (c.close dataSession) := by
  rw [DataChannel.close]
  split
  · exact ho
  · rename_i hopen
    have hmoves : Moves requested before { c with sendSsrc := 0, sendSsrcSet := false } :=
      ⟨ho.moves.label, ho.moves.goes⟩
    exact orderly_updateState (hmoves.closing hopen (hreq hclosed)) (fun _ => hclosed) hreq
      fun hid => (hid hclosed).elim

omit hreq in
theorem remotePeerRequestClose (hopen : c.state ≠ .kClosed) (hrequested : requested)
    (hnotFresh : id ∈ h.closed ∨ c.label ∈ h.labels) (dataSession : Bool) :
    Orderly h requested id before (c.remotePeerRequestClose dataSession) := by
  have hmoves : Moves requested before { c with receiveSsrcSet := false, sendSsrcSet := false } :=
    ⟨ho.moves.label, ho.moves.goes⟩
  have hclosed : (c.remotePeerRequestClose dataSession).state = .kClosed := rfl
  refine ⟨⟨fun hc => ?_, fun hid hlabel => (hnotFresh.elim hid hlabel).elim⟩,
    (hmoves.closing hopen hrequested).updateState (fun _ => hrequested) dataSession⟩
  rw [hclosed] at hc
  cases hc

end Orderly

end

namespace MediaStreamSignaling

variable {s : MediaStreamSignaling} {I : Nat → DataChannel → Prop}

/-! ## All channels -/

def Channels (I : Nat → DataChannel → Prop) (s : MediaStreamSignaling) : Prop :=
  ∀ id c, s.channels[id]? = some c → I id c

/-- The signaling knows channels by their labels. -/
def Known (s : MediaStreamSignaling) : Prop :=
  ∀ label id, s.dataChannels.get? label = some id →
    ∃ c, s.channels[id]? = some c ∧ c.label = label

variable {f : DataChannel → DataChannel}

theorem channel_updateChannel {id id' : Nat} {c' : DataChannel}
    (h : (s.updateChannel id f).channels[id']? = some c') :
    ∃ c, s.channels[id']? = some c ∧ c' = if id' = id then f c else c := by
  rw [updateChannel, List.getElem?_modify] at h
  obtain ⟨c, hc, rfl⟩ := Option.map_eq_some_iff.mp h
  by_cases hid : id = id'
  · exact ⟨c, hc, by simp [hid]⟩
  · exact ⟨c, hc, by simp [hid, Ne.symm hid]⟩

variable {label : Text}

theorem channel_of_known (hknown : Known s) {id : Nat} {c : DataChannel}
    (hlabel : s.dataChannels.get? label = some id) (hc : s.channels[id]? = some c) :
    c.label = label := by
  obtain ⟨c', hc', rfl⟩ := hknown label id hlabel
  rw [hc] at hc'
  exact congrArg DataChannel.label (Option.some.inj hc')

theorem Channels.updateChannel (h : Channels I s) {id : Nat}
    (hf : ∀ c, s.channels[id]? = some c → I id c → I id (f c)) :
    Channels I (s.updateChannel id f) := by
  intro id' c' hc'
  obtain ⟨c, hc, rfl⟩ := channel_updateChannel hc'
  by_cases hid : id' = id
  · subst hid
    rw [if_pos rfl]
    exact hf c hc (h id' c hc)
  · rw [if_neg hid]
    exact h id' c hc

theorem Known.updateChannel (h : Known s) (id : Nat)
    (hf : ∀ c, (f c).label = c.label) : Known (s.updateChannel id f) := by
  intro label id' hlabel
  obtain ⟨c, hc, rfl⟩ := h label id' hlabel
  rw [MediaStreamSignaling.updateChannel, List.getElem?_modify, hc]
  refine ⟨_, rfl, ?_⟩
  by_cases hid : id = id'
  · simp [hid, hf]
  · simp [hid]

theorem Known.erase (h : Known s) (key : Text) :
    Known { s with dataChannels := s.dataChannels.erase key } := by
  intro label id hlabel
  rw [SortedMap.get?_erase] at hlabel
  by_cases heq : label = key
  · rw [if_pos heq] at hlabel
    cases hlabel
  · rw [if_neg heq] at hlabel
    exact h label id hlabel

theorem Channels.createDataChannel (h : Channels I s)
    (hnew : I s.channels.length (.create label)) : Channels I (s.createDataChannel label) := by
  intro id c hc
  rw [MediaStreamSignaling.createDataChannel, List.getElem?_append] at hc
  split at hc
  · exact h id c hc
  · rename_i hlt
    rw [List.getElem?_singleton] at hc
    split at hc
    · obtain rfl := Option.some.inj hc
      obtain rfl : id = s.channels.length := by omega
      exact hnew
    · cases hc

theorem Known.createDataChannel (h : Known s) (label : Text) :
    Known (s.createDataChannel label) := by
  intro label' id hlabel
  obtain ⟨c, hc, rfl⟩ := h label' id hlabel
  refine ⟨c, ?_, rfl⟩
  rw [MediaStreamSignaling.createDataChannel,
    List.getElem?_append_left (List.getElem?_eq_some_iff.mp hc).1, hc]

theorem channels_addDataChannel (id : Nat) : (s.addDataChannel id).2.channels = s.channels := by
  rw [addDataChannel]
  split
  · rfl
  · split <;> rfl

theorem Known.addDataChannel (h : Known s) (id : Nat) : Known (s.addDataChannel id).2 := by
  rw [MediaStreamSignaling.addDataChannel]
  split
  · exact h
  · rename_i c hc
    split
    · exact h
    · intro label id' hlabel
      by_cases heq : label = c.label
      · subst heq
        rw [SortedMap.get?_set] at hlabel
        obtain rfl := Option.some.inj hlabel
        exact ⟨c, hc, rfl⟩
      · rw [SortedMap.get?_set_of_ne _ heq] at hlabel
        exact h label id' hlabel

/-! ## The loop that closes channels -/

section

variable {active : List Text} {isLocalUpdate : Bool}

/-- A known channel has been asked to close, and is erased when it has. -/
def asked (isLocalUpdate : Bool) (key : Text) (id : Nat) (c : DataChannel)
    (s : MediaStreamSignaling) : MediaStreamSignaling :=
  let s' := s.updateChannel id (s.askToClose isLocalUpdate)
  if (s.askToClose isLocalUpdate c).state = .kClosed then
    { s' with dataChannels := s.dataChannels.erase key }
  else s'

variable {key : Text}

theorem asked_closed {id : Nat} {c : DataChannel}
    (h : (s.askToClose isLocalUpdate c).state = .kClosed) :
    asked isLocalUpdate key id c s = { s.updateChannel id (s.askToClose isLocalUpdate) with
      dataChannels := s.dataChannels.erase key } := if_pos h

theorem asked_open {id : Nat} {c : DataChannel}
    (h : (s.askToClose isLocalUpdate c).state ≠ .kClosed) :
    asked isLocalUpdate key id c s = s.updateChannel id (s.askToClose isLocalUpdate) := if_neg h

theorem closingPass_active {id : Nat} (h : ∀ c, s.channels[id]? = some c → c.label ∈ active)
    (key : Text) (entries : List (Text × Nat)) :
    closingPass active isLocalUpdate ((key, id) :: entries) s =
      closingPass active isLocalUpdate entries s := by
  rw [closingPass]
  cases hc : s.channels[id]? with
  | none => rfl
  | some c => exact if_pos (h c hc)

theorem closingPass_asked {id : Nat} {c : DataChannel} (hc : s.channels[id]? = some c)
    (hnot : c.label ∉ active) (key : Text) (entries : List (Text × Nat)) :
    closingPass active isLocalUpdate ((key, id) :: entries) s =
      if (s.askToClose isLocalUpdate c).state = .kClosed then
        (true, asked isLocalUpdate key id c s)
      else closingPass active isLocalUpdate entries (asked isLocalUpdate key id c s) := by
  rw [closingPass, hc]
  refine (if_neg hnot).trans ?_
  by_cases hclosed : (s.askToClose isLocalUpdate c).state = .kClosed
  · rw [if_pos hclosed, asked_closed hclosed]
    exact if_pos hclosed
  · rw [if_neg hclosed, asked_open hclosed]
    exact if_neg hclosed

variable {P : MediaStreamSignaling → Prop}

variable {entries : List (Text × Nat)}

theorem closingPass_rule
    (hask : ∀ s key id c, P s → s.dataChannels.get? key = some id → s.channels[id]? = some c →
      c.label ∉ active → P (asked isLocalUpdate key id c s))
    (hentries : ∀ e ∈ entries, s.dataChannels.get? e.1 = some e.2)
    (h : P s) : P (closingPass active isLocalUpdate entries s).2 := by
  induction entries generalizing s with
  | nil => exact h
  | cons e entries ih =>
    obtain ⟨key, id⟩ := e
    obtain ⟨hkey, hrest⟩ := List.forall_mem_cons.mp hentries
    by_cases hactive : ∀ c, s.channels[id]? = some c → c.label ∈ active
    · rw [closingPass_active hactive]
      exact ih hrest h
    · push Not at hactive
      obtain ⟨c, hc, hnot⟩ := hactive
      have hnext := hask s key id c h hkey hc hnot
      rw [closingPass_asked hc hnot]
      split
      · exact hnext
      · rename_i hopen
        rw [asked_open hopen] at hnext ⊢
        exact ih hrest hnext

/-- **The rule of the loop**: what holds before and is kept by asking one channel holds after it. -/
theorem closing_rule
    (hask : ∀ s key id c, P s → s.dataChannels.get? key = some id → s.channels[id]? = some c →
      c.label ∉ active → P (asked isLocalUpdate key id c s)) (h : P s) :
    P (s.updateClosingDataChannels active isLocalUpdate) := by
  rw [updateClosingDataChannels]
  generalize s.dataChannels.entries.length + 1 = n
  induction n generalizing s with
  | zero => exact h
  | succ n ih =>
    have hpass := closingPass_rule hask (fun e he => SortedMap.mem_entries_iff.mp he) h
    rw [closingRounds]
    split
    · rename_i s' heq
      rw [heq] at hpass
      exact ih hpass
    · rename_i s' heq
      rw [heq] at hpass
      exact hpass

theorem closingPass_entries (hentries : ∀ e ∈ entries, e ∈ s.dataChannels.entries)
    (h : (closingPass active isLocalUpdate entries s).1 = true) :
    (closingPass active isLocalUpdate entries s).2.dataChannels.entries.length <
      s.dataChannels.entries.length := by
  induction entries generalizing s with
  | nil => cases h
  | cons e entries ih =>
    obtain ⟨key, id⟩ := e
    obtain ⟨hkey, hrest⟩ := List.forall_mem_cons.mp hentries
    by_cases hactive : ∀ c, s.channels[id]? = some c → c.label ∈ active
    · rw [closingPass_active hactive] at h ⊢
      exact ih hrest h
    · push Not at hactive
      obtain ⟨c, hc, hnot⟩ := hactive
      rw [closingPass_asked hc hnot] at h ⊢
      by_cases hclosed : (s.askToClose isLocalUpdate c).state = .kClosed
      · rw [if_pos hclosed, asked_closed hclosed]
        have hentries : (s.dataChannels.erase key).entries.length <
            s.dataChannels.entries.length := by
          rw [SortedMap.erase, SortedMap.entries_filter]
          exact List.length_filter_lt_length_iff_exists.mpr ⟨(key, id), hkey, by simp⟩
        exact hentries
      · rw [if_neg hclosed, asked_open hclosed] at h ⊢
        exact ih (s := s.updateChannel id (s.askToClose isLocalUpdate)) hrest h

theorem closingRounds_succ {n : Nat} (hn : s.dataChannels.entries.length < n) :
    closingRounds active isLocalUpdate (n + 1) s = closingRounds active isLocalUpdate n s := by
  induction n generalizing s with
  | zero => exact (Nat.not_lt_zero _ hn).elim
  | succ n ih =>
    rw [closingRounds, closingRounds]
    split
    · rename_i s' heq
      have hfewer := closingPass_entries (s := s) (fun e he => he) (congrArg Prod.fst heq)
      rw [heq] at hfewer
      exact ih (lt_of_lt_of_le hfewer (Nat.lt_succ_iff.mp hn))
    · rfl

/-- **The loop ends**: more rounds than there are known channels change nothing. -/
theorem closingRounds_enough {n : Nat} (hn : s.dataChannels.entries.length < n) :
    closingRounds active isLocalUpdate n s =
      s.updateClosingDataChannels active isLocalUpdate := by
  induction n, hn using Nat.le_induction with
  | base => rfl
  | succ n hle ih => exact (closingRounds_succ hle).trans ih

end

end MediaStreamSignaling

end Libjingle.Webrtc
