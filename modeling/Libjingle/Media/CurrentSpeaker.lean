import Libjingle.Lib.History
import Libjingle.Sdp.Description

/-!
# The current speaker (`session/media/currentspeakermonitor.cc`)

Each audio report moves every participant through five states and picks the loudest one, where the
current speaker is kept over short silences. A switch forbids the next one for a while; the time
it is permitted again is compared with the clock by `<=`.

## Results

* **`current_speaker_kept`**: in a run whose steps all meet the condition, all is as expected.
-/

namespace Libjingle.Media

open Lib Sdp

def kMaxAudioLevel : Int := 9

inductive SpeakingState where
  | notSpeaking
  | mightBeSpeaking
  | speaking
  | wasSpeakingRecently1
  | wasSpeakingRecently2
  deriving DecidableEq

namespace SpeakingState

/-- One turn of the loop over the participants: the next state, and the level that counts. -/
def heard (state : SpeakingState) (level : Int) (isPreviousSpeaker : Bool) : SpeakingState × Int :=
  -- an inter-word silence of the current speaker has the highest level
  let silence := if isPreviousSpeaker then kMaxAudioLevel else level
  match state with
  | .notSpeaking => if level > 0 then (.mightBeSpeaking, 0) else (.notSpeaking, level)
  | .mightBeSpeaking => if level > 0 then (.speaking, level) else (.notSpeaking, level)
  | .speaking => if level > 0 then (.speaking, level) else (.wasSpeakingRecently1, silence)
  | .wasSpeakingRecently1 =>
    if level > 0 then (.speaking, level) else (.wasSpeakingRecently2, silence)
  | .wasSpeakingRecently2 => if level > 0 then (.speaking, level) else (.notSpeaking, level)

/-- A participant in one of these states has spoken. -/
def Spoke (state : SpeakingState) : Prop := state ≠ .notSpeaking ∧ state ≠ .mightBeSpeaking

/-- In these states a silence of the current speaker counts as speech. -/
def Lingers (state : SpeakingState) : Prop := state = .speaking ∨ state = .wasSpeakingRecently1

end SpeakingState

/-- The states by ssrcs, which are numbers here. -/
abbrev SpeakingStates := SortedMap Nat SpeakingState

/-- `OnAudioMonitor` and `OnMediaStreamsUpdate`. -/
structure CurrentSpeakerMonitor where
  ssrcToSpeakingStateMap : SpeakingStates
  currentSpeakerSsrc : Nat
  earliestPermittedSwitchTime : U32
  minTimeBetweenSwitches : U32

/-- The streams that are added or removed; streams of data are not looked at. -/
structure MediaStreams where
  audio : List StreamParams
  video : List StreamParams

def firstKey (p : StreamParams) : Nat := p.firstSsrc.toNat

/-- The state of an ssrc; one that is not in the map does not speak. -/
def stateOf (states : SpeakingStates) (ssrc : Nat) : SpeakingState :=
  (states.get? ssrc).getD .notSpeaking

/-- The level of an ssrc in a report, which is the last one listed for it. -/
def levelOf (info : List (Nat × Int)) (ssrc : Nat) : Int :=
  ((SortedMap.empty.setAll info).get? ssrc).getD 0

/-- Sources that are not in the map yet are added. -/
def addSources (states : SpeakingStates) (info : List (Nat × Int)) : SpeakingStates :=
  info.foldl (fun states stream =>
    if states.get? stream.1 = none then states.set stream.1 .notSpeaking else states) states

/-- Whether a participant is louder than the loudest one so far, which is a level and an ssrc. -/
def louder (currentSpeaker : Nat) (loudest : Int × Nat) (ssrc : Nat) (level : Int) : Int × Nat :=
  if level > loudest.1 then (level, ssrc)
  else if level > 0 ∧ level = loudest.1 ∧ currentSpeaker = ssrc then (loudest.1, ssrc)
  else loudest

namespace CurrentSpeakerMonitor

def start (minTime : U32) : CurrentSpeakerMonitor := ⟨.empty, 0, 0, minTime⟩

/-- The state and the level of each participant behind the loop. -/
def participants (m : CurrentSpeakerMonitor) (info : List (Nat × Int)) :
    SortedMap Nat (SpeakingState × Int) :=
  (addSources m.ssrcToSpeakingStateMap info).mapValues fun ssrc state =>
    state.heard (levelOf info ssrc) (m.currentSpeakerSsrc = ssrc)

/-- `loudest_speaker_ssrc` behind the loop. -/
def loudestSpeakerSsrc (m : CurrentSpeakerMonitor) (info : List (Nat × Int)) : Nat :=
  ((m.participants info).entries.foldl (fun loudest e =>
    louder m.currentSpeakerSsrc loudest e.1 e.2.2) (0, 0)).2

/-- `OnAudioMonitor`: whether `SignalUpdate` is sent, and the monitor afterwards. -/
def onAudioMonitor (m : CurrentSpeakerMonitor) (now : U32) (info : List (Nat × Int)) :
    Bool × CurrentSpeakerMonitor :=
  let loudest := m.loudestSpeakerSsrc info
  let states := (m.participants info).mapValues fun _ p => p.1
  if m.earliestPermittedSwitchTime ≤ now ∧ m.currentSpeakerSsrc ≠ loudest then
    (true, { m with
      ssrcToSpeakingStateMap := states
      currentSpeakerSsrc := loudest
      earliestPermittedSwitchTime := now + m.minTimeBetweenSwitches })
  else (false, { m with ssrcToSpeakingStateMap := states })

/-- `OnMediaStreamsUpdate`; `ours` says that it is the call and the session of the monitor. -/
def onMediaStreamsUpdate (m : CurrentSpeakerMonitor) (ours : Bool) (added removed : MediaStreams) :
    CurrentSpeakerMonitor :=
  if ours then
    let states := removed.video.foldl (fun states p => states.erase (firstKey p))
      m.ssrcToSpeakingStateMap
    { m with ssrcToSpeakingStateMap :=
        added.video.foldl (fun states p => states.set (firstKey p) .notSpeaking) states }
  else m

/-! ## Runs -/

/-- A report at a time in milliseconds, of which the clock shows the lower 32 bits, or an update. -/
inductive Event where
  | report (time : Nat) (info : List (Nat × Int))
  | update (ours : Bool) (added removed : MediaStreams)

/-- A run so far: the time of the last switch, the ssrcs that had a positive level in the last
report and in two consecutive ones, and those whose audio was removed and neither added nor heard
since. -/
structure History where
  monitor : CurrentSpeakerMonitor
  lastSwitch : Option Nat
  last : Nat → Prop
  twice : Nat → Prop
  gone : Nat → Prop

namespace History

def start (minTime : U32) : History :=
  ⟨.start minTime, none, fun _ => False, fun _ => False, fun _ => False⟩

/-- The ssrcs of a list of streams. -/
def Ssrc (streams : List StreamParams) (ssrc : Nat) : Prop :=
  ∃ p ∈ streams, ∃ k ∈ p.ssrcs, k.toNat = ssrc

def next (h : History) : Event → History
  | .report time info =>
    let r := h.monitor.onAudioMonitor (BitVec.ofNat 32 time) info
    let positive := fun ssrc => 0 < levelOf info ssrc
    { monitor := r.2
      lastSwitch := if r.1 then some time else h.lastSwitch
      last := positive
      twice := fun ssrc => h.twice ssrc ∨ h.last ssrc ∧ positive ssrc
      gone := fun ssrc => h.gone ssrc ∧ ¬ positive ssrc }
  | .update ours added removed =>
    { h with
      monitor := h.monitor.onMediaStreamsUpdate ours added removed
      gone := fun ssrc => (h.gone ssrc ∨ ours = true ∧ Ssrc removed.audio ssrc) ∧
        ¬ (ours = true ∧ Ssrc added.audio ssrc) }

/-- The time from which on the next switch is permitted. -/
def deadline (h : History) : Option Nat :=
  h.lastSwitch.map (· + h.monitor.minTimeBetweenSwitches.toNat)

/-- Switches keep their distance and are not late, and who was removed is not chosen. -/
structure Reported (h : History) (time : Nat) (info : List (Nat × Int)) : Prop where
  spaced : (h.monitor.onAudioMonitor (BitVec.ofNat 32 time) info).1 = true →
    ∀ t ∈ h.deadline, t ≤ time
  prompt : (∀ t ∈ h.deadline, t ≤ time) →
    (h.next (.report time info)).monitor.currentSpeakerSsrc =
      h.monitor.loudestSpeakerSsrc info
  removed : ∀ ssrc, ssrc ≠ 0 → (h.next (.report time info)).gone ssrc →
    h.monitor.loudestSpeakerSsrc info ≠ ssrc

/-- The current speaker has spoken, and a report is as it should be. -/
def Keeps (h : History) (e : Event) : Prop :=
  ((h.next e).monitor.currentSpeakerSsrc = 0 ∨
    (h.next e).twice (h.next e).monitor.currentSpeakerSsrc) ∧
  match e with
  | .report time info => h.Reported time info
  | .update .. => True

def state (h : History) : Nat → SpeakingState := stateOf h.monitor.ssrcToSpeakingStateMap

/-- At a report the clock tells whether the deadline has passed. An update that removes the audio of
the current speaker while it speaks removes or adds a video stream with its ssrc too. -/
def Meets (h : History) : Event → Prop
  | .report time _ => ∀ t ∈ h.deadline, BitVec.ofNat 32 t ≤ BitVec.ofNat 32 time ↔ t ≤ time
  | .update ours added removed => ∀ ssrc, ssrc ≠ 0 →
      (h.next (.update ours added removed)).gone ssrc → h.monitor.currentSpeakerSsrc = ssrc →
        (h.state ssrc).Lingers → ssrc ∈ (removed.video ++ added.video).map firstKey

end History

end CurrentSpeakerMonitor

/-! ## Participants -/

section

variable {state : SpeakingState} {level : Int} {previous : Bool}

theorem SpeakingState.heard_level (h : 0 < (state.heard level previous).2) :
    0 < level ∧ state ≠ .notSpeaking ∨ previous = true ∧ state.Lingers := by
  by_cases hlevel : level > 0
  · refine .inl ⟨hlevel, ?_⟩
    rintro rfl
    simp [heard, hlevel] at h
  · refine .inr ?_
    cases state <;> cases previous <;> simp [heard, hlevel, Lingers] at h ⊢

theorem SpeakingState.heard_might (h : (state.heard level previous).1 = .mightBeSpeaking) :
    0 < level := by
  by_contra hlevel
  cases state <;> simp [heard, hlevel] at h

theorem SpeakingState.heard_spoke (h : (state.heard level previous).1.Spoke) :
    state = .mightBeSpeaking ∧ 0 < level ∨ state.Spoke := by
  by_cases hlevel : level > 0
  · cases state <;> simp [heard, hlevel, Spoke] at h ⊢
  · cases state <;> simp [heard, hlevel, Spoke] at h ⊢

theorem SpeakingState.Lingers.spoke (h : state.Lingers) : state.Spoke := by
  obtain rfl | rfl := h <;> exact ⟨by decide, by decide⟩

theorem SpeakingState.heard_lingers (h : (state.heard level previous).1.Lingers)
    (hlevel : ¬ 0 < level) : state.Lingers := by
  cases state <;> simp [heard, hlevel, Lingers] at h ⊢

end

theorem stateOf_set (states : SpeakingStates) (ssrc ssrc' : Nat) :
    stateOf (states.set ssrc' .notSpeaking) ssrc =
      if ssrc = ssrc' then .notSpeaking else stateOf states ssrc := by
  unfold stateOf
  split
  · rename_i heq
    rw [heq, SortedMap.get?_set]
    rfl
  · rename_i hne
    rw [SortedMap.get?_set_of_ne _ hne]

theorem stateOf_addSources (states : SpeakingStates) (info : List (Nat × Int))
    (ssrc : Nat) : stateOf (addSources states info) ssrc = stateOf states ssrc := by
  induction info generalizing states with
  | nil => rfl
  | cons stream rest ih =>
    refine (ih _).trans ?_
    dsimp only
    split
    · rename_i hnone
      rw [stateOf_set]
      split
      · rename_i heq
        rw [stateOf, heq, hnone]
        rfl
      · rfl
    · rfl

theorem stateOf_erase (states : SpeakingStates) (ssrc ssrc' : Nat) :
    stateOf (states.erase ssrc') ssrc =
      if ssrc = ssrc' then .notSpeaking else stateOf states ssrc := by
  rw [stateOf, SortedMap.get?_erase]
  split <;> rfl

theorem stateOf_foldl {f : SpeakingStates → StreamParams → SpeakingStates}
    (hf : ∀ states p ssrc, stateOf (f states p) ssrc =
      if ssrc = firstKey p then .notSpeaking else stateOf states ssrc)
    (streams : List StreamParams) (states : SpeakingStates) (ssrc : Nat) :
    stateOf (streams.foldl f states) ssrc =
      if ssrc ∈ streams.map firstKey then .notSpeaking else stateOf states ssrc := by
  induction streams generalizing states with
  | nil => rfl
  | cons p rest ih =>
    rw [List.foldl_cons, ih, hf, List.map_cons]
    by_cases hrest : ssrc ∈ rest.map firstKey
    · rw [if_pos hrest, if_pos (List.mem_cons_of_mem _ hrest)]
    · rw [if_neg hrest]
      exact if_congr (by rw [List.mem_cons, or_iff_left hrest]) rfl rfl

theorem foldl_louder {currentSpeaker : Nat} {P : Nat → Prop}
    {entries : List (Nat × SpeakingState × Int)} {loudest : Int × Nat}
    (hlevel : 0 ≤ loudest.1) (hssrc : loudest.2 = 0 ∨ P loudest.2)
    (hentries : ∀ e ∈ entries, 0 < e.2.2 → P e.1) :
    let l := entries.foldl (fun l e => louder currentSpeaker l e.1 e.2.2) loudest
    l.2 = 0 ∨ P l.2 := by
  induction entries generalizing loudest with
  | nil => exact hssrc
  | cons e rest ih =>
    have hrest := fun e he => hentries e (List.mem_cons_of_mem _ he)
    have he := hentries e List.mem_cons_self
    rw [List.foldl_cons]
    unfold louder
    split
    · exact ih (by dsimp only; omega) (.inr (he (by omega))) hrest
    · split
      · rename_i htie
        exact ih hlevel (.inr (he htie.1)) hrest
      · exact ih hlevel hssrc hrest

namespace CurrentSpeakerMonitor

variable {m : CurrentSpeakerMonitor} {info : List (Nat × Int)} {ssrc : Nat}

/-- What a report makes of a participant. -/
def turn (m : CurrentSpeakerMonitor) (info : List (Nat × Int)) (ssrc : Nat) :
    SpeakingState × Int :=
  (stateOf m.ssrcToSpeakingStateMap ssrc).heard (levelOf info ssrc)
    (m.currentSpeakerSsrc = ssrc)

theorem participants_turn {t : SpeakingState × Int}
    (h : (ssrc, t) ∈ (m.participants info).entries) : m.turn info ssrc = t := by
  obtain ⟨state, hstate, rfl⟩ := SortedMap.mem_mapValues h
  rw [turn, ← stateOf_addSources, stateOf, hstate]
  rfl

theorem loudest_level (m : CurrentSpeakerMonitor) (info : List (Nat × Int)) :
    m.loudestSpeakerSsrc info = 0 ∨ 0 < (m.turn info (m.loudestSpeakerSsrc info)).2 :=
  foldl_louder (P := fun ssrc => 0 < (m.turn info ssrc).2) (le_refl _) (.inl rfl)
    fun e he hpos => by rwa [participants_turn he]

theorem onAudioMonitor_state (m : CurrentSpeakerMonitor) (now : U32)
    (info : List (Nat × Int)) (ssrc : Nat) :
    let state := stateOf (m.onAudioMonitor now info).2.ssrcToSpeakingStateMap ssrc
    state = .notSpeaking ∨ state = (m.turn info ssrc).1 := by
  have hmap : (m.onAudioMonitor now info).2.ssrcToSpeakingStateMap =
      (m.participants info).mapValues fun _ p => p.1 := by
    unfold onAudioMonitor
    dsimp only
    split <;> rfl
  rw [hmap, stateOf]
  cases hget : ((m.participants info).mapValues fun _ p => p.1).get? ssrc with
  | none => exact .inl rfl
  | some state =>
    obtain ⟨t, ht, rfl⟩ := SortedMap.mem_mapValues (SortedMap.mem_entries_iff.mpr hget)
    rw [participants_turn (SortedMap.mem_entries_iff.mpr ht)]
    exact .inr rfl

theorem onMediaStreamsUpdate_state (m : CurrentSpeakerMonitor) (ours : Bool)
    (added removed : MediaStreams) (ssrc : Nat) :
    stateOf (m.onMediaStreamsUpdate ours added removed).ssrcToSpeakingStateMap ssrc =
      if ours = true ∧ ssrc ∈ (removed.video ++ added.video).map firstKey then
        .notSpeaking
      else stateOf m.ssrcToSpeakingStateMap ssrc := by
  cases ours with
  | false => rfl
  | true =>
    refine (stateOf_foldl (fun _ _ _ => stateOf_set ..) added.video _ ssrc).trans ?_
    rw [stateOf_foldl fun _ _ _ => stateOf_erase ..]
    by_cases hadded : ssrc ∈ added.video.map firstKey
    · rw [if_pos hadded, if_pos ⟨rfl, List.map_append ▸ List.mem_append_right _ hadded⟩]
    · rw [if_neg hadded]
      refine if_congr ?_ rfl rfl
      rw [List.map_append, List.mem_append, or_iff_left hadded, and_iff_right rfl]

theorem onAudioMonitor_cases (m : CurrentSpeakerMonitor) (now : U32)
    (info : List (Nat × Int)) :
    let r := m.onAudioMonitor now info
    let loudest := m.loudestSpeakerSsrc info
    r.2.minTimeBetweenSwitches = m.minTimeBetweenSwitches ∧
      (m.earliestPermittedSwitchTime ≤ now ∧ r.1 = true ∧ r.2.currentSpeakerSsrc = loudest ∧
          r.2.earliestPermittedSwitchTime = now + m.minTimeBetweenSwitches ∨
        (m.earliestPermittedSwitchTime ≤ now → m.currentSpeakerSsrc = loudest) ∧ r.1 = false ∧
          r.2.currentSpeakerSsrc = m.currentSpeakerSsrc ∧
          r.2.earliestPermittedSwitchTime = m.earliestPermittedSwitchTime) := by
  dsimp only
  unfold onAudioMonitor
  dsimp only
  split
  · rename_i hswitch
    exact ⟨rfl, .inl ⟨hswitch.1, rfl, rfl, rfl⟩⟩
  · rename_i hkeep
    exact ⟨rfl, .inr ⟨fun hle => not_not.mp fun hne => hkeep ⟨hle, hne⟩, rfl, rfl, rfl⟩⟩

namespace History

variable {h : History} {time : Nat}

/-- Who might be speaking was just heard, who spoke was heard twice, the time of the next switch is
that of the clock, and nobody who is gone is taken for speaking. -/
structure Sound (h : History) : Prop where
  might : ∀ ssrc, h.state ssrc = .mightBeSpeaking → h.last ssrc
  spoke : ∀ ssrc, (h.state ssrc).Spoke → h.twice ssrc
  current : h.monitor.currentSpeakerSsrc = 0 ∨ h.twice h.monitor.currentSpeakerSsrc
  earliest : h.monitor.earliestPermittedSwitchTime = BitVec.ofNat 32 (h.deadline.getD 0)
  removed : ∀ ssrc, ssrc ≠ 0 → h.gone ssrc → h.monitor.currentSpeakerSsrc = ssrc →
    ¬ (h.state ssrc).Lingers

theorem sound_start (minTime : U32) : (start minTime).Sound where
  might _ hmight := by cases hmight
  spoke _ hspoke := absurd rfl hspoke.1
  current := .inl rfl
  earliest := rfl
  removed _ _ hgone := hgone.elim

theorem Sound.permitted_iff (hs : h.Sound) (hm : h.Meets (.report time info)) :
    h.monitor.earliestPermittedSwitchTime ≤ BitVec.ofNat 32 time ↔
      ∀ t ∈ h.deadline, t ≤ time := by
  rw [hs.earliest]
  cases hdeadline : h.deadline with
  | none => exact iff_of_true (Nat.zero_le _) (by simp)
  | some t =>
    refine (hm t hdeadline).trans ⟨?_, fun hall => hall t rfl⟩
    rintro hle _ ⟨⟩
    exact hle

theorem Sound.loudest (hs : h.Sound) :
    h.monitor.loudestSpeakerSsrc info = 0 ∨
      (h.next (.report time info)).twice (h.monitor.loudestSpeakerSsrc info) := by
  refine (loudest_level h.monitor info).imp_right fun hlevel => ?_
  obtain ⟨hpos, hstate⟩ | ⟨-, hlingers⟩ := SpeakingState.heard_level hlevel
  · by_cases hmight : h.state (h.monitor.loudestSpeakerSsrc info) = .mightBeSpeaking
    · exact .inr ⟨hs.might _ hmight, hpos⟩
    · exact .inl (hs.spoke _ ⟨hstate, hmight⟩)
  · exact .inl (hs.spoke _ hlingers.spoke)

theorem Sound.gone (hs : h.Sound) {ssrc : Nat} (hne : ssrc ≠ 0)
    (hgone : (h.next (.report time info)).gone ssrc) :
    h.monitor.loudestSpeakerSsrc info ≠ ssrc := by
  rintro rfl
  obtain ⟨hpos, -⟩ | ⟨hcurrent, hlingers⟩ := SpeakingState.heard_level
    ((loudest_level h.monitor info).resolve_left hne)
  · exact hgone.2 hpos
  · exact hs.removed _ hne hgone.1 (of_decide_eq_true hcurrent) hlingers

/-- **A report.** -/
theorem Sound.report (hs : h.Sound) (hm : h.Meets (.report time info)) :
    h.Keeps (.report time info) ∧ (h.next (.report time info)).Sound := by
  have hpermitted := hs.permitted_iff hm
  have hloudest := @Sound.loudest info h time hs
  have hstate := onAudioMonitor_state h.monitor (BitVec.ofNat 32 time) info
  have hmight : ∀ ssrc, (h.next (.report time info)).state ssrc = .mightBeSpeaking →
      0 < levelOf info ssrc := fun ssrc hmight =>
    SpeakingState.heard_might (((hstate ssrc).resolve_left fun hnot =>
      absurd (hnot.symm.trans hmight) (by decide)).symm.trans hmight)
  have hspoke : ∀ ssrc, ((h.next (.report time info)).state ssrc).Spoke →
      (h.next (.report time info)).twice ssrc := fun ssrc hspoke => by
    obtain ⟨hbefore, hpos⟩ | hbefore := SpeakingState.heard_spoke
      (Eq.subst ((hstate ssrc).resolve_left hspoke.1) hspoke)
    · exact .inr ⟨hs.might ssrc hbefore, hpos⟩
    · exact .inl (hs.spoke ssrc hbefore)
  have hlingers : ∀ ssrc, (h.next (.report time info)).gone ssrc →
      ((h.next (.report time info)).state ssrc).Lingers → (h.state ssrc).Lingers :=
    fun ssrc hgone hafter => SpeakingState.heard_lingers
      (Eq.subst ((hstate ssrc).resolve_left hafter.spoke.1) hafter) hgone.2
  obtain ⟨hmin, ⟨hle, hsent, hcurrent, hearliest⟩ | ⟨hkept, hsent, hcurrent, hearliest⟩⟩ :=
    onAudioMonitor_cases h.monitor (BitVec.ofNat 32 time) info
  · have htwice := Eq.subst (motive := fun ssrc => ssrc = 0 ∨
      (h.next (.report time info)).twice ssrc) hcurrent.symm hloudest
    refine ⟨⟨htwice, fun _ => hpermitted.mp hle, fun _ => hcurrent, fun ssrc => hs.gone⟩,
      hmight, hspoke, htwice, ?_, ?_⟩
    · rw [deadline, next]
      dsimp only
      rw [hearliest, hsent, hmin, if_pos rfl, Option.map_some, Option.getD_some, BitVec.ofNat_add,
        BitVec.ofNat_toNat, BitVec.setWidth_eq]
    · intro ssrc hne hgone hafter
      exact absurd (hcurrent.symm.trans hafter) (hs.gone hne hgone)
  · have htwice := Eq.subst (motive := fun ssrc => ssrc = 0 ∨
      (h.next (.report time info)).twice ssrc) hcurrent.symm (hs.current.imp_right .inl)
    refine ⟨⟨htwice, fun hswitch => absurd (hsent.symm.trans hswitch) Bool.false_ne_true,
      fun hpassed => ?_, fun ssrc => hs.gone⟩, hmight, hspoke, htwice, ?_, ?_⟩
    · exact hcurrent.trans (hkept (hpermitted.mpr hpassed))
    · rw [deadline, next]
      dsimp only
      rw [hearliest, hsent, hmin, if_neg Bool.false_ne_true]
      exact hs.earliest
    · intro ssrc hne hgone hafter hlater
      exact hs.removed ssrc hne hgone.1 (hcurrent.symm.trans hafter) (hlingers ssrc hgone hlater)

/-- **An update.** -/
theorem Sound.update (hs : h.Sound) {ours : Bool} {added removed : MediaStreams}
    (hm : h.Meets (.update ours added removed)) :
    h.Keeps (.update ours added removed) ∧ (h.next (.update ours added removed)).Sound := by
  cases ours with
  | false =>
    refine ⟨⟨hs.current, trivial⟩, hs.might, hs.spoke, hs.current, hs.earliest, ?_⟩
    intro ssrc hne hgone
    exact hs.removed ssrc hne (hgone.1.resolve_right fun hours => Bool.false_ne_true hours.1)
  | true =>
    have hstate : ∀ ssrc, (h.next (.update true added removed)).state ssrc ≠ .notSpeaking →
        (h.next (.update true added removed)).state ssrc = h.state ssrc ∧
          ssrc ∉ (removed.video ++ added.video).map firstKey := fun ssrc hne => by
      have heq := onMediaStreamsUpdate_state h.monitor true added removed ssrc
      split at heq
      · exact absurd heq hne
      · rename_i hnot
        exact ⟨heq, fun hmem => hnot ⟨rfl, hmem⟩⟩
    refine ⟨⟨hs.current, trivial⟩, ?_, ?_, hs.current, hs.earliest, ?_⟩
    · intro ssrc hmight
      have hne : SpeakingState.mightBeSpeaking ≠ .notSpeaking := by decide
      exact hs.might ssrc ((hstate ssrc (ne_of_eq_of_ne hmight hne)).1.symm.trans hmight)
    · intro ssrc hspoke
      exact hs.spoke ssrc (Eq.subst (hstate ssrc hspoke.1).1 hspoke)
    · intro ssrc hne hgone hcurrent hlingers
      obtain ⟨heq, hnot⟩ := hstate ssrc hlingers.spoke.1
      rw [heq] at hlingers
      exact hnot (hm ssrc hne hgone hcurrent hlingers)

/-- **The current speaker.** In a run in which the clock tells at every report whether the next
switch is permitted, and the audio of the current speaker is not removed alone while it speaks,
switches keep their distance and come in time, only who was heard twice is the current speaker, and
who is gone is not chosen. -/
theorem current_speaker_kept (minTime : U32) (events : List Event)
    (h : Along next Meets (start minTime) events) :
    Along next Keeps (start minTime) events := by
  refine along_of_invariant (sound_start minTime) ?_ h
  rintro h (⟨time, info⟩ | ⟨ours, added, removed⟩) - hs hm
  · exact hs.report hm
  · exact hs.update hm

theorem current_speaker_kept_two : Along next Keeps (start 1000)
    [.report 0 [(1, 5)], .report 100 [(1, 5), (2, 3)], .update true ⟨[], []⟩ ⟨[], []⟩,
      .report 2000 [(2, 9)]] :=
  current_speaker_kept 1000 _ ⟨fun _ ht => (by cases ht), fun _ ht => (by cases ht),
    fun _ _ hgone => (by
    obtain ⟨⟨⟨hfalse, -⟩, -⟩ | ⟨-, _, hremoved, -⟩, -⟩ := hgone
    · exact hfalse.elim
    · cases hremoved), by rintro _ ⟨⟩; decide, trivial⟩

/-- **The clock wraps, and audio stays.** With a deadline beyond `2 ^ 32` the next switch comes
after 100 milliseconds. The audio of the current speaker is removed without a video stream, and it
is chosen again. -/
theorem clock_wraps_and_audio_stays :
    ¬ Along next Keeps (start 1000)
      [.report 4294966696 [(1, 9), (2, 5)], .report 4294966796 [(1, 9), (2, 5)],
        .report 4294966896 [(1, 1), (2, 9)]] ∧
    ¬ Along next Keeps (start 1000)
      [.report 0 [(1, 5)], .report 100 [(1, 5)],
        .update true ⟨[], []⟩ ⟨[⟨[], [], [1], [], [], []⟩], []⟩, .report 5000 []] := by
  constructor
  · rintro ⟨-, -, ⟨-, hlate⟩, -⟩
    exact absurd (hlate.spaced (by decide +kernel) 4294967796 (by decide +kernel)) (by decide)
  · rintro ⟨-, -, -, ⟨-, hafter⟩, -⟩
    refine hafter.removed 1 (by decide) ⟨?_, by decide +kernel⟩ (by decide +kernel)
    exact ⟨.inr ⟨rfl, _, List.mem_singleton_self _, 1, List.mem_singleton_self _, rfl⟩,
      by rintro ⟨-, p, hp, -⟩; cases hp⟩

end History

end CurrentSpeakerMonitor

end Libjingle.Media
