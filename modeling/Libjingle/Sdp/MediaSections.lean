import Libjingle.Sdp.Lines

/-!
# Sections that the parser reads (`SdpDeserialize`)

The parser takes the m-lines one after another. Behind an m-line of a kind it supports it reads on
to the next m-line; behind any other it stays where it is, and stops there unless an m-line follows.

* **`sections_kept_iff`**: when every supported m-line of a message becomes a content.
-/

namespace Libjingle.Sdp

open Lib

/-! ## Texts and their lines -/

variable {text line rest : Text}

theorem textLines_of_split (h : splitFirst '\n' text = some (line, rest)) :
    textLines text = chomp line :: textLines rest := by
  obtain ⟨rfl, hline⟩ := eq_append_of_splitFirst h
  rw [textLines, splitOn_append hline]
  rfl

theorem textLines_of_none (h : splitFirst '\n' text = none) : textLines text = [chomp text] := by
  rw [textLines, List.splitOn_eq_singleton (notMem_of_splitFirst_none h)]
  rfl

theorem textLines_ne_nil (text : Text) : textLines text ≠ [] := by
  simp [textLines, List.splitOn_ne_nil]

theorem isLineType_cons (c d : Char) (rest : Text) (type : Char) :
    isLineType (c :: d :: rest) type = (decide (c = type) && decide (d = '=')) := by
  simp [isLineType]

variable {type : Char}

theorem isLineType_iff : isLineType text type = true ↔ ∃ rest, text = type :: '=' :: rest := by
  constructor
  · intro h
    match text with
    | [] => simp [isLineType] at h
    | [c] => simp [isLineType] at h
    | c :: d :: rest =>
      rw [isLineType_cons, Bool.and_eq_true, decide_eq_true_eq, decide_eq_true_eq] at h
      exact ⟨rest, by rw [h.1, h.2]⟩
  · rintro ⟨rest, rfl⟩
    simp [isLineType]

theorem isLineType_chomp (line : Text) : isLineType (chomp line) type = isLineType line type := by
  rw [Bool.eq_iff_iff, isLineType_iff, isLineType_iff]
  unfold chomp
  split
  · rename_i hlast
    constructor
    · rintro ⟨rest, hrest⟩
      have heq := List.dropLast_append_getLast? '\r' hlast
      rw [hrest] at heq
      exact ⟨rest ++ ['\r'], heq.symm⟩
    · rintro ⟨rest, rfl⟩
      cases rest with
      | nil => exact absurd hlast (by simp)
      | cons c rest => exact ⟨(c :: rest).dropLast, rfl⟩
  · rfl

theorem isLineType_split (htype : type ≠ '\n') (h : splitFirst '\n' text = some (line, rest)) :
    isLineType (chomp line) type = isLineType text type := by
  obtain ⟨rfl, hline⟩ := eq_append_of_splitFirst h
  rw [isLineType_chomp]
  match line with
  | [] => simp [isLineType, Ne.symm htype]
  | [c] => simp [isLineType]
  | c :: d :: line => simp [isLineType]

theorem head_textLines (text : Text) :
    ∃ line lines, textLines text = line :: lines ∧
      ∀ type, type ≠ '\n' → isLineType line type = isLineType text type := by
  cases h : splitFirst '\n' text with
  | none => exact ⟨_, _, textLines_of_none h, fun _ _ => isLineType_chomp text⟩
  | some p => exact ⟨_, _, textLines_of_split h, fun _ htype => isLineType_split htype h⟩

theorem textLines_of_getLine (h : getLine text = some (line, rest)) :
    textLines text = line :: textLines rest ∧ isLine line = true ∧ rest.length < text.length ∧
      ∀ type, type ≠ '\n' → isLineType line type = isLineType text type := by
  unfold getLine at h
  split at h
  · cases h
  · rename_i line' rest' hsplit
    split at h
    · rename_i hline
      cases h
      have hlen : rest.length < text.length := by
        rw [(eq_append_of_splitFirst hsplit).1, List.length_append, List.length_cons]
        omega
      exact ⟨textLines_of_split hsplit, hline, hlen, fun _ htype => isLineType_split htype hsplit⟩
    · cases h

theorem textLines_of_getLine_none (h : getLine text = none) : textLines text = [chomp text] ∨
      ∃ line lines, textLines text = line :: lines ∧ isLine line = false := by
  unfold getLine at h
  split at h
  · rename_i hsplit
    exact .inl (textLines_of_none hsplit)
  · rename_i line rest hsplit
    split at h
    · cases h
    · rename_i hline
      exact .inr ⟨_, _, textLines_of_split hsplit, by simpa using hline⟩

theorem getLineWithType_eq_some {r : Text × Text} :
    getLineWithType text type = some r ↔ isLineType text type = true ∧ getLine text = some r := by
  unfold getLineWithType
  by_cases h : isLineType text type = true
  · rw [if_pos h]
    exact (and_iff_right h).symm
  · rw [if_neg h]
    exact ⟨nofun, fun hr => absurd hr.1 h⟩

theorem getLineWithType_length
    (h : getLineWithType text type = some (line, rest)) : rest.length < text.length :=
  (textLines_of_getLine (getLineWithType_eq_some.mp h).2).2.2.1

/-! ## Supported sections -/

/-- The kind of a line that begins with `m=audio`, `m=video` or `m=application`. -/
def mediaTypeOf (line : Text) : Option MediaType :=
  [MediaType.audio, .video, .data].find? fun t => (initLine 'm' t.text).isPrefixOf line

/-- The kinds of the supported m-lines, in their order. -/
def supportedTypes (lines : List Text) : List MediaType := lines.filterMap mediaTypeOf

/-- The m-line has the port of a rejected content. -/
def isRejectedLine (line : Text) : Bool := (lineFields line)[1]? = some kMediaPortRejected

/-- The kind of a supported m-line, and whether its content is rejected. -/
def sectionOf (line : Text) : Option (MediaType × Bool) :=
  (mediaTypeOf line).map fun t => (t, isRejectedLine line)

/-- The supported m-lines, in their order. -/
def supportedSections (lines : List Text) : List (MediaType × Bool) := lines.filterMap sectionOf

theorem map_fst_supportedSections (lines : List Text) :
    (supportedSections lines).map Prod.fst = supportedTypes lines := by
  rw [supportedSections, List.map_filterMap, supportedTypes]
  congr 1
  funext line
  rw [sectionOf, Option.map_map]
  exact Option.map_id'

theorem mediaTypeOf_eq (h : isLineType line 'm' = true) :
    mediaTypeOf line = attributeOf mediaTypes line := by
  obtain ⟨rest, rfl⟩ := isLineType_iff.mp h
  have hprefix : ∀ t : MediaType,
      (initLine 'm' t.text).isPrefixOf ('m' :: '=' :: rest) = t.text.isPrefixOf rest := fun _ => rfl
  have hattr : ∀ t : MediaType,
      hasAttribute ('m' :: '=' :: rest) t.text = t.text.isPrefixOf rest := fun _ => rfl
  -- no text begins with two of the words
  have hdiffer : MediaType.audio.text.isPrefixOf rest = true →
      MediaType.video.text.isPrefixOf rest = false := by
    intro haudio
    rw [List.isPrefixOf_iff_prefix] at haudio
    obtain ⟨rest, rfl⟩ := haudio
    rfl
  simp only [mediaTypeOf, attributeOf, mediaTypes, hprefix, hattr, List.find?_cons, List.find?_nil]
  cases haudio : MediaType.audio.text.isPrefixOf rest with
  | true => simp [hdiffer haudio]
  | false =>
    cases MediaType.video.text.isPrefixOf rest with
    | true => rfl
    | false => cases MediaType.data.text.isPrefixOf rest <;> rfl

theorem mediaTypeOf_of_not_media (h : isLineType line 'm' = false) : mediaTypeOf line = none := by
  rw [mediaTypeOf, List.find?_eq_none]
  intro t _ hprefix
  rw [List.isPrefixOf_iff_prefix] at hprefix
  obtain ⟨rest, rfl⟩ := hprefix
  cases h

theorem supportedTypes_cons_of_not_media (h : isLineType line 'm' = false)
    (lines : List Text) : supportedTypes (line :: lines) = supportedTypes lines :=
  List.filterMap_cons_none (mediaTypeOf_of_not_media h)

theorem supportedSections_append_of_not_media {body : List Text}
    (h : ∀ line ∈ body, isLineType line 'm' = false) (lines : List Text) :
    supportedSections (body ++ lines) = supportedSections lines := by
  have hbody : body.filterMap sectionOf = [] := by
    rw [List.filterMap_eq_nil_iff]
    intro line hline
    rw [sectionOf, mediaTypeOf_of_not_media (h line hline)]
    rfl
  rw [supportedSections, List.filterMap_append, hbody, List.nil_append]
  rfl

theorem isLine_of_mediaTypeOf {t : MediaType} (h : mediaTypeOf line = some t) :
    isLineType line 'm' = true ∧ isLine line = true := by
  have hprefix := List.find?_some h
  rw [List.isPrefixOf_iff_prefix] at hprefix
  obtain ⟨rest, rfl⟩ := hprefix
  cases t <;> exact ⟨rfl, rfl⟩

/-- The lines from where the parser stops. `inSection` says that it is in a section it reads. -/
def stopLines : Bool → List Text → List Text
  | _, [] => []
  | _, [last] => [last]
  | inSection, line :: next :: lines =>
    if isLineType line 'm' then
      if isLine line then stopLines (mediaTypeOf line).isSome (next :: lines)
      else line :: next :: lines
    else if inSection then stopLines true (next :: lines)
    else line :: next :: lines

/-- Every m-line that is not supported is followed by an m-line, unless no supported one stands
behind it, and it is a line. -/
def SectionsFollow (lines : List Text) : Prop :=
  ∀ line after, line :: after <:+ lines → isLineType line 'm' = true → mediaTypeOf line = none →
    supportedTypes after ≠ [] →
    isLine line = true ∧ ∃ next ∈ after.head?, isLineType next 'm' = true

/-- The text behind the last line break is no supported m-line. -/
def LastUnsupported (lines : List Text) : Prop :=
  ∀ last ∈ lines.getLast?, mediaTypeOf last = none

theorem sectionsFollow_cons {line : Text} {lines : List Text} :
    SectionsFollow (line :: lines) ↔ SectionsFollow lines ∧
      (isLineType line 'm' = true → mediaTypeOf line = none → supportedTypes lines ≠ [] →
        isLine line = true ∧ ∃ next ∈ lines.head?, isLineType next 'm' = true) := by
  constructor
  · intro h
    exact ⟨fun l after hs => h l after (hs.trans (List.suffix_cons line lines)),
      h line lines List.suffix_rfl⟩
  · rintro ⟨hlines, hline⟩ l after hs
    rcases List.suffix_cons_iff.mp hs with heq | hs
    · obtain ⟨rfl, rfl⟩ := List.cons.inj heq
      exact hline
    · exact hlines l after hs

theorem sectionsFollow_nil : SectionsFollow [] := by
  intro line after hs
  exact absurd (List.suffix_nil.mp hs) (List.cons_ne_nil _ _)

instance decidableSectionsFollow : (lines : List Text) → Decidable (SectionsFollow lines)
  | [] => isTrue sectionsFollow_nil
  | _ :: lines =>
    have := decidableSectionsFollow lines
    decidable_of_iff _ sectionsFollow_cons.symm

instance (lines : List Text) : Decidable (LastUnsupported lines) :=
  inferInstanceAs (Decidable (∀ last ∈ lines.getLast?, mediaTypeOf last = none))

variable {lines : List Text}

theorem supportedTypes_eq_nil :
    supportedTypes lines = [] ↔ ∀ line ∈ lines, mediaTypeOf line = none :=
  List.filterMap_eq_nil_iff

theorem lastUnsupported_cons_cons {line next : Text} :
    LastUnsupported (line :: next :: lines) ↔ LastUnsupported (next :: lines) := by
  rw [LastUnsupported, List.getLast?_cons_cons]
  rfl

/-- The parser reads on from here, in a section or at the beginning of one, and loses nothing. -/
def ReadsOn (inSection : Bool) (lines : List Text) : Prop :=
  SectionsFollow lines ∧ LastUnsupported lines ∧ (inSection = false → supportedTypes lines ≠ [] →
    ∃ line ∈ lines.head?, isLineType line 'm' = true)

theorem readsOn_of_supportedTypes_nil (h : supportedTypes lines = [])
    (inSection : Bool) : ReadsOn inSection lines := by
  refine ⟨fun line after hs _ _ hne => absurd ?_ hne, fun last hlast => ?_,
    fun _ hne => absurd h hne⟩
  · rw [supportedTypes_eq_nil] at h ⊢
    exact fun l hl => h l (hs.subset (List.mem_cons_of_mem _ hl))
  · rw [supportedTypes_eq_nil] at h
    exact h last (List.mem_of_mem_getLast? hlast)

/-- **Nothing is lost behind the place where the parser stops.** The induction is on the lines, in a
section or not. -/
theorem stopLines_none_iff (inSection : Bool) (lines : List Text) :
    supportedTypes (stopLines inSection lines) = [] ↔ ReadsOn inSection lines := by
  induction inSection, lines using stopLines.induct with
  | case1 inSection =>
    rw [stopLines]
    exact ⟨fun h => readsOn_of_supportedTypes_nil h _, fun _ => rfl⟩
  | case2 inSection last =>
    rw [stopLines]
    refine ⟨fun h => readsOn_of_supportedTypes_nil h _, fun h => ?_⟩
    rw [supportedTypes_eq_nil, List.forall_mem_singleton]
    exact h.2.1 last rfl
  | case3 inSection line next lines hm hl ih =>
    rw [stopLines, if_pos hm, if_pos hl, ih, ReadsOn, ReadsOn,
      @sectionsFollow_cons line (next :: lines), lastUnsupported_cons_cons]
    constructor
    · rintro ⟨hfollow, hlast, hhead⟩
      refine ⟨⟨hfollow, fun _ hnone hne => ⟨hl, hhead ?_ hne⟩⟩, hlast, fun _ _ => ⟨line, rfl, hm⟩⟩
      rw [hnone]
      rfl
    · rintro ⟨⟨hfollow, hline⟩, hlast, -⟩
      refine ⟨hfollow, hlast, fun hnone hne => (hline hm ?_ hne).2⟩
      exact Option.isSome_eq_false_iff.mp hnone |> Option.isNone_iff_eq_none.mp
  | case4 inSection line next lines hm hl =>
    rw [stopLines, if_pos hm, if_neg hl]
    refine ⟨fun h => readsOn_of_supportedTypes_nil h _, fun h => ?_⟩
    -- an m-line that is no line is not supported, and nothing may stand behind it
    have hnone : mediaTypeOf line = none := by
      cases ht : mediaTypeOf line with
      | none => rfl
      | some t => exact absurd (isLine_of_mediaTypeOf ht).2 hl
    rw [supportedTypes, List.filterMap_cons_none hnone]
    by_contra hne
    exact hl ((sectionsFollow_cons.mp h.1).2 hm hnone hne).1
  | case5 line next lines hm ih =>
    rw [stopLines, if_neg hm, if_pos rfl, ih, ReadsOn, ReadsOn,
      @sectionsFollow_cons line (next :: lines), lastUnsupported_cons_cons]
    constructor
    · rintro ⟨hfollow, hlast, -⟩
      exact ⟨⟨hfollow, fun h => absurd h hm⟩, hlast, nofun⟩
    · rintro ⟨⟨hfollow, -⟩, hlast, -⟩
      exact ⟨hfollow, hlast, nofun⟩
  | case6 inSection line next lines hm hs =>
    rw [stopLines, if_neg hm, if_neg hs]
    refine ⟨fun h => readsOn_of_supportedTypes_nil h _, fun h => ?_⟩
    by_contra hne
    obtain ⟨head, hhead, hmedia⟩ := h.2.2 (Bool.eq_false_iff.mpr hs) hne
    obtain rfl := Option.some.inj hhead
    exact hm hmedia

variable {line : Text} {lines : List Text}

theorem stopLines_of_head (hm : isLineType line 'm' = true)
    (a b : Bool) : stopLines a (line :: lines) = stopLines b (line :: lines) := by
  cases lines with
  | nil => rw [stopLines, stopLines]
  | cons next lines => rw [stopLines, stopLines, if_pos hm, if_pos hm]

theorem stopLines_media (hm : isLineType line 'm' = true) (hl : isLine line = true)
    (inSection : Bool) (hne : lines ≠ []) :
    stopLines inSection (line :: lines) = stopLines (mediaTypeOf line).isSome lines := by
  obtain ⟨next, lines, rfl⟩ := List.exists_cons_of_ne_nil hne
  rw [stopLines, if_pos hm, if_pos hl]

theorem stopLines_body (hm : isLineType line 'm' = false)
    (hne : lines ≠ []) : stopLines true (line :: lines) = stopLines true lines := by
  obtain ⟨next, lines, rfl⟩ := List.exists_cons_of_ne_nil hne
  rw [stopLines, if_neg (by simp [hm]), if_pos rfl]

variable {text : Text}

theorem stopLines_of_none (h : getLineWithType text 'm' = none) :
    stopLines false (textLines text) = textLines text := by
  unfold getLineWithType at h
  split at h
  · rcases textLines_of_getLine_none h with heq | ⟨line, lines, heq, hline⟩
    · rw [heq, stopLines]
    · rw [heq]
      cases lines with
      | nil => rw [stopLines]
      | cons next lines =>
        rw [stopLines]
        split
        · rw [if_neg (by simp [hline])]
        · rw [if_neg Bool.false_ne_true]
  · rename_i hm
    obtain ⟨line, lines, heq, htype⟩ := head_textLines text
    have hnot : ¬ isLineType line 'm' = true := by rw [htype 'm' (by decide)]; exact hm
    rw [heq]
    cases lines with
    | nil => rw [stopLines]
    | cons next lines => rw [stopLines, if_neg hnot, if_neg Bool.false_ne_true]

/-! ## Contents -/

theorem Parsed.bind_ok {α β : Type} {x : Parsed α} {f : α → Parsed β} {r : β}
    (h : (x >>= f) = .ok r) : ∃ a, x = .ok a ∧ f a = .ok r := by
  cases x with
  | error e => cases h
  | ok a => exact ⟨a, rfl, h⟩

variable {α : Type}

theorem parseFailedAt_ne_ok {message rest description : Text} {r : α} :
    parseFailedAt message rest description ≠ .ok r := by
  unfold parseFailedAt
  split <;> nofun

theorem toOption_eq_some {x : Parsed α} {a : α} : x.toOption = some a ↔ x = .ok a := by
  cases x with
  | error e => exact iff_of_false nofun nofun
  | ok b => exact ⟨fun h => congrArg _ (Option.some.inj h), fun h => congrArg _ (Except.ok.inj h)⟩

section

variable {inet : InetText} {sort : CodecSort}

variable {randomAppdata : U32 → Text} {type : MediaType} {codecPreference : List I32}
  {s s' : ContentState}

theorem parseContentAttribute_type {line : Text} {a : Option ContentAttribute}
    (h : parseContentAttribute inet randomAppdata type codecPreference line s a = .ok s') :
    s'.description.type = s.description.type := by
  rcases a with _ | a
  · obtain rfl := Except.ok.inj h
    rfl
  · cases a with
    | rtcpMux =>
      obtain rfl := Except.ok.inj h
      rfl
    | direction d =>
      obtain rfl := Except.ok.inj h
      rfl
    -- the others set fields to what a parser of the line returns
    | _ =>
      obtain ⟨v, -, hv⟩ := Parsed.bind_ok h
      obtain rfl := Except.ok.inj hv
      rfl

theorem parseContentLine_type {line : Text}
    (h : parseContentLine inet randomAppdata type codecPreference line s = .ok s') :
    s'.description.type = s.description.type := by
  unfold parseContentLine at h
  split at h
  · split at h
    · obtain ⟨v, -, hv⟩ := Parsed.bind_ok h
      obtain rfl := Except.ok.inj hv
      rfl
    · obtain rfl := Except.ok.inj h
      rfl
  · split at h
    · obtain rfl := Except.ok.inj h
      rfl
    · exact parseContentAttribute_type h

variable {mlineIndex : Int}

variable {candidates : List JsepIceCandidate}

theorem finishContent_type (h : finishContent type mlineIndex s = .ok (s', candidates)) :
    s'.description.type = s.description.type := by
  unfold finishContent at h
  dsimp only at h
  split at h
  · cases h
  · obtain ⟨rfl, -⟩ := Prod.mk.inj (Except.ok.inj h)
    rfl

variable {message : Text}

variable {fuel : Nat}

/-- **The lines of a section are read up to the next m-line.** -/
theorem parseContentLines_stop {rest rest' : Text} (hfuel : rest.length ≤ fuel)
    (h : parseContentLines inet randomAppdata type codecPreference message fuel rest s =
      .ok (s', rest')) :
    stopLines true (textLines rest) = stopLines false (textLines rest') ∧
      (∃ body, textLines rest = body ++ textLines rest' ∧
        ∀ line ∈ body, isLineType line 'm' = false) ∧
      s'.description.type = s.description.type ∧ rest'.length ≤ rest.length := by
  have hnobody : ∀ line ∈ ([] : List Text), isLineType line 'm' = false := List.forall_mem_nil _
  induction fuel generalizing rest s with
  | zero =>
    obtain rfl := List.eq_nil_of_length_eq_zero (Nat.le_zero.mp hfuel)
    obtain ⟨rfl, rfl⟩ := Prod.mk.inj (Except.ok.inj h)
    exact ⟨rfl, ⟨[], rfl, hnobody⟩, rfl, Nat.le_refl _⟩
  | succ fuel ih =>
    rw [parseContentLines] at h
    split at h
    · rename_i hm
      obtain ⟨rfl, rfl⟩ := Prod.mk.inj (Except.ok.inj h)
      obtain ⟨line, lines, heq, htype⟩ := head_textLines rest
      rw [heq]
      exact ⟨stopLines_of_head ((htype 'm' (by decide)).trans hm) _ _, ⟨[], rfl, hnobody⟩, rfl,
        Nat.le_refl _⟩
    · rename_i hm
      split at h
      · split at h
        · rename_i hnil
          subst hnil
          obtain ⟨rfl, rfl⟩ := Prod.mk.inj (Except.ok.inj h)
          exact ⟨rfl, ⟨[], rfl, hnobody⟩, rfl, Nat.le_refl _⟩
        · exact absurd h parseFailedAt_ne_ok
      · rename_i line rest₁ hget
        obtain ⟨s₁, hstep, hrest⟩ := Parsed.bind_ok h
        obtain ⟨heq, -, hlen, htype⟩ := textLines_of_getLine hget
        have hnot : isLineType line 'm' = false := by
          rw [htype 'm' (by decide)]
          exact Bool.eq_false_iff.mpr hm
        obtain ⟨hstop, ⟨body, hbody, hbodyNot⟩, hdesc, hle⟩ := ih (by omega) hrest
        rw [heq, stopLines_body hnot (textLines_ne_nil rest₁)]
        refine ⟨hstop, ⟨line :: body, by rw [hbody, List.cons_append],
          List.forall_mem_cons.mpr ⟨hnot, hbodyNot⟩⟩, ?_, by omega⟩
        exact hdesc.trans (parseContentLine_type hstep)

/-- The kind of a content, and whether it is rejected. -/
def ContentInfo.mediaSection (c : ContentInfo) : MediaType × Bool :=
  (c.description.type, c.rejected)

variable {session : SessionPart} {desc desc' : SessionDescription}

theorem addSection_section {rejected : Bool} {protocol : Text}
    (h : addSection session s rejected protocol desc = .ok desc') :
    desc'.contents.map ContentInfo.mediaSection =
      desc.contents.map ContentInfo.mediaSection ++ [(s.description.type, rejected)] := by
  unfold addSection at h
  dsimp only at h
  split at h
  · cases h
  · unfold SessionDescription.addTransportInfo at h
    split at h
    · rename_i heq
      split at heq
      · cases heq
      · obtain rfl := Option.some.inj heq
        obtain rfl := Except.ok.inj h
        simp [ContentInfo.mediaSection]
    · cases h

theorem parseContent_stop {message rest rest' : Text}
    (h : parseContent inet randomAppdata type mlineIndex codecPreference message rest s =
      .ok (s', candidates, rest')) :
    stopLines true (textLines rest) = stopLines false (textLines rest') ∧
      supportedSections (textLines rest) = supportedSections (textLines rest') ∧
      s'.description.type = s.description.type ∧ rest'.length ≤ rest.length := by
  obtain ⟨⟨s₁, rest₁⟩, hlines, h⟩ := Parsed.bind_ok h
  obtain ⟨⟨s₂, candidates₂⟩, hfinish, h⟩ := Parsed.bind_ok h
  cases h
  obtain ⟨hstop, ⟨body, hbody, hnot⟩, htype, hle⟩ := parseContentLines_stop (Nat.le_refl _) hlines
  refine ⟨hstop, ?_, (finishContent_type hfinish).trans htype, hle⟩
  rw [hbody, supportedSections_append_of_not_media hnot]

variable {candidates' : List JsepIceCandidate}

/-- **The contents are the supported m-lines before the place where the parser stops.** -/
theorem parseMediaDescription_sections {randomAppdata : Int → U32 → Text} {rest : Text}
    (hfuel : rest.length ≤ fuel)
    (h : parseMediaDescription inet sort randomAppdata message session fuel mlineIndex rest desc
      candidates = .ok (desc', candidates')) :
    ∃ sections, desc'.contents.map ContentInfo.mediaSection =
        desc.contents.map ContentInfo.mediaSection ++ sections ∧
      supportedSections (textLines rest) =
        sections ++ supportedSections (stopLines false (textLines rest)) := by
  induction fuel generalizing mlineIndex rest desc candidates with
  | zero =>
    obtain rfl := List.eq_nil_of_length_eq_zero (Nat.le_zero.mp hfuel)
    obtain ⟨rfl, -⟩ := Prod.mk.inj (Except.ok.inj h)
    exact ⟨[], by simp, rfl⟩
  | succ fuel ih =>
    rw [parseMediaDescription] at h
    split at h
    · rename_i hget
      obtain ⟨rfl, -⟩ := Prod.mk.inj (Except.ok.inj h)
      exact ⟨[], by simp, by rw [stopLines_of_none hget]; rfl⟩
    · rename_i line rest₁ hget
      obtain ⟨hm, hline⟩ := getLineWithType_eq_some.mp hget
      obtain ⟨heq, hl, hlen, htype⟩ := textLines_of_getLine hline
      have hmedia : isLineType line 'm' = true := (htype 'm' (by decide)).trans hm
      have hne := textLines_ne_nil rest₁
      split at h
      · rename_i port protocol fmt fmts hfields
        dsimp only at h
        rw [← mediaTypeOf_eq hmedia] at h
        rw [heq, stopLines_media hmedia hl false hne, supportedSections]
        split at h
        · rename_i hnone
          obtain ⟨sections, hcontents, hsupported⟩ := ih (by omega) h
          have hsection : sectionOf line = none := by rw [sectionOf, hnone, Option.map_none]
          rw [hnone, List.filterMap_cons_none hsection]
          exact ⟨sections, hcontents, hsupported⟩
        · rename_i type hsome
          obtain ⟨⟨s, added, rest₂⟩, hcontent, h⟩ := Parsed.bind_ok h
          obtain ⟨desc₁, hadd, h⟩ := Parsed.bind_ok h
          dsimp only at h
          obtain ⟨hstop, hsame, hdesc, hle⟩ := parseContent_stop hcontent
          obtain ⟨sections, hcontents, hsupported⟩ := ih (by omega) h
          have hadded := addSection_section hadd
          have hsection : sectionOf line = some (type, decide (port = kMediaPortRejected)) := by
            rw [sectionOf, hsome, Option.map_some, isRejectedLine, hfields]
            simp
          refine ⟨(type, decide (port = kMediaPortRejected)) :: sections, ?_, ?_⟩
          · rw [hcontents, hadded]
            simp only [MediaContentDescription.sortCodecs, hdesc, MediaContentDescription.new,
              List.append_assoc, List.singleton_append]
          · rw [hsome, List.filterMap_cons_some hsection, Option.isSome_some, hstop]
            rw [supportedSections] at hsame
            rw [hsame]
            exact congrArg (List.cons _) hsupported
      · exact absurd h parseFailedAt_ne_ok

/-- The contents are the supported m-lines before that. -/
theorem parseMediaDescription_types {randomAppdata : Int → U32 → Text} {rest : Text}
    (hfuel : rest.length ≤ fuel)
    (h : parseMediaDescription inet sort randomAppdata message session fuel mlineIndex rest desc
      candidates = .ok (desc', candidates')) :
    ∃ types, desc'.contents.map (fun c => c.description.type) =
        desc.contents.map (fun c => c.description.type) ++ types ∧
      supportedTypes (textLines rest) =
        types ++ supportedTypes (stopLines false (textLines rest)) := by
  obtain ⟨sections, hcontents, hsupported⟩ := parseMediaDescription_sections hfuel h
  refine ⟨sections.map Prod.fst, ?_, ?_⟩
  · have hmap := congrArg (List.map Prod.fst) hcontents
    rw [List.map_append, List.map_map, List.map_map] at hmap
    exact hmap
  · rw [← map_fst_supportedSections, hsupported, List.map_append, map_fst_supportedSections]

end

/-! ## The session -/

/-- The lines that may stand behind a line of the session; `none` is the beginning. -/
def followers : Option Char → List Char
  | none => ['v']
  | some 'v' => ['o']
  | some 'o' => ['s']
  | some 's' => ['i', 'u', 'e', 'p', 'c', 'b', 't']
  | some 'i' => ['u', 'e', 'p', 'c', 'b', 't']
  | some 'u' => ['e', 'p', 'c', 'b', 't']
  | some 'e' => ['p', 'c', 'b', 't']
  | some 'p' => ['c', 'b', 't']
  | some 'c' => ['b', 't']
  | some 'b' => ['b', 't']
  | some 't' => ['r', 't', 'z', 'k', 'a']
  | some 'r' => ['r', 't', 'z', 'k', 'a']
  | some 'z' => ['k', 'a']
  | some 'k' => ['a']
  | some 'a' => ['a']
  | some _ => []

variable {x : Option Char}

theorem followers_ne {y : Char} (h : y ∈ followers x) : y ≠ 'm' ∧ y ≠ '\n' := by
  have hall : ∀ z ∈ followers x, z ≠ 'm' ∧ z ≠ '\n' := by
    unfold followers
    split <;> simp
  exact hall y h

/-- The lines up to the first m-line each follow the one before. -/
def sessionOrder : Option Char → List Text → Bool
  | _, [] => false
  | x, line :: lines =>
    if isLineType line 'm' then true
    else isLine line && (followers x).any (isLineType line) && sessionOrder line.head? lines

/-- The parser takes lines as long as each follows the one before. -/
inductive SessionReads : Option Char → Text → Text → Prop where
  | stop {x : Option Char} {text : Text} (h : ∀ y ∈ followers x, getLineWithType text y = none) :
      SessionReads x text text
  | step {x : Option Char} {y : Char} {text line rest text' : Text} (hy : y ∈ followers x)
      (hget : getLineWithType text y = some (line, rest)) (h : SessionReads (some y) rest text') :
      SessionReads x text text'

namespace SessionReads

theorem widen {x y : Option Char} {text text' : Text} (hsub : ∀ c ∈ followers y, c ∈ followers x)
    (hnone : ∀ c ∈ followers x, c ∉ followers y → getLineWithType text c = none)
    (h : SessionReads y text text') : SessionReads x text text' := by
  cases h with
  | stop hstop =>
    refine .stop fun c hc => ?_
    by_cases hmem : c ∈ followers y
    · exact hstop c hmem
    · exact hnone c hc hmem
  | step hy hget hrest => exact .step (hsub _ hy) hget hrest

theorem of_followers_eq {x y : Option Char} {text text' : Text} (heq : followers y = followers x)
    (h : SessionReads y text text') : SessionReads x text text' :=
  h.widen (fun _ hc => heq ▸ hc) fun _ hc hn => absurd (heq ▸ hc) hn

theorem skipLine {x : Option Char} (type : Char) {text text' : Text} {before : List Char}
    (heq : followers x = before ++ type :: followers (some type))
    (hbefore : ∀ c ∈ before, getLineWithType text c = none)
    (h : SessionReads (some type) (Sdp.skipLine type text) text') : SessionReads x text text' := by
  unfold Sdp.skipLine at h
  cases hget : getLineWithType text type with
  | some r =>
    rw [hget] at h
    exact .step (by simp [heq]) hget h
  | none =>
    rw [hget] at h
    refine h.widen (fun c hc => by simp [heq, hc]) fun c hc hn => ?_
    rw [heq, List.mem_append, List.mem_cons] at hc
    rcases hc with hc | rfl | hc
    · exact hbefore c hc
    · exact hget
    · exact absurd hc hn

theorem skipLines {type : Char} (htype : type ∈ followers (some type)) (fuel : Nat)
    {text text' : Text} (h : SessionReads (some type) (Sdp.skipLines type fuel text) text') :
    SessionReads (some type) text text' := by
  induction fuel generalizing text with
  | zero => exact h
  | succ fuel ih =>
    rw [Sdp.skipLines] at h
    split at h
    · rename_i line rest hget
      exact .step htype hget (ih h)
    · exact h

theorem skipTimes (fuel : Nat) {text text' : Text}
    (h : SessionReads (some 'r') (Sdp.skipTimes fuel text) text') :
    SessionReads (some 'r') text text' := by
  induction fuel generalizing text with
  | zero => exact h
  | succ fuel ih =>
    rw [Sdp.skipTimes] at h
    split at h
    · rename_i line rest hget
      have hrest := skipLines (by decide) _ (ih h)
      exact .step (by decide) hget (@of_followers_eq (some 't') (some 'r') _ _ rfl hrest)
    · exact h

end SessionReads

theorem getLineWithType_nil (type : Char) : getLineWithType [] type = none := rfl

theorem skipLines_length (type : Char) (fuel : Nat) (text : Text) :
    (skipLines type fuel text).length ≤ text.length := by
  induction fuel generalizing text with
  | zero => exact Nat.le_refl _
  | succ fuel ih =>
    rw [skipLines]
    split
    · rename_i line rest hget
      exact Nat.le_trans (ih rest) (Nat.le_of_lt (getLineWithType_length hget))
    · exact Nat.le_refl _

theorem skipLines_none {type : Char} {fuel : Nat} {text : Text} (hfuel : text.length ≤ fuel) :
    getLineWithType (skipLines type fuel text) type = none := by
  induction fuel generalizing text with
  | zero =>
    rw [List.eq_nil_of_length_eq_zero (Nat.le_zero.mp hfuel)]
    exact getLineWithType_nil type
  | succ fuel ih =>
    rw [skipLines]
    split
    · rename_i line rest hget
      have hlen := getLineWithType_length hget
      exact ih (by omega)
    · rename_i hget
      exact hget

variable {fuel : Nat}

theorem skipTimes_none (hfuel : text.length ≤ fuel) (hr : getLineWithType text 'r' = none) :
    getLineWithType (skipTimes fuel text) 'r' = none ∧
      getLineWithType (skipTimes fuel text) 't' = none := by
  induction fuel generalizing text with
  | zero =>
    rw [List.eq_nil_of_length_eq_zero (Nat.le_zero.mp hfuel)]
    exact ⟨getLineWithType_nil _, getLineWithType_nil _⟩
  | succ fuel ih =>
    rw [skipTimes]
    split
    · rename_i line rest hget
      have hlen := getLineWithType_length hget
      have hle := skipLines_length 'r' rest.length rest
      exact ih (by omega) (skipLines_none (Nat.le_refl _))
    · rename_i hget
      exact ⟨hr, hget⟩

theorem parseSessionLines_reads {text text' : Text} {s s' : SessionPart}
    (hfuel : text.length ≤ fuel) (h : parseSessionLines fuel text s = .ok (s', text')) :
    SessionReads (some 'a') text text' := by
  induction fuel generalizing text s with
  | zero =>
    obtain ⟨-, rfl⟩ := Prod.mk.inj (Except.ok.inj h)
    rw [List.eq_nil_of_length_eq_zero (Nat.le_zero.mp hfuel)]
    exact .stop fun y _ => getLineWithType_nil y
  | succ fuel ih =>
    rw [parseSessionLines] at h
    split at h
    · rename_i hget
      obtain ⟨-, rfl⟩ := Prod.mk.inj (Except.ok.inj h)
      refine .stop fun y hy => ?_
      obtain rfl := List.mem_singleton.mp hy
      exact hget
    · rename_i line rest hget
      obtain ⟨s₁, -, hrest⟩ := Parsed.bind_ok h
      have hlen := getLineWithType_length hget
      exact .step (by decide) hget (ih (by omega) hrest)

theorem expectLine_ok {message text line rest : Text} {type : Char}
    (h : expectLine message text type = .ok (line, rest)) :
    getLineWithType text type = some (line, rest) := by
  unfold expectLine at h
  split at h
  · rename_i r hget
    obtain rfl := Except.ok.inj h
    exact hget
  · exact absurd h parseFailedAt_ne_ok

/-- **The lines before the first section are taken in their order.** -/
theorem parseSessionDescription_reads {message text : Text} {session : SessionPart}
    (h : parseSessionDescription message = .ok (session, text)) :
    SessionReads none message text := by
  obtain ⟨⟨_, rest⟩, hv, h⟩ := Parsed.bind_ok h
  obtain ⟨⟨origin, rest₁⟩, ho, h⟩ := Parsed.bind_ok h
  dsimp only at h
  split at h
  · obtain ⟨⟨_, rest₂⟩, hs, h⟩ := Parsed.bind_ok h
    dsimp only at h
    obtain ⟨⟨_, rest₃⟩, ht, h⟩ := Parsed.bind_ok h
    dsimp only at h
    refine .step (by decide) (expectLine_ok hv) (.step (by decide) (expectLine_ok ho)
      (.step (by decide) (expectLine_ok hs) ?_))
    refine .skipLine 'i' rfl (List.forall_mem_nil _) (.skipLine 'u' rfl (List.forall_mem_nil _)
      (.skipLine 'e' rfl (List.forall_mem_nil _) (.skipLine 'p' rfl (List.forall_mem_nil _)
      (.skipLine 'c' rfl (List.forall_mem_nil _) ?_))))
    refine @SessionReads.of_followers_eq _ (some 'b') _ _ rfl
      (.skipLines (by decide) _ (.step (by decide) (expectLine_ok ht) ?_))
    have hnone := skipTimes_none (Nat.le_refl _)
      (@skipLines_none 'r' rest₃.length rest₃ (Nat.le_refl _))
    have hattributes := parseSessionLines_reads (Nat.le_refl _) h
    refine @SessionReads.of_followers_eq _ (some 'r') _ _ rfl
      (.skipLines (by decide) rest₃.length
        (.skipTimes _ (@SessionReads.skipLine _ 'z' _ _ ['r', 't']
        rfl ?_ (.skipLine 'k' rfl (List.forall_mem_nil _)
          (@SessionReads.of_followers_eq _ (some 'a') _ _ rfl hattributes)))))
    simpa using hnone
  · exact absurd h parseFailedAt_ne_ok

/-- What the lines of the session say about the rest: it begins with an m-line exactly when they are
in order, and they are no sections themselves. -/
structure SameSections (x : Option Char) (text text' : Text) : Prop where
  order : sessionOrder x (textLines text) = isLineType text' 'm'
  supported : supportedTypes (textLines text) = supportedTypes (textLines text')
  follow : SectionsFollow (textLines text) ↔ SectionsFollow (textLines text')
  last : LastUnsupported (textLines text) ↔ LastUnsupported (textLines text')

theorem sessionOrder_of_stop (h : ∀ y ∈ followers x, getLineWithType text y = none) :
    sessionOrder x (textLines text) = isLineType text 'm' := by
  obtain ⟨line, lines, heq, htype⟩ := head_textLines text
  rw [heq, sessionOrder, htype 'm' (by decide)]
  by_cases hm : isLineType text 'm' = true
  · rw [if_pos hm, hm]
  · rw [if_neg hm, Bool.eq_false_iff.mpr hm, Bool.and_eq_false_iff, Bool.and_eq_false_iff]
    by_cases hany : (followers x).any (isLineType line) = true
    · obtain ⟨y, hy, hline⟩ := List.any_eq_true.mp hany
      -- a line of the right type is not there, so it is unfinished or no line
      have hget : getLine text = none := by
        have hnone := h y hy
        rwa [getLineWithType, if_pos (by rw [← htype y (followers_ne hy).2]; exact hline)] at hnone
      rcases textLines_of_getLine_none hget with hone | ⟨head, rest, hhead, hnot⟩
      · rw [heq] at hone
        rw [(List.cons.inj hone).2]
        exact .inr rfl
      · rw [heq] at hhead
        rw [(List.cons.inj hhead).1]
        exact .inl (.inl hnot)
    · exact .inl (.inr (Bool.eq_false_iff.mpr hany))

theorem textLines_of_follower {y : Char} {text line rest : Text}
    (hy : y ∈ followers x) (hget : getLineWithType text y = some (line, rest)) :
    textLines text = line :: textLines rest ∧ isLine line = true ∧ isLineType line y = true ∧
      isLineType line 'm' = false := by
  obtain ⟨hy', hline⟩ := getLineWithType_eq_some.mp hget
  obtain ⟨heq, hl, -, htype⟩ := textLines_of_getLine hline
  have hlineType : isLineType line y = true := (htype y (followers_ne hy).2).trans hy'
  refine ⟨heq, hl, hlineType, ?_⟩
  obtain ⟨value, rfl⟩ := isLineType_iff.mp hlineType
  rw [isLineType_cons]
  simp [(followers_ne hy).1]

theorem SessionReads.body {x : Option Char} {text text' : Text} (h : SessionReads x text text') :
    ∃ body, textLines text = body ++ textLines text' ∧
      ∀ line ∈ body, isLineType line 'm' = false := by
  induction h with
  | stop => exact ⟨[], rfl, List.forall_mem_nil _⟩
  | step hy hget _ ih =>
    obtain ⟨heq, -, -, hm⟩ := textLines_of_follower hy hget
    obtain ⟨body, hbody, hnot⟩ := ih
    exact ⟨_ :: body, by rw [heq, hbody, List.cons_append], List.forall_mem_cons.mpr ⟨hm, hnot⟩⟩

theorem SessionReads.sameSections {text text' : Text}
    (h : SessionReads x text text') : SameSections x text text' := by
  induction h with
  | stop hstop => exact ⟨sessionOrder_of_stop hstop, rfl, Iff.rfl, Iff.rfl⟩
  | @step x y text line rest text' hy hget _ ih =>
    obtain ⟨heq, hl, hlineType, hm⟩ := textLines_of_follower hy hget
    obtain ⟨value, hvalue⟩ := isLineType_iff.mp hlineType
    have hany : (followers x).any (isLineType line) = true :=
      List.any_eq_true.mpr ⟨y, hy, hlineType⟩
    have hhead : line.head? = some y := by
      rw [hvalue]
      rfl
    obtain ⟨next, lines, hnext⟩ := List.exists_cons_of_ne_nil (textLines_ne_nil rest)
    refine ⟨?_, ?_, ?_, ?_⟩
    · rw [heq, sessionOrder, if_neg (by simp [hm]), hl, hany, hhead, ih.order]
      rfl
    · rw [heq, supportedTypes_cons_of_not_media hm, ih.supported]
    · rw [heq, sectionsFollow_cons, ih.follow]
      exact and_iff_left fun htrue => absurd htrue (by simp [hm])
    · rw [heq, hnext, lastUnsupported_cons_cons, ← hnext, ih.last]

/-! ## Messages -/

theorem addCandidate_description (d : JsepSessionDescription) (c : JsepIceCandidate) :
    (d.addCandidate c).description = d.description := by
  unfold JsepSessionDescription.addCandidate
  repeat' split
  all_goals rfl

theorem addCandidates_description (candidates : List JsepIceCandidate)
    (d : JsepSessionDescription) :
    (candidates.foldl JsepSessionDescription.addCandidate d).description = d.description := by
  induction candidates generalizing d with
  | nil => rfl
  | cons c candidates ih => rw [List.foldl_cons, ih, addCandidate_description]

/-- The order of the lines in which every supported m-line is reached: those of the session stand in
their order, an m-line that is not supported has no lines of its own, and the last m-line ends with
a line break. -/
structure SectionsInOrder (lines : List Text) : Prop where
  session : supportedTypes lines ≠ [] → sessionOrder none lines = true
  follow : SectionsFollow lines
  last : LastUnsupported lines

instance (lines : List Text) : Decidable (SectionsInOrder lines) :=
  decidable_of_iff ((supportedTypes lines ≠ [] → sessionOrder none lines = true) ∧
    SectionsFollow lines ∧ LastUnsupported lines)
    ⟨fun h => ⟨h.1, h.2.1, h.2.2⟩, fun h => ⟨h.1, h.2, h.3⟩⟩

/-- **Every supported m-line becomes a content exactly when the lines stand in order.** -/
theorem sections_kept_iff (inet : InetText) (sort : CodecSort)
    (randomAppdata : Int → U32 → Text) (message : Text) (d : JsepSessionDescription)
    (h : sdpDeserialize inet sort randomAppdata message = .ok d) :
    d.description.contents.map (fun c => c.description.type) = supportedTypes (textLines message) ↔
      SectionsInOrder (textLines message) := by
  obtain ⟨⟨session, rest⟩, hsession, h⟩ := Parsed.bind_ok h
  obtain ⟨⟨desc, candidates⟩, hmedia, h⟩ := Parsed.bind_ok h
  obtain rfl := Except.ok.inj h
  have hsame := (parseSessionDescription_reads hsession).sameSections
  obtain ⟨types, hcontents, hsupported⟩ := parseMediaDescription_types (Nat.le_refl _) hmedia
  have hhead : (∃ line ∈ (textLines rest).head?, isLineType line 'm' = true) ↔
      sessionOrder none (textLines message) = true := by
    obtain ⟨line, lines, heq, htype⟩ := head_textLines rest
    rw [hsame.order, heq, ← htype 'm' (by decide)]
    simp
  have hstop := stopLines_none_iff false (textLines rest)
  rw [ReadsOn, hhead, ← hsame.follow, ← hsame.last, ← hsame.supported] at hstop
  rw [addCandidates_description, JsepSessionDescription.ofDescription, hcontents, hsame.supported,
    hsupported]
  rw [List.map_nil, List.nil_append, List.self_eq_append_right, hstop]
  constructor
  · rintro ⟨hfollow, hlast, horder⟩
    exact ⟨horder rfl, hfollow, hlast⟩
  · rintro ⟨horder, hfollow, hlast⟩
    exact ⟨hfollow, hlast, fun _ => horder⟩

/-- A message with the given lines behind those of the session. -/
def sessionMessage (lines : List String) : Text :=
  message ((["v=0", "o=- 1 2 IN IP4 127.0.0.1", "s=-", "t=0 0"] ++ lines).map String.toList)

/-- A section that is not supported and has no lines of its own, and one that is read. -/
def imageThenAudio : Text :=
  sessionMessage ["m=image 1 udptl t38", "m=audio 1 RTP/AVPF 0", "a=sendrecv"]

theorem sections_kept_iff_imageThenAudio :
    ∃ d, sdpDeserialize dottedQuad stableCodecSort (fun _ _ => []) imageThenAudio = .ok d ∧
      d.description.contents.map (fun c => c.description.type) = [.audio] := by
  have hok : (sdpDeserialize dottedQuad stableCodecSort (fun _ _ => [])
      imageThenAudio).isOk = true := by
    decide +kernel
  cases hd : sdpDeserialize dottedQuad stableCodecSort (fun _ _ => []) imageThenAudio with
  | error e =>
    rw [hd] at hok
    cases hok
  | ok d =>
    refine ⟨d, rfl, ((sections_kept_iff _ _ _ _ d hd).mpr (by decide +kernel)).trans ?_⟩
    decide +kernel

theorem audio_lost_behind_image :
    ∃ d, sdpDeserialize dottedQuad stableCodecSort (fun _ _ => []) (sessionMessage
        ["m=image 1 udptl t38", "a=T38FaxVersion:0", "m=audio 1 RTP/AVPF 0"]) = .ok d ∧
      d.description.contents.map (fun c => c.description.type) ≠ supportedTypes (textLines
        (sessionMessage ["m=image 1 udptl t38", "a=T38FaxVersion:0", "m=audio 1 RTP/AVPF 0"])) := by
  refine ⟨⟨"1".toList, "2".toList, ⟨[], [], []⟩, []⟩, ?_, by decide +kernel⟩
  rfl

end Libjingle.Sdp
