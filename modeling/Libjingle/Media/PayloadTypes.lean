import Libjingle.Media.Codecs
import Libjingle.Lib.Objects

/-!
# Payload types in offers (`UsedPayloadTypes`, `GetCodecsToOffer`)

The table of used payload types is shared by the six passes over the three codec lists. What a pass
says about it is one list: the dynamic payload types handed out so far.

* `offered_codecs`: the lists of an offer.
-/

namespace Libjingle.Media

open Lib Sdp UsedPayloadTypes

/-! ## The table -/

/-- The dynamic payload types of a list of codecs. -/
def dynamicIds (codecs : List Codec) : List I32 := (codecs.map Codec.id).filter isDynamic

@[simp] theorem dynamicIds_nil : dynamicIds [] = [] := rfl

theorem dynamicIds_cons (c : Codec) (codecs : List Codec) :
    dynamicIds (c :: codecs) = dynamicIds [c] ++ dynamicIds codecs := by
  rw [dynamicIds, List.map_cons, ← List.singleton_append, List.filter_append]
  rfl

theorem dynamicIds_append (a b : List Codec) :
    dynamicIds (a ++ b) = dynamicIds a ++ dynamicIds b := by
  rw [dynamicIds, List.map_append, List.filter_append]
  rfl

theorem isDynamic_iff (t : I32) : isDynamic t = true ↔ t ∈ dynamicPayloadTypes := by
  have hmem : t ∈ dynamicPayloadTypes ↔ ∃ i < 32, BitVec.ofNat 32 (127 - i) = t := by
    simp [dynamicPayloadTypes]
  rw [hmem, isDynamic, Bool.and_eq_true, decide_eq_true_eq, decide_eq_true_eq]
  constructor
  · rintro ⟨hlo, hhi⟩
    have hnat : t.toInt = t.toNat := by
      rw [BitVec.toInt_eq_toNat_cond] at hlo hhi ⊢
      have := t.isLt
      split at hlo <;> omega
    refine ⟨127 - t.toNat, by omega, BitVec.eq_of_toNat_eq ?_⟩
    rw [BitVec.toNat_ofNat]
    omega
  · rintro ⟨i, hi, rfl⟩
    have hnat : (BitVec.ofNat 32 (127 - i)).toInt = 127 - i := by
      rw [BitVec.toInt_eq_toNat_cond, BitVec.toNat_ofNat]
      split <;> omega
    omega

/-- The table has an entry for exactly the payload types `ids`, each of them once. -/
structure Tracks (u : UsedPayloadTypes) (ids : List I32) : Prop where
  nodup : ids.Nodup
  dynamic : ∀ t ∈ ids, isDynamic t = true
  used : ∀ t, isDynamic t = true → (u t ≠ 0 ↔ t ∈ ids)

namespace Tracks

variable {u : UsedPayloadTypes} {ids : List I32}

theorem new : Tracks .new [] :=
  ⟨List.nodup_nil, nofun, fun _ _ => ⟨fun h => (h rfl).elim, nofun⟩⟩

theorem findUnused (h : Tracks u ids) (hfew : ids.length < 32) :
    isDynamic u.findUnusedPayloadType = true ∧ u.findUnusedPayloadType ∉ ids := by
  have hfree : ∃ t ∈ dynamicPayloadTypes, u t = 0 := by
    obtain ⟨t, ht, hnew⟩ := exists_notMem_of_length_lt ids
      (show dynamicPayloadTypes.Nodup by decide) hfew
    exact ⟨t, ht, not_not.mp fun h0 => hnew ((h.used t ((isDynamic_iff t).mpr ht)).mp h0)⟩
  obtain ⟨t, ht⟩ : ∃ t, dynamicPayloadTypes.find? (fun t => u t = 0) = some t := by
    obtain ⟨t, hmem, h0⟩ := hfree
    exact Option.isSome_iff_exists.mp (List.find?_isSome.mpr ⟨t, hmem, decide_eq_true h0⟩)
  have heq : u.findUnusedPayloadType = t := by
    rw [findUnusedPayloadType, findPayloadType, ht, Option.getD_some]
  have hdyn : isDynamic t = true := (isDynamic_iff t).mpr (List.mem_of_find?_eq_some ht)
  have h0 : u t = 0 := by simpa using List.find?_some ht
  rw [heq]
  exact ⟨hdyn, fun hmem => (h.used t hdyn).mpr hmem h0⟩

theorem setUsed (h : Tracks u ids) {new original : I32} (hdyn : isDynamic new = true)
    (hnew : new ∉ ids) (horig : original ≠ 0) :
    Tracks (u.setPayloadTypeUsed new original) (ids ++ [new]) := by
  refine ⟨?_, ?_, ?_⟩
  · exact List.nodup_append.mpr ⟨h.nodup, List.nodup_singleton _, fun a ha b hb hab =>
      hnew (List.mem_singleton.mp hb ▸ hab ▸ ha)⟩
  · intro t ht
    rcases List.mem_append.mp ht with ht | ht
    · exact h.dynamic t ht
    · exact List.mem_singleton.mp ht ▸ hdyn
  · intro t ht
    rw [setPayloadTypeUsed, if_pos hdyn, List.mem_append, List.mem_singleton]
    by_cases heq : t = new
    · subst heq
      rw [Function.update_self]
      exact ⟨fun _ => .inr rfl, fun _ => horig⟩
    · rw [Function.update_of_ne heq, h.used t ht]
      exact ⟨.inl, fun hor => hor.resolve_right heq⟩

end Tracks

theorem ne_zero_of_isDynamic {t : I32} (h : isDynamic t = true) : t ≠ 0 := by
  rintro rfl
  exact absurd h (by decide)

/-! ## One codec -/

/-- A codec as it was, but for its payload type. -/
def SameButId (c c' : Codec) : Prop := c' = { c with id := c'.id }

/-- **One codec is added to the table.** It stays static or dynamic, and a payload type that is not
in use is kept. -/
theorem findAndSet_spec {u : UsedPayloadTypes} {ids : List I32} (h : Tracks u ids) (c : Codec)
    (hfew : ids.length + (dynamicIds [c]).length ≤ 32) :
    SameButId c (u.findAndSetPayloadTypeUsed c).1 ∧
      isDynamic (u.findAndSetPayloadTypeUsed c).1.id = isDynamic c.id ∧
      Tracks (u.findAndSetPayloadTypeUsed c).2
        (ids ++ dynamicIds [(u.findAndSetPayloadTypeUsed c).1]) ∧
      (c.id ∉ ids → (u.findAndSetPayloadTypeUsed c).1 = c) := by
  refine ⟨rfl, ?_⟩
  have hsingle : ∀ x : Codec, dynamicIds [x] = if isDynamic x.id then [x.id] else [] :=
    fun x => by rw [dynamicIds, List.map_singleton, List.filter_singleton, cond_eq_ite]
  simp only [findAndSetPayloadTypeUsed, hsingle, isPayloadTypeUsed] at hfew ⊢
  by_cases hdyn : isDynamic c.id = true
  · have hlt : ids.length < 32 := by
      rw [if_pos hdyn] at hfew
      exact hfew
    by_cases hused : c.id ∈ ids
    · obtain ⟨hnew, hfree⟩ := h.findUnused hlt
      have hne := (h.used _ hdyn).mpr hused
      simp only [hdyn, hne, hnew, Bool.true_and, ne_eq, not_false_eq_true, decide_true, if_true,
        true_and]
      exact ⟨h.setUsed hnew hfree (ne_zero_of_isDynamic hdyn), fun hno => (hno hused).elim⟩
    · have heq : u c.id = 0 := not_not.mp fun hne => hused ((h.used _ hdyn).mp hne)
      simp only [hdyn, heq, Bool.true_and, ne_eq, not_true_eq_false, decide_false, if_true,
        Bool.false_eq_true, if_false, true_and]
      exact ⟨h.setUsed hdyn hused (ne_zero_of_isDynamic hdyn), fun _ => trivial⟩
  · simp only [hdyn, Bool.false_and, Bool.false_eq_true, if_false, setPayloadTypeUsed,
      List.append_nil, true_and]
    exact ⟨h, fun _ => trivial⟩

/-! ## The loops -/

variable {c c' : Codec}

theorem dynamicIds_length_singleton (h : isDynamic c'.id = isDynamic c.id) :
    (dynamicIds [c']).length = (dynamicIds [c]).length := by
  simp only [dynamicIds, List.map_singleton, List.filter_singleton, h]
  cases isDynamic c.id <;> rfl

/-- **The codecs of the current description.** They keep their order and number of dynamic payload
types; all of them stay as they are when none of these was in use. -/
theorem setAll_spec {u : UsedPayloadTypes} {ids : List I32} (h : Tracks u ids)
    (codecs : List Codec) (hfew : ids.length + (dynamicIds codecs).length ≤ 32) :
    List.Forall₂ SameButId codecs (u.findAndSetPayloadTypesUsed codecs).1 ∧
      (dynamicIds (u.findAndSetPayloadTypesUsed codecs).1).length = (dynamicIds codecs).length ∧
      Tracks (u.findAndSetPayloadTypesUsed codecs).2
        (ids ++ dynamicIds (u.findAndSetPayloadTypesUsed codecs).1) ∧
      ((ids ++ dynamicIds codecs).Nodup → (u.findAndSetPayloadTypesUsed codecs).1 = codecs) := by
  induction codecs generalizing u ids with
  | nil =>
    refine ⟨.nil, rfl, ?_, fun _ => rfl⟩
    rw [findAndSetPayloadTypesUsed, dynamicIds_nil, List.append_nil]
    exact h
  | cons c codecs ih =>
    rw [dynamicIds_cons, List.length_append] at hfew
    obtain ⟨hsame, hdyn, htracks, hkeep⟩ := findAndSet_spec h c (by omega)
    have hone := dynamicIds_length_singleton hdyn
    have hfew' : (ids ++ dynamicIds [(u.findAndSetPayloadTypeUsed c).1]).length +
        (dynamicIds codecs).length ≤ 32 := by
      rw [List.length_append]
      omega
    obtain ⟨hsames, hlen, htracks', hkeeps⟩ := ih htracks hfew'
    simp only [findAndSetPayloadTypesUsed]
    refine ⟨.cons hsame hsames, ?_, ?_, ?_⟩
    · rw [dynamicIds_cons, dynamicIds_cons c codecs, List.length_append, List.length_append, hone,
        hlen]
    · rw [dynamicIds_cons, ← List.append_assoc]
      exact htracks'
    · intro hnodup
      rw [dynamicIds_cons, ← List.append_assoc] at hnodup
      have hc : (u.findAndSetPayloadTypeUsed c).1 = c := by
        by_cases hd : isDynamic c.id = true
        · refine hkeep fun hmem => ?_
          have hmem' : c.id ∈ dynamicIds [c] := List.mem_filter.mpr ⟨List.mem_cons_self, hd⟩
          exact (List.nodup_append.mp (List.nodup_append.mp hnodup).1).2.2 _ hmem _ hmem' rfl
        · exact hkeep fun hmem => hd (h.dynamic _ hmem)
      rw [hc] at hkeeps ⊢
      rw [hkeeps hnodup]

theorem matchesId_sameButId (hsame : SameButId c c')
    (hid : isDynamic c.id = false → c'.id = c.id) : matchesId c' c.id c.name = true := by
  unfold matchesId
  by_cases hstatic : c.id.toInt ≤ kMaxStaticPayloadId
  · rw [if_pos hstatic, decide_eq_true_eq]
    apply hid
    rw [isDynamic, Bool.and_eq_false_iff, decide_eq_false_iff_not, not_le]
    exact .inl (lt_of_le_of_lt hstatic (by decide))
  · rw [if_neg hstatic, hsame]
    exact decide_eq_true rfl

theorem codecMatches_sameButId (type : MediaType) (hsame : SameButId c c')
    (hid : isDynamic c.id = false → c'.id = c.id) : codecMatches type c' c = true := by
  have hmatch := matchesId_sameButId hsame hid
  cases type with
  | audio =>
    have hrest : c'.clockrate = c.clockrate ∧ c'.bitrate = c.bitrate ∧
        c'.channels = c.channels := by
      rw [hsame]
      exact ⟨rfl, rfl, rfl⟩
    simp [codecMatches, hmatch, hrest]
  | video => exact hmatch
  | data => exact hmatch

theorem hasMatchingCodec_append {type : MediaType} {codecs : List Codec}
    (h : hasMatchingCodec type codecs c = true) (more : List Codec) :
    hasMatchingCodec type (codecs ++ more) c = true := by
  rw [hasMatchingCodec, List.any_append, Bool.or_eq_true]
  exact .inl h

/-- **The factory's codecs.** Codecs are only appended, and in the end each codec of the factory has
one that matches it. -/
theorem addCodecs_spec (type : MediaType) {u : UsedPayloadTypes} {ids : List I32} (h : Tracks u ids)
    (reference offered : List Codec) (hfew : ids.length + (dynamicIds reference).length ≤ 32) :
    ∃ added, (addCodecsToOffer type reference offered u).1 = offered ++ added ∧
      (dynamicIds added).length ≤ (dynamicIds reference).length ∧
      Tracks (addCodecsToOffer type reference offered u).2 (ids ++ dynamicIds added) ∧
      ∀ c ∈ reference, hasMatchingCodec type (offered ++ added) c = true := by
  induction reference generalizing u ids offered with
  | nil =>
    refine ⟨[], (List.append_nil _).symm, Nat.le_refl _, ?_, List.forall_mem_nil _⟩
    rw [dynamicIds_nil, List.append_nil]
    exact h
  | cons c reference ih =>
    rw [dynamicIds_cons, List.length_append] at hfew
    simp only [addCodecsToOffer]
    by_cases hmatch : hasMatchingCodec type offered c = true
    · obtain ⟨added, hres, hlen, htracks, hall⟩ := ih h offered (by omega)
      rw [if_pos hmatch]
      refine ⟨added, hres, ?_, htracks, ?_⟩
      · rw [dynamicIds_cons, List.length_append]
        omega
      · intro x hx
        rcases List.mem_cons.mp hx with rfl | hx
        · exact hasMatchingCodec_append hmatch added
        · exact hall x hx
    · obtain ⟨hsame, hdyn, htracks, hkeep⟩ := findAndSet_spec h c (by omega)
      have hone := dynamicIds_length_singleton hdyn
      have hfew' : (ids ++ dynamicIds [(u.findAndSetPayloadTypeUsed c).1]).length +
          (dynamicIds reference).length ≤ 32 := by
        rw [List.length_append]
        omega
      obtain ⟨added, hres, hlen, htracks', hall⟩ :=
        ih htracks (offered ++ [(u.findAndSetPayloadTypeUsed c).1]) hfew'
      rw [if_neg hmatch]
      rw [List.append_assoc, List.singleton_append] at hres hall
      refine ⟨(u.findAndSetPayloadTypeUsed c).1 :: added, hres, ?_, ?_, ?_⟩
      · rw [dynamicIds_cons, dynamicIds_cons c, List.length_append, List.length_append]
        omega
      · rw [dynamicIds_cons, ← List.append_assoc]
        exact htracks'
      · intro x hx
        rcases List.mem_cons.mp hx with rfl | hx
        · rw [hasMatchingCodec, List.any_eq_true]
          refine ⟨_, List.mem_append_right _ List.mem_cons_self, ?_⟩
          refine codecMatches_sameButId type hsame fun hstatic => ?_
          rw [hkeep fun hmem => ?_]
          rw [h.dynamic _ hmem] at hstatic
          exact Bool.noConfusion hstatic
        · exact hall x hx

/-! ## The references of RTX codecs -/

/-- A codec as it was, but for the payload type that an RTX codec refers to. -/
def SameButApt (c c' : Codec) : Prop :=
  c' = { c with params := c'.params } ∧
    (c'.params = c.params ∨
      isRtxCodec c = true ∧ ∃ v, c'.params = c.params.set kCodecParamAssociatedPayloadType v)

theorem updateRtx_same (u : UsedPayloadTypes) (codecs : List Codec) :
    List.Forall₂ SameButApt codecs (u.updateRtxCodecs codecs) := by
  rw [updateRtxCodecs, List.forall₂_map_right_iff, List.forall₂_same]
  intro c _
  dsimp only
  split
  · rename_i hrtx
    split
    · exact ⟨rfl, .inr ⟨hrtx, _, rfl⟩⟩
    · exact ⟨rfl, .inl rfl⟩
  · exact ⟨rfl, .inl rfl⟩

theorem updateRtx_ids (u : UsedPayloadTypes) (codecs : List Codec) :
    (u.updateRtxCodecs codecs).map Codec.id = codecs.map Codec.id := by
  rw [updateRtxCodecs, List.map_map]
  refine List.map_congr_left fun c _ => ?_
  dsimp only [Function.comp]
  split
  · split <;> rfl
  · rfl

theorem codecMatches_sameButApt (type : MediaType) {o o' c : Codec} (h : SameButApt o o') :
    codecMatches type o' c = codecMatches type o c := by
  rw [h.1]
  rfl

theorem updateRtx_hasMatching (type : MediaType) (u : UsedPayloadTypes) (codecs : List Codec)
    (c : Codec) :
    hasMatchingCodec type (u.updateRtxCodecs codecs) c = hasMatchingCodec type codecs c := by
  have h := updateRtx_same u codecs
  generalize u.updateRtxCodecs codecs = codecs' at h
  induction h with
  | nil => rfl
  | cons hhead _ ih =>
    rw [hasMatchingCodec, List.any_cons, codecMatches_sameButApt type hhead, hasMatchingCodec,
      List.any_cons]
    exact congrArg _ ih

/-! ## The lists of an offer -/

/-- The codecs of the first content of each kind. -/
def currentCodecLists (current : Option SessionDescription) : CodecLists :=
  ⟨currentCodecs current .audio, currentCodecs current .video, currentCodecs current .data⟩

/-- A codec of the current description in an offer: its payload type may be another one, and so may
the one that an RTX codec refers to. -/
def Kept (c c' : Codec) : Prop :=
  ∃ id params, c' = { c with id := id, params := params } ∧
    (params = c.params ∨
      isRtxCodec c = true ∧ ∃ v, params = c.params.set kCodecParamAssociatedPayloadType v)

theorem Kept.of_same {c₁ c₂ c₃ : Codec} (h₁ : SameButId c₁ c₂) (h₂ : SameButApt c₂ c₃) :
    Kept c₁ c₃ := by
  refine ⟨c₂.id, c₃.params, ?_, ?_⟩
  · rw [h₂.1, h₁]
  · obtain ⟨-, h₂⟩ := h₂
    rw [h₁] at h₂
    exact h₂

theorem kept_of_same {l₁ l₂ l₃ : List Codec} (h₁ : List.Forall₂ SameButId l₁ l₂)
    (h₂ : List.Forall₂ SameButApt l₂ l₃) : List.Forall₂ Kept l₁ l₃ := by
  induction h₁ generalizing l₃ with
  | nil =>
    cases h₂
    exact .nil
  | cons hid _ ih =>
    cases h₂ with
    | cons hapt h₂ => exact .cons (Kept.of_same hid hapt) (ih h₂)

/-- What one list of an offer is to the current codecs `current`, which the table has turned into
`renumbered`, and to those of the factory. -/
structure ListSpec (type : MediaType) (current renumbered added reference offered : List Codec) :
    Prop where
  ids : offered.map Codec.id = (renumbered ++ added).map Codec.id
  kept : List.Forall₂ Kept current (offered.take current.length)
  complete : ∀ c ∈ reference, hasMatchingCodec type offered c = true

theorem findCodecsToOffer_spec (type : MediaType) {u : UsedPayloadTypes} {ids : List I32}
    (h : Tracks u ids) {current renumbered : List Codec}
    (hsame : List.Forall₂ SameButId current renumbered) (reference : List Codec)
    (hfew : ids.length + (dynamicIds reference).length ≤ 32) :
    ∃ added, ListSpec type current renumbered added reference
        (findCodecsToOffer type reference renumbered u).1 ∧
      (dynamicIds added).length ≤ (dynamicIds reference).length ∧
      Tracks (findCodecsToOffer type reference renumbered u).2 (ids ++ dynamicIds added) := by
  obtain ⟨added, hres, hlen, htracks, hall⟩ := addCodecs_spec type h reference renumbered hfew
  refine ⟨added, ⟨?_, ?_, ?_⟩, hlen, htracks⟩
  · simp only [findCodecsToOffer, updateRtx_ids, hres]
  · simp only [findCodecsToOffer, hres]
    generalize (addCodecsToOffer type reference renumbered u).2 = u'
    have hrtx := List.forall₂_take current.length (updateRtx_same u' (renumbered ++ added))
    rw [hsame.length_eq, List.take_left, ← hsame.length_eq] at hrtx
    exact kept_of_same hsame hrtx
  · intro c hc
    simp only [findCodecsToOffer, updateRtx_hasMatching, hres]
    exact hall c hc

theorem dynamicIds_congr {a b : List Codec} (h : a.map Codec.id = b.map Codec.id) :
    dynamicIds a = dynamicIds b := by
  rw [dynamicIds, h]
  rfl

theorem getCodecsToOffer_spec (factory : CodecLists) (current : Option SessionDescription)
    (hfew : (dynamicIds ((currentCodecLists current).all ++ factory.all)).length ≤ 32) :
    ∃ renumbered added : CodecLists,
      (∀ type, ListSpec type ((currentCodecLists current).of type) (renumbered.of type)
        (added.of type) (factory.of type) ((getCodecsToOffer factory current).of type)) ∧
      (dynamicIds (renumbered.all ++ added.all)).Nodup ∧
      ((dynamicIds (currentCodecLists current).all).Nodup →
        ∀ type, renumbered.of type = (currentCodecLists current).of type) := by
  simp only [CodecLists.all, currentCodecLists, dynamicIds_append, List.length_append] at hfew
  simp only [getCodecsToOffer]
  obtain ⟨sameA, lenA, trA, keepA⟩ := setAll_spec Tracks.new (currentCodecs current .audio)
    (by rw [List.length_nil]; omega)
  generalize hA : findAndSetPayloadTypesUsed .new (currentCodecs current .audio) = rA at *
  obtain ⟨a₁, u₁⟩ := rA
  dsimp only at sameA lenA trA keepA
  obtain ⟨sameV, lenV, trV, keepV⟩ := setAll_spec trA (currentCodecs current .video)
    (by simp only [List.nil_append]; omega)
  generalize hV : u₁.findAndSetPayloadTypesUsed (currentCodecs current .video) = rV at *
  obtain ⟨v₁, u₂⟩ := rV
  dsimp only at sameV lenV trV keepV
  obtain ⟨sameD, lenD, trD, keepD⟩ := setAll_spec trV (currentCodecs current .data)
    (by simp only [List.nil_append, List.length_append]; omega)
  generalize hD : u₂.findAndSetPayloadTypesUsed (currentCodecs current .data) = rD at *
  obtain ⟨d₁, u₃⟩ := rD
  dsimp only at sameD lenD trD keepD
  obtain ⟨addA, specA, leA, trA'⟩ := findCodecsToOffer_spec .audio trD sameA factory.audio
    (by simp only [List.nil_append, List.length_append]; omega)
  generalize findCodecsToOffer .audio factory.audio a₁ u₃ = rA' at *
  obtain ⟨a₂, u₄⟩ := rA'
  obtain ⟨addV, specV, leV, trV'⟩ := findCodecsToOffer_spec .video trA' sameV factory.video
    (by simp only [List.nil_append, List.length_append]; omega)
  generalize findCodecsToOffer .video factory.video v₁ u₄ = rV' at *
  obtain ⟨v₂, u₅⟩ := rV'
  obtain ⟨addD, specD, leD, trD'⟩ := findCodecsToOffer_spec .data trV' sameD factory.data
    (by simp only [List.nil_append, List.length_append]; omega)
  generalize findCodecsToOffer .data factory.data d₁ u₅ = rD' at *
  obtain ⟨d₂, u₆⟩ := rD'
  refine ⟨⟨a₁, v₁, d₁⟩, ⟨addA, addV, addD⟩, ?_, ?_, ?_⟩
  · rintro (_ | _ | _)
    · exact specA
    · exact specV
    · exact specD
  · have hnodup := trD'.nodup
    simp only [CodecLists.all, dynamicIds_append, List.nil_append, List.append_assoc] at hnodup ⊢
    exact hnodup
  · intro hnodup
    simp only [CodecLists.all, currentCodecLists, dynamicIds_append] at hnodup
    have hA₁ : a₁ = currentCodecs current .audio :=
      keepA (List.nodup_append.mp (List.nodup_append.mp hnodup).1).1
    subst hA₁
    have hV₁ : v₁ = currentCodecs current .video := keepV (List.nodup_append.mp hnodup).1
    subst hV₁
    have hD₁ : d₁ = currentCodecs current .data := keepD hnodup
    subst hD₁
    rintro (_ | _ | _) <;> rfl

/-- **The payload types of an offer.** When all dynamic codecs together are at most 32, dynamic
payload types occur once in the three lists; each list starts with the codecs of the current
description, and has one that matches each codec of the factory; and the current payload types are
kept when they did not collide. -/
theorem offered_payload_types (factory : CodecLists) (current : Option SessionDescription)
    (hfew : (dynamicIds ((currentCodecLists current).all ++ factory.all)).length ≤ 32) :
    (dynamicIds (getCodecsToOffer factory current).all).Nodup ∧
      (∀ type, List.Forall₂ Kept (currentCodecs current type)
        (((getCodecsToOffer factory current).of type).take (currentCodecs current type).length)) ∧
      (∀ type, ∀ c ∈ factory.of type,
        ∃ o ∈ (getCodecsToOffer factory current).of type, codecMatches type o c = true) ∧
      ((dynamicIds (currentCodecLists current).all).Nodup → ∀ type,
        (((getCodecsToOffer factory current).of type).take (currentCodecs current type).length).map
          Codec.id = (currentCodecs current type).map Codec.id) := by
  obtain ⟨renumbered, added, hspec, hnodup, hkeep⟩ := getCodecsToOffer_spec factory current hfew
  have hcur : ∀ type, (currentCodecLists current).of type = currentCodecs current type := by
    rintro (_ | _ | _) <;> rfl
  refine ⟨?_, ?_, ?_, ?_⟩
  · have hids : ∀ type, dynamicIds ((getCodecsToOffer factory current).of type) =
        dynamicIds (renumbered.of type) ++ dynamicIds (added.of type) := fun type =>
      (dynamicIds_congr (hspec type).ids).trans (dynamicIds_append _ _)
    have hall : dynamicIds (getCodecsToOffer factory current).all =
        dynamicIds (renumbered.of .audio) ++ dynamicIds (added.of .audio) ++
          (dynamicIds (renumbered.of .video) ++ dynamicIds (added.of .video)) ++
          (dynamicIds (renumbered.of .data) ++ dynamicIds (added.of .data)) := by
      rw [← hids, ← hids, ← hids, ← dynamicIds_append, ← dynamicIds_append]
      rfl
    rw [hall]
    refine (List.Perm.nodup_iff ?_).mp hnodup
    simp only [CodecLists.all, CodecLists.of, dynamicIds_append]
    grind
  · intro type
    rw [← hcur]
    exact (hspec type).kept
  · intro type c hc
    exact List.any_eq_true.mp ((hspec type).complete c hc)
  · intro hdistinct type
    rw [← hcur, List.map_take, (hspec type).ids, hkeep hdistinct type, List.map_append]
    exact List.take_left' (List.length_map _)

/-! ## Examples -/

instance (c c' : Codec) : Decidable (SameButId c c') := inferInstanceAs (Decidable (c' = _))

/-- A codec with a payload type, a name and parameters. -/
def namedCodec (id : I32) (name : Text) (params : CodecParameterMap) : Codec :=
  ⟨id, name, 90000, 0, params, 0, 0, 0, 0, 0⟩

def rtxCodec (id : I32) (apt : Text) : Codec :=
  namedCodec id kRtxCodecName (SortedMap.empty.set kCodecParamAssociatedPayloadType apt)

def codecContent (name : Text) (type : MediaType) (codecs : List Codec) : ContentInfo :=
  ⟨name, nsJingleRtp, false, { MediaContentDescription.new type with codecs := codecs }⟩

/-- Audio and video codecs with one payload type, to which an RTX codec refers. -/
def collidingDescription : SessionDescription :=
  ⟨[codecContent "audio".toList .audio [namedCodec 100 "ISAC".toList .empty],
    codecContent "video".toList .video
      [namedCodec 100 "VP8".toList .empty, rtxCodec 101 "100".toList]], [], []⟩

def twoAudioDescription : SessionDescription :=
  ⟨[codecContent "a".toList .audio [namedCodec 100 "ISAC".toList .empty],
    codecContent "b".toList .audio [namedCodec 101 "opus".toList .empty]], [], []⟩

theorem offered_payload_types_colliding :
    (dynamicIds (getCodecsToOffer ⟨[namedCodec 100 "opus".toList .empty], [], []⟩
        (some collidingDescription)).all).Nodup ∧
      (dynamicIds (getCodecsToOffer ⟨[namedCodec 100 "opus".toList .empty], [], []⟩
        (some collidingDescription)).all) = [100, 126, 127, 101] :=
  ⟨(offered_payload_types ⟨[namedCodec 100 "opus".toList .empty], [], []⟩
    (some collidingDescription) (by decide +kernel)).1, by decide +kernel⟩

/-- An RTX codec whose video codec gets another payload type is not offered as it was, and of a
second audio content no codec is offered. -/
theorem current_codecs_not_contained :
    ((dynamicIds (collidingDescription.contents.flatMap (·.description.codecs))).length ≤ 32 ∧
        rtxCodec 101 "100".toList ∈ currentCodecs (some collidingDescription) .video ∧
        ¬ ∃ o ∈ (getCodecsToOffer ⟨[], [], []⟩ (some collidingDescription)).of .video,
          SameButId (rtxCodec 101 "100".toList) o) ∧
      (dynamicIds (twoAudioDescription.contents.flatMap (·.description.codecs))).length ≤ 32 ∧
        (∃ content ∈ twoAudioDescription.contents,
          namedCodec 101 "opus".toList .empty ∈ content.description.codecs) ∧
        ¬ ∃ o ∈ (getCodecsToOffer ⟨[], [], []⟩ (some twoAudioDescription)).of .audio,
          SameButId (namedCodec 101 "opus".toList .empty) o := by
  decide +kernel

end Libjingle.Media
