import Libjingle.Media.SessionFactory

/-!
# The merge for BUNDLE (`UpdateTransportInfoForBundle`, `UpdateCryptoParamsForBundle`)

Contents are found by their names, and two contents may have one name: the merge changes the first
one.
-/

namespace Libjingle.Media

open Lib Sdp

/-! ## The first content of a name -/

/-- The first content of each of some names is changed. -/
def mapFirsts (p : Text → Bool) (g : ContentInfo → ContentInfo) :
    List ContentInfo → List ContentInfo
  | [] => []
  | c :: rest => (if p c.name then g c else c) :: mapFirsts (fun n => p n && n ≠ c.name) g rest

section

variable {g : ContentInfo → ContentInfo}

theorem mapFirsts_none (contents : List ContentInfo) :
    mapFirsts (fun _ => false) g contents = contents := by
  induction contents with
  | nil => rfl
  | cons c rest ih =>
    rw [mapFirsts, if_neg Bool.false_ne_true]
    simp only [Bool.false_and]
    rw [ih]

theorem modifyContent_mapFirsts (hname : ∀ c, (g c).name = c.name) (hidem : ∀ c, g (g c) = g c)
    (p : Text → Bool) (contents : List ContentInfo) (n : Text) :
    modifyContent (mapFirsts p g contents) n g = mapFirsts (fun x => p x || x = n) g contents := by
  induction contents generalizing p with
  | nil => rfl
  | cons c rest ih =>
    have hhead : (if p c.name then g c else c).name = c.name := by
      split
      · exact hname c
      · rfl
    rw [mapFirsts, modifyContent, mapFirsts, hhead]
    by_cases hn : c.name = n
    · have htail : (fun x => (p x || decide (x = n)) && decide (x ≠ c.name)) =
          fun x => p x && decide (x ≠ c.name) := by
        funext x
        by_cases hx : x = n <;> simp [hx, hn]
      have hon : (p c.name || decide (c.name = n)) = true := by rw [decide_eq_true hn, Bool.or_true]
      rw [if_pos hn, if_pos hon, htail]
      congr 1
      by_cases hp : p c.name = true
      · rw [if_pos hp]
        exact hidem c
      · rw [if_neg hp]
    · have htail : (fun x => (p x || decide (x = n)) && decide (x ≠ c.name)) =
          fun x => (p x && decide (x ≠ c.name)) || decide (x = n) := by
        funext x
        by_cases hx : x = n
        · simp [hx, Ne.symm hn]
        · simp [hx]
      rw [if_neg hn, ih, htail]
      simp [hn]

theorem foldl_modifyContent (hname : ∀ c, (g c).name = c.name) (hidem : ∀ c, g (g c) = g c)
    (names : List Text) (contents : List ContentInfo) :
    names.foldl (fun contents n => modifyContent contents n g) contents =
      mapFirsts (fun x => x ∈ names) g contents := by
  have hall : ∀ p, names.foldl (fun contents n => modifyContent contents n g)
      (mapFirsts p g contents) = mapFirsts (fun x => p x || x ∈ names) g contents := by
    induction names with
    | nil =>
      intro p
      simp
    | cons n names ih =>
      intro p
      rw [List.foldl_cons, modifyContent_mapFirsts hname hidem, ih]
      congr 1
      funext x
      by_cases hx : x = n <;> simp [hx]
  have h := hall fun _ => false
  simp only [mapFirsts_none, Bool.false_or] at h
  exact h

theorem mapFirsts_eq_map (p : Text → Bool) {contents : List ContentInfo}
    (hnodup : ((contents.filter fun c => p c.name).map ContentInfo.name).Nodup) :
    mapFirsts p g contents = contents.map fun c => if p c.name then g c else c := by
  induction contents generalizing p with
  | nil => rfl
  | cons c rest ih =>
    have htail : ((rest.filter fun c => p c.name).map ContentInfo.name).Nodup :=
      hnodup.sublist (((List.sublist_cons_self c rest).filter _).map _)
    have hsame : ∀ x ∈ rest, (p x.name && decide (x.name ≠ c.name)) = p x.name := by
      intro x hx
      by_cases hp : p x.name = true
      · have hne : x.name ≠ c.name := by
          intro heq
          rw [List.filter_cons, if_pos (heq ▸ hp), List.map_cons, List.nodup_cons] at hnodup
          exact hnodup.1 (heq ▸ List.mem_map_of_mem (List.mem_filter.mpr ⟨hx, hp⟩))
        rw [decide_eq_true hne, Bool.and_true]
      · rw [Bool.eq_false_iff.mpr hp, Bool.false_and]
    rw [mapFirsts, ih, List.map_cons]
    · congr 1
      refine List.map_congr_left fun x hx => ?_
      rw [hsame x hx]
    · rw [List.filter_congr hsame]
      exact htail

theorem map_mapFirsts {β : Type} {φ : ContentInfo → β} (hφ : ∀ c, φ (g c) = φ c) (p : Text → Bool)
    (contents : List ContentInfo) : (mapFirsts p g contents).map φ = contents.map φ := by
  induction contents generalizing p with
  | nil => rfl
  | cons c rest ih =>
    rw [mapFirsts, List.map_cons, List.map_cons, ih]
    congr 1
    split
    · exact hφ c
    · rfl

variable {l l' : List ContentInfo}

/-- A relation between two lists of contents of the same names survives the change of the second one
exactly when it does where a content is changed. -/
theorem forall₂_mapFirsts {R Q : ContentInfo → ContentInfo → Prop}
    (hname : ∀ {c a}, R c a → a.name = c.name) (hkeep : ∀ {c a}, R c a → Q c a)
    (h : List.Forall₂ R l l') (p : Text → Bool) :
    List.Forall₂ Q l (mapFirsts p g l') ↔
      ∀ n c a, p n = true → l.find? (fun c => c.name = n) = some c →
        l'.find? (fun c => c.name = n) = some a → Q c (g a) := by
  induction h generalizing p with
  | nil =>
    constructor
    · intro _ n c a _ hc
      cases hc
    · intro _
      exact .nil
  | @cons c a l l' hca hrest ih =>
    have hn := hname hca
    rw [mapFirsts, List.forall₂_cons, ih, hn]
    constructor
    · rintro ⟨hhead, htail⟩ n c' a' hp hc ha
      by_cases heq : c.name = n
      · rw [List.find?_cons, decide_eq_true heq] at hc
        rw [List.find?_cons, decide_eq_true (hn.trans heq)] at ha
        obtain rfl := Option.some.inj hc
        obtain rfl := Option.some.inj ha
        subst heq
        rw [if_pos hp] at hhead
        exact hhead
      · rw [List.find?_cons, decide_eq_false heq] at hc
        rw [List.find?_cons, decide_eq_false fun h => heq (hn.symm.trans h)] at ha
        exact htail n c' a' (by simp [hp, Ne.symm heq]) hc ha
    · intro hall
      refine ⟨?_, fun n c' a' hp hc ha => ?_⟩
      · split
        · rename_i hp
          exact hall c.name c a hp (by rw [List.find?_cons, decide_eq_true rfl])
            (by rw [List.find?_cons, decide_eq_true hn])
        · exact hkeep hca
      · rw [Bool.and_eq_true, decide_eq_true_eq] at hp
        refine hall n c' a' hp.1 ?_ ?_
        · rw [List.find?_cons, decide_eq_false (Ne.symm hp.2)]
          exact hc
        · rw [List.find?_cons, decide_eq_false fun h => hp.2 (h.symm.trans hn)]
          exact ha

theorem forall₂_find {R : ContentInfo → ContentInfo → Prop}
    (hname : ∀ {c a}, R c a → a.name = c.name)
    (h : List.Forall₂ R l l') (n : Text) :
    Option.Rel R (l.find? fun c => c.name = n) (l'.find? fun c => c.name = n) := by
  induction h with
  | nil => exact .none
  | @cons c a l l' hca _ ih =>
    have hn := hname hca
    rw [List.find?_cons, List.find?_cons, hn]
    cases decide (c.name = n) with
    | true => exact .some hca
    | false => exact ih

end

theorem setCryptos_name (cryptos : List CryptoParams) (c : ContentInfo) :
    (setCryptos cryptos c).name = c.name := by
  unfold setCryptos
  split <;> rfl

theorem setCryptos_idem (cryptos : List CryptoParams) (c : ContentInfo) :
    setCryptos cryptos (setCryptos cryptos c) = setCryptos cryptos c := by
  by_cases hc : c.type = nsJingleRtp
  · simp [setCryptos, hc]
  · simp [setCryptos, hc]

variable {cryptos : List CryptoParams}

theorem setCryptos_media {c : ContentInfo} (hc : c.type = nsJingleRtp) :
    setCryptos cryptos c = { c with description := { c.description with cryptos := cryptos } } :=
  if_pos hc

/-! ## Groups -/

theorem addContentName_names (g : ContentGroup) (name : Text) :
    (g.addContentName name).contentNames =
      if name ∈ g.contentNames then g.contentNames else g.contentNames ++ [name] := by
  unfold ContentGroup.addContentName
  split <;> rfl

theorem foldl_addContentName (l : List ContentInfo) (g : ContentGroup)
    (hnodup : g.contentNames.Nodup) :
    let g' := l.foldl (fun g c => g.addContentName c.name) g
    g'.semantics = g.semantics ∧ g'.contentNames.Nodup ∧
      (∀ n, n ∈ g'.contentNames ↔ n ∈ g.contentNames ∨ n ∈ l.map ContentInfo.name) ∧
      g'.contentNames.head? = (g.contentNames ++ l.map ContentInfo.name).head? := by
  induction l generalizing g with
  | nil => simp [hnodup]
  | cons c l ih =>
    have hsem : (g.addContentName c.name).semantics = g.semantics := by
      unfold ContentGroup.addContentName
      split <;> rfl
    have hnodup' : (g.addContentName c.name).contentNames.Nodup := by
      rw [addContentName_names]
      split
      · exact hnodup
      · rename_i hnew
        exact List.nodup_append.mpr ⟨hnodup, List.nodup_singleton _, fun x hx y hy hxy =>
          hnew (List.mem_singleton.mp hy ▸ hxy ▸ hx)⟩
    obtain ⟨hs, hd, hmem, hhead⟩ := ih _ hnodup'
    refine ⟨hs.trans hsem, hd, fun n => ?_, ?_⟩
    · rw [List.foldl_cons, hmem, addContentName_names, List.map_cons, List.mem_cons]
      by_cases hold : c.name ∈ g.contentNames
      · rw [if_pos hold]
        constructor
        · rintro (h | h)
          · exact .inl h
          · exact .inr (.inr h)
        · rintro (h | rfl | h)
          · exact .inl h
          · exact .inl hold
          · exact .inr h
      · rw [if_neg hold, List.mem_append, List.mem_singleton, or_assoc]
    · rw [List.foldl_cons, hhead, addContentName_names, List.map_cons]
      by_cases hold : c.name ∈ g.contentNames
      · rw [if_pos hold]
        have hne := List.ne_nil_of_mem hold
        rw [List.head?_append_of_ne_nil _ hne, List.head?_append_of_ne_nil _ hne]
      · rw [if_neg hold, List.append_assoc, List.singleton_append]

section

variable (p : ContentInfo → Bool) (contents : List ContentInfo)

theorem bundleGroup_semantics : (bundleGroup p contents).semantics = groupTypeBundle :=
  (foldl_addContentName (contents.filter p) ⟨groupTypeBundle, []⟩ List.nodup_nil).1

/-- The names of a group. -/
theorem mem_bundleGroup (n : Text) :
    n ∈ (bundleGroup p contents).contentNames ↔ ∃ c ∈ contents, p c = true ∧ c.name = n := by
  have h := (foldl_addContentName (contents.filter p) ⟨groupTypeBundle, []⟩
    List.nodup_nil).2.2.1 n
  rw [bundleGroup, h]
  simp [and_assoc]

end

theorem bundleGroup_congr {p q : ContentInfo → Bool} {l l' : List ContentInfo}
    (h : List.Forall₂ (fun c a => a.name = c.name ∧ q a = p c) l l') :
    bundleGroup q l' = bundleGroup p l := by
  unfold bundleGroup
  generalize (⟨groupTypeBundle, []⟩ : ContentGroup) = g
  induction h generalizing g with
  | nil => rfl
  | @cons c a l l' hca _ ih =>
    rw [List.filter_cons, List.filter_cons, hca.2]
    by_cases hp : p c = true
    · rw [if_pos hp, if_pos hp, List.foldl_cons, List.foldl_cons, hca.1, ih]
    · rw [if_neg hp, if_neg hp, ih]

/-! ## The common cryptos -/

/-- A content of a description has a suite. -/
def hasSuite (d : SessionDescription) (suite : Text) (name : Text) : Bool :=
  (getCryptosByName d name).any fun cryptos => cryptos.any fun x => x.cipherSuite = suite

variable {d : SessionDescription} {names : List Text}

theorem commonCryptos_eq_some_iff {cryptos common : List CryptoParams} :
    commonCryptos d names cryptos = some common ↔
      (∀ n ∈ names, (getCryptosByName d n).isSome = true) ∧
        common = cryptos.filter fun c => names.all (hasSuite d c.cipherSuite) := by
  induction names generalizing cryptos with
  | nil =>
    simp only [commonCryptos, List.all_nil, List.filter_true, List.not_mem_nil, false_implies,
      implies_true, true_and, Option.some.injEq]
    exact eq_comm
  | cons n names ih =>
    rw [commonCryptos]
    cases hn : getCryptosByName d n with
    | none => simp [hn]
    | some filter =>
      have hfilter : ∀ c : CryptoParams, (n :: names).all (hasSuite d c.cipherSuite) =
          (names.all (hasSuite d c.cipherSuite) &&
            filter.any fun x => x.cipherSuite = c.cipherSuite) := by
        intro c
        rw [List.all_cons, hasSuite, hn, Option.any_some, Bool.and_comm]
      simp only [ih, pruneCryptos, List.filter_filter, hfilter, List.forall_mem_cons, hn,
        Option.isSome_some, true_and]

variable {d' : SessionDescription}

theorem getCryptosByName_congr (h : d.contents = d'.contents)
    (name : Text) : getCryptosByName d name = getCryptosByName d' name := by
  rw [getCryptosByName, getContentByName, h]
  rfl

theorem commonCryptos_congr (h : d.contents = d'.contents)
    (names : List Text) (cryptos : List CryptoParams) :
    commonCryptos d names cryptos = commonCryptos d' names cryptos := by
  induction names generalizing cryptos with
  | nil => rfl
  | cons n names ih =>
    rw [commonCryptos, commonCryptos, getCryptosByName_congr h]
    cases getCryptosByName d' n with
    | none => rfl
    | some filter => exact ih _

/-! ## The merge -/

/-- The credentials of the other transports of a group. -/
def shareCredentials (names : List Text) (selected : Text) (info t : TransportInfo) :
    TransportInfo :=
  if t.contentName ∈ names ∧ t.contentName ≠ selected then
    { t with description := { t.description with
      iceUfrag := info.description.iceUfrag
      icePwd := info.description.icePwd } }
  else t

/-- What becomes of the contents: they stay when the first one has no cryptos, and otherwise get
what is common to all. -/
inductive MergedContents (names : List Text) (cryptos : List CryptoParams)
    (d d' : SessionDescription) : Prop where
  | kept (hnone : cryptos = []) (hcontents : d'.contents = d.contents)
  | merged (common : List CryptoParams)
      (hcommon : common = cryptos.filter fun c => names.all (hasSuite d c.cipherSuite))
      (hsome : common ≠ [])
      (hcontents : d'.contents = mapFirsts (fun n => n ∈ names) (setCryptos common) d.contents)

theorem all_tail_eq {first : Text} (hfirst : getCryptosByName d first = some cryptos) :
    (cryptos.filter fun c => names.all (hasSuite d c.cipherSuite)) =
      cryptos.filter fun c => (first :: names).all (hasSuite d c.cipherSuite) := by
  refine List.filter_congr fun c hc => ?_
  have hself : hasSuite d c.cipherSuite first = true := by
    rw [hasSuite, hfirst, Option.any_some, List.any_eq_true]
    exact ⟨c, hc, decide_eq_true rfl⟩
  rw [List.all_cons, hself, Bool.true_and]

/-- **Everything that the merge does.** -/
theorem bundleContents_spec {g : ContentGroup} (h : bundleContents g d = some d') :
    ∃ first names info cryptos, g.contentNames = first :: names ∧
      d.getTransportInfoByName first = some info ∧ getCryptosByName d first = some cryptos ∧
      (cryptos ≠ [] → ∀ n ∈ g.contentNames, (getCryptosByName d n).isSome = true) ∧
      d'.groups = d.groups ++ [g] ∧
      d'.transportInfos = d.transportInfos.map (shareCredentials g.contentNames first info) ∧
      MergedContents g.contentNames cryptos d d' := by
  obtain ⟨d₁, ht, hc⟩ := Option.bind_eq_some_iff.mp h
  rw [updateTransportInfoForBundle] at ht
  split at ht
  · cases ht
  · rename_i first names hnames
    split at ht
    · cases ht
    · rename_i info hinfo
      obtain rfl := Option.some.inj ht
      rw [updateCryptoParamsForBundle, hnames] at hc
      rw [hnames]
      dsimp only at hc
      split at hc
      · cases hc
      · rename_i hcryptos
        obtain rfl := Option.some.inj hc
        exact ⟨first, names, info, [], rfl, hinfo, hcryptos, fun hne => (hne rfl).elim, rfl,
          rfl, .kept rfl rfl⟩
      · rename_i cryptos hne hcryptos
        split at hc
        · cases hc
        · cases hc
        · rename_i common hsome hcommon
          obtain rfl := Option.some.inj hc
          have hd : commonCryptos d names cryptos = some common := by
            rw [← hcommon]
            apply commonCryptos_congr
            rfl
          rw [commonCryptos_eq_some_iff] at hd
          refine ⟨first, names, info, cryptos, rfl, hinfo, hcryptos, fun _ n hn => ?_, rfl, rfl,
            .merged common ?_ hsome ?_⟩
          · rcases List.mem_cons.mp hn with rfl | hn
            · exact Option.isSome_iff_exists.mpr ⟨_, hcryptos⟩
            · exact hd.1 n hn
          · rw [hd.2]
            exact all_tail_eq hcryptos
          · exact foldl_modifyContent (setCryptos_name common) (setCryptos_idem common) _ _

theorem MergedContents.map_eq {β : Type} {φ : ContentInfo → β}
    (hφ : ∀ cryptos c, φ (setCryptos cryptos c) = φ c)
    (h : MergedContents names cryptos d d') : d'.contents.map φ = d.contents.map φ := by
  cases h with
  | kept _ hcontents => rw [hcontents]
  | merged common _ _ hcontents => rw [hcontents, map_mapFirsts (hφ common)]

end Libjingle.Media
