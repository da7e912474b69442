import Libjingle.Lib.Slots
import Libjingle.Lib.Tiling
import Libjingle.Media.PayloadTypes
import Mathlib.Order.Interval.Finset.Nat

/-!
# The codec that an RTX codec of an offer refers to (`UpdateRtxCodecs`, `GetCodecsToOffer`)

An RTX codec names another codec of its list by payload type. When an offer gives that codec another
payload type the reference has to follow. The table knows only for which payload type each of the
new ones stands in, whatever the kind of the codec, so of all codecs that asked for one payload type
the reference follows the one that was given the highest.

* `refers_iff`: when the search in the table finds what one codec was given.
* `rtx_association_iff`: exactly when the references of an offer are right.
-/

namespace Libjingle.Media

open Lib Sdp UsedPayloadTypes

/-! ## The table as a log -/

def dynamicSlots : Finset Nat := Finset.Icc 96 127

theorem isDynamic_iff_mem (t : I32) : isDynamic t = true ↔ t.toNat ∈ dynamicSlots := by
  rw [dynamicSlots, Finset.mem_Icc, isDynamic, Bool.and_eq_true, decide_eq_true_eq,
    decide_eq_true_eq, BitVec.toInt_eq_toNat_cond]
  have := t.isLt
  split <;> omega

variable {n : Nat}

theorem exists_dynamic (h : n ∈ dynamicSlots) : ∃ t : I32, isDynamic t = true ∧ t.toNat = n := by
  have hnat : (BitVec.ofNat 32 n).toNat = n := by
    rw [dynamicSlots, Finset.mem_Icc] at h
    rw [BitVec.toNat_ofNat]
    omega
  exact ⟨BitVec.ofNat 32 n, (isDynamic_iff_mem _).mpr (hnat.symm ▸ h), hnat⟩

theorem dynamicSlots_card : dynamicSlots.card = 32 := by
  rw [dynamicSlots, Nat.card_Icc]

/-- The table has the first 32 entries of a log of what codecs asked for and were given. After that
none is left, and codecs are given 95. -/
structure Logs (u : UsedPayloadTypes) (log : List (Nat × Nat)) : Prop where
  granted : Granted dynamicSlots (log.take 32)
  table : ∀ t r : I32, isDynamic t = true → r ≠ 0 →
    (u t = r ↔ (r.toNat, t.toNat) ∈ log.take 32)
  rest : ∀ x ∈ log.drop 32, x.2 = 95

theorem findPayloadType_spec (p : I32 → Bool) :
    (isDynamic (findPayloadType p) = true ∧ p (findPayloadType p) = true ∧
        ∀ t, isDynamic t = true → p t = true → t.toNat ≤ (findPayloadType p).toNat) ∨
      (findPayloadType p = 95 ∧ ∀ t, isDynamic t = true → p t = false) := by
  have hsorted : dynamicPayloadTypes.Pairwise fun a b => b.toNat < a.toNat := by decide
  rw [findPayloadType]
  cases hfind : dynamicPayloadTypes.find? p with
  | none =>
    refine .inr ⟨rfl, fun t ht => ?_⟩
    exact Bool.eq_false_iff.mpr (List.find?_eq_none.mp hfind t ((isDynamic_iff t).mp ht))
  | some x =>
    obtain ⟨hx, as, bs, heq, has⟩ := List.find?_eq_some_iff_append.mp hfind
    refine .inl ⟨(isDynamic_iff x).mpr (List.mem_of_find?_eq_some hfind), hx, fun t ht hp => ?_⟩
    rw [isDynamic_iff, heq, List.mem_append, List.mem_cons] at ht
    rw [heq, List.pairwise_append, List.pairwise_cons] at hsorted
    rcases ht with ht | rfl | ht
    · exact absurd hp (by simpa using has t ht)
    · exact Nat.le_refl _
    · exact (hsorted.2.1.1 t ht).le

namespace Logs

variable {u : UsedPayloadTypes} {log : List (Nat × Nat)}

theorem new : Logs .new [] := by
  refine ⟨Granted.nil, fun t r _ hr => ?_, List.forall_mem_nil _⟩
  exact ⟨fun h => (hr h.symm).elim, fun h => absurd h (List.not_mem_nil)⟩

theorem used_iff (h : Logs u log) {t : I32} (ht : isDynamic t = true) :
    u t ≠ 0 ↔ t.toNat ∈ grants (log.take 32) := by
  rw [mem_grants]
  constructor
  · intro hne
    exact ⟨_, (h.table t (u t) ht hne).mp rfl⟩
  · rintro ⟨r, hmem⟩
    obtain ⟨a, b, heq⟩ := List.append_of_mem hmem
    obtain ⟨x, hx, rfl⟩ := exists_dynamic (h.granted a r t.toNat b heq).1
    rw [(h.table t x ht (ne_zero_of_isDynamic hx)).mpr hmem]
    exact ne_zero_of_isDynamic hx

theorem full (h : Logs u log) (hlen : 32 ≤ log.length) {t : I32} (ht : isDynamic t = true) :
    u t ≠ 0 := by
  rw [h.used_iff ht]
  have hsub : (grants (log.take 32)).toFinset ⊆ dynamicSlots := fun n hn =>
    h.granted.grants_subset n (List.mem_toFinset.mp hn)
  have hcard : dynamicSlots.card ≤ (grants (log.take 32)).toFinset.card := by
    rw [List.toFinset_card_of_nodup h.granted.nodup, grants, List.length_map, List.length_take,
      Nat.min_eq_left hlen, dynamicSlots_card]
  rw [← List.mem_toFinset, Finset.eq_of_subset_of_card_le hsub hcard]
  exact (isDynamic_iff_mem t).mp ht

theorem grant (h : Logs u log) {c : Codec} (hc : isDynamic c.id = true) (hlen : log.length < 32) :
    isDynamic (u.findAndSetPayloadTypeUsed c).1.id = true ∧
      Grant dynamicSlots (grants log) c.id.toNat (u.findAndSetPayloadTypeUsed c).1.id.toNat := by
  have htake : log.take 32 = log := List.take_of_length_le hlen.le
  have hused := h.used_iff hc
  simp only [findAndSetPayloadTypeUsed, isPayloadTypeUsed, hc, Bool.true_and]
  rw [htake] at hused
  by_cases hfree : u c.id = 0
  · simp only [hfree, ne_eq, not_true_eq_false, decide_false, Bool.false_eq_true, if_false]
    exact ⟨hc, .inl ⟨fun hmem => hused.mpr hmem hfree, rfl⟩⟩
  · simp only [hfree, ne_eq, not_false_eq_true, decide_true, if_true]
    rcases findPayloadType_spec fun t => u t = 0 with ⟨hdyn, hzero, hmax⟩ | ⟨-, hnone⟩
    · refine ⟨hdyn, .inr ⟨hused.mp hfree, (isDynamic_iff_mem _).mp hdyn, fun hmem => ?_, ?_⟩⟩
      · have hiff := h.used_iff hdyn
        rw [htake] at hiff
        exact hiff.mpr hmem (of_decide_eq_true hzero)
      · intro n hn hno
        obtain ⟨t, ht, rfl⟩ := exists_dynamic hn
        have hiff := h.used_iff ht
        rw [htake] at hiff
        exact hmax t ht (decide_eq_true (not_not.mp fun hne => hno (hiff.mp hne)))
    · -- fewer than 32 were given, so one is free
      have hall : dynamicSlots ⊆ (grants log).toFinset := by
        intro n hn
        obtain ⟨t, ht, rfl⟩ := exists_dynamic hn
        have hiff := h.used_iff ht
        rw [htake] at hiff
        exact List.mem_toFinset.mpr (hiff.mp (of_decide_eq_false (hnone t ht)))
      have hcard := Finset.card_le_card hall
      have hle := List.toFinset_card_le (grants log)
      rw [dynamicSlots_card] at hcard
      have hlength : (grants log).length = log.length := List.length_map _
      omega

/-- **One codec** adds an entry to the log. -/
theorem step (h : Logs u log) {c : Codec} (hc : isDynamic c.id = true) :
    Logs (u.findAndSetPayloadTypeUsed c).2
      (log ++ [(c.id.toNat, (u.findAndSetPayloadTypeUsed c).1.id.toNat)]) := by
  by_cases hlen : log.length < 32
  · obtain ⟨hdyn, hgrant⟩ := h.grant hc hlen
    have htake : log.take 32 = log := List.take_of_length_le hlen.le
    have hgranted := h.granted
    have htable := h.table
    rw [htake] at hgranted htable
    generalize hnew : (u.findAndSetPayloadTypeUsed c).1.id = new at *
    have htable' : (u.findAndSetPayloadTypeUsed c).2 = Function.update u new c.id := by
      rw [← hnew] at hdyn ⊢
      exact if_pos hdyn
    have hlog : (log ++ [(c.id.toNat, new.toNat)]).take 32 = log ++ [(c.id.toNat, new.toNat)] :=
      List.take_of_length_le (by rw [List.length_append]; exact hlen)
    have hall := hgranted.snoc ((isDynamic_iff_mem _).mp hc) hgrant
    refine ⟨hlog.symm ▸ hall, fun t r ht hr => ?_, ?_⟩
    · rw [hlog, htable', List.mem_append, List.mem_singleton, Prod.mk.injEq]
      by_cases heq : t = new
      · subst heq
        rw [Function.update_self]
        constructor
        · rintro rfl
          exact .inr ⟨rfl, rfl⟩
        · rintro (hmem | ⟨hr, -⟩)
          · exact (hall.slot_mem.2 (mem_grants.mpr ⟨_, hmem⟩)).elim
          · exact (BitVec.eq_of_toNat_eq hr).symm
      · rw [Function.update_of_ne heq, htable t r ht hr]
        exact ⟨.inl, fun hor => hor.resolve_right fun hn => heq (BitVec.eq_of_toNat_eq hn.2)⟩
    · rw [List.drop_of_length_le (by rw [List.length_append]; exact hlen)]
      exact List.forall_mem_nil _
  · have hnew : u.findUnusedPayloadType = 95 := by
      rcases findPayloadType_spec fun t => u t = 0 with ⟨hdyn, hzero, -⟩ | ⟨hnew, -⟩
      · exact (h.full (not_lt.mp hlen) hdyn (of_decide_eq_true hzero)).elim
      · exact hnew
    have hused : u.isPayloadTypeUsed c.id = true := by
      rw [isPayloadTypeUsed, hc, Bool.true_and]
      exact decide_eq_true (h.full (not_lt.mp hlen) hc)
    have hres : u.findAndSetPayloadTypeUsed c = ({ c with id := 95 }, u) := by
      simp only [findAndSetPayloadTypeUsed, hused, if_true, hnew]
      rfl
    rw [hres]
    have htake : ∀ x, (log ++ [x]).take 32 = log.take 32 := fun x =>
      List.take_append_of_le_length (not_lt.mp hlen)
    refine ⟨(htake _).symm ▸ h.granted, fun t r ht hr => (htake _).symm ▸ h.table t r ht hr, ?_⟩
    rw [List.drop_append_of_le_length (not_lt.mp hlen)]
    intro x hx
    rcases List.mem_append.mp hx with hx | hx
    · exact h.rest x hx
    · rw [List.mem_singleton.mp hx]
      rfl

/-- **The search for the payload type that stands in for another.** -/
theorem findNew_spec (h : Logs u log) {r : I32} (hr : r ≠ 0) :
    ((r.toNat, (u.findNewPayloadType r).toNat) ∈ log.take 32 ∧
        ∀ m, (r.toNat, m) ∈ log.take 32 → m ≤ (u.findNewPayloadType r).toNat) ∨
      (u.findNewPayloadType r = 95 ∧ r.toNat ∉ requests (log.take 32)) := by
  have hslot : ∀ m, (r.toNat, m) ∈ log.take 32 → ∃ t, isDynamic t = true ∧ u t = r ∧
      t.toNat = m := by
    intro m hm
    obtain ⟨t, ht, rfl⟩ := exists_dynamic (h.granted.grants_subset m (mem_grants.mpr ⟨_, hm⟩))
    exact ⟨t, ht, (h.table t r ht hr).mpr hm, rfl⟩
  rcases findPayloadType_spec fun t => u t = r with ⟨hdyn, hfound, hmax⟩ | ⟨hnone, hall⟩
  · refine .inl ⟨(h.table _ r hdyn hr).mp (of_decide_eq_true hfound), fun m hm => ?_⟩
    obtain ⟨t, ht, htable, rfl⟩ := hslot m hm
    exact hmax t ht (decide_eq_true htable)
  · refine .inr ⟨hnone, fun hmem => ?_⟩
    obtain ⟨m, hm⟩ := mem_requests.mp hmem
    obtain ⟨t, ht, htable, -⟩ := hslot m hm
    exact of_decide_eq_false (hall t ht) htable

end Logs

/-! ## The loops -/

/-- What codecs ask for and are given. -/
def assigned (u : UsedPayloadTypes) (codecs : List Codec) : List (Nat × Nat) :=
  (codecs.map fun c => c.id.toNat).zip
    ((u.findAndSetPayloadTypesUsed codecs).1.map fun c => c.id.toNat)

theorem assigned_cons (u : UsedPayloadTypes) (c : Codec) (codecs : List Codec) :
    assigned u (c :: codecs) = (c.id.toNat, (u.findAndSetPayloadTypeUsed c).1.id.toNat) ::
      assigned (u.findAndSetPayloadTypeUsed c).2 codecs := rfl

theorem setAll_append (u : UsedPayloadTypes) (a b : List Codec) :
    u.findAndSetPayloadTypesUsed (a ++ b) =
      ((u.findAndSetPayloadTypesUsed a).1 ++
          ((u.findAndSetPayloadTypesUsed a).2.findAndSetPayloadTypesUsed b).1,
        ((u.findAndSetPayloadTypesUsed a).2.findAndSetPayloadTypesUsed b).2) := by
  induction a generalizing u with
  | nil => rfl
  | cons c a ih =>
    rw [List.cons_append, findAndSetPayloadTypesUsed, findAndSetPayloadTypesUsed]
    simp only [ih, List.cons_append]

theorem setAll_same (u : UsedPayloadTypes) (codecs : List Codec) :
    List.Forall₂ SameButId codecs (u.findAndSetPayloadTypesUsed codecs).1 := by
  induction codecs generalizing u with
  | nil => exact .nil
  | cons c codecs ih => exact .cons rfl (ih _)

theorem requests_assigned (u : UsedPayloadTypes) (l : List Codec) :
    requests (assigned u l) = l.map fun c => c.id.toNat := by
  refine List.map_fst_zip (Nat.le_of_eq ?_)
  rw [List.length_map, List.length_map]
  exact (setAll_same u l).length_eq

theorem assigned_at {u : UsedPayloadTypes} {l : List Codec} {k : Nat} {x y : Codec}
    (hx : l[k]? = some x) (hy : (u.findAndSetPayloadTypesUsed l).1[k]? = some y) :
    (assigned u l)[k]? = some (x.id.toNat, y.id.toNat) := by
  refine List.getElem?_zip_eq_some.mpr ⟨?_, ?_⟩
  · rw [List.getElem?_map, hx]
    rfl
  · rw [List.getElem?_map, hy]
    rfl

variable {codecs : List Codec}

/-- **The loop over codecs** adds what they ask for and are given to the log. -/
theorem assigned_logs {u : UsedPayloadTypes} {log : List (Nat × Nat)} (h : Logs u log)
    (hdyn : ∀ c ∈ codecs, isDynamic c.id = true) :
    Logs (u.findAndSetPayloadTypesUsed codecs).2 (log ++ assigned u codecs) := by
  induction codecs generalizing u log with
  | nil =>
    rw [assigned, List.map_nil, List.zip_nil_left, List.append_nil]
    exact h
  | cons c codecs ih =>
    have hall := ih (h.step (hdyn c List.mem_cons_self)) fun x hx =>
      hdyn x (List.mem_cons_of_mem c hx)
    rw [List.append_assoc, List.singleton_append, ← assigned_cons] at hall
    exact hall

/-- The codecs of a list that the offer has no match for yet. -/
def newCodecs (type : MediaType) : List Codec → List Codec → List Codec
  | [], _ => []
  | c :: reference, offered =>
    if hasMatchingCodec type offered c then newCodecs type reference offered
    else c :: newCodecs type reference (offered ++ [c])

variable {source offered : List Codec}

variable {c : Codec}

/-- A codec with a dynamic payload type is matched by name, so it does not matter which payload
types those have that are offered. -/
theorem hasMatching_renumbered (type : MediaType)
    (hsame : List.Forall₂ SameButId source offered) (hc : isDynamic c.id = true) :
    hasMatchingCodec type offered c = hasMatchingCodec type source c := by
  have hlarge : ¬ c.id.toInt ≤ kMaxStaticPayloadId := by
    rw [isDynamic, Bool.and_eq_true, decide_eq_true_eq] at hc
    rw [kMaxStaticPayloadId]
    omega
  have hone : ∀ o o' : Codec, SameButId o o' → codecMatches type o' c = codecMatches type o c := by
    intro o o' h
    rw [h]
    cases type <;> simp only [codecMatches, matchesId, if_neg hlarge]
  induction hsame with
  | nil => rfl
  | cons hhead _ ih =>
    rw [hasMatchingCodec, List.any_cons, hone _ _ hhead, hasMatchingCodec, List.any_cons]
    exact congrArg _ ih

variable {reference : List Codec}

theorem addCodecs_eq (type : MediaType) (hsame : List.Forall₂ SameButId source offered)
    (hdyn : ∀ c ∈ reference, isDynamic c.id = true) (u : UsedPayloadTypes) :
    addCodecsToOffer type reference offered u =
      (offered ++ (u.findAndSetPayloadTypesUsed (newCodecs type reference source)).1,
        (u.findAndSetPayloadTypesUsed (newCodecs type reference source)).2) := by
  induction reference generalizing source offered u with
  | nil => rw [addCodecsToOffer, newCodecs, findAndSetPayloadTypesUsed, List.append_nil]
  | cons c reference ih =>
    have hdyn' : ∀ x ∈ reference, isDynamic x.id = true := fun x hx =>
      hdyn x (List.mem_cons_of_mem c hx)
    rw [addCodecsToOffer, newCodecs, hasMatching_renumbered type hsame (hdyn c List.mem_cons_self)]
    split
    · exact ih hsame hdyn' u
    · have hsame' : List.Forall₂ SameButId (source ++ [c])
          (offered ++ [(u.findAndSetPayloadTypeUsed c).1]) :=
        List.rel_append hsame (.cons rfl .nil)
      simp only [ih hsame' hdyn', findAndSetPayloadTypesUsed, List.append_assoc,
        List.singleton_append]

/-! ## The codec that the search finds -/

/-- After requests for `asked` no dynamic payload type above `p` is free. -/
def crowdedAbove (asked : List Nat) (p : Nat) : Prop :=
  127 - p + (asked.toFinset.filter (· ≤ p)).card ≤ asked.length

/-- A reference to `p` follows the `k`-th of the codecs that asked for `asked`: that codec asked for
`p` as the first one, and no payload type above `p` was free when another one did; or it was the
second, and one was free. When no codec was given a payload type in place of `p` because there were
too many, the reference follows all codecs that came too late. -/
def Followed (asked : List Nat) (k p : Nat) : Prop :=
  asked[k]? = some p ∧ p ∉ asked.take k ∧
      (∀ j < asked.length, k < j → asked[j]? = some p → crowdedAbove (asked.take j) p) ∨
    asked[k]? = some p ∧ (asked.take k).count p = 1 ∧ ¬ crowdedAbove (asked.take k) p ∨
    32 ≤ k ∧ p ∉ asked.take 32

variable {p : Nat}

theorem fullAbove_iff_crowded {log : List (Nat × Nat)} (h : Granted dynamicSlots log)
    (hp : p ∈ dynamicSlots) : FullAbove dynamicSlots log p ↔ crowdedAbove (requests log) p := by
  have habove : dynamicSlots.filter (p < ·) = Finset.Ioc p 127 := by
    ext t
    simp only [dynamicSlots, Finset.mem_filter, Finset.mem_Icc, Finset.mem_Ioc] at hp ⊢
    omega
  rw [h.fullAbove_iff, habove, Nat.card_Ioc, crowdedAbove, requests, List.length_map]

theorem crowded_of_many {asked : List Nat} (hasked : ∀ r ∈ asked, r ∈ dynamicSlots)
    (hlen : 32 ≤ asked.length) (hp : p ∈ dynamicSlots) : crowdedAbove asked p := by
  have hsub : asked.toFinset.filter (· ≤ p) ⊆ Finset.Icc 96 p := by
    intro r hr
    obtain ⟨hr, hle⟩ := Finset.mem_filter.mp hr
    have := hasked r (List.mem_toFinset.mp hr)
    simp only [dynamicSlots, Finset.mem_Icc] at this ⊢
    omega
  have hcard := Finset.card_le_card hsub
  simp only [dynamicSlots, Finset.mem_Icc, Nat.card_Icc] at hp hcard
  rw [crowdedAbove]
  omega

theorem crowded_at {log l₁ l₂ : List (Nat × Nat)} (h : Granted dynamicSlots (log.take 32))
    {p m : Nat}
    (hp : p ∈ dynamicSlots) (hsplit : log.take 32 = l₁ ++ (p, m) :: l₂) :
    (requests log)[l₁.length]? = some p ∧ (requests log).take l₁.length = requests l₁ ∧
      (FullAbove dynamicSlots l₁ p ↔ crowdedAbove ((requests log).take l₁.length) p) := by
  have hlen : l₁.length < 32 := by
    have := congrArg List.length hsplit
    rw [List.length_take, List.length_append, List.length_cons] at this
    omega
  have hat : log[l₁.length]? = some (p, m) := by
    rw [← List.getElem?_take_of_lt hlen, hsplit, List.getElem?_append_right (Nat.le_refl _),
      Nat.sub_self]
    rfl
  have htake : (requests log).take l₁.length = requests l₁ := by
    rw [requests, ← List.map_take, ← Nat.min_eq_left hlen.le, ← List.take_take, hsplit,
      List.take_left]
    rfl
  rw [hsplit] at h
  refine ⟨?_, htake, ?_⟩
  · rw [requests, List.getElem?_map, hat]
    rfl
  · rw [htake]
    exact fullAbove_iff_crowded h.left hp

/-- The later requests for `p`, by their places. -/
theorem later_full_iff {log a b : List (Nat × Nat)} (h : Granted dynamicSlots (log.take 32))
    (hasked : ∀ r ∈ requests log, r ∈ dynamicSlots) (hp : p ∈ dynamicSlots)
    (hsplit : log.take 32 = a ++ (p, n) :: b) :
    (∀ b₁ m b₂, b = b₁ ++ (p, m) :: b₂ → FullAbove dynamicSlots (a ++ (p, n) :: b₁) p) ↔
      ∀ j < (requests log).length, a.length < j → (requests log)[j]? = some p →
        crowdedAbove ((requests log).take j) p := by
  constructor
  · intro hfull j hj haj hjp
    rcases Nat.lt_or_ge j 32 with hj32 | hj32
    · rw [requests, List.getElem?_map, Option.map_eq_some_iff] at hjp
      obtain ⟨⟨p', m⟩, hat, rfl⟩ := hjp
      rw [← List.getElem?_take_of_lt hj32] at hat
      obtain ⟨l₁, l₂, hl, rfl⟩ := exists_append_of_getElem? hat
      refine (crowded_at h hp hl).2.2.mp ?_
      rw [hsplit] at hl
      rcases List.append_eq_append_iff.mp hl with ⟨c, rfl, hc⟩ | ⟨c, rfl, -⟩
      · cases c with
        | nil => simp at haj
        | cons x c =>
          obtain ⟨rfl, hb⟩ := List.cons.inj hc
          exact hfull c m l₂ hb
      · rw [List.length_append] at haj
        omega
    · refine crowded_of_many (fun r hr => hasked r (List.mem_of_mem_take hr)) ?_ hp
      rw [List.length_take]
      omega
  · rintro hall b₁ m b₂ rfl
    have hl : log.take 32 = (a ++ (p, n) :: b₁) ++ (p, m) :: b₂ := by
      rw [hsplit, List.append_assoc, List.cons_append]
    obtain ⟨hat, -, hiff⟩ := crowded_at h hp hl
    refine hiff.mpr (hall _ ?_ ?_ hat)
    · exact (List.getElem?_eq_some_iff.mp hat).1
    · rw [List.length_append, List.length_cons]
      omega

/-- **What the search in the table finds** is what the `k`-th codec was given, when the reference
follows that codec. -/
theorem followed_iff {u : UsedPayloadTypes} {log : List (Nat × Nat)} (h : Logs u log)
    (hasked : ∀ r ∈ requests log, r ∈ dynamicSlots) {p : I32} (hp : isDynamic p = true)
    {k q n : Nat} (hat : log[k]? = some (q, n)) :
    n = (u.findNewPayloadType p).toNat ↔ Followed (requests log) k p.toNat := by
  have hslot : p.toNat ∈ dynamicSlots := (isDynamic_iff_mem p).mp hp
  have hfind := h.findNew_spec (ne_zero_of_isDynamic hp)
  have hk : k < log.length := (List.getElem?_eq_some_iff.mp hat).1
  have hkq : (requests log)[k]? = some q := by
    rw [requests, List.getElem?_map, hat]
    rfl
  have htake : (requests log).take 32 = requests (log.take 32) := List.map_take.symm
  rw [Followed, hkq, htake]
  rcases Nat.lt_or_ge k 32 with hk32 | hk32
  · have hat32 : (log.take 32)[k]? = some (q, n) := by rw [List.getElem?_take_of_lt hk32, hat]
    have hmem : (q, n) ∈ log.take 32 := List.mem_of_getElem? hat32
    have hno : ¬ (32 ≤ k ∧ p.toNat ∉ requests (log.take 32)) := by omega
    rw [or_iff_left hno]
    by_cases hq : q = p.toNat
    · subst hq
      -- the reference follows the request that was given the highest
      have hfound := hfind.resolve_right fun hnone => hnone.2 (mem_requests.mpr ⟨n, hmem⟩)
      have hhighest : n = (u.findNewPayloadType p).toNat ↔
          ∀ m, (p.toNat, m) ∈ log.take 32 → m ≤ n := by
        constructor
        · rintro rfl
          exact hfound.2
        · exact fun hmax => Nat.le_antisymm (hfound.2 n hmem) (hmax _ hfound.1)
      obtain ⟨a, b, hsplit, rfl⟩ := exists_append_of_getElem? hat32
      obtain ⟨-, hreq, hcrowd⟩ := crowded_at h.granted hslot hsplit
      have hgranted := hsplit ▸ h.granted
      rw [hhighest, hsplit, hreq]
      by_cases hfirst : p.toNat ∈ requests a
      · rw [hgranted.later_highest_iff hfirst, hcrowd, hreq]
        simp [hfirst]
      · rw [hgranted.first_highest_iff hfirst, later_full_iff h.granted hasked hslot hsplit]
        simp [hfirst, List.count_eq_zero_of_not_mem hfirst]
    · -- no two requests were given the same
      constructor
      · intro heq
        rcases hfind with ⟨hmem', -⟩ | ⟨hnone, -⟩
        · rw [← heq] at hmem'
          have hinj := List.inj_on_of_nodup_map h.granted.nodup hmem hmem' rfl
          exact (hq (Prod.mk.inj hinj).1).elim
        · have hn := h.granted.grants_subset n (mem_grants.mpr ⟨q, hmem⟩)
          rw [heq, hnone] at hn
          exact absurd hn (by decide)
      · rintro (⟨heq, -⟩ | ⟨heq, -⟩) <;> exact (hq (Option.some.inj heq)).elim
  · have hn : n = 95 := h.rest (q, n) (List.mem_of_getElem? (i := k - 32) (by
      rw [List.getElem?_drop, Nat.add_sub_cancel' hk32, hat]))
    have hiff : n = (u.findNewPayloadType p).toNat ↔ p.toNat ∉ requests (log.take 32) := by
      rcases hfind with ⟨hmem, -⟩ | ⟨hnone, hno⟩
      · refine iff_of_false (fun heq => ?_) (not_not.mpr (mem_requests.mpr ⟨_, hmem⟩))
        have hslot' := h.granted.grants_subset _ (mem_grants.mpr ⟨_, hmem⟩)
        rw [← heq, hn] at hslot'
        exact absurd hslot' (by decide)
      · rw [hn, hnone]
        exact iff_of_true rfl hno
    have hsub : ∀ r ∈ requests (log.take 32), r ∈ (requests log).take k := by
      rw [← htake]
      exact fun r hr => List.take_subset_take_left _ hk32 hr
    have hcrowd : crowdedAbove ((requests log).take k) p.toNat := by
      refine crowded_of_many (fun r hr => hasked r (List.mem_of_mem_take hr)) ?_ hslot
      rw [List.length_take, requests, List.length_map]
      omega
    rw [hiff]
    constructor
    · exact fun hno => .inr (.inr ⟨hk32, hno⟩)
    · rintro (⟨-, hno, -⟩ | ⟨-, -, hno⟩ | ⟨-, hno⟩)
      · exact fun hmem => hno (hsub _ hmem)
      · exact (hno hcrowd).elim
      · exact hno

/-! ## The order in which codecs ask -/

namespace CodecLists

/-- The lists of the kinds that come first. -/
def before (l : CodecLists) : MediaType → List Codec
  | .audio => []
  | .video => l.audio
  | .data => l.audio ++ l.video

/-- The lists up to that of a kind. -/
def through (l : CodecLists) (type : MediaType) : List Codec := l.before type ++ l.of type

end CodecLists

/-- The codecs of the factory that an offer adds to the current ones. -/
def newCodecLists (factory : CodecLists) (current : Option SessionDescription) : CodecLists :=
  ⟨newCodecs .audio factory.audio (currentCodecs current .audio),
    newCodecs .video factory.video (currentCodecs current .video),
    newCodecs .data factory.data (currentCodecs current .data)⟩

/-- The codecs of an offer as they are in the current description and in the factory. -/
def sourceCodecs (factory : CodecLists) (current : Option SessionDescription) (type : MediaType) :
    List Codec :=
  (currentCodecLists current).of type ++ (newCodecLists factory current).of type

/-- The codecs that have asked for a payload type when the references of a list are updated: all
current ones, and the added ones of the kinds up to that of the list. -/
def askingCodecs (factory : CodecLists) (current : Option SessionDescription) (type : MediaType) :
    List Codec :=
  (currentCodecLists current).all ++ (newCodecLists factory current).through type

/-- The place of the `j`-th codec of a list among those that ask. -/
def askingIndex (old new : CodecLists) (type : MediaType) (j : Nat) : Nat :=
  if j < (old.of type).length then (old.before type).length + j
  else old.all.length + (new.before type).length + (j - (old.of type).length)

theorem askingIndex_congr {old new old' new' : CodecLists}
    (hold : ∀ type, List.Forall₂ SameButId (old.of type) (old'.of type))
    (hnew : ∀ type, List.Forall₂ SameButId (new.of type) (new'.of type)) (type : MediaType)
    (j : Nat) : askingIndex old' new' type j = askingIndex old new type j := by
  have lens : ∀ {l l' : CodecLists}, (∀ type, List.Forall₂ SameButId (l.of type) (l'.of type)) →
      ∀ type, (l'.of type).length = (l.of type).length ∧
        (l'.before type).length = (l.before type).length ∧ l'.all.length = l.all.length := by
    intro l l' h type
    have ha : l.audio.length = l'.audio.length := (h .audio).length_eq
    have hv : l.video.length = l'.video.length := (h .video).length_eq
    have hd : l.data.length = l'.data.length := (h .data).length_eq
    cases type <;>
      simp [CodecLists.of, CodecLists.before, CodecLists.all, ha, hv, hd]
  obtain ⟨h₁, h₂, h₃⟩ := lens hold type
  rw [askingIndex, askingIndex, h₁, h₂, h₃, (lens hnew type).2.1]

theorem asking_at (old new : CodecLists) (type : MediaType) (j : Nat) :
    (old.all ++ new.through type)[askingIndex old new type j]? =
      (old.of type ++ new.of type)[j]? := by
  have hsplit : ∃ rest, old.all = old.before type ++ old.of type ++ rest := by
    cases type with
    | audio =>
      exact ⟨old.video ++ old.data, by simp [CodecLists.all, CodecLists.before, CodecLists.of]⟩
    | video => exact ⟨old.data, by simp [CodecLists.all, CodecLists.before, CodecLists.of]⟩
    | data => exact ⟨[], by simp [CodecLists.all, CodecLists.before, CodecLists.of]⟩
  rw [askingIndex]
  split
  · rename_i hj
    obtain ⟨rest, hall⟩ := hsplit
    rw [hall, List.append_assoc, List.append_assoc, List.getElem?_append_right (by omega),
      Nat.add_sub_cancel_left, List.getElem?_append_left hj, List.getElem?_append_left hj]
  · rename_i hj
    rw [List.getElem?_append_right (by omega), CodecLists.through,
      List.getElem?_append_right (by omega), List.getElem?_append_right (by omega)]
    congr 1
    omega

theorem findCodecs_eq (type : MediaType) (hsame : List.Forall₂ SameButId source offered)
    (hdyn : ∀ c ∈ reference, isDynamic c.id = true) {u u' : UsedPayloadTypes} {added : List Codec}
    (hadd : u.findAndSetPayloadTypesUsed (newCodecs type reference source) = (added, u')) :
    findCodecsToOffer type reference offered u = (u'.updateRtxCodecs (offered ++ added), u') := by
  simp only [findCodecsToOffer, addCodecs_eq type hsame hdyn, hadd]

/-- **The lists of an offer.** Each codec has the payload type that it was given, and the references
are updated with the table of then. -/
theorem getCodecsToOffer_eq (factory : CodecLists) (current : Option SessionDescription)
    (hdyn : ∀ type, ∀ c ∈ factory.of type, isDynamic c.id = true) :
    ∃ old new : CodecLists,
      (∀ type, List.Forall₂ SameButId ((currentCodecLists current).of type) (old.of type)) ∧
      (∀ type, List.Forall₂ SameButId ((newCodecLists factory current).of type) (new.of type)) ∧
      ∀ type, (findAndSetPayloadTypesUsed .new (askingCodecs factory current type)).1 =
          old.all ++ new.through type ∧
        (getCodecsToOffer factory current).of type =
          (findAndSetPayloadTypesUsed .new (askingCodecs factory current type)).2.updateRtxCodecs
            (old.of type ++ new.of type) := by
  obtain ⟨a, u₁, hA⟩ : ∃ a u₁, findAndSetPayloadTypesUsed .new (currentCodecs current .audio) =
    (a, u₁) := ⟨_, _, rfl⟩
  obtain ⟨v, u₂, hV⟩ : ∃ v u₂, u₁.findAndSetPayloadTypesUsed (currentCodecs current .video) =
    (v, u₂) := ⟨_, _, rfl⟩
  obtain ⟨d, u₃, hD⟩ : ∃ d u₃, u₂.findAndSetPayloadTypesUsed (currentCodecs current .data) =
    (d, u₃) := ⟨_, _, rfl⟩
  obtain ⟨a', u₄, hA'⟩ : ∃ a' u₄, u₃.findAndSetPayloadTypesUsed
    (newCodecs .audio factory.audio (currentCodecs current .audio)) = (a', u₄) := ⟨_, _, rfl⟩
  obtain ⟨v', u₅, hV'⟩ : ∃ v' u₅, u₄.findAndSetPayloadTypesUsed
    (newCodecs .video factory.video (currentCodecs current .video)) = (v', u₅) := ⟨_, _, rfl⟩
  obtain ⟨d', u₆, hD'⟩ : ∃ d' u₆, u₅.findAndSetPayloadTypesUsed
    (newCodecs .data factory.data (currentCodecs current .data)) = (d', u₆) := ⟨_, _, rfl⟩
  have same : ∀ {u u' : UsedPayloadTypes} {source offered : List Codec},
      u.findAndSetPayloadTypesUsed source = (offered, u') →
        List.Forall₂ SameButId source offered := by
    intro u u' source offered h
    have hsame := setAll_same u source
    rw [h] at hsame
    exact hsame
  refine ⟨⟨a, v, d⟩, ⟨a', v', d'⟩, ?_, ?_, ?_⟩
  · rintro (_ | _ | _)
    · exact same hA
    · exact same hV
    · exact same hD
  · rintro (_ | _ | _)
    · exact same hA'
    · exact same hV'
    · exact same hD'
  · have hcurrent : findAndSetPayloadTypesUsed .new (currentCodecLists current).all =
        (a ++ v ++ d, u₃) := by
      simp only [CodecLists.all, currentCodecLists, setAll_append, hA, hV, hD]
    have haudio := findCodecs_eq .audio (same hA) (hdyn .audio) hA'
    have hvideo := findCodecs_eq .video (same hV) (hdyn .video) hV'
    have hdata := findCodecs_eq .data (same hD) (hdyn .data) hD'
    simp only [CodecLists.of] at haudio hvideo hdata
    have hoffer : getCodecsToOffer factory current =
        ⟨u₄.updateRtxCodecs (a ++ a'), u₅.updateRtxCodecs (v ++ v'),
          u₆.updateRtxCodecs (d ++ d')⟩ := by
      simp only [getCodecsToOffer, hA, hV, hD, haudio, hvideo, hdata]
    have hasking : ∀ type, findAndSetPayloadTypesUsed .new (askingCodecs factory current type) =
        (a ++ v ++ d ++ (u₃.findAndSetPayloadTypesUsed
            ((newCodecLists factory current).through type)).1,
          (u₃.findAndSetPayloadTypesUsed ((newCodecLists factory current).through type)).2) := by
      intro type
      rw [askingCodecs, setAll_append, hcurrent]
    intro type
    rw [hasking, hoffer]
    cases type with
    | audio =>
      simp [CodecLists.through, CodecLists.before, CodecLists.of, newCodecLists, hA',
        CodecLists.all]
    | video =>
      simp [CodecLists.through, CodecLists.before, CodecLists.of, newCodecLists, hA', hV',
        setAll_append, CodecLists.all]
    | data =>
      simp [CodecLists.through, CodecLists.before, CodecLists.of, newCodecLists, hA', hV', hD',
        setAll_append, CodecLists.all]

/-! ## The references of an offer -/

/-- The `i`-th codec of a list is an RTX codec, and it is associated with the codec that becomes the
`j`-th one: within the current list with one that has the payload type it refers to, and within the
list of the factory with what the offer has for such a codec, the first one that matches it. -/
def Associated (factory : CodecLists) (current : Option SessionDescription) (type : MediaType)
    (i j : Nat) : Prop :=
  ∃ rtx c, (sourceCodecs factory current type)[i]? = some rtx ∧ isRtxCodec rtx = true ∧
    c.id = aptOf rtx ∧
    if i < (currentCodecs current type).length then (currentCodecs current type)[j]? = some c
    else c ∈ factory.of type ∧
      (sourceCodecs factory current type).findIdx? (fun o => codecMatches type o c) = some j

theorem updateRtx_apt (u : UsedPayloadTypes) {i : Nat} {o o' : Codec}
    (ho : codecs[i]? = some o) (ho' : (u.updateRtxCodecs codecs)[i]? = some o')
    (hrtx : isRtxCodec o = true) : aptOf o' = u.findNewPayloadType (aptOf o) := by
  rw [updateRtxCodecs, List.getElem?_map, ho, Option.map_some, Option.some.injEq] at ho'
  subst ho'
  rw [if_pos hrtx]
  dsimp only
  split
  · rw [aptOf, SortedMap.get?_set, Option.getD_some, readInt_intText]
    rfl
  · rename_i heq
    exact (not_not.mp heq).symm

theorem newCodecs_subset (type : MediaType) (reference offered : List Codec) :
    ∀ c ∈ newCodecs type reference offered, c ∈ reference := by
  induction reference generalizing offered with
  | nil => exact List.forall_mem_nil _
  | cons c reference ih =>
    intro x hx
    rw [newCodecs] at hx
    split at hx
    · exact List.mem_cons_of_mem c (ih _ x hx)
    · rcases List.mem_cons.mp hx with rfl | hx
      · exact List.mem_cons_self
      · exact List.mem_cons_of_mem c (ih _ x hx)

theorem sameButId_at (h : List.Forall₂ SameButId source offered)
    {i : Nat} (hc : source[i]? = some c) : ∃ c', offered[i]? = some c' ∧ SameButId c c' := by
  obtain ⟨hi, rfl⟩ := List.getElem?_eq_some_iff.mp hc
  have hi' : i < offered.length := h.length_eq ▸ hi
  exact ⟨_, List.getElem?_eq_getElem hi', h.get hi hi'⟩

section Offer

variable {factory : CodecLists} {current : Option SessionDescription} {type : MediaType} {i j : Nat}
  (hdyn : ∀ type, ∀ c ∈ factory.of type ++ currentCodecs current type, isDynamic c.id = true)

include hdyn

theorem asking_dynamic : ∀ c ∈ askingCodecs factory current type, isDynamic c.id = true := by
  have hnew : ∀ type, ∀ c ∈ (newCodecLists factory current).of type, isDynamic c.id = true := by
    rintro (_ | _ | _) c hc
    · exact hdyn .audio c (List.mem_append_left _ (newCodecs_subset _ _ _ c hc))
    · exact hdyn .video c (List.mem_append_left _ (newCodecs_subset _ _ _ c hc))
    · exact hdyn .data c (List.mem_append_left _ (newCodecs_subset _ _ _ c hc))
  intro c hc
  rcases List.mem_append.mp hc with hc | hc
  · simp only [CodecLists.all, currentCodecLists, List.mem_append] at hc
    rcases hc with (hc | hc) | hc
    · exact hdyn .audio c (List.mem_append_right _ hc)
    · exact hdyn .video c (List.mem_append_right _ hc)
    · exact hdyn .data c (List.mem_append_right _ hc)
  · cases type with
    | audio => exact hnew .audio c hc
    | video =>
      rcases List.mem_append.mp hc with hc | hc
      · exact hnew .audio c hc
      · exact hnew .video c hc
    | data =>
      rcases List.mem_append.mp hc with hc | hc
      · rcases List.mem_append.mp hc with hc | hc
        · exact hnew .audio c hc
        · exact hnew .video c hc
      · exact hnew .data c hc

theorem offered_at {c : Codec} (hc : (sourceCodecs factory current type)[i]? = some c) :
    ∃ o, ((getCodecsToOffer factory current).of type)[i]? = some o := by
  obtain ⟨old, new, hold, hnew, hoffer⟩ := getCodecsToOffer_eq factory current fun type c hmem =>
    hdyn type c (List.mem_append_left _ hmem)
  obtain ⟨c', hc', -⟩ := sameButId_at (List.rel_append (hold type) (hnew type)) hc
  rw [(hoffer type).2, updateRtxCodecs, List.getElem?_map, hc']
  exact ⟨_, rfl⟩

theorem reference_iff (hassoc : Associated factory current type i j) {rtx o : Codec}
    (hrtx : (sourceCodecs factory current type)[i]? = some rtx)
    (ho : ((getCodecsToOffer factory current).of type)[i]? = some o) :
    (((getCodecsToOffer factory current).of type)[j]?).map Codec.id = some (aptOf o) ↔
      Followed ((askingCodecs factory current type).map fun c => c.id.toNat)
        (askingIndex (currentCodecLists current) (newCodecLists factory current) type j)
        (aptOf rtx).toNat := by
  obtain ⟨rtx', c, hi, hisRtx, hc, hor⟩ := hassoc
  obtain rfl : rtx' = rtx := Option.some.inj (hi.symm.trans hrtx)
  have hcur : (currentCodecLists current).of type = currentCodecs current type := by
    cases type <;> rfl
  have hapt : isDynamic (aptOf rtx') = true := by
    rw [← hc]
    split at hor
    · exact hdyn type c (List.mem_append_right _ (List.mem_of_getElem? hor))
    · exact hdyn type c (List.mem_append_left _ hor.1)
  obtain ⟨x, hx⟩ : ∃ x, (sourceCodecs factory current type)[j]? = some x := by
    split at hor
    · refine ⟨c, ?_⟩
      rw [sourceCodecs, hcur, List.getElem?_append_left (List.getElem?_eq_some_iff.mp hor).1, hor]
    · have hj := (List.findIdx?_eq_some_iff_getElem.mp hor.2).1
      exact ⟨_, List.getElem?_eq_getElem hj⟩
  obtain ⟨old, new, hold, hnew, hoffer⟩ := getCodecsToOffer_eq factory current fun type c hmem =>
    hdyn type c (List.mem_append_left _ hmem)
  obtain ⟨hgiven, hlist⟩ := hoffer type
  have hsame : List.Forall₂ SameButId (sourceCodecs factory current type)
      (old.of type ++ new.of type) := List.rel_append (hold type) (hnew type)
  obtain ⟨y, hy, -⟩ := sameButId_at hsame hx
  obtain ⟨mid, hmid, hsameMid⟩ := sameButId_at hsame hi
  -- what the table has when the references of the list are updated
  have hasking : ∀ c ∈ askingCodecs factory current type, isDynamic c.id = true :=
    asking_dynamic hdyn
  have hlogs := assigned_logs Logs.new hasking
  rw [List.nil_append] at hlogs
  have hrequests := requests_assigned UsedPayloadTypes.new (askingCodecs factory current type)
  have hat : (assigned .new (askingCodecs factory current type))[
      askingIndex (currentCodecLists current) (newCodecLists factory current) type j]? =
      some (x.id.toNat, y.id.toNat) := by
    have hx' := asking_at (currentCodecLists current) (newCodecLists factory current) type j
    have hy' := asking_at old new type j
    rw [askingIndex_congr hold hnew, ← hgiven, hy] at hy'
    exact assigned_at (hx'.trans hx) hy'
  have hasked : ∀ r ∈ requests (assigned .new (askingCodecs factory current type)),
      r ∈ dynamicSlots := by
    rw [hrequests]
    intro r hr
    obtain ⟨c, hc, rfl⟩ := List.mem_map.mp hr
    exact (isDynamic_iff_mem _).mp (hasking c hc)
  rw [← hrequests, ← followed_iff hlogs hasked hapt hat]
  have hid : (((getCodecsToOffer factory current).of type)[j]?).map Codec.id = some y.id := by
    rw [hlist, ← List.getElem?_map, updateRtx_ids, List.getElem?_map, hy]
    rfl
  have hfound : aptOf o = (findAndSetPayloadTypesUsed .new
      (askingCodecs factory current type)).2.findNewPayloadType (aptOf rtx') := by
    have hparams : mid.params = rtx'.params ∧ mid.name = rtx'.name := by
      rw [hsameMid]
      exact ⟨rfl, rfl⟩
    rw [hlist] at ho
    rw [updateRtx_apt _ hmid ho (by rw [isRtxCodec, hparams.2]; exact hisRtx)]
    rw [aptOf, aptOf, hparams.1]
  rw [hid, hfound, Option.some.injEq]
  exact ⟨congrArg _, BitVec.eq_of_toNat_eq⟩

end Offer

/-- **The references of an offer are right** when each of them follows the codec that it is
associated with. -/
theorem rtx_association_iff (factory : CodecLists) (current : Option SessionDescription)
    (hdyn : ∀ type, ∀ c ∈ factory.of type ++ currentCodecs current type, isDynamic c.id = true) :
    (∀ type i j o, Associated factory current type i j →
        ((getCodecsToOffer factory current).of type)[i]? = some o →
          (((getCodecsToOffer factory current).of type)[j]?).map Codec.id = some (aptOf o)) ↔
      ∀ type i j rtx, Associated factory current type i j →
        (sourceCodecs factory current type)[i]? = some rtx →
          Followed ((askingCodecs factory current type).map fun c => c.id.toNat)
            (askingIndex (currentCodecLists current) (newCodecLists factory current) type j)
            (aptOf rtx).toNat := by
  constructor
  · intro h type i j rtx hassoc hrtx
    obtain ⟨o, ho⟩ := offered_at hdyn hrtx
    exact (reference_iff hdyn hassoc hrtx ho).mp (h type i j o hassoc ho)
  · intro h type i j o hassoc ho
    obtain ⟨rtx, -, hrtx, -⟩ := id hassoc
    exact (reference_iff hdyn hassoc hrtx ho).mpr (h type i j rtx hassoc hrtx)

/-! ## A reference that follows a codec of another kind -/

/-- A video codec with an RTX codec, and a data codec with the same payload type. -/
def sharedTypeDescription : SessionDescription :=
  ⟨[codecContent "video".toList .video
      [namedCodec 100 "VP8".toList .empty, rtxCodec 101 "100".toList],
    codecContent "data".toList .data [namedCodec 100 "google-data".toList .empty]], [], []⟩

theorem sharedType_dynamic : ∀ type, ∀ c ∈ CodecLists.of ⟨[], [], []⟩ type ++
    currentCodecs (some sharedTypeDescription) type, isDynamic c.id = true := by
  rintro (_ | _ | _) <;> decide

theorem rtx_association_iff_sharedType :
    (∀ type i j o, Associated ⟨[], [], []⟩ (some sharedTypeDescription) type i j →
        ((getCodecsToOffer ⟨[], [], []⟩ (some sharedTypeDescription)).of type)[i]? = some o →
          (((getCodecsToOffer ⟨[], [], []⟩ (some sharedTypeDescription)).of type)[j]?).map
            Codec.id =
            some (aptOf o)) ↔
      ∀ type i j rtx, Associated ⟨[], [], []⟩ (some sharedTypeDescription) type i j →
        (sourceCodecs ⟨[], [], []⟩ (some sharedTypeDescription) type)[i]? = some rtx →
          Followed ((askingCodecs ⟨[], [], []⟩ (some sharedTypeDescription) type).map
              fun c => c.id.toNat)
            (askingIndex (currentCodecLists (some sharedTypeDescription))
              (newCodecLists ⟨[], [], []⟩ (some sharedTypeDescription)) type j)
            (aptOf rtx).toNat :=
  rtx_association_iff _ _ sharedType_dynamic

/-- The video codec keeps payload type 100 and the data codec gets 127, which the RTX codec of the
video codec then names. -/
theorem rtx_follows_data_codec :
    (∀ type, ∀ c ∈ CodecLists.of ⟨[], [], []⟩ type ++
        currentCodecs (some sharedTypeDescription) type, isDynamic c.id = true) ∧
      Associated ⟨[], [], []⟩ (some sharedTypeDescription) .video 1 0 ∧
      ((getCodecsToOffer ⟨[], [], []⟩ (some sharedTypeDescription)).of .video).map
        (fun c => (c.id, aptOf c)) = [(100, 0), (101, 127)] := by
  refine ⟨sharedType_dynamic, ?_, by decide⟩
  exact ⟨rtxCodec 101 "100".toList, namedCodec 100 "VP8".toList .empty, rfl, by decide, by decide,
    rfl⟩

end Libjingle.Media
