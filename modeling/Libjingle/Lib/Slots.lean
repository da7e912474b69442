import Mathlib.Data.Finset.Card

/-!
# Slots that are given on request

Requests for slots are answered one after another: a request gets the slot it asks for when that is
free, and the highest free slot when it is not. A log has each request with the slot it was given.
-/

namespace Libjingle.Lib

variable {α : Type}

/-- The requests of a log. -/
def requests (log : List (α × α)) : List α := log.map Prod.fst

/-- The slots that are in use. -/
def grants (log : List (α × α)) : List α := log.map Prod.snd

theorem requests_append (a b : List (α × α)) : requests (a ++ b) = requests a ++ requests b :=
  List.map_append

theorem grants_append (a b : List (α × α)) : grants (a ++ b) = grants a ++ grants b :=
  List.map_append

theorem mem_requests {log : List (α × α)} {p : α} : p ∈ requests log ↔ ∃ n, (p, n) ∈ log := by
  rw [requests, List.mem_map]
  constructor
  · rintro ⟨⟨r, n⟩, hmem, rfl⟩
    exact ⟨n, hmem⟩
  · rintro ⟨n, hmem⟩
    exact ⟨_, hmem, rfl⟩

theorem mem_grants {log : List (α × α)} {n : α} : n ∈ grants log ↔ ∃ r, (r, n) ∈ log := by
  rw [grants, List.mem_map]
  constructor
  · rintro ⟨⟨r, n⟩, hmem, rfl⟩
    exact ⟨r, hmem⟩
  · rintro ⟨r, hmem⟩
    exact ⟨_, hmem, rfl⟩

/-- The first request for a slot. -/
theorem first_request {log : List (α × α)} {p : α} (h : p ∈ requests log) :
    ∃ a n b, log = a ++ (p, n) :: b ∧ p ∉ requests a := by
  obtain ⟨r₁, r₂, heq, hno⟩ := List.eq_append_cons_of_mem h
  obtain ⟨a, b, rfl, rfl, hb⟩ := List.map_eq_append_iff.mp heq
  obtain ⟨⟨p', n⟩, b, rfl, rfl, -⟩ := List.map_eq_cons_iff.mp hb
  exact ⟨a, n, b, rfl, hno⟩

variable [LinearOrder α] {slots : Finset α}

/-- What a request gets while the slots `used` are in use. -/
def Grant (slots : Finset α) (used : List α) (request slot : α) : Prop :=
  request ∉ used ∧ slot = request ∨
    request ∈ used ∧ slot ∈ slots ∧ slot ∉ used ∧ ∀ t ∈ slots, t ∉ used → t ≤ slot

/-- Every request of a log is for a slot, and got what was due then. -/
def Granted (slots : Finset α) (log : List (α × α)) : Prop :=
  ∀ a r n b, log = a ++ (r, n) :: b → r ∈ slots ∧ Grant slots (grants a) r n

/-- No slot above `p` is free. -/
def FullAbove (slots : Finset α) (log : List (α × α)) (p : α) : Prop :=
  ∀ t ∈ slots, p < t → t ∈ grants log

theorem FullAbove.mono {log more : List (α × α)} {p : α} (h : FullAbove slots log p) :
    FullAbove slots (log ++ more) p := by
  intro t ht hlt
  rw [grants_append]
  exact List.mem_append_left _ (h t ht hlt)

/-! ## The slots in use -/

namespace Granted

variable {log a b c : List (α × α)} {p r n n₁ n₂ : α}

theorem nil : Granted slots [] := fun _ _ _ _ h => absurd h (by simp)

theorem left (h : Granted slots (a ++ b)) : Granted slots a := fun a' r n b' heq =>
  h a' r n (b' ++ b) (by rw [heq, List.append_assoc, List.cons_append])

theorem snoc (h : Granted slots log) (hr : r ∈ slots) (hn : Grant slots (grants log) r n) :
    Granted slots (log ++ [(r, n)]) := by
  intro a r' n' b heq
  rcases List.eq_nil_or_concat b with rfl | ⟨b, x, rfl⟩
  · obtain ⟨rfl, hx⟩ := List.append_inj' heq rfl
    cases hx
    exact ⟨hr, hn⟩
  · rw [List.concat_eq_append, ← List.cons_append, ← List.append_assoc] at heq
    exact h a r' n' b (List.append_inj' heq rfl).1

theorem slot_mem (h : Granted slots (a ++ (r, n) :: b)) : n ∈ slots ∧ n ∉ grants a := by
  obtain ⟨hr, hgrant⟩ := h a r n b rfl
  rcases hgrant with ⟨hfree, rfl⟩ | ⟨-, hn, hfree, -⟩
  · exact ⟨hr, hfree⟩
  · exact ⟨hn, hfree⟩

theorem grants_subset (h : Granted slots log) : ∀ n ∈ grants log, n ∈ slots := by
  intro n hn
  obtain ⟨r, hmem⟩ := mem_grants.mp hn
  obtain ⟨a, b, rfl⟩ := List.append_of_mem hmem
  exact h.slot_mem.1

/-- No slot is given twice. -/
theorem nodup (h : Granted slots log) : (grants log).Nodup := by
  induction log using List.reverseRecOn with
  | nil => exact List.nodup_nil
  | append_singleton log x ih =>
    obtain ⟨r, n⟩ := x
    rw [grants_append]
    refine List.nodup_append.mpr ⟨ih h.left, List.nodup_singleton n, ?_⟩
    intro m hm n' hn' heq
    rw [heq, List.mem_singleton.mp hn'] at hm
    exact h.slot_mem.2 hm

/-- A slot that was asked for is in use. -/
theorem request_used (h : Granted slots log) : ∀ r ∈ requests log, r ∈ grants log := by
  intro r hr
  obtain ⟨n, hmem⟩ := mem_requests.mp hr
  obtain ⟨a, b, rfl⟩ := List.append_of_mem hmem
  rw [grants_append, List.mem_append]
  rcases (h a r n b rfl).2 with ⟨-, rfl⟩ | ⟨hused, -⟩
  · exact .inr List.mem_cons_self
  · exact .inl hused

/-! ## The order of the slots given -/

/-- **Once a request got another slot than its own, all slots given later are lower.** -/
theorem lt_of_after (h : Granted slots (a ++ (p, n) :: b)) (hused : p ∈ grants a) :
    ∀ m ∈ grants b, m < n := by
  intro m hm
  obtain ⟨r, hmem⟩ := mem_grants.mp hm
  obtain ⟨b₁, b₂, rfl⟩ := List.append_of_mem hmem
  have hlater : Granted slots ((a ++ (p, n) :: b₁) ++ (r, m) :: b₂) := by
    simpa only [List.append_assoc, List.cons_append] using h
  obtain ⟨hslot, hnew⟩ := hlater.slot_mem
  rw [grants_append, List.mem_append, not_or] at hnew
  rcases (h a p n _ rfl).2 with ⟨hfree, -⟩ | ⟨-, -, -, hmax⟩
  · exact (hfree hused).elim
  · refine lt_of_le_of_ne (hmax m hslot hnew.1) ?_
    rintro rfl
    exact hnew.2 List.mem_cons_self

/-- A slot that is in use and was not asked for was the highest free one. -/
theorem fullAbove_of_not_requested (h : Granted slots a) (hused : p ∈ grants a)
    (hno : p ∉ requests a) : FullAbove slots a p := by
  obtain ⟨r, hmem⟩ := mem_grants.mp hused
  obtain ⟨a₁, a₂, rfl⟩ := List.append_of_mem hmem
  rcases (h a₁ r p a₂ rfl).2 with ⟨-, rfl⟩ | ⟨-, -, -, hmax⟩
  · exact (hno (mem_requests.mpr ⟨_, hmem⟩)).elim
  · refine FullAbove.mono fun t ht hlt => ?_
    by_contra hfree
    exact absurd (hmax t ht hfree) (not_le.mpr hlt)

/-- The first of the requests for a slot against a later one. -/
theorem first_lt_iff (h : Granted slots (a ++ (p, n₁) :: b ++ (p, n₂) :: c))
    (hfirst : p ∉ requests a) :
    n₁ < n₂ ↔ ¬ FullAbove slots (a ++ (p, n₁) :: b) p := by
  have hleft : Granted slots (a ++ (p, n₁) :: b) := h.left
  have hused : p ∈ grants (a ++ (p, n₁) :: b) := hleft.request_used p
    (mem_requests.mpr ⟨n₁, List.mem_append_right _ List.mem_cons_self⟩)
  rcases (hleft a p n₁ b rfl).2 with ⟨-, rfl⟩ | ⟨hp, -⟩
  · obtain ⟨hslot, hnew⟩ := h.slot_mem
    rcases (h _ n₁ n₂ c rfl).2 with ⟨hfree, -⟩ | ⟨-, -, -, hmax⟩
    · exact (hfree hused).elim
    constructor
    · intro hlt hfull
      exact hnew (hfull n₂ hslot hlt)
    · intro hno
      simp only [FullAbove, not_forall] at hno
      obtain ⟨t, ht, hlt, hfree⟩ := hno
      exact hlt.trans_le (hmax t ht hfree)
  · have hlt : n₂ < n₁ := by
      rw [List.append_assoc, List.cons_append] at h
      refine h.lt_of_after hp n₂ ?_
      rw [grants_append]
      exact List.mem_append_right _ List.mem_cons_self
    have hfull : FullAbove slots (a ++ (p, n₁) :: b) p :=
      (hleft.left.fullAbove_of_not_requested hp hfirst).mono
    exact ⟨fun hgt => absurd hgt (lt_asymm hlt), fun hno => (hno hfull).elim⟩

/-- The first request for `p` was given the highest slot when no slot above `p` was free at any
later one. -/
theorem first_highest_iff (h : Granted slots (a ++ (p, n) :: b)) (hfirst : p ∉ requests a) :
    (∀ m, (p, m) ∈ a ++ (p, n) :: b → m ≤ n) ↔
      ∀ b₁ m b₂, b = b₁ ++ (p, m) :: b₂ → FullAbove slots (a ++ (p, n) :: b₁) p := by
  have hat : ∀ b₁ m b₂, b = b₁ ++ (p, m) :: b₂ →
      (n < m ↔ ¬ FullAbove slots (a ++ (p, n) :: b₁) p) := by
    rintro b₁ m b₂ rfl
    refine first_lt_iff (c := b₂) ?_ hfirst
    simpa only [List.append_assoc, List.cons_append] using h
  constructor
  · intro hmax b₁ m b₂ heq
    by_contra hfree
    have hmem : (p, m) ∈ a ++ (p, n) :: b := by simp [heq]
    exact absurd (hmax m hmem) (not_le.mpr ((hat b₁ m b₂ heq).mpr hfree))
  · intro hfull m hm
    rcases List.mem_append.mp hm with hm | hm
    · exact (hfirst (mem_requests.mpr ⟨m, hm⟩)).elim
    · rcases List.mem_cons.mp hm with heq | hm
      · exact (Prod.mk.inj heq).2 ▸ le_refl n
      · obtain ⟨b₁, b₂, heq⟩ := List.append_of_mem hm
        exact not_lt.mp fun hlt => (hat b₁ m b₂ heq).mp hlt (hfull b₁ m b₂ heq)

/-- A later request for `p` was given the highest slot when it was the second, and a slot above `p`
was free then. -/
theorem later_highest_iff (h : Granted slots (a ++ (p, n) :: b)) (hlater : p ∈ requests a) :
    (∀ m, (p, m) ∈ a ++ (p, n) :: b → m ≤ n) ↔
      (requests a).count p = 1 ∧ ¬ FullAbove slots a p := by
  obtain ⟨a₁, n₁, a₂, rfl, hfirst⟩ := first_request hlater
  have hused : p ∈ grants (a₁ ++ (p, n₁) :: a₂) := h.left.request_used p hlater
  have hsecond := h.first_lt_iff hfirst
  have hcount : (requests (a₁ ++ (p, n₁) :: a₂)).count p = 1 ↔ p ∉ requests a₂ := by
    rw [requests_append, List.count_append, List.count_eq_zero_of_not_mem hfirst]
    simp [requests, List.count_eq_zero]
  rw [hcount]
  constructor
  · intro hmax
    have hne : n₁ ≠ n := by
      rintro rfl
      exact h.slot_mem.2 (mem_grants.mpr ⟨p, by simp⟩)
    refine ⟨fun hmem₂ => ?_, hsecond.mp (lt_of_le_of_ne (hmax n₁ (by simp)) hne)⟩
    obtain ⟨m, hm⟩ := mem_requests.mp hmem₂
    obtain ⟨b₁, b₂, rfl⟩ := List.append_of_mem hm
    have hat : Granted slots ((a₁ ++ (p, n₁) :: b₁) ++ (p, m) :: (b₂ ++ (p, n) :: b)) := by
      simpa only [List.append_assoc, List.cons_append] using h
    have hbelow := hat.lt_of_after (hat.left.request_used p (mem_requests.mpr ⟨n₁, by simp⟩))
      n (mem_grants.mpr ⟨p, by simp⟩)
    exact absurd (hmax m (by simp)) (not_le.mpr hbelow)
  · rintro ⟨hno, hfree⟩ m hm
    simp only [List.append_assoc, List.cons_append, List.mem_append, List.mem_cons, Prod.mk.injEq,
      true_and] at hm
    rcases hm with hm | rfl | hm | rfl | hm
    · exact (hfirst (mem_requests.mpr ⟨m, hm⟩)).elim
    · exact (hsecond.mpr hfree).le
    · exact (hno (mem_requests.mpr ⟨m, hm⟩)).elim
    · exact le_refl m
    · exact (h.lt_of_after hused m (mem_grants.mpr ⟨p, hm⟩)).le

/-! ## Counting -/

/-- A slot that is not above `p` was asked for by someone, while a slot above `p` is free. -/
theorem requested_of_free (h : Granted slots log) {t : α} (ht : t ∈ slots) (hlt : p < t)
    (hfree : t ∉ grants log) : ∀ n ∈ grants log, n ≤ p → n ∈ requests log := by
  intro n hn hle
  obtain ⟨r, hmem⟩ := mem_grants.mp hn
  obtain ⟨a, b, rfl⟩ := List.append_of_mem hmem
  rcases (h a r n b rfl).2 with ⟨-, rfl⟩ | ⟨-, -, -, hmax⟩
  · exact mem_requests.mpr ⟨_, hmem⟩
  · rw [grants_append, List.mem_append, not_or] at hfree
    exact absurd ((hmax t ht hfree.1).trans hle) (not_le.mpr hlt)

/-- **Whether a slot above `p` is free** is seen from the requests alone: from their number and from
how many different ones are not above `p`. -/
theorem fullAbove_iff (h : Granted slots log) :
    FullAbove slots log p ↔
      (slots.filter (p < ·)).card + ((requests log).toFinset.filter (· ≤ p)).card ≤ log.length := by
  have hcard : log.length = ((grants log).toFinset.filter (· ≤ p)).card +
      ((grants log).toFinset.filter (p < ·)).card := by
    have hsplit := (grants log).toFinset.card_filter_add_card_filter_not (· ≤ p)
    simp only [not_le] at hsplit
    rw [hsplit, List.toFinset_card_of_nodup h.nodup, grants, List.length_map]
  have hrequests :
      (requests log).toFinset.filter (· ≤ p) ⊆ (grants log).toFinset.filter (· ≤ p) := by
    refine Finset.filter_subset_filter _ fun r hr => ?_
    rw [List.mem_toFinset] at hr ⊢
    exact h.request_used r hr
  constructor
  · intro hfull
    have hslots : slots.filter (p < ·) ⊆ (grants log).toFinset.filter (p < ·) := by
      intro t ht
      obtain ⟨ht, hlt⟩ := Finset.mem_filter.mp ht
      exact Finset.mem_filter.mpr ⟨List.mem_toFinset.mpr (hfull t ht hlt), hlt⟩
    have h₁ := Finset.card_le_card hrequests
    have h₂ := Finset.card_le_card hslots
    omega
  · intro hle t ht hlt
    by_contra hfree
    have hlow : (grants log).toFinset.filter (· ≤ p) ⊆ (requests log).toFinset.filter (· ≤ p) := by
      intro n hn
      obtain ⟨hn, hnp⟩ := Finset.mem_filter.mp hn
      exact Finset.mem_filter.mpr ⟨List.mem_toFinset.mpr
        (h.requested_of_free ht hlt hfree n (List.mem_toFinset.mp hn) hnp), hnp⟩
    have hhigh : (grants log).toFinset.filter (p < ·) ⊂ slots.filter (p < ·) := by
      refine Finset.ssubset_iff_subset_ne.mpr ⟨fun n hn => ?_, fun heq => ?_⟩
      · obtain ⟨hn, hnp⟩ := Finset.mem_filter.mp hn
        exact Finset.mem_filter.mpr ⟨h.grants_subset n (List.mem_toFinset.mp hn), hnp⟩
      · have hmem : t ∈ (grants log).toFinset.filter (p < ·) :=
          heq ▸ Finset.mem_filter.mpr ⟨ht, hlt⟩
        exact hfree (List.mem_toFinset.mp (Finset.mem_filter.mp hmem).1)
    have h₁ := Finset.card_le_card hlow
    have h₂ := Finset.card_lt_card hhigh
    omega

end Granted

end Libjingle.Lib
