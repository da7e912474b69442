import Libjingle.Base.TimeUtils

/-!
# Units per second (`base/ratetracker.h`, `base/ratetracker.cc`)

`units_second` looks at the time since its last reference point. Once that is a second or more,
the new units are split in the proportion of the whole seconds to the rest: the first part is what
the rate is computed from, the other part is left for the unfinished second. The new reference
point lies a whole number of seconds after the last one.

* The product is one of two `int`s; where it does not fit it is taken to wrap around.

## Results

* `run_splits`: over any run whose calls fit, the splits are exact and each unit is in one
  interval.
-/

namespace Libjingle

/-- The value of `last_units_second_time_` before there is a reference point. -/
def unsetTime : U32 := 0xFFFFFFFF

structure RateTracker where
  totalUnits : U64
  unitsSecond_ : U64
  lastUnitsSecondTime : U32
  lastUnitsSecondCalc : U64

namespace RateTracker

/-- `RateTracker()`. -/
def initial : RateTracker := ⟨0, 0, unsetTime, 0⟩

/-- The units since the last reference point. -/
def newUnits (s : RateTracker) : U64 := s.totalUnits - s.lastUnitsSecondCalc

def delta (s : RateTracker) (currentTime : U32) : Int := timeDiff currentTime s.lastUnitsSecondTime

/-- The range check is on: a recomputation has a positive `delta`. -/
def fractionTime (s : RateTracker) (currentTime : U32) : Int := s.delta currentTime % 1000

/-- The value of an `int` operation, which wraps around. -/
def wrapInt (z : Int) : Int := (BitVec.ofInt 32 z).toInt

/-- `static_cast<int>(...) * fraction_time / delta`. -/
def fractionUnits (s : RateTracker) (currentTime : U32) : Int :=
  (wrapInt ((s.newUnits.setWidth 32).toInt * s.fractionTime currentTime)).tdiv
    (s.delta currentTime)

/-- The units of the whole seconds. -/
def countedUnits (s : RateTracker) (currentTime : U32) : U64 :=
  s.newUnits - BitVec.ofInt 64 (s.fractionUnits currentTime)

/-- There is a reference point, and it is a second ago. -/
def Recomputes (s : RateTracker) (currentTime : U32) : Prop :=
  s.lastUnitsSecondTime ≠ unsetTime ∧ 1000 ≤ s.delta currentTime

instance (s : RateTracker) (currentTime : U32) : Decidable (s.Recomputes currentTime) :=
  inferInstanceAs (Decidable (_ ∧ _))

def recompute (s : RateTracker) (currentTime : U32) : RateTracker :=
  { s with
    unitsSecond_ := s.countedUnits currentTime / BitVec.ofInt 64 (s.delta currentTime / 1000)
    lastUnitsSecondTime := currentTime - BitVec.ofInt 32 (s.fractionTime currentTime)
    lastUnitsSecondCalc := s.totalUnits - BitVec.ofInt 64 (s.fractionUnits currentTime) }

def start (s : RateTracker) (currentTime : U32) : RateTracker :=
  if s.lastUnitsSecondTime = unsetTime then
    { s with lastUnitsSecondTime := currentTime, lastUnitsSecondCalc := s.totalUnits }
  else s

def unitsSecond (s : RateTracker) (currentTime : U32) : RateTracker :=
  (if s.Recomputes currentTime then s.recompute currentTime else s).start currentTime

def update (s : RateTracker) (units : U64) : RateTracker :=
  { s with totalUnits := s.totalUnits + units }

/-! ## Runs -/

inductive Call where
  | update (units : U64)
  | unitsSecond (currentTime : U32)

def call (s : RateTracker) : Call → RateTracker
  | .update units => s.update units
  | .unitsSecond currentTime => s.unitsSecond currentTime

def run (s : RateTracker) (calls : List Call) : RateTracker := calls.foldl call s

/-- A completed interval: `delta` milliseconds in which `newUnits` came, `counted` of them in its
whole seconds. -/
structure Interval where
  delta : Int
  newUnits : Nat
  fraction : Int
  first : Nat
  counted : Nat

/-- The unit lies in the whole seconds of the interval. -/
def Interval.Counts (i : Interval) (unit : Nat) : Prop :=
  i.first ≤ unit ∧ unit < i.first + i.counted

instance (i : Interval) (unit : Nat) : Decidable (i.Counts unit) :=
  inferInstanceAs (Decidable (_ ∧ _))

/-- What a call completes, for the results; `first` numbers the units from 0. -/
def interval (s : RateTracker) : Call → Option Interval
  | .update _ => none
  | .unitsSecond currentTime =>
    if s.Recomputes currentTime then
      some ⟨s.delta currentTime, s.newUnits.toNat, s.fractionUnits currentTime,
        s.lastUnitsSecondCalc.toNat, (s.countedUnits currentTime).toNat⟩
    else none

def intervals : RateTracker → List Call → List Interval
  | _, [] => []
  | s, c :: calls => (s.interval c).toList ++ (s.call c).intervals calls

/-- How often the intervals count a unit. -/
def timesCounted (s : RateTracker) (calls : List Call) (unit : Nat) : Nat :=
  (s.intervals calls).countP (fun i => decide (i.Counts unit))

def unitsIn : List Call → Nat
  | [] => 0
  | .update units :: calls => units.toNat + unitsIn calls
  | .unitsSecond _ :: calls => unitsIn calls

/-- The units before the first call of `units_second`, which sets the first reference point. -/
def unitsBefore : List Call → Nat
  | .update units :: calls => units.toNat + unitsBefore calls
  | _ => 0

/-- The product fits an `int`, and the new reference point is one. -/
def FitsCall (s : RateTracker) : Call → Prop
  | .update _ => True
  | .unitsSecond currentTime =>
    (s.lastUnitsSecondTime = unsetTime → currentTime ≠ unsetTime) ∧
    (s.Recomputes currentTime →
      s.newUnits.toNat * s.fractionTime currentTime < 2147483648 ∧
      currentTime - BitVec.ofInt 32 (s.fractionTime currentTime) ≠ unsetTime)

instance (s : RateTracker) : (c : Call) → Decidable (s.FitsCall c)
  | .update _ => isTrue trivial
  | .unitsSecond _ => inferInstanceAs (Decidable ((_ → _) ∧ (_ → _)))

/-- At no call does the product overflow, and at none is the new reference point the value that
stands for none, `static_cast<uint32>(-1)`. -/
def Fits : RateTracker → List Call → Prop
  | _, [] => True
  | s, c :: calls => s.FitsCall c ∧ (s.call c).Fits calls

instance decidableFits : (s : RateTracker) → (calls : List Call) → Decidable (s.Fits calls)
  | _, [] => isTrue trivial
  | s, c :: calls =>
    have := decidableFits (s.call c) calls
    inferInstanceAs (Decidable (s.FitsCall c ∧ (s.call c).Fits calls))

/-! ## The split -/

variable {s : RateTracker} {currentTime : U32}

theorem delta_lt (s : RateTracker) (currentTime : U32) : s.delta currentTime < 2147483648 := by
  have h := BitVec.toInt_lt (x := currentTime - s.lastUnitsSecondTime)
  rw [delta, timeDiff]
  omega

theorem wrapInt_product (d : U64) (f : Int) :
    wrapInt ((d.setWidth 32).toInt * f) = ((d.toNat : Int) * f).bmod 4294967296 := by
  have hmod : ((d.toNat : Int) % ((2 ^ 32 : Nat) : Int)).bmod (2 ^ 32) =
      (d.toNat : Int).bmod (2 ^ 32) := Int.emod_bmod _ _
  rw [wrapInt, BitVec.toInt_ofInt, BitVec.toInt_eq_toNat_bmod, Int.bmod_mul_bmod,
    BitVec.toNat_setWidth, Int.natCast_mod, ← Int.bmod_mul_bmod, hmod, Int.bmod_mul_bmod]
  rfl

theorem tdiv_nonpos {p q : Int} (hp : p ≤ 0) (hq : 0 ≤ q) : p.tdiv q ≤ 0 := by
  have h := Int.tdiv_nonneg (Int.neg_nonneg_of_nonpos hp) hq
  rw [Int.neg_tdiv] at h
  omega

theorem bmod_tdiv_eq_iff {p q : Int} (hp : 0 ≤ p) (hpos : 0 < q) (hlt : q < 2147483648) :
    (p.bmod 4294967296).tdiv q = p / q ↔ p < 2147483648 := by
  constructor
  · intro h
    by_contra hlarge
    have hbmod := Int.bmod_eq_self_sub_mul_bdiv p 4294967296
    have hle := Int.bmod_lt (x := p) (m := 4294967296) (by omega)
    have hquotient : 1 ≤ p / q := Int.le_ediv_of_mul_le hpos (by omega)
    have hnonneg : 0 ≤ p.bmod 4294967296 := by
      by_contra hneg
      have hnonpos := tdiv_nonpos (p := p.bmod 4294967296) (by omega) (Int.le_of_lt hpos)
      omega
    -- Both quotients are the same, so the two differ by less than the divisor.
    rw [Int.tdiv_eq_ediv_of_nonneg hnonneg] at h
    have hwrapped := Int.mul_ediv_self_le (x := p.bmod 4294967296) (k := q) (by omega)
    have hdivided := Int.mul_ediv_add_emod p q
    have hrest := Int.emod_lt_of_pos p hpos
    rw [h] at hwrapped
    omega
  · intro h
    rw [Int.bmod_eq_of_le (by omega) (by omega)]
    exact Int.tdiv_eq_ediv_of_nonneg hp

theorem fractionTime_bounds (s : RateTracker) (currentTime : U32) :
    0 ≤ s.fractionTime currentTime ∧ s.fractionTime currentTime < 1000 := by
  rw [fractionTime]
  omega

/-- **The split is exact if and only if the product fits an `int`.** -/
theorem fractionUnits_eq_iff (h : 1000 ≤ s.delta currentTime) :
    s.fractionUnits currentTime =
        s.newUnits.toNat * s.fractionTime currentTime / s.delta currentTime ↔
      s.newUnits.toNat * s.fractionTime currentTime < 2147483648 := by
  rw [fractionUnits, wrapInt_product]
  exact bmod_tdiv_eq_iff (Int.mul_nonneg (Int.natCast_nonneg _) (fractionTime_bounds s _).1)
    (by omega) (delta_lt s currentTime)

/-! ## One call -/

/-- The units of the last reference point are among all units. -/
def Within (s : RateTracker) : Prop := s.lastUnitsSecondCalc.toNat ≤ s.totalUnits.toNat

/-- What a recomputation does, in numbers without overflow. -/
structure Splits (s t : RateTracker) (i : Interval) : Prop where
  long : 1000 ≤ i.delta
  newUnits : i.newUnits = s.totalUnits.toNat - s.lastUnitsSecondCalc.toNat
  fraction : i.fraction = i.newUnits * (i.delta % 1000) / i.delta
  whole : i.counted + i.fraction = i.newUnits
  first : i.first = s.lastUnitsSecondCalc.toNat
  next : t.lastUnitsSecondCalc.toNat = i.first + i.counted
  total : t.totalUnits = s.totalUnits
  started : t.lastUnitsSecondTime ≠ unsetTime

/-- What a recomputation that fits does. -/
theorem recompute_splits (hwithin : s.Within) (hre : s.Recomputes currentTime)
    (hfits : s.FitsCall (.unitsSecond currentTime)) :
    ∃ i, s.interval (.unitsSecond currentTime) = some i ∧
      Splits s (s.call (.unitsSecond currentTime)) i := by
  obtain ⟨hproduct, htime⟩ := hfits.2 hre
  obtain ⟨hzero, hfraction⟩ := fractionTime_bounds s currentTime
  have hlong := hre.2
  have hexact := (fractionUnits_eq_iff hlong).mpr hproduct
  have hstate : s.call (.unitsSecond currentTime) = s.recompute currentTime := by
    rw [call, unitsSecond, if_pos hre, start]
    exact if_neg htime
  have hnew : s.newUnits.toNat = s.totalUnits.toNat - s.lastUnitsSecondCalc.toNat := by
    rw [RateTracker.newUnits, BitVec.toNat_sub_of_le hwithin]
  -- The fraction is one of the new units, as its time is one of the interval.
  have hprod : (0 : Int) ≤ s.newUnits.toNat * s.fractionTime currentTime :=
    Int.mul_nonneg (Int.natCast_nonneg _) hzero
  have hnonneg : 0 ≤ s.fractionUnits currentTime := by
    rw [hexact]
    exact Int.ediv_nonneg hprod (by omega)
  have hle : s.fractionUnits currentTime ≤ s.newUnits.toNat := by
    rw [hexact]
    refine Int.ediv_le_of_le_mul (by omega) (Int.mul_le_mul_of_nonneg_left ?_ (by omega))
    omega
  have hlt := s.newUnits.isLt
  have hint : (BitVec.ofInt 64 (s.fractionUnits currentTime)).toNat =
      (s.fractionUnits currentTime).toNat := by
    rw [BitVec.toNat_ofInt, Int.emod_eq_of_lt hnonneg (by omega)]
  have hcounted : (s.countedUnits currentTime).toNat =
      s.newUnits.toNat - (s.fractionUnits currentTime).toNat := by
    rw [countedUnits, BitVec.toNat_sub_of_le, hint]
    rw [BitVec.le_def, hint]
    omega
  have hcalc : (s.recompute currentTime).lastUnitsSecondCalc.toNat =
      s.totalUnits.toNat - (s.fractionUnits currentTime).toNat := by
    rw [recompute, BitVec.toNat_sub_of_le, hint]
    rw [BitVec.le_def, hint]
    omega
  refine ⟨_, if_pos hre, hlong, hnew, hexact, ?_, rfl, ?_, ?_, ?_⟩
  · dsimp only
    omega
  · rw [hstate, hcalc]
    dsimp only
    have := hwithin
    rw [Within] at this
    omega
  · rw [hstate]
    rfl
  · rw [hstate]
    exact htime

/-- Once there is a reference point, a call of `units_second` splits, or it changes nothing. -/
theorem unitsSecond_started (hstarted : s.lastUnitsSecondTime ≠ unsetTime)
    (hre : ¬ s.Recomputes currentTime) : s.call (.unitsSecond currentTime) = s := by
  rw [call, unitsSecond, if_neg hre, start, if_neg hstarted]

theorem unitsSecond_first (currentTime : U32) (hstarted : s.lastUnitsSecondTime = unsetTime) :
    s.call (.unitsSecond currentTime) =
      { s with lastUnitsSecondTime := currentTime, lastUnitsSecondCalc := s.totalUnits } := by
  rw [call, unitsSecond, if_neg fun h : s.Recomputes currentTime => h.1 hstarted, start,
    if_pos hstarted]

theorem update_total (units : U64) (h : s.totalUnits.toNat + units.toNat < 18446744073709551616) :
    (s.call (.update units)).totalUnits.toNat = s.totalUnits.toNat + units.toNat := by
  change (s.totalUnits + units).toNat = _
  rw [BitVec.toNat_add]
  exact Nat.mod_eq_of_lt h

/-! ## Any number of calls -/

theorem run_append (s : RateTracker) (before after : List Call) :
    s.run (before ++ after) = (s.run before).run after :=
  List.foldl_append ..

theorem fits_append {before after : List Call} (h : s.Fits (before ++ after)) :
    s.Fits before ∧ (s.run before).Fits after := by
  induction before generalizing s with
  | nil => exact ⟨trivial, h⟩
  | cons c before ih => exact ⟨⟨h.1, (ih h.2).1⟩, (ih h.2).2⟩

theorem unitsIn_append (before after : List Call) :
    unitsIn (before ++ after) = unitsIn before + unitsIn after := by
  induction before with
  | nil => exact (Nat.zero_add _).symm
  | cons c before ih =>
    cases c with
    | update units => rw [List.cons_append, unitsIn, unitsIn, ih, Nat.add_assoc]
    | unitsSecond => rw [List.cons_append, unitsIn, unitsIn, ih]

structure Interval.Exact (i : Interval) : Prop where
  long : 1000 ≤ i.delta
  fraction : i.fraction = i.newUnits * (i.delta % 1000) / i.delta
  whole : i.counted + i.fraction = i.newUnits

/-- What a run leaves: the intervals cover the units from `first` on. -/
structure Accounts (s : RateTracker) (calls : List Call) (first : Nat) : Prop where
  within : (s.run calls).Within
  total : (s.run calls).totalUnits.toNat = s.totalUnits.toNat + unitsIn calls
  grows : s.lastUnitsSecondCalc.toNat ≤ (s.run calls).lastUnitsSecondCalc.toNat
  exact : ∀ i ∈ s.intervals calls, i.Exact
  once : ∀ unit, s.timesCounted calls unit =
    if first ≤ unit ∧ unit < (s.run calls).lastUnitsSecondCalc.toNat then 1 else 0

variable {calls : List Call} {c : Call} {first : Nat}

theorem run_cons (s : RateTracker) (c : Call) (calls : List Call) :
    s.run (c :: calls) = (s.call c).run calls := rfl

variable {i : Interval}

theorem intervals_cons (h : s.interval c = some i) :
    s.intervals (c :: calls) = i :: (s.call c).intervals calls := by
  rw [intervals, h]
  rfl

theorem counted_join {last unit : Nat} (h : i.first + i.counted ≤ last) :
    ((if i.first + i.counted ≤ unit ∧ unit < last then 1 else 0) +
      if i.Counts unit then 1 else 0) = if i.first ≤ unit ∧ unit < last then 1 else 0 := by
  by_cases hi : i.Counts unit
  · rw [if_pos hi]
    rw [Interval.Counts] at hi
    rw [if_neg (by omega), if_pos (by omega)]
  · rw [if_neg hi, Nat.add_zero]
    rw [Interval.Counts] at hi
    congr 1
    exact propext ⟨fun h => ⟨by omega, h.2⟩, fun h => ⟨by omega, h.2⟩⟩

theorem accounts_cons (hinterval : s.interval c = none)
    (htotal : (s.call c).totalUnits.toNat + unitsIn calls =
      s.totalUnits.toNat + unitsIn (c :: calls))
    (hgrows : s.lastUnitsSecondCalc.toNat ≤ (s.call c).lastUnitsSecondCalc.toNat)
    (h : (s.call c).Accounts calls first) : s.Accounts (c :: calls) first := by
  have hintervals : s.intervals (c :: calls) = (s.call c).intervals calls := by
    rw [intervals, hinterval]
    rfl
  refine ⟨h.within, h.total.trans htotal, hgrows.trans h.grows, ?_, ?_⟩
  · rw [hintervals]
    exact h.exact
  · intro unit
    rw [timesCounted, hintervals]
    exact h.once unit

theorem accounts_started (hwithin : s.Within) (hstarted : s.lastUnitsSecondTime ≠ unsetTime)
    (htotal : s.totalUnits.toNat + unitsIn calls < 4294967296) (hfits : s.Fits calls) :
    s.Accounts calls s.lastUnitsSecondCalc.toNat := by
  induction calls generalizing s with
  | nil =>
    refine ⟨hwithin, rfl, Nat.le_refl _, nofun, fun unit => ?_⟩
    rw [if_neg]
    · rfl
    · change ¬ (_ ∧ unit < s.lastUnitsSecondCalc.toNat)
      omega
  | cons c calls ih =>
    cases c with
    | update units =>
      rw [unitsIn] at htotal
      have hupdate := update_total (s := s) units (by omega)
      have hnext : (s.call (.update units)).Within := by
        rw [Within, hupdate]
        exact Nat.le_add_right_of_le hwithin
      exact accounts_cons rfl (by rw [hupdate, unitsIn, Nat.add_assoc]) (Nat.le_refl _)
        (ih hnext hstarted (by rw [hupdate]; omega) hfits.2)
    | unitsSecond currentTime =>
      rw [unitsIn] at htotal
      by_cases hre : s.Recomputes currentTime
      · obtain ⟨i, hi, hsplits⟩ := recompute_splits hwithin hre hfits.1
        have hnew := hsplits.newUnits
        have hwhole := hsplits.whole
        have hnext := hsplits.next
        have hfirst := hsplits.first
        have hfraction : 0 ≤ i.fraction := by
          have hlong := hsplits.long
          rw [hsplits.fraction]
          exact Int.ediv_nonneg (Int.mul_nonneg (by omega) (by omega)) (by omega)
        have hlast : (s.call (.unitsSecond currentTime)).Within := by
          rw [Within, hsplits.total]
          rw [Within] at hwithin
          omega
        have haccounts := ih hlast hsplits.started (by rw [hsplits.total]; exact htotal) hfits.2
        refine ⟨haccounts.within, haccounts.total.trans ?_, ?_, ?_, ?_⟩
        · rw [hsplits.total]
          rfl
        · exact Nat.le_trans (by omega) haccounts.grows
        · intro j hj
          rw [intervals_cons hi] at hj
          obtain rfl | hj := List.mem_cons.mp hj
          · exact ⟨hsplits.long, hsplits.fraction, hsplits.whole⟩
          · exact haccounts.exact j hj
        · intro unit
          -- The first interval ends where the others begin.
          have hrest := haccounts.once unit
          rw [timesCounted] at hrest
          rw [timesCounted, intervals_cons hi, List.countP_cons, hrest, run_cons, hnext, ← hfirst]
          simp only [decide_eq_true_eq]
          exact counted_join (hnext ▸ haccounts.grows)
      · have hsame := unitsSecond_started hstarted hre
        refine accounts_cons (if_neg hre) (by rw [hsame, unitsIn]) (by rw [hsame]) ?_
        rw [hsame]
        exact ih hwithin hstarted htotal (hsame ▸ hfits.2)

theorem accounts_unset (hwithin : s.Within) (hunset : s.lastUnitsSecondTime = unsetTime)
    (htotal : s.totalUnits.toNat + unitsIn calls < 4294967296) (hfits : s.Fits calls) :
    s.Accounts calls (s.totalUnits.toNat + unitsBefore calls) := by
  induction calls generalizing s with
  | nil =>
    refine ⟨hwithin, rfl, Nat.le_refl _, nofun, fun unit => ?_⟩
    rw [if_neg]
    · rfl
    · rw [Within] at hwithin
      change ¬ (_ ∧ unit < s.lastUnitsSecondCalc.toNat)
      omega
  | cons c calls ih =>
    cases c with
    | update units =>
      rw [unitsIn] at htotal
      have hupdate := update_total (s := s) units (by omega)
      have hnext : (s.call (.update units)).Within := by
        rw [Within, hupdate]
        exact Nat.le_add_right_of_le hwithin
      have haccounts := ih hnext hunset (by rw [hupdate]; omega) hfits.2
      rw [hupdate, Nat.add_assoc] at haccounts
      exact accounts_cons rfl (by rw [hupdate, unitsIn, Nat.add_assoc]) (Nat.le_refl _) haccounts
    | unitsSecond currentTime =>
      have hfirst := unitsSecond_first currentTime hunset
      refine accounts_cons (if_neg fun h => h.1 hunset) (by rw [hfirst, unitsIn])
        (by rw [hfirst]; exact hwithin) ?_
      have hrest := hfits.2
      rw [hfirst] at hrest ⊢
      exact accounts_started (Nat.le_refl _) (hfits.1.1 hunset) htotal hrest

theorem accounts_run (calls : List Call) (htotal : unitsIn calls < 4294967296)
    (hfits : initial.Fits calls) : initial.Accounts calls (unitsBefore calls) := by
  have hzero : initial.totalUnits.toNat = 0 := rfl
  have h := accounts_unset (s := initial) (Nat.le_refl 0) rfl (by omega) hfits
  rwa [hzero, Nat.zero_add] at h

/-- **Each unit is counted once.** In every run whose calls fit, each split is exact; the units of
the last reference point never get fewer and are never more than all units; and those from the first
reference point up to the last are each in exactly one interval. -/
theorem run_splits (calls : List Call) (htotal : unitsIn calls < 4294967296)
    (hfits : initial.Fits calls) :
    (∀ i ∈ initial.intervals calls, 1000 ≤ i.delta ∧
      i.fraction = i.newUnits * (i.delta % 1000) / i.delta ∧
      i.counted + i.fraction = i.newUnits) ∧
    (∀ before after, calls = before ++ after →
      (initial.run before).lastUnitsSecondCalc ≤ (initial.run calls).lastUnitsSecondCalc ∧
      (initial.run before).lastUnitsSecondCalc ≤ (initial.run before).totalUnits) ∧
    ∀ unit, initial.timesCounted calls unit =
      if unitsBefore calls ≤ unit ∧ unit < (initial.run calls).lastUnitsSecondCalc.toNat
        then 1 else 0 := by
  have haccounts := accounts_run calls htotal hfits
  refine ⟨fun i hi => ?_, ?_, haccounts.once⟩
  · have hexact := haccounts.exact i hi
    exact ⟨hexact.long, hexact.fraction, hexact.whole⟩
  · rintro before after rfl
    rw [unitsIn_append] at htotal
    obtain ⟨hbefore, hafter⟩ := fits_append hfits
    have hfront := accounts_run before (by omega) hbefore
    have hall : (initial.run before).totalUnits.toNat = unitsIn before :=
      hfront.total.trans (Nat.zero_add _)
    refine ⟨?_, hfront.within⟩
    rw [run_append, BitVec.le_def]
    by_cases hunset : (initial.run before).lastUnitsSecondTime = unsetTime
    · exact (accounts_unset hfront.within hunset (by omega) hafter).grows
    · exact (accounts_started hfront.within hunset (by omega) hafter).grows

theorem run_splits_steady :
    ∃ calls : List Call, unitsIn calls = 3000 ∧
      initial.timesCounted calls 1999 = 1 ∧ initial.timesCounted calls 2000 = 0 := by
  refine ⟨[.unitsSecond 7, .update 3000, .unitsSecond 1507], rfl, ?_, ?_⟩
  · exact (run_splits _ (by decide) (by decide)).2.2 1999
  · exact (run_splits _ (by decide) (by decide)).2.2 2000

/-- Three million units in 1999 milliseconds. -/
def fastCalls : List Call := [.unitsSecond 0, .update 3000000, .unitsSecond 1999]

/-- A new reference point of `0xFFFFFFFF`. -/
def lostCalls : List Call := [.unitsSecond 0xFFFFFC17, .update 1500, .unitsSecond 499]

/-- Of the product 2997000000 only the remainder is divided, which is negative; then the last units
pass all units. A reference point that is taken for none loses the units of its unfinished
second. -/
theorem split_overflows :
    ((initial.intervals fastCalls).map Interval.fraction = [-649308] ∧
      3000000 * 999 / 1999 = 1499249 ∧
      (initial.run fastCalls).lastUnitsSecondCalc = 3649308 ∧
      (initial.run fastCalls).totalUnits = 3000000) ∧
    (initial.run lostCalls).lastUnitsSecondCalc = 1500 ∧
      initial.timesCounted lostCalls 999 = 1 ∧ initial.timesCounted lostCalls 1000 = 0 := by
  decide

end RateTracker

end Libjingle
