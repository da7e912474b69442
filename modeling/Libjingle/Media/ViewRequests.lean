import Mathlib.Data.Rat.Floor
import Libjingle.Lib.Nearest
import Libjingle.Media.VideoAdapter

/-!
# Requests for a smaller video (`media/base/videoadapter.cc`)

A view request says how many pixels are wanted. `AdaptToMinimumFormat` looks for the largest scale
that has no more pixels, takes the limits of the encoder and of the CPU into account, does not go
below the smallest useful size, and sends the scale that is closest to the result.

* The `float`s are exact rationals; `castInt` is the conversion to `int`, `none` where it is
  undefined.

## Results

* `smaller_request_iff`: exactly when a smaller request does not enlarge the video.
-/

namespace Libjingle

open Lib

/-- A table of scale factors, from the full size down, and the smallest useful size. -/
structure ScaleTable where
  second : ℚ
  others : List ℚ
  kMinNumPixels : Int
  positive : ∀ s ∈ second :: others, 0 < s
  sorted : (1 :: second :: others).Pairwise (· > ·)
  min_pos : 0 < kMinNumPixels
  min_le : kMinNumPixels ≤ 2147483647

namespace ScaleTable

def kScaleFactors (T : ScaleTable) : List ℚ := 1 :: T.second :: T.others

/-- The table for all other platforms. -/
def desktop : ScaleTable where
  second := 3 / 4
  others := [1 / 2, 3 / 8, 1 / 4, 3 / 16, 1 / 8]
  kMinNumPixels := 160 * 100
  positive := by decide +kernel
  sorted := by decide +kernel
  min_pos := by decide
  min_le := by decide

/-- The table for `IOS` and `ANDROID`. -/
def mobile : ScaleTable where
  second := 3 / 4
  others := [1 / 2, 3 / 8, 1 / 4]
  kMinNumPixels := 120 * 67
  positive := by decide +kernel
  sorted := by decide +kernel
  min_pos := by decide
  min_le := by decide

end ScaleTable

def intMax : Int := 2147483647

/-- `static_cast<int>` of a `float`. -/
def castInt (x : ℚ) : Option Int :=
  let z := if 0 ≤ x then ⌊x⌋ else ⌈x⌉
  if -2147483648 ≤ z ∧ z ≤ intMax then some z else none

/-- The loop of `FindClosestScale`; the best index stands for its factor. -/
def closestLoop (width height target : Int) : List ℚ → Int → ℚ → Option ℚ
  | [], _, best => some best
  | scale :: rest, bestDistance, best => do
    let testNumPixels ← castInt (width * scale * height * scale)
    let diff := testNumPixels - target
    let diff := if diff < 0 then -diff else diff
    if diff < bestDistance then
      if diff = 0 then some scale else closestLoop width height target rest diff scale
    else closestLoop width height target rest bestDistance best

def findClosestScale (T : ScaleTable) (width height target : Int) : Option ℚ :=
  if target = 0 then some 0
  else closestLoop width height target T.kScaleFactors intMax 1

/-- The loop of `FindLowerScale`. -/
def lowerLoop (width height target : Int) : List ℚ → Int → ℚ → Option ℚ
  | [], _, best => some best
  | scale :: rest, bestDistance, best => do
    let testNumPixels ← castInt (width * scale * height * scale)
    let diff := target - testNumPixels
    if 0 ≤ diff ∧ diff < bestDistance then
      if diff = 0 then some scale else lowerLoop width height target rest diff scale
    else lowerLoop width height target rest bestDistance best

def findLowerScale (T : ScaleTable) (width height target : Int) : Option ℚ :=
  if target = 0 then some 0
  else lowerLoop width height target T.kScaleFactors intMax 1

/-- The state that `OnOutputFormatRequest` and `AdaptToMinimumFormat` read and write. -/
structure CoordinatedVideoAdapter extends VideoAdapter where
  cpuAdaptation : Bool
  viewAdaptation : Bool
  cpuDowngradeWaitTime : U32
  viewDesiredNumPixels : Int
  viewDesiredInterval : Int
  encoderDesiredNumPixels : Int
  cpuDesiredNumPixels : Int
  deriving DecidableEq

namespace CoordinatedVideoAdapter

def kDefaultDowngradeWaitTimeMs : U32 := 2000

def setOutputFormat (a : CoordinatedVideoAdapter) (format : VideoFormat) :
    CoordinatedVideoAdapter :=
  { a with toVideoAdapter := a.toVideoAdapter.setOutputFormat format }

def setOutputNumPixels (a : CoordinatedVideoAdapter) (numPixels : Int) :
    CoordinatedVideoAdapter :=
  { a with toVideoAdapter := a.toVideoAdapter.setOutputNumPixels numPixels }

def scaledFormat (a : CoordinatedVideoAdapter) : VideoFormat :=
  if a.inputFormat.isSize0x0 then a.outputFormat else a.inputFormat

/-- The resolution that respects the view request, or less pixels. -/
def viewPixels (T : ScaleTable) (a : CoordinatedVideoAdapter) : Option Int :=
  let input := a.scaledFormat
  if input.isSize0x0 then some a.viewDesiredNumPixels
  else do
    let scale ← findLowerScale T input.width input.height a.viewDesiredNumPixels
    castInt (signed 32 (input.width * input.height) * scale * scale)

/-- Reduced further, if necessary, based on the encoder bandwidth. -/
def encoderPixels (a : CoordinatedVideoAdapter) (minNumPixels : Int) : Int :=
  if a.encoderDesiredNumPixels ≠ 0 ∧ a.encoderDesiredNumPixels < minNumPixels then
    a.encoderDesiredNumPixels
  else minNumPixels

def CpuLimits (a : CoordinatedVideoAdapter) (minNumPixels : Int) : Prop :=
  a.cpuAdaptation = true ∧ a.cpuDesiredNumPixels ≠ 0 ∧ a.cpuDesiredNumPixels < minNumPixels

instance (a : CoordinatedVideoAdapter) (minNumPixels : Int) :
    Decidable (a.CpuLimits minNumPixels) :=
  inferInstanceAs (Decidable (_ ∧ _))

/-- Reduced further, if necessary, based on the CPU. -/
def cpuPixels (a : CoordinatedVideoAdapter) (minNumPixels : Int) : Int :=
  if a.CpuLimits minNumPixels then a.cpuDesiredNumPixels else minNumPixels

def atLeast (T : ScaleTable) (minNumPixels : Int) : Int :=
  if 0 < minNumPixels ∧ minNumPixels < T.kMinNumPixels then T.kMinNumPixels else minNumPixels

/-- The last part of `AdaptToMinimumFormat`: the scale that is closest to the result. -/
def sendPixels (T : ScaleTable) (a : CoordinatedVideoAdapter) (input newOutput : VideoFormat)
    (minNumPixels : Int) : Option CoordinatedVideoAdapter := do
  let a := a.setOutputNumPixels minNumPixels
  let scale ← if input.isSize0x0 then some 1
    else findClosestScale T input.width input.height minNumPixels
  let newWidth ← castInt (input.width * scale)
  let newHeight ← castInt (input.height * scale)
  return a.setOutputFormat
    { newOutput with width := newWidth, height := newHeight, interval := a.viewDesiredInterval }

/-- `AdaptToMinimumFormat`; the new width and height are those of the output format. -/
def adaptToMinimumFormat (T : ScaleTable) (now : U32) (a : CoordinatedVideoAdapter) :
    Option (Bool × CoordinatedVideoAdapter) := do
  let minNumPixels ← a.viewPixels T
  let minNumPixels := a.encoderPixels minNumPixels
  let b := if a.CpuLimits minNumPixels then
      { a with cpuDowngradeWaitTime := now + kDefaultDowngradeWaitTimeMs }
    else a
  let minNumPixels := atLeast T (a.cpuPixels minNumPixels)
  let b ← b.sendPixels T a.scaledFormat a.outputFormat minNumPixels
  return (b.outputNumPixels ≠ a.outputNumPixels, b)

def setViewRequest (a : CoordinatedVideoAdapter) (format : VideoFormat) : CoordinatedVideoAdapter :=
  { (a.setOutputFormat format).setOutputNumPixels a.outputNumPixels with
    viewDesiredNumPixels := signed 32 (format.width * format.height)
    viewDesiredInterval := format.interval }

def onOutputFormatRequest (T : ScaleTable) (now : U32) (a : CoordinatedVideoAdapter)
    (format : VideoFormat) : Option CoordinatedVideoAdapter :=
  if a.viewAdaptation = false then some a
  else ((a.setViewRequest format).adaptToMinimumFormat T now).map Prod.snd

end CoordinatedVideoAdapter

/-! ## The sizes of the scales -/

variable {T : ScaleTable} {width height target : Int} {s s' : ℚ}

/-- Positive dimensions, whose product is an `int`. -/
structure Sized (w h : Int) : Prop where
  width : 0 < w
  height : 0 < h
  product : w * h ≤ intMax

/-- The pixels of a scale as the searches compute them. -/
def pixelsAt (width height : Int) (s : ℚ) : Int := ⌊(width : ℚ) * height * (s * s)⌋

/-- The pixels of a scale as they are sent. -/
def sentAt (width height : Int) (s : ℚ) : Int := ⌊(width : ℚ) * s⌋ * ⌊(height : ℚ) * s⌋

theorem castInt_of_range {x : ℚ} (hle : 0 ≤ x) {n : Int} (hlt : x ≤ n) (hn : n ≤ intMax) :
    castInt x = some ⌊x⌋ := by
  have hnonneg : 0 ≤ ⌊x⌋ := Int.floor_nonneg.mpr hle
  have hfloor : ⌊x⌋ ≤ n := by
    have := Int.floor_mono hlt
    rwa [Int.floor_intCast] at this
  rw [castInt, if_pos hle, if_pos ⟨by omega, hfloor.trans hn⟩]

namespace ScaleTable

theorem one_mem (T : ScaleTable) : 1 ∈ T.kScaleFactors := List.mem_cons_self

theorem factor_pos (h : s ∈ T.kScaleFactors) : 0 < s := by
  obtain rfl | h := List.mem_cons.mp h
  · exact one_pos
  · exact T.positive s h

theorem le_second (h : s ∈ T.kScaleFactors) (hne : s ≠ 1) : s ≤ T.second := by
  obtain rfl | h := List.mem_cons.mp h
  · exact absurd rfl hne
  · obtain rfl | h := List.mem_cons.mp h
    · exact le_refl _
    · exact le_of_lt ((List.pairwise_cons.mp (List.pairwise_cons.mp T.sorted).2).1 s h)

theorem second_lt (T : ScaleTable) : T.second < 1 :=
  (List.pairwise_cons.mp T.sorted).1 _ List.mem_cons_self

theorem second_mem (T : ScaleTable) : T.second ∈ T.kScaleFactors :=
  List.mem_cons_of_mem _ List.mem_cons_self

theorem factor_le_one (h : s ∈ T.kScaleFactors) : s ≤ 1 := by
  by_cases hne : s = 1
  · exact le_of_eq hne
  · exact le_of_lt (lt_of_le_of_lt (T.le_second h hne) T.second_lt)

end ScaleTable

theorem pixelsAt_one (width height : Int) : pixelsAt width height 1 = width * height := by
  rw [pixelsAt, mul_one, mul_one, ← Int.cast_mul, Int.floor_intCast]

theorem sentAt_one (width height : Int) : sentAt width height 1 = width * height := by
  rw [sentAt, mul_one, mul_one, Int.floor_intCast, Int.floor_intCast]

theorem distance_eq (d : Int) : (if d < 0 then -d else d) = d.natAbs := by
  split <;> omega

section Sizes

variable (hsize : Sized width height)
include hsize

theorem area_pos : (0 : ℚ) < (width : ℚ) * height :=
  mul_pos (Int.cast_pos.mpr hsize.width) (Int.cast_pos.mpr hsize.height)

theorem pixelsAt_nonneg (s : ℚ) : 0 ≤ pixelsAt width height s :=
  Int.floor_nonneg.mpr (mul_nonneg (le_of_lt (area_pos hsize)) (mul_self_nonneg s))

theorem pixelsAt_mono (hs : 0 ≤ s) (h : s ≤ s') :
    pixelsAt width height s ≤ pixelsAt width height s' :=
  Int.floor_mono (mul_le_mul_of_nonneg_left (mul_self_le_mul_self hs h)
    (le_of_lt (area_pos hsize)))

theorem pixelsAt_lt (hs : 0 ≤ s) (h : s < 1) : pixelsAt width height s < width * height := by
  rw [pixelsAt, Int.floor_lt, Int.cast_mul]
  have hsquare : s * s < 1 := by nlinarith
  exact mul_lt_of_lt_one_right (area_pos hsize) hsquare

theorem sentAt_mono (hs : 0 ≤ s) (h : s ≤ s') :
    sentAt width height s ≤ sentAt width height s' := by
  have hwidth : (0 : ℚ) ≤ width := Int.cast_nonneg (le_of_lt hsize.width)
  have hheight : (0 : ℚ) ≤ height := Int.cast_nonneg (le_of_lt hsize.height)
  exact mul_le_mul (Int.floor_mono (mul_le_mul_of_nonneg_left h hwidth))
    (Int.floor_mono (mul_le_mul_of_nonneg_left h hheight))
    (Int.floor_nonneg.mpr (mul_nonneg hheight hs))
    (Int.floor_nonneg.mpr (mul_nonneg hwidth (hs.trans h)))

theorem sentAt_nonneg (hs : 0 ≤ s) : 0 ≤ sentAt width height s :=
  mul_nonneg
    (Int.floor_nonneg.mpr (mul_nonneg (Int.cast_nonneg (le_of_lt hsize.width)) hs))
    (Int.floor_nonneg.mpr (mul_nonneg (Int.cast_nonneg (le_of_lt hsize.height)) hs))

theorem sentAt_lt (hs : 0 ≤ s) (h : s < 1) : sentAt width height s < width * height := by
  have hwidth : (0 : ℚ) < width := Int.cast_pos.mpr hsize.width
  have hheight : (0 : ℚ) < height := Int.cast_pos.mpr hsize.height
  have hlt : ⌊(width : ℚ) * s⌋ < width := by
    rw [Int.floor_lt]
    exact mul_lt_of_lt_one_right hwidth h
  have hle : ⌊(height : ℚ) * s⌋ ≤ height := by
    rw [Int.floor_le_iff]
    exact (mul_lt_of_lt_one_right hheight h).trans (lt_add_one _)
  exact lt_of_le_of_lt
    (mul_le_mul_of_nonneg_left hle
      (Int.floor_nonneg.mpr (mul_nonneg (le_of_lt hwidth) hs)))
    (mul_lt_mul_of_pos_right hlt hsize.height)

theorem castInt_pixels (h : s ∈ T.kScaleFactors) :
    castInt (width * s * height * s) = some (pixelsAt width height s) := by
  have hs := le_of_lt (T.factor_pos h)
  have hle := T.factor_le_one h
  have harea := area_pos hsize
  have heq : (width : ℚ) * s * height * s = width * height * (s * s) := by ring
  rw [heq, pixelsAt]
  refine castInt_of_range (mul_nonneg (le_of_lt harea) (mul_self_nonneg s)) ?_ hsize.product
  rw [Int.cast_mul]
  exact mul_le_of_le_one_right (le_of_lt harea) (by nlinarith)

/-! ## The searches -/

variable {seen rest : List ℚ}

variable {best : ℚ}

theorem closestLoop_nearest
    (hrest : ∀ s ∈ rest, s ∈ T.kScaleFactors) (hsorted : (seen ++ rest).Pairwise (· > ·))
    (hbest : Nearest (pixelsAt width height) seen target best) :
    ∃ s, closestLoop width height target rest
        (pixelsAt width height best - target).natAbs best = some s ∧
      Nearest (pixelsAt width height) (seen ++ rest) target s := by
  induction rest generalizing seen best with
  | nil => exact ⟨best, rfl, by rwa [List.append_nil]⟩
  | cons scale rest ih =>
    have hbelow : ∀ b ∈ scale :: rest, ∀ s ∈ seen, b < s := fun b hb s hs =>
      (List.pairwise_append.mp hsorted).2.2 s hs b hb
    have htail := fun s hs => hrest s (List.mem_cons_of_mem _ hs)
    rw [List.append_cons] at hsorted ⊢
    rw [closestLoop, castInt_pixels hsize (hrest scale List.mem_cons_self)]
    dsimp only [Option.bind_eq_bind, Option.bind_some]
    rw [distance_eq]
    split
    · rename_i hlt
      have hnear := hbest.replace (b := scale) (by omega)
      split
      · refine ⟨scale, rfl, hnear.exact (by omega) ?_⟩
        intro b hb c hc
        exact (List.pairwise_append.mp hsorted).2.2 c hc b hb
      · exact ih htail hsorted hnear
    · exact ih htail hsorted (hbest.keep (hbelow scale List.mem_cons_self) (by omega))

/-- `FindClosestScale` finds the nearest scale. -/
theorem findClosestScale_nearest (hpos : 0 < target) (hmax : target ≤ intMax) :
    ∃ s, findClosestScale T width height target = some s ∧
      Nearest (pixelsAt width height) T.kScaleFactors target s := by
  have hproduct := hsize.product
  have harea : 0 < width * height := mul_pos hsize.width hsize.height
  have hone := pixelsAt_one width height
  have hfirst := Nearest.singleton (pixelsAt width height) target (1 : ℚ)
  rw [intMax] at hproduct hmax
  rw [findClosestScale, if_neg (by omega), ScaleTable.kScaleFactors, closestLoop,
    castInt_pixels hsize T.one_mem]
  dsimp only [Option.bind_eq_bind, Option.bind_some]
  rw [distance_eq, if_pos (by rw [intMax]; omega)]
  split
  · refine ⟨1, rfl, hfirst.exact (by omega) ?_⟩
    intro b hb c hc
    rw [List.mem_singleton.mp hc]
    exact (List.pairwise_cons.mp T.sorted).1 b hb
  · exact closestLoop_nearest hsize (fun s hs => List.mem_cons_of_mem _ hs) T.sorted hfirst

theorem lowerLoop_below (hrest : ∀ s ∈ rest, s ∈ T.kScaleFactors)
    (hbest : Below (pixelsAt width height) seen target best) :
    ∃ s, lowerLoop width height target rest (target - pixelsAt width height best) best = some s ∧
      Below (pixelsAt width height) (seen ++ rest) target s := by
  induction rest generalizing seen best with
  | nil => exact ⟨best, rfl, by rwa [List.append_nil]⟩
  | cons scale rest ih =>
    have htail := fun s hs => hrest s (List.mem_cons_of_mem _ hs)
    rw [lowerLoop, castInt_pixels hsize (hrest scale List.mem_cons_self), List.append_cons]
    dsimp only [Option.bind_eq_bind, Option.bind_some]
    split
    · have hnext := hbest.replace (b := scale) (by omega) (by omega)
      split
      · exact ⟨scale, rfl, Below.exact (List.mem_append_left _ hnext.mem) (by omega)⟩
      · exact ih htail hnext
    · exact ih htail (hbest.keep (by omega))

theorem lowerLoop_default (hrest : ∀ s ∈ rest, s ∈ T.kScaleFactors)
    (hmax : target < intMax) (hnone : ∀ s ∈ seen, target < pixelsAt width height s) :
    ∃ s, lowerLoop width height target rest intMax 1 = some s ∧
      (Below (pixelsAt width height) (seen ++ rest) target s ∨
        (∀ b ∈ seen ++ rest, target < pixelsAt width height b) ∧ s = 1) := by
  induction rest generalizing seen with
  | nil => exact ⟨1, rfl, .inr ⟨by rwa [List.append_nil], rfl⟩⟩
  | cons scale rest ih =>
    have htail := fun s hs => hrest s (List.mem_cons_of_mem _ hs)
    have hnonneg := pixelsAt_nonneg hsize scale
    rw [lowerLoop, castInt_pixels hsize (hrest scale List.mem_cons_self), List.append_cons]
    dsimp only [Option.bind_eq_bind, Option.bind_some]
    split
    · have hnext := Below.first (b := scale) hnone (by omega)
      split
      · exact ⟨scale, rfl, .inl (Below.exact (List.mem_append_left _ hnext.mem) (by omega))⟩
      · obtain ⟨s, hs, hbelow⟩ := lowerLoop_below hsize htail hnext
        exact ⟨s, hs, .inl hbelow⟩
    · refine ih htail fun s hs => ?_
      obtain hs | hs := List.mem_append.mp hs
      · exact hnone s hs
      · rw [List.mem_singleton.mp hs]
        omega

/-- The pixels that a view request comes to: those of the largest scale that has no more, and the
full size if there is none. -/
def Lowered (T : ScaleTable) (width height target pixels : Int) : Prop :=
  (∃ s, Below (pixelsAt width height) T.kScaleFactors target s ∧
    pixels = pixelsAt width height s) ∨
  (∀ s ∈ T.kScaleFactors, target < pixelsAt width height s) ∧ pixels = width * height

/-- `FindLowerScale` finds the largest scale that is not above, unless all are. -/
theorem findLowerScale_below (hpos : 0 < target) (hmax : target ≤ intMax) :
    ∃ s ∈ T.kScaleFactors, findLowerScale T width height target = some s ∧
      Lowered T width height target (pixelsAt width height s) := by
  have hproduct := hsize.product
  have harea : 0 < width * height := mul_pos hsize.width hsize.height
  have hone := pixelsAt_one width height
  rw [findLowerScale, if_neg (by omega), ScaleTable.kScaleFactors, lowerLoop,
    castInt_pixels hsize T.one_mem]
  dsimp only [Option.bind_eq_bind, Option.bind_some]
  split
  · have hfirst : Below (pixelsAt width height) [1] target (1 : ℚ) :=
      Below.singleton (by omega)
    split
    · have hexact : Below (pixelsAt width height) T.kScaleFactors target 1 :=
        Below.exact T.one_mem (by omega)
      exact ⟨1, T.one_mem, rfl, .inl ⟨1, hexact, rfl⟩⟩
    · obtain ⟨s, hs, hbelow⟩ := lowerLoop_below (T := T) hsize
        (fun s hs => List.mem_cons_of_mem _ hs) hfirst
      exact ⟨s, hbelow.mem, hs, .inl ⟨s, hbelow, rfl⟩⟩
  · have hfirst : ∀ s ∈ [(1 : ℚ)], target < pixelsAt width height s := by
      intro s hs
      rw [List.mem_singleton.mp hs]
      omega
    obtain ⟨s, hs, hbelow | ⟨hnone, rfl⟩⟩ := lowerLoop_default (T := T) hsize
      (fun s hs => List.mem_cons_of_mem _ hs) (by omega) hfirst
    · exact ⟨s, hbelow.mem, hs, .inl ⟨s, hbelow, rfl⟩⟩
    · exact ⟨1, T.one_mem, hs, .inr ⟨hnone, hone⟩⟩

/-- What is sent for a number of pixels. -/
def SentFor (T : ScaleTable) (width height pixels sent : Int) : Prop :=
  pixels = 0 ∧ sent = 0 ∨ pixels ≠ 0 ∧
    ∃ s, Nearest (pixelsAt width height) T.kScaleFactors pixels s ∧ sent = sentAt width height s

variable {pixels pixels' sent sent' : Int}

theorem lowered_bounds (h : Lowered T width height target pixels) :
    0 ≤ pixels ∧ pixels ≤ width * height := by
  obtain ⟨s, hbelow, rfl⟩ | ⟨-, rfl⟩ := h
  · refine ⟨pixelsAt_nonneg hsize s, ?_⟩
    rw [← pixelsAt_one]
    exact pixelsAt_mono hsize (le_of_lt (T.factor_pos hbelow.mem)) (T.factor_le_one hbelow.mem)
  · exact ⟨le_of_lt (mul_pos hsize.width hsize.height), le_refl _⟩

omit hsize in
theorem lowered_unique (h : Lowered T width height target pixels)
    (h' : Lowered T width height target pixels') : pixels = pixels' := by
  obtain ⟨s, hs, rfl⟩ | ⟨hnone, rfl⟩ := h
  · obtain ⟨s', hs', rfl⟩ | ⟨hnone', -⟩ := h'
    · exact le_antisymm (hs.mono (le_refl _) hs') (hs'.mono (le_refl _) hs)
    · exact absurd (hnone' s hs.mem) (not_lt.mpr hs.le)
  · obtain ⟨s', hs', -⟩ | ⟨-, rfl⟩ := h'
    · exact absurd (hnone s' hs'.mem) (not_lt.mpr hs'.le)
    · rfl

theorem sent_mono (hle : pixels ≤ pixels') (hpos : 0 ≤ pixels)
    (h : SentFor T width height pixels sent) (h' : SentFor T width height pixels' sent') :
    sent ≤ sent' := by
  obtain ⟨hzero', rfl⟩ | ⟨hne', s', hs', rfl⟩ := h'
  · obtain ⟨-, rfl⟩ | ⟨hne, -⟩ := h
    · exact le_refl 0
    · omega
  · obtain ⟨-, rfl⟩ | ⟨hne, s, hs, rfl⟩ := h
    · exact sentAt_nonneg hsize (le_of_lt (T.factor_pos hs'.mem))
    · refine sentAt_mono hsize (le_of_lt (T.factor_pos hs.mem)) (hs.mono ?_ hle hs')
      intro a ha b _ hab
      exact pixelsAt_mono hsize (le_of_lt (T.factor_pos ha)) hab

theorem nearest_one_iff (h : Nearest (pixelsAt width height) T.kScaleFactors target s) :
    s = 1 ↔ width * height + pixelsAt width height T.second ≤ 2 * target := by
  have hone := pixelsAt_one width height
  have hsecond := pixelsAt_lt hsize (le_of_lt (T.factor_pos T.second_mem)) T.second_lt
  constructor
  · rintro rfl
    have hle := h.le T.second T.second_mem
    omega
  · intro hmiddle
    by_contra hne
    have hlt := lt_of_le_of_ne (T.factor_le_one h.mem) hne
    have hnear := h.first 1 T.one_mem hlt
    have hle := pixelsAt_mono hsize (le_of_lt (T.factor_pos h.mem)) (T.le_second h.mem hne)
    omega

theorem sent_full_iff (hpos : 0 ≤ pixels) (h : SentFor T width height pixels sent) :
    sent = width * height ↔
      0 < pixels ∧ width * height + pixelsAt width height T.second ≤ 2 * pixels := by
  obtain ⟨rfl, rfl⟩ | ⟨hne, s, hs, rfl⟩ := h
  · have harea := mul_pos hsize.width hsize.height
    exact iff_of_false (by omega) (by omega)
  · rw [← nearest_one_iff hsize hs]
    constructor
    · intro hfull
      refine ⟨by omega, ?_⟩
      by_contra hone
      exact absurd hfull (ne_of_lt (sentAt_lt hsize (le_of_lt (T.factor_pos hs.mem))
        (lt_of_le_of_ne (T.factor_le_one hs.mem) hone)))
    · rintro ⟨-, rfl⟩
      exact sentAt_one width height

theorem sent_le (h : SentFor T width height pixels sent) : sent ≤ width * height := by
  obtain ⟨-, rfl⟩ | ⟨-, s, hs, rfl⟩ := h
  · exact le_of_lt (mul_pos hsize.width hsize.height)
  · rw [← sentAt_one]
    exact sentAt_mono hsize (le_of_lt (T.factor_pos hs.mem)) (T.factor_le_one hs.mem)

end Sizes

namespace CoordinatedVideoAdapter

variable {a b : CoordinatedVideoAdapter} {now now' : U32} {pixels pixels' sent sent' : Int}

theorem atLeast_mono (hle : pixels ≤ pixels') : atLeast T pixels ≤ atLeast T pixels' := by
  have hmin := T.min_pos
  unfold atLeast
  split <;> split <;> omega

def limited (T : ScaleTable) (a : CoordinatedVideoAdapter) (pixels : Int) : Int :=
  atLeast T (a.cpuPixels (a.encoderPixels pixels))

/-- The limits are numbers of pixels. -/
structure Limits (a : CoordinatedVideoAdapter) : Prop where
  encoder : 0 ≤ a.encoderDesiredNumPixels
  cpu : a.cpuAdaptation = true → 0 ≤ a.cpuDesiredNumPixels

theorem reduced_bounds (h : a.Limits) (hpos : 0 ≤ pixels) :
    0 ≤ a.cpuPixels (a.encoderPixels pixels) ∧ a.cpuPixels (a.encoderPixels pixels) ≤ pixels := by
  have hencoder := h.encoder
  have hreduced : 0 ≤ a.encoderPixels pixels ∧ a.encoderPixels pixels ≤ pixels := by
    unfold encoderPixels
    split <;> omega
  unfold cpuPixels
  split
  · rename_i hlimits
    have hcpu := h.cpu hlimits.1
    have hlt := hlimits.2.2
    omega
  · exact hreduced

theorem limited_bounds (h : a.Limits) (hpos : 0 ≤ pixels) (hmax : pixels ≤ intMax) :
    0 ≤ a.limited T pixels ∧ a.limited T pixels ≤ intMax := by
  obtain ⟨hnonneg, hle⟩ := reduced_bounds h hpos
  have hmin := T.min_pos
  have hminle := T.min_le
  unfold limited atLeast
  rw [intMax] at *
  split <;> omega

theorem signed_int {z : Int} (hle : 0 ≤ z) (hmax : z ≤ intMax) : signed 32 z = z := by
  rw [intMax] at hmax
  rw [signed, BitVec.toInt_ofInt]
  exact Int.bmod_eq_of_le (by omega) (by omega)

theorem sendPixels_sent (a : CoordinatedVideoAdapter) {input : VideoFormat}
    (newOutput : VideoFormat) (hsized : input.isSize0x0 = false)
    (hsize : Sized input.width input.height) (hpos : 0 ≤ pixels) (hmax : pixels ≤ intMax) :
    ∃ b, a.sendPixels T input newOutput pixels = some b ∧
      SentFor T input.width input.height pixels b.outputNumPixels := by
  obtain ⟨scale, hfind, hnonneg, hone, hsent⟩ : ∃ scale,
      findClosestScale T input.width input.height pixels = some scale ∧ 0 ≤ scale ∧ scale ≤ 1 ∧
        SentFor T input.width input.height pixels (sentAt input.width input.height scale) := by
    by_cases hzero : pixels = 0
    · refine ⟨0, if_pos hzero, le_refl 0, zero_le_one, .inl ⟨hzero, ?_⟩⟩
      rw [sentAt, mul_zero, Int.floor_zero, zero_mul]
    · obtain ⟨s, hs, hnear⟩ := findClosestScale_nearest (T := T) hsize (by omega) hmax
      exact ⟨s, hs, le_of_lt (T.factor_pos hnear.mem), T.factor_le_one hnear.mem,
        .inr ⟨hzero, s, hnear, rfl⟩⟩
  have harea := hsize.product
  have hcast : ∀ z : Int, 0 < z → z ≤ intMax → castInt (z * scale) = some ⌊(z : ℚ) * scale⌋ := by
    intro z hz hzmax
    have hz' : (0 : ℚ) ≤ z := Int.cast_nonneg (le_of_lt hz)
    exact castInt_of_range (mul_nonneg hz' hnonneg) (mul_le_of_le_one_right hz' hone) hzmax
  have hwidth := hsize.width
  have hheight := hsize.height
  have hproduct : signed 32 (sentAt input.width input.height scale) =
      sentAt input.width input.height scale :=
    signed_int (sentAt_nonneg hsize hnonneg) ((sent_le hsize hsent).trans harea)
  refine ⟨(a.setOutputNumPixels pixels).setOutputFormat { newOutput with
    width := ⌊(input.width : ℚ) * scale⌋
    height := ⌊(input.height : ℚ) * scale⌋
    interval := a.viewDesiredInterval }, ?_, ?_⟩
  · rw [sendPixels, hsized, if_neg Bool.false_ne_true, hfind]
    dsimp only [Option.bind_eq_bind, Option.bind_some]
    rw [hcast _ hwidth (by nlinarith), hcast _ hheight (by nlinarith)]
    rfl
  · change SentFor _ _ _ _ (signed 32 (sentAt _ _ _))
    rw [hproduct]
    exact hsent

/-- **What `AdaptToMinimumFormat` sends.** -/
theorem adaptToMinimumFormat_sent (h : a.Limits)
    (hsize : Sized a.inputFormat.width a.inputFormat.height)
    (hpos : 0 < a.viewDesiredNumPixels) (hmax : a.viewDesiredNumPixels ≤ intMax) :
    ∃ pixels b, (a.adaptToMinimumFormat T now).map Prod.snd = some b ∧
      Lowered T a.inputFormat.width a.inputFormat.height a.viewDesiredNumPixels pixels ∧
      SentFor T a.inputFormat.width a.inputFormat.height
        (a.limited T pixels) b.outputNumPixels := by
  have hsized : a.inputFormat.isSize0x0 = false := by
    have hwidth := hsize.width
    rw [VideoFormat.isSize0x0, Bool.and_eq_false_iff]
    exact .inl (decide_eq_false (by omega))
  have hscaled : a.scaledFormat = a.inputFormat := by
    rw [scaledFormat, hsized]
    rfl
  have hproduct : signed 32 (a.inputFormat.width * a.inputFormat.height) =
      a.inputFormat.width * a.inputFormat.height :=
    signed_int (mul_nonneg (le_of_lt hsize.width) (le_of_lt hsize.height)) hsize.product
  obtain ⟨scale, hscale, hfind, hlowered⟩ := findLowerScale_below (T := T) hsize hpos hmax
  have hview : a.viewPixels T =
      some (pixelsAt a.inputFormat.width a.inputFormat.height scale) := by
    have heq : ((a.inputFormat.width * a.inputFormat.height : Int) : ℚ) * scale * scale =
        a.inputFormat.width * scale * a.inputFormat.height * scale := by
      rw [Int.cast_mul]
      ring
    rw [viewPixels, hscaled, hsized, hproduct]
    rw [if_neg Bool.false_ne_true, hfind]
    change castInt _ = _
    rw [heq, castInt_pixels hsize hscale]
  obtain ⟨hbelow, hle⟩ := lowered_bounds hsize hlowered
  obtain ⟨hnonneg, hlimited⟩ := limited_bounds (T := T) h hbelow (hle.trans hsize.product)
  -- The time until the next downgrade is not sent.
  obtain ⟨b, hb, hsent⟩ := sendPixels_sent
    (if a.CpuLimits (a.encoderPixels (pixelsAt a.inputFormat.width a.inputFormat.height scale)) then
      { a with cpuDowngradeWaitTime := now + kDefaultDowngradeWaitTimeMs }
    else a) a.outputFormat hsized hsize hnonneg hlimited
  refine ⟨_, b, ?_, hlowered, hsent⟩
  rw [adaptToMinimumFormat, hview, hscaled]
  dsimp only [Option.bind_eq_bind, Option.bind_some]
  rw [limited] at hb
  rw [hb]
  rfl

/-- An area that is no `int` has no size. -/
theorem adaptToMinimumFormat_undefined (hwidth : 0 < a.inputFormat.width)
    (hlarge : intMax < a.inputFormat.width * a.inputFormat.height)
    (hpos : 0 < a.viewDesiredNumPixels) : a.adaptToMinimumFormat T now = none := by
  have hsized : a.inputFormat.isSize0x0 = false := by
    rw [VideoFormat.isSize0x0, Bool.and_eq_false_iff]
    exact .inl (decide_eq_false (by omega))
  have hcast : castInt (a.inputFormat.width * 1 * a.inputFormat.height * 1) = none := by
    have hnonneg : (0 : ℚ) ≤ (a.inputFormat.width * a.inputFormat.height : Int) := by
      rw [intMax] at hlarge
      exact Int.cast_nonneg (by omega)
    rw [mul_one, mul_one, ← Int.cast_mul, castInt, if_pos hnonneg, Int.floor_intCast]
    exact if_neg (by omega)
  have hview : a.viewPixels T = none := by
    rw [viewPixels, scaledFormat, hsized, if_neg Bool.false_ne_true, hsized,
      if_neg Bool.false_ne_true, findLowerScale, if_neg (by omega), ScaleTable.kScaleFactors,
      lowerLoop, hcast]
    rfl
  rw [adaptToMinimumFormat, hview]
  rfl

/-! ## Requests -/

/-- Both requests come to an end, and the first one sends no more than the second one. -/
def NoLarger (r r' : Option CoordinatedVideoAdapter) : Prop :=
  ∃ b b', r = some b ∧ r' = some b' ∧ b.outputNumPixels ≤ b'.outputNumPixels

theorem noLarger_some {b b' : CoordinatedVideoAdapter} :
    NoLarger (some b) (some b') ↔ b.outputNumPixels ≤ b'.outputNumPixels := by
  constructor
  · rintro ⟨_, _, hb, hb', hle⟩
    rwa [Option.some.inj hb, Option.some.inj hb']
  · intro hle
    exact ⟨b, b', rfl, rfl, hle⟩

/-- Limits of the encoder and of the CPU are added. -/
def withLimits (a : CoordinatedVideoAdapter) (encoder cpu : Int) (adaptation : Bool) :
    CoordinatedVideoAdapter :=
  { a with
    encoderDesiredNumPixels := encoder
    cpuDesiredNumPixels := cpu
    cpuAdaptation := adaptation }

/-- Neither the encoder nor the CPU limits the pixels. -/
structure Unlimited (a : CoordinatedVideoAdapter) : Prop where
  encoder : a.encoderDesiredNumPixels = 0 ∨ a.encoderDesiredNumPixels = intMax
  cpu : a.cpuAdaptation = false ∨ a.cpuDesiredNumPixels = 0 ∨ a.cpuDesiredNumPixels = intMax

/-- `OnOutputFormatRequest` where view adaptation is enabled. -/
theorem onOutputFormatRequest_sent (h : a.Limits) (hview : a.viewAdaptation = true)
    (hsize : Sized a.inputFormat.width a.inputFormat.height) {format : VideoFormat}
    (hpos : 0 < format.width * format.height) (hmax : format.width * format.height ≤ intMax) :
    ∃ pixels b, a.onOutputFormatRequest T now format = some b ∧
      Lowered T a.inputFormat.width a.inputFormat.height (format.width * format.height) pixels ∧
      SentFor T a.inputFormat.width a.inputFormat.height
        (a.limited T pixels) b.outputNumPixels := by
  have hproduct := signed_int (le_of_lt hpos) hmax
  obtain ⟨pixels, b, hb, hlowered, hsent⟩ :=
    @adaptToMinimumFormat_sent T (a.setViewRequest format) now ⟨h.encoder, h.cpu⟩ hsize
      (lt_of_lt_of_eq hpos hproduct.symm) (le_of_eq_of_le hproduct hmax)
  refine ⟨pixels, b, ?_, hproduct ▸ hlowered, hsent⟩
  rw [onOutputFormatRequest, hview]
  exact hb

theorem onOutputFormatRequest_undefined (hview : a.viewAdaptation = true)
    (hwidth : 0 < a.inputFormat.width)
    (hlarge : intMax < a.inputFormat.width * a.inputFormat.height) {format : VideoFormat}
    (hpos : 0 < format.width * format.height) (hmax : format.width * format.height ≤ intMax) :
    a.onOutputFormatRequest T now format = none := by
  have hproduct := signed_int (le_of_lt hpos) hmax
  have hnone := @adaptToMinimumFormat_undefined T (a.setViewRequest format) now hwidth hlarge
    (lt_of_lt_of_eq hpos hproduct.symm)
  rw [onOutputFormatRequest, hview, hnone]
  rfl

theorem limited_eq (h : a.Unlimited) (hmax : pixels ≤ intMax) :
    a.limited T pixels = atLeast T pixels := by
  have hencoder : a.encoderPixels pixels = pixels := if_neg fun hlt => by
    obtain hzero | hlarge := h.encoder
    · exact hlt.1 hzero
    · omega
  have hcpu : a.cpuPixels pixels = pixels := if_neg fun hlt : a.CpuLimits pixels => by
    obtain hoff | hzero | hlarge := h.cpu
    · exact Bool.false_ne_true (hoff.symm.trans hlt.1)
    · exact hlt.2.1 hzero
    · have := hlt.2.2
      omega
  rw [limited, hencoder, hcpu]

theorem Unlimited.limits (h : a.Unlimited) : a.Limits := by
  constructor
  · obtain hzero | hlarge := h.encoder
    · exact le_of_eq hzero.symm
    · exact hlarge ▸ by decide
  · intro hon
    obtain hoff | hzero | hlarge := h.cpu
    · exact absurd (hoff.symm.trans hon) Bool.false_ne_true
    · exact le_of_eq hzero.symm
    · exact hlarge ▸ by decide

theorem atLeast_eq (hpos : 0 < pixels) : atLeast T pixels = max pixels T.kMinNumPixels := by
  unfold atLeast
  split <;> omega

/-- What is between two requests when the smaller one is to send no more. -/
def Ordered (T : ScaleTable) (a : CoordinatedVideoAdapter) (p q : Int) : Prop :=
  let size := pixelsAt a.inputFormat.width a.inputFormat.height
  let area := a.inputFormat.width * a.inputFormat.height
  (∃ s ∈ T.kScaleFactors, size s ≤ p) ∨ (∀ s ∈ T.kScaleFactors, q < size s) ∨ area ≤ q ∨
    area + size T.second ≤ 2 * T.kMinNumPixels

theorem sent_le_iff {p q : Int} (hsize : Sized a.inputFormat.width a.inputFormat.height)
    (hp : 0 < p) (hpq : p ≤ q)
    (h : Lowered T a.inputFormat.width a.inputFormat.height p pixels)
    (h' : Lowered T a.inputFormat.width a.inputFormat.height q pixels')
    (hs : SentFor T a.inputFormat.width a.inputFormat.height (atLeast T pixels) sent)
    (hs' : SentFor T a.inputFormat.width a.inputFormat.height (atLeast T pixels') sent') :
    sent ≤ sent' ↔ a.Ordered T p q := by
  have hmin := T.min_pos
  have hbounds := lowered_bounds hsize h
  have hmono := fun hle : pixels ≤ pixels' => sent_mono hsize (atLeast_mono (T := T) hle)
    (by unfold atLeast; split <;> omega) hs hs'
  obtain ⟨s, hbelow, rfl⟩ | ⟨hnone, rfl⟩ := h
  · refine iff_of_true (hmono ?_) (.inl ⟨s, hbelow.mem, hbelow.le⟩)
    obtain ⟨s', hbelow', rfl⟩ | ⟨-, rfl⟩ := h'
    · exact hbelow.mono hpq hbelow'
    · exact hbounds.2
  · obtain ⟨s', hbelow', rfl⟩ | ⟨hnone', rfl⟩ := h'
    · -- The smaller request is below all scales, and sends the full size.
      have hone := pixelsAt_one a.inputFormat.width a.inputFormat.height
      have hsecond := pixelsAt_lt hsize (le_of_lt (T.factor_pos T.second_mem)) T.second_lt
      have hlarge := hnone s' hbelow'.mem
      have hpos' : 0 < pixelsAt a.inputFormat.width a.inputFormat.height s' := by omega
      rw [atLeast_eq (mul_pos hsize.width hsize.height)] at hs
      rw [atLeast_eq hpos'] at hs'
      have hfull := (sent_full_iff hsize (by omega) hs).mpr (by omega)
      have hfull' := sent_full_iff hsize (by omega) hs'
      have hle := sent_le hsize hs'
      have hmax := hbelow'.max 1 T.one_mem
      have hnext : s' ≠ 1 → pixelsAt a.inputFormat.width a.inputFormat.height s' ≤
          pixelsAt a.inputFormat.width a.inputFormat.height T.second := fun hne =>
        pixelsAt_mono hsize (le_of_lt (T.factor_pos hbelow'.mem)) (T.le_second hbelow'.mem hne)
      have hfirst : ¬ ∃ s ∈ T.kScaleFactors,
          pixelsAt a.inputFormat.width a.inputFormat.height s ≤ p := by
        rintro ⟨s, hs, hle⟩
        exact absurd (hnone s hs) (not_lt.mpr hle)
      have hsome : ¬ ∀ s ∈ T.kScaleFactors,
          q < pixelsAt a.inputFormat.width a.inputFormat.height s := fun hall =>
        absurd (hall s' hbelow'.mem) (not_lt.mpr hbelow'.le)
      have hle' := hbelow'.le
      by_cases hs1 : s' = 1
      · subst hs1
        exact iff_of_true (by rw [hfull, hfull'.mpr (by omega)]) (.inr (.inr (.inl (by omega))))
      · have hsmall := hnext hs1
        rw [Ordered]
        constructor
        · intro hsent
          have := hfull'.mp (by omega)
          exact .inr (.inr (.inr (by omega)))
        · rintro (hfound | hall | hq | hq)
          · exact absurd hfound hfirst
          · exact absurd hall hsome
          · omega
          · have := hfull'.mpr (by omega)
            omega
    · exact iff_of_true (hmono (le_refl _)) (.inr (.inl hnone'))

/-- **Smaller view requests.** Where nothing else limits the pixels, the smaller one of two requests
sends no more than the other one exactly if view adaptation is off, or the area of the input is an
`int` and the requests are in order. Limits of the encoder and of the CPU never enlarge the video,
where its area is an `int`. -/
theorem smaller_request_iff (T : ScaleTable) (now now' : U32) (a : CoordinatedVideoAdapter)
    (hwidth : 0 < a.inputFormat.width) (hheight : 0 < a.inputFormat.height) (h : a.Unlimited)
    (f g : VideoFormat) (hf : 0 < f.width * f.height)
    (hfg : f.width * f.height ≤ g.width * g.height) (hg : g.width * g.height ≤ intMax) :
    (NoLarger (a.onOutputFormatRequest T now f) (a.onOutputFormatRequest T now' g) ↔
      a.viewAdaptation = false ∨ a.inputFormat.width * a.inputFormat.height ≤ intMax ∧
        a.Ordered T (f.width * f.height) (g.width * g.height)) ∧
    ∀ encoder cpu adaptation, 0 ≤ encoder → 0 ≤ cpu →
      (NoLarger ((a.withLimits encoder cpu adaptation).onOutputFormatRequest T now g)
        (a.onOutputFormatRequest T now' g) ↔
      a.viewAdaptation = false ∨ a.inputFormat.width * a.inputFormat.height ≤ intMax) := by
  have hp : f.width * f.height ≤ intMax := hfg.trans hg
  have hq : 0 < g.width * g.height := lt_of_lt_of_le hf hfg
  by_cases hview : a.viewAdaptation = true
  · have hon : a.viewAdaptation ≠ false := fun hoff => Bool.false_ne_true (hoff.symm.trans hview)
    by_cases hproduct : a.inputFormat.width * a.inputFormat.height ≤ intMax
    · have hsize : Sized a.inputFormat.width a.inputFormat.height := ⟨hwidth, hheight, hproduct⟩
      obtain ⟨m', b', hb', hlowered', hsent'⟩ :=
        @onOutputFormatRequest_sent T a now' h.limits hview hsize g hq hg
      have hmax' := (lowered_bounds hsize hlowered').2.trans hproduct
      rw [limited_eq h hmax'] at hsent'
      constructor
      · obtain ⟨m, b, hb, hlowered, hsent⟩ :=
          @onOutputFormatRequest_sent T a now h.limits hview hsize f hf hp
        have hmax := (lowered_bounds hsize hlowered).2.trans hproduct
        rw [limited_eq h hmax] at hsent
        rw [hb, hb', noLarger_some, sent_le_iff hsize hf hfg hlowered hlowered' hsent hsent']
        exact ⟨fun hle => .inr ⟨hproduct, hle⟩, fun hor => (hor.resolve_left hon).2⟩
      · intro encoder cpu adaptation hencoder hcpu
        have hlimits : (a.withLimits encoder cpu adaptation).Limits := ⟨hencoder, fun _ => hcpu⟩
        obtain ⟨m, b, hb, hlowered, hsent⟩ :=
          @onOutputFormatRequest_sent T _ now hlimits hview hsize g hq hg
        obtain rfl := lowered_unique hlowered' hlowered
        have hnonneg := (lowered_bounds hsize hlowered).1
        rw [hb, hb', noLarger_some]
        exact iff_of_true (sent_mono hsize (atLeast_mono (reduced_bounds hlimits hnonneg).2)
          (limited_bounds hlimits hnonneg hmax').1 hsent hsent') (.inr hproduct)
    · have hnone := @onOutputFormatRequest_undefined T a now' hview hwidth
        (not_le.mp hproduct) g hq hg
      have hfalse : ∀ r, ¬ NoLarger r (a.onOutputFormatRequest T now' g) := by
        rintro r ⟨_, b', -, hb', -⟩
        rw [hnone] at hb'
        exact absurd hb' nofun
      refine ⟨iff_of_false (hfalse _) ?_, fun _ _ _ _ _ => iff_of_false (hfalse _) ?_⟩
      · exact fun hor => hproduct (hor.resolve_left hon).1
      · exact fun hor => hproduct (hor.resolve_left hon)
  · have hoff : a.viewAdaptation = false := Bool.not_eq_true _ ▸ hview
    have hsame : ∀ b : CoordinatedVideoAdapter, b.viewAdaptation = false → ∀ now format,
        b.onOutputFormatRequest T now format = some b := fun b hb now format => if_pos hb
    rw [hsame a hoff, hsame a hoff]
    refine ⟨iff_of_true (noLarger_some.mpr (le_refl _)) (.inl hoff), ?_⟩
    intro encoder cpu adaptation _ _
    rw [hsame (a.withLimits encoder cpu adaptation) hoff, noLarger_some]
    exact iff_of_true (le_refl a.outputNumPixels) (.inl hoff)

/-- An adapter for 1280x720, without limits. -/
def hd : CoordinatedVideoAdapter where
  inputFormat := ⟨1280, 720, 33333333, 0⟩
  outputFormat := ⟨1280, 720, 33333333, 0⟩
  outputNumPixels := 921600
  intervalNextFrame := 0
  cpuAdaptation := false
  viewAdaptation := true
  cpuDowngradeWaitTime := 0
  viewDesiredNumPixels := intMax
  viewDesiredInterval := 0
  encoderDesiredNumPixels := intMax
  cpuDesiredNumPixels := intMax

/-- A request for a format of `width` times `height`. -/
def sentFor (width height : Int) : Option Int :=
  (hd.onOutputFormatRequest .desktop 0 ⟨width, height, 33333333, 0⟩).map (·.outputNumPixels)

theorem smaller_request_hd : NoLarger (hd.onOutputFormatRequest .desktop 0 ⟨160, 90, 0, 0⟩)
    (hd.onOutputFormatRequest .desktop 0 ⟨640, 360, 0, 0⟩) :=
  (smaller_request_iff .desktop 0 0 hd (by decide) (by decide) ⟨.inr rfl, .inl rfl⟩ _ _ (by decide)
    (by decide) (by decide)).1.mpr (.inr ⟨by decide, .inl ⟨1 / 8, by decide +kernel,
      by decide +kernel⟩⟩)

theorem tiny_request_enlarges :
    sentFor 10 10 = some 921600 ∧ sentFor 160 90 = some 14400 ∧ hd.Unlimited := by
  exact ⟨by decide +kernel, by decide +kernel, ⟨.inr rfl, .inl rfl⟩⟩

end CoordinatedVideoAdapter

end Libjingle
