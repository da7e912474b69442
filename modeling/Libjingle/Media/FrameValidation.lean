import Libjingle.Base.BasicTypes

/-!
# Validating a frame (`media/base/videoframe.cc`, `VideoFrame::Validate`)

A sample is accepted by its size, and then looked through. The size is estimated row by row, from
the bits of a pixel; the planes of an I420 image round the chroma size up in either direction.

* `validate`: whether the sample is accepted, and the bytes that are read, positions counted from
  the pointer to the sample. What is logged reads the sample, where its severity is enabled.

## Results

* `validate_iff`: validation does what is expected of it exactly if `Safe` holds.
-/

namespace Libjingle

def fourCC (code : String) : U32 :=
  code.toList.foldr (fun c rest => rest <<< 8 ||| BitVec.ofNat 32 c.toNat) 0

def kFourCCAliases : List (String × String) :=
  [("IYUV", "I420"), ("YU16", "I422"), ("YU24", "I444"), ("YUYV", "YUY2"), ("yuvs", "YUY2"),
    ("HDYC", "UYVY"), ("2vuy", "UYVY"), ("BA81", "BGGR"), ("JPEG", "MJPG"), ("dmb1", "MJPG"),
    ("RGB3", "raw "), ("BGR3", "24BG")]

def canonicalFourCC (fourcc : U32) : U32 :=
  match kFourCCAliases.find? (fun entry => fourCC entry.1 = fourcc) with
  | some entry => fourCC entry.2
  | none => fourcc

namespace VideoFrame

def kMaxSampleSize : Nat := 1000000000

def sizeOf (w h : Nat) : Nat := w * h + (w + 1) / 2 * ((h + 1) / 2) * 2

def isOneOf (format : U32) (codes : List String) : Bool :=
  codes.any fun code => fourCC code = format

def expectedBpp (format : U32) : Nat :=
  if isOneOf format ["I400", "RGGB", "BGGR", "GRBG", "GBRG"] then 8
  else if isOneOf format ["I420", "I411", "YU12", "YV12", "M420", "Q420", "NV21", "NV12"] then 12
  else if isOneOf format ["I422", "YV16", "YUY2", "UYVY", "RGBP", "RGBO", "R444"] then 16
  else if isOneOf format ["V210"] then 22
  else if isOneOf format ["I444", "YV24", "24BG", "raw "] then 24
  else if isOneOf format ["ABGR", "BGRA", "ARGB"] then 32
  else if isOneOf format ["MJPG", "H264"] then 0
  else 8

def expectedSize (fourcc : U32) (w h : Nat) : Nat :=
  let bpp := expectedBpp (canonicalFourCC fourcc)
  if bpp = 0 then (w + 15) / 16 * ((h + 15) / 16) * 4 / 8 else (w * bpp + 7) / 8 * h

structure Span where
  start : Int
  count : Nat
  deriving DecidableEq

/-- The bytes are bytes of a sample. -/
def Span.Within (s : Span) (size : Nat) : Prop := 0 ≤ s.start ∧ s.start + s.count ≤ size

instance (s : Span) (size : Nat) : Decidable (s.Within size) := inferInstanceAs (Decidable (_ ∧ _))

/-- The severities that are enabled. -/
structure Loggable where
  error : Bool
  warning : Bool
  info : Bool

structure Statics where
  largeWarn100 : Nat
  validOnce : Bool

/-- A message with `sample[0]` to `sample[3]` in it. -/
def logSample (enabled : Bool) : List Span := if enabled then [⟨0, 4⟩] else []

/-- `!memcmp(...)`. -/
def sameBytes (sample : Int → U8) (a b : Int) (n : Nat) : Bool :=
  (List.range n).all fun i => sample (a + i) = sample (b + i)

/-- `a - b` of two `size_t`s. -/
def sizeMinus (a b : Nat) : Nat := if b ≤ a then a - b else 18446744073709551616 - (b - a)

def scan (log : Loggable) (sample : Int → U8) (size : Nat) : List Span :=
  ⟨size - 8, 4⟩ :: ⟨size - 4, 4⟩ ::
    if sameBytes sample (size - 8) (size - 4) 4 then
      ⟨0, sizeMinus size 4⟩ :: ⟨4, sizeMinus size 4⟩ ::
        if sameBytes sample 0 4 (sizeMinus size 4) then logSample log.warning else []
    else []

/-- The warning of a large size is shown. -/
def warnsLarge (fourcc : U32) (w h size : Nat) (s : Statics) : Bool :=
  8 ≤ expectedBpp (canonicalFourCC fourcc) &&
    (expectedSize fourcc w h * 2 < size || kMaxSampleSize < size) && s.largeWarn100 % 100 = 0

def Sensible (w h : Int) : Prop := 1 ≤ w ∧ w ≤ 16384 ∧ 1 ≤ h.natAbs ∧ h.natAbs ≤ 16384

instance (w h : Int) : Decidable (Sensible w h) := inferInstanceAs (Decidable (_ ∧ _))

/-- `Validate`; a sample that is null is `none`. The `int` of which there is no negative is refused
like its exact negative. -/
def validate (log : Loggable) (s : Statics) (fourcc : U32) (w h : Int) (sample : Option (Int → U8))
    (size : Nat) : Bool × List Span × Statics :=
  if Sensible w h then
    match sample with
    | none => (false, [], s)
    | some sample =>
      if size < expectedSize fourcc w.toNat h.natAbs then (false, logSample log.error, s)
      else if kMaxSampleSize < size then (false, logSample log.warning, s)
      else
        let large := warnsLarge fourcc w.toNat h.natAbs size s
        (true,
          logSample (large && log.warning) ++ scan log sample size ++
            logSample (s.validOnce && log.info),
          ⟨if large then s.largeWarn100 + 1 else s.largeWarn100, false⟩)
  else (false, [], s)

/-- The formats with three planes of which two have a quarter of the size. -/
def Planar (fourcc : U32) : Prop := fourcc ∈ [fourCC "I420", fourCC "YU12", fourCC "YV12"]

instance (fourcc : U32) : Decidable (Planar fourcc) := inferInstanceAs (Decidable (_ ∈ _))

/-- Nothing outside is read, and the planes of a sample that is accepted are inside. -/
def Sound (log : Loggable) (s : Statics) (fourcc : U32) (w h : Int) (sample : Option (Int → U8))
    (size : Nat) : Prop :=
  (∀ span ∈ (validate log s fourcc w h sample size).2.1, span.Within size) ∧
    (Planar fourcc → (validate log s fourcc w h sample size).1 = true →
      sizeOf w.toNat h.natAbs ≤ size)

/-- A sample that is too small is not logged or has four bytes, and any other has eight; one with
planes has an even height, or half a row more for either chroma plane. -/
structure Safe (log : Loggable) (fourcc : U32) (w h : Int) (size : Nat) : Prop where
  small : size < expectedSize fourcc w.toNat h.natAbs → log.error = false ∨ 4 ≤ size
  scanned : expectedSize fourcc w.toNat h.natAbs ≤ size → 8 ≤ size
  planes : Planar fourcc → expectedSize fourcc w.toNat h.natAbs ≤ size → size ≤ kMaxSampleSize →
    h.natAbs % 2 = 0 ∨ expectedSize fourcc w.toNat h.natAbs + (w.toNat + 1) / 2 ≤ size

/-! ## The estimate -/

variable {fourcc : U32}

theorem expectedSize_planar (h : Planar fourcc) (w n : Nat) :
    expectedSize fourcc w n = (w * 12 + 7) / 8 * n := by
  have hbpp : expectedBpp (canonicalFourCC fourcc) = 12 := by
    simp only [Planar, List.mem_cons, List.not_mem_nil, or_false] at h
    obtain rfl | rfl | rfl := h <;> decide
  rw [expectedSize, hbpp]
  rfl

/-- The estimate misses half a row of each chroma plane for an odd height. -/
theorem sizeOf_eq (h : Planar fourcc) (w n : Nat) :
    sizeOf w n = expectedSize fourcc w n + if n % 2 = 0 then 0 else (w + 1) / 2 := by
  have hrow : (w * 12 + 7) / 8 = w + (w + 1) / 2 := by omega
  rw [expectedSize_planar h, hrow, sizeOf, Nat.add_mul, Nat.mul_assoc]
  split
  · rename_i heven
    rw [show (n + 1) / 2 * 2 = n by omega]
    rfl
  · rename_i hodd
    rw [show (n + 1) / 2 * 2 = n + 1 by omega, Nat.mul_succ, Nat.add_assoc]

/-! ## What is read -/

variable {size : Nat}

theorem logSample_within {enabled : Bool} :
    (∀ span ∈ logSample enabled, span.Within size) ↔ enabled = false ∨ 4 ≤ size := by
  cases enabled with
  | false => exact iff_of_true (fun _ h => absurd h List.not_mem_nil) (.inl rfl)
  | true =>
    simp only [logSample, if_true, List.mem_singleton, forall_eq, Span.Within]
    simp only [Bool.true_eq_false, false_or]
    omega

theorem scan_within {log : Loggable} {sample : Int → U8} :
    (∀ span ∈ scan log sample size, span.Within size) ↔ 8 ≤ size := by
  constructor
  · intro h
    have hfirst := (h _ List.mem_cons_self).1
    dsimp only at hfirst
    omega
  · intro hsize span hspan
    have hminus : sizeMinus size 4 = size - 4 := if_pos (by omega)
    rw [scan, hminus] at hspan
    obtain rfl | hspan := List.mem_cons.mp hspan
    · exact ⟨by dsimp only; omega, by dsimp only; omega⟩
    · obtain rfl | hspan := List.mem_cons.mp hspan
      · exact ⟨by dsimp only; omega, by dsimp only; omega⟩
      · split at hspan
        · obtain rfl | hspan := List.mem_cons.mp hspan
          · exact ⟨by dsimp only; omega, by dsimp only; omega⟩
          · obtain rfl | hspan := List.mem_cons.mp hspan
            · exact ⟨by dsimp only; omega, by dsimp only; omega⟩
            · split at hspan
              · exact logSample_within.mpr (.inr (by omega)) span hspan
              · exact absurd hspan List.not_mem_nil
        · exact absurd hspan List.not_mem_nil

/-- **When validation is sound.** -/
theorem validate_iff (log : Loggable) (s : Statics) (fourcc : U32) (w h : Int)
    (sample : Option (Int → U8)) (size : Nat) :
    Sound log s fourcc w h sample size ↔
      (Sensible w h → sample ≠ none → Safe log fourcc w h size) := by
  have hrefused : (∀ span ∈ ([] : List Span), span.Within size) ∧
      (Planar fourcc → false = true → sizeOf w.toNat h.natAbs ≤ size) :=
    ⟨fun _ h => absurd h List.not_mem_nil, fun _ h => Bool.noConfusion h⟩
  unfold Sound validate
  by_cases hsensible : Sensible w h
  · rw [if_pos hsensible]
    cases sample with
    | none => exact iff_of_true hrefused fun _ h => absurd rfl h
    | some sample =>
      have hsafe : (Sensible w h → some sample ≠ none → Safe log fourcc w h size) ↔
          Safe log fourcc w h size := ⟨fun h => h hsensible nofun, fun h _ _ => h⟩
      rw [hsafe]
      dsimp only
      split
      · rename_i hsmall
        rw [logSample_within]
        constructor
        · rintro ⟨hlog, -⟩
          exact ⟨fun _ => hlog, fun hle => by omega, fun _ hle => by omega⟩
        · intro hsafe
          exact ⟨hsafe.small hsmall, fun _ h => Bool.noConfusion h⟩
      · rename_i hlarge
        split
        · rename_i hmax
          rw [logSample_within]
          rw [kMaxSampleSize] at hmax
          refine iff_of_true ⟨.inr (by omega), fun _ h => Bool.noConfusion h⟩ ?_
          exact ⟨fun hlt => by omega, fun _ => by omega, fun _ _ hle => by
            rw [kMaxSampleSize] at hle; omega⟩
        · rename_i hmax
          constructor
          · rintro ⟨hreads, hplanes⟩
            refine ⟨fun hlt => by omega, fun _ => scan_within.mp fun span hspan =>
              hreads span (List.mem_append_left _ (List.mem_append_right _ hspan)), ?_⟩
            intro hplanar _ _
            have hle := hplanes hplanar rfl
            rw [sizeOf_eq hplanar] at hle
            split at hle <;> omega
          · intro hsafe
            have hsize := hsafe.scanned (by omega)
            refine ⟨fun span hspan => ?_, fun hplanar _ => ?_⟩
            · obtain hspan | hspan := List.mem_append.mp hspan
              · obtain hspan | hspan := List.mem_append.mp hspan
                · exact logSample_within.mpr (.inr (by omega)) span hspan
                · exact scan_within.mpr hsize span hspan
              · exact logSample_within.mpr (.inr (by omega)) span hspan
            · have hplanes := hsafe.planes hplanar (by omega) (by omega)
              rw [sizeOf_eq hplanar]
              split <;> omega
  · rw [if_neg hsensible]
    exact iff_of_true hrefused fun h => absurd h hsensible

/-- All severities are enabled, and nothing has been logged. -/
def verbose : Loggable := ⟨true, true, true⟩

def counting : Int → U8 := fun i => BitVec.ofInt 8 i

/-- An image of 640x481 is accepted without the last half row of the chroma planes. A sample of four
bytes is large enough for one pixel, and the scan reads the four in front of it. -/
theorem oddHeight_accepted :
    (validate verbose ⟨0, true⟩ (fourCC "I420") 640 481 (some counting) 461760).1 = true ∧
      sizeOf 640 481 = 462080 ∧
      (validate verbose ⟨0, true⟩ (fourCC "I420") 1 1 (some counting) 4).2.1.head? =
        some ⟨-4, 4⟩ := by
  decide

end VideoFrame

end Libjingle
