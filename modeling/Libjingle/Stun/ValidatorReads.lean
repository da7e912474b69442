import Libjingle.Lib.Reading
import Libjingle.Stun.Integrity

/-!
# What the STUN validators read (`p2p/base/stun.cc`)

`ValidateMessageIntegrity` and `ValidateFingerprint` again, as programs that read the message
behind `data`. They return what the model of the validators returns (`readIntegrity_value`,
`readFingerprint_value`), and say which places they read.

## Results

* **`validators_inside_iff`**: the validators stay inside the message just when there is no such
  attribute, and the message is not empty. The walk stops.
-/

namespace Libjingle.StunMessage

open Lib

variable (hmac : List U8 → List U8 → Digest) {data : Nat → U8} {size pos : Nat}
  {password : List U8}

/-! ## The programs -/

/-- `GetBE16`. -/
def readBE16 (pos : Nat) : Reading U8 Nat := do
  return ofBE (← Reading.block pos 2)

/-- `GetBE32`. -/
def readBE32 (pos : Nat) : Reading U8 Nat := do
  return ofBE (← Reading.block pos 4)

/-- `ValidateMessageIntegrity`: the walk over the attributes. -/
def readWalk (size : Nat) : Nat → Nat → Reading U8 (Option Nat)
  | 0, _ => return none
  | fuel + 1, currentPos =>
    if currentPos < size then do
      let attrType ← readBE16 currentPos
      let attrLength ← readBE16 (currentPos + 2)
      if attrType = stunAttrMessageIntegrity.toNat then
        return if attrLength ≠ kStunMessageIntegritySize ∨ currentPos + attrLength > size then none
          else some currentPos
      else readWalk size fuel (currentPos + 4 + padded attrLength)
    else return none

/-- `ValidateMessageIntegrity`. -/
def readIntegrity (size : Nat) (password : List U8) : Reading U8 Bool :=
  if size % 4 ≠ 0 then return false
  else do
    let msgLength ← readBE16 2
    if size ≠ msgLength + 20 then return false
    else
      match ← readWalk size size 20 with
      | none => return false
      | some miPos =>
        let temp ← Reading.block 0 miPos
        let digest ← Reading.block (miPos + 4) kStunMessageIntegritySize
        return decide (digest = (hmac password (covered (fun i => temp.getD i 0) size miPos)).1)

/-- `ValidateFingerprint`. -/
def readFingerprint (size : Nat) : Reading U8 Bool :=
  if size % 4 ≠ 0 ∨ size < 20 + 8 then return false
  else do
    let cookie ← readBE32 4
    if cookie ≠ kStunMagicCookie.toNat then return false
    else
      let attrType ← readBE16 (size - 8)
      if attrType ≠ stunAttrFingerprint.toNat then return false
      else
        let attrLength ← readBE16 (size - 8 + 2)
        if attrLength ≠ 4 then return false
        else
          let fingerprint ← readBE32 (size - 8 + 4)
          let front ← Reading.block 0 (size - 8)
          return decide (BitVec.ofNat 32 fingerprint ^^^ stunFingerprintXorValue =
            computeCrc32 front)

/-! ## Values -/

theorem value_readBE16 (pos : Nat) : (readBE16 pos).value data = getBE16 data pos := by
  rw [readBE16, Reading.value_bind, Reading.value_pure, Reading.value_block, getBE16]

theorem value_readBE32 (pos : Nat) : (readBE32 pos).value data = getBE32 data pos := by
  rw [readBE32, Reading.value_bind, Reading.value_pure, Reading.value_block, getBE32]

theorem value_readWalk : ∀ (fuel pos : Nat),
    (readWalk size fuel pos).value data = findMessageIntegrity data size fuel pos
  | 0, _ => rfl
  | fuel + 1, pos => by
    unfold readWalk findMessageIntegrity
    by_cases hin : pos < size
    · rw [if_pos hin, if_pos hin, Reading.value_bind, Reading.value_bind, value_readBE16,
        value_readBE16]
      simp only
      by_cases htype : getBE16 data pos = stunAttrMessageIntegrity.toNat
      · rw [if_pos htype, if_pos htype, Reading.value_pure]
      · rw [if_neg htype, if_neg htype]
        exact value_readWalk fuel _
    · rw [if_neg hin, if_neg hin, Reading.value_pure]

theorem fetch_zero_add (data : Nat → U8) (n : Nat) :
    fetch (fun i => data (0 + i)) n = fetch data n :=
  fetch_congr fun i _ => by rw [Nat.zero_add]

theorem covered_copy (data : Nat → U8) (size miPos : Nat) :
    covered (fun i => (fetch data miPos).getD i 0) size miPos = covered data size miPos := by
  have hcopy : fetch (fun i => (fetch data miPos).getD i 0) miPos = fetch data miPos := by
    refine fetch_congr fun i hi => ?_
    rw [List.getD_eq_getElem?_getD, getElem?_fetch hi]
    rfl
  unfold covered
  rw [hcopy]

/-- **The first program returns what the validator returns.** -/
theorem readIntegrity_value (data : Nat → U8) (size : Nat) (password : List U8) :
    (readIntegrity hmac size password).value data =
      validateMessageIntegrity hmac data size password := by
  unfold readIntegrity validateMessageIntegrity
  by_cases hmod : size % 4 ≠ 0
  · rw [if_pos hmod, if_pos hmod, Reading.value_pure]
  rw [if_neg hmod, if_neg hmod, Reading.value_bind, value_readBE16]
  by_cases hlen : size ≠ getBE16 data 2 + 20
  · rw [if_pos hlen, if_pos hlen, Reading.value_pure]
  rw [if_neg hlen, if_neg hlen, Reading.value_bind, value_readWalk]
  cases findMessageIntegrity data size size 20 with
  | none => rfl
  | some miPos =>
    simp only
    rw [Reading.value_bind, Reading.value_bind, Reading.value_pure, Reading.value_block,
      Reading.value_block, fetch_zero_add, covered_copy]

/-- **So does the second.** -/
theorem readFingerprint_value (data : Nat → U8) (size : Nat) :
    (readFingerprint size).value data = validateFingerprint data size := by
  unfold readFingerprint validateFingerprint
  by_cases hmod : size % 4 ≠ 0 ∨ size < 20 + 8
  · rw [if_pos hmod, if_pos hmod, Reading.value_pure]
  rw [if_neg hmod, if_neg hmod, Reading.value_bind, value_readBE32]
  by_cases hcookie : getBE32 data 4 ≠ kStunMagicCookie.toNat
  · rw [if_pos hcookie, if_pos hcookie, Reading.value_pure]
  rw [if_neg hcookie, if_neg hcookie, Reading.value_bind, value_readBE16]
  by_cases htype : getBE16 data (size - 8) ≠ stunAttrFingerprint.toNat
  · rw [if_pos htype, if_pos (Or.inl htype), Reading.value_pure]
  rw [if_neg htype, Reading.value_bind, value_readBE16]
  by_cases hlen : getBE16 data (size - 8 + 2) ≠ 4
  · rw [if_pos hlen, if_pos (Or.inr hlen), Reading.value_pure]
  rw [if_neg hlen, if_neg (not_or.mpr ⟨htype, hlen⟩), Reading.value_bind, value_readBE32,
    Reading.value_bind, Reading.value_pure, Reading.value_block, fetch_zero_add]

/-! ## The walk over the attributes -/

/-- The positions that the walk comes to: the first attribute, and behind each attribute in the
message that is not MESSAGE-INTEGRITY the next one. -/
inductive Visits (data : Nat → U8) (size : Nat) : Nat → Prop
  | first : Visits data size 20
  | next {pos : Nat} (h : Visits data size pos) (hin : pos < size)
      (htype : getBE16 data pos ≠ stunAttrMessageIntegrity.toNat) :
      Visits data size (pos + 4 + padded (getBE16 data (pos + 2)))

theorem Visits.mod_four (h : Visits data size pos) : pos % 4 = 0 := by
  induction h with
  | first => rfl
  | @next pos h hin htype ih =>
    have := padded_mod (getBE16 data (pos + 2))
    omega

theorem find_visits : ∀ (fuel : Nat) {start : Nat}, Visits data size start →
    findMessageIntegrity data size fuel start = some pos → Visits data size pos ∧ pos < size ∧
      getBE16 data pos = stunAttrMessageIntegrity.toNat ∧
      getBE16 data (pos + 2) = kStunMessageIntegritySize ∧ pos + kStunMessageIntegritySize ≤ size
  | 0, _, _, h => by cases h
  | fuel + 1, start, hv, h => by
    unfold findMessageIntegrity at h
    by_cases hin : start < size
    · rw [if_pos hin] at h
      simp only at h
      by_cases htype : getBE16 data start = stunAttrMessageIntegrity.toNat
      · rw [if_pos htype] at h
        split at h
        · cases h
        rename_i hlen
        rw [not_or, not_not] at hlen
        obtain rfl := Option.some.inj h
        exact ⟨hv, hin, htype, hlen.1, by omega⟩
      · rw [if_neg htype] at h
        exact find_visits fuel (.next hv hin htype) h
    · rw [if_neg hin] at h
      cases h

theorem Visits.find (h : Visits data size pos) : ∃ fuel, size ≤ pos + 4 * fuel ∧
    findMessageIntegrity data size size 20 = findMessageIntegrity data size fuel pos := by
  induction h with
  | first => exact ⟨size, by omega, rfl⟩
  | @next pos h hin htype ih =>
    obtain ⟨fuel, hle, heq⟩ := ih
    cases fuel with
    | zero => exact absurd hin (by omega)
    | succ fuel =>
      refine ⟨fuel, by omega, ?_⟩
      rw [heq, findMessageIntegrity, if_pos hin]
      simp only
      rw [if_neg htype]

theorem Visits.found (h : Visits data size pos) (hin : pos < size)
    (htype : getBE16 data pos = stunAttrMessageIntegrity.toNat)
    (hlen : getBE16 data (pos + 2) = kStunMessageIntegritySize)
    (hfits : pos + kStunMessageIntegritySize ≤ size) :
    findMessageIntegrity data size size 20 = some pos := by
  obtain ⟨fuel, hle, heq⟩ := h.find
  cases fuel with
  | zero => exact absurd hin (by omega)
  | succ fuel =>
    have hpass : ¬ (getBE16 data (pos + 2) ≠ kStunMessageIntegritySize ∨
        pos + getBE16 data (pos + 2) > size) := by omega
    rw [heq, findMessageIntegrity, if_pos hin]
    simp only
    rw [if_pos htype, if_neg hpass]

/-- **The walk stops**: one round more than there is room for changes nothing. -/
theorem findMessageIntegrity_stable : ∀ (fuel pos : Nat), size ≤ pos + 4 * fuel →
    findMessageIntegrity data size (fuel + 1) pos = findMessageIntegrity data size fuel pos
  | 0, pos, h => by
    have hstop : findMessageIntegrity data size 1 pos = none := by
      rw [findMessageIntegrity, if_neg (by omega)]
    exact hstop
  | fuel + 1, pos, h => by
    rw [findMessageIntegrity, findMessageIntegrity]
    simp only
    rw [findMessageIntegrity_stable fuel _ (by omega)]

theorem findMessageIntegrity_rounds (data : Nat → U8) (size extra : Nat) :
    findMessageIntegrity data size (size + extra) 20 = findMessageIntegrity data size size 20 := by
  induction extra with
  | zero => rfl
  | succ extra ih =>
    rw [← ih, ← Nat.add_assoc]
    exact findMessageIntegrity_stable _ _ (by omega)

/-! ## Places -/

theorem readBE16_within (h : pos + 2 ≤ size) : (readBE16 pos).Within data size :=
  .bind (.block h) (.pure _)

theorem readBE32_within (h : pos + 4 ≤ size) : (readBE32 pos).Within data size :=
  .bind (.block h) (.pure _)

theorem readWalk_within (hsize : size % 4 = 0) : ∀ (fuel pos : Nat), pos % 4 = 0 →
    (readWalk size fuel pos).Within data size
  | 0, _, _ => .pure _
  | fuel + 1, pos, hpos => by
    unfold readWalk
    split
    · rename_i hin
      refine .bind (readBE16_within (by omega)) (.bind (readBE16_within (by omega)) ?_)
      split
      · exact .pure _
      · refine readWalk_within hsize fuel _ ?_
        have := padded_mod ((readBE16 (pos + 2)).value data)
        omega
    · exact .pure _

theorem readFingerprint_within (data : Nat → U8) (size : Nat) :
    (readFingerprint size).Within data size := by
  unfold readFingerprint
  split
  · exact .pure _
  rename_i hsize
  rw [not_or] at hsize
  refine .bind (readBE32_within (by omega)) ?_
  split
  · exact .pure _
  refine .bind (readBE16_within (by omega)) ?_
  split
  · exact .pure _
  refine .bind (readBE16_within (by omega)) ?_
  split
  · exact .pure _
  · exact .bind (readBE32_within (by omega)) (.bind (.block (by omega)) (.pure _))

/-! ## Messages -/

/-- The validators read nothing behind the message, and the walk stops. -/
structure ValidatesInside (data : Nat → U8) (size : Nat) (password : List U8) : Prop where
  integrity : (readIntegrity hmac size password).Within data size
  fingerprint : (readFingerprint size).Within data size
  walk : ∀ extra, findMessageIntegrity data size (size + extra) 20 =
    findMessageIntegrity data size size 20

/-- The sizes agree, and the walk comes to a MESSAGE-INTEGRITY of 20 bytes whose header starts 20
bytes before the end. -/
def Overhangs (data : Nat → U8) (size : Nat) : Prop :=
  size % 4 = 0 ∧ size = getBE16 data 2 + 20 ∧ ∃ pos, Visits data size pos ∧
    pos + kStunMessageIntegritySize = size ∧
    getBE16 data pos = stunAttrMessageIntegrity.toNat ∧
    getBE16 data (pos + 2) = kStunMessageIntegritySize

/-- **The validators stay inside the message** just when it is not empty and no MESSAGE-INTEGRITY
hangs over its end. -/
theorem validators_inside_iff (data : Nat → U8) (size : Nat) (password : List U8) :
    ValidatesInside hmac data size password ↔ size ≠ 0 ∧ ¬ Overhangs data size := by
  have hdigest : kStunMessageIntegritySize = 20 := rfl
  constructor
  · intro h
    have hreads := h.integrity
    unfold readIntegrity at hreads
    refine ⟨fun hzero => ?_, fun hover => ?_⟩
    · rw [if_neg (by omega)] at hreads
      have hthird := (Reading.within_bind.mp (Reading.within_bind.mp hreads).1).1 2
        (Reading.mem_reads_block.mpr (by omega))
      omega
    · obtain ⟨hmod, hlen, pos, hvisit, hend, htype, hattr⟩ := hover
      have hfound := hvisit.found (by omega) htype hattr (by omega)
      rw [if_neg (by omega), Reading.within_bind, value_readBE16, if_neg (by omega),
        Reading.within_bind, value_readWalk, hfound] at hreads
      have hlast := (Reading.within_bind.mp (Reading.within_bind.mp hreads.2.2).2).1 (pos + 23)
        (Reading.mem_reads_block.mpr (by omega))
      omega
  · intro h
    refine ⟨?_, readFingerprint_within data size, findMessageIntegrity_rounds data size⟩
    unfold readIntegrity
    split
    · exact .pure _
    rename_i hmod
    refine .bind (readBE16_within (by omega)) ?_
    rw [value_readBE16]
    split
    · exact .pure _
    rename_i hlen
    refine .bind (readWalk_within (by omega) size 20 rfl) ?_
    rw [value_readWalk]
    cases hfind : findMessageIntegrity data size size 20 with
    | none => exact .pure _
    | some miPos =>
      obtain ⟨hvisit, hin, htype, hattr, hfits⟩ := find_visits size .first hfind
      have hmi := hvisit.mod_four
      have hnot : miPos + kStunMessageIntegritySize ≠ size := fun hend =>
        h.2 ⟨by omega, by omega, miPos, hvisit, hend, htype, hattr⟩
      exact .bind (.block (by omega)) (.bind (.block (by omega)) (.pure _))

/-- A message of 40 bytes with a MESSAGE-INTEGRITY that claims 20 bytes and has 16. -/
def overhanging : List U8 :=
  [0, 1, 0, 20] ++ List.replicate 16 0 ++ [0, 8, 0, 20] ++ List.replicate 16 0

theorem integrity_read_past : ¬ ValidatesInside (fun _ _ => ⟨List.replicate 20 0, by decide⟩)
    (view overhanging fun _ => 0) overhanging.length [] := by
  intro h
  have hreads := h.integrity
  have hlast := hreads 43 (by decide)
  exact absurd hlast (by decide)

end Libjingle.StunMessage
