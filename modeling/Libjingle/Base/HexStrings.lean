import Libjingle.Base.StringBounds
import Libjingle.Base.StringRoundTrip

/-!
# Hexadecimal strings (`base/stringencode.cc`)

`hex_encode_with_delimiter` writes two digits for every byte, with a delimiter between bytes, and
`hex_decode_with_delimiter` reads them.

* What a digit is, is a parameter: `IsHex` is what it should be; `hex_decode` of a character takes
  every letter, up to `Z`.

## Results

* **`hexCodec_iff`**: every string of bytes is read back, and a source is treated as it should be
  exactly when it is not made of letters and digits with a letter beyond `F` among them.
-/

namespace Libjingle.StringEncode

open Lib Checked

variable {source buffer : List U8} {srcpos bufpos n : Nat} {delimiter : U8}

def delimit (delimiter : U8) : List U8 := if delimiter = 0 then [] else [delimiter]

/-- Two digits for every byte, with the delimiter between bytes. -/
def hexString (delimiter : U8) : List U8 → List U8
  | [] => []
  | [ch] => hexPair ch
  | ch :: ch' :: rest => hexPair ch ++ (delimit delimiter ++ hexString delimiter (ch' :: rest))

def hexByte (a b : U8) : Option U8 :=
  (hexDecode a).bind fun h₁ => (hexDecode b).map fun h₂ => ofHex h₁ h₂

/-- The bytes that are read from digits. -/
def hexBytes (delimiter : U8) : List U8 → Option (List U8)
  | [] => some []
  | [_] => none
  | [a, b] => (hexByte a b).map fun h => [h]
  | [_, _, _] => none
  | a :: b :: c :: x :: rest =>
    (hexByte a b).bind fun h =>
      (if delimiter = 0 then hexBytes delimiter (c :: x :: rest)
        else if c = delimiter then hexBytes delimiter (x :: rest)
        else none).map fun out => h :: out

/-! ## What the programs write -/

theorem hexString_length (delimiter : U8) (s : List U8) :
    (hexString delimiter s).length =
      if delimiter = 0 then s.length * 2 else s.length * 3 - 1 := by
  have hpair : ∀ ch : U8, (hexPair ch).length = 2 := fun _ => rfl
  induction s using hexString.induct with
  | case1 => simp [hexString]
  | case2 ch => simp [hexString, hpair]
  | case3 ch ch' rest ih =>
    rw [hexString, List.length_append, List.length_append, ih, hpair, delimit]
    split
    · simp
      omega
    · simp
      omega

theorem hexEncodeLoop_eq (hsource : srcpos + n = source.length)
    (hroom : bufpos + (hexString delimiter (source.drop srcpos)).length ≤ buffer.length) :
    hexEncodeLoop source delimiter n srcpos bufpos buffer =
      .ok (bufpos + (hexString delimiter (source.drop srcpos)).length,
        overwrite buffer bufpos (hexString delimiter (source.drop srcpos))) := by
  induction n generalizing srcpos bufpos buffer with
  | zero =>
    rw [List.drop_eq_nil_of_le (by omega), hexString, overwrite_nil]
    rfl
  | succ n ih =>
    have hlt : srcpos < source.length := by omega
    have hdrop := List.drop_eq_getElem_cons hlt
    have hpair : (hexPair source[srcpos]).length = 2 := rfl
    rw [hexEncodeLoop, readAt_bind hdrop]
    by_cases hlast : srcpos + 1 = source.length
    · rw [hdrop, List.drop_eq_nil_of_le (Nat.le_of_eq hlast.symm), hexString] at hroom ⊢
      have hdone : n = 0 := by omega
      rw [bind_of_ok (writeAll_eq hroom), if_neg (by omega), hdone]
      rfl
    have hnext : srcpos + 1 < source.length := by omega
    rw [hdrop, List.drop_eq_getElem_cons hnext, hexString, ← List.drop_eq_getElem_cons hnext]
      at hroom ⊢
    rw [List.length_append, List.length_append, hpair] at hroom
    have hfits : bufpos + (hexPair source[srcpos]).length ≤ buffer.length := by omega
    have hlen := overwrite_length hfits
    rw [bind_of_ok (writeAll_eq hfits)]
    by_cases hdelimiter : delimiter = 0
    · have hnone : delimit delimiter = [] := if_pos hdelimiter
      rw [hnone, List.length_nil] at hroom
      rw [if_neg fun h => h.1 hdelimiter, hnone, List.nil_append, ← hpair,
        ih (by omega) (by omega), overwrite_append hfits, List.length_append, Nat.add_assoc]
    · have hone : delimit delimiter = [delimiter] := if_neg hdelimiter
      rw [hone, List.length_singleton] at hroom
      have hwritten : overwrite (overwrite buffer bufpos (hexPair source[srcpos])) (bufpos + 2)
          [delimiter] = overwrite buffer bufpos (hexPair source[srcpos] ++ [delimiter]) :=
        overwrite_append hfits [delimiter]
      have hfits' : bufpos + (hexPair source[srcpos] ++ [delimiter]).length ≤ buffer.length := by
        rw [List.length_append, List.length_singleton]
        omega
      have hlen' := overwrite_length hfits'
      rw [if_pos ⟨hdelimiter, hnext⟩, bind_of_ok (writeAt_eq (by omega) delimiter), hwritten,
        ih (by omega) (by omega)]
      have hall := overwrite_append hfits' (hexString delimiter (source.drop (srcpos + 1)))
      rw [List.length_append, hpair, List.length_singleton, ← Nat.add_assoc] at hall
      rw [hall, hone, ← List.append_assoc, List.length_append, List.length_append, hpair,
        List.length_singleton, Nat.add_assoc]

theorem hexString_room (hbuffer : 1 ≤ buffer.length)
    (hroom : encodeRoom delimiter source.length ≤ buffer.length) :
    (hexString delimiter source).length + 1 ≤ buffer.length := by
  rw [hexString_length]
  unfold encodeRoom at hroom
  by_cases hdelimiter : delimiter = 0
  · rw [if_neg (not_not.mpr hdelimiter)] at hroom
    rw [if_pos hdelimiter]
    exact hroom
  · rw [if_pos hdelimiter] at hroom
    rw [if_neg hdelimiter]
    omega

/-- **`hex_encode_with_delimiter`** writes the string and a terminator. -/
theorem hexEncodeWithDelimiter_eq (hbuffer : 1 ≤ buffer.length)
    (hroom : encodeRoom delimiter source.length ≤ buffer.length) :
    hexEncodeWithDelimiter source buffer.length delimiter buffer =
      .ok ((hexString delimiter source).length,
        overwrite buffer 0 (hexString delimiter source ++ [0])) := by
  have hfits := hexString_room hbuffer hroom
  have hstart : 0 + (hexString delimiter (source.drop 0)).length ≤ buffer.length := by
    rw [List.drop_zero]
    omega
  have hloop := hexEncodeLoop_eq (Nat.zero_add source.length) hstart
  rw [List.drop_zero] at hloop hstart
  have hlen := overwrite_length hstart
  unfold hexEncodeWithDelimiter
  rw [if_neg (by omega), ← encodeRoom, if_neg (by omega), bind_of_ok hloop,
    bind_of_ok (writeAt_eq (by omega) 0), overwrite_append hstart, Nat.zero_add]
  rfl

/-- `hex_encode_with_delimiter` of a string, through a buffer with three places for every byte. -/
def hexEncodeText (source : List U8) (delimiter : U8) : Except Fault (List U8) :=
  (hexEncodeWithDelimiter source (source.length * 3) delimiter
    (List.replicate (source.length * 3) 0)).map fun (length, buffer) => buffer.take length

theorem hexEncodeText_eq (source : List U8) (delimiter : U8) :
    hexEncodeText source delimiter = .ok (hexString delimiter source) := by
  have hlength : (List.replicate (source.length * 3) (0 : U8)).length = source.length * 3 :=
    List.length_replicate
  unfold hexEncodeText
  generalize List.replicate (source.length * 3) (0 : U8) = buffer at hlength
  rw [← hlength]
  by_cases hsource : source = []
  · subst hsource
    rw [hlength]
    rfl
  have hpos := List.length_pos_of_ne_nil hsource
  have hroom : encodeRoom delimiter source.length ≤ buffer.length := by
    unfold encodeRoom
    split <;> omega
  rw [hexEncodeWithDelimiter_eq (by omega) hroom]
  exact congrArg Except.ok (take_overwrite buffer (hexString delimiter source))

/-- The bytes behind the first one. -/
def hexRest (delimiter : U8) : List U8 → Option (List U8)
  | [] => some []
  | [_] => none
  | c :: x :: rest =>
    if delimiter = 0 then hexBytes delimiter (c :: x :: rest)
    else if c = delimiter then hexBytes delimiter (x :: rest)
    else none

theorem hexBytes_cons (delimiter a b : U8) (rest : List U8) :
    hexBytes delimiter (a :: b :: rest) =
      (hexByte a b).bind fun h => (hexRest delimiter rest).map fun out => h :: out := by
  match rest with
  | [] =>
    rw [hexBytes]
    cases hexByte a b <;> rfl
  | [c] =>
    rw [hexBytes]
    cases hexByte a b <;> rfl
  | c :: x :: rest => rw [hexBytes, hexRest]

/-- What a loop leaves that reads the digits that are left of the source. -/
def Decoded (result : Except Fault (Nat × List U8)) (bufpos : Nat) (buffer : List U8) :
    Option (List U8) → Prop
  | some out => result = .ok (bufpos + out.length, overwrite buffer bufpos out)
  | none => ∃ buffer', result = .ok (0, buffer')

theorem Decoded.cons {result : Except Fault (Nat × List U8)} {h : U8}
    (hplace : bufpos < buffer.length) {out : Option (List U8)}
    (hout : Decoded result (bufpos + 1) (overwrite buffer bufpos [h]) out) :
    Decoded result bufpos buffer (out.map fun out => h :: out) := by
  cases out with
  | none => exact hout
  | some out =>
    have hfits : bufpos + [h].length ≤ buffer.length := hplace
    have hall := overwrite_append hfits out
    rw [List.length_singleton] at hall
    rw [Decoded, hall] at hout
    rw [Option.map_some, Decoded, hout, List.length_cons, Nat.add_assoc, Nat.add_comm 1]
    rfl

theorem hexDecodeLoop_decoded (hn : source.length ≤ srcpos + n)
    (hroom : bufpos + decodeRoom delimiter (source.drop srcpos).length ≤ buffer.length) :
    Decoded (hexDecodeLoop source delimiter n srcpos bufpos buffer) bufpos buffer
      (hexBytes delimiter (source.drop srcpos)) := by
  induction n generalizing srcpos bufpos buffer with
  | zero =>
    rw [List.drop_eq_nil_of_le (by omega), hexBytes, Decoded, overwrite_nil]
    rfl
  | succ n ih =>
    have hlength := List.length_drop (i := srcpos) (l := source)
    rw [hexDecodeLoop]
    rcases hrest : source.drop srcpos with _ | ⟨a, _ | ⟨b, rest⟩⟩
    · rw [hrest, List.length_nil] at hlength
      rw [if_neg (by omega), hexBytes, Decoded, overwrite_nil]
      rfl
    · rw [hrest, List.length_singleton] at hlength
      rw [if_pos (by omega), if_pos (by omega)]
      exact ⟨buffer, rfl⟩
    · rw [hrest, List.length_cons, List.length_cons] at hlength hroom
      have hdrop : ∀ k, source.drop (srcpos + k) = (a :: b :: rest).drop k := fun k => by
        rw [← hrest, List.drop_drop]
      have hplace : bufpos < buffer.length := by
        unfold decodeRoom at hroom
        split at hroom <;> omega
      rw [if_pos (by omega), if_neg (by omega), readAt_bind hrest, hexBytes_cons, hexByte]
      cases hexDecode a with
      | none => exact ⟨buffer, rfl⟩
      | some h₁ =>
        dsimp only
        rw [readAt_bind (hdrop 1), Option.bind_some]
        cases hexDecode b with
        | none => exact ⟨buffer, rfl⟩
        | some h₂ =>
          dsimp only
          rw [bind_of_ok (writeAt_eq hplace _), Option.map_some, Option.bind_some]
          refine Decoded.cons hplace ?_
          have hlen : (overwrite buffer bufpos [ofHex h₁ h₂]).length = buffer.length :=
            overwrite_length hplace
          generalize overwrite buffer bufpos [ofHex h₁ h₂] = buffer₁ at hlen
          rw [← hlen] at hroom
          have hnext : ∀ k t, 2 ≤ k → source.drop (srcpos + k) = t →
              bufpos + 1 + decodeRoom delimiter t.length ≤ buffer₁.length →
                Decoded (hexDecodeLoop source delimiter n (srcpos + k) (bufpos + 1) buffer₁)
                  (bufpos + 1) buffer₁ (hexBytes delimiter t) := fun k t hk ht hfits => by
            subst ht
            exact ih (by omega) hfits
          unfold decodeRoom at hroom hnext
          rcases rest with _ | ⟨c, _ | ⟨x, rest⟩⟩
          · rw [List.length_nil] at hlength
            rw [if_neg fun h => by omega]
            refine hnext 2 [] (Nat.le_refl 2) (hdrop 2) ?_
            rw [List.length_nil]
            split <;> omega
          · rw [List.length_singleton] at hlength
            rw [if_neg fun h => by omega]
            refine hnext 2 [c] (Nat.le_refl 2) (hdrop 2) ?_
            rw [List.length_singleton]
            split <;> omega
          · rw [List.length_cons, List.length_cons] at hlength hroom
            rw [hexRest]
            by_cases hzero : delimiter = 0
            · rw [if_neg (not_not.mpr hzero)] at hroom
              rw [if_neg fun h => h.1 hzero, if_pos hzero]
              refine hnext 2 (c :: x :: rest) (Nat.le_refl 2) (hdrop 2) ?_
              rw [if_neg (not_not.mpr hzero), List.length_cons, List.length_cons]
              omega
            rw [if_pos hzero] at hroom
            rw [if_pos ⟨hzero, by omega⟩, if_neg hzero, readAt_bind (hdrop 2)]
            by_cases hc : c = delimiter
            · rw [if_neg (not_not.mpr hc), if_pos hc]
              refine hnext 3 (x :: rest) (by decide) (hdrop 3) ?_
              rw [if_pos hzero, List.length_cons]
              omega
            · rw [if_pos hc, if_neg hc]
              exact ⟨buffer₁, rfl⟩

/-- **`hex_decode_with_delimiter`** reads the bytes, if the buffer has room for them. -/
theorem hexDecodeWithDelimiter_decoded (hbuffer : 1 ≤ buffer.length)
    (hroom : decodeRoom delimiter source.length ≤ buffer.length) :
    Decoded (hexDecodeWithDelimiter source buffer.length delimiter buffer) 0 buffer
      (hexBytes delimiter source) := by
  have hloop := @hexDecodeLoop_decoded source buffer 0 0 source.length delimiter
  rw [List.drop_zero, Nat.zero_add, Nat.zero_add] at hloop
  unfold hexDecodeWithDelimiter
  rw [if_neg (by omega), ← decodeRoom, if_neg (by omega)]
  exact hloop (Nat.le_refl _) hroom

/-! ## Strings of whole bytes -/

/-- Two digits for every byte, with the delimiter between bytes. -/
inductive Pairs (delimiter : U8) (digit : U8 → Prop) : List U8 → Prop
  | one {a b : U8} : digit a → digit b → Pairs delimiter digit [a, b]
  | cons {a b : U8} {rest : List U8} : digit a → digit b → Pairs delimiter digit rest →
    Pairs delimiter digit (a :: b :: (delimit delimiter ++ rest))

def IsHex (ch : U8) : Prop :=
  (byte '0' ≤ ch ∧ ch ≤ byte '9') ∨ (byte 'A' ≤ ch ∧ ch ≤ byte 'F') ∨
    (byte 'a' ≤ ch ∧ ch ≤ byte 'f')

/-- A digit or a letter: what `hex_decode` takes. -/
def IsAlnum (ch : U8) : Prop :=
  (byte '0' ≤ ch ∧ ch ≤ byte '9') ∨ (byte 'A' ≤ ch ∧ ch ≤ byte 'Z') ∨
    (byte 'a' ≤ ch ∧ ch ≤ byte 'z')

def lower (s : List U8) : List U8 :=
  s.map fun ch => if byte 'A' ≤ ch ∧ ch ≤ byte 'Z' then ch + 32 else ch

theorem hexDecode_isSome_iff {ch : U8} : (hexDecode ch).isSome = true ↔ IsAlnum ch := by
  unfold hexDecode IsAlnum
  split
  · rename_i h
    simp [h]
  · rename_i hdigit
    split
    · rename_i h
      simp [h]
    · rename_i hupper
      split
      · rename_i h
        simp [h]
      · rename_i hlower
        simp [hdigit, hupper, hlower]

theorem hexByte_isSome_iff {a b : U8} :
    (hexByte a b).isSome = true ↔ IsAlnum a ∧ IsAlnum b := by
  rw [← hexDecode_isSome_iff, ← hexDecode_isSome_iff, hexByte]
  cases hexDecode a <;> cases hexDecode b <;> simp

variable {s : List U8}

variable {digit : U8 → Prop}

theorem Pairs.head {a : U8} (h : Pairs delimiter digit (a :: s)) : digit a := by
  cases h with
  | one ha _ => exact ha
  | cons ha _ _ => exact ha

theorem Pairs.two_le (h : Pairs delimiter digit s) : 2 ≤ s.length := by
  cases h with
  | one _ _ => exact Nat.le_refl 2
  | cons _ _ _ =>
    rw [List.length_cons, List.length_cons]
    omega

theorem hexRest_delimit {t : List U8} (ht : 2 ≤ t.length) :
    hexRest delimiter (delimit delimiter ++ t) = hexBytes delimiter t := by
  match t, ht with
  | x :: y :: t, _ =>
    by_cases hzero : delimiter = 0
    · rw [delimit, if_pos hzero, List.nil_append, hexRest, if_pos hzero]
    · rw [delimit, if_neg hzero, List.singleton_append, hexRest, if_neg hzero, if_pos rfl]

theorem eq_delimit_of_hexRest {rest out : List U8} (h : hexRest delimiter rest = some out) :
    rest = [] ∨ ∃ t, rest = delimit delimiter ++ t ∧ t ≠ [] ∧ hexBytes delimiter t = some out := by
  match rest, h with
  | [], _ => exact .inl rfl
  | c :: x :: rest, h =>
    right
    rw [hexRest] at h
    by_cases hzero : delimiter = 0
    · rw [if_pos hzero] at h
      exact ⟨c :: x :: rest, by rw [delimit, if_pos hzero]; rfl, List.cons_ne_nil _ _, h⟩
    · rw [if_neg hzero] at h
      by_cases hc : c = delimiter
      · rw [if_pos hc] at h
        exact ⟨x :: rest, by rw [delimit, if_neg hzero, hc]; rfl, List.cons_ne_nil _ _, h⟩
      · rw [if_neg hc] at h
        cases h

theorem pairs_of_hexBytes {s out : List U8} (hs : s ≠ []) (h : hexBytes delimiter s = some out) :
    Pairs delimiter IsAlnum s := by
  induction hlength : s.length using Nat.strong_induction_on generalizing s out with
  | _ n ih =>
    match s, hs, h with
    | a :: b :: rest, _, h =>
      rw [hexBytes_cons] at h
      obtain ⟨value, hbyte, hrest⟩ := Option.bind_eq_some_iff.mp h
      obtain ⟨out', hout, -⟩ := Option.map_eq_some_iff.mp hrest
      obtain ⟨ha, hb⟩ := hexByte_isSome_iff.mp (Option.isSome_of_eq_some hbyte)
      rcases eq_delimit_of_hexRest hout with rfl | ⟨t, rfl, ht, hbytes⟩
      · exact .one ha hb
      · refine .cons ha hb (ih t.length ?_ ht hbytes rfl)
        rw [← hlength, List.length_cons, List.length_cons, List.length_append]
        omega

theorem hexBytes_of_pairs (h : Pairs delimiter IsAlnum s) :
    ∃ out, hexBytes delimiter s = some out ∧ out ≠ [] := by
  induction h with
  | @one a b ha hb =>
    obtain ⟨value, hvalue⟩ := Option.isSome_iff_exists.mp (hexByte_isSome_iff.mpr ⟨ha, hb⟩)
    rw [hexBytes_cons, hvalue]
    exact ⟨[value], rfl, List.cons_ne_nil _ _⟩
  | @cons a b rest ha hb hrest ih =>
    obtain ⟨value, hvalue⟩ := Option.isSome_iff_exists.mp (hexByte_isSome_iff.mpr ⟨ha, hb⟩)
    obtain ⟨out, hout, -⟩ := ih
    rw [hexBytes_cons, hvalue, hexRest_delimit hrest.two_le, hout]
    exact ⟨value :: out, rfl, List.cons_ne_nil _ _⟩

/-! ## Letter case -/

theorem lower_append (s t : List U8) : lower (s ++ t) = lower s ++ lower t := List.map_append

instance (ch : U8) : Decidable (IsHex ch) := by
  unfold IsHex
  infer_instance

theorem hexEncode_hexDecode {ch : U8} (h : IsHex ch) :
    ∃ v, hexDecode ch = some v ∧ v.toNat < 16 ∧ lower [hexEncode v.toNat] = lower [ch] := by
  have hall : ∀ i : Fin 256, IsHex (BitVec.ofFin i) →
      (hexDecode (BitVec.ofFin i)).isSome = true ∧
        ((hexDecode (BitVec.ofFin i)).getD 0).toNat < 16 ∧
        lower [hexEncode ((hexDecode (BitVec.ofFin i)).getD 0).toNat] = lower [BitVec.ofFin i] := by
    decide +kernel
  obtain ⟨hsome, hlt, hlower⟩ := hall ch.toFin h
  obtain ⟨v, hv⟩ := Option.isSome_iff_exists.mp hsome
  rw [hv] at hlt hlower
  exact ⟨v, hv, hlt, hlower⟩

theorem ofHex_halves {v w : U8} (hv : v.toNat < 16) (hw : w.toNat < 16) :
    (ofHex v w).toNat / 16 = v.toNat ∧ (ofHex v w).toNat % 16 = w.toNat := by
  have hnat : (BitVec.ofNat 8 (v.toNat * 16 + w.toNat)).toNat = v.toNat * 16 + w.toNat := by
    rw [BitVec.toNat_ofNat, Nat.mod_eq_of_lt (by omega)]
  have hdigits := ofHex_digits (BitVec.ofNat 8 (v.toNat * 16 + w.toNat))
  have hhigh : (v.toNat * 16 + w.toNat) / 16 = v.toNat := by omega
  have hlow : (v.toNat * 16 + w.toNat) % 16 = w.toNat := by omega
  rw [hnat, hhigh, hlow, BitVec.ofNat_toNat, BitVec.ofNat_toNat, BitVec.setWidth_eq,
    BitVec.setWidth_eq] at hdigits
  rw [hdigits, hnat]
  exact ⟨hhigh, hlow⟩

theorem hexPair_hexByte {a b : U8} (ha : IsHex a) (hb : IsHex b) :
    ∃ ch, hexByte a b = some ch ∧ lower (hexPair ch) = lower [a, b] := by
  obtain ⟨v, hv, hvlt, hvlower⟩ := hexEncode_hexDecode ha
  obtain ⟨w, hw, hwlt, hwlower⟩ := hexEncode_hexDecode hb
  obtain ⟨hhigh, hlow⟩ := ofHex_halves hvlt hwlt
  refine ⟨ofHex v w, by rw [hexByte, hv, hw]; rfl, ?_⟩
  rw [hexPair, hhigh, hlow]
  exact (lower_append [hexEncode v.toNat] [hexEncode w.toNat]).trans
    ((congrArg₂ (· ++ ·) hvlower hwlower).trans (lower_append [a] [b]).symm)

/-- **A hexadecimal string is written as it was read**, up to its case. -/
theorem lower_hexString (h : Pairs delimiter IsHex s) :
    ∃ out, hexBytes delimiter s = some out ∧ out ≠ [] ∧
      lower (hexString delimiter out) = lower s := by
  induction h with
  | @one a b ha hb =>
    obtain ⟨ch, hch, hlower⟩ := hexPair_hexByte ha hb
    rw [hexBytes_cons, hch]
    exact ⟨[ch], rfl, List.cons_ne_nil _ _, hlower⟩
  | @cons a b rest ha hb hrest ih =>
    obtain ⟨ch, hch, hlower⟩ := hexPair_hexByte ha hb
    obtain ⟨out, hout, hne, hall⟩ := ih
    obtain ⟨ch', out, rfl⟩ := List.exists_cons_of_ne_nil hne
    rw [hexBytes_cons, hch, hexRest_delimit hrest.two_le, hout]
    refine ⟨ch :: ch' :: out, rfl, List.cons_ne_nil _ _, ?_⟩
    have hfront : a :: b :: (delimit delimiter ++ rest) =
        [a, b] ++ (delimit delimiter ++ rest) := rfl
    rw [hfront, hexString, lower_append, lower_append, lower_append, lower_append, hlower, hall]

/-- **What was written is read back.** -/
theorem hexBytes_hexString (delimiter : U8) (s : List U8) :
    hexBytes delimiter (hexString delimiter s) = some s := by
  have hpair : ∀ ch : U8, hexByte (hexEncode (ch.toNat / 16)) (hexEncode (ch.toNat % 16)) =
      some ch := fun ch => by
    have hlt := ch.isLt
    rw [hexByte, hexDecode_hexEncode (by omega), hexDecode_hexEncode (by omega), Option.bind_some,
      Option.map_some, ofHex_digits]
  induction s using hexString.induct with
  | case1 => rfl
  | case2 ch =>
    show hexBytes delimiter [hexEncode (ch.toNat / 16), hexEncode (ch.toNat % 16)] = some [ch]
    rw [hexBytes_cons, hpair]
    rfl
  | case3 ch ch' rest ih =>
    have htwo : 2 ≤ (hexString delimiter (ch' :: rest)).length := by
      rw [hexString_length, List.length_cons]
      split <;> omega
    show hexBytes delimiter (hexEncode (ch.toNat / 16) :: hexEncode (ch.toNat % 16) ::
      (delimit delimiter ++ hexString delimiter (ch' :: rest))) = some (ch :: ch' :: rest)
    rw [hexBytes_cons, hpair, hexRest_delimit htwo, ih]
    rfl

/-! ## The codec -/

/-- A source is decoded when it is a hexadecimal string of whole bytes, and then it is the string of
these bytes, up to its case. -/
def Treated (delimiter : U8) (source : List U8) : Prop :=
  ∀ buffer : List U8, ∃ length buffer',
    hexDecodeWithDelimiter source buffer.length delimiter buffer = .ok (length, buffer') ∧
      (length ≠ 0 → Pairs delimiter IsHex source ∧
        ∃ s, hexEncodeText (buffer'.take length) delimiter = .ok s ∧ lower s = lower source) ∧
      (Pairs delimiter IsHex source → decodeRoom delimiter source.length ≤ buffer.length →
        length ≠ 0)

/-- The string of some bytes is decoded to these bytes. -/
def ReadBack (delimiter : U8) (s : List U8) : Prop :=
  ∃ text, hexEncodeText s delimiter = .ok text ∧ ∀ buffer : List U8, s.length ≤ buffer.length →
    ∃ length buffer', hexDecodeWithDelimiter text buffer.length delimiter buffer =
      .ok (length, buffer') ∧ buffer'.take length = s

/-- A source of pairs of letters and digits with a letter beyond `F` among them. -/
def BeyondHex (delimiter : U8) (source : List U8) : Prop :=
  Pairs delimiter IsAlnum source ∧ ¬ Pairs delimiter IsHex source

theorem take_overwrite_zero (buffer out : List U8) :
    (overwrite buffer 0 out).take out.length = out := by
  rw [overwrite, List.take_zero, List.nil_append, List.take_left]

theorem hexDecodeWithDelimiter_small
    (h : ¬ (1 ≤ buffer.length ∧ decodeRoom delimiter source.length ≤ buffer.length)) :
    hexDecodeWithDelimiter source buffer.length delimiter buffer = .ok (0, buffer) := by
  unfold hexDecodeWithDelimiter
  rw [← decodeRoom]
  by_cases hbuffer : buffer.length = 0
  · rw [if_pos hbuffer]
    rfl
  · rw [if_neg hbuffer, if_pos (by omega)]
    rfl

theorem readBack (delimiter : U8) (s : List U8) : ReadBack delimiter s := by
  refine ⟨hexString delimiter s, hexEncodeText_eq s delimiter, fun buffer hlength => ?_⟩
  have hroom : decodeRoom delimiter (hexString delimiter s).length ≤ buffer.length := by
    by_cases hzero : delimiter = 0
    · rw [hexString_length, if_pos hzero, decodeRoom, if_neg (not_not.mpr hzero)]
      omega
    · rw [hexString_length, if_neg hzero, decodeRoom, if_pos hzero]
      omega
  by_cases hbuffer : 1 ≤ buffer.length
  · have hdecoded := hexDecodeWithDelimiter_decoded hbuffer hroom
    rw [hexBytes_hexString, Decoded, Nat.zero_add] at hdecoded
    exact ⟨_, _, hdecoded, take_overwrite_zero buffer s⟩
  · have hs : s = [] := List.length_eq_zero_iff.mp (by omega)
    exact ⟨0, buffer, hexDecodeWithDelimiter_small fun h => hbuffer h.1, by rw [hs]; rfl⟩

theorem treated_of_not_beyond (h : ¬ BeyondHex delimiter source) : Treated delimiter source := by
  intro buffer
  have hempty : Pairs delimiter IsHex source → decodeRoom delimiter source.length ≠ 0 :=
    fun hpairs hnone => by
      have htwo := hpairs.two_le
      unfold decodeRoom at hnone
      split at hnone <;> omega
  by_cases hroom : 1 ≤ buffer.length ∧ decodeRoom delimiter source.length ≤ buffer.length
  swap
  · refine ⟨0, buffer, hexDecodeWithDelimiter_small hroom, fun h => absurd rfl h,
      fun hpairs hle => ?_⟩
    have hpos := hempty hpairs
    exact absurd ⟨by omega, hle⟩ hroom
  have hdecoded := hexDecodeWithDelimiter_decoded hroom.1 hroom.2
  by_cases hpairs : Pairs delimiter IsHex source
  · obtain ⟨out, hout, hne, hlower⟩ := lower_hexString hpairs
    rw [hout, Decoded, Nat.zero_add] at hdecoded
    have hpos := List.length_pos_of_ne_nil hne
    refine ⟨out.length, _, hdecoded, fun _ => ⟨hpairs, _, ?_, hlower⟩, fun _ _ => by omega⟩
    rw [take_overwrite_zero, hexEncodeText_eq]
  have hother : ∃ buffer', hexDecodeWithDelimiter source buffer.length delimiter buffer =
      .ok (0, buffer') := by
    by_cases hsource : source = []
    · subst hsource
      exact ⟨_, hdecoded⟩
    · cases hbytes : hexBytes delimiter source with
      | none =>
        rw [hbytes] at hdecoded
        exact hdecoded
      | some out => exact absurd ⟨pairs_of_hexBytes hsource hbytes, hpairs⟩ h
  obtain ⟨buffer', hzero⟩ := hother
  exact ⟨0, buffer', hzero, fun hne => absurd rfl hne, fun hyes => absurd hyes hpairs⟩

theorem not_treated_of_beyond (h : BeyondHex delimiter source) : ¬ Treated delimiter source := by
  intro htreated
  obtain ⟨out, hout, hne⟩ := hexBytes_of_pairs h.1
  have htwo := h.1.two_le
  obtain ⟨buffer, hlength⟩ : ∃ buffer : List U8, buffer.length = source.length := ⟨source, rfl⟩
  obtain ⟨length, buffer', hresult, hpairs, -⟩ := htreated buffer
  have hroom : decodeRoom delimiter source.length ≤ source.length := by
    unfold decodeRoom
    split <;> omega
  have hdecoded : Decoded (hexDecodeWithDelimiter source buffer.length delimiter buffer) 0 buffer
      (hexBytes delimiter source) := hexDecodeWithDelimiter_decoded (by omega) (by omega)
  rw [hout, Decoded, hresult] at hdecoded
  have hpos := List.length_pos_of_ne_nil hne
  obtain ⟨rfl, -⟩ := Prod.mk.inj (Except.ok.inj hdecoded)
  exact h.2 (hpairs (by omega)).1

/-- **The codec**: every string of bytes is read back, and a source is treated as it should be
exactly when it has no letter beyond `F` in a place that `hex_decode` takes it. -/
theorem hexCodec_iff (delimiter : U8) (source : List U8) :
    ((∀ s, ReadBack delimiter s) ∧ Treated delimiter source) ↔ ¬ BeyondHex delimiter source := by
  constructor
  · exact fun h hbeyond => not_treated_of_beyond hbeyond h.2
  · exact fun h => ⟨readBack delimiter, treated_of_not_beyond h⟩

/-- `G0` is read as the byte that `00` stands for. -/
theorem letter_beyond_hex :
    hexDecodeWithDelimiter (bytes "G0".toList) 1 0 [1] = .ok (1, [0]) ∧
      ¬ Pairs 0 IsHex (bytes "G0".toList) ∧
      (∃ s, hexEncodeText [0] 0 = .ok s ∧ lower s ≠ lower (bytes "G0".toList)) ∧
      ¬ Treated 0 (bytes "G0".toList) := by
  have hresult : hexDecodeWithDelimiter (bytes "G0".toList) 1 0 [1] = .ok (1, [0]) := by
    decide +kernel
  have hnot : ¬ Pairs 0 IsHex (bytes "G0".toList) := fun h => absurd h.head (by decide)
  refine ⟨hresult, hnot, ⟨_, hexEncodeText_eq [0] 0, by decide⟩, fun h => ?_⟩
  obtain ⟨length, buffer', hdecoded, hpairs, -⟩ := h [1]
  obtain ⟨rfl, -⟩ := Prod.mk.inj (Except.ok.inj (hdecoded.symm.trans hresult))
  exact hnot (hpairs (by decide)).1

end Libjingle.StringEncode
