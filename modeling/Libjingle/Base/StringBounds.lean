import Libjingle.Base.StringTurns

/-!
# The bounds of the string encoders and decoders (`base/stringencode.cc`)

Which accesses of the programs are inside the source and the buffer.

* `Overruns`: what makes `xml_decode` leave the source or the buffer. Its number parser does not
  know where the source ends, and the room that it offers to `utf8_encode` includes the place of
  the terminator.

## Results

* **`encoders_inside_iff`**: all encoders and decoders stay inside unless the source overruns.
* `reference_leaves`: two references on which `xml_decode` does not.
-/

namespace Libjingle.StringEncode

open Lib Checked

variable {source buffer : List U8} {srcpos bufpos n : Nat} {delimiter : U8}

/-- A program stays inside, and returns a length below that of the buffer. -/
def EndsBelow (m : Checked U8 Nat) (buffer : List U8) : Prop :=
  ∃ len buffer', m buffer = .ok (len, buffer') ∧ len < buffer.length

/-- A program stays inside, and returns a length no greater than that of the buffer. -/
def EndsWithin (m : Checked U8 Nat) (buffer : List U8) : Prop :=
  ∃ len buffer', m buffer = .ok (len, buffer') ∧ len ≤ buffer.length

variable {out : List U8}

theorem Writes.endsBelow {m : Checked U8 Nat} (h : Writes m buffer out) : EndsBelow m buffer :=
  ⟨_, _, h.1, h.2⟩

/-! ## Hexadecimal strings -/

/-- What the loop of `hex_encode_with_delimiter` writes for `n` bytes, with the terminator. -/
def encodeRoom (delimiter : U8) (n : Nat) : Nat := if delimiter ≠ 0 then n * 3 else n * 2 + 1

theorem hexEncodeLoop_ends (hsource : srcpos + n = source.length)
    (hroom : bufpos + encodeRoom delimiter n ≤ buffer.length) (hplace : bufpos < buffer.length) :
    ∃ len buffer', hexEncodeLoop source delimiter n srcpos bufpos buffer = .ok (len, buffer') ∧
      len < buffer.length ∧ buffer'.length = buffer.length := by
  induction n generalizing srcpos bufpos buffer with
  | zero => exact ⟨bufpos, buffer, rfl, hplace, rfl⟩
  | succ n ih =>
    have hpair : (hexPair source[srcpos]).length = 2 := rfl
    have hfits : bufpos + (hexPair source[srcpos]).length ≤ buffer.length := by
      rw [hpair]
      unfold encodeRoom at hroom
      split at hroom <;> omega
    have hlen := overwrite_length hfits
    rw [hexEncodeLoop, bind_of_ok (readAt_of_some (List.getElem?_eq_getElem (by omega)) buffer),
      bind_of_ok (writeAll_eq hfits)]
    generalize overwrite buffer bufpos (hexPair source[srcpos]) = buffer₁ at hlen
    unfold encodeRoom at ih hroom
    rw [← hlen] at hroom ⊢
    split
    · rename_i hdelimiter
      rw [if_pos hdelimiter.1] at ih hroom
      have hone : bufpos + 2 + [delimiter].length ≤ buffer₁.length := by
        rw [List.length_singleton]
        omega
      have hlen₁ := overwrite_length hone
      rw [bind_of_ok (writeAt_eq (by omega) delimiter)]
      generalize overwrite buffer₁ (bufpos + 2) [delimiter] = buffer₂ at hlen₁
      rw [← hlen₁] at hroom ⊢
      exact ih (by omega) (by omega) (by omega)
    · rename_i hdelimiter
      split at hroom
      · rename_i hnonzero
        rw [if_pos hnonzero] at ih
        have hlast : n = 0 := by
          by_contra hn
          exact hdelimiter ⟨hnonzero, by omega⟩
        exact ih (by omega) (by omega) (by omega)
      · rename_i hzero
        rw [if_neg hzero] at ih
        exact ih (by omega) (by omega) (by omega)

theorem hexEncodeWithDelimiter_below (hbuffer : 1 ≤ buffer.length) :
    EndsBelow (hexEncodeWithDelimiter source buffer.length delimiter) buffer := by
  unfold hexEncodeWithDelimiter
  rw [if_neg (by omega)]
  by_cases hroom : buffer.length < encodeRoom delimiter source.length
  · rw [EndsBelow, ← encodeRoom, if_pos hroom]
    exact ⟨0, buffer, rfl, hbuffer⟩
  · rw [EndsBelow, ← encodeRoom, if_neg hroom]
    have hfits : 0 + encodeRoom delimiter source.length ≤ buffer.length := by omega
    obtain ⟨len, buffer', hloop, hlt, hlen⟩ :=
      hexEncodeLoop_ends (Nat.zero_add source.length) hfits hbuffer
    rw [bind_of_ok hloop, bind_of_ok (writeAt_eq (by omega) 0)]
    exact ⟨len, _, rfl, hlt⟩

/-- What the loop of `hex_decode_with_delimiter` writes for `rest` characters. -/
def decodeRoom (delimiter : U8) (rest : Nat) : Nat :=
  if delimiter ≠ 0 then (rest + 1) / 3 else rest / 2

theorem hexDecodeLoop_ends
    (hroom : bufpos + decodeRoom delimiter (source.length - srcpos) ≤ buffer.length) :
    EndsWithin (hexDecodeLoop source delimiter n srcpos bufpos) buffer := by
  induction n generalizing srcpos bufpos buffer with
  | zero => exact ⟨bufpos, buffer, rfl, by omega⟩
  | succ n ih =>
    rw [hexDecodeLoop]
    split
    swap
    · exact ⟨bufpos, buffer, rfl, by omega⟩
    split
    · exact ⟨0, buffer, rfl, Nat.zero_le _⟩
    rename_i hmore htwo
    rw [EndsWithin, bind_of_ok (readAt_of_some (List.getElem?_eq_getElem hmore) buffer)]
    cases hexDecode source[srcpos] with
    | none => exact ⟨0, buffer, rfl, Nat.zero_le _⟩
    | some h₁ =>
      have hnext : srcpos + 1 < source.length := by omega
      simp only
      rw [bind_of_ok (readAt_of_some (List.getElem?_eq_getElem hnext) buffer)]
      cases hexDecode source[srcpos + 1] with
      | none => exact ⟨0, buffer, rfl, Nat.zero_le _⟩
      | some h₂ =>
        have hone : bufpos + [ofHex h₁ h₂].length ≤ buffer.length := by
          rw [List.length_singleton]
          unfold decodeRoom at hroom
          split at hroom <;> omega
        have hlen := overwrite_length hone
        rw [List.length_singleton] at hone
        simp only
        rw [bind_of_ok (writeAt_eq (by omega) _)]
        generalize overwrite buffer bufpos [ofHex h₁ h₂] = buffer₁ at hlen
        unfold EndsWithin at ih
        unfold decodeRoom at ih hroom
        rw [← hlen] at hroom ⊢
        split
        · rename_i hdelimiter
          have hthird : srcpos + 2 < source.length := by omega
          rw [if_pos hdelimiter.1] at hroom
          rw [bind_of_ok (readAt_of_some (List.getElem?_eq_getElem hthird) buffer₁)]
          split
          · exact ⟨0, buffer₁, rfl, Nat.zero_le _⟩
          · refine ih ?_
            rw [if_pos hdelimiter.1]
            omega
        · rename_i hdelimiter
          refine ih ?_
          split at hroom
          · rename_i hnonzero
            have hend : ¬ source.length - (srcpos + 2) > 1 := fun h => hdelimiter ⟨hnonzero, h⟩
            rw [if_pos hnonzero]
            omega
          · rename_i hzero
            rw [if_neg hzero]
            omega

theorem hexDecodeWithDelimiter_within (hbuffer : 1 ≤ buffer.length) :
    EndsWithin (hexDecodeWithDelimiter source buffer.length delimiter) buffer := by
  unfold hexDecodeWithDelimiter
  rw [if_neg (by omega), ← decodeRoom]
  by_cases hroom : buffer.length < decodeRoom delimiter source.length
  · rw [if_pos hroom]
    exact ⟨0, buffer, rfl, Nat.zero_le _⟩
  · rw [if_neg hroom]
    refine hexDecodeLoop_ends ?_
    rw [Nat.zero_add]
    exact Nat.le_of_not_lt hroom

/-! ## Numeric references -/

/-- The length of the UTF-8 of a value; none is longer than four bytes. -/
def utf8Size (value : Nat) : Nat :=
  if value ≤ 0x7F then 1 else if value ≤ 0x7FF then 2 else if value ≤ 0xFFFF then 3 else 4

/-- **The decoder comes to a reference that it cannot take**, with `room` bytes left before the
terminator's: one whose number runs on to the end of the source, or whose UTF-8 takes up the room
for the terminator too. -/
inductive Overruns : Nat → List U8 → Prop
  | runsOn {room : Nat} {rest : List U8} : nameOf rest xmlNames = none → number rest = none →
      Overruns (room + 1) (byte '&' :: rest)
  | fills {room val len : Nat} {rest : List U8} : nameOf rest xmlNames = none →
      number rest = some (some (val, len)) → val ≤ 0x1FFFFF → utf8Size val = room + 2 →
      Overruns (room + 1) (byte '&' :: rest)
  | char {room : Nat} {ch : U8} {rest : List U8} : ch ≠ byte '&' → Overruns room rest →
      Overruns (room + 1) (ch :: rest)
  | name {room : Nat} {rest : List U8} {entry : List U8 × U8} :
      nameOf rest xmlNames = some entry → Overruns room (rest.drop entry.1.length) →
      Overruns (room + 1) (byte '&' :: rest)
  | reference {room val len : Nat} {rest : List U8} : nameOf rest xmlNames = none →
      number rest = some (some (val, len)) → val ≤ 0x1FFFFF → Overruns room (rest.drop len) →
      Overruns (room + utf8Size val) (byte '&' :: rest)

theorem utf8Size_pos (value : Nat) : 0 < utf8Size value := by
  unfold utf8Size
  split_ifs <;> omega

theorem utf8Encode_length (room value : Nat) : (utf8Encode room value).length =
    if value ≤ 0x1FFFFF ∧ utf8Size value ≤ room then utf8Size value else 0 := by
  unfold utf8Encode utf8Size
  split_ifs <;> first | rfl | omega

theorem utf8Encode_eq_nil_iff {room value : Nat} :
    utf8Encode room value = [] ↔ ¬(value ≤ 0x1FFFFF ∧ utf8Size value ≤ room) := by
  rw [← List.length_eq_zero_iff, utf8Encode_length]
  have hsize := utf8Size_pos value
  split_ifs with h
  · exact iff_of_false (by omega) (not_not.mpr h)
  · exact iff_of_true rfl h

variable {room : Nat}

variable {rest : List U8}

theorem overruns_cons_iff {ch : U8} : Overruns (room + 1) (ch :: rest) ↔
      if ch ≠ byte '&' then Overruns room rest
      else
        match nameOf rest xmlNames with
        | some entry => Overruns room (rest.drop entry.1.length)
        | none =>
          match number rest with
          | none => True
          | some none => False
          | some (some (val, len)) =>
            val ≤ 0x1FFFFF ∧ (utf8Size val = room + 2 ∨
              utf8Size val ≤ room + 1 ∧ Overruns (room + 1 - utf8Size val) (rest.drop len)) := by
  constructor
  · intro h
    generalize hroom : room + 1 = room' at h
    generalize hs : ch :: rest = s at h
    cases h with
    | runsOn hname hnumber =>
      obtain ⟨rfl, rfl⟩ := List.cons.inj hs
      rw [if_neg (not_not.mpr rfl), hname, hnumber]
      trivial
    | fills hname hnumber hval hsize =>
      obtain ⟨rfl, rfl⟩ := List.cons.inj hs
      rw [if_neg (not_not.mpr rfl), hname, hnumber]
      exact ⟨hval, .inl (by omega)⟩
    | char hch h =>
      obtain ⟨rfl, rfl⟩ := List.cons.inj hs
      rw [if_pos hch, Nat.succ.inj hroom]
      exact h
    | name hname h =>
      obtain ⟨rfl, rfl⟩ := List.cons.inj hs
      rw [if_neg (not_not.mpr rfl), hname, Nat.succ.inj hroom]
      exact h
    | reference hname hnumber hval h =>
      obtain ⟨rfl, rfl⟩ := List.cons.inj hs
      rw [if_neg (not_not.mpr rfl), hname, hnumber]
      exact ⟨hval, .inr ⟨Nat.le_add_left _ _, by rwa [Nat.add_sub_cancel]⟩⟩
  · intro h
    split at h
    · rename_i hch
      exact .char hch h
    · rename_i hamp
      rw [not_not.mp hamp]
      cases hname : nameOf rest xmlNames with
      | some entry =>
        rw [hname] at h
        exact .name hname h
      | none =>
        rw [hname] at h
        cases hnumber : number rest with
        | none => exact .runsOn hname hnumber
        | some r =>
          rw [hnumber] at h
          cases r with
          | none => exact h.elim
          | some r =>
            obtain ⟨hval, hsize | ⟨hsize, h⟩⟩ := h
            · exact .fills hname hnumber hval hsize
            · have href := Overruns.reference hname hnumber hval h
              rwa [Nat.sub_add_cancel hsize] at href

theorem not_overruns_nil : ¬ Overruns room [] := nofun

variable {s : List U8}

theorem not_overruns_zero : ¬ Overruns 0 s := by
  intro h
  generalize hroom : 0 = room at h
  cases h with
  | @reference _ val => exact absurd (utf8Size_pos val) (by omega)
  | _ => cases hroom

theorem forall_some_iff {α β : Type} {a : α} {b : β} {Q : α → β → Prop} :
    (∀ a' b', some (a, b) = some (a', b') → Q a' b') ↔ Q a b :=
  ⟨fun h => h a b rfl, fun h a' b' heq => by cases heq; exact h⟩

theorem staysFor_iff {n room : Nat} (hn : s.length ≤ n) :
    StaysFor (fun rest _ => XmlEnds rest) xmlStep n room s ↔ ¬ Overruns room s := by
  induction n generalizing room s with
  | zero =>
    rw [List.eq_nil_of_length_eq_zero (Nat.le_zero.mp hn)]
    exact iff_of_true trivial not_overruns_nil
  | succ n ih =>
    cases s with
    | nil => exact iff_of_true (.inl rfl) not_overruns_nil
    | cons ch rest =>
      cases room with
      | zero => exact iff_of_true (.inr (.inl rfl)) not_overruns_zero
      | succ room =>
        rw [List.length_cons] at hn
        have hdrop : ∀ k, (rest.drop k).length ≤ n := fun k => by
          rw [List.length_drop]
          omega
        rw [overruns_cons_iff, StaysFor, or_iff_right (List.cons_ne_nil _ _),
          or_iff_right (Nat.succ_ne_zero room), XmlEnds, xmlStep]
        by_cases hamp : ch = byte '&'
        · rw [if_neg (not_not.mpr hamp), if_neg (not_not.mpr hamp)]
          cases nameOf rest xmlNames with
          | some entry =>
            simp only
            rw [forall_some_iff, ← ih (hdrop entry.1.length), Nat.add_comm 1]
            exact ⟨fun h => h.2.2, fun h => ⟨by simp, by simp, h⟩⟩
          | none =>
            cases number rest with
            | none => exact iff_of_false (fun h => h.1 hamp rfl rfl) (not_not.mpr trivial)
            | some r =>
              cases r with
              | none => exact iff_of_true ⟨by simp, by simp⟩ not_false
              | some r =>
                simp only
                split
                · rename_i hnil
                  have hno := utf8Encode_eq_nil_iff.mp hnil
                  refine iff_of_true ⟨by simp, by simp⟩ fun h => hno ⟨h.1, ?_⟩
                  omega
                · rename_i hout
                  have hyes := not_not.mp (mt utf8Encode_eq_nil_iff.mpr hout)
                  rw [forall_some_iff, utf8Encode_length, if_pos hyes, Nat.add_comm 1,
                    List.drop_succ_cons, ih (hdrop r.2)]
                  refine ⟨fun hstays h => ?_, fun h => ?_⟩
                  · obtain ⟨-, hsize, hrest⟩ := hstays
                    exact h.2.elim (by omega) fun h => hrest h.2
                  · have hsize : utf8Size r.1 ≤ room + 1 := by
                      by_contra hlong
                      exact h ⟨hyes.1, .inl (by omega)⟩
                    exact ⟨by simp, hsize, fun hrest => h ⟨hyes.1, .inr ⟨hsize, hrest⟩⟩⟩
        · rw [if_pos hamp, if_pos hamp, forall_some_iff, ← ih (Nat.le_of_succ_le_succ hn)]
          exact ⟨fun h => h.2.2, fun h => ⟨fun heq => absurd heq hamp, by simp, h⟩⟩

/-! ## All of them -/

theorem xmlStep_near {taken : Nat}
    (h : xmlStep rest room = some (out, taken)) : out.length ≤ room + 1 := by
  cases rest with
  | nil => cases h
  | cons ch rest =>
    rw [xmlStep] at h
    split at h
    · cases h
      simp
    · split at h
      · cases h
        simp
      · split at h
        · split at h
          · cases h
          · cases h
            exact utf8Encode_length_le _ _
        · cases h

theorem xmlDecode_below_iff (hbuffer : 1 ≤ buffer.length) :
    EndsBelow (xmlDecode source buffer.length) buffer ↔ ¬ Overruns (buffer.length - 1) source := by
  rw [← staysFor_iff (Nat.le_refl source.length)]
  constructor
  · intro h
    by_contra hstays
    obtain ⟨fault, hfault⟩ := terminated_fault xmlDecodeTurn_does
      (fun _ _ _ _ => xmlStep_near) 0 rfl hbuffer hstays
    obtain ⟨len, buffer', hend, -⟩ := h
    rw [xmlDecode, if_neg (by omega), hfault] at hend
    cases hend
  · intro hstays
    exact (xmlDecode_writes hbuffer hstays).endsBelow

/-- **All encoders and decoders stay inside** the source and the buffer, whatever the characters to
escape, the escape character and the delimiter are, **unless the source overruns**. -/
theorem encoders_inside_iff (source buffer illegal : List U8) (esc delimiter : U8)
    (hbuffer : 1 ≤ buffer.length) :
    (EndsBelow (escape source buffer.length illegal esc) buffer ∧
      EndsBelow (unescape source buffer.length esc) buffer ∧
      EndsBelow (encode source buffer.length illegal esc) buffer ∧
      EndsBelow (decode source buffer.length esc) buffer ∧
      EndsBelow (urlEncode source buffer.length) buffer ∧
      EndsBelow (urlDecode source buffer.length) buffer ∧
      EndsBelow (htmlEncode source buffer.length) buffer ∧
      EndsBelow (xmlEncode source buffer.length) buffer ∧
      EndsBelow (xmlDecode source buffer.length) buffer ∧
      EndsBelow (hexEncodeWithDelimiter source buffer.length delimiter) buffer ∧
      EndsWithin (hexDecodeWithDelimiter source buffer.length delimiter) buffer) ↔
      ¬ Overruns (buffer.length - 1) source := by
  rw [← xmlDecode_below_iff hbuffer]
  refine ⟨fun h => h.2.2.2.2.2.2.2.2.1, fun hxml => ?_⟩
  exact ⟨(escape_writes hbuffer illegal esc).endsBelow, (unescape_writes hbuffer esc).endsBelow,
    (encode_writes hbuffer illegal esc).endsBelow, (decode_writes hbuffer esc).endsBelow,
    (urlEncode_writes hbuffer).endsBelow, (urlDecode_writes hbuffer).endsBelow,
    (htmlEncode_writes hbuffer).endsBelow, (xmlEncode_writes hbuffer).endsBelow, hxml,
    hexEncodeWithDelimiter_below hbuffer, hexDecodeWithDelimiter_within hbuffer⟩

theorem encoders_inside_reference :
    EndsBelow (xmlDecode (bytes "&#65;".toList) 3) [0, 0, 0] := by
  have hinside : ¬ Overruns 2 (bytes "&#65;".toList) := by
    intro h
    have h : 65 ≤ 0x1FFFFF ∧ (utf8Size 65 = 3 ∨ utf8Size 65 ≤ 2 ∧ Overruns 1 []) :=
      overruns_cons_iff.mp h
    obtain ⟨-, hsize | ⟨-, hend⟩⟩ := h
    · exact absurd hsize (by decide)
    · exact not_overruns_nil hend
  have hall := (encoders_inside_iff (bytes "&#65;".toList) [0, 0, 0] [] 0 0 (by decide)).mpr hinside
  exact hall.2.2.2.2.2.2.2.2.1

theorem reference_leaves :
    xmlDecode (bytes "&#12".toList) 8 (List.replicate 8 0) = .error .read ∧
      xmlDecode (bytes "&#233;".toList) 2 [0, 0] = .error .write ∧
      ¬ EndsBelow (xmlDecode (bytes "&#12".toList) 8) (List.replicate 8 0) ∧
      ¬ EndsBelow (xmlDecode (bytes "&#233;".toList) 2) [0, 0] := by
  have hread : xmlDecode (bytes "&#12".toList) 8 (List.replicate 8 0) = .error .read := rfl
  have hwrite : xmlDecode (bytes "&#233;".toList) 2 [0, 0] = .error .write := rfl
  refine ⟨hread, hwrite, ?_, ?_⟩
  · rintro ⟨len, buffer', h, -⟩
    rw [hread] at h
    cases h
  · rintro ⟨len, buffer', h, -⟩
    rw [hwrite] at h
    cases h

end Libjingle.StringEncode
