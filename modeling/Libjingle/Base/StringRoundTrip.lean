import Mathlib.Data.Nat.Digits.Defs
import Libjingle.Base.StringTurns

/-!
# Encoding and decoding (`base/stringencode.cc`)

A string that is encoded, in any room, and decoded again.

* `Shortest`, `Utf8`: the bytes of a character, and of characters, in shortest form.

## Results

* **`encoders_roundTrip`**: decoding gives a front part of the string, and all of it if there was
  room for the worst case.
-/

namespace Libjingle.StringEncode

open Lib Checked

variable {source buffer : List U8} {ch : U8}

/-! ## Units -/

variable {worst : Nat}

theorem decodes_of_units {unit : U8 → List U8} {decoder : Turn U8 U8}
    (hpos : ∀ ch, 1 ≤ (unit ch).length) (hworst : ∀ ch, (unit ch).length ≤ worst)
    (hreads : ∀ ch tail room, decoder (unit ch ++ tail) room = some ([ch], (unit ch).length)) :
    Decodes (fun _ => True) (firstUnit unit) worst decoder where
  takes rest _ hne := by
    obtain ⟨ch, rest, rfl⟩ := List.exists_cons_of_ne_nil hne
    exact ⟨Nat.one_pos, Nat.le_add_left 1 _⟩
  longer rest _ hne := by
    obtain ⟨ch, rest, rfl⟩ := List.exists_cons_of_ne_nil hne
    exact hpos ch
  worst rest _ hne := by
    obtain ⟨ch, rest, rfl⟩ := List.exists_cons_of_ne_nil hne
    exact (hworst ch).trans (Nat.le_of_eq (Nat.mul_one worst).symm)
  stays _ _ _ := trivial
  reads rest _ hne tail room _ := by
    obtain ⟨ch, rest, rfl⟩ := List.exists_cons_of_ne_nil hne
    exact hreads ch tail room

/-! ## Escaping -/

variable {esc : U8}

theorem unescapeStep_of_ne (h : ch ≠ esc) (tail : List U8) (room : Nat) :
    unescapeStep esc (ch :: tail) room = some ([ch], 1) := by
  cases tail with
  | nil => rfl
  | cons next tail => rw [unescapeStep, if_neg h]

theorem escape_decodes (illegal : List U8) (esc : U8) :
    Decodes (fun _ => True) (firstUnit (escapeUnit illegal esc)) 2 (unescapeStep esc) := by
  refine decodes_of_units (fun ch => (escapeUnit_length illegal esc ch).1)
    (fun ch => (escapeUnit_length illegal esc ch).2) fun ch tail room => ?_
  unfold escapeUnit
  split
  · exact if_pos rfl
  · rename_i hplain
    exact unescapeStep_of_ne (fun h => hplain (.inl h)) tail room

theorem unescapeStep_takes (esc : U8) : (unescapeStep esc).Takes := by
  intro rest room out taken hne h
  unfold unescapeStep at h
  split at h
  · cases h
  · cases h
    simp
  · split at h <;> (cases h; simp)

/-! ## Hexadecimal digits -/

theorem hexDecode_hexEncode {v : Nat} (h : v < 16) :
    hexDecode (hexEncode v) = some (BitVec.ofNat 8 v) := by
  have hall : ∀ i : Fin 16, hexDecode (hexEncode i) = some (BitVec.ofNat 8 i) := by decide
  exact hall ⟨v, h⟩

theorem ofHex_digits (ch : U8) :
    ofHex (BitVec.ofNat 8 (ch.toNat / 16)) (BitVec.ofNat 8 (ch.toNat % 16)) = ch := by
  have hlt := ch.isLt
  have hor := Nat.shiftLeft_add_eq_or_of_lt (show ch.toNat % 16 < 2 ^ 4 by omega) (ch.toNat / 16)
  rw [Nat.shiftLeft_eq] at hor
  apply BitVec.eq_of_toNat_eq
  rw [ofHex, BitVec.toNat_or, BitVec.toNat_shiftLeft, BitVec.toNat_ofNat, BitVec.toNat_ofNat,
    Nat.mod_eq_of_lt (show ch.toNat / 16 < 2 ^ 8 by omega),
    Nat.mod_eq_of_lt (show ch.toNat % 16 < 2 ^ 8 by omega), Nat.shiftLeft_eq,
    Nat.mod_eq_of_lt (show ch.toNat / 16 * 2 ^ 4 < 2 ^ 8 by omega), ← hor]
  omega

theorem unhexStep_of_ne (h : ch ≠ esc) (plain : U8 → U8) (tail : List U8)
    (room : Nat) : unhexStep esc plain (ch :: tail) room = some ([plain ch], 1) := by
  match tail with
  | [] | [_] => rfl
  | _ :: _ :: _ => exact if_neg h

theorem hex_decodes {unsafeChar : U8 → Bool} {plain : U8 → U8}
    (hesc : unsafeChar esc = true) (hplain : ∀ ch, unsafeChar ch = false → plain ch = ch) :
    Decodes (fun _ => True) (firstUnit (hexUnit esc unsafeChar)) 3 (unhexStep esc plain) := by
  refine decodes_of_units (fun ch => ?_) (fun ch => ?_) fun ch tail room => ?_
  · unfold hexUnit
    split <;> simp
  · unfold hexUnit hexPair
    split <;> simp
  · unfold hexUnit hexPair
    split
    · have hlt := ch.isLt
      rw [List.cons_append, List.cons_append, List.cons_append, unhexStep, if_pos rfl,
        hexDecode_hexEncode (by omega), hexDecode_hexEncode (by omega)]
      simp only [ofHex_digits]
      rfl
    · rename_i hsafe
      have hne : ch ≠ esc := fun heq => hsafe (heq ▸ hesc)
      rw [List.singleton_append, unhexStep_of_ne hne, hplain ch (by simpa using hsafe)]
      rfl

theorem unhexStep_takes (esc : U8) (plain : U8 → U8) : (unhexStep esc plain).Takes := by
  intro rest room out taken hne h
  unfold unhexStep at h
  split at h
  · cases h
  · split at h
    · split at h <;> (cases h; simp)
    · cases h
      simp
  · cases h
    simp

/-! ## XML -/

theorem exists_name_of_xmlUnsafe (h : xmlUnsafe ch = true) :
    ∃ entry ∈ xmlNames, entry.2 = ch ∧ xmlEscape ch = byte '&' :: entry.1 := by
  have hall : ∀ i : Fin 256, xmlUnsafe (BitVec.ofFin i) = true →
      ∃ entry ∈ xmlNames, entry.2 = BitVec.ofFin i ∧
        xmlEscape (BitVec.ofFin i) = byte '&' :: entry.1 := by
    set_option maxRecDepth 4000 in decide
  exact hall ch.toFin h

theorem nameOf_append {entry : List U8 × U8} (h : entry ∈ xmlNames) (tail : List U8) :
    nameOf (entry.1 ++ tail) xmlNames = some entry := by
  have hall : ∀ entry ∈ xmlNames, nameOf (entry.1 ++ tail) xmlNames = some entry := by
    simp only [xmlNames, List.forall_mem_cons]
    exact ⟨rfl, rfl, rfl, rfl, rfl, nofun⟩
  exact hall entry h

theorem xmlStep_of_ne (h : ch ≠ byte '&') (tail : List U8) (room : Nat) :
    xmlStep (ch :: tail) room = some ([ch], 1) := by
  rw [xmlStep, if_pos h]

theorem xmlStep_xmlEscape (h : xmlUnsafe ch = true) (tail : List U8) (room : Nat) :
    xmlStep (xmlEscape ch ++ tail) room = some ([ch], (xmlEscape ch).length) := by
  obtain ⟨entry, hmem, rfl, hescape⟩ := exists_name_of_xmlUnsafe h
  rw [hescape, List.cons_append, xmlStep, if_neg (not_not.mpr rfl), nameOf_append hmem,
    List.length_cons, Nat.add_comm entry.1.length]

theorem ne_amp_of_safe (h : ¬ xmlUnsafe ch = true) : ch ≠ byte '&' := by
  rintro rfl
  exact h rfl

theorem xmlEscape_length {ch : U8} (h : xmlUnsafe ch = true) :
    1 ≤ (xmlEscape ch).length ∧ (xmlEscape ch).length ≤ 6 := by
  have hall : ∀ entry ∈ xmlNames, entry.1.length ≤ 5 := by decide
  obtain ⟨entry, hmem, -, hescape⟩ := exists_name_of_xmlUnsafe h
  have hle := hall entry hmem
  rw [hescape, List.length_cons]
  omega

theorem xml_decodes : Decodes (fun _ => True) (firstUnit xmlUnit) 6 xmlStep := by
  refine decodes_of_units (fun ch => ?_) (fun ch => ?_) fun ch tail room => ?_
  · unfold xmlUnit
    split
    · exact (xmlEscape_length (by assumption)).1
    · exact Nat.le_refl 1
  · unfold xmlUnit
    split
    · exact (xmlEscape_length (by assumption)).2
    · exact Nat.le_add_left 1 5
  · unfold xmlUnit
    split
    · exact xmlStep_xmlEscape (by assumption) tail room
    · exact xmlStep_of_ne (ne_amp_of_safe (by assumption)) tail room

variable {rest : List U8}

theorem number_le {val len : Nat} (h : number rest = some (some (val, len))) :
    len ≤ rest.length := by
  unfold number at h
  split at h
  · obtain ⟨r, -, h⟩ := Option.bind_eq_some_iff.mp h
    generalize (if decide (rest[1]? = some (byte 'x')) then 2 else 1) = start at h
    by_cases hend : rest[start + r.2]? = some (byte ';')
    · rw [if_pos hend] at h
      obtain ⟨hlt, -⟩ := List.getElem?_eq_some_iff.mp hend
      cases h
      exact hlt
    · rw [if_neg hend] at h
      cases h
  · cases h

theorem xmlStep_takes : xmlStep.Takes := by
  intro rest room out taken hne h
  obtain ⟨ch, rest, rfl⟩ := List.exists_cons_of_ne_nil hne
  rw [List.length_cons]
  rw [xmlStep] at h
  split at h
  · cases h
    omega
  · split at h
    · rename_i name _ hname
      cases h
      unfold nameOf at hname
      have hfound := List.find?_some hname
      have hle : name.length ≤ rest.length := (of_decide_eq_true hfound).length_le
      omega
    · split at h
      · rename_i hnumber
        have hle := number_le hnumber
        split at h
        · cases h
        · cases h
          omega
      · cases h

variable {room : Nat}

theorem xmlEnds_of_xmlStep {r : List U8 × Nat} (h : xmlStep rest room = some r) : XmlEnds rest := by
  cases rest with
  | nil => trivial
  | cons ch rest =>
    intro hamp hname hnumber
    rw [xmlStep, if_neg (not_not.mpr hamp), hname, hnumber] at h
    cases h

/-! ## Numbers -/

def IsDigitByte (ch : U8) : Prop := 48 ≤ ch.toNat ∧ ch.toNat ≤ 57

theorem IsDigitByte.digitValue_eq (h : IsDigitByte ch) : digitValue ch = ch.toNat - 48 := by
  rw [digitValue, if_pos ⟨h.1, h.2⟩]

theorem toNat_byte_of_isDigit {d : Char} (h : d.isDigit = true) :
    (byte d).toNat = d.toNat ∧ 48 ≤ d.toNat ∧ d.toNat ≤ 57 := by
  simp only [Char.isDigit, Bool.and_eq_true, decide_eq_true_eq] at h
  have hlo : 48 ≤ d.toNat := h.1
  have hhi : d.toNat ≤ 57 := h.2
  rw [byte, BitVec.toNat_ofNat, Nat.mod_eq_of_lt (by omega)]
  exact ⟨rfl, hlo, hhi⟩

variable {val : Nat}

theorem isDigitByte_of_mem (h : ch ∈ bytes (natText val)) : IsDigitByte ch := by
  obtain ⟨d, hd, rfl⟩ := List.mem_map.mp h
  obtain ⟨heq, hlo, hhi⟩ := toNat_byte_of_isDigit (isDigit_of_mem_natText hd)
  rw [IsDigitByte, heq]
  exact ⟨hlo, hhi⟩

theorem foldl_bytes {s : Text} (h : ∀ d ∈ s, d.isDigit = true) (n : Nat) :
    (bytes s).foldl (fun n ch => n * 10 + digitValue ch) n = Nat.ofDigitChars 10 s n := by
  induction s generalizing n with
  | nil => rfl
  | cons d s ih =>
    obtain ⟨heq, hlo, hhi⟩ := toNat_byte_of_isDigit (h d List.mem_cons_self)
    have hdigit : IsDigitByte (byte d) := by rw [IsDigitByte, heq]; exact ⟨hlo, hhi⟩
    rw [Nat.ofDigitChars_cons, ← ih fun d hd => h d (List.mem_cons_of_mem _ hd)]
    rw [bytes, List.map_cons, List.foldl_cons, hdigit.digitValue_eq, heq, Nat.mul_comm]
    rfl

theorem ofDigits_natText (val : Nat) : ofDigits 10 (bytes (natText val)) = val :=
  (foldl_bytes (fun _ => isDigit_of_mem_natText) 0).trans (ofDigitChars_natText val)

theorem findIdx?_append_of_all {p : U8 → Bool} {l tail : List U8} {a : U8}
    (hl : ∀ x ∈ l, p x = false) (ha : p a = true) :
    (l ++ a :: tail).findIdx? p = some l.length := by
  induction l with
  | nil => rw [List.nil_append, List.findIdx?_cons, if_pos ha]; rfl
  | cons x l ih =>
    rw [List.cons_append, List.findIdx?_cons, hl x List.mem_cons_self,
      ih fun y hy => hl y (List.mem_cons_of_mem x hy)]
    rfl

theorem strtoul_digits {digits : List U8} (hne : digits ≠ [])
    (hdigits : ∀ d ∈ digits, IsDigitByte d) (hval : ofDigits 10 digits < 2 ^ 64)
    (tail : List U8) :
    strtoul 10 (digits ++ byte ';' :: tail) = some (ofDigits 10 digits, digits.length) := by
  have hstop : (digits ++ byte ';' :: tail).findIdx? (fun ch => !decide (digitValue ch < 10)) =
      some digits.length := by
    refine findIdx?_append_of_all (fun d hd => ?_) rfl
    have hdigit := hdigits d hd
    have hlt : digitValue d < 10 := by
      rw [hdigit.digitValue_eq]
      exact Nat.sub_lt_left_of_lt_add hdigit.1 (Nat.lt_succ_of_le hdigit.2)
    rw [decide_eq_true hlt]
    rfl
  have htake : (digits ++ byte ';' :: tail).take digits.length = digits := List.take_left
  obtain ⟨d, ds, hd⟩ := List.exists_cons_of_ne_nil hne
  have hfirst := hdigits d (hd ▸ List.mem_cons_self)
  have hspace : isSpaceByte d = false := by
    unfold IsDigitByte at hfirst
    simp [isSpaceByte]
    omega
  have hstart : (digits ++ byte ';' :: tail).findIdx? (fun ch => !isSpaceByte ch) = some 0 := by
    rw [hd, List.cons_append, List.findIdx?_cons, hspace]
    rfl
  have hsign : ¬(d = byte '-' ∨ d = byte '+') := by
    rintro (rfl | rfl)
    · exact absurd hfirst.1 (by decide)
    · exact absurd hfirst.1 (by decide)
  have hget : (digits ++ byte ';' :: tail)[0]? = some d := by rw [hd]; rfl
  have hskip : ∀ rest, hexPrefix 10 rest = some 0 := fun _ => rfl
  unfold strtoul
  simp only [hstart, hget, Option.bind_eq_bind, Option.bind_some, if_neg hsign, hskip,
    List.drop_zero, Nat.add_zero, Nat.zero_add, hstop, htake, if_neg hne]
  rw [unsignedLong, if_neg (Nat.not_le.mpr hval), if_neg (by simpa using fun h => hsign (.inl h))]
  rfl

theorem natText_length_le (h : val ≤ 0x1FFFFF) : (natText val).length ≤ 7 :=
  (Nat.length_toDigits_le_iff (by decide) (by decide)).mpr (by omega)

/-- The buffer of `html_encode` has room for the reference to any value that UTF-8 has. -/
theorem numericEscape_eq (h : val ≤ 0x1FFFFF) :
    numericEscape val = byte '&' :: byte '#' :: (bytes (natText val) ++ [byte ';']) := by
  have hlen := natText_length_le h
  rw [numericEscape, List.take_of_length_le]
  · rfl
  · simp only [List.length_append, bytes, List.length_map]
    change 2 + _ + 1 ≤ 10
    omega

theorem number_numericEscape (h : val ≤ 0x1FFFFF) (tail : List U8) :
    number (byte '#' :: (bytes (natText val) ++ byte ';' :: tail)) =
      some (some (val, (bytes (natText val)).length + 2)) := by
  have hne : bytes (natText val) ≠ [] := fun heq => natText_ne_nil val (List.map_eq_nil_iff.mp heq)
  have hread := strtoul_digits hne (fun _ => isDigitByte_of_mem)
    (by rw [ofDigits_natText]; omega) tail
  rw [ofDigits_natText] at hread
  obtain ⟨d, ds, hd⟩ := List.exists_cons_of_ne_nil hne
  have hdigit : IsDigitByte d := isDigitByte_of_mem (hd ▸ List.mem_cons_self)
  have hx : ¬ d = byte 'x' := by
    rintro rfl
    exact absurd hdigit.2 (by decide)
  have hx' : ¬ (byte '#' :: (bytes (natText val) ++ byte ';' :: tail))[1]? = some (byte 'x') := by
    rw [hd]
    exact fun heq => hx (Option.some.inj heq)
  have hend : (byte '#' :: (bytes (natText val) ++ byte ';' :: tail))[
      1 + (bytes (natText val)).length]? = some (byte ';') := by
    rw [Nat.add_comm, List.getElem?_cons_succ, List.getElem?_append_right (Nat.le_refl _),
      Nat.sub_self]
    rfl
  have hsharp : (byte '#' :: (bytes (natText val) ++ byte ';' :: tail))[0]? = some (byte '#') := rfl
  rw [number, if_pos hsharp]
  simp only [hx', decide_false, Bool.false_eq_true, if_false, List.drop_succ_cons, List.drop_zero,
    hread, Option.bind_eq_bind, Option.bind_some, if_pos hend]
  rw [Nat.add_comm 1]
  rfl

/-! ## HTML -/

/-- A byte behind the first one of a character. -/
def Trailer (ch : U8) : Prop := 0x80 ≤ ch.toNat ∧ ch.toNat ≤ 0xBF

/-- The bytes of a character in shortest form. -/
inductive Shortest : List U8 → Prop
  | one {s₀ : U8} : s₀.toNat < 0x80 → Shortest [s₀]
  | two {s₀ s₁ : U8} : 0xC2 ≤ s₀.toNat → s₀.toNat < 0xE0 → Trailer s₁ → Shortest [s₀, s₁]
  | three {s₀ s₁ s₂ : U8} : 0xE0 ≤ s₀.toNat → s₀.toNat < 0xF0 → Trailer s₁ → Trailer s₂ →
      (s₀.toNat = 0xE0 → 0xA0 ≤ s₁.toNat) → Shortest [s₀, s₁, s₂]
  | four {s₀ s₁ s₂ s₃ : U8} : 0xF0 ≤ s₀.toNat → s₀.toNat < 0xF8 → Trailer s₁ → Trailer s₂ →
      Trailer s₃ → (s₀.toNat = 0xF0 → 0x90 ≤ s₁.toNat) → Shortest [s₀, s₁, s₂, s₃]

inductive Utf8 : List U8 → Prop
  | nil : Utf8 []
  | cons {seq rest : List U8} : Shortest seq → Utf8 rest → Utf8 (seq ++ rest)

theorem ofNat_eq (ch : U8) {n : Nat} (h : n = ch.toNat) : BitVec.ofNat 8 n = ch := by
  rw [h, BitVec.ofNat_toNat, BitVec.setWidth_eq]

theorem Trailer.div_eq (h : Trailer ch) : ch.toNat / 64 = 2 := by
  obtain ⟨hlo, hhi⟩ := h
  omega

variable {seq : List U8}

/-- **What the codec decodes from a character in shortest form, it encodes as the same bytes.** -/
theorem utf8_roundTrip (h : Shortest seq) (hlen : 2 ≤ seq.length) (tail : List U8) :
    ∃ val ≤ 0x1FFFFF, utf8Decode (seq ++ tail) = some (val, seq.length) ∧
      ∀ room, 4 ≤ room → utf8Encode room val = seq := by
  cases h with
  | one => exact absurd hlen (by simp)
  | @two s₀ s₁ hlo hhi h₁ =>
    have hdiv := h₁.div_eq
    have hlead : s₀.toNat / 32 = 6 := by omega
    refine ⟨s₀.toNat % 32 * 64 + s₁.toNat % 64, by omega, ?_, fun room hroom => ?_⟩
    · simp only [List.cons_append, utf8Decode]
      rw [if_neg (by omega), if_neg (not_not.mpr hdiv), if_pos hlead]
      rfl
    · rw [utf8Encode, if_neg (by omega), if_pos (by omega), ofNat_eq s₀ (by omega),
        ofNat_eq s₁ (by omega)]
  | @three s₀ s₁ s₂ hlo hhi h₁ h₂ hshort =>
    have hdiv₁ := h₁.div_eq
    have hdiv₂ := h₂.div_eq
    have hlead : s₀.toNat / 16 = 14 := by omega
    refine ⟨s₀.toNat % 16 * 4096 + s₁.toNat % 64 * 64 + s₂.toNat % 64, by omega, ?_,
      fun room hroom => ?_⟩
    · simp only [List.cons_append, utf8Decode]
      rw [if_neg (by omega), if_neg (not_not.mpr hdiv₁), if_neg (by omega),
        if_neg (not_not.mpr hdiv₂), if_pos hlead]
      rfl
    · rw [utf8Encode, if_neg (by omega), if_neg (by omega), if_pos (by omega),
        ofNat_eq s₀ (by omega), ofNat_eq s₁ (by omega), ofNat_eq s₂ (by omega)]
  | @four s₀ s₁ s₂ s₃ hlo hhi h₁ h₂ h₃ hshort =>
    have hdiv₁ := h₁.div_eq
    have hdiv₂ := h₂.div_eq
    have hdiv₃ := h₃.div_eq
    have hlead : s₀.toNat / 8 = 30 := by omega
    refine ⟨s₀.toNat % 8 * 262144 + s₁.toNat % 64 * 4096 + s₂.toNat % 64 * 64 + s₃.toNat % 64,
      by omega, ?_, fun room hroom => ?_⟩
    · simp only [List.cons_append, utf8Decode]
      rw [if_neg (by omega), if_neg (not_not.mpr hdiv₁), if_neg (by omega),
        if_neg (not_not.mpr hdiv₂), if_neg (by omega), if_neg (not_not.mpr hdiv₃), if_pos hlead]
      rfl
    · rw [utf8Encode, if_neg (by omega), if_neg (by omega), if_neg (by omega), if_pos (by omega),
        ofNat_eq s₀ (by omega), ofNat_eq s₁ (by omega), ofNat_eq s₂ (by omega),
        ofNat_eq s₃ (by omega)]

theorem Shortest.length_le (h : Shortest seq) : seq.length ≤ 4 := by
  cases h <;> simp

theorem Shortest.exists_cons (h : Shortest seq) :
    ∃ ch rest, seq = ch :: rest ∧ (ch.toNat < 128 ↔ rest = []) := by
  cases h with
  | one hlo => exact ⟨_, _, rfl, iff_of_true hlo rfl⟩
  | _ => exact ⟨_, _, rfl, iff_of_false (by omega) (List.cons_ne_nil _ _)⟩

theorem xmlStep_htmlEscape (h : xmlUnsafe ch = true) (tail : List U8) (room : Nat) :
    xmlStep (htmlEscape ch ++ tail) room = some ([ch], (htmlEscape ch).length) := by
  unfold htmlEscape
  split
  · rename_i heq
    rw [heq]
    rfl
  · exact xmlStep_xmlEscape h tail room

theorem htmlEscape_length (h : xmlUnsafe ch = true) :
    1 ≤ (htmlEscape ch).length ∧ (htmlEscape ch).length ≤ 6 := by
  unfold htmlEscape
  split
  · decide
  · exact xmlEscape_length h

theorem xmlStep_numericEscape (h : val ≤ 0x1FFFFF) (hne : seq ≠ [])
    (henc : ∀ room, 4 ≤ room → utf8Encode room val = seq) (tail : List U8)
    (hroom : 4 ≤ room) :
    xmlStep (numericEscape val ++ tail) room = some (seq, (numericEscape val).length) := by
  have hname : nameOf (byte '#' :: (bytes (natText val) ++ byte ';' :: tail)) xmlNames = none := rfl
  rw [numericEscape_eq h, List.cons_append, List.cons_append, List.append_assoc,
    List.singleton_append, xmlStep, if_neg (not_not.mpr rfl), hname]
  simp only [number_numericEscape h]
  rw [henc (room + 1) (by omega), if_neg hne]
  simp only [List.length_cons, List.length_append, List.length_nil]
  congr 2
  omega

/-- The unit of `html_encode` for a character is read back. -/
theorem htmlUnit_of_shortest (h : Shortest seq) (rest : List U8) :
    ∃ unit, htmlUnit (seq ++ rest) = (unit, seq.length) ∧ seq.length ≤ unit.length ∧
      unit.length ≤ 6 * seq.length ∧ ∀ tail room, unit.length ≤ room →
        xmlStep (unit ++ tail) room = some (seq, unit.length) := by
  obtain ⟨ch, more, rfl, hone⟩ := h.exists_cons
  rw [List.cons_append, htmlUnit]
  by_cases hlow : ch.toNat < 128
  · rw [if_pos hlow, hone.mp hlow]
    by_cases hunsafe : xmlUnsafe ch = true
    · rw [if_pos hunsafe]
      obtain ⟨hmin, hmax⟩ := htmlEscape_length hunsafe
      exact ⟨_, rfl, hmin, hmax, fun tail room _ => xmlStep_htmlEscape hunsafe tail room⟩
    · rw [if_neg hunsafe]
      exact ⟨_, rfl, Nat.le_refl 1, by simp, fun tail room _ =>
        xmlStep_of_ne (ne_amp_of_safe hunsafe) tail room⟩
  · have hmore := mt hone.mpr hlow
    have htwo : 2 ≤ (ch :: more).length := by
      rw [List.length_cons]
      exact Nat.succ_le_succ (List.length_pos_of_ne_nil hmore)
    have hfour := h.length_le
    obtain ⟨val, hval, hdecode, henc⟩ := utf8_roundTrip h htwo rest
    rw [if_neg hlow, ← List.cons_append, hdecode]
    have hlen : 4 ≤ (numericEscape val).length ∧ (numericEscape val).length ≤ 10 := by
      have hmin := List.length_pos_of_ne_nil (natText_ne_nil val)
      have hmax := natText_length_le hval
      rw [numericEscape_eq hval]
      simp only [List.length_cons, List.length_append, List.length_nil, bytes, List.length_map]
      omega
    refine ⟨_, rfl, by omega, by omega, fun tail room hroom => ?_⟩
    exact xmlStep_numericEscape hval (List.cons_ne_nil _ _) henc tail (by omega)

variable {s : List U8}

theorem Utf8.exists_shortest (h : Utf8 s) (hne : s ≠ []) :
    ∃ seq rest, s = seq ++ rest ∧ Shortest seq ∧ Utf8 rest := by
  cases h with
  | nil => exact absurd rfl hne
  | cons hseq hrest => exact ⟨_, _, rfl, hseq, hrest⟩

theorem html_decodes : Decodes Utf8 htmlUnit 6 xmlStep where
  takes s hs hne := by
    obtain ⟨seq, rest, rfl, hseq, -⟩ := hs.exists_shortest hne
    obtain ⟨unit, hunit, -⟩ := htmlUnit_of_shortest hseq rest
    obtain ⟨ch, more, rfl, -⟩ := hseq.exists_cons
    rw [hunit]
    simp
  longer s hs hne := by
    obtain ⟨seq, rest, rfl, hseq, -⟩ := hs.exists_shortest hne
    obtain ⟨unit, hunit, hlonger, -⟩ := htmlUnit_of_shortest hseq rest
    rw [hunit]
    exact hlonger
  worst s hs hne := by
    obtain ⟨seq, rest, rfl, hseq, -⟩ := hs.exists_shortest hne
    obtain ⟨unit, hunit, -, hworst, -⟩ := htmlUnit_of_shortest hseq rest
    rw [hunit]
    exact hworst
  stays s hs hne := by
    obtain ⟨seq, rest, rfl, hseq, hrest⟩ := hs.exists_shortest hne
    obtain ⟨unit, hunit, -⟩ := htmlUnit_of_shortest hseq rest
    rw [hunit, List.drop_left]
    exact hrest
  reads s hs hne tail room hroom := by
    obtain ⟨seq, rest, rfl, hseq, -⟩ := hs.exists_shortest hne
    obtain ⟨unit, hunit, -, -, hreads⟩ := htmlUnit_of_shortest hseq rest
    rw [hunit] at hroom ⊢
    rw [List.take_left]
    exact hreads tail room (Nat.le_of_add_right_le hroom)

theorem utf8Decode_le {val len : Nat} (h : utf8Decode s = some (val, len)) :
    0 < len ∧ len ≤ s.length := by
  unfold utf8Decode at h
  repeat' split at h
  all_goals cases h
  all_goals simp

theorem htmlUnit_takes : (unitTurn htmlUnit).Takes := by
  refine unitTurn_takes fun rest hne => ?_
  obtain ⟨ch, rest, rfl⟩ := List.exists_cons_of_ne_nil hne
  rw [htmlUnit]
  split
  · exact ⟨Nat.one_pos, Nat.le_add_left 1 _⟩
  · cases hdecode : utf8Decode (ch :: rest) with
    | none => exact ⟨Nat.one_pos, Nat.le_add_left 1 _⟩
    | some r => exact utf8Decode_le hdecode

/-! ## There and back -/

/-- **What a program made of a string, another one turns back into a front part of it**, and into
all of it if there was room for the worst case. The second one has room for what the first one
wrote. -/
def RoundTrips (encoder decoder : List U8 → Nat → Checked U8 Nat) (worst : Nat) (s : List U8) :
    Prop :=
  ∀ buffer, 1 ≤ buffer.length → ∃ len buffer₁,
    encoder s buffer.length buffer = .ok (len, buffer₁) ∧
      ∀ big, len < big.length → ∃ len' buffer₂,
        decoder (buffer₁.take len) big.length big = .ok (len', buffer₂) ∧
          buffer₂.take len' <+: s ∧
          (1 + worst * s.length ≤ buffer.length → buffer₂.take len' = s)

theorem roundTrips_of_decodes {encoder decoder : List U8 → Nat → Checked U8 Nat}
    {P : List U8 → Prop} {code : List U8 → List U8 × Nat} {turn : Turn U8 U8}
    {safe : List U8 → Nat → Prop} (hdecodes : Decodes P code worst turn)
    (hcode : (unitTurn code).Takes) (hturn : turn.Takes)
    (hsafe : ∀ rest room r, turn rest room = some r → safe rest room)
    (hencoder : ∀ source buffer, 1 ≤ buffer.length →
      Writes (encoder source buffer.length) buffer
        (transcode (unitTurn code) (buffer.length - 1) source))
    (hdecoder : ∀ source buffer, 1 ≤ buffer.length →
      Stays safe turn (buffer.length - 1) source →
      Writes (decoder source buffer.length) buffer (transcode turn (buffer.length - 1) source))
    (hs : P s) : RoundTrips encoder decoder worst s := by
  intro buffer hbuffer
  obtain ⟨hencode, -⟩ := hencoder s buffer hbuffer
  obtain ⟨k, hk, hall, hread⟩ := transcode_decodes hdecodes hcode hturn (buffer.length - 1) hs
  have hstays := staysFor_transcode hdecodes hcode hsafe hs
    (transcode (unitTurn code) (buffer.length - 1) s).length (buffer.length - 1)
  generalize transcode (unitTurn code) (buffer.length - 1) s = out at hencode hread hstays
  refine ⟨_, _, hencode, fun big hbig => ?_⟩
  obtain ⟨hdecode, -⟩ := hdecoder out big (by omega) (hstays _ (by omega))
  rw [hread _ (by omega)] at hdecode
  rw [take_overwrite]
  refine ⟨_, _, hdecode, ?_⟩
  rw [take_overwrite]
  refine ⟨List.take_prefix k s, fun hroom => ?_⟩
  rw [hall (by omega), List.take_length]

/-- `url_encode` escapes the plus sign, which `url_decode` takes for a space. -/
theorem urlPlain_of_safe (ch : U8) (h : urlUnsafe ch = false) :
    (if ch = byte '+' then byte ' ' else ch) = ch := by
  refine if_neg ?_
  rintro rfl
  cases h

/-- **Every encoder makes a round trip** with its decoder, whatever the characters to escape and the
escape character are. -/
theorem encoders_roundTrip (s illegal : List U8) (esc : U8) :
    RoundTrips urlEncode urlDecode 3 s ∧
      RoundTrips xmlEncode xmlDecode 6 s ∧
      RoundTrips (fun source buflen => encode source buflen illegal esc)
        (fun source buflen => decode source buflen esc) 3 s ∧
      RoundTrips (fun source buflen => escape source buflen illegal esc)
        (fun source buflen => unescape source buflen esc) 2 s ∧
      (Utf8 s → RoundTrips htmlEncode htmlDecode 6 s) := by
  refine ⟨?_, ?_, ?_, ?_, fun hs => ?_⟩
  · exact roundTrips_of_decodes (hex_decodes rfl urlPlain_of_safe) (firstUnit_takes _)
      (unhexStep_takes _ _) (fun _ _ _ _ => trivial) (fun _ _ h => urlEncode_writes h)
      (fun _ _ h _ => urlDecode_writes h) trivial
  · exact roundTrips_of_decodes xml_decodes (firstUnit_takes _) xmlStep_takes
      (fun _ _ _ => xmlEnds_of_xmlStep) (fun _ _ h => xmlEncode_writes h)
      (fun _ _ h hstays => xmlDecode_writes h hstays) trivial
  · exact roundTrips_of_decodes (hex_decodes (by simp) fun _ _ => rfl) (firstUnit_takes _)
      (unhexStep_takes _ _) (fun _ _ _ _ => trivial) (fun _ _ h => encode_writes h illegal esc)
      (fun _ _ h _ => decode_writes h esc) trivial
  · exact roundTrips_of_decodes (escape_decodes illegal esc) (firstUnit_takes _)
      (unescapeStep_takes esc) (fun _ _ _ _ => trivial) (fun _ _ h => escape_writes h illegal esc)
      (fun _ _ h _ => unescape_writes h esc) trivial
  · exact roundTrips_of_decodes html_decodes htmlUnit_takes xmlStep_takes
      (fun _ _ _ => xmlEnds_of_xmlStep) (fun _ _ h => htmlEncode_writes h)
      (fun _ _ h hstays => xmlDecode_writes h hstays) hs

theorem encoders_roundTrip_html :
    RoundTrips htmlEncode htmlDecode 6 [0xC3, 0xA9, byte '<'] := by
  have hone : Shortest [byte '<'] := .one (by decide)
  have htwo : Shortest [0xC3, 0xA9] := .two (by decide) (by decide) ⟨by decide, by decide⟩
  exact (encoders_roundTrip [0xC3, 0xA9, byte '<'] [] 0).2.2.2.2 (.cons htwo (.cons hone .nil))

end Libjingle.StringEncode
