import Libjingle.Base.Base64

/-!
# Encoding and decoding Base64 (`base/base64.cc`)

`EncodeFromArray` writes four characters for three bytes, with pads at the end.

## Results

* `white_decodes_iff`: an encoding with white space in it is decoded to what was encoded, unless the
  text ends with white space and the flags require a pad that it lacks.
* `strict_codec`: strictly, exactly the encodings are decoded, each to what was encoded.
-/

namespace Libjingle.Base64

open Lib

def base64Table : Text :=
  "ABCDEFGHIJKLMNOPQRSTUVWXYZabcdefghijklmnopqrstuvwxyz0123456789+/".toList

def tableChar (n : U8) : Char := base64Table.getD n.toNat '='

def kPad : Char := '='

/-- What it writes, with the characters of `base64Table`. -/
def encodeFromArray : List U8 → Text
  | [] => []
  | [a] => [tableChar (a >>> 2 &&& 0x3f), tableChar (a <<< 4 &&& 0x3f), kPad, kPad]
  | [a, b] =>
    [tableChar (a >>> 2 &&& 0x3f),
      tableChar ((a <<< 4 &&& (0x3f : U8)) ||| (b >>> 4 &&& 0x0f)),
      tableChar (b <<< 2 &&& 0x3f), kPad]
  | a :: b :: c :: data =>
    tableChar (a >>> 2 &&& 0x3f) ::
      tableChar ((a <<< 4 &&& (0x3f : U8)) ||| (b >>> 4 &&& 0x0f)) ::
        tableChar ((b <<< 2 &&& (0x3f : U8)) ||| (c >>> 6 &&& 0x03)) :: tableChar (c &&& 0x3f) ::
          encodeFromArray data

/-! ## The table -/

variable {n : U8}

theorem decodeTable_tableChar (h : n < 64) : decodeTable (tableChar n) = .index n := by
  have hall : ∀ i : Fin 64,
      decodeTable (tableChar (BitVec.ofNat 8 i)) = .index (BitVec.ofNat 8 i) := by decide +kernel
  have hn := hall ⟨n.toNat, h⟩
  rwa [BitVec.ofNat_toNat, BitVec.setWidth_eq] at hn

theorem exists_ofNat {c lo hi : Char} (h : lo ≤ c ∧ c ≤ hi) :
    ∃ i : Fin (hi.toNat - lo.toNat + 1), c = Char.ofNat (lo.toNat + i) := by
  have hlo : lo.toNat ≤ c.toNat := h.1
  have hhi : c.toNat ≤ hi.toNat := h.2
  refine ⟨⟨c.toNat - lo.toNat, by omega⟩, ?_⟩
  rw [Nat.add_sub_cancel' hlo, Char.ofNat_toNat]

variable {c : Char}

theorem eq_tableChar (h : decodeTable c = .index n) : n < 64 ∧ c = tableChar n := by
  unfold decodeTable at h
  split at h
  · rename_i hc
    obtain ⟨i, rfl⟩ := exists_ofNat hc
    cases h
    revert i
    decide +kernel
  split at h
  · rename_i hc
    obtain ⟨i, rfl⟩ := exists_ofNat hc
    cases h
    revert i
    decide +kernel
  split at h
  · rename_i hc
    obtain ⟨i, rfl⟩ := exists_ofNat hc
    cases h
    revert i
    decide +kernel
  split at h
  · rename_i hc
    cases h
    exact ⟨by decide, hc⟩
  split at h
  · rename_i hc
    cases h
    exact ⟨by decide, hc⟩
  split at h
  · cases h
  · split at h
    · cases h
    · cases h

theorem decodeTable_space_iff : decodeTable c = .space ↔ isSpace c = true := by
  constructor
  · intro h
    by_contra hc
    unfold decodeTable at h
    rw [if_neg hc] at h
    repeat' split at h
    all_goals cases h
  · intro h
    have hall : ∀ i : Fin 33, isSpace (Char.ofNat i) = true →
        decodeTable (Char.ofNat i) = .space := by decide +kernel
    have hlt : c.toNat < 33 := by
      simp only [isSpace, Bool.or_eq_true, Bool.and_eq_true, decide_eq_true_eq] at h
      omega
    have hc := hall ⟨c.toNat, hlt⟩
    rw [Char.ofNat_toNat] at hc
    exact hc h

/-! ## Bits -/

theorem byte_ext {a b : U8} (h₀ : a[0] = b[0]) (h₁ : a[1] = b[1]) (h₂ : a[2] = b[2])
    (h₃ : a[3] = b[3]) (h₄ : a[4] = b[4]) (h₅ : a[5] = b[5]) (h₆ : a[6] = b[6])
    (h₇ : a[7] = b[7]) : a = b := by
  ext i hi
  match i, hi with
  | 0, _ => exact h₀
  | 1, _ => exact h₁
  | 2, _ => exact h₂
  | 3, _ => exact h₃
  | 4, _ => exact h₄
  | 5, _ => exact h₅
  | 6, _ => exact h₆
  | 7, _ => exact h₇

theorem index_bits (h : n < 64) : n[6] = false ∧ n[7] = false := by
  have hall : ∀ i : Fin 64, (BitVec.ofNat 8 i)[6] = false ∧ (BitVec.ofNat 8 i)[7] = false := by
    decide +kernel
  have hn := hall ⟨n.toNat, h⟩
  rwa [BitVec.ofNat_toNat, BitVec.setWidth_eq] at hn

theorem and_index (n : U8) : n &&& 0x3f < 64 := by
  have hle : n.toNat &&& 0x3f ≤ 0x3f := Nat.and_le_right
  rw [BitVec.lt_def, BitVec.toNat_and]
  exact Nat.lt_succ_of_le hle

theorem or_index {m n : U8} (hm : m < 64) (hn : n < 64) : m ||| n < 64 := by
  rw [BitVec.lt_def] at hm hn ⊢
  rw [BitVec.toNat_or]
  exact Nat.or_lt_two_pow (n := 6) hm hn

theorem and_nibble (n : U8) : n &&& 0x0f < 64 := by
  have hle : n.toNat &&& 0x0f ≤ 0x0f := Nat.and_le_right
  rw [BitVec.lt_def, BitVec.toNat_and]
  exact Nat.lt_of_le_of_lt hle (by decide)

theorem and_crumb (n : U8) : n &&& 0x03 < 64 := by
  have hle : n.toNat &&& 0x03 ≤ 0x03 := Nat.and_le_right
  rw [BitVec.lt_def, BitVec.toNat_and]
  exact Nat.lt_of_le_of_lt hle (by decide)

theorem quantumBytes_one (a : U8) :
    quantumBytes [a >>> 2 &&& 0x3f, a <<< 4 &&& 0x3f] = ([a], 0) := by
  have hbyte : (a >>> 2 &&& 0x3f) <<< 2 ||| ((a <<< 4 &&& 0x3f) >>> 4 &&& 3) = a := by
    apply byte_ext <;> simp
  have hrest : (a <<< 4 &&& 0x3f) <<< 4 &&& 0xf0 = 0 := by
    apply byte_ext <;> simp
  rw [quantumBytes, hbyte, hrest]

theorem quantumBytes_two (a b : U8) :
    quantumBytes [a >>> 2 &&& (0x3f : U8), (a <<< 4 &&& (0x3f : U8)) ||| (b >>> 4 &&& (0x0f : U8)),
      b <<< 2 &&& (0x3f : U8)] = ([a, b], 0) := by
  have hfirst : (a >>> 2 &&& 0x3f) <<< 2 |||
      (((a <<< 4 &&& (0x3f : U8)) ||| (b >>> 4 &&& 0x0f)) >>> 4 &&& 3) = a := by
    apply byte_ext <;> simp
  have hsecond : (((a <<< 4 &&& (0x3f : U8)) ||| (b >>> 4 &&& 0x0f)) <<< 4 &&& 0xf0) |||
      ((b <<< 2 &&& 0x3f) >>> 2 &&& 0xf) = b := by
    apply byte_ext <;> simp
  have hrest : (b <<< 2 &&& 0x3f) <<< 6 &&& 0xc0 = 0 := by
    apply byte_ext <;> simp
  rw [quantumBytes, hfirst, hsecond, hrest]

theorem quantumBytes_three (a b c : U8) :
    quantumBytes [a >>> 2 &&& (0x3f : U8), (a <<< 4 &&& (0x3f : U8)) ||| (b >>> 4 &&& (0x0f : U8)),
      (b <<< 2 &&& (0x3f : U8)) ||| (c >>> 6 &&& (0x03 : U8)), c &&& (0x3f : U8)] =
        ([a, b, c], 0) := by
  have hfirst : (a >>> 2 &&& 0x3f) <<< 2 |||
      (((a <<< 4 &&& (0x3f : U8)) ||| (b >>> 4 &&& 0x0f)) >>> 4 &&& 3) = a := by
    apply byte_ext <;> simp
  have hsecond : (((a <<< 4 &&& (0x3f : U8)) ||| (b >>> 4 &&& 0x0f)) <<< 4 &&& 0xf0) |||
      (((b <<< 2 &&& (0x3f : U8)) ||| (c >>> 6 &&& 0x03)) >>> 2 &&& 0xf) = b := by
    apply byte_ext <;> simp
  have hthird : (((b <<< 2 &&& (0x3f : U8)) ||| (c >>> 6 &&& 0x03)) <<< 6 &&& 0xc0) |||
      (c &&& 0x3f) = c := by
    apply byte_ext <;> simp
  rw [quantumBytes, hfirst, hsecond, hthird]

theorem encode_four {n₁ n₂ n₃ n₄ : U8} (h₁ : n₁ < 64) (h₂ : n₂ < 64) (h₃ : n₃ < 64) (h₄ : n₄ < 64)
    (data : List U8) : encodeFromArray ((quantumBytes [n₁, n₂, n₃, n₄]).1 ++ data) =
      tableChar n₁ :: tableChar n₂ :: tableChar n₃ :: tableChar n₄ :: encodeFromArray data := by
  obtain ⟨h₁6, h₁7⟩ := index_bits h₁
  obtain ⟨h₂6, h₂7⟩ := index_bits h₂
  obtain ⟨h₃6, h₃7⟩ := index_bits h₃
  obtain ⟨h₄6, h₄7⟩ := index_bits h₄
  have hfirst : (n₁ <<< 2 ||| (n₂ >>> 4 &&& 3)) >>> 2 &&& 0x3f = n₁ := by
    apply byte_ext <;> simp [h₁6, h₁7, h₂6, h₂7]
  have hsecond : ((n₁ <<< 2 ||| (n₂ >>> 4 &&& 3)) <<< 4 &&& (0x3f : U8)) |||
      (((n₂ <<< 4 &&& 0xf0) ||| (n₃ >>> 2 &&& 0xf)) >>> 4 &&& 0x0f) = n₂ := by
    apply byte_ext <;> simp [h₂6, h₂7]
  have hthird : (((n₂ <<< 4 &&& 0xf0) ||| (n₃ >>> 2 &&& 0xf)) <<< 2 &&& (0x3f : U8)) |||
      (((n₃ <<< 6 &&& 0xc0) ||| n₄) >>> 6 &&& 0x03) = n₃ := by
    apply byte_ext <;> simp [h₃6, h₃7, h₄6, h₄7]
  have hfourth : ((n₃ <<< 6 &&& 0xc0) ||| n₄) &&& 0x3f = n₄ := by
    apply byte_ext <;> simp [h₄6, h₄7]
  show encodeFromArray (_ :: _ :: _ :: data) = _
  rw [encodeFromArray, hfirst, hsecond, hthird, hfourth]

variable {n₁ n₂ : U8}

theorem encode_two (h₁ : n₁ < 64) (h₂ : n₂ < 64) (hrest : (quantumBytes [n₁, n₂]).2 = 0) :
    encodeFromArray (quantumBytes [n₁, n₂]).1 = [tableChar n₁, tableChar n₂, kPad, kPad] := by
  obtain ⟨h₁6, h₁7⟩ := index_bits h₁
  obtain ⟨h₂6, h₂7⟩ := index_bits h₂
  have hbit : ∀ (i : Nat) (hi : i < 8), (n₂ <<< 4 &&& 0xf0)[i] = false := fun i hi => by
    have hzero : n₂ <<< 4 &&& 0xf0 = 0 := hrest
    simp only [hzero]
    exact BitVec.getElem_zero hi
  have h₂0 : n₂[0] = false := by simpa using hbit 4 (by decide)
  have h₂1 : n₂[1] = false := by simpa using hbit 5 (by decide)
  have h₂2 : n₂[2] = false := by simpa using hbit 6 (by decide)
  have h₂3 : n₂[3] = false := by simpa using hbit 7 (by decide)
  have hfirst : (n₁ <<< 2 ||| (n₂ >>> 4 &&& 3)) >>> 2 &&& 0x3f = n₁ := by
    apply byte_ext <;> simp [h₁6, h₁7, h₂6, h₂7]
  have hsecond : (n₁ <<< 2 ||| (n₂ >>> 4 &&& 3)) <<< 4 &&& 0x3f = n₂ := by
    apply byte_ext <;> simp [h₂0, h₂1, h₂2, h₂3, h₂6, h₂7]
  rw [quantumBytes, encodeFromArray, hfirst, hsecond]

variable {n₃ : U8}

theorem encode_three (h₁ : n₁ < 64) (h₂ : n₂ < 64) (h₃ : n₃ < 64)
    (hrest : (quantumBytes [n₁, n₂, n₃]).2 = 0) :
    encodeFromArray (quantumBytes [n₁, n₂, n₃]).1 =
      [tableChar n₁, tableChar n₂, tableChar n₃, kPad] := by
  obtain ⟨h₁6, h₁7⟩ := index_bits h₁
  obtain ⟨h₂6, h₂7⟩ := index_bits h₂
  obtain ⟨h₃6, h₃7⟩ := index_bits h₃
  have hbit : ∀ (i : Nat) (hi : i < 8), (n₃ <<< 6 &&& 0xc0)[i] = false := fun i hi => by
    have hzero : n₃ <<< 6 &&& 0xc0 = 0 := hrest
    simp only [hzero]
    exact BitVec.getElem_zero hi
  have h₃0 : n₃[0] = false := by simpa using hbit 6 (by decide)
  have h₃1 : n₃[1] = false := by simpa using hbit 7 (by decide)
  have hfirst : (n₁ <<< 2 ||| (n₂ >>> 4 &&& 3)) >>> 2 &&& 0x3f = n₁ := by
    apply byte_ext <;> simp [h₁6, h₁7, h₂6, h₂7]
  have hsecond : ((n₁ <<< 2 ||| (n₂ >>> 4 &&& 3)) <<< 4 &&& (0x3f : U8)) |||
      (((n₂ <<< 4 &&& 0xf0) ||| (n₃ >>> 2 &&& 0xf)) >>> 4 &&& 0x0f) = n₂ := by
    apply byte_ext <;> simp [h₂6, h₂7]
  have hthird : ((n₂ <<< 4 &&& 0xf0) ||| (n₃ >>> 2 &&& 0xf)) <<< 2 &&& 0x3f = n₃ := by
    apply byte_ext <;> simp [h₃0, h₃1, h₃6, h₃7]
  rw [quantumBytes, encodeFromArray, hfirst, hsecond, hthird]

/-! ## White space -/

/-- A text without its white space. -/
def squeeze (s : Text) : Text := s.filter fun c => !isSpace c

def endsBlank (s : Text) : Bool := s.getLast?.any isSpace

/-- The text has white space only where the flags tolerate it. -/
def Tolerated (parse : ParseFlag) (s : Text) : Prop :=
  parse = .white ∨ (parse = .strict ∧ squeeze s = s)

variable {parse : ParseFlag}

variable {q : Quantum}

theorem quantumLoop_space (hc : isSpace c = true) (data : Text) (hlen : q.bytes.length < 4) :
    quantumLoop .white false (c :: data) q = quantumLoop .white false data q := by
  rw [quantumLoop, if_neg (by omega), decodeTable_space_iff.mpr hc]
  rfl

theorem squeeze_cons_space (hc : isSpace c = true) (s : Text) :
    squeeze (c :: s) = squeeze s := List.filter_cons_of_neg (by simp [hc])

theorem squeeze_cons (hc : isSpace c = false) (s : Text) :
    squeeze (c :: s) = c :: squeeze s := List.filter_cons_of_pos (by simp [hc])

variable {s : Text}

theorem Tolerated.tail (h : Tolerated parse (c :: s)) : Tolerated parse s := by
  rcases h with h | ⟨h, hs⟩
  · exact .inl h
  · refine .inr ⟨h, ?_⟩
    cases hc : isSpace c with
    | true =>
      rw [squeeze_cons_space hc] at hs
      have hle : (squeeze s).length ≤ s.length := List.length_filter_le _ _
      rw [hs, List.length_cons] at hle
      omega
    | false =>
      rw [squeeze_cons hc] at hs
      exact (List.cons.inj hs).2

theorem Tolerated.white (h : Tolerated parse (c :: s))
    (hc : isSpace c = true) : parse = .white := by
  rcases h with h | ⟨-, hs⟩
  · exact h
  · rw [squeeze_cons_space hc] at hs
    have hle : (squeeze s).length ≤ s.length := List.length_filter_le _ _
    rw [hs, List.length_cons] at hle
    omega

theorem endsBlank_cons {c d : Char} (s : Text) : endsBlank (c :: d :: s) = endsBlank (d :: s) := by
  rw [endsBlank, endsBlank, List.getLast?_cons_cons]

variable {t : Text}

/-- **White space in front of a character is skipped.** -/
theorem quantumLoop_skip (hs : squeeze s = c :: t) (h : Tolerated parse s) :
    ∃ s', squeeze s' = t ∧ Tolerated parse s' ∧ endsBlank s = endsBlank s' ∧
      s'.length < s.length ∧ ∀ q : Quantum, q.bytes.length < 4 →
        quantumLoop parse false s q = quantumLoop parse false (c :: s') q := by
  induction s with
  | nil => cases hs
  | cons d s ih =>
    cases hd : isSpace d with
    | true =>
      have hwhite := h.white hd
      rw [squeeze_cons_space hd] at hs
      obtain ⟨s', hs', htol, hblank, hlt, hloop⟩ := ih hs h.tail
      refine ⟨s', hs', htol, ?_, by rw [List.length_cons]; omega, fun q hq => ?_⟩
      · obtain ⟨e, s, rfl⟩ := List.exists_cons_of_length_pos (Nat.zero_lt_of_lt hlt)
        rw [endsBlank_cons, hblank]
      · subst hwhite
        rw [quantumLoop_space hd s hq, hloop q hq]
    | false =>
      rw [squeeze_cons hd] at hs
      obtain ⟨rfl, rfl⟩ := List.cons.inj hs
      refine ⟨s, rfl, h.tail, ?_, by rw [List.length_cons]; omega, fun _ _ => rfl⟩
      cases s with
      | nil => simp [endsBlank, hd]
      | cons e s => exact endsBlank_cons s

theorem quantumLoop_blank (hs : squeeze s = []) (h : Tolerated parse s)
    (hq : q.bytes.length < 4) : quantumLoop parse false s q = (q, []) := by
  induction s with
  | nil => rfl
  | cons d s ih =>
    cases hd : isSpace d with
    | true =>
      have hwhite := h.white hd
      rw [squeeze_cons_space hd] at hs
      have hrest := ih hs h.tail
      subst hwhite
      rw [quantumLoop_space hd s hq, hrest]
    | false =>
      rw [squeeze_cons hd] at hs
      cases hs

theorem endsBlank_of_squeeze (hs : squeeze s = []) : endsBlank s = !s.isEmpty := by
  cases hlast : s.getLast? with
  | none =>
    rw [List.getLast?_eq_none_iff.mp hlast]
    rfl
  | some c =>
    have hmem := List.mem_of_getLast? hlast
    have hspace := List.filter_eq_nil_iff.mp hs c hmem
    have hne : s ≠ [] := List.ne_nil_of_mem hmem
    rw [endsBlank, hlast, Option.any_some, List.isEmpty_eq_false_iff.mpr hne]
    simpa using hspace

/-! ## Quanta -/

/-- What is left of a text when the front of its characters has been read. -/
structure Left (parse : ParseFlag) (s s' t : Text) : Prop where
  squeeze_eq : squeeze s' = t
  tolerated : Tolerated parse s'
  endsBlank_eq : endsBlank s = endsBlank s'
  shorter : s'.length < s.length

theorem Left.trans {s s' s'' t t' : Text} (h : Left parse s s' t) (h' : Left parse s' s'' t') :
    Left parse s s'' t' :=
  ⟨h'.squeeze_eq, h'.tolerated, h.endsBlank_eq.trans h'.endsBlank_eq, h'.shorter.trans h.shorter⟩

theorem quantumLoop_read (hn : n < 64) (hs : squeeze s = tableChar n :: t)
    (h : Tolerated parse s) : ∃ s', Left parse s s' t ∧ ∀ bytes : List U8, bytes.length < 4 →
      quantumLoop parse false s ⟨bytes, 0, []⟩ =
        quantumLoop parse false s' ⟨bytes ++ [n], 0, []⟩ := by
  obtain ⟨s', hs', htol, hblank, hlt, hloop⟩ := quantumLoop_skip hs h
  refine ⟨s', ⟨hs', htol, hblank, hlt⟩, fun bytes hbytes => ?_⟩
  rw [hloop _ hbytes, quantumLoop_index (decodeTable_tableChar hn) hbytes]

theorem quantumLoop_pad (hs : squeeze s = kPad :: t) (h : Tolerated parse s) :
    ∃ s', Left parse s s' t ∧ ∀ q : Quantum, 2 ≤ q.bytes.length → q.bytes.length + q.padLen < 4 →
      ∃ padStart, quantumLoop parse false s q =
        quantumLoop parse false s' ⟨q.bytes, q.padLen + 1, padStart⟩ := by
  obtain ⟨s', hs', htol, hblank, hlt, hloop⟩ := quantumLoop_skip hs h
  refine ⟨s', ⟨hs', htol, hblank, hlt⟩, fun q htwo hfour =>
    ⟨if q.padLen = 0 then kPad :: s' else q.padStart, ?_⟩⟩
  have hpad : decodeTable kPad = .pad := by decide
  have hnot : ¬ ((false : Bool) = true ∨ q.bytes.length < 2 ∨ 4 ≤ q.bytes.length + q.padLen) := by
    rintro (h | h | h)
    · cases h
    · omega
    · omega
  rw [hloop q (by omega), quantumLoop, if_neg (by omega), hpad]
  dsimp only
  rw [if_neg hnot]

theorem getNextQuantum_full {n₁ n₂ n₃ n₄ : U8} (h₁ : n₁ < 64) (h₂ : n₂ < 64)
    (h₃ : n₃ < 64) (h₄ : n₄ < 64)
    (hs : squeeze s = tableChar n₁ :: tableChar n₂ :: tableChar n₃ :: tableChar n₄ :: t)
    (h : Tolerated parse s) : ∃ s', Left parse s s' t ∧
      getNextQuantum parse false s = ([n₁, n₂, n₃, n₄], true, s') := by
  obtain ⟨s₁, hleft₁, hloop₁⟩ := quantumLoop_read h₁ hs h
  obtain ⟨s₂, hleft₂, hloop₂⟩ := quantumLoop_read h₂ hleft₁.squeeze_eq hleft₁.tolerated
  obtain ⟨s₃, hleft₃, hloop₃⟩ := quantumLoop_read h₃ hleft₂.squeeze_eq hleft₂.tolerated
  obtain ⟨s₄, hleft₄, hloop₄⟩ := quantumLoop_read h₄ hleft₃.squeeze_eq hleft₃.tolerated
  refine ⟨s₄, ((hleft₁.trans hleft₂).trans hleft₃).trans hleft₄, ?_⟩
  have hloop : quantumLoop parse false s ⟨[], 0, []⟩ = (⟨[n₁, n₂, n₃, n₄], 0, []⟩, s₄) := by
    rw [hloop₁ [] (by simp), hloop₂ _ (by simp), hloop₃ _ (by simp), hloop₄ _ (by simp)]
    exact quantumLoop_full s₄ (by simp)
  rw [getNextQuantum, hloop]
  rfl

theorem getNextQuantum_two (h₁ : n₁ < 64) (h₂ : n₂ < 64)
    (hs : squeeze s = [tableChar n₁, tableChar n₂, kPad, kPad]) (h : Tolerated parse s) :
    getNextQuantum parse false s = ([n₁, n₂], true, []) := by
  obtain ⟨s₁, hleft₁, hloop₁⟩ := quantumLoop_read h₁ hs h
  obtain ⟨s₂, hleft₂, hloop₂⟩ := quantumLoop_read h₂ hleft₁.squeeze_eq hleft₁.tolerated
  obtain ⟨s₃, hleft₃, hloop₃⟩ := quantumLoop_pad hleft₂.squeeze_eq hleft₂.tolerated
  obtain ⟨s₄, hleft₄, hloop₄⟩ := quantumLoop_pad hleft₃.squeeze_eq hleft₃.tolerated
  obtain ⟨p₃, hpad₃⟩ := hloop₃ ⟨[n₁, n₂], 0, []⟩ (by simp) (by simp)
  obtain ⟨p₄, hpad₄⟩ := hloop₄ ⟨[n₁, n₂], 1, p₃⟩ (by simp) (by simp)
  have hloop : quantumLoop parse false s ⟨[], 0, []⟩ = (⟨[n₁, n₂], 2, p₄⟩, []) := by
    rw [hloop₁ [] (by simp), hloop₂ _ (by simp)]
    exact (hpad₃.trans hpad₄).trans
      (quantumLoop_blank hleft₄.squeeze_eq hleft₄.tolerated (by simp))
  rw [getNextQuantum, hloop]
  rfl

theorem getNextQuantum_three (h₁ : n₁ < 64) (h₂ : n₂ < 64) (h₃ : n₃ < 64)
    (hs : squeeze s = [tableChar n₁, tableChar n₂, tableChar n₃, kPad]) (h : Tolerated parse s) :
    getNextQuantum parse false s = ([n₁, n₂, n₃], true, []) := by
  obtain ⟨s₁, hleft₁, hloop₁⟩ := quantumLoop_read h₁ hs h
  obtain ⟨s₂, hleft₂, hloop₂⟩ := quantumLoop_read h₂ hleft₁.squeeze_eq hleft₁.tolerated
  obtain ⟨s₃, hleft₃, hloop₃⟩ := quantumLoop_read h₃ hleft₂.squeeze_eq hleft₂.tolerated
  obtain ⟨s₄, hleft₄, hloop₄⟩ := quantumLoop_pad hleft₃.squeeze_eq hleft₃.tolerated
  obtain ⟨p₄, hpad₄⟩ := hloop₄ ⟨[n₁, n₂, n₃], 0, []⟩ (by simp) (by simp)
  have hloop : quantumLoop parse false s ⟨[], 0, []⟩ = (⟨[n₁, n₂, n₃], 1, p₄⟩, []) := by
    rw [hloop₁ [] (by simp), hloop₂ _ (by simp), hloop₃ _ (by simp)]
    exact hpad₄.trans (quantumLoop_blank hleft₄.squeeze_eq hleft₄.tolerated (by simp))
  rw [getNextQuantum, hloop]
  rfl

/-! ## Decoding what was encoded -/

/-- The flags require a pad that a text of full quanta does not have. -/
def missesPad (flags : DecodeFlags) (data : List U8) (s : Text) : Bool :=
  flags.pad = .yes && data.length % 3 = 0 && endsBlank s

theorem decodeLoop_of_quantum {flags : DecodeFlags} {s : Text} (hs : s ≠ []) {bytes : List U8}
    {padded : Bool} {rest : Text}
    (hquantum : getNextQuantum flags.parse (flags.pad = .no) s = (bytes, padded, rest)) (fuel : Nat)
    (result : List U8) : decodeLoop flags (fuel + 1) s result =
      if bytes.length < 4 then
        (!(flags.term ≠ .any && (quantumBytes bytes).2 ≠ 0) && !(flags.pad = .yes && !padded),
          result ++ (quantumBytes bytes).1, rest)
      else decodeLoop flags fuel rest (result ++ (quantumBytes bytes).1) := by
  rw [decodeLoop, hquantum]
  exact hs

theorem decodeLoop_nil (flags : DecodeFlags) (fuel : Nat) (result : List U8) :
    decodeLoop flags fuel [] result = (true, result, []) := by
  cases fuel <;> rfl

theorem ne_nil_of_squeeze (hs : squeeze s = c :: t) : s ≠ [] := by
  rintro rfl
  cases hs

variable {flags : DecodeFlags} {data : List U8} {fuel : Nat}

/-- **Decoding an encoding with white space in it** takes all of it. -/
theorem decodeLoop_spaced (hpad : flags.pad ≠ .no)
    (hs : squeeze s = encodeFromArray data) (h : Tolerated flags.parse s)
    (hfuel : s.length ≤ fuel) (result : List U8) :
    decodeLoop flags fuel s result = (!missesPad flags data s, result ++ data, []) := by
  have hillegal : decide (flags.pad = .no) = false := decide_eq_false hpad
  induction data using encodeFromArray.induct generalizing s fuel result with
  | case1 =>
    by_cases hempty : s = []
    · subst hempty
      rw [decodeLoop_nil, missesPad, List.append_nil]
      simp [endsBlank]
    · obtain ⟨fuel, rfl⟩ : ∃ n, fuel = n + 1 :=
        ⟨fuel - 1, by have := List.length_pos_of_ne_nil hempty; omega⟩
      have hquantum : getNextQuantum flags.parse (flags.pad = .no) s = ([], false, []) := by
        rw [hillegal, getNextQuantum, quantumLoop_blank hs h (by simp)]
        rfl
      rw [decodeLoop_of_quantum hempty hquantum, missesPad, endsBlank_of_squeeze hs]
      simp [quantumBytes, hempty]
  | case2 a =>
    have hempty := ne_nil_of_squeeze hs
    obtain ⟨fuel, rfl⟩ : ∃ n, fuel = n + 1 :=
      ⟨fuel - 1, by have := List.length_pos_of_ne_nil hempty; omega⟩
    have hquantum := getNextQuantum_two (and_index _) (and_index _) hs h
    rw [← hillegal] at hquantum
    rw [decodeLoop_of_quantum hempty hquantum, quantumBytes_one, missesPad]
    simp
  | case3 a b =>
    have hempty := ne_nil_of_squeeze hs
    obtain ⟨fuel, rfl⟩ : ∃ n, fuel = n + 1 :=
      ⟨fuel - 1, by have := List.length_pos_of_ne_nil hempty; omega⟩
    have hquantum := getNextQuantum_three (and_index _) (or_index (and_index _) (and_nibble _))
      (and_index _) hs h
    rw [← hillegal] at hquantum
    rw [decodeLoop_of_quantum hempty hquantum, quantumBytes_two, missesPad]
    simp
  | case4 a b c data ih =>
    have hempty := ne_nil_of_squeeze hs
    obtain ⟨fuel, rfl⟩ : ∃ n, fuel = n + 1 :=
      ⟨fuel - 1, by have := List.length_pos_of_ne_nil hempty; omega⟩
    obtain ⟨s', hleft, hquantum⟩ := getNextQuantum_full (and_index _)
      (or_index (and_index _) (and_nibble _)) (or_index (and_index _) (and_crumb _)) (and_index _)
      hs h
    rw [← hillegal] at hquantum
    have hshorter := hleft.shorter
    have hmisses : missesPad flags (a :: b :: c :: data) s = missesPad flags data s' := by
      have hmod : (a :: b :: c :: data).length % 3 = data.length % 3 := by
        simp only [List.length_cons]
        omega
      rw [missesPad, missesPad, hmod, hleft.endsBlank_eq]
    rw [decodeLoop_of_quantum hempty hquantum, quantumBytes_three, if_neg (by simp),
      ih hleft.squeeze_eq hleft.tolerated (by omega), hmisses, List.append_assoc]
    rfl

/-- **White space is tolerated** unless it takes the place of a pad that is required. -/
theorem decodeFromArray_spaced (hpad : flags.pad ≠ .no)
    (hs : squeeze s = encodeFromArray data) (h : Tolerated flags.parse s) :
    decodeFromArray flags s = (!missesPad flags data s, data, []) := by
  rw [decodeFromArray, decodeLoop_spaced hpad hs h (Nat.le_refl _)]
  simp

/-- **An encoding with white space anywhere in it** is decoded to what was encoded, exactly if it
does not end with white space where a pad is required and the encoding has none. -/
theorem white_decodes_iff {flags : DecodeFlags} (hparse : flags.parse = .white)
    (hpad : flags.pad ≠ .no) {x : List U8} {s : Text} (hs : squeeze s = encodeFromArray x) :
    ((decodeFromArray flags s).1 = true ∧ (decodeFromArray flags s).2.1 = x) ↔
      ¬ (flags.pad = .yes ∧ x.length % 3 = 0 ∧ endsBlank s = true) := by
  rw [decodeFromArray_spaced hpad hs (.inl hparse)]
  simp [missesPad, imp_iff_not_or, or_assoc]

/-- `"YW Jj"` is taken with the flags that do not take `"YWJj "`. -/
theorem white_decodes_inside :
    (decodeFromArray ⟨.white, .yes, .buffer⟩ "YW Jj".toList).1 = true ∧
      (decodeFromArray ⟨.white, .yes, .buffer⟩ "YW Jj".toList).2.1 = [97, 98, 99] :=
  (white_decodes_iff (x := [97, 98, 99]) rfl (by decide) (by decide)).mpr (by decide)

theorem blank_after_quanta :
    ¬ ∀ (x : List U8) (s : Text) (pad : PadFlag), squeeze s = encodeFromArray x → pad ≠ .no →
      (decodeFromArray ⟨.white, pad, .buffer⟩ s).1 = true ∧
        (decodeFromArray ⟨.white, pad, .buffer⟩ s).2.1 = x := by
  intro h
  have hblank := (h [97, 98, 99] "YWJj ".toList .yes (by decide) (by decide)).1
  exact absurd hblank (by decide)

/-! ## Decoding strictly -/

/-- The pads of a quantum stand behind two of its characters at least. -/
structure Quantum.Fits (q : Quantum) : Prop where
  length_le : q.bytes.length + q.padLen ≤ 4
  two_le : 0 < q.padLen → 2 ≤ q.bytes.length

/-- From `data` the quantum takes the characters of `ns` and `k` pads, and comes to `r`. -/
structure Taken (q : Quantum) (data : Text) (ns : List U8) (k : Nat) (r : Quantum × Text) :
    Prop where
  data_eq : data = ns.map tableChar ++ (List.replicate k kPad ++ r.2)
  small : ∀ n ∈ ns, n < 64
  unpadded : 0 < q.padLen → ns = []
  bytes_eq : r.1.bytes = q.bytes ++ ns
  padLen_eq : r.1.padLen = q.padLen + k
  fits : r.1.Fits

theorem Taken.stop (hq : q.Fits) (data : Text) : Taken q data [] 0 (q, data) :=
  ⟨rfl, by simp, fun _ => rfl, (List.append_nil _).symm, rfl, hq⟩

theorem eq_pad (h : decodeTable c = .pad) : c = kPad := by
  unfold decodeTable at h
  repeat' split at h
  all_goals first | assumption | cases h

/-- **What the strict loop takes** are characters of the table and pads behind them. -/
theorem quantumLoop_strict {data : Text} {q : Quantum} (hq : q.Fits) :
    ∃ ns k, Taken q data ns k (quantumLoop .strict false data q) := by
  induction data generalizing q with
  | nil => exact ⟨[], 0, .stop hq []⟩
  | cons c data ih =>
    rw [quantumLoop]
    split
    · exact ⟨[], 0, .stop hq _⟩
    · rename_i hlen
      cases hc : decodeTable c with
      | illegal => exact ⟨[], 0, .stop hq _⟩
      | space => exact ⟨[], 0, .stop hq _⟩
      | pad =>
        dsimp only
        split
        · exact ⟨[], 0, .stop hq _⟩
        · rename_i hpad
          simp only [not_or, Nat.not_lt, Nat.not_le] at hpad
          have hfits : Quantum.Fits ⟨q.bytes, q.padLen + 1,
              if q.padLen = 0 then c :: data else q.padStart⟩ :=
            ⟨Nat.succ_le_of_lt hpad.2.2, fun _ => hpad.2.1⟩
          obtain ⟨ns, k, htaken⟩ := ih hfits
          obtain rfl : ns = [] := htaken.unpadded (Nat.succ_pos _)
          obtain rfl : c = kPad := eq_pad hc
          have hdata : data = List.replicate k kPad ++ _ := htaken.data_eq
          refine ⟨[], k + 1, ⟨?_, by simp, fun _ => rfl, htaken.bytes_eq, ?_, htaken.fits⟩⟩
          · rw [List.replicate_succ]
            exact congrArg (kPad :: ·) hdata
          · rw [htaken.padLen_eq, Nat.add_assoc, Nat.add_comm 1 k]
      | index n =>
        dsimp only
        split
        · exact ⟨[], 0, .stop hq _⟩
        · rename_i hpad
          obtain ⟨hn, rfl⟩ := eq_tableChar hc
          have hzero : q.padLen = 0 := by
            by_contra hne
            exact hpad ⟨Nat.pos_of_ne_zero hne, by simp⟩
          have hfits : Quantum.Fits ⟨q.bytes ++ [n], 0, q.padStart⟩ :=
            ⟨by rw [List.length_append]; exact Nat.succ_le_of_lt (Nat.lt_of_not_le hlen),
              fun h => absurd h (Nat.lt_irrefl 0)⟩
          obtain ⟨ns, k, htaken⟩ := ih hfits
          refine ⟨n :: ns, k, ⟨congrArg (tableChar n :: ·) htaken.data_eq, ?_, fun h => ?_, ?_, ?_,
            htaken.fits⟩⟩
          · exact List.forall_mem_cons.mpr ⟨hn, htaken.small⟩
          · rw [hzero] at h
            exact absurd h (Nat.lt_irrefl 0)
          · rw [htaken.bytes_eq, List.append_assoc]
            rfl
          · rw [htaken.padLen_eq, hzero]

theorem length_two_or_three {α : Type} {l : List α} (h₂ : 2 ≤ l.length) (h₄ : l.length < 4) :
    (∃ a b, l = [a, b]) ∨ ∃ a b c, l = [a, b, c] := by
  match l, h₂, h₄ with
  | [a, b], _, _ => exact .inl ⟨a, b, rfl⟩
  | [a, b, c], _, _ => exact .inr ⟨a, b, c, rfl⟩

theorem getNextQuantum_strict (data : Text) :
    ∃ ns k rest, getNextQuantum .strict false data = (ns, decide (ns.length + k = 4), rest) ∧
      (∀ n ∈ ns, n < 64) ∧ ns.length + k ≤ 4 ∧ (0 < k → 2 ≤ ns.length) ∧
      (ns.length + k = 4 → data = ns.map tableChar ++ (List.replicate k kPad ++ rest)) := by
  have hq : Quantum.Fits ⟨[], 0, []⟩ := ⟨by decide, fun h => absurd h (Nat.lt_irrefl 0)⟩
  obtain ⟨ns, k, htaken⟩ := @quantumLoop_strict data _ hq
  have hbytes : _ = ns := htaken.bytes_eq
  have hpads : _ = k := htaken.padLen_eq.trans (Nat.zero_add k)
  refine ⟨ns, k, (getNextQuantum .strict false data).2.2, ?_, htaken.small, ?_, ?_, fun h => ?_⟩
  · refine Prod.ext hbytes (Prod.ext ?_ rfl)
    exact congrArg (fun n : Nat => decide (n = 4)) (by rw [hbytes, hpads])
  · have hle := htaken.fits.length_le
    rwa [hbytes, hpads] at hle
  · have htwo := htaken.fits.two_le
    rwa [hbytes, hpads] at htwo
  · have hrest : (getNextQuantum .strict false data).2.2 = _ :=
      if_neg fun hnot => hnot.1 (by rw [hbytes, hpads, h])
    rw [hrest]
    exact htaken.data_eq

/-- **What the strict loop decodes to the end** is an encoding. -/
theorem encode_of_decodeLoop {data : Text} {result r : List U8}
    (hfuel : data.length ≤ fuel) (h : decodeLoop doStrict fuel data result = (true, r, [])) :
    ∃ x, data = encodeFromArray x ∧ r = result ++ x := by
  induction fuel generalizing data result with
  | zero =>
    obtain rfl : data = [] := List.length_eq_zero_iff.mp (Nat.le_zero.mp hfuel)
    rw [decodeLoop_nil] at h
    cases h
    exact ⟨[], rfl, (List.append_nil _).symm⟩
  | succ fuel ih =>
    by_cases hempty : data = []
    · subst hempty
      rw [decodeLoop_nil] at h
      cases h
      exact ⟨[], rfl, (List.append_nil _).symm⟩
    obtain ⟨ns, k, rest, hquantum, hns, hle, htwo, hdata⟩ := getNextQuantum_strict data
    rw [@decodeLoop_of_quantum doStrict _ hempty _ _ _ hquantum] at h
    split at h
    · rename_i hlen
      simp only [doStrict, Prod.mk.injEq, Bool.and_eq_true, Bool.not_eq_true'] at h
      obtain ⟨⟨hrest, hpadded⟩, rfl, rfl⟩ := h
      have hfour : ns.length + k = 4 := by simpa using hpadded
      have hzero : (quantumBytes ns).2 = 0 := by simpa using hrest
      have hpads := hdata hfour
      rw [List.append_nil] at hpads
      refine ⟨(quantumBytes ns).1, ?_, rfl⟩
      rcases length_two_or_three (htwo (by omega)) hlen with ⟨n₁, n₂, rfl⟩ | ⟨n₁, n₂, n₃, rfl⟩
      · obtain rfl : k = 2 := Nat.add_left_cancel (n := 2) hfour
        rw [hpads, encode_two (hns n₁ (by simp)) (hns n₂ (by simp)) hzero]
        rfl
      · obtain rfl : k = 1 := Nat.add_left_cancel (n := 3) hfour
        rw [hpads, encode_three (hns n₁ (by simp)) (hns n₂ (by simp)) (hns n₃ (by simp)) hzero]
        rfl
    · rename_i hlen
      obtain rfl : k = 0 := by omega
      have hchars := hdata (by omega)
      obtain ⟨n₁, n₂, n₃, n₄, rfl⟩ : ∃ n₁ n₂ n₃ n₄, ns = [n₁, n₂, n₃, n₄] := by
        match ns, (show ns.length = 4 by omega) with
        | [a, b, c, d], _ => exact ⟨a, b, c, d, rfl⟩
      have hshorter : rest.length ≤ fuel := by
        rw [hchars] at hfuel
        simp at hfuel
        omega
      obtain ⟨x, hx, rfl⟩ := ih hshorter h
      refine ⟨(quantumBytes [n₁, n₂, n₃, n₄]).1 ++ x, ?_, (List.append_assoc _ _ _)⟩
      rw [encode_four (hns n₁ (by simp)) (hns n₂ (by simp)) (hns n₃ (by simp)) (hns n₄ (by simp)),
        ← hx, hchars]
      rfl

theorem encode_of_decode (h : (decodeFromArray doStrict s).1 = true) :
    ∃ x, s = encodeFromArray x := by
  obtain ⟨success, r, rest, hloop⟩ : ∃ success r rest,
    decodeLoop doStrict s.length s [] = (success, r, rest) := ⟨_, _, _, rfl⟩
  have hbuffer : (success && !(true && decide (rest ≠ []))) = true := by
    rw [decodeFromArray, hloop] at h
    exact h
  obtain ⟨rfl, hrest⟩ := Bool.and_eq_true_iff.mp hbuffer
  obtain rfl : rest = [] := by simpa using hrest
  obtain ⟨x, hx, -⟩ := encode_of_decodeLoop (Nat.le_refl _) hloop
  exact ⟨x, hx⟩

theorem squeeze_encode (x : List U8) : squeeze (encodeFromArray x) = encodeFromArray x := by
  have hchar : ∀ {n : U8}, n < 64 → isSpace (tableChar n) = false := fun hn => by
    by_contra hspace
    have htable := decodeTable_space_iff.mpr (Bool.not_eq_false _ ▸ hspace)
    rw [decodeTable_tableChar hn] at htable
    cases htable
  have hpad : isSpace kPad = false := by decide
  have hnil : squeeze [] = [] := rfl
  induction x using encodeFromArray.induct with
  | case1 => rfl
  | case2 a =>
    rw [encodeFromArray, squeeze_cons (hchar (and_index _)), squeeze_cons (hchar (and_index _)),
      squeeze_cons hpad, squeeze_cons hpad, hnil]
  | case3 a b =>
    rw [encodeFromArray, squeeze_cons (hchar (and_index _)),
      squeeze_cons (hchar (or_index (and_index _) (and_nibble _))),
      squeeze_cons (hchar (and_index _)), squeeze_cons hpad, hnil]
  | case4 a b c data ih =>
    rw [encodeFromArray, squeeze_cons (hchar (and_index _)),
      squeeze_cons (hchar (or_index (and_index _) (and_nibble _))),
      squeeze_cons (hchar (or_index (and_index _) (and_crumb _))),
      squeeze_cons (hchar (and_index _)), ih]

theorem endsBlank_encode (x : List U8) : endsBlank (encodeFromArray x) = false := by
  by_contra hblank
  obtain ⟨c, hc, hspace⟩ := (Option.any_eq_true _ _).mp (Bool.not_eq_false _ ▸ hblank)
  have hmem := List.mem_of_getLast? hc
  rw [← squeeze_encode] at hmem
  have hnot := List.of_mem_filter hmem
  simp [hspace] at hnot

theorem decode_of_encode (x : List U8) :
    decodeFromArray doStrict (encodeFromArray x) = (true, x, []) := by
  have hmisses : missesPad doStrict x (encodeFromArray x) = false := by
    rw [missesPad, endsBlank_encode, Bool.and_false]
  rw [decodeFromArray_spaced (by decide) (squeeze_encode x) (.inr ⟨rfl, squeeze_encode x⟩), hmisses]
  rfl

/-- **Strict decoding inverts encoding**, and takes nothing but encodings. -/
theorem strict_codec :
    (∀ x : List U8, decodeFromArray doStrict (encodeFromArray x) = (true, x, [])) ∧
      ∀ s : Text, (decodeFromArray doStrict s).1 = true ↔
        ∃ x : List U8, s = encodeFromArray x ∧ (decodeFromArray doStrict s).2.1 = x := by
  refine ⟨decode_of_encode, fun s => ⟨fun h => ?_, ?_⟩⟩
  · obtain ⟨x, rfl⟩ := encode_of_decode h
    exact ⟨x, rfl, by rw [decode_of_encode]⟩
  · rintro ⟨x, rfl, -⟩
    rw [decode_of_encode]

end Libjingle.Base64
