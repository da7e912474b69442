import Libjingle.Base.BasicTypes

/-!
# Text

`std::string` as a list of characters: the first part before a delimiter, lines, and the numbers
that a string stream writes and reads. Fields between delimiters are `List.splitOn`, where two
delimiters in a row give an empty field.

* `readInt_intText`, `readU32_u32Text`: a number that was written is read.
-/

namespace Libjingle.Lib

/-- `std::string`. -/
abbrev Text := List Char

instance textLawfulBEq : LawfulBEq Text := inferInstance

/-- `int`; its value is `toInt`. -/
abbrev I32 := BitVec 32

/-! ## Delimiters -/

/-- The parts before and behind the first delimiter. -/
def splitFirst (d : Char) : Text → Option (Text × Text)
  | [] => none
  | c :: s => if c = d then some ([], s) else (splitFirst d s).map fun p => (c :: p.1, p.2)

variable {d : Char} {s : Text}

/-- A text is split behind the part that has no delimiter. -/
theorem splitFirst_append (h : d ∉ s) (t : Text) : splitFirst d (s ++ d :: t) = some (s, t) := by
  induction s with
  | nil => simp [splitFirst]
  | cons c s ih =>
    rw [List.mem_cons, not_or] at h
    rw [List.cons_append, splitFirst, if_neg (Ne.symm h.1), ih h.2]
    rfl

theorem splitFirst_of_notMem (h : d ∉ s) : splitFirst d s = none := by
  induction s with
  | nil => rfl
  | cons c s ih =>
    rw [List.mem_cons, not_or] at h
    rw [splitFirst, if_neg (Ne.symm h.1), ih h.2]
    rfl

theorem eq_append_of_splitFirst {s a b : Text} (h : splitFirst d s = some (a, b)) :
    s = a ++ d :: b ∧ d ∉ a := by
  induction s generalizing a with
  | nil => cases h
  | cons c s ih =>
    rw [splitFirst] at h
    split at h
    · rename_i hc
      cases h
      exact ⟨by rw [hc]; rfl, List.not_mem_nil⟩
    · rename_i hc
      obtain ⟨⟨a', b'⟩, hsplit, heq⟩ := Option.map_eq_some_iff.mp h
      cases heq
      obtain ⟨rfl, hmem⟩ := ih hsplit
      exact ⟨rfl, by simp [hmem, Ne.symm hc]⟩

theorem notMem_of_splitFirst_none (h : splitFirst d s = none) : d ∉ s := by
  intro hmem
  obtain ⟨a, b, rfl, ha⟩ := List.eq_append_cons_of_mem hmem
  rw [splitFirst_append ha] at h
  cases h

theorem splitOn_append (h : d ∉ s) (t : Text) : (s ++ d :: t).splitOn d = s :: t.splitOn d :=
  List.splitOn_append_cons_self_of_not_mem h t

/-- Fields that are all written behind a delimiter. -/
theorem splitOn_append_flatMap (h : d ∉ s) {fs : List Text}
    (hfs : ∀ f ∈ fs, d ∉ f) : (s ++ fs.flatMap fun f => d :: f).splitOn d = s :: fs := by
  induction fs generalizing s with
  | nil => rw [List.flatMap_nil, List.append_nil, List.splitOn_eq_singleton h]
  | cons f fs ih =>
    rw [List.flatMap_cons, List.cons_append, splitOn_append h]
    rw [ih (hfs f List.mem_cons_self) fun g hg => hfs g (List.mem_cons_of_mem _ hg)]

/-! ## Numbers -/

/-- What a stream writes for an unsigned number. -/
def natText (n : Nat) : Text := Nat.toDigits 10 n

/-- What a stream writes for an `int`. -/
def intText (n : I32) : Text :=
  if n.toInt < 0 then '-' :: natText n.toInt.natAbs else natText n.toInt.natAbs

def isSpace (c : Char) : Bool := c.toNat = 32 || (9 ≤ c.toNat && c.toNat ≤ 13)

/-- The sign and the digits that a stream extracts for a number. -/
def numeral (s : Text) : Bool × Text :=
  match s.dropWhile isSpace with
  | '-' :: t => (true, t.takeWhile Char.isDigit)
  | '+' :: t => (false, t.takeWhile Char.isDigit)
  | t => (false, t.takeWhile Char.isDigit)

/-- An `int` extracted from a stream: `0` without digits, and the nearest one out of range. -/
def readInt (s : Text) : I32 :=
  let (negative, digits) := numeral s
  let n : Nat := Nat.ofDigitChars 10 digits 0
  if negative then BitVec.ofInt 32 (max (-(2 ^ 31)) (-n)) else BitVec.ofInt 32 (min (2 ^ 31 - 1) n)

/-- A `uint32` extracted from a stream. The negative of a number in range is taken modulo `2^32`. -/
def readU32 (s : Text) : U32 :=
  let (negative, digits) := numeral s
  let n : Nat := Nat.ofDigitChars 10 digits 0
  if 2 ^ 32 ≤ n then BitVec.ofNat 32 (2 ^ 32 - 1)
  else if negative then -BitVec.ofNat 32 n else BitVec.ofNat 32 n

variable {c : Char}

variable {n : Nat}

theorem isDigit_of_mem_natText (h : c ∈ natText n) : c.isDigit = true :=
  Nat.isDigit_of_mem_toDigits (by decide) (by decide) h

theorem notMem_natText (h : c.isDigit = false) : c ∉ natText n := by
  intro hmem
  rw [isDigit_of_mem_natText hmem] at h
  cases h

theorem notMem_intText {n : I32} (h : c.isDigit = false) (hc : c ≠ '-') : c ∉ intText n := by
  unfold intText
  split
  · rw [List.mem_cons, not_or]
    exact ⟨hc, notMem_natText h⟩
  · exact notMem_natText h

theorem natText_ne_nil (n : Nat) : natText n ≠ [] := Nat.toDigits_ne_nil

theorem isSpace_of_isDigit (h : c.isDigit = true) : isSpace c = false := by
  have hlo : 48 ≤ c.toNat := by
    simp only [Char.isDigit, Bool.and_eq_true, decide_eq_true_eq] at h
    exact h.1
  have hne : c.toNat ≠ 32 := by omega
  have hgt : ¬ c.toNat ≤ 13 := by omega
  simp [isSpace, hne, hgt]

theorem takeWhile_natText (n : Nat) : (natText n).takeWhile Char.isDigit = natText n := by
  have hall : ∀ c ∈ natText n, c.isDigit = true := fun _ hc => isDigit_of_mem_natText hc
  generalize natText n = l at hall
  induction l with
  | nil => rfl
  | cons c l ih =>
    rw [List.takeWhile_cons_of_pos (hall c List.mem_cons_self)]
    rw [ih fun d hd => hall d (List.mem_cons_of_mem _ hd)]

theorem ofDigitChars_natText (n : Nat) : Nat.ofDigitChars 10 (natText n) 0 = n :=
  Nat.ofDigitChars_ten_toDigits

theorem numeral_natText (n : Nat) : numeral (natText n) = (false, natText n) := by
  obtain ⟨c, t, hct⟩ := List.exists_cons_of_ne_nil (natText_ne_nil n)
  have hdigit : c.isDigit = true := isDigit_of_mem_natText (hct ▸ List.mem_cons_self)
  have hdrop : (natText n).dropWhile isSpace = c :: t := by
    rw [hct, List.dropWhile_cons_of_neg (by simp [isSpace_of_isDigit hdigit])]
  have htake := takeWhile_natText n
  rw [hct] at htake
  unfold numeral
  rw [hdrop, hct]
  split
  · rename_i heq
    obtain ⟨rfl, -⟩ := List.cons.inj heq
    exact absurd hdigit (by decide)
  · rename_i heq
    obtain ⟨rfl, -⟩ := List.cons.inj heq
    exact absurd hdigit (by decide)
  · rename_i heq _ _
    rw [htake]

theorem numeral_neg_natText (n : Nat) : numeral ('-' :: natText n) = (true, natText n) := by
  have hdrop : ('-' :: natText n).dropWhile isSpace = '-' :: natText n :=
    List.dropWhile_cons_of_neg (by decide)
  unfold numeral
  rw [hdrop]
  exact congrArg (Prod.mk true) (takeWhile_natText n)

/-- **An `int` that was written is read.** -/
theorem readInt_intText (n : I32) : readInt (intText n) = n := by
  have hlo : -(2 ^ 31) ≤ n.toInt := BitVec.le_toInt n
  have hhi : n.toInt < 2 ^ 31 := BitVec.toInt_lt
  by_cases hneg : n.toInt < 0
  · have hval : max (-(2 ^ 31)) (-(n.toInt.natAbs : Int)) = n.toInt := by omega
    rw [intText, if_pos hneg, readInt, numeral_neg_natText]
    simp only [ofDigitChars_natText, if_true]
    rw [hval, BitVec.ofInt_toInt]
  · have hval : min (2 ^ 31 - 1) (n.toInt.natAbs : Int) = n.toInt := by omega
    rw [intText, if_neg hneg, readInt, numeral_natText]
    simp only [ofDigitChars_natText, Bool.false_eq_true, if_false]
    rw [hval, BitVec.ofInt_toInt]

/-- A small number is read as an `int`. -/
theorem readInt_natText (h : n < 2 ^ 31) : readInt (natText n) = BitVec.ofNat 32 n := by
  have hval : min (2 ^ 31 - 1) (n : Int) = n := by omega
  rw [readInt, numeral_natText]
  simp only [ofDigitChars_natText, Bool.false_eq_true, if_false]
  rw [hval]
  exact BitVec.ofInt_natCast 32 n

/-- **A `uint32` that was written is read.** -/
theorem readU32_natText (n : U32) : readU32 (natText n.toNat) = n := by
  have hlt := n.isLt
  rw [readU32, numeral_natText]
  simp only [ofDigitChars_natText, Bool.false_eq_true, if_false]
  rw [if_neg (by omega), BitVec.ofNat_toNat, BitVec.setWidth_eq]

end Libjingle.Lib
