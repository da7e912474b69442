import Libjingle.Lib.Text

/-!
# Base64 (`base/base64.cc`)

The decoder, which takes four characters at a time and stops where its flags tell it to. A position
in the data is the text behind it.
-/

namespace Libjingle.Base64

open Lib

/-- `DO_PARSE_STRICT`, `DO_PARSE_WHITE` and `DO_PARSE_ANY`. -/
inductive ParseFlag where
  | strict
  | white
  | any
  deriving DecidableEq

/-- `DO_PAD_YES`, `DO_PAD_ANY` and `DO_PAD_NO`. -/
inductive PadFlag where
  | yes
  | any
  | no
  deriving DecidableEq

/-- `DO_TERM_BUFFER`, `DO_TERM_CHAR` and `DO_TERM_ANY`. -/
inductive TermFlag where
  | buffer
  | char
  | any
  deriving DecidableEq

structure DecodeFlags where
  parse : ParseFlag
  pad : PadFlag
  term : TermFlag
  deriving DecidableEq

def doStrict : DecodeFlags := ⟨.strict, .yes, .buffer⟩

/-- What a character stands for: `DecodeTable` with `pd`, `sp` and `il`. -/
inductive Entry where
  | index (n : U8)
  | pad
  | space
  | illegal
  deriving DecidableEq

def decodeTable (c : Char) : Entry :=
  if 'A' ≤ c ∧ c ≤ 'Z' then .index (BitVec.ofNat 8 (c.toNat - 65))
  else if 'a' ≤ c ∧ c ≤ 'z' then .index (BitVec.ofNat 8 (c.toNat - 97 + 26))
  else if '0' ≤ c ∧ c ≤ '9' then .index (BitVec.ofNat 8 (c.toNat - 48 + 52))
  else if c = '+' then .index 62
  else if c = '/' then .index 63
  else if c = '=' then .pad
  else if isSpace c then .space
  else .illegal

def isBase64Char (c : Char) : Bool :=
  ('A' ≤ c && c ≤ 'Z') || ('a' ≤ c && c ≤ 'z') || ('0' ≤ c && c ≤ '9') || c = '+' || c = '/'

/-- What the loop of `GetNextQuantum` works on: the bytes of the quantum so far, the number of pads
behind them, and the data from the first of these pads on. -/
structure Quantum where
  bytes : List U8
  padLen : Nat
  padStart : Text
  deriving DecidableEq

/-- The loop of `GetNextQuantum`. -/
def quantumLoop (parse : ParseFlag) (illegalPads : Bool) : Text → Quantum → Quantum × Text
  | [], q => (q, [])
  | c :: data, q =>
    if 4 ≤ q.bytes.length then (q, c :: data)
    else
      match decodeTable c with
      | .illegal => if parse ≠ .any then (q, c :: data) else quantumLoop parse illegalPads data q
      | .space => if parse = .strict then (q, c :: data) else quantumLoop parse illegalPads data q
      | .pad =>
        if illegalPads ∨ q.bytes.length < 2 ∨ 4 ≤ q.bytes.length + q.padLen then
          if parse ≠ .any then (q, c :: data) else quantumLoop parse illegalPads data q
        else
          quantumLoop parse illegalPads data { q with
            padLen := q.padLen + 1, padStart := if q.padLen = 0 then c :: data else q.padStart }
      | .index n =>
        -- pads that are followed by data are ignored, or end the quantum
        if 0 < q.padLen ∧ parse ≠ .any then (q, c :: data)
        else quantumLoop parse illegalPads data { q with bytes := q.bytes ++ [n], padLen := 0 }

/-- `GetNextQuantum`: the bytes, whether they are padded to four, and the data behind them. -/
def getNextQuantum (parse : ParseFlag) (illegalPads : Bool) (data : Text) :
    List U8 × Bool × Text :=
  let (q, rest) := quantumLoop parse illegalPads data ⟨[], 0, []⟩
  let padded := q.bytes.length + q.padLen = 4
  (q.bytes, padded, if ¬ padded ∧ 0 < q.padLen then q.padStart else rest)

/-- The bytes of a quantum, and the bits that are left over. -/
def quantumBytes : List U8 → List U8 × U8
  | [] => ([], 0)
  | [a] => ([], a <<< 2)
  | [a, b] => ([a <<< 2 ||| (b >>> 4 &&& 3)], b <<< 4 &&& 0xf0)
  | [a, b, c] =>
    ([a <<< 2 ||| (b >>> 4 &&& 3), (b <<< 4 &&& 0xf0) ||| (c >>> 2 &&& 0xf)], c <<< 6 &&& 0xc0)
  | a :: b :: c :: d :: _ =>
    ([a <<< 2 ||| (b >>> 4 &&& 3), (b <<< 4 &&& 0xf0) ||| (c >>> 2 &&& 0xf),
      (c <<< 6 &&& 0xc0) ||| d], 0)

/-- The loop of `DecodeFromArray`: success, the bytes and the data that is not used. A full quantum
takes data, so the length of the data bounds the rounds. -/
def decodeLoop (flags : DecodeFlags) : Nat → Text → List U8 → Bool × List U8 × Text
  | 0, data, result => (true, result, data)
  | _ + 1, [], result => (true, result, [])
  | fuel + 1, data, result =>
    let (bytes, padded, rest) := getNextQuantum flags.parse (flags.pad = .no) data
    let (decoded, c) := quantumBytes bytes
    if bytes.length < 4 then
      (!(flags.term ≠ .any && c ≠ 0) && !(flags.pad = .yes && !padded), result ++ decoded, rest)
    else decodeLoop flags fuel rest (result ++ decoded)

/-- `DecodeFromArray`: success, the bytes and the data that is not used. -/
def decodeFromArray (flags : DecodeFlags) (data : Text) : Bool × List U8 × Text :=
  let (success, result, rest) := decodeLoop flags data.length data []
  (success && !(flags.term = .buffer && rest ≠ []), result, rest)

/-- `Decode`: the bytes, when it succeeds. -/
def decode (flags : DecodeFlags) (data : Text) : Option (List U8) :=
  let (success, result, _) := decodeFromArray flags data
  if success then some result else none

/-! ## Whole quanta -/

theorem exists_index {c : Char} (h : isBase64Char c = true) : ∃ n, decodeTable c = .index n := by
  unfold decodeTable
  split
  · exact ⟨_, rfl⟩
  · split
    · exact ⟨_, rfl⟩
    · split
      · exact ⟨_, rfl⟩
      · split
        · exact ⟨_, rfl⟩
        · split
          · exact ⟨_, rfl⟩
          · simp_all [isBase64Char]

variable {parse : ParseFlag} {illegalPads : Bool} {data : Text}

theorem quantumLoop_index {c : Char}
    {bytes : List U8} {n : U8} (hn : decodeTable c = .index n) (hlen : bytes.length < 4) :
    quantumLoop parse illegalPads (c :: data) ⟨bytes, 0, []⟩ =
      quantumLoop parse illegalPads data ⟨bytes ++ [n], 0, []⟩ := by
  rw [quantumLoop, if_neg (by simpa using hlen), hn]
  simp

theorem quantumLoop_full (data : Text) {q : Quantum}
    (h : 4 ≤ q.bytes.length) : quantumLoop parse illegalPads data q = (q, data) := by
  cases data with
  | nil => rfl
  | cons c data => rw [quantumLoop, if_pos h]

theorem getNextQuantum_four (parse : ParseFlag) (illegalPads : Bool) {c₁ c₂ c₃ c₄ : Char}
    (h₁ : isBase64Char c₁ = true) (h₂ : isBase64Char c₂ = true) (h₃ : isBase64Char c₃ = true)
    (h₄ : isBase64Char c₄ = true) (data : Text) :
    ∃ bytes, bytes.length = 4 ∧
      getNextQuantum parse illegalPads (c₁ :: c₂ :: c₃ :: c₄ :: data) = (bytes, true, data) := by
  obtain ⟨n₁, hn₁⟩ := exists_index h₁
  obtain ⟨n₂, hn₂⟩ := exists_index h₂
  obtain ⟨n₃, hn₃⟩ := exists_index h₃
  obtain ⟨n₄, hn₄⟩ := exists_index h₄
  refine ⟨[n₁, n₂, n₃, n₄], rfl, ?_⟩
  have hloop : quantumLoop parse illegalPads (c₁ :: c₂ :: c₃ :: c₄ :: data) ⟨[], 0, []⟩ =
      (⟨[n₁, n₂, n₃, n₄], 0, []⟩, data) := by
    rw [quantumLoop_index hn₁ (by simp), quantumLoop_index hn₂ (by simp),
      quantumLoop_index hn₃ (by simp), quantumLoop_index hn₄ (by simp)]
    exact quantumLoop_full data (by simp)
  rw [getNextQuantum, hloop]
  rfl

theorem decodeLoop_quanta (flags : DecodeFlags) {k : Nat}
    (hlen : data.length = 4 * k) (hchars : ∀ c ∈ data, isBase64Char c = true) {fuel : Nat}
    (hfuel : data.length ≤ fuel) (result : List U8) :
    ∃ bytes, bytes.length = 3 * k ∧ decodeLoop flags fuel data result =
      (true, result ++ bytes, []) := by
  induction k generalizing data fuel result with
  | zero =>
    obtain rfl : data = [] := List.length_eq_zero_iff.mp hlen
    refine ⟨[], rfl, ?_⟩
    cases fuel <;> simp [decodeLoop]
  | succ k ih =>
    match data, hlen with
    | c₁ :: c₂ :: c₃ :: c₄ :: data, hlen =>
      obtain ⟨fuel, rfl⟩ : ∃ n, fuel = n + 1 := ⟨fuel - 1, by simp at hfuel; omega⟩
      obtain ⟨q, hq, hnext⟩ := getNextQuantum_four flags.parse (flags.pad = .no)
        (hchars c₁ (by simp)) (hchars c₂ (by simp)) (hchars c₃ (by simp)) (hchars c₄ (by simp)) data
      obtain ⟨a, b, c, d, rfl⟩ : ∃ a b c d, q = [a, b, c, d] := by
        match q, hq with
        | [a, b, c, d], _ => exact ⟨a, b, c, d, rfl⟩
      have hlen' : data.length = 4 * k := by simp at hlen; omega
      have hfuel' : data.length ≤ fuel := by simp at hfuel; omega
      have hchars' : ∀ x ∈ data, isBase64Char x = true := fun x hx => hchars x (by simp [hx])
      obtain ⟨bytes, hbytes, hrest⟩ :=
        ih hlen' hchars' hfuel' (result ++ (quantumBytes [a, b, c, d]).1)
      refine ⟨(quantumBytes [a, b, c, d]).1 ++ bytes, by simp [quantumBytes, hbytes]; omega, ?_⟩
      rw [decodeLoop, hnext]
      · simp only [hq, lt_self_iff_false, if_false]
        rw [hrest, List.append_assoc]
      · simp

/-- **A text of whole quanta is decoded to three bytes for every four characters.** -/
theorem decode_quanta (flags : DecodeFlags) {k : Nat} (hlen : data.length = 4 * k)
    (hchars : ∀ c ∈ data, isBase64Char c = true) :
    ∃ bytes, bytes.length = 3 * k ∧ decode flags data = some bytes := by
  obtain ⟨bytes, hbytes, hloop⟩ := decodeLoop_quanta flags hlen hchars (Nat.le_refl _) []
  refine ⟨bytes, hbytes, ?_⟩
  rw [decode, decodeFromArray, hloop]
  simp

end Libjingle.Base64
