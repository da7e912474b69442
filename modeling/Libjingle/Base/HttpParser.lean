import Libjingle.Lib.Incremental
import Libjingle.Lib.Text
import Mathlib.Data.List.DropRight

/-!
# `HttpParser` (`base/httpbase.h`, `base/httpbase.cc`)

`Process` walks a stream of HTTP: a leader line, header lines, and a document that goes on to the
end of the stream, has a known size, or comes in chunks. Each turn of its loop (`next`) takes a
line or a part of the document off the front of the buffer; what it leaves stays in the buffer for
the next call (`receive`, as in `DoReceiveLoop`).

* The callbacks record what they are given. `ProcessLeader` is a parameter; the others accept what
  they are given, and `ProcessData` takes all of it.
* `result` is the error of a `PR_COMPLETE`, with which the exchange ends.
* `sscanf` of a content length looks at the line only.
-/

namespace Libjingle

open Lib

inductive HttpError
  | none
  | protocol
  | disconnected
  | overflow
  | connectFailed
  | socketError
  | shutdown
  | operationCancelled
  | auth
  | certificateExpired
  | stream
  | cache
  | default
deriving DecidableEq

/-- A header: its name and its value. -/
abbrev HttpHeaderField := Text × Text

namespace HttpParser

def sizeUnknown : U64 := -1

inductive State
  | leader
  | headers
  | chunkSize
  | chunkTerm
  | trailers
  | data
deriving DecidableEq

end HttpParser

open HttpParser

/-- The parser, with what its callbacks have been given. -/
structure HttpParser where
  state_ : State
  chunked_ : Bool
  data_size_ : U64
  leader : Text
  headers : List HttpHeaderField
  document : Text
  result : Option HttpError
deriving DecidableEq

namespace HttpParser

def nul : Char := Char.ofNat 0

/-- `reset`, with nothing received. -/
def reset : HttpParser := ⟨.leader, false, sizeUnknown, [], [], [], none⟩

/-- `strchrn`: the parts before and behind the character; a NUL ends the search. -/
def strchrn (s : Text) (c : Char) : Option (Text × Text) :=
  (splitFirst c s).filter fun p => nul ∉ p.1

/-- `_strnicmp` finds no difference between texts of the same length. -/
def sameIgnoringCase (a b : Text) : Bool := a.map Char.toLower = b.map Char.toLower

def hhContentLength : Text := "Content-Length".toList
def hhTransferEncoding : Text := "Transfer-Encoding".toList

def matchHeader (str header : Text) : Bool := sameIgnoringCase str header

/-- `sscanf` with `"%u"`, as an `unsigned int`. -/
def scanUnsigned (s : Text) : Option U32 :=
  let (negative, digits) := numeral s
  if digits = [] then none
  else
    let n : Nat := Nat.ofDigitChars 10 digits 0
    some (if n ≥ 2 ^ 64 then -1 else if negative then -BitVec.ofNat 32 n else BitVec.ofNat 32 n)

/-- The value of a hexadecimal digit. -/
def hexValue (c : Char) : Option Nat :=
  if '0' ≤ c ∧ c ≤ '9' then some (c.toNat - 48)
  else if 'a' ≤ c ∧ c ≤ 'f' then some (c.toNat - 87)
  else if 'A' ≤ c ∧ c ≤ 'F' then some (c.toNat - 55)
  else none

/-- The sign of a number and what follows it. -/
def sign : Text → Bool × Text
  | '-' :: s => (true, s)
  | '+' :: s => (false, s)
  | s => (false, s)

/-- What follows the `0x` of a hexadecimal number. -/
def skipHexPrefix : Text → Text
  | '0' :: x :: d :: s =>
    if (x = 'x' ∨ x = 'X') ∧ (hexValue d).isSome then d :: s else '0' :: x :: d :: s
  | s => s

/-- The number that hexadecimal digits stand for. -/
def hexNumber (s : Text) : Option Nat :=
  if s = [] then none
  else (s.mapM hexValue).map fun values => values.foldl (fun a d => a * 16 + d) 0

/-- A number as `strtoul` returns it: the greatest one if it is out of range. -/
def clamp (negative : Bool) (n : Nat) : U64 :=
  if n ≥ 2 ^ 64 then -1 else if negative then -BitVec.ofNat 64 n else BitVec.ofNat 64 n

def isHexDigit (c : Char) : Bool := (hexValue c).isSome

/-- `strtoul` with base 16, and what the pointer it sets points to. -/
def strtoul (s : Text) : U64 × Text :=
  let (negative, digits) := sign (s.dropWhile isSpace)
  let digits := skipHexPrefix digits
  (hexNumber (digits.takeWhile isHexDigit)).elim (0, s) fun n =>
    (clamp negative n, digits.dropWhile isHexDigit)

/-- A `PR_COMPLETE`. -/
def complete (p : HttpParser) (error : HttpError) : HttpParser := { p with result := some error }

/-- `ProcessLine` in the headers, with a line that is not empty. -/
def processHeaderLine (p : HttpParser) (line : Text) : HttpParser :=
  (strchrn line ':').elim (p.complete .protocol) fun (name, rest) =>
    let value := rest.dropWhile isSpace
    let process (p : HttpParser) : HttpParser := { p with headers := p.headers ++ [(name, value)] }
    if matchHeader name hhContentLength then
      (scanUnsigned value).elim (p.complete .protocol) fun size => 
        process { p with data_size_ := size.setWidth 64 }
    else if matchHeader name hhTransferEncoding then
      if sameIgnoringCase value "chunked".toList then process { p with chunked_ := true }
      else if sameIgnoringCase value "identity".toList then process { p with chunked_ := false }
      else p.complete .protocol
    else process p

def processLine (parseLeader : Text → HttpError) (p : HttpParser) (line : Text) : HttpParser :=
  match p.state_ with
  | .leader =>
    let p := { p with state_ := .headers, leader := line }
    if parseLeader line = .none then p else p.complete (parseLeader line)
  | .headers =>
    if line ≠ [] then p.processHeaderLine line
    else { p with state_ := if p.chunked_ then .chunkSize else .data }
  | .chunkSize =>
    if line ≠ [] then
      let (size, ptr) := strtoul line
      let p := { p with data_size_ := size }
      if ptr ≠ [] then p.complete .protocol
      else { p with state_ := if size = 0 then .trailers else .data }
    else p.complete .protocol
  | .chunkTerm =>
    if line ≠ [] then p.complete .protocol
    else { p with state_ := if p.chunked_ then .chunkSize else .data }
  | .trailers => if line = [] then p.complete .none else p
  | .data => p

/-- The line without the white space at its end. -/
def trim (line : Text) : Text := line.rdropWhile isSpace

/-- How much of what is left in the buffer belongs to the document. -/
def available (p : HttpParser) (buffer : Text) : Nat :=
  if p.data_size_ ≠ sizeUnknown ∧ buffer.length > p.data_size_.toNat then p.data_size_.toNat
  else buffer.length

/-- `ProcessData`, which takes a part of the document, and what `Process` does after it. -/
def processData (p : HttpParser) (data : Text) : HttpParser :=
  { p with
    document := p.document ++ data
    data_size_ := if p.data_size_ ≠ sizeUnknown then p.data_size_ - BitVec.ofNat 64 data.length
      else p.data_size_ }

/-- A turn of the loop of `Process` on what is left in the buffer, unless it ends or more is needed.
-/
def next (parseLeader : Text → HttpError) (p : HttpParser) (buffer : Text) :
    Option (HttpParser × Text) :=
  if p.result ≠ none then none
  else if p.state_ ≠ .data then
    (splitFirst '\n' buffer).map fun (line, rest) => (p.processLine parseLeader (trim line), rest)
  else if p.data_size_ = 0 then
    if p.chunked_ then some ({ p with state_ := .chunkTerm }, buffer)
    else some (p.complete .none, buffer)
  else if buffer = [] then none
  else
    some (p.processData (buffer.take (p.available buffer)), buffer.drop (p.available buffer))

/-- Turns that take nothing lead out of the document. -/
def weight (p : HttpParser) : Nat :=
  if p.result ≠ none then 0 else if p.state_ = .data then 2 else 1

/-! ## Sizes of chunks -/

section Sizes

variable {parseLeader : Text → HttpError} {p : HttpParser} {s : Text} {size : U64}

theorem mapM_isSome_iff :
    (s.mapM hexValue).isSome = true ↔ ∀ c ∈ s, (hexValue c).isSome = true := by
  induction s with
  | nil => simp
  | cons c s ih =>
    rw [List.mapM_cons, List.forall_mem_cons, ← ih]
    cases hexValue c <;> cases s.mapM hexValue <;> simp

theorem hexNumber_isSome_iff :
    (hexNumber s).isSome = true ↔ s ≠ [] ∧ ∀ c ∈ s, (hexValue c).isSome = true := by
  unfold hexNumber
  split
  · rename_i h
    exact ⟨fun hsome => (Bool.false_ne_true hsome).elim, fun hs => absurd h hs.1⟩
  · rename_i h
    rw [Option.isSome_map, mapM_isSome_iff]
    exact ⟨fun hall => ⟨h, hall⟩, And.right⟩

theorem hexNumber_takeWhile (s : Text) : hexNumber s =
    if s.dropWhile isHexDigit = [] then hexNumber (s.takeWhile isHexDigit) else none := by
  split
  · rename_i h
    have hall := List.takeWhile_append_dropWhile (p := isHexDigit) (l := s)
    rw [h, List.append_nil] at hall
    rw [hall]
  · rename_i h
    by_contra hsome
    obtain ⟨-, hall⟩ := hexNumber_isSome_iff.mp (Option.isSome_iff_ne_none.mpr hsome)
    exact h (List.dropWhile_eq_nil_iff.mpr hall)

/-- The number that a text is for `strtoul`. -/
def wholeNumber (s : Text) : Option U64 :=
  (hexNumber (skipHexPrefix (sign (s.dropWhile isSpace)).2)).map
    (clamp (sign (s.dropWhile isSpace)).1)

theorem wholeNumber_eq (hs : s ≠ []) :
    wholeNumber s = if (strtoul s).2 ≠ [] then none else some (strtoul s).1 := by
  obtain ⟨digits, hdigits⟩ : ∃ u, u = skipHexPrefix (sign (s.dropWhile isSpace)).2 := ⟨_, rfl⟩
  have hread : strtoul s = (hexNumber (digits.takeWhile isHexDigit)).elim (0, s) fun n =>
      (clamp (sign (s.dropWhile isSpace)).1 n, digits.dropWhile isHexDigit) := by
    rw [hdigits]
    rfl
  rw [wholeNumber, ← hdigits, hexNumber_takeWhile, hread]
  cases hexNumber (digits.takeWhile isHexDigit) with
  | none =>
    rw [ite_self, Option.elim_none, if_pos hs]
    rfl
  | some n =>
    by_cases hall : digits.dropWhile isHexDigit = []
    · rw [if_pos hall, Option.elim_some, if_neg (not_not.mpr hall)]
      rfl
    · rw [if_neg hall, Option.elim_some, if_pos hall]
      rfl

theorem processLine_size (hstate : p.state_ = .chunkSize) {line : Text}
    (hsize : wholeNumber line = some size) : p.processLine parseLeader line =
      { p with data_size_ := size, state_ := if size = 0 then .trailers else .data } := by
  have hline : line ≠ [] := fun h => by
    rw [h] at hsize
    cases hsize
  rw [wholeNumber_eq hline] at hsize
  rw [processLine, hstate]
  dsimp only
  rw [if_pos hline]
  split at hsize
  · cases hsize
  · rename_i hptr
    rw [if_neg hptr, Option.some.inj hsize]

/-- What `strtoul` has read is kept also when the line is not taken. -/
theorem processLine_of_none (hstate : p.state_ = .chunkSize) {line : Text}
    (hnone : wholeNumber line = none) : ∃ size, p.processLine parseLeader line =
      { p with data_size_ := size }.complete .protocol := by
  obtain ⟨state, chunked, size, leader, headers, document, result⟩ := p
  obtain rfl : state = .chunkSize := hstate
  by_cases hline : line = []
  · exact ⟨size, if_neg (not_not.mpr hline)⟩
  · rw [wholeNumber_eq hline] at hnone
    split at hnone
    · rename_i hptr
      exact ⟨_, (if_pos hline).trans (if_pos hptr)⟩
    · cases hnone

end Sizes

/-! ## The parser as a machine -/

theorem splitFirst_length {d : Char} {s a b : Text} (h : splitFirst d s = some (a, b)) :
    b.length < s.length := by
  rw [(eq_append_of_splitFirst h).1, List.length_append, List.length_cons]
  omega

theorem available_le (p : HttpParser) (buffer : Text) : p.available buffer ≤ buffer.length := by
  unfold available
  split
  · omega
  · exact Nat.le_refl _

variable {p : HttpParser}

variable {buffer : Text}

theorem available_pos (hsize : p.data_size_ ≠ 0)
    (hbuffer : buffer ≠ []) : 0 < p.available buffer := by
  have hpos := List.length_pos_of_ne_nil hbuffer
  have hnat : p.data_size_.toNat ≠ 0 := fun h => hsize (BitVec.eq_of_toNat_eq h)
  unfold available
  split <;> omega

theorem available_of_size_zero (hsize : p.data_size_ = 0) (buffer : Text) :
    p.available buffer = 0 := by
  have hknown : (0 : U64) ≠ sizeUnknown := by decide
  rw [available, hsize]
  by_cases hpos : buffer.length > 0
  · exact if_pos ⟨hknown, hpos⟩
  · exact (if_neg fun h => hpos h.2).trans (Nat.eq_zero_of_not_pos hpos)

variable (parseLeader : Text → HttpError)

theorem next_decreases {p p' : HttpParser} {buffer rest : Text}
    (h : p.next parseLeader buffer = some (p', rest)) :
    rest.length < buffer.length ∨ (rest.length = buffer.length ∧ p'.weight < p.weight) := by
  unfold next at h
  split at h
  · cases h
  rename_i hresult
  split at h
  · obtain ⟨⟨line, rest'⟩, hsplit, heq⟩ := Option.map_eq_some_iff.mp h
    cases heq
    exact .inl (splitFirst_length hsplit)
  rename_i hdata
  have hweight : p.weight = 2 := by rw [weight, if_neg hresult, if_pos (not_not.mp hdata)]
  split at h
  · right
    split at h
    · cases h
      refine ⟨rfl, ?_⟩
      rw [hweight, weight]
      split
      · exact Nat.zero_lt_two
      · exact Nat.one_lt_two
    · cases h
      rw [hweight]
      exact ⟨rfl, Nat.zero_lt_two⟩
  rename_i hsize
  split at h
  · cases h
  rename_i hbuffer
  left
  have hpos := available_pos hsize hbuffer
  have hle := available_le p buffer
  cases h
  rw [List.length_drop]
  omega

/-- `Process`. -/
def machine : Machine HttpParser Char where
  next := next parseLeader
  weight := weight
  decreases := next_decreases parseLeader

/-- `Process` on a buffer: the parser after it and what it leaves. -/
def process (p : HttpParser) (buffer : Text) : HttpParser × Text :=
  (machine parseLeader).run p buffer

/-- More of the stream is appended to the buffer and processed, as in `DoReceiveLoop`. -/
def receive (p : HttpParser × Text) (piece : Text) : HttpParser × Text :=
  p.1.process parseLeader (p.2 ++ piece)

variable {parseLeader}

theorem next_data (hresult : p.result = none) (hstate : p.state_ = .data)
    (hsize : p.data_size_ ≠ 0) (hbuffer : buffer ≠ []) :
    p.next parseLeader buffer =
      some (p.processData (buffer.take (p.available buffer)),
        buffer.drop (p.available buffer)) := by
  have hdata : ¬ p.state_ ≠ .data := not_not.mpr hstate
  rw [next, if_neg (not_not.mpr hresult), if_neg hdata, if_neg hsize, if_neg hbuffer]

theorem processData_unknown (hunknown : p.data_size_ = sizeUnknown) (data : Text) :
    p.processData data = { p with document := p.document ++ data } := by
  rw [processData, if_neg (not_not.mpr hunknown)]

theorem processData_known (hknown : p.data_size_ ≠ sizeUnknown) (data : Text) : p.processData data =
      { p with
        document := p.document ++ data
        data_size_ := p.data_size_ - BitVec.ofNat 64 data.length } := by
  rw [processData, if_pos hknown]

variable {data : Text}

theorem processData_size (hknown : p.data_size_ ≠ sizeUnknown)
    (hle : data.length ≤ p.data_size_.toNat) :
    (p.processData data).data_size_.toNat = p.data_size_.toNat - data.length := by
  have hlt := p.data_size_.isLt
  rw [processData_known hknown, BitVec.toNat_sub_of_le, BitVec.toNat_ofNat,
    Nat.mod_eq_of_lt (by omega)]
  rw [BitVec.le_def, BitVec.toNat_ofNat, Nat.mod_eq_of_lt (by omega)]
  exact hle

theorem processData_nil (p : HttpParser) : p.processData [] = p := by
  by_cases hknown : p.data_size_ = sizeUnknown
  · rw [processData_unknown hknown, List.append_nil]
  · have hsub : p.data_size_ - BitVec.ofNat 64 0 = p.data_size_ := BitVec.sub_zero _
    rw [processData_known hknown, List.append_nil, List.length_nil, hsub]

theorem processData_unknown_iff
    (hle : p.data_size_ ≠ sizeUnknown → data.length ≤ p.data_size_.toNat) :
    (p.processData data).data_size_ = sizeUnknown ↔ p.data_size_ = sizeUnknown := by
  by_cases hknown : p.data_size_ = sizeUnknown
  · rw [processData_unknown hknown]
  · have hsize := processData_size hknown (hle hknown)
    have hmax : sizeUnknown.toNat = 2 ^ 64 - 1 := by decide
    have hlt : p.data_size_.toNat ≠ 2 ^ 64 - 1 := fun h =>
      hknown (BitVec.eq_of_toNat_eq (h.trans hmax.symm))
    have hbound := p.data_size_.isLt
    constructor
    · intro h
      rw [h, hmax] at hsize
      omega
    · exact fun h => absurd h hknown

variable {a : Text}

theorem processData_append
    (hle : p.data_size_ ≠ sizeUnknown → a.length ≤ p.data_size_.toNat) (b : Text) :
    (p.processData a).processData b = p.processData (a ++ b) := by
  have hiff := processData_unknown_iff hle
  by_cases hknown : p.data_size_ = sizeUnknown
  · rw [processData_unknown (hiff.mpr hknown), processData_unknown hknown,
      processData_unknown hknown]
    simp only [List.append_assoc]
  · have hknown' : (p.processData a).data_size_ ≠ sizeUnknown := fun h => hknown (hiff.mp h)
    rw [processData_known hknown', processData_known hknown, processData_known hknown]
    simp only [List.append_assoc, List.length_append, BitVec.ofNat_add, BitVec.sub_sub]

theorem available_append
    (hle : p.data_size_ ≠ sizeUnknown → a.length ≤ p.data_size_.toNat) (b : Text) :
    p.available (a ++ b) = a.length + (p.processData a).available b := by
  have hiff := processData_unknown_iff hle
  rw [available, available, List.length_append]
  by_cases hknown : p.data_size_ = sizeUnknown
  · rw [if_neg (fun h => h.1 hknown), if_neg (fun h => h.1 (hiff.mpr hknown))]
  · have hsize := processData_size hknown (hle hknown)
    have hknown' : (p.processData a).data_size_ ≠ sizeUnknown := fun h => hknown (hiff.mp h)
    have hle' := hle hknown
    by_cases hmore : a.length + b.length > p.data_size_.toNat
    · rw [if_pos ⟨hknown, hmore⟩, if_pos ⟨hknown', by omega⟩]
      omega
    · rw [if_neg (fun h => hmore h.2), if_neg (fun h => by omega)]

/-- A turn with more in the buffer takes the same, or as much of the document as it takes with the
turn behind it. -/
theorem next_append {p p' : HttpParser} {a r : Text} (hnext : p.next parseLeader a = some (p', r))
    (b : Text) : p.next parseLeader (a ++ b) = some (p', r ++ b) ∨
      ∃ q, p.next parseLeader (a ++ b) = some q ∧ p'.next parseLeader (r ++ b) = some q ∧
        p.state_ = .data ∧ p'.state_ = .data := by
  by_cases hresult : p.result = none
  swap
  · rw [next, if_pos hresult] at hnext
    cases hnext
  by_cases hdata : p.state_ = .data
  swap
  · left
    rw [next, if_neg (not_not.mpr hresult), if_pos hdata] at hnext
    obtain ⟨⟨line, rest⟩, hsplit, heq⟩ := Option.map_eq_some_iff.mp hnext
    cases heq
    obtain ⟨rfl, hline⟩ := eq_append_of_splitFirst hsplit
    rw [next, if_neg (not_not.mpr hresult), if_pos hdata, List.append_assoc, List.cons_append,
      splitFirst_append hline]
    rfl
  have hnot : ¬ p.state_ ≠ .data := not_not.mpr hdata
  by_cases hsize : p.data_size_ = 0
  · -- what has arrived behind does not matter
    left
    have hsame : ∀ buffer, p.next parseLeader buffer =
        if p.chunked_ then some ({ p with state_ := .chunkTerm }, buffer)
        else some (p.complete .none, buffer) := fun buffer => by
      rw [next, if_neg (not_not.mpr hresult), if_neg hnot, if_pos hsize]
    rw [hsame] at hnext ⊢
    by_cases hchunked : p.chunked_ = true
    · rw [if_pos hchunked] at hnext ⊢
      cases hnext
      rfl
    · rw [if_neg hchunked] at hnext ⊢
      cases hnext
      rfl
  by_cases hempty : a = []
  · rw [next, if_neg (not_not.mpr hresult), if_neg hnot, if_neg hsize, if_pos hempty] at hnext
    cases hnext
  rw [next_data hresult hdata hsize hempty] at hnext
  obtain ⟨rfl, rfl⟩ := Prod.mk.inj (Option.some.inj hnext)
  have hne : a ++ b ≠ [] := fun h => hempty (List.append_eq_nil_iff.mp h).1
  have hboth : p.next parseLeader (a ++ b) =
      some (p.processData ((a ++ b).take (p.available (a ++ b))),
        (a ++ b).drop (p.available (a ++ b))) := next_data hresult hdata hsize hne
  by_cases hmore : p.data_size_ ≠ sizeUnknown ∧ a.length > p.data_size_.toNat
  · -- the rest of the document was there
    left
    have htake : p.available a = p.data_size_.toNat := if_pos hmore
    have htake' : p.available (a ++ b) = p.data_size_.toNat :=
      if_pos ⟨hmore.1, by rw [List.length_append]; omega⟩
    rw [hboth, htake, htake', List.take_append_of_le_length (by omega),
      List.drop_append_of_le_length (by omega)]
  -- everything that was there has been taken
  have htake : p.available a = a.length := if_neg hmore
  have hle : p.data_size_ ≠ sizeUnknown → a.length ≤ p.data_size_.toNat := fun hknown =>
    Nat.le_of_not_lt fun h => hmore ⟨hknown, h⟩
  rw [available_append hle, List.take_length_add_append, List.drop_length_add_append,
    ← processData_append hle] at hboth
  rw [htake, List.take_length, List.drop_length, List.nil_append]
  by_cases hsize' : (p.processData a).data_size_ = 0
  · left
    have hnone : (p.processData a).available b = 0 := available_of_size_zero hsize' b
    rw [hboth, hnone, List.take_zero, List.drop_zero, processData_nil]
  by_cases hb : b = []
  · left
    rw [hboth, hb, List.take_nil, List.drop_nil, processData_nil]
  · exact .inr ⟨_, hboth, next_data (p := p.processData a) hresult hdata hsize' hb, hdata, hdata⟩

/-- **The parser does not depend on how the stream is cut.** -/
theorem coherent : (machine parseLeader).Coherent := by
  have hjoins : (machine parseLeader).Joins fun p p' _ => p.state_ = .data ∧ p'.state_ = .data :=
    fun _ _ _ _ b h => next_append h b
  exact hjoins.coherent

theorem process_append (p : HttpParser) (a b : Text) :
    p.process parseLeader (a ++ b) = receive parseLeader (p.process parseLeader a) b :=
  Machine.run_append coherent p a b

/-- **Pieces are received as the stream they make up.** -/
theorem receive_pieces (hempty : p.next parseLeader [] = none) (pieces : List Text) :
    pieces.foldl (receive parseLeader) (p, []) = p.process parseLeader pieces.flatten :=
  Machine.feed_pieces coherent hempty pieces

/-! ## Lines and chunks -/

def crlf : Text := ['\r', '\n']

theorem trim_cr (line : Text) : trim (line ++ ['\r']) = trim line :=
  List.rdropWhile_concat_pos _ _ _ (by decide)

theorem process_newline (hresult : p.result = none) (hstate : p.state_ ≠ .data)
    {line : Text} (hline : '\n' ∉ line) (rest : Text) :
    p.process parseLeader (line ++ '\n' :: rest) =
      (p.processLine parseLeader (trim line)).process parseLeader rest := by
  refine Machine.run_some (m := machine parseLeader) ?_
  show p.next parseLeader _ = _
  rw [next, if_neg (not_not.mpr hresult), if_pos hstate, splitFirst_append hline, Option.map_some]

theorem process_line {p : HttpParser} (hresult : p.result = none) (hstate : p.state_ ≠ .data)
    {line : Text} (hline : '\n' ∉ line) (rest : Text) :
    p.process parseLeader (line ++ crlf ++ rest) =
      (p.processLine parseLeader (trim line)).process parseLeader rest := by
  have hcr : '\n' ∉ line ++ ['\r'] := by
    rw [List.mem_append, List.mem_singleton]
    rintro (h | h)
    · exact hline h
    · exact absurd h (by decide)
  have hsplit : line ++ crlf ++ rest = (line ++ ['\r']) ++ '\n' :: rest := by
    simp only [crlf, List.append_assoc, List.cons_append, List.nil_append]
  rw [hsplit, process_newline hresult hstate hcr, trim_cr]

theorem process_data (hresult : p.result = none) (hstate : p.state_ = .data)
    (hdata : data ≠ []) (hlt : data.length < 2 ^ 64 - 1)
    (hsize : p.data_size_ = BitVec.ofNat 64 data.length) (rest : Text) :
    p.process parseLeader (data ++ rest) =
      { p with document := p.document ++ data, data_size_ := 0 }.process parseLeader rest := by
  have hnat : p.data_size_.toNat = data.length := by
    rw [hsize, BitVec.toNat_ofNat, Nat.mod_eq_of_lt (by omega)]
  have hpos := List.length_pos_of_ne_nil hdata
  have hnonzero : p.data_size_ ≠ 0 := fun h => by
    rw [h] at hnat
    exact absurd hnat (Nat.ne_of_lt hpos)
  have hknown : p.data_size_ ≠ sizeUnknown := fun h => by
    have hmax : sizeUnknown.toNat = 2 ^ 64 - 1 := by decide
    rw [h, hmax] at hnat
    omega
  have havailable : p.available (data ++ rest) = data.length := by
    rw [available, hnat, List.length_append]
    by_cases hrest : data.length + rest.length > data.length
    · exact if_pos ⟨hknown, hrest⟩
    · rw [if_neg (fun h => hrest h.2)]
      omega
  have hall : p.processData data = { p with document := p.document ++ data, data_size_ := 0 } := by
    rw [processData_known hknown, hsize, BitVec.sub_self]
    rfl
  refine Machine.run_some (m := machine parseLeader)
    ((next_data hresult hstate hnonzero (List.append_ne_nil_of_left_ne_nil hdata rest)).trans ?_)
  rw [havailable, List.take_left, List.drop_left, hall]

theorem process_chunkEnd (hresult : p.result = none) (hstate : p.state_ = .data)
    (hsize : p.data_size_ = 0) (hchunked : p.chunked_ = true) (rest : Text) :
    p.process parseLeader rest = { p with state_ := .chunkTerm }.process parseLeader rest := by
  have hdata : ¬ p.state_ ≠ .data := not_not.mpr hstate
  refine Machine.run_some (m := machine parseLeader) ?_
  show p.next parseLeader _ = _
  rw [next, if_neg (not_not.mpr hresult), if_neg hdata, if_pos hsize, if_pos hchunked]

theorem process_chunkTerm (hresult : p.result = none) (hstate : p.state_ = .data)
    (hsize : p.data_size_ = 0) (hchunked : p.chunked_ = true) (rest : Text) :
    p.process parseLeader (crlf ++ rest) =
      { p with state_ := .chunkSize }.process parseLeader rest := by
  have hline := @process_line parseLeader { p with state_ := .chunkTerm } hresult
    (fun h => State.noConfusion h) [] List.not_mem_nil rest
  rw [process_chunkEnd hresult hstate hsize hchunked, ← List.nil_append crlf, hline]
  simp [processLine, trim, hchunked]

end HttpParser

end Libjingle
