import Libjingle.Base.HttpChunkSizes

/-!
# Lines in the buffer of `HttpParser` (`base/httpbase.cc`)

`ProcessLine` hands the lines to `sscanf` and `strtoul` where they lie in the buffer. These stop
at a character that does not fit, not at the end of the line: what they see goes on with the white
space that `Process` has cut off, the rest of the buffer, and the memory behind it. The parser of
`HttpParser.lean` looks at the line only (`next`); here `nextAt` reads what lies there.

* The memory behind the buffer of a call (`behind`) may be anything; where it ends there is a NUL.
* A presentation of a stream is a list of calls: each gets some new bytes behind what the call
  before has left, with some memory behind them.

## Results

* `presentations_independent_iff`: the outcome is the same for all presentations exactly when the
  parser does not come to a content length without a value (`comesToBare`).
-/

namespace Libjingle.HttpParser

open Lib

/-! ## What the C functions see -/

/-- `ProcessLine` in the headers, with a line that is not empty and what lies behind it. -/
def processHeaderLineAt (p : HttpParser) (line behind : Text) : HttpParser :=
  (strchrn line ':').elim (p.complete .protocol) fun (name, rest) =>
    let value := rest.dropWhile isSpace
    let process (p : HttpParser) : HttpParser := { p with headers := p.headers ++ [(name, value)] }
    if matchHeader name hhContentLength then
      (scanUnsigned (value ++ behind)).elim (p.complete .protocol) fun size =>
        process { p with data_size_ := size.setWidth 64 }
    else if matchHeader name hhTransferEncoding then
      if sameIgnoringCase value "chunked".toList then process { p with chunked_ := true }
      else if sameIgnoringCase value "identity".toList then process { p with chunked_ := false }
      else p.complete .protocol
    else process p

/-- `ProcessLine`, with what lies behind the line. -/
def processLineAt (parseLeader : Text → HttpError) (p : HttpParser) (line behind : Text) :
    HttpParser :=
  match p.state_ with
  | .headers =>
    if line ≠ [] then p.processHeaderLineAt line behind
    else { p with state_ := if p.chunked_ then .chunkSize else .data }
  | .chunkSize =>
    if line ≠ [] then
      let (size, ptr) := strtoul (line ++ behind)
      let p := { p with data_size_ := size }
      if ptr.length ≠ behind.length then p.complete .protocol
      else { p with state_ := if size = 0 then .trailers else .data }
    else p.complete .protocol
  | _ => p.processLine parseLeader line

/-- A turn of the loop of `Process`, with the memory behind the buffer. -/
def nextAt (parseLeader : Text → HttpError) (behind : Text) (p : HttpParser) (buffer : Text) :
    Option (HttpParser × Text) :=
  if p.result = none ∧ p.state_ ≠ .data then
    (splitFirst '\n' buffer).map fun (line, rest) =>
      (p.processLineAt parseLeader (trim line)
        (line.rtakeWhile isSpace ++ '\n' :: (rest ++ behind)), rest)
  else p.next parseLeader buffer

variable {parseLeader : Text → HttpError}

/-! ## Where they stop -/

variable {c : Char}

variable {f : Char → Bool}

theorem takeWhile_append_stop (hc : f c = false) (s t : Text) :
    (s ++ c :: t).takeWhile f = s.takeWhile f := by
  induction s with
  | nil => exact List.takeWhile_cons_of_neg (Bool.eq_false_iff.mp hc)
  | cons d s ih =>
    rw [List.cons_append, List.takeWhile_cons, List.takeWhile_cons, ih]

theorem dropWhile_append_stop (hc : f c = false) (s t : Text) :
    (s ++ c :: t).dropWhile f = s.dropWhile f ++ c :: t := by
  induction s with
  | nil => exact List.dropWhile_cons_of_neg (Bool.eq_false_iff.mp hc)
  | cons d s ih =>
    rw [List.cons_append, List.dropWhile_cons, List.dropWhile_cons, ih]
    split
    · rfl
    · rfl

theorem isDigit_of_isSpace (h : isSpace c = true) : c.isDigit = false := by
  by_contra hdigit
  rw [isSpace_of_isDigit (Bool.not_eq_false _ ▸ hdigit)] at h
  cases h

theorem isHexDigit_of_isSpace (h : isSpace c = true) : isHexDigit c = false := by
  by_contra hdigit
  rw [isSpace_of_hexValue (Bool.not_eq_false _ ▸ hdigit)] at h
  cases h

theorem sign_append {t : Text} (ht : t ≠ []) (s : Text) :
    sign (t ++ s) = ((sign t).1, (sign t).2 ++ s) := by
  obtain ⟨c, t, rfl⟩ := List.exists_cons_of_ne_nil ht
  by_cases hminus : c = '-'
  · subst hminus
    rfl
  by_cases hplus : c = '+'
  · subst hplus
    rfl
  have hhead : ∀ u : Text, sign (c :: u) = (false, c :: u) := fun u => sign_of_head fun d hd => by
    cases hd
    exact ⟨hminus, hplus⟩
  rw [List.cons_append, hhead, hhead]
  rfl

theorem numeral_eq (s : Text) : numeral s =
    ((sign (s.dropWhile isSpace)).1, (sign (s.dropWhile isSpace)).2.takeWhile Char.isDigit) := by
  unfold numeral
  generalize s.dropWhile isSpace = t
  split
  · rfl
  · rfl
  · rename_i hminus hplus
    have hsign : sign t = (false, t) := sign_of_head fun c hc => by
      obtain ⟨u, rfl⟩ := List.head?_eq_some_iff.mp hc
      exact ⟨fun h => hminus u (by rw [h]), fun h => hplus u (by rw [h])⟩
    rw [hsign]

/-- **`sscanf` stops at white space behind a value.** -/
theorem scanUnsigned_append {c d : Char} (hc : isSpace c = false) (hd : isSpace d = true)
    (value behind : Text) :
    scanUnsigned (c :: value ++ d :: behind) = scanUnsigned (c :: value) := by
  have hnotSpace : ¬ isSpace c = true := Bool.eq_false_iff.mp hc
  have hnumeral : numeral (c :: value ++ d :: behind) = numeral (c :: value) := by
    rw [numeral_eq, numeral_eq, List.cons_append, List.dropWhile_cons_of_neg hnotSpace,
      List.dropWhile_cons_of_neg hnotSpace, ← List.cons_append,
      sign_append (List.cons_ne_nil c value), takeWhile_append_stop (isDigit_of_isSpace hd)]
  unfold scanUnsigned
  rw [hnumeral]

variable {s : Text}

theorem skipHexPrefix_of_not
    (h : ∀ x d t, s = '0' :: x :: d :: t → (x = 'x' ∨ x = 'X') → isHexDigit d = false) :
    skipHexPrefix s = s := by
  unfold skipHexPrefix
  split
  · rename_i x d t
    exact if_neg fun hx => Bool.eq_false_iff.mp (h x d t rfl hx.1) hx.2
  · rfl

theorem skipHexPrefix_space (hc : isSpace c = true) (s t : Text) :
    skipHexPrefix (s ++ c :: t) = skipHexPrefix s ++ c :: t := by
  have hdigit := isHexDigit_of_isSpace hc
  have hnot : ∀ d : Char, isSpace d = false → c ≠ d := fun d hd h => by
    rw [h, hd] at hc
    cases hc
  match s with
  | [] =>
    refine skipHexPrefix_of_not fun x d u h _ => ?_
    exact absurd (List.cons.inj h).1 (hnot '0' (by decide))
  | [a] =>
    have hshort : skipHexPrefix [a] = [a] := skipHexPrefix_of_not fun x d u h => by simp at h
    rw [hshort]
    refine skipHexPrefix_of_not fun x d u h hx => ?_
    obtain ⟨-, hcx⟩ := List.cons.inj h
    rcases hx with rfl | rfl
    · exact absurd (List.cons.inj hcx).1 (hnot 'x' (by decide))
    · exact absurd (List.cons.inj hcx).1 (hnot 'X' (by decide))
  | [a, b] =>
    have hshort : skipHexPrefix [a, b] = [a, b] := skipHexPrefix_of_not fun x d u h => by simp at h
    rw [hshort]
    refine skipHexPrefix_of_not fun x d u h _ => ?_
    obtain ⟨-, hbx⟩ := List.cons.inj h
    obtain ⟨-, hcd⟩ := List.cons.inj hbx
    rw [← (List.cons.inj hcd).1]
    exact hdigit
  | a :: b :: d :: s =>
    by_cases ha : a = '0' ∧ (b = 'x' ∨ b = 'X') ∧ isHexDigit d = true
    · obtain ⟨rfl, hb⟩ := ha
      have hskip : ∀ u : Text, skipHexPrefix ('0' :: b :: d :: u) = d :: u := fun u => if_pos hb
      rw [hskip]
      exact hskip (s ++ c :: t)
    · have hkeep : ∀ u : Text, skipHexPrefix (a :: b :: d :: u) = a :: b :: d :: u := fun u => by
        refine skipHexPrefix_of_not fun x e v h hx => ?_
        simp only [List.cons.injEq] at h
        obtain ⟨h0, rfl, rfl, -⟩ := h
        exact Bool.eq_false_iff.mpr fun hd => ha ⟨h0, hx, hd⟩
      rw [hkeep]
      exact hkeep (s ++ c :: t)

/-- **`strtoul` stops at white space behind a line**, and has then read all of it or not. -/
theorem strtoul_line {line : Text} (hline : ∃ c ∈ line, isSpace c = false)
    (hc : isSpace c = true) (behind : Text) :
    strtoul (line ++ c :: behind) = ((strtoul line).1, (strtoul line).2 ++ c :: behind) := by
  obtain ⟨d, hd, hdspace⟩ := hline
  have hne : line.dropWhile isSpace ≠ [] := fun h => by
    have hall := List.dropWhile_eq_nil_iff.mp h d hd
    rw [hdspace] at hall
    cases hall
  have hdrop : (line ++ c :: behind).dropWhile isSpace =
      line.dropWhile isSpace ++ c :: behind := by
    rw [List.dropWhile_append, if_neg (by rwa [List.isEmpty_iff])]
  have hdigit := isHexDigit_of_isSpace hc
  unfold strtoul
  dsimp only
  rw [hdrop, sign_append hne]
  dsimp only
  rw [skipHexPrefix_space hc, takeWhile_append_stop hdigit, dropWhile_append_stop hdigit]
  cases hexNumber ((skipHexPrefix (sign (line.dropWhile isSpace)).2).takeWhile isHexDigit) <;> rfl

/-! ## Content lengths without a value -/

/-- The lines of a stream that have come to their end. -/
def linesOf (s : Text) : List Text := (s.splitOn '\n').dropLast.map trim

/-- A content length without a value. -/
def bare (line : Text) : Bool :=
  (strchrn line ':').any fun (name, rest) =>
    matchHeader name hhContentLength && (rest.dropWhile isSpace).isEmpty

def taken (line : Text) : Bool :=
  (strchrn line ':').any fun (name, rest) =>
    let value := rest.dropWhile isSpace
    if matchHeader name hhContentLength then (scanUnsigned value).isSome
    else if matchHeader name hhTransferEncoding then
      sameIgnoringCase value "chunked".toList || sameIgnoringCase value "identity".toList
    else true

/-- Among the headers, as far as they are taken, there is a content length without a value. -/
def bareAmong : List Text → Bool
  | [] => false
  | line :: lines => !line.isEmpty && (bare line || (taken line && bareAmong lines))

/-- The parser comes to a content length without a value. -/
def comesToBare (parseLeader : Text → HttpError) (s : Text) : Bool :=
  match linesOf s with
  | [] => false
  | leader :: lines => parseLeader leader = .none && bareAmong lines

theorem linesOf_line {line : Text} (hline : '\n' ∉ line) (rest : Text) :
    linesOf (line ++ '\n' :: rest) = trim line :: linesOf rest := by
  rw [linesOf, splitOn_append hline, List.dropLast_cons_of_ne_nil (List.splitOn_ne_nil _ rest)]
  rfl

theorem linesOf_of_notMem (h : '\n' ∉ s) : linesOf s = [] := by
  rw [linesOf, List.splitOn_eq_singleton h]
  rfl

theorem bare_eq_true_iff {line : Text} : bare line = true ↔ ∃ name rest,
    strchrn line ':' = some (name, rest) ∧ matchHeader name hhContentLength = true ∧
      rest.dropWhile isSpace = [] := by
  unfold bare
  cases strchrn line ':' with
  | none => exact ⟨fun h => (Bool.false_ne_true h).elim, fun ⟨_, _, h, _⟩ => nomatch h⟩
  | some field =>
    rw [Option.any_some, Bool.and_eq_true, List.isEmpty_iff]
    constructor
    · exact fun h => ⟨field.1, field.2, rfl, h⟩
    · rintro ⟨name, rest, heq, h⟩
      cases heq
      exact h

theorem processHeaderLine_cases (p : HttpParser) (line : Text) :
    (taken line = true ∧ ∃ chunked size header, p.processHeaderLine line =
      { p with chunked_ := chunked, data_size_ := size, headers := p.headers ++ [header] }) ∨
    (taken line = false ∧ p.processHeaderLine line = p.complete .protocol) := by
  unfold processHeaderLine taken
  cases strchrn line ':' with
  | none => exact .inr ⟨rfl, rfl⟩
  | some field =>
    dsimp only [Option.elim_some, Option.any_some]
    split
    · cases scanUnsigned (field.2.dropWhile isSpace) with
      | none => exact .inr ⟨rfl, rfl⟩
      | some size => exact .inl ⟨rfl, _, _, _, rfl⟩
    split
    · cases sameIgnoringCase (field.2.dropWhile isSpace) "chunked".toList with
      | true => exact .inl ⟨rfl, _, _, _, rfl⟩
      | false =>
        cases sameIgnoringCase (field.2.dropWhile isSpace) "identity".toList with
        | true => exact .inl ⟨rfl, _, _, _, rfl⟩
        | false => exact .inr ⟨rfl, rfl⟩
    · exact .inl ⟨rfl, _, _, _, rfl⟩

/-- With a value, `sscanf` reads the same as on the line. -/
theorem processHeaderLineAt_eq (p : HttpParser) {line : Text} (hline : bare line = false)
    (hc : isSpace c = true) (behind : Text) :
    p.processHeaderLineAt line (c :: behind) = p.processHeaderLine line := by
  unfold processHeaderLineAt processHeaderLine
  cases hsplit : strchrn line ':' with
  | none => rfl
  | some field =>
    obtain ⟨name, rest⟩ := field
    dsimp only [Option.elim_some]
    by_cases hname : matchHeader name hhContentLength = true
    · rw [if_pos hname, if_pos hname]
      cases hvalue : rest.dropWhile isSpace with
      | nil =>
        have hbare := bare_eq_true_iff.mpr ⟨name, rest, hsplit, hname, hvalue⟩
        rw [hline] at hbare
        cases hbare
      | cons d value =>
        have hd := List.head?_dropWhile_not isSpace rest
        rw [hvalue] at hd
        rw [scanUnsigned_append (by simpa using hd) hc]
    · rw [if_neg hname, if_neg hname]

variable {p : HttpParser}

/-- `ProcessLine` reads the same as on the line, unless that is a content length without a value. -/
theorem processLineAt_eq {line : Text}
    (hline : p.state_ = .headers → bare (trim line) = false) (hc : isSpace c = true)
    (behind : Text) : p.processLineAt parseLeader (trim line) (c :: behind) =
      p.processLine parseLeader (trim line) := by
  unfold processLineAt
  cases hstate : p.state_ with
  | headers =>
    dsimp only
    rw [processHeaderLineAt_eq p (hline hstate) hc, processLine, hstate]
  | chunkSize =>
    dsimp only
    rw [processLine, hstate]
    by_cases hempty : trim line = []
    · rw [if_neg (not_not.mpr hempty), hempty]
      rfl
    · have hlast : isSpace ((trim line).getLast hempty) = false :=
        Bool.eq_false_iff.mpr (List.rdropWhile_last_not isSpace line hempty)
      have hptr : ((strtoul (trim line)).2 ++ c :: behind).length ≠ (c :: behind).length ↔
          (strtoul (trim line)).2 ≠ [] := by simp
      rw [if_pos hempty, strtoul_line ⟨_, List.getLast_mem hempty, hlast⟩ hc behind]
      simp only [hptr, if_pos hempty]
  | _ => rfl

theorem behind_line (line rest : Text) : ∃ c t,
    line.rtakeWhile isSpace ++ '\n' :: rest = c :: t ∧ isSpace c = true := by
  cases h : line.rtakeWhile isSpace with
  | nil => exact ⟨'\n', rest, rfl, by decide⟩
  | cons c t => exact ⟨c, _, rfl, List.mem_rtakeWhile_imp (h ▸ List.mem_cons_self)⟩

/-! ## Presentations -/

/-- `ProcessLeader`, `ProcessHeader` and `ProcessHeaderComplete`, with what they are given. -/
inductive Callback
  | leader (line : Text)
  | header (name value : Text)
  | headerComplete (chunked : Bool) (dataSize : U64)
deriving DecidableEq

def callbacks (p p' : HttpParser) : List Callback :=
  match p.state_ with
  | .leader => [.leader p'.leader]
  | .headers =>
    if p'.state_ = .headers then
      (p'.headers.drop p.headers.length).map fun (name, value) => .header name value
    else [.headerComplete p.chunked_ p.data_size_]
  | _ => []

variable {p' : HttpParser}

theorem nextAt_decreases (behind : Text) {buffer rest : Text}
    (h : p.nextAt parseLeader behind buffer = some (p', rest)) :
    rest.length < buffer.length ∨ (rest.length = buffer.length ∧ p'.weight < p.weight) := by
  unfold nextAt at h
  split at h
  · obtain ⟨⟨line, rest'⟩, hsplit, heq⟩ := Option.map_eq_some_iff.mp h
    cases heq
    exact .inl (splitFirst_length hsplit)
  · exact next_decreases parseLeader h

variable (parseLeader)

/-- `Process` with the memory behind the buffer. -/
def machineAt (behind : Text) : Machine HttpParser Char where
  next := nextAt parseLeader behind
  weight := weight
  decreases := nextAt_decreases behind

/-- The stream in calls, each with the new bytes and the memory behind them: the parser, the
callbacks and what is left in the buffer. -/
def received (calls : List (Text × Text)) : (HttpParser × List Callback) × Text :=
  calls.foldl (fun q call => ((machineAt parseLeader call.2).logged callbacks).feed q call.1)
    ((reset, []), [])

/-- What can be seen of a parser: the callbacks, the document and the result. -/
def outcome (q : (HttpParser × List Callback) × Text) :
    List Callback × Text × Option HttpError :=
  (q.1.2, q.1.1.document, q.1.1.result)

/-- However the stream is presented, the outcome is that of a parser that looks at lines only. -/
structure Independent (s : Text) : Prop where
  same : ∀ calls calls' : List (Text × Text), (calls.map Prod.fst).flatten = s →
    (calls'.map Prod.fst).flatten = s →
      outcome (received parseLeader calls) = outcome (received parseLeader calls')
  lines : ∀ calls : List (Text × Text), (calls.map Prod.fst).flatten = s →
    outcome (received parseLeader calls) =
      outcome (((machine parseLeader).logged callbacks).run (reset, []) s)

/-- The parser comes to a content length without a value in what is still to come. -/
def Comes (p : HttpParser) (s : Text) : Prop :=
  p.result = none ∧
    ((p.state_ = .leader ∧ comesToBare parseLeader s = true) ∨
      (p.state_ = .headers ∧ bareAmong (linesOf s) = true))

variable {parseLeader}

theorem not_comes_complete (p : HttpParser) (error : HttpError) (s : Text) :
    ¬ (p.complete error).Comes parseLeader s := fun h => absurd h.1 (Option.some_ne_none error)

theorem not_comes_of_state (hleader : p.state_ ≠ .leader)
    (hheaders : p.state_ ≠ .headers) (s : Text) : ¬ p.Comes parseLeader s := by
  rintro ⟨-, ⟨h, -⟩ | ⟨h, -⟩⟩
  · exact hleader h
  · exact hheaders h

theorem not_comes_processLine (hleader : p.state_ ≠ .leader)
    (hheaders : p.state_ ≠ .headers) (line s : Text) :
    ¬ (p.processLine parseLeader line).Comes parseLeader s := by
  unfold processLine
  cases hstate : p.state_ with
  | leader => exact absurd hstate hleader
  | headers => exact absurd hstate hheaders
  | chunkSize =>
    dsimp only
    split
    · split
      · exact not_comes_complete _ .protocol s
      · split
        · exact not_comes_of_state (fun h => State.noConfusion h) (fun h => State.noConfusion h) s
        · exact not_comes_of_state (fun h => State.noConfusion h) (fun h => State.noConfusion h) s
    · exact not_comes_complete p .protocol s
  | chunkTerm =>
    dsimp only
    split
    · exact not_comes_complete p .protocol s
    · split
      · exact not_comes_of_state (fun h => State.noConfusion h) (fun h => State.noConfusion h) s
      · exact not_comes_of_state (fun h => State.noConfusion h) (fun h => State.noConfusion h) s
  | trailers =>
    dsimp only
    split
    · exact not_comes_complete p .none s
    · exact not_comes_of_state hleader hheaders s
  | data => exact not_comes_of_state hleader hheaders s

theorem comes_line (hresult : p.result = none) {line : Text} (hline : '\n' ∉ line)
    (rest : Text) : p.Comes parseLeader (line ++ '\n' :: rest) ↔
      (p.state_ = .headers ∧ bare (trim line) = true) ∨
        (p.processLine parseLeader (trim line)).Comes parseLeader rest := by
  by_cases hleader : p.state_ = .leader
  · have hheaders : p.state_ ≠ .headers := fun h => State.noConfusion (hleader.symm.trans h)
    have hcomes : p.Comes parseLeader (line ++ '\n' :: rest) ↔
        parseLeader (trim line) = .none ∧ bareAmong (linesOf rest) = true := by
      rw [Comes, comesToBare, linesOf_line hline, Bool.and_eq_true, decide_eq_true_eq]
      simp [hresult, hleader]
    rw [hcomes, processLine, hleader]
    dsimp only
    split
    · rename_i haccepted
      simp [Comes, hresult, haccepted]
    · rename_i hrefused
      simp [Comes, complete, hrefused]
  by_cases hheaders : p.state_ = .headers
  swap
  · refine iff_of_false (not_comes_of_state hleader hheaders _) ?_
    rintro (⟨h, -⟩ | h)
    · exact hheaders h
    · exact not_comes_processLine hleader hheaders _ _ h
  have hcomes : p.Comes parseLeader (line ++ '\n' :: rest) ↔ trim line ≠ [] ∧
      (bare (trim line) = true ∨ (taken (trim line) = true ∧ bareAmong (linesOf rest) = true)) := by
    rw [Comes, linesOf_line hline, bareAmong]
    simp [hresult, hheaders]
  rw [hcomes, processLine, hheaders]
  dsimp only
  by_cases hempty : trim line = []
  · have hbare : bare [] = false := rfl
    rw [hempty, if_neg (not_not.mpr rfl), hbare]
    refine iff_of_false (fun h => h.1 rfl) ?_
    rintro (⟨-, h⟩ | h)
    · cases h
    · split at h
      · exact not_comes_of_state (fun h => State.noConfusion h) (fun h => State.noConfusion h) _ h
      · exact not_comes_of_state (fun h => State.noConfusion h) (fun h => State.noConfusion h) _ h
  rw [if_pos hempty]
  rcases processHeaderLine_cases p (trim line) with
    ⟨htaken, chunked, size, header, heq⟩ | ⟨htaken, heq⟩
  · rw [heq]
    simp [Comes, hresult, hheaders, htaken, hempty]
  · rw [heq, htaken]
    simp [Comes, complete, hempty]

theorem not_data_of_comes (h : p.Comes parseLeader s) : p.state_ ≠ .data := by
  rintro hdata
  rcases h.2 with ⟨hstate, -⟩ | ⟨hstate, -⟩
  · exact State.noConfusion (hdata.symm.trans hstate)
  · exact State.noConfusion (hdata.symm.trans hstate)

theorem nextAt_line (hresult : p.result = none) (hstate : p.state_ ≠ .data)
    {line : Text} (hline : '\n' ∉ line) (rest behind : Text) :
    p.nextAt parseLeader behind (line ++ '\n' :: rest) =
      some (p.processLineAt parseLeader (trim line)
        (line.rtakeWhile isSpace ++ '\n' :: (rest ++ behind)), rest) := by
  rw [nextAt, if_pos ⟨hresult, hstate⟩, splitFirst_append hline, Option.map_some]

theorem nextAt_line_eq (hresult : p.result = none) (hstate : p.state_ ≠ .data)
    {line : Text} (hline : '\n' ∉ line) (hbare : ¬ (p.state_ = .headers ∧ bare (trim line) = true))
    (rest behind : Text) : p.nextAt parseLeader behind (line ++ '\n' :: rest) =
      some (p.processLine parseLeader (trim line), rest) := by
  obtain ⟨c, t, hct, hc⟩ := behind_line line (rest ++ behind)
  have hvalue : p.state_ = .headers → bare (trim line) = false := fun h =>
    Bool.eq_false_iff.mpr fun h' => hbare ⟨h, h'⟩
  rw [nextAt_line hresult hstate hline, hct, processLineAt_eq hvalue hc]

theorem nextAt_agrees (behind : Text) {a future : Text} (h : ¬ p.Comes parseLeader (a ++ future)) :
    p.nextAt parseLeader behind a = p.next parseLeader a := by
  by_cases hturn : p.result = none ∧ p.state_ ≠ .data
  swap
  · exact if_neg hturn
  obtain ⟨hresult, hstate⟩ := hturn
  cases hsplit : splitFirst '\n' a with
  | none =>
    rw [nextAt, if_pos ⟨hresult, hstate⟩, next, if_neg (not_not.mpr hresult), if_pos hstate, hsplit]
    rfl
  | some q =>
    obtain ⟨line, rest⟩ := q
    obtain ⟨rfl, hline⟩ := eq_append_of_splitFirst hsplit
    rw [List.append_assoc, List.cons_append, comes_line hresult hline, not_or] at h
    rw [nextAt_line_eq hresult hstate hline h.1, next, if_neg (not_not.mpr hresult), if_pos hstate,
      splitFirst_append hline, Option.map_some]

theorem comes_of_next {a r future : Text}
    (hnext : p.next parseLeader a = some (p', r)) (h : p'.Comes parseLeader (r ++ future)) :
    p.Comes parseLeader (a ++ future) := by
  by_cases hresult : p.result = none
  swap
  · rw [next, if_pos hresult] at hnext
    cases hnext
  rw [next, if_neg (not_not.mpr hresult)] at hnext
  by_cases hdata : p.state_ = .data
  · -- behind the headers the parser does not come back to them
    rw [if_neg (not_not.mpr hdata)] at hnext
    split at hnext
    · split at hnext
      · cases hnext
        exact absurd h (not_comes_of_state (fun h => State.noConfusion h)
          (fun h => State.noConfusion h) _)
      · cases hnext
        exact absurd h (not_comes_complete p .none _)
    split at hnext
    · cases hnext
    · cases hnext
      exact absurd hdata (not_data_of_comes (p := p.processData _) h)
  · rw [if_pos hdata] at hnext
    obtain ⟨⟨line, rest⟩, hsplit, heq⟩ := Option.map_eq_some_iff.mp hnext
    cases heq
    obtain ⟨rfl, hline⟩ := eq_append_of_splitFirst hsplit
    rw [List.append_assoc, List.cons_append, comes_line hresult hline]
    exact .inr h

theorem logged_coherent : ((machine parseLeader).logged callbacks).Coherent := by
  refine Machine.logged_coherent fun p a p' r b h => ?_
  rcases next_append h b with hsame | ⟨q, hboth, hsecond, hp, hp'⟩
  · exact .inl hsame
  · refine .inr ⟨q, hboth, hsecond, ?_⟩
    have hnone : ∀ p q : HttpParser, p.state_ = .data → callbacks p q = [] := fun p q h => by
      unfold callbacks
      rw [h]
    show callbacks p q.1 = callbacks p p' ++ callbacks p' q.1
    rw [hnone p _ hp, hnone p _ hp, hnone p' _ hp']
    rfl

/-- **Without such a content length**, what is received is what a parser makes of the stream that
looks at the lines only. -/
theorem received_eq (h : comesToBare parseLeader s = false) {calls : List (Text × Text)}
    (hcalls : (calls.map Prod.fst).flatten = s) :
    received parseLeader calls = ((machine parseLeader).logged callbacks).run (reset, []) s := by
  have hstart : ¬ reset.Comes parseLeader ([] ++ (calls.map Prod.fst).flatten) := by
    rintro ⟨-, ⟨-, hcomes⟩ | ⟨hheaders, -⟩⟩
    · rw [List.nil_append, hcalls, h] at hcomes
      cases hcomes
    · cases hheaders
  have hnone : ((machine parseLeader).logged callbacks).next (reset, []) [] = none := rfl
  have hpieces := Machine.feed_pieces logged_coherent hnone (calls.map Prod.fst)
  rw [List.nil_append, hcalls] at hpieces
  refine (Machine.feeds_agree ((machine parseLeader).logged callbacks)
    (fun behind => (machineAt parseLeader behind).logged callbacks)
    (fun q t => ¬ q.1.Comes parseLeader t) ?_ ?_ calls hstart).trans hpieces
  · intro q a q' r future hq hnext hq'
    obtain ⟨⟨p', r'⟩, hturn, heq⟩ := Option.map_eq_some_iff.mp hnext
    cases heq
    exact hq (comes_of_next hturn hq')
  · intro behind q a future hq
    exact congrArg (Option.map _) (nextAt_agrees behind hq)

/-! ## What a missing value makes of the memory -/

theorem Comes.line (h : p.Comes parseLeader s) :
    ∃ line rest, s = line ++ '\n' :: rest ∧ '\n' ∉ line := by
  cases hsplit : splitFirst '\n' s with
  | none =>
    have hlines := linesOf_of_notMem (notMem_of_splitFirst_none hsplit)
    rcases h.2 with ⟨-, h⟩ | ⟨-, h⟩
    · rw [comesToBare, hlines] at h
      cases h
    · rw [hlines] at h
      cases h
  | some q => exact ⟨q.1, q.2, eq_append_of_splitFirst hsplit⟩

theorem Comes.reaches (h : p.Comes parseLeader s)
    (log : List Callback) : ∃ front line rest, s = front ++ (line ++ '\n' :: rest) ∧ '\n' ∉ line ∧
      bare (trim line) = true ∧ ∃ q : HttpParser × List Callback, q.1.result = none ∧
        q.1.state_ = .headers ∧ ∀ behind,
          ((machineAt parseLeader behind).logged callbacks).run (p, log)
              (front ++ (line ++ ['\n'])) =
            ((machineAt parseLeader behind).logged callbacks).run q (line ++ ['\n']) := by
  induction hlength : s.length using Nat.strong_induction_on generalizing p s log with
  | _ n ih =>
    obtain ⟨line, rest, rfl, hline⟩ := h.line
    by_cases hbare : p.state_ = .headers ∧ bare (trim line) = true
    · exact ⟨[], line, rest, rfl, hline, hbare.2, (p, log), h.1, hbare.1, fun _ => rfl⟩
    · have hafter := ((comes_line h.1 hline rest).mp h).resolve_left hbare
      have hlt : rest.length < n := by
        rw [← hlength, List.length_append, List.length_cons]
        omega
      obtain ⟨front, line', rest', rfl, hline', hbare', q, hresult, hstate, hrun⟩ :=
        ih _ hlt hafter (log ++ callbacks p (p.processLine parseLeader (trim line))) rfl
      refine ⟨line ++ '\n' :: front, line', rest', ?_, hline', hbare', q, hresult, hstate,
        fun behind => ?_⟩
      · rw [List.append_assoc, List.cons_append]
      · have hturn : (machineAt parseLeader behind).next p
            (line ++ '\n' :: (front ++ (line' ++ ['\n']))) =
              some (p.processLine parseLeader (trim line), front ++ (line' ++ ['\n'])) :=
          nextAt_line_eq h.1 (not_data_of_comes h) hline hbare _ behind
        rw [List.append_assoc, List.cons_append, ← hrun behind]
        exact Machine.run_some (Machine.logged_next hturn log)

theorem scanUnsigned_space {blank : Text} (hblank : ∀ c ∈ blank, isSpace c = true) (s : Text) :
    scanUnsigned (blank ++ s) = scanUnsigned s := by
  have hnumeral : numeral (blank ++ s) = numeral s := by
    rw [numeral_eq, numeral_eq, List.dropWhile_append_of_pos hblank]
  unfold scanUnsigned
  rw [hnumeral]

/-- At a content length without a value at the end of the buffer, `sscanf` reads the memory behind
it. -/
theorem nextAt_bare {p : HttpParser} (hresult : p.result = none) (hstate : p.state_ = .headers)
    {line : Text} (hline : '\n' ∉ line) (hbare : bare (trim line) = true) : ∃ name, ∀ behind,
      p.nextAt parseLeader behind (line ++ ['\n']) =
        some ((scanUnsigned behind).elim (p.complete .protocol) fun size =>
          { p with data_size_ := size.setWidth 64, headers := p.headers ++ [(name, [])] }, []) := by
  obtain ⟨name, rest, hsplit, hname, hvalue⟩ := bare_eq_true_iff.mp hbare
  have hempty : trim line ≠ [] := fun h => by
    rw [h] at hsplit
    cases hsplit
  have hdata : p.state_ ≠ .data := fun h => State.noConfusion (hstate.symm.trans h)
  refine ⟨name, fun behind => ?_⟩
  have hblank : ∀ c ∈ line.rtakeWhile isSpace ++ ['\n'], isSpace c = true := by
    intro c hc
    rw [List.mem_append, List.mem_singleton] at hc
    rcases hc with hc | rfl
    · exact List.mem_rtakeWhile_imp hc
    · decide
  have hscan : scanUnsigned (line.rtakeWhile isSpace ++ '\n' :: ([] ++ behind)) =
      scanUnsigned behind := by
    rw [← scanUnsigned_space hblank behind, List.append_assoc]
    rfl
  have hheader : p.processLineAt parseLeader (trim line)
      (line.rtakeWhile isSpace ++ '\n' :: ([] ++ behind)) =
        p.processHeaderLineAt (trim line) (line.rtakeWhile isSpace ++ '\n' :: ([] ++ behind)) := by
    unfold processLineAt
    rw [hstate]
    exact if_pos hempty
  rw [nextAt_line hresult hdata hline [] behind, hheader, processHeaderLineAt, hsplit,
    Option.elim_some]
  dsimp only
  rw [if_pos hname, hvalue, List.nil_append, hscan]

theorem received_two (s t behind : Text) : received parseLeader [(s, behind), (t, [])] =
    ((machineAt parseLeader []).logged callbacks).feed
      (((machineAt parseLeader behind).logged callbacks).run (reset, []) s) t := rfl

theorem run_complete (behind : Text) (p : HttpParser) (error : HttpError) (log : List Callback)
    (s : Text) : ((machineAt parseLeader behind).logged callbacks).run (p.complete error, log) s =
      ((p.complete error, log), s) := by
  have hnone : (machineAt parseLeader behind).next (p.complete error) s = none := by
    show (p.complete error).nextAt parseLeader behind s = none
    rw [nextAt, if_neg fun h => Option.some_ne_none _ h.1]
    exact if_pos (Option.some_ne_none error)
  exact Machine.run_none (Machine.logged_none hnone log)

theorem callbacks_headers (hstate : p.state_ = .headers)
    (hstate' : p'.state_ = .headers) {more : List HttpHeaderField}
    (hmore : p'.headers = p.headers ++ more) :
    callbacks p p' = more.map fun (name, value) => .header name value := by
  unfold callbacks
  rw [hstate]
  dsimp only
  rw [if_pos hstate', hmore, List.drop_left]

/-- **With such a content length**, the stream up to the end of its line is received differently
with a digit behind it and with nothing. -/
theorem received_differs (h : comesToBare parseLeader s = true) :
    ∃ t u, t ++ u = s ∧ outcome (received parseLeader [(t, []), (u, [])]) ≠
      outcome (received parseLeader [(t, ['0']), (u, [])]) := by
  have hcomes : reset.Comes parseLeader s := ⟨rfl, .inl ⟨rfl, h⟩⟩
  obtain ⟨front, line, rest, rfl, hline, hbare, ⟨p, log⟩, hresult, hstate, hrun⟩ :=
    hcomes.reaches []
  obtain ⟨name, hturn⟩ := @nextAt_bare parseLeader p hresult hstate line hline hbare
  refine ⟨front ++ (line ++ ['\n']), rest, by simp, fun heq => ?_⟩
  have hlogs : (received parseLeader [(front ++ (line ++ ['\n']), []), (rest, [])]).1.2 =
      (received parseLeader [(front ++ (line ++ ['\n']), ['0']), (rest, [])]).1.2 :=
    congrArg Prod.fst heq
  rw [received_two, received_two, hrun, hrun] at hlogs
  -- with nothing behind it the line is an error
  have herror : callbacks p (p.complete .protocol) = [] :=
    callbacks_headers hstate hstate (List.append_nil _).symm
  have hended : ((machineAt parseLeader []).logged callbacks).run (p, log) (line ++ ['\n']) =
      ((p.complete .protocol, log), []) := by
    have hnext : (machineAt parseLeader []).next p (line ++ ['\n']) =
        some (p.complete .protocol, []) := hturn []
    rw [Machine.run_some (Machine.logged_next hnext log), herror, List.append_nil, run_complete]
  have hfed : (((machineAt parseLeader []).logged callbacks).feed
      ((p.complete .protocol, log), []) rest).1.2 = log :=
    congrArg (fun q => q.1.2) (run_complete [] p .protocol log ([] ++ rest))
  rw [hended, hfed] at hlogs
  -- with a digit behind it, it is a header
  let p' : HttpParser := { p with data_size_ := 0, headers := p.headers ++ [(name, [])] }
  have hstate' : p'.state_ = .headers := hstate
  have hmore : p'.headers = p.headers ++ [(name, [])] := rfl
  have hheader : callbacks p p' = [.header name []] := callbacks_headers hstate hstate' hmore
  have hgrows : log ++ [.header name []] <+:
      (((machineAt parseLeader ['0']).logged callbacks).run (p, log) (line ++ ['\n'])).1.2 := by
    have hnext : (machineAt parseLeader ['0']).next p (line ++ ['\n']) = some (p', []) :=
      hturn ['0']
    rw [Machine.run_some (Machine.logged_next hnext log), hheader]
    exact Machine.log_prefix (p', log ++ [.header name []]) []
  have hfeeds : ∀ q : (HttpParser × List Callback) × Text,
      q.1.2 <+: (((machineAt parseLeader []).logged callbacks).feed q rest).1.2 :=
    fun q => Machine.log_prefix q.1 (q.2 ++ rest)
  have hlonger := (hgrows.trans (hfeeds _)).length_le
  rw [← hlogs, List.length_append, List.length_singleton] at hlonger
  omega

/-- **Independence of the cut**: the outcome is the same for all presentations exactly when the
parser does not come to a content length without a value. -/
theorem presentations_independent_iff (parseLeader : Text → HttpError) (s : Text) :
    Independent parseLeader s ↔ comesToBare parseLeader s = false := by
  constructor
  · intro h
    by_contra hbare
    obtain ⟨t, u, hs, hdiffers⟩ := received_differs (Bool.not_eq_false _ ▸ hbare)
    exact hdiffers (h.same _ _ (by simp [hs]) (by simp [hs]))
  · intro h
    refine ⟨fun calls calls' hcalls hcalls' => ?_, fun calls hcalls => ?_⟩
    · rw [received_eq h hcalls, received_eq h hcalls']
    · rw [received_eq h hcalls]

/-- A message with a content length without a value in front of another header. -/
def bareHead : Text := "HTTP/1.1 200\r\nContent-Length:\r\n".toList
def bareTail : Text := "5: x\r\n\r\nhello".toList

/-- The parser with a NUL behind each buffer. -/
def terminated : Machine (HttpParser × List Callback) Char :=
  (machineAt (fun _ => .none) []).logged callbacks

theorem received_steps (n k : Nat) {s t : Text} {q : (HttpParser × List Callback) × Text}
    (hq : terminated.steps n ((reset, []), s) = q) (hfirst : terminated.next q.1 q.2 = none)
    (hsecond : terminated.next (terminated.steps k (q.1, q.2 ++ t)).1
      (terminated.steps k (q.1, q.2 ++ t)).2 = none) :
    received (fun _ => .none) [(s, []), (t, [])] = terminated.steps k (q.1, q.2 ++ t) := by
  have hrun : terminated.run (reset, []) s = q := by
    rw [← hq] at hfirst ⊢
    exact Machine.run_eq_steps (p := ((reset, []), s)) hfirst
  have hfeed := Machine.run_eq_steps (p := (q.1, q.2 ++ t)) hsecond
  rw [received_two]
  show terminated.feed (terminated.run (reset, []) s) t = _
  rw [hrun]
  exact hfeed

theorem cut_at_bare :
    outcome (received (fun _ => .none) [(bareHead ++ bareTail, []), ([], [])]) =
        ([.leader "HTTP/1.1 200".toList, .header hhContentLength [], .header ['5'] ['x'],
          .headerComplete false 5], "hello".toList, some .none) ∧
      outcome (received (fun _ => .none) [(bareHead, []), (bareTail, [])]) =
        ([.leader "HTTP/1.1 200".toList], [], some .protocol) ∧
      ¬ Independent (fun _ => .none) (bareHead ++ bareTail) := by
  have hwhole : outcome (received (fun _ => .none) [(bareHead ++ bareTail, []), ([], [])]) =
      ([.leader "HTTP/1.1 200".toList, .header hhContentLength [], .header ['5'] ['x'],
        .headerComplete false 5], "hello".toList, some .none) := by
    rw [received_steps 6 0 rfl (by decide +kernel) (by decide +kernel)]
    decide +kernel
  have hcut : outcome (received (fun _ => .none) [(bareHead, []), (bareTail, [])]) =
      ([.leader "HTTP/1.1 200".toList], [], some .protocol) := by
    rw [received_steps 2 0 rfl (by decide +kernel) (by decide +kernel)]
    decide +kernel
  refine ⟨hwhole, hcut, fun h => ?_⟩
  have hsame := h.same [(bareHead ++ bareTail, []), ([], [])] [(bareHead, []), (bareTail, [])]
    (by simp) (by simp)
  rw [hwhole, hcut] at hsame
  exact absurd hsame (by decide)

end Libjingle.HttpParser
