import Libjingle.Base.HttpBase

/-!
# Chunked transfer (`base/httpbase.cc`)

What `HttpBase` writes in chunked mode is what an `HttpParser` reads: a leader, header lines, the
blocks of the document as chunks, and the last chunk.

## Results

* `Sending.chunked_round_trip`: over every run, in any pieces.
-/

namespace Libjingle.HttpBase

open Lib HttpParser

variable {parseLeader : Text → HttpError}

/-! ## The size of a chunk -/

theorem hexValue_digitChar {d : Nat} (h : d < 16) : hexValue (Nat.digitChar d) = some d := by
  have hall : ∀ d < 16, hexValue (Nat.digitChar d) = some d := by decide
  exact hall d h

theorem mapM_hexDigits (k n : Nat) : ∃ values, (hexDigits k n).mapM hexValue = some values ∧
    values.foldl (fun a d => a * 16 + d) 0 = n % 16 ^ k := by
  induction k generalizing n with
  | zero => exact ⟨[], rfl, (Nat.mod_one n).symm⟩
  | succ k ih =>
    obtain ⟨values, hvalues, hfold⟩ := ih (n / 16)
    have hdigit : hexValue (Nat.digitChar (n % 16)) = some (n % 16) :=
      hexValue_digitChar (Nat.mod_lt n (by decide))
    refine ⟨values ++ [n % 16], ?_, ?_⟩
    · rw [hexDigits, List.mapM_append, hvalues, List.mapM_cons, hdigit]
      rfl
    · rw [List.foldl_append, hfold, List.foldl_cons, List.foldl_nil, Nat.pow_succ',
        Nat.mod_mul, Nat.mul_comm, Nat.add_comm]

theorem mem_hexDigits {k n : Nat} {c : Char} (h : c ∈ hexDigits k n) :
    ∃ d < 16, c = Nat.digitChar d := by
  induction k generalizing n with
  | zero => exact absurd h List.not_mem_nil
  | succ k ih =>
    rw [hexDigits, List.mem_append, List.mem_singleton] at h
    rcases h with h | rfl
    · exact ih h
    · exact ⟨n % 16, Nat.mod_lt n (by decide), rfl⟩

theorem digitChar_plain {d : Nat} (h : d < 16) : isSpace (Nat.digitChar d) = false ∧
    Nat.digitChar d ≠ '-' ∧ Nat.digitChar d ≠ '+' ∧ Nat.digitChar d ≠ 'x' ∧
    Nat.digitChar d ≠ 'X' ∧ Nat.digitChar d ≠ '\n' := by
  have hall : ∀ d < 16, isSpace (Nat.digitChar d) = false ∧ Nat.digitChar d ≠ '-' ∧
      Nat.digitChar d ≠ '+' ∧ Nat.digitChar d ≠ 'x' ∧ Nat.digitChar d ≠ 'X' ∧
      Nat.digitChar d ≠ '\n' := by decide
  exact hall d h

variable {s : Text}

theorem sign_digits (h : ∀ c ∈ s, ∃ d < 16, c = Nat.digitChar d) : sign s = (false, s) := by
  unfold sign
  split
  · obtain ⟨d, hd, heq⟩ := h _ List.mem_cons_self
    exact absurd heq.symm (digitChar_plain hd).2.1
  · obtain ⟨d, hd, heq⟩ := h _ List.mem_cons_self
    exact absurd heq.symm (digitChar_plain hd).2.2.1
  · rfl

theorem skipHexPrefix_digits (h : ∀ c ∈ s, ∃ d < 16, c = Nat.digitChar d) :
    skipHexPrefix s = s := by
  unfold skipHexPrefix
  split
  · rename_i x d t
    obtain ⟨e, he, heq⟩ := h x (List.mem_cons_of_mem _ List.mem_cons_self)
    have hplain := digitChar_plain he
    rw [if_neg]
    rintro ⟨rfl | rfl, -⟩
    · exact hplain.2.2.2.1 heq.symm
    · exact hplain.2.2.2.2.1 heq.symm
  · rfl

theorem dropWhile_isSpace (h : ∀ c ∈ s, isSpace c = false) : s.dropWhile isSpace = s := by
  cases s with
  | nil => rfl
  | cons c s =>
    exact List.dropWhile_cons_of_neg (Bool.eq_false_iff.mp (h c List.mem_cons_self))

theorem rdropWhile_isSpace (h : ∀ c ∈ s, isSpace c = false) : trim s = s :=
  List.rdropWhile_eq_self_iff.mpr fun hne =>
    Bool.eq_false_iff.mp (h _ (List.getLast_mem hne))

theorem isSpace_hexDigits (k n : Nat) : ∀ c ∈ hexDigits k n, isSpace c = false := by
  intro c hc
  obtain ⟨d, hd, rfl⟩ := mem_hexDigits hc
  exact (digitChar_plain hd).1

/-- **The size of a chunk is read as it was printed.** -/
theorem wholeNumber_hexDigits {k n : Nat} (hk : 0 < k) (hn : n < 16 ^ k) (hlt : n < 2 ^ 64) :
    wholeNumber (hexDigits k n) = some (BitVec.ofNat 64 n) := by
  have hdigits : ∀ c ∈ hexDigits k n, ∃ d < 16, c = Nat.digitChar d := fun _ => mem_hexDigits
  have hne : hexDigits k n ≠ [] := fun hnil => by
    have hlen := length_hexDigits k n
    rw [hnil, List.length_nil] at hlen
    omega
  obtain ⟨values, hvalues, hfold⟩ := mapM_hexDigits k n
  rw [Nat.mod_eq_of_lt hn] at hfold
  unfold wholeNumber hexNumber
  rw [dropWhile_isSpace (isSpace_hexDigits k n), sign_digits hdigits]
  simp only [skipHexPrefix_digits hdigits]
  rw [if_neg hne, hvalues, Option.map_some, hfold, Option.map_some, clamp, if_neg (by omega),
    if_neg Bool.false_ne_true]

/-! ## Headers -/

/-- A header whose name has no colon and no white space, and whose value is one line without white
space around it; its line leaves room for another one, and it is not a content length. -/
def Plain (h : HttpHeaderField) : Prop :=
  ':' ∉ h.1 ∧ (∀ c ∈ h.1, isSpace c = false) ∧ nul ∉ h.2 ∧ '\n' ∉ h.2 ∧ '\r' ∉ h.2 ∧
    h.2.dropWhile isSpace = h.2 ∧ trim h.2 = h.2 ∧ matchHeader h.1 hhContentLength = false ∧ Fits h

instance : DecidablePred Plain := fun h =>
  have : Decidable (∀ c ∈ h.1, isSpace c = false) := List.decidableBAll _ _
  inferInstanceAs (Decidable (_ ∧ _))

/-- `"%.*s"` prints all of the name, and a transfer encoding is one that the parser knows. -/
def Readable (h : HttpHeaderField) : Prop :=
  nul ∉ h.1 ∧ (matchHeader h.1 hhTransferEncoding = true →
    sameIgnoringCase h.2 "chunked".toList = true ∨ sameIgnoringCase h.2 "identity".toList = true)

instance : DecidablePred Readable := fun _ => inferInstanceAs (Decidable (_ ∧ _))

/-- Whether the parser expects chunks after a header. -/
def encoding (chunked : Bool) (h : HttpHeaderField) : Bool :=
  if matchHeader h.1 hhTransferEncoding then sameIgnoringCase h.2 "chunked".toList else chunked

theorem cstr_eq (h : nul ∉ s) : cstr s = s := by
  rw [cstr, List.takeWhile_eq_self_iff]
  intro c hc
  exact decide_eq_true fun heq => h (heq ▸ hc)

theorem strchrn_name {name : Text} (hcolon : ':' ∉ name) (hnul : nul ∉ name) (rest : Text) :
    strchrn (name ++ ':' :: rest) ':' = some (name, rest) := by
  rw [strchrn, splitFirst_append hcolon, Option.filter_some, if_pos (decide_eq_true hnul)]

variable {p : HttpParser} {h : HttpHeaderField}

variable {rest : Text}

theorem processHeaderLine_eq (hplain : Plain h)
    (hreadable : Readable h) (hvalue : rest.dropWhile isSpace = h.2) :
    p.processHeaderLine (h.1 ++ ':' :: rest) =
      { p with headers := p.headers ++ [h], chunked_ := encoding p.chunked_ h } := by
  obtain ⟨hcolon, -, -, -, -, -, -, hlength, -⟩ := hplain
  obtain ⟨hnul, hencoding⟩ := hreadable
  rw [processHeaderLine, strchrn_name hcolon hnul, encoding]
  simp only [Option.elim_some, hvalue, hlength, Bool.false_eq_true, if_false]
  by_cases htransfer : matchHeader h.1 hhTransferEncoding = true
  · rw [if_pos htransfer, if_pos htransfer]
    by_cases hchunked : sameIgnoringCase h.2 "chunked".toList = true
    · rw [if_pos hchunked, hchunked]
    · have hidentity := (hencoding htransfer).resolve_left hchunked
      rw [if_neg hchunked, if_pos hidentity, Bool.eq_false_of_not_eq_true hchunked]
  · rw [if_neg htransfer, if_neg htransfer]

theorem trim_headerLine (hplain : Plain h) :
    ∃ rest, trim (h.1 ++ [':', ' '] ++ h.2) = h.1 ++ ':' :: rest ∧
      rest.dropWhile isSpace = h.2 := by
  obtain ⟨-, -, -, -, -, hleft, hright, -, -⟩ := hplain
  by_cases hvalue : h.2 = []
  · refine ⟨[], ?_, hvalue.symm⟩
    have hblank : h.1 ++ [':', ' '] ++ h.2 = h.1 ++ [':'] ++ [' '] := by
      rw [hvalue]
      simp only [List.append_assoc, List.append_nil, List.cons_append, List.nil_append]
    rw [hblank, trim, List.rdropWhile_concat_pos _ _ _ (by decide),
      List.rdropWhile_concat_neg _ _ _ (by decide)]
  · refine ⟨' ' :: h.2, ?_, ?_⟩
    · have hlast : ∀ hne, ¬ isSpace ((h.1 ++ [':', ' '] ++ h.2).getLast hne) = true := by
        intro hne
        rw [List.getLast_append_of_ne_nil _ hvalue]
        exact List.rdropWhile_eq_self_iff.mp hright hvalue
      rw [trim, List.rdropWhile_eq_self_iff.mpr hlast, List.append_assoc]
      rfl
    · rw [List.dropWhile_cons_of_pos (by decide)]
      exact hleft

theorem process_header (hresult : p.result = none) (hstate : p.state_ = .headers)
    (hplain : Plain h) (hreadable : Readable h) (rest : Text) :
    p.process parseLeader (headerLine h ++ rest) =
      { p with headers := p.headers ++ [h], chunked_ := encoding p.chunked_ h }.process
        parseLeader rest := by
  obtain ⟨behind, htrim, hvalue⟩ := trim_headerLine hplain
  have hline : headerLine h = h.1 ++ [':', ' '] ++ h.2 ++ crlf := by
    rw [headerLine, cstr_eq hreadable.1, cstr_eq hplain.2.2.1]
  have hmem : '\n' ∉ h.1 ++ [':', ' '] ++ h.2 := by
    rw [List.mem_append, List.mem_append, not_or, not_or]
    refine ⟨⟨fun hname => ?_, by decide⟩, hplain.2.2.2.1⟩
    exact absurd (hplain.2.1 _ hname) (by decide)
  have hne : h.1 ++ ':' :: behind ≠ [] :=
    List.append_ne_nil_of_right_ne_nil _ (List.cons_ne_nil _ _)
  have hheaders : p.state_ ≠ .data := by
    rw [hstate]
    exact State.noConfusion
  rw [hline, process_line hresult hheaders hmem, htrim, processLine]
  simp only [hstate]
  rw [if_pos hne, processHeaderLine_eq hplain hreadable hvalue, ← hstate]

/-- **The headers are read** as they were written. -/
theorem process_headers {headers : List HttpHeaderField} (hplain : ∀ h ∈ headers, Plain h)
    (hreadable : ∀ h ∈ headers, Readable h) (hresult : p.result = none)
    (hstate : p.state_ = .headers) (rest : Text) :
    p.process parseLeader (headers.flatMap headerLine ++ rest) =
      { p with
        headers := p.headers ++ headers
        chunked_ := headers.foldl encoding p.chunked_ }.process parseLeader rest := by
  induction headers generalizing p with
  | nil => rw [List.flatMap_nil, List.append_nil, List.foldl_nil, List.nil_append]
  | cons h headers ih =>
    rw [List.forall_mem_cons] at hplain hreadable
    rw [List.flatMap_cons, List.append_assoc, process_header hresult hstate hplain.1 hreadable.1]
    rw [ih hplain.2 hreadable.2 (by exact hresult) (by exact hstate)]
    simp only [List.append_assoc, List.cons_append, List.nil_append, List.foldl_cons]

/-! ## Chunks -/

/-- **A chunk is read** as a part of the document. -/
theorem process_chunk (hresult : p.result = none) (hstate : p.state_ = .chunkSize)
    (hchunked : p.chunked_ = true) {data : Text} (hdata : data ≠ [])
    (hlen : data.length ≤ kBufferSize) (rest : Text) :
    p.process parseLeader (chunk data ++ rest) =
      { p with document := p.document ++ data, data_size_ := 0 }.process parseLeader rest := by
  have hsize : kBufferSize = 32768 := rfl
  have hdigits : '\n' ∉ hexDigits kChunkDigits data.length := fun hmem => by
    obtain ⟨d, hd, heq⟩ := mem_hexDigits hmem
    exact (digitChar_plain hd).2.2.2.2.2 heq.symm
  have hline : p.state_ ≠ .data := by
    rw [hstate]
    exact State.noConfusion
  have hne : hexDigits kChunkDigits data.length ≠ [] := fun hnil => by
    have hlen := length_hexDigits kChunkDigits data.length
    rw [hnil] at hlen
    exact absurd hlen (by decide)
  have hvalue :
      wholeNumber (hexDigits kChunkDigits data.length) = some (BitVec.ofNat 64 data.length) :=
    wholeNumber_hexDigits (by decide) (by
      have hmax : 16 ^ kChunkDigits = 4294967296 := rfl
      omega) (by omega)
  have hnonzero : BitVec.ofNat 64 data.length ≠ 0 := fun hzero => by
    have hnat := congrArg BitVec.toNat hzero
    rw [BitVec.toNat_ofNat, Nat.mod_eq_of_lt (by omega)] at hnat
    exact hdata (List.length_eq_zero_iff.mp hnat)
  have hstep : p.processLine parseLeader (hexDigits kChunkDigits data.length) =
      { p with data_size_ := BitVec.ofNat 64 data.length, state_ := .data } := by
    rw [processLine_size hstate hvalue, if_neg hnonzero]
  rw [chunk, List.append_assoc, List.append_assoc _ data, process_line hresult hline hdigits,
    rdropWhile_isSpace (isSpace_hexDigits _ _), hstep,
    process_data (by exact hresult) (by rfl) hdata (by omega) (by rfl),
    process_chunkTerm (by exact hresult) (by rfl) (by rfl) (by exact hchunked)]
  simp only [hstate]

/-- **The chunks are read** as the document. -/
theorem process_chunks {blocks : List Text}
    (hblocks : ∀ data ∈ blocks, data ≠ [] ∧ data.length ≤ kBufferSize) {p : HttpParser}
    (hresult : p.result = none) (hstate : p.state_ = .chunkSize) (hchunked : p.chunked_ = true)
    (rest : Text) : ∃ size,
    p.process parseLeader (blocks.flatMap chunk ++ rest) =
      { p with document := p.document ++ blocks.flatten, data_size_ := size }.process
        parseLeader rest := by
  induction blocks generalizing p with
  | nil => exact ⟨p.data_size_, by rw [List.flatMap_nil, List.flatten_nil, List.append_nil]; rfl⟩
  | cons data blocks ih =>
    rw [List.forall_mem_cons] at hblocks
    obtain ⟨size, hrest⟩ := ih hblocks.2
      (p := { p with document := p.document ++ data, data_size_ := 0 }) hresult hstate hchunked
    refine ⟨size, ?_⟩
    rw [List.flatMap_cons, List.append_assoc,
      process_chunk hresult hstate hchunked hblocks.1.1 hblocks.1.2, hrest, List.flatten_cons]
    simp only [List.append_assoc]

theorem process_lastChunk (hresult : p.result = none) (hstate : p.state_ = .chunkSize) :
    p.process parseLeader lastChunk =
      ({ p with state_ := .trailers, data_size_ := 0, result := some .none }, []) := by
  have hline : p.state_ ≠ .data := by
    rw [hstate]
    exact State.noConfusion
  have hzero :
      p.processLine parseLeader ['0'] = { p with state_ := .trailers, data_size_ := 0 } := by
    have hvalue : wholeNumber ['0'] = some 0 := by decide
    rw [processLine_size hstate hvalue, if_pos rfl]
  have hsplit : lastChunk = ['0'] ++ crlf ++ ([] ++ crlf ++ []) := rfl
  have htrim : trim ['0'] = ['0'] := by decide
  rw [hsplit, process_line hresult hline (by decide), htrim, hzero,
    process_line (by exact hresult) (fun h => State.noConfusion h) List.not_mem_nil]
  exact Machine.run_none rfl

/-! ## Messages -/

/-- A leader that the parser accepts. -/
def Accepted (parseLeader : Text → HttpError) (leader : Text) : Prop :=
  '\n' ∉ leader ∧ parseLeader (trim leader) = .none

instance (leader : Text) : Decidable (Accepted parseLeader leader) :=
  inferInstanceAs (Decidable (_ ∧ _))

/-- The parser at the end of a message, with nothing left. -/
def received (leader : Text) (headers : List HttpHeaderField) (document : Text) :
    HttpParser × Text :=
  ({ state_ := .trailers, chunked_ := true, data_size_ := 0, leader := trim leader,
      headers := headers, document := document, result := some .none }, [])

variable {leader document : Text} {headers : List HttpHeaderField}

variable {blocks : List Text}

/-- **A message is read** as it was written. -/
theorem process_message (hleader : Accepted parseLeader leader)
    (hplain : ∀ h ∈ headers, Plain h) (hreadable : ∀ h ∈ headers, Readable h)
    (hencoding : headers.foldl encoding false = true)
    (hblocks : ∀ data ∈ blocks, data ≠ [] ∧ data.length ≤ kBufferSize) :
    reset.process parseLeader (head leader headers ++ blocks.flatMap chunk ++ lastChunk) =
      received leader headers blocks.flatten := by
  have hfirst : reset.processLine parseLeader (trim leader) =
      { reset with state_ := .headers, leader := trim leader } := if_pos hleader.2
  have hblank : ∀ p : HttpParser, p.state_ = .headers → p.chunked_ = true →
      p.processLine parseLeader (trim []) = { p with state_ := .chunkSize } := by
    intro p hstate hchunked
    have hempty : ¬ trim [] ≠ [] := not_not.mpr rfl
    rw [processLine]
    simp only [hstate]
    rw [if_neg hempty, if_pos hchunked]
  obtain ⟨size, hchunks⟩ := @process_chunks parseLeader blocks hblocks
    ⟨.chunkSize, true, sizeUnknown, trim leader, headers, [], none⟩ rfl rfl rfl lastChunk
  have hnil : ∀ s : Text, crlf ++ s = [] ++ crlf ++ s := fun _ => rfl
  rw [head, List.append_assoc (leader ++ crlf), List.append_assoc (leader ++ crlf),
    process_line rfl State.noConfusion hleader.1, hfirst]
  rw [List.append_assoc, List.append_assoc, process_headers hplain hreadable rfl rfl, hnil,
    process_line rfl State.noConfusion List.not_mem_nil, hblank _ rfl hencoding]
  have hlast : headers.foldl encoding reset.chunked_ = true := hencoding
  simp only [hlast]
  exact hchunks.trans (process_lastChunk rfl rfl)

theorem receive_message (hleader : Accepted parseLeader leader)
    (hplain : ∀ h ∈ headers, Plain h) (hreadable : ∀ h ∈ headers, Readable h)
    (hencoding : headers.foldl encoding false = true)
    (hblocks : ∀ data ∈ blocks, data ≠ [] ∧ data.length ≤ kBufferSize) {pieces : List Text}
    (hpieces : pieces.flatten ++ rest = head leader headers ++ blocks.flatMap chunk ++ lastChunk) :
    ((pieces.foldl (receive parseLeader) (reset, [])).1.result ≠ none → rest = []) ∧
      (rest = [] → pieces.foldl (receive parseLeader) (reset, []) =
        received leader headers blocks.flatten) := by
  have hall := process_message hleader hplain hreadable hencoding hblocks
  rw [← hpieces] at hall
  rw [receive_pieces rfl]
  constructor
  · -- a parser that is complete takes nothing more
    intro hresult
    have hnone : ∀ buffer, (reset.process parseLeader pieces.flatten).1.next parseLeader buffer =
        none := fun buffer => by rw [next, if_pos hresult]
    have hbehind := @process_append parseLeader reset pieces.flatten rest
    rw [hall] at hbehind
    have hleft : (received leader headers blocks.flatten).2 =
        (reset.process parseLeader pieces.flatten).2 ++ rest := by
      rw [hbehind]
      exact congrArg Prod.snd (Machine.run_none (m := machine parseLeader) (hnone _))
    exact (List.append_eq_nil_iff.mp hleft.symm).2
  · rintro rfl
    rw [List.append_nil] at hall
    exact hall

namespace Sending

/-- What would still have to be sent if the document ended here. -/
def unsent (s : HttpBase) : Text :=
  s.buffer_ ++ pending s.header_ ++ if s.chunk_data_ then lastChunk else []

/-- What was sent is the beginning of a message, and it is the message of the document when nothing
is missing; so it is at the end. -/
theorem Sound.message {s : Sending} (h : s.Sound leader headers document) : ∃ blocks : List Text,
    (∀ data ∈ blocks, data ≠ [] ∧ data.length ≤ kBufferSize) ∧
      s.sent ++ unsent s.base = head leader headers ++ blocks.flatMap chunk ++ lastChunk ∧
      (unsent s.base = [] → blocks.flatten = document) ∧
      (s.status = .completed .none → unsent s.base = []) := by
  obtain ⟨⟨blocks, hsound⟩, -, hend⟩ := h
  obtain ⟨unread, -, hdocument, hdone⟩ := hsound.read
  refine ⟨blocks, hsound.blocks_size, ?_, fun hnil => ?_, fun hcompleted => ?_⟩
  · rw [unsent, ← List.append_assoc, ← List.append_assoc, hsound.stream]
    cases s.base.chunk_data_ with
    | true => rw [if_pos rfl, if_pos rfl, List.append_nil]
    | false => rw [if_neg Bool.false_ne_true, if_neg Bool.false_ne_true, List.append_nil]
  · have hchunk : s.base.chunk_data_ = false := by
      by_contra hchunk
      rw [unsent, if_pos (Bool.eq_true_of_not_eq_false hchunk)] at hnil
      exact absurd (List.append_eq_nil_iff.mp hnil).2 (List.cons_ne_nil _ _)
    rw [hdone hchunk, List.append_nil] at hdocument
    exact hdocument
  · obtain ⟨hheader, hchunk, hbuffer⟩ := hend hcompleted
    rw [unsent, hheader, hchunk, hbuffer]
    rfl

/-- **What is sent in chunks is received**: no assertion of a run fails; whatever part of it has
been sent, in any pieces, does not complete the parser before its end; and there the parser has the
leader, the headers and the document, without an error and with nothing left. -/
theorem chunked_round_trip (hleader : Accepted parseLeader leader)
    (hchunked : Chunked leader headers)
    (hplain : ∀ h ∈ headers, Plain h) (hreadable : ∀ h ∈ headers, Readable h)
    (hencoding : headers.foldl encoding false = true) (events : List Event) :
    let s := (start leader headers (some document)).run events
    s.status ≠ .assertion ∧ ∀ pieces : List Text, pieces.flatten <+: s.sent →
      ((pieces.foldl (receive parseLeader) (reset, [])).1.result ≠ none →
        pieces.flatten = s.sent ∧
          pieces.foldl (receive parseLeader) (reset, []) = received leader headers document) ∧
      (s.status = .completed .none → pieces.flatten = s.sent →
        pieces.foldl (receive parseLeader) (reset, []) = received leader headers document) := by
  intro s
  have hsound : s.Sound leader headers document := sound_run hchunked events
  obtain ⟨blocks, hblocks, hmessage, hdocument, hend⟩ := hsound.message
  refine ⟨hsound.2.1, fun pieces ⟨behind, hsent⟩ => ?_⟩
  have hpieces : pieces.flatten ++ (behind ++ unsent s.base) =
      head leader headers ++ blocks.flatMap chunk ++ lastChunk := by
    rw [← List.append_assoc, hsent]
    exact hmessage
  obtain ⟨hearly, hwhole⟩ := receive_message hleader hplain hreadable hencoding hblocks hpieces
  have hreceived (hnil : unsent s.base = []) (hbehind : behind = []) :
      pieces.foldl (receive parseLeader) (reset, []) = received leader headers document := by
    rw [hwhole (by rw [hnil, hbehind, List.append_nil]), hdocument hnil]
  constructor
  · intro hresult
    obtain ⟨hbehind, hnil⟩ := List.append_eq_nil_iff.mp (hearly hresult)
    refine ⟨?_, hreceived hnil hbehind⟩
    rw [← hsent, hbehind, List.append_nil]
  · intro hcompleted hall
    exact hreceived (hend hcompleted) (List.append_right_eq_self.mp (hsent.trans hall.symm))

/-- A document of two chunks, over partial writes and streams that block, in two pieces. -/
def mixed : Sending :=
  (start "HTTP/1.1 200".toList [("transfer-encoding".toList, "chunked".toList), (['X'], [])]
    (some "docu".toList)).run
    [.turn (.success 2) (.success 9), .turn .block (.success 50), .turn (.success 9) .block,
      .turn .block .block, .streamEvent, .turn (.success 1) (.success 1000),
      .turn (.success 1) (.success 0)]

theorem chunked_round_trip_mixed : mixed.status = .completed .none ∧
    [mixed.sent.take 20, mixed.sent.drop 20].foldl (receive fun _ => .none) (reset, []) =
      received "HTTP/1.1 200".toList
        [("transfer-encoding".toList, "chunked".toList), (['X'], [])] "docu".toList := by
  have hcompleted : mixed.status = .completed .none := by decide +kernel
  have hpieces : [mixed.sent.take 20, mixed.sent.drop 20].flatten = mixed.sent := by
    rw [List.flatten_cons, List.flatten_singleton, List.take_append_drop]
  have hround := @chunked_round_trip (fun _ => .none) "HTTP/1.1 200".toList "docu".toList
    [("transfer-encoding".toList, "chunked".toList), (['X'], [])]
    (by decide) ⟨by decide, by decide, by decide⟩ (by decide) (by decide) (by decide)
    [.turn (.success 2) (.success 9), .turn .block (.success 50), .turn (.success 9) .block,
      .turn .block .block, .streamEvent, .turn (.success 1) (.success 1000),
      .turn (.success 1) (.success 0)]
  exact ⟨hcompleted, (hround.2 _ (hpieces ▸ List.prefix_refl _)).2 hcompleted hpieces⟩

def direct (headers : List HttpHeaderField) : Sending :=
  (start ['L'] headers (some [])).run
    [.turn (.success 1) (.success kBufferSize), .turn (.success 1) (.success 0)]

/-- The headers of a message with a NUL in a name, and of one with two transfer encodings. -/
def nulName : List HttpHeaderField :=
  [(['A', nul], ['v']), (hhTransferEncoding, "chunked".toList)]

def twoEncodings : List HttpHeaderField :=
  [(hhTransferEncoding, "chunked".toList), (hhTransferEncoding, "identity".toList)]

theorem receive_direct (n : Nat) {headers : List HttpHeaderField}
    (h : ((machine fun _ => .none).steps n (reset, (direct headers).sent)).1.next (fun _ => .none)
      ((machine fun _ => .none).steps n (reset, (direct headers).sent)).2 = none) :
    [(direct headers).sent].foldl (receive fun _ => .none) (reset, []) =
      (machine fun _ => .none).steps n (reset, (direct headers).sent) :=
  Machine.run_eq_steps (m := machine fun _ => .none) (p := (reset, (direct headers).sent)) h

/-- Plain headers that are not read as they are: of a name the part before a NUL is written, and the
last transfer encoding decides whether the parser expects chunks. -/
theorem unread_names_and_encodings :
    ((∀ h ∈ nulName, Plain h) ∧ (hhTransferEncoding, "chunked".toList) ∈ nulName ∧
      (direct nulName).status = .completed .none ∧
      ([(direct nulName).sent].foldl (receive fun _ => .none) (reset, [])).1.headers =
        [(['A'], ['v']), (hhTransferEncoding, "chunked".toList)]) ∧
    ((∀ h ∈ twoEncodings, Plain h) ∧ (hhTransferEncoding, "chunked".toList) ∈ twoEncodings ∧
      (direct twoEncodings).status = .completed .none ∧
      ([(direct twoEncodings).sent].foldl (receive fun _ => .none) (reset, [])).1.result =
        none) := by
  refine ⟨⟨by decide, by decide, by decide +kernel, ?_⟩,
    ⟨by decide, by decide, by decide +kernel, ?_⟩⟩
  · rw [receive_direct 9 (by decide +kernel)]
    decide +kernel
  · rw [receive_direct 9 (by decide +kernel)]
    decide +kernel

end Sending

end Libjingle.HttpBase
