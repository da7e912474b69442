import Libjingle.Base.HttpParser

/-!
# The lines with the sizes of chunks (`base/httpbase.cc`)

In a chunked message, `ProcessLine` reads a size with `strtoul` and takes the line if the number
goes on to its end. The size then counts the bytes of the chunk that `Process` hands on.

* `chunkSizeOf` is what such a line should say: hexadecimal digits, and nothing else, for a number
  below `SIZE_UNKNOWN`.
* `strtoul` also takes white space, a sign and `0x` in front of the digits (`Adorned`), and makes
  the greatest number of one that is too great: that is `SIZE_UNKNOWN`, and the chunk never ends.

## Results

* `sizes_framed_iff`: a line is treated as it should be exactly when it is not such a line.
-/

namespace Libjingle.HttpParser

open Lib

variable {parseLeader : Text → HttpError}

/-! ## What the lines should say -/

def chunkSizeOf (line : Text) : Option Nat :=
  (hexNumber line).filter fun n => n < sizeUnknown.toNat

/-- The line is the size of a chunk of `n` bytes: these are handed on, and the next line comes
behind them and the end of their line. -/
structure Frames (parseLeader : Text → HttpError) (p : HttpParser) (line : Text) (n : Nat) :
    Prop where
  waits : ∀ part : Text, part.length < n → p.process parseLeader (line ++ '\n' :: part) =
    ({ p with
        state_ := .data
        document := p.document ++ part
        data_size_ := BitVec.ofNat 64 (n - part.length) }, [])
  delivers : n ≠ 0 → ∀ body rest : Text, body.length = n →
    p.process parseLeader (line ++ '\n' :: (body ++ rest)) =
      { p with
        state_ := .chunkTerm
        document := p.document ++ body
        data_size_ := 0 }.process parseLeader rest
  continues : n ≠ 0 → ∀ body rest : Text, body.length = n →
    p.process parseLeader (line ++ '\n' :: (body ++ (crlf ++ rest))) =
      { p with document := p.document ++ body, data_size_ := 0 }.process parseLeader rest
  last : n = 0 → ∀ rest : Text, p.process parseLeader (line ++ '\n' :: rest) =
    { p with state_ := .trailers, data_size_ := 0 }.process parseLeader rest

/-- The line is an error, and what is behind it is left. -/
def Rejects (parseLeader : Text → HttpError) (p : HttpParser) (line : Text) : Prop :=
  ∀ rest : Text, ∃ size, p.process parseLeader (line ++ '\n' :: rest) =
    ({ p with data_size_ := size }.complete .protocol, rest)

/-- The sizes of chunks are taken as such, and no other line is taken. -/
structure Framed (parseLeader : Text → HttpError) (p : HttpParser) (line : Text) : Prop where
  frames : ∀ n, chunkSizeOf (trim line) = some n → Frames parseLeader p line n
  rejects : chunkSizeOf (trim line) = none → Rejects parseLeader p line

/-! ## What `strtoul` takes -/

/-- White space, a sign and a prefix. -/
def Front (front : Text) : Prop :=
  ∃ blank sgn marker : Text, front = blank ++ (sgn ++ marker) ∧ (∀ c ∈ blank, isSpace c = true) ∧
    sgn ∈ [[], ['-'], ['+']] ∧ marker ∈ [[], ['0', 'x'], ['0', 'X']]

/-- A hexadecimal number with something in front of its digits. -/
def Adorned (s : Text) : Prop :=
  ∃ front digits : Text, s = front ++ digits ∧ Front front ∧ front ≠ [] ∧
    (hexNumber digits).isSome = true

/-- A line that the parser takes for a size although it is none. -/
def Misread (line : Text) : Prop :=
  Adorned line ∨ ∃ n, hexNumber line = some n ∧ sizeUnknown.toNat ≤ n

variable {s : Text}

theorem isSpace_of_hexValue {c : Char} (h : (hexValue c).isSome = true) : isSpace c = false := by
  have hlo : 48 ≤ c.toNat := by
    unfold hexValue at h
    split at h
    · rename_i hc
      exact hc.1
    · split at h
      · rename_i hc
        exact Nat.le_trans (by decide) hc.1
      · split at h
        · rename_i hc
          exact Nat.le_trans (by decide) hc.1
        · cases h
  have hne : c.toNat ≠ 32 := by omega
  have hgt : ¬ c.toNat ≤ 13 := by omega
  simp [isSpace, hne, hgt]

theorem sign_of_head (h : ∀ c ∈ s.head?, c ≠ '-' ∧ c ≠ '+') : sign s = (false, s) := by
  unfold sign
  split
  · exact absurd rfl (h _ rfl).1
  · exact absurd rfl (h _ rfl).2
  · rfl

theorem skipHexPrefix_of_digits (h : ∀ c ∈ s, (hexValue c).isSome = true) :
    skipHexPrefix s = s := by
  unfold skipHexPrefix
  split
  · rename_i x d t
    have hx := h x (List.mem_cons_of_mem _ List.mem_cons_self)
    rw [if_neg]
    rintro ⟨rfl | rfl, -⟩
    · exact absurd hx (by decide)
    · exact absurd hx (by decide)
  · rfl

theorem skipHexPrefix_marker {marker digits : Text}
    (hmarker : marker ∈ [[], ['0', 'x'], ['0', 'X']]) (hdigits : (hexNumber digits).isSome = true) :
    skipHexPrefix (marker ++ digits) = digits := by
  obtain ⟨hne, hall⟩ := hexNumber_isSome_iff.mp hdigits
  obtain ⟨d, s, rfl⟩ := List.exists_cons_of_ne_nil hne
  have hd := hall d List.mem_cons_self
  simp only [List.mem_cons, List.not_mem_nil, or_false] at hmarker
  rcases hmarker with rfl | rfl | rfl
  · exact skipHexPrefix_of_digits hall
  · exact if_pos ⟨.inl rfl, hd⟩
  · exact if_pos ⟨.inr rfl, hd⟩

theorem head_marker {marker digits : Text} (hmarker : marker ∈ [[], ['0', 'x'], ['0', 'X']])
    (hdigits : (hexNumber digits).isSome = true) :
    ∃ c t, marker ++ digits = c :: t ∧ (hexValue c).isSome = true := by
  obtain ⟨hne, hall⟩ := hexNumber_isSome_iff.mp hdigits
  obtain ⟨d, s, rfl⟩ := List.exists_cons_of_ne_nil hne
  simp only [List.mem_cons, List.not_mem_nil, or_false] at hmarker
  rcases hmarker with rfl | rfl | rfl
  · exact ⟨d, s, rfl, hall d List.mem_cons_self⟩
  · exact ⟨'0', _, rfl, by decide⟩
  · exact ⟨'0', _, rfl, by decide⟩

theorem dropWhile_blank {blank : Text} (hblank : ∀ c ∈ blank, isSpace c = true) {c : Char}
    (hc : isSpace c = false) (s : Text) : (blank ++ c :: s).dropWhile isSpace = c :: s := by
  rw [List.dropWhile_append_of_pos hblank, List.dropWhile_cons_of_neg (Bool.eq_false_iff.mp hc)]

theorem wholeNumber_front {front digits : Text} (hfront : Front front)
    (hdigits : (hexNumber digits).isSome = true) :
    ∃ negative, wholeNumber (front ++ digits) = (hexNumber digits).map (clamp negative) ∧
      (front = [] → negative = false) := by
  obtain ⟨blank, sgn, marker, rfl, hblank, hsgn, hmarker⟩ := hfront
  obtain ⟨c, t, hct, hc⟩ := head_marker hmarker hdigits
  have hminus : c ≠ '-' := fun h => absurd (h ▸ hc) (by decide)
  have hplus : c ≠ '+' := fun h => absurd (h ▸ hc) (by decide)
  have hskip := skipHexPrefix_marker hmarker hdigits
  rw [hct] at hskip
  rw [wholeNumber, List.append_assoc, List.append_assoc, hct]
  simp only [List.mem_cons, List.not_mem_nil, or_false] at hsgn
  rcases hsgn with rfl | rfl | rfl
  · have hsign : sign (c :: t) = (false, c :: t) := sign_of_head fun d hd => by
      cases hd
      exact ⟨hminus, hplus⟩
    rw [List.nil_append, dropWhile_blank hblank (isSpace_of_hexValue hc), hsign, hskip]
    exact ⟨false, rfl, fun _ => rfl⟩
  · rw [List.singleton_append, dropWhile_blank hblank (by decide)]
    refine ⟨true, ?_, fun h => ?_⟩
    · exact congrArg (Option.map (clamp true)) (congrArg hexNumber hskip)
    · simp at h
  · rw [List.singleton_append, dropWhile_blank hblank (by decide)]
    refine ⟨false, ?_, fun _ => rfl⟩
    exact congrArg (Option.map (clamp false)) (congrArg hexNumber hskip)

theorem sign_eq (s : Text) : ∃ sgn ∈ [[], ['-'], ['+']], s = sgn ++ (sign s).2 := by
  unfold sign
  split
  · exact ⟨['-'], by simp, rfl⟩
  · exact ⟨['+'], by simp, rfl⟩
  · exact ⟨[], by simp, rfl⟩

theorem skipHexPrefix_append (s : Text) :
    ∃ marker ∈ [[], ['0', 'x'], ['0', 'X']], s = marker ++ skipHexPrefix s := by
  unfold skipHexPrefix
  split
  · split
    · rename_i h
      obtain ⟨rfl | rfl, -⟩ := h
      · exact ⟨['0', 'x'], by simp, rfl⟩
      · exact ⟨['0', 'X'], by simp, rfl⟩
    · exact ⟨[], by simp, rfl⟩
  · exact ⟨[], by simp, rfl⟩

/-- **What `strtoul` takes**: digits behind white space, a sign and a prefix. -/
theorem wholeNumber_isSome_iff : (wholeNumber s).isSome = true ↔
    ∃ front digits : Text, s = front ++ digits ∧ Front front ∧
      (hexNumber digits).isSome = true := by
  constructor
  · intro h
    rw [wholeNumber, Option.isSome_map] at h
    obtain ⟨sgn, hsgn, hs⟩ := sign_eq (s.dropWhile isSpace)
    obtain ⟨marker, hmarker, hm⟩ := skipHexPrefix_append (sign (s.dropWhile isSpace)).2
    refine ⟨s.takeWhile isSpace ++ (sgn ++ marker), _, ?_, ?_, h⟩
    · rw [List.append_assoc, List.append_assoc, ← hm, ← hs, List.takeWhile_append_dropWhile]
    · exact ⟨_, sgn, marker, rfl, fun c hc => List.mem_takeWhile_imp hc, hsgn, hmarker⟩
  · rintro ⟨front, digits, rfl, hfront, hdigits⟩
    obtain ⟨negative, heq, -⟩ := wholeNumber_front hfront hdigits
    rw [heq, Option.isSome_map]
    exact hdigits

theorem Adorned.hexNumber_eq_none (h : Adorned s) : hexNumber s = none := by
  obtain ⟨front, digits, rfl, ⟨blank, sgn, marker, rfl, hblank, hsgn, hmarker⟩, hne, -⟩ := h
  by_contra hsome
  obtain ⟨-, hall⟩ := hexNumber_isSome_iff.mp (Option.isSome_iff_ne_none.mpr hsome)
  have hmem : ∀ c ∈ blank ++ (sgn ++ marker), (hexValue c).isSome = true := fun c hc =>
    hall c (List.mem_append_left _ hc)
  have hblank' : blank = [] := by
    cases blank with
    | nil => rfl
    | cons c _ =>
      have hdigit := isSpace_of_hexValue (hmem c List.mem_cons_self)
      rw [hblank c List.mem_cons_self] at hdigit
      cases hdigit
  have hsgn' : sgn = [] := by
    simp only [List.mem_cons, List.not_mem_nil, or_false] at hsgn
    rcases hsgn with rfl | rfl | rfl
    · rfl
    · exact absurd (hmem '-' (by simp)) (by decide)
    · exact absurd (hmem '+' (by simp)) (by decide)
  have hmarker' : marker = [] := by
    simp only [List.mem_cons, List.not_mem_nil, or_false] at hmarker
    rcases hmarker with rfl | rfl | rfl
    · rfl
    · exact absurd (hmem 'x' (by simp)) (by decide)
    · exact absurd (hmem 'X' (by simp)) (by decide)
  exact hne (by rw [hblank', hsgn', hmarker']; rfl)

theorem front_nil : Front [] := ⟨[], [], [], rfl, by simp, by simp, by simp⟩

variable {n : Nat}

theorem wholeNumber_of_hexNumber (h : hexNumber s = some n) :
    wholeNumber s = some (clamp false n) := by
  have hsome : (hexNumber s).isSome = true := by rw [h]; rfl
  obtain ⟨negative, heq, hnil⟩ := wholeNumber_front front_nil hsome
  rw [hnil rfl, List.nil_append, h] at heq
  exact heq

theorem chunkSizeOf_eq_some_iff :
    chunkSizeOf s = some n ↔ hexNumber s = some n ∧ n < sizeUnknown.toNat := by
  rw [chunkSizeOf, Option.filter_eq_some_iff, decide_eq_true_eq]

/-- A line is misread when `strtoul` takes it and it is no size. -/
theorem misread_iff {line : Text} :
    Misread line ↔ (wholeNumber line).isSome = true ∧ chunkSizeOf line = none := by
  constructor
  · rintro (hadorned | ⟨n, hn, hle⟩)
    · refine ⟨?_, by rw [chunkSizeOf, hadorned.hexNumber_eq_none]; rfl⟩
      obtain ⟨front, digits, hline, hfront, -, hdigits⟩ := hadorned
      exact wholeNumber_isSome_iff.mpr ⟨front, digits, hline, hfront, hdigits⟩
    · refine ⟨by rw [wholeNumber_of_hexNumber hn]; rfl, ?_⟩
      rw [chunkSizeOf, hn]
      exact if_neg (by rw [decide_eq_true_eq]; omega)
  · rintro ⟨hsome, hnone⟩
    obtain ⟨front, digits, rfl, hfront, hdigits⟩ := wholeNumber_isSome_iff.mp hsome
    by_cases hne : front = []
    · subst hne
      obtain ⟨n, hn⟩ := Option.isSome_iff_exists.mp hdigits
      refine .inr ⟨n, hn, Nat.le_of_not_lt fun hlt => ?_⟩
      rw [List.nil_append, chunkSizeOf_eq_some_iff.mpr ⟨hn, hlt⟩] at hnone
      cases hnone
    · exact .inl ⟨front, digits, rfl, hfront, hne, hdigits⟩

/-! ## What the parser does with the lines -/

section Lines

variable {p : HttpParser} (hresult : p.result = none) (hstate : p.state_ = .chunkSize)

include hresult hstate in
theorem process_chunkSize {line : Text} (hline : '\n' ∉ line) {size : U64}
    (hsize : wholeNumber (trim line) = some size) (rest : Text) :
    p.process parseLeader (line ++ '\n' :: rest) =
      { p with data_size_ := size, state_ := if size = 0 then .trailers else .data }.process
        parseLeader rest := by
  have hdata : p.state_ ≠ .data := fun h => State.noConfusion (hstate.symm.trans h)
  rw [process_newline hresult hdata hline, processLine_size hstate hsize]

theorem process_complete (q : HttpParser) (error : HttpError) (rest : Text) :
    (q.complete error).process parseLeader rest = (q.complete error, rest) := by
  refine Machine.run_none (m := machine parseLeader) ?_
  show (q.complete error).next parseLeader rest = none
  exact if_pos (Option.some_ne_none error)

include hresult hstate in
theorem rejects_of_none {line : Text} (hline : '\n' ∉ line)
    (hnone : wholeNumber (trim line) = none) : Rejects parseLeader p line := by
  intro rest
  have hdata : p.state_ ≠ .data := fun h => State.noConfusion (hstate.symm.trans h)
  obtain ⟨size, hline'⟩ := @processLine_of_none parseLeader p hstate _ hnone
  refine ⟨size, ?_⟩
  rw [process_newline hresult hdata hline, hline']
  exact process_complete _ .protocol rest

theorem process_nil {q : HttpParser} (hdata : q.state_ = .data → q.data_size_ ≠ 0) :
    q.process parseLeader [] = (q, []) := by
  refine Machine.run_none (m := machine parseLeader) ?_
  show q.next parseLeader [] = none
  by_cases hq : q.result = none
  swap
  · exact if_pos hq
  rw [next, if_neg (not_not.mpr hq)]
  by_cases hstate : q.state_ = .data
  · rw [if_neg (not_not.mpr hstate), if_neg (hdata hstate), if_pos rfl]
  · rw [if_pos hstate]
    rfl

end Lines

theorem ofNat_eq_zero_iff (hlt : n < 2 ^ 64) : BitVec.ofNat 64 n = 0 ↔ n = 0 := by
  rw [← BitVec.toNat_inj, BitVec.toNat_ofNat, Nat.mod_eq_of_lt hlt]
  rfl

theorem process_part {p : HttpParser} (hresult : p.result = none) (hstate : p.state_ = .data)
    (hn : n < sizeUnknown.toNat) (hsize : p.data_size_ = BitVec.ofNat 64 n) {part : Text}
    (hpart : part.length < n) : p.process parseLeader part =
      ({ p with
          document := p.document ++ part
          data_size_ := BitVec.ofNat 64 (n - part.length) }, []) := by
  have hmax : sizeUnknown.toNat = 2 ^ 64 - 1 := by decide
  have hnat : p.data_size_.toNat = n := by
    rw [hsize, BitVec.toNat_ofNat, Nat.mod_eq_of_lt (by omega)]
  have hnonzero : p.data_size_ ≠ 0 := fun h => by
    rw [hsize, ofNat_eq_zero_iff (by omega)] at h
    omega
  have hknown : p.data_size_ ≠ sizeUnknown := fun h => by
    rw [h] at hnat
    omega
  have htaken : p.processData part =
      { p with
        document := p.document ++ part
        data_size_ := BitVec.ofNat 64 (n - part.length) } := by
    have hsub : p.data_size_ - BitVec.ofNat 64 part.length = BitVec.ofNat 64 (n - part.length) := by
      rw [hsize]
      exact (BitVec.ofNat_sub_ofNat_of_le n part.length (by omega) (by omega))
    rw [processData_known hknown, hsub]
  by_cases hempty : part = []
  · rw [← htaken, hempty, processData_nil]
    exact process_nil fun _ => hnonzero
  · have hall : p.available part = part.length := if_neg fun h => by omega
    have hrun := Machine.run_some (m := machine parseLeader)
      (next_data hresult hstate hnonzero hempty)
    rw [hall, List.take_length, List.drop_length, htaken] at hrun
    refine hrun.trans (process_nil fun _ h => ?_)
    rw [ofNat_eq_zero_iff (by omega)] at h
    omega

theorem frames_of_size {p : HttpParser} (hresult : p.result = none) (hstate : p.state_ = .chunkSize)
    (hchunked : p.chunked_ = true) {line : Text} (hline : '\n' ∉ line)
    (hsize : chunkSizeOf (trim line) = some n) : Frames parseLeader p line n := by
  obtain ⟨hnumber, hlt⟩ := chunkSizeOf_eq_some_iff.mp hsize
  have hmax : sizeUnknown.toNat = 2 ^ 64 - 1 := by decide
  have hzero := ofNat_eq_zero_iff (show n < 2 ^ 64 by omega)
  have htaken : wholeNumber (trim line) = some (BitVec.ofNat 64 n) :=
    (wholeNumber_of_hexNumber hnumber).trans (congrArg some (if_neg (by omega)))
  have hdata : n ≠ 0 → ∀ rest : Text, p.process parseLeader (line ++ '\n' :: rest) =
      { p with data_size_ := BitVec.ofNat 64 n, state_ := .data }.process parseLeader rest :=
    fun hn rest => by
      rw [process_chunkSize hresult hstate hline htaken, if_neg fun h => hn (hzero.mp h)]
  have hbody : n ≠ 0 → ∀ body rest : Text, body.length = n →
      p.process parseLeader (line ++ '\n' :: (body ++ rest)) =
        { p with
          state_ := .data
          document := p.document ++ body
          data_size_ := 0 }.process parseLeader rest := fun hn body rest hlen => by
    have hne : body ≠ [] := fun h => hn (by rw [← hlen, h]; rfl)
    rw [hdata hn]
    exact process_data (p := { p with data_size_ := BitVec.ofNat 64 n, state_ := .data }) hresult
      rfl hne (by omega) (by rw [hlen]) rest
  let ended (body : Text) : HttpParser :=
    { p with state_ := .data, document := p.document ++ body, data_size_ := 0 }
  refine ⟨fun part hpart => ?_, fun hn body rest hlen => ?_, fun hn body rest hlen => ?_,
    fun hn rest => ?_⟩
  · rw [hdata (by omega)]
    exact process_part (p := { p with data_size_ := BitVec.ofNat 64 n, state_ := .data }) hresult
      rfl hlt rfl hpart
  · rw [hbody hn body rest hlen]
    exact process_chunkEnd (p := ended body) hresult rfl rfl hchunked rest
  · rw [hbody hn body _ hlen, hstate]
    exact process_chunkTerm (p := ended body) hresult rfl rfl hchunked rest
  · rw [process_chunkSize hresult hstate hline htaken, if_pos (hzero.mpr hn), hzero.mpr hn]

theorem not_framed {p : HttpParser} {line : Text} (hnone : chunkSizeOf (trim line) = none)
    (htaken : (p.process parseLeader (line ++ ['\n'])).1.result = none) :
    ¬ Framed parseLeader p line := by
  intro h
  obtain ⟨size, hsize⟩ := h.rejects hnone []
  rw [hsize] at htaken
  cases htaken

/-- **Framing**: a line is treated as it should be exactly when it is not a number that only
`strtoul` takes, and not one that is too great. -/
theorem sizes_framed_iff {p : HttpParser} (hresult : p.result = none)
    (hstate : p.state_ = .chunkSize) (hchunked : p.chunked_ = true) {line : Text}
    (hline : '\n' ∉ line) : Framed parseLeader p line ↔ ¬ Misread (trim line) := by
  constructor
  · intro h hmisread
    obtain ⟨hsome, hnone⟩ := misread_iff.mp hmisread
    obtain ⟨size, hsize⟩ := Option.isSome_iff_exists.mp hsome
    -- with nothing behind the line, the parser waits instead of ending with an error
    refine not_framed hnone ?_ h
    rw [process_chunkSize hresult hstate hline hsize, process_nil]
    · exact hresult
    · intro hdata hzero
      rw [if_pos hzero] at hdata
      cases hdata
  · intro h
    refine ⟨fun n hsize => frames_of_size hresult hstate hchunked hline hsize, fun hnone => ?_⟩
    have hnumber : wholeNumber (trim line) = none := by
      by_contra hsome
      exact h (misread_iff.mpr ⟨Option.isSome_iff_ne_none.mpr hsome, hnone⟩)
    exact rejects_of_none hresult hstate hline hnumber

/-- A chunked message, before its first chunk. -/
def chunkedMessage : HttpParser :=
  { reset with
    state_ := .chunkSize
    chunked_ := true
    leader := "HTTP/1.1 200".toList
    headers := [(hhTransferEncoding, "chunked".toList)] }

theorem sizes_framed_iff_plain :
    Framed (fun _ => .none) chunkedMessage "1F \r".toList ∧
      ¬ Misread (trim "1F \r".toList) := by
  have hplain : ¬ Misread (trim "1F \r".toList) := fun h => by
    have hnone := (misread_iff.mp h).2
    revert hnone
    decide
  exact ⟨(sizes_framed_iff rfl rfl rfl (by decide)).mpr hplain, hplain⟩

/-- Sizes behind a prefix and behind white space and a sign are taken. `-1` makes the rest of the
stream the chunk: the size of what is unknown. -/
theorem misread_sizes :
    reset.process (fun _ => .none) "HTTP/1.1 200\r\nTransfer-Encoding: chunked\r\n\r\n".toList =
        (chunkedMessage, []) ∧
      ¬ Framed (fun _ => .none) chunkedMessage "0x2\r".toList ∧
      ¬ Framed (fun _ => .none) chunkedMessage " +2\r".toList ∧
      ¬ Framed (fun _ => .none) chunkedMessage "10000000000000000\r".toList ∧
      chunkedMessage.process (fun _ => .none) "-1\r\nab\r\n0\r\n\r\n".toList =
        ({ chunkedMessage with state_ := .data, document := "ab\r\n0\r\n\r\n".toList }, []) := by
  have hrun : ∀ (n : Nat) (p : HttpParser) (s : Text), _ → p.process (fun _ => .none) s = _ :=
    fun n p s h => Machine.run_eq_steps (m := machine fun _ => .none) (n := n) (p := (p, s)) h
  refine ⟨?_, not_framed (by decide) ?_, not_framed (by decide) ?_, not_framed (by decide) ?_, ?_⟩
  · rw [hrun 3 _ _ (by decide +kernel)]
    decide +kernel
  · rw [hrun 1 _ _ (by decide +kernel)]
    decide +kernel
  · rw [hrun 1 _ _ (by decide +kernel)]
    decide +kernel
  · rw [hrun 1 _ _ (by decide +kernel)]
    decide +kernel
  · rw [hrun 2 _ _ (by decide +kernel)]
    decide +kernel

end Libjingle.HttpParser
