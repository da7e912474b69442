import Libjingle.Base.StringTurns

/-!
# Lists of HTTP attributes (`base/httpcommon.cc`)

`HttpComposeAttributes` and `HttpParseAttributes`, over bytes.

* The parser's position in the data is what is left of the data.
* The end of a name is white space, or an equals sign that is not a trailing one. The separator is
  no end of a name, so it becomes part of the name before it where there is no value.

## Results

* **`parse_compose_iff`**: a composed list is parsed to the same list exactly if every attribute but
  the last has a value.
-/

namespace Libjingle.HttpAttributes

open Lib Checked StringEncode

/-- `HttpAttribute`: a name and a value. -/
abbrev HttpAttribute := List U8 × List U8

/-! ## Composing -/

/-- `EscapeAttribute`, with its buffer on the stack. -/
def escapeAttribute (value : List U8) : List U8 :=
  let kMaxLength := value.length * 2 + 1
  match escape value kMaxLength [byte '"'] (byte '\\') (List.replicate kMaxLength 0) with
  | .ok (len, buffer) => buffer.take len
  | .error _ => []

/-- An attribute with its value in quotes, if it has one. -/
def composeAttribute (entry : HttpAttribute) : List U8 :=
  entry.1 ++
    if entry.2 ≠ [] then byte '=' :: byte '"' :: (escapeAttribute entry.2 ++ [byte '"']) else []

/-- The attributes behind the first one. -/
def composeRest (attributes : List HttpAttribute) (separator : U8) : List U8 :=
  attributes.flatMap fun entry => separator :: byte ' ' :: composeAttribute entry

def httpComposeAttributes (attributes : List HttpAttribute) (separator : U8) : List U8 :=
  match attributes with
  | [] => []
  | entry :: attributes => composeAttribute entry ++ composeRest attributes separator

/-! ## Parsing -/

/-- `IsEndOfAttributeName` of what is left of the data. -/
def isEndOfAttributeName : List U8 → Bool
  | [] => true
  | [ch] => isSpaceByte ch
  | ch :: next :: _ => isSpaceByte ch || (ch = byte '=' && !isSpaceByte next && next ≠ byte '=')

/-- The name at the front of what is left, and what is behind it. -/
def attributeName : List U8 → List U8 × List U8
  | [] => ([], [])
  | ch :: rest =>
    if isEndOfAttributeName (ch :: rest) then ([], ch :: rest)
    else (ch :: (attributeName rest).1, (attributeName rest).2)

/-- A value behind its opening quote, and what is behind it. -/
def quotedValue : List U8 → List U8 × List U8
  | [] => ([], [])
  | [ch] => if ch = byte '"' then ([], []) else ([ch], [])
  | ch :: next :: rest =>
    if ch = byte '"' then ([], next :: rest)
    else if ch = byte '\\' then (next :: (quotedValue rest).1, (quotedValue rest).2)
    else (ch :: (quotedValue (next :: rest)).1, (quotedValue (next :: rest)).2)

/-- A value without quotes goes on up to white space or a comma. -/
def plainValue (rest : List U8) : List U8 × List U8 :=
  rest.span fun ch => !isSpaceByte ch && ch ≠ byte ','

/-- A value behind the equals sign. -/
def someValue : List U8 → List U8 × List U8
  | [] => ([], [])
  | quote :: rest => if quote = byte '"' then quotedValue rest else plainValue (quote :: rest)

/-- The value behind a name, empty if there is none. -/
def attributeValue : List U8 → List U8 × List U8
  | [] => ([], [])
  | ch :: rest => if ch = byte '=' then someValue rest else ([], ch :: rest)

def skipComma : List U8 → List U8
  | [] => []
  | ch :: rest => if ch = byte ',' then rest else ch :: rest

/-- The loop of `HttpParseAttributes`, at most `n` times. -/
def parseLoop : Nat → List U8 → List HttpAttribute
  | 0, _ => []
  | n + 1, rest =>
    match rest.dropWhile isSpaceByte with
    | [] => []
    | ch :: rest =>
      let (name, rest) := attributeName (ch :: rest)
      let (value, rest) := attributeValue rest
      (name, value) :: parseLoop n (skipComma rest)

/-- `HttpParseAttributes`; each attribute takes something off the data. -/
def httpParseAttributes (data : List U8) : List HttpAttribute := parseLoop data.length data

/-! ## Escaped values -/

theorem escapeAttribute_eq (value : List U8) :
    escapeAttribute value = value.flatMap (escapeUnit [byte '"'] (byte '\\')) := by
  have hunits : ∀ ch, _ := escapeUnit_length [byte '"'] (byte '\\')
  have hbuffer : 1 ≤ (List.replicate (value.length * 2 + 1) (0 : U8)).length := by simp
  have hroom : 2 * value.length ≤ (List.replicate (value.length * 2 + 1) (0 : U8)).length - 1 := by
    rw [List.length_replicate]
    omega
  have hescape : Writes (escape value _ [byte '"'] (byte '\\')) _ _ :=
    escape_writes hbuffer [byte '"'] (byte '\\')
  rw [transcode_firstUnit (fun ch => (hunits ch).1) (fun ch => (hunits ch).2) hroom] at hescape
  have hrun := hescape.1
  rw [List.length_replicate] at hrun
  rw [escapeAttribute]
  simp only [hrun]
  exact take_overwrite _ _

theorem quotedValue_backslash (next : U8) (rest : List U8) :
    quotedValue (byte '\\' :: next :: rest) =
      (next :: (quotedValue rest).1, (quotedValue rest).2) := by
  rw [quotedValue, if_neg (by decide), if_pos rfl]

theorem quotedValue_quote (rest : List U8) : quotedValue (byte '"' :: rest) = ([], rest) := by
  cases rest with
  | nil => rfl
  | cons next rest => rw [quotedValue, if_pos rfl]

variable {ch : U8}

theorem quotedValue_plain (hquote : ch ≠ byte '"') (hslash : ch ≠ byte '\\') (rest : List U8) :
    quotedValue (ch :: rest) = (ch :: (quotedValue rest).1, (quotedValue rest).2) := by
  cases rest with
  | nil => exact if_neg hquote
  | cons next rest => rw [quotedValue, if_neg hquote, if_neg hslash]

/-- **A value is read back up to its closing quote.** -/
theorem quotedValue_escapeAttribute (value rest : List U8) :
    quotedValue (escapeAttribute value ++ byte '"' :: rest) = (value, rest) := by
  rw [escapeAttribute_eq]
  induction value with
  | nil => exact quotedValue_quote rest
  | cons ch value ih =>
    rw [List.flatMap_cons, List.append_assoc, escapeUnit]
    split
    · rw [List.cons_append, List.singleton_append, quotedValue_backslash, ih]
    · rename_i hplain
      have hslash : ch ≠ byte '\\' := fun h => hplain (.inl h)
      have hquote : ch ≠ byte '"' := by
        rintro rfl
        exact hplain (.inr rfl)
      rw [List.singleton_append, quotedValue_plain hquote hslash, ih]

/-! ## Names -/

/-- A name that an attribute can have. Names with commas and quotes are among them. -/
def WellNamed (name : List U8) : Prop :=
  name ≠ [] ∧ ∀ ch ∈ name, isSpaceByte ch = false ∧ ch ≠ byte '='

theorem isEndOfAttributeName_of_name (hspace : isSpaceByte ch = false)
    (hequals : ch ≠ byte '=') (rest : List U8) : isEndOfAttributeName (ch :: rest) = false := by
  cases rest with
  | nil => exact hspace
  | cons next rest => simp [isEndOfAttributeName, hspace, hequals]

theorem isEndOfAttributeName_space (rest : List U8) :
    isEndOfAttributeName (byte ' ' :: rest) = true := by
  cases rest <;> rfl

theorem attributeName_append {name rest : List U8}
    (hname : ∀ ch ∈ name, isSpaceByte ch = false ∧ ch ≠ byte '=')
    (hend : isEndOfAttributeName rest = true) : attributeName (name ++ rest) = (name, rest) := by
  induction name with
  | nil =>
    cases rest with
    | nil => rfl
    | cons ch rest => exact if_pos hend
  | cons ch name ih =>
    obtain ⟨hspace, hequals⟩ := hname ch List.mem_cons_self
    have hgoes := isEndOfAttributeName_of_name hspace hequals (name ++ rest)
    rw [List.cons_append, attributeName, if_neg (by simp [hgoes]),
      ih fun d hd => hname d (List.mem_cons_of_mem ch hd)]

/-! ## Progress -/

theorem attributeName_length_le (rest : List U8) :
    (attributeName rest).2.length ≤ rest.length := by
  induction rest with
  | nil => exact Nat.le_refl 0
  | cons ch rest ih =>
    rw [attributeName]
    split
    · exact Nat.le_refl _
    · exact ih.trans (Nat.le_succ _)

theorem quotedValue_length_le (rest : List U8) : (quotedValue rest).2.length ≤ rest.length := by
  fun_induction quotedValue rest with
  | case1 => exact Nat.le_refl 0
  | case2 => exact Nat.zero_le _
  | case3 => exact Nat.zero_le _
  | case4 => exact Nat.le_succ _
  | case5 next rest _ ih => exact ih.trans ((Nat.le_succ _).trans (Nat.le_succ _))
  | case6 ch next rest _ _ ih => exact ih.trans (Nat.le_succ _)

theorem someValue_length_le (rest : List U8) : (someValue rest).2.length ≤ rest.length := by
  cases rest with
  | nil => exact Nat.le_refl 0
  | cons quote rest =>
    rw [someValue]
    split
    · exact (quotedValue_length_le rest).trans (Nat.le_succ _)
    · rw [plainValue, List.span_eq_takeWhile_dropWhile]
      exact (List.dropWhile_suffix _).length_le

theorem attributeValue_length_le (rest : List U8) :
    (attributeValue rest).2.length ≤ rest.length := by
  cases rest with
  | nil => exact Nat.le_refl 0
  | cons ch rest =>
    rw [attributeValue]
    split
    · exact (someValue_length_le rest).trans (Nat.le_succ _)
    · exact Nat.le_refl _

theorem skipComma_length_le (rest : List U8) : (skipComma rest).length ≤ rest.length := by
  cases rest with
  | nil => exact Nat.le_refl 0
  | cons ch rest =>
    rw [skipComma]
    split
    · exact Nat.le_succ _
    · exact Nat.le_refl _

theorem rest_length_le (hspace : isSpaceByte ch = false) (rest : List U8) :
    (skipComma (attributeValue (attributeName (ch :: rest)).2).2).length ≤ rest.length := by
  refine (skipComma_length_le _).trans ?_
  rw [attributeName]
  split
  · rename_i hend
    have hequals : ch = byte '=' := by
      by_contra hne
      rw [isEndOfAttributeName_of_name hspace hne] at hend
      cases hend
    rw [attributeValue, if_pos hequals]
    exact someValue_length_le rest
  · exact (attributeValue_length_le _).trans (attributeName_length_le rest)

theorem isSpaceByte_of_dropWhile {s rest : List U8}
    (h : s.dropWhile isSpaceByte = ch :: rest) : isSpaceByte ch = false := by
  have hhead := List.head?_dropWhile_not isSpaceByte s
  rw [h] at hhead
  exact hhead

theorem parseLoop_of_le {n : Nat} {data : List U8} (h : data.length ≤ n) :
    parseLoop n data = httpParseAttributes data := by
  unfold httpParseAttributes
  induction n using Nat.strongRecOn generalizing data with
  | ind n ih =>
    cases data with
    | nil => cases n <;> rfl
    | cons a data =>
      obtain ⟨m, rfl⟩ : ∃ m, n = m + 1 := ⟨n - 1, by rw [List.length_cons] at h; omega⟩
      have hdata : data.length ≤ m := Nat.le_of_succ_le_succ h
      have hsuffix := (List.dropWhile_suffix isSpaceByte (l := a :: data)).length_le
      rw [List.length_cons, parseLoop, parseLoop]
      cases hdrop : (a :: data).dropWhile isSpaceByte with
      | nil => rfl
      | cons ch rest =>
        rw [hdrop, List.length_cons, List.length_cons] at hsuffix
        have hrest := rest_length_le (isSpaceByte_of_dropWhile hdrop) rest
        simp only
        rw [ih m (Nat.lt_succ_self m) (by omega), ← ih data.length (by omega) (by omega)]

/-! ## A composed list -/

variable {entry : HttpAttribute} {attributes : List HttpAttribute}

/-- What the parser makes of a list: the comma behind an attribute without a value is taken into its
name. -/
def misread : List HttpAttribute → List HttpAttribute
  | [] => []
  | [entry] => [entry]
  | entry :: next :: attributes =>
    (if entry.2 = [] then (entry.1 ++ [byte ','], []) else entry) :: misread (next :: attributes)

theorem misread_cons (entry : HttpAttribute) (attributes : List HttpAttribute) :
    misread (entry :: attributes) =
      (if entry.2 = [] ∧ attributes ≠ [] then (entry.1 ++ [byte ','], []) else entry) ::
        misread attributes := by
  cases attributes with
  | nil => rw [if_neg fun h => h.2 rfl]; rfl
  | cons next attributes => simp [misread]

theorem parse_space (data : List U8) :
    httpParseAttributes (byte ' ' :: data) = httpParseAttributes data := by
  rw [← parseLoop_of_le (Nat.le_refl (byte ' ' :: data).length),
    ← parseLoop_of_le (Nat.le_succ data.length), List.length_cons, parseLoop, parseLoop,
    List.dropWhile_cons_of_pos rfl]

theorem parse_name {name behind name' rest : List U8} (hname : WellNamed name)
    (hsplit : attributeName (name ++ behind) = (name', rest)) :
    httpParseAttributes (name ++ behind) =
      (name', (attributeValue rest).1) ::
        httpParseAttributes (skipComma (attributeValue rest).2) := by
  obtain ⟨ch, name, rfl⟩ := List.exists_cons_of_ne_nil hname.1
  have hspace := (hname.2 ch List.mem_cons_self).1
  have hle := rest_length_le hspace (name ++ behind)
  rw [← List.cons_append, hsplit] at hle
  rw [← parseLoop_of_le hle, httpParseAttributes, List.cons_append, List.length_cons, parseLoop,
    List.dropWhile_cons_of_neg (by simp [hspace])]
  simp only [← List.cons_append, hsplit]

theorem composeRest_cons (entry : HttpAttribute) (attributes : List HttpAttribute)
    (separator : U8) :
    composeRest (entry :: attributes) separator =
      separator :: byte ' ' :: httpComposeAttributes (entry :: attributes) separator := by
  rw [composeRest, List.flatMap_cons]
  rfl

theorem parse_skipComma (attributes : List HttpAttribute) :
    httpParseAttributes (skipComma (composeRest attributes (byte ','))) =
      httpParseAttributes (httpComposeAttributes attributes (byte ',')) := by
  cases attributes with
  | nil => rfl
  | cons entry attributes =>
    rw [composeRest_cons, skipComma, if_pos rfl, parse_space]

/-- **What the parser makes of a composed list.** -/
theorem parse_compose (hnames : ∀ entry ∈ attributes, WellNamed entry.1) :
    httpParseAttributes (httpComposeAttributes attributes (byte ',')) = misread attributes := by
  induction attributes with
  | nil => rfl
  | cons entry attributes ih =>
    have hname := hnames entry List.mem_cons_self
    have hrest := ih fun e he => hnames e (List.mem_cons_of_mem entry he)
    rw [misread_cons, ← hrest, httpComposeAttributes, composeAttribute, List.append_assoc]
    by_cases hvalue : entry.2 = []
    · rw [if_neg (not_not.mpr hvalue), List.nil_append]
      cases attributes with
      | nil =>
        have hsplit : attributeName (entry.1 ++ []) = _ := attributeName_append hname.2 rfl
        rw [if_neg fun h => h.2 rfl]
        refine (parse_name hname hsplit).trans ?_
        exact congrArg (fun value => (entry.1, value) :: httpParseAttributes []) hvalue.symm
      | cons next attributes =>
        have hcomma : ∀ ch ∈ entry.1 ++ [byte ','], isSpaceByte ch = false ∧ ch ≠ byte '=' := by
          intro ch hch
          rcases List.mem_append.mp hch with hch | hch
          · exact hname.2 ch hch
          · rw [List.mem_singleton.mp hch]
            decide
        have hsplit := attributeName_append hcomma
          (isEndOfAttributeName_space (httpComposeAttributes (next :: attributes) (byte ',')))
        rw [List.append_assoc, List.singleton_append, ← composeRest_cons] at hsplit
        rw [if_pos ⟨hvalue, List.cons_ne_nil _ _⟩, parse_name hname hsplit]
        exact congrArg _ (parse_space _)
    · have hsplit : attributeName (entry.1 ++ ((byte '=' :: byte '"' ::
          (escapeAttribute entry.2 ++ [byte '"'])) ++ composeRest attributes (byte ','))) = _ :=
        attributeName_append hname.2 rfl
      have hread : attributeValue (byte '=' :: byte '"' ::
          (escapeAttribute entry.2 ++ [byte '"']) ++ composeRest attributes (byte ',')) =
          (entry.2, composeRest attributes (byte ',')) := by
        rw [List.cons_append, List.cons_append, List.append_assoc]
        exact quotedValue_escapeAttribute entry.2 _
      rw [if_pos hvalue, if_neg fun h => hvalue h.1, parse_name hname hsplit, hread,
        parse_skipComma]

theorem misread_eq_self_iff :
    misread attributes = attributes ↔ ∀ entry ∈ attributes.dropLast, entry.2 ≠ [] := by
  induction attributes with
  | nil => simp [misread]
  | cons entry attributes ih =>
    rw [misread_cons, List.cons.injEq, ih]
    cases attributes with
    | nil => simp
    | cons next attributes =>
      have hkept : (if entry.2 = [] ∧ next :: attributes ≠ [] then (entry.1 ++ [byte ','], [])
          else entry) = entry ↔ entry.2 ≠ [] := by
        constructor
        · intro h hvalue
          rw [if_pos ⟨hvalue, List.cons_ne_nil _ _⟩] at h
          have hname : entry.1 ++ [byte ','] = entry.1 := congrArg Prod.fst h
          simp at hname
        · intro hvalue
          rw [if_neg fun h => hvalue h.1]
      rw [hkept, List.dropLast_cons_cons, List.forall_mem_cons]

/-- **A list is read back exactly if every attribute but the last has a value.** -/
theorem parse_compose_iff (attributes : List HttpAttribute)
    (hnames : ∀ entry ∈ attributes, WellNamed entry.1) :
    httpParseAttributes (httpComposeAttributes attributes (byte ',')) = attributes ↔
      ∀ entry ∈ attributes.dropLast, entry.2 ≠ [] := by
  rw [parse_compose hnames, misread_eq_self_iff]

theorem parse_compose_quoted :
    httpParseAttributes (httpComposeAttributes
      [(bytes "nonce".toList, bytes "a\"b\\, c".toList), (bytes "stale".toList, [])] (byte ',')) =
      [(bytes "nonce".toList, bytes "a\"b\\, c".toList), (bytes "stale".toList, [])] :=
  (parse_compose_iff _ (by simp only [List.forall_mem_cons, WellNamed]; decide)).mpr (by decide)

theorem valueless_misread :
    httpParseAttributes (httpComposeAttributes
      [(bytes "no-cache".toList, []), (bytes "max-age".toList, bytes "0".toList)] (byte ',')) =
      [(bytes "no-cache,".toList, []), (bytes "max-age".toList, bytes "0".toList)] ∧
    httpParseAttributes (httpComposeAttributes
      [(bytes "no-cache".toList, []), (bytes "max-age".toList, bytes "0".toList)] (byte ',')) ≠
      [(bytes "no-cache".toList, []), (bytes "max-age".toList, bytes "0".toList)] := by
  decide

end Libjingle.HttpAttributes
