import Libjingle.Sdp.Deserialize

/-!
# Messages made of lines

What the writer and the parser do to a message that is known line by line. On such a message the
loops over positions are folds over its lines.
-/

namespace Libjingle.Sdp

open Lib

/-! ## Words -/

theorem space_notMem_natText (n : Nat) : ' ' ∉ natText n := notMem_natText (by decide)

theorem newline_notMem_natText (n : Nat) : '\n' ∉ natText n := notMem_natText (by decide)

theorem newline_notMem_intText (n : I32) : '\n' ∉ intText n :=
  notMem_intText (by decide) (by decide)

theorem notMem_flatMap_cons {x d : Char} (hd : x ≠ d) {words : List Text}
    (h : ∀ w ∈ words, x ∉ w) : x ∉ words.flatMap fun w => d :: w := by
  intro hmem
  obtain ⟨w, hw, hx⟩ := List.mem_flatMap.mp hmem
  rcases List.mem_cons.mp hx with hx | hx
  · exact hd hx
  · exact h w hw hx

/-! ## Lines -/

/-- A text that can stand between two line breaks and is taken for a line. -/
structure Line (line : Text) : Prop where
  newline : '\n' ∉ line
  isLine : isLine line = true

theorem Line.init {type : Char} {value : Text} (htype : type ≠ ' ' ∧ type ≠ '\n')
    (hvalue : '\n' ∉ value) (hhead : value.head? ≠ some ' ') : Line (initLine type value) where
  newline := by simp [initLine, hvalue, htype.2.symm]
  isLine := by cases value <;> simp_all [Sdp.isLine, initLine]

def Keyword (name : Text) : Prop := ∀ c ∈ name, c ≠ ' ' ∧ c ≠ ':' ∧ c ≠ '\n'

instance (name : Text) : Decidable (Keyword name) := List.decidableBAll _ name

variable {name : Text}

theorem Keyword.space (h : Keyword name) : ' ' ∉ name := fun hc => (h _ hc).1 rfl

theorem Keyword.colon (h : Keyword name) : ':' ∉ name := fun hc => (h _ hc).2.1 rfl

theorem Keyword.newline (h : Keyword name) : '\n' ∉ name := fun hc => (h _ hc).2.2 rfl

theorem Keyword.head (h : Keyword name) : name.head? ≠ some ' ' :=
  fun hc => h.space (List.mem_of_mem_head? hc)

theorem Line.initAttr (hname : Keyword name) : Line (initAttrLine name) :=
  Line.init (by decide) hname.newline hname.head

theorem Line.attr {name value : Text} (hname : Keyword name) (hvalue : '\n' ∉ value) :
    Line (attrLine name value) := by
  refine Line.init (by decide) ?_ ?_
  · simp [hname.newline, hvalue]
  · cases name with
    | nil => simp
    | cons c name => exact hname.head

variable {line : Text}

theorem Line.two_le (h : Line line) : ∃ c rest, line = c :: '=' :: rest := by
  have hline := h.isLine
  unfold Sdp.isLine at hline
  match line with
  | [] => simp at hline
  | [c] => simp at hline
  | c :: d :: rest =>
    have hd : d = '=' := by simp at hline; exact hline.1.2
    exact ⟨c, rest, by rw [hd]⟩

theorem message_nil : message [] = [] := rfl

theorem message_cons (line : Text) (lines : List Text) :
    message (line :: lines) = line ++ '\r' :: '\n' :: message lines := by
  simp [message]

theorem chomp_cr (line : Text) : chomp (line ++ ['\r']) = line := by simp [chomp]

/-- **The next line of a message is the first of its lines.** -/
theorem getLine_message (h : Line line) (lines : List Text) (rest : Text) :
    getLine (message (line :: lines) ++ rest) = some (line, message lines ++ rest) := by
  have hnew : '\n' ∉ line ++ ['\r'] := by simp [h.newline]
  have hsplit : splitFirst '\n' (message (line :: lines) ++ rest) =
      some (line ++ ['\r'], message lines ++ rest) := by
    rw [message_cons, ← splitFirst_append hnew]
    simp
  unfold getLine
  rw [hsplit]
  simp only [chomp_cr, h.isLine, if_true]

theorem length_le_message (lines : List Text) : lines.length ≤ (message lines).length := by
  induction lines with
  | nil => exact Nat.le_refl 0
  | cons line lines ih =>
    rw [message_cons]
    simp only [List.length_cons, List.length_append]
    omega

/-- The lines of a text, the unfinished last one included. -/
def textLines (text : Text) : List Text := (text.splitOn '\n').map chomp

theorem textLines_message {lines : List Text} (h : ∀ line ∈ lines, '\n' ∉ line) :
    textLines (message lines) = lines ++ [[]] := by
  induction lines with
  | nil => rfl
  | cons line lines ih =>
    rw [List.forall_mem_cons] at h
    have hnew : '\n' ∉ line ++ ['\r'] := by simp [h.1]
    have hsplit : (message (line :: lines)).splitOn '\n' =
        (line ++ ['\r']) :: (message lines).splitOn '\n' := by
      rw [message_cons, ← splitOn_append hnew]
      simp
    have hrest := ih h.2
    rw [textLines] at hrest ⊢
    rw [hsplit, List.map_cons, chomp_cr, hrest]
    rfl

/-! ## Addresses -/

/-- `inet_ntop` of an IPv4 address. -/
def dottedQuad : InetText where
  ntop
    | .ipv4 a => natText (a.toNat / 2 ^ 24) ++ '.' :: natText (a.toNat / 2 ^ 16 % 256) ++ '.' ::
        natText (a.toNat / 2 ^ 8 % 256) ++ '.' :: natText (a.toNat % 256)
    | _ => []
  pton _ := none

/-! ## The writer -/

section

variable (inet : InetText)

/-- The lines with the candidates put in. -/
def insertLines (candidates : Nat → List Candidate) : Nat → List Text → List Text
  | _, [] => []
  | index, line :: lines =>
    if isLineType line 'm' then
      updateMediaDefaultDestination inet (candidates index) line ++
        (candidates index).map (candidateLine inet) ++ insertLines candidates (index + 1) lines
    else line :: insertLines candidates index lines

variable {inet}

variable {lines : List Text}

/-- **The loop of `SdpSerialize` works line by line.** -/
theorem insertCandidates_message (candidates : Nat → List Candidate)
    (hlines : ∀ line ∈ lines, Line line) {fuel : Nat} (hfuel : lines.length ≤ fuel) (index : Nat) :
    insertCandidates inet candidates fuel index (message lines) =
      insertLines inet candidates index lines := by
  induction lines generalizing fuel index with
  | nil =>
    cases fuel with
    | zero => rfl
    | succ fuel => rfl
  | cons line lines ih =>
    obtain ⟨fuel, rfl⟩ : ∃ n, fuel = n + 1 := ⟨fuel - 1, by simp at hfuel; omega⟩
    have hrest : ∀ l ∈ lines, Line l := fun l hl => hlines l (List.mem_cons_of_mem _ hl)
    have hle : lines.length ≤ fuel := by simpa using hfuel
    have hget := getLine_message (hlines line List.mem_cons_self) lines []
    rw [List.append_nil, List.append_nil] at hget
    rw [insertCandidates, hget, insertLines]
    simp only [ih hrest hle]

theorem insertLines_append_of_not_media (candidates : Nat → List Candidate) (index : Nat)
    (h : ∀ line ∈ lines, isLineType line 'm' = false) (lines' : List Text) :
    insertLines inet candidates index (lines ++ lines') =
      lines ++ insertLines inet candidates index lines' := by
  induction lines with
  | nil => rfl
  | cons line lines ih =>
    have hne : ¬ isLineType line 'm' = true := by simp [h line List.mem_cons_self]
    rw [List.cons_append, insertLines, if_neg hne, List.cons_append]
    rw [ih fun l hl => h l (List.mem_cons_of_mem _ hl)]

end

end Libjingle.Sdp
