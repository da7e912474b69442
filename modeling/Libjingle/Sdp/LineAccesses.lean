import Libjingle.Lib.Logged
import Libjingle.Sdp.MediaSections

/-!
# Accesses to lines (`app/webrtc/webrtcsdp.cc`)

The parsers of one line again, as programs that say where they read. A character of a text is read
at an index, and `substr` and `compare` begin at a position. Behind the NUL at the end of a text
nothing can be read, and a position behind the end is thrown out.
-/

namespace Libjingle.Sdp

open Lib Lib.Logged

/-- What the parser reads of a text. -/
inductive Access where
  /-- The character at an index. -/
  | char (text : Text) (i : Nat)
  /-- `substr` or `compare` from a position on. -/
  | start (text : Text) (pos : Nat)
  deriving DecidableEq

/-- Why the parser does not return a value. -/
inductive Stop where
  | rejected (e : Option SdpParseError)
  | undefined
  | unfinished
  deriving DecidableEq

/-- The index is not behind the NUL, or the position not behind the end. -/
def Access.Within : Access → Prop
  | char text i => i ≤ text.length
  | start text pos => pos ≤ text.length

instance : DecidablePred Access.Within
  | .char text i => inferInstanceAs (Decidable (i ≤ text.length))
  | .start text pos => inferInstanceAs (Decidable (pos ≤ text.length))

/-- A parser that says what it reads. -/
abbrev Traced := Logged Access Stop

namespace Traced

/-! ## Strings -/

def nul : Char := Char.ofNat 0

/-- A character of a string, or the NUL behind it. -/
def charAt (text : Text) (i : Nat) : Traced Char := do
  Logged.emit (.char text i)
  match text[i]? with
  | some c => return c
  | none => if i = text.length then return nul else Logged.stop .undefined

def substr (text : Text) (pos n : Nat) : Traced Text := do
  Logged.emit (.start text pos)
  if pos ≤ text.length then return (text.drop pos).take n else Logged.stop .undefined

/-- `compare`, which finds no difference. -/
def compare (text : Text) (pos : Nat) (name : Text) : Traced Bool := do
  Logged.emit (.start text pos)
  if pos ≤ text.length then return decide ((text.drop pos).take name.length = name)
  else Logged.stop .undefined

def find (text : Text) (c : Char) (pos : Nat) : Option Nat :=
  (splitFirst c (text.drop pos)).map fun p => pos + p.1.length

/-- The loop of `split`, `n` characters before the end. -/
def splitLoop (source : Text) (delimiter : Char) : Nat → Nat → Nat → Traced (List Text)
  | 0, _, last => do
    let field ← substr source last (source.length - last)
    return [field]
  | n + 1, i, last => do
    let c ← charAt source i
    if c = delimiter then do
      let field ← substr source last (i - last)
      let fields ← splitLoop source delimiter n (i + 1) (i + 1)
      return field :: fields
    else splitLoop source delimiter n (i + 1) last

def split (source : Text) (delimiter : Char) : Traced (List Text) :=
  splitLoop source delimiter source.length 0 0

def splitByDelimiter (message : Text) (delimiter : Char) : Traced (Option (Text × Text)) :=
  match find message delimiter 0 with
  | none => return none
  | some pos => do
    let field1 ← substr message 0 pos
    let field2 ← substr message (pos + 1) message.length
    return some (field1, field2)

/-! ## Lines -/

/-- The end of a line in front of its line break; a carriage return does not belong to it. -/
def lineEndBefore (message : Text) (lineEnd : Nat) : Traced Nat :=
  if 0 < lineEnd then do
    let c ← charAt message (lineEnd - 1)
    return if c = '\r' then lineEnd - 1 else lineEnd
  else return lineEnd

/-- The text between two positions; a negative length takes everything. -/
def between (message : Text) (lineBegin lineEnd : Nat) : Traced Text :=
  substr message lineBegin (if lineBegin ≤ lineEnd then lineEnd - lineBegin else message.length)

/-- `GetLine`: the line and the position behind it. -/
def getLine (message : Text) (pos : Nat) : Traced (Option (Text × Nat)) := do
  match find message '\n' pos with
  | none => return none
  | some lineBreak => do
    let lineEnd ← lineEndBefore message lineBreak
    let line ← between message pos lineEnd
    let c0 ← charAt line 0
    if c0 = ' ' then return none
    else do
      let c1 ← charAt line 1
      if c1 ≠ '=' then return none
      else do
        let c2 ← charAt line 2
        if c2 = ' ' then return none else return some (line, lineBreak + 1)

def isLineType (message : Text) (lineStart : Nat) (type : Char) : Traced Bool :=
  if message.length < lineStart + 2 then return false
  else do
    let c ← charAt message lineStart
    if c ≠ type then return false
    else do
      let d ← charAt message (lineStart + 1)
      return decide (d = '=')

def getLineWithType (message : Text) (pos : Nat) (type : Char) : Traced (Option (Text × Nat)) := do
  let isType ← isLineType message pos type
  if isType then getLine message pos else return none

def hasAttribute (line name : Text) : Traced Bool := compare line 2 name

/-- The first attribute that a line begins with. -/
def attributeOf {α : Type} : List (Text × α) → Text → Traced (Option α)
  | [], _ => return none
  | (name, a) :: table, line => do
    let has ← hasAttribute line name
    if has then return some a else attributeOf table line

def getFirstLine (message : Text) : Traced Text := do
  match ← getLine message 0 with
  | some (line, _) => return line
  | none => return message

def isRawCandidate (line : Text) : Traced Bool := do
  let named ← compare line 0 kAttributeCandidate
  if !named then return false
  else
    match find line ':' 0 with
    | none => return false
    | some firstCandidate => return (find line ':' (firstCandidate + 1)).isNone

/-! ## Failures -/

section

variable {α : Type}

/-- `ParseFailed`. -/
def parseFailedAt (message : Text) (lineStart : Nat) (description : Text) : Traced α :=
  match find message '\n' lineStart with
  | none => Logged.stop (.rejected (some ⟨message, description⟩))
  | some lineBreak => do
    let lineEnd ← lineEndBefore message lineBreak
    let firstLine ← between message lineStart lineEnd
    Logged.stop (.rejected (some ⟨firstLine, description⟩))

def parseFailed (message description : Text) : Traced α := parseFailedAt message 0 description

def parseFailedExpectFieldNum (message : Text) (expectedFields : Nat) : Traced α :=
  parseFailed message ("Expects exactly ".toList ++ natText expectedFields ++ " fields.".toList)

def parseFailedExpectMinFieldNum (message : Text) (expectedMinFields : Nat) : Traced α :=
  parseFailed message ("Expects at least ".toList ++ natText expectedMinFields ++
    " fields.".toList)

def parseFailedGetValue (message name : Text) : Traced α :=
  parseFailed message ("Failed to get the value of attribute: ".toList ++ name)

def parseFailedExpectLine (message : Text) (lineStart : Nat) (lineType : Char) (lineValue : Text) :
    Traced α :=
  parseFailedAt message lineStart ("Expect line: ".toList ++ lineType :: '=' :: lineValue)

end

def getValue (message name : Text) : Traced Text := do
  match ← splitByDelimiter message ':' with
  | none => parseFailedGetValue message name
  | some (left, value) =>
    if left.length < name.length then parseFailedGetValue message name
    else do
      let ends ← compare left (left.length - name.length) name
      if ends then return value else parseFailedGetValue message name

/-- The fields of a line behind its type. -/
def lineFields (line : Text) : Traced (List Text) := do
  let rest ← substr line 2 line.length
  split rest ' '

/-! ## Strings are read within them -/

variable {text : Text}

variable {i : Nat}

variable {pos : Nat}

variable {c : Char}

/-- A position at the beginning of a line, and the text from there. -/
inductive LineStart (message : Text) : Nat → Text → Prop where
  | first : LineStart message 0 message
  | next {pos : Nat} {rest line rest' : Text} (h : LineStart message pos rest)
      (hsplit : splitFirst '\n' rest = some (line, rest')) :
      LineStart message (pos + line.length + 1) rest'

variable {message rest : Text}

theorem LineStart.drop
    (h : LineStart message pos rest) : message.drop pos = rest ∧ pos ≤ message.length := by
  induction h with
  | first => exact ⟨rfl, Nat.zero_le _⟩
  | @next pos rest line rest' _ hsplit ih =>
    obtain ⟨hrest, hle⟩ := ih
    obtain ⟨heq, -⟩ := eq_append_of_splitFirst hsplit
    have hlen : (message.drop pos).length = (line ++ '\n' :: rest').length := by rw [hrest, heq]
    rw [List.length_drop, List.length_append, List.length_cons] at hlen
    refine ⟨?_, by omega⟩
    rw [Nat.add_assoc, ← List.drop_drop, hrest, heq]
    simp

theorem LineStart.length (h : LineStart message pos rest) : message.length = pos + rest.length := by
  obtain ⟨rfl, hle⟩ := h.drop
  rw [List.length_drop]
  omega

theorem LineStart.getElem?
    (h : LineStart message pos rest) (i : Nat) : message[pos + i]? = rest[i]? := by
  rw [← h.drop.1, List.getElem?_drop]

theorem LineStart.before
    (h : LineStart message pos rest) (hpos : 0 < pos) : message[pos - 1]? = some '\n' := by
  cases h with
  | first => exact absurd hpos (Nat.lt_irrefl 0)
  | @next pos rest line _ h hsplit =>
    obtain ⟨rfl, -⟩ := eq_append_of_splitFirst hsplit
    rw [Nat.add_sub_cancel, h.getElem?, List.getElem?_append_right (Nat.le_refl _), Nat.sub_self]
    rfl

variable {type : Char}

variable {line : Text}

section

variable {α β : Type} {R : α → β → Prop}

end

end Traced

end Libjingle.Sdp
