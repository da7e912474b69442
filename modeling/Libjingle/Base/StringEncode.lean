import Libjingle.Lib.CheckedMemory
import Libjingle.Lib.Text

/-!
# String encoding (`base/stringencode.h`, `base/stringencode.cc`)

The encoders and decoders of the file, as programs that read places of a source and write places of
a buffer; an access outside is a fault.

* Characters are bytes. The masks and shifts of the UTF-8 codec are quotients and remainders.
* All but the `hex_` functions take the source in turns: a turn reads the front of what is left, and
  writes what it stands for. Each turn is a definition of its own, which `terminated` repeats.
* `strtoul` reads on until a character ends the number, also behind the source.
* A size is that of the buffer. A `NULL` buffer, which asks for a size, is left out.
-/

namespace Libjingle.StringEncode

open Lib Checked

/-- The byte of an ASCII character. -/
def byte (d : Char) : U8 := BitVec.ofNat 8 d.toNat

/-- The bytes of an ASCII text. -/
def bytes (s : Text) : List U8 := s.map byte

/-- A turn ends with output, and goes on behind what it took. -/
def emit (srcpos bufpos : Nat) (out : List U8) : Checked U8 (Option (Nat × Nat)) := do
  writeAll bufpos out
  return some (srcpos, bufpos + out.length)

/-- `::strchr`, which finds the terminator of a C string too. -/
def strchr (illegal : List U8) (ch : U8) : Bool := ch ∈ illegal.takeWhile (· ≠ 0) || ch = 0

/-! ## Hexadecimal digits -/

/-- `HEX`. -/
def hexDigits : List U8 := bytes "0123456789abcdef".toList

/-- `hex_encode` of a value. -/
def hexEncode (val : Nat) : U8 := if val < 16 then hexDigits.getD val 0 else byte '!'

/-- `hex_decode` of a character, which takes every letter. -/
def hexDecode (ch : U8) : Option U8 :=
  if byte '0' ≤ ch ∧ ch ≤ byte '9' then some (ch - byte '0')
  else if byte 'A' ≤ ch ∧ ch ≤ byte 'Z' then some (ch - byte 'A' + 10)
  else if byte 'a' ≤ ch ∧ ch ≤ byte 'z' then some (ch - byte 'a' + 10)
  else none

/-- A byte in two hexadecimal digits. -/
def hexPair (ch : U8) : List U8 := [hexEncode (ch.toNat / 16), hexEncode (ch.toNat % 16)]

/-- The byte of two hexadecimal digits. -/
def ofHex (h₁ h₂ : U8) : U8 := h₁ <<< 4 ||| h₂

/-! ## Escaping -/

section Escape

variable (source : List U8) (buflen : Nat) (illegal : List U8) (esc : U8)

/-- A turn of `escape`. -/
def escapeTurn (srcpos bufpos : Nat) : Checked U8 (Option (Nat × Nat)) := do
  let ch ← readAt source srcpos
  if ch = esc ∨ strchr illegal ch then
    if bufpos + 2 ≥ buflen then return none else emit (srcpos + 1) bufpos [esc, ch]
  else emit (srcpos + 1) bufpos [ch]

/-- `escape` puts the escape character before itself and the illegal ones. -/
def escape : Checked U8 Nat :=
  if buflen = 0 then return 0
  else terminated 0 source.length buflen (escapeTurn source buflen illegal esc)

/-- A turn of `unescape`. -/
def unescapeTurn (srcpos bufpos : Nat) : Checked U8 (Option (Nat × Nat)) := do
  let ch ← readAt source srcpos
  if ch = esc ∧ srcpos + 1 < source.length then
    let ch ← readAt source (srcpos + 1)
    emit (srcpos + 2) bufpos [ch]
  else emit (srcpos + 1) bufpos [ch]

/-- `unescape` drops each escape character. -/
def unescape : Checked U8 Nat :=
  if buflen = 0 then return 0
  else terminated 0 source.length buflen (unescapeTurn source esc)

/-- A turn that replaces unsafe characters by an escape character and two digits. -/
def hexUnitTurn (unsafeChar : U8 → Bool) (srcpos bufpos : Nat) :
    Checked U8 (Option (Nat × Nat)) := do
  let ch ← readAt source srcpos
  if unsafeChar ch then
    if bufpos + 3 ≥ buflen then return none
    else emit (srcpos + 1) bufpos (esc :: hexPair ch)
  else emit (srcpos + 1) bufpos [ch]

/-- A turn that undoes this, where `plain` says what other characters stand for. -/
def unhexUnitTurn (plain : U8 → U8) (srcpos bufpos : Nat) : Checked U8 (Option (Nat × Nat)) := do
  let ch ← readAt source srcpos
  if ch = esc ∧ srcpos + 2 < source.length then
    let a ← readAt source (srcpos + 1)
    match hexDecode a with
    | none => emit (srcpos + 1) bufpos [ch]
    | some h₁ =>
      let b ← readAt source (srcpos + 2)
      match hexDecode b with
      | none => emit (srcpos + 1) bufpos [ch]
      | some h₂ => emit (srcpos + 3) bufpos [ofHex h₁ h₂]
  else emit (srcpos + 1) bufpos [plain ch]

/-- `encode` writes the illegal characters in hex. -/
def encode : Checked U8 Nat :=
  if buflen = 0 then return 0
  else
    terminated 0 source.length buflen
      (hexUnitTurn source buflen esc fun ch => ch = esc || strchr illegal ch)

/-- `decode` reads the hex forms back. -/
def decode : Checked U8 Nat :=
  if buflen = 0 then return 0
  else terminated 0 source.length buflen (unhexUnitTurn source esc id)

end Escape

/-! ## URLs, HTML and XML -/

/-- `ASCII_CLASS`: the bits of each ASCII character. -/
def asciiClass : List Nat :=
  [1, 1, 1, 1, 1, 1, 1, 1, 1, 1, 1, 1, 1, 1, 1, 1, 1, 1, 1, 1, 1, 1, 1, 1, 1, 1, 1, 1, 1, 1, 1, 1,
    1, 0, 3, 1, 1, 1, 3, 2, 0, 0, 0, 1, 1, 0, 0, 1, 0, 0, 0, 0, 0, 0, 0, 0, 0, 0, 1, 1, 3, 1, 3, 1,
    1, 0, 0, 0, 0, 0, 0, 0, 0, 0, 0, 0, 0, 0, 0, 0, 0, 0, 0, 0, 0, 0, 0, 0, 0, 0, 0, 1, 1, 1, 1, 0,
    1, 0, 0, 0, 0, 0, 0, 0, 0, 0, 0, 0, 0, 0, 0, 0, 0, 0, 0, 0, 0, 0, 0, 0, 0, 0, 0, 1, 1, 1, 0, 1]

/-- The characters that `url_encode` escapes. -/
def urlUnsafe (ch : U8) : Bool := ch.toNat < 128 && asciiClass.getD ch.toNat 0 % 2 = 1

/-- `XML_UNSAFE`, and `HTML_UNSAFE`. -/
def xmlUnsafe (ch : U8) : Bool := ch.toNat < 128 && asciiClass.getD ch.toNat 0 / 2 = 1

/-- `url_encode` into a buffer. -/
def urlEncode (source : List U8) (buflen : Nat) : Checked U8 Nat :=
  if buflen = 0 then return 0
  else terminated 0 source.length buflen (hexUnitTurn source buflen (byte '%') urlUnsafe)

/-- `url_decode` into a buffer. -/
def urlDecode (source : List U8) (buflen : Nat) : Checked U8 Nat :=
  if buflen = 0 then return 0
  else
    terminated 0 source.length buflen
      (unhexUnitTurn source (byte '%') fun ch => if ch = byte '+' then byte ' ' else ch)

/-- The escape sequences of XML behind their ampersand, and what they stand for. -/
def xmlNames : List (List U8 × U8) :=
  [(bytes "lt;".toList, byte '<'), (bytes "gt;".toList, byte '>'),
    (bytes "apos;".toList, byte '\''), (bytes "quot;".toList, byte '"'),
    (bytes "amp;".toList, byte '&')]

/-- The escape sequence of an unsafe character in XML. -/
def xmlEscape (ch : U8) : List U8 :=
  if ch = byte '<' then bytes "&lt;".toList
  else if ch = byte '>' then bytes "&gt;".toList
  else if ch = byte '\'' then bytes "&apos;".toList
  else if ch = byte '"' then bytes "&quot;".toList
  else if ch = byte '&' then bytes "&amp;".toList
  else []

/-- The escape sequence of an unsafe character in HTML. -/
def htmlEscape (ch : U8) : List U8 :=
  if ch = byte '\'' then bytes "&#39;".toList else xmlEscape ch

/-- `utf8_decode` of what is at a place of the source: the value and its length, or nothing. -/
def utf8DecodeAt (source : List U8) (srcpos : Nat) : Checked U8 (Option (Nat × Nat)) := do
  let s₀ ← readAt source (srcpos + 0)
  if s₀.toNat < 128 then return some (s₀.toNat, 1)
  else if source.length - srcpos < 2 then return none
  else
    let s₁ ← readAt source (srcpos + 1)
    if s₁.toNat / 64 ≠ 2 then return none
    else if s₀.toNat / 32 = 6 then return some (s₀.toNat % 32 * 64 + s₁.toNat % 64, 2)
    else if source.length - srcpos < 3 then return none
    else
      let s₂ ← readAt source (srcpos + 2)
      if s₂.toNat / 64 ≠ 2 then return none
      else if s₀.toNat / 16 = 14 then
        return some (s₀.toNat % 16 * 4096 + s₁.toNat % 64 * 64 + s₂.toNat % 64, 3)
      else if source.length - srcpos < 4 then return none
      else
        let s₃ ← readAt source (srcpos + 3)
        if s₃.toNat / 64 ≠ 2 then return none
        else if s₀.toNat / 8 = 30 then
          return some (s₀.toNat % 8 * 262144 + s₁.toNat % 64 * 4096 + s₂.toNat % 64 * 64 +
            s₃.toNat % 64, 4)
        else return none

/-- `utf8_encode`: the bytes of a value, none if there is no room for them or it has no encoding. -/
def utf8Encode (buflen value : Nat) : List U8 :=
  if value ≤ 0x7F ∧ buflen ≥ 1 then [BitVec.ofNat 8 value]
  else if value ≤ 0x7FF ∧ buflen ≥ 2 then
    [BitVec.ofNat 8 (0xC0 + value / 64), BitVec.ofNat 8 (0x80 + value % 64)]
  else if value ≤ 0xFFFF ∧ buflen ≥ 3 then
    [BitVec.ofNat 8 (0xE0 + value / 4096), BitVec.ofNat 8 (0x80 + value / 64 % 64),
      BitVec.ofNat 8 (0x80 + value % 64)]
  else if value ≤ 0x1FFFFF ∧ buflen ≥ 4 then
    [BitVec.ofNat 8 (0xF0 + value / 262144), BitVec.ofNat 8 (0x80 + value / 4096 % 64),
      BitVec.ofNat 8 (0x80 + value / 64 % 64), BitVec.ofNat 8 (0x80 + value % 64)]
  else []

/-- `sprintfn` of a value into eleven bytes, of which the last one is the terminator. -/
def numericEscape (val : Nat) : List U8 :=
  (bytes "&#".toList ++ bytes (natText val) ++ bytes ";".toList).take 10

/-- A turn of `html_encode`. -/
def htmlEncodeTurn (source : List U8) (buflen srcpos bufpos : Nat) :
    Checked U8 (Option (Nat × Nat)) := do
  let ch ← readAt source srcpos
  if ch.toNat < 128 then
    if xmlUnsafe ch then
      if bufpos + (htmlEscape ch).length ≥ buflen then return none
      else emit (srcpos + 1) bufpos (htmlEscape ch)
    else emit (srcpos + 1) bufpos [ch]
  else
    let (val, vallen) := (← utf8DecodeAt source srcpos).getD (ch.toNat, 1)
    if bufpos + (numericEscape val).length ≥ buflen then return none
    else emit (srcpos + vallen) bufpos (numericEscape val)

/-- `html_encode`. -/
def htmlEncode (source : List U8) (buflen : Nat) : Checked U8 Nat :=
  if buflen = 0 then return 0
  else terminated 0 source.length buflen (htmlEncodeTurn source buflen)

/-- A turn of `xml_encode`. -/
def xmlEncodeTurn (source : List U8) (buflen srcpos bufpos : Nat) :
    Checked U8 (Option (Nat × Nat)) := do
  let ch ← readAt source srcpos
  if xmlUnsafe ch then
    if bufpos + (xmlEscape ch).length ≥ buflen then return none
    else emit (srcpos + 1) bufpos (xmlEscape ch)
  else emit (srcpos + 1) bufpos [ch]

/-- `xml_encode`. -/
def xmlEncode (source : List U8) (buflen : Nat) : Checked U8 Nat :=
  if buflen = 0 then return 0
  else terminated 0 source.length buflen (xmlEncodeTurn source buflen)

/-! ## Numbers in XML -/

/-- `isspace`. -/
def isSpaceByte (ch : U8) : Bool := ch.toNat = 32 || (9 ≤ ch.toNat && ch.toNat ≤ 13)

/-- The value of a digit in any base, 36 for other characters. -/
def digitValue (ch : U8) : Nat :=
  if 48 ≤ ch.toNat ∧ ch.toNat ≤ 57 then ch.toNat - 48
  else if 97 ≤ ch.toNat ∧ ch.toNat ≤ 122 then ch.toNat - 87
  else if 65 ≤ ch.toNat ∧ ch.toNat ≤ 90 then ch.toNat - 55
  else 36

/-- The number with these digits. -/
def ofDigits (base : Nat) (digits : List U8) : Nat :=
  digits.foldl (fun n ch => n * base + digitValue ch) 0

/-- An `unsigned long` with a sign; the greatest one out of range. -/
def unsignedLong (negative : Bool) (n : Nat) : Nat :=
  if n ≥ 2 ^ 64 then 2 ^ 64 - 1 else if negative then (2 ^ 64 - n) % 2 ^ 64 else n

/-- The length of the prefix of a hexadecimal number. -/
def hexPrefixAt (source : List U8) (base pos : Nat) : Checked U8 Nat :=
  if base = 16 then do
    let a ← readAt source (pos + 0)
    if a = byte '0' then
      let x ← readAt source (pos + 1)
      if x = byte 'x' ∨ x = byte 'X' then
        let d ← readAt source (pos + 2)
        return if digitValue d < 16 then 2 else 0
      else return 0
    else return 0
  else return 0

/-- `strtoul` of what is at a place of the source: the value and where the number ends. -/
def strtoulAt (source : List U8) (nptr base : Nat) : Checked U8 (Nat × Nat) := do
  let pos ← scanAt source isSpaceByte (source.length + 1) nptr
  let sign ← readAt source (pos + 0)
  let pos := if sign = byte '-' ∨ sign = byte '+' then pos + 1 else pos
  let skip ← hexPrefixAt source base pos
  let stop ← scanAt source (fun ch => digitValue ch < base) (source.length + 1) (pos + skip)
  let digits ← readAll source (stop - (pos + skip)) (pos + skip)
  if digits = [] then return (0, nptr)
  else return (unsignedLong (sign = byte '-') (ofDigits base digits), stop)

/-- `memcmp` with a literal finds no difference, where the source has as many characters. -/
def matchesAt (source : List U8) (pos : Nat) (name : List U8) : Checked U8 Bool :=
  if pos + name.length ≤ source.length then do
    let here ← readAll source name.length pos
    return here = name
  else return false

/-- The first escape sequence that is at a place of the source. -/
def nameAt (source : List U8) (pos : Nat) :
    List (List U8 × U8) → Checked U8 (Option (List U8 × U8))
  | [] => return none
  | (name, ch) :: names => do
    if ← matchesAt source pos name then return some (name, ch) else nameAt source pos names

/-- A character at a place of the source, if there is one. -/
def charAt (source : List U8) (pos : Nat) (ch : U8) : Checked U8 Bool :=
  if pos < source.length then do
    let here ← readAt source (pos + 0)
    return here = ch
  else return false

/-- A number at a place of the source: its value, and where it ends. -/
def numberAt (source : List U8) (pos : Nat) : Checked U8 (Option (Nat × Nat)) := do
  if ← charAt source pos (byte '#') then
    let hex ← charAt source (pos + 1) (byte 'x')
    let (val, ptr) ←
      strtoulAt source (pos + if hex then 2 else 1) (if hex then 16 else 10)
    if ← charAt source ptr (byte ';') then return some (val, ptr + 1) else return none
  else return none

/-- A turn of `xml_decode`. -/
def xmlDecodeTurn (source : List U8) (buflen srcpos bufpos : Nat) :
    Checked U8 (Option (Nat × Nat)) := do
  let ch ← readAt source (srcpos + 0)
  if ch ≠ byte '&' then emit (srcpos + 1) bufpos [ch]
  else
    match ← nameAt source (srcpos + 1) xmlNames with
    | some (name, ch) => emit (srcpos + 1 + name.length) bufpos [ch]
    | none =>
      match ← numberAt source (srcpos + 1) with
      | none => return none
      | some (val, srcpos) =>
        let out := utf8Encode (buflen - bufpos) val
        if out = [] then return none else emit srcpos bufpos out

/-- `xml_decode`. -/
def xmlDecode (source : List U8) (buflen : Nat) : Checked U8 Nat :=
  if buflen = 0 then return 0
  else terminated 0 source.length buflen (xmlDecodeTurn source buflen)

/-- `html_decode`. -/
def htmlDecode (source : List U8) (buflen : Nat) : Checked U8 Nat := xmlDecode source buflen

/-! ## Hexadecimal strings -/

/-- The loop of `hex_encode_with_delimiter`, over the last `n` bytes of the source. -/
def hexEncodeLoop (source : List U8) (delimiter : U8) : Nat → Nat → Nat → Checked U8 Nat
  | 0, _, bufpos => return bufpos
  | n + 1, srcpos, bufpos => do
    let ch ← readAt source srcpos
    writeAll bufpos (hexPair ch)
    if delimiter ≠ 0 ∧ srcpos + 1 < source.length then
      writeAt (bufpos + 2) delimiter
      hexEncodeLoop source delimiter n (srcpos + 1) (bufpos + 3)
    else hexEncodeLoop source delimiter n (srcpos + 1) (bufpos + 2)

/-- `hex_encode_with_delimiter`. -/
def hexEncodeWithDelimiter (source : List U8) (buflen : Nat) (delimiter : U8) : Checked U8 Nat :=
  if buflen = 0 then return 0
  else if buflen < if delimiter ≠ 0 then source.length * 3 else source.length * 2 + 1 then return 0
  else do
    let bufpos ← hexEncodeLoop source delimiter source.length 0 0
    writeAt bufpos 0
    return bufpos

/-- The loop of `hex_decode_with_delimiter`, at most `n` times. -/
def hexDecodeLoop (source : List U8) (delimiter : U8) : Nat → Nat → Nat → Checked U8 Nat
  | 0, _, bufpos => return bufpos
  | n + 1, srcpos, bufpos =>
    if srcpos < source.length then
      if source.length - srcpos < 2 then return 0
      else do
        let a ← readAt source srcpos
        match hexDecode a with
        | none => return 0
        | some h₁ =>
          let b ← readAt source (srcpos + 1)
          match hexDecode b with
          | none => return 0
          | some h₂ =>
            writeAt bufpos (ofHex h₁ h₂)
            if delimiter ≠ 0 ∧ source.length - (srcpos + 2) > 1 then
              let d ← readAt source (srcpos + 2)
              if d ≠ delimiter then return 0
              else hexDecodeLoop source delimiter n (srcpos + 3) (bufpos + 1)
            else hexDecodeLoop source delimiter n (srcpos + 2) (bufpos + 1)
    else return bufpos

/-- `hex_decode_with_delimiter`. -/
def hexDecodeWithDelimiter (source : List U8) (buflen : Nat) (delimiter : U8) : Checked U8 Nat :=
  if buflen = 0 then return 0
  else if buflen < if delimiter ≠ 0 then (source.length + 1) / 3 else source.length / 2 then
    return 0
  else hexDecodeLoop source delimiter source.length 0 0

end Libjingle.StringEncode
