import Libjingle.Base.StringEncode

/-!
# The turns of the string encoders and decoders (`base/stringencode.cc`)

What a turn of each program does, said about what is left of the source as a list.

## Results

* `escape_writes`, …, `xmlDecode_writes`: a program writes what the transcoder of its turns
  writes, and a terminator. `xml_decode` does if its turns stay in the source and the buffer.
-/

namespace Libjingle.StringEncode

open Lib Checked

variable {source buffer : List U8} {buflen srcpos bufpos : Nat}

/-! ## Output -/

variable {k : Nat}

theorem emit_eq {out : List U8} (hbuffer : buffer.length = buflen)
    (hout : bufpos + out.length ≤ buflen) :
    emit (srcpos + k) bufpos out buffer = outcome srcpos bufpos buffer (some (out, k)) :=
  bind_of_ok (writeAll_eq (by omega))

variable {ch : U8}

theorem emit_one (hbuffer : buffer.length = buflen) (hroom : bufpos + 1 < buflen) :
    emit (srcpos + k) bufpos [ch] buffer = outcome srcpos bufpos buffer (some ([ch], k)) :=
  emit_eq hbuffer (by rw [List.length_singleton]; omega)

theorem emit_unit (hbuffer : buffer.length = buflen) (hroom : bufpos + 1 < buflen) (k : Nat)
    (out : List U8) :
    (if bufpos + out.length ≥ buflen then return none else emit (srcpos + k) bufpos out :
        Checked U8 (Option (Nat × Nat))) buffer =
      outcome srcpos bufpos buffer
        (if out.length ≤ buflen - 1 - bufpos then some (out, k) else none) := by
  by_cases hfits : bufpos + out.length ≥ buflen
  · rw [if_pos hfits, if_neg (by omega)]
    rfl
  · rw [if_neg hfits, if_pos (by omega)]
    exact emit_eq hbuffer (by omega)

theorem emit_plain (hbuffer : buffer.length = buflen) (hroom : bufpos + 1 < buflen) (k : Nat)
    (ch : U8) :
    emit (srcpos + k) bufpos [ch] buffer =
      outcome srcpos bufpos buffer
        (if [ch].length ≤ buflen - 1 - bufpos then some ([ch], k) else none) := by
  rw [List.length_singleton, if_pos (by omega)]
  exact emit_one hbuffer hroom

variable {turn : Nat → Nat → Checked U8 (Option (Nat × Nat))} {spec : Turn U8 U8}

theorem turnDoes_of_eq (h : ∀ srcpos bufpos buffer ch rest, source.drop srcpos = ch :: rest →
      bufpos + 1 < buflen → buffer.length = buflen →
      turn srcpos bufpos buffer =
        outcome srcpos bufpos buffer (spec (ch :: rest) (buflen - 1 - bufpos))) :
    TurnDoes source buflen turn (fun _ _ => True) spec := by
  intro srcpos bufpos buffer hsrcpos hbufpos hbuffer
  refine ⟨fun _ => ?_, fun hsafe => absurd trivial hsafe⟩
  have hfront := List.drop_eq_getElem_cons hsrcpos
  rw [h srcpos bufpos buffer _ _ hfront hbufpos hbuffer, hfront]

/-! ## Escaping -/

/-- A unit for the first character. -/
def firstUnit (unit : U8 → List U8) : List U8 → List U8 × Nat
  | [] => ([], 0)
  | ch :: _ => (unit ch, 1)

theorem firstUnit_takes (unit : U8 → List U8) : (unitTurn (firstUnit unit)).Takes := by
  refine unitTurn_takes fun rest hne => ?_
  obtain ⟨ch, rest, rfl⟩ := List.exists_cons_of_ne_nil hne
  exact ⟨Nat.one_pos, Nat.le_add_left 1 _⟩

theorem transcode_firstUnit {unit : U8 → List U8} {worst : Nat}
    (hpos : ∀ ch, 1 ≤ (unit ch).length) (hworst : ∀ ch, (unit ch).length ≤ worst) {room : Nat}
    {s : List U8} (hroom : worst * s.length ≤ room) :
    transcode (unitTurn (firstUnit unit)) room s = s.flatMap unit := by
  induction s generalizing room with
  | nil => rfl
  | cons ch s ih =>
    rw [List.length_cons, Nat.mul_succ] at hroom
    have hmin := hpos ch
    have hmax := hworst ch
    have hturn : unitTurn (firstUnit unit) (ch :: s) room = some (unit ch, 1) :=
      if_pos (show (unit ch).length ≤ room by omega)
    rw [transcode_of_some (firstUnit_takes unit) (List.cons_ne_nil _ _) (by omega) hturn,
      List.drop_succ_cons, List.drop_zero, ih (by omega), List.flatMap_cons]

/-- The unit of a character in `escape`. -/
def escapeUnit (illegal : List U8) (esc ch : U8) : List U8 :=
  if ch = esc ∨ strchr illegal ch then [esc, ch] else [ch]

theorem escapeUnit_length (illegal : List U8) (esc ch : U8) :
    1 ≤ (escapeUnit illegal esc ch).length ∧ (escapeUnit illegal esc ch).length ≤ 2 := by
  unfold escapeUnit
  split <;> simp

/-- The unit of a character in `encode` and `url_encode`. -/
def hexUnit (esc : U8) (unsafeChar : U8 → Bool) (ch : U8) : List U8 :=
  if unsafeChar ch then esc :: hexPair ch else [ch]

/-- The unit of a character in `xml_encode`. -/
def xmlUnit (ch : U8) : List U8 := if xmlUnsafe ch then xmlEscape ch else [ch]

/-- The turns of `unescape`. -/
def unescapeStep (esc : U8) : Turn U8 U8
  | [], _ => none
  | [ch], _ => some ([ch], 1)
  | ch :: next :: _, _ => if ch = esc then some ([next], 2) else some ([ch], 1)

/-- The turns of `decode` and `url_decode`. -/
def unhexStep (esc : U8) (plain : U8 → U8) : Turn U8 U8
  | [], _ => none
  | ch :: a :: b :: _, _ =>
    if ch = esc then
      match hexDecode a, hexDecode b with
      | some h₁, some h₂ => some ([ofHex h₁ h₂], 3)
      | _, _ => some ([ch], 1)
    else some ([plain ch], 1)
  | ch :: _, _ => some ([plain ch], 1)

theorem escapeTurn_does (illegal : List U8) (esc : U8) :
    TurnDoes source buflen (escapeTurn source buflen illegal esc) (fun _ _ => True)
      (unitTurn (firstUnit (escapeUnit illegal esc))) := by
  refine turnDoes_of_eq fun srcpos bufpos buffer ch rest hfront hroom hbuffer => ?_
  rw [escapeTurn, readAt_bind hfront, unitTurn, firstUnit, escapeUnit]
  split
  · exact emit_unit hbuffer hroom 1 [esc, ch]
  · exact emit_plain hbuffer hroom 1 ch

theorem hexUnitTurn_does (esc : U8) (unsafeChar : U8 → Bool) :
    TurnDoes source buflen (hexUnitTurn source buflen esc unsafeChar) (fun _ _ => True)
      (unitTurn (firstUnit (hexUnit esc unsafeChar))) := by
  refine turnDoes_of_eq fun srcpos bufpos buffer ch rest hfront hroom hbuffer => ?_
  rw [hexUnitTurn, readAt_bind hfront, unitTurn, firstUnit, hexUnit]
  split
  · exact emit_unit hbuffer hroom 1 (esc :: hexPair ch)
  · exact emit_plain hbuffer hroom 1 ch

theorem xmlEncodeTurn_does :
    TurnDoes source buflen (xmlEncodeTurn source buflen) (fun _ _ => True)
      (unitTurn (firstUnit xmlUnit)) := by
  refine turnDoes_of_eq fun srcpos bufpos buffer ch rest hfront hroom hbuffer => ?_
  rw [xmlEncodeTurn, readAt_bind hfront, unitTurn, firstUnit, xmlUnit]
  split
  · exact emit_unit hbuffer hroom 1 _
  · exact emit_plain hbuffer hroom 1 ch

variable {rest : List U8}

theorem drop_succ_of_drop (h : source.drop srcpos = ch :: rest) :
    source.drop (srcpos + 1) = rest := by
  rw [← List.drop_drop, h]
  rfl

theorem lt_length_iff (h : source.drop srcpos = rest) :
    srcpos + k < source.length ↔ k < rest.length := by
  rw [← h, List.length_drop]
  omega

theorem unescapeTurn_does (esc : U8) :
    TurnDoes source buflen (unescapeTurn source esc) (fun _ _ => True) (unescapeStep esc) := by
  refine turnDoes_of_eq fun srcpos bufpos buffer ch rest hfront hroom hbuffer => ?_
  rw [unescapeTurn, readAt_bind hfront]
  have hone : emit (srcpos + 1) bufpos [ch] buffer =
      outcome srcpos bufpos buffer (some ([ch], 1)) := emit_one hbuffer hroom
  have hmore : srcpos + 1 < source.length ↔ 1 < (ch :: rest).length := lt_length_iff hfront
  cases rest with
  | nil =>
    rw [if_neg fun h => Nat.lt_irrefl 1 (hmore.mp h.2)]
    exact hone
  | cons next rest =>
    rw [unescapeStep]
    by_cases hesc : ch = esc
    · rw [if_pos ⟨hesc, hmore.mpr (by simp)⟩, if_pos hesc, readAt_bind (drop_succ_of_drop hfront)]
      exact emit_one hbuffer hroom
    · rw [if_neg fun h => hesc h.1, if_neg hesc]
      exact hone

theorem unhexUnitTurn_does (esc : U8) (plain : U8 → U8) :
    TurnDoes source buflen (unhexUnitTurn source esc plain) (fun _ _ => True)
      (unhexStep esc plain) := by
  refine turnDoes_of_eq fun srcpos bufpos buffer ch rest hfront hroom hbuffer => ?_
  rw [unhexUnitTurn, readAt_bind hfront]
  have hone : ∀ out, emit (srcpos + 1) bufpos [out] buffer =
      outcome srcpos bufpos buffer (some ([out], 1)) := fun _ => emit_one hbuffer hroom
  have hmore : srcpos + 2 < source.length ↔ 2 < (ch :: rest).length := lt_length_iff hfront
  match rest with
  | [] | [_] =>
    rw [if_neg fun h => by simpa using hmore.mp h.2]
    exact hone _
  | a :: b :: rest =>
    have htail := drop_succ_of_drop hfront
    rw [unhexStep]
    by_cases hesc : ch = esc
    · rw [if_pos ⟨hesc, hmore.mpr (by simp)⟩, if_pos hesc, readAt_bind htail]
      cases hexDecode a with
      | none => exact hone ch
      | some h₁ =>
        simp only
        rw [readAt_bind (drop_succ_of_drop htail)]
        cases hexDecode b with
        | none => exact hone ch
        | some h₂ => exact emit_one hbuffer hroom
    · rw [if_neg fun h => hesc h.1, if_neg hesc]
      exact hone _

/-! ## UTF-8 -/

/-- `utf8_decode` of the front of what is left. -/
def utf8Decode : List U8 → Option (Nat × Nat)
  | [] => none
  | s₀ :: rest =>
    if s₀.toNat < 128 then some (s₀.toNat, 1)
    else
      match rest with
      | [] => none
      | s₁ :: rest =>
        if s₁.toNat / 64 ≠ 2 then none
        else if s₀.toNat / 32 = 6 then some (s₀.toNat % 32 * 64 + s₁.toNat % 64, 2)
        else
          match rest with
          | [] => none
          | s₂ :: rest =>
            if s₂.toNat / 64 ≠ 2 then none
            else if s₀.toNat / 16 = 14 then
              some (s₀.toNat % 16 * 4096 + s₁.toNat % 64 * 64 + s₂.toNat % 64, 3)
            else
              match rest with
              | [] => none
              | s₃ :: _ =>
                if s₃.toNat / 64 ≠ 2 then none
                else if s₀.toNat / 8 = 30 then
                  some (s₀.toNat % 8 * 262144 + s₁.toNat % 64 * 4096 + s₂.toNat % 64 * 64 +
                    s₃.toNat % 64, 4)
                else none

theorem utf8DecodeAt_eq (h : source.drop srcpos = ch :: rest) (buffer : List U8) :
    utf8DecodeAt source srcpos buffer = .ok (utf8Decode (ch :: rest), buffer) := by
  have hlen : source.length - srcpos = rest.length + 1 := by
    rw [← List.length_drop, h, List.length_cons]
  rw [utf8DecodeAt, Nat.add_zero, readAt_bind h, utf8Decode.eq_def, hlen]
  simp only
  split
  · rfl
  have h₁ := drop_succ_of_drop h
  cases rest with
  | nil => rfl
  | cons s₁ rest =>
    rw [if_neg (by simp), readAt_bind h₁]
    simp only
    split
    · rfl
    split
    · rfl
    have h₂ := drop_succ_of_drop h₁
    cases rest with
    | nil => rfl
    | cons s₂ rest =>
      rw [if_neg (by simp), readAt_bind h₂]
      simp only
      split
      · rfl
      split
      · rfl
      have h₃ := drop_succ_of_drop h₂
      cases rest with
      | nil => rfl
      | cons s₃ rest =>
        rw [if_neg (by simp), readAt_bind h₃]
        simp only
        split
        · rfl
        split <;> rfl

/-- What `html_encode` writes for the front of what is left, and how much of it that stands for. -/
def htmlUnit : List U8 → List U8 × Nat
  | [] => ([], 0)
  | ch :: rest =>
    if ch.toNat < 128 then (if xmlUnsafe ch then htmlEscape ch else [ch], 1)
    else
      let (val, vallen) := (utf8Decode (ch :: rest)).getD (ch.toNat, 1)
      (numericEscape val, vallen)

theorem htmlEncodeTurn_does :
    TurnDoes source buflen (htmlEncodeTurn source buflen) (fun _ _ => True)
      (unitTurn htmlUnit) := by
  refine turnDoes_of_eq fun srcpos bufpos buffer ch rest hfront hroom hbuffer => ?_
  rw [htmlEncodeTurn, readAt_bind hfront, unitTurn, htmlUnit]
  split
  · split
    · exact emit_unit hbuffer hroom 1 (htmlEscape ch)
    · exact emit_plain hbuffer hroom 1 ch
  · rw [bind_of_ok (utf8DecodeAt_eq hfront buffer)]
    exact emit_unit hbuffer hroom _ _

/-! ## Numbers in XML -/

/-- The length of the prefix of a hexadecimal number, at the front of what is left. -/
def hexPrefix (base : Nat) (rest : List U8) : Option Nat :=
  if base = 16 then do
    let a ← rest[0]?
    if a = byte '0' then
      let x ← rest[1]?
      if x = byte 'x' ∨ x = byte 'X' then
        let d ← rest[2]?
        return if digitValue d < 16 then 2 else 0
      else return 0
    else return 0
  else return 0

/-- `strtoul` of the front of what is left: the value and the length of the number. -/
def strtoul (base : Nat) (rest : List U8) : Option (Nat × Nat) := do
  let pos ← rest.findIdx? fun ch => !isSpaceByte ch
  let sign ← rest[pos]?
  let pos := if sign = byte '-' ∨ sign = byte '+' then pos + 1 else pos
  let skip ← hexPrefix base (rest.drop pos)
  let len ← (rest.drop (pos + skip)).findIdx? fun ch => !decide (digitValue ch < base)
  let digits := (rest.drop (pos + skip)).take len
  if digits = [] then return (0, 0)
  else return (unsignedLong (sign = byte '-') (ofDigits base digits), pos + skip + len)

theorem reads_hexPrefixAt (base pos : Nat) :
    Reads (hexPrefixAt source base pos) (hexPrefix base (source.drop pos)) id := by
  unfold hexPrefixAt hexPrefix
  split
  · refine (reads_readAt source pos 0).bind fun a _ => ?_
    simp only [id]
    split
    · refine (reads_readAt source pos 1).bind fun x _ => ?_
      simp only [id]
      split
      · exact (reads_readAt source pos 2).bind fun d _ _ => rfl
      · exact fun _ => rfl
    · exact fun _ => rfl
  · exact fun _ => rfl

theorem hexPrefix_le {base skip : Nat} (h : hexPrefix base rest = some skip) :
    skip ≤ rest.length := by
  unfold hexPrefix at h
  split at h
  · obtain ⟨a, -, h⟩ := Option.bind_eq_some_iff.mp h
    split at h
    · obtain ⟨x, -, h⟩ := Option.bind_eq_some_iff.mp h
      split at h
      · obtain ⟨d, hd, h⟩ := Option.bind_eq_some_iff.mp h
        obtain ⟨hlt, -⟩ := List.getElem?_eq_some_iff.mp hd
        rw [← Option.some.inj h]
        split <;> omega
      · exact Option.some.inj h ▸ Nat.zero_le _
    · exact Option.some.inj h ▸ Nat.zero_le _
  · exact Option.some.inj h ▸ Nat.zero_le _

theorem reads_strtoulAt (base : Nat) {nptr : Nat} (hnptr : nptr ≤ source.length) :
    Reads (strtoulAt source nptr base) (strtoul base (source.drop nptr))
      fun r => (r.1, nptr + r.2) := by
  unfold strtoulAt strtoul
  refine (reads_scanAt source _ hnptr (by omega)).bind fun k hk => ?_
  refine (reads_readAt source nptr k).bind fun sign hsign => ?_
  obtain ⟨hlt, -⟩ := List.getElem?_eq_some_iff.mp hsign
  rw [List.length_drop] at hlt
  simp only [id]
  generalize hj : (if sign = byte '-' ∨ sign = byte '+' then k + 1 else k) = j
  have hpos : (if sign = byte '-' ∨ sign = byte '+' then nptr + k + 1 else nptr + k) =
      nptr + j := by
    rw [← hj]
    split <;> rfl
  have hj' : nptr + j ≤ source.length := by
    rw [← hj]
    split <;> omega
  rw [hpos, List.drop_drop]
  refine (reads_hexPrefixAt base (nptr + j)).bind fun skip hskip => ?_
  have hle := hexPrefix_le hskip
  rw [List.length_drop] at hle
  rw [List.drop_drop, ← Nat.add_assoc]
  simp only [id]
  generalize hi : nptr + j + skip = i
  refine (reads_scanAt source _ (by omega) (by omega)).bind fun len hlen => ?_
  obtain ⟨hin, -⟩ := List.findIdx?_eq_some_iff_findIdx_eq.mp hlen
  rw [List.length_drop] at hin
  rw [Nat.add_sub_cancel_left]
  refine (reads_readAll source (by omega)).step ?_
  simp only [id]
  split
  · exact fun _ => rfl
  · intro buffer
    simp only [← hi, Nat.add_assoc]
    rfl

/-- The value of the number that is at the front of what is left, and its length with the
semicolon; nothing if it runs on to the end. -/
def number (rest : List U8) : Option (Option (Nat × Nat)) :=
  if rest[0]? = some (byte '#') then do
    let hex : Bool := rest[1]? = some (byte 'x')
    let start := if hex then 2 else 1
    let r ← strtoul (if hex then 16 else 10) (rest.drop start)
    if rest[start + r.2]? = some (byte ';') then return some (r.1, start + r.2 + 1)
    else return none
  else return none

theorem reads_charAt (pos k : Nat) (ch : U8) :
    Reads (charAt source (pos + k) ch) (some (decide ((source.drop pos)[k]? = some ch))) id := by
  intro buffer
  unfold charAt
  rw [List.getElem?_drop]
  split
  · rename_i hlt
    rw [Nat.add_zero, bind_of_ok (readAt_of_some (List.getElem?_eq_getElem hlt) buffer),
      List.getElem?_eq_getElem hlt]
    simp only [Option.some.injEq]
    rfl
  · rename_i hge
    rw [List.getElem?_eq_none (by omega)]
    rfl

variable {pos : Nat}

theorem reads_numberAt (hpos : pos ≤ source.length) :
    Reads (numberAt source pos) (number (source.drop pos))
      fun r => r.map fun r => (r.1, pos + r.2) := by
  unfold numberAt number
  refine (reads_charAt pos 0 _).step ?_
  simp only [id]
  by_cases hsharp : (source.drop pos)[0]? = some (byte '#')
  · rw [if_pos (decide_eq_true hsharp), if_pos hsharp]
    refine (reads_charAt pos 1 _).step ?_
    simp only [id]
    have hstart : pos + (if (source.drop pos)[1]? = some (byte 'x') then 2 else 1) ≤
        source.length := by
      obtain ⟨h₀, -⟩ := List.getElem?_eq_some_iff.mp hsharp
      rw [List.length_drop] at h₀
      split
      · rename_i hx
        obtain ⟨h₁, -⟩ := List.getElem?_eq_some_iff.mp hx
        rw [List.length_drop] at h₁
        omega
      · omega
    simp only [decide_eq_true_eq, List.drop_drop]
    generalize (if (source.drop pos)[1]? = some (byte 'x') then 2 else 1) = start at hstart ⊢
    refine (reads_strtoulAt _ hstart).bind fun r _ => ?_
    simp only [Nat.add_assoc]
    refine (reads_charAt pos _ _).step ?_
    simp only [id, decide_eq_true_eq]
    split <;> exact fun _ => rfl
  · rw [if_neg (by simpa using hsharp), if_neg hsharp]
    exact fun _ => rfl

/-! ## Decoding XML -/

/-- The escape sequence that is at the front of what is left behind an ampersand. -/
def nameOf (rest : List U8) (names : List (List U8 × U8)) : Option (List U8 × U8) :=
  names.find? fun entry => entry.1 <+: rest

/-- The turns of `xml_decode`. -/
def xmlStep : Turn U8 U8
  | [], _ => none
  | ch :: rest, room =>
    if ch ≠ byte '&' then some ([ch], 1)
    else
      match nameOf rest xmlNames with
      | some (name, ch) => some ([ch], 1 + name.length)
      | none =>
        match number rest with
        | some (some (val, len)) =>
          if utf8Encode (room + 1) val = [] then none
          else some (utf8Encode (room + 1) val, 1 + len)
        | _ => none

/-- No number runs on to the end of what is left. -/
def XmlEnds : List U8 → Prop
  | [] => True
  | ch :: rest => ch = byte '&' → nameOf rest xmlNames = none → number rest ≠ none

theorem reads_matchesAt (hpos : pos ≤ source.length) (name : List U8) :
    Reads (matchesAt source pos name) (some (decide (name <+: source.drop pos))) id := by
  unfold matchesAt
  split
  · refine (reads_readAll source (by assumption)).step ?_
    intro buffer
    simp only [id, List.prefix_iff_eq_take, eq_comm (a := name)]
    rfl
  · rename_i hshort
    have hnot : ¬ name <+: source.drop pos := by
      intro h
      have hle := h.length_le
      rw [List.length_drop] at hle
      omega
    exact fun _ => by simp [hnot]; rfl

theorem reads_nameAt (hpos : pos ≤ source.length) (names : List (List U8 × U8)) :
    Reads (nameAt source pos names) (some (nameOf (source.drop pos) names)) id := by
  induction names with
  | nil => exact fun _ => rfl
  | cons entry names ih =>
    rw [nameAt, nameOf, List.find?_cons]
    refine (reads_matchesAt hpos entry.1).step ?_
    simp only [id]
    cases decide (entry.1 <+: source.drop pos) with
    | false => exact ih
    | true => exact fun _ => rfl

theorem utf8Encode_length_le (room value : Nat) : (utf8Encode room value).length ≤ room := by
  unfold utf8Encode
  repeat' split
  all_goals simp only [List.length_cons, List.length_nil]; omega

theorem xmlDecodeTurn_does :
    TurnDoes source buflen (xmlDecodeTurn source buflen) (fun rest _ => XmlEnds rest) xmlStep := by
  intro srcpos bufpos buffer hsrcpos hroom hbuffer
  have hfront := List.drop_eq_getElem_cons hsrcpos
  generalize source[srcpos] = ch at hfront
  generalize source.drop (srcpos + 1) = rest at hfront
  have htail := drop_succ_of_drop hfront
  have hpos : srcpos + 1 ≤ source.length := hsrcpos
  have hname := reads_nameAt hpos xmlNames
  have hnumber := reads_numberAt hpos
  rw [htail] at hname hnumber
  rw [hfront, xmlDecodeTurn, Nat.add_zero, readAt_bind hfront, xmlStep]
  simp only [XmlEnds]
  by_cases hamp : ch = byte '&'
  · rw [if_neg (not_not.mpr hamp), if_neg (not_not.mpr hamp), bind_of_ok (hname buffer)]
    simp only [id, hamp, forall_const]
    cases nameOf rest xmlNames with
    | some entry =>
      simp only [Nat.add_assoc srcpos]
      exact ⟨fun _ => emit_one hbuffer hroom, fun h => absurd (by simp) h⟩
    | none =>
      simp only [forall_const]
      cases hr : number rest with
      | none =>
        rw [hr] at hnumber
        exact ⟨fun h => absurd rfl h, fun _ => ⟨.read, bind_of_error (hnumber buffer)⟩⟩
      | some r =>
        rw [hr] at hnumber
        refine ⟨fun _ => (bind_of_ok (hnumber buffer)).trans ?_, fun h => absurd (by simp) h⟩
        cases r with
        | none => rfl
        | some r =>
          have hlen := utf8Encode_length_le (buflen - bufpos) r.1
          have hroom' : buflen - 1 - bufpos + 1 = buflen - bufpos := by omega
          have hfits : bufpos + (utf8Encode (buflen - bufpos) r.1).length ≤ buflen := by omega
          simp only [Option.map_some, hroom', Nat.add_assoc srcpos]
          split
          · rfl
          · exact emit_eq hbuffer hfits
  · rw [if_pos hamp, if_pos hamp]
    exact ⟨fun _ => emit_one hbuffer hroom, fun h => absurd (fun heq => absurd heq hamp) h⟩

/-! ## Programs -/

/-- A program writes bytes and a terminator to the start of the buffer, and returns how many. -/
def Writes (m : Checked U8 Nat) (buffer out : List U8) : Prop :=
  m buffer = .ok (out.length, overwrite buffer 0 (out ++ [0])) ∧ out.length < buffer.length

theorem take_overwrite (buffer out : List U8) :
    (overwrite buffer 0 (out ++ [0])).take out.length = out := by
  rw [overwrite, List.take_zero, List.nil_append, List.append_assoc, List.take_left]

theorem writes_of_stays {safe : List U8 → Nat → Prop}
    (hturn : TurnDoes source buffer.length turn safe spec) (hbuffer : 1 ≤ buffer.length)
    (hstays : Stays safe spec (buffer.length - 1) source) :
    Writes (if buffer.length = 0 then return 0
      else terminated 0 source.length buffer.length turn) buffer
      (transcode spec (buffer.length - 1) source) := by
  rw [if_neg (by omega)]
  exact terminated_eq hturn 0 rfl hbuffer hstays

theorem writes_of_fits
    (hturn : TurnDoes source buffer.length turn (fun _ _ => True) spec) (hfits : spec.Fits)
    (hbuffer : 1 ≤ buffer.length) :
    Writes (if buffer.length = 0 then return 0
      else terminated 0 source.length buffer.length turn) buffer
      (transcode spec (buffer.length - 1) source) :=
  writes_of_stays hturn hbuffer (stays_of_fits (fun _ _ => trivial) hfits _ _)

theorem fits_of_one
    (h : ∀ rest room out taken, spec rest room = some (out, taken) → out.length = 1) :
    spec.Fits := by
  intro rest room out taken _ hroom hspec
  rw [h rest room out taken hspec]
  omega

theorem unescapeStep_fits (esc : U8) : (unescapeStep esc).Fits := by
  refine fits_of_one fun rest room out taken h => ?_
  unfold unescapeStep at h
  split at h
  · cases h
  · cases h
    rfl
  · split at h <;> (cases h; rfl)

theorem unhexStep_fits (esc : U8) (plain : U8 → U8) : (unhexStep esc plain).Fits := by
  refine fits_of_one fun rest room out taken h => ?_
  unfold unhexStep at h
  split at h
  · cases h
  · split at h
    · split at h <;> (cases h; rfl)
    · cases h
      rfl
  · cases h
    rfl

section

variable (hbuffer : 1 ≤ buffer.length) (illegal : List U8) (esc : U8)
include hbuffer

theorem escape_writes : Writes (escape source buffer.length illegal esc) buffer
    (transcode (unitTurn (firstUnit (escapeUnit illegal esc))) (buffer.length - 1) source) :=
  writes_of_fits (escapeTurn_does illegal esc) (unitTurn_fits _) hbuffer

theorem unescape_writes : Writes (unescape source buffer.length esc) buffer
    (transcode (unescapeStep esc) (buffer.length - 1) source) :=
  writes_of_fits (unescapeTurn_does esc) (unescapeStep_fits esc) hbuffer

theorem encode_writes : Writes (encode source buffer.length illegal esc) buffer
    (transcode (unitTurn (firstUnit (hexUnit esc fun ch => ch = esc || strchr illegal ch)))
      (buffer.length - 1) source) :=
  writes_of_fits (hexUnitTurn_does esc _) (unitTurn_fits _) hbuffer

theorem decode_writes : Writes (decode source buffer.length esc) buffer
    (transcode (unhexStep esc id) (buffer.length - 1) source) :=
  writes_of_fits (unhexUnitTurn_does esc id) (unhexStep_fits esc id) hbuffer

theorem urlEncode_writes : Writes (urlEncode source buffer.length) buffer
    (transcode (unitTurn (firstUnit (hexUnit (byte '%') urlUnsafe))) (buffer.length - 1)
      source) :=
  writes_of_fits (hexUnitTurn_does _ _) (unitTurn_fits _) hbuffer

theorem urlDecode_writes : Writes (urlDecode source buffer.length) buffer
    (transcode (unhexStep (byte '%') fun ch => if ch = byte '+' then byte ' ' else ch)
      (buffer.length - 1) source) :=
  writes_of_fits (unhexUnitTurn_does _ _) (unhexStep_fits _ _) hbuffer

theorem xmlEncode_writes : Writes (xmlEncode source buffer.length) buffer
    (transcode (unitTurn (firstUnit xmlUnit)) (buffer.length - 1) source) :=
  writes_of_fits xmlEncodeTurn_does (unitTurn_fits _) hbuffer

theorem htmlEncode_writes : Writes (htmlEncode source buffer.length) buffer
    (transcode (unitTurn htmlUnit) (buffer.length - 1) source) :=
  writes_of_fits htmlEncodeTurn_does (unitTurn_fits _) hbuffer

theorem xmlDecode_writes
    (hstays : Stays (fun rest _ => XmlEnds rest) xmlStep (buffer.length - 1) source) :
    Writes (xmlDecode source buffer.length) buffer
      (transcode xmlStep (buffer.length - 1) source) :=
  writes_of_stays xmlDecodeTurn_does hbuffer hstays

end

end Libjingle.StringEncode
