import Libjingle.Lib.Transcoding

/-!
# Programs between a source and a buffer

A program that reads places of a source and writes places of a buffer. Both have a size, and an
access outside is a fault, which ends the program.

* `terminated` writes the terminator behind what the loop wrote.

## Results

* **`terminated_eq`**, **`terminated_fault`**: the loop does what the transcoder does, with the
  terminator behind it, if the turns stay, and faults otherwise.
-/

namespace Libjingle.Lib

variable {α : Type}

/-- An access outside of the source or the buffer. -/
inductive Fault
  | read
  | write
deriving DecidableEq

/-- A program over a buffer, which it changes, and which may fault. -/
abbrev Checked (α β : Type) := StateT (List α) (Except Fault) β

namespace Checked

/-- The element at a place of the source. -/
def readAt (source : List α) (i : Nat) : Checked α α := fun buffer =>
  match source[i]? with
  | some a => .ok (a, buffer)
  | none => .error .read

/-- An element is written to a place of the buffer. -/
def writeAt (i : Nat) (a : α) : Checked α Unit := fun buffer =>
  if i < buffer.length then .ok ((), buffer.set i a) else .error .write

/-- Elements are written from a place on. -/
def writeAll : Nat → List α → Checked α Unit
  | _, [] => pure ()
  | i, a :: out => do
    writeAt i a
    writeAll (i + 1) out

/-- The buffer with elements from a place on. -/
def overwrite (buffer : List α) (i : Nat) (out : List α) : List α :=
  buffer.take i ++ out ++ buffer.drop (i + out.length)

/-! ## Accesses -/

variable {source buffer : List α} {i : Nat} {a : α} {β γ : Type}

theorem bind_of_ok {m : Checked α β} {f : β → Checked α γ} {b : β} {buffer' : List α}
    (h : m buffer = .ok (b, buffer')) : (m >>= f) buffer = f b buffer' := by
  change (m buffer).bind (fun x => f x.1 x.2) = _
  rw [h]
  rfl

theorem bind_of_error {m : Checked α β} {f : β → Checked α γ} {e : Fault}
    (h : m buffer = .error e) : (m >>= f) buffer = .error e := by
  change (m buffer).bind (fun x => f x.1 x.2) = _
  rw [h]
  rfl

theorem readAt_of_some (h : source[i]? = some a) (buffer : List α) :
    readAt source i buffer = .ok (a, buffer) := by
  rw [readAt, h]

theorem readAt_of_le (h : source.length ≤ i) (buffer : List α) :
    readAt source i buffer = .error .read := by
  rw [readAt, List.getElem?_eq_none h]

/-- What is read at the front of what is left. -/
theorem readAt_bind {rest : List α} (h : source.drop i = a :: rest) (f : α → Checked α β) :
    (readAt source i >>= f) buffer = f a buffer := by
  have hget : source[i]? = some a := by
    rw [← Nat.add_zero i, ← List.getElem?_drop, h]
    rfl
  exact bind_of_ok (readAt_of_some hget buffer)

variable {out : List α}

@[simp] theorem overwrite_length (h : i + out.length ≤ buffer.length) :
    (overwrite buffer i out).length = buffer.length := by
  simp only [overwrite, List.length_append, List.length_take, List.length_drop]
  omega

@[simp] theorem overwrite_nil : overwrite buffer i [] = buffer := by
  simp [overwrite]

/-- Writing goes on where it stopped. -/
theorem overwrite_append (h : i + out.length ≤ buffer.length) (out' : List α) :
    overwrite (overwrite buffer i out) (i + out.length) out' =
      overwrite buffer i (out ++ out') := by
  have htake : (buffer.take i).length = i := List.length_take_of_le (by omega)
  have hlen : (buffer.take i ++ out).length = i + out.length := by
    rw [List.length_append, htake]
  rw [overwrite, overwrite, overwrite, ← hlen, List.take_left, List.drop_length_add_append,
    List.drop_drop, hlen, List.length_append]
  simp only [List.append_assoc, Nat.add_assoc]

theorem writeAt_eq (h : i < buffer.length) (a : α) :
    writeAt i a buffer = .ok ((), overwrite buffer i [a]) := by
  rw [writeAt, if_pos h, List.set_eq_take_append_cons_drop, if_pos h]
  simp [overwrite]

theorem writeAt_of_le (h : buffer.length ≤ i) (a : α) :
    writeAt i a buffer = .error .write := by
  rw [writeAt, if_neg (by omega)]

theorem writeAll_eq (h : i + out.length ≤ buffer.length) :
    writeAll i out buffer = .ok ((), overwrite buffer i out) := by
  induction out generalizing i buffer with
  | nil => rw [overwrite_nil]; rfl
  | cons a out ih =>
    rw [List.length_cons] at h
    have hone : i + [a].length ≤ buffer.length := by rw [List.length_singleton]; omega
    rw [writeAll, bind_of_ok (writeAt_eq (by omega) a), ih (by rw [overwrite_length hone]; omega)]
    have happend := overwrite_append hone out
    rw [List.length_singleton] at happend
    rw [happend]
    rfl

/-! ## Reading -/

/-- A program that only reads: it computes a value of what is read, or leaves the source. -/
def Reads (m : Checked α β) (v : Option γ) (f : γ → β) : Prop :=
  ∀ buffer, m buffer = match v with
    | some x => .ok (f x, buffer)
    | none => .error .read

section

variable {δ ε : Type} {m : Checked α β} {v : Option γ} {f : γ → β}

theorem Reads.pure (x : γ) : Reads (pure (f x) : Checked α β) (some x) f := fun _ => rfl

theorem Reads.bind {k : β → Checked α δ} {w : γ → Option ε} {g : ε → δ} (hm : Reads m v f)
    (hk : ∀ x, v = some x → Reads (k (f x)) (w x) g) : Reads (m >>= k) (v >>= w) g := by
  intro buffer
  cases v with
  | none => exact bind_of_error (hm buffer)
  | some x => exact (bind_of_ok (hm buffer)).trans (hk x rfl buffer)

/-- What is read is known to be there. -/
theorem Reads.step {k : β → Checked α δ} {w : Option ε} {g : ε → δ} {x : γ}
    (hm : Reads m (some x) f) (hk : Reads (k (f x)) w g) : Reads (m >>= k) w g :=
  fun buffer => (bind_of_ok (hm buffer)).trans (hk buffer)

theorem reads_readAt (source : List α) (i k : Nat) :
    Reads (readAt source (i + k)) (source.drop i)[k]? id := by
  intro buffer
  rw [List.getElem?_drop, readAt]
  cases source[i + k]? <;> rfl

end

/-- The elements from a place on that satisfy a test end at a place; at most `n` are looked at. -/
def scanAt (source : List α) (p : α → Bool) : Nat → Nat → Checked α Nat
  | 0, i => pure i
  | n + 1, i => do
    let a ← readAt source i
    if p a then scanAt source p n (i + 1) else return i

theorem reads_scanAt (source : List α) (p : α → Bool) {n i : Nat} (hi : i ≤ source.length)
    (hn : source.length < n + i) :
    Reads (scanAt source p n i) ((source.drop i).findIdx? fun a => !p a) (i + ·) := by
  intro buffer
  induction n generalizing i with
  | zero => omega
  | succ n ih =>
    rcases Nat.lt_or_ge i source.length with hlt | hge
    · rw [scanAt, bind_of_ok (readAt_of_some (List.getElem?_eq_getElem hlt) buffer),
        List.drop_eq_getElem_cons hlt, List.findIdx?_cons]
      cases p source[i] with
      | false => rfl
      | true =>
        rw [if_pos rfl, ih (by omega) (by omega)]
        simp only [Bool.not_true, Bool.false_eq_true, if_false]
        cases (source.drop (i + 1)).findIdx? fun a => !p a with
        | none => rfl
        | some k =>
          simp only [Option.map_some]
          congr 2
          omega
    · rw [scanAt, bind_of_error (readAt_of_le hge buffer), List.drop_eq_nil_of_le hge]
      rfl

/-- The `n` elements from a place on. -/
def readAll (source : List α) : Nat → Nat → Checked α (List α)
  | 0, _ => pure []
  | n + 1, i => do
    let a ← readAt source i
    let rest ← readAll source n (i + 1)
    return a :: rest

theorem reads_readAll (source : List α) {n i : Nat} (hn : i + n ≤ source.length) :
    Reads (readAll source n i) (some ((source.drop i).take n)) id := by
  induction n generalizing i with
  | zero => exact fun _ => rfl
  | succ n ih =>
    have hlt : i < source.length := by omega
    have hread : Reads (readAt source i) (some source[i]) id := fun buffer =>
      readAt_of_some (List.getElem?_eq_getElem hlt) buffer
    rw [List.drop_eq_getElem_cons hlt, List.take_succ_cons]
    exact hread.step ((ih (by omega)).step fun _ => rfl)

/-! ## Loops -/

/-- The turns of a loop from a place of the source and a place of the buffer on, at most `n` of
them: where in the buffer it ends. -/
def turnLoop (srclen buflen : Nat) (turn : Nat → Nat → Checked α (Option (Nat × Nat))) :
    Nat → Nat → Nat → Checked α Nat
  | 0, _, bufpos => pure bufpos
  | n + 1, srcpos, bufpos =>
    if srcpos < srclen ∧ bufpos + 1 < buflen then do
      match ← turn srcpos bufpos with
      | none => pure bufpos
      | some (srcpos, bufpos) => turnLoop srclen buflen turn n srcpos bufpos
    else pure bufpos

/-- A loop over the whole source and a terminator behind what it wrote: the length of that. -/
def terminated (terminator : α) (srclen buflen : Nat)
    (turn : Nat → Nat → Checked α (Option (Nat × Nat))) : Checked α Nat := do
  let bufpos ← turnLoop srclen buflen turn srclen 0 0
  writeAt bufpos terminator
  return bufpos

/-- What is left of a turn: the end, or the places behind what it took and wrote. -/
def outcome (srcpos bufpos : Nat) (buffer : List α) :
    Option (List α × Nat) → Except Fault (Option (Nat × Nat) × List α)
  | none => .ok (none, buffer)
  | some (out, taken) =>
    .ok (some (srcpos + taken, bufpos + out.length), overwrite buffer bufpos out)

/-- **A turn of a loop does what a turn of a transcoder does** where that is safe, and faults where
it is not. -/
def TurnDoes (source : List α) (buflen : Nat) (turn : Nat → Nat → Checked α (Option (Nat × Nat)))
    (safe : List α → Nat → Prop) (spec : Turn α α) : Prop :=
  ∀ srcpos bufpos buffer, srcpos < source.length → bufpos + 1 < buflen → buffer.length = buflen →
    (safe (source.drop srcpos) (buflen - 1 - bufpos) →
      turn srcpos bufpos buffer =
        outcome srcpos bufpos buffer (spec (source.drop srcpos) (buflen - 1 - bufpos))) ∧
    (¬ safe (source.drop srcpos) (buflen - 1 - bufpos) →
      ∃ fault, turn srcpos bufpos buffer = .error fault)

/-- No turn leaves the source, or the room that the terminator leaves. -/
def StaysFor [DecidableEq α] (safe : List α → Nat → Prop) (spec : Turn α α) :
    Nat → Nat → List α → Prop
  | 0, _, _ => True
  | n + 1, room, rest =>
    rest = [] ∨ room = 0 ∨ safe rest room ∧ ∀ out taken, spec rest room = some (out, taken) →
      out.length ≤ room ∧ StaysFor safe spec n (room - out.length) (rest.drop taken)

variable {buflen : Nat} {turn : Nat → Nat → Checked α (Option (Nat × Nat))}
  {safe : List α → Nat → Prop} {spec : Turn α α}

variable {srcpos bufpos : Nat}

/-- The loop goes on as long as the transcoder does. -/
theorem goes_on_iff : srcpos < source.length ∧ bufpos + 1 < buflen ↔
      ¬(source.drop srcpos = [] ∨ buflen - 1 - bufpos = 0) := by
  rw [List.drop_eq_nil_iff]
  omega

variable {n : Nat}

theorem turnLoop_ends (h : ¬(srcpos < source.length ∧ bufpos + 1 < buflen)) (buffer : List α) :
    turnLoop source.length buflen turn n srcpos bufpos buffer = .ok (bufpos, buffer) := by
  cases n with
  | zero => rfl
  | succ n =>
    rw [turnLoop, if_neg h]
    rfl

variable [DecidableEq α]

theorem turnLoop_of_stays (hturn : TurnDoes source buflen turn safe spec)
    (hbuffer : buffer.length = buflen) (hbufpos : bufpos < buflen)
    (hstays : StaysFor safe spec n (buflen - 1 - bufpos) (source.drop srcpos)) :
    turnLoop source.length buflen turn n srcpos bufpos buffer =
      .ok (bufpos + (turns spec n (buflen - 1 - bufpos) (source.drop srcpos)).length,
        overwrite buffer bufpos (turns spec n (buflen - 1 - bufpos) (source.drop srcpos))) ∧
      (turns spec n (buflen - 1 - bufpos) (source.drop srcpos)).length ≤ buflen - 1 - bufpos := by
  induction n generalizing srcpos bufpos buffer with
  | zero =>
    rw [turns, overwrite_nil]
    exact ⟨rfl, Nat.zero_le _⟩
  | succ n ih =>
    by_cases hmore : srcpos < source.length ∧ bufpos + 1 < buflen
    · have hnot := goes_on_iff.mp hmore
      obtain ⟨hsafe, hnext⟩ := (hstays.resolve_left (not_or.mp hnot).1).resolve_left
        (not_or.mp hnot).2
      have hdoes := (hturn srcpos bufpos buffer hmore.1 hmore.2 hbuffer).1 hsafe
      rw [turnLoop, if_pos hmore, turns, if_neg hnot]
      cases hspec : spec (source.drop srcpos) (buflen - 1 - bufpos) with
      | none =>
        rw [hspec] at hdoes
        rw [bind_of_ok hdoes, overwrite_nil]
        exact ⟨rfl, Nat.zero_le _⟩
      | some r =>
        obtain ⟨hout, hrest⟩ := hnext r.1 r.2 hspec
        have hfits : bufpos + r.1.length ≤ buffer.length := by omega
        have hroom : buflen - 1 - bufpos - r.1.length = buflen - 1 - (bufpos + r.1.length) := by
          omega
        rw [hspec] at hdoes
        rw [bind_of_ok hdoes]
        rw [hroom, List.drop_drop] at hrest
        have hlen' : (overwrite buffer bufpos r.1).length = buflen :=
          (overwrite_length hfits).trans hbuffer
        obtain ⟨hloop, hlen⟩ := ih hlen' (by omega) hrest
        simp only [hroom, List.drop_drop]
        rw [hloop, overwrite_append hfits, List.length_append, Nat.add_assoc]
        exact ⟨rfl, by omega⟩
    · rw [turnLoop_ends hmore, turns, if_pos (not_not.mp fun h => hmore (goes_on_iff.mpr h)),
        overwrite_nil]
      exact ⟨rfl, Nat.zero_le _⟩

theorem turnLoop_of_not_stays (hturn : TurnDoes source buflen turn safe spec)
    (hnear : ∀ rest room out taken, spec rest room = some (out, taken) → out.length ≤ room + 1)
    (hbuffer : buffer.length = buflen) (hbufpos : bufpos < buflen)
    (hstays : ¬ StaysFor safe spec n (buflen - 1 - bufpos) (source.drop srcpos)) :
    (∃ fault, turnLoop source.length buflen turn n srcpos bufpos buffer = .error fault) ∨
      ∃ buffer', turnLoop source.length buflen turn n srcpos bufpos buffer = .ok (buflen, buffer') ∧
        buffer'.length = buflen := by
  induction n generalizing srcpos bufpos buffer with
  | zero => exact absurd trivial hstays
  | succ n ih =>
    have hmore : srcpos < source.length ∧ bufpos + 1 < buflen := by
      rw [goes_on_iff]
      exact fun h => hstays (h.elim .inl fun h => .inr (.inl h))
    have hdoes := hturn srcpos bufpos buffer hmore.1 hmore.2 hbuffer
    rw [turnLoop, if_pos hmore]
    by_cases hsafe : safe (source.drop srcpos) (buflen - 1 - bufpos)
    · have hgo := hdoes.1 hsafe
      cases hspec : spec (source.drop srcpos) (buflen - 1 - bufpos) with
      | none =>
        exact absurd (.inr (.inr ⟨hsafe, fun _ _ h => by rw [hspec] at h; cases h⟩)) hstays
      | some r =>
        have hout := hnear _ _ r.1 r.2 hspec
        have hfits : bufpos + r.1.length ≤ buffer.length := by omega
        have hlen := overwrite_length hfits
        rw [hspec] at hgo
        rw [bind_of_ok hgo]
        by_cases hroom : r.1.length ≤ buflen - 1 - bufpos
        · refine ih (by rw [hlen, hbuffer]) (by omega) fun hrest => ?_
          refine hstays (.inr (.inr ⟨hsafe, fun out taken h => ?_⟩))
          rw [hspec] at h
          cases h
          refine ⟨hroom, ?_⟩
          rw [Nat.sub_sub, List.drop_drop]
          rwa [Nat.sub_sub] at hrest ⊢
        · -- The output fills the buffer up to its end.
          refine .inr ⟨_, ?_, hlen.trans hbuffer⟩
          simp only
          rw [turnLoop_ends (by omega)]
          congr 2
          omega
    · obtain ⟨fault, hfault⟩ := hdoes.2 hsafe
      exact .inl ⟨fault, bind_of_error hfault⟩

/-- The turns of the whole source stay. -/
def Stays (safe : List α → Nat → Prop) (spec : Turn α α) (room : Nat) (s : List α) : Prop :=
  StaysFor safe spec s.length room s

/-- **The loop does what the transcoder does**, with the terminator behind it, if the turns stay. -/
theorem terminated_eq (hturn : TurnDoes source buflen turn safe spec) (terminator : α)
    (hbuffer : buffer.length = buflen) (hbuflen : 0 < buflen)
    (hstays : Stays safe spec (buflen - 1) source) :
    terminated terminator source.length buflen turn buffer =
        .ok ((transcode spec (buflen - 1) source).length,
          overwrite buffer 0 (transcode spec (buflen - 1) source ++ [terminator])) ∧
      (transcode spec (buflen - 1) source).length < buflen := by
  have hstart : StaysFor safe spec source.length (buflen - 1 - 0) (source.drop 0) := hstays
  obtain ⟨hloop, hlen⟩ := turnLoop_of_stays hturn hbuffer hbuflen hstart
  change (transcode spec (buflen - 1) source).length ≤ buflen - 1 at hlen
  change _ = Except.ok (0 + (transcode spec (buflen - 1) source).length,
    overwrite buffer 0 (transcode spec (buflen - 1) source)) at hloop
  generalize transcode spec (buflen - 1) source = out at hloop hlen
  have hfits : 0 + out.length ≤ buffer.length := by omega
  have happend := overwrite_append hfits [terminator]
  refine ⟨?_, by omega⟩
  have hplace : 0 + out.length < (overwrite buffer 0 out).length := by
    rw [overwrite_length hfits]
    omega
  rw [terminated, bind_of_ok hloop, bind_of_ok (writeAt_eq hplace _), happend, Nat.zero_add]
  rfl

/-- **The loop faults** if the turns do not stay. -/
theorem terminated_fault (hturn : TurnDoes source buflen turn safe spec)
    (hnear : ∀ rest room out taken, spec rest room = some (out, taken) → out.length ≤ room + 1)
    (terminator : α) (hbuffer : buffer.length = buflen) (hbuflen : 0 < buflen)
    (hstays : ¬ Stays safe spec (buflen - 1) source) :
    ∃ fault, terminated terminator source.length buflen turn buffer = .error fault := by
  have hstart : ¬ StaysFor safe spec source.length (buflen - 1 - 0) (source.drop 0) := hstays
  have hloop := turnLoop_of_not_stays hturn hnear hbuffer hbuflen hstart
  unfold terminated
  rcases hloop with ⟨fault, hfault⟩ | ⟨buffer', hend, hlen⟩
  · exact ⟨fault, bind_of_error hfault⟩
  · rw [bind_of_ok hend]
    exact ⟨.write, bind_of_error (writeAt_of_le (Nat.le_of_eq hlen) _)⟩

/-- Turns that are always safe and keep to the room stay. -/
theorem stays_of_fits (hsafe : ∀ rest room, safe rest room) (hfits : spec.Fits) (room : Nat)
    (s : List α) : Stays safe spec room s := by
  unfold Stays
  generalize s.length = n
  induction n generalizing room s with
  | zero => trivial
  | succ n ih =>
    by_cases hs : s = []
    · exact .inl hs
    by_cases hroom : room = 0
    · exact .inr (.inl hroom)
    · refine .inr (.inr ⟨hsafe s room, fun out taken h => ?_⟩)
      exact ⟨hfits s room out taken hs hroom h, ih _ _⟩

/-- What an encoder wrote keeps the turns of its decoder in the room, if the decoder only takes what
is safe. -/
theorem staysFor_transcode {P : List α → Prop} {code : List α → List α × Nat} {worst : Nat}
    (h : Decodes P code worst spec) (hcode : (unitTurn code).Takes)
    (hsafe : ∀ rest room r, spec rest room = some r → safe rest room) {s : List α} (hs : P s)
    (n room room' : Nat) (hroom' : (transcode (unitTurn code) room s).length ≤ room') :
    StaysFor safe spec n room' (transcode (unitTurn code) room s) := by
  induction n generalizing room room' s with
  | zero => trivial
  | succ n ih =>
    by_cases hnil : s = []
    · subst hnil
      exact .inl rfl
    by_cases hfits : (code s).1.length ≤ room
    · obtain ⟨hpos, hle⟩ := h.takes s hs hnil
      have hlonger := h.longer s hs hnil
      have hturn : unitTurn code s room = some ((code s).1, (code s).2) := if_pos hfits
      rw [transcode_of_some hcode hnil (by omega) hturn] at hroom' ⊢
      have hrest := ih (h.stays s hs hnil) (room - (code s).1.length)
      generalize transcode (unitTurn code) (room - (code s).1.length) (s.drop (code s).2) = tail
        at hrest hroom' ⊢
      rw [List.length_append] at hroom'
      have hread := h.reads s hs hnil tail room' hroom'
      refine .inr (.inr ⟨hsafe _ _ _ hread, fun out taken hout => ?_⟩)
      obtain ⟨rfl, rfl⟩ := Prod.mk.inj (Option.some.inj (hread.symm.trans hout))
      rw [List.length_take_of_le hle, List.drop_left]
      exact ⟨by omega, hrest _ (by omega)⟩
    · have hturn : unitTurn code s room = none := if_neg hfits
      rw [transcode_of_none hturn]
      exact .inl rfl

end Checked

end Libjingle.Lib
