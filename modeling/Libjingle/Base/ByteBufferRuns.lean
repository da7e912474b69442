import Libjingle.Base.ByteBufferPositions
import Libjingle.Lib.Sessions

/-!
# `ByteBuffer` as a queue of bytes with bookmarks (`base/bytebuffer.h`, `base/bytebuffer.cc`)

A caller makes any calls of the class, and keeps every read position that it gets.

## Results

* **`session_follows_queue`**: a session whose calls are careful follows the queue.
-/

namespace Libjingle.Positions

open Lib

/-! ## Numbers -/

inductive Width where
  | uint8
  | uint16
  | uint24
  | uint32
  | uint64
  deriving DecidableEq

namespace Width

def bits : Width → Nat
  | uint8 => 8
  | uint16 => 16
  | uint24 => 32
  | uint32 => 32
  | uint64 => 64

def size : Width → Nat
  | uint8 => 1
  | uint16 => 2
  | uint24 => 3
  | uint32 => 4
  | uint64 => 8

end Width

/-- The methods that read a number. -/
def ByteBuffer.readUInt (bigEndian : Bool) (b : ByteBuffer) :
    (w : Width) → Option (BitVec w.bits) × ByteBuffer
  | .uint8 => b.readUInt8 bigEndian
  | .uint16 => b.readUInt16 bigEndian
  | .uint24 => b.readUInt24 bigEndian
  | .uint32 => b.readUInt32 bigEndian
  | .uint64 => b.readUInt64 bigEndian

/-- The methods that write a number. -/
def ByteBuffer.writeUInt (bigEndian : Bool) (mem : Nat → Nat → U8) (b : ByteBuffer) :
    (w : Width) → BitVec w.bits → ByteBuffer
  | .uint8, val => b.writeUInt8 bigEndian mem val
  | .uint16, val => b.writeUInt16 bigEndian mem val
  | .uint24, val => b.writeUInt24 bigEndian mem val
  | .uint32, val => b.writeUInt32 bigEndian mem val
  | .uint64, val => b.writeUInt64 bigEndian mem val

namespace Width

variable (bigEndian : Bool) (byteOrder : ByteOrder)

/-- The bytes that a number is written as. -/
def written : (w : Width) → BitVec w.bits → List U8
  | uint8, val => memory bigEndian 1 val.toNat
  | uint16, val => ByteBuffer.numberBytes bigEndian byteOrder 2 val.toNat
  | uint24, val =>
    ((ByteBuffer.numberBytes bigEndian byteOrder 4 val.toNat).drop
      (if byteOrder = .network || bigEndian then 1 else 0)).take 3
  | uint32, val => ByteBuffer.numberBytes bigEndian byteOrder 4 val.toNat
  | uint64, val => ByteBuffer.numberBytes bigEndian byteOrder 8 val.toNat

/-- Some bytes, most significant first, in an order that may be the host's. -/
def arranged (bytes : List U8) : List U8 :=
  if byteOrder = .network || bigEndian then bytes else bytes.reverse

end Width

variable {bigEndian : Bool} {byteOrder : ByteOrder}

theorem memory_ofMemory (bigEndian : Bool) (bytes : List U8) :
    memory bigEndian bytes.length (ofMemory bigEndian bytes) = bytes := by
  cases bigEndian with
  | true => exact toBE_ofBE bytes
  | false =>
    have h := toBE_ofBE bytes.reverse
    rw [List.length_reverse] at h
    exact (congrArg List.reverse h).trans (List.reverse_reverse bytes)

theorem memory_hostToNetwork (n val : Nat) :
    memory bigEndian n (hostToNetwork bigEndian n val) = toBE n val := by
  have h := memory_ofMemory bigEndian (toBE n val)
  rwa [toBE_length] at h

theorem networkToHost_ofMemory (bigEndian : Bool) (bytes : List U8) :
    networkToHost bigEndian bytes.length (ofMemory bigEndian bytes) = ofBE bytes :=
  congrArg ofBE (memory_ofMemory bigEndian bytes)

theorem numberBytes_eq (n val : Nat) :
    ByteBuffer.numberBytes bigEndian byteOrder n val =
      Width.arranged bigEndian byteOrder (toBE n val) := by
  unfold ByteBuffer.numberBytes Width.arranged
  cases byteOrder with
  | network => exact memory_hostToNetwork n val
  | host => cases bigEndian <;> rfl

theorem toBE_tail (n x : Nat) : (toBE (n + 1) x).drop 1 = toBE n x := by
  induction n generalizing x with
  | zero => rfl
  | succ n ih =>
    rw [toBE, List.drop_append_of_le_length (by rw [toBE_length]; omega), ih]
    rfl

theorem written_eq (w : Width) (val : BitVec w.bits) :
    w.written bigEndian byteOrder val =
      Width.arranged bigEndian byteOrder (toBE w.size val.toNat) := by
  cases w with
  | uint8 =>
    unfold Width.arranged
    cases byteOrder <;> cases bigEndian <;> rfl
  | uint24 =>
    have htail : toBE 3 val.toNat = (toBE 4 val.toNat).drop 1 := (toBE_tail 3 val.toNat).symm
    rw [Width.written, numberBytes_eq]
    unfold Width.arranged
    split
    · rw [List.take_of_length_le (by simp)]
      exact htail.symm
    · change ((toBE 4 val.toNat).reverse.drop 0).take 3 = (toBE 3 val.toNat).reverse
      rw [htail, List.drop_zero, List.take_reverse, toBE_length]
  | _ => exact numberBytes_eq _ _

theorem arranged_arranged (bytes : List U8) :
    Width.arranged bigEndian byteOrder (Width.arranged bigEndian byteOrder bytes) = bytes := by
  unfold Width.arranged
  split
  · rfl
  · exact List.reverse_reverse bytes

theorem arranged_length (bytes : List U8) :
    (Width.arranged bigEndian byteOrder bytes).length = bytes.length := by
  unfold Width.arranged
  split
  · rfl
  · exact List.length_reverse

/-- The number that some bytes stand for. -/
def Width.value (bigEndian : Bool) (byteOrder : ByteOrder) (w : Width) (bytes : List U8) :
    BitVec w.bits :=
  BitVec.ofNat w.bits (ofBE (Width.arranged bigEndian byteOrder bytes))

theorem Width.size_le (w : Width) : 256 ^ w.size ≤ 2 ^ w.bits := by
  cases w <;> decide

variable {w : Width} {bytes : List U8}

theorem value_toNat (hlen : bytes.length = w.size) :
    (w.value bigEndian byteOrder bytes).toNat = ofBE (Width.arranged bigEndian byteOrder bytes) ∧
      (w.value bigEndian byteOrder bytes).toNat < 256 ^ w.size := by
  have hlt := ofBE_lt (Width.arranged bigEndian byteOrder bytes)
  rw [arranged_length, hlen] at hlt
  rw [Width.value, BitVec.toNat_ofNat, Nat.mod_eq_of_lt (hlt.trans_le w.size_le)]
  exact ⟨rfl, hlt⟩

/-- **Bytes are the written form of the number that they stand for.** -/
theorem written_value (hlen : bytes.length = w.size) :
    w.written bigEndian byteOrder (w.value bigEndian byteOrder bytes) = bytes := by
  rw [written_eq, (value_toNat hlen).1]
  have h := toBE_ofBE (Width.arranged bigEndian byteOrder bytes)
  rw [arranged_length, hlen] at h
  rw [h, arranged_arranged]

/-- **The written form of a number stands for it.** -/
theorem value_written {val : BitVec w.bits} (hval : val.toNat < 256 ^ w.size) :
    w.value bigEndian byteOrder (w.written bigEndian byteOrder val) = val := by
  rw [Width.value, written_eq, arranged_arranged, ofBE_toBE hval, BitVec.ofNat_toNat,
    BitVec.setWidth_eq]

theorem written_length (bigEndian : Bool) (byteOrder : ByteOrder) (w : Width)
    (val : BitVec w.bits) :
    (w.written bigEndian byteOrder val).length = w.size := by
  rw [written_eq, arranged_length, toBE_length]

/-! ## Reading and writing numbers -/

variable {mem : Nat → Nat → U8} {b : ByteBuffer}

theorem number_arranged (bigEndian : Bool) (byteOrder : ByteOrder) {n : Nat}
    (hlen : bytes.length = n) :
    (if byteOrder = .network then networkToHost bigEndian n (ofMemory bigEndian bytes)
      else ofMemory bigEndian bytes) = ofBE (Width.arranged bigEndian byteOrder bytes) := by
  cases byteOrder with
  | network =>
    rw [← hlen]
    exact networkToHost_ofMemory bigEndian bytes
  | host => cases bigEndian <;> rfl

theorem ofBE_zero_cons (bytes : List U8) : ofBE (0 :: bytes) = ofBE bytes := rfl

/-- Three bytes in a `uint32` that is zero. -/
theorem number_arranged_three (bigEndian : Bool) (byteOrder : ByteOrder) (hlen : bytes.length = 3) :
    (if byteOrder = .network then
        networkToHost bigEndian 4 (ofMemory bigEndian
          (if byteOrder = .network || bigEndian then 0 :: bytes else bytes ++ [0]))
      else ofMemory bigEndian
        (if byteOrder = .network || bigEndian then 0 :: bytes else bytes ++ [0])) =
      ofBE (Width.arranged bigEndian byteOrder bytes) := by
  cases byteOrder with
  | network =>
    have h := networkToHost_ofMemory bigEndian (0 :: bytes)
    rw [List.length_cons, hlen] at h
    exact h.trans (ofBE_zero_cons bytes)
  | host =>
    cases bigEndian with
    | true => exact ofBE_zero_cons bytes
    | false =>
      have h : (bytes ++ [0]).reverse = 0 :: bytes.reverse := by simp
      exact (congrArg ofBE h).trans (ofBE_zero_cons bytes.reverse)

variable {b' : ByteBuffer}

theorem readUInt_none (h : b.readBytes w.size = (none, b')) :
    b.readUInt bigEndian w = (none, b') := by
  cases w <;> simp only [Width.size] at h <;>
    simp only [ByteBuffer.readUInt, ByteBuffer.readUInt8, ByteBuffer.readUInt16,
      ByteBuffer.readUInt24, ByteBuffer.readUInt32, ByteBuffer.readUInt64, ByteBuffer.readNumber,
      h] <;>
    rfl

/-- **Every method reads the number that its bytes stand for.** -/
theorem readUInt_some (h : b.readBytes w.size = (some bytes, b')) (hlen : bytes.length = w.size) :
    b.readUInt bigEndian w = (some (w.value bigEndian b'.byteOrder_ bytes), b') := by
  have hvalue := number_arranged bigEndian b'.byteOrder_ hlen
  cases w with
  | uint8 =>
    have hone : ofMemory bigEndian bytes =
        ofBE (Width.arranged bigEndian b'.byteOrder_ bytes) := by
      obtain ⟨x, rfl⟩ := List.length_eq_one_iff.mp hlen
      unfold ofMemory Width.arranged
      cases bigEndian <;> cases b'.byteOrder_ <;> rfl
    simp only [Width.size] at h
    simp only [ByteBuffer.readUInt, ByteBuffer.readUInt8, h, hone]
    rfl
  | uint16 =>
    simp only [Width.size] at h hvalue
    simp only [ByteBuffer.readUInt, ByteBuffer.readUInt16, ByteBuffer.readNumber, h, hvalue]
    rfl
  | uint24 =>
    have hthree := number_arranged_three bigEndian b'.byteOrder_ hlen
    simp only [Width.size] at h
    simp only [ByteBuffer.readUInt, ByteBuffer.readUInt24, ByteBuffer.skipsFirst, h]
    exact congrArg (fun val => (some (BitVec.ofNat 32 val), b')) hthree
  | uint32 =>
    simp only [Width.size] at h hvalue
    simp only [ByteBuffer.readUInt, ByteBuffer.readUInt32, ByteBuffer.readNumber, h, hvalue]
    rfl
  | uint64 =>
    simp only [Width.size] at h hvalue
    simp only [ByteBuffer.readUInt, ByteBuffer.readUInt64, ByteBuffer.readNumber, h, hvalue]
    rfl

theorem writeUInt_eq (b : ByteBuffer) (w : Width) (val : BitVec w.bits) :
    b.writeUInt bigEndian mem w val =
      b.writeBytes mem (w.written bigEndian b.byteOrder_ val) := by
  cases w <;> rfl

/-! ## Sessions -/

inductive Call where
  | writeUInt (w : Width) (val : BitVec w.bits)
  | writeString (val : List U8)
  | writeBytes (val : List U8)
  | readUInt (w : Width)
  | readString (len : Nat)
  | readBytes (len : Nat)
  | consume (size : Nat)
  | shift (size : Nat)
  | resize (size : Nat)
  | clear
  | getReadPosition
  /-- The position that the call of this number has got. -/
  | setReadPosition (k : Nat)

inductive Reply where
  | done
  | number (val : Option Nat)
  | bytes (val : Option (List U8))
  | success (ok : Bool)
  deriving DecidableEq

/-- A read position that the caller keeps. -/
structure Bookmark where
  position : ReadPosition
  /-- Whether `Shift` has moved the bytes since. -/
  shifted : Bool

/-- A buffer and the read positions that the caller has got from it, told by their numbers. Beside
each stands whether `Shift` has moved the bytes since, which the code does not know. -/
structure Session where
  buffer : ByteBuffer
  bookmarks : List Bookmark

/-- `Shift` moves bytes, or drops some. -/
def ByteBuffer.moves (b : ByteBuffer) (size : Nat) : Bool := size ≤ b.length ∧ 0 < b.start_ + size

namespace Session

variable (bigEndian : Bool) (mem : Nat → Nat → U8)

def step (s : Session) : Call → Reply × Session
  | .writeUInt w val => (.done, { s with buffer := s.buffer.writeUInt bigEndian mem w val })
  | .writeString val => (.done, { s with buffer := s.buffer.writeString mem val })
  | .writeBytes val => (.done, { s with buffer := s.buffer.writeBytes mem val })
  | .readUInt w =>
    let (val, buffer) := s.buffer.readUInt bigEndian w
    (.number (val.map BitVec.toNat), { s with buffer := buffer })
  | .readString len =>
    let (val, buffer) := s.buffer.readString len
    (.bytes val, { s with buffer := buffer })
  | .readBytes len =>
    let (val, buffer) := s.buffer.readBytes len
    (.bytes val, { s with buffer := buffer })
  | .consume size =>
    let (ok, buffer) := s.buffer.consume size
    (.success ok, { s with buffer := buffer })
  | .shift size =>
    let bookmarks := s.bookmarks.map fun mark =>
      { mark with shifted := mark.shifted || s.buffer.moves size }
    (.done, ⟨s.buffer.shift size, bookmarks⟩)
  | .resize size => (.done, { s with buffer := s.buffer.resize mem size })
  | .clear => (.done, { s with buffer := s.buffer.clear })
  | .getReadPosition =>
    (.done, { s with bookmarks := s.bookmarks ++ [⟨s.buffer.getReadPosition, false⟩] })
  | .setReadPosition k =>
    match s.bookmarks[k]? with
    | none => (.success false, s)
    | some mark =>
      let (ok, buffer) := s.buffer.setReadPosition mark.position
      (.success ok, { s with buffer := buffer })

end Session

/-! ## The queue -/

/-- A queue of bytes, and for each position taken what was unread then and has been written
since. -/
structure Queue where
  unread : List U8
  marks : List (List U8)

def Queue.append (q : Queue) (val : List U8) : Queue :=
  ⟨q.unread ++ val, q.marks.map (· ++ val)⟩

/-- Bytes are taken off the front, if there are as many. -/
def Queue.Takes (q : Queue) (len : Nat) (q' : Queue) : Option (List U8) → Prop
  | none => q.unread.length < len ∧ q' = q
  | some val => val.length = len ∧ q.unread = val ++ q'.unread ∧ q'.marks = q.marks

/-- **What a call means for the queue.** A number is the one whose written form is taken off. -/
def Queue.Does (bigEndian : Bool) (byteOrder : ByteOrder) (q : Queue) :
    Call → Reply → Queue → Prop
  | .writeUInt w val, reply, q' => reply = .done ∧ q' = q.append (w.written bigEndian byteOrder val)
  | .writeString val, reply, q' => reply = .done ∧ q' = q.append val
  | .writeBytes val, reply, q' => reply = .done ∧ q' = q.append val
  | .readUInt w, reply, q' =>
    (reply = .number none ∧ q.Takes w.size q' none) ∨
      ∃ val : BitVec w.bits, val.toNat < 256 ^ w.size ∧ reply = .number (some val.toNat) ∧
        q.Takes w.size q' (some (w.written bigEndian byteOrder val))
  | .readString len, reply, q' => ∃ val, reply = .bytes val ∧ q.Takes len q' val
  | .readBytes len, reply, q' => ∃ val, reply = .bytes val ∧ q.Takes len q' val
  | .consume size, reply, q' =>
    ∃ val, reply = .success val.isSome ∧ q.Takes size q' val
  | .shift size, reply, q' => reply = .done ∧ ∃ val, q.Takes size q' val
  | .resize size, reply, q' => reply = .done ∧ q' = { q with unread := q.unread.take size }
  | .clear, reply, q' => reply = .done ∧ q' = { q with unread := [] }
  | .getReadPosition, reply, q' =>
    reply = .done ∧ q' = { q with marks := q.marks ++ [q.unread] }
  | .setReadPosition k, reply, q' =>
    (reply = .success false ∧ q' = q) ∨
      ∃ val, q.marks[k]? = some val ∧ reply = .success true ∧ q' = { q with unread := val }

/-! ## Careful sessions -/

def ByteBuffer.Counts (bigEndian : Bool) (b : ByteBuffer) : Call → Prop
  | .writeUInt w val => b.grows (w.written bigEndian b.byteOrder_ val).length
  | .writeString val => b.grows val.length
  | .writeBytes val => b.grows val.length
  | .resize _ => True
  | .clear => True
  | _ => False

/-- **No position is restored behind a `Shift` that the version does not tell of**, and the version
is not counted beyond an `int`. -/
def Session.Careful (bigEndian : Bool) (s : Session) (call : Call) : Prop :=
  (s.buffer.Counts bigEndian call → s.buffer.version_.toNat + 1 < 2 ^ 31) ∧
    ∀ k mark, call = .setReadPosition k → s.bookmarks[k]? = some mark →
      mark.position.version_ = s.buffer.version_ → mark.shifted = false

def ByteBuffer.Keeps (b : ByteBuffer) (mark : Bookmark) (val : List U8) : Prop :=
  mark.position.version_.toNat ≤ b.version_.toNat ∧
    (mark.position.version_ = b.version_ → mark.shifted = false →
      mark.position.start_ ≤ b.end_ ∧ b.stretch mark.position.start_ = val)

/-- A session and the queue that it stands for. -/
structure Session.Follows (byteOrder : ByteOrder) (s : Session) (q : Queue) : Prop where
  sound : s.buffer.Sound
  unread : s.buffer.contents = q.unread
  marks : List.Forall₂ s.buffer.Keeps s.bookmarks q.marks
  byteOrder : s.buffer.byteOrder_ = byteOrder

/-! ## What the methods do to a bookmark -/

section Keeps

variable {mark : Bookmark} {val : List U8}

theorem keeps_of_counted {b' : ByteBuffer} (h : b.Keeps mark val)
    (hversion : b'.version_.toNat = b.version_.toNat + 1) (val' : List U8) :
    b'.Keeps mark val' := by
  have hle := h.1
  refine ⟨by omega, fun heq => ?_⟩
  rw [heq] at hle
  omega

theorem version_succ {v : I32} (h : v.toNat + 1 < 2 ^ 31) : (v + 1).toNat = v.toNat + 1 := by
  have hone : (1 : I32).toNat = 1 := rfl
  rw [BitVec.toNat_add, hone]
  omega

theorem keeps_fill (h : b.Keeps mark val) (more : List U8) :
    (b.fill more).Keeps mark (val ++ more) := by
  refine ⟨h.1, fun hversion hshifted => ?_⟩
  obtain ⟨hstart, rfl⟩ := h.2 hversion hshifted
  exact ⟨hstart.trans (Nat.le_add_right _ _), ByteBuffer.fill_stretch b more hstart⟩

theorem keeps_writeBytes (h : b.Keeps mark val) (mem : Nat → Nat → U8) (more : List U8)
    (hversion : b.grows more.length → b.version_.toNat + 1 < 2 ^ 31) :
    (b.writeBytes mem more).Keeps mark (val ++ more) := by
  rw [ByteBuffer.writeBytes_eq]
  split
  · rename_i hgrows
    exact keeps_fill (keeps_of_counted h (version_succ (hversion hgrows)) val) more
  · exact keeps_fill h more

end Keeps

/-! ## Steps -/

variable {s : Session} {q : Queue}

theorem follows_advance (h : s.Follows byteOrder q) {len : Nat} (hlen : len ≤ s.buffer.length) :
    ∃ q', q.Takes len q' (some (q.unread.take len)) ∧
      Session.Follows byteOrder { s with buffer := s.buffer.advance len } q' := by
  have hq : len ≤ q.unread.length := by
    rw [← h.unread, ByteBuffer.contents_length]
    exact hlen
  refine ⟨{ q with unread := q.unread.drop len },
    ⟨List.length_take_of_le hq, (List.take_append_drop len q.unread).symm, rfl⟩, ?_⟩
  exact ⟨h.sound.advance hlen, by rw [h.sound.advance_contents hlen, h.unread], h.marks,
    h.byteOrder⟩

theorem takes_none (h : s.Follows byteOrder q) {len : Nat} (hlen : len > s.buffer.length) :
    q.Takes len q none := by
  refine ⟨?_, rfl⟩
  rw [← h.unread, ByteBuffer.contents_length]
  exact hlen

theorem follows_readBytes (h : s.Follows byteOrder q) (len : Nat) :
    ∃ q', q.Takes len q' (s.buffer.readBytes len).1 ∧
      Session.Follows byteOrder { s with buffer := (s.buffer.readBytes len).2 } q' := by
  rw [h.sound.readBytes_eq]
  by_cases hlen : len > s.buffer.length
  · rw [if_pos hlen]
    exact ⟨q, takes_none h hlen, h⟩
  · rw [if_neg hlen, h.unread]
    exact follows_advance h (Nat.le_of_not_gt hlen)

theorem follows_writeBytes (h : s.Follows byteOrder q) (mem : Nat → Nat → U8) (val : List U8)
    (hversion : s.buffer.grows val.length → s.buffer.version_.toNat + 1 < 2 ^ 31) :
    Session.Follows byteOrder { s with buffer := s.buffer.writeBytes mem val } (q.append val) := by
  obtain ⟨hsound, hcontents⟩ := h.sound.writeBytes mem val
  refine ⟨hsound, by rw [hcontents, h.unread]; rfl, ?_, ?_⟩
  · rw [Queue.append, List.forall₂_map_right_iff]
    exact h.marks.imp fun _ _ hkeeps => keeps_writeBytes hkeeps mem val hversion
  · rw [← h.byteOrder, ByteBuffer.writeBytes_eq]
    split <;> rfl

theorem follows_counted (h : s.Follows byteOrder q) (hsound : b'.Sound)
    (hversion : b'.version_.toNat = s.buffer.version_.toNat + 1)
    (horder : b'.byteOrder_ = s.buffer.byteOrder_) :
    Session.Follows byteOrder { s with buffer := b' } { q with unread := b'.contents } :=
  ⟨hsound, rfl, h.marks.imp fun _ val hkeeps => keeps_of_counted hkeeps hversion val,
    horder.trans h.byteOrder⟩

theorem follows_shift (h : s.Follows byteOrder q) (size : Nat) :
    ∃ q' val, q.Takes size q' val ∧ Session.Follows byteOrder
      ⟨s.buffer.shift size, s.bookmarks.map fun mark =>
        { mark with shifted := mark.shifted || s.buffer.moves size }⟩ q' := by
  cases hmoves : s.buffer.moves size with
  | true =>
    obtain ⟨hsize, -⟩ := of_decide_eq_true hmoves
    obtain ⟨hsound, hcontents⟩ := h.sound.shift hsize
    obtain ⟨hversion, horder⟩ := s.buffer.shift_version size
    obtain ⟨q', htakes, hfollows⟩ := follows_advance h hsize
    refine ⟨q', _, htakes, hsound, ?_, ?_, horder.trans h.byteOrder⟩
    · rw [hcontents, ← h.sound.advance_contents hsize]
      exact hfollows.unread
    · rw [htakes.2.2, List.forall₂_map_left_iff]
      refine h.marks.imp fun mark val hkeeps => ⟨hversion ▸ hkeeps.1, fun _ hshifted => ?_⟩
      rw [Bool.or_true] at hshifted
      cases hshifted
  | false =>
    have hstill := of_decide_eq_false hmoves
    have hsame : (s.bookmarks.map fun mark => { mark with shifted := mark.shifted || false }) =
        s.bookmarks := by simp only [Bool.or_false, List.map_id']
    rw [h.sound.shift_of_still hstill, hsame]
    by_cases hsize : size ≤ s.buffer.length
    · obtain rfl : size = 0 := by omega
      exact ⟨q, some [], ⟨rfl, rfl, rfl⟩, h⟩
    · exact ⟨q, none, takes_none h (Nat.lt_of_not_le hsize), h⟩

theorem exists_mark {marks : List (List U8)} {bookmarks : List Bookmark}
    (h : List.Forall₂ b.Keeps bookmarks marks) {k : Nat} {mark : Bookmark}
    (hmark : bookmarks[k]? = some mark) : ∃ val, marks[k]? = some val ∧ b.Keeps mark val := by
  induction h generalizing k with
  | nil => cases hmark
  | cons hkeeps _ ih =>
    cases k with
    | zero =>
      cases hmark
      exact ⟨_, rfl, hkeeps⟩
    | succ k => exact ih hmark

theorem follows_setReadPosition (h : s.Follows byteOrder q) {k : Nat} {mark : Bookmark}
    (hmark : s.bookmarks[k]? = some mark)
    (hcareful : mark.position.version_ = s.buffer.version_ → mark.shifted = false) :
    ∃ q', ((s.buffer.setReadPosition mark.position).1 = false ∧ q' = q ∨
        ∃ val, q.marks[k]? = some val ∧ (s.buffer.setReadPosition mark.position).1 = true ∧
          q' = { q with unread := val }) ∧
      Session.Follows byteOrder
        { s with buffer := (s.buffer.setReadPosition mark.position).2 } q' := by
  rw [ByteBuffer.setReadPosition]
  by_cases hversion : mark.position.version_ = s.buffer.version_
  · rw [if_neg (not_not.mpr hversion)]
    obtain ⟨val, hval, hkeeps⟩ := exists_mark h.marks hmark
    obtain ⟨hstart, hstretch⟩ := hkeeps.2 hversion (hcareful hversion)
    have hsound : ByteBuffer.Sound { s.buffer with start_ := mark.position.start_ } :=
      ⟨hstart, h.sound.end_le⟩
    refine ⟨{ q with unread := val }, .inr ⟨val, hval, rfl, rfl⟩, hsound, ?_, h.marks, h.byteOrder⟩
    exact hsound.contents_eq.trans hstretch
  · rw [if_pos hversion]
    exact ⟨q, .inl ⟨rfl, rfl⟩, h⟩

/-- **A careful call follows the queue.** -/
theorem step_follows (mem : Nat → Nat → U8) (call : Call) (h : s.Follows byteOrder q)
    (hcareful : s.Careful bigEndian call) :
    ∃ q', q.Does bigEndian byteOrder call (s.step bigEndian mem call).1 q' ∧
      (s.step bigEndian mem call).2.Follows byteOrder q' := by
  obtain ⟨hversion, hrestored⟩ := hcareful
  cases call with
  | writeUInt w val =>
    obtain rfl := h.byteOrder
    rw [Session.step, writeUInt_eq]
    exact ⟨_, ⟨rfl, rfl⟩, follows_writeBytes h mem _ hversion⟩
  | writeString val => exact ⟨_, ⟨rfl, rfl⟩, follows_writeBytes h mem val hversion⟩
  | writeBytes val => exact ⟨_, ⟨rfl, rfl⟩, follows_writeBytes h mem val hversion⟩
  | readUInt w =>
    obtain ⟨q', htakes, hfollows⟩ := follows_readBytes h w.size
    refine ⟨q', ?_⟩
    cases hread : s.buffer.readBytes w.size with
    | mk val b' =>
      rw [hread] at htakes hfollows
      rw [Session.step]
      cases val with
      | none =>
        rw [readUInt_none hread]
        exact ⟨.inl ⟨rfl, htakes⟩, hfollows⟩
      | some bytes =>
        rw [readUInt_some hread htakes.1, hfollows.byteOrder]
        refine ⟨.inr ⟨_, (value_toNat htakes.1).2, rfl, ?_⟩, hfollows⟩
        rw [written_value htakes.1]
        exact htakes
  | readString len =>
    obtain ⟨q', htakes, hfollows⟩ := follows_readBytes h len
    exact ⟨q', ⟨_, rfl, htakes⟩, hfollows⟩
  | readBytes len =>
    obtain ⟨q', htakes, hfollows⟩ := follows_readBytes h len
    exact ⟨q', ⟨_, rfl, htakes⟩, hfollows⟩
  | consume size =>
    rw [Session.step, ByteBuffer.consume]
    by_cases hsize : size > s.buffer.length
    · rw [if_pos hsize]
      exact ⟨q, ⟨none, rfl, takes_none h hsize⟩, h⟩
    · rw [if_neg hsize]
      obtain ⟨q', htakes, hfollows⟩ := follows_advance h (Nat.le_of_not_gt hsize)
      exact ⟨q', ⟨_, rfl, htakes⟩, hfollows⟩
  | shift size =>
    obtain ⟨q', val, htakes, hfollows⟩ := follows_shift h size
    exact ⟨q', ⟨rfl, val, htakes⟩, hfollows⟩
  | resize size =>
    obtain ⟨hsound, hcontents, -⟩ := h.sound.resize mem size
    refine ⟨_, ⟨rfl, rfl⟩, ?_⟩
    rw [← h.unread, ← hcontents]
    exact follows_counted h hsound (version_succ (hversion trivial)) rfl
  | clear =>
    exact ⟨_, ⟨rfl, rfl⟩,
      follows_counted h ByteBuffer.clear_sound (version_succ (hversion trivial)) rfl⟩
  | getReadPosition =>
    have hkeeps : s.buffer.Keeps ⟨s.buffer.getReadPosition, false⟩ q.unread :=
      ⟨Nat.le_refl _, fun _ _ => ⟨h.sound.start_le, h.sound.contents_eq.symm.trans h.unread⟩⟩
    exact ⟨_, ⟨rfl, rfl⟩, h.sound, h.unread, List.rel_append h.marks (.cons hkeeps .nil),
      h.byteOrder⟩
  | setReadPosition k =>
    rw [Session.step]
    cases hmark : s.bookmarks[k]? with
    | none => exact ⟨q, .inl ⟨rfl, rfl⟩, h⟩
    | some mark =>
      obtain ⟨q', hdoes, hfollows⟩ := follows_setReadPosition h hmark (hrestored k mark rfl hmark)
      refine ⟨q', ?_, hfollows⟩
      rcases hdoes with ⟨hok, hq'⟩ | ⟨val, hval, hok, hq'⟩
      · exact .inl ⟨congrArg Reply.success hok, hq'⟩
      · exact .inr ⟨val, hval, congrArg Reply.success hok, hq'⟩

/-! ## Runs -/

def Reply.failed : Reply → Bool
  | .number none => true
  | .bytes none => true
  | .success false => true
  | _ => false

theorem readBytes_cases (b : ByteBuffer) (len : Nat) :
    b.readBytes len = (none, b) ∨
      ∃ bytes b', b.readBytes len = (some bytes, b') ∧ bytes.length = len := by
  rw [ByteBuffer.readBytes]
  split
  · exact .inl rfl
  · exact .inr ⟨_, _, rfl, fetch_length _ _⟩

/-- **A call that fails changes nothing.** -/
theorem step_failed (mem : Nat → Nat → U8) (s : Session) (call : Call)
    (h : (s.step bigEndian mem call).1.failed = true) : (s.step bigEndian mem call).2 = s := by
  cases call with
  | readUInt w =>
    rw [Session.step] at h ⊢
    rcases readBytes_cases s.buffer w.size with hread | ⟨bytes, b', hread, hlen⟩
    · rw [readUInt_none hread]
    · rw [readUInt_some hread hlen] at h
      cases h
  | readString len =>
    have hsame : s.buffer.readString len = s.buffer.readBytes len := rfl
    rw [Session.step, hsame] at h ⊢
    rcases readBytes_cases s.buffer len with hread | ⟨bytes, b', hread, -⟩
    · rw [hread]
    · rw [hread] at h
      cases h
  | readBytes len =>
    rw [Session.step] at h ⊢
    rcases readBytes_cases s.buffer len with hread | ⟨bytes, b', hread, -⟩
    · rw [hread]
    · rw [hread] at h
      cases h
  | consume size =>
    rw [Session.step, ByteBuffer.consume] at h ⊢
    by_cases hsize : size > s.buffer.length
    · rw [if_pos hsize]
    · rw [if_neg hsize] at h
      cases h
  | setReadPosition k =>
    rw [Session.step] at h ⊢
    cases hmark : s.bookmarks[k]? with
    | none => rfl
    | some mark =>
      rw [hmark] at h
      simp only [ByteBuffer.setReadPosition] at h ⊢
      split at h
      · rename_i hversion
        rw [if_pos hversion]
      · cases h
  | _ => cases h

def Session.start (mem : Nat → Nat → U8) (bytes : Option (List U8)) (byteOrder : ByteOrder) :
    Session :=
  ⟨ByteBuffer.new mem bytes byteOrder, []⟩

theorem start_follows (mem : Nat → Nat → U8) (bytes : Option (List U8)) (byteOrder : ByteOrder) :
    (Session.start mem bytes byteOrder).Follows byteOrder ⟨bytes.getD [], []⟩ where
  sound := ByteBuffer.new_sound bytes byteOrder
  unread := ByteBuffer.new_contents bytes byteOrder
  marks := .nil
  byteOrder := by cases bytes <;> rfl

theorem read_matching (mem : Nat → Nat → U8) (h : s.Follows byteOrder q)
    {val : BitVec w.bits} (hval : val.toNat < 256 ^ w.size) {rest : List U8}
    (hfront : q.unread = w.written bigEndian byteOrder val ++ rest) :
    (s.step bigEndian mem (.readUInt w)).1 = .number (some val.toNat) ∧
      (s.step bigEndian mem (.readUInt w)).2.buffer.contents = rest := by
  have hlen := written_length bigEndian byteOrder w val
  have hcontents : s.buffer.contents = w.written bigEndian byteOrder val ++ rest :=
    h.unread.trans hfront
  have hsize : w.size ≤ s.buffer.length := by
    rw [← ByteBuffer.contents_length, hcontents, List.length_append, hlen]
    exact Nat.le_add_right _ _
  have hread : s.buffer.readBytes w.size =
      (some (w.written bigEndian byteOrder val), s.buffer.advance w.size) := by
    rw [h.sound.readBytes_eq, if_neg (Nat.not_lt.mpr hsize), hcontents, List.take_left' hlen]
  rw [Session.step, readUInt_some hread hlen]
  refine ⟨?_, ?_⟩
  · rw [show (s.buffer.advance w.size).byteOrder_ = byteOrder from h.byteOrder]
    exact congrArg (fun val => Reply.number (some (BitVec.toNat val))) (value_written hval)
  · exact (h.sound.advance_contents hsize).trans (hcontents ▸ List.drop_left' hlen)

/-- **A session follows the queue in every run of careful calls**: its replies are those of the
queue, its contents are what is unread there, a number that is there is read, and a call that fails
changes nothing. -/
theorem session_follows_queue (bigEndian : Bool) (mem : Nat → Nat → U8)
    (bytes : Option (List U8)) (byteOrder : ByteOrder) (calls : List Call)
    (hcareful : Along (fun s call => (Session.step bigEndian mem s call).2)
      (Session.Careful bigEndian) (Session.start mem bytes byteOrder) calls) :
    ∃ reached q, reached =
        (replies (Session.step bigEndian mem) (Session.start mem bytes byteOrder) calls).2 ∧
      Lib.Follows (Queue.Does bigEndian byteOrder) ⟨bytes.getD [], []⟩ calls
        (replies (Session.step bigEndian mem) (Session.start mem bytes byteOrder) calls).1 q ∧
      reached.buffer.contents = q.unread ∧ reached.buffer.length = q.unread.length ∧
      (∀ (w : Width) (val : BitVec w.bits) rest, val.toNat < 256 ^ w.size →
        q.unread = w.written bigEndian byteOrder val ++ rest →
        (reached.step bigEndian mem (.readUInt w)).1 = .number (some val.toNat) ∧
          (reached.step bigEndian mem (.readUInt w)).2.buffer.contents = rest) ∧
      ∀ call, (reached.step bigEndian mem call).1.failed = true →
        (reached.step bigEndian mem call).2 = reached := by
  obtain ⟨q, hreplies, hfollows⟩ := follows_of_step
    (fun _ _ call h hcall => step_follows mem call h hcall)
    (start_follows mem bytes byteOrder) hcareful
  refine ⟨_, q, rfl, hreplies, hfollows.unread, ?_, ?_, step_failed mem _⟩
  · rw [← hfollows.unread, ByteBuffer.contents_length]
  · exact fun w val rest hval hfront => read_matching mem hfollows hval hfront

theorem session_follows_queue_restored :
    ∃ q : Queue, (replies (Session.step false fun _ _ => 0)
        (Session.start (fun _ _ => 0) none .host)
        [.writeUInt .uint16 0x1234, .getReadPosition, .readUInt .uint16,
          .setReadPosition 0]).2.buffer.contents = q.unread ∧ q.unread = [0x34, 0x12] := by
  have hrestored : ∀ k mark, Call.setReadPosition 0 = .setReadPosition k →
      [(⟨⟨0, 0⟩, false⟩ : Bookmark)][k]? = some mark → mark.position.version_ = 0 →
      mark.shifted = false := by
    intro k mark hcall hmark _
    cases hcall
    cases hmark
    rfl
  obtain ⟨_, q, rfl, -, hcontents, -⟩ := session_follows_queue false (fun _ _ => 0) none .host
    [.writeUInt .uint16 0x1234, .getReadPosition, .readUInt .uint16, .setReadPosition 0]
    ⟨⟨fun _ => by decide, nofun⟩, ⟨nofun, nofun⟩, ⟨nofun, nofun⟩, ⟨nofun, hrestored⟩, trivial⟩
  exact ⟨q, hcontents, hcontents.symm.trans (by decide)⟩

/-- `Shift` moves what a position stands before. -/
theorem shifted_position_restored :
    (replies (Session.step false fun _ _ => 0)
        (Session.start (fun _ _ => 0) (some [1, 2, 3, 4]) .network)
        [.readBytes 1, .getReadPosition, .shift 0, .setReadPosition 0]).1 =
      [.bytes (some [1]), .done, .done, .success true] ∧
    (replies (Session.step false fun _ _ => 0)
        (Session.start (fun _ _ => 0) (some [1, 2, 3, 4]) .network)
        [.readBytes 1, .getReadPosition, .shift 0, .setReadPosition 0]).2.buffer.contents =
      [3, 4] ∧
    ¬ ∃ q : Queue, Lib.Follows (Queue.Does false .network) ⟨[1, 2, 3, 4], []⟩
        [.readBytes 1, .getReadPosition, .shift 0, .setReadPosition 0]
        [.bytes (some [1]), .done, .done, .success true] q ∧ q.unread = [3, 4] := by
  refine ⟨by decide, by decide, ?_⟩
  rintro ⟨q, ⟨q₁, ⟨val, hval, htakes⟩, q₂, ⟨-, rfl⟩, q₃, ⟨-, dropped, hshift⟩, q₄, hset, rfl⟩, hq⟩
  cases hval
  obtain ⟨-, hunread, hmarks⟩ := htakes
  have hmarks₃ : q₃.marks = q₁.marks ++ [q₁.unread] := by
    cases dropped with
    | none => exact congrArg Queue.marks hshift.2
    | some _ => exact hshift.2.2
  rcases hset with ⟨hreply, -⟩ | ⟨val, hval, -, rfl⟩
  · cases hreply
  · rw [hmarks₃, hmarks] at hval
    cases hval
    rw [show q₁.unread = [3, 4] from hq] at hunread
    cases hunread

end Libjingle.Positions
