import Libjingle.Lib.BigEndian
import Libjingle.Lib.Text

/-!
# `ByteBuffer` with its array (`base/bytebuffer.h`, `base/bytebuffer.cc`)

The buffer as the array that it allocates, with the places of the unread bytes in it, in either
byte order, and the read positions that callers remember.

* `new char[size]` does not initialise its bytes: they are `mem size`. An array is only replaced
  by a larger one, so none is allocated twice.
* `bigEndian` is `IsHostBigEndian`. A number in memory is the list of its bytes (`memory`).
* Sizes are natural numbers, as no array has `2 ^ 63` bytes. The differences that give the length
  and the capacity wrap like a `size_t` where a read position lies behind the end.
* A `NULL` pointer to a result is left out.
-/

namespace Libjingle.Positions

open Lib

/-- The order of the bytes of a number. -/
inductive ByteOrder where
  | network
  | host
  deriving DecidableEq

/-- A remembered `start_` and the `version_` of then. -/
structure ReadPosition where
  start_ : Nat
  version_ : I32
  deriving DecidableEq

/-- The array and the places in it. -/
structure ByteBuffer where
  /-- The array behind the pointer. -/
  bytes_ : Nat → U8
  size_ : Nat
  start_ : Nat
  end_ : Nat
  version_ : I32
  byteOrder_ : ByteOrder

/-! ## Numbers in memory -/

section Numbers

variable (bigEndian : Bool)

/-- A number of `n` bytes as the host keeps it. -/
def memory (n val : Nat) : List U8 := if bigEndian then toBE n val else (toBE n val).reverse

/-- The number that the host keeps as some bytes. -/
def ofMemory (bytes : List U8) : Nat := if bigEndian then ofBE bytes else ofBE bytes.reverse

/-- `HostToNetwork16`, `HostToNetwork32`, `HostToNetwork64`, for `n` bytes. -/
def hostToNetwork (n val : Nat) : Nat := ofMemory bigEndian (toBE n val)

/-- `NetworkToHost16`, `NetworkToHost32`, `NetworkToHost64`, for `n` bytes. -/
def networkToHost (n val : Nat) : Nat := ofBE (memory bigEndian n val)

end Numbers

namespace ByteBuffer

variable (bigEndian : Bool) (mem : Nat → Nat → U8)

/-! ## Construction and sizes -/

def defaultSize : Nat := 4096

/-- `Construct`: a new array, with the bytes given. -/
def construct (bytes : Option (List U8)) (len : Nat) (byteOrder : ByteOrder) : ByteBuffer where
  bytes_ :=
    match bytes with
    | some bytes => memcpy (mem len) 0 (fun i => bytes.getD i 0) len
    | none => mem len
  size_ := len
  start_ := 0
  end_ := if bytes.isSome then len else 0
  version_ := 0
  byteOrder_ := byteOrder

/-- The constructors, with or without bytes. -/
def new (bytes : Option (List U8)) (byteOrder : ByteOrder) : ByteBuffer :=
  match bytes with
  | some bytes => construct mem (some bytes) bytes.length byteOrder
  | none => construct mem none defaultSize byteOrder

/-- A difference of `size_t`s. -/
def difference (m n : Nat) : Nat := if n ≤ m then m - n else m + 2 ^ 64 - n

/-- `Length`: the unread bytes. -/
def length (b : ByteBuffer) : Nat := difference b.end_ b.start_

/-- `Capacity`. -/
def capacity (b : ByteBuffer) : Nat := difference b.size_ b.start_

/-- What `Data` points to, `Length` bytes of it. -/
def contents (b : ByteBuffer) : List U8 := fetch (fun i => b.bytes_ (b.start_ + i)) b.length

/-! ## Reading -/

/-- `ReadBytes`. -/
def readBytes (b : ByteBuffer) (len : Nat) : Option (List U8) × ByteBuffer :=
  if len > b.length then (none, b)
  else (some (fetch (fun i => b.bytes_ (b.start_ + i)) len), { b with start_ := b.start_ + len })

/-- `ReadString`, which appends the bytes to its argument. -/
def readString (b : ByteBuffer) (len : Nat) : Option (List U8) × ByteBuffer :=
  if len > b.length then (none, b)
  else (some (fetch (fun i => b.bytes_ (b.start_ + i)) len), { b with start_ := b.start_ + len })

/-- The next `n` bytes as a number of `w` bits. -/
def readNumber (w n : Nat) (b : ByteBuffer) : Option (BitVec w) × ByteBuffer :=
  match b.readBytes n with
  | (none, b) => (none, b)
  | (some bytes, b) =>
    let v := ofMemory bigEndian bytes
    (some (BitVec.ofNat w (if b.byteOrder_ = .network then networkToHost bigEndian n v else v)), b)

/-- `ReadUInt8`. -/
def readUInt8 (b : ByteBuffer) : Option U8 × ByteBuffer :=
  match b.readBytes 1 with
  | (none, b) => (none, b)
  | (some bytes, b) => (some (BitVec.ofNat 8 (ofMemory bigEndian bytes)), b)
/-- `ReadUInt16`. -/
def readUInt16 (b : ByteBuffer) : Option U16 × ByteBuffer := readNumber bigEndian 16 2 b
/-- `ReadUInt32`. -/
def readUInt32 (b : ByteBuffer) : Option U32 × ByteBuffer := readNumber bigEndian 32 4 b
/-- `ReadUInt64`. -/
def readUInt64 (b : ByteBuffer) : Option U64 × ByteBuffer := readNumber bigEndian 64 8 b

/-- Whether three bytes of a `uint32` are the last ones in memory. -/
def skipsFirst (b : ByteBuffer) : Bool := b.byteOrder_ = .network || bigEndian

/-- `ReadUInt24`, which reads three bytes into a `uint32` that is zero. -/
def readUInt24 (b : ByteBuffer) : Option U32 × ByteBuffer :=
  match b.readBytes 3 with
  | (none, b) => (none, b)
  | (some bytes, b) =>
    let v := ofMemory bigEndian (if b.skipsFirst bigEndian then 0 :: bytes else bytes ++ [0])
    (some (BitVec.ofNat 32 (if b.byteOrder_ = .network then networkToHost bigEndian 4 v else v)), b)

/-! ## Moving the bytes -/

/-- `Resize`: the unread bytes move to the front, of a larger array if need be. -/
def resize (b : ByteBuffer) (size : Nat) : ByteBuffer :=
  let len := min (difference b.end_ b.start_) size
  let size' := if size ≤ b.size_ then b.size_ else max size (3 * b.size_ / 2)
  let dst := if size ≤ b.size_ then b.bytes_ else mem size'
  { b with
    bytes_ := memcpy dst 0 (fun i => b.bytes_ (b.start_ + i)) len
    size_ := size'
    start_ := 0
    end_ := len
    version_ := b.version_ + 1 }

/-- `Shift`: the bytes behind the first `size` unread ones move to the front. -/
def shift (b : ByteBuffer) (size : Nat) : ByteBuffer :=
  if size > b.length then b
  else
    let len := b.length - size
    { b with
      bytes_ := memcpy b.bytes_ 0 (fun i => b.bytes_ (b.start_ + size + i)) len
      start_ := 0
      end_ := len }

/-- `Consume`: skips bytes. -/
def consume (b : ByteBuffer) (size : Nat) : Bool × ByteBuffer :=
  if size > b.length then (false, b) else (true, { b with start_ := b.start_ + size })

/-- `Clear`. -/
def clear (b : ByteBuffer) : ByteBuffer :=
  { b with
    bytes_ := fun i => if i < b.size_ then 0 else b.bytes_ i
    start_ := 0
    end_ := 0
    version_ := b.version_ + 1 }

/-- `GetReadPosition`. -/
def getReadPosition (b : ByteBuffer) : ReadPosition := ⟨b.start_, b.version_⟩

/-- `SetReadPosition`: refused once the version has changed. -/
def setReadPosition (b : ByteBuffer) (position : ReadPosition) : Bool × ByteBuffer :=
  if position.version_ ≠ b.version_ then (false, b)
  else (true, { b with start_ := position.start_ })

/-! ## Writing -/

/-- `ReserveWriteBuffer`: the place for the bytes is behind the old end. -/
def reserveWriteBuffer (b : ByteBuffer) (len : Nat) : Nat × ByteBuffer :=
  let b := if b.length + len > b.capacity then b.resize mem (b.length + len) else b
  (b.end_, { b with end_ := b.end_ + len })

/-- `WriteBytes`, which resizes when there is no room. -/
def writeBytes (b : ByteBuffer) (val : List U8) : ByteBuffer :=
  let (start, b) := b.reserveWriteBuffer mem val.length
  { b with bytes_ := memcpy b.bytes_ start (fun i => val.getD i 0) val.length }

/-- `WriteString`. -/
def writeString (b : ByteBuffer) (val : List U8) : ByteBuffer := b.writeBytes mem val

/-- The bytes of a number in the order of a buffer. -/
def numberBytes (byteOrder : ByteOrder) (n val : Nat) : List U8 :=
  memory bigEndian n (if byteOrder = .network then hostToNetwork bigEndian n val else val)

/-- `WriteUInt8`. -/
def writeUInt8 (b : ByteBuffer) (val : U8) : ByteBuffer :=
  b.writeBytes mem (memory bigEndian 1 val.toNat)
/-- `WriteUInt16`. -/
def writeUInt16 (b : ByteBuffer) (val : U16) : ByteBuffer :=
  b.writeBytes mem (numberBytes bigEndian b.byteOrder_ 2 val.toNat)
/-- `WriteUInt32`. -/
def writeUInt32 (b : ByteBuffer) (val : U32) : ByteBuffer :=
  b.writeBytes mem (numberBytes bigEndian b.byteOrder_ 4 val.toNat)
/-- `WriteUInt64`. -/
def writeUInt64 (b : ByteBuffer) (val : U64) : ByteBuffer :=
  b.writeBytes mem (numberBytes bigEndian b.byteOrder_ 8 val.toNat)

/-- `WriteUInt24`, which writes three bytes of a `uint32`. -/
def writeUInt24 (b : ByteBuffer) (val : U32) : ByteBuffer :=
  let v := numberBytes bigEndian b.byteOrder_ 4 val.toNat
  b.writeBytes mem ((v.drop (if b.skipsFirst bigEndian then 1 else 0)).take 3)

/-! ## What the methods do to the contents -/

variable {mem : Nat → Nat → U8} {b : ByteBuffer}

/-- The unread bytes lie in the array. -/
structure Sound (b : ByteBuffer) : Prop where
  start_le : b.start_ ≤ b.end_
  end_le : b.end_ ≤ b.size_

/-- The bytes from a place up to the end. -/
def stretch (b : ByteBuffer) (start : Nat) : List U8 :=
  fetch (fun i => b.bytes_ (start + i)) (b.end_ - start)

theorem Sound.length_eq (h : b.Sound) : b.length = b.end_ - b.start_ := if_pos h.start_le

theorem Sound.capacity_eq (h : b.Sound) : b.capacity = b.size_ - b.start_ :=
  if_pos (h.start_le.trans h.end_le)

theorem Sound.contents_eq (h : b.Sound) : b.contents = b.stretch b.start_ := by
  rw [contents, stretch, h.length_eq]

theorem contents_length (b : ByteBuffer) : b.contents.length = b.length := fetch_length _ _

theorem new_sound (bytes : Option (List U8)) (byteOrder : ByteOrder) :
    (new mem bytes byteOrder).Sound := by
  cases bytes with
  | none => exact ⟨Nat.le_refl 0, Nat.zero_le _⟩
  | some bytes => exact ⟨Nat.zero_le _, Nat.le_refl _⟩

theorem new_contents (bytes : Option (List U8)) (byteOrder : ByteOrder) :
    (new mem bytes byteOrder).contents = bytes.getD [] := by
  rw [(new_sound bytes byteOrder).contents_eq]
  cases bytes with
  | none => rfl
  | some bytes =>
    have hcopy := fetch_memcpy_start (mem bytes.length) (fun i => bytes.getD i 0) bytes.length
    simp only [stretch, new, construct, Nat.zero_add, Nat.sub_zero, Option.isSome_some, if_true]
    exact hcopy.trans (fetch_getD bytes 0)

def advance (b : ByteBuffer) (size : Nat) : ByteBuffer := { b with start_ := b.start_ + size }

variable {size : Nat}

theorem Sound.advance (h : b.Sound) (hsize : size ≤ b.length) : (b.advance size).Sound := by
  rw [h.length_eq] at hsize
  have hstart := h.start_le
  exact ⟨show b.start_ + size ≤ b.end_ by omega, h.end_le⟩

theorem Sound.advance_contents (h : b.Sound) (hsize : size ≤ b.length) :
    (b.advance size).contents = b.contents.drop size := by
  rw [(h.advance hsize).contents_eq, h.contents_eq]
  rw [h.length_eq] at hsize
  rw [stretch, stretch, fetch_drop _ hsize, Nat.sub_sub]
  exact fetch_congr fun i _ => congrArg b.bytes_ (Nat.add_assoc b.start_ size i)

theorem Sound.readBytes_eq (h : b.Sound) (len : Nat) :
    b.readBytes len =
      if len > b.length then (none, b) else (some (b.contents.take len), b.advance len) := by
  rw [readBytes]
  split
  · rfl
  · rename_i hlen
    rw [h.contents_eq, stretch, fetch_take _ (by rw [← h.length_eq]; omega)]
    rfl

theorem Sound.resize (h : b.Sound) (mem : Nat → Nat → U8) (size : Nat) :
    (b.resize mem size).Sound ∧ (b.resize mem size).contents = b.contents.take size ∧
      size ≤ (b.resize mem size).size_ ∧ (b.resize mem size).end_ ≤ b.length := by
  have hlen : difference b.end_ b.start_ = b.end_ - b.start_ := h.length_eq
  have hsize : size ≤ (b.resize mem size).size_ := by
    simp only [ByteBuffer.resize]
    split <;> omega
  have hend : (b.resize mem size).end_ = min (b.end_ - b.start_) size := by
    rw [← hlen]
    rfl
  have hsound : (b.resize mem size).Sound :=
    ⟨Nat.zero_le _, (hend.trans_le (Nat.min_le_right _ _)).trans hsize⟩
  refine ⟨hsound, ?_, hsize, hend.trans_le (h.length_eq ▸ Nat.min_le_left _ _)⟩
  rw [hsound.contents_eq, h.contents_eq, stretch, stretch, hend]
  have htake : (fetch (fun i => b.bytes_ (b.start_ + i)) (b.end_ - b.start_)).take size =
      fetch (fun i => b.bytes_ (b.start_ + i)) (min (b.end_ - b.start_) size) := by
    rw [← fetch_take _ (Nat.min_le_left (b.end_ - b.start_) size), List.take_eq_take_iff,
      fetch_length]
    omega
  rw [htake]
  simp only [ByteBuffer.resize, hlen, Nat.zero_add, Nat.sub_zero]
  exact fetch_memcpy_start _ _ _

theorem Sound.shift (h : b.Sound) (hsize : size ≤ b.length) :
    (b.shift size).Sound ∧ (b.shift size).contents = b.contents.drop size := by
  have hsound : (b.shift size).Sound := by
    rw [ByteBuffer.shift, if_neg (by omega)]
    have hend := h.end_le
    rw [h.length_eq]
    exact ⟨Nat.zero_le _, show b.end_ - b.start_ - size ≤ b.size_ by omega⟩
  refine ⟨hsound, ?_⟩
  rw [hsound.contents_eq, h.contents_eq]
  rw [h.length_eq] at hsize
  rw [stretch, stretch, fetch_drop _ hsize, ByteBuffer.shift, if_neg (by rw [h.length_eq]; omega),
    h.length_eq]
  simp only [Nat.zero_add, Nat.sub_zero, ← Nat.add_assoc]
  exact fetch_memcpy_start _ _ _

theorem shift_version (b : ByteBuffer) (size : Nat) :
    (b.shift size).version_ = b.version_ ∧ (b.shift size).byteOrder_ = b.byteOrder_ := by
  rw [ByteBuffer.shift]
  split <;> exact ⟨rfl, rfl⟩

theorem Sound.shift_of_still (h : b.Sound)
    (hstill : ¬(size ≤ b.length ∧ 0 < b.start_ + size)) : b.shift size = b := by
  by_cases hsize : size > b.length
  · rw [ByteBuffer.shift, if_pos hsize]
  · obtain ⟨hstart, rfl⟩ : b.start_ = 0 ∧ size = 0 := by omega
    have hmove : memcpy b.bytes_ 0 (fun i => b.bytes_ (b.start_ + 0 + i)) b.end_ = b.bytes_ := by
      funext i
      rw [memcpy, hstart]
      split
      · congr 1
        omega
      · rfl
    have hlen : b.length - 0 = b.end_ := by rw [h.length_eq, hstart]; rfl
    rw [ByteBuffer.shift, if_neg hsize]
    simp only [hlen, hmove]
    exact congrArg (fun start => { b with start_ := start }) hstart.symm

theorem clear_sound : b.clear.Sound := ⟨Nat.le_refl 0, Nat.zero_le _⟩

/-- A buffer with bytes written behind its end. -/
def fill (b : ByteBuffer) (val : List U8) : ByteBuffer :=
  { b with
    bytes_ := memcpy b.bytes_ b.end_ (fun i => val.getD i 0) val.length
    end_ := b.end_ + val.length }

/-- Writing needs a larger array, or moves the bytes to the front. -/
def grows (b : ByteBuffer) (len : Nat) : Prop := b.length + len > b.capacity

instance (b : ByteBuffer) (len : Nat) : Decidable (b.grows len) :=
  inferInstanceAs (Decidable (b.length + len > b.capacity))

theorem writeBytes_eq (b : ByteBuffer) (val : List U8) :
    b.writeBytes mem val =
      (if b.grows val.length then b.resize mem (b.length + val.length) else b).fill val := rfl

variable {val : List U8}

theorem Sound.fill (h : b.Sound) (hroom : b.end_ + val.length ≤ b.size_) : (b.fill val).Sound :=
  ⟨h.start_le.trans (Nat.le_add_right _ _), hroom⟩

/-- **Bytes written are appended** to what there is from any place up to the end. -/
theorem fill_stretch (b : ByteBuffer) (val : List U8) {start : Nat} (h : start ≤ b.end_) :
    (b.fill val).stretch start = b.stretch start ++ val := by
  have hbehind := fetch_memcpy_behind b.bytes_ (fun i => val.getD i 0) h val.length
  rw [fetch_getD] at hbehind
  have hlen : b.end_ + val.length - start = b.end_ - start + val.length := by omega
  rw [stretch, ByteBuffer.fill, hlen]
  exact hbehind

theorem Sound.fill_contents (h : b.Sound)
    (hroom : b.end_ + val.length ≤ b.size_) : (b.fill val).contents = b.contents ++ val := by
  rw [(h.fill hroom).contents_eq, h.contents_eq]
  exact fill_stretch b val h.start_le

theorem Sound.room_of_not_grows (h : b.Sound) {len : Nat} (hgrows : ¬ b.grows len) :
    b.end_ + len ≤ b.size_ := by
  rw [grows, h.length_eq, h.capacity_eq] at hgrows
  have hstart := h.start_le
  have hend := h.end_le
  omega

theorem Sound.writeBytes (h : b.Sound) (mem : Nat → Nat → U8) (val : List U8) :
    (b.writeBytes mem val).Sound ∧ (b.writeBytes mem val).contents = b.contents ++ val := by
  rw [writeBytes_eq]
  split
  · obtain ⟨hsound, hcontents, hsize, hend⟩ := h.resize mem (b.length + val.length)
    have hroom : (b.resize mem (b.length + val.length)).end_ + val.length ≤
        (b.resize mem (b.length + val.length)).size_ :=
      (Nat.add_le_add_right hend _).trans hsize
    refine ⟨hsound.fill hroom, ?_⟩
    rw [hsound.fill_contents hroom, hcontents, List.take_of_length_le]
    rw [contents_length]
    exact Nat.le_add_right _ _
  · rename_i hgrows
    have hroom := h.room_of_not_grows hgrows
    exact ⟨h.fill hroom, h.fill_contents hroom⟩

end ByteBuffer

end Libjingle.Positions
