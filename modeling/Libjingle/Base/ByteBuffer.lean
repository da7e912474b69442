import Libjingle.Base.BasicTypes
import Libjingle.Lib.BigEndian
import Libjingle.Lib.Reader

/-!
# `ByteBuffer` (`base/bytebuffer.h`, `base/bytebuffer.cc`): reading and writing in network order

A buffer is the list of its unread bytes: `Read…` takes them off the front, `Write…` appends. A
read past the end fails and takes nothing. Numbers are in network order (`ORDER_NETWORK`, the
default); positions, `Shift` and the growth of the array are not part of this view.
-/

namespace Libjingle.ByteBuffer

open Lib

/-- `ReadBytes`, `ReadString`. -/
def readBytes (len : Nat) : Reader U8 (List U8) := Reader.take len

/-- The next `n` bytes as a number of `w` bits. -/
def readNumber (w n : Nat) : Reader U8 (BitVec w) := do
  let bytes ← readBytes n
  return BitVec.ofNat w (ofBE bytes)

def readUInt8 : Reader U8 U8 := readNumber 8 1
def readUInt16 : Reader U8 U16 := readNumber 16 2
def readUInt32 : Reader U8 U32 := readNumber 32 4
def readUInt64 : Reader U8 U64 := readNumber 64 8

def consume (size : Nat) : Reader U8 Unit := fun buf =>
  if size > buf.length then none else some ((), buf.drop size)

def writeUInt8 (val : U8) : List U8 := toBE 1 val.toNat
def writeUInt16 (val : U16) : List U8 := toBE 2 val.toNat
def writeUInt32 (val : U32) : List U8 := toBE 4 val.toNat
def writeUInt64 (val : U64) : List U8 := toBE 8 val.toNat

/-! ## What a read consumes -/

theorem readNumber_consumes {w n : Nat} (hw : 2 ^ w = 256 ^ n) (x : BitVec w) :
    (readNumber w n).Consumes (toBE n x.toNat) x := by
  have hlt : x.toNat < 256 ^ n := hw ▸ x.isLt
  have h := (Reader.take_consumes (toBE_length n x.toNat)).return
    (g := fun bytes => BitVec.ofNat w (ofBE bytes))
  rwa [ofBE_toBE hlt, BitVec.ofNat_toNat, BitVec.setWidth_eq] at h

theorem readUInt8_consumes (x : U8) : readUInt8.Consumes (writeUInt8 x) x :=
  readNumber_consumes (by decide) x

theorem readUInt16_consumes (x : U16) : readUInt16.Consumes (writeUInt16 x) x :=
  readNumber_consumes (by decide) x

theorem readUInt32_consumes (x : U32) : readUInt32.Consumes (writeUInt32 x) x :=
  readNumber_consumes (by decide) x

theorem readUInt64_consumes (x : U64) : readUInt64.Consumes (writeUInt64 x) x :=
  readNumber_consumes (by decide) x

variable {buf rest : List U8}

theorem readNumber_eq_some {w n : Nat} {x : BitVec w} : readNumber w n buf = some (x, rest) ↔
      n ≤ buf.length ∧ x = BitVec.ofNat w (ofBE (buf.take n)) ∧ rest = buf.drop n := by
  unfold readNumber
  rw [Reader.bind_eq_some]
  constructor
  · rintro ⟨a, m, h, h'⟩
    obtain ⟨hn, rfl, rfl⟩ := Reader.take_eq_some.mp h
    obtain ⟨rfl, rfl⟩ := Prod.mk.inj (Option.some.inj h')
    exact ⟨hn, rfl, rfl⟩
  · rintro ⟨hn, rfl, rfl⟩
    exact ⟨_, _, Reader.take_eq_some.mpr ⟨hn, rfl, rfl⟩, rfl⟩

theorem consume_eq_some {size : Nat} :
    consume size buf = some ((), rest) ↔ size ≤ buf.length ∧ rest = buf.drop size := by
  unfold consume
  split
  · rename_i h
    constructor
    · intro h'
      cases h'
    · rintro ⟨h', -⟩
      omega
  · rename_i h
    constructor
    · intro h'
      exact ⟨by omega, (Prod.mk.inj (Option.some.inj h')).2.symm⟩
    · rintro ⟨-, rfl⟩
      rfl

end Libjingle.ByteBuffer
