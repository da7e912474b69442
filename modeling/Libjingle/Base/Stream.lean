import Libjingle.Base.FifoBuffer
import Libjingle.Lib.CheckedMemory

/-!
# Streams that are read and written whole (`base/stream.h`, `base/stream.cc`)

`StreamInterface` leaves `Read`, `Write` and `SetPosition` to its implementations. What the
helpers rely on is in the structures: the bytes come in order, a reply has no more of them than
was asked for, and a success moves at least one byte.

## Results

* `FileStream.readAll_of_le`, `FileStream.readAll_of_lt`: from a file it succeeds exactly if there
  are enough bytes.
-/

namespace Libjingle

open Lib

/-- What `Read` returns: the bytes in the buffer, and the stream afterwards. -/
structure ReadReply (σ : Type) where
  result : StreamResult
  bytes : List U8
  next : σ

/-- A stream that is read. `rest` are the bytes that are still to come; a reply may be short, and an
error or a `SR_BLOCK` may stand in front of any byte. -/
structure InputStream (σ : Type) where
  /-- The bytes that are still to come. -/
  rest : σ → List U8
  read : σ → Nat → ReadReply σ
  setPosition : σ → Nat → Bool × σ
  length_le : ∀ s n, (read s n).bytes.length ≤ n
  rest_eq : ∀ s n, rest s = (read s n).bytes ++ rest (read s n).next
  success : ∀ s n, 0 < n → ((read s n).result = .success ↔ (read s n).bytes ≠ [])

namespace InputStream

variable {σ : Type} (S : InputStream σ)

/-- The loop of `ReadAll`. -/
def readAllLoop : Nat → σ → Nat → ReadReply σ
  | 0, s, _ => ⟨.success, [], s⟩
  | fuel + 1, s, n =>
    if n = 0 then ⟨.success, [], s⟩
    else
      let reply := S.read s n
      if reply.result ≠ .success then reply
      else
        let rest := readAllLoop fuel reply.next (n - reply.bytes.length)
        { rest with bytes := reply.bytes ++ rest.bytes }

/-- `ReadAll`: a success takes a byte, so the number of bytes bounds the rounds. -/
def readAll (s : σ) (n : Nat) : ReadReply σ := S.readAllLoop n s n

def newline : U8 := 10

/-- The loop of `ReadLine`. -/
def readLineLoop : Nat → σ → List U8 → ReadReply σ
  | 0, s, line => ⟨.eos, line, s⟩
  | fuel + 1, s, line =>
    let reply := S.read s 1
    if reply.result ≠ .success then { reply with bytes := line }
    else if reply.bytes = [newline] then { reply with bytes := line }
    else readLineLoop fuel reply.next (line ++ reply.bytes)

/-- `ReadLine`: a line that was begun is a success. -/
def readLine (s : σ) : ReadReply σ :=
  let reply := S.readLineLoop ((S.rest s).length + 1) s []
  { reply with result := if reply.bytes ≠ [] then .success else reply.result }

/-! ## `ReadAll` -/

variable {S} {s : σ} {n fuel : Nat}

theorem readAllLoop_rest (fuel : Nat) (s : σ) (n : Nat) :
    S.rest s = (S.readAllLoop fuel s n).bytes ++ S.rest (S.readAllLoop fuel s n).next := by
  induction fuel generalizing s n with
  | zero => rfl
  | succ fuel ih =>
    rw [readAllLoop]
    split
    · rfl
    · dsimp only
      split
      · exact S.rest_eq s n
      · rw [List.append_assoc, ← ih]
        exact S.rest_eq s n

theorem readAllLoop_length_le (fuel : Nat) (s : σ) (n : Nat) :
    (S.readAllLoop fuel s n).bytes.length ≤ n := by
  induction fuel generalizing s n with
  | zero => exact Nat.zero_le n
  | succ fuel ih =>
    rw [readAllLoop]
    split
    · exact Nat.zero_le n
    · dsimp only
      have hread := S.length_le s n
      split
      · exact hread
      · have hrest := ih (S.read s n).next (n - (S.read s n).bytes.length)
        rw [List.length_append]
        omega

theorem readAllLoop_success (hfuel : n ≤ fuel)
    (h : (S.readAllLoop fuel s n).result = .success) :
    (S.readAllLoop fuel s n).bytes.length = n := by
  induction fuel generalizing s n with
  | zero => exact (Nat.le_zero.mp hfuel).symm
  | succ fuel ih =>
    rw [readAllLoop] at h ⊢
    split at h
    · rename_i hn
      rw [if_pos hn, hn]
      rfl
    · rename_i hn
      rw [if_neg hn]
      dsimp only at h ⊢
      split at h
      · rename_i hread
        exact absurd h hread
      · rename_i hread
        rw [if_neg hread]
        have hpos := List.length_pos_of_ne_nil
          ((S.success s n (Nat.pos_of_ne_zero hn)).mp (not_not.mp hread))
        have hle := S.length_le s n
        rw [List.length_append, ih (by omega) h]
        omega

/-- What `ReadAll` has read are the next bytes. -/
theorem readAll_rest (s : σ) (n : Nat) :
    S.rest s = (S.readAll s n).bytes ++ S.rest (S.readAll s n).next := readAllLoop_rest n s n

theorem readAll_length_le (s : σ) (n : Nat) : (S.readAll s n).bytes.length ≤ n :=
  readAllLoop_length_le n s n

/-- **A success of `ReadAll`** has all the bytes. -/
theorem readAll_success (h : (S.readAll s n).result = .success) :
    (S.readAll s n).bytes.length = n := readAllLoop_success (Nat.le_refl n) h

end InputStream

/-- A stream that ends where its bytes end. -/
structure FileStream (σ : Type) extends InputStream σ where
  result_eq : ∀ s n, 0 < n → (read s n).result = if rest s = [] then .eos else .success

namespace FileStream

variable {σ : Type} {S : FileStream σ} {s : σ} {n : Nat}

theorem read_result (hn : 0 < n) (hs : S.rest s ≠ []) : (S.read s n).result = .success := by
  rw [S.result_eq s n hn, if_neg hs]

theorem readAllLoop_result (fuel : Nat) (s : σ) (hfuel : n ≤ fuel) :
    (S.readAllLoop fuel s n).result = if n ≤ (S.rest s).length then .success else .eos := by
  induction fuel generalizing s n with
  | zero =>
    rw [Nat.le_zero.mp hfuel, if_pos (Nat.zero_le _)]
    rfl
  | succ fuel ih =>
    rw [InputStream.readAllLoop]
    split
    · rename_i hn
      rw [hn, if_pos (Nat.zero_le _)]
    · rename_i hn
      have hpos := Nat.pos_of_ne_zero hn
      dsimp only
      by_cases hs : S.rest s = []
      · have hresult := S.result_eq s n hpos
        rw [if_pos hs] at hresult
        rw [if_pos (by rw [hresult]; decide), hresult, hs, if_neg (by simpa using hn)]
      · have hresult := read_result hpos hs
        have hne := (S.success s n hpos).mp hresult
        have hlen := List.length_pos_of_ne_nil hne
        have hle := S.length_le s n
        have hrest := congrArg List.length (S.rest_eq s n)
        rw [List.length_append] at hrest
        rw [if_neg (by rw [hresult]; decide), ih _ (by omega)]
        split
        · rw [if_pos (by omega)]
        · rw [if_neg (by omega)]

/-- **From a file** `ReadAll` succeeds if there are enough bytes, and comes to the end otherwise. -/
theorem readAll_result (s : σ) (n : Nat) :
    (S.readAll s n).result = if n ≤ (S.rest s).length then .success else .eos :=
  readAllLoop_result n s (Nat.le_refl n)

/-- The bytes that `ReadAll` reads from a file in front of others. -/
theorem readAll_append {bytes rest : List U8} (hs : S.rest s = bytes ++ rest) :
    ∃ s', S.readAll s bytes.length = ⟨.success, bytes, s'⟩ ∧ S.rest s' = rest := by
  have hresult : (S.readAll s bytes.length).result = .success := by
    rw [readAll_result, if_pos (by rw [hs, List.length_append]; exact Nat.le_add_right _ _)]
  have hsplit := InputStream.readAll_rest (S := S.toInputStream) s bytes.length
  rw [hs] at hsplit
  obtain ⟨hbytes, hrest⟩ :=
    List.append_inj hsplit (InputStream.readAll_success hresult).symm
  generalize S.readAll s bytes.length = reply at hresult hbytes hrest
  obtain ⟨result, read, next⟩ := reply
  obtain rfl : result = .success := hresult
  obtain rfl : bytes = read := hbytes
  exact ⟨next, rfl, hrest.symm⟩

/-- A file with fewer bytes than `ReadAll` asks for. -/
theorem readAll_short (h : (S.rest s).length < n) : (S.readAll s n).result = .eos := by
  rw [readAll_result, if_neg (by omega)]

/-! ## `ReadLine` -/

variable {rest : List U8}

theorem read_one {ch : U8} (hs : S.rest s = ch :: rest) :
    ∃ s', S.read s 1 = ⟨.success, [ch], s'⟩ ∧ S.rest s' = rest := by
  have hresult : (S.read s 1).result = .success := read_result Nat.one_pos (by rw [hs]; simp)
  have hne := (S.success s 1 Nat.one_pos).mp hresult
  have hle := S.length_le s 1
  have hsplit := S.rest_eq s 1
  rw [hs] at hsplit
  generalize S.read s 1 = reply at hresult hne hle hsplit
  obtain ⟨result, bytes, next⟩ := reply
  obtain rfl : result = .success := hresult
  match bytes, hne, hle with
  | [b], _, _ =>
    obtain ⟨rfl, rfl⟩ := List.cons.inj hsplit
    exact ⟨next, rfl, rfl⟩

variable {line : List U8}

theorem readLineLoop_newline (before : List U8) {fuel : Nat}
    (hfuel : line.length < fuel) (hline : InputStream.newline ∉ line)
    (hs : S.rest s = line ++ InputStream.newline :: rest) :
    ∃ s', S.readLineLoop fuel s before = ⟨.success, before ++ line, s'⟩ ∧ S.rest s' = rest := by
  induction line generalizing fuel s before with
  | nil =>
    obtain ⟨fuel, rfl⟩ : ∃ k, fuel = k + 1 := ⟨fuel - 1, by omega⟩
    obtain ⟨s', hread, hrest⟩ := read_one hs
    refine ⟨s', ?_, hrest⟩
    rw [InputStream.readLineLoop, hread, List.append_nil]
    rfl
  | cons ch line ih =>
    obtain ⟨fuel, rfl⟩ : ∃ k, fuel = k + 1 := ⟨fuel - 1, by omega⟩
    obtain ⟨s₁, hread, hrest⟩ := read_one hs
    have hne : ch ≠ InputStream.newline := fun h => hline (h ▸ List.mem_cons_self)
    obtain ⟨s', hloop, hrest'⟩ := ih (before ++ [ch]) (Nat.lt_of_succ_lt_succ hfuel)
      (fun h => hline (List.mem_cons_of_mem _ h)) hrest
    refine ⟨s', ?_, hrest'⟩
    have hnot : [ch] ≠ [InputStream.newline] := fun h => hne (List.cons.inj h).1
    rw [InputStream.readLineLoop, hread]
    dsimp only
    rw [if_neg (by decide), if_neg hnot, hloop, List.append_assoc]
    rfl

theorem readLineLoop_end (before : List U8) {fuel : Nat} (hfuel : (S.rest s).length < fuel)
    (hline : InputStream.newline ∉ S.rest s) :
    ∃ s', S.readLineLoop fuel s before = ⟨.eos, before ++ S.rest s, s'⟩ ∧ S.rest s' = [] := by
  induction fuel generalizing s before with
  | zero => exact absurd hfuel (Nat.not_lt_zero _)
  | succ fuel ih =>
    rw [InputStream.readLineLoop]
    cases hs : S.rest s with
    | nil =>
      have hresult := S.result_eq s 1 Nat.one_pos
      rw [if_pos hs] at hresult
      have hrest := S.rest_eq s 1
      rw [hs] at hrest
      refine ⟨(S.read s 1).next, ?_, (List.append_eq_nil_iff.mp hrest.symm).2⟩
      rw [hresult, if_pos (by decide), List.append_nil]
    | cons ch rest =>
      rw [hs] at hfuel hline
      obtain ⟨s₁, hread, hrest⟩ := read_one hs
      have hne : ch ≠ InputStream.newline := fun h => hline (h ▸ List.mem_cons_self)
      obtain ⟨s', hloop, hrest'⟩ := ih (s := s₁) (before ++ [ch])
        (by rw [hrest]; exact Nat.lt_of_succ_lt_succ hfuel)
        (by rw [hrest]; exact fun h => hline (List.mem_cons_of_mem _ h))
      refine ⟨s', ?_, hrest'⟩
      have hnot : [ch] ≠ [InputStream.newline] := fun h => hne (List.cons.inj h).1
      rw [hread]
      dsimp only
      rw [if_neg (by decide), if_neg hnot, hloop, hrest, List.append_assoc]
      rfl

/-- **A line of a file**, and what is behind its end. -/
theorem readLine_newline (hline : InputStream.newline ∉ line)
    (hs : S.rest s = line ++ InputStream.newline :: rest) :
    ∃ s', S.readLine s = ⟨.success, line, s'⟩ ∧ S.rest s' = rest := by
  have hfuel : line.length < (S.rest s).length + 1 := by
    rw [hs, List.length_append]
    omega
  obtain ⟨s', hloop, hrest⟩ := readLineLoop_newline [] hfuel hline hs
  refine ⟨s', ?_, hrest⟩
  rw [InputStream.readLine, hloop]
  simp

theorem readLine_end (hline : InputStream.newline ∉ S.rest s) :
    ∃ s', S.readLine s = ⟨if S.rest s ≠ [] then .success else .eos, S.rest s, s'⟩ ∧
      S.rest s' = [] := by
  obtain ⟨s', hloop, hrest⟩ := readLineLoop_end [] (Nat.lt_succ_self _) hline
  refine ⟨s', ?_, hrest⟩
  rw [InputStream.readLine, hloop]
  simp

end FileStream

/-! ## Writing -/

/-- A stream that takes all that is written, in as many parts as it likes. -/
structure OutputStream (ω : Type) where
  written : ω → List U8
  write : ω → List U8 → StreamResult × Nat × ω
  takes : ∀ w bytes, bytes ≠ [] → (write w bytes).1 = .success ∧ 0 < (write w bytes).2.1 ∧
    written (write w bytes).2.2 = written w ++ bytes.take (write w bytes).2.1

namespace OutputStream

variable {ω : Type} (O : OutputStream ω)

/-- The loop of `WriteAll`. -/
def writeAllLoop : Nat → ω → List U8 → StreamResult × ω
  | 0, w, _ => (.success, w)
  | fuel + 1, w, data =>
    if data = [] then (.success, w)
    else
      let (result, n, w') := O.write w data
      if result ≠ .success then (result, w') else writeAllLoop fuel w' (data.drop n)

def writeAll (w : ω) (data : List U8) : StreamResult × ω := O.writeAllLoop data.length w data

variable {O}

theorem writeAllLoop_eq {fuel : Nat} {w : ω} {data : List U8} (hfuel : data.length ≤ fuel) :
    (O.writeAllLoop fuel w data).1 = .success ∧
      O.written (O.writeAllLoop fuel w data).2 = O.written w ++ data := by
  induction fuel generalizing w data with
  | zero =>
    rw [List.length_eq_zero_iff.mp (Nat.le_zero.mp hfuel), List.append_nil]
    exact ⟨rfl, rfl⟩
  | succ fuel ih =>
    rw [writeAllLoop]
    split
    · rename_i hdata
      rw [hdata, List.append_nil]
      exact ⟨rfl, rfl⟩
    · rename_i hdata
      obtain ⟨hresult, hpos, hwritten⟩ := O.takes w data hdata
      dsimp only
      rw [if_neg (by rw [hresult]; decide)]
      have hdrop : (data.drop (O.write w data).2.1).length ≤ fuel := by
        rw [List.length_drop]
        omega
      obtain ⟨hsuccess, hrest⟩ := ih (w := (O.write w data).2.2) hdrop
      refine ⟨hsuccess, ?_⟩
      rw [hrest, hwritten, List.append_assoc, List.take_append_drop]

/-- **`WriteAll` writes everything.** -/
theorem writeAll_eq (w : ω) (data : List U8) :
    ∃ w', O.writeAll w data = (.success, w') ∧ O.written w' = O.written w ++ data := by
  obtain ⟨hresult, hwritten⟩ := writeAllLoop_eq (O := O) (w := w) (Nat.le_refl data.length)
  exact ⟨_, Prod.ext hresult rfl, hwritten⟩

end OutputStream

/-! ## `MemoryStream` -/

/-- `MemoryStreamBase`: the data, of which there is room for `buffer_length_` bytes, and the seek
position in it. -/
structure MemoryStream where
  data : List U8
  bufferLength : Nat
  seekPosition : Nat
  data_le : data.length ≤ bufferLength
  seek_le : seekPosition ≤ data.length

namespace MemoryStream

def setData (data : List U8) : MemoryStream :=
  ⟨data, data.length, 0, Nat.le_refl _, Nat.zero_le _⟩

def read (m : MemoryStream) (bytes : Nat) : ReadReply MemoryStream :=
  if h : m.data.length ≤ m.seekPosition then ⟨.eos, [], m⟩
  else
    let n := min bytes (m.data.length - m.seekPosition)
    ⟨.success, (m.data.drop m.seekPosition).take n,
      { m with seekPosition := m.seekPosition + n, seek_le := by omega }⟩

def setPosition (m : MemoryStream) (position : Nat) : Bool × MemoryStream :=
  if h : m.data.length < position then (false, m)
  else (true, { m with seekPosition := position, seek_le := Nat.le_of_not_lt h })

/-- The size of the buffer for a write: a full one grows, so that there is room for all of it. -/
def room (m : MemoryStream) (bytes : Nat) : Nat :=
  if m.bufferLength - m.seekPosition = 0 then
    max (((m.seekPosition + bytes) ||| 0xFF) + 1) (m.bufferLength * 2)
  else m.bufferLength

theorem le_room (m : MemoryStream) (bytes : Nat) : m.bufferLength ≤ m.room bytes := by
  unfold room
  split
  · exact (Nat.le_mul_of_pos_right _ Nat.two_pos).trans (Nat.le_max_right _ _)
  · exact Nat.le_refl _

theorem seek_lt_room (m : MemoryStream) (bytes : Nat) : m.seekPosition < m.room bytes := by
  unfold room
  split
  · have hle : m.seekPosition + bytes ≤ (m.seekPosition + bytes) ||| 0xFF := Nat.left_le_or
    exact Nat.lt_of_lt_of_le (by omega) (Nat.le_max_left _ _)
  · omega

theorem write_le (m : MemoryStream) (bytes : List U8) :
    let n := min bytes.length (m.room bytes.length - m.seekPosition)
    let data := Checked.overwrite m.data m.seekPosition (bytes.take n)
    data.length ≤ m.room bytes.length ∧ m.seekPosition + n ≤ data.length := by
  have hroom := m.le_room bytes.length
  have hdata := m.data_le
  have hseek := m.seek_le
  simp only [Checked.overwrite, List.length_append, List.length_take, List.length_drop]
  omega

/-- `Write`: what there is room for. -/
def write (m : MemoryStream) (bytes : List U8) : StreamResult × Nat × MemoryStream :=
  let n := min bytes.length (m.room bytes.length - m.seekPosition)
  (.success, n,
    { data := Checked.overwrite m.data m.seekPosition (bytes.take n)
      bufferLength := m.room bytes.length
      seekPosition := m.seekPosition + n
      data_le := (m.write_le bytes).1
      seek_le := (m.write_le bytes).2 })

def input : FileStream MemoryStream where
  rest m := m.data.drop m.seekPosition
  read := read
  setPosition := setPosition
  length_le m n := by
    unfold read
    split
    · exact Nat.zero_le n
    · simp only [List.length_take]
      omega
  rest_eq m n := by
    unfold read
    split
    · rfl
    · dsimp only
      rw [← List.drop_drop]
      have hlen : (m.data.drop m.seekPosition).length = m.data.length - m.seekPosition :=
        List.length_drop
      exact (List.take_append_drop _ _).symm
  success m n hn := by
    unfold read
    split
    · simp
    · rename_i hseek
      have hlen : ((m.data.drop m.seekPosition).take
          (min n (m.data.length - m.seekPosition))).length ≠ 0 := by
        rw [List.length_take, List.length_drop]
        omega
      exact ⟨fun _ h => hlen (congrArg List.length h), fun _ => rfl⟩
  result_eq m n hn := by
    unfold read
    split
    · rename_i hseek
      rw [if_pos (List.drop_eq_nil_iff.mpr hseek)]
    · rename_i hseek
      rw [if_neg fun h => hseek (List.drop_eq_nil_iff.mp h)]

/-- The stream when it is written at its end. -/
def output : OutputStream { m : MemoryStream // m.seekPosition = m.data.length } where
  written m := m.1.data
  write m bytes :=
    ((m.1.write bytes).1, (m.1.write bytes).2.1, ⟨(m.1.write bytes).2.2, by
      obtain ⟨m, hm⟩ := m
      simp only [write, Checked.overwrite, hm, List.length_append, List.length_take,
        List.length_drop]
      omega⟩)
  takes m bytes hbytes := by
    obtain ⟨m, hm⟩ := m
    have hpos := List.length_pos_of_ne_nil hbytes
    have hroom := m.seek_lt_room bytes.length
    refine ⟨rfl, ?_, ?_⟩
    · show 0 < min bytes.length (m.room bytes.length - m.seekPosition)
      omega
    · simp only [write, Checked.overwrite, hm, List.take_length]
      rw [List.drop_eq_nil_of_le (Nat.le_add_right _ _), List.append_nil]

end MemoryStream

end Libjingle
