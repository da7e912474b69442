import Libjingle.Base.HttpParser
import Mathlib.Data.PNat.Defs

/-!
# Sending with `HttpBase` (`base/httpbase.cc`)

`send` puts the leader into a buffer of fixed size; each turn of the loop of `flush_data` adds the
headers that fit and a part of the document, and writes what the http stream takes. With
`Transfer-Encoding: chunked` each part of the document is framed as a chunk.

* The leader is what `formatLeader` would print; the headers are listed in the order of the map.
* The document stream gives up to as many characters as it is asked for, and at least one until
  its end; the http stream takes some of what it is handed. Both may block or fail (`ReadResult`,
  `WriteResult`).
* `buffer_` stands for the first `len_` characters of the array.
-/

namespace Libjingle

open Lib HttpParser

namespace HttpBase

def kBufferSize : Nat := 32 * 1024
def kChunkDigits : Nat := 8

/-- What the document stream answers to a `Read`; at its end a success is an `SR_EOS`. -/
inductive ReadResult
  | success (n : ℕ+)
  | block
  | error
deriving DecidableEq

/-- What the http stream answers to a `Write`. -/
inductive WriteResult
  | success (n : Nat)
  | block
  | error (error : Int)
deriving DecidableEq

def socketEacces : Int := 13
def secECertExpired : Int := -2146893016

/-- `HandleStreamClose`, while sending. -/
def handleStreamClose (error : Int) : HttpError :=
  if error = 0 then .disconnected
  else if error = socketEacces then .auth
  else if error = secECertExpired then .certificateExpired
  else .socketError

end HttpBase

open HttpBase

/-- The state of an `HttpBase` that sends: `header_` is what is left of the headers, and `document`
of the document. -/
structure HttpBase where
  buffer_ : Text
  header_ : List HttpHeaderField
  chunk_data_ : Bool
  document : Option Text
deriving DecidableEq

namespace HttpBase

def len_ (s : HttpBase) : Nat := s.buffer_.length

/-- What `"%.*s"` prints of a string. -/
def cstr (s : Text) : Text := s.takeWhile (· ≠ nul)

/-- What `sprintfn` and `strcpyn` put into a buffer of that length. -/
def copyn (buflen : Nat) (s : Text) : Text := s.take (buflen - 1)

/-- What `"%.*x"` prints of a number that has no more digits. -/
def hexDigits : Nat → Nat → Text
  | 0, _ => []
  | k + 1, n => hexDigits k (n / 16) ++ [Nat.digitChar (n % 16)]

def headerLine (h : HttpHeaderField) : Text := cstr h.1 ++ [':', ' '] ++ cstr h.2 ++ crlf

/-- `hasHeader`, with the value of the header. -/
def hasHeader (headers : List HttpHeaderField) (name : Text) : Option Text :=
  (headers.find? fun h => sameIgnoringCase (cstr h.1) name).map Prod.snd

/-- The loop of `queue_headers`: the buffer after it, the headers that are left, and whether the
buffer has to be written first. -/
def packHeaders (buffer : Text) : List HttpHeaderField → Text × List HttpHeaderField × Bool
  | [] => (buffer ++ copyn (kBufferSize - buffer.length) crlf, [], false)
  | h :: header_ =>
    let line := copyn (kBufferSize - buffer.length) (headerLine h)
    if buffer.length + line.length < kBufferSize - 3 then packHeaders (buffer ++ line) header_
    -- a header that is too long is discarded
    else if buffer.length = 0 then packHeaders buffer header_
    else (buffer, h :: header_, true)

def queueHeaders (s : HttpBase) : HttpBase × Bool :=
  let (buffer, header_, send_required) := packHeaders s.buffer_ s.header_
  ({ s with buffer_ := buffer, header_ := header_ }, send_required)

/-- `send` before its `flush_data`. -/
def send (leader : Text) (headers : List HttpHeaderField) (document : Option Text) : HttpBase :=
  let buffer := copyn kBufferSize leader
  let s : HttpBase :=
    { buffer_ := buffer ++ copyn (kBufferSize - buffer.length) crlf
      header_ := headers
      chunk_data_ := hasHeader headers hhTransferEncoding = some "chunked".toList
      document := document }
  if headers = [] then s.queueHeaders.1 else s

/-- A part of the document as it is put into the buffer. -/
def chunk (data : Text) : Text := hexDigits kChunkDigits data.length ++ crlf ++ data ++ crlf

/-- The empty chunk and empty trailers. -/
def lastChunk : Text := '0' :: crlf ++ crlf

/-- What a turn has done before it writes: it goes on to write, `send_required` or not, or the
sending ends, or an assertion fails. -/
inductive Queued
  | ready (s : HttpBase) (send_required : Bool)
  | completed (s : HttpBase) (error : HttpError)
  | assertion

/-- A turn of `flush_data` attempts to queue document data. -/
def queueData (s : HttpBase) (document : Text) (read : ReadResult) : Queued :=
  let offset := if s.chunk_data_ then s.len_ + kChunkDigits + 2 else s.len_
  let reserve := if s.chunk_data_ then offset + 2 else offset
  if reserve ≥ kBufferSize then .ready s true
  else
    match read with
    | .success n =>
      if document = [] then
        if s.chunk_data_ then
          if s.len_ + 5 ≤ kBufferSize then
            .ready { s with buffer_ := s.buffer_ ++ lastChunk, chunk_data_ := false } true
          else .assertion
        else if s.len_ = 0 then .completed s .none
        else .ready s true
      else
        let data := document.take (min n (kBufferSize - reserve))
        if reserve + data.length ≤ kBufferSize then
          .ready
            { s with
              buffer_ := s.buffer_ ++ if s.chunk_data_ then chunk data else data
              document := some (document.drop (min n (kBufferSize - reserve))) }
            false
        else .assertion
    | .block => .ready s true
    | .error => .completed s .stream

def queue (s : HttpBase) (send_required : Bool) (read : ReadResult) : Queued :=
  let (s, send_required) :=
    if send_required = false ∧ s.header_ ≠ [] then s.queueHeaders else (s, send_required)
  if send_required then .ready s true
  else s.document.elim (.ready s false) fun document => s.queueData document read

/-- How a turn ends: the loop goes on, with `send_required` off, after some characters have been
written; `flush_data` returns to wait for an event; the sending ends; or an assertion fails. -/
inductive Turn
  | again (s : HttpBase) (written : Text)
  | returned (s : HttpBase)
  | completed (s : HttpBase) (error : HttpError)
  | assertion

def flushBuffer (s : HttpBase) (send_required : Bool) (write : WriteResult) : Turn :=
  if s.len_ = 0 then if s.document = none then .completed s .none else .returned s
  else
    match write with
    | .success n =>
      let written := min n s.len_
      if written ≤ s.len_ then
        .again { s with buffer_ := s.buffer_.drop written } (s.buffer_.take written)
      else .assertion
    | .block => if send_required then .returned s else .again s []
    | .error error => .completed s (handleStreamClose error)

/-- A turn of the loop of `flush_data`. -/
def flushTurn (s : HttpBase) (send_required : Bool) (read : ReadResult) (write : WriteResult) :
    Turn :=
  if s.len_ ≤ kBufferSize then
    match s.queue send_required read with
    | .ready s send_required => s.flushBuffer send_required write
    | .completed s error => .completed s error
    | .assertion => .assertion
  else .assertion

/-! ## Runs -/

/-- Whether the sending goes on, has ended, or an assertion has failed. -/
inductive Status
  | sending
  | completed (error : HttpError)
  | assertion
deriving DecidableEq

/-- An `HttpBase` that sends, the `send_required` of the running call of `flush_data`, and what the
http stream has taken. -/
structure Sending where
  base : HttpBase
  call : Option Bool
  sent : Text
  status : Status
deriving DecidableEq

/-- An event of a stream calls `flush_data`, and a call takes turns. -/
inductive Event
  | streamEvent
  | turn (read : ReadResult) (write : WriteResult)
deriving DecidableEq

namespace Sending

/-- `flush_data` is called. -/
def flushData (base : HttpBase) (sent : Text) : Sending :=
  ⟨base, some (base.len_ ≥ kBufferSize), sent, .sending⟩

/-- `send`. -/
def start (leader : Text) (headers : List HttpHeaderField) (document : Option Text) : Sending :=
  flushData (send leader headers document) []

def ofTurn (s : Sending) : Turn → Sending
  | .again base written => ⟨base, some false, s.sent ++ written, .sending⟩
  | .returned base => ⟨base, none, s.sent, .sending⟩
  | .completed base error => ⟨base, none, s.sent, .completed error⟩
  | .assertion => { s with status := .assertion }

/-- An event during a call, a turn outside of one, and what comes after the end are ignored. -/
def step (s : Sending) (e : Event) : Sending :=
  if s.status = .sending then
    match e with
    | .streamEvent => if s.call = none then flushData s.base s.sent else s
    | .turn read write =>
      s.call.elim s fun send_required => s.ofTurn (s.base.flushTurn send_required read write)
  else s

def run (s : Sending) (events : List Event) : Sending := events.foldl step s

end Sending

/-! ## What a turn adds to the stream -/

/-- The lines of the headers that are left, with the line that ends them. -/
def pending (header_ : List HttpHeaderField) : Text :=
  if header_ = [] then [] else header_.flatMap headerLine ++ crlf

/-- The line of a header leaves room for another one. -/
def Fits (h : HttpHeaderField) : Prop := (headerLine h).length < kBufferSize / 2

instance : DecidablePred Fits := fun _ => inferInstanceAs (Decidable (_ < _))

theorem copyn_eq {buffer s : Text}
    (h : buffer.length + (copyn (kBufferSize - buffer.length) s).length < kBufferSize - 3) :
    copyn (kBufferSize - buffer.length) s = s := by
  have hsize : kBufferSize = 32768 := rfl
  refine List.take_of_length_le ?_
  rw [copyn, List.length_take] at h
  omega

theorem copyn_of_le {buflen : Nat} {s : Text} (h : s.length < buflen) : copyn buflen s = s :=
  List.take_of_length_le (by omega)

/-- **The headers are packed** as far as there is room, and none is discarded. -/
theorem packHeaders_spec {header_ : List HttpHeaderField} (hfits : ∀ h ∈ header_, Fits h)
    {buffer : Text} (hlen : buffer.length ≤ kBufferSize)
    (hend : header_ = [] → buffer.length + 3 ≤ kBufferSize) :
    (packHeaders buffer header_).1 ++ pending (packHeaders buffer header_).2.1 =
        buffer ++ (header_.flatMap headerLine ++ crlf) ∧
      (packHeaders buffer header_).1.length ≤ kBufferSize ∧
      (packHeaders buffer header_).2.1 <:+ header_ ∧
      ((packHeaders buffer header_).2.2 = false → (packHeaders buffer header_).2.1 = []) := by
  induction header_ generalizing buffer with
  | nil =>
    have hcrlf : copyn (kBufferSize - buffer.length) crlf = crlf :=
      copyn_of_le (by
        have hlen : crlf.length = 2 := rfl
        have := hend rfl
        omega)
    have hroom := hend rfl
    refine ⟨?_, ?_, List.suffix_refl _, fun _ => rfl⟩
    · rw [packHeaders, hcrlf]
      exact List.append_nil _
    · rw [packHeaders, hcrlf, List.length_append]
      exact Nat.le_of_lt hroom
  | cons h header_ ih =>
    rw [packHeaders]
    by_cases hroom : buffer.length +
        (copyn (kBufferSize - buffer.length) (headerLine h)).length < kBufferSize - 3
    · have hline := copyn_eq hroom
      rw [hline] at hroom
      rw [hline, if_pos hroom]
      have hnext : (buffer ++ headerLine h).length + 3 ≤ kBufferSize := by
        rw [List.length_append]
        omega
      obtain ⟨hstream, hlen', hsuffix, hrest⟩ :=
        ih (fun g hg => hfits g (List.mem_cons_of_mem h hg)) (by omega) fun _ => hnext
      refine ⟨?_, hlen', hsuffix.trans (List.suffix_cons h header_), hrest⟩
      rw [hstream, List.flatMap_cons]
      simp only [List.append_assoc]
    · -- an empty buffer would have had room
      have hsome : buffer.length ≠ 0 := fun hzero => hroom (by
        have hfit : (headerLine h).length < kBufferSize / 2 := hfits h List.mem_cons_self
        have hsize : kBufferSize = 32768 := rfl
        have hle : (copyn (kBufferSize - buffer.length) (headerLine h)).length ≤
          (headerLine h).length := (List.take_sublist _ _).length_le
        omega)
      rw [if_neg hroom, if_neg hsome]
      exact ⟨by rw [pending, if_neg (List.cons_ne_nil _ _)], hlen, List.suffix_refl _,
        fun h => (Bool.false_ne_true h.symm).elim⟩

/-- The leader and the headers of a message. -/
def head (leader : Text) (headers : List HttpHeaderField) : Text :=
  leader ++ crlf ++ (headers.flatMap headerLine ++ crlf)

/-- What holds of a sender in chunked mode: what was sent, the buffer and the headers that are left
make up the head and the chunks of the blocks that were read. -/
structure Sound (leader : Text) (headers : List HttpHeaderField) (document sent : Text)
    (blocks : List Text) (s : HttpBase) : Prop where
  stream : sent ++ s.buffer_ ++ pending s.header_ =
    head leader headers ++ blocks.flatMap chunk ++ if s.chunk_data_ then [] else lastChunk
  read : ∃ rest, s.document = some rest ∧ blocks.flatten ++ rest = document ∧
    (s.chunk_data_ = false → rest = [])
  blocks_size : ∀ data ∈ blocks, data ≠ [] ∧ data.length ≤ kBufferSize
  fits : ∀ h ∈ s.header_, Fits h
  len_le : s.len_ ≤ kBufferSize

variable {leader document sent : Text} {headers : List HttpHeaderField} {blocks : List Text}

variable {s : HttpBase}

theorem Sound.queueHeaders (h : s.Sound leader headers document sent blocks)
    (hheader : s.header_ ≠ []) :
    s.queueHeaders.1.Sound leader headers document sent blocks ∧
      (s.queueHeaders.2 = false → s.queueHeaders.1.header_ = []) := by
  obtain ⟨hstream, hlen, hsuffix, hrest⟩ :=
    packHeaders_spec h.fits h.len_le fun hnil => absurd hnil hheader
  have hpending := h.stream
  rw [pending, if_neg hheader, List.append_assoc, ← hstream, ← List.append_assoc] at hpending
  exact ⟨⟨hpending, h.read, h.blocks_size, fun g hg => h.fits g (hsuffix.subset hg), hlen⟩, hrest⟩

/-- What a part of a turn leaves is sound, and it does not end before everything is written. -/
def Queued.Keeps (P : HttpBase → Prop) : Queued → Prop
  | .ready s _ => P s
  | .completed s error => P s ∧
      (error = .none → s.header_ = [] ∧ s.chunk_data_ = false ∧ s.buffer_ = [])
  | .assertion => False

theorem length_hexDigits (k n : Nat) : (hexDigits k n).length = k := by
  induction k generalizing n with
  | zero => rfl
  | succ k ih => rw [hexDigits, List.length_append, ih]; rfl

theorem length_chunk (data : Text) : (chunk data).length = kChunkDigits + 2 + data.length + 2 := by
  have hcrlf : crlf.length = 2 := rfl
  rw [chunk, List.length_append, List.length_append, List.length_append, length_hexDigits, hcrlf]

/-- There is a sequence of blocks that makes a sender sound. -/
def Streams (leader : Text) (headers : List HttpHeaderField) (document sent : Text) (s : HttpBase) :
    Prop :=
  ∃ blocks, s.Sound leader headers document sent blocks

theorem Sound.chunk (h : s.Sound leader headers document sent blocks)
    (hheader : s.header_ = []) (hchunk : s.chunk_data_ = true) {data rest : Text}
    (hdata : data ≠ [])
    (hrest : s.document = some (data ++ rest))
    (hroom : s.len_ + kChunkDigits + 2 + 2 + data.length ≤ kBufferSize) :
    Sound leader headers document sent (blocks ++ [data])
      { s with buffer_ := s.buffer_ ++ HttpBase.chunk data, document := some rest } where
  stream := by
    have hstream := h.stream
    rw [hheader, hchunk] at hstream
    rw [hheader, hchunk, List.flatMap_append, List.flatMap_singleton]
    simp only [pending, if_true, List.append_nil] at hstream ⊢
    rw [← List.append_assoc, hstream, List.append_assoc]
  read := by
    obtain ⟨rest', hdoc, hblocks, -⟩ := h.read
    obtain rfl : data ++ rest = rest' := Option.some.inj (hrest.symm.trans hdoc)
    refine ⟨rest, rfl, ?_, fun hfalse => absurd (hchunk.symm.trans hfalse) (by decide)⟩
    rw [List.flatten_append, List.flatten_singleton, List.append_assoc]
    exact hblocks
  blocks_size := List.forall_mem_append.mpr
    ⟨h.blocks_size, List.forall_mem_singleton.mpr ⟨hdata, by omega⟩⟩
  fits := h.fits
  len_le := by
    rw [len_] at hroom
    rw [len_, List.length_append, length_chunk]
    omega

theorem Sound.lastChunk (h : s.Sound leader headers document sent blocks)
    (hheader : s.header_ = []) (hchunk : s.chunk_data_ = true) (hrest : s.document = some [])
    (hroom : s.len_ + 5 ≤ kBufferSize) :
    Sound leader headers document sent blocks
      { s with buffer_ := s.buffer_ ++ HttpBase.lastChunk, chunk_data_ := false } where
  stream := by
    have hstream := h.stream
    rw [hheader, hchunk] at hstream
    simp only [pending, if_true, List.append_nil] at hstream
    simp only [hheader, pending, if_true, List.append_nil, Bool.false_eq_true, if_false]
    rw [← List.append_assoc, hstream]
  read := by
    obtain ⟨rest, hdoc, hblocks, -⟩ := h.read
    obtain rfl : [] = rest := Option.some.inj (hrest.symm.trans hdoc)
    exact ⟨[], hdoc, hblocks, fun _ => rfl⟩
  blocks_size := h.blocks_size
  fits := h.fits
  len_le := by
    have hlast : HttpBase.lastChunk.length = 5 := rfl
    rw [len_, List.length_append, hlast]
    exact hroom

/-- **A turn queues a chunk, or the last one**, or nothing, and its assertions hold. -/
theorem Streams.queueData (h : s.Streams leader headers document sent)
    (hheader : s.header_ = []) {rest : Text} (hrest : s.document = some rest) (read : ReadResult) :
    (s.queueData rest read).Keeps (Streams leader headers document sent) := by
  obtain ⟨blocks, h⟩ := h
  unfold HttpBase.queueData
  by_cases hchunk : s.chunk_data_ = true
  · simp only [if_pos hchunk]
    split
    · exact ⟨blocks, h⟩
    rename_i hreserve
    cases read with
    | block => exact ⟨blocks, h⟩
    | error => exact ⟨⟨blocks, h⟩, fun herror => HttpError.noConfusion herror⟩
    | success n =>
      simp only
      split
      · rename_i hempty
        rw [hempty] at hrest
        have hroom : s.len_ + 5 ≤ kBufferSize := by omega
        rw [if_pos hroom]
        exact ⟨blocks, h.lastChunk hheader hchunk hrest hroom⟩
      · rename_i hne
        have hpos := List.length_pos_of_ne_nil hne
        have hn := n.pos
        generalize hmin : min (n : Nat) (kBufferSize - (s.len_ + kChunkDigits + 2 + 2)) = k
        have hk : 0 < k := by omega
        have hlen : (rest.take k).length ≤ k := List.length_take_le _ _
        have hdata : rest.take k ≠ [] := fun hnil => by
          have := congrArg List.length hnil
          rw [List.length_take, List.length_nil] at this
          omega
        have hroom : s.len_ + kChunkDigits + 2 + 2 + (rest.take k).length ≤ kBufferSize := by omega
        rw [if_pos hroom]
        refine ⟨blocks ++ [rest.take k], h.chunk hheader hchunk hdata ?_ hroom⟩
        rw [hrest, List.take_append_drop]
  · -- the document has ended
    have hnil : rest = [] := by
      obtain ⟨rest', hdoc, -, hend⟩ := h.read
      rw [hrest] at hdoc
      rw [Option.some.inj hdoc]
      exact hend (Bool.eq_false_of_not_eq_true hchunk)
    simp only [if_neg hchunk]
    split
    · exact ⟨blocks, h⟩
    cases read with
    | block => exact ⟨blocks, h⟩
    | error => exact ⟨⟨blocks, h⟩, fun herror => HttpError.noConfusion herror⟩
    | success n =>
      simp only
      split
      · rename_i hlen
        exact ⟨⟨blocks, h⟩, fun _ =>
          ⟨hheader, Bool.eq_false_of_not_eq_true hchunk, List.length_eq_zero_iff.mp hlen⟩⟩
      · exact ⟨blocks, h⟩

theorem Streams.queue (h : s.Streams leader headers document sent)
    (send_required : Bool) (read : ReadResult) :
    (s.queue send_required read).Keeps (Streams leader headers document sent) := by
  unfold HttpBase.queue
  have hnext : ∀ s' : HttpBase, s'.Streams leader headers document sent → s'.header_ = [] →
      Queued.Keeps (Streams leader headers document sent)
        (s'.document.elim (.ready s' false) fun document => s'.queueData document read) := by
    intro s' h' hheader
    obtain ⟨blocks, hsound⟩ := h'
    obtain ⟨rest, hdoc, -⟩ := hsound.read
    rw [hdoc]
    exact Streams.queueData ⟨blocks, hsound⟩ hheader hdoc read
  by_cases hqueue : send_required = false ∧ s.header_ ≠ []
  · obtain ⟨blocks, hsound⟩ := h
    obtain ⟨hkeeps, hempty⟩ := hsound.queueHeaders hqueue.2
    rw [if_pos hqueue]
    cases hsend : s.queueHeaders.2 with
    | true =>
      simp only [hsend, if_true]
      exact ⟨blocks, hkeeps⟩
    | false =>
      simp only [hsend, Bool.false_eq_true, if_false]
      exact hnext _ ⟨blocks, hkeeps⟩ (hempty hsend)
  · rw [if_neg hqueue]
    cases send_required with
    | true => exact h
    | false => exact hnext s h (not_not.mp fun hheader => hqueue ⟨rfl, hheader⟩)

def Turn.Keeps (leader : Text) (headers : List HttpHeaderField) (document sent : Text) : Turn → Prop
  | .again s written => s.Streams leader headers document (sent ++ written)
  | .returned s => s.Streams leader headers document sent
  | .completed s error => s.Streams leader headers document sent ∧
      (error = .none → s.header_ = [] ∧ s.chunk_data_ = false ∧ s.buffer_ = [])
  | .assertion => False

theorem handleStreamClose_ne (error : Int) : handleStreamClose error ≠ .none := by
  unfold handleStreamClose
  split
  · exact HttpError.noConfusion
  split
  · exact HttpError.noConfusion
  split
  · exact HttpError.noConfusion
  · exact HttpError.noConfusion

theorem Streams.flushBuffer (h : s.Streams leader headers document sent)
    (send_required : Bool) (write : WriteResult) :
    (s.flushBuffer send_required write).Keeps leader headers document sent := by
  obtain ⟨blocks, hs⟩ := h
  obtain ⟨rest, hdoc, -⟩ := hs.read
  unfold HttpBase.flushBuffer
  split
  · rw [if_neg (by rw [hdoc]; exact Option.some_ne_none rest)]
    exact ⟨blocks, hs⟩
  cases write with
  | success n =>
    simp only
    rw [if_pos (min_le_right n s.len_)]
    refine ⟨blocks, ⟨?_, hs.read, hs.blocks_size, hs.fits, ?_⟩⟩
    · rw [List.append_assoc sent, List.take_append_drop]
      exact hs.stream
    · have hle := hs.len_le
      rw [len_] at hle
      rw [len_, List.length_drop]
      omega
  | block =>
    simp only
    split
    · exact ⟨blocks, hs⟩
    · refine ⟨blocks, ?_⟩
      rw [List.append_nil]
      exact hs
  | error error =>
    exact ⟨⟨blocks, hs⟩, fun hnone => absurd hnone (handleStreamClose_ne error)⟩

/-- **A turn keeps the stream**, and no assertion of it fails. -/
theorem Streams.flushTurn (h : s.Streams leader headers document sent)
    (send_required : Bool) (read : ReadResult) (write : WriteResult) :
    (s.flushTurn send_required read write).Keeps leader headers document sent := by
  have hlen : s.len_ ≤ kBufferSize := by
    obtain ⟨blocks, hs⟩ := h
    exact hs.len_le
  have hqueue := h.queue send_required read
  rw [HttpBase.flushTurn, if_pos hlen]
  cases hq : s.queue send_required read with
  | ready s' send_required' =>
    rw [hq] at hqueue
    exact Streams.flushBuffer hqueue send_required' write
  | completed s' error =>
    rw [hq] at hqueue
    exact hqueue
  | assertion =>
    rw [hq] at hqueue
    exact hqueue.elim

/-! ## What holds along a run -/

/-- A message that is sent in chunks: the leader fits the buffer, each header leaves room for
another one, and the header says so. -/
structure Chunked (leader : Text) (headers : List HttpHeaderField) : Prop where
  leader_fits : leader.length + 2 < kBufferSize
  fits : ∀ h ∈ headers, Fits h
  chunked : hasHeader headers hhTransferEncoding = some "chunked".toList

theorem Chunked.headers_ne {leader : Text} {headers : List HttpHeaderField}
    (h : Chunked leader headers) : headers ≠ [] := by
  rintro rfl
  exact absurd h.chunked (Option.some_ne_none _).symm

theorem Chunked.send_eq {leader : Text} {headers : List HttpHeaderField}
    (h : Chunked leader headers)
    (document : Option Text) : send leader headers document =
      { buffer_ := leader ++ crlf, header_ := headers, chunk_data_ := true,
        document := document } := by
  have hfits := h.leader_fits
  have hleader : copyn kBufferSize leader = leader := copyn_of_le (by omega)
  have hcrlf : copyn (kBufferSize - leader.length) crlf = crlf := copyn_of_le (by
    have hlen : crlf.length = 2 := rfl
    omega)
  have hchunked : decide (hasHeader headers hhTransferEncoding = some "chunked".toList) = true :=
    decide_eq_true h.chunked
  rw [send, if_neg h.headers_ne, hleader, hcrlf, hchunked]

namespace Sending

/-- What holds in every state of a run. -/
def Sound (leader : Text) (headers : List HttpHeaderField) (document : Text) (s : Sending) : Prop :=
  s.base.Streams leader headers document s.sent ∧ s.status ≠ .assertion ∧
    (s.status = .completed .none →
      s.base.header_ = [] ∧ s.base.chunk_data_ = false ∧ s.base.buffer_ = [])

theorem sound_start (h : Chunked leader headers) :
    (start leader headers (some document)).Sound leader headers document := by
  refine ⟨⟨[], ?_⟩, fun h => Status.noConfusion h, fun h => Status.noConfusion h⟩
  rw [start, h.send_eq]
  have hcrlf : crlf.length = 2 := rfl
  refine ⟨?_, ⟨document, rfl, rfl, fun hfalse => (Bool.false_ne_true hfalse.symm).elim⟩,
    List.forall_mem_nil _, h.fits, ?_⟩
  · show [] ++ (leader ++ crlf) ++ pending headers = head leader headers ++ [] ++ []
    rw [pending, if_neg h.headers_ne, head, List.nil_append, List.append_nil, List.append_nil]
  · have hfits := h.leader_fits
    show (leader ++ crlf).length ≤ kBufferSize
    rw [List.length_append, hcrlf]
    exact Nat.le_of_lt hfits

theorem Sound.step {s : Sending} (h : s.Sound leader headers document) (e : Event) :
    (s.step e).Sound leader headers document := by
  unfold Sending.step
  split
  swap
  · exact h
  cases e with
  | streamEvent =>
    simp only
    split
    · exact ⟨h.1, fun h => Status.noConfusion h, fun h => Status.noConfusion h⟩
    · exact h
  | turn read write =>
    cases hcall : s.call with
    | none => exact h
    | some send_required =>
      have hturn := h.1.flushTurn send_required read write
      show (s.ofTurn (s.base.flushTurn send_required read write)).Sound leader headers document
      cases hresult : s.base.flushTurn send_required read write with
      | again base written =>
        rw [hresult] at hturn
        exact ⟨hturn, fun h => Status.noConfusion h, fun h => Status.noConfusion h⟩
      | returned base =>
        rw [hresult] at hturn
        exact ⟨hturn, fun h => Status.noConfusion h, fun h => Status.noConfusion h⟩
      | completed base error =>
        rw [hresult] at hturn
        exact ⟨hturn.1, fun h => Status.noConfusion h, fun h => hturn.2 (Status.completed.inj h)⟩
      | assertion =>
        rw [hresult] at hturn
        exact hturn.elim

/-- **Every run keeps the stream**, and no assertion fails. -/
theorem sound_run (h : Chunked leader headers) (events : List Event) :
    ((start leader headers (some document)).run events).Sound leader headers document := by
  have hrun : ∀ s : Sending, s.Sound leader headers document →
      (s.run events).Sound leader headers document := by
    induction events with
    | nil => exact fun s hs => hs
    | cons e events ih => exact fun s hs => ih (s.step e) (hs.step e)
  exact hrun _ (sound_start h)

end Sending

end HttpBase

end Libjingle
