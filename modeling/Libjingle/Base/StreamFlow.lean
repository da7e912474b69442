import Libjingle.Base.Stream

/-!
# Pumping one stream into another (`base/stream.cc`)

`Flow` reads into a buffer until it is full or the source has ended, writes the buffer out, and
starts over. Either half may be interrupted, by a stream that would block or by an error; the
caller comes back later with the same buffer, and with the `data_len` that it was left with.

* A success moves a byte, so the room in the buffer and the bytes in it bound their rounds.
* `Pumped`: what happens between one return and the next. Where the caller waits, the streams may
  change in any way that neither adds nor loses bytes.

## Results

* `flow_delivers`: the sink has everything when the last call succeeds.
-/

namespace Libjingle

open Lib.Checked (overwrite overwrite_length)

/-- A source that ends with its bytes. -/
structure EndingStream (σ : Type) extends InputStream σ where
  eos : ∀ s n, 0 < n → (read s n).result = .eos → rest s = []

/-- A stream that takes a part of what is written, or none of it. -/
structure Sink (ω : Type) where
  /-- The bytes that it has taken. -/
  written : ω → List U8
  write : ω → List U8 → StreamResult × Nat × ω
  success : ∀ w bytes, bytes ≠ [] → (write w bytes).1 = .success →
    0 < (write w bytes).2.1 ∧ (write w bytes).2.1 ≤ bytes.length ∧
      written (write w bytes).2.2 = written w ++ bytes.take (write w bytes).2.1
  failure : ∀ w bytes, bytes ≠ [] → (write w bytes).1 ≠ .success →
    written (write w bytes).2.2 = written w

/-- The two streams, and what the caller of `Flow` holds between the calls. -/
structure FlowState (σ ω : Type) where
  source : σ
  sink : ω
  buffer : List U8
  /-- `*data_len`; `none` where the caller passes no pointer. -/
  dataLen : Option Nat

namespace FlowState

variable {σ ω : Type} (S : EndingStream σ) (K : Sink ω)

structure Filled (σ : Type) where
  /-- `some`: `Flow` returns. -/
  stopped : Option StreamResult
  endOfStream : Bool
  source : σ
  buffer : List U8
  readPos : Nat

/-- Read until the buffer is full, the end of the stream, or an error. -/
def fill : Nat → σ → List U8 → Nat → Filled σ
  | 0, source, buffer, readPos => ⟨none, false, source, buffer, readPos⟩
  | fuel + 1, source, buffer, readPos =>
    if readPos < buffer.length then
      let reply := S.read source (buffer.length - readPos)
      if reply.result = .eos then ⟨none, true, reply.next, buffer, readPos⟩
      else if reply.result ≠ .success then ⟨some reply.result, false, reply.next, buffer, readPos⟩
      else fill fuel reply.next (overwrite buffer readPos reply.bytes)
        (readPos + reply.bytes.length)
    else ⟨none, false, source, buffer, readPos⟩

structure Drained (ω : Type) where
  /-- `some`: `Flow` returns. -/
  stopped : Option StreamResult
  sink : ω
  writePos : Nat

/-- Write until the buffer is empty, or an error. -/
def drain (buffer : List U8) (readPos : Nat) : Nat → ω → Nat → Drained ω
  | 0, sink, writePos => ⟨none, sink, writePos⟩
  | fuel + 1, sink, writePos =>
    if writePos < readPos then
      let (result, count, sink) := K.write sink ((buffer.take readPos).drop writePos)
      if result ≠ .success then ⟨some result, sink, writePos⟩
      else drain buffer readPos fuel sink (writePos + count)
    else ⟨none, sink, writePos⟩

/-- The outer loop of `Flow`. `pointer` says whether there is a `data_len` to write to. -/
def flowLoop (pointer : Bool) : Nat → σ → ω → List U8 → Nat →
    Option (StreamResult × FlowState σ ω)
  | 0, _, _, _, _ => none
  | fuel + 1, source, sink, buffer, readPos =>
    let filled := fill S (buffer.length - readPos) source buffer readPos
    match filled.stopped with
    | some result =>
      some (result,
        ⟨filled.source, sink, filled.buffer, if pointer then some filled.readPos else none⟩)
    | none =>
      let drained := drain K filled.buffer filled.readPos filled.readPos sink 0
      match drained.stopped with
      | some result =>
        let left := filled.readPos - drained.writePos
        -- The caller finds the rest at the start of the buffer.
        let buffer := if pointer ∧ 0 < drained.writePos then
            overwrite filled.buffer 0 ((filled.buffer.drop drained.writePos).take left)
          else filled.buffer
        some (result, ⟨filled.source, drained.sink, buffer, if pointer then some left else none⟩)
      | none =>
        if filled.endOfStream then
          some (.success,
            ⟨filled.source, drained.sink, filled.buffer, if pointer then some 0 else none⟩)
        else flowLoop pointer fuel filled.source drained.sink filled.buffer 0

/-- Each round but the first takes a byte from the source, and the last finds its end. -/
def rounds (s : FlowState σ ω) : Nat := (S.rest s.source).length + 2

/-- The function. `rounds` is the bound for its outer loop, which no call reaches. -/
def flow (s : FlowState σ ω) : Option (StreamResult × FlowState σ ω) :=
  flowLoop S K s.dataLen.isSome (rounds S s) s.source s.sink s.buffer (s.dataLen.getD 0)

/-- What happens up to a return of `Flow` that is no success: further calls, and waiting. -/
inductive Pumped : FlowState σ ω → FlowState σ ω → Prop where
  | refl (s : FlowState σ ω) : Pumped s s
  | call {s t u : FlowState σ ω} {result : StreamResult} : Pumped s t →
      flow S K t = some (result, u) → result ≠ .success → Pumped s u
  | wait {s t : FlowState σ ω} (source : σ) (sink : ω) : Pumped s t →
      S.rest source = S.rest t.source → K.written sink = K.written t.sink →
      Pumped s { t with source, sink }

/-! ## The two halves -/

variable {S K} {source : σ} {sink : ω} {buffer : List U8} {readPos writePos fuel : Nat}

theorem take_overwrite (out : List U8) (h : readPos ≤ buffer.length) :
    (overwrite buffer readPos out).take (readPos + out.length) = buffer.take readPos ++ out := by
  have hlen : (buffer.take readPos ++ out).length = readPos + out.length := by
    rw [List.length_append, List.length_take_of_le h]
  rw [overwrite, ← hlen, List.take_left]

/-- What is in the buffer and what is to come. -/
structure Kept (source : σ) (buffer : List U8) (readPos : Nat) (filled : Filled σ) : Prop where
  length : filled.buffer.length = buffer.length
  readPos_le : filled.readPos ≤ filled.buffer.length
  bytes : filled.buffer.take filled.readPos ++ S.rest filled.source =
    buffer.take readPos ++ S.rest source
  /-- A loop that goes on has filled the buffer. -/
  full : filled.stopped = none → filled.endOfStream = false →
    filled.readPos = filled.buffer.length
  ended : filled.endOfStream = true → S.rest filled.source = []
  failed : filled.stopped ≠ some .success

theorem fill_kept (source : σ) (hfuel : buffer.length - readPos ≤ fuel)
    (hpos : readPos ≤ buffer.length) :
    Kept (S := S) source buffer readPos (fill S fuel source buffer readPos) := by
  induction fuel generalizing source buffer readPos with
  | zero =>
    exact ⟨rfl, hpos, rfl, fun _ _ => by change readPos = buffer.length; omega,
      fun h => Bool.noConfusion h, nofun⟩
  | succ fuel ih =>
    rw [fill]
    split
    · rename_i hlt
      have hrest := S.rest_eq source (buffer.length - readPos)
      have hsuccess := S.success source (buffer.length - readPos) (by omega)
      have hle := S.length_le source (buffer.length - readPos)
      have heos := S.eos source (buffer.length - readPos) (by omega)
      generalize S.read source (buffer.length - readPos) = reply at hrest hsuccess hle heos
      dsimp only
      -- Only a success brings bytes.
      have hnone : reply.result ≠ .success → S.rest source = S.rest reply.next := by
        intro hresult
        rw [hrest, not_not.mp (mt hsuccess.mpr hresult), List.nil_append]
      split
      · rename_i hend
        have hnext := hnone (by rw [hend]; exact StreamResult.noConfusion)
        refine ⟨rfl, hpos, by rw [hnext], fun _ h => Bool.noConfusion h, fun _ => ?_, nofun⟩
        change S.rest reply.next = []
        rw [← hnext, heos hend]
      · split
        · rename_i hresult
          refine ⟨rfl, hpos, by rw [hnone hresult], nofun, fun h => Bool.noConfusion h, ?_⟩
          intro h
          exact hresult (Option.some.inj h)
        · rename_i hresult
          have hbytes := List.length_pos_of_ne_nil (hsuccess.mp (not_not.mp hresult))
          have hlen : (overwrite buffer readPos reply.bytes).length = buffer.length :=
            overwrite_length (by omega)
          have hkept := @ih (overwrite buffer readPos reply.bytes)
            (readPos + reply.bytes.length) reply.next (by rw [hlen]; omega) (by rw [hlen]; omega)
          refine ⟨hkept.length.trans hlen, hkept.readPos_le, ?_, hkept.full, hkept.ended,
            hkept.failed⟩
          rw [hkept.bytes, take_overwrite _ hpos, List.append_assoc, ← hrest]
    · exact ⟨rfl, hpos, rfl, fun _ _ => by change readPos = buffer.length; omega,
        fun h => Bool.noConfusion h, nofun⟩

/-- What is written and what is still in the buffer. -/
structure Moved (buffer : List U8) (readPos : Nat) (sink : ω) (writePos : Nat)
    (drained : Drained ω) : Prop where
  writePos_le : drained.writePos ≤ readPos
  bytes : K.written drained.sink ++ (buffer.take readPos).drop drained.writePos =
    K.written sink ++ (buffer.take readPos).drop writePos
  grows : K.written sink <+: K.written drained.sink
  /-- A loop that goes on has emptied the buffer. -/
  empty : drained.stopped = none → drained.writePos = readPos
  failed : drained.stopped ≠ some .success

theorem drain_kept (sink : ω) (hfuel : readPos - writePos ≤ fuel) (hpos : writePos ≤ readPos)
    (hread : readPos ≤ buffer.length) :
    Moved (K := K) buffer readPos sink writePos
      (drain K buffer readPos fuel sink writePos) := by
  induction fuel generalizing sink writePos with
  | zero =>
    exact ⟨hpos, rfl, List.prefix_refl _, fun _ => by change writePos = readPos; omega, nofun⟩
  | succ fuel ih =>
    rw [drain]
    split
    · have hne : (buffer.take readPos).drop writePos ≠ [] := by
        rw [Ne, List.drop_eq_nil_iff, List.length_take]
        omega
      have hlength : ((buffer.take readPos).drop writePos).length = readPos - writePos := by
        rw [List.length_drop, List.length_take_of_le hread]
      have hsuccess := K.success sink _ hne
      have hfailure := K.failure sink _ hne
      generalize K.write sink ((buffer.take readPos).drop writePos) = reply at hsuccess hfailure
      obtain ⟨result, count, next⟩ := reply
      dsimp only at hsuccess hfailure ⊢
      split
      · rename_i hresult
        refine ⟨hpos, by rw [hfailure hresult], by rw [hfailure hresult], nofun, ?_⟩
        intro h
        exact hresult (Option.some.inj h)
      · rename_i hresult
        obtain ⟨hcount, hle, hwritten⟩ := hsuccess (not_not.mp hresult)
        have hmoved := @ih (writePos + count) next (by omega) (by omega)
        refine ⟨hmoved.writePos_le, ?_, ?_, hmoved.empty, hmoved.failed⟩
        · rw [hmoved.bytes, hwritten, List.append_assoc, ← List.drop_drop, List.take_append_drop]
        · have hgrows := hmoved.grows
          rw [hwritten] at hgrows
          exact (List.prefix_append ..).trans hgrows
    · exact ⟨hpos, rfl, List.prefix_refl _, fun _ => by change writePos = readPos; omega, nofun⟩

/-! ## One call -/

/-- The bytes that the sink has, then those in the buffer, then those to come. -/
def stock (S : EndingStream σ) (K : Sink ω) (s : FlowState σ ω) : List U8 :=
  K.written s.sink ++ s.buffer.take (s.dataLen.getD 0) ++ S.rest s.source

structure Returned (before total : List U8) (size : Nat) (result : StreamResult)
    (s : FlowState σ ω) : Prop where
  length : s.buffer.length = size
  dataLen : ∃ n, s.dataLen = some n ∧ n ≤ size
  stock : stock S K s = total
  grows : before <+: K.written s.sink
  success : result = .success → s.dataLen = some 0 ∧ S.rest s.source = []

theorem take_moved (h : writePos ≤ readPos) (hread : readPos ≤ buffer.length) :
    (overwrite buffer 0 ((buffer.drop writePos).take (readPos - writePos))).take
      (readPos - writePos) = (buffer.take readPos).drop writePos := by
  have hlen : ((buffer.drop writePos).take (readPos - writePos)).length = readPos - writePos := by
    rw [List.length_take, List.length_drop]
    omega
  have htake := take_overwrite ((buffer.drop writePos).take (readPos - writePos))
    (Nat.zero_le buffer.length)
  rw [hlen, Nat.zero_add, List.take_zero, List.nil_append] at htake
  rw [htake, List.drop_take]

/-- A round takes a byte from the source when the buffer is not full before. -/
def roundsLeft (source : σ) (buffer : List U8) (readPos : Nat) : Nat :=
  (S.rest source).length + if readPos = buffer.length then 2 else 1

theorem flowLoop_returns (source : σ) (sink : ω) (hbuffer : 0 < buffer.length)
    (hpos : readPos ≤ buffer.length)
    (hfuel : roundsLeft (S := S) source buffer readPos ≤ fuel) :
    ∃ result s, flowLoop S K true fuel source sink buffer readPos = some (result, s) ∧
      Returned (S := S) (K := K) (K.written sink)
        (K.written sink ++ buffer.take readPos ++ S.rest source) buffer.length result s := by
  induction fuel generalizing source sink buffer readPos with
  | zero =>
    rw [roundsLeft] at hfuel
    split at hfuel <;> omega
  | succ fuel ih =>
    rw [flowLoop]
    have hfill :=
      fill_kept (S := S) source (Nat.le_refl (buffer.length - readPos)) hpos
    generalize fill S (buffer.length - readPos) source buffer readPos = filled at hfill
    dsimp only
    split
    · rename_i result hstopped
      refine ⟨_, _, rfl, hfill.length, ⟨_, rfl, hfill.length ▸ hfill.readPos_le⟩, ?_,
        List.prefix_refl _, ?_⟩
      · change K.written sink ++ filled.buffer.take filled.readPos ++ S.rest filled.source = _
        rw [List.append_assoc, hfill.bytes, List.append_assoc]
      · intro h
        exact absurd (h ▸ hstopped) hfill.failed
    · rename_i hgoes
      have hdrain := drain_kept (K := K) sink
        (Nat.le_of_eq (Nat.sub_zero filled.readPos)) (Nat.zero_le _) hfill.readPos_le
      generalize drain K filled.buffer filled.readPos filled.readPos sink 0 = drained at hdrain
      -- What the sink got came out of the buffer.
      have hstock : K.written drained.sink ++
          (filled.buffer.take filled.readPos).drop drained.writePos ++ S.rest filled.source =
          K.written sink ++ buffer.take readPos ++ S.rest source := by
        rw [hdrain.bytes, List.drop_zero, List.append_assoc, hfill.bytes, List.append_assoc]
      split
      · rename_i result hstopped
        have hle := hdrain.writePos_le
        have hread := hfill.readPos_le
        have hlength := hfill.length
        have hmoved := take_moved hle hread
        refine ⟨_, _, rfl, ?_, ⟨_, rfl, by omega⟩, ?_, hdrain.grows, ?_⟩
        · split
          · rw [overwrite_length, hlength]
            rw [List.length_take, List.length_drop]
            omega
          · exact hlength
        · rw [← hstock, stock]
          simp only [if_true, true_and, Option.getD_some]
          split
          · rw [hmoved]
          · rename_i hzero
            rw [Nat.eq_zero_of_not_pos hzero, Nat.sub_zero, List.drop_zero]
        · intro h
          exact absurd (h ▸ hstopped) hdrain.failed
      · rename_i hempty
        rw [hdrain.empty hempty, List.drop_of_length_le (List.length_take_le ..),
          List.append_nil] at hstock
        split
        · rename_i hend
          refine ⟨_, _, rfl, hfill.length, ⟨0, rfl, Nat.zero_le _⟩, ?_, hdrain.grows,
            fun _ => ⟨rfl, hfill.ended hend⟩⟩
          change K.written drained.sink ++ filled.buffer.take 0 ++ S.rest filled.source = _
          rw [List.take_zero, List.append_nil, hstock]
        · rename_i hend
          have hfull := hfill.full hgoes (Bool.not_eq_true _ ▸ hend)
          have hlength := congrArg List.length hfill.bytes
          simp only [List.length_append, List.length_take] at hlength
          have hbuflen := hfill.length
          obtain ⟨result, s, hflow, hreturned⟩ :=
            @ih filled.buffer 0 filled.source drained.sink (by omega) (Nat.zero_le _) (by
              rw [roundsLeft] at hfuel ⊢
              rw [if_neg (by omega)]
              split at hfuel <;> omega)
          rw [List.take_zero, List.append_nil, hstock, hfill.length] at hreturned
          exact ⟨result, s, hflow, hreturned.length, hreturned.dataLen, hreturned.stock,
            hdrain.grows.trans hreturned.grows, hreturned.success⟩

/-- The buffer has room, and the bytes that it holds are in it. -/
structure Ready (before total : List U8) (s : FlowState σ ω) : Prop where
  buffer : 0 < s.buffer.length
  dataLen : ∃ n, s.dataLen = some n ∧ n ≤ s.buffer.length
  stock : stock S K s = total
  grows : before <+: K.written s.sink

variable {before total : List U8} {s t : FlowState σ ω}

theorem flow_returns (h : Ready (S := S) (K := K) before total s) :
    ∃ result t, flow S K s = some (result, t) ∧ Ready (S := S) (K := K) before total t ∧
      (result = .success → t.dataLen = some 0 ∧ K.written t.sink = total) := by
  obtain ⟨n, hn, hle⟩ := h.dataLen
  obtain ⟨result, t, hflow, hreturned⟩ :=
    @flowLoop_returns _ _ S K s.buffer n (rounds S s) s.source s.sink h.buffer hle (by
      rw [roundsLeft, rounds]
      split <;> omega)
  have htotal : K.written s.sink ++ s.buffer.take n ++ S.rest s.source = total := by
    rw [← h.stock, stock, hn]
    rfl
  rw [htotal] at hreturned
  refine ⟨result, t, ?_, ⟨hreturned.length ▸ h.buffer, hreturned.length ▸ hreturned.dataLen,
    hreturned.stock, h.grows.trans hreturned.grows⟩, ?_⟩
  · rw [flow, hn]
    exact hflow
  · intro hresult
    obtain ⟨hzero, hrest⟩ := hreturned.success hresult
    refine ⟨hzero, ?_⟩
    have hstock := hreturned.stock
    rw [stock, hzero, hrest, Option.getD_some, List.take_zero, List.append_nil,
      List.append_nil] at hstock
    exact hstock

/-! ## Any number of calls -/

/-- The bytes at the sink, those in the buffer and those to come are always the same. -/
theorem pumped_kept (hrun : Pumped S K s t) (h : Ready (S := S) (K := K) before total s) :
    Ready (S := S) (K := K) before total t := by
  induction hrun with
  | refl => exact h
  | call _ hflow _ ih =>
    obtain ⟨result, t', hflow', hready, -⟩ := flow_returns ih
    rw [hflow] at hflow'
    obtain ⟨-, rfl⟩ := Prod.mk.inj (Option.some.inj hflow')
    exact hready
  | wait source sink _ hsource hsink ih =>
    refine ⟨ih.buffer, ih.dataLen, ?_, hsink ▸ ih.grows⟩
    rw [← ih.stock, stock, stock]
    dsimp only
    rw [hsource, hsink]

theorem ready_start (S : EndingStream σ) (K : Sink ω) (source : σ) (sink : ω) {buffer : List U8}
    (hbuffer : 0 < buffer.length) :
    Ready (S := S) (K := K) (K.written sink) (K.written sink ++ S.rest source)
      ⟨source, sink, buffer, some 0⟩ := by
  refine ⟨hbuffer, ⟨0, rfl, Nat.zero_le _⟩, ?_, List.prefix_refl _⟩
  rw [stock, Option.getD_some, List.take_zero, List.append_nil]

/-- **A source is pumped into a sink.** After every return that is no success, what was read is what
the sink got and then the bytes at the start of the buffer. The next call returns, and when it
succeeds the sink has got the bytes of the source, in order. -/
theorem flow_delivers (S : EndingStream σ) (K : Sink ω) (source : σ) (sink : ω)
    (buffer : List U8) (hbuffer : 0 < buffer.length) (s : FlowState σ ω)
    (hrun : Pumped S K ⟨source, sink, buffer, some 0⟩ s) :
    (∃ n delivered, s.dataLen = some n ∧ n ≤ s.buffer.length ∧
      K.written s.sink = K.written sink ++ delivered ∧
      S.rest source = delivered ++ s.buffer.take n ++ S.rest s.source) ∧
    ∃ result t, flow S K s = some (result, t) ∧
      (result = .success → t.dataLen = some 0 ∧
        K.written t.sink = K.written sink ++ S.rest source) := by
  have hready := pumped_kept hrun (ready_start S K source sink hbuffer)
  constructor
  · obtain ⟨n, hn, hle⟩ := hready.dataLen
    obtain ⟨delivered, hdelivered⟩ := hready.grows
    refine ⟨n, delivered, hn, hle, hdelivered.symm, ?_⟩
    have hstock := hready.stock
    rw [stock, hn, Option.getD_some, ← hdelivered, List.append_assoc, List.append_assoc] at hstock
    rw [← List.append_cancel_left hstock, List.append_assoc]
  · obtain ⟨result, t, hflow, -, hsuccess⟩ := flow_returns hready
    exact ⟨result, t, hflow, hsuccess⟩

/-- A source that blocks behind each of its parts. -/
def partwise : EndingStream (List (List U8)) where
  rest := List.flatten
  read
    | [], _ => ⟨.eos, [], []⟩
    | [] :: parts, _ => ⟨.block, [], parts⟩
    | part :: parts, n => ⟨.success, part.take n, part.drop n :: parts⟩
  setPosition parts _ := (false, parts)
  length_le parts n := by split <;> simp
  rest_eq parts n := by split <;> simp [← List.append_assoc]
  success parts n hn := by
    split
    · simp
    · simp
    · rename_i hpart
      simp [Nat.ne_of_gt hn]
      exact hpart
  eos parts n hn h := by split at h <;> simp_all

/-- A sink that takes as much as it has room for, and blocks where it has none. -/
def roomy : Sink (List U8 × List Nat) where
  written := Prod.fst
  write
    | (taken, []), bytes => (.success, bytes.length, taken ++ bytes, [])
    | (taken, 0 :: rooms), _ => (.block, 0, taken, rooms)
    | (taken, (room + 1) :: rooms), bytes =>
      (.success, min (room + 1) bytes.length, taken ++ bytes.take (room + 1), rooms)
  success w bytes hbytes h := by
    have hpos := List.length_pos_of_ne_nil hbytes
    split at h
    · simp [hpos]
    · cases h
    · simp [hpos]
  failure w bytes hbytes h := by split at h <;> simp_all

/-- The source blocks twice, then the sink does after one byte. -/
theorem flow_delivers_partwise :
    ∃ s result t, Pumped partwise roomy ⟨[[1, 2], [3]], ([], [1, 0]), [0, 0, 0, 0], some 0⟩ s ∧
      s.sink.1 = [1] ∧ flow partwise roomy s = some (result, t) ∧ result = .success ∧
        t.sink.1 = [1, 2, 3] := by
  have hfirst : Pumped partwise roomy ⟨[[1, 2], [3]], ([], [1, 0]), [0, 0, 0, 0], some 0⟩
      ⟨[[3]], ([], [1, 0]), [1, 2, 0, 0], some 2⟩ :=
    .call (.refl _) (show flow _ _ _ = some (.block, _) from rfl) (by decide)
  have hsecond := Pumped.call hfirst (show flow _ _ _ = some (.block,
    ⟨[], ([], [1, 0]), [1, 2, 3, 0], some 3⟩) from rfl) (by decide)
  have h := Pumped.call hsecond (show flow _ _ _ = some (.block,
    ⟨[], ([1], []), [2, 3, 3, 0], some 2⟩) from rfl) (by decide)
  obtain ⟨result, t, hflow, hsuccess⟩ := (flow_delivers partwise roomy _ _ _ (by decide) _ h).2
  have hresult : some result = some .success :=
    (congrArg (Option.map Prod.fst) hflow).symm.trans (by decide)
  exact ⟨_, result, t, h, rfl, hflow, Option.some.inj hresult,
    (hsuccess (Option.some.inj hresult)).2⟩

end FlowState

end Libjingle
