import Libjingle.Lib.Reading
import Libjingle.PseudoTcp.Window

/-!
# What `parse`, `process` and `parseOptions` read of a packet

The receive path again, as programs that read the packet behind `buffer`. They return what the
model of the receive path returns (`readPacket_value`), and say which places they read.

* The constructor of `ByteBuffer` copies the option bytes, `WriteOffset` the data that fits.

## Results

* **`packet_reads_iff`**: everything is read inside the packet, and the payload lies inside it,
  just when the packet has fewer than 12 bytes or at least 24. The option loop stops, and stays
  inside the payload.
-/

namespace Libjingle

open Lib

/-- How many bytes `process` drops from the front of the segment. -/
def Incoming.dropped (i : Incoming) (seg : Segment) : Nat :=
  if seg.seq < i.rcvNxt ∧ i.rcvNxt - seg.seq < seg.len then (i.rcvNxt - seg.seq).toNat else 0

namespace PseudoTcp

variable {env : Env} {s : PseudoTcp} {seg : Segment} {i : Incoming} {p : Nat → U8} {n : Nat}

/-! ## The programs -/

/-- `bytes_to_long`. -/
def readLong (offset : Nat) : Reading U8 U32 := do
  return BitVec.ofNat 32 (ofBE (← Reading.block offset 4))

/-- `bytes_to_short`. -/
def readShort (offset : Nat) : Reading U8 U16 := do
  return BitVec.ofNat 16 (ofBE (← Reading.block offset 2))

/-- `parse`: the header of a packet of `size` bytes. The data is read later. -/
def readHeader (size : Nat) : Reading U8 Segment := do
  let conv ← readLong 0
  let seq ← readLong 4
  let ack ← readLong 8
  let flags ← Reading.get 13
  let wnd ← readShort 14
  let tsval ← readLong 16
  let tsecr ← readLong 20
  return {
    conv := conv, seq := seq, ack := ack, flags := flags, wnd := wnd, data := fun _ => 0
    len := BitVec.ofNat 32 size - headerSize, tsval := tsval, tsecr := tsecr }

/-- `process`: control data. -/
def readControl (env : Env) (s : PseudoTcp) (seg : Segment) :
    Reading U8 (PseudoTcp × Option Bool) :=
  if seg.flags &&& flagCtl = 0 then pure (s, some false)
  else if seg.len = 0 then pure (s, none)
  else do
    let code ← Reading.get 24
    if code = ctlConnect then
      let options ← Reading.block 25 (seg.len - 1).toNat
      return s.processControl env { seg with data := fun k => (code :: options).getD k 0 }
    else return (s, none)

/-- `process`: the receive buffer. -/
def readStore (i : Incoming) (bIgnoreData : Bool) (seg : Segment) (sflags : SendFlags) :
    Reading U8 Receipt :=
  let t := i.trimNew (i.trimOld seg)
  if t.len = 0 ∨ bIgnoreData then return i.store bIgnoreData t sflags
  else do
    let copied := (i.rbuf.writeOffset (fun _ => 0) t.len.toNat (t.seq - i.rcvNxt).toNat).2.1
    let data ← Reading.block (24 + i.dropped seg) copied
    return i.store bIgnoreData { t with data := fun k => data.getD k 0 } sflags

/-- `process` from the receive buffer on. -/
def readData (env : Env) (s : PseudoTcp) (seg : Segment) : Reading U8 PseudoTcp := do
  let r ← readStore s.toIncoming (s.ignoresData seg) seg (s.ackFlags seg)
  return ({ s with toIncoming := r.inc }.attemptSend env r.sflags).notifyReadable r.newData

/-- `process` from the timestamp on. -/
def readAcknowledge (env : Env) (s : PseudoTcp) (now : U32) (bConnect : Bool) (seg : Segment) :
    Reading U8 (PseudoTcp × Bool) :=
  match (s.updateTimestamp seg).processAck env now seg with
  | (s, false) => return (s, false)
  | (s, true) => do return (← readData env (s.enterEstablished bConnect).notifyWriteable seg, true)

/-- `process`. -/
def readProcess (env : Env) (s : PseudoTcp) (seg : Segment) : Reading U8 (PseudoTcp × Bool) :=
  if seg.conv ≠ s.conv then return (s, false)
  else
    let now := env.now s.ticks
    let s := s.arrive env
    if s.state = .closed then return (s, false)
    else if seg.flags &&& flagRst ≠ 0 then return (s.closedown .econnreset, false)
    else do
      match ← readControl env s seg with
      | (s, none) => return (s, false)
      | (s, some bConnect) => readAcknowledge env s now bConnect seg

/-- `parse`. -/
def readParse (env : Env) (s : PseudoTcp) (size : Nat) : Reading U8 (PseudoTcp × Bool) :=
  if size < 12 then return (s, false)
  else do readProcess env s (← readHeader size)

/-- `NotifyPacket` of `size` bytes. -/
def readPacket (env : Env) (s : PseudoTcp) (size : Nat) : Reading U8 (PseudoTcp × Bool) :=
  if size > maxPacket.toNat then return (s, false) else readParse env s size

/-- The length of an option at `pos`. `ReadUInt8` past the end fails and leaves it at 0. -/
def readOptLen (size pos : Nat) : Reading U8 U8 :=
  if pos < size then Reading.get pos else pure 0

/-- `parseOptions`' loop over `size` bytes, from `pos` on. -/
def readOptionsLoop (size : Nat) : Nat → PseudoTcp → Nat → List U8 →
    Reading U8 (PseudoTcp × Option (List U8))
  | 0, s, _, seen => return (s, some seen)
  | fuel + 1, s, pos, seen =>
    if size ≤ pos then return (s, some seen)
    else do
      let kind ← Reading.get pos
      if kind = tcpOptEol then return (s, some seen)
      else if kind = tcpOptNoop then readOptionsLoop size fuel s (pos + 1) seen
      else
        let optLen ← readOptLen size (pos + 1)
        let pos := min (pos + 2) size
        if optLen.toNat ≤ size - pos then
          let data ← Reading.block pos optLen.toNat
          readOptionsLoop size fuel (s.applyOption kind data) (pos + optLen.toNat) (kind :: seen)
        else return (s, none)

/-! ## Values -/

theorem value_readLong (offset : Nat) :
    (readLong offset).value p = BitVec.ofNat 32 (ofBE (fetch (fun i => p (offset + i)) 4)) := by
  rw [readLong, Reading.value_bind, Reading.value_pure, Reading.value_block]

theorem value_readHeader (size : Nat) :
    (readHeader size).value p = { parseSegment p size with data := fun _ => 0 } := by
  have hshort :
      (readShort 14).value p = BitVec.ofNat 16 (ofBE (fetch (fun i => p (14 + i)) 2)) := by
    rw [readShort, Reading.value_bind, Reading.value_pure, Reading.value_block]
  have hfirst : (fun i => p (0 + i)) = p := funext fun i => by rw [Nat.zero_add]
  rw [readHeader, parseSegment]
  iterate 7 rw [Reading.value_bind]
  rw [Reading.value_pure, Reading.value_get, hshort]
  iterate 5 rw [value_readLong]
  rw [hfirst]

variable {data : Nat → U8}

/-- Control data is read where `processControl` looks at it. -/
theorem processControl_congr (env : Env) (s : PseudoTcp)
    (h : seg.len ≠ 0 → data 0 = seg.data 0) (hopt : data 0 = ctlConnect → ∀ k,
      k < (seg.len - 1).toNat → data (1 + k) = seg.data (1 + k)) :
    s.processControl env { seg with data := data } = s.processControl env seg := by
  unfold processControl
  simp only
  by_cases hctl : seg.flags &&& flagCtl = 0
  · rw [if_pos hctl, if_pos hctl]
  rw [if_neg hctl, if_neg hctl]
  by_cases hlen : seg.len = 0
  · rw [if_pos hlen, if_pos hlen]
  rw [if_neg hlen, if_neg hlen, h hlen]
  by_cases hcode : seg.data 0 = ctlConnect
  · rw [if_pos hcode, if_pos hcode,
      fetch_congr (p := fun k => data (1 + k)) (hopt ((h hlen).trans hcode))]
  · rw [if_neg hcode, if_neg hcode]

theorem getD_fetch {q : Nat → U8} {k : Nat} (h : k < n) : (fetch q n).getD k 0 = q k := by
  rw [List.getD_eq_getElem?_getD, getElem?_fetch h]
  rfl

theorem value_readControl (hdata : seg.data = fun k => p (24 + k)) (data : Nat → U8) :
    (readControl env s { seg with data := data }).value p = s.processControl env seg := by
  unfold readControl
  simp only
  by_cases hctl : seg.flags &&& flagCtl = 0
  · rw [if_pos hctl]
    unfold processControl
    rw [if_pos hctl]
    rfl
  by_cases hlen : seg.len = 0
  · rw [if_neg hctl, if_pos hlen]
    unfold processControl
    rw [if_neg hctl, if_pos hlen]
    rfl
  have hfirst : seg.data 0 = p 24 := by rw [hdata]
  rw [if_neg hctl, if_neg hlen, Reading.value_bind, Reading.value_get]
  by_cases hcode : p 24 = ctlConnect
  · rw [if_pos hcode, Reading.value_bind, Reading.value_pure]
    refine processControl_congr env s (fun _ => hfirst.symm) fun _ k hk => ?_
    rw [Nat.add_comm, List.getD_cons_succ, Reading.value_block, getD_fetch hk, hdata]
    show p (25 + k) = p (24 + (k + 1))
    congr 1
    omega
  · rw [if_neg hcode, Reading.value_pure]
    unfold processControl
    rw [if_neg hctl, if_neg hlen, hfirst, if_neg hcode]

/-- `WriteOffset` copies as much whatever the bytes are, and looks at no more. -/
theorem writeOffset_congr {b : FifoBuffer (2 ^ 32)} {src src' : Nat → U8} {bytes offset : Nat}
    (h : ∀ k < (b.writeOffset src bytes offset).2.1, src' k = src k) :
    b.writeOffset src' bytes offset = b.writeOffset src bytes offset := by
  unfold FifoBuffer.writeOffset FifoBuffer.writeOffsetLocked at h ⊢
  split
  · rfl
  rename_i hopen
  rw [if_neg hopen] at h
  split
  · rfl
  rename_i hfits
  rw [if_neg hfits] at h
  simp only at h ⊢
  rw [ringStore_congr h]

theorem writeOffset_count (b : FifoBuffer (2 ^ 32)) (src src' : Nat → U8) (bytes offset : Nat) :
    (b.writeOffset src' bytes offset).2.1 = (b.writeOffset src bytes offset).2.1 := by
  unfold FifoBuffer.writeOffset FifoBuffer.writeOffsetLocked
  split
  · rfl
  split
  · rfl
  · rfl

theorem trimOld_data (i : Incoming) (seg : Segment) (data : Nat → U8) :
    i.trimOld { seg with data := data } =
      { i.trimOld seg with data := fun k => data (i.dropped seg + k) } := by
  unfold Incoming.trimOld Incoming.dropped
  by_cases hold : seg.seq < i.rcvNxt
  · by_cases hpart : i.rcvNxt - seg.seq < seg.len
    · simp only [hold, hpart, and_self, if_true]
    · simp only [hold, hpart, and_false, if_true, if_false, Nat.zero_add]
  · simp only [hold, false_and, if_false, Nat.zero_add]

theorem trimNew_data (i : Incoming) (seg : Segment) (data : Nat → U8) :
    i.trimNew { seg with data := data } = { i.trimNew seg with data := data } := by
  unfold Incoming.trimNew
  simp only
  split
  · split <;> rfl
  · rfl

theorem trimNew_len (i : Incoming) (seg : Segment) : (i.trimNew seg).len ≤ seg.len := by
  unfold Incoming.trimNew
  simp only
  split
  · split
    · rename_i hpart
      generalize seg.seq + seg.len - i.rcvNxt - BitVec.ofNat 32 i.rbuf.getWriteRemaining = nAdjust
        at hpart ⊢
      simp only
      bv_omega
    · simp only
      bv_omega
  · exact BitVec.le_refl _

theorem trim_data (i : Incoming) (seg : Segment) (data : Nat → U8) :
    i.trimNew (i.trimOld { seg with data := data }) =
      { i.trimNew (i.trimOld seg) with data := fun k => data (i.dropped seg + k) } := by
  rw [trimOld_data, trimNew_data]

theorem trim_len (i : Incoming) (seg : Segment) :
    i.dropped seg + (i.trimNew (i.trimOld seg)).len.toNat ≤ seg.len.toNat ∨
      (i.trimNew (i.trimOld seg)).len = 0 := by
  have hnew := trimNew_len i (i.trimOld seg)
  generalize (i.trimNew (i.trimOld seg)).len = len at hnew ⊢
  unfold Incoming.trimOld at hnew
  unfold Incoming.dropped
  by_cases hold : seg.seq < i.rcvNxt
  · by_cases hpart : i.rcvNxt - seg.seq < seg.len
    · simp only [hold, hpart, and_self, if_true] at hnew ⊢
      exact .inl (by bv_omega)
    · simp only [hold, hpart, if_true, if_false] at hnew
      exact .inr (by bv_omega)
  · simp only [hold, false_and, if_false] at hnew ⊢
    exact .inl (by bv_omega)

/-- `store` looks at what `WriteOffset` copies. -/
theorem store_congr {t : Segment} (bIgnoreData : Bool) (sflags : SendFlags)
    (h : ¬ (t.len = 0 ∨ bIgnoreData = true) → ∀ k,
      k < (i.rbuf.writeOffset t.data t.len.toNat (t.seq - i.rcvNxt).toNat).2.1 →
        data k = t.data k) :
    i.store bIgnoreData { t with data := data } sflags = i.store bIgnoreData t sflags := by
  unfold Incoming.store
  simp only
  by_cases hlen : t.len = 0
  · rw [if_pos hlen, if_pos hlen]
  rw [if_neg hlen, if_neg hlen]
  cases bIgnoreData with
  | true => rfl
  | false =>
    rw [writeOffset_congr (h fun hor => hor.elim hlen Bool.false_ne_true)]

theorem value_readStore (hdata : seg.data = fun k => p (24 + k)) (data : Nat → U8)
    (bIgnoreData : Bool) (sflags : SendFlags) :
    (readStore i bIgnoreData { seg with data := data } sflags).value p =
      i.receive bIgnoreData seg sflags := by
  have hseg : i.trimNew (i.trimOld seg) =
      { i.trimNew (i.trimOld seg) with data := fun k => p (24 + (i.dropped seg + k)) } := by
    refine (trim_data i seg seg.data).trans ?_
    rw [hdata]
  unfold readStore Incoming.receive
  rw [trim_data, hseg]
  generalize i.trimNew (i.trimOld seg) = t
  simp only
  by_cases hstored : t.len = 0 ∨ bIgnoreData = true
  · rw [if_pos hstored, Reading.value_pure]
    exact store_congr (t := { t with data := fun k => p (24 + (i.dropped seg + k)) }) bIgnoreData
      sflags fun hne => absurd hstored hne
  rw [if_neg hstored, Reading.value_bind, Reading.value_pure]
  refine store_congr (t := { t with data := fun k => p (24 + (i.dropped seg + k)) }) bIgnoreData
    sflags fun _ k hk => ?_
  simp only at hk ⊢
  rw [writeOffset_count _ (fun _ => 0)] at hk
  rw [Reading.value_block, getD_fetch hk]
  show p (24 + i.dropped seg + k) = p (24 + (i.dropped seg + k))
  rw [Nat.add_assoc]

theorem value_readData (hdata : seg.data = fun k => p (24 + k)) (data : Nat → U8) :
    (readData env s { seg with data := data }).value p = s.processData env seg := by
  rw [readData, Reading.value_bind, Reading.value_pure]
  have hstore := value_readStore (i := s.toIncoming) hdata data (s.ignoresData seg) (s.ackFlags seg)
  unfold processData
  rw [← hstore]
  rfl

theorem value_readAcknowledge (hdata : seg.data = fun k => p (24 + k)) (data : Nat → U8)
    (now : U32) (bConnect : Bool) :
    (readAcknowledge env s now bConnect { seg with data := data }).value p =
      s.acknowledge env now bConnect seg := by
  unfold readAcknowledge acknowledge
  have hack : (s.updateTimestamp { seg with data := data }).processAck env now
      { seg with data := data } = (s.updateTimestamp seg).processAck env now seg := rfl
  rw [hack]
  generalize (s.updateTimestamp seg).processAck env now seg = q
  obtain ⟨s₁, ok⟩ := q
  cases ok with
  | false => rfl
  | true =>
    simp only
    rw [Reading.value_bind, Reading.value_pure, value_readData hdata data]

theorem value_readProcess (hdata : seg.data = fun k => p (24 + k)) (data : Nat → U8) :
    (readProcess env s { seg with data := data }).value p = s.process env seg := by
  unfold readProcess process
  simp only
  split
  · rfl
  split
  · rfl
  split
  · rfl
  rw [Reading.value_bind, value_readControl hdata data]
  generalize (s.arrive env).processControl env seg = q
  obtain ⟨s₁, result⟩ := q
  cases result with
  | none => rfl
  | some bConnect => exact value_readAcknowledge hdata data _ bConnect

/-- The memory from `buffer` on. -/
def packetMemory (env : Env) (buffer : List U8) : Nat → U8 := fun i => buffer[i]?.getD (env.mem i)

/-- **The programs return what the model does.** -/
theorem readPacket_value (env : Env) (s : PseudoTcp) (buffer : List U8) :
    (readPacket env s buffer.length).value (packetMemory env buffer) =
      s.notifyPacket env buffer := by
  unfold readPacket notifyPacket
  split
  · rfl
  unfold readParse parse
  split
  · rfl
  rw [Reading.value_bind, value_readHeader]
  exact value_readProcess rfl _

/-! ## Places -/

theorem readHeader_reads (size : Nat) : (readHeader size).reads p =
    [0, 1, 2, 3, 4, 5, 6, 7, 8, 9, 10, 11, 13, 14, 15, 16, 17, 18, 19, 20, 21, 22, 23] := rfl

theorem readControl_within (hlen : 24 + seg.len.toNat ≤ n) :
    (readControl env s seg).Within p n := by
  unfold readControl
  split
  · exact .pure _
  split
  · exact .pure _
  rename_i hne
  have hpos : (seg.len - 1).toNat + 1 = seg.len.toNat := by bv_omega
  refine .bind (.get (by omega)) ?_
  split
  · exact .bind (.block (by omega)) (.pure _)
  · exact .pure _

theorem writeOffset_le (b : FifoBuffer (2 ^ 32)) (src : Nat → U8) (bytes offset : Nat) :
    (b.writeOffset src bytes offset).2.1 ≤ bytes := by
  unfold FifoBuffer.writeOffset FifoBuffer.writeOffsetLocked
  split
  · exact Nat.zero_le _
  split
  · exact Nat.zero_le _
  · exact Nat.min_le_left _ _

theorem readStore_within (hlen : 24 + seg.len.toNat ≤ n) (bIgnoreData : Bool)
    (sflags : SendFlags) : (readStore i bIgnoreData seg sflags).Within p n := by
  unfold readStore
  simp only
  split
  · exact .pure _
  rename_i hstored
  refine .bind (.block ?_) (.pure _)
  have hinside := (trim_len i seg).resolve_right fun hzero => hstored (.inl hzero)
  have hcopied := writeOffset_le i.rbuf (fun _ => 0) (i.trimNew (i.trimOld seg)).len.toNat
    ((i.trimNew (i.trimOld seg)).seq - i.rcvNxt).toNat
  omega

theorem readProcess_within (hlen : 24 + seg.len.toNat ≤ n) :
    (readProcess env s seg).Within p n := by
  unfold readProcess
  split
  · exact .pure _
  simp only
  split
  · exact .pure _
  split
  · exact .pure _
  refine .bind (readControl_within hlen) ?_
  split
  · exact .pure _
  · unfold readAcknowledge
    split
    · exact .pure _
    · exact .bind (.bind (readStore_within hlen _ _) (.pure _)) (.pure _)

/-! ## The option loop -/

/-- `payload` is what is behind the pointer. -/
def Holds (p : Nat → U8) (payload : List U8) : Prop :=
  ∀ k, k < payload.length → payload[k]? = some (p k)

variable {payload : List U8}

theorem Holds.drop (hp : Holds p payload) {pos : Nat} (h : pos < payload.length) :
    payload.drop pos = p pos :: payload.drop (pos + 1) := by
  rw [List.drop_eq_getElem_cons h]
  congr 1
  have hget := hp pos h
  rw [List.getElem?_eq_getElem h] at hget
  exact Option.some.inj hget

theorem Holds.block (hp : Holds p payload) {pos k : Nat} (h : pos + k ≤ payload.length) :
    fetch (fun j => p (pos + j)) k = (payload.drop pos).take k := by
  refine List.ext_getElem? fun j => ?_
  rw [List.getElem?_take, List.getElem?_drop]
  split
  · rename_i hj
    rw [getElem?_fetch hj, hp _ (by omega)]
  · rename_i hj
    rw [List.getElem?_eq_none (by rw [fetch_length]; omega)]

theorem value_readOptLen (hp : Holds p payload) (pos : Nat) :
    (readOptLen payload.length pos).value p = (payload.drop pos).headD 0 := by
  unfold readOptLen
  split
  · rename_i h
    rw [hp.drop h]
    rfl
  · rename_i h
    rw [List.drop_eq_nil_of_le (by omega)]
    rfl

/-- **The loop over the copy of the option bytes** does what the model's loop does with what is left
of them. -/
theorem value_readOptionsLoop (hp : Holds p payload) : ∀ (fuel : Nat) (s : PseudoTcp) (pos : Nat)
    (seen : List U8), (readOptionsLoop payload.length fuel s pos seen).value p =
      parseOptionsLoop fuel s (payload.drop pos) seen
  | 0, _, _, _ => rfl
  | fuel + 1, s, pos, seen => by
    unfold readOptionsLoop
    by_cases hend : payload.length ≤ pos
    · rw [if_pos hend, List.drop_eq_nil_of_le hend]
      rfl
    have hpos : pos < payload.length := by omega
    rw [if_neg hend, Reading.value_bind, Reading.value_get, hp.drop hpos]
    unfold parseOptionsLoop
    by_cases heol : p pos = tcpOptEol
    · rw [if_pos heol, if_pos heol]
      rfl
    rw [if_neg heol, if_neg heol]
    by_cases hnoop : p pos = tcpOptNoop
    · rw [if_pos hnoop, if_pos hnoop]
      exact value_readOptionsLoop hp fuel s (pos + 1) seen
    rw [if_neg hnoop, if_neg hnoop, Reading.value_bind, value_readOptLen hp]
    simp only [List.tail_drop]
    generalize (payload.drop (pos + 1)).headD 0 = optLen
    have hrest : payload.drop (pos + 1 + 1) = payload.drop (min (pos + 2) payload.length) := by
      by_cases hfits : pos + 2 ≤ payload.length
      · rw [Nat.min_eq_left hfits]
      · rw [Nat.min_eq_right (by omega), List.drop_eq_nil_of_le (by omega), List.drop_length]
    rw [hrest, List.length_drop]
    by_cases hlen : optLen.toNat ≤ payload.length - min (pos + 2) payload.length
    · rw [if_pos hlen, if_pos hlen, Reading.value_bind, Reading.value_block, hp.block (by omega),
        List.drop_drop]
      exact value_readOptionsLoop hp fuel _ _ _
    · rw [if_neg hlen, if_neg hlen]
      rfl

/-- **The loop reads inside the payload.** -/
theorem readOptionsLoop_within (size : Nat) : ∀ (fuel : Nat) (s : PseudoTcp) (pos : Nat)
    (seen : List U8), (readOptionsLoop size fuel s pos seen).Within p size
  | 0, _, _, _ => .pure _
  | fuel + 1, s, pos, seen => by
    unfold readOptionsLoop
    split
    · exact .pure _
    rename_i hend
    refine .bind (.get (by omega)) ?_
    split
    · exact .pure _
    split
    · exact readOptionsLoop_within size fuel _ _ _
    refine .bind ?_ ?_
    · unfold readOptLen
      split
      · rename_i hmore
        exact .get hmore
      · exact .pure _
    simp only
    split
    · rename_i hlen
      exact .bind (.block (by omega)) (readOptionsLoop_within size fuel _ _ _)
    · exact .pure _

/-- **The loop stops**: one round more than there are bytes left changes nothing. -/
theorem parseOptionsLoop_stable : ∀ (fuel : Nat) (s : PseudoTcp) (buf seen : List U8),
    buf.length ≤ fuel → parseOptionsLoop (fuel + 1) s buf seen = parseOptionsLoop fuel s buf seen
  | 0, s, buf, seen, h => by
    obtain rfl := List.length_eq_zero_iff.mp (Nat.le_zero.mp h)
    rfl
  | fuel + 1, s, [], seen, _ => rfl
  | fuel + 1, s, kind :: buf, seen, h => by
    rw [List.length_cons] at h
    rw [parseOptionsLoop, parseOptionsLoop]
    split
    · rfl
    split
    · exact parseOptionsLoop_stable fuel s buf seen (by omega)
    simp only
    split
    · refine parseOptionsLoop_stable fuel _ _ _ ?_
      rw [List.length_drop, List.length_tail]
      omega
    · rfl

theorem parseOptionsLoop_rounds (s : PseudoTcp) (buf seen : List U8) (extra : Nat) :
    parseOptionsLoop (buf.length + extra) s buf seen = parseOptionsLoop buf.length s buf seen := by
  induction extra with
  | zero => rfl
  | succ extra ih =>
    rw [← ih, ← Nat.add_assoc]
    exact parseOptionsLoop_stable _ s buf seen (by omega)

/-! ## Packets -/

/-- The loop over the option bytes behind `p` ends within as many rounds as there are bytes, and
reads only these. -/
def OptionsInside (p : Nat → U8) (options : List U8) : Prop := ∀ t : PseudoTcp, ∃ result,
  (∀ extra, parseOptionsLoop (options.length + extra) t options [] = result) ∧
    (readOptionsLoop options.length options.length t 0 []).value p = result ∧
    (readOptionsLoop options.length options.length t 0 []).Within p options.length

theorem Holds.inside (hp : Holds p payload) : OptionsInside p payload := fun t =>
  ⟨parseOptionsLoop payload.length t payload [], parseOptionsLoop_rounds t payload [],
    by rw [value_readOptionsLoop hp, List.drop_zero], readOptionsLoop_within _ _ _ _ _⟩

/-- `NotifyPacket` stays inside the packet: whatever is read is inside; so is the payload, when
`process` is entered; and the loop over its options stops and stays inside them. -/
structure ParsesInside (env : Env) (s : PseudoTcp) (buffer : List U8) : Prop where
  reads : (readPacket env s buffer.length).Within (packetMemory env buffer) buffer.length
  payload : Arrives buffer → headerSize.toNat + (wire env buffer).len.toNat ≤ buffer.length
  options : OptionsInside (fun k => packetMemory env buffer (25 + k))
    (optionBytes (wire env buffer))

theorem optionBytes_holds (env : Env) (buffer : List U8) :
    Holds (fun k => packetMemory env buffer (25 + k)) (optionBytes (wire env buffer)) := by
  intro k hk
  unfold optionBytes at hk ⊢
  rw [fetch_length] at hk
  rw [getElem?_fetch hk]
  show some (packetMemory env buffer (24 + (1 + k))) = _
  rw [← Nat.add_assoc]

/-- **Reads stay inside the packet** just when it has fewer than 12 bytes, so that `parse` rejects
it, or the 24 bytes that `parse` reads. -/
theorem packet_reads_iff (env : Env) (s : PseudoTcp) (buffer : List U8) :
    ParsesInside env s buffer ↔ buffer.length < 12 ∨ headerSize.toNat ≤ buffer.length := by
  have hheader : headerSize.toNat = 24 := rfl
  have hmax : maxPacket.toNat = 65535 := rfl
  constructor
  · intro h
    by_contra hbetween
    rw [not_or] at hbetween
    have hreads := h.reads
    unfold readPacket readParse at hreads
    rw [if_neg (by omega), if_neg hbetween.1] at hreads
    have hlast := (Reading.within_bind.mp hreads).1 23 (by rw [readHeader_reads]; decide)
    omega
  intro h
  refine ⟨?_, fun ha => ?_, (optionBytes_holds env buffer).inside⟩
  · unfold readPacket
    split
    · exact .pure _
    unfold readParse
    split
    · exact .pure _
    refine .bind (fun k hk => ?_) ?_
    · rw [readHeader_reads] at hk
      have hall : ∀ k ∈ [0, 1, 2, 3, 4, 5, 6, 7, 8, 9, 10, 11, 13, 14, 15, 16, 17, 18, 19, 20, 21,
          22, 23], k < 24 := by decide
      have := hall k hk
      omega
    · refine readProcess_within ?_
      rw [value_readHeader]
      show 24 + (BitVec.ofNat 32 buffer.length - headerSize).toNat ≤ buffer.length
      unfold headerSize
      bv_omega
  · show headerSize.toNat + (BitVec.ofNat 32 buffer.length - headerSize).toNat ≤ buffer.length
    have hlo := ha.1
    have hhi := ha.2
    unfold headerSize
    bv_omega

theorem short_packet_read : ¬ ParsesInside (still 1) connecting (List.replicate 12 0) ∧
    (wire (still 1) (List.replicate 12 0)).len = 4294967284 := by
  refine ⟨fun h => ?_, by decide⟩
  have hread := (Reading.within_bind.mp h.reads).1 23 (by rw [readHeader_reads]; decide)
  exact absurd hread (by decide)

end PseudoTcp

end Libjingle
