import Libjingle.Media.RtpDump

/-!
# Reading dump files (`media/base/rtpdump.cc`)

## Results

* `readPacket_robust_iff`: a call is robust exactly if the length does not fall below that of the
  header it counts.
* `written_read_back`: what is written is read back and then the file ends, and of a file that is
  cut anywhere a prefix is read.
-/

namespace Libjingle.RtpDump

open Lib Rtp Reading

namespace RtpDumpPacket

/-- The header of a packet in a file. -/
def header (packet : RtpDumpPacket) : List U8 :=
  ByteBuffer.writeUInt16 (BitVec.ofNat 16 (kHeaderLength + packet.data.length)) ++
    ByteBuffer.writeUInt16 (BitVec.ofNat 16 packet.originalDataLen) ++
    ByteBuffer.writeUInt32 packet.elapsedTime

/-- A packet in a file. `withSsrc` is what is read of it after `SetSsrc`. -/
def encode (packet : RtpDumpPacket) : List U8 := packet.header ++ packet.data

/-- The lengths of a packet fit their fields. -/
structure Fits (packet : RtpDumpPacket) : Prop where
  data_le : packet.data.length ≤ 65527
  original_lt : packet.originalDataLen < 2 ^ 16

/-- A packet as a reader gives it that has been told an ssrc. -/
def withSsrc (ssrc : U32) (packet : RtpDumpPacket) : RtpDumpPacket :=
  if packet.isValidRtpPacket = true ∧ ssrc ≠ 0 then
    { packet with data := Checked.overwrite packet.data kRtpSsrcOffset (toBE 4 ssrc.toNat) }
  else packet

theorem withSsrc_zero (packet : RtpDumpPacket) : packet.withSsrc 0 = packet :=
  if_neg fun h => h.2 rfl

end RtpDumpPacket

namespace RtpDumpReader

variable {σ : Type} {S : InputStream σ}

/-! ## Any bytes -/

theorem resize_length (data : List U8) (n : Nat) : (resize data n).length = n := by
  rw [resize, List.length_append, List.length_take, List.length_replicate]
  omega

theorem size_of_lt {n : Nat} (hn : n < RtpDumpPacket.kHeaderLength) :
    maxSize < sizeSub n RtpDumpPacket.kHeaderLength := by
  rw [sizeSub_of_lt hn]
  have hle : RtpDumpPacket.kHeaderLength - n ≤ 8 := Nat.sub_le _ _
  rw [maxSize]
  omega

theorem readBody_of_lt {reader : RtpDumpReader} {s : σ} {packet : RtpDumpPacket}
    {header : ReadReply σ} (hheader : S.readAll s RtpDumpPacket.kHeaderLength = header)
    (hsuccess : header.result = .success)
    (hlt : (BitVec.ofNat 16 (ofBE (header.bytes.take 2))).toNat < RtpDumpPacket.kHeaderLength) :
    (readBody S reader s packet).returned = .error .lengthError := by
  rw [readBody, hheader]
  dsimp only
  rw [if_neg (not_not.mpr hsuccess), if_pos (size_of_lt hlt)]

/-- **A packet whose length covers its header** is resized to what is left, and read. -/
theorem readBody_of_le (reader : RtpDumpReader) {s : σ} (packet : RtpDumpPacket) {len : U16}
    {n : Nat} {header body : ReadReply σ}
    (hheader : S.readAll s RtpDumpPacket.kHeaderLength = header)
    (hsuccess : header.result = .success)
    (hlen : BitVec.ofNat 16 (ofBE (header.bytes.take 2)) = len)
    (hn : len.toNat = RtpDumpPacket.kHeaderLength + n) (hbody : S.readAll header.next n = body) :
    ∃ packet', readBody S reader s packet =
        ⟨some len, some n, .ok (body.result, packet', reader, body.next)⟩ ∧
      packet'.data.length = n ∧
      (body.result = .success → packet' = RtpDumpPacket.withSsrc reader.ssrcOverride
        ⟨BitVec.ofNat 32 (ofBE ((header.bytes.drop 4).take 4)), body.bytes,
          ofBE ((header.bytes.drop 2).take 2)⟩) := by
  have hsize : sizeSub len.toNat RtpDumpPacket.kHeaderLength = n := by
    rw [sizeSub_of_le (by omega), hn, Nat.add_sub_cancel_left]
  have hmax : ¬ n > maxSize := by
    have hlt := len.isLt
    unfold maxSize
    omega
  have hbytes : body.bytes.length ≤ n := by
    rw [← hbody]
    exact InputStream.readAll_length_le _ _
  have hresize := resize_length packet.data n
  have hfits : 0 + body.bytes.length ≤ (resize packet.data n).length := by
    rw [hresize, Nat.zero_add]
    exact hbytes
  have hread := Checked.writeAll_eq hfits
  have hdata := Checked.overwrite_length hfits
  have hall : body.result = .success →
      Checked.overwrite (resize packet.data n) 0 body.bytes = body.bytes := by
    intro h
    have hlength : body.bytes.length = n := by
      rw [← hbody] at h ⊢
      exact InputStream.readAll_success h
    rw [Checked.overwrite, List.take_zero, List.nil_append,
      List.drop_eq_nil_of_le (by rw [hresize]; omega), List.append_nil]
  rw [readBody, hheader]
  dsimp only
  rw [if_neg (not_not.mpr hsuccess), hlen, hsize, if_neg hmax, hbody, hread]
  dsimp only
  split
  · rename_i hoverride
    obtain ⟨hsuccess', hvalid, hssrc⟩ := hoverride
    have hmin : kRtpSsrcOffset + (toBE 4 reader.ssrcOverride.toNat).length ≤
        (Checked.overwrite (resize packet.data n) 0 body.bytes).length := by
      have hvalid' := hvalid
      rw [RtpDumpPacket.isValidRtpPacket, Bool.and_eq_true, decide_eq_true_eq,
        decide_eq_true_eq] at hvalid'
      rw [toBE_length]
      exact Nat.le_trans (by decide) hvalid'.2
    rw [setUint, Checked.writeAll_eq hmin]
    refine ⟨_, rfl, ?_, fun _ => ?_⟩
    · dsimp only
      rw [Checked.overwrite_length hmin, hdata, hresize]
    · rw [hall hsuccess'] at hvalid ⊢
      rw [RtpDumpPacket.withSsrc, if_pos ⟨hvalid, hssrc⟩]
  · rename_i hoverride
    refine ⟨_, rfl, hdata.trans hresize, fun hsuccess' => ?_⟩
    rw [hall hsuccess'] at hoverride ⊢
    rw [RtpDumpPacket.withSsrc, if_neg fun h => hoverride ⟨hsuccess', h⟩]

/-- The length in the packet header that a call comes to: `dump_packet_len`. -/
def recordedLen (S : InputStream σ) (reader : RtpDumpReader) (s : σ) : Option U16 :=
  let (res, _, s) := openFile S reader s
  let header := S.readAll s RtpDumpPacket.kHeaderLength
  if res = .success ∧ header.result = .success then
    some (BitVec.ofNat 16 (ofBE (header.bytes.take 2)))
  else none

/-- The packet is resized to at most 65535 bytes and accessed inside its data, the call returns, and
a success has the data that the length in the header announces. -/
structure Robust (call : Call σ) : Prop where
  resized_le : ∀ n, call.resized = some n → n ≤ 65535
  returns : ∃ result packet reader s, call.returned = .ok (result, packet, reader, s) ∧
    packet.GettersWithin ∧ (result = .success → ∃ len, call.dumpPacketLen = some len ∧
      packet.data.length + RtpDumpPacket.kHeaderLength = len.toNat)

theorem Robust.of_failure {result : StreamResult} (h : result ≠ .success) (packet : RtpDumpPacket)
    (reader : RtpDumpReader) (s : σ) :
    Robust (⟨none, none, .ok (result, packet, reader, s)⟩ : Call σ) where
  resized_le _ h := nomatch h
  returns := ⟨_, _, _, _, rfl, packet.gettersWithin, fun hsuccess => absurd hsuccess h⟩

/-- **A call of `ReadPacket` is robust exactly if the length that it finds covers the header.** With
a length of eight the packet is empty, and nothing is read behind `&data[0]`. -/
theorem readPacket_robust_iff (S : InputStream σ) (reader : RtpDumpReader) (s : σ)
    (packet : RtpDumpPacket) : Robust (readPacket S reader s packet) ↔
      ∀ len, recordedLen S reader s = some len → RtpDumpPacket.kHeaderLength ≤ len.toNat := by
  obtain ⟨res, reader', s', hopen⟩ : ∃ res reader' s', openFile S reader s = (res, reader', s') :=
    ⟨_, _, _, rfl⟩
  generalize hheader : S.readAll s' RtpDumpPacket.kHeaderLength = header
  have hlen : recordedLen S reader s = if res = .success ∧ header.result = .success then
      some (BitVec.ofNat 16 (ofBE (header.bytes.take 2))) else none := by
    rw [recordedLen, hopen]
    dsimp only
    rw [hheader]
  rw [readPacket, hopen, hlen]
  dsimp only
  by_cases hres : res = .success
  · by_cases hsuccess : header.result = .success
    · rw [if_neg (not_not.mpr hres), if_pos ⟨hres, hsuccess⟩]
      constructor
      · intro hrobust len hsome
        obtain ⟨result, packet', reader'', s'', hreturned, -⟩ := hrobust.returns
        by_contra hlt
        have hlength : (readBody S reader' s' packet).returned = .error .lengthError := by
          refine readBody_of_lt hheader hsuccess ?_
          rw [Option.some.inj hsome]
          exact Nat.lt_of_not_le hlt
        rw [hlength] at hreturned
        cases hreturned
      · intro hcovers
        have hle := hcovers _ rfl
        obtain ⟨packet', hbody, hdata, -⟩ := readBody_of_le reader' packet hheader hsuccess rfl
          (Nat.add_sub_cancel' hle).symm rfl
        rw [hbody]
        refine ⟨fun n hn => ?_, _, _, _, _, rfl, RtpDumpPacket.gettersWithin _,
          fun _ => ⟨_, rfl, ?_⟩⟩
        · have hlt := (BitVec.ofNat 16 (ofBE (header.bytes.take 2))).isLt
          obtain rfl := Option.some.inj hn
          omega
        · rw [hdata]
          exact Nat.sub_add_cancel hle
    · rw [if_neg (not_not.mpr hres), if_neg fun h => hsuccess h.2]
      refine iff_of_true ?_ fun _ h => nomatch h
      rw [readBody, hheader]
      dsimp only
      rw [if_pos hsuccess]
      exact .of_failure hsuccess _ _ _
  · rw [if_pos hres, if_neg fun h => hres h.1]
    exact iff_of_true (.of_failure hres _ _ _) fun _ h => nomatch h

/-! ## The front of a file -/

/-- The first line without its end. -/
def firstLine : List U8 := ascii "#!rtpplay1.0 0.0.0.0/0"

theorem kFirstLine_eq : kFirstLine = firstLine ++ [InputStream.newline] := by decide +kernel

theorem newline_notMem : InputStream.newline ∉ firstLine := by decide +kernel

theorem checkFirstLine_firstLine : checkFirstLine firstLine = true := by decide +kernel

variable {F : FileStream σ}

/-- **The front of a file is read once**, and what is behind it is left. -/
theorem openFile_front {reader : RtpDumpReader} {s : σ} {line header rest : List U8}
    (hunread : reader.fileHeaderRead = false) (hline : InputStream.newline ∉ line)
    (hcheck : checkFirstLine line = true) (hheader : header.length = 16)
    (hs : F.rest s = line ++ InputStream.newline :: (header ++ rest)) :
    ∃ reader' s', openFile F.toInputStream reader s = (.success, reader', s') ∧
      reader'.fileHeaderRead = true ∧ reader'.ssrcOverride = reader.ssrcOverride ∧
      reader'.firstLineAndFileHeaderLen = line.length + 1 + 16 ∧ F.rest s' = rest := by
  obtain ⟨s₁, hread₁, hrest₁⟩ := FileStream.readLine_newline hline hs
  obtain ⟨s₂, hread₂, hrest₂⟩ := FileStream.readAll_append hrest₁
  rw [hheader] at hread₂
  have hfile : readFileHeader F.toInputStream reader s = (.success,
      { reader with
        startTimeMs := startTime header
        firstLineAndFileHeaderLen := line.length + 1 + 16 }, s₂) := by
    rw [readFileHeader, hread₁]
    dsimp only
    rw [if_neg (by decide), if_neg (by rw [hcheck]; decide), hread₂]
    rfl
  refine ⟨{ fileHeaderRead := true
            firstLineAndFileHeaderLen := line.length + 1 + 16
            startTimeMs := startTime header
            ssrcOverride := reader.ssrcOverride }, s₂, ?_, rfl, rfl, rfl, hrest₂⟩
  rw [openFile, if_neg (by rw [hunread]; decide), hfile]
  rfl

/-- The front that `RtpDumpWriter` writes. -/
theorem openFile_written {reader : RtpDumpReader} {s : σ} {header rest : List U8}
    (hunread : reader.fileHeaderRead = false) (hheader : header.length = 16)
    (hs : F.rest s = kFirstLine ++ (header ++ rest)) :
    ∃ reader' s', openFile F.toInputStream reader s = (.success, reader', s') ∧
      reader'.fileHeaderRead = true ∧ reader'.ssrcOverride = reader.ssrcOverride ∧
      F.rest s' = rest := by
  rw [kFirstLine_eq, List.append_assoc] at hs
  obtain ⟨reader', s', hopen, hread, hssrc, -, hrest⟩ :=
    openFile_front hunread newline_notMem checkFirstLine_firstLine hheader hs
  exact ⟨reader', s', hopen, hread, hssrc, hrest⟩

theorem openFile_again {reader : RtpDumpReader} (s : σ) (hread : reader.fileHeaderRead = true) :
    openFile F.toInputStream reader s = (.success, reader, s) := by
  rw [openFile, if_pos hread]

theorem openFile_empty (reader : RtpDumpReader) {s : σ} (hunread : reader.fileHeaderRead = false)
    (hs : F.rest s = []) : (openFile F.toInputStream reader s).1 = .eos := by
  obtain ⟨s', hline, -⟩ := FileStream.readLine_end (S := F) (s := s) (by rw [hs]; simp)
  rw [hs, if_neg (by simp)] at hline
  have hfile : readFileHeader F.toInputStream reader s = (.eos, reader, s') := by
    rw [readFileHeader, hline]
    exact if_pos StreamResult.noConfusion
  rw [openFile, if_neg (by rw [hunread]; decide), hfile]
  rfl

theorem openFile_cut {reader : RtpDumpReader} {s : σ} {header : List U8}
    (hunread : reader.fileHeaderRead = false) (hs : F.rest s <+: kFirstLine ++ header)
    (hcut : (F.rest s).length < kFirstLine.length + 16) :
    (openFile F.toInputStream reader s).1 ≠ .success := by
  have hfile : ∀ {line : ReadReply σ} (_ : F.readLine s = line) (_ : line.result = .success →
      (F.rest line.next).length < 16), (readFileHeader F.toInputStream reader s).1 ≠ .success := by
    intro line hline hshort
    rw [readFileHeader, hline]
    dsimp only
    split
    · assumption
    · rename_i hsuccess
      split
      · exact StreamResult.noConfusion
      · have heos := FileStream.readAll_short (hshort (not_not.mp hsuccess))
        rw [heos, if_pos (by decide)]
        exact StreamResult.noConfusion
  have hclosed : (readFileHeader F.toInputStream reader s).1 ≠ .success := by
    rw [kFirstLine_eq] at hs hcut
    rcases Nat.lt_or_ge firstLine.length (F.rest s).length with hlt | hge
    · -- the whole line is there, and less than the header
      have hfront : firstLine ++ [InputStream.newline] <+: F.rest s :=
        List.prefix_of_prefix_length_le (List.prefix_append _ _) hs
          (by rw [List.length_append]; exact hlt)
      obtain ⟨rest, hrest⟩ := hfront
      rw [List.append_assoc] at hrest
      obtain ⟨s', hread, hrest'⟩ := FileStream.readLine_newline newline_notMem hrest.symm
      refine hfile hread fun _ => ?_
      have hlen : F.rest s' = rest := hrest'
      rw [← hrest, ← List.append_assoc, List.length_append] at hcut
      rw [hlen]
      omega
    · have hfront : F.rest s <+: firstLine := by
        rw [List.append_assoc] at hs
        exact List.prefix_of_prefix_length_le hs (List.prefix_append _ _) hge
      obtain ⟨s', hread, hrest⟩ := FileStream.readLine_end (S := F) (s := s) fun h =>
        newline_notMem (hfront.subset h)
      refine hfile hread fun _ => ?_
      rw [hrest]
      decide
  rw [openFile, if_neg (by rw [hunread]; decide)]
  dsimp only
  rw [if_pos hclosed]
  exact hclosed

theorem fileHeader_length (header : RtpDumpFileHeader) :
    header.writeToByteBuffer.length = 16 := by
  simp [RtpDumpFileHeader.writeToByteBuffer, ByteBuffer.writeUInt32, ByteBuffer.writeUInt16]

/-- A file whose first packet has seven bytes, with its header of eight. -/
def shortDump : List U8 :=
  kFirstLine ++ ((RtpDumpFileHeader.new 0 0 0).writeToByteBuffer ++ [0, 7, 0, 12, 0, 0, 0, 0])

theorem shortDump_throws :
    ¬ Robust (readPacket MemoryStream.input.toInputStream .new (.setData shortDump)
      ⟨0, [], 0⟩) := by
  intro hrobust
  obtain ⟨_, _, _, _, hreturned, -⟩ := hrobust.returns
  obtain ⟨reader, s, hopen, -, -, hrest⟩ := @openFile_written _ MemoryStream.input .new
    (.setData shortDump) _ _ rfl (fileHeader_length (.new 0 0 0)) rfl
  obtain ⟨s', hheader, -⟩ := FileStream.readAll_append (hrest.trans (List.append_nil _).symm)
  rw [readPacket, hopen] at hreturned
  dsimp only at hreturned
  have hlt : (BitVec.ofNat 16 (ofBE ([0, 7, 0, 12, 0, 0, 0, 0].take 2))).toNat <
      RtpDumpPacket.kHeaderLength := by decide
  rw [if_neg (by decide), readBody_of_lt hheader rfl hlt] at hreturned
  cases hreturned

end RtpDumpReader

/-! ## What is written -/

/-- A packet that is recorded whole: it fits its length field together with the header. -/
structure Recording where
  data : List U8
  elapsed : U32
  rtcp : Bool
  pos : 0 < data.length
  le : data.length ≤ 65527

namespace Recording

def packet (recording : Recording) : RtpDumpPacket :=
  ⟨recording.elapsed, recording.data, if recording.rtcp then 0 else recording.data.length⟩

def encode (recording : Recording) : List U8 := recording.packet.encode

theorem fits (recording : Recording) : recording.packet.Fits := by
  have hle := recording.le
  refine ⟨hle, ?_⟩
  show (if recording.rtcp then 0 else recording.data.length) < 2 ^ 16
  split <;> omega

theorem isRtcp_packet (recording : Recording) : recording.packet.isRtcp = recording.rtcp := by
  have hpos := recording.pos
  unfold RtpDumpPacket.isRtcp packet
  cases recording.rtcp with
  | true => rfl
  | false => exact decide_eq_false (Nat.ne_of_gt hpos)

end Recording

/-- The file of some packets: without any there is no header. -/
def fileOf (now : U32) (recordings : List Recording) : List U8 :=
  if recordings = [] then []
  else kFirstLine ++ ((RtpDumpFileHeader.new now 0 0).writeToByteBuffer ++
    recordings.flatMap Recording.encode)

namespace RtpDumpWriter

variable {ω : Type} {O : OutputStream ω}

/-- The filter records packets of both kinds whole. -/
structure Full (writer : RtpDumpWriter) : Prop where
  rtp : writer.packetFilter &&& pfRtpPacket = pfRtpPacket
  rtcp : writer.packetFilter &&& pfRtcpPacket = pfRtcpPacket

variable {writer : RtpDumpWriter}

theorem Full.filterPacket (h : writer.Full) (data : List U8)
    (rtcp : Bool) : writer.filterPacket data rtcp = data.length := by
  cases rtcp with
  | true => exact if_pos h.rtcp
  | false => exact if_pos h.rtp

/-- `WritePacket` for each packet of a list. -/
def writePackets (O : OutputStream ω) (now : U32) :
    RtpDumpWriter → ω → List Recording → List StreamResult × RtpDumpWriter × ω
  | writer, w, [] => ([], writer, w)
  | writer, w, recording :: recordings =>
    let (res, writer, w) :=
      writePacket O writer now w recording.data recording.elapsed recording.rtcp
    let (results, writer, w) := writePackets O now writer w recordings
    (res :: results, writer, w)

theorem writeFileHeader_eq (now : U32) (w : ω) :
    ∃ w', writeFileHeader O now w = (.success, w') ∧ O.written w' = O.written w ++
      (kFirstLine ++ (RtpDumpFileHeader.new now 0 0).writeToByteBuffer) := by
  obtain ⟨w₁, hline, hwritten₁⟩ := O.writeAll_eq w kFirstLine
  obtain ⟨w₂, hheader, hwritten₂⟩ :=
    O.writeAll_eq w₁ (RtpDumpFileHeader.new now 0 0).writeToByteBuffer
  refine ⟨w₂, ?_, by rw [hwritten₂, hwritten₁, List.append_assoc]⟩
  rw [writeFileHeader, hline]
  dsimp only
  rw [if_neg (by decide), hheader]

theorem openFile_eq (writer : RtpDumpWriter) (now : U32) (w : ω) :
    ∃ w', openFile O writer now w = (.success, { writer with fileHeaderWritten := true }, w') ∧
      O.written w' = O.written w ++ (if writer.fileHeaderWritten then [] else
        kFirstLine ++ (RtpDumpFileHeader.new now 0 0).writeToByteBuffer) := by
  obtain ⟨filter, written⟩ := writer
  cases written with
  | true => exact ⟨w, rfl, (List.append_nil _).symm⟩
  | false =>
    obtain ⟨w', hheader, hwritten⟩ := writeFileHeader_eq (O := O) now w
    refine ⟨w', ?_, hwritten⟩
    rw [openFile, if_neg Bool.false_ne_true, hheader]
    rfl

theorem writeBody_eq (hfull : writer.Full) (w : ω) (recording : Recording) :
    ∃ w', writeBody O writer w recording.data recording.elapsed recording.rtcp = (.success, w') ∧
      O.written w' = O.written w ++ recording.encode := by
  obtain ⟨w₁, hheader, hwritten₁⟩ := O.writeAll_eq w (packetHeader recording.data.length
    recording.data.length recording.elapsed recording.rtcp)
  obtain ⟨w₂, hdata, hwritten₂⟩ := O.writeAll_eq w₁ recording.data
  refine ⟨w₂, ?_, ?_⟩
  · rw [writeBody, hfull.filterPacket]
    dsimp only
    rw [if_neg (Nat.ne_of_gt recording.pos), hheader, List.take_length]
    dsimp only
    rw [if_neg (by decide), hdata]
  · rw [hwritten₂, hwritten₁, List.append_assoc]
    rfl

/-- **A packet is written behind the file header**, which the first one writes. -/
theorem writePacket_eq (hfull : writer.Full) (now : U32) (w : ω) (recording : Recording) :
    ∃ w', writePacket O writer now w recording.data recording.elapsed recording.rtcp =
        (.success, { writer with fileHeaderWritten := true }, w') ∧
      O.written w' = O.written w ++ (if writer.fileHeaderWritten then [] else
        kFirstLine ++ (RtpDumpFileHeader.new now 0 0).writeToByteBuffer) ++ recording.encode := by
  have hdata : recording.data ≠ [] := List.ne_nil_of_length_pos recording.pos
  obtain ⟨w₁, hopen, hwritten₁⟩ := openFile_eq (O := O) writer now w
  have hfull' : Full { writer with fileHeaderWritten := true } := ⟨hfull.rtp, hfull.rtcp⟩
  obtain ⟨w₂, hbody, hwritten₂⟩ := writeBody_eq (O := O) hfull' w₁ recording
  refine ⟨w₂, ?_, by rw [hwritten₂, hwritten₁]⟩
  rw [writePacket, if_neg hdata, hopen]
  dsimp only
  rw [if_neg (by decide), hbody]

/-- **What is written of a list of packets.** -/
theorem writePackets_eq (hfull : writer.Full) (now : U32) (w : ω) (recordings : List Recording) :
    ∃ writer' w', writePackets O now writer w recordings =
        (recordings.map fun _ => .success, writer', w') ∧
      O.written w' = O.written w ++
        if writer.fileHeaderWritten then recordings.flatMap Recording.encode
        else fileOf now recordings := by
  induction recordings generalizing writer w with
  | nil => exact ⟨writer, w, rfl, by simp [fileOf]⟩
  | cons recording recordings ih =>
    obtain ⟨w₁, hpacket, hwritten₁⟩ := writePacket_eq (O := O) hfull now w recording
    have hfull' : Full { writer with fileHeaderWritten := true } := ⟨hfull.rtp, hfull.rtcp⟩
    obtain ⟨writer', w', hpackets, hwritten⟩ := ih hfull' w₁
    refine ⟨writer', w', ?_, ?_⟩
    · rw [writePackets, hpacket]
      dsimp only
      rw [hpackets]
      rfl
    · rw [hwritten, hwritten₁, if_pos rfl, List.append_assoc, List.append_assoc]
      congr 1
      cases writer.fileHeaderWritten with
      | true => rfl
      | false =>
        rw [fileOf, if_neg (by simp), List.flatMap_cons]
        simp

end RtpDumpWriter

/-! ## What is read back -/

namespace RtpDumpReader

variable {σ : Type} {S : InputStream σ} {F : FileStream σ} {reader : RtpDumpReader} {s : σ}

inductive Reply where
  | packet (packet : RtpDumpPacket)
  | refused (result : StreamResult)
  | trapped (trap : Trap)
  deriving DecidableEq

/-- The replies of `ReadPacket`, called again and again with one packet. -/
def replies (S : InputStream σ) : Nat → RtpDumpReader → σ → RtpDumpPacket → List Reply
  | 0, _, _, _ => []
  | k + 1, reader, s, packet =>
    match (readPacket S reader s packet).returned with
    | .error trap => [.trapped trap]
    | .ok (res, packet, reader, s) =>
      (if res = .success then .packet packet else .refused res) :: replies S k reader s packet

theorem header_fields {packet : RtpDumpPacket} (h : packet.Fits) :
    packet.header.length = RtpDumpPacket.kHeaderLength ∧
      (BitVec.ofNat 16 (ofBE (packet.header.take 2))).toNat =
        RtpDumpPacket.kHeaderLength + packet.data.length ∧
      ofBE ((packet.header.drop 2).take 2) = packet.originalDataLen ∧
      BitVec.ofNat 32 (ofBE ((packet.header.drop 4).take 4)) = packet.elapsedTime := by
  have hle := h.data_le
  have hlen : RtpDumpPacket.kHeaderLength + packet.data.length < 2 ^ 16 := by
    unfold RtpDumpPacket.kHeaderLength
    omega
  have htake : ∀ (n x : Nat) (rest : List U8), (toBE n x ++ rest).take n = toBE n x :=
    fun n x rest => List.take_left' (toBE_length n x)
  have hdrop : ∀ (n x : Nat) (rest : List U8), (toBE n x ++ rest).drop n = rest :=
    fun n x rest => List.drop_left' (toBE_length n x)
  refine ⟨?_, ?_, ?_, ?_⟩
  · simp [RtpDumpPacket.header, ByteBuffer.writeUInt16, ByteBuffer.writeUInt32,
      RtpDumpPacket.kHeaderLength]
  · rw [RtpDumpPacket.header, List.append_assoc, ByteBuffer.writeUInt16, htake,
      ofBE_toBE (BitVec.isLt _), BitVec.ofNat_toNat, BitVec.setWidth_eq, BitVec.toNat_ofNat,
      Nat.mod_eq_of_lt hlen]
  · rw [RtpDumpPacket.header, List.append_assoc, ByteBuffer.writeUInt16, hdrop,
      ByteBuffer.writeUInt16, htake, ofBE_toBE (BitVec.isLt _), BitVec.toNat_ofNat,
      Nat.mod_eq_of_lt h.original_lt]
  · rw [RtpDumpPacket.header, List.drop_left' (by simp [ByteBuffer.writeUInt16]),
      ByteBuffer.writeUInt32, List.take_of_length_le (by simp), ofBE_toBE (BitVec.isLt _),
      BitVec.ofNat_toNat, BitVec.setWidth_eq]

variable {first : RtpDumpPacket}

/-- **A packet at the front of a file is read**, and what is behind it is left. -/
theorem readBody_front (reader : RtpDumpReader) (packet : RtpDumpPacket)
    (hfits : first.Fits) {rest : List U8} (hs : F.rest s = first.encode ++ rest) :
    ∃ s', (readBody F.toInputStream reader s packet).returned =
      .ok (.success, first.withSsrc reader.ssrcOverride, reader, s') ∧ F.rest s' = rest := by
  obtain ⟨hlength, hlen, horiginal, helapsed⟩ := header_fields hfits
  rw [RtpDumpPacket.encode, List.append_assoc] at hs
  obtain ⟨s₁, hheader, hrest₁⟩ := FileStream.readAll_append hs
  obtain ⟨s₂, hdata, hrest₂⟩ := FileStream.readAll_append hrest₁
  rw [hlength] at hheader
  obtain ⟨packet', hbody, -, hall⟩ := readBody_of_le reader packet hheader rfl rfl hlen hdata
  refine ⟨s₂, ?_, hrest₂⟩
  rw [hbody, hall rfl]
  dsimp only
  rw [helapsed, horiginal]

theorem readBody_cut (reader : RtpDumpReader) (packet : RtpDumpPacket)
    (hfits : first.Fits) (hs : F.rest s <+: first.encode)
    (hcut : (F.rest s).length < first.encode.length) :
    ∃ packet' s', (readBody F.toInputStream reader s packet).returned =
      .ok (.eos, packet', reader, s') := by
  obtain ⟨hlength, hlen, -, -⟩ := header_fields hfits
  rw [RtpDumpPacket.encode, List.length_append, hlength] at hcut
  rcases Nat.lt_or_ge (F.rest s).length RtpDumpPacket.kHeaderLength with hlt | hge
  · have heos := FileStream.readAll_short hlt
    refine ⟨packet, (F.readAll s RtpDumpPacket.kHeaderLength).next, ?_⟩
    rw [readBody]
    dsimp only
    rw [heos, if_pos (by decide)]
  · have hfront : first.header <+: F.rest s :=
      List.prefix_of_prefix_length_le (List.prefix_append _ _) hs (by rw [hlength]; exact hge)
    obtain ⟨rest, hrest⟩ := hfront
    obtain ⟨s₁, hheader, hrest₁⟩ := FileStream.readAll_append hrest.symm
    rw [hlength] at hheader
    rw [← hrest, List.length_append, hlength] at hcut
    have heos : (F.readAll s₁ first.data.length).result = .eos :=
      FileStream.readAll_short (by rw [hrest₁]; omega)
    obtain ⟨packet', hbody, -, -⟩ := readBody_of_le reader packet hheader rfl rfl hlen rfl
    rw [hbody]
    dsimp only
    rw [heos]
    exact ⟨_, _, rfl⟩

variable {reader' : RtpDumpReader}

variable {s' : σ}

theorem replies_refused {packet packet' : RtpDumpPacket} {res : StreamResult}
    (hres : res ≠ .success)
    (h : (readPacket S reader s packet).returned = .ok (res, packet', reader', s')) :
    replies S 1 reader s packet = [.refused res] := by
  rw [replies, h]
  dsimp only
  rw [if_neg hres]
  rfl

theorem replies_packet {packet packet' : RtpDumpPacket} {k : Nat}
    (h : (readPacket S reader s packet).returned = .ok (.success, packet', reader', s')) :
    replies S (k + 1) reader s packet = .packet packet' :: replies S k reader' s' packet' := by
  rw [replies, h]
  dsimp only
  rw [if_pos rfl]

theorem readPacket_opened (packet : RtpDumpPacket)
    (hopen : openFile S reader s = (.success, reader', s')) :
    readPacket S reader s packet = readBody S reader' s' packet := by
  rw [readPacket, hopen]
  exact if_neg (by decide)

theorem replies_closed (packet : RtpDumpPacket) (hclosed : (openFile S reader s).1 ≠ .success) :
    replies S 1 reader s packet = [.refused (openFile S reader s).1] := by
  have hcall : (readPacket S reader s packet).returned = .ok ((openFile S reader s).1, packet,
      (openFile S reader s).2.1, (openFile S reader s).2.2) := by
    rw [readPacket]
    dsimp only
    rw [if_pos hclosed]
  exact replies_refused hclosed hcall

theorem readBody_end (packet : RtpDumpPacket) (hs : F.rest s = []) :
    ∃ s', (readBody F.toInputStream reader s packet).returned = .ok (.eos, packet, reader, s') := by
  have heos : (F.readAll s RtpDumpPacket.kHeaderLength).result = .eos :=
    FileStream.readAll_short (by rw [hs]; decide)
  refine ⟨(F.readAll s RtpDumpPacket.kHeaderLength).next, ?_⟩
  rw [readBody]
  dsimp only
  rw [heos, if_pos (by decide)]

variable {recordings : List Recording}

theorem replies_bodies (hread : reader.fileHeaderRead = true) (hssrc : reader.ssrcOverride = 0)
    (packet : RtpDumpPacket)
    (hs : F.rest s = recordings.flatMap Recording.encode) :
    replies F.toInputStream (recordings.length + 1) reader s packet =
      recordings.map (Reply.packet ·.packet) ++ [.refused .eos] := by
  induction recordings generalizing s packet with
  | nil =>
    obtain ⟨s', hbody⟩ := readBody_end packet hs
    rw [← readPacket_opened packet (openFile_again s hread)] at hbody
    exact replies_refused (by decide) hbody
  | cons recording recordings ih =>
    rw [List.flatMap_cons] at hs
    obtain ⟨s', hbody, hrest⟩ := readBody_front reader packet recording.fits hs
    rw [hssrc, RtpDumpPacket.withSsrc_zero, ← readPacket_opened packet (openFile_again s hread)]
      at hbody
    rw [List.length_cons, replies_packet hbody, ih recording.packet hrest]
    rfl

theorem replies_bodies_cut (hread : reader.fileHeaderRead = true)
    (hssrc : reader.ssrcOverride = 0) (packet : RtpDumpPacket)
    (hs : F.rest s <+: recordings.flatMap Recording.encode) :
    ∃ k res, k ≤ recordings.length ∧ res ≠ .success ∧
      replies F.toInputStream (k + 1) reader s packet =
        (recordings.take k).map (Reply.packet ·.packet) ++ [.refused res] := by
  induction recordings generalizing s packet with
  | nil =>
    obtain ⟨s', hbody⟩ := readBody_end packet (List.prefix_nil.mp hs)
    rw [← readPacket_opened packet (openFile_again s hread)] at hbody
    exact ⟨0, .eos, Nat.le_refl 0, by decide, replies_refused (by decide) hbody⟩
  | cons recording recordings ih =>
    rw [List.flatMap_cons] at hs
    rcases Nat.lt_or_ge (F.rest s).length recording.encode.length with hlt | hge
    · have hfront := List.prefix_of_prefix_length_le hs (List.prefix_append _ _) (Nat.le_of_lt hlt)
      obtain ⟨packet', s', hbody⟩ := readBody_cut reader packet recording.fits hfront hlt
      rw [← readPacket_opened packet (openFile_again s hread)] at hbody
      exact ⟨0, .eos, Nat.zero_le _, by decide, replies_refused (by decide) hbody⟩
    · obtain ⟨rest, hrest⟩ := List.prefix_of_prefix_length_le (List.prefix_append _ _) hs hge
      rw [← hrest, List.prefix_append_right_inj] at hs
      obtain ⟨s', hbody, hrest'⟩ := readBody_front reader packet recording.fits hrest.symm
      rw [hssrc, RtpDumpPacket.withSsrc_zero,
        ← readPacket_opened packet (openFile_again s hread)] at hbody
      obtain ⟨k, res, hk, hres, hreplies⟩ := ih (s := s') recording.packet (by rwa [hrest'])
      refine ⟨k + 1, res, Nat.succ_le_succ hk, hres, ?_⟩
      rw [replies_packet hbody, hreplies]
      rfl

theorem replies_opened (packet : RtpDumpPacket) (k : Nat)
    (hopen : openFile F.toInputStream reader s = (.success, reader', s'))
    (hread : reader'.fileHeaderRead = true) :
    replies F.toInputStream (k + 1) reader s packet =
      replies F.toInputStream (k + 1) reader' s' packet := by
  rw [replies, replies, readPacket_opened packet hopen,
    readPacket_opened packet (openFile_again s' hread)]

/-- **A file that was written is read back**, and ends. -/
theorem replies_file (now : U32) (packet : RtpDumpPacket) (hs : F.rest s = fileOf now recordings) :
    replies F.toInputStream (recordings.length + 1) .new s packet =
      recordings.map (Reply.packet ·.packet) ++ [.refused .eos] := by
  unfold fileOf at hs
  split at hs
  · rename_i hnil
    have hempty := openFile_empty .new rfl hs
    have hreplies := replies_closed packet (by rw [hempty]; decide)
    rw [hempty] at hreplies
    rw [hnil]
    exact hreplies
  · obtain ⟨reader, s', hopen, hread, hssrc, hrest⟩ :=
      @openFile_written _ F .new s _ _ rfl (fileHeader_length (.new now 0 0)) hs
    rw [replies_opened packet _ hopen hread, replies_bodies hread hssrc packet hrest]

/-- **Of a file that is cut anywhere a prefix is read**, and then the reader says so. -/
theorem replies_file_cut (now : U32) (packet : RtpDumpPacket)
    (hs : F.rest s <+: fileOf now recordings) :
    ∃ k res, k ≤ recordings.length ∧ res ≠ .success ∧
      replies F.toInputStream (k + 1) .new s packet =
        (recordings.take k).map (Reply.packet ·.packet) ++ [.refused res] := by
  have hclosed : (openFile F.toInputStream .new s).1 ≠ .success →
      ∃ k res, k ≤ recordings.length ∧ res ≠ .success ∧
        replies F.toInputStream (k + 1) .new s packet =
          (recordings.take k).map (Reply.packet ·.packet) ++ [.refused res] := fun h =>
    ⟨0, _, Nat.zero_le _, h, replies_closed packet h⟩
  unfold fileOf at hs
  split at hs
  · refine hclosed ?_
    rw [openFile_empty .new rfl (List.prefix_nil.mp hs)]
    decide
  · rw [← List.append_assoc] at hs
    have hlength := fileHeader_length (.new now 0 0)
    rcases Nat.lt_or_ge (F.rest s).length (kFirstLine.length + 16) with hlt | hge
    · have hfront := List.prefix_of_prefix_length_le hs (List.prefix_append _ _)
        (by rw [List.length_append, hlength]; exact Nat.le_of_lt hlt)
      exact hclosed (openFile_cut rfl hfront hlt)
    · obtain ⟨rest, hrest⟩ := List.prefix_of_prefix_length_le (List.prefix_append _ _) hs
        (by rw [List.length_append, hlength]; exact hge)
      rw [← hrest, List.prefix_append_right_inj] at hs
      rw [List.append_assoc] at hrest
      obtain ⟨reader, s', hopen, hread, hssrc, hrest'⟩ :=
        @openFile_written _ F .new s _ _ rfl hlength hrest.symm
      obtain ⟨k, res, hk, hres, hreplies⟩ :=
        replies_bodies_cut (s := s') hread hssrc packet (by rwa [hrest'])
      exact ⟨k, res, hk, hres, (replies_opened packet k hopen hread).trans hreplies⟩

end RtpDumpReader

/-- **What is written is read back.** The file of any packets gives these packets, with their times
and kinds, and ends; of every front of it a front of the packets is read, and then no success. -/
theorem written_read_back {ω σ : Type} (O : OutputStream ω) (F : FileStream σ)
    {writer writer' : RtpDumpWriter} (hfull : writer.Full)
    (hunwritten : writer.fileHeaderWritten = false) {now : U32} {w w' : ω}
    (hempty : O.written w = []) {recordings : List Recording} {results : List StreamResult}
    (hrun : RtpDumpWriter.writePackets O now writer w recordings = (results, writer', w'))
    (packet : RtpDumpPacket) :
    (∀ res ∈ results, res = .success) ∧ (∀ r ∈ recordings, r.packet.isRtcp = r.rtcp) ∧
      (∀ s, F.rest s = O.written w' →
        RtpDumpReader.replies F.toInputStream (recordings.length + 1) .new s packet =
          recordings.map (.packet ·.packet) ++ [.refused .eos]) ∧
      ∀ s, F.rest s <+: O.written w' → ∃ k res, k ≤ recordings.length ∧ res ≠ .success ∧
        RtpDumpReader.replies F.toInputStream (k + 1) .new s packet =
          (recordings.take k).map (.packet ·.packet) ++ [.refused res] := by
  obtain ⟨_, _, hpackets, hwritten⟩ :=
    RtpDumpWriter.writePackets_eq (O := O) hfull now w recordings
  rw [hrun] at hpackets
  obtain ⟨rfl, rfl, rfl⟩ : _ ∧ _ ∧ _ := by simpa only [Prod.mk.injEq] using hpackets
  rw [if_neg (by rw [hunwritten]; decide), hempty, List.nil_append] at hwritten
  refine ⟨by simp, fun r _ => r.isRtcp_packet, fun s hs => ?_, fun s hs => ?_⟩
  · exact RtpDumpReader.replies_file now packet (hs.trans hwritten)
  · exact RtpDumpReader.replies_file_cut now packet (hwritten ▸ hs)

/-- An RTP packet, and four milliseconds later an RTCP packet. -/
def rtpThenRtcp : List Recording :=
  [⟨[128, 7], 5, false, by decide, by decide⟩, ⟨[128, 200, 0, 1], 9, true, by decide, by decide⟩]

/-- Their file. -/
def dumped : List U8 :=
  MemoryStream.output.written
    (RtpDumpWriter.writePackets MemoryStream.output 0 .new ⟨.setData [], rfl⟩ rtpThenRtcp).2.2

theorem rtpThenRtcp_read_back :
    RtpDumpReader.replies MemoryStream.input.toInputStream 3 .new (.setData dumped) ⟨0, [], 0⟩ =
        [.packet ⟨5, [128, 7], 2⟩, .packet ⟨9, [128, 200, 0, 1], 0⟩, .refused .eos] ∧
      ∃ k res, k ≤ 2 ∧ res ≠ .success ∧
        RtpDumpReader.replies MemoryStream.input.toInputStream (k + 1) .new
            (.setData dumped.dropLast) ⟨0, [], 0⟩ =
          (rtpThenRtcp.take k).map (.packet ·.packet) ++ [.refused res] := by
  have hfull : RtpDumpWriter.new.Full := ⟨by decide, by decide⟩
  have hback := (@written_read_back _ _ MemoryStream.output MemoryStream.input .new _ hfull rfl 0
    ⟨.setData [], rfl⟩ _ rfl rtpThenRtcp _ rfl ⟨0, [], 0⟩).2.2
  exact ⟨hback.1 _ rfl, hback.2 _ (List.dropLast_prefix _)⟩

end Libjingle.RtpDump
