import NaiveRtc.Rtcp.PackInto

/-!
# Reports, source descriptions and goodbyes

The `PackInto` functions of `sender_report.cpp`, `receiver_report.cpp`, `sdes.cpp` and
`bye.cpp` under `rtc/rtp_rtcp/rtcp/packets`, with the report block they share.  The
bounds that the setters enforce are fields of the structures.

* `packetSize`, `packInto` — the functions of the source, for each packet.
* `bytes` — what a packet looks like on the wire.
* `SenderReport.packsAs` and its siblings — `packInto` writes `bytes`, and `packetSize`
  is their number.
-/

namespace NaiveRtc.Rtcp

open ByteIo PackState

/-- `NtpTime`. -/
structure NtpTime where
  value : BitVec 64
  deriving DecidableEq

/-- `seconds()`. -/
def NtpTime.seconds (t : NtpTime) : U32 := (t.value >>> 32).setWidth 32

/-- `fractions()`. -/
def NtpTime.fractions (t : NtpTime) : U32 := t.value.setWidth 32

/-! ## Report blocks -/

/-- `ReportBlock`. -/
structure ReportBlock where
  sourceSsrc : U32
  fractionLost : UInt8
  cumulativePacketLost : Int
  extendedHighestSeqNum : U32
  jitter : U32
  lastSrNtpTimestamp : U32
  delaySinceLastSr : U32
  deriving DecidableEq

namespace ReportBlock

/-- `kFixedReportBlockSize`. -/
def kFixedReportBlockSize : Nat := 24

/-- The seven fields, from `buffer[0]` on. -/
def bytes (b : ReportBlock) : List UInt8 :=
  writeBigEndian 4 b.sourceSsrc.toNat ++ [b.fractionLost] ++ writeSigned 3 b.cumulativePacketLost ++
    writeBigEndian 4 b.extendedHighestSeqNum.toNat ++ writeBigEndian 4 b.jitter.toNat ++
    writeBigEndian 4 b.lastSrNtpTimestamp.toNat ++ writeBigEndian 4 b.delaySinceLastSr.toNat

/-- `PackInto(buffer, size)`: the bytes written; `none` is `false`. -/
def packInto (b : ReportBlock) (size : Nat) : Option (List UInt8) :=
  if size < kFixedReportBlockSize then none else some b.bytes

@[simp] theorem length_bytes (b : ReportBlock) : b.bytes.length = kFixedReportBlockSize := by
  simp [bytes, kFixedReportBlockSize]

theorem packInto_of_le (b : ReportBlock) (size : Nat) (h : kFixedReportBlockSize ≤ size) :
    b.packInto size = some b.bytes :=
  if_neg (by omega)

end ReportBlock

/-- `kMaxNumberOfReportBlocks` of both reports. -/
def kMaxNumberOfReportBlocks : Nat := 0x1F

/-! ## Sender reports -/

/-- `SenderReport`.  `AddReportBlock` and `SetReportBlocks` bound the number of blocks. -/
structure SenderReport where
  senderSsrc : U32
  ntp : NtpTime
  rtpTimestamp : U32
  senderPacketCount : U32
  senderOctetCount : U32
  reportBlocks : List ReportBlock
  blocks_le : reportBlocks.length ≤ kMaxNumberOfReportBlocks
  deriving DecidableEq

namespace SenderReport

/-- `kPacketType`. -/
def kPacketType : Nat := 200
/-- `kSenderReportBaseSize`. -/
def kSenderReportBaseSize : Nat := 24

/-- `PacketSize()`. -/
def packetSize (r : SenderReport) : Nat :=
  kRtcpCommonHeaderSize + kSenderReportBaseSize +
    r.reportBlocks.length * ReportBlock.kFixedReportBlockSize

/-- The fields between the common header and the report blocks. -/
def senderInfo (r : SenderReport) : List UInt8 :=
  writeBigEndian 4 r.senderSsrc.toNat ++ writeBigEndian 4 r.ntp.seconds.toNat ++
    writeBigEndian 4 r.ntp.fractions.toNat ++ writeBigEndian 4 r.rtpTimestamp.toNat ++
    writeBigEndian 4 r.senderPacketCount.toNat ++ writeBigEndian 4 r.senderOctetCount.toNat

/-- The loop over the report blocks, which gives up when one does not fit. -/
def packReportBlocks (indexEnd : Nat) : List ReportBlock → PackState → Bool × PackState
  | [], st => (true, st)
  | block :: blocks, st =>
    match block.packInto (indexEnd - st.index) with
    | none => (false, st)
    | some bytes => packReportBlocks indexEnd blocks
      (st.put bytes ReportBlock.kFixedReportBlockSize)

/-- `PackInto` after its first loop. -/
def packBody (r : SenderReport) (st : PackState) : Bool × PackState :=
  let indexEnd := st.index + r.packetSize
  let st := st.write (packCommonHeader r.reportBlocks.length kPacketType
    (r.packetSize - kRtcpCommonHeaderSize) false)
  let st := st.put r.senderInfo kSenderReportBaseSize
  packReportBlocks indexEnd r.reportBlocks st

/-- `PackInto(buffer, index, max_size, callback)`. -/
def packInto (r : SenderReport) : Bool → Nat → Nat → PackState → Packed :=
  packUnsplit r.packetSize r.packBody

/-- The packet on the wire. -/
def bytes (r : SenderReport) : List UInt8 :=
  packCommonHeader r.reportBlocks.length kPacketType (r.packetSize - kRtcpCommonHeaderSize) false ++
    r.senderInfo ++ r.reportBlocks.flatMap ReportBlock.bytes

theorem length_senderInfo (r : SenderReport) : r.senderInfo.length = kSenderReportBaseSize := by
  simp [senderInfo, kSenderReportBaseSize]

theorem length_bytes (r : SenderReport) : r.bytes.length = r.packetSize := by
  rw [bytes, List.length_append, List.length_append, length_senderInfo,
    length_flatMap_of_length ReportBlock.length_bytes, length_packCommonHeader, packetSize,
    Nat.mul_comm]
  rfl

theorem packReportBlocks_eq {indexEnd : Nat} (blocks : List ReportBlock) {st : PackState}
    (hindex : st.index ≤ st.buffer.length)
    (hroom : st.index + ReportBlock.kFixedReportBlockSize * blocks.length ≤ indexEnd) :
    packReportBlocks indexEnd blocks st = (true, st.write (blocks.flatMap ReportBlock.bytes)) := by
  induction blocks generalizing st with
  | nil => exact congrArg (Prod.mk true) (write_nil st).symm
  | cons block blocks ih =>
    rw [List.length_cons, Nat.mul_succ] at hroom
    rw [packReportBlocks, ReportBlock.packInto_of_le _ _ (by omega)]
    dsimp only
    rw [put_eq_write _ (ReportBlock.length_bytes block), List.flatMap_cons, ← write_write hindex]
    refine ih (index_write_le hindex) ?_
    rw [index_write, ReportBlock.length_bytes]
    omega

theorem packBody_eq (r : SenderReport) {st : PackState} (h : st.index ≤ st.buffer.length) :
    r.packBody st = (true, st.write r.bytes) := by
  unfold packBody
  dsimp only
  rw [put_eq_write _ r.length_senderInfo, write_write h,
    packReportBlocks_eq _ (index_write_le h), write_write h, bytes]
  rw [index_write, List.length_append, length_packCommonHeader, length_senderInfo, packetSize,
    kRtcpCommonHeaderSize, Nat.mul_comm]
  omega

theorem packsAs (r : SenderReport) (hasCallback : Bool) (maxSize : Nat) :
    PacksAs (r.packInto hasCallback maxSize) maxSize 2
      (nextIndex hasCallback maxSize r.packetSize) (· = [r.bytes]) :=
  packUnsplit_spec hasCallback r.length_bytes (fun st h => r.packBody_eq (by omega))

end SenderReport

/-! ## Receiver reports -/

/-- `ReceiverReport`.  `AddReportBlock` and `SetReportBlocks` bound the number of blocks. -/
structure ReceiverReport where
  senderSsrc : U32
  reportBlocks : List ReportBlock
  blocks_le : reportBlocks.length ≤ kMaxNumberOfReportBlocks
  deriving DecidableEq

namespace ReceiverReport

/-- `kPacketType`. -/
def kPacketType : Nat := 201
/-- `kReceiverReportBaseSize`. -/
def kReceiverReportBaseSize : Nat := 4

/-- `PacketSize()`. -/
def packetSize (r : ReceiverReport) : Nat :=
  kRtcpCommonHeaderSize + kReceiverReportBaseSize +
    r.reportBlocks.length * ReportBlock.kFixedReportBlockSize

/-- `PackInto` after its first loop.  What `ReportBlock::PackInto` returns is not looked at. -/
def packBody (r : ReceiverReport) (st : PackState) : Bool × PackState :=
  let indexEnd := st.index + r.packetSize
  let st := st.write (packCommonHeader r.reportBlocks.length kPacketType
    (r.packetSize - kRtcpCommonHeaderSize) false)
  let st := st.put (writeBigEndian 4 r.senderSsrc.toNat) kReceiverReportBaseSize
  (true, r.reportBlocks.foldl (fun st block =>
    st.put ((block.packInto (indexEnd - st.index)).getD []) ReportBlock.kFixedReportBlockSize) st)

/-- `PackInto(buffer, index, max_size, callback)`. -/
def packInto (r : ReceiverReport) : Bool → Nat → Nat → PackState → Packed :=
  packUnsplit r.packetSize r.packBody

/-- The packet on the wire. -/
def bytes (r : ReceiverReport) : List UInt8 :=
  packCommonHeader r.reportBlocks.length kPacketType (r.packetSize - kRtcpCommonHeaderSize) false ++
    writeBigEndian 4 r.senderSsrc.toNat ++ r.reportBlocks.flatMap ReportBlock.bytes

theorem length_bytes (r : ReceiverReport) : r.bytes.length = r.packetSize := by
  rw [bytes, List.length_append, List.length_append, length_writeBigEndian,
    length_flatMap_of_length ReportBlock.length_bytes, length_packCommonHeader, packetSize,
    Nat.mul_comm]
  rfl

theorem packBody_eq (r : ReceiverReport) {st : PackState} (h : st.index ≤ st.buffer.length) :
    r.packBody st = (true, st.write r.bytes) := by
  have hssrc : (writeBigEndian 4 r.senderSsrc.toNat).length = kReceiverReportBaseSize :=
    length_writeBigEndian 4 _
  unfold packBody
  dsimp only
  rw [put_eq_write _ hssrc, write_write h,
    foldl_put_room ReportBlock.length_bytes ReportBlock.packInto_of_le _ (index_write_le h),
    write_write h, bytes]
  rw [index_write, List.length_append, length_packCommonHeader, length_writeBigEndian, packetSize,
    kRtcpCommonHeaderSize, kReceiverReportBaseSize, Nat.mul_comm]
  omega

theorem packsAs (r : ReceiverReport) (hasCallback : Bool) (maxSize : Nat) :
    PacksAs (r.packInto hasCallback maxSize) maxSize 2
      (nextIndex hasCallback maxSize r.packetSize) (· = [r.bytes]) :=
  packUnsplit_spec hasCallback r.length_bytes (fun st h => r.packBody_eq (by omega))

end ReceiverReport

/-! ## Source descriptions -/

/-- `Sdes::Chunk`.  `AddCName` accepts no longer name, and a parsed one has a one-byte length. -/
structure SdesChunk where
  ssrc : U32
  cname : List UInt8
  cname_le : cname.length ≤ 0xFF
  deriving DecidableEq

namespace SdesChunk

/-- `kCNameTag`. -/
def kCNameTag : UInt8 := 1
/-- `kPaddingValue`. -/
def kPaddingValue : UInt8 := 0

/-- `CalculateChunkSize(chunk)`; the padding is one to four bytes. -/
def calculateChunkSize (c : SdesChunk) : Nat :=
  let chunkPayloadSize := 4 + 1 + 1 + c.cname.length
  let paddingSize := 4 - chunkPayloadSize % 4
  chunkPayloadSize + paddingSize

/-- One round of the loop of `Sdes::PackInto`. -/
def packInto (st : PackState) (c : SdesChunk) : PackState :=
  let chunkSize := 6 + c.cname.length
  let st := st.put (writeBigEndian 4 c.ssrc.toNat ++ [kCNameTag] ++ [UInt8.ofNat c.cname.length] ++
    c.cname) chunkSize
  let paddingSize := 4 - chunkSize % 4
  st.put (List.replicate paddingSize kPaddingValue) paddingSize

/-- The chunk on the wire. -/
def bytes (c : SdesChunk) : List UInt8 :=
  writeBigEndian 4 c.ssrc.toNat ++ [kCNameTag] ++ [UInt8.ofNat c.cname.length] ++ c.cname ++
    List.replicate (4 - (6 + c.cname.length) % 4) kPaddingValue

theorem length_bytes (c : SdesChunk) : c.bytes.length = c.calculateChunkSize := by
  simp only [bytes, calculateChunkSize, List.length_append, length_writeBigEndian,
    List.length_singleton, List.length_replicate]

theorem packInto_writes (c : SdesChunk) : Writes (packInto · c) c.bytes := by
  intro st h
  unfold packInto
  dsimp only
  have hpayload : (writeBigEndian 4 c.ssrc.toNat ++ [kCNameTag] ++ [UInt8.ofNat c.cname.length] ++
      c.cname).length = 6 + c.cname.length := by
    simp only [List.length_append, length_writeBigEndian, List.length_singleton]
  rw [put_eq_write _ hpayload, put_eq_write _ (List.length_replicate ..), write_write h, bytes]

end SdesChunk

/-- `kMaxNumberOfChunks`. -/
def kMaxNumberOfChunks : Nat := 0x1F

/-- `Sdes`.  `packet_size_` is kept along with the chunks. -/
structure Sdes where
  chunks : List SdesChunk
  packetSize : Nat
  chunks_le : chunks.length ≤ kMaxNumberOfChunks
  size_eq : packetSize = kRtcpCommonHeaderSize + (chunks.map SdesChunk.calculateChunkSize).sum
  deriving DecidableEq

namespace Sdes

/-- `kPacketType`. -/
def kPacketType : Nat := 202

/-- `Sdes()`. -/
def create : Sdes where
  chunks := []
  packetSize := kRtcpCommonHeaderSize
  chunks_le := Nat.zero_le _
  size_eq := rfl

/-- `AddCName(ssrc, cname)`; `none` is `false`. -/
def addCName (s : Sdes) (ssrc : U32) (cname : List UInt8) : Option Sdes :=
  if hname : cname.length ≤ 0xFF then
    if hchunks : s.chunks.length < kMaxNumberOfChunks then
      let chunk : SdesChunk := ⟨ssrc, cname, hname⟩
      some {
        chunks := s.chunks ++ [chunk]
        packetSize := s.packetSize + chunk.calculateChunkSize
        chunks_le := by
          rw [List.length_append, List.length_singleton]
          omega
        size_eq := by
          rw [s.size_eq, List.map_append, List.sum_append, List.map_singleton, List.sum_singleton,
            Nat.add_assoc] }
    else none
  else none

/-- `PackInto` after its first loop. -/
def packBody (s : Sdes) (st : PackState) : Bool × PackState :=
  let st := st.write (packCommonHeader s.chunks.length kPacketType
    (s.packetSize - kRtcpCommonHeaderSize) false)
  (true, s.chunks.foldl SdesChunk.packInto st)

/-- `PackInto(buffer, index, max_size, callback)`. -/
def packInto (s : Sdes) : Bool → Nat → Nat → PackState → Packed :=
  packUnsplit s.packetSize s.packBody

/-- The packet on the wire. -/
def bytes (s : Sdes) : List UInt8 :=
  packCommonHeader s.chunks.length kPacketType (s.packetSize - kRtcpCommonHeaderSize) false ++
    s.chunks.flatMap SdesChunk.bytes

theorem length_bytes (s : Sdes) : s.bytes.length = s.packetSize := by
  have hchunks : SdesChunk.calculateChunkSize = fun c => c.bytes.length :=
    funext fun c => c.length_bytes.symm
  rw [bytes, List.length_append, List.length_flatMap, length_packCommonHeader, s.size_eq, hchunks,
    kRtcpCommonHeaderSize]

theorem packBody_eq (s : Sdes) {st : PackState} (h : st.index ≤ st.buffer.length) :
    s.packBody st = (true, st.write s.bytes) := by
  unfold packBody
  dsimp only
  rw [foldl_write (fun c _ => c.packInto_writes) (index_write_le h), write_write h, bytes]

theorem packsAs (s : Sdes) (hasCallback : Bool) (maxSize : Nat) :
    PacksAs (s.packInto hasCallback maxSize) maxSize 2
      (nextIndex hasCallback maxSize s.packetSize) (· = [s.bytes]) :=
  packUnsplit_spec hasCallback s.length_bytes (fun st h => s.packBody_eq (by omega))

end Sdes

/-! ## Goodbyes -/

/-- `kMaxNumberOfCsrcs` of `Bye`. -/
def kMaxNumberOfByeCsrcs : Nat := 0x1f - 1

/-- `Bye`, with the bounds that `set_csrcs` and `set_reason` put on it. -/
structure Bye where
  senderSsrc : U32
  csrcs : List U32
  reason : List UInt8
  csrcs_le : csrcs.length ≤ kMaxNumberOfByeCsrcs
  reason_le : reason.length ≤ 0xff
  deriving DecidableEq

namespace Bye

/-- `kPacketType`. -/
def kPacketType : Nat := 203

/-- `set_csrcs(csrcs)`; `none` is `false`. -/
def setCsrcs (b : Bye) (csrcs : List U32) : Option Bye :=
  if h : csrcs.length ≤ kMaxNumberOfByeCsrcs then some { b with csrcs := csrcs, csrcs_le := h }
  else none

/-- `PacketSize()`. -/
def packetSize (b : Bye) : Nat :=
  let srcCount := 1 + b.csrcs.length
  let reasonSizeIn32bits := if b.reason.isEmpty then 0 else b.reason.length / 4 + 1
  kRtcpCommonHeaderSize + 4 * (srcCount + reasonSizeIn32bits)

/-- The end of `PackInto`: the reason, its length before it, and zeros up to `indexEnd`. -/
def packReason (b : Bye) (indexEnd : Nat) (st : PackState) : PackState :=
  if b.reason.isEmpty then st
  else
    let reasonLength := UInt8.ofNat b.reason.length
    let st := st.write [reasonLength]
    let st := st.put (b.reason.take reasonLength.toNat) reasonLength.toNat
    let bytesToPad := indexEnd - st.index
    if 0 < bytesToPad then st.put (List.replicate bytesToPad 0) bytesToPad else st

/-- `PackInto` after its first loop. -/
def packBody (b : Bye) (st : PackState) : Bool × PackState :=
  let indexEnd := st.index + b.packetSize
  let st := st.write (packCommonHeader (1 + b.csrcs.length) kPacketType
    (b.packetSize - kRtcpCommonHeaderSize) false)
  let st := st.write (writeBigEndian 4 b.senderSsrc.toNat)
  let st := b.csrcs.foldl (fun st csrc => st.write (writeBigEndian 4 csrc.toNat)) st
  (true, b.packReason indexEnd st)

/-- `PackInto(buffer, index, max_size, callback)`. -/
def packInto (b : Bye) : Bool → Nat → Nat → PackState → Packed :=
  packUnsplit b.packetSize b.packBody

/-- The reason to leave, with its length before it and zeros after it. -/
def reasonBytes (b : Bye) : List UInt8 :=
  if b.reason.isEmpty then []
  else [UInt8.ofNat b.reason.length] ++ b.reason ++ List.replicate (3 - b.reason.length % 4) 0

/-- The packet on the wire. -/
def bytes (b : Bye) : List UInt8 :=
  packCommonHeader (1 + b.csrcs.length) kPacketType (b.packetSize - kRtcpCommonHeaderSize) false ++
    writeBigEndian 4 b.senderSsrc.toNat ++
    b.csrcs.flatMap (fun csrc => writeBigEndian 4 csrc.toNat) ++ b.reasonBytes

theorem length_csrcs (csrcs : List U32) :
    (csrcs.flatMap (fun csrc => writeBigEndian 4 csrc.toNat)).length = 4 * csrcs.length :=
  length_flatMap_of_length (fun _ => length_writeBigEndian 4 _) csrcs

theorem length_bytes (b : Bye) : b.bytes.length = b.packetSize := by
  rw [bytes, List.length_append, List.length_append, List.length_append, length_packCommonHeader,
    length_writeBigEndian, length_csrcs, packetSize, reasonBytes, kRtcpCommonHeaderSize]
  split_ifs with hreason
  · rw [List.length_nil]
    omega
  · simp only [List.length_append, List.length_singleton, List.length_replicate]
    omega

theorem packReason_eq (b : Bye) {indexEnd : Nat} {st : PackState}
    (h : st.index ≤ st.buffer.length) (hend : st.index + b.reasonBytes.length = indexEnd) :
    b.packReason indexEnd st = st.write b.reasonBytes := by
  unfold packReason reasonBytes at *
  by_cases hempty : b.reason.isEmpty
  · rw [if_pos hempty, if_pos hempty, write_nil]
  · have hbyte : (UInt8.ofNat b.reason.length).toNat = b.reason.length :=
      UInt8.toNat_ofNat_of_lt (Nat.lt_succ_of_le b.reason_le)
    rw [if_neg hempty, List.length_append, List.length_append, List.length_singleton,
      List.length_replicate] at hend
    rw [if_neg hempty, if_neg hempty]
    dsimp only
    rw [hbyte, List.take_length, put_length, write_write h, index_write, List.length_append,
      List.length_singleton]
    have hpad : indexEnd - (st.index + (1 + b.reason.length)) = 3 - b.reason.length % 4 := by omega
    rw [hpad]
    by_cases hpos : 0 < 3 - b.reason.length % 4
    · rw [if_pos hpos, put_eq_write _ (List.length_replicate ..), write_write h]
    · have hzero : 3 - b.reason.length % 4 = 0 := by omega
      rw [if_neg hpos, hzero, List.replicate_zero, List.append_nil]

theorem packBody_eq (b : Bye) {st : PackState} (h : st.index ≤ st.buffer.length) :
    b.packBody st = (true, st.write b.bytes) := by
  have hlength := b.length_bytes
  unfold packBody
  dsimp only
  rw [bytes, List.length_append] at hlength
  rw [write_write h, foldl_write (fun _ _ _ _ => rfl) (index_write_le h), write_write h,
    b.packReason_eq (index_write_le h), write_write h, bytes]
  rw [index_write]
  omega

theorem packsAs (b : Bye) (hasCallback : Bool) (maxSize : Nat) :
    PacksAs (b.packInto hasCallback maxSize) maxSize 2
      (nextIndex hasCallback maxSize b.packetSize) (· = [b.bytes]) :=
  packUnsplit_spec hasCallback b.length_bytes (fun st h => b.packBody_eq (by omega))

end Bye

end NaiveRtc.Rtcp
