import NaiveRtc.Rtcp.BlockHeader
import NaiveRtc.Rtcp.ExtendedReports

/-!
# Parsers of received blocks

The `Parse` functions of the packets under `rtc/rtp_rtcp/rtcp/packets`, as programs that read
the block where it lies in memory.  Each is followed by the one fact the receiver needs of it:
whatever the block says of itself, the program reads inside its payload.

* `BlockHeader.Reads` — a program reads only the payload of a block.
* `SenderReport.parse`, `ReceiverReport.parse`, `Sdes.parse`, `Bye.parse` — reports and sources.
* `ExtendedReports.parse` — the extended reports with their blocks.
-/

namespace NaiveRtc.Rtcp

open ByteIo Reading

variable {start : Nat}

/-- Whatever the memory holds, a run reads only the payload of the block. -/
def BlockHeader.Reads {α : Type} (h : BlockHeader start) (x : Reading α) : Prop :=
  ∀ mem, x.Safe mem h.payload (h.payload + h.payloadSize) fun _ => True

/-- `NtpTime::Set(seconds, fractions)`. -/
def NtpTime.set (seconds fractions : U32) : NtpTime :=
  ⟨BitVec.ofNat 64 (seconds.toNat * 0x100000000 + fractions.toNat)⟩

/-! ## Reports -/

/-- `ReportBlock::Parse(buffer, size)`; both callers pass `kFixedReportBlockSize`, so that the
check of the size succeeds. -/
def ReportBlock.parse (buffer : Nat) : Reading ReportBlock := do
  let sourceSsrc ← readU32 buffer
  let fractionLost ← byte (buffer + 4)
  let cumulativePacketLost ← readInt 3 (buffer + 5)
  let extendedHighestSeqNum ← readU32 (buffer + 8)
  let jitter ← readU32 (buffer + 12)
  let lastSrNtpTimestamp ← readU32 (buffer + 16)
  let delaySinceLastSr ← readU32 (buffer + 20)
  pure {
    sourceSsrc, fractionLost, cumulativePacketLost, extendedHighestSeqNum, jitter,
    lastSrNtpTimestamp, delaySinceLastSr }

theorem ReportBlock.safe_parse {mem : Nat → UInt8} {low high buffer : Nat} (hlow : low ≤ buffer)
    (hhigh : buffer + kFixedReportBlockSize ≤ high) :
    (ReportBlock.parse buffer).Safe mem low high fun _ => True := by
  unfold kFixedReportBlockSize at hhigh
  unfold ReportBlock.parse
  simp only [safe_bind, safe_readU32, safe_byte, safe_readInt (Nat.succ_pos 2), safe_pure, and_true]
  omega

/-- The loop over the report blocks of both reports, from `next_block` on. -/
def parseReportBlocks (nextBlock count : Nat) : Reading (List.Vector ReportBlock count) :=
  collect (fun i => ReportBlock.parse (nextBlock + i * ReportBlock.kFixedReportBlockSize)) count

theorem safe_parseReportBlocks {mem : Nat → UInt8} {low high nextBlock count : Nat}
    {post : List.Vector ReportBlock count → Prop} (hlow : low ≤ nextBlock)
    (hhigh : nextBlock + count * ReportBlock.kFixedReportBlockSize ≤ high)
    (hpost : post ((parseReportBlocks nextBlock count).value mem)) :
    (parseReportBlocks nextBlock count).Safe mem low high post := by
  refine safe_collect (fun i hi => ReportBlock.safe_parse (by omega) ?_) hpost
  have hnext : (i + 1) * ReportBlock.kFixedReportBlockSize ≤
      count * ReportBlock.kFixedReportBlockSize := Nat.mul_le_mul_right _ hi
  rw [Nat.succ_mul] at hnext
  omega

namespace SenderReport

/-- `Parse(packet)`; `none` is `false`. -/
def parse (h : BlockHeader start) : Reading (Option SenderReport) :=
  let reportBlockCount := h.countOrFmt.toNat
  if h.packetType.toNat ≠ kPacketType then pure none
  else if h.payloadSize < kSenderReportBaseSize +
      reportBlockCount * ReportBlock.kFixedReportBlockSize then pure none
  else do
    let senderSsrc ← readU32 h.payload
    let secs ← readU32 (h.payload + 4)
    let frac ← readU32 (h.payload + 8)
    let rtpTimestamp ← readU32 (h.payload + 12)
    let senderPacketCount ← readU32 (h.payload + 16)
    let senderOctetCount ← readU32 (h.payload + 20)
    let blocks ← parseReportBlocks (h.payload + kSenderReportBaseSize) reportBlockCount
    pure (some {
      senderSsrc, rtpTimestamp, senderPacketCount, senderOctetCount
      ntp := NtpTime.set secs frac
      reportBlocks := blocks.toList
      blocks_le := by rw [List.Vector.toList_length]; exact h.count_le })

theorem reads_parse (h : BlockHeader start) : h.Reads (parse h) := by
  intro mem
  unfold parse
  simp only [safe_ite, safe_bind, safe_readU32, safe_pure]
  unfold kSenderReportBaseSize
  refine ⟨fun _ => trivial, fun _ => ⟨fun _ => trivial, fun hsize => ?_⟩⟩
  refine ⟨by omega, by omega, by omega, by omega, by omega, by omega, ?_⟩
  exact safe_parseReportBlocks (by omega) (by omega) trivial

end SenderReport

namespace ReceiverReport

/-- `Parse(packet)`; `none` is `false`. -/
def parse (h : BlockHeader start) : Reading (Option ReceiverReport) :=
  let reportBlockCount := h.countOrFmt.toNat
  if h.packetType.toNat ≠ kPacketType then pure none
  else if h.payloadSize < kReceiverReportBaseSize +
      reportBlockCount * ReportBlock.kFixedReportBlockSize then pure none
  else do
    let senderSsrc ← readU32 h.payload
    let blocks ← parseReportBlocks (h.payload + kReceiverReportBaseSize) reportBlockCount
    pure (some {
      senderSsrc
      reportBlocks := blocks.toList
      blocks_le := by rw [List.Vector.toList_length]; exact h.count_le })

theorem reads_parse (h : BlockHeader start) : h.Reads (parse h) := by
  intro mem
  unfold parse
  simp only [safe_ite, safe_bind, safe_readU32, safe_pure]
  unfold kReceiverReportBaseSize
  refine ⟨fun _ => trivial, fun _ => ⟨fun _ => trivial, fun hsize => ⟨by omega, ?_⟩⟩⟩
  exact safe_parseReportBlocks (by omega) (by omega) trivial

end ReceiverReport

/-! ## Source descriptions -/

/-- The difference of two `size_t`. -/
def sizeSub (a b : Nat) : Nat := (a + 2 ^ 64 - b) % 2 ^ 64

theorem sizeSub_eq {a b : Nat} (hle : b ≤ a) (ha : a < 2 ^ 64) : sizeSub a b = a - b := by
  unfold sizeSub
  omega

namespace Sdes

/-- `kTerminatorTag`. -/
def kTerminatorTag : UInt8 := 0
/-- `kTerminatorSize`. -/
def kTerminatorSize : Nat := 1
/-- `kChunkBaseSize`. -/
def kChunkBaseSize : Nat := 8

/-- A `cname` of a chunk that was read: its length was one byte. -/
abbrev Cname : Type := { cname : List UInt8 // cname.length ≤ 0xFF }

/-- The loop of `Parse` over the items of a chunk, from `index` on: the index behind the
terminator, and the CNAME found; `none` leaves `Parse` with `false`. -/
def parseItems (payloadBuffer payloadSize index : Nat) (cname : Option Cname) :
    Reading (Option (Nat × Option Cname)) := do
  let itemType ← byte (payloadBuffer + index)
  if itemType = kTerminatorTag then pure (some (index + 1, cname))
  else if payloadSize ≤ index + 1 then pure none
  else
    let itemLength ← byte (payloadBuffer + (index + 1))
    if payloadSize < index + 2 + itemLength.toNat + kTerminatorSize then pure none
    else if itemType = SdesChunk.kCNameTag then
      if cname.isSome then pure none
      else
        let name ← Reading.bytes (payloadBuffer + (index + 2)) itemLength.toNat
        let found : Cname := ⟨name.toList, by
          rw [List.Vector.toList_length]
          exact Nat.le_of_lt_succ itemLength.toNat_lt⟩
        parseItems payloadBuffer payloadSize (index + 2 + itemLength.toNat) (some found)
    else parseItems payloadBuffer payloadSize (index + 2 + itemLength.toNat) cname
termination_by payloadSize - index

theorem safe_parseItems {mem : Nat → UInt8} {payloadBuffer payloadSize index : Nat}
    {cname : Option Cname} (hindex : index < payloadSize) :
    (parseItems payloadBuffer payloadSize index cname).Safe mem payloadBuffer
      (payloadBuffer + payloadSize) fun result =>
        ∀ next cname, result = some (next, cname) → next ≤ payloadSize := by
  induction hn : payloadSize - index using Nat.strong_induction_on generalizing index cname with
  | _ n ih =>
    rw [parseItems]
    simp only [safe_bind, safe_byte, safe_ite, safe_pure, safe_bytes]
    refine ⟨by omega, fun _ next _ heq => ?_, fun _ => ⟨fun _ => by simp, fun hlength => ?_⟩⟩
    · obtain ⟨rfl, -⟩ := Prod.mk.inj (Option.some.inj heq)
      exact hindex
    · refine ⟨by omega, fun _ => by simp, fun hitem => ?_⟩
      unfold kTerminatorSize at hitem
      refine ⟨fun _ => ⟨fun _ => by simp, fun _ => ⟨fun i hi => by omega, ?_⟩⟩, fun _ => ?_⟩
      · exact ih _ (by omega) (by omega) rfl
      · exact ih _ (by omega) (by omega) rfl

/-- The loop of `Parse` over the chunks: a chunk without CNAME is dropped, and
`number_of_chunks` counts one less. -/
def parseChunks (payloadBuffer payloadSize count : Nat) :
    (remaining index : Nat) → (chunks : List SdesChunk) → chunks.length + remaining ≤ count →
      Reading (Option { chunks : List SdesChunk // chunks.length ≤ count })
  | 0, _, chunks, hcount => pure (some ⟨chunks, hcount⟩)
  | remaining + 1, index, chunks, hcount =>
    -- each chunk consumes at least 8 bytes
    if sizeSub payloadSize index < kChunkBaseSize then pure none
    else do
      let ssrc ← readU32 (payloadBuffer + index)
      let items ← parseItems payloadBuffer payloadSize (index + 4) none
      match items with
      | none => pure none
      | some (index, none) =>
        parseChunks payloadBuffer payloadSize count remaining
          (index + sizeSub payloadSize index % 4) chunks (by omega)
      | some (index, some cname) =>
        parseChunks payloadBuffer payloadSize count remaining
          (index + sizeSub payloadSize index % 4) (chunks ++ [⟨ssrc, cname.1, cname.2⟩])
          (by rw [List.length_append, List.length_singleton]; omega)

theorem safe_parseChunks {mem : Nat → UInt8} {payloadBuffer payloadSize count remaining index : Nat}
    {chunks : List SdesChunk} {hcount : chunks.length + remaining ≤ count}
    (hindex : index ≤ payloadSize) (hsize : payloadSize < 2 ^ 32) :
    (parseChunks payloadBuffer payloadSize count remaining index chunks hcount).Safe mem
      payloadBuffer (payloadBuffer + payloadSize) fun _ => True := by
  induction remaining generalizing index chunks with
  | zero => exact safe_pure.2 trivial
  | succ remaining ih =>
    rw [parseChunks]
    simp only [safe_ite, safe_bind, safe_readU32, safe_pure]
    rw [sizeSub_eq hindex (by omega), kChunkBaseSize]
    refine ⟨fun _ => trivial, fun hroom => ⟨by omega, ?_⟩⟩
    refine (safe_parseItems (by omega)).imp fun result hresult => ?_
    rcases result with _ | ⟨next, cname⟩
    · exact safe_pure.2 trivial
    · have hnext := hresult next cname rfl
      have hpadded : next + sizeSub payloadSize next % 4 ≤ payloadSize := by
        rw [sizeSub_eq hnext (by omega)]
        omega
      cases cname with
      | none => exact ih hpadded
      | some cname => exact ih hpadded

/-- `Parse(packet)`; `none` is `false`.  `packet_size_` is summed over the chunks that are kept. -/
def parse (h : BlockHeader start) : Reading (Option Sdes) :=
  if h.packetType.toNat ≠ kPacketType then pure none
  else if h.payloadSize % 4 ≠ 0 then pure none
  else do
    let chunks ← parseChunks h.payload h.payloadSize h.countOrFmt.toNat h.countOrFmt.toNat 0 []
      (by simp)
    pure (chunks.map fun chunks =>
      { chunks := chunks.1
        packetSize := kRtcpCommonHeaderSize + (chunks.1.map SdesChunk.calculateChunkSize).sum
        chunks_le := le_trans chunks.2 h.count_le
        size_eq := rfl })

theorem reads_parse (h : BlockHeader start) : h.Reads (parse h) := by
  intro mem
  unfold parse
  simp only [safe_ite, safe_bind, safe_pure]
  exact ⟨fun _ => trivial, fun _ => ⟨fun _ => trivial,
    fun _ => safe_parseChunks (Nat.zero_le _) h.size_lt⟩⟩

end Sdes

/-! ## Goodbyes -/

namespace Bye

/-- The sources of a goodbye: the first is the sender's, the others are the CSRCs. -/
def parseSources (payload srcCount : Nat) : Reading (U32 × List.Vector U32 (srcCount - 1)) := do
  let senderSsrc ← (if srcCount = 0 then pure 0 else readU32 payload : Reading U32)
  let csrcs ← collect (fun i => readU32 (payload + 4 * (i + 1))) (srcCount - 1)
  pure (senderSsrc, csrcs)

theorem safe_parseSources {mem : Nat → UInt8} {low high payload srcCount : Nat}
    {post : U32 × List.Vector U32 (srcCount - 1) → Prop} (hlow : low ≤ payload)
    (hhigh : payload + 4 * srcCount ≤ high)
    (hpost : post ((parseSources payload srcCount).value mem)) :
    (parseSources payload srcCount).Safe mem low high post := by
  unfold parseSources at hpost ⊢
  have hcsrcs : ∀ i < srcCount - 1,
      (readU32 (payload + 4 * (i + 1))).Safe mem low high fun _ => True :=
    fun i hi => safe_readU32.2 ⟨by omega, trivial⟩
  rw [value_bind, value_bind, value_pure, value_ite] at hpost
  simp only [safe_bind, safe_ite, safe_pure, safe_readU32]
  refine ⟨fun hzero => safe_collect hcsrcs ?_, fun hzero => ⟨by omega, safe_collect hcsrcs ?_⟩⟩
  · rwa [if_pos hzero] at hpost
  · rwa [if_neg hzero] at hpost

/-- `Parse(packet)`; `none` is `false`. -/
def parse (h : BlockHeader start) : Reading (Option Bye) :=
  let srcCount := h.countOrFmt.toNat
  have hcsrcs (csrcs : List.Vector U32 (srcCount - 1)) :
      csrcs.toList.length ≤ kMaxNumberOfByeCsrcs := by
    rw [List.Vector.toList_length]
    exact Nat.sub_le_sub_right h.count_le 1
  if h.packetType.toNat ≠ kPacketType then pure none
  else if h.payloadSize < 4 * srcCount then pure none
  else if h.payloadSize > 4 * srcCount then do
    let reasonLength ← byte (h.payload + 4 * srcCount)
    if sizeSub h.payloadSize (4 * srcCount) < 1 + reasonLength.toNat then pure none
    else
      let sources ← parseSources h.payload srcCount
      let reason ← Reading.bytes (h.payload + (4 * srcCount + 1)) reasonLength.toNat
      pure (some {
        senderSsrc := sources.1
        csrcs := sources.2.toList
        reason := reason.toList
        csrcs_le := hcsrcs sources.2
        reason_le := by
          rw [List.Vector.toList_length]
          exact Nat.le_of_lt_succ reasonLength.toNat_lt })
  else do
    let sources ← parseSources h.payload srcCount
    pure (some {
      senderSsrc := sources.1
      csrcs := sources.2.toList
      reason := []
      csrcs_le := hcsrcs sources.2
      reason_le := Nat.zero_le _ })

theorem reads_parse (h : BlockHeader start) : h.Reads (parse h) := by
  intro mem
  have hsize := h.size_lt
  unfold parse
  simp only [safe_ite, safe_bind, safe_pure, safe_byte, safe_bytes]
  refine ⟨fun _ => trivial, fun _ => ⟨fun _ => trivial, fun hsources => ⟨fun hreason => ?_, ?_⟩⟩⟩
  · refine ⟨by omega, fun _ => trivial, fun hlength => ?_⟩
    rw [sizeSub_eq (by omega) (by omega)] at hlength
    exact safe_parseSources (le_refl _) (by omega) ⟨fun i hi => by omega, trivial⟩
  · exact fun _ => safe_parseSources (le_refl _) (by omega) trivial

end Bye

/-! ## Extended reports -/

/-- `Rrtr::Parse(buffer, size)`; `none` is `false`. -/
def Rrtr.parse (buffer size : Nat) : Reading (Option Rrtr) :=
  if size < 12 then pure none
  else do
    let blockType ← byte buffer
    if blockType ≠ kBlockType then pure none
    else
      let seconds ← readU32 (buffer + 4)
      let fractions ← readU32 (buffer + 8)
      pure (some ⟨NtpTime.set seconds fractions⟩)

/-- `Dlrr::Parse(buffer, size)`; `none` is `false`, and leaves the time infos as they were. -/
def Dlrr.parse (buffer size : Nat) : Reading (Option Dlrr) :=
  if size < kBlockHeaderSize then pure none
  else do
    let blockType ← byte buffer
    if blockType ≠ kBlockType then pure none
    else
      let itemsCount ← readU16 (buffer + 2)
      if itemsCount.toNat % 3 ≠ 0 then pure none
      else if kBlockHeaderSize + itemsCount.toNat * 4 > size then pure none
      else
        let timeInfos ← collect (fun i => do
          let readAt := buffer + kBlockHeaderSize + i * kTimeInfoSize
          let ssrc ← readU32 readAt
          let lastRr ← readU32 (readAt + 4)
          let delaySinceLastRr ← readU32 (readAt + 8)
          pure ⟨ssrc, lastRr, delaySinceLastRr⟩) (itemsCount.toNat / 3)
        pure (some ⟨timeInfos.toList⟩)

/-- `TargetBitrate::Parse(buffer, size)`; `none` is `false`. -/
def TargetBitrate.parse (buffer size : Nat) : Reading (Option TargetBitrate) := do
  let blockType ← byte buffer
  if blockType ≠ kBlockType then pure none
  else if size < kBlockHeaderSize then pure none
  else
    let itemCount ← readU16 (buffer + 2)
    if size < itemCount.toNat * 4 + kBlockHeaderSize then pure none
    else
      let bitrates ← collect (fun i => do
        let offset := buffer + kBlockHeaderSize + i * kBitrateItemSize
        let layers ← byte offset
        let bitrateKbps ← readUnsigned 3 (offset + 1)
        pure ⟨(layers >>> 4) &&& 0x0F, layers &&& 0x0F, BitVec.ofNat 32 bitrateKbps⟩)
          itemCount.toNat
      pure (some ⟨bitrates.toList⟩)

section

variable {mem : Nat → UInt8} {low high buffer size : Nat}

theorem Rrtr.safe_parse (hlow : low ≤ buffer) (hhigh : buffer + size ≤ high) :
    (Rrtr.parse buffer size).Safe mem low high fun _ => True := by
  unfold Rrtr.parse
  simp only [safe_ite, safe_bind, safe_byte, safe_readU32, safe_pure, implies_true, true_and,
    and_true]
  omega

theorem Dlrr.safe_parse (hlow : low ≤ buffer) (hhigh : buffer + size ≤ high) :
    (Dlrr.parse buffer size).Safe mem low high fun _ => True := by
  unfold Dlrr.parse
  simp only [safe_ite, safe_bind, safe_byte, safe_readU16, safe_pure]
  unfold kBlockHeaderSize
  refine ⟨fun _ => trivial, fun hsize => ⟨by omega, fun _ => trivial, fun _ => ⟨by omega, ?_⟩⟩⟩
  refine ⟨fun _ => trivial, fun _ => ⟨fun _ => trivial, fun hroom => ?_⟩⟩
  refine safe_collect (fun i hi => ?_) trivial
  unfold kTimeInfoSize
  simp only [safe_bind, safe_readU32, safe_pure, and_true]
  omega

theorem TargetBitrate.safe_parse (hlow : low ≤ buffer) (hhigh : buffer + size ≤ high)
    (hsize : kBlockHeaderSize ≤ size) :
    (TargetBitrate.parse buffer size).Safe mem low high fun _ => True := by
  unfold TargetBitrate.parse
  simp only [safe_ite, safe_bind, safe_byte, safe_readU16, safe_pure]
  unfold kBlockHeaderSize at hsize ⊢
  refine ⟨by omega, fun _ => trivial, fun _ => ⟨fun _ => trivial, fun _ => ⟨by omega, ?_⟩⟩⟩
  refine ⟨fun _ => trivial, fun hroom => safe_collect (fun i hi => ?_) trivial⟩
  unfold kBitrateItemSize
  simp only [safe_bind, safe_byte, safe_readUnsigned (Nat.succ_pos 2), safe_pure, and_true]
  omega

end

namespace ExtendedReports

/-- `kBlockHeaderSize` of `Parse`. -/
def kBlockHeaderSize : Nat := 4

/-- The `switch` of `Parse` over the type of a report block: `ParseRrtrBlock`, `ParseDlrrBlock`
and `ParseTaragetBitrateBlock`.  A block that is refused still replaces the RRTR, and the target
bitrate, by an empty one. -/
def parseReportBlock (x : ExtendedReports) (blockType : UInt8) (currBlock blockSize : Nat) :
    Reading ExtendedReports :=
  if blockType = Rrtr.kBlockType then do
    let rrtr ← Rrtr.parse currBlock blockSize
    pure { x with rrtrBlock := some (rrtr.getD ⟨⟨0⟩⟩) }
  else if blockType = Dlrr.kBlockType then do
    let dlrr ← Dlrr.parse currBlock blockSize
    pure { x with dlrrBlock := dlrr.getD x.dlrrBlock }
  else if blockType = TargetBitrate.kBlockType then do
    let targetBitrate ← TargetBitrate.parse currBlock blockSize
    pure { x with targetBitrate := some (targetBitrate.getD ⟨[]⟩) }
  else pure x

/-- The loop of `Parse` over the report blocks. -/
def parseReportBlocks (packetEnd currBlock : Nat) (x : ExtendedReports) :
    Reading (Option ExtendedReports) :=
  if packetEnd < currBlock + kBlockHeaderSize then pure (some x)
  else do
    let blockType ← byte currBlock
    let blockSizeWords ← readU16 (currBlock + 2)
    let blockSize := kBlockHeaderSize + blockSizeWords.toNat * 4
    if currBlock + blockSize > packetEnd then pure none
    else
      let x ← parseReportBlock x blockType currBlock blockSize
      parseReportBlocks packetEnd (currBlock + blockSize) x
termination_by packetEnd - currBlock
decreasing_by
  unfold kBlockHeaderSize at *
  omega

theorem safe_parseReportBlock {mem : Nat → UInt8} {low high currBlock blockSize : Nat}
    (x : ExtendedReports) (blockType : UInt8) (hlow : low ≤ currBlock)
    (hhigh : currBlock + blockSize ≤ high) (hsize : kBlockHeaderSize ≤ blockSize) :
    (parseReportBlock x blockType currBlock blockSize).Safe mem low high fun _ => True := by
  unfold parseReportBlock
  simp only [safe_ite, safe_bind, safe_pure]
  refine ⟨fun _ => Rrtr.safe_parse hlow hhigh, fun _ => ⟨fun _ => Dlrr.safe_parse hlow hhigh,
    fun _ => ⟨fun _ => TargetBitrate.safe_parse hlow hhigh hsize, fun _ => trivial⟩⟩⟩

theorem safe_parseReportBlocks {mem : Nat → UInt8} {low packetEnd currBlock : Nat}
    (x : ExtendedReports) (hlow : low ≤ currBlock) :
    (parseReportBlocks packetEnd currBlock x).Safe mem low packetEnd fun _ => True := by
  induction hn : packetEnd - currBlock using Nat.strong_induction_on generalizing currBlock x with
  | _ n ih =>
    rw [parseReportBlocks]
    simp only [safe_ite, safe_bind, safe_byte, safe_readU16, safe_pure]
    have hfour : kBlockHeaderSize = 4 := rfl
    refine ⟨fun _ => trivial, fun hhead => ⟨by omega, by omega, fun _ => trivial, fun hroom => ?_⟩⟩
    refine (safe_parseReportBlock x _ hlow (by omega) (by omega)).imp fun x _ => ?_
    exact ih _ (by omega) x (by omega) rfl

/-- `Parse(packet)`; `none` is `false`. -/
def parse (h : BlockHeader start) : Reading (Option ExtendedReports) :=
  if h.packetType.toNat ≠ kPacketType then pure none
  else if h.payloadSize < kXrBaseSize then pure none
  else do
    let senderSsrc ← readU32 h.payload
    parseReportBlocks (h.payload + h.payloadSize) (h.payload + kXrBaseSize)
      { senderSsrc, rrtrBlock := none, dlrrBlock := ⟨[]⟩, targetBitrate := none }

theorem reads_parse (h : BlockHeader start) : h.Reads (parse h) := by
  intro mem
  unfold parse
  simp only [safe_ite, safe_bind, safe_pure, safe_readU32]
  unfold kXrBaseSize
  exact ⟨fun _ => trivial, fun _ => ⟨fun _ => trivial,
    fun hsize => ⟨by omega, safe_parseReportBlocks _ (by omega)⟩⟩⟩

end ExtendedReports

end NaiveRtc.Rtcp
