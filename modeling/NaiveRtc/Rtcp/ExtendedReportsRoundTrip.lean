import NaiveRtc.Rtcp.BlockParsers
import NaiveRtc.Rtcp.HeldBytes
import NaiveRtc.Rtcp.RtcpSender

/-!
# Extended reports, read back

`ExtendedReports::Parse` of `rtc/rtp_rtcp/rtcp/packets/extended_reports.cpp` on what `PackInto`
wrote, and on any other bytes.

* `Rrtr.parse_held`, `Dlrr.parse_held`, `TargetBitrate.parse_held` — each block is read back.
* `Encodable`, `readPacket_bytes` — the packet is.
* `XrBlock`, `xrBlocks`, `parse_eq` — the blocks of a payload, and what the parser makes of them.
* `Faithful` — what is reported comes of a block that its own parser accepts.
* `codec_iff` — **the round trip, and when a parsed packet is faithful**.
-/

namespace NaiveRtc.Rtcp

open ByteIo Reading

section Blocks

variable {mem : Nat → UInt8} {start : Nat}

theorem NtpTime.set_halves (t : NtpTime) : NtpTime.set t.seconds t.fractions = t := by
  have hlt := t.value.isLt
  have hseconds : t.seconds.toNat = t.value.toNat / 2 ^ 32 := by
    unfold NtpTime.seconds
    rw [BitVec.toNat_setWidth, BitVec.toNat_ushiftRight, Nat.shiftRight_eq_div_pow]
    omega
  have hfractions : t.fractions.toNat = t.value.toNat % 2 ^ 32 := BitVec.toNat_setWidth 32 _
  unfold NtpTime.set
  rw [hseconds, hfractions, NtpTime.mk.injEq]
  refine BitVec.eq_of_toNat_eq ?_
  rw [BitVec.toNat_ofNat]
  omega

theorem Rrtr.parse_held {r : Rrtr} (h : HeldAt mem start r.bytes) :
    (Rrtr.parse start r.blockSize).value mem = some r := by
  unfold Rrtr.bytes at h
  simp only [heldAt_append, heldAt_singleton, List.length_append, List.length_singleton,
    length_writeBigEndian, Nat.reduceAdd] at h
  obtain ⟨⟨⟨⟨htype, -⟩, -⟩, hseconds⟩, hfractions⟩ := h
  unfold Rrtr.parse
  rw [if_neg (show ¬ r.blockSize < 12 from Nat.lt_irrefl 12)]
  simp only [value_bind, value_byte, value_pure, htype, hseconds.readU32, hfractions.readU32,
    NtpTime.set_halves, ne_eq, not_true_eq_false, if_false]

theorem TimeInfo.parse_held {t : TimeInfo} (h : HeldAt mem start t.bytes) :
    (readU32 start).value mem = t.ssrc ∧ (readU32 (start + 4)).value mem = t.lastRr ∧
      (readU32 (start + 8)).value mem = t.delaySinceLastRr := by
  unfold TimeInfo.bytes at h
  simp only [heldAt_append, List.length_append, length_writeBigEndian, Nat.reduceAdd] at h
  exact ⟨h.1.1.readU32, h.1.2.readU32, h.2.readU32⟩

theorem TimeInfo.length_bytes (t : TimeInfo) : t.bytes.length = Dlrr.kTimeInfoSize := by
  simp [TimeInfo.bytes, Dlrr.kTimeInfoSize]

theorem Dlrr.parse_held {d : Dlrr} (hne : d.timeInfos.isEmpty = false)
    (hcount : 3 * d.timeInfos.length < 2 ^ 16) (h : HeldAt mem start d.bytes) :
    (Dlrr.parse start d.blockSize).value mem = some d := by
  have hsize : d.blockSize = kBlockHeaderSize + kTimeInfoSize * d.timeInfos.length := by
    unfold Dlrr.blockSize
    rw [hne]
    rfl
  unfold Dlrr.bytes at h
  rw [hne] at h
  simp only [Bool.false_eq_true, if_false, heldAt_append, heldAt_singleton, List.length_append,
    List.length_singleton, length_writeBigEndian, Nat.reduceAdd] at h
  obtain ⟨⟨⟨htype, -⟩, hitems⟩, hinfos⟩ := h
  have hwords : ((readU16 (start + 2)).value mem).toNat = 3 * d.timeInfos.length := by
    rw [hitems.readU16, Nat.mod_eq_of_lt hcount]
  unfold Dlrr.parse
  rw [if_neg (show ¬ d.blockSize < kBlockHeaderSize by omega)]
  simp only [value_bind, value_byte, value_ite, value_pure, htype, ne_eq, not_true_eq_false,
    if_false]
  rw [if_neg (by omega), if_neg (by rw [hsize]; unfold kTimeInfoSize; omega)]
  refine congrArg (fun infos => some (Dlrr.mk infos))
    (hinfos.collect TimeInfo.length_bytes (by omega) fun i t _ hheld => ?_)
  obtain ⟨hssrc, hlast, hdelay⟩ := TimeInfo.parse_held hheld
  have hplace : start + kBlockHeaderSize + i * kTimeInfoSize = start + 4 + i * kTimeInfoSize := rfl
  simp only [value_bind, value_pure, hplace, hssrc, hlast, hdelay]

/-- The layers and the rate of an item fit in their bits. -/
def BitrateItem.Fits (item : BitrateItem) : Prop :=
  item.spatialLayer ≤ 15 ∧ item.temporalLayer ≤ 15 ∧ item.targetBitrateKbps.toNat < 2 ^ 24

theorem TargetBitrate.length_itemBytes (item : BitrateItem) :
    (itemBytes item).length = kBitrateItemSize := by
  simp [itemBytes, kBitrateItemSize]

theorem layers_eq {spatial temporal : UInt8} (hspatial : spatial ≤ 15) (htemporal : temporal ≤ 15) :
    (((spatial <<< 4) ||| temporal) >>> 4) &&& 0x0F = spatial ∧
      ((spatial <<< 4) ||| temporal) &&& 0x0F = temporal := by
  have hall : ∀ s t : Fin 16,
      (((UInt8.ofNat s <<< 4) ||| UInt8.ofNat t) >>> 4) &&& 0x0F = UInt8.ofNat s ∧
        ((UInt8.ofNat s <<< 4) ||| UInt8.ofNat t) &&& 0x0F = UInt8.ofNat t := by
    decide +kernel
  have hs : spatial.toNat ≤ 15 := hspatial
  have ht : temporal.toNat ≤ 15 := htemporal
  have hboth := hall ⟨spatial.toNat, by omega⟩ ⟨temporal.toNat, by omega⟩
  rwa [UInt8.ofNat_toNat, UInt8.ofNat_toNat] at hboth

theorem TargetBitrate.parse_held {t : TargetBitrate} (hfits : ∀ item ∈ t.bitrates, item.Fits)
    (hcount : t.bitrates.length < 2 ^ 16) (h : HeldAt mem start t.bytes) :
    (TargetBitrate.parse start t.blockSize).value mem = some t := by
  have hsize : t.blockSize = 4 + t.bitrates.length * 4 := rfl
  have hwords : t.blockSize / 4 - 1 = t.bitrates.length := by omega
  unfold TargetBitrate.bytes at h
  simp only [hwords, heldAt_append, heldAt_singleton, List.length_append, List.length_singleton,
    length_writeBigEndian, Nat.reduceAdd] at h
  obtain ⟨⟨⟨htype, -⟩, hitems⟩, hbitrates⟩ := h
  have hitemCount : ((readU16 (start + 2)).value mem).toNat = t.bitrates.length := by
    rw [hitems.readU16, Nat.mod_eq_of_lt hcount]
  unfold TargetBitrate.parse
  simp only [value_bind, value_byte, value_ite, value_pure, htype, ne_eq, not_true_eq_false,
    if_false]
  rw [if_neg (show ¬ t.blockSize < kBlockHeaderSize by unfold kBlockHeaderSize; omega),
    if_neg (show ¬ t.blockSize < _ + kBlockHeaderSize by unfold kBlockHeaderSize; omega)]
  refine congrArg (fun bitrates => some (TargetBitrate.mk bitrates))
    (hbitrates.collect length_itemBytes hitemCount fun i item hitem hheld => ?_)
  obtain ⟨hspatial, htemporal, hrate⟩ := hfits item hitem
  obtain ⟨hspatialBits, htemporalBits⟩ := layers_eq hspatial htemporal
  unfold itemBytes at hheld
  rw [heldAt_append, heldAt_singleton, List.length_singleton] at hheld
  have hplace : start + kBlockHeaderSize + i * kBitrateItemSize =
    start + 4 + i * kBitrateItemSize := rfl
  simp only [value_bind, value_byte, value_pure, hplace, hheld.1, hheld.2.readUnsigned,
    hspatialBits, htemporalBits]
  rw [Nat.mod_eq_of_lt (by omega), BitVec.ofNat_toNat, BitVec.setWidth_eq]

end Blocks

namespace ExtendedReports

section Walk

variable {mem : Nat → UInt8} {packetEnd currBlock : Nat}

theorem parseReportBlocks_block {type : UInt8} {reserved : UInt8} {words : Nat} {body : List UInt8}
    (x : ExtendedReports)
    (h : HeldAt mem currBlock ([type] ++ [reserved] ++ writeBigEndian 2 words ++ body))
    (hbody : body.length = 4 * words) (hwords : words < 2 ^ 16)
    (hend : currBlock + (4 + 4 * words) ≤ packetEnd) :
    (parseReportBlocks packetEnd currBlock x).value mem =
      (parseReportBlocks packetEnd (currBlock + (4 + 4 * words))
        ((parseReportBlock x type currBlock (4 + 4 * words)).value mem)).value mem := by
  simp only [heldAt_append, heldAt_singleton, List.length_append, List.length_singleton,
    length_writeBigEndian, Nat.reduceAdd] at h
  obtain ⟨⟨⟨htype, -⟩, hcount⟩, -⟩ := h
  have hsize : kBlockHeaderSize + ((readU16 (currBlock + 2)).value mem).toNat * 4 =
      4 + 4 * words := by
    rw [hcount.readU16, Nat.mod_eq_of_lt hwords]
    unfold kBlockHeaderSize
    omega
  conv_lhs => rw [parseReportBlocks]
  rw [if_neg (by unfold kBlockHeaderSize; omega)]
  simp only [value_bind, value_byte, value_ite, htype, hsize]
  rw [if_neg (by omega)]

theorem parseReportBlocks_end (x : ExtendedReports) (hend : packetEnd < currBlock + 4) :
    (parseReportBlocks packetEnd currBlock x).value mem = some x := by
  rw [parseReportBlocks, if_pos (show packetEnd < currBlock + kBlockHeaderSize from hend)]
  rfl

end Walk

/-! ## The round trip -/

/-- The values that a packet can hold: no more time infos than `AddDlrrTimeInfo` takes, layers and
rates that fit in their bits, and fewer than 2^16 words in all. -/
structure Encodable (x : ExtendedReports) : Prop where
  timeInfos : x.dlrrBlock.timeInfos.length ≤ RtcpSender.kMaxNumberOfDlrrTimeInfos
  bitrates : ∀ t, x.targetBitrate = some t → ∀ item ∈ t.bitrates, item.Fits
  words : x.packetSize < 4 * 2 ^ 16

/-- What follows the common header. -/
def payloadBytes (x : ExtendedReports) : List UInt8 :=
  writeBigEndian 4 x.senderSsrc.toNat ++ ((x.rrtrBlock.map Rrtr.bytes).getD [] ++
    (x.dlrrBlock.bytes ++ (x.targetBitrate.map TargetBitrate.bytes).getD []))

theorem length_payloadBytes (x : ExtendedReports) :
    x.payloadBytes.length =
      4 + (x.rrtrBlockSize + (x.dlrrBlockSize + x.targetBitrateBlockSize)) := by
  simp only [payloadBytes, List.length_append, length_writeBigEndian, length_rrtrBytes,
    Dlrr.length_bytes, length_targetBitrateBytes]
  rfl

theorem packetSize_eq (x : ExtendedReports) : x.packetSize = 4 + x.payloadBytes.length := by
  rw [length_payloadBytes]
  unfold packetSize kRtcpCommonHeaderSize kXrBaseSize
  omega

theorem bytes_eq (x : ExtendedReports) :
    x.bytes = packCommonHeader 0 kPacketType x.payloadBytes.length false ++ x.payloadBytes := by
  have hsize : x.packetSize - kRtcpCommonHeaderSize = x.payloadBytes.length := by
    rw [packetSize_eq, kRtcpCommonHeaderSize]
    omega
  unfold bytes
  rw [hsize]
  simp only [payloadBytes, List.append_assoc]

theorem four_dvd_payload (x : ExtendedReports) : x.payloadBytes.length % 4 = 0 := by
  have hrrtr : x.rrtrBlockSize % 4 = 0 := by
    unfold rrtrBlockSize
    cases x.rrtrBlock with
    | none => rfl
    | some rrtr => exact Nat.mod_eq_zero_of_dvd ⟨3, rfl⟩
  have hdlrr : x.dlrrBlockSize % 4 = 0 := by
    unfold dlrrBlockSize Dlrr.blockSize Dlrr.kBlockHeaderSize Dlrr.kTimeInfoSize
    split <;> omega
  have htarget : x.targetBitrateBlockSize % 4 = 0 := by
    unfold targetBitrateBlockSize
    cases x.targetBitrate with
    | none => rfl
    | some t =>
      show (4 + t.bitrates.length * 4) % 4 = 0
      omega
  rw [length_payloadBytes]
  omega

section RoundTrip

variable {mem : Nat → UInt8} {at₀ packetEnd : Nat} {x : ExtendedReports}

theorem read_rrtr {r : Option Rrtr} (h : HeldAt mem at₀ ((r.map Rrtr.bytes).getD []))
    (hend : at₀ + ((r.map Rrtr.bytes).getD []).length ≤ packetEnd) (hx : x.rrtrBlock = none) :
    (parseReportBlocks packetEnd at₀ x).value mem =
      (parseReportBlocks packetEnd (at₀ + ((r.map Rrtr.bytes).getD []).length)
        { x with rrtrBlock := r }).value mem := by
  cases r with
  | none =>
    have hsame : { x with rrtrBlock := none } = x := by rw [← hx]
    rw [hsame]
    rfl
  | some r =>
    have hread : (Rrtr.parse at₀ (4 + 4 * 2)).value mem = some r := Rrtr.parse_held h
    have hparse : (parseReportBlock x Rrtr.kBlockType at₀ (4 + 4 * 2)).value mem =
        { x with rrtrBlock := some r } := by
      unfold parseReportBlock
      rw [if_pos rfl, value_bind, value_pure, hread]
      rfl
    have hlength : (((some r).map Rrtr.bytes).getD []).length = 4 + 4 * 2 := r.length_bytes
    rw [hlength] at hend ⊢
    rw [← hparse]
    refine @parseReportBlocks_block _ _ _ Rrtr.kBlockType 0 2 (writeBigEndian 4 r.ntp.seconds.toNat
      ++ writeBigEndian 4 r.ntp.fractions.toNat) x ?_ rfl (by decide) hend
    rw [← List.append_assoc]
    exact h

theorem read_dlrr {d : Dlrr} (h : HeldAt mem at₀ d.bytes) (hend : at₀ + d.bytes.length ≤ packetEnd)
    (hcount : d.timeInfos.length ≤ RtcpSender.kMaxNumberOfDlrrTimeInfos)
    (hx : x.dlrrBlock = ⟨[]⟩) :
    (parseReportBlocks packetEnd at₀ x).value mem =
      (parseReportBlocks packetEnd (at₀ + d.bytes.length) { x with dlrrBlock := d }).value mem := by
  unfold RtcpSender.kMaxNumberOfDlrrTimeInfos at hcount
  cases hempty : d.timeInfos.isEmpty with
  | true =>
    have hnil : d = ⟨[]⟩ := by
      rw [List.isEmpty_iff] at hempty
      rw [← hempty]
    have hsame : { x with dlrrBlock := d } = x := by rw [hnil, ← hx]
    have hbytes : d.bytes = [] := by
      unfold Dlrr.bytes
      rw [hempty]
      rfl
    rw [hsame, hbytes]
    rfl
  | false =>
    have hsize : d.blockSize = 4 + 4 * (3 * d.timeInfos.length) := by
      unfold Dlrr.blockSize Dlrr.kBlockHeaderSize Dlrr.kTimeInfoSize
      rw [hempty, if_neg Bool.false_ne_true]
      omega
    have hparse : (parseReportBlock x Dlrr.kBlockType at₀ d.blockSize).value mem =
        { x with dlrrBlock := d } := by
      unfold parseReportBlock
      rw [if_neg (by decide), if_pos rfl, value_bind, value_pure,
        Dlrr.parse_held hempty (by omega) h]
      rfl
    rw [d.length_bytes] at hend ⊢
    rw [← hparse, hsize]
    refine @parseReportBlocks_block _ _ _ Dlrr.kBlockType 0 _ (d.timeInfos.flatMap TimeInfo.bytes)
      x ?_ ?_ (by omega) (by omega)
    · unfold Dlrr.bytes at h
      rw [hempty] at h
      exact h
    · rw [PackState.length_flatMap_of_length TimeInfo.length_bytes]
      unfold Dlrr.kTimeInfoSize
      omega

theorem read_targetBitrate {t : Option TargetBitrate}
    (h : HeldAt mem at₀ ((t.map TargetBitrate.bytes).getD []))
    (hend : at₀ + ((t.map TargetBitrate.bytes).getD []).length ≤ packetEnd)
    (hfits : ∀ t', t = some t' → ∀ item ∈ t'.bitrates, item.Fits)
    (hcount : ∀ t', t = some t' → t'.bitrates.length < 2 ^ 16) (hx : x.targetBitrate = none) :
    (parseReportBlocks packetEnd at₀ x).value mem =
      (parseReportBlocks packetEnd (at₀ + ((t.map TargetBitrate.bytes).getD []).length)
        { x with targetBitrate := t }).value mem := by
  cases t with
  | none =>
    have hsame : { x with targetBitrate := none } = x := by rw [← hx]
    rw [hsame]
    rfl
  | some t =>
    have hsize : t.blockSize = 4 + 4 * t.bitrates.length := by
      unfold TargetBitrate.blockSize TargetBitrate.kBlockHeaderSize TargetBitrate.kBitrateItemSize
      omega
    have hparse : (parseReportBlock x TargetBitrate.kBlockType at₀ t.blockSize).value mem =
        { x with targetBitrate := some t } := by
      unfold parseReportBlock
      rw [if_neg (by decide), if_neg (by decide), if_pos rfl, value_bind, value_pure,
        TargetBitrate.parse_held (hfits t rfl) (hcount t rfl) h]
      rfl
    have hlength : (((some t).map TargetBitrate.bytes).getD []).length = t.blockSize :=
      t.length_bytes
    rw [hlength] at hend ⊢
    rw [← hparse, hsize]
    refine @parseReportBlocks_block _ _ _ TargetBitrate.kBlockType 0 _
      (t.bitrates.flatMap TargetBitrate.itemBytes) x ?_ ?_ (hcount t rfl) (by omega)
    · have hbytes : HeldAt mem at₀ t.bytes := h
      unfold TargetBitrate.bytes at hbytes
      have hwords : t.blockSize / 4 - 1 = t.bitrates.length := by omega
      rwa [hwords] at hbytes
    · exact PackState.length_flatMap_of_length TargetBitrate.length_itemBytes _

theorem readPacket_bytes (hx : x.Encodable) : readPacket parse x.bytes = some x := by
  have hwords := hx.words
  rw [packetSize_eq] at hwords
  have hheld : HeldAt (memoryOf x.bytes) 0
      (packCommonHeader 0 kPacketType x.payloadBytes.length false ++ x.payloadBytes) := by
    have hmemory := heldAt_memoryOf x.bytes []
    rw [List.append_nil] at hmemory
    rw [← bytes_eq]
    exact hmemory
  have hpacket : x.bytes.length = kRtcpCommonHeaderSize + x.payloadBytes.length := by
    rw [bytes_eq, List.length_append, length_packCommonHeader]
    rfl
  obtain ⟨h, hsome, htype, -, hsize, -, hpayload⟩ :=
    BlockHeader.parse_held hheld (Nat.le_of_eq hpacket.symm) (by decide) (by decide)
      x.four_dvd_payload (by omega)
  have hlength := x.length_payloadBytes
  unfold payloadBytes at hpayload
  simp only [heldAt_append, length_writeBigEndian] at hpayload
  obtain ⟨hssrc, hrrtr, hdlrr, htarget⟩ := hpayload
  have htargetCount : ∀ t, x.targetBitrate = some t → t.bitrates.length < 2 ^ 16 := by
    intro t ht
    have htargetSize : x.targetBitrateBlockSize = 4 + t.bitrates.length * 4 := by
      unfold targetBitrateBlockSize
      rw [ht]
      rfl
    omega
  unfold readPacket
  rw [hsome, Option.bind_some, parse, if_neg (not_not.2 htype),
    if_neg (by rw [hsize]; unfold kXrBaseSize; omega), value_bind, hssrc.readU32]
  have hrrtrLength := x.length_rrtrBytes
  have hdlrrLength : x.dlrrBlock.bytes.length = x.dlrrBlockSize := x.dlrrBlock.length_bytes
  have htargetLength := x.length_targetBitrateBytes
  have hbase : h.payload + kXrBaseSize = h.payload + 4 := rfl
  rw [hbase, read_rrtr hrrtr (by omega) rfl, read_dlrr hdlrr (by omega) hx.timeInfos rfl,
    read_targetBitrate htarget (by omega) hx.bitrates htargetCount rfl,
    parseReportBlocks_end _ (by omega)]

end RoundTrip

/-! ## The blocks of a payload -/

/-- A report block: its type, where it lies, and how large it is with its header. -/
structure XrBlock where
  blockType : UInt8
  start : Nat
  size : Nat
  deriving DecidableEq

/-- The report blocks from an address on: each says in words how long it is. -/
def xrBlocks (mem : Nat → UInt8) (packetEnd currBlock : Nat) : List XrBlock :=
  if packetEnd < currBlock + kBlockHeaderSize then []
  else
    let size := kBlockHeaderSize + readBigEndian 2 (bytesAt mem (currBlock + 2) 2) * 4
    ⟨mem currBlock, currBlock, size⟩ :: xrBlocks mem packetEnd (currBlock + size)
termination_by packetEnd - currBlock
decreasing_by
  unfold kBlockHeaderSize at *
  omega

/-- The RRTR that a block holds, if it is a well formed block of this type. -/
def XrBlock.rrtr (mem : Nat → UInt8) (b : XrBlock) : Option Rrtr :=
  (Rrtr.parse b.start b.size).value mem

/-- The target bitrate that a block holds, if it is a well formed block of this type. -/
def XrBlock.targetBitrate (mem : Nat → UInt8) (b : XrBlock) : Option TargetBitrate :=
  (TargetBitrate.parse b.start b.size).value mem

/-- What the header of a block says. -/
structure XrBlock.Sound (mem : Nat → UInt8) (b : XrBlock) : Prop where
  blockType_eq : b.blockType = mem b.start
  size_eq : b.size = kBlockHeaderSize + readBigEndian 2 (bytesAt mem (b.start + 2) 2) * 4

section Parsed

variable {mem : Nat → UInt8} {packetEnd currBlock : Nat} {b : XrBlock}

theorem sound_of_mem_xrBlocks (h : b ∈ xrBlocks mem packetEnd currBlock) :
    b.Sound mem := by
  induction hn : packetEnd - currBlock using Nat.strong_induction_on generalizing currBlock with
  | _ n ih =>
    rw [xrBlocks] at h
    split_ifs at h with hend
    · cases h
    · unfold kBlockHeaderSize at hend
      rcases List.mem_cons.1 h with rfl | hrest
      · exact ⟨rfl, rfl⟩
      · exact ih _ (by unfold kBlockHeaderSize; omega) hrest rfl

theorem parseReportBlocks_eq {x y : ExtendedReports}
    (h : (parseReportBlocks packetEnd currBlock x).value mem = some y) :
    y = (xrBlocks mem packetEnd currBlock).foldl
      (fun x b => (parseReportBlock x b.blockType b.start b.size).value mem) x := by
  induction hn : packetEnd - currBlock using Nat.strong_induction_on generalizing currBlock x with
  | _ n ih =>
    rw [parseReportBlocks] at h
    rw [xrBlocks]
    split_ifs at h ⊢ with hend
    · exact (Option.some.inj h).symm
    · have hwords : ((readU16 (currBlock + 2)).value mem).toNat =
          readBigEndian 2 (bytesAt mem (currBlock + 2) 2) := toNat_readU16 (Nat.le_refl 2)
      simp only [value_bind, value_byte, value_ite, value_pure, hwords] at h
      split_ifs at h with hbig
      unfold kBlockHeaderSize at hend
      rw [List.foldl_cons]
      exact ih _ (by unfold kBlockHeaderSize; omega) h rfl

theorem rrtr_isSome_iff (h : b.Sound mem) :
    (b.rrtr mem).isSome = true ↔ b.blockType = Rrtr.kBlockType ∧ 12 ≤ b.size := by
  unfold XrBlock.rrtr Rrtr.parse
  rw [h.blockType_eq]
  by_cases hsize : b.size < 12
  · rw [if_pos hsize, value_pure]
    exact ⟨fun hsome => absurd hsome Bool.false_ne_true, fun hwell => absurd hwell.2 (by omega)⟩
  · rw [if_neg hsize]
    simp only [value_bind, value_byte, value_ite, value_pure]
    by_cases htype : mem b.start = Rrtr.kBlockType
    · rw [if_neg (not_not.2 htype)]
      exact ⟨fun _ => ⟨htype, by omega⟩, fun _ => rfl⟩
    · rw [if_pos htype]
      exact ⟨fun hsome => absurd hsome Bool.false_ne_true, fun hwell => absurd hwell.1 htype⟩

theorem targetBitrate_isSome_iff (h : b.Sound mem) :
    (b.targetBitrate mem).isSome = true ↔ b.blockType = TargetBitrate.kBlockType := by
  have hwords : ((readU16 (b.start + 2)).value mem).toNat =
      readBigEndian 2 (bytesAt mem (b.start + 2) 2) := toNat_readU16 (Nat.le_refl 2)
  have hsize := h.size_eq
  have hfour : TargetBitrate.kBlockHeaderSize = 4 ∧ kBlockHeaderSize = 4 := ⟨rfl, rfl⟩
  unfold XrBlock.targetBitrate TargetBitrate.parse
  rw [h.blockType_eq]
  simp only [value_bind, value_byte, value_ite, value_pure]
  by_cases htype : mem b.start = TargetBitrate.kBlockType
  · rw [if_neg (not_not.2 htype), if_neg (by omega), if_neg (by omega)]
    exact ⟨fun _ => htype, fun _ => rfl⟩
  · rw [if_pos htype]
    exact ⟨fun hsome => absurd hsome Bool.false_ne_true, fun heq => absurd heq htype⟩

/-- The last block of a type. -/
def lastOf (blockType : UInt8) (blocks : List XrBlock) : Option XrBlock :=
  (blocks.filter fun b => b.blockType = blockType).getLast?

theorem lastOf_concat (blockType : UInt8) (blocks : List XrBlock) (b : XrBlock) :
    lastOf blockType (blocks ++ [b]) =
      if b.blockType = blockType then some b else lastOf blockType blocks := by
  unfold lastOf
  rw [List.filter_append]
  by_cases htype : b.blockType = blockType
  · have hlast : [b].filter (fun b => b.blockType = blockType) = [b] := by simp [htype]
    rw [if_pos htype, hlast, List.getLast?_concat]
  · have hlast : [b].filter (fun b => b.blockType = blockType) = [] := by simp [htype]
    rw [if_neg htype, hlast, List.append_nil]

theorem lastOf_some {blockType : UInt8} {blocks : List XrBlock}
    (h : lastOf blockType blocks = some b) : b ∈ blocks ∧ b.blockType = blockType := by
  have hmem := List.mem_filter.1 (List.mem_of_getLast? h)
  exact ⟨hmem.1, of_decide_eq_true hmem.2⟩

theorem lastOf_none {blockType : UInt8} {blocks : List XrBlock}
    (h : lastOf blockType blocks = none) :
    ∀ b ∈ blocks, b.blockType ≠ blockType := by
  intro b hb htype
  have hnil := List.getLast?_eq_none_iff.1 h
  have hmem : b ∈ blocks.filter fun b => b.blockType = blockType :=
    List.mem_filter.2 ⟨hb, decide_eq_true htype⟩
  rw [hnil] at hmem
  cases hmem

theorem foldl_parseReportBlock (x : ExtendedReports) (blocks : List XrBlock) :
    let y := blocks.foldl (fun x b => (parseReportBlock x b.blockType b.start b.size).value mem) x
    y.rrtrBlock = ((lastOf Rrtr.kBlockType blocks).map fun b =>
        (b.rrtr mem).getD ⟨⟨0⟩⟩).or x.rrtrBlock ∧
      y.targetBitrate = ((lastOf TargetBitrate.kBlockType blocks).map fun b =>
        (b.targetBitrate mem).getD ⟨[]⟩).or x.targetBitrate := by
  induction blocks using List.reverseRecOn with
  | nil => exact ⟨rfl, rfl⟩
  | append_singleton blocks b ih =>
    rw [List.foldl_append, List.foldl_cons, List.foldl_nil, lastOf_concat, lastOf_concat]
    generalize blocks.foldl _ x = y at ih ⊢
    dsimp only at ih ⊢
    unfold parseReportBlock
    by_cases hrrtr : b.blockType = Rrtr.kBlockType
    · have hother : b.blockType ≠ TargetBitrate.kBlockType := by rw [hrrtr]; decide
      rw [if_pos hrrtr, if_pos hrrtr, if_neg hother, value_bind, value_pure]
      exact ⟨rfl, ih.2⟩
    · rw [if_neg hrrtr, if_neg hrrtr]
      by_cases hdlrr : b.blockType = Dlrr.kBlockType
      · have hother : b.blockType ≠ TargetBitrate.kBlockType := by rw [hdlrr]; decide
        rw [if_pos hdlrr, if_neg hother, value_bind, value_pure]
        exact ih
      · rw [if_neg hdlrr]
        by_cases htarget : b.blockType = TargetBitrate.kBlockType
        · rw [if_pos htarget, if_pos htarget, value_bind, value_pure]
          exact ⟨ih.1, rfl⟩
        · rw [if_neg htarget, if_neg htarget, value_pure]
          exact ih

end Parsed

/-! ## What is reported -/

section Report

variable {start : Nat}

/-- The report blocks of a packet. -/
def blocksOf (mem : Nat → UInt8) (h : BlockHeader start) : List XrBlock :=
  xrBlocks mem (h.payload + h.payloadSize) (h.payload + kXrBaseSize)

/-- **What is reported comes of a well formed block**: there is an RRTR exactly if the packet
holds a well formed RRTR block, it is that of such a block, and the same for the target bitrate. -/
structure Faithful (mem : Nat → UInt8) (h : BlockHeader start) (x : ExtendedReports) : Prop where
  rrtr_iff : x.rrtrBlock.isSome = true ↔ ∃ b ∈ blocksOf mem h, (b.rrtr mem).isSome = true
  rrtr_of : ∀ rrtr, x.rrtrBlock = some rrtr → ∃ b ∈ blocksOf mem h, b.rrtr mem = some rrtr
  targetBitrate_iff : x.targetBitrate.isSome = true ↔
    ∃ b ∈ blocksOf mem h, (b.targetBitrate mem).isSome = true
  targetBitrate_of : ∀ t, x.targetBitrate = some t →
    ∃ b ∈ blocksOf mem h, b.targetBitrate mem = some t

/-- The last RRTR block of the packet is large enough, or a well formed one holds a time of zero,
which is what a malformed one stands for. -/
def RrtrSound (mem : Nat → UInt8) (h : BlockHeader start) : Prop :=
  ∀ b, lastOf Rrtr.kBlockType (blocksOf mem h) = some b →
    12 ≤ b.size ∨ ∃ b' ∈ blocksOf mem h, b'.rrtr mem = some ⟨⟨0⟩⟩

variable {h : BlockHeader start} {mem : Nat → UInt8} {x : ExtendedReports}

theorem parse_eq (hparse : (parse h).value mem = some x) :
    x.rrtrBlock = (lastOf Rrtr.kBlockType (blocksOf mem h)).map (fun b =>
        (b.rrtr mem).getD ⟨⟨0⟩⟩) ∧
      x.targetBitrate = (lastOf TargetBitrate.kBlockType (blocksOf mem h)).map fun b =>
        (b.targetBitrate mem).getD ⟨[]⟩ := by
  unfold parse at hparse
  simp only [value_ite, value_pure, value_bind] at hparse
  split_ifs at hparse
  obtain ⟨hrrtr, htarget⟩ := @foldl_parseReportBlock mem
    { senderSsrc := (readU32 h.payload).value mem, rrtrBlock := none, dlrrBlock := ⟨[]⟩,
      targetBitrate := none } (blocksOf mem h)
  rw [parseReportBlocks_eq hparse]
  exact ⟨hrrtr.trans Option.or_none, htarget.trans Option.or_none⟩

theorem sound_of_mem_blocksOf {b : XrBlock}
    (hb : b ∈ blocksOf mem h) : b.Sound mem := sound_of_mem_xrBlocks hb

theorem targetBitrate_faithful (hparse : (parse h).value mem = some x) :
    (x.targetBitrate.isSome = true ↔
        ∃ b ∈ blocksOf mem h, (b.targetBitrate mem).isSome = true) ∧
      ∀ t, x.targetBitrate = some t → ∃ b ∈ blocksOf mem h, b.targetBitrate mem = some t := by
  have htarget := (parse_eq hparse).2
  cases hlast : lastOf TargetBitrate.kBlockType (blocksOf mem h) with
  | none =>
    rw [hlast, Option.map_none] at htarget
    rw [htarget]
    refine ⟨⟨fun hsome => absurd hsome Bool.false_ne_true, ?_⟩, fun t ht => by cases ht⟩
    rintro ⟨b, hb, hsome⟩
    exact absurd ((targetBitrate_isSome_iff (sound_of_mem_blocksOf hb)).1 hsome)
      (lastOf_none hlast b hb)
  | some b =>
    obtain ⟨hb, htype⟩ := lastOf_some hlast
    have hsome := (targetBitrate_isSome_iff (sound_of_mem_blocksOf hb)).2 htype
    obtain ⟨t, ht⟩ := Option.isSome_iff_exists.1 hsome
    rw [hlast, Option.map_some, ht, Option.getD_some] at htarget
    rw [htarget]
    exact ⟨⟨fun _ => ⟨b, hb, hsome⟩, fun _ => rfl⟩, fun t' ht' => ⟨b, hb, ht.trans ht'⟩⟩

theorem faithful_iff_rrtrSound
    (hparse : (parse h).value mem = some x) : Faithful mem h x ↔ RrtrSound mem h := by
  have hrrtr := (parse_eq hparse).1
  obtain ⟨htargetIff, htargetOf⟩ := targetBitrate_faithful hparse
  unfold RrtrSound
  cases hlast : lastOf Rrtr.kBlockType (blocksOf mem h) with
  | none =>
    rw [hlast, Option.map_none] at hrrtr
    have hnone : ¬ ∃ b ∈ blocksOf mem h, (b.rrtr mem).isSome = true := by
      rintro ⟨b, hb, hsome⟩
      exact lastOf_none hlast b hb ((rrtr_isSome_iff (sound_of_mem_blocksOf hb)).1 hsome).1
    refine ⟨fun _ b hb => (by cases hb), fun _ => ⟨?_, ?_, htargetIff, htargetOf⟩⟩
    · rw [hrrtr]
      exact ⟨fun hsome => absurd hsome Bool.false_ne_true, fun hsome => absurd hsome hnone⟩
    · intro rrtr hsome
      rw [hrrtr] at hsome
      cases hsome
  | some b =>
    obtain ⟨hb, htype⟩ := lastOf_some hlast
    have hwell := rrtr_isSome_iff (sound_of_mem_blocksOf hb)
    rw [hlast, Option.map_some] at hrrtr
    constructor
    · intro hfaithful b' hb'
      obtain rfl := Option.some.inj hb'
      by_cases hsize : 12 ≤ b.size
      · exact Or.inl hsize
      · have hmalformed : b.rrtr mem = none :=
          Option.not_isSome_iff_eq_none.1 fun hsome => hsize (hwell.1 hsome).2
        rw [hmalformed, Option.getD_none] at hrrtr
        exact Or.inr (hfaithful.rrtr_of _ hrrtr)
    · intro hsound
      -- Some well formed block holds what is reported.
      have hholds : ∃ b' ∈ blocksOf mem h, b'.rrtr mem = x.rrtrBlock := by
        rcases hsound b rfl with hsize | ⟨b', hb', hzero⟩
        · obtain ⟨rrtr, hsome⟩ := Option.isSome_iff_exists.1 (hwell.2 ⟨htype, hsize⟩)
          exact ⟨b, hb, by rw [hrrtr, hsome, Option.getD_some]⟩
        · cases hown : b.rrtr mem with
          | none => exact ⟨b', hb', by rw [hrrtr, hown, Option.getD_none, hzero]⟩
          | some rrtr => exact ⟨b, hb, by rw [hrrtr, hown, Option.getD_some]⟩
      obtain ⟨b', hb', heq⟩ := hholds
      refine ⟨⟨fun hsome => ⟨b', hb', by rw [heq]; exact hsome⟩, fun _ => by rw [hrrtr]; rfl⟩,
        fun rrtr hsome => ⟨b', hb', heq.trans hsome⟩, htargetIff, htargetOf⟩

end Report

/-- **Every packet is read back** from the start of a buffer it fits in.  And **a packet that is
parsed is faithful exactly if** its last RRTR block is well formed, or there is one with a time of
zero. -/
theorem codec_iff (x : ExtendedReports) :
    (x.Encodable → ∀ (hasCallback : Bool) (maxSize fuel : Nat) (st : PackState),
      st.index = 0 → x.packetSize ≤ maxSize → maxSize ≤ st.buffer.length →
        ∃ st', x.packInto hasCallback maxSize (fuel + 1) st = some (true, st') ∧
          readPacket parse (st'.buffer.take st'.index) = some x) ∧
      ∀ (mem : Nat → UInt8) (start : Nat) (h : BlockHeader start),
        (parse h).value mem = some x → (Faithful mem h x ↔ RrtrSound mem h) := by
  refine ⟨fun hx hasCallback maxSize fuel st hindex hroom hbuffer => ?_,
    fun mem start h hparse => faithful_iff_rrtrSound hparse⟩
  refine ⟨_, packInto_of_room (by omega) hbuffer fuel, ?_⟩
  have hnothing : st.buffer.take st.index = [] := by rw [hindex, List.take_zero]
  rw [PackState.take_write (by omega), hnothing, List.nil_append]
  exact readPacket_bytes hx

/-- A packet with a time and a layer goes through a buffer of 60 bytes. -/
theorem codec_small :
    ∃ st', packInto ⟨1, some ⟨⟨5⟩⟩, ⟨[⟨2, 3, 4⟩]⟩, some ⟨[⟨1, 2, 500⟩]⟩⟩ false 60 1
        ⟨List.replicate 60 0, 0, []⟩ = some (true, st') ∧
      readPacket parse (st'.buffer.take st'.index) =
        some ⟨1, some ⟨⟨5⟩⟩, ⟨[⟨2, 3, 4⟩]⟩, some ⟨[⟨1, 2, 500⟩]⟩⟩ := by
  refine (codec_iff _).1 ⟨by decide, ?_, by decide⟩ false 60 0 _ rfl (by decide) (by decide)
  rintro t ht item hitem
  obtain rfl := Option.some.inj ht
  rw [List.mem_singleton.1 hitem]
  exact ⟨by decide, by decide, by decide⟩

/-- A packet with an RRTR block that has no room for a time. -/
def truncatedRrtr : List UInt8 := [0x80, 207, 0, 2, 0, 0, 0, 1, 4, 0, 0, 0]

/-- **A malformed block is reported** as a time of zero. -/
theorem not_faithful :
    ∃ (h : BlockHeader 0) (x : ExtendedReports),
      (BlockHeader.parse 0 truncatedRrtr.length).value (memoryOf truncatedRrtr) = some h ∧
        (parse h).value (memoryOf truncatedRrtr) = some x ∧
          ¬ Faithful (memoryOf truncatedRrtr) h x := by
  let h : BlockHeader 0 := ⟨207, 0, 0, 8, by decide, by decide⟩
  have hparse : (parse h).value (memoryOf truncatedRrtr) = some ⟨1, some ⟨⟨0⟩⟩, ⟨[]⟩, none⟩ := by
    have hblock : HeldAt (memoryOf truncatedRrtr) 8
        ([Rrtr.kBlockType] ++ [0] ++ writeBigEndian 2 0 ++ []) := by
      unfold HeldAt
      decide
    have hround := @parseReportBlocks_block (memoryOf truncatedRrtr) 12 8 _ _ 0 []
      ⟨1, none, ⟨[]⟩, none⟩ hblock rfl (by decide) (by decide)
    have hssrc : (readU32 h.payload).value (memoryOf truncatedRrtr) = 1 := by decide
    unfold parse
    rw [if_neg (by decide), if_neg (by decide), value_bind, hssrc]
    exact hround.trans (parseReportBlocks_end _ (by decide))
  refine ⟨h, _, by decide, hparse, fun hfaithful => ?_⟩
  obtain ⟨b, hb, hsome⟩ := hfaithful.rrtr_iff.1 rfl
  have hsound := sound_of_mem_blocksOf hb
  have hlarge := ((rrtr_isSome_iff hsound).1 hsome).2
  -- The only block has four bytes.
  have hblocks : blocksOf (memoryOf truncatedRrtr) h = [⟨4, 8, 4⟩] := by
    have hend : xrBlocks (memoryOf truncatedRrtr) 12 12 = [] := by
      rw [xrBlocks, if_pos (by decide)]
    show xrBlocks (memoryOf truncatedRrtr) 12 8 = _
    rw [xrBlocks, if_neg (by decide)]
    exact congrArg (List.cons _) hend
  rw [hblocks, List.mem_singleton] at hb
  rw [hb] at hlarge
  exact absurd hlarge (by decide)

end ExtendedReports

end NaiveRtc.Rtcp
