import NaiveRtc.Rtcp.BlockParsers
import NaiveRtc.Rtcp.NackRoundTrip
import NaiveRtc.Rtcp.TransportFeedback

/-!
# Parsers of received feedback

The `Parse` functions of the feedback packets under `rtc/rtp_rtcp/rtcp/packets`, as programs that
read the block where it lies in memory.

* `parseCommonFeedback` — the two SSRCs that every feedback packet starts with.
* `Nack.parseBlock`, `Pli.parse`, `Fir.parse`, `Remb.parse`, `LossNotification.parse`,
  `TransportFeedback.parseBlock` — the parsers, each with the fact that it reads its payload only.
* `Nack.value_parseBlock`, `TransportFeedback.value_parseBlock` — what is found in memory is what
  the parsers of the byte strings find.
-/

namespace NaiveRtc.Rtcp

open ByteIo Reading

variable {start : Nat}

/-- `ParseCommonFeedback(payload)` of `Psfb` and `Rtpfb`: the sender and the media source. -/
def parseCommonFeedback (payload : Nat) : Reading (U32 × U32) := do
  let senderSsrc ← readU32 payload
  let mediaSsrc ← readU32 (payload + 4)
  pure (senderSsrc, mediaSsrc)

variable {mem : Nat → UInt8}

theorem safe_parseCommonFeedback {low high payload : Nat}
    {post : U32 × U32 → Prop} :
    (parseCommonFeedback payload).Safe mem low high post ↔
      (low ≤ payload ∧ payload + kCommonFeedbackSize ≤ high) ∧
        post ((parseCommonFeedback payload).value mem) := by
  unfold parseCommonFeedback kCommonFeedbackSize
  simp only [safe_bind, safe_readU32, safe_pure, value_bind, value_pure]
  exact ⟨fun ⟨h, h', hpost⟩ => ⟨⟨h.1, h'.2⟩, hpost⟩,
    fun ⟨⟨h, h'⟩, hpost⟩ => ⟨⟨h, by omega⟩, ⟨by omega, h'⟩, hpost⟩⟩

theorem value_ssrcs (mem : Nat → UInt8) (payload : Nat) {size : Nat} (hsize : 8 ≤ size) :
    (readU32 payload).value mem = BitVec.ofNat 32 (readBigEndian 4 (bytesAt mem payload size)) ∧
      (readU32 (payload + 4)).value mem =
        BitVec.ofNat 32 (readBigEndian 4 (bytesAt mem (payload + 4) (size - 4))) :=
  ⟨value_readU32 (by omega), value_readU32 (by omega)⟩

theorem toNat_ne_iff {b : UInt8} {k : Nat} (hk : k < 256) : b.toNat ≠ k ↔ b ≠ UInt8.ofNat k := by
  rw [← UInt8.toNat_inj.ne, UInt8.toNat_ofNat_of_lt' hk]

namespace Nack

/-- `Parse(packet)` of a packet that was just built; `none` is `false`.  The size given to
`Rtpfb::ParseCommonFeedback` is that of the whole packet. -/
def parseBlock (h : BlockHeader start) : Reading (Option Nack) :=
  if h.packetType.toNat ≠ kRtpfbPacketType then pure none
  else if h.countOrFmt.toNat ≠ kFeedbackMessageType then pure none
  else if h.payloadSize < kCommonFeedbackSize + kFciItemSize then pure none
  else do
    let fciItemCount := (h.payloadSize - kCommonFeedbackSize) / kFciItemSize
    let ssrcs ← (if h.packetSize < kCommonFeedbackSize then pure (0, 0)
      else Rtcp.parseCommonFeedback h.payload : Reading (U32 × U32))
    let fciItems ← collect (fun i => do
      let nextNack := h.payload + kCommonFeedbackSize + i * kFciItemSize
      let firstPid ← readU16 nextNack
      let bitmask ← readU16 (nextNack + 2)
      pure ⟨firstPid, bitmask⟩) fciItemCount
    pure (some (unpackFciItems ⟨ssrcs.1, ssrcs.2, fciItems.toList, []⟩))

theorem reads_parseBlock (h : BlockHeader start) : h.Reads (parseBlock h) := by
  intro mem
  unfold parseBlock
  simp only [safe_ite, safe_bind, safe_pure, safe_parseCommonFeedback]
  refine ⟨fun _ => trivial, fun _ => ⟨fun _ => trivial, fun _ => ⟨fun _ => trivial, ?_⟩⟩⟩
  unfold kCommonFeedbackSize kFciItemSize
  intro hsize
  have hitems : ∀ i < (h.payloadSize - 8) / 4,
      (do
        let firstPid ← readU16 (h.payload + 8 + i * 4)
        let bitmask ← readU16 (h.payload + 8 + i * 4 + 2)
        pure (⟨firstPid, bitmask⟩ : FciItem) : Reading FciItem).Safe mem h.payload
          (h.payload + h.payloadSize) fun _ => True := by
    intro i hi
    simp only [safe_bind, safe_readU16, safe_pure, and_true]
    omega
  exact ⟨fun _ => safe_collect hitems trivial, fun _ => ⟨by omega, safe_collect hitems trivial⟩⟩

theorem readFciItems_bytesAt (mem : Nat → UInt8) {count size : Nat} (data : Nat)
    (hsize : count * kFciItemSize ≤ size) :
    readFciItems count (bytesAt mem data size) = (List.range count).map fun i =>
      ⟨(readU16 (data + i * kFciItemSize)).value mem,
        (readU16 (data + i * kFciItemSize + 2)).value mem⟩ := by
  unfold kFciItemSize at hsize ⊢
  induction count generalizing data size with
  | zero => rfl
  | succ count ih =>
    rw [readFciItems, drop_bytesAt, drop_bytesAt, ← value_readU16 (by omega),
      ← value_readU16 (by omega), kFciItemSize, ih (data + 4) (by omega), List.range_succ_eq_map,
      List.map_cons, List.map_map]
    refine congrArg₂ List.cons (by simp) (List.map_congr_left fun i _ => ?_)
    simp only [Function.comp_apply, Nat.succ_mul]
    rw [show data + 4 + i * 4 = data + (i * 4 + 4) by omega]

theorem value_parseBlock (mem : Nat → UInt8) (h : BlockHeader start) :
    (parseBlock h).value mem =
      if (fresh.parse (h.toCommonHeader mem)).2 then some (fresh.parse (h.toCommonHeader mem)).1
      else none := by
  have htype : h.packetType.toNat ≠ kRtpfbPacketType ↔
      h.packetType ≠ UInt8.ofNat kRtpfbPacketType := toNat_ne_iff (by decide)
  have hformat : h.countOrFmt.toNat ≠ kFeedbackMessageType ↔
      h.countOrFmt ≠ UInt8.ofNat kFeedbackMessageType := toNat_ne_iff (by decide)
  have hpacketType : (h.toCommonHeader mem).packetType = h.packetType := rfl
  have hcount : (h.toCommonHeader mem).countOrFmt = h.countOrFmt := rfl
  have hpayload : (h.toCommonHeader mem).payload = bytesAt mem h.payload h.payloadSize := rfl
  have hpacket : (h.toCommonHeader mem).packetSize = h.packetSize := by
    unfold CommonHeader.packetSize
    rw [hpayload, length_bytesAt]
    rfl
  unfold parseBlock parse
  rw [hpacketType, hcount, hpayload, hpacket, length_bytesAt]
  simp only [htype, hformat, value_ite, value_pure]
  by_cases hpt : h.packetType ≠ UInt8.ofNat kRtpfbPacketType
  · simp only [if_pos hpt, Bool.false_eq_true, if_false]
  · by_cases hfmt : h.countOrFmt ≠ UInt8.ofNat kFeedbackMessageType
    · simp only [if_neg hpt, if_pos hfmt, Bool.false_eq_true, if_false]
    · by_cases hsize : h.payloadSize < kCommonFeedbackSize + kFciItemSize
      · simp only [if_neg hpt, if_neg hfmt, if_pos hsize, Bool.false_eq_true, if_false]
      · have height : kCommonFeedbackSize = 8 := rfl
        have hfour : kFciItemSize = 4 := rfl
        have hroom : ¬h.packetSize < kCommonFeedbackSize := by
          unfold BlockHeader.packetSize
          omega
        obtain ⟨hsender, hmedia⟩ := @value_ssrcs mem h.payload h.payloadSize (by omega)
        have hitems := readFciItems_bytesAt mem (h.payload + kCommonFeedbackSize)
          (Nat.div_mul_le_self (h.payloadSize - kCommonFeedbackSize) kFciItemSize)
        simp only [if_neg hpt, if_neg hfmt, if_neg hsize, if_true, value_bind, value_pure,
          if_neg hroom, parseCommonFeedback, Rtcp.parseCommonFeedback, value_collect, drop_bytesAt,
          hitems, hsender, hmedia, fresh]

end Nack

namespace Pli

/-- `Parse(packet)`; `none` is `false`. -/
def parse (h : BlockHeader start) : Reading (Option Pli) :=
  if h.packetType.toNat ≠ kPsfbPacketType then pure none
  else if h.countOrFmt.toNat ≠ kFeedbackMessageType then pure none
  else if h.payloadSize < kCommonFeedbackSize then pure none
  else do
    let ssrcs ← parseCommonFeedback h.payload
    pure (some ⟨ssrcs.1, ssrcs.2⟩)

theorem reads_parse (h : BlockHeader start) : h.Reads (parse h) := by
  intro mem
  unfold parse
  simp only [safe_ite, safe_bind, safe_pure, safe_parseCommonFeedback, implies_true, true_and,
    and_true]
  intros
  omega

end Pli

namespace Fir

/-- `Parse(packet)`; `none` is `false`. -/
def parse (h : BlockHeader start) : Reading (Option Fir) :=
  if h.packetType.toNat ≠ kPsfbPacketType then pure none
  else if h.countOrFmt.toNat ≠ kFeedbackMessageType then pure none
  else if h.payloadSize < kCommonFeedbackSize + kFciSize then pure none
  else if (h.payloadSize - kCommonFeedbackSize) % kFciSize ≠ 0 then pure none
  else do
    let ssrcs ← parseCommonFeedback h.payload
    let fciItems ← collect (fun i => do
      let nextFci := h.payload + kCommonFeedbackSize + i * kFciSize
      let ssrc ← readU32 nextFci
      let seqNr ← byte (nextFci + 4)
      pure ⟨ssrc, seqNr⟩) ((h.payloadSize - kCommonFeedbackSize) / kFciSize)
    pure (some ⟨ssrcs.1, ssrcs.2, fciItems.toList⟩)

theorem reads_parse (h : BlockHeader start) : h.Reads (parse h) := by
  intro mem
  unfold parse
  simp only [safe_ite, safe_bind, safe_pure, safe_parseCommonFeedback, implies_true, true_and]
  unfold kCommonFeedbackSize kFciSize
  refine fun _ _ hsize _ => ⟨by omega, safe_collect (fun i hi => ?_) trivial⟩
  simp only [safe_bind, safe_readU32, safe_byte, safe_pure, and_true]
  omega

end Fir

namespace Remb

/-- `kRembBaseSize`. -/
def kRembBaseSize : Nat := 16

/-- `Parse(packet)`; `none` is `false`. -/
def parse (h : BlockHeader start) : Reading (Option Remb) :=
  if h.packetType.toNat ≠ kPsfbPacketType then pure none
  else if h.countOrFmt.toNat ≠ kAfbMessageType then pure none
  else if h.payloadSize < kRembBaseSize then pure none
  else do
    let identifier ← readU32 (h.payload + 8)
    if kUniqueIdentifier ≠ identifier.toNat then pure none
    else
      let numberOfSsrcs ← byte (h.payload + 12)
      if h.payloadSize ≠ kCommonFeedbackSize + (2 + numberOfSsrcs.toNat) * 4 then pure none
      else
        let ssrcs ← parseCommonFeedback h.payload
        let exponentByte ← byte (h.payload + 13)
        let mantissaWord ← readU16 (h.payload + 14)
        let brExponent := (exponentByte >>> 2).toNat
        let brMantissa : BitVec 64 :=
          BitVec.ofNat 64 ((exponentByte &&& 0x03).toNat <<< 16) ||| mantissaWord.setWidth 64
        let bitrateBps := brMantissa <<< brExponent
        if bitrateBps >>> brExponent ≠ brMantissa then pure none
        else
          let feedbackSsrcs ← collect (fun i => readU32 (h.payload + 16 + i * 4))
            numberOfSsrcs.toNat
          pure (some {
            senderSsrc := ssrcs.1
            mediaSsrc := ssrcs.2
            bitrateBps := bitrateBps.toInt
            ssrcs := feedbackSsrcs.toList
            ssrcs_le := by
              rw [List.Vector.toList_length]
              exact Nat.le_of_lt_succ numberOfSsrcs.toNat_lt })

theorem reads_parse (h : BlockHeader start) : h.Reads (parse h) := by
  intro mem
  unfold parse
  simp only [safe_ite, safe_bind, safe_pure, safe_parseCommonFeedback, safe_readU32, safe_readU16,
    safe_byte, implies_true, true_and]
  unfold kRembBaseSize kCommonFeedbackSize
  refine fun _ _ hsize => ⟨by omega, fun _ => ⟨by omega, fun hcount => ?_⟩⟩
  refine ⟨by omega, by omega, by omega, fun _ => safe_collect (fun i hi => ?_) trivial⟩
  exact safe_readU32.2 ⟨by omega, trivial⟩

end Remb

namespace LossNotification

/-- `Parse(packet)`; `none` is `false`.  The type of the packet is asserted, not checked. -/
def parse (h : BlockHeader start) : Reading (Option LossNotification) :=
  if h.payloadSize < kCommonFeedbackSize + kLossNotificationPayloadSize then pure none
  else do
    let identifier ← readU32 (h.payload + 8)
    if identifier.toNat ≠ kUniqueIdentifier then pure none
    else
      let ssrcs ← parseCommonFeedback h.payload
      let lastDecoded ← readU16 (h.payload + 12)
      let deltaAndDecodability ← readU16 (h.payload + 14)
      pure (some {
        senderSsrc := ssrcs.1
        mediaSsrc := ssrcs.2
        lastDecoded
        lastReceived := lastDecoded + deltaAndDecodability >>> 1
        decodabilityFlag := deltaAndDecodability &&& 0x0001 != 0 })

theorem reads_parse (h : BlockHeader start) : h.Reads (parse h) := by
  intro mem
  unfold parse
  simp only [safe_ite, safe_bind, safe_pure, safe_parseCommonFeedback, safe_readU32, safe_readU16,
    implies_true, true_and, and_true]
  unfold kCommonFeedbackSize kLossNotificationPayloadSize
  omega

end LossNotification

/-! ## Transport feedback -/

namespace TransportFeedback

/-- The loop of `Parse` over the status chunks, from `index` on. -/
def parseChunks (payload endIndex statusCount index : Nat) (deltaSizes : List Nat)
    (chunks : List U16) (lastChunk : LastChunk) :
    Reading (Option (List Nat × List U16 × LastChunk × Nat)) :=
  if statusCount ≤ deltaSizes.length then pure (some (deltaSizes, chunks, lastChunk, index))
  else if index + kChunkSizeBytes > endIndex then pure none
  else do
    let chunk ← readU16 (payload + index)
    let lastChunk := lastChunk.decode chunk (statusCount - deltaSizes.length)
    parseChunks payload endIndex statusCount (index + kChunkSizeBytes)
      (deltaSizes ++ lastChunk.statuses) (chunks ++ [chunk]) lastChunk
termination_by endIndex - index
decreasing_by
  unfold kChunkSizeBytes at *
  omega

/-- The loop of `Parse` over the delta sizes when the deltas are in the packet. -/
def parseDeltas (payload endIndex : Nat) :
    List Nat → TransportFeedback → U16 → Nat → Reading (Option (TransportFeedback × Nat))
  | [], f, _, index => pure (some (f, index))
  | deltaSize :: deltaSizes, f, seqNo, index =>
    if index + deltaSize > endIndex then pure none
    else
      match deltaSize with
      | 0 => parseDeltas payload endIndex deltaSizes (f.noteLost seqNo) (seqNo + 1) index
      | 1 => do
        let delta ← byte (payload + index)
        parseDeltas payload endIndex deltaSizes (f.noteReceived seqNo delta.toNat) (seqNo + 1)
          (index + 1)
      | 2 => do
        let delta ← readInt 2 (payload + index)
        parseDeltas payload endIndex deltaSizes (f.noteReceived seqNo delta) (seqNo + 1) (index + 2)
      | _ => pure none

/-- `Parse(packet)`; `none` is `false`.  The type of the packet is asserted, not checked. -/
def parseBlock (f : TransportFeedback) (h : BlockHeader start) :
    Reading (Option TransportFeedback) :=
  if h.payloadSize < kMinPayloadSizeBytes then pure none
  else do
    let ssrcs ← (if h.payloadSize < kCommonFeedbackSize then pure (f.senderSsrc, f.mediaSsrc)
      else parseCommonFeedback h.payload : Reading (U32 × U32))
    let baseSeqNum ← readU16 (h.payload + 8)
    let statusCount ← readU16 (h.payload + 10)
    let referenceTime ← readInt 3 (h.payload + 12)
    let feedbackSeq ← byte (h.payload + 15)
    let f := clear { f with
      senderSsrc := ssrcs.1, mediaSsrc := ssrcs.2, baseSeqNum, referenceTime, feedbackSeq }
    if statusCount.toNat = 0 then pure none
    else
      let found ← parseChunks h.payload h.payloadSize statusCount.toNat 16 [] [] f.lastChunk
      match found with
      | none => pure none
      | some (deltaSizes, chunks, lastChunk, index) => do
        let f := { f with
          encodedChunks := chunks.dropLast, lastChunk, statusCount := statusCount.toNat }
        let parsed ← (if h.payloadSize ≥ index + deltaSizes.sum then
            parseDeltas h.payload h.payloadSize deltaSizes f f.baseSeqNum index
          else
            pure (some (assumeDeltas deltaSizes { f with includeTimestamps := false } f.baseSeqNum,
              index)) : Reading (Option (TransportFeedback × Nat)))
        pure (parsed.map fun result =>
          { result.1 with sizeBytes := kRtcpCommonHeaderSize + result.2 })

theorem safe_parseChunks {payload endIndex statusCount index : Nat}
    {deltaSizes : List Nat} {chunks : List U16} {lastChunk : LastChunk} :
    (parseChunks payload endIndex statusCount index deltaSizes chunks lastChunk).Safe mem payload
      (payload + endIndex) fun _ => True := by
  induction hn : endIndex - index using Nat.strong_induction_on
    generalizing index deltaSizes chunks lastChunk with
  | _ n ih =>
    rw [parseChunks]
    simp only [safe_ite, safe_bind, safe_readU16, safe_pure, implies_true, true_and]
    unfold kChunkSizeBytes
    exact fun _ hroom => ⟨by omega, ih _ (by omega) rfl⟩

theorem safe_parseDeltas {payload endIndex index : Nat}
    {deltaSizes : List Nat} {f : TransportFeedback} {seqNo : U16} :
    (parseDeltas payload endIndex deltaSizes f seqNo index).Safe mem payload
      (payload + endIndex) fun _ => True := by
  induction deltaSizes generalizing f seqNo index with
  | nil => exact safe_pure.2 trivial
  | cons deltaSize deltaSizes ih =>
    unfold parseDeltas
    refine safe_ite.2 ⟨fun _ => safe_pure.2 trivial, fun hroom => ?_⟩
    rcases deltaSize with _ | _ | _ | _
    · exact ih
    · exact safe_bind.2 (safe_byte.2 ⟨by omega, ih⟩)
    · exact safe_bind.2 ((safe_readInt (Nat.succ_pos 1)).2 ⟨by omega, ih⟩)
    · exact safe_pure.2 trivial

theorem reads_parseBlock (f : TransportFeedback) (h : BlockHeader start) :
    h.Reads (parseBlock f h) := by
  intro mem
  unfold parseBlock
  simp only [safe_ite, safe_bind, safe_pure, safe_parseCommonFeedback, safe_readU16, safe_byte,
    safe_readInt (Nat.succ_pos 2), implies_true, true_and]
  unfold kMinPayloadSizeBytes kCommonFeedbackSize
  refine fun hsize => ⟨fun _ => by omega, fun _ => ⟨by omega, by omega, by omega, by omega,
    by omega, fun _ => ?_⟩⟩
  refine safe_parseChunks.imp fun found _ => ?_
  rcases found with _ | ⟨deltaSizes, chunks, lastChunk, index⟩
  · exact safe_pure.2 trivial
  · refine safe_bind.2 (safe_ite.2 ⟨fun _ => safe_parseDeltas, fun _ => safe_pure.2 trivial⟩)

theorem bytesAt_succ (mem : Nat → UInt8) (data : Nat) {size : Nat} (hsize : 0 < size) :
    bytesAt mem data size = mem data :: bytesAt mem (data + 1) (size - 1) := by
  have hhead := List.take_append_drop 1 (bytesAt mem data size)
  rw [take_bytesAt hsize, drop_bytesAt] at hhead
  exact hhead.symm

theorem value_parseChunks (mem : Nat → UInt8) {payload endIndex statusCount index : Nat}
    (deltaSizes : List Nat) (chunks : List U16) (lastChunk : LastChunk)
    (hindex : index ≤ endIndex) :
    match readChunks statusCount (bytesAt mem (payload + index) (endIndex - index)) deltaSizes
      chunks lastChunk with
    | none => (parseChunks payload endIndex statusCount index deltaSizes chunks lastChunk).value mem
        = none
    | some (deltaSizes', chunks', lastChunk', bytes) => ∃ index' ≤ endIndex,
        bytes = bytesAt mem (payload + index') (endIndex - index') ∧
        (parseChunks payload endIndex statusCount index deltaSizes chunks lastChunk).value mem =
          some (deltaSizes', chunks', lastChunk', index') := by
  induction hn : endIndex - index using Nat.strong_induction_on
    generalizing index deltaSizes chunks lastChunk with
  | _ n ih =>
    rw [readChunks.eq_def, parseChunks, value_ite, value_ite, value_bind, value_pure, value_pure,
      ← hn]
    dsimp only
    by_cases hdone : statusCount ≤ deltaSizes.length
    · rw [if_pos hdone, if_pos hdone]
      exact ⟨index, hindex, rfl, rfl⟩
    · rw [if_neg hdone, if_neg hdone]
      by_cases hroom : index + kChunkSizeBytes > endIndex
      · rw [if_pos hroom]
        unfold kChunkSizeBytes at hroom
        rcases (by omega : endIndex - index = 0 ∨ endIndex - index = 1) with hleft | hleft
        · rw [hleft]
          rfl
        · rw [hleft]
          rfl
      · rw [if_neg hroom]
        unfold kChunkSizeBytes at hroom ⊢
        have hchunk : (readU16 (payload + index)).value mem = BitVec.ofNat 16
            (readBigEndian 2 [mem (payload + index), mem (payload + index + 1)]) := by
          rw [value_readU16 (le_refl 2), bytesAt_succ mem _ (Nat.succ_pos 1),
            bytesAt_succ mem _ Nat.one_pos]
          rfl
        rw [bytesAt_succ mem _ (by omega), bytesAt_succ mem _ (by omega), hchunk]
        have hrest : endIndex - index - 1 - 1 = endIndex - (index + 2) := by omega
        rw [hrest]
        dsimp only
        generalize BitVec.ofNat 16
          (readBigEndian 2 [mem (payload + index), mem (payload + index + 1)]) = chunk
        exact ih (endIndex - (index + 2)) (by omega) _ _ _ (by omega) rfl

theorem value_parseDeltas (mem : Nat → UInt8) {payload endIndex index : Nat} (deltaSizes : List Nat)
    (f : TransportFeedback) (seqNo : U16) (hindex : index ≤ endIndex) :
    match readDeltas deltaSizes f seqNo (bytesAt mem (payload + index) (endIndex - index)) with
    | none => (parseDeltas payload endIndex deltaSizes f seqNo index).value mem = none
    | some (f', bytes) => ∃ index' ≤ endIndex,
        bytes = bytesAt mem (payload + index') (endIndex - index') ∧
        (parseDeltas payload endIndex deltaSizes f seqNo index).value mem = some (f', index') := by
  induction deltaSizes generalizing f seqNo index with
  | nil => exact ⟨index, hindex, rfl, rfl⟩
  | cons deltaSize deltaSizes ih =>
    have hcases : deltaSize = 0 ∨ deltaSize = 1 ∨ deltaSize = 2 ∨ ∃ k, deltaSize = k + 3 := by
      by_cases hthree : 3 ≤ deltaSize
      · exact Or.inr (Or.inr (Or.inr (Nat.exists_eq_add_of_le' hthree)))
      · omega
    have hfew : index + deltaSize > endIndex →
        readDeltas (deltaSize :: deltaSizes) f seqNo
          (bytesAt mem (payload + index) (endIndex - index)) = none := by
      intro hroom
      rcases hcases with rfl | rfl | rfl | ⟨k, rfl⟩
      · omega
      · rw [show endIndex - index = 0 by omega]
        rfl
      · rcases (by omega : endIndex - index = 0 ∨ endIndex - index = 1) with hleft | hleft
        · rw [hleft]
          rfl
        · rw [hleft]
          rfl
      · rfl
    by_cases hroom : index + deltaSize > endIndex
    · rw [hfew hroom, parseDeltas.eq_def]
      dsimp only
      rw [if_pos hroom]
      rfl
    · rcases hcases with rfl | rfl | rfl | ⟨k, rfl⟩
      · have hstep : parseDeltas payload endIndex (0 :: deltaSizes) f seqNo index =
            parseDeltas payload endIndex deltaSizes (f.noteLost seqNo) (seqNo + 1) index :=
          if_neg hroom
        rw [hstep]
        exact ih _ _ hindex
      · have hstep : parseDeltas payload endIndex (1 :: deltaSizes) f seqNo index =
            byte (payload + index) >>= fun delta => parseDeltas payload endIndex deltaSizes
              (f.noteReceived seqNo delta.toNat) (seqNo + 1) (index + 1) := if_neg hroom
        have hnext := ih (f.noteReceived seqNo (mem (payload + index)).toNat) (seqNo + 1)
          (show index + 1 ≤ endIndex by omega)
        rw [show endIndex - (index + 1) = endIndex - index - 1 by omega] at hnext
        rw [hstep, bytesAt_succ mem _ (by omega), value_bind, value_byte]
        exact hnext
      · have hstep : parseDeltas payload endIndex (2 :: deltaSizes) f seqNo index =
            readInt 2 (payload + index) >>= fun delta => parseDeltas payload endIndex deltaSizes
              (f.noteReceived seqNo delta) (seqNo + 1) (index + 2) := if_neg hroom
        have hdelta : (readInt 2 (payload + index)).value mem =
            readSigned 2 [mem (payload + index), mem (payload + index + 1)] := by
          rw [value_readInt (le_refl 2), bytesAt_succ mem _ (Nat.succ_pos 1),
            bytesAt_succ mem _ Nat.one_pos]
          rfl
        have hnext := ih (f.noteReceived seqNo (readSigned 2
          [mem (payload + index), mem (payload + index + 1)])) (seqNo + 1)
          (show index + 2 ≤ endIndex by omega)
        rw [show endIndex - (index + 2) = endIndex - index - 1 - 1 by omega] at hnext
        rw [hstep, bytesAt_succ mem _ (by omega), bytesAt_succ mem _ (by omega), value_bind, hdelta]
        exact hnext
      · have hstep : parseDeltas payload endIndex ((k + 3) :: deltaSizes) f seqNo index =
            pure none := if_neg hroom
        rw [hstep]
        rfl

theorem value_parseBlock (mem : Nat → UInt8) (f : TransportFeedback) (h : BlockHeader start) :
    (parseBlock f h).value mem = f.parse (h.toCommonHeader mem) := by
  have hpayload : (h.toCommonHeader mem).payload = bytesAt mem h.payload h.payloadSize := rfl
  unfold parseBlock TransportFeedback.parse
  rw [hpayload]
  dsimp only
  rw [length_bytesAt]
  by_cases hsize : h.payloadSize < kMinPayloadSizeBytes
  · rw [if_pos hsize, if_pos hsize, value_pure]
  · have heighteen : ¬h.payloadSize < 18 := hsize
    have hcommon : ¬h.payloadSize < kCommonFeedbackSize := by
      unfold kCommonFeedbackSize
      omega
    obtain ⟨hsender, hmedia⟩ := @value_ssrcs mem h.payload h.payloadSize (by omega)
    have hbase : (readU16 (h.payload + 8)).value mem =
        BitVec.ofNat 16 (readBigEndian 2 (bytesAt mem (h.payload + 8) (h.payloadSize - 8))) :=
      value_readU16 (by omega)
    have hcount : ((readU16 (h.payload + 10)).value mem).toNat =
        readBigEndian 2 (bytesAt mem (h.payload + 10) (h.payloadSize - 10)) :=
      toNat_readU16 (by omega)
    have htime : (readInt 3 (h.payload + 12)).value mem =
        readSigned 3 (bytesAt mem (h.payload + 12) (h.payloadSize - 12)) :=
      value_readInt (by omega)
    have hseq : (bytesAt mem h.payload h.payloadSize).getD 15 0 = mem (h.payload + 15) :=
      getD_bytesAt (by omega)
    simp only [if_neg hsize, if_neg hcommon, value_bind, value_byte, value_ite, value_pure,
      parseCommonFeedback, drop_bytesAt, hsender, hmedia, hbase, hcount, htime, hseq]
    generalize readBigEndian 2 (bytesAt mem (h.payload + 10) (h.payloadSize - 10)) = statusCount
    generalize clear _ = g
    by_cases hzero : statusCount = 0
    · rw [if_pos hzero, if_pos hzero]
    · rw [if_neg hzero, if_neg hzero]
      have hchunks := @value_parseChunks mem h.payload h.payloadSize statusCount 16 [] []
        g.lastChunk (by omega)
      rcases hread : readChunks statusCount (bytesAt mem (h.payload + 16) (h.payloadSize - 16)) []
        [] g.lastChunk with _ | ⟨deltaSizes, chunks, lastChunk, bytes⟩
      · rw [hread] at hchunks
        dsimp only at hchunks
        rw [hchunks]
        rfl
      · rw [hread] at hchunks
        obtain ⟨index, hindex, rfl, hvalue⟩ := hchunks
        rw [hvalue]
        have hroom : h.payloadSize ≥ index + deltaSizes.sum ↔
            deltaSizes.sum ≤ (bytesAt mem (h.payload + index) (h.payloadSize - index)).length := by
          rw [length_bytesAt]
          omega
        simp only [value_bind, value_ite, value_pure, hroom]
        by_cases hdeltas : deltaSizes.sum ≤
            (bytesAt mem (h.payload + index) (h.payloadSize - index)).length
        · rw [if_pos hdeltas, if_pos hdeltas]
          generalize { g with
            encodedChunks := chunks.dropLast, lastChunk, statusCount } = g'
          have hfound := @value_parseDeltas mem h.payload _ _ deltaSizes g' g.baseSeqNum hindex
          rcases hdelta : readDeltas deltaSizes g' g.baseSeqNum
            (bytesAt mem (h.payload + index) (h.payloadSize - index)) with _ | ⟨g'', rest⟩
          · rw [hdelta] at hfound
            rw [hfound, Option.map_none, Option.map_none]
          · rw [hdelta] at hfound
            obtain ⟨index', hindex', rfl, hvalue'⟩ := hfound
            rw [hvalue', Option.map_some, Option.map_some, length_bytesAt, Nat.sub_sub_self hindex']
        · rw [if_neg hdeltas, if_neg hdeltas, Option.map_some, Option.map_some, length_bytesAt,
            Nat.sub_sub_self hindex]

end TransportFeedback

end NaiveRtc.Rtcp
