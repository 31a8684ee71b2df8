import NaiveRtc.Fec.EncodeOutcome
import NaiveRtc.Fec.MaskNames

/-!
# Frames at other sequence numbers

* `shiftSequence`, `withSeqNumBase` — a packet with its number moved on, and an FEC packet with
  another SN base.
* `encode_shift` — numbers that all move by the same distance change the SN base and nothing else.
* `FecEncoder.Inside` — all accesses so far were inside the arrays; `encode_inside` for packets
  in order.
* `generateRow_of_straddles` — **behind a wrap the masks are read far outside**.
* `startsAnywhere_iff` — when it does not matter where the numbers start.
-/

namespace NaiveRtc.Fec

open BitMatrix ByteIo CopyOnWrite Overwrite
open Rtp (RtpPacket)

/-- The packet with its sequence number `k` further on. -/
def shiftSequence (k : U16) (p : RtpPacket) : RtpPacket :=
  p.setSequenceNumber (p.sequenceNum + k)

/-- The FEC packet with another SN base. -/
def withSeqNumBase (seqNumBase : U16) (fec : FecPacket) : FecPacket :=
  overwrite fec 2 (writeBigEndian 2 seqNumBase.toNat)

/-! ## Payloads -/

section Payloads

variable {k : U16} {p : RtpPacket}

@[simp] theorem shiftSequence_sequenceNum :
    (shiftSequence k p).sequenceNum = p.sequenceNum + k := rfl

@[simp] theorem shiftSequence_size : (shiftSequence k p).size = p.size := rfl

theorem getD_shiftSequence {i : Nat} (h : i < 2 ∨ 4 ≤ i) :
    (shiftSequence k p).bytes.getD i 0 = p.bytes.getD i 0 := by
  show (overwrite p.bytes 2 (writeBigEndian 2 _)).getD i 0 = _
  rw [getD_overwrite, length_writeBigEndian, if_neg (by omega)]

theorem readFrom_shiftSequence {offset n : Nat} (h : offset + n ≤ 2 ∨ 4 ≤ offset) :
    readFrom (shiftSequence k p).bytes offset n = readFrom p.bytes offset n := by
  refine List.map_congr_left fun i hi => ?_
  rw [List.mem_range] at hi
  exact getD_shiftSequence (by omega)

theorem protectPacket_shiftSequence (headerSize : Nat) (fec : FecPacket) :
    protectPacket headerSize fec (shiftSequence k p) = protectPacket headerSize fec p := by
  have hxor : ∀ n dst, xorHeader (shiftSequence k p).bytes n dst = xorHeader p.bytes n dst := by
    intro n dst
    unfold xorHeader
    rw [getD_shiftSequence (by omega), getD_shiftSequence (by omega),
      getD_shiftSequence (by omega), getD_shiftSequence (by omega),
      getD_shiftSequence (by omega), getD_shiftSequence (by omega)]
  have hpayload : ∀ n dst, xorPayload kRtpHeaderSize n (shiftSequence k p).bytes headerSize dst =
      xorPayload kRtpHeaderSize n p.bytes headerSize dst := by
    intro n dst
    have hbyte : ∀ i, (shiftSequence k p).bytes.getD (kRtpHeaderSize + i) 0 =
        p.bytes.getD (kRtpHeaderSize + i) 0 := fun i =>
      getD_shiftSequence (by unfold kRtpHeaderSize; omega)
    unfold xorPayload
    simp only [hbyte]
  unfold protectPacket
  dsimp only
  rw [shiftSequence_size, readFrom_shiftSequence (by omega), readFrom_shiftSequence (by omega),
    readFrom_shiftSequence (by unfold kRtpHeaderSize; omega), hxor, hpayload]

theorem finalizeFecHeader_seqNumBase (seqNumBase seqNumBase' : U16) (packetMask : List UInt8)
    (packetMaskSize : Nat) (fec : FecPacket) :
    finalizeFecHeader seqNumBase' packetMask packetMaskSize fec =
      withSeqNumBase seqNumBase' (finalizeFecHeader seqNumBase packetMask packetMaskSize fec) := by
  have hmove : ∀ (data length mask : List UInt8), length.length = 2 →
      withSeqNumBase seqNumBase'
        (overwrite (overwrite (withSeqNumBase seqNumBase data) 10 length) 12 mask) =
      overwrite (overwrite (withSeqNumBase seqNumBase' data) 10 length) 12 mask := by
    intro data length mask hlength
    unfold withSeqNumBase
    rw [← @overwrite_comm _ _ _ mask 2 12 (by simp), ← @overwrite_comm _ _ _ length 2 10 (by simp),
      overwrite_overwrite (by simp)]
  exact (hmove _ _ _ (length_writeBigEndian _ _)).symm

end Payloads

/-! ## Numbers that move by the same distance -/

/-- All sequence numbers are further on by `c`, or all of them wrap around to be so. -/
def MovesBy (k : U16) (c : Int) (packets : List RtpPacket) : Prop :=
  ∀ p ∈ packets, ((p.sequenceNum + k).toNat : Int) = p.sequenceNum.toNat + c

section MovesBy

variable {k : U16} {c : Int} {packets : List RtpPacket}

theorem MovesBy.tail {p : RtpPacket} (h : MovesBy k c (p :: packets)) : MovesBy k c packets :=
  fun q hq => h q (List.mem_cons_of_mem _ hq)

theorem seqDiff_shift {curr prev : U16} (hcurr : ((curr + k).toNat : Int) = curr.toNat + c)
    (hprev : ((prev + k).toNat : Int) = prev.toNat + c) :
    FecEncoder.seqDiff (curr + k) (prev + k) = FecEncoder.seqDiff curr prev := by
  unfold FecEncoder.seqDiff
  omega

section

variable (h : MovesBy k c packets)
include h

theorem generateRow_shift (masks : List UInt8) (headerSize : Nat)
    (pktMaskIdx mediaPktIdx : Nat) (fec : FecPacket) :
    generateRow masks headerSize (packets.map (shiftSequence k)) pktMaskIdx mediaPktIdx fec =
      generateRow masks headerSize packets pktMaskIdx mediaPktIdx fec := by
  induction packets generalizing pktMaskIdx mediaPktIdx fec with
  | nil => rfl
  | cons p packets ih =>
    have hp := h p List.mem_cons_self
    cases packets with
    | nil =>
      rw [List.map_cons, List.map_nil, generateRow, protectPacket_shiftSequence]
      rfl
    | cons q packets =>
      have hq := h q (List.mem_cons_of_mem _ List.mem_cons_self)
      have hrest := ih h.tail
      rw [List.map_cons] at hrest
      rw [List.map_cons, List.map_cons, generateRow, protectPacket_shiftSequence]
      conv_rhs => rw [generateRow]
      simp only [hrest, shiftSequence_sequenceNum, seqDiff_shift hq hp]

theorem insertLoop_shift (numFec newSize : Nat) {prev : U16}
    (hprev : ((prev + k).toNat : Int) = prev.toNat + c) (oldBit newBit : Nat) (e : FecEncoder) :
    FecEncoder.insertLoop numFec newSize (prev + k) oldBit newBit
        (packets.map (shiftSequence k)) e =
      FecEncoder.insertLoop numFec newSize prev oldBit newBit packets e := by
  induction packets generalizing prev oldBit newBit e with
  | nil => rfl
  | cons p packets ih =>
    have hp := h p List.mem_cons_self
    rw [List.map_cons, FecEncoder.insertLoop, FecEncoder.insertLoop]
    dsimp only
    rw [shiftSequence_sequenceNum, seqDiff_shift hp hprev, ih h.tail hp]

theorem insertZeroInPacketMasks_shift (e : FecEncoder) (numFec : Nat) :
    e.insertZeroInPacketMasks (packets.map (shiftSequence k)) numFec =
      e.insertZeroInPacketMasks packets numFec := by
  rcases packets with _ | ⟨first, _ | ⟨second, packets⟩⟩
  · rfl
  · rfl
  · have hfirst := h first List.mem_cons_self
    have hlast : (((second :: packets).map (shiftSequence k)).getLastD
        (shiftSequence k first)).sequenceNum =
        ((second :: packets).getLastD first).sequenceNum + k := by
      rw [List.getLastD_map]
      rfl
    have hmem : (second :: packets).getLastD first ∈ first :: second :: packets := by
      rw [List.getLastD_eq_getLast?]
      exact List.mem_cons_of_mem _ (List.getLast_mem (by simp))
    have hloop := fun numFec newSize e =>
      insertLoop_shift h.tail numFec newSize hfirst 1 1 e
    simp only [List.map_cons] at hlast hloop ⊢
    unfold FecEncoder.insertZeroInPacketMasks FecEncoder.spreadColumns
    dsimp only
    rw [hlast, shiftSequence_sequenceNum, seqDiff_shift (h _ hmem) hfirst]
    simp only [hloop, List.length_cons, List.length_map]

theorem withMasks_shift (e : FecEncoder) (params : EncodeParams)
    (numFec : Nat) : e.withMasks (packets.map (shiftSequence k)) params numFec =
      e.withMasks packets params numFec := by
  unfold FecEncoder.withMasks
  rw [insertZeroInPacketMasks_shift h, List.length_map]

theorem generateFecPayload_shift (e : FecEncoder) (generated : List FecPacket) :
    e.generateFecPayload (packets.map (shiftSequence k)) generated =
      e.generateFecPayload packets generated := by
  unfold FecEncoder.generateFecPayload
  simp only [generateRow_shift h]

end

theorem finalizeFecHeaders_seqNumBase (e : FecEncoder) (seqNumBase seqNumBase' : U16)
    (fecPackets : List FecPacket) :
    e.finalizeFecHeaders seqNumBase' fecPackets =
      (e.finalizeFecHeaders seqNumBase fecPackets).map (withSeqNumBase seqNumBase') := by
  unfold FecEncoder.finalizeFecHeaders
  rw [List.map_map]
  exact List.map_congr_left fun _ _ => finalizeFecHeader_seqNumBase _ _ _ _ _

theorem accepts_shift (packets : List RtpPacket) (params : EncodeParams) :
    FecEncoder.accepts (packets.map (shiftSequence k)) params =
      FecEncoder.accepts packets params := by
  unfold FecEncoder.accepts
  rw [List.length_map, List.all_map]
  rfl

theorem encode_shift {first : RtpPacket} (h : MovesBy k c (first :: packets)) (e : FecEncoder)
    (params : EncodeParams) :
    e.encode ((first :: packets).map (shiftSequence k)) params [] =
      let r := e.encode (first :: packets) params []
      (r.1, r.2.1.map (withSeqNumBase (first.sequenceNum + k)), r.2.2) := by
  have haccepts := @accepts_shift k (first :: packets) params
  cases hchecks : FecEncoder.accepts (first :: packets) params with
  | false =>
    rw [FecEncoder.encode_of_not_accepts _ _ _ _ hchecks,
      FecEncoder.encode_of_not_accepts _ _ _ _ (haccepts.trans hchecks)]
    rfl
  | true =>
    have hlength : ((first :: packets).map (shiftSequence k)).length = (first :: packets).length :=
      List.length_map _
    by_cases hnumFec :
        calcNumFecPackets (first :: packets).length params.protectionFactor.toNat = 0
    · rw [FecEncoder.encode_of_numFec_zero _ _ _ _ hchecks hnumFec,
        FecEncoder.encode_of_numFec_zero _ _ _ _ (haccepts.trans hchecks) (hlength ▸ hnumFec)]
      rfl
    · rw [FecEncoder.encode_of_accepts _ _ _ _ hchecks rfl hnumFec,
        FecEncoder.encode_of_accepts _ _ _ _ (haccepts.trans hchecks) (by rw [hlength]) hnumFec]
      dsimp only
      rw [withMasks_shift h, generateFecPayload_shift h]
      exact Prod.ext rfl (Prod.ext (finalizeFecHeaders_seqNumBase _ _ _ _) rfl)

theorem encode_seqNumBase {first : RtpPacket} (e : FecEncoder) (params : EncodeParams) :
    (e.encode (first :: packets) params []).2.1 =
      (e.encode (first :: packets) params []).2.1.map (withSeqNumBase first.sequenceNum) := by
  cases hchecks : FecEncoder.accepts (first :: packets) params with
  | false =>
    rw [FecEncoder.encode_of_not_accepts _ _ _ _ hchecks]
    rfl
  | true =>
    by_cases hnumFec :
        calcNumFecPackets (first :: packets).length params.protectionFactor.toNat = 0
    · rw [FecEncoder.encode_of_numFec_zero _ _ _ _ hchecks hnumFec]
      rfl
    · rw [FecEncoder.encode_of_accepts _ _ _ _ hchecks rfl hnumFec]
      exact finalizeFecHeaders_seqNumBase _ _ _ _

end MovesBy

/-! ## Accesses that stay inside -/

/-- The arrays are there, and all accesses so far were inside. -/
structure FecEncoder.Inside (e : FecEncoder) : Prop extends e.Sized where
  packetMaskSize_le : e.packetMaskSize ≤ 6
  inBounds : e.inBounds = true

theorem columnInside_of_lt {numFec size bit : Nat} {masks : List UInt8} (hnumFec : numFec ≤ 48)
    (hsize : size ≤ 6) (hbit : bit < 48) (hmasks : masks.length = maxPacketMaskCount) :
    columnInside numFec size bit masks = true := by
  refine List.all_eq_true.2 fun row hrow => ?_
  rw [List.mem_range] at hrow
  have hplace : row * size ≤ 47 * 6 := Nat.mul_le_mul (by omega) hsize
  have hcount : maxPacketMaskCount = 288 := rfl
  rw [decide_eq_true_eq]
  omega

section Inside

variable {e : FecEncoder} {numFec newSize : Nat}

theorem FecEncoder.Sized.preparePacketMasks (h : e.Sized) (numMedia numFec : Nat)
    (params : EncodeParams) : (e.preparePacketMasks numMedia numFec params).Sized where
  packetMasks := by
    have hlength : ∀ (writes : List MaskWrite) (masks : List UInt8),
        (writes.foldl (fun masks write => overwrite masks write.1 write.2) masks).length =
          masks.length := by
      intro writes
      induction writes with
      | nil => exact fun _ => rfl
      | cons write writes ih => exact fun masks => (ih _).trans (length_overwrite _ _ _)
    exact (hlength _ _).trans ((length_overwrite _ _ _).trans h.packetMasks)
  tmpPacketMasks := h.tmpPacketMasks

namespace FecEncoder.Inside

theorem insertZeros (h : e.Inside) (hnumFec : numFec ≤ 48) (hsize : newSize ≤ 6) {newBit : Nat}
    (hbit : newBit < 48) (zeros : Nat) : (e.insertZeros zeros numFec newSize newBit).Inside where
  toSized := h.toSized.insertZeros _ _ _ _
  packetMaskSize_le := h.packetMaskSize_le
  inBounds := by
    show (e.inBounds && _) = true
    rw [h.inBounds, columnInside_of_lt hnumFec hsize hbit h.tmpPacketMasks]
    rfl

theorem copyToNew (h : e.Inside) (hnumFec : numFec ≤ 48) (hsize : newSize ≤ 6)
    {oldBit newBit : Nat} (hold : oldBit < 48) (hnew : newBit < 48) :
    (e.copyToNew numFec newSize oldBit newBit).Inside where
  toSized := h.toSized.copyToNew _ _ _ _
  packetMaskSize_le := h.packetMaskSize_le
  inBounds := by
    show (e.inBounds && _ && _) = true
    rw [h.inBounds, columnInside_of_lt hnumFec hsize hnew h.tmpPacketMasks,
      columnInside_of_lt hnumFec h.packetMaskSize_le hold h.packetMasks]
    rfl

theorem insertLoop {base : Nat} {prev : U16} {packets : List RtpPacket} (h : e.Inside)
    (hnumFec : numFec ≤ 48) (hsize : newSize ≤ 6) (horder : InOrder base prev.toNat packets)
    {i : Nat} (hi : i + packets.length ≤ 48) :
    (insertLoop numFec newSize prev i (prev.toNat - base + 1) packets e).1.Inside := by
  induction packets generalizing prev i e with
  | nil => exact h
  | cons p packets ih =>
    have hspan := horder.span p List.mem_cons_self
    obtain ⟨hlt, htail⟩ := horder.tail
    rw [List.length_cons] at hi
    rw [insertLoop_cons horder]
    refine ih (copyToNew ?_ hnumFec hsize (by omega) (by omega)) htail (by omega)
    split
    · exact h.insertZeros hnumFec hsize (by omega) _
    · exact h

theorem shiftLast (h : e.Inside) (hnumFec : numFec ≤ 48) (hsize : newSize ≤ 6) {newBit : Nat}
    (hbit : newBit ≤ 48) : (e.shiftLast numFec newSize newBit).Inside := by
  have hsized := h.toSized.shiftLast numFec newSize newBit
  unfold FecEncoder.shiftLast at hsized ⊢
  by_cases hmod : newBit % 8 ≠ 0
  · rw [if_pos hmod] at hsized ⊢
    refine ⟨hsized, h.packetMaskSize_le, ?_⟩
    show (e.inBounds && _) = true
    rw [h.inBounds, columnInside_of_lt hnumFec hsize (by omega) h.tmpPacketMasks]
    rfl
  · rw [if_neg hmod]
    exact h

variable {first : RtpPacket} {packets : List RtpPacket}

theorem spreadColumns (h : e.Inside) (hnumFec : numFec ≤ 48) (hsize : newSize ≤ 6)
    (horder : InOrder first.sequenceNum.toNat first.sequenceNum.toNat packets)
    (hcount : (e.spreadColumns numFec newSize first packets).2 ≤ 48) :
    (e.spreadColumns numFec newSize first packets).1.Inside := by
  have hroom : numFec * newSize ≤ maxPacketMaskCount := Nat.mul_le_mul hnumFec hsize
  have hzero : ({ e with
      tmpPacketMasks := overwrite e.tmpPacketMasks 0 (List.replicate (numFec * newSize) 0)
      inBounds := e.inBounds && decide (numFec * newSize ≤ e.tmpPacketMasks.length) } :
      FecEncoder).Inside := by
    refine ⟨⟨h.packetMasks, (length_overwrite _ _ _).trans h.tmpPacketMasks⟩,
      h.packetMaskSize_le, ?_⟩
    show (e.inBounds && _) = true
    rw [h.inBounds, h.tmpPacketMasks, decide_eq_true hroom]
    rfl
  have hspan := spanOf_le horder
  have hloop := @insertLoop _ _ newSize _ _ _ (hzero.copyToNew hnumFec hsize
    (Nat.zero_lt_succ 47) (Nat.zero_lt_succ 47)) hnumFec hsize horder 1 (by omega)
  rw [Nat.sub_self] at hloop
  have hlast := hloop.shiftLast hnumFec hsize hcount
  refine ⟨⟨(length_overwrite _ _ _).trans hlast.packetMasks, hlast.tmpPacketMasks⟩,
    hlast.packetMaskSize_le, ?_⟩
  exact Bool.and_eq_true_iff.2 ⟨hlast.inBounds, decide_eq_true (hlast.packetMasks ▸ hroom)⟩

theorem insertZeroInPacketMasks (h : e.Inside) (hpos : 0 < e.packetMaskSize) (hnumFec : numFec ≤ 48)
    (horder : InOrder first.sequenceNum.toNat first.sequenceNum.toNat packets) :
    (e.insertZeroInPacketMasks (first :: packets) numFec).1.Inside := by
  by_cases hne : packets = []
  · rw [hne]
    exact h
  · have hspan := spanOf_le horder
    have hcount := insertZeroInPacketMasks_snd horder hne h.toSized hpos hnumFec
    rw [insertZeroInPacketMasks_eq horder hne] at hcount ⊢
    by_cases hgap : spanOf first packets = packets.length + 1
    · rw [if_pos hgap]
      exact h
    · rw [if_neg hgap] at hcount ⊢
      refine h.spreadColumns hnumFec (Fec.packetMaskSize_le _) horder ?_
      dsimp only at hcount
      omega

theorem preparePacketMasks (hsized : e.Sized) (hinBounds : e.inBounds = true) {numMedia : Nat}
    (hmedia : numMedia ≤ kUlpFecMaxMediaPackets) (hnumFec : numFec ≤ 48) (params : EncodeParams) :
    (e.preparePacketMasks numMedia numFec params).Inside where
  toSized := hsized.preparePacketMasks _ _ _
  packetMaskSize_le := Fec.packetMaskSize_le numFec
  inBounds := by
    have hroom : numFec * Fec.packetMaskSize numFec ≤ e.packetMasks.length := by
      rw [hsized.packetMasks]
      exact numFec_mul_le hnumFec numFec
    unfold FecEncoder.preparePacketMasks
    dsimp only
    rw [hinBounds, decide_eq_true hroom, Bool.true_and, Bool.true_and, List.all_eq_true]
    intro write hwrite
    rw [decide_eq_true_eq, hsized.packetMasks]
    exact generatePacketMasks_inside hmedia hwrite

end FecEncoder.Inside

end Inside

theorem calcNumFecPackets_le {n factor : Nat} (hn : 0 < n) (hfactor : factor < 256) :
    calcNumFecPackets n factor ≤ n := by
  unfold calcNumFecPackets
  have hmul : n * factor ≤ n * 255 := Nat.mul_le_mul_left _ (by omega)
  dsimp only
  split <;> omega

theorem calcNumFecPackets_eq_zero {n factor : Nat} :
    calcNumFecPackets n factor = 0 ↔ factor = 0 := by
  unfold calcNumFecPackets
  dsimp only
  constructor
  · intro hzero
    by_contra hne
    split at hzero
    · cases hzero
    · next hnone => exact hnone ⟨by omega, hzero⟩
  · rintro rfl
    rw [Nat.mul_zero]
    rfl

section InOrder

variable {first : RtpPacket} {packets : List RtpPacket}

theorem generateFecPayload_inside
    (horder : InOrder first.sequenceNum.toNat first.sequenceNum.toNat packets) {e : FecEncoder}
    (hsized : e.Sized) (hsize : e.packetMaskSize = packetMaskSize (spanOf first packets))
    {generated : List FecPacket} (hlength : generated.length ≤ 48) :
    (e.generateFecPayload (first :: packets) generated).2 = true := by
  unfold FecEncoder.generateFecPayload
  rw [List.all_eq_true]
  intro row hrow
  obtain ⟨⟨fec, i⟩, hmem, rfl⟩ := List.mem_map.1 hrow
  have hi := List.snd_lt_of_mem_zipIdx hmem
  dsimp only at hi ⊢
  rw [hsize, generateRow_names horder hsized.packetMasks (by omega)]

theorem withMasks_packetMaskSize
    (horder : InOrder first.sequenceNum.toNat first.sequenceNum.toNat packets) {e : FecEncoder}
    (hsized : e.Sized) (hinBounds : e.inBounds = true) {numFec : Nat} (hnumFec : numFec ≤ 48)
    (params : EncodeParams) : (e.withMasks (first :: packets) params numFec).Inside ∧
      (e.withMasks (first :: packets) params numFec).packetMaskSize =
        packetMaskSize (spanOf first packets) := by
  have hspan := spanOf_le horder
  have hprepared := FecEncoder.Inside.preparePacketMasks hsized hinBounds
    (show (first :: packets).length ≤ kUlpFecMaxMediaPackets by
      rw [List.length_cons]
      unfold kUlpFecMaxMediaPackets
      omega) hnumFec params
  have hmasks := hprepared.insertZeroInPacketMasks (packetMaskSize_pos numFec) hnumFec horder
  have hbits : ((e.preparePacketMasks (first :: packets).length numFec
      params).insertZeroInPacketMasks (first :: packets) numFec).2 =
        (spanOf first packets : Int) := by
    by_cases hne : packets = []
    · rw [hne]
      unfold spanOf lastSeq
      rw [List.map_nil, List.getLastD_nil, Nat.sub_self]
      rfl
    · exact insertZeroInPacketMasks_snd horder hne hprepared.toSized (packetMaskSize_pos numFec)
        hnumFec
  have hsize : (e.withMasks (first :: packets) params numFec).packetMaskSize =
      packetMaskSize (spanOf first packets) := by
    show packetMaskSize (sizeT _) = _
    rw [hbits, sizeT_natCast (by omega)]
  refine ⟨⟨⟨hmasks.packetMasks, hmasks.tmpPacketMasks⟩, ?_, hmasks.inBounds⟩, hsize⟩
  rw [hsize]
  exact packetMaskSize_le _

/-- A row of the masks names one of the packets.  With numbers missing, the bits are those that
`InsertZeroInPacketMasks` reads, which takes the rows to be as long as their number suggests. -/
def FecEncoder.RowNames (e : FecEncoder) (first : RtpPacket) (packets : List RtpPacket)
    (numFec row : Nat) : Prop :=
  ∃ i ≤ packets.length,
    if spanOf first packets = packets.length + 1 then
      bitAt e.packetMasks (Fec.packetMaskSize (packets.length + 1)) row i = true
    else columnBit (Fec.packetMaskSize numFec) numFec e.packetMasks i row = true

/-- In the masks that `GeneratePacketMasks` fills, every row names a packet, or its FEC packet is
there already and has room for a header. -/
def FecEncoder.RowsWritten (e : FecEncoder) (first : RtpPacket) (packets : List RtpPacket)
    (params : EncodeParams) (generated : List FecPacket) : Prop :=
  let numFec := calcNumFecPackets (packets.length + 1) params.protectionFactor.toNat
  ∀ row < numFec,
    (e.preparePacketMasks (packets.length + 1) numFec params).RowNames first packets numFec row ∨
      fecHeaderSize (Fec.packetMaskSize (spanOf first packets)) ≤ (generated.getD row []).length

theorem le_length_xorPayload (offset size : Nat) (src : List UInt8) (dstOffset : Nat)
    (dst : FecPacket) : dst.length ≤ (xorPayload offset size src dstOffset dst).length := by
  unfold xorPayload
  dsimp only
  rw [length_overwrite]
  split
  · rw [length_resized]
    omega
  · exact le_refl _

theorem le_length_protectPacket (headerSize : Nat) (fec : FecPacket) (p : RtpPacket) :
    headerSize ≤ (protectPacket headerSize fec p).length := by
  have hroom : headerSize ≤ (if fec.length < headerSize + (p.size - kRtpHeaderSize) then
      resized (headerSize + (p.size - kRtpHeaderSize)) fec else fec).length := by
    split
    · rw [length_resized]
      exact Nat.le_add_right _ _
    · omega
  unfold protectPacket
  dsimp only
  generalize (if fec.length < headerSize + (p.size - kRtpHeaderSize) then
    resized (headerSize + (p.size - kRtpHeaderSize)) fec else fec) = grown at hroom ⊢
  split
  · simp only [length_overwrite]
    exact hroom
  · refine le_trans ?_ (le_length_xorPayload _ _ _ _ _)
    rw [xorHeader, length_overwrite]
    exact hroom

theorem le_length_foldl_protectPacket (headerSize : Nat) (packets : List RtpPacket)
    (fec : FecPacket) : headerSize ≤ (packets.foldl (protectPacket headerSize) fec).length ↔
      packets ≠ [] ∨ headerSize ≤ fec.length := by
  induction packets generalizing fec with
  | nil => simp
  | cons p packets ih =>
    rw [List.foldl_cons, ih]
    simp [le_length_protectPacket]

theorem rowNames_iff (horder : InOrder first.sequenceNum.toNat first.sequenceNum.toNat packets)
    {e : FecEncoder} (hsized : e.Sized) {numFec : Nat}
    (hsize : e.packetMaskSize = packetMaskSize numFec)
    (hnumFec : numFec ≤ 48) {row : Nat} (hrow : row < numFec) :
    e.RowNames first packets numFec row ↔ ∃ p ∈ first :: packets,
      bitAt (e.insertZeroInPacketMasks (first :: packets) numFec).1.packetMasks
        (packetMaskSize (spanOf first packets)) row
        (p.sequenceNum.toNat - first.sequenceNum.toNat) = true := by
  have hget : ∀ {i}, i ≤ packets.length → ∃ p, (first :: packets)[i]? = some p := fun hi =>
    ⟨_, List.getElem?_eq_getElem (by rw [List.length_cons]; omega)⟩
  have hindex : ∀ {i : Nat} {p : RtpPacket}, (first :: packets)[i]? = some p →
    i ≤ packets.length := by
    intro i p hp
    have hlt := (List.getElem?_eq_some_iff.1 hp).1
    rw [List.length_cons] at hlt
    omega
  unfold FecEncoder.RowNames
  by_cases hgap : spanOf first packets = packets.length + 1
  · have hsame : (e.insertZeroInPacketMasks (first :: packets) numFec).1 = e := by
      by_cases hne : packets = []
      · rw [hne]
        rfl
      · rw [insertZeroInPacketMasks_eq horder hne, if_pos hgap]
    simp only [hsame, hgap, if_true]
    have hplace : ∀ {i p}, (first :: packets)[i]? = some p →
        p.sequenceNum.toNat - first.sequenceNum.toNat = i := by
      intro i p hp
      have hbounds := place_bounds horder hp
      have hle := hindex hp
      omega
    constructor
    · rintro ⟨i, hi, hbit⟩
      obtain ⟨p, hp⟩ := hget hi
      exact ⟨p, List.mem_of_getElem? hp, by rwa [hplace hp]⟩
    · rintro ⟨p, hmem, hbit⟩
      obtain ⟨i, hp⟩ := List.mem_iff_getElem?.1 hmem
      exact ⟨i, hindex hp, by rwa [hplace hp] at hbit⟩
  · have hne : packets ≠ [] := by
      rintro rfl
      exact hgap (by simp [spanOf, lastSeq])
    have hbits := fun place => namesBits_of_gap horder hne hgap hsized
      (hsize ▸ packetMaskSize_pos numFec) hnumFec hrow place
    simp only [hgap, hbits, ← hsize, if_false]
    constructor
    · rintro ⟨i, hi, hbit⟩
      obtain ⟨p, hp⟩ := hget hi
      exact ⟨p, List.mem_of_getElem? hp, i, p, hp, rfl, hbit⟩
    · rintro ⟨p, -, i, q, hq, -, hbit⟩
      exact ⟨i, hindex hq, hbit⟩

/-- **Packets in order are encoded with all accesses inside exactly if** every header is written
inside its FEC packet. -/
theorem encode_inBounds_iff {e : FecEncoder} (hsized : e.Sized) (hinBounds : e.inBounds = true)
    (horder : InOrder first.sequenceNum.toNat first.sequenceNum.toNat packets)
    (params : EncodeParams) (generated : List FecPacket) :
    (e.encode (first :: packets) params generated).1.inBounds = true ↔
      (FecEncoder.accepts (first :: packets) params = true →
        e.RowsWritten first packets params generated) := by
  cases hchecks : FecEncoder.accepts (first :: packets) params with
  | false =>
    rw [FecEncoder.encode_of_not_accepts _ _ _ _ hchecks]
    exact iff_of_true hinBounds fun h => (nomatch h)
  | true =>
    simp only [forall_const]
    have hspan := spanOf_le horder
    unfold FecEncoder.RowsWritten
    dsimp only
    have hle := calcNumFecPackets_le (Nat.succ_pos packets.length) params.protectionFactor.toNat_lt
    generalize hnumFec : calcNumFecPackets (packets.length + 1) params.protectionFactor.toNat =
      numFec at hle
    by_cases hzero : numFec = 0
    · rw [FecEncoder.encode_of_numFec_zero _ _ _ _ hchecks (hnumFec.trans hzero)]
      exact iff_of_true hinBounds fun row hrow => absurd hrow (by omega)
    · have hfit : numFec ≤ 48 := by omega
      obtain ⟨hmasks, hsize⟩ := withMasks_packetMaskSize horder hsized hinBounds hfit params
      have hprepared := FecEncoder.Inside.preparePacketMasks hsized hinBounds
        (show packets.length + 1 ≤ kUlpFecMaxMediaPackets by
          unfold kUlpFecMaxMediaPackets
          omega) hfit params
      rw [FecEncoder.encode_of_accepts _ _ _ _ hchecks hnumFec hzero]
      dsimp only
      have hlength : (generated.take numFec ++
          List.replicate (numFec - generated.length) ([] : FecPacket)).length = numFec := by
        rw [List.length_append, List.length_take, List.length_replicate]
        omega
      rw [hmasks.inBounds, generateFecPayload_inside horder hmasks.toSized hsize
        (hlength.le.trans hfit), Bool.true_and, Bool.true_and, FecEncoder.headersInside,
        List.all_eq_true]
      have hwritten : ∀ row < numFec, ∀ fec,
          decide (fecHeaderSize (e.withMasks (first :: packets) params numFec).packetMaskSize ≤
            (generateRow (e.withMasks (first :: packets) params numFec).packetMasks
              (fecHeaderSize (e.withMasks (first :: packets) params numFec).packetMaskSize)
              (first :: packets) (row * (e.withMasks (first :: packets) params numFec).packetMaskSize)
              0 fec).1.length) = true ↔
            (e.preparePacketMasks (packets.length + 1) numFec params).RowNames first packets numFec
              row ∨ fecHeaderSize (packetMaskSize (spanOf first packets)) ≤ fec.length := by
        intro row hrow fec
        rw [decide_eq_true_eq, hsize, generateRow_names horder hmasks.packetMasks (by omega),
          le_length_foldl_protectPacket, rowNames_iff horder hprepared.toSized rfl hfit hrow, Ne,
          List.filter_eq_nil_iff]
        push Not
        rfl
      have hget : ∀ row < numFec, (generated.take numFec ++
          List.replicate (numFec - generated.length) ([] : FecPacket))[row]? =
            some (generated.getD row []) := by
        intro row hrow
        rw [List.getElem?_append, List.length_take]
        by_cases hthere : row < generated.length
        · rw [if_pos (by omega), List.getElem?_take_of_lt hrow, List.getD_eq_getElem _ _ hthere,
            List.getElem?_eq_getElem hthere]
        · rw [if_neg (by omega), List.getElem?_replicate, if_pos (by omega),
            List.getD_eq_default _ _ (by omega)]
      constructor
      · intro hall row hrow
        refine (hwritten row hrow (generated.getD row [])).1 (hall _ ?_)
        refine List.mem_map.2 ⟨_, List.mem_map.2 ⟨(generated.getD row [], row), ?_, rfl⟩, rfl⟩
        exact List.mem_zipIdx_iff_getElem?.2 (hget row hrow)
      · intro hall fec hmem
        obtain ⟨written, hwrite, rfl⟩ := List.mem_map.1 hmem
        obtain ⟨⟨fec, row⟩, hthere, rfl⟩ := List.mem_map.1 hwrite
        have hrow : row < numFec := by
          have hlt := List.snd_lt_of_mem_zipIdx hthere
          rw [hlength] at hlt
          omega
        have hfec := List.mem_zipIdx_iff_getElem?.1 hthere
        rw [hget row hrow] at hfec
        obtain rfl := Option.some.inj hfec
        exact (hwritten row hrow _).2 (hall row hrow)

end InOrder

/-! ## Wraps -/

/-- The number of sequence numbers from the first packet on. -/
def seqOffset (first p : RtpPacket) : Nat := (p.sequenceNum - first.sequenceNum).toNat

/-- The numbers increase, with wraps, and span 48 at most. -/
def Increasing (first : RtpPacket) (packets : List RtpPacket) : Prop :=
  ((first :: packets).map (seqOffset first)).Pairwise (· < ·) ∧
    ∀ p ∈ packets, seqOffset first p < 48

/-- The numbers wrap around behind the first packet. -/
def Straddles (first : RtpPacket) (packets : List RtpPacket) : Prop :=
  ∃ p ∈ packets, p.sequenceNum.toNat < first.sequenceNum.toNat

instance (first : RtpPacket) (packets : List RtpPacket) : Decidable (Straddles first packets) :=
  inferInstanceAs (Decidable (∃ p ∈ packets, _))

section Straddles

variable {first : RtpPacket} {packets : List RtpPacket}

theorem seqOffset_eq (first p : RtpPacket) :
    seqOffset first p =
      (2 ^ 16 - first.sequenceNum.toNat + p.sequenceNum.toNat) % 2 ^ 16 := by
  unfold seqOffset
  rw [BitVec.toNat_sub]

theorem Increasing.inOrder (h : Increasing first packets) (hwrap : ¬Straddles first packets) :
    InOrder first.sequenceNum.toNat first.sequenceNum.toNat packets := by
  have hplace : ∀ p ∈ first :: packets,
      seqOffset first p = p.sequenceNum.toNat - first.sequenceNum.toNat ∧
        first.sequenceNum.toNat ≤ p.sequenceNum.toNat := by
    intro p hp
    have hle : first.sequenceNum.toNat ≤ p.sequenceNum.toNat := by
      rcases List.mem_cons.1 hp with rfl | hp
      · exact Nat.le_refl _
      · exact Nat.not_lt.1 fun hlt => hwrap ⟨p, hp, hlt⟩
    have hlt := p.sequenceNum.isLt
    rw [seqOffset_eq]
    omega
  refine ⟨?_, Nat.le_refl _, fun p hp => ?_⟩
  · have hsorted := h.1
    rw [List.pairwise_map] at hsorted
    show ((first :: packets).map fun p => p.sequenceNum.toNat).Pairwise (· < ·)
    rw [List.pairwise_map]
    refine hsorted.imp_of_mem fun {p q} hp hq hlt => ?_
    have hp := hplace p hp
    have hq := hplace q hq
    omega
  · have hspan := h.2 p hp
    have hp := hplace p (List.mem_cons_of_mem _ hp)
    omega

theorem generateRow_of_outside {masks : List UInt8} {headerSize pktMaskIdx mediaPktIdx : Nat}
    {p : RtpPacket} {packets : List RtpPacket} {fec : FecPacket} (h : masks.length ≤ pktMaskIdx) :
    (generateRow masks headerSize (p :: packets) pktMaskIdx mediaPktIdx fec).2 = false := by
  cases packets with
  | nil =>
    rw [generateRow]
    exact Bool.and_eq_false_iff.2 (Or.inl (decide_eq_false (Nat.not_lt.2 h)))
  | cons q packets =>
    rw [generateRow]
    exact Bool.and_eq_false_iff.2 (Or.inl (decide_eq_false (Nat.not_lt.2 h)))

theorem generateRow_of_straddles {masks : List UInt8} (hmasks : masks.length < 2 ^ 32)
    {base : Nat} (headerSize : Nat) {p : RtpPacket}
    (hsorted : ((p :: packets).map fun q => (2 ^ 16 - base + q.sequenceNum.toNat) % 2 ^ 16).Pairwise
      (· < ·))
    (hspan : ∀ q ∈ p :: packets, (2 ^ 16 - base + q.sequenceNum.toNat) % 2 ^ 16 < 48)
    (hbase : base < 2 ^ 16) (hp : base ≤ p.sequenceNum.toNat)
    (hwrap : ∃ q ∈ packets, q.sequenceNum.toNat < base)
    (pktMaskIdx mediaPktIdx : Nat) (hbit : mediaPktIdx < 8) (fec : FecPacket) :
    (generateRow masks headerSize (p :: packets) pktMaskIdx mediaPktIdx fec).2 = false := by
  induction packets generalizing p pktMaskIdx mediaPktIdx fec with
  | nil =>
    obtain ⟨q, hq, -⟩ := hwrap
    cases hq
  | cons q packets ih =>
    by_cases hinside : pktMaskIdx < masks.length
    · have hpspan := hspan p List.mem_cons_self
      have hqspan := hspan q (List.mem_cons_of_mem _ List.mem_cons_self)
      have hpq := List.rel_of_pairwise_cons hsorted
        (List.mem_map_of_mem (List.mem_cons_self (a := q) (l := packets)))
      have hplt := p.sequenceNum.isLt
      have hqlt := q.sequenceNum.isLt
      rw [generateRow]
      refine Bool.and_eq_false_iff.2 (Or.inr ?_)
      by_cases hq : base ≤ q.sequenceNum.toNat
      · obtain ⟨r, hr, hlt⟩ := hwrap
        have htail : ∃ r ∈ packets, r.sequenceNum.toNat < base := by
          rcases List.mem_cons.1 hr with rfl | hr
          · omega
          · exact ⟨r, hr, hlt⟩
        exact ih (List.Pairwise.of_cons hsorted) (fun r hr => hspan r (List.mem_cons_of_mem _ hr))
          hq htail _ _ (Nat.mod_lt _ (by decide)) _
      · -- the difference is negative, and is added without its sign
        have hfar : masks.length ≤ sizeT ((pktMaskIdx + sizeT (mediaPktIdx +
            FecEncoder.seqDiff q.sequenceNum p.sequenceNum) / 8 : Nat)) := by
          unfold sizeT FecEncoder.seqDiff
          omega
        exact generateRow_of_outside hfar
    · exact generateRow_of_outside (Nat.not_lt.1 hinside)

theorem encode_of_straddles (h : Increasing first packets) (hwrap : Straddles first packets)
    {e : FecEncoder} (hsized : e.Sized) {params : EncodeParams}
    (haccepts : FecEncoder.accepts (first :: packets) params = true)
    (hfactor : params.protectionFactor ≠ 0) (generated : List FecPacket) :
    (e.encode (first :: packets) params generated).1.inBounds = false := by
  have hnumFec : calcNumFecPackets (first :: packets).length params.protectionFactor.toNat ≠ 0 := by
    rw [Ne, calcNumFecPackets_eq_zero]
    intro hzero
    exact hfactor (UInt8.toNat_inj.1 hzero)
  rw [FecEncoder.encode_of_accepts _ _ _ _ haccepts rfl hnumFec]
  generalize calcNumFecPackets _ _ = numFec at hnumFec
  obtain ⟨n, rfl⟩ := Nat.exists_eq_succ_of_ne_zero hnumFec
  have hmasks : (e.withMasks (first :: packets) params (n + 1)).packetMasks.length < 2 ^ 32 := by
    have hsizedMasks := (hsized.preparePacketMasks (first :: packets).length (n + 1)
      params).insertZeroInPacketMasks (first :: packets) (n + 1)
    exact hsizedMasks.packetMasks ▸ (by decide)
  refine Bool.and_eq_false_iff.2 (Or.inl (Bool.and_eq_false_iff.2 (Or.inr ?_)))
  have hrow := @generateRow_of_straddles packets _ hmasks first.sequenceNum.toNat
    (fecHeaderSize (e.withMasks (first :: packets) params (n + 1)).packetMaskSize) first
    (by
      have hoffset : seqOffset first = fun q =>
        (2 ^ 16 - first.sequenceNum.toNat + q.sequenceNum.toNat) % 2 ^ 16 :=
          funext (seqOffset_eq first)
      rw [← hoffset]
      exact h.1)
    (fun q hq => by
      rcases List.mem_cons.1 hq with rfl | hq
      · have hlt := q.sequenceNum.isLt
        omega
      · rw [← seqOffset_eq]
        exact h.2 q hq)
    first.sequenceNum.isLt (Nat.le_refl _) hwrap
    (0 * (e.withMasks (first :: packets) params (n + 1)).packetMaskSize) 0 (by decide)
  obtain ⟨fec, rest, hgenerated⟩ : ∃ fec rest, generated.take (n + 1) ++
      List.replicate (n + 1 - generated.length) ([] : FecPacket) = fec :: rest := by
    refine List.exists_cons_of_length_pos ?_
    rw [List.length_append, List.length_take, List.length_replicate]
    omega
  unfold FecEncoder.generateFecPayload
  rw [hgenerated, List.zipIdx_cons, List.map_cons]
  exact Bool.and_eq_false_iff.2 (Or.inl (hrow fec))

end Straddles

/-! ## Where the numbers start -/

/-- Encoding works the same wherever the numbers start: with all of them `k` further on, the FEC
packets have another SN base and are the same otherwise, and neither run accesses the masks
outside. -/
def StartsAnywhere (e : FecEncoder) (first : RtpPacket) (packets : List RtpPacket)
    (params : EncodeParams) (k : U16) : Prop :=
  let r := e.encode (first :: packets) params []
  let shifted := e.encode ((first :: packets).map (shiftSequence k)) params []
  shifted.2.2 = r.2.2 ∧ r.2.1 = r.2.1.map (withSeqNumBase first.sequenceNum) ∧
    shifted.2.1 = r.2.1.map (withSeqNumBase (first.sequenceNum + k)) ∧
    shifted.1.packetMasks = r.1.packetMasks ∧ r.1.inBounds = true ∧ shifted.1.inBounds = true

section StartsAnywhere

variable {e : FecEncoder} {first : RtpPacket} {packets : List RtpPacket} {params : EncodeParams}
  {k : U16}

theorem movesBy_of_not_straddles (h : Increasing first packets) (hwrap : ¬Straddles first packets)
    (hshifted : ¬Straddles (shiftSequence k first) (packets.map (shiftSequence k))) :
    MovesBy k (((first.sequenceNum + k).toNat : Int) - first.sequenceNum.toNat)
      (first :: packets) := by
  intro p hp
  rcases List.mem_cons.1 hp with rfl | hp
  · omega
  · have hspan := h.2 p hp
    have hle := Nat.not_lt.1 fun hlt => hwrap ⟨p, hp, hlt⟩
    have hleShifted := Nat.not_lt.1 fun hlt =>
      hshifted ⟨shiftSequence k p, List.mem_map_of_mem hp, hlt⟩
    have hlt := p.sequenceNum.isLt
    have hk := k.isLt
    rw [seqOffset_eq] at hspan
    rw [shiftSequence_sequenceNum, shiftSequence_sequenceNum, BitVec.toNat_add,
      BitVec.toNat_add] at hleShifted
    rw [BitVec.toNat_add, BitVec.toNat_add]
    omega

theorem seqOffset_shiftSequence (first p : RtpPacket) :
    seqOffset (shiftSequence k first) (shiftSequence k p) = seqOffset first p := by
  rw [seqOffset_eq, seqOffset_eq, shiftSequence_sequenceNum, shiftSequence_sequenceNum,
    BitVec.toNat_add, BitVec.toNat_add]
  have hfirst := first.sequenceNum.isLt
  have hp := p.sequenceNum.isLt
  have hk := k.isLt
  omega

theorem Increasing.shift (h : Increasing first packets) :
    Increasing (shiftSequence k first) (packets.map (shiftSequence k)) := by
  refine ⟨?_, fun p hp => ?_⟩
  · have hsame : ((shiftSequence k first :: packets.map (shiftSequence k)).map
        (seqOffset (shiftSequence k first))) = (first :: packets).map (seqOffset first) := by
      rw [← List.map_cons, List.map_map]
      exact List.map_congr_left fun p _ => seqOffset_shiftSequence first p
    rw [hsame]
    exact h.1
  · obtain ⟨q, hq, rfl⟩ := List.mem_map.1 hp
    rw [seqOffset_shiftSequence]
    exact h.2 q hq

/-- **It does not matter where the numbers start exactly if** nothing is encoded, or the numbers
wrap around neither before nor after and every row of the masks names a packet. -/
theorem startsAnywhere_iff (hsized : e.Sized) (hinBounds : e.inBounds = true)
    (h : Increasing first packets) :
    StartsAnywhere e first packets params k ↔
      FecEncoder.accepts (first :: packets) params = false ∨ params.protectionFactor = 0 ∨
        ¬Straddles first packets ∧
          ¬Straddles (shiftSequence k first) (packets.map (shiftSequence k)) ∧
          e.RowsWritten first packets params [] := by
  constructor
  · rintro ⟨-, -, -, -, hinside, hinsideShifted⟩
    by_contra hnot
    obtain ⟨haccepts, hnot⟩ := not_or.1 hnot
    obtain ⟨hfactor, hwraps⟩ := not_or.1 hnot
    rw [Bool.not_eq_false] at haccepts
    by_cases hwrap : Straddles first packets
    · rw [encode_of_straddles h hwrap hsized haccepts hfactor []] at hinside
      cases hinside
    · have hrows := (encode_inBounds_iff hsized hinBounds (h.inOrder hwrap) params []).1 hinside haccepts
      have hwrapShifted := not_not.1 fun hno => hwraps ⟨hwrap, hno, hrows⟩
      rw [List.map_cons, encode_of_straddles h.shift hwrapShifted hsized
        (by rw [← List.map_cons, accepts_shift]; exact haccepts) hfactor []] at hinsideShifted
      cases hinsideShifted
  · intro hcases
    have hbase := @encode_seqNumBase packets first e params
    by_cases haccepts : FecEncoder.accepts (first :: packets) params = false
    · have hshifted := (@accepts_shift k (first :: packets) params).trans haccepts
      unfold StartsAnywhere
      rw [FecEncoder.encode_of_not_accepts _ _ _ _ haccepts,
        FecEncoder.encode_of_not_accepts _ _ _ _ hshifted]
      exact ⟨rfl, rfl, rfl, rfl, hinBounds, hinBounds⟩
    · rw [Bool.not_eq_false] at haccepts
      by_cases hfactor : params.protectionFactor = 0
      · have hzero : ∀ n, calcNumFecPackets n params.protectionFactor.toNat = 0 := fun n =>
          calcNumFecPackets_eq_zero.2 (by rw [hfactor]; rfl)
        have hshifted := (@accepts_shift k (first :: packets) params).trans haccepts
        unfold StartsAnywhere
        rw [FecEncoder.encode_of_numFec_zero _ _ _ _ haccepts (hzero _),
          FecEncoder.encode_of_numFec_zero _ _ _ _ hshifted (hzero _)]
        exact ⟨rfl, rfl, rfl, rfl, hinBounds, hinBounds⟩
      · obtain ⟨hwrap, hwrapShifted, hrows⟩ :=
          (hcases.resolve_left (by rw [haccepts]; decide)).resolve_left hfactor
        have hshift := encode_shift (movesBy_of_not_straddles h hwrap hwrapShifted) e params
        have hinside :=
          (encode_inBounds_iff hsized hinBounds (h.inOrder hwrap) params []).2 fun _ => hrows
        unfold StartsAnywhere
        rw [hshift]
        exact ⟨rfl, hbase, rfl, rfl, hinside, hinside⟩

/-- A gap, and numbers that are five further on. -/
theorem startsAnywhere_gap :
    StartsAnywhere
      { packetMasks := List.replicate maxPacketMaskCount 0
        tmpPacketMasks := List.replicate maxPacketMaskCount 0 }
      (bareHeader 10) [bareHeader 13] { protectionFactor := 255 } 5 :=
  (startsAnywhere_iff ⟨List.length_replicate, List.length_replicate⟩ rfl (by
    refine ⟨?_, ?_⟩ <;> decide)).2 (Or.inr (Or.inr ⟨by decide, by decide, by
      unfold FecEncoder.RowsWritten FecEncoder.RowNames
      decide⟩))

/-- Two packets on both sides of the wrap. -/
theorem not_startsAnywhere_wrap :
    ¬StartsAnywhere
      { packetMasks := List.replicate maxPacketMaskCount 0
        tmpPacketMasks := List.replicate maxPacketMaskCount 0 }
      (bareHeader 65535) [bareHeader 0] { protectionFactor := 255 } 1 := by
  rintro ⟨-, -, -, -, hinside, -⟩
  have hincreasing : Increasing (bareHeader 65535) [bareHeader 0] := by
    refine ⟨?_, ?_⟩ <;> decide
  rw [encode_of_straddles hincreasing (by decide)
    ⟨List.length_replicate, List.length_replicate⟩ (by decide) (by decide) []] at hinside
  cases hinside

end StartsAnywhere

end NaiveRtc.Fec
