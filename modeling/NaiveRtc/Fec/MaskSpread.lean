import NaiveRtc.Fec.MaskColumns

/-!
# Masks of packets with gaps between them

* `FecEncoder.Sized` — the arrays have the size they were made with.
* `spreadColumns_spec` — the bits of `InsertZeroInPacketMasks` are where their packets are.
* `generateRow_eq` — **an FEC packet is made of exactly the packets that its mask names.**
* `spanOf`, `place_bounds` — where the packets are.
* `insertZeroInPacketMasks_eq` — with a gap the columns are spread, without one nothing happens.
-/

namespace NaiveRtc.Fec

open BitMatrix Overwrite
open Rtp (RtpPacket)

/-- The arrays have the size they were made with. -/
structure FecEncoder.Sized (e : FecEncoder) : Prop where
  packetMasks : e.packetMasks.length = maxPacketMaskCount
  tmpPacketMasks : e.tmpPacketMasks.length = maxPacketMaskCount

section Sized

variable {e : FecEncoder}

theorem length_copyColumn (numFec oldSize newSize oldBit newBit : Nat) (old new : List UInt8) :
    (copyColumn numFec oldSize newSize oldBit newBit old new).1.length = old.length ∧
      (copyColumn numFec oldSize newSize oldBit newBit old new).2.length = new.length := by
  unfold copyColumn
  induction numFec with
  | zero => exact ⟨rfl, rfl⟩
  | succ numFec ih =>
    rw [List.range_succ, List.foldl_append]
    simp only [List.foldl_cons, List.foldl_nil, List.length_set]
    exact ih

theorem FecEncoder.Sized.insertZeros (h : e.Sized) (zeros numFec newSize newBit : Nat) :
    (e.insertZeros zeros numFec newSize newBit).Sized where
  packetMasks := h.packetMasks
  tmpPacketMasks := (@length_updateColumn newSize (newBit / 8)
    (fun _ byte => byte <<< UInt8.ofNat (min zeros (7 - newBit % 8))) numFec e.tmpPacketMasks).trans
      h.tmpPacketMasks

theorem FecEncoder.Sized.copyToNew (h : e.Sized) (numFec newSize oldBit newBit : Nat) :
    (e.copyToNew numFec newSize oldBit newBit).Sized where
  packetMasks := (length_copyColumn _ _ _ _ _ _ _).1.trans h.packetMasks
  tmpPacketMasks := (length_copyColumn _ _ _ _ _ _ _).2.trans h.tmpPacketMasks

theorem FecEncoder.Sized.insertLoop (h : e.Sized) {numFec newSize : Nat} {prev : U16}
    {oldBit newBit : Nat} {packets : List RtpPacket} :
    (insertLoop numFec newSize prev oldBit newBit packets e).1.Sized := by
  induction packets generalizing e prev oldBit newBit with
  | nil => exact h
  | cons p packets ih =>
    rw [FecEncoder.insertLoop]
    by_cases hfull : newBit = kUlpFecMaxMediaPackets
    · rw [if_pos hfull]
      exact h
    · rw [if_neg hfull]
      refine ih (FecEncoder.Sized.copyToNew ?_ _ _ _ _)
      split
      · exact h.insertZeros _ _ _ _
      · exact h

theorem FecEncoder.Sized.shiftLast (h : e.Sized) (numFec newSize newBit : Nat) :
    (e.shiftLast numFec newSize newBit).Sized := by
  unfold FecEncoder.shiftLast
  split
  · refine ⟨h.packetMasks, ?_⟩
    exact (@length_updateColumn newSize (newBit / 8)
      (fun _ byte => byte <<< UInt8.ofNat (7 - newBit % 8)) numFec e.tmpPacketMasks).trans
        h.tmpPacketMasks
  · exact h

theorem FecEncoder.Sized.spreadColumns (h : e.Sized) (numFec newSize : Nat) (first : RtpPacket)
    (packets : List RtpPacket) : (e.spreadColumns numFec newSize first packets).1.Sized := by
  have hzero : ({ e with
      tmpPacketMasks := overwrite e.tmpPacketMasks 0 (List.replicate (numFec * newSize) 0)
      inBounds := e.inBounds && decide (numFec * newSize ≤ e.tmpPacketMasks.length) } :
      FecEncoder).Sized := ⟨h.packetMasks, (length_overwrite _ _ _).trans h.tmpPacketMasks⟩
  have hloop := @FecEncoder.Sized.insertLoop _ (hzero.copyToNew numFec newSize 0 0) numFec newSize
    first.sequenceNum 1 1 packets
  have hlast := fun newBit => hloop.shiftLast numFec newSize newBit
  exact ⟨(length_overwrite _ _ _).trans (hlast _).packetMasks, (hlast _).tmpPacketMasks⟩

theorem FecEncoder.Sized.insertZeroInPacketMasks (h : e.Sized) (packets : List RtpPacket)
    (numFec : Nat) : (e.insertZeroInPacketMasks packets numFec).1.Sized := by
  unfold FecEncoder.insertZeroInPacketMasks
  split
  · exact h
  · exact h
  · dsimp only
    split
    · exact h
    · split
      · exact h
      · exact h.spreadColumns _ _ _ _

end Sized

/-! ## Spreading -/

section SpreadColumns

variable {oldSize newSize numFec : Nat} {e : FecEncoder}

theorem spread_zero (h : e.Sized) (hsize : e.packetMaskSize = oldSize)
    (hroom : numFec * newSize ≤ maxPacketMaskCount) (inBounds : Bool) :
    Spread oldSize newSize numFec e.packetMasks 0 0 (fun _ _ => false) { e with
      tmpPacketMasks := overwrite e.tmpPacketMasks 0 (List.replicate (numFec * newSize) 0)
      inBounds := inBounds } := by
  refine ⟨hsize, rfl, ?_, fun row hrow => filled_zero fun b => ?_, fun _ _ _ => rfl⟩
  · show numFec * newSize ≤ (overwrite _ _ _).length
    rw [length_overwrite, h.tmpPacketMasks]
    exact hroom
  · show rowAt (overwrite _ _ _) _ _ _ = 0
    unfold rowAt
    split
    · next hb =>
      have hplace := place_lt hrow hb
      rw [getD_overwrite, List.length_replicate, h.tmpPacketMasks, if_pos (by omega)]
      simp
    · rfl

theorem bitAt_copied_back {masks : List UInt8} {i newBit : Nat} {f : Nat → Nat → Bool}
    (h : Spread oldSize newSize numFec masks i newBit f e)
    (hroom : numFec * newSize ≤ e.packetMasks.length) (hbit : newBit ≤ 8 * newSize)
    {row place : Nat} (hrow : row < numFec) (hplace : place < 8 * newSize) :
    bitAt (overwrite (e.shiftLast numFec newSize newBit).packetMasks 0
      (readFrom (e.shiftLast numFec newSize newBit).tmpPacketMasks 0 (numFec * newSize)))
      newSize row place = f row place := by
  have hmasks : (e.shiftLast numFec newSize newBit).packetMasks = e.packetMasks := by
    unfold FecEncoder.shiftLast
    split <;> rfl
  have hcopy : rowAt (overwrite e.packetMasks 0
      (readFrom (e.shiftLast numFec newSize newBit).tmpPacketMasks 0 (numFec * newSize)))
      newSize row (place / 8) =
      rowAt (e.shiftLast numFec newSize newBit).tmpPacketMasks newSize row (place / 8) := by
    have hb : place / 8 < newSize := by omega
    have hlt := place_lt hrow hb
    unfold rowAt
    rw [if_pos hb, if_pos hb, getD_overwrite, length_readFrom, if_pos (by omega), Nat.sub_zero]
    refine (getD_readFrom hlt).trans ?_
    rw [Nat.zero_add]
    rfl
  rw [bitAt, hmasks, hcopy]
  have hlast : 8 * (place / 8) + place % 8 = place := by omega
  by_cases hmod : newBit % 8 = 0
  · have htmp : (e.shiftLast numFec newSize newBit).tmpPacketMasks = e.tmpPacketMasks := by
      rw [FecEncoder.shiftLast, if_neg (by omega)]
    have hfinish := @filled_finish _ (rowAt e.tmpPacketMasks newSize row) _ _ (h.filled row hrow)
      (h.clear row) (by rw [if_neg (by omega)]) (fun _ _ => rfl) (place / 8) (place % 8) (by omega)
    rw [htmp, hfinish, hlast]
  · have htmp : (e.shiftLast numFec newSize newBit).tmpPacketMasks =
        updateColumn newSize (newBit / 8) (fun _ byte => byte <<< UInt8.ofNat (7 - newBit % 8))
          numFec e.tmpPacketMasks := by
      rw [FecEncoder.shiftLast, if_pos (by omega)]
      rfl
    have hbyte := fun b => rowAt_updateColumn
      (g := fun _ byte => byte <<< UInt8.ofNat (7 - newBit % 8))
      (show newBit / 8 < newSize by omega) h.room hrow b
    have hfinish := @filled_finish _ (rowAt (updateColumn newSize (newBit / 8)
      (fun _ byte => byte <<< UInt8.ofNat (7 - newBit % 8)) numFec e.tmpPacketMasks) newSize row)
      _ _ (h.filled row hrow) (h.clear row)
      (by rw [if_pos (by omega)]; exact (hbyte _).trans (if_pos rfl))
      (fun b hb => (hbyte b).trans (if_neg hb)) (place / 8) (place % 8) (by omega)
    rw [htmp, hfinish, hlast]

theorem spreadColumns_spec (h : e.Sized) (hsize : e.packetMaskSize = oldSize) (hold : 0 < oldSize)
    (hroom : numFec * newSize ≤ maxPacketMaskCount) {first : RtpPacket} {packets : List RtpPacket}
    (horder : InOrder first.sequenceNum.toNat first.sequenceNum.toNat packets)
    (hspan : ∀ p ∈ first :: packets,
      p.sequenceNum.toNat - first.sequenceNum.toNat < 8 * newSize)
    (hlast : lastSeq first.sequenceNum.toNat packets - first.sequenceNum.toNat < 8 * newSize) :
    (e.spreadColumns numFec newSize first packets).2 =
        lastSeq first.sequenceNum.toNat packets - first.sequenceNum.toNat + 1 ∧
      ∀ row < numFec, ∀ place < 8 * newSize,
        (bitAt (e.spreadColumns numFec newSize first packets).1.packetMasks newSize row place =
          true ↔ ∃ i p, (first :: packets)[i]? = some p ∧
            place = p.sequenceNum.toNat - first.sequenceNum.toNat ∧
            columnBit oldSize numFec e.packetMasks i row = true) := by
  have hfirst := hspan first List.mem_cons_self
  rw [Nat.sub_self] at hfirst
  have hzero := @spread_zero oldSize newSize numFec e h hsize hroom
    (e.inBounds && decide (numFec * newSize ≤ e.tmpPacketMasks.length))
  have hone := hzero.copyToNew hold (show 0 / 8 < newSize by omega)
  rw [show (0 : Nat) + 1 = first.sequenceNum.toNat - first.sequenceNum.toNat + 1 by omega] at hone
  obtain ⟨f', hspread, hcount, hf'⟩ := insertLoop_spec hold horder
    (fun p hp => hspan p (List.mem_cons_of_mem _ hp)) hone
  rw [Nat.sub_self, Nat.zero_add] at hspread hcount hf'
  have hmasksLength : numFec * newSize ≤ (FecEncoder.insertLoop numFec newSize first.sequenceNum 1 1
      packets ({ e with
        tmpPacketMasks := overwrite e.tmpPacketMasks 0 (List.replicate (numFec * newSize) 0)
        inBounds := e.inBounds && decide (numFec * newSize ≤ e.tmpPacketMasks.length) }.copyToNew
          numFec newSize 0 0)).1.packetMasks.length := by
    rw [hspread.old, length_oldAfter, h.packetMasks]
    exact hroom
  refine ⟨hcount, fun row hrow place hplace => ?_⟩
  have hbits := bitAt_copied_back hspread hmasksLength (by omega) hrow hplace
  rw [← hcount] at hbits
  have hresult : bitAt (e.spreadColumns numFec newSize first packets).1.packetMasks newSize row
      place = f' row place := hbits
  rw [hresult, hf' row place]
  constructor
  · rintro (hcolumn | ⟨k, p, hp, hj, hcolumn⟩)
    · by_cases hj : place = 0
      · rw [if_pos hj] at hcolumn
        exact ⟨0, first, rfl, by omega, hcolumn⟩
      · rw [if_neg hj] at hcolumn
        cases hcolumn
    · refine ⟨k + 1, p, hp, hj, ?_⟩
      rwa [Nat.add_comm k 1]
  · rintro ⟨i, p, hp, hj, hcolumn⟩
    cases i with
    | zero =>
      obtain rfl := Option.some.inj hp
      refine Or.inl ?_
      rw [if_pos (by omega)]
      exact hcolumn
    | succ i =>
      refine Or.inr ⟨i, p, hp, hj, ?_⟩
      rwa [Nat.add_comm 1 i]

end SpreadColumns

/-! ## The packets of an FEC packet -/

theorem and_shiftLeft_ne_zero (byte : UInt8) {k : Nat} (hk : k < 8) :
    (byte &&& ((1 : UInt8) <<< UInt8.ofNat (7 - k)) ≠ 0) ↔ msb byte k = true := by
  have hall : ∀ k < 8, ∀ v : BitVec 8,
      (UInt8.ofBitVec v &&& ((1 : UInt8) <<< UInt8.ofNat (7 - k)) ≠ 0) ↔
        msb (UInt8.ofBitVec v) k = true := by decide +kernel
  exact hall k hk byte.toBitVec

theorem protects_eq {masks : List UInt8} {size row place : Nat} (hplace : place < 8 * size) :
    protects masks (row * size + place / 8) (place % 8) = bitAt masks size row place := by
  rw [Bool.eq_iff_iff, protects, decide_eq_true_eq, and_shiftLeft_ne_zero _ (by omega), bitAt,
    rowAt, if_pos (by omega)]

/-- **An FEC packet is made of exactly the packets that its mask names**, and all reads of the
masks are inside. -/
theorem generateRow_eq {masks : List UInt8} {size row base headerSize : Nat}
    {packets : List RtpPacket} (hrow : (row + 1) * size ≤ masks.length)
    (hmasks : masks.length < 2 ^ 63) {p : RtpPacket}
    (horder : InOrder base p.sequenceNum.toNat packets)
    (hspan : ∀ q ∈ p :: packets, q.sequenceNum.toNat - base < 8 * size) (fec : FecPacket) :
    generateRow masks headerSize (p :: packets)
        (row * size + (p.sequenceNum.toNat - base) / 8) ((p.sequenceNum.toNat - base) % 8) fec =
      (((p :: packets).filter fun q => bitAt masks size row (q.sequenceNum.toNat - base)).foldl
        (protectPacket headerSize) fec, true) := by
  induction packets generalizing p fec with
  | nil =>
    have hp := hspan p List.mem_cons_self
    have hinside : row * size + (p.sequenceNum.toNat - base) / 8 < masks.length := by
      rw [Nat.succ_mul] at hrow
      omega
    rw [generateRow, protects_eq hp, decide_eq_true hinside, List.filter_cons]
    by_cases hbit : bitAt masks size row (p.sequenceNum.toNat - base) = true
    · rw [if_pos hbit, if_pos hbit]
      rfl
    · rw [if_neg hbit, if_neg hbit]
      rfl
  | cons q packets ih =>
    have hp := hspan p List.mem_cons_self
    have hq := hspan q (List.mem_cons_of_mem _ List.mem_cons_self)
    obtain ⟨hlt, htail⟩ := horder.tail
    have hbase := horder.base_le
    have hinside : row * size + (p.sequenceNum.toNat - base) / 8 < masks.length := by
      rw [Nat.succ_mul] at hrow
      omega
    have hinside' : row * size + (q.sequenceNum.toNat - base) / 8 < masks.length := by
      rw [Nat.succ_mul] at hrow
      omega
    -- the bit and the byte move on by the difference of the sequence numbers
    have hbitIdx : sizeT (((p.sequenceNum.toNat - base) % 8 : Nat) +
        FecEncoder.seqDiff q.sequenceNum p.sequenceNum) =
        (p.sequenceNum.toNat - base) % 8 + (q.sequenceNum.toNat - p.sequenceNum.toNat) := by
      unfold sizeT FecEncoder.seqDiff
      omega
    have hmod : ((p.sequenceNum.toNat - base) % 8 +
        (q.sequenceNum.toNat - p.sequenceNum.toNat)) % 8 = (q.sequenceNum.toNat - base) % 8 := by
      omega
    have hdiv : sizeT ((row * size + (p.sequenceNum.toNat - base) / 8 +
        ((p.sequenceNum.toNat - base) % 8 +
          (q.sequenceNum.toNat - p.sequenceNum.toNat)) / 8 : Nat)) =
        row * size + (q.sequenceNum.toNat - base) / 8 := by
      rw [sizeT_natCast (by omega)]
      omega
    rw [generateRow, protects_eq hp, decide_eq_true hinside]
    simp only [hbitIdx, hmod, hdiv]
    rw [ih htail fun r hr => hspan r (List.mem_cons_of_mem _ hr)]
    by_cases hbit : bitAt masks size row (p.sequenceNum.toNat - base) = true
    · rw [if_pos hbit, @List.filter_cons_of_pos _ _ p _ hbit]
      rfl
    · rw [if_neg hbit, @List.filter_cons_of_neg _ _ p _ hbit]
      rfl

/-! ## Gaps -/

/-- The number of places from the first packet to the last one. -/
def spanOf (first : RtpPacket) (packets : List RtpPacket) : Nat :=
  lastSeq first.sequenceNum.toNat packets - first.sequenceNum.toNat + 1

theorem lastSeq_eq (first : RtpPacket) (packets : List RtpPacket) :
    lastSeq first.sequenceNum.toNat packets = (packets.getLastD first).sequenceNum.toNat := by
  unfold lastSeq
  induction packets generalizing first with
  | nil => rfl
  | cons p packets ih => rw [List.map_cons, List.getLastD_cons, List.getLastD_cons, ih]

section Gaps

variable {base prev : Nat} {packets : List RtpPacket}

theorem InOrder.le_last (h : InOrder base prev packets) :
    prev + packets.length ≤ lastSeq prev packets ∧
      lastSeq prev packets < max (prev + 1) (base + 48) := by
  induction packets generalizing prev with
  | nil => exact ⟨Nat.le_refl _, Nat.lt_of_lt_of_le (Nat.lt_succ_self _) (Nat.le_max_left _ _)⟩
  | cons p packets ih =>
    obtain ⟨hlt, htail⟩ := h.tail
    have hspan := h.span p List.mem_cons_self
    obtain ⟨hlength, hmax⟩ := ih htail
    have hlast : lastSeq prev (p :: packets) = lastSeq p.sequenceNum.toNat packets := by
      unfold lastSeq
      rw [List.map_cons, List.getLastD_cons]
    rw [hlast, List.length_cons]
    omega

theorem InOrder.seq_bounds (h : InOrder base prev packets) {k : Nat} {p : RtpPacket}
    (hp : packets[k]? = some p) : prev + k + 1 ≤ p.sequenceNum.toNat ∧
      p.sequenceNum.toNat + (packets.length - 1 - k) ≤ lastSeq prev packets := by
  induction packets generalizing prev k with
  | nil => cases hp
  | cons q packets ih =>
    obtain ⟨hlt, htail⟩ := h.tail
    have hlast : lastSeq prev (q :: packets) = lastSeq q.sequenceNum.toNat packets := by
      unfold lastSeq
      rw [List.map_cons, List.getLastD_cons]
    rw [hlast, List.length_cons]
    cases k with
    | zero =>
      obtain rfl := Option.some.inj hp
      have hle := htail.le_last.1
      omega
    | succ k =>
      have hbounds := ih htail hp
      omega

end Gaps

section Sequence

variable {first : RtpPacket} {packets : List RtpPacket}

section

variable (h : InOrder first.sequenceNum.toNat first.sequenceNum.toNat packets)
include h

theorem place_bounds {i : Nat} {p : RtpPacket} (hp : (first :: packets)[i]? = some p) :
    i ≤ p.sequenceNum.toNat - first.sequenceNum.toNat ∧
      p.sequenceNum.toNat - first.sequenceNum.toNat + (packets.length - i) <
        spanOf first packets := by
  unfold spanOf
  cases i with
  | zero =>
    obtain rfl := Option.some.inj hp
    have hle := h.le_last.1
    omega
  | succ i =>
    have hbounds := h.seq_bounds hp
    omega

theorem spanOf_le :
    packets.length + 1 ≤ spanOf first packets ∧ spanOf first packets ≤ 48 := by
  have hle := h.le_last
  unfold spanOf
  omega

theorem insertZeroInPacketMasks_eq (hne : packets ≠ []) (e : FecEncoder) (numFec : Nat) :
    e.insertZeroInPacketMasks (first :: packets) numFec =
      if spanOf first packets = packets.length + 1 then (e, ((packets.length + 1 : Nat) : Int))
      else
        ((e.spreadColumns numFec (packetMaskSize (spanOf first packets)) first packets).1,
          ((e.spreadColumns numFec (packetMaskSize (spanOf first packets)) first packets).2 : Int))
    := by
  obtain ⟨second, rest, rfl⟩ := List.exists_cons_of_ne_nil hne
  have hspan := spanOf_le h
  have hlast := lastSeq_eq first (second :: rest)
  have hle := h.le_last
  have hmissing : sizeT (((FecEncoder.seqDiff ((second :: rest).getLastD first).sequenceNum
      first.sequenceNum + 1) % 2 ^ 16) - ((first :: second :: rest).length : Nat)) =
      spanOf first (second :: rest) - ((second :: rest).length + 1) := by
    unfold sizeT FecEncoder.seqDiff
    unfold spanOf at hspan ⊢
    rw [← hlast, List.length_cons]
    omega
  have hlength : (first :: second :: rest).length = (second :: rest).length + 1 := rfl
  have htotal : sizeT
      (((spanOf first (second :: rest) - ((second :: rest).length + 1) : Nat) : Int) +
        ((first :: second :: rest).length : Nat)) = spanOf first (second :: rest) := by
    rw [hlength]
    unfold sizeT
    omega
  rw [FecEncoder.insertZeroInPacketMasks]
  · dsimp only
    rw [hmissing]
    by_cases hgap : spanOf first (second :: rest) = (second :: rest).length + 1
    · rw [if_pos (by omega), if_pos hgap, List.length_cons]
    · rw [if_neg (by omega), if_neg hgap, htotal,
        if_neg (by unfold kUlpFecMaxMediaPackets; omega)]
  · intro hnil
    cases hnil

end

end Sequence

end NaiveRtc.Fec
