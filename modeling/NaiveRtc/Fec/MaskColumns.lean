import NaiveRtc.Fec.FecEncoder
import NaiveRtc.Lib.BitMatrix

/-!
# Columns of masks

What `InsertZeroInPacketMasks` makes of the masks, for packets whose sequence numbers increase
without a wrap.

* `copyColumn_eq` — a column is read from the old masks, which move on by one bit, and is written
  to the new ones.
* `oldAfter`, `columnBit` — the old masks after some columns, and the bit a row has in the next
  one; `columnBit_eq` when the rows do not run into each other.
* `InOrder` — the packets and their places behind the first one.
* `insertLoop_spec` — **every column is written to the place of its packet.**
-/

namespace NaiveRtc.Fec

open BitMatrix Overwrite
open Rtp (RtpPacket)

/-! ## One column -/

section Columns

variable {numFec oldSize newSize oldBit newBit : Nat} {old new : List UInt8}

theorem copyColumn_eq (hold : 0 < oldSize) :
    copyColumn numFec oldSize newSize oldBit newBit old new =
      (updateColumn oldSize (oldBit / 8) (fun _ byte => byte <<< 1) numFec old,
        updateColumn newSize (newBit / 8) (fun row byte =>
          let byte := byte ||| lastBit (msb (old.getD (row * oldSize + oldBit / 8) 0) 0)
          if newBit % 8 ≠ 7 then byte <<< 1 else byte) numFec new) := by
  unfold copyColumn updateColumn
  induction numFec with
  | zero => rfl
  | succ numFec ih =>
    have hread : (updateColumn oldSize (oldBit / 8) (fun _ byte => byte <<< 1) numFec old).getD
        (numFec * oldSize + oldBit / 8) 0 = old.getD (numFec * oldSize + oldBit / 8) 0 :=
      updateColumn_miss fun row hrow hsame => absurd (row_inj hold hsame) (by omega)
    rw [List.range_succ, List.foldl_append, ih, List.foldl_append, List.foldl_append]
    simp only [List.foldl_cons, List.foldl_nil, firstBit_eq]
    unfold updateColumn at hread
    rw [hread]

end Columns

/-! ## The old masks -/

/-- The old masks after the first `i` columns were read. -/
def oldAfter (oldSize numFec : Nat) (masks : List UInt8) : Nat → List UInt8
  | 0 => masks
  | i + 1 => updateColumn oldSize (i / 8) (fun _ byte => byte <<< 1) numFec
      (oldAfter oldSize numFec masks i)

/-- The bit that a row has in the `i`-th column that is read. -/
def columnBit (oldSize numFec : Nat) (masks : List UInt8) (i row : Nat) : Bool :=
  msb ((oldAfter oldSize numFec masks i).getD (row * oldSize + i / 8) 0) 0

section OldMasks

variable {oldSize numFec : Nat} {masks : List UInt8}

@[simp] theorem length_oldAfter (i : Nat) :
    (oldAfter oldSize numFec masks i).length = masks.length := by
  induction i with
  | zero => rfl
  | succ i ih => rw [oldAfter, length_updateColumn, ih]

theorem msb_shiftLeft_one (byte : UInt8) (k : Nat) : msb (byte <<< 1) k = msb byte (k + 1) := by
  have hshift := @msb_shiftLeft byte 1 (by decide) k
  rcases Nat.lt_or_ge k 8 with hk | hk
  · rw [decide_eq_true hk, Bool.true_and] at hshift
    exact hshift
  · rw [msb_of_le _ hk, msb_of_le _ (by omega)]

/-- The bytes of different rows are different ones. -/
def RowsApart (oldSize numFec columns : Nat) : Prop := numFec = 1 ∨ columns ≤ 8 * oldSize

theorem RowsApart.place_eq {columns row row' b b' : Nat} (h : RowsApart oldSize numFec columns)
    (hb : 8 * b < columns) (hb' : 8 * b' < columns) (hrow : row < numFec) (hrow' : row' < numFec)
    (heq : row * oldSize + b = row' * oldSize + b') : b = b' := by
  rcases h with rfl | hcolumns
  · obtain rfl : row = 0 := by omega
    obtain rfl : row' = 0 := by omega
    simpa using heq
  · exact (place_inj (by omega) (by omega) heq).2

theorem msb_oldAfter {columns row b i : Nat} (h : RowsApart oldSize numFec columns)
    (hold : 0 < oldSize) (hlen : ∀ row < numFec, ∀ b, 8 * b < columns →
      row * oldSize + b < masks.length)
    (hi : i ≤ columns) (hb : 8 * b < columns) (hrow : row < numFec) (k : Nat) :
    msb ((oldAfter oldSize numFec masks i).getD (row * oldSize + b) 0) k =
      msb (masks.getD (row * oldSize + b) 0) (k + (i - 8 * b)) := by
  induction i generalizing k with
  | zero => rw [Nat.zero_sub, Nat.add_zero, oldAfter]
  | succ i ih =>
    have hbyte : 8 * (i / 8) < columns := by omega
    by_cases heq : b = i / 8
    · have hhit : (oldAfter oldSize numFec masks (i + 1)).getD (row * oldSize + b) 0 =
          (oldAfter oldSize numFec masks i).getD (row * oldSize + b) 0 <<< 1 := by
        rw [oldAfter, heq]
        exact updateColumn_hit hold hrow (by simpa using hlen row hrow (i / 8) hbyte)
      rw [hhit, msb_shiftLeft_one, ih (by omega)]
      exact congrArg _ (by omega)
    · have hmiss : (oldAfter oldSize numFec masks (i + 1)).getD (row * oldSize + b) 0 =
          (oldAfter oldSize numFec masks i).getD (row * oldSize + b) 0 := by
        rw [oldAfter]
        exact updateColumn_miss fun row' hrow' hsame =>
          heq (h.place_eq hb hbyte hrow hrow' hsame)
      rw [hmiss, ih (by omega)]
      rcases Nat.lt_or_ge b (i / 8) with hlt | hge
      · rw [msb_of_le _ (by omega), msb_of_le _ (by omega)]
      · exact congrArg _ (by omega)

theorem columnBit_eq {columns row i : Nat} (h : RowsApart oldSize numFec columns)
    (hold : 0 < oldSize) (hlen : ∀ row < numFec, ∀ b, 8 * b < columns →
      row * oldSize + b < masks.length)
    (hi : i < columns) (hrow : row < numFec) :
    columnBit oldSize numFec masks i row = msb (masks.getD (row * oldSize + i / 8) 0) (i % 8) := by
  rw [columnBit, msb_oldAfter h hold hlen (by omega) (by omega) hrow]
  exact congrArg _ (by omega)

theorem columnBit_zero (row : Nat) :
    columnBit oldSize numFec masks 0 row = msb (masks.getD (row * oldSize) 0) 0 := rfl

end OldMasks

/-! ## The new masks -/

/-- The first columns were moved: the old masks are those after `i` columns, and the rows of the
new ones hold the bits `f` up to a place. -/
structure Spread (oldSize newSize numFec : Nat) (masks : List UInt8) (i newBit : Nat)
    (f : Nat → Nat → Bool) (e : FecEncoder) : Prop where
  size : e.packetMaskSize = oldSize
  old : e.packetMasks = oldAfter oldSize numFec masks i
  room : numFec * newSize ≤ e.tmpPacketMasks.length
  filled : ∀ row < numFec, Filled (rowAt e.tmpPacketMasks newSize row) newBit (f row)
  clear : ∀ row j, newBit ≤ j → f row j = false

section Spread

variable {oldSize newSize numFec : Nat} {masks : List UInt8} {i newBit : Nat}
  {f : Nat → Nat → Bool} {e : FecEncoder}

theorem insertZeros_tmpPacketMasks (zeros : Nat) :
    (e.insertZeros zeros numFec newSize newBit).tmpPacketMasks =
      updateColumn newSize (newBit / 8)
        (fun _ byte => byte <<< UInt8.ofNat (min zeros (7 - newBit % 8))) numFec
        e.tmpPacketMasks := rfl

theorem Spread.insertZeros (h : Spread oldSize newSize numFec masks i newBit f e) {zeros : Nat}
    (hroom : newBit / 8 < newSize) :
    Spread oldSize newSize numFec masks i (newBit + zeros) f
      (e.insertZeros zeros numFec newSize newBit) where
  size := h.size
  old := h.old
  room := by
    rw [insertZeros_tmpPacketMasks, length_updateColumn]
    exact h.room
  filled row hrow := by
    have hbyte := rowAt_updateColumn (g := fun _ byte =>
      byte <<< UInt8.ofNat (min zeros (7 - newBit % 8))) hroom h.room hrow
    refine filled_skip (h.filled row hrow) (h.clear row) ?_ fun b hb => ?_
    · exact (hbyte (newBit / 8)).trans (if_pos rfl)
    · exact (hbyte b).trans (if_neg hb)
  clear row j hj := h.clear row j (by omega)

theorem Spread.copyToNew (h : Spread oldSize newSize numFec masks i newBit f e)
    (hold : 0 < oldSize) (hroom : newBit / 8 < newSize) :
    Spread oldSize newSize numFec masks (i + 1) (newBit + 1)
      (fun row j => if j = newBit then columnBit oldSize numFec masks i row else f row j)
      (e.copyToNew numFec newSize i newBit) := by
  have hcopy := @copyColumn_eq numFec oldSize newSize i newBit e.packetMasks e.tmpPacketMasks hold
  refine ⟨h.size, ?_, ?_, fun row hrow => ?_, fun row j hj => ?_⟩
  · show (copyColumn numFec e.packetMaskSize newSize i newBit _ _).1 = _
    rw [h.size, hcopy, oldAfter, ← h.old]
  · show _ ≤ (copyColumn numFec e.packetMaskSize newSize i newBit _ _).2.length
    rw [h.size, hcopy, length_updateColumn]
    exact h.room
  · show Filled (rowAt (copyColumn numFec e.packetMaskSize newSize i newBit _ _).2 newSize row) _ _
    rw [h.size, hcopy]
    have hbyte := fun b => rowAt_updateColumn (g := fun row byte =>
      if newBit % 8 ≠ 7 then
        (byte ||| lastBit (msb (e.packetMasks.getD (row * oldSize + i / 8) 0) 0)) <<< 1
      else byte ||| lastBit (msb (e.packetMasks.getD (row * oldSize + i / 8) 0) 0))
      hroom h.room hrow b
    refine filled_push (h.filled row hrow) _ ?_ fun b hb => ?_
    · refine (hbyte (newBit / 8)).trans ((if_pos rfl).trans ?_)
      rw [columnBit, ← h.old]
    · exact (hbyte b).trans (if_neg hb)
  · rw [if_neg (by omega), h.clear row j (by omega)]

end Spread

/-! ## All columns -/

/-- Packets whose sequence numbers increase, behind one with the number `prev`, and stay below
`base + 48`. -/
structure InOrder (base prev : Nat) (packets : List RtpPacket) : Prop where
  sorted : (prev :: packets.map fun p => p.sequenceNum.toNat).Pairwise (· < ·)
  base_le : base ≤ prev
  span : ∀ p ∈ packets, p.sequenceNum.toNat < base + 48

variable {packets : List RtpPacket}

theorem InOrder.tail {base prev : Nat} {p : RtpPacket}
    (h : InOrder base prev (p :: packets)) :
    prev < p.sequenceNum.toNat ∧ InOrder base p.sequenceNum.toNat packets := by
  obtain ⟨hsorted, hbase, hspan⟩ := h
  rw [List.map_cons, List.pairwise_cons] at hsorted
  have hlt := hsorted.1 _ List.mem_cons_self
  exact ⟨hlt, hsorted.2, by omega, fun q hq => hspan q (List.mem_cons_of_mem _ hq)⟩

/-- The sequence number of the last packet. -/
def lastSeq (prev : Nat) (packets : List RtpPacket) : Nat :=
  (packets.map fun p => p.sequenceNum.toNat).getLastD prev

section Loop

variable {oldSize newSize numFec : Nat} {masks : List UInt8}

theorem insertLoop_cons {numFec newSize base i : Nat} {prev : U16} {p : RtpPacket}
    (horder : InOrder base prev.toNat (p :: packets)) (e : FecEncoder) :
    FecEncoder.insertLoop numFec newSize prev i (prev.toNat - base + 1) (p :: packets) e =
      FecEncoder.insertLoop numFec newSize p.sequenceNum (i + 1) (p.sequenceNum.toNat - base + 1)
        packets
        ((if 0 < p.sequenceNum.toNat - prev.toNat - 1 then
          e.insertZeros (p.sequenceNum.toNat - prev.toNat - 1) numFec newSize
            (prev.toNat - base + 1)
        else e).copyToNew numFec newSize i (p.sequenceNum.toNat - base)) := by
  obtain ⟨hlt, -⟩ := horder.tail
  have hbase := horder.base_le
  have hspan := horder.span p List.mem_cons_self
  have hzeros : sizeT (FecEncoder.seqDiff p.sequenceNum prev - 1) =
      p.sequenceNum.toNat - prev.toNat - 1 := by
    unfold sizeT FecEncoder.seqDiff
    omega
  have hbit : sizeT ((prev.toNat - base + 1 + (p.sequenceNum.toNat - prev.toNat - 1) : Nat)) =
      p.sequenceNum.toNat - base := by
    unfold sizeT
    omega
  have hnext : sizeT ((p.sequenceNum.toNat - base + 1 : Nat)) =
      p.sequenceNum.toNat - base + 1 := by
    unfold sizeT
    omega
  rw [FecEncoder.insertLoop, if_neg (by unfold kUlpFecMaxMediaPackets; omega)]
  dsimp only
  rw [hzeros, hbit, hnext]

theorem insertLoop_spec (hold : 0 < oldSize) {base : Nat} {prev : U16}
    (horder : InOrder base prev.toNat packets)
    (hroom : ∀ p ∈ packets, p.sequenceNum.toNat - base < 8 * newSize)
    {i : Nat} {f : Nat → Nat → Bool} {e : FecEncoder}
    (h : Spread oldSize newSize numFec masks i (prev.toNat - base + 1) f e) :
    ∃ f', Spread oldSize newSize numFec masks (i + packets.length)
        (lastSeq prev.toNat packets - base + 1) f'
        (FecEncoder.insertLoop numFec newSize prev i (prev.toNat - base + 1) packets e).1 ∧
      (FecEncoder.insertLoop numFec newSize prev i (prev.toNat - base + 1) packets e).2 =
        lastSeq prev.toNat packets - base + 1 ∧
      ∀ row j, f' row j = true ↔ f row j = true ∨ ∃ k p, packets[k]? = some p ∧
        j = p.sequenceNum.toNat - base ∧ columnBit oldSize numFec masks (i + k) row = true := by
  induction packets generalizing prev i f e with
  | nil =>
    refine ⟨f, h, rfl, fun row j => ?_⟩
    simp
  | cons p packets ih =>
    obtain ⟨hlt, htail⟩ := horder.tail
    have hbase := horder.base_le
    have hspan := horder.span p List.mem_cons_self
    have hplace := hroom p List.mem_cons_self
    rw [insertLoop_cons horder]
    have hskipped : Spread oldSize newSize numFec masks i (p.sequenceNum.toNat - base) f
        (if 0 < p.sequenceNum.toNat - prev.toNat - 1 then
          e.insertZeros (p.sequenceNum.toNat - prev.toNat - 1) numFec newSize
            (prev.toNat - base + 1)
        else e) := by
      by_cases hpos : 0 < p.sequenceNum.toNat - prev.toNat - 1
      · have hsum : prev.toNat - base + 1 + (p.sequenceNum.toNat - prev.toNat - 1) =
            p.sequenceNum.toNat - base := by omega
        rw [if_pos hpos, ← hsum]
        exact h.insertZeros (by omega)
      · have hsame : prev.toNat - base + 1 = p.sequenceNum.toNat - base := by omega
        rw [if_neg hpos, ← hsame]
        exact h
    obtain ⟨f', hspread, hlast, hf'⟩ := ih htail
      (fun q hq => hroom q (List.mem_cons_of_mem _ hq)) (hskipped.copyToNew hold (by omega))
    have hlastSeq : lastSeq prev.toNat (p :: packets) = lastSeq p.sequenceNum.toNat packets := by
      unfold lastSeq
      rw [List.map_cons, List.getLastD_cons]
    rw [hlastSeq]
    refine ⟨f', ?_, hlast, fun row j => ?_⟩
    · have hlength : i + (p :: packets).length = i + 1 + packets.length := by
        rw [List.length_cons]
        omega
      rw [hlength]
      exact hspread
    · rw [hf' row j]
      have hclear := h.clear row (p.sequenceNum.toNat - base) (by omega)
      constructor
      · rintro (hcolumn | ⟨k, q, hq, hj, hcolumn⟩)
        · by_cases hj : j = p.sequenceNum.toNat - base
          · rw [if_pos hj] at hcolumn
            exact Or.inr ⟨0, p, rfl, hj, hcolumn⟩
          · rw [if_neg hj] at hcolumn
            exact Or.inl hcolumn
        · refine Or.inr ⟨k + 1, q, hq, hj, ?_⟩
          rwa [show i + (k + 1) = i + 1 + k by omega]
      · rintro (hcolumn | ⟨k, q, hq, hj, hcolumn⟩)
        · refine Or.inl ?_
          rw [if_neg]
          · exact hcolumn
          · intro hj
            rw [hj, hclear] at hcolumn
            cases hcolumn
        · cases k with
          | zero =>
            obtain rfl := Option.some.inj hq
            refine Or.inl ?_
            rw [if_pos hj]
            exact hcolumn
          | succ k =>
            refine Or.inr ⟨k, q, hq, hj, ?_⟩
            rwa [show i + 1 + k = i + (k + 1) by omega]

end Loop

end NaiveRtc.Fec
