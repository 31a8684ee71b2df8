import NaiveRtc.Fec.MaskSpread

/-!
# Masks that name their packets

* `NamesPackets` — after `InsertZeroInPacketMasks`, the masks name the packets that the matrix
  before named, and the FEC packets are made of those.
* `insertZeroInPacketMasks_snd`, `generateRow_names`, `namesBits_of_noGap`, `namesBits_of_gap` —
  the parts of it that hold for all packets in order.
* `not_namesPackets` — rows of six bytes that are taken for rows of two.
* `namesPackets_iff` — **when the masks name their packets.**
-/

namespace NaiveRtc.Fec

open BitMatrix Overwrite
open Rtp (RtpPacket)

/-- After `InsertZeroInPacketMasks`, a bit of a row stands at the place of its packet, none stands
elsewhere, and an FEC packet is made of the packets that its row names.  The masks before are laid
out for the media packets, as `GeneratePacketMasks` does it, and the size of a row that the encoder
has is the one that `Encode` takes. -/
def NamesPackets (first : RtpPacket) (packets : List RtpPacket) (numFec : Nat) : Prop :=
  ∀ e : FecEncoder, e.Sized → e.packetMaskSize = packetMaskSize numFec →
    (∀ row < numFec, ∀ place, packets.length + 1 ≤ place →
      bitAt e.packetMasks (packetMaskSize (packets.length + 1)) row place = false) →
    let r := e.insertZeroInPacketMasks (first :: packets) numFec
    let size := packetMaskSize (sizeT r.2)
    (∀ row < numFec, ∀ place, bitAt r.1.packetMasks size row place = true ↔
      ∃ i p, (first :: packets)[i]? = some p ∧
        place = p.sequenceNum.toNat - first.sequenceNum.toNat ∧
        bitAt e.packetMasks (packetMaskSize (packets.length + 1)) row i = true) ∧
    ∀ row < numFec, ∀ headerSize fec,
      (generateRow r.1.packetMasks headerSize (first :: packets) (row * size) 0 fec).1 =
        ((first :: packets).filter fun p => bitAt r.1.packetMasks size row
          (p.sequenceNum.toNat - first.sequenceNum.toNat)).foldl (protectPacket headerSize) fec

section Names

variable {first : RtpPacket} {packets : List RtpPacket} {numFec : Nat} {e : FecEncoder}

theorem numFec_mul_le (hnumFec : numFec ≤ 48) (n : Nat) :
    numFec * packetMaskSize n ≤ maxPacketMaskCount :=
  Nat.mul_le_mul hnumFec (packetMaskSize_le n)

section

variable (h : InOrder first.sequenceNum.toNat first.sequenceNum.toNat packets)
include h

theorem insertZeroInPacketMasks_snd (hne : packets ≠ [])
    (hsized : e.Sized) (hpos : 0 < e.packetMaskSize) (hnumFec : numFec ≤ 48) :
    (e.insertZeroInPacketMasks (first :: packets) numFec).2 = (spanOf first packets : Int) := by
  rw [insertZeroInPacketMasks_eq h hne]
  split
  · next hgap => rw [hgap]
  · have hspan := spanOf_le h
    have hsize := le_packetMaskSize hspan.2
    refine congrArg _ (spreadColumns_spec hsized rfl hpos (numFec_mul_le hnumFec _) h
      (fun p hp => ?_) ?_).1
    · obtain ⟨i, hi⟩ := List.mem_iff_getElem?.1 hp
      have hplace := place_bounds h hi
      omega
    · unfold spanOf at hsize hspan ⊢
      omega

theorem generateRow_names {masks : List UInt8}
    (hmasks : masks.length = maxPacketMaskCount) {row : Nat} (hrow : row < 48) (headerSize : Nat)
    (fec : FecPacket) :
    generateRow masks headerSize (first :: packets)
        (row * packetMaskSize (spanOf first packets)) 0 fec =
      (((first :: packets).filter fun p => bitAt masks (packetMaskSize (spanOf first packets)) row
        (p.sequenceNum.toNat - first.sequenceNum.toNat)).foldl (protectPacket headerSize) fec,
        true) := by
  have hsize := le_packetMaskSize (spanOf_le h).2
  have hroom : (row + 1) * packetMaskSize (spanOf first packets) ≤ masks.length := by
    rw [hmasks]
    exact numFec_mul_le hrow _
  have hrowEq := @generateRow_eq masks (packetMaskSize (spanOf first packets)) row
    first.sequenceNum.toNat headerSize packets hroom (by rw [hmasks]; decide) first h
    (fun p hp => by
      obtain ⟨i, hi⟩ := List.mem_iff_getElem?.1 hp
      have hplace := place_bounds h hi
      omega) fec
  rw [Nat.sub_self] at hrowEq
  exact hrowEq

theorem namesBits_of_noGap
    (hgap : spanOf first packets = packets.length + 1) {masks : List UInt8} {size row : Nat}
    (hclear : ∀ place, packets.length + 1 ≤ place → bitAt masks size row place = false)
    (place : Nat) :
    bitAt masks size row place = true ↔ ∃ i p, (first :: packets)[i]? = some p ∧
      place = p.sequenceNum.toNat - first.sequenceNum.toNat ∧ bitAt masks size row i = true := by
  have hplace : ∀ {i p}, (first :: packets)[i]? = some p →
      p.sequenceNum.toNat - first.sequenceNum.toNat = i := by
    intro i p hp
    have hbounds := place_bounds h hp
    have hlt := (List.getElem?_eq_some_iff.1 hp).1
    rw [List.length_cons] at hlt
    omega
  constructor
  · intro hbit
    have hlt : place < (first :: packets).length := by
      by_contra hge
      rw [hclear place (by simpa using hge)] at hbit
      cases hbit
    refine ⟨place, (first :: packets)[place], List.getElem?_eq_getElem hlt, ?_, hbit⟩
    exact (hplace (List.getElem?_eq_getElem hlt)).symm
  · rintro ⟨i, p, hp, rfl, hbit⟩
    rwa [hplace hp]

theorem namesBits_of_gap (hne : packets ≠ [])
    (hgap : spanOf first packets ≠ packets.length + 1) (hsized : e.Sized)
    (hpos : 0 < e.packetMaskSize) (hnumFec : numFec ≤ 48) {row : Nat} (hrow : row < numFec)
    (place : Nat) :
    bitAt (e.insertZeroInPacketMasks (first :: packets) numFec).1.packetMasks
        (packetMaskSize (spanOf first packets)) row place = true ↔
      ∃ i p, (first :: packets)[i]? = some p ∧
        place = p.sequenceNum.toNat - first.sequenceNum.toNat ∧
        columnBit e.packetMaskSize numFec e.packetMasks i row = true := by
  have hspan := spanOf_le h
  have hsize := le_packetMaskSize hspan.2
  rw [insertZeroInPacketMasks_eq h hne, if_neg hgap]
  by_cases hlt : place < 8 * packetMaskSize (spanOf first packets)
  · refine (spreadColumns_spec hsized rfl hpos (numFec_mul_le hnumFec _) h (fun p hp => ?_) ?_).2
      row hrow place hlt
    · obtain ⟨i, hi⟩ := List.mem_iff_getElem?.1 hp
      have hplace := place_bounds h hi
      omega
    · unfold spanOf at hsize hspan ⊢
      omega
  · have hoff : ∀ masks : List UInt8,
        bitAt masks (packetMaskSize (spanOf first packets)) row place = false := by
      intro masks
      rw [bitAt, rowAt, if_neg (by omega), msb_zero]
    rw [hoff]
    constructor
    · intro hfalse
      cases hfalse
    · rintro ⟨i, p, hp, rfl, -⟩
      have hplace := place_bounds h hp
      omega

end

/-- The columns are those of the masks, as long as the rows are as long as the encoder takes them
to be, or there is only one. -/
theorem columnBit_eq_bitAt (hsized : e.Sized) (hpos : 0 < e.packetMaskSize) {n : Nat} (hn : n ≤ 48)
    (hnumFec : numFec ≤ 48) (hsize : e.packetMaskSize = packetMaskSize n ∨ numFec = 1) {i row : Nat}
    (hi : i < n) (hrow : row < numFec) :
    columnBit e.packetMaskSize numFec e.packetMasks i row =
      bitAt e.packetMasks (packetMaskSize n) row i := by
  have hbits := le_packetMaskSize hn
  have hsix := packetMaskSize_le n
  have hlength := hsized.packetMasks
  have happart : RowsApart e.packetMaskSize numFec n := by
    rcases hsize with heq | hone
    · exact Or.inr (heq ▸ hbits)
    · exact Or.inl hone
  have hplace : row * e.packetMaskSize = row * packetMaskSize n := by
    rcases hsize with heq | hone
    · rw [heq]
    · obtain rfl : row = 0 := by omega
      rw [Nat.zero_mul, Nat.zero_mul]
  rw [columnBit_eq happart hpos (fun row' hrow' b hb => ?_) hi hrow, bitAt, rowAt,
    if_pos (by omega), hplace]
  rw [hlength]
  show _ < 288
  rcases hsize with heq | hone
  · have hlt := @place_lt (packetMaskSize n) row' numFec b hrow' (by omega)
    have hle := Nat.mul_le_mul hnumFec hsix
    rw [heq]
    omega
  · obtain rfl : row' = 0 := by omega
    omega

/-- Masks with the first packet in the second row, and nothing else. -/
def secondRowMasks : FecEncoder where
  packetMaskSize := 2
  packetMasks := (List.replicate maxPacketMaskCount 0).set 6 0x80
  tmpPacketMasks := List.replicate maxPacketMaskCount 0

theorem secondRowMasks_byte (i : Nat) :
    secondRowMasks.packetMasks.getD i 0 = if i = 6 then 0x80 else 0 := by
  show ((List.replicate maxPacketMaskCount (0 : UInt8)).set 6 0x80).getD i 0 = _
  rw [List.getD_eq_getElem?_getD]
  by_cases hi : i = 6
  · have hlength : 6 < (List.replicate maxPacketMaskCount (0 : UInt8)).length := by
      rw [List.length_replicate]
      decide
    rw [hi, List.getElem?_set_self hlength, if_pos rfl]
    rfl
  · rw [List.getElem?_set_ne (Ne.symm hi), if_neg hi, List.getElem?_replicate]
    split <;> rfl

theorem not_namesPackets
    (h : InOrder first.sequenceNum.toNat first.sequenceNum.toNat packets) (hne : packets ≠ [])
    (hgap : spanOf first packets ≠ packets.length + 1) (htwo : 2 ≤ numFec) (hnumFec : numFec ≤ 16)
    (hmedia : 16 < packets.length + 1) : ¬NamesPackets first packets numFec := by
  intro hnames
  have hsize : packetMaskSize numFec = 2 := if_neg (by
    unfold kUlpFecMaxMediaPacketsLBitClear
    omega)
  have hsix : packetMaskSize (packets.length + 1) = 6 := if_pos hmedia
  have hsized : secondRowMasks.Sized := ⟨by simp [secondRowMasks], by simp [secondRowMasks]⟩
  have hspan := spanOf_le h
  have hbit : ∀ row place, bitAt secondRowMasks.packetMasks 6 row place = true ↔
      row = 1 ∧ place = 0 := by
    intro row place
    have hbyte : ∀ k < 8, msb 0x80 k = true ↔ k = 0 := by decide
    unfold bitAt rowAt
    by_cases hplace : place / 8 < 6
    · rw [if_pos hplace, secondRowMasks_byte]
      by_cases hsame : row * 6 + place / 8 = 6
      · rw [if_pos hsame, hbyte _ (by omega)]
        omega
      · rw [if_neg hsame, msb_zero]
        constructor
        · intro hfalse
          cases hfalse
        · omega
    · rw [if_neg hplace, msb_zero]
      constructor
      · intro hfalse
        cases hfalse
      · omega
  have hbits := (hnames secondRowMasks hsized hsize.symm (fun row hrow place hplace => by
    rw [hsix, Bool.eq_false_iff]
    intro hset
    have hfirst := (hbit row place).1 hset
    omega)).1 1 (by omega) 0
  rw [insertZeroInPacketMasks_snd h hne hsized (by decide) (by omega),
    sizeT_natCast (by omega), namesBits_of_gap h hne hgap hsized (by decide) (by omega) (by omega),
    hsix] at hbits
  obtain ⟨i, p, hp, hplace, hcolumn⟩ := hbits.2
    ⟨0, first, rfl, by omega, (hbit 1 0).2 ⟨rfl, rfl⟩⟩
  -- only the first packet is at the first place, and its column was read from the third byte
  have hbounds := place_bounds h hp
  obtain rfl : i = 0 := by omega
  rw [columnBit_zero, secondRowMasks_byte, if_neg (by decide), msb_zero] at hcolumn
  cases hcolumn

/-- **The masks name their packets exactly if** no sequence number is missing, or the rows are as
long as their number suggests, or there is only one. -/
theorem namesPackets_iff
    (h : InOrder first.sequenceNum.toNat first.sequenceNum.toNat packets) (hne : packets ≠ [])
    (hpos : 1 ≤ numFec) (hle : numFec ≤ packets.length + 1) :
    NamesPackets first packets numFec ↔ spanOf first packets = packets.length + 1 ∨
      packetMaskSize numFec = packetMaskSize (packets.length + 1) ∨ numFec = 1 := by
  have hspan := spanOf_le h
  constructor
  · intro hnames
    by_contra hnot
    obtain ⟨hgap, hnot⟩ := not_or.1 hnot
    obtain ⟨hsize, hone⟩ := not_or.1 hnot
    unfold packetMaskSize kUlpFecMaxMediaPacketsLBitClear at hsize
    refine not_namesPackets h hne hgap (by omega) ?_ ?_ hnames
    · by_contra hlarge
      rw [if_pos (by omega), if_pos (by omega)] at hsize
      exact hsize rfl
    · by_contra hsmall
      rw [if_neg (by omega), if_neg (by omega)] at hsize
      exact hsize rfl
  · intro hcases e hsized hsize hclear
    have hsizePos : 0 < e.packetMaskSize := hsize ▸ packetMaskSize_pos numFec
    have hsnd := insertZeroInPacketMasks_snd h hne hsized hsizePos (show numFec ≤ 48 by omega)
    have hmasks := (hsized.insertZeroInPacketMasks (first :: packets) numFec).packetMasks
    dsimp only
    rw [hsnd, sizeT_natCast (by omega)]
    refine ⟨fun row hrow place => ?_, fun row hrow headerSize fec =>
      congrArg Prod.fst (generateRow_names h hmasks (by omega) headerSize fec)⟩
    by_cases hgap : spanOf first packets = packets.length + 1
    · rw [insertZeroInPacketMasks_eq h hne, if_pos hgap, hgap]
      exact namesBits_of_noGap h hgap (hclear row hrow) place
    · have hrows : e.packetMaskSize = packetMaskSize (packets.length + 1) ∨ numFec = 1 := by
        rw [hsize]
        exact hcases.resolve_left hgap
      rw [namesBits_of_gap h hne hgap hsized hsizePos (by omega) hrow]
      have hcolumn : ∀ {i p}, (first :: packets)[i]? = some p →
          columnBit e.packetMaskSize numFec e.packetMasks i row =
            bitAt e.packetMasks (packetMaskSize (packets.length + 1)) row i := by
        intro i p hp
        have hlt := (List.getElem?_eq_some_iff.1 hp).1
        rw [List.length_cons] at hlt
        exact columnBit_eq_bitAt hsized hsizePos (by omega) (by omega) hrows hlt hrow
      constructor
      · rintro ⟨i, p, hp, hplace, hbit⟩
        exact ⟨i, p, hp, hplace, hcolumn hp ▸ hbit⟩
      · rintro ⟨i, p, hp, hplace, hbit⟩
        exact ⟨i, p, hp, hplace, (hcolumn hp).symm ▸ hbit⟩

end Names

/-- A packet of which only the sequence number matters. -/
def packetAt (sequenceNum : U16) : RtpPacket := { sequenceNum := sequenceNum, buffer := ⟨[], 0⟩ }

/-- A gap in front of the second packet, protected by one FEC packet for each. -/
theorem namesPackets_gap : NamesPackets (packetAt 10) [packetAt 13] 2 :=
  (@namesPackets_iff (packetAt 10) [packetAt 13] 2 ⟨by decide, by decide, by decide⟩ (by decide)
    (by decide) (by decide)).2 (Or.inr (Or.inl rfl))

/-- Seventeen packets with a gap in front of the last one, protected by two FEC packets. -/
theorem not_namesPackets_seventeen :
    ¬NamesPackets (packetAt 0)
      ([1, 2, 3, 4, 5, 6, 7, 8, 9, 10, 11, 12, 13, 14, 15, 17].map packetAt) 2 :=
  not_namesPackets ⟨by decide, by decide, by decide⟩ (by decide) (by decide) (by decide)
    (by decide) (by decide)

end NaiveRtc.Fec
