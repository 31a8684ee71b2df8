import NaiveRtc.Fec.MaskTables
import NaiveRtc.Lib.Overwrite
import Mathlib.Algebra.Order.Ring.Int

/-!
# The packet masks

`rtc/rtp_rtcp/rtp/fec/fec_mask_generator.cpp` with the sizes of `fec_defines.hpp`: which media
packets each FEC packet protects.

* `packetMaskSize` — bytes of a row.
* `lookUpInFixedMaskTable`, `lookUpPacketMasks` — the rows, from a table or made on the spot;
  `none` is a null view.
* `generatePacketMasks` — what is copied into the array of the masks, and to which places.
* `generatePacketMasks_inside` — **it fits into the array.**

Unequal protection is modelled in its default mode, the only one that is asked for.
-/

namespace NaiveRtc.Fec

open Overwrite

/-! ## Sizes -/

/-- The bytes of a short mask, -/
def kUlpFecPacketMaskSizeLBitClear : Nat := 2

/-- of a long one, -/
def kUlpFecPacketMaskSizeLBitSet : Nat := 6

/-- and the packets a short one -/
def kUlpFecMaxMediaPacketsLBitClear : Nat := 16

/-- and a long one can name. -/
def kUlpFecMaxMediaPackets : Nat := 48

/-- `max_packet_mask_count`, the size of the two arrays of masks. -/
def maxPacketMaskCount : Nat := kUlpFecMaxMediaPackets * kUlpFecPacketMaskSizeLBitSet

/-- `FecMaskType`. -/
inductive FecMaskType
  | random
  | bursty
  deriving DecidableEq

/-- An integer as a `size_t`. -/
def sizeT (i : Int) : Nat := (i % 2 ^ 64).toNat

theorem sizeT_natCast {n : Nat} (h : n < 2 ^ 64) : sizeT n = n := by
  unfold sizeT
  omega

/-- `PacketMaskSize(num_packets)`. -/
def packetMaskSize (numPackets : Nat) : Nat :=
  if kUlpFecMaxMediaPacketsLBitClear < numPackets then kUlpFecPacketMaskSizeLBitSet
  else kUlpFecPacketMaskSizeLBitClear

theorem packetMaskSize_pos (n : Nat) : 0 < packetMaskSize n := by
  unfold packetMaskSize
  split <;> decide

theorem packetMaskSize_le (n : Nat) : packetMaskSize n ≤ 6 := by
  unfold packetMaskSize
  split <;> decide

theorem le_packetMaskSize {n : Nat} (h : n ≤ 48) : n ≤ 8 * packetMaskSize n := by
  unfold packetMaskSize kUlpFecMaxMediaPacketsLBitClear
  split
  · exact h
  · show n ≤ 16
    omega

/-! ## Looking up -/

/-- The loop over the masks of a list that are skipped: the `j`-th one has `j + 1` rows. -/
def skipMasks (entrySizeIncrement : Nat) (count : Nat) (entry : List UInt8) : List UInt8 :=
  (List.range count).foldl (fun entry j => entry.drop (entrySizeIncrement * (j + 1))) entry

/-- The size of a row at a list: from the 17th on they are longer. -/
def entrySizeIncrementAt (i : Nat) : Nat :=
  if i < kUlpFecMaxMediaPacketsLBitClear then kUlpFecPacketMaskSizeLBitClear
  else kUlpFecPacketMaskSizeLBitSet

/-- `LookUpInFixedMaskTable(mask_table, media_packet_index, fec_packet_index)`. -/
def lookUpInFixedMaskTable (maskTable : List UInt8) (mediaPacketIndex fecPacketIndex : Nat) :
    Option (List UInt8) :=
  if (maskTable.getD 0 0).toNat ≤ mediaPacketIndex then none
  else
    let entry := (List.range mediaPacketIndex).foldl (fun entry i =>
      skipMasks (entrySizeIncrementAt i) (entry.getD 0 0).toNat (entry.drop 1)) (maskTable.drop 1)
    if (entry.getD 0 0).toNat ≤ fecPacketIndex then none
    else
      let entrySizeIncrement := entrySizeIncrementAt mediaPacketIndex
      let entry := skipMasks entrySizeIncrement fecPacketIndex (entry.drop 1)
      some (readFrom entry 0 (entrySizeIncrement * (fecPacketIndex + 1)))

/-- A byte of the masks made on the spot: a media packet is protected by the FEC packet that it
falls to in turn. -/
def interleavedByte (numMediaPackets numFecPackets row col : Nat) : UInt8 :=
  (List.range 8).foldl (fun byte bit =>
    byte ||| if (col * 8 + bit) % numFecPackets = row ∧ col * 8 + bit < numMediaPackets then
      0x80 >>> UInt8.ofNat bit else 0) 0

/-- `LookUpPacketMasks(num_media_packets, num_fec_packets)`. -/
def lookUpPacketMasks (fixedMaskTable : List UInt8) (numMediaPackets numFecPackets : Nat) :
    Option (List UInt8) :=
  if kUlpFecMaxMediaPackets < numMediaPackets ∨ numMediaPackets < numFecPackets then none
  else if numMediaPackets ≤ (fixedMaskTable.getD 0 0).toNat then
    lookUpInFixedMaskTable fixedMaskTable (sizeT (numMediaPackets - 1)) (sizeT (numFecPackets - 1))
  else
    some ((List.range numFecPackets).flatMap fun row =>
      (List.range (packetMaskSize numMediaPackets)).map fun col =>
        interleavedByte numMediaPackets numFecPackets row col)

/-! ## Generating -/

/-- Bytes that are copied into the array of masks, and the place they are copied to. -/
abbrev MaskWrite : Type := Nat × List UInt8

/-- `PickFixedMaskTable(fec_mask_type, num_media_packets)`. -/
def pickFixedMaskTable (fecMaskType : FecMaskType) (numMediaPackets : Nat) : List UInt8 :=
  if fecMaskType ≠ .random ∧ numMediaPackets ≤ (kPacketMaskBurstyTable.getD 0 0).toNat then
    kPacketMaskBurstyTable
  else kPacketMaskRandomTable

/-- `NumberOfFecPacketForImportantPackets(…)`. -/
def numberOfFecPacketForImportantPackets (numMediaPackets numFecPackets numImpPackets : Nat) :
    Nat :=
  let maxNumFecForImp := numFecPackets / 2
  let numFecForImp := if numImpPackets < maxNumFecForImp then numImpPackets else maxNumFecForImp
  if numFecPackets = 1 ∧ 2 * numImpPackets < numMediaPackets then 0 else numFecForImp

/-- `FitSubMasks(…)`, for masks that begin at `start`. -/
def fitSubMasks (numMaskStride numSubMaskStride numRow : Nat) (subPacketMasks : List UInt8)
    (start : Nat) : List MaskWrite :=
  if numMaskStride = numSubMaskStride then
    [(start, readFrom subPacketMasks 0 (numRow * numSubMaskStride))]
  else
    (List.range numRow).map fun row =>
      (start + numMaskStride * row,
        readFrom subPacketMasks (numSubMaskStride * row) numSubMaskStride)

/-- `GenerateUnequalProtectionMasks(…)`, with overlap. -/
def generateUnequalProtectionMasks (table : List UInt8)
    (numMediaPackets numFecPackets numImpPackets numMaskBytes : Nat) : List MaskWrite :=
  let numFecForImpPackets :=
    numberOfFecPacketForImportantPackets numMediaPackets numFecPackets numImpPackets
  let numFecRemaining := numFecPackets - numFecForImpPackets
  (if 0 < numFecForImpPackets then
    fitSubMasks numMaskBytes (packetMaskSize numImpPackets) numFecForImpPackets
      ((lookUpPacketMasks table numImpPackets numFecForImpPackets).getD []) 0
  else []) ++
  if 0 < numFecRemaining then
    fitSubMasks numMaskBytes numMaskBytes numFecRemaining
      ((lookUpPacketMasks table numMediaPackets numFecRemaining).getD [])
      (numFecForImpPackets * numMaskBytes)
  else []

/-- `GeneratePacketMasks(…)`: what it copies into the masks. -/
def generatePacketMasks (fecMaskType : FecMaskType)
    (numMediaPackets numFecPackets numImpPackets : Nat) (useUnequalProtection : Bool) :
    List MaskWrite :=
  if numMediaPackets < numFecPackets then []
  else if numMediaPackets < numImpPackets then []
  else
    let table := pickFixedMaskTable fecMaskType numMediaPackets
    if !useUnequalProtection ∨ numImpPackets = 0 then
      [(0, (lookUpPacketMasks table numMediaPackets numFecPackets).getD [])]
    else
      generateUnequalProtectionMasks table numMediaPackets numFecPackets numImpPackets
        (packetMaskSize numMediaPackets)

/-! ## What is copied fits -/

theorem lookUpInFixedMaskTable_length {table masks : List UInt8} {i j : Nat}
    (h : lookUpInFixedMaskTable table i j = some masks) : masks.length ≤ 6 * (j + 1) ∧ j < 256 := by
  unfold lookUpInFixedMaskTable at h
  split at h
  · cases h
  · dsimp only at h
    split at h
    · cases h
    · next hentry =>
      obtain rfl := Option.some.inj h
      rw [length_readFrom]
      refine ⟨Nat.mul_le_mul_right _ ?_, ?_⟩
      · unfold entrySizeIncrementAt
        split <;> decide
      · exact Nat.lt_trans (Nat.not_le.1 hentry) (UInt8.toNat_lt _)

theorem lookUpPacketMasks_length {table masks : List UInt8} {numMedia numFec : Nat}
    (h : lookUpPacketMasks table numMedia numFec = some masks) : masks.length ≤ 6 * numFec := by
  unfold lookUpPacketMasks kUlpFecMaxMediaPackets at h
  split at h
  · cases h
  · split at h
    · obtain ⟨hlength, hindex⟩ := lookUpInFixedMaskTable_length h
      unfold sizeT at hlength hindex
      omega
    · obtain rfl := Option.some.inj h
      have hsize := packetMaskSize_le numMedia
      rw [List.length_flatMap]
      simp only [List.length_map, List.length_range, List.map_const', List.sum_replicate_nat]
      rw [Nat.mul_comm]
      exact Nat.mul_le_mul_right _ hsize

theorem lookUpPacketMasks_getD_length (table : List UInt8) (numMedia numFec : Nat) :
    ((lookUpPacketMasks table numMedia numFec).getD []).length ≤ 6 * numFec := by
  cases h : lookUpPacketMasks table numMedia numFec with
  | none => exact Nat.zero_le _
  | some masks => exact lookUpPacketMasks_length h

theorem fitSubMasks_inside {maskStride subStride numRow start : Nat} {sub : List UInt8}
    (hmask : maskStride ≤ 6) (hsub : subStride ≤ 6) {write : MaskWrite}
    (h : write ∈ fitSubMasks maskStride subStride numRow sub start) :
    write.1 + write.2.length ≤ start + 6 * numRow := by
  unfold fitSubMasks at h
  by_cases hsame : maskStride = subStride
  · rw [if_pos hsame, List.mem_singleton] at h
    rw [h, length_readFrom, Nat.mul_comm 6]
    exact Nat.add_le_add_left (Nat.mul_le_mul_left _ hsub) _
  · rw [if_neg hsame] at h
    obtain ⟨row, hrow, rfl⟩ := List.mem_map.1 h
    rw [List.mem_range] at hrow
    rw [length_readFrom]
    have hplace : maskStride * row ≤ 6 * row := Nat.mul_le_mul_right _ hmask
    show start + maskStride * row + subStride ≤ start + 6 * numRow
    omega

theorem generatePacketMasks_inside {fecMaskType : FecMaskType} {numMedia numFec numImp : Nat}
    {unequal : Bool} (hmedia : numMedia ≤ kUlpFecMaxMediaPackets) {write : MaskWrite}
    (h : write ∈ generatePacketMasks fecMaskType numMedia numFec numImp unequal) :
    write.1 + write.2.length ≤ maxPacketMaskCount := by
  unfold kUlpFecMaxMediaPackets at hmedia
  show write.1 + write.2.length ≤ 288
  unfold generatePacketMasks at h
  by_cases hfec : numMedia < numFec
  · rw [if_pos hfec] at h
    cases h
  · by_cases himp : numMedia < numImp
    · rw [if_neg hfec, if_pos himp] at h
      cases h
    · rw [if_neg hfec, if_neg himp] at h
      by_cases hequal : (!unequal) = true ∨ numImp = 0
      · simp only [if_pos hequal, List.mem_singleton] at h
        have hlength := lookUpPacketMasks_getD_length (pickFixedMaskTable fecMaskType numMedia)
          numMedia numFec
        have hstart : write.1 = 0 := by rw [h]
        have hwrite : write.2.length ≤ 6 * numFec := by
          rw [h]
          exact hlength
        omega
      · simp only [if_neg hequal] at h
        have hstride := packetMaskSize_le numMedia
        have hfecForImp : numberOfFecPacketForImportantPackets numMedia numFec numImp ≤ numFec := by
          unfold numberOfFecPacketForImportantPackets
          dsimp only
          split
          · exact Nat.zero_le _
          · split <;> omega
        rcases List.mem_append.1 h with h | h
        · split at h
          · have hinside := fitSubMasks_inside hstride (packetMaskSize_le numImp) h
            omega
          · cases h
        · split at h
          · have hinside := fitSubMasks_inside hstride hstride h
            have hstart := Nat.mul_le_mul_left
              (numberOfFecPacketForImportantPackets numMedia numFec numImp) hstride
            omega
          · cases h

end NaiveRtc.Fec
