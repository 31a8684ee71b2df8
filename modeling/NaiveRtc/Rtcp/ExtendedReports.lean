import NaiveRtc.Rtcp.ReportPackets

/-!
# Extended reports

The writing half of `rtc/rtp_rtcp/rtcp/packets/extended_reports.cpp`, with the blocks of
`rrtr.cpp`, `dlrr.cpp` and `target_bitrate.cpp`.  Its loop in front of the packet tests
`OnBufferFull` the other way round than all others.

* `Rrtr`, `Dlrr`, `TargetBitrate` — the blocks, and the bytes they write.
* `ExtendedReports.waitForRoom` — the loop.
* `ExtendedReports.packInto_of_room` — the packet is written where it fits.
* `ExtendedReports.packInto_flushed`, `ExtendedReports.packInto_spins` — where it does not,
  it is refused once the buffer could be flushed, and otherwise the call never returns.
-/

namespace NaiveRtc.Rtcp

open ByteIo PackState

/-! ## Blocks -/

/-- `Rrtr`. -/
structure Rrtr where
  ntp : NtpTime
  deriving DecidableEq

namespace Rrtr

/-- `kBlockType`. -/
def kBlockType : UInt8 := 4

/-- `BlockSize()`. -/
def blockSize (_ : Rrtr) : Nat := 12

/-- The block on the wire. -/
def bytes (r : Rrtr) : List UInt8 :=
  [kBlockType] ++ [0] ++ writeBigEndian 2 2 ++ writeBigEndian 4 r.ntp.seconds.toNat ++
    writeBigEndian 4 r.ntp.fractions.toNat

/-- `PackInto(buffer, size)`, the bytes it writes. -/
def packInto (r : Rrtr) (size : Nat) : List UInt8 := if size < 12 then [] else r.bytes

theorem length_bytes (r : Rrtr) : r.bytes.length = r.blockSize := by
  simp [bytes, blockSize]

end Rrtr

/-- `Dlrr::TimeInfo`. -/
structure TimeInfo where
  ssrc : U32
  lastRr : U32
  delaySinceLastRr : U32
  deriving DecidableEq

/-- The time info on the wire. -/
def TimeInfo.bytes (t : TimeInfo) : List UInt8 :=
  writeBigEndian 4 t.ssrc.toNat ++ writeBigEndian 4 t.lastRr.toNat ++
    writeBigEndian 4 t.delaySinceLastRr.toNat

/-- `Dlrr`. -/
structure Dlrr where
  timeInfos : List TimeInfo
  deriving DecidableEq

namespace Dlrr

/-- `kBlockType`. -/
def kBlockType : UInt8 := 5
/-- `kBlockHeaderSize`. -/
def kBlockHeaderSize : Nat := 4
/-- `kTimeInfoSize`. -/
def kTimeInfoSize : Nat := 12

/-- `BlockSize()`: without time infos there is no block. -/
def blockSize (d : Dlrr) : Nat :=
  if d.timeInfos.isEmpty then 0 else kBlockHeaderSize + kTimeInfoSize * d.timeInfos.length

/-- The block on the wire. -/
def bytes (d : Dlrr) : List UInt8 :=
  if d.timeInfos.isEmpty then []
  else [kBlockType] ++ [0] ++ writeBigEndian 2 (3 * d.timeInfos.length) ++
    d.timeInfos.flatMap TimeInfo.bytes

/-- `PackInto(buffer, size)`, the bytes it writes. -/
def packInto (d : Dlrr) (size : Nat) : List UInt8 :=
  if d.timeInfos.isEmpty then [] else if size < d.blockSize then [] else d.bytes

theorem length_bytes (d : Dlrr) : d.bytes.length = d.blockSize := by
  have hinfo : ∀ t : TimeInfo, t.bytes.length = kTimeInfoSize := by
    intro t
    simp [TimeInfo.bytes, kTimeInfoSize]
  unfold bytes blockSize
  split_ifs
  · rfl
  · rw [List.length_append, length_flatMap_of_length hinfo]
    simp [kBlockHeaderSize]

end Dlrr

/-- `TargetBitrate::BitrateItem`. -/
structure BitrateItem where
  spatialLayer : UInt8
  temporalLayer : UInt8
  targetBitrateKbps : U32
  deriving DecidableEq

/-- `TargetBitrate`. -/
structure TargetBitrate where
  bitrates : List BitrateItem
  deriving DecidableEq

namespace TargetBitrate

/-- `kBlockType`. -/
def kBlockType : UInt8 := 42
/-- `kBlockHeaderSize`. -/
def kBlockHeaderSize : Nat := 4
/-- `kBitrateItemSize`. -/
def kBitrateItemSize : Nat := 4

/-- `BlockSize()`. -/
def blockSize (t : TargetBitrate) : Nat := kBlockHeaderSize + t.bitrates.length * kBitrateItemSize

/-- One item. -/
def itemBytes (item : BitrateItem) : List UInt8 :=
  [(item.spatialLayer <<< 4) ||| item.temporalLayer] ++
    writeBigEndian 3 item.targetBitrateKbps.toNat

/-- The block on the wire. -/
def bytes (t : TargetBitrate) : List UInt8 :=
  [kBlockType] ++ [0] ++ writeBigEndian 2 (t.blockSize / 4 - 1) ++ t.bitrates.flatMap itemBytes

/-- `PackInto(buffer, size)`, the bytes it writes. -/
def packInto (t : TargetBitrate) (size : Nat) : List UInt8 :=
  if size < t.blockSize then [] else t.bytes

theorem length_bytes (t : TargetBitrate) : t.bytes.length = t.blockSize := by
  have hitem : ∀ item, (itemBytes item).length = kBitrateItemSize := by
    intro item
    simp [itemBytes, kBitrateItemSize]
  rw [bytes, List.length_append, length_flatMap_of_length hitem, blockSize, Nat.mul_comm]
  simp [kBlockHeaderSize]

end TargetBitrate

/-! ## The packet -/

/-- `ExtendedReports`. -/
structure ExtendedReports where
  senderSsrc : U32
  rrtrBlock : Option Rrtr
  dlrrBlock : Dlrr
  targetBitrate : Option TargetBitrate
  deriving DecidableEq

namespace ExtendedReports

/-- `kPacketType`. -/
def kPacketType : Nat := 207
/-- `kXrBaseSize`. -/
def kXrBaseSize : Nat := 4

/-- `RrtrBlockSize()`. -/
def rrtrBlockSize (x : ExtendedReports) : Nat := (x.rrtrBlock.map Rrtr.blockSize).getD 0

/-- `DlrrBlockSize()`. -/
def dlrrBlockSize (x : ExtendedReports) : Nat := x.dlrrBlock.blockSize

/-- `TargetBitrateBlockSize()`. -/
def targetBitrateBlockSize (x : ExtendedReports) : Nat :=
  (x.targetBitrate.map TargetBitrate.blockSize).getD 0

/-- `PacketSize()`. -/
def packetSize (x : ExtendedReports) : Nat :=
  kRtcpCommonHeaderSize + kXrBaseSize + x.rrtrBlockSize + x.dlrrBlockSize + x.targetBitrateBlockSize

/-- The loop of `PackInto`: `while (*index + PacketSize() > max_size)
if (OnBufferFull(..)) return false`. -/
def waitForRoom (hasCallback : Bool) (size maxSize : Nat) : Nat → PackState → Packed
  | 0, _ => none
  | fuel + 1, st =>
    if maxSize < st.index + size then
      match st.onBufferFull hasCallback with
      | some st' => some (false, st')
      | none => waitForRoom hasCallback size maxSize fuel st
    else some (true, st)

/-- The RRTR block, if there is one. -/
def packRrtrBlock (x : ExtendedReports) (indexEnd : Nat) (st : PackState) : PackState :=
  match x.rrtrBlock with
  | some rrtr => st.put (rrtr.packInto (indexEnd - st.index)) rrtr.blockSize
  | none => st

/-- The DLRR block, if there is one. -/
def packDlrrBlock (x : ExtendedReports) (indexEnd : Nat) (st : PackState) : PackState :=
  if x.dlrrBlock.timeInfos.isEmpty then st
  else st.put (x.dlrrBlock.packInto (indexEnd - st.index)) x.dlrrBlock.blockSize

/-- The target bitrate block, if there is one. -/
def packTargetBitrate (x : ExtendedReports) (indexEnd : Nat) (st : PackState) : PackState :=
  match x.targetBitrate with
  | some targetBitrate => st.put (targetBitrate.packInto (indexEnd - st.index)) targetBitrate.blockSize
  | none => st

/-- `PackInto` after its loop. -/
def packBody (x : ExtendedReports) (st : PackState) : PackState :=
  let indexEnd := st.index + x.packetSize
  let st := st.write (packCommonHeader 0 kPacketType (x.packetSize - kRtcpCommonHeaderSize) false)
  let st := st.write (writeBigEndian 4 x.senderSsrc.toNat)
  let st := x.packRrtrBlock indexEnd st
  let st := x.packDlrrBlock indexEnd st
  x.packTargetBitrate indexEnd st

/-- `PackInto(buffer, index, max_size, callback)`. -/
def packInto (x : ExtendedReports) (hasCallback : Bool) (maxSize fuel : Nat) (st : PackState) :
    Packed :=
  match waitForRoom hasCallback x.packetSize maxSize fuel st with
  | none => none
  | some (false, st) => some (false, st)
  | some (true, st) => some (true, x.packBody st)

/-- The packet on the wire. -/
def bytes (x : ExtendedReports) : List UInt8 :=
  packCommonHeader 0 kPacketType (x.packetSize - kRtcpCommonHeaderSize) false ++
    writeBigEndian 4 x.senderSsrc.toNat ++ (x.rrtrBlock.map Rrtr.bytes).getD [] ++
    x.dlrrBlock.bytes ++ (x.targetBitrate.map TargetBitrate.bytes).getD []

section

variable (x : ExtendedReports)
include x

theorem length_rrtrBytes :
    ((x.rrtrBlock.map Rrtr.bytes).getD []).length = x.rrtrBlockSize := by
  unfold rrtrBlockSize
  cases x.rrtrBlock with
  | none => rfl
  | some rrtr => exact rrtr.length_bytes

theorem length_targetBitrateBytes :
    ((x.targetBitrate.map TargetBitrate.bytes).getD []).length = x.targetBitrateBlockSize := by
  unfold targetBitrateBlockSize
  cases x.targetBitrate with
  | none => rfl
  | some targetBitrate => exact targetBitrate.length_bytes

theorem length_bytes : x.bytes.length = x.packetSize := by
  simp only [bytes, List.length_append, length_packCommonHeader, length_writeBigEndian,
    length_rrtrBytes, Dlrr.length_bytes, length_targetBitrateBytes]
  rfl

/-! ## What the call does -/

variable {st : PackState}

variable {indexEnd : Nat}

theorem packRrtrBlock_eq (hroom : st.index + x.rrtrBlockSize ≤ indexEnd) :
    x.packRrtrBlock indexEnd st = st.write ((x.rrtrBlock.map Rrtr.bytes).getD []) := by
  unfold packRrtrBlock rrtrBlockSize at *
  cases hblock : x.rrtrBlock with
  | none => exact (write_nil st).symm
  | some rrtr =>
    rw [hblock] at hroom
    have hsize : st.index + 12 ≤ indexEnd := hroom
    have hpack : rrtr.packInto (indexEnd - st.index) = rrtr.bytes := if_neg (by omega)
    dsimp only
    rw [hpack]
    exact put_eq_write st rrtr.length_bytes

theorem packDlrrBlock_eq (hroom : st.index + x.dlrrBlockSize ≤ indexEnd) :
    x.packDlrrBlock indexEnd st = st.write x.dlrrBlock.bytes := by
  unfold packDlrrBlock dlrrBlockSize at *
  by_cases hempty : x.dlrrBlock.timeInfos.isEmpty = true
  · rw [if_pos hempty, Dlrr.bytes, if_pos hempty, write_nil]
  · have hpack : x.dlrrBlock.packInto (indexEnd - st.index) = x.dlrrBlock.bytes := by
      unfold Dlrr.packInto
      rw [if_neg hempty, if_neg (by omega)]
    rw [if_neg hempty, hpack]
    exact put_eq_write st x.dlrrBlock.length_bytes

theorem packTargetBitrate_eq
    (hroom : st.index + x.targetBitrateBlockSize ≤ indexEnd) :
    x.packTargetBitrate indexEnd st =
      st.write ((x.targetBitrate.map TargetBitrate.bytes).getD []) := by
  unfold packTargetBitrate targetBitrateBlockSize at *
  cases hblock : x.targetBitrate with
  | none => exact (write_nil st).symm
  | some targetBitrate =>
    rw [hblock] at hroom
    have hsize : st.index + targetBitrate.blockSize ≤ indexEnd := hroom
    have hpack : targetBitrate.packInto (indexEnd - st.index) = targetBitrate.bytes :=
      if_neg (by omega)
    dsimp only
    rw [hpack]
    exact put_eq_write st targetBitrate.length_bytes

theorem packBody_eq (h : st.index ≤ st.buffer.length) :
    x.packBody st = st.write x.bytes := by
  have hsize : x.packetSize = 8 + x.rrtrBlockSize + x.dlrrBlockSize + x.targetBitrateBlockSize :=
    rfl
  have hdlrr : x.dlrrBlock.blockSize = x.dlrrBlockSize := rfl
  unfold packBody
  dsimp only
  rw [write_write h, packRrtrBlock_eq, write_write h, packDlrrBlock_eq, write_write h,
    packTargetBitrate_eq, write_write h, bytes]
  · simp only [index_write, List.length_append, length_packCommonHeader, length_writeBigEndian,
      length_rrtrBytes, Dlrr.length_bytes]
    omega
  · simp only [index_write, List.length_append, length_packCommonHeader, length_writeBigEndian,
      length_rrtrBytes]
    omega
  · simp only [index_write, List.length_append, length_packCommonHeader, length_writeBigEndian]
    omega

end

section Outcome

variable {x : ExtendedReports} {hasCallback : Bool} {maxSize : Nat} {st : PackState}

theorem packInto_of_room (hroom : st.index + x.packetSize ≤ maxSize)
    (hbuffer : maxSize ≤ st.buffer.length) (fuel : Nat) :
    x.packInto hasCallback maxSize (fuel + 1) st = some (true, st.write x.bytes) := by
  unfold packInto waitForRoom
  rw [if_neg (by omega)]
  dsimp only
  rw [x.packBody_eq (by omega)]

/-- Where it does not fit and the buffer can be flushed, the buffer is flushed and the
packet refused, even if it fits now. -/
theorem packInto_flushed (hroom : maxSize < st.index + x.packetSize) (hindex : st.index ≠ 0)
    (fuel : Nat) : x.packInto true maxSize (fuel + 1) st = some (false, st.flushed) := by
  unfold packInto waitForRoom
  rw [if_pos hroom, onBufferFull_eq, if_pos ⟨hindex, rfl⟩]

theorem packInto_spins (hroom : maxSize < st.index + x.packetSize)
    (hflush : ¬(st.index ≠ 0 ∧ hasCallback = true)) (fuel : Nat) :
    x.packInto hasCallback maxSize fuel st = none := by
  have hloop : waitForRoom hasCallback x.packetSize maxSize fuel st = none := by
    induction fuel with
    | zero => rfl
    | succ fuel ih =>
      unfold waitForRoom
      rw [if_pos hroom, onBufferFull_eq, if_neg hflush]
      exact ih
  unfold packInto
  rw [hloop]

end Outcome

end ExtendedReports

end NaiveRtc.Rtcp
