import NaiveRtc.Fec.MaskGenerator
import NaiveRtc.Rtp.RtpPacket

/-!
# The FEC encoder

`rtc/rtp_rtcp/rtp/fec/fec_encoder.cpp` with the header writer of ULPFEC and the XOR functions of
`fec_codec.cpp`.

* `FecEncoder` — the arrays; `inBounds` says that all accesses to them so far were inside, and that
  every header was written inside its FEC packet.
* `FecEncoder.insertZeroInPacketMasks` — columns for the sequence numbers that are missing.
* `protectPacket`, `generateRow`, `FecEncoder.generateFecPayload` — the payloads.
* `FecEncoder.encode` — with the sanity checks; the FEC packets are written into a list that may
  hold some already.

A read outside an array gives zero in the model, and a write outside is lost; `inBounds` is false
from then on.  So it is when an FEC packet stays empty: the assertion behind its payload fails, and
its header would be written through null.
-/

namespace NaiveRtc.Fec

open ByteIo CopyOnWrite Overwrite
open Rtp (RtpPacket)

/-! ## Columns -/

/-- `CopyColumn(…)`: the old masks, and the new ones. -/
def copyColumn (numFecPackets oldMaskSize newMaskSize oldBitIndex newBitIndex : Nat)
    (oldMasks newMasks : List UInt8) : List UInt8 × List UInt8 :=
  (List.range numFecPackets).foldl (fun (old, new) row =>
    let newColIndex := row * newMaskSize + newBitIndex / 8
    let oldColIndex := row * oldMaskSize + oldBitIndex / 8
    let byte := new.getD newColIndex 0 ||| ((old.getD oldColIndex 0 &&& 0x80) >>> 7)
    (old.set oldColIndex (old.getD oldColIndex 0 <<< 1),
      new.set newColIndex (if newBitIndex % 8 ≠ 7 then byte <<< 1 else byte)))
    (oldMasks, newMasks)

/-- `InsertZeroColumns(…)`. -/
def insertZeroColumns (numZeros numFecPackets newMaskBytes newBitIndex : Nat)
    (newMasks : List UInt8) : List UInt8 :=
  (List.range numFecPackets).foldl (fun new row =>
    let newByteIndex := row * newMaskBytes + newBitIndex / 8
    let maxShifts := 7 - newBitIndex % 8
    new.set newByteIndex (new.getD newByteIndex 0 <<< UInt8.ofNat (min numZeros maxShifts)))
    newMasks

/-- The correction of the last byte at the end of `InsertZeroInPacketMasks`. -/
def shiftLastByte (numFecPackets maskSize bitIndex : Nat) (masks : List UInt8) : List UInt8 :=
  (List.range numFecPackets).foldl (fun masks row =>
    let byteIndex := row * maskSize + bitIndex / 8
    masks.set byteIndex (masks.getD byteIndex 0 <<< UInt8.ofNat (7 - bitIndex % 8))) masks

/-- The accesses to one byte of every row are inside an array. -/
def columnInside (numFecPackets maskSize bitIndex : Nat) (masks : List UInt8) : Bool :=
  (List.range numFecPackets).all fun row => row * maskSize + bitIndex / 8 < masks.length

/-! ## The encoder -/

/-- `FecEncoder`. -/
structure FecEncoder where
  packetMaskSize : Nat := 0
  packetMasks : List UInt8
  tmpPacketMasks : List UInt8
  inBounds : Bool := true
  deriving DecidableEq

namespace FecEncoder

/-- The difference of two sequence numbers, of the type `int`. -/
def seqDiff (curr prev : U16) : Int := (curr.toNat : Int) - prev.toNat

/-- `InsertZeroColumns` on the new masks. -/
def insertZeros (e : FecEncoder) (numZeros numFecPackets newMaskSize newBitIndex : Nat) :
    FecEncoder :=
  { e with
    tmpPacketMasks :=
      insertZeroColumns numZeros numFecPackets newMaskSize newBitIndex e.tmpPacketMasks
    inBounds := e.inBounds &&
      columnInside numFecPackets newMaskSize newBitIndex e.tmpPacketMasks }

/-- `CopyColumn` from the masks to the new ones. -/
def copyToNew (e : FecEncoder) (numFecPackets newMaskSize oldBitIndex newBitIndex : Nat) :
    FecEncoder :=
  let copied := copyColumn numFecPackets e.packetMaskSize newMaskSize oldBitIndex newBitIndex
    e.packetMasks e.tmpPacketMasks
  { e with
    packetMasks := copied.1
    tmpPacketMasks := copied.2
    inBounds := e.inBounds &&
      columnInside numFecPackets newMaskSize newBitIndex e.tmpPacketMasks &&
      columnInside numFecPackets e.packetMaskSize oldBitIndex e.packetMasks }

/-- The loop of `InsertZeroInPacketMasks` over the packets behind the first one: the encoder, and
the number of bits. -/
def insertLoop (numFecPackets tmpPacketMaskSize : Nat) :
    U16 → Nat → Nat → List RtpPacket → FecEncoder → FecEncoder × Nat
  | _, _, newBitIndex, [], e => (e, newBitIndex)
  | prevSeqNum, oldBitIndex, newBitIndex, packet :: packets, e =>
    if newBitIndex = kUlpFecMaxMediaPackets then (e, newBitIndex)
    else
      let currSeqNum := packet.sequenceNum
      let numZeroToInsert := sizeT (seqDiff currSeqNum prevSeqNum - 1)
      let e :=
        if 0 < numZeroToInsert then
          e.insertZeros numZeroToInsert numFecPackets tmpPacketMaskSize newBitIndex
        else e
      let newBitIndex := sizeT (newBitIndex + numZeroToInsert : Nat)
      insertLoop numFecPackets tmpPacketMaskSize currSeqNum (oldBitIndex + 1)
        (sizeT (newBitIndex + 1 : Nat)) packets
        (e.copyToNew numFecPackets tmpPacketMaskSize oldBitIndex newBitIndex)

/-- The last byte of every row moved up. -/
def shiftLast (e : FecEncoder) (numFecPackets newMaskSize newBitIndex : Nat) : FecEncoder :=
  if newBitIndex % 8 ≠ 0 then
    { e with
      tmpPacketMasks := shiftLastByte numFecPackets newMaskSize newBitIndex e.tmpPacketMasks
      inBounds := e.inBounds &&
        columnInside numFecPackets newMaskSize newBitIndex e.tmpPacketMasks }
  else e

/-- The part of `InsertZeroInPacketMasks` that moves the columns. -/
def spreadColumns (e : FecEncoder) (numFecPackets tmpPacketMaskSize : Nat) (first : RtpPacket)
    (packets : List RtpPacket) : FecEncoder × Nat :=
  let size := numFecPackets * tmpPacketMaskSize
  let e := { e with
    tmpPacketMasks := overwrite e.tmpPacketMasks 0 (List.replicate size 0)
    inBounds := e.inBounds && decide (size ≤ e.tmpPacketMasks.length) }
  -- insert the first column
  let e := e.copyToNew numFecPackets tmpPacketMaskSize 0 0
  let r := insertLoop numFecPackets tmpPacketMaskSize first.sequenceNum 1 1 packets e
  let e := r.1.shiftLast numFecPackets tmpPacketMaskSize r.2
  ({ e with
    packetMasks := overwrite e.packetMasks 0 (readFrom e.tmpPacketMasks 0 size)
    inBounds := e.inBounds && decide (size ≤ e.packetMasks.length) }, r.2)

/-- `InsertZeroInPacketMasks(media_packets, num_fec_packets)`. -/
def insertZeroInPacketMasks (e : FecEncoder) (mediaPackets : List RtpPacket)
    (numFecPackets : Nat) : FecEncoder × Int :=
  match mediaPackets with
  | [] => (e, 0)
  | [_] => (e, 1)
  | first :: packets =>
    let numMediaPackets := mediaPackets.length
    let lastSeqNum := (packets.getLastD first).sequenceNum
    let missingSeqNums := sizeT
      (((seqDiff lastSeqNum first.sequenceNum + 1) % 2 ^ 16) - numMediaPackets)
    if missingSeqNums = 0 then (e, numMediaPackets)
    else if kUlpFecMaxMediaPackets < sizeT (missingSeqNums + numMediaPackets) then (e, -1)
    else
      let tmpPacketMaskSize := Fec.packetMaskSize (sizeT (missingSeqNums + numMediaPackets))
      let r := e.spreadColumns numFecPackets tmpPacketMaskSize first packets
      (r.1, r.2)

end FecEncoder

/-! ## Payloads -/

/-- An FEC packet is a buffer; a new one is empty. -/
abbrev FecPacket : Type := List UInt8

/-- `kRtpHeaderSize`. -/
def kRtpHeaderSize : Nat := 12

/-- `XorHeader(src, src_payload_size, dst)`. -/
def xorHeader (src : List UInt8) (srcPayloadSize : Nat) (dst : FecPacket) : FecPacket :=
  let lengthRecovery := srcPayloadSize % 2 ^ 16
  overwrite dst 0 [
    dst.getD 0 0 ^^^ src.getD 0 0,
    dst.getD 1 0 ^^^ src.getD 1 0,
    dst.getD 2 0 ^^^ UInt8.ofNat (lengthRecovery / 2 ^ 8),
    dst.getD 3 0 ^^^ (UInt8.ofNat lengthRecovery &&& 0x0F),
    dst.getD 4 0 ^^^ src.getD 4 0,
    dst.getD 5 0 ^^^ src.getD 5 0,
    dst.getD 6 0 ^^^ src.getD 6 0,
    dst.getD 7 0 ^^^ src.getD 7 0]

/-- `XorPayload(…)`. -/
def xorPayload (srcPayloadOffset srcPayloadSize : Nat) (src : List UInt8) (dstPayloadOffset : Nat)
    (dst : FecPacket) : FecPacket :=
  let dst :=
    if dst.length < dstPayloadOffset + srcPayloadSize then
      resized (dstPayloadOffset + srcPayloadSize) dst
    else dst
  overwrite dst dstPayloadOffset ((List.range srcPayloadSize).map fun i =>
    dst.getD (dstPayloadOffset + i) 0 ^^^ src.getD (srcPayloadOffset + i) 0)

/-- What `GenerateFecPayload` does with a media packet that an FEC packet protects. -/
def protectPacket (fecHeaderSize : Nat) (fecPacket : FecPacket) (mediaPacket : RtpPacket) :
    FecPacket :=
  let mediaPacketPayloadSize := mediaPacket.size - kRtpHeaderSize
  let isFirstProtectedPacket := decide (fecPacket.length = 0)
  let fecPacketSize := fecHeaderSize + mediaPacketPayloadSize
  let fecPacket :=
    if fecPacket.length < fecPacketSize then resized fecPacketSize fecPacket else fecPacket
  if isFirstProtectedPacket then
    let fecPacket := overwrite fecPacket 0 (readFrom mediaPacket.bytes 0 2)
    let fecPacket := overwrite fecPacket 2 (writeBigEndian 2 mediaPacketPayloadSize)
    let fecPacket := overwrite fecPacket 4 (readFrom mediaPacket.bytes 4 4)
    overwrite fecPacket fecHeaderSize
      (readFrom mediaPacket.bytes kRtpHeaderSize mediaPacketPayloadSize)
  else
    xorPayload kRtpHeaderSize mediaPacketPayloadSize mediaPacket.bytes fecHeaderSize
      (xorHeader mediaPacket.bytes mediaPacketPayloadSize fecPacket)

/-- The FEC packet protects the media packet that stands at this bit of its mask. -/
def protects (packetMasks : List UInt8) (pktMaskIdx mediaPktIdx : Nat) : Bool :=
  packetMasks.getD pktMaskIdx 0 &&& ((1 : UInt8) <<< UInt8.ofNat (7 - mediaPktIdx)) ≠ 0

/-- The loop of `GenerateFecPayload` over the media packets: the FEC packet, and whether all reads
of the masks were inside. -/
def generateRow (packetMasks : List UInt8) (fecHeaderSize : Nat) :
    List RtpPacket → Nat → Nat → FecPacket → FecPacket × Bool
  | [], _, _, fecPacket => (fecPacket, true)
  | mediaPacket :: mediaPackets, pktMaskIdx, mediaPktIdx, fecPacket =>
    let fecPacket :=
      if protects packetMasks pktMaskIdx mediaPktIdx then
        protectPacket fecHeaderSize fecPacket mediaPacket
      else fecPacket
    let mediaPktIdx : Nat :=
      match mediaPackets with
      | [] => mediaPktIdx
      | next :: _ =>
        sizeT (mediaPktIdx + FecEncoder.seqDiff next.sequenceNum mediaPacket.sequenceNum)
    let r := generateRow packetMasks fecHeaderSize mediaPackets
      (sizeT (pktMaskIdx + mediaPktIdx / 8 : Nat)) (mediaPktIdx % 8) fecPacket
    (r.1, decide (pktMaskIdx < packetMasks.length) && r.2)

/-! ## Headers -/

/-- `FecHeaderSize(packet_mask_size)` of the ULPFEC writer. -/
def fecHeaderSize (packetMaskSize : Nat) : Nat :=
  if packetMaskSize ≤ kUlpFecPacketMaskSizeLBitClear then 10 + (2 + kUlpFecPacketMaskSizeLBitClear)
  else 10 + (2 + kUlpFecPacketMaskSizeLBitSet)

/-- `FinalizeFecHeader(…)` of the ULPFEC writer. -/
def finalizeFecHeader (seqNumBase : U16) (packetMask : List UInt8) (packetMaskSize : Nat)
    (fecPacket : FecPacket) : FecPacket :=
  let data := overwrite fecPacket 0 [fecPacket.getD 0 0 &&& 0x7F]
  let data := overwrite data 0 [
    if packetMaskSize = kUlpFecPacketMaskSizeLBitSet then data.getD 0 0 ||| 0x40
    else data.getD 0 0 &&& 0xBF]
  let data := overwrite data 8 (readFrom data 2 2)
  let data := overwrite data 2 (writeBigEndian 2 seqNumBase.toNat)
  let data := overwrite data 10
    (writeBigEndian 2 (sizeT (fecPacket.length - fecHeaderSize packetMaskSize)))
  overwrite data 12 packetMask

/-! ## Encoding -/

/-- `CalcNumFecPackets(num_media_packets, protection_factor)`; the factor is a `uint8_t`. -/
def calcNumFecPackets (numMediaPackets protectionFactor : Nat) : Nat :=
  let numFecPackets := (numMediaPackets * protectionFactor + 128) / 256
  if 0 < protectionFactor ∧ numFecPackets = 0 then 1 else numFecPackets

/-- The arguments of `Encode` next to the packets. -/
structure EncodeParams where
  protectionFactor : UInt8
  numImportantPackets : Nat := 0
  useUnequalProtection : Bool := false
  fecMaskType : FecMaskType := .random
  deriving DecidableEq

namespace FecEncoder

/-- `GenerateFecPayload(…)`. -/
def generateFecPayload (e : FecEncoder) (mediaPackets : List RtpPacket)
    (generatedFecPackets : List FecPacket) : List FecPacket × Bool :=
  let rows := generatedFecPackets.zipIdx.map fun (fecPacket, row) =>
    generateRow e.packetMasks (fecHeaderSize e.packetMaskSize) mediaPackets
      (row * e.packetMaskSize) 0 fecPacket
  (rows.map Prod.fst, rows.all Prod.snd)

/-- `FinalizeFecHeaders(…)`. -/
def finalizeFecHeaders (e : FecEncoder) (seqNumBase : U16) (generatedFecPackets : List FecPacket) :
    List FecPacket :=
  generatedFecPackets.zipIdx.map fun (fecPacket, row) =>
    finalizeFecHeader seqNumBase
      (readFrom e.packetMasks (row * e.packetMaskSize) e.packetMaskSize) e.packetMaskSize fecPacket

/-- The header of every FEC packet is written inside it; none of them is empty. -/
def headersInside (e : FecEncoder) (fecPackets : List FecPacket) : Bool :=
  fecPackets.all fun fecPacket => fecHeaderSize e.packetMaskSize ≤ fecPacket.length

/-- The masks before the columns are spread: cleared, and copied from the generator.  The size of a
row is taken from the number of FEC packets. -/
def preparePacketMasks (e : FecEncoder) (numMediaPackets numFecPackets : Nat)
    (params : EncodeParams) : FecEncoder :=
  let maskSize := Fec.packetMaskSize numFecPackets
  let cleared := overwrite e.packetMasks 0 (List.replicate (numFecPackets * maskSize) 0)
  let writes := generatePacketMasks params.fecMaskType numMediaPackets numFecPackets
    params.numImportantPackets params.useUnequalProtection
  { e with
    packetMaskSize := maskSize
    packetMasks := writes.foldl (fun masks write => overwrite masks write.1 write.2) cleared
    inBounds := e.inBounds &&
      decide (numFecPackets * maskSize ≤ e.packetMasks.length) &&
      writes.all fun write => write.1 + write.2.length ≤ e.packetMasks.length }

/-- The checks at the beginning of `Encode`. -/
def accepts (mediaPackets : List RtpPacket) (params : EncodeParams) : Bool :=
  decide (mediaPackets.length ≠ 0) &&
    decide (params.numImportantPackets ≤ mediaPackets.length) &&
    decide (mediaPackets.length ≤ kUlpFecMaxMediaPackets) &&
    mediaPackets.all fun packet => kRtpHeaderSize ≤ packet.size

/-- `Encode(…)`: the encoder, the list of FEC packets, and the result. -/
def encode (e : FecEncoder) (mediaPackets : List RtpPacket) (params : EncodeParams)
    (generatedFecPackets : List FecPacket) : FecEncoder × List FecPacket × Bool :=
  if !accepts mediaPackets params then (e, generatedFecPackets, false)
  else
    let numMediaPackets := mediaPackets.length
    let numFecPackets := calcNumFecPackets numMediaPackets params.protectionFactor.toNat
    if numFecPackets = 0 then (e, generatedFecPackets, true)
    else
      -- `resize(num_fec_packets)`: what is there stays there
      let generated := generatedFecPackets.take numFecPackets ++
        List.replicate (numFecPackets - generatedFecPackets.length) []
      let e := e.preparePacketMasks numMediaPackets numFecPackets params
      let r := e.insertZeroInPacketMasks mediaPackets numFecPackets
      -- a `size_t`, which is never below zero
      let numMaskBits := sizeT r.2
      if numMaskBits < 0 then (r.1, generated, false)
      else
        let e := { r.1 with packetMaskSize := Fec.packetMaskSize numMaskBits }
        let payloads := e.generateFecPayload mediaPackets generated
        let seqNumBase := (mediaPackets.headD { buffer := ⟨[], 0⟩ }).sequenceNum
        ({ e with inBounds := e.inBounds && payloads.2 && e.headersInside payloads.1 },
          e.finalizeFecHeaders seqNumBase payloads.1, true)

end FecEncoder

end NaiveRtc.Fec
