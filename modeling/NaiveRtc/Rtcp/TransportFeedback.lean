import NaiveRtc.Rtcp.LastChunk
import NaiveRtc.Rtcp.PackInto

/-!
# Transport feedback

The model of `rtc/rtp_rtcp/rtcp/packets/transport_feedback.cpp`: which packets of a
transport-wide sequence arrived and when, collected packet by packet, written into an
RTCP packet and read back.

* `TransportFeedback`, `ReceivedPacket` — the state.
* `setBase`, `addReceivedPacket` — the sender's side; a delta that does not fit, a
  number out of order or a full packet is refused.
* `packInto`, `parse`, `parseFrom` — the wire format.
-/

namespace NaiveRtc.Rtcp

open ByteIo

/-- The headers in front of the chunks. -/
def kTransportFeedbackHeaderSizeBytes : Nat := 4 + 8 + 8

/-- A chunk. -/
def kChunkSizeBytes : Nat := 2

/-- The largest packet. -/
def kMaxSizeBytes : Nat := (1 <<< 16) * 4

/-- The smallest payload. -/
def kMinPayloadSizeBytes : Nat := 8 + 8 + 2
/-- `kDeltaScaleFactor`, 0.25 ms. -/
def kDeltaScaleFactor : Int := 250

/-- The unit of the reference time, in microseconds. -/
def kBaseScaleFactor : Int := kDeltaScaleFactor * (1 <<< 8)

/-- The reference time wraps after this time. -/
def kTimeWrapPeriodUs : Int := (1 <<< 24) * kBaseScaleFactor

/-- The packets of a feedback, at most. -/
def kMaxReportedPackets : Nat := 0xffff

/-- The format of a transport feedback. -/
def kFeedbackMessageType : Nat := 15
/-- `Rtpfb::kPacketType`. -/
def kPacketType : Nat := 205

/-- `TransportFeedback::ReceivedPacket`.  A lost packet leaves `delta_ticks_`
uninitialised: it has no delta here. -/
structure ReceivedPacket where
  sequenceNumber : U16
  deltaTicks : Option Int
  deriving DecidableEq

/-- `received()`. -/
def ReceivedPacket.received (p : ReceivedPacket) : Bool := p.deltaTicks.isSome

/-- `TransportFeedback`, with the SSRCs of its base classes.  `refernce_time_` is
spelled out. -/
structure TransportFeedback where
  senderSsrc : U32
  mediaSsrc : U32
  includeLost : Bool
  baseSeqNum : U16
  statusCount : Nat
  referenceTime : Int
  feedbackSeq : UInt8
  includeTimestamps : Bool
  lastTimestampUs : Int
  receivedPackets : List ReceivedPacket
  allPackets : List ReceivedPacket
  encodedChunks : List U16
  lastChunk : LastChunk
  sizeBytes : Nat
  deriving DecidableEq

namespace TransportFeedback

/-- `TransportFeedback(include_timestamps, include_lost)`. -/
def create (includeTimestamps includeLost : Bool) : TransportFeedback :=
  { senderSsrc := 0, mediaSsrc := 0, includeLost := includeLost, baseSeqNum := 0
    statusCount := 0, referenceTime := 0, feedbackSeq := 0
    includeTimestamps := includeTimestamps, lastTimestampUs := 0
    receivedPackets := [], allPackets := [], encodedChunks := []
    lastChunk := LastChunk.create, sizeBytes := kTransportFeedbackHeaderSizeBytes }

/-- `GetBaseTimeUs()`. -/
def getBaseTimeUs (f : TransportFeedback) : Int := f.referenceTime * kBaseScaleFactor

/-- `GetBaseDeltaUs(prev_timestamp_us)`: the way from an earlier base time, the shorter one
round the wrap. -/
def getBaseDeltaUs (f : TransportFeedback) (prevTimestampUs : Int) : Int :=
  let delta := f.getBaseTimeUs - prevTimestampUs
  if (delta - kTimeWrapPeriodUs).natAbs < delta.natAbs then delta - kTimeWrapPeriodUs
  else if (delta + kTimeWrapPeriodUs).natAbs < delta.natAbs then delta + kTimeWrapPeriodUs
  else delta

/-- `set_sender_ssrc` and `set_media_ssrc`. -/
def setSsrcs (f : TransportFeedback) (senderSsrc mediaSsrc : U32) : TransportFeedback :=
  { f with senderSsrc := senderSsrc, mediaSsrc := mediaSsrc }

/-- `SetBase(base_sequence, ref_timestamp_us)`; the division of C++ truncates. -/
def setBase (f : TransportFeedback) (baseSequence : U16) (refTimestampUs : Int) :
    TransportFeedback :=
  let f := { f with
    baseSeqNum := baseSequence
    referenceTime := (refTimestampUs.tmod kTimeWrapPeriodUs).tdiv kBaseScaleFactor }
  { f with lastTimestampUs := f.getBaseTimeUs }

/-- `SetFeedbackSequenceNumber(feedback_sequence)`. -/
def setFeedbackSequenceNumber (f : TransportFeedback) (feedbackSequence : UInt8) :
    TransportFeedback :=
  { f with feedbackSeq := feedbackSequence }

/-! ## Collecting -/

/-- `AddDeltaSize(delta_size)`; `none` is `false`, which changes nothing. -/
def addDeltaSize (f : TransportFeedback) (deltaSize : Nat) : Option TransportFeedback :=
  if f.statusCount = kMaxReportedPackets then none
  else
    let addChunkSize := if f.lastChunk.empty then kChunkSizeBytes else 0
    if kMaxSizeBytes < f.sizeBytes + deltaSize + addChunkSize then none
    else if f.lastChunk.canAdd deltaSize then
      some { f with
        sizeBytes := f.sizeBytes + addChunkSize
        lastChunk := f.lastChunk.add deltaSize
        statusCount := f.statusCount + 1 }
    else if kMaxSizeBytes < f.sizeBytes + deltaSize + kChunkSizeBytes then none
    else
      let (chunk, rest) := f.lastChunk.emit
      some { f with
        encodedChunks := f.encodedChunks ++ [chunk]
        sizeBytes := f.sizeBytes + kChunkSizeBytes
        lastChunk := rest.add deltaSize
        statusCount := f.statusCount + 1 }

/-- `delta_full` of `AddReceivedPacket`: the time since the last packet, in ticks and
rounded.  The difference is taken in 64 bits; the divisions of C++ truncate. -/
def deltaFull (f : TransportFeedback) (timestampUs : Int) : Int :=
  let us := ((timestampUs - f.lastTimestampUs).bmod (2 ^ 64)).tmod kTimeWrapPeriodUs
  let us := if us > kTimeWrapPeriodUs.tdiv 2 then us - kTimeWrapPeriodUs else us
  let us := us + if us < 0 then -(kDeltaScaleFactor.tdiv 2) else kDeltaScaleFactor.tdiv 2
  us.tdiv kDeltaScaleFactor

/-- The delta of `AddReceivedPacket`; `none` when it does not fit into 16 bits. -/
def deltaOf (f : TransportFeedback) (timestampUs : Int) : Option Int :=
  if f.includeTimestamps then
    -- `static_cast<int16_t>(delta_full)`
    let delta := (f.deltaFull timestampUs).bmod (2 ^ 16)
    if delta ≠ f.deltaFull timestampUs then none else some delta
  else some 0

/-- The size of a delta on the wire. -/
def deltaSizeOf (delta : Int) : Nat := if 0 ≤ delta ∧ delta ≤ 0xff then 1 else 2

/-- `all_packets_.emplace_back(seq)`, when lost packets are listed. -/
def noteLost (f : TransportFeedback) (seq : U16) : TransportFeedback :=
  { f with
    allPackets := if f.includeLost then f.allPackets ++ [⟨seq, none⟩] else f.allPackets }

/-- `received_packets_.emplace_back(seq, delta)` and what goes with it. -/
def noteReceived (f : TransportFeedback) (seq : U16) (delta : Int) : TransportFeedback :=
  { f with
    receivedPackets := f.receivedPackets ++ [⟨seq, some delta⟩]
    allPackets := if f.includeLost then f.allPackets ++ [⟨seq, some delta⟩] else f.allPackets
    lastTimestampUs := f.lastTimestampUs + delta * kDeltaScaleFactor }

/-- The loop over the numbers skipped, `gap` of them from `seq` on; what it added stays
when it gives up. -/
def addMissing (f : TransportFeedback) (seq : U16) : Nat → Bool × TransportFeedback
  | 0 => (true, f)
  | gap + 1 =>
    match f.addDeltaSize 0 with
    | none => (false, f)
    | some f' => addMissing (f'.noteLost seq) (seq + 1) gap

/-- `next_seq_no` at the start of a call. -/
def nextSeqNo (f : TransportFeedback) : U16 := f.baseSeqNum + BitVec.ofNat 16 f.statusCount

/-- `AddReceivedPacket(sequence_number, timestamp_us)`. -/
def addReceivedPacket (f : TransportFeedback) (sequenceNumber : U16) (timestampUs : Int) :
    Bool × TransportFeedback :=
  match f.deltaOf timestampUs with
  | none => (false, f)
  | some delta =>
    if sequenceNumber ≠ f.nextSeqNo ∧
        WrapAround.aheadOf sequenceNumber (f.nextSeqNo - 1) = false then (false, f)
    else
      match f.addMissing f.nextSeqNo (sequenceNumber - f.nextSeqNo).toNat with
      | (false, f) => (false, f)
      | (true, f) =>
        match f.addDeltaSize (deltaSizeOf delta) with
        | none => (false, f)
        | some f =>
          let f := f.noteReceived sequenceNumber delta
          (true, { f with
            sizeBytes := if f.includeTimestamps then f.sizeBytes + deltaSizeOf delta
              else f.sizeBytes })

/-- A sequence of calls of `AddReceivedPacket`: what each returned, and the state
after. -/
def addAll (f : TransportFeedback) : List (U16 × Int) → List Bool × TransportFeedback
  | [] => ([], f)
  | call :: calls =>
    let (accepted, f) := f.addReceivedPacket call.1 call.2
    let (results, f) := f.addAll calls
    (accepted :: results, f)

/-! ## Writing -/

/-- `PacketSize()`: rounded up to whole words. -/
def packetSize (f : TransportFeedback) : Nat := (f.sizeBytes + 3) / 4 * 4

/-- `PaddingSize()`. -/
def paddingSize (f : TransportFeedback) : Nat := f.packetSize - f.sizeBytes

/-- A receive delta, in one byte or two. -/
def deltaBytes (delta : Int) : List UInt8 :=
  if 0 ≤ delta ∧ delta ≤ 0xff then [UInt8.ofNat delta.toNat] else writeSigned 2 delta

/-- What `PackInto` writes after the common header and before the padding. -/
def payloadBytes (f : TransportFeedback) : List UInt8 :=
  writeBigEndian 4 f.senderSsrc.toNat ++ (writeBigEndian 4 f.mediaSsrc.toNat ++
  (writeBigEndian 2 f.baseSeqNum.toNat ++ (writeBigEndian 2 f.statusCount ++
  (writeSigned 3 f.referenceTime ++ ([f.feedbackSeq] ++
  (f.encodedChunks.flatMap (fun chunk => writeBigEndian 2 chunk.toNat) ++
  ((if f.lastChunk.empty then [] else writeBigEndian 2 f.lastChunk.encodeLast.toNat) ++
  (if f.includeTimestamps then
    f.receivedPackets.flatMap (fun p => deltaBytes (p.deltaTicks.getD 0)) else []))))))))

/-- All bytes `PackInto` writes. -/
def packetBytes (f : TransportFeedback) : List UInt8 :=
  packCommonHeader kFeedbackMessageType kPacketType (f.packetSize - kRtcpCommonHeaderSize)
      (decide (0 < f.paddingSize)) ++
    f.payloadBytes ++ padding f.paddingSize

/-- `PackInto(buffer, index, max_size, callback)`, with its loop. -/
def packInto (f : TransportFeedback) (hasCallback : Bool) (maxSize fuel : Nat) (st : PackState) :
    Packed :=
  if f.statusCount = 0 then some (false, st)
  else packUnsplit f.packetSize (fun st =>
    (true, st.write f.packetBytes)) hasCallback maxSize fuel st

theorem packInto_of_room {f : TransportFeedback} {maxSize : Nat} {st : PackState}
    (hcount : f.statusCount ≠ 0) (hroom : st.index + f.packetSize ≤ maxSize) (hasCallback : Bool)
    (fuel : Nat) :
    f.packInto hasCallback maxSize (fuel + 1) st = some (true, st.write f.packetBytes) := by
  rw [packInto, if_neg hcount, packUnsplit, PackState.flushUntilRoom, if_neg (by omega)]

/-! ## Reading -/

/-- `Clear()`. -/
def clear (f : TransportFeedback) : TransportFeedback :=
  { f with
    statusCount := 0
    lastTimestampUs := f.getBaseTimeUs
    receivedPackets := []
    allPackets := []
    encodedChunks := []
    lastChunk := f.lastChunk.clear
    sizeBytes := kTransportFeedbackHeaderSizeBytes }

/-- The loop of `Parse` over the status chunks; the bytes given are those from `index`
to `end_index`, and so are the bytes returned. -/
def readChunks (statusCount : Nat) : List UInt8 → List Nat → List U16 → LastChunk →
    Option (List Nat × List U16 × LastChunk × List UInt8)
  | bytes, deltaSizes, chunks, lastChunk =>
    if statusCount ≤ deltaSizes.length then some (deltaSizes, chunks, lastChunk, bytes)
    else
      match bytes with
      | high :: low :: rest =>
        let chunk : U16 := BitVec.ofNat 16 (readBigEndian 2 [high, low])
        let lastChunk := lastChunk.decode chunk (statusCount - deltaSizes.length)
        readChunks statusCount rest (deltaSizes ++ lastChunk.statuses) (chunks ++ [chunk]) lastChunk
      | _ => none

/-- The loop of `Parse` over the delta sizes when the deltas are in the packet. -/
def readDeltas : List Nat → TransportFeedback → U16 → List UInt8 →
    Option (TransportFeedback × List UInt8)
  | [], f, _, bytes => some (f, bytes)
  | 0 :: deltaSizes, f, seqNo, bytes => readDeltas deltaSizes (f.noteLost seqNo) (seqNo + 1) bytes
  | 1 :: deltaSizes, f, seqNo, byte :: bytes =>
    readDeltas deltaSizes (f.noteReceived seqNo byte.toNat) (seqNo + 1) bytes
  | 2 :: deltaSizes, f, seqNo, high :: low :: bytes =>
    readDeltas deltaSizes (f.noteReceived seqNo (readSigned 2 [high, low])) (seqNo + 1) bytes
  -- too few bytes, or the reserved symbol 3
  | _, _, _, _ => none

/-- The same loop when they are not: a status other than zero is a packet received. -/
def assumeDeltas : List Nat → TransportFeedback → U16 → TransportFeedback
  | [], f, _ => f
  | deltaSize :: deltaSizes, f, seqNo =>
    assumeDeltas deltaSizes (if 0 < deltaSize then f.noteReceived seqNo 0 else f.noteLost seqNo)
      (seqNo + 1)

/-- `Parse(packet)`; `none` is `false`. -/
def parse (f : TransportFeedback) (packet : CommonHeader) : Option TransportFeedback :=
  let payload := packet.payload
  if payload.length < kMinPayloadSizeBytes then none
  else
    let statusCount := readBigEndian 2 (payload.drop 10)
    let f := clear { f with
      senderSsrc := BitVec.ofNat 32 (readBigEndian 4 payload)
      mediaSsrc := BitVec.ofNat 32 (readBigEndian 4 (payload.drop 4))
      baseSeqNum := BitVec.ofNat 16 (readBigEndian 2 (payload.drop 8))
      referenceTime := readSigned 3 (payload.drop 12)
      feedbackSeq := payload.getD 15 0 }
    if statusCount = 0 then none
    else
      match readChunks statusCount (payload.drop 16) [] [] f.lastChunk with
      | none => none
      | some (deltaSizes, chunks, lastChunk, bytes) =>
        let f := { f with
          encodedChunks := chunks.dropLast, lastChunk := lastChunk, statusCount := statusCount }
        let parsed :=
          if deltaSizes.sum ≤ bytes.length then readDeltas deltaSizes f f.baseSeqNum bytes
          else some (assumeDeltas deltaSizes { f with includeTimestamps := false } f.baseSeqNum,
            bytes)
        parsed.map fun (f, bytes) =>
          { f with sizeBytes := kRtcpCommonHeaderSize + (payload.length - bytes.length) }

/-- `ParseFrom(buffer, size)`; `none` is a null pointer. -/
def parseFrom (buffer : List UInt8) : Option TransportFeedback :=
  match CommonHeader.parse buffer with
  | none => none
  | some header =>
    if header.packetType ≠ UInt8.ofNat kPacketType ∨
        header.countOrFmt ≠ UInt8.ofNat kFeedbackMessageType then none
    else (create true true).parse header

end TransportFeedback

end NaiveRtc.Rtcp
