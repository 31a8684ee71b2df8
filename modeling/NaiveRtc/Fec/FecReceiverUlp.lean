import NaiveRtc.Rtp.RtpPacketReuse

/-!
# The ULPFEC receiver

The model of `rtc/rtp_rtcp/rtp/fec/ulp/fec_receiver_ulp.{hpp,cpp}`, and what it makes of a media
packet that was wrapped in RED.

* `UlpFecReceiver` — with `onRedPacket` and `onRecoveredPacket`; `Handed` — the calls it makes.
* `inRed` — a packet in RED: another payload type, and a byte with the former one before the
  payload.
* `seesOriginal_iff` — **exactly when the original is what comes out**: what is copied behind the
  RED header is the payload, and the padding is not part of it.
-/

namespace NaiveRtc.Fec

open Rtp Rtp.RtpPacket ByteIo Overwrite

/-- A RED header without further blocks. -/
def kRedHeaderSize : Nat := 1

/-- `UlpFecReceiver::PacketCounter`. -/
structure PacketCounter where
  numReceivedPackets : Nat := 0
  numReceivedBytes : Nat := 0
  numReceivedFecPackets : Nat := 0
  numRecoveredPackets : Nat := 0
  firstPacketArrivalTimeMs : Int := -1
  deriving DecidableEq

/-- A call of `RecoveredPacketReceiver::OnRecoveredPacket` or of `FecDecoder::Decode`. -/
inductive Handed
  | recovered (pkt : List UInt8)
  | decoded (ssrc : U32) (seqNum : U16) (isFec : Bool) (pkt : List UInt8)
  deriving DecidableEq

/-- `UlpFecReceiver`, next to its decoder. -/
structure UlpFecReceiver where
  ssrc : U32
  /-- `recovered_packet_receiver_` is not null. -/
  hasReceiver : Bool := true
  packetCounter : PacketCounter := {}
  deriving DecidableEq

namespace UlpFecReceiver

/-- The call of the receiver, where there is one. -/
def handToReceiver (r : UlpFecReceiver) (pkt : List UInt8) : List Handed :=
  if r.hasReceiver then [.recovered pkt] else []

/-- The counters of `OnRedPacket`. -/
def count (r : UlpFecReceiver) (nowMs : Int) (packet : RtpPacket) (isFec : Bool) :
    UlpFecReceiver :=
  let c := r.packetCounter
  { r with packetCounter := { c with
    numReceivedPackets := c.numReceivedPackets + 1
    numReceivedBytes := c.numReceivedBytes + packet.size
    firstPacketArrivalTimeMs :=
      if c.firstPacketArrivalTimeMs = -1 then nowMs else c.firstPacketArrivalTimeMs
    numReceivedFecPackets := c.numReceivedFecPackets + if isFec then 1 else 0 } }

/-- `encapsulated_packet` of an FEC packet: what is behind the RED header. -/
def fecPacket (packet : RtpPacket) : List UInt8 := packet.payload.drop kRedHeaderSize

/-- `encapsulated_packet` of a media packet: the header with its payload type, and what is behind
the RED header. -/
def mediaPacket (packet : RtpPacket) (payloadType : UInt8) : List UInt8 :=
  let header := readFrom packet.bytes 0 packet.headerSize
  overwrite header 1 [(header.getD 1 0 &&& 0x80) ||| payloadType] ++
    packet.payload.drop kRedHeaderSize

/-- `OnRedPacket(rtp_packet, ulpfec_payload_type)`: the receiver, the calls it makes, and what is
returned. -/
def onRedPacket (r : UlpFecReceiver) (nowMs : Int) (packet : RtpPacket) (isRecovered : Bool)
    (ulpfecPayloadType : UInt8) : UlpFecReceiver × List Handed × Bool :=
  if packet.ssrc ≠ r.ssrc then (r, [], false)
  else if kIpPacketSize < packet.size then (r, [], false)
  else if packet.payloadSize = 0 then (r, [], false)
  else
    let redHeader := packet.payload.getD 0 0
    let isLastRedBlock := decide (redHeader &&& 0x80 = 0)
    let encapsulatedPayloadType := redHeader &&& 0x7F
    let isFec := decide (encapsulatedPayloadType = ulpfecPayloadType)
    if !isLastRedBlock then (r, [], false)
    else
      let r := r.count nowMs packet isFec
      let encapsulatedPacket :=
        if isFec then fecPacket packet else mediaPacket packet encapsulatedPayloadType
      let recovered := if isFec then [] else r.handToReceiver encapsulatedPacket
      let decoded :=
        if isRecovered then []
        else [.decoded packet.ssrc packet.sequenceNum isFec encapsulatedPacket]
      (r, recovered ++ decoded, true)

/-- `OnRecoveredPacket(recovered_packet)`, the callback of the decoder. -/
def onRecoveredPacket (r : UlpFecReceiver) (pkt : List UInt8) : UlpFecReceiver × List Handed :=
  let c := r.packetCounter
  ({ r with packetCounter := { c with numRecoveredPackets := c.numRecoveredPackets + 1 } },
    r.handToReceiver pkt)

/-- The calls of `OnRedPacket`. -/
def handed (r : UlpFecReceiver) (nowMs : Int) (packet : RtpPacket) (isRecovered : Bool)
    (ulpfecPayloadType : UInt8) : List Handed :=
  (r.onRedPacket nowMs packet isRecovered ulpfecPayloadType).2.1

/-! ## What is handed on -/

variable {r : UlpFecReceiver} {nowMs : Int} {packet : RtpPacket} {isRecovered : Bool}
  {ulpfecPayloadType : UInt8}

theorem length_mediaPacket (packet : RtpPacket) (payloadType : UInt8) :
    (mediaPacket packet payloadType).length = packet.headerSize + (packet.payloadSize - 1) := by
  unfold mediaPacket payload kRedHeaderSize
  rw [List.length_append, length_overwrite, length_readFrom, List.length_drop, length_readFrom]

/-- A RED packet that is not dropped, by its first byte. -/
structure Accepted (r : UlpFecReceiver) (packet : RtpPacket) : Prop where
  ssrc : packet.ssrc = r.ssrc
  size : packet.size ≤ kIpPacketSize
  payload : packet.payloadSize ≠ 0
  lastBlock : packet.payload.getD 0 0 &&& 0x80 = 0

theorem handed_of_not_accepted (h : ¬ r.Accepted packet) :
    r.handed nowMs packet isRecovered ulpfecPayloadType = [] := by
  unfold handed onRedPacket
  by_cases hssrc : packet.ssrc = r.ssrc
  · rw [if_neg (not_not.2 hssrc)]
    by_cases hsize : packet.size ≤ kIpPacketSize
    · rw [if_neg (not_lt.2 hsize)]
      by_cases hpayload : packet.payloadSize = 0
      · rw [if_pos hpayload]
      · rw [if_neg hpayload]
        have hlast : ¬ (packet.payload.getD 0 0 &&& 0x80 = 0) := fun hlast =>
          h ⟨hssrc, hsize, hpayload, hlast⟩
        rw [if_pos (by rw [decide_eq_false hlast]; rfl)]
    · rw [if_pos (not_le.1 hsize)]
  · rw [if_pos hssrc]

theorem handed_of_accepted (h : r.Accepted packet) :
    r.handed nowMs packet isRecovered ulpfecPayloadType =
      if packet.payload.getD 0 0 &&& 0x7F = ulpfecPayloadType then
        if isRecovered then []
        else [.decoded packet.ssrc packet.sequenceNum true (fecPacket packet)]
      else
        r.handToReceiver (mediaPacket packet (packet.payload.getD 0 0 &&& 0x7F)) ++
          if isRecovered then []
          else [.decoded packet.ssrc packet.sequenceNum false
            (mediaPacket packet (packet.payload.getD 0 0 &&& 0x7F))] := by
  unfold handed onRedPacket
  rw [if_neg (not_not.2 h.ssrc), if_neg (not_lt.2 h.size), if_neg h.payload]
  dsimp only
  rw [if_neg (by rw [decide_eq_true h.lastBlock]; decide)]
  by_cases hfec : packet.payload.getD 0 0 &&& 0x7F = ulpfecPayloadType
  · simp only [hfec, decide_true, if_true, List.nil_append]
  · simp only [hfec, decide_false, Bool.false_eq_true, if_false]
    rfl

theorem decoded_notMem_handToReceiver {ssrc : U32} {seqNum : U16} {isFec : Bool}
    {pkt data : List UInt8} : Handed.decoded ssrc seqNum isFec pkt ∉ r.handToReceiver data := by
  unfold handToReceiver
  split <;> simp

theorem decoded_mem_handed {ssrc : U32} {seqNum : U16} {isFec : Bool} {pkt : List UInt8}
    (h : Handed.decoded ssrc seqNum isFec pkt ∈
      r.handed nowMs packet isRecovered ulpfecPayloadType) :
    r.Accepted packet ∧ isRecovered = false ∧
      isFec = decide (packet.payload.getD 0 0 &&& 0x7F = ulpfecPayloadType) ∧
      (isFec = false → pkt = mediaPacket packet (packet.payload.getD 0 0 &&& 0x7F)) := by
  by_cases haccepted : r.Accepted packet
  · refine ⟨haccepted, ?_⟩
    rw [handed_of_accepted haccepted] at h
    by_cases hfec : packet.payload.getD 0 0 &&& 0x7F = ulpfecPayloadType
    · rw [if_pos hfec] at h
      cases isRecovered with
      | true => cases h
      | false =>
        cases List.mem_singleton.1 h
        exact ⟨rfl, (decide_eq_true hfec).symm, fun hfalse => by cases hfalse⟩
    · rw [if_neg hfec, List.mem_append] at h
      have hdecoded := h.resolve_left decoded_notMem_handToReceiver
      cases isRecovered with
      | true => cases hdecoded
      | false =>
        cases List.mem_singleton.1 hdecoded
        exact ⟨rfl, (decide_eq_false hfec).symm, fun _ => rfl⟩
  · rw [handed_of_not_accepted haccepted] at h
    cases h

end UlpFecReceiver

/-! ## Packets in RED -/

/-- A payload type in the second byte of a header. -/
def withPayloadType (byte payloadType : UInt8) : UInt8 :=
  (byte &&& 0x80) ||| (payloadType &&& 0x7F)

/-- **A packet in RED**: the header with the payload type `redPayloadType`, a byte with the payload
type of the packet, and the rest, padding included. -/
def inRed (redPayloadType : UInt8) (media : List UInt8) : List UInt8 :=
  overwrite (media.take (payloadStart media)) 1
      [withPayloadType (media.getD 1 0) redPayloadType] ++
    (media.getD 1 0 &&& 0x7F) :: media.drop (payloadStart media)

section Wrapped

variable {media : List UInt8} (redPayloadType : UInt8)

theorem withPayloadType_and (b payloadType : UInt8) :
    withPayloadType b payloadType &&& 0x80 = b &&& 0x80 := by
  have hdistrib : withPayloadType b payloadType &&& 0x80 =
      (b &&& 0x80 &&& 0x80) ||| (payloadType &&& 0x7F &&& 0x80) :=
    UInt8.toBitVec_inj.1 BitVec.and_or_distrib_right
  rw [hdistrib, UInt8.and_assoc, UInt8.and_assoc, show (0x80 : UInt8) &&& 0x80 = 0x80 from rfl,
    show (0x7F : UInt8) &&& 0x80 = 0 from rfl, UInt8.and_zero, UInt8.or_zero]

theorem withPayloadType_restore (b payloadType : UInt8) :
    (withPayloadType b payloadType &&& 0x80) ||| (b &&& 0x7F) = b := by
  rw [withPayloadType_and]
  exact forall_byte (P := fun b => (b &&& 0x80) ||| (b &&& 0x7F) = b) (by decide +kernel) b

theorem payloadType_and (b : UInt8) : (b &&& 0x7F) &&& 0x7F = b &&& 0x7F := by
  rw [UInt8.and_assoc, UInt8.and_self]

theorem getD_take {n i : Nat} (h : i < n) : (media.take n).getD i 0 = media.getD i 0 := by
  rw [List.getD_eq_getElem?_getD, List.getElem?_take_of_lt h, ← List.getD_eq_getElem?_getD]

theorem kFixedHeaderSize_le_payloadStart (media : List UInt8) :
    kFixedHeaderSize ≤ payloadStart media := by
  unfold payloadStart csrcsEnd
  split <;> omega

theorem length_inRed (media : List UInt8) :
    (inRed redPayloadType media).length = media.length + 1 := by
  unfold inRed
  rw [List.length_append, length_overwrite, List.length_take, List.length_cons, List.length_drop]
  omega

section

variable (h : payloadStart media ≤ media.length)
include h

theorem length_inRed_header :
    (overwrite (media.take (payloadStart media)) 1
      [withPayloadType (media.getD 1 0) redPayloadType]).length = payloadStart media := by
  rw [length_overwrite, List.length_take, min_eq_left h]

theorem getD_inRed {i : Nat} (hi : i < payloadStart media) :
    (inRed redPayloadType media).getD i 0 =
      if i = 1 then withPayloadType (media.getD 1 0) redPayloadType else media.getD i 0 := by
  have hheader := kFixedHeaderSize_le_payloadStart media
  have htake : (media.take (payloadStart media)).length = payloadStart media := by
    rw [List.length_take, min_eq_left h]
  unfold inRed
  rw [List.getD_append _ _ _ _ (by rw [length_inRed_header redPayloadType h]; exact hi),
    getD_overwrite, htake]
  by_cases hone : i = 1
  · subst hone
    rw [if_pos rfl, if_pos ⟨le_refl 1, by simp, hi⟩]
    rfl
  · rw [if_neg hone, if_neg (by rw [List.length_singleton]; omega), getD_take hi]

theorem readBigEndian_inRed {B offset : Nat}
    (hoffset : 2 ≤ offset) (hend : offset + B ≤ payloadStart media) :
    readBigEndian B ((inRed redPayloadType media).drop offset) =
      readBigEndian B (media.drop offset) := by
  refine readBigEndian_drop_congr fun i hi => ?_
  rw [getD_inRed redPayloadType h (by omega), if_neg (by omega)]

theorem getD_zero_inRed :
    (inRed redPayloadType media).getD 0 0 = media.getD 0 0 := by
  have hheader := kFixedHeaderSize_le_payloadStart media
  unfold kFixedHeaderSize at hheader
  rw [getD_inRed redPayloadType h (by omega), if_neg (by omega)]

theorem csrcsEnd_inRed :
    csrcsEnd (inRed redPayloadType media) = csrcsEnd media := by
  unfold csrcsEnd
  rw [getD_zero_inRed redPayloadType h]

theorem extensionBit_inRed :
    extensionBit (inRed redPayloadType media) = extensionBit media := by
  unfold extensionBit
  rw [getD_zero_inRed redPayloadType h]

theorem paddingBit_inRed :
    paddingBit (inRed redPayloadType media) = paddingBit media := by
  unfold paddingBit
  rw [getD_zero_inRed redPayloadType h]

theorem capacityIn_inRed (hbit : extensionBit media = true) :
    capacityIn (inRed redPayloadType media) = capacityIn media := by
  have hstart : payloadStart media = csrcsEnd media + 4 + capacityIn media := if_pos hbit
  have hcsrcs : kFixedHeaderSize ≤ csrcsEnd media := Nat.le_add_right _ _
  unfold kFixedHeaderSize at hcsrcs
  unfold capacityIn
  rw [csrcsEnd_inRed redPayloadType h,
    readBigEndian_inRed redPayloadType h (by omega) (by omega)]

theorem payloadStart_inRed :
    payloadStart (inRed redPayloadType media) = payloadStart media := by
  unfold payloadStart
  rw [extensionBit_inRed redPayloadType h, csrcsEnd_inRed redPayloadType h]
  by_cases hbit : extensionBit media = true
  · rw [if_pos hbit, if_pos hbit, capacityIn_inRed redPayloadType h hbit]
  · rw [if_neg hbit, if_neg hbit]

end

theorem headerRead_inRed (h : headerRead media) (hfit : extensionsFit media) :
    headerRead (inRed redPayloadType media) := by
  have hstart := payloadStart_le h hfit
  obtain ⟨hlen, hversion, hcsrcs⟩ := h
  refine ⟨?_, ?_, ?_⟩
  · rw [length_inRed]
    omega
  · rw [getD_zero_inRed redPayloadType hstart, hversion]
  · rw [csrcsEnd_inRed redPayloadType hstart, length_inRed]
    omega

theorem extensionsFit_inRed (h : headerRead media) (hfit : extensionsFit media) :
    extensionsFit (inRed redPayloadType media) := by
  have hstart := payloadStart_le h hfit
  intro hbit
  rw [extensionBit_inRed redPayloadType hstart] at hbit
  obtain ⟨hroom, hend⟩ := hfit hbit
  rw [csrcsEnd_inRed redPayloadType hstart, capacityIn_inRed redPayloadType hstart hbit,
    length_inRed]
  omega

theorem wellFormed_inRed (h : wellFormed media) (hbit : paddingBit media = false) :
    wellFormed (inRed redPayloadType media) := by
  refine ⟨headerRead_inRed redPayloadType h.1 h.2.1, extensionsFit_inRed redPayloadType h.1 h.2.1,
    fun hwrapped => ?_⟩
  rw [paddingBit_inRed redPayloadType (payloadStart_le h.1 h.2.1), hbit] at hwrapped
  cases hwrapped

/-! ## Parsing a packet in RED -/

/-- The SSRC in the bytes. -/
def ssrcIn (buffer : List UInt8) : U32 := BitVec.ofNat 32 (readBigEndian 4 (buffer.drop 8))

/-- The sequence number in the bytes. -/
def sequenceNumIn (buffer : List UInt8) : U16 :=
  BitVec.ofNat 16 (readBigEndian 2 (buffer.drop 2))

theorem ssrcIn_inRed (h : payloadStart media ≤ media.length) :
    ssrcIn (inRed redPayloadType media) = ssrcIn media := by
  have hheader := kFixedHeaderSize_le_payloadStart media
  unfold kFixedHeaderSize at hheader
  unfold ssrcIn
  rw [readBigEndian_inRed redPayloadType h (by omega) (by omega)]

theorem sequenceNumIn_inRed (h : payloadStart media ≤ media.length) :
    sequenceNumIn (inRed redPayloadType media) = sequenceNumIn media := by
  have hheader := kFixedHeaderSize_le_payloadStart media
  unfold kFixedHeaderSize at hheader
  unfold sequenceNumIn
  rw [readBigEndian_inRed redPayloadType h (by omega) (by omega)]

/-- What the receiver reads of a packet that was parsed from bytes. -/
structure ParsedFrom (packet : RtpPacket) (buffer : List UInt8) : Prop where
  bytes : packet.bytes = buffer
  ssrc : packet.ssrc = ssrcIn buffer
  sequenceNum : packet.sequenceNum = sequenceNumIn buffer
  headerSize : packet.headerSize = payloadStart buffer
  paddingSize : packet.paddingSize = paddingIn buffer
  payloadSize :
    packet.payloadSize = buffer.length - payloadStart buffer - (paddingIn buffer).toNat

variable {input : ParseInput}

theorem parsedFrom_of_wellFormed (growTo : Nat → Nat → Nat) (p : RtpPacket)
    (hlarge : ¬ input.tooLarge) (h : wellFormed input.bytes) :
    (p.parseFrom growTo input).2 = true ∧
      ParsedFrom (p.parseFrom growTo input).1 input.bytes := by
  obtain ⟨c, hparse⟩ := parseFrom_of_wellFormed growTo p hlarge h
  rw [hparse]
  exact ⟨rfl, rfl, rfl, rfl, rfl, rfl, rfl⟩

theorem wellFormed_of_parseFrom {growTo : Nat → Nat → Nat} {p : RtpPacket}
    (h : (p.parseFrom growTo input).2 = true) : ¬ input.tooLarge ∧ wellFormed input.bytes := by
  have hlarge : ¬ input.tooLarge := fun hlarge => by
    rw [parseFrom_of_tooLarge growTo p hlarge] at h
    cases h
  refine ⟨hlarge, by_contra fun hwell => ?_⟩
  obtain ⟨p', hreset, -⟩ := parseFrom_of_not_wellFormed growTo p hlarge hwell
  rw [hreset] at h
  cases h

theorem payload_of_inRed {packet : RtpPacket} (hstart : payloadStart media ≤ media.length)
    (hparsed : ParsedFrom packet (inRed redPayloadType media)) (hpayload : packet.payloadSize ≠ 0) :
    packet.payload.getD 0 0 = media.getD 1 0 &&& 0x7F := by
  have hget : packet.payload.getD 0 0 = packet.bytes.getD (packet.payloadOffset + 0) 0 :=
    getD_readFrom (Nat.pos_of_ne_zero hpayload)
  have hoffset : packet.payloadOffset = payloadStart media := by
    rw [← payloadStart_inRed redPayloadType hstart]
    exact hparsed.headerSize
  rw [hget, hparsed.bytes, Nat.add_zero, hoffset]
  unfold inRed
  rw [List.getD_append_right _ _ _ _ (by rw [length_inRed_header redPayloadType hstart]),
    length_inRed_header redPayloadType hstart, Nat.sub_self, List.getD_cons_zero]

theorem mediaPacket_of_inRed {packet : RtpPacket} (hstart : payloadStart media ≤ media.length)
    (hparsed : ParsedFrom packet (inRed redPayloadType media)) (hpadding : packet.paddingSize = 0) :
    UlpFecReceiver.mediaPacket packet (media.getD 1 0 &&& 0x7F) = media := by
  have hheader := kFixedHeaderSize_le_payloadStart media
  unfold kFixedHeaderSize at hheader
  have hlen := length_inRed_header redPayloadType hstart
  have hoffset : packet.headerSize = payloadStart media := by
    rw [← payloadStart_inRed redPayloadType hstart]
    exact hparsed.headerSize
  have hzero : paddingIn (inRed redPayloadType media) = 0 :=
    hparsed.paddingSize.symm.trans hpadding
  have hsize : packet.payloadSize = media.length - payloadStart media + 1 := by
    rw [hparsed.payloadSize, length_inRed, payloadStart_inRed redPayloadType hstart, hzero,
      show (0 : UInt8).toNat = 0 from rfl]
    omega
  have hfront : readFrom packet.bytes 0 packet.headerSize =
      overwrite (media.take (payloadStart media)) 1
        [withPayloadType (media.getD 1 0) redPayloadType] := by
    have hbytes : packet.bytes = [] ++ inRed redPayloadType media := hparsed.bytes
    exact readFrom_of_eq hbytes rfl (by rw [hoffset, hlen])
  have hpayload : packet.payload =
      (media.getD 1 0 &&& 0x7F) :: media.drop (payloadStart media) := by
    have hbytes : packet.bytes = overwrite (media.take (payloadStart media)) 1
        [withPayloadType (media.getD 1 0) redPayloadType] ++
        (((media.getD 1 0 &&& 0x7F) :: media.drop (payloadStart media)) ++ []) := by
      rw [hparsed.bytes, List.append_nil]
      rfl
    refine readFrom_of_eq hbytes (hoffset.trans hlen.symm) ?_
    rw [hsize, List.length_cons, List.length_drop]
  have hbyte : (overwrite (media.take (payloadStart media)) 1
      [withPayloadType (media.getD 1 0) redPayloadType]).getD 1 0 =
      withPayloadType (media.getD 1 0) redPayloadType := by
    rw [getD_overwrite, if_pos ⟨le_refl 1, by simp, by rw [List.length_take]; omega⟩]
    rfl
  have hsame : overwrite (media.take (payloadStart media)) 1 [media.getD 1 0] =
      media.take (payloadStart media) := by
    refine ext_getD 0 (length_overwrite _ _ _) fun i _ => ?_
    rw [getD_overwrite]
    split
    · next hin =>
      rw [List.length_singleton] at hin
      obtain rfl : i = 1 := by omega
      have htake : (media.take (payloadStart media)).getD 1 0 = media.getD 1 0 :=
        getD_take (by omega)
      rw [htake]
      rfl
    · rfl
  unfold UlpFecReceiver.mediaPacket
  rw [hfront, hpayload]
  dsimp only
  rw [hbyte, withPayloadType_restore, overwrite_overwrite, hsame]
  · exact List.take_append_drop _ _
  · rfl

/-! ## The original -/

/-- **The original is what comes out**: the packet that is parsed from the input is handed to the
receiver and to the decoder as `media`. -/
def SeesOriginal (growTo : Nat → Nat → Nat) (r : UlpFecReceiver) (nowMs : Int) (p : RtpPacket)
    (input : ParseInput) (isRecovered : Bool) (ulpfecPayloadType : UInt8) (media : List UInt8) :
    Prop :=
  (p.parseFrom growTo input).2 = true ∧
    r.handed nowMs (p.parseFrom growTo input).1 isRecovered ulpfecPayloadType =
      r.handToReceiver media ++ [.decoded (ssrcIn media) (sequenceNumIn media) false media]

instance (growTo : Nat → Nat → Nat) (r : UlpFecReceiver) (nowMs : Int) (p : RtpPacket)
    (input : ParseInput) (isRecovered : Bool) (ulpfecPayloadType : UInt8) (media : List UInt8) :
    Decidable (SeesOriginal growTo r nowMs p input isRecovered ulpfecPayloadType media) :=
  inferInstanceAs (Decidable (_ ∧ _))

/-- **The original comes out exactly when** it is of the stream of the receiver, is no FEC packet
and fits with the RED header, was not recovered, and has no padding bit. -/
theorem seesOriginal_iff (growTo : Nat → Nat → Nat) (r : UlpFecReceiver) (nowMs : Int)
    (p : RtpPacket) {input : ParseInput} (isRecovered : Bool) (ulpfecPayloadType : UInt8)
    (hmedia : wellFormed media) (hinput : input.bytes = inRed redPayloadType media) :
    SeesOriginal growTo r nowMs p input isRecovered ulpfecPayloadType media ↔
      ssrcIn media = r.ssrc ∧ media.getD 1 0 &&& 0x7F ≠ ulpfecPayloadType ∧
        media.length < kIpPacketSize ∧ isRecovered = false ∧ paddingBit media = false := by
  have hstart := payloadStart_le hmedia.1 hmedia.2.1
  constructor
  · rintro ⟨hparse, hhanded⟩
    obtain ⟨hlarge, hwell⟩ := wellFormed_of_parseFrom hparse
    have hparsed := (parsedFrom_of_wellFormed growTo p hlarge hwell).2
    generalize (p.parseFrom growTo input).1 = packet at hhanded hparsed
    have hmem : Handed.decoded (ssrcIn media) (sequenceNumIn media) false media ∈
        r.handed nowMs packet isRecovered ulpfecPayloadType := by
      rw [hhanded]
      exact List.mem_append_right _ (List.mem_singleton_self _)
    obtain ⟨haccepted, hrecovered, hfec, hpkt⟩ := UlpFecReceiver.decoded_mem_handed hmem
    rw [hinput] at hparsed hwell
    have hred := payload_of_inRed redPayloadType hstart hparsed haccepted.payload
    -- what is handed on is shorter than the packet by the padding
    have hlen := congrArg List.length (hpkt rfl)
    have hsize := hparsed.payloadSize
    have hheader := hparsed.headerSize
    have hpayload := haccepted.payload
    have hfits := haccepted.size
    have hpadding := congrArg UInt8.toNat hparsed.paddingSize
    rw [UlpFecReceiver.length_mediaPacket] at hlen
    rw [length_inRed, payloadStart_inRed redPayloadType hstart] at hsize
    rw [payloadStart_inRed redPayloadType hstart] at hheader
    unfold RtpPacket.size at hfits
    unfold headerSize at hheader hlen
    refine ⟨?_, ?_, by omega, hrecovered, ?_⟩
    · rw [← haccepted.ssrc, hparsed.ssrc, ssrcIn_inRed redPayloadType hstart]
    · rw [← payloadType_and, ← hred]
      exact of_decide_eq_false hfec.symm
    · by_contra hbit
      have hbit : paddingBit media = true := by
        cases h : paddingBit media with
        | true => rfl
        | false => exact absurd h hbit
      have hne := (hwell.2.2 (by rw [paddingBit_inRed redPayloadType hstart, hbit])
        (by rw [payloadStart_inRed redPayloadType hstart, length_inRed]; omega)).1
      have hpos : (paddingIn (inRed redPayloadType media)).toNat ≠ 0 := fun hzero =>
        hne (UInt8.toNat_inj.1 hzero)
      omega
  · rintro ⟨hssrc, htype, hlen, rfl, hbit⟩
    have hwell := wellFormed_inRed redPayloadType hmedia hbit
    have hlarge : ¬ input.tooLarge := by
      cases input with
      | array bytes =>
        intro hlarge
        have hlarge : kIpPacketSize < bytes.length := hlarge
        have hbytes : bytes = inRed redPayloadType media := hinput
        rw [hbytes, length_inRed] at hlarge
        omega
      | shared buffer => exact id
    rw [← hinput] at hwell
    obtain ⟨hparse, hparsed⟩ := parsedFrom_of_wellFormed growTo p hlarge hwell
    refine ⟨hparse, ?_⟩
    generalize (p.parseFrom growTo input).1 = packet at hparsed
    rw [hinput] at hparsed
    have hzero : paddingIn (inRed redPayloadType media) = 0 := by
      refine if_neg fun h => ?_
      rw [paddingBit_inRed redPayloadType hstart, hbit] at h
      cases h.1
    have hsize := hparsed.payloadSize
    rw [length_inRed, payloadStart_inRed redPayloadType hstart, hzero,
      show (0 : UInt8).toNat = 0 from rfl] at hsize
    have hheader := hparsed.headerSize
    rw [payloadStart_inRed redPayloadType hstart] at hheader
    have hpadding : packet.paddingSize = 0 := hparsed.paddingSize.trans hzero
    have hred := payload_of_inRed redPayloadType hstart hparsed (by omega)
    have haccepted : r.Accepted packet := by
      refine ⟨?_, ?_, by omega, ?_⟩
      · rw [hparsed.ssrc, ssrcIn_inRed redPayloadType hstart, hssrc]
      · unfold headerSize at hheader
        unfold RtpPacket.size
        rw [hpadding, show (0 : UInt8).toNat = 0 from rfl]
        omega
      · rw [hred, UInt8.and_assoc]
        exact UInt8.and_zero
    rw [UlpFecReceiver.handed_of_accepted haccepted, hred, payloadType_and, if_neg htype,
      if_neg Bool.false_ne_true, mediaPacket_of_inRed redPayloadType hstart hparsed hpadding,
      hparsed.ssrc, hparsed.sequenceNum, ssrcIn_inRed redPayloadType hstart,
      sequenceNumIn_inRed redPayloadType hstart]

end Wrapped

/-! ## With padding and without -/

/-- A packet with a byte of payload and one of padding. -/
def paddedMedia : List UInt8 := [0xA0, 96, 0, 1, 0, 0, 0, 1, 0, 0, 0, 1, 7, 1]

/-- The same without the padding. -/
def unpaddedMedia : List UInt8 := [0x80, 96, 0, 1, 0, 0, 0, 1, 0, 0, 0, 1, 7]

/-- **The padding is lost**, and the padding bit is not. -/
theorem padding_lost :
    UlpFecReceiver.handed { ssrc := 1 } 0
        ((fresh (fun _ size => size) {} false).parseFrom (fun _ size => size)
          (.array (inRed 127 paddedMedia))).1 false 125 =
      [.recovered (paddedMedia.take 13), .decoded 1 1 false (paddedMedia.take 13)] ∧
    ¬ SeesOriginal (fun _ size => size) { ssrc := 1 } 0 (fresh (fun _ size => size) {} false)
      (.array (inRed 127 paddedMedia)) false 125 paddedMedia := by
  decide

/-- The packet without padding comes out. -/
theorem seesOriginal_unpadded :
    SeesOriginal (fun _ size => size) { ssrc := 1 } 0 (fresh (fun _ size => size) {} false)
      (.array (inRed 127 unpaddedMedia)) false 125 unpaddedMedia :=
  (seesOriginal_iff 127 (fun _ size => size) { ssrc := 1 } 0 (fresh (fun _ size => size) {} false)
    false 125 (by decide) rfl).2 (by decide)

end NaiveRtc.Fec
