import NaiveRtc.Media.Video
import NaiveRtc.Rtp.H264Packetizer

/-!
# The H.264 depacketizer

The model of `rtc/rtp_rtcp/rtp/depacketizer/rtp_depacketizer_h264.cpp`, and how the NAL units
of a frame are put together from its packets.

* `ParameterSetParser` — the parsers of parameter sets, whose answers only go into the header
  information.
* `parseNaluIndicesPerStapAPacket`, `depacketizeStapAOrSingleNalu`, `depacketizeFuANalu`,
  `depacketize`.
* `reassemble` — NAL units from packets: a STAP-A packet is split by its length fields, the
  fragments of a FU-A packet are appended to the NAL unit that the first one starts.
-/

namespace NaiveRtc.Rtp

open ByteIo H264

/-- `h264::PacketizationType`. -/
inductive PacketizationType
  | single
  | stapA
  | fuA
  deriving DecidableEq

/-- `RtpDepacketizer::Packet`, with the H.264 codec header. -/
structure DepacketizedPacket where
  videoHeader : RtpVideoHeader
  packetizationType : PacketizationType
  packetNaluType : UInt8
  codecHeader : PacketizationInfo
  videoPayload : Bytes
  deriving DecidableEq

/-- `SpsParser::ParseSps` (width, height and id), `PpsParser::ParsePpsIds` and
`PpsParser::ParsePpsIdFromSlice`. -/
structure ParameterSetParser where
  parseSps : Bytes → Option (U16 × U16 × Int)
  parsePpsIds : Bytes → Option (Int × Int)
  parsePpsIdFromSlice : Bytes → Option Int

/-- `h264::NaluIndex`, less the offset of the start sequence. -/
structure NaluIndex where
  payloadStartOffset : Nat
  payloadSize : Nat
  deriving DecidableEq

namespace RtpH264Depacketizer

open RtpH264Packetizer (kFBit kNriMask kTypeMask kSBit kStapA kFuA kFuAHeaderSize kLengthFieldSize)

/-- The header of a NAL unit. -/
def kNalHeaderSize : Nat := 1

/-- The headers in front of the first unit of a STAP-A. -/
def kStapAHeaderSize : Nat := kNalHeaderSize + kLengthFieldSize

/-- The types of NAL units that are looked into: a slice, -/
def kSlice : UInt8 := 1

/-- a slice of an IDR picture, -/
def kIdr : UInt8 := 5

/-- a sequence parameter set -/
def kSps : UInt8 := 7

/-- and a picture parameter set. -/
def kPps : UInt8 := 8

/-- The loop of `ParseNaluIndicesPerStapAPacket`, at an offset, for at most `fuel` rounds. -/
def parseNaluIndices (buffer : Bytes) : Nat → Nat → Option (List NaluIndex)
  | 0, offset => if offset < buffer.length then none else some []
  | fuel + 1, offset =>
    if offset < buffer.length then
      if buffer.length < offset + kLengthFieldSize then none
      else
        let naluPayloadSize := readBigEndian kLengthFieldSize (buffer.drop offset)
        let start := offset + kLengthFieldSize
        if buffer.length < start + naluPayloadSize then none
        else (parseNaluIndices buffer fuel (start + naluPayloadSize)).map
          (⟨start, naluPayloadSize⟩ :: ·)
    else some []

/-- `ParseNaluIndicesPerStapAPacket(nalu_buffer, buffer_size)`. -/
def parseNaluIndicesPerStapAPacket (buffer : Bytes) : Option (List NaluIndex) :=
  parseNaluIndices buffer buffer.length kNalHeaderSize

/-- `nalu_parser`, with the packet it fills.  The parser of a slice is given the size of the
whole payload, and reads what follows the NAL unit. -/
def parseNalu (parser : ParameterSetParser) (packet : DepacketizedPacket)
    (naluStartOffset naluSize : Nat) :
    Option DepacketizedPacket :=
  if naluSize < kNalHeaderSize then none
  else
    let data := packet.videoPayload
    let type := data.getD naluStartOffset 0 &&& kTypeMask
    let info : NaluInfo := { type := type, offset := naluStartOffset, size := naluSize }
    let naluPayload := (data.drop (naluStartOffset + kNalHeaderSize)).take
      (naluSize - kNalHeaderSize)
    let slice := parser.parsePpsIdFromSlice (data.drop (naluStartOffset + kNalHeaderSize))
    let header := packet.codecHeader
    let filled : Option (NaluInfo × PacketizationInfo × RtpVideoHeader) :=
      if type = kSps then
        let video := { packet.videoHeader with frameType := .key }
        let header := { header with hasSps := true }
        match parser.parseSps naluPayload with
        | some (width, height, id) =>
          some ({ info with spsId := id }, header,
            { video with frameWidth := width, frameHeight := height })
        | none => some (info, header, video)
      else if type = kPps then
        let header := { header with hasPps := true }
        match parser.parsePpsIds naluPayload with
        | some (ppsId, spsId) =>
          some ({ info with ppsId := ppsId, spsId := spsId }, header, packet.videoHeader)
        | none => some (info, header, packet.videoHeader)
      else if type = kIdr then
        some ({ info with ppsId := slice.getD (-1) }, { header with hasIdr := true },
          { packet.videoHeader with frameType := .key })
      else if type = kSlice then
        some ({ info with ppsId := slice.getD (-1) }, header, packet.videoHeader)
      else if type = kStapA ∨ type = kFuA then none
      else some (info, header, packet.videoHeader)
    filled.map fun (info, header, video) =>
      { packet with
        videoHeader := video
        codecHeader :=
          if header.nalus.length = kMaxNaluNumPerPacket then header
          else { header with nalus := header.nalus ++ [info] } }

/-- `nalu_parser` over the NAL units of a STAP-A packet. -/
def parseNalus (parser : ParameterSetParser) (packet : DepacketizedPacket) :
    List NaluIndex → Option DepacketizedPacket
  | [] => some packet
  | index :: indices =>
    match parseNalu parser packet index.payloadStartOffset index.payloadSize with
    | none => none
    | some packet => parseNalus parser packet indices

/-- `DepacketizeStapAOrSingleNalu(rtp_payload)`. -/
def depacketizeStapAOrSingleNalu (parser : ParameterSetParser) (rtpPayload : Bytes) :
    Option DepacketizedPacket :=
  let video : RtpVideoHeader :=
    { codecType := .h264, frameType := .delta, isFirstPacketInFrame := true }
  let nalType := rtpPayload.headD 0 &&& kTypeMask
  if nalType = kStapA then
    if rtpPayload.length ≤ kStapAHeaderSize then none
    else
      match parseNaluIndicesPerStapAPacket rtpPayload with
      | none => none
      | some indices =>
        parseNalus parser
          ⟨video, .stapA, rtpPayload.getD kStapAHeaderSize 0 &&& kTypeMask, {}, rtpPayload⟩ indices
  else parseNalu parser ⟨video, .single, nalType, {}, rtpPayload⟩ 0 rtpPayload.length

/-- `DepacketizeFuANalu(rtp_payload)`. -/
def depacketizeFuANalu (parser : ParameterSetParser) (rtpPayload : Bytes) :
    Option DepacketizedPacket :=
  if rtpPayload.length < kFuAHeaderSize then none
  else
    let fnri := rtpPayload.getD 0 0 &&& (kFBit ||| kNriMask)
    let originalNalType := rtpPayload.getD 1 0 &&& kTypeMask
    let isFirstFragment := decide (0 < rtpPayload.getD 1 0 &&& kSBit)
    let isIdr := decide (originalNalType = kIdr)
    let info : NaluInfo :=
      { type := originalNalType
        ppsId := (parser.parsePpsIdFromSlice (rtpPayload.drop (2 * kNalHeaderSize))).getD (-1) }
    some
      { videoHeader :=
          { frameType := if isIdr then .key else .delta, codecType := .h264
            isFirstPacketInFrame := isFirstFragment }
        packetizationType := .fuA
        packetNaluType := originalNalType
        codecHeader := { nalus := if isFirstFragment then [info] else [], hasIdr := isIdr }
        videoPayload :=
          if isFirstFragment then (fnri ||| originalNalType) :: rtpPayload.drop kFuAHeaderSize
          else rtpPayload.drop kFuAHeaderSize }

/-- `Depacketize(rtp_payload)`. -/
def depacketize (parser : ParameterSetParser) (rtpPayload : Bytes) : Option DepacketizedPacket :=
  if rtpPayload.length = 0 then none
  else if rtpPayload.headD 0 &&& kTypeMask = kFuA then depacketizeFuANalu parser rtpPayload
  else depacketizeStapAOrSingleNalu parser rtpPayload

/-! ## Reassembly -/

/-- The NAL units of a STAP-A packet, by its length fields. -/
def splitStapA (payload : Bytes) : List Bytes :=
  ((parseNaluIndicesPerStapAPacket payload).getD []).map fun index =>
    (payload.drop index.payloadStartOffset).take index.payloadSize

/-- Continue the last NAL unit. -/
def appendToLast (fragment : Bytes) : List Bytes → List Bytes
  | [] => [fragment]
  | [nal] => [nal ++ fragment]
  | nal :: nals => nal :: appendToLast fragment nals

/-- The NAL units after one more packet. -/
def reassembleStep (nals : List Bytes) (packet : DepacketizedPacket) : List Bytes :=
  match packet.packetizationType with
  | .single => nals ++ [packet.videoPayload]
  | .stapA => nals ++ splitStapA packet.videoPayload
  | .fuA =>
    if packet.videoHeader.isFirstPacketInFrame then nals ++ [packet.videoPayload]
    else appendToLast packet.videoPayload nals

/-- The NAL units of the payloads; `none` if the depacketizer rejects one. -/
def reassemble (parser : ParameterSetParser) (nals : List Bytes) : List Bytes → Option (List Bytes)
  | [] => some nals
  | payload :: payloads =>
    match depacketize parser payload with
    | none => none
    | some packet => reassemble parser (reassembleStep nals packet) payloads

end RtpH264Depacketizer

end NaiveRtc.Rtp
