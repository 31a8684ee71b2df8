import NaiveRtc.Fec.FecEncoder
import NaiveRtc.Lib.Ordered

/-!
# The FEC decoder

`rtc/rtp_rtcp/rtp/fec/fec_decoder.{hpp,cpp}` with the header reader of ULPFEC.

* `recoverPacket` — the packet that is missing, from the others.
* `scan`, `tryToRecover` — the loop of `TryToRecover`: up to the FEC packet that lacks one packet,
  and again from the first one.
* `FecDecoder.decode`, `fecDecoderMachine` — a packet that comes in; `Recovery` — a call of the
  callback, next to the store before the packet was put there and at the call.

The maps are lists in their order, which is one on numbers within half of the circle only.  Packets
are not shorter than an RTP header.
-/

namespace NaiveRtc.Fec

open ByteIo CopyOnWrite Overwrite WrapAround Ordered

/-- An FEC packet further than this from a media packet is dropped. -/
def kOldSequenceThreshold : Nat := 0x3fff

/-- The payload of the largest packet. -/
def kMaxRtpPayloadSize : Nat := kIpPacketSize - kRtpHeaderSize

/-- So many FEC packets are kept. -/
def kMaxFecPackets : Nat := kUlpFecMaxMediaPackets

/-- So many media packets are kept. -/
def kMaxTrackedMediaPackets : Nat := 4 * kUlpFecMaxMediaPackets

/-- Where the mask begins in an FEC packet. -/
def kPacketMaskOffset : Nat := 10 + 2

namespace FecDecoder

/-- `FecDecoder::MediaPacket`. -/
structure MediaPacket where
  ssrc : U32 := 0
  seqNum : U16 := 0
  pkt : List UInt8 := []
  deriving DecidableEq

/-- `FecDecoder::RecoveredMediaPacket`. -/
structure RecoveredMediaPacket extends MediaPacket where
  wasRecovered : Bool
  deriving DecidableEq

/-- `FecHeader`. -/
structure FecHeader where
  fecHeaderSize : Nat := 0
  seqNumBase : U16 := 0
  packetMaskOffset : Nat := 0
  packetMaskSize : Nat := 0
  protectionLength : Nat := 0
  deriving DecidableEq

/-- `FecDecoder::FecPacket`. -/
structure FecPacket where
  ssrc : U32
  seqNum : U16
  protectedSsrc : U32
  fecHeader : FecHeader
  pkt : List UInt8
  protectedMediaPackets : List MediaPacket
  deriving DecidableEq

/-! ## FEC packets that come in -/

/-- `UlpFecHeaderReader::ReadFecHeader(fec_header, fec_packet)`: the header, and the packet with
the length recovery field where the sequence number was. -/
def readFecHeader (pkt : List UInt8) : Option (FecHeader × List UInt8) :=
  if pkt.length < kPacketMaskOffset then none
  else
    let isLBitSet := decide (pkt.getD 0 0 &&& 0x40 ≠ 0)
    let packetMaskSize :=
      if isLBitSet then kUlpFecPacketMaskSizeLBitSet else kUlpFecPacketMaskSizeLBitClear
    some ({
      fecHeaderSize := Fec.fecHeaderSize packetMaskSize
      seqNumBase := BitVec.ofNat 16 (readBigEndian 2 (pkt.drop 2))
      packetMaskOffset := kPacketMaskOffset
      packetMaskSize := packetMaskSize
      protectionLength := readBigEndian 2 (pkt.drop 10) }, overwrite pkt 2 (readFrom pkt 8 2))

/-- The packets that the mask in an FEC packet names. -/
def protectedMediaPackets (ssrc : U32) (header : FecHeader) (pkt : List UInt8) :
    List MediaPacket :=
  (List.range header.packetMaskSize).foldl (fun packets byteIdx =>
    (List.range 8).foldl (fun packets bitIdx =>
      if protects pkt (header.packetMaskOffset + byteIdx) bitIdx then
        assignBy olderThan MediaPacket.seqNum
          { ssrc := ssrc, seqNum := header.seqNumBase + BitVec.ofNat 16 (byteIdx * 8 + bitIdx) }
          packets
      else packets) packets) []

/-- The loop of `InsertFecPacket` along the protected packets and the recovered ones. -/
def assignProtected : List MediaPacket → List RecoveredMediaPacket → List MediaPacket
  | ps, [] => ps
  | ps, r :: rs =>
    let older := ps.takeWhile fun p => aheadOf r.seqNum p.seqNum
    match ps.dropWhile fun p => aheadOf r.seqNum p.seqNum with
    | [] => older
    | p :: rest =>
      older ++
        if aheadOf p.seqNum r.seqNum then assignProtected (p :: rest) rs
        else { p with pkt := r.pkt } :: assignProtected rest rs

/-! ## Recovering a packet -/

/-- `PreparePacketForRecovery(fec_packet)`. -/
def preparePacketForRecovery (f : FecPacket) : Option (List UInt8) :=
  if f.pkt.length < f.fecHeader.fecHeaderSize + f.fecHeader.protectionLength then none
  else if min kMaxRtpPayloadSize (kIpPacketSize - f.fecHeader.fecHeaderSize) <
      f.fecHeader.protectionLength then none
  else
    some (readFrom f.pkt 0 kRtpHeaderSize ++
      readFrom f.pkt f.fecHeader.fecHeaderSize f.fecHeader.protectionLength)

/-- The loop of `RecoverPacket` over the protected packets. -/
def recoverStep (protectedSsrc : U32) (recovered : RecoveredMediaPacket) (p : MediaPacket) :
    RecoveredMediaPacket :=
  if p.pkt = [] then { recovered with seqNum := p.seqNum, ssrc := protectedSsrc }
  else
    let lengthRecovery := p.pkt.length - kRtpHeaderSize
    { recovered with
      pkt := xorPayload kRtpHeaderSize lengthRecovery p.pkt kRtpHeaderSize
        (xorHeader p.pkt lengthRecovery recovered.pkt) }

/-- `FinishPacketForRecovery(recovered_packet)`. -/
def finishPacketForRecovery (recovered : RecoveredMediaPacket) : Option RecoveredMediaPacket :=
  let data := overwrite recovered.pkt 0 [(recovered.pkt.getD 0 0 ||| 0x80) &&& 0xBF]
  let packetSize := readBigEndian 2 (data.drop 2) + kRtpHeaderSize
  if kIpPacketSize < packetSize then none
  else
    let data := overwrite (resized packetSize data) 2 (writeBigEndian 2 recovered.seqNum.toNat)
    some { recovered with pkt := overwrite data 8 (writeBigEndian 4 recovered.ssrc.toNat) }

/-- `RecoverPacket(fec_packet)`. -/
def recoverPacket (f : FecPacket) : Option RecoveredMediaPacket :=
  (preparePacketForRecovery f).bind fun pkt =>
    finishPacketForRecovery <|
      f.protectedMediaPackets.foldl (recoverStep f.protectedSsrc)
        { pkt := pkt, wasRecovered := true }

/-- `NumPacketsToRecover(fec_packet)`. -/
def numPacketsToRecover (f : FecPacket) : Nat :=
  min 2 (f.protectedMediaPackets.countP fun p => decide (p.pkt = []))

/-- `IsOldFecPacket(fec_packet)`. -/
def isOldFecPacket (store : List RecoveredMediaPacket) (f : FecPacket) : Bool :=
  match store.getLast?, f.protectedMediaPackets.getLast? with
  | some r, some p => decide (kOldSequenceThreshold < (minDiff r.seqNum p.seqNum).toNat)
  | _, _ => false

/-! ## The store -/

/-- `UpdateConveringFecPackets(recovered_packet)`. -/
def updateConveringFecPackets (packet : RecoveredMediaPacket) (fecs : List FecPacket) :
    List FecPacket :=
  fecs.map fun f =>
    { f with protectedMediaPackets := f.protectedMediaPackets.map fun p =>
        if p.seqNum = packet.seqNum then { p with pkt := packet.pkt } else p }

/-- `DiscardOldRecoveredPackets()`. -/
def discardOldRecoveredPackets (store : List RecoveredMediaPacket) : List RecoveredMediaPacket :=
  store.drop (store.length - kMaxTrackedMediaPackets)

/-- `DiscardOldReceivedFecPackets()`. -/
def discardOldReceivedFecPackets (fecs : List FecPacket) : List FecPacket :=
  fecs.drop (fecs.length - kMaxFecPackets)

/-- A call of `packet_recovered_callback_`: the packet, the store before the packet was inserted,
and the store at the call. -/
structure Recovery where
  packet : RecoveredMediaPacket
  before : List RecoveredMediaPacket
  store : List RecoveredMediaPacket
  deriving DecidableEq

/-- The loop of `TryToRecover` up to the first FEC packet that a packet is recovered with: the FEC
packets before it that stay, the packet, and the FEC packets behind it. -/
def scan (store : List RecoveredMediaPacket) :
    List FecPacket → List FecPacket × Option (RecoveredMediaPacket × List FecPacket)
  | [] => ([], none)
  | f :: fs =>
    if numPacketsToRecover f = 1 then
      match recoverPacket f with
      | none => scan store fs
      | some packet => ([], some (packet, fs))
    else if numPacketsToRecover f = 0 ∨ isOldFecPacket store f then scan store fs
    else (f :: (scan store fs).1, (scan store fs).2)

/-- The store after a packet was recovered. -/
def storeWith (packet : RecoveredMediaPacket) (store : List RecoveredMediaPacket) :
    List RecoveredMediaPacket :=
  discardOldRecoveredPackets (insertBy olderThan (fun r => r.seqNum) packet store)

/-- The entry of a packet that was recovered, which is another one when its number was stored
before. -/
def entryOf (packet : RecoveredMediaPacket) (store : List RecoveredMediaPacket) :
    RecoveredMediaPacket :=
  ((insertBy olderThan (fun r => r.seqNum) packet store).find?
    (·.seqNum = packet.seqNum)).getD packet

/-- The call for a packet that was recovered. -/
def callsFor (packet : RecoveredMediaPacket) (store : List RecoveredMediaPacket) : List Recovery :=
  if (entryOf packet store).wasRecovered then
    [⟨entryOf packet store, store, storeWith packet store⟩]
  else []

/-- `TryToRecover()`, for at most `fuel` rounds. -/
def tryToRecover : Nat → List RecoveredMediaPacket → List FecPacket →
    List RecoveredMediaPacket × List FecPacket × List Recovery
  | 0, store, fecs => (store, fecs, [])
  | fuel + 1, store, fecs =>
    match scan store fecs with
    | (kept, none) => (store, kept, [])
    | (kept, some (packet, rest)) =>
      let r := tryToRecover fuel (storeWith packet store)
        (updateConveringFecPackets (entryOf packet store) (kept ++ rest))
      (r.1, r.2.1, callsFor packet store ++ r.2.2)

end FecDecoder

/-- `FecDecoder`. -/
structure FecDecoder where
  fecSsrc : U32
  protectedMediaSsrc : U32
  receivedFecPackets : List FecDecoder.FecPacket := []
  recoveredMediaPackets : List FecDecoder.RecoveredMediaPacket := []
  deriving DecidableEq

namespace FecDecoder

/-- `CreateUlpFecDecoder(ssrc)`. -/
def createUlpFecDecoder (ssrc : U32) : FecDecoder :=
  { fecSsrc := ssrc, protectedMediaSsrc := ssrc }

/-- `Reset()`. -/
def reset (d : FecDecoder) : FecDecoder :=
  { d with receivedFecPackets := [], recoveredMediaPackets := [] }

/-- The test of `Decode` for a big gap.  The SSRC is compared with the key of the last packet, its
sequence number. -/
def hasBigGap (d : FecDecoder) (fecSsrc : U32) (seqNum : U16) : Bool :=
  match d.recoveredMediaPackets.getLast? with
  | none => false
  | some last =>
    decide (kMaxTrackedMediaPackets ≤ d.recoveredMediaPackets.length) &&
      decide (fecSsrc = last.seqNum.setWidth 32) &&
      decide (kMaxTrackedMediaPackets < (minDiff seqNum last.seqNum).toNat)

/-- The part of `InsertPacket` that discards old FEC packets. -/
def discardOutdatedFecPackets (d : FecDecoder) (fecSsrc : U32) (seqNum : U16) : FecDecoder :=
  match d.receivedFecPackets with
  | [] => d
  | first :: _ =>
    if fecSsrc = first.ssrc then
      { d with
        receivedFecPackets := d.receivedFecPackets.dropWhile fun f =>
          decide (kOldSequenceThreshold < (minDiff seqNum f.seqNum).toNat) }
    else d

/-- The FEC packet that `InsertFecPacket` makes of a received packet. -/
def readFecPacket (d : FecDecoder) (fecSsrc : U32) (seqNum : U16) (pkt : List UInt8) :
    Option FecPacket :=
  match readFecHeader pkt with
  | none => none
  | some (header, pkt) =>
    if fecSsrc ≠ d.protectedMediaSsrc then none
    else if pkt.length < header.packetMaskOffset + header.packetMaskSize then none
    else
      let packets := FecDecoder.protectedMediaPackets d.protectedMediaSsrc header pkt
      if packets = [] then none
      else
        some {
          ssrc := fecSsrc
          seqNum := seqNum
          protectedSsrc := fecSsrc
          fecHeader := header
          pkt := pkt
          protectedMediaPackets := assignProtected packets d.recoveredMediaPackets }

/-- `InsertFecPacket(fec_ssrc, seq_num, received_packet)`. -/
def insertFecPacket (d : FecDecoder) (fecSsrc : U32) (seqNum : U16) (pkt : List UInt8) :
    FecDecoder :=
  if d.receivedFecPackets.any (·.seqNum = seqNum) then d
  else
    match d.readFecPacket fecSsrc seqNum pkt with
    | none => d
    | some f =>
      { d with
        receivedFecPackets := discardOldReceivedFecPackets
          (assignBy olderThan FecPacket.seqNum f d.receivedFecPackets) }

/-- `InsertMediaPacket(media_ssrc, seq_num, received_packet)`. -/
def insertMediaPacket (d : FecDecoder) (mediaSsrc : U32) (seqNum : U16) (pkt : List UInt8) :
    FecDecoder :=
  if d.recoveredMediaPackets.any (·.seqNum = seqNum) then d
  else
    let packet : RecoveredMediaPacket :=
      { ssrc := mediaSsrc, seqNum := seqNum, pkt := pkt, wasRecovered := false }
    { d with
      receivedFecPackets := updateConveringFecPackets packet d.receivedFecPackets
      recoveredMediaPackets := discardOldRecoveredPackets
        (assignBy olderThan (fun r => r.seqNum) packet d.recoveredMediaPackets) }

/-- `InsertPacket(fec_ssrc, seq_num, is_fec, received_packet)`. -/
def insertPacket (d : FecDecoder) (fecSsrc : U32) (seqNum : U16) (isFec : Bool)
    (pkt : List UInt8) : FecDecoder :=
  let d := d.discardOutdatedFecPackets fecSsrc seqNum
  if isFec then d.insertFecPacket fecSsrc seqNum pkt else d.insertMediaPacket fecSsrc seqNum pkt

/-- `Decode(fec_ssrc, seq_num, is_fec, received_packet)`, with the calls of the callback. -/
def decode (d : FecDecoder) (fecSsrc : U32) (seqNum : U16) (isFec : Bool) (pkt : List UInt8) :
    FecDecoder × List Recovery :=
  let d := if d.hasBigGap fecSsrc seqNum then d.reset else d
  let d := d.insertPacket fecSsrc seqNum isFec pkt
  let r := tryToRecover (d.receivedFecPackets.length + 1) d.recoveredMediaPackets
    d.receivedFecPackets
  ({ d with recoveredMediaPackets := r.1, receivedFecPackets := r.2.1 }, r.2.2)

end FecDecoder

/-- A packet of the stream of the decoder. -/
structure DecodeCall where
  seqNum : U16
  isFec : Bool
  pkt : List UInt8
  deriving DecidableEq

/-- The decoder, and the calls of its callback. -/
def fecDecoderMachine : Machine FecDecoder DecodeCall (List FecDecoder.Recovery) where
  step d c := d.decode d.fecSsrc c.seqNum c.isFec c.pkt

end NaiveRtc.Fec
