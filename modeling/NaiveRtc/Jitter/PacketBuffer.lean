import NaiveRtc.Lib.Machine
import NaiveRtc.Lib.Ordered
import NaiveRtc.Lib.SlotTable
import NaiveRtc.Media.Video

/-!
# The packet buffer

The model of `rtc/rtp_rtcp/rtp/receiver/video/jitter/packet_buffer.{hpp,cpp}`:
packets wait in a ring of slots, addressed by the sequence number modulo the number
of slots, until all packets of a frame are there and the frame is assembled.

* `insertPacket`, with `expandPacketBufferIfNecessary` and `updateMissingPackets`
  — a packet arrives.
* `tryToAssembleFrames` — from a sequence number on, packets are marked as
  continuous; at the last packet of a frame `walkBack` looks for its first packet
  and `takePackets` empties the slots of the frame.
* `Fault` — what ends the process: a null packet is read, the codec header of an
  H264 packet is of another kind, a frame is written past its end.

Which packets a frame was built from and which slots were visited is no part of the
source; the model records both.
-/

namespace NaiveRtc.Jitter

open WrapAround SlotTable

/-! ## Data -/

/-- Missing packets are tracked this far behind the newest sequence number. -/
def kMaxMissingPacketCount : Nat := 1000

/-- `PacketBuffer::Packet`. -/
structure Packet where
  videoHeader : RtpVideoHeader := {}
  videoCodecHeader : RtpVideoCodecHeader := .monostate
  videoPayload : List UInt8 := []
  continuous : Bool := false
  seqNum : U16 := 0
  timestamp : U32 := 0
  receivedTimeMs : Int := -1
  timesNacked : Int := -1
  deriving DecidableEq

/-- `PacketBuffer::Frame`. -/
structure Frame where
  frameWidth : Int := 0
  frameHeight : Int := 0
  frameType : FrameType := .empty
  codecType : CodecType := .generic
  seqNumStart : U16 := 0
  seqNumEnd : U16 := 0
  timestamp : U32 := 0
  timesNacked : Int := -1
  minReceivedTimeMs : Int := -1
  maxReceivedTimeMs : Int := -1
  numPackets : Nat := 0
  bitstream : List UInt8 := []
  deriving DecidableEq

/-- A frame together with the packets it was built from, in order. -/
structure AssembledFrame extends Frame where
  packets : List Packet
  deriving DecidableEq

/-- `PacketBuffer::InsertResult`, with the slots visited by the walks backward, each
with the sequence number the walk expected there. -/
structure InsertResult where
  assembledFrames : List AssembledFrame := []
  keyframeRequested : Bool := false
  visits : List (U16 × Packet) := []
  deriving DecidableEq

/-- What ends the process. -/
inductive Fault where
  /-- A null pointer is dereferenced. -/
  | nullPacket
  /-- `std::get` finds another alternative. -/
  | badVariantAccess
  /-- A frame is written past the end of its bitstream. -/
  | bufferOverrun
  deriving DecidableEq

/-- The state of `PacketBuffer`. -/
structure PacketBuffer where
  maxPacketBufferSize : Nat
  packetBuffer : List (Option Packet)
  firstSeqNum : U16 := 0
  firstPacketReceived : Bool := false
  isClearedToFirstSeqNum : Bool := false
  spsPpsIdrIsH264Keyframe : Bool := true
  newestInsertedSeqNum : Option U16 := none
  /-- A set under `olderThan`, in iteration order.  A bound of it is the first entry on the other
  side of the key; where the key does not cut the list in two the source may find another one. -/
  missingPackets : List U16 := []
  deriving DecidableEq

/-- The number a packet is placed by. -/
def Packet.key (p : Packet) : Nat := p.seqNum.toNat

namespace PacketBuffer

/-- The constructor. -/
def create (initialBufferSize maxBufferSize : Nat) : PacketBuffer where
  maxPacketBufferSize := maxBufferSize
  packetBuffer := List.replicate initialBufferSize none

/-- `packet_buffer_.size()`. -/
def size (s : PacketBuffer) : Nat := s.packetBuffer.length

/-- The slot of a sequence number. -/
def indexOf (s : PacketBuffer) (seqNum : U16) : Nat := seqNum.toNat % s.size

/-- `packet_buffer_[i]`. -/
def get (s : PacketBuffer) (i : Nat) : Option Packet := slot s.packetBuffer i

/-- Write slot `i`. -/
def set (s : PacketBuffer) (i : Nat) (o : Option Packet) : PacketBuffer :=
  { s with packetBuffer := s.packetBuffer.set i o }

/-! ## Continuity and missing packets -/

/-- `IsContinuous(seq_num)`. -/
def isContinuous (s : PacketBuffer) (seqNum : U16) : Bool :=
  match s.get (s.indexOf seqNum) with
  | none => false
  | some currPacket =>
    if currPacket.seqNum ≠ seqNum then false
    else if currPacket.videoHeader.isFirstPacketInFrame then true
    else
      match s.get (prevIndex s.size (s.indexOf seqNum)) with
      | none => false
      | some prevPacket =>
        if prevPacket.seqNum ≠ currPacket.seqNum - 1 then false
        else if prevPacket.timestamp ≠ currPacket.timestamp then false
        else prevPacket.continuous

/-- The `while` loop of `UpdateMissingPackets`, which ends when `newest` has reached
`seq_num`; `fuel` is the distance between the two. -/
def insertMissing (seqNum : U16) : Nat → U16 → List U16 → U16 × List U16
  | 0, newest, missing => (newest, missing)
  | fuel + 1, newest, missing =>
    if aheadOf seqNum (newest + 1) then
      insertMissing seqNum fuel (newest + 1) (Ordered.insertBy olderThan id (newest + 1) missing)
    else (newest + 1, missing)

/-- `UpdateMissingPackets(seq_num, window_size)`. -/
def updateMissingPackets (s : PacketBuffer) (seqNum : U16) (windowSize : Nat) : PacketBuffer :=
  let newest := s.newestInsertedSeqNum.getD seqNum
  if aheadOf seqNum newest then
    let oldSeqNum := seqNum - BitVec.ofNat 16 windowSize
    let missing := Ordered.eraseBelow olderThan id oldSeqNum s.missingPackets
    let newest := if aheadOf oldSeqNum newest then oldSeqNum else newest
    let r := insertMissing seqNum (seqNum - newest).toNat newest missing
    { s with newestInsertedSeqNum := some r.1, missingPackets := r.2 }
  else
    { s with newestInsertedSeqNum := some newest, missingPackets := s.missingPackets.erase seqNum }

/-! ## The walk backward -/

/-- The variables of the walk backward from the last packet of a frame. -/
structure Walk where
  seqNumStart : U16
  frameSize : Nat := 0
  isH264Keyframe : Bool := false
  hasSps : Bool := false
  hasPps : Bool := false
  hasIdr : Bool := false
  /-- `idr_width` and `idr_height`, once they are set. -/
  idrSize : Option (U16 × U16) := none
  visited : List (U16 × Packet) := []
  deriving DecidableEq

/-- What an H264 packet adds to the walk; `none` if it may hold more NAL units than
are stored. -/
def Walk.inspect (s : PacketBuffer) (p : Packet) (w : Walk) : Except Fault (Option Walk) :=
  match p.videoCodecHeader with
  | .monostate => .error .badVariantAccess
  | .h264 info =>
    if H264.kMaxNaluNumPerPacket ≤ info.nalus.length then .ok none
    else
      let w := { w with
        hasSps := w.hasSps || info.hasSps
        hasPps := w.hasPps || info.hasPps
        hasIdr := w.hasIdr || info.hasIdr }
      if (s.spsPpsIdrIsH264Keyframe && w.hasSps && w.hasPps && w.hasIdr) ||
          (!s.spsPpsIdrIsH264Keyframe && w.hasIdr) then
        .ok (some { w with
          isH264Keyframe := true
          idrSize :=
            if 0 < p.videoHeader.frameWidth ∧ 0 < p.videoHeader.frameHeight then
              some (p.videoHeader.frameWidth, p.videoHeader.frameHeight)
            else w.idrSize })
      else .ok (some w)

/-- A packet belongs to the frame that is looked for. -/
def Walk.visit (w : Walk) (p : Packet) : Walk :=
  { w with
    frameSize := w.frameSize + p.videoPayload.length
    visited := w.visited ++ [(w.seqNumStart, p)] }

/-- The `while (true)` loop of `TryToAssembleFrames`, at packet `p` in slot `i`; it
visits at most `fuel + 1` packets.  `false` if the frame is given up. -/
def walkBack (s : PacketBuffer) (isH264 : Bool) (frameTimestamp : U32) :
    Nat → Nat → Packet → Walk → Except Fault (Walk × Bool)
  | fuel, i, p, w =>
    let w := w.visit p
    if !isH264 && p.videoHeader.isFirstPacketInFrame then .ok (w, true)
    else
      match if isH264 then w.inspect s p else .ok (some w) with
      | .error f => .error f
      | .ok none => .ok (w, false)
      | .ok (some w) =>
        match fuel with
        | 0 => .ok (w, true)
        | fuel + 1 =>
          match s.get (prevIndex s.size i) with
          | none => if isH264 then .ok (w, true) else .error .nullPacket
          | some q =>
            if isH264 && q.timestamp ≠ frameTimestamp then .ok (w, true)
            else walkBack s isH264 frameTimestamp fuel (prevIndex s.size i) q
              { w with seqNumStart := w.seqNumStart - 1 }

/-! ## Assembly -/

/-- The frame type of an H264 frame is written into its first packet, and with it the
resolution of the IDR picture. -/
def Walk.classify (w : Walk) (p : Packet) : Packet :=
  { p with videoHeader :=
    if w.isH264Keyframe then
      match w.idrSize with
      | some (width, height) =>
        { p.videoHeader with frameType := .key, frameWidth := width, frameHeight := height }
      | none => { p.videoHeader with frameType := .key }
    else { p.videoHeader with frameType := .delta } }

/-- The loop over the packets of a frame: `n` slots from `seqNum` on are emptied. -/
def takePackets : Nat → U16 → PacketBuffer → Except Fault (PacketBuffer × List Packet)
  | 0, _, s => .ok (s, [])
  | n + 1, seqNum, s =>
    match s.get (s.indexOf seqNum) with
    | none => .error .nullPacket
    | some p =>
      match takePackets n (seqNum + 1) (s.set (s.indexOf seqNum) none) with
      | .error f => .error f
      | .ok (s, ps) => .ok (s, p :: ps)

/-- The frame built from `packets`: the first one gives most of the fields, also
`times_nacked`, whose maximum is taken with itself. -/
def buildFrame (numPackets frameSize : Nat) (packets : List Packet) : AssembledFrame :=
  let written := packets.flatMap Packet.videoPayload
  let frame : Frame := {
    numPackets := numPackets
    bitstream := written ++ List.replicate (frameSize - written.length) 0 }
  match packets.head?, packets.getLast? with
  | some first, some last =>
    { frame with
      frameWidth := first.videoHeader.frameWidth.toNat
      frameHeight := first.videoHeader.frameHeight.toNat
      codecType := first.videoHeader.codecType
      frameType := first.videoHeader.frameType
      seqNumStart := first.seqNum
      seqNumEnd := last.seqNum
      timestamp := first.timestamp
      timesNacked := first.timesNacked
      minReceivedTimeMs := packets.foldl (fun t p => min t p.receivedTimeMs) first.receivedTimeMs
      maxReceivedTimeMs := packets.foldl (fun t p => max t p.receivedTimeMs) first.receivedTimeMs
      packets := packets }
  | _, _ => { frame with packets := packets }

/-- The frame from `w.seqNumStart` to `seqNum` leaves the buffer. -/
def assembleFrame (s : PacketBuffer) (seqNum : U16) (w : Walk) :
    Except Fault (PacketBuffer × AssembledFrame) :=
  let numPackets := (seqNum + 1 - w.seqNumStart).toNat
  match takePackets numPackets w.seqNumStart s with
  | .error f => .error f
  | .ok (s, packets) =>
    if w.frameSize < (packets.flatMap Packet.videoPayload).length then .error .bufferOverrun
    else .ok ({ s with
      missingPackets := Ordered.eraseUpTo olderThan id seqNum s.missingPackets },
      buildFrame numPackets w.frameSize packets)

/-- Is a packet at or before `seqNum` missing? -/
def missingUpTo (s : PacketBuffer) (seqNum : U16) : Bool :=
  match s.missingPackets with
  | [] => false
  | m :: _ => !olderThan seqNum m

/-- The end of one round of `TryToAssembleFrames`. -/
inductive Round where
  /-- On with the next sequence number, with the frame this round assembled. -/
  | next (s : PacketBuffer) (frame : Option AssembledFrame) (visits : List (U16 × Packet))
  /-- The frame is withheld. -/
  | stop (s : PacketBuffer) (visits : List (U16 × Packet))
  deriving DecidableEq

/-- What follows the walk: an H264 frame is classified, and a delta frame is withheld
while packets before it are missing. -/
def finishFrame (s : PacketBuffer) (isH264 : Bool) (seqNum : U16) (w : Walk) : Except Fault Round :=
  let assemble (s : PacketBuffer) : Except Fault Round :=
    match s.assembleFrame seqNum w with
    | .error f => .error f
    | .ok (s, frame) => .ok (.next s (some frame) w.visited)
  if isH264 then
    match s.get (s.indexOf w.seqNumStart) with
    | none => .error .nullPacket
    | some first =>
      let s := s.set (s.indexOf w.seqNumStart) (some (w.classify first))
      if !w.isH264Keyframe && s.missingUpTo w.seqNumStart then .ok (.stop s w.visited)
      else assemble s
  else assemble s

/-- One round of `TryToAssembleFrames`, at a continuous packet. -/
def assembleRound (s : PacketBuffer) (seqNum : U16) (p : Packet) : Except Fault Round :=
  let p := { p with continuous := true }
  let s := s.set (s.indexOf seqNum) (some p)
  if p.videoHeader.isLastPacketInFrame then
    let isH264 := p.videoHeader.codecType == .h264
    match s.walkBack isH264 p.timestamp (s.size - 1) (s.indexOf seqNum) p { seqNumStart :=
      seqNum } with
    | .error f => .error f
    | .ok (w, false) => .ok (.stop s w.visited)
    | .ok (w, true) => s.finishFrame isH264 seqNum w
  else .ok (.next s none [])

/-- The rounds of `TryToAssembleFrames`, at most `n`. -/
def assembleLoop : Nat → U16 → PacketBuffer → Except Fault (PacketBuffer × InsertResult)
  | 0, _, s => .ok (s, {})
  | n + 1, seqNum, s =>
    if !s.isContinuous seqNum then .ok (s, {})
    else
      match s.get (s.indexOf seqNum) with
      | none => .error .nullPacket
      | some p =>
        match s.assembleRound seqNum p with
        | .error f => .error f
        | .ok (.stop s visits) => .ok (s, { visits := visits })
        | .ok (.next s frame visits) =>
          match assembleLoop n (seqNum + 1) s with
          | .error f => .error f
          | .ok (s, r) =>
            .ok (s, { r with
              assembledFrames := frame.toList ++ r.assembledFrames
              visits := visits ++ r.visits })

/-- `TryToAssembleFrames(seq_num)`. -/
def tryToAssembleFrames (s : PacketBuffer) (seqNum : U16) :
    Except Fault (PacketBuffer × InsertResult) :=
  assembleLoop s.size seqNum s

/-! ## Expansion -/

/-- The test for a conflict at a new size, as the source has it: the packet's number is
reduced, the new one is not. -/
def conflictsAt (s : PacketBuffer) (seqNum : U16) (newSize : Nat) : Bool :=
  s.packetBuffer.any fun o => o.any fun p => p.key % newSize == seqNum.toNat

/-- The loop of `ExpandPacketBufferIfNecessary`: the size is doubled until no packet
conflicts; `none` if the last size does not do. -/
def findSize (s : PacketBuffer) (seqNum : U16) : Nat → Nat → Option Nat
  | 0, _ => none
  | fuel + 1, newSize =>
    if newSize ≤ s.maxPacketBufferSize then
      if s.conflictsAt seqNum newSize then
        if newSize < s.maxPacketBufferSize then
          findSize s seqNum fuel (min s.maxPacketBufferSize (2 * newSize))
        else none
      else some newSize
    else some newSize

/-- `ExpandPacketBuffer(new_size)`. -/
def expandPacketBuffer (s : PacketBuffer) (newSize : Nat) : PacketBuffer :=
  if s.size = s.maxPacketBufferSize then s
  else { s with
    packetBuffer := rehash Packet.key (min s.maxPacketBufferSize newSize) s.packetBuffer }

/-- `ExpandPacketBufferIfNecessary(seq_num)`; `none` for a return of `false`.  The loop
gets one round more than the sizes it can go through, see `findSize_spec`. -/
def expandPacketBufferIfNecessary (s : PacketBuffer) (seqNum : U16) : Option PacketBuffer :=
  if (s.get (s.indexOf seqNum)).isNone then some s
  else if s.size = s.maxPacketBufferSize then none
  else
    (s.findSize seqNum (s.maxPacketBufferSize + 1) (min s.maxPacketBufferSize (2 * s.size))).map
      s.expandPacketBuffer

/-! ## The calls -/

/-- `Clear()`. -/
def clear (s : PacketBuffer) : PacketBuffer :=
  { s with
    packetBuffer := s.packetBuffer.map fun _ => none
    firstPacketReceived := false
    isClearedToFirstSeqNum := false
    newestInsertedSeqNum := none
    missingPackets := [] }

/-- A packet is put into its slot, and frames are assembled. -/
def storePacket (s : PacketBuffer) (packet : Packet) : Except Fault (PacketBuffer × InsertResult) :=
  let s := s.set (s.indexOf packet.seqNum) (some { packet with continuous := false })
  (s.updateMissingPackets packet.seqNum kMaxMissingPacketCount).tryToAssembleFrames packet.seqNum

/-- Is the packet older than an explicit `ClearTo`? -/
def isCleared (s : PacketBuffer) (seqNum : U16) : Bool :=
  s.firstPacketReceived && aheadOf s.firstSeqNum seqNum && s.isClearedToFirstSeqNum

/-- The bookkeeping of `first_seq_num_`. -/
def noteFirst (s : PacketBuffer) (seqNum : U16) : PacketBuffer :=
  if !s.firstPacketReceived then { s with firstSeqNum := seqNum, firstPacketReceived := true }
  else if aheadOf s.firstSeqNum seqNum then { s with firstSeqNum := seqNum }
  else s

/-- `InsertPacket(packet)`. -/
def insertPacket (s : PacketBuffer) (packet : Packet) :
    Except Fault (PacketBuffer × InsertResult) :=
  if s.isCleared packet.seqNum then .ok (s, {})
  else
    let s := s.noteFirst packet.seqNum
    match s.get (s.indexOf packet.seqNum) with
    | none => s.storePacket packet
    | some stored =>
      if stored.seqNum = packet.seqNum then .ok (s, {})
      else
        match s.expandPacketBufferIfNecessary packet.seqNum with
        | none => .ok (s.clear, { keyframeRequested := true })
        | some s => s.storePacket packet

/-- `InsertPadding(seq_num)`. -/
def insertPadding (s : PacketBuffer) (seqNum : U16) : Except Fault (PacketBuffer × InsertResult) :=
  (s.updateMissingPackets seqNum kMaxMissingPacketCount).tryToAssembleFrames (seqNum + 1)

/-- The loop of `ClearTo` over `n` slots from `first_seq_num_` on. -/
def clearLoop (seqNum : U16) : Nat → PacketBuffer → PacketBuffer
  | 0, s => s
  | n + 1, s =>
    let stored := s.get (s.indexOf s.firstSeqNum)
    let s := if stored.any fun p => aheadOf seqNum p.seqNum then s.set
      (s.indexOf s.firstSeqNum) none else s
    clearLoop seqNum n { s with firstSeqNum := s.firstSeqNum + 1 }

/-- `ClearTo(seq_num)`; of the missing packets up to the number after `seq_num` all but
the last one are forgotten. -/
def clearTo (s : PacketBuffer) (seqNum : U16) : PacketBuffer :=
  if s.isClearedToFirstSeqNum && aheadOf s.firstSeqNum seqNum then s
  else if !s.firstPacketReceived then s
  else
    let seqNum := seqNum + 1
    let diff := (forwardDiff s.firstSeqNum seqNum).toNat
    let s := clearLoop seqNum (min diff s.size) s
    let upTo := (s.missingPackets.takeWhile fun m => !olderThan seqNum m).length
    { s with
      firstSeqNum := seqNum
      isClearedToFirstSeqNum := true
      missingPackets := s.missingPackets.drop (upTo - 1) }

end PacketBuffer

/-! ## The buffer driven by calls -/

/-- A call. -/
inductive PacketOp where
  | insertPacket (packet : Packet)
  | insertPadding (seqNum : U16)
  | clear
  | clearTo (seqNum : U16)
  | setSpsPpsIdrIsH264Keyframe (flag : Bool)
  deriving DecidableEq

/-- What a call does. -/
inductive PacketEvent where
  | returned (r : InsertResult)
  | faulted (f : Fault)
  | quiet
  deriving DecidableEq

/-- The outcome of an insertion as a step; after a fault there is no buffer any more. -/
def PacketBuffer.outcome : Except Fault (PacketBuffer × InsertResult) →
    Option PacketBuffer × PacketEvent
  | .ok (s, r) => (some s, .returned r)
  | .error f => (none, .faulted f)

/-- The packet buffer as a machine. -/
def packetMachine : Machine (Option PacketBuffer) PacketOp PacketEvent where
  step
    | none, _ => (none, .quiet)
    | some s, .insertPacket p => PacketBuffer.outcome (s.insertPacket p)
    | some s, .insertPadding q => PacketBuffer.outcome (s.insertPadding q)
    | some s, .clear => (some s.clear, .quiet)
    | some s, .clearTo q => (some (s.clearTo q), .quiet)
    | some s, .setSpsPpsIdrIsH264Keyframe b =>
      (some { s with spsPpsIdrIsH264Keyframe := b }, .quiet)

end NaiveRtc.Jitter
