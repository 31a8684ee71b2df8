import NaiveRtc.Base.Units
import NaiveRtc.Components.NumUnwrapper
import NaiveRtc.Lib.Ordered
import NaiveRtc.Rtcp.TransportFeedback
import NaiveRtc.Rtp.PacketToSend

/-!
# The statistics of the send side

The model of `rtc/congestion_control/components/network_transport_statistician.cpp`: the
packets handed to the pacer, when they were sent, and what the transport feedback of the
peer says about them.

* `SentPacket`, `PacketFeedback`, `NetworkTransportStatistician` — the state; the history
  is the list of its entries in the order of their ids.
* `statisticianMachine` — the statistician as a machine.

The pacing info of a packet is carried along unread and left out, and so are the two send
times that only the log messages look at.
-/

namespace NaiveRtc.CongestionControl

open Ordered Rtcp

/-- `kPacketFeedbackHistoryWindow`, one minute. -/
def kPacketFeedbackHistoryWindow : TimeDelta := .micros 60000000

/-- `SentPacket`.  The bytes in flight are an integer, as `inflight_bytes_` is below. -/
structure SentPacket where
  sendTime : Timestamp
  size : Nat
  priorUnackedBytes : Nat
  isAudio : Bool
  packetId : Int
  bytesInFlight : Int
  deriving DecidableEq

/-- `PacketFeedback`, an entry of the history. -/
structure PacketFeedback where
  sent : SentPacket
  creationTime : Timestamp
  deriving DecidableEq

/-- The key of an entry. -/
def PacketFeedback.id (e : PacketFeedback) : Int := e.sent.packetId

/-- `RtpPacketSendInfo`, as far as it is read. -/
structure RtpPacketSendInfo where
  packetId : U16
  packetSize : Nat
  packetType : Option RtpPacketType
  deriving DecidableEq

/-- `RtpSentPacket`. -/
structure RtpSentPacket where
  sendTime : Timestamp
  packetId : Option U16
  size : Nat
  includedInAllocation : Bool
  deriving DecidableEq

/-- `PacketResult`. -/
structure PacketResult where
  sentPacket : SentPacket
  recvTime : Timestamp
  deriving DecidableEq

/-- `TransportPacketsFeedback`. -/
structure TransportPacketsFeedback where
  receiveTime : Timestamp
  firstUnackedSendTime : Timestamp
  lastAckedRecvTime : Timestamp
  bytesInFlight : Int
  priorInFlight : Int
  packetFeedbacks : List PacketResult
  deriving DecidableEq

/-- `NetworkTransportStatistician`.  `inflight_bytes_` is an integer, so that a
subtraction that would wrap in C++ shows as a negative number. -/
structure NetworkTransportStatistician where
  packetFbHistory : List PacketFeedback
  seqNumUnwrapper : NumberUnwrapper
  lastAckedPacketId : Int
  inflightBytes : Int
  pendingUntrackedBytes : Nat
  lastFeedbackRecvTime : Timestamp
  lastTimestamp : TimeDelta
  deriving DecidableEq

namespace NetworkTransportStatistician

/-- `NetworkTransportStatistician()`. -/
def create : NetworkTransportStatistician :=
  { packetFbHistory := [], seqNumUnwrapper := none, lastAckedPacketId := -1, inflightBytes := 0
    pendingUntrackedBytes := 0, lastFeedbackRecvTime := .minusInfinity
    lastTimestamp := .minusInfinity }

/-- `IsInFlight(packet)`. -/
def isInFlight (s : NetworkTransportStatistician) (packet : SentPacket) : Bool :=
  decide (s.lastAckedPacketId < packet.packetId)

/-- `packet_fb_history_.find(packet_id)`. -/
def find (s : NetworkTransportStatistician) (packetId : Int) : Option PacketFeedback :=
  s.packetFbHistory.find? fun e => e.id = packetId

/-- `packet_fb_history_.erase(it)`. -/
def erase (history : List PacketFeedback) (packetId : Int) : List PacketFeedback :=
  history.filter fun e => e.id ≠ packetId

/-! ## Adding and sending -/

/-- Is an entry older than the window? -/
def isOld (receiveTime : Timestamp) (e : PacketFeedback) : Bool :=
  kPacketFeedbackHistoryWindow.lt (receiveTime.sub e.creationTime)

/-- The loop that erases the old items, from the front of the history. -/
def eraseOld (s : NetworkTransportStatistician) (receiveTime : Timestamp) :
    List PacketFeedback → Int → List PacketFeedback × Int
  | [], inflightBytes => ([], inflightBytes)
  | e :: history, inflightBytes =>
    if isOld receiveTime e then
      eraseOld s receiveTime history
        (if s.isInFlight e.sent then inflightBytes - e.sent.size else inflightBytes)
    else (e :: history, inflightBytes)

/-- `AddPacket(packet_info, overhead_bytes, receive_time)`. -/
def addPacket (s : NetworkTransportStatistician) (info : RtpPacketSendInfo) (overheadBytes : Nat)
    (receiveTime : Timestamp) : NetworkTransportStatistician :=
  let (packetId, unwrapper) := s.seqNumUnwrapper.unwrap info.packetId
  let feedback : PacketFeedback :=
    { sent :=
        { sendTime := .plusInfinity, size := info.packetSize + overheadBytes
          priorUnackedBytes := 0, isAudio := decide (info.packetType = some .audio)
          packetId := packetId, bytesInFlight := 0 }
      creationTime := receiveTime }
  let (history, inflightBytes) := s.eraseOld receiveTime s.packetFbHistory s.inflightBytes
  { s with
    seqNumUnwrapper := unwrapper
    inflightBytes := inflightBytes
    packetFbHistory := insertBy (fun a b => decide (a < b)) PacketFeedback.id feedback history }

/-- An entry changed in place. -/
def setSent (history : List PacketFeedback) (sent : SentPacket) : List PacketFeedback :=
  history.map fun e => if e.id = sent.packetId then { e with sent := sent } else e

/-- `ProcessSentPacket(sent_packet)`. -/
def processSentPacket (s : NetworkTransportStatistician) (packet : RtpSentPacket) :
    NetworkTransportStatistician × Option SentPacket :=
  match packet.packetId with
  | some wrapped =>
    let (packetId, unwrapper) := s.seqNumUnwrapper.unwrap wrapped
    let s := { s with seqNumUnwrapper := unwrapper }
    match s.find packetId with
    | none => (s, none)
    | some entry =>
      let retransmit := entry.sent.sendTime.isFinite
      let sent := { entry.sent with
        sendTime := packet.sendTime
        priorUnackedBytes := entry.sent.priorUnackedBytes + s.pendingUntrackedBytes }
      let s := { s with pendingUntrackedBytes := 0 }
      if retransmit then ({ s with packetFbHistory := setSent s.packetFbHistory sent }, none)
      else
        let inflightBytes :=
          if s.isInFlight sent then s.inflightBytes + sent.size else s.inflightBytes
        let sent := { sent with bytesInFlight := inflightBytes }
        ({ s with
          inflightBytes := inflightBytes
          packetFbHistory := setSent s.packetFbHistory sent }, some sent)
  | none =>
    if packet.includedInAllocation then
      ({ s with pendingUntrackedBytes := s.pendingUntrackedBytes + packet.size }, none)
    else (s, none)

/-! ## Feedback -/

/-- Where the packets of a feedback are placed in time: the first part of
`ParsePacketFeedbacks`. -/
def rebase (s : NetworkTransportStatistician) (feedback : TransportFeedback)
    (receiveTime : Timestamp) : NetworkTransportStatistician :=
  let recvTime :=
    match s.lastTimestamp with
    | .micros last =>
      let moved := s.lastFeedbackRecvTime.add (.micros (feedback.getBaseDeltaUs last))
      if UnitValue.lt (.micros 0) moved then moved else receiveTime
    | _ => receiveTime
  { s with
    lastFeedbackRecvTime := recvTime
    lastTimestamp := .micros feedback.getBaseTimeUs }

/-- Everything up to `packetId` is acknowledged and no longer in flight. -/
def acknowledge (s : NetworkTransportStatistician) (packetId : Int) :
    NetworkTransportStatistician :=
  if s.lastAckedPacketId < packetId then
    { s with
      inflightBytes := s.inflightBytes -
        ((s.packetFbHistory.filter fun e => s.lastAckedPacketId < e.id ∧ e.id ≤ packetId).map
          fun e => (e.sent.size : Int)).sum
      lastAckedPacketId := packetId }
  else s

/-- The loop of `ParsePacketFeedbacks` over the packets, with `packet_offset` in
microseconds. -/
def parsePackets (s : NetworkTransportStatistician) (packetOffset : Int)
    (report : TransportPacketsFeedback) :
    List ReceivedPacket → NetworkTransportStatistician × TransportPacketsFeedback
  | [] => (s, report)
  | packet :: packets =>
    let (packetId, unwrapper) := s.seqNumUnwrapper.unwrap packet.sequenceNumber
    let s := { s with seqNumUnwrapper := unwrapper }.acknowledge packetId
    match s.find packetId with
    -- the feedback came too late
    | none => parsePackets s packetOffset report packets
    | some entry =>
      if entry.sent.sendTime.isInfinite then parsePackets s packetOffset report packets
      else
        match packet.deltaTicks with
        | some ticks =>
          let packetOffset := packetOffset + ticks * kDeltaScaleFactor
          let recvTime := s.lastFeedbackRecvTime.add (.micros (roundDownTo packetOffset 1000))
          parsePackets { s with packetFbHistory := erase s.packetFbHistory packetId } packetOffset
            { report with
              lastAckedRecvTime := report.lastAckedRecvTime.max recvTime
              packetFeedbacks := report.packetFeedbacks ++ [⟨entry.sent, recvTime⟩] } packets
        | none =>
          parsePackets s packetOffset
            { report with
              packetFeedbacks := report.packetFeedbacks ++ [⟨entry.sent, .plusInfinity⟩] } packets

/-- `ProcessTransportFeedback(feedback, receive_time)`. -/
def processTransportFeedback (s : NetworkTransportStatistician) (feedback : TransportFeedback)
    (receiveTime : Timestamp) : NetworkTransportStatistician × Option TransportPacketsFeedback :=
  if feedback.statusCount = 0 then (s, none)
  else
    let report : TransportPacketsFeedback :=
      { receiveTime := receiveTime, firstUnackedSendTime := .plusInfinity
        lastAckedRecvTime := .minusInfinity, bytesInFlight := 0, priorInFlight := s.inflightBytes
        packetFeedbacks := [] }
    let (s, report) := (s.rebase feedback receiveTime).parsePackets 0 report feedback.allPackets
    if report.packetFeedbacks = [] then (s, none)
    else
      let report :=
        match s.find s.lastAckedPacketId with
        | some entry => { report with firstUnackedSendTime := entry.sent.sendTime }
        | none => report
      (s, some { report with bytesInFlight := s.inflightBytes })

/-! ## The machine -/

/-- The calls. -/
inductive Op
  | addPacket (info : RtpPacketSendInfo) (overheadBytes : Nat) (receiveTime : Timestamp)
  | processSentPacket (packet : RtpSentPacket)
  | processTransportFeedback (feedback : TransportFeedback) (receiveTime : Timestamp)

/-- The state after a call. -/
def step (s : NetworkTransportStatistician) : Op → NetworkTransportStatistician
  | .addPacket info overheadBytes receiveTime => s.addPacket info overheadBytes receiveTime
  | .processSentPacket packet => (s.processSentPacket packet).1
  | .processTransportFeedback feedback receiveTime =>
    (s.processTransportFeedback feedback receiveTime).1

end NetworkTransportStatistician

/-- The statistician as a machine. -/
def statisticianMachine :
    Machine NetworkTransportStatistician NetworkTransportStatistician.Op Unit where
  step s op := (s.step op, ())

end NaiveRtc.CongestionControl
