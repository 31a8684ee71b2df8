import NaiveRtc.Base.Units
import NaiveRtc.Rtcp.CompoundWalk
import NaiveRtc.Rtcp.RtcpSender

/-!
# What the receiver makes of reports

`RtcpReceiver` of `rtc/rtp_rtcp/rtcp/rtcp_receiver.cpp` and `rtcp_receiver_parser.cpp`, as far as
it handles report blocks, extended reports and bitrate estimates: the round trip times and what the
observers hear of them.  Other blocks, and the statistics of sender reports, are left out; none of
them is read here.

* `RttStats`, `RtcpReportBlock`, `PacketInfo` — what is kept, and what one packet says.
* `ReportReceiver` — the state.
* `handleReportBlock`, `handleXrDlrrBlock`, `parseBye`, `parseAfb` — the blocks.
* `incomingRtcpPacket` — a compound packet in memory.
* `rttPeriodicUpdate` — the task that reports the round trip time.
-/

namespace NaiveRtc.Rtcp

open RtcpSender (compactNtp)

/-- `Timestamp::Micros` and `TimeDelta::Millis` of finite values. -/
def millis (ms : Int) : TimeDelta := .micros (ms * 1000)

/-- `kRttUpdateInterval`, one second. -/
def kRttUpdateInterval : TimeDelta := millis 1000

/-- `kRrTimeoutIntervals`. -/
def kRrTimeoutIntervals : Int := 3

/-- `DivideRoundToNearest(dividend, divisor)`. -/
def divideRoundToNearest (dividend divisor : Nat) : Nat :=
  let halfOfDivisor := (divisor - 1) / 2
  dividend / divisor + if halfOfDivisor < dividend % divisor then 1 else 0

/-- `CompactNtpRttToMs(compact_ntp_interval)`.  Intervals from the upper half are taken to be
negative. -/
def compactNtpRttToMs (compactNtpInterval : U32) : Int :=
  if 0x80000000 < compactNtpInterval.toNat then 1
  else max (divideRoundToNearest (compactNtpInterval.toNat * 1000) 0x10000) 1

/-! ## What is kept -/

/-- `RttStats`. -/
structure RttStats where
  lastRtt : TimeDelta
  minRtt : TimeDelta
  maxRtt : TimeDelta
  sumRtt : TimeDelta
  numRtts : Nat
  deriving DecidableEq

namespace RttStats

/-- `RttStats()`. -/
def fresh : RttStats := ⟨millis 0, .plusInfinity, .minusInfinity, millis 0, 0⟩

/-- `AddRttMs(rtt_ms)`. -/
def addRttMs (s : RttStats) (rtt : TimeDelta) : RttStats where
  maxRtt := if s.maxRtt.lt rtt then rtt else s.maxRtt
  minRtt := if s.numRtts = 0 ∨ rtt.lt s.minRtt then rtt else s.minRtt
  lastRtt := rtt
  sumRtt := s.sumRtt.add rtt
  numRtts := s.numRtts + 1

end RttStats

/-- `RtcpReportBlock`. -/
structure RtcpReportBlock where
  senderSsrc : U32
  sourceSsrc : U32
  fractionLost : UInt8
  packetsLost : Int
  extendedHighestSequenceNumber : U32
  jitter : U32
  lastSenderReportTimestamp : U32
  delaySinceLastSenderReport : U32
  deriving DecidableEq

/-- `RtcpReportBlock()`. -/
def RtcpReportBlock.fresh : RtcpReportBlock := ⟨0, 0, 0, 0, 0, 0, 0, 0⟩

/-- `PacketInfo`.  The flags are those that were set. -/
structure PacketInfo where
  packetTypeFlags : List RtcpPacketType
  remoteSsrc : U32
  rttMs : Int
  rembBps : U32
  reportBlocks : List RtcpReportBlock
  deriving DecidableEq

/-- `PacketInfo()`. -/
def PacketInfo.fresh : PacketInfo := ⟨[], 0, 0, 0, []⟩

/-- What the observers hear.  All of them are there. -/
inductive ObserverCall
  | onReceivedEstimatedBitrateBps (bitrateBps : U32)
  | onReceivedRtcpReceiveReport (reportBlocks : List RtcpReportBlock) (rttMs : Int)
  | onReceivedRtcpReportBlocks (reportBlocks : List RtcpReportBlock)
  | onRttUpdated (rtt : TimeDelta)
  deriving DecidableEq

/-- `RtcpReceiver`.  `rtts_` is the list of its entries. -/
structure ReportReceiver where
  receiverOnly : Bool
  remoteSsrc : U32
  reportInterval : Int
  rtt : TimeDelta
  xrRrRttMs : Int
  localMediaSsrc : U32
  rtxSendSsrc : Option U32
  fecSsrc : Option U32
  receivedReportBlocks : U32 → Option RtcpReportBlock
  rtts : List (U32 × RttStats)
  lastTimeReceivedRb : Timestamp
  lastTimeIncreasedSequenceNumber : Timestamp

namespace ReportReceiver

/-- What a receiver is constructed from.  The report interval is in milliseconds. -/
structure Config where
  receiverOnly : Bool
  audio : Bool
  rtcpReportIntervalMs : Int
  localMediaSsrc : U32
  rtxSendSsrc : Option U32
  fecSsrc : Option U32

/-- `RtcpReceiver(config)`. -/
def create (config : Config) : ReportReceiver where
  receiverOnly := config.receiverOnly
  remoteSsrc := 0
  reportInterval :=
    if 0 < config.rtcpReportIntervalMs then config.rtcpReportIntervalMs * 1000
    else if config.audio then 5000000
    else 1000000
  rtt := .plusInfinity
  xrRrRttMs := 0
  localMediaSsrc := config.localMediaSsrc
  rtxSendSsrc := config.rtxSendSsrc
  fecSsrc := config.fecSsrc
  receivedReportBlocks := fun _ => none
  rtts := []
  lastTimeReceivedRb := .plusInfinity
  lastTimeIncreasedSequenceNumber := .plusInfinity

/-- `set_remote_ssrc(remote_ssrc)`. -/
def setRemoteSsrc (r : ReportReceiver) (remoteSsrc : U32) : ReportReceiver :=
  { r with remoteSsrc := remoteSsrc }

/-- `IsRegisteredSsrc(ssrc)`. -/
def isRegisteredSsrc (r : ReportReceiver) (ssrc : U32) : Bool :=
  r.localMediaSsrc == ssrc || r.rtxSendSsrc == some ssrc || r.fecSsrc == some ssrc

/-- `rtts_[ssrc].AddRttMs(rtt)`. -/
def addRtt (rtts : List (U32 × RttStats)) (ssrc : U32) (rtt : TimeDelta) :
    List (U32 × RttStats) :=
  match rtts with
  | [] => [(ssrc, RttStats.fresh.addRttMs rtt)]
  | entry :: rtts =>
    if entry.1 = ssrc then (ssrc, entry.2.addRttMs rtt) :: rtts
    else entry :: addRtt rtts ssrc rtt

section Handlers

/-! ## Blocks

`toNtp` is `ConvertTimestampToNtpTime` of the clock, and `now` its current time in microseconds. -/

variable (toNtp : Int → NtpTime) (now : Int)

/-- `HandleReportBlock(report_block, packet_info, remote_ssrc)`. -/
def handleReportBlock (remoteSsrc : U32) (state : ReportReceiver × PacketInfo)
    (reportBlock : ReportBlock) : ReportReceiver × PacketInfo :=
  let (r, info) := state
  let sourceSsrc := reportBlock.sourceSsrc
  if r.isRegisteredSsrc sourceSsrc = false then (r, info)
  else
    let known := (r.receivedReportBlocks sourceSsrc).getD .fresh
    let rtcpReportBlock : RtcpReportBlock := {
      senderSsrc := remoteSsrc
      sourceSsrc := sourceSsrc
      fractionLost := reportBlock.fractionLost
      packetsLost := reportBlock.cumulativePacketLost
      extendedHighestSequenceNumber := reportBlock.extendedHighestSeqNum
      jitter := reportBlock.jitter
      lastSenderReportTimestamp := reportBlock.lastSrNtpTimestamp
      delaySinceLastSenderReport := reportBlock.delaySinceLastSr }
    let r := { r with
      lastTimeReceivedRb := .micros now
      receivedReportBlocks :=
        Function.update r.receivedReportBlocks sourceSsrc (some rtcpReportBlock)
      lastTimeIncreasedSequenceNumber :=
        if known.extendedHighestSequenceNumber.toNat < reportBlock.extendedHighestSeqNum.toNat then
          .micros now
        else r.lastTimeIncreasedSequenceNumber }
    let sendTimeNtp := reportBlock.lastSrNtpTimestamp
    if sendTimeNtp ≠ 0 then
      let receiveTimeNtp := compactNtp (toNtp now)
      let rttMs := compactNtpRttToMs (receiveTimeNtp - reportBlock.delaySinceLastSr - sendTimeNtp)
      let rtts := addRtt r.rtts sourceSsrc (millis rttMs)
      ({ r with
        rtts := if sourceSsrc = r.localMediaSsrc then addRtt rtts remoteSsrc (millis rttMs)
          else rtts },
        { info with rttMs := rttMs, reportBlocks := info.reportBlocks ++ [rtcpReportBlock] })
    else (r, { info with reportBlocks := info.reportBlocks ++ [rtcpReportBlock] })

/-- `ParseSenderReport(rtcp_block, packet_info)` of a block that was parsed. -/
def parseSenderReport (state : ReportReceiver × PacketInfo) (senderReport : SenderReport) :
    ReportReceiver × PacketInfo :=
  let (r, info) := state
  let remoteSsrc := senderReport.senderSsrc
  let info := { info with
    remoteSsrc := remoteSsrc
    packetTypeFlags := (if r.remoteSsrc = remoteSsrc then .sr else .rr) :: info.packetTypeFlags }
  senderReport.reportBlocks.foldl (handleReportBlock toNtp now remoteSsrc) (r, info)

/-- `ParseReceiverReport(rtcp_block, packet_info)` of a block that was parsed. -/
def parseReceiverReport (state : ReportReceiver × PacketInfo) (receiverReport : ReceiverReport) :
    ReportReceiver × PacketInfo :=
  let (r, info) := state
  let remoteSsrc := receiverReport.senderSsrc
  let info := { info with
    remoteSsrc := remoteSsrc
    packetTypeFlags := .rr :: info.packetTypeFlags }
  receiverReport.reportBlocks.foldl (handleReportBlock toNtp now remoteSsrc) (r, info)

/-- `ParseBye(rtcp_block)` of a block that was parsed. -/
def parseBye (r : ReportReceiver) (bye : Bye) : ReportReceiver :=
  { r with
    rtts := r.rtts.filter fun entry => decide (entry.1 ≠ bye.senderSsrc)
    receivedReportBlocks := fun ssrc =>
      (r.receivedReportBlocks ssrc).filter fun block => decide (block.senderSsrc ≠ bye.senderSsrc)
    xrRrRttMs := 0 }

/-- The body of the loop of `HandleXrDlrrBlock`. -/
def handleTimeInfo (r : ReportReceiver) (timeInfo : TimeInfo) : ReportReceiver :=
  if r.isRegisteredSsrc timeInfo.ssrc = false then r
  else if timeInfo.lastRr = 0 then r
  else
    let nowNtp := compactNtp (toNtp now)
    { r with
      xrRrRttMs := compactNtpRttToMs (nowNtp - timeInfo.delaySinceLastRr - timeInfo.lastRr) }

/-- `HandleXrDlrrBlock(dlrr)`.  It returns at once if there are time infos. -/
def handleXrDlrrBlock (r : ReportReceiver) (dlrr : Dlrr) : ReportReceiver :=
  if dlrr.timeInfos.length ≠ 0 then r else dlrr.timeInfos.foldl (handleTimeInfo toNtp now) r

/-- `ParseAfb(rtcp_block, packet_info)` of a bitrate estimate.  `remb_bps` is an `uint32_t`. -/
def parseAfb (info : PacketInfo) (remb : Remb) : PacketInfo :=
  { info with
    packetTypeFlags := .remb :: info.packetTypeFlags
    rembBps := BitVec.ofInt 32 remb.bitrateBps }

/-- What `ParseCompoundPacket` does with a block that was parsed. -/
def handleBlock (state : ReportReceiver × PacketInfo) : RtcpBlock → ReportReceiver × PacketInfo
  | .senderReport packet => parseSenderReport toNtp now state packet
  | .receiverReport packet => parseReceiverReport toNtp now state packet
  | .bye packet => (parseBye state.1 packet, state.2)
  | .extendedReports packet => (handleXrDlrrBlock toNtp now state.1 packet.dlrrBlock, state.2)
  | .remb packet => (state.1, parseAfb state.2 packet)
  | _ => state

/-- `HandleParseResult(packet_info)`. -/
def handleParseResult (info : PacketInfo) : List ObserverCall :=
  (if .remb ∈ info.packetTypeFlags then [.onReceivedEstimatedBitrateBps info.rembBps] else []) ++
    if .sr ∈ info.packetTypeFlags ∨ .rr ∈ info.packetTypeFlags then
      [.onReceivedRtcpReceiveReport info.reportBlocks info.rttMs,
        .onReceivedRtcpReportBlocks info.reportBlocks]
    else []

/-- The blocks of a packet, one after the other. -/
def handleBlocks (r : ReportReceiver) (blocks : List RtcpBlock) :
    ReportReceiver × List ObserverCall :=
  let (r, info) := blocks.foldl (handleBlock toNtp now) (r, .fresh)
  (r, handleParseResult info)

/-- `ParseCompoundPacket(packet, packet_info)`, the walk over the bytes. -/
def walkPacket (packet : List UInt8) : Walk :=
  (parseCompoundPacket 0 packet.length).value fun address => packet.getD address 0

/-- `IncomingRtcpPacket(packet)`. -/
def incomingRtcpPacket (r : ReportReceiver) (packet : List UInt8) :
    ReportReceiver × List ObserverCall :=
  if (walkPacket packet).result then
    handleBlocks toNtp now r ((walkPacket packet).blocks.filterMap AcceptedBlock.parsed)
  else (r, [])

end Handlers

/-- The blocks of a packet that is not dropped. -/
def packetBlocks (packet : List UInt8) : List RtcpBlock :=
  if (walkPacket packet).result then (walkPacket packet).blocks.filterMap AcceptedBlock.parsed
  else []

theorem incomingRtcpPacket_eq (toNtp : Int → NtpTime) (now : Int) (r : ReportReceiver)
    (packet : List UInt8) :
    incomingRtcpPacket toNtp now r packet = handleBlocks toNtp now r (packetBlocks packet) := by
  unfold incomingRtcpPacket packetBlocks
  split_ifs
  · rfl
  · rfl

theorem packetBlocks_single {packet : List UInt8} {h : BlockHeader 0}
    (hparse : (BlockHeader.parse 0 packet.length).value (fun address => packet.getD address 0) =
      some h) (hend : h.nextPacket = packet.length) {block : RtcpBlock}
    (hblock : (parseBlock h).value (fun address => packet.getD address 0) = some block) :
    packetBlocks packet = [block] := by
  have hnext : kRtcpCommonHeaderSize ≤ h.nextPacket := by
    unfold BlockHeader.nextPacket BlockHeader.payload
    omega
  have hwalk : walkPacket packet = ⟨[⟨0, h, some block⟩], packet.length, true⟩ := by
    unfold kRtcpCommonHeaderSize at hnext
    unfold walkPacket parseCompoundPacket
    rw [walkBlocks, Reading.value_ite, if_neg (by omega), Reading.value_bind, Nat.zero_add,
      Nat.sub_zero, hparse]
    simp only [Reading.value_bind, hblock, hend]
    rw [walkBlocks, Reading.value_ite, if_pos (le_refl _)]
    rfl
  unfold packetBlocks
  rw [hwalk]
  rfl

/-! ## The round trip time -/

/-- `ResetTimestampIfExpired(now, timestamp, interval)`: what it returns, and the timestamp. -/
def resetTimestampIfExpired (now : Int) (timestamp : Timestamp) (interval : Int) :
    Bool × Timestamp :=
  match timestamp with
  | .micros time =>
    if now ≤ time + interval * kRrTimeoutIntervals then (false, timestamp)
    else (true, .plusInfinity)
  | _ => (false, timestamp)

/-- `RtcpRrTimeout()`. -/
def rtcpRrTimeout (r : ReportReceiver) (now : Int) : Bool × ReportReceiver :=
  let (expired, time) := resetTimestampIfExpired now r.lastTimeReceivedRb r.reportInterval
  (expired, { r with lastTimeReceivedRb := time })

/-- `RtcpRrSequenceNumberTimeout()`. -/
def rtcpRrSequenceNumberTimeout (r : ReportReceiver) (now : Int) : Bool × ReportReceiver :=
  let (expired, time) :=
    resetTimestampIfExpired now r.lastTimeIncreasedSequenceNumber r.reportInterval
  (expired, { r with lastTimeIncreasedSequenceNumber := time })

/-- `GetLatestXrRrRtt()`. -/
def getLatestXrRrRtt (r : ReportReceiver) : Option TimeDelta :=
  if 0 < r.xrRrRttMs then some (millis r.xrRrRttMs) else none

/-- The loop over `rtts_` in `RttPeriodicUpdate`. -/
def maxLastRtt (rtts : List (U32 × RttStats)) : TimeDelta :=
  rtts.foldl (fun maxRtt entry => if maxRtt.lt entry.2.lastRtt then entry.2.lastRtt else maxRtt)
    .minusInfinity

/-- `RttPeriodicUpdate()`.  The time to compare with lies in the future. -/
def rttPeriodicUpdate (r : ReportReceiver) (now : Int) : ReportReceiver × List ObserverCall :=
  let (currRtt, r) :=
    if r.receiverOnly = false then
      let timeExpired := UnitValue.add (.micros now) kRttUpdateInterval
      let currRtt :=
        if r.lastTimeReceivedRb.isFinite && timeExpired.lt r.lastTimeReceivedRb then
          let maxRtt := maxLastRtt r.rtts
          if maxRtt.isFinite then some maxRtt else none
        else none
      let (expired, r) := r.rtcpRrTimeout now
      (currRtt, if expired then r else (r.rtcpRrSequenceNumberTimeout now).2)
    else (r.getLatestXrRrRtt, { r with xrRrRttMs := 0 })
  match currRtt with
  | some rtt => ({ r with rtt := rtt }, [.onRttUpdated rtt])
  | none => (r, [])

end ReportReceiver

end NaiveRtc.Rtcp
