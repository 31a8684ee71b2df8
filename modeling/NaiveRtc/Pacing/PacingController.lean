import NaiveRtc.Lib.Loop
import NaiveRtc.Pacing.BitrateProber
import NaiveRtc.Pacing.RoundRobinPacketQueue
import Mathlib

/-!
# The pacer

`rtc/congestion_control/pacing/pacing_controller.cpp`: packets wait in the queue until the debt of
those sent before is paid off at the media bitrate; probes and padding are sent in between.  The
clock does not move during a call.

* `PacketSender` — the packets that come from outside, call by call.
* `enqueuePacket`, `nextSendTime`, `expectedQueueTime`, … — the calls.
* `SendLoop`, `sendOnce`, `sendLoop` — the send loop of `ProcessPackets`, one pass and all of them.
-/

namespace NaiveRtc.Pacing

open CongestionControl (DataRate)
open Loop (Outcome Pass)

/-! ## What the queue is asked -/

namespace RoundRobinPacketQueue

/-- `Empty()`. -/
def isEmpty (q : RoundRobinPacketQueue) : Bool := decide (q.numPackets = 0)

/-- `queued_size()`. -/
def queuedSize (q : RoundRobinPacketQueue) : Nat := (BitVec.ofInt 64 q.totalQueuedSize).toNat

/-- `AverageQueueTime()`: the sum is divided by a `size_t`. -/
def averageQueueTime (q : RoundRobinPacketQueue) : TimeDelta :=
  if q.isEmpty then .micros 0
  else .micros (BitVec.ofInt 64 q.queueTimeSum / BitVec.ofNat 64 q.numPackets).toInt

/-- `LeadingAudioPacketEnqueueTime()`. -/
def leadingAudioPacketEnqueueTime (q : RoundRobinPacketQueue) : Option Int :=
  let ofTop (top : QueuedPacket) : Option Int :=
    if top.ownedPacket.packetType = .audio then some top.enqueueTime else none
  if q.isEmpty then none
  else
    match q.singlePacketQueue with
    | some single => ofTop single
    | none =>
      match q.streamPriorities with
      | [] => none
      | first :: _ =>
        (q.findStream first.ssrc).bind fun stream => stream.packetQueue.head?.bind ofTop

end RoundRobinPacketQueue

/-! ## The controller -/

/-- `kPausedProcessInterval` and `kCongestedPacketInterval`. -/
def kPausedProcessInterval : Int := 500000

/-- `kMaxDebtInTime`. -/
def kMaxDebtInTime : TimeDelta := .micros 500000

/-- `kMaxElapsedTime`. -/
def kMaxElapsedTime : Int := 2000000

/-- `kMaxEarlyProbeProcessing`. -/
def kMaxEarlyProbeProcessing : Int := 1000

/-- `kMaxExpectedQueueTime`. -/
def kMaxExpectedQueueTime : TimeDelta := .micros 2000000

/-- `kDefaultPriority`. -/
def kDefaultPriority : Int := 0

/-- `PriorityForType(packet_type)`. -/
def priorityForType : RtpPacketType → Int
  | .audio => kDefaultPriority + 1
  | .retransmission => kDefaultPriority + 2
  | .video | .fec => kDefaultPriority + 3
  | .padding => kDefaultPriority

/-- `PacingSettings`. -/
structure PacingSettings where
  drainLargeQueue : Bool := true
  sendPaddingIfSilent : Bool := false
  pacingAudio : Bool := false
  paddingTargetDuration : TimeDelta := .micros 5000
  deriving DecidableEq

/-- `PacketSender` during a call of `ProcessPackets`: the padding that the `n`-th `GeneratePadding`
returns for a size, and what the `n`-th `FetchFecPackets` returns. -/
structure PacketSender where
  generatePadding : Nat → Nat → List RtpPacketToSend
  fetchFecPackets : Nat → List RtpPacketToSend

/-- `PacingController`. -/
structure PacingController where
  pacingSettings : PacingSettings
  mediaDebt : Nat
  paddingDebt : Nat
  mediaBitrate : DataRate
  paddingBitrate : DataRate
  pacingBitrate : DataRate
  lastProcessTime : Int
  lastSendTime : Int
  firstSentPacketTime : Option Int
  probingSendFailure : Bool
  prober : BitrateProber
  paused : Bool
  packetCounter : Nat
  packetQueue : RoundRobinPacketQueue
  congestionWindowSize : Nat
  inflightBytes : Nat
  accountForAudio : Bool
  queueTimeCap : TimeDelta
  deriving DecidableEq

namespace PacingController

/-- `PacingController(config)`. -/
def create (pacingSettings : PacingSettings) (probingSettings : Configuration) (now : Int) :
    PacingController where
  pacingSettings := pacingSettings
  mediaDebt := 0
  paddingDebt := 0
  mediaBitrate := 0
  paddingBitrate := 0
  pacingBitrate := 0
  lastProcessTime := now
  lastSendTime := now
  firstSentPacketTime := none
  probingSendFailure := false
  prober := .create probingSettings
  paused := false
  packetCounter := 0
  packetQueue := .create now
  congestionWindowSize := 0
  inflightBytes := 0
  accountForAudio := false
  queueTimeCap := kMaxExpectedQueueTime

/-! ## Debts and times -/

/-- `IsCongested()`. -/
def isCongested (s : PacingController) : Bool :=
  decide (0 < s.congestionWindowSize ∧ s.congestionWindowSize ≤ s.inflightBytes)

/-- `UpdateProcessTime(at_time)`: the state, the elapsed time and whether there was an update. -/
def updateProcessTime (s : PacingController) (atTime : Int) : PacingController × Int × Bool :=
  if atTime < s.lastProcessTime then (s, 0, false)
  else ({ s with lastProcessTime := atTime },
    min (atTime - s.lastProcessTime) kMaxElapsedTime, true)

/-- `ReduceDebt(elapsed_time)`. -/
def reduceDebt (s : PacingController) (elapsedTime : Int) : PacingController :=
  { s with
    mediaDebt := s.mediaDebt - min s.mediaDebt (bytesIn (.micros elapsedTime) s.mediaBitrate)
    paddingDebt :=
      s.paddingDebt - min s.paddingDebt (bytesIn (.micros elapsedTime) s.paddingBitrate) }

/-- `AddDebt(sent_bytes)`. -/
def addDebt (s : PacingController) (sentBytes : Nat) : PacingController :=
  { s with
    inflightBytes := (s.inflightBytes + sentBytes) % 2 ^ 64
    mediaDebt := min (s.mediaDebt + sentBytes) (bytesIn kMaxDebtInTime s.mediaBitrate)
    paddingDebt := min (s.paddingDebt + sentBytes) (bytesIn kMaxDebtInTime s.paddingBitrate) }

/-- Passes the time to `atTime` and reduces the debt, if time elapsed. -/
def passTime (s : PacingController) (atTime : Int) : PacingController × Bool :=
  let (s, elapsedTime, updated) := s.updateProcessTime atTime
  if updated ∧ 0 < elapsedTime then (s.reduceDebt elapsedTime, true) else (s, false)

/-- The time to pay off a debt, in microseconds. -/
def timeToPayOff (debt : Nat) (rate : DataRate) : Option Int :=
  if rate = 0 then none else some (timeToSend debt rate).us

/-- `TimeToPayOffMediaDebt()`. -/
def timeToPayOffMediaDebt (s : PacingController) : Option Int :=
  timeToPayOff s.mediaDebt s.mediaBitrate

/-- `TimeToPayOffPaddingDebt()`. -/
def timeToPayOffPaddingDebt (s : PacingController) : Option Int :=
  timeToPayOff s.paddingDebt s.paddingBitrate

/-- The time of the next probe, if probing takes priority. -/
def probeTime (s : PacingController) (now : Int) : Option Timestamp :=
  if s.prober.isProbing ∧ s.prober.nextProbeAt now ≠ .plusInfinity ∧ s.probingSendFailure = false
  then some (s.prober.nextProbeAt now) else none

/-- The enqueue time of the leading packet, if it is an audio packet that is not paced. -/
def unpacedAudioTime (s : PacingController) : Option Int :=
  if s.pacingSettings.pacingAudio then none else s.packetQueue.leadingAudioPacketEnqueueTime

/-- `NextSendTime()`. -/
def nextSendTime (s : PacingController) (now : Int) : Option Timestamp :=
  if s.paused then some (.micros (s.lastSendTime + kPausedProcessInterval))
  else
    match s.probeTime now, s.unpacedAudioTime with
    | some probeTime, _ => some probeTime
    | none, some audioEnqueueTime => some (.micros audioEnqueueTime)
    | none, none =>
      if s.isCongested = true ∨ s.packetCounter = 0 then
        some (.micros (s.lastSendTime + kPausedProcessInterval))
      else if 0 < s.mediaBitrate ∧ s.packetQueue.isEmpty = false then
        s.timeToPayOffMediaDebt.map fun payOff =>
          .micros (min (s.lastSendTime + kPausedProcessInterval) (s.lastProcessTime + payOff))
      else if 0 < s.paddingBitrate ∧ s.packetQueue.isEmpty = true then
        s.timeToPayOffMediaDebt.bind fun payOffMedia =>
          s.timeToPayOffPaddingDebt.map fun payOffPadding =>
            .micros (min (s.lastSendTime + kPausedProcessInterval)
              (s.lastProcessTime + max payOffMedia payOffPadding))
      else if s.pacingSettings.sendPaddingIfSilent then
        some (.micros (s.lastSendTime + kPausedProcessInterval))
      else some (.micros (s.lastProcessTime + kPausedProcessInterval))

/-- `ExpectedQueueTime()`. -/
def expectedQueueTime (s : PacingController) : Option TimeDelta :=
  if s.pacingBitrate = 0 then none
  else some (timeToSend s.packetQueue.queuedSize s.pacingBitrate)

/-! ## Settings -/

/-- `Pause()` and `Resume()`. -/
def setPaused (s : PacingController) (paused : Bool) (now : Int) : PacingController :=
  { s with paused := paused, packetQueue := s.packetQueue.setPauseState paused now }

/-- `SetPacingBitrates(pacing_bitrate, padding_bitrate)`. -/
def setPacingBitrates (s : PacingController) (pacingBitrate paddingBitrate : DataRate) :
    PacingController :=
  { s with
    mediaBitrate := pacingBitrate
    paddingBitrate := paddingBitrate
    pacingBitrate := pacingBitrate }

/-- The last process time is updated when the congestion is over. -/
def leaveCongestion (s : PacingController) (wasCongested : Bool) (now : Int) : PacingController :=
  if wasCongested = true ∧ s.isCongested = false then (s.passTime now).1 else s

/-- `SetCongestionWindow(congestion_window_size)`. -/
def setCongestionWindow (s : PacingController) (congestionWindowSize : Nat) (now : Int) :
    PacingController :=
  { s with congestionWindowSize := congestionWindowSize }.leaveCongestion s.isCongested now

/-- `OnInflightBytes(inflight_bytes)`. -/
def onInflightBytes (s : PacingController) (inflightBytes : Nat) (now : Int) : PacingController :=
  { s with inflightBytes := inflightBytes }.leaveCongestion s.isCongested now

/-- `AddProbeCluster(cluster_id, target_bitrate)`. -/
def addProbeCluster (s : PacingController) (clusterId : Int) (targetBitrate : DataRate)
    (now : Int) : PacingController × Bool :=
  let (prober, added) := s.prober.addProbeCluster clusterId targetBitrate now
  ({ s with prober := prober }, added)

/-! ## Packets coming in -/

/-- The last process time is moved to the target, whatever that does to the debt. -/
def forwardTo (s : PacingController) (targetProcessTime : Int) : PacingController :=
  match s.passTime targetProcessTime with
  | (s, true) => s
  | (s, false) => { s with lastProcessTime := targetProcessTime }

/-- The last process time is moved forward before a packet enters the empty queue. -/
def fastForward (s : PacingController) (now : Int) : Option PacingController :=
  (s.nextSendTime now).map fun nextSendTime =>
    s.forwardTo
      (match nextSendTime with
      | .micros time => min now time
      | _ => now)

/-- `EnqueuePacketInternal(packet, priority)`. -/
def enqueuePacketInternal (s : PacingController) (packet : RtpPacketToSend) (priority now : Int) :
    Option PacingController :=
  let size := packet.headerSize + packet.payloadSize + packet.paddingSize
  let s := { s with prober := s.prober.onIncomingPacket size }
  (if s.packetQueue.isEmpty then s.fastForward now else some s).map fun s =>
    { s with
      packetQueue := s.packetQueue.push priority now s.packetCounter packet
      packetCounter := s.packetCounter + 1 }

/-- `EnqueuePacket(packet)`. -/
def enqueuePacket (s : PacingController) (packet : RtpPacketToSend) (now : Int) :
    Option (PacingController × Bool) :=
  if s.pacingBitrate ≤ 0 then some (s, false)
  else
    (s.enqueuePacketInternal packet (priorityForType packet.packetType) now).map fun s => (s, true)

/-- `EnqueuePacket` for each packet; whether it was taken is not looked at. -/
def enqueuePackets (s : PacingController) (packets : List RtpPacketToSend) (now : Int) :
    Option PacingController :=
  packets.foldlM (fun s packet => (s.enqueuePacket packet now).map Prod.fst) s

/-! ## Packets going out -/

/-- `OnMediaSent(packet_type, sent_bytes, at_time)`. -/
def onMediaSent (s : PacingController) (packetType : RtpPacketType) (sentBytes : Nat)
    (atTime : Int) : PacingController :=
  let s := { s with firstSentPacketTime := some (s.firstSentPacketTime.getD atTime) }
  let s := if packetType ≠ .audio ∨ s.accountForAudio = true then s.addDebt sentBytes else s
  { s with lastSendTime := atTime, lastProcessTime := atTime }

/-- `OnPaddingSent(sent_bytes, at_time)`. -/
def onPaddingSent (s : PacingController) (sentBytes : Nat) (atTime : Int) : PacingController :=
  let s := if 0 < sentBytes then s.addDebt sentBytes else s
  { s with lastSendTime := atTime, lastProcessTime := atTime }

/-- `IsTimeToSendHeartbeat(at_time)`. -/
def isTimeToSendHeartbeat (s : PacingController) (atTime : Int) : Bool :=
  (s.pacingSettings.sendPaddingIfSilent || s.paused || s.isCongested ||
      decide (s.packetCounter = 0)) &&
    decide (kPausedProcessInterval ≤ atTime - s.lastSendTime)

/-- Must a packet wait, which is neither unpaced audio nor a probe? -/
def mustWait (s : PacingController) (targetSendTime atTime : Int) : Option Bool :=
  if s.isCongested then some true
  else if atTime ≤ targetSendTime then
    s.timeToPayOffMediaDebt.map fun timeToPaidOff =>
      decide (targetSendTime < atTime + timeToPaidOff)
  else some false

/-- `NextPacketToSend(pacing_info, target_send_time, at_time)`. -/
def nextPacketToSend (s : PacingController) (isProbing : Bool) (targetSendTime atTime : Int) :
    Option (PacingController × Option RtpPacketToSend) :=
  if s.packetQueue.isEmpty then some (s, none)
  else
    (if s.unpacedAudioTime.isNone = true ∧ isProbing = false then s.mustWait targetSendTime atTime
      else some false).map fun wait =>
        if wait then (s, none)
        else ({ s with packetQueue := s.packetQueue.pop.1 }, s.packetQueue.pop.2)

/-- `PaddingSizeToAdd(recommended_probe_size, sent_bytes)`. -/
def paddingSizeToAdd (s : PacingController) (recommendedProbeSize sentBytes : Nat) : Nat :=
  if s.packetQueue.isEmpty = false ∨ s.isCongested = true ∨ s.packetCounter = 0 then 0
  else if 0 < recommendedProbeSize then recommendedProbeSize - sentBytes
  else if 0 < s.paddingBitrate ∧ s.paddingDebt = 0 then
    bytesIn s.pacingSettings.paddingTargetDuration s.paddingBitrate
  else 0

end PacingController

/-! ## The send loop -/

/-- A packet that was sent, with the cluster it was sent for. -/
abbrev SentPacket := RtpPacketToSend × Option ProbeCluster

/-- The variables of the send loop, with the number of calls of the packet sender. -/
structure SendLoop where
  controller : PacingController
  paddingCalls : Nat
  fecCalls : Nat
  prevProcessTime : Int
  targetSendTime : Int
  sentBytes : Nat
  firstPacketInProbe : Bool
  sent : List SentPacket
  deriving DecidableEq

namespace SendLoop

section

variable (sender : PacketSender) (now : Int) (probeCluster : Option ProbeCluster)
  (recommendedProbeSize : Nat)

/-- A probe starts with a small padding packet, which goes past `EnqueuePacket`. -/
def startProbe (l : SendLoop) : Option SendLoop :=
  if l.firstPacketInProbe then
    let l' := { l with paddingCalls := l.paddingCalls + 1, firstPacketInProbe := false }
    match sender.generatePadding l.paddingCalls 1 with
    | [] => some l'
    | packet :: _ =>
      (l.controller.enqueuePacketInternal packet kDefaultPriority now).map fun controller =>
        { l' with controller := controller }
  else some l

/-- The debt is reduced for the time up to the target. -/
def settleDebt (l : SendLoop) : SendLoop :=
  if l.prevProcessTime < l.targetSendTime then
    { l with
      controller := l.controller.reduceDebt (l.targetSendTime - l.prevProcessTime)
      prevProcessTime := l.targetSendTime }
  else l

/-- No packet is available: padding is asked for, if there should be some. -/
def addPadding (l : SendLoop) : Option (Pass SendLoop) :=
  let paddingToAdd := l.controller.paddingSizeToAdd recommendedProbeSize l.sentBytes
  if 0 < paddingToAdd then
    let l' := { l with paddingCalls := l.paddingCalls + 1 }
    match sender.generatePadding l.paddingCalls paddingToAdd with
    | [] => some (.leave l')
    | packet :: packets =>
      (l.controller.enqueuePackets (packet :: packets) now).map fun controller =>
        .again { l' with controller := controller }
  else some (.leave l)

/-- The size of a packet as the debt counts it. -/
def packetSize (s : PacingController) (packet : RtpPacketToSend) : Nat :=
  packet.payloadSize + packet.paddingSize +
    if s.packetQueue.includeOverhead then packet.headerSize + s.packetQueue.transportOverhead else 0

/-- A packet is sent, and the packets that protect it are enqueued. -/
def sendPacket (l : SendLoop) (packet : RtpPacketToSend) : Option (Pass SendLoop) :=
  let size := packetSize l.controller packet
  (l.controller.enqueuePackets (sender.fetchFecPackets l.fecCalls) now).bind fun controller =>
    let controller := controller.onMediaSent packet.packetType size l.targetSendTime
    let l := { l with
      controller := controller
      fecCalls := l.fecCalls + 1
      sentBytes := l.sentBytes + size
      sent := l.sent ++ [(packet, probeCluster)] }
    if probeCluster.isSome = true ∧ recommendedProbeSize ≤ l.sentBytes then some (.leave l)
    else
      (controller.nextSendTime now).map fun nextSendTime =>
        .again { l with
          targetSendTime :=
            match nextSendTime with
            | .micros time => min now time
            | _ => now }

/-- One pass through the loop. -/
def sendOnce (l : SendLoop) : Option (Pass SendLoop) :=
  (l.startProbe sender now).bind fun l =>
    let l := l.settleDebt
    (l.controller.nextPacketToSend probeCluster.isSome l.targetSendTime now).bind fun next =>
      let l := { l with controller := next.1 }
      match next.2 with
      | none => l.addPadding sender now recommendedProbeSize
      | some packet => l.sendPacket sender now probeCluster recommendedProbeSize packet

/-- The loop, with so many passes at most. -/
def sendLoop (fuel : Nat) (l : SendLoop) : Outcome SendLoop :=
  Loop.run (sendOnce sender now probeCluster recommendedProbeSize) fuel l

end

/-- After the loop: what was sent counts as a probe, if probing. -/
def finish (probeCluster : Option ProbeCluster) (now : Int) (l : SendLoop) : PacingController :=
  let s := { l.controller with
    lastProcessTime := max l.controller.lastProcessTime l.prevProcessTime }
  if probeCluster.isSome then
    if l.sentBytes = 0 then { s with probingSendFailure := true }
    else { s with
      probingSendFailure := false
      prober := s.prober.onProbeSent l.sentBytes now }
  else s

end SendLoop

/-! ## `ProcessPackets` -/

namespace PacingController

/-- The packets that a heartbeat sends, each followed by the packets that protect it. -/
def sendHeartbeat (s : PacingController) (sender : PacketSender) (now : Int)
    (packets : List RtpPacketToSend) : Option (PacingController × Nat) :=
  packets.foldlM (fun (s, fecCalls) _ =>
    (s.enqueuePackets (sender.fetchFecPackets fecCalls) now).map fun s => (s, fecCalls + 1)) (s, 0)

/-- The heartbeat, if it is time: the start of the send loop that follows. -/
def heartbeat (s : PacingController) (sender : PacketSender) (now targetSendTime : Int)
    (prevProcessTime : Int) : Option SendLoop :=
  let start (s : PacingController) : SendLoop :=
    { controller := s, paddingCalls := 0, fecCalls := 0, prevProcessTime := prevProcessTime
      targetSendTime := targetSendTime, sentBytes := 0, firstPacketInProbe := false, sent := [] }
  if s.isTimeToSendHeartbeat now then
    if s.packetCounter = 0 then some (start { s with lastSendTime := now })
    else
      let packets := sender.generatePadding 0 1
      (s.sendHeartbeat sender now packets).map fun (s, fecCalls) =>
        let sentBytes := (packets.map fun packet => packet.payloadSize + packet.paddingSize).sum
        { start (s.onPaddingSent sentBytes now) with
          paddingCalls := 1
          fecCalls := fecCalls
          sent := packets.map fun packet => (packet, none) }
  else some (start s)

/-- The bitrate that drains the queue in time, if it is more than the one that is set. -/
def drainBitrate (s : PacingController) (queuedPacketSize : Nat) : DataRate :=
  let avgTimeLeft :=
    (UnitValue.micros 1000).max (s.queueTimeCap.sub s.packetQueue.averageQueueTime)
  max s.pacingBitrate ((bytesPerDuration queuedPacketSize avgTimeLeft).getD 0)

/-- The media bitrate is set anew when time has elapsed. -/
def adjustBitrate (s : PacingController) (elapsedTime now : Int) : PacingController :=
  if 0 < elapsedTime then
    let queuedPacketSize := s.packetQueue.queuedSize
    if 0 < queuedPacketSize then
      let s := { s with packetQueue := s.packetQueue.updateEnqueueTime now }
      { s with
        mediaBitrate :=
          if s.pacingSettings.drainLargeQueue then s.drainBitrate queuedPacketSize
          else s.pacingBitrate }
    else { s with mediaBitrate := s.pacingBitrate }
  else s

/-- The cluster of the probe, if there is one. -/
def takeProbe (s : PacingController) (now : Int) : PacingController × Option ProbeCluster :=
  if s.prober.isProbing then
    let (prober, cluster) := s.prober.currentProbeCluster now
    ({ s with prober := prober }, cluster)
  else (s, none)

/-- The start of the send loop, with what it sends for: the cluster and the recommended size. -/
def startLoop (l : SendLoop) (elapsedTime now : Int) : SendLoop × Option ProbeCluster × Nat :=
  let (s, cluster) := (l.controller.adjustBitrate elapsedTime now).takeProbe now
  ({ l with
    controller := s
    firstPacketInProbe := cluster.any fun c => c.sentBytes = 0 }, cluster,
    if cluster.isSome then s.prober.recommendedMinProbeSize else 0)

/-- `ProcessPackets()` from the time on that something is due. -/
def processDue (fuel : Nat) (s : PacingController) (sender : PacketSender)
    (now targetSendTime : Int) : Outcome (PacingController × List SentPacket) :=
  let prevProcessTime := s.lastProcessTime
  let (s, elapsedTime, _) := s.updateProcessTime now
  match s.heartbeat sender now targetSendTime prevProcessTime with
  | none => .failed
  | some l =>
    if l.controller.paused then .done (l.controller, l.sent)
    else
      let (l, cluster, recommendedProbeSize) := startLoop l elapsedTime now
      (SendLoop.sendLoop sender now cluster recommendedProbeSize fuel l).map fun l =>
        (l.finish cluster now, l.sent)

/-- The time that something is due, unless it is too early. -/
def dueTime (nextSendTime : Timestamp) (earlyExecuteMargin now : Int) : Option Int :=
  match nextSendTime with
  | .minusInfinity => some now
  | .micros time => if now < time - earlyExecuteMargin then none else some time
  | .plusInfinity => none

/-- `ProcessPackets()`, with so many passes through the send loop at most. -/
def processPackets (fuel : Nat) (s : PacingController) (sender : PacketSender) (now : Int) :
    Outcome (PacingController × List SentPacket) :=
  match s.nextSendTime now with
  | none => .failed
  | some nextSendTime =>
    match dueTime nextSendTime (if s.prober.isProbing then kMaxEarlyProbeProcessing else 0) now with
    | none => .done ((s.passTime now).1, [])
    | some targetSendTime =>
      if targetSendTime < s.lastProcessTime then
        (s.reduceDebt (s.lastProcessTime - targetSendTime)).processDue fuel sender now
          s.lastProcessTime
      else s.processDue fuel sender now targetSendTime

/-! ## The machine -/

/-- What is called, and when. -/
inductive Op
  | setPacingBitrates (pacingBitrate paddingBitrate : DataRate)
  | enqueuePacket (packet : RtpPacketToSend) (now : Int)
  | pause (now : Int)
  | resume (now : Int)
  | setCongestionWindow (congestionWindowSize : Nat) (now : Int)
  | onInflightBytes (inflightBytes : Nat) (now : Int)
  | addProbeCluster (clusterId : Int) (targetBitrate : DataRate) (now : Int)
  | nextSendTime (now : Int)
  | expectedQueueTime
  | processPackets (sender : PacketSender) (now : Int)

/-- What a call answers. -/
inductive Answer
  | nothing
  | taken (accepted : Bool)
  | time (next : Timestamp)
  | duration (expected : TimeDelta)
  | sent (packets : List SentPacket)
  deriving DecidableEq

/-- One call; `ProcessPackets` passes through its loop `fuel` times at most. -/
def call (fuel : Nat) (s : PacingController) : Op → Outcome (PacingController × Answer)
  | .setPacingBitrates pacingBitrate paddingBitrate =>
    .done (s.setPacingBitrates pacingBitrate paddingBitrate, .nothing)
  | .enqueuePacket packet now =>
    match s.enqueuePacket packet now with
    | none => .failed
    | some (s, accepted) => .done (s, .taken accepted)
  | .pause now => .done (s.setPaused true now, .nothing)
  | .resume now => .done (s.setPaused false now, .nothing)
  | .setCongestionWindow congestionWindowSize now =>
    .done (s.setCongestionWindow congestionWindowSize now, .nothing)
  | .onInflightBytes inflightBytes now => .done (s.onInflightBytes inflightBytes now, .nothing)
  | .addProbeCluster clusterId targetBitrate now =>
    let (s, accepted) := s.addProbeCluster clusterId targetBitrate now
    .done (s, .taken accepted)
  | .nextSendTime now =>
    match s.nextSendTime now with
    | none => .failed
    | some next => .done (s, .time next)
  | .expectedQueueTime =>
    match s.expectedQueueTime with
    | none => .failed
    | some expected => .done (s, .duration expected)
  | .processPackets sender now =>
    (s.processPackets fuel sender now).map fun (s, packets) => (s, .sent packets)

/-- One call after the other; a call that comes to nothing leaves the state as it was. -/
def controllerMachine (fuel : Nat) : Machine PacingController Op (Outcome Answer) where
  step s op :=
    match s.call fuel op with
    | .done (s, answer) => (s, .done answer)
    | .failed => (s, .failed)
    | .outOfFuel => (s, .outOfFuel)

end PacingController

end NaiveRtc.Pacing
