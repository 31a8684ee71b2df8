import NaiveRtc.Lib.Machine
import NaiveRtc.Lib.Ordered
import NaiveRtc.Rtcp.CompoundPacket

/-!
# The RTCP sender

The model of `rtc/rtp_rtcp/rtcp/rtcp_sender.cpp`, `rtcp_sender_builder.cpp` and what
`rtcp_sender_scheduler.cpp` stores: which packets a call of `SendRtcp` puts together, and the
flags that ask for them.

* `ReportFlags` — `report_flags_`, a set ordered by type.
* `Providers`, `RtcpContext` — what a call reads of the clock, of the statistics and of the
  random numbers.
* `prepareReport`, `buildFlags`, `buildCompoundRtcpPacket`, `sendRtcp`,
  `sendLossNotification`, …
* `machine` — the public methods, one step each.

The packets are listed as they are appended; how a list is laid out in datagrams is the
business of `PackInto`.  The counters that only an observer sees are left out.
-/

namespace NaiveRtc.Rtcp

/-! ## Flags -/

/-- `RtcpPacketType`. -/
inductive RtcpPacketType where
  | rtcpReport
  | sr
  | rr
  | sdes
  | bye
  | pli
  | nack
  | fir
  | tmmbr
  | tmmbn
  | srRequest
  | lossNotification
  | remb
  | transmissionTimeOffset
  | xrReceiverReferenceTime
  | xrDlrrReportBlock
  | transportFeedback
  | xrTargetBitrate
  deriving DecidableEq

/-- The value of an enumerator, which orders the flags. -/
def RtcpPacketType.value : RtcpPacketType → Nat
  | rtcpReport => 0x0001
  | sr => 0x0002
  | rr => 0x0004
  | sdes => 0x0008
  | bye => 0x0010
  | pli => 0x0020
  | nack => 0x0040
  | fir => 0x0080
  | tmmbr => 0x0100
  | tmmbn => 0x0200
  | srRequest => 0x0400
  | lossNotification => 0x2000
  | remb => 0x10000
  | transmissionTimeOffset => 0x20000
  | xrReceiverReferenceTime => 0x40000
  | xrDlrrReportBlock => 0x80000
  | transportFeedback => 0x100000
  | xrTargetBitrate => 0x200000

/-- `RtcpSender::ReportFlag`. -/
structure ReportFlag where
  type : RtcpPacketType
  isVolatile : Bool
  deriving DecidableEq

/-- `operator<` of flags, on their types. -/
def typeBefore (a b : RtcpPacketType) : Bool := decide (a.value < b.value)

theorem typeBefore_iff (a b : RtcpPacketType) : typeBefore a b = true ↔ a.value < b.value :=
  decide_eq_true_iff

/-- `report_flags_`, a `std::set` of flags. -/
structure ReportFlags where
  flags : List ReportFlag
  sorted : Ordered.Ranked (fun f => f.type.value) flags
  deriving DecidableEq

namespace ReportFlags

/-- No flag is set. -/
def empty : ReportFlags := ⟨[], List.Pairwise.nil⟩

/-- `insert(flag)`: a flag of the same type stays as it is. -/
def insert (s : ReportFlags) (flag : ReportFlag) : ReportFlags :=
  ⟨Ordered.insertBy typeBefore ReportFlag.type flag s.flags,
    Ordered.ranked_insertBy (fun _ _ => ⟨typeBefore_iff _ _, typeBefore_iff _ _⟩) s.sorted⟩

/-- `find(ReportFlag(type, false))`. -/
def find (s : ReportFlags) (type : RtcpPacketType) : Option ReportFlag :=
  s.flags.find? fun f => f.type == type

/-- `erase(it)` for the flag of a type. -/
def erase (s : ReportFlags) (type : RtcpPacketType) : ReportFlags :=
  ⟨s.flags.filter fun f => f.type != type, s.sorted.filter _⟩

/-- The flags that a walk leaves which erases volatile ones. -/
def eraseVolatile (s : ReportFlags) : ReportFlags :=
  ⟨s.flags.filter fun f => !f.isVolatile, s.sorted.filter _⟩

end ReportFlags

/-! ## State -/

/-- `RtcpMode`. -/
inductive RtcpMode where
  | off
  | compound
  | reducedSize
  deriving DecidableEq

/-- `RtcpSenderReportStats`, what is used of it. -/
structure RtcpSenderReportStats where
  sendNtpTime : NtpTime
  arrivalNtpTime : NtpTime
  deriving DecidableEq

/-- What one call reads of its collaborators: the clock (`now_ms`, `CurrentTime`,
`CurrentNtpTime` and `ConvertTimestampToNtpTime` of the current time), the statistics
providers, the report block provider if there is one, and `utils::random::random`. -/
structure Providers where
  nowMs : Int
  nowUs : Int
  nowNtp : NtpTime
  currentNtp : NtpTime
  packetsSent : U32
  mediaBytesSent : Nat
  sendBitrateKbps : Int
  lastSrStats : Option RtcpSenderReportStats
  lastXrRtis : List TimeInfo
  reportBlocks : Option (List ReportBlock)
  random : Int → Int → Int

/-- `RtcpSender::RtcpContext`. -/
structure RtcpContext extends Providers where
  nackList : List U16

/-- `RtcpSender`, less its counters; times in milliseconds. -/
structure RtcpSender where
  audio : Bool
  localSsrc : U32
  remoteSsrc : U32
  rtcpMode : RtcpMode
  reportIntervalMs : Int
  sending : Bool
  reportFlags : ReportFlags
  rtpClockRatesKhz : List (Int × Int)
  lastRtpPayloadType : Int
  lastRtpTimestamp : U32
  lastFrameCaptureTimeMs : Option Int
  nextTimeToSendRtcpMs : Option Int
  cname : List UInt8
  rembBitrate : Int
  rembSsrcs : List U32
  csrcs : List U32
  sequenceNumberFir : UInt8
  lossNotification : LossNotification
  deriving DecidableEq

namespace RtcpSender

/-- The interval of reports for video -/
def kDefaultVideoReportIntervalMs : Int := 1000

/-- and for audio. -/
def kDefaultAudioReportIntervalMs : Int := 5000

/-- The clock rate taken for audio -/
def kBogusRtpRateForAudioRtcp : Int := 8000

/-- and for video. -/
def kVideoPayloadTypeFrequency : Int := 90000

/-- `RtcpSender(config)`. -/
def create (audio : Bool) (localMediaSsrc : U32) (rtcpReportIntervalMs : Int) : RtcpSender where
  audio := audio
  localSsrc := localMediaSsrc
  remoteSsrc := 0
  rtcpMode := .off
  reportIntervalMs :=
    if 0 < rtcpReportIntervalMs then rtcpReportIntervalMs
    else if audio then kDefaultAudioReportIntervalMs
    else kDefaultVideoReportIntervalMs
  sending := false
  reportFlags := .empty
  rtpClockRatesKhz := []
  lastRtpPayloadType := -1
  lastRtpTimestamp := 0
  lastFrameCaptureTimeMs := none
  nextTimeToSendRtcpMs := none
  cname := []
  rembBitrate := 0
  rembSsrcs := []
  csrcs := []
  sequenceNumberFir := 0
  lossNotification := ⟨0, 0, 0, 0, false⟩

/-- `SetFlag(type, is_volatile)`. -/
def setFlag (s : RtcpSender) (type : RtcpPacketType) (isVolatile : Bool) : RtcpSender :=
  { s with reportFlags := s.reportFlags.insert ⟨type, isVolatile⟩ }

/-- `IsFlagPresent(type)`. -/
def isFlagPresent (s : RtcpSender) (type : RtcpPacketType) : Bool :=
  (s.reportFlags.find type).isSome

/-- `ConsumeFlag(type, forced)`. -/
def consumeFlag (s : RtcpSender) (type : RtcpPacketType) (forced : Bool) : RtcpSender × Bool :=
  match s.reportFlags.find type with
  | none => (s, false)
  | some flag =>
    (if flag.isVolatile || forced then { s with reportFlags := s.reportFlags.erase type } else s,
      true)

/-- `AllVolatileFlagsConsumed()`. -/
def allVolatileFlagsConsumed (s : RtcpSender) : Bool :=
  s.reportFlags.flags.all fun flag => !flag.isVolatile

/-- `ScheduleForNextRtcpSend(delay)`, what it stores. -/
def scheduleForNextRtcpSend (s : RtcpSender) (nowMs delayMs : Int) : RtcpSender :=
  { s with nextTimeToSendRtcpMs := some (nowMs + delayMs) }

/-! ## Builders

A builder returns the sender after it and the packets it appends, at most one. -/

/-- `CompactNtp(ntp)`. -/
def compactNtp (ntp : NtpTime) : U32 := (ntp.seconds <<< 16) ||| (ntp.fractions >>> 16)

/-- `CreateReportBlocks(last_sr_stats)`. -/
def createReportBlocks (ctx : RtcpContext) : List ReportBlock :=
  match ctx.reportBlocks, ctx.lastSrStats with
  | none, _ => []
  | some blocks, none => blocks
  | some blocks, some stats =>
    let lastSrSendNtpTimestamp := ((stats.sendNtpTime.seconds &&& 0x0000FFFF) <<< 16) +
      ((stats.sendNtpTime.fractions &&& 0xFFFF0000) >>> 16)
    let receiveTime := ((stats.arrivalNtpTime.seconds &&& 0x0000FFFF) <<< 16) +
      ((stats.arrivalNtpTime.fractions &&& 0xFFFF0000) >>> 16)
    let delaySinceLastSr := compactNtp ctx.currentNtp - receiveTime
    blocks.map fun block =>
      { block with
        lastSrNtpTimestamp := lastSrSendNtpTimestamp, delaySinceLastSr := delaySinceLastSr }

/-- `rtp_timestamp` of a sender report: the timestamp of a frame captured now. -/
def estimatedRtpTimestamp (s : RtcpSender) (captureTimeMs nowUs : Int) : U32 :=
  let known := (s.rtpClockRatesKhz.lookup s.lastRtpPayloadType).getD 0
  let rtpRate :=
    if known ≤ 0 then
      (if s.audio then kBogusRtpRateForAudioRtcp else kVideoPayloadTypeFrequency).tdiv 1000
    else known
  s.lastRtpTimestamp + BitVec.ofInt 32 (((nowUs + 500).tdiv 1000 - captureTimeMs) * rtpRate)

/-- `SetReportBlocks(blocks)` of a new report: too many are not taken. -/
def acceptedBlocks (blocks : List ReportBlock) :
    { blocks : List ReportBlock // blocks.length ≤ kMaxNumberOfReportBlocks } :=
  if h : blocks.length ≤ kMaxNumberOfReportBlocks then ⟨blocks, h⟩ else ⟨[], Nat.zero_le _⟩

/-- `BuildSR`. -/
def buildSR (s : RtcpSender) (ctx : RtcpContext) : RtcpSender × List SimplePacket :=
  match s.lastFrameCaptureTimeMs with
  | none => (s, [])
  | some captureTimeMs =>
    let blocks := acceptedBlocks (createReportBlocks ctx)
    (s, [.senderReport
      { senderSsrc := s.localSsrc
        ntp := ctx.nowNtp
        rtpTimestamp := s.estimatedRtpTimestamp captureTimeMs ctx.nowUs
        senderPacketCount := ctx.packetsSent
        senderOctetCount := BitVec.ofNat 32 ctx.mediaBytesSent
        reportBlocks := blocks.1
        blocks_le := blocks.2 }])

/-- `BuildRR`. -/
def buildRR (s : RtcpSender) (ctx : RtcpContext) : RtcpSender × List SimplePacket :=
  let blocks := acceptedBlocks (createReportBlocks ctx)
  (s, [.receiverReport
    { senderSsrc := s.localSsrc, reportBlocks := blocks.1, blocks_le := blocks.2 }])

/-- `BuildSDES`. -/
def buildSDES (s : RtcpSender) : RtcpSender × List SimplePacket :=
  (s, [.sdes ((Sdes.create.addCName s.localSsrc s.cname).getD Sdes.create)])

/-- `BuildPLI`. -/
def buildPLI (s : RtcpSender) : RtcpSender × List SimplePacket :=
  (s, [.pli ⟨s.localSsrc, s.remoteSsrc⟩])

/-- `BuildFIR`. -/
def buildFIR (s : RtcpSender) : RtcpSender × List SimplePacket :=
  let s := { s with sequenceNumberFir := s.sequenceNumberFir + 1 }
  (s, [.fir ⟨s.localSsrc, 0, [⟨s.remoteSsrc, s.sequenceNumberFir⟩]⟩])

/-- `BuildREMB`; too many SSRCs are not taken. -/
def buildREMB (s : RtcpSender) : RtcpSender × List SimplePacket :=
  if h : s.rembSsrcs.length ≤ 0xff then
    (s, [.remb ⟨s.localSsrc, 0, s.rembBitrate, s.rembSsrcs, h⟩])
  else (s, [.remb ⟨s.localSsrc, 0, s.rembBitrate, [], by decide⟩])

/-- `BuildLossNotification`. -/
def buildLossNotification (s : RtcpSender) : RtcpSender × List SimplePacket :=
  let s := { s with lossNotification :=
    { s.lossNotification with senderSsrc := s.localSsrc, mediaSsrc := s.remoteSsrc } }
  (s, [.lossNotification s.lossNotification])

/-- `BuildNACK`. -/
def buildNACK (s : RtcpSender) (ctx : RtcpContext) : RtcpSender × List SimplePacket :=
  let nack : Nack := ⟨s.localSsrc, s.remoteSsrc, [], []⟩
  (s, [.nack (nack.setPacketIds ctx.nackList)])

/-- `BuildBYE`; too many CSRCs are not taken. -/
def buildBYE (s : RtcpSender) : List SimplePacket :=
  let bye : Bye := ⟨s.localSsrc, [], [], Nat.zero_le _, by decide⟩
  [.bye ((bye.setCsrcs s.csrcs).getD bye)]

/-- `ExtendedReports::kMaxNumberOfDlrrTimeInfos`. -/
def kMaxNumberOfDlrrTimeInfos : Nat := 50

/-- `BuildExtendedReports`. -/
def buildExtendedReports (s : RtcpSender) (ctx : RtcpContext) : List SimplePacket :=
  [.extendedReports
    { senderSsrc := s.localSsrc
      rrtrBlock := if s.sending then none else some ⟨ctx.nowNtp⟩
      dlrrBlock := ⟨ctx.lastXrRtis.take kMaxNumberOfDlrrTimeInfos⟩
      targetBitrate := none }]

/-- The builder of a type in `builders_`, called for a flag that is neither a BYE nor an XR
block; the last four types have none, and those of TMMBR and TMMBN do nothing. -/
def build (s : RtcpSender) (ctx : RtcpContext) :
    RtcpPacketType → RtcpSender × List SimplePacket
  | .sr => s.buildSR ctx
  | .rr => s.buildRR ctx
  | .sdes => s.buildSDES
  | .pli => s.buildPLI
  | .fir => s.buildFIR
  | .remb => s.buildREMB
  | .lossNotification => s.buildLossNotification
  | .nack => s.buildNACK ctx
  | .tmmbr | .tmmbn => (s, [])
  | .bye | .xrReceiverReferenceTime | .xrDlrrReportBlock | .xrTargetBitrate => (s, [])
  | .rtcpReport | .srRequest | .transmissionTimeOffset | .transportFeedback => (s, [])

/-! ## Compound packets -/

/-- The part of `BuildCompoundRtcpPacket` for a sender that has sent no media; `true` is an
early return. -/
def withholdReport (s : RtcpSender) : RtcpSender × Bool :=
  let (s, consumedSrFlag) := s.consumeFlag .sr false
  let (s, consumedReportFlag) := if s.sending then s.consumeFlag .rtcpReport false else (s, false)
  let senderReport := consumedReportFlag || consumedSrFlag
  if senderReport && s.allVolatileFlagsConsumed then (s, true)
  else if s.sending && s.rtcpMode == .compound then (s, true)
  else (s, false)

/-- The choice of a report in `PrepareReport`, with `generate_report`. -/
def chooseReport (s : RtcpSender) : RtcpSender × Bool :=
  if s.isFlagPresent .sr || s.isFlagPresent .rr then (s, true)
  else
    let (s, consumed) := s.consumeFlag .rtcpReport false
    if (consumed && s.rtcpMode == .reducedSize) || s.rtcpMode == .compound then
      (s.setFlag (if s.sending then .sr else .rr) true, true)
    else (s, false)

/-- What `PrepareReport` adds to a report. -/
def accompanyReport (s : RtcpSender) (ctx : RtcpContext) (generateReport : Bool) : RtcpSender :=
  let s :=
    if !s.isFlagPresent .sdes &&
        (s.isFlagPresent .sr || (s.isFlagPresent .rr && !s.cname.isEmpty)) then
      s.setFlag .sdes true
    else s
  if generateReport then
    let s := if s.sending then s else s.setFlag .xrReceiverReferenceTime true
    if ctx.lastXrRtis.isEmpty then s else s.setFlag .xrDlrrReportBlock true
  else s

/-- `min_interval`. -/
def minIntervalMs (s : RtcpSender) (ctx : RtcpContext) : Int :=
  if !s.audio && s.sending && ctx.sendBitrateKbps != 0 then
    min ((360000 : Int).tdiv ctx.sendBitrateKbps) s.reportIntervalMs
  else s.reportIntervalMs

/-- `delay_to_next`. -/
def delayToNextMs (s : RtcpSender) (ctx : RtcpContext) : Int :=
  ctx.random ((s.minIntervalMs ctx * 1).tdiv 2) ((s.minIntervalMs ctx * 3).tdiv 2)

/-- `PrepareReport(ctx)`; `none` is a failed assertion, in a build with assertions.  The
first assertion consumes a flag only where it fails. -/
def prepareReport (asserts : Bool) (s : RtcpSender) (ctx : RtcpContext) : Option RtcpSender :=
  if asserts && (s.isFlagPresent .sr || s.isFlagPresent .rr) && s.isFlagPresent .rtcpReport then
    none
  else
    let (s, generateReport) := s.chooseReport
    let s := s.accompanyReport ctx generateReport
    if s.delayToNextMs ctx = 0 then some s
    else
      let s := s.scheduleForNextRtcpSend ctx.nowMs (s.delayToNextMs ctx)
      if asserts && s.isFlagPresent .sr && s.isFlagPresent .rr then none else some s

/-- The loop over the flags, with the packets appended. -/
def buildAll (ctx : RtcpContext) : RtcpSender → List RtcpPacketType → RtcpSender × List SimplePacket
  | s, [] => (s, [])
  | s, type :: types =>
    let (s, packets) := s.build ctx type
    let (s, more) := buildAll ctx s types
    (s, packets ++ more)

/-- `rtcp_packet_type` of an XR block. -/
def isXr : RtcpPacketType → Bool
  | .xrReceiverReferenceTime | .xrDlrrReportBlock | .xrTargetBitrate => true
  | _ => false

/-- The loop over the flags and what follows it: the XR blocks in one packet, and the BYE at
the end. -/
def buildFlags (s : RtcpSender) (ctx : RtcpContext) : RtcpSender × List SimplePacket :=
  let types := s.reportFlags.flags.map ReportFlag.type
  let (s, packets) := buildAll ctx { s with reportFlags := s.reportFlags.eraseVolatile } types
  let xr := if types.any isXr then s.buildExtendedReports ctx else []
  let bye := if .bye ∈ types then s.buildBYE else []
  (s, packets ++ xr ++ bye)

/-- `BuildCompoundRtcpPacket(..)`: the sender, the result and the packets; `none` is a failed
assertion. -/
def buildCompoundRtcpPacket (asserts : Bool) (s : RtcpSender) (type : RtcpPacketType)
    (nackList : List U16) (providers : Providers) :
    Option (RtcpSender × Bool × List SimplePacket) :=
  if s.rtcpMode = .off then some (s, false, [])
  else
    let s := s.setFlag type true
    let (s, returned) := if s.lastFrameCaptureTimeMs.isSome then (s, false) else s.withholdReport
    if returned then some (s, false, [])
    else
      let ctx : RtcpContext := { providers with nackList := nackList }
      match s.prepareReport asserts ctx with
      | none => none
      | some s =>
        let (s, packets) := s.buildFlags ctx
        if asserts && !s.allVolatileFlagsConsumed then none else some (s, true, packets)

/-! ## Public methods -/

/-- What a call does: the sender after it, its result, and the packets it sends. -/
abbrev Outcome := RtcpSender × Bool × List SimplePacket

/-- `SendRtcp(packet_type, nack_list, nack_size)`. -/
def sendRtcp (asserts : Bool) (s : RtcpSender) (type : RtcpPacketType) (nackList : List U16)
    (providers : Providers) : Option Outcome :=
  s.buildCompoundRtcpPacket asserts type nackList providers

/-- `loss_notification_.Set(..)`; `none` is `false`. -/
def setLossNotification (s : RtcpSender) (lastDecoded lastReceived : U16)
    (decodabilityFlag : Bool) : Option RtcpSender :=
  if 0x7fff < (lastReceived - lastDecoded).toNat then none
  else some { s with lossNotification :=
    { s.lossNotification with
      lastDecoded := lastDecoded, lastReceived := lastReceived
      decodabilityFlag := decodabilityFlag } }

/-- `SendLossNotification(..)`. -/
def sendLossNotification (asserts : Bool) (s : RtcpSender) (lastDecoded lastReceived : U16)
    (decodabilityFlag bufferingAllowed : Bool) (providers : Providers) : Option Outcome :=
  match s.setLossNotification lastDecoded lastReceived decodabilityFlag with
  | none => some (s, false, [])
  | some s =>
    let s := s.setFlag .lossNotification true
    if bufferingAllowed then some (s, true, [])
    else s.buildCompoundRtcpPacket asserts .lossNotification [] providers

/-- `SetRemb(bitrate_bps, ssrcs)`. -/
def setRemb (s : RtcpSender) (bitrateBps : Int) (ssrcs : List U32) (nowMs : Int) : RtcpSender :=
  let s := { s with rembBitrate := bitrateBps, rembSsrcs := ssrcs }
  (s.setFlag .remb false).scheduleForNextRtcpSend nowMs 0

/-- `UnsetRemb()`. -/
def unsetRemb (s : RtcpSender) : RtcpSender := (s.consumeFlag .remb true).1

/-- `set_sending(enable)`. -/
def setSending (asserts : Bool) (s : RtcpSender) (enable : Bool) (providers : Providers) :
    Option Outcome :=
  let sendRtcpBye := s.rtcpMode != .off && !enable && s.sending
  let s := { s with sending := enable }
  if sendRtcpBye then s.sendRtcp asserts .bye [] providers else some (s, true, [])

/-- `set_rtcp_mode(mode)`. -/
def setRtcpMode (s : RtcpSender) (mode : RtcpMode) (nowMs : Int) : RtcpSender :=
  let s :=
    if mode = .off then { s with nextTimeToSendRtcpMs := none }
    else if s.rtcpMode = .off then s.scheduleForNextRtcpSend nowMs (s.reportIntervalMs.tdiv 2)
    else s
  { s with rtcpMode := mode }

/-- `SetLastRtpTime(rtp_timestamp, capture_time_ms, rtp_payload_type)`. -/
def setLastRtpTime (s : RtcpSender) (rtpTimestamp : U32) (captureTimeMs : Option Int)
    (rtpPayloadType : Option Int) (nowMs : Int) : RtcpSender :=
  { s with
    lastRtpPayloadType := rtpPayloadType.getD s.lastRtpPayloadType
    lastRtpTimestamp := rtpTimestamp
    lastFrameCaptureTimeMs := some (captureTimeMs.getD nowMs) }

/-- `kRtcpCNameSize`. -/
def kRtcpCNameSize : Nat := 256

/-- The public methods, with their arguments; `set_cname` asserts that the name is short
enough. -/
inductive Call where
  | sendRtcp (type : RtcpPacketType) (nackList : List U16) (providers : Providers)
  | sendLossNotification (lastDecoded lastReceived : U16) (decodabilityFlag bufferingAllowed : Bool)
      (providers : Providers)
  | setRemb (bitrateBps : Int) (ssrcs : List U32) (nowMs : Int)
  | unsetRemb
  | setSending (enable : Bool) (providers : Providers)
  | setRtcpMode (mode : RtcpMode) (nowMs : Int)
  | setLastRtpTime (rtpTimestamp : U32) (captureTimeMs rtpPayloadType : Option Int) (nowMs : Int)
  | setRemoteSsrc (ssrc : U32)
  | setCname (cname : List UInt8) (cname_lt : cname.length < kRtcpCNameSize)
  | setCsrcs (csrcs : List U32)
  | setRtpClockRate (rtpPayloadType rtpClockRateHz : Int)

/-- One call. -/
def call (asserts : Bool) (s : RtcpSender) : Call → Option Outcome
  | .sendRtcp type nackList providers => s.sendRtcp asserts type nackList providers
  | .sendLossNotification lastDecoded lastReceived decodabilityFlag bufferingAllowed providers =>
    s.sendLossNotification asserts lastDecoded lastReceived decodabilityFlag bufferingAllowed
      providers
  | .setRemb bitrateBps ssrcs nowMs => some (s.setRemb bitrateBps ssrcs nowMs, true, [])
  | .unsetRemb => some (s.unsetRemb, true, [])
  | .setSending enable providers => s.setSending asserts enable providers
  | .setRtcpMode mode nowMs => some (s.setRtcpMode mode nowMs, true, [])
  | .setLastRtpTime rtpTimestamp captureTimeMs rtpPayloadType nowMs =>
    some (s.setLastRtpTime rtpTimestamp captureTimeMs rtpPayloadType nowMs, true, [])
  | .setRemoteSsrc ssrc => some ({ s with remoteSsrc := ssrc }, true, [])
  | .setCname cname _ => some ({ s with cname := cname }, true, [])
  | .setCsrcs csrcs => some ({ s with csrcs := csrcs }, true, [])
  | .setRtpClockRate rtpPayloadType rtpClockRateHz =>
    some ({ s with
      rtpClockRatesKhz := (rtpPayloadType, rtpClockRateHz.tdiv 1000) :: s.rtpClockRatesKhz },
      true, [])

/-- The sender as a machine.  After a failed assertion there is no sender, and nothing
happens any more; the output of a step is the outcome of the call. -/
def machine (asserts : Bool) : Machine (Option RtcpSender) Call (Option Outcome) where
  step s c :=
    let outcome := s.bind fun s => s.call asserts c
    (outcome.map Prod.fst, outcome)

end RtcpSender

end NaiveRtc.Rtcp
