import NaiveRtc.Base.Units
import NaiveRtc.Lib.Machine
import Mathlib.Data.List.DropRight

/-!
# The bounds of the send side bandwidth estimation

The model of `rtc/congestion_control/send_side/goog_cc/send_side_bwe.cpp`: one current rate
that six paths write, between limits that change at run time.

* `SendSideBwe`, `updateEstimate`, the `on…` methods — the class.  What its loss estimators
  answer is an input of the call; the link capacity tracker, which only listens, is left
  out.
* `le_curr_of_updated` — every path that updates the rate ends above the minimum.
* `bounds_of_respects` — both bounds hold throughout a run whose calls respect the limits.
-/

namespace NaiveRtc.CongestionControl

/-- `DataRate`: bits per second in an `int64_t` whose two ends stand for the infinities. -/
abbrev DataRate := Int

namespace DataRate

/-- `DataRate::PlusInfinity()`. -/
def plusInfinity : DataRate := 2 ^ 63 - 1

/-- `DataRate::MinusInfinity()`. -/
def minusInfinity : DataRate := -2 ^ 63

/-- `IsFinite()`. -/
def isFinite (rate : DataRate) : Bool := rate != plusInfinity && rate != minusInfinity

end DataRate

/-- The minimum while none is given. -/
def kDefaultMinBitrate : DataRate := 5000

/-- The maximum while none is given. -/
def kDefaultMaxBitrate : DataRate := 1000000000

/-- The window of `min_bitrate_history_`. -/
def kBweIncreaseInterval : TimeDelta := .micros 1000000

/-- The start phase lasts so long from the first report on. -/
def kStartPhase : TimeDelta := .micros 2000000

/-! ## The components -/

/-- `RttBasedBackoff`. -/
structure RttBasedBackoff where
  lastRtt : TimeDelta
  timeLastRttUpdate : Timestamp
  timeLastPacketSent : Timestamp
  deriving DecidableEq

namespace RttBasedBackoff

/-- `RttBasedBackoff()`. -/
def create : RttBasedBackoff := ⟨.micros 0, .plusInfinity, .minusInfinity⟩

/-- `CorrectedRtt(at_time)`. -/
def correctedRtt (b : RttBasedBackoff) (atTime : Timestamp) : TimeDelta :=
  let timeSinceRttUpdated := atTime.sub b.timeLastRttUpdate
  let timeSincePacketSent := atTime.sub b.timeLastPacketSent
  ((timeSinceRttUpdated.sub timeSincePacketSent).max (.micros 0)).add b.lastRtt

end RttBasedBackoff

/-- `RateControlState`. -/
inductive RateControlState
  | hold
  | increase
  | decrease
  deriving DecidableEq

/-- What the two loss estimators answer during a call: `fraction_loss()`, `InUse()`, and
`Estimate(..)` of the one fed by packet feedbacks and of the one fed by reports. -/
structure LossEstimates where
  fractionLoss : UInt8
  inUse : Bool
  feedbackEstimate : DataRate → DataRate → TimeDelta → Timestamp → DataRate
  reportEstimate : DataRate → DataRate → TimeDelta → Timestamp → DataRate × RateControlState

/-! ## The class -/

/-- `SendSideBwe::Configuration`; `dropped` is the product with `drop_factor`, a `double`. -/
structure SendSideBwe.Configuration where
  enableLossFeedbackBasedControl : Bool
  rttLimit : TimeDelta
  dropped : DataRate → DataRate
  dropInterval : TimeDelta
  bandwidthFloor : DataRate

/-- The default configuration, with a drop factor of 0.8 taken exactly. -/
def SendSideBwe.Configuration.default : SendSideBwe.Configuration :=
  { enableLossFeedbackBasedControl := true
    rttLimit := .micros 3000000
    dropped := fun rate => (8 * rate + 5) / 10
    dropInterval := .micros 1000000
    bandwidthFloor := 5000 }

/-- `SendSideBwe`. -/
structure SendSideBwe where
  currBitrate : DataRate
  minConfiguredBitrate : DataRate
  maxConfiguredBitrate : DataRate
  lastRtt : TimeDelta
  rembLimit : DataRate
  useRembAsLimitCap : Bool
  delayBasedLimit : DataRate
  timeFirstReport : Timestamp
  timeLastDecrease : Timestamp
  minBitrateHistory : List (Timestamp × DataRate)
  rttBackoff : RttBasedBackoff
  deriving DecidableEq

namespace SendSideBwe

/-- `SendSideBwe(config)`. -/
def create : SendSideBwe :=
  { currBitrate := 0
    minConfiguredBitrate := kDefaultMinBitrate
    maxConfiguredBitrate := kDefaultMaxBitrate
    lastRtt := .micros 0
    rembLimit := DataRate.plusInfinity
    useRembAsLimitCap := false
    delayBasedLimit := DataRate.plusInfinity
    timeFirstReport := .minusInfinity
    timeLastDecrease := .minusInfinity
    minBitrateHistory := []
    rttBackoff := RttBasedBackoff.create }

/-- `Clamp(bitrate)`. -/
def clamp (s : SendSideBwe) (bitrate : DataRate) : DataRate :=
  let bitrate := if s.useRembAsLimitCap && s.rembLimit.isFinite then min bitrate s.rembLimit
    else bitrate
  min bitrate s.maxConfiguredBitrate

/-- `target_bitate()`. -/
def targetBitate (s : SendSideBwe) : DataRate := s.clamp s.currBitrate

/-- `GetUpperLimit()`. -/
def getUpperLimit (s : SendSideBwe) : DataRate := s.clamp s.delayBasedLimit

/-- `UpdateTargetBitrate(new_bitrate, at_time)`. -/
def updateTargetBitrate (s : SendSideBwe) (newBitrate : DataRate) : SendSideBwe :=
  let newBitrate := min newBitrate s.getUpperLimit
  let newBitrate := if newBitrate < s.minConfiguredBitrate then s.minConfiguredBitrate
    else newBitrate
  { s with currBitrate := newBitrate }

/-- `ApplyLimits(report_time)`. -/
def applyLimits (s : SendSideBwe) : SendSideBwe := s.updateTargetBitrate s.currBitrate

/-- `IsInStartPhase(report_time)`. -/
def isInStartPhase (s : SendSideBwe) (reportTime : Timestamp) : Bool :=
  s.timeFirstReport.isInfinite || (reportTime.sub s.timeFirstReport).lt kStartPhase

/-- `UpdateMinHistory(bitrate, report_time)`: what is too old leaves at the front, what is no
minimum any more at the back. -/
def updateMinHistory (s : SendSideBwe) (bitrate : DataRate) (reportTime : Timestamp) :
    SendSideBwe :=
  let percisionCorrection : TimeDelta := .micros 1000
  let history := s.minBitrateHistory.dropWhile fun entry =>
    kBweIncreaseInterval.lt ((reportTime.sub entry.1).add percisionCorrection)
  let history := history.rdropWhile fun entry => bitrate ≤ entry.2
  { s with minBitrateHistory := history ++ [(reportTime, bitrate)] }

/-- `SetMinMaxBitrate(min_bitrate, max_bitrate)`. -/
def setMinMaxBitrate (s : SendSideBwe) (minBitrate maxBitrate : DataRate) : SendSideBwe :=
  { s with
    minConfiguredBitrate := max minBitrate kDefaultMinBitrate
    maxConfiguredBitrate :=
      if 0 < s.maxConfiguredBitrate ∧ maxBitrate.isFinite = true then
        max s.maxConfiguredBitrate maxBitrate
      else kDefaultMaxBitrate }

/-! The public methods that may call `UpdateTargetBitrate` also say whether they did. -/

/-- `OnSendBitrate(bitrate, report_time)`. -/
def onSendBitrate (s : SendSideBwe) (bitrate : DataRate) : SendSideBwe × Bool :=
  if 0 < bitrate then
    -- reset, not to be capped by the estimate
    let s := { s with delayBasedLimit := DataRate.plusInfinity }
    let s := s.updateTargetBitrate bitrate
    ({ s with minBitrateHistory := [] }, true)
  else (s, false)

/-- `OnBitrates(send_bitrate, min_bitrate, max_bitrate, report_time)`. -/
def onBitrates (s : SendSideBwe) (sendBitrate : Option DataRate)
    (minBitrate maxBitrate : DataRate) : SendSideBwe × Bool :=
  let (s, updated) := match sendBitrate with
    | some bitrate => s.onSendBitrate bitrate
    | none => (s, false)
  (s.setMinMaxBitrate minBitrate maxBitrate, updated)

/-- `OnDelayBasedBitrate(bitrate, report_time)`. -/
def onDelayBasedBitrate (s : SendSideBwe) (bitrate : DataRate) : SendSideBwe × Bool :=
  let s := { s with delayBasedLimit := if bitrate = 0 then DataRate.plusInfinity else bitrate }
  (s.applyLimits, true)

/-- `OnRemb(bitrate, report_time)`. -/
def onRemb (s : SendSideBwe) (bitrate : DataRate) : SendSideBwe × Bool :=
  let s := { s with rembLimit := if bitrate = 0 then DataRate.plusInfinity else bitrate }
  (s.applyLimits, true)

/-- `OnRtt(rtt, report_time)`. -/
def onRtt (s : SendSideBwe) (rtt : TimeDelta) : SendSideBwe :=
  if (UnitValue.micros 0).lt rtt then { s with lastRtt := rtt } else s

/-- The loss estimators at the end of `UpdateEstimate`. -/
def updateByLoss (s : SendSideBwe) (loss : LossEstimates) (reportTime : Timestamp) :
    SendSideBwe × Bool :=
  let s := s.updateMinHistory s.currBitrate reportTime
  let minBitrate := ((s.minBitrateHistory.head?).map Prod.snd).getD s.currBitrate
  -- the source asks the first estimator also when it was not enabled
  if loss.inUse then
    let newBitrate := loss.feedbackEstimate minBitrate s.delayBasedLimit s.lastRtt reportTime
    (s.updateTargetBitrate newBitrate, true)
  else
    let (newBitrate, state) := loss.reportEstimate minBitrate s.currBitrate s.lastRtt reportTime
    let s := s.updateTargetBitrate newBitrate
    (if state = .decrease then { s with timeLastDecrease := reportTime } else s, true)

/-- `UpdateEstimate(report_time)`. -/
def updateEstimate (config : Configuration) (s : SendSideBwe) (loss : LossEstimates)
    (reportTime : Timestamp) : SendSideBwe × Bool :=
  if config.rttLimit.lt (s.rttBackoff.correctedRtt reportTime) then
    if (reportTime.sub s.timeLastDecrease).lt config.dropInterval = false ∧
        config.bandwidthFloor < s.currBitrate then
      let s := { s with timeLastDecrease := reportTime }
      let newBitrate := max (config.dropped s.currBitrate) config.bandwidthFloor
      (s.updateTargetBitrate newBitrate, true)
    else (s, false)
  else if loss.fractionLoss = 0 ∧ s.isInStartPhase reportTime = true then
    let newBitrate := s.currBitrate
    let newBitrate := if s.rembLimit.isFinite then max s.rembLimit newBitrate else newBitrate
    let newBitrate := if s.delayBasedLimit.isFinite then max s.delayBasedLimit newBitrate
      else newBitrate
    if newBitrate ≠ s.currBitrate then
      let minBitrate := if config.enableLossFeedbackBasedControl then newBitrate else s.currBitrate
      let s := { s with minBitrateHistory := [(reportTime, minBitrate)] }
      (s.updateTargetBitrate newBitrate, true)
    else s.updateByLoss loss reportTime
  else s.updateByLoss loss reportTime

/-- `OnPacketsLostReport(num_packets_lost, num_packets, report_time)`; the number lost only goes
to the estimator. -/
def onPacketsLostReport (config : Configuration) (s : SendSideBwe) (numPackets : Int)
    (loss : LossEstimates) (reportTime : Timestamp) : SendSideBwe × Bool :=
  let s := if s.timeFirstReport.isInfinite then { s with timeFirstReport := reportTime } else s
  if 0 < numPackets then s.updateEstimate config loss reportTime else (s, false)

/-- A call of a public method.  `OnAcknowledgedBitrate` and `IncomingPacketFeedbacks` only
reach the components that are left out. -/
inductive Call
  | onBitrates (sendBitrate : Option DataRate) (minBitrate maxBitrate : DataRate)
  | onSendBitrate (bitrate : DataRate)
  | onDelayBasedBitrate (bitrate : DataRate)
  | onAcknowledgedBitrate (ackBitrate : Option DataRate)
  | onPropagationRtt (rtt : TimeDelta) (reportTime : Timestamp)
  | onSentPacket (sendTime : Timestamp)
  | onRemb (bitrate : DataRate)
  | onPacketsLostReport (numPackets : Int) (loss : LossEstimates) (reportTime : Timestamp)
  | onRtt (rtt : TimeDelta)
  | incomingPacketFeedbacks
  | updateEstimate (loss : LossEstimates) (reportTime : Timestamp)
  | setMinMaxBitrate (minBitrate maxBitrate : DataRate)

end SendSideBwe

open SendSideBwe

/-- An estimation and the calls made on it; the output says whether the call updated the
target. -/
def bweMachine (config : Configuration) : Machine SendSideBwe Call Bool where
  step s
    | .onBitrates sendBitrate minBitrate maxBitrate =>
      s.onBitrates sendBitrate minBitrate maxBitrate
    | .onSendBitrate bitrate => s.onSendBitrate bitrate
    | .onDelayBasedBitrate bitrate => s.onDelayBasedBitrate bitrate
    | .onAcknowledgedBitrate _ => (s, false)
    | .onPropagationRtt rtt reportTime =>
      ({ s with rttBackoff :=
        { s.rttBackoff with lastRtt := rtt, timeLastRttUpdate := reportTime } }, false)
    | .onSentPacket sendTime =>
      ({ s with rttBackoff := { s.rttBackoff with timeLastPacketSent := sendTime } }, false)
    | .onRemb bitrate => s.onRemb bitrate
    | .onPacketsLostReport numPackets loss reportTime =>
      s.onPacketsLostReport config numPackets loss reportTime
    | .onRtt rtt => (s.onRtt rtt, false)
    | .incomingPacketFeedbacks => (s, false)
    | .updateEstimate loss reportTime => s.updateEstimate config loss reportTime
    | .setMinMaxBitrate minBitrate maxBitrate => (s.setMinMaxBitrate minBitrate maxBitrate, false)

/-! ## The two bounds -/

/-- The maximum a call gives. -/
def SendSideBwe.Call.maxGiven : Call → Option DataRate
  | .onBitrates _ _ maxBitrate => some maxBitrate
  | _ => none

/-- The maximum given by the last `OnBitrates` of some calls. -/
def lastMax (calls : List Call) : Option DataRate :=
  calls.foldl (fun last call => call.maxGiven.or last) none

/-- `OnBitrates` is given finite limits, the minimum not above the maximum, and its send bitrate
is an `int64_t`. -/
def SendSideBwe.Call.Proper : Call → Prop
  | .onBitrates sendBitrate minBitrate maxBitrate =>
    (∀ bitrate, sendBitrate = some bitrate → bitrate ≤ DataRate.plusInfinity) ∧
      minBitrate.isFinite = true ∧ maxBitrate.isFinite = true ∧ minBitrate ≤ maxBitrate
  | _ => True

/-- The call respects the limits, after the calls `done` that led to `s`: `OnBitrates` gives a
maximum that is not below the configured one, and with a send bitrate no minimum above what the
old limits make of it; `SetMinMaxBitrate` gives no maximum above the last one. -/
def Respects (done : List Call) (s : SendSideBwe) : Call → Prop
  | .onBitrates sendBitrate minBitrate maxBitrate =>
    s.maxConfiguredBitrate ≤ maxBitrate ∧
      ∀ bitrate, sendBitrate = some bitrate → 0 < bitrate →
        max minBitrate kDefaultMinBitrate ≤
          max (min bitrate s.maxConfiguredBitrate) s.minConfiguredBitrate
  | .setMinMaxBitrate _ maxBitrate =>
    ∀ last, lastMax done = some last → maxBitrate.isFinite = true → maxBitrate ≤ last
  | _ => True

theorem lastMax_concat (done : List Call) (call : Call) :
    lastMax (done ++ [call]) = call.maxGiven.or (lastMax done) := by
  simp [lastMax, List.foldl_append]

/-- The limits stay as they are. -/
structure SameLimits (s s' : SendSideBwe) : Prop where
  minConfiguredBitrate : s'.minConfiguredBitrate = s.minConfiguredBitrate
  maxConfiguredBitrate : s'.maxConfiguredBitrate = s.maxConfiguredBitrate
  useRembAsLimitCap : s'.useRembAsLimitCap = s.useRembAsLimitCap

theorem SameLimits.refl (s : SendSideBwe) : SameLimits s s := ⟨rfl, rfl, rfl⟩

theorem SameLimits.trans {s s' s'' : SendSideBwe} (h : SameLimits s s') (h' : SameLimits s' s'') :
    SameLimits s s'' :=
  ⟨h'.1.trans h.1, h'.2.trans h.2, h'.3.trans h.3⟩

variable {s s' : SendSideBwe}

theorem updateTargetBitrate_curr (s : SendSideBwe) (bitrate : DataRate) :
    (s.updateTargetBitrate bitrate).currBitrate =
      max (min bitrate s.getUpperLimit) s.minConfiguredBitrate := by
  unfold updateTargetBitrate
  dsimp only
  split_ifs with hlow
  · exact (max_eq_right (le_of_lt hlow)).symm
  · exact (max_eq_left (not_lt.1 hlow)).symm

/-- What a method did that sets no limits: it kept them, and if it updated the target the
current rate is not below the minimum. -/
structure Updates (s : SendSideBwe) (r : SendSideBwe × Bool) : Prop where
  same : SameLimits s r.1
  le_curr : r.2 = true → r.1.minConfiguredBitrate ≤ r.1.currBitrate

theorem Updates.none (h : SameLimits s s') : Updates s (s', false) :=
  ⟨h, fun h' => absurd h' Bool.false_ne_true⟩

theorem le_curr_of_updated (h : SameLimits s s') (bitrate : DataRate) :
    Updates s (s'.updateTargetBitrate bitrate, true) := by
  refine ⟨h.trans ⟨rfl, rfl, rfl⟩, fun _ => ?_⟩
  rw [updateTargetBitrate_curr]
  exact le_max_right _ _

theorem updates_onSendBitrate (s : SendSideBwe) (bitrate : DataRate) :
    Updates s (s.onSendBitrate bitrate) := by
  unfold onSendBitrate
  by_cases hpos : 0 < bitrate
  · rw [if_pos hpos]
    have hreset : SameLimits s { s with delayBasedLimit := DataRate.plusInfinity } :=
      ⟨rfl, rfl, rfl⟩
    obtain ⟨hsame, hle⟩ := le_curr_of_updated hreset bitrate
    exact ⟨hsame.trans ⟨rfl, rfl, rfl⟩, hle⟩
  · rw [if_neg hpos]
    exact Updates.none (SameLimits.refl s)

theorem updates_updateByLoss (s : SendSideBwe) (loss : LossEstimates) (reportTime : Timestamp) :
    Updates s (s.updateByLoss loss reportTime) := by
  have hhistory : SameLimits s (s.updateMinHistory s.currBitrate reportTime) := ⟨rfl, rfl, rfl⟩
  unfold updateByLoss
  dsimp only
  cases loss.inUse with
  | true => exact le_curr_of_updated hhistory _
  | false =>
    rw [if_neg Bool.false_ne_true]
    obtain ⟨hsame, hle⟩ := le_curr_of_updated hhistory (loss.reportEstimate _ _ _ _).1
    split_ifs
    · exact ⟨hsame.trans ⟨rfl, rfl, rfl⟩, hle⟩
    · exact ⟨hsame, hle⟩

theorem updates_updateEstimate (config : Configuration) (s : SendSideBwe) (loss : LossEstimates)
    (reportTime : Timestamp) : Updates s (s.updateEstimate config loss reportTime) := by
  unfold updateEstimate
  dsimp only
  by_cases hrtt : config.rttLimit.lt (s.rttBackoff.correctedRtt reportTime) = true
  · rw [if_pos hrtt]
    split_ifs
    · refine le_curr_of_updated ?_ _
      exact ⟨rfl, rfl, rfl⟩
    · exact Updates.none (SameLimits.refl s)
  · rw [if_neg hrtt]
    by_cases hstart : loss.fractionLoss = 0 ∧ s.isInStartPhase reportTime = true
    · rw [if_pos hstart]
      generalize (if s.delayBasedLimit.isFinite = true then _ else _) = newBitrate
      by_cases hnew : newBitrate ≠ s.currBitrate
      · rw [if_pos hnew]
        refine le_curr_of_updated ?_ _
        exact ⟨rfl, rfl, rfl⟩
      · rw [if_neg hnew]
        exact updates_updateByLoss s loss reportTime
    · rw [if_neg hstart]
      exact updates_updateByLoss s loss reportTime

/-- **Any call but the two that set limits** keeps them, and a target it updated is not below
the minimum. -/
theorem updates_step (config : Configuration) (s : SendSideBwe) {call : Call}
    (hcall : match call with
      | .onBitrates .. => False
      | .setMinMaxBitrate .. => False
      | _ => True) : Updates s ((bweMachine config).step s call) := by
  cases call with
  | onBitrates => exact hcall.elim
  | setMinMaxBitrate => exact hcall.elim
  | onSendBitrate bitrate => exact updates_onSendBitrate s bitrate
  | onDelayBasedBitrate bitrate =>
    refine le_curr_of_updated ?_ _
    exact ⟨rfl, rfl, rfl⟩
  | onRemb bitrate =>
    refine le_curr_of_updated ?_ _
    exact ⟨rfl, rfl, rfl⟩
  | onAcknowledgedBitrate ackBitrate => exact Updates.none (SameLimits.refl s)
  | incomingPacketFeedbacks => exact Updates.none (SameLimits.refl s)
  | onPropagationRtt rtt reportTime => exact Updates.none ⟨rfl, rfl, rfl⟩
  | onSentPacket sendTime => exact Updates.none ⟨rfl, rfl, rfl⟩
  | onRtt rtt =>
    refine Updates.none ?_
    unfold SendSideBwe.onRtt
    split_ifs <;> exact ⟨rfl, rfl, rfl⟩
  | updateEstimate loss reportTime => exact updates_updateEstimate config s loss reportTime
  | onPacketsLostReport numPackets loss reportTime =>
    show Updates s (s.onPacketsLostReport config numPackets loss reportTime)
    unfold SendSideBwe.onPacketsLostReport
    dsimp only
    have hfirst : SameLimits s (if s.timeFirstReport.isInfinite = true then
        { s with timeFirstReport := reportTime } else s) := by
      split_ifs <;> exact ⟨rfl, rfl, rfl⟩
    generalize (if s.timeFirstReport.isInfinite = true then _ else s) = first at hfirst ⊢
    by_cases hpackets : 0 < numPackets
    · rw [if_pos hpackets]
      obtain ⟨hsame, hle⟩ := updates_updateEstimate config first loss reportTime
      exact ⟨hfirst.trans hsame, hle⟩
    · rw [if_neg hpackets]
      exact Updates.none hfirst

/-! ## Runs -/

/-- The target does not exceed the maximum of the last `OnBitrates`. -/
def BelowMax (done : List Call) (s : SendSideBwe) : Prop :=
  ∀ last, lastMax done = some last → s.targetBitate ≤ last

/-- The target is not below the smaller of the two configured limits. -/
def AboveMin (s : SendSideBwe) : Prop :=
  min s.minConfiguredBitrate s.maxConfiguredBitrate ≤ s.targetBitate

/-- The invariant: the configured maximum is the last one given, or one below it. -/
structure Limited (done : List Call) (s : SendSideBwe) : Prop where
  noCap : s.useRembAsLimitCap = false
  default_le : kDefaultMaxBitrate ≤ s.maxConfiguredBitrate
  max_le : ∀ last, lastMax done = some last → s.maxConfiguredBitrate ≤ last

theorem clamp_eq (h : s.useRembAsLimitCap = false) (bitrate : DataRate) :
    s.clamp bitrate = min bitrate s.maxConfiguredBitrate := by
  unfold SendSideBwe.clamp
  rw [h, Bool.false_and, if_neg Bool.false_ne_true]

variable {done : List Call}

theorem Limited.belowMax (h : Limited done s) : BelowMax done s := by
  intro last hlast
  unfold targetBitate
  rw [clamp_eq h.noCap]
  exact le_trans (min_le_right _ _) (h.max_le last hlast)

theorem aboveMin_of_le (h : s.useRembAsLimitCap = false)
    (hle : s.minConfiguredBitrate ≤ s.currBitrate) : AboveMin s := by
  unfold AboveMin targetBitate
  rw [clamp_eq h]
  exact min_le_min_right _ hle

theorem Limited.same (h : Limited done s) (hsame : SameLimits s s') :
    Limited done s' :=
  ⟨hsame.3.trans h.noCap, hsame.2 ▸ h.default_le, fun last hlast => hsame.2 ▸ h.max_le last hlast⟩

theorem onSendBitrate_curr (hcap : s.useRembAsLimitCap = false) {bitrate : DataRate}
    (hpos : 0 < bitrate) (hle : bitrate ≤ DataRate.plusInfinity) :
    (s.onSendBitrate bitrate).1.currBitrate =
      max (min bitrate s.maxConfiguredBitrate) s.minConfiguredBitrate := by
  have hupper : ({ s with delayBasedLimit := DataRate.plusInfinity } : SendSideBwe).getUpperLimit =
      min DataRate.plusInfinity s.maxConfiguredBitrate := clamp_eq hcap _
  unfold onSendBitrate
  rw [if_pos hpos]
  dsimp only
  rw [updateTargetBitrate_curr, hupper, ← min_assoc, min_eq_left hle]

theorem setMinMaxBitrate_max (hdefault : kDefaultMaxBitrate ≤ s.maxConfiguredBitrate)
    (minBitrate : DataRate) {maxBitrate : DataRate} (hfinite : maxBitrate.isFinite = true) :
    (s.setMinMaxBitrate minBitrate maxBitrate).maxConfiguredBitrate =
      max s.maxConfiguredBitrate maxBitrate :=
  if_pos ⟨lt_of_lt_of_le (by decide) hdefault, hfinite⟩

theorem default_le_setMinMaxBitrate (hdefault : kDefaultMaxBitrate ≤ s.maxConfiguredBitrate)
    (minBitrate maxBitrate : DataRate) :
    kDefaultMaxBitrate ≤ (s.setMinMaxBitrate minBitrate maxBitrate).maxConfiguredBitrate := by
  unfold setMinMaxBitrate
  dsimp only
  split_ifs
  · exact le_trans hdefault (le_max_left _ _)
  · exact le_refl _

theorem updates_sendPart (s : SendSideBwe) (sendBitrate : Option DataRate) :
    Updates s (match sendBitrate with
      | some bitrate => s.onSendBitrate bitrate
      | none => (s, false)) := by
  cases sendBitrate with
  | none => exact Updates.none (SameLimits.refl s)
  | some bitrate => exact updates_onSendBitrate s bitrate

/-- **One call that respects the limits** keeps the configured maximum below the last one given,
and a target it updated is not below the minimum. -/
theorem limited_step (config : Configuration) {call : Call}
    (h : Limited done s) (hproper : call.Proper) (hrespects : Respects done s call) :
    Limited (done ++ [call]) ((bweMachine config).step s call).1 ∧
      (((bweMachine config).step s call).2 = true →
        AboveMin ((bweMachine config).step s call).1) := by
  have hother : call.maxGiven = none → Updates s ((bweMachine config).step s call) →
      Limited (done ++ [call]) ((bweMachine config).step s call).1 ∧
        (((bweMachine config).step s call).2 = true →
          AboveMin ((bweMachine config).step s call).1) := by
    rintro hnone ⟨hsame, hle⟩
    obtain ⟨hcap, hdefault, hmax⟩ := h.same hsame
    refine ⟨⟨hcap, hdefault, ?_⟩, fun hupdated => aboveMin_of_le hcap (hle hupdated)⟩
    rw [lastMax_concat, hnone, Option.none_or]
    exact hmax
  cases call with
  | onBitrates sendBitrate minBitrate maxBitrate =>
    obtain ⟨hint, -, hfinite, -⟩ := hproper
    obtain ⟨hmax, hmin⟩ := hrespects
    have hsend := (updates_sendPart s sendBitrate).same
    show Limited _ (s.onBitrates sendBitrate minBitrate maxBitrate).1 ∧
      ((s.onBitrates sendBitrate minBitrate maxBitrate).2 = true →
        AboveMin (s.onBitrates sendBitrate minBitrate maxBitrate).1)
    have hlimited := h.same hsend
    refine ⟨⟨hlimited.noCap, default_le_setMinMaxBitrate hlimited.default_le _ _, ?_⟩, ?_⟩
    · rw [lastMax_concat]
      rintro _ ⟨⟩
      refine (setMinMaxBitrate_max hlimited.default_le minBitrate hfinite).trans_le ?_
      rw [hsend.maxConfiguredBitrate]
      exact max_le hmax (le_refl _)
    · intro hupdated
      refine aboveMin_of_le hlimited.noCap ?_
      cases sendBitrate with
      | none => exact absurd hupdated Bool.false_ne_true
      | some bitrate =>
        by_cases hpos : 0 < bitrate
        · show max minBitrate kDefaultMinBitrate ≤ (s.onSendBitrate bitrate).1.currBitrate
          rw [onSendBitrate_curr h.noCap hpos (hint bitrate rfl)]
          exact hmin bitrate rfl hpos
        · have hskip : (s.onSendBitrate bitrate).2 = false := by
            unfold onSendBitrate
            rw [if_neg hpos]
          exact absurd (hskip.symm.trans hupdated) Bool.false_ne_true
  | setMinMaxBitrate minBitrate maxBitrate =>
    refine ⟨⟨h.noCap, default_le_setMinMaxBitrate h.default_le _ _, ?_⟩,
      fun hupdated => absurd hupdated Bool.false_ne_true⟩
    rw [lastMax_concat]
    intro last hlast
    have hold := h.max_le last hlast
    by_cases hfinite : maxBitrate.isFinite = true
    · refine (setMinMaxBitrate_max h.default_le minBitrate hfinite).trans_le ?_
      exact max_le hold (hrespects last hlast hfinite)
    · exact (if_neg fun hc => hfinite hc.2).trans_le (le_trans h.default_le hold)
  | _ => exact hother rfl (updates_step config s trivial)

theorem limited_create : Limited [] SendSideBwe.create :=
  ⟨rfl, le_refl _, fun _ hlast => by cases hlast⟩

/-- **The bounds of the target**, over every run whose calls respect the limits: it never
exceeds the maximum of the last `OnBitrates`, and every update leaves it at the minimum or
above. -/
theorem bounds_of_respects (config : Configuration) (calls : List Call)
    (hproper : ∀ call ∈ calls, call.Proper)
    (hrespects : ∀ done call, done ++ [call] <+: calls →
      Respects done ((bweMachine config).final SendSideBwe.create done) call) :
    (∀ done, done <+: calls →
        BelowMax done ((bweMachine config).final SendSideBwe.create done)) ∧
      ∀ done call, done ++ [call] <+: calls →
        ((bweMachine config).step ((bweMachine config).final SendSideBwe.create done) call).2 =
          true →
        AboveMin ((bweMachine config).final SendSideBwe.create (done ++ [call])) := by
  have hlimited : ∀ done, done <+: calls →
      Limited done ((bweMachine config).final SendSideBwe.create done) := by
    intro done
    induction done using List.reverseRecOn with
    | nil => exact fun _ => limited_create
    | append_singleton done call ih =>
      intro hpre
      have hcall : call ∈ calls := hpre.subset (by simp)
      rw [Machine.final_append]
      exact (limited_step config (ih ((List.prefix_append _ _).trans hpre)) (hproper call hcall)
        (hrespects done call hpre)).1
  refine ⟨fun done hpre => (hlimited done hpre).belowMax, fun done call hpre hupdated => ?_⟩
  have hcall : call ∈ calls := hpre.subset (by simp)
  rw [Machine.final_append]
  exact (limited_step config (hlimited done ((List.prefix_append _ _).trans hpre))
    (hproper call hcall) (hrespects done call hpre)).2 hupdated

/-- A start between 100 kbps and 2 Gbps. -/
theorem bounds_of_respects_start :
    let config := Configuration.default
    let calls := [Call.onBitrates (some 300000) 100000 2000000000]
    (∀ done, done <+: calls →
        BelowMax done ((bweMachine config).final SendSideBwe.create done)) ∧
      ∀ done call, done ++ [call] <+: calls →
        ((bweMachine config).step ((bweMachine config).final SendSideBwe.create done) call).2 =
          true →
        AboveMin ((bweMachine config).final SendSideBwe.create (done ++ [call])) := by
  intro config calls
  refine bounds_of_respects config calls ?_ ?_
  · intro call hcall
    rw [List.mem_singleton.1 hcall]
    refine ⟨?_, by decide, by decide, by decide⟩
    rintro _ ⟨⟩
    decide
  · intro done call hpre
    obtain ⟨rfl, hrest⟩ | ⟨first, rest, rfl, hpre'⟩ :
        (done = [] ∧ call = .onBitrates (some 300000) 100000 2000000000) ∨
          ∃ first rest, done = first :: rest ∧ rest ++ [call] <+: [] := by
      cases done with
      | nil => exact Or.inl ⟨rfl, (List.cons_prefix_cons.1 hpre).1⟩
      | cons first rest => exact Or.inr ⟨first, rest, rfl, (List.cons_prefix_cons.1 hpre).2⟩
    · rw [hrest]
      refine ⟨by decide, ?_⟩
      rintro _ ⟨⟩ _
      decide
    · exact absurd (List.prefix_nil.1 hpre') (by simp)

/-- **The limits given are not enforced**: a maximum below the initial 1 Gbps is ignored, and a
send bitrate given with a higher minimum stays below it. -/
theorem limits_ignored :
    (Call.onBitrates (some 2000000) 0 1000000).Proper ∧
      ¬ BelowMax [.onBitrates (some 2000000) 0 1000000]
        ((bweMachine Configuration.default).final SendSideBwe.create
          [.onBitrates (some 2000000) 0 1000000]) ∧
      ¬ AboveMin ((bweMachine Configuration.default).final SendSideBwe.create
        [.onBitrates (some 10000) 100000 2000000000]) := by
  refine ⟨⟨?_, by decide, by decide, by decide⟩, ?_, ?_⟩
  · rintro _ ⟨⟩
    decide
  · exact fun h => absurd (h 1000000 rfl) (by decide)
  · show ¬ (_ ≤ _)
    decide

end NaiveRtc.CongestionControl
