import NaiveRtc.CongestionControl.MidCallProbing

/-!
# Optionals that are read while they are empty

Two classes of `rtc/congestion_control/send_side/goog_cc` read optionals and the front of a
history.  `ProbeController` says itself where it reads its mid-call probing; for `SendSideBwe`
the methods that read are written once more, with a failure where nothing is there.

* `checkedBwe_step_error`, `checkedBwe_step_ok` — **a call fails exactly when it comes to the loss
  estimators without the one fed by feedbacks**; otherwise it is the step of `bweMachine`.
* `dereferences_iff` — which runs read nothing that is empty.
-/

namespace NaiveRtc.CongestionControl

/-- What `SendSideBwe` reads without a check. -/
inductive SendSideBwe.Fault
  /-- `min_bitrate_history_.front()` of an empty history. -/
  | emptyMinBitrateHistory
  /-- `loss_feedback_based_bwe_->InUse()` when it was not enabled. -/
  | emptyLossFeedbackBasedBwe
  deriving DecidableEq

namespace SendSideBwe

/-- The loss estimators at the end of `UpdateEstimate`. -/
def checkedUpdateByLoss (config : Configuration) (s : SendSideBwe) (loss : LossEstimates)
    (reportTime : Timestamp) : Except Fault (SendSideBwe × Bool) :=
  let s := s.updateMinHistory s.currBitrate reportTime
  match s.minBitrateHistory with
  | [] => .error .emptyMinBitrateHistory
  | (_, minBitrate) :: _ =>
    if config.enableLossFeedbackBasedControl = false then .error .emptyLossFeedbackBasedBwe
    else if loss.inUse then
      let newBitrate := loss.feedbackEstimate minBitrate s.delayBasedLimit s.lastRtt reportTime
      .ok (s.updateTargetBitrate newBitrate, true)
    else
      let (newBitrate, state) :=
        loss.reportEstimate minBitrate s.currBitrate s.lastRtt reportTime
      let s := s.updateTargetBitrate newBitrate
      .ok (if state = .decrease then { s with timeLastDecrease := reportTime } else s, true)

/-- The rate of the start phase in `UpdateEstimate`. -/
def startPhaseBitrate (s : SendSideBwe) : DataRate :=
  let newBitrate := s.currBitrate
  let newBitrate := if s.rembLimit.isFinite then max s.rembLimit newBitrate else newBitrate
  if s.delayBasedLimit.isFinite then max s.delayBasedLimit newBitrate else newBitrate

/-- `UpdateEstimate(report_time)`. -/
def checkedUpdateEstimate (config : Configuration) (s : SendSideBwe) (loss : LossEstimates)
    (reportTime : Timestamp) : Except Fault (SendSideBwe × Bool) :=
  if config.rttLimit.lt (s.rttBackoff.correctedRtt reportTime) then
    if (reportTime.sub s.timeLastDecrease).lt config.dropInterval = false ∧
        config.bandwidthFloor < s.currBitrate then
      let s := { s with timeLastDecrease := reportTime }
      let newBitrate := max (config.dropped s.currBitrate) config.bandwidthFloor
      .ok (s.updateTargetBitrate newBitrate, true)
    else .ok (s, false)
  else if loss.fractionLoss = 0 ∧ s.isInStartPhase reportTime = true then
    let newBitrate := s.startPhaseBitrate
    if newBitrate ≠ s.currBitrate then
      let minBitrate := if config.enableLossFeedbackBasedControl then newBitrate else s.currBitrate
      let s := { s with minBitrateHistory := [(reportTime, minBitrate)] }
      .ok (s.updateTargetBitrate newBitrate, true)
    else s.checkedUpdateByLoss config loss reportTime
  else s.checkedUpdateByLoss config loss reportTime

/-- The start of `OnPacketsLostReport`. -/
def storeFirstReport (s : SendSideBwe) (reportTime : Timestamp) : SendSideBwe :=
  if s.timeFirstReport.isInfinite then { s with timeFirstReport := reportTime } else s

/-- `OnPacketsLostReport(num_packets_lost, num_packets, report_time)`. -/
def checkedOnPacketsLostReport (config : Configuration) (s : SendSideBwe) (numPackets : Int)
    (loss : LossEstimates) (reportTime : Timestamp) : Except Fault (SendSideBwe × Bool) :=
  let s := s.storeFirstReport reportTime
  if 0 < numPackets then s.checkedUpdateEstimate config loss reportTime else .ok (s, false)

/-- An estimation and its calls, with the failures.  The other methods read no optional that
they have not checked. -/
def checkedBwe (config : Configuration) : CheckedMachine SendSideBwe Call Bool Fault where
  step s
    | .onPacketsLostReport numPackets loss reportTime =>
      s.checkedOnPacketsLostReport config numPackets loss reportTime
    | .updateEstimate loss reportTime => s.checkedUpdateEstimate config loss reportTime
    | call => .ok ((bweMachine config).step s call)

/-! ## One call -/

/-- `UpdateEstimate` comes to the loss estimators: the round trip time is not above its limit,
and no start phase without loss raises the rate. -/
def EstimatesByLoss (config : Configuration) (s : SendSideBwe) (loss : LossEstimates)
    (reportTime : Timestamp) : Prop :=
  config.rttLimit.lt (s.rttBackoff.correctedRtt reportTime) = false ∧
    (loss.fractionLoss = 0 → s.isInStartPhase reportTime = true →
      s.startPhaseBitrate = s.currBitrate)

/-- The call comes to the loss estimators. -/
def Call.EstimatesByLoss (config : Configuration) (s : SendSideBwe) : Call → Prop
  | .onPacketsLostReport numPackets loss reportTime =>
    0 < numPackets ∧ (s.storeFirstReport reportTime).EstimatesByLoss config loss reportTime
  | .updateEstimate loss reportTime => s.EstimatesByLoss config loss reportTime
  | _ => False

variable {config : Configuration} {s : SendSideBwe} {loss : LossEstimates} {reportTime : Timestamp}

theorem updateMinHistory_ne_nil (s : SendSideBwe) (bitrate : DataRate) (reportTime : Timestamp) :
    (s.updateMinHistory bitrate reportTime).minBitrateHistory ≠ [] := by
  simp [updateMinHistory]

theorem checkedUpdateByLoss_eq (config : Configuration) (s : SendSideBwe) (loss : LossEstimates)
    (reportTime : Timestamp) : s.checkedUpdateByLoss config loss reportTime =
      if config.enableLossFeedbackBasedControl then .ok (s.updateByLoss loss reportTime)
      else .error .emptyLossFeedbackBasedBwe := by
  have hne := updateMinHistory_ne_nil s s.currBitrate reportTime
  unfold checkedUpdateByLoss updateByLoss
  dsimp only
  cases hhistory : (s.updateMinHistory s.currBitrate reportTime).minBitrateHistory with
  | nil => exact absurd hhistory hne
  | cons entry rest =>
    cases config.enableLossFeedbackBasedControl with
    | false => rfl
    | true =>
      cases loss.inUse <;> rfl

theorem checkedUpdateEstimate_of_not (h : ¬ s.EstimatesByLoss config loss reportTime) :
    s.checkedUpdateEstimate config loss reportTime =
      .ok (s.updateEstimate config loss reportTime) := by
  unfold checkedUpdateEstimate updateEstimate
  by_cases hrtt : config.rttLimit.lt (s.rttBackoff.correctedRtt reportTime) = true
  · rw [if_pos hrtt, if_pos hrtt]
    split_ifs <;> rfl
  · rw [if_neg hrtt, if_neg hrtt]
    have hraised : (loss.fractionLoss = 0 ∧ s.isInStartPhase reportTime = true) ∧
        s.startPhaseBitrate ≠ s.currBitrate := by
      by_contra hnot
      refine h ⟨Bool.eq_false_iff.2 hrtt, fun hzero hphase => ?_⟩
      by_contra hne
      exact hnot ⟨⟨hzero, hphase⟩, hne⟩
    rw [if_pos hraised.1, if_pos hraised.1, if_pos hraised.2]
    exact (congrArg Except.ok (if_pos hraised.2)).symm

theorem updateEstimate_of_estimatesByLoss (h : s.EstimatesByLoss config loss reportTime) :
    s.checkedUpdateEstimate config loss reportTime =
        s.checkedUpdateByLoss config loss reportTime ∧
      s.updateEstimate config loss reportTime = s.updateByLoss loss reportTime := by
  obtain ⟨hrtt, hraised⟩ := h
  unfold checkedUpdateEstimate updateEstimate
  rw [hrtt, if_neg Bool.false_ne_true, if_neg Bool.false_ne_true]
  by_cases hstart : loss.fractionLoss = 0 ∧ s.isInStartPhase reportTime = true
  · have hsame := hraised hstart.1 hstart.2
    rw [if_pos hstart, if_pos hstart]
    exact ⟨if_neg (not_not.2 hsame), if_neg (not_not.2 hsame)⟩
  · rw [if_neg hstart, if_neg hstart]
    exact ⟨rfl, rfl⟩

theorem checkedUpdateEstimate_error (hdisabled : config.enableLossFeedbackBasedControl = false)
    (hloss : s.EstimatesByLoss config loss reportTime) :
    s.checkedUpdateEstimate config loss reportTime = .error .emptyLossFeedbackBasedBwe := by
  rw [(updateEstimate_of_estimatesByLoss hloss).1, checkedUpdateByLoss_eq, hdisabled]
  exact if_neg Bool.false_ne_true

theorem checkedUpdateEstimate_ok (h : config.enableLossFeedbackBasedControl = true ∨
      ¬ s.EstimatesByLoss config loss reportTime) :
    s.checkedUpdateEstimate config loss reportTime =
      .ok (s.updateEstimate config loss reportTime) := by
  by_cases hloss : s.EstimatesByLoss config loss reportTime
  · obtain ⟨hchecked, hplain⟩ := updateEstimate_of_estimatesByLoss hloss
    rw [hchecked, hplain, checkedUpdateByLoss_eq, if_pos (h.resolve_right (not_not.2 hloss))]
  · exact checkedUpdateEstimate_of_not hloss

/-- **A call fails** when it comes to the loss estimators without the one fed by feedbacks. -/
theorem checkedBwe_step_error (hdisabled : config.enableLossFeedbackBasedControl = false)
    {call : Call} (hloss : call.EstimatesByLoss config s) :
    (checkedBwe config).step s call = .error .emptyLossFeedbackBasedBwe := by
  cases call with
  | updateEstimate loss reportTime => exact checkedUpdateEstimate_error hdisabled hloss
  | onPacketsLostReport numPackets loss reportTime =>
    refine Eq.trans ?_ (checkedUpdateEstimate_error hdisabled hloss.2)
    exact if_pos hloss.1
  | _ => exact hloss.elim

theorem checkedBwe_step_ok {call : Call} (h : config.enableLossFeedbackBasedControl = true ∨
      ¬ call.EstimatesByLoss config s) :
    (checkedBwe config).step s call = .ok ((bweMachine config).step s call) := by
  cases call with
  | updateEstimate loss reportTime => exact checkedUpdateEstimate_ok h
  | onPacketsLostReport numPackets loss reportTime =>
    show s.checkedOnPacketsLostReport config numPackets loss reportTime =
      .ok (s.onPacketsLostReport config numPackets loss reportTime)
    unfold checkedOnPacketsLostReport onPacketsLostReport
    by_cases hpos : 0 < numPackets
    · rw [if_pos hpos, if_pos hpos]
      refine checkedUpdateEstimate_ok (h.imp_right fun hno hloss => hno ⟨hpos, hloss⟩)
    · rw [if_neg hpos, if_neg hpos]
      rfl
  | _ => rfl

end SendSideBwe

/-! ## Runs -/

open SendSideBwe

/-- **What is read is there.**  `SendSideBwe` reads nothing that is empty exactly when its
feedback based control is enabled or no call comes to the loss estimators, and `ProbeController`
exactly when every estimate it is given comes while a mid-call probing goes on, started by one of
the calls before and ended by none since. -/
theorem dereferences_iff (config : SendSideBwe.Configuration) (calls : List SendSideBwe.Call)
    (probeConfig : ProbeController.Configuration) (probeCalls : List ProbeController.Call) :
    ((∀ fault, (checkedBwe config).run SendSideBwe.create calls ≠ .error fault) ↔
      config.enableLossFeedbackBasedControl = true ∨
        ∀ done call s outs, done ++ [call] <+: calls →
          (checkedBwe config).run SendSideBwe.create done = .ok (s, outs) →
          ¬ call.EstimatesByLoss config s) ∧
    ((ProbeController.controller probeConfig).run ProbeController.create probeCalls ≠
        .error .emptyMidCallProbing ↔
      ∀ done estimate atTime s outs, done ++ [.onEstimatedBitrate estimate atTime] <+: probeCalls →
        ProbeController.Reached probeConfig done s outs →
        ∃ threshold, ProbeController.MidCallGoesOn probeConfig done threshold) := by
  refine ⟨⟨fun hread => ?_, fun hcond fault hfail => ?_⟩,
    ⟨fun hread => ?_, fun hengaged hfail => ?_⟩⟩
  · refine or_iff_not_imp_left.2 fun hdisabled done call s outs hpre hdone hloss => ?_
    exact hread _ (CheckedMachine.run_error_iff.2 ⟨done, call, s, outs, hpre, hdone,
      checkedBwe_step_error (Bool.eq_false_iff.2 hdisabled) hloss⟩)
  · obtain ⟨done, call, s, outs, hpre, hdone, hstep⟩ := CheckedMachine.run_error_iff.1 hfail
    rw [checkedBwe_step_ok (hcond.imp_right fun h => h done call s outs hpre hdone)] at hstep
    cases hstep
  · intro done estimate atTime s outs hpre hdone
    rw [← ProbeController.Reached.midCall_isSome_iff hdone]
    by_contra hempty
    refine hread (CheckedMachine.run_error_iff.2 ⟨done, _, s, outs, hpre, hdone, ?_⟩)
    show s.onEstimatedBitrate probeConfig estimate atTime = _
    rw [ProbeController.onEstimatedBitrate, Option.not_isSome_iff_eq_none.1 hempty]
  · obtain ⟨done, call, s, outs, hpre, hdone, hstep⟩ := CheckedMachine.run_error_iff.1 hfail
    obtain ⟨estimate, atTime, rfl, hempty⟩ := ProbeController.eq_onEstimatedBitrate_of_empty hstep
    have hsome := (ProbeController.Reached.midCall_isSome_iff hdone).2
      (hengaged done estimate atTime s outs hpre hdone)
    rw [hempty] at hsome
    cases hsome

/-- **Both read what is empty**: the estimation without feedback based control on its first
report of 20 packets, and the probe controller on its first estimate. -/
theorem empty_dereferenced :
    (checkedBwe { SendSideBwe.Configuration.default with
        enableLossFeedbackBasedControl := false }).run SendSideBwe.create
        [.onPacketsLostReport 20 ⟨0, false, fun _ bitrate _ _ => bitrate,
          fun _ bitrate _ _ => (bitrate, .hold)⟩ (.micros 0)] =
      .error .emptyLossFeedbackBasedBwe ∧
    (ProbeController.controller .default).run ProbeController.create
        [.onBitrates 300000 100000 2000000 (.micros 0), .onEstimatedBitrate 400000 (.micros 1000)] =
      .error .emptyMidCallProbing :=
  ⟨rfl, rfl⟩

end NaiveRtc.CongestionControl
