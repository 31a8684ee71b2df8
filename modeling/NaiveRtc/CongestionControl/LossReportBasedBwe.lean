import NaiveRtc.CongestionControl.SendSideBwe
import NaiveRtc.Lib.Rounding

/-!
# The loss estimator fed by reports

The model of `rtc/congestion_control/send_side/goog_cc/loss_based/loss_report_based_bwe.cpp`.

* `LossReportBasedBwe`, `onPacketsLostReport`, `estimate` — the class, with its 32 bit counters and
  its products of doubles.
* `Tally`, `tally` — what the loss fraction is meant to be: taken over exactly the reports since
  the last update.
* `decreased_lt`, `le_decreased` — **when a decrease decreases.**
* `onPacketsLostReport_spec`, `answer_estimate_iff` — what one report and one estimate do.
* `loss_report_law` — over whole runs.
-/

namespace NaiveRtc.CongestionControl

/-- A loss rate is based on so many packets, at least. -/
def kMinLossReportWindow : Int := 20

/-- Two decreases are further apart than this and the round trip time. -/
def kBweDecreaseInterval : TimeDelta := .micros 300000

/-- `1.2 * kMaxRtcpFeedbackInterval`. -/
def kLossReportLifetime : TimeDelta := .micros 6000000

/-! ## The class -/

/-- `LossReportBasedBwe::Configuration`; its `float` thresholds are rational numbers. -/
structure LossReportBasedBwe.Configuration where
  lowLossThreshold : ℚ
  highLossThreshold : ℚ
  maxBitrateThreshold : Nat

/-- The default configuration. -/
def LossReportBasedBwe.Configuration.default : LossReportBasedBwe.Configuration :=
  ⟨2 / 100, 10 / 100, 0⟩

/-- `LossReportBasedBwe`.  The fraction is a `uint8_t`, the counters are of type `int`, and a rate
is never negative. -/
structure LossReportBasedBwe where
  fractionLoss : Nat
  accumulatedLostPackets : Int
  accumulatedPackets : Int
  hasDecreasedSinceLastFractionLoss : Bool
  timeLastFractionLossUpdate : Timestamp
  timeLastDecrease : Timestamp
  deriving DecidableEq

namespace LossReportBasedBwe

/-- `LossReportBasedBwe(config)`. -/
def create : LossReportBasedBwe := ⟨0, 0, 0, false, .minusInfinity, .minusInfinity⟩

/-- The conversion to `int`. -/
def toInt32 (n : Int) : Int := (n + 2 ^ 31) % 2 ^ 32 - 2 ^ 31

/-- `OnPacketsLostReport(num_packets_lost, num_packets, report_time)`. -/
def onPacketsLostReport (s : LossReportBasedBwe) (numPacketsLost numPackets : Int)
    (reportTime : Timestamp) : LossReportBasedBwe :=
  let packets := toInt32 (s.accumulatedPackets + numPackets)
  let lost := toInt32 (s.accumulatedLostPackets + numPacketsLost)
  if packets < kMinLossReportWindow then
    { s with accumulatedPackets := packets, accumulatedLostPackets := lost }
  else
    -- the shift is one of `int`, and the ratio is narrowed before the minimum is taken
    let lostQ8 := toInt32 (lost * 2 ^ 8)
    { s with
      fractionLoss := min ((lostQ8.tdiv packets) % 2 ^ 8).toNat 255
      accumulatedLostPackets := 0
      accumulatedPackets := 0
      timeLastFractionLossUpdate := reportTime
      hasDecreasedSinceLastFractionLoss := false }

/-- `IsLossReportExpired(at_time)`. -/
def isLossReportExpired (s : LossReportBasedBwe) (atTime : Timestamp) : Bool :=
  !(atTime.sub s.timeLastFractionLossUpdate).lt kLossReportLifetime

/-- The `float` in `Estimate`, which is exact. -/
def lossRatio (s : LossReportBasedBwe) : ℚ := s.fractionLoss / 256

/-- `1.08 * min_bitrate + 0.5` in doubles and truncated, and 1 kbps more. -/
def increased (minBitrate : Nat) : Nat :=
  ⌊Rounding.round 53 (Rounding.round 53 (Rounding.round 53 (108 / 100) *
    Rounding.round 53 minBitrate) + 1 / 2)⌋₊ + 1000

/-- `expected_birate * ((512 - fraction_loss) / 512.0)` in doubles, and `std::round` of it. -/
def decreased (expectedBitrate fractionLoss : Nat) : Nat :=
  ⌊Rounding.round 53 (Rounding.round 53 expectedBitrate * ((512 - fractionLoss) / 512)) + 1 / 2⌋₊

/-- `Estimate(min_bitrate, expected_birate, rtt, at_time)`. -/
def estimate (config : Configuration) (s : LossReportBasedBwe) (minBitrate expectedBitrate : Nat)
    (rtt : TimeDelta) (atTime : Timestamp) : LossReportBasedBwe × (Nat × RateControlState) :=
  if s.timeLastFractionLossUpdate.isInfinite then (s, expectedBitrate, .hold)
  else if s.isLossReportExpired atTime then (s, expectedBitrate, .decrease)
  else if expectedBitrate < config.maxBitrateThreshold ∨ s.lossRatio ≤ config.lowLossThreshold then
    (s, increased minBitrate, .increase)
  else if config.maxBitrateThreshold < expectedBitrate ∧
      config.highLossThreshold < s.lossRatio ∧
      s.hasDecreasedSinceLastFractionLoss = false ∧
      (kBweDecreaseInterval.add rtt).lt (atTime.sub s.timeLastDecrease) = true then
    ({ s with timeLastDecrease := atTime, hasDecreasedSinceLastFractionLoss := true },
      decreased expectedBitrate s.fractionLoss, .decrease)
  -- what was to hold the bitrate shares the last return
  else (s, expectedBitrate, .decrease)

/-- A call of a public method. -/
inductive Call
  | onPacketsLostReport (numPacketsLost numPackets : Int) (reportTime : Timestamp)
  | estimate (minBitrate expectedBitrate : Nat) (rtt : TimeDelta) (atTime : Timestamp)

end LossReportBasedBwe

open LossReportBasedBwe

/-- An estimator and the calls made on it; the output is what an estimate answers. -/
def lossReportMachine (config : LossReportBasedBwe.Configuration) :
    Machine LossReportBasedBwe LossReportBasedBwe.Call (Option (Nat × RateControlState)) where
  step s
    | .onPacketsLostReport numPacketsLost numPackets reportTime =>
      (s.onPacketsLostReport numPacketsLost numPackets reportTime, none)
    | .estimate minBitrate expectedBitrate rtt atTime =>
      let (s, answer) := s.estimate config minBitrate expectedBitrate rtt atTime
      (s, some answer)

namespace LossReportBasedBwe

/-! ## What is meant -/

/-- The reports since the last update, summed up, and the fraction of that update. -/
structure Tally where
  lost : Int
  packets : Int
  fraction : Int
  deriving DecidableEq

/-- One call: a report is added, and twenty packets make an update. -/
def Tally.next (t : Tally) : Call → Tally
  | .onPacketsLostReport numPacketsLost numPackets _ =>
    let lost := t.lost + numPacketsLost
    let packets := t.packets + numPackets
    if packets < 20 then ⟨lost, packets, t.fraction⟩ else ⟨0, 0, min 255 (256 * lost / packets)⟩
  | .estimate .. => t

/-- The tally of some calls. -/
def tally (calls : List Call) : Tally := calls.foldl Tally.next ⟨0, 0, 0⟩

theorem tally_concat (done : List Call) (call : Call) :
    tally (done ++ [call]) = (tally done).next call := by
  rw [tally, List.foldl_append]
  rfl

/-- A report does not say that more was lost than sent. -/
def Call.Proper : Call → Prop
  | .onPacketsLostReport numPacketsLost numPackets _ =>
    0 ≤ numPacketsLost ∧ numPacketsLost ≤ numPackets
  | .estimate .. => True

/-- What an estimate may answer: a decrease is below the expected bitrate, and a bitrate that is
not changed is held. -/
def Answer (expectedBitrate : Nat) (answer : Nat × RateControlState) : Prop :=
  (answer.2 = .decrease → answer.1 < expectedBitrate) ∧
    (answer.1 = expectedBitrate → answer.2 = .hold)

/-- The law of one step, from a state and a tally. -/
def StepLaw (config : Configuration) (s : LossReportBasedBwe) (t : Tally) (call : Call) : Prop :=
  match call with
  | .onPacketsLostReport numPacketsLost numPackets reportTime =>
    (s.onPacketsLostReport numPacketsLost numPackets reportTime).fractionLoss =
      (t.next call).fraction
  | .estimate minBitrate expectedBitrate rtt atTime =>
    Answer expectedBitrate (s.estimate config minBitrate expectedBitrate rtt atTime).2

/-- The counters of a step stay inside `int`, the shifted one included, and an expected bitrate is
exact as a double. -/
def InRange (t : Tally) : Call → Prop
  | .onPacketsLostReport numPacketsLost numPackets _ =>
    t.lost + numPacketsLost < 2 ^ 23 ∧ t.packets + numPackets < 2 ^ 31
  | .estimate _ expectedBitrate _ _ => expectedBitrate < 2 ^ 53

/-- What a step must find: an update in range with a packet that was not lost, and for an
estimate no report at all, or one of the two branches that change the bitrate. -/
def Meets (config : Configuration) (s : LossReportBasedBwe) (t : Tally) (call : Call) : Prop :=
  match call with
  | .onPacketsLostReport numPacketsLost numPackets _ =>
    (t.lost + numPacketsLost < 2 ^ 23 ∧ t.packets + numPackets < 2 ^ 31) ∧
      (20 ≤ t.packets + numPackets → t.lost + numPacketsLost < t.packets + numPackets)
  | .estimate minBitrate expectedBitrate rtt atTime =>
    s.timeLastFractionLossUpdate.isInfinite = true ∨
      s.isLossReportExpired atTime = false ∧
        if expectedBitrate < config.maxBitrateThreshold ∨
            s.lossRatio ≤ config.lowLossThreshold then increased minBitrate ≠ expectedBitrate
        else config.maxBitrateThreshold < expectedBitrate ∧
          config.highLossThreshold < s.lossRatio ∧
          s.hasDecreasedSinceLastFractionLoss = false ∧
          (kBweDecreaseInterval.add rtt).lt (atTime.sub s.timeLastDecrease) = true ∧
          256 < expectedBitrate * s.fractionLoss

/-! ## Decreases -/

variable {e f : Nat}

theorem round_scaled (he : e < 2 ^ 44) (hepos : 0 < e) (hf : f ≤ 511) :
    Rounding.round 53 (Rounding.round 53 (e : ℚ) * ((512 - f) / 512)) = e * (512 - f) / 512 := by
  have hwhole : (e : ℚ) * ((512 - f) / 512) = ((e * (512 - f) : Nat) : ℚ) / 2 ^ 9 := by
    rw [Nat.cast_mul, Nat.cast_sub (by omega)]
    norm_num
    ring
  have hbits : e * (512 - f) < 2 ^ 53 :=
    calc e * (512 - f) ≤ e * 512 := Nat.mul_le_mul_left e (by omega)
      _ < 2 ^ 53 := by omega
  rw [Rounding.round_natCast hepos (by omega), hwhole,
    Rounding.round_natCast_div_two_pow 9 (Nat.mul_pos hepos (by omega)) hbits, ← hwhole]
  ring

theorem decreased_lt (hf : f ≤ 255) (h : 256 < e * f) : decreased e f < e := by
  have hepos : 0 < e := Nat.pos_of_ne_zero fun hzero => by simp [hzero] at h
  have hfpos : 0 < f := Nat.pos_of_ne_zero fun hzero => by simp [hzero] at h
  have he : (0 : ℚ) < e := by exact_mod_cast hepos
  have hf' : (f : ℚ) ≤ 255 := by exact_mod_cast hf
  have hf1 : (1 : ℚ) ≤ f := by exact_mod_cast hfpos
  have hscale : (0 : ℚ) < (512 - f) / 512 := by
    rw [lt_div_iff₀ (by norm_num)]
    linarith
  unfold decreased
  rw [Nat.floor_lt' hepos.ne']
  by_cases hsmall : e < 2 ^ 44
  · -- both doubles are exact
    have hexact := round_scaled hsmall hepos (by omega : f ≤ 511)
    rw [hexact]
    have hlt : (256 : ℚ) < e * f := by exact_mod_cast h
    linarith
  · have hlarge : (2 ^ 44 : ℚ) ≤ e := by exact_mod_cast not_lt.1 hsmall
    have hrate := Rounding.round_le_mul 53 he
    have hratepos : (0 : ℚ) < Rounding.round 53 e := Rounding.round_pos (by decide) he
    have hfactor : Rounding.round 53 e * ((512 - f) / 512) ≤ Rounding.round 53 e * (511 / 512) := by
      refine mul_le_mul_of_nonneg_left ?_ hratepos.le
      linarith
    have hproduct := (Rounding.round_le_mul 53 (mul_pos hratepos hscale)).trans
      (mul_le_mul_of_nonneg_right hfactor (by norm_num))
    norm_num only at hrate hproduct ⊢
    linarith

theorem le_decreased (he : e < 2 ^ 53) (h : e * f ≤ 256) (hf : f ≤ 255) :
    e ≤ decreased e f := by
  rcases Nat.eq_zero_or_pos e with rfl | hepos
  · exact Nat.zero_le _
  refine Nat.le_floor ?_
  have hle : (e * f : ℚ) ≤ 256 := by exact_mod_cast h
  rcases Nat.eq_zero_or_pos f with rfl | hfpos
  · have hself := Rounding.round_natCast (p := 53) hepos he
    have hwhole : (e : ℚ) * ((512 - (0 : Nat)) / 512) = e := by norm_num
    rw [hself, hwhole, hself]
    linarith
  · have hsmall : e < 2 ^ 44 := by
      have := Nat.le_mul_of_pos_right e hfpos
      omega
    rw [round_scaled hsmall hepos (by omega : f ≤ 511)]
    linarith

/-! ## One report -/

/-- The counters are those of the tally, and the fraction is that of its last update. -/
structure Follows (s : LossReportBasedBwe) (t : Tally) : Prop where
  lost_eq : s.accumulatedLostPackets = t.lost
  packets_eq : s.accumulatedPackets = t.packets
  fraction_eq : (s.fractionLoss : Int) = t.fraction
  fraction_le : s.fractionLoss ≤ 255
  lost_nonneg : 0 ≤ t.lost
  lost_le : t.lost ≤ t.packets
  packets_lt : t.packets < 20

theorem follows_create : Follows create ⟨0, 0, 0⟩ :=
  ⟨rfl, rfl, rfl, by decide, le_refl _, le_refl _, by decide⟩

theorem toInt32_of_fits {n : Int} (hlow : 0 ≤ n) (hhigh : n < 2 ^ 31) : toInt32 n = n := by
  unfold toInt32
  omega

variable {config : Configuration} {s : LossReportBasedBwe} {t : Tally}

theorem narrowed_eq_iff {lost packets : Int} (hlost : 0 ≤ lost) (hle : lost ≤ packets)
    (hpackets : 20 ≤ packets) :
    ((min ((lost * 2 ^ 8).tdiv packets % 2 ^ 8).toNat 255 : Nat) : Int) =
        min 255 (256 * lost / packets) ↔ lost < packets := by
  have hpos : 0 < packets := by omega
  rw [Int.tdiv_eq_ediv_of_nonneg (by omega), mul_comm lost]
  norm_num
  rcases hle.eq_or_lt with rfl | hlt
  · rw [Int.mul_ediv_cancel _ hpos.ne']
    simp
  · have hlow : 0 ≤ 256 * lost / packets := Int.ediv_nonneg (by omega) hpos.le
    have hhigh : 256 * lost / packets < 256 := by
      rw [Int.ediv_lt_iff_lt_mul hpos]
      omega
    refine iff_of_true ?_ hlt
    rw [Int.emod_eq_of_lt hlow hhigh]
    omega

/-- **One report** in range: the counters follow, and the fraction does unless every packet of the
update was lost. -/
theorem onPacketsLostReport_spec (h : Follows s t) {numPacketsLost numPackets : Int}
    (hlost : 0 ≤ numPacketsLost) (hle : numPacketsLost ≤ numPackets)
    (hrange : t.lost + numPacketsLost < 2 ^ 23 ∧ t.packets + numPackets < 2 ^ 31)
    (reportTime : Timestamp) :
    (StepLaw config s t (.onPacketsLostReport numPacketsLost numPackets reportTime) ↔
        (20 ≤ t.packets + numPackets → t.lost + numPacketsLost < t.packets + numPackets)) ∧
      (StepLaw config s t (.onPacketsLostReport numPacketsLost numPackets reportTime) →
        Follows (s.onPacketsLostReport numPacketsLost numPackets reportTime)
          (t.next (.onPacketsLostReport numPacketsLost numPackets reportTime))) := by
  obtain ⟨hlosteq, hpacketseq, hfraction, hfractionle, hnonneg, hlostle, hlt⟩ := h
  have hlost32 : toInt32 (s.accumulatedLostPackets + numPacketsLost) = t.lost + numPacketsLost := by
    rw [hlosteq]
    exact toInt32_of_fits (by omega) (by omega)
  have hpackets32 : toInt32 (s.accumulatedPackets + numPackets) = t.packets + numPackets := by
    rw [hpacketseq]
    exact toInt32_of_fits (by omega) (by omega)
  have hshift : toInt32 ((t.lost + numPacketsLost) * 2 ^ 8) = (t.lost + numPacketsLost) * 2 ^ 8 :=
    toInt32_of_fits (by omega) (by omega)
  unfold StepLaw onPacketsLostReport Tally.next kMinLossReportWindow
  dsimp only
  rw [hlost32, hpackets32, hshift]
  by_cases hfew : t.packets + numPackets < 20
  · rw [if_pos hfew, if_pos hfew]
    exact ⟨iff_of_true hfraction (by omega),
      fun _ => ⟨rfl, rfl, hfraction, hfractionle, Int.add_nonneg hnonneg hlost,
        Int.add_le_add hlostle hle, hfew⟩⟩
  · rw [if_neg hfew, if_neg hfew]
    have hnarrowed := narrowed_eq_iff (Int.add_nonneg hnonneg hlost)
      (Int.add_le_add hlostle hle) (not_lt.1 hfew)
    have hzero : (0 : Int) < 20 := by decide
    exact ⟨hnarrowed.trans ⟨fun hlt _ => hlt, fun hlt => hlt (not_lt.1 hfew)⟩,
      fun hlaw => ⟨rfl, rfl, hlaw, min_le_right _ _, le_refl _, le_refl _, hzero⟩⟩

/-! ## One estimate -/

theorem answer_decrease_iff {expectedBitrate bitrate : Nat} :
    Answer expectedBitrate (bitrate, .decrease) ↔ bitrate < expectedBitrate := by
  simp only [Answer, forall_const, reduceCtorEq, imp_false]
  omega

theorem answer_increase_iff {expectedBitrate bitrate : Nat} :
    Answer expectedBitrate (bitrate, .increase) ↔ bitrate ≠ expectedBitrate := by
  simp [Answer]

theorem answer_estimate_iff (minBitrate expectedBitrate : Nat) (rtt : TimeDelta)
    (atTime : Timestamp) :
    Answer expectedBitrate (s.estimate config minBitrate expectedBitrate rtt atTime).2 ↔
      s.timeLastFractionLossUpdate.isInfinite = true ∨
        s.isLossReportExpired atTime = false ∧
          if expectedBitrate < config.maxBitrateThreshold ∨
              s.lossRatio ≤ config.lowLossThreshold then increased minBitrate ≠ expectedBitrate
          else config.maxBitrateThreshold < expectedBitrate ∧
            config.highLossThreshold < s.lossRatio ∧
            s.hasDecreasedSinceLastFractionLoss = false ∧
            (kBweDecreaseInterval.add rtt).lt (atTime.sub s.timeLastDecrease) = true ∧
            decreased expectedBitrate s.fractionLoss < expectedBitrate := by
  unfold estimate
  cases hfirst : s.timeLastFractionLossUpdate.isInfinite with
  | true => simp [Answer]
  | false =>
    cases hexpired : s.isLossReportExpired atTime with
    | true => simp [answer_decrease_iff]
    | false =>
      rw [if_neg Bool.false_ne_true, if_neg Bool.false_ne_true]
      by_cases hincrease : expectedBitrate < config.maxBitrateThreshold ∨
          s.lossRatio ≤ config.lowLossThreshold
      · rw [if_pos hincrease, if_pos hincrease, answer_increase_iff]
        simp
      · rw [if_neg hincrease, if_neg hincrease]
        by_cases hdecrease : config.maxBitrateThreshold < expectedBitrate ∧
            config.highLossThreshold < s.lossRatio ∧
            s.hasDecreasedSinceLastFractionLoss = false ∧
            (kBweDecreaseInterval.add rtt).lt (atTime.sub s.timeLastDecrease) = true
        · rw [if_pos hdecrease, answer_decrease_iff]
          obtain ⟨hbitrate, hloss, hfresh, hinterval⟩ := hdecrease
          simp [hbitrate, hloss, hfresh, hinterval]
        · rw [if_neg hdecrease, answer_decrease_iff]
          refine iff_of_false (lt_irrefl _) ?_
          rintro (hno | ⟨-, hbitrate, hloss, hfresh, hinterval, -⟩)
          · cases hno
          · exact hdecrease ⟨hbitrate, hloss, hfresh, hinterval⟩

theorem follows_estimate (h : Follows s t) (minBitrate expectedBitrate : Nat) (rtt : TimeDelta)
    (atTime : Timestamp) :
    Follows (s.estimate config minBitrate expectedBitrate rtt atTime).1 t := by
  obtain ⟨hlosteq, hpacketseq, hfraction, hfractionle, hnonneg, hlostle, hlt⟩ := h
  unfold estimate
  split_ifs <;> exact ⟨hlosteq, hpacketseq, hfraction, hfractionle, hnonneg, hlostle, hlt⟩

/-! ## Steps and runs -/

variable {call : Call}

theorem stepLaw_of_meets (h : Follows s t) (hproper : call.Proper)
    (hmeets : Meets config s t call) : StepLaw config s t call := by
  cases call with
  | onPacketsLostReport numPacketsLost numPackets reportTime =>
    exact (onPacketsLostReport_spec h hproper.1 hproper.2 hmeets.1 reportTime).1.2 hmeets.2
  | estimate minBitrate expectedBitrate rtt atTime =>
    refine (answer_estimate_iff minBitrate expectedBitrate rtt atTime).2 (hmeets.imp_right ?_)
    rintro ⟨hfresh, hpath⟩
    refine ⟨hfresh, ?_⟩
    split_ifs at hpath ⊢
    · exact hpath
    · obtain ⟨hbitrate, hloss, hfirst, hinterval, hbit⟩ := hpath
      exact ⟨hbitrate, hloss, hfirst, hinterval, decreased_lt h.fraction_le hbit⟩

theorem meets_of_stepLaw (h : Follows s t) (hproper : call.Proper)
    (hrange : InRange t call) (hlaw : StepLaw config s t call) : Meets config s t call := by
  cases call with
  | onPacketsLostReport numPacketsLost numPackets reportTime =>
    exact ⟨hrange, (onPacketsLostReport_spec h hproper.1 hproper.2 hrange reportTime).1.1 hlaw⟩
  | estimate minBitrate expectedBitrate rtt atTime =>
    refine ((answer_estimate_iff minBitrate expectedBitrate rtt atTime).1 hlaw).imp_right ?_
    rintro ⟨hfresh, hpath⟩
    refine ⟨hfresh, ?_⟩
    split_ifs at hpath ⊢
    · exact hpath
    · obtain ⟨hbitrate, hloss, hfirst, hinterval, hless⟩ := hpath
      refine ⟨hbitrate, hloss, hfirst, hinterval, ?_⟩
      by_contra hnot
      exact absurd hless (not_lt.2 (le_decreased hrange (not_lt.1 hnot) h.fraction_le))

theorem follows_step (h : Follows s t) (hproper : call.Proper)
    (hmeets : Meets config s t call) :
    Follows ((lossReportMachine config).step s call).1 (t.next call) := by
  cases call with
  | onPacketsLostReport numPacketsLost numPackets reportTime =>
    exact (onPacketsLostReport_spec h hproper.1 hproper.2 hmeets.1 reportTime).2
      (stepLaw_of_meets h hproper hmeets)
  | estimate minBitrate expectedBitrate rtt atTime =>
    exact follows_estimate h minBitrate expectedBitrate rtt atTime

/-- **The law of the loss reports.**  A run whose steps all meet the condition keeps the law at
every step, and in range only such a run does. -/
theorem loss_report_law (config : Configuration) {calls : List Call}
    (hproper : ∀ call ∈ calls, call.Proper) :
    ((∀ done call, done ++ [call] <+: calls →
        Meets config ((lossReportMachine config).final create done) (tally done) call) →
      ∀ done call, done ++ [call] <+: calls →
        StepLaw config ((lossReportMachine config).final create done) (tally done) call) ∧
    ((∀ done call, done ++ [call] <+: calls → InRange (tally done) call) →
      ((∀ done call, done ++ [call] <+: calls →
          StepLaw config ((lossReportMachine config).final create done) (tally done) call) ↔
        ∀ done call, done ++ [call] <+: calls →
          Meets config ((lossReportMachine config).final create done) (tally done) call)) := by
  have hmem : ∀ {done : List Call} {call : Call}, done ++ [call] <+: calls → call.Proper :=
    fun hpre => hproper _ (hpre.subset (by simp))
  have hmeets : (∀ done call, done ++ [call] <+: calls →
        Meets config ((lossReportMachine config).final create done) (tally done) call) →
      ∀ done call, done ++ [call] <+: calls →
        StepLaw config ((lossReportMachine config).final create done) (tally done) call := by
    intro hmeets done call hpre
    have hrule := ((lossReportMachine config).forall_prefix_iff_of_invariant
      (P := fun done s call => (call.Proper ∧ Meets config s (tally done) call) ∧
        StepLaw config s (tally done) call)
      (fun done s call h hgood => tally_concat done call ▸ follows_step h hgood.1 hgood.2)
      (fun done s call h => and_iff_left_of_imp fun hgood => stepLaw_of_meets h hgood.1 hgood.2)
      follows_create calls).1
    exact (hrule.2 (fun done call hpre => ⟨hmem hpre, hmeets done call hpre⟩) done call hpre).2
  refine ⟨hmeets, fun hrange => ⟨fun hlaw done call hpre => ?_, hmeets⟩⟩
  have hrule := ((lossReportMachine config).forall_prefix_iff_of_invariant
    (P := fun done s call => (call.Proper ∧ InRange (tally done) call) ∧
      StepLaw config s (tally done) call)
    (fun done s call h (hgood : (call.Proper ∧ InRange (tally done) call) ∧
        Meets config s (tally done) call) =>
      tally_concat done call ▸ follows_step h hgood.1.1 hgood.2)
    (fun done s call h => and_congr_right fun hproper =>
      ⟨meets_of_stepLaw h hproper.1 hproper.2, stepLaw_of_meets h hproper.1⟩)
    follows_create calls).1
  exact (hrule.1 (fun done call hpre => ⟨⟨hmem hpre, hrange done call hpre⟩,
    hlaw done call hpre⟩) done call hpre).2

/-- Twenty packets with one lost, and an estimate that increases the bitrate. -/
theorem loss_report_law_increase :
    let calls : List Call :=
      [.onPacketsLostReport 1 20 (.micros 0), .estimate 300000 300000 (.micros 0) (.micros 1000)]
    ((∀ done call, done ++ [call] <+: calls →
        Meets .default ((lossReportMachine .default).final create done) (tally done) call) →
      ∀ done call, done ++ [call] <+: calls →
        StepLaw .default ((lossReportMachine .default).final create done) (tally done) call) ∧
    ((∀ done call, done ++ [call] <+: calls → InRange (tally done) call) →
      ((∀ done call, done ++ [call] <+: calls →
          StepLaw .default ((lossReportMachine .default).final create done) (tally done) call) ↔
        ∀ done call, done ++ [call] <+: calls →
          Meets .default ((lossReportMachine .default).final create done) (tally done) call)) :=
  loss_report_law .default (by simp [Call.Proper])

/-- **When everything is lost the fraction is 0**, and a bitrate that is not changed comes with a
decrease. -/
theorem total_loss_is_no_loss :
    ¬ StepLaw .default create ⟨0, 0, 0⟩ (.onPacketsLostReport 20 20 (.micros 0)) ∧
      ((lossReportMachine .default).final create
        [.onPacketsLostReport 20 20 (.micros 0)]).fractionLoss = 0 ∧
      ¬ StepLaw .default ((lossReportMachine .default).final create
        [.onPacketsLostReport 1 20 (.micros 0)]) (tally [.onPacketsLostReport 1 20 (.micros 0)])
        (.estimate 300000 300000 (.micros 0) (.micros 6000000)) := by
  refine ⟨?_, by decide +kernel, ?_⟩
  · unfold StepLaw
    decide +kernel
  · exact fun hlaw => absurd (hlaw.1 (by decide +kernel)) (by decide +kernel)

end LossReportBasedBwe

end NaiveRtc.CongestionControl
