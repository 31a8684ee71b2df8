import NaiveRtc.Components.WrapAround
import NaiveRtc.Lib.Approach
import NaiveRtc.Lib.Machine

/-!
# The playout delay

`Timing` of `rtc/rtp_rtcp/rtp/receiver/video/timing/timing.cpp`, as far as it holds the current
playout delay.  What the filter of decode times answers is an input of every call that asks it,
and the `int` members are whole numbers.

* `updateCurrentDelay` — the delay moves towards the target, by the media time since the last
  timestamp.
* `Event`, `timingMachine` — everything that changes the delay or its target.
* `Smooth`, `smoothing_law` — **a move is limited, stops at the target and is not made for a
  reordered frame**, exactly in the runs without reordered frames.
-/

namespace NaiveRtc.Receiver

open WrapAround (forwardDiff aheadOf)

/-- `kDefaultRenderDelayMs`. -/
def kDefaultRenderDelayMs : Int := 10

/-- `kDelayMaxChangeMsPerS`. -/
def kDelayMaxChangeMsPerS : Int := 100

/-- The members of `Timing` that the current delay depends on. -/
structure Timing where
  renderDelayMs : Int := kDefaultRenderDelayMs
  minPlayoutDelayMs : Int := 0
  jitterDelayMs : Int := 0
  currPlayoutDelayMs : Int := 0
  prevTimestamp : U32 := 0
  deriving DecidableEq

namespace Timing

/-- The conversion to `int`. -/
def toInt (n : Int) : Int := (n + 2 ^ 31) % 2 ^ 32 - 2 ^ 31

/-- `TargetDelayMs()`, when the decode times require so much. -/
def targetDelayMs (s : Timing) (requiredDecodeTimeMs : Int) : Int :=
  max s.minPlayoutDelayMs (s.jitterDelayMs + requiredDecodeTimeMs + s.renderDelayMs)

/-- `set_jitter_delay_ms(delay_ms)`. -/
def setJitterDelayMs (s : Timing) (delayMs : Int) : Timing :=
  if s.jitterDelayMs ≠ delayMs then
    { s with
      jitterDelayMs := delayMs
      currPlayoutDelayMs := if s.currPlayoutDelayMs = 0 then delayMs else s.currPlayoutDelayMs }
  else s

/-- The change that the media time since the last timestamp allows: `max_change_ms`. -/
def maxChangeMs (s : Timing) (timestamp : U32) : Int :=
  kDelayMaxChangeMsPerS * ((forwardDiff s.prevTimestamp timestamp).toNat / 90000 : Nat)

/-- `UpdateCurrentDelay(timestamp)`. -/
def updateCurrentDelay (s : Timing) (timestamp : U32) (requiredDecodeTimeMs : Int) : Timing :=
  let targetDelayMs := s.targetDelayMs requiredDecodeTimeMs
  if s.currPlayoutDelayMs = 0 then
    { s with currPlayoutDelayMs := targetDelayMs, prevTimestamp := timestamp }
  else if targetDelayMs ≠ s.currPlayoutDelayMs then
    let delayDiffMs := targetDelayMs - s.currPlayoutDelayMs
    let maxChangeMs := s.maxChangeMs timestamp
    -- Any changes less than 1 ms are truncated and will be postponed.
    if maxChangeMs ≤ 0 then s
    else
      let delayDiffMs := max delayDiffMs (-maxChangeMs)
      let delayDiffMs := min delayDiffMs maxChangeMs
      { s with
        currPlayoutDelayMs := s.currPlayoutDelayMs + delayDiffMs
        prevTimestamp := timestamp }
  else { s with prevTimestamp := timestamp }

/-- `UpdateCurrentDelay(render_time_ms, actual_decode_time_ms)`; the target is compared as a
`uint32_t`. -/
def updateCurrentDelayAt (s : Timing) (renderTimeMs actualDecodeTimeMs requiredDecodeTimeMs : Int) :
    Timing :=
  let targetDelayMs := s.targetDelayMs requiredDecodeTimeMs % 2 ^ 32
  let expectedDecodeTimeMs := renderTimeMs - requiredDecodeTimeMs - s.renderDelayMs
  let decodeDelayedTimeMs := actualDecodeTimeMs - expectedDecodeTimeMs
  if decodeDelayedTimeMs < 0 then s
  else if s.currPlayoutDelayMs + decodeDelayedTimeMs ≤ targetDelayMs then
    { s with currPlayoutDelayMs := toInt (s.currPlayoutDelayMs + decodeDelayedTimeMs) }
  else { s with currPlayoutDelayMs := toInt targetDelayMs }

/-- What happens to the delay and to its target. -/
inductive Event
  | setMinPlayoutDelayMs (delayMs : Int)
  | setRenderDelayMs (delayMs : Int)
  | setJitterDelayMs (delayMs : Int)
  | updateCurrentDelay (timestamp : U32) (requiredDecodeTimeMs : Int)
  | updateCurrentDelayAt (renderTimeMs actualDecodeTimeMs requiredDecodeTimeMs : Int)
  | reset
  deriving DecidableEq

/-- The state after an event. -/
def next (s : Timing) : Event → Timing
  | .setMinPlayoutDelayMs delayMs => { s with minPlayoutDelayMs := delayMs }
  | .setRenderDelayMs delayMs => { s with renderDelayMs := delayMs }
  | .setJitterDelayMs delayMs => s.setJitterDelayMs delayMs
  | .updateCurrentDelay timestamp required => s.updateCurrentDelay timestamp required
  | .updateCurrentDelayAt renderTimeMs actualDecodeTimeMs required =>
    s.updateCurrentDelayAt renderTimeMs actualDecodeTimeMs required
  | .reset => {}

/-- The timing driven by events. -/
def timingMachine : Machine Timing Event Unit where
  step s e := (s.next e, ())

/-! ## One call -/

/-- The frame is older than the last one. -/
def Reordered (s : Timing) (timestamp : U32) : Prop := aheadOf s.prevTimestamp timestamp = true

instance (s : Timing) (timestamp : U32) : Decidable (s.Reordered timestamp) :=
  inferInstanceAs (Decidable (_ = true))

/-- The delay moved by at most 100 ms for every full second of media time, towards the target and
not past it, and a reordered frame changed nothing. -/
structure Smooth (s s' : Timing) (timestamp : U32) (targetDelayMs : Int) : Prop where
  limited : ¬s.Reordered timestamp →
    |s'.currPlayoutDelayMs - s.currPlayoutDelayMs| ≤ s.maxChangeMs timestamp
  towards : s'.currPlayoutDelayMs ∈ Set.uIcc s.currPlayoutDelayMs targetDelayMs
  ignored : s.Reordered timestamp →
    s'.currPlayoutDelayMs = s.currPlayoutDelayMs ∧ s'.prevTimestamp = s.prevTimestamp

/-- What is claimed of an event. -/
def StepLaw (s : Timing) : Event → Prop
  | .updateCurrentDelay timestamp required =>
    s.currPlayoutDelayMs ≠ 0 →
      Smooth s (s.updateCurrentDelay timestamp required) timestamp (s.targetDelayMs required)
  | _ => True

/-- The event is not about a reordered frame, once there is a delay. -/
def InOrder (s : Timing) : Event → Prop
  | .updateCurrentDelay timestamp _ => s.currPlayoutDelayMs ≠ 0 → ¬s.Reordered timestamp
  | _ => True

section Step

variable {s : Timing} {timestamp : U32} {required : Int}

theorem maxChangeMs_nonneg (s : Timing) (timestamp : U32) : 0 ≤ s.maxChangeMs timestamp := by
  unfold maxChangeMs kDelayMaxChangeMsPerS
  omega

theorem updateCurrentDelay_cases (hcurr : s.currPlayoutDelayMs ≠ 0) (timestamp : U32)
    (required : Int) :
    (s.targetDelayMs required ≠ s.currPlayoutDelayMs ∧ s.maxChangeMs timestamp = 0 ∧
      s.updateCurrentDelay timestamp required = s) ∨
    s.updateCurrentDelay timestamp required = { s with
      currPlayoutDelayMs := Approach.approach (s.maxChangeMs timestamp) (s.targetDelayMs required)
        s.currPlayoutDelayMs
      prevTimestamp := timestamp } := by
  have hnonneg := s.maxChangeMs_nonneg timestamp
  unfold updateCurrentDelay
  rw [if_neg hcurr]
  by_cases htarget : s.targetDelayMs required = s.currPlayoutDelayMs
  · rw [if_neg (not_not.2 htarget), htarget, Approach.approach_of_le (by simpa using hnonneg)]
    exact Or.inr rfl
  · rw [if_pos htarget]
    by_cases hzero : s.maxChangeMs timestamp ≤ 0
    · exact Or.inl ⟨htarget, le_antisymm hzero hnonneg, if_pos hzero⟩
    · exact Or.inr (if_neg hzero)

theorem Reordered.far (h : s.Reordered timestamp) :
    timestamp ≠ s.prevTimestamp ∧ s.maxChangeMs timestamp ≠ 0 := by
  have hfar : timestamp ≠ s.prevTimestamp ∧
      2 ^ 31 ≤ (forwardDiff s.prevTimestamp timestamp).toNat := by
    unfold Reordered aheadOf WrapAround.aheadOrAt WrapAround.maxDist at h
    unfold WrapAround.forwardDiff at h ⊢
    rw [Bool.and_eq_true, bne_iff_ne] at h
    obtain ⟨hne, h⟩ := h
    refine ⟨Ne.symm hne, ?_⟩
    split at h
    case isTrue htie =>
      bv_omega
    case isFalse hnot =>
      have hlt := of_decide_eq_true h
      bv_omega
  refine ⟨hfar.1, ?_⟩
  have hlong := hfar.2
  unfold maxChangeMs kDelayMaxChangeMsPerS
  omega

theorem smooth_iff (hcurr : s.currPlayoutDelayMs ≠ 0) :
    Smooth s (s.updateCurrentDelay timestamp required) timestamp (s.targetDelayMs required) ↔
      ¬s.Reordered timestamp := by
  have hnonneg := s.maxChangeMs_nonneg timestamp
  constructor
  · intro hsmooth hreordered
    obtain ⟨hne, hchange⟩ := hreordered.far
    have hsame := (hsmooth.ignored hreordered).2
    rcases updateCurrentDelay_cases hcurr timestamp required with
      ⟨-, hzero, -⟩ | heq
    · exact hchange hzero
    · rw [heq] at hsame
      exact hne hsame
  · intro hinOrder
    refine ⟨fun _ => ?_, ?_, fun hreordered => absurd hreordered hinOrder⟩
    · rcases updateCurrentDelay_cases hcurr timestamp required with
        ⟨-, -, heq⟩ | heq
      · rw [heq, sub_self, abs_zero]
        exact hnonneg
      · rw [heq]
        exact Approach.abs_approach_sub_le hnonneg
    · rcases updateCurrentDelay_cases hcurr timestamp required with
        ⟨-, -, heq⟩ | heq
      · rw [heq]
        exact Set.left_mem_uIcc
      · rw [heq]
        exact Approach.approach_mem_uIcc hnonneg

theorem stepLaw_iff (s : Timing) (e : Event) : StepLaw s e ↔ InOrder s e := by
  cases e with
  | updateCurrentDelay timestamp required => exact forall_congr' fun hcurr => smooth_iff hcurr
  | _ => exact Iff.rfl

end Step

/-! ## Runs -/

/-- **The law of the playout delay.**  In every run the moves are limited and go to their targets
and reordered frames are ignored exactly if no frame of the run is reordered. -/
theorem smoothing_law (start : Timing) (events : List Event) :
    (∀ done e, done ++ [e] <+: events → StepLaw (timingMachine.final start done) e) ↔
      ∀ done e, done ++ [e] <+: events → InOrder (timingMachine.final start done) e := by
  simp only [stepLaw_iff]

/-- A frame just before the last one, when the target has become larger. -/
theorem reordered_frame_moves :
    ¬∀ done e, done ++ [e] <+: [.updateCurrentDelay 90000 0, .setMinPlayoutDelayMs 500,
      .updateCurrentDelay 89999 0] → StepLaw (timingMachine.final {} done) e := by
  intro h
  have hlast := h [.updateCurrentDelay 90000 0, .setMinPlayoutDelayMs 500]
    (.updateCurrentDelay 89999 0) (List.prefix_refl _)
  have hsame := ((hlast (by decide)).ignored (by decide)).1
  exact absurd hsame (by decide)

end Timing

end NaiveRtc.Receiver
