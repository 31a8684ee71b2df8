import NaiveRtc.Components.BitrateStatistics
import NaiveRtc.CongestionControl.SendSideBwe

/-!
# A limit over a window

`rtc/rtp_rtcp/components/bitrate_limiter.cpp`: the limiter keeps the window a second time, next to
the one in its statistics.  The floating point of the rate is a parameter.

* `BitrateLimiter`, `setWindowSize`, `tryConsumeBitrate` — the class.
* `Op`, `Outcome`, `machine` — the calls and what they answer.
* `Consistent` — both windows are the same, and positive.
* `limiter_consistent_iff` — **in every state, exactly when no call offers a window that is refused.**
* `zero_window_kept` — a refused window is divided by.
-/

namespace NaiveRtc

open CongestionControl (DataRate)

/-- `us()`, where the infinities are the two ends of `int64_t`. -/
def UnitValue.us : UnitValue → Int
  | minusInfinity => -2 ^ 63
  | micros us => us
  | plusInfinity => 2 ^ 63 - 1

/-- `operator+` of two rates. -/
def CongestionControl.DataRate.add (a b : DataRate) : DataRate :=
  if a = DataRate.plusInfinity ∨ b = DataRate.plusInfinity then DataRate.plusInfinity
  else if a = DataRate.minusInfinity ∨ b = DataRate.minusInfinity then DataRate.minusInfinity
  else a + b

/-- `size_in_bytes / duration`: `uint64_t` arithmetic, with nothing for a division by zero. -/
def bytesPerDuration (sizeInBytes : Nat) (duration : TimeDelta) : Option DataRate :=
  if duration.us = 0 then none
  else some (BitVec.ofNat 64 (sizeInBytes * 8000000) / BitVec.ofInt 64 duration.us).toInt

/-- `BitrateLimiter`. -/
structure BitrateLimiter where
  bitrateStats : BitrateStatistics
  currWindowSize : TimeDelta
  maxBitrate : DataRate
  deriving DecidableEq

namespace BitrateLimiter

/-- `BitrateLimiter(clock, max_window_size)`. -/
def create (maxWindowSize : TimeDelta) : BitrateLimiter where
  bitrateStats := .create maxWindowSize
  currWindowSize := maxWindowSize
  maxBitrate := DataRate.plusInfinity

/-- `set_max_bitrate(max_bitrate)`. -/
def setMaxBitrate (s : BitrateLimiter) (maxBitrate : DataRate) : BitrateLimiter :=
  { s with maxBitrate := maxBitrate }

/-- `SetWindowSize(window_size)`.  The window is kept before it is known whether the statistics take
it. -/
def setWindowSize (s : BitrateLimiter) (windowSize : TimeDelta) (now : Int) :
    BitrateLimiter × Bool :=
  let s := { s with currWindowSize := windowSize }
  let (bitrateStats, accepted) := s.bitrateStats.setWindowSize windowSize now
  ({ s with bitrateStats := bitrateStats }, accepted)

/-- What a call does. -/
inductive Outcome
  | done (result : Bool)
  | divisionByZero
  deriving DecidableEq

section

variable (quotient : Int → Int → Option DataRate)

/-- `TryConsumeBitrate(bytes)`, where `quotient` is the rate of so many bytes in so many
milliseconds, if it is in range. -/
def tryConsumeBitrate (s : BitrateLimiter) (bytes : Nat) (now : Int) : BitrateLimiter × Outcome :=
  let (bitrateStats, rate) := s.bitrateStats.rate now
  let s := { s with bitrateStats := bitrateStats }
  let consumed :=
    { s with bitrateStats := bitrateStats.update (BitVec.ofNat 64 bytes).toInt now }
  match rate.bind fun (accumulated, ms) => quotient accumulated ms with
  | some currBitrate =>
    match bytesPerDuration bytes s.currWindowSize with
    | none => (s, .divisionByZero)
    | some bitrateAddition =>
      if s.maxBitrate < currBitrate.add bitrateAddition then (s, .done false)
      else (consumed, .done true)
  | none => (consumed, .done true)

/-- What is called, and when. -/
inductive Op
  | setMaxBitrate (maxBitrate : DataRate)
  | setWindowSize (windowSize : TimeDelta) (now : Int)
  | tryConsumeBitrate (bytes : Nat) (now : Int)
  deriving DecidableEq

/-- One call after the other. -/
def machine : Machine BitrateLimiter Op Outcome where
  step s
    | .setMaxBitrate maxBitrate => (s.setMaxBitrate maxBitrate, .done true)
    | .setWindowSize windowSize now =>
      ((s.setWindowSize windowSize now).1, .done (s.setWindowSize windowSize now).2)
    | .tryConsumeBitrate bytes now => s.tryConsumeBitrate quotient bytes now

end

/-- Both windows are the same, and positive. -/
def Consistent (s : BitrateLimiter) : Prop :=
  s.currWindowSize = s.bitrateStats.currentWindowSize ∧
    (UnitValue.micros 0).lt s.currWindowSize = true

instance (s : BitrateLimiter) : Decidable s.Consistent := inferInstanceAs (Decidable (_ ∧ _))

/-- A window that is positive and not larger than the largest one. -/
def fitsWindow (maxWindowSize windowSize : TimeDelta) : Bool :=
  (UnitValue.micros 0).lt windowSize && !maxWindowSize.lt windowSize

/-- The window of a call, if it sets one, is taken. -/
def Op.fits (maxWindowSize : TimeDelta) : Op → Bool
  | .setWindowSize windowSize _ => fitsWindow maxWindowSize windowSize
  | _ => true

/-- What a call may do: a refused window changes nothing, and nothing is divided by zero. -/
def Harmless (s : BitrateLimiter) (op : Op) (next : BitrateLimiter × Outcome) : Prop :=
  next.2 ≠ .divisionByZero ∧
    ∀ windowSize now, op = .setWindowSize windowSize now → next.2 = .done false → next.1 = s

/-! ## One call -/

section

variable {quotient : Int → Int → Option DataRate} {s : BitrateLimiter} {maxWindowSize : TimeDelta}
  {windowSize : TimeDelta}

theorem fitsWindow_iff :
    fitsWindow maxWindowSize windowSize = true ↔
      (UnitValue.micros 0).lt windowSize = true ∧ maxWindowSize.lt windowSize = false := by
  simp [fitsWindow]

/-- The windows of a limiter that agree, positive and not too large. -/
structure Sound (maxWindowSize : TimeDelta) (s : BitrateLimiter) : Prop where
  consistent : s.Consistent
  maxWindow : s.bitrateStats.maxWindowSize = maxWindowSize
  bounded : maxWindowSize.lt s.bitrateStats.currentWindowSize = false

theorem create_sound (h : (UnitValue.micros 0).lt maxWindowSize = true) :
    Sound maxWindowSize (create maxWindowSize) :=
  ⟨⟨rfl, h⟩, rfl, UnitValue.lt_irrefl _⟩

theorem tryConsumeBitrate_windows (quotient : Int → Int → Option DataRate) (s : BitrateLimiter)
    (bytes : Nat) (now : Int) :
    let next := (s.tryConsumeBitrate quotient bytes now).1
    next.currWindowSize = s.currWindowSize ∧
      next.bitrateStats.currentWindowSize = s.bitrateStats.currentWindowSize ∧
      next.bitrateStats.maxWindowSize = s.bitrateStats.maxWindowSize := by
  unfold tryConsumeBitrate
  dsimp only
  split
  · split
    · simp
    · split <;> simp
  · simp

theorem us_ne_zero (h : (UnitValue.micros 0).lt windowSize = true) :
    windowSize.us ≠ 0 := by
  cases windowSize with
  | minusInfinity => cases h
  | plusInfinity => decide
  | micros us =>
    have hpos : 0 < us := of_decide_eq_true h
    exact hpos.ne'

theorem tryConsumeBitrate_defined (h : (UnitValue.micros 0).lt s.currWindowSize = true)
    (bytes : Nat) (now : Int) : (s.tryConsumeBitrate quotient bytes now).2 ≠ .divisionByZero := by
  unfold tryConsumeBitrate bytesPerDuration
  dsimp only
  rw [if_neg (us_ne_zero h)]
  split
  · dsimp only
    split <;> simp
  · simp

theorem Sound.accepts (h : Sound maxWindowSize s)
    (hfits : fitsWindow maxWindowSize windowSize = true) :
    s.bitrateStats.acceptsWindow windowSize = true := by
  obtain ⟨hpos, hbounded⟩ := fitsWindow_iff.1 hfits
  refine BitrateStatistics.acceptsWindow_iff.2 ⟨?_, ?_⟩
  · rintro rfl
    cases hpos
  · rw [h.maxWindow]
    exact hbounded

/-- **One call.**  The windows still agree after it exactly when it offers none that is refused. -/
theorem Sound.step_iff (h : Sound maxWindowSize s) (op : Op) :
    ((machine quotient).step s op).1.Consistent ↔ op.fits maxWindowSize = true := by
  cases op with
  | setMaxBitrate maxBitrate => exact iff_of_true h.consistent rfl
  | tryConsumeBitrate bytes now =>
    obtain ⟨hcurr, hstats, -⟩ := tryConsumeBitrate_windows quotient s bytes now
    refine iff_of_true ?_ rfl
    show (s.tryConsumeBitrate quotient bytes now).1.Consistent
    unfold Consistent
    rw [hcurr, hstats]
    exact h.consistent
  | setWindowSize windowSize now =>
    have hcurr : (s.setWindowSize windowSize now).1.currWindowSize = windowSize := rfl
    have hstats := s.bitrateStats.setWindowSize_currentWindowSize windowSize now
    obtain ⟨heq, hpos⟩ := h.consistent
    show (s.setWindowSize windowSize now).1.Consistent ↔ fitsWindow maxWindowSize windowSize = true
    constructor
    · rintro ⟨hsame, hwindow⟩
      rw [hcurr] at hsame hwindow
      refine fitsWindow_iff.2 ⟨hwindow, ?_⟩
      have hnew : windowSize = if s.bitrateStats.acceptsWindow windowSize then windowSize
          else s.bitrateStats.currentWindowSize := hsame.trans hstats
      cases haccepts : s.bitrateStats.acceptsWindow windowSize with
      | true =>
        have := BitrateStatistics.acceptsWindow_iff.1 haccepts
        rw [h.maxWindow] at this
        exact this.2
      | false =>
        rw [haccepts, if_neg Bool.false_ne_true] at hnew
        rw [hnew]
        exact h.bounded
    · intro hfits
      rw [h.accepts hfits, if_pos rfl] at hstats
      exact ⟨hstats.symm, (fitsWindow_iff.1 hfits).1⟩

theorem Sound.step (h : Sound maxWindowSize s) {op : Op} (hfits : op.fits maxWindowSize = true) :
    Sound maxWindowSize ((machine quotient).step s op).1 := by
  refine ⟨(h.step_iff op).2 hfits, ?_, ?_⟩
  · cases op with
    | setMaxBitrate maxBitrate => exact h.maxWindow
    | tryConsumeBitrate bytes now =>
      exact (tryConsumeBitrate_windows quotient s bytes now).2.2.trans h.maxWindow
    | setWindowSize windowSize now =>
      exact (s.bitrateStats.setWindowSize_maxWindowSize windowSize now).trans h.maxWindow
  · cases op with
    | setMaxBitrate maxBitrate => exact h.bounded
    | tryConsumeBitrate bytes now =>
      show maxWindowSize.lt
        (s.tryConsumeBitrate quotient bytes now).1.bitrateStats.currentWindowSize = false
      rw [(tryConsumeBitrate_windows quotient s bytes now).2.1]
      exact h.bounded
    | setWindowSize windowSize now =>
      show maxWindowSize.lt
        (s.bitrateStats.setWindowSize windowSize now).1.currentWindowSize = false
      rw [s.bitrateStats.setWindowSize_currentWindowSize]
      split
      · exact (fitsWindow_iff.1 hfits).2
      · exact h.bounded

theorem Sound.harmless (h : Sound maxWindowSize s) {op : Op}
    (hfits : op.fits maxWindowSize = true) : Harmless s op ((machine quotient).step s op) := by
  cases op with
  | setMaxBitrate maxBitrate => exact ⟨by simp [machine], fun _ _ heq => by cases heq⟩
  | tryConsumeBitrate bytes now =>
    exact ⟨tryConsumeBitrate_defined h.consistent.2 bytes now, fun _ _ heq => by cases heq⟩
  | setWindowSize windowSize now =>
    refine ⟨by simp [machine], fun _ _ _ hrefused => ?_⟩
    have hsnd : (s.bitrateStats.setWindowSize windowSize now).2 = false :=
      Outcome.done.inj hrefused
    rw [s.bitrateStats.setWindowSize_snd, h.accepts hfits] at hsnd
    cases hsnd

end

/-! ## Runs -/

/-- **The windows agree in every state of a run**, they are positive, a refused window changes
nothing and nothing is divided by zero, exactly when the largest window is positive and every window
that is offered fits. -/
theorem limiter_consistent_iff (quotient : Int → Int → Option DataRate) (maxWindowSize : TimeDelta)
    (ops : List Op) :
    ((create maxWindowSize).Consistent ∧
        (machine quotient).AllGood (fun s op =>
          let next := (machine quotient).step s op
          next.1.Consistent ∧ Harmless s op next) (create maxWindowSize) ops) ↔
      (UnitValue.micros 0).lt maxWindowSize = true ∧ ∀ op ∈ ops, op.fits maxWindowSize = true := by
  have hcreate : (create maxWindowSize).Consistent ↔
      (UnitValue.micros 0).lt maxWindowSize = true := ⟨And.right, fun h => ⟨rfl, h⟩⟩
  rw [hcreate]
  refine and_congr_right fun hpos => ?_
  have hkeep : ∀ (s : BitrateLimiter) (op : Op), Sound maxWindowSize s →
      op.fits maxWindowSize = true → Sound maxWindowSize ((machine quotient).step s op).1 :=
    fun s op hsound hfits => hsound.step hfits
  rw [(machine quotient).allGood_iff_of_invariant hkeep
    (fun s op hsound => ⟨fun h => (hsound.step_iff op).1 h.1,
      fun hfits => ⟨(hsound.step_iff op).2 hfits, hsound.harmless hfits⟩⟩)
    (create_sound hpos) ops]
  exact (machine quotient).allGood_inputs

/-- The rate in bits per second, rounded. -/
def roundedRate (accumulated ms : Int) : Option DataRate :=
  some ((16000 * accumulated + ms) / (2 * ms))

/-- A window of zero is refused but kept: the windows differ after it, and the next call that finds
a rate divides by zero. -/
theorem zero_window_kept :
    let ops : List Op := [.setMaxBitrate 100000, .tryConsumeBitrate 100 20000000,
      .tryConsumeBitrate 100 20500000]
    let s := (machine roundedRate).final (create (.micros 1000000)) ops
    let next := (machine roundedRate).step s (.setWindowSize (.micros 0) 20600000)
    next.2 = .done false ∧ next.1 ≠ s ∧ ¬next.1.Consistent ∧
      ((machine roundedRate).step next.1 (.tryConsumeBitrate 1 20700000)).2 = .divisionByZero := by
  decide +kernel

end BitrateLimiter

end NaiveRtc
