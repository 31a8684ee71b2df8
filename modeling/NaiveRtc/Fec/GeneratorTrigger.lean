import NaiveRtc.Fec.EncodeOutcome
import NaiveRtc.Fec.UlpFecGenerator

/-!
# When the generator encodes

* `excessOverhead` — the excess of the actual rate over the target, with its sign.
* `Due` — when a packet should make the generator encode.
* `maxExcessOverheadNotReached_iff` — **an excess below zero counts as a large one.**
* `Asserted` — the parameters passed their assertions; every call keeps it.
* `triggersWhenDue_iff` — a run encodes when it should exactly if the excess is never below zero
  where it decides.
-/

namespace NaiveRtc.Fec

namespace UlpFecGenerator

variable (g : UlpFecGenerator)

/-- The excess of the actual rate over the target. -/
def excessOverhead : Int := (g.actualFecRate g.currParams.fecRate : Int) - g.currParams.fecRate

/-- A complete frame should be encoded when there are enough frames, or when the excess is small
and there are enough packets. -/
def Due (completeFrame : Bool) : Prop :=
  completeFrame = true ∧ (g.currParams.maxFecFrames ≤ g.numProtectedFrames ∨
    g.excessOverhead < kMaxExcessOverhead ∧ g.minimumMediaPacketsReached = true)

instance (completeFrame : Bool) : Decidable (g.Due completeFrame) :=
  inferInstanceAs (Decidable (_ ∧ (_ ∨ _ ∧ _)))

/-- A complete frame that is due because its excess is below zero. -/
def Undershoots (completeFrame : Bool) : Prop :=
  completeFrame = true ∧ g.numProtectedFrames < g.currParams.maxFecFrames ∧
    g.excessOverhead < 0 ∧ g.minimumMediaPacketsReached = true

/-! ## One packet -/

section Rates

variable {g} {rate : Nat}

theorem calcNumFecPackets_mul_le {n factor : Nat} (hfactor : factor ≤ 255) (hn : 0 < n) :
    calcNumFecPackets n factor * 256 ≤ n * 383 := by
  unfold calcNumFecPackets
  have hmul : n * factor ≤ n * 255 := Nat.mul_le_mul_left _ hfactor
  dsimp only
  split <;> omega

theorem actualFecRate_le : g.actualFecRate rate ≤ 383 := by
  unfold actualFecRate
  rcases Nat.eq_zero_or_pos g.mediaPackets.length with hempty | hpos
  · rw [hempty, Nat.div_zero]
    exact Nat.zero_le _
  · exact Nat.div_le_of_le_mul (calcNumFecPackets_mul_le (by omega) hpos)

theorem maxExcessOverheadNotReached_iff (h : rate ≤ 255) :
    g.maxExcessOverheadNotReached rate = true ↔
      0 ≤ (g.actualFecRate rate : Int) - rate ∧
        (g.actualFecRate rate : Int) - rate < kMaxExcessOverhead := by
  have hle := @actualFecRate_le g rate
  unfold maxExcessOverheadNotReached sizeT kMaxExcessOverhead
  rw [decide_eq_true_eq]
  omega

theorem triggers_iff_due (h : g.currParams.fecRate ≤ 255) (completeFrame : Bool) :
    (g.triggers completeFrame = true ↔ g.Due completeFrame) ↔ ¬g.Undershoots completeFrame := by
  unfold triggers Due Undershoots excessOverhead
  rw [Bool.and_eq_true, Bool.or_eq_true, Bool.and_eq_true, decide_eq_true_eq,
    maxExcessOverheadNotReached_iff h]
  generalize (g.actualFecRate g.currParams.fecRate : Int) - g.currParams.fecRate = excess
  unfold kMaxExcessOverhead
  constructor
  · rintro hiff ⟨hframe, hfew, hexcess, hmin⟩
    have hdue := hiff.2 ⟨hframe, Or.inr ⟨by omega, hmin⟩⟩
    omega
  · intro hnot
    refine and_congr_right fun hframe => ?_
    constructor
    · rintro (hmany | ⟨⟨-, hlt⟩, hmin⟩)
      · exact Or.inl hmany
      · exact Or.inr ⟨hlt, hmin⟩
    · rintro (hmany | ⟨hlt, hmin⟩)
      · exact Or.inl hmany
      · by_cases hfew : g.numProtectedFrames < g.currParams.maxFecFrames
        · have hexcess : 0 ≤ excess := by
            by_contra hneg
            exact hnot ⟨hframe, hfew, by omega, hmin⟩
          exact Or.inr ⟨⟨hexcess, hlt⟩, hmin⟩
        · exact Or.inl (by omega)

end Rates

/-! ## Runs -/

/-- The parameters passed their assertions. -/
structure Asserted : Prop where
  delta : g.currentParams.1.fecRate ≤ 255
  key : g.currentParams.2.fecRate ≤ 255
  pending : ∀ params, g.pendingParams = some params →
    params.1.fecRate ≤ 255 ∧ params.2.fecRate ≤ 255

section Asserted

variable {g}

theorem Asserted.currParams (h : g.Asserted) : g.currParams.fecRate ≤ 255 := by
  unfold UlpFecGenerator.currParams
  split
  · exact h.key
  · exact h.delta

theorem Asserted.of_params (h : g.Asserted) {g' : UlpFecGenerator}
    (hcurrent : g'.currentParams = g.currentParams)
    (hpending : g'.pendingParams = g.pendingParams) : g'.Asserted :=
  ⟨hcurrent ▸ h.delta, hcurrent ▸ h.key, fun params hp => h.pending params (hpending ▸ hp)⟩

theorem Asserted.takePendingParams (h : g.Asserted) : g.takePendingParams.Asserted := by
  unfold UlpFecGenerator.takePendingParams
  split
  · next params hpending =>
    have hparams := h.pending params hpending
    exact ⟨hparams.1, hparams.2, fun _ hnone => by cases hnone⟩
  · exact h

theorem Asserted.collect (h : g.Asserted) (mediaPacket : MediaPacket) :
    (g.collect mediaPacket).Asserted :=
  h.takePendingParams.of_params rfl rfl

theorem Asserted.encodeFec (h : g.Asserted) : g.encodeFec.Asserted := by
  refine h.of_params ?_ ?_
  all_goals
    unfold UlpFecGenerator.encodeFec UlpFecGenerator.reset
    dsimp only
    split <;> rfl

theorem Asserted.step (h : g.Asserted) (growTo : Nat → Nat → Nat) (call : UlpFecCall) :
    ((ulpFecGeneratorMachine growTo).step g call).1.Asserted := by
  cases call with
  | setProtectionParameters deltaParams keyParams =>
    show (if _ then _ else _ : UlpFecGenerator × UlpFecEvent).1.Asserted
    split
    · next hrates =>
      refine ⟨h.delta, h.key, fun params hp => ?_⟩
      obtain rfl := Option.some.inj hp
      exact hrates
    · exact h
  | pushMediaPacket mediaPacket =>
    show (g.pushMediaPacket mediaPacket).1.Asserted
    unfold pushMediaPacket
    dsimp only
    split
    · exact (h.collect mediaPacket).encodeFec
    · exact h.collect mediaPacket
  | popFecPackets =>
    have hpop : ∀ r, g.popFecPackets growTo = some r → r.1.Asserted := by
      intro r hr
      unfold popFecPackets at hr
      split_ifs at hr
      · cases hr
        exact h
      · split at hr
        · cases hr
          exact h
        · obtain ⟨redPackets, -, rfl⟩ := Option.map_eq_some_iff.1 hr
          exact h.of_params rfl rfl
    unfold ulpFecGeneratorMachine
    dsimp only
    cases hr : g.popFecPackets growTo with
    | none => exact h
    | some r => exact hpop r hr

theorem asserted_create (redPayloadType fecPayloadType : Int) (fecEncoder : FecEncoder) :
    (create redPayloadType fecPayloadType fecEncoder).Asserted :=
  ⟨Nat.zero_le _, Nat.zero_le _, fun _ hnone => by cases hnone⟩

end Asserted

end UlpFecGenerator

/-- A packet makes the generator encode when it should. -/
def TriggersWhenDue (g : UlpFecGenerator) : UlpFecCall → Prop
  | .pushMediaPacket mediaPacket =>
    (g.pushMediaPacket mediaPacket).2 = true ↔ (g.collect mediaPacket).Due mediaPacket.marker
  | _ => True

/-- A packet does not complete a frame whose excess is below zero. -/
def NeverUndershoots (g : UlpFecGenerator) : UlpFecCall → Prop
  | .pushMediaPacket mediaPacket => ¬(g.collect mediaPacket).Undershoots mediaPacket.marker
  | _ => True

theorem pushMediaPacket_snd (g : UlpFecGenerator) (mediaPacket : MediaPacket) :
    (g.pushMediaPacket mediaPacket).2 = (g.collect mediaPacket).triggers mediaPacket.marker := by
  unfold UlpFecGenerator.pushMediaPacket
  dsimp only
  split
  · next htriggers => exact htriggers.symm
  · next htriggers => exact (Bool.eq_false_iff.2 htriggers).symm

/-- **A run encodes exactly when it should**, as long as the excess of no complete frame that is
due is below zero. -/
theorem triggersWhenDue_iff (growTo : Nat → Nat → Nat) (redPayloadType fecPayloadType : Int)
    (fecEncoder : FecEncoder) (calls : List UlpFecCall) :
    (ulpFecGeneratorMachine growTo).AllGood TriggersWhenDue
        (.create redPayloadType fecPayloadType fecEncoder) calls ↔
      (ulpFecGeneratorMachine growTo).AllGood NeverUndershoots
        (.create redPayloadType fecPayloadType fecEncoder) calls := by
  refine (ulpFecGeneratorMachine growTo).allGood_iff_of_invariant
    (I := UlpFecGenerator.Asserted) (fun g call h _ => h.step growTo call) (fun g call h => ?_)
    (UlpFecGenerator.asserted_create _ _ _) calls
  cases call with
  | pushMediaPacket mediaPacket =>
    show (_ = true ↔ _) ↔ ¬_
    rw [pushMediaPacket_snd]
    exact UlpFecGenerator.triggers_iff_due (h.collect mediaPacket).currParams mediaPacket.marker
  | setProtectionParameters deltaParams keyParams => exact Iff.rfl
  | popFecPackets => exact Iff.rfl

/-- A packet of a frame of five. -/
def frameOfFive (i : Nat) : MediaPacket where
  toRtpPacket := { bareHeader (BitVec.ofNat 16 i) with marker := decide (i = 4) }

/-- A frame of five packets, with an actual rate of 51 and a target of 60. -/
theorem not_triggersWhenDue_five :
    ¬(ulpFecGeneratorMachine fun _ size => size).AllGood TriggersWhenDue
      (.create 98 99 { packetMasks := List.replicate maxPacketMaskCount 0
                       tmpPacketMasks := List.replicate maxPacketMaskCount 0 })
      (.setProtectionParameters { fecRate := 60, maxFecFrames := 10 } {} ::
        (List.range 5).map fun i => .pushMediaPacket (frameOfFive i)) := by
  rintro ⟨-, -, -, -, -, hlast, -⟩
  dsimp only [TriggersWhenDue] at hlast
  rw [pushMediaPacket_snd] at hlast
  have hdue := hlast.2 (by decide)
  exact absurd hdue (by decide)

end NaiveRtc.Fec
