import NaiveRtc.CongestionControl.ProbeController

/-!
# When a mid-call probing goes on

`mid_call_probing_` is engaged by `OnBitrates` alone, and three calls clear it.  This file says of
the calls made so far whether it is engaged.

* `StartsMidCall`, `EndsMidCall`, `MidCallGoesOn` — the calls that matter, and what they come to.
* `midCall_step` — **one call** starts a mid-call probing, or keeps the one there is unless it
  ends it.
* `Reached.midCall_isSome_iff` — the same over every run.
-/

namespace NaiveRtc.CongestionControl

namespace ProbeController

/-! ## From the first call to the last -/

/-- The call starts a mid-call probing with a threshold for its success: no probing goes on, and
the maximum is raised, above an estimate that is known. -/
def StartsMidCall (config : Configuration) (s : ProbeController) (threshold : DataRate) :
    Call → Prop
  | .onBitrates startBitrate minBitrate maxBitrate _ =>
    let estimate := (s.storeBitrates startBitrate minBitrate maxBitrate).estimatedBitrate
    s.probingState = .done ∧ estimate ≠ 0 ∧ s.maxBitrate < maxBitrate ∧ estimate < maxBitrate ∧
      threshold = min (config.estimateJump.times estimate) (config.nearMaximum.times maxBitrate)
  | _ => False

/-- The call ends a mid-call probing with that threshold: an estimate above it, a periodic call
more than a second after the last probing, or a reset. -/
def EndsMidCall (s : ProbeController) (threshold : DataRate) : Call → Prop
  | .onEstimatedBitrate estimate _ => threshold < estimate
  | .onPeriodicProcess atTime =>
    kMaxWaitingTimeForProbingResult.lt (atTime.sub s.timeLastProbingInitiated) = true
  | .reset _ => True
  | _ => False

/-- After these calls a mid-call probing goes on: one of them started it, and none since then
started another one or ended it. -/
inductive MidCallGoesOn (config : Configuration) : List Call → DataRate → Prop
  | starts {done : List Call} {call : Call} {s : ProbeController}
      {outs : List (List ProbeClusterConfig)} {threshold : DataRate}
      (hdone : Reached config done s outs) (hstarts : s.StartsMidCall config threshold call) :
      MidCallGoesOn config (done ++ [call]) threshold
  | goesOn {done : List Call} {call : Call} {s : ProbeController}
      {outs : List (List ProbeClusterConfig)} {threshold : DataRate}
      (hdone : Reached config done s outs) (hgoes : MidCallGoesOn config done threshold)
      (hstarts : ∀ other, ¬ s.StartsMidCall config other call)
      (hends : ¬ s.EndsMidCall threshold call) :
      MidCallGoesOn config (done ++ [call]) threshold

/-- A mid-call probing with that threshold waits for its result. -/
def MidCallWaits (s : ProbeController) (threshold : DataRate) : Prop :=
  ∃ bitrate, s.midCallProbing = some ⟨.waiting, bitrate, threshold⟩

variable {config : Configuration} {s s' : ProbeController} {out : List ProbeClusterConfig}
  {threshold : DataRate}
  {call : Call} {calls done : List Call} {outs : List (List ProbeClusterConfig)}

/-! ## One call -/

/-- Every mid-call probing there is waits for its result. -/
def MidCallsWait (s : ProbeController) : Prop :=
  ∀ m, s.midCallProbing = some m → m.probingState = .waiting

/-- What a call does to the mid-call probing, as a statement about those that wait. -/
structure MidCallStep (config : Configuration) (s : ProbeController) (call : Call)
    (s' : ProbeController) : Prop where
  wait : s'.MidCallsWait
  iff : ∀ threshold, s'.MidCallWaits threshold ↔ s.StartsMidCall config threshold call ∨
    (∀ other, ¬ s.StartsMidCall config other call) ∧ s.MidCallWaits threshold ∧
      ¬ s.EndsMidCall threshold call

theorem MidCallStep.kept (hwait : s.MidCallsWait)
    (hstarts : ∀ other, ¬ s.StartsMidCall config other call)
    (hends : ∀ threshold, s.MidCallWaits threshold → ¬ s.EndsMidCall threshold call)
    (hsame : s'.midCallProbing = s.midCallProbing) : MidCallStep config s call s' := by
  unfold MidCallWaits at hends
  refine ⟨?_, fun threshold => ?_⟩
  · unfold MidCallsWait
    rwa [hsame]
  · unfold MidCallWaits
    rw [hsame, or_iff_right (hstarts threshold)]
    exact ⟨fun hwaits => ⟨hstarts, hwaits, hends threshold hwaits⟩, fun hwaits => hwaits.2.1⟩

theorem MidCallStep.ended (hstarts : ∀ other, ¬ s.StartsMidCall config other call)
    (hends : ∀ threshold, s.MidCallWaits threshold → s.EndsMidCall threshold call)
    (hnone : s'.midCallProbing = none) : MidCallStep config s call s' := by
  refine ⟨fun m hm => ?_, fun threshold => ?_⟩
  · rw [hnone] at hm
    cases hm
  · refine iff_of_false (fun ⟨bitrate, hm⟩ => ?_) ?_
    · rw [hnone] at hm
      cases hm
    · rintro (hstart | ⟨-, hwaits, hnot⟩)
      · exact hstarts threshold hstart
      · exact hnot (hends threshold hwaits)

theorem midCall_step (hwait : s.MidCallsWait)
    (h : (controller config).step s call = .ok (s', out)) : MidCallStep config s call s' := by
  have hafter := midCall_step_eq h
  cases call with
  | onBitrates startBitrate minBitrate maxBitrate atTime =>
    unfold midCallAfter at hafter
    dsimp only at hafter
    split_ifs at hafter with hraised
    · refine ⟨fun m hm => ?_, fun other => ?_⟩
      · rw [hafter] at hm
        cases hm
        rfl
      · have hcall : s.StartsMidCall config other
            (.onBitrates startBitrate minBitrate maxBitrate atTime) ↔ other = min _ _ :=
          ⟨fun hother => hother.2.2.2.2,
            fun heq => ⟨hraised.1, hraised.2.1, hraised.2.2.1, hraised.2.2.2, heq⟩⟩
        rw [hcall, or_iff_left fun hnone =>
          hnone.1 _ ⟨hraised.1, hraised.2.1, hraised.2.2.1, hraised.2.2.2, rfl⟩]
        unfold MidCallWaits
        rw [hafter]
        exact ⟨fun ⟨_, heq⟩ => by cases heq; rfl, fun heq => ⟨maxBitrate, by rw [heq]⟩⟩
    · refine .kept hwait (fun _ hstarts => hraised ?_) (fun _ _ => id) hafter
      exact ⟨hstarts.1, hstarts.2.1, hstarts.2.2.1, hstarts.2.2.2.1⟩
  | onEstimatedBitrate estimate atTime =>
    cases hm : s.midCallProbing with
    | none =>
      have hnone : ∀ threshold, ¬ s.MidCallWaits threshold := by
        rintro threshold ⟨bitrate, hthis⟩
        rw [hm] at hthis
        cases hthis
      refine .kept hwait (fun _ => id) (fun _ hwaits => absurd hwaits (hnone _)) ?_
      rw [hafter, midCallAfter, hm]
      rfl
    | some m =>
      have hleft : s'.midCallProbing =
          if m.probingState = .waiting ∧ m.successThreshold < estimate then none else some m := by
        rw [hafter, midCallAfter, hm]
        rfl
      have hmine : ∀ threshold, s.MidCallWaits threshold → threshold = m.successThreshold := by
        rintro threshold ⟨bitrate, hthis⟩
        rw [hm] at hthis
        cases hthis
        rfl
      split_ifs at hleft with hsuccess
      · exact .ended (fun _ => id) (fun _ hwaits => hmine _ hwaits ▸ hsuccess.2) hleft
      · exact .kept hwait (fun _ => id)
          (fun _ hwaits hends => hsuccess ⟨hwait m hm, hmine _ hwaits ▸ hends⟩)
            (hleft.trans hm.symm)
  | onPeriodicProcess atTime =>
    unfold midCallAfter at hafter
    dsimp only at hafter
    split_ifs at hafter with hlate
    · exact .ended (fun _ => id) (fun _ _ => hlate) hafter
    · exact .kept hwait (fun _ => id) (fun _ _ => hlate) hafter
  | reset atTime => exact .ended (fun _ => id) (fun _ _ => trivial) hafter
  | _ => exact .kept hwait (fun _ => id) (fun _ _ => id) hafter

/-! ## Runs -/

theorem midCallGoesOn_concat_iff (hdone : Reached config done s outs) :
    MidCallGoesOn config (done ++ [call]) threshold ↔ s.StartsMidCall config threshold call ∨
      (∀ other, ¬ s.StartsMidCall config other call) ∧ MidCallGoesOn config done threshold ∧
        ¬ s.EndsMidCall threshold call := by
  constructor
  · generalize hcalls : done ++ [call] = calls
    rintro (⟨hthis, hstarts⟩ | ⟨hthis, hgoes, hstarts, hends⟩)
    all_goals
      obtain ⟨rfl, hcall⟩ := List.append_inj' hcalls rfl
      obtain rfl := List.head_eq_of_cons_eq hcall
      cases hdone.symm.trans hthis
    · exact Or.inl hstarts
    · exact Or.inr ⟨hstarts, hgoes, hends⟩
  · rintro (hstarts | ⟨hstarts, hgoes, hends⟩)
    · exact .starts hdone hstarts
    · exact .goesOn hdone hgoes hstarts hends

theorem Reached.midCallWaits_iff (h : Reached config calls s outs) :
    s.MidCallsWait ∧ ∀ threshold, s.MidCallWaits threshold ↔
      MidCallGoesOn config calls threshold := by
  induction calls using List.reverseRecOn generalizing s outs with
  | nil =>
    cases h
    refine ⟨fun m hm => (Option.some_ne_none m hm.symm).elim,
      fun threshold => iff_of_false ?_ ?_⟩
    · rintro ⟨bitrate, hm⟩
      cases hm
    · generalize hnil : ([] : List Call) = calls
      rintro (_ | _) <;> simp at hnil
  | append_singleton done call ih =>
    obtain ⟨mid, outs₁, out, hdone, hstep, rfl⟩ := CheckedMachine.run_concat_ok_iff.1 h
    obtain ⟨hwait, hiff⟩ := ih hdone
    obtain ⟨hwait', hiff'⟩ := midCall_step hwait hstep
    refine ⟨hwait', fun threshold => ?_⟩
    rw [hiff', hiff, midCallGoesOn_concat_iff hdone]

theorem Reached.midCall_isSome_iff (h : Reached config calls s outs) :
    s.midCallProbing.isSome = true ↔ ∃ threshold, MidCallGoesOn config calls threshold := by
  obtain ⟨hwait, hiff⟩ := h.midCallWaits_iff
  simp only [← hiff, Option.isSome_iff_exists]
  constructor
  · rintro ⟨⟨state, bitrate, threshold⟩, hm⟩
    obtain rfl : state = .waiting := hwait _ hm
    exact ⟨threshold, bitrate, hm⟩
  · rintro ⟨threshold, bitrate, hm⟩
    exact ⟨_, hm⟩

end ProbeController
end NaiveRtc.CongestionControl
