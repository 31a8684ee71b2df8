import NaiveRtc.Pacing.SendLoopEnds

/-!
# Runs of the pacer

No call of the pacer divides by a rate of zero, and the send loop always ends, as long as there is
something to send at a rate.

* `Processable` — when `ProcessPackets` has rates for what there is to do.
* `Safe`, `Allowed` — the condition on a call, and what its caller promises.
* `processPackets_spec` — `ProcessPackets` comes to an end.
* `controller_total` — **every call of a run does**, where all calls are safe.
* `starved_loop` — padding that is refused is asked for again and again.
-/

namespace NaiveRtc.Pacing

open CongestionControl (DataRate)
open Loop (Outcome Pass)

namespace PacingController

/-- The rate that media is sent at by a call of `ProcessPackets`. -/
def bitrateAt (s : PacingController) (now : Int) : DataRate :=
  ((s.updateProcessTime now).1.adjustBitrate (s.updateProcessTime now).2.1 now).mediaBitrate

/-- There is a pacing rate, under which padding counts as debt; or there is nothing to send at a
rate: nothing is sent while paused or before the first packet, or there is neither a probe nor
padding to send, nor media without a rate. -/
def Processable (s : PacingController) (now : Int) : Prop :=
  (0 < s.pacingBitrate ∧
      (bytesIn s.pacingSettings.paddingTargetDuration s.paddingBitrate ≠ 0 →
        bytesIn kMaxDebtInTime s.paddingBitrate ≠ 0)) ∨
    s.paused = true ∨ s.packetCounter = 0 ∨
    (s.prober.isProbing = false ∧ s.paddingBitrate = 0 ∧
      (s.packetQueue.isEmpty = true ∨ s.bitrateAt now ≠ 0))

/-- The rates that a call divides by are not zero, and padding that it asks for is taken. -/
def Safe (s : PacingController) : Op → Prop
  | .expectedQueueTime => s.pacingBitrate ≠ 0
  | .nextSendTime now => ¬s.PadsWithoutMedia now
  | .processPackets _ now => s.Processable now
  | _ => True

/-- What the caller of a call promises: rates are not negative, padding has a size, and protection
ends. -/
def Op.Allowed : Op → Prop
  | .setPacingBitrates pacingBitrate paddingBitrate => 0 ≤ pacingBitrate ∧ 0 ≤ paddingBitrate
  | .processPackets sender _ => sender.Pads ∧ ∃ bound, sender.Protects bound
  | _ => True

/-! ## Before and after the loop -/

section

variable {s : PacingController} {sender : PacketSender} {now : Int}

theorem sendHeartbeat_spec (hsane : Sane s) (sender : PacketSender) (now : Int)
    (packets : List RtpPacketToSend) :
    ∃ s' fecCalls, s.sendHeartbeat sender now packets = some (s', fecCalls) ∧ Sane s' ∧
      Kept s s' ∧ (s.pacingBitrate = 0 → s' = s) := by
  unfold sendHeartbeat
  generalize 0 = fecCalls
  induction packets generalizing s fecCalls with
  | nil => exact ⟨s, fecCalls, rfl, hsane, Kept.refl s, fun _ => rfl⟩
  | cons packet packets ih =>
    obtain ⟨s₁, henqueue, hsane₁, hkept₁, hsame₁⟩ :=
      enqueuePackets_spec hsane (sender.fetchFecPackets fecCalls) now
    obtain ⟨s', fecCalls', hrest, hsane', hkept', hsame'⟩ := ih hsane₁ (fecCalls + 1)
    refine ⟨s', fecCalls', ?_, hsane', hkept₁.trans hkept', fun hzero => ?_⟩
    · rw [List.foldlM_cons]
      dsimp only
      rw [henqueue]
      exact hrest
    · obtain rfl := hsame₁ hzero
      exact hsame' hzero

/-- The heartbeat leaves the rates alone, and enqueues nothing without a pacing rate or before the
first packet. -/
theorem heartbeat_spec (hsane : Sane s) (sender : PacketSender)
    (now targetSendTime prevProcessTime : Int) :
    ∃ l, s.heartbeat sender now targetSendTime prevProcessTime = some l ∧ Sane l.controller ∧
      Kept s l.controller ∧ l.targetSendTime = targetSendTime ∧
      (s.pacingBitrate = 0 ∨ s.packetCounter = 0 → Retimed s l.controller) := by
  unfold heartbeat
  dsimp only
  split
  case isFalse => exact ⟨_, rfl, hsane, Kept.refl s, rfl, fun _ => Retimed.refl s⟩
  case isTrue =>
    split
    case isTrue =>
      have hretimed : Retimed s { s with lastSendTime := now } := ⟨_, _, _, _, _, _, rfl⟩
      exact ⟨_, rfl, hretimed.sane hsane, hretimed.kept, rfl, fun _ => hretimed⟩
    case isFalse hcounter =>
      obtain ⟨s', fecCalls, hsend, hsane', hkept', hsame⟩ :=
        sendHeartbeat_spec hsane sender now (sender.generatePadding 0 1)
      rw [hsend]
      have hretimed := onPaddingSent_retimed s'
        ((sender.generatePadding 0 1).map fun packet =>
          packet.payloadSize + packet.paddingSize).sum now
      refine ⟨_, rfl, hretimed.sane hsane', hkept'.trans hretimed.kept, rfl, fun h => ?_⟩
      obtain rfl := hsame (h.resolve_right hcounter)
      exact hretimed

theorem updateEnqueueTime_isEmpty (q : RoundRobinPacketQueue) (atTime : Int) :
    (q.updateEnqueueTime atTime).isEmpty = q.isEmpty := by
  rw [RoundRobinPacketQueue.updateEnqueueTime_eq]
  rfl

theorem adjustBitrate_spec (hsane : Sane s) (elapsedTime now : Int) :
    ∃ queue rate, s.adjustBitrate elapsedTime now =
        { s with packetQueue := queue, mediaBitrate := rate } ∧
      RoundRobinPacketQueue.Sound queue ∧ queue.isEmpty = s.packetQueue.isEmpty ∧
      s.pacingBitrate ≤ rate := by
  unfold adjustBitrate
  split
  case isFalse => exact ⟨_, _, rfl, hsane.sound, rfl, hsane.media⟩
  case isTrue =>
    dsimp only
    split
    case isFalse => exact ⟨_, _, rfl, hsane.sound, rfl, le_refl _⟩
    case isTrue =>
      refine ⟨_, _, rfl, (RoundRobinPacketQueue.sound_update hsane.sound now).1,
        updateEnqueueTime_isEmpty s.packetQueue now, ?_⟩
      split
      · exact le_max_left _ _
      · exact le_refl _

theorem Retimed.adjustBitrate {s' : PacingController} (h : Retimed s s') (elapsedTime now : Int) :
    (s'.adjustBitrate elapsedTime now).mediaBitrate =
      (s.adjustBitrate elapsedTime now).mediaBitrate := by
  obtain ⟨_, _, _, _, _, _, rfl⟩ := h
  unfold PacingController.adjustBitrate
  split
  · dsimp only
    split <;> rfl
  · rfl

theorem takeProbe_spec (s : PacingController) (now : Int) :
    ∃ prober, (s.takeProbe now).1 = { s with prober := prober } ∧
      (s.prober.Divides → prober.Divides) ∧
      (s.prober.isProbing = false → (s.takeProbe now).2 = none ∧ prober = s.prober) := by
  unfold takeProbe
  split
  case isTrue hprobing =>
    exact ⟨_, rfl, fun hdivides => hdivides.step (.currentProbeCluster now),
      fun h => absurd (h.symm.trans hprobing) (by simp)⟩
  case isFalse => exact ⟨_, rfl, id, fun _ => ⟨rfl, rfl⟩⟩

theorem onProbeSent_isProbing {prober : BitrateProber} (h : prober.isProbing = false)
    (sentBytes : Nat) (now : Int) : (prober.onProbeSent sentBytes now).isProbing = false := by
  have hidle : prober.probingState ≠ .active := of_decide_eq_false h
  unfold BitrateProber.onProbeSent
  rw [if_pos (Or.inl hidle)]
  exact h

theorem finish_sane {l : SendLoop} (hsane : Sane l.controller) (cluster : Option ProbeCluster)
    (now : Int) : Sane (l.finish cluster now) := by
  unfold SendLoop.finish
  split
  · split
    · exact ⟨hsane.sound, hsane.pacing, hsane.media, hsane.untouched, hsane.divides⟩
    · exact ⟨hsane.sound, hsane.pacing, hsane.media, fun hzero =>
        ⟨(hsane.untouched hzero).1, onProbeSent_isProbing (hsane.untouched hzero).2 _ _⟩,
        hsane.divides.step (.onProbeSent l.sentBytes now)⟩
  · exact ⟨hsane.sound, hsane.pacing, hsane.media, hsane.untouched, hsane.divides⟩

theorem bytesIn_zero (duration : TimeDelta) : bytesIn duration 0 = 0 := by
  unfold bytesIn
  rw [Int.zero_mul]
  rfl

variable {bound : Nat}

variable (now) in
theorem startLoop_ends {l : SendLoop} (hsane : Sane l.controller) (hpads : sender.Pads)
    (hprotects : sender.Protects bound) (elapsedTime : Int)
    (hready : (0 < l.controller.pacingBitrate ∧
        (bytesIn l.controller.pacingSettings.paddingTargetDuration l.controller.paddingBitrate ≠ 0 →
          bytesIn kMaxDebtInTime l.controller.paddingBitrate ≠ 0)) ∨
      l.controller.packetCounter = 0 ∨
      (l.controller.prober.isProbing = false ∧ l.controller.paddingBitrate = 0 ∧
        (l.controller.packetQueue.isEmpty = true ∨
          (l.controller.adjustBitrate elapsedTime now).mediaBitrate ≠ 0))) :
    ∃ fuel l', SendLoop.sendLoop sender now (startLoop l elapsedTime now).2.1
        (startLoop l elapsedTime now).2.2 fuel (startLoop l elapsedTime now).1 = .done l' ∧
      Sane l'.controller := by
  obtain ⟨queue, rate, hadjust, hsound, hempty, hrate⟩ := adjustBitrate_spec hsane elapsedTime now
  obtain ⟨prober, htake, hdivides, hquiet⟩ :=
    takeProbe_spec (l.controller.adjustBitrate elapsedTime now) now
  have hcontroller : (startLoop l elapsedTime now).1.controller =
      { l.controller with packetQueue := queue, mediaBitrate := rate, prober := prober } := by
    show ((l.controller.adjustBitrate elapsedTime now).takeProbe now).1 = _
    rw [htake, hadjust]
  have hcluster : (startLoop l elapsedTime now).2.1 =
      ((l.controller.adjustBitrate elapsedTime now).takeProbe now).2 := rfl
  have hprober : (l.controller.adjustBitrate elapsedTime now).prober = l.controller.prober := by
    rw [hadjust]
  rw [hprober] at hdivides hquiet
  have hsane' : Sane (startLoop l elapsedTime now).1.controller := by
    rw [hcontroller]
    refine ⟨hsound, hsane.pacing, hrate, fun hzero => ?_, hdivides hsane.divides⟩
    obtain ⟨hqueue, hidle⟩ := hsane.untouched hzero
    refine ⟨hempty.trans hqueue, ?_⟩
    show prober.isProbing = false
    rw [(hquiet hidle).2]
    exact hidle
  have hnone : l.controller.prober.isProbing = false →
      (startLoop l elapsedTime now).1.firstPacketInProbe = false ∧
        (startLoop l elapsedTime now).2.2 = 0 := by
    intro hidle
    have hcluster' := (hquiet hidle).1
    constructor
    · show (((l.controller.adjustBitrate elapsedTime now).takeProbe now).2.any _) = false
      rw [hcluster']
      rfl
    · show (if ((l.controller.adjustBitrate elapsedTime now).takeProbe now).2.isSome then _
        else 0) = 0
      rw [hcluster']
      rfl
  have hprobing : (startLoop l elapsedTime now).2.1.isSome = false →
      (startLoop l elapsedTime now).2.2 = 0 := by
    intro hcluster'
    rw [hcluster] at hcluster'
    show (if ((l.controller.adjustBitrate elapsedTime now).takeProbe now).2.isSome then _
      else 0) = 0
    rw [hcluster']
    rfl
  have hrun : ∀ hmedia : rate ≠ 0,
      (0 < l.controller.pacingBitrate ∨
        (l.controller.paddingBitrate = 0 ∧ (startLoop l elapsedTime now).2.2 = 0)) →
      (bytesIn l.controller.pacingSettings.paddingTargetDuration l.controller.paddingBitrate ≠ 0 →
        bytesIn kMaxDebtInTime l.controller.paddingBitrate ≠ 0) →
      ∃ fuel l', SendLoop.sendLoop sender now (startLoop l elapsedTime now).2.1
          (startLoop l elapsedTime now).2.2 fuel (startLoop l elapsedTime now).1 = .done l' ∧
        Sane l'.controller := by
    intro hmedia htaken hcounts
    refine SendLoop.sendLoop_ends hpads hprotects
      (le_max_left now (startLoop l elapsedTime now).1.targetSendTime) hprobing
      ⟨hsane', ?_, ?_, ?_, le_max_right _ _⟩
    all_goals rw [hcontroller]; assumption
  rcases hready with ⟨hpacing, hcounts⟩ | hzero | ⟨hidle, hpadding, hqueue⟩
  · exact hrun (hpacing.trans_le hrate).ne' (Or.inl hpacing) hcounts
  · obtain ⟨hqueue, hidle⟩ := hsane.untouched hzero
    refine ⟨1, SendLoop.sendLoop_idle hsane' (hnone hidle).1 ?_ (Or.inl ?_)⟩
    · rw [hcontroller]
      exact hempty.trans hqueue
    · rw [hcontroller]
      exact hzero
  · rcases hqueue with hqueue | hmedia
    · refine ⟨1, SendLoop.sendLoop_idle hsane' (hnone hidle).1 ?_ (Or.inr ⟨?_, (hnone hidle).2⟩)⟩
      · rw [hcontroller]
        exact hempty.trans hqueue
      · rw [hcontroller]
        exact hpadding
    · rw [hadjust] at hmedia
      refine hrun hmedia (Or.inr ⟨hpadding, (hnone hidle).2⟩) fun hne => absurd ?_ hne
      rw [hpadding]
      exact bytesIn_zero _

theorem processDue_spec (hsane : Sane s) (hpads : sender.Pads)
    (hprotects : sender.Protects bound) (hprocess : s.Processable now) (targetSendTime : Int) :
    ∃ fuel r, s.processDue fuel sender now targetSendTime = .done r ∧ Sane r.1 := by
  have hupdate := updateProcessTime_retimed s now
  obtain ⟨l, hheartbeat, hsane', hkept, -, hretimed⟩ :=
    heartbeat_spec (hupdate.sane hsane) sender now targetSendTime s.lastProcessTime
  have hkept' := hupdate.kept.trans hkept
  rw [hupdate.kept.pacingBitrate, hupdate.packetCounter] at hretimed
  unfold processDue
  dsimp only
  rw [hheartbeat]
  dsimp only
  cases hpaused : l.controller.paused with
  | true => exact ⟨0, _, rfl, hsane'⟩
  | false =>
    obtain ⟨fuel, l', hloop, hsane''⟩ := startLoop_ends now
      hsane' hpads hprotects (s.updateProcessTime now).2.1 (by
        rw [hkept'.pacingBitrate, hkept'.paddingBitrate, hkept'.pacingSettings]
        rcases hprocess with hpacing | hpaused' | hzero | ⟨hidle, hpadding, hqueue⟩
        · exact Or.inl hpacing
        · rw [hkept'.paused, hpaused'] at hpaused
          cases hpaused
        · refine Or.inr (Or.inl ?_)
          rw [(hretimed (Or.inr hzero)).packetCounter, hupdate.packetCounter]
          exact hzero
        · rcases hsane.pacing.eq_or_lt with hpacing | hpacing
          · have hretimed' := hupdate.trans (hretimed (Or.inl hpacing.symm))
            refine Or.inr (Or.inr ⟨?_, hpadding, ?_⟩)
            · rw [hretimed'.prober]
              exact hidle
            · rw [hretimed'.packetQueue, (hretimed (Or.inl hpacing.symm)).adjustBitrate]
              exact hqueue
          · refine Or.inl ⟨hpacing, fun hne => absurd ?_ hne⟩
            rw [hpadding]
            exact bytesIn_zero _)
    refine ⟨fuel, (l'.finish (startLoop l (s.updateProcessTime now).2.1 now).2.1 now, l'.sent), ?_,
      finish_sane hsane'' _ _⟩
    rw [if_neg Bool.false_ne_true, hloop]
    rfl

theorem Processable.reduceDebt (h : s.Processable now) (elapsedTime : Int) :
    (s.reduceDebt elapsedTime).Processable now := by
  have hbitrate : (s.reduceDebt elapsedTime).bitrateAt now = s.bitrateAt now := by
    have helapsed : ((s.reduceDebt elapsedTime).updateProcessTime now).2.1 =
        (s.updateProcessTime now).2.1 := by
      show (if now < s.lastProcessTime then _ else _ : PacingController × Int × Bool).2.1 = _
      unfold updateProcessTime
      split <;> rfl
    unfold bitrateAt
    rw [(updateProcessTime_retimed _ _).adjustBitrate,
      (updateProcessTime_retimed _ _).adjustBitrate, (reduceDebt_retimed _ _).adjustBitrate,
      helapsed]
  unfold Processable
  rw [hbitrate]
  exact h

theorem Processable.not_padsWithoutMedia (h : s.Processable now) (hsane : Sane s) (now' : Int) :
    ¬s.PadsWithoutMedia now' := by
  rintro ⟨hpaused, -, -, -, hcounter, -, hpadding, hmedia⟩
  rcases h with ⟨hpacing, -⟩ | hpaused' | hzero | ⟨-, hzero, -⟩
  · exact absurd hmedia (hpacing.trans_le hsane.media).ne'
  · exact absurd (hpaused.symm.trans hpaused') (by simp)
  · exact hcounter hzero
  · exact hpadding.ne' hzero

theorem processPackets_spec (hsane : Sane s) (hpads : sender.Pads)
    (hprotects : sender.Protects bound) (hprocess : s.Processable now) :
    ∃ fuel r, s.processPackets fuel sender now = .done r ∧ Sane r.1 := by
  obtain ⟨next, hnext⟩ := Option.ne_none_iff_exists'.1 fun hnone =>
    hprocess.not_padsWithoutMedia hsane now ((nextSendTime_eq_none_iff s now).1 hnone)
  unfold processPackets
  rw [hnext]
  dsimp only
  split
  · exact ⟨0, _, rfl, (passTime_retimed s now).sane hsane⟩
  case h_2 targetSendTime _ =>
    split
    · exact processDue_spec ((reduceDebt_retimed s _).sane hsane) hpads hprotects
        (hprocess.reduceDebt _) _
    · exact processDue_spec hsane hpads hprotects hprocess _

/-! ## More passes -/

theorem map_mono {α β : Type} {f : α → β} {a : Outcome α} {b : Outcome α}
    (h : a ≠ .outOfFuel → b = a) (hne : a.map f ≠ .outOfFuel) : b.map f = a.map f := by
  rw [h]
  rintro rfl
  exact hne rfl

theorem processDue_mono {fuel fuel' : Nat} (hle : fuel ≤ fuel') {targetSendTime : Int}
    (h : s.processDue fuel sender now targetSendTime ≠ .outOfFuel) :
    s.processDue fuel' sender now targetSendTime = s.processDue fuel sender now targetSendTime := by
  unfold processDue at h ⊢
  dsimp only at h ⊢
  split
  · rfl
  case h_2 l hheartbeat =>
    rw [hheartbeat] at h
    dsimp only at h
    split
    · rfl
    case isFalse hpaused =>
      rw [if_neg hpaused] at h
      exact map_mono (fun hne => Loop.run_mono hne hle) h

theorem processPackets_mono {fuel fuel' : Nat} (hle : fuel ≤ fuel')
    (h : s.processPackets fuel sender now ≠ .outOfFuel) :
    s.processPackets fuel' sender now = s.processPackets fuel sender now := by
  unfold processPackets at h ⊢
  cases hnext : s.nextSendTime now with
  | none => rfl
  | some next =>
    rw [hnext] at h
    dsimp only at h ⊢
    split
    · rfl
    case h_2 targetSendTime hdue =>
      rw [hdue] at h
      dsimp only at h
      split at h
      case isTrue hlate =>
        rw [if_pos hlate, if_pos hlate]
        exact processDue_mono hle h
      case isFalse hlate =>
        rw [if_neg hlate, if_neg hlate]
        exact processDue_mono hle h

end

/-! ## Runs -/

section

variable {s : PacingController}

theorem create_sane (pacingSettings : PacingSettings) (probingSettings : Configuration)
    (now : Int) : Sane (create pacingSettings probingSettings now) :=
  ⟨RoundRobinPacketQueue.linked_create now, le_refl _, le_refl _, fun _ => ⟨rfl, rfl⟩,
    fun _ hc => absurd hc List.not_mem_nil⟩

theorem setPauseState_isEmpty (q : RoundRobinPacketQueue) (paused : Bool) (atTime : Int) :
    (q.setPauseState paused atTime).isEmpty = q.isEmpty := by
  unfold RoundRobinPacketQueue.setPauseState
  split
  · rfl
  · exact updateEnqueueTime_isEmpty q atTime

theorem addProbeCluster_isProbing {prober : BitrateProber} (h : prober.isProbing = false)
    (clusterId : Int) (targetBitrate : DataRate) (now : Int) :
    (prober.addProbeCluster clusterId targetBitrate now).1.isProbing = false := by
  have hidle : prober.probingState ≠ .active := of_decide_eq_false h
  unfold BitrateProber.addProbeCluster
  split
  · rfl
  · exact h

theorem call_spec (hsane : Sane s) {op : Op} (hallowed : op.Allowed) (hsafe : s.Safe op) :
    ∃ fuel s' answer, (∀ fuel', fuel ≤ fuel' → s.call fuel' op = .done (s', answer)) ∧ Sane s' := by
  cases op with
  | setPacingBitrates pacingBitrate paddingBitrate =>
    exact ⟨0, _, _, fun _ _ => rfl, ⟨hsane.sound, hallowed.1, le_refl _, hsane.untouched,
      hsane.divides⟩⟩
  | enqueuePacket packet now =>
    by_cases hpacing : s.pacingBitrate ≤ 0
    · refine ⟨0, s, .taken false, fun _ _ => ?_, hsane⟩
      simp only [call, enqueuePacket, if_pos hpacing]
    · have hpos := not_le.1 hpacing
      obtain ⟨s', henqueue, hsane', -, -⟩ := enqueuePacketInternal_spec hsane
        (hpos.trans_le hsane.media).ne' packet (priorityForType packet.packetType) now
      refine ⟨0, s', .taken true, fun _ _ => ?_, hsane'⟩
      simp only [call, enqueuePacket, if_neg hpacing, henqueue, Option.map_some]
  | pause now =>
    exact ⟨0, _, _, fun _ _ => rfl, ⟨(RoundRobinPacketQueue.sound_pause hsane.sound true now).1,
      hsane.pacing, hsane.media, fun hzero =>
        ⟨(setPauseState_isEmpty _ _ _).trans (hsane.untouched hzero).1,
          (hsane.untouched hzero).2⟩, hsane.divides⟩⟩
  | resume now =>
    exact ⟨0, _, _, fun _ _ => rfl, ⟨(RoundRobinPacketQueue.sound_pause hsane.sound false now).1,
      hsane.pacing, hsane.media, fun hzero =>
        ⟨(setPauseState_isEmpty _ _ _).trans (hsane.untouched hzero).1,
          (hsane.untouched hzero).2⟩, hsane.divides⟩⟩
  | setCongestionWindow congestionWindowSize now =>
    have hsane' : Sane { s with congestionWindowSize := congestionWindowSize } :=
      ⟨hsane.sound, hsane.pacing, hsane.media, hsane.untouched, hsane.divides⟩
    exact ⟨0, _, _, fun _ _ => rfl, (leaveCongestion_retimed _ _ now).sane hsane'⟩
  | onInflightBytes inflightBytes now =>
    have hsane' : Sane { s with inflightBytes := inflightBytes } :=
      ⟨hsane.sound, hsane.pacing, hsane.media, hsane.untouched, hsane.divides⟩
    exact ⟨0, _, _, fun _ _ => rfl, (leaveCongestion_retimed _ _ now).sane hsane'⟩
  | addProbeCluster clusterId targetBitrate now =>
    refine ⟨0, _, _, fun _ _ => rfl, hsane.sound, hsane.pacing, hsane.media, fun hzero => ?_,
      hsane.divides.step (.addProbeCluster clusterId targetBitrate now)⟩
    obtain ⟨hempty, hidle⟩ := hsane.untouched hzero
    exact ⟨hempty, addProbeCluster_isProbing hidle clusterId targetBitrate now⟩
  | nextSendTime now =>
    obtain ⟨next, hnext⟩ := Option.ne_none_iff_exists'.1 fun hnone =>
      hsafe ((nextSendTime_eq_none_iff s now).1 hnone)
    exact ⟨0, s, .time next, fun _ _ => by simp only [call, hnext], hsane⟩
  | expectedQueueTime =>
    refine ⟨0, s, .duration (timeToSend s.packetQueue.queuedSize s.pacingBitrate), fun _ _ => ?_,
      hsane⟩
    simp only [call, expectedQueueTime]
    rw [if_neg hsafe]
  | processPackets sender now =>
    obtain ⟨hpads, bound, hprotects⟩ := hallowed
    obtain ⟨fuel, r, hprocess, hsane'⟩ := processPackets_spec hsane hpads hprotects hsafe
    refine ⟨fuel, r.1, .sent r.2, fun fuel' hle => ?_, hsane'⟩
    simp only [call]
    rw [processPackets_mono hle (by rw [hprocess]; simp), hprocess]
    rfl

end

/-- **No call of a run divides by a rate of zero, and every one of them comes to an end**, where all
calls are safe: with as many passes of the send loop as it takes, or more.  The prober divides by
the rates of its clusters only. -/
theorem controller_total (pacingSettings : PacingSettings) (probingSettings : Configuration)
    (start : Int) (ops : List Op) (hallowed : ∀ op ∈ ops, op.Allowed) :
    ∃ enough, ∀ fuel, enough ≤ fuel →
      (controllerMachine fuel).AllGood Safe (create pacingSettings probingSettings start) ops →
        (controllerMachine fuel).AllGood
          (fun s op => s.prober.Divides ∧
            ∃ answer, ((controllerMachine fuel).step s op).2 = .done answer)
          (create pacingSettings probingSettings start) ops := by
  have hsane := create_sane pacingSettings probingSettings start
  generalize create pacingSettings probingSettings start = s at hsane
  induction ops generalizing s with
  | nil => exact ⟨0, fun _ _ _ => trivial⟩
  | cons op ops ih =>
    by_cases hsafe : s.Safe op
    · obtain ⟨enough, s', answer, hcall, hsane'⟩ :=
        call_spec hsane (hallowed op List.mem_cons_self) hsafe
      obtain ⟨more, hrest⟩ :=
        ih (fun op hop => hallowed op (List.mem_cons_of_mem _ hop)) s' hsane'
      refine ⟨max enough more, fun fuel hle hgood => ?_⟩
      have hstep : (controllerMachine fuel).step s op = (s', .done answer) := by
        simp only [controllerMachine, hcall fuel ((le_max_left _ _).trans hle)]
      have hgood' := hgood.2
      rw [hstep] at hgood'
      refine ⟨⟨hsane.divides, answer, by rw [hstep]⟩, ?_⟩
      rw [hstep]
      exact hrest fuel ((le_max_right _ _).trans hle) hgood'
    · exact ⟨0, fun fuel _ hgood => absurd hgood.1 hsafe⟩

/-! ## Where the loop does not end -/

section

variable {s : PacingController} {sender : PacketSender} {now : Int}

/-- Padding is asked for by every pass of the loop, and refused by the controller. -/
def Starved (recommendedProbeSize : Nat) (l : SendLoop) : Prop :=
  l.firstPacketInProbe = false ∧ l.controller.pacingBitrate ≤ 0 ∧
    l.controller.packetQueue.isEmpty = true ∧
    0 < l.settleDebt.controller.paddingSizeToAdd recommendedProbeSize l.settleDebt.sentBytes

theorem settleDebt_settled (l : SendLoop) (paddingCalls : Nat) :
    ({ l.settleDebt with paddingCalls := paddingCalls } : SendLoop).settleDebt =
      { l.settleDebt with paddingCalls := paddingCalls } := by
  have hsettled : ¬l.settleDebt.prevProcessTime < l.settleDebt.targetSendTime := by
    unfold SendLoop.settleDebt
    split
    · exact lt_irrefl _
    case isFalse h => exact h
  exact if_neg hsettled

theorem starved_loop (hsender : ∀ n size, sender.generatePadding n size ≠ [])
    (probeCluster : Option ProbeCluster) {recommendedProbeSize : Nat} {l : SendLoop}
    (h : Starved recommendedProbeSize l) (fuel : Nat) :
    SendLoop.sendLoop sender now probeCluster recommendedProbeSize fuel l = .outOfFuel := by
  refine Loop.run_endless (Starved recommendedProbeSize) (fun l h => ?_) fuel h
  obtain ⟨hfirst, hpacing, hempty, hpadding⟩ := h
  have hsame : l.settleDebt.firstPacketInProbe = false ∧
      l.settleDebt.controller.pacingBitrate ≤ 0 ∧
      l.settleDebt.controller.packetQueue.isEmpty = true := by
    unfold SendLoop.settleDebt
    split <;> exact ⟨hfirst, hpacing, hempty⟩
  obtain ⟨hfirst', hpacing', hempty'⟩ := hsame
  obtain ⟨packet, packets, hpackets⟩ := List.exists_cons_of_ne_nil
    (hsender l.settleDebt.paddingCalls
      (l.settleDebt.controller.paddingSizeToAdd recommendedProbeSize l.settleDebt.sentBytes))
  have hstart : l.startProbe sender now = some l := by simp [SendLoop.startProbe, hfirst]
  have hnext : l.settleDebt.controller.nextPacketToSend probeCluster.isSome
      l.settleDebt.targetSendTime now = some (l.settleDebt.controller, none) := by
    simp [nextPacketToSend, hempty']
  refine ⟨{ l.settleDebt with paddingCalls := l.settleDebt.paddingCalls + 1 }, ?_, hfirst',
    hpacing', hempty', ?_⟩
  · unfold SendLoop.sendOnce
    rw [hstart]
    dsimp only [Option.bind_some]
    rw [hnext]
    dsimp only [Option.bind_some]
    unfold SendLoop.addPadding
    rw [if_pos hpadding, hpackets]
    dsimp only
    rw [enqueuePackets_refused hpacing']
    rfl
  · rw [settleDebt_settled]
    exact hpadding

theorem updateProcessTime_eq (s : PacingController) (atTime : Int) :
    ∃ lastProcessTime, (s.updateProcessTime atTime).1 =
      { s with lastProcessTime := lastProcessTime } := by
  unfold updateProcessTime
  split <;> exact ⟨_, rfl⟩

theorem adjustBitrate_eq (s : PacingController) (elapsedTime now : Int) :
    ∃ queue rate, s.adjustBitrate elapsedTime now =
        { s with packetQueue := queue, mediaBitrate := rate } ∧
      queue.isEmpty = s.packetQueue.isEmpty := by
  unfold adjustBitrate
  split
  · dsimp only
    split
    · exact ⟨_, _, rfl, updateEnqueueTime_isEmpty s.packetQueue now⟩
    · exact ⟨_, _, rfl, rfl⟩
  · exact ⟨_, _, rfl, rfl⟩

theorem processDue_starved (hsender : ∀ n size, sender.generatePadding n size ≠ [])
    (hpacing : s.pacingBitrate = 0) (hrunning : s.paused = false)
    (hidle : s.prober.isProbing = false) (hempty : s.packetQueue.isEmpty = true)
    (hcounter : s.packetCounter ≠ 0) (hcongested : s.isCongested = false)
    (hsilent : s.pacingSettings.sendPaddingIfSilent = false) (hpadding : 0 < s.paddingBitrate)
    (hsize : 0 < bytesIn s.pacingSettings.paddingTargetDuration s.paddingBitrate)
    {targetSendTime : Int} (hlt : s.lastProcessTime < targetSendTime)
    (hdebt : s.paddingDebt ≤
      bytesIn (.micros (targetSendTime - s.lastProcessTime)) s.paddingBitrate) (fuel : Nat) :
    s.processDue fuel sender now targetSendTime = .outOfFuel := by
  obtain ⟨lastProcessTime, hupdate⟩ := updateProcessTime_eq s now
  obtain ⟨hpacing', hrunning', hidle', hempty', hcounter', hcongested', hsettings, hrate, hdebt'⟩ :
      (s.updateProcessTime now).1.pacingBitrate = 0 ∧
      (s.updateProcessTime now).1.paused = false ∧
      (s.updateProcessTime now).1.prober.isProbing = false ∧
      (s.updateProcessTime now).1.packetQueue.isEmpty = true ∧
      (s.updateProcessTime now).1.packetCounter ≠ 0 ∧
      (s.updateProcessTime now).1.isCongested = false ∧
      (s.updateProcessTime now).1.pacingSettings = s.pacingSettings ∧
      (s.updateProcessTime now).1.paddingBitrate = s.paddingBitrate ∧
      (s.updateProcessTime now).1.paddingDebt = s.paddingDebt := by
    rw [hupdate]
    exact ⟨hpacing, hrunning, hidle, hempty, hcounter, hcongested, rfl, rfl, rfl⟩
  unfold processDue
  dsimp only
  generalize (s.updateProcessTime now).2.1 = elapsedTime
  generalize (s.updateProcessTime now).1 = s' at *
  have hheartbeat : s'.isTimeToSendHeartbeat now = false := by
    simp [isTimeToSendHeartbeat, hsettings, hsilent, hrunning', hcongested', hcounter']
  unfold heartbeat
  rw [hheartbeat, if_neg Bool.false_ne_true]
  dsimp only
  rw [if_neg (by simp [hrunning'])]
  obtain ⟨queue, rate, hadjust, hqueue⟩ := adjustBitrate_eq s' elapsedTime now
  have htake : (s'.adjustBitrate elapsedTime now).takeProbe now =
      ({ s' with packetQueue := queue, mediaBitrate := rate }, none) := by
    rw [hadjust]
    unfold takeProbe
    rw [if_neg (by simp [hidle'])]
  unfold startLoop
  rw [htake, starved_loop hsender]
  · rfl
  · refine ⟨rfl, hpacing'.le, hqueue.trans hempty', ?_⟩
    unfold SendLoop.settleDebt
    rw [if_pos hlt]
    have hpaid : s'.paddingDebt - min s'.paddingDebt
        (bytesIn (.micros (targetSendTime - s.lastProcessTime)) s'.paddingBitrate) = 0 := by
      rw [hdebt', hrate]
      omega
    have hcongested'' : PacingController.isCongested (reduceDebt
        { s' with packetQueue := queue, mediaBitrate := rate }
        (targetSendTime - s.lastProcessTime)) = false := hcongested'
    have hempty'' : queue.isEmpty = true := hqueue.trans hempty'
    rw [← hrate] at hpadding hsize
    rw [← hsettings] at hsize
    simp only [paddingSizeToAdd, hcongested'']
    simp [reduceDebt, hempty'', hcounter', hpadding, hpaid, hsize]

end

instance (s : PacingController) (now : Int) : Decidable (s.Processable now) :=
  inferInstanceAs (Decidable (_ ∨ _))

instance (s : PacingController) : ∀ op, Decidable (s.Safe op)
  | .expectedQueueTime => inferInstanceAs (Decidable (_ ≠ _))
  | .nextSendTime now => inferInstanceAs (Decidable (¬s.PadsWithoutMedia now))
  | .processPackets _ now => inferInstanceAs (Decidable (s.Processable now))
  | .setPacingBitrates _ _ | .enqueuePacket _ _ | .pause _ | .resume _ | .setCongestionWindow _ _
  | .onInflightBytes _ _ | .addProbeCluster _ _ _ => .isTrue trivial

/-- Padding of 224 bytes whenever some is asked for, and no protection. -/
def paddingSender : PacketSender where
  generatePadding _ _ := [⟨0#32, 0#16, .padding, false, 12, 0, 224⟩]
  fetchFecPackets _ := []

theorem paddingSender_allowed (now : Int) : (Op.processPackets paddingSender now).Allowed := by
  refine ⟨fun _ _ packet hpacket => ?_, 0, fun _ _ => rfl⟩
  obtain rfl := List.mem_singleton.1 hpacket
  exact ⟨by decide, by decide⟩

/-- A video packet of 1000 bytes. -/
def videoPacket : RtpPacketToSend := ⟨1#32, 0#16, .video, true, 12, 1000, 0⟩

/-- `controller_total` on a run that sends a packet. -/
theorem controller_total_video :
    ∃ enough, ∀ fuel, enough ≤ fuel →
      (controllerMachine fuel).AllGood
        (fun s op => s.prober.Divides ∧
          ∃ answer, ((controllerMachine fuel).step s op).2 = .done answer)
        (create {} {} 0) [.setPacingBitrates 800000 100000, .enqueuePacket videoPacket 0,
          .expectedQueueTime, .nextSendTime 0, .processPackets paddingSender 0] := by
  obtain ⟨enough, h⟩ := controller_total {} {} 0 [.setPacingBitrates 800000 100000,
      .enqueuePacket videoPacket 0, .expectedQueueTime, .nextSendTime 0,
      .processPackets paddingSender 0] (by
    intro op hop
    simp only [List.mem_cons, List.not_mem_nil, or_false] at hop
    rcases hop with rfl | rfl | rfl | rfl | rfl
    · exact ⟨by decide, by decide⟩
    · trivial
    · trivial
    · trivial
    · exact paddingSender_allowed 0)
  refine ⟨enough, fun fuel hle => h fuel hle ?_⟩
  show (controllerMachine 0).AllGood Safe (create {} {} 0) [.setPacingBitrates 800000 100000,
    .enqueuePacket videoPacket 0, .expectedQueueTime, .nextSendTime 0,
    .processPackets paddingSender 0]
  decide +kernel

/-- A packet is sent, and the pacing bitrate is then set to zero while padding still has one. -/
def starvedOps : List Op :=
  [.setPacingBitrates 800000 0, .enqueuePacket videoPacket 0, .setPacingBitrates 0 1000000,
    .processPackets paddingSender 500000]

/-- A new controller divides by its pacing bitrate, which is zero; and one whose pacing bitrate was
set to zero asks for padding that it does not take, again and again. -/
theorem zero_pacing_rate :
    ((controllerMachine 0).step (create {} {} 0) .expectedQueueTime).2 = .failed ∧
      (∀ op ∈ starvedOps, op.Allowed) ∧ (Op.processPackets paddingSender 1000000).Allowed ∧
      (controllerMachine 9).AllGood
        (fun s op => ((controllerMachine 9).step s op).2 ≠ .failed ∧
          ((controllerMachine 9).step s op).2 ≠ .outOfFuel) (create {} {} 0) starvedOps ∧
      ∀ fuel, ((controllerMachine 9).final (create {} {} 0) starvedOps).processPackets fuel
        paddingSender 1000000 = .outOfFuel := by
  refine ⟨by decide +kernel, ?_, paddingSender_allowed 1000000, by decide +kernel, fun fuel => ?_⟩
  · intro op hop
    simp only [starvedOps, List.mem_cons, List.not_mem_nil, or_false] at hop
    rcases hop with rfl | rfl | rfl | rfl
    · exact ⟨by decide, by decide⟩
    · trivial
    · exact ⟨by decide, by decide⟩
    · exact paddingSender_allowed 500000
  have hnext : ((controllerMachine 9).final (create {} {} 0) starvedOps).nextSendTime 1000000 =
      some (.micros 999531) := by decide +kernel
  have hprobing : ((controllerMachine 9).final (create {} {} 0) starvedOps).prober.isProbing =
      false := by decide +kernel
  unfold processPackets
  rw [hnext]
  dsimp only
  rw [if_neg (by simp [hprobing])]
  have hdue : dueTime (.micros 999531) 0 1000000 = some 999531 := by decide +kernel
  rw [hdue]
  dsimp only
  rw [if_neg (by decide +kernel)]
  apply processDue_starved
  · exact fun _ _ => List.cons_ne_nil _ _
  all_goals decide +kernel

end PacingController

end NaiveRtc.Pacing
