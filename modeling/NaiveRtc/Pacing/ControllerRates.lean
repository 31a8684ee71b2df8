import NaiveRtc.Pacing.PacingController
import NaiveRtc.Pacing.QueueLossless

/-!
# The rates of the pacer

Which divisions of the pacer are defined, and what the calls inside `ProcessPackets` do to the
packets and the rates.

* `held` — the packets of the queue, and how `Push` and `Pop` change them.
* `Retimed`, `Kept` — what only moves debts and times, and what keeps the rates.
* `Sane` — the invariant: media is sent no slower than it is paced, and nothing was touched before
  the first packet.
* `nextSendTime_eq_none_iff` — when the time of the next packet cannot be told.
* `enqueuePackets_spec` — packets that are enqueued, all or none.
-/

namespace NaiveRtc.Pacing

open CongestionControl (DataRate)
open Loop (Outcome Pass)

/-! ## The packets of the queue -/

namespace RoundRobinPacketQueue

/-- The packets of the queue. -/
def held (q : RoundRobinPacketQueue) : List RtpPacketToSend :=
  q.contents.map QueuedPacket.ownedPacket

variable {q : RoundRobinPacketQueue}

theorem isEmpty_iff (h : Sound q) : q.isEmpty = true ↔ q.held = [] := by
  rw [isEmpty, decide_eq_true_iff, numPackets_eq h, held, List.map_eq_nil_iff,
    List.length_eq_zero_iff]

theorem sound_push (h : Sound q) (priority enqueueTime : Int) (enqueueOrder : Nat)
    (packet : RtpPacketToSend) :
    Sound (q.push priority enqueueTime enqueueOrder packet) ∧
      (q.push priority enqueueTime enqueueOrder packet).held.Perm (packet :: q.held) := by
  obtain ⟨hsound, hperm⟩ := sound_step h (.push priority enqueueTime enqueueOrder packet)
  exact ⟨hsound, (hperm.symm.map QueuedPacket.ownedPacket)⟩

theorem sound_pop (h : Sound q) (hne : q.isEmpty = false) :
    Sound q.pop.1 ∧ ∃ packet, q.pop.2 = some packet ∧ q.held.Perm (packet :: q.pop.1.held) := by
  obtain ⟨hsound, hout, hperm, hsome⟩ := pop_spec h fun _ _ _ _ _ => trivial
  obtain ⟨p, hp⟩ := hsome (of_decide_eq_false hne)
  refine ⟨hsound, p.ownedPacket, by rw [hout, hp]; rfl, ?_⟩
  rw [hp] at hperm
  exact hperm.map QueuedPacket.ownedPacket

theorem sound_update (h : Sound q) (atTime : Int) :
    Sound (q.updateEnqueueTime atTime) ∧ (q.updateEnqueueTime atTime).held.Perm q.held := by
  obtain ⟨hsound, hperm⟩ := sound_step h (.updateEnqueueTime atTime)
  exact ⟨hsound, hperm.symm.map QueuedPacket.ownedPacket⟩

theorem sound_pause (h : Sound q) (paused : Bool) (atTime : Int) :
    Sound (q.setPauseState paused atTime) ∧ (q.setPauseState paused atTime).held.Perm q.held := by
  obtain ⟨hsound, hperm⟩ := sound_step h (.setPauseState paused atTime)
  exact ⟨hsound, hperm.symm.map QueuedPacket.ownedPacket⟩

end RoundRobinPacketQueue

namespace PacingController

/-! ## Debts and times -/

/-- Only debts, times and the bytes in flight differ. -/
def Retimed (s s' : PacingController) : Prop :=
  ∃ mediaDebt paddingDebt inflightBytes lastProcessTime lastSendTime firstSentPacketTime,
    s' = { s with
      mediaDebt := mediaDebt, paddingDebt := paddingDebt, inflightBytes := inflightBytes
      lastProcessTime := lastProcessTime, lastSendTime := lastSendTime
      firstSentPacketTime := firstSentPacketTime }

/-- The settings and the rates are the same, and no packet is forgotten. -/
structure Kept (s s' : PacingController) : Prop where
  pacingSettings : s'.pacingSettings = s.pacingSettings
  mediaBitrate : s'.mediaBitrate = s.mediaBitrate
  paddingBitrate : s'.paddingBitrate = s.paddingBitrate
  pacingBitrate : s'.pacingBitrate = s.pacingBitrate
  accountForAudio : s'.accountForAudio = s.accountForAudio
  paused : s'.paused = s.paused
  packetCounter : s.packetCounter ≤ s'.packetCounter

/-- Media is sent no slower than it is paced, before the first packet there is none in the queue
and no probing, and every cluster of the prober has a rate. -/
structure Sane (s : PacingController) : Prop where
  sound : RoundRobinPacketQueue.Sound s.packetQueue
  pacing : 0 ≤ s.pacingBitrate
  media : s.pacingBitrate ≤ s.mediaBitrate
  untouched : s.packetCounter = 0 → s.packetQueue.isEmpty = true ∧ s.prober.isProbing = false
  divides : s.prober.Divides

section

variable {s s' s'' : PacingController}

theorem Retimed.refl (s : PacingController) : Retimed s s :=
  ⟨_, _, _, _, _, _, rfl⟩

theorem Retimed.trans (h : Retimed s s') (h' : Retimed s' s'') : Retimed s s'' := by
  obtain ⟨_, _, _, _, _, _, rfl⟩ := h
  obtain ⟨_, _, _, _, _, _, rfl⟩ := h'
  exact ⟨_, _, _, _, _, _, rfl⟩

theorem Kept.refl (s : PacingController) : Kept s s :=
  ⟨rfl, rfl, rfl, rfl, rfl, rfl, le_refl _⟩

theorem Kept.trans (h : Kept s s') (h' : Kept s' s'') : Kept s s'' :=
  ⟨h'.1.trans h.1, h'.2.trans h.2, h'.3.trans h.3, h'.4.trans h.4, h'.5.trans h.5, h'.6.trans h.6,
    h.7.trans h'.7⟩

theorem Retimed.kept (h : Retimed s s') : Kept s s' := by
  obtain ⟨_, _, _, _, _, _, rfl⟩ := h
  exact ⟨rfl, rfl, rfl, rfl, rfl, rfl, le_refl _⟩

theorem Retimed.packetQueue (h : Retimed s s') : s'.packetQueue = s.packetQueue := by
  obtain ⟨_, _, _, _, _, _, rfl⟩ := h
  rfl

theorem Retimed.packetCounter (h : Retimed s s') : s'.packetCounter = s.packetCounter := by
  obtain ⟨_, _, _, _, _, _, rfl⟩ := h
  rfl

theorem Retimed.prober (h : Retimed s s') : s'.prober = s.prober := by
  obtain ⟨_, _, _, _, _, _, rfl⟩ := h
  rfl

theorem Retimed.sane (h : Retimed s s') (hsane : Sane s) : Sane s' := by
  obtain ⟨_, _, _, _, _, _, rfl⟩ := h
  exact ⟨hsane.sound, hsane.pacing, hsane.media, hsane.untouched, hsane.divides⟩

section

variable (s : PacingController)

theorem reduceDebt_retimed (elapsedTime : Int) :
    Retimed s (s.reduceDebt elapsedTime) :=
  ⟨_, _, _, _, _, _, rfl⟩

theorem updateProcessTime_retimed (atTime : Int) :
    Retimed s (s.updateProcessTime atTime).1 := by
  unfold updateProcessTime
  split
  · exact Retimed.refl s
  · exact ⟨_, _, _, _, _, _, rfl⟩

theorem passTime_retimed (atTime : Int) :
    Retimed s (s.passTime atTime).1 := by
  unfold passTime
  dsimp only
  split
  · exact (updateProcessTime_retimed s atTime).trans (reduceDebt_retimed _ _)
  · exact updateProcessTime_retimed s atTime

theorem onMediaSent_retimed (packetType : RtpPacketType) (sentBytes : Nat)
    (atTime : Int) : Retimed s (s.onMediaSent packetType sentBytes atTime) := by
  unfold onMediaSent
  dsimp only
  split <;> exact ⟨_, _, _, _, _, _, rfl⟩

theorem onPaddingSent_retimed (sentBytes : Nat) (atTime : Int) :
    Retimed s (s.onPaddingSent sentBytes atTime) := by
  unfold onPaddingSent
  dsimp only
  split <;> exact ⟨_, _, _, _, _, _, rfl⟩

theorem leaveCongestion_retimed (wasCongested : Bool) (now : Int) :
    Retimed s (s.leaveCongestion wasCongested now) := by
  unfold leaveCongestion
  split
  · exact passTime_retimed s now
  · exact Retimed.refl s

end

end

/-! ## The time of the next packet -/

section

variable {s : PacingController}

/-- The time of the next packet is that of padding, and media has a debt but no rate. -/
def PadsWithoutMedia (s : PacingController) (now : Int) : Prop :=
  s.paused = false ∧ s.probeTime now = none ∧ s.unpacedAudioTime = none ∧ s.isCongested = false ∧
    s.packetCounter ≠ 0 ∧ s.packetQueue.isEmpty = true ∧ 0 < s.paddingBitrate ∧ s.mediaBitrate = 0

instance (s : PacingController) (now : Int) : Decidable (s.PadsWithoutMedia now) :=
  inferInstanceAs (Decidable (_ ∧ _))

theorem timeToPayOff_of_ne {debt : Nat} {rate : DataRate} (h : rate ≠ 0) :
    timeToPayOff debt rate = some (timeToSend debt rate).us := if_neg h

theorem nextSendTime_eq_none_iff (s : PacingController) (now : Int) :
    s.nextSendTime now = none ↔ s.PadsWithoutMedia now := by
  unfold nextSendTime PadsWithoutMedia
  cases hpaused : s.paused with
  | true => simp
  | false =>
    rw [if_neg Bool.false_ne_true]
    cases hprobe : s.probeTime now with
    | some probeTime => simp
    | none =>
      cases haudio : s.unpacedAudioTime with
      | some audioEnqueueTime => simp
      | none =>
        dsimp only
        by_cases hcongested : s.isCongested = true ∨ s.packetCounter = 0
        · rw [if_pos hcongested]
          rcases hcongested with h | h <;> simp [h]
        · rw [if_neg hcongested]
          push Not at hcongested
          have hquiet : s.isCongested = false := by simpa using hcongested.1
          by_cases hmedia : 0 < s.mediaBitrate ∧ s.packetQueue.isEmpty = false
          · rw [if_pos hmedia, timeToPayOffMediaDebt, timeToPayOff_of_ne hmedia.1.ne']
            simp [hmedia.2]
          · rw [if_neg hmedia]
            by_cases hpadding : 0 < s.paddingBitrate ∧ s.packetQueue.isEmpty = true
            · rw [if_pos hpadding, timeToPayOffPaddingDebt, timeToPayOff_of_ne hpadding.1.ne',
                timeToPayOffMediaDebt]
              by_cases hzero : s.mediaBitrate = 0
              · simp [timeToPayOff, hzero, hquiet, hcongested.2, hpadding]
              · simp [timeToPayOff, hzero]
            · rw [if_neg hpadding]
              refine iff_of_false (by split <;> simp) ?_
              rintro ⟨-, -, -, -, -, hempty, hpos, -⟩
              exact hpadding ⟨hpos, hempty⟩

theorem nextSendTime_of_media (h : s.mediaBitrate ≠ 0) (now : Int) :
    ∃ next, s.nextSendTime now = some next := by
  rw [← Option.ne_none_iff_exists']
  intro hnone
  exact h ((nextSendTime_eq_none_iff s now).1 hnone).2.2.2.2.2.2.2

end

/-! ## Packets coming in -/

section

variable {s : PacingController}

theorem forwardTo_retimed (s : PacingController) (targetProcessTime : Int) :
    Retimed s (s.forwardTo targetProcessTime) := by
  have hretimed := passTime_retimed s targetProcessTime
  unfold forwardTo
  rcases hpass : s.passTime targetProcessTime with ⟨s', reduced⟩
  rw [hpass] at hretimed
  cases reduced with
  | true => exact hretimed
  | false => exact hretimed.trans ⟨_, _, _, _, _, _, rfl⟩

theorem fastForward_spec (h : s.mediaBitrate ≠ 0) (now : Int) :
    ∃ s', s.fastForward now = some s' ∧ Retimed s s' := by
  obtain ⟨next, hnext⟩ := nextSendTime_of_media h now
  unfold fastForward
  rw [hnext]
  exact ⟨_, rfl, forwardTo_retimed s _⟩

theorem enqueuePacketInternal_spec (hsane : Sane s) (h : s.mediaBitrate ≠ 0)
    (packet : RtpPacketToSend) (priority now : Int) :
    ∃ s', s.enqueuePacketInternal packet priority now = some s' ∧ Sane s' ∧ Kept s s' ∧
      s'.packetQueue.held.Perm (packet :: s.packetQueue.held) := by
  unfold enqueuePacketInternal
  dsimp only
  generalize packet.headerSize + packet.payloadSize + packet.paddingSize = size
  obtain ⟨s₁, hforward, hretimed⟩ : ∃ s₁, (if s.packetQueue.isEmpty = true then
      PacingController.fastForward { s with prober := s.prober.onIncomingPacket size } now
      else some { s with prober := s.prober.onIncomingPacket size }) = some s₁ ∧
        Retimed { s with prober := s.prober.onIncomingPacket size } s₁ := by
    split
    · exact fastForward_spec (s := { s with prober := s.prober.onIncomingPacket size }) h now
    · exact ⟨_, rfl, Retimed.refl _⟩
  obtain ⟨_, _, _, _, _, _, rfl⟩ := hretimed
  rw [hforward]
  obtain ⟨hsound, hheld⟩ := RoundRobinPacketQueue.sound_push hsane.sound priority now
    s.packetCounter packet
  exact ⟨_, rfl, ⟨hsound, hsane.pacing, hsane.media, fun hzero => absurd hzero (by simp),
      hsane.divides.step (.onIncomingPacket size)⟩,
    ⟨rfl, rfl, rfl, rfl, rfl, rfl, Nat.le_succ _⟩, hheld⟩

theorem enqueuePackets_refused (h : s.pacingBitrate ≤ 0) (packets : List RtpPacketToSend)
    (now : Int) : s.enqueuePackets packets now = some s := by
  unfold enqueuePackets
  induction packets with
  | nil => rfl
  | cons packet packets ih =>
    rw [List.foldlM_cons]
    have hrefused : s.enqueuePacket packet now = some (s, false) := if_pos h
    rw [hrefused]
    exact ih

theorem enqueuePackets_taken (hsane : Sane s) (h : 0 < s.pacingBitrate)
    (packets : List RtpPacketToSend) (now : Int) :
    ∃ s', s.enqueuePackets packets now = some s' ∧ Sane s' ∧ Kept s s' ∧
      s'.packetQueue.held.Perm (packets ++ s.packetQueue.held) := by
  unfold enqueuePackets
  induction packets generalizing s with
  | nil => exact ⟨s, rfl, hsane, Kept.refl s, List.Perm.refl _⟩
  | cons packet packets ih =>
    have hmedia : s.mediaBitrate ≠ 0 := (h.trans_le hsane.media).ne'
    obtain ⟨s₁, henqueue, hsane₁, hkept₁, hheld₁⟩ :=
      enqueuePacketInternal_spec hsane hmedia packet (priorityForType packet.packetType) now
    obtain ⟨s', hrest, hsane', hkept', hheld'⟩ := ih hsane₁ (by rw [hkept₁.pacingBitrate]; exact h)
    refine ⟨s', ?_, hsane', hkept₁.trans hkept', hheld'.trans ?_⟩
    · rw [List.foldlM_cons]
      have htaken : s.enqueuePacket packet now = some (s₁, true) := by
        unfold enqueuePacket
        rw [if_neg (not_le.2 h), henqueue]
        rfl
      rw [htaken]
      exact hrest
    · exact (hheld₁.append_left packets).trans List.perm_middle

theorem enqueuePackets_spec (hsane : Sane s) (packets : List RtpPacketToSend) (now : Int) :
    ∃ s', s.enqueuePackets packets now = some s' ∧ Sane s' ∧ Kept s s' ∧
      (s.pacingBitrate = 0 → s' = s) := by
  rcases hsane.pacing.eq_or_lt with hzero | hpos
  · exact ⟨s, enqueuePackets_refused hzero.symm.le packets now, hsane, Kept.refl s, fun _ => rfl⟩
  · obtain ⟨s', henqueue, hsane', hkept', -⟩ := enqueuePackets_taken hsane hpos packets now
    exact ⟨s', henqueue, hsane', hkept', fun hzero => absurd hzero hpos.ne'⟩

end

end PacingController

end NaiveRtc.Pacing
