import NaiveRtc.Pacing.ControllerRates

/-!
# The send loop ends

The send loop of `ProcessPackets` goes on after every packet it sends and after all padding it asked
for.  It ends when media has a rate and padding that is asked for is taken.

* `PacketSender.Pads`, `PacketSender.Protects` — what the packet sender promises.
* `Running` — the invariant of the loop.
* `measure` — what becomes less: the calls for protection that return something, the time and the
  bytes that are left, the padding that may still be asked for, the packets in the queue.
* `sendLoop_ends` — **the loop ends**.
-/

namespace NaiveRtc.Pacing

open CongestionControl (DataRate)
open Loop (Outcome Pass)

/-- Padding has a size, and is not audio. -/
def PacketSender.Pads (sender : PacketSender) : Prop :=
  ∀ n size, ∀ packet ∈ sender.generatePadding n size,
    0 < packet.payloadSize + packet.paddingSize ∧ packet.packetType ≠ .audio

/-- There is no more protection from some call on. -/
def PacketSender.Protects (sender : PacketSender) (bound : Nat) : Prop :=
  ∀ n, bound ≤ n → sender.fetchFecPackets n = []

namespace SendLoop

section

variable (recommendedProbeSize : Nat)

/-- The packet counts, for the probe or for the padding debt. -/
def productive (accountForAudio : Bool) (packet : RtpPacketToSend) : Prop :=
  0 < packet.payloadSize + packet.paddingSize ∧
    (packet.packetType ≠ .audio ∨ accountForAudio = true ∨ 0 < recommendedProbeSize)

/-- Padding may be asked for when the queue is empty. -/
def canPad (s : PacingController) : Prop :=
  0 < recommendedProbeSize ∨
    (s.paddingDebt = 0 ∧
      bytesIn s.pacingSettings.paddingTargetDuration s.paddingBitrate ≠ 0)

open Classical in
/-- How often padding may be asked for, before time passes or a packet counts. -/
noncomputable def credit (s : PacingController) : Nat :=
  if canPad recommendedProbeSize s ∧
      ∀ packet ∈ s.packetQueue.held, ¬productive recommendedProbeSize s.accountForAudio packet
  then 1 else 0

/-- The time and the bytes that are left. -/
def budget (latest : Int) (l : SendLoop) : Nat :=
  (latest - l.prevProcessTime).toNat + (recommendedProbeSize - l.sentBytes)

/-- What becomes less in every pass. -/
noncomputable def measure (bound : Nat) (latest : Int) (l : SendLoop) :
    ℕ ×ₗ ℕ ×ₗ ℕ ×ₗ ℕ ×ₗ ℕ :=
  toLex (l.firstPacketInProbe.toNat, toLex (bound - l.fecCalls,
    toLex (l.budget recommendedProbeSize latest,
      toLex (credit recommendedProbeSize l.controller, l.controller.packetQueue.held.length))))

/-- The invariant: media has a rate, padding that is asked for is taken and counts as debt, and
nothing is due after `latest`. -/
structure Running (latest : Int) (l : SendLoop) : Prop where
  sane : l.controller.Sane
  media : l.controller.mediaBitrate ≠ 0
  taken : 0 < l.controller.pacingBitrate ∨
    (l.controller.paddingBitrate = 0 ∧ recommendedProbeSize = 0)
  counts :
    bytesIn l.controller.pacingSettings.paddingTargetDuration l.controller.paddingBitrate ≠ 0 →
      bytesIn kMaxDebtInTime l.controller.paddingBitrate ≠ 0
  target : l.targetSendTime ≤ latest

end

/-! ## Less in the order of the measure -/

theorem lex_lt_of_lt {α β : Type*} [Preorder α] [Preorder β] {a a' : α} {b b' : β} (h : a' < a) :
    toLex (a', b') < toLex (a, b) := Prod.Lex.toLex_lt_toLex.2 (Or.inl h)

theorem lex_lt_of_le {α β : Type*} [PartialOrder α] [Preorder β] {a a' : α} {b b' : β}
    (h : a' ≤ a) (h' : b' < b) : toLex (a', b') < toLex (a, b) := by
  rcases h.lt_or_eq with hlt | rfl
  · exact lex_lt_of_lt hlt
  · exact Prod.Lex.toLex_lt_toLex.2 (Or.inr ⟨rfl, h'⟩)

section

variable {sender : PacketSender} {now latest : Int} {probeCluster : Option ProbeCluster}
  {recommendedProbeSize bound : Nat} {l : SendLoop}

theorem Running.kept (h : Running recommendedProbeSize latest l) {l' : SendLoop}
    (hsane : l'.controller.Sane) (hkept : l.controller.Kept l'.controller)
    (htarget : l'.targetSendTime ≤ latest) : Running recommendedProbeSize latest l' where
  sane := hsane
  media := by rw [hkept.mediaBitrate]; exact h.media
  taken := by rw [hkept.pacingBitrate, hkept.paddingBitrate]; exact h.taken
  counts := by rw [hkept.pacingSettings, hkept.paddingBitrate]; exact h.counts
  target := htarget

/-! ## The parts of a pass -/

variable (bound) in
theorem startProbe_spec (h : Running recommendedProbeSize latest l) (sender : PacketSender)
    (now : Int) :
    ∃ l', l.startProbe sender now = some l' ∧ Running recommendedProbeSize latest l' ∧
      l'.firstPacketInProbe = false ∧
      measure recommendedProbeSize bound latest l' ≤
        measure recommendedProbeSize bound latest l := by
  unfold startProbe
  cases hfirst : l.firstPacketInProbe with
  | false => exact ⟨l, rfl, h, hfirst, le_refl _⟩
  | true =>
    have hless : ∀ l' : SendLoop, l'.firstPacketInProbe = false →
        measure recommendedProbeSize bound latest l' ≤
          measure recommendedProbeSize bound latest l := by
      intro l' hl'
      refine (lex_lt_of_lt ?_).le
      rw [hl', hfirst]
      exact Nat.zero_lt_one
    rw [if_pos rfl]
    dsimp only
    cases sender.generatePadding l.paddingCalls 1 with
    | nil => exact ⟨_, rfl, h.kept h.sane (PacingController.Kept.refl _) h.target, rfl, hless _ rfl⟩
    | cons packet packets =>
      obtain ⟨controller, henqueue, hsane, hkept, -⟩ :=
        PacingController.enqueuePacketInternal_spec h.sane h.media packet kDefaultPriority now
      dsimp only
      rw [henqueue]
      exact ⟨_, rfl, h.kept hsane hkept h.target, rfl, hless _ rfl⟩

variable (bound) in
theorem settleDebt_spec (h : Running recommendedProbeSize latest l) :
    Running recommendedProbeSize latest l.settleDebt ∧
      l.settleDebt.firstPacketInProbe = l.firstPacketInProbe ∧
      measure recommendedProbeSize bound latest l.settleDebt ≤
        measure recommendedProbeSize bound latest l := by
  unfold settleDebt
  split
  case isTrue hprev =>
    have hretimed := PacingController.reduceDebt_retimed l.controller
      (l.targetSendTime - l.prevProcessTime)
    refine ⟨h.kept (hretimed.sane h.sane) hretimed.kept h.target, rfl, le_of_lt ?_⟩
    refine lex_lt_of_le le_rfl (lex_lt_of_le le_rfl (lex_lt_of_lt ?_))
    have := h.target
    simp only [budget]
    omega
  case isFalse => exact ⟨h, rfl, le_refl _⟩

variable {s : PacingController}

theorem nextPacketToSend_spec (hsane : s.Sane) (h : s.mediaBitrate ≠ 0)
    (isProbing : Bool) (targetSendTime now : Int) :
    ∃ next, s.nextPacketToSend isProbing targetSendTime now = some next ∧
      (next = (s, none) ∨
        ∃ packet, next = ({ s with packetQueue := s.packetQueue.pop.1 }, some packet) ∧
          PacingController.Sane { s with packetQueue := s.packetQueue.pop.1 } ∧
          s.packetQueue.held.Perm (packet :: s.packetQueue.pop.1.held)) := by
  unfold PacingController.nextPacketToSend
  cases hempty : s.packetQueue.isEmpty with
  | true => exact ⟨_, rfl, Or.inl rfl⟩
  | false =>
    rw [if_neg Bool.false_ne_true]
    obtain ⟨wait, hwait⟩ : ∃ wait, (if s.unpacedAudioTime.isNone = true ∧ isProbing = false
        then s.mustWait targetSendTime now else some false) = some wait := by
      unfold PacingController.mustWait PacingController.timeToPayOffMediaDebt
      rw [PacingController.timeToPayOff_of_ne h]
      split
      · split
        · exact ⟨_, rfl⟩
        · split <;> exact ⟨_, rfl⟩
      · exact ⟨_, rfl⟩
    rw [hwait]
    refine ⟨_, rfl, ?_⟩
    cases wait with
    | true => exact Or.inl rfl
    | false =>
      obtain ⟨hsound, packet, hpacket, hheld⟩ :=
        RoundRobinPacketQueue.sound_pop hsane.sound hempty
      refine Or.inr ⟨packet, by simp [hpacket],
        ⟨hsound, hsane.pacing, hsane.media, ?_, hsane.divides⟩, hheld⟩
      intro hzero
      rw [(hsane.untouched hzero).1] at hempty
      cases hempty

theorem canPad_of_paddingSizeToAdd {sentBytes : Nat}
    (h : 0 < s.paddingSizeToAdd recommendedProbeSize sentBytes) :
    s.packetQueue.isEmpty = true ∧ canPad recommendedProbeSize s ∧
      ¬(s.paddingBitrate = 0 ∧ recommendedProbeSize = 0) := by
  unfold PacingController.paddingSizeToAdd at h
  split at h
  · exact absurd h (lt_irrefl 0)
  case isFalse hidle =>
    push Not at hidle
    refine ⟨by simpa using hidle.1, ?_⟩
    split at h
    case isTrue hprobe => exact ⟨Or.inl hprobe, fun hzero => hprobe.ne' hzero.2⟩
    case isFalse =>
      split at h
      case isTrue hpadding =>
        exact ⟨Or.inr ⟨hpadding.2, h.ne'⟩, fun hzero => hpadding.1.ne' hzero.1⟩
      case isFalse => exact absurd h (lt_irrefl 0)

theorem addPadding_spec (hpads : sender.Pads) (h : Running recommendedProbeSize latest l) :
    ∃ pass, l.addPadding sender now recommendedProbeSize = some pass ∧
      (∀ l', pass = .again l' → Running recommendedProbeSize latest l' ∧
        measure recommendedProbeSize bound latest l' <
          measure recommendedProbeSize bound latest l) ∧
      ∀ l', pass = .leave l' → l'.controller.Sane := by
  unfold addPadding
  dsimp only
  split
  case isFalse => exact ⟨_, rfl, by simp, fun l' hl' => by cases hl'; exact h.sane⟩
  case isTrue hpadding =>
    cases hpackets : sender.generatePadding l.paddingCalls
        (l.controller.paddingSizeToAdd recommendedProbeSize l.sentBytes) with
    | nil => exact ⟨_, rfl, by simp, fun l' hl' => by cases hl'; exact h.sane⟩
    | cons packet packets =>
      dsimp only
      obtain ⟨hempty, hcanPad, hrate⟩ := canPad_of_paddingSizeToAdd hpadding
      obtain ⟨controller, henqueue, hsane, hkept, hheld⟩ :=
        PacingController.enqueuePackets_taken h.sane (h.taken.resolve_right hrate)
          (packet :: packets) now
      rw [henqueue]
      refine ⟨_, rfl, ?_, by simp⟩
      intro l' hl'
      obtain rfl := Pass.again.inj hl'
      refine ⟨h.kept hsane hkept h.target, ?_⟩
      -- the padding is in the queue now, so that no more can be asked for
      refine lex_lt_of_le le_rfl (lex_lt_of_le le_rfl (lex_lt_of_le le_rfl (lex_lt_of_lt ?_)))
      have hbefore : credit recommendedProbeSize l.controller = 1 := by
        refine if_pos ⟨hcanPad, ?_⟩
        rw [(RoundRobinPacketQueue.isEmpty_iff h.sane.sound).1 hempty]
        simp
      have hafter : credit recommendedProbeSize controller = 0 := by
        unfold credit
        refine if_neg fun hnone => hnone.2 packet (hheld.mem_iff.2 (by simp)) ?_
        have hpositive := hpads l.paddingCalls _ packet (by rw [hpackets]; simp)
        exact ⟨hpositive.1, Or.inl hpositive.2⟩
      rw [hbefore]
      show credit recommendedProbeSize controller < 1
      rw [hafter]
      exact Nat.zero_lt_one

theorem onMediaSent_paddingDebt (s : PacingController) (packetType : RtpPacketType)
    (sentBytes : Nat) (atTime : Int) :
    (s.onMediaSent packetType sentBytes atTime).paddingDebt =
      if packetType ≠ .audio ∨ s.accountForAudio = true then
        min (s.paddingDebt + sentBytes) (bytesIn kMaxDebtInTime s.paddingBitrate)
      else s.paddingDebt := by
  unfold PacingController.onMediaSent
  dsimp only
  split <;> rfl

theorem paddingDebt_of_onMediaSent {packetType : RtpPacketType} {sentBytes : Nat} {atTime : Int}
    (hcap : bytesIn kMaxDebtInTime s.paddingBitrate ≠ 0)
    (hdebt : (s.onMediaSent packetType sentBytes atTime).paddingDebt = 0) :
    s.paddingDebt = 0 ∧
      (sentBytes = 0 ∨ ¬(packetType ≠ .audio ∨ s.accountForAudio = true)) := by
  rw [onMediaSent_paddingDebt] at hdebt
  split at hdebt
  case isTrue => omega
  case isFalse hunaccounted => exact ⟨hdebt, Or.inr hunaccounted⟩

theorem credit_onMediaSent {s s' : PacingController} {packet : RtpPacketToSend} {size : Nat}
    {atTime : Int} (hkept : s.Kept s') (hdebt : s'.paddingDebt = s.paddingDebt)
    (hheld : s.packetQueue.held.Perm (packet :: s'.packetQueue.held))
    (hcounts : bytesIn s.pacingSettings.paddingTargetDuration s.paddingBitrate ≠ 0 →
      bytesIn kMaxDebtInTime s.paddingBitrate ≠ 0)
    (hsize : packet.payloadSize + packet.paddingSize ≤ size)
    (hprobe : recommendedProbeSize = 0 ∨
      ¬productive recommendedProbeSize s.accountForAudio packet) :
    credit recommendedProbeSize (s'.onMediaSent packet.packetType size atTime) ≤
      credit recommendedProbeSize s := by
  have hretimed := PacingController.onMediaSent_retimed s' packet.packetType size atTime
  unfold credit
  split
  case isFalse => exact Nat.zero_le _
  case isTrue hafter =>
    obtain ⟨hcanPad, hnone⟩ := hafter
    rw [hretimed.packetQueue] at hnone
    have haudio : (s'.onMediaSent packet.packetType size atTime).accountForAudio =
        s.accountForAudio := hretimed.kept.accountForAudio.trans hkept.accountForAudio
    rw [haudio] at hnone
    -- what asks for padding afterwards asked for it before, and the packet did not count
    have hbefore : canPad recommendedProbeSize s ∧
        ¬productive recommendedProbeSize s.accountForAudio packet := by
      rcases hcanPad with hrecommended | ⟨hzero, hbytes⟩
      · exact ⟨Or.inl hrecommended, hprobe.resolve_left hrecommended.ne'⟩
      · rw [hretimed.kept.pacingSettings, hretimed.kept.paddingBitrate, hkept.pacingSettings,
          hkept.paddingBitrate] at hbytes
        have hcap : bytesIn kMaxDebtInTime s'.paddingBitrate ≠ 0 := by
          rw [hkept.paddingBitrate]
          exact hcounts hbytes
        obtain ⟨hdebt', hpacket⟩ := paddingDebt_of_onMediaSent hcap hzero
        refine ⟨Or.inr ⟨hdebt ▸ hdebt', hbytes⟩, ?_⟩
        rintro ⟨hpositive, hkind⟩
        rw [hkept.accountForAudio] at hpacket
        rcases hprobe with hrecommended | hunproductive
        · rcases hpacket with hsize' | hunaccounted
          · omega
          · exact hunaccounted (hkind.imp_right fun h => h.resolve_right (by omega))
        · exact hunproductive ⟨hpositive, hkind⟩
    refine (if_pos ⟨hbefore.1, ?_⟩).ge
    intro packet' hpacket'
    rcases List.mem_cons.1 (hheld.mem_iff.1 hpacket') with rfl | hold
    · exact hbefore.2
    · exact hnone packet' hold

theorem sendPacket_spec (hprotects : sender.Protects bound) (hnow : now ≤ latest)
    (hprobing : probeCluster.isSome = false → recommendedProbeSize = 0)
    (h : Running recommendedProbeSize latest l) {packet : RtpPacketToSend}
    (hsane : s.Sane) (hkept : l.controller.Kept s)
    (hdebt : s.paddingDebt = l.controller.paddingDebt)
    (hheld : l.controller.packetQueue.held.Perm (packet :: s.packetQueue.held)) :
    ∃ pass, sendPacket sender now probeCluster recommendedProbeSize { l with controller := s }
        packet = some pass ∧
      (∀ l', pass = .again l' → Running recommendedProbeSize latest l' ∧
        measure recommendedProbeSize bound latest l' <
          measure recommendedProbeSize bound latest l) ∧
      ∀ l', pass = .leave l' → l'.controller.Sane := by
  have hsize : packet.payloadSize + packet.paddingSize ≤ packetSize s packet :=
    Nat.le_add_right _ _
  unfold sendPacket
  dsimp only
  generalize packetSize s packet = size at hsize
  obtain ⟨s', henqueue, hsane', hkept', -⟩ :=
    PacingController.enqueuePackets_spec hsane (sender.fetchFecPackets l.fecCalls) now
  rw [henqueue]
  dsimp only [Option.bind_some]
  have hretimed := PacingController.onMediaSent_retimed s' packet.packetType size l.targetSendTime
  have hkept'' := (hkept.trans hkept').trans hretimed.kept
  split
  case isTrue =>
    refine ⟨_, rfl, by simp, fun l' hl' => ?_⟩
    obtain rfl := Pass.leave.inj hl'
    exact hretimed.sane hsane'
  case isFalse hmore =>
    obtain ⟨next, hnext⟩ := PacingController.nextSendTime_of_media
      (s := s'.onMediaSent packet.packetType size l.targetSendTime)
      (by rw [hkept''.mediaBitrate]; exact h.media) now
    rw [hnext]
    refine ⟨_, rfl, ?_, by simp⟩
    intro l' hl'
    obtain rfl := Pass.again.inj hl'
    refine ⟨h.kept (hretimed.sane hsane') hkept'' ?_, ?_⟩
    · cases next with
      | micros time => exact (min_le_left now time).trans hnow
      | minusInfinity => exact hnow
      | plusInfinity => exact hnow
    refine lex_lt_of_le le_rfl ?_
    by_cases hfec : l.fecCalls < bound
    · exact lex_lt_of_lt (by show bound - (l.fecCalls + 1) < bound - l.fecCalls; omega)
    -- there is no protection any more
    obtain rfl : s = s' := by
      rw [hprotects l.fecCalls (not_lt.1 hfec)] at henqueue
      exact Option.some.inj henqueue
    refine lex_lt_of_le (by show bound - (l.fecCalls + 1) ≤ bound - l.fecCalls; omega) ?_
    by_cases hprobe : recommendedProbeSize = 0 ∨
        ¬productive recommendedProbeSize l.controller.accountForAudio packet
    · refine lex_lt_of_le ?_ (lex_lt_of_le
        (credit_onMediaSent hkept hdebt hheld h.counts hsize hprobe) ?_)
      · simp only [budget]
        omega
      · rw [hretimed.packetQueue, hheld.length_eq]
        exact Nat.lt_succ_self _
    · push Not at hprobe
      have hcluster : probeCluster.isSome = true := by
        by_contra hnone
        exact hprobe.1 (hprobing (by simpa using hnone))
      have hleft : l.sentBytes + size < recommendedProbeSize := by
        by_contra hle
        exact hmore ⟨hcluster, not_lt.1 hle⟩
      have hpositive := hprobe.2.1
      refine lex_lt_of_lt ?_
      simp only [budget]
      omega

/-- **One pass.**  No division is by zero, and something becomes less when there is another pass. -/
theorem sendOnce_spec (hpads : sender.Pads) (hprotects : sender.Protects bound)
    (hnow : now ≤ latest) (hprobing : probeCluster.isSome = false → recommendedProbeSize = 0)
    (h : Running recommendedProbeSize latest l) :
    ∃ pass, l.sendOnce sender now probeCluster recommendedProbeSize = some pass ∧
      (∀ l', pass = .again l' → Running recommendedProbeSize latest l' ∧
        measure recommendedProbeSize bound latest l' <
          measure recommendedProbeSize bound latest l) ∧
      ∀ l', pass = .leave l' → l'.controller.Sane := by
  obtain ⟨l₁, hstart, h₁, hfirst, hless₁⟩ := startProbe_spec bound h sender now
  obtain ⟨h₂, -, hless₂⟩ := settleDebt_spec bound h₁
  obtain ⟨next, hnext, hcases⟩ := nextPacketToSend_spec h₂.sane h₂.media probeCluster.isSome
    l₁.settleDebt.targetSendTime now
  unfold sendOnce
  rw [hstart]
  dsimp only [Option.bind_some]
  rw [hnext]
  dsimp only [Option.bind_some]
  have hless := hless₂.trans hless₁
  rcases hcases with rfl | ⟨packet, rfl, hsane, hheld⟩
  · obtain ⟨pass, hpass, hagain, hleave⟩ := addPadding_spec hpads h₂
    exact ⟨pass, hpass, fun l' hl' => (hagain l' hl').imp_right (·.trans_le hless), hleave⟩
  · obtain ⟨pass, hpass, hagain, hleave⟩ := sendPacket_spec hprotects hnow hprobing h₂ hsane
      ⟨rfl, rfl, rfl, rfl, rfl, rfl, le_refl _⟩ rfl hheld
    exact ⟨pass, hpass, fun l' hl' => (hagain l' hl').imp_right (·.trans_le hless), hleave⟩

theorem sendLoop_ends (hpads : sender.Pads) (hprotects : sender.Protects bound)
    (hnow : now ≤ latest) (hprobing : probeCluster.isSome = false → recommendedProbeSize = 0)
    (h : Running recommendedProbeSize latest l) :
    ∃ fuel l', sendLoop sender now probeCluster recommendedProbeSize fuel l = .done l' ∧
      l'.controller.Sane :=
  Loop.run_total (measure recommendedProbeSize bound latest)
    (fun _ h => sendOnce_spec hpads hprotects hnow hprobing h) h

theorem sendLoop_idle (hsane : l.controller.Sane) (hfirst : l.firstPacketInProbe = false)
    (hempty : l.controller.packetQueue.isEmpty = true)
    (hpadding : l.controller.packetCounter = 0 ∨
      (l.controller.paddingBitrate = 0 ∧ recommendedProbeSize = 0)) :
    ∃ l', sendLoop sender now probeCluster recommendedProbeSize 1 l = .done l' ∧
      l'.controller.Sane := by
  have hstart : l.startProbe sender now = some l := by simp [startProbe, hfirst]
  obtain ⟨hsane', hempty', hpadding'⟩ : l.settleDebt.controller.Sane ∧
      l.settleDebt.controller.packetQueue.isEmpty = true ∧
      (l.settleDebt.controller.packetCounter = 0 ∨
        (l.settleDebt.controller.paddingBitrate = 0 ∧ recommendedProbeSize = 0)) := by
    unfold settleDebt
    split
    · exact ⟨(PacingController.reduceDebt_retimed _ _).sane hsane, hempty, hpadding⟩
    · exact ⟨hsane, hempty, hpadding⟩
  have hsize : l.settleDebt.controller.paddingSizeToAdd recommendedProbeSize
      l.settleDebt.sentBytes = 0 := by
    unfold PacingController.paddingSizeToAdd
    rcases hpadding' with hzero | ⟨hzero, hrecommended⟩
    · simp [hzero]
    · simp [hzero, hrecommended]
  refine ⟨l.settleDebt, ?_, hsane'⟩
  simp [sendLoop, Loop.run, sendOnce, hstart, PacingController.nextPacketToSend, hempty',
    addPadding, hsize]

end

end SendLoop

end NaiveRtc.Pacing
