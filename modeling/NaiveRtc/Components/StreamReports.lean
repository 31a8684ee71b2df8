import NaiveRtc.Components.ReceiveStreamStatistician
import NaiveRtc.Rtcp.ReportPackets

/-!
# Report blocks of a received stream

`GetReportBlock` of `rtp_receive_stream_statistician.cpp`: what was expected and lost since the last
report, in the narrow fields of a report block.

* `ReportingStatistician`, `getReportBlock` — the statistician with what only reports use.
* `SinceLast`, `onRtpPacket_sinceLast` — what a packet adds to the expected and the lost.
* `Regular`, `reports_in_range` — when the loss fraction fits its byte; everything else always fits.
-/

namespace NaiveRtc

open RtpReceiveStreamStatistician (int32 int32_int32 int32_int32_add int32_int32_sub Arrival)

/-- `ReportBlock()`. -/
def Rtcp.ReportBlock.fresh : Rtcp.ReportBlock := ⟨0, 0, 0, 0, 0, 0, 0⟩

/-- `set_cumulative_packet_lost(cumulative_lost)`. -/
def Rtcp.ReportBlock.setCumulativePacketLost (b : Rtcp.ReportBlock) (cumulativeLost : Int) :
    Rtcp.ReportBlock :=
  if 2 ^ 23 ≤ cumulativeLost ∨ cumulativeLost < -2 ^ 23 then b
  else { b with cumulativePacketLost := cumulativeLost }

/-- `RtpReceiveStreamStatistician`, with its SSRC and the values that only reports use. -/
structure ReportingStatistician where
  ssrc : BitVec 32
  stats : RtpReceiveStreamStatistician
  cumulativeLossIsCapped : Bool
  cumulativeLossRtcpOffset : Int
  lastReportCumulativeLoss : Int
  deriving DecidableEq

/-- What `GetReportBlock` computes: the value that is asserted not to be negative, the integer that
`set_fraction_lost` is called with, if it is, and the block. -/
structure ReportResult where
  receivedPacketsSinceLast : Int
  fractionLost : Option Int
  reportBlock : Rtcp.ReportBlock
  deriving DecidableEq

namespace ReportingStatistician

/-- `kStatisticsTimeoutMs`. -/
def kStatisticsTimeoutMs : Int := 8000

/-- `kPacketLostCappedValue`, the largest value of 24 bits with a sign. -/
def kPacketLostCappedValue : Int := 0x7fffff

/-- The constructor. -/
def create (ssrc : BitVec 32) (maxReorderingThreshold : Int) (enableRetransmitDetection : Bool) :
    ReportingStatistician where
  ssrc := ssrc
  stats := .create maxReorderingThreshold enableRetransmitDetection
  cumulativeLossIsCapped := false
  cumulativeLossRtcpOffset := 0
  lastReportCumulativeLoss := 0

/-- `received_packets_since_last`. -/
def receivedPacketsSinceLast (s : ReportingStatistician) : Int :=
  s.stats.lastReceivedSeqNum - s.stats.lastReportMaxSeqNum

/-- `lost_packets_since_last`, an `int32_t`. -/
def lostPacketsSinceLast (s : ReportingStatistician) : Int :=
  int32 (s.stats.cumulativeLoss - s.lastReportCumulativeLoss)

/-- The integer that `set_fraction_lost` is called with.  The product is an `int`. -/
def fractionLost (s : ReportingStatistician) : Option Int :=
  if 0 < s.receivedPacketsSinceLast ∧ 0 < s.lostPacketsSinceLast then
    some ((int32 (255 * s.lostPacketsSinceLast)).tdiv s.receivedPacketsSinceLast)
  else none

/-- The reported loss is never negative: it, and the offset after that. -/
def clampLoss (s : ReportingStatistician) (packetLost : Int) : Int × Int :=
  if packetLost < 0 then (0, int32 (-s.stats.cumulativeLoss))
  else (packetLost, s.cumulativeLossRtcpOffset)

/-- Nor has it more than 24 bits: it, and whether it was capped. -/
def capLoss (s : ReportingStatistician) (packetLost : Int) : Int × Bool :=
  if kPacketLostCappedValue < packetLost then (kPacketLostCappedValue, true)
  else (packetLost, s.cumulativeLossIsCapped)

/-- `GetReportBlock()`. -/
def getReportBlock (s : ReportingStatistician) (nowMs : Int) :
    ReportingStatistician × Option ReportResult :=
  if kStatisticsTimeoutMs ≤ nowMs - s.stats.lastReceiveTimeMs then (s, none)
  else if s.stats.hasReceivedRtpPacket = false then (s, none)
  else
    let block := { Rtcp.ReportBlock.fresh with sourceSsrc := s.ssrc }
    let block := match s.fractionLost with
      | some fraction => { block with fractionLost := UInt8.ofInt fraction }
      | none => block
    let clamped := s.clampLoss (int32 (s.stats.cumulativeLoss + s.cumulativeLossRtcpOffset))
    let capped := s.capLoss clamped.1
    let block := block.setCumulativePacketLost capped.1
    let block := { block with
      extendedHighestSeqNum := BitVec.ofInt 32 s.stats.lastReceivedSeqNum
      jitter := s.stats.jitterQ4 >>> 4 }
    ({ s with
        stats := { s.stats with lastReportMaxSeqNum := s.stats.lastReceivedSeqNum }
        cumulativeLossIsCapped := capped.2
        cumulativeLossRtcpOffset := clamped.2
        lastReportCumulativeLoss := s.stats.cumulativeLoss },
      some ⟨s.receivedPacketsSinceLast, s.fractionLost, block⟩)

/-- What is called, and when. -/
inductive Call
  | onRtpPacket (packet : RtpPacketReceived) (nowMs : Int)
  | getReportBlock (nowMs : Int)

section Calls

variable (isRetransmitedPacket : RtpReceiveStreamStatistician → RtpPacketReceived → Int → Bool)

/-- `OnRtpPacket(packet)`. -/
def onRtpPacket (s : ReportingStatistician) (packet : RtpPacketReceived) (nowMs : Int) :
    ReportingStatistician :=
  { s with stats := s.stats.onRtpPacket isRetransmitedPacket packet nowMs }

/-- One call after the other. -/
def machine : Machine ReportingStatistician Call (Option ReportResult) where
  step s
    | .onRtpPacket packet nowMs => (s.onRtpPacket isRetransmitedPacket packet nowMs, none)
    | .getReportBlock nowMs => s.getReportBlock nowMs

end Calls

/-! ## The jitter -/

theorem shiftLeft_abs {diff : BitVec 32} (h : diff.abs.toInt < 450000) :
    ∃ t : Int, 0 ≤ t ∧ t < 450000 ∧ diff.abs <<< 4 = BitVec.ofInt 32 (16 * t) := by
  by_cases hmin : diff = BitVec.intMin 32
  · subst hmin
    exact ⟨0, by omega, by omega, by decide⟩
  · have habs : diff.abs.toInt = diff.toInt.natAbs := BitVec.toInt_abs_eq_natAbs_of_ne_intMin hmin
    have hnat : (diff.abs.toNat : Int) = diff.abs.toInt := by
      have hcond := BitVec.toInt_eq_toNat_cond diff.abs
      have hlt := diff.abs.isLt
      split_ifs at hcond
      · exact hcond.symm
      · omega
    refine ⟨diff.abs.toInt, by omega, h, ?_⟩
    apply BitVec.eq_of_toInt_eq
    rw [BitVec.toInt_ofInt, BitVec.toInt_shiftLeft, ← hnat, Nat.shiftLeft_eq, Int.natCast_mul,
      Int.mul_comm]
    rfl

theorem toInt_ofInt_fits {v : Int} (hlow : -2 ^ 31 ≤ v) (hhigh : v < 2 ^ 31) :
    (BitVec.ofInt 32 v).toInt = v := by
  rw [BitVec.toInt_ofInt]
  exact RtpReceiveStreamStatistician.int32_of_fits hlow hhigh

theorem smoothed_lt {jitter : BitVec 32} {t : Int} (hjitter : jitter.toNat < 16 * 450000)
    (hlow : 0 ≤ t) (hhigh : t < 450000) :
    (jitter + (BitVec.ofInt 32 (16 * t) - jitter + 8).sshiftRight 4).toNat < 16 * 450000 := by
  have hbits : jitter = BitVec.ofInt 32 jitter.toNat := by
    rw [BitVec.ofInt_natCast, BitVec.ofNat_toNat, BitVec.setWidth_eq]
  generalize hj : (jitter.toNat : Int) = j at hbits
  have hdiff : BitVec.ofInt 32 (16 * t) - jitter + 8 = BitVec.ofInt 32 (16 * t - j + 8) := by
    rw [hbits, NumberUnwrapper.ofInt_sub_ofInt, BitVec.ofInt_add]
    rfl
  have hshift : (BitVec.ofInt 32 (16 * t - j + 8)).sshiftRight 4 =
      BitVec.ofInt 32 ((16 * t - j + 8) / 16) := by
    apply BitVec.eq_of_toInt_eq
    rw [BitVec.toInt_sshiftRight, toInt_ofInt_fits (by omega) (by omega),
      toInt_ofInt_fits (by omega) (by omega), Int.shiftRight_eq_div_pow]
    rfl
  have hsum := @NumberUnwrapper.toNat_ofInt_eq 32 (j + (16 * t - j + 8) / 16)
  rw [BitVec.ofInt_add, ← hbits] at hsum
  generalize hstep : (16 * t - j + 8) / 16 = step at *
  have hnonneg : 0 ≤ j + step := by omega
  have hlt : j + step < 16 * 450000 := by omega
  rw [hdiff, hshift]
  omega

theorem jitterQ4_updateJitter {s : RtpReceiveStreamStatistician}
    (hs : s.jitterQ4.toNat < 16 * 450000) (packet : RtpPacketReceived) (nowMs : Int) :
    (s.updateJitter packet nowMs).jitterQ4.toNat < 16 * 450000 := by
  unfold RtpReceiveStreamStatistician.updateJitter
  dsimp only
  split_ifs with hdiff
  · obtain ⟨t, hlow, hhigh, hshift⟩ := shiftLeft_abs hdiff
    rw [hshift]
    exact smoothed_lt hs hlow hhigh
  · exact hs

theorem jitterQ4_acceptInOrder {s : RtpReceiveStreamStatistician}
    (hs : s.jitterQ4.toNat < 16 * 450000) (packet : RtpPacketReceived) (seqNum nowMs : Int) :
    (s.acceptInOrder packet seqNum nowMs).jitterQ4.toNat < 16 * 450000 := by
  unfold RtpReceiveStreamStatistician.acceptInOrder
  dsimp only
  split_ifs
  · refine jitterQ4_updateJitter ?_ packet nowMs
    exact hs
  · exact hs

section Packet

variable {isRetransmitedPacket : RtpReceiveStreamStatistician → RtpPacketReceived → Int → Bool}
variable {s : RtpReceiveStreamStatistician} {packet : RtpPacketReceived} {nowMs : Int}

theorem isOutOfOrderPacket_reports (x : Int) :
    let s' := (s.isOutOfOrderPacket isRetransmitedPacket packet x nowMs).1
    s'.jitterQ4 = s.jitterQ4 ∧ s'.lastReportMaxSeqNum =
      if (s.receivedSeqOutOfOrder.any fun p => packet.sequenceNumber = p + 1) then x - 2
      else s.lastReportMaxSeqNum := by
  have hfar (r : RtpReceiveStreamStatistician) :
      (r.isFarOrLate isRetransmitedPacket packet x nowMs).1.jitterQ4 = r.jitterQ4 ∧
        (r.isFarOrLate isRetransmitedPacket packet x nowMs).1.lastReportMaxSeqNum =
          r.lastReportMaxSeqNum := by
    unfold RtpReceiveStreamStatistician.isFarOrLate
    split_ifs <;> exact ⟨rfl, rfl⟩
  unfold RtpReceiveStreamStatistician.isOutOfOrderPacket
  cases hpending : s.receivedSeqOutOfOrder with
  | none => exact hfar s
  | some p =>
    dsimp only
    by_cases hnext : packet.sequenceNumber = p + 1
    · rw [if_pos hnext, Option.any_some, decide_eq_true hnext, if_pos rfl]
      exact ⟨rfl, rfl⟩
    · rw [if_neg hnext, Option.any_some, decide_eq_false hnext, if_neg Bool.false_ne_true]
      exact hfar _

theorem jitterQ4_onRtpPacket (hs : s.jitterQ4.toNat < 16 * 450000) :
    (s.onRtpPacket isRetransmitedPacket packet nowMs).jitterQ4.toNat < 16 * 450000 := by
  by_cases hnone : (s.countPacket packet nowMs).hasReceivedRtpPacket = false
  · rw [RtpReceiveStreamStatistician.onRtpPacket, if_pos hnone]
    refine jitterQ4_acceptInOrder ?_ _ _ _
    exact hs
  · rw [RtpReceiveStreamStatistician.onRtpPacket, if_neg hnone]
    have houtcome := (@isOutOfOrderPacket_reports isRetransmitedPacket (s.countPacket packet nowMs)
      packet nowMs (s.unwrappedSeqNum packet)).1
    generalize (s.countPacket packet nowMs).isOutOfOrderPacket isRetransmitedPacket packet
      (s.unwrappedSeqNum packet) nowMs = outcome at houtcome
    obtain ⟨s', late⟩ := outcome
    have hs' : s'.jitterQ4.toNat < 16 * 450000 := by
      rw [show s'.jitterQ4 = s.jitterQ4 from houtcome]
      exact hs
    cases late with
    | true => exact hs'
    | false => exact jitterQ4_acceptInOrder hs' _ _ _

theorem lastReportMaxSeqNum_acceptInOrder (s : RtpReceiveStreamStatistician)
    (packet : RtpPacketReceived) (seqNum nowMs : Int) :
    (s.acceptInOrder packet seqNum nowMs).lastReportMaxSeqNum = s.lastReportMaxSeqNum := by
  unfold RtpReceiveStreamStatistician.acceptInOrder RtpReceiveStreamStatistician.updateJitter
  dsimp only
  split_ifs <;> rfl

theorem lastReportMaxSeqNum_onRtpPacket :
    (s.onRtpPacket isRetransmitedPacket packet nowMs).lastReportMaxSeqNum =
      if s.firstReceivedSeqNum < 0 then s.unwrappedSeqNum packet - 1
      else if (s.receivedSeqOutOfOrder.any fun p => packet.sequenceNumber = p + 1) then
        s.unwrappedSeqNum packet - 2
      else s.lastReportMaxSeqNum := by
  by_cases hfirst : s.firstReceivedSeqNum < 0
  · have hnone : (s.countPacket packet nowMs).hasReceivedRtpPacket = false :=
      RtpReceiveStreamStatistician.hasReceived_iff.2 hfirst
    rw [RtpReceiveStreamStatistician.onRtpPacket, if_pos hnone, if_pos hfirst]
    exact lastReportMaxSeqNum_acceptInOrder ..
  · have hsome : ¬ (s.countPacket packet nowMs).hasReceivedRtpPacket = false :=
      fun h => hfirst (RtpReceiveStreamStatistician.hasReceived_iff.1 h)
    rw [RtpReceiveStreamStatistician.onRtpPacket, if_neg hsome, if_neg hfirst]
    have houtcome := (@isOutOfOrderPacket_reports isRetransmitedPacket (s.countPacket packet nowMs)
      packet nowMs (s.unwrappedSeqNum packet)).2
    generalize (s.countPacket packet nowMs).isOutOfOrderPacket isRetransmitedPacket packet
      (s.unwrappedSeqNum packet) nowMs = outcome at houtcome
    obtain ⟨s', late⟩ := outcome
    cases late with
    | true => exact houtcome
    | false => exact (lastReportMaxSeqNum_acceptInOrder ..).trans houtcome

end Packet

/-! ## Expected and lost -/

/-- The second packet of a restarted stream. -/
def Restarts (s : ReportingStatistician) (packet : RtpPacketReceived) : Prop :=
  0 ≤ s.stats.firstReceivedSeqNum ∧
    (s.stats.receivedSeqOutOfOrder.any fun p => packet.sequenceNumber = p + 1) = true

instance (s : ReportingStatistician) (packet : RtpPacketReceived) :
    Decidable (s.Restarts packet) :=
  inferInstanceAs (Decidable (_ ∧ _))

/-- What a packet adds to the expected and to the lost packets since the last report.  A stream that
starts over is two packets old, and nothing is said about what was lost. -/
inductive SinceLast (s : ReportingStatistician) (packet : RtpPacketReceived) : Int → Int → Prop
  | first (hnone : s.stats.firstReceivedSeqNum < 0) :
    SinceLast s packet 1 s.lostPacketsSinceLast
  | restarted (h : s.Restarts packet) : SinceLast s packet 2 s.lostPacketsSinceLast
  | moved (gap counted : Int) (hsome : 0 ≤ s.stats.firstReceivedSeqNum) (hgap : 0 ≤ gap)
      (hcounted : 0 ≤ counted) (htwo : counted ≤ 2) :
    SinceLast s packet (s.receivedPacketsSinceLast + gap)
      (int32 (s.lostPacketsSinceLast + gap - counted))

theorem held_le (a : RtpReceiveStreamStatistician.Account) : 0 ≤ a.held ∧ a.held ≤ 1 := by
  unfold RtpReceiveStreamStatistician.Account.held
  split_ifs <;> decide

theorem int32_sub_of_int32 {loss change last : Int} :
    int32 (int32 (loss + change) - last) = int32 (int32 (loss - last) + change) := by
  rw [int32_int32_sub, int32_int32_add]
  exact congrArg int32 (by omega)

theorem onRtpPacket_sinceLast
    (isRetransmitedPacket : RtpReceiveStreamStatistician → RtpPacketReceived → Int → Bool)
    (s : ReportingStatistician) (packet : RtpPacketReceived) (nowMs : Int) :
    SinceLast s packet
      (s.onRtpPacket isRetransmitedPacket packet nowMs).receivedPacketsSinceLast
      (s.onRtpPacket isRetransmitedPacket packet nowMs).lostPacketsSinceLast := by
  have harrival : Arrival s.stats.account packet.sequenceNumber
      (s.stats.onRtpPacket isRetransmitedPacket packet nowMs).account :=
    RtpReceiveStreamStatistician.onRtpPacket_cases
  have hmax := @lastReportMaxSeqNum_onRtpPacket isRetransmitedPacket s.stats packet nowMs
  have hmoved (gap counted last loss : Int) (hgap : 0 ≤ gap) (hcounted : 0 ≤ counted)
      (htwo : counted ≤ 2) (hsome : 0 ≤ s.stats.firstReceivedSeqNum)
      (hnot : ∀ p, s.stats.receivedSeqOutOfOrder = some p → packet.sequenceNumber ≠ p + 1)
      (hlast : last = s.stats.lastReceivedSeqNum + gap)
      (hloss : loss = int32 (s.stats.cumulativeLoss + (gap - counted))) :
      SinceLast s packet
        (last - (s.stats.onRtpPacket isRetransmitedPacket packet nowMs).lastReportMaxSeqNum)
        (int32 (loss - s.lastReportCumulativeLoss)) := by
    have hstays : (s.stats.onRtpPacket isRetransmitedPacket packet nowMs).lastReportMaxSeqNum =
        s.stats.lastReportMaxSeqNum := by
      rw [hmax, if_neg (not_lt.2 hsome), RtpReceiveStreamStatistician.any_eq_false_of_ne hnot,
        if_neg Bool.false_ne_true]
    have hexpected : last - s.stats.lastReportMaxSeqNum = s.receivedPacketsSinceLast + gap := by
      unfold receivedPacketsSinceLast
      omega
    have hlost : int32 (loss - s.lastReportCumulativeLoss) =
        int32 (s.lostPacketsSinceLast + gap - counted) := by
      rw [hloss, int32_sub_of_int32]
      exact congrArg int32 (by unfold lostPacketsSinceLast; omega)
    rw [hstays, hexpected, hlost]
    exact .moved gap counted hsome hgap hcounted htwo
  have hunchanged : int32 (int32 s.stats.cumulativeLoss - s.lastReportCumulativeLoss) =
    s.lostPacketsSinceLast := int32_int32_sub _ _
  have hheld := held_le s.stats.account
  change SinceLast s packet ((s.stats.onRtpPacket isRetransmitedPacket packet nowMs).account.last -
      (s.stats.onRtpPacket isRetransmitedPacket packet nowMs).lastReportMaxSeqNum)
    (int32 ((s.stats.onRtpPacket isRetransmitedPacket packet nowMs).account.loss -
      s.lastReportCumulativeLoss))
  generalize (s.stats.onRtpPacket isRetransmitedPacket packet nowMs).account = a at harrival
  cases harrival with
  | first x hx hnone =>
    have hnone' : s.stats.firstReceivedSeqNum < 0 := hnone
    have hx' : s.stats.unwrappedSeqNum packet = x := hx.symm
    have hone : x - (x - 1) = 1 := by omega
    rw [hmax, if_pos hnone', hx']
    rw [hone, show s.stats.account.loss = s.stats.cumulativeLoss from rfl, hunchanged]
    exact .first hnone
  | restarted x hx hsome p hp hnext =>
    have hsome' : 0 ≤ s.stats.firstReceivedSeqNum := hsome
    have hp' : s.stats.receivedSeqOutOfOrder = some p := hp
    have hx' : s.stats.unwrappedSeqNum packet = x := hx.symm
    have htwo : x - (x - 2) = 2 := by omega
    rw [hmax, if_neg (not_lt.2 hsome'), hp', Option.any_some, decide_eq_true hnext, if_pos rfl, hx']
    rw [htwo, show s.stats.account.loss = s.stats.cumulativeLoss from rfl, hunchanged]
    refine .restarted ⟨hsome, ?_⟩
    rw [hp', Option.any_some, decide_eq_true hnext]
  | postponed x hx hsome hnot hfar =>
    refine hmoved 0 s.stats.account.held _ _ (le_refl 0) hheld.1 (by omega) hsome hnot
      (Int.add_zero _).symm ?_
    exact congrArg int32 (by rw [Int.zero_sub, ← Int.sub_eq_add_neg]; rfl)
  | inOrder x hx hsome hnot hnear hahead =>
    have hahead' : s.stats.lastReceivedSeqNum < x := hahead
    refine hmoved (x - s.stats.lastReceivedSeqNum) (s.stats.account.held + 1) _ _ (by omega)
      (by omega) (by omega) hsome hnot (show x = _ by omega) ?_
    exact congrArg int32 (by
      show s.stats.cumulativeLoss - s.stats.account.held - 1 + (x - s.stats.lastReceivedSeqNum) = _
      omega)
  | late x hx hsome hnot hnear hbehind =>
    refine hmoved 0 (s.stats.account.held + 1) _ _ (le_refl 0) (by omega) (by omega) hsome hnot
      (Int.add_zero _).symm ?_
    exact congrArg int32 (by
      show s.stats.cumulativeLoss - s.stats.account.held - 1 = _
      omega)

/-! ## Runs -/

/-- The loss fraction stays in step with a call.  A stream that starts over leaves no more than the
two packets that it counts as lost, the lost packets since the last report do not pass the least
`int32_t`, and when they are reported the product that they are part of fits an `int`. -/
def Regular (s : ReportingStatistician) : Call → Prop
  | .onRtpPacket packet _ =>
    -2 ^ 31 + 2 ≤ s.lostPacketsSinceLast ∧ (s.Restarts packet → s.lostPacketsSinceLast ≤ 2)
  | .getReportBlock _ => 255 * s.lostPacketsSinceLast < 2 ^ 31

instance decidableRegular (s : ReportingStatistician) : ∀ call, Decidable (Regular s call)
  | .onRtpPacket _ _ => inferInstanceAs (Decidable (_ ∧ _))
  | .getReportBlock _ => inferInstanceAs (Decidable (_ < _))

/-- The number of packets that were expected since the last report is not negative, and the jitter
is in its range. -/
structure InRange (s : ReportingStatistician) : Prop where
  expected_nonneg : 0 ≤ s.receivedPacketsSinceLast
  jitter_lt : s.stats.jitterQ4.toNat < 16 * 450000

/-- No more packets were lost than expected, since the last report. -/
structure LostOfExpected (s : ReportingStatistician) : Prop where
  fresh : s.stats.firstReceivedSeqNum < 0 → s.lostPacketsSinceLast ≤ 1
  lost_le : s.lostPacketsSinceLast ≤ s.receivedPacketsSinceLast

/-- What a report says, the loss fraction apart: the assertion holds, and the cumulative loss is one
that the block takes. -/
structure ReportHolds (r : ReportResult) : Prop where
  asserted : 0 ≤ r.receivedPacketsSinceLast
  loss_nonneg : 0 ≤ r.reportBlock.cumulativePacketLost
  loss_le : r.reportBlock.cumulativePacketLost ≤ 0x7fffff

/-- The loss fraction fits its byte. -/
def FractionFits (r : ReportResult) : Prop :=
  ∀ fraction, r.fractionLost = some fraction → 0 ≤ fraction ∧ fraction ≤ 255

/-- What `GetReportBlock` takes from the state, and what it leaves. -/
structure Reported (s s' : ReportingStatistician) (r : ReportResult) : Prop where
  jitter_eq : s'.stats.jitterQ4 = s.stats.jitterQ4
  expected_eq : s'.receivedPacketsSinceLast = 0
  lost_eq : s'.lostPacketsSinceLast = 0
  received_eq : r.receivedPacketsSinceLast = s.receivedPacketsSinceLast
  fraction_eq : r.fractionLost = s.fractionLost
  loss_nonneg : 0 ≤ r.reportBlock.cumulativePacketLost
  loss_le : r.reportBlock.cumulativePacketLost ≤ 0x7fffff

theorem setCumulativePacketLost_range (s : ReportingStatistician) (packetLost : Int)
    (block : Rtcp.ReportBlock) :
    let block' := block.setCumulativePacketLost (s.capLoss (s.clampLoss packetLost).1).1
    0 ≤ block'.cumulativePacketLost ∧ block'.cumulativePacketLost ≤ 0x7fffff := by
  have hclamped : 0 ≤ (s.clampLoss packetLost).1 := by
    unfold clampLoss
    split_ifs with h
    · exact le_refl 0
    · exact not_lt.1 h
  generalize (s.clampLoss packetLost).1 = clamped at hclamped ⊢
  have hcapped : 0 ≤ (s.capLoss clamped).1 ∧ (s.capLoss clamped).1 ≤ 0x7fffff := by
    unfold capLoss kPacketLostCappedValue
    split_ifs with h
    · exact ⟨by decide, le_refl _⟩
    · exact ⟨hclamped, not_lt.1 h⟩
  unfold Rtcp.ReportBlock.setCumulativePacketLost
  rw [if_neg (by omega)]
  exact hcapped

theorem getReportBlock_cases (s : ReportingStatistician) (nowMs : Int) :
    s.getReportBlock nowMs = (s, none) ∨
      ∃ s' r, s.getReportBlock nowMs = (s', some r) ∧ Reported s s' r := by
  unfold getReportBlock
  by_cases htimeout : kStatisticsTimeoutMs ≤ nowMs - s.stats.lastReceiveTimeMs
  · exact .inl (if_pos htimeout)
  · rw [if_neg htimeout]
    by_cases hnone : s.stats.hasReceivedRtpPacket = false
    · exact .inl (if_pos hnone)
    · rw [if_neg hnone]
      have hzero : int32 (s.stats.cumulativeLoss - s.stats.cumulativeLoss) = 0 := by
        rw [Int.sub_self]
        rfl
      have hrange := setCumulativePacketLost_range s
        (int32 (s.stats.cumulativeLoss + s.cumulativeLossRtcpOffset))
      exact .inr ⟨_, _, rfl, rfl, Int.sub_self _, hzero, rfl, rfl, (hrange _).1, (hrange _).2⟩

section Run

variable {isRetransmitedPacket : RtpReceiveStreamStatistician → RtpPacketReceived → Int → Bool}
variable {s : ReportingStatistician}

theorem InRange.step (hs : InRange s) (call : Call) :
    InRange ((machine isRetransmitedPacket).step s call).1 ∧
      ∀ r, ((machine isRetransmitedPacket).step s call).2 = some r → ReportHolds r := by
  cases call with
  | onRtpPacket packet nowMs =>
    refine ⟨⟨?_, jitterQ4_onRtpPacket hs.jitter_lt⟩, fun r hr => by cases hr⟩
    have hsince := onRtpPacket_sinceLast isRetransmitedPacket s packet nowMs
    show 0 ≤ (s.onRtpPacket isRetransmitedPacket packet nowMs).receivedPacketsSinceLast
    generalize (s.onRtpPacket isRetransmitedPacket packet nowMs).lostPacketsSinceLast = lost
      at hsince
    generalize (s.onRtpPacket isRetransmitedPacket packet nowMs).receivedPacketsSinceLast = received
      at hsince
    have hexpected := hs.expected_nonneg
    cases hsince with
    | first hnone => decide
    | restarted h => decide
    | moved gap counted hsome hgap hcounted htwo => omega
  | getReportBlock nowMs =>
    obtain hnone | ⟨s', r, hsome, hreported⟩ := getReportBlock_cases s nowMs
    · simp only [machine, hnone]
      exact ⟨hs, fun r hr => by cases hr⟩
    · simp only [machine, hsome]
      refine ⟨⟨Int.le_of_eq hreported.expected_eq.symm, ?_⟩, ?_⟩
      · rw [hreported.jitter_eq]
        exact hs.jitter_lt
      · rintro r' ⟨⟩
        refine ⟨?_, hreported.loss_nonneg, hreported.loss_le⟩
        rw [hreported.received_eq]
        exact hs.expected_nonneg

theorem int32_le {v : Int} (h : -2 ^ 31 ≤ v) : int32 v ≤ v := by
  unfold int32 Int.bmod
  dsimp only
  split_ifs <;> omega

theorem firstReceivedSeqNum_nonneg (hsome : 0 ≤ s.stats.firstReceivedSeqNum)
    (packet : RtpPacketReceived) (nowMs : Int) :
    0 ≤ (s.onRtpPacket isRetransmitedPacket packet nowMs).stats.firstReceivedSeqNum := by
  have harrival : Arrival s.stats.account packet.sequenceNumber
      (s.stats.onRtpPacket isRetransmitedPacket packet nowMs).account :=
    RtpReceiveStreamStatistician.onRtpPacket_cases
  show 0 ≤ (s.stats.onRtpPacket isRetransmitedPacket packet nowMs).account.first
  generalize (s.stats.onRtpPacket isRetransmitedPacket packet nowMs).account = a at harrival
  cases harrival with
  | first x hx hnone => exact absurd hsome (not_le.2 hnone)
  | _ => exact hsome

theorem LostOfExpected.onRtpPacket (hs : LostOfExpected s) (packet : RtpPacketReceived)
    (nowMs : Int) (hlow : -2 ^ 31 + 2 ≤ s.lostPacketsSinceLast)
    (hrestart : s.Restarts packet → s.lostPacketsSinceLast ≤ 2) :
    LostOfExpected (s.onRtpPacket isRetransmitedPacket packet nowMs) := by
  have hsince := onRtpPacket_sinceLast isRetransmitedPacket s packet nowMs
  have hreceived := fun hsome =>
    @firstReceivedSeqNum_nonneg isRetransmitedPacket s hsome packet nowMs
  generalize s.onRtpPacket isRetransmitedPacket packet nowMs = s' at hsince hreceived
  have hle := hs.lost_le
  generalize hlost : s'.lostPacketsSinceLast = lost at hsince
  generalize hexpected : s'.receivedPacketsSinceLast = expected at hsince
  cases hsince with
  | first hnone =>
    have hone := hs.fresh hnone
    exact ⟨fun _ => hlost ▸ hone, by omega⟩
  | restarted h =>
    have htwo := hrestart h
    exact ⟨fun hnone => absurd (hreceived h.1) (not_le.2 hnone), by omega⟩
  | moved gap counted hsome hgap hcounted htwo =>
    have hwrap := @int32_le (s.lostPacketsSinceLast + gap - counted) (by omega)
    exact ⟨fun hnone => absurd (hreceived hsome) (not_le.2 hnone), by omega⟩

theorem fractionLost_range (hs : LostOfExpected s)
    (hproduct : 255 * s.lostPacketsSinceLast < 2 ^ 31) {fraction : Int}
    (hfraction : s.fractionLost = some fraction) :
    0 ≤ fraction ∧ fraction ≤ 255 := by
  unfold fractionLost at hfraction
  split_ifs at hfraction with hpos
  obtain ⟨hexpected, hlost⟩ := hpos
  have hle := hs.lost_le
  rw [RtpReceiveStreamStatistician.int32_of_fits (by omega) hproduct, Option.some.injEq,
    Int.tdiv_eq_ediv_of_nonneg (by omega)] at hfraction
  subst hfraction
  refine ⟨Int.ediv_nonneg (by omega) (by omega), ?_⟩
  refine Int.ediv_le_of_le_mul hexpected ?_
  exact Int.mul_le_mul_of_nonneg_left hle (by decide)

/-- **A regular call keeps the lost packets below the expected ones**, and a loss fraction that it
reports fits its byte. -/
theorem LostOfExpected.step (hs : LostOfExpected s) {call : Call} (hregular : Regular s call) :
    LostOfExpected ((machine isRetransmitedPacket).step s call).1 ∧
      ∀ r, ((machine isRetransmitedPacket).step s call).2 = some r → FractionFits r := by
  cases call with
  | onRtpPacket packet nowMs =>
    exact ⟨hs.onRtpPacket packet nowMs hregular.1 hregular.2, fun r hr => by cases hr⟩
  | getReportBlock nowMs =>
    obtain hnone | ⟨s', r, hsome, hreported⟩ := getReportBlock_cases s nowMs
    · simp only [machine, hnone]
      exact ⟨hs, fun r hr => by cases hr⟩
    · simp only [machine, hsome]
      refine ⟨⟨fun _ => ?_, ?_⟩, ?_⟩
      · rw [hreported.lost_eq]
        decide
      · rw [hreported.lost_eq, hreported.expected_eq]
      · rintro r' ⟨⟩ fraction hfraction
        rw [hreported.fraction_eq] at hfraction
        exact fractionLost_range hs hregular hfraction

end Run

/-- **Reports stay in their ranges along every run**: the assertion holds, and the cumulative loss
and the jitter fit.  The loss fraction fits too when the calls are regular. -/
theorem reports_in_range
    (isRetransmitedPacket : RtpReceiveStreamStatistician → RtpPacketReceived → Int → Bool)
    (ssrc : BitVec 32) (maxReorderingThreshold : Int) (enableRetransmitDetection : Bool)
    (calls : List Call) :
    let s := create ssrc maxReorderingThreshold enableRetransmitDetection
    let M := machine isRetransmitedPacket
    ((∀ call r, (call, some r) ∈ M.log s calls → ReportHolds r) ∧
        (M.final s calls).stats.jitterQ4.toNat < 16 * 450000) ∧
      (M.AllGood Regular s calls → ∀ call r, (call, some r) ∈ M.log s calls → FractionFits r) := by
  intro s M
  have hrange : InRange s :=
    ⟨show (0 : Int) ≤ -1 - -1 by decide, show (0 : BitVec 32).toNat < 16 * 450000 by decide⟩
  have hbalance : LostOfExpected s :=
    ⟨fun _ => show int32 (0 - 0) ≤ 1 by decide, show int32 (0 - 0) ≤ -1 - -1 by decide⟩
  refine ⟨⟨fun call r hmem => ?_, ?_⟩, fun hregular call r hmem => ?_⟩
  · obtain ⟨pre, call', post, rfl, heq⟩ := M.mem_log_iff.1 hmem
    have hpre := M.invariant_of_step InRange (fun s i hs => (hs.step i).1) hrange pre
    injection heq with hcall hresult
    exact (hpre.step call').2 r hresult.symm
  · exact (M.invariant_of_step InRange (fun s i hs => (hs.step i).1) hrange calls).jitter_lt
  · obtain ⟨pre, call', post, rfl, heq⟩ := M.mem_log_iff.1 hmem
    obtain ⟨hbefore, hlast, -⟩ := (M.allGood_append Regular s pre (call' :: post)).1 hregular
    have hpre : LostOfExpected (M.final s pre) :=
      M.invariant_final (fun s i (hs : LostOfExpected s) hgood => (hs.step hgood).1)
        hbalance hbefore
    injection heq with hcall hresult
    exact (hpre.step hlast).2 r hresult.symm

/-- A packet that comes every 20 milliseconds, as far as its number goes. -/
def numberedCall (sequenceNumber : BitVec 16) (index : Nat) : Call :=
  .onRtpPacket ⟨sequenceNumber, 0, 90000, 12, 100, 0⟩ (20 * index)

/-- One packet in two is lost. -/
theorem reports_in_range_half :
    ∀ call r, (call, some r) ∈ (machine fun _ _ _ => false).log (create 1 5 false)
      ([0, 2, 4].zipIdx.map (fun entry => numberedCall entry.1 entry.2) ++ [.getReportBlock 60]) →
      FractionFits r :=
  (reports_in_range (fun _ _ _ => false) 1 5 false _).2 (by decide +kernel)

/-- Twelve packets are lost, and then the stream starts over: all of them are put down to its first
two packets, and the fraction is six times what is lost when everything is. -/
theorem not_fractionFits_restart :
    ¬ ∀ call r, (call, some r) ∈ (machine fun _ _ _ => false).log (create 1 5 false)
      ([0, 5, 10, 15, 1000, 1001].zipIdx.map (fun entry => numberedCall entry.1 entry.2) ++
        [.getReportBlock 120]) → FractionFits r := by
  intro h
  have hreported : (((machine fun _ _ _ => false).log (create 1 5 false)
      ([0, 5, 10, 15, 1000, 1001].zipIdx.map (fun entry => numberedCall entry.1 entry.2) ++
        [.getReportBlock 120])).any fun entry =>
          entry.2.any fun r => r.fractionLost = some 1530) = true := by decide +kernel
  obtain ⟨⟨call, result⟩, hmem, hresult⟩ := List.any_eq_true.1 hreported
  obtain ⟨r, rfl, hfraction⟩ := (Option.any_eq_true _ _).1 hresult
  exact absurd (h call r hmem 1530 (of_decide_eq_true hfraction)).2 (by decide)

end ReportingStatistician

end NaiveRtc
