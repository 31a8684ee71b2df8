import NaiveRtc.Components.NumUnwrapper

/-!
# Statistics of a received stream

`rtc/rtp_rtcp/components/rtp_receive_stream_statistician.cpp`: every packet of a stream is
counted as received, and the sequence numbers that an in-order packet moves past as expected.
A packet that is too far away is held back until the next one tells whether the sender
restarted.

* `Arrival`, `onRtpPacket_cases` — the five things a packet can be.
* `advance`, `advances` — how far the in-order packets moved the last number.
* `loss_accounting` — the balance of the cumulative loss, along every run.
-/

namespace NaiveRtc

/-- What the statistics read of a packet. -/
structure RtpPacketReceived where
  sequenceNumber : BitVec 16
  timestamp : BitVec 32
  payloadTypeFrequency : Int
  headerSize : Nat
  payloadSize : Nat
  paddingSize : Nat
  deriving DecidableEq

/-- `RtpPacketCounter`. -/
structure RtpPacketCounter where
  headerBytes : Nat
  payloadBytes : Nat
  paddingBytes : Nat
  numPackets : Nat
  deriving DecidableEq

/-- `AddPacket`. -/
def RtpPacketCounter.addPacket (c : RtpPacketCounter) (packet : RtpPacketReceived) :
    RtpPacketCounter where
  headerBytes := c.headerBytes + packet.headerSize
  payloadBytes := c.payloadBytes + packet.payloadSize
  paddingBytes := c.paddingBytes + packet.paddingSize
  numPackets := c.numPackets + 1

/-- `RtpReceiveStreamStatistician`; the bitrate statistics and the counters of the reports,
which the accounting neither reads nor changes, are left out. -/
structure RtpReceiveStreamStatistician where
  maxReorderingThreshold : Int
  enableRetransmitDetection : Bool
  jitterQ4 : BitVec 32
  cumulativeLoss : Int
  lastReceiveTimeMs : Int
  lastPacketTimestamp : BitVec 32
  firstReceivedSeqNum : Int
  lastReceivedSeqNum : Int
  seqUnwrapper : NumberUnwrapper
  receivedSeqOutOfOrder : Option (BitVec 16)
  lastReportMaxSeqNum : Int
  firstPacketTimeMs : Option Int
  lastPacketReceivedTimeMs : Option Int
  transmitted : RtpPacketCounter
  retransmitted : RtpPacketCounter
  deriving DecidableEq

namespace RtpReceiveStreamStatistician

/-- The value of an `int32_t` that `v` was assigned to. -/
def int32 (v : Int) : Int := v.bmod (2 ^ 32)

/-- The constructor. -/
def create (maxReorderingThreshold : Int) (enableRetransmitDetection : Bool) :
    RtpReceiveStreamStatistician where
  maxReorderingThreshold := maxReorderingThreshold
  enableRetransmitDetection := enableRetransmitDetection
  jitterQ4 := 0
  cumulativeLoss := 0
  lastReceiveTimeMs := 0
  lastPacketTimestamp := 0
  firstReceivedSeqNum := -1
  lastReceivedSeqNum := -1
  seqUnwrapper := none
  receivedSeqOutOfOrder := none
  lastReportMaxSeqNum := -1
  firstPacketTimeMs := none
  lastPacketReceivedTimeMs := none
  transmitted := ⟨0, 0, 0, 0⟩
  retransmitted := ⟨0, 0, 0, 0⟩

/-- `HasReceivedRtpPacket()`. -/
def hasReceivedRtpPacket (s : RtpReceiveStreamStatistician) : Bool := 0 ≤ s.firstReceivedSeqNum

/-- `UpdateJitter`.  The assertion that time has passed since the last packet is left out: two
packets of one millisecond fail it, where assertions are built. -/
def updateJitter (s : RtpReceiveStreamStatistician) (packet : RtpPacketReceived) (nowMs : Int) :
    RtpReceiveStreamStatistician :=
  let receiveTimestampDiff : BitVec 32 := BitVec.ofInt 32
    (((nowMs - s.lastReceiveTimeMs) * packet.payloadTypeFrequency).tdiv 1000)
  let sendTimestampDiff := packet.timestamp - s.lastPacketTimestamp
  let transitTimestampDiff := (receiveTimestampDiff - sendTimestampDiff).abs
  if transitTimestampDiff.toInt < 450000 then
    let jitterDiffQ4 := (transitTimestampDiff <<< 4) - s.jitterQ4
    { s with jitterQ4 := s.jitterQ4 + (jitterDiffQ4 + 8).sshiftRight 4 }
  else s

section Packet

-- `IsRetransmitedPacket` compares times with a standard deviation in floating point.
variable (isRetransmitedPacket : RtpReceiveStreamStatistician → RtpPacketReceived → Int → Bool)

/-- `IsOutOfOrderPacket`, after the check for the second packet of a restarted stream. -/
def isFarOrLate (s : RtpReceiveStreamStatistician) (packet : RtpPacketReceived)
    (unwrappedSeqNum receiveTimeMs : Int) : RtpReceiveStreamStatistician × Bool :=
  if s.maxReorderingThreshold < |unwrappedSeqNum - s.lastReceivedSeqNum| then
    -- counting this packet as received is postponed to the next one
    ({ s with
        receivedSeqOutOfOrder := some packet.sequenceNumber
        cumulativeLoss := int32 (s.cumulativeLoss + 1) }, true)
  else if s.lastReceivedSeqNum < unwrappedSeqNum then (s, false)
  else if s.enableRetransmitDetection && isRetransmitedPacket s packet receiveTimeMs then
    ({ s with retransmitted := s.retransmitted.addPacket packet }, true)
  else (s, true)

/-- `IsOutOfOrderPacket`. -/
def isOutOfOrderPacket (s : RtpReceiveStreamStatistician) (packet : RtpPacketReceived)
    (unwrappedSeqNum receiveTimeMs : Int) : RtpReceiveStreamStatistician × Bool :=
  match s.receivedSeqOutOfOrder with
  | none => isFarOrLate isRetransmitedPacket s packet unwrappedSeqNum receiveTimeMs
  | some outOfOrder =>
    -- the previous packet counts as received now
    let s := { s with
      cumulativeLoss := int32 (s.cumulativeLoss - 1)
      receivedSeqOutOfOrder := none }
    if packet.sequenceNumber = outOfOrder + 1 then
      ({ s with
          lastReceivedSeqNum := unwrappedSeqNum - 2
          lastReportMaxSeqNum := unwrappedSeqNum - 2 }, false)
    else isFarOrLate isRetransmitedPacket s packet unwrappedSeqNum receiveTimeMs

/-- What is noted of every packet, in order or not. -/
def countPacket (s : RtpReceiveStreamStatistician) (packet : RtpPacketReceived) (nowMs : Int) :
    RtpReceiveStreamStatistician :=
  { s with
    lastPacketReceivedTimeMs := some nowMs
    transmitted := s.transmitted.addPacket packet
    cumulativeLoss := int32 (s.cumulativeLoss - 1) }

/-- What an in-order packet does. -/
def acceptInOrder (s : RtpReceiveStreamStatistician) (packet : RtpPacketReceived)
    (unwrappedSeqNum nowMs : Int) : RtpReceiveStreamStatistician :=
  let s := { s with
    cumulativeLoss := int32 (s.cumulativeLoss + (unwrappedSeqNum - s.lastReceivedSeqNum))
    lastReceivedSeqNum := unwrappedSeqNum
    seqUnwrapper := some unwrappedSeqNum }
  let inOrderPackets :=
    BitVec.ofNat 32 s.transmitted.numPackets - BitVec.ofNat 32 s.retransmitted.numPackets
  let s := if packet.timestamp ≠ s.lastPacketTimestamp ∧ 1 < inOrderPackets then
    s.updateJitter packet nowMs
  else s
  { s with
    lastPacketTimestamp := packet.timestamp
    lastReceiveTimeMs := nowMs }

/-- `OnRtpPacket` from the answer of `IsOutOfOrderPacket` on. -/
def unlessOutOfOrder (packet : RtpPacketReceived) (seqNum nowMs : Int) :
    RtpReceiveStreamStatistician × Bool → RtpReceiveStreamStatistician
  | (s, true) => s
  | (s, false) => s.acceptInOrder packet seqNum nowMs

/-- The sequence number of a packet, unwrapped; the unwrapper is not updated. -/
def unwrappedSeqNum (s : RtpReceiveStreamStatistician) (packet : RtpPacketReceived) : Int :=
  s.seqUnwrapper.unwrapped packet.sequenceNumber

/-- `OnRtpPacket`. -/
def onRtpPacket (s : RtpReceiveStreamStatistician) (packet : RtpPacketReceived) (nowMs : Int) :
    RtpReceiveStreamStatistician :=
  let seqNum := s.unwrappedSeqNum packet
  let s := s.countPacket packet nowMs
  if s.hasReceivedRtpPacket = false then
    acceptInOrder { s with
      firstReceivedSeqNum := seqNum
      lastReceivedSeqNum := seqNum - 1
      lastReportMaxSeqNum := seqNum - 1
      firstPacketTimeMs := some nowMs } packet seqNum nowMs
  else
    unlessOutOfOrder packet seqNum nowMs
      (isOutOfOrderPacket isRetransmitedPacket s packet seqNum nowMs)

end Packet

/-! ## The account -/

/-- The part of the state that the loss accounting is about. -/
structure Account where
  threshold : Int
  loss : Int
  first : Int
  last : Int
  unwrapper : NumberUnwrapper
  pending : Option (BitVec 16)
  deriving DecidableEq

/-- The account of a statistician. -/
def account (s : RtpReceiveStreamStatistician) : Account where
  threshold := s.maxReorderingThreshold
  loss := s.cumulativeLoss
  first := s.firstReceivedSeqNum
  last := s.lastReceivedSeqNum
  unwrapper := s.seqUnwrapper
  pending := s.receivedSeqOutOfOrder

/-- One if a packet waits to be counted. -/
def Account.held (a : Account) : Int := if a.pending.isSome then 1 else 0

theorem int32_int32_add (x y : Int) : int32 (int32 x + y) = int32 (x + y) := Int.bmod_add_bmod

theorem int32_int32_sub (x y : Int) : int32 (int32 x - y) = int32 (x - y) := Int.bmod_sub_bmod

theorem int32_int32 (x : Int) : int32 (int32 x) = int32 x := Int.bmod_bmod

theorem int32_of_fits {v : Int} (hlow : -2 ^ 31 ≤ v) (hhigh : v < 2 ^ 31) : int32 v = v :=
  Int.bmod_eq_of_le_mul_two (by omega) (by omega)

theorem account_updateJitter (s : RtpReceiveStreamStatistician) (packet : RtpPacketReceived)
    (nowMs : Int) : (s.updateJitter packet nowMs).account = s.account := by
  unfold updateJitter
  dsimp only
  split_ifs <;> rfl

theorem account_acceptInOrder (s : RtpReceiveStreamStatistician) (packet : RtpPacketReceived)
    (seqNum nowMs : Int) : (s.acceptInOrder packet seqNum nowMs).account =
      { s.account with
        loss := int32 (s.cumulativeLoss + (seqNum - s.lastReceivedSeqNum))
        last := seqNum
        unwrapper := some seqNum } := by
  unfold acceptInOrder
  dsimp only
  split_ifs
  · exact account_updateJitter ..
  · rfl

/-- What a packet can be, from the account before it to the account after it. -/
inductive Arrival (a : Account) (q : BitVec 16) : Account → Prop
  | first (x : Int) (hx : x = a.unwrapper.unwrapped q) (hnone : a.first < 0) :
    Arrival a q { a with loss := int32 a.loss, first := x, last := x, unwrapper := some x }
  | restarted (x : Int) (hx : x = a.unwrapper.unwrapped q) (hsome : 0 ≤ a.first)
      (p : BitVec 16) (hpending : a.pending = some p) (hnext : q = p + 1) :
    Arrival a q { a with loss := int32 a.loss, last := x, unwrapper := some x, pending := none }
  | postponed (x : Int) (hx : x = a.unwrapper.unwrapped q) (hsome : 0 ≤ a.first)
      (hnot : ∀ p, a.pending = some p → q ≠ p + 1) (hfar : a.threshold < |x - a.last|) :
    Arrival a q { a with loss := int32 (a.loss - a.held), pending := some q }
  | inOrder (x : Int) (hx : x = a.unwrapper.unwrapped q) (hsome : 0 ≤ a.first)
      (hnot : ∀ p, a.pending = some p → q ≠ p + 1) (hnear : |x - a.last| ≤ a.threshold)
      (hahead : a.last < x) :
    Arrival a q { a with
      loss := int32 (a.loss - a.held - 1 + (x - a.last))
      last := x
      unwrapper := some x
      pending := none }
  | late (x : Int) (hx : x = a.unwrapper.unwrapped q) (hsome : 0 ≤ a.first)
      (hnot : ∀ p, a.pending = some p → q ≠ p + 1) (hnear : |x - a.last| ≤ a.threshold)
      (hbehind : x ≤ a.last) :
    Arrival a q { a with loss := int32 (a.loss - a.held - 1), pending := none }

section Packet

variable {isRetransmitedPacket : RtpReceiveStreamStatistician → RtpPacketReceived → Int → Bool}
variable {s : RtpReceiveStreamStatistician} {packet : RtpPacketReceived} {nowMs : Int}

theorem isFarOrLate_cases (x : Int) :
    (∃ s', isFarOrLate isRetransmitedPacket s packet x nowMs = (s', true) ∧
      s.maxReorderingThreshold < |x - s.lastReceivedSeqNum| ∧
      s'.account = { s.account with
        loss := int32 (s.cumulativeLoss + 1)
        pending := some packet.sequenceNumber }) ∨
    (isFarOrLate isRetransmitedPacket s packet x nowMs = (s, false) ∧
      |x - s.lastReceivedSeqNum| ≤ s.maxReorderingThreshold ∧ s.lastReceivedSeqNum < x) ∨
    ∃ s', isFarOrLate isRetransmitedPacket s packet x nowMs = (s', true) ∧
      |x - s.lastReceivedSeqNum| ≤ s.maxReorderingThreshold ∧ x ≤ s.lastReceivedSeqNum ∧
      s'.account = s.account := by
  unfold isFarOrLate
  split_ifs with hfar hahead
  · exact .inl ⟨_, rfl, hfar, rfl⟩
  · exact .inr (.inl ⟨rfl, not_lt.mp hfar, hahead⟩)
  · exact .inr (.inr ⟨_, rfl, not_lt.mp hfar, not_lt.mp hahead, rfl⟩)
  · exact .inr (.inr ⟨_, rfl, not_lt.mp hfar, not_lt.mp hahead, rfl⟩)

/-- A packet that is not the second one of a restarted stream, once a packet held back before
it is counted. -/
theorem arrival_farOrLate {a : Account} {x : Int}
    (hx : x = a.unwrapper.unwrapped packet.sequenceNumber)
    (hs : s.account = { a with loss := int32 (a.loss - a.held - 1), pending := none })
    (hsome : 0 ≤ a.first) (hnot : ∀ p, a.pending = some p → packet.sequenceNumber ≠ p + 1) :
    Arrival a packet.sequenceNumber (unlessOutOfOrder packet x nowMs
      (isFarOrLate isRetransmitedPacket s packet x nowMs)).account := by
  have hloss : s.cumulativeLoss = int32 (a.loss - a.held - 1) := congrArg Account.loss hs
  have hlast : s.lastReceivedSeqNum = a.last := congrArg Account.last hs
  have hthreshold : s.maxReorderingThreshold = a.threshold := congrArg Account.threshold hs
  obtain ⟨s', hresult, hfar, haccount⟩ | ⟨hresult, hnear, hahead⟩ |
    ⟨s', hresult, hnear, hbehind, haccount⟩ := @isFarOrLate_cases isRetransmitedPacket s
      packet nowMs x
  · rw [hlast, hthreshold] at hfar
    rw [hloss, int32_int32_add, Int.sub_add_cancel, hs] at haccount
    rw [hresult, unlessOutOfOrder, haccount]
    exact .postponed x hx hsome hnot hfar
  · rw [hlast, hthreshold] at hnear
    rw [hlast] at hahead
    rw [hresult, unlessOutOfOrder, account_acceptInOrder, hloss, hlast, int32_int32_add, hs]
    exact .inOrder x hx hsome hnot hnear hahead
  · rw [hlast, hthreshold] at hnear
    rw [hlast] at hbehind
    rw [hresult, unlessOutOfOrder, haccount, hs]
    exact .late x hx hsome hnot hnear hbehind

theorem hasReceived_iff : s.hasReceivedRtpPacket = false ↔ s.firstReceivedSeqNum < 0 := by
  rw [hasReceivedRtpPacket, decide_eq_false_iff_not, not_le]

theorem onRtpPacket_cases : Arrival s.account packet.sequenceNumber
    (s.onRtpPacket isRetransmitedPacket packet nowMs).account := by
  by_cases hfirst : s.firstReceivedSeqNum < 0
  · have hnone : (s.countPacket packet nowMs).hasReceivedRtpPacket = false :=
      hasReceived_iff.mpr hfirst
    have hloss : ∀ x : Int, int32 (int32 (s.cumulativeLoss - 1) + (x - (x - 1))) =
        int32 s.cumulativeLoss := by
      intro x
      rw [int32_int32_add]
      exact congrArg int32 (by omega)
    rw [onRtpPacket, if_pos hnone, account_acceptInOrder]
    dsimp only [account, countPacket]
    rw [hloss]
    exact .first _ rfl hfirst
  · have hsome : ¬ (s.countPacket packet nowMs).hasReceivedRtpPacket = false :=
      fun h => hfirst (hasReceived_iff.mp h)
    rw [onRtpPacket, if_neg hsome, isOutOfOrderPacket]
    split
    · rename_i hnone
      replace hnone : s.receivedSeqOutOfOrder = none := hnone
      refine arrival_farOrLate rfl ?_ (not_lt.mp hfirst) fun p hp => ?_
      · simp [account, countPacket, Account.held, hnone]
      · exact absurd (hp.symm.trans hnone) (by simp)
    · rename_i p hpending
      replace hpending : s.receivedSeqOutOfOrder = some p := hpending
      have hheld : s.account.held = 1 := if_pos (by simp [account, hpending])
      split_ifs with hnext
      · have hloss : ∀ x : Int, int32 (int32 (int32 (s.cumulativeLoss - 1) - 1) + (x - (x - 2))) =
            int32 s.cumulativeLoss := by
          intro x
          rw [int32_int32_sub, int32_int32_add]
          exact congrArg int32 (by omega)
        rw [unlessOutOfOrder, account_acceptInOrder]
        dsimp only [account, countPacket]
        rw [hloss]
        exact .restarted _ rfl (not_lt.mp hfirst) p hpending hnext
      · refine arrival_farOrLate rfl ?_ (not_lt.mp hfirst) fun p' hp => ?_
        · rw [hheld]
          simp [account, countPacket, int32_int32_sub]
        · obtain rfl : p' = p := Option.some.inj (hp.symm.trans hpending)
          exact hnext

end Packet

/-! ## Runs -/

/-- How far a packet moves the last number: the first one by one, the second one of a
restarted stream by two, any other by the difference it makes. -/
def advance (s : RtpReceiveStreamStatistician) (packet : RtpPacketReceived)
    (s' : RtpReceiveStreamStatistician) : Int :=
  if s.hasReceivedRtpPacket = false then 1
  else if s.receivedSeqOutOfOrder.any fun p => packet.sequenceNumber = p + 1 then 2
  else s'.lastReceivedSeqNum - s.lastReceivedSeqNum

/-- One if a packet waits to be counted. -/
def pendingPackets (s : RtpReceiveStreamStatistician) : Int :=
  if s.receivedSeqOutOfOrder.isSome then 1 else 0

section Run

variable (isRetransmitedPacket : RtpReceiveStreamStatistician → RtpPacketReceived → Int → Bool)

/-- A run of `OnRtpPacket` calls, each with its time; the output is the unwrapped sequence
number. -/
def machine : Machine RtpReceiveStreamStatistician (RtpPacketReceived × Int) Int where
  step s call := (s.onRtpPacket isRetransmitedPacket call.1 call.2, s.unwrappedSeqNum call.1)

/-- The cumulative loss is `v`: in `int32_t` arithmetic, and as an integer if `v` fits. -/
def CountsLoss (s : RtpReceiveStreamStatistician) (v : Int) : Prop :=
  s.cumulativeLoss = int32 v ∧ (-2 ^ 31 ≤ v → v < 2 ^ 31 → s.cumulativeLoss = v)

/-- The sum of the advances along a run. -/
def advances (s : RtpReceiveStreamStatistician) : List (RtpPacketReceived × Int) → Int
  | [] => 0
  | call :: calls =>
    let s' := s.onRtpPacket isRetransmitedPacket call.1 call.2
    s.advance call.1 s' + s'.advances calls

/-- The unwrapped sequence numbers of a run. -/
def unwrappedSeqNums (s : RtpReceiveStreamStatistician) (calls : List (RtpPacketReceived × Int)) :
    List Int :=
  ((machine isRetransmitedPacket).log s calls).map Prod.snd

variable {isRetransmitedPacket} {s : RtpReceiveStreamStatistician}

theorem any_eq_false_of_ne {packet : RtpPacketReceived}
    (hnot : ∀ p, s.receivedSeqOutOfOrder = some p → packet.sequenceNumber ≠ p + 1) :
    (s.receivedSeqOutOfOrder.any fun p => packet.sequenceNumber = p + 1) = false := by
  cases hpending : s.receivedSeqOutOfOrder with
  | none => rfl
  | some p => exact decide_eq_false (hnot p hpending)

theorem advance_eq_sub {s s' : RtpReceiveStreamStatistician} {packet : RtpPacketReceived}
    (hsome : 0 ≤ s.firstReceivedSeqNum)
    (hnot : ∀ p, s.receivedSeqOutOfOrder = some p → packet.sequenceNumber ≠ p + 1) :
    s.advance packet s' = s'.lastReceivedSeqNum - s.lastReceivedSeqNum := by
  rw [advance, if_neg (fun h => not_lt.mpr hsome (hasReceived_iff.mp h)),
    if_neg (by rw [any_eq_false_of_ne hnot]; exact Bool.false_ne_true)]

theorem cumulativeLoss_onRtpPacket (s : RtpReceiveStreamStatistician) (packet : RtpPacketReceived)
    (nowMs : Int) :
    let s' := s.onRtpPacket isRetransmitedPacket packet nowMs
    s'.cumulativeLoss = int32 (s.cumulativeLoss + s.advance packet s' - 1 + s'.pendingPackets -
      s.pendingPackets) := by
  intro s'
  have harrival : Arrival s.account packet.sequenceNumber s'.account := onRtpPacket_cases
  generalize haccount : s'.account = a at harrival
  have hloss : s'.cumulativeLoss = a.loss := congrArg Account.loss haccount
  have hlast : s'.lastReceivedSeqNum = a.last := congrArg Account.last haccount
  have hheld : s'.pendingPackets = a.held := congrArg Account.held haccount
  rw [hloss, hheld]
  cases harrival with
  | first x hx hnone =>
    rw [advance, if_pos (hasReceived_iff.mpr hnone)]
    change int32 s.cumulativeLoss =
      int32 (s.cumulativeLoss + 1 - 1 + s.pendingPackets - s.pendingPackets)
    exact congrArg int32 (by omega)
  | restarted x hx hsome p hp hnext =>
    have hp' : s.receivedSeqOutOfOrder = some p := hp
    have hadvance : s.advance packet s' = 2 := by
      rw [advance, if_neg (fun h => not_lt.mpr hsome (hasReceived_iff.mp h)), hp']
      exact if_pos (decide_eq_true hnext)
    have hone : s.pendingPackets = 1 := by
      rw [pendingPackets, hp']
      rfl
    rw [hadvance, hone]
    change int32 s.cumulativeLoss = int32 (s.cumulativeLoss + 2 - 1 + 0 - 1)
    exact congrArg int32 (by omega)
  | postponed x hx hsome hnot hfar =>
    rw [advance_eq_sub hsome hnot, hlast]
    change int32 (s.cumulativeLoss - s.pendingPackets) = int32 (s.cumulativeLoss +
      (s.lastReceivedSeqNum - s.lastReceivedSeqNum) - 1 + 1 - s.pendingPackets)
    exact congrArg int32 (by omega)
  | inOrder x hx hsome hnot hnear hahead =>
    rw [advance_eq_sub hsome hnot, hlast]
    change int32 (s.cumulativeLoss - s.pendingPackets - 1 + (x - s.lastReceivedSeqNum)) =
      int32 (s.cumulativeLoss + (x - s.lastReceivedSeqNum) - 1 + 0 - s.pendingPackets)
    exact congrArg int32 (by omega)
  | late x hx hsome hnot hnear hbehind =>
    rw [advance_eq_sub hsome hnot, hlast]
    change int32 (s.cumulativeLoss - s.pendingPackets - 1) = int32 (s.cumulativeLoss +
      (s.lastReceivedSeqNum - s.lastReceivedSeqNum) - 1 + 0 - s.pendingPackets)
    exact congrArg int32 (by omega)

theorem cumulativeLoss_final (s : RtpReceiveStreamStatistician)
    (calls : List (RtpPacketReceived × Int)) (hs : s.cumulativeLoss = int32 s.cumulativeLoss) :
    let s' := (machine isRetransmitedPacket).final s calls
    s'.cumulativeLoss = int32 (s.cumulativeLoss + s.advances isRetransmitedPacket calls -
      calls.length + s'.pendingPackets - s.pendingPackets) := by
  induction calls generalizing s with
  | nil =>
    change s.cumulativeLoss =
      int32 (s.cumulativeLoss + 0 - (0 : Nat) + s.pendingPackets - s.pendingPackets)
    rw [hs]
    exact congrArg int32 (by omega)
  | cons call calls ih =>
    have hstep : (s.onRtpPacket isRetransmitedPacket call.1 call.2).cumulativeLoss = _ :=
      cumulativeLoss_onRtpPacket s call.1 call.2
    have hrest := ih (s.onRtpPacket isRetransmitedPacket call.1 call.2)
      (by rw [hstep, int32_int32])
    have hregroup : ∀ c a n p q : Int, c + a - n + p - q = c + (a - n + p - q) :=
      fun c a n p q => by omega
    rw [Machine.final_cons, advances, List.length_cons]
    dsimp only [machine] at hrest ⊢
    rw [hrest, hregroup, hstep, int32_int32_add]
    exact congrArg int32 (by omega)

/-- Every number is within `threshold` of the highest one before it. -/
def Steady (threshold : Int) (numbers : List Int) : Prop :=
  ∀ before x after, numbers = before ++ x :: after → ∀ y, before.max? = some y → |x - y| ≤ threshold

variable {numbers : List Int}

variable {threshold : Int}

theorem steady_concat {x : Int} :
    Steady threshold (numbers ++ [x]) ↔
      Steady threshold numbers ∧ ∀ y, numbers.max? = some y → |x - y| ≤ threshold := by
  constructor
  · intro h
    refine ⟨fun before z after heq => h before z (after ++ [x]) (by simp [heq]), ?_⟩
    exact h numbers x [] rfl
  · rintro ⟨hnumbers, hx⟩ before z after heq
    rcases List.eq_nil_or_concat after with rfl | ⟨after, w, rfl⟩
    · obtain ⟨rfl, hz⟩ := List.append_inj' heq rfl
      obtain rfl : x = z := by simpa using hz
      exact hx
    · rw [List.concat_eq_append, ← List.cons_append, ← List.append_assoc] at heq
      exact hnumbers before z after (List.append_inj' heq rfl).1

theorem max?_concat {x y : Int} (hmax : numbers.max? = some y) :
    (numbers ++ [x]).max? = some (max y x) := by
  rw [List.max?_eq_some_iff] at hmax ⊢
  obtain ⟨hmem, hle⟩ := hmax
  refine ⟨?_, ?_⟩
  · rcases max_choice y x with h | h
    · rw [h]
      exact List.mem_append_left _ hmem
    · rw [h]
      exact List.mem_append_right _ (List.mem_singleton_self x)
  · intro b hb
    rcases List.mem_append.mp hb with hb | hb
    · exact le_trans (hle b hb) (le_max_left y x)
    · rw [List.mem_singleton.mp hb]
      exact le_max_right y x

/-- The account of a stream without jumps. -/
structure Unbroken (threshold : Int) (numbers : List Int) (s : RtpReceiveStreamStatistician) :
    Prop where
  threshold_eq : s.maxReorderingThreshold = threshold
  pending_eq : s.receivedSeqOutOfOrder = none
  first_nonneg : 0 ≤ s.firstReceivedSeqNum
  highest : numbers.max? = some s.lastReceivedSeqNum
  loss_eq : s.cumulativeLoss =
    int32 (s.lastReceivedSeqNum - s.firstReceivedSeqNum + 1 - numbers.length)

theorem Unbroken.of_account {a : Account} (hs : s.account = a)
    (hthreshold : a.threshold = threshold) (hpending : a.pending = none) (hfirst : 0 ≤ a.first)
    (hhighest : numbers.max? = some a.last)
    (hloss : a.loss = int32 (a.last - a.first + 1 - numbers.length)) :
    Unbroken threshold numbers s := by
  subst hs
  exact ⟨hthreshold, hpending, hfirst, hhighest, hloss⟩

theorem unbroken_first (threshold : Int) (enableRetransmitDetection : Bool)
    (packet : RtpPacketReceived) (nowMs : Int) :
    let s := create threshold enableRetransmitDetection
    Unbroken threshold [s.unwrappedSeqNum packet]
      (s.onRtpPacket isRetransmitedPacket packet nowMs) := by
  intro s
  have harrival : Arrival s.account packet.sequenceNumber
    (s.onRtpPacket isRetransmitedPacket packet nowMs).account := onRtpPacket_cases
  generalize haccount : (s.onRtpPacket isRetransmitedPacket packet nowMs).account = a at harrival
  have hnone : s.account.first < 0 := (by decide : (-1 : Int) < 0)
  cases harrival with
  | first x hx hnone =>
    refine .of_account haccount rfl rfl ?_ ?_ ?_
    · rw [hx]
      exact Int.natCast_nonneg _
    · rw [hx]
      rfl
    · change int32 0 = int32 (x - x + 1 - (1 : Nat))
      exact congrArg int32 (by omega)
  | restarted x hx hsome => exact absurd hnone (not_lt.mpr hsome)
  | postponed x hx hsome => exact absurd hnone (not_lt.mpr hsome)
  | inOrder x hx hsome => exact absurd hnone (not_lt.mpr hsome)
  | late x hx hsome => exact absurd hnone (not_lt.mpr hsome)

theorem Unbroken.step
    (h : Unbroken threshold numbers s) (packet : RtpPacketReceived) (nowMs : Int)
    (hnear : ∀ y, numbers.max? = some y → |s.unwrappedSeqNum packet - y| ≤ threshold) :
    Unbroken threshold (numbers ++ [s.unwrappedSeqNum packet])
      (s.onRtpPacket isRetransmitedPacket packet nowMs) := by
  have harrival : Arrival s.account packet.sequenceNumber
    (s.onRtpPacket isRetransmitedPacket packet nowMs).account := onRtpPacket_cases
  generalize haccount : (s.onRtpPacket isRetransmitedPacket packet nowMs).account = a at harrival
  have hwithin := hnear _ h.highest
  have hmax : (numbers ++ [s.unwrappedSeqNum packet]).max? =
    some (max s.lastReceivedSeqNum (s.unwrappedSeqNum packet)) := max?_concat h.highest
  have hloss : s.account.loss - s.account.held - 1 = int32 (s.lastReceivedSeqNum -
      s.firstReceivedSeqNum + 1 - numbers.length) - 1 := by
    have hheld : s.account.held = 0 := if_neg (by
      rw [show s.account.pending = none from h.pending_eq]
      decide)
    rw [hheld, Int.sub_zero, show s.account.loss = _ from h.loss_eq]
  have hlength : ((numbers ++ [s.unwrappedSeqNum packet]).length : Int) = numbers.length + 1 := by
    simp
  cases harrival with
  | first x hx hnone => exact absurd hnone (not_lt.mpr h.first_nonneg)
  | restarted x hx hsome p hp =>
    exact absurd (hp.symm.trans h.pending_eq) (by simp)
  | postponed x hx hsome hnot hfar =>
    rw [hx] at hfar
    exact absurd (lt_of_lt_of_le hfar hwithin) (not_lt.mpr (le_of_eq h.threshold_eq.symm))
  | inOrder x hx hsome hnot hnear hahead =>
    refine .of_account haccount h.threshold_eq rfl h.first_nonneg ?_ ?_
    · rw [hmax]
      replace hx : x = s.unwrappedSeqNum packet := hx
      exact congrArg some (by rw [← hx]; exact max_eq_right (le_of_lt hahead))
    · change int32 (s.account.loss - s.account.held - 1 + (x - s.lastReceivedSeqNum)) =
        int32 (x - s.firstReceivedSeqNum + 1 - _)
      rw [hloss, hlength, Int.sub_eq_add_neg, Int.add_assoc, int32_int32_add]
      exact congrArg int32 (by omega)
  | late x hx hsome hnot hnear hbehind =>
    refine .of_account haccount h.threshold_eq rfl h.first_nonneg ?_ ?_
    · rw [hmax]
      replace hx : x = s.unwrappedSeqNum packet := hx
      exact congrArg some (by rw [← hx]; exact max_eq_left hbehind)
    · change int32 (s.account.loss - s.account.held - 1) =
        int32 (s.lastReceivedSeqNum - s.firstReceivedSeqNum + 1 - _)
      rw [hloss, hlength, int32_int32_sub]
      exact congrArg int32 (by omega)

theorem unwrappedSeqNums_concat (s : RtpReceiveStreamStatistician)
    (calls : List (RtpPacketReceived × Int)) (call : RtpPacketReceived × Int) :
    s.unwrappedSeqNums isRetransmitedPacket (calls ++ [call]) =
      s.unwrappedSeqNums isRetransmitedPacket calls ++
        [((machine isRetransmitedPacket).final s calls).unwrappedSeqNum call.1] := by
  rw [unwrappedSeqNums, unwrappedSeqNums, Machine.log_append, List.map_append]
  rfl

theorem unbroken_final (threshold : Int) (enableRetransmitDetection : Bool)
    {calls : List (RtpPacketReceived × Int)} (hne : calls ≠ []) :
    let s := create threshold enableRetransmitDetection
    Steady threshold (s.unwrappedSeqNums isRetransmitedPacket calls) →
      Unbroken threshold (s.unwrappedSeqNums isRetransmitedPacket calls)
        ((machine isRetransmitedPacket).final s calls) := by
  intro s
  induction calls using List.reverseRecOn with
  | nil => exact absurd rfl hne
  | append_singleton calls call ih =>
    intro hsteady
    rw [unwrappedSeqNums_concat] at hsteady ⊢
    obtain ⟨hbefore, hnear⟩ := steady_concat.mp hsteady
    rw [Machine.final_append]
    by_cases hcalls : calls = []
    · subst hcalls
      exact @unbroken_first isRetransmitedPacket threshold enableRetransmitDetection call.1 call.2
    · exact (ih hcalls hbefore).step call.1 call.2 hnear

theorem countsLoss_of_eq {v : Int} (h : s.cumulativeLoss = int32 v) : s.CountsLoss v :=
  ⟨h, fun hlow hhigh => h.trans (int32_of_fits hlow hhigh)⟩

/-- **Loss accounting.**  After any packets the cumulative loss is what the in-order packets
moved past, a restart counting two, less the packets received, one of which may be held back.
While every number is within the threshold of the highest one, nothing is ever held back, the
last number is the highest one, and the loss is the length of the range less the packets
received. -/
theorem loss_accounting (threshold : Int) (enableRetransmitDetection : Bool)
    (calls : List (RtpPacketReceived × Int)) :
    let s := create threshold enableRetransmitDetection
    let s' := (machine isRetransmitedPacket).final s calls
    s'.CountsLoss (s.advances isRetransmitedPacket calls - calls.length + s'.pendingPackets) ∧
    (calls ≠ [] → Steady threshold (s.unwrappedSeqNums isRetransmitedPacket calls) →
      s'.receivedSeqOutOfOrder = none ∧
      (s.unwrappedSeqNums isRetransmitedPacket calls).max? = some s'.lastReceivedSeqNum ∧
      s'.CountsLoss ((s'.lastReceivedSeqNum - s'.firstReceivedSeqNum + 1) - calls.length)) := by
  intro s s'
  refine ⟨countsLoss_of_eq ?_, fun hne hsteady => ?_⟩
  · have hbalance : s'.cumulativeLoss = _ := cumulativeLoss_final s calls rfl
    rw [hbalance]
    change int32 (0 + _ - _ + s'.pendingPackets - 0) = _
    exact congrArg int32 (by omega)
  · have hrun := unbroken_final threshold enableRetransmitDetection hne hsteady
    have hlength : (s.unwrappedSeqNums isRetransmitedPacket calls).length = calls.length := by
      rw [unwrappedSeqNums, List.length_map, ← Machine.log_map_fst (machine isRetransmitedPacket)
        s calls, List.length_map, Machine.log_map_fst]
    exact ⟨hrun.pending_eq, hrun.highest, countsLoss_of_eq (hlength ▸ hrun.loss_eq)⟩

end Run

/-- A packet as far as its number goes. -/
def numbered (sequenceNumber : BitVec 16) : RtpPacketReceived × Int :=
  (⟨sequenceNumber, 0, 90000, 12, 100, 0⟩, 1)

/-- Over the wrap of the sequence numbers, with one packet late and one lost. -/
theorem loss_accounting_wrap :
    let s' := (machine fun _ _ _ => false).final (create 5 false)
      ([0xfffd, 0, 0xfffe, 1].map numbered)
    s'.CountsLoss ((s'.lastReceivedSeqNum - s'.firstReceivedSeqNum + 1) - 4) ∧
      s'.lastReceivedSeqNum - s'.firstReceivedSeqNum = 4 := by
  have hnumbers : (create 5 false).unwrappedSeqNums (fun _ _ _ => false)
      ([0xfffd, 0, 0xfffe, 1].map numbered) = [65533, 65536, 65534, 65537] := by
    decide +kernel
  have hsteady : Steady 5 ([] ++ [65533] ++ [65536] ++ [65534] ++ [65537]) := by
    simp only [steady_concat]
    refine ⟨⟨⟨⟨?_, ?_⟩, ?_⟩, ?_⟩, ?_⟩
    · intro before x after heq
      cases before <;> cases heq
    all_goals
      intro y hy
      cases hy <;> decide
  refine ⟨?_, by decide +kernel⟩
  exact ((loss_accounting 5 false _).2 (by decide) (by rw [hnumbers]; exact hsteady)).2.2

end RtpReceiveStreamStatistician

end NaiveRtc
