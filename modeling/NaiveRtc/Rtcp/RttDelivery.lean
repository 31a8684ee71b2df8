import NaiveRtc.Rtcp.ReportReceiver

/-!
# Whether round trip times are delivered

Two comparisons in `RtcpReceiver` are the wrong way round: `RttPeriodicUpdate` looks for a report
block that is newer than the future, and `HandleXrDlrrBlock` returns when there is something to
handle.  Nothing is ever reported.

* `Heard` — when a report block came last, and the round trip time that is due; told from what
  was received only.
* `Silent`, `silent_step` — the invariant.
* `delivers_iff` — the runs in which every update reports what it should.
-/

namespace NaiveRtc.Rtcp.ReportReceiver

open RtcpSender (compactNtp)

variable (toNtp : Int → NtpTime)

/-! ## Runs -/

/-- What happens to a receiver. -/
inductive Event
  | incomingRtcpPacket (packet : List UInt8)
  | setRemoteSsrc (remoteSsrc : U32)
  | rtcpRrTimeout
  | rtcpRrSequenceNumberTimeout
  | rttPeriodicUpdate

/-- A receiver, and the time of its clock in microseconds. -/
structure Session where
  now : Int
  receiver : ReportReceiver

/-- One event, a time after the one before. -/
def receiverMachine : Machine Session (Nat × Event) (List ObserverCall) where
  step s input :=
    let now := s.now + input.1
    match input.2 with
    | .incomingRtcpPacket packet =>
      let (r, calls) := s.receiver.incomingRtcpPacket toNtp now packet
      (⟨now, r⟩, calls)
    | .setRemoteSsrc remoteSsrc => (⟨now, s.receiver.setRemoteSsrc remoteSsrc⟩, [])
    | .rtcpRrTimeout => (⟨now, (s.receiver.rtcpRrTimeout now).2⟩, [])
    | .rtcpRrSequenceNumberTimeout =>
      (⟨now, (s.receiver.rtcpRrSequenceNumberTimeout now).2⟩, [])
    | .rttPeriodicUpdate =>
      let (r, calls) := s.receiver.rttPeriodicUpdate now
      (⟨now, r⟩, calls)

/-! ## What was received -/

/-- When a report block for one of the SSRCs was received last, and the round trip time in
milliseconds that the next update of a receiver without a sender is to report. -/
structure Heard where
  lastBlock : Option Int
  due : Option Int

/-- The time infos that are for one of the SSRCs and say something; the last one counts. -/
def dueOf (r : ReportReceiver) (now : Int) (timeInfos : List TimeInfo) : Option Int :=
  ((timeInfos.filter fun timeInfo =>
    r.isRegisteredSsrc timeInfo.ssrc && timeInfo.lastRr != 0).getLast?).map fun timeInfo =>
      compactNtpRttToMs (compactNtp (toNtp now) - timeInfo.delaySinceLastRr - timeInfo.lastRr)

/-- A time is noted when one of the blocks is for one of the SSRCs. -/
def Heard.noteBlocks (heard : Heard) (r : ReportReceiver) (now : Int) (blocks : List ReportBlock) :
    Heard :=
  { heard with
    lastBlock := if blocks.any fun block => r.isRegisteredSsrc block.sourceSsrc then some now
      else heard.lastBlock }

/-- What a block adds.  A sender that leaves takes the time that is due with it. -/
def Heard.note (r : ReportReceiver) (now : Int) (heard : Heard) : RtcpBlock → Heard
  | .senderReport packet => heard.noteBlocks r now packet.reportBlocks
  | .receiverReport packet => heard.noteBlocks r now packet.reportBlocks
  | .extendedReports packet =>
    { heard with due := (dueOf toNtp r now packet.dlrrBlock.timeInfos).or heard.due }
  | .bye _ => { heard with due := none }
  | _ => heard

/-- The record, event by event. -/
def heed (s : Session) (heard : Heard) (input : Nat × Event) : Heard :=
  match input.2 with
  | .incomingRtcpPacket packet =>
    (packetBlocks packet).foldl (Heard.note toNtp s.receiver (s.now + input.1)) heard
  | .rttPeriodicUpdate => { heard with due := none }
  | _ => heard

/-- A report block came within the last interval. -/
def Heard.Recent (heard : Heard) (now : Int) : Prop :=
  ∃ time, heard.lastBlock = some time ∧
    (UnitValue.micros now).lt ((UnitValue.micros time).add kRttUpdateInterval) = true

/-- The largest of the last round trip times is reported, if there is one. -/
def ReportsMax (rtts : List (U32 × RttStats)) (calls : List ObserverCall) : Prop :=
  (rtts = [] ∧ calls = []) ∨
    ∃ entry ∈ rtts, calls = [.onRttUpdated entry.2.lastRtt] ∧
      ∀ other ∈ rtts, entry.2.lastRtt.lt other.2.lastRtt = false

/-- What an update is to report: for a sender the largest of the last round trip times exactly when
a report block came within the last interval, and otherwise the time that is due. -/
def Delivers (s : Session × Heard) (input : Nat × Event) : Prop :=
  input.2 = .rttPeriodicUpdate →
    if s.1.receiver.receiverOnly then
      ∀ rttMs, s.2.due = some rttMs →
        ((receiverMachine toNtp).step s.1 input).2 = [.onRttUpdated (millis rttMs)]
    else
      (s.2.Recent (s.1.now + input.1) →
        ReportsMax s.1.receiver.rtts ((receiverMachine toNtp).step s.1 input).2) ∧
      (¬ s.2.Recent (s.1.now + input.1) → ((receiverMachine toNtp).step s.1 input).2 = [])

/-- At an update there is nothing to report: for a sender no report block came within the last
interval, or there is no round trip time; otherwise no time is due. -/
def NothingDue (s : Session × Heard) (input : Nat × Event) : Prop :=
  input.2 = .rttPeriodicUpdate →
    if s.1.receiver.receiverOnly then s.2.due = none
    else s.2.Recent (s.1.now + input.1) → s.1.receiver.rtts = []

/-! ## The invariant -/

/-- No round trip time was taken from a time info, and no report block came in the future. -/
structure Silent (r : ReportReceiver) (now : Int) : Prop where
  xrRrRttMs : r.xrRrRttMs = 0
  lastTime : ∀ time, r.lastTimeReceivedRb = .micros time → time ≤ now

variable {toNtp} {r : ReportReceiver} {now : Int}

theorem Silent.create (config : Config) (now : Int) : Silent (create config) now :=
  ⟨rfl, fun _ h => by cases h⟩

theorem Silent.mono (h : Silent r now) {later : Int} (hle : now ≤ later) : Silent r later :=
  ⟨h.xrRrRttMs, fun time htime => le_trans (h.lastTime time htime) hle⟩

variable {info : PacketInfo}

theorem Silent.handleReportBlock (h : Silent r now) (remoteSsrc : U32) (reportBlock : ReportBlock) :
    Silent (handleReportBlock toNtp now remoteSsrc (r, info) reportBlock).1 now := by
  have hnow : ∀ time, UnitValue.micros now = .micros time → time ≤ now := by
    rintro time ⟨⟩
    exact le_refl _
  unfold ReportReceiver.handleReportBlock
  dsimp only
  by_cases hregistered : r.isRegisteredSsrc reportBlock.sourceSsrc = false
  · rw [if_pos hregistered]
    exact h
  · rw [if_neg hregistered]
    by_cases hsent : reportBlock.lastSrNtpTimestamp ≠ 0
    · rw [if_pos hsent]
      exact ⟨h.xrRrRttMs, hnow⟩
    · rw [if_neg hsent]
      exact ⟨h.xrRrRttMs, hnow⟩

theorem Silent.foldl_handleReportBlock (h : Silent r now) (remoteSsrc : U32)
    (reportBlocks : List ReportBlock) :
    Silent (reportBlocks.foldl (ReportReceiver.handleReportBlock toNtp now remoteSsrc) (r, info)).1
      now := by
  induction reportBlocks generalizing r info with
  | nil => exact h
  | cons reportBlock reportBlocks ih => exact ih (h.handleReportBlock remoteSsrc reportBlock)

theorem handleXrDlrrBlock_eq (r : ReportReceiver) (dlrr : Dlrr) :
    handleXrDlrrBlock toNtp now r dlrr = r := by
  unfold handleXrDlrrBlock
  split_ifs with hsize
  · rfl
  · rw [List.length_eq_zero_iff.1 (not_not.1 hsize)]
    rfl

theorem Silent.handleBlock (h : Silent r now) (block : RtcpBlock) :
    Silent (handleBlock toNtp now (r, info) block).1 now := by
  cases block with
  | senderReport packet => exact h.foldl_handleReportBlock packet.senderSsrc packet.reportBlocks
  | receiverReport packet => exact h.foldl_handleReportBlock packet.senderSsrc packet.reportBlocks
  | bye packet => exact ⟨rfl, h.lastTime⟩
  | extendedReports packet =>
    show Silent (handleXrDlrrBlock toNtp now r packet.dlrrBlock) now
    rw [handleXrDlrrBlock_eq]
    exact h
  | _ => exact h

theorem Silent.handleBlocks (h : Silent r now) (blocks : List RtcpBlock) :
    Silent (handleBlocks toNtp now r blocks).1 now := by
  have hfold : ∀ state : ReportReceiver × PacketInfo, Silent state.1 now →
      Silent (blocks.foldl (ReportReceiver.handleBlock toNtp now) state).1 now := by
    induction blocks with
    | nil => exact fun _ hstate => hstate
    | cons block blocks ih => exact fun state hstate => ih _ (hstate.handleBlock block)
  exact hfold (r, .fresh) h

theorem Silent.rtcpRrTimeout (h : Silent r now) (later : Int) :
    Silent (r.rtcpRrTimeout later).2 now := by
  refine ⟨h.xrRrRttMs, fun time htime => ?_⟩
  change (resetTimestampIfExpired later r.lastTimeReceivedRb r.reportInterval).2 = .micros time
    at htime
  cases hlast : r.lastTimeReceivedRb with
  | minusInfinity =>
    rw [hlast] at htime
    cases htime
  | plusInfinity =>
    rw [hlast] at htime
    cases htime
  | micros last =>
    rw [hlast] at htime
    unfold resetTimestampIfExpired at htime
    dsimp only at htime
    split_ifs at htime
    exact h.lastTime time (hlast.trans htime)

theorem Silent.rtcpRrSequenceNumberTimeout (h : Silent r now) (later : Int) :
    Silent (r.rtcpRrSequenceNumberTimeout later).2 now :=
  ⟨h.xrRrRttMs, h.lastTime⟩

/-- **An update reports nothing**: nothing comes from the future, and nothing was taken from a
time info. -/
theorem Silent.rttPeriodicUpdate (h : Silent r now) :
    (r.rttPeriodicUpdate now).2 = [] ∧ Silent (r.rttPeriodicUpdate now).1 now := by
  unfold ReportReceiver.rttPeriodicUpdate
  by_cases honly : r.receiverOnly = false
  · have hfuture : (r.lastTimeReceivedRb.isFinite &&
        (UnitValue.add (.micros now) kRttUpdateInterval).lt r.lastTimeReceivedRb) = false := by
      cases hlast : r.lastTimeReceivedRb with
      | minusInfinity => rfl
      | plusInfinity => rfl
      | micros time =>
        have hle := h.lastTime time hlast
        have hlt : ¬ now + 1000 * 1000 < time := by omega
        exact decide_eq_false hlt
    rw [if_pos honly]
    dsimp only
    rw [hfuture]
    refine ⟨rfl, ?_⟩
    show Silent (if (r.rtcpRrTimeout now).1 = true then (r.rtcpRrTimeout now).2
      else ((r.rtcpRrTimeout now).2.rtcpRrSequenceNumberTimeout now).2) now
    split_ifs
    · exact h.rtcpRrTimeout now
    · exact (h.rtcpRrTimeout now).rtcpRrSequenceNumberTimeout now
  · have hnone : r.getLatestXrRrRtt = none := by
      rw [getLatestXrRrRtt, h.xrRrRttMs]
      rfl
    rw [if_neg honly, hnone]
    exact ⟨rfl, rfl, h.lastTime⟩

theorem silent_step {s : Session} (h : Silent s.receiver s.now) (input : Nat × Event) :
    Silent ((receiverMachine toNtp).step s input).1.receiver
      ((receiverMachine toNtp).step s input).1.now := by
  obtain ⟨elapsed, event⟩ := input
  have hlater : Silent s.receiver (s.now + elapsed) := h.mono (by omega)
  cases event with
  | incomingRtcpPacket packet =>
    show Silent (s.receiver.incomingRtcpPacket toNtp (s.now + elapsed) packet).1 (s.now + elapsed)
    rw [incomingRtcpPacket_eq]
    exact hlater.handleBlocks _
  | setRemoteSsrc remoteSsrc => exact ⟨hlater.xrRrRttMs, hlater.lastTime⟩
  | rtcpRrTimeout => exact hlater.rtcpRrTimeout _
  | rtcpRrSequenceNumberTimeout => exact hlater.rtcpRrSequenceNumberTimeout _
  | rttPeriodicUpdate => exact hlater.rttPeriodicUpdate.2

/-! ## Delivery -/

theorem delivers_iff_nothingDue {s : Session × Heard} (h : Silent s.1.receiver s.1.now)
    (input : Nat × Event) : Delivers toNtp s input ↔ NothingDue s input := by
  obtain ⟨elapsed, event⟩ := input
  refine forall_congr' fun hupdate => ?_
  obtain rfl : event = .rttPeriodicUpdate := hupdate
  have hnothing : ((receiverMachine toNtp).step s.1 (elapsed, .rttPeriodicUpdate)).2 = [] :=
    ((h.mono (by omega : s.1.now ≤ s.1.now + elapsed)).rttPeriodicUpdate).1
  rw [hnothing]
  cases s.1.receiver.receiverOnly with
  | true =>
    simp only [if_true]
    constructor
    · intro hdue
      refine Option.eq_none_iff_forall_ne_some.2 fun rttMs hsome => ?_
      exact absurd (hdue rttMs hsome) (List.cons_ne_nil _ _).symm
    · intro hnone rttMs hsome
      rw [hnone] at hsome
      cases hsome
  | false =>
    simp only [Bool.false_eq_true, if_false, implies_true, and_true]
    refine imp_congr_right fun _ => ?_
    constructor
    · rintro (⟨hempty, -⟩ | ⟨entry, -, hcalls, -⟩)
      · exact hempty
      · exact absurd hcalls (List.cons_ne_nil _ _).symm
    · exact fun hempty => Or.inl ⟨hempty, rfl⟩

/-- **Round trip times are never delivered.**  In a run of a receiver, of a sender or not, every
update reports what it should exactly when none has anything to report: a sender with a round trip
time has had no report block within the last interval, and a receiver without one has had no time
info for it since the update before. -/
theorem delivers_iff (toNtp : Int → NtpTime) (config : Config) (now : Int)
    (inputs : List (Nat × Event)) :
    ((receiverMachine toNtp).alongside (heed toNtp)).AllGood (Delivers toNtp)
        (⟨now, create config⟩, ⟨none, none⟩) inputs ↔
      ((receiverMachine toNtp).alongside (heed toNtp)).AllGood NothingDue
        (⟨now, create config⟩, ⟨none, none⟩) inputs := by
  refine Machine.allGood_iff_of_invariant _ (I := fun s => Silent s.1.receiver s.1.now) ?_ ?_
    (Silent.create config now) inputs
  · exact fun s input hs _ => silent_step hs input
  · exact fun s input hs => delivers_iff_nothingDue hs input

/-- A receiver report with a block for the SSRC 1. -/
def reportAboutOne : List UInt8 :=
  [0x81, 201, 0, 7, 0, 0, 0, 9, 0, 0, 0, 1, 0, 0, 0, 0, 0, 0, 0, 5, 0, 0, 0, 0, 0, 0, 0, 1,
    0, 0, 0, 0]

theorem packetBlocks_reportAboutOne : packetBlocks reportAboutOne =
    [.receiverReport ⟨9, [⟨1, 0, 0, 5, 0, 1, 0⟩], by decide⟩] := by
  have hheader : (BlockHeader.parse 0 reportAboutOne.length).value
      (fun address => reportAboutOne.getD address 0) =
        some ⟨201, 1, 0, 28, by decide, by decide⟩ := by decide +kernel
  have hreport : (ReceiverReport.parse
      (⟨201, 1, 0, 28, by decide, by decide⟩ : BlockHeader 0)).value
        (fun address => reportAboutOne.getD address 0) =
          some ⟨9, [⟨1, 0, 0, 5, 0, 1, 0⟩], by decide⟩ := by decide +kernel
  refine packetBlocks_single hheader rfl ?_
  rw [parseBlock, if_neg (by decide), if_pos (by decide), parseAs, Reading.value_bind, hreport]
  rfl

/-- An extended report with a time info for the SSRC 1. -/
def timeInfoForOne : List UInt8 :=
  [0x80, 207, 0, 5, 0, 0, 0, 9, 5, 0, 0, 3, 0, 0, 0, 1, 0, 0, 0, 1, 0, 0, 0, 0]

theorem packetBlocks_timeInfoForOne : packetBlocks timeInfoForOne =
    [.extendedReports ⟨9, none, ⟨[⟨1, 1, 0⟩]⟩, none⟩] := by
  have hheader : (BlockHeader.parse 0 timeInfoForOne.length).value
      (fun address => timeInfoForOne.getD address 0) =
        some ⟨207, 0, 0, 20, by decide, by decide⟩ := by decide +kernel
  have hreports : (ExtendedReports.parse
      (⟨207, 0, 0, 20, by decide, by decide⟩ : BlockHeader 0)).value
        (fun address => timeInfoForOne.getD address 0) =
          some ⟨9, none, ⟨[⟨1, 1, 0⟩]⟩, none⟩ := by decide +kernel
  refine packetBlocks_single hheader rfl ?_
  rw [parseBlock, if_neg (by decide), if_neg (by decide), if_neg (by decide), if_neg (by decide),
    if_pos (by decide), parseAs, Reading.value_bind, hreports]
  rfl

/-- **Nothing is reported** a tenth of a second after a report block, nor after a time info. -/
theorem not_delivers_aboutOne :
    let toNtp : Int → NtpTime := fun _ => ⟨0x300000000⟩
    ¬ ((receiverMachine toNtp).alongside (heed toNtp)).AllGood (Delivers toNtp)
        (⟨0, create ⟨false, false, 0, 1, none, none⟩⟩, ⟨none, none⟩)
        [(0, .incomingRtcpPacket reportAboutOne), (100000, .rttPeriodicUpdate)] ∧
      ¬ ((receiverMachine toNtp).alongside (heed toNtp)).AllGood (Delivers toNtp)
        (⟨0, create ⟨true, false, 0, 1, none, none⟩⟩, ⟨none, none⟩)
        [(0, .incomingRtcpPacket timeInfoForOne), (100000, .rttPeriodicUpdate)] := by
  intro toNtp
  constructor
  · rintro ⟨-, hupdate, -⟩
    have hnothing := (delivers_iff_nothingDue (silent_step (Silent.create _ 0) _) _).1 hupdate rfl
    simp only [Machine.alongside, receiverMachine, heed, incomingRtcpPacket_eq,
      packetBlocks_reportAboutOne] at hnothing
    exact absurd (hnothing ⟨0, rfl, by decide⟩) (by decide)
  · rintro ⟨-, hupdate, -⟩
    have hnothing := (delivers_iff_nothingDue (silent_step (Silent.create _ 0) _) _).1 hupdate rfl
    simp only [Machine.alongside, receiverMachine, heed, incomingRtcpPacket_eq,
      packetBlocks_timeInfoForOne, handleBlocks, List.foldl_cons, List.foldl_nil, handleBlock,
      handleXrDlrrBlock_eq, create, if_true] at hnothing
    exact absurd hnothing (by decide)

end NaiveRtc.Rtcp.ReportReceiver
