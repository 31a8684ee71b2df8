import NaiveRtc.Components.StreamReports
import NaiveRtc.Lib.RoundRobin

/-!
# Sharing report blocks

`rtc/rtp_rtcp/components/rtp_receive_statistics.cpp`: the statisticians of all streams, and the
report blocks that they share when there is only room for some.

* `RtpReceiveStatistics`, `getRtcpReportBlocks` — the streams and the loop over them.
* `order` — the streams in the order in which they have their turn.
* `getRtcpReportBlocks_eq` — **a call is a turn of a round robin** over that order.
* `shares_fairly` — enough calls in a row report every active stream.
-/

namespace NaiveRtc

open RoundRobin

/-- `RtpReceiveStatistics`. -/
structure RtpReceiveStatistics where
  lastReturnedSsrcIdx : Nat
  maxReorderingThreshold : Int
  ssrcs : List (BitVec 32)
  statisticians : BitVec 32 → Option ReportingStatistician

namespace RtpReceiveStatistics

/-- `kDefaultMaxReorderingThreshold`. -/
def kDefaultMaxReorderingThreshold : Int := 5

/-- The constructor. -/
def create : RtpReceiveStatistics := ⟨0, kDefaultMaxReorderingThreshold, [], fun _ => none⟩

/-! ## Report blocks -/

/-- What the loop of `GetRtcpReportBlocks` changes. -/
structure Round where
  ssrcIdx : Nat
  statisticians : BitVec 32 → Option ReportingStatistician
  reportBlocks : List Rtcp.ReportBlock

/-- The body of the loop. -/
def reportRound (s : RtpReceiveStatistics) (nowMs : Int) (round : Round) (i : Nat) : Round :=
  let ssrcIdx := (s.lastReturnedSsrcIdx + i + 1) % s.ssrcs.length
  let ssrc := s.ssrcs.getD ssrcIdx 0
  match round.statisticians ssrc with
  | none => { round with ssrcIdx := ssrcIdx }
  | some statistician =>
    let result := statistician.getReportBlock nowMs
    { ssrcIdx := ssrcIdx
      statisticians := Function.update round.statisticians ssrc (some result.1)
      reportBlocks := round.reportBlocks ++ (result.2.map ReportResult.reportBlock).toList }

/-- The loop, over the values of `i` that are left. -/
def reportRounds (s : RtpReceiveStatistics) (maxBlocks : Nat) (nowMs : Int) :
    List Nat → Round → Round
  | [], round => round
  | i :: rest, round =>
    if round.reportBlocks.length < maxBlocks then
      reportRounds s maxBlocks nowMs rest (s.reportRound nowMs round i)
    else round

/-- `GetRtcpReportBlocks(max_blocks)`. -/
def getRtcpReportBlocks (s : RtpReceiveStatistics) (maxBlocks : Nat) (nowMs : Int) :
    RtpReceiveStatistics × List Rtcp.ReportBlock :=
  let round := s.reportRounds maxBlocks nowMs (List.range' 0 s.ssrcs.length)
    ⟨0, s.statisticians, []⟩
  ({ s with
      lastReturnedSsrcIdx := round.ssrcIdx
      statisticians := round.statisticians }, round.reportBlocks)

/-! ## Other calls -/

/-- `GetOrCreateStatistician(ssrc)`: the statistician, and where it is now. -/
def getOrCreateStatistician (s : RtpReceiveStatistics) (ssrc : BitVec 32) :
    ReportingStatistician × RtpReceiveStatistics :=
  match s.statisticians ssrc with
  | some statistician => (statistician, s)
  | none =>
    let statistician := .create ssrc s.maxReorderingThreshold false
    (statistician, { s with
      ssrcs := s.ssrcs ++ [ssrc]
      statisticians := Function.update s.statisticians ssrc (some statistician) })

/-- A method that is called on the statistician of a stream. -/
def modifyStatistician (s : RtpReceiveStatistics) (ssrc : BitVec 32)
    (f : ReportingStatistician → ReportingStatistician) : RtpReceiveStatistics :=
  let (statistician, s) := s.getOrCreateStatistician ssrc
  { s with statisticians := Function.update s.statisticians ssrc (some (f statistician)) }

/-- `set_max_reordering_threshold(threshold)` of a statistician. -/
def setThreshold (threshold : Int) (statistician : ReportingStatistician) :
    ReportingStatistician :=
  { statistician with
    stats := { statistician.stats with maxReorderingThreshold := threshold } }

/-- `set_enable_retransmit_detection(enable)` of a statistician. -/
def setDetection (enable : Bool) (statistician : ReportingStatistician) : ReportingStatistician :=
  { statistician with
    stats := { statistician.stats with enableRetransmitDetection := enable } }

/-- What is called.  Of a packet, only what the statistician reads is there. -/
inductive Call
  | onRtpPacket (ssrc : BitVec 32) (packet : RtpPacketReceived) (nowMs : Int)
  | setMaxReorderingThreshold (threshold : Int)
  | setStreamMaxReorderingThreshold (ssrc : BitVec 32) (threshold : Int)
  | enableRetransmitDetection (ssrc : BitVec 32) (enable : Bool)
  | getRtcpReportBlocks (maxBlocks : Nat) (nowMs : Int)

variable (isRetransmitedPacket : RtpReceiveStreamStatistician → RtpPacketReceived → Int → Bool)

/-- One call after the other. -/
def machine : Machine RtpReceiveStatistics Call (List Rtcp.ReportBlock) where
  step s
    | .onRtpPacket ssrc packet nowMs =>
      (s.modifyStatistician ssrc fun statistician =>
        statistician.onRtpPacket isRetransmitedPacket packet nowMs, [])
    | .setMaxReorderingThreshold threshold =>
      ({ s with
          maxReorderingThreshold := threshold
          statisticians := fun ssrc => (s.statisticians ssrc).map (setThreshold threshold) }, [])
    | .setStreamMaxReorderingThreshold ssrc threshold =>
      (s.modifyStatistician ssrc (setThreshold threshold), [])
    | .enableRetransmitDetection ssrc enable =>
      (s.modifyStatistician ssrc (setDetection enable), [])
    | .getRtcpReportBlocks maxBlocks nowMs => s.getRtcpReportBlocks maxBlocks nowMs

/-! ## The list of streams -/

/-- Every statistician has the SSRC that it is found under. -/
def Keyed (statisticians : BitVec 32 → Option ReportingStatistician) : Prop :=
  ∀ ssrc statistician, statisticians ssrc = some statistician → statistician.ssrc = ssrc

/-- Every stream stands in the list once. -/
structure Ordered (s : RtpReceiveStatistics) : Prop where
  nodup : s.ssrcs.Nodup
  mem_iff : ∀ ssrc, ssrc ∈ s.ssrcs ↔ (s.statisticians ssrc).isSome
  keyed : Keyed s.statisticians

variable {isRetransmitedPacket} {s : RtpReceiveStatistics} {nowMs : Int}
  {statisticians : BitVec 32 → Option ReportingStatistician}

variable {ssrc : BitVec 32}

theorem keyed_update
    (h : Keyed statisticians) {statistician : ReportingStatistician}
    (hssrc : statistician.ssrc = ssrc) :
    Keyed (Function.update statisticians ssrc (some statistician)) := by
  intro other found hfound
  by_cases hother : other = ssrc
  · subst hother
    rw [Function.update_self, Option.some.injEq] at hfound
    exact hfound ▸ hssrc
  · rw [Function.update_of_ne hother] at hfound
    exact h other found hfound

theorem isSome_update
    (hssrc : (statisticians ssrc).isSome) (statistician : ReportingStatistician)
    (other : BitVec 32) :
    (Function.update statisticians ssrc (some statistician) other).isSome =
      (statisticians other).isSome := by
  by_cases hother : other = ssrc
  · subst hother
    rw [Function.update_self, hssrc]
    rfl
  · rw [Function.update_of_ne hother]

theorem Ordered.create : Ordered create :=
  ⟨List.nodup_nil, fun _ => by simp [RtpReceiveStatistics.create], fun _ _ h => by cases h⟩

theorem Ordered.getOrCreateStatistician (hs : Ordered s) (ssrc : BitVec 32) :
    Ordered (s.getOrCreateStatistician ssrc).2 ∧
      (s.getOrCreateStatistician ssrc).1.ssrc = ssrc ∧
      ((s.getOrCreateStatistician ssrc).2.statisticians ssrc).isSome := by
  unfold RtpReceiveStatistics.getOrCreateStatistician
  cases hfound : s.statisticians ssrc with
  | some statistician => exact ⟨hs, hs.keyed ssrc statistician hfound, by simp [hfound]⟩
  | none =>
    have hnew : ssrc ∉ s.ssrcs := fun hmem => by
      have := (hs.mem_iff ssrc).1 hmem
      rw [hfound] at this
      cases this
    refine ⟨⟨?_, fun other => ?_, keyed_update hs.keyed rfl⟩, rfl, by simp⟩
    · exact List.nodup_append.2 ⟨hs.nodup, by simp, fun a ha b hb => by
        rintro rfl
        exact hnew (List.mem_singleton.1 hb ▸ ha)⟩
    · dsimp only
      by_cases hother : other = ssrc
      · simp [hother]
      · rw [Function.update_of_ne hother, List.mem_append, List.mem_singleton, or_iff_left hother]
        exact hs.mem_iff other

theorem Ordered.modifyStatistician (hs : Ordered s) (ssrc : BitVec 32)
    {f : ReportingStatistician → ReportingStatistician} (hf : ∀ x, (f x).ssrc = x.ssrc) :
    Ordered (s.modifyStatistician ssrc f) := by
  obtain ⟨hordered, hssrc, hknown⟩ := hs.getOrCreateStatistician ssrc
  unfold RtpReceiveStatistics.modifyStatistician
  generalize s.getOrCreateStatistician ssrc = found at hordered hssrc hknown
  obtain ⟨statistician, s'⟩ := found
  refine ⟨hordered.nodup, fun other => ?_, keyed_update hordered.keyed ((hf _).trans hssrc)⟩
  rw [isSome_update hknown]
  exact hordered.mem_iff other

/-! ## A call as a turn -/

/-- A stream is active when its statistician has something to report. -/
def isActive (s : RtpReceiveStatistics) (nowMs : Int) (ssrc : BitVec 32) : Bool :=
  (s.statisticians ssrc).any fun statistician => (statistician.getReportBlock nowMs).2.isSome

/-- The streams in the order in which they have their turn. -/
def order (s : RtpReceiveStatistics) : List (BitVec 32) :=
  s.ssrcs.rotate (s.lastReturnedSsrcIdx + 1)

/-- The stream that the loop comes to in round `i`. -/
def streamAt (s : RtpReceiveStatistics) (i : Nat) : BitVec 32 :=
  s.ssrcs.getD ((s.lastReturnedSsrcIdx + i + 1) % s.ssrcs.length) 0

theorem map_streamAt (s : RtpReceiveStatistics) :
    (List.range' 0 s.ssrcs.length).map s.streamAt = s.order := by
  refine List.ext_getElem (by simp [order, List.length_rotate]) fun i hi hi' => ?_
  have hlt : i < s.ssrcs.length := by simpa using hi
  have hplace : s.lastReturnedSsrcIdx + (0 + 1 * i) + 1 = i + (s.lastReturnedSsrcIdx + 1) := by
    omega
  simp only [List.getElem_map, List.getElem_range', order, List.getElem_rotate, streamAt, hplace]
  exact List.getD_eq_getElem _ _ _

theorem getReportBlock_ssrc (statistician : ReportingStatistician) (nowMs : Int) :
    (statistician.getReportBlock nowMs).1.ssrc = statistician.ssrc ∧
      ∀ r, (statistician.getReportBlock nowMs).2 = some r →
        r.reportBlock.sourceSsrc = statistician.ssrc := by
  have hset (block : Rtcp.ReportBlock) (lost : Int) :
      (block.setCumulativePacketLost lost).sourceSsrc = block.sourceSsrc := by
    unfold Rtcp.ReportBlock.setCumulativePacketLost
    split_ifs <;> rfl
  unfold ReportingStatistician.getReportBlock
  split_ifs
  · exact ⟨rfl, fun r hr => by cases hr⟩
  · exact ⟨rfl, fun r hr => by cases hr⟩
  · refine ⟨rfl, fun r hr => ?_⟩
    obtain rfl := Option.some.inj hr
    rw [hset]
    cases statistician.fractionLost <;> rfl

/-- What a round does: it adds the block of its stream, if that is active. -/
structure Reports (s : RtpReceiveStatistics) (nowMs : Int) (i : Nat) (round round' : Round) :
    Prop where
  ssrcIdx_eq : round'.ssrcIdx = (s.lastReturnedSsrcIdx + i + 1) % s.ssrcs.length
  keyed : Keyed round'.statisticians
  known : ∀ ssrc, (round'.statisticians ssrc).isSome = (round.statisticians ssrc).isSome
  others : ∀ ssrc, ssrc ≠ s.streamAt i → round'.statisticians ssrc = round.statisticians ssrc
  blocks : round'.reportBlocks.map Rtcp.ReportBlock.sourceSsrc =
    round.reportBlocks.map Rtcp.ReportBlock.sourceSsrc ++ [s.streamAt i].filter (s.isActive nowMs)

theorem reportRound_reports {round : Round} {i : Nat} (hkeyed : Keyed round.statisticians)
    (hsame : round.statisticians (s.streamAt i) = s.statisticians (s.streamAt i)) :
    Reports s nowMs i round (s.reportRound nowMs round i) := by
  unfold reportRound
  dsimp only
  rw [← streamAt]
  cases hfound : round.statisticians (s.streamAt i) with
  | none =>
    have hinactive : s.isActive nowMs (s.streamAt i) = false := by
      rw [isActive, ← hsame, hfound]
      rfl
    refine ⟨rfl, hkeyed, fun _ => rfl, fun _ _ => rfl, ?_⟩
    simp [hinactive]
  | some statistician =>
    have hssrc := hkeyed _ _ hfound
    obtain ⟨hkept, hblock⟩ := getReportBlock_ssrc statistician nowMs
    have hactive : s.isActive nowMs (s.streamAt i) =
        (statistician.getReportBlock nowMs).2.isSome := by
      rw [isActive, ← hsame, hfound]
      rfl
    refine ⟨rfl, keyed_update hkeyed (hkept.trans hssrc), isSome_update (by simp [hfound]) _,
      fun other hother => Function.update_of_ne hother _ _, ?_⟩
    dsimp only
    cases hresult : (statistician.getReportBlock nowMs).2 with
    | none =>
      rw [hresult] at hactive
      simp [hactive]
    | some r =>
      rw [hresult] at hactive
      simp [hactive, hblock r hresult, hssrc]

theorem reportRounds_spec (maxBlocks n i : Nat) {round : Round} (hkeyed : Keyed round.statisticians)
    (hnodup : ((List.range' i n).map s.streamAt).Nodup)
    (hsame : ∀ j ∈ List.range' i n,
      round.statisticians (s.streamAt j) = s.statisticians (s.streamAt j)) :
    let taken := (turn (s.isActive nowMs) (maxBlocks - round.reportBlocks.length)
      ((List.range' i n).map s.streamAt)).1
    let round' := s.reportRounds maxBlocks nowMs (List.range' i n) round
    Keyed round'.statisticians ∧
      (∀ ssrc, (round'.statisticians ssrc).isSome = (round.statisticians ssrc).isSome) ∧
      round'.reportBlocks.map Rtcp.ReportBlock.sourceSsrc =
        round.reportBlocks.map Rtcp.ReportBlock.sourceSsrc ++ taken.filter (s.isActive nowMs) ∧
      round'.ssrcIdx = if taken.length = 0 then round.ssrcIdx
        else (s.lastReturnedSsrcIdx + i + taken.length) % s.ssrcs.length := by
  induction n generalizing i round with
  | zero => exact ⟨hkeyed, fun _ => rfl, by simp [turn, reportRounds], rfl⟩
  | succ n ih =>
    rw [List.range'_succ, List.map_cons] at hnodup ⊢
    rw [List.range'_succ] at hsame
    obtain ⟨hfirst, hrest⟩ := List.nodup_cons.1 hnodup
    intro taken round'
    by_cases hroom : round.reportBlocks.length < maxBlocks
    · have hstep := @reportRound_reports s nowMs round i hkeyed (hsame i List.mem_cons_self)
      have hround' : round' =
          s.reportRounds maxBlocks nowMs (List.range' (i + 1) n) (s.reportRound nowMs round i) :=
        if_pos hroom
      generalize s.reportRound nowMs round i = next at hstep hround'
      have hcount : next.reportBlocks.length =
          round.reportBlocks.length + if s.isActive nowMs (s.streamAt i) then 1 else 0 := by
        have hlength := congrArg List.length hstep.blocks
        rw [List.length_map, List.length_append, List.length_map] at hlength
        rw [hlength]
        split_ifs with hactive
        · simp [hactive]
        · simp [hactive]
      have htaken : taken = s.streamAt i :: (turn (s.isActive nowMs)
          (maxBlocks - next.reportBlocks.length) ((List.range' (i + 1) n).map s.streamAt)).1 := by
        have hleft : (if s.isActive nowMs (s.streamAt i) then
            maxBlocks - round.reportBlocks.length - 1 else maxBlocks - round.reportBlocks.length) =
              maxBlocks - next.reportBlocks.length := by
          rw [hcount]
          split_ifs <;> omega
        unfold taken
        rw [turn_cons (by omega), hleft]
      obtain ⟨hkeyed', hknown', hblocks', hidx'⟩ := ih (i + 1) hstep.keyed hrest fun j hj => by
        refine (hstep.others _ fun heq => ?_).trans (hsame j (List.mem_cons_of_mem _ hj))
        exact hfirst (heq ▸ List.mem_map_of_mem hj)
      rw [← hround'] at hkeyed' hknown' hblocks' hidx'
      refine ⟨hkeyed', fun ssrc => (hknown' ssrc).trans (hstep.known ssrc), ?_, ?_⟩
      · rw [hblocks', hstep.blocks, htaken, List.append_assoc, ← List.filter_append,
          List.singleton_append]
      · rw [hidx', htaken, List.length_cons, if_neg (Nat.succ_ne_zero _), hstep.ssrcIdx_eq]
        split_ifs with hnil
        · rw [hnil]
        · congr 1
          omega
    · have hround' : round' = round := if_neg hroom
      have htaken : taken = [] := by
        unfold taken
        rw [Nat.sub_eq_zero_of_le (not_lt.1 hroom), turn_zero]
      rw [hround', htaken]
      exact ⟨hkeyed, fun _ => rfl, by simp, rfl⟩

/-- **A call is a turn**: it reports the active streams that the turn takes, and the order after it
is that of the queue. -/
theorem getRtcpReportBlocks_eq (hs : Ordered s) (maxBlocks : Nat) (nowMs : Int) :
    (s.getRtcpReportBlocks maxBlocks nowMs).2.map Rtcp.ReportBlock.sourceSsrc =
        served (s.isActive nowMs) maxBlocks s.order ∧
      Ordered (s.getRtcpReportBlocks maxBlocks nowMs).1 ∧
      (0 < maxBlocks → (s.getRtcpReportBlocks maxBlocks nowMs).1.order =
        next (s.isActive nowMs) maxBlocks s.order) := by
  have hnodup : ((List.range' 0 s.ssrcs.length).map s.streamAt).Nodup := by
    rw [map_streamAt, order, List.nodup_rotate]
    exact hs.nodup
  obtain ⟨hkeyed, hknown, hblocks, hidx⟩ := @reportRounds_spec s nowMs maxBlocks s.ssrcs.length 0
    ⟨0, s.statisticians, []⟩ hs.keyed hnodup fun _ _ => rfl
  rw [map_streamAt] at hblocks hidx
  refine ⟨hblocks, ⟨hs.nodup, fun ssrc => ?_, hkeyed⟩, fun hpos => ?_⟩
  · exact (hs.mem_iff ssrc).trans (by rw [← hknown ssrc]; rfl)
  · simp only [List.length_nil, Nat.sub_zero, Nat.add_zero] at hidx
    show s.ssrcs.rotate ((s.reportRounds maxBlocks nowMs (List.range' 0 s.ssrcs.length)
      ⟨0, s.statisticians, []⟩).ssrcIdx + 1) = _
    rw [hidx, next_eq_rotate]
    cases horder : s.order with
    | nil =>
      have hnil : s.ssrcs = [] := List.rotate_eq_nil_iff.1 horder
      rw [hnil]
      rfl
    | cons a queue =>
      have htaken : (turn (s.isActive nowMs) maxBlocks s.order).1.length ≠ 0 := by
        rw [horder, turn_cons hpos, List.length_cons]
        exact Nat.succ_ne_zero _
      rw [← horder, if_neg htaken, ← List.rotate_rotate, List.rotate_mod, List.rotate_rotate,
        order, List.rotate_rotate, Nat.add_right_comm]

/-! ## Runs -/

theorem Ordered.step (hs : Ordered s) (call : Call) :
    Ordered ((machine isRetransmitedPacket).step s call).1 := by
  cases call with
  | onRtpPacket ssrc packet nowMs =>
    exact hs.modifyStatistician ssrc
      (f := fun statistician => statistician.onRtpPacket isRetransmitedPacket packet nowMs)
      fun _ => rfl
  | setMaxReorderingThreshold threshold =>
    refine ⟨hs.nodup, fun ssrc => (hs.mem_iff ssrc).trans ?_, fun ssrc found hfound => ?_⟩
    · simp [machine]
    · obtain ⟨statistician, hsome, rfl⟩ := Option.map_eq_some_iff.1 hfound
      exact hs.keyed ssrc statistician hsome
  | setStreamMaxReorderingThreshold ssrc threshold => exact hs.modifyStatistician ssrc fun _ => rfl
  | enableRetransmitDetection ssrc enable => exact hs.modifyStatistician ssrc fun _ => rfl
  | getRtcpReportBlocks maxBlocks nowMs => exact (getRtcpReportBlocks_eq hs maxBlocks nowMs).2.1

theorem ordered_final (calls : List Call) :
    Ordered ((machine isRetransmitedPacket).final create calls) :=
  Machine.invariant_of_step _ Ordered (fun _ call hs => hs.step call) .create calls

/-- The SSRCs of the streams that one call reports. -/
def reportedSsrcs (blocks : List Rtcp.ReportBlock) : List (BitVec 32) :=
  blocks.map Rtcp.ReportBlock.sourceSsrc

theorem order_step {call : Call}
    (hsame : ((machine isRetransmitedPacket).step s call).1.ssrcs = s.ssrcs)
    (hcall : ∀ maxBlocks nowMs, call ≠ .getRtcpReportBlocks maxBlocks nowMs) :
    ((machine isRetransmitedPacket).step s call).1.order = s.order := by
  have hidx : ((machine isRetransmitedPacket).step s call).1.lastReturnedSsrcIdx =
      s.lastReturnedSsrcIdx := by
    have hcreate (ssrc : BitVec 32) :
        (s.getOrCreateStatistician ssrc).2.lastReturnedSsrcIdx = s.lastReturnedSsrcIdx := by
      unfold getOrCreateStatistician
      cases s.statisticians ssrc <;> rfl
    cases call with
    | onRtpPacket ssrc packet nowMs => exact hcreate ssrc
    | setMaxReorderingThreshold threshold => rfl
    | setStreamMaxReorderingThreshold ssrc threshold => exact hcreate ssrc
    | enableRetransmitDetection ssrc enable => exact hcreate ssrc
    | getRtcpReportBlocks maxBlocks nowMs => exact absurd rfl (hcall maxBlocks nowMs)
  rw [order, hidx, hsame, order]

/-- Whether a call comes for blocks. -/
def Call.comesForBlocks : Call → Bool
  | .getRtcpReportBlocks _ _ => true
  | _ => false

variable (isRetransmitedPacket) in
/-- No stream is added, and whoever comes for blocks takes `maxBlocks` of them and finds the same
streams active. -/
def Calm (active : BitVec 32 → Bool) (maxBlocks : Nat) (s : RtpReceiveStatistics) (call : Call) :
    Prop :=
  ((machine isRetransmitedPacket).step s call).1.ssrcs = s.ssrcs ∧
    match call with
    | .getRtcpReportBlocks count nowMs =>
      count = maxBlocks ∧ ∀ ssrc ∈ s.ssrcs, s.isActive nowMs ssrc = active ssrc
    | _ => True

theorem mem_order : ssrc ∈ s.order ↔ ssrc ∈ s.ssrcs := List.mem_rotate

theorem owed_reported {active : BitVec 32 → Bool} {maxBlocks : Nat} (hpos : 0 < maxBlocks)
    {owed : List (BitVec 32)} {calls : List Call} (hs : Ordered s)
    (howed : owed <+: s.order.filter active)
    (hcalm : (machine isRetransmitedPacket).AllGood
      (Calm isRetransmitedPacket active maxBlocks) s calls)
    (hcount : owed.length ≤ maxBlocks * calls.countP Call.comesForBlocks) :
    ∀ ssrc ∈ owed, ∃ entry ∈ (machine isRetransmitedPacket).log s calls,
      ssrc ∈ reportedSsrcs entry.2 := by
  induction calls generalizing s owed with
  | nil =>
    intro ssrc hmem
    have hnil : owed = [] := List.eq_nil_of_length_eq_zero (by simpa using hcount)
    rw [hnil] at hmem
    cases hmem
  | cons call calls ih =>
    obtain ⟨⟨hsame, hcall⟩, hrest⟩ := hcalm
    have hs' : Ordered ((machine isRetransmitedPacket).step s call).1 := hs.step call
    intro ssrc hmem
    rw [Machine.log_cons]
    cases call with
    | getRtcpReportBlocks count nowMs =>
      obtain ⟨rfl, hactive⟩ := hcall
      obtain ⟨hblocks, -, horder⟩ := getRtcpReportBlocks_eq hs count nowMs
      have hfilter {queue : List (BitVec 32)} (hqueue : ∀ x ∈ queue, x ∈ s.ssrcs) :
          queue.filter (s.isActive nowMs) = queue.filter active :=
        List.filter_congr fun x hx => by rw [hactive x (hqueue x hx)]
      rw [← hfilter fun x hx => mem_order.1 hx] at howed
      obtain ⟨hnext, hserved⟩ := @owed_next _ _ count _ _ howed
      have hkept : (s.getRtcpReportBlocks count nowMs).1.ssrcs = s.ssrcs := hsame
      have hnew := @hfilter (s.getRtcpReportBlocks count nowMs).1.order
        fun x hx => hkept ▸ mem_order.1 hx
      rw [← horder hpos, hnew] at hnext
      rcases hserved ssrc hmem with hnow | hlater
      · refine ⟨_, List.mem_cons_self, ?_⟩
        show ssrc ∈ (s.getRtcpReportBlocks count nowMs).2.map _
        rw [hblocks]
        exact hnow
      · have hleft : (owed.drop count).length ≤ count * calls.countP Call.comesForBlocks := by
          rw [List.countP_cons_of_pos rfl, Nat.mul_succ] at hcount
          rw [List.length_drop]
          omega
        obtain ⟨entry, hentry, hreported⟩ := ih hs' hnext hrest hleft ssrc hlater
        exact ⟨entry, List.mem_cons_of_mem _ hentry, hreported⟩
    | _ =>
      rw [← order_step hsame fun _ _ h => by cases h] at howed
      rw [List.countP_cons_of_neg Bool.false_ne_true] at hcount
      obtain ⟨entry, hentry, hreported⟩ := ih hs' howed hrest hcount ssrc hmem
      exact ⟨entry, List.mem_cons_of_mem _ hentry, hreported⟩

/-- **Blocks are shared fairly**, whatever was called before.  One call reports active streams only,
each once, and no more than it may; and `n` active streams are all reported by `n / max_blocks`
calls, rounded up, with no stream added among them. -/
theorem shares_fairly
    (isRetransmitedPacket : RtpReceiveStreamStatistician → RtpPacketReceived → Int → Bool)
    (before : List Call) :
    let M := machine isRetransmitedPacket
    let s := M.final create before
    (∀ maxBlocks nowMs,
      let reported := reportedSsrcs (s.getRtcpReportBlocks maxBlocks nowMs).2
      reported.Nodup ∧ reported.length ≤ maxBlocks ∧
        ∀ ssrc ∈ reported, s.isActive nowMs ssrc = true) ∧
    ∀ (active : BitVec 32 → Bool) (maxBlocks : Nat) (calls : List Call), 0 < maxBlocks →
      M.AllGood (Calm isRetransmitedPacket active maxBlocks) s calls →
      ((s.ssrcs.filter active).length + maxBlocks - 1) / maxBlocks ≤
        calls.countP Call.comesForBlocks →
      ∀ ssrc ∈ s.ssrcs, active ssrc = true →
        ∃ entry ∈ M.log s calls, ssrc ∈ reportedSsrcs entry.2 := by
  intro M s
  have hs : Ordered s := ordered_final before
  have horder : s.order.Nodup := List.nodup_rotate.2 hs.nodup
  constructor
  · intro maxBlocks nowMs reported
    have heq : reported = (s.order.filter (s.isActive nowMs)).take maxBlocks :=
      (getRtcpReportBlocks_eq hs maxBlocks nowMs).1.trans (served_eq _ _ _)
    rw [heq]
    refine ⟨(horder.filter _).sublist (List.take_sublist _ _), List.length_take_le _ _, ?_⟩
    exact fun ssrc hmem => (List.mem_filter.1 (List.mem_of_mem_take hmem)).2
  · intro active maxBlocks calls hpos hcalm hcount ssrc hmem hactive
    have hlength : (s.order.filter active).length = (s.ssrcs.filter active).length :=
      ((List.rotate_perm s.ssrcs (s.lastReturnedSsrcIdx + 1)).filter active).length_eq
    refine owed_reported hpos hs (List.prefix_refl _) hcalm ?_ ssrc
      (List.mem_filter.2 ⟨mem_order.2 hmem, hactive⟩)
    rw [hlength]
    have hceil := (Nat.div_le_iff_le_mul_add_pred hpos).1 hcount
    omega

/-- Two streams, a packet each. -/
def twoStreams : RtpReceiveStatistics :=
  (machine fun _ _ _ => false).final create
    [.onRtpPacket 1 ⟨7, 0, 90000, 12, 100, 0⟩ 1000, .onRtpPacket 2 ⟨7, 0, 90000, 12, 100, 0⟩ 1000]

/-- They share one block: two calls are enough. -/
theorem shares_fairly_two :
    ∀ ssrc ∈ twoStreams.ssrcs, ∃ entry ∈ (machine fun _ _ _ => false).log twoStreams
      [.getRtcpReportBlocks 1 1500, .getRtcpReportBlocks 1 1600],
      ssrc ∈ reportedSsrcs entry.2 := by
  have hssrcs : twoStreams.ssrcs = [1, 2] := by decide +kernel
  have hnext : (twoStreams.getRtcpReportBlocks 1 1500).1.ssrcs = [1, 2] := by decide +kernel
  have hcalm : (machine fun _ _ _ => false).AllGood (Calm (fun _ _ _ => false) (fun _ => true) 1)
      twoStreams [.getRtcpReportBlocks 1 1500, .getRtcpReportBlocks 1 1600] := by
    refine ⟨⟨hnext.trans hssrcs.symm, rfl, fun ssrc hmem => ?_⟩,
      ⟨by decide +kernel, rfl, fun ssrc hmem => ?_⟩, trivial⟩
    · rw [hssrcs, List.mem_pair] at hmem
      rcases hmem with rfl | rfl <;> decide +kernel
    · rw [show ((machine fun _ _ _ => false).step twoStreams
        (.getRtcpReportBlocks 1 1500)).1.ssrcs = [1, 2] from hnext, List.mem_pair] at hmem
      rcases hmem with rfl | rfl <;> decide +kernel
  intro ssrc hmem
  exact (shares_fairly (fun _ _ _ => false)
    [.onRtpPacket 1 ⟨7, 0, 90000, 12, 100, 0⟩ 1000,
      .onRtpPacket 2 ⟨7, 0, 90000, 12, 100, 0⟩ 1000]).2
    (fun _ => true) 1 _ Nat.one_pos hcalm (by decide +kernel) ssrc hmem rfl

end RtpReceiveStatistics

end NaiveRtc
