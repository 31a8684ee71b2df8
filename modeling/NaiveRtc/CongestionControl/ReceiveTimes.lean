import NaiveRtc.CongestionControl.InFlight

/-!
# The receive times that a feedback reports

The deltas of a feedback add up from one received packet to the next.  The loop adds them
up behind the two branches that skip a packet, so a delta is lost when its packet is not in
the history any more or was never reported as sent, and what the sender remembers decides
the receive times of the packets behind it.

* `results` — what the loop reports; `expected` — the same with the sum over all received
  packets; `results_eq` connects the first with the code.
* `IndependentTimes` — the times are those sums, and forgetting packets does not change them.
* `Unshifted` — no delta that may be skipped moves a later time to another millisecond.
* `independent_times_iff` — the one holds exactly when the other does.
-/

namespace NaiveRtc.CongestionControl

open Rtcp

namespace NetworkTransportStatistician

variable {s : NetworkTransportStatistician} {history : List PacketFeedback} {last : NumberUnwrapper}
  {base : Timestamp}

/-! ## What the loop reports -/

/-- The packet of an id, if it is in the history and was sent. -/
def sentEntry (history : List PacketFeedback) (packetId : Int) : Option SentPacket :=
  match history.find? fun e => e.id = packetId with
  | none => none
  | some entry => if entry.sent.sendTime.isInfinite then none else some entry.sent

/-- `delta()` in microseconds; a lost packet has none. -/
def deltaUs (packet : ReceivedPacket) : Int := packet.deltaTicks.getD 0 * kDeltaScaleFactor

/-- The receive time of a packet at an offset, in whole milliseconds. -/
def recvTime (base : Timestamp) (packet : ReceivedPacket) (offset : Int) : Timestamp :=
  if packet.received then base.add (.micros (roundDownTo offset 1000)) else .plusInfinity

/-- A packet that is reported as received leaves the history. -/
def rest (history : List PacketFeedback) (packet : ReceivedPacket) (packetId : Int) :
    List PacketFeedback :=
  if packet.received then erase history packetId else history

/-- What the loop of `ParsePacketFeedbacks` reports. -/
def results (base : Timestamp) (last : NumberUnwrapper) (history : List PacketFeedback)
    (offset : Int) : List ReceivedPacket → List PacketResult
  | [] => []
  | packet :: packets =>
    let packetId := last.unwrapped packet.sequenceNumber
    match sentEntry history packetId with
    | none => results base (some packetId) history offset packets
    | some sent =>
      ⟨sent, recvTime base packet (offset + deltaUs packet)⟩ ::
        results base (some packetId) (rest history packet packetId)
          (offset + deltaUs packet) packets

/-- What it should report: the same packets, with the deltas of all packets added up. -/
def expected (base : Timestamp) (last : NumberUnwrapper) (history : List PacketFeedback)
    (total : Int) : List ReceivedPacket → List PacketResult
  | [] => []
  | packet :: packets =>
    let packetId := last.unwrapped packet.sequenceNumber
    match sentEntry history packetId with
    | none => expected base (some packetId) history (total + deltaUs packet) packets
    | some sent =>
      ⟨sent, recvTime base packet (total + deltaUs packet)⟩ ::
        expected base (some packetId) (rest history packet packetId)
          (total + deltaUs packet) packets

/-- What `ProcessTransportFeedback` reports about the packets. -/
def reported (s : NetworkTransportStatistician) (feedback : TransportFeedback)
    (receiveTime : Timestamp) : List PacketResult :=
  match (s.processTransportFeedback feedback receiveTime).2 with
  | none => []
  | some report => report.packetFeedbacks

theorem acknowledge_recvTime (s : NetworkTransportStatistician) (packetId : Int) :
    (s.acknowledge packetId).lastFeedbackRecvTime = s.lastFeedbackRecvTime := by
  unfold acknowledge
  split <;> rfl

theorem parsePackets_eq (s : NetworkTransportStatistician) (offset : Int)
    (report : TransportPacketsFeedback) (packets : List ReceivedPacket) :
    (s.parsePackets offset report packets).2.packetFeedbacks = report.packetFeedbacks ++
      results s.lastFeedbackRecvTime s.seqNumUnwrapper s.packetFbHistory offset packets := by
  induction packets generalizing s offset report with
  | nil => exact (List.append_nil _).symm
  | cons packet packets ih =>
    rw [parsePackets, results]
    dsimp only
    have hhistory := acknowledge_history { s with
      seqNumUnwrapper := (s.seqNumUnwrapper.unwrap packet.sequenceNumber).2 }
      (s.seqNumUnwrapper.unwrap packet.sequenceNumber).1
    have hunwrapper := acknowledge_unwrapper { s with
      seqNumUnwrapper := (s.seqNumUnwrapper.unwrap packet.sequenceNumber).2 }
      (s.seqNumUnwrapper.unwrap packet.sequenceNumber).1
    have hrecv := acknowledge_recvTime { s with
      seqNumUnwrapper := (s.seqNumUnwrapper.unwrap packet.sequenceNumber).2 }
      (s.seqNumUnwrapper.unwrap packet.sequenceNumber).1
    generalize { s with
      seqNumUnwrapper := (s.seqNumUnwrapper.unwrap packet.sequenceNumber).2 }.acknowledge
      (s.seqNumUnwrapper.unwrap packet.sequenceNumber).1 = s₂ at hhistory hunwrapper hrecv ⊢
    change s₂.seqNumUnwrapper = some (s.seqNumUnwrapper.unwrapped packet.sequenceNumber) at hunwrapper
    change s₂.lastFeedbackRecvTime = s.lastFeedbackRecvTime at hrecv
    unfold sentEntry find
    rw [show (s.seqNumUnwrapper.unwrap packet.sequenceNumber).1 =
      s.seqNumUnwrapper.unwrapped packet.sequenceNumber from rfl, hhistory]
    cases hfind : s.packetFbHistory.find?
        (fun e => decide (e.id = s.seqNumUnwrapper.unwrapped packet.sequenceNumber)) with
    | none =>
      rw [ih, hhistory, hunwrapper, hrecv]
    | some entry =>
      dsimp only
      by_cases hinf : entry.sent.sendTime.isInfinite = true
      · rw [if_pos hinf, if_pos hinf, ih, hhistory, hunwrapper, hrecv]
      · rw [if_neg hinf, if_neg hinf]
        cases hticks : packet.deltaTicks with
        | none =>
          rw [ih, hhistory, hunwrapper, hrecv, List.append_assoc]
          simp [recvTime, rest, ReceivedPacket.received, deltaUs, hticks]
        | some ticks =>
          rw [ih, hunwrapper, hrecv, List.append_assoc]
          simp [recvTime, rest, ReceivedPacket.received, deltaUs, hticks]

/-- The time that the packets of a feedback are placed at. -/
def baseTime (s : NetworkTransportStatistician) (feedback : TransportFeedback)
    (receiveTime : Timestamp) : Timestamp :=
  (s.rebase feedback receiveTime).lastFeedbackRecvTime

variable {feedback : TransportFeedback}

theorem results_eq (s : NetworkTransportStatistician)
    (hcount : feedback.statusCount ≠ 0) (receiveTime : Timestamp) :
    s.reported feedback receiveTime = results (s.baseTime feedback receiveTime) s.seqNumUnwrapper
      s.packetFbHistory 0 feedback.allPackets := by
  have hparse := parsePackets_eq (s.rebase feedback receiveTime) 0
    { receiveTime := receiveTime, firstUnackedSendTime := .plusInfinity
      lastAckedRecvTime := .minusInfinity, bytesInFlight := 0, priorInFlight := s.inflightBytes
      packetFeedbacks := [] } feedback.allPackets
  rw [List.nil_append] at hparse
  unfold reported processTransportFeedback
  rw [if_neg hcount]
  dsimp only
  split
  · rename_i hnone
    split at hnone
    · rename_i hempty
      exact hempty.symm.trans hparse
    · cases hnone
  · rename_i report hsome
    split at hsome
    · cases hsome
    · rw [← Option.some.inj hsome]
      refine Eq.trans ?_ hparse
      split <;> rfl

/-! ## Forgetting packets -/

/-- The history without some of its packets. -/
def without (gone : Int → Bool) (history : List PacketFeedback) : List PacketFeedback :=
  history.filter fun e => !gone e.id

/-- The statistician with some packets removed from its history. -/
def forget (s : NetworkTransportStatistician) (gone : Int → Bool) : NetworkTransportStatistician :=
  { s with packetFbHistory := without gone s.packetFbHistory }

theorem sentEntry_without (gone : Int → Bool) (history : List PacketFeedback) (packetId : Int) :
    sentEntry (without gone history) packetId =
      if gone packetId then none else sentEntry history packetId := by
  have hfind : (without gone history).find? (fun e => decide (e.id = packetId)) =
      if gone packetId then none else history.find? fun e => decide (e.id = packetId) := by
    induction history with
    | nil => simp [without]
    | cons e history ih =>
      rw [without, List.filter_cons]
      by_cases hid : e.id = packetId
      · by_cases hgone : gone packetId = true
        · rw [if_neg (by simp [hid, hgone])]
          refine ih.trans ?_
          rw [if_pos hgone, if_pos hgone]
        · rw [if_pos (by simp [hid, hgone]), if_neg hgone, List.find?_cons_of_pos (by simp [hid]),
            List.find?_cons_of_pos (by simp [hid])]
      · rw [List.find?_cons_of_neg (by simp [hid])]
        refine Eq.trans ?_ ih
        split
        · rw [List.find?_cons_of_neg (by simp [hid])]
          rfl
        · rfl
  unfold sentEntry
  rw [hfind]
  by_cases hgone : gone packetId = true
  · rw [if_pos hgone, if_pos hgone]
  · rw [if_neg hgone, if_neg hgone]

variable {packetId : Int}

theorem sentEntry_id {sent : SentPacket}
    (h : sentEntry history packetId = some sent) : sent.packetId = packetId := by
  unfold sentEntry at h
  split at h
  · cases h
  · rename_i entry hfind
    split at h
    · cases h
    · rw [← Option.some.inj h]
      have hid : entry.id = packetId := by simpa using List.find?_some hfind
      exact hid

theorem without_rest (gone : Int → Bool) (history : List PacketFeedback) (packet : ReceivedPacket)
    (packetId : Int) :
    without gone (rest history packet packetId) = rest (without gone history) packet packetId := by
  unfold rest without erase
  split
  · rw [List.filter_filter, List.filter_filter]
    exact List.filter_congr fun e _ => Bool.and_comm _ _
  · rfl

theorem without_rest_of_gone {gone : Int → Bool} (h : gone packetId = true)
    (history : List PacketFeedback) (packet : ReceivedPacket) :
    without gone (rest history packet packetId) = without gone history := by
  unfold rest without erase
  split
  · rw [List.filter_filter]
    refine List.filter_congr fun e _ => ?_
    by_cases hid : e.id = packetId
    · simp [hid, h]
    · simp [hid]
  · rfl

theorem without_none (history : List PacketFeedback) :
    without (fun _ => false) history = history := by
  simp [without]

theorem expected_without (gone : Int → Bool) (total : Int) (packets : List ReceivedPacket) :
    expected base last (without gone history) total packets =
      (expected base last history total packets).filter fun r => !gone r.sentPacket.packetId := by
  induction packets generalizing last history total with
  | nil => rfl
  | cons packet packets ih =>
    rw [expected, expected, sentEntry_without]
    cases hentry : sentEntry history (last.unwrapped packet.sequenceNumber) with
    | none =>
      rw [ite_self]
      exact ih _
    | some sent =>
      have hid := sentEntry_id hentry
      by_cases hgone : gone (last.unwrapped packet.sequenceNumber) = true
      · rw [if_pos hgone, List.filter_cons_of_neg (by simp [hid, hgone]), ← ih,
          without_rest_of_gone hgone]
      · rw [if_neg hgone, List.filter_cons_of_pos (by simp [hid, hgone]), ← ih, without_rest]

/-! ## The condition -/

/-- No delta that may be skipped moves a later receive time to another millisecond: for
every received packet that is known, with `total` the deltas of all received packets before
it, the negative ones among those of the known packets (`lo`) and the positive ones (`hi`)
lead to the same millisecond. -/
def Unshifted (last : NumberUnwrapper) (history : List PacketFeedback) (total lo hi : Int) :
    List ReceivedPacket → Prop
  | [] => True
  | packet :: packets =>
    let packetId := last.unwrapped packet.sequenceNumber
    let delta := deltaUs packet
    match sentEntry history packetId with
    | none => Unshifted (some packetId) history (total + delta) lo hi packets
    | some _ =>
      (packet.received = true →
        roundDownTo (lo + delta) 1000 = roundDownTo (total + delta) 1000 ∧
          roundDownTo (hi + delta) 1000 = roundDownTo (total + delta) 1000) ∧
      Unshifted (some packetId) (rest history packet packetId) (total + delta) (lo + min delta 0)
        (hi + max delta 0) packets

theorem roundDownTo_mono {a b : Int} (h : a ≤ b) : roundDownTo a 1000 ≤ roundDownTo b 1000 := by
  have := Int.tdiv_le_tdiv (c := 1000) (by decide) h
  unfold roundDownTo
  omega

theorem recvTime_congr {packet : ReceivedPacket} {offset total : Int}
    (h : packet.received = true → roundDownTo offset 1000 = roundDownTo total 1000) :
    recvTime base packet offset = recvTime base packet total := by
  unfold recvTime
  split
  · rename_i hreceived
    rw [h hreceived]
  · rfl

/-- **The condition is enough**: whatever is forgotten, the offset stays between the two
bounds, and so in the right millisecond. -/
theorem results_of_unshifted {packets : List ReceivedPacket} {total lo hi offset : Int}
    (h : Unshifted last history total lo hi packets) (hlo : lo ≤ offset) (hhi : offset ≤ hi)
    (gone : Int → Bool) :
    results base last (without gone history) offset packets =
      expected base last (without gone history) total packets := by
  induction packets generalizing last history total lo hi offset with
  | nil => rfl
  | cons packet packets ih =>
    rw [results, expected, sentEntry_without]
    rw [Unshifted] at h
    cases hentry : sentEntry history (last.unwrapped packet.sequenceNumber) with
    | none =>
      rw [hentry] at h
      rw [ite_self]
      exact ih h hlo hhi
    | some sent =>
      rw [hentry] at h
      obtain ⟨hround, hrest⟩ := h
      by_cases hgone : gone (last.unwrapped packet.sequenceNumber) = true
      · rw [if_pos hgone]
        have hlo' : lo + min (deltaUs packet) 0 ≤ offset := by omega
        have hhi' : offset ≤ hi + max (deltaUs packet) 0 := by omega
        have htail := ih hrest hlo' hhi'
        rwa [without_rest_of_gone hgone] at htail
      · rw [if_neg hgone]
        have hlo' : lo + min (deltaUs packet) 0 ≤ offset + deltaUs packet := by omega
        have hhi' : offset + deltaUs packet ≤ hi + max (deltaUs packet) 0 := by omega
        have htail := ih hrest hlo' hhi'
        rw [without_rest] at htail
        rw [htail]
        refine congrArg (fun t => (⟨sent, t⟩ : PacketResult) :: _) (recvTime_congr fun hreceived =>
          ?_)
        obtain ⟨hl, hh⟩ := hround hreceived
        have h1 := roundDownTo_mono (show lo + deltaUs packet ≤ offset + deltaUs packet by omega)
        have h2 := roundDownTo_mono (show offset + deltaUs packet ≤ hi + deltaUs packet by omega)
        omega

theorem recvTime_inj {us : Int} {packet : ReceivedPacket} (hreceived : packet.received = true)
    {offset total : Int}
    (h : recvTime (.micros us) packet offset = recvTime (.micros us) packet total) :
    roundDownTo offset 1000 = roundDownTo total 1000 := by
  unfold recvTime at h
  rw [if_pos hreceived, if_pos hreceived] at h
  simpa [UnitValue.add] using h

section Head

variable {packet : ReceivedPacket} {packets : List ReceivedPacket} {sent : SentPacket} {us : Int}
  {offset total : Int}

/-- The reports are as expected from an offset on, whatever is forgotten. -/
def AsExpected (us : Int) (last : NumberUnwrapper) (history : List PacketFeedback)
    (offset total : Int)
    (packets : List ReceivedPacket) : Prop :=
  ∀ gone, results (.micros us) last (without gone history) offset packets =
    expected (.micros us) last (without gone history) total packets

theorem AsExpected.kept (h : AsExpected us last history offset total (packet :: packets))
    (hentry : sentEntry history (last.unwrapped packet.sequenceNumber) = some sent)
    (gone : Int → Bool) (hgone : gone (last.unwrapped packet.sequenceNumber) = false) :
    recvTime (.micros us) packet (offset + deltaUs packet) =
        recvTime (.micros us) packet (total + deltaUs packet) ∧
      results (.micros us) (some (last.unwrapped packet.sequenceNumber))
          (without gone (rest history packet (last.unwrapped packet.sequenceNumber)))
          (offset + deltaUs packet) packets =
        expected (.micros us) (some (last.unwrapped packet.sequenceNumber))
          (without gone (rest history packet (last.unwrapped packet.sequenceNumber)))
          (total + deltaUs packet) packets := by
  have hhead := h gone
  rw [results, expected, sentEntry_without, hgone, if_neg (by decide), hentry] at hhead
  obtain ⟨hfirst, htail⟩ := List.cons.inj hhead
  rw [without_rest]
  exact ⟨(PacketResult.mk.inj hfirst).2, htail⟩

theorem AsExpected.skipped (h : AsExpected us last history offset total (packet :: packets))
    (gone : Int → Bool) (hgone : gone (last.unwrapped packet.sequenceNumber) = true) :
    results (.micros us) (some (last.unwrapped packet.sequenceNumber))
        (without gone (rest history packet (last.unwrapped packet.sequenceNumber))) offset packets =
      expected (.micros us) (some (last.unwrapped packet.sequenceNumber))
        (without gone (rest history packet (last.unwrapped packet.sequenceNumber)))
        (total + deltaUs packet) packets := by
  have hhead := h gone
  rw [results, expected, sentEntry_without, hgone, if_pos rfl] at hhead
  rw [without_rest_of_gone hgone]
  exact hhead

theorem without_erase_congr (gone gone' : Int → Bool)
    (h : ∀ id, id ≠ packetId → gone id = gone' id) :
    without gone (erase history packetId) = without gone' (erase history packetId) := by
  refine List.filter_congr fun e he => ?_
  have hne : e.id ≠ packetId := by simpa using (List.mem_filter.mp he).2
  rw [h _ hne]

theorem AsExpected.behind (h : AsExpected us last history offset total (packet :: packets))
    (hentry : sentEntry history (last.unwrapped packet.sequenceNumber) = some sent)
    (hreceived : packet.received = true) :
    AsExpected us (some (last.unwrapped packet.sequenceNumber))
        (rest history packet (last.unwrapped packet.sequenceNumber)) (offset + deltaUs packet)
        (total + deltaUs packet) packets ∧
      AsExpected us (some (last.unwrapped packet.sequenceNumber))
        (rest history packet (last.unwrapped packet.sequenceNumber)) offset
        (total + deltaUs packet) packets := by
  have hrest : rest history packet (last.unwrapped packet.sequenceNumber) =
      erase history (last.unwrapped packet.sequenceNumber) := if_pos hreceived
  constructor
  · intro gone
    have htail := (h.kept hentry (fun id =>
      if id = last.unwrapped packet.sequenceNumber then false else gone id) (if_pos rfl)).2
    rw [hrest] at htail ⊢
    rwa [without_erase_congr _ gone fun id hid => if_neg hid] at htail
  · intro gone
    have htail := h.skipped (fun id =>
      if id = last.unwrapped packet.sequenceNumber then true else gone id) (if_pos rfl)
    rw [hrest] at htail ⊢
    rwa [without_erase_congr _ gone fun id hid => if_neg hid] at htail

theorem AsExpected.behind_lost (h : AsExpected us last history offset total (packet :: packets))
    (hentry : sentEntry history (last.unwrapped packet.sequenceNumber) = some sent)
    (hlost : deltaUs packet = 0) :
    AsExpected us (some (last.unwrapped packet.sequenceNumber))
      (rest history packet (last.unwrapped packet.sequenceNumber)) offset
      (total + deltaUs packet) packets := by
  intro gone
  cases hgone : gone (last.unwrapped packet.sequenceNumber) with
  | true => exact h.skipped gone hgone
  | false =>
    have htail := (h.kept hentry gone hgone).2
    rwa [show offset + deltaUs packet = offset by omega] at htail

end Head

/-- **The condition is needed**: forgetting the packets with positive deltas reaches the
lower bound, forgetting those with negative ones the upper. -/
theorem unshifted_of_asExpected {packets : List ReceivedPacket} {us total lo hi : Int}
    (hlo : AsExpected us last history lo total packets)
    (hhi : AsExpected us last history hi total packets) :
    Unshifted last history total lo hi packets := by
  induction packets generalizing last history total lo hi with
  | nil => trivial
  | cons packet packets ih =>
    rw [Unshifted]
    cases hentry : sentEntry history (last.unwrapped packet.sequenceNumber) with
    | none =>
      simp only [AsExpected, results, expected, sentEntry_without, hentry, ite_self] at hlo hhi
      exact ih hlo hhi
    | some sent =>
      refine ⟨fun hreceived => ?_, ?_⟩
      · exact ⟨recvTime_inj hreceived (hlo.kept hentry (fun _ => false) rfl).1,
          recvTime_inj hreceived (hhi.kept hentry (fun _ => false) rfl).1⟩
      · by_cases hreceived : packet.received = true
        · obtain ⟨hlo₁, hlo₂⟩ := hlo.behind hentry hreceived
          obtain ⟨hhi₁, hhi₂⟩ := hhi.behind hentry hreceived
          rcases le_total (deltaUs packet) 0 with hneg | hpos
          · rw [min_eq_left hneg, max_eq_right hneg, add_zero]
            exact ih hlo₁ hhi₂
          · rw [min_eq_right hpos, max_eq_left hpos, add_zero]
            exact ih hlo₂ hhi₁
        · have hzero : deltaUs packet = 0 := by
            unfold deltaUs
            unfold ReceivedPacket.received at hreceived
            cases hticks : packet.deltaTicks with
            | none => rfl
            | some ticks => exact absurd (by rw [hticks]; rfl) hreceived
          have hmin : lo + min (deltaUs packet) 0 = lo := by omega
          have hmax : hi + max (deltaUs packet) 0 = hi := by omega
          rw [hmin, hmax]
          exact ih (hlo.behind_lost hentry hzero) (hhi.behind_lost hentry hzero)

theorem results_of_infinite (hbase : base.isFinite = false) (packets : List ReceivedPacket)
    (offset total : Int) :
    results base last history offset packets = expected base last history total packets := by
  have htime : ∀ (packet : ReceivedPacket) (offset total : Int),
      recvTime base packet offset = recvTime base packet total := by
    intro packet offset total
    cases base with
    | micros us => cases hbase
    | minusInfinity => rfl
    | plusInfinity => rfl
  induction packets generalizing last history offset total with
  | nil => rfl
  | cons packet packets ih =>
    rw [results, expected]
    cases sentEntry history (last.unwrapped packet.sequenceNumber) with
    | none => exact ih _ _
    | some sent =>
      dsimp only
      rw [ih, htime packet _ (total + deltaUs packet)]

/-! ## Independence -/

/-- **The receive times are independent of what the sender remembers**: every packet that is
reported as received is placed by the deltas of all received packets up to it, and when
other packets are forgotten before the call, the remaining ones are reported as before. -/
def IndependentTimes (s : NetworkTransportStatistician) (feedback : TransportFeedback)
    (receiveTime : Timestamp) : Prop :=
  (feedback.statusCount ≠ 0 → s.reported feedback receiveTime =
      expected (s.baseTime feedback receiveTime) s.seqNumUnwrapper s.packetFbHistory 0
        feedback.allPackets) ∧
    ∀ gone, (s.forget gone).reported feedback receiveTime =
      (s.reported feedback receiveTime).filter fun r => !gone r.sentPacket.packetId

theorem reported_of_empty (s : NetworkTransportStatistician)
    (hcount : feedback.statusCount = 0) (receiveTime : Timestamp) :
    s.reported feedback receiveTime = [] := by
  unfold reported processTransportFeedback
  rw [if_pos hcount]

theorem independentTimes_iff_results (s : NetworkTransportStatistician)
    (hcount : feedback.statusCount ≠ 0) (receiveTime : Timestamp) :
    s.IndependentTimes feedback receiveTime ↔
      ∀ gone, results (s.baseTime feedback receiveTime) s.seqNumUnwrapper
          (without gone s.packetFbHistory) 0 feedback.allPackets =
        expected (s.baseTime feedback receiveTime) s.seqNumUnwrapper
          (without gone s.packetFbHistory) 0 feedback.allPackets := by
  have hforget : ∀ gone, (s.forget gone).reported feedback receiveTime =
      results (s.baseTime feedback receiveTime) s.seqNumUnwrapper
        (without gone s.packetFbHistory) 0 feedback.allPackets :=
    fun gone => results_eq (s.forget gone) hcount receiveTime
  constructor
  · rintro ⟨htrue, hfilter⟩ gone
    rw [← hforget, hfilter, htrue hcount, expected_without]
  · intro h
    have htrue : s.reported feedback receiveTime = expected (s.baseTime feedback receiveTime)
        s.seqNumUnwrapper s.packetFbHistory 0 feedback.allPackets := by
      have hall := h fun _ => false
      rw [without_none] at hall
      rw [results_eq s hcount receiveTime, hall]
    refine ⟨fun _ => htrue, fun gone => ?_⟩
    rw [hforget, h, expected_without, htrue]

/-- **When the receive times are independent**: for a feedback that reports anything and is
placed at a finite time, exactly when no delta that may be skipped moves a later time to
another millisecond. -/
theorem independent_times_iff (s : NetworkTransportStatistician) (feedback : TransportFeedback)
    (receiveTime : Timestamp) :
    s.IndependentTimes feedback receiveTime ↔
      feedback.statusCount = 0 ∨ (s.baseTime feedback receiveTime).isFinite = false ∨
        Unshifted s.seqNumUnwrapper s.packetFbHistory 0 0 0 feedback.allPackets := by
  by_cases hcount : feedback.statusCount = 0
  · refine ⟨fun _ => Or.inl hcount, fun _ => ⟨fun h => absurd hcount h, fun gone => ?_⟩⟩
    rw [reported_of_empty _ hcount, reported_of_empty _ hcount]
    rfl
  · rw [independentTimes_iff_results s hcount]
    cases hbase : s.baseTime feedback receiveTime with
    | micros us =>
      constructor
      · intro h
        exact Or.inr (Or.inr (unshifted_of_asExpected h h))
      · rintro (h | h | h)
        · exact absurd h hcount
        · cases h
        · exact fun gone => results_of_unshifted h (le_refl _) (le_refl _) gone
    | minusInfinity =>
      exact ⟨fun _ => Or.inr (Or.inl rfl), fun _ gone => results_of_infinite rfl _ _ _⟩
    | plusInfinity =>
      exact ⟨fun _ => Or.inr (Or.inl rfl), fun _ gone => results_of_infinite rfl _ _ _⟩

/-- Two packets that were sent and wait for their feedback. -/
def twoSent : NetworkTransportStatistician :=
  statisticianMachine.final create
    [.addPacket (hundredBytes 1) 0 (.micros 0), .addPacket (hundredBytes 2) 0 (.micros 0),
      .processSentPacket ⟨.micros 5, some 1, 100, false⟩,
      .processSentPacket ⟨.micros 6, some 2, 100, false⟩]

/-- A feedback that reports both, the second 4 ms after the first. -/
def feedbackOfBoth : TransportFeedback :=
  let first := (((TransportFeedback.create true true).setBase 1 64000).addReceivedPacket 1 68000).2
  (first.addReceivedPacket 2 72000).2

/-- **A packet that is forgotten shifts the ones behind it**: with the first packet in the
history the second was received 8 ms after the base time, without it 4 ms after. -/
theorem forgotten_packet_shifts :
    (twoSent.reported feedbackOfBoth (.micros 100000)).map
        (fun r => (r.sentPacket.packetId, r.recvTime)) =
          [(1, .micros 104000), (2, .micros 108000)] ∧
      ((twoSent.forget fun id => id == 1).reported feedbackOfBoth (.micros 100000)).map
        (fun r => (r.sentPacket.packetId, r.recvTime)) = [(2, .micros 104000)] := by
  decide

end NetworkTransportStatistician

end NaiveRtc.CongestionControl
