import NaiveRtc.CongestionControl.NetworkTransportStatistician
import Mathlib.Algebra.Order.BigOperators.Group.List

/-!
# The bytes in flight

`inflight_bytes_` grows when a packet is reported as sent and shrinks when it expires or is
acknowledged.  The two subtractions do not look at the send time: they also take away what
was never added.  As long as every packet is reported as sent before it expires or is passed
by a feedback, the sum is right.

* `inFlight` — what the bytes in flight should be.
* `Balanced`, `balanced_step` — the invariant.
* `inflight_accounting` — the sum over every run of settled calls.
* `unsent_packet_acknowledged` — the sum goes below zero.
-/

namespace NaiveRtc.CongestionControl

open Ordered Rtcp

namespace NetworkTransportStatistician

variable {s : NetworkTransportStatistician} {history : List PacketFeedback}

/-- An entry is in flight: it was sent and is not acknowledged. -/
def flying (lastAcked : Int) (e : PacketFeedback) : Bool :=
  e.sent.sendTime.isFinite && decide (lastAcked < e.id)

/-- The bytes of the entries that meet `p`. -/
def bytesOf (p : PacketFeedback → Bool) (history : List PacketFeedback) : Int :=
  ((history.filter p).map fun e => (e.sent.size : Int)).sum

/-- The bytes of the packets in the history that were sent and are not acknowledged. -/
def inFlight (s : NetworkTransportStatistician) : Int :=
  bytesOf (flying s.lastAckedPacketId) s.packetFbHistory

/-- The ids that a feedback speaks about. -/
def reportedIds (last : NumberUnwrapper) : List ReceivedPacket → List Int
  | [] => []
  | packet :: packets =>
    last.unwrapped packet.sequenceNumber ::
      reportedIds (last.unwrap packet.sequenceNumber).2 packets

/-- The calls after which the bytes in flight are right: no packet expires or is passed by a
feedback before it was reported as sent, and the send times reported are finite. -/
def Settled (s : NetworkTransportStatistician) : Op → Prop
  | .addPacket _ _ receiveTime =>
    ∀ e ∈ s.packetFbHistory.takeWhile (isOld receiveTime),
      s.lastAckedPacketId < e.id → e.sent.sendTime.isFinite = true
  | .processSentPacket packet => packet.packetId.isSome → packet.sendTime.isFinite = true
  | .processTransportFeedback feedback _ =>
    feedback.statusCount ≠ 0 → ∀ id ∈ reportedIds s.seqNumUnwrapper feedback.allPackets,
      ∀ e ∈ s.packetFbHistory, s.lastAckedPacketId < e.id → e.id ≤ id →
        e.sent.sendTime.isFinite = true

instance (s : NetworkTransportStatistician) : DecidablePred s.Settled := fun op => by
  cases op <;> unfold Settled <;> infer_instance

/-! ## Sums -/

theorem bytesOf_cons (p : PacketFeedback → Bool) (e : PacketFeedback)
    (history : List PacketFeedback) :
    bytesOf p (e :: history) = (if p e then (e.sent.size : Int) else 0) + bytesOf p history := by
  unfold bytesOf
  rw [List.filter_cons]
  split
  · simp
  · simp

theorem bytesOf_append (p : PacketFeedback → Bool) (h₁ h₂ : List PacketFeedback) :
    bytesOf p (h₁ ++ h₂) = bytesOf p h₁ + bytesOf p h₂ := by
  simp [bytesOf]

theorem bytesOf_congr {p p' : PacketFeedback → Bool} (h : ∀ e ∈ history, p e = p' e) :
    bytesOf p history = bytesOf p' history := by
  unfold bytesOf
  rw [List.filter_congr h]

theorem bytesOf_nonneg (p : PacketFeedback → Bool) (history : List PacketFeedback) :
    0 ≤ bytesOf p history := by
  refine List.sum_nonneg fun x hx => ?_
  obtain ⟨e, -, rfl⟩ := List.mem_map.mp hx
  exact Int.natCast_nonneg _

theorem bytesOf_split (p r : PacketFeedback → Bool) (history : List PacketFeedback) :
    bytesOf p history =
      bytesOf (fun e => p e && r e) history + bytesOf (fun e => p e && !r e) history := by
  induction history with
  | nil => rfl
  | cons e history ih =>
    rw [bytesOf_cons, bytesOf_cons, bytesOf_cons, ih]
    cases p e <;> cases r e <;> simp <;> omega

theorem bytesOf_insertBy {p : PacketFeedback → Bool} {e : PacketFeedback} (he : p e = false)
    (lt : Int → Int → Bool) (history : List PacketFeedback) :
    bytesOf p (insertBy lt PacketFeedback.id e history) = bytesOf p history := by
  induction history with
  | nil => simp [insertBy, bytesOf, he]
  | cons x history ih =>
    rw [insertBy]
    split
    · rw [bytesOf_cons, ih, bytesOf_cons]
    · split
      · rw [bytesOf_cons, he]
        simp
      · rfl

theorem bytesOf_erase {p : PacketFeedback → Bool} {id : Int}
    (h : ∀ e ∈ history, e.id = id → p e = false) :
      bytesOf p (erase history id) = bytesOf p history := by
  unfold bytesOf erase
  rw [List.filter_filter]
  refine congrArg (fun l => (l.map fun e : PacketFeedback => (e.sent.size : Int)).sum)
    (List.filter_congr fun e he => ?_)
  by_cases hid : e.id = id
  · simp [hid, h e he hid]
  · simp [hid]

/-! ## The history -/

/-- The ids of the history increase. -/
abbrev Increasing (history : List PacketFeedback) : Prop := Ranked PacketFeedback.id history

theorem eraseOld_eq (s : NetworkTransportStatistician) (receiveTime : Timestamp)
    (history : List PacketFeedback) (inflightBytes : Int) :
    s.eraseOld receiveTime history inflightBytes =
      (history.dropWhile (isOld receiveTime), inflightBytes -
        bytesOf (fun e => s.isInFlight e.sent) (history.takeWhile (isOld receiveTime))) := by
  induction history generalizing inflightBytes with
  | nil => simp [eraseOld, bytesOf]
  | cons e history ih =>
    rw [eraseOld]
    cases hold : isOld receiveTime e with
    | true =>
      rw [if_pos rfl, ih, List.dropWhile_cons_of_pos hold, List.takeWhile_cons_of_pos hold,
        bytesOf_cons]
      refine Prod.ext rfl ?_
      show _ - _ = _ - _
      split <;> omega
    | false =>
      rw [if_neg (by decide), List.dropWhile_cons_of_neg (by simp [hold]),
        List.takeWhile_cons_of_neg (by simp [hold])]
      simp [bytesOf]

variable {entry : PacketFeedback}

variable {packetId : Int}

theorem find_spec (h : s.find packetId = some entry) :
    entry ∈ s.packetFbHistory ∧ entry.id = packetId :=
  ⟨List.mem_of_find?_eq_some h, by simpa using List.find?_some h⟩

variable {sent : SentPacket}

theorem setSent_eq {h₁ h₂ : List PacketFeedback}
    (h : Increasing (h₁ ++ entry :: h₂)) (hid : sent.packetId = entry.id) :
    setSent (h₁ ++ entry :: h₂) sent = h₁ ++ { entry with sent := sent } :: h₂ := by
  have hkeep : ∀ l : List PacketFeedback, (∀ e ∈ l, e.id ≠ sent.packetId) →
      (l.map fun e => if e.id = sent.packetId then { e with sent := sent } else e) = l := by
    intro l hl
    refine (List.map_congr_left fun e he => ?_).trans (List.map_id l)
    rw [if_neg (hl e he)]
    rfl
  obtain ⟨-, hrest, hcross⟩ := List.pairwise_append.mp h
  rw [setSent, List.map_append, List.map_cons, if_pos hid.symm, hkeep h₁, hkeep h₂]
  · intro e he
    have := List.rel_of_pairwise_cons hrest he
    rw [hid]
    exact this.ne'
  · intro e he
    have := hcross e he entry List.mem_cons_self
    rw [hid]
    exact this.ne

/-- **A packet reported as sent** is in flight from then on, unless it was before or is
acknowledged already. -/
theorem bytesOf_setSent (h : Increasing history) (hmem : entry ∈ history)
    (hid : sent.packetId = entry.id) (hsize : sent.size = entry.sent.size)
    (hfinite : sent.sendTime.isFinite = true) (lastAcked : Int) :
    Increasing (setSent history sent) ∧
      bytesOf (flying lastAcked) (setSent history sent) = bytesOf (flying lastAcked) history +
        if entry.sent.sendTime.isFinite = false ∧ lastAcked < entry.id then (entry.sent.size : Int)
        else 0 := by
  obtain ⟨h₁, h₂, rfl⟩ := List.append_of_mem hmem
  rw [setSent_eq h hid]
  have hsame : PacketFeedback.id { entry with sent := sent } = entry.id := hid
  constructor
  · unfold Increasing Ranked at h ⊢
    rw [← List.pairwise_map (f := PacketFeedback.id)] at h ⊢
    simpa [hsame] using h
  · rw [bytesOf_append, bytesOf_cons, bytesOf_append, bytesOf_cons]
    rw [hsize]
    simp only [flying, hsame, hfinite, Bool.true_and, decide_eq_true_eq]
    by_cases hsent : entry.sent.sendTime.isFinite = true
    · simp only [hsent, Bool.true_and, decide_eq_true_eq, Bool.true_eq_false, false_and, if_false]
      omega
    · rw [Bool.not_eq_true] at hsent
      simp only [hsent, Bool.false_and, Bool.false_eq_true, if_false, true_and]
      omega

/-! ## The invariant -/

/-- The ids increase and the bytes in flight are right. -/
structure Balanced (s : NetworkTransportStatistician) : Prop where
  increasing : Increasing s.packetFbHistory
  bytes : s.inflightBytes = s.inFlight

theorem balanced_addPacket (h : Balanced s) (info : RtpPacketSendInfo) (overheadBytes : Nat)
    {receiveTime : Timestamp}
    (hsettled : s.Settled (.addPacket info overheadBytes receiveTime)) :
    Balanced (s.addPacket info overheadBytes receiveTime) := by
  have hdrop : Increasing (s.packetFbHistory.dropWhile (isOld receiveTime)) :=
    h.increasing.sublist (List.dropWhile_sublist _)
  have hinsert : ∀ e, Increasing (insertBy (fun a b => decide (a < b)) PacketFeedback.id e
      (s.packetFbHistory.dropWhile (isOld receiveTime))) := fun e =>
    @ranked_insertBy Int PacketFeedback Int _ _ _ e _ id
      (fun x _ => ⟨decide_eq_true_iff, decide_eq_true_iff⟩) hdrop
  unfold addPacket
  rw [eraseOld_eq]
  refine ⟨hinsert _, ?_⟩
  show s.inflightBytes - _ = bytesOf (flying s.lastAckedPacketId) (insertBy _ _ _ _)
  rw [bytesOf_insertBy (by rfl), h.bytes, inFlight]
  have hsplit := bytesOf_append (flying s.lastAckedPacketId)
    (s.packetFbHistory.takeWhile (isOld receiveTime))
      (s.packetFbHistory.dropWhile (isOld receiveTime))
  rw [List.takeWhile_append_dropWhile] at hsplit
  have htake : bytesOf (fun e => s.isInFlight e.sent)
    (s.packetFbHistory.takeWhile (isOld receiveTime)) =
      bytesOf (flying s.lastAckedPacketId) (s.packetFbHistory.takeWhile (isOld receiveTime)) := by
    refine bytesOf_congr fun e he => ?_
    show decide (s.lastAckedPacketId < e.id) = flying s.lastAckedPacketId e
    by_cases hlt : s.lastAckedPacketId < e.id
    · simp [flying, hlt, hsettled e he hlt]
    · simp [flying, hlt]
  rw [htake]
  omega

theorem Balanced.report_sent {s' : NetworkTransportStatistician} (h : Balanced s)
    (hmem : entry ∈ s.packetFbHistory)
    (hhistory : s'.packetFbHistory = setSent s.packetFbHistory sent)
    (hid : sent.packetId = entry.id) (hsize : sent.size = entry.sent.size)
    (hfinite : sent.sendTime.isFinite = true) (hacked : s'.lastAckedPacketId = s.lastAckedPacketId)
    (hbytes : s'.inflightBytes = s.inflightBytes +
      if entry.sent.sendTime.isFinite = false ∧ s.lastAckedPacketId < entry.id then
        (entry.sent.size : Int) else 0) : Balanced s' := by
  obtain ⟨hincreasing, hset⟩ :=
    bytesOf_setSent h.increasing hmem hid hsize hfinite s.lastAckedPacketId
  refine ⟨hhistory ▸ hincreasing, ?_⟩
  rw [hbytes, inFlight, hacked, hhistory, hset, h.bytes, inFlight]

theorem balanced_processSentPacket (h : Balanced s) {packet : RtpSentPacket}
    (hsettled : s.Settled (.processSentPacket packet)) :
    Balanced (s.processSentPacket packet).1 := by
  unfold processSentPacket
  cases hid : packet.packetId with
  | none =>
    dsimp only
    split
    · exact ⟨h.increasing, h.bytes⟩
    · exact h
  | some wrapped =>
    have hfinite : packet.sendTime.isFinite = true := hsettled (by rw [hid]; rfl)
    dsimp only
    cases hfind : { s with seqNumUnwrapper := (s.seqNumUnwrapper.unwrap wrapped).2 }.find
        (s.seqNumUnwrapper.unwrap wrapped).1 with
    | none => exact ⟨h.increasing, h.bytes⟩
    | some entry =>
      obtain ⟨hmem, -⟩ := find_spec hfind
      dsimp only
      split
      · -- sent before: the entry counts as it did
        rename_i hretransmit
        refine h.report_sent hmem rfl rfl rfl hfinite rfl ?_
        rw [if_neg (by simp [hretransmit]), add_zero]
      · rename_i hretransmit
        refine h.report_sent hmem rfl rfl rfl hfinite rfl ?_
        rw [Bool.not_eq_true] at hretransmit
        simp only [isInFlight, decide_eq_true_eq, hretransmit, true_and, PacketFeedback.id]
        split <;> simp

/-! ## Feedback -/

theorem balanced_acknowledge (h : Balanced s)
    (hsent : ∀ e ∈ s.packetFbHistory, s.lastAckedPacketId < e.id → e.id ≤ packetId →
      e.sent.sendTime.isFinite = true) : Balanced (s.acknowledge packetId) := by
  unfold acknowledge
  split
  · rename_i hlt
    refine ⟨h.increasing, ?_⟩
    show s.inflightBytes - bytesOf _ s.packetFbHistory = bytesOf (flying packetId) s.packetFbHistory
    have hsplit := bytesOf_split (flying s.lastAckedPacketId) (fun e => decide (e.id ≤ packetId))
      s.packetFbHistory
    have hpassed : bytesOf (fun e => decide (s.lastAckedPacketId < e.id ∧ e.id ≤ packetId))
        s.packetFbHistory =
        bytesOf (fun e => flying s.lastAckedPacketId e && decide (e.id ≤ packetId))
          s.packetFbHistory := by
      refine bytesOf_congr fun e he => ?_
      by_cases hin : s.lastAckedPacketId < e.id ∧ e.id ≤ packetId
      · simp [flying, hin, hsent e he hin.1 hin.2]
      · rw [decide_eq_false hin]
        simp only [flying]
        by_cases h1 : s.lastAckedPacketId < e.id
        · have h2 : ¬ e.id ≤ packetId := fun h2 => hin ⟨h1, h2⟩
          simp [h2]
        · simp [h1]
    have hleft : bytesOf (flying packetId) s.packetFbHistory =
        bytesOf (fun e => flying s.lastAckedPacketId e && !decide (e.id ≤ packetId))
          s.packetFbHistory := by
      refine bytesOf_congr fun e _ => ?_
      by_cases h1 : packetId < e.id
      · have h2 : s.lastAckedPacketId < e.id := by omega
        simp [flying, h1, h2]
      · simp [flying, h1, not_lt.mp h1]
    rw [hpassed, hleft, h.bytes, inFlight]
    omega
  · exact h

theorem acknowledge_history (s : NetworkTransportStatistician) (packetId : Int) :
    (s.acknowledge packetId).packetFbHistory = s.packetFbHistory := by
  unfold acknowledge
  split <;> rfl

theorem acknowledge_unwrapper (s : NetworkTransportStatistician) (packetId : Int) :
    (s.acknowledge packetId).seqNumUnwrapper = s.seqNumUnwrapper := by
  unfold acknowledge
  split <;> rfl

theorem acknowledge_le (s : NetworkTransportStatistician) (packetId : Int) :
    s.lastAckedPacketId ≤ (s.acknowledge packetId).lastAckedPacketId ∧
      packetId ≤ (s.acknowledge packetId).lastAckedPacketId := by
  unfold acknowledge
  split
  · rename_i hlt
    exact ⟨hlt.le, le_refl _⟩
  · rename_i hle
    exact ⟨le_refl _, not_lt.mp hle⟩

theorem balanced_erase (h : Balanced s) (hacked : packetId ≤ s.lastAckedPacketId) :
    Balanced { s with packetFbHistory := erase s.packetFbHistory packetId } := by
  refine ⟨h.increasing.sublist List.filter_sublist, h.bytes.trans ?_⟩
  refine (bytesOf_erase fun e _ hid => ?_).symm
  have hnot : ¬ s.lastAckedPacketId < e.id := by omega
  simp [flying, hnot]

theorem balanced_parsePackets {packets : List ReceivedPacket} (h : Balanced s)
    (hsent : ∀ id ∈ reportedIds s.seqNumUnwrapper packets, ∀ e ∈ s.packetFbHistory,
      s.lastAckedPacketId < e.id → e.id ≤ id → e.sent.sendTime.isFinite = true)
    (offset : Int) (report : TransportPacketsFeedback) :
    Balanced (s.parsePackets offset report packets).1 := by
  induction packets generalizing s offset report with
  | nil => exact h
  | cons packet packets ih =>
    rw [parsePackets]
    dsimp only
    have hs₁ : Balanced { s with
        seqNumUnwrapper := (s.seqNumUnwrapper.unwrap packet.sequenceNumber).2 } :=
      ⟨h.increasing, h.bytes⟩
    have hacked := balanced_acknowledge hs₁ (hsent _ List.mem_cons_self)
    have hle := acknowledge_le { s with
      seqNumUnwrapper := (s.seqNumUnwrapper.unwrap packet.sequenceNumber).2 }
      (s.seqNumUnwrapper.unwrapped packet.sequenceNumber)
    have hhistory := acknowledge_history { s with
      seqNumUnwrapper := (s.seqNumUnwrapper.unwrap packet.sequenceNumber).2 }
      (s.seqNumUnwrapper.unwrapped packet.sequenceNumber)
    have hunwrapper := acknowledge_unwrapper { s with
      seqNumUnwrapper := (s.seqNumUnwrapper.unwrap packet.sequenceNumber).2 }
      (s.seqNumUnwrapper.unwrapped packet.sequenceNumber)
    rw [show (s.seqNumUnwrapper.unwrap packet.sequenceNumber).1 =
      s.seqNumUnwrapper.unwrapped packet.sequenceNumber from rfl]
    generalize { s with
      seqNumUnwrapper := (s.seqNumUnwrapper.unwrap packet.sequenceNumber).2 }.acknowledge
      (s.seqNumUnwrapper.unwrapped packet.sequenceNumber) = s₂ at hacked hle hhistory hunwrapper ⊢
    -- what is left of the history is still passed only where it was sent
    have hrest : ∀ history : List PacketFeedback, (∀ e ∈ history, e ∈ s.packetFbHistory) →
        ∀ id ∈ reportedIds s₂.seqNumUnwrapper packets, ∀ e ∈ history,
          s₂.lastAckedPacketId < e.id → e.id ≤ id → e.sent.sendTime.isFinite = true := by
      intro history hsub id hid e he hlt
      rw [hunwrapper] at hid
      exact hsent id (List.mem_cons_of_mem _ hid) e (hsub e he) (lt_of_le_of_lt hle.1 hlt)
    have hkeep := hrest s₂.packetFbHistory (fun e he => hhistory ▸ he)
    cases hfind : s₂.find (s.seqNumUnwrapper.unwrapped packet.sequenceNumber) with
    | none => exact ih hacked hkeep _ _
    | some entry =>
      dsimp only
      split
      · exact ih hacked hkeep _ _
      · cases packet.deltaTicks with
        | none => exact ih hacked hkeep _ _
        | some ticks =>
          refine ih (balanced_erase hacked hle.2) (hrest _ fun e he => ?_) _ _
          exact hhistory ▸ List.mem_of_mem_filter he

theorem balanced_step (h : Balanced s) {op : Op} (hsettled : s.Settled op) :
    Balanced (s.step op) := by
  cases op with
  | addPacket info overheadBytes receiveTime =>
    exact balanced_addPacket h info overheadBytes hsettled
  | processSentPacket packet => exact balanced_processSentPacket h hsettled
  | processTransportFeedback feedback receiveTime =>
    show Balanced (s.processTransportFeedback feedback receiveTime).1
    unfold processTransportFeedback
    split
    · exact h
    · rename_i hcount
      have hrebased : Balanced (s.rebase feedback receiveTime) := ⟨h.increasing, h.bytes⟩
      have hparsed := balanced_parsePackets hrebased (hsettled hcount) 0
        { receiveTime := receiveTime, firstUnackedSendTime := .plusInfinity
          lastAckedRecvTime := .minusInfinity, bytesInFlight := 0, priorInFlight := s.inflightBytes
          packetFeedbacks := [] }
      dsimp only
      split <;> exact hparsed

/-- **The bytes in flight are right** in every run of settled calls: they are the sizes of
the packets in the history that have a send time and an id above the last acknowledged one,
and so never negative. -/
theorem inflight_accounting (ops : List Op)
    (hsettled : statisticianMachine.AllGood Settled create ops) :
    let s := statisticianMachine.final create ops
    s.inflightBytes = ((s.packetFbHistory.filter fun e =>
        e.sent.sendTime.isFinite && decide (s.lastAckedPacketId < e.id)).map
          fun e => (e.sent.size : Int)).sum ∧
      0 ≤ s.inflightBytes := by
  intro s
  have hcreate : Balanced create := ⟨List.Pairwise.nil, rfl⟩
  have hstep : ∀ s op, Balanced s → s.Settled op → Balanced (s.step op) :=
    fun s op h hop => balanced_step h hop
  have h : Balanced s := statisticianMachine.invariant_final hstep hcreate hsettled
  exact ⟨h.bytes, h.bytes ▸ bytesOf_nonneg _ _⟩

/-- A packet of 100 bytes. -/
def hundredBytes (packetId : U16) : RtpPacketSendInfo :=
  { packetId := packetId, packetSize := 100, packetType := some .video }

/-- A feedback that reports one packet as received. -/
def feedbackOf (packetId : U16) : TransportFeedback :=
  ((TransportFeedback.create true true).setBase packetId 64000).addReceivedPacket packetId 64000 |>.2

theorem inflight_accounting_two_packets :
    let ops := [Op.addPacket (hundredBytes 1) 0 (.micros 0),
      .addPacket (hundredBytes 2) 0 (.micros 0),
      .processSentPacket ⟨.micros 5, some 1, 100, false⟩,
        .processSentPacket ⟨.micros 6, some 2, 100, false⟩,
      .processTransportFeedback (feedbackOf 1) (.micros 50)]
    statisticianMachine.AllGood Settled create ops ∧
      (statisticianMachine.final create ops).inflightBytes = 100 := by
  intro ops
  have hsettled : statisticianMachine.AllGood Settled create ops := by decide
  exact ⟨hsettled, (inflight_accounting ops hsettled).1.trans (by decide)⟩

/-- **A packet that was added but not sent** is taken off the bytes in flight when a
feedback passes it. -/
theorem unsent_packet_acknowledged :
    let s := statisticianMachine.final create
      [.addPacket (hundredBytes 1) 0 (.micros 0),
        .processTransportFeedback (feedbackOf 1) (.micros 50)]
    s.inflightBytes = -100 ∧ s.inFlight = 0 := by
  decide

end NetworkTransportStatistician

end NaiveRtc.CongestionControl
