import NaiveRtc.Pacing.QueueContents

/-!
# The packet queue loses and duplicates nothing

Over every run: what was pushed is what was popped together with what still waits, the
packets of one kind come out in the order they went in, and the assertions hold.

* `entered`, `left` — what a run puts in and takes out.
* `sound_final`, `entered_perm` — the links and the balance of a run.
* `next_least` — what `Pop` takes is the least of its SSRC.
* `left_prefix` — first in, first out.
* `queue_lossless` — all of it for every run.
-/

namespace NaiveRtc.Pacing

open Ordered

namespace RoundRobinPacketQueue

variable {R : Stream → PrioEntry → Prop} {q : RoundRobinPacketQueue}

/-! ## Runs -/

/-- The packets a run puts in, in order. -/
def entered (q : RoundRobinPacketQueue) : List Op → List QueuedPacket
  | [] => []
  | op :: ops => q.entering op ++ entered (q.step op).1 ops

/-- The packets a run takes out, in order. -/
def left (q : RoundRobinPacketQueue) : List Op → List QueuedPacket
  | [] => []
  | op :: ops => q.leaving op ++ left (q.step op).1 ops

theorem entered_append (q : RoundRobinPacketQueue) (ops ops' : List Op) :
    q.entered (ops ++ ops') = q.entered ops ++ (queueMachine.final q ops).entered ops' := by
  induction ops generalizing q with
  | nil => rfl
  | cons op ops ih =>
    rw [List.cons_append, entered, entered, ih, List.append_assoc]
    rfl

theorem left_append (q : RoundRobinPacketQueue) (ops ops' : List Op) :
    q.left (ops ++ ops') = q.left ops ++ (queueMachine.final q ops).left ops' := by
  induction ops generalizing q with
  | nil => rfl
  | cons op ops ih =>
    rw [List.cons_append, left, left, ih, List.append_assoc]
    rfl

/-- What a `Push` is given, the time aside. -/
def Op.pushed : Op → Option (Int × Nat × RtpPacketToSend)
  | .push priority _ enqueueOrder packet => some (priority, enqueueOrder, packet)
  | _ => none

theorem entered_eq (q : RoundRobinPacketQueue) (ops : List Op) :
    (q.entered ops).map (fun p => (p.priority, p.enqueueOrder, p.ownedPacket)) =
      ops.filterMap Op.pushed := by
  induction ops generalizing q with
  | nil => rfl
  | cons op ops ih =>
    rw [entered, List.map_append, ih]
    cases op <;> rfl

/-- The links hold without any relation between a stream and its node. -/
abbrev Sound (q : RoundRobinPacketQueue) : Prop := Linked (fun _ _ => True) q

theorem sound_step (h : Sound q) (op : Op) :
    Sound (q.step op).1 ∧ (q.entering op ++ q.contents).Perm
      (q.leaving op ++ (q.step op).1.contents) := by
  refine linked_step h (fun _ _ _ _ _ => trivial) ?_
  cases op with
  | push => exact ⟨fun _ _ _ _ _ _ _ _ _ => trivial, fun _ _ _ _ _ _ _ _ _ => trivial⟩
  | setIncludeOverhead => exact fun _ _ _ _ _ _ _ _ _ => trivial
  | setTransportOverhead => exact fun _ _ _ _ _ _ _ _ _ => trivial
  | pop => trivial
  | updateEnqueueTime => trivial
  | setPauseState => trivial

theorem sound_final (h : Sound q) (ops : List Op) : Sound (queueMachine.final q ops) :=
  queueMachine.invariant_of_step Sound (fun _ op h => (sound_step h op).1) h ops

theorem leaving_eq (h : Sound q) (op : Op) :
    (q.leaving op).map QueuedPacket.ownedPacket = (q.step op).2.toList := by
  cases op with
  | pop =>
    have hout : (q.step .pop).2 = q.next.map QueuedPacket.ownedPacket :=
      (pop_spec h fun _ _ _ _ _ => trivial).2.1
    rw [hout]
    cases hnext : q.next <;> simp [leaving, hnext, QueuedPacket.forget]
  | push => rfl
  | updateEnqueueTime => rfl
  | setPauseState => rfl
  | setIncludeOverhead => rfl
  | setTransportOverhead => rfl

theorem left_eq (h : Sound q) (ops : List Op) :
    (q.left ops).map QueuedPacket.ownedPacket = (queueMachine.log q ops).filterMap Prod.snd := by
  induction ops generalizing q with
  | nil => rfl
  | cons op ops ih =>
    rw [left, List.map_append, leaving_eq h, ih (sound_step h op).1, Machine.log_cons]
    show (q.step op).2.toList ++ _ = List.filterMap Prod.snd ((op, (q.step op).2) :: _)
    cases (q.step op).2 <;> rfl

theorem entered_perm (h : Sound q) (ops : List Op) :
    (q.contents ++ q.entered ops).Perm (q.left ops ++ (queueMachine.final q ops).contents) := by
  induction ops generalizing q with
  | nil => exact List.Perm.of_eq (List.append_nil _)
  | cons op ops ih =>
    obtain ⟨hsound, hperm⟩ := sound_step h op
    calc q.contents ++ q.entered (op :: ops)
        _ = (q.contents ++ q.entering op) ++ (q.step op).1.entered ops :=
          (List.append_assoc _ _ _).symm
        List.Perm _ ((q.leaving op ++ (q.step op).1.contents) ++ (q.step op).1.entered ops) :=
          (List.perm_append_comm.trans hperm).append_right _
        _ = q.leaving op ++ ((q.step op).1.contents ++ (q.step op).1.entered ops) :=
          List.append_assoc _ _ _
        List.Perm _ (q.leaving op ++ ((q.step op).1.left ops ++
            (queueMachine.final (q.step op).1 ops).contents)) :=
          (ih hsound).append_left _
        _ = q.left (op :: ops) ++ (queueMachine.final q (op :: ops)).contents :=
          (List.append_assoc _ _ _).symm

/-! ## First in, first out -/

theorem next_least (h : Linked R q) {p p' : QueuedPacket} (hnext : q.next = some p)
    (hp' : p' ∈ q.packets) (hssrc : p'.ssrc = p.ssrc) : p.rank ≤ p'.rank := by
  rcases next_eq_some h hnext with hpackets |
    ⟨hpackets, first, others, stream, rest, -, hs, -, hqueue⟩
  · rw [hpackets, List.mem_singleton] at hp'
    rw [hp']
  · rw [hpackets] at hp'
    obtain ⟨t, ht, hmem⟩ := List.mem_flatMap.mp hp'
    -- one SSRC, one stream
    have hpt : p.ssrc = stream.ssrc :=
      h.scheduled.own stream hs p (by rw [hqueue]; exact List.mem_cons_self)
    have hts : t = stream := by
      refine h.scheduled.ssrc_inj ht hs ?_
      rw [← h.scheduled.own t ht p' hmem, hssrc, hpt]
    rw [hts, hqueue] at hmem
    have hheap := h.scheduled.heap stream hs
    rw [hqueue] at hheap
    rcases List.mem_cons.mp hmem with rfl | hmem
    · exact le_refl _
    · exact List.rel_of_pairwise_cons hheap hmem

/-- The packets of one SSRC, one priority and one class. -/
def ofKind (ssrc : U32) (priority : Int) (retransmission : Bool) (p : QueuedPacket) : Bool :=
  p.ssrc = ssrc && p.priority = priority && p.isRetransmission = retransmission

theorem ofKind_iff {ssrc : U32} {priority : Int} {retransmission : Bool} {p : QueuedPacket} :
    ofKind ssrc priority retransmission p = true ↔
      p.ssrc = ssrc ∧ p.priority = priority ∧ p.isRetransmission = retransmission := by
  simp [ofKind, and_assoc]

theorem enqueueOrder_le {p p' : QueuedPacket} (hrank : p.rank ≤ p'.rank)
    (hpriority : p.priority = p'.priority) (hretr : p.isRetransmission = p'.isRetransmission) :
    p.enqueueOrder ≤ p'.enqueueOrder := by
  rw [QueuedPacket.rank, QueuedPacket.rank, Prod.Lex.toLex_le_toLex,
    Prod.Lex.toLex_le_toLex] at hrank
  simpa [hpriority, hretr] using hrank

theorem prefix_next (h : Sound q) {all out : List QueuedPacket}
    (hsorted : all.Pairwise fun p p' => p.enqueueOrder < p'.enqueueOrder)
    (hbalance : all.Perm (out ++ q.contents)) (ssrc : U32) (priority : Int) (retransmission : Bool)
    (hbefore : out.filter (ofKind ssrc priority retransmission) <+:
      all.filter (ofKind ssrc priority retransmission)) :
    (out ++ q.leaving .pop).filter (ofKind ssrc priority retransmission) <+:
      all.filter (ofKind ssrc priority retransmission) := by
  obtain ⟨-, -, hperm, -⟩ := pop_spec h fun _ _ _ _ _ => trivial
  cases hnext : q.next with
  | none => simpa [leaving, hnext] using hbefore
  | some p =>
    have hleaving : q.leaving .pop = [p.forget] := by simp [leaving, hnext]
    rw [hleaving, List.filter_append, List.filter_singleton]
    by_cases hkind : ofKind ssrc priority retransmission p.forget = true
    · rw [hkind]
      have hfiltered := hbalance.filter (ofKind ssrc priority retransmission)
      rw [List.filter_append] at hfiltered
      refine prefix_concat_of_least (hsorted.filter _) hfiltered hbefore ?_ ?_
      · rw [hnext] at hperm
        exact List.mem_filter.mpr ⟨hperm.mem_iff.mpr List.mem_cons_self, hkind⟩
      · intro p' hp'
        obtain ⟨hmem, hkind'⟩ := List.mem_filter.mp hp'
        obtain ⟨p'', hp'', rfl⟩ := List.mem_map.mp hmem
        obtain ⟨h1, h2, h3⟩ := ofKind_iff.mp hkind
        obtain ⟨h1', h2', h3'⟩ := ofKind_iff.mp hkind'
        have hrank : p.rank ≤ p''.rank := next_least h hnext hp'' (h1'.trans h1.symm)
        exact enqueueOrder_le hrank (h2.trans h2'.symm) (h3.trans h3'.symm)
    · rw [Bool.not_eq_true] at hkind
      rw [hkind]
      simpa using hbefore

/-- **First in, first out**: what has come out of one kind is the beginning of what went in. -/
theorem left_prefix (h : Sound q) (hempty : q.contents = []) (ops : List Op)
    (hsorted : (q.entered ops).Pairwise fun p p' => p.enqueueOrder < p'.enqueueOrder)
    (ssrc : U32) (priority : Int) (retransmission : Bool) :
    (q.left ops).filter (ofKind ssrc priority retransmission) <+:
      (q.entered ops).filter (ofKind ssrc priority retransmission) := by
  induction ops using List.reverseRecOn with
  | nil => exact List.nil_prefix
  | append_singleton ops op ih =>
    rw [entered_append] at hsorted ⊢
    have hsorted₁ := (List.pairwise_append.mp hsorted).1
    have hbalance := entered_perm h ops
    rw [hempty, List.nil_append] at hbalance
    have hsound := sound_final h ops
    have hmore : (q.entered ops).filter (ofKind ssrc priority retransmission) <+:
        (q.entered ops ++ (queueMachine.final q ops).entered [op]).filter
          (ofKind ssrc priority retransmission) := by
      rw [List.filter_append]
      exact List.prefix_append _ _
    refine List.IsPrefix.trans ?_ hmore
    rw [left_append]
    generalize queueMachine.final q ops = q₁ at hsound hbalance ⊢
    rw [show q₁.left [op] = q₁.leaving op from List.append_nil _]
    cases op with
    | pop => exact prefix_next hsound hsorted₁ hbalance ssrc priority retransmission (ih hsorted₁)
    | push => simpa [leaving] using ih hsorted₁
    | updateEnqueueTime => simpa [leaving] using ih hsorted₁
    | setPauseState => simpa [leaving] using ih hsorted₁
    | setIncludeOverhead => simpa [leaving] using ih hsorted₁
    | setTransportOverhead => simpa [leaving] using ih hsorted₁

/-! ## Draining -/

theorem numPackets_eq (h : Linked R q) : q.numPackets = q.contents.length := by
  rw [h.count, contents, List.length_map]

theorem drained (h : Sound q) {n : Nat} (hn : q.numPackets = n) :
    (queueMachine.final q (List.replicate n .pop)).contents = [] := by
  induction n generalizing q with
  | zero => exact List.length_eq_zero_iff.mp ((numPackets_eq h).symm.trans hn)
  | succ n ih =>
    obtain ⟨hsound, -, hperm, hsome⟩ := pop_spec h fun _ _ _ _ _ => trivial
    obtain ⟨p, hp⟩ := hsome (by omega)
    rw [hp] at hperm
    refine ih hsound ?_
    have hlength : q.contents.length = q.pop.1.contents.length + 1 := hperm.length_eq
    have hbefore := numPackets_eq h
    have hafter : q.pop.1.numPackets = q.pop.1.contents.length := numPackets_eq hsound
    show q.pop.1.numPackets = n
    omega

/-! ## Assertions -/

theorem emptyAssert_of_linked (h : Linked R q) : q.emptyAssert = true := by
  unfold emptyAssert
  by_cases hnum : q.numPackets = 0
  · rw [if_pos hnum]
    have hnil : q.packets = [] := List.length_eq_zero_iff.mp (h.count.symm.trans hnum)
    obtain ⟨hsingle, hqueued⟩ := List.append_eq_nil_iff.mp hnil
    rw [streamPriorities_eq_nil h.toBody hqueued]
    cases hs : q.singlePacketQueue with
    | none => rfl
    | some p =>
      rw [hs] at hsingle
      cases hsingle
  · rw [if_neg hnum]
    cases hs : q.singlePacketQueue with
    | some p => rfl
    | none =>
      cases hprios : q.streamPriorities with
      | cons first others => rfl
      | nil =>
        rw [h.count, packets_of_none hs, queued_eq_nil h.toBody hprios] at hnum
        exact absurd rfl hnum

theorem isEmptyStreamAssert_of_linked (h : Linked R q) {stream : Stream} (hs : stream ∈ q.streams) :
    isEmptyStreamAssert stream = true := by
  unfold isEmptyStreamAssert
  cases hqueue : stream.packetQueue with
  | nil => simp [h.scheduled.idle stream hs hqueue]
  | cons p rest =>
    obtain ⟨e, -, hit, -⟩ := h.scheduled.busy stream hs (by simp [hqueue])
    simp [hit]

theorem popAssert_of_linked (h : Linked R q) : q.popAssert = true := by
  unfold popAssert
  rcases pop_cases h with ⟨hnil, hnone, -⟩ | ⟨single, hsingle, -, -, -⟩ |
    ⟨hnone, first, others, stream, packet, rest, -, hs, -, hqueue, hstream, -, -⟩
  · have hsingle : q.singlePacketQueue = none := by
      cases hs : q.singlePacketQueue with
      | none => rfl
      | some p => simp [packets, hs] at hnil
    have hprios := streamPriorities_eq_nil h.toBody (packets_of_none hsingle ▸ hnil)
    simp [hsingle, getHighestPriorityStream, hprios]
  · rw [hsingle]
  · rw [hnone]
    dsimp only
    rw [hstream]
    dsimp only
    have hmem : packet ∈ q.queued :=
      List.mem_flatMap.mpr ⟨stream, hs, by rw [hqueue]; exact List.mem_cons_self⟩
    obtain ⟨e, he, hit⟩ := h.timed.has packet hmem
    rw [isEmptyStreamAssert_of_linked h hs, hqueue]
    dsimp only
    rw [hit, Bool.true_and, List.any_eq_true]
    exact ⟨e, he, by simp⟩

/-! ## Every run -/

/-- **The queue loses and duplicates nothing**, in every run of pushes, pops and setters.
What went in is what came out together with what waits; `Pop` returns a packet whenever
there is one; popping until the queue is empty returns exactly what was pushed; when the
enqueue orders increase, the packets of one SSRC, priority and class come out in the order
they were pushed; the assertions hold and `Pop` never subtracts below zero. -/
theorem queue_lossless (startTime : Int) (ops : List Op) :
    let q₀ := create startTime
    let q := queueMachine.final q₀ ops
    let drain := List.replicate q.numPackets Op.pop
    (q₀.entered ops).map (fun p => (p.priority, p.enqueueOrder, p.ownedPacket)) =
        ops.filterMap Op.pushed ∧
      (q₀.left ops).map QueuedPacket.ownedPacket = (queueMachine.log q₀ ops).filterMap Prod.snd ∧
      (q₀.entered ops).Perm (q₀.left ops ++ q.contents) ∧
      q.numPackets = q.contents.length ∧
      (0 < q.numPackets → q.pop.2.isSome) ∧
      (queueMachine.final q₀ (ops ++ drain)).numPackets = 0 ∧
      (q₀.entered ops).Perm (q₀.left (ops ++ drain)) ∧
      ((q₀.entered ops).Pairwise (fun p p' => p.enqueueOrder < p'.enqueueOrder) →
        ∀ ssrc priority retransmission,
          (q₀.left ops).filter (ofKind ssrc priority retransmission) <+:
            (q₀.entered ops).filter (ofKind ssrc priority retransmission)) ∧
      q.emptyAssert ∧ q.popAssert ∧ (∀ stream ∈ q.streams, isEmptyStreamAssert stream) ∧
      kMaxLeadingSize ≤ q.maxStreamSentSize := by
  intro q₀ q drain
  have hsound₀ : Sound q₀ := linked_create startTime
  have hsound : Sound q := sound_final hsound₀ ops
  have hbalance : (q₀.entered ops).Perm (q₀.left ops ++ q.contents) := entered_perm hsound₀ ops
  have hdrained : (queueMachine.final q₀ (ops ++ drain)).contents = [] := by
    rw [Machine.final_append]
    exact drained hsound rfl
  have hpops : q₀.entered (ops ++ drain) = q₀.entered ops := by
    have hnothing : ∀ (n : Nat) (q : RoundRobinPacketQueue),
      q.entered (List.replicate n .pop) = [] := by
      intro n
      induction n with
      | zero => exact fun q => rfl
      | succ n ih => exact fun q => ih _
    rw [entered_append, hnothing, List.append_nil]
  refine ⟨entered_eq q₀ ops, left_eq hsound₀ ops, hbalance, numPackets_eq hsound, ?_, ?_, ?_, ?_,
    emptyAssert_of_linked hsound, popAssert_of_linked hsound,
    fun stream hs => isEmptyStreamAssert_of_linked hsound hs, hsound.leading⟩
  · intro hpos
    obtain ⟨-, hout, -, hsome⟩ := pop_spec hsound fun _ _ _ _ _ => trivial
    obtain ⟨p, hp⟩ := hsome (by omega)
    rw [hout, hp]
    rfl
  · rw [numPackets_eq (sound_final hsound₀ _), hdrained]
    rfl
  · have hall : (q₀.entered (ops ++ drain)).Perm
        (q₀.left (ops ++ drain) ++ (queueMachine.final q₀ (ops ++ drain)).contents) :=
      entered_perm hsound₀ (ops ++ drain)
    rwa [hpops, hdrained, List.append_nil] at hall
  · exact fun hsorted => left_prefix hsound₀ rfl ops hsorted

end RoundRobinPacketQueue

end NaiveRtc.Pacing
