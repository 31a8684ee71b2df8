import NaiveRtc.Pacing.QueueStructure

/-!
# What each call does to the packet queue

The links of the containers together with the fast path, and one specification for each
call: which packet goes in or comes out, and what happens to the counters.

* `packets`, `Linked` — the contents and the invariant of the representation.
* `promote_spec`, `push_spec`, `pop_spec` — the calls.
* `linked_step` — every call keeps the invariant and moves the packets it says it moves.
-/

namespace NaiveRtc.Pacing

/-- A packet without its iterator. -/
def QueuedPacket.forget (p : QueuedPacket) : QueuedPacket := { p with enqueueTimeIt := none }

namespace RoundRobinPacketQueue

variable {R : Stream → PrioEntry → Prop} {q : RoundRobinPacketQueue}

/-- All packets in the queue. -/
def packets (q : RoundRobinPacketQueue) : List QueuedPacket :=
  q.singlePacketQueue.toList ++ q.queued

/-- What the queue holds, iterators aside. -/
def contents (q : RoundRobinPacketQueue) : List QueuedPacket := q.packets.map QueuedPacket.forget

/-- The invariant of the representation. -/
structure Linked (R : Stream → PrioEntry → Prop) (q : RoundRobinPacketQueue) : Prop
    extends Body R q where
  single : ∀ p, q.singlePacketQueue = some p → q.streamPriorities = [] ∧ p.enqueueTimeIt = none
  count : q.numPackets = q.packets.length

theorem linked_create (startTime : Int) : Linked R (create startTime) where
  scheduled := ⟨by simp [create], by simp [create], by simp [create], by simp [create],
    by simp [create], by simp [create], by simp [create], by simp [create], by simp [create]⟩
  timed := ⟨by simp [create, queued], by simp [create, queued], by simp [create]⟩
  leading := le_refl _
  single := by simp [create]
  count := rfl

variable {p : QueuedPacket}

theorem Linked.packets_of_single (h : Linked R q)
    (hp : q.singlePacketQueue = some p) : q.packets = [p] := by
  rw [packets, hp, queued_eq_nil h.toBody (h.single p hp).1]
  rfl

theorem packets_of_none (hnone : q.singlePacketQueue = none) : q.packets = q.queued := by
  rw [packets, hnone]
  rfl

theorem Linked.update (h : Linked R q) (atTime : Int) : Linked R (q.updateEnqueueTime atTime) := by
  rw [updateEnqueueTime_eq]
  exact ⟨⟨h.scheduled, h.timed, h.leading⟩, h.single, h.count⟩

theorem Linked.recount (h : Linked R q) (paused includeOverhead : Bool) (total : Int)
    (transportOverhead : Nat) :
    Linked R { q with
      paused := paused, includeOverhead := includeOverhead, totalQueuedSize := total
      transportOverhead := transportOverhead } :=
  ⟨⟨h.scheduled, h.timed, h.leading⟩, h.single, h.count⟩

theorem promote_spec (h : Linked R q)
    (hfits : ∀ p, q.singlePacketQueue = some p → Fits R q p) :
    Linked R q.maybePromoteSinglePacketToNormalQueue ∧
      q.maybePromoteSinglePacketToNormalQueue.singlePacketQueue = none ∧
      SameCounters q q.maybePromoteSinglePacketToNormalQueue ∧
      q.maybePromoteSinglePacketToNormalQueue.contents.Perm q.contents := by
  unfold maybePromoteSinglePacketToNormalQueue
  cases hsingle : q.singlePacketQueue with
  | none => exact ⟨h, hsingle, ⟨rfl, rfl, rfl, rfl, rfl, rfl, rfl, rfl, rfl⟩, List.Perm.refl _⟩
  | some p =>
    dsimp only
    obtain ⟨hprios, hit⟩ := h.single p hsingle
    obtain ⟨hbody, hsame, it, hperm⟩ := pushQueued_of_none h.toBody (hfits p hsingle) hit
    rw [queued_eq_nil h.toBody hprios] at hperm
    have hpackets : (packets { q.pushQueued p with singlePacketQueue := none }).Perm
        [{ p with enqueueTimeIt := some it }] := hperm
    refine ⟨⟨⟨hbody.scheduled, hbody.timed, hbody.leading⟩, by simp, ?_⟩, rfl, ?_, ?_⟩
    · have hone : q.packets.length = 1 := by rw [h.packets_of_single hsingle]; rfl
      exact hsame.numPackets.trans (h.count.trans (hone.trans hpackets.length_eq.symm))
    · exact ⟨hsame.timeLastUpdate, hsame.maxStreamSentSize, hsame.paused, hsame.numPackets,
        hsame.totalQueuedSize, hsame.queueTimeSum, hsame.pauseTimeSum, hsame.includeOverhead,
        hsame.transportOverhead⟩
    · rw [contents, contents, h.packets_of_single hsingle]
      exact hpackets.map _

/-- The packet as `Push` stores it, iterator aside. -/
def stored (q : RoundRobinPacketQueue) (priority enqueueTime : Int) (enqueueOrder : Nat)
    (packet : RtpPacketToSend) : QueuedPacket :=
  { priority := priority
    enqueueTime := enqueueTime - (q.updateEnqueueTime enqueueTime).pauseTimeSum
    enqueueOrder := enqueueOrder, enqueueTimeIt := none, ownedPacket := packet }

/-- The counters after a push. -/
def counted (q : RoundRobinPacketQueue) (enqueueTime : Int) (packet : QueuedPacket) :
    RoundRobinPacketQueue :=
  let u := q.updateEnqueueTime enqueueTime
  { u with
    numPackets := u.numPackets + 1
    totalQueuedSize := u.totalQueuedSize + u.packetSize packet }

theorem SameCounters.trans {q₁ q₂ q₃ : RoundRobinPacketQueue} (h : SameCounters q₁ q₂)
    (h' : SameCounters q₂ q₃) : SameCounters q₁ q₃ :=
  ⟨h'.timeLastUpdate.trans h.timeLastUpdate, h'.maxStreamSentSize.trans h.maxStreamSentSize,
    h'.paused.trans h.paused, h'.numPackets.trans h.numPackets,
    h'.totalQueuedSize.trans h.totalQueuedSize, h'.queueTimeSum.trans h.queueTimeSum,
    h'.pauseTimeSum.trans h.pauseTimeSum, h'.includeOverhead.trans h.includeOverhead,
    h'.transportOverhead.trans h.transportOverhead⟩

theorem SameCounters.counted {q q₁ : RoundRobinPacketQueue} (h : SameCounters q q₁)
    (enqueueTime : Int)
    {p p₁ : QueuedPacket} (hp : p₁.ownedPacket = p.ownedPacket) :
    SameCounters (q.counted enqueueTime p) (q₁.counted enqueueTime p₁) := by
  obtain ⟨h1, h2, h3, h4, h5, h6, h7, h8, h9⟩ := h
  constructor <;>
    simp only [RoundRobinPacketQueue.counted, updateEnqueueTime_eq, packetSize, hp, h1, h2, h3, h4,
      h5, h6, h7, h8, h9]

theorem push_streams {q₁ : RoundRobinPacketQueue} (h : Linked R q₁)
    (hnone : q₁.singlePacketQueue = none) (hsame : SameCounters q q₁)
    (hcontents : q₁.contents.Perm q.contents) {priority enqueueTime : Int} {enqueueOrder : Nat}
    {packet : RtpPacketToSend}
    (hfits : ∀ it, Fits R q₁ ⟨priority, enqueueTime, enqueueOrder, some it, packet⟩) :
    let q' := (q₁.insertEnqueueTime enqueueTime).1.pushQueued
      ⟨priority, enqueueTime, enqueueOrder, some q₁.nextNode, packet⟩
    Linked R q' ∧
      SameCounters (q.counted enqueueTime (q.stored priority enqueueTime enqueueOrder packet)) q' ∧
      q'.contents.Perm (q.stored priority enqueueTime enqueueOrder packet :: q.contents) := by
  intro q'
  have htimed := h.timed.insert (p := ⟨priority, enqueueTime, enqueueOrder, some q₁.nextNode, packet⟩)
    ⟨le_refl _, Nat.lt_succ_self q₁.nextNode⟩ enqueueTime rfl
  have hbody : Body R (q₁.insertEnqueueTime enqueueTime).1 :=
    ⟨h.scheduled.mono (Nat.le_succ _), ⟨(List.nodup_cons.mp htimed.nodes).2,
      fun p hp => htimed.has p (List.mem_cons_of_mem _ hp), htimed.fresh⟩, h.leading⟩
  obtain ⟨hbody', hscalars, hperm⟩ := pushQueued_of_some hbody (hfits q₁.nextNode) (by simp) htimed
  have hpause : ((q₁.insertEnqueueTime enqueueTime).1.updateEnqueueTime enqueueTime).pauseTimeSum =
      (q.updateEnqueueTime enqueueTime).pauseTimeSum := by
    simp only [updateEnqueueTime_eq, insertEnqueueTime, hsame.pauseTimeSum, hsame.paused,
      hsame.timeLastUpdate]
  have hsingle : q'.singlePacketQueue = none := by
    refine hscalars.singlePacketQueue.trans ?_
    exact (update_singlePacketQueue _ _).trans hnone
  have hqueued : (q₁.insertEnqueueTime enqueueTime).1.queued = q₁.packets :=
    (packets_of_none hnone).symm
  rw [hqueued] at hperm
  have hlength : q'.packets.length = q₁.packets.length + 1 := by
    rw [packets_of_none hsingle]
    exact hperm.length_eq
  have hnum : q'.numPackets = q₁.numPackets + 1 := by
    refine hscalars.numPackets.trans ?_
    exact congrArg (· + 1) (update_numPackets _ _)
  refine ⟨⟨hbody', ?_, ?_⟩, ?_, ?_⟩
  · intro p hp
    rw [hsingle] at hp
    cases hp
  · rw [hnum, hlength, h.count]
  · have hbefore : SameCounters q (q₁.insertEnqueueTime enqueueTime).1 :=
      ⟨hsame.timeLastUpdate, hsame.maxStreamSentSize, hsame.paused, hsame.numPackets,
        hsame.totalQueuedSize, hsame.queueTimeSum, hsame.pauseTimeSum, hsame.includeOverhead,
        hsame.transportOverhead⟩
    exact (hbefore.counted enqueueTime rfl).trans hscalars.toSameCounters
  · rw [contents, packets_of_none hsingle]
    refine (hperm.map QueuedPacket.forget).trans ?_
    rw [List.map_cons]
    refine List.Perm.trans (List.Perm.cons _ hcontents) (List.Perm.of_eq ?_)
    refine congrArg (· :: q.contents) ?_
    show QueuedPacket.forget (QueuedPacket.subtractPauseTime _ _) = _
    rw [hpause]
    rfl

theorem push_spec (h : Linked R q) (priority enqueueTime : Int) (enqueueOrder : Nat)
    (packet : RtpPacketToSend)
    (hsingle : ∀ p, q.singlePacketQueue = some p → Fits R q p)
    (hfits : q.numPackets ≠ 0 → ∀ it, Fits R q.maybePromoteSinglePacketToNormalQueue
      ⟨priority, enqueueTime, enqueueOrder, some it, packet⟩) :
    Linked R (q.push priority enqueueTime enqueueOrder packet) ∧
      SameCounters (q.counted enqueueTime (q.stored priority enqueueTime enqueueOrder packet))
        (q.push priority enqueueTime enqueueOrder packet) ∧
      (q.push priority enqueueTime enqueueOrder packet).contents.Perm
        (q.stored priority enqueueTime enqueueOrder packet :: q.contents) := by
  unfold push
  by_cases hnum : q.numPackets = 0
  · -- the fast path
    have hnil : q.packets = [] := List.length_eq_zero_iff.mp (h.count.symm.trans hnum)
    have hnone : q.queued = [] := (List.append_eq_nil_iff.mp hnil).2
    rw [if_pos hnum]
    have hu := h.update enqueueTime
    refine ⟨⟨⟨hu.scheduled, hu.timed, hu.leading⟩, ?_, ?_⟩, ?_, ?_⟩
    · rintro p ⟨⟩
      refine ⟨?_, rfl⟩
      show (q.updateEnqueueTime enqueueTime).streamPriorities = []
      rw [update_streamPriorities]
      exact streamPriorities_eq_nil h.toBody hnone
    · show 1 = (q.updateEnqueueTime enqueueTime).queued.length + 1
      rw [update_queued, hnone]
      rfl
    · refine ⟨rfl, rfl, rfl, ?_, rfl, rfl, rfl, rfl, rfl⟩
      show 1 = (q.updateEnqueueTime enqueueTime).numPackets + 1
      rw [update_numPackets, hnum]
    · have hcontents : q.contents = [] := by rw [contents, hnil]; rfl
      rw [hcontents]
      show List.Perm (_ :: (q.updateEnqueueTime enqueueTime).queued.map QueuedPacket.forget) _
      rw [update_queued, hnone]
      exact List.Perm.refl _
  · -- the streams
    rw [if_neg hnum]
    obtain ⟨hlinked, hnone, hsame, hcontents⟩ := promote_spec h hsingle
    have hfits := hfits hnum
    generalize q.maybePromoteSinglePacketToNormalQueue = q₁ at hlinked hnone hsame hcontents hfits ⊢
    exact push_streams hlinked hnone hsame hcontents hfits

/-! ## Pop -/

/-- The packet that `Pop` takes. -/
def next (q : RoundRobinPacketQueue) : Option QueuedPacket :=
  match q.singlePacketQueue with
  | some single => some single
  | none =>
    match q.getHighestPriorityStream with
    | none => none
    | some stream => stream.packetQueue.head?

/-- **The three ways through `Pop`**: an empty queue, the fast path, the top of the stream
that the first node of the multimap belongs to. -/
theorem pop_cases (h : Linked R q) :
    (q.packets = [] ∧ q.next = none ∧ q.pop = (q, none)) ∨
    (∃ single, q.singlePacketQueue = some single ∧ q.packets = [single] ∧ q.next = some single ∧
      q.pop = ({ q with
        singlePacketQueue := none, queueTimeSum := 0, numPackets := 0, totalQueuedSize := 0 },
        some single.ownedPacket)) ∨
    (q.singlePacketQueue = none ∧ ∃ first others stream packet rest,
      q.streamPriorities = first :: others ∧ stream ∈ q.streams ∧ R stream first ∧
      stream.packetQueue = packet :: rest ∧ q.getHighestPriorityStream = some stream ∧
      q.next = some packet ∧
      q.pop = (q.popStream stream packet rest, some packet.ownedPacket)) := by
  unfold pop next
  cases hsingle : q.singlePacketQueue with
  | some single => exact Or.inr (Or.inl ⟨single, rfl, h.packets_of_single hsingle, rfl, rfl⟩)
  | none =>
    cases hprios : q.streamPriorities with
    | nil =>
      refine Or.inl ⟨?_, ?_⟩
      · rw [packets_of_none hsingle, queued_eq_nil h.toBody hprios]
      · simp [getHighestPriorityStream, hprios]
    | cons first others =>
      obtain ⟨stream, hs, hstream, hbusy, hR⟩ := getHighestPriorityStream_spec h.toBody hprios
      obtain ⟨packet, rest, hqueue⟩ := List.exists_cons_of_ne_nil hbusy
      refine Or.inr (Or.inr ⟨rfl, first, others, stream, packet, rest, rfl, hs, hR, hqueue, hstream,
        ?_, ?_⟩)
      · simp [hstream, hqueue]
      · simp [hstream, hqueue]

theorem next_eq_some (h : Linked R q) (hnext : q.next = some p) :
    q.packets = [p] ∨ q.packets = q.queued ∧ ∃ first others stream rest,
      q.streamPriorities = first :: others ∧ stream ∈ q.streams ∧ R stream first ∧
        stream.packetQueue = p :: rest := by
  rcases pop_cases h with ⟨-, hnone, -⟩ | ⟨single, -, hpackets, hsome, -⟩ |
    ⟨hnone, first, others, stream, packet, rest, hprios, hs, hfirst, hqueue, -, hsome, -⟩
  · rw [hnone] at hnext
    cases hnext
  · obtain rfl : single = p := Option.some.inj (hsome.symm.trans hnext)
    exact Or.inl hpackets
  · obtain rfl : packet = p := Option.some.inj (hsome.symm.trans hnext)
    exact Or.inr ⟨packets_of_none hnone, first, others, stream, rest, hprios, hs, hfirst, hqueue⟩

theorem next_mem (h : Linked R q) (hnext : q.next = some p) : p ∈ q.packets := by
  rcases next_eq_some h hnext with hpackets |
    ⟨hpackets, first, others, stream, rest, -, hs, -, hqueue⟩
  · rw [hpackets]
    exact List.mem_cons_self
  · rw [hpackets]
    exact List.mem_flatMap.mpr ⟨stream, hs, by rw [hqueue]; exact List.mem_cons_self⟩

theorem pop_spec (h : Linked R q) (htop : TopFits R) :
    Linked R q.pop.1 ∧ q.pop.2 = q.next.map QueuedPacket.ownedPacket ∧
      q.contents.Perm (q.next.toList.map QueuedPacket.forget ++ q.pop.1.contents) ∧
      (q.numPackets ≠ 0 → ∃ p, q.next = some p) := by
  rcases pop_cases h with ⟨hnil, hnext, hpop⟩ | ⟨single, hsingle, hpackets, hnext, hpop⟩ |
    ⟨hnone, first, others, stream, packet, rest, hprios, hs, -, hqueue, -, hnext, hpop⟩
  · rw [hpop, hnext]
    refine ⟨h, rfl, List.Perm.refl _, fun hnum => ?_⟩
    rw [h.count, hnil] at hnum
    exact absurd rfl hnum
  · rw [hpop, hnext]
    have hqueued : q.queued = [] := queued_eq_nil h.toBody (h.single single hsingle).1
    refine ⟨⟨⟨h.scheduled, h.timed, h.leading⟩, by simp, ?_⟩, rfl, ?_, fun _ => ⟨single, rfl⟩⟩
    · show 0 = q.queued.length
      rw [hqueued]
      rfl
    · rw [contents, hpackets]
      show List.Perm _ (_ ++ q.queued.map QueuedPacket.forget)
      rw [hqueued]
      exact List.Perm.refl _
  · rw [hpop, hnext]
    obtain ⟨hbody, hperm, hpopped⟩ := popStream_spec h.toBody htop hs hqueue
    have hnone' := hpopped.singlePacketQueue.trans hnone
    have hcount := h.count
    rw [packets_of_none hnone, hperm.length_eq, List.length_cons] at hcount
    refine ⟨⟨hbody, ?_, ?_⟩, rfl, ?_, fun _ => ⟨packet, rfl⟩⟩
    · intro p hp
      rw [hnone'] at hp
      cases hp
    · rw [packets_of_none hnone', hpopped.numPackets, hcount, Nat.add_sub_cancel]
    · rw [contents, contents, packets_of_none hnone, packets_of_none hnone']
      exact hperm.map _

/-! ## Every call -/

/-- What a call asks of the relation between a stream and its node. -/
def Admits (R : Stream → PrioEntry → Prop) (q : RoundRobinPacketQueue) : Op → Prop
  | .push priority enqueueTime enqueueOrder packet =>
    (∀ p, q.singlePacketQueue = some p → Fits R q p) ∧
      (q.numPackets ≠ 0 → ∀ it, Fits R q.maybePromoteSinglePacketToNormalQueue
        ⟨priority, enqueueTime, enqueueOrder, some it, packet⟩)
  | .setIncludeOverhead => ∀ p, q.singlePacketQueue = some p → Fits R q p
  | .setTransportOverhead _ => ∀ p, q.singlePacketQueue = some p → Fits R q p
  | _ => True

/-- The packets that a call puts in. -/
def entering (q : RoundRobinPacketQueue) : Op → List QueuedPacket
  | .push priority enqueueTime enqueueOrder packet =>
    [q.stored priority enqueueTime enqueueOrder packet]
  | _ => []

/-- The packets that a call takes out. -/
def leaving (q : RoundRobinPacketQueue) : Op → List QueuedPacket
  | .pop => q.next.toList.map QueuedPacket.forget
  | _ => []

/-- **One call**: the links hold after it, and the contents change by what enters and what
leaves. -/
theorem linked_step (h : Linked R q) (htop : TopFits R) {op : Op} (hadmits : Admits R q op) :
    Linked R (q.step op).1 ∧
      (q.entering op ++ q.contents).Perm (q.leaving op ++ (q.step op).1.contents) := by
  cases op with
  | push priority enqueueTime enqueueOrder packet =>
    obtain ⟨hlinked, -, hperm⟩ :=
      push_spec h priority enqueueTime enqueueOrder packet hadmits.1 hadmits.2
    exact ⟨hlinked, hperm.symm⟩
  | pop =>
    obtain ⟨hlinked, -, hperm, -⟩ := pop_spec h htop
    exact ⟨hlinked, hperm⟩
  | updateEnqueueTime atTime =>
    refine ⟨h.update atTime, List.Perm.of_eq ?_⟩
    show q.contents = (q.updateEnqueueTime atTime).contents
    simp only [contents, packets, update_singlePacketQueue, update_queued]
  | setPauseState paused atTime =>
    by_cases hsame : q.paused = paused
    · have hstep : (q.step (.setPauseState paused atTime)).1 = q := if_pos hsame
      rw [hstep]
      exact ⟨h, List.Perm.refl _⟩
    · have hstep : (q.step (.setPauseState paused atTime)).1 =
          { q.updateEnqueueTime atTime with paused := paused } := if_neg hsame
      rw [hstep]
      refine ⟨(h.update atTime).recount paused _ _ _, List.Perm.of_eq ?_⟩
      show q.contents = (q.updateEnqueueTime atTime).contents
      simp only [contents, packets, update_singlePacketQueue, update_queued]
  | setIncludeOverhead =>
    obtain ⟨hlinked, -, -, hperm⟩ := promote_spec h hadmits
    exact ⟨hlinked.recount _ true _ _, hperm.symm⟩
  | setTransportOverhead overhead =>
    obtain ⟨hlinked, -, -, hperm⟩ := promote_spec h hadmits
    exact ⟨hlinked.recount _ _ _ overhead, hperm.symm⟩

end RoundRobinPacketQueue

end NaiveRtc.Pacing
