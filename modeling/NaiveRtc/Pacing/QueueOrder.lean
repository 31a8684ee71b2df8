import NaiveRtc.Pacing.QueueLossless

/-!
# The order in which the packet queue gives its packets out

`Push` schedules a stream anew with the priority of the packet it was given, whatever is
in the heap already.  As long as no push is less urgent than a packet of its SSRC that
waits, every node carries the priority of the top of its stream, and `Pop` returns the
most urgent packet of all.

* `Urgent` — the condition on a push.
* `fits_top`, `admits_of_urgent` — an urgent push keeps the relation.
* `queue_order` — the order over every run of urgent pushes.
* `push_demotes` — a push that is not urgent.
-/

namespace NaiveRtc.Pacing

open Ordered

/-- The node of a stream carries the priority of the top packet of its heap. -/
def CarriesTop (s : Stream) (e : PrioEntry) : Prop :=
  ∀ top rest, s.packetQueue = top :: rest → e.key.priority = top.priority

namespace RoundRobinPacketQueue

variable {q : RoundRobinPacketQueue}

/-- A push is urgent when no packet of its SSRC that waits is more urgent. -/
def Urgent (q : RoundRobinPacketQueue) : Op → Prop
  | .push priority _ _ packet => ∀ p ∈ q.packets, p.ssrc = packet.ssrc → priority ≤ p.priority
  | _ => True

instance (q : RoundRobinPacketQueue) : DecidablePred q.Urgent
  | .push priority _ _ packet =>
    inferInstanceAs (Decidable (∀ p ∈ q.packets, p.ssrc = packet.ssrc → priority ≤ p.priority))
  | .pop | .updateEnqueueTime _ | .setPauseState _ _ | .setIncludeOverhead
  | .setTransportOverhead _ => inferInstanceAs (Decidable True)

theorem topFits : TopFits CarriesTop := by
  intro s node top rest hqueue top' rest' hqueue'
  rw [hqueue] at hqueue'
  rw [(List.cons.inj hqueue').1]

theorem priority_le_of_rank_le {p p' : QueuedPacket} (h : p.rank ≤ p'.rank) :
    p.priority ≤ p'.priority := by
  rw [QueuedPacket.rank, QueuedPacket.rank, Prod.Lex.toLex_le_toLex] at h
  rcases h with h | h
  · exact h.le
  · exact h.1.le

theorem fits_top (h : Body CarriesTop q) {packet : QueuedPacket}
    (hurgent : ∀ p ∈ q.queued, p.ssrc = packet.ssrc → packet.priority ≤ p.priority) :
    Fits CarriesTop q packet := by
  intro s node p hfrom hssrc hpriority hrank top rest hqueue
  change s.packetQueue.push p = top :: rest at hqueue
  have htop : top ∈ s.packetQueue.push p := by rw [hqueue]; exact List.mem_cons_self
  rcases List.mem_cons.mp ((push_perm s.packetQueue p).mem_iff.mp htop) with rfl | hmem
  · exact hpriority.symm
  · -- an old packet on top is as urgent as the new one
    rcases hfrom with hs | hnil
    · have hown := h.scheduled.own s hs top hmem
      have hle := hurgent top (List.mem_flatMap.mpr ⟨s, hs, hmem⟩) (hown.trans hssrc)
      have hsorted := push_sorted (h.scheduled.heap s hs) p
      have hp : p ∈ s.packetQueue.push p :=
        (push_perm s.packetQueue p).mem_iff.mpr List.mem_cons_self
      rw [hqueue] at hsorted hp
      have hge : top.priority ≤ p.priority := by
        rcases List.mem_cons.mp hp with rfl | hp
        · exact le_refl _
        · exact priority_le_of_rank_le (List.rel_of_pairwise_cons hsorted hp)
      exact le_antisymm hle (hpriority ▸ hge)
    · rw [hnil] at hmem
      cases hmem

theorem fits_single (h : Linked CarriesTop q) {p : QueuedPacket}
    (hp : q.singlePacketQueue = some p) :
    Fits CarriesTop q p := by
  refine fits_top h.toBody fun p' hp' => ?_
  rw [queued_eq_nil h.toBody (h.single p hp).1] at hp'
  cases hp'

theorem admits_of_urgent (h : Linked CarriesTop q) {op : Op} (hurgent : q.Urgent op) :
    Admits CarriesTop q op := by
  have hsingle : ∀ p, q.singlePacketQueue = some p → Fits CarriesTop q p :=
    fun p hp => fits_single h hp
  cases op with
  | push priority enqueueTime enqueueOrder packet =>
    refine ⟨hsingle, fun _ it => ?_⟩
    obtain ⟨hlinked, hnone, -, hcontents⟩ := promote_spec h hsingle
    refine fits_top hlinked.toBody fun p hp hssrc => ?_
    have hmem : p.forget ∈ q.contents := by
      refine hcontents.mem_iff.mp (List.mem_map_of_mem ?_)
      rwa [packets_of_none hnone]
    obtain ⟨p', hp', heq⟩ := List.mem_map.mp hmem
    have hpriority : p'.forget.priority = p.forget.priority := congrArg QueuedPacket.priority heq
    have hssrc' : p'.forget.ssrc = p.forget.ssrc := congrArg QueuedPacket.ssrc heq
    exact (hurgent p' hp' (hssrc'.trans hssrc)).trans hpriority.le
  | setIncludeOverhead => exact hsingle
  | setTransportOverhead => exact hsingle
  | pop => trivial
  | updateEnqueueTime => trivial
  | setPauseState => trivial

theorem carriesTop_final (startTime : Int) {ops : List Op}
    (hurgent : queueMachine.AllGood Urgent (create startTime) ops) :
    Linked CarriesTop (queueMachine.final (create startTime) ops) := by
  have hstep : ∀ q op, Linked CarriesTop q → q.Urgent op → Linked CarriesTop (q.step op).1 :=
    fun q op h hop => (linked_step h topFits (admits_of_urgent h hop)).1
  exact queueMachine.invariant_final hstep (linked_create startTime) hurgent

theorem next_urgent (h : Linked CarriesTop q) {p p' : QueuedPacket} (hnext : q.next = some p)
    (hp' : p' ∈ q.packets) : p.priority ≤ p'.priority := by
  rcases next_eq_some h hnext with hpackets |
    ⟨hpackets, first, others, stream, rest, hprios, hs, hfirst, hqueue⟩
  · rw [hpackets, List.mem_singleton] at hp'
    rw [hp']
  · rw [hpackets] at hp'
    obtain ⟨t, ht, hmem⟩ := List.mem_flatMap.mp hp'
    obtain ⟨top, tail, htop⟩ := List.exists_cons_of_ne_nil (List.ne_nil_of_mem hmem)
    obtain ⟨e, he, -, -, hcarries⟩ := h.scheduled.busy t ht (List.ne_nil_of_mem hmem)
    have hsorted := h.scheduled.sorted
    rw [hprios] at he hsorted
    have hfirst_le : first.key.priority ≤ e.key.priority := by
      rcases List.mem_cons.mp he with rfl | he
      · exact le_refl _
      · have hrank := List.rel_of_pairwise_cons hsorted he
        rw [StreamPrioKey.rank, StreamPrioKey.rank, Prod.Lex.toLex_le_toLex] at hrank
        rcases hrank with hrank | hrank
        · exact hrank.le
        · exact hrank.1.le
    have htop_le : top.priority ≤ p'.priority := by
      have hheap := h.scheduled.heap t ht
      rw [htop] at hmem hheap
      rcases List.mem_cons.mp hmem with rfl | hmem
      · exact le_refl _
      · exact priority_le_of_rank_le (List.rel_of_pairwise_cons hheap hmem)
    calc p.priority = first.key.priority := (hfirst p rest hqueue).symm
      _ ≤ e.key.priority := hfirst_le
      _ = top.priority := hcarries top tail htop
      _ ≤ p'.priority := htop_le

/-- **The most urgent packet comes out first**, in every run whose pushes are urgent.
Every stream with packets is scheduled with the priority of its top packet; what `Pop`
returns has the least priority value of all packets that wait, and within its SSRC it
comes before the others by priority, retransmissions first, then by enqueue order. -/
theorem queue_order (startTime : Int) (ops : List Op)
    (hurgent : queueMachine.AllGood Urgent (create startTime) ops) :
    let q := queueMachine.final (create startTime) ops
    (∀ stream ∈ q.streams, ∀ top rest, stream.packetQueue = top :: rest →
      ∃ e ∈ q.streamPriorities, stream.priorityIt = some e.node ∧ e.ssrc = stream.ssrc ∧
        e.key.priority = top.priority) ∧
    (0 < q.numPackets → ∃ p ∈ q.packets, q.next = some p ∧ q.pop.2 = some p.ownedPacket ∧
      (∀ p' ∈ q.packets, p.priority ≤ p'.priority) ∧
      (∀ p' ∈ q.packets, p'.ssrc = p.ssrc → p'.priority = p.priority →
        p'.isRetransmission = true → p.isRetransmission = true) ∧
      ∀ p' ∈ q.packets, p'.ssrc = p.ssrc → p'.priority = p.priority →
        p'.isRetransmission = p.isRetransmission → p.enqueueOrder ≤ p'.enqueueOrder) := by
  intro q
  have hlinked : Linked CarriesTop q := carriesTop_final startTime hurgent
  constructor
  · intro stream hs top rest hqueue
    obtain ⟨e, he, hit, hssrc, hcarries⟩ := hlinked.scheduled.busy stream hs (by simp [hqueue])
    exact ⟨e, he, hit, hssrc, hcarries top rest hqueue⟩
  · intro hpos
    obtain ⟨-, hout, hperm, hsome⟩ := pop_spec hlinked topFits
    obtain ⟨p, hnext⟩ := hsome (by omega)
    rw [hnext] at hout
    refine ⟨p, ?_, hnext, hout, fun p' hp' => next_urgent hlinked hnext hp', ?_, ?_⟩
    · exact next_mem hlinked hnext
    · intro p' hp' hssrc hpriority hretr
      have hrank := next_least hlinked hnext hp' hssrc
      rw [QueuedPacket.rank, QueuedPacket.rank, Prod.Lex.toLex_le_toLex,
        Prod.Lex.toLex_le_toLex] at hrank
      cases hp : p.isRetransmission with
      | true => rfl
      | false =>
        simp only [hpriority, hretr, hp, lt_irrefl, true_and, false_or, Bool.not_true,
          Bool.not_false, reduceCtorEq, false_and, or_false] at hrank
        exact absurd hrank (by decide)
    · intro p' hp' hssrc hpriority hretr
      exact enqueueOrder_le (next_least hlinked hnext hp' hssrc) hpriority.symm hretr.symm

/-- A packet of 100 bytes. -/
def hundredBytes (ssrc : U32) : RtpPacketToSend :=
  { ssrc := ssrc, sequenceNumber := 0, packetType := .video, allowRetransmission := true
    headerSize := 12, payloadSize := 100, paddingSize := 0 }

theorem queue_order_two_streams :
    let ops := [Op.push 2 0 1 (hundredBytes 1), .push 1 5 2 (hundredBytes 1),
      .push 3 9 3 (hundredBytes 2)]
    queueMachine.AllGood Urgent (create 0) ops ∧
      ∃ p ∈ (queueMachine.final (create 0) ops).packets,
        (queueMachine.final (create 0) ops).next = some p ∧ p.priority = 1 := by
  intro ops
  have hgood : queueMachine.AllGood Urgent (create 0) ops := by decide
  refine ⟨hgood, ?_⟩
  obtain ⟨p, hp, hnext, -, -⟩ := (queue_order 0 ops hgood).2 (by decide)
  refine ⟨p, hp, hnext, ?_⟩
  have hone : (queueMachine.final (create 0) ops).next.map QueuedPacket.priority =
    some 1 := by decide
  rw [hnext] at hone
  exact Option.some.inj hone

/-- **A push that is not urgent demotes its stream**: with a packet of priority 1 waiting,
a second one of priority 3 for the same SSRC lets the other SSRC, at priority 2, go first. -/
theorem push_demotes :
    let q := queueMachine.final (create 0)
      [.push 1 0 1 (hundredBytes 1), .push 3 0 2 (hundredBytes 1), .push 2 0 3 (hundredBytes 2)]
    (∃ stream ∈ q.streams, ∃ top ∈ stream.packetQueue.head?, ∃ e ∈ q.streamPriorities,
      stream.priorityIt = some e.node ∧ top.priority = 1 ∧ e.key.priority = 3) ∧
    (∃ p ∈ q.next, p.priority = 2 ∧ ∃ p' ∈ q.packets, p'.priority < p.priority) := by
  decide

end RoundRobinPacketQueue

end NaiveRtc.Pacing
