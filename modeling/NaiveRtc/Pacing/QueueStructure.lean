import NaiveRtc.Pacing.RoundRobinPacketQueue
import Mathlib.Data.List.Nodup
import Mathlib.Data.List.Perm.Basic
import Mathlib.Data.Prod.Lex

/-!
# The containers of the packet queue and their links

The streams, the multimap that schedules them and the multiset of enqueue times hold
iterators into each other.  This file states the links once, for the containers alone,
and proves what each operation does to them.

* `Scheduled` — every stream with packets has exactly one node in the multimap, and every
  node belongs to such a stream; the heaps and the multimap are in order.  The relation
  between a stream and its node is a parameter.
* `Scheduled.unlink`, `Scheduled.link` — taking a stream out and putting it in.
* `Timed` — every queued packet has its own node in the multiset.
* `Body`, `pushQueued_eq`, `popStream_spec` — the operations on the streams.
-/

namespace NaiveRtc.Pacing

open Ordered

/-! ## Orders -/

/-- The order of the heap as a rank: priority, retransmissions first, enqueue order. -/
def QueuedPacket.rank (p : QueuedPacket) : Int ×ₗ (Bool ×ₗ Nat) :=
  toLex (p.priority, toLex (!p.isRetransmission, p.enqueueOrder))

/-- The order of the multimap as a rank. -/
def StreamPrioKey.rank (k : StreamPrioKey) : Int ×ₗ Nat := toLex (k.priority, k.sentSize)

theorem QueuedPacket.lt_iff (p other : QueuedPacket) :
    other.lt p = true ↔ p.rank < other.rank := by
  unfold QueuedPacket.lt QueuedPacket.rank
  rw [Prod.Lex.toLex_lt_toLex, Prod.Lex.toLex_lt_toLex]
  by_cases hprio : other.priority = p.priority
  · rw [if_neg (not_not.mpr hprio)]
    by_cases hretr : other.isRetransmission = p.isRetransmission
    · rw [if_neg (not_not.mpr hretr)]
      simp [hprio, hretr]
    · rw [if_pos hretr]
      cases hp : p.isRetransmission <;> cases ho : other.isRetransmission <;>
        simp_all
  · rw [if_pos hprio]
    simp [Ne.symm hprio]

theorem StreamPrioKey.lt_iff (k other : StreamPrioKey) :
    k.lt other = true ↔ k.rank < other.rank := by
  unfold StreamPrioKey.lt StreamPrioKey.rank
  rw [Prod.Lex.toLex_lt_toLex]
  by_cases hprio : k.priority = other.priority
  · simp [hprio]
  · simp [hprio]

/-! ## Streams and their nodes -/

/-- The streams and the multimap that schedules them; `R` relates a stream with packets
to its node. -/
structure Scheduled (R : Stream → PrioEntry → Prop) (streams : List Stream)
    (prios : List PrioEntry) (next : Nat) : Prop where
  ssrcs : (streams.map Stream.ssrc).Nodup
  nodes : (prios.map PrioEntry.node).Nodup
  fresh : ∀ e ∈ prios, e.node < next
  idle : ∀ s ∈ streams, s.packetQueue = [] → s.priorityIt = none
  busy : ∀ s ∈ streams, s.packetQueue ≠ [] →
    ∃ e ∈ prios, s.priorityIt = some e.node ∧ e.ssrc = s.ssrc ∧ R s e
  entry : ∀ e ∈ prios, ∃ s ∈ streams, s.packetQueue ≠ [] ∧ s.priorityIt = some e.node
  own : ∀ s ∈ streams, ∀ p ∈ s.packetQueue, p.ssrc = s.ssrc
  heap : ∀ s ∈ streams, s.packetQueue.Pairwise fun p p' => p.rank ≤ p'.rank
  sorted : prios.Pairwise fun e e' => e.key.rank ≤ e'.key.rank

namespace Scheduled

variable {R : Stream → PrioEntry → Prop} {streams l₁ l₂ : List Stream} {prios : List PrioEntry}
  {next : Nat} {s t : Stream}

theorem ssrc_inj (h : Scheduled R streams prios next) (hs : s ∈ streams) (ht : t ∈ streams)
    (hst : s.ssrc = t.ssrc) : s = t :=
  List.inj_on_of_nodup_map h.ssrcs hs ht hst

theorem node_inj (h : Scheduled R streams prios next) (hs : s ∈ streams) (ht : t ∈ streams)
    (hbs : s.packetQueue ≠ []) (hst : s.priorityIt = t.priorityIt) : s = t := by
  obtain ⟨e, he, hse, hes, -⟩ := h.busy s hs hbs
  have hbt : t.packetQueue ≠ [] := by
    intro h0
    rw [h.idle t ht h0, hse] at hst
    cases hst
  obtain ⟨e', he', hte, hes', -⟩ := h.busy t ht hbt
  have hnode : e.node = e'.node := by
    rw [hse, hte] at hst
    exact Option.some.inj hst
  have heq : e = e' := List.inj_on_of_nodup_map h.nodes he he' hnode
  exact h.ssrc_inj hs ht (by rw [← hes, ← hes', heq])

theorem mono (h : Scheduled R streams prios next) {next' : Nat} (hle : next ≤ next') :
    Scheduled R streams prios next' :=
  { h with fresh := fun e he => lt_of_lt_of_le (h.fresh e he) hle }

theorem mem_other_iff {x : Stream} : x ∈ l₁ ++ s :: l₂ ↔ x = s ∨ x ∈ l₁ ++ l₂ := by
  simp only [List.mem_append, List.mem_cons]
  tauto

/-- The nodes left when a stream is taken out of the multimap. -/
def unlinked (prios : List PrioEntry) (s : Stream) : List PrioEntry :=
  prios.filter fun e => some e.node ≠ s.priorityIt

theorem mem_unlinked {e : PrioEntry} : e ∈ unlinked prios s ↔
    e ∈ prios ∧ some e.node ≠ s.priorityIt := by
  simp [unlinked]

theorem other_ne (h : Scheduled R (l₁ ++ s :: l₂) prios next) (ht : t ∈ l₁ ++ l₂)
    (hb : t.packetQueue ≠ []) : t.priorityIt ≠ s.priorityIt := by
  intro heq
  have hst := h.node_inj (mem_other_iff.mpr (Or.inr ht)) (mem_other_iff.mpr (Or.inl rfl)) hb heq
  subst hst
  have hnodup := h.ssrcs
  rw [List.map_append, List.map_cons] at hnodup
  have := (List.nodup_middle.mp hnodup)
  rw [← List.map_append] at this
  exact (List.nodup_cons.mp this).1 (List.mem_map_of_mem (f := Stream.ssrc) ht)

theorem unlink (h : Scheduled R (l₁ ++ s :: l₂) prios next) (hssrc : t.ssrc = s.ssrc)
    (hqueue : t.packetQueue = []) (hit : t.priorityIt = none) :
    Scheduled R (l₁ ++ t :: l₂) (unlinked prios s) next where
  ssrcs := by
    have := h.ssrcs
    rw [List.map_append, List.map_cons] at this ⊢
    rwa [hssrc]
  nodes := h.nodes.sublist (List.filter_sublist.map _)
  fresh e he := h.fresh e (mem_unlinked.mp he).1
  idle x hx hx0 := by
    rcases mem_other_iff.mp hx with rfl | hx
    · exact hit
    · exact h.idle x (mem_other_iff.mpr (Or.inr hx)) hx0
  busy x hx hb := by
    rcases mem_other_iff.mp hx with rfl | hx
    · exact absurd hqueue hb
    · obtain ⟨e, he, hxe, hrest⟩ := h.busy x (mem_other_iff.mpr (Or.inr hx)) hb
      exact ⟨e, mem_unlinked.mpr ⟨he, hxe ▸ h.other_ne hx hb⟩, hxe, hrest⟩
  entry e he := by
    obtain ⟨he, hne⟩ := mem_unlinked.mp he
    obtain ⟨x, hx, hb, hxe⟩ := h.entry e he
    rcases mem_other_iff.mp hx with rfl | hx
    · exact absurd hxe.symm hne
    · exact ⟨x, mem_other_iff.mpr (Or.inr hx), hb, hxe⟩
  own x hx p hp := by
    rcases mem_other_iff.mp hx with rfl | hx
    · rw [hqueue] at hp
      cases hp
    · exact h.own x (mem_other_iff.mpr (Or.inr hx)) p hp
  heap x hx := by
    rcases mem_other_iff.mp hx with rfl | hx
    · rw [hqueue]
      exact List.Pairwise.nil
    · exact h.heap x (mem_other_iff.mpr (Or.inr hx))
  sorted := h.sorted.sublist List.filter_sublist

theorem link (h : Scheduled R (l₁ ++ s :: l₂) prios next) (hidle : s.packetQueue = [])
    {node next' : Nat} {key : StreamPrioKey} (hnode : next ≤ node ∧ node < next')
    (hssrc : t.ssrc = s.ssrc) (hqueue : t.packetQueue ≠ []) (hit : t.priorityIt = some node)
    (hown : ∀ p ∈ t.packetQueue, p.ssrc = t.ssrc)
    (hheap : t.packetQueue.Pairwise fun p p' => p.rank ≤ p'.rank)
    (hR : R t ⟨node, key, t.ssrc⟩) :
    Scheduled R (l₁ ++ t :: l₂)
      (insertUpper (fun a b => a.key.lt b.key) ⟨node, key, t.ssrc⟩ prios) next' where
  ssrcs := by
    have := h.ssrcs
    rw [List.map_append, List.map_cons] at this ⊢
    rwa [hssrc]
  nodes := by
    rw [((insertUpper_perm _ _ _).map PrioEntry.node).nodup_iff, List.map_cons, List.nodup_cons]
    refine ⟨fun hmem => ?_, h.nodes⟩
    obtain ⟨e, he, heq⟩ := List.mem_map.mp hmem
    have := h.fresh e he
    change e.node = node at heq
    omega
  fresh e he := by
    rcases mem_insertUpper.mp he with rfl | he
    · exact hnode.2
    · have := h.fresh e he
      omega
  idle x hx hx0 := by
    rcases mem_other_iff.mp hx with rfl | hx
    · exact absurd hx0 hqueue
    · exact h.idle x (mem_other_iff.mpr (Or.inr hx)) hx0
  busy x hx hb := by
    rcases mem_other_iff.mp hx with rfl | hx
    · exact ⟨_, mem_insertUpper.mpr (Or.inl rfl), hit, rfl, hR⟩
    · obtain ⟨e, he, hrest⟩ := h.busy x (mem_other_iff.mpr (Or.inr hx)) hb
      exact ⟨e, mem_insertUpper.mpr (Or.inr he), hrest⟩
  entry e he := by
    rcases mem_insertUpper.mp he with rfl | he
    · exact ⟨t, mem_other_iff.mpr (Or.inl rfl), hqueue, hit⟩
    · obtain ⟨x, hx, hb, hxe⟩ := h.entry e he
      rcases mem_other_iff.mp hx with rfl | hx
      · exact absurd hidle hb
      · exact ⟨x, mem_other_iff.mpr (Or.inr hx), hb, hxe⟩
  own x hx p hp := by
    rcases mem_other_iff.mp hx with rfl | hx
    · exact hown p hp
    · exact h.own x (mem_other_iff.mpr (Or.inr hx)) p hp
  heap x hx := by
    rcases mem_other_iff.mp hx with rfl | hx
    · exact hheap
    · exact h.heap x (mem_other_iff.mpr (Or.inr hx))
  sorted := sorted_insertUpper (fun a b => StreamPrioKey.lt_iff a.key b.key) h.sorted

theorem append_idle (h : Scheduled R streams prios next) (hnew : ∀ x ∈ streams, x.ssrc ≠ s.ssrc)
    (hqueue : s.packetQueue = []) (hit : s.priorityIt = none) :
    Scheduled R (streams ++ [s]) prios next where
  ssrcs := by
    rw [List.map_append, List.map_singleton, List.nodup_append]
    refine ⟨h.ssrcs, List.nodup_singleton _, ?_⟩
    intro a ha b hb
    obtain ⟨x, hx, rfl⟩ := List.mem_map.mp ha
    rw [List.mem_singleton.mp hb]
    exact hnew x hx
  nodes := h.nodes
  fresh := h.fresh
  idle x hx hx0 := by
    rcases List.mem_append.mp hx with hx | hx
    · exact h.idle x hx hx0
    · rw [List.mem_singleton.mp hx]
      exact hit
  busy x hx hb := by
    rcases List.mem_append.mp hx with hx | hx
    · exact h.busy x hx hb
    · rw [List.mem_singleton.mp hx] at hb
      exact absurd hqueue hb
  entry e he := by
    obtain ⟨x, hx, hrest⟩ := h.entry e he
    exact ⟨x, List.mem_append_left _ hx, hrest⟩
  own x hx p hp := by
    rcases List.mem_append.mp hx with hx | hx
    · exact h.own x hx p hp
    · rw [List.mem_singleton.mp hx, hqueue] at hp
      cases hp
  heap x hx := by
    rcases List.mem_append.mp hx with hx | hx
    · exact h.heap x hx
    · rw [List.mem_singleton.mp hx, hqueue]
      exact List.Pairwise.nil
  sorted := h.sorted

end Scheduled

/-! ## Enqueue times -/

/-- Every queued packet has a node of its own among the enqueue times. -/
structure Timed (packets : List QueuedPacket) (times : List (Nat × Int)) (next : Nat) : Prop where
  nodes : (packets.map QueuedPacket.enqueueTimeIt).Nodup
  has : ∀ p ∈ packets, ∃ e ∈ times, p.enqueueTimeIt = some e.1
  fresh : ∀ e ∈ times, e.1 < next

namespace Timed

variable {packets packets' : List QueuedPacket} {times : List (Nat × Int)} {next : Nat}
  {p : QueuedPacket}

theorem perm (h : Timed packets times next) (hperm : packets'.Perm packets) :
    Timed packets' times next where
  nodes := (hperm.map _).nodup_iff.mpr h.nodes
  has p hp := h.has p (hperm.mem_iff.mp hp)
  fresh := h.fresh

theorem mono (h : Timed packets times next) {next' : Nat} (hle : next ≤ next') :
    Timed packets times next' :=
  { h with fresh := fun e he => lt_of_lt_of_le (h.fresh e he) hle }

theorem insert (h : Timed packets times next) {node next' : Nat}
    (hnode : next ≤ node ∧ node < next')
    (time : Int) (hit : p.enqueueTimeIt = some node) :
    Timed (p :: packets) (insertUpper (fun a b => decide (a.2 < b.2)) (node, time) times) next' where
  nodes := by
    rw [List.map_cons, List.nodup_cons]
    refine ⟨fun hmem => ?_, h.nodes⟩
    obtain ⟨p', hp', heq⟩ := List.mem_map.mp hmem
    obtain ⟨e, he, hpe⟩ := h.has p' hp'
    rw [hpe, hit] at heq
    have hlt := h.fresh e he
    have := Option.some.inj heq
    omega
  has p' hp' := by
    rcases List.mem_cons.mp hp' with rfl | hp'
    · exact ⟨_, mem_insertUpper.mpr (Or.inl rfl), hit⟩
    · obtain ⟨e, he, hpe⟩ := h.has p' hp'
      exact ⟨e, mem_insertUpper.mpr (Or.inr he), hpe⟩
  fresh e he := by
    rcases mem_insertUpper.mp he with rfl | he
    · exact hnode.2
    · have := h.fresh e he
      omega

theorem erase (h : Timed (p :: packets) times next) :
    Timed packets (times.filter fun e => some e.1 ≠ p.enqueueTimeIt) next where
  nodes := (List.nodup_cons.mp h.nodes).2
  has p' hp' := by
    obtain ⟨e, he, hpe⟩ := h.has p' (List.mem_cons_of_mem _ hp')
    refine ⟨e, ?_, hpe⟩
    rw [List.mem_filter]
    refine ⟨he, ?_⟩
    have hne : p'.enqueueTimeIt ≠ p.enqueueTimeIt := by
      intro heq
      exact (List.nodup_cons.mp h.nodes).1 (heq ▸ List.mem_map_of_mem hp')
    rw [hpe] at hne
    exact decide_eq_true hne
  fresh e he := h.fresh e (List.mem_of_mem_filter he)

end Timed

/-! ## The operations on the streams -/

namespace RoundRobinPacketQueue

variable {R : Stream → PrioEntry → Prop} {q : RoundRobinPacketQueue} {packet : QueuedPacket}

/-- The packets in the streams. -/
def queued (q : RoundRobinPacketQueue) : List QueuedPacket :=
  q.streams.flatMap Stream.packetQueue

/-- The links of the containers, and the bound that `Pop` subtracts from. -/
structure Body (R : Stream → PrioEntry → Prop) (q : RoundRobinPacketQueue) : Prop where
  scheduled : Scheduled R q.streams q.streamPriorities q.nextNode
  timed : Timed q.queued q.enqueueTimes q.nextNode
  leading : kMaxLeadingSize ≤ q.maxStreamSentSize

theorem ensureStream_spec (h : Scheduled R q.streams q.streamPriorities q.nextNode) (ssrc : U32) :
    ∃ l₁ s l₂, q.ensureStream ssrc = ({ q with streams := l₁ ++ s :: l₂ }, s) ∧ s.ssrc = ssrc ∧
      Scheduled R (l₁ ++ s :: l₂) q.streamPriorities q.nextNode ∧
      (l₁ ++ s :: l₂).flatMap Stream.packetQueue = q.queued ∧
      (s ∈ q.streams ∨ s.packetQueue = []) := by
  unfold ensureStream findStream
  cases hfind : q.streams.find? (fun s => s.ssrc = ssrc) with
  | some s =>
    have hmem := List.mem_of_find?_eq_some hfind
    have hssrc : s.ssrc = ssrc := by simpa using List.find?_some hfind
    obtain ⟨l₁, l₂, hsplit⟩ := List.append_of_mem hmem
    refine ⟨l₁, s, l₂, ?_, hssrc, hsplit ▸ h, by rw [← hsplit]; rfl, Or.inl hmem⟩
    rw [← hsplit]
  | none =>
    refine ⟨q.streams, ⟨ssrc, 0, [], none⟩, [], rfl, rfl, ?_, by simp [queued], Or.inr rfl⟩
    refine h.append_idle (fun x hx => ?_) rfl rfl
    simpa using List.find?_eq_none.mp hfind x hx

theorem setStream_eq {l₁ l₂ : List Stream} {s t : Stream}
    (h : ((l₁ ++ s :: l₂).map Stream.ssrc).Nodup) (hssrc : t.ssrc = s.ssrc) :
    setStream (l₁ ++ s :: l₂) t = l₁ ++ t :: l₂ := by
  have hother : ∀ x ∈ l₁ ++ l₂, x.ssrc ≠ t.ssrc := by
    rw [List.map_append, List.map_cons] at h
    have h' := List.nodup_middle.mp h
    rw [← List.map_append] at h'
    intro x hx heq
    exact (List.nodup_cons.mp h').1 (by rw [← hssrc, ← heq]; exact List.mem_map_of_mem hx)
  have hkeep : ∀ l : List Stream, (∀ x ∈ l, x.ssrc ≠ t.ssrc) →
      (l.map fun x => if x.ssrc = t.ssrc then t else x) = l := by
    intro l hl
    refine (List.map_congr_left (fun x hx => ?_)).trans (List.map_id l)
    rw [if_neg (hl x hx)]
    rfl
  rw [setStream, List.map_append, List.map_cons, if_pos hssrc.symm,
    hkeep l₁ (fun x hx => hother x (List.mem_append_left _ hx)),
    hkeep l₂ (fun x hx => hother x (List.mem_append_right _ hx))]

theorem erasePriority_of_none (q : RoundRobinPacketQueue) : q.erasePriority none = q := by
  simp [erasePriority]

theorem flatMap_middle (l₁ l₂ : List Stream) (t : Stream) :
    ((l₁ ++ t :: l₂).flatMap Stream.packetQueue).Perm
      (t.packetQueue ++ (l₁ ++ l₂).flatMap Stream.packetQueue) := by
  rw [List.flatMap_append, List.flatMap_cons, List.flatMap_append]
  exact List.perm_append_comm_assoc _ _ _

theorem push_perm (queue : PriorityPacketQueue) (p : QueuedPacket) :
    (queue.push p).Perm (p :: queue) := insertUpper_perm _ _ _

theorem push_sorted {queue : PriorityPacketQueue}
    (h : queue.Pairwise fun p p' => p.rank ≤ p'.rank) (p : QueuedPacket) :
    (queue.push p).Pairwise fun p p' => p.rank ≤ p'.rank :=
  sorted_insertUpper (fun x y => QueuedPacket.lt_iff x y) h

/-- What `Push` may rely on for the node it makes: the relation holds of the stream with
the new packet in its heap. -/
def Fits (R : Stream → PrioEntry → Prop) (q : RoundRobinPacketQueue) (packet : QueuedPacket) :
    Prop :=
  ∀ (s : Stream) (node : Nat) (p : QueuedPacket), (s ∈ q.streams ∨ s.packetQueue = []) →
    s.ssrc = packet.ssrc → p.priority = packet.priority → p.rank = packet.rank →
    R { s with priorityIt := some node, packetQueue := s.packetQueue.push p }
      ⟨node, ⟨packet.priority, s.sentSize⟩, s.ssrc⟩

/-- **The streams after a push**: the packet is in the heap of its stream, and the stream
is scheduled by a fresh node. -/
theorem scheduled_push (hfits : Fits R q packet) {l₁ l₂ : List Stream} {s : Stream}
    (hs : Scheduled R (l₁ ++ s :: l₂) q.streamPriorities q.nextNode) (hssrc : s.ssrc = packet.ssrc)
    (hqueued : (l₁ ++ s :: l₂).flatMap Stream.packetQueue = q.queued)
    (hfrom : s ∈ q.streams ∨ s.packetQueue = []) {p : QueuedPacket}
    (hp : p.priority = packet.priority ∧ p.rank = packet.rank ∧ p.ssrc = packet.ssrc)
    {next' : Nat} (hnext : q.nextNode < next') :
    let streams := setStream (l₁ ++ s :: l₂) { s with
      priorityIt := some q.nextNode, packetQueue := s.packetQueue.push p }
    Scheduled R streams
      (insertUpper (fun a b => a.key.lt b.key) ⟨q.nextNode, ⟨packet.priority, s.sentSize⟩, s.ssrc⟩
        (Scheduled.unlinked q.streamPriorities s)) next' ∧
      (streams.flatMap Stream.packetQueue).Perm (p :: q.queued) := by
  have hmem : s ∈ l₁ ++ s :: l₂ := List.mem_append_right _ List.mem_cons_self
  have hperm := push_perm s.packetQueue p
  have hidle : Scheduled R (l₁ ++ { s with packetQueue := [], priorityIt := none } :: l₂)
      (Scheduled.unlinked q.streamPriorities s) q.nextNode := hs.unlink rfl rfl rfl
  intro streams
  rw [show streams = _ from setStream_eq hs.ssrcs rfl]
  refine ⟨hidle.link rfl ⟨le_refl _, hnext⟩ rfl ?_ rfl ?_ ?_ ?_, ?_⟩
  · intro h0
    have hlen := hperm.length_eq
    rw [show s.packetQueue.push p = [] from h0] at hlen
    exact absurd hlen (by simp)
  · intro p' hp'
    rcases List.mem_cons.mp (hperm.mem_iff.mp hp') with rfl | hp'
    · exact hp.2.2.trans hssrc.symm
    · exact hs.own s hmem p' hp'
  · exact push_sorted (hs.heap s hmem) p
  · exact hfits s q.nextNode p hfrom hssrc hp.1 hp.2.1
  · rw [← hqueued]
    exact (flatMap_middle l₁ l₂ _).trans
      ((hperm.append_right _).trans ((flatMap_middle l₁ l₂ s).symm.cons _))

/-- `q'` counts as `q` does. -/
structure SameCounters (q q' : RoundRobinPacketQueue) : Prop where
  timeLastUpdate : q'.timeLastUpdate = q.timeLastUpdate
  maxStreamSentSize : q'.maxStreamSentSize = q.maxStreamSentSize
  paused : q'.paused = q.paused
  numPackets : q'.numPackets = q.numPackets
  totalQueuedSize : q'.totalQueuedSize = q.totalQueuedSize
  queueTimeSum : q'.queueTimeSum = q.queueTimeSum
  pauseTimeSum : q'.pauseTimeSum = q.pauseTimeSum
  includeOverhead : q'.includeOverhead = q.includeOverhead
  transportOverhead : q'.transportOverhead = q.transportOverhead

/-- `q'` is `q` but for the containers. -/
structure SameScalars (q q' : RoundRobinPacketQueue) : Prop extends SameCounters q q' where
  singlePacketQueue : q'.singlePacketQueue = q.singlePacketQueue

/-- The queue in the middle of `Push(QueuedPacket)`: the stream is scheduled, the packet is
not in its heap yet. -/
theorem pushQueued_eq (h : Body R q) (packet : QueuedPacket) :
    ∃ l₁ s l₂, s.ssrc = packet.ssrc ∧
      Scheduled R (l₁ ++ s :: l₂) q.streamPriorities q.nextNode ∧
      (l₁ ++ s :: l₂).flatMap Stream.packetQueue = q.queued ∧
      (s ∈ q.streams ∨ s.packetQueue = []) ∧
      q.pushQueued packet =
        let q₁ := { q with
          streams := l₁ ++ s :: l₂
          streamPriorities := insertUpper (fun a b => a.key.lt b.key)
            ⟨q.nextNode, ⟨packet.priority, s.sentSize⟩, s.ssrc⟩
            (Scheduled.unlinked q.streamPriorities s)
          nextNode := q.nextNode + 1 }
        let r : RoundRobinPacketQueue × QueuedPacket :=
          if packet.enqueueTimeIt = none then
            ((q₁.insertEnqueueTime packet.enqueueTime).1,
              { packet with enqueueTimeIt := some (q.nextNode + 1) })
          else
            let u := q₁.updateEnqueueTime packet.enqueueTime
            let packet := packet.subtractPauseTime u.pauseTimeSum
            ({ u with
              numPackets := u.numPackets + 1
              totalQueuedSize := u.totalQueuedSize + u.packetSize packet }, packet)
        { r.1 with streams := setStream r.1.streams { s with
            priorityIt := some q.nextNode, packetQueue := s.packetQueue.push r.2 } } := by
  obtain ⟨l₁, s, l₂, hens, hssrc, hsched, hqueued, hfrom⟩ :=
    ensureStream_spec h.scheduled packet.ssrc
  refine ⟨l₁, s, l₂, hssrc, hsched, hqueued, hfrom, ?_⟩
  unfold pushQueued
  rw [hens]
  have herase : (if s.priorityIt = none then { q with streams := l₁ ++ s :: l₂ }
      else erasePriority { q with streams := l₁ ++ s :: l₂ } s.priorityIt) =
      erasePriority { q with streams := l₁ ++ s :: l₂ } s.priorityIt := by
    split
    · rename_i hnone
      rw [hnone, erasePriority_of_none]
    · rfl
  dsimp only
  rw [herase, ← hssrc]
  by_cases hit : packet.enqueueTimeIt = none
  · simp only [if_pos hit]
    rfl
  · simp only [if_neg hit]
    rfl

section

variable (q : RoundRobinPacketQueue)

/-- **`UpdateEnqueueTime` in one equation**: time never goes back, and the time that
passes counts as pause time or as queue time. -/
theorem updateEnqueueTime_eq (atTime : Int) :
    q.updateEnqueueTime atTime =
      let passed := max q.timeLastUpdate atTime - q.timeLastUpdate
      { q with
        timeLastUpdate := max q.timeLastUpdate atTime
        pauseTimeSum := q.pauseTimeSum + if q.paused then passed else 0
        queueTimeSum := q.queueTimeSum + if q.paused then 0 else passed * q.numPackets } := by
  unfold updateEnqueueTime
  by_cases hle : atTime ≤ q.timeLastUpdate
  · rw [if_pos hle, max_eq_left hle]
    simp
  · rw [if_neg hle, max_eq_right (le_of_lt (not_le.mp hle))]
    cases q.paused <;> simp

@[simp] theorem update_streams (t : Int) :
    (q.updateEnqueueTime t).streams = q.streams := by rw [updateEnqueueTime_eq]

@[simp] theorem update_streamPriorities (t : Int) :
    (q.updateEnqueueTime t).streamPriorities = q.streamPriorities := by rw [updateEnqueueTime_eq]

@[simp] theorem update_singlePacketQueue (t : Int) :
    (q.updateEnqueueTime t).singlePacketQueue = q.singlePacketQueue := by rw [updateEnqueueTime_eq]

@[simp] theorem update_numPackets (t : Int) :
    (q.updateEnqueueTime t).numPackets = q.numPackets := by rw [updateEnqueueTime_eq]

@[simp] theorem update_totalQueuedSize (t : Int) :
    (q.updateEnqueueTime t).totalQueuedSize = q.totalQueuedSize := by rw [updateEnqueueTime_eq]

@[simp] theorem update_includeOverhead (t : Int) :
    (q.updateEnqueueTime t).includeOverhead = q.includeOverhead := by rw [updateEnqueueTime_eq]

@[simp] theorem update_transportOverhead (t : Int) :
    (q.updateEnqueueTime t).transportOverhead = q.transportOverhead := by rw [updateEnqueueTime_eq]

@[simp] theorem update_queued (t : Int) :
    (q.updateEnqueueTime t).queued = q.queued := by rw [queued, update_streams]; rfl

end

theorem pushQueued_of_none (h : Body R q) (hfits : Fits R q packet)
    (hit : packet.enqueueTimeIt = none) :
    Body R (q.pushQueued packet) ∧ SameScalars q (q.pushQueued packet) ∧
      ∃ it, (q.pushQueued packet).queued.Perm
        ({ packet with enqueueTimeIt := some it } :: q.queued) := by
  obtain ⟨l₁, s, l₂, hssrc, hsched, hqueued, hfrom, heq⟩ := pushQueued_eq h packet
  simp only [if_pos hit] at heq
  obtain ⟨hpushed, hperm⟩ := scheduled_push hfits hsched hssrc hqueued hfrom
    (p := { packet with enqueueTimeIt := some (q.nextNode + 1) }) ⟨rfl, rfl, rfl⟩
    (show q.nextNode < q.nextNode + 2 by omega)
  have htimed : Timed ({ packet with enqueueTimeIt := some (q.nextNode + 1) } :: q.queued)
      (insertUpper (fun a b => decide (a.2 < b.2)) (q.nextNode + 1, packet.enqueueTime)
        q.enqueueTimes) (q.nextNode + 2) :=
    h.timed.insert ⟨by omega, by omega⟩ packet.enqueueTime rfl
  rw [heq]
  exact ⟨⟨hpushed, htimed.perm hperm, h.leading⟩,
    ⟨⟨rfl, rfl, rfl, rfl, rfl, rfl, rfl, rfl, rfl⟩, rfl⟩, _, hperm⟩

/-- **A packet pushed the normal way**: the time is brought up to its enqueue time, and it
is counted. -/
theorem pushQueued_of_some (h : Body R q) (hfits : Fits R q packet)
    (hit : packet.enqueueTimeIt ≠ none) (htimed : Timed (packet :: q.queued) q.enqueueTimes q.nextNode) :
    let u := q.updateEnqueueTime packet.enqueueTime
    let stored := packet.subtractPauseTime u.pauseTimeSum
    Body R (q.pushQueued packet) ∧
      SameScalars { u with
        numPackets := u.numPackets + 1
        totalQueuedSize := u.totalQueuedSize + u.packetSize stored } (q.pushQueued packet) ∧
      (q.pushQueued packet).queued.Perm (stored :: q.queued) := by
  obtain ⟨l₁, s, l₂, hssrc, hsched, hqueued, hfrom, heq⟩ := pushQueued_eq h packet
  intro u stored
  simp only [if_neg hit, updateEnqueueTime_eq] at heq
  have hpause : u.pauseTimeSum = q.pauseTimeSum + if q.paused then
      max q.timeLastUpdate packet.enqueueTime - q.timeLastUpdate else 0 := by
    simp only [u, updateEnqueueTime_eq]
  rw [← hpause] at heq
  obtain ⟨hpushed, hperm⟩ := scheduled_push hfits hsched hssrc hqueued hfrom
    (p := stored) ⟨rfl, rfl, rfl⟩ (show q.nextNode < q.nextNode + 1 by omega)
  have hstored : Timed (stored :: q.queued) q.enqueueTimes q.nextNode :=
    ⟨htimed.nodes, fun p hp => by
      rcases List.mem_cons.mp hp with rfl | hp
      · exact htimed.has packet List.mem_cons_self
      · exact htimed.has p (List.mem_cons_of_mem _ hp), htimed.fresh⟩
  rw [heq]
  refine ⟨⟨hpushed, (hstored.mono (Nat.le_succ _)).perm hperm, h.leading⟩, ?_, hperm⟩
  simp only [u, updateEnqueueTime_eq]
  exact ⟨⟨rfl, rfl, rfl, rfl, rfl, rfl, rfl, rfl, rfl⟩, rfl⟩

/-- What `Pop` relies on for the node it makes: the relation holds when the node carries
the priority of the top packet. -/
def TopFits (R : Stream → PrioEntry → Prop) : Prop :=
  ∀ (s : Stream) (node : Nat) (top : QueuedPacket) (rest : PriorityPacketQueue),
    s.packetQueue = top :: rest → R s ⟨node, ⟨top.priority, s.sentSize⟩, s.ssrc⟩

/-- The scalars after `Pop` took `packet`, but for the largest sent size. -/
structure Popped (q q' : RoundRobinPacketQueue) (packet : QueuedPacket) : Prop where
  timeLastUpdate : q'.timeLastUpdate = q.timeLastUpdate
  paused : q'.paused = q.paused
  numPackets : q'.numPackets = q.numPackets - 1
  totalQueuedSize : q'.totalQueuedSize = q.totalQueuedSize - q.packetSize packet
  queueTimeSum : q'.queueTimeSum =
    q.queueTimeSum - (q.timeLastUpdate - packet.enqueueTime - q.pauseTimeSum)
  pauseTimeSum : q'.pauseTimeSum = q.pauseTimeSum
  includeOverhead : q'.includeOverhead = q.includeOverhead
  transportOverhead : q'.transportOverhead = q.transportOverhead
  singlePacketQueue : q'.singlePacketQueue = q.singlePacketQueue

/-- **A packet popped from its stream** leaves the queue, and the stream is scheduled by
its next packet or not at all. -/
theorem popStream_spec (h : Body R q) (htop : TopFits R) {stream : Stream}
    (hs : stream ∈ q.streams) {rest : PriorityPacketQueue}
    (hqueue : stream.packetQueue = packet :: rest) :
    Body R (q.popStream stream packet rest) ∧
      q.queued.Perm (packet :: (q.popStream stream packet rest).queued) ∧
      Popped q (q.popStream stream packet rest) packet := by
  obtain ⟨l₁, l₂, hsplit⟩ := List.append_of_mem hs
  have hsched := h.scheduled
  rw [hsplit] at hsched
  have hmem : stream ∈ l₁ ++ stream :: l₂ := List.mem_append_right _ List.mem_cons_self
  have hheap := hsched.heap stream hmem
  have hown := hsched.own stream hmem
  rw [hqueue] at hheap hown
  -- the streams after, and what is queued in them
  have hafter : ∀ (sent : Nat) (it : Option Nat),
      (q.queued).Perm (packet :: (l₁ ++ { stream with
        sentSize := sent, packetQueue := rest, priorityIt := it } :: l₂).flatMap
        Stream.packetQueue) := by
    intro sent it
    show (q.streams.flatMap Stream.packetQueue).Perm _
    rw [hsplit]
    refine (flatMap_middle l₁ l₂ stream).trans ?_
    rw [hqueue]
    exact (flatMap_middle l₁ l₂
      { stream with sentSize := sent, packetQueue := rest, priorityIt := it }).symm.cons packet
  have hset : ∀ (sent : Nat) (it : Option Nat), setStream q.streams { stream with
      sentSize := sent, packetQueue := rest, priorityIt := it } =
      l₁ ++ { stream with sentSize := sent, packetQueue := rest, priorityIt := it } :: l₂ := by
    intro sent it
    rw [hsplit]
    exact setStream_eq hsched.ssrcs rfl
  have hlead : ∀ n, kMaxLeadingSize ≤ max q.maxStreamSentSize n :=
    fun n => le_trans h.leading (le_max_left _ _)
  cases rest with
  | nil =>
    have hidle := hsched.unlink (t := { stream with
      sentSize := max (stream.sentSize + q.packetSize packet)
        (q.maxStreamSentSize - kMaxLeadingSize)
      packetQueue := [], priorityIt := none }) rfl rfl rfl
    refine ⟨⟨?_, ?_, hlead _⟩, ?_, ⟨rfl, rfl, rfl, rfl, rfl, rfl, rfl, rfl, rfl⟩⟩
    · show Scheduled R (setStream q.streams _) (Scheduled.unlinked q.streamPriorities stream) _
      rw [hset]
      exact hidle
    · show Timed ((setStream q.streams _).flatMap Stream.packetQueue) _ _
      rw [hset]
      exact (h.timed.perm (hafter _ none).symm).erase
    · show q.queued.Perm (packet :: (setStream q.streams _).flatMap Stream.packetQueue)
      rw [hset]
      exact hafter _ none
  | cons top rest =>
    have hidle := hsched.unlink (t := { stream with packetQueue := [], priorityIt := none })
      rfl rfl rfl
    have hlinked := hidle.link (t := { stream with
        sentSize := max (stream.sentSize + q.packetSize packet)
          (q.maxStreamSentSize - kMaxLeadingSize)
        packetQueue := top :: rest, priorityIt := some q.nextNode })
      rfl ⟨le_refl _, Nat.lt_succ_self q.nextNode⟩ rfl (by simp) rfl
      (fun p hp => hown p (List.mem_cons_of_mem _ hp)) (List.pairwise_cons.mp hheap).2
      (htop _ _ top rest rfl)
    refine ⟨⟨?_, ?_, hlead _⟩, ?_, ⟨rfl, rfl, rfl, rfl, rfl, rfl, rfl, rfl, rfl⟩⟩
    · show Scheduled R (setStream q.streams _) _ _
      rw [hset]
      exact hlinked
    · show Timed ((setStream q.streams _).flatMap Stream.packetQueue) _ _
      rw [hset]
      exact ((h.timed.perm (hafter _ _).symm).erase).mono (Nat.le_succ _)
    · show q.queued.Perm (packet :: (setStream q.streams _).flatMap Stream.packetQueue)
      rw [hset]
      exact hafter _ _

theorem getHighestPriorityStream_spec (h : Body R q) {first : PrioEntry} {others : List PrioEntry}
    (hprios : q.streamPriorities = first :: others) :
    ∃ stream ∈ q.streams, q.getHighestPriorityStream = some stream ∧
      stream.packetQueue ≠ [] ∧ R stream first := by
  have hmem : first ∈ q.streamPriorities := by rw [hprios]; exact List.mem_cons_self
  obtain ⟨s, hs, hbusy, hit⟩ := h.scheduled.entry first hmem
  obtain ⟨e, he, hse, hssrc, hR⟩ := h.scheduled.busy s hs hbusy
  have heq : e = first := by
    refine List.inj_on_of_nodup_map h.scheduled.nodes he hmem ?_
    rw [hit] at hse
    exact (Option.some.inj hse).symm
  subst heq
  have hfind : q.findStream e.ssrc = some s := by
    unfold findStream
    cases hf : q.streams.find? (fun s => s.ssrc = e.ssrc) with
    | none =>
      have := List.find?_eq_none.mp hf s hs
      simp [hssrc] at this
    | some t =>
      have ht : t.ssrc = e.ssrc := by simpa using List.find?_some hf
      rw [h.scheduled.ssrc_inj (List.mem_of_find?_eq_some hf) hs (ht.trans hssrc)]
  refine ⟨s, hs, ?_, hbusy, hR⟩
  unfold getHighestPriorityStream
  rw [hprios]
  dsimp only
  rw [hfind]
  exact if_pos ⟨hit, hbusy⟩

theorem queued_eq_nil (h : Body R q) (hprios : q.streamPriorities = []) : q.queued = [] := by
  unfold queued
  rw [List.flatMap_eq_nil_iff]
  intro s hs
  by_contra hbusy
  obtain ⟨e, he, -⟩ := h.scheduled.busy s hs hbusy
  rw [hprios] at he
  cases he

theorem streamPriorities_eq_nil (h : Body R q) (hqueued : q.queued = []) :
    q.streamPriorities = [] := by
  cases hprios : q.streamPriorities with
  | nil => rfl
  | cons first others =>
    obtain ⟨s, hs, -, hbusy, -⟩ := getHighestPriorityStream_spec h hprios
    exact absurd (List.flatMap_eq_nil_iff.mp hqueued s hs) hbusy

end RoundRobinPacketQueue

end NaiveRtc.Pacing
