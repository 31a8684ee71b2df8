import NaiveRtc.Pacing.QueueLossless
import Mathlib.Algebra.BigOperators.Ring.Finset
import Mathlib.Algebra.Order.BigOperators.Group.List
import Mathlib.Tactic.Ring

/-!
# The accounting of the packet queue

The size of the queue, the number of its packets and the time they have waited are running
sums.  To say what the times should add up to, every packet that waits gets a stopwatch
that runs while the queue is not paused.

* `Waiting`, `watch`, `watchMachine` — the queue next to the stopwatches.
* `Accountable` — the calls after which the sums are right: `set_transport_overhead` is not
  called with a new value for packets whose overhead is not counted.
* `Accounted`, `accounted_step` — the invariant.
* `queue_accounting` — the sums over every run of such calls.
-/

namespace NaiveRtc.Pacing

/-- A packet as the queue stores it, iterator aside, and its stopwatch. -/
structure Waiting where
  packet : QueuedPacket
  waited : Int
  deriving DecidableEq

namespace RoundRobinPacketQueue

variable {q q' : RoundRobinPacketQueue} {waiting : List Waiting}

/-! ## Stopwatches -/

/-- Time passes up to `atTime`; the stopwatches run unless the queue is paused. -/
def pass (q : RoundRobinPacketQueue) (waiting : List Waiting) (atTime : Int) : List Waiting :=
  if q.paused then waiting
  else waiting.map fun w =>
    { w with waited := w.waited + (max q.timeLastUpdate atTime - q.timeLastUpdate) }

/-- What a call does to the stopwatches. -/
def watch (q : RoundRobinPacketQueue) (waiting : List Waiting) : Op → List Waiting
  | .push priority enqueueTime enqueueOrder packet =>
    ⟨q.stored priority enqueueTime enqueueOrder packet, 0⟩ :: q.pass waiting enqueueTime
  | .pop =>
    match q.next with
    | none => waiting
    | some p => waiting.eraseP fun w => w.packet = p.forget
  | .updateEnqueueTime atTime => q.pass waiting atTime
  | .setPauseState paused atTime => if q.paused = paused then waiting else q.pass waiting atTime
  | .setIncludeOverhead => waiting
  | .setTransportOverhead _ => waiting

/-- The queue next to the stopwatches. -/
def watchMachine :
    Machine (RoundRobinPacketQueue × List Waiting) Op (Option RtpPacketToSend) where
  step s op := (((s.1.step op).1, s.1.watch s.2 op), (s.1.step op).2)

/-- The calls the sums are right after: a packet is not pushed with a time before the last
update, the overhead is included once, and the transport overhead only changes while it is
counted or while nothing waits. -/
def Accountable (q : RoundRobinPacketQueue) : Op → Prop
  | .push _ enqueueTime _ _ => q.timeLastUpdate ≤ enqueueTime
  | .setIncludeOverhead => q.includeOverhead = false
  | .setTransportOverhead overhead =>
    q.includeOverhead = true ∨ q.numPackets = 0 ∨ overhead = q.transportOverhead
  | _ => True

instance (q : RoundRobinPacketQueue) : DecidablePred q.Accountable := fun op => by
  cases op <;> unfold Accountable <;> infer_instance

/-! ## The invariant -/

/-- What the packets measure in the queue. -/
def sizes (q : RoundRobinPacketQueue) (packets : List QueuedPacket) : Int :=
  (packets.map fun p => (q.packetSize p : Int)).sum

/-- The sums are right, and a stopwatch shows what `Pop` will compute. -/
structure Accounted (q : RoundRobinPacketQueue) (waiting : List Waiting) : Prop where
  sound : Sound q
  same : (waiting.map Waiting.packet).Perm q.contents
  size : q.totalQueuedSize = q.sizes q.contents
  time : q.queueTimeSum = (waiting.map Waiting.waited).sum
  clock : ∀ w ∈ waiting, w.waited = q.timeLastUpdate - w.packet.enqueueTime - q.pauseTimeSum
  nonneg : ∀ w ∈ waiting, 0 ≤ w.waited

theorem sizes_perm (q : RoundRobinPacketQueue) {packets packets' : List QueuedPacket}
    (h : packets.Perm packets') : q.sizes packets = q.sizes packets' := (h.map _).sum_eq

theorem sizes_congr (hinclude : q'.includeOverhead = q.includeOverhead)
    (htransport : q'.transportOverhead = q.transportOverhead) (packets : List QueuedPacket) :
    q'.sizes packets = q.sizes packets := by
  simp only [sizes, packetSize, hinclude, htransport]

theorem Accounted.length_eq (h : Accounted q waiting) : waiting.length = q.numPackets := by
  rw [numPackets_eq h.sound, ← h.same.length_eq, List.length_map]

theorem update_contents (q : RoundRobinPacketQueue) (atTime : Int) :
    (q.updateEnqueueTime atTime).contents = q.contents := by
  simp only [contents, packets, update_singlePacketQueue, update_queued]

theorem pass_packets (q : RoundRobinPacketQueue) (waiting : List Waiting) (atTime : Int) :
    (q.pass waiting atTime).map Waiting.packet = waiting.map Waiting.packet := by
  unfold pass
  split
  · rfl
  · rw [List.map_map]
    rfl

theorem pass_sum (q : RoundRobinPacketQueue) (waiting : List Waiting) (atTime : Int) :
    ((q.pass waiting atTime).map Waiting.waited).sum = (waiting.map Waiting.waited).sum +
      if q.paused then 0
      else (max q.timeLastUpdate atTime - q.timeLastUpdate) * waiting.length := by
  unfold pass
  split
  · rw [add_zero]
  · induction waiting with
    | nil => simp
    | cons w waiting ih =>
      simp only [List.map_cons, List.sum_cons, List.length_cons] at ih ⊢
      rw [ih]
      push_cast
      ring

theorem accounted_pass (h : Accounted q waiting) (atTime : Int) :
    Accounted (q.updateEnqueueTime atTime) (q.pass waiting atTime) where
  sound := h.sound.update atTime
  same := by
    rw [pass_packets, update_contents]
    exact h.same
  size := by
    rw [update_totalQueuedSize, update_contents, h.size]
    exact (sizes_congr (update_includeOverhead q atTime) (update_transportOverhead q atTime) _).symm
  time := by
    rw [pass_sum, h.length_eq, ← h.time, updateEnqueueTime_eq]
  clock w hw := by
    rw [updateEnqueueTime_eq]
    unfold pass at hw
    cases hpaused : q.paused with
    | true =>
      rw [hpaused, if_pos rfl] at hw
      have := h.clock w hw
      simp only [if_true]
      omega
    | false =>
      rw [hpaused, if_neg (by decide)] at hw
      obtain ⟨w', hw', rfl⟩ := List.mem_map.mp hw
      have := h.clock w' hw'
      simp only [Bool.false_eq_true, if_false]
      omega
  nonneg w hw := by
    unfold pass at hw
    split at hw
    · exact h.nonneg w hw
    · obtain ⟨w', hw', rfl⟩ := List.mem_map.mp hw
      have := h.nonneg w' hw'
      show 0 ≤ w'.waited + _
      omega

/-! ## The calls -/

theorem fits_any {packet : QueuedPacket} : Fits (fun _ _ => True) q packet :=
  fun _ _ _ _ _ _ _ => trivial

theorem accounted_push (h : Accounted q waiting) {priority enqueueTime : Int} {enqueueOrder : Nat}
    {packet : RtpPacketToSend} (htime : q.timeLastUpdate ≤ enqueueTime) :
    Accounted (q.push priority enqueueTime enqueueOrder packet)
      (⟨q.stored priority enqueueTime enqueueOrder packet, 0⟩ :: q.pass waiting enqueueTime) := by
  obtain ⟨hlinked, hcounters, hperm⟩ := push_spec h.sound priority enqueueTime enqueueOrder packet
    (fun _ _ => fits_any) (fun _ _ => fits_any)
  have hpass := accounted_pass h enqueueTime
  have hnow : (q.push priority enqueueTime enqueueOrder packet).timeLastUpdate = enqueueTime := by
    rw [hcounters.timeLastUpdate]
    simp only [counted, updateEnqueueTime_eq]
    exact max_eq_right htime
  have hpause : (q.push priority enqueueTime enqueueOrder packet).pauseTimeSum =
      (q.updateEnqueueTime enqueueTime).pauseTimeSum := hcounters.pauseTimeSum
  refine ⟨hlinked, ?_, ?_, ?_, ?_, ?_⟩
  · rw [List.map_cons, pass_packets]
    exact (h.same.cons _).trans hperm.symm
  · rw [hcounters.totalQueuedSize, sizes_perm _ hperm,
      sizes_congr (q := q.updateEnqueueTime enqueueTime) hcounters.includeOverhead
        hcounters.transportOverhead]
    show (q.updateEnqueueTime enqueueTime).totalQueuedSize + _ = _ + sizes _ q.contents
    rw [hpass.size, update_contents]
    exact Int.add_comm _ _
  · rw [hcounters.queueTimeSum, List.map_cons, List.sum_cons]
    show (q.updateEnqueueTime enqueueTime).queueTimeSum = _
    rw [hpass.time, zero_add]
  · intro w hw
    rw [hnow, hpause]
    rcases List.mem_cons.mp hw with rfl | hw
    · show 0 = enqueueTime - (enqueueTime - (q.updateEnqueueTime enqueueTime).pauseTimeSum) - _
      omega
    · rw [hpass.clock w hw, updateEnqueueTime_eq]
      dsimp only
      rw [max_eq_right htime]
  · intro w hw
    rcases List.mem_cons.mp hw with rfl | hw
    · exact le_refl _
    · exact hpass.nonneg w hw

theorem exists_stopwatch (h : Accounted q waiting) {p : QueuedPacket} (hnext : q.next = some p) :
    ∃ w, w.packet = p.forget ∧
      waiting.Perm (w :: waiting.eraseP fun w => w.packet = p.forget) := by
  have hmem : p.forget ∈ waiting.map Waiting.packet :=
    h.same.mem_iff.mpr (List.mem_map_of_mem (next_mem h.sound hnext))
  obtain ⟨w, hw, hpacket⟩ := List.mem_map.mp hmem
  obtain ⟨w', l₁, l₂, -, hw', hsplit, herase⟩ :=
    List.exists_of_eraseP (p := fun w : Waiting => w.packet = p.forget) hw (decide_eq_true hpacket)
  refine ⟨w', of_decide_eq_true hw', ?_⟩
  rw [herase, hsplit]
  exact List.perm_middle

theorem accounted_pop (h : Accounted q waiting) : Accounted q.pop.1 (q.watch waiting .pop) := by
  obtain ⟨hlinked, -, hperm, -⟩ := pop_spec h.sound fun _ _ _ _ _ => trivial
  rcases pop_cases h.sound with ⟨-, hnext, hpop⟩ | ⟨single, -, hpackets, hnext, hpop⟩ |
    ⟨-, -, -, stream, packet, rest, -, hs, -, hqueue, -, hnext, hpop⟩
  · simp only [watch, hnext, hpop]
    exact h
  · obtain ⟨w, hw, hsplit⟩ := exists_stopwatch h hnext
    have hone : waiting.length = 1 := by
      rw [h.length_eq, h.sound.count, hpackets]
      rfl
    have hnil : (waiting.eraseP fun w => w.packet = single.forget) = [] := by
      have := hsplit.length_eq
      rw [hone, List.length_cons] at this
      exact List.length_eq_zero_iff.mp (by omega)
    rw [hnext] at hperm
    have hcontents : q.pop.1.contents = [] := by
      have := hperm.length_eq
      rw [contents, hpackets] at this
      exact List.length_eq_zero_iff.mp (by simpa using this)
    simp only [watch, hnext]
    rw [hnil]
    refine ⟨hlinked, ?_, ?_, ?_, by simp, by simp⟩
    · rw [hcontents]
      exact List.Perm.nil
    · rw [hcontents, hpop]
      rfl
    · rw [hpop]
      rfl
  · obtain ⟨w, hw, hsplit⟩ := exists_stopwatch h hnext
    obtain ⟨-, -, hpopped⟩ := popStream_spec h.sound.toBody (fun _ _ _ _ _ => trivial) hs hqueue
    rw [hnext] at hperm
    simp only [watch, hnext]
    rw [hpop] at hlinked hperm ⊢
    have hwmem : w ∈ waiting := hsplit.mem_iff.mpr List.mem_cons_self
    have hsub : ∀ x ∈ waiting.eraseP fun w => w.packet = packet.forget, x ∈ waiting :=
      fun x hx => List.mem_of_mem_eraseP hx
    refine ⟨hlinked, ?_, ?_, ?_, ?_, fun x hx => h.nonneg x (hsub x hx)⟩
    · have := (hsplit.map Waiting.packet).symm.trans (h.same.trans hperm)
      rw [List.map_cons, hw] at this
      exact (List.perm_cons _).mp this
    · rw [hpopped.totalQueuedSize, h.size, sizes_perm q hperm,
        sizes_congr hpopped.includeOverhead hpopped.transportOverhead]
      show _ + sizes q _ - _ = _
      exact add_sub_cancel_left _ _
    · have hsum := (hsplit.map Waiting.waited).sum_eq
      rw [List.map_cons, List.sum_cons, h.clock w hwmem, hw] at hsum
      rw [hpopped.queueTimeSum, h.time, hsum]
      exact add_sub_cancel_left _ _
    · intro x hx
      rw [hpopped.timeLastUpdate, hpopped.pauseTimeSum]
      exact h.clock x (hsub x hx)

theorem accounted_promote (h : Accounted q waiting) :
    Accounted q.maybePromoteSinglePacketToNormalQueue waiting := by
  obtain ⟨hlinked, -, hsame, hcontents⟩ := promote_spec h.sound fun _ _ => fits_any
  refine ⟨hlinked, h.same.trans hcontents.symm, ?_, ?_, ?_, h.nonneg⟩
  · rw [hsame.totalQueuedSize, h.size, sizes_congr hsame.includeOverhead hsame.transportOverhead]
    exact (sizes_perm q hcontents).symm
  · rw [hsame.queueTimeSum, h.time]
  · intro w hw
    rw [hsame.timeLastUpdate, hsame.pauseTimeSum]
    exact h.clock w hw

theorem sum_streams (streams : List Stream) (f : QueuedPacket → Int) :
    (streams.map fun s => (s.packetQueue.map f).sum).sum =
      ((streams.flatMap Stream.packetQueue).map f).sum := by
  induction streams with
  | nil => rfl
  | cons s streams ih =>
    rw [List.map_cons, List.sum_cons, List.flatMap_cons, List.map_append, List.sum_append, ih]

theorem sum_contents (hnone : q.singlePacketQueue = none) (f : RtpPacketToSend → Int) :
    (q.streams.map fun s => (s.packetQueue.map fun p => f p.ownedPacket).sum).sum =
      (q.contents.map fun p => f p.ownedPacket).sum := by
  rw [sum_streams q.streams fun p => f p.ownedPacket, contents, packets_of_none hnone, List.map_map]
  rfl

theorem accounted_resize (h : Accounted q waiting) (includeOverhead : Bool)
    (transportOverhead : Nat)
    (added : RtpPacketToSend → Int)
    (hsize : ∀ p ∈ q.contents,
      (packetSize { q with
        includeOverhead := includeOverhead, transportOverhead := transportOverhead } p : Int) =
        q.packetSize p + added p.ownedPacket) :
    Accounted { q with
      includeOverhead := includeOverhead, transportOverhead := transportOverhead
      totalQueuedSize := q.totalQueuedSize + (q.contents.map fun p => added p.ownedPacket).sum }
      waiting := by
  refine ⟨h.sound.recount q.paused _ _ _, h.same, ?_, h.time, h.clock, h.nonneg⟩
  show q.totalQueuedSize + _ = (q.contents.map _).sum
  rw [h.size, sizes, ← List.sum_map_add]
  exact congrArg List.sum (List.map_congr_left fun p hp => (hsize p hp).symm)

theorem accounted_step (h : Accounted q waiting) {op : Op} (hop : q.Accountable op) :
    Accounted (q.step op).1 (q.watch waiting op) := by
  cases op with
  | push priority enqueueTime enqueueOrder packet => exact accounted_push h hop
  | pop => exact accounted_pop h
  | updateEnqueueTime atTime => exact accounted_pass h atTime
  | setPauseState paused atTime =>
    by_cases hsame : q.paused = paused
    · simp only [step, setPauseState, watch, if_pos hsame]
      exact h
    · simp only [step, setPauseState, watch, if_neg hsame]
      have hpass := accounted_pass h atTime
      exact ⟨hpass.sound.recount paused _ _ _, hpass.same, hpass.size, hpass.time, hpass.clock,
        hpass.nonneg⟩
  | setIncludeOverhead =>
    obtain ⟨-, hnone, hsame, -⟩ := promote_spec h.sound fun _ _ => fits_any
    have hpromote := accounted_promote h
    have hinclude := hsame.includeOverhead.trans hop
    show Accounted q.setIncludeOverhead waiting
    unfold setIncludeOverhead
    generalize q.maybePromoteSinglePacketToNormalQueue = q₁ at hnone hpromote hinclude ⊢
    have hresized := accounted_resize hpromote true q₁.transportOverhead
      (fun p => (p.headerSize : Int) + q₁.transportOverhead) fun p _ => by
        simp only [packetSize, hinclude]
        push_cast
        simp
    rw [← sum_contents hnone fun p => (p.headerSize : Int) + q₁.transportOverhead] at hresized
    dsimp only
    push_cast [Nat.cast_list_sum, List.map_map, Function.comp_def]
    exact hresized
  | setTransportOverhead overhead =>
    obtain ⟨-, hnone, hsame, -⟩ := promote_spec h.sound fun _ _ => fits_any
    have hpromote := accounted_promote h
    show Accounted (q.setTransportOverhead overhead) waiting
    unfold setTransportOverhead
    have hop' : q.maybePromoteSinglePacketToNormalQueue.includeOverhead = true ∨
        q.maybePromoteSinglePacketToNormalQueue.numPackets = 0 ∨
        overhead = q.maybePromoteSinglePacketToNormalQueue.transportOverhead := by
      rw [hsame.includeOverhead, hsame.numPackets, hsame.transportOverhead]
      exact hop
    generalize q.maybePromoteSinglePacketToNormalQueue = q₁ at hnone hpromote hop' ⊢
    have hresized := accounted_resize hpromote q₁.includeOverhead overhead
      (fun _ => (overhead : Int) - q₁.transportOverhead) fun p hp => by
        rcases hop' with hinclude | hzero | rfl
        · simp only [packetSize, hinclude, if_true]
          push_cast
          omega
        · rw [numPackets_eq hpromote.sound, List.length_eq_zero_iff] at hzero
          rw [hzero] at hp
          cases hp
        · rw [sub_self, add_zero]
    rw [← sum_contents hnone fun _ => (overhead : Int) - q₁.transportOverhead] at hresized
    simp only [List.map_const', List.sum_replicate, nsmul_eq_mul] at hresized
    exact hresized

/-! ## Every run -/

theorem accounted_create (startTime : Int) : Accounted (create startTime) [] :=
  ⟨linked_create startTime, List.Perm.nil, rfl, rfl, by simp, by simp⟩

theorem accounted_of_run (h : Accounted q waiting) {ops : List Op}
    (haccountable : queueMachine.AllGood Accountable q ops) :
    Accounted (queueMachine.final q ops) (watchMachine.final (q, waiting) ops).2 := by
  induction ops generalizing q waiting with
  | nil => exact h
  | cons op ops ih => exact ih (accounted_step h haccountable.1) haccountable.2

/-- **The accounts of the queue** are right in every run whose calls are accountable: next
to the stopwatches of exactly the packets that wait, the size is that of their payload and
padding, with header and transport overhead when these are included; the number of packets
is theirs, and the queue time is what their stopwatches show.  An empty queue measures
nothing, and no subtraction in `Pop` underflows. -/
theorem queue_accounting (startTime : Int) (ops : List Op)
    (haccountable : queueMachine.AllGood Accountable (create startTime) ops) :
    let q := queueMachine.final (create startTime) ops
    let waiting := (watchMachine.final (create startTime, []) ops).2
    (waiting.map Waiting.packet).Perm q.contents ∧
      q.totalQueuedSize = (waiting.map fun w =>
        ((w.packet.ownedPacket.payloadSize + w.packet.ownedPacket.paddingSize +
          if q.includeOverhead then w.packet.ownedPacket.headerSize + q.transportOverhead
          else 0 : Nat) : Int)).sum ∧
      q.numPackets = waiting.length ∧
      q.queueTimeSum = (waiting.map Waiting.waited).sum ∧
      (q.numPackets = 0 → q.totalQueuedSize = 0) ∧
      ∀ p, q.next = some p → (q.packetSize p : Int) ≤ q.totalQueuedSize ∧ 1 ≤ q.numPackets ∧
        kMaxLeadingSize ≤ q.maxStreamSentSize := by
  intro q waiting
  have h : Accounted q waiting := accounted_of_run (accounted_create startTime) haccountable
  have hsize : q.totalQueuedSize = q.sizes (waiting.map Waiting.packet) :=
    h.size.trans (sizes_perm q h.same.symm)
  refine ⟨h.same, ?_, h.length_eq.symm, h.time, ?_, ?_⟩
  · rw [hsize, sizes, List.map_map]
    rfl
  · intro hzero
    rw [numPackets_eq h.sound, List.length_eq_zero_iff] at hzero
    rw [h.size, hzero]
    rfl
  · intro p hnext
    obtain ⟨-, -, hperm, -⟩ := pop_spec h.sound fun _ _ _ _ _ => trivial
    rw [hnext] at hperm
    refine ⟨?_, ?_, h.sound.leading⟩
    · rw [h.size, sizes_perm q hperm]
      show (q.packetSize p : Int) ≤ q.packetSize p + q.sizes q.pop.1.contents
      have hnonneg : 0 ≤ q.sizes q.pop.1.contents := by
        refine List.sum_nonneg fun x hx => ?_
        obtain ⟨p', -, rfl⟩ := List.mem_map.mp hx
        exact Int.natCast_nonneg _
      omega
    · have := hperm.length_eq
      rw [numPackets_eq h.sound, this]
      exact Nat.le_add_left _ _

/-- A packet of 1000 bytes. -/
def thousandBytes (ssrc : U32) : RtpPacketToSend :=
  { ssrc := ssrc, sequenceNumber := 0, packetType := .video, allowRetransmission := true
    headerSize := 12, payloadSize := 1000, paddingSize := 0 }

theorem queue_accounting_with_overhead :
    let ops := [Op.push 1 0 1 (thousandBytes 1), .setPauseState true 5,
      .push 1 9 2 (thousandBytes 2),
      .setIncludeOverhead, .setTransportOverhead 20, .setPauseState false 10, .updateEnqueueTime 30]
    let q := queueMachine.final (create 0) ops
    queueMachine.AllGood Accountable (create 0) ops ∧ q.totalQueuedSize = 2 * (1000 + 12 + 20) ∧
      q.queueTimeSum = (5 + 20) + 20 := by
  intro ops q
  have hgood : queueMachine.AllGood Accountable (create 0) ops := by decide
  obtain ⟨-, hsize, -, htime, -⟩ := queue_accounting 0 ops hgood
  exact ⟨hgood, hsize.trans (by decide), htime.trans (by decide)⟩

/-- **Overhead that is not included is counted** when `set_transport_overhead` is called
with a packet in the queue: its 1000 bytes then measure 1028. -/
theorem overhead_counted_early :
    let q := queueMachine.final (create 0)
      [.push 1 0 1 (thousandBytes 1), .setTransportOverhead 28]
    q.includeOverhead = false ∧ q.numPackets = 1 ∧ q.totalQueuedSize = 1028 ∧
      q.sizes q.packets = 1000 := by
  decide

end RoundRobinPacketQueue

end NaiveRtc.Pacing
