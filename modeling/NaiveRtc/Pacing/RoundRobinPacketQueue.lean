import NaiveRtc.Rtp.PacketToSend
import NaiveRtc.Lib.Machine
import NaiveRtc.Lib.Ordered

/-!
# The round-robin packet queue of the pacer

The model of `rtc/congestion_control/pacing/round_robin_packet_queue.cpp` and its
auxiliaries: one heap of packets for each SSRC, a multimap that schedules the SSRCs by
priority and by the bytes they have sent, a multiset of enqueue times, and a fast path
for a single packet.

* `QueuedPacket`, `Stream`, `PrioEntry`, `RoundRobinPacketQueue` — the state; an iterator
  is the number of the node it points to, `none` is `end()`.
* `push`, `pop`, `updateEnqueueTime`, `setPauseState`, `setIncludeOverhead`,
  `setTransportOverhead` — the operations.
-/

namespace NaiveRtc.Pacing

open Ordered

/-- `kMaxLeadingSize`. -/
def kMaxLeadingSize : Nat := 1400

/-! ## Packets and streams -/

/-- `QueuedPacket`.  Times are in microseconds; `enqueue_time_it` is a node of
`enqueue_times_`. -/
structure QueuedPacket where
  priority : Int
  enqueueTime : Int
  enqueueOrder : Nat
  enqueueTimeIt : Option Nat
  ownedPacket : RtpPacketToSend
  deriving DecidableEq

namespace QueuedPacket

/-- `ssrc()`. -/
def ssrc (p : QueuedPacket) : U32 := p.ownedPacket.ssrc

/-- `is_retransmission()`. -/
def isRetransmission (p : QueuedPacket) : Bool :=
  decide (p.ownedPacket.packetType = RtpPacketType.retransmission)

/-- `SubtractPauseTime(pause_time_sum)`. -/
def subtractPauseTime (p : QueuedPacket) (pauseTimeSum : Int) : QueuedPacket :=
  { p with enqueueTime := p.enqueueTime - pauseTimeSum }

/-- `operator<`: does `other` have the higher priority? -/
def lt (p other : QueuedPacket) : Bool :=
  if p.priority ≠ other.priority then decide (other.priority < p.priority)
  else if p.isRetransmission ≠ other.isRetransmission then other.isRetransmission
  else decide (other.enqueueOrder < p.enqueueOrder)

end QueuedPacket

/-- `StreamPrioKey`. -/
structure StreamPrioKey where
  priority : Int
  sentSize : Nat
  deriving DecidableEq

/-- `StreamPrioKey::operator<`. -/
def StreamPrioKey.lt (k other : StreamPrioKey) : Bool :=
  if k.priority ≠ other.priority then decide (k.priority < other.priority)
  else decide (k.sentSize < other.sentSize)

/-- An element of `stream_priorities_`, with the number of its node. -/
structure PrioEntry where
  node : Nat
  key : StreamPrioKey
  ssrc : U32
  deriving DecidableEq

/-- `PriorityPacketQueue`, a `std::priority_queue`: the packets with the top in front.
Packets that the comparator does not tell apart come out as they went in, which the
standard leaves open. -/
abbrev PriorityPacketQueue := List QueuedPacket

/-- `packet_queue.push(packet)`. -/
def PriorityPacketQueue.push (queue : PriorityPacketQueue) (packet : QueuedPacket) :
    PriorityPacketQueue :=
  insertUpper (fun p other => other.lt p) packet queue

/-- `Stream`; `priority_it` is a node of `stream_priorities_`. -/
structure Stream where
  ssrc : U32
  sentSize : Nat
  packetQueue : PriorityPacketQueue
  priorityIt : Option Nat
  deriving DecidableEq

/-! ## The queue -/

/-- `RoundRobinPacketQueue`.  The sizes are integers, so that a subtraction that would
wrap in C++ shows as a negative number; `nextNode` is the first node number not in use. -/
structure RoundRobinPacketQueue where
  timeLastUpdate : Int
  maxStreamSentSize : Nat
  paused : Bool
  numPackets : Nat
  totalQueuedSize : Int
  queueTimeSum : Int
  pauseTimeSum : Int
  includeOverhead : Bool
  transportOverhead : Nat
  streamPriorities : List PrioEntry
  streams : List Stream
  enqueueTimes : List (Nat × Int)
  singlePacketQueue : Option QueuedPacket
  nextNode : Nat
  deriving DecidableEq

namespace RoundRobinPacketQueue

/-- `RoundRobinPacketQueue(start_time)`. -/
def create (startTime : Int) : RoundRobinPacketQueue :=
  { timeLastUpdate := startTime, maxStreamSentSize := kMaxLeadingSize, paused := false
    numPackets := 0, totalQueuedSize := 0, queueTimeSum := 0, pauseTimeSum := 0
    includeOverhead := false, transportOverhead := 0, streamPriorities := [], streams := []
    enqueueTimes := [], singlePacketQueue := none, nextNode := 0 }

/-- `PacketSize(packet)`. -/
def packetSize (q : RoundRobinPacketQueue) (p : QueuedPacket) : Nat :=
  p.ownedPacket.payloadSize + p.ownedPacket.paddingSize +
    if q.includeOverhead then p.ownedPacket.headerSize + q.transportOverhead else 0

/-- `UpdateEnqueueTime(at_time)`. -/
def updateEnqueueTime (q : RoundRobinPacketQueue) (atTime : Int) : RoundRobinPacketQueue :=
  if atTime ≤ q.timeLastUpdate then q
  else
    let delta := atTime - q.timeLastUpdate
    let q := if q.paused then { q with pauseTimeSum := q.pauseTimeSum + delta }
      else { q with queueTimeSum := q.queueTimeSum + delta * q.numPackets }
    { q with timeLastUpdate := atTime }

/-- `streams_.find(ssrc)`. -/
def findStream (q : RoundRobinPacketQueue) (ssrc : U32) : Option Stream :=
  q.streams.find? (fun s => s.ssrc = ssrc)

/-- A stream changed in place. -/
def setStream (streams : List Stream) (stream : Stream) : List Stream :=
  streams.map fun s => if s.ssrc = stream.ssrc then stream else s

/-- `enqueue_times_.insert(time)`: the queue and the iterator. -/
def insertEnqueueTime (q : RoundRobinPacketQueue) (time : Int) : RoundRobinPacketQueue × Nat :=
  ({ q with
    enqueueTimes := insertUpper (fun a b => decide (a.2 < b.2)) (q.nextNode, time) q.enqueueTimes
    nextNode := q.nextNode + 1 }, q.nextNode)

/-- `enqueue_times_.erase(it)`. -/
def eraseEnqueueTime (q : RoundRobinPacketQueue) (it : Option Nat) : RoundRobinPacketQueue :=
  { q with enqueueTimes := q.enqueueTimes.filter fun e => some e.1 ≠ it }

/-- `stream_priorities_.erase(it)`. -/
def erasePriority (q : RoundRobinPacketQueue) (it : Option Nat) : RoundRobinPacketQueue :=
  { q with streamPriorities := q.streamPriorities.filter fun e => some e.node ≠ it }

/-- `stream_priorities_.emplace(StreamPrioKey(priority, sent_size), ssrc)`: the queue and
the iterator. -/
def emplacePriority (q : RoundRobinPacketQueue) (priority : Int) (sentSize : Nat) (ssrc : U32) :
    RoundRobinPacketQueue × Nat :=
  ({ q with
    streamPriorities :=
      insertUpper (fun a b => a.key.lt b.key) ⟨q.nextNode, ⟨priority, sentSize⟩, ssrc⟩
        q.streamPriorities
    nextNode := q.nextNode + 1 }, q.nextNode)

/-- `streams_.emplace(ssrc, Stream())` when the SSRC is new: the queue and its stream. -/
def ensureStream (q : RoundRobinPacketQueue) (ssrc : U32) : RoundRobinPacketQueue × Stream :=
  match q.findStream ssrc with
  | some stream => (q, stream)
  | none =>
    let stream : Stream := ⟨ssrc, 0, [], none⟩
    ({ q with streams := q.streams ++ [stream] }, stream)

/-- `Push(QueuedPacket)`.  A packet without a node in `enqueue_times_` comes from the fast
path and is counted already. -/
def pushQueued (q : RoundRobinPacketQueue) (packet : QueuedPacket) : RoundRobinPacketQueue :=
  let (q, stream) := q.ensureStream packet.ssrc
  -- a stream that is scheduled is taken out and scheduled anew
  let q := if stream.priorityIt = none then q else q.erasePriority stream.priorityIt
  let (q, priorityIt) := q.emplacePriority packet.priority stream.sentSize packet.ssrc
  let (q, packet) :=
    if packet.enqueueTimeIt = none then
      let (q, it) := q.insertEnqueueTime packet.enqueueTime
      (q, { packet with enqueueTimeIt := some it })
    else
      let q := q.updateEnqueueTime packet.enqueueTime
      let packet := packet.subtractPauseTime q.pauseTimeSum
      ({ q with
        numPackets := q.numPackets + 1
        totalQueuedSize := q.totalQueuedSize + q.packetSize packet }, packet)
  { q with
    streams := setStream q.streams { stream with
      priorityIt := some priorityIt, packetQueue := stream.packetQueue.push packet } }

/-- `MaybePromoteSinglePacketToNormalQueue()`. -/
def maybePromoteSinglePacketToNormalQueue (q : RoundRobinPacketQueue) : RoundRobinPacketQueue :=
  match q.singlePacketQueue with
  | none => q
  | some packet => { q.pushQueued packet with singlePacketQueue := none }

/-- `Push(priority, enqueue_time, enqueue_order, packet)`. -/
def push (q : RoundRobinPacketQueue) (priority enqueueTime : Int) (enqueueOrder : Nat)
    (packet : RtpPacketToSend) : RoundRobinPacketQueue :=
  if q.numPackets = 0 then
    let q := q.updateEnqueueTime enqueueTime
    let single : QueuedPacket :=
      { priority := priority, enqueueTime := enqueueTime - q.pauseTimeSum
        enqueueOrder := enqueueOrder, enqueueTimeIt := none, ownedPacket := packet }
    { q with
      singlePacketQueue := some single
      numPackets := 1
      totalQueuedSize := q.totalQueuedSize + q.packetSize single }
  else
    let q := q.maybePromoteSinglePacketToNormalQueue
    let (q, it) := q.insertEnqueueTime enqueueTime
    q.pushQueued
      { priority := priority, enqueueTime := enqueueTime, enqueueOrder := enqueueOrder
        enqueueTimeIt := some it, ownedPacket := packet }

/-- `GetHighestPriorityStream()`. -/
def getHighestPriorityStream (q : RoundRobinPacketQueue) : Option Stream :=
  match q.streamPriorities with
  | [] => none
  | first :: _ =>
    match q.findStream first.ssrc with
    | none => none
    | some stream =>
      if stream.priorityIt = some first.node ∧ stream.packetQueue ≠ [] then some stream else none

/-- What `Pop` does with the stream it found. -/
def popStream (q : RoundRobinPacketQueue) (stream : Stream) (packet : QueuedPacket)
    (rest : PriorityPacketQueue) : RoundRobinPacketQueue :=
  let q := { q with
    queueTimeSum := q.queueTimeSum - (q.timeLastUpdate - packet.enqueueTime - q.pauseTimeSum) }
  let q := q.eraseEnqueueTime packet.enqueueTimeIt
  let packetSize := q.packetSize packet
  let sentSize := max (stream.sentSize + packetSize) (q.maxStreamSentSize - kMaxLeadingSize)
  let q := { q with
    maxStreamSentSize := max q.maxStreamSentSize sentSize
    totalQueuedSize := q.totalQueuedSize - packetSize
    numPackets := q.numPackets - 1 }
  let q := q.erasePriority stream.priorityIt
  match rest with
  | [] =>
    { q with streams := setStream q.streams { stream with
        sentSize := sentSize, packetQueue := [], priorityIt := none } }
  | top :: _ =>
    let (q, it) := q.emplacePriority top.priority sentSize stream.ssrc
    { q with streams := setStream q.streams { stream with
        sentSize := sentSize, packetQueue := rest, priorityIt := some it } }

/-- `Pop()`. -/
def pop (q : RoundRobinPacketQueue) : RoundRobinPacketQueue × Option RtpPacketToSend :=
  match q.singlePacketQueue with
  | some single =>
    ({ q with
      singlePacketQueue := none, queueTimeSum := 0, numPackets := 0, totalQueuedSize := 0 },
      some single.ownedPacket)
  | none =>
    match q.getHighestPriorityStream with
    | none => (q, none)
    | some stream =>
      match stream.packetQueue with
      | [] => (q, none)
      | packet :: rest => (q.popStream stream packet rest, some packet.ownedPacket)

/-- `SetPauseState(paused, at_time)`. -/
def setPauseState (q : RoundRobinPacketQueue) (paused : Bool) (atTime : Int) :
    RoundRobinPacketQueue :=
  if q.paused = paused then q else { q.updateEnqueueTime atTime with paused := paused }

/-- `set_include_overhead()`. -/
def setIncludeOverhead (q : RoundRobinPacketQueue) : RoundRobinPacketQueue :=
  let q := q.maybePromoteSinglePacketToNormalQueue
  { q with
    includeOverhead := true
    totalQueuedSize := q.totalQueuedSize +
      (q.streams.map fun s =>
        (s.packetQueue.map fun p => p.ownedPacket.headerSize + q.transportOverhead).sum).sum }

/-- `set_transport_overhead(overhead_per_packet)`. -/
def setTransportOverhead (q : RoundRobinPacketQueue) (overheadPerPacket : Nat) :
    RoundRobinPacketQueue :=
  let q := q.maybePromoteSinglePacketToNormalQueue
  { q with
    totalQueuedSize := q.totalQueuedSize +
      (q.streams.map fun s =>
        (s.packetQueue.length : Int) * ((overheadPerPacket : Int) - q.transportOverhead)).sum
    transportOverhead := overheadPerPacket }

/-! ## Assertions -/

/-- The assertion that `Empty()` makes on the branch it takes. -/
def emptyAssert (q : RoundRobinPacketQueue) : Bool :=
  if q.numPackets = 0 then q.singlePacketQueue.isNone && q.streamPriorities.isEmpty
  else q.singlePacketQueue.isSome || !q.streamPriorities.isEmpty

/-- The assertion of `IsEmptyStream(stream)`. -/
def isEmptyStreamAssert (stream : Stream) : Bool :=
  if stream.packetQueue.isEmpty then stream.priorityIt.isNone else stream.priorityIt.isSome

/-- The assertions that `Pop()` comes by: `IsEmptyStream` of the stream it found, and that
the packet has a node in `enqueue_times_`. -/
def popAssert (q : RoundRobinPacketQueue) : Bool :=
  match q.singlePacketQueue with
  | some _ => true
  | none =>
    match q.getHighestPriorityStream with
    | none => true
    | some stream =>
      isEmptyStreamAssert stream &&
        match stream.packetQueue with
        | [] => true
        | packet :: _ =>
          match packet.enqueueTimeIt with
          | none => false
          | some it => q.enqueueTimes.any fun e => e.1 = it

/-! ## The machine -/

/-- The calls. -/
inductive Op
  | push (priority enqueueTime : Int) (enqueueOrder : Nat) (packet : RtpPacketToSend)
  | pop
  | updateEnqueueTime (atTime : Int)
  | setPauseState (paused : Bool) (atTime : Int)
  | setIncludeOverhead
  | setTransportOverhead (overheadPerPacket : Nat)
  deriving DecidableEq

/-- One call; only `Pop` has a result. -/
def step (q : RoundRobinPacketQueue) : Op → RoundRobinPacketQueue × Option RtpPacketToSend
  | .push priority enqueueTime enqueueOrder packet =>
    (q.push priority enqueueTime enqueueOrder packet, none)
  | .pop => q.pop
  | .updateEnqueueTime atTime => (q.updateEnqueueTime atTime, none)
  | .setPauseState paused atTime => (q.setPauseState paused atTime, none)
  | .setIncludeOverhead => (q.setIncludeOverhead, none)
  | .setTransportOverhead overhead => (q.setTransportOverhead overhead, none)

end RoundRobinPacketQueue

/-- The queue as a machine. -/
def queueMachine :
    Machine RoundRobinPacketQueue RoundRobinPacketQueue.Op (Option RtpPacketToSend) where
  step := RoundRobinPacketQueue.step

end NaiveRtc.Pacing
