import NaiveRtc.Lib.Machine
import NaiveRtc.Lib.Ordered
import NaiveRtc.Lib.SlotTable
import NaiveRtc.Rtp.PacketToSend

/-!
# The history of sent packets

The model of `rtc/rtp_rtcp/rtp/sender/rtp_packet_history.cpp`: packets kept for
retransmission in a deque with holes, indexed by the distance of the sequence number from
the first, and a set of pointers into it that orders the packets by their use as padding.

* `StoredPacket`, `RtpPacketHistory` — the state.  A pointer is the address of a slot of the
  deque; `firstAddress` is that of the front.
* `getPacketIndex`, `removePacket`, `cullOldPackets`, `retransmitted` — the private
  functions.
* `putRtpPacket`, `getPacketAndSetSendTime`, `getPacketAndMarkAsPending`,
  `markPacketAsSent`, `getPayloadPaddingPacket`, `cullAckedPackets`, `setRttMs` — the calls.
* `historyMachine` — the history as a machine.

A call gives `none` when an assertion fails or the culling loop does not end.
-/

namespace NaiveRtc.Rtp

open Ordered

/-- So many packets are kept at most. -/
def kMaxCapacity : Nat := 9600

/-- So many candidates for padding are kept. -/
def kMaxPaddingtHistory : Nat := 63

/-- A packet is kept so long at least, -/
def kMinPacketDurationMs : Int := 1000

/-- or so many round trip times; -/
def kMinPacketDurationRttFactor : Int := 3

/-- after so many of either it is culled. -/
def kPacketCullingDelayFactor : Int := 3

/-- `StorageMode`. -/
inductive StorageMode
  | disable
  | storeAndCull
  deriving DecidableEq

/-- `StoredPacket`. -/
structure StoredPacket where
  sendTimeMs : Option Int
  packet : RtpPacketToSend
  pendingTransmission : Bool
  numRetransmitted : Nat
  insertOrder : Nat
  deriving DecidableEq

namespace StoredPacket

/-- `StoredPacket(packet, send_time_ms, insert_order)`. -/
def create (packet : RtpPacketToSend) (sendTimeMs : Option Int) (insertOrder : Nat) :
    StoredPacket :=
  { sendTimeMs := sendTimeMs, packet := packet, pendingTransmission := sendTimeMs.isNone
    numRetransmitted := 0, insertOrder := insertOrder }

/-- `StoredPacket::Compare`. -/
def compare (lhs rhs : StoredPacket) : Bool :=
  if lhs.numRetransmitted ≠ rhs.numRetransmitted then
    decide (lhs.numRetransmitted < rhs.numRetransmitted)
  else decide (rhs.insertOrder < lhs.insertOrder)

end StoredPacket

/-- `RtpPacketHistory`. -/
structure RtpPacketHistory where
  enablePaddingPrio : Bool
  numberToStore : Nat
  mode : StorageMode
  rttMs : Int
  packetHistory : List (Option StoredPacket)
  firstAddress : Int
  packetsInserted : Nat
  paddingPriority : List Int
  deriving DecidableEq

namespace RtpPacketHistory

/-- `RtpPacketHistory(clock, enable_padding_prio)`. -/
def create (enablePaddingPrio : Bool) : RtpPacketHistory :=
  { enablePaddingPrio := enablePaddingPrio, numberToStore := 0, mode := .disable, rttMs := -1
    packetHistory := [], firstAddress := 0, packetsInserted := 0, paddingPriority := [] }

/-- `SetStorePacketsStatus(mode, number_to_store)`. -/
def setStorePacketsStatus (h : RtpPacketHistory) (mode : StorageMode) (numberToStore : Nat) :
    RtpPacketHistory :=
  if kMaxCapacity < numberToStore then h
  else { h with
    packetHistory := [], paddingPriority := [], mode := mode, numberToStore := numberToStore }

/-! ## Slots and pointers -/

/-- The packet in a slot. -/
def slot (h : RtpPacketHistory) (i : Nat) : Option StoredPacket := SlotTable.slot h.packetHistory i

/-- The packet that a pointer refers to. -/
def deref (h : RtpPacketHistory) (address : Int) : Option StoredPacket :=
  if address < h.firstAddress then none else h.slot (address - h.firstAddress).toNat

/-- The comparator of `padding_priority_`, at the fields that the pointers refer to. -/
def before (h : RtpPacketHistory) (a b : Int) : Bool :=
  match h.deref a, h.deref b with
  | some lhs, some rhs => lhs.compare rhs
  | _, _ => false

/-- `padding_priority_.erase(pointer)`: finds an equivalent pointer from the order of the
set; the new set, and whether there was one. -/
def erasePointer (before : Int → Int → Bool) (pointer : Int) : List Int → List Int × Bool
  | [] => ([], false)
  | a :: set =>
    if before a pointer then
      let (set, found) := erasePointer before pointer set
      (a :: set, found)
    else if before pointer a then (a :: set, false)
    else (set, true)

/-- A slot changed in place. -/
def update (h : RtpPacketHistory) (i : Nat) (f : StoredPacket → StoredPacket) : RtpPacketHistory :=
  { h with packetHistory := h.packetHistory.modify i (Option.map f) }

/-- `Retransmitted(stored_packet)`, for the packet in slot `i`. -/
def retransmitted (h : RtpPacketHistory) (i : Nat) : RtpPacketHistory :=
  let pointer := h.firstAddress + i
  let (set, inPrioritySet) :=
    if h.enablePaddingPrio then erasePointer h.before pointer h.paddingPriority
    else (h.paddingPriority, false)
  let h := { h with paddingPriority := set }.update i fun p =>
    { p with numRetransmitted := p.numRetransmitted + 1 }
  if inPrioritySet then
    { h with paddingPriority := insertBy h.before id pointer h.paddingPriority }
  else h

/-- `GetPacketIndex(sequence_number)`. -/
def getPacketIndex (h : RtpPacketHistory) (sequenceNumber : U16) : Option Int :=
  match h.packetHistory with
  | [] => some 0
  | none :: _ => none
  | some front :: _ =>
    let firstSeq := front.packet.sequenceNumber
    if firstSeq = sequenceNumber then some 0
    else
      let packetIndex : Int := sequenceNumber.toNat - firstSeq.toNat
      if WrapAround.aheadOf sequenceNumber firstSeq then
        some (if sequenceNumber < firstSeq then packetIndex + 65536 else packetIndex)
      else some (if firstSeq < sequenceNumber then packetIndex - 65536 else packetIndex)

/-- `GetStoredPacket(sequence_number)`: the slot of the packet, if there is one. -/
def getStoredPacket (h : RtpPacketHistory) (sequenceNumber : U16) :
    Option (Option (Nat × StoredPacket)) :=
  match h.getPacketIndex sequenceNumber with
  | none => none
  | some index =>
    if index < 0 then some none
    else some ((h.slot index.toNat).map fun p => (index.toNat, p))

/-- `GetLastAvailablePacket()`. -/
def getLastAvailablePacket (h : RtpPacketHistory) : Option (Nat × StoredPacket) :=
  (List.range h.packetHistory.length).reverse.findSome? fun i => (h.slot i).map fun p => (i, p)

/-- `CanBeTransmitted(packet)`. -/
def canBeTransmitted (h : RtpPacketHistory) (nowMs : Int) (p : StoredPacket) : Bool :=
  match p.sendTimeMs with
  | some sendTime => !(decide (0 < p.numRetransmitted) && decide (nowMs - sendTime < h.rttMs))
  | none => true

/-! ## Culling -/

/-- The pops that make sure that the first entry is populated. -/
def popFront (h : RtpPacketHistory) : RtpPacketHistory :=
  { h with
    packetHistory := h.packetHistory.dropWhile Option.isNone
    firstAddress := h.firstAddress + (h.packetHistory.takeWhile Option.isNone).length }

/-- `RemovePacket(packet_index)`: the history and the packet that was removed. -/
def removePacket (h : RtpPacketHistory) (i : Nat) : RtpPacketHistory × List RtpPacketToSend :=
  let (h, removed) :=
    match h.slot i with
    | none => (h, [])
    | some stored =>
      ({ h with
        paddingPriority :=
          if h.enablePaddingPrio then
            (erasePointer h.before (h.firstAddress + i) h.paddingPriority).1
          else h.paddingPriority
        packetHistory := h.packetHistory.set i none }, [stored.packet])
  (if i = 0 then h.popFront else h, removed)

/-- `IsTimedOut(send_time_ms, duration_ms, now_ms)`. -/
def isTimedOut (sendTimeMs durationMs nowMs : Int) : Bool :=
  decide (sendTimeMs + durationMs * kPacketCullingDelayFactor ≤ nowMs)

/-- `packet_duration_ms`. -/
def packetDurationMs (h : RtpPacketHistory) : Int :=
  max (kMinPacketDurationRttFactor * h.rttMs) kMinPacketDurationMs

/-- The loop of `CullOldPackets(now_ms)`, for at most `fuel` rounds; a `continue` on a front
entry that is empty or unsent leaves everything as it is. -/
def cullLoop (nowMs : Int) : Nat → RtpPacketHistory →
    Option (RtpPacketHistory × List RtpPacketToSend)
  | 0, _ => none
  | fuel + 1, h =>
    if h.packetHistory = [] then some (h, [])
    else
      let removeFirst : Option (RtpPacketHistory × List RtpPacketToSend) :=
        let (h, removed) := h.removePacket 0
        (cullLoop nowMs fuel h).map fun r => (r.1, removed ++ r.2)
      if kMaxCapacity ≤ h.packetHistory.length then removeFirst
      else
        match h.slot 0 with
        | none => cullLoop nowMs fuel h
        | some stored =>
          if stored.pendingTransmission then some (h, [])
          else
            match stored.sendTimeMs with
            | none => cullLoop nowMs fuel h
            | some sendTime =>
              if nowMs < sendTime + h.packetDurationMs then some (h, [])
              else if h.numberToStore ≤ h.packetHistory.length ∨
                  isTimedOut sendTime h.packetDurationMs nowMs then removeFirst
              else some (h, [])

/-- `CullOldPackets(now_ms)`: the history and what was culled.  A loop that makes more
rounds than there are slots has made one that changed nothing. -/
def cullOldPackets (h : RtpPacketHistory) (nowMs : Int) :
    Option (RtpPacketHistory × List RtpPacketToSend) :=
  cullLoop nowMs (h.packetHistory.length + 1) h

/-! ## The calls -/

/-- What a call returns, and the packets that it removed from the history. -/
structure Result where
  packet : Option RtpPacketToSend
  culled : List RtpPacketToSend
  deriving DecidableEq

/-- The slots that are missing in front of or behind a packet, and its index then. -/
def expand (h : RtpPacketHistory) (packetIndex : Int) : RtpPacketHistory × Nat :=
  let front := (-packetIndex).toNat
  let h := { h with
    packetHistory := List.replicate front none ++ h.packetHistory
    firstAddress := h.firstAddress - front }
  let index := packetIndex.toNat
  ({ h with packetHistory :=
      h.packetHistory ++ List.replicate (index + 1 - h.packetHistory.length) none }, index)

/-- The new packet in `padding_priority_`. -/
def insertPadding (h : RtpPacketHistory) (pointer : Int) : RtpPacketHistory :=
  if h.enablePaddingPrio then
    let set := if kMaxPaddingtHistory - 1 ≤ h.paddingPriority.length then h.paddingPriority.dropLast
      else h.paddingPriority
    { h with paddingPriority := insertBy h.before id pointer set }
  else h

/-- The second half of `PutRtpPacket`, after the culling. -/
def store (h : RtpPacketHistory) (packet : RtpPacketToSend) (sendTimeMs : Option Int) :
    Option (RtpPacketHistory × List RtpPacketToSend) := do
  let index ← h.getPacketIndex packet.sequenceNumber
  let (h, removed, index) ←
    if 0 ≤ index ∧ (h.slot index.toNat).isSome then
      let (h, removed) := h.removePacket index.toNat
      match h.getPacketIndex packet.sequenceNumber with
      | none => none
      | some index => some (h, removed, index)
    else some (h, [], index)
  let (h, i) := h.expand index
  -- the assertions
  if i < h.packetHistory.length ∧ h.slot i = none then
    let stored := StoredPacket.create packet sendTimeMs h.packetsInserted
    let h := { h with
      packetHistory := h.packetHistory.set i (some stored)
      packetsInserted := h.packetsInserted + 1 }
    some (h.insertPadding (h.firstAddress + i), removed)
  else none

/-- Does `PutRtpPacket` store the packet? -/
def accepts (h : RtpPacketHistory) (packet : RtpPacketToSend) : Bool :=
  decide (packet.headerSize + packet.payloadSize + packet.paddingSize ≠ 0) &&
    decide (h.mode ≠ .disable) && packet.allowRetransmission

/-- `PutRtpPacket(packet, send_time_ms)`. -/
def putRtpPacket (h : RtpPacketHistory) (nowMs : Int) (packet : RtpPacketToSend)
    (sendTimeMs : Option Int) : Option (RtpPacketHistory × Result) :=
  if h.accepts packet then
    match h.cullOldPackets nowMs with
    | none => none
    | some (h, culled) =>
      match h.store packet sendTimeMs with
      | none => none
      | some (h, removed) => some (h, ⟨none, culled ++ removed⟩)
  else some (h, ⟨none, []⟩)

/-- A call that looks up a packet first; nothing happens when it is not there. -/
def withStored (h : RtpPacketHistory) (sequenceNumber : U16)
    (act : Nat → StoredPacket → RtpPacketHistory × Option RtpPacketToSend) :
    Option (RtpPacketHistory × Result) :=
  if h.mode = .disable then some (h, ⟨none, []⟩)
  else
    match h.getStoredPacket sequenceNumber with
    | none => none
    | some none => some (h, ⟨none, []⟩)
    | some (some (i, stored)) => some ((act i stored).1, ⟨(act i stored).2, []⟩)

/-- `GetPacketAndSetSendTime(sequence_number)`. -/
def getPacketAndSetSendTime (h : RtpPacketHistory) (nowMs : Int) (sequenceNumber : U16) :
    Option (RtpPacketHistory × Result) :=
  h.withStored sequenceNumber fun i stored =>
    if h.canBeTransmitted nowMs stored = false then (h, none)
    else
      let h := if stored.sendTimeMs.isSome then h.retransmitted i else h
      (h.update i fun p => { p with sendTimeMs := some nowMs, pendingTransmission := false },
        some stored.packet)

/-- `GetPacketAndMarkAsPending(sequence_number, encapsulate)`. -/
def getPacketAndMarkAsPending (h : RtpPacketHistory) (nowMs : Int) (sequenceNumber : U16)
    (encapsulate : RtpPacketToSend → Option RtpPacketToSend) : Option (RtpPacketHistory × Result) :=
  h.withStored sequenceNumber fun i stored =>
    if stored.pendingTransmission then (h, none)
    else if h.canBeTransmitted nowMs stored = false then (h, none)
    else
      match encapsulate stored.packet with
      | none => (h, none)
      | some packet => (h.update i fun p => { p with pendingTransmission := true }, some packet)

/-- `MarkPacketAsSent(sequence_number)`. -/
def markPacketAsSent (h : RtpPacketHistory) (nowMs : Int) (sequenceNumber : U16) :
    Option (RtpPacketHistory × Result) :=
  h.withStored sequenceNumber fun i stored =>
    if stored.sendTimeMs.isNone then (h, none)
    else
      let h := h.update i fun p => { p with sendTimeMs := some nowMs, pendingTransmission := false }
      (h.retransmitted i, none)

/-- The packet that `GetPayloadPaddingPacket` picks. -/
def bestPacket (h : RtpPacketHistory) : Option (Nat × StoredPacket) :=
  if h.enablePaddingPrio then
    match h.paddingPriority with
    | [] => none
    | pointer :: _ =>
      (h.deref pointer).map fun p => ((pointer - h.firstAddress).toNat, p)
  else h.getLastAvailablePacket

/-- `GetPayloadPaddingPacket(encapsulate)`. -/
def getPayloadPaddingPacket (h : RtpPacketHistory) (nowMs : Int)
    (encapsulate : RtpPacketToSend → Option RtpPacketToSend) : RtpPacketHistory × Result :=
  if h.mode = .disable then (h, ⟨none, []⟩)
  else
    match h.bestPacket with
    | none => (h, ⟨none, []⟩)
    | some (i, best) =>
      if best.pendingTransmission then (h, ⟨none, []⟩)
      else
        match encapsulate best.packet with
        | none => (h, ⟨none, []⟩)
        | some packet =>
          let h := h.update i fun p => { p with sendTimeMs := some nowMs }
          (h.retransmitted i, ⟨some packet, []⟩)

/-- `CullAckedPackets(acked_seq_nums)`: the history and what was culled. -/
def cullAckedPackets (h : RtpPacketHistory) :
    List U16 → Option (RtpPacketHistory × List RtpPacketToSend)
  | [] => some (h, [])
  | ackedSeqNum :: ackedSeqNums =>
    match h.getPacketIndex ackedSeqNum with
    | none => none
    | some index =>
      if index < 0 ∨ h.packetHistory.length ≤ index.toNat then cullAckedPackets h ackedSeqNums
      else
        let (h, removed) := h.removePacket index.toNat
        (cullAckedPackets h ackedSeqNums).map fun r => (r.1, removed ++ r.2)

/-- `SetRttMs(rtt_ms)`. -/
def setRttMs (h : RtpPacketHistory) (nowMs : Int) (rttMs : Int) :
    Option (RtpPacketHistory × Result) :=
  if rttMs < 0 then some (h, ⟨none, []⟩)
  else
    let h := { h with rttMs := rttMs }
    if h.mode = .disable then some (h, ⟨none, []⟩)
    else (h.cullOldPackets nowMs).map fun r => (r.1, ⟨none, r.2⟩)

/-! ## The machine -/

/-- The calls, each with what the clock shows. -/
inductive Op
  | putRtpPacket (nowMs : Int) (packet : RtpPacketToSend) (sendTimeMs : Option Int)
  | getPacketAndSetSendTime (nowMs : Int) (sequenceNumber : U16)
  | getPacketAndMarkAsPending (nowMs : Int) (sequenceNumber : U16)
      (encapsulate : RtpPacketToSend → Option RtpPacketToSend)
  | markPacketAsSent (nowMs : Int) (sequenceNumber : U16)
  | getPayloadPaddingPacket (nowMs : Int) (encapsulate : RtpPacketToSend → Option RtpPacketToSend)
  | cullAckedPackets (ackedSeqNums : List U16)
  | setRttMs (nowMs : Int) (rttMs : Int)

/-- One call. -/
def call (h : RtpPacketHistory) : Op → Option (RtpPacketHistory × Result)
  | .putRtpPacket nowMs packet sendTimeMs => h.putRtpPacket nowMs packet sendTimeMs
  | .getPacketAndSetSendTime nowMs sequenceNumber => h.getPacketAndSetSendTime nowMs sequenceNumber
  | .getPacketAndMarkAsPending nowMs sequenceNumber encapsulate =>
    h.getPacketAndMarkAsPending nowMs sequenceNumber encapsulate
  | .markPacketAsSent nowMs sequenceNumber => h.markPacketAsSent nowMs sequenceNumber
  | .getPayloadPaddingPacket nowMs encapsulate => some (h.getPayloadPaddingPacket nowMs encapsulate)
  | .cullAckedPackets ackedSeqNums =>
    (h.cullAckedPackets ackedSeqNums).map fun r => (r.1, ⟨none, r.2⟩)
  | .setRttMs nowMs rttMs => h.setRttMs nowMs rttMs

end RtpPacketHistory

/-- The history as a machine; it stops in `none` for good. -/
def historyMachine :
    Machine (Option RtpPacketHistory) RtpPacketHistory.Op (Option RtpPacketHistory.Result) where
  step h op :=
    match h.bind fun h => h.call op with
    | none => (none, none)
    | some (h, result) => (some h, some result)

end NaiveRtc.Rtp
