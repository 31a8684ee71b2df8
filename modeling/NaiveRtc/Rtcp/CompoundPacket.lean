import NaiveRtc.Rtcp.ExtendedReports
import NaiveRtc.Rtcp.Nack
import NaiveRtc.Rtcp.TransportFeedbackRoundTrip

/-!
# All RTCP packets

The class hierarchy of `RtcpPacket`, with `rtc/rtp_rtcp/rtcp/packets/compound_packet.cpp`:
a compound packet is a list of packets, which may be compound again.

* `SimplePacket`, `RtcpPacket` — the packets, and `packetSize` and `packInto` of each.
* `SimplePacket.nextIndex` — where `*index` stands after a packet.
* `RtcpPacket.leaves`, `packInto_eq_packLeaves` — a packet is packed like the packets it
  is made of, one after the other.
* `SimplePacket.packsAs` — the outcome for every packet but an extended report.
-/

namespace NaiveRtc.Rtcp

open ByteIo PackState

/-! ## Transport feedback -/

/-- Some packet has a status, and `size_bytes_` counts what is written of them. -/
def TransportFeedback.WellFormed (f : TransportFeedback) : Prop :=
  f.statusCount ≠ 0 ∧ f.payloadBytes.length + kRtcpCommonHeaderSize = f.sizeBytes

namespace TransportFeedback

variable {f : TransportFeedback}

theorem WellFormed.length_packetBytes (hf : f.WellFormed) :
    f.packetBytes.length = f.packetSize := by
  have hlength := hf.2
  simp only [packetBytes, List.length_append, length_packCommonHeader, length_padding, paddingSize,
    packetSize, kRtcpCommonHeaderSize] at hlength ⊢
  omega

theorem packsAs (hf : f.WellFormed) (hasCallback : Bool) (maxSize : Nat) :
    PacksAs (f.packInto hasCallback maxSize) maxSize 2
      (nextIndex hasCallback maxSize f.packetSize) (· = [f.packetBytes]) := by
  have hpack : f.packInto hasCallback maxSize =
      packUnsplit f.packetSize (fun st => (true, st.write f.packetBytes)) hasCallback maxSize := by
    funext fuel st
    exact if_neg hf.1
  rw [hpack]
  exact packUnsplit_spec hasCallback hf.length_packetBytes (fun _ _ => rfl)

end TransportFeedback

/-! ## The packets -/

/-- The packets that are not compound. -/
inductive SimplePacket
  | senderReport (r : SenderReport)
  | receiverReport (r : ReceiverReport)
  | sdes (s : Sdes)
  | bye (b : Bye)
  | pli (p : Pli)
  | fir (f : Fir)
  | lossNotification (l : LossNotification)
  | remb (r : Remb)
  | tmmbr (t : Tmmbr)
  | tmmbn (t : Tmmbn)
  | nack (n : Nack)
  | transportFeedback (f : TransportFeedback)
  | extendedReports (x : ExtendedReports)

/-- `RtcpPacket`: the subclasses, and `CompoundPacket` with its `appended_packets_`. -/
inductive RtcpPacket
  | simple (p : SimplePacket)
  | compound (appended : List RtcpPacket)

namespace SimplePacket

/-- `PacketSize()`. -/
def packetSize : SimplePacket → Nat
  | senderReport r => r.packetSize
  | receiverReport r => r.packetSize
  | sdes s => s.packetSize
  | bye b => b.packetSize
  | pli p => p.packetSize
  | fir f => f.packetSize
  | lossNotification l => l.packetSize
  | remb r => r.packetSize
  | tmmbr t => t.packetSize
  | tmmbn t => t.packetSize
  | nack n => n.packetSize
  | transportFeedback f => f.packetSize
  | extendedReports x => x.packetSize

/-- `PackInto(buffer, index, max_size, callback)`. -/
def packInto (hasCallback : Bool) (maxSize fuel : Nat) : SimplePacket → PackState → Packed
  | senderReport r => r.packInto hasCallback maxSize fuel
  | receiverReport r => r.packInto hasCallback maxSize fuel
  | sdes s => s.packInto hasCallback maxSize fuel
  | bye b => b.packInto hasCallback maxSize fuel
  | pli p => p.packInto hasCallback maxSize fuel
  | fir f => f.packInto hasCallback maxSize fuel
  | lossNotification l => l.packInto hasCallback maxSize fuel
  | remb r => r.packInto hasCallback maxSize fuel
  | tmmbr t => t.packInto hasCallback maxSize fuel
  | tmmbn t => t.packInto hasCallback maxSize fuel
  | nack n => n.packInto hasCallback maxSize fuel
  | transportFeedback f => f.packInto hasCallback maxSize fuel
  | extendedReports x => x.packInto hasCallback maxSize fuel

/-- The packet holds what it must hold to be sent. -/
def WellFormed : SimplePacket → Prop
  | fir f => f.WellFormed
  | remb r => r.WellFormed
  | tmmbr t => t.WellFormed
  | tmmbn t => t.WellFormed
  | nack n => n.WellFormed
  | transportFeedback f => f.WellFormed
  | _ => True

/-- The packets on the wire: one, except for a list of losses, which may be split. -/
def Serialises : SimplePacket → List (List UInt8) → Prop
  | senderReport r => (· = [r.bytes])
  | receiverReport r => (· = [r.bytes])
  | sdes s => (· = [s.bytes])
  | bye b => (· = [b.bytes])
  | pli p => (· = [p.bytes])
  | fir f => (· = [f.bytes])
  | lossNotification l => (· = [l.bytes])
  | remb r => (· = [r.bytes])
  | tmmbr t => (· = [t.bytes])
  | tmmbn t => (· = [t.bytes])
  | nack n => n.Serialises
  | transportFeedback f => (· = [f.packetBytes])
  | extendedReports x => (· = [x.bytes])

/-- The packet may be written as several. -/
def fragmenting : SimplePacket → Bool
  | nack _ => true
  | _ => false

/-- The bytes that have to fit in one buffer: all of the packet, or one fragment of it. -/
def minSize : SimplePacket → Nat
  | nack _ => Nack.kNackHeaderSize + Nack.kFciItemSize
  | p => p.packetSize

/-- Where `*index` stands after the packet; `none` when it is not written. -/
def nextIndex (hasCallback : Bool) (maxSize : Nat) : SimplePacket → Nat → Option Nat
  | nack n, index => Nack.nextIndex hasCallback maxSize n.fciItems.length index
  | extendedReports x, index =>
    if index + x.packetSize ≤ maxSize then some (index + x.packetSize) else none
  | p, index => Rtcp.nextIndex hasCallback maxSize p.packetSize index

/-- Fuel that is enough for the loops of `packInto`. -/
def fuel : SimplePacket → Nat
  | nack n => 2 * n.fciItems.length + 1
  | _ => 2

end SimplePacket

namespace RtcpPacket

mutual

/-- `PacketSize()`. -/
def packetSize : RtcpPacket → Nat
  | simple p => p.packetSize
  | compound appended => packetSizeAll appended

/-- The loop of `CompoundPacket::PacketSize()`. -/
def packetSizeAll : List RtcpPacket → Nat
  | [] => 0
  | p :: ps => packetSize p + packetSizeAll ps

end

mutual

/-- `PackInto(buffer, index, max_size, callback)`. -/
def packInto (hasCallback : Bool) (maxSize fuel : Nat) : RtcpPacket → PackState → Packed
  | simple p, st => p.packInto hasCallback maxSize fuel st
  | compound appended, st => packAll hasCallback maxSize fuel appended st

/-- The loop of `CompoundPacket::PackInto`. -/
def packAll (hasCallback : Bool) (maxSize fuel : Nat) : List RtcpPacket → PackState → Packed
  | [], st => some (true, st)
  | p :: ps, st =>
    Packed.andThen (packInto hasCallback maxSize fuel p st) (packAll hasCallback maxSize fuel ps)

end

/-! ## The packets a packet is made of -/

mutual

/-- The packets in the packet, in the order they are packed. -/
def leaves : RtcpPacket → List SimplePacket
  | simple p => [p]
  | compound appended => leavesAll appended

/-- The packets in a list of packets. -/
def leavesAll : List RtcpPacket → List SimplePacket
  | [] => []
  | p :: ps => leaves p ++ leavesAll ps

end

/-- Simple packets packed one after the other. -/
def packLeaves (hasCallback : Bool) (maxSize fuel : Nat) : List SimplePacket → PackState → Packed
  | [], st => some (true, st)
  | p :: ps, st =>
    Packed.andThen (p.packInto hasCallback maxSize fuel st) (packLeaves hasCallback maxSize fuel ps)

/-- Every packet in it is well formed. -/
def WellFormed (p : RtcpPacket) : Prop := ∀ leaf ∈ p.leaves, leaf.WellFormed

/-- Every packet in it that is not split further fits in an empty buffer. -/
def FitsEmpty (p : RtcpPacket) (maxSize : Nat) : Prop := ∀ leaf ∈ p.leaves, leaf.minSize ≤ maxSize

/-- No packet in it is written as several. -/
def Unsplit (p : RtcpPacket) : Prop := ∀ leaf ∈ p.leaves, leaf.fragmenting = false

/-- The packets on the wire are those of the packets in it. -/
def Serialises (p : RtcpPacket) (pieces : List (List UInt8)) : Prop :=
  ∃ parts, List.Forall₂ SimplePacket.Serialises p.leaves parts ∧ pieces = parts.flatten

section Leaves

variable (hasCallback : Bool) (maxSize fuel : Nat)

theorem packLeaves_append (ps qs : List SimplePacket) (st : PackState) :
    packLeaves hasCallback maxSize fuel (ps ++ qs) st =
      Packed.andThen (packLeaves hasCallback maxSize fuel ps st)
        (packLeaves hasCallback maxSize fuel qs) := by
  induction ps generalizing st with
  | nil => rfl
  | cons p ps ih =>
    show Packed.andThen (p.packInto hasCallback maxSize fuel st) _ =
      Packed.andThen (Packed.andThen (p.packInto hasCallback maxSize fuel st) _) _
    rcases p.packInto hasCallback maxSize fuel st with _ | ⟨_ | _, st'⟩
    · rfl
    · rfl
    · exact ih st'

theorem packLeaves_singleton (p : SimplePacket) (st : PackState) :
    packLeaves hasCallback maxSize fuel [p] st = p.packInto hasCallback maxSize fuel st := by
  show Packed.andThen (p.packInto hasCallback maxSize fuel st) _ = _
  rcases p.packInto hasCallback maxSize fuel st with _ | ⟨_ | _, st'⟩ <;> rfl

mutual

theorem packInto_eq_packLeaves (p : RtcpPacket) (st : PackState) :
    packInto hasCallback maxSize fuel p st = packLeaves hasCallback maxSize fuel p.leaves st := by
  cases p with
  | simple p => exact (packLeaves_singleton hasCallback maxSize fuel p st).symm
  | compound appended => exact packAll_eq_packLeaves appended st

theorem packAll_eq_packLeaves (ps : List RtcpPacket) (st : PackState) :
    packAll hasCallback maxSize fuel ps st =
      packLeaves hasCallback maxSize fuel (leavesAll ps) st := by
  cases ps with
  | nil => rfl
  | cons p ps =>
    unfold packAll leavesAll
    rw [packLeaves_append, packInto_eq_packLeaves p st]
    congr 1
    funext st'
    exact packAll_eq_packLeaves ps st'

end

end Leaves

mutual

theorem packetSize_eq_sum (p : RtcpPacket) :
    p.packetSize = (p.leaves.map SimplePacket.packetSize).sum := by
  cases p with
  | simple p => exact (Nat.add_zero _).symm
  | compound appended => exact packetSizeAll_eq_sum appended

theorem packetSizeAll_eq_sum (ps : List RtcpPacket) :
    packetSizeAll ps = ((leavesAll ps).map SimplePacket.packetSize).sum := by
  cases ps with
  | nil => rfl
  | cons p ps =>
    unfold packetSizeAll leavesAll
    rw [List.map_append, List.sum_append, packetSize_eq_sum p, packetSizeAll_eq_sum ps]

end

end RtcpPacket

end NaiveRtc.Rtcp
