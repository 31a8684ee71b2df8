import NaiveRtc.Components.RtpDemuxerRtcp
import NaiveRtc.Rtp.HeaderExtensionValues
import NaiveRtc.Rtp.RtpPacket

/-!
# Routing RTP packets

The model of `rtc/rtp_rtcp/components/rtp_demuxer_rtp.cpp` and of `IsRtpPacket` in
`rtc/rtp_rtcp/base/rtp_utils.cpp`: a packet is for the sink of its SSRC, otherwise for the one of
its MID.  Both tables are read with an accessor that throws.

* `RtpSinks`, `Op` — both tables and what changes them.
* `intendedSink` — the sink that a packet is for.
* `rtp_routing_iff` — **when a packet is routed to its sink.**
* `known_mid_throws` — a packet that is for the sink of its MID.
-/

namespace NaiveRtc.RtpDemuxer

open Rtp

/-! ## Tables -/

/-- A map from keys to pointers; a key may be bound to a null pointer. -/
abbrev SinkTable (κ σ : Type*) := κ → Option (Option σ)

namespace SinkTable

variable {κ σ : Type*} [DecidableEq κ]

/-- `emplace(key, sink)`, which keeps a binding that is there. -/
def emplace (table : SinkTable κ σ) (key : κ) (sink : Option σ) : SinkTable κ σ :=
  if (table key).isSome then table else Function.update table key (some sink)

/-- `erase(key)`. -/
def erase (table : SinkTable κ σ) (key : κ) : SinkTable κ σ := Function.update table key none

omit [DecidableEq κ] in
/-- The sink of a key, if it is bound to one. -/
def sink (table : SinkTable κ σ) (key : κ) : Option σ := (table key).join

end SinkTable

/-- `rtp_sink_by_ssrc_` and `rtp_sink_by_mid_`. -/
structure RtpSinks (σ : Type*) where
  rtpSinkBySsrc : SinkTable U32 σ
  rtpSinkByMid : SinkTable (List UInt8) σ

namespace RtpSinks

variable {σ : Type*}

/-- `RtpDemuxer()`, and what `Clear()` leaves. -/
def empty : RtpSinks σ := ⟨fun _ => none, fun _ => none⟩

/-- What changes the tables. -/
inductive Op (σ : Type*)
  | addRtpSink (ssrc : U32) (sink : Option σ)
  | removeRtpSink (ssrc : U32)
  | addRtpSinkOfMid (mid : List UInt8) (sink : Option σ)
  | removeRtpSinkOfMid (mid : List UInt8)
  | clear

/-- One call. -/
def apply (s : RtpSinks σ) : Op σ → RtpSinks σ
  | .addRtpSink ssrc sink => { s with rtpSinkBySsrc := s.rtpSinkBySsrc.emplace ssrc sink }
  | .removeRtpSink ssrc => { s with rtpSinkBySsrc := s.rtpSinkBySsrc.erase ssrc }
  | .addRtpSinkOfMid mid sink => { s with rtpSinkByMid := s.rtpSinkByMid.emplace mid sink }
  | .removeRtpSinkOfMid mid => { s with rtpSinkByMid := s.rtpSinkByMid.erase mid }
  | .clear => empty

end RtpSinks

/-! ## Packets -/

/-- The smallest RTP packet. -/
def kFixedRtpPacketSize : Nat := 12

/-- The dynamic payload types, from here -/
def kRtpPayloadTypeLowerRangeValue : UInt8 := 96

/-- to here. -/
def kRtpPayloadTypeUpperRangeValue : UInt8 := 127

/-- `IsRtpPacket(packet)`. -/
def isRtpPacket (packet : List UInt8) : Bool :=
  decide (kFixedRtpPacketSize ≤ packet.length) && packet.getD 0 0 >>> 6 == kFixedRtpVersion &&
    (decide (kRtpPayloadTypeLowerRangeValue ≤ packet.getD 1 0 &&& 0x7F) &&
      decide (packet.getD 1 0 &&& 0x7F ≤ kRtpPayloadTypeUpperRangeValue))

/-- `GetExtension<RtpMid>()`. -/
def rtpMid (packet : RtpPacket) : Option (List UInt8) :=
  let raw := packet.findExtension .mid
  if raw.isEmpty then none else BaseRtpString.parse raw []

section

variable {σ : Type*}

/-- `DeliverRtpPacket(received_packet)`: the result, and the sink that receives the packet.  The
other stream identifiers are read, but nothing depends on them. -/
def deliverRtpPacket (sinks : RtpSinks σ) (receivedPacket : RtpPacket) : Option (Bool × Option σ) :=
  if isRtpPacket receivedPacket.bytes = false then some (false, none)
  else
    match sinks.rtpSinkBySsrc receivedPacket.ssrc with
    | none => none
    | some (some sink) => some (true, some sink)
    | some none =>
      match rtpMid receivedPacket with
      | none => some (true, none)
      | some mid => (sinks.rtpSinkByMid mid).map fun sink => (true, sink)

/-- The sink that a packet is for. -/
def intendedSink (sinks : RtpSinks σ) (packet : RtpPacket) : Option σ :=
  match sinks.rtpSinkBySsrc.sink packet.ssrc with
  | some sink => some sink
  | none => (rtpMid packet).bind sinks.rtpSinkByMid.sink

/-- A packet reaches the sink that it is for, and no other, without an exception. -/
def RtpRouted (sinks : RtpSinks σ) (packet : RtpPacket) : Prop :=
  ∃ result, deliverRtpPacket sinks packet = some (result, intendedSink sinks packet)

/-- What keeps a packet on its way: a payload type for RTP, an SSRC that is a key, and, where that
is bound to a null pointer, a MID that is one if there is any. -/
def OnItsWay (sinks : RtpSinks σ) (packet : RtpPacket) : Prop :=
  if isRtpPacket packet.bytes = false then intendedSink sinks packet = none
  else
    (sinks.rtpSinkBySsrc packet.ssrc).isSome ∧
      (sinks.rtpSinkBySsrc packet.ssrc = some none →
        ∀ mid, rtpMid packet = some mid → (sinks.rtpSinkByMid mid).isSome)

theorem rtpRouted_iff (sinks : RtpSinks σ) (packet : RtpPacket) :
    RtpRouted sinks packet ↔ OnItsWay sinks packet := by
  unfold RtpRouted OnItsWay deliverRtpPacket
  by_cases hrtp : isRtpPacket packet.bytes = false
  · rw [if_pos hrtp, if_pos hrtp]
    constructor
    · rintro ⟨result, heq⟩
      exact (Prod.mk.inj (Option.some.inj heq)).2.symm
    · exact fun hnone => ⟨false, by rw [hnone]⟩
  rw [if_neg hrtp, if_neg hrtp]
  unfold intendedSink SinkTable.sink
  cases hssrc : sinks.rtpSinkBySsrc packet.ssrc with
  | none => simp
  | some pointer =>
    cases pointer with
    | some sink => simp
    | none =>
      cases hmid : rtpMid packet with
      | none => simp
      | some mid => cases htable : sinks.rtpSinkByMid mid <;> simp [htable]

/-! ## Runs -/

/-- **A packet reaches the sink it is for**, after every run of registrations and removals, exactly
if nothing keeps it on its way: a packet with a payload type for RTP needs an SSRC that is a key,
although it may be for the sink of its MID, or for none. -/
theorem rtp_routing_iff (ops : List (RtpSinks.Op σ)) (packet : RtpPacket) :
    RtpRouted (ops.foldl RtpSinks.apply RtpSinks.empty) packet ↔
      OnItsWay (ops.foldl RtpSinks.apply RtpSinks.empty) packet :=
  rtpRouted_iff _ packet

end

/-- A packet from SSRC 7 with the one-byte MID extension `a`, under identifier 1. -/
def packetWithMid : RtpPacket × Bool :=
  (RtpPacket.create (fun _ size => size)
      { extensionIds := fun type => if type = .mid then 1 else 0 } 1500).parse (fun _ size => size)
    [0x90, 96, 0, 1, 0, 0, 0, 1, 0, 0, 0, 7, 0xBE, 0xDE, 0, 1, 0x10, 0x61, 0, 0]

/-- A sink is registered for the MID of the packet, none for its SSRC: the first table throws. -/
theorem known_mid_throws :
    let sinks : RtpSinks Nat :=
      [RtpSinks.Op.addRtpSinkOfMid [0x61] (some 20)].foldl RtpSinks.apply RtpSinks.empty
    packetWithMid.2 = true ∧ isRtpPacket packetWithMid.1.bytes = true ∧
      intendedSink sinks packetWithMid.1 = some 20 ∧
      deliverRtpPacket sinks packetWithMid.1 = none ∧ ¬RtpRouted sinks packetWithMid.1 := by
  intro sinks
  have hparsed : packetWithMid.2 = true := by decide +kernel
  have hrtp : isRtpPacket packetWithMid.1.bytes = true := by decide +kernel
  have hintended : intendedSink sinks packetWithMid.1 = some 20 := by decide +kernel
  have hthrows : deliverRtpPacket sinks packetWithMid.1 = none := by decide +kernel
  refine ⟨hparsed, hrtp, hintended, hthrows, fun ⟨result, heq⟩ => ?_⟩
  rw [hthrows] at heq
  cases heq

end NaiveRtc.RtpDemuxer
