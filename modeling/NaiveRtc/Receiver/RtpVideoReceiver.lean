import NaiveRtc.Jitter.PacketBufferAssembly
import NaiveRtc.Media.SpsPpsTracker

/-!
# The H.264 receive path

The model of `OnReceivedPacket` and `OnDepacketizedPacket` in
`rtc/rtp_rtcp/rtp_video_receiver.cpp`: a packet is depacketized, its payload is turned into a
piece of an Annex B stream, and it goes into the packet buffer.

* `DeliversAnnexB` — what a step should hand on; `OnlyContinues` — the steps that do.
* `Unstarted` — a packet buffer in which no frame begins; it assembles nothing.
* `delivers_annexB_iff` — the payload that is handed on is the depacketized one, so only packets
  in which no NAL unit begins are handed on as they should be.

The answers of the clock and of the NACK module come with the packet.  RED packets are left out:
what is recovered from them comes in as a packet of its own.  All depacketizers of the source
are for H.264.
-/

namespace NaiveRtc.Receiver

open ByteIo Rtp H264 Jitter SlotTable

/-! ## The receiver -/

/-- The packet buffer begins with so many slots -/
def kPacketBufferStartSize : Nat := 512

/-- and grows to so many. -/
def kPacketBufferMaxSize : Nat := 2048

/-- What is read of an `RtpPacketReceived`, with the answers of the clock and of the NACK
module. -/
structure ReceivedPacket where
  payloadType : UInt8
  seqNum : U16
  timestamp : U32 := 0
  marker : Bool := false
  payload : Bytes
  receivedTimeMs : Int := 0
  timesNacked : Int := -1
  deriving DecidableEq

/-- The part of `RtpVideoReceiver` that an H.264 packet goes through. -/
structure RtpVideoReceiver where
  /-- The payload types in `payload_type_map_`. -/
  payloadTypes : List UInt8
  parser : ParameterSetParser
  h264SpsPpsTracker : SpsPpsTracker
  packetBuffer : PacketBuffer

/-- What becomes of a packet. -/
inductive ReceiverEvent where
  /-- There is no depacketizer, or it rejects the packet. -/
  | rejected
  | padding (result : Except Fault InsertResult)
  | keyFrameRequested
  | dropped
  | inserted (packet : Packet) (fixed : FixedBitstream) (result : Except Fault InsertResult)
  /-- The payload is read past its end. -/
  | overread
  /-- The process has ended before. -/
  | gone

namespace RtpVideoReceiver

/-- The constructor, with the depacketizers and parameter sets it is given. -/
def create (payloadTypes : List UInt8) (parser : ParameterSetParser) (tracker : SpsPpsTracker) :
    RtpVideoReceiver where
  payloadTypes := payloadTypes
  parser := parser
  h264SpsPpsTracker := tracker
  packetBuffer := PacketBuffer.create kPacketBufferStartSize kPacketBufferMaxSize

/-- The receiver and the event after a call of the packet buffer. -/
def afterInsert (receiver : RtpVideoReceiver) (event : Except Fault InsertResult → ReceiverEvent) :
    Except Fault (PacketBuffer × InsertResult) → Option RtpVideoReceiver × ReceiverEvent
  | .error fault => (none, event (.error fault))
  | .ok (packetBuffer, result) =>
    (some { receiver with packetBuffer := packetBuffer }, event (.ok result))

/-- `HandleEmptyPacket(seq_num)`. -/
def handleEmptyPacket (receiver : RtpVideoReceiver) (seqNum : U16) :
    Option RtpVideoReceiver × ReceiverEvent :=
  receiver.afterInsert .padding (receiver.packetBuffer.insertPadding seqNum)

/-- The packet that `OnDepacketizedPacket` builds. -/
def jitterPacket (depacketized : DepacketizedPacket) (rtpPacket : ReceivedPacket) : Packet where
  videoHeader := { depacketized.videoHeader with
    isLastPacketInFrame := depacketized.videoHeader.isLastPacketInFrame || rtpPacket.marker }
  videoCodecHeader := .h264 depacketized.codecHeader
  seqNum := rtpPacket.seqNum
  timestamp := rtpPacket.timestamp
  receivedTimeMs := rtpPacket.receivedTimeMs
  timesNacked := rtpPacket.timesNacked

/-- The packet as it is inserted: the resolution comes from the fixed bitstream, the payload and
the codec header do not. -/
def insertedPacket (depacketized : DepacketizedPacket) (rtpPacket : ReceivedPacket)
    (fixed : FixedBitstream) : Packet :=
  let packet := jitterPacket depacketized rtpPacket
  { packet with
    videoHeader := { packet.videoHeader with
      frameWidth := fixed.frameWidth, frameHeight := fixed.frameHeight }
    videoPayload := depacketized.videoPayload }

/-- `OnDepacketizedPacket(depacketized_packet, rtp_packet)`. -/
def onDepacketizedPacket (receiver : RtpVideoReceiver) (depacketized : DepacketizedPacket)
    (rtpPacket : ReceivedPacket) : Option RtpVideoReceiver × ReceiverEvent :=
  if depacketized.videoPayload = [] then receiver.handleEmptyPacket rtpPacket.seqNum
  else
    match receiver.h264SpsPpsTracker.fixPacket depacketized with
    | (_, none) => (none, .overread)
    | (tracker, some fixed) =>
      let receiver := { receiver with h264SpsPpsTracker := tracker }
      match fixed.action with
      | .requestKeyFrame => (some receiver, .keyFrameRequested)
      | .drop => (some receiver, .dropped)
      | .insert =>
        let packet := insertedPacket depacketized rtpPacket fixed
        receiver.afterInsert (.inserted packet fixed) (receiver.packetBuffer.insertPacket packet)

/-- `OnReceivedPacket(packet)`. -/
def onReceivedPacket (receiver : RtpVideoReceiver) (packet : ReceivedPacket) :
    Option RtpVideoReceiver × ReceiverEvent :=
  if packet.payload = [] then receiver.handleEmptyPacket packet.seqNum
  else if packet.payloadType ∉ receiver.payloadTypes then (some receiver, .rejected)
  else
    match RtpH264Depacketizer.depacketize receiver.parser packet.payload with
    | none => (some receiver, .rejected)
    | some depacketized => receiver.onDepacketizedPacket depacketized packet

end RtpVideoReceiver

/-- The receiver driven by packets. -/
def receiverMachine : Machine (Option RtpVideoReceiver) ReceivedPacket ReceiverEvent where
  step
    | none, _ => (none, .gone)
    | some receiver, packet => receiver.onReceivedPacket packet

/-! ## What should be handed on -/

/-- The assembled frames are Annex B streams. -/
def FramesAnnexB : Except Fault InsertResult → Prop
  | .error _ => True
  | .ok result => ∀ frame ∈ result.assembledFrames, AnnexB frame.bitstream

/-- **An inserted packet carries the fixed bitstream and the updated codec header, and every
assembled frame is an Annex B stream.** -/
def ReceiverEvent.DeliversAnnexB : ReceiverEvent → Prop
  | .inserted packet fixed result =>
    packet.videoPayload = fixed.bitstream ∧ packet.videoCodecHeader = .h264 fixed.header ∧
      FramesAnnexB result
  | .padding result => FramesAnnexB result
  | _ => True

/-- The step hands on what it should. -/
def DeliversAnnexB (state : Option RtpVideoReceiver) (packet : ReceivedPacket) : Prop :=
  (receiverMachine.step state packet).2.DeliversAnnexB

/-- The packet gets as far as the packet buffer. -/
def RtpVideoReceiver.Accepts (receiver : RtpVideoReceiver) (packet : ReceivedPacket) : Prop :=
  packet.payloadType ∈ receiver.payloadTypes ∧
    ∃ depacketized,
      RtpH264Depacketizer.depacketize receiver.parser packet.payload = some depacketized ∧
      depacketized.videoPayload ≠ [] ∧
      ∃ fixed, (receiver.h264SpsPpsTracker.fixPacket depacketized).2 = some fixed ∧
        fixed.action = .insert

/-- If the packet is accepted, no NAL unit begins in it. -/
def OnlyContinues (state : Option RtpVideoReceiver) (packet : ReceivedPacket) : Prop :=
  ∀ receiver, state = some receiver → receiver.Accepts packet → ContinuesFuA packet.payload

/-! ## A packet buffer in which no frame begins -/

/-- No stored packet begins a frame or is marked as continuous. -/
def Unstarted (s : PacketBuffer) : Prop :=
  ∀ p, some p ∈ s.packetBuffer →
    p.videoHeader.isFirstPacketInFrame = false ∧ p.continuous = false

section Unstarted

variable {s s' : PacketBuffer}

theorem unstarted_create (n m : Nat) : Unstarted (PacketBuffer.create n m) := by
  intro p hp
  exact absurd (List.eq_of_mem_replicate hp) (by simp)

section

variable (h : Unstarted s)
include h

theorem Unstarted.congr (hbuffer : s'.packetBuffer = s.packetBuffer) :
    Unstarted s' := by
  intro p hp
  rw [hbuffer] at hp
  exact h p hp

theorem Unstarted.get {i : Nat} {p : Packet} (hp : s.get i = some p) :
    p.videoHeader.isFirstPacketInFrame = false ∧ p.continuous = false :=
  h p (mem_iff_slot.2 ⟨i, hp⟩)

theorem Unstarted.isContinuous (seqNum : U16) :
    s.isContinuous seqNum = false := by
  rw [← Bool.not_eq_true, PacketBuffer.isContinuous_iff]
  rintro ⟨p, hp, -, hfirst | ⟨-, q, hq, -, -, hcont⟩⟩
  · rw [(h.get hp).1] at hfirst
    exact absurd hfirst (by simp)
  · rw [(h.get hq).2] at hcont
    exact absurd hcont (by simp)

theorem Unstarted.assembleLoop (n : Nat) (seqNum : U16) :
    PacketBuffer.assembleLoop n seqNum s = .ok (s, {}) := by
  cases n with
  | zero => rfl
  | succ n =>
    rw [PacketBuffer.assembleLoop, h.isContinuous]
    rfl

theorem Unstarted.insertPadding (seqNum : U16) :
    ∃ s', s.insertPadding seqNum = .ok (s', {}) ∧ Unstarted s' := by
  have h' : Unstarted (s.updateMissingPackets seqNum kMaxMissingPacketCount) :=
    h.congr (PacketBuffer.packetBuffer_updateMissingPackets ..)
  exact ⟨_, h'.assembleLoop _ _, h'⟩

theorem Unstarted.storePacket {packet : Packet}
    (hfirst : packet.videoHeader.isFirstPacketInFrame = false) :
    ∃ s', s.storePacket packet = .ok (s', {}) ∧ Unstarted s' := by
  have hset : Unstarted
      (s.set (s.indexOf packet.seqNum) (some { packet with continuous := false })) := by
    intro p hp
    rcases List.mem_or_eq_of_mem_set hp with hp | hp
    · exact h p hp
    · cases hp
      exact ⟨hfirst, rfl⟩
  have h' := hset.congr (PacketBuffer.packetBuffer_updateMissingPackets _ packet.seqNum
    kMaxMissingPacketCount)
  exact ⟨_, h'.assembleLoop _ _, h'⟩

theorem Unstarted.expandPacketBuffer (newSize : Nat) :
    Unstarted (s.expandPacketBuffer newSize) := by
  unfold PacketBuffer.expandPacketBuffer
  split
  · exact h
  · intro p hp
    obtain ⟨i, hi⟩ := mem_iff_slot.1 hp
    exact h p (slot_rehash hi).1

theorem Unstarted.expandPacketBufferIfNecessary {seqNum : U16}
    (hexpand : s.expandPacketBufferIfNecessary seqNum = some s') : Unstarted s' := by
  unfold PacketBuffer.expandPacketBufferIfNecessary at hexpand
  split at hexpand
  · cases hexpand
    exact h
  split at hexpand
  · cases hexpand
  · obtain ⟨n, -, rfl⟩ := Option.map_eq_some_iff.1 hexpand
    exact h.expandPacketBuffer n

end

theorem Unstarted.clear (s : PacketBuffer) : Unstarted s.clear := by
  intro p hp
  obtain ⟨o, -, ho⟩ := List.mem_map.1 hp
  exact absurd ho (by simp)

/-- **A packet that begins no frame leaves an unstarted buffer unstarted, and no frame comes
out.** -/
theorem Unstarted.insertPacket (h : Unstarted s) {packet : Packet}
    (hfirst : packet.videoHeader.isFirstPacketInFrame = false) :
    ∃ s' result, s.insertPacket packet = .ok (s', result) ∧ result.assembledFrames = [] ∧
      Unstarted s' := by
  have hnote : Unstarted (s.noteFirst packet.seqNum) :=
    h.congr (PacketBuffer.packetBuffer_noteFirst ..)
  unfold PacketBuffer.insertPacket
  dsimp only
  split
  · exact ⟨s, {}, rfl, rfl, h⟩
  split
  · obtain ⟨s', hs', h'⟩ := hnote.storePacket hfirst
    exact ⟨s', {}, hs', rfl, h'⟩
  split
  · exact ⟨_, {}, rfl, rfl, hnote⟩
  split
  · exact ⟨_, _, rfl, rfl, Unstarted.clear _⟩
  · rename_i hexpand
    obtain ⟨s', hs', h'⟩ := (hnote.expandPacketBufferIfNecessary hexpand).storePacket hfirst
    exact ⟨s', {}, hs', rfl, h'⟩

end Unstarted

/-! ## Steps -/

section Steps

variable {receiver : RtpVideoReceiver} {packet : ReceivedPacket} {depacketized : DepacketizedPacket}
  {fixed : FixedBitstream}

@[simp] theorem afterInsert_snd (event : Except Fault InsertResult → ReceiverEvent)
    (r : Except Fault (PacketBuffer × InsertResult)) :
    (receiver.afterInsert event r).2 = event (r.map Prod.snd) := by
  cases r <;> rfl

theorem onReceivedPacket_accepted (htype : packet.payloadType ∈ receiver.payloadTypes)
    (hd : RtpH264Depacketizer.depacketize receiver.parser packet.payload = some depacketized)
    (hpayload : depacketized.videoPayload ≠ [])
    (hfixed : (receiver.h264SpsPpsTracker.fixPacket depacketized).2 = some fixed)
    (hinsert : fixed.action = .insert) :
    receiver.onReceivedPacket packet =
      { receiver with
        h264SpsPpsTracker := (receiver.h264SpsPpsTracker.fixPacket depacketized).1 }.afterInsert
          (.inserted (RtpVideoReceiver.insertedPacket depacketized packet fixed) fixed)
          (receiver.packetBuffer.insertPacket
            (RtpVideoReceiver.insertedPacket depacketized packet fixed)) := by
  have hne : packet.payload ≠ [] := by
    intro hnil
    rw [hnil] at hd
    exact absurd hd (by simp [RtpH264Depacketizer.depacketize])
  unfold RtpVideoReceiver.onReceivedPacket
  rw [if_neg hne, if_neg (not_not_intro htype), hd]
  dsimp only
  unfold RtpVideoReceiver.onDepacketizedPacket
  rw [if_neg hpayload]
  generalize receiver.h264SpsPpsTracker.fixPacket depacketized = r at hfixed ⊢
  obtain ⟨tracker, result⟩ := r
  obtain rfl : result = some fixed := hfixed
  simp only [hinsert]

theorem onReceivedPacket_not_accepted (h : ¬ receiver.Accepts packet) :
    receiver.onReceivedPacket packet = receiver.handleEmptyPacket packet.seqNum ∨
      ∃ next event, receiver.onReceivedPacket packet = (next, event) ∧ event.DeliversAnnexB ∧
        ∀ receiver' ∈ next, receiver'.packetBuffer = receiver.packetBuffer := by
  unfold RtpVideoReceiver.onReceivedPacket
  split
  · exact Or.inl rfl
  split
  · exact Or.inr ⟨_, _, rfl, trivial, by simp⟩
  rename_i htype
  rw [not_not] at htype
  cases hd : RtpH264Depacketizer.depacketize receiver.parser packet.payload with
  | none => exact Or.inr ⟨_, _, rfl, trivial, by simp⟩
  | some depacketized =>
    dsimp only
    unfold RtpVideoReceiver.onDepacketizedPacket
    split
    · exact Or.inl rfl
    · rename_i hpayload
      refine Or.inr ?_
      cases hfix : receiver.h264SpsPpsTracker.fixPacket depacketized with
      | mk tracker result =>
        cases result with
        | none => exact ⟨_, _, rfl, trivial, by simp⟩
        | some fixed =>
          dsimp only
          cases haction : fixed.action with
          | requestKeyFrame => exact ⟨_, _, rfl, trivial, by simp⟩
          | drop => exact ⟨_, _, rfl, trivial, by simp⟩
          | insert =>
            refine absurd ⟨htype, depacketized, hd, hpayload, fixed, ?_, haction⟩ h
            rw [hfix]

theorem onlyContinues_of_delivers {state : Option RtpVideoReceiver}
    (h : DeliversAnnexB state packet) : OnlyContinues state packet := by
  rintro receiver rfl ⟨htype, depacketized, hd, hpayload, fixed, hfixed, hinsert⟩
  by_contra hbegins
  have hlt := length_lt_fixPacket hd hbegins hfixed hinsert
  have hstep : receiverMachine.step (some receiver) packet = _ :=
    onReceivedPacket_accepted htype hd hpayload hfixed hinsert
  unfold DeliversAnnexB at h
  rw [hstep, afterInsert_snd] at h
  have heq : depacketized.videoPayload = fixed.bitstream := h.1
  rw [heq] at hlt
  exact absurd hlt (Nat.lt_irrefl _)

/-- The packet buffer of a receiver in which no frame begins. -/
def UnstartedReceiver (state : Option RtpVideoReceiver) : Prop :=
  ∀ receiver, state = some receiver → Unstarted receiver.packetBuffer

/-- **A step in which no NAL unit begins** hands on what it should and keeps the buffer
unstarted. -/
theorem delivers_of_onlyContinues {state : Option RtpVideoReceiver}
    (hstate : UnstartedReceiver state) (h : OnlyContinues state packet) :
    DeliversAnnexB state packet ∧ UnstartedReceiver (receiverMachine.step state packet).1 := by
  unfold DeliversAnnexB
  cases state with
  | none => exact ⟨trivial, hstate⟩
  | some receiver =>
    have hbuffer := hstate receiver rfl
    by_cases haccepts : receiver.Accepts packet
    · have hcontinues := h receiver rfl haccepts
      obtain ⟨htype, depacketized, hd, hpayload, fixed, hfixed, hinsert⟩ := haccepts
      obtain ⟨hfirst, hfix⟩ := fixPacket_continuation hd hcontinues hpayload
        receiver.h264SpsPpsTracker
      have hstep : receiverMachine.step (some receiver) packet = _ :=
        onReceivedPacket_accepted htype hd hpayload hfixed hinsert
      rw [hfix] at hfixed
      obtain rfl := Option.some.inj hfixed
      have hinserted : (RtpVideoReceiver.insertedPacket depacketized packet
          ⟨.insert, depacketized.videoPayload, depacketized.videoHeader.frameWidth,
            depacketized.videoHeader.frameHeight, depacketized.codecHeader⟩
          ).videoHeader.isFirstPacketInFrame = false := hfirst
      obtain ⟨s', result, hs', hframes, h'⟩ := hbuffer.insertPacket hinserted
      rw [hstep, hs']
      refine ⟨⟨rfl, rfl, ?_⟩, ?_⟩
      · intro frame hframe
        rw [hframes] at hframe
        exact absurd hframe List.not_mem_nil
      · intro receiver' heq
        cases heq
        exact h'
    · rcases onReceivedPacket_not_accepted haccepts with hstep | ⟨next, event, hstep, hevent, hnext⟩
      · obtain ⟨s', hs', h'⟩ := hbuffer.insertPadding packet.seqNum
        have hstep' : receiverMachine.step (some receiver) packet = receiver.afterInsert .padding
            (receiver.packetBuffer.insertPadding packet.seqNum) := hstep
        rw [hstep', hs']
        refine ⟨?_, ?_⟩
        · intro frame hframe
          exact absurd hframe List.not_mem_nil
        · intro receiver' heq
          cases heq
          exact h'
      · have hstep' : receiverMachine.step (some receiver) packet = (next, event) := hstep
        rw [hstep']
        refine ⟨hevent, ?_⟩
        intro receiver' heq
        rw [hnext receiver' heq]
        exact hbuffer

end Steps

/-- **What is handed on, along every run** of a new receiver, whatever parameter sets it knows:
all inserted packets carry the fixed bitstream and the updated header, and all assembled frames
are Annex B streams, exactly if no NAL unit begins in an accepted packet. -/
theorem delivers_annexB_iff (payloadTypes : List UInt8) (parser : ParameterSetParser)
    (tracker : SpsPpsTracker) (packets : List ReceivedPacket) :
    receiverMachine.AllGood DeliversAnnexB
        (some (RtpVideoReceiver.create payloadTypes parser tracker)) packets ↔
      receiverMachine.AllGood OnlyContinues
        (some (RtpVideoReceiver.create payloadTypes parser tracker)) packets := by
  have hstart : UnstartedReceiver (some (RtpVideoReceiver.create payloadTypes parser tracker)) := by
    intro receiver heq
    cases heq
    exact unstarted_create _ _
  refine receiverMachine.allGood_iff_of_invariant ?_ ?_ hstart packets
  · exact fun state packet hstate h => (delivers_of_onlyContinues hstate h).2
  · exact fun state packet hstate =>
      ⟨onlyContinues_of_delivers, fun h => (delivers_of_onlyContinues hstate h).1⟩

/-- A parser that finds no parameter sets. -/
def noParameterSets : ParameterSetParser where
  parseSps _ := none
  parsePpsIds _ := none
  parsePpsIdFromSlice _ := none

/-- A slice in a packet of its own goes into the packet buffer without its start code. -/
theorem slice_without_start_code :
    let packet : ReceivedPacket :=
      { payloadType := 96, seqNum := 1, marker := true, payload := [0x41, 0x9a] }
    let receiver := RtpVideoReceiver.create [96] noParameterSets {}
    (∃ stored fixed result,
      (receiverMachine.step (some receiver) packet).2 = .inserted stored fixed result ∧
        stored.videoPayload = [0x41, 0x9a] ∧ fixed.bitstream = [0, 0, 0, 1, 0x41, 0x9a]) ∧
      ¬ receiverMachine.AllGood DeliversAnnexB (some receiver) [packet] := by
  intro packet receiver
  have htype : packet.payloadType ∈ receiver.payloadTypes := by decide
  let depacketized : DepacketizedPacket :=
    ⟨{ codecType := .h264, frameType := .delta, isFirstPacketInFrame := true }, .single, 1,
      { nalus := [{ type := 1, size := 2 }] }, [0x41, 0x9a]⟩
  have hd : RtpH264Depacketizer.depacketize receiver.parser packet.payload = some depacketized := by
    decide
  let fixed : FixedBitstream :=
    ⟨.insert, [0, 0, 0, 1, 0x41, 0x9a], 0, 0, { nalus := [{ type := 1, size := 2 }] }⟩
  have hfixed : (receiver.h264SpsPpsTracker.fixPacket depacketized).2 = some fixed := by rfl
  have hstep := onReceivedPacket_accepted htype hd (by decide) hfixed rfl
  refine ⟨⟨_, fixed, _, (congrArg Prod.snd hstep).trans (afterInsert_snd _ _), rfl, rfl⟩, ?_⟩
  · rintro ⟨h, -⟩
    have haccepts : receiver.Accepts packet :=
      ⟨htype, depacketized, hd, by decide, fixed, hfixed, rfl⟩
    have hcontinues := onlyContinues_of_delivers h receiver rfl haccepts
    exact absurd hcontinues (by decide)

end NaiveRtc.Receiver
