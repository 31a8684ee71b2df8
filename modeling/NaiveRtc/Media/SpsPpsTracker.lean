import NaiveRtc.Rtp.H264Depacketizer

/-!
# Parameter sets and start codes

The model of `rtc/media/video/codecs/h264/sps_pps_tracker.{hpp,cpp}`: the payload of an H.264
packet is turned into a piece of an Annex B stream.

* `SpsPpsTracker`, `Inspection`, `inspectNalu`, `inspectNalus` — which parameter sets are known,
  and what the NAL units of a packet say about them.
* `countStapANalus`, `fixStapANalus`, `copyAndFixBitstream` — the new bitstream, and its size that
  is counted first.
* `AnnexB` — NAL units, each behind a start code.
* `Depacketized.fixPayload_begins` — what is made of a packet in which a NAL unit begins;
  `fixPacket_continuation` — a packet in which none begins stays as it is.
* `fixPacket_sound` — **nothing is read past the end, and nothing is dropped.**
-/

namespace NaiveRtc.H264

open ByteIo Rtp RtpH264Depacketizer
open RtpH264Packetizer (kLengthFieldSize kTypeMask kFuA kSBit kStapA)

/-! ## Data -/

/-- `start_code_h264`. -/
def startCode : Bytes := [0, 0, 0, 1]

/-- `data` with its `size`, which is asserted not to be zero: `InsertSpsPpsNalus` takes no parameter
set without a header. -/
abbrev ParameterSetData := { data : Bytes // data ≠ [] }

/-- `SpsPpsTracker::PpsInfo`, with data if it was supplied out of band. -/
structure PpsInfo where
  spsId : Int := -1
  data : Option ParameterSetData := none
  deriving DecidableEq

/-- `SpsPpsTracker::SpsInfo`, with data if it was supplied out of band. -/
structure SpsInfo where
  width : U16 := -1
  height : U16 := -1
  data : Option ParameterSetData := none
  deriving DecidableEq

/-- The maps of `SpsPpsTracker`. -/
structure SpsPpsTracker where
  ppsData : U32 → Option PpsInfo := fun _ => none
  spsData : U32 → Option SpsInfo := fun _ => none

/-- An identifier of a parameter set as a key. -/
def keyOf (id : Int) : U32 := BitVec.ofInt 32 id

/-- `SpsPpsTracker::PacketAction`. -/
inductive PacketAction where
  | insert
  | drop
  | requestKeyFrame
  deriving DecidableEq

/-- What `CopyAndFixBitstream` gives back, also through its reference arguments. -/
structure FixedBitstream where
  action : PacketAction
  bitstream : Bytes := []
  frameWidth : U16
  frameHeight : U16
  header : PacketizationInfo
  deriving DecidableEq

/-! ## The NAL units of a packet -/

/-- The variables of the loop over the NAL units: `sps` and `pps` are iterators. -/
structure Inspection where
  tracker : SpsPpsTracker
  frameWidth : U16
  frameHeight : U16
  appendSpsPps : Bool := false
  sps : Option U32 := none
  pps : Option U32 := none

/-- One round of the loop; `false` for the return of `REQUEST_KEY_FRAME`. -/
def inspectNalu (isFirstPacketInFrame : Bool) (st : Inspection) (nalu : NaluInfo) :
    Inspection × Bool :=
  if nalu.type = kSps then
    let info := (st.tracker.spsData (keyOf nalu.spsId)).getD {}
    let info := { info with width := st.frameWidth, height := st.frameHeight }
    ({ st with tracker := { st.tracker with
        spsData := Function.update st.tracker.spsData (keyOf nalu.spsId) (some info) } }, true)
  else if nalu.type = kPps then
    let info := (st.tracker.ppsData (keyOf nalu.ppsId)).getD {}
    let info := { info with spsId := nalu.spsId }
    ({ st with tracker := { st.tracker with
        ppsData := Function.update st.tracker.ppsData (keyOf nalu.ppsId) (some info) } }, true)
  else if nalu.type = kIdr ∧ isFirstPacketInFrame then
    if nalu.ppsId = -1 then (st, false)
    else
      match st.tracker.ppsData (keyOf nalu.ppsId) with
      | none => (st, false)
      | some pps =>
        match st.tracker.spsData (keyOf pps.spsId) with
        | none => (st, false)
        | some sps =>
          ({ st with
            pps := some (keyOf nalu.ppsId)
            sps := some (keyOf pps.spsId)
            frameWidth := sps.width
            frameHeight := sps.height
            appendSpsPps := st.appendSpsPps || (sps.data.isSome && pps.data.isSome) }, true)
  else (st, true)

/-- The loop over the NAL units. -/
def inspectNalus (isFirstPacketInFrame : Bool) (st : Inspection) : List NaluInfo → Inspection × Bool
  | [] => (st, true)
  | nalu :: nalus =>
    match inspectNalu isFirstPacketInFrame st nalu with
    | (st, true) => inspectNalus isFirstPacketInFrame st nalus
    | (st, false) => (st, false)

/-- The parameter sets put in front, and the header that names them. -/
def prependSpsPps (st : Inspection) (header : PacketizationInfo) : Bytes × PacketizationInfo :=
  match st.appendSpsPps, st.sps, st.pps with
  | true, some sps, some pps =>
    let spsData := (((st.tracker.spsData sps).bind SpsInfo.data).map Subtype.val).getD []
    let ppsData := (((st.tracker.ppsData pps).bind PpsInfo.data).map Subtype.val).getD []
    let spsInfo : NaluInfo := { type := kSps, spsId := sps.toInt, ppsId := -1 }
    let ppsInfo : NaluInfo := { type := kPps, spsId := sps.toInt, ppsId := pps.toInt }
    (startCode ++ spsData ++ (startCode ++ ppsData),
      if header.nalus.length + 2 ≤ kMaxNaluNumPerPacket then
        { header with nalus := header.nalus ++ [spsInfo, ppsInfo] }
      else header)
  | _, _, _ => ([], header)

/-! ## The bitstream -/

/-- The loop that counts the bytes for a STAP-A packet, at an offset, for at most `fuel` rounds;
`none` for a failed assertion or a read past the end. -/
def countStapANalus (isFirstPacketInFrame : Bool) (payload : Bytes) : Nat → Nat → Option Nat
  | 0, offset => if offset < payload.length - 1 then none else some 0
  | fuel + 1, offset =>
    if offset < payload.length - 1 then
      if ¬ isFirstPacketInFrame ∨ payload.length < offset + kLengthFieldSize then none
      else
        let segmentLength := readBigEndian kLengthFieldSize (payload.drop offset)
        (countStapANalus isFirstPacketInFrame payload fuel
          (offset + kLengthFieldSize + segmentLength)).map
            (startCode.length + segmentLength + ·)
    else some 0

/-- `required_size`, behind the parameter sets. -/
def requiredSize (isFirstPacketInFrame : Bool) (type : PacketizationType) (nalus : List NaluInfo)
    (bitstream : Bytes) : Option Nat :=
  match type with
  | .stapA => countStapANalus isFirstPacketInFrame bitstream bitstream.length kNalHeaderSize
  | .single | .fuA => some ((if 0 < nalus.length then startCode.length else 0) + bitstream.length)

/-- The end of the loop over a STAP-A packet. -/
inductive StapAResult where
  | copied (bytes : Bytes)
  /-- A NAL unit is longer than what is left of the packet. -/
  | truncated
  /-- A length field is read past the end of the packet. -/
  | overread
  deriving DecidableEq

/-- The loop over a STAP-A packet, at an offset, for at most `fuel` rounds. -/
def fixStapANalus (payload : Bytes) : Nat → Nat → StapAResult
  | 0, offset => if offset < payload.length then .overread else .copied []
  | fuel + 1, offset =>
    if offset < payload.length then
      if payload.length < offset + kLengthFieldSize then .overread
      else
        let naluSize := readBigEndian kLengthFieldSize (payload.drop offset)
        let start := offset + kLengthFieldSize
        if payload.length < start + naluSize then .truncated
        else
          match fixStapANalus payload fuel (start + naluSize) with
          | .copied bytes => .copied (startCode ++ (payload.drop start).take naluSize ++ bytes)
          | result => result
    else .copied []

/-- The rest of the bitstream, with start codes. -/
def fixPayload (type : PacketizationType) (nalus : List NaluInfo) (bitstream : Bytes) :
    StapAResult :=
  match type with
  | .stapA => fixStapANalus bitstream bitstream.length kNalHeaderSize
  | .single | .fuA => .copied ((if 0 < nalus.length then startCode else []) ++ bitstream)

/-- `CopyAndFixBitstream(is_first_packet_in_frame, fixed_frame_width, fixed_frame_height,
h264_header, bitstream)`, with the tracker afterwards; `none` for a failed assertion or a read past
the end. -/
def SpsPpsTracker.copyAndFixBitstream (tracker : SpsPpsTracker) (isFirstPacketInFrame : Bool)
    (frameWidth frameHeight : U16) (type : PacketizationType) (header : PacketizationInfo)
    (bitstream : Bytes) : SpsPpsTracker × Option FixedBitstream :=
  if bitstream = [] then (tracker, none)
  else
    match inspectNalus isFirstPacketInFrame ⟨tracker, frameWidth, frameHeight, false, none, none⟩
        header.nalus with
    | (st, false) =>
      (st.tracker, some ⟨.requestKeyFrame, [], st.frameWidth, st.frameHeight, header⟩)
    | (st, true) =>
      let prepended := prependSpsPps st header
      (st.tracker,
        -- the size is only reserved
        match requiredSize isFirstPacketInFrame type header.nalus bitstream,
            fixPayload type prepended.2.nalus bitstream with
        | none, _ | some _, .overread => none
        | some _, .truncated => some ⟨.drop, [], st.frameWidth, st.frameHeight, prepended.2⟩
        | some _, .copied bytes =>
          some ⟨.insert, prepended.1 ++ bytes, st.frameWidth, st.frameHeight, prepended.2⟩)

/-- The call for a depacketized packet. -/
def SpsPpsTracker.fixPacket (tracker : SpsPpsTracker) (packet : DepacketizedPacket) :
    SpsPpsTracker × Option FixedBitstream :=
  tracker.copyAndFixBitstream packet.videoHeader.isFirstPacketInFrame packet.videoHeader.frameWidth
    packet.videoHeader.frameHeight packet.packetizationType packet.codecHeader packet.videoPayload

/-! ## Annex B -/

/-- NAL units, each behind a start code. -/
def annexB (nals : List Bytes) : Bytes := nals.flatMap (startCode ++ ·)

/-- **The bytes are a concatenation of NAL units behind start codes.** -/
def AnnexB (bytes : Bytes) : Prop := ∃ nals, bytes = annexB nals

theorem AnnexB.startCode_append (nal : Bytes) : AnnexB (startCode ++ nal) := by
  refine ⟨[nal], ?_⟩
  simp [annexB]

theorem length_nalus_le_prependSpsPps (st : Inspection) (header : PacketizationInfo) :
    header.nalus.length ≤ (prependSpsPps st header).2.nalus.length := by
  unfold prependSpsPps
  split
  · dsimp only
    split
    · simp
    · exact Nat.le_refl _
  · exact Nat.le_refl _

variable {fuel offset : Nat}

theorem fixStapANalus_of_parse {payload : Bytes} {indices : List NaluIndex}
    (h : parseNaluIndices payload fuel offset = some indices) :
    fixStapANalus payload fuel offset =
      .copied (annexB (indices.map fun index =>
        (payload.drop index.payloadStartOffset).take index.payloadSize)) := by
  induction fuel generalizing offset indices with
  | zero =>
    unfold parseNaluIndices at h
    unfold fixStapANalus
    by_cases hoff : offset < payload.length
    · rw [if_pos hoff] at h
      cases h
    · rw [if_neg hoff] at h ⊢
      cases h
      rfl
  | succ fuel ih =>
    unfold parseNaluIndices at h
    unfold fixStapANalus
    by_cases hoff : offset < payload.length
    · rw [if_pos hoff] at h ⊢
      by_cases hfield : payload.length < offset + kLengthFieldSize
      · rw [if_pos hfield] at h
        cases h
      · rw [if_neg hfield] at h ⊢
        dsimp only at h ⊢
        split at h
        · cases h
        · rename_i hsize
          rw [if_neg hsize]
          obtain ⟨rest, hrest, rfl⟩ := Option.map_eq_some_iff.1 h
          rw [ih hrest]
          simp [annexB]
    · rw [if_neg hoff] at h ⊢
      cases h
      rfl

theorem length_fixStapANalus {payload bytes : Bytes}
    (h : fixStapANalus payload fuel offset = .copied bytes) :
    payload.length ≤ offset + bytes.length ∧
      (offset < payload.length → payload.length + 2 ≤ offset + bytes.length) := by
  induction fuel generalizing offset bytes with
  | zero =>
    unfold fixStapANalus at h
    by_cases hoff : offset < payload.length
    · rw [if_pos hoff] at h
      cases h
    · exact ⟨by omega, fun hlt => absurd hlt hoff⟩
  | succ fuel ih =>
    unfold fixStapANalus at h
    by_cases hoff : offset < payload.length
    · rw [if_pos hoff] at h
      dsimp only at h
      split at h
      · cases h
      split at h
      · cases h
      rename_i hfield hsize
      generalize readBigEndian kLengthFieldSize (payload.drop offset) = naluSize at h hsize
      have hlen : kLengthFieldSize = 2 := rfl
      cases hrest : fixStapANalus payload fuel (offset + kLengthFieldSize + naluSize) with
      | truncated => rw [hrest] at h; cases h
      | overread => rw [hrest] at h; cases h
      | copied rest =>
        rw [hrest] at h
        obtain rfl := StapAResult.copied.inj h
        have hle := (ih hrest).1
        have hcode : startCode.length = 4 := rfl
        simp only [List.length_append, List.length_take, List.length_drop, hcode]
        omega
    · exact ⟨by omega, fun hlt => absurd hlt hoff⟩

theorem countStapANalus_of_copied {payload bytes : Bytes}
    (h : fixStapANalus payload fuel offset = .copied bytes) :
    countStapANalus true payload fuel offset = some bytes.length := by
  induction fuel generalizing offset bytes with
  | zero =>
    unfold fixStapANalus at h
    unfold countStapANalus
    split at h
    · cases h
    · cases h
      rw [if_neg (by omega)]
      rfl
  | succ fuel ih =>
    unfold fixStapANalus at h
    unfold countStapANalus
    by_cases hoff : offset < payload.length
    · rw [if_pos hoff] at h
      have hlen : kLengthFieldSize = 2 := rfl
      by_cases hfield : payload.length < offset + kLengthFieldSize
      · rw [if_pos hfield] at h
        cases h
      · rw [if_neg hfield] at h
        rw [if_pos (by omega), if_neg (by simpa using hfield)]
        dsimp only at h ⊢
        generalize readBigEndian kLengthFieldSize (payload.drop offset) = naluSize at h ⊢
        split at h
        · cases h
        · cases hrest : fixStapANalus payload fuel (offset + kLengthFieldSize + naluSize) with
          | truncated => rw [hrest] at h; cases h
          | overread => rw [hrest] at h; cases h
          | copied rest =>
            rw [hrest] at h
            obtain rfl := StapAResult.copied.inj h
            rw [ih hrest, Option.map_some, List.length_append, List.length_append, List.length_take,
              List.length_drop, Nat.min_eq_left (by omega)]
    · rw [if_neg hoff] at h
      cases h
      rw [if_neg (by omega)]
      rfl

/-! ## Depacketized packets -/

/-- In an RTP payload of this kind no NAL unit begins: it continues one. -/
def ContinuesFuA (rtpPayload : Bytes) : Prop :=
  rtpPayload.headD 0 &&& kTypeMask = kFuA ∧ ¬ 0 < rtpPayload.getD 1 0 &&& kSBit

instance (rtpPayload : Bytes) : Decidable (ContinuesFuA rtpPayload) :=
  inferInstanceAs (Decidable (_ ∧ _))

/-- What the depacketizer makes of a payload, as far as the bitstream depends on it. -/
inductive Depacketized (rtpPayload : Bytes) (packet : DepacketizedPacket) : Prop
  | single (hbegins : ¬ ContinuesFuA rtpPayload) (htype : packet.packetizationType = .single)
      (hnalus : 0 < packet.codecHeader.nalus.length)
  | stapA (hbegins : ¬ ContinuesFuA rtpPayload) (htype : packet.packetizationType = .stapA)
      {indices : List NaluIndex}
      (hparse : parseNaluIndicesPerStapAPacket packet.videoPayload = some indices)
      (hlength : kStapAHeaderSize < packet.videoPayload.length)
      (hfirst : packet.videoHeader.isFirstPacketInFrame = true)
  | fuAStart (hbegins : ¬ ContinuesFuA rtpPayload) (htype : packet.packetizationType = .fuA)
      (hnalus : 0 < packet.codecHeader.nalus.length)
  | fuAContinuation (hcontinues : ContinuesFuA rtpPayload) (htype : packet.packetizationType = .fuA)
      (hnalus : packet.codecHeader.nalus = [])
      (hfirst : packet.videoHeader.isFirstPacketInFrame = false)

variable {parser : ParameterSetParser} {rtpPayload : Bytes} {packet packet' : DepacketizedPacket}

theorem parseNalu_eq_some {start size : Nat}
    (h : parseNalu parser packet start size = some packet') :
    packet'.videoPayload = packet.videoPayload ∧
      packet'.packetizationType = packet.packetizationType ∧
      packet'.videoHeader.isFirstPacketInFrame = packet.videoHeader.isFirstPacketInFrame ∧
      0 < packet'.codecHeader.nalus.length := by
  have hpos : ∀ (header : PacketizationInfo) (info : NaluInfo),
      0 < (if header.nalus.length = kMaxNaluNumPerPacket then header
        else { header with nalus := header.nalus ++ [info] }).nalus.length := by
    intro header info
    split
    · rename_i hfull
      rw [hfull]
      exact Nat.succ_pos _
    · rw [List.length_append]
      exact Nat.succ_pos _
  unfold parseNalu at h
  split at h
  · cases h
  · obtain ⟨⟨info, header, video⟩, hfilled, rfl⟩ := Option.map_eq_some_iff.1 h
    refine ⟨rfl, rfl, ?_, hpos header info⟩
    split_ifs at hfilled
    · split at hfilled <;> cases hfilled <;> rfl
    · split at hfilled <;> cases hfilled <;> rfl
    · cases hfilled
      rfl
    · cases hfilled
      rfl
    · cases hfilled
      rfl

theorem parseNalus_eq_some {indices : List NaluIndex}
    (h : parseNalus parser packet indices = some packet') :
    packet'.videoPayload = packet.videoPayload ∧
      packet'.packetizationType = packet.packetizationType ∧
      packet'.videoHeader.isFirstPacketInFrame = packet.videoHeader.isFirstPacketInFrame := by
  induction indices generalizing packet with
  | nil =>
    cases h
    exact ⟨rfl, rfl, rfl⟩
  | cons index indices ih =>
    rw [parseNalus] at h
    cases hindex : parseNalu parser packet index.payloadStartOffset index.payloadSize with
    | none =>
      rw [hindex] at h
      cases h
    | some packet₁ =>
      rw [hindex] at h
      obtain ⟨hpayload, htype, hfirst, -⟩ := parseNalu_eq_some hindex
      obtain ⟨hpayload', htype', hfirst'⟩ := ih h
      exact ⟨hpayload'.trans hpayload, htype'.trans htype, hfirst'.trans hfirst⟩

theorem depacketizeFuANalu_cases (hkind : rtpPayload.headD 0 &&& kTypeMask = kFuA)
    (h : depacketizeFuANalu parser rtpPayload = some packet) : Depacketized rtpPayload packet := by
  unfold depacketizeFuANalu at h
  split at h
  · cases h
  · obtain rfl := Option.some.inj h
    by_cases hfirst : 0 < rtpPayload.getD 1 0 &&& kSBit
    · refine .fuAStart (fun hcont => hcont.2 hfirst) rfl ?_
      simp only [decide_eq_true hfirst, if_true]
      exact Nat.succ_pos _
    · refine .fuAContinuation ⟨hkind, hfirst⟩ rfl ?_ (decide_eq_false hfirst)
      simp only [decide_eq_false hfirst, Bool.false_eq_true, if_false]

theorem depacketizeStapAOrSingleNalu_cases (hkind : rtpPayload.headD 0 &&& kTypeMask ≠ kFuA)
    (h : depacketizeStapAOrSingleNalu parser rtpPayload = some packet) :
    Depacketized rtpPayload packet := by
  have hbegins : ¬ ContinuesFuA rtpPayload := fun hcont => hkind hcont.1
  unfold depacketizeStapAOrSingleNalu at h
  dsimp only at h
  split at h
  · split at h
    · cases h
    · rename_i hlength
      cases hparse : parseNaluIndicesPerStapAPacket rtpPayload with
      | none =>
        rw [hparse] at h
        cases h
      | some indices =>
        rw [hparse] at h
        obtain ⟨hpayload, htype, hfirst⟩ := parseNalus_eq_some h
        have hindices : parseNaluIndicesPerStapAPacket packet.videoPayload = some indices := by
          rw [hpayload]
          exact hparse
        refine .stapA hbegins htype hindices ?_ hfirst
        rw [hpayload]
        exact Nat.lt_of_not_le hlength
  · obtain ⟨-, htype, -, hnalus⟩ := parseNalu_eq_some h
    exact .single hbegins htype hnalus

theorem depacketize_cases (h : depacketize parser rtpPayload = some packet) :
    Depacketized rtpPayload packet := by
  unfold depacketize at h
  split at h
  · cases h
  split at h
  · rename_i hkind
    exact depacketizeFuANalu_cases hkind h
  · rename_i hkind
    exact depacketizeStapAOrSingleNalu_cases hkind h

variable {tracker : SpsPpsTracker} {fixed : FixedBitstream}

theorem fixPacket_insert
    (h : (tracker.fixPacket packet).2 = some fixed) (hinsert : fixed.action = .insert) :
    ∃ st bytes, fixPayload packet.packetizationType (prependSpsPps st packet.codecHeader).2.nalus
        packet.videoPayload = .copied bytes ∧
      fixed.bitstream = (prependSpsPps st packet.codecHeader).1 ++ bytes := by
  unfold SpsPpsTracker.fixPacket SpsPpsTracker.copyAndFixBitstream at h
  split at h
  · cases h
  split at h
  · obtain rfl := Option.some.inj h
    exact absurd hinsert (by simp)
  · rename_i st _
    dsimp only at h
    split at h
    · cases h
    · cases h
    · obtain rfl := Option.some.inj h
      exact absurd hinsert (by simp)
    · rename_i bytes _ hbytes
      obtain rfl := Option.some.inj h
      exact ⟨st, bytes, hbytes, rfl⟩

theorem Depacketized.fixPayload_begins (hd : Depacketized rtpPayload packet)
    (hbegins : ¬ ContinuesFuA rtpPayload) {nalus : List NaluInfo}
    (hnalus : packet.codecHeader.nalus.length ≤ nalus.length) {bytes : Bytes}
    (h : fixPayload packet.packetizationType nalus packet.videoPayload = .copied bytes) :
    AnnexB bytes ∧ packet.videoPayload.length < bytes.length := by
  have hcode : ∀ payload, (if 0 < nalus.length then startCode else []) ++ payload = bytes →
      0 < nalus.length → AnnexB bytes ∧ payload.length < bytes.length := by
    rintro payload rfl hpos
    rw [if_pos hpos]
    refine ⟨AnnexB.startCode_append payload, ?_⟩
    have hlen : startCode.length = 4 := rfl
    rw [List.length_append, hlen]
    omega
  cases hd with
  | single _ htype hpos =>
    rw [htype] at h
    exact hcode _ (StapAResult.copied.inj h) (Nat.lt_of_lt_of_le hpos hnalus)
  | stapA _ htype hparse hlength =>
    rw [htype] at h
    have hlen := length_fixStapANalus h
    have hoffset : kNalHeaderSize < packet.videoPayload.length :=
      Nat.lt_of_le_of_lt (by decide) hlength
    refine ⟨?_, ?_⟩
    · have heq := fixStapANalus_of_parse hparse
      obtain rfl := StapAResult.copied.inj (h.symm.trans heq)
      exact ⟨_, rfl⟩
    · have hheader : kNalHeaderSize = 1 := rfl
      have hgrown := hlen.2 hoffset
      omega
  | fuAStart _ htype hpos =>
    rw [htype] at h
    exact hcode _ (StapAResult.copied.inj h) (Nat.lt_of_lt_of_le hpos hnalus)
  | fuAContinuation hcontinues => exact absurd hcontinues hbegins

section

variable (hd : depacketize parser rtpPayload = some packet)
include hd

theorem length_lt_fixPacket (hbegins : ¬ ContinuesFuA rtpPayload)
    (h : (tracker.fixPacket packet).2 = some fixed) (hinsert : fixed.action = .insert) :
    packet.videoPayload.length < fixed.bitstream.length := by
  obtain ⟨st, bytes, hbytes, heq⟩ := fixPacket_insert h hinsert
  have hlt := ((depacketize_cases hd).fixPayload_begins hbegins
    (length_nalus_le_prependSpsPps st _) hbytes).2
  rw [heq, List.length_append]
  omega

theorem fixPacket_continuation (hcontinues : ContinuesFuA rtpPayload)
    (hpayload : packet.videoPayload ≠ []) (tracker : SpsPpsTracker) :
    packet.videoHeader.isFirstPacketInFrame = false ∧
      tracker.fixPacket packet =
        (tracker, some ⟨.insert, packet.videoPayload, packet.videoHeader.frameWidth,
          packet.videoHeader.frameHeight, packet.codecHeader⟩) := by
  cases depacketize_cases hd with
  | single hbegins => exact absurd hcontinues hbegins
  | stapA hbegins => exact absurd hcontinues hbegins
  | fuAStart hbegins => exact absurd hcontinues hbegins
  | fuAContinuation _ htype hnalus hfirst =>
    refine ⟨hfirst, ?_⟩
    unfold SpsPpsTracker.fixPacket SpsPpsTracker.copyAndFixBitstream
    rw [if_neg hpayload, hnalus, htype]
    simp [inspectNalus, prependSpsPps, requiredSize, fixPayload, hnalus]

/-- **A depacketized packet is fixed**, unless its bitstream is empty: no assertion fails, no length
field is read past its end, and no NAL unit of it is too long, for which it would be dropped. -/
theorem fixPacket_sound (tracker : SpsPpsTracker) :
    ((tracker.fixPacket packet).2 = none ↔ packet.videoPayload = []) ∧
      ∀ fixed, (tracker.fixPacket packet).2 = some fixed → fixed.action ≠ .drop := by
  have hread : ∀ nalus nalus', ∃ required bytes,
      requiredSize packet.videoHeader.isFirstPacketInFrame packet.packetizationType nalus
          packet.videoPayload = some required ∧
        fixPayload packet.packetizationType nalus' packet.videoPayload = .copied bytes := by
    intro nalus nalus'
    cases depacketize_cases hd with
    | single _ htype => exact ⟨_, _, by rw [htype]; rfl, by rw [htype]; rfl⟩
    | fuAStart _ htype => exact ⟨_, _, by rw [htype]; rfl, by rw [htype]; rfl⟩
    | fuAContinuation _ htype => exact ⟨_, _, by rw [htype]; rfl, by rw [htype]; rfl⟩
    | stapA _ htype hparse _ hfirst =>
      have hcopied := fixStapANalus_of_parse hparse
      rw [htype, hfirst]
      exact ⟨_, _, countStapANalus_of_copied hcopied, hcopied⟩
  unfold SpsPpsTracker.fixPacket SpsPpsTracker.copyAndFixBitstream
  by_cases hpayload : packet.videoPayload = []
  · rw [if_pos hpayload]
    exact ⟨iff_of_true rfl hpayload, fun _ h => by cases h⟩
  rw [if_neg hpayload]
  split
  · refine ⟨iff_of_false (by simp) hpayload, fun fixed h => ?_⟩
    obtain rfl := Option.some.inj h
    simp
  · rename_i st _
    obtain ⟨required, bytes, hrequired, hbytes⟩ :=
      hread packet.codecHeader.nalus (prependSpsPps st packet.codecHeader).2.nalus
    dsimp only
    rw [hrequired, hbytes]
    refine ⟨iff_of_false (by simp) hpayload, fun fixed h => ?_⟩
    obtain rfl := Option.some.inj h
    simp

end

/-- Two slices in one packet. -/
theorem fixPacket_sound_stapA :
    let packet := (depacketize ⟨fun _ => none, fun _ => none, fun _ => none⟩
      [0x18, 0, 2, 0x41, 7, 0, 1, 0x41]).get (by decide)
    ((SpsPpsTracker.fixPacket {} packet).2 = none ↔ packet.videoPayload = []) ∧
      ∀ fixed, (SpsPpsTracker.fixPacket {} packet).2 = some fixed → fixed.action ≠ .drop :=
  fixPacket_sound (Option.some_get _).symm {}

end NaiveRtc.H264
