import NaiveRtc.Base.HostMemory
import NaiveRtc.Lib.Ordered
import NaiveRtc.Components.WrapAround

/-!
# Routing RTCP packets

The model of `rtc/rtp_rtcp/components/rtp_demuxer_rtcp.cpp` and of `IsRtcpPacket` in
`rtc/rtp_rtcp/base/rtp_utils.cpp`: a walk over the packets of a compound packet, which lays
structures over its bytes, and the delivery to the sinks.

* `subPackets`, `asked`, `forAll` — what a compound packet says about its receivers.
* `Routed` — every sink selected receives the packet, once.
* `walk_eq` — what the walk reads and gathers.
* `rtcp_routing_iff` — when the packet reaches the sinks.
-/

namespace NaiveRtc.RtpDemuxer

open ByteIo HostMemory

/-! ## The walk -/

/-- The version of every packet. -/
def kFixedRtpVersion : UInt8 := 2

/-- The smallest RTCP packet. -/
def kFixedRtcpPacketSize : Nat := 8

/-- The payload types of RTCP, from here -/
def kRtcpPayloadTypeLowerRangeValue : UInt8 := 64

/-- to here. -/
def kRtcpPayloadTypeUpperRangeValue : UInt8 := 95

/-- `IsRtcpPacket(packet)`. -/
def isRtcpPacket (packet : List UInt8) : Bool :=
  decide (kFixedRtcpPacketSize ≤ packet.length) && packet.getD 0 0 >>> 6 == kFixedRtpVersion &&
    (decide (kRtcpPayloadTypeLowerRangeValue ≤ packet.getD 1 0 &&& 0x7F) &&
      decide (packet.getD 1 0 &&& 0x7F ≤ kRtcpPayloadTypeUpperRangeValue))

/-- `sizeof(ReportBlock)`. -/
def kReportBlockSize : Nat := 24
/-- Where `report_blocks` is in `SenderReport`. -/
def kSenderReportBlocks : Nat := 28
/-- Where `report_blocks` is in `ReceiverReport`. -/
def kReceiverReportBlocks : Nat := 8

/-- `GetReportBlock(num)`, the address: a pointer to a block moves by whole blocks, and is
told to move by as many of them as a block has bytes. -/
def getReportBlock (reportBlocks num : Nat) : Nat :=
  reportBlocks + kReportBlockSize * num * kReportBlockSize

/-- `ntohl` of an SSRC read through a pointer; none if it is not in the buffer. -/
def readSsrc (host : ByteOrder) (data : List UInt8) (address : Nat) : Option U32 :=
  (bytesAt data address 4).map fun bytes => BitVec.ofNat 32 (host.swap 4 (host.load 4 bytes))

/-- `operator<` of SSRCs. -/
def ssrcBefore (a b : U32) : Bool := decide (a.toNat < b.toNat)

/-- `ssrcs.insert(ssrc)`, of a `std::set`. -/
def insertSsrc (ssrcs : List U32) (ssrc : U32) : List U32 :=
  Ordered.insertBy ssrcBefore id ssrc ssrcs

/-- The loop over the report blocks. -/
def insertReportBlocks (host : ByteOrder) (data : List UInt8) (reportBlocks reportCount : Nat)
    (ssrcs : List U32) : Option (List U32) :=
  (List.range reportCount).foldlM
    (fun ssrcs i => (readSsrc host data (getReportBlock reportBlocks i)).map (insertSsrc ssrcs))
    ssrcs

/-- The branches of the walk for the packet at an offset: the SSRCs, and whether the walk
ends with `deliver_to_all`. -/
def visit (host : ByteOrder) (data : List UInt8) (offset : Nat) (header : List UInt8)
    (ssrcs : List U32) : Option (List U32 × Bool) :=
  let payloadType := header.getD 1 0
  let reportCount := (header.getD 0 0 &&& 0x1F).toNat
  if payloadType = 200 then
    match readSsrc host data (offset + 4) with
    | none => none
    | some senderSsrc =>
      (insertReportBlocks host data (offset + kSenderReportBlocks) reportCount
        (insertSsrc ssrcs senderSsrc)).map (·, false)
  else if payloadType = 201 then
    (insertReportBlocks host data (offset + kReceiverReportBlocks) reportCount ssrcs).map (·, false)
  else if payloadType = 205 ∨ payloadType = 206 then
    (readSsrc host data (offset + 8)).map fun sourceSsrc =>
      if 0 < sourceSsrc then (insertSsrc ssrcs sourceSsrc, false) else (ssrcs, true)
  else if payloadType = 203 then
    (readSsrc host data (offset + 4)).map fun senderSsrc =>
      if 0 < senderSsrc then (insertSsrc ssrcs senderSsrc, false) else (ssrcs, false)
  else some (ssrcs, true)

/-- The walk over the compound packet, at an offset, for at most `fuel` rounds; none if it
reads outside of the buffer. -/
def walk (host : ByteOrder) (data : List UInt8) : Nat → Nat → List U32 → Option (List U32 × Bool)
  | 0, _, ssrcs => some (ssrcs, false)
  | fuel + 1, offset, ssrcs =>
    if offset + 4 ≤ data.length then
      match bytesAt data offset 4 with
      | none => none
      | some header =>
        let rtcpPacketSize := 4 + host.swap 2 (host.load 2 (header.drop 2)) * 4
        if data.length - offset < rtcpPacketSize then some (ssrcs, false)
        else
          match visit host data offset header ssrcs with
          | none => none
          | some (ssrcs, true) => some (ssrcs, true)
          | some (ssrcs, false) => walk host data fuel (offset + rtcpPacketSize) ssrcs
    else some (ssrcs, false)

/-! ## The sinks -/

/-- `rtcp_sink_by_ssrc_`, in the order of its iteration, which is any. -/
structure RtcpSinks (σ : Type*) where
  entries : List (U32 × σ)
  nodup : (entries.map Prod.fst).Nodup

namespace RtcpSinks

variable {σ : Type*}

/-- `find(ssrc)`. -/
def find (sinks : RtcpSinks σ) (ssrc : U32) : Option σ := sinks.entries.lookup ssrc

theorem lookup_eq_some_iff {entries : List (U32 × σ)} (h : (entries.map Prod.fst).Nodup)
    {ssrc : U32} {sink : σ} : entries.lookup ssrc = some sink ↔ (ssrc, sink) ∈ entries := by
  induction entries with
  | nil => simp
  | cons entry entries ih =>
    obtain ⟨key, value⟩ := entry
    rw [List.map_cons, List.nodup_cons] at h
    rw [List.lookup_cons, List.mem_cons, Prod.mk.injEq]
    by_cases heq : ssrc = key
    · subst heq
      have hnone : (ssrc, sink) ∉ entries :=
        fun hmem => h.1 (List.mem_map.mpr ⟨(ssrc, sink), hmem, rfl⟩)
      simp [hnone, eq_comm]
    · rw [beq_false_of_ne heq, ← ih h.2]
      simp [heq]

theorem find_eq_some_iff (sinks : RtcpSinks σ) {ssrc : U32} {sink : σ} :
    sinks.find ssrc = some sink ↔ (ssrc, sink) ∈ sinks.entries :=
  lookup_eq_some_iff sinks.nodup

end RtcpSinks

variable {σ : Type*}

/-- The packet handed to one sink after the other by `std::move`: the first one takes the
buffer, and leaves none. -/
def handOver (inPacket : List UInt8) : List σ → List (σ × List UInt8)
  | [] => []
  | sink :: sinks => (sink, inPacket) :: handOver [] sinks

/-- `RtpDemuxer::DeliverRtcpPacket(in_packet)`: the result, and what the sinks receive. -/
def deliverRtcpPacket (host : ByteOrder) (sinks : RtcpSinks σ) (inPacket : List UInt8) :
    Option (Bool × List (σ × List UInt8)) :=
  if sinks.entries.isEmpty then some (false, [])
  else if !isRtcpPacket inPacket then some (false, [])
  else
    match walk host inPacket inPacket.length 0 [] with
    | none => none
    | some (_, true) => some (true, handOver inPacket (sinks.entries.map Prod.snd))
    | some (ssrcs, false) => some (true, handOver inPacket (ssrcs.filterMap sinks.find))

/-! ## What a compound packet asks for -/

/-- The SSRC at a place of the packet, in network order. -/
def ssrcAt (data : List UInt8) (address : Nat) : U32 :=
  BitVec.ofNat 32 (readBigEndian 4 (data.drop address))

/-- The payload type of the packet at `offset`. -/
def payloadTypeAt (data : List UInt8) (offset : Nat) : UInt8 := data.getD (offset + 1) 0

/-- Its report count. -/
def reportCountAt (data : List UInt8) (offset : Nat) : Nat := (data.getD offset 0 &&& 0x1F).toNat

/-- Its size, from its length field. -/
def rtcpPacketSizeAt (data : List UInt8) (offset : Nat) : Nat :=
  4 + readBigEndian 2 (data.drop (offset + 2)) * 4

/-- The offsets of the packets in a compound packet, by their headers. -/
def subPackets (data : List UInt8) : Nat → Nat → List Nat
  | 0, _ => []
  | fuel + 1, offset =>
    if offset + 4 ≤ data.length ∧ rtcpPacketSizeAt data offset ≤ data.length - offset then
      offset :: subPackets data fuel (offset + rtcpPacketSizeAt data offset)
    else []

/-- The packet at an offset is for all sinks: an XR, an unknown type, or feedback with a zero
media SSRC. -/
def forAll (data : List UInt8) (offset : Nat) : Bool :=
  let payloadType := payloadTypeAt data offset
  if payloadType = 205 ∨ payloadType = 206 then ssrcAt data (offset + 8) == 0
  else !(payloadType == 200 || payloadType == 201 || payloadType == 203)

/-- The source SSRCs of report blocks that stand a number of bytes apart. -/
def sourceSsrcs (data : List UInt8) (reportBlocks apart reportCount : Nat) : List U32 :=
  (List.range reportCount).map fun i => ssrcAt data (reportBlocks + apart * i)

/-- The SSRCs that the packet at an offset is meant for: the sender of an SR, the sources of
the report blocks of an SR or RR, the media source of feedback, the sender of a BYE. -/
def asked (data : List UInt8) (offset : Nat) : List U32 :=
  let payloadType := payloadTypeAt data offset
  let reportCount := reportCountAt data offset
  if payloadType = 200 then
    ssrcAt data (offset + 4) ::
      sourceSsrcs data (offset + kSenderReportBlocks) kReportBlockSize reportCount
  else if payloadType = 201 then
    sourceSsrcs data (offset + kReceiverReportBlocks) kReportBlockSize reportCount
  else if payloadType = 205 ∨ payloadType = 206 then [ssrcAt data (offset + 8)]
  else if payloadType = 203 then [ssrcAt data (offset + 4)]
  else []

/-- The sinks selected for a packet. -/
def Selected (sinks : RtcpSinks σ) (data : List UInt8) (sink : σ) : Prop :=
  if (subPackets data data.length 0).any (forAll data) then
    ∃ ssrc, (ssrc, sink) ∈ sinks.entries
  else ∃ ssrc ∈ (subPackets data data.length 0).flatMap (asked data), (ssrc, sink) ∈ sinks.entries

/-- What a sink receives. -/
def received [DecidableEq σ] (sink : σ) (deliveries : List (σ × List UInt8)) :
    List (List UInt8) :=
  (deliveries.filter fun delivery => delivery.1 = sink).map Prod.snd

/-- No read leaves the buffer, and every sink selected receives the whole packet, once. -/
def Routed [DecidableEq σ] (sinks : RtcpSinks σ) (data : List UInt8)
    (outcome : Option (Bool × List (σ × List UInt8))) : Prop :=
  ∃ result deliveries, outcome = some (result, deliveries) ∧
    ∀ sink, Selected sinks data sink → received sink deliveries = [data]

/-! ## When it is routed -/

/-- How far the walk takes report blocks to be apart. -/
def kReportBlockStride : Nat := kReportBlockSize * kReportBlockSize

/-- The SSRCs that stand where the walk looks for them; the zero of a BYE is ignored. -/
def lookedAt (data : List UInt8) (offset : Nat) : List U32 :=
  let payloadType := payloadTypeAt data offset
  let reportCount := reportCountAt data offset
  if payloadType = 200 then
    ssrcAt data (offset + 4) ::
      sourceSsrcs data (offset + kSenderReportBlocks) kReportBlockStride reportCount
  else if payloadType = 201 then
    sourceSsrcs data (offset + kReceiverReportBlocks) kReportBlockStride reportCount
  else if payloadType = 205 ∨ payloadType = 206 then [ssrcAt data (offset + 8)]
  else if payloadType = 203 then [ssrcAt data (offset + 4)].filter (· ≠ 0)
  else []

/-- The report blocks that the walk looks for are in the buffer. -/
def BlocksInside (data : List UInt8) (reportBlocks reportCount : Nat) : Prop :=
  ∀ i < reportCount, reportBlocks + kReportBlockStride * i + 4 ≤ data.length

/-- The fields that the walk looks for in the packet at an offset are in the buffer. -/
def Inside (data : List UInt8) (offset : Nat) : Prop :=
  let payloadType := payloadTypeAt data offset
  let reportCount := reportCountAt data offset
  if payloadType = 200 then
    offset + 8 ≤ data.length ∧ BlocksInside data (offset + kSenderReportBlocks) reportCount
  else if payloadType = 201 then BlocksInside data (offset + kReceiverReportBlocks) reportCount
  else if payloadType = 205 ∨ payloadType = 206 then offset + 12 ≤ data.length
  else if payloadType = 203 then offset + 8 ≤ data.length
  else True

/-- The same up to the first packet that is for all sinks, behind which the walk does not
look. -/
def AllInside (data : List UInt8) : List Nat → Prop
  | [] => True
  | offset :: offsets =>
    Inside data offset ∧ (forAll data offset = false → AllInside data offsets)

/-- Of the SSRCs that stand where the walk looks, the least one with a sink has the sink of
every SSRC asked for, and no other one has that sink. -/
def Sole (sinks : RtcpSinks σ) (looked asked : List U32) : Prop :=
  ∀ ssrc ∈ asked, ∀ sink, (ssrc, sink) ∈ sinks.entries →
    ∃ first ∈ looked, (first, sink) ∈ sinks.entries ∧
      ∀ other ∈ looked, other ≠ first → ∀ sink', (other, sink') ∈ sinks.entries →
        first.toNat < other.toNat ∧ sink' ≠ sink

/-- When a packet reaches its sinks: there are none; or all reads are inside, and there is one
sink for all, or one that is asked for. -/
def Reaches (sinks : RtcpSinks σ) (data : List UInt8) : Prop :=
  sinks.entries = [] ∨
    (AllInside data (subPackets data data.length 0) ∧
      if (subPackets data data.length 0).any (forAll data) then sinks.entries.length ≤ 1
      else Sole sinks ((subPackets data data.length 0).flatMap (lookedAt data))
        ((subPackets data data.length 0).flatMap (asked data)))

/-! ## The walk over the packets -/

section Walk

variable {host : ByteOrder} {data : List UInt8}

theorem swap_load_bytes {address size : Nat} (h : address + size ≤ data.length) :
    host.swap size (host.load size ((data.drop address).take size))
      = readBigEndian size (data.drop address) := by
  have hlen : ((data.drop address).take size).length = size := by
    simp only [List.length_take, List.length_drop]
    omega
  rw [host.swap_load hlen, readBigEndian_take]

theorem readSsrc_of_le {address : Nat} (h : address + 4 ≤ data.length) :
    readSsrc host data address = some (ssrcAt data address) := by
  rw [readSsrc, bytesAt_of_le h, Option.map_some, swap_load_bytes h, ssrcAt]

theorem readSsrc_of_lt {address : Nat} (h : data.length < address + 4) :
    readSsrc host data address = none := by
  rw [readSsrc, bytesAt_eq_none h, Option.map_none]

theorem getReportBlock_eq (reportBlocks i : Nat) :
    getReportBlock reportBlocks i = reportBlocks + kReportBlockStride * i := by
  simp only [getReportBlock, kReportBlockStride, kReportBlockSize]
  omega

theorem foldlM_readSsrc (reportBlocks : Nat) (is : List Nat) (ssrcs : List U32) :
    (is.foldlM (fun ssrcs i => (readSsrc host data (getReportBlock reportBlocks i)).map
        (insertSsrc ssrcs)) ssrcs : Option (List U32))
      = if ∀ i ∈ is, reportBlocks + kReportBlockStride * i + 4 ≤ data.length then
          some ((is.map fun i => ssrcAt data (reportBlocks + kReportBlockStride * i)).foldl
            insertSsrc ssrcs)
        else none := by
  induction is generalizing ssrcs with
  | nil => simp
  | cons i is ih =>
    rw [List.foldlM_cons, getReportBlock_eq]
    by_cases hi : reportBlocks + kReportBlockStride * i + 4 ≤ data.length
    · rw [readSsrc_of_le hi, Option.map_some, Option.bind_eq_bind, Option.bind_some, ih]
      simp [hi]
    · rw [readSsrc_of_lt (by omega), Option.map_none, Option.bind_eq_bind, Option.bind_none, if_neg]
      exact fun h => hi (h i List.mem_cons_self)

theorem insertReportBlocks_of_inside {reportBlocks reportCount : Nat}
    (h : BlocksInside data reportBlocks reportCount) (ssrcs : List U32) :
    insertReportBlocks host data reportBlocks reportCount ssrcs
      = some ((sourceSsrcs data reportBlocks kReportBlockStride reportCount).foldl insertSsrc
          ssrcs) := by
  rw [insertReportBlocks, foldlM_readSsrc, if_pos fun i hi => h i (List.mem_range.mp hi)]
  rfl

theorem insertReportBlocks_of_not_inside {reportBlocks reportCount : Nat}
    (h : ¬ BlocksInside data reportBlocks reportCount) (ssrcs : List U32) :
    insertReportBlocks host data reportBlocks reportCount ssrcs = none := by
  rw [insertReportBlocks, foldlM_readSsrc, if_neg fun hall => h fun i hi =>
    hall i (List.mem_range.mpr hi)]

theorem ssrc_pos_iff (ssrc : U32) : 0 < ssrc ↔ ssrc ≠ 0#32 := by
  rw [BitVec.lt_def]
  constructor
  · rintro h rfl
    exact absurd h (by decide)
  · intro h
    have hne : ssrc.toNat ≠ 0 := fun hzero => h (BitVec.toNat_inj.mp (by simpa using hzero))
    simpa using Nat.pos_of_ne_zero hne

theorem visit_eq {offset : Nat} (hle : offset + 4 ≤ data.length) (ssrcs : List U32) :
    (¬ Inside data offset → visit host data offset ((data.drop offset).take 4) ssrcs = none) ∧
    (Inside data offset → visit host data offset ((data.drop offset).take 4) ssrcs
      = some (if forAll data offset then (ssrcs, true)
        else ((lookedAt data offset).foldl insertSsrc ssrcs, false))) := by
  have hbyte (k : Nat) (hk : k < 4) :
      ((data.drop offset).take 4).getD k 0 = data.getD (offset + k) 0 := by
    simp [List.getD_eq_getElem?_getD, hk]
  have htype : ((data.drop offset).take 4).getD 1 0 = payloadTypeAt data offset :=
    hbyte 1 (by omega)
  have hcount : (((data.drop offset).take 4).getD 0 0 &&& 0x1F).toNat
      = reportCountAt data offset := by
    rw [hbyte 0 (by omega)]
    rfl
  unfold visit
  rw [htype, hcount]
  unfold Inside forAll lookedAt
  by_cases hsr : payloadTypeAt data offset = 200
  · rw [if_pos hsr, if_pos hsr, if_pos hsr]
    by_cases hsender : offset + 8 ≤ data.length
    · rw [readSsrc_of_le (by omega)]
      dsimp only
      constructor
      · intro h
        rw [insertReportBlocks_of_not_inside fun hblocks => h ⟨hsender, hblocks⟩]
        rfl
      · intro h
        rw [insertReportBlocks_of_inside h.2]
        simp [hsr]
    · rw [readSsrc_of_lt (by omega)]
      exact ⟨fun _ => rfl, fun h => absurd h.1 hsender⟩
  rw [if_neg hsr, if_neg hsr, if_neg hsr]
  by_cases hrr : payloadTypeAt data offset = 201
  · rw [if_pos hrr, if_pos hrr, if_pos hrr]
    constructor
    · intro h
      rw [insertReportBlocks_of_not_inside h]
      rfl
    · intro h
      rw [insertReportBlocks_of_inside h]
      simp [hrr]
  rw [if_neg hrr, if_neg hrr, if_neg hrr]
  by_cases hfb : payloadTypeAt data offset = 205 ∨ payloadTypeAt data offset = 206
  · rw [if_pos hfb, if_pos hfb, if_pos hfb, if_pos hfb]
    constructor
    · intro h
      rw [readSsrc_of_lt (by omega)]
      rfl
    · intro h
      rw [readSsrc_of_le (by omega), Option.map_some]
      by_cases hzero : ssrcAt data (offset + 8) = 0#32
      · simp [hzero]
      · rw [if_pos ((ssrc_pos_iff _).mpr hzero)]
        simp [hzero]
  rw [if_neg hfb, if_neg hfb, if_neg hfb, if_neg hfb]
  by_cases hbye : payloadTypeAt data offset = 203
  · rw [if_pos hbye, if_pos hbye, if_pos hbye]
    constructor
    · intro h
      rw [readSsrc_of_lt (by omega)]
      rfl
    · intro h
      rw [readSsrc_of_le (by omega), Option.map_some]
      by_cases hzero : ssrcAt data (offset + 4) = 0#32
      · simp [hzero, hbye]
      · rw [if_pos ((ssrc_pos_iff _).mpr hzero)]
        simp [hzero, hbye]
  · rw [if_neg hbye, if_neg hbye]
    exact ⟨fun h => absurd trivial h, fun _ => by simp [hsr, hrr, hbye]⟩

/-- The walk over packets at given offsets. -/
def walkOver (data : List UInt8) : List Nat → List U32 → Option (List U32 × Bool)
  | [], ssrcs => some (ssrcs, false)
  | offset :: offsets, ssrcs =>
    if forAll data offset then some (ssrcs, true)
    else walkOver data offsets ((lookedAt data offset).foldl insertSsrc ssrcs)

/-- **What the walk does**: it reads outside of the buffer, or it gathers the SSRCs where it
looks for them. -/
theorem walk_eq (fuel offset : Nat) (ssrcs : List U32) :
    (¬ AllInside data (subPackets data fuel offset) → walk host data fuel offset ssrcs = none) ∧
    (AllInside data (subPackets data fuel offset) →
      walk host data fuel offset ssrcs = walkOver data (subPackets data fuel offset) ssrcs) := by
  induction fuel generalizing offset ssrcs with
  | zero => exact ⟨fun h => absurd trivial h, fun _ => rfl⟩
  | succ fuel ih =>
    rw [walk, subPackets]
    by_cases hle : offset + 4 ≤ data.length
    · have hsize : 4 + host.swap 2 (host.load 2 (((data.drop offset).take 4).drop 2)) * 4
          = rtcpPacketSizeAt data offset := by
        have htwo : ((data.drop offset).take 4).drop 2 = (data.drop (offset + 2)).take 2 := by
          rw [List.drop_take, List.drop_drop]
        rw [htwo, swap_load_bytes (by omega), rtcpPacketSizeAt]
      rw [if_pos hle, bytesAt_of_le hle]
      dsimp only
      rw [hsize]
      by_cases hfits : rtcpPacketSizeAt data offset ≤ data.length - offset
      · have hsplit : ¬ data.length - offset < rtcpPacketSizeAt data offset := by omega
        rw [if_pos ⟨hle, hfits⟩, if_neg hsplit]
        obtain ⟨houtside, hinside⟩ := @visit_eq host data offset hle ssrcs
        by_cases hin : Inside data offset
        · rw [hinside hin]
          unfold AllInside walkOver
          by_cases hall : forAll data offset = true
          · rw [if_pos hall, if_pos hall]
            have hrest : forAll data offset = false → AllInside data (subPackets data fuel
                (offset + rtcpPacketSizeAt data offset)) := by
              intro hf
              rw [hall] at hf
              exact absurd hf (by decide)
            exact ⟨fun h => absurd ⟨hin, hrest⟩ h, fun _ => rfl⟩
          · rw [if_neg hall, if_neg hall]
            obtain ⟨hbad, hgood⟩ := ih (offset + rtcpPacketSizeAt data offset)
              ((lookedAt data offset).foldl insertSsrc ssrcs)
            exact ⟨fun h => hbad fun hrest => h ⟨hin, fun _ => hrest⟩,
              fun h => hgood (h.2 (by simpa using hall))⟩
        · rw [houtside hin]
          exact ⟨fun _ => rfl, fun h => absurd h.1 hin⟩
      · have hsplit : data.length - offset < rtcpPacketSizeAt data offset := by omega
        rw [if_neg (fun h => hfits h.2), if_pos hsplit]
        exact ⟨fun h => absurd trivial h, fun _ => rfl⟩
    · rw [if_neg hle, if_neg fun h => hle h.1]
      exact ⟨fun h => absurd trivial h, fun _ => rfl⟩

end Walk

/-! ## The set of SSRCs -/

theorem ssrcBefore_iff (a b : U32) : ssrcBefore a b = true ↔ a.toNat < b.toNat :=
  decide_eq_true_iff

variable {ssrcs : List U32}

theorem ranked_insertSsrc (h : Ordered.Ranked BitVec.toNat ssrcs) (ssrc : U32) :
    Ordered.Ranked BitVec.toNat (insertSsrc ssrcs ssrc) :=
  Ordered.ranked_insertBy (fun _ _ => ⟨ssrcBefore_iff _ _, ssrcBefore_iff _ _⟩) h

theorem mem_insertSsrc (h : Ordered.Ranked BitVec.toNat ssrcs) {ssrc x : U32} :
    x ∈ insertSsrc ssrcs ssrc ↔ x ∈ ssrcs ∨ x = ssrc := by
  have hranked : Ordered.Ranked (fun y => BitVec.toNat (id y)) ssrcs := h
  rw [insertSsrc, Ordered.mem_insertBy_iff ssrcBefore_iff hranked]
  refine ⟨Or.imp_right And.left, ?_⟩
  rintro (hx | rfl)
  · exact .inl hx
  · by_cases hx : x ∈ ssrcs
    · exact .inl hx
    · refine .inr ⟨rfl, fun y hy heq => hx ?_⟩
      obtain rfl : y = x := BitVec.toNat_inj.mp heq
      exact hy

theorem foldl_insertSsrc (more : List U32) (h : Ordered.Ranked BitVec.toNat ssrcs) :
    Ordered.Ranked BitVec.toNat (more.foldl insertSsrc ssrcs) ∧
      ∀ x, x ∈ more.foldl insertSsrc ssrcs ↔ x ∈ ssrcs ∨ x ∈ more := by
  induction more generalizing ssrcs with
  | nil => exact ⟨h, fun x => by simp⟩
  | cons ssrc more ih =>
    obtain ⟨hranked, hmem⟩ := ih (ranked_insertSsrc h ssrc)
    refine ⟨hranked, fun x => ?_⟩
    rw [List.foldl_cons, hmem, mem_insertSsrc h, List.mem_cons, or_assoc]

theorem walkOver_spec (data : List UInt8) (offsets : List Nat)
    (h : Ordered.Ranked BitVec.toNat ssrcs) :
    (offsets.any (forAll data) = true → ∃ gathered,
      walkOver data offsets ssrcs = some (gathered, true)) ∧
    (offsets.any (forAll data) = false → ∃ gathered,
      walkOver data offsets ssrcs = some (gathered, false) ∧
      Ordered.Ranked BitVec.toNat gathered ∧
      ∀ x, x ∈ gathered ↔ x ∈ ssrcs ∨ x ∈ offsets.flatMap (lookedAt data)) := by
  induction offsets generalizing ssrcs with
  | nil => exact ⟨fun h => absurd h (by simp), fun _ => ⟨ssrcs, rfl, h, fun x => by simp⟩⟩
  | cons offset offsets ih =>
    obtain ⟨hranked, hmem⟩ := foldl_insertSsrc (lookedAt data offset) h
    obtain ⟨hsome, hnone⟩ := ih hranked
    rw [List.any_cons, walkOver]
    by_cases hall : forAll data offset = true
    · rw [if_pos hall, hall]
      exact ⟨fun _ => ⟨ssrcs, rfl⟩, fun h => absurd h (by simp)⟩
    · rw [if_neg hall, Bool.eq_false_of_not_eq_true hall, Bool.false_or]
      refine ⟨hsome, fun hany => ?_⟩
      obtain ⟨gathered, heq, hranked', hmem'⟩ := hnone hany
      refine ⟨gathered, heq, hranked', fun x => ?_⟩
      rw [hmem', hmem, List.flatMap_cons, List.mem_append, or_assoc]

/-! ## Deliveries -/

theorem handOver_cons (inPacket : List UInt8) (sink : σ) (sinks : List σ) :
    handOver inPacket (sink :: sinks)
      = (sink, inPacket) :: sinks.map fun other => (other, []) := by
  have hempty : ∀ sinks : List σ, handOver [] sinks = sinks.map fun other => (other, []) := by
    intro sinks
    induction sinks with
    | nil => rfl
    | cons other sinks ih => rw [handOver, ih, List.map_cons]
  rw [handOver, hempty]

theorem received_handOver_iff [DecidableEq σ] {inPacket : List UInt8} (hne : inPacket ≠ [])
    (sinks : List σ) (sink : σ) :
    received sink (handOver inPacket sinks) = [inPacket] ↔
      sinks.head? = some sink ∧ sink ∉ sinks.tail := by
  cases sinks with
  | nil => simp [handOver, received]
  | cons first sinks =>
    have hrest : ((sinks.map fun other => (other, ([] : List UInt8))).filter
        fun delivery => decide (delivery.1 = sink)).map Prod.snd
          = (sinks.filter fun other => decide (other = sink)).map fun _ => [] := by
      simp [List.filter_map, Function.comp_def]
    rw [handOver_cons, received, List.head?_cons, List.tail_cons, Option.some.injEq]
    by_cases hfirst : first = sink
    · rw [List.filter_cons_of_pos (by simpa using hfirst), List.map_cons, hrest,
        and_iff_right hfirst]
      simp only [List.cons.injEq, true_and, List.map_eq_nil_iff, List.filter_eq_nil_iff,
        decide_eq_true_eq]
      exact ⟨fun h hmem => h sink hmem rfl, fun h other hother heq => h (heq ▸ hother)⟩
    · rw [List.filter_cons_of_neg (by simpa using hfirst), hrest,
        iff_false_right (by simp [hfirst])]
      intro heq
      have hmem : inPacket ∈ (sinks.filter fun other => decide (other = sink)).map
          fun _ => ([] : List UInt8) := by rw [heq]; simp
      obtain ⟨_, _, hnil⟩ := List.mem_map.mp hmem
      exact hne hnil.symm

theorem received_all_iff [DecidableEq σ] {inPacket : List UInt8} (hne : inPacket ≠ [])
    (sinks : RtcpSinks σ) :
    (∀ sink, (∃ ssrc, (ssrc, sink) ∈ sinks.entries) →
      received sink (handOver inPacket (sinks.entries.map Prod.snd)) = [inPacket]) ↔
      sinks.entries.length ≤ 1 := by
  simp only [received_handOver_iff hne]
  rcases hentries : sinks.entries with _ | ⟨first, _ | ⟨second, entries⟩⟩
  · simp
  · obtain ⟨ssrc, value⟩ := first
    simp
  · constructor
    · intro h
      have hsecond := h second.2 ⟨second.1, by simp⟩
      exact absurd (by simp) hsecond.2
    · intro h
      simp at h

theorem isRtcpPacket_ne_nil {data : List UInt8} (h : isRtcpPacket data = true) : data ≠ [] := by
  rintro rfl
  exact absurd h (by decide)

/-- **A compound packet reaches its sinks exactly if** no structure that the walk lays over it
leaves the buffer, and there is one sink for all, or one that is asked for and found first. -/
theorem rtcp_routing_iff [DecidableEq σ] (host : ByteOrder) (sinks : RtcpSinks σ)
    (data : List UInt8) (haccepted : isRtcpPacket data = true) :
    Routed sinks data (deliverRtcpPacket host sinks data) ↔ Reaches sinks data := by
  have hne := isRtcpPacket_ne_nil haccepted
  unfold Routed Reaches deliverRtcpPacket
  by_cases hempty : sinks.entries = []
  · rw [if_pos (by simp [hempty])]
    refine iff_of_true ⟨false, [], rfl, fun sink hsink => ?_⟩ (.inl hempty)
    unfold Selected at hsink
    split at hsink <;> simp [hempty] at hsink
  rw [if_neg (by simpa using hempty), if_neg (by simp [haccepted])]
  obtain ⟨houtside, hinside⟩ := @walk_eq host data data.length 0 []
  by_cases hin : AllInside data (subPackets data data.length 0)
  · rw [hinside hin]
    have hranked : Ordered.Ranked BitVec.toNat ([] : List U32) := List.Pairwise.nil
    obtain ⟨hsome, hnone⟩ := walkOver_spec data (subPackets data data.length 0) hranked
    cases hany : (subPackets data data.length 0).any (forAll data) with
    | true =>
      obtain ⟨gathered, heq⟩ := hsome hany
      rw [heq, if_pos rfl]
      simp only [hempty, hin, false_or, true_and]
      rw [← received_all_iff hne]
      constructor
      · rintro ⟨result, deliveries, heq', hreceived⟩ sink hsink
        cases heq'
        exact hreceived sink (by rw [Selected, hany, if_pos rfl]; exact hsink)
      · intro h
        refine ⟨true, _, rfl, fun sink hsink => h sink ?_⟩
        rwa [Selected, hany, if_pos rfl] at hsink
    | false =>
      obtain ⟨gathered, heq, hranked, hmem⟩ := hnone hany
      rw [heq, if_neg (by decide)]
      simp only [hempty, hin, false_or, true_and]
      have hlooked : ∀ x, x ∈ gathered ↔
          x ∈ (subPackets data data.length 0).flatMap (lookedAt data) := by
        intro x
        rw [hmem]
        simp
      have hsole : ∀ sink, received sink (handOver data (gathered.filterMap sinks.find)) = [data] ↔
          ∃ first ∈ (subPackets data data.length 0).flatMap (lookedAt data),
            (first, sink) ∈ sinks.entries ∧
            ∀ other ∈ (subPackets data data.length 0).flatMap (lookedAt data), other ≠ first →
              ∀ sink', (other, sink') ∈ sinks.entries →
                first.toNat < other.toNat ∧ sink' ≠ sink := by
        intro sink
        rw [received_handOver_iff hne, Ordered.head?_filterMap_iff hranked]
        simp only [hlooked, sinks.find_eq_some_iff]
      unfold Sole
      simp only [← hsole]
      constructor
      · rintro ⟨result, deliveries, heq', hreceived⟩ ssrc hssrc sink hsink
        cases heq'
        refine hreceived sink ?_
        rw [Selected, hany, if_neg (by decide)]
        exact ⟨ssrc, hssrc, hsink⟩
      · intro h
        refine ⟨true, _, rfl, fun sink hsink => ?_⟩
        rw [Selected, hany, if_neg (by decide)] at hsink
        obtain ⟨ssrc, hssrc, hentry⟩ := hsink
        exact h ssrc hssrc sink hentry
  · rw [houtside hin]
    refine iff_of_false ?_ ?_
    · rintro ⟨result, deliveries, heq, -⟩
      exact absurd heq (by simp)
    · rintro (h | h)
      · exact hempty h
      · exact hin h.1

/-- A receiver report with one block, about SSRC 2. -/
def oneBlock : List UInt8 :=
  [0x81, 201, 0, 7, 0, 0, 0, 1] ++ [0, 0, 0, 2] ++ List.replicate 20 0

/-- A sink with number 20 for SSRC 2. -/
def oneSink : RtcpSinks Nat := ⟨[(2, 20)], by decide⟩

/-- A report with one block reaches the one sink it is about. -/
theorem oneBlock_routed : Routed oneSink oneBlock (deliverRtcpPacket .little oneSink oneBlock) := by
  have hsub : subPackets oneBlock oneBlock.length 0 = [0] := by decide
  have hlooked : lookedAt oneBlock 0 = [2] := by decide
  have hasked : asked oneBlock 0 = [2] := by decide
  have hinside : Inside oneBlock 0 := by
    unfold Inside
    rw [if_neg (by decide), if_pos (by decide)]
    intro i hi
    obtain rfl : i = 0 := by
      have hcount : reportCountAt oneBlock 0 = 1 := by decide
      omega
    decide
  refine (rtcp_routing_iff .little oneSink oneBlock (by decide)).mpr (.inr ?_)
  rw [hsub]
  refine ⟨⟨hinside, fun _ => trivial⟩, ?_⟩
  rw [if_neg (by decide)]
  simp only [List.flatMap_cons, List.flatMap_nil, List.append_nil, hlooked, hasked]
  intro ssrc hssrc sink hsink
  obtain rfl := List.mem_singleton.mp hssrc
  exact ⟨2, by simp, hsink, fun other hother hne => absurd (List.mem_singleton.mp hother) hne⟩

/-- A receiver report with two blocks, about SSRCs 2 and 3. -/
def twoBlocks : List UInt8 :=
  [0x82, 201, 0, 13, 0, 0, 0, 1] ++ [0, 0, 0, 2] ++ List.replicate 20 0 ++
    [0, 0, 0, 3] ++ List.replicate 20 0

/-- A sender report from SSRC 1 with one block about SSRC 2. -/
def senderReport : List UInt8 :=
  [0x81, 200, 0, 12, 0, 0, 0, 1] ++ List.replicate 20 0 ++ [0, 0, 0, 2] ++ List.replicate 20 0

/-- Sinks with numbers 10 and 20 for SSRCs 1 and 2. -/
def twoSinks : RtcpSinks Nat := ⟨[(1, 10), (2, 20)], by decide⟩

/-- The second report block is looked for outside of the packet; and of two sinks, the second
one receives an empty packet. -/
theorem rtcp_routing_fails :
    (isRtcpPacket twoBlocks = true ∧ deliverRtcpPacket .little oneSink twoBlocks = none ∧
      ¬ Routed oneSink twoBlocks (deliverRtcpPacket .little oneSink twoBlocks)) ∧
    (isRtcpPacket senderReport = true ∧
      deliverRtcpPacket .little twoSinks senderReport
        = some (true, [(10, senderReport), (20, [])]) ∧
      ¬ Routed twoSinks senderReport (deliverRtcpPacket .little twoSinks senderReport)) := by
  have hnone : deliverRtcpPacket .little oneSink twoBlocks = none := by decide
  have hsome : deliverRtcpPacket .little twoSinks senderReport
      = some (true, [(10, senderReport), (20, [])]) := by decide
  refine ⟨⟨by decide, hnone, ?_⟩, by decide, hsome, ?_⟩
  · rintro ⟨result, deliveries, heq, -⟩
    rw [hnone] at heq
    exact absurd heq (by simp)
  · rintro ⟨result, deliveries, heq, hreceived⟩
    rw [hsome] at heq
    cases heq
    have hselected : Selected twoSinks senderReport 20 := by
      unfold Selected
      rw [if_neg (by decide)]
      exact ⟨2, by decide, by decide⟩
    exact absurd (hreceived 20 hselected) (by decide)

end NaiveRtc.RtpDemuxer
