import NaiveRtc.Rtcp.FeedbackParsers

/-!
# The walk over a compound packet

`RtcpReceiver::ParseCompoundPacket` of `rtc/rtp_rtcp/rtcp/rtcp_receiver_parser.cpp`: header
after header, and for each the parser of its type.  What the receiver does with a block that was
parsed is left out; no parser sees it.

* `parseBlock` — the dispatch on type and format.
* `parseCompoundPacket` — the walk, which ends because every block is at least a header long.
* `reads_parseBlock` — no parser leaves the payload of its block.
* `parseCompoundPacket_tiles` — **the accepted blocks tile a prefix of the buffer**, and the walk
  reads nothing outside.
-/

namespace NaiveRtc.Rtcp

open Reading

/-! ## One block -/

/-- A block that was parsed. -/
inductive RtcpBlock where
  | senderReport (packet : SenderReport)
  | receiverReport (packet : ReceiverReport)
  | sdes (packet : Sdes)
  | bye (packet : Bye)
  | extendedReports (packet : ExtendedReports)
  | nack (packet : Nack)
  | transportFeedback (packet : TransportFeedback)
  | pli (packet : Pli)
  | fir (packet : Fir)
  | remb (packet : Remb)
  | lossNotification (packet : LossNotification)

section Dispatch

variable {start : Nat}

/-- A parser among the others. -/
def parseAs {α : Type} (wrap : α → RtcpBlock) (x : Reading (Option α)) :
    Reading (Option RtcpBlock) := do
  let packet ← x
  pure (packet.map wrap)

/-- `ParseAfb(rtcp_block, packet_info)`: a loss notification is what is no REMB. -/
def parseAfb (h : BlockHeader start) : Reading (Option RtcpBlock) := do
  let remb ← parseAs .remb (Remb.parse h)
  match remb with
  | some block => pure (some block)
  | none => parseAs .lossNotification (LossNotification.parse h)

/-- The cases of `Rtpfb::kPacketType`; TMMBR and TMMBN are skipped like an unknown format. -/
def parseRtpfb (h : BlockHeader start) : Reading (Option RtcpBlock) :=
  if h.countOrFmt.toNat = Nack.kFeedbackMessageType then parseAs .nack (Nack.parseBlock h)
  else if h.countOrFmt.toNat = Tmmb.kTmmbrFeedbackMessageType then pure none
  else if h.countOrFmt.toNat = Tmmb.kTmmbnFeedbackMessageType then pure none
  else if h.countOrFmt.toNat = kFeedbackMessageType then
    parseAs .transportFeedback (TransportFeedback.parseBlock (TransportFeedback.create true true) h)
  else pure none

/-- The cases of `Psfb::kPacketType`. -/
def parsePsfb (h : BlockHeader start) : Reading (Option RtcpBlock) :=
  if h.countOrFmt.toNat = Pli.kFeedbackMessageType then parseAs .pli (Pli.parse h)
  else if h.countOrFmt.toNat = Fir.kFeedbackMessageType then parseAs .fir (Fir.parse h)
  else if h.countOrFmt.toNat = kAfbMessageType then parseAfb h
  else pure none

/-- The `switch` of `ParseCompoundPacket`; `none` is a block that is skipped. -/
def parseBlock (h : BlockHeader start) : Reading (Option RtcpBlock) :=
  if h.packetType.toNat = SenderReport.kPacketType then parseAs .senderReport (SenderReport.parse h)
  else if h.packetType.toNat = ReceiverReport.kPacketType then
    parseAs .receiverReport (ReceiverReport.parse h)
  else if h.packetType.toNat = Sdes.kPacketType then parseAs .sdes (Sdes.parse h)
  else if h.packetType.toNat = Bye.kPacketType then parseAs .bye (Bye.parse h)
  else if h.packetType.toNat = ExtendedReports.kPacketType then
    parseAs .extendedReports (ExtendedReports.parse h)
  else if h.packetType.toNat = kRtpfbPacketType then parseRtpfb h
  else if h.packetType.toNat = kPsfbPacketType then parsePsfb h
  else pure none

variable {h : BlockHeader start}

theorem BlockHeader.Reads.pure {α : Type} (a : α) : h.Reads (pure a) :=
  fun _ => safe_pure.2 trivial

theorem BlockHeader.Reads.ite {α : Type} {c : Prop} [Decidable c] {x y : Reading α}
    (hx : h.Reads x) (hy : h.Reads y) : h.Reads (if c then x else y) :=
  fun mem => safe_ite.2 ⟨fun _ => hx mem, fun _ => hy mem⟩

theorem BlockHeader.Reads.bind {α β : Type} {x : Reading α} {f : α → Reading β} (hx : h.Reads x)
    (hf : ∀ a, h.Reads (f a)) : h.Reads (x >>= f) :=
  fun mem => safe_bind.2 ((hx mem).imp fun a _ => hf a mem)

theorem BlockHeader.Reads.parseAs {α : Type} {wrap : α → RtcpBlock} {x : Reading (Option α)}
    (hx : h.Reads x) : h.Reads (parseAs wrap x) :=
  hx.bind fun _ => .pure _

theorem reads_parseAfb (h : BlockHeader start) : h.Reads (parseAfb h) := by
  refine (Remb.reads_parse h).parseAs.bind fun remb => ?_
  cases remb with
  | none => exact (LossNotification.reads_parse h).parseAs
  | some block => exact .pure _

theorem reads_parseBlock (h : BlockHeader start) : h.Reads (parseBlock h) := by
  have hrtpfb : h.Reads (parseRtpfb h) :=
    .ite (Nack.reads_parseBlock h).parseAs (.ite (.pure _) (.ite (.pure _)
      (.ite (TransportFeedback.reads_parseBlock _ h).parseAs (.pure _))))
  have hpsfb : h.Reads (parsePsfb h) :=
    .ite (Pli.reads_parse h).parseAs (.ite (Fir.reads_parse h).parseAs
      (.ite (reads_parseAfb h) (.pure _)))
  refine .ite (SenderReport.reads_parse h).parseAs (.ite (ReceiverReport.reads_parse h).parseAs ?_)
  refine .ite (Sdes.reads_parse h).parseAs (.ite (Bye.reads_parse h).parseAs ?_)
  exact .ite (ExtendedReports.reads_parse h).parseAs (.ite hrtpfb (.ite hpsfb (.pure _)))

end Dispatch

/-! ## The walk -/

/-- A block whose header was accepted, and what its parser made of it. -/
structure AcceptedBlock where
  start : Nat
  header : BlockHeader start
  parsed : Option RtcpBlock

/-- A walk: the accepted blocks, `next_block` where the loop was left, and what
`ParseCompoundPacket` returns. -/
structure Walk where
  blocks : List AcceptedBlock
  stop : Nat
  result : Bool

/-- The loop of `ParseCompoundPacket` from `next_block` on, in a packet from `first` to `limit`.
It is left at the end of the packet, and in front of a header that cannot be parsed. -/
def walkBlocks (first limit nextBlock : Nat) : Reading Walk :=
  if limit ≤ nextBlock then pure ⟨[], nextBlock, true⟩
  else do
    let header ← BlockHeader.parse nextBlock (limit - nextBlock)
    match header with
    | none => pure ⟨[], nextBlock, decide (nextBlock ≠ first)⟩
    | some rtcpBlock => do
      let parsed ← parseBlock rtcpBlock
      let rest ← walkBlocks first limit rtcpBlock.nextPacket
      pure { rest with blocks := ⟨nextBlock, rtcpBlock, parsed⟩ :: rest.blocks }
termination_by limit - nextBlock
decreasing_by
  unfold BlockHeader.nextPacket BlockHeader.payload kRtcpCommonHeaderSize
  omega

/-- `ParseCompoundPacket(packet, packet_info)` of the `size` bytes from an address on. -/
def parseCompoundPacket (start size : Nat) : Reading Walk := walkBlocks start (start + size) start

/-- The blocks lie one after the other, the first at `start`, and end at `stop`. -/
def Tiles (start : Nat) : List AcceptedBlock → Nat → Prop
  | [], stop => start = stop
  | block :: blocks, stop => block.start = start ∧ Tiles block.header.nextPacket blocks stop

/-- What is known of a block whose header was accepted: it is no longer than declared, and its
parser reads its payload only. -/
structure AcceptedBlock.WellFormed (mem : Nat → UInt8) (limit : Nat) (block : AcceptedBlock) :
    Prop where
  declared : block.header.payloadSize + block.header.paddingSize.toNat =
    BlockHeader.declaredSize mem block.start
  inside : block.start + kRtcpCommonHeaderSize + block.header.payloadSize +
    block.header.paddingSize.toNat ≤ limit
  parsed_eq : block.parsed = (parseBlock block.header).value mem
  own : ∀ address ∈ (parseBlock block.header).reads mem, block.header.payload ≤ address ∧
    address < block.header.payload + block.header.payloadSize

/-- What is known of a walk from `nextBlock` on. -/
structure Walk.WellFormed (mem : Nat → UInt8) (limit nextBlock : Nat) (walk : Walk) : Prop where
  tiles : Tiles nextBlock walk.blocks walk.stop
  blocks : ∀ block ∈ walk.blocks, block.WellFormed mem limit
  stop_le : walk.stop ≤ limit
  stopped : walk.stop = limit ∨
    (BlockHeader.parse walk.stop (limit - walk.stop)).value mem = none

theorem safe_walkBlocks {mem : Nat → UInt8} {first limit nextBlock : Nat}
    (hnext : nextBlock ≤ limit) :
    (walkBlocks first limit nextBlock).Safe mem nextBlock limit fun walk =>
      walk.WellFormed mem limit nextBlock := by
  induction hn : limit - nextBlock using Nat.strong_induction_on generalizing nextBlock with
  | _ n ih =>
    rw [walkBlocks]
    refine safe_ite.2 ⟨fun hend => safe_pure.2 ?_, fun hroom => safe_bind.2 ?_⟩
    · have heq : nextBlock = limit := by omega
      exact ⟨rfl, by simp, hnext, Or.inl heq⟩
    · have hheader := BlockHeader.safe_parse mem nextBlock (limit - nextBlock)
      rw [Nat.add_sub_cancel' hnext, safe_value] at hheader
      refine hheader.imp fun header ⟨hvalue, hfits⟩ => ?_
      cases header with
      | none => exact safe_pure.2 ⟨rfl, by simp, hnext, Or.inr hvalue.symm⟩
      | some rtcpBlock =>
        obtain ⟨hdeclared, hinside⟩ := hfits rtcpBlock rfl
        have hpayload : rtcpBlock.payload = nextBlock + kRtcpCommonHeaderSize := rfl
        have hpacket : rtcpBlock.nextPacket =
            rtcpBlock.payload + rtcpBlock.payloadSize + rtcpBlock.paddingSize.toNat := rfl
        have hfour : kRtcpCommonHeaderSize = 4 := rfl
        have hown := safe_value.1 (reads_parseBlock rtcpBlock mem)
        refine safe_bind.2 ((hown.mono (by omega) (by omega)).imp fun parsed ⟨hparsed, _⟩ => ?_)
        refine safe_bind.2 (((ih _ ?_ ?_ rfl).mono (by omega) (le_refl _)).imp fun rest hrest => ?_)
        · omega
        · omega
        · refine safe_pure.2 ⟨⟨rfl, hrest.tiles⟩, ?_, hrest.stop_le, hrest.stopped⟩
          intro block hblock
          rcases List.mem_cons.1 hblock with rfl | hblock
          · exact ⟨hdeclared, by dsimp only; omega, hparsed, (safe_iff.1 hown).1⟩
          · exact hrest.blocks block hblock

/-- Every block takes a header at least, so that the walk has at most a quarter as many rounds
as the packet has bytes. -/
theorem Tiles.length_le {start stop : Nat} {blocks : List AcceptedBlock}
    (h : Tiles start blocks stop) : start + kRtcpCommonHeaderSize * blocks.length ≤ stop := by
  induction blocks generalizing start with
  | nil => exact le_of_eq h
  | cons block blocks ih =>
    have hrest := ih h.2
    have hstart : block.start = start := h.1
    unfold BlockHeader.nextPacket BlockHeader.payload at hrest
    rw [List.length_cons, Nat.mul_succ]
    omega

/-- **The accepted blocks tile a prefix of the packet**, all of it unless a header is malformed.
Every one lies inside the packet with its padding, its parser reads its own payload only, and the
walk reads nothing outside the packet. -/
theorem parseCompoundPacket_tiles (mem : Nat → UInt8) (start size : Nat) :
    ((parseCompoundPacket start size).value mem).WellFormed mem (start + size) start ∧
      kRtcpCommonHeaderSize * ((parseCompoundPacket start size).value mem).blocks.length ≤ size ∧
      ∀ address ∈ (parseCompoundPacket start size).reads mem,
        start ≤ address ∧ address < start + size := by
  have hsafe : (parseCompoundPacket start size).Safe mem start (start + size) _ :=
    safe_walkBlocks (Nat.le_add_right start size)
  obtain ⟨hreads, hwalk⟩ := safe_iff.1 hsafe
  have hrounds := hwalk.tiles.length_le
  have hstop := hwalk.stop_le
  exact ⟨hwalk, by omega, hreads⟩

end NaiveRtc.Rtcp
