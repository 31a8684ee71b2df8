import NaiveRtc.Receiver.NackInvariant
import NaiveRtc.Rtcp.BufferLaw
import NaiveRtc.Rtcp.CompoundWalk
import NaiveRtc.Rtcp.ExtendedReportsRoundTrip
import NaiveRtc.Rtcp.SdesByeRoundTrip
import NaiveRtc.Rtp.PacketToSend

/-!
# Packets on their way to the other side

`RtcpPacket::Build(max_size, callback)` cuts what it packs into datagrams, and
`RtcpReceiver::ParseCompoundPacket` walks over each of them.  Whatever was written as a whole
packet is found as one block.

* `build`, `receive` — a datagram on either side.
* `Framed`, `SimplePacket.framed` — whole packets; what is packed of a packet are such.
* `walk_complete` — the walk over whole packets finds them all, in order.
* `build_arrives` — **whatever is built is found**, packet by packet.
* `requests_arrive` — the sequence numbers a `NackModuleImpl` hands out are those that the sender
  is told.
-/

namespace NaiveRtc.Rtcp

open ByteIo PackState Reading

/-! ## Whole packets -/

/-- A whole packet: its header is found whatever follows it, and nothing of it is left over. -/
structure Framed (piece : List UInt8) (packet : CommonHeader) : Prop where
  parse : ∀ rest, CommonHeader.parse (piece ++ rest) = some packet
  length : packet.packetSize = piece.length

theorem framed_packCommonHeader {fmt type padSize : Nat} {payload : List UInt8} (hfmt : fmt < 32)
    (hpad : padSize < 256) (halign : (payload.length + padSize) % 4 = 0)
    (hlength : payload.length + padSize < 2 ^ 18) :
    Framed (packCommonHeader fmt type (payload.length + padSize) (decide (0 < padSize)) ++
        payload ++ padding padSize)
      { packetType := UInt8.ofNat type
        countOrFmt := UInt8.ofNat fmt
        paddingSize := UInt8.ofNat padSize
        payload := payload } where
  parse rest := parse_packCommonHeader hfmt hpad halign hlength
  length := by
    have hbyte : (UInt8.ofNat padSize).toNat = padSize := UInt8.toNat_ofNat_of_lt hpad
    simp [CommonHeader.packetSize, kRtcpCommonHeaderSize, hbyte, Nat.add_assoc]

theorem framed_of_header {piece : List UInt8} {fmt type : Nat}
    (hheader : packCommonHeader fmt type (piece.length - kRtcpCommonHeaderSize) false <+: piece)
    (hfmt : fmt < 32) (halign : piece.length % 4 = 0) (hlength : piece.length < 2 ^ 18) :
    ∃ packet, Framed piece packet := by
  obtain ⟨payload, hpiece⟩ := hheader
  have hsize := congrArg List.length hpiece
  rw [List.length_append, length_packCommonHeader] at hsize
  rw [← hsize, kRtcpCommonHeaderSize, Nat.add_sub_cancel_left] at hpiece
  have hframed := @framed_packCommonHeader fmt type 0 payload hfmt (by decide) (by omega) (by omega)
  rw [← hpiece]
  exact ⟨_, by simpa [padding] using hframed⟩

/-- What is found of a packet: its header, and what the parser of its type makes of it. -/
structure Found (mem : Nat → UInt8) (packet : CommonHeader) (block : AcceptedBlock) : Prop where
  header : block.header.toCommonHeader mem = packet
  parsed : block.parsed = (parseBlock block.header).value mem

variable {mem : Nat → UInt8} {first limit nextBlock start : Nat}

theorem value_walkBlocks {piece rest : List UInt8} {packet : CommonHeader}
    (hframed : Framed piece packet) (hheld : HeldAt mem nextBlock (piece ++ rest))
    (hlimit : limit = nextBlock + (piece ++ rest).length) :
    ∃ block : AcceptedBlock, Found mem packet block ∧
      (walkBlocks first limit nextBlock).value mem =
        { (walkBlocks first limit (nextBlock + piece.length)).value mem with
          blocks := block ::
            ((walkBlocks first limit (nextBlock + piece.length)).value mem).blocks } := by
  have hsize : packet.packetSize = piece.length := hframed.length
  have hpos : 0 < piece.length := by
    rw [← hsize, CommonHeader.packetSize, kRtcpCommonHeaderSize]
    omega
  have hroom : limit - nextBlock = (piece ++ rest).length := by omega
  have hparse := BlockHeader.value_parse mem nextBlock (limit - nextBlock)
  rw [hroom, hheld, hframed.parse, ← hroom] at hparse
  obtain ⟨h, hsome, rfl⟩ := Option.map_eq_some_iff.1 hparse
  have hnext : h.nextPacket = nextBlock + piece.length := by
    rw [← hsize, CommonHeader.packetSize, BlockHeader.toCommonHeader, length_bytesAt,
      BlockHeader.nextPacket, BlockHeader.payload, Nat.add_assoc, Nat.add_assoc, Nat.add_assoc]
  refine ⟨⟨nextBlock, h, (parseBlock h).value mem⟩, ⟨rfl, rfl⟩, ?_⟩
  have hgo : ¬limit ≤ nextBlock := by
    rw [List.length_append] at hroom
    omega
  rw [walkBlocks, if_neg hgo, value_bind, hsome]
  simp only [value_bind, value_pure, hnext]

/-- **The walk over whole packets finds them all.**  Wherever they lie one after the other,
`ParseCompoundPacket` accepts one block for each, in order, with the header that the packet has
by itself. -/
theorem walk_complete (mem : Nat → UInt8) (start : Nat) {pieces : List (List UInt8)}
    {packets : List CommonHeader} (hframed : List.Forall₂ Framed pieces packets)
    (hheld : HeldAt mem start pieces.flatten) :
    let walk := (parseCompoundPacket start pieces.flatten.length).value mem
    walk.result = true ∧ List.Forall₂ (Found mem) packets walk.blocks := by
  unfold parseCompoundPacket
  suffices h : ∀ nextBlock first limit, HeldAt mem nextBlock pieces.flatten →
      limit = nextBlock + pieces.flatten.length →
      ((walkBlocks first limit nextBlock).value mem).result = true ∧
        List.Forall₂ (Found mem) packets ((walkBlocks first limit nextBlock).value mem).blocks from
    h start start _ hheld rfl
  clear hheld
  induction hframed with
  | nil =>
    intro nextBlock first limit _ hlimit
    rw [List.flatten_nil, List.length_nil, Nat.add_zero] at hlimit
    rw [walkBlocks, if_pos hlimit.le]
    exact ⟨rfl, .nil⟩
  | @cons piece packet pieces packets hpiece _ ih =>
    intro nextBlock first limit hheld hlimit
    rw [List.flatten_cons] at hheld hlimit
    obtain ⟨block, hfound, hwalk⟩ :=
      @value_walkBlocks mem first limit nextBlock _ _ _ hpiece hheld hlimit
    rw [List.length_append, ← Nat.add_assoc] at hlimit
    obtain ⟨hresult, hblocks⟩ := ih _ first limit (heldAt_append.1 hheld).2 hlimit
    rw [hwalk]
    exact ⟨hresult, .cons hfound hblocks⟩

/-! ## What is packed -/

theorem Nack.framed_fragment (n : Nack) {items : List FciItem}
    (hlength : items.length < 2 ^ 16 - 3) : ∃ packet, Framed (n.fragment items) packet := by
  have hfragment : (n.fragment items).length = 12 + 4 * items.length := n.length_fragment items
  refine @framed_of_header _ kFeedbackMessageType kRtpfbPacketType ?_ (by decide) (by omega)
    (by omega)
  have hpayload : (n.fragment items).length - kRtcpCommonHeaderSize =
      kCommonFeedbackSize + items.length * kFciItemSize := by
    rw [hfragment, kRtcpCommonHeaderSize, kCommonFeedbackSize, kFciItemSize]
    omega
  rw [hpayload, fragment, List.append_assoc]
  exact List.prefix_append _ _

namespace SimplePacket

variable {p : SimplePacket}

theorem packetSize_mod_four (p : SimplePacket) : p.packetSize % 4 = 0 := by
  cases p with
  | senderReport r => exact (show (28 + r.reportBlocks.length * 24) % 4 = 0 by omega)
  | receiverReport r => exact (show (8 + r.reportBlocks.length * 24) % 4 = 0 by omega)
  | sdes s => exact s.readBack.aligned
  | bye b => exact b.readBack.aligned
  | pli p => exact (show 12 % 4 = 0 from rfl)
  | fir f => exact (show (12 + 8 * f.fciItems.length) % 4 = 0 by omega)
  | lossNotification l => exact (show 20 % 4 = 0 from rfl)
  | remb r => exact (show (12 + (2 + r.ssrcs.length) * 4) % 4 = 0 by omega)
  | tmmbr t => exact (show (12 + 8 * t.items.length) % 4 = 0 by omega)
  | tmmbn t => exact (show (12 + 8 * t.items.length) % 4 = 0 by omega)
  | nack n => exact (show (12 + n.fciItems.length * 4) % 4 = 0 by omega)
  | transportFeedback f => exact Nat.mul_mod_left _ _
  | extendedReports x =>
    have hwords := x.four_dvd_payload
    exact (show x.packetSize % 4 = 0 by rw [x.packetSize_eq]; omega)

theorem framed (hp : p.WellFormed) (hsplit : p.fragmenting = false) (hsize : p.packetSize < 2 ^ 18)
    {pieces : List (List UInt8)} (h : p.Serialises pieces) :
    ∀ piece ∈ pieces, ∃ packet, Framed piece packet := by
  have hone : ∀ {bytes : List UInt8} {fmt type : Nat}, pieces = [bytes] →
      packCommonHeader fmt type (p.packetSize - kRtcpCommonHeaderSize) false <+: bytes →
      bytes.length = p.packetSize → fmt < 32 → ∀ piece ∈ pieces, ∃ packet, Framed piece packet := by
    rintro bytes fmt type rfl hheader hlength hfmt piece hpiece
    obtain rfl := List.mem_singleton.1 hpiece
    rw [← hlength] at hheader hsize
    exact framed_of_header hheader hfmt (hlength ▸ p.packetSize_mod_four) hsize
  have whole := @List.prefix_append UInt8
  have more : ∀ {a b c : List UInt8}, a <+: b → a <+: b ++ c := fun h =>
    h.trans (List.prefix_append _ _)
  cases p with
  | senderReport r => exact hone h (more (whole _ _)) r.length_bytes (Nat.lt_succ_of_le r.blocks_le)
  | receiverReport r =>
    exact hone h (more (whole _ _)) r.length_bytes (Nat.lt_succ_of_le r.blocks_le)
  | sdes s => exact hone h (whole _ _) s.length_bytes (Nat.lt_succ_of_le s.chunks_le)
  | bye b =>
    have hcsrcs : b.csrcs.length ≤ 0x1F - 1 := b.csrcs_le
    exact hone h (more (more (whole _ _))) b.length_bytes (by omega)
  | pli p => exact hone h (whole _ _) p.length_bytes (by decide)
  | fir f => exact hone h (more (whole _ _)) f.length_bytes (by decide)
  | lossNotification l =>
    exact hone h (more (more (more (whole _ _)))) l.length_bytes (by decide)
  | remb r => exact hone h (more (more (more (whole _ _)))) r.length_bytes (by decide)
  | tmmbr t => exact hone h (more (whole _ _)) t.length_bytes (by decide)
  | tmmbn t => exact hone h (more (whole _ _)) t.length_bytes (by decide)
  | nack n => cases hsplit
  | transportFeedback f =>
    rintro piece hpiece
    obtain rfl : piece = f.packetBytes := by
      simpa [show pieces = [f.packetBytes] from h] using hpiece
    have hpad : f.packetSize - kRtcpCommonHeaderSize = f.payloadBytes.length + f.paddingSize ∧
        f.paddingSize < 4 ∧ (f.payloadBytes.length + f.paddingSize) % 4 = 0 := by
      have hbytes := hp.2
      simp only [TransportFeedback.paddingSize, TransportFeedback.packetSize,
        kRtcpCommonHeaderSize] at hbytes ⊢
      omega
    have hle : f.packetSize - kRtcpCommonHeaderSize < 2 ^ 18 := (Nat.sub_le _ _).trans_lt hsize
    rw [TransportFeedback.packetBytes, hpad.1]
    exact ⟨_, framed_packCommonHeader (by decide) (by omega) hpad.2.2 (hpad.1 ▸ hle)⟩
  | extendedReports x => exact hone h (more (more (more (whole _ _)))) x.length_bytes (by decide)

variable {maxSize fuel : Nat} {st st' : PackState}

theorem packInto_framed (hp : p.WellFormed) (hmax : maxSize ≤ kIpPacketSize)
    (hbuffer : maxSize ≤ st.buffer.length) (hindex : st.index ≤ maxSize)
    (h : p.packInto true maxSize fuel st = some (true, st')) :
    ∃ pieces, p.Serialises pieces ∧ Placed maxSize st pieces st' ∧
      ∀ piece ∈ pieces, ∃ packet, Framed piece packet := by
  unfold kIpPacketSize at hmax
  cases hsplit : p.fragmenting with
  | true =>
    cases p with
    | nack n =>
      have hitems : n.packItems true maxSize fuel n.fciItems st = some (true, st') := by
        rw [← h]
        exact (if_neg fun hempty => hp (List.isEmpty_iff.mp hempty)).symm
      rcases n.packItems_spec n.fciItems fuel hp hindex hbuffer hitems with
        ⟨-, groups, hflatten, hgroups, hplaced, -⟩ | ⟨hfalse, -⟩
      · refine ⟨_, ⟨groups, hflatten, fun group hgroup => (hgroups group hgroup).1, rfl⟩, hplaced,
          fun piece hpiece => ?_⟩
        obtain ⟨group, hgroup, rfl⟩ := List.mem_map.1 hpiece
        have hroom : group.length ≤ (maxSize - 0 - 12) / 4 := (hgroups group hgroup).2
        exact Nack.framed_fragment n (by omega)
      · cases hfalse
    | _ => cases hsplit
  | false =>
    obtain ⟨pieces, hpieces, hplaced, hnext⟩ := packInto_accepts hp hbuffer hindex h
    refine ⟨pieces, hpieces, hplaced, framed hp hsplit ?_ hpieces⟩
    rcases p.nextIndex_cases with ⟨n, rfl⟩ | ⟨x, rfl⟩ | ⟨hsame, -⟩
    · cases hsplit
    · simp only [nextIndex] at hnext
      split_ifs at hnext
      exact (show x.packetSize < 2 ^ 18 by omega)
    · rw [hsame, Rtcp.nextIndex] at hnext
      split_ifs at hnext with hroom hflush <;> omega

end SimplePacket

theorem packLeaves_framed {ps : List SimplePacket} (hps : ∀ p ∈ ps, p.WellFormed)
    {maxSize fuel : Nat} {st st' : PackState} (hmax : maxSize ≤ kIpPacketSize)
    (hbuffer : maxSize ≤ st.buffer.length) (hindex : st.index ≤ maxSize)
    (h : RtcpPacket.packLeaves true maxSize fuel ps st = some (true, st')) :
    ∃ parts, List.Forall₂ SimplePacket.Serialises ps parts ∧ Placed maxSize st parts.flatten st' ∧
      ∀ piece ∈ parts.flatten, ∃ packet, Framed piece packet := by
  induction ps generalizing st with
  | nil =>
    obtain ⟨-, rfl⟩ := Prod.mk.inj (Option.some.inj h)
    exact ⟨[], .nil, Placed.refl hindex, by simp⟩
  | cons p ps ih =>
    rw [List.forall_mem_cons] at hps
    rcases packLeaves_cons_eq_some h with ⟨_, _, hr⟩ | ⟨st₁, hpack, hrest⟩
    · cases hr
    · obtain ⟨pieces, hpieces, hplaced, hframed⟩ :=
        SimplePacket.packInto_framed hps.1 hmax hbuffer hindex hpack
      obtain ⟨parts, hparts, hplaced', hframed'⟩ :=
        ih hps.2 (hplaced.length ▸ hbuffer) hplaced.index_le hrest
      exact ⟨pieces :: parts, .cons hpieces hparts, hplaced.trans hplaced',
        List.forall_mem_append.2 ⟨hframed, hframed'⟩⟩

/-! ## Datagrams -/

/-- `Build(max_size, callback)` over a buffer: what it returns, and what the callback is given. -/
def RtcpPacket.build (p : RtcpPacket) (maxSize fuel : Nat) (buffer : List UInt8) :
    Option (Bool × List (List UInt8)) :=
  (p.packInto true maxSize fuel ⟨buffer, 0, []⟩).map fun (packed, st) =>
    if packed then
      match st.onBufferFull true with
      | none => (false, st.delivered)
      | some st => (true, st.delivered)
    else (false, st.delivered)

variable {p : RtcpPacket} {maxSize fuel : Nat} {buffer : List UInt8} {st : PackState}
  {pieces datagrams : List (List UInt8)}

theorem RtcpPacket.build_eq_some (h : p.build maxSize fuel buffer = some (true, datagrams)) :
    ∃ st, p.packInto true maxSize fuel ⟨buffer, 0, []⟩ = some (true, st) ∧
      datagrams = st.pages := by
  obtain ⟨⟨_ | _, st⟩, hst, h⟩ := Option.map_eq_some_iff.1 h
  · cases h
  · have hindex : st.index ≠ 0 := fun hzero => by simp [PackState.onBufferFull, hzero] at h
    exact ⟨st, hst, by simpa [PackState.onBufferFull, hindex, PackState.pages] using h.symm⟩

/-- `ParseCompoundPacket` of a datagram. -/
def receive (datagram : List UInt8) : Walk :=
  (parseCompoundPacket 0 datagram.length).value (memoryOf datagram)

theorem build_of_placed (hpacked : p.packInto true maxSize fuel ⟨buffer, 0, []⟩ = some (true, st))
    (hplaced : Placed maxSize ⟨buffer, 0, []⟩ pieces st) (hne : pieces ≠ [])
    (hpieces : ∀ piece ∈ pieces, piece ≠ []) :
    ∃ groups : List (List (List UInt8)),
      p.build maxSize fuel buffer = some (true, groups.map List.flatten) ∧
        groups.flatten = pieces := by
  have hindex : st.index ≠ 0 := fun hzero =>
    hplaced.laid.getLast?_ne_nil hpieces (.inl hne) (by simp [PackState.pages, hzero])
  obtain ⟨groups, hpages, hflatten⟩ := hplaced.laid.groups_of_empty
  refine ⟨groups, ?_, hflatten⟩
  rw [RtcpPacket.build, hpacked, ← hpages]
  simp [PackState.onBufferFull, hindex, PackState.pages]

theorem receive_framed (hframed : ∀ piece ∈ pieces, ∃ packet, Framed piece packet) :
    ∃ header : List UInt8 → CommonHeader, (∀ piece ∈ pieces, Framed piece (header piece)) ∧
      (receive pieces.flatten).result = true ∧
      List.Forall₂ (Found (memoryOf pieces.flatten)) (pieces.map header)
        (receive pieces.flatten).blocks := by
  have _ : Nonempty CommonHeader := ⟨0, 0, 0, []⟩
  choose! header hframed using hframed
  have hheld := heldAt_memoryOf pieces.flatten []
  rw [List.append_nil] at hheld
  obtain ⟨hresult, hblocks⟩ := walk_complete (memoryOf pieces.flatten) 0
    (List.forall₂_map_right_iff.2 (List.forall₂_same.2 hframed)) hheld
  exact ⟨header, hframed, hresult, hblocks⟩

/-- **Whatever is built is found.**  The datagrams that `Build` makes of a packet are cut between
the packets that it is made of, and in each of them the walk finds exactly these, in order. -/
theorem build_arrives (hp : p.WellFormed) (hmax : maxSize ≤ kIpPacketSize)
    (hbuffer : buffer.length = kIpPacketSize)
    (hbuild : p.build maxSize fuel buffer = some (true, datagrams)) :
    ∃ groups : List (List (List UInt8)), p.Serialises groups.flatten ∧
      datagrams = groups.map List.flatten ∧
      ∀ group ∈ groups, ∃ packets, List.Forall₂ Framed group packets ∧
        (receive group.flatten).result = true ∧
        List.Forall₂ (Found (memoryOf group.flatten)) packets (receive group.flatten).blocks := by
  obtain ⟨st, hpacked, rfl⟩ := RtcpPacket.build_eq_some hbuild
  rw [RtcpPacket.packInto_eq_packLeaves] at hpacked
  obtain ⟨parts, hparts, hplaced, hframed⟩ :=
    packLeaves_framed hp hmax (hbuffer ▸ hmax) (Nat.zero_le _) hpacked
  obtain ⟨groups, hpages, hflatten⟩ := hplaced.laid.groups_of_empty
  refine ⟨groups, ⟨parts, hparts, hflatten⟩, hpages, fun group hgroup => ?_⟩
  obtain ⟨header, hwhole, hreceived⟩ := receive_framed fun piece hpiece =>
    hframed piece (hflatten ▸ List.mem_flatten.2 ⟨group, hgroup, hpiece⟩)
  exact ⟨_, List.forall₂_map_right_iff.2 (List.forall₂_same.2 hwhole), hreceived⟩

/-- A request for a picture and a farewell, which a datagram does not hold together. -/
theorem build_arrives_compound :
    ∃ groups : List (List (List UInt8)),
      (RtcpPacket.compound [.simple (.pli ⟨7, 8⟩),
        .simple (.bye ⟨7, [], [], by decide, by decide⟩)]).Serialises groups.flatten ∧
      [[129, 206, 0, 2, 0, 0, 0, 7, 0, 0, 0, 8], [129, 203, 0, 1, 0, 0, 0, 7]] =
        groups.map List.flatten ∧
      ∀ group ∈ groups, ∃ packets, List.Forall₂ Framed group packets ∧
        (receive group.flatten).result = true ∧
        List.Forall₂ (Found (memoryOf group.flatten)) packets (receive group.flatten).blocks :=
  @build_arrives _ 16 2 (List.replicate 1500 0) _
    (by simp [RtcpPacket.WellFormed, RtcpPacket.leaves, RtcpPacket.leavesAll,
      SimplePacket.WellFormed])
    (by decide) List.length_replicate (by decide +kernel)

/-! ## Lost packets -/

/-- The sequence numbers of the NACK that a block was parsed to. -/
def AcceptedBlock.packetIds (block : AcceptedBlock) : List U16 :=
  match block.parsed with
  | some (.nack packet) => packet.packetIds
  | _ => []

theorem Found.packetIds {piece : List UInt8} {packet : CommonHeader} {block : AcceptedBlock}
    {n : Nack} (h : Found mem packet block) (hframed : Framed piece packet)
    (hparse : parseNack piece = some n) : block.packetIds = n.packetIds := by
  have hheader := hframed.parse []
  rw [List.append_nil] at hheader
  rw [parseNack, hheader, Option.bind_some, ← h.header] at hparse
  rcases hn : Nack.fresh.parse (block.header.toCommonHeader mem) with ⟨n', _ | _⟩
  · rw [hn] at hparse
    cases hparse
  · rw [hn] at hparse
    obtain rfl := Option.some.inj hparse
    have hvalue := Nack.value_parseBlock mem block.header
    rw [hn] at hvalue
    unfold Nack.parse at hn
    split_ifs at hn with htype hformat
    iterate 3 exact absurd (Prod.mk.inj hn).2 Bool.false_ne_true
    have htype' : block.header.packetType = UInt8.ofNat kRtpfbPacketType := not_not.1 htype
    have hformat' : block.header.countOrFmt = UInt8.ofNat Nack.kFeedbackMessageType :=
      not_not.1 hformat
    have hdispatch : parseBlock block.header = parseAs .nack (Nack.parseBlock block.header) := by
      unfold parseBlock parseRtpfb
      rw [htype', hformat']
      rfl
    rw [AcceptedBlock.packetIds, h.parsed, hdispatch, parseAs, value_bind, value_pure, hvalue]
    rfl

theorem packetIds_receive {nacks : List Nack}
    (hwhole : ∀ piece ∈ pieces, ∃ packet, Framed piece packet)
    (hparse : pieces.map parseNack = nacks.map some) :
    (receive pieces.flatten).result = true ∧
      (receive pieces.flatten).blocks.flatMap (·.packetIds) = nacks.flatMap Nack.packetIds := by
  obtain ⟨header, hframed, hresult, hblocks⟩ := receive_framed hwhole
  refine ⟨hresult, ?_⟩
  rw [List.forall₂_map_left_iff] at hblocks
  generalize (receive pieces.flatten).blocks = blocks at hblocks
  generalize memoryOf pieces.flatten = mem at hblocks
  clear hwhole hresult
  induction hblocks generalizing nacks with
  | nil =>
    obtain rfl := List.map_eq_nil_iff.1 hparse.symm
    rfl
  | cons hfound _ ih =>
    obtain ⟨n, nacks, rfl, hhead, htail⟩ := List.map_eq_cons_iff.1 hparse.symm
    rw [List.forall_mem_cons] at hframed
    rw [List.flatMap_cons, List.flatMap_cons, ih htail.symm hframed.2,
      hfound.packetIds hframed.1 hhead.symm]

theorem packetIds_datagrams {datagrams : List (List (List UInt8))} {nacks : List Nack}
    (hframed : ∀ piece ∈ datagrams.flatten, ∃ packet, Framed piece packet)
    (hparse : datagrams.flatten.map parseNack = nacks.map some) :
    (∀ d ∈ datagrams.map List.flatten, (receive d).result = true) ∧
      (datagrams.map List.flatten).flatMap (fun d => (receive d).blocks.flatMap (·.packetIds)) =
        nacks.flatMap Nack.packetIds := by
  induction datagrams generalizing nacks with
  | nil =>
    obtain rfl := List.map_eq_nil_iff.1 hparse.symm
    exact ⟨by simp, rfl⟩
  | cons pieces datagrams ih =>
    rw [List.flatten_cons] at hframed hparse
    rw [List.map_append] at hparse
    obtain ⟨these, others, rfl, hthese, hothers⟩ := List.map_eq_append_iff.1 hparse.symm
    obtain ⟨hfirst, hrest⟩ := List.forall_mem_append.1 hframed
    obtain ⟨hresult, hids⟩ := packetIds_receive hfirst hthese.symm
    obtain ⟨hresults, hidss⟩ := ih hrest hothers.symm
    rw [List.map_cons, List.forall_mem_cons, List.flatMap_cons, hids, hidss, List.flatMap_append]
    exact ⟨⟨hresult, hresults⟩, rfl⟩

/-- **Sequence numbers on their way**: a list that increases is built into datagrams, each is
accepted, and the sequence numbers of the NACKs in them are the list. -/
theorem Nack.Increasing.arrive {ids : List U16} (h : Nack.Increasing ids) (hne : ids ≠ [])
    (n : Nack) (hsize : 16 ≤ maxSize) (hmax : maxSize ≤ kIpPacketSize)
    (hbuffer : buffer.length = kIpPacketSize) :
    ∃ fuel datagrams, (RtcpPacket.simple (.nack (n.setPacketIds ids))).build maxSize fuel buffer =
        some (true, datagrams) ∧
      (∀ d ∈ datagrams, (receive d).result = true) ∧
      datagrams.flatMap (fun d => (receive d).blocks.flatMap (·.packetIds)) = ids := by
  obtain ⟨ok, st, groups, hpacked, hplaced, hgroups, hmem, hparsed⟩ :=
    n.faithful_of_ne_nil hne maxSize _ ⟨buffer, 0, []⟩ hsize (Nat.zero_le _) (hbuffer ▸ hmax) le_rfl
  obtain ⟨pid, ids, rfl⟩ := List.exists_cons_of_ne_nil hne
  obtain ⟨rfl, nacks, hnacks, hids⟩ := hparsed hne h
  have hpieces : groups.map (n.setPacketIds (pid :: ids)).fragment ≠ [] := by
    intro hnil
    have hpid := (hmem pid).2 List.mem_cons_self
    rw [List.map_eq_nil_iff.1 hnil] at hpid
    exact List.not_mem_nil hpid
  have hfull : ∀ piece ∈ groups.map (n.setPacketIds (pid :: ids)).fragment,
      piece ≠ [] ∧ ∃ packet, Framed piece packet := by
    intro piece hpiece
    obtain ⟨group, hgroup, rfl⟩ := List.mem_map.1 hpiece
    have hlength := (hgroups group hgroup).2
    rw [Nack.length_fragment] at hlength
    unfold Nack.kNackHeaderSize Nack.kFciItemSize kRtcpCommonHeaderSize kIpPacketSize at *
    refine ⟨List.ne_nil_of_length_pos ?_, Nack.framed_fragment _ (by omega)⟩
    rw [Nack.length_fragment]
    unfold Nack.kNackHeaderSize kRtcpCommonHeaderSize
    omega
  obtain ⟨datagrams, hbuild, hflatten⟩ := @build_of_placed
    (.simple (.nack (n.setPacketIds (pid :: ids)))) _ _ _ _ _ hpacked hplaced hpieces
    fun piece hpiece => (hfull piece hpiece).1
  rw [← hflatten] at hnacks hfull
  obtain ⟨hresults, hlists⟩ :=
    packetIds_datagrams (fun piece hpiece => (hfull piece hpiece).2) hnacks
  exact ⟨_, _, hbuild, hresults, hlists.trans hids⟩

end NaiveRtc.Rtcp

/-! ## From the receiver to the sender -/

namespace NaiveRtc.Nack

variable {w : World} {s : NackModuleImpl}

theorem handed_sublist (h : WorldInv w) (op : Op) :
    ∃ s : NackModuleImpl, Inv s ∧ (machine.step w op).2.Sublist (keys s.nackList) := by
  cases op with
  | nackListOnRttPassed => exact ⟨w.nack, h.1, sendDue_fst_sublist _ _ _ _ _⟩
  | clearUpTo => exact ⟨w.nack, h.1, List.nil_sublist _⟩
  | updateRtt => exact ⟨w.nack, h.1, List.nil_sublist _⟩
  | advanceTime => exact ⟨w.nack, h.1, List.nil_sublist _⟩
  | insertPacket q k r =>
    have hnone : (insertPacket w.nack w.nowMs q k r).2.nackListToSend = [] →
        ∃ s : NackModuleImpl, Inv s ∧
          (machine.step w (.insertPacket q k r)).2.Sublist (keys s.nackList) :=
      fun hnil => ⟨w.nack, h.1, (List.sublist_nil.2 hnil).trans (List.nil_sublist _)⟩
    rcases insertPacket_cases w.nack w.nowMs q k r with ⟨-, ks, heq⟩ | ⟨-, -, heq⟩ |
      ⟨-, -, -, hout⟩ | ⟨-, -, -, -, ks, heq⟩ | ⟨-, hne, -, -, ks, s₁, hs₁, -, hout⟩
    · exact hnone (by rw [heq])
    · exact hnone (by rw [heq])
    · exact hnone hout
    · exact hnone (by rw [heq])
    · refine ⟨s₁, hs₁ ▸ inv_addPacketsToNack
        (h.1.of_nackList_sublist ks _ (List.Sublist.refl _)) w.nowMs hne, ?_⟩
      show (insertPacket w.nack w.nowMs q k r).2.nackListToSend.Sublist _
      rw [hout]
      exact sendDue_fst_sublist _ _ _ _ _

theorem Inv.increasing (h : Inv s) {ids : List U16} (hsub : ids.Sublist (keys s.nackList)) :
    Rtcp.Nack.Increasing ids := by
  cases ids with
  | nil => exact ⟨List.Pairwise.nil, by simp⟩
  | cons base ids =>
    have hwindow : ∀ q ∈ base :: ids, InWindow s.newestSeqNum q := fun q hq =>
      h.window q (hsub.subset hq)
    have hordered := h.ordered.sublist hsub
    have hlater : ∀ q ∈ base :: ids,
        (s.newestSeqNum - q).toNat ≤ (s.newestSeqNum - base).toNat := by
      intro q hq
      rcases List.mem_cons.1 hq with rfl | hmem
      · exact le_rfl
      · exact ((olderThan_iff_of_inWindow (hwindow base List.mem_cons_self) (hwindow q hq)).1
          (List.rel_of_pairwise_cons hordered hmem)).le
    have hoffset : ∀ q ∈ base :: ids, Rtcp.offset base q =
        (s.newestSeqNum - base).toNat - (s.newestSeqNum - q).toNat := by
      intro q hq
      have hle := hlater q hq
      unfold Rtcp.offset
      bv_omega
    refine ⟨hordered.imp_of_mem fun hp hq hpq => ?_, fun q hq => ?_⟩
    · have hlt := (olderThan_iff_of_inWindow (hwindow _ hp) (hwindow _ hq)).1 hpq
      have hle := hlater _ hp
      rw [List.headD_cons, hoffset _ hp, hoffset _ hq]
      omega
    · have hle := (hwindow base List.mem_cons_self).2
      rw [List.headD_cons, hoffset _ hq]
      unfold kMaxPacketAge at hle
      omega

/-- **What the module asks for is what the sender is asked for.**  In every run, with every `Nack`
and every size of a datagram that `Build` admits: a list that is handed out is built into
datagrams, the sender accepts each of them, and the sequence numbers of the NACKs in them,
one after the other, are the list. -/
theorem requests_arrive (nowMs delay : Int) (ops : List Op) (op : Op) (n : Rtcp.Nack)
    (maxSize : Nat) (buffer : List UInt8) (hsize : 16 ≤ maxSize) (hmax : maxSize ≤ kIpPacketSize)
    (hbuffer : buffer.length = kIpPacketSize)
    (hne : (machine.step (machine.final (start nowMs delay) ops) op).2 ≠ []) :
    let requested := (machine.step (machine.final (start nowMs delay) ops) op).2
    ∃ fuel datagrams, (Rtcp.RtcpPacket.simple (.nack (n.setPacketIds requested))).build maxSize fuel
        buffer = some (true, datagrams) ∧
      (∀ d ∈ datagrams, (Rtcp.receive d).result = true) ∧
      datagrams.flatMap (fun d => (Rtcp.receive d).blocks.flatMap (·.packetIds)) =
        requested := by
  obtain ⟨s, hinv, hsub⟩ := handed_sublist (worldInv_final (worldInv_start nowMs delay) ops) op
  exact (hinv.increasing hsub).arrive hne n hsize hmax hbuffer

/-- Four packets are missing, and a datagram holds one item of them. -/
theorem requests_arrive_gap :
    ∃ fuel datagrams,
      (Rtcp.RtcpPacket.simple (.nack (Rtcp.Nack.fresh.setPacketIds [1, 2, 3, 4]))).build 16 fuel
        (List.replicate 1500 0) = some (true, datagrams) ∧
      (∀ d ∈ datagrams, (Rtcp.receive d).result = true) ∧
      datagrams.flatMap (fun d => (Rtcp.receive d).blocks.flatMap (·.packetIds)) = [1, 2, 3, 4] :=
  requests_arrive 0 0 [.insertPacket 0 false false] (.insertPacket 5 false false) Rtcp.Nack.fresh 16
    (List.replicate 1500 0) (by decide) (by decide) List.length_replicate (by decide)

end NaiveRtc.Nack
