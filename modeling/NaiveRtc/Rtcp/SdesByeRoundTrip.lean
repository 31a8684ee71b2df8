import NaiveRtc.Rtcp.BlockParsers
import NaiveRtc.Rtcp.HeldBytes

/-!
# Source descriptions and goodbyes, read back

`Sdes::Parse` and `Bye::Parse` of `rtc/rtp_rtcp/rtcp/packets` on what the `PackInto` of each
wrote.

* `ReadBack` — packing appends as many bytes as `PacketSize()` says, whole words, and the parser
  gives the packet back for them.
* `Sdes.readPacket_bytes`, `Bye.readPacket_bytes` — what was written is read.
* `sdes_bye_readBack` — **both packets are read back**, and parsing a source description changes
  nothing when it fails.
-/

namespace NaiveRtc.Rtcp

open ByteIo Reading

/-! ## Packing -/

/-- Packing appends `size` bytes, a multiple of four, wherever there is room for them, and the
parser gives the packet back for the bytes that were appended. -/
structure ReadBack {α : Type} (parse : BlockHeader 0 → Reading (Option α)) (packet : α) (size : Nat)
    (pack : Bool → Nat → Nat → PackState → Packed) : Prop where
  aligned : size % 4 = 0
  returns : ∀ hasCallback maxSize fuel (st : PackState), st.index + size ≤ maxSize →
    maxSize ≤ st.buffer.length → ∃ st', pack hasCallback maxSize (fuel + 1) st = some (true, st')
  appended : ∀ hasCallback maxSize fuel (st st' : PackState), st.index ≤ maxSize →
    maxSize ≤ st.buffer.length → pack hasCallback maxSize fuel st = some (true, st') →
      ∃ first, (first = st.index ∨ first = 0) ∧ st'.index = first + size ∧
        readPacket parse ((st'.buffer.drop first).take size) = some packet

theorem readBack_of_unsplit {α : Type} {parse : BlockHeader 0 → Reading (Option α)} {packet : α}
    {size : Nat} {body : PackState → Bool × PackState} {bytes : List UInt8}
    (halign : size % 4 = 0) (hsize : bytes.length = size)
    (hbody : ∀ st, st.index ≤ st.buffer.length → body st = (true, st.write bytes))
    (hread : readPacket parse bytes = some packet) :
    ReadBack parse packet size (packUnsplit size body) where
  aligned := halign
  returns hasCallback maxSize fuel st hroom hbuffer := by
    refine ⟨st.write bytes, ?_⟩
    unfold packUnsplit PackState.flushUntilRoom
    rw [if_neg (by omega)]
    exact congrArg some (hbody st (by omega))
  appended hasCallback maxSize fuel st st' hindex hbuffer hpacked := by
    -- The packet is written where the buffer stands, or at the start of the flushed buffer.
    have hwritten : ∃ st₀ : PackState, (st₀.index = st.index ∨ st₀.index = 0) ∧
        st₀.index + size ≤ st₀.buffer.length ∧ body st₀ = (true, st') := by
      have houtcome := packUnsplit_of_some hpacked
      unfold PackState.roomOutcome at houtcome
      by_cases hroom : st.index + size ≤ maxSize
      · rw [if_pos hroom, if_pos rfl] at houtcome
        exact ⟨st, Or.inl rfl, by omega, houtcome.symm⟩
      · rw [if_neg hroom] at houtcome
        by_cases hflush : st.index ≠ 0 ∧ hasCallback = true
        · rw [if_pos hflush] at houtcome
          by_cases hfits : size ≤ maxSize
          · rw [if_pos (by simpa using hfits)] at houtcome
            exact ⟨st.flushed, Or.inr rfl, show 0 + size ≤ st.buffer.length by omega,
              houtcome.symm⟩
          · rw [if_neg (by simpa using hfits)] at houtcome
            exact absurd (Prod.mk.inj houtcome).1 (by decide)
        · rw [if_neg hflush] at houtcome
          exact absurd (Prod.mk.inj houtcome).1 (by decide)
    obtain ⟨st₀, hfirst, hfits, hbody₀⟩ := hwritten
    rw [hbody st₀ (by omega)] at hbody₀
    obtain rfl := (Prod.mk.inj hbody₀).2
    have hslice := st₀.slice_write bytes (by omega)
    rw [PackState.index_write, Nat.add_sub_cancel_left, hsize] at hslice
    refine ⟨st₀.index, hfirst, by rw [PackState.index_write, hsize], ?_⟩
    rw [hslice]
    exact hread

theorem readPacket_of_payload {α : Type} {parse : BlockHeader 0 → Reading (Option α)} {packet : α}
    {fmt type : Nat} {payload : List UInt8} (hfmt : fmt < 32) (htype : type < 256)
    (halign : payload.length % 4 = 0) (hlength : payload.length < 2 ^ 18)
    (hparse : ∀ (mem : Nat → UInt8) (h : BlockHeader 0), h.packetType.toNat = type →
      h.countOrFmt.toNat = fmt → h.payloadSize = payload.length → HeldAt mem h.payload payload →
        (parse h).value mem = some packet) :
    readPacket parse (packCommonHeader fmt type payload.length false ++ payload) = some packet := by
  have hheld := heldAt_memoryOf (packCommonHeader fmt type payload.length false ++ payload) []
  rw [List.append_nil] at hheld
  have hsize : kRtcpCommonHeaderSize + payload.length ≤
      (packCommonHeader fmt type payload.length false ++ payload).length := by
    rw [List.length_append, length_packCommonHeader, kRtcpCommonHeaderSize]
  obtain ⟨h, hsome, htype', hfmt', hpayloadSize, -, hpayload⟩ :=
    BlockHeader.parse_held hheld hsize hfmt htype halign hlength
  unfold readPacket
  rw [hsome, Option.bind_some]
  exact hparse _ h htype' hfmt' hpayloadSize hpayload

/-! ## Source descriptions -/

namespace Sdes

section Chunks

variable {mem : Nat → UInt8} {payloadBuffer payloadSize index count : Nat}

theorem parseItems_terminator {cname : Option Cname}
    (h : mem (payloadBuffer + index) = kTerminatorTag) :
    (parseItems payloadBuffer payloadSize index cname).value mem = some (index + 1, cname) := by
  rw [parseItems]
  simp only [value_bind, value_byte, h, value_pure, if_true]

theorem parseItems_held {c : SdesChunk} {zeros : Nat}
    (h : HeldAt mem (payloadBuffer + index)
      ([SdesChunk.kCNameTag] ++ [UInt8.ofNat c.cname.length] ++
      c.cname ++ List.replicate (zeros + 1) SdesChunk.kPaddingValue))
    (hend : index + 2 + c.cname.length + (zeros + 1) ≤ payloadSize) :
    (parseItems payloadBuffer payloadSize index none).value mem =
      some (index + 2 + c.cname.length + 1, some ⟨c.cname, c.cname_le⟩) := by
  have hbyte : (UInt8.ofNat c.cname.length).toNat = c.cname.length :=
    UInt8.toNat_ofNat_of_lt (Nat.lt_succ_of_le c.cname_le)
  rw [List.replicate_succ] at h
  simp only [heldAt_append, heldAt_cons, heldAt_nil, and_true, List.length_append, List.length_cons,
    List.length_nil, Nat.reduceAdd] at h
  obtain ⟨⟨⟨htag, hlength⟩, hname⟩, hterminator, -⟩ := h
  rw [Nat.add_assoc] at hlength hname hterminator
  have htagged : SdesChunk.kCNameTag ≠ kTerminatorTag := by decide
  have hplace : payloadBuffer + (index + 2 + c.cname.length) =
      payloadBuffer + (index + (2 + c.cname.length)) := by omega
  rw [← hplace] at hterminator
  rw [parseItems]
  simp only [value_bind, value_byte, htag, if_neg htagged, value_ite]
  rw [if_neg (by omega)]
  have hcut : ¬ payloadSize < index + 2 + (mem (payloadBuffer + (index + 1))).toNat +
      kTerminatorSize := by
    rw [hlength, hbyte]
    unfold kTerminatorSize
    omega
  have hcount : (mem (payloadBuffer + (index + 1))).toNat = c.cname.length := by rw [hlength, hbyte]
  rw [if_neg hcut, if_pos trivial, if_neg (by simp),
    parseItems_terminator (by rw [hcount]; exact hterminator), hcount]
  exact congrArg (fun found => some (index + 2 + c.cname.length + 1, some found))
    (Subtype.ext (hname.bytes hcount))

theorem chunk_size (c : SdesChunk) : c.bytes.length % 4 = 0 ∧ c.cname.length + 7 ≤ c.bytes.length ∧
    c.bytes.length ≤ c.cname.length + 10 := by
  rw [c.length_bytes]
  unfold SdesChunk.calculateChunkSize
  dsimp only
  omega

theorem chunks_size (chunks : List SdesChunk) :
    (chunks.flatMap SdesChunk.bytes).length % 4 = 0 ∧
      (chunks.flatMap SdesChunk.bytes).length ≤ 265 * chunks.length := by
  induction chunks with
  | nil => exact ⟨rfl, Nat.le_refl 0⟩
  | cons c chunks ih =>
    obtain ⟨hwords, -, hsmall⟩ := chunk_size c
    have hname := c.cname_le
    rw [List.flatMap_cons, List.length_append, List.length_cons]
    omega

/-- **The chunks that were written** up to the end of the payload are read behind those that were
read before. -/
theorem parseChunks_held {chunks done : List SdesChunk} {remaining : Nat}
    {hcount : done.length + remaining ≤ count} (hremaining : remaining = chunks.length)
    (h : HeldAt mem (payloadBuffer + index) (chunks.flatMap SdesChunk.bytes))
    (hend : index + (chunks.flatMap SdesChunk.bytes).length = payloadSize)
    (hindex : index % 4 = 0) (hsize : payloadSize < 2 ^ 64) :
    ((parseChunks payloadBuffer payloadSize count remaining index done hcount).value mem).map
      Subtype.val = some (done ++ chunks) := by
  induction chunks generalizing index done remaining with
  | nil =>
    obtain rfl := hremaining
    rw [List.append_nil]
    rfl
  | cons c chunks ih =>
    obtain ⟨hwords, hlarge, hsmall⟩ := chunk_size c
    have hrestWords := (chunks_size chunks).1
    rw [List.flatMap_cons, List.length_append] at hend
    rw [List.flatMap_cons, heldAt_append] at h
    obtain ⟨hchunk, hrest⟩ := h
    have hzeros : 4 - (6 + c.cname.length) % 4 = 3 - (6 + c.cname.length) % 4 + 1 := by omega
    have hchunkSize : c.bytes.length = 6 + c.cname.length + (3 - (6 + c.cname.length) % 4 + 1) := by
      rw [c.length_bytes, ← hzeros]
      rfl
    have hitems := hchunk
    unfold SdesChunk.bytes at hitems
    rw [hzeros] at hitems
    simp only [List.append_assoc] at hitems
    rw [heldAt_append, length_writeBigEndian] at hitems
    obtain ⟨hssrc, hitems⟩ := hitems
    have hparsed := @parseItems_held mem payloadBuffer payloadSize (index + 4) c
      (3 - (6 + c.cname.length) % 4)
      (by simpa only [List.append_assoc, Nat.add_assoc] using hitems) (by omega)
    obtain rfl : remaining = chunks.length + 1 := hremaining
    rw [parseChunks, if_neg (by rw [sizeSub_eq (by omega) hsize]; unfold kChunkBaseSize; omega)]
    simp only [value_bind, hssrc.readU32, hparsed]
    -- The zeros behind the terminator are skipped.
    have hnext : index + 4 + 2 + c.cname.length + 1 +
        sizeSub payloadSize (index + 4 + 2 + c.cname.length + 1) % 4 = index + c.bytes.length := by
      rw [sizeSub_eq (by omega) hsize]
      omega
    have hdone : done ++ c :: chunks = (done ++ [c]) ++ chunks := by simp
    rw [hdone]
    have hrest' : HeldAt mem (payloadBuffer + (index + c.bytes.length))
        (chunks.flatMap SdesChunk.bytes) := by rwa [Nat.add_assoc] at hrest
    rw [← hnext] at hrest'
    exact ih rfl hrest' (by omega) (by omega)

end Chunks

theorem eq_of_chunks {s s' : Sdes} (h : s.chunks = s'.chunks) : s = s' := by
  obtain ⟨chunks, packetSize, hle, hsize⟩ := s
  obtain ⟨chunks', packetSize', hle', hsize'⟩ := s'
  obtain rfl : chunks = chunks' := h
  obtain rfl : packetSize = packetSize' := hsize.trans hsize'.symm
  rfl

theorem packetSize_eq (s : Sdes) :
    s.packetSize = kRtcpCommonHeaderSize + (s.chunks.flatMap SdesChunk.bytes).length := by
  have hlength := s.length_bytes
  rw [bytes, List.length_append, length_packCommonHeader] at hlength
  exact hlength.symm

theorem readPacket_bytes (s : Sdes) : readPacket parse s.bytes = some s := by
  obtain ⟨hwords, hsmall⟩ := chunks_size s.chunks
  have hcount := s.chunks_le
  unfold kMaxNumberOfChunks at hcount
  have hpayload : s.packetSize - kRtcpCommonHeaderSize =
      (s.chunks.flatMap SdesChunk.bytes).length := by
    rw [packetSize_eq, Nat.add_sub_cancel_left]
  unfold bytes
  rw [hpayload]
  refine readPacket_of_payload (by omega) (by decide) hwords (by omega)
    fun mem h htype hfmt hsize hheld => ?_
  have hchunks := @parseChunks_held mem h.payload h.payloadSize 0 h.countOrFmt.toNat s.chunks []
    h.countOrFmt.toNat (by simp) hfmt hheld (by rw [Nat.zero_add, hsize]) rfl (by omega)
  obtain ⟨found, hfound, hvalue⟩ := Option.map_eq_some_iff.1 hchunks
  unfold parse
  rw [if_neg (not_not.2 htype), if_neg (by rw [hsize]; exact not_not.2 hwords), value_bind,
    value_pure, hfound, Option.map_some]
  exact congrArg some (eq_of_chunks hvalue)

/-- `AddCName` for one chunk after the other. -/
def addAll (s : Sdes) : List SdesChunk → Option Sdes
  | [] => some s
  | c :: chunks => (s.addCName c.ssrc c.cname).bind fun s => addAll s chunks

theorem addAll_eq {s : Sdes} {chunks : List SdesChunk}
    (h : s.chunks.length + chunks.length ≤ kMaxNumberOfChunks) :
    ∃ s', s.addAll chunks = some s' ∧ s'.chunks = s.chunks ++ chunks := by
  induction chunks generalizing s with
  | nil => exact ⟨s, rfl, (List.append_nil _).symm⟩
  | cons c chunks ih =>
    rw [List.length_cons] at h
    obtain ⟨s₁, hadd, hchunks₁⟩ : ∃ s₁, s.addCName c.ssrc c.cname = some s₁ ∧
        s₁.chunks = s.chunks ++ [c] := by
      unfold addCName
      rw [dif_pos c.cname_le, dif_pos (by omega)]
      exact ⟨_, rfl, rfl⟩
    have hroom : s₁.chunks.length + chunks.length ≤ kMaxNumberOfChunks := by
      rw [hchunks₁, List.length_append, List.length_singleton]
      omega
    obtain ⟨s', hall, hchunks⟩ := ih hroom
    refine ⟨s', ?_, ?_⟩
    · rw [addAll, hadd, Option.bind_some, hall]
    · rw [hchunks, hchunks₁, List.append_assoc, List.singleton_append]

/-- `Parse(packet)` as the member function: the chunks are swapped in at its end. -/
def parseInto (s : Sdes) {start : Nat} (h : BlockHeader start) : Reading (Sdes × Bool) := do
  let parsed ← parse h
  match parsed with
  | some s' => pure (s', true)
  | none => pure (s, false)

theorem parseInto_safe (s : Sdes) {start : Nat} (h : BlockHeader start) (mem : Nat → UInt8) :
    (s.parseInto h).Safe mem h.payload (h.payload + h.payloadSize) fun result =>
      result.2 = false → result.1 = s := by
  unfold parseInto
  refine safe_bind.2 ((reads_parse h mem).imp fun parsed _ => ?_)
  cases parsed with
  | none => exact safe_pure.2 fun _ => rfl
  | some s' => exact safe_pure.2 fun hfalse => by cases hfalse

theorem readBack (s : Sdes) : ReadBack parse s s.packetSize s.packInto := by
  have hwords : s.packetSize % 4 = 0 := by
    have hchunks := (chunks_size s.chunks).1
    rw [packetSize_eq, kRtcpCommonHeaderSize]
    omega
  exact readBack_of_unsplit hwords s.length_bytes (fun st h => s.packBody_eq h) s.readPacket_bytes

end Sdes

/-! ## Goodbyes -/

namespace Bye

section Sources

variable {mem : Nat → UInt8} {payload : Nat}

theorem parseSources_held {ssrc : U32} {csrcs : List U32} {srcCount : Nat}
    (hcount : srcCount = 1 + csrcs.length)
    (h : HeldAt mem payload (writeBigEndian 4 ssrc.toNat ++
      csrcs.flatMap fun csrc => writeBigEndian 4 csrc.toNat)) :
    ((parseSources payload srcCount).value mem).1 = ssrc ∧
      ((parseSources payload srcCount).value mem).2.toList = csrcs := by
  rw [heldAt_append, length_writeBigEndian] at h
  obtain ⟨hssrc, hcsrcs⟩ := h
  unfold parseSources
  rw [value_bind, value_bind, value_pure, value_ite, if_neg (by omega)]
  refine ⟨hssrc.readU32, ?_⟩
  refine hcsrcs.collect (fun csrc => length_writeBigEndian 4 csrc.toNat) (by omega)
    fun i csrc _ hheld => ?_
  have hplace : payload + 4 * (i + 1) = payload + 4 + i * 4 := by omega
  rw [hplace]
  exact hheld.readU32

end Sources

/-- What follows the common header. -/
def payloadBytes (b : Bye) : List UInt8 :=
  writeBigEndian 4 b.senderSsrc.toNat ++
    b.csrcs.flatMap (fun csrc => writeBigEndian 4 csrc.toNat) ++ b.reasonBytes

theorem length_payloadBytes (b : Bye) :
    b.payloadBytes.length = 4 * (1 + b.csrcs.length) + b.reasonBytes.length ∧
      b.payloadBytes.length = b.packetSize - kRtcpCommonHeaderSize ∧
        b.payloadBytes.length % 4 = 0 ∧ b.payloadBytes.length < 2 ^ 18 := by
  have hcsrcs := b.csrcs_le
  have hreason := b.reason_le
  have hbytes := b.length_bytes
  have hsources := length_csrcs b.csrcs
  unfold kMaxNumberOfByeCsrcs at hcsrcs
  unfold bytes at hbytes
  simp only [List.length_append, length_packCommonHeader, length_writeBigEndian] at hbytes
  have hsize : b.packetSize = kRtcpCommonHeaderSize + 4 * ((1 + b.csrcs.length) +
    if b.reason.isEmpty then 0 else b.reason.length / 4 + 1) := rfl
  unfold payloadBytes
  simp only [List.length_append, length_writeBigEndian]
  unfold kRtcpCommonHeaderSize at hsize ⊢
  split at hsize <;> omega

theorem eq_of_fields {b b' : Bye} (hssrc : b.senderSsrc = b'.senderSsrc)
    (hcsrcs : b.csrcs = b'.csrcs) (hreason : b.reason = b'.reason) : b = b' := by
  cases b
  cases b'
  simp_all

theorem readPacket_bytes (b : Bye) : readPacket parse b.bytes = some b := by
  obtain ⟨hlength, hsize, hwords, hsmall⟩ := b.length_payloadBytes
  have hcsrcs := b.csrcs_le
  have hreasonLe := b.reason_le
  unfold kMaxNumberOfByeCsrcs at hcsrcs
  have hbytes : b.bytes = packCommonHeader (1 + b.csrcs.length) kPacketType b.payloadBytes.length
      false ++ b.payloadBytes := by
    unfold bytes
    rw [hsize]
    simp only [payloadBytes, List.append_assoc]
  rw [hbytes]
  refine readPacket_of_payload (by omega) (by decide) hwords hsmall
    fun mem h htype hfmt hpayload hheld => ?_
  unfold payloadBytes at hheld
  rw [heldAt_append, List.length_append, length_writeBigEndian, length_csrcs] at hheld
  obtain ⟨hsources, hreason⟩ := hheld
  obtain ⟨hssrc, hlist⟩ := parseSources_held hfmt hsources
  unfold parse
  rw [if_neg (not_not.2 htype), if_neg (by omega)]
  by_cases hempty : b.reason.isEmpty = true
  · have hnothing : b.reasonBytes.length = 0 := by
      unfold reasonBytes
      rw [if_pos hempty]
      rfl
    rw [if_neg (by omega), value_bind, value_pure]
    refine congrArg some (eq_of_fields hssrc hlist ?_)
    exact (List.isEmpty_iff.1 hempty).symm
  · have hbyte : (UInt8.ofNat b.reason.length).toNat = b.reason.length :=
      UInt8.toNat_ofNat_of_lt (Nat.lt_succ_of_le hreasonLe)
    have hreasonLength : b.reasonBytes.length =
        1 + b.reason.length + (3 - b.reason.length % 4) := by
      unfold reasonBytes
      rw [if_neg hempty]
      simp only [List.length_append, List.length_singleton, List.length_replicate]
    unfold reasonBytes at hreason
    rw [if_neg hempty, List.append_assoc, heldAt_append, heldAt_append, heldAt_singleton,
      List.length_singleton] at hreason
    obtain ⟨hfirst, hname, -⟩ := hreason
    have hcountEq : 4 * h.countOrFmt.toNat = 4 + 4 * b.csrcs.length := by omega
    have hplace : h.payload + 4 * h.countOrFmt.toNat = h.payload + (4 + 4 * b.csrcs.length) := by
      rw [hcountEq]
    rw [if_pos (by omega)]
    simp only [value_bind, value_byte, value_ite, value_pure]
    have hlast : (mem (h.payload + 4 * h.countOrFmt.toNat)).toNat = b.reason.length := by
      rw [hplace, hfirst, hbyte]
    rw [if_neg (by rw [hlast, sizeSub_eq (by omega) (by omega)]; omega)]
    refine congrArg some (eq_of_fields hssrc hlist ?_)
    refine HeldAt.bytes ?_ hlast
    have hbehind : h.payload + (4 * h.countOrFmt.toNat + 1) =
        h.payload + (4 + 4 * b.csrcs.length) + 1 := by omega
    rw [hbehind]
    exact hname

theorem readBack (b : Bye) : ReadBack parse b b.packetSize b.packInto := by
  have hwords : b.packetSize % 4 = 0 := by
    unfold packetSize kRtcpCommonHeaderSize
    dsimp only
    omega
  exact readBack_of_unsplit hwords b.length_bytes (fun st h => b.packBody_eq h) b.readPacket_bytes

end Bye

/-- **Source descriptions and goodbyes are read back**: any chunks that `AddCName` takes, and any
goodbye that `set_csrcs` and `set_reason` allow.  And parsing a source description reads its
payload only, whatever it holds, and leaves the object as it was when it fails. -/
theorem sdes_bye_readBack :
    (∀ chunks : List SdesChunk, chunks.length ≤ kMaxNumberOfChunks →
        ∃ s : Sdes, Sdes.create.addAll chunks = some s ∧ s.chunks = chunks ∧
          ReadBack Sdes.parse s s.packetSize s.packInto) ∧
      (∀ b : Bye, ReadBack Bye.parse b b.packetSize b.packInto) ∧
      ∀ (s : Sdes) (mem : Nat → UInt8) (start : Nat) (h : BlockHeader start),
        (∀ address ∈ (s.parseInto h).reads mem,
            h.payload ≤ address ∧ address < h.payload + h.payloadSize) ∧
          (((s.parseInto h).value mem).2 = false → ((s.parseInto h).value mem).1 = s) := by
  refine ⟨fun chunks hchunks => ?_, Bye.readBack, fun s mem start h => ?_⟩
  · obtain ⟨s, hadd, hs⟩ := @Sdes.addAll_eq Sdes.create chunks
      (by rw [Sdes.create, List.length_nil, Nat.zero_add]; exact hchunks)
    exact ⟨s, hadd, hs, s.readBack⟩
  · exact safe_iff.1 (s.parseInto_safe h mem)

/-- A chunk with a name of two bytes. -/
def shortChunk : SdesChunk := ⟨7, [0x61, 0x62], by decide⟩

/-- A short chunk and one without a name. -/
theorem sdes_bye_readBack_short :
    ∃ s : Sdes, Sdes.create.addAll [shortChunk, ⟨8, [], by decide⟩] = some s ∧
      s.chunks = [shortChunk, ⟨8, [], by decide⟩] ∧ ReadBack Sdes.parse s s.packetSize s.packInto :=
  sdes_bye_readBack.1 [shortChunk, ⟨8, [], by decide⟩] (by decide)

end NaiveRtc.Rtcp
