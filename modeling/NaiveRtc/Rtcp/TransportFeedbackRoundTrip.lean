import NaiveRtc.Rtcp.TransportFeedbackReport
import Mathlib.Algebra.Order.BigOperators.Group.List
import Mathlib.Algebra.Order.Group.Nat

/-!
# Transport feedback survives the wire

Whatever was collected, accepted or refused on the way, the packet written from it is
parsed back into the same report.

* `readChunks_encodes` — the chunks, streamed through the three formats, read back as the
  statuses.
* `readDeltas_report`, `assumeDeltas_report` — the deltas, present or not.
* `parse_describes` — a state that describes a report is parsed back into it.
* `addAll_relist` — listing the lost packets changes nothing else.
* `feedback_round_trip` — from the calls of the sender to the object of the receiver.
-/

namespace NaiveRtc.Rtcp

open ByteIo LastChunk TransportFeedback

/-! ## Deltas -/

/-- The delta bytes of a status. -/
def statusBytes : Option Int → List UInt8
  | none => []
  | some delta => deltaBytes delta

theorem length_statusBytes (status : Option Int) :
    (statusBytes status).length = statusSize status := by
  cases status with
  | none => rfl
  | some delta =>
    simp only [statusBytes, statusSize, deltaBytes, deltaSizeOf]
    split_ifs <;> simp

theorem length_flatMap_statusBytes (report : List (Option Int)) :
    (report.flatMap statusBytes).length = (report.map statusSize).sum := by
  induction report with
  | nil => rfl
  | cons status report ih =>
    rw [List.flatMap_cons, List.length_append, ih, length_statusBytes, List.map_cons, List.sum_cons]

theorem flatMap_received (seq : U16) (report : List (Option Int)) :
    ((listing seq report).filter ReceivedPacket.received).flatMap
      (fun p => deltaBytes (p.deltaTicks.getD 0)) = report.flatMap statusBytes := by
  induction report generalizing seq with
  | nil => rfl
  | cons status report ih =>
    cases status with
    | none =>
      rw [listing, List.filter_cons_of_neg (by simp [ReceivedPacket.received]), ih]
      rfl
    | some delta =>
      rw [listing, List.filter_cons_of_pos (by simp [ReceivedPacket.received]), List.flatMap_cons,
        ih]
      rfl

/-- A report noted packet by packet. -/
def noteAll (f : TransportFeedback) (seq : U16) : List (Option Int) → TransportFeedback
  | [] => f
  | none :: report => noteAll (f.noteLost seq) (seq + 1) report
  | some delta :: report => noteAll (f.noteReceived seq delta) (seq + 1) report

theorem sameHeader_noteLost (f : TransportFeedback) (seq : U16) : SameHeader f (f.noteLost seq) :=
  ⟨rfl, rfl, rfl, rfl, rfl, rfl, rfl⟩

theorem sameHeader_noteReceived (f : TransportFeedback) (seq : U16) (delta : Int) :
    SameHeader f (f.noteReceived seq delta) :=
  ⟨rfl, rfl, rfl, rfl, rfl, rfl, rfl⟩

theorem noteAll_lists (f : TransportFeedback) (seq : U16) (report : List (Option Int)) :
    (noteAll f seq report).receivedPackets =
        f.receivedPackets ++ (listing seq report).filter ReceivedPacket.received ∧
      (f.includeLost = true →
        (noteAll f seq report).allPackets = f.allPackets ++ listing seq report) ∧
      SameHeader f (noteAll f seq report) ∧ (noteAll f seq report).statusCount = f.statusCount := by
  induction report generalizing f seq with
  | nil => simp [noteAll, listing, SameHeader.refl]
  | cons status report ih =>
    cases status with
    | none =>
      obtain ⟨h1, h2, h3, h4⟩ := ih (f.noteLost seq) (seq + 1)
      refine ⟨?_, ?_, ?_, ?_⟩
      · rw [noteAll, h1, listing, List.filter_cons_of_neg (by simp [ReceivedPacket.received])]
        rfl
      · intro htrue
        rw [noteAll, h2 htrue, listing]
        simp [noteLost, htrue]
      · exact (sameHeader_noteLost f seq).trans h3
      · exact h4
    | some delta =>
      obtain ⟨h1, h2, h3, h4⟩ := ih (f.noteReceived seq delta) (seq + 1)
      refine ⟨?_, ?_, ?_, ?_⟩
      · rw [noteAll, h1, listing, List.filter_cons_of_pos (by simp [ReceivedPacket.received])]
        simp [noteReceived]
      · intro htrue
        rw [noteAll, h2 htrue, listing]
        simp [noteReceived, htrue]
      · exact (sameHeader_noteReceived f seq delta).trans h3
      · exact h4

theorem readDeltas_report (report : List (Option Int))
    (hrange : ∀ delta, some delta ∈ report → -2 ^ 15 ≤ delta ∧ delta < 2 ^ 15)
    (f : TransportFeedback) (seq : U16) (rest : List UInt8) :
    readDeltas (report.map statusSize) f seq (report.flatMap statusBytes ++ rest) =
      some (noteAll f seq report, rest) := by
  induction report generalizing f seq with
  | nil => rfl
  | cons status report ih =>
    have hrest := ih (fun delta h => hrange delta (List.mem_cons_of_mem _ h))
    rw [List.map_cons, List.flatMap_cons, List.append_assoc]
    cases status with
    | none => exact hrest (f.noteLost seq) (seq + 1)
    | some delta =>
      obtain ⟨hlow, hhigh⟩ := hrange delta List.mem_cons_self
      by_cases hsmall : 0 ≤ delta ∧ delta ≤ 0xff
      · have hbyte : ((UInt8.ofNat delta.toNat).toNat : Int) = delta := by
          have hnat : (UInt8.ofNat delta.toNat).toNat = delta.toNat :=
            UInt8.toNat_ofNat_of_lt (by show delta.toNat < 256; omega)
          rw [hnat, Int.toNat_of_nonneg hsmall.1]
        simp only [statusSize, statusBytes, deltaSizeOf, deltaBytes, if_pos hsmall,
          List.singleton_append, readDeltas, hbyte]
        exact hrest (f.noteReceived seq delta) (seq + 1)
      · obtain ⟨high, low, hbytes⟩ : ∃ high low, writeSigned 2 delta = [high, low] :=
          List.length_eq_two.mp (length_writeSigned 2 delta)
        have hvalue : readSigned 2 [high, low] = delta := by
          have := readSigned_write 2 delta []
          rw [List.append_nil, hbytes] at this
          rw [this, Int.bmod_eq_of_le]
          · omega
          · omega
        simp only [statusSize, statusBytes, deltaSizeOf, deltaBytes, if_neg hsmall, hbytes,
          List.cons_append, List.nil_append, readDeltas, hvalue]
        exact hrest (f.noteReceived seq delta) (seq + 1)

theorem assumeDeltas_report (report : List (Option Int))
    (hzero : ∀ delta, some delta ∈ report → delta = 0) (f : TransportFeedback) (seq : U16) :
    assumeDeltas (report.map statusSize) f seq = noteAll f seq report := by
  induction report generalizing f seq with
  | nil => rfl
  | cons status report ih =>
    have hrest := ih (fun delta h => hzero delta (List.mem_cons_of_mem _ h))
    cases status with
    | none => exact hrest (f.noteLost seq) (seq + 1)
    | some delta =>
      rw [hzero delta List.mem_cons_self]
      exact hrest (f.noteReceived seq 0) (seq + 1)

/-! ## Chunks -/

variable {count : Nat}

theorem readChunks_cons {sizes : List Nat} (chunk : U16) (rest : List UInt8)
    (chunks : List U16) (c : LastChunk) (hmore : sizes.length < count) :
    readChunks count (writeBigEndian 2 chunk.toNat ++ rest) sizes chunks c =
      readChunks count rest (sizes ++ (c.decode chunk (count - sizes.length)).statuses)
        (chunks ++ [chunk]) (c.decode chunk (count - sizes.length)) := by
  obtain ⟨high, low, hbytes⟩ : ∃ high low, writeBigEndian 2 chunk.toNat = [high, low] :=
    List.length_eq_two.mp (length_writeBigEndian 2 _)
  have hchunk : BitVec.ofNat 16 (readBigEndian 2 [high, low]) = chunk := by
    have := readBigEndian_write 2 chunk.toNat []
    rw [List.append_nil, hbytes] at this
    rw [this, Nat.mod_eq_of_lt chunk.isLt, BitVec.ofNat_toNat, BitVec.setWidth_eq]
  rw [hbytes, List.cons_append, List.cons_append, List.nil_append, readChunks,
    if_neg (Nat.not_le.mpr hmore)]
  simp only [hchunk]

theorem readChunks_done {sizes : List Nat} (rest : List UInt8)
    (chunks : List U16) (c : LastChunk) (hdone : sizes.length = count) :
    readChunks count rest sizes chunks c = some (sizes, chunks, c, rest) := by
  rw [readChunks.eq_def]
  dsimp only
  rw [if_pos (by omega)]

/-- **The status chunks read back** as the sizes they hold, the open one cut to the
statuses that are left. -/
theorem readChunks_encodes {f : TransportFeedback}
    (full : List (U16 × List Nat)) (last sizes : List Nat) (chunks : List U16) (c : LastChunk)
    (hfull : ∀ p ∈ full, FullChunk p.1 p.2) (hlast : Holds f.lastChunk last)
    (hcount : count = sizes.length + (full.flatMap Prod.snd).length + last.length)
    (rest : List UInt8) :
    ∃ chunks' c', readChunks count
        (full.flatMap (fun p => writeBigEndian 2 p.1.toNat) ++
          ((if f.lastChunk.empty then [] else writeBigEndian 2 f.lastChunk.encodeLast.toNat) ++
            rest))
        sizes chunks c =
      some (sizes ++ full.flatMap Prod.snd ++ last, chunks', c', rest) := by
  induction full generalizing sizes chunks c with
  | nil =>
    simp only [List.flatMap_nil, List.length_nil, Nat.add_zero, List.nil_append,
      List.append_nil] at hcount ⊢
    by_cases hempty : last = []
    · subst hempty
      rw [if_pos (hlast.keeps.empty_iff.mpr rfl), List.nil_append, List.append_nil]
      exact ⟨_, _, readChunks_done rest chunks c hcount.symm⟩
    · have hpos := List.length_pos_iff.mpr hempty
      rw [if_neg (fun h => hempty (hlast.keeps.empty_iff.mp h)),
        readChunks_cons _ _ _ _ (by omega), show count - sizes.length = last.length by omega,
        decode_encodeLast hlast.keeps hempty]
      exact ⟨_, _, readChunks_done rest _ _ (by rw [List.length_append]; omega)⟩
  | cons p full ih =>
    obtain ⟨hne, hdec⟩ := hfull p List.mem_cons_self
    have hpos := List.length_pos_iff.mpr hne
    simp only [List.flatMap_cons, List.length_append] at hcount
    rw [List.flatMap_cons, List.append_assoc, readChunks_cons _ _ _ _ (by omega),
      hdec _ _ (by omega), List.flatMap_cons, ← List.append_assoc sizes]
    exact ih (sizes ++ p.2) _ _ (fun q hq => hfull q (List.mem_cons_of_mem _ hq))
      (by rw [List.length_append]; omega)

/-! ## The packet -/

variable {f : TransportFeedback} {report : List (Option Int)}

/-- What stands behind the sixteen bytes of the feedback header. -/
def tailBytes (f : TransportFeedback) : List UInt8 :=
  f.encodedChunks.flatMap (fun chunk => writeBigEndian 2 chunk.toNat) ++
  ((if f.lastChunk.empty then [] else writeBigEndian 2 f.lastChunk.encodeLast.toNat) ++
  (if f.includeTimestamps then
    f.receivedPackets.flatMap (fun p => deltaBytes (p.deltaTicks.getD 0)) else []))

theorem drop_payloadBytes (f : TransportFeedback) :
    f.payloadBytes.drop 8 = writeBigEndian 2 f.baseSeqNum.toNat ++ f.payloadBytes.drop 10 ∧
    f.payloadBytes.drop 10 = writeBigEndian 2 f.statusCount ++ f.payloadBytes.drop 12 ∧
    f.payloadBytes.drop 12 = writeSigned 3 f.referenceTime ++ f.payloadBytes.drop 15 ∧
    f.payloadBytes.drop 15 = f.feedbackSeq :: tailBytes f := by
  have h4 : f.payloadBytes.drop 4 = _ := List.drop_left' (length_writeBigEndian 4 _)
  have h8 : f.payloadBytes.drop 8 = _ :=
    (List.drop_drop (i := 4) (j := 4)).symm.trans
      ((congrArg (List.drop 4) h4).trans (List.drop_left' (length_writeBigEndian 4 _)))
  have h10 : f.payloadBytes.drop 10 = _ :=
    (List.drop_drop (i := 2) (j := 8)).symm.trans
      ((congrArg (List.drop 2) h8).trans (List.drop_left' (length_writeBigEndian 2 _)))
  have h12 : f.payloadBytes.drop 12 = _ :=
    (List.drop_drop (i := 2) (j := 10)).symm.trans
      ((congrArg (List.drop 2) h10).trans (List.drop_left' (length_writeBigEndian 2 _)))
  have h15 : f.payloadBytes.drop 15 = _ :=
    (List.drop_drop (i := 3) (j := 12)).symm.trans
      ((congrArg (List.drop 3) h12).trans (List.drop_left' (length_writeSigned 3 _)))
  exact ⟨by rw [h8, h10], by rw [h10, h12], by rw [h12, h15], h15⟩

theorem length_flatMap_two (chunks : List U16) :
    (chunks.flatMap (fun chunk => writeBigEndian 2 chunk.toNat)).length = 2 * chunks.length := by
  induction chunks with
  | nil => rfl
  | cons chunk chunks ih =>
    rw [List.flatMap_cons, List.length_append, ih, length_writeBigEndian, List.length_cons]
    omega

theorem Describes.tailBytes (h : Describes f report) : tailBytes f =
    f.encodedChunks.flatMap (fun chunk => writeBigEndian 2 chunk.toNat) ++
    ((if f.lastChunk.empty then [] else writeBigEndian 2 f.lastChunk.encodeLast.toNat) ++
    (if f.includeTimestamps then report.flatMap statusBytes else [])) := by
  rw [Rtcp.tailBytes, h.received, flatMap_received]

theorem Describes.length_payloadBytes (h : Describes f report) :
    f.payloadBytes.length + kRtcpCommonHeaderSize = f.sizeBytes := by
  have htail : f.payloadBytes.length = 16 + (Rtcp.tailBytes f).length := by
    simp only [payloadBytes, Rtcp.tailBytes, List.length_append, length_writeBigEndian,
      length_writeSigned, List.length_singleton]
    omega
  rw [htail, h.tailBytes, h.size]
  simp only [List.length_append, length_flatMap_two, chunkBytes, kChunkSizeBytes,
    kTransportFeedbackHeaderSizeBytes, kRtcpCommonHeaderSize, apply_ite List.length,
    length_flatMap_statusBytes, List.length_nil, length_writeBigEndian]
  split_ifs <;> omega

theorem parse_packetBytes_of_length
    (hlen : f.payloadBytes.length + kRtcpCommonHeaderSize = f.sizeBytes)
    (hmax : f.sizeBytes ≤ kMaxSizeBytes) :
    CommonHeader.parse f.packetBytes =
      some { packetType := UInt8.ofNat kPacketType
             countOrFmt := UInt8.ofNat kFeedbackMessageType
             paddingSize := UInt8.ofNat f.paddingSize
             payload := f.payloadBytes } := by
  simp only [kRtcpCommonHeaderSize, kMaxSizeBytes] at hlen hmax
  have hpack : f.packetSize - kRtcpCommonHeaderSize = f.payloadBytes.length + f.paddingSize := by
    simp only [packetSize, paddingSize, kRtcpCommonHeaderSize]
    omega
  have hpad : f.paddingSize < 4 ∧ (f.payloadBytes.length + f.paddingSize) % 4 = 0 ∧
      f.payloadBytes.length + f.paddingSize < 2 ^ 18 := by
    simp only [packetSize, paddingSize]
    omega
  have hparse : CommonHeader.parse (packCommonHeader kFeedbackMessageType kPacketType
      (f.payloadBytes.length + f.paddingSize) (decide (0 < f.paddingSize)) ++
      f.payloadBytes ++ padding f.paddingSize ++ []) = _ :=
    parse_packCommonHeader (by decide) (by omega) hpad.2.1 hpad.2.2
  rwa [List.append_nil, ← hpack] at hparse

section

variable (h : Describes f report)
include h

theorem Describes.parse_packetBytes :
    CommonHeader.parse f.packetBytes =
      some { packetType := UInt8.ofNat kPacketType
             countOrFmt := UInt8.ofNat kFeedbackMessageType
             paddingSize := UInt8.ofNat f.paddingSize
             payload := f.payloadBytes } :=
  parse_packetBytes_of_length h.length_payloadBytes h.size_le

theorem Describes.chunkBytes_pos (hne : report ≠ []) :
    kChunkSizeBytes ≤ chunkBytes f := by
  obtain ⟨full, last, hchunks, -, hlast, hsizes⟩ := h.encodes
  unfold chunkBytes
  by_cases hempty : last = []
  · have hfull : full ≠ [] := by
      rintro rfl
      rw [hempty] at hsizes
      exact hne (List.map_eq_nil_iff.mp hsizes)
    have hpos := List.length_pos_iff.mpr hfull
    rw [hchunks, List.length_map]
    simp only [kChunkSizeBytes]
    omega
  · rw [if_neg (fun hc => hempty (hlast.keeps.empty_iff.mp hc))]
    omega

theorem Describes.readChunks (c : LastChunk) :
    ∃ chunks c', TransportFeedback.readChunks report.length (Rtcp.tailBytes f) [] [] c =
      some (report.map statusSize, chunks, c',
        if f.includeTimestamps then report.flatMap statusBytes else []) := by
  obtain ⟨full, last, hchunks, hfull, hlast, hsizes⟩ := h.encodes
  have hlen : report.length = ([] : List Nat).length + (full.flatMap Prod.snd).length +
      last.length := by
    rw [List.length_nil, Nat.zero_add, ← List.length_append, ← hsizes, List.length_map]
  obtain ⟨chunks, c', hread⟩ := readChunks_encodes full last [] [] c hfull hlast hlen
    (if f.includeTimestamps then report.flatMap statusBytes else [])
  refine ⟨chunks, c', ?_⟩
  rw [h.tailBytes, hchunks, List.flatMap_map, hread, List.nil_append, hsizes]

/-- The delta part, read or assumed as `Parse` finds it: with timestamps the deltas fill
the payload, without them nothing is left for at least one. -/
theorem Describes.readReport (hreceived : ∃ delta, some delta ∈ report)
    (g : TransportFeedback) (seq : U16) (hg : g.includeTimestamps = true) :
    (if (report.map statusSize).sum ≤
        (if f.includeTimestamps then report.flatMap statusBytes else []).length then
      readDeltas (report.map statusSize) g seq
        (if f.includeTimestamps then report.flatMap statusBytes else [])
     else some (assumeDeltas (report.map statusSize) { g with includeTimestamps := false } seq,
        if f.includeTimestamps then report.flatMap statusBytes else [])) =
      some (noteAll { g with includeTimestamps := f.includeTimestamps } seq report, []) := by
  cases htime : f.includeTimestamps with
  | true =>
    have hread := readDeltas_report report
      (fun delta hmem => ⟨(h.deltas delta hmem).1, (h.deltas delta hmem).2.1⟩) g seq []
    rw [List.append_nil] at hread
    simp only [if_true]
    rw [if_pos (by rw [length_flatMap_statusBytes]), hread]
    congr 3
    rw [← hg]
  | false =>
    obtain ⟨delta, hmem⟩ := hreceived
    have hpos : 0 < (report.map statusSize).sum := by
      have hle := List.le_sum_of_mem (List.mem_map_of_mem (f := statusSize) hmem)
      have hone : 0 < statusSize (some delta) := by
        simp only [statusSize, deltaSizeOf]
        split_ifs <;> omega
      omega
    simp only [Bool.false_eq_true, if_false, List.length_nil]
    rw [if_neg (by omega),
      assumeDeltas_report report (fun delta hmem => (h.deltas delta hmem).2.2 htime)]

theorem Describes.length_packetBytes :
    f.packetBytes.length = f.packetSize := by
  have hlen := h.length_payloadBytes
  simp only [packetBytes, List.length_append, length_packCommonHeader, length_padding,
    paddingSize, packetSize, kRtcpCommonHeaderSize] at hlen ⊢
  omega

/-- **A report survives the wire**: the packet written from a state that describes a
report with something received in it is parsed into a state that describes it too. -/
theorem parse_describes (hreceived : ∃ delta, some delta ∈ report) :
    ∃ g, parseFrom f.packetBytes = some g ∧
      g.baseSeqNum = f.baseSeqNum ∧ g.statusCount = f.statusCount ∧
      g.receivedPackets = f.receivedPackets ∧ g.allPackets = listing f.baseSeqNum report ∧
      g.feedbackSeq = f.feedbackSeq ∧ g.includeTimestamps = f.includeTimestamps ∧
      g.referenceTime = f.referenceTime.bmod (2 ^ 24) := by
  obtain ⟨hdrop8, hdrop10, hdrop12, hdrop15⟩ := drop_payloadBytes f
  have hne : report ≠ [] := by
    obtain ⟨delta, hmem⟩ := hreceived
    exact List.ne_nil_of_mem hmem
  have hlen : ¬f.payloadBytes.length < kMinPayloadSizeBytes := by
    have h1 := h.length_payloadBytes
    have h2 := h.chunkBytes_pos hne
    have h3 := h.size
    simp only [kRtcpCommonHeaderSize, kChunkSizeBytes, kTransportFeedbackHeaderSizeBytes,
      kMinPayloadSizeBytes] at *
    omega
  have hbase : BitVec.ofNat 16 (readBigEndian 2 (f.payloadBytes.drop 8)) = f.baseSeqNum := by
    rw [hdrop8, readBigEndian_write, Nat.mod_eq_of_lt f.baseSeqNum.isLt, BitVec.ofNat_toNat,
      BitVec.setWidth_eq]
  have hcount : readBigEndian 2 (f.payloadBytes.drop 10) = report.length := by
    have := h.count_le
    simp only [kMaxReportedPackets] at this
    rw [hdrop10, readBigEndian_write, h.count, Nat.mod_eq_of_lt (by omega)]
  have htime : readSigned 3 (f.payloadBytes.drop 12) = f.referenceTime.bmod (2 ^ 24) := by
    rw [hdrop12, readSigned_write]
  have hseq : f.payloadBytes.getD 15 0 = f.feedbackSeq := by
    rw [List.getD_eq_getElem?_getD, ← Nat.add_zero 15, ← List.getElem?_drop, hdrop15]
    rfl
  have htail : f.payloadBytes.drop 16 = Rtcp.tailBytes f := by
    rw [← List.drop_drop (i := 1) (j := 15), hdrop15]
    rfl
  have hpos : report.length ≠ 0 := fun h0 => hne (List.length_eq_zero_iff.mp h0)
  unfold parseFrom
  rw [h.parse_packetBytes]
  dsimp only
  rw [if_neg (by simp)]
  unfold TransportFeedback.parse
  dsimp only
  rw [if_neg hlen, hcount, if_neg hpos, htail, hbase, htime, hseq]
  -- the state that the loops of `Parse` start from
  generalize hstart : TransportFeedback.clear _ = start
  have hstart' : start.baseSeqNum = f.baseSeqNum ∧ start.includeTimestamps = true := by
    rw [← hstart]
    exact ⟨rfl, rfl⟩
  obtain ⟨chunks, c, hread⟩ := h.readChunks start.lastChunk
  rw [hread]
  dsimp only
  rw [h.readReport hreceived { start with
    encodedChunks := chunks.dropLast, lastChunk := c, statusCount := report.length }
    start.baseSeqNum hstart'.2]
  obtain ⟨hl1, hl2, hl3, hl4⟩ := noteAll_lists { start with
    encodedChunks := chunks.dropLast, lastChunk := c, statusCount := report.length,
    includeTimestamps := f.includeTimestamps } start.baseSeqNum report
  refine ⟨_, rfl, ?_, ?_, ?_, ?_, ?_, ?_, ?_⟩
  · exact hl3.baseSeqNum.trans hstart'.1
  · exact hl4.trans h.count.symm
  · refine hl1.trans ?_
    rw [h.received, ← hstart]
    rfl
  · refine (hl2 (by rw [← hstart]; rfl)).trans ?_
    rw [← hstart]
    rfl
  · refine hl3.feedbackSeq.trans ?_
    rw [← hstart]
    rfl
  · exact hl3.includeTimestamps
  · refine hl3.referenceTime.trans ?_
    rw [← hstart]
    rfl

end

/-! ## Listing the lost packets changes nothing else -/

/-- The same feedback with another choice of `include_lost_` and another list of all
packets. -/
def relist (f : TransportFeedback) (lost : Bool) (all : List ReceivedPacket) :
    TransportFeedback :=
  { f with includeLost := lost, allPackets := all }

variable (f) (lost : Bool) (all : List ReceivedPacket)

theorem addDeltaSize_relist (d : Nat) :
    (relist f lost all).addDeltaSize d = (f.addDeltaSize d).map (fun g => relist g lost all) := by
  unfold addDeltaSize relist
  dsimp only
  split_ifs <;> rfl

theorem addMissing_relist (seq : U16) (gap : Nat) :
    ∃ all', (relist f lost all).addMissing seq gap =
      ((f.addMissing seq gap).1, relist (f.addMissing seq gap).2 lost all') := by
  induction gap generalizing f all seq with
  | zero => exact ⟨all, rfl⟩
  | succ gap ih =>
    unfold addMissing
    rw [addDeltaSize_relist]
    cases f.addDeltaSize 0 with
    | none => exact ⟨all, rfl⟩
    | some g => exact ih (g.noteLost seq) _ (seq + 1)

theorem addReceivedPacket_relist (seq : U16) (timestampUs : Int) :
    ∃ all', (relist f lost all).addReceivedPacket seq timestampUs =
      ((f.addReceivedPacket seq timestampUs).1,
        relist (f.addReceivedPacket seq timestampUs).2 lost all') := by
  unfold addReceivedPacket
  have hdelta : (relist f lost all).deltaOf timestampUs = f.deltaOf timestampUs := rfl
  have hnext : (relist f lost all).nextSeqNo = f.nextSeqNo := rfl
  rw [hdelta, hnext]
  cases f.deltaOf timestampUs with
  | none => exact ⟨all, rfl⟩
  | some delta =>
    dsimp only
    by_cases horder : seq ≠ f.nextSeqNo ∧ WrapAround.aheadOf seq (f.nextSeqNo - 1) = false
    · rw [if_pos horder, if_pos horder]
      exact ⟨all, rfl⟩
    · rw [if_neg horder, if_neg horder]
      obtain ⟨all', hmissing⟩ :=
        addMissing_relist f lost all f.nextSeqNo (seq - f.nextSeqNo).toNat
      rw [hmissing]
      generalize f.addMissing f.nextSeqNo (seq - f.nextSeqNo).toNat = result
      obtain ⟨ok, g⟩ := result
      cases ok with
      | false => exact ⟨all', rfl⟩
      | true =>
        dsimp only
        rw [addDeltaSize_relist]
        cases g.addDeltaSize (deltaSizeOf delta) with
        | none => exact ⟨all', rfl⟩
        | some g' =>
          exact ⟨if lost then all' ++ [⟨seq, some delta⟩] else all', rfl⟩

theorem addAll_relist (calls : List (U16 × Int)) :
    ∃ all', (relist f lost all).addAll calls =
      ((f.addAll calls).1, relist (f.addAll calls).2 lost all') := by
  induction calls generalizing f all with
  | nil => exact ⟨all, rfl⟩
  | cons call calls ih =>
    obtain ⟨all', hcall⟩ := addReceivedPacket_relist f lost all call.1 call.2
    obtain ⟨all'', hrest⟩ := ih (f.addReceivedPacket call.1 call.2).2 all'
    refine ⟨all'', ?_⟩
    unfold addAll
    rw [hcall]
    dsimp only
    rw [hrest]

/-! ## From the sender to the receiver -/

theorem baseTime_mod (referenceTime : Int) :
    (referenceTime.bmod (2 ^ 24) * kBaseScaleFactor) % kTimeWrapPeriodUs =
      (referenceTime * kBaseScaleFactor) % kTimeWrapPeriodUs := by
  have hperiod : kTimeWrapPeriodUs = 2 ^ 24 * 64000 := by decide
  have hscale : kBaseScaleFactor = 64000 := by decide
  obtain ⟨wraps, hwraps⟩ := Int.dvd_bmod_sub_self (x := referenceTime) (m := 2 ^ 24)
  rw [hperiod, hscale]
  omega

/-- Everything a sender chooses before the first packet is added. -/
structure Setup where
  includeTimestamps : Bool
  includeLost : Bool
  senderSsrc : U32
  mediaSsrc : U32
  baseSequence : U16
  refTimestampUs : Int
  feedbackSequence : UInt8

/-- The feedback that the sender starts with. -/
def Setup.start (s : Setup) : TransportFeedback :=
  (((create s.includeTimestamps s.includeLost).setSsrcs s.senderSsrc s.mediaSsrc).setBase
    s.baseSequence s.refTimestampUs).setFeedbackSequenceNumber s.feedbackSequence

/-- **Transport feedback survives the wire.**  Whatever the sender's setup and whatever
calls of `AddReceivedPacket` were made, accepted or refused, at least one of them
accepted: `PackInto` with enough room succeeds, and `ParseFrom` of the bytes it wrote
yields the same base sequence number, status count, received packets, feedback sequence
number and timestamp flag, and the same base time modulo the wrap period.  The list of
all packets is the one that the sender has when it lists the lost packets. -/
theorem feedback_round_trip (s : Setup) (calls : List (U16 × Int))
    (haccepted : true ∈ (s.start.addAll calls).1) (hasCallback : Bool) (maxSize : Nat)
    (st : PackState) (hroom : st.index + (s.start.addAll calls).2.packetSize ≤ maxSize)
    (hbuffer : maxSize ≤ st.buffer.length) :
    ∃ st' g, (∀ fuel, (s.start.addAll calls).2.packInto hasCallback maxSize (fuel + 1) st =
        some (true, st')) ∧
      parseFrom ((st'.buffer.drop st.index).take (st'.index - st.index)) = some g ∧
      g.baseSeqNum = (s.start.addAll calls).2.baseSeqNum ∧
      g.statusCount = (s.start.addAll calls).2.statusCount ∧
      g.receivedPackets = (s.start.addAll calls).2.receivedPackets ∧
      g.allPackets = ({ s with includeLost := true }.start.addAll calls).2.allPackets ∧
      g.feedbackSeq = (s.start.addAll calls).2.feedbackSeq ∧
      g.includeTimestamps = (s.start.addAll calls).2.includeTimestamps ∧
      g.getBaseTimeUs % kTimeWrapPeriodUs =
        (s.start.addAll calls).2.getBaseTimeUs % kTimeWrapPeriodUs := by
  -- the run that lists the lost packets differs in nothing else
  obtain ⟨all, hrelist⟩ := addAll_relist { s with includeLost := true }.start s.includeLost [] calls
  have hstart : relist { s with includeLost := true }.start s.includeLost [] = s.start := rfl
  rw [hstart] at hrelist
  rw [hrelist] at haccepted hroom ⊢
  obtain ⟨report, hdesc, hheader, hreceived⟩ :=
    describes_addAll (describes_nil s.includeTimestamps true s.senderSsrc s.mediaSsrc
      s.baseSequence s.refTimestampUs s.feedbackSequence) calls
  rw [List.nil_append] at hdesc
  change Describes ({ s with includeLost := true }.start.addAll calls).2 report at hdesc
  change SameHeader _ ({ s with includeLost := true }.start.addAll calls).2 at hheader
  have hreceived := hreceived haccepted
  generalize ({ s with includeLost := true }.start.addAll calls).2 = f at *
  obtain ⟨g, hparse, h1, h2, h3, h4, h5, h6, h7⟩ := parse_describes hdesc hreceived
  have hroom : st.index + f.packetSize ≤ maxSize := hroom
  have hcount : f.statusCount ≠ 0 := by
    obtain ⟨delta, hmem⟩ := hreceived
    rw [hdesc.count]
    exact fun h0 => List.ne_nil_of_mem hmem (List.length_eq_zero_iff.mp h0)
  have hwritten := st.slice_write f.packetBytes
    (by rw [hdesc.length_packetBytes]; exact le_trans hroom hbuffer)
  refine ⟨st.write f.packetBytes, g, packInto_of_room hcount hroom hasCallback, ?_, h1, h2, h3, ?_,
    h5, h6, ?_⟩
  · rw [hwritten]
    exact hparse
  · rw [h4, hdesc.all hheader.includeLost]
  · show (g.referenceTime * kBaseScaleFactor) % _ = (f.referenceTime * kBaseScaleFactor) % _
    rw [h7]
    exact baseTime_mod f.referenceTime

/-- A feedback whose base is just before the wrap of the sequence numbers, with a
packet that comes too late and a delta that goes back. -/
theorem feedback_round_trip_wrapped :
    let s : Setup := ⟨true, false, 1, 2, 65534#16, 64000 * 8388613, 9⟩
    let calls := [(65535#16, 536871232000), (2#16, 536871322000), (1#16, 5), (3#16, 536871235000)]
    ∃ st' g, (∀ fuel, (s.start.addAll calls).2.packInto false 64 (fuel + 1)
        ⟨List.replicate 64 0, 8, []⟩ = some (true, st')) ∧
      parseFrom ((st'.buffer.drop 8).take (st'.index - 8)) = some g ∧
      g.receivedPackets = [⟨65535#16, some 0⟩, ⟨2#16, some 360⟩, ⟨3#16, some (-348)⟩] := by
  have hrun := feedback_round_trip ⟨true, false, 1, 2, 65534#16, 64000 * 8388613, 9⟩
    [(65535#16, 536871232000), (2#16, 536871322000), (1#16, 5), (3#16, 536871235000)]
    (by decide +kernel) false 64 ⟨List.replicate 64 0, 8, []⟩ (by decide +kernel) (by decide)
  obtain ⟨st', g, hpack, hparse, -, -, hreceived, -⟩ := hrun
  exact ⟨st', g, hpack, hparse, hreceived.trans (by decide +kernel)⟩

end NaiveRtc.Rtcp
