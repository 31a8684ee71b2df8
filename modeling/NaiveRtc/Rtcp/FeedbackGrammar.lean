import NaiveRtc.Rtcp.FeedbackParsers
import NaiveRtc.Rtcp.TransportFeedbackConsistency
import NaiveRtc.Rtcp.TransportFeedbackRoundTrip

/-!
# What a received transport feedback is written as

A feedback that `Parse` accepted is written by `PackInto` and parsed again.  The status chunks are
read as they were, in every format and with runs of no length; the reserved symbol and the deltas
are another matter.

* `wireStatuses` — the statuses of a packet, and the bytes behind them.
* `parse_eq`, `parse_spec` — `Parse` in terms of these, and what it accepts.
* `ReadAs.readChunks_again` — the chunks of a feedback are read as they were.
* `smallInTwo`, `Report` — deltas of two bytes that would fit into one, and what was read when
  there are none.
* `Parsed.readsBack_assumed`, `Parsed.readsBack_report` — the packets written and read again.
* `grammar_iff` — the packets that are read, written and read again without a loss.
-/

namespace NaiveRtc.Rtcp

open ByteIo LastChunk

/-! ## The statuses on the wire -/

/-- The statuses of a packet, within its status count, and the bytes behind their chunks. -/
def wireStatuses (packet : CommonHeader) : Option (List Nat × List UInt8) :=
  if packet.payload.length < kMinPayloadSizeBytes then none
  else if readBigEndian 2 (packet.payload.drop 10) = 0 then none
  else
    (TransportFeedback.readChunks (readBigEndian 2 (packet.payload.drop 10))
      (packet.payload.drop 16) [] [] LastChunk.create).map fun found => (found.1, found.2.2.2)

/-- A delta of two bytes has a value that fits into one. -/
def smallInTwo : List Nat → List UInt8 → Bool
  | [], _ => false
  | 0 :: sizes, bytes => smallInTwo sizes bytes
  | 1 :: sizes, bytes => smallInTwo sizes (bytes.drop 1)
  | _ :: sizes, bytes => bytes.headD 0 == 0 || smallInTwo sizes (bytes.drop 2)

theorem smallInTwo_of_sum {sizes : List Nat} (bytes : List UInt8) (h : sizes.sum = 0) :
    smallInTwo sizes bytes = false := by
  induction sizes with
  | nil => rfl
  | cons size sizes ih =>
    rw [List.sum_cons] at h
    obtain rfl : size = 0 := by omega
    exact ih (by omega)

namespace LastChunk

theorem decoded_of_le {chunk : U16} {maxSize maxSize' : Nat}
    (hle : (decoded chunk maxSize').length ≤ maxSize) (hmax : maxSize ≤ maxSize') :
    decoded chunk maxSize = decoded chunk maxSize' := by
  have hmin : ∀ n, min n maxSize' ≤ maxSize → min n maxSize = min n maxSize' := by omega
  unfold decoded at hle ⊢
  split_ifs at hle ⊢
  · rw [List.length_replicate] at hle
    rw [hmin _ hle]
  · rw [List.length_map, List.length_range] at hle
    rw [hmin _ hle]
  · rw [List.length_map, List.length_range] at hle
    rw [hmin _ hle]

end LastChunk

open TransportFeedback

variable {f g : TransportFeedback} {packet : CommonHeader} {sizes : List Nat} {bytes : List UInt8}

theorem exists_readChunks (h : wireStatuses packet = some (sizes, bytes)) (c : LastChunk) :
    kMinPayloadSizeBytes ≤ packet.payload.length ∧
      readBigEndian 2 (packet.payload.drop 10) ≠ 0 ∧
      ∃ chunks lastChunk, readChunks (readBigEndian 2 (packet.payload.drop 10))
        (packet.payload.drop 16) [] [] c = some (sizes, chunks, lastChunk, bytes) := by
  unfold wireStatuses at h
  split_ifs at h with hlen hzero
  rw [readChunks_congr _ _ _ _ _ c, Option.map_eq_some_iff] at h
  obtain ⟨⟨_, chunks, lastChunk, _⟩, hread, heq⟩ := h
  cases heq
  exact ⟨not_lt.1 hlen, hzero, chunks, lastChunk, hread⟩

theorem lastChunk_clear (f : TransportFeedback) : f.clear.lastChunk = f.lastChunk.clear := rfl

theorem parse_eq (h : wireStatuses packet = some (sizes, bytes)) {chunks : List U16}
    {lastChunk : LastChunk}
    (hread : readChunks (readBigEndian 2 (packet.payload.drop 10)) (packet.payload.drop 16) [] []
      f.lastChunk.clear = some (sizes, chunks, lastChunk, bytes)) :
    f.parse packet =
      (if sizes.sum ≤ bytes.length then
        readDeltas sizes (f.withStatuses packet sizes chunks lastChunk f.includeTimestamps)
          (BitVec.ofNat 16 (readBigEndian 2 (packet.payload.drop 8))) bytes
      else some (assumeDeltas sizes (f.withStatuses packet sizes chunks lastChunk false)
          (BitVec.ofNat 16 (readBigEndian 2 (packet.payload.drop 8))), bytes)).map
        fun found => { found.1 with
          sizeBytes := kRtcpCommonHeaderSize + (packet.payload.length - found.2.length) } := by
  obtain ⟨hlen, hzero, -⟩ := exists_readChunks h f.lastChunk.clear
  have hsizes := (readChunks_spec (readStatusCount_le packet) (readSoFar_nil hzero _) hread).2.1
  unfold TransportFeedback.parse
  dsimp only
  rw [if_neg (not_lt.2 hlen), if_neg hzero]
  rw [lastChunk_clear, hread]
  dsimp only
  rw [← hsizes]
  rfl

theorem parse_eq_none (h : wireStatuses packet = none) : f.parse packet = none := by
  unfold wireStatuses at h
  unfold TransportFeedback.parse
  dsimp only
  split_ifs at h ⊢ with hlen hzero
  · rfl
  · rfl
  · rw [readChunks_congr _ _ _ _ _ f.lastChunk.clear, Option.map_eq_none_iff] at h
    rw [lastChunk_clear, h]

/-! ## The chunks again -/

/-- The chunks of the feedback were read as `sizes`, the last of them cut to the statuses that
were left. -/
structure ReadAs (f : TransportFeedback) (sizes : List Nat) : Prop where
  last : ∃ last, last ≠ [] ∧ Keeps f.lastChunk last ∧
    sizes = f.encodedChunks.flatMap (fun chunk => decoded chunk kMaxReportedPackets) ++ last
  count : f.statusCount = sizes.length
  count_le : sizes.length ≤ kMaxReportedPackets

theorem ReadAs.encodedStatuses (h : ReadAs f sizes) : f.encodedStatuses = sizes := by
  obtain ⟨last, -, hkeeps, hsizes⟩ := h.last
  exact Lists.encodedStatuses_eq ⟨last, hkeeps, hsizes⟩

theorem ReadAs.le_three (h : ReadAs f sizes) : ∀ size ∈ sizes, size ≤ 3 := by
  obtain ⟨last, -, hkeeps, rfl⟩ := h.last
  intro size hsize
  rcases List.mem_append.1 hsize with hchunk | hlast
  · obtain ⟨chunk, -, hmem⟩ := List.mem_flatMap.1 hchunk
    exact (keeps_decode LastChunk.create chunk kMaxReportedPackets).valid size hmem
  · exact hkeeps.valid size hlast

theorem readChunks_raw {count : Nat} (hcount : count ≤ kMaxReportedPackets) (chunks : List U16)
    (rest : List UInt8) (sizes : List Nat) (chunks' : List U16) (c : LastChunk)
    (hmore : (sizes ++ chunks.flatMap fun chunk => decoded chunk kMaxReportedPackets).length
      < count) :
    ∃ chunks'' c', readChunks count
        (chunks.flatMap (fun chunk => writeBigEndian 2 chunk.toNat) ++ rest) sizes chunks' c =
      readChunks count rest
        (sizes ++ chunks.flatMap fun chunk => decoded chunk kMaxReportedPackets) chunks'' c' := by
  induction chunks generalizing sizes chunks' c with
  | nil => exact ⟨chunks', c, by simp⟩
  | cons chunk chunks ih =>
    simp only [List.flatMap_cons, ← List.append_assoc, List.length_append] at hmore ⊢
    rw [List.append_assoc, readChunks_cons _ _ _ _ (by omega), statuses_decode,
      @decoded_of_le _ _ kMaxReportedPackets (by omega) (by omega)]
    exact ih _ _ _ (by rw [List.length_append, List.length_append]; omega)

theorem ReadAs.readChunks_again (h : ReadAs f sizes) (rest : List UInt8) (c : LastChunk) :
    ∃ chunks c', readChunks sizes.length
        (f.encodedChunks.flatMap (fun chunk => writeBigEndian 2 chunk.toNat) ++
          (writeBigEndian 2 f.lastChunk.encodeLast.toNat ++ rest)) [] [] c =
      some (sizes, chunks, c', rest) := by
  obtain ⟨last, hne, hkeeps, hsizes⟩ := h.last
  have hlen := congrArg List.length hsizes
  have hpos := List.length_pos_iff.2 hne
  rw [List.length_append] at hlen
  obtain ⟨chunks, c', hraw⟩ := readChunks_raw h.count_le f.encodedChunks
    (writeBigEndian 2 f.lastChunk.encodeLast.toNat ++ rest) [] [] c (by
      rw [List.nil_append]
      omega)
  rw [hraw, List.nil_append, readChunks_cons _ _ _ _ (by omega),
    show sizes.length - (f.encodedChunks.flatMap fun chunk =>
      decoded chunk kMaxReportedPackets).length = last.length by omega,
    decode_encodeLast hkeeps hne, ← hsizes]
  exact ⟨_, _, readChunks_done rest _ _ rfl⟩

/-! ## The deltas again -/

theorem deltaSizeOf_readSigned (high low : UInt8) :
    deltaSizeOf (readSigned 2 [high, low]) = if high = 0 then 1 else 2 := by
  have hbytes : writeBigEndian 2 (readBigEndian 2 [high, low]) = [high, low] :=
    writeBigEndian_read rfl
  have hlt := readBigEndian_lt 2 [high, low]
  unfold readSigned
  generalize readBigEndian 2 [high, low] = n at hbytes hlt
  have hhigh : high = UInt8.ofNat (n >>> 8) := (List.cons.inj hbytes).1.symm
  have hzero : high = 0 ↔ n < 256 := by
    rw [hhigh, ← UInt8.toNat_inj, UInt8.toNat_ofNat', Nat.shiftRight_eq_div_pow]
    simp only [UInt8.toNat_zero]
    omega
  have hvalue : (BitVec.ofNat (8 * 2) n).toInt =
      if 2 * n < 65536 then (n : Int) else n - 65536 := by
    rw [BitVec.toInt_eq_toNat_cond, BitVec.toNat_ofNat, Nat.mod_eq_of_lt hlt]
    rfl
  have hsmall : (0 ≤ (BitVec.ofNat (8 * 2) n).toInt ∧ (BitVec.ofNat (8 * 2) n).toInt ≤ 0xff) ↔
      high = 0 := by
    rw [hvalue, hzero]
    split_ifs <;> omega
  unfold deltaSizeOf
  exact if_congr hsmall rfl rfl

/-- What `readDeltas` read, as a report of the statuses `sizes`. -/
structure Report (sizes : List Nat) (bytes rest : List UInt8) (report : List (Option Int)) :
    Prop where
  range : ∀ delta, some delta ∈ report → -2 ^ 15 ≤ delta ∧ delta < 2 ^ 15
  valid : ∀ size ∈ sizes, size ≤ 2
  length : bytes.length = sizes.sum + rest.length
  same : smallInTwo sizes bytes = false → report.map statusSize = sizes
  less : smallInTwo sizes bytes = true → (report.map statusSize).sum < sizes.sum
  le : (report.map statusSize).sum ≤ sizes.sum

theorem Report.nil (bytes : List UInt8) : Report [] bytes bytes [] where
  range := by simp
  valid := by simp
  length := by simp
  same _ := rfl
  less h := by cases h
  le := le_refl _

theorem Report.cons {rest : List UInt8} {report : List (Option Int)}
    (h : Report sizes bytes rest report) {status : Option Int} {size : Nat} {front : List UInt8}
    (hrange : ∀ delta, status = some delta → -2 ^ 15 ≤ delta ∧ delta < 2 ^ 15) (hvalid : size ≤ 2)
    (hfront : front.length = size) (hle : statusSize status ≤ size)
    (hsmall : smallInTwo (size :: sizes) (front ++ bytes) =
      (decide (statusSize status < size) || smallInTwo sizes bytes)) :
    Report (size :: sizes) (front ++ bytes) rest (status :: report) where
  range := by
    intro delta hmem
    rcases List.mem_cons.1 hmem with heq | hmem
    · exact hrange delta heq.symm
    · exact h.range delta hmem
  valid := List.forall_mem_cons.2 ⟨hvalid, h.valid⟩
  length := by
    rw [List.length_append, hfront, h.length, List.sum_cons, Nat.add_assoc]
  same hno := by
    rw [hsmall, Bool.or_eq_false_iff, decide_eq_false_iff_not, not_lt] at hno
    rw [List.map_cons, h.same hno.2, le_antisymm hle hno.1]
  less hyes := by
    rw [hsmall, Bool.or_eq_true, decide_eq_true_iff] at hyes
    have := h.le
    rw [List.map_cons, List.sum_cons, List.sum_cons]
    rcases hyes with hlt | hrest
    · omega
    · have := h.less hrest
      omega
  le := by
    have := h.le
    rw [List.map_cons, List.sum_cons, List.sum_cons]
    omega

theorem readDeltas_report_of_some {seqNo : U16} {rest : List UInt8}
    (hread : readDeltas sizes f seqNo bytes = some (g, rest)) :
    ∃ report, g = noteAll f seqNo report ∧ Report sizes bytes rest report := by
  fun_induction readDeltas sizes f seqNo bytes with
  | case1 f seqNo bytes =>
    cases hread
    exact ⟨[], rfl, Report.nil _⟩
  | case2 sizes f seqNo bytes ih =>
    obtain ⟨report, rfl, h⟩ := ih hread
    refine ⟨none :: report, rfl, ?_⟩
    exact @Report.cons sizes bytes rest report h none 0 [] (by simp) (by decide) rfl (le_refl _) rfl
  | case3 sizes f seqNo byte bytes ih =>
    obtain ⟨report, rfl, h⟩ := ih hread
    refine ⟨some byte.toNat :: report, rfl, ?_⟩
    have hlt := byte.toNat_lt
    have hone : statusSize (some (byte.toNat : Int)) = 1 := if_pos (by omega)
    refine @Report.cons sizes bytes rest report h (some byte.toNat) 1 [byte] ?_ (by decide) rfl
      hone.le ?_
    · intro delta hdelta
      obtain rfl := Option.some.inj hdelta
      omega
    · rw [hone]
      rfl
  | case4 sizes f seqNo high low bytes ih =>
    obtain ⟨report, rfl, h⟩ := ih hread
    refine ⟨some (readSigned 2 [high, low]) :: report, rfl, ?_⟩
    have hsize : statusSize (some (readSigned 2 [high, low])) = if high = 0 then 1 else 2 :=
      deltaSizeOf_readSigned high low
    refine @Report.cons sizes bytes rest report h (some (readSigned 2 [high, low])) 2 [high, low] ?_
      (by decide) rfl (statusSize_le _) ?_
    · intro delta hdelta
      obtain rfl := Option.some.inj hdelta
      have hlow := BitVec.le_toInt (BitVec.ofNat (8 * 2) (readBigEndian 2 [high, low]))
      have hhigh := BitVec.toInt_lt (x := BitVec.ofNat (8 * 2) (readBigEndian 2 [high, low]))
      exact ⟨hlow, hhigh⟩
    · rw [hsize]
      show (high == 0 || smallInTwo sizes bytes) = _
      by_cases hzero : high = 0
      · simp [hzero]
      · simp [hzero]
  | case5 => cases hread

theorem exists_readDeltas (hvalid : ∀ size ∈ sizes, size ≤ 2) (hroom : sizes.sum ≤ bytes.length)
    (f : TransportFeedback) (seqNo : U16) :
    ∃ found, readDeltas sizes f seqNo bytes = some found := by
  fun_induction readDeltas sizes f seqNo bytes with
  | case1 => exact ⟨_, rfl⟩
  | case2 sizes f seqNo bytes ih =>
    exact ih (List.forall_mem_cons.1 hvalid).2 (by simpa using hroom)
  | case3 sizes f seqNo byte bytes ih =>
    refine ih (List.forall_mem_cons.1 hvalid).2 ?_
    rw [List.sum_cons, List.length_cons] at hroom
    omega
  | case4 sizes f seqNo high low bytes ih =>
    refine ih (List.forall_mem_cons.1 hvalid).2 ?_
    rw [List.sum_cons, List.length_cons, List.length_cons] at hroom
    omega
  | case5 sizes f seqNo bytes h₀ h₁ h₂ h₃ =>
    exfalso
    obtain _ | ⟨size, sizes⟩ := sizes
    · exact h₀ rfl
    have hsize := hvalid size List.mem_cons_self
    rw [List.sum_cons] at hroom
    obtain rfl | rfl | rfl : size = 0 ∨ size = 1 ∨ size = 2 := by omega
    · exact h₁ sizes rfl
    · obtain _ | ⟨byte, bytes⟩ := bytes
      · rw [List.length_nil] at hroom
        omega
      · exact h₂ sizes byte bytes rfl rfl
    · obtain _ | ⟨high, _ | ⟨low, bytes⟩⟩ := bytes
      · rw [List.length_nil] at hroom
        omega
      · rw [List.length_singleton] at hroom
        omega
      · exact h₃ sizes high low bytes rfl rfl

/-- The report that `assumeDeltas` notes. -/
def assumedReport (sizes : List Nat) : List (Option Int) :=
  sizes.map fun size => if 0 < size then some 0 else none

theorem assumeDeltas_eq (f : TransportFeedback) (seqNo : U16) (sizes : List Nat) :
    assumeDeltas sizes f seqNo = noteAll f seqNo (assumedReport sizes) := by
  induction sizes generalizing f seqNo with
  | nil => rfl
  | cons size sizes ih =>
    have hcons : assumedReport (size :: sizes) =
        (if 0 < size then some 0 else none) :: assumedReport sizes := rfl
    rw [assumeDeltas, ih, hcons]
    by_cases hpos : 0 < size
    · rw [if_pos hpos, if_pos hpos]
      rfl
    · rw [if_neg hpos, if_neg hpos]
      rfl

theorem sameButPackets_noteAll (f : TransportFeedback) (seqNo : U16) (report : List (Option Int)) :
    SameButPackets f (noteAll f seqNo report) := by
  induction report generalizing f seqNo with
  | nil => exact ⟨SameHeader.refl f, rfl, rfl, rfl⟩
  | cons status report ih =>
    cases status with
    | none =>
      obtain ⟨hheader, hcount, hchunks, hlast⟩ := ih (f.noteLost seqNo) (seqNo + 1)
      exact ⟨(sameHeader_noteLost f seqNo).trans hheader, hcount, hchunks, hlast⟩
    | some delta =>
      obtain ⟨hheader, hcount, hchunks, hlast⟩ := ih (f.noteReceived seqNo delta) (seqNo + 1)
      exact ⟨(sameHeader_noteReceived f seqNo delta).trans hheader, hcount, hchunks, hlast⟩

/-! ## What `Parse` accepts -/

/-- What `Parse` made of a packet with the statuses `sizes`: the deltas of `report`, with or
without timestamps, and the size of what was read. -/
structure Parsed (packet : CommonHeader) (g : TransportFeedback) (sizes : List Nat)
    (report : List (Option Int)) (timed : Bool) (deltaBytes : Nat) : Prop extends
    ReadAs g sizes where
  base : g.baseSeqNum = BitVec.ofNat 16 (readBigEndian 2 (packet.payload.drop 8))
  timed : g.includeTimestamps = timed
  received : g.receivedPackets = (listing g.baseSeqNum report).filter ReceivedPacket.received
  size : g.sizeBytes = kRtcpCommonHeaderSize + 18 + 2 * g.encodedChunks.length + deltaBytes
  size_le : g.sizeBytes ≤ kRtcpCommonHeaderSize + packet.payload.length

theorem parsed_noteAll (h : wireStatuses packet = some (sizes, bytes)) {chunks : List U16}
    {lastChunk c : LastChunk}
    (hread : readChunks (readBigEndian 2 (packet.payload.drop 10)) (packet.payload.drop 16) [] []
      c = some (sizes, chunks, lastChunk, bytes)) (f : TransportFeedback)
    (report : List (Option Int)) (timed : Bool) {rest : List UInt8} {deltaBytes : Nat}
    (hrest : bytes.length = deltaBytes + rest.length) :
    Parsed packet { noteAll (f.withStatuses packet sizes chunks lastChunk timed)
        (BitVec.ofNat 16 (readBigEndian 2 (packet.payload.drop 8))) report with
      sizeBytes := kRtcpCommonHeaderSize + (packet.payload.length - rest.length) }
      sizes report timed deltaBytes := by
  obtain ⟨hlen, hzero, -⟩ := exists_readChunks h c
  obtain ⟨hsoFar, hsizes, hbytes⟩ := readChunks_spec (readStatusCount_le packet)
    (readSoFar_nil hzero _) hread
  obtain ⟨last, hchunks, hlast, hkeeps, hlists⟩ := hsoFar.done hsizes
  have hne := List.length_pos_iff.2 hchunks
  rw [List.length_nil, Nat.mul_zero, Nat.zero_add, List.length_drop] at hbytes
  unfold kMinPayloadSizeBytes at hlen
  have hsame := sameButPackets_noteAll (f.withStatuses packet sizes chunks lastChunk timed)
    (BitVec.ofNat 16 (readBigEndian 2 (packet.payload.drop 8))) report
  have hnoted := (noteAll_lists (f.withStatuses packet sizes chunks lastChunk timed)
    (BitVec.ofNat 16 (readBigEndian 2 (packet.payload.drop 8))) report).1
  have hbase := hsame.baseSeqNum
  generalize noteAll (f.withStatuses packet sizes chunks lastChunk timed)
    (BitVec.ofNat 16 (readBigEndian 2 (packet.payload.drop 8))) report = k at hsame hnoted hbase ⊢
  have hencoded : k.encodedChunks = chunks.dropLast := hsame.encodedChunks
  refine ⟨⟨⟨last, hlast, ?_, ?_⟩, hsame.statusCount, ?_⟩, hbase, hsame.includeTimestamps,
    ?_, ?_, ?_⟩
  · show Keeps k.lastChunk last
    rw [hsame.lastChunk]
    exact hkeeps
  · show sizes = k.encodedChunks.flatMap _ ++ last
    rw [hencoded]
    exact hlists
  · rw [hsizes]
    exact readStatusCount_le packet
  · show k.receivedPackets = (listing k.baseSeqNum report).filter _
    rw [hbase]
    exact hnoted
  · show kRtcpCommonHeaderSize + (packet.payload.length - rest.length) =
      kRtcpCommonHeaderSize + 18 + 2 * k.encodedChunks.length + deltaBytes
    rw [hencoded, List.length_dropLast]
    omega
  · show kRtcpCommonHeaderSize + (packet.payload.length - rest.length) ≤ _
    omega

/-- **What `Parse` accepts**: a packet without room for deltas, or one without a reserved symbol. -/
theorem parse_spec (h : wireStatuses packet = some (sizes, bytes))
    (hparse : f.parse packet = some g) :
    (bytes.length < sizes.sum ∧ Parsed packet g sizes (assumedReport sizes) false 0) ∨
      (sizes.sum ≤ bytes.length ∧ ∃ report rest, Report sizes bytes rest report ∧
        Parsed packet g sizes report f.includeTimestamps sizes.sum) := by
  obtain ⟨-, -, chunks, lastChunk, hread⟩ := exists_readChunks h f.lastChunk.clear
  rw [parse_eq h hread, Option.map_eq_some_iff] at hparse
  obtain ⟨⟨k, rest⟩, hfound, rfl⟩ := hparse
  by_cases hroom : sizes.sum ≤ bytes.length
  · rw [if_pos hroom] at hfound
    obtain ⟨report, rfl, hreport⟩ := readDeltas_report_of_some hfound
    exact Or.inr ⟨hroom, report, rest, hreport,
      parsed_noteAll h hread f report f.includeTimestamps hreport.length⟩
  · rw [if_neg hroom] at hfound
    obtain ⟨rfl, rfl⟩ := Prod.mk.inj (Option.some.inj hfound)
    rw [assumeDeltas_eq]
    exact Or.inl ⟨not_le.1 hroom,
      parsed_noteAll h hread f (assumedReport sizes) false (Nat.zero_add _).symm⟩

theorem exists_parse (h : wireStatuses packet = some (sizes, bytes))
    (hvalid : sizes.sum ≤ bytes.length → ∀ size ∈ sizes, size ≤ 2) (f : TransportFeedback) :
    ∃ g, f.parse packet = some g := by
  obtain ⟨-, -, chunks, lastChunk, hread⟩ := exists_readChunks h f.lastChunk.clear
  rw [parse_eq h hread]
  by_cases hroom : sizes.sum ≤ bytes.length
  · rw [if_pos hroom]
    obtain ⟨found, hfound⟩ := exists_readDeltas (hvalid hroom) hroom
      (f.withStatuses packet sizes chunks lastChunk f.includeTimestamps)
      (BitVec.ofNat 16 (readBigEndian 2 (packet.payload.drop 8)))
    rw [hfound]
    exact ⟨_, rfl⟩
  · rw [if_neg hroom]
    exact ⟨_, rfl⟩

/-! ## What is written -/

theorem parse_packCommonHeader_short {fmt type size : Nat} (hfmt : fmt < 32) (pad : Bool)
    {rest : List UInt8} (halign : size % 4 = 0) (hsize : size < 2 ^ 18)
    (hshort : rest.length < size) :
    CommonHeader.parse (packCommonHeader fmt type size pad ++ rest) = none := by
  obtain ⟨hversion, -, -⟩ := first_byte hfmt pad
  have hwords : size / 4 % 2 ^ 16 * 4 = size := by omega
  simp only [packCommonHeader, List.cons_append, List.nil_append]
  unfold CommonHeader.parse
  rw [if_neg (by simp [kRtcpCommonHeaderSize])]
  simp only [List.getD_cons_zero, List.drop_succ_cons, List.drop_zero, length_bytes, hwords]
  rw [if_neg (not_not.2 hversion), if_pos]
  simp only [List.length_cons, kRtcpCommonHeaderSize]
  omega

variable {timed : Bool}

theorem Parsed.tailBytes {report : List (Option Int)} {deltaBytes : Nat}
    (h : Parsed packet g sizes report timed deltaBytes) :
    tailBytes g = g.encodedChunks.flatMap (fun chunk => writeBigEndian 2 chunk.toNat) ++
      (writeBigEndian 2 g.lastChunk.encodeLast.toNat ++
        if timed then report.flatMap statusBytes else []) := by
  obtain ⟨last, hne, hkeeps, -⟩ := h.last
  rw [Rtcp.tailBytes, h.received, flatMap_received, h.timed,
    if_neg fun hempty => hne (hkeeps.empty_iff.1 hempty)]

theorem Parsed.length_payloadBytes {report : List (Option Int)} {deltaBytes : Nat}
    (h : Parsed packet g sizes report timed deltaBytes) :
    g.payloadBytes.length =
      18 + 2 * g.encodedChunks.length + if timed then (report.map statusSize).sum else 0 := by
  have htail : g.payloadBytes.length = 16 + (Rtcp.tailBytes g).length := by
    simp only [payloadBytes, Rtcp.tailBytes, List.length_append, length_writeBigEndian,
      length_writeSigned, List.length_singleton]
    omega
  rw [htail, h.tailBytes]
  simp only [List.length_append, length_flatMap_two, length_writeBigEndian, apply_ite List.length,
    length_flatMap_statusBytes, List.length_nil]
  omega

/-- **A feedback whose size counts more than is written** makes a packet that is rejected. -/
theorem parseFrom_packetBytes_short (hmax : g.sizeBytes ≤ kMaxSizeBytes)
    (hshort : g.payloadBytes.length + kRtcpCommonHeaderSize < g.sizeBytes) :
    parseFrom g.packetBytes = none := by
  have hheader : CommonHeader.parse g.packetBytes = none := by
    unfold packetBytes
    rw [List.append_assoc]
    unfold kRtcpCommonHeaderSize at hshort ⊢
    unfold kMaxSizeBytes at hmax
    refine parse_packCommonHeader_short (by decide) _ ?_ ?_ ?_
    · unfold packetSize
      omega
    · unfold packetSize
      omega
    · rw [List.length_append, length_padding, paddingSize]
      unfold packetSize
      omega
  unfold parseFrom
  rw [hheader]

theorem parseFrom_packetBytes_of_length (hmax : g.sizeBytes ≤ kMaxSizeBytes)
    (hlen : g.payloadBytes.length + kRtcpCommonHeaderSize = g.sizeBytes) :
    ∃ again : CommonHeader, again.payload = g.payloadBytes ∧
      parseFrom g.packetBytes = (create true true).parse again := by
  refine ⟨{ packetType := UInt8.ofNat kPacketType, countOrFmt := UInt8.ofNat kFeedbackMessageType
            paddingSize := UInt8.ofNat g.paddingSize, payload := g.payloadBytes }, rfl, ?_⟩
  unfold parseFrom
  rw [parse_packetBytes_of_length hlen hmax]
  exact if_neg (by simp)

theorem Parsed.wireStatuses_again {report : List (Option Int)} {deltaBytes : Nat}
    (h : Parsed packet g sizes report timed deltaBytes) {again : CommonHeader}
    (hagain : again.payload = g.payloadBytes) :
    wireStatuses again = some (sizes, if timed then report.flatMap statusBytes else []) := by
  obtain ⟨-, hdrop10, -, hdrop15⟩ := drop_payloadBytes g
  have hpos : sizes.length ≠ 0 := by
    obtain ⟨last, hne, -, hsizes⟩ := h.last
    have hlast := List.length_pos_iff.2 hne
    rw [hsizes, List.length_append]
    omega
  have hcount : readBigEndian 2 (g.payloadBytes.drop 10) = sizes.length := by
    have hle := h.count_le
    unfold kMaxReportedPackets at hle
    rw [hdrop10, readBigEndian_write, h.count, Nat.mod_eq_of_lt (by omega)]
  have htail : g.payloadBytes.drop 16 = Rtcp.tailBytes g := by
    rw [← List.drop_drop (i := 1) (j := 15), hdrop15]
    rfl
  have hmin : ¬g.payloadBytes.length < kMinPayloadSizeBytes := by
    rw [h.length_payloadBytes]
    unfold kMinPayloadSizeBytes
    omega
  obtain ⟨chunks, c, hread⟩ := h.readChunks_again
    (if timed then report.flatMap statusBytes else []) LastChunk.create
  unfold wireStatuses
  rw [hagain, if_neg hmin, hcount, if_neg hpos, htail, h.tailBytes, hread]
  rfl

theorem Parsed.base_again {report : List (Option Int)} {deltaBytes : Nat}
    {k : TransportFeedback} {again : CommonHeader}
    (h : Parsed again k sizes report timed deltaBytes)
    (hagain : again.payload = g.payloadBytes) : k.baseSeqNum = g.baseSeqNum := by
  rw [h.base, hagain, (drop_payloadBytes g).1, readBigEndian_write,
    Nat.mod_eq_of_lt g.baseSeqNum.isLt, BitVec.ofNat_toNat, BitVec.setWidth_eq]

theorem parse_report {report : List (Option Int)}
    (h : wireStatuses packet = some (report.map statusSize, report.flatMap statusBytes))
    (hrange : ∀ delta, some delta ∈ report → -2 ^ 15 ≤ delta ∧ delta < 2 ^ 15)
    (f : TransportFeedback) :
    ∃ k deltaBytes, f.parse packet = some k ∧
      Parsed packet k (report.map statusSize) report f.includeTimestamps deltaBytes := by
  obtain ⟨-, -, chunks, lastChunk, hread⟩ := exists_readChunks h f.lastChunk.clear
  have hdeltas := readDeltas_report report hrange (f.withStatuses packet (report.map statusSize)
    chunks lastChunk f.includeTimestamps)
    (BitVec.ofNat 16 (readBigEndian 2 (packet.payload.drop 8))) []
  rw [List.append_nil] at hdeltas
  rw [parse_eq h hread, if_pos (length_flatMap_statusBytes report).ge, hdeltas]
  exact ⟨_, _, rfl, @parsed_noteAll packet _ _ h chunks lastChunk _ hread f report
    f.includeTimestamps [] _ rfl⟩

/-! ## Written and read again -/

/-- The feedback, written into any buffer with room, is read with the same statuses and deltas. -/
def ReadsBack (g : TransportFeedback) : Prop :=
  ∀ (hasCallback : Bool) (maxSize : Nat) (st : PackState), st.index + g.packetSize ≤ maxSize →
    maxSize ≤ st.buffer.length →
    ∃ st' k, (∀ fuel, g.packInto hasCallback maxSize (fuel + 1) st = some (true, st')) ∧
      parseFrom ((st'.buffer.drop st.index).take (st'.index - st.index)) = some k ∧
      k.encodedStatuses = g.encodedStatuses ∧ k.receivedPackets = g.receivedPackets

theorem length_packetBytes_le (hlen : g.payloadBytes.length + kRtcpCommonHeaderSize ≤ g.sizeBytes) :
    g.packetBytes.length ≤ g.packetSize := by
  simp only [packetBytes, List.length_append, length_packCommonHeader, length_padding,
    paddingSize, packetSize, kRtcpCommonHeaderSize] at hlen ⊢
  omega

theorem readsBack_iff (hcount : g.statusCount ≠ 0)
    (hlen : g.payloadBytes.length + kRtcpCommonHeaderSize ≤ g.sizeBytes) :
    ReadsBack g ↔ ∃ k, parseFrom g.packetBytes = some k ∧
      k.encodedStatuses = g.encodedStatuses ∧ k.receivedPackets = g.receivedPackets := by
  have hslice (st : PackState) (hbuffer : st.index + g.packetSize ≤ st.buffer.length) :=
    st.slice_write g.packetBytes
      (le_trans (Nat.add_le_add_left (length_packetBytes_le hlen) st.index) hbuffer)
  constructor
  · intro h
    obtain ⟨st', k, hst', hread⟩ := h false g.packetSize ⟨List.replicate g.packetSize 0, 0, []⟩
      (Nat.zero_add _).le (List.length_replicate ..).ge
    have hst' := hst' 0
    rw [packInto_of_room hcount (Nat.zero_add _).le] at hst'
    obtain ⟨-, rfl⟩ := Prod.mk.inj (Option.some.inj hst')
    rw [hslice _ (by simp)] at hread
    exact ⟨k, hread⟩
  · rintro ⟨k, hread⟩ hasCallback maxSize st hroom hbuffer
    refine ⟨_, k, packInto_of_room hcount hroom hasCallback, ?_⟩
    rw [hslice st (le_trans hroom hbuffer)]
    exact hread

theorem Parsed.statusCount_ne {report : List (Option Int)} {deltaBytes : Nat}
    (h : Parsed packet g sizes report timed deltaBytes) : g.statusCount ≠ 0 := by
  obtain ⟨last, hne, -, hsizes⟩ := h.last
  have hlast := List.length_pos_iff.2 hne
  rw [h.count, hsizes, List.length_append]
  omega

theorem Parsed.readsBack_assumed (h : Parsed packet g sizes (assumedReport sizes) false 0)
    (hmax : g.sizeBytes ≤ kMaxSizeBytes) (hsum : 0 < sizes.sum) : ReadsBack g := by
  have hlen : g.payloadBytes.length + kRtcpCommonHeaderSize = g.sizeBytes := by
    rw [h.length_payloadBytes, h.size]
    simp only [Bool.false_eq_true, if_false]
    omega
  refine (readsBack_iff h.statusCount_ne hlen.le).2 ?_
  obtain ⟨again, hagain, hparse⟩ := parseFrom_packetBytes_of_length hmax hlen
  have hwire := h.wireStatuses_again hagain
  simp only [Bool.false_eq_true, if_false] at hwire
  obtain ⟨k, hk⟩ := exists_parse hwire (fun hle => absurd hsum (not_lt.2 hle)) (create true true)
  refine ⟨k, hparse.trans hk, ?_⟩
  obtain ⟨-, hparsed⟩ | ⟨hle, -⟩ := parse_spec hwire hk
  · rw [hparsed.encodedStatuses, h.encodedStatuses, hparsed.received, hparsed.base_again hagain,
      h.received]
    exact ⟨rfl, rfl⟩
  · exact absurd hsum (not_lt.2 hle)

theorem Parsed.readsBack_report {rest : List UInt8} {report : List (Option Int)}
    (hreport : Report sizes bytes rest report) (h : Parsed packet g sizes report timed sizes.sum)
    (hmax : g.sizeBytes ≤ kMaxSizeBytes) :
    ReadsBack g ↔ sizes.sum = 0 ∨ (timed = true ∧ smallInTwo sizes bytes = false) := by
  have hlen : g.payloadBytes.length + kRtcpCommonHeaderSize + sizes.sum =
      g.sizeBytes + if timed then (report.map statusSize).sum else 0 := by
    rw [h.length_payloadBytes, h.size]
    omega
  have hle := hreport.le
  have hfits : g.payloadBytes.length + kRtcpCommonHeaderSize ≤ g.sizeBytes := by
    split_ifs at hlen <;> omega
  rw [readsBack_iff h.statusCount_ne hfits]
  by_cases hgood : sizes.sum = 0 ∨ (timed = true ∧ smallInTwo sizes bytes = false)
  · have hsame : report.map statusSize = sizes :=
      hreport.same (hgood.elim (smallInTwo_of_sum _) fun hsent => hsent.2)
    subst hsame
    have hbytes :
        (if timed then report.flatMap statusBytes else []) = report.flatMap statusBytes := by
      refine ite_eq_left_iff.2 fun hsent => ?_
      rcases hgood with hzero | hsent'
      · rw [← length_flatMap_statusBytes] at hzero
        exact (List.length_eq_zero_iff.1 hzero).symm
      · exact absurd hsent'.1 hsent
    have hexact : g.payloadBytes.length + kRtcpCommonHeaderSize = g.sizeBytes := by
      rcases hgood with hzero | ⟨rfl, -⟩
      · rw [hzero, ite_self] at hlen
        exact hlen
      · exact Nat.add_right_cancel hlen
    obtain ⟨again, hagain, hparse⟩ := parseFrom_packetBytes_of_length hmax hexact
    have hwire := h.wireStatuses_again hagain
    rw [hbytes] at hwire
    obtain ⟨k, deltaBytes, hk, hparsed⟩ := parse_report hwire hreport.range (create true true)
    refine iff_of_true ⟨k, hparse.trans hk, ?_⟩ hgood
    rw [hparsed.encodedStatuses, h.encodedStatuses, hparsed.received, hparsed.base_again hagain,
      h.received]
    exact ⟨rfl, rfl⟩
  · refine iff_of_false ?_ hgood
    rintro ⟨k, hk, -⟩
    obtain ⟨hsum, hlossy⟩ := not_or.1 hgood
    have hshort : g.payloadBytes.length + kRtcpCommonHeaderSize < g.sizeBytes := by
      cases timed with
      | false =>
        simp only [Bool.false_eq_true, if_false] at hlen
        omega
      | true =>
        have hless := hreport.less (by simpa using hlossy)
        simp only [if_true] at hlen
        omega
    rw [parseFrom_packetBytes_short hmax hshort] at hk
    cases hk

/-! ## The grammar -/

/-- What the format promises of a packet in memory and of the objects that it is parsed into. -/
structure Grammar {start : Nat} (mem : Nat → UInt8) (f : TransportFeedback)
    (h : BlockHeader start) : Prop where
  reads : h.Reads (TransportFeedback.parseBlock f h)
  chunks : ∀ g, (TransportFeedback.parseBlock f h).value mem = some g →
    kMinPayloadSizeBytes + 2 * g.encodedChunks.length ≤ h.payloadSize
  symbols : ∀ g, (TransportFeedback.parseBlock f h).value mem = some g →
    ∀ symbol ∈ g.encodedStatuses, symbol ≤ 2
  again : ∀ g, (TransportFeedback.parseBlock f h).value mem = some g → ReadsBack g

/-- A packet with too few bytes for its deltas has no reserved symbol; one with enough of them is
rejected for such a symbol, or has no deltas, or is parsed with timestamps and has no delta of two
bytes that fits into one. -/
def Lossless (f : TransportFeedback) (packet : CommonHeader) : Prop :=
  ∀ sizes bytes, wireStatuses packet = some (sizes, bytes) →
    if bytes.length < sizes.sum then 3 ∉ sizes
    else 3 ∈ sizes ∨ sizes.sum = 0 ∨ (f.includeTimestamps = true ∧ smallInTwo sizes bytes = false)

theorem wireStatuses_le_three (h : wireStatuses packet = some (sizes, bytes)) :
    ∀ size ∈ sizes, size ≤ 3 := by
  obtain ⟨-, -, chunks, lastChunk, hread⟩ := exists_readChunks h LastChunk.create
  exact (@parsed_noteAll packet _ _ h chunks lastChunk _ hread (create true true) [] true bytes 0
    (Nat.zero_add _).symm).toReadAs.le_three

section Memory

variable {start size : Nat} {mem : Nat → UInt8} {h : BlockHeader start}

section

variable (hparse : (BlockHeader.parse start size).value mem = some h)
include hparse

theorem sizeBytes_le_of_parse
    (hg : g.sizeBytes ≤ kRtcpCommonHeaderSize + (h.toCommonHeader mem).payload.length) :
    g.sizeBytes ≤ kMaxSizeBytes := by
  have hsize := ((Reading.safe_iff.1 (BlockHeader.safe_parse mem start size)).2 h hparse).1
  have hwords := readBigEndian_lt 2 (bytesAt mem (start + 2) 2)
  have hpayload : (h.toCommonHeader mem).payload.length = h.payloadSize := length_bytesAt ..
  unfold BlockHeader.declaredSize at hsize
  unfold kRtcpCommonHeaderSize at hg
  unfold kMaxSizeBytes
  omega

theorem Grammar.lossless (hgrammar : Grammar mem f h) : Lossless f (h.toCommonHeader mem) := by
  have hvalue := TransportFeedback.value_parseBlock mem f h
  intro sizes bytes hwire
  split_ifs with hroom
  · obtain ⟨g, hg⟩ := exists_parse hwire (fun hle => absurd hroom (not_lt.2 hle)) f
    obtain ⟨-, hparsed⟩ | ⟨hle, -⟩ := parse_spec hwire hg
    · have hsymbols := hgrammar.symbols g (hvalue.trans hg)
      rw [hparsed.encodedStatuses] at hsymbols
      intro hthree
      exact absurd (hsymbols 3 hthree) (by decide)
    · exact absurd hroom (not_lt.2 hle)
  · refine or_iff_not_imp_left.2 fun hthree => ?_
    have hvalid : ∀ symbol ∈ sizes, symbol ≤ 2 := by
      intro symbol hmem
      have hle := wireStatuses_le_three hwire symbol hmem
      have hne : symbol ≠ 3 := fun heq => hthree (heq ▸ hmem)
      omega
    obtain ⟨g, hg⟩ := exists_parse hwire (fun _ => hvalid) f
    obtain ⟨hlt, -⟩ | ⟨-, report, rest, hreport, hparsed⟩ := parse_spec hwire hg
    · exact absurd hlt hroom
    · exact (hparsed.readsBack_report hreport (sizeBytes_le_of_parse hparse hparsed.size_le)).1
        (hgrammar.again g (hvalue.trans hg))

theorem Lossless.accepted (hlossless : Lossless f (h.toCommonHeader mem))
    (hg : (TransportFeedback.parseBlock f h).value mem = some g) :
    kMinPayloadSizeBytes + 2 * g.encodedChunks.length ≤ h.payloadSize ∧
      (∀ symbol ∈ g.encodedStatuses, symbol ≤ 2) ∧ ReadsBack g := by
  have hpayload : (h.toCommonHeader mem).payload.length = h.payloadSize := length_bytesAt ..
  rw [TransportFeedback.value_parseBlock mem f h] at hg
  cases hwire : wireStatuses (h.toCommonHeader mem) with
  | none =>
    rw [parse_eq_none hwire] at hg
    cases hg
  | some found =>
    obtain ⟨sizes, bytes⟩ := found
    have hcond := hlossless sizes bytes hwire
    obtain ⟨hlt, hparsed⟩ | ⟨hle, report, rest, hreport, hparsed⟩ := parse_spec hwire hg
    · rw [if_pos hlt] at hcond
      refine ⟨?_, ?_, hparsed.readsBack_assumed (sizeBytes_le_of_parse hparse hparsed.size_le)
        (by omega)⟩
      · have hsizeBytes := hparsed.size
        have hsizeLe := hparsed.size_le
        unfold kMinPayloadSizeBytes
        omega
      · rw [hparsed.encodedStatuses]
        intro symbol hmem
        have hle := wireStatuses_le_three hwire symbol hmem
        have hne : symbol ≠ 3 := fun heq => hcond (heq ▸ hmem)
        omega
    · rw [if_neg (not_lt.2 hle)] at hcond
      refine ⟨?_, ?_, (hparsed.readsBack_report hreport
        (sizeBytes_le_of_parse hparse hparsed.size_le)).2 ?_⟩
      · have hsizeBytes := hparsed.size
        have hsizeLe := hparsed.size_le
        unfold kMinPayloadSizeBytes
        omega
      · rw [hparsed.encodedStatuses]
        exact hreport.valid
      · exact hcond.resolve_left fun hmem => absurd (hreport.valid 3 hmem) (by decide)

end

end Memory

/-- **The grammar of transport feedback.**  `Parse` reads only the payload, one chunk after the
other whatever they contribute.  That it accepts none but the symbols 0, 1 and 2, and that what it
accepted is written as a packet with the same statuses and deltas, is so exactly for a packet
without a reserved symbol when its deltas are missing, and, when they are there, without one of two
bytes that fits into one, parsed into an object with timestamps. -/
theorem grammar_iff {start : Nat} (mem : Nat → UInt8) (size : Nat) (h : BlockHeader start)
    (hparse : (BlockHeader.parse start size).value mem = some h) (f : TransportFeedback) :
    Grammar mem f h ↔ Lossless f (h.toCommonHeader mem) := by
  refine ⟨fun hgrammar => hgrammar.lossless hparse, fun hlossless => ?_⟩
  exact ⟨TransportFeedback.reads_parseBlock f h, fun g hg => (hlossless.accepted hparse hg).1,
    fun g hg => (hlossless.accepted hparse hg).2.1, fun g hg => (hlossless.accepted hparse hg).2.2⟩

/-- A feedback about one packet: its status chunk, and what stands behind it. -/
def oneStatus (chunk : U16) (behind : List UInt8) (address : Nat) : UInt8 :=
  ([0xAF, 205, 0, 5, 0, 0, 0, 1, 0, 0, 0, 2, 0, 7, 0, 1, 0, 0, 3, 9] ++
    writeBigEndian 2 chunk.toNat ++ behind).getD address 0

/-- One packet received, its delta in one byte. -/
theorem grammar_iff_oneByte :
    Grammar (oneStatus 0x2001 [5, 1]) (create true true)
      (⟨205, 15, 1, 19, by decide, by decide⟩ : BlockHeader 0) := by
  refine (grammar_iff (oneStatus 0x2001 [5, 1]) 24 _ (by decide +kernel) (create true true)).2 ?_
  intro sizes bytes hwire
  rw [show wireStatuses _ = some ([1], [5]) by decide +kernel] at hwire
  obtain ⟨rfl, rfl⟩ := Prod.mk.inj (Option.some.inj hwire)
  decide

/-- **The reserved symbol is accepted** in a packet without deltas. -/
theorem not_grammar_reserved :
    (BlockHeader.parse 0 24).value (oneStatus 0x6001 [0, 2]) =
        some ⟨205, 15, 2, 18, by decide, by decide⟩ ∧
      ¬ Grammar (oneStatus 0x6001 [0, 2]) (create true true)
        (⟨205, 15, 2, 18, by decide, by decide⟩ : BlockHeader 0) := by
  have hparse : (BlockHeader.parse 0 24).value (oneStatus 0x6001 [0, 2]) =
      some ⟨205, 15, 2, 18, by decide, by decide⟩ := by decide +kernel
  refine ⟨hparse, fun hgrammar => ?_⟩
  have hlossless := hgrammar.lossless hparse [3] [] (by decide +kernel)
  exact absurd hlossless (by decide)

end NaiveRtc.Rtcp
