import NaiveRtc.Lib.Machine
import NaiveRtc.Rtcp.TransportFeedbackReport

/-!
# When a transport feedback is consistent

`IsConsistent` recomputes every summary of a feedback from its chunks and its received
packets.  It is stated as a postcondition of all public methods; here is when it is one.

* `Matches` — the received packets are those the statuses announce, in order.
* `Tracks` — the invariant: the statuses are counted, their packets are listed and the last
  timestamp is the sum of the deltas.
* `isConsistent_iff` — what the check asks beyond it: that the base time fits into an `int`,
  and that the size counts the deltas exactly when they are sent.
* `feedbackMachine`, `feedback_consistent_iff` — a run is consistent throughout exactly when all
  its calls see to that.
-/

namespace NaiveRtc.Rtcp

open ByteIo LastChunk

namespace TransportFeedback

/-! ## The check -/

/-- `delta_us()` of a packet received. -/
def deltaUs (p : ReceivedPacket) : Int := p.deltaTicks.getD 0 * kDeltaScaleFactor

/-- The first loop of `IsConsistent`: the statuses of the encoded chunks, all read with the
same decoder. -/
def decodeChunks : LastChunk → List U16 → List Nat
  | _, [] => []
  | chunkDecoder, chunk :: chunks =>
    let chunkDecoder := chunkDecoder.decode chunk kMaxReportedPackets
    chunkDecoder.statuses ++ decodeChunks chunkDecoder chunks

/-- `delta_sizes` of `IsConsistent`. -/
def encodedStatuses (f : TransportFeedback) : List Nat :=
  decodeChunks LastChunk.create f.encodedChunks ++
    if f.lastChunk.empty then [] else f.lastChunk.statuses

/-- The second loop of `IsConsistent`, with what is left of the packets, the timestamp and
the size; `none` is `return false`. -/
def checkDeltas (includeTimestamps : Bool) : List Nat → U16 → List ReceivedPacket → Int → Nat →
    Option (List ReceivedPacket × Int × Nat)
  | [], _, packets, timestampUs, packetSize => some (packets, timestampUs, packetSize)
  | 0 :: deltaSizes, seqNo, packets, timestampUs, packetSize =>
    checkDeltas includeTimestamps deltaSizes (seqNo + 1) packets timestampUs packetSize
  | (_ + 1) :: _, _, [], _, _ => none
  | (n + 1) :: deltaSizes, seqNo, packet :: packets, timestampUs, packetSize =>
    if packet.sequenceNumber ≠ seqNo then none
    else if n + 1 = 1 ∧ (packet.deltaTicks.getD 0 < 0 ∨ 0xff < packet.deltaTicks.getD 0) then none
    else
      checkDeltas includeTimestamps deltaSizes (seqNo + 1) packets
        (timestampUs + deltaUs packet)
        (if includeTimestamps then packetSize + (n + 1) else packetSize)

/-- `refernce_time_ * kBaseScaleFactor`.  Both factors are `int`s, and the product is taken
before it is widened: beyond 32 bits it wraps. -/
def checkedBaseTimeUs (f : TransportFeedback) : Int :=
  (f.referenceTime * kBaseScaleFactor).bmod (2 ^ 32)

/-- `IsConsistent()`. -/
def isConsistent (f : TransportFeedback) : Bool :=
  let packetSize := kTransportFeedbackHeaderSizeBytes + kChunkSizeBytes * f.encodedChunks.length +
    if f.lastChunk.empty then 0 else kChunkSizeBytes
  let deltaSizes := f.encodedStatuses
  if f.statusCount ≠ deltaSizes.length then false
  else
    match checkDeltas f.includeTimestamps deltaSizes f.baseSeqNum f.receivedPackets
        f.checkedBaseTimeUs packetSize with
    | none => false
    | some (packets, timestampUs, packetSize) =>
      if packets ≠ [] then false
      else if timestampUs ≠ f.lastTimestampUs then false
      else if f.sizeBytes ≠ packetSize then false
      else true

/-- The feedback is consistent: the check says so, and the summaries are what they are
meant to be. -/
structure Consistent (f : TransportFeedback) : Prop where
  check : f.isConsistent = true
  count : f.statusCount = f.encodedStatuses.length
  size : f.sizeBytes = kTransportFeedbackHeaderSizeBytes + chunkBytes f +
    if f.includeTimestamps then f.encodedStatuses.sum else 0
  time : f.lastTimestampUs = f.getBaseTimeUs + (f.receivedPackets.map deltaUs).sum

end TransportFeedback

open TransportFeedback

/-! ## Statuses and packets -/

/-- The packets are those received according to the delta sizes, numbered from `seq` on. -/
inductive Matches : List Nat → U16 → List ReceivedPacket → Prop
  | nil (seq : U16) : Matches [] seq []
  | lost {sizes : List Nat} {seq : U16} {packets : List ReceivedPacket}
      (h : Matches sizes (seq + 1) packets) : Matches (0 :: sizes) seq packets
  | received {size : Nat} {delta : Int} {sizes : List Nat} {seq : U16}
      {packets : List ReceivedPacket} (hpos : 0 < size)
      (hbyte : size = 1 → 0 ≤ delta ∧ delta ≤ 0xff) (h : Matches sizes (seq + 1) packets) :
      Matches (size :: sizes) seq (⟨seq, some delta⟩ :: packets)

theorem succ_add_ofNat (seq : U16) (n : Nat) :
    seq + 1 + BitVec.ofNat 16 n = seq + BitVec.ofNat 16 (n + 1) := by
  rw [BitVec.ofNat_add, BitVec.add_assoc, BitVec.add_comm 1]
  rfl

variable {sizes : List Nat} {seq : U16} {packets : List ReceivedPacket}

theorem Matches.append {sizes' : List Nat} {packets' : List ReceivedPacket}
    (h : Matches sizes seq packets)
    (h' : Matches sizes' (seq + BitVec.ofNat 16 sizes.length) packets') :
    Matches (sizes ++ sizes') seq (packets ++ packets') := by
  induction h with
  | nil seq => simpa using h'
  | lost _ ih =>
    rw [List.length_cons, ← succ_add_ofNat] at h'
    exact Matches.lost (ih h')
  | received hpos hbyte _ ih =>
    rw [List.length_cons, ← succ_add_ofNat] at h'
    exact Matches.received hpos hbyte (ih h')

theorem checkDeltas_of_matches (h : Matches sizes seq packets) (includeTimestamps : Bool)
    (timestampUs : Int) (packetSize : Nat) :
    checkDeltas includeTimestamps sizes seq packets timestampUs packetSize =
      some ([], timestampUs + (packets.map deltaUs).sum,
        packetSize + if includeTimestamps then sizes.sum else 0) := by
  induction h generalizing timestampUs packetSize with
  | nil seq => simp [checkDeltas]
  | lost _ ih =>
    rw [checkDeltas, ih]
    simp
  | @received size delta _ _ _ hpos hbyte _ ih =>
    obtain ⟨n, rfl⟩ := Nat.exists_eq_add_of_lt hpos
    rw [Nat.zero_add] at hbyte ⊢
    have hfits : ¬ (n + 1 = 1 ∧ (delta < 0 ∨ 0xff < delta)) := by
      rintro ⟨hone, hout⟩
      have := hbyte hone
      omega
    rw [checkDeltas, if_neg (fun hne => hne rfl), Option.getD_some, if_neg hfits, ih,
      List.map_cons, List.sum_cons, List.sum_cons, ← Int.add_assoc]
    cases includeTimestamps
    · rfl
    · simp only [if_true, Nat.add_assoc]

/-! ## The invariant -/

variable {f g : TransportFeedback} {d : Nat}

/-- The chunks and the open chunk are read as `sizes`. -/
def Lists (f : TransportFeedback) (sizes : List Nat) : Prop :=
  ∃ last, Keeps f.lastChunk last ∧
    sizes = f.encodedChunks.flatMap (fun chunk => decoded chunk kMaxReportedPackets) ++ last

theorem decodeChunks_eq (c : LastChunk) (chunks : List U16) :
    decodeChunks c chunks = chunks.flatMap (fun chunk => decoded chunk kMaxReportedPackets) := by
  induction chunks generalizing c with
  | nil => rfl
  | cons chunk chunks ih => simp only [decodeChunks, List.flatMap_cons, ih, statuses_decode]

theorem Lists.encodedStatuses_eq (h : Lists f sizes) : f.encodedStatuses = sizes := by
  obtain ⟨last, hlast, rfl⟩ := h
  unfold encodedStatuses
  rw [decodeChunks_eq]
  by_cases hempty : f.lastChunk.empty = true
  · rw [if_pos hempty, hlast.empty_iff.1 hempty]
  · rw [if_neg hempty, hlast.statuses]

/-- The statuses of the feedback are counted, their packets are listed, and the last
timestamp is the sum of the deltas. -/
structure Tracks (f : TransportFeedback) (sizes : List Nat) : Prop where
  lists : Lists f sizes
  count : f.statusCount = sizes.length
  received : Matches sizes f.baseSeqNum f.receivedPackets
  time : f.lastTimestampUs = f.getBaseTimeUs + (f.receivedPackets.map deltaUs).sum

/-- The size counts the header, the chunks and, when they are sent, the deltas. -/
def SizeAgrees (f : TransportFeedback) (sizes : List Nat) : Prop :=
  f.sizeBytes = kTransportFeedbackHeaderSizeBytes + chunkBytes f +
    if f.includeTimestamps then sizes.sum else 0

/-- The value fits into an `int`. -/
def FitsInt (value : Int) : Prop := -2 ^ 31 ≤ value ∧ value < 2 ^ 31

instance (value : Int) : Decidable (FitsInt value) :=
  inferInstanceAs (Decidable (_ ∧ _))

theorem bmod_eq_iff_fitsInt (value : Int) : value.bmod (2 ^ 32) = value ↔ FitsInt value := by
  constructor
  · intro h
    have hlow : -(2 ^ 32 : Int) / 2 ≤ value.bmod (2 ^ 32) := Int.le_bmod (by decide)
    have hhigh : value.bmod (2 ^ 32) < (2 ^ 32 + 1) / 2 := Int.bmod_lt (by decide)
    unfold FitsInt
    omega
  · rintro ⟨hlow, hhigh⟩
    rw [Int.bmod_eq_of_le]
    · omega
    · omega

theorem isConsistent_iff (h : Tracks f sizes) :
    f.isConsistent = true ↔ FitsInt f.getBaseTimeUs ∧ SizeAgrees f sizes := by
  have hbase : f.checkedBaseTimeUs = f.getBaseTimeUs ↔ FitsInt f.getBaseTimeUs :=
    bmod_eq_iff_fitsInt _
  unfold isConsistent
  rw [h.lists.encodedStatuses_eq]
  dsimp only
  rw [if_neg (not_not.2 h.count), checkDeltas_of_matches h.received]
  dsimp only
  rw [if_neg (not_not.2 rfl), h.time, ← hbase, SizeAgrees, chunkBytes, ← Nat.add_assoc]
  generalize _ + (if f.includeTimestamps = true then sizes.sum else 0) = total
  by_cases htime : f.checkedBaseTimeUs = f.getBaseTimeUs
  · rw [if_neg (not_not.2 (by rw [htime]))]
    by_cases hsize : f.sizeBytes = total
    · rw [if_neg (not_not.2 hsize)]
      exact iff_of_true rfl ⟨htime, hsize⟩
    · rw [if_pos hsize]
      exact iff_of_false Bool.false_ne_true fun hc => hsize hc.2
  · rw [if_pos fun heq => htime (add_right_cancel heq)]
    exact iff_of_false Bool.false_ne_true fun hc => htime hc.1

theorem consistent_iff_of_tracks (h : Tracks f sizes) :
    f.Consistent ↔ FitsInt f.getBaseTimeUs ∧ SizeAgrees f sizes := by
  have hsizes := h.lists.encodedStatuses_eq
  refine ⟨fun hc => (isConsistent_iff h).1 hc.check, fun hc => ?_⟩
  refine ⟨(isConsistent_iff h).2 hc, ?_, ?_, h.time⟩
  · rw [hsizes]
    exact h.count
  · rw [hsizes]
    exact hc.2

/-! ## Adding packets -/

theorem lists_addDeltaSize (h : Lists f sizes) (hd : d ≤ 2) (hadd : f.addDeltaSize d = some g) :
    Lists g (sizes ++ [d]) := by
  obtain ⟨last, hlast, rfl⟩ := h
  obtain ⟨-, ⟨hcan, -, rfl⟩ | ⟨hcan, -, rfl⟩⟩ := addDeltaSize_cases hadd
  · exact ⟨last ++ [d], keeps_add hlast hd hcan, List.append_assoc _ _ _⟩
  · obtain ⟨ys, zs, rfl, -, hrest, hlen, hdec⟩ := emit_spec hlast hcan
    have hroom : f.lastChunk.emit.2.canAdd d = true :=
      canAdd_iff.mpr (Or.inl (by rw [hrest.size]; exact hlen))
    have hys : ys.length ≤ kMaxReportedPackets := by
      have hfits := hlast.fits
      simp only [List.length_append, kMaxTwoBitCapacity, kMaxOneBitCapacity,
        kMaxRunLengthCapacity] at hfits
      unfold kMaxReportedPackets
      omega
    have hchunk : decoded f.lastChunk.emit.1 kMaxReportedPackets = ys := by
      rw [← statuses_decode LastChunk.create]
      exact hdec _ _ hys
    refine ⟨zs ++ [d], keeps_add hrest.keeps hd hroom, ?_⟩
    simp [List.flatMap_append, hchunk]

/-- The feedback keeps track of its packets, and its size agrees. -/
structure Sound (f : TransportFeedback) (sizes : List Nat) : Prop extends Tracks f sizes where
  size : SizeAgrees f sizes

/-- **One more status**: a feedback with the status added, its packet listed and its delta
counted. -/
theorem Sound.snoc (h : Sound f sizes) (hd : d ≤ 2) (hadd : f.addDeltaSize d = some g)
    {g' : TransportFeedback} (hlast : g'.lastChunk = g.lastChunk)
    (hchunks : g'.encodedChunks = g.encodedChunks) (hcount : g'.statusCount = g.statusCount)
    (hsame : SameHeader f g') {packets : List ReceivedPacket}
    (hmatch : Matches [d] f.nextSeqNo packets)
    (hreceived : g'.receivedPackets = f.receivedPackets ++ packets)
    (htime : g'.lastTimestampUs = f.lastTimestampUs + (packets.map deltaUs).sum)
    (hsize : g'.sizeBytes = g.sizeBytes + if f.includeTimestamps then d else 0) :
    Sound g' (sizes ++ [d]) := by
  obtain ⟨-, hcount', -, hbytes, -⟩ := addDeltaSize_sizes hadd
  have hbase : g'.getBaseTimeUs = f.getBaseTimeUs := by
    unfold TransportFeedback.getBaseTimeUs
    rw [hsame.referenceTime]
  refine ⟨⟨?_, ?_, ?_, ?_⟩, ?_⟩
  · obtain ⟨last, hkeeps, hsizes⟩ := lists_addDeltaSize h.lists hd hadd
    exact ⟨last, hlast ▸ hkeeps, by rw [hchunks]; exact hsizes⟩
  · rw [hcount, hcount', h.count, List.length_append, List.length_singleton]
  · rw [hreceived, hsame.baseSeqNum]
    refine h.received.append ?_
    rw [← h.count]
    exact hmatch
  · rw [htime, hbase, hreceived, h.time, List.map_append, List.sum_append, Int.add_assoc]
  · have hold := h.size
    unfold SizeAgrees at hold ⊢
    have hopen : chunkBytes g' = chunkBytes g := by
      unfold chunkBytes
      rw [hlast, hchunks]
    rw [hsize, hopen, hsame.includeTimestamps, List.sum_append, List.sum_singleton]
    split_ifs at hold ⊢ <;> omega

theorem Sound.noteLost (h : Sound f sizes) (hadd : f.addDeltaSize 0 = some g) (seqNo : U16) :
    Sound (g.noteLost seqNo) (sizes ++ [0]) ∧ SameHeader f (g.noteLost seqNo) := by
  obtain ⟨hsame, -⟩ := addDeltaSize_sizes hadd
  have hheader : SameHeader f (g.noteLost seqNo) := ⟨hsame.senderSsrc, hsame.mediaSsrc,
    hsame.includeLost, hsame.baseSeqNum, hsame.referenceTime, hsame.feedbackSeq,
    hsame.includeTimestamps⟩
  refine ⟨h.snoc (by decide) hadd rfl rfl rfl hheader (Matches.lost (Matches.nil _)) ?_ ?_ ?_,
    hheader⟩
  · rw [List.append_nil]
    exact hsame.receivedPackets
  · exact hsame.lastTimestampUs.trans (Int.add_zero _).symm
  · simp [TransportFeedback.noteLost]

theorem Sound.addMissing (h : Sound f sizes) (seqNo : U16) (gap : Nat) :
    ∃ k, Sound (f.addMissing seqNo gap).2 (sizes ++ List.replicate k 0) ∧
      SameHeader f (f.addMissing seqNo gap).2 ∧
      ((f.addMissing seqNo gap).1 = true → k = gap) := by
  induction gap generalizing f sizes seqNo with
  | zero =>
    refine ⟨0, ?_, SameHeader.refl f, fun _ => rfl⟩
    simpa [TransportFeedback.addMissing] using h
  | succ gap ih =>
    unfold TransportFeedback.addMissing
    cases hadd : f.addDeltaSize 0 with
    | none => exact ⟨0, by simpa using h, SameHeader.refl f, by simp⟩
    | some g =>
      obtain ⟨hlost, hsame⟩ := h.noteLost hadd seqNo
      obtain ⟨k, hk, hsame', hall⟩ := ih hlost (seqNo + 1)
      refine ⟨k + 1, ?_, hsame.trans hsame', fun htrue => by rw [hall htrue]⟩
      rw [List.replicate_succ]
      simpa using hk

theorem deltaSizeOf_eq_one {delta : Int} (h : deltaSizeOf delta = 1) :
    0 ≤ delta ∧ delta ≤ 0xff := by
  unfold TransportFeedback.deltaSizeOf at h
  by_cases hsmall : 0 ≤ delta ∧ delta ≤ 0xff
  · exact hsmall
  · rw [if_neg hsmall] at h
    exact absurd h (by decide)

theorem deltaSizeOf_pos (delta : Int) : 0 < deltaSizeOf delta := by
  unfold TransportFeedback.deltaSizeOf
  split_ifs <;> decide

theorem Sound.addReceivedPacket (h : Sound f sizes) (seqNo : U16) (timestampUs : Int) :
    ∃ sizes', Sound (f.addReceivedPacket seqNo timestampUs).2 sizes' ∧
      SameHeader f (f.addReceivedPacket seqNo timestampUs).2 := by
  unfold TransportFeedback.addReceivedPacket
  cases hdelta : f.deltaOf timestampUs with
  | none => exact ⟨sizes, h, SameHeader.refl f⟩
  | some delta =>
    dsimp only
    by_cases horder : seqNo ≠ f.nextSeqNo ∧ WrapAround.aheadOf seqNo (f.nextSeqNo - 1) = false
    · rw [if_pos horder]
      exact ⟨sizes, h, SameHeader.refl f⟩
    · rw [if_neg horder]
      obtain ⟨k, hk, hsame, hall⟩ := h.addMissing f.nextSeqNo (seqNo - f.nextSeqNo).toNat
      generalize f.addMissing f.nextSeqNo (seqNo - f.nextSeqNo).toNat = result at hk hsame hall
      obtain ⟨ok, g⟩ := result
      cases ok with
      | false => exact ⟨_, hk, hsame⟩
      | true =>
        have hgap : k = (seqNo - f.nextSeqNo).toNat := hall rfl
        dsimp only at hk hsame ⊢
        -- after the numbers skipped it is the turn of `seqNo`
        have hseq : g.nextSeqNo = seqNo := by
          rw [TransportFeedback.nextSeqNo, hk.count, hsame.baseSeqNum, List.length_append,
            List.length_replicate, hgap, ← h.count, BitVec.ofNat_add, ← BitVec.add_assoc,
            BitVec.ofNat_toNat, BitVec.setWidth_eq]
          show f.nextSeqNo + (seqNo - f.nextSeqNo) = seqNo
          rw [BitVec.add_comm, BitVec.sub_add_cancel]
        cases hadd : g.addDeltaSize (deltaSizeOf delta) with
        | none => exact ⟨_, hk, hsame⟩
        | some g' =>
          obtain ⟨hsame', -⟩ := addDeltaSize_sizes hadd
          have hmatch : Matches [deltaSizeOf delta] g.nextSeqNo [⟨seqNo, some delta⟩] := by
            rw [hseq]
            exact Matches.received (deltaSizeOf_pos delta) deltaSizeOf_eq_one (Matches.nil _)
          have hheader : SameHeader g { g'.noteReceived seqNo delta with
              sizeBytes := if (g'.noteReceived seqNo delta).includeTimestamps then
                (g'.noteReceived seqNo delta).sizeBytes + deltaSizeOf delta
                else (g'.noteReceived seqNo delta).sizeBytes } :=
            ⟨hsame'.senderSsrc, hsame'.mediaSsrc, hsame'.includeLost, hsame'.baseSeqNum,
              hsame'.referenceTime, hsame'.feedbackSeq, hsame'.includeTimestamps⟩
          refine ⟨_, hk.snoc (statusSize_le (some delta)) hadd rfl rfl rfl hheader hmatch ?_ ?_ ?_,
            hsame.trans hheader⟩
          · exact congrArg (· ++ [(⟨seqNo, some delta⟩ : ReceivedPacket)]) hsame'.receivedPackets
          · show g'.lastTimestampUs + delta * kDeltaScaleFactor = _
            rw [hsame'.lastTimestampUs]
            simp [deltaUs]
          · show (if g'.includeTimestamps = true then g'.sizeBytes + _ else g'.sizeBytes) = _
            rw [hsame'.includeTimestamps]
            split_ifs <;> rfl

/-! ## Parsing -/

/-- What the loop over the status chunks has read so far, of `count` statuses. -/
structure ReadSoFar (count : Nat) (sizes : List Nat) (chunks : List U16) (c : LastChunk) :
    Prop where
  le : sizes.length ≤ count
  more : sizes.length < count →
    sizes = chunks.flatMap (fun chunk => decoded chunk kMaxReportedPackets)
  done : sizes.length = count → ∃ last, chunks ≠ [] ∧ last ≠ [] ∧ Keeps c last ∧
    sizes = chunks.dropLast.flatMap (fun chunk => decoded chunk kMaxReportedPackets) ++ last

variable {count : Nat}

theorem readSoFar_nil (hcount : count ≠ 0) (c : LastChunk) :
    ReadSoFar count [] [] c :=
  ⟨Nat.zero_le _, fun _ => rfl, fun h0 => absurd h0.symm hcount⟩

theorem ReadSoFar.chunk {chunks : List U16} {c : LastChunk}
    (h : ReadSoFar count sizes chunks c) (hcount : count ≤ kMaxReportedPackets)
    (hmore : sizes.length < count) (chunk : U16) :
    ReadSoFar count (sizes ++ (c.decode chunk (count - sizes.length)).statuses)
      (chunks ++ [chunk]) (c.decode chunk (count - sizes.length)) := by
  have hlen := length_decoded_le chunk (count - sizes.length)
  have hkeeps := keeps_decode c chunk (count - sizes.length)
  rw [statuses_decode]
  generalize hread : decoded chunk (count - sizes.length) = statuses at hlen hkeeps ⊢
  refine ⟨?_, ?_, ?_⟩
  · rw [List.length_append]
    omega
  · intro hlt
    rw [List.length_append] at hlt
    have hfull : decoded chunk kMaxReportedPackets = statuses := by
      rw [← hread]
      exact decoded_of_lt (by rw [hread]; omega) (by omega)
    simp [h.more hmore, hfull]
  · intro hdone
    rw [List.length_append] at hdone
    refine ⟨statuses, by simp, ?_, hkeeps, ?_⟩
    · rintro rfl
      rw [List.length_nil] at hdone
      omega
    · rw [List.dropLast_concat, ← h.more hmore]

theorem readChunks_spec (hcount : count ≤ kMaxReportedPackets)
    {bytes bytes' : List UInt8} {sizes sizes' : List Nat} {chunks chunks' : List U16}
    {c c' : LastChunk} (h : ReadSoFar count sizes chunks c)
    (hread : readChunks count bytes sizes chunks c = some (sizes', chunks', c', bytes')) :
    ReadSoFar count sizes' chunks' c' ∧ sizes'.length = count ∧
      2 * chunks.length + bytes.length = 2 * chunks'.length + bytes'.length := by
  fun_induction readChunks count bytes sizes chunks c with
  | case1 bytes sizes chunks c hdone =>
    cases hread
    exact ⟨h, le_antisymm h.le hdone, rfl⟩
  | case2 sizes chunks c hmore high low rest chunk c'' ih =>
    obtain ⟨hsoFar, hlen, hbytes⟩ := ih (h.chunk hcount (not_le.1 hmore) chunk) hread
    refine ⟨hsoFar, hlen, ?_⟩
    rw [List.length_append, List.length_singleton] at hbytes
    rw [List.length_cons, List.length_cons]
    omega
  | case3 => cases hread

/-- The fields that reading the deltas leaves alone. -/
structure SameButPackets (f g : TransportFeedback) : Prop extends SameHeader f g where
  statusCount : g.statusCount = f.statusCount
  encodedChunks : g.encodedChunks = f.encodedChunks
  lastChunk : g.lastChunk = f.lastChunk

/-- The packets that match the statuses are listed, and their deltas are added up. -/
structure Notes (f g : TransportFeedback) (sizes : List Nat) (seqNo : U16) : Prop extends
    SameButPackets f g where
  notes : ∃ packets, Matches sizes seqNo packets ∧
    g.receivedPackets = f.receivedPackets ++ packets ∧
    g.lastTimestampUs = f.lastTimestampUs + (packets.map deltaUs).sum

theorem Notes.nil (f : TransportFeedback) (seqNo : U16) : Notes f f [] seqNo :=
  ⟨⟨SameHeader.refl f, rfl, rfl, rfl⟩, [], Matches.nil _, by simp, by simp⟩

variable {seqNo : U16}

theorem Notes.lost {k : TransportFeedback}
    (h : Notes (f.noteLost seqNo) k sizes (seqNo + 1)) : Notes f k (0 :: sizes) seqNo := by
  obtain ⟨⟨hheader, hcount, hchunks, hlast⟩, packets, hmatch, hreceived, htime⟩ := h
  exact ⟨⟨⟨hheader.1, hheader.2, hheader.3, hheader.4, hheader.5, hheader.6, hheader.7⟩, hcount,
    hchunks, hlast⟩, packets, Matches.lost hmatch, hreceived, htime⟩

theorem Notes.received {k : TransportFeedback} {size : Nat} {delta : Int}
    (hpos : 0 < size) (hbyte : size = 1 → 0 ≤ delta ∧ delta ≤ 0xff)
    (h : Notes (f.noteReceived seqNo delta) k sizes (seqNo + 1)) :
    Notes f k (size :: sizes) seqNo := by
  obtain ⟨⟨hheader, hcount, hchunks, hlast⟩, packets, hmatch, hreceived, htime⟩ := h
  refine ⟨⟨⟨hheader.1, hheader.2, hheader.3, hheader.4, hheader.5, hheader.6, hheader.7⟩, hcount,
    hchunks, hlast⟩, ⟨seqNo, some delta⟩ :: packets, Matches.received hpos hbyte hmatch, ?_, ?_⟩
  · rw [hreceived]
    simp [noteReceived]
  · rw [htime]
    simp [noteReceived, deltaUs, Int.add_assoc]

theorem readDeltas_spec {bytes rest : List UInt8}
    (hread : readDeltas sizes f seqNo bytes = some (g, rest)) :
    Notes f g sizes seqNo ∧ bytes.length = sizes.sum + rest.length := by
  fun_induction readDeltas sizes f seqNo bytes with
  | case1 f seqNo bytes =>
    cases hread
    exact ⟨Notes.nil _ _, by simp⟩
  | case2 sizes f seqNo bytes ih =>
    obtain ⟨hnotes, hlen⟩ := ih hread
    exact ⟨hnotes.lost, by simpa using hlen⟩
  | case3 sizes f seqNo byte bytes ih =>
    obtain ⟨hnotes, hlen⟩ := ih hread
    refine ⟨hnotes.received (by decide) fun _ => ?_, ?_⟩
    · have := byte.toNat_lt
      omega
    · rw [List.length_cons, hlen, List.sum_cons]
      omega
  | case4 sizes f seqNo high low bytes ih =>
    obtain ⟨hnotes, hlen⟩ := ih hread
    refine ⟨hnotes.received (by decide) fun htwo => absurd htwo (by decide), ?_⟩
    rw [List.length_cons, List.length_cons, hlen, List.sum_cons]
    omega
  | case5 => cases hread

theorem assumeDeltas_spec (f : TransportFeedback) (seqNo : U16) (sizes : List Nat) :
    Notes f (assumeDeltas sizes f seqNo) sizes seqNo := by
  induction sizes generalizing f seqNo with
  | nil => exact Notes.nil f seqNo
  | cons size sizes ih =>
    rw [assumeDeltas]
    by_cases hpos : 0 < size
    · rw [if_pos hpos]
      exact (ih _ _).received hpos fun _ => by decide
    · rw [if_neg hpos]
      obtain rfl : size = 0 := Nat.eq_zero_of_not_pos hpos
      exact (ih _ _).lost

/-- Does the packet carry receive deltas?  There are some, and `Parse` finds room for them. -/
def carriesDeltas (packet : CommonHeader) : Bool :=
  match readChunks (readBigEndian 2 (packet.payload.drop 10)) (packet.payload.drop 16) [] []
      LastChunk.create with
  | some (deltaSizes, _, _, bytes) => decide (0 < deltaSizes.sum ∧ deltaSizes.sum ≤ bytes.length)
  | none => false

theorem readChunks_congr (count : Nat) (bytes : List UInt8) (sizes : List Nat)
    (chunks : List U16) (c c' : LastChunk) :
    (readChunks count bytes sizes chunks c).map (fun r => (r.1, r.2.2.2)) =
      (readChunks count bytes sizes chunks c').map (fun r => (r.1, r.2.2.2)) := by
  fun_induction readChunks count bytes sizes chunks c generalizing c' with
  | case1 bytes sizes chunks c hdone =>
    rw [readChunks.eq_def count bytes sizes chunks c']
    dsimp only
    rw [if_pos hdone]
    rfl
  | case2 sizes chunks c hmore high low rest chunk c'' ih =>
    rw [readChunks.eq_def count (high :: low :: rest) sizes chunks c']
    dsimp only
    rw [if_neg hmore, ih (c'.decode chunk (count - sizes.length)), statuses_decode,
      statuses_decode]
  | case3 bytes sizes chunks c hmore hshort =>
    rw [readChunks.eq_def count bytes sizes chunks c']
    dsimp only
    rw [if_neg hmore]
    split
    · exact absurd rfl (hshort _ _ _)
    · rfl

variable {packet : CommonHeader}

theorem carriesDeltas_of_read {c c' : LastChunk} {chunks : List U16} {bytes : List UInt8}
    (hread : readChunks (readBigEndian 2 (packet.payload.drop 10)) (packet.payload.drop 16)
      [] [] c = some (sizes, chunks, c', bytes)) :
    carriesDeltas packet = true ↔ 0 < sizes.sum ∧ sizes.sum ≤ bytes.length := by
  have hsame := readChunks_congr (readBigEndian 2 (packet.payload.drop 10)) (packet.payload.drop 16)
    [] [] c LastChunk.create
  rw [hread] at hsame
  obtain ⟨r, hr, heq⟩ := Option.map_eq_some_iff.1 hsame.symm
  obtain ⟨rfl, rfl⟩ := Prod.mk.inj heq
  unfold carriesDeltas
  rw [hr]
  exact decide_eq_true_iff

/-- The feedback after the header of `packet` and the status chunks have been read. -/
def TransportFeedback.withStatuses (f : TransportFeedback) (packet : CommonHeader)
    (sizes : List Nat) (chunks : List U16) (lastChunk : LastChunk) (includeTimestamps : Bool) :
    TransportFeedback :=
  { clear { f with
      senderSsrc := BitVec.ofNat 32 (readBigEndian 4 packet.payload)
      mediaSsrc := BitVec.ofNat 32 (readBigEndian 4 (packet.payload.drop 4))
      baseSeqNum := BitVec.ofNat 16 (readBigEndian 2 (packet.payload.drop 8))
      referenceTime := readSigned 3 (packet.payload.drop 12)
      feedbackSeq := packet.payload.getD 15 0 } with
    encodedChunks := chunks.dropLast
    lastChunk := lastChunk
    statusCount := sizes.length
    includeTimestamps := includeTimestamps }

theorem readStatusCount_le (packet : CommonHeader) :
    readBigEndian 2 (packet.payload.drop 10) ≤ kMaxReportedPackets :=
  Nat.le_of_lt_succ (readBigEndian_lt 2 _)

/-- **What a successful `Parse` has read**: the statuses, and then the deltas, if there is room
for them. -/
theorem parse_cases (h : f.parse packet = some g) :
    ∃ sizes chunks lastChunk bytes k rest,
      readChunks (readBigEndian 2 (packet.payload.drop 10)) (packet.payload.drop 16) [] []
          f.lastChunk.clear = some (sizes, chunks, lastChunk, bytes) ∧
        0 < readBigEndian 2 (packet.payload.drop 10) ∧ 16 ≤ packet.payload.length ∧
        g = { k with sizeBytes := kRtcpCommonHeaderSize + (packet.payload.length - rest.length) } ∧
        ((sizes.sum ≤ bytes.length ∧
            readDeltas sizes (f.withStatuses packet sizes chunks lastChunk f.includeTimestamps)
              (BitVec.ofNat 16 (readBigEndian 2 (packet.payload.drop 8))) bytes = some (k, rest)) ∨
          (bytes.length < sizes.sum ∧ rest = bytes ∧
            k = assumeDeltas sizes (f.withStatuses packet sizes chunks lastChunk false)
              (BitVec.ofNat 16 (readBigEndian 2 (packet.payload.drop 8))))) := by
  unfold TransportFeedback.parse at h
  dsimp only at h
  split_ifs at h with hlen hzero
  split at h
  · cases h
  · rename_i sizes chunks lastChunk bytes hread
    obtain ⟨⟨k, rest⟩, hparsed, rfl⟩ := Option.map_eq_some_iff.1 h
    obtain ⟨-, hsizes, -⟩ := readChunks_spec (readStatusCount_le packet)
      (readSoFar_nil hzero _) hread
    rw [← hsizes] at hparsed
    refine ⟨sizes, chunks, lastChunk, bytes, k, rest, hread, Nat.pos_of_ne_zero hzero, ?_, rfl, ?_⟩
    · unfold kMinPayloadSizeBytes at hlen
      omega
    · by_cases hroom : sizes.sum ≤ bytes.length
      · rw [if_pos hroom] at hparsed
        exact Or.inl ⟨hroom, hparsed⟩
      · rw [if_neg hroom] at hparsed
        obtain ⟨rfl, rfl⟩ := Prod.mk.inj (Option.some.inj hparsed)
        exact Or.inr ⟨not_le.1 hroom, rfl, rfl⟩

/-- **A successful `Parse` tracks what it read.**  The size agrees unless deltas were read by
a feedback that does not include timestamps. -/
theorem tracks_parse (h : f.parse packet = some g) :
    ∃ sizes, Tracks g sizes ∧
      g.getBaseTimeUs = readSigned 3 (packet.payload.drop 12) * kBaseScaleFactor ∧
      (SizeAgrees g sizes ↔ f.includeTimestamps = true ∨ carriesDeltas packet = false) := by
  obtain ⟨sizes, chunks, lastChunk, bytes, k, rest, hread, hpos, hlen, rfl, hdeltas⟩ :=
    parse_cases h
  have hcarries := carriesDeltas_of_read hread
  obtain ⟨hsoFar, hsizes, hbytes⟩ := readChunks_spec (readStatusCount_le packet)
    (readSoFar_nil hpos.ne' _) hread
  obtain ⟨last, hchunks, hlast, hkeeps, hlists⟩ := hsoFar.done hsizes
  rw [List.length_nil, Nat.mul_zero, Nat.zero_add, List.length_drop] at hbytes
  -- the notes taken of the packets, whether their deltas were in the packet or not
  obtain ⟨includeTimestamps, hnotes, hrest, hagree⟩ : ∃ includeTimestamps,
      Notes (f.withStatuses packet sizes chunks lastChunk includeTimestamps) k sizes
        (BitVec.ofNat 16 (readBigEndian 2 (packet.payload.drop 8))) ∧
      rest.length ≤ bytes.length ∧
      (bytes.length = rest.length + (if includeTimestamps then sizes.sum else 0) ↔
        f.includeTimestamps = true ∨ carriesDeltas packet = false) := by
    rcases hdeltas with ⟨hroom, hread⟩ | ⟨hroom, rfl, rfl⟩
    · obtain ⟨hnotes, hrest⟩ := readDeltas_spec hread
      refine ⟨f.includeTimestamps, hnotes, by omega, ?_⟩
      rw [← Bool.not_eq_true, hcarries]
      cases f.includeTimestamps
      · simp only [Bool.false_eq_true, if_false, false_or]
        omega
      · simp only [if_true, true_or, iff_true]
        omega
    · refine ⟨false, assumeDeltas_spec _ _ _, le_refl _, ?_⟩
      rw [← Bool.not_eq_true, hcarries]
      simp only [Bool.false_eq_true, if_false]
      omega
  obtain ⟨⟨hheader, hcount, hencoded, hopen⟩, packets, hmatch, hreceived, htime⟩ := hnotes
  have hbase : k.getBaseTimeUs = readSigned 3 (packet.payload.drop 12) * kBaseScaleFactor := by
    unfold TransportFeedback.getBaseTimeUs
    rw [hheader.referenceTime]
    rfl
  refine ⟨sizes, ⟨⟨last, ?_, ?_⟩, hcount, ?_, ?_⟩, hbase, ?_⟩
  · show Keeps k.lastChunk last
    rw [hopen]
    exact hkeeps
  · show sizes = k.encodedChunks.flatMap _ ++ last
    rw [hencoded]
    exact hlists
  · show Matches sizes k.baseSeqNum k.receivedPackets
    rw [hheader.baseSeqNum, hreceived]
    exact hmatch
  · show k.lastTimestampUs = k.getBaseTimeUs + (k.receivedPackets.map deltaUs).sum
    rw [htime, hreceived, hbase]
    rfl
  · rw [← hagree]
    have hnonempty : k.lastChunk.empty = false := by
      rw [hopen, Bool.eq_false_iff]
      exact fun hempty => hlast (hkeeps.empty_iff.1 hempty)
    have hchunkBytes : chunkBytes k = 2 * chunks.length := by
      have hne := List.length_pos_iff.2 hchunks
      have hdrop : k.encodedChunks.length = chunks.length - 1 := by
        rw [hencoded]
        exact List.length_dropLast
      unfold chunkBytes kChunkSizeBytes
      rw [hnonempty, hdrop, if_neg Bool.false_ne_true]
      omega
    have hinclude : k.includeTimestamps = includeTimestamps := hheader.includeTimestamps
    show kRtcpCommonHeaderSize + (packet.payload.length - rest.length) =
      kTransportFeedbackHeaderSizeBytes + chunkBytes k +
        (if k.includeTimestamps then sizes.sum else 0) ↔ _
    rw [hchunkBytes, hinclude]
    unfold kRtcpCommonHeaderSize kTransportFeedbackHeaderSizeBytes
    generalize (if includeTimestamps = true then sizes.sum else 0) = sent at hagree ⊢
    omega

/-! ## Runs -/

/-- A call of one of the public methods that change a feedback. -/
inductive FeedbackCall
  | setBase (baseSequence : U16) (refTimestampUs : Int)
  | addReceivedPacket (sequenceNumber : U16) (timestampUs : Int)
  | parse (buffer : List UInt8)
  deriving DecidableEq

/-- The header of a transport feedback at the start of a buffer. -/
def feedbackHeader (buffer : List UInt8) : Option CommonHeader :=
  (CommonHeader.parse buffer).filter fun header =>
    header.packetType = UInt8.ofNat kPacketType ∧
      header.countOrFmt = UInt8.ofNat kFeedbackMessageType

/-- `Parse` of the packet at the start of a buffer. -/
def TransportFeedback.parseBuffer (f : TransportFeedback) (buffer : List UInt8) :
    Option TransportFeedback :=
  (feedbackHeader buffer).bind f.parse

/-- A feedback and the calls made on it. -/
def feedbackMachine : Machine TransportFeedback FeedbackCall Unit where
  step f
    | .setBase baseSequence refTimestampUs => (f.setBase baseSequence refTimestampUs, ())
    | .addReceivedPacket sequenceNumber timestampUs =>
      ((f.addReceivedPacket sequenceNumber timestampUs).2, ())
    | .parse buffer => ((f.parseBuffer buffer).getD f, ())

/-- The calls the methods are made for: `SetBase` asserts that nothing was reported yet and
that the time is not negative, and a buffer is one that is parsed. -/
def Allowed (f : TransportFeedback) : FeedbackCall → Prop
  | .setBase _ refTimestampUs => f.statusCount = 0 ∧ 0 ≤ refTimestampUs
  | .addReceivedPacket _ _ => True
  | .parse buffer => (f.parseBuffer buffer).isSome = true

/-- The calls that leave a feedback consistent: the base time fits into an `int`, and deltas
are read only by a feedback that includes timestamps. -/
def KeepsConsistent (f : TransportFeedback) : FeedbackCall → Prop
  | .setBase _ refTimestampUs =>
    FitsInt ((refTimestampUs.tmod kTimeWrapPeriodUs).tdiv kBaseScaleFactor * kBaseScaleFactor)
  | .addReceivedPacket _ _ => True
  | .parse buffer => ∀ packet, feedbackHeader buffer = some packet →
    FitsInt (readSigned 3 (packet.payload.drop 12) * kBaseScaleFactor) ∧
      (f.includeTimestamps = true ∨ carriesDeltas packet = false)

theorem sound_create (includeTimestamps includeLost : Bool) :
    Sound (TransportFeedback.create includeTimestamps includeLost) [] := by
  refine ⟨⟨⟨[], holds_create.keeps, rfl⟩, rfl, Matches.nil _, rfl⟩, ?_⟩
  cases includeTimestamps <;> rfl

theorem Sound.setBase (h : Sound f sizes) (hcount : f.statusCount = 0) (baseSequence : U16)
    (refTimestampUs : Int) : Sound (f.setBase baseSequence refTimestampUs) [] := by
  obtain ⟨⟨hlists, hlen, hmatch, -⟩, hsize⟩ := h
  obtain rfl : sizes = [] := List.length_eq_zero_iff.1 (hlen.symm.trans hcount)
  have hnone : f.receivedPackets = [] := by
    generalize f.receivedPackets = packets at hmatch
    cases hmatch
    rfl
  refine ⟨⟨hlists, hcount, ?_, ?_⟩, hsize⟩
  · show Matches [] _ f.receivedPackets
    rw [hnone]
    exact Matches.nil _
  · show _ = _ + (f.receivedPackets.map deltaUs).sum
    rw [hnone]
    exact (Int.add_zero _).symm

theorem consistent_iff_of_sound (h : Sound f sizes) :
    f.Consistent ↔ FitsInt f.getBaseTimeUs := by
  rw [consistent_iff_of_tracks h.toTracks]
  exact and_iff_left h.size

/-- **One call**, on a consistent feedback: it is consistent after it exactly when the call
sees to that, and then its summaries are sound again. -/
theorem step_consistent (h : Sound f sizes) (hfits : FitsInt f.getBaseTimeUs) {call : FeedbackCall}
    (hallowed : Allowed f call) :
    ((feedbackMachine.step f call).1.Consistent ↔ KeepsConsistent f call) ∧
      ((feedbackMachine.step f call).1.Consistent →
        ∃ sizes', Sound (feedbackMachine.step f call).1 sizes') := by
  cases call with
  | setBase baseSequence refTimestampUs =>
    have hset := h.setBase hallowed.1 baseSequence refTimestampUs
    exact ⟨consistent_iff_of_sound hset, fun _ => ⟨[], hset⟩⟩
  | addReceivedPacket sequenceNumber timestampUs =>
    obtain ⟨sizes', hadd, hsame⟩ := h.addReceivedPacket sequenceNumber timestampUs
    refine ⟨iff_of_true ((consistent_iff_of_sound hadd).2 ?_) trivial, fun _ => ⟨sizes', hadd⟩⟩
    unfold TransportFeedback.getBaseTimeUs
    rw [hsame.referenceTime]
    exact hfits
  | parse buffer =>
    obtain ⟨g, hg⟩ := Option.isSome_iff_exists.1 hallowed
    obtain ⟨packet, hpacket, hparse⟩ := Option.bind_eq_some_iff.1 hg
    obtain ⟨sizes', htracks, hbase, hagree⟩ := tracks_parse hparse
    have hstep : (feedbackMachine.step f (.parse buffer)).1 = g := by
      show (f.parseBuffer buffer).getD f = g
      rw [hg, Option.getD_some]
    have hiff := consistent_iff_of_tracks htracks
    rw [hstep]
    refine ⟨?_, fun hc => ⟨sizes', htracks, (hiff.1 hc).2⟩⟩
    rw [hiff, hbase, hagree]
    constructor
    · intro hc packet' hpacket'
      rw [hpacket] at hpacket'
      exact Option.some.inj hpacket' ▸ hc
    · exact fun hc => hc packet hpacket

/-- **A feedback is consistent after every call exactly when** every base time it was given fits
into an `int` and no deltas were read by a feedback without timestamps. -/
theorem feedback_consistent_iff (includeTimestamps includeLost : Bool) (calls : List FeedbackCall)
    (hallowed : feedbackMachine.AllGood Allowed
      (TransportFeedback.create includeTimestamps includeLost) calls) :
    (∀ done, done <+: calls → (feedbackMachine.final
        (TransportFeedback.create includeTimestamps includeLost) done).Consistent) ↔
      feedbackMachine.AllGood KeepsConsistent
        (TransportFeedback.create includeTimestamps includeLost) calls := by
  have hfits : FitsInt (TransportFeedback.create includeTimestamps includeLost).getBaseTimeUs := by
    show FitsInt 0
    decide
  have hstart := sound_create includeTimestamps includeLost
  rw [feedbackMachine.forall_prefix_iff_allGood,
    and_iff_right ((consistent_iff_of_sound hstart).2 hfits)]
  refine feedbackMachine.allGood_iff_of_allowed
    (I := fun f => (∃ sizes, Sound f sizes) ∧ FitsInt f.getBaseTimeUs) ?_ ?_
    ⟨⟨[], hstart⟩, hfits⟩ hallowed
  · rintro f call ⟨⟨sizes, hsound⟩, hfits⟩ hallowed hkeeps
    obtain ⟨hiff, hsound'⟩ := step_consistent hsound hfits hallowed
    obtain ⟨sizes', h'⟩ := hsound' (hiff.2 hkeeps)
    exact ⟨⟨sizes', h'⟩, (consistent_iff_of_sound h').1 (hiff.2 hkeeps)⟩
  · rintro f call ⟨⟨sizes, hsound⟩, hfits⟩ hallowed
    exact (step_consistent hsound hfits hallowed).1

/-- A base, a packet and a gap before the next one. -/
theorem feedback_consistent_gap :
    feedbackMachine.AllGood KeepsConsistent (TransportFeedback.create true false)
      [.setBase 7 64000, .addReceivedPacket 7 64250, .addReceivedPacket 9 70000] ∧
    ∀ done, done <+: [.setBase 7 64000, .addReceivedPacket 7 64250, .addReceivedPacket 9 70000] →
      (feedbackMachine.final (TransportFeedback.create true false) done).Consistent := by
  have hgood : feedbackMachine.AllGood KeepsConsistent (TransportFeedback.create true false)
      [.setBase 7 64000, .addReceivedPacket 7 64250, .addReceivedPacket 9 70000] :=
    ⟨show FitsInt _ by decide, trivial, trivial, trivial⟩
  exact ⟨hgood, (feedback_consistent_iff true false
    [.setBase 7 64000, .addReceivedPacket 7 64250, .addReceivedPacket 9 70000]
    ⟨⟨rfl, by decide⟩, trivial, trivial, trivial⟩).2 hgood⟩

/-- **The base time wraps** in the check, from 2147.52 seconds on. -/
theorem base_time_wraps :
    feedbackMachine.AllGood Allowed (TransportFeedback.create true false) [.setBase 0 2147520000] ∧
      ¬ (feedbackMachine.final (TransportFeedback.create true false)
        [.setBase 0 2147520000]).Consistent := by
  refine ⟨⟨⟨rfl, by decide⟩, trivial⟩, fun h => ?_⟩
  exact absurd h.check (by decide)

end NaiveRtc.Rtcp
