import NaiveRtc.Rtcp.TransportFeedback

/-!
# What a transport feedback reports

The abstract side of the feedback: a report is one status for every sequence number
from the base on, lost or received with a delta.  The model's lists, chunks and sizes
are all determined by the report, along every sequence of calls.

* `Describes` — the invariant: the state describes the report.
* `describes_addReceivedPacket`, `describes_addAll` — a call adds to the report, also
  when it fails half-way, and the state describes what is there then.
-/

namespace NaiveRtc.Rtcp

open LastChunk

/-! ## Reports -/

/-- The delta size of a status. -/
def statusSize : Option Int → Nat
  | none => 0
  | some delta => TransportFeedback.deltaSizeOf delta

/-- A report as packets, numbered from `seq` on. -/
def listing (seq : U16) : List (Option Int) → List ReceivedPacket
  | [] => []
  | status :: report => ⟨seq, status⟩ :: listing (seq + 1) report

theorem statusSize_le (status : Option Int) : statusSize status ≤ 2 := by
  cases status with
  | none => simp [statusSize]
  | some d =>
    simp only [statusSize, TransportFeedback.deltaSizeOf]
    split_ifs <;> omega

theorem listing_append (seq : U16) (report report' : List (Option Int)) :
    listing seq (report ++ report') =
      listing seq report ++ listing (seq + BitVec.ofNat 16 report.length) report' := by
  induction report generalizing seq with
  | nil => simp [listing]
  | cons status report ih =>
    have hseq : seq + 1 + BitVec.ofNat 16 report.length =
        seq + BitVec.ofNat 16 (report.length + 1) := by
      rw [BitVec.ofNat_add, BitVec.add_assoc, BitVec.add_comm 1]
      rfl
    simp only [List.cons_append, listing, ih, List.length_cons, hseq]

/-! ## Chunks -/

/-- The chunk reads back as `sizes`, whatever is expected to follow. -/
def FullChunk (chunk : U16) (sizes : List Nat) : Prop :=
  sizes ≠ [] ∧ ∀ (c : LastChunk) maxSize, sizes.length ≤ maxSize →
    (c.decode chunk maxSize).statuses = sizes

/-- The chunks and the open chunk of `f` hold `sizes`. -/
def Encodes (f : TransportFeedback) (sizes : List Nat) : Prop :=
  ∃ (full : List (U16 × List Nat)) (last : List Nat),
    f.encodedChunks = full.map Prod.fst ∧ (∀ p ∈ full, FullChunk p.1 p.2) ∧
      Holds f.lastChunk last ∧ sizes = full.flatMap Prod.snd ++ last

/-- The bytes of the chunks. -/
def chunkBytes (f : TransportFeedback) : Nat :=
  kChunkSizeBytes * f.encodedChunks.length + if f.lastChunk.empty then 0 else kChunkSizeBytes

/-- The fields that no call of `AddReceivedPacket` changes. -/
structure SameHeader (f g : TransportFeedback) : Prop where
  senderSsrc : g.senderSsrc = f.senderSsrc
  mediaSsrc : g.mediaSsrc = f.mediaSsrc
  includeLost : g.includeLost = f.includeLost
  baseSeqNum : g.baseSeqNum = f.baseSeqNum
  referenceTime : g.referenceTime = f.referenceTime
  feedbackSeq : g.feedbackSeq = f.feedbackSeq
  includeTimestamps : g.includeTimestamps = f.includeTimestamps

theorem SameHeader.refl (f : TransportFeedback) : SameHeader f f :=
  ⟨rfl, rfl, rfl, rfl, rfl, rfl, rfl⟩

theorem SameHeader.trans {f g k : TransportFeedback} (hfg : SameHeader f g)
    (hgk : SameHeader g k) : SameHeader f k :=
  ⟨hgk.senderSsrc.trans hfg.senderSsrc, hgk.mediaSsrc.trans hfg.mediaSsrc,
    hgk.includeLost.trans hfg.includeLost, hgk.baseSeqNum.trans hfg.baseSeqNum,
    hgk.referenceTime.trans hfg.referenceTime, hgk.feedbackSeq.trans hfg.feedbackSeq,
    hgk.includeTimestamps.trans hfg.includeTimestamps⟩

/-- What `AddDeltaSize` leaves alone. -/
structure SameButChunks (f g : TransportFeedback) : Prop extends SameHeader f g where
  receivedPackets : g.receivedPackets = f.receivedPackets
  allPackets : g.allPackets = f.allPackets
  lastTimestampUs : g.lastTimestampUs = f.lastTimestampUs

variable {f g : TransportFeedback} {sizes : List Nat} {d : Nat}

theorem empty_add (c : LastChunk) : (c.add d).empty = false := by
  simp [LastChunk.empty, LastChunk.add]

theorem empty_of_not_canAdd {c : LastChunk} (hcan : c.canAdd d = false) : c.empty = false := by
  rw [Bool.eq_false_iff]
  intro hempty
  have hsize : c.size = 0 := beq_iff_eq.1 hempty
  have hroom : c.canAdd d = true := canAdd_iff.2 (Or.inl (by rw [hsize]; decide))
  rw [hroom] at hcan
  exact Bool.noConfusion hcan

theorem addDeltaSize_cases (hadd : f.addDeltaSize d = some g) :
    f.statusCount ≠ kMaxReportedPackets ∧
      ((f.lastChunk.canAdd d = true ∧
          f.sizeBytes + d + (if f.lastChunk.empty then kChunkSizeBytes else 0) ≤ kMaxSizeBytes ∧
          g = { f with
            sizeBytes := f.sizeBytes + if f.lastChunk.empty then kChunkSizeBytes else 0
            lastChunk := f.lastChunk.add d
            statusCount := f.statusCount + 1 }) ∨
        (f.lastChunk.canAdd d = false ∧ f.sizeBytes + d + kChunkSizeBytes ≤ kMaxSizeBytes ∧
          g = { f with
            encodedChunks := f.encodedChunks ++ [f.lastChunk.emit.1]
            sizeBytes := f.sizeBytes + kChunkSizeBytes
            lastChunk := f.lastChunk.emit.2.add d
            statusCount := f.statusCount + 1 })) := by
  unfold TransportFeedback.addDeltaSize at hadd
  dsimp only at hadd
  generalize (if f.lastChunk.empty = true then kChunkSizeBytes else 0) = opened at hadd ⊢
  split_ifs at hadd with hmax hroom hcan hroom'
  · exact ⟨hmax, Or.inl ⟨hcan, not_lt.1 hroom, (Option.some.inj hadd).symm⟩⟩
  · exact ⟨hmax, Or.inr ⟨Bool.not_eq_true _ ▸ hcan, not_lt.1 hroom', (Option.some.inj hadd).symm⟩⟩

theorem addDeltaSize_sizes (hadd : f.addDeltaSize d = some g) :
    SameButChunks f g ∧ g.statusCount = f.statusCount + 1 ∧
      f.statusCount ≠ kMaxReportedPackets ∧
      g.sizeBytes + chunkBytes f = f.sizeBytes + chunkBytes g ∧
      g.sizeBytes + d ≤ kMaxSizeBytes := by
  obtain ⟨hmax, ⟨-, hroom, rfl⟩ | ⟨hcan, hroom, rfl⟩⟩ := addDeltaSize_cases hadd
  · refine ⟨⟨⟨rfl, rfl, rfl, rfl, rfl, rfl, rfl⟩, rfl, rfl, rfl⟩, rfl, hmax, ?_, ?_⟩
    · simp only [chunkBytes, empty_add]
      cases f.lastChunk.empty
      · simp
      · simp
        omega
    · dsimp only
      omega
  · refine ⟨⟨⟨rfl, rfl, rfl, rfl, rfl, rfl, rfl⟩, rfl, rfl, rfl⟩, rfl, hmax, ?_, ?_⟩
    · simp only [chunkBytes, empty_add, empty_of_not_canAdd hcan, List.length_append,
        List.length_singleton, kChunkSizeBytes, Bool.false_eq_true, if_false]
      omega
    · dsimp only
      omega

theorem addDeltaSize_spec (h : Encodes f sizes) (hd : d ≤ 2)
    (hadd : f.addDeltaSize d = some g) :
    Encodes g (sizes ++ [d]) ∧ SameButChunks f g ∧
      g.statusCount = f.statusCount + 1 ∧ f.statusCount ≠ kMaxReportedPackets ∧
      g.sizeBytes + chunkBytes f = f.sizeBytes + chunkBytes g ∧
      g.sizeBytes + d ≤ kMaxSizeBytes := by
  refine ⟨?_, addDeltaSize_sizes hadd⟩
  obtain ⟨full, last, hchunks, hfull, hlast, hsizes⟩ := h
  obtain ⟨-, ⟨hcan, -, rfl⟩ | ⟨hcan, -, rfl⟩⟩ := addDeltaSize_cases hadd
  · refine ⟨full, last ++ [d], hchunks, hfull, holds_add hlast hd hcan, ?_⟩
    rw [hsizes, List.append_assoc]
  · obtain ⟨ys, zs, hsplit, hne, hrest, hlen, hdec⟩ := emit_spec hlast.keeps hcan
    have hroom : f.lastChunk.emit.2.canAdd d = true :=
      canAdd_iff.mpr (Or.inl (by rw [hrest.size]; exact hlen))
    refine ⟨full ++ [(f.lastChunk.emit.1, ys)], zs ++ [d], ?_, ?_, holds_add hrest hd hroom, ?_⟩
    · simp [hchunks]
    · intro p hp
      rcases List.mem_append.mp hp with hp | hp
      · exact hfull p hp
      · rw [List.mem_singleton.mp hp]
        exact ⟨hne, hdec⟩
    · simp [hsizes, hsplit, List.flatMap_append]

/-! ## The invariant -/

/-- The state describes the report: the statuses of `baseSeqNum` and the numbers after
it. -/
structure Describes (f : TransportFeedback) (report : List (Option Int)) : Prop where
  encodes : Encodes f (report.map statusSize)
  count : f.statusCount = report.length
  count_le : report.length ≤ kMaxReportedPackets
  received : f.receivedPackets =
    (listing f.baseSeqNum report).filter ReceivedPacket.received
  all : f.includeLost = true → f.allPackets = listing f.baseSeqNum report
  deltas : ∀ delta, some delta ∈ report →
    -2 ^ 15 ≤ delta ∧ delta < 2 ^ 15 ∧ (f.includeTimestamps = false → delta = 0)
  size : f.sizeBytes = kTransportFeedbackHeaderSizeBytes + chunkBytes f +
    if f.includeTimestamps then (report.map statusSize).sum else 0
  size_le : f.sizeBytes ≤ kMaxSizeBytes

theorem describes_nil (includeTimestamps includeLost : Bool) (senderSsrc mediaSsrc : U32)
    (baseSequence : U16) (refTimestampUs : Int) (feedbackSequence : UInt8) :
    Describes ((((TransportFeedback.create includeTimestamps includeLost).setSsrcs
      senderSsrc mediaSsrc).setBase baseSequence refTimestampUs).setFeedbackSequenceNumber
      feedbackSequence) [] where
  encodes := ⟨[], [], rfl, by simp, holds_create, rfl⟩
  count := rfl
  count_le := by simp
  received := rfl
  all := fun _ => rfl
  deltas := by simp
  size := by cases includeTimestamps <;> rfl
  size_le := show kTransportFeedbackHeaderSizeBytes ≤ kMaxSizeBytes by decide

variable {report : List (Option Int)}

theorem Describes.snoc (h : Describes f report) (status : Option Int)
    (received all : List ReceivedPacket) (last : Int)
    (hadd : f.addDeltaSize (statusSize status) = some g)
    (hdelta : ∀ delta, status = some delta →
      -2 ^ 15 ≤ delta ∧ delta < 2 ^ 15 ∧ (f.includeTimestamps = false → delta = 0))
    (hreceived : received = f.receivedPackets ++
      [(⟨f.nextSeqNo, status⟩ : ReceivedPacket)].filter ReceivedPacket.received)
    (hall : f.includeLost = true → all = f.allPackets ++ [⟨f.nextSeqNo, status⟩]) :
    Describes { g with
        receivedPackets := received
        allPackets := all
        lastTimestampUs := last
        sizeBytes := if f.includeTimestamps then g.sizeBytes + statusSize status else g.sizeBytes }
      (report ++ [status]) := by
  obtain ⟨hencodes, hsame, hcount, hmax, hsize, hbound⟩ :=
    addDeltaSize_spec h.encodes (statusSize_le status) hadd
  have hbase := hsame.baseSeqNum
  have hlost := hsame.includeLost
  have htime := hsame.includeTimestamps
  have hnext : f.nextSeqNo = f.baseSeqNum + BitVec.ofNat 16 report.length := by
    rw [TransportFeedback.nextSeqNo, h.count]
  have hlisting : listing f.baseSeqNum (report ++ [status]) =
      listing f.baseSeqNum report ++ [⟨f.nextSeqNo, status⟩] := by
    rw [listing_append, hnext]
    rfl
  have hold := h.size
  refine ⟨?_, ?_, ?_, ?_, ?_, ?_, ?_, ?_⟩
  · rw [List.map_append]
    exact hencodes
  · show g.statusCount = _
    rw [hcount, h.count, List.length_append, List.length_singleton]
  · have := h.count_le
    rw [List.length_append, List.length_singleton]
    rw [h.count] at hmax
    omega
  · show received = List.filter _ (listing g.baseSeqNum _)
    rw [hbase, hlisting, List.filter_append, hreceived, h.received]
  · intro htrue
    show all = listing g.baseSeqNum _
    have htrue : f.includeLost = true := hlost ▸ htrue
    rw [hbase, hlisting, hall htrue, h.all htrue]
  · intro delta hmem
    show _ ∧ _ ∧ (g.includeTimestamps = false → _)
    rw [htime]
    rcases List.mem_append.mp hmem with hmem | hmem
    · exact h.deltas delta hmem
    · exact hdelta delta (List.mem_singleton.mp hmem).symm
  · show (if f.includeTimestamps = true then _ else _) = _ + chunkBytes g +
      (if g.includeTimestamps = true then _ else _)
    rw [htime]
    simp only [List.map_append, List.sum_append, List.map_cons, List.map_nil, List.sum_singleton]
    split_ifs at hold ⊢ <;> omega
  · show (if f.includeTimestamps = true then _ else _) ≤ _
    split_ifs <;> omega

theorem Describes.nextSeqNo (h : Describes f report) :
    f.nextSeqNo = f.baseSeqNum + BitVec.ofNat 16 report.length := by
  rw [TransportFeedback.nextSeqNo, h.count]

theorem describes_noteLost (h : Describes f report) (hadd : f.addDeltaSize 0 = some g) :
    Describes (g.noteLost f.nextSeqNo) (report ++ [none]) ∧
      SameHeader f (g.noteLost f.nextSeqNo) := by
  obtain ⟨-, hsame, -⟩ := addDeltaSize_spec h.encodes (by omega) hadd
  have hstate : g.noteLost f.nextSeqNo = { g with
      receivedPackets := g.receivedPackets
      allPackets := if g.includeLost then g.allPackets ++ [⟨f.nextSeqNo, none⟩] else g.allPackets
      lastTimestampUs := g.lastTimestampUs
      sizeBytes := if f.includeTimestamps then g.sizeBytes + statusSize none else g.sizeBytes } := by
    cases f.includeTimestamps <;> rfl
  rw [hstate]
  refine ⟨h.snoc none _ _ _ hadd (by simp) ?_ ?_, ?_⟩
  · simp [hsame.receivedPackets, ReceivedPacket.received]
  · intro htrue
    simp [hsame.includeLost, htrue, hsame.allPackets]
  · exact ⟨hsame.senderSsrc, hsame.mediaSsrc, hsame.includeLost, hsame.baseSeqNum,
      hsame.referenceTime, hsame.feedbackSeq, hsame.includeTimestamps⟩

/-- **The numbers skipped**: all of them are reported lost, or, when the packet gets
full, the first ones are. -/
theorem describes_addMissing (h : Describes f report) (gap : Nat) :
    ∃ k, Describes (f.addMissing f.nextSeqNo gap).2 (report ++ List.replicate k none) ∧
      SameHeader f (f.addMissing f.nextSeqNo gap).2 ∧
      ((f.addMissing f.nextSeqNo gap).1 = true → k = gap) := by
  induction gap generalizing f report with
  | zero => exact ⟨0, by simpa [TransportFeedback.addMissing] using h, SameHeader.refl f, fun _ =>
    rfl⟩
  | succ gap ih =>
    unfold TransportFeedback.addMissing
    cases hadd : f.addDeltaSize 0 with
    | none => exact ⟨0, by simpa using h, SameHeader.refl f, by simp⟩
    | some g =>
      obtain ⟨hdesc, hsame⟩ := describes_noteLost h hadd
      have hnext : (g.noteLost f.nextSeqNo).nextSeqNo = f.nextSeqNo + 1 := by
        rw [hdesc.nextSeqNo, hsame.baseSeqNum, h.nextSeqNo, List.length_append,
          List.length_singleton, BitVec.ofNat_add, BitVec.add_assoc]
        rfl
      obtain ⟨k, hk, hsame', hall⟩ := ih hdesc
      rw [hnext] at hk hsame' hall
      refine ⟨k + 1, ?_, hsame.trans hsame', fun htrue => by rw [hall htrue]⟩
      rw [List.replicate_succ]
      simpa using hk

theorem deltaOf_range {timestampUs delta : Int} (h : f.deltaOf timestampUs = some delta) :
    -2 ^ 15 ≤ delta ∧ delta < 2 ^ 15 ∧ (f.includeTimestamps = false → delta = 0) := by
  unfold TransportFeedback.deltaOf at h
  cases htime : f.includeTimestamps with
  | false =>
    rw [htime] at h
    cases h
    exact ⟨by omega, by omega, fun _ => rfl⟩
  | true =>
    rw [htime] at h
    simp only [if_true] at h
    split at h
    · cases h
    · cases h
      exact ⟨Int.le_bmod (by decide), Int.bmod_lt (by decide), by simp⟩

/-- **A call adds to the report.**  One that succeeds ends with a packet received; one
that fails may leave some of the numbers it skipped. -/
theorem describes_addReceivedPacket (h : Describes f report) (seq : U16) (timestampUs : Int) :
    ∃ more, Describes (f.addReceivedPacket seq timestampUs).2 (report ++ more) ∧
      SameHeader f (f.addReceivedPacket seq timestampUs).2 ∧
      ((f.addReceivedPacket seq timestampUs).1 = true → ∃ delta, some delta ∈ more) := by
  unfold TransportFeedback.addReceivedPacket
  cases hdelta : f.deltaOf timestampUs with
  | none => exact ⟨[], by simpa using h, SameHeader.refl f, by simp⟩
  | some delta =>
    dsimp only
    by_cases horder : seq ≠ f.nextSeqNo ∧ WrapAround.aheadOf seq (f.nextSeqNo - 1) = false
    · rw [if_pos horder]
      exact ⟨[], by simpa using h, SameHeader.refl f, by simp⟩
    · rw [if_neg horder]
      obtain ⟨k, hk, hsame, hall⟩ := describes_addMissing h (seq - f.nextSeqNo).toNat
      generalize f.addMissing f.nextSeqNo (seq - f.nextSeqNo).toNat = result at hk hsame hall
      obtain ⟨ok, g⟩ := result
      cases ok with
      | false => exact ⟨List.replicate k none, hk, hsame, by simp⟩
      | true =>
        have hgap : k = (seq - f.nextSeqNo).toNat := hall rfl
        dsimp only at hk hsame ⊢
        -- after the numbers skipped it is the turn of `seq`
        have hseq : g.nextSeqNo = seq := by
          rw [hk.nextSeqNo, hsame.baseSeqNum, List.length_append, List.length_replicate, hgap,
            BitVec.ofNat_add, ← BitVec.add_assoc, ← h.nextSeqNo, BitVec.ofNat_toNat,
            BitVec.setWidth_eq, BitVec.add_comm, BitVec.sub_add_cancel]
        cases hadd : g.addDeltaSize (TransportFeedback.deltaSizeOf delta) with
        | none => exact ⟨List.replicate k none, hk, hsame, by simp⟩
        | some g' =>
          obtain ⟨-, hsame', -⟩ := addDeltaSize_spec hk.encodes (statusSize_le (some delta)) hadd
          refine ⟨List.replicate k none ++ [some delta], ?_, ?_, fun _ => ⟨delta, by simp⟩⟩
          · rw [← List.append_assoc]
            have hsnoc := hk.snoc (some delta) (g'.receivedPackets ++ [⟨seq, some delta⟩])
              (if g'.includeLost then g'.allPackets ++ [⟨seq, some delta⟩] else g'.allPackets)
              (g'.lastTimestampUs + delta * kDeltaScaleFactor) hadd ?_ ?_ ?_
            · rw [← hsame'.includeTimestamps] at hsnoc
              exact hsnoc
            · rintro _ ⟨⟩
              rw [hsame.includeTimestamps]
              exact deltaOf_range hdelta
            · rw [hsame'.receivedPackets, hseq]
              rfl
            · intro htrue
              simp [hsame'.includeLost, htrue, hsame'.allPackets, hseq]
          · exact hsame.trans ⟨hsame'.senderSsrc, hsame'.mediaSsrc, hsame'.includeLost,
              hsame'.baseSeqNum, hsame'.referenceTime, hsame'.feedbackSeq,
              hsame'.includeTimestamps⟩

/-- **Every run describes a report**, with a packet received in it once a call has
succeeded. -/
theorem describes_addAll (h : Describes f report) (calls : List (U16 × Int)) :
    ∃ more, Describes (f.addAll calls).2 (report ++ more) ∧ SameHeader f (f.addAll calls).2 ∧
      (true ∈ (f.addAll calls).1 → ∃ delta, some delta ∈ more) := by
  induction calls generalizing f report with
  | nil => exact ⟨[], by simpa [TransportFeedback.addAll] using h, SameHeader.refl f,
      by simp [TransportFeedback.addAll]⟩
  | cons call calls ih =>
    obtain ⟨more, hdesc, hsame, hok⟩ := describes_addReceivedPacket h call.1 call.2
    obtain ⟨more', hdesc', hsame', hok'⟩ := ih hdesc
    refine ⟨more ++ more', ?_, hsame.trans hsame', ?_⟩
    · rw [← List.append_assoc]
      exact hdesc'
    · intro htrue
      rcases List.mem_cons.mp htrue with hfirst | hlater
      · obtain ⟨delta, hmem⟩ := hok hfirst.symm
        exact ⟨delta, List.mem_append_left _ hmem⟩
      · obtain ⟨delta, hmem⟩ := hok' hlater
        exact ⟨delta, List.mem_append_right _ hmem⟩

end NaiveRtc.Rtcp
