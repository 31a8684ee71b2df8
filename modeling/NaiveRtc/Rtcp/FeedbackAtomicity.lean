import NaiveRtc.Rtcp.TransportFeedbackConsistency
import NaiveRtc.Rtcp.TransportFeedbackRoundTrip

/-!
# What a refused packet leaves in a transport feedback

`AddReceivedPacket` lists the packets that were lost before it lists the one received, and each
of them may be the one there is no room for.

* `chunkCost`, `Room` — the bytes that a list of statuses adds in chunks, and whether the feedback
  has room for it.
* `room_iff_addMissing` — the loop over a gap finds room for all of it exactly when there is.
* `addReceivedPacket_fails` — what a refused packet leaves.
* `Reached` — the feedbacks that the public methods produce.
* `atomic_iff` — a refusal leaves nothing unless there is room for the first of the packets lost
  and not for all.
-/

namespace NaiveRtc.Rtcp

open ByteIo LastChunk

/-! ## Room for statuses -/

namespace LastChunk

/-- The bytes of the chunk that `AddDeltaSize` opens for one more status. -/
def openCost (c : LastChunk) (deltaSize : Nat) : Nat :=
  if c.empty = true ∨ c.canAdd deltaSize = false then kChunkSizeBytes else 0

/-- The open chunk after one more status. -/
def next (c : LastChunk) (deltaSize : Nat) : LastChunk :=
  if c.canAdd deltaSize then c.add deltaSize else c.emit.2.add deltaSize

/-- The bytes of the chunks opened for some more statuses. -/
def chunkCost : LastChunk → List Nat → Nat
  | _, [] => 0
  | c, deltaSize :: deltaSizes => c.openCost deltaSize + (c.next deltaSize).chunkCost deltaSizes

theorem openCost_of_canAdd {c : LastChunk} {d : Nat} (h : c.canAdd d = true) :
    c.openCost d = if c.empty then kChunkSizeBytes else 0 := by
  unfold openCost
  simp [h]

theorem openCost_of_not_canAdd {c : LastChunk} {d : Nat} (h : c.canAdd d = false) :
    c.openCost d = kChunkSizeBytes := if_pos (Or.inr h)

end LastChunk

namespace TransportFeedback

/-- The feedback has room for some more statuses: they are not too many, and their chunks and
deltas not too large. -/
def Room (f : TransportFeedback) (deltaSizes : List Nat) : Prop :=
  f.statusCount + deltaSizes.length ≤ kMaxReportedPackets ∧
    f.sizeBytes + f.lastChunk.chunkCost deltaSizes + deltaSizes.sum ≤ kMaxSizeBytes

instance (f : TransportFeedback) (deltaSizes : List Nat) : Decidable (f.Room deltaSizes) :=
  inferInstanceAs (Decidable (_ ∧ _))

variable {f g : TransportFeedback} {d : Nat}

theorem addDeltaSize_eq (hcount : f.statusCount ≤ kMaxReportedPackets) (d : Nat) :
    (∃ g, f.addDeltaSize d = some g) ↔ f.Room [d] := by
  unfold addDeltaSize Room
  dsimp only [chunkCost, List.length_singleton, List.sum_singleton]
  have hfull : f.statusCount = kMaxReportedPackets ↔
      ¬ f.statusCount + 1 ≤ kMaxReportedPackets := by omega
  cases hcan : f.lastChunk.canAdd d with
  | true =>
    rw [openCost_of_canAdd hcan]
    split_ifs <;> simp_all <;> omega
  | false =>
    rw [openCost_of_not_canAdd hcan]
    have hempty := empty_of_not_canAdd hcan
    split_ifs <;> simp_all <;> omega

theorem addDeltaSize_effect (hadd : f.addDeltaSize d = some g) :
    g.statusCount = f.statusCount + 1 ∧ g.sizeBytes = f.sizeBytes + f.lastChunk.openCost d ∧
      g.lastChunk = f.lastChunk.next d := by
  obtain ⟨-, ⟨hcan, -, rfl⟩ | ⟨hcan, -, rfl⟩⟩ := addDeltaSize_cases hadd
  · rw [openCost_of_canAdd hcan, next, if_pos hcan]
    exact ⟨rfl, rfl, rfl⟩
  · rw [openCost_of_not_canAdd hcan, next, if_neg (by rw [hcan]; exact Bool.false_ne_true)]
    exact ⟨rfl, rfl, rfl⟩

section

variable (hcount : f.statusCount ≤ kMaxReportedPackets)
include hcount

theorem room_lost (seq : U16) (sizes : List Nat) :
    f.Room (0 :: sizes) ↔
      ∃ g, f.addDeltaSize 0 = some g ∧ (g.noteLost seq).Room sizes := by
  have hrest {g : TransportFeedback} (hadd : f.addDeltaSize 0 = some g) :
      (g.noteLost seq).Room sizes ↔ f.Room (0 :: sizes) := by
    obtain ⟨hcount', hsize, hlast⟩ := addDeltaSize_effect hadd
    unfold Room noteLost
    dsimp only [chunkCost]
    rw [hcount', hsize, hlast, List.length_cons, List.sum_cons]
    exact and_congr (by omega) (by omega)
  constructor
  · intro h
    have hfirst : f.Room [0] := by
      unfold Room at h ⊢
      simp only [chunkCost, List.length_cons, List.sum_cons, List.length_nil, List.sum_nil] at h ⊢
      omega
    obtain ⟨g, hadd⟩ := (addDeltaSize_eq hcount 0).2 hfirst
    exact ⟨g, hadd, (hrest hadd).2 h⟩
  · rintro ⟨g, hadd, h⟩
    exact (hrest hadd).1 h

/-- **The loop over a gap**, and the packet behind it: all are taken exactly when there is room
for all. -/
theorem room_iff_addMissing (seq : U16) (gap d : Nat) :
    f.Room (List.replicate gap 0 ++ [d]) ↔
      (f.addMissing seq gap).1 = true ∧
        ∃ g, (f.addMissing seq gap).2.addDeltaSize d = some g := by
  induction gap generalizing f seq with
  | zero => simpa [addMissing] using (addDeltaSize_eq hcount d).symm
  | succ gap ih =>
    rw [List.replicate_succ, List.cons_append, room_lost hcount seq, addMissing]
    cases hadd : f.addDeltaSize 0 with
    | none => simp
    | some g =>
      have hcount' : (g.noteLost seq).statusCount ≤ kMaxReportedPackets := by
        obtain ⟨hnext, hne, -⟩ := (addDeltaSize_sizes hadd).2
        show g.statusCount ≤ _
        omega
      simpa using ih hcount' (seq + 1)

theorem statusCount_addMissing (seq : U16) (gap : Nat) :
    f.statusCount ≤ (f.addMissing seq gap).2.statusCount ∧
      (f.addMissing seq gap).2.statusCount ≤ kMaxReportedPackets := by
  induction gap generalizing f seq with
  | zero => exact ⟨le_refl _, hcount⟩
  | succ gap ih =>
    rw [addMissing]
    cases hadd : f.addDeltaSize 0 with
    | none => exact ⟨le_refl _, hcount⟩
    | some g =>
      obtain ⟨hnext, hne, -⟩ := (addDeltaSize_sizes hadd).2
      have hnext' : (g.noteLost seq).statusCount = f.statusCount + 1 := hnext
      obtain ⟨hle, hmax⟩ := ih (f := g.noteLost seq) (by omega) (seq + 1)
      exact ⟨by dsimp only; omega, hmax⟩

/-- The loop over a gap leaves at least the first lost packet if there is one and room for it,
and else nothing. -/
theorem addMissing_first (seq : U16) (gap : Nat) :
    (0 < gap ∧ f.Room [0] → f.statusCount < (f.addMissing seq gap).2.statusCount) ∧
      (¬ (0 < gap ∧ f.Room [0]) → (f.addMissing seq gap).2 = f) := by
  rw [← addDeltaSize_eq hcount]
  cases gap with
  | zero => exact ⟨fun h => absurd h.1 (lt_irrefl 0), fun _ => rfl⟩
  | succ gap =>
    rw [addMissing]
    cases hadd : f.addDeltaSize 0 with
    | none => exact ⟨fun h => by simp at h, fun _ => rfl⟩
    | some g =>
      refine ⟨fun _ => ?_, fun h => absurd ⟨Nat.succ_pos gap, g, rfl⟩ h⟩
      obtain ⟨hnext, hne, -⟩ := (addDeltaSize_sizes hadd).2
      have hnext' : (g.noteLost seq).statusCount = f.statusCount + 1 := hnext
      have hle := (statusCount_addMissing (f := g.noteLost seq) (by omega) (seq + 1) gap).1
      dsimp only
      omega

/-! ## A refused packet -/

/-- The packets lost between the last status and a number. -/
def gapBefore (f : TransportFeedback) (sequenceNumber : U16) : Nat :=
  (sequenceNumber - f.nextSeqNo).toNat

/-- The number is not behind the last status. -/
def InOrder (f : TransportFeedback) (sequenceNumber : U16) : Prop :=
  sequenceNumber = f.nextSeqNo ∨ WrapAround.aheadOf sequenceNumber (f.nextSeqNo - 1) = true

/-- The packet is in order and its delta fits, there are lost packets before it, and there is room
for the first of them but not for all of them and the packet. -/
def LeavesPart (f : TransportFeedback) (sequenceNumber : U16) (timestampUs : Int) : Prop :=
  ∃ delta, f.deltaOf timestampUs = some delta ∧ f.InOrder sequenceNumber ∧
    0 < f.gapBefore sequenceNumber ∧ f.Room [0] ∧
    ¬ f.Room (List.replicate (f.gapBefore sequenceNumber) 0 ++ [deltaSizeOf delta])

/-- **What a refused packet leaves**: a feedback with more statuses if it leaves part of the gap,
and nothing otherwise. -/
theorem addReceivedPacket_fails (seq : U16) (timestampUs : Int) :
    (f.LeavesPart seq timestampUs → (f.addReceivedPacket seq timestampUs).1 = false ∧
      f.statusCount < (f.addReceivedPacket seq timestampUs).2.statusCount ∧
      (f.addReceivedPacket seq timestampUs).2.statusCount ≤ kMaxReportedPackets) ∧
    (¬ f.LeavesPart seq timestampUs → (f.addReceivedPacket seq timestampUs).1 = false →
      (f.addReceivedPacket seq timestampUs).2 = f) := by
  unfold addReceivedPacket LeavesPart InOrder
  cases hdelta : f.deltaOf timestampUs with
  | none =>
    refine ⟨fun h => ?_, fun _ _ => rfl⟩
    obtain ⟨_, hsome, -⟩ := h
    cases hsome
  | some delta =>
    dsimp only
    by_cases horder : seq ≠ f.nextSeqNo ∧ WrapAround.aheadOf seq (f.nextSeqNo - 1) = false
    · rw [if_pos horder]
      refine ⟨fun ⟨_, _, hin, _⟩ => ?_, fun _ _ => rfl⟩
      rcases hin with heq | hahead
      · exact absurd heq horder.1
      · rw [horder.2] at hahead
        exact Bool.noConfusion hahead
    · rw [if_neg horder]
      have hin : seq = f.nextSeqNo ∨ WrapAround.aheadOf seq (f.nextSeqNo - 1) = true := by
        rw [← Bool.not_eq_false]
        exact or_iff_not_imp_left.2 fun hne hnot => horder ⟨hne, hnot⟩
      simp only [Option.some.injEq, exists_eq_left', hin, true_and]
      have hroom := room_iff_addMissing hcount f.nextSeqNo (f.gapBefore seq) (deltaSizeOf delta)
      have hmax := (statusCount_addMissing hcount f.nextSeqNo (f.gapBefore seq)).2
      obtain ⟨hpart, hnone⟩ := addMissing_first hcount f.nextSeqNo (f.gapBefore seq)
      generalize f.Room (List.replicate (f.gapBefore seq) 0 ++ [deltaSizeOf delta]) = all at *
      change _ ↔ (f.addMissing f.nextSeqNo (seq - f.nextSeqNo).toNat).1 = true ∧ _ at hroom
      unfold gapBefore at *
      generalize f.addMissing f.nextSeqNo (seq - f.nextSeqNo).toNat = result at *
      obtain ⟨ok, g⟩ := result
      cases ok with
      | false =>
        -- the loop gave up
        have hno : ¬ all := fun hall => Bool.noConfusion (hroom.1 hall).1
        refine ⟨fun h => ⟨rfl, hpart ⟨h.1, h.2.1⟩, hmax⟩, fun h _ => hnone fun hfirst => ?_⟩
        exact h ⟨hfirst.1, hfirst.2, hno⟩
      | true =>
        dsimp only at hroom hmax hpart hnone ⊢
        cases hadd : g.addDeltaSize (deltaSizeOf delta) with
        | none =>
          -- no room for the packet itself
          have hno : ¬ all := fun hall => by simp [hadd] at hroom; exact hroom hall
          refine ⟨fun h => ⟨rfl, hpart ⟨h.1, h.2.1⟩, hmax⟩, fun h _ => hnone fun hfirst => ?_⟩
          exact h ⟨hfirst.1, hfirst.2, hno⟩
        | some g' =>
          have hall : all := hroom.2 ⟨rfl, g', hadd⟩
          exact ⟨fun h => absurd hall h.2.2, fun _ hfalse => Bool.noConfusion hfalse⟩

theorem statusCount_addReceivedPacket_le (seq : U16) (timestampUs : Int) :
    (f.addReceivedPacket seq timestampUs).2.statusCount ≤ kMaxReportedPackets := by
  unfold addReceivedPacket
  cases f.deltaOf timestampUs with
  | none => exact hcount
  | some delta =>
    dsimp only
    split_ifs
    · exact hcount
    · have hmax := (statusCount_addMissing hcount f.nextSeqNo (seq - f.nextSeqNo).toNat).2
      generalize f.addMissing f.nextSeqNo (seq - f.nextSeqNo).toNat = result at hmax
      obtain ⟨ok, g⟩ := result
      cases ok with
      | false => exact hmax
      | true =>
        dsimp only at hmax ⊢
        cases hadd : g.addDeltaSize (deltaSizeOf delta) with
        | none => exact hmax
        | some g' =>
          obtain ⟨hnext, hne, -⟩ := (addDeltaSize_sizes hadd).2
          show g'.statusCount ≤ _
          omega

end

/-! ## Reachable feedbacks -/

/-- The feedbacks that the public methods produce.  What a rejected `Parse` leaves is cleared, with
the header that it read before, and so is a feedback that was moved from. -/
inductive Reached : TransportFeedback → Prop
  | create (includeTimestamps includeLost : Bool) : Reached (create includeTimestamps includeLost)
  | setSsrcs {f : TransportFeedback} (h : Reached f) (senderSsrc mediaSsrc : U32) :
    Reached (f.setSsrcs senderSsrc mediaSsrc)
  | setBase {f : TransportFeedback} (h : Reached f) (baseSequence : U16) (refTimestampUs : Int) :
    Reached (f.setBase baseSequence refTimestampUs)
  | setFeedbackSequenceNumber {f : TransportFeedback} (h : Reached f) (feedbackSequence : UInt8) :
    Reached (f.setFeedbackSequenceNumber feedbackSequence)
  | addReceivedPacket {f : TransportFeedback} (h : Reached f) (sequenceNumber : U16)
    (timestampUs : Int) : Reached (f.addReceivedPacket sequenceNumber timestampUs).2
  | parse {f g : TransportFeedback} (h : Reached f) (packet : CommonHeader)
    (hparse : f.parse packet = some g) : Reached g
  | rejected {f : TransportFeedback} (h : Reached f) (senderSsrc mediaSsrc : U32)
    (baseSeqNum : U16) (referenceTime : Int) (feedbackSeq : UInt8)
    (deltaSizes : Vector Nat kMaxVectorCapacity) :
    Reached (clear { f with
      senderSsrc := senderSsrc
      mediaSsrc := mediaSsrc
      baseSeqNum := baseSeqNum
      referenceTime := referenceTime
      feedbackSeq := feedbackSeq
      lastChunk := { f.lastChunk with deltaSizes := deltaSizes } })

theorem Reached.statusCount_le (h : Reached f) : f.statusCount ≤ kMaxReportedPackets := by
  induction h with
  | create => exact Nat.zero_le _
  | setSsrcs _ _ _ ih => exact ih
  | setBase _ _ _ ih => exact ih
  | setFeedbackSequenceNumber _ _ ih => exact ih
  | addReceivedPacket _ seq timestampUs ih =>
    exact statusCount_addReceivedPacket_le ih seq timestampUs
  | parse _ packet hparse ih =>
    obtain ⟨sizes, chunks, lastChunk, bytes, k, rest, hread, hpos, -, rfl, hdeltas⟩ :=
      parse_cases hparse
    obtain ⟨-, hsizes, -⟩ := readChunks_spec (readStatusCount_le packet) (readSoFar_nil hpos.ne' _)
      hread
    have hcount : k.statusCount = sizes.length := by
      rcases hdeltas with ⟨-, hdeltas⟩ | ⟨-, -, rfl⟩
      · exact (readDeltas_spec hdeltas).1.statusCount
      · exact (assumeDeltas_spec _ _ _).statusCount
    show k.statusCount ≤ _
    rw [hcount, hsizes]
    exact readStatusCount_le packet
  | rejected => exact Nat.zero_le _

/-! ## Atomicity -/

/-- A call of `AddReceivedPacket` that is refused leaves the two lists as they were, and what
`PackInto` writes into any buffer. -/
def Atomic (f : TransportFeedback) (sequenceNumber : U16) (timestampUs : Int) : Prop :=
  (f.addReceivedPacket sequenceNumber timestampUs).1 = false →
    let g := (f.addReceivedPacket sequenceNumber timestampUs).2
    g.receivedPackets = f.receivedPackets ∧ g.allPackets = f.allPackets ∧
      ∀ (hasCallback : Bool) (maxSize fuel : Nat) (st : PackState), maxSize ≤ st.buffer.length →
        g.packInto hasCallback maxSize fuel st = f.packInto hasCallback maxSize fuel st

theorem readStatusCount_packetBytes (f : TransportFeedback) :
    readBigEndian 2 (f.packetBytes.drop 14) = f.statusCount % 2 ^ 16 := by
  obtain ⟨-, hcount, -⟩ := drop_payloadBytes f
  have hlen : 10 ≤ f.payloadBytes.length := by
    have := congrArg List.length hcount
    rw [List.length_drop, List.length_append, length_writeBigEndian] at this
    omega
  unfold packetBytes
  rw [List.append_assoc, show 14 = 4 + 10 from rfl, ← List.drop_drop,
    List.drop_left' (length_packCommonHeader ..), List.drop_append_of_le_length hlen, hcount,
    List.append_assoc, readBigEndian_write]

theorem exists_packInto_ne (hmax : g.statusCount ≤ kMaxReportedPackets)
    (hlt : f.statusCount < g.statusCount) :
    ∃ (maxSize : Nat) (st : PackState), maxSize ≤ st.buffer.length ∧
      g.packInto false maxSize 1 st ≠ f.packInto false maxSize 1 st := by
  generalize hsize :
    f.packetBytes.length + g.packetBytes.length + f.packetSize + g.packetSize = size
  let st : PackState := ⟨List.replicate size 0, 0, []⟩
  have hwrite (k : TransportFeedback) (hpos : k.statusCount ≠ 0) (hle : k.packetSize ≤ size) :
      k.packInto false size 1 st = some (true, st.write k.packetBytes) :=
    packInto_of_room hpos (by simpa [st] using hle) false 0
  refine ⟨size, st, by simp [st], ?_⟩
  rw [hwrite g (by omega) (by omega)]
  by_cases hzero : f.statusCount = 0
  · rw [packInto, if_pos hzero]
    simp
  · rw [hwrite f hzero (by omega)]
    intro heq
    have hslice (k : TransportFeedback) (hle : k.packetBytes.length ≤ size) := st.slice_write
      k.packetBytes (by simpa [st] using hle)
    have hbytes : g.packetBytes = f.packetBytes := by
      rw [← hslice g (by omega), ← hslice f (by omega),
        (Prod.mk.inj (Option.some.inj heq)).2]
    have hread := readStatusCount_packetBytes g
    rw [hbytes, readStatusCount_packetBytes] at hread
    unfold kMaxReportedPackets at hmax
    omega

theorem not_atomic_of_leavesPart (hcount : f.statusCount ≤ kMaxReportedPackets)
    {sequenceNumber : U16} {timestampUs : Int} (h : f.LeavesPart sequenceNumber timestampUs) :
    ¬ f.Atomic sequenceNumber timestampUs := by
  intro hatomic
  obtain ⟨hfalse, hlt, hmax⟩ := (addReceivedPacket_fails hcount sequenceNumber timestampUs).1 h
  obtain ⟨maxSize, st, hbuffer, hne⟩ := exists_packInto_ne hmax hlt
  exact hne ((hatomic hfalse).2.2 false maxSize 1 st hbuffer)

/-- **A refusal is atomic exactly when it leaves no part of a gap.** -/
theorem atomic_iff (h : Reached f) (sequenceNumber : U16) (timestampUs : Int) :
    f.Atomic sequenceNumber timestampUs ↔ ¬ f.LeavesPart sequenceNumber timestampUs := by
  refine ⟨fun hatomic hleaves => not_atomic_of_leavesPart h.statusCount_le hleaves hatomic,
    fun hleaves hfalse => ?_⟩
  rw [(addReceivedPacket_fails h.statusCount_le sequenceNumber timestampUs).2 hleaves hfalse]
  exact ⟨rfl, rfl, fun _ _ _ _ _ => rfl⟩

/-- A packet with two lost ones before it. -/
theorem atomic_iff_gap : (create true true).Atomic 2 0 := by
  refine (atomic_iff (Reached.create true true) 2 0).2 ?_
  rintro ⟨delta, hdelta, -, -, -, hroom⟩
  obtain rfl : 0 = delta := Option.some.inj ((show (create true true).deltaOf 0 = some 0 by
    decide).symm.trans hdelta)
  exact hroom (by decide)

/-! ## A feedback that is almost full -/

theorem chunkCost_le (c : LastChunk) (sizes : List Nat) : c.chunkCost sizes ≤ 2 * sizes.length := by
  induction sizes generalizing c with
  | nil => exact Nat.zero_le _
  | cons d sizes ih =>
    have hopen : c.openCost d ≤ 2 := by
      unfold openCost kChunkSizeBytes
      split_ifs <;> omega
    have := ih (c.next d)
    rw [chunkCost, List.length_cons]
    omega

theorem room_of_le {sizes : List Nat} (hcount : f.statusCount + sizes.length ≤ kMaxReportedPackets)
    (hsize : f.sizeBytes + 2 * sizes.length + sizes.sum ≤ kMaxSizeBytes) : f.Room sizes := by
  have := chunkCost_le f.lastChunk sizes
  exact ⟨hcount, by omega⟩

/-- The feedback counts the statuses from the number zero on, and sends no deltas. -/
structure Counts (f : TransportFeedback) (count : Nat) : Prop where
  base : f.baseSeqNum = 0
  untimed : f.includeTimestamps = false
  statuses : f.statusCount = count
  size : f.sizeBytes ≤ kTransportFeedbackHeaderSizeBytes + 2 * count

variable {count : Nat}

theorem Counts.addDeltaSize (h : Counts f count) (hadd : f.addDeltaSize d = some g) :
    Counts g (count + 1) := by
  obtain ⟨hsame, -⟩ := addDeltaSize_sizes hadd
  obtain ⟨hcount, hsize, -⟩ := addDeltaSize_effect hadd
  have hopen := chunkCost_le f.lastChunk [d]
  rw [chunkCost, chunkCost, List.length_singleton] at hopen
  have := h.size
  exact ⟨hsame.baseSeqNum.trans h.base, hsame.includeTimestamps.trans h.untimed,
    by rw [hcount, h.statuses], by omega⟩

theorem Counts.addMissing (h : Counts f count) (seq : U16) (gap : Nat)
    (hall : (f.addMissing seq gap).1 = true) : Counts (f.addMissing seq gap).2 (count + gap) := by
  induction gap generalizing f count seq with
  | zero => exact h
  | succ gap ih =>
    rw [TransportFeedback.addMissing] at hall ⊢
    cases hadd : f.addDeltaSize 0 with
    | none =>
      rw [hadd] at hall
      exact Bool.noConfusion hall
    | some g =>
      rw [hadd] at hall
      have hg := h.addDeltaSize hadd
      rw [Nat.add_comm gap, ← Nat.add_assoc]
      exact ih (f := g.noteLost seq) ⟨hg.base, hg.untimed, hg.statuses, hg.size⟩ (seq + 1) hall

theorem Counts.addReceivedPacket (h : Counts f count) {seq : U16}
    (hle : count ≤ seq.toNat) (hahead : seq.toNat + 1 < count + 32768) (hmax : seq.toNat < 65535)
    (timestampUs : Int) : Counts (f.addReceivedPacket seq timestampUs).2 (seq.toNat + 1) := by
  have hnext : f.nextSeqNo.toNat = count := by
    rw [nextSeqNo, h.base, h.statuses]
    bv_omega
  have hgap : (seq - f.nextSeqNo).toNat = seq.toNat - count := by
    rw [BitVec.toNat_sub, hnext]
    omega
  have hdelta : f.deltaOf timestampUs = some 0 := by
    rw [deltaOf, h.untimed]
    rfl
  have horder : ¬ (seq ≠ f.nextSeqNo ∧ WrapAround.aheadOf seq (f.nextSeqNo - 1) = false) := by
    rintro ⟨hne, hbehind⟩
    have hdist : (seq - (f.nextSeqNo - 1)).toNat = seq.toNat - count + 1 := by
      rw [show seq - (f.nextSeqNo - 1) = seq - f.nextSeqNo + 1 by bv_omega, BitVec.toNat_add, hgap]
      have : (1 : U16).toNat = 1 := rfl
      omega
    rw [WrapAround.aheadOf_false_iff, hdist] at hbehind
    have hsame : seq ≠ f.nextSeqNo - 1 := by
      intro heq
      rw [heq, BitVec.sub_self] at hdist
      exact absurd hdist (Nat.succ_ne_zero _).symm
    rcases hbehind with heq | hfar | hhalf
    · exact hsame heq
    · omega
    · omega
  have hroom : f.Room (List.replicate (seq.toNat - count) 0 ++ [deltaSizeOf 0]) := by
    have hsize := h.size
    have hstatuses := h.statuses
    refine room_of_le ?_ ?_
    · simp [kMaxReportedPackets]
      omega
    · simp [kMaxSizeBytes, kTransportFeedbackHeaderSizeBytes, deltaSizeOf] at hsize ⊢
      omega
  obtain ⟨hall, g, hadd⟩ := (room_iff_addMissing (by
    rw [h.statuses]; unfold kMaxReportedPackets; omega) f.nextSeqNo _ _).1 hroom
  have hmissing := h.addMissing f.nextSeqNo (seq.toNat - count) hall
  have hg := hmissing.addDeltaSize hadd
  rw [show count + (seq.toNat - count) + 1 = seq.toNat + 1 by omega] at hg
  unfold TransportFeedback.addReceivedPacket
  rw [hdelta]
  dsimp only
  rw [if_neg horder, hgap]
  generalize f.addMissing f.nextSeqNo (seq.toNat - count) = result at hall hadd
  obtain ⟨ok, k⟩ := result
  obtain rfl : ok = true := hall
  dsimp only at hadd ⊢
  rw [hadd]
  refine ⟨hg.base, hg.untimed, hg.statuses, ?_⟩
  show (if g.includeTimestamps = true then g.sizeBytes + deltaSizeOf 0 else g.sizeBytes) ≤ _
  rw [hg.untimed]
  exact hg.size

theorem Counts.leavesPart (h : Counts f 65534) : f.LeavesPart 2 0 := by
  have hnext : f.nextSeqNo = 65534 := by
    rw [nextSeqNo, h.base, h.statuses]
    rfl
  have hgap : f.gapBefore 2 = 4 := by
    rw [gapBefore, hnext]
    rfl
  refine ⟨0, by rw [deltaOf, h.untimed]; rfl, ?_, by rw [hgap]; decide, ?_, ?_⟩
  · rw [InOrder, hnext]
    exact Or.inr (by decide)
  · have hsize := h.size
    refine room_of_le (by rw [h.statuses]; decide) ?_
    simp [kMaxSizeBytes, kTransportFeedbackHeaderSizeBytes] at hsize ⊢
    omega
  · rintro ⟨hcount, -⟩
    rw [hgap, h.statuses] at hcount
    exact absurd hcount (by decide)

/-- **Part of a gap stays**: of the four lost packets the first is listed, then the call is
refused. -/
theorem not_atomic_almostFull :
    Reached ((((create false false).addReceivedPacket 32000 0).2.addReceivedPacket 64000
        0).2.addReceivedPacket 65533 0).2 ∧
      ¬ ((((create false false).addReceivedPacket 32000 0).2.addReceivedPacket 64000
        0).2.addReceivedPacket 65533 0).2.Atomic 2 0 := by
  have h₀ : Counts (create false false) 0 := ⟨rfl, rfl, rfl, le_refl _⟩
  have h₁ := @Counts.addReceivedPacket _ 0 h₀ 32000 (by decide) (by decide) (by decide) 0
  have h₂ := @Counts.addReceivedPacket _ 32001 h₁ 64000 (by decide) (by decide) (by decide) 0
  have h₃ := @Counts.addReceivedPacket _ 64001 h₂ 65533 (by decide) (by decide) (by decide) 0
  refine ⟨?_, not_atomic_of_leavesPart ?_ (Counts.leavesPart h₃)⟩
  · exact (((Reached.create false false).addReceivedPacket 32000 0).addReceivedPacket 64000
      0).addReceivedPacket 65533 0
  · rw [h₃.statuses]
    decide

end TransportFeedback

end NaiveRtc.Rtcp
