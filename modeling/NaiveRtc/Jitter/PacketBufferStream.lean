import NaiveRtc.Jitter.PacketBufferAssembly

/-!
# A stream of frames in the packet buffer

Frames with consecutive numbers are delivered to a buffer that has a slot for each of
their packets, in any order.  This file says what the buffer looks like in between.

* `Tracker` — what is known about the missing packets; `Tracker.update` for a packet that
  arrives.
* `Stream` — the frames, as the sender made them: packet `k` of frame `j` has the number
  `seqAt j k`.
* `Core` — the numbers in `R` were received and the frames in `A` assembled: exactly the
  packets of other frames are stored, a mark is put only behind received packets, and
  nothing up to an assembled frame is missing.
-/

namespace NaiveRtc.Jitter

open WrapAround SlotTable

namespace PacketBuffer

/-! ## Missing packets -/

theorem rank_add_one {b q : U16} (h : rank b q < 65535) : rank b (q + 1) = rank b q + 1 := by
  unfold rank at *
  bv_omega

theorem rank_add_ofNat (b : U16) {n : Nat} (h : n < 65536) :
    rank b (b + BitVec.ofNat 16 n) = n := by
  have hsub : b + BitVec.ofNat 16 n - b = BitVec.ofNat 16 n := by bv_omega
  unfold rank
  rw [hsub, BitVec.toNat_ofNat, Nat.mod_eq_of_lt h]

/-- The loop of `UpdateMissingPackets` appends the numbers between the newest one and the
one that arrived, and ends with the latter. -/
theorem insertMissing_spec {b q newest : U16} {fuel : Nat} {missing : List U16}
    (hq : rank b q < 32768) (hlt : rank b newest < rank b q)
    (hfuel : fuel = rank b q - rank b newest) (hr : Ordered.Ranked (rank b) missing)
    (hle : ∀ m ∈ missing, rank b m ≤ rank b newest) :
    (insertMissing q fuel newest missing).1 = q ∧
      Ordered.Ranked (rank b) (insertMissing q fuel newest missing).2 ∧
      ∀ m ∈ (insertMissing q fuel newest missing).2,
        rank b m < rank b q ∧ (m ∈ missing ∨ rank b newest < rank b m) := by
  induction fuel generalizing newest missing with
  | zero => omega
  | succ fuel ih =>
    have hnext := rank_add_one (b := b) (q := newest) (by omega)
    have hahead : aheadOf q (newest + 1) = true ↔ rank b (newest + 1) < rank b q :=
      aheadOf_iff_rank (by omega) (by omega)
    rw [insertMissing]
    by_cases hmore : rank b (newest + 1) < rank b q
    · rw [if_pos (hahead.2 hmore)]
      have happ : Ordered.insertBy olderThan id (newest + 1) missing = missing ++ [newest + 1] := by
        apply Ordered.insertBy_eq_append
        intro m hm
        have := hle m hm
        show olderThan m (newest + 1) = true
        rw [olderThan_eq_rank (b := b) (by omega) (by omega), decide_eq_true_iff]
        omega
      rw [happ]
      have hr' : Ordered.Ranked (rank b) (missing ++ [newest + 1]) := by
        refine List.pairwise_append.2 ⟨hr, List.pairwise_singleton _ _, ?_⟩
        intro m hm x hx
        rw [List.mem_singleton.1 hx]
        have := hle m hm
        omega
      have hle' : ∀ m ∈ missing ++ [newest + 1], rank b m ≤ rank b (newest + 1) := by
        intro m hm
        rcases List.mem_append.1 hm with hm | hm
        · have := hle m hm
          omega
        · rw [List.mem_singleton.1 hm]
      obtain ⟨h1, h2, h3⟩ := ih hmore (by omega) hr' hle'
      refine ⟨h1, h2, ?_⟩
      intro m hm
      obtain ⟨h4, h5⟩ := h3 m hm
      refine ⟨h4, ?_⟩
      rcases h5 with h5 | h5
      · rcases List.mem_append.1 h5 with h6 | h6
        · exact Or.inl h6
        · rw [List.mem_singleton.1 h6]
          omega
      · omega
    · rw [if_neg (fun h => hmore (hahead.1 h))]
      have heq : rank b (newest + 1) = rank b q := by omega
      refine ⟨rank_inj heq, hr, ?_⟩
      intro m hm
      have := hle m hm
      exact ⟨by omega, Or.inl hm⟩

/-- The newest number and the missing ones, after the numbers in `R` were received; `b` is
the start of a window of half the circle. -/
structure Tracker (b : U16) (R : List U16) (newest : Option U16) (missing : List U16) : Prop where
  ranked : Ordered.Ranked (rank b) missing
  ofNone : newest = none → R = [] ∧ missing = []
  ofSome : ∀ q, newest = some q → rank b q < 32768 ∧ (∀ x ∈ R, rank b x ≤ rank b q) ∧
    ∀ m ∈ missing, rank b m < rank b q
  unreceived : ∀ m ∈ missing, m ∉ R

variable {b : U16}

theorem Ranked.nodup {l : List U16} (h : Ordered.Ranked (rank b) l) : l.Nodup :=
  List.Pairwise.imp (fun hlt heq => by rw [heq] at hlt; exact Nat.lt_irrefl _ hlt) h

theorem rank_old {b q newest : U16} (hq : rank b q < 32768) (hlt : rank b newest < rank b q)
    (h : aheadOf (q - BitVec.ofNat 16 kMaxMissingPacketCount) newest = true) :
    rank b newest < rank b (q - BitVec.ofNat 16 kMaxMissingPacketCount) ∧
      rank b (q - BitVec.ofNat 16 kMaxMissingPacketCount) < rank b q := by
  rw [aheadOf_iff] at h
  unfold rank kMaxMissingPacketCount at *
  bv_omega

theorem Tracker.update {R : List U16} {s : PacketBuffer} {q : U16}
    (h : Tracker b R s.newestInsertedSeqNum s.missingPackets) (hq : rank b q < 32768) :
    Tracker b (q :: R) (s.updateMissingPackets q kMaxMissingPacketCount).newestInsertedSeqNum
        (s.updateMissingPackets q kMaxMissingPacketCount).missingPackets ∧
      ∀ m ∈ (s.updateMissingPackets q kMaxMissingPacketCount).missingPackets,
        m ∈ s.missingPackets ∨ ∀ x ∈ R, rank b x < rank b m := by
  unfold updateMissingPackets
  dsimp only
  have hnodup := Ranked.nodup h.ranked
  by_cases hahead : aheadOf q (s.newestInsertedSeqNum.getD q) = true
  · rw [if_pos hahead]
    cases hn : s.newestInsertedSeqNum with
    | none =>
      rw [hn] at hahead
      exact absurd hahead (by simp)
    | some newest =>
      rw [hn] at hahead
      obtain ⟨hN, hR, hM⟩ := h.ofSome newest hn
      rw [Option.getD_some] at hahead ⊢
      have hlt : rank b newest < rank b q := (aheadOf_iff_rank (by omega) (by omega)).1 hahead
      -- the newest number may be moved up to the end of the window, and stays below `q`
      obtain ⟨start, hstart, hle, hlt'⟩ : ∃ x,
        (if aheadOf (q - BitVec.ofNat 16 kMaxMissingPacketCount)
          newest = true then q - BitVec.ofNat 16 kMaxMissingPacketCount else newest) = x ∧
          rank b newest ≤ rank b x ∧ rank b x < rank b q := by
        split
        · rename_i ho
          obtain ⟨h1, h2⟩ := rank_old hq hlt ho
          exact ⟨_, rfl, h1.le, h2⟩
        · exact ⟨_, rfl, Nat.le_refl _, hlt⟩
      rw [hstart]
      have hsub := Ordered.eraseBelow_sublist olderThan id
        (q - BitVec.ofNat 16 kMaxMissingPacketCount) s.missingPackets
      have hfuel : (q - start).toNat = rank b q - rank b start := by
        unfold rank at *
        bv_omega
      have hbelow : ∀ m ∈ Ordered.eraseBelow olderThan id
          (q - BitVec.ofNat 16 kMaxMissingPacketCount) s.missingPackets,
            rank b m ≤ rank b start := by
        intro m hm
        have := hM m (hsub.subset hm)
        omega
      obtain ⟨h1, h2, h3⟩ := insertMissing_spec hq hlt' hfuel (h.ranked.sublist hsub) hbelow
      refine ⟨⟨h2, by simp, ?_, ?_⟩, ?_⟩
      · rintro x ⟨⟩
        rw [h1]
        refine ⟨hq, ?_, fun m hm => (h3 m hm).1⟩
        intro x hx
        rcases List.mem_cons.1 hx with rfl | hx
        · exact Nat.le_refl _
        · have := hR x hx
          omega
      · intro m hm hmR
        obtain ⟨h4, h5⟩ := h3 m hm
        rcases List.mem_cons.1 hmR with rfl | hmR
        · exact absurd h4 (Nat.lt_irrefl _)
        · rcases h5 with h5 | h5
          · exact h.unreceived m (hsub.subset h5) hmR
          · have := hR m hmR
            omega
      · intro m hm
        rcases (h3 m hm).2 with h5 | h5
        · exact Or.inl (hsub.subset h5)
        · refine Or.inr ?_
          intro x hx
          have := hR x hx
          omega
  · rw [if_neg hahead]
    refine ⟨⟨h.ranked.sublist List.erase_sublist, by simp, ?_, ?_⟩, ?_⟩
    · rintro x ⟨⟩
      cases hn : s.newestInsertedSeqNum with
      | none =>
        obtain ⟨hR, hM⟩ := h.ofNone hn
        simp [hR, hM, hq]
      | some newest =>
        rw [hn] at hahead
        obtain ⟨hN, hR, hM⟩ := h.ofSome newest hn
        rw [Option.getD_some] at *
        have hle : ¬ rank b newest < rank b q := by
          rw [← aheadOf_iff_rank (by omega) (by omega)]
          exact hahead
        refine ⟨hN, ?_, fun m hm => hM m (List.erase_subset hm)⟩
        intro x hx
        rcases List.mem_cons.1 hx with rfl | hx
        · omega
        · exact hR x hx
    · intro m hm hmR
      rw [hnodup.mem_erase_iff] at hm
      rcases List.mem_cons.1 hmR with rfl | hmR
      · exact hm.1 rfl
      · exact h.unreceived m hm.2 hmR
    · intro m hm
      exact Or.inl (List.erase_subset hm)

theorem Tracker.stored {R : List U16} {s : PacketBuffer} {p : Packet}
    (h : Tracker b R s.newestInsertedSeqNum s.missingPackets) (hp : rank b p.seqNum < 32768) :
    Tracker b (p.seqNum :: R) (s.stored p).newestInsertedSeqNum (s.stored p).missingPackets ∧
      ∀ m ∈ (s.stored p).missingPackets, m ∈ s.missingPackets ∨ ∀ x ∈ R, rank b x < rank b m :=
  Tracker.update (s := s.set (s.indexOf p.seqNum) (some { p with continuous := false })) h hp

end PacketBuffer

/-! ## Streams -/

/-- A finite stream of frames with consecutive numbers from `base` on, as a sender makes
it: frame `j` has `len j` packets, `packet j 0` to `packet j (len j - 1)`. -/
structure Stream where
  base : U16
  count : Nat
  len : Nat → Nat
  packet : Nat → Nat → Packet
  timestamp : Nat → U32
  len_pos : ∀ j, j < count → 0 < len j
  seqNum_packet : ∀ j k, j < count → k < len j →
    (packet j k).seqNum = base + BitVec.ofNat 16 (((List.range j).map len).sum + k)
  timestamp_packet : ∀ j k, j < count → k < len j → (packet j k).timestamp = timestamp j
  timestamp_inj : ∀ i j, i < count → j < count → timestamp i = timestamp j → i = j
  isFirst_packet : ∀ j k, j < count → k < len j →
    (packet j k).videoHeader.isFirstPacketInFrame = decide (k = 0)
  isLast_packet : ∀ j k, j < count → k < len j →
    (packet j k).videoHeader.isLastPacketInFrame = decide (k + 1 = len j)
  /-- In an H264 frame every packet has an H264 header with few enough NAL units. -/
  nalus_packet : ∀ j, j < count → (packet j (len j - 1)).videoHeader.codecType = .h264 →
    ∀ k, k < len j → ∃ info, (packet j k).videoCodecHeader = .h264 info ∧
      info.nalus.length < H264.kMaxNaluNumPerPacket
  total_le : ((List.range count).map len).sum ≤ 32768

namespace Stream

variable (st : Stream)

/-- The position of the first packet of frame `j`. -/
def off (j : Nat) : Nat := ((List.range j).map st.len).sum

/-- The number of all packets. -/
def total : Nat := st.off st.count

/-- The sequence number of packet `k` of frame `j`. -/
def seqAt (j k : Nat) : U16 := st.base + BitVec.ofNat 16 (st.off j + k)

/-- There is a packet `k` of frame `j`. -/
def Valid (j k : Nat) : Prop := j < st.count ∧ k < st.len j

@[simp] theorem off_zero : st.off 0 = 0 := rfl

theorem off_succ (j : Nat) : st.off (j + 1) = st.off j + st.len j := by
  simp [off, List.range_succ]

theorem off_mono {i j : Nat} (h : i ≤ j) : st.off i ≤ st.off j := by
  induction j, h using Nat.le_induction with
  | base => exact Nat.le_refl _
  | succ j _ ih =>
    rw [off_succ]
    omega

theorem seqAt_succ (j k : Nat) : st.seqAt j k + 1 = st.seqAt j (k + 1) := by
  unfold seqAt
  rw [← PacketBuffer.add_ofNat_succ, Nat.add_assoc]

theorem seqAt_len (j : Nat) : st.seqAt j (st.len j) = st.seqAt (j + 1) 0 := by
  unfold seqAt
  rw [off_succ]
  rfl

variable {st}

theorem Valid.lt_off {i j k : Nat} (h : st.Valid i k) (hij : i < j) : st.off i + k < st.off j := by
  have h1 := st.off_succ i
  have h2 := st.off_mono (show i + 1 ≤ j from hij)
  have h3 := h.2
  omega

variable {j k : Nat}

theorem Valid.lt_total (h : st.Valid j k) : st.off j + k < st.total := h.lt_off h.1

theorem total_le' : st.total ≤ 32768 := st.total_le

theorem Valid.rank (h : st.Valid j k) : rank st.base (st.seqAt j k) = st.off j + k := by
  have h1 := h.lt_total
  have h2 := st.total_le'
  exact PacketBuffer.rank_add_ofNat st.base (by omega)

theorem Valid.position_inj {i j k l : Nat} (h : st.Valid i k) (h' : st.Valid j l)
    (heq : st.off i + k = st.off j + l) : i = j ∧ k = l := by
  rcases Nat.lt_trichotomy i j with hlt | rfl | hgt
  · have := h.lt_off hlt
    omega
  · exact ⟨rfl, by omega⟩
  · have := h'.lt_off hgt
    omega

theorem Valid.seqNum (h : st.Valid j k) : (st.packet j k).seqNum = st.seqAt j k :=
  st.seqNum_packet j k h.1 h.2

theorem Valid.pred (h : st.Valid j (k + 1)) : st.Valid j k := ⟨h.1, by have := h.2; omega⟩

theorem Valid.of_le {j k i : Nat} (h : st.Valid j k) (hi : i ≤ k) : st.Valid j i :=
  ⟨h.1, by have := h.2; omega⟩

end Stream

namespace PacketBuffer

variable {s s' : PacketBuffer} {st : Stream} {R : List U16} {A : List Nat} {p : Packet}
  {i j k : Nat}

/-- A buffer with a slot for each packet of the stream. -/
structure Roomy (st : Stream) (s : PacketBuffer) : Prop where
  ring : Ring s
  fits : st.total ≤ s.size
  small : s.size ≤ 32768

theorem Roomy.dvd (h : Roomy st s) : s.size ∣ 65536 := by
  rcases h.ring.size.dvd_or_lt with hd | hlt
  · exact hd
  · have := h.small
    omega

theorem indexOf_base_add {b : U16} (hd : s.size ∣ 65536) (n : Nat) :
    s.indexOf (b + BitVec.ofNat 16 n) = (b.toNat + n) % s.size := by
  unfold indexOf
  rw [BitVec.toNat_add, BitVec.toNat_ofNat, Nat.mod_mod_of_dvd _ hd, Nat.add_mod,
    Nat.mod_mod_of_dvd _ hd, ← Nat.add_mod]

theorem position_eq_of_indexOf {b : U16} (hd : s.size ∣ 65536) {m n : Nat} (hmn : m ≤ n)
    (hlt : n < m + s.size) (h : s.indexOf (b + BitVec.ofNat 16 m) =
      s.indexOf (b + BitVec.ofNat 16 n)) :
    m = n := by
  rw [indexOf_base_add hd, indexOf_base_add hd] at h
  have h' : m ≡ n [MOD s.size] := Nat.ModEq.add_left_cancel' b.toNat h
  have hdvd := (Nat.modEq_iff_dvd' hmn).1 h'
  by_contra hne
  have := Nat.le_of_dvd (by omega) hdvd
  omega

theorem Roomy.eq_of_indexOf (h : Roomy st s) {l : Nat} (hv : st.Valid i k) (hv' : st.Valid j l)
    (heq : s.indexOf (st.seqAt i k) = s.indexOf (st.seqAt j l)) : i = j ∧ k = l := by
  have h1 := hv.lt_total
  have h2 := hv'.lt_total
  have h3 := h.fits
  apply hv.position_inj hv'
  rcases Nat.le_total (st.off i + k) (st.off j + l) with hle | hle
  · exact position_eq_of_indexOf h.dvd hle (by omega) heq
  · exact (position_eq_of_indexOf h.dvd hle (by omega) heq.symm).symm

/-- What the buffer holds after the numbers in `R` were received and the frames in `A`
were assembled. -/
structure Core (st : Stream) (R : List U16) (A : List Nat) (s : PacketBuffer) : Prop extends
    Roomy st s where
  notCleared : s.isClearedToFirstSeqNum = false
  /-- Received packets of other frames are stored; a mark is put only behind received ones. -/
  present : ∀ j k, st.Valid j k → j ∉ A → st.seqAt j k ∈ R →
    ∃ p, s.get (s.indexOf (st.seqAt j k)) = some p ∧ p.content = (st.packet j k).content ∧
      (p.continuous = true → ∀ i, i ≤ k → st.seqAt j i ∈ R)
  /-- Nothing else is stored. -/
  absent : ∀ i p, s.get i = some p →
    ∃ j k, st.Valid j k ∧ j ∉ A ∧ st.seqAt j k ∈ R ∧ i = s.indexOf (st.seqAt j k)
  /-- Assembled frames were received. -/
  taken : ∀ j, j ∈ A → j < st.count ∧ ∀ k, k < st.len j → st.seqAt j k ∈ R
  nodup : A.Nodup
  tracker : Tracker st.base R s.newestInsertedSeqNum s.missingPackets
  /-- Nothing up to an assembled frame is missing. -/
  behind : ∀ m ∈ s.missingPackets, ∀ j ∈ A, st.off (j + 1) ≤ rank st.base m

theorem Core.get_eq (h : Core st R A s) (hv : st.Valid j k)
    (hp : s.get (s.indexOf (st.seqAt j k)) = some p) :
    j ∉ A ∧ st.seqAt j k ∈ R ∧ p.content = (st.packet j k).content ∧
      (p.continuous = true → ∀ i, i ≤ k → st.seqAt j i ∈ R) := by
  obtain ⟨j', k', hv', hA, hR, hi⟩ := h.absent _ p hp
  obtain ⟨rfl, rfl⟩ := h.eq_of_indexOf hv hv' hi
  obtain ⟨x, hx, h1, h2⟩ := h.present _ _ hv hA hR
  rw [hp] at hx
  cases hx
  exact ⟨hA, hR, h1, h2⟩

theorem Core.get_eq_none (h : Core st R A s) (hv : st.Valid j k)
    (hn : j ∈ A ∨ st.seqAt j k ∉ R) : s.get (s.indexOf (st.seqAt j k)) = none := by
  by_contra hne
  obtain ⟨p, hp⟩ := Option.ne_none_iff_exists'.1 hne
  obtain ⟨h1, h2, -⟩ := h.get_eq hv hp
  rcases hn with hn | hn
  · exact h1 hn
  · exact hn h2

theorem Roomy.prevIndex (h : Roomy st s) (j k : Nat) :
    prevIndex s.size (s.indexOf (st.seqAt j (k + 1))) = s.indexOf (st.seqAt j k) := by
  rw [prevIndex_indexOf h.dvd, ← st.seqAt_succ]
  congr 1
  bv_omega

theorem Packet.eq_of_content_packet (hv : st.Valid j k) (h : p.content = (st.packet j k).content) :
    p.seqNum = st.seqAt j k ∧ p.timestamp = st.timestamp j ∧
      p.videoHeader.isFirstPacketInFrame = decide (k = 0) ∧
      p.videoHeader.isLastPacketInFrame = decide (k + 1 = st.len j) := by
  obtain ⟨h1, h2, -, h4, h5, -⟩ := Packet.eq_of_content h
  exact ⟨h1.trans hv.seqNum, h2.trans (st.timestamp_packet j k hv.1 hv.2),
    h4.trans (st.isFirst_packet j k hv.1 hv.2), h5.trans (st.isLast_packet j k hv.1 hv.2)⟩

end PacketBuffer
end NaiveRtc.Jitter
