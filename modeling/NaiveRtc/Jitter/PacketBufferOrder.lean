import NaiveRtc.Jitter.PacketBufferStream

/-!
# Frames come out whatever the order of arrival

Every packet of a stream of frames is inserted once, in any order, into an empty buffer
with a slot for each of them.  A frame is assembled when it is complete, unless it is an
H264 delta frame and packets before it are missing; such a frame waits for the frame
before it, whose assembly carries on into it.

* `Settled` — between two insertions: marks are put wherever they can be, and a complete
  frame that was not assembled waits for the frame before it.
* `Core.walkBack_frame`, `Core.assembleFrame` — the frame that is found and assembled is the
  sender's.
* `Core.assembleLoop` — a whole assembly settles what an insertion has unsettled.
* `arrival_order_independence` — over every order of arrival, exactly the frames that were
  sent come out, each once, and the buffer is empty in the end.
-/

namespace NaiveRtc.Jitter

open WrapAround SlotTable

namespace PacketBuffer

variable {s s' : PacketBuffer} {st : Stream} {R : List U16} {A : List Nat} {p : Packet}
  {i j k : Nat}

/-! ## Continuity -/

theorem Core.of_isContinuous (h : Core st R A s) (hv : st.Valid j k)
    (hc : s.isContinuous (st.seqAt j k) = true) : j ∉ A ∧ ∀ i, i ≤ k → st.seqAt j i ∈ R := by
  obtain ⟨p, hp, -, hor⟩ := isContinuous_iff.1 hc
  obtain ⟨hA, hR, hcontent, -⟩ := h.get_eq hv hp
  refine ⟨hA, ?_⟩
  have hfirst := (Packet.eq_of_content_packet hv hcontent).2.2.1
  cases k with
  | zero =>
    intro i hi
    obtain rfl : i = 0 := by omega
    exact hR
  | succ k =>
    rcases hor with hor | ⟨-, x, hx, -, -, hmark⟩
    · rw [hfirst] at hor
      exact absurd hor (by simp)
    · rw [h.toRoomy.prevIndex] at hx
      obtain ⟨-, -, -, hbehind⟩ := h.get_eq hv.pred hx
      intro i hi
      rcases Nat.lt_or_ge k i with hlt | hle
      · obtain rfl : i = k + 1 := by omega
        exact hR
      · exact hbehind hmark i hle

theorem Core.isContinuous (h : Core st R A s) (hv : st.Valid j k) (hA : j ∉ A)
    (hR : ∀ i, i ≤ k → st.seqAt j i ∈ R)
    (hmark : ∀ l p, l + 1 = k → s.get (s.indexOf (st.seqAt j l)) = some p → p.continuous = true) :
    s.isContinuous (st.seqAt j k) = true := by
  obtain ⟨p, hp, hcontent, -⟩ := h.present j k hv hA (hR k (Nat.le_refl k))
  obtain ⟨h1, h2, h3, -⟩ := Packet.eq_of_content_packet hv hcontent
  refine isContinuous_iff.2 ⟨p, hp, h1, ?_⟩
  cases k with
  | zero => exact Or.inl (by rw [h3]; rfl)
  | succ k =>
    obtain ⟨x, hx, hxc, -⟩ := h.present j k hv.pred hA (hR k (by omega))
    obtain ⟨h4, h5, -⟩ := Packet.eq_of_content_packet hv.pred hxc
    refine Or.inr ⟨by rw [h3]; simp, x, ?_, ?_, by rw [h5, h2], hmark k x rfl hx⟩
    · rw [h.toRoomy.prevIndex]
      exact hx
    · rw [h4, h1, ← st.seqAt_succ]
      bv_omega

/-! ## The walk backward through a frame -/

variable {w : Walk} {isH264 : Bool}

theorem step_ok (hv : st.Valid j k) (hcontent : p.content = (st.packet j k).content)
    (hnal : isH264 = true → ∀ i, i < st.len j → ∃ info,
      (st.packet j i).videoCodecHeader = .h264 info ∧
        info.nalus.length < H264.kMaxNaluNumPerPacket) :
    ∃ w', w.step isH264 s p = .ok (some w') := by
  cases isH264 with
  | false => exact ⟨_, rfl⟩
  | true =>
    obtain ⟨info, hinfo, hn⟩ := hnal rfl k hv.2
    have hheader : p.videoCodecHeader = .h264 info :=
      (congrArg Packet.videoCodecHeader hcontent).trans hinfo
    unfold Walk.step Walk.inspect
    rw [if_pos rfl, hheader]
    dsimp only
    rw [if_neg (by omega)]
    split
    · exact ⟨_, rfl⟩
    · exact ⟨_, rfl⟩

theorem seqAt_zero_add (st : Stream) (j k : Nat) :
    st.seqAt j 0 + BitVec.ofNat 16 k = st.seqAt j k := by
  unfold Stream.seqAt
  rw [Nat.add_zero, BitVec.ofNat_add, BitVec.add_assoc]

theorem Core.timestamp_ne (h : Core st R A s) (hj : j < st.count) (hlen : st.len j < s.size)
    (hp : s.get (prevIndex s.size (s.indexOf (st.seqAt j 0))) = some p) :
    p.timestamp ≠ st.timestamp j := by
  intro hts
  obtain ⟨j', k', hv, hA, hR, hi⟩ := h.absent _ p hp
  rw [hi] at hp
  obtain ⟨-, -, hcontent, -⟩ := h.get_eq hv hp
  have hts' := (Packet.eq_of_content_packet hv hcontent).2.1
  obtain rfl := st.timestamp_inj j' j hv.1 hj (hts'.symm.trans hts)
  have hnext := indexOf_succ_of_prevIndex h.ring.size hi
  rw [st.seqAt_succ] at hnext
  have hk := hv.2
  have := position_eq_of_indexOf h.dvd (b := st.base) (m := st.off j' + 0) (n :=
    st.off j' + (k' + 1))
    (by omega) (by omega) hnext.symm
  omega

theorem Core.walkBack_frame (h : Core st R A s) (hv : st.Valid j k) (hA : j ∉ A)
    (hR : ∀ i, i ≤ k → st.seqAt j i ∈ R)
    (hnal : isH264 = true → ∀ i, i < st.len j →
      ∃ info, (st.packet j i).videoCodecHeader = .h264 info ∧
      info.nalus.length < H264.kMaxNaluNumPerPacket)
    {fuel : Nat} (hfuel : fuel + st.len j = s.size + k)
    (hp : s.get (s.indexOf (st.seqAt j k)) = some p) (hw : w.seqNumStart = st.seqAt j k) :
    ∃ w', s.walkBack isH264 (st.timestamp j) fuel (s.indexOf (st.seqAt j k)) p w = .ok (w', true) ∧
      w'.seqNumStart = st.seqAt j 0 ∧
      w'.frameSize = w.frameSize + payloadSize (s.packetsFrom (st.seqAt j 0) (k + 1)) := by
  induction k generalizing fuel p w with
  | zero =>
    obtain ⟨-, -, hcontent, -⟩ := h.get_eq hv hp
    have hfirst := (Packet.eq_of_content_packet hv hcontent).2.2.1
    obtain ⟨w₀, hw₀⟩ := step_ok (w := w) hv hcontent hnal
    have hsize : (w.visit p).frameSize =
        w.frameSize + payloadSize (s.packetsFrom (st.seqAt j 0) (0 + 1)) := by
      simp [Walk.visit, packetsFrom, hp, payloadSize]
    refine walkBack_cases (fun _ _ => ⟨_, rfl, hw, hsize⟩) (fun f hf => by rw [hw₀] at hf; cases hf)
      (fun hno => by rw [hw₀] at hno; cases hno) fun w₁ hw₁ hnot => ?_
    obtain ⟨h1, h2, -⟩ := Walk.step_eq_some hw₁
    have hhere : ∃ w', Except.ok (w₁, true) = (.ok (w', true) : Except Fault (Walk × Bool)) ∧
        w'.seqNumStart = st.seqAt j 0 ∧ w'.frameSize = _ := ⟨w₁, rfl, h1.trans hw, h2.trans hsize⟩
    cases fuel with
    | zero => exact hhere
    | succ fuel =>
      obtain rfl : isH264 = true := by
        by_contra hno
        have hlast := hnot (by simpa using hno)
        rw [hfirst] at hlast
        cases hlast
      unfold walkOn
      cases hx : s.get (prevIndex s.size (s.indexOf (st.seqAt j 0))) with
      | none => exact hhere
      | some x =>
        have hne := h.timestamp_ne hv.1 (by omega) hx
        dsimp only
        rw [if_pos (by simpa using hne)]
        exact hhere
  | succ k ih =>
    obtain ⟨-, -, hcontent, -⟩ := h.get_eq hv hp
    have hfirst := (Packet.eq_of_content_packet hv hcontent).2.2.1
    obtain ⟨w₀, hw₀⟩ := step_ok (w := w) hv hcontent hnal
    obtain ⟨x, hx, hxc, -⟩ := h.present j k hv.pred hA (hR k (by omega))
    have hxts := (Packet.eq_of_content_packet hv.pred hxc).2.1
    obtain ⟨fuel, rfl⟩ : ∃ f, fuel = f + 1 := by
      have h1 := hv.lt_total
      have h2 := h.fits
      have h3 := st.off_succ j
      have h4 := st.off_mono (show j + 1 ≤ st.count from hv.1)
      have h5 : st.total = st.off st.count := rfl
      exact ⟨fuel - 1, by omega⟩
    -- the walk goes on from packet `k`, whatever the inspection has noted
    refine walkBack_cases (fun _ hyes => by rw [hfirst] at hyes; cases hyes)
      (fun f hf => by rw [hw₀] at hf; cases hf) (fun hno => by rw [hw₀] at hno; cases hno)
      fun w₁ hw₁ _ => ?_
    obtain ⟨h1, h2, -⟩ := Walk.step_eq_some hw₁
    unfold walkOn
    rw [h.toRoomy.prevIndex, hx]
    dsimp only
    rw [if_neg (by simp [hxts])]
    have hprev : w₁.seqNumStart - 1 = st.seqAt j k := by
      rw [h1, hw, ← st.seqAt_succ]
      bv_omega
    obtain ⟨w', hwalk, h3, h4⟩ := ih hv.pred (fun i hi => hR i (by omega))
      (by omega : fuel + st.len j = s.size + k)
      (w := { w₁ with seqNumStart := w₁.seqNumStart - 1 }) hx hprev
    refine ⟨w', hwalk, h3, ?_⟩
    rw [h4, packetsFrom_succ s _ (k + 1), seqAt_zero_add, hp, payloadSize_append]
    show w₁.frameSize + _ = _
    rw [h2]
    simp [Walk.visit, payloadSize]
    omega

/-! ## Writing packets and taking frames -/

theorem Core.rewrite (h : Core st R A s) (hv : st.Valid j k)
    (hp : s.get (s.indexOf (st.seqAt j k)) = some p) {p' : Packet}
    (hcontent : p'.content = p.content)
    (hmark : p'.continuous = true → ∀ i, i ≤ k → st.seqAt j i ∈ R) :
    Core st R A (s.set (s.indexOf (st.seqAt j k)) (some p')) := by
  obtain ⟨hA, hR, hpc, -⟩ := h.get_eq hv hp
  have hacc : Accounts s.packetBuffer (s.set (s.indexOf (st.seqAt j k)) (some p')).packetBuffer
    [] :=
    Accounts.mark hp hcontent
  refine ⟨⟨h.ring.of_accounts rfl hacc, by rw [size_set]; exact h.fits, by rw [size_set]; exact h.small⟩,
    h.notCleared, ?_, ?_, h.taken, h.nodup, h.tracker, h.behind⟩
  · intro j' k' hv' hA' hR'
    rw [indexOf_set]
    by_cases heq : s.indexOf (st.seqAt j k) = s.indexOf (st.seqAt j' k')
    · obtain ⟨rfl, rfl⟩ := h.eq_of_indexOf hv hv' heq
      refine ⟨p', ?_, hcontent.trans hpc, hmark⟩
      exact get_set_self (indexOf_lt h.ring.size.pos _) _
    · rw [get_set_ne heq]
      exact h.present j' k' hv' hA' hR'
  · intro i x hx
    simp only [indexOf_set]
    by_cases heq : s.indexOf (st.seqAt j k) = i
    · exact ⟨j, k, hv, hA, hR, heq.symm⟩
    · rw [get_set_ne heq] at hx
      exact h.absent i x hx

theorem Core.stretch (h : Core st R A s) (hj : j < st.count) (hA : j ∉ A)
    (hall : ∀ k, k < st.len j → st.seqAt j k ∈ R) :
    s.Stretch (st.timestamp j) (st.seqAt j 0) (st.len j) := by
  intro k hk
  rw [seqAt_zero_add]
  obtain ⟨p, hp, hcontent, -⟩ := h.present j k ⟨hj, hk⟩ hA (hall k hk)
  obtain ⟨h1, h2, -⟩ := Packet.eq_of_content_packet ⟨hj, hk⟩ hcontent
  exact ⟨p, hp, h1, h2⟩

theorem Core.payloads (h : Core st R A s) (hj : j < st.count) (hA : j ∉ A)
    (hall : ∀ k, k < st.len j → st.seqAt j k ∈ R) {n : Nat} (hn : n ≤ st.len j) :
    (s.packetsFrom (st.seqAt j 0) n).flatMap Packet.videoPayload =
      (List.range n).flatMap fun k => (st.packet j k).videoPayload := by
  induction n with
  | zero => rfl
  | succ n ih =>
    obtain ⟨p, hp, hcontent, -⟩ := h.present j n ⟨hj, by omega⟩ hA (hall n (by omega))
    have hpay := (Packet.eq_of_content hcontent).2.2.1
    rw [packetsFrom_succ, seqAt_zero_add, hp, List.flatMap_append, ih (by omega), List.range_succ,
      List.flatMap_append]
    simp [hpay]

theorem Tracker.sublist {b : U16} {newest : Option U16} {missing missing' : List U16}
    (h : Tracker b R newest missing) (hsub : missing'.Sublist missing) :
      Tracker b R newest missing' where
  ranked := h.ranked.sublist hsub
  ofNone hn := ⟨(h.ofNone hn).1, List.sublist_nil.1 ((h.ofNone hn).2 ▸ hsub)⟩
  ofSome q hq := ⟨(h.ofSome q hq).1, (h.ofSome q hq).2.1, fun m hm =>
    (h.ofSome q hq).2.2 m (hsub.subset hm)⟩
  unreceived m hm := h.unreceived m (hsub.subset hm)

/-- What a receiver sees of a frame. -/
def summary (f : AssembledFrame) : U16 × U16 × Nat × List UInt8 :=
  (f.seqNumStart, f.seqNumEnd, f.numPackets, f.bitstream)

/-- What the sender put into frame `j`. -/
def expected (st : Stream) (j : Nat) : U16 × U16 × Nat × List UInt8 :=
  (st.seqAt j 0, st.seqAt j (st.len j - 1), st.len j,
    (List.range (st.len j)).flatMap fun k => (st.packet j k).videoPayload)

theorem Stream.len_lt (hj : j < st.count) : st.len j < 65536 := by
  have h1 := st.off_succ j
  have h2 := st.off_mono (show j + 1 ≤ st.count from hj)
  have h3 : st.off st.count ≤ 32768 := st.total_le'
  omega

theorem Core.missing_after (h : Core st R A s) (hj : j < st.count) {m : U16}
    (hm : m ∈ Ordered.eraseUpTo olderThan id (st.seqAt j (st.len j - 1)) s.missingPackets) :
    m ∈ s.missingPackets ∧ st.off (j + 1) ≤ rank st.base m := by
  have hpos := st.len_pos j hj
  have hrank := (show st.Valid j (st.len j - 1) from ⟨hj, by omega⟩).rank
  have hoff := st.off_succ j
  have hend := st.off_mono (show j + 1 ≤ st.count from hj)
  have htotal : st.off st.count ≤ 32768 := st.total_le'
  refine (Ordered.mem_dropWhile_iff_of_ranked (c := st.off (j + 1)) h.tracker.ranked ?_).1 hm
  intro e he
  have hnone : s.newestInsertedSeqNum ≠ none := by
    intro hn
    rw [(h.tracker.ofNone hn).2] at he
    exact absurd he List.not_mem_nil
  obtain ⟨x, hx⟩ := Option.ne_none_iff_exists'.1 hnone
  obtain ⟨h1, -, h3⟩ := h.tracker.ofSome x hx
  have h4 := h3 e he
  show (!olderThan (st.seqAt j (st.len j - 1)) e) = _
  rw [olderThan_eq_rank (b := st.base) (by omega) (by omega), hrank, Bool.eq_iff_iff]
  simp only [Bool.not_eq_true', decide_eq_false_iff_not, decide_eq_true_iff]
  omega

theorem Core.take (h : Core st R A s) (hj : j < st.count) (hA : j ∉ A)
    (hall : ∀ k, k < st.len j → st.seqAt j k ∈ R)
    (hs' : s' = { s with
      packetBuffer := s'.packetBuffer
      missingPackets := Ordered.eraseUpTo olderThan id
        (st.seqAt j (st.len j - 1)) s.missingPackets })
    (hring : Ring s') (hsize : s'.size = s.size)
    (hiff : ∀ i p, s'.get i = some p ↔
      s.get i = some p ∧ ∀ k, k < st.len j → p.seqNum ≠ st.seqAt j 0 + BitVec.ofNat 16 k) :
    Core st R (A ++ [j]) s' := by
  have hindex : ∀ q, s'.indexOf q = s.indexOf q := by
    intro q
    unfold indexOf
    rw [hsize]
  have hmiss : s'.missingPackets =
      Ordered.eraseUpTo olderThan id (st.seqAt j (st.len j - 1)) s.missingPackets := by rw [hs']
  have hnew : s'.newestInsertedSeqNum = s.newestInsertedSeqNum := by rw [hs']
  have hclr : s'.isClearedToFirstSeqNum = s.isClearedToFirstSeqNum := by rw [hs']
  refine ⟨⟨hring, hsize ▸ h.fits, hsize ▸ h.small⟩, hclr.trans h.notCleared, ?_, ?_, ?_, ?_, ?_, ?_⟩
  · intro j' k' hv' hA' hR'
    simp only [List.mem_append, List.mem_singleton, not_or] at hA'
    obtain ⟨p, hp, hcontent, hmark⟩ := h.present j' k' hv' hA'.1 hR'
    refine ⟨p, ?_, hcontent, hmark⟩
    rw [hindex, hiff]
    refine ⟨hp, ?_⟩
    intro k hk heq
    rw [(Packet.eq_of_content_packet hv' hcontent).1, seqAt_zero_add] at heq
    exact hA'.2 (h.eq_of_indexOf hv' ⟨hj, hk⟩ (by rw [heq])).1
  · intro i p hp
    obtain ⟨hp', hne⟩ := (hiff i p).1 hp
    obtain ⟨j', k', hv', hA', hR', hi⟩ := h.absent i p hp'
    refine ⟨j', k', hv', ?_, hR', by rw [hi, hindex]⟩
    simp only [List.mem_append, List.mem_singleton, not_or]
    refine ⟨hA', ?_⟩
    rintro rfl
    rw [hi] at hp'
    obtain ⟨-, -, hcontent, -⟩ := h.get_eq hv' hp'
    apply hne k' hv'.2
    rw [seqAt_zero_add]
    exact (Packet.eq_of_content_packet hv' hcontent).1
  · intro j' hj'
    rcases List.mem_append.1 hj' with hj' | hj'
    · exact h.taken j' hj'
    · rw [List.mem_singleton.1 hj']
      exact ⟨hj, hall⟩
  · refine List.nodup_append.2 ⟨h.nodup, List.pairwise_singleton _ _, ?_⟩
    intro x hx y hy
    rw [List.mem_singleton.1 hy]
    rintro rfl
    exact hA hx
  · rw [hnew, hmiss]
    exact h.tracker.sublist (Ordered.eraseUpTo_sublist ..)
  · intro m hm j' hj'
    rw [hmiss] at hm
    rcases List.mem_append.1 hj' with hj' | hj'
    · exact h.behind m (h.missing_after hj hm).1 j' hj'
    · rw [List.mem_singleton.1 hj']
      exact (h.missing_after hj hm).2

theorem Core.assembleFrame (h : Core st R A s) (hj : j < st.count) (hA : j ∉ A)
    (hall : ∀ k, k < st.len j → st.seqAt j k ∈ R) (hstart : w.seqNumStart = st.seqAt j 0)
    (hsize : w.frameSize = payloadSize (s.packetsFrom (st.seqAt j 0) (st.len j))) :
    ∃ s' f, s.assembleFrame (st.seqAt j (st.len j - 1)) w = .ok (s', f) ∧
      Core st R (A ++ [j]) s' ∧ s'.size = s.size ∧ summary f = expected st j ∧
      ∀ i p, s'.get i = some p → s.get i = some p := by
  have hpos := st.len_pos j hj
  have hst := h.stretch hj hA hall
  obtain ⟨s₁, htake, hiff⟩ := h.ring.takePackets_run hst (Stream.len_lt hj)
  obtain ⟨hs₁, hacc⟩ := takePackets_spec htake
  have hnum : (st.seqAt j (st.len j - 1) + 1 - st.seqAt j 0).toNat = st.len j := by
    rw [st.seqAt_succ, Nat.sub_add_cancel hpos, ← seqAt_zero_add st j (st.len j)]
    exact rank_add_ofNat _ (Stream.len_lt hj)
  obtain ⟨hframe1, hframe2, hintact⟩ := buildFrame_spec hpos hst.map_seqNum hst.timestamps
  have hmiss : s₁.missingPackets = s.missingPackets := by rw [hs₁]
  refine ⟨{ s₁ with missingPackets :=
      Ordered.eraseUpTo olderThan id (st.seqAt j (st.len j - 1)) s₁.missingPackets },
    buildFrame (st.len j) (payloadSize (s.packetsFrom (st.seqAt j 0) (st.len j)))
      (s.packetsFrom (st.seqAt j 0) (st.len j)), ?_, ?_, hacc.length, ?_, ?_⟩
  · unfold PacketBuffer.assembleFrame
    simp only [hstart, hnum, htake]
    rw [if_neg (by rw [length_flatMap_videoPayload, hsize]; omega), hsize]
  · refine h.take hj hA hall ?_ ?_ hacc.length hiff
    · rw [hmiss, hs₁]
    · exact (h.ring.of_accounts (by rw [hs₁]) hacc).congr rfl rfl
  · unfold summary expected
    rw [hintact.ends, hintact.bitstream, hframe1, hframe2, packets_buildFrame,
      h.payloads hj hA hall (Nat.le_refl _), seqAt_zero_add]
  · intro i p hp
    exact ((hiff i p).1 hp).1

/-! ## Settled buffers -/

/-- All is settled but frame `j` from packet `k` on: marks are put wherever they can be, and
a complete frame that was not assembled waits for the frame before it. -/
structure Settled (st : Stream) (R : List U16) (A : List Nat) (s : PacketBuffer) (j k : Nat) :
    Prop where
  marks : ∀ j' k' p, st.Valid j' k' → (j' = j → k' < k) → (∀ i, i ≤ k' → st.seqAt j' i ∈ R) →
    s.get (s.indexOf (st.seqAt j' k')) = some p → p.continuous = true
  waiting : ∀ j', j' < st.count → j' ≠ j → j' ∉ A → (∀ k', k' < st.len j' → st.seqAt j' k' ∈ R) →
    0 < j' ∧ j' - 1 ∉ A

theorem Settled.of_not_isContinuous (hset : Settled st R A s j k) (h : Core st R A s)
    (hv : st.Valid j k) (hc : s.isContinuous (st.seqAt j k) = false) :
    Settled st R A s st.count 0 := by
  have hgap : j ∉ A → ∃ i, i ≤ k ∧ st.seqAt j i ∉ R := by
    intro hA
    by_contra hall
    push Not at hall
    have : s.isContinuous (st.seqAt j k) = true := by
      apply h.isContinuous hv hA hall
      rintro l p rfl hp
      exact hset.marks j l p hv.pred (fun _ => by omega) (fun i hi => hall i (by omega)) hp
    rw [hc] at this
    exact absurd this (by simp)
  refine ⟨?_, ?_⟩
  · intro j' k' p hv' _ hR hp
    by_cases hlate : j' = j ∧ k ≤ k'
    · obtain ⟨rfl, hle⟩ := hlate
      obtain ⟨hA, -⟩ := h.get_eq hv' hp
      obtain ⟨i, hi, hnot⟩ := hgap hA
      exact absurd (hR i (by omega)) hnot
    · exact hset.marks j' k' p hv' (fun heq => by
        by_contra hge
        exact hlate ⟨heq, by omega⟩) hR hp
  · intro j' hj' _ hA hall
    by_cases heq : j' = j
    · subst heq
      obtain ⟨i, hi, hnot⟩ := hgap hA
      exact absurd (hall i (by have := hv.2; omega)) hnot
    · exact hset.waiting j' hj' heq hA hall

theorem Settled.rewrite (hset : Settled st R A s j k) (h : Core st R A s) {j₀ k₀ : Nat}
    {p' : Packet} (hmark : p'.continuous = true) :
    Settled st R A (s.set (s.indexOf (st.seqAt j₀ k₀)) (some p')) j k := by
  refine ⟨?_, hset.waiting⟩
  intro j' k' p hv' hlate hR hp
  rw [indexOf_set] at hp
  by_cases heq : s.indexOf (st.seqAt j₀ k₀) = s.indexOf (st.seqAt j' k')
  · rw [← heq, get_set_self (indexOf_lt h.ring.size.pos _)] at hp
    cases hp
    exact hmark
  · rw [get_set_ne heq] at hp
    exact hset.marks j' k' p hv' hlate hR hp

theorem Settled.marked (hset : Settled st R A s j k) (h : Core st R A s) :
    Settled st R A (s.marked (st.seqAt j k) p) j (k + 1) := by
  refine ⟨?_, hset.waiting⟩
  intro j' k' x hv' hlate hR hx
  unfold PacketBuffer.marked at hx
  rw [indexOf_set] at hx
  by_cases heq : s.indexOf (st.seqAt j k) = s.indexOf (st.seqAt j' k')
  · rw [← heq, get_set_self (indexOf_lt h.ring.size.pos _)] at hx
    cases hx
    rfl
  · rw [get_set_ne heq] at hx
    refine hset.marks j' k' x hv' ?_ hR hx
    intro hj
    have hlt := hlate hj
    by_contra hge
    obtain rfl : k' = k := by omega
    exact heq (by rw [hj])

theorem Core.waiting_of_missing (h : Core st R A s) (hv : st.Valid j 0) (hR : st.seqAt j 0 ∈ R)
    (hmiss : s.missingUpTo (st.seqAt j 0) = true) : 0 < j ∧ j - 1 ∉ A := by
  have hhead : ∃ m ∈ s.missingPackets, olderThan (st.seqAt j 0) m = false := by
    unfold missingUpTo at hmiss
    split at hmiss
    · exact absurd hmiss (by simp)
    · rename_i m rest hm
      exact ⟨m, by rw [hm]; exact List.mem_cons_self, by simpa using hmiss⟩
  obtain ⟨m, hm, hold⟩ := hhead
  have hnone : s.newestInsertedSeqNum ≠ none := by
    intro hn
    rw [(h.tracker.ofNone hn).2] at hm
    exact absurd hm List.not_mem_nil
  obtain ⟨x, hx⟩ := Option.ne_none_iff_exists'.1 hnone
  obtain ⟨h1, -, h3⟩ := h.tracker.ofSome x hx
  have h4 := h3 m hm
  have hrank := hv.rank
  have hlt := hv.lt_total
  have htotal := st.total_le'
  rw [olderThan_eq_rank (b := st.base) (by omega) (by omega), decide_eq_false_iff_not] at hold
  -- `m` was not received, so it is not the first packet of the frame
  have hne : rank st.base m ≠ rank st.base (st.seqAt j 0) := by
    intro heq
    apply h.tracker.unreceived m hm
    rw [rank_inj heq]
    exact hR
  have hpos : 0 < j := by
    rcases Nat.eq_zero_or_pos j with rfl | hpos
    · rw [Stream.off_zero] at hrank
      omega
    · exact hpos
  refine ⟨hpos, ?_⟩
  intro hA
  have := h.behind m hm _ hA
  rw [Nat.sub_add_cancel hpos] at this
  omega

theorem Settled.take (hset : Settled st R A s j (st.len j)) (hsize : s'.size = s.size)
    (hsub : ∀ i p, s'.get i = some p → s.get i = some p) :
      Settled st R (A ++ [j]) s' (j + 1) 0 := by
  refine ⟨?_, ?_⟩
  · intro j' k' p hv' _ hR hp
    refine hset.marks j' k' p hv' (fun hj => hj ▸ hv'.2) hR ?_
    have hindex : s'.indexOf (st.seqAt j' k') = s.indexOf (st.seqAt j' k') := by
      unfold indexOf
      rw [hsize]
    rw [← hindex]
    exact hsub _ p hp
  · intro j' hj' hne hA hall
    simp only [List.mem_append, List.mem_singleton, not_or] at hA
    obtain ⟨h1, h2⟩ := hset.waiting j' hj' hA.2 hA.1 hall
    refine ⟨h1, ?_⟩
    simp only [List.mem_append, List.mem_singleton, not_or]
    exact ⟨h2, by omega⟩

/-- The end of a round at the last packet of frame `j`: the frame is withheld and all is
settled, or it is assembled and the frame after it is looked at. -/
def RoundSettled (st : Stream) (R : List U16) (A : List Nat) (s : PacketBuffer) (j : Nat) :
    Except Fault Round → Prop
  | .error _ => False
  | .ok (.stop s' _) => Core st R A s' ∧ Settled st R A s' st.count 0 ∧ s'.size = s.size
  | .ok (.next s' f _) => Core st R (A ++ [j]) s' ∧ Settled st R (A ++ [j]) s' (j + 1) 0 ∧
    s'.size = s.size ∧ ∃ x, f = some x ∧ summary x = expected st j

theorem Core.finishFrame (h : Core st R A s) (hset : Settled st R A s j (st.len j))
    (hj : j < st.count)
    (hA : j ∉ A) (hall : ∀ k, k < st.len j → st.seqAt j k ∈ R)
    (hstart : w.seqNumStart = st.seqAt j 0)
    (hsize : w.frameSize = payloadSize (s.packetsFrom (st.seqAt j 0) (st.len j))) :
    RoundSettled st R A s j (s.finishFrame isH264 (st.seqAt j (st.len j - 1)) w) := by
  unfold PacketBuffer.finishFrame
  dsimp only
  cases isH264 with
  | false =>
    obtain ⟨s', f, hf, hcore, hs', hsum, hsub⟩ := h.assembleFrame hj hA hall hstart hsize
    rw [if_neg (by simp), hf]
    exact ⟨hcore, hset.take hs' hsub, hs', f, rfl, hsum⟩
  | true =>
    have hv : st.Valid j 0 := ⟨hj, st.len_pos j hj⟩
    obtain ⟨first, hfirst, hcontent, hbehind⟩ := h.present j 0 hv hA (hall 0 hv.2)
    have hmark : first.continuous = true :=
      hset.marks j 0 first hv (fun _ => hv.2) (fun i hi => by
        obtain rfl : i = 0 := by omega
        exact hall 0 hv.2) hfirst
    rw [if_pos rfl, hstart, hfirst]
    dsimp only
    have hacc : Accounts s.packetBuffer
        (s.set (s.indexOf (st.seqAt j 0)) (some (w.classify first))).packetBuffer [] :=
      Accounts.mark hfirst (w.content_classify first)
    have hcore := h.rewrite hv hfirst (w.content_classify first) (by
      rw [classify_continuous]
      exact hbehind)
    have hset' : Settled st R A (s.set (s.indexOf (st.seqAt j 0)) (some (w.classify first))) j
        (st.len j) := hset.rewrite h (by rwa [classify_continuous])
    have hs₁ : (s.set (s.indexOf (st.seqAt j 0)) (some (w.classify first))).size = s.size :=
      size_set ..
    generalize s.set (s.indexOf (st.seqAt j 0)) (some (w.classify first)) = s₁ at *
    split
    · rename_i hw
      simp only [Bool.and_eq_true] at hw
      refine ⟨hcore, ⟨?_, ?_⟩, hs₁⟩
      · intro j' k' p hv' _ hR hp
        exact hset'.marks j' k' p hv' (fun heq => heq ▸ hv'.2) hR hp
      · intro j' hj' _ hA' hall'
        by_cases heq : j' = j
        · subst heq
          exact hcore.waiting_of_missing hv (hall 0 hv.2) hw.2
        · exact hset'.waiting j' hj' heq hA' hall'
    · obtain ⟨s', f, hf, hcore', hs', hsum, hsub⟩ := hcore.assembleFrame hj hA hall hstart
        (by rw [payloadSize_packetsFrom hacc]; exact hsize)
      rw [hf]
      exact ⟨hcore', hset'.take hs' hsub, hs'.trans hs₁, f, rfl, hsum⟩

theorem Core.assembleRound_last (h : Core st R A s) (hset : Settled st R A s j k)
    (hv : st.Valid j k)
    (hlast : k + 1 = st.len j) (hA : j ∉ A) (hR : ∀ i, i ≤ k → st.seqAt j i ∈ R)
    (hp : s.get (s.indexOf (st.seqAt j k)) = some p) :
    RoundSettled st R A s j (s.assembleRound (st.seqAt j k) p) := by
  obtain ⟨-, -, hcontent, -⟩ := h.get_eq hv hp
  obtain ⟨hseq, hts, -, hislast⟩ := Packet.eq_of_content_packet hv hcontent
  have hcore : Core st R A (s.marked (st.seqAt j k) p) := h.rewrite hv hp rfl fun _ => hR
  have hset' : Settled st R A (s.marked (st.seqAt j k) p) j (st.len j) := hlast ▸ hset.marked h
  have hindex : (s.marked (st.seqAt j k) p).indexOf (st.seqAt j k) = s.indexOf (st.seqAt j k) :=
    indexOf_set ..
  have hsize : (s.marked (st.seqAt j k) p).size = s.size := size_set ..
  have hget : (s.marked (st.seqAt j k) p).get ((s.marked (st.seqAt j k) p).indexOf (st.seqAt j k)) =
      some { p with continuous := true } := by
    rw [hindex]
    exact get_set_self (indexOf_lt h.ring.size.pos _) _
  have hpos := h.ring.size.pos
  have hk : st.len j - 1 = k := by omega
  have hnal : (p.videoHeader.codecType == .h264) = true → ∀ i, i < st.len j →
      ∃ info, (st.packet j i).videoCodecHeader = .h264 info ∧
        info.nalus.length < H264.kMaxNaluNumPerPacket := by
    intro hcodec
    have hc : p.videoHeader.codecType = (st.packet j k).videoHeader.codecType := by
      have := congrArg (fun x : Packet => x.videoHeader.codecType) hcontent
      exact this
    apply st.nalus_packet j hv.1
    rw [hk, ← hc]
    simpa using hcodec
  obtain ⟨w, hwalk, hstart, hframe⟩ := hcore.walkBack_frame hv hA hR hnal
    (by rw [hsize]; omega : s.size - 1 + st.len j = (s.marked (st.seqAt j k) p).size + k)
    (w := { seqNumStart := st.seqAt j k }) hget rfl
  unfold PacketBuffer.assembleRound
  simp only [size_set, indexOf_set]
  rw [if_pos (by rw [hislast]; simpa using hlast)]
  rw [hindex, ← hts] at hwalk
  change RoundSettled st R A s j (s.ended (st.seqAt j k) p (s.walkFrom (st.seqAt j k) p))
  rw [show s.walkFrom (st.seqAt j k) p = .ok (w, true) from hwalk]
  have hfinish : RoundSettled st R A (s.marked (st.seqAt j k) p) j
      ((s.marked (st.seqAt j k) p).finishFrame (p.videoHeader.codecType == .h264)
        (st.seqAt j (st.len j - 1)) w) :=
    hcore.finishFrame hset' hv.1 hA (fun i hi => hR i (by omega)) hstart
      (by rw [hframe, hlast]; exact Nat.zero_add _)
  rw [hk] at hfinish
  show RoundSettled st R A s j ((s.marked (st.seqAt j k) p).finishFrame
    (p.videoHeader.codecType == .h264) (st.seqAt j k) w)
  generalize (s.marked (st.seqAt j k) p).finishFrame _ _ _ = r at *
  cases r with
  | error f => exact hfinish
  | ok r =>
    cases r with
    | stop s' v => exact ⟨hfinish.1, hfinish.2.1, hfinish.2.2.trans hsize⟩
    | next s' f v =>
      exact ⟨hfinish.1, hfinish.2.1, hfinish.2.2.1.trans hsize, hfinish.2.2.2⟩

/-! ## A whole assembly -/

theorem Core.not_isContinuous_end (h : Core st R A s) :
    s.isContinuous (st.seqAt st.count 0) = false := by
  by_contra hc
  obtain ⟨p, hp, hseq, -⟩ := isContinuous_iff.1 (by simpa using hc)
  obtain ⟨j, k, hv, -, -, hi⟩ := h.absent _ p hp
  rw [hi] at hp
  obtain ⟨-, -, hcontent, -⟩ := h.get_eq hv hp
  have heq := (Packet.eq_of_content_packet hv hcontent).1.symm.trans hseq
  have hrank := congrArg (rank st.base) heq
  have htotal := st.total_le'
  have hlt := hv.lt_total
  have hend : rank st.base (st.seqAt st.count 0) = st.total :=
    rank_add_ofNat st.base (by unfold Stream.total at htotal; omega)
  rw [hv.rank, hend] at hrank
  omega

/-- Where the assembly goes on after packet `k` of frame `j`, or where it ends. -/
def OnStream (st : Stream) (j k : Nat) : Prop := st.Valid j k ∨ (j = st.count ∧ k = 0)

theorem onStream_next (hj : j < st.count) : OnStream st (j + 1) 0 := by
  rcases Nat.lt_or_ge (j + 1) st.count with hlt | hge
  · exact Or.inl ⟨hlt, st.len_pos _ hlt⟩
  · exact Or.inr ⟨by omega, rfl⟩

theorem Core.assembleLoop {n : Nat} (h : Core st R A s) (hset : Settled st R A s j k)
    (hon : OnStream st j k) (hn : st.total ≤ st.off j + k + n) :
    ∃ s' r new, assembleLoop n (st.seqAt j k) s = .ok (s', r) ∧ Core st R (A ++ new) s' ∧
      Settled st R (A ++ new) s' st.count 0 ∧ s'.size = s.size ∧
      r.assembledFrames.map summary = new.map (expected st) := by
  induction n generalizing s A j k with
  | zero =>
    have hend : j = st.count ∧ k = 0 := by
      rcases hon with hv | hend
      · have := hv.lt_total
        omega
      · exact hend
    obtain ⟨rfl, rfl⟩ := hend
    exact ⟨s, {}, [], rfl, by simpa using h, by simpa using hset, rfl, rfl⟩
  | succ n ih =>
    rw [PacketBuffer.assembleLoop]
    rcases hon with hv | ⟨rfl, rfl⟩
    · cases hc : s.isContinuous (st.seqAt j k) with
      | false =>
        rw [if_pos (by simp)]
        exact ⟨s, {}, [], rfl, by simpa using h,
          by simpa using hset.of_not_isContinuous h hv hc, rfl, rfl⟩
      | true =>
        rw [if_neg (by simp)]
        obtain ⟨hA, hR⟩ := h.of_isContinuous hv hc
        obtain ⟨p, hp, hcontent, -⟩ := h.present j k hv hA (hR k (Nat.le_refl k))
        rw [hp]
        dsimp only
        by_cases hlast : k + 1 = st.len j
        · -- the frame is complete
          have hround := h.assembleRound_last hset hv hlast hA hR hp
          cases hr : s.assembleRound (st.seqAt j k) p with
          | error f =>
            rw [hr] at hround
            exact hround.elim
          | ok round =>
            rw [hr] at hround
            cases round with
            | stop s' v =>
              obtain ⟨h1, h2, h3⟩ := hround
              exact ⟨s', { visits := v }, [], rfl, by simpa using h1, by simpa using h2, h3, rfl⟩
            | next s' f v =>
              obtain ⟨h1, h2, h3, x, rfl, hsum⟩ := hround
              have hoff := st.off_succ j
              obtain ⟨s'', r, new, h4, h5, h6, h7, h8⟩ := ih h1 h2 (onStream_next hv.1) (by omega)
              rw [st.seqAt_succ, hlast, st.seqAt_len]
              dsimp only
              rw [h4]
              refine ⟨s'', _, j :: new, rfl, by simpa using h5, by simpa using h6, h7.trans h3, ?_⟩
              simp [h8, hsum]
        · -- on to the next packet of the frame
          have hislast := (Packet.eq_of_content_packet hv hcontent).2.2.2
          have hr : s.assembleRound (st.seqAt j k) p =
            .ok (.next (s.marked (st.seqAt j k) p) none []) := by
            unfold PacketBuffer.assembleRound
            dsimp only
            rw [if_neg (by rw [hislast]; simpa using hlast)]
            rfl
          have hcore : Core st R A (s.marked (st.seqAt j k) p) := h.rewrite hv hp rfl fun _ => hR
          have hv' : st.Valid j (k + 1) := ⟨hv.1, by have := hv.2; omega⟩
          obtain ⟨s'', r, new, h4, h5, h6, h7, h8⟩ :=
            ih hcore (hset.marked h) (Or.inl hv') (by omega)
          rw [hr, st.seqAt_succ]
          dsimp only
          rw [h4]
          refine ⟨s'', _, new, rfl, h5, h6, h7.trans (size_set ..), ?_⟩
          simpa using h8
    · rw [h.not_isContinuous_end, if_pos (by simp)]
      exact ⟨s, {}, [], rfl, by simpa using h, by simpa using hset, rfl, rfl⟩

/-! ## Insertions -/

theorem noteFirst_rest (s : PacketBuffer) (q : U16) :
    (s.noteFirst q).isClearedToFirstSeqNum = s.isClearedToFirstSeqNum ∧
      (s.noteFirst q).newestInsertedSeqNum = s.newestInsertedSeqNum ∧
      (s.noteFirst q).missingPackets = s.missingPackets := by
  unfold noteFirst
  split
  · exact ⟨rfl, rfl, rfl⟩
  · split <;> exact ⟨rfl, rfl, rfl⟩

theorem isClearedToFirstSeqNum_updateMissingPackets (s : PacketBuffer) (q : U16) (n : Nat) :
    (s.updateMissingPackets q n).isClearedToFirstSeqNum = s.isClearedToFirstSeqNum := by
  unfold updateMissingPackets
  dsimp only
  split <;> rfl

theorem Core.stored (h : Core st R A s) (hv : st.Valid j k) (hnot : st.seqAt j k ∉ R) :
    Core st (st.seqAt j k :: R) A ((s.noteFirst (st.seqAt j k)).stored (st.packet j k)) := by
  have hseq := hv.seqNum
  obtain ⟨hclr, hnew, hmiss⟩ := noteFirst_rest s (st.seqAt j k)
  have hring := (h.ring.noteFirst (st.seqAt j k)).stored (st.packet j k)
  have hsize : ((s.noteFirst (st.seqAt j k)).stored (st.packet j k)).size = s.size := by
    rw [size_stored, size_noteFirst]
  have hindex : ∀ q, ((s.noteFirst (st.seqAt j k)).stored (st.packet j k)).indexOf q =
    s.indexOf q := by
    intro q
    unfold indexOf
    rw [hsize]
  have hself : ((s.noteFirst (st.seqAt j k)).stored (st.packet j k)).get
    (s.indexOf (st.seqAt j k)) =
      some { st.packet j k with continuous := false } := by
    have hhome : (s.noteFirst (st.seqAt j k)).indexOf (st.packet j k).seqNum =
      s.indexOf (st.seqAt j k) := by
      rw [hseq, indexOf_noteFirst]
    rw [← hhome]
    exact get_stored_self (by rw [size_noteFirst]; exact h.ring.size.pos)
  have hother : ∀ i, s.indexOf (st.seqAt j k) ≠ i →
      ((s.noteFirst (st.seqAt j k)).stored (st.packet j k)).get i = s.get i := by
    intro i hi
    rw [get_stored_ne (by rwa [hseq, indexOf_noteFirst]), get_noteFirst]
  have htr : Tracker st.base R (s.noteFirst (st.seqAt j k)).newestInsertedSeqNum
      (s.noteFirst (st.seqAt j k)).missingPackets := by
    rw [hnew, hmiss]
    exact h.tracker
  have hrank : rank st.base (st.packet j k).seqNum < 32768 := by
    have h1 := hv.lt_total
    have h2 := st.total_le'
    rw [hseq, hv.rank]
    omega
  obtain ⟨htr', hold⟩ := htr.stored hrank
  rw [hseq] at htr'
  refine ⟨⟨hring, hsize ▸ h.fits, hsize ▸ h.small⟩, ?_, ?_, ?_, ?_, h.nodup, htr', ?_⟩
  · unfold PacketBuffer.stored
    rw [isClearedToFirstSeqNum_updateMissingPackets]
    exact hclr.trans h.notCleared
  · intro j' k' hv' hA' hR'
    rw [hindex]
    by_cases heq : s.indexOf (st.seqAt j k) = s.indexOf (st.seqAt j' k')
    · obtain ⟨rfl, rfl⟩ := h.eq_of_indexOf hv hv' heq
      exact ⟨_, hself, rfl, fun hc => absurd hc (by simp)⟩
    · have hne : st.seqAt j' k' ≠ st.seqAt j k := fun h' => heq (by rw [h'])
      obtain ⟨p, hp, h1, h2⟩ := h.present j' k' hv' hA' ((List.mem_cons.1 hR').resolve_left hne)
      exact ⟨p, by rw [hother _ heq]; exact hp, h1, fun hc i hi =>
        List.mem_cons_of_mem _ (h2 hc i hi)⟩
  · intro i p hp
    simp only [hindex]
    by_cases heq : s.indexOf (st.seqAt j k) = i
    · refine ⟨j, k, hv, ?_, List.mem_cons_self, heq.symm⟩
      intro hA
      exact hnot ((h.taken j hA).2 k hv.2)
    · rw [hother i heq] at hp
      obtain ⟨j', k', h1, h2, h3, h4⟩ := h.absent i p hp
      exact ⟨j', k', h1, h2, List.mem_cons_of_mem _ h3, h4⟩
  · intro j' hj'
    obtain ⟨h1, h2⟩ := h.taken j' hj'
    exact ⟨h1, fun k hk => List.mem_cons_of_mem _ (h2 k hk)⟩
  · intro m hm j' hj'
    rcases hold m hm with h1 | h1
    · rw [hmiss] at h1
      exact h.behind m h1 j' hj'
    · obtain ⟨h2, h3⟩ := h.taken j' hj'
      have hpos := st.len_pos j' h2
      have hv' : st.Valid j' (st.len j' - 1) := ⟨h2, by omega⟩
      have h4 := h1 _ (h3 _ hv'.2)
      rw [hv'.rank] at h4
      rw [st.off_succ]
      omega

theorem Settled.stored (hset : Settled st R A s st.count 0) (h : Core st R A s)
    (hv : st.Valid j k) :
    Settled st (st.seqAt j k :: R) A ((s.noteFirst (st.seqAt j k)).stored (st.packet j k)) j k := by
  have hold : ∀ j' k', st.Valid j' k' → ¬ (j' = j ∧ k' = k) → st.seqAt j' k' ∈ st.seqAt j k :: R →
      st.seqAt j' k' ∈ R := by
    intro j' k' hv' hne hR
    refine (List.mem_cons.1 hR).resolve_left ?_
    intro heq
    exact hne (h.eq_of_indexOf hv' hv (by rw [heq]))
  refine ⟨?_, ?_⟩
  · intro j' k' p hv' hlate hR hp
    have hne : ¬ (j' = j ∧ k' = k) := by
      rintro ⟨rfl, rfl⟩
      exact absurd (hlate rfl) (by omega)
    have hindex : ((s.noteFirst (st.seqAt j k)).stored (st.packet j k)).indexOf (st.seqAt j' k') =
        s.indexOf (st.seqAt j' k') := by
      unfold indexOf
      rw [size_stored, size_noteFirst]
    rw [hindex, get_stored_ne, get_noteFirst] at hp
    · refine hset.marks j' k' p hv' (fun heq => absurd hv'.1 (by omega)) ?_ hp
      intro i hi
      refine hold j' i (hv'.of_le hi) ?_ (hR i hi)
      rintro ⟨rfl, rfl⟩
      exact absurd (hlate rfl) (by omega)
    · rw [hv.seqNum, indexOf_noteFirst]
      intro heq
      obtain ⟨h1, h2⟩ := h.eq_of_indexOf hv hv' heq
      exact hne ⟨h1.symm, h2.symm⟩
  · intro j' hj' hne hA hall
    apply hset.waiting j' hj' (by omega) hA
    intro k' hk'
    exact hold j' k' ⟨hj', hk'⟩ (fun heq => hne heq.1) (hall k' hk')

theorem Core.insertPacket (h : Core st R A s) (hset : Settled st R A s st.count 0)
    (hv : st.Valid j k) (hnot : st.seqAt j k ∉ R) :
    ∃ s' r new, s.insertPacket (st.packet j k) = .ok (s', r) ∧
      Core st (st.seqAt j k :: R) (A ++ new) s' ∧
      Settled st (st.seqAt j k :: R) (A ++ new) s' st.count 0 ∧
      r.assembledFrames.map summary = new.map (expected st) := by
  have hnone := h.get_eq_none hv (Or.inr hnot)
  have heq : s.insertPacket (st.packet j k) =
      ((s.noteFirst (st.seqAt j k)).stored (st.packet j k)).tryToAssembleFrames (st.seqAt j k) := by
    rcases insertPacket_eq s (st.packet j k) with
      ⟨hcl, -⟩ | ⟨x, hx, -⟩ | ⟨-, -, he⟩ | ⟨⟨-, x, hx, -⟩, -⟩ | ⟨⟨-, x, hx, -⟩, -⟩
    · unfold isCleared at hcl
      rw [h.notCleared] at hcl
      exact absurd hcl (by simp)
    · rw [hv.seqNum, hnone] at hx
      exact absurd hx (by simp)
    · rwa [hv.seqNum] at he
    · rw [hv.seqNum, hnone] at hx
      exact absurd hx (by simp)
    · rw [hv.seqNum, hnone] at hx
      exact absurd hx (by simp)
  have hcore := h.stored hv hnot
  obtain ⟨s', r, new, h1, h2, h3, -, h5⟩ := hcore.assembleLoop (hset.stored h hv) (Or.inl hv)
    (n := ((s.noteFirst (st.seqAt j k)).stored (st.packet j k)).size) (by
      have := hcore.fits
      omega)
  exact ⟨s', r, new, heq.trans h1, h2, h3, h5⟩

/-! ## Every order of arrival -/

/-- The frames that came out during a run. -/
def framesOf (log : List (PacketOp × PacketEvent)) : List AssembledFrame :=
  log.flatMap fun e =>
    match e.2 with
    | .returned r => r.assembledFrames
    | _ => []

theorem Core.run (h : Core st R A s) (hset : Settled st R A s st.count 0) {order : List Packet}
    (hvalid : ∀ p ∈ order, ∃ j k, st.Valid j k ∧ p = st.packet j k)
    (hnodup : (order.map Packet.seqNum).Nodup) (hnew : ∀ p ∈ order, p.seqNum ∉ R) :
    ∃ s' new, packetMachine.final (some s) (order.map .insertPacket) = some s' ∧
      Core st ((order.map Packet.seqNum).reverse ++ R) (A ++ new) s' ∧
      Settled st ((order.map Packet.seqNum).reverse ++ R) (A ++ new) s' st.count 0 ∧
      (framesOf (packetMachine.log (some s) (order.map .insertPacket))).map summary =
        new.map (expected st) := by
  induction order generalizing s R A with
  | nil => exact ⟨s, [], rfl, by simpa using h, by simpa using hset, rfl⟩
  | cons p order ih =>
    obtain ⟨j, k, hv, rfl⟩ := hvalid p List.mem_cons_self
    have hnot := hnew _ List.mem_cons_self
    rw [hv.seqNum] at hnot
    obtain ⟨s₁, r, new₁, h1, h2, h3, h4⟩ := h.insertPacket hset hv hnot
    rw [List.map_cons, List.nodup_cons, hv.seqNum] at hnodup
    obtain ⟨s', new, h5, h6, h7, h8⟩ := ih h2 h3 (fun p hp => hvalid p (List.mem_cons_of_mem _ hp))
      hnodup.2 (by
        intro x hx hmem
        rcases List.mem_cons.1 hmem with heq | hmem
        · exact hnodup.1 (heq ▸ List.mem_map_of_mem hx)
        · exact hnew x (List.mem_cons_of_mem _ hx) hmem)
    have hstep : packetMachine.step (some s) (.insertPacket (st.packet j k)) =
      (some s₁, .returned r) := by
      show outcome (s.insertPacket (st.packet j k)) = _
      rw [h1]
      rfl
    refine ⟨s', new₁ ++ new, ?_, ?_, ?_, ?_⟩
    · rw [List.map_cons, Machine.final_cons, hstep]
      exact h5
    · rw [List.map_cons, List.reverse_cons, hv.seqNum, List.append_assoc, ← List.append_assoc A]
      exact h6
    · rw [List.map_cons, List.reverse_cons, hv.seqNum, List.append_assoc, ← List.append_assoc A]
      exact h7
    · rw [List.map_cons, Machine.log_cons, hstep, List.map_append, ← h8, ← h4]
      unfold framesOf
      rw [List.flatMap_cons, List.map_append]

theorem Core.all_assembled (h : Core st R A s) (hset : Settled st R A s st.count 0)
    (hall : ∀ j k, st.Valid j k → st.seqAt j k ∈ R) :
    A.Perm (List.range st.count) ∧ ∀ i, s.get i = none := by
  have hmem : ∀ j, j < st.count → j ∈ A := by
    intro j
    induction j with
    | zero =>
      intro hj
      by_contra hA
      have := (hset.waiting 0 hj (by omega) hA fun k hk => hall 0 k ⟨hj, hk⟩).1
      omega
    | succ j ih =>
      intro hj
      by_contra hA
      have := (hset.waiting (j + 1) hj (by omega) hA fun k hk => hall (j + 1) k ⟨hj, hk⟩).2
      exact this (ih (by omega))
  refine ⟨?_, ?_⟩
  · rw [List.perm_ext_iff_of_nodup h.nodup List.nodup_range]
    intro j
    rw [List.mem_range]
    exact ⟨fun hj => (h.taken j hj).1, hmem j⟩
  · intro i
    by_contra hne
    obtain ⟨p, hp⟩ := Option.ne_none_iff_exists'.1 hne
    obtain ⟨j, k, hv, hA, -⟩ := h.absent i p hp
    exact hA (hmem j hv.1)

theorem core_create {a : Nat} (ha : a ≤ 15) (hfits : st.total ≤ 2 ^ a) (b : Nat) (flag : Bool)
    (hb : IsPow b) : Core st [] [] { create (2 ^ a) b with spsPpsIdrIsH264Keyframe := flag } := by
  have hsize : ({ create (2 ^ a) b with spsPpsIdrIsH264Keyframe := flag } : PacketBuffer).size =
    2 ^ a :=
    List.length_replicate
  refine ⟨⟨(ring_create ⟨a, rfl⟩ hb).congr rfl rfl, by rwa [hsize], ?_⟩, rfl, by simp, ?_, by simp,
    List.nodup_nil, ⟨List.Pairwise.nil, fun _ => ⟨rfl, rfl⟩, ?_, by simp⟩, ?_⟩
  · rw [hsize]
    exact Nat.pow_le_pow_right (by omega) ha
  · intro i p hp
    change slot (List.replicate (2 ^ a) none) i = some p at hp
    rw [slot_replicate_none] at hp
    exact absurd hp (by simp)
  · intro q hq
    exact absurd hq (by simp [create])
  · intro m hm
    exact absurd hm List.not_mem_nil

end PacketBuffer

/-! ## Lists of frames -/

/-- Frames on consecutive, possibly wrapping, sequence numbers from `base` on, each given
as the list of its packets. -/
structure SentFrames (base : U16) (frames : List (List Packet)) : Prop where
  nonempty : ∀ f ∈ frames, f ≠ []
  seqNums : ∀ (i : Nat) p, frames.flatten[i]? = some p → p.seqNum = base + BitVec.ofNat 16 i
  /-- All packets of a frame share a timestamp. -/
  timestamps : ∀ f ∈ frames, ∀ p ∈ f, ∀ q ∈ f, p.timestamp = q.timestamp
  /-- Timestamps of different frames are distinct. -/
  distinct : frames.Pairwise fun f g => ∀ p ∈ f, ∀ q ∈ g, p.timestamp ≠ q.timestamp
  isFirst : ∀ f ∈ frames, ∀ (k : Nat) p, f[k]? = some p →
    p.videoHeader.isFirstPacketInFrame = decide (k = 0)
  isLast : ∀ f ∈ frames, ∀ (k : Nat) p, f[k]? = some p →
    p.videoHeader.isLastPacketInFrame = decide (k + 1 = f.length)
  /-- The packets of an H264 frame carry fewer NAL units than the depacketizer may drop. -/
  nalus : ∀ f ∈ frames, (∃ p, f.getLast? = some p ∧ p.videoHeader.codecType = .h264) →
    ∀ p ∈ f, ∃ info, p.videoCodecHeader = .h264 info ∧
      info.nalus.length < H264.kMaxNaluNumPerPacket

/-- What the sender put into a frame: its first and last number, how many packets, and the
payloads in sequence order. -/
def sentSummary (f : List Packet) : U16 × U16 × Nat × List UInt8 :=
  ((f.getD 0 {}).seqNum, (f.getD (f.length - 1) {}).seqNum, f.length, f.flatMap Packet.videoPayload)

theorem map_getD_range {α : Type*} (l : List α) (d : α) :
    (List.range l.length).map (fun i => l.getD i d) = l := by
  apply List.ext_getElem
  · simp
  · intro i h1 h2
    simp [h2]

theorem getElem?_flatten {α : Type*} (frames : List (List α)) {j k : Nat} {f : List α}
    (hj : frames[j]? = some f) (hk : k < f.length) :
    frames.flatten[((List.range j).map fun i => (frames.getD i []).length).sum + k]? = f[k]? := by
  induction frames generalizing j with
  | nil => exact absurd hj (by simp)
  | cons g frames ih =>
    cases j with
    | zero =>
      obtain rfl : g = f := by simpa using hj
      rw [List.flatten_cons]
      simp [List.getElem?_append, hk]
    | succ j =>
      rw [List.getElem?_cons_succ] at hj
      have hsum : ((List.range (j + 1)).map fun i => ((g :: frames).getD i []).length).sum =
          g.length + ((List.range j).map fun i => (frames.getD i []).length).sum := by
        rw [List.range_succ_eq_map, List.map_cons, List.map_map, List.sum_cons]
        rfl
      rw [hsum, List.flatten_cons, List.getElem?_append_right (by omega), ← ih hj]
      congr 1
      omega

section Sent

variable {base : U16} {frames : List (List Packet)}

theorem getD_mem {j : Nat} (hj : j < frames.length) : frames.getD j [] ∈ frames := by
  rw [List.getD_eq_getElem _ _ hj]
  exact List.getElem_mem hj

theorem getElem?_getD {f : List Packet} {k : Nat} (hk : k < f.length) :
    f[k]? = some (f.getD k {}) := by
  rw [List.getD_eq_getElem _ _ hk]
  exact List.getElem?_eq_getElem hk

theorem getD_packet_mem {f : List Packet} {k : Nat} (hk : k < f.length) : f.getD k {} ∈ f := by
  rw [List.getD_eq_getElem _ _ hk]
  exact List.getElem_mem hk

theorem length_flatten_eq (frames : List (List Packet)) :
    ((List.range frames.length).map fun i => (frames.getD i []).length).sum =
      frames.flatten.length := by
  rw [List.length_flatten]
  congr 1
  conv_rhs => rw [← map_getD_range frames []]
  rw [List.map_map]
  rfl

/-- A list of frames as a stream. -/
def SentFrames.toStream (h : SentFrames base frames) (hlen : frames.flatten.length ≤ 32768) :
    Stream where
  base := base
  count := frames.length
  len j := (frames.getD j []).length
  packet j k := (frames.getD j []).getD k {}
  timestamp j := ((frames.getD j []).getD 0 {}).timestamp
  len_pos j hj := List.length_pos_iff.2 (h.nonempty _ (getD_mem hj))
  seqNum_packet j k hj hk := by
    apply h.seqNums
    rw [getElem?_flatten frames (f := frames.getD j []) _ hk]
    · exact getElem?_getD hk
    · rw [List.getD_eq_getElem _ _ hj]
      exact List.getElem?_eq_getElem hj
  timestamp_packet j k hj hk :=
    h.timestamps _ (getD_mem hj) _ (getD_packet_mem hk) _ (getD_packet_mem (by omega))
  timestamp_inj i j hi hj heq := by
    have hmem : ∀ l, l < frames.length → (frames.getD l []).getD 0 {} ∈ frames.getD l [] :=
      fun l hl => getD_packet_mem (List.length_pos_iff.2 (h.nonempty _ (getD_mem hl)))
    have hpair := List.pairwise_iff_getElem.1 h.distinct
    by_contra hne
    rcases Nat.lt_or_gt_of_ne hne with hlt | hgt
    · refine hpair i j hi hj hlt _ ?_ _ ?_ heq
      · rw [← List.getD_eq_getElem frames [] hi]
        exact hmem i hi
      · rw [← List.getD_eq_getElem frames [] hj]
        exact hmem j hj
    · refine hpair j i hj hi hgt _ ?_ _ ?_ heq.symm
      · rw [← List.getD_eq_getElem frames [] hj]
        exact hmem j hj
      · rw [← List.getD_eq_getElem frames [] hi]
        exact hmem i hi
  isFirst_packet j k hj hk := h.isFirst _ (getD_mem hj) k _ (getElem?_getD hk)
  isLast_packet j k hj hk := h.isLast _ (getD_mem hj) k _ (getElem?_getD hk)
  nalus_packet j hj hcodec k hk := by
    refine h.nalus _ (getD_mem hj) ⟨_, ?_, hcodec⟩ _ (getD_packet_mem hk)
    rw [List.getLast?_eq_getElem?]
    exact getElem?_getD (by omega)
  total_le := by
    rw [length_flatten_eq]
    exact hlen

theorem SentFrames.expected_toStream (h : SentFrames base frames)
    (hlen : frames.flatten.length ≤ 32768) :
    (List.range frames.length).map (PacketBuffer.expected (h.toStream hlen)) =
      frames.map sentSummary := by
  conv_rhs => rw [← map_getD_range frames [], List.map_map]
  apply List.map_congr_left
  intro j hj
  have hj' : j < (h.toStream hlen).count := List.mem_range.1 hj
  have hpos := (h.toStream hlen).len_pos j hj'
  have h0 := (show (h.toStream hlen).Valid j 0 from ⟨hj', hpos⟩).seqNum
  have h1 := (show (h.toStream hlen).Valid j ((h.toStream hlen).len j - 1) from ⟨hj', by omega⟩).seqNum
  unfold PacketBuffer.expected
  rw [← h0, ← h1]
  show (_, _, _, (List.range (frames.getD j []).length).flatMap fun k =>
    ((frames.getD j []).getD k {}).videoPayload) = sentSummary (frames.getD j [])
  have hflat : ((List.range (frames.getD j []).length).flatMap fun k =>
      ((frames.getD j []).getD k {}).videoPayload) =
        (frames.getD j []).flatMap Packet.videoPayload := by
    conv_rhs => rw [← map_getD_range (frames.getD j []) {}]
    rw [List.flatMap_map]
  rw [hflat]
  rfl

theorem SentFrames.seqNum_inj (h : SentFrames base frames) (hlen : frames.flatten.length ≤ 32768) :
    (frames.flatten.map Packet.seqNum).Nodup := by
  refine List.pairwise_iff_getElem.2 ?_
  intro i j hi hj hij heq
  rw [List.length_map] at hi hj
  rw [List.getElem_map, List.getElem_map, h.seqNums i _ (List.getElem?_eq_getElem hi),
    h.seqNums j _ (List.getElem?_eq_getElem hj)] at heq
  have := congrArg (rank base) heq
  rw [PacketBuffer.rank_add_ofNat base (by omega),
    PacketBuffer.rank_add_ofNat base (by omega)] at this
  omega

/-- **Arrival order does not matter.**  Frames on consecutive numbers are delivered packet by
packet, each packet once and in any order, to an empty buffer with at least as many slots
as there are packets.  Over all calls exactly these frames come out, each once, with its
first and last number, number of packets and payloads in sequence order, and the buffer is
empty afterwards. -/
theorem arrival_order_independence {a b : Nat} (ha : a ≤ 15) (flag : Bool)
    (h : SentFrames base frames) (hfits : frames.flatten.length ≤ 2 ^ a) {order : List Packet}
    (horder : order.Perm frames.flatten) :
    ∃ s, packetMachine.final
        (some { PacketBuffer.create (2 ^ a) (2 ^ b) with spsPpsIdrIsH264Keyframe := flag })
        (order.map .insertPacket) = some s ∧
      (∀ i, s.get i = none) ∧
      ((PacketBuffer.framesOf (packetMachine.log
        (some { PacketBuffer.create (2 ^ a) (2 ^ b) with spsPpsIdrIsH264Keyframe := flag })
        (order.map .insertPacket))).map PacketBuffer.summary).Perm (frames.map sentSummary) := by
  have hlen : frames.flatten.length ≤ 32768 :=
    le_trans hfits (Nat.pow_le_pow_right (by omega) ha)
  have htotal : (h.toStream hlen).total = frames.flatten.length := length_flatten_eq frames
  have hcore : PacketBuffer.Core (h.toStream hlen) [] []
      { PacketBuffer.create (2 ^ a) (2 ^ b) with spsPpsIdrIsH264Keyframe := flag } :=
    PacketBuffer.core_create ha (by rw [htotal]; exact hfits) _ flag ⟨b, rfl⟩
  have hset : PacketBuffer.Settled (h.toStream hlen) [] []
      { PacketBuffer.create (2 ^ a) (2 ^ b) with spsPpsIdrIsH264Keyframe := flag }
      (h.toStream hlen).count 0 := by
    refine ⟨?_, ?_⟩
    · intro j k p _ _ hR
      exact absurd (hR k (Nat.le_refl k)) List.not_mem_nil
    · intro j hj _ _ hall
      exact absurd (hall 0 ((h.toStream hlen).len_pos j hj)) List.not_mem_nil
  have hvalid : ∀ p ∈ order, ∃ j k, (h.toStream hlen).Valid j k ∧
    p = (h.toStream hlen).packet j k := by
    intro p hp
    obtain ⟨f, hf, hpf⟩ := List.mem_flatten.1 (horder.mem_iff.1 hp)
    obtain ⟨j, hj, rfl⟩ := List.mem_iff_getElem.1 hf
    obtain ⟨k, hk, rfl⟩ := List.mem_iff_getElem.1 hpf
    have hget : frames.getD j [] = frames[j] := List.getD_eq_getElem _ _ hj
    refine ⟨j, k, ⟨hj, ?_⟩, ?_⟩
    · show k < (frames.getD j []).length
      rw [hget]
      exact hk
    · show _ = (frames.getD j []).getD k {}
      rw [hget, List.getD_eq_getElem _ _ hk]
  have hnodup : (order.map Packet.seqNum).Nodup :=
    (horder.map Packet.seqNum).nodup_iff.2 (h.seqNum_inj hlen)
  obtain ⟨s, new, h1, h2, h3, h4⟩ := hcore.run hset hvalid hnodup (by simp)
  rw [List.nil_append] at h2 h3
  have hall : ∀ j k, (h.toStream hlen).Valid j k →
      (h.toStream hlen).seqAt j k ∈ (order.map Packet.seqNum).reverse ++ [] := by
    intro j k hv
    rw [List.append_nil, List.mem_reverse, ← hv.seqNum]
    apply List.mem_map_of_mem
    rw [horder.mem_iff]
    exact List.mem_flatten.2 ⟨frames.getD j [], getD_mem hv.1, getD_packet_mem hv.2⟩
  obtain ⟨hperm, hempty⟩ := h2.all_assembled h3 hall
  refine ⟨s, h1, hempty, ?_⟩
  rw [h4, ← h.expected_toStream hlen]
  exact hperm.map _

/-- Three packets across the wrap: a frame of two, and an H264 delta frame of one. -/
def wrapped (q : U16) : Packet :=
  match q.toNat with
  | 65535 => { seqNum := q, timestamp := 1, videoPayload := [1],
               videoHeader := { isFirstPacketInFrame := true } }
  | 0 => { seqNum := q, timestamp := 1, videoPayload := [2],
           videoHeader := { isLastPacketInFrame := true } }
  | _ => {
    seqNum := q
    timestamp := 2
    videoPayload := [3]
    videoHeader := { codecType := .h264, isFirstPacketInFrame := true, isLastPacketInFrame := true }
    videoCodecHeader := .h264 {} }

theorem sentFrames_wrapped : SentFrames 65535 [[wrapped 65535, wrapped 0], [wrapped 1]] where
  nonempty := by decide
  seqNums i p hp := by
    rcases i with _ | _ | _ | i
    · cases hp
      decide
    · cases hp
      decide
    · cases hp
      decide
    · exact absurd hp (by simp)
  timestamps := by decide
  distinct := by decide
  isFirst f hf k p hp := by
    simp only [List.mem_cons, List.not_mem_nil, or_false] at hf
    rcases hf with rfl | rfl <;> rcases k with _ | _ | k <;> cases hp <;> decide
  isLast f hf k p hp := by
    simp only [List.mem_cons, List.not_mem_nil, or_false] at hf
    rcases hf with rfl | rfl <;> rcases k with _ | _ | k <;> cases hp <;> decide
  nalus f hf hcodec p hp := by
    simp only [List.mem_cons, List.not_mem_nil, or_false] at hf
    rcases hf with rfl | rfl
    · obtain ⟨x, hx, hcodec⟩ := hcodec
      cases hx
      exact absurd hcodec (by decide)
    · rw [List.mem_singleton.1 hp]
      exact ⟨{}, rfl, by decide⟩

/-- The delta frame arrives while a packet before it is missing, waits, and comes out after
the frame before it. -/
theorem arrival_order_independence_wrapped :
    ∃ s, packetMachine.final
        (some { PacketBuffer.create (2 ^ 2) (2 ^ 2) with spsPpsIdrIsH264Keyframe := true })
        ([wrapped 65535, wrapped 1, wrapped 0].map .insertPacket) = some s ∧
      (∀ i, s.get i = none) ∧
      ((PacketBuffer.framesOf (packetMachine.log
        (some { PacketBuffer.create (2 ^ 2) (2 ^ 2) with spsPpsIdrIsH264Keyframe := true })
        ([wrapped 65535, wrapped 1, wrapped 0].map .insertPacket))).map PacketBuffer.summary).Perm
          ([[wrapped 65535, wrapped 0], [wrapped 1]].map sentSummary) :=
  arrival_order_independence (by decide) true sentFrames_wrapped (by decide) (by decide)

end Sent
end NaiveRtc.Jitter
