import NaiveRtc.Jitter.PacketBufferIntegrity
import NaiveRtc.Jitter.PacketBufferStream

/-!
# What is missing after later calls

A delta frame is withheld while a packet before it is missing.  Packets become missing only when
a number arrives, and only those between the newest number and it, so that nothing up to a number
`q` comes back while the newest number is not older than `q`.

* `AtOrBefore`, `NewestFrom`, `ClearOf` — nothing up to `q` is missing.
* `comes_back` — a newest number that is older than `q` lets a number come back.
* `Thinned` — what assembly does to the missing packets; `ClearOf.run` for every run.
-/

namespace NaiveRtc.Jitter

open WrapAround SlotTable

namespace PacketBuffer

variable {s s' t : PacketBuffer} {p : Packet} {q x : U16}

/-! ## Up to a number -/

/-- `m` is at or before `q` on the circle. -/
def AtOrBefore (m q : U16) : Prop := m = q ∨ aheadOf q m = true

instance (m q : U16) : Decidable (AtOrBefore m q) := inferInstanceAs (Decidable (_ ∨ _))

/-- The newest number is not older than `q`. -/
def NewestFrom (q : U16) (s : PacketBuffer) : Prop :=
  ∀ n ∈ s.newestInsertedSeqNum, aheadOf q n = false

/-- Nothing up to `q` is missing, and what arrives next will not make it so. -/
structure ClearOf (q : U16) (s : PacketBuffer) : Prop where
  newest : s.NewestFrom q
  missing : ∀ m ∈ s.missingPackets, ¬ AtOrBefore m q

/-! ## What a number makes missing -/

variable {missing : List U16} {fuel : Nat}

theorem mem_insertMissing {m newest : U16} (h : m ∈ (insertMissing x fuel newest missing).2) :
    m ∈ missing ∨ aheadOf x m = true ∧ ∃ k, 0 < k ∧ k ≤ fuel ∧ m = newest + BitVec.ofNat 16 k := by
  induction fuel generalizing newest missing with
  | zero => exact Or.inl h
  | succ fuel ih =>
    rw [insertMissing] at h
    split at h
    · rename_i hahead
      rcases ih h with hm | ⟨hx, k, hpos, hle, rfl⟩
      · rcases Ordered.mem_insertBy hm with rfl | hm
        · exact Or.inr ⟨hahead, 1, Nat.one_pos, by omega, rfl⟩
        · exact Or.inl hm
      · refine Or.inr ⟨hx, k + 1, by omega, by omega, ?_⟩
        rw [BitVec.add_assoc, Nat.add_comm k, BitVec.ofNat_add]
        rfl
    · exact Or.inl h

theorem subset_insertMissing {m newest : U16} (h : m ∈ missing) :
    m ∈ (insertMissing x fuel newest missing).2 := by
  induction fuel generalizing newest missing with
  | zero => exact h
  | succ fuel ih =>
    rw [insertMissing]
    split
    · exact ih (Ordered.mem_insertBy_of_mem h)
    · exact h

/-- **Every number in between** becomes missing, and the number that arrived is the newest one. -/
theorem insertMissing_between {newest : U16} (hahead : aheadOf x newest = true)
    (hfuel : fuel = (x - newest).toNat) :
    (insertMissing x fuel newest missing).1 = x ∧
      ∀ m, 0 < (m - newest).toNat → (m - newest).toNat < (x - newest).toNat →
        m ∈ (insertMissing x fuel newest missing).2 := by
  induction fuel generalizing newest missing with
  | zero =>
    rw [aheadOf_iff] at hahead
    omega
  | succ fuel ih =>
    rw [insertMissing]
    by_cases hnext : aheadOf x (newest + 1) = true
    · rw [if_pos hnext]
      obtain ⟨hx, hbetween⟩ : _ ∧ ∀ m, _ → _ → m ∈ (insertMissing x fuel (newest + 1)
          (Ordered.insertBy olderThan id (newest + 1) missing)).2 :=
        ih hnext (by rw [aheadOf_iff] at hahead; bv_omega)
      refine ⟨hx, fun m hpos hlt => ?_⟩
      by_cases heq : m = newest + 1
      · rw [heq]
        refine subset_insertMissing (Ordered.mem_insertBy_self fun y _ hlt hgt => ?_)
        by_contra hne
        have htotal := aheadOf_total hne
        unfold olderThan at hlt hgt
        rw [hlt, hgt] at htotal
        cases htotal
      · exact hbetween m (by bv_omega) (by bv_omega)
    · have hx : newest + 1 = x := by
        rw [Bool.not_eq_true, aheadOf_false_iff] at hnext
        rw [aheadOf_iff] at hahead
        bv_omega
      rw [if_neg hnext]
      refine ⟨hx, fun m hpos hlt => ?_⟩
      rw [← hx] at hlt
      bv_omega

variable {n : U16}

theorem rank_le_of_not_ahead (h : aheadOf q n = false) : rank q n ≤ 32768 := by
  rw [aheadOf_false_iff] at h
  unfold rank
  bv_omega

theorem rank_lt_rank (hn : aheadOf q n = false) (hx : aheadOf q x = false)
    (hahead : aheadOf x n = true) : rank q n < rank q x := by
  have hle := rank_le_of_not_ahead hn
  have hle' := rank_le_of_not_ahead hx
  by_contra hge
  by_cases hclose : rank q n < rank q x + 32768
  · rw [aheadOf_iff_rank (b := q) (by omega) hclose] at hahead
    exact hge hahead
  · -- `n` is half the circle from `q`, and `x` is `q`
    have heq : x = q := by
      unfold rank at *
      bv_omega
    rw [heq, hn] at hahead
    cases hahead

theorem not_atOrBefore_of_rank {m : U16} (hpos : 0 < rank q m) (hlt : rank q m < 32768) :
    ¬ AtOrBefore m q := by
  rintro (heq | hbefore)
  · unfold rank at hpos
    bv_omega
  · rw [aheadOf_iff] at hbefore
    unfold rank at *
    bv_omega

theorem not_atOrBefore_of_between {m n : U16} (hn : aheadOf q n = false) (hx : aheadOf q x = false)
    (hahead : aheadOf x n = true) (hpos : 0 < (m - n).toNat) (hlt : (m - n).toNat < (x - n).toNat) :
    ¬ AtOrBefore m q := by
  have hle := rank_le_of_not_ahead hx
  have hrank := rank_lt_rank hn hx hahead
  apply not_atOrBefore_of_rank
  · unfold rank at *
    bv_omega
  · unfold rank at *
    bv_omega

theorem updateMissing_start (hahead : aheadOf x n = true) :
    ∃ start, (if aheadOf (x - BitVec.ofNat 16 kMaxMissingPacketCount) n = true
        then x - BitVec.ofNat 16 kMaxMissingPacketCount else n) = start ∧
      aheadOf x start = true ∧ (start - n).toNat < (x - n).toNat ∧
      (start = n ∨ start = x - BitVec.ofNat 16 kMaxMissingPacketCount) := by
  rw [aheadOf_iff] at hahead
  split
  · rename_i hold
    rw [aheadOf_iff] at hold
    refine ⟨_, rfl, ?_, ?_, Or.inr rfl⟩
    · rw [aheadOf_iff]
      unfold kMaxMissingPacketCount
      bv_omega
    · unfold kMaxMissingPacketCount at *
      bv_omega
  · refine ⟨n, rfl, ?_, ?_, Or.inl rfl⟩
    · rw [aheadOf_iff]
      exact hahead
    · bv_omega

theorem ClearOf.update (h : s.ClearOf q)
    (hx : (s.updateMissingPackets x kMaxMissingPacketCount).NewestFrom q) :
    (s.updateMissingPackets x kMaxMissingPacketCount).ClearOf q := by
  refine ⟨hx, fun m hm => ?_⟩
  unfold updateMissingPackets at hx hm
  dsimp only at hx hm
  by_cases hahead : aheadOf x (s.newestInsertedSeqNum.getD x) = true
  · rw [if_pos hahead] at hx hm
    cases hn : s.newestInsertedSeqNum with
    | none =>
      rw [hn] at hahead
      exact absurd hahead (by simp)
    | some n =>
      rw [hn] at hahead hx hm
      rw [Option.getD_some] at hahead hx hm
      obtain ⟨start, hstart, hstarts, hlt, -⟩ := updateMissing_start hahead
      rw [hstart] at hx hm
      have hnewest := h.newest n hn
      have hlast := hx x (by rw [(insertMissing_between hstarts rfl).1]; rfl)
      rcases mem_insertMissing hm with hm | ⟨hbehind, k, hpos, hle, rfl⟩
      · exact h.missing m (Ordered.mem_of_mem_eraseBelow hm)
      · have hne : start + BitVec.ofNat 16 k ≠ x := fun heq => by simp [heq] at hbehind
        apply not_atOrBefore_of_between hnewest hlast hahead
        · bv_omega
        · bv_omega
  · rw [if_neg hahead] at hm
    exact h.missing m (List.erase_subset hm)

theorem comes_back (hn : s.newestInsertedSeqNum = some n) (h : aheadOf q n = true) :
    ∃ x, (s.updateMissingPackets x kMaxMissingPacketCount).NewestFrom q ∧
      ∃ m ∈ (s.updateMissingPackets x kMaxMissingPacketCount).missingPackets, AtOrBefore m q := by
  obtain ⟨x, m, hahead, hx, hm, hbetween⟩ : ∃ x m : U16, aheadOf x n = true ∧
      aheadOf q x = false ∧ AtOrBefore m q ∧ m + 1 = x ∧ m ≠ n := by
    rw [aheadOf_iff] at h
    by_cases hlast : n = q - 1
    · refine ⟨q + 1, q, ?_, ?_, Or.inl rfl, rfl, ?_⟩
      · rw [aheadOf_iff]
        bv_omega
      · rw [aheadOf_false_iff]
        bv_omega
      · bv_omega
    · refine ⟨q, q - 1, ?_, aheadOf_self q, Or.inr ?_, ?_, fun heq => hlast heq.symm⟩
      · rwa [aheadOf_iff]
      · rw [aheadOf_iff]
        bv_omega
      · bv_omega
  refine ⟨x, ?_⟩
  unfold updateMissingPackets
  dsimp only
  rw [hn, Option.getD_some, if_pos hahead]
  obtain ⟨start, hstart, hstarts, hlt, hwhich⟩ := updateMissing_start hahead
  rw [hstart]
  obtain ⟨hnewest, hadds⟩ : _ ∧ ∀ m, _ → _ → m ∈ (insertMissing x (x - start).toNat start
      (Ordered.eraseBelow olderThan id (x - BitVec.ofNat 16 kMaxMissingPacketCount)
        s.missingPackets)).2 := insertMissing_between hstarts rfl
  refine ⟨?_, m, hadds m ?_ ?_, hm⟩
  · rintro _ ⟨⟩
    rw [hnewest]
    exact hx
  · unfold kMaxMissingPacketCount at hwhich
    bv_omega
  · rw [aheadOf_iff] at hstarts
    bv_omega

/-! ## Later calls -/

/-- From `s` to `s'` nothing became missing, and the newest number is the same. -/
structure Thinned (s s' : PacketBuffer) : Prop where
  newest : s'.newestInsertedSeqNum = s.newestInsertedSeqNum
  missing : s'.missingPackets ⊆ s.missingPackets

theorem Thinned.trans (h : Thinned s s') (h' : Thinned s' t) : Thinned s t :=
  ⟨h'.newest.trans h.newest, List.Subset.trans h'.missing h.missing⟩

theorem Thinned.refl (s : PacketBuffer) : Thinned s s := ⟨rfl, List.Subset.refl _⟩

theorem ClearOf.thinned (h : s.ClearOf q) (hs : Thinned s s') : s'.ClearOf q :=
  ⟨fun n hn => h.newest n (hs.newest ▸ hn), fun m hm => h.missing m (hs.missing hm)⟩

theorem thinned_finishFrame {isH264 : Bool} {w : Walk} {r : Round}
    (h : s.finishFrame isH264 q w = .ok r) : Thinned s r.buffer := by
  obtain ⟨first, -, hr⟩ := finishFrame_cases h
  have hclass : Thinned s (s.classified isH264 w first) := by
    unfold classified
    split <;> exact ⟨rfl, List.Subset.refl _⟩
  rcases hr with ⟨-, rfl⟩ | ⟨-, s', f, hf, rfl⟩
  · exact hclass
  · obtain ⟨s₁, ps, htake, -, rfl, -⟩ := assembleFrame_cases hf
    have heq := (takePackets_spec htake).1
    refine hclass.trans ⟨?_, ?_⟩
    · show s₁.newestInsertedSeqNum = _
      rw [heq]
    · show Ordered.eraseUpTo olderThan id q s₁.missingPackets ⊆ _
      rw [heq]
      exact (Ordered.eraseUpTo_sublist _ _ _ _).subset

theorem thinned_assembleRound {r : Round} (h : s.assembleRound q p = .ok r) :
    Thinned s r.buffer := by
  have hmark : Thinned s (s.marked q p) := ⟨rfl, List.Subset.refl _⟩
  rcases assembleRound_cases h with ⟨-, rfl⟩ | ⟨-, w, ⟨-, rfl⟩ | ⟨-, hf⟩⟩
  · exact hmark
  · exact hmark
  · exact hmark.trans (thinned_finishFrame hf)

theorem thinned_assembleLoop {n : Nat} {r : InsertResult} (h : assembleLoop n q s = .ok (s', r)) :
    Thinned s s' := by
  induction n generalizing q s r with
  | zero =>
    cases h
    exact Thinned.refl _
  | succ n ih =>
    rcases assembleLoop_cases h with
      ⟨-, rfl, -⟩ | ⟨-, p, -, ⟨v, hround, -⟩ | ⟨s₁, f, v, r₁, hround, hl, -⟩⟩
    · exact Thinned.refl s'
    · exact thinned_assembleRound hround
    · exact (thinned_assembleRound hround).trans (ih hl)

theorem thinned_noteFirst (s : PacketBuffer) (q : U16) : Thinned s (s.noteFirst q) := by
  unfold noteFirst
  split
  · exact ⟨rfl, List.Subset.refl _⟩
  · split <;> exact ⟨rfl, List.Subset.refl _⟩

theorem thinned_expand (h : s.expandPacketBufferIfNecessary q = some s') : Thinned s s' := by
  unfold expandPacketBufferIfNecessary at h
  split at h
  · cases h
    exact Thinned.refl s
  · split at h
    · cases h
    · obtain ⟨n, -, rfl⟩ := Option.map_eq_some_iff.1 h
      unfold expandPacketBuffer
      split <;> exact ⟨rfl, List.Subset.refl _⟩

theorem clearOf_clear (s : PacketBuffer) (q : U16) : s.clear.ClearOf q :=
  ⟨fun _ hn => (Option.not_mem_none _ hn).elim, fun _ hm => absurd hm List.not_mem_nil⟩

variable {r : InsertResult}

theorem ClearOf.arrive (h : s.ClearOf q) {start : U16}
    (hr : (s.updateMissingPackets x kMaxMissingPacketCount).tryToAssembleFrames start = .ok (s', r))
    (hs : s'.NewestFrom q) : s'.ClearOf q := by
  have hthin := thinned_assembleLoop hr
  have hnewest : (s.updateMissingPackets x kMaxMissingPacketCount).NewestFrom q :=
    fun n hn => hs n (hthin.newest ▸ hn)
  exact (h.update hnewest).thinned hthin

theorem ClearOf.insertPacket (h : s.ClearOf q) (hr : s.insertPacket p = .ok (s', r))
    (hs : s'.NewestFrom q) : s'.ClearOf q := by
  have hstore : ∀ s₁ : PacketBuffer, s₁.ClearOf q →
      (s₁.stored p).tryToAssembleFrames p.seqNum = .ok (s', r) → s'.ClearOf q := by
    intro s₁ h₁ ha
    have hset : Thinned s₁ (s₁.set (s₁.indexOf p.seqNum) (some { p with continuous := false })) :=
      ⟨rfl, List.Subset.refl _⟩
    exact (h₁.thinned hset).arrive ha hs
  have hfirst := h.thinned (thinned_noteFirst s p.seqNum)
  rcases insertPacket_cases hr with
    ⟨-, rfl, -⟩ | ⟨-, -, -, rfl, -⟩ | ⟨-, -, ha⟩ | ⟨-, -, rfl, -⟩ | ⟨-, s₁, he, ha⟩
  · exact h
  · exact hfirst
  · exact hstore _ hfirst ha
  · exact clearOf_clear _ q
  · exact hstore s₁ (hfirst.thinned (thinned_expand he)) ha

theorem missing_clearLoop (x : U16) (n : Nat) (s : PacketBuffer) :
    (clearLoop x n s).missingPackets = s.missingPackets := by
  induction n generalizing s with
  | zero => rfl
  | succ n ih =>
    rw [clearLoop_succ, ih]
    show (ite _ _ s : PacketBuffer).missingPackets = _
    split <;> rfl

theorem newest_clearLoop (x : U16) (n : Nat) (s : PacketBuffer) :
    (clearLoop x n s).newestInsertedSeqNum = s.newestInsertedSeqNum := by
  induction n generalizing s with
  | zero => rfl
  | succ n ih =>
    rw [clearLoop_succ, ih]
    show (ite _ _ s : PacketBuffer).newestInsertedSeqNum = _
    split <;> rfl

theorem thinned_clearTo (s : PacketBuffer) (x : U16) : Thinned s (s.clearTo x) := by
  unfold clearTo
  split
  · exact Thinned.refl s
  · split
    · exact Thinned.refl s
    · refine ⟨newest_clearLoop _ _ s, ?_⟩
      show List.drop _ (clearLoop _ _ s).missingPackets ⊆ _
      rw [missing_clearLoop]
      exact List.drop_subset _ _

/-- The newest number after a call is not older than `q`. -/
def Stays (q : U16) (o : Option PacketBuffer) (op : PacketOp) : Prop :=
  ∀ t ∈ (packetMachine.step o op).1, t.NewestFrom q

theorem ClearOf.run (h : s.ClearOf q) {ops : List PacketOp}
    (hops : packetMachine.AllGood (Stays q) (some s) ops)
    (ht : packetMachine.final (some s) ops = some t) : t.ClearOf q := by
  refine packetMachine.invariant_final (P := fun o => ∀ b, o = some b → b.ClearOf q)
    (fun o op ho hstays b hb => ?_) (fun b hb => Option.some.inj hb ▸ h) hops t ht
  refine packetMachine_step (Q := fun b => b.NewestFrom q → b.ClearOf q)
    (fun s p s' r hs hr => hs.insertPacket hr) (fun s x s' r hs hr => hs.arrive hr)
    (fun s _ _ => clearOf_clear s q) (fun s x hs _ => hs.thinned (thinned_clearTo s x))
    (fun s b hs _ => hs.thinned ⟨rfl, List.Subset.refl _⟩) ho b hb (hstays b hb)

end PacketBuffer
end NaiveRtc.Jitter
