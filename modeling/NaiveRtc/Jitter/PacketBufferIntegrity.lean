import NaiveRtc.Jitter.PacketBufferAssembly
import NaiveRtc.Jitter.PacketBufferLossless

/-!
# The integrity of assembled frames

Which calls keep the marks and the timestamps in a packet buffer trustworthy, and what
follows for the frames it assembles.

* `StepRegular` — what a call must meet.
* `Trusted.insertPacket`, `Trusted.insertPadding`, `Trusted.clearTo` — such a call is sound
  and leaves a buffer behind that can be trusted.
* `frames_intact` — in every run of such calls every frame is intact, every visited
  slot holds the expected packet, and no null packet is read.
* `mixes_aliased_packet_and_reads_null` — both go wrong without it.
-/

namespace NaiveRtc.Jitter

open WrapAround SlotTable

namespace PacketBuffer

variable {s s' : PacketBuffer} {p : Packet} {q : U16} {i : Nat}

/-! ## The calls -/

/-- The packet will not be ignored. -/
def Accepts (s : PacketBuffer) (p : Packet) : Prop :=
  s.isCleared p.seqNum = false ∧ ∀ q, s.get (s.indexOf p.seqNum) = some q → q.seqNum ≠ p.seqNum

/-- The number of slots the packets must be told apart by: the size may shrink to the
maximum when the slot of the packet is taken. -/
def ringSize (s : PacketBuffer) (p : Packet) : Nat :=
  if (s.get (s.indexOf p.seqNum)).isSome then min s.size s.maxPacketBufferSize else s.size

/-- What a call must meet: a packet that is not ignored has a slot of its own after an
expansion and makes up a stream of frames with the stored ones; the slot after the
numbers that are cleared does not hold a marked packet from the middle of a frame. -/
def StepRegular : Option PacketBuffer → PacketOp → Prop
  | some s, .insertPacket p => s.Accepts p →
    s.ExpandsSafely p ∧ Regular (s.ringSize p) fun x => x = p ∨ s.Holds x
  | some s, .insertPadding _ => Regular s.size s.Holds
  | some s, .clearTo q => (s.isClearedToFirstSeqNum && aheadOf s.firstSeqNum q) = false →
    ∀ x, s.get (s.indexOf (q + 1)) = some x → x.continuous = true →
      x.videoHeader.isFirstPacketInFrame = true
  | _, _ => True

theorem chained_create (a b : Nat) : (create a b).Chained := by
  intro i p hp
  change slot (List.replicate a none) i = some p at hp
  rw [slot_replicate_none] at hp
  exact absurd hp (by simp)

theorem chained_clear (s : PacketBuffer) : s.clear.Chained := by
  intro i p hp
  change slot (s.packetBuffer.map fun _ => none) i = some p at hp
  rw [slot_map_none] at hp
  exact absurd hp (by simp)

theorem Chained.stored (h : s.Chained) (hs : 0 < s.size)
    (hfree : s.get (s.indexOf p.seqNum) = none) :
    (s.stored p).Chained := by
  have hsize := size_stored s p
  intro j y hy hc hf
  by_cases hj : s.indexOf p.seqNum = j
  · rw [← hj, get_stored_self hs] at hy
    cases hy
    exact absurd hc (by simp)
  · rw [get_stored_ne hj] at hy
    obtain ⟨x, hx, hrest⟩ := h j y hy hc hf
    refine ⟨x, ?_, hrest⟩
    rw [hsize, get_stored_ne]
    · exact hx
    · intro heq
      rw [← heq, hfree] at hx
      exact absurd hx (by simp)

variable {n : Nat}

theorem Ring.chained_rehashed (hch : s.Chained) (hn : n ∣ 65536)
    (hap : s.Apart n) (hs' : s'.packetBuffer = rehash Packet.key n s.packetBuffer) :
      s'.Chained := by
  have hsize : s'.size = n := by
    show s'.packetBuffer.length = n
    rw [hs', length_rehash]
  have hpos : 0 < n := Nat.pos_of_dvd_of_pos hn (by omega)
  intro i p hp hc hf
  unfold get at hp
  rw [hs'] at hp
  obtain ⟨hmem, rfl⟩ := slot_rehash hp
  obtain ⟨j, hj⟩ := mem_iff_slot.1 hmem
  obtain ⟨x, hx, h1, h2, h3⟩ := hch j p hj hc hf
  refine ⟨x, ?_, h1, h2, h3⟩
  have hprev := prevIndex_indexOf (s := s') (by rwa [hsize]) p.seqNum
  unfold indexOf at hprev
  rw [hsize] at hprev
  rw [hsize]
  change s'.get (prevIndex n (p.seqNum.toNat % n)) = some x
  rw [hprev, ← h1]
  unfold get
  rw [hs']
  exact slot_rehash_of_inj hpos (holds_of_get hx) fun y hy hyx => hap y x hy (holds_of_get hx) hyx

theorem IsPow.double_le (h : IsPow n) (hlt : n < 65536) : 2 * n ≤ 65536 := by
  obtain ⟨k, rfl⟩ := h
  have hk : k < 16 := (Nat.pow_lt_pow_iff_right (by omega : 1 < 2)).1 (show 2 ^ k < 2 ^ 16 from hlt)
  rw [← Nat.pow_succ']
  exact Nat.pow_le_pow_right (by omega) hk

theorem findSize_le {fuel n m : Nat} (hmax : IsPow s.maxPacketBufferSize) (hn : IsPow n)
    (hle : n ≤ 65536) (hbig : ∀ k, 65536 ≤ k → s.conflictsAt q k = false)
    (h : s.findSize q fuel n = some m) : m ≤ 65536 := by
  induction fuel generalizing n with
  | zero => cases h
  | succ fuel ih =>
    rw [findSize] at h
    split at h
    · split at h
      · rename_i hc
        split at h
        · have hlt : n < 65536 := by
            by_contra hge
            rw [hbig n (by omega)] at hc
            exact absurd hc (by simp)
          exact ih (hmax.min hn.double) (le_trans (Nat.min_le_right _ _) (hn.double_le hlt)) h
        · cases h
      · cases h
        exact hle
    · cases h
      exact hle

theorem Ring.expand_dvd (h : Ring s) (hc : s.Conflict p) {s₁ : PacketBuffer}
    (he : (s.noteFirst p.seqNum).expandPacketBufferIfNecessary p.seqNum = some s₁) :
    s₁.size ∣ 65536 := by
  have hsize : s.size < 65536 := by
    by_contra hge
    obtain ⟨-, x, hx, hne⟩ := hc
    have hi : s.indexOf p.seqNum = s.indexOf x.seqNum := h.placed _ x hx
    have hp := p.seqNum.isLt
    have hxlt := x.seqNum.isLt
    unfold indexOf at hi
    rw [Nat.mod_eq_of_lt (by omega), Nat.mod_eq_of_lt (by omega)] at hi
    exact hne (BitVec.eq_of_toNat_eq hi).symm
  have hfirst := h.noteFirst p.seqNum
  have hring := hfirst.expand he
  rw [expandPacketBufferIfNecessary_eq (Ring.conflict_noteFirst hc)] at he
  split at he
  · cases he
  · rename_i hne
    obtain ⟨n, hn, rfl⟩ := Option.map_eq_some_iff.1 he
    have hn' : n ≤ 65536 := by
      refine findSize_le hfirst.max hfirst.firstSize ?_ ?_ hn
      · unfold PacketBuffer.firstSize
        rw [size_noteFirst]
        exact le_trans (Nat.min_le_right _ _) (h.size.double_le hsize)
      · intro k hk
        rw [← Bool.not_eq_true, conflictsAt_iff]
        rintro ⟨x, hx, hmod⟩
        rw [packetBuffer_noteFirst] at hx
        apply hc.seqNum_ne h hx
        have hxlt : x.key < 65536 := x.seqNum.isLt
        rw [Nat.mod_eq_of_lt (by omega)] at hmod
        exact BitVec.eq_of_toNat_eq hmod
    rcases hring.size.dvd_or_lt with hd | hlt
    · exact hd
    · have hle : ((s.noteFirst p.seqNum).expandPacketBuffer n).size ≤ n := by
        unfold expandPacketBuffer
        rw [if_neg hne]
        show (rehash _ _ _).length ≤ n
        rw [length_rehash]
        exact Nat.min_le_right _ _
      omega

/-- A packet that a call can find: one that is stored or the one it inserts. -/
def Known (s : PacketBuffer) (op : PacketOp) (x : Packet) : Prop :=
  ∃ y, (s.Holds y ∨ op = .insertPacket y) ∧ x.content = y.content

/-- What a call may return: intact frames, built from packets of the buffer, with nothing
but the expected packets in the visited slots. -/
def EventSound (s : PacketBuffer) (op : PacketOp) : PacketEvent → Prop
  | .faulted f => f = .badVariantAccess
  | .returned r => VisitsExact r.visits ∧
    ∀ f ∈ r.assembledFrames, Intact f ∧ ∀ x ∈ f.packets, s.Known op x
  | .quiet => True

/-- What a call leaves behind. -/
structure Trusted (s : PacketBuffer) : Prop where
  ring : Ring s
  chained : s.Chained

/-- A call is sound. -/
def CallSound (s : PacketBuffer) (op : PacketOp) (x : Option PacketBuffer × PacketEvent) : Prop :=
  s.EventSound op x.2 ∧ ∀ s', x.1 = some s' → s'.Trusted

variable {op : PacketOp}

theorem Trusted.assemble (h : s'.Trusted) (hreg : Regular s'.size s'.Holds)
    (hknown : ∀ x, s'.Holds x → s.Known op x) (q : U16) :
    s.CallSound op (outcome (s'.tryToAssembleFrames q)) := by
  have hsound : LoopSound (s'.tryToAssembleFrames q) :=
    h.ring.assembleLoop_sound h.chained hreg s'.size q
  cases hr : s'.tryToAssembleFrames q with
  | error f =>
    rw [hr] at hsound
    exact ⟨hsound, by simp [outcome]⟩
  | ok x =>
    rw [hr] at hsound
    obtain ⟨s₂, r⟩ := x
    obtain ⟨hch, hv, hf⟩ := hsound
    obtain ⟨-, -, hacc⟩ := accounts_assembleLoop hr
    refine ⟨⟨hv, ?_⟩, ?_⟩
    · intro f hmem
      refine ⟨hf f hmem, ?_⟩
      intro x hx
      obtain ⟨i, y, hy, hxy⟩ := hacc.taken x (List.mem_flatMap.2 ⟨f, hmem, hx⟩)
      obtain ⟨z, hz, hyz⟩ := hknown y (mem_iff_slot.2 ⟨i, hy⟩)
      exact ⟨z, hz, hxy.trans hyz⟩
    · rintro _ ⟨⟩
      exact ⟨h.ring.tryToAssembleFrames hr, hch⟩

theorem Trusted.storePacket (h : s'.Trusted) {m : Nat}
    (hreg : Regular m fun x => x = p ∨ s.Holds x) (hm : m ∣ s'.size)
    (hfree : s'.get (s'.indexOf p.seqNum) = none) (hsub : ∀ x, s'.Holds x → s.Holds x) :
    s.CallSound (.insertPacket p) (outcome ((s'.stored p).tryToAssembleFrames p.seqNum)) := by
  have hholds : ∀ x, (s'.stored p).Holds x → ∃ y, (y = p ∨ s.Holds y) ∧ x.content = y.content := by
    intro x hx
    obtain ⟨i, hi⟩ := mem_iff_slot.1 hx
    change (s'.stored p).get i = some x at hi
    by_cases heq : s'.indexOf p.seqNum = i
    · rw [← heq, get_stored_self h.ring.size.pos] at hi
      cases hi
      exact ⟨p, Or.inl rfl, rfl⟩
    · rw [get_stored_ne heq] at hi
      exact ⟨x, Or.inr (hsub x (holds_of_get hi)), rfl⟩
  have htr : (s'.stored p).Trusted :=
    ⟨h.ring.stored p, h.chained.stored h.ring.size.pos hfree⟩
  have hsize := size_stored s' p
  refine htr.assemble ?_ ?_ p.seqNum
  · rw [hsize]
    exact hreg.of_content hm hholds
  · intro x hx
    obtain ⟨y, hy, hxy⟩ := hholds x hx
    refine ⟨y, ?_, hxy⟩
    rcases hy with rfl | hy
    · exact Or.inr rfl
    · exact Or.inl hy

theorem Trusted.noteFirst (h : s.Trusted) (q : U16) : (s.noteFirst q).Trusted :=
  ⟨h.ring.noteFirst q, h.chained.congr (packetBuffer_noteFirst s q)⟩

theorem callSound_ignored {r : InsertResult} (h : s'.Trusted) (hv : r.visits = [])
    (hf : r.assembledFrames = []) : s.CallSound op (outcome (.ok (s', r))) := by
  refine ⟨⟨by simp [VisitsExact, hv], by simp [hf]⟩, ?_⟩
  rintro _ ⟨⟩
  exact h

theorem Trusted.insertPacket (h : s.Trusted) (hgood : StepRegular (some s) (.insertPacket p)) :
    s.CallSound (.insertPacket p) (outcome (s.insertPacket p)) := by
  have hfirst := h.noteFirst p.seqNum
  rcases insertPacket_eq s p with
    ⟨-, he⟩ | ⟨-, -, -, he⟩ | ⟨hcl, hg, he⟩ | ⟨-, -, he⟩ | ⟨hc, s₁, hx, he⟩
  · rw [he]
    exact callSound_ignored h rfl rfl
  · rw [he]
    exact callSound_ignored hfirst rfl rfl
  · -- a free slot
    obtain ⟨-, hreg⟩ := hgood ⟨hcl, by simp [hg]⟩
    rw [he]
    refine hfirst.storePacket hreg ?_ ?_ ?_
    · rw [ringSize, hg, size_noteFirst]
      exact Nat.dvd_refl _
    · rwa [get_noteFirst, indexOf_noteFirst]
    · intro x hx
      unfold Holds at *
      rwa [packetBuffer_noteFirst] at hx
  · rw [he]
    exact callSound_ignored ⟨hfirst.ring.clear, chained_clear _⟩ rfl rfl
  · -- the buffer gets another size, in which all packets fit
    have hcl := hc.1
    obtain ⟨x₀, hx₀, hne₀⟩ := hc.2
    obtain ⟨hsafe, hreg⟩ := hgood ⟨hcl, by simp [hx₀, hne₀]⟩
    obtain ⟨hne, n, hn, hle, hmax, hfree, hfs, hs₁⟩ :=
      hfirst.ring.expand_some (Ring.conflict_noteFirst hc) hx
    have hdvd := h.ring.expand_dvd hc hx
    have hring := hfirst.ring.expand hx
    simp only [firstSize_noteFirst, conflictsAt_noteFirst, size_noteFirst,
      maxPacketBufferSize_noteFirst, packetBuffer_noteFirst] at *
    have hfit : s.Fits p n := (h.ring.fits_iff hn hle hmax hfree hfs).2 (hsafe hc hne)
    have hbuf : s₁.packetBuffer = rehash Packet.key n s.packetBuffer := congrArg packetBuffer hs₁
    have hsize : s₁.size = n := by
      show s₁.packetBuffer.length = n
      rw [hbuf, length_rehash]
    rw [hsize] at hdvd
    have htr : s₁.Trusted := ⟨hring, Ring.chained_rehashed h.chained hdvd hfit.1 hbuf⟩
    rw [he]
    refine htr.storePacket hreg ?_ ?_ ?_
    · rw [ringSize, hx₀, hsize]
      apply IsPow.dvd (h.ring.size.min h.ring.max) hn
      unfold firstSize at hle
      omega
    · have := (hfit.rehashed hn.pos).2
      unfold get indexOf
      rw [hsize, hbuf]
      exact this
    · intro x hx
      obtain ⟨i, hi⟩ := mem_iff_slot.1 hx
      rw [hbuf] at hi
      exact (slot_rehash hi).1

theorem Trusted.insertPadding (h : s.Trusted) (hgood : StepRegular (some s) (.insertPadding q)) :
    s.CallSound (.insertPadding q) (outcome (s.insertPadding q)) := by
  have hbuf := packetBuffer_updateMissingPackets s q kMaxMissingPacketCount
  have htr : (s.updateMissingPackets q kMaxMissingPacketCount).Trusted :=
    ⟨h.ring.congr hbuf (maxPacketBufferSize_updateMissingPackets ..), h.chained.congr hbuf⟩
  refine htr.assemble ?_ ?_ (q + 1)
  · unfold Holds size
    rw [hbuf]
    exact hgood
  · intro x hx
    unfold Holds at hx
    rw [hbuf] at hx
    exact ⟨x, Or.inl hx, rfl⟩

/-! ## Clearing -/

/-- One round of the loop of `ClearTo`. -/
def clearRound (x : U16) (s : PacketBuffer) : PacketBuffer :=
  let stored := s.get (s.indexOf s.firstSeqNum)
  let s := if stored.any fun p => aheadOf x p.seqNum then s.set
    (s.indexOf s.firstSeqNum) none else s
  { s with firstSeqNum := s.firstSeqNum + 1 }

theorem clearLoop_succ (x : U16) (n : Nat) (s : PacketBuffer) :
    clearLoop x (n + 1) s = clearLoop x n (clearRound x s) := rfl

theorem size_clearRound (x : U16) (s : PacketBuffer) : (clearRound x s).size = s.size := by
  show (ite _ _ s : PacketBuffer).size = _
  split
  · exact size_set ..
  · rfl

theorem firstSeqNum_clearRound (x : U16) (s : PacketBuffer) :
    (clearRound x s).firstSeqNum = s.firstSeqNum + 1 := by
  show (ite _ _ s : PacketBuffer).firstSeqNum + 1 = _
  split <;> rfl

variable {x : U16}

theorem get_clearRound : (clearRound x s).get i = some p ↔
    s.get i = some p ∧ ¬ (aheadOf x p.seqNum = true ∧ s.indexOf s.firstSeqNum = i) := by
  show (ite _ _ s : PacketBuffer).get i = some p ↔ _
  by_cases hi : s.indexOf s.firstSeqNum = i
  · subst hi
    cases hx : s.get (s.indexOf s.firstSeqNum) with
    | none => simp [hx]
    | some y =>
      by_cases hy : aheadOf x y.seqNum = true
      · simp only [Option.any_some, hy, if_true]
        have hnone : (s.set (s.indexOf s.firstSeqNum) none).get (s.indexOf s.firstSeqNum) = none :=
          slot_set_none_self ..
        rw [hnone]
        constructor
        · intro h
          exact absurd h (by simp)
        · rintro ⟨⟨⟩, h⟩
          exact absurd ⟨hy, trivial⟩ h
      · simp only [Option.any_some, hy]
        rw [if_neg (by simp), hx]
        constructor
        · rintro ⟨⟩
          exact ⟨rfl, fun h => hy h.1⟩
        · exact And.left
  · have hsame : (if (s.get (s.indexOf s.firstSeqNum)).any fun p => aheadOf x p.seqNum then
        s.set (s.indexOf s.firstSeqNum) none else s).get i = s.get i := by
      split
      · exact get_set_ne hi _
      · rfl
    rw [hsame]
    simp [hi]

theorem size_clearLoop (x : U16) (n : Nat) (s : PacketBuffer) :
    (clearLoop x n s).size = s.size := by
  induction n generalizing s with
  | zero => rfl
  | succ n ih => rw [clearLoop_succ, ih, size_clearRound]

theorem get_clearLoop : (clearLoop x n s).get i = some p ↔
    s.get i = some p ∧ ¬ (aheadOf x p.seqNum = true ∧
      ∃ k, k < n ∧ s.indexOf (s.firstSeqNum + BitVec.ofNat 16 k) = i) := by
  induction n generalizing s with
  | zero => simp [clearLoop]
  | succ n ih =>
    have hindex : ∀ y, (clearRound x s).indexOf y = s.indexOf y := by
      intro y
      unfold indexOf
      rw [size_clearRound]
    rw [clearLoop_succ, ih, get_clearRound, firstSeqNum_clearRound]
    simp only [hindex, succ_add_ofNat]
    constructor
    · rintro ⟨⟨hp, h0⟩, hn⟩
      refine ⟨hp, ?_⟩
      rintro ⟨hahead, k, hk, hki⟩
      cases k with
      | zero => exact h0 ⟨hahead, by simpa using hki⟩
      | succ k => exact hn ⟨hahead, k, by omega, hki⟩
    · rintro ⟨hp, hn⟩
      refine ⟨⟨hp, ?_⟩, ?_⟩
      · rintro ⟨hahead, h0⟩
        exact hn ⟨hahead, 0, by omega, by simpa using h0⟩
      · rintro ⟨hahead, k, hk, hki⟩
        exact hn ⟨hahead, k + 1, by omega, hki⟩

theorem eq_of_aheadOf_pred {x y : U16} (h : aheadOf x (y - 1) = true) (hn : aheadOf x y = false) :
    y = x := by
  rw [aheadOf_iff] at h
  rw [aheadOf_false_iff] at hn
  bv_omega

/-- The marked packet whose predecessor is cleared, while it stays, is in the slot after the
cleared numbers. -/
theorem Ring.clearTo_boundary (h : Ring s)
    {y : Packet} (hy : s.get (prevIndex s.size i) = some y) (hp : s.get i = some p)
    (hseq : y.seqNum = p.seqNum - 1)
    (hgone : aheadOf x y.seqNum = true ∧ ∃ k, k < min (x - s.firstSeqNum).toNat s.size ∧
      s.indexOf (s.firstSeqNum + BitVec.ofNat 16 k) = prevIndex s.size i)
    (hstays : ¬ (aheadOf x p.seqNum = true ∧ ∃ k, k < min (x - s.firstSeqNum).toNat s.size ∧
      s.indexOf (s.firstSeqNum + BitVec.ofNat 16 k) = i)) : s.indexOf x = i := by
  obtain ⟨hahead, k, hk, hki⟩ := hgone
  have hi : i = s.indexOf p.seqNum := h.placed i p hp
  cases hpx : aheadOf x p.seqNum with
  | false =>
    rw [hseq] at hahead
    rw [hi, eq_of_aheadOf_pred hahead hpx]
  | true =>
    -- the slot of `p` comes after the visited slot of `y`, so it is the first one not visited
    have hnext : s.indexOf (s.firstSeqNum + BitVec.ofNat 16 (k + 1)) = i := by
      have hyk : s.indexOf (s.firstSeqNum + BitVec.ofNat 16 k) = s.indexOf y.seqNum := by
        rw [hki]
        exact h.placed _ y hy
      rw [add_ofNat_succ, indexOf_succ_congr h.size hyk, hseq, hi, BitVec.sub_add_cancel]
    have hend : k + 1 = min (x - s.firstSeqNum).toNat s.size := by
      by_contra hne
      exact hstays ⟨hpx, k + 1, by omega, hnext⟩
    rcases Nat.le_total (x - s.firstSeqNum).toNat s.size with hle | hle
    · rw [Nat.min_eq_left hle] at hend
      rw [hend, BitVec.ofNat_toNat, BitVec.setWidth_eq] at hnext
      rwa [BitVec.add_comm, BitVec.sub_add_cancel] at hnext
    · -- a full round visits every slot
      rw [Nat.min_eq_right hle] at hend
      refine absurd ⟨hpx, 0, by omega, ?_⟩ hstays
      rw [← hnext, hend]
      have hlt := (x - s.firstSeqNum).isLt
      rcases h.size.dvd_or_lt with hd | hgt
      · have hround : s.size % 2 ^ 16 % s.size = 0 :=
          (Nat.mod_mod_of_dvd s.size hd).trans (Nat.mod_self _)
        unfold indexOf
        rw [BitVec.toNat_add, BitVec.toNat_add, Nat.mod_mod_of_dvd _ hd, Nat.mod_mod_of_dvd _ hd,
          BitVec.toNat_ofNat, BitVec.toNat_ofNat, Nat.add_mod, Nat.add_mod _ (s.size % 2 ^ 16),
            hround]
        simp
      · omega

theorem Trusted.clearTo (h : s.Trusted) (hgood : StepRegular (some s) (.clearTo q)) :
    (s.clearTo q).Trusted := by
  refine ⟨h.ring.clearTo q, ?_⟩
  unfold PacketBuffer.clearTo
  split
  · exact h.chained
  · rename_i hold
    split
    · exact h.chained
    · dsimp only
      refine Chained.congr (s := clearLoop (q + 1)
        (min (forwardDiff s.firstSeqNum (q + 1)).toNat s.size) s) ?_ rfl
      intro i p hp hc hf
      rw [get_clearLoop] at hp
      obtain ⟨hp, hstays⟩ := hp
      obtain ⟨y, hy, h1, h2, h3⟩ := h.chained i p hp hc hf
      refine ⟨y, ?_, h1, h2, h3⟩
      rw [size_clearLoop, get_clearLoop]
      refine ⟨hy, ?_⟩
      intro hgone
      have hb := h.ring.clearTo_boundary hy hp h1 hgone hstays
      have := hgood (by simpa using hold) p (by rw [hb]; exact hp) hc
      rw [hf] at this
      exact absurd this (by simp)

/-! ## Every run -/

theorem Trusted.step (h : s.Trusted) (hgood : StepRegular (some s) op) :
    s.CallSound op (packetMachine.step (some s) op) := by
  cases op with
  | insertPacket p => exact h.insertPacket hgood
  | insertPadding q => exact h.insertPadding hgood
  | clear =>
    refine ⟨trivial, ?_⟩
    rintro _ ⟨⟩
    exact ⟨h.ring.clear, chained_clear s⟩
  | clearTo q =>
    refine ⟨trivial, ?_⟩
    rintro _ ⟨⟩
    exact h.clearTo hgood
  | setSpsPpsIdrIsH264Keyframe flag =>
    refine ⟨trivial, ?_⟩
    rintro _ ⟨⟩
    exact ⟨h.ring.congr rfl rfl, h.chained.congr rfl⟩

theorem trusted_reached {a b : Nat} {ops : List PacketOp}
    (hgood : packetMachine.AllGood StepRegular (some (create (2 ^ a) (2 ^ b))) ops)
    (hs : packetMachine.final (some (create (2 ^ a) (2 ^ b))) ops = some s) : s.Trusted := by
  refine packetMachine.invariant_final (P := fun o => ∀ x, o = some x → x.Trusted) ?_ ?_ hgood s hs
  · intro o op ho hg x hx
    cases o with
    | none => exact absurd hx (by simp [packetMachine])
    | some y => exact ((ho y rfl).step hg).2 x hx
  · rintro _ ⟨⟩
    exact ⟨ring_create ⟨a, rfl⟩ ⟨b, rfl⟩, chained_create _ _⟩

/-- **Frames are intact.**  In every run whose calls all meet their condition, every call
returns only intact frames, built from packets in the buffer; every slot the walks visit
holds the expected packet, and neither an empty slot is read nor a frame overrun. -/
theorem frames_intact {a b : Nat} {ops : List PacketOp}
    (hgood : packetMachine.AllGood StepRegular (some (create (2 ^ a) (2 ^ b))) ops)
    {pre post : List PacketOp} {op : PacketOp} (hops : ops = pre ++ op :: post)
    (hs : packetMachine.final (some (create (2 ^ a) (2 ^ b))) pre = some s) :
    s.EventSound op (packetMachine.step (some s) op).2 := by
  subst hops
  obtain ⟨hpre, hop, -⟩ := (packetMachine.allGood_append _ _ _ _).1 hgood
  rw [hs] at hop
  exact ((trusted_reached hpre hs).step hop).1

/-- The first and the last packet of a frame of two. -/
def firstOfTwo : Packet := { seqNum := 0, timestamp := 7, videoHeader :=
    { isFirstPacketInFrame := true } }

@[inherit_doc firstOfTwo]
def lastOfTwo : Packet := { seqNum := 1, timestamp := 7, videoHeader :=
    { isLastPacketInFrame := true } }

/-- Four slots, with the first of two packets. -/
def waitingForLast : PacketBuffer where
  maxPacketBufferSize := 4
  packetBuffer := [some { firstOfTwo with continuous := true }, none, none, none]
  firstPacketReceived := true
  newestInsertedSeqNum := some 0

theorem regular_two : Regular 4 fun x => x = lastOfTwo ∨ waitingForLast.Holds x := by
  have hmem : ∀ x, x = lastOfTwo ∨ waitingForLast.Holds x →
      x = lastOfTwo ∨ x = { firstOfTwo with continuous := true } := by
    intro x hx
    simpa [Holds, waitingForLast] using hx
  refine ⟨?_, ?_, 9, ?_⟩
  · intro e x y he _ _ _ hcodec
    rcases hmem e he with rfl | rfl <;> cases hcodec
  · intro x y hx hy
    rcases hmem x hx with rfl | rfl <;> rcases hmem y hy with rfl | rfl <;> decide
  · intro x hx
    rcases hmem x hx with rfl | rfl <;> decide

/-- A frame of two packets comes out intact. -/
theorem frames_intact_two :
    packetMachine.final (some (create (2 ^ 2) (2 ^ 2))) [.insertPacket firstOfTwo] =
        some waitingForLast ∧
      waitingForLast.EventSound (.insertPacket lastOfTwo)
        (packetMachine.step (some waitingForLast) (.insertPacket lastOfTwo)).2 := by
  have hs : packetMachine.final (some (create (2 ^ 2) (2 ^ 2))) [.insertPacket firstOfTwo] =
      some waitingForLast := by decide +kernel
  have hgood : packetMachine.AllGood StepRegular (some (create (2 ^ 2) (2 ^ 2)))
      ([.insertPacket firstOfTwo] ++ [.insertPacket lastOfTwo]) := by
    rw [packetMachine.allGood_append, hs]
    refine ⟨⟨?_, trivial⟩, ⟨?_, trivial⟩⟩
    · intro _
      refine ⟨?_, ?_⟩
      · rintro ⟨-, q, hq, -⟩
        have hnone : (create (2 ^ 2) (2 ^ 2)).get
            ((create (2 ^ 2) (2 ^ 2)).indexOf firstOfTwo.seqNum) = none := by decide
        rw [hnone] at hq
        exact absurd hq (by simp)
      · have hmem : ∀ x, x = firstOfTwo ∨ (create (2 ^ 2) (2 ^ 2)).Holds x → x = firstOfTwo := by
          intro x hx
          simpa [Holds, create] using hx
        refine ⟨?_, ?_, 9, ?_⟩
        · intro e x y he _ _ _ hcodec
          rw [hmem e he] at hcodec
          cases hcodec
        · intro x y hx hy
          rw [hmem x hx, hmem y hy]
          decide
        · intro x hx
          rw [hmem x hx]
          decide
    · intro _
      refine ⟨?_, regular_two⟩
      rintro ⟨-, q, hq, -⟩
      have hnone : waitingForLast.get (waitingForLast.indexOf lastOfTwo.seqNum) = none := by decide
      rw [hnone] at hq
      exact absurd hq (by simp)
  exact ⟨hs, frames_intact hgood rfl hs⟩

/-- An H264 packet with timestamp 7 that alone makes a key frame. -/
def keyPacket (q : U16) : Packet where
  seqNum := q
  timestamp := 7
  videoHeader := { codecType := .h264, isFirstPacketInFrame := true, isLastPacketInFrame := q == 6 }
  videoCodecHeader := .h264 { hasSps := true, hasPps := true, hasIdr := true }

/-- Four slots, with the key packet 1. -/
def fourWithOne : PacketBuffer where
  maxPacketBufferSize := 4
  packetBuffer := [none, some { keyPacket 1 with continuous := true }, none, none]
  firstSeqNum := 1
  firstPacketReceived := true
  newestInsertedSeqNum := some 1

/-- Eight slots, with the second packet of a frame whose first packet was cleared. -/
def cutFrame : PacketBuffer where
  maxPacketBufferSize := 8
  packetBuffer :=
    none :: some { seqNum := 1, timestamp := 7, continuous := true } :: List.replicate 6 none
  firstSeqNum := 1
  firstPacketReceived := true
  isClearedToFirstSeqNum := true
  newestInsertedSeqNum := some 1

/-- Whether a packet is visited that is not the one of its number. -/
def visitsAlias : PacketEvent → Bool
  | .returned r => r.visits.any fun v => v.2.seqNum != v.1
  | _ => false

/-- **Frames are not always intact.**  In four slots packet 6 finds packet 1, of the same
timestamp, in the slot before its own and takes it for packet 5.  In eight slots the first
packet of a frame is cleared; the mark on its second packet leads the walk from the third
one into the empty slot. -/
theorem mixes_aliased_packet_and_reads_null :
    (packetMachine.final (some (create (2 ^ 2) (2 ^ 2))) [.insertPacket (keyPacket 1)] =
        some fourWithOne ∧
      ¬ fourWithOne.EventSound (.insertPacket (keyPacket 6))
        (packetMachine.step (some fourWithOne) (.insertPacket (keyPacket 6))).2) ∧
    (packetMachine.final (some (create (2 ^ 3) (2 ^ 3)))
        [.insertPacket firstOfTwo, .insertPacket { seqNum := 1, timestamp := 7 }, .clearTo 0] =
        some cutFrame ∧
      ¬ cutFrame.EventSound (.insertPacket { lastOfTwo with seqNum := 2 })
        (packetMachine.step (some cutFrame) (.insertPacket { lastOfTwo with seqNum := 2 })).2) := by
  refine ⟨⟨by decide +kernel, ?_⟩, ⟨by decide +kernel, ?_⟩⟩
  · have hbad : visitsAlias (packetMachine.step (some fourWithOne) (.insertPacket (keyPacket 6))).2 =
        true := by decide +kernel
    intro h
    generalize (packetMachine.step (some fourWithOne) (.insertPacket (keyPacket 6))).2 = e at h hbad
    cases e with
    | returned r =>
      obtain ⟨v, hv, hne⟩ := List.any_eq_true.1 hbad
      exact absurd (h.1 v hv) (by simpa using hne)
    | faulted f => cases hbad
    | quiet => cases hbad
  · have hnull : (packetMachine.step (some cutFrame)
        (.insertPacket { lastOfTwo with seqNum := 2 })).2 =
          .faulted .nullPacket := by decide +kernel
    rw [hnull]
    intro h
    exact absurd h (by simp [EventSound])

end PacketBuffer
end NaiveRtc.Jitter
