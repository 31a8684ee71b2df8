import NaiveRtc.Jitter.PacketBufferRing

/-!
# Which insertions lose packets

An insertion that does not ask for a key frame should leave every packet in the
buffer or hand it out in a frame.  The search for a new size compares the reduced
number of a stored packet with the new number *as it is*, so that it finds no
conflict at any size the new number is not below; the packet in the slot is then
overwritten.

* `ExpandsSafely` — what the search needs, in terms of the first size it tries.
* `lossless_iff_expandsSafely` — for every reachable buffer and every packet, the one
  holds exactly when the other does.
* `overwrites_stored` — the smallest case in which a packet is lost.
-/

namespace NaiveRtc.Jitter

open WrapAround SlotTable

namespace PacketBuffer

variable {s s' : PacketBuffer} {p : Packet} {r : InsertResult}

/-- A packet is stored in its slot, or it is in one of the returned frames. -/
def StoredOrReturned (s : PacketBuffer) (r : InsertResult) (p : Packet) : Prop :=
  (∃ q, s.get (s.indexOf p.seqNum) = some q ∧ q.content = p.content) ∨
    ∃ f ∈ r.assembledFrames, ∃ q ∈ f.packets, q.content = p.content

/-- **No packet is lost** by the insertion of `p` into `s`, which returned `r` and left
`s'` behind. -/
structure Lossless (s : PacketBuffer) (p : Packet) (s' : PacketBuffer) (r : InsertResult) :
    Prop where
  /-- Every packet stored before is accounted for. -/
  kept : ∀ i q, s.get i = some q → s'.StoredOrReturned r q
  /-- The new packet is accounted for, unless it was cleared or is a duplicate. -/
  inserted : s.isCleared p.seqNum = false →
    (∀ q, s.get (s.indexOf p.seqNum) = some q → q.seqNum ≠ p.seqNum) → s'.StoredOrReturned r p
  /-- An expansion ends with a size in which the slot of `p` is free. -/
  free : s.Conflict p → ∀ s₁,
    (s.noteFirst p.seqNum).expandPacketBufferIfNecessary p.seqNum = some s₁ →
      s₁.get (s₁.indexOf p.seqNum) = none

/-- The stored packets differ modulo `n`. -/
def Apart (s : PacketBuffer) (n : Nat) : Prop :=
  ∀ x y, some x ∈ s.packetBuffer → some y ∈ s.packetBuffer → x.key % n = y.key % n → x = y

/-- What the search for a new size relies on, at the first size `n` it tries: if the new
number is at least `n`, that no two of all packets agree modulo `n`; if it is below `n`,
that the stored packets differ modulo `n` or the test finds a conflict there. -/
def ExpandsSafely (s : PacketBuffer) (p : Packet) : Prop :=
  s.Conflict p → s.size ≠ s.maxPacketBufferSize →
    (s.firstSize ≤ p.key →
      s.Apart s.firstSize ∧ ∀ x, some x ∈ s.packetBuffer →
        x.key % s.firstSize ≠ p.key % s.firstSize) ∧
    (p.key < s.firstSize →
      s.Apart s.firstSize ∨ ∃ x, some x ∈ s.packetBuffer ∧ x.key % s.firstSize = p.key)

/-! ## Storing and assembling -/

theorem StoredOrReturned.of_content {q x : Packet} (h : s.StoredOrReturned r q)
    (hx : q.content = x.content) : s.StoredOrReturned r x := by
  rcases h with ⟨y, hy, hyq⟩ | ⟨f, hf, y, hy, hyq⟩
  · rw [Packet.seqNum_eq_of_content hx] at hy
    exact Or.inl ⟨y, hy, hyq.trans hx⟩
  · exact Or.inr ⟨f, hf, y, hy, hyq.trans hx⟩

variable {x : Packet}

theorem Ring.storedOrReturned (h : Ring s) {q : U16} (hr : s.tryToAssembleFrames q = .ok (s', r))
    {i : Nat} (hx : s.get i = some x) : s'.StoredOrReturned r x := by
  obtain ⟨-, -, hacc⟩ := accounts_assembleLoop hr
  rcases hacc.kept i x hx with ⟨y, hy, hyx⟩ | ⟨y, hy, hyx⟩
  · refine Or.inl ⟨y, ?_, hyx⟩
    have hi := h.placed i x hx
    rw [← hacc.length] at hi
    show slot s'.packetBuffer (x.key % s'.packetBuffer.length) = some y
    rwa [← hi]
  · obtain ⟨f, hf, hyf⟩ := List.mem_flatMap.1 hy
    exact Or.inr ⟨f, hf, y, hyf, hyx⟩

theorem exists_of_storedOrReturned {q : U16} (hr : s.tryToAssembleFrames q = .ok (s', r))
    (hx : s'.StoredOrReturned r x) : ∃ i y, s.get i = some y ∧ y.content = x.content := by
  obtain ⟨-, -, hacc⟩ := accounts_assembleLoop hr
  rcases hx with ⟨y, hy, hyx⟩ | ⟨f, hf, y, hy, hyx⟩
  · obtain ⟨z, hz, hyz⟩ := hacc.stored _ y hy
    exact ⟨_, z, hz, hyz.symm.trans hyx⟩
  · obtain ⟨i, z, hz, hyz⟩ := hacc.taken y (List.mem_flatMap.2 ⟨f, hf, hy⟩)
    exact ⟨i, z, hz, hyz.symm.trans hyx⟩

theorem Ring.storedOrReturned_of_free (h : Ring s) (hfree : s.get (s.indexOf p.seqNum) = none)
    (hr : (s.stored p).tryToAssembleFrames p.seqNum = .ok (s', r)) :
    s'.StoredOrReturned r p ∧ ∀ i x, s.get i = some x → s'.StoredOrReturned r x := by
  refine ⟨?_, ?_⟩
  · have := (h.stored p).storedOrReturned hr (get_stored_self h.size.pos)
    exact this.of_content rfl
  · intro i x hx
    refine (h.stored p).storedOrReturned hr (i := i) ?_
    rw [get_stored_ne]
    · exact hx
    · rintro rfl
      rw [hfree] at hx
      exact absurd hx (by simp)

theorem Ring.not_storedOrReturned (h : Ring s) (hne : x.seqNum ≠ p.seqNum)
    (hx : ∀ i y, s.get i = some y → y.seqNum = x.seqNum → i = s.indexOf p.seqNum)
    (hr : (s.stored p).tryToAssembleFrames p.seqNum = .ok (s', r)) : ¬ s'.StoredOrReturned r x := by
  intro hsr
  obtain ⟨i, y, hy, hyx⟩ := exists_of_storedOrReturned hr hsr
  have hseq := Packet.seqNum_eq_of_content hyx
  by_cases hi : s.indexOf p.seqNum = i
  · rw [← hi, get_stored_self h.size.pos] at hy
    cases hy
    exact hne hseq.symm
  · rw [get_stored_ne hi] at hy
    exact hi (hx i y hy hseq).symm

/-! ## The size that was found -/

/-- All packets have a slot of their own among `n`. -/
def Fits (s : PacketBuffer) (p : Packet) (n : Nat) : Prop :=
  s.Apart n ∧ ∀ x, some x ∈ s.packetBuffer → x.key % n ≠ p.key % n

variable {n : Nat}

theorem Ring.apart_of_dvd (h : Ring s) (hn : s.size ∣ n) : s.Apart n :=
  fun _ _ hx hy hxy => h.placed.eq_of_mod_eq_of_dvd hx hy hn hxy

theorem Apart.of_dvd {m n : Nat} (h : s.Apart m) (hmn : m ∣ n) : s.Apart n :=
  fun x y hx hy hxy => h x y hx hy (Nat.ModEq.of_dvd hmn hxy)

theorem firstSize_eq_of_lt (hn : s.firstSize < n) (hmax : n ≤ s.maxPacketBufferSize) :
    s.firstSize = 2 * s.size := by
  unfold firstSize at *
  omega

theorem not_conflictsAt_of_le (hn : 0 < n) (hp : n ≤ p.key) :
    s.conflictsAt p.seqNum n = false := by
  rw [← Bool.not_eq_true, conflictsAt_iff]
  rintro ⟨x, -, hx⟩
  have : x.key % n < n := Nat.mod_lt _ hn
  change _ = p.key at hx
  omega

theorem Ring.fits_iff (h : Ring s) (hn : IsPow n) (hle : s.firstSize ≤ n)
    (hmax : n ≤ s.maxPacketBufferSize) (hfree : s.conflictsAt p.seqNum n = false)
    (hfirst : s.conflictsAt p.seqNum s.firstSize = false → n = s.firstSize) :
    s.Fits p n ↔
      (s.firstSize ≤ p.key → s.Fits p s.firstSize) ∧
      (p.key < s.firstSize →
        s.Apart s.firstSize ∨ ∃ x, some x ∈ s.packetBuffer ∧ x.key % s.firstSize = p.key) := by
  by_cases hp : s.firstSize ≤ p.key
  · -- the test is blind here, and the first size is taken
    have heq := hfirst (not_conflictsAt_of_le h.firstSize.pos hp)
    rw [heq]
    exact ⟨fun hfit => ⟨fun _ => hfit, fun hlt => absurd hlt (by omega)⟩, fun hfit => hfit.1 hp⟩
  · have hlt : p.key < s.firstSize := by omega
    have hmod : p.key % n = p.key := Nat.mod_eq_of_lt (by omega)
    have hnone : ∀ x, some x ∈ s.packetBuffer → x.key % n ≠ p.key % n := by
      intro x hx heq
      rw [← Bool.not_eq_true, conflictsAt_iff] at hfree
      exact hfree ⟨x, hx, heq.trans hmod⟩
    constructor
    · rintro ⟨hap, -⟩
      refine ⟨fun hge => absurd hge hp, fun _ => ?_⟩
      by_cases hc : s.conflictsAt p.seqNum s.firstSize = true
      · exact Or.inr (conflictsAt_iff.1 hc)
      · exact Or.inl (hfirst (by simpa using hc) ▸ hap)
    · rintro ⟨-, hsafe⟩
      refine ⟨?_, hnone⟩
      rcases hsafe hlt with hap | hconf
      · exact hap.of_dvd (h.firstSize.dvd hn hle)
      · have hne : s.firstSize ≠ n := by
          rintro heq
          rw [← heq, conflictsAt_iff.2 hconf] at hfree
          exact absurd hfree (by simp)
        have hdouble := firstSize_eq_of_lt (by omega) hmax
        apply h.apart_of_dvd
        exact h.size.dvd hn (by omega)

/-- If all packets fit, every stored packet is at home after the move and the slot of
the new packet is free. -/
theorem Fits.rehashed (hn : 0 < n) (h : s.Fits p n) :
    (∀ x, some x ∈ s.packetBuffer → slot (rehash Packet.key n s.packetBuffer) (x.key % n) =
      some x) ∧
      slot (rehash Packet.key n s.packetBuffer) (p.key % n) = none := by
  refine ⟨?_, ?_⟩
  · intro x hx
    exact slot_rehash_of_inj hn hx fun y hy hxy => h.1 y x hy hx hxy
  · by_contra hne
    obtain ⟨y, hy⟩ := Option.ne_none_iff_exists'.1 hne
    obtain ⟨hmem, hmod⟩ := slot_rehash hy
    exact h.2 y hmem hmod.symm

theorem exists_lost_of_not_apart (hn : 0 < n) (h : ¬ s.Apart n) :
    ∃ x, some x ∈ s.packetBuffer ∧ ∀ i, slot (rehash Packet.key n s.packetBuffer) i ≠ some x := by
  unfold Apart at h
  push Not at h
  obtain ⟨x, y, hx, hy, hmod, hne⟩ := h
  obtain ⟨z, -, -, hz⟩ := exists_slot_rehash hn hx
  by_cases hzx : z = x
  · refine ⟨y, hy, ?_⟩
    intro i hi
    rw [(slot_rehash hi).2, ← hmod, hz, hzx] at hi
    exact hne (Option.some.inj hi)
  · refine ⟨x, hx, ?_⟩
    intro i hi
    rw [(slot_rehash hi).2, hz] at hi
    exact hzx (Option.some.inj hi)

/-! ## The theorem -/

theorem Conflict.seqNum_ne (h : Ring s) (hc : s.Conflict p)
    (hx : some x ∈ s.packetBuffer) : x.seqNum ≠ p.seqNum := by
  intro heq
  obtain ⟨-, q, hq, hne⟩ := hc
  rw [h.placed.mem_iff] at hx
  have hkey : x.key = p.seqNum.toNat := congrArg BitVec.toNat heq
  rw [hkey] at hx
  have hxq : some x = some q := hx.symm.trans hq
  cases hxq
  exact hne heq

theorem Ring.lossless_expanded (h : Ring s) (hc : s.Conflict p) (hn : 0 < n)
    {s₁ : PacketBuffer} (hs₁ : s₁.packetBuffer = rehash Packet.key n s.packetBuffer)
    (hring : Ring s₁)
    (he : (s.noteFirst p.seqNum).expandPacketBufferIfNecessary p.seqNum = some s₁)
    (hr : (s₁.stored p).tryToAssembleFrames p.seqNum = .ok (s', r)) :
    s.Lossless p s' r ↔ s.Fits p n := by
  have hsize : s₁.size = n := by
    show s₁.packetBuffer.length = n
    rw [hs₁, length_rehash]
  have hindex : ∀ q : U16, s₁.indexOf q = q.toNat % n := by
    intro q
    unfold indexOf
    rw [hsize]
  have hget : ∀ i, s₁.get i = slot (rehash Packet.key n s.packetBuffer) i := by
    intro i
    unfold get
    rw [hs₁]
  constructor
  · intro hl
    refine ⟨?_, ?_⟩
    · by_contra hap
      obtain ⟨x, hx, hlost⟩ := exists_lost_of_not_apart hn hap
      obtain ⟨i, hi⟩ := mem_iff_slot.1 hx
      refine hring.not_storedOrReturned (hc.seqNum_ne h hx) ?_ hr (hl.kept i x hi)
      intro j y hy hyx
      rw [hget] at hy
      have hyx' : y = x := h.placed.eq_of_mod_eq (slot_rehash hy).1 hx
        (congrArg (fun q : U16 => q.toNat % s.packetBuffer.length) hyx)
      rw [hyx'] at hy
      exact absurd hy (hlost j)
    · intro x hx hmod
      obtain ⟨y, -, -, hy⟩ := exists_slot_rehash hn hx
      have hfree := hl.free hc s₁ he
      rw [hget, hindex] at hfree
      rw [hmod] at hy
      have hpy : (none : Option Packet) = some y := hfree.symm.trans hy
      exact absurd hpy (by simp)
  · intro hfit
    obtain ⟨hat, hfree⟩ := hfit.rehashed hn
    have hfree' : s₁.get (s₁.indexOf p.seqNum) = none := by
      rw [hget, hindex]
      exact hfree
    obtain ⟨hp, hrest⟩ := hring.storedOrReturned_of_free hfree' hr
    refine ⟨?_, fun _ _ => hp, ?_⟩
    · intro i x hx
      refine hrest (x.key % n) x ?_
      rw [hget]
      exact hat x (mem_iff_slot.2 ⟨i, hx⟩)
    · intro _ s₂ he₂
      rw [he] at he₂
      cases he₂
      exact hfree'

/-- **Exactly when an insertion is lossless.**  For every reachable buffer and every
packet whose insertion returns: unless it asks for a key frame, all packets are stored
or returned, if and only if the search for a new size is safe. -/
theorem lossless_iff_expandsSafely {a b : Nat} {ops : List PacketOp}
    (hs : packetMachine.final (some (create (2 ^ a) (2 ^ b))) ops = some s)
    (hr : s.insertPacket p = .ok (s', r)) :
    (r.keyframeRequested = false → s.Lossless p s' r) ↔ s.ExpandsSafely p := by
  have h := ring_reached hs
  rcases insertPacket_cases hr with
    ⟨hcl, rfl, rfl⟩ | ⟨q, hq, hqp, rfl, rfl⟩ | ⟨hcl, hg, ha⟩ | ⟨hc, he, rfl, rfl⟩ | ⟨hc, s₁, he, ha⟩
  · -- cleared before: nothing changes
    have hnc : ¬ s'.Conflict p := fun hc => by simp [hc.1] at hcl
    refine iff_of_true (fun _ => ⟨?_, ?_, fun hc => absurd hc hnc⟩) (fun hc => absurd hc hnc)
    · intro i x hx
      exact Or.inl ⟨x, h.get_home hx, rfl⟩
    · intro hcl'
      simp [hcl'] at hcl
  · -- a duplicate: nothing but `first_seq_num_` changes
    have hnc : ¬ s.Conflict p := by
      rintro ⟨-, x, hx, hne⟩
      rw [hq] at hx
      cases hx
      exact hne hqp
    refine iff_of_true (fun _ => ⟨?_, ?_, fun hc => absurd hc hnc⟩) (fun hc => absurd hc hnc)
    · intro i x hx
      refine Or.inl ⟨x, ?_, rfl⟩
      rw [get_noteFirst, indexOf_noteFirst]
      exact h.get_home hx
    · intro _ hall
      exact absurd hqp (hall q hq)
  · -- a free slot
    have hnc : ¬ s.Conflict p := by
      rintro ⟨-, x, hx, -⟩
      rw [hg] at hx
      exact absurd hx (by simp)
    have hfree : (s.noteFirst p.seqNum).get ((s.noteFirst p.seqNum).indexOf p.seqNum) = none := by
      rwa [get_noteFirst, indexOf_noteFirst]
    obtain ⟨hp, hrest⟩ := (h.noteFirst p.seqNum).storedOrReturned_of_free hfree ha
    refine iff_of_true (fun _ => ⟨?_, fun _ _ => hp, fun hc => absurd hc hnc⟩) (fun hc =>
      absurd hc hnc)
    intro i x hx
    apply hrest i x
    rwa [get_noteFirst]
  · -- no size is found: a key frame is requested
    refine iff_of_true (fun hk => absurd hk (by simp)) ?_
    intro _ hne
    have hfail := Ring.expand_none (Ring.conflict_noteFirst hc) he
    simp only [size_noteFirst, maxPacketBufferSize_noteFirst] at hfail
    obtain ⟨x, hx, hmod⟩ := conflictsAt_iff.1 (hfail.resolve_left hne)
    rw [firstSize_noteFirst] at hmod
    rw [packetBuffer_noteFirst] at hx
    refine ⟨?_, fun _ => Or.inr ⟨x, hx, hmod⟩⟩
    intro hle
    have : x.key % s.firstSize < s.firstSize := Nat.mod_lt _ h.firstSize.pos
    change _ = p.key at hmod
    omega
  · -- the buffer gets another size
    obtain ⟨-, -, hacc⟩ := accounts_assembleLoop ha
    obtain ⟨hne, n, hn, hle, hmax, hfree, hfirst, hs₁⟩ :=
      (h.noteFirst p.seqNum).expand_some (Ring.conflict_noteFirst hc) he
    simp only [firstSize_noteFirst, conflictsAt_noteFirst, size_noteFirst,
      maxPacketBufferSize_noteFirst, packetBuffer_noteFirst] at *
    have hring := (h.noteFirst p.seqNum).expand he
    have hiff := h.lossless_expanded hc hn.pos (congrArg packetBuffer hs₁) hring he ha
    rw [h.fits_iff hn hle hmax hfree hfirst] at hiff
    constructor
    · intro hl hc' hne'
      exact hiff.1 (hl (accounts_assembleLoop ha).2.1)
    · intro hsafe _
      exact hiff.2 (hsafe hc hne)

/-- Four slots that may become sixteen, with packet 9 in slot 1. -/
def fourWithNine : PacketBuffer where
  maxPacketBufferSize := 16
  packetBuffer := [none, some { seqNum := 9 }, none, none]
  firstSeqNum := 9
  firstPacketReceived := true
  newestInsertedSeqNum := some 9

/-- Packet 13 moves packet 9 to slot 1 of eight and takes slot 5. -/
theorem lossless_iff_expandsSafely_thirteen :
    packetMachine.final (some (create (2 ^ 2) (2 ^ 4))) [.insertPacket { seqNum := 9 }] =
        some fourWithNine ∧
      ∃ s' r, fourWithNine.insertPacket { seqNum := 13 } = .ok (s', r) ∧
        r.keyframeRequested = false ∧ fourWithNine.Lossless { seqNum := 13 } s' r := by
  have hs : packetMachine.final (some (create (2 ^ 2) (2 ^ 4))) [.insertPacket { seqNum := 9 }] =
      some fourWithNine := by decide +kernel
  have hr : fourWithNine.insertPacket { seqNum := 13 } =
      .ok ({ fourWithNine with
        packetBuffer := [none, some { seqNum := 9 }, none, none, none, some { seqNum := 13 }, none,
          none]
        newestInsertedSeqNum := some 13
        missingPackets := [10, 11, 12] }, {}) := by decide +kernel
  refine ⟨hs, _, _, hr, rfl, (lossless_iff_expandsSafely hs hr).2 ?_ rfl⟩
  intro _ _
  refine ⟨fun _ => ⟨?_, ?_⟩, fun hlt => absurd hlt (by decide)⟩
  · intro x y hx hy _
    simp only [fourWithNine, List.mem_cons, List.not_mem_nil, or_false, reduceCtorEq, false_or,
      Option.some.injEq] at hx hy
    rw [hx, hy]
  · intro x hx
    simp only [fourWithNine, List.mem_cons, List.not_mem_nil, or_false, reduceCtorEq, false_or,
      Option.some.injEq] at hx
    rw [hx]
    decide

/-- **Packet 17 overwrites packet 9.**  Both have slot 1 of four and of eight; the search
compares `9 % 8` with 17, settles for eight slots, and packet 9 is gone. -/
theorem overwrites_stored :
    packetMachine.final (some (create (2 ^ 2) (2 ^ 4))) [.insertPacket { seqNum := 9 }] =
        some fourWithNine ∧
      ∃ s' r, fourWithNine.insertPacket { seqNum := 17 } = .ok (s', r) ∧
        r.keyframeRequested = false ∧ ¬ fourWithNine.Lossless { seqNum := 17 } s' r := by
  have hr : fourWithNine.insertPacket { seqNum := 17 } =
      .ok ({ fourWithNine with
        packetBuffer := [none, some { seqNum := 17 }, none, none, none, none, none, none]
        newestInsertedSeqNum := some 17
        missingPackets := [10, 11, 12, 13, 14, 15, 16] }, {}) := by decide +kernel
  refine ⟨by decide +kernel, _, _, hr, rfl, ?_⟩
  intro hl
  rcases hl.kept 1 { seqNum := 9 } rfl with ⟨q, hq, hcontent⟩ | ⟨f, hf, -⟩
  · have hq' : q = { seqNum := 17 } := (Option.some.inj hq).symm
    rw [hq'] at hcontent
    exact absurd (Packet.seqNum_eq_of_content hcontent) (by decide)
  · exact absurd hf List.not_mem_nil

end PacketBuffer
end NaiveRtc.Jitter
