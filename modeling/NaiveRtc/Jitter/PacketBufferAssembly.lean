import NaiveRtc.Jitter.PacketBufferRing

/-!
# What the assembly finds

A frame should be built from packets with consecutive sequence numbers and one
timestamp.  The walk backward does not look at sequence numbers: it trusts the marks
of continuity and, for H264, the timestamps.

* `Chained` — the marks can be trusted: a marked packet that does not begin a frame
  follows a marked packet of the same timestamp.
* `Regular` — the timestamps can be trusted where an H264 walk goes by them, frames end at
  their last packet, and some sequence number is not stored.
* `Stretch` — consecutive numbers stored with one timestamp.
* `walkBack_spec`, `takePackets_run`, `assembleRound_sound`, `assembleLoop_sound` — in a
  chained and regular buffer, the walk and the assembly meet the packets they expect.
-/

namespace NaiveRtc.Jitter

open WrapAround SlotTable

namespace PacketBuffer

variable {s s' : PacketBuffer} {p : Packet} {q : U16} {i : Nat}

/-! ## Neighbouring slots -/

variable {n : Nat}

theorem IsPow.dvd_or_lt (h : IsPow n) : n ∣ 65536 ∨ 65536 < n := by
  rcases Nat.lt_or_ge 65536 n with hlt | hle
  · exact Or.inr hlt
  · exact Or.inl (h.dvd ⟨16, rfl⟩ hle)

theorem toNat_succ_mod (h : n ∣ 65536) (q : U16) : (q + 1).toNat % n = (q.toNat + 1) % n := by
  rw [BitVec.toNat_add]
  exact Nat.mod_mod_of_dvd _ h

theorem succ_mod_of_prevIndex {n x y : Nat} (hn : 0 < n) (h : prevIndex n (x % n) = y % n) :
    (y + 1) % n = x % n := by
  rw [← Nat.mod_add_mod, ← h]
  unfold prevIndex
  split
  · rw [Nat.sub_add_cancel (by omega), Nat.mod_mod]
  · rw [Nat.sub_add_cancel (by omega), Nat.mod_self]
    omega

theorem indexOf_succ_of_prevIndex (hs : IsPow s.size) {x : U16}
    (h : prevIndex s.size (s.indexOf q) = s.indexOf x) : s.indexOf (x + 1) = s.indexOf q := by
  rcases hs.dvd_or_lt with hd | hlt
  · unfold indexOf at *
    rw [toNat_succ_mod hd]
    exact succ_mod_of_prevIndex hs.pos h
  · have hq := q.isLt
    have hx := x.isLt
    unfold indexOf at *
    rw [Nat.mod_eq_of_lt (by omega), Nat.mod_eq_of_lt (by omega)] at h
    unfold prevIndex at h
    split at h
    · have : x + 1 = q := by bv_omega
      rw [this]
    · omega

theorem indexOf_succ_congr (hs : IsPow s.size) {x y : U16} (h : s.indexOf x = s.indexOf y) :
    s.indexOf (x + 1) = s.indexOf (y + 1) := by
  rcases hs.dvd_or_lt with hd | hlt
  · unfold indexOf at *
    rw [toNat_succ_mod hd, toNat_succ_mod hd]
    exact Nat.ModEq.add_right 1 h
  · have hx := x.isLt
    have hy := y.isLt
    unfold indexOf at h
    rw [Nat.mod_eq_of_lt (by omega), Nat.mod_eq_of_lt (by omega)] at h
    rw [BitVec.eq_of_toNat_eq h]

theorem prevIndex_indexOf (hd : s.size ∣ 65536) (q : U16) :
    prevIndex s.size (s.indexOf q) = s.indexOf (q - 1) := by
  have hpos : 0 < s.size := Nat.pos_of_dvd_of_pos hd (by omega)
  have hsucc := toNat_succ_mod hd (q - 1)
  rw [BitVec.sub_add_cancel] at hsucc
  have hlt := Nat.mod_lt (q - 1).toNat hpos
  unfold indexOf
  rw [hsucc, ← Nat.mod_add_mod]
  unfold prevIndex
  rcases Nat.lt_or_ge ((q - 1).toNat % s.size + 1) s.size with h | h
  · rw [Nat.mod_eq_of_lt h]
    split <;> omega
  · have hfull : (q - 1).toNat % s.size + 1 = s.size := by omega
    rw [hfull, Nat.mod_self]
    split <;> omega

variable {k : Nat}

/-- A walk backward that makes fewer steps than there are slots comes to the slot it began at
only if it has gone round all numbers. -/
theorem eq_back_of_indexOf (hs : IsPow s.size) {e : U16} (hk : k + 1 < s.size)
    (h : s.indexOf (e + 1) = s.indexOf (e - BitVec.ofNat 16 k)) :
    e + 1 = e - BitVec.ofNat 16 k := by
  have hadd : e - BitVec.ofNat 16 k + BitVec.ofNat 16 (k + 1) = e + 1 := by
    rw [BitVec.ofNat_add]
    bv_omega
  generalize e - BitVec.ofNat 16 k = x at *
  rw [← hadd] at h ⊢
  unfold indexOf at h
  rcases hs.dvd_or_lt with hd | hlt
  · rw [BitVec.toNat_add, Nat.mod_mod_of_dvd _ hd, BitVec.toNat_ofNat, ← Nat.add_mod_mod,
      Nat.mod_mod_of_dvd _ hd, Nat.add_mod_mod] at h
    have hround : k + 1 ≡ 0 [MOD s.size] := Nat.ModEq.add_left_cancel' x.toNat h
    have := Nat.le_of_dvd (by omega) ((Nat.modEq_zero_iff_dvd).1 hround)
    omega
  · have h1 := x.isLt
    have h2 := (x + BitVec.ofNat 16 (k + 1)).isLt
    rw [Nat.mod_eq_of_lt (by omega), Nat.mod_eq_of_lt (by omega)] at h
    exact BitVec.eq_of_toNat_eq h

/-! ## Marks that can be trusted -/

/-- The slot before slot `i` holds the marked packet that precedes `p` in its frame. -/
def Follows (s : PacketBuffer) (i : Nat) (p : Packet) : Prop :=
  ∃ x, s.get (prevIndex s.size i) = some x ∧ x.seqNum = p.seqNum - 1 ∧ x.timestamp = p.timestamp ∧
    x.continuous = true

/-- A marked packet begins a frame or follows a marked packet. -/
def Chained (s : PacketBuffer) : Prop :=
  ∀ i p, s.get i = some p → p.continuous = true → p.videoHeader.isFirstPacketInFrame = false →
    s.Follows i p

theorem isContinuous_iff : s.isContinuous q = true ↔
    ∃ p, s.get (s.indexOf q) = some p ∧ p.seqNum = q ∧
      (p.videoHeader.isFirstPacketInFrame = true ∨
        (p.videoHeader.isFirstPacketInFrame = false ∧ s.Follows (s.indexOf q) p)) := by
  unfold isContinuous
  cases hp : s.get (s.indexOf q) with
  | none => simp
  | some p =>
    simp only [Option.some.injEq, exists_eq_left']
    by_cases hq : p.seqNum = q
    · rw [if_neg (by simpa using hq)]
      cases hf : p.videoHeader.isFirstPacketInFrame with
      | true => simp [hq]
      | false =>
        rw [if_neg (by simp)]
        unfold Follows
        cases hx : s.get (prevIndex s.size (s.indexOf q)) with
        | none => simp
        | some x =>
          simp only [Option.some.injEq, exists_eq_left']
          by_cases h1 : x.seqNum = p.seqNum - 1
          · by_cases h2 : x.timestamp = p.timestamp
            · simp [hq, h1, h2]
            · simp [h1, h2]
          · rw [if_pos h1]
            simp only [Bool.false_eq_true, false_iff, not_and, false_or, true_and]
            exact fun _ h => absurd h h1
    · rw [if_pos (by simpa using hq)]
      simp [hq]

theorem Follows.ne (h : s.Follows i p) (hp : s.get i = some p) : prevIndex s.size i ≠ i := by
  intro heq
  obtain ⟨x, hx, hseq, -⟩ := h
  rw [heq, hp] at hx
  cases hx
  bv_omega

theorem Chained.congr (h : s.Chained) (hb : s'.packetBuffer = s.packetBuffer) : s'.Chained := by
  have hget : ∀ i, s'.get i = s.get i := fun i => congrArg (slot · i) hb
  have hsize : s'.size = s.size := congrArg List.length hb
  intro i p hp hc hf
  rw [hget] at hp
  obtain ⟨x, hx, hrest⟩ := h i p hp hc hf
  exact ⟨x, by rw [hget, hsize]; exact hx, hrest⟩

theorem get_set_self (hi : i < s.size) (o : Option Packet) : (s.set i o).get i = o :=
    slot_set_self hi o

theorem get_set_ne {j : Nat} (h : i ≠ j) (o : Option Packet) : (s.set i o).get j = s.get j :=
    slot_set_ne h o

/-- A packet is rewritten in its slot, and may be marked if it is the first of a frame or
follows a marked one. -/
theorem Chained.rewrite (h : s.Chained) (hp : s.get i = some p) {p' : Packet}
    (hseq : p'.seqNum = p.seqNum) (hts : p'.timestamp = p.timestamp)
    (hcont : p.continuous = true → p'.continuous = true)
    (hnew : p'.continuous = true → p'.videoHeader.isFirstPacketInFrame = false → s.Follows i p) :
    (s.set i (some p')).Chained := by
  have hi : i < s.size := lt_of_slot_eq_some hp
  intro j y hy hc hf
  by_cases hij : i = j
  · subst hij
    rw [get_set_self hi] at hy
    cases hy
    have hfol := hnew hc hf
    obtain ⟨x, hx, h1, h2, h3⟩ := hfol
    refine ⟨x, ?_, by rw [h1, hseq], by rw [h2, hts], h3⟩
    rw [size_set, get_set_ne (Follows.ne ⟨x, hx, h1, h2, h3⟩ hp).symm]
    exact hx
  · rw [get_set_ne hij] at hy
    obtain ⟨x, hx, h1, h2, h3⟩ := h j y hy hc hf
    by_cases hprev : i = prevIndex s.size j
    · rw [← hprev, hp] at hx
      cases hx
      refine ⟨p', ?_, by rw [hseq, h1], by rw [hts, h2], hcont h3⟩
      rw [size_set, ← hprev, get_set_self hi]
    · refine ⟨x, ?_, h1, h2, h3⟩
      rw [size_set, get_set_ne hprev]
      exact hx

/-! ## Timestamps that can be trusted -/

/-- A collection of packets looks like a stream of frames to a ring of `m` slots. -/
structure Regular (m : Nat) (stored : Packet → Prop) : Prop where
  /-- Packets with the timestamp of `e`, the last packet of an H264 frame, are in neighbouring
  slots only if their numbers are.  The walk from `e` does not come back to `e`, so what follows
  its slot does not matter: the frame may fill the ring. -/
  neighbours : ∀ e x y, stored e → stored x → stored y →
    e.videoHeader.isLastPacketInFrame = true → e.videoHeader.codecType = .h264 →
    x.timestamp = e.timestamp → y.timestamp = e.timestamp → x.seqNum ≠ e.seqNum →
    (x.seqNum + 1).toNat % m = y.seqNum.toNat % m → y.seqNum = x.seqNum + 1
  /-- After the last packet of a frame a frame begins, unless the timestamp changes. -/
  ends : ∀ x y, stored x → stored y → x.timestamp = y.timestamp → y.seqNum = x.seqNum + 1 →
    x.videoHeader.isLastPacketInFrame = true → y.videoHeader.isFirstPacketInFrame = true
  /-- Some number is not stored. -/
  absent : ∃ q : U16, ∀ x, stored x → x.seqNum ≠ q

/-- A packet is in the buffer. -/
def Holds (s : PacketBuffer) (p : Packet) : Prop := some p ∈ s.packetBuffer

theorem holds_of_get (h : s.get i = some p) : s.Holds p := mem_iff_slot.2 ⟨i, h⟩

theorem Packet.eq_of_content {x y : Packet} (h : x.content = y.content) :
    x.seqNum = y.seqNum ∧ x.timestamp = y.timestamp ∧ x.videoPayload = y.videoPayload ∧
      x.videoHeader.isFirstPacketInFrame = y.videoHeader.isFirstPacketInFrame ∧
      x.videoHeader.isLastPacketInFrame = y.videoHeader.isLastPacketInFrame ∧
      x.videoHeader.codecType = y.videoHeader.codecType := by
  have h1 := congrArg Packet.timestamp h
  have h2 := congrArg Packet.videoPayload h
  have h3 := congrArg (fun x : Packet => x.videoHeader.isFirstPacketInFrame) h
  have h4 := congrArg (fun x : Packet => x.videoHeader.isLastPacketInFrame) h
  have h5 := congrArg (fun x : Packet => x.videoHeader.codecType) h
  exact ⟨Packet.seqNum_eq_of_content h, h1, h2, h3, h4, h5⟩

theorem Regular.of_content {m n : Nat} {A B : Packet → Prop} (h : Regular m A) (hmn : m ∣ n)
    (hB : ∀ y, B y → ∃ x, A x ∧ y.content = x.content) : Regular n B where
  neighbours e x y he hx hy hlast hcodec hxe hye hne hmod := by
    obtain ⟨e', he', hee⟩ := hB e he
    obtain ⟨x', hx', hxx⟩ := hB x hx
    obtain ⟨y', hy', hyy⟩ := hB y hy
    obtain ⟨h1, h2, -⟩ := Packet.eq_of_content hxx
    obtain ⟨h3, h4, -⟩ := Packet.eq_of_content hyy
    obtain ⟨h5, h6, -, -, h7, h8⟩ := Packet.eq_of_content hee
    rw [h1, h3]
    apply h.neighbours e' x' y' he' hx' hy' (h7 ▸ hlast) (h8 ▸ hcodec) (by rw [← h2, ← h6, hxe])
      (by rw [← h4, ← h6, hye]) (by rwa [← h1, ← h5])
    rw [← h1, ← h3]
    exact Nat.ModEq.of_dvd hmn hmod
  ends x y hx hy hts hseq hlast := by
    obtain ⟨x', hx', hxx⟩ := hB x hx
    obtain ⟨y', hy', hyy⟩ := hB y hy
    obtain ⟨h1, h2, -, -, h5, -⟩ := Packet.eq_of_content hxx
    obtain ⟨h3, h4, -, h6, -⟩ := Packet.eq_of_content hyy
    rw [h6]
    exact h.ends x' y' hx' hy' (by rw [← h2, ← h4, hts]) (by rw [← h1, ← h3, hseq]) (h5 ▸ hlast)
  absent := by
    obtain ⟨q, hq⟩ := h.absent
    refine ⟨q, ?_⟩
    intro y hy heq
    obtain ⟨x, hx, hyx⟩ := hB y hy
    exact hq x hx ((Packet.seqNum_eq_of_content hyx).symm.trans heq)

theorem Regular.of_accounts {m : Nat} (h : Regular m s.Holds) {a : List Packet}
    (hacc : Accounts s.packetBuffer s'.packetBuffer a) : Regular m s'.Holds := by
  refine h.of_content (Nat.dvd_refl m) ?_
  intro y hy
  obtain ⟨i, hi⟩ := mem_iff_slot.1 hy
  obtain ⟨x, hx, hyx⟩ := hacc.stored i y hi
  exact ⟨x, mem_iff_slot.2 ⟨i, hx⟩, hyx⟩

/-! ## Stretches of packets -/

/-- The `n` numbers from `q` on are stored in their slots, with one timestamp. -/
def Stretch (s : PacketBuffer) (ts : U32) (q : U16) (n : Nat) : Prop :=
  ∀ k, k < n → ∃ p, s.get (s.indexOf (q + BitVec.ofNat 16 k)) = some p ∧
    p.seqNum = q + BitVec.ofNat 16 k ∧ p.timestamp = ts

/-- The packets in the slots of the `n` numbers from `q` on. -/
def packetsFrom (s : PacketBuffer) : U16 → Nat → List Packet
  | _, 0 => []
  | q, n + 1 => (s.get (s.indexOf q)).toList ++ packetsFrom s (q + 1) n

theorem succ_add_ofNat (q : U16) (k : Nat) :
    q + 1 + BitVec.ofNat 16 k = q + BitVec.ofNat 16 (k + 1) := by
  rw [BitVec.ofNat_add, BitVec.add_assoc]
  congr 1
  exact BitVec.add_comm _ _

theorem packetsFrom_succ (s : PacketBuffer) (q : U16) (n : Nat) :
    s.packetsFrom q (n + 1) =
      s.packetsFrom q n ++ (s.get (s.indexOf (q + BitVec.ofNat 16 n))).toList := by
  induction n generalizing q with
  | zero => simp [packetsFrom]
  | succ n ih =>
    rw [packetsFrom, ih, packetsFrom, List.append_assoc, succ_add_ofNat]

variable {ts : U32}

theorem Stretch.snoc (h : s.Stretch ts q n) {x : U16}
    (hx : x = q + BitVec.ofNat 16 n) (hp : s.get (s.indexOf x) = some p) (hseq : p.seqNum = x)
    (hts : p.timestamp = ts) : s.Stretch ts q (n + 1) := by
  intro k hk
  rcases Nat.lt_succ_iff_lt_or_eq.1 hk with hlt | rfl
  · exact h k hlt
  · subst hx
    exact ⟨p, hp, hseq, hts⟩

theorem Stretch.tail (h : s.Stretch ts q (n + 1)) : s.Stretch ts (q + 1) n := by
  intro k hk
  rw [succ_add_ofNat]
  exact h (k + 1) (by omega)

theorem Stretch.head (h : s.Stretch ts q (n + 1)) :
    ∃ p, s.get (s.indexOf q) = some p ∧ p.seqNum = q ∧ p.timestamp = ts := by
  have := h 0 (by omega)
  simpa using this

theorem Stretch.lt {n m : Nat} (h : s.Stretch ts q n) (hreg : Regular m s.Holds) :
    n < 65536 := by
  by_contra hn
  obtain ⟨x, hx⟩ := hreg.absent
  obtain ⟨p, hp, hseq, -⟩ := h (x - q).toNat (by have := (x - q).isLt; omega)
  apply hx p (holds_of_get hp)
  rw [hseq, BitVec.ofNat_toNat, BitVec.setWidth_eq]
  bv_omega

/-- The sizes of the payloads add up. -/
def payloadSize (ps : List Packet) : Nat := (ps.map fun p => p.videoPayload.length).sum

theorem payloadSize_append (a b : List Packet) :
    payloadSize (a ++ b) = payloadSize a + payloadSize b := by
  simp [payloadSize]

theorem length_flatMap_videoPayload (ps : List Packet) :
    (ps.flatMap Packet.videoPayload).length = payloadSize ps := by
  rw [List.length_flatMap]
  rfl

/-! ## The walk backward -/

/-- What a walk backward from `q` has found when it stops: a stretch that ends with `q`
and nothing in the visited slots but the expected packets. -/
structure Found (s : PacketBuffer) (ts : U32) (q : U16) (w w' : Walk) : Prop where
  start : ∃ k, w'.seqNumStart = q - BitVec.ofNat 16 k ∧ s.Stretch ts w'.seqNumStart (k + 1) ∧
    w'.frameSize = w.frameSize + payloadSize (s.packetsFrom w'.seqNumStart (k + 1))
  visited : ∀ v ∈ w'.visited, v ∈ w.visited ∨
    (v.2.seqNum = v.1 ∧ v.2.timestamp = ts ∧ s.get (s.indexOf v.1) = some v.2)

theorem Walk.inspect_eq_some {w w' : Walk} (h : w.inspect s p = .ok (some w')) :
    w'.seqNumStart = w.seqNumStart ∧ w'.frameSize = w.frameSize ∧ w'.visited = w.visited := by
  unfold Walk.inspect at h
  split at h
  · cases h
  · split at h
    · cases h
    · dsimp only at h
      split at h <;> cases h <;> exact ⟨rfl, rfl, rfl⟩

variable {w : Walk}

theorem Walk.inspect_eq_error {f : Fault} (h : w.inspect s p = .error f) :
    f = .badVariantAccess := by
  unfold Walk.inspect at h
  split at h
  · cases h
    rfl
  · split at h
    · cases h
    · dsimp only at h
      split at h <;> cases h

variable {isH264 : Bool}

theorem Walk.step_eq_some {w w' : Walk} (h : w.step isH264 s p = .ok (some w')) :
    w'.seqNumStart = w.seqNumStart ∧ w'.frameSize = (w.visit p).frameSize ∧
      w'.visited = (w.visit p).visited := by
  cases isH264 with
  | false =>
    cases h
    exact ⟨rfl, rfl, rfl⟩
  | true => exact inspect_eq_some h

theorem Walk.step_eq_error {f : Fault} (h : w.step isH264 s p = .error f) :
    f = .badVariantAccess := by
  cases isH264 with
  | false => cases h
  | true => exact inspect_eq_error h

theorem found_here {w w' : Walk} (hp : s.get (s.indexOf q) = some p) (hseq : p.seqNum = q)
    (hts : p.timestamp = ts) (hw : w.seqNumStart = q)
    (h : w'.seqNumStart = w.seqNumStart ∧ w'.frameSize = (w.visit p).frameSize ∧
      w'.visited = (w.visit p).visited) : s.Found ts q w w' where
  start := by
    refine ⟨0, by simp [h.1, hw], ?_, ?_⟩
    · rw [h.1, hw]
      intro k hk
      obtain rfl : k = 0 := by omega
      exact ⟨p, by simpa using hp, by simpa using hseq, hts⟩
    · rw [h.1, hw, h.2.1]
      simp [Walk.visit, packetsFrom, hp, payloadSize]
  visited := by
    intro v hv
    rw [h.2.2, Walk.visit] at hv
    rcases List.mem_append.1 hv with hv | hv
    · exact Or.inl hv
    · rw [List.mem_singleton.1 hv, hw]
      exact Or.inr ⟨hseq, hts, hp⟩

theorem Found.back {w w₁ w' : Walk} (hp : s.get (s.indexOf q) = some p)
    (hseq : p.seqNum = q) (hts : p.timestamp = ts) (hw : w.seqNumStart = q)
    (hsize : w₁.frameSize = (w.visit p).frameSize) (hvis : w₁.visited = (w.visit p).visited)
    (h : s.Found ts (q - 1) w₁ w') : s.Found ts q w w' where
  start := by
    obtain ⟨k, h1, h2, h3⟩ := h.start
    have hq : q = w'.seqNumStart + BitVec.ofNat 16 (k + 1) := by
      rw [h1, BitVec.ofNat_add]
      bv_omega
    refine ⟨k + 1, ?_, h2.snoc hq hp hseq hts, ?_⟩
    · rw [BitVec.ofNat_add, h1]
      bv_omega
    · rw [h3, hsize, packetsFrom_succ s w'.seqNumStart (k + 1), ← hq, hp, payloadSize_append]
      simp [Walk.visit, payloadSize]
      omega
  visited := by
    intro v hv
    rcases h.visited v hv with hv | hv
    · rw [hvis, Walk.visit] at hv
      rcases List.mem_append.1 hv with hv | hv
      · exact Or.inl hv
      · rw [List.mem_singleton.1 hv, hw]
        exact Or.inr ⟨hseq, hts, hp⟩
    · exact Or.inr hv

/-- A walk begins at packet `e`, the last one of a frame. -/
structure Begins (s : PacketBuffer) (isH264 : Bool) (ts : U32) (e : Packet) : Prop where
  holds : s.Holds e
  last : e.videoHeader.isLastPacketInFrame = true
  codec : isH264 = true → e.videoHeader.codecType = .h264
  timestamp : e.timestamp = ts

theorem Ring.pred (h : Ring s) (hch : s.Chained) (hreg : Regular s.size s.Holds)
    {e : Packet} (he : s.Begins isH264 ts e) (hk : k + 1 < s.size)
    (hback : q = e.seqNum - BitVec.ofNat 16 k)
    (hp : s.get (s.indexOf q) = some p) (hseq : p.seqNum = q) (hts : p.timestamp = ts)
    (hmark : isH264 = false → p.continuous = true)
    (hfirst : isH264 = false → p.videoHeader.isFirstPacketInFrame = false) :
    match s.get (prevIndex s.size (s.indexOf q)) with
    | none => isH264 = true
    | some x => (isH264 = true ∧ x.timestamp ≠ ts) ∨
      (x.seqNum = q - 1 ∧ x.timestamp = ts ∧ prevIndex s.size (s.indexOf q) = s.indexOf (q - 1) ∧
        (isH264 = false → x.continuous = true)) := by
  cases isH264 with
  | false =>
    obtain ⟨x, hx, h1, h2, h3⟩ := hch _ p hp (hmark rfl) (hfirst rfl)
    rw [hx]
    refine Or.inr ⟨by rw [h1, hseq], by rw [h2, hts], ?_, fun _ => h3⟩
    rw [h.placed _ x hx, Packet.key, h1, hseq]
    rfl
  | true =>
    cases hx : s.get (prevIndex s.size (s.indexOf q)) with
    | none => rfl
    | some x =>
      by_cases hxt : x.timestamp = ts
      · have hhome : prevIndex s.size (s.indexOf q) = s.indexOf x.seqNum := h.placed _ x hx
        have hnear : s.indexOf (x.seqNum + 1) = s.indexOf q :=
          indexOf_succ_of_prevIndex h.size hhome
        have hnext : q = x.seqNum + 1 := by
          by_cases hxe : x.seqNum = e.seqNum
          · rw [hxe, hback] at hnear
            rw [hxe, hback]
            exact (eq_back_of_indexOf h.size hk hnear).symm
          · rw [← hseq]
            exact hreg.neighbours e x p he.holds (holds_of_get hx) (holds_of_get hp) he.last
              (he.codec rfl) (hxt.trans he.timestamp.symm) (hts.trans he.timestamp.symm) hxe
              (by rw [hseq]; exact hnear)
        have hxq : x.seqNum = q - 1 := by
          rw [hnext]
          bv_omega
        exact Or.inr ⟨hxq, hxt, hxq ▸ hhome, by simp⟩
      · exact Or.inl ⟨rfl, hxt⟩

/-- What a walk from `q` may end with. -/
def WalkSound (s : PacketBuffer) (ts : U32) (q : U16) (w : Walk) : Except Fault (Walk × Bool) → Prop
  | .error f => f = .badVariantAccess
  | .ok r => s.Found ts q w r.1

theorem Ring.walkBack_spec (h : Ring s) (hch : s.Chained) (hreg : Regular s.size s.Holds)
    {fuel : Nat} {e : Packet} (he : s.Begins isH264 ts e)
    (hk : k + fuel < s.size) (hback : q = e.seqNum - BitVec.ofNat 16 k)
    (hp : s.get (s.indexOf q) = some p)
    (hseq : p.seqNum = q) (hts : p.timestamp = ts) (hw : w.seqNumStart = q)
    (hmark : isH264 = false → p.continuous = true) :
    s.WalkSound ts q w (s.walkBack isH264 ts fuel (s.indexOf q) p w) := by
  induction fuel generalizing q p w k with
  | zero =>
    exact walkBack_cases (fun _ _ => found_here hp hseq hts hw ⟨rfl, rfl, rfl⟩)
      (fun _ => Walk.step_eq_error) (fun _ => found_here hp hseq hts hw ⟨rfl, rfl, rfl⟩)
      fun _ hstep _ => found_here hp hseq hts hw (Walk.step_eq_some hstep)
  | succ fuel ih =>
    refine walkBack_cases (fun _ _ => found_here hp hseq hts hw ⟨rfl, rfl, rfl⟩)
      (fun _ => Walk.step_eq_error) (fun _ => found_here hp hseq hts hw ⟨rfl, rfl, rfl⟩)
      fun w₁ hstep hfirst => ?_
    obtain ⟨h1, h2, h3⟩ := Walk.step_eq_some hstep
    have hpred := h.pred hch hreg he (by omega) hback hp hseq hts hmark hfirst
    unfold walkOn
    cases hx : s.get (prevIndex s.size (s.indexOf q)) with
    | none =>
      rw [hx] at hpred
      simp only [if_pos (show isH264 = true from hpred)]
      exact found_here hp hseq hts hw ⟨h1, h2, h3⟩
    | some x =>
      rw [hx] at hpred
      dsimp only
      rcases hpred with ⟨h4, h5⟩ | ⟨h4, h5, h6, h7⟩
      · rw [if_pos (by simp [h4, h5])]
        exact found_here hp hseq hts hw ⟨h1, h2, h3⟩
      · rw [if_neg (by simp [h5]), h6]
        rw [h6] at hx
        have hback' : q - 1 = e.seqNum - BitVec.ofNat 16 (k + 1) := by
          rw [hback, BitVec.ofNat_add]
          bv_omega
        have hrest := ih (w := { w₁ with seqNumStart := w₁.seqNumStart - 1 }) (k :=
          k + 1) (by omega)
          hback' hx h4 h5 (by rw [h1, hw]) h7
        cases hwalk : s.walkBack isH264 ts fuel (s.indexOf (q - 1)) x
            { w₁ with seqNumStart := w₁.seqNumStart - 1 } with
        | error f =>
          rw [hwalk] at hrest
          exact hrest
        | ok r =>
          rw [hwalk] at hrest
          have hback : s.Found ts (q - 1) { w₁ with seqNumStart := w₁.seqNumStart - 1 } r.1 := hrest
          exact Found.back hp hseq hts hw (by exact h2) (by exact h3) hback

/-! ## Taking the packets of a frame -/

theorem packetsFrom_congr (h : ∀ k, k < n → s'.get (s'.indexOf (q + BitVec.ofNat 16 k)) =
      s.get (s.indexOf (q + BitVec.ofNat 16 k))) : s'.packetsFrom q n = s.packetsFrom q n := by
  induction n with
  | zero => rfl
  | succ n ih =>
    rw [packetsFrom_succ, packetsFrom_succ, ih fun k hk => h k (by omega), h n (by omega)]

theorem Stretch.map_seqNum (h : s.Stretch ts q n) :
    (s.packetsFrom q n).map Packet.seqNum = (List.range n).map fun k => q + BitVec.ofNat 16 k := by
  induction n with
  | zero => rfl
  | succ n ih =>
    obtain ⟨p, hp, hseq, -⟩ := h n (by omega)
    rw [packetsFrom_succ, hp, List.map_append, ih fun k hk => h k (by omega), List.range_succ,
      List.map_append]
    simp [hseq]

theorem Stretch.timestamps (h : s.Stretch ts q n) :
    ∀ p ∈ s.packetsFrom q n, p.timestamp = ts := by
  induction n with
  | zero => simp [packetsFrom]
  | succ n ih =>
    intro p hp
    obtain ⟨x, hx, -, hts⟩ := h n (by omega)
    rw [packetsFrom_succ, hx] at hp
    rcases List.mem_append.1 hp with hp | hp
    · exact ih (fun k hk => h k (by omega)) p hp
    · obtain rfl : p = x := by simpa using hp
      exact hts

theorem ofNat_ne_zero (h0 : 0 < k) (hk : k < 65536) (q : U16) : q + BitVec.ofNat 16 k ≠ q := by
  intro h
  have hz : BitVec.ofNat 16 k = 0 := by bv_omega
  have := congrArg BitVec.toNat hz
  rw [BitVec.toNat_ofNat, Nat.mod_eq_of_lt hk] at this
  simp at this
  omega

/-- **The assembly meets the packets it expects**: it takes a stretch out of the buffer
and leaves all other packets. -/
theorem Ring.takePackets_run (h : Ring s) (hst : s.Stretch ts q n) (hn : n < 65536) :
    ∃ s', takePackets n q s = .ok (s', s.packetsFrom q n) ∧
      ∀ i p, s'.get i = some p ↔
        s.get i = some p ∧ ∀ k, k < n → p.seqNum ≠ q + BitVec.ofNat 16 k := by
  induction n generalizing q s with
  | zero => exact ⟨s, rfl, by simp⟩
  | succ n ih =>
    obtain ⟨p, hp, hseq, -⟩ := hst.head
    have hother : ∀ i x, s.get i = some x → (s.indexOf q ≠ i ↔ x.seqNum ≠ q) := by
      intro i x hx
      rw [not_iff_not]
      constructor
      · rintro rfl
        rw [hp] at hx
        cases hx
        exact hseq
      · intro hxq
        have hi : i = s.indexOf x.seqNum := h.placed i x hx
        rw [hi, hxq]
    have hsame : ∀ k, k < n → (s.set (s.indexOf q) none).get
        ((s.set (s.indexOf q) none).indexOf (q + 1 + BitVec.ofNat 16 k)) =
          s.get (s.indexOf (q + 1 + BitVec.ofNat 16 k)) := by
      intro k hk
      obtain ⟨x, hx, hxseq, -⟩ := hst.tail k hk
      rw [indexOf_set, get_set_ne]
      rw [hother _ x hx, hxseq, succ_add_ofNat]
      exact ofNat_ne_zero (by omega) (by omega) q
    have hst' : (s.set (s.indexOf q) none).Stretch ts (q + 1) n := by
      intro k hk
      rw [hsame k hk]
      exact hst.tail k hk
    obtain ⟨s', htake, hiff⟩ := ih (h.set (by simp)) hst' (by omega)
    refine ⟨s', ?_, ?_⟩
    · rw [takePackets, hp]
      dsimp only
      rw [htake, packetsFrom_congr hsame, packetsFrom, hp]
      rfl
    · intro i x
      rw [hiff]
      constructor
      · rintro ⟨hx, hne⟩
        have hi : s.indexOf q ≠ i := by
          rintro rfl
          rw [get, packetBuffer_set, slot_set_none_self] at hx
          exact absurd hx (by simp)
        rw [get_set_ne hi] at hx
        refine ⟨hx, ?_⟩
        intro k hk
        cases k with
        | zero => simpa using (hother i x hx).1 hi
        | succ k =>
          rw [← succ_add_ofNat]
          exact hne k (by omega)
      · rintro ⟨hx, hne⟩
        have hi : s.indexOf q ≠ i := (hother i x hx).2 (by simpa using hne 0 (by omega))
        refine ⟨by rw [get_set_ne hi]; exact hx, ?_⟩
        intro k hk
        rw [succ_add_ofNat]
        exact hne (k + 1) (by omega)

/-- **A frame is intact**: its packets carry the consecutive numbers from its first to
its last and its timestamp, and its bitstream is their payloads. -/
structure Intact (f : AssembledFrame) : Prop where
  nonempty : 0 < f.numPackets
  seqNums : f.packets.map Packet.seqNum =
    (List.range f.numPackets).map fun k => f.seqNumStart + BitVec.ofNat 16 k
  ends : f.seqNumEnd = f.seqNumStart + BitVec.ofNat 16 (f.numPackets - 1)
  timestamps : ∀ p ∈ f.packets, p.timestamp = f.timestamp
  bitstream : f.bitstream = f.packets.flatMap Packet.videoPayload

theorem buildFrame_spec {ps : List Packet} (hn : 0 < n)
    (hseq : ps.map Packet.seqNum = (List.range n).map fun k => q + BitVec.ofNat 16 k)
    (hts : ∀ p ∈ ps, p.timestamp = ts) :
    (buildFrame n (payloadSize ps) ps).seqNumStart = q ∧
      (buildFrame n (payloadSize ps) ps).numPackets = n ∧
        Intact (buildFrame n (payloadSize ps) ps) := by
  obtain ⟨m, rfl⟩ : ∃ m, n = m + 1 := ⟨n - 1, by omega⟩
  have hlen : ps.length = m + 1 := by
    have := congrArg List.length hseq
    simpa using this
  obtain ⟨first, rest, rfl⟩ := List.exists_cons_of_length_eq_add_one hlen
  obtain ⟨last, hlast⟩ : ∃ x, (first :: rest).getLast? = some x := ⟨_, List.getLast?_cons⟩
  have hfirst : first.seqNum = q := by
    have := congrArg List.head? hseq
    simpa [List.head?_range] using this
  have hlastseq : last.seqNum = q + BitVec.ofNat 16 m := by
    have := congrArg List.getLast? hseq
    rw [List.getLast?_map, hlast, List.range_succ, List.map_append] at this
    simpa using this
  have hsize : (payloadSize (first :: rest)) - ((first :: rest).flatMap Packet.videoPayload).length = 0 := by
    rw [length_flatMap_videoPayload]
    omega
  unfold buildFrame
  simp only [hlast, List.head?_cons]
  refine ⟨hfirst, trivial, by simp, ?_, ?_, ?_, ?_⟩
  · rw [hfirst]
    exact hseq
  · rw [hfirst, hlastseq]
    simp
  · intro p hp
    rw [hts p hp, hts first List.mem_cons_self]
  · rw [hsize]
    simp

/-! ## A round of the assembly -/

theorem Accounts.get_same (hacc : Accounts s.packetBuffer s'.packetBuffer []) :
    (∀ p, s.get i = some p → ∃ x, s'.get i = some x ∧ x.content = p.content) ∧
      (s.get i = none → s'.get i = none) := by
  refine ⟨?_, ?_⟩
  · intro p hp
    rcases hacc.kept i p hp with hx | ⟨x, hx, -⟩
    · exact hx
    · exact absurd hx List.not_mem_nil
  · intro hn
    by_contra hne
    obtain ⟨x, hx⟩ := Option.ne_none_iff_exists'.1 hne
    obtain ⟨p, hp, -⟩ := hacc.stored i x hx
    have : s.get i = some p := hp
    rw [hn] at this
    exact absurd this (by simp)

theorem Accounts.indexOf_eq {a : List Packet} (hacc : Accounts s.packetBuffer s'.packetBuffer a)
    (q : U16) :
    s'.indexOf q = s.indexOf q := by
  unfold indexOf size
  rw [hacc.length]

theorem Stretch.of_accounts (h : s.Stretch ts q n)
    (hacc : Accounts s.packetBuffer s'.packetBuffer []) : s'.Stretch ts q n := by
  intro k hk
  obtain ⟨p, hp, h1, h2⟩ := h k hk
  obtain ⟨x, hx, hxp⟩ := (Accounts.get_same hacc).1 p hp
  obtain ⟨h3, h4, -⟩ := Packet.eq_of_content hxp
  refine ⟨x, ?_, h3.trans h1, h4.trans h2⟩
  rw [Accounts.indexOf_eq hacc]
  exact hx

theorem payloadSize_packetsFrom (hacc : Accounts s.packetBuffer s'.packetBuffer []) (q : U16)
    (n : Nat) :
    payloadSize (s'.packetsFrom q n) = payloadSize (s.packetsFrom q n) := by
  induction n generalizing q with
  | zero => rfl
  | succ n ih =>
    rw [packetsFrom, packetsFrom, payloadSize_append, payloadSize_append, ih,
      Accounts.indexOf_eq hacc]
    congr 1
    cases hp : s.get (s.indexOf q) with
    | none => rw [(Accounts.get_same hacc).2 hp]
    | some p =>
      obtain ⟨x, hx, hxp⟩ := (Accounts.get_same hacc).1 p hp
      obtain ⟨-, -, h3, -⟩ := Packet.eq_of_content hxp
      rw [hx]
      simp [payloadSize, h3]

theorem add_ofNat_succ (q : U16) (k : Nat) :
    q + BitVec.ofNat 16 (k + 1) = q + BitVec.ofNat 16 k + 1 := by
  rw [BitVec.ofNat_add, BitVec.add_assoc]
  rfl

theorem Chained.of_taken (h : Ring s) (hch : s.Chained) (hreg : Regular s.size s.Holds)
    (hlast : ∃ e, s.get (s.indexOf (q + BitVec.ofNat 16 n)) = some e ∧
      e.videoHeader.isLastPacketInFrame = true)
    (hsize : s'.size = s.size)
    (hs' : ∀ i p, s'.get i = some p ↔
      s.get i = some p ∧ ∀ k, k < n + 1 → p.seqNum ≠ q + BitVec.ofNat 16 k) : s'.Chained := by
  intro i p hp hc hf
  obtain ⟨hp', hne⟩ := (hs' i p).1 hp
  obtain ⟨x, hx, h1, h2, h3⟩ := hch i p hp' hc hf
  refine ⟨x, ?_, h1, h2, h3⟩
  rw [hsize, hs']
  refine ⟨hx, ?_⟩
  intro k hk hxk
  have hpx : p.seqNum = x.seqNum + 1 := by
    rw [h1]
    bv_omega
  rcases Nat.lt_succ_iff_lt_or_eq.1 hk with hlt | rfl
  · apply hne (k + 1) (by omega)
    rw [hpx, hxk, add_ofNat_succ]
  · -- `x` is the last packet of the frame, so `p` begins one
    obtain ⟨e, he, hlast⟩ := hlast
    have hxe := h.get_home hx
    rw [hxk, he] at hxe
    obtain rfl : e = x := Option.some.inj hxe
    have := hreg.ends e p (holds_of_get he) (holds_of_get hp') h2 hpx hlast
    rw [hf] at this
    exact absurd this (by simp)

theorem Ring.assembleFrame_sound (h : Ring s) (hch : s.Chained) (hreg : Regular s.size s.Holds)
    (hstart : w.seqNumStart = q - BitVec.ofNat 16 k)
    (hst : s.Stretch ts w.seqNumStart (k + 1))
    (hsize : w.frameSize = payloadSize (s.packetsFrom w.seqNumStart (k + 1)))
    (hlast : ∃ e, s.get (s.indexOf q) = some e ∧ e.videoHeader.isLastPacketInFrame = true) :
    ∃ s' f, s.assembleFrame q w = .ok (s', f) ∧ s'.Chained ∧ Intact f := by
  have hk := hst.lt hreg
  have hnum : (q + 1 - w.seqNumStart).toNat = k + 1 := by
    have hx : ∀ x : U16, q + 1 - (q - x) = x + 1 := by
      intro x
      bv_omega
    rw [hstart, hx, BitVec.toNat_add, BitVec.toNat_ofNat]
    simp
    omega
  obtain ⟨s₁, htake, hiff⟩ := h.takePackets_run hst hk
  have hqend : q = w.seqNumStart + BitVec.ofNat 16 k := by
    rw [hstart]
    bv_omega
  obtain ⟨-, hacc⟩ := takePackets_spec htake
  have hch₁ : s₁.Chained := by
    apply Chained.of_taken h hch hreg (n := k) _ hacc.length hiff
    rwa [← hqend]
  unfold assembleFrame
  simp only [hnum, htake]
  rw [if_neg (by rw [length_flatMap_videoPayload, hsize]; omega)]
  refine ⟨_, _, rfl, hch₁.congr rfl, ?_⟩
  rw [hsize]
  exact (buildFrame_spec (by omega) hst.map_seqNum hst.timestamps).2.2

/-- Every visited slot holds the packet that was expected there. -/
def VisitsExact (visits : List (U16 × Packet)) : Prop := ∀ v ∈ visits, v.2.seqNum = v.1

/-- What a round may end with. -/
def RoundSound : Except Fault Round → Prop
  | .error f => f = .badVariantAccess
  | .ok (.stop s visits) => s.Chained ∧ VisitsExact visits
  | .ok (.next s frame visits) => s.Chained ∧ VisitsExact visits ∧ ∀ f ∈ frame, Intact f

theorem classify_seqNum (w : Walk) (p : Packet) : (w.classify p).seqNum = p.seqNum := by
  unfold Walk.classify
  split <;> rfl

theorem classify_timestamp (w : Walk) (p : Packet) : (w.classify p).timestamp = p.timestamp := by
  unfold Walk.classify
  split <;> rfl

theorem classify_continuous (w : Walk) (p : Packet) : (w.classify p).continuous = p.continuous := by
  unfold Walk.classify
  split <;> rfl

theorem classify_isFirst (w : Walk) (p : Packet) :
    (w.classify p).videoHeader.isFirstPacketInFrame = p.videoHeader.isFirstPacketInFrame :=
  (Packet.eq_of_content (w.content_classify p)).2.2.2.1

theorem Ring.finishFrame_sound (h : Ring s) (hch : s.Chained) (hreg : Regular s.size s.Holds)
    (hstart : w.seqNumStart = q - BitVec.ofNat 16 k)
    (hst : s.Stretch ts w.seqNumStart (k + 1))
    (hsize : w.frameSize = payloadSize (s.packetsFrom w.seqNumStart (k + 1)))
    (hlast : ∃ e, s.get (s.indexOf q) = some e ∧ e.videoHeader.isLastPacketInFrame = true)
    (hvis : VisitsExact w.visited) : RoundSound (s.finishFrame isH264 q w) := by
  unfold finishFrame
  dsimp only
  cases isH264 with
  | false =>
    obtain ⟨s', f, hf, hch', hint⟩ := h.assembleFrame_sound hch hreg hstart hst hsize hlast
    rw [if_neg (by simp), hf]
    exact ⟨hch', hvis, by simpa using hint⟩
  | true =>
    obtain ⟨first, hfirst, -⟩ := hst.head
    rw [if_pos rfl, hfirst]
    dsimp only
    have hacc : Accounts s.packetBuffer
        (s.set (s.indexOf w.seqNumStart) (some (w.classify first))).packetBuffer [] :=
      Accounts.mark hfirst (w.content_classify first)
    have hmax : (s.set (s.indexOf w.seqNumStart) (some (w.classify first))).maxPacketBufferSize =
        s.maxPacketBufferSize := rfl
    have hch' := hch.rewrite hfirst (classify_seqNum w first) (classify_timestamp w first)
      (fun hc => by rwa [classify_continuous])
      (fun hc hf => hch _ first hfirst (by rwa [classify_continuous] at hc)
        (by rwa [classify_isFirst] at hf))
    have hindex : (s.set (s.indexOf w.seqNumStart) (some (w.classify first))).indexOf q =
      s.indexOf q :=
      indexOf_set ..
    generalize s.set (s.indexOf w.seqNumStart) (some (w.classify first)) = s₁ at *
    split
    · exact ⟨hch', hvis⟩
    · have hlast' : ∃ e, s₁.get (s₁.indexOf q) = some e ∧
          e.videoHeader.isLastPacketInFrame = true := by
        obtain ⟨e, he, hl⟩ := hlast
        obtain ⟨x, hx, hxe⟩ := (Accounts.get_same hacc).1 e he
        rw [hindex]
        exact ⟨x, hx, by rw [(Packet.eq_of_content hxe).2.2.2.2.1]; exact hl⟩
      have hreg' : Regular s₁.size s₁.Holds := by
        have hsize : s₁.size = s.size := hacc.length
        rw [hsize]
        exact hreg.of_accounts hacc
      obtain ⟨s', f, hf, hch'', hint⟩ := (h.of_accounts hmax hacc).assembleFrame_sound hch' hreg'
        hstart (hst.of_accounts hacc) (by rw [payloadSize_packetsFrom hacc]; exact hsize) hlast'
      rw [hf]
      exact ⟨hch'', hvis, by simpa using hint⟩

theorem chained_marked (hch : s.Chained) (hp : s.get (s.indexOf q) = some p)
    (hcont : s.isContinuous q = true) : (s.marked q p).Chained := by
  apply hch.rewrite hp
  · rfl
  · rfl
  · intro _
    rfl
  · intro _ hf
    obtain ⟨x, hx, -, hor⟩ := isContinuous_iff.1 hcont
    rw [hp] at hx
    cases hx
    rcases hor with h1 | ⟨-, h2⟩
    · change p.videoHeader.isFirstPacketInFrame = false at hf
      rw [hf] at h1
      exact absurd h1 (by simp)
    · exact h2

theorem Ring.assembleRound_sound (h : Ring s) (hch : s.Chained) (hreg : Regular s.size s.Holds)
    (hp : s.get (s.indexOf q) = some p) (hcont : s.isContinuous q = true) :
    RoundSound (s.assembleRound q p) := by
  have hseq : p.seqNum = q := by
    obtain ⟨x, hx, hxq, -⟩ := isContinuous_iff.1 hcont
    rw [hp] at hx
    cases hx
    exact hxq
  have hacc := accounts_marked hp
  have hring : Ring (s.marked q p) := h.of_accounts rfl hacc
  have hchain := chained_marked hch hp hcont
  have hreg' : Regular (s.marked q p).size (s.marked q p).Holds := by
    rw [marked, size_set]
    exact hreg.of_accounts hacc
  have hindex : (s.marked q p).indexOf q = s.indexOf q := indexOf_set ..
  have hsize : (s.marked q p).size = s.size := size_set ..
  have hget : (s.marked q p).get ((s.marked q p).indexOf q) =
    some { p with continuous := true } := by
    rw [hindex]
    exact get_set_self (lt_of_slot_eq_some hp) _
  have hpos := h.size.pos
  have hwalk (hlast : p.videoHeader.isLastPacketInFrame = true) :
      (s.marked q p).WalkSound p.timestamp q { seqNumStart := q }
      ((s.marked q p).walkBack (p.videoHeader.codecType == .h264) p.timestamp (s.size - 1)
        ((s.marked q p).indexOf q) { p with continuous := true } { seqNumStart := q }) :=
    hring.walkBack_spec hchain hreg' (k := 0) ⟨holds_of_get hget, hlast, by simp, rfl⟩
      (by omega) (by simp [hseq]) hget hseq rfl rfl fun _ => rfl
  unfold assembleRound
  simp only [size_set, indexOf_set]
  split
  · rename_i hlast
    replace hwalk := hwalk hlast
    rw [hindex] at hwalk
    change RoundSound (s.ended q p (s.walkFrom q p))
    change WalkSound _ _ _ _ (s.walkFrom q p) at hwalk
    cases hw : s.walkFrom q p with
    | error f =>
      rw [hw] at hwalk
      exact hwalk
    | ok r =>
      rw [hw] at hwalk
      obtain ⟨w, found⟩ := r
      obtain ⟨k, hstart, hst, hsz⟩ := hwalk.start
      have hvis : VisitsExact w.visited := by
        intro v hv
        rcases hwalk.visited v hv with hv | hv
        · exact absurd hv List.not_mem_nil
        · exact hv.1
      cases found with
      | false => exact ⟨hchain, hvis⟩
      | true =>
        refine hring.finishFrame_sound hchain hreg' hstart hst ?_ ⟨_, hget, hlast⟩ hvis
        rw [hsz]
        exact Nat.zero_add _
  · exact ⟨hchain, by simp [VisitsExact], by simp⟩

/-- What a whole assembly may end with. -/
def LoopSound : Except Fault (PacketBuffer × InsertResult) → Prop
  | .error f => f = .badVariantAccess
  | .ok (s, r) => s.Chained ∧ VisitsExact r.visits ∧ ∀ f ∈ r.assembledFrames, Intact f

theorem Ring.assembleLoop_sound (h : Ring s) (hch : s.Chained) (hreg : Regular s.size s.Holds)
    (n : Nat) (q : U16) : LoopSound (assembleLoop n q s) := by
  induction n generalizing s q with
  | zero => exact ⟨hch, by simp [VisitsExact], by simp⟩
  | succ n ih =>
    rw [assembleLoop]
    cases hcont : s.isContinuous q with
    | false =>
      rw [if_pos (by simp)]
      exact ⟨hch, by simp [VisitsExact], by simp⟩
    | true =>
      rw [if_neg (by simp)]
      obtain ⟨p, hp, -⟩ := isContinuous_iff.1 hcont
      simp only [hp]
      have hround := h.assembleRound_sound hch hreg hp hcont
      cases hr : s.assembleRound q p with
      | error f =>
        rw [hr] at hround
        exact hround
      | ok round =>
        rw [hr] at hround
        obtain ⟨hmax, hacc⟩ := accounts_assembleRound hp hr
        cases round with
        | stop s₁ v => exact ⟨hround.1, hround.2, by simp⟩
        | next s₁ f v =>
          obtain ⟨hch₁, hv, hf⟩ := hround
          have hreg₁ : Regular s₁.size s₁.Holds := by
            have hsize : s₁.size = s.size := hacc.length
            rw [hsize]
            exact hreg.of_accounts hacc
          have hrest : LoopSound (assembleLoop n (q + 1) s₁) :=
            ih (h.of_accounts hmax hacc) hch₁ hreg₁ (q + 1)
          dsimp only
          cases hl : assembleLoop n (q + 1) s₁ with
          | error g =>
            rw [hl] at hrest
            exact hrest
          | ok x =>
            rw [hl] at hrest
            obtain ⟨hch₂, hv₂, hf₂⟩ := hrest
            refine ⟨hch₂, ?_, ?_⟩
            · intro y hy
              rcases List.mem_append.1 hy with hy | hy
              · exact hv y hy
              · exact hv₂ y hy
            · intro g hg
              rcases List.mem_append.1 hg with hg | hg
              · exact hf g (Option.mem_toList.1 hg)
              · exact hf₂ g hg

end PacketBuffer
end NaiveRtc.Jitter
