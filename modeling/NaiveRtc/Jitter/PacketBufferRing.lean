import NaiveRtc.Jitter.PacketBuffer

/-!
# The ring of packets

What the calls of the packet buffer do to the slots, and the invariant all reachable
buffers share.

* `Packet.content` — a packet less the fields the buffer itself writes.
* `Accounts` — between two rings every packet is still in its slot or was taken out,
  and nothing else appeared; `accounts_assembleLoop` for a whole assembly.
* `assembleFrame_cases`, `finishFrame_cases`, `assembleRound_cases` — all a round of the
  assembly can do.
* `Ring` — the numbers of slots are powers of two and every packet is at home;
  `ring_reached` for every run.
-/

namespace NaiveRtc.Jitter

open WrapAround SlotTable

/-- The packet as it came in: without the mark of continuity and the frame type and
resolution, which the assembly writes. -/
def Packet.content (p : Packet) : Packet :=
  { p with
    continuous := false
    videoHeader := { p.videoHeader with frameType := .empty, frameWidth := 0, frameHeight := 0 } }

theorem Packet.seqNum_eq_of_content {p q : Packet} (h : q.content = p.content) :
    q.seqNum = p.seqNum := by
  have := congrArg Packet.seqNum h
  exact this

theorem Packet.key_eq_of_content {p q : Packet} (h : q.content = p.content) : q.key = p.key :=
  congrArg BitVec.toNat (seqNum_eq_of_content h)

theorem PacketBuffer.Walk.content_classify (w : PacketBuffer.Walk) (p : Packet) :
    (w.classify p).content = p.content := by
  unfold PacketBuffer.Walk.classify
  split
  · split <;> rfl
  · rfl

/-! ## Accounting for packets -/

/-- From ring `t` to ring `t'` the packets in `taken` were taken out: each packet is
still in its slot with its content or is among the taken ones, and no packet is new. -/
structure Accounts (t t' : List (Option Packet)) (taken : List Packet) : Prop where
  length : t'.length = t.length
  kept : ∀ i p, slot t i = some p →
    (∃ q, slot t' i = some q ∧ q.content = p.content) ∨ ∃ q ∈ taken, q.content = p.content
  stored : ∀ i q, slot t' i = some q → ∃ p, slot t i = some p ∧ q.content = p.content
  taken : ∀ q ∈ taken, ∃ i p, slot t i = some p ∧ q.content = p.content

namespace Accounts

variable {t t' t'' : List (Option Packet)} {i : Nat} {p q : Packet}

theorem refl (t : List (Option Packet)) : Accounts t t [] where
  length := rfl
  kept _ p hp := Or.inl ⟨p, hp, rfl⟩
  stored _ q hq := ⟨q, hq, rfl⟩
  taken _ hq := absurd hq List.not_mem_nil

theorem trans {a b : List Packet} (h : Accounts t t' a) (h' : Accounts t' t'' b) :
    Accounts t t'' (a ++ b) where
  length := h'.length.trans h.length
  kept i p hp := by
    rcases h.kept i p hp with ⟨q, hq, hqp⟩ | ⟨q, hq, hqp⟩
    · rcases h'.kept i q hq with ⟨x, hx, hxq⟩ | ⟨x, hx, hxq⟩
      · exact Or.inl ⟨x, hx, hxq.trans hqp⟩
      · exact Or.inr ⟨x, List.mem_append_right _ hx, hxq.trans hqp⟩
    · exact Or.inr ⟨q, List.mem_append_left _ hq, hqp⟩
  stored i x hx := by
    obtain ⟨q, hq, hxq⟩ := h'.stored i x hx
    obtain ⟨p, hp, hqp⟩ := h.stored i q hq
    exact ⟨p, hp, hxq.trans hqp⟩
  taken x hx := by
    rcases List.mem_append.1 hx with ha | hb
    · exact h.taken x ha
    · obtain ⟨i, q, hq, hxq⟩ := h'.taken x hb
      obtain ⟨p, hp, hqp⟩ := h.stored i q hq
      exact ⟨i, p, hp, hxq.trans hqp⟩

theorem mark (hp : slot t i = some p) (hq : q.content = p.content) :
    Accounts t (t.set i (some q)) [] where
  length := List.length_set ..
  kept j x hx := by
    refine Or.inl ?_
    by_cases hij : i = j
    · subst hij
      rw [hp] at hx
      cases hx
      exact ⟨q, slot_set_self (lt_of_slot_eq_some hp) _, hq⟩
    · exact ⟨x, by rw [slot_set_ne hij]; exact hx, rfl⟩
  stored j x hx := by
    by_cases hij : i = j
    · subst hij
      rw [slot_set_self (lt_of_slot_eq_some hp)] at hx
      cases hx
      exact ⟨p, hp, hq⟩
    · rw [slot_set_ne hij] at hx
      exact ⟨x, hx, rfl⟩
  taken _ hx := absurd hx List.not_mem_nil

theorem take (hp : slot t i = some p) : Accounts t (t.set i none) [p] where
  length := List.length_set ..
  kept j x hx := by
    by_cases hij : i = j
    · subst hij
      rw [hp] at hx
      cases hx
      exact Or.inr ⟨p, List.mem_singleton_self p, rfl⟩
    · exact Or.inl ⟨x, by rw [slot_set_ne hij]; exact hx, rfl⟩
  stored j x hx := by
    by_cases hij : i = j
    · subst hij
      rw [slot_set_none_self] at hx
      exact absurd hx (by simp)
    · rw [slot_set_ne hij] at hx
      exact ⟨x, hx, rfl⟩
  taken x hx := by
    rw [List.mem_singleton.1 hx]
    exact ⟨i, p, hp, rfl⟩

theorem placed {a : List Packet} (h : Accounts t t' a) (ht : Placed Packet.key t) :
    Placed Packet.key t' := by
  intro i q hq
  obtain ⟨p, hp, hqp⟩ := h.stored i q hq
  rw [h.length, Packet.key_eq_of_content hqp]
  exact ht i p hp

end Accounts

namespace PacketBuffer

variable {s s' : PacketBuffer}

section

variable (s : PacketBuffer)

@[simp] theorem size_set (i : Nat) (o : Option Packet) : (s.set i o).size = s.size :=
  List.length_set ..

@[simp] theorem indexOf_set (i : Nat) (o : Option Packet) (q : U16) :
    (s.set i o).indexOf q = s.indexOf q := by
  unfold indexOf
  rw [size_set]

@[simp] theorem packetBuffer_set (i : Nat) (o : Option Packet) :
    (s.set i o).packetBuffer = s.packetBuffer.set i o := rfl

@[simp] theorem packetBuffer_updateMissingPackets (q : U16) (n : Nat) :
    (s.updateMissingPackets q n).packetBuffer = s.packetBuffer := by
  unfold updateMissingPackets
  dsimp only
  split <;> rfl

@[simp] theorem maxPacketBufferSize_updateMissingPackets (q : U16) (n : Nat) :
    (s.updateMissingPackets q n).maxPacketBufferSize = s.maxPacketBufferSize := by
  unfold updateMissingPackets
  dsimp only
  split <;> rfl

@[simp] theorem packetBuffer_noteFirst (q : U16) :
    (s.noteFirst q).packetBuffer = s.packetBuffer := by
  unfold noteFirst
  split
  · rfl
  · split <;> rfl

@[simp] theorem maxPacketBufferSize_noteFirst (q : U16) :
    (s.noteFirst q).maxPacketBufferSize = s.maxPacketBufferSize := by
  unfold noteFirst
  split
  · rfl
  · split <;> rfl

@[simp] theorem size_noteFirst (q : U16) : (s.noteFirst q).size = s.size :=
  congrArg List.length (packetBuffer_noteFirst s q)

@[simp] theorem indexOf_noteFirst (q x : U16) :
    (s.noteFirst q).indexOf x = s.indexOf x := by
  unfold indexOf
  rw [size_noteFirst]

@[simp] theorem get_noteFirst (q : U16) (i : Nat) :
    (s.noteFirst q).get i = s.get i :=
  congrArg (slot · i) (packetBuffer_noteFirst s q)

end

theorem indexOf_lt (hs : 0 < s.size) (q : U16) : s.indexOf q < s.size := Nat.mod_lt _ hs

/-! ## What a round of the assembly does -/

@[simp] theorem packets_buildFrame (n size : Nat) (ps : List Packet) :
    (buildFrame n size ps).packets = ps := by
  unfold buildFrame
  dsimp only
  split <;> rfl

variable {q : U16} {n : Nat}

theorem takePackets_cons {ps : List Packet} (h : takePackets (n + 1) q s = .ok (s', ps)) :
    ∃ p rest, s.get (s.indexOf q) = some p ∧ ps = p :: rest ∧
      takePackets n (q + 1) (s.set (s.indexOf q) none) = .ok (s', rest) := by
  rw [takePackets] at h
  split at h
  · cases h
  · rename_i p hp
    split at h
    · cases h
    · rename_i s₁ rest hrest
      cases h
      exact ⟨p, rest, hp, rfl, hrest⟩

theorem takePackets_spec {ps : List Packet} (h : takePackets n q s = .ok (s', ps)) :
    s' = { s with packetBuffer := s'.packetBuffer } ∧
      Accounts s.packetBuffer s'.packetBuffer ps := by
  induction n generalizing q s ps with
  | zero =>
    cases h
    exact ⟨rfl, Accounts.refl _⟩
  | succ n ih =>
    obtain ⟨p, rest, hp, rfl, hrest⟩ := takePackets_cons h
    obtain ⟨heq, hacc⟩ := ih hrest
    exact ⟨heq, (Accounts.take hp).trans hacc⟩

variable {w : Walk}

theorem assembleFrame_cases {f : AssembledFrame}
    (h : s.assembleFrame q w = .ok (s', f)) :
    ∃ s₁ ps, takePackets (q + 1 - w.seqNumStart).toNat w.seqNumStart s = .ok (s₁, ps) ∧
      (ps.flatMap Packet.videoPayload).length ≤ w.frameSize ∧
      s' = { s₁ with missingPackets := Ordered.eraseUpTo olderThan id q s₁.missingPackets } ∧
      f = buildFrame (q + 1 - w.seqNumStart).toNat w.frameSize ps := by
  unfold assembleFrame at h
  dsimp only at h
  split at h
  · cases h
  · rename_i s₁ ps htake
    split at h
    · cases h
    · rename_i hle
      cases h
      exact ⟨s₁, ps, htake, Nat.le_of_not_lt hle, rfl, rfl⟩

/-- A delta frame waits for missing packets. -/
def Withheld (s : PacketBuffer) (isH264 : Bool) (w : Walk) : Prop :=
  isH264 = true ∧ w.isH264Keyframe = false ∧ s.missingUpTo w.seqNumStart = true

/-- The buffer in which a frame that was found is classified. -/
def classified (s : PacketBuffer) (isH264 : Bool) (w : Walk) (first : Packet) : PacketBuffer :=
  if isH264 then s.set (s.indexOf w.seqNumStart) (some (w.classify first)) else s

variable {isH264 : Bool}

theorem finishFrame_cases {r : Round}
    (h : s.finishFrame isH264 q w = .ok r) :
    ∃ first, (isH264 = true → s.get (s.indexOf w.seqNumStart) = some first) ∧
      ((s.Withheld isH264 w ∧ r = .stop (s.classified isH264 w first) w.visited) ∨
        (¬ s.Withheld isH264 w ∧ ∃ s' f,
          (s.classified isH264 w first).assembleFrame q w = .ok (s', f) ∧
          r = .next s' (some f) w.visited)) := by
  unfold finishFrame at h
  dsimp only at h
  cases isH264 with
  | false =>
    rw [if_neg (by simp)] at h
    refine ⟨{}, by simp, Or.inr ⟨by simp [Withheld], ?_⟩⟩
    split at h
    · cases h
    · rename_i s' f hf
      cases h
      exact ⟨s', f, by simpa [classified] using hf, rfl⟩
  | true =>
    rw [if_pos rfl] at h
    split at h
    · cases h
    · rename_i first hfirst
      refine ⟨first, fun _ => hfirst, ?_⟩
      split at h
      · rename_i hw
        cases h
        simp only [Bool.and_eq_true, Bool.not_eq_true'] at hw
        exact Or.inl ⟨⟨rfl, hw.1, hw.2⟩, rfl⟩
      · rename_i hw
        refine Or.inr ⟨?_, ?_⟩
        · rintro ⟨-, h₁, h₂⟩
          apply hw
          simp only [Bool.and_eq_true, Bool.not_eq_true']
          exact ⟨h₁, h₂⟩
        · split at h
          · cases h
          · rename_i s' f hf
            cases h
            exact ⟨s', f, hf, rfl⟩

/-- What the walk has noted once it has seen packet `p`. -/
def Walk.step (isH264 : Bool) (s : PacketBuffer) (p : Packet) (w : Walk) :
    Except Fault (Option Walk) :=
  if isH264 then (w.visit p).inspect s p else .ok (some (w.visit p))

/-- The walk behind the packet in slot `i`. -/
def walkOn (s : PacketBuffer) (isH264 : Bool) (ts : U32) (i : Nat) (w : Walk) :
    Nat → Except Fault (Walk × Bool)
  | 0 => .ok (w, true)
  | fuel + 1 =>
    match s.get (prevIndex s.size i) with
    | none => if isH264 then .ok (w, true) else .error .nullPacket
    | some q =>
      if isH264 && q.timestamp ≠ ts then .ok (w, true)
      else s.walkBack isH264 ts fuel (prevIndex s.size i) q { w with seqNumStart :=
        w.seqNumStart - 1 }

/-- **All the walk can do at a packet**: find the first one, fail, give the frame up, or go on. -/
@[elab_as_elim]
theorem walkBack_cases {ts : U32} {fuel i : Nat} {p : Packet}
    {motive : Except Fault (Walk × Bool) → Prop}
    (first : isH264 = false → p.videoHeader.isFirstPacketInFrame = true →
      motive (.ok (w.visit p, true)))
    (fault : ∀ f, w.step isH264 s p = .error f → motive (.error f))
    (refused : w.step isH264 s p = .ok none → motive (.ok (w.visit p, false)))
    (on : ∀ w', w.step isH264 s p = .ok (some w') →
      (isH264 = false → p.videoHeader.isFirstPacketInFrame = false) →
      motive (s.walkOn isH264 ts i w' fuel)) :
    motive (s.walkBack isH264 ts fuel i p w) := by
  rw [walkBack.eq_def]
  dsimp only
  split
  · next hfirst =>
    have hfirst : isH264 = false ∧ p.videoHeader.isFirstPacketInFrame =
      true := by simpa using hfirst
    exact first hfirst.1 hfirst.2
  · next hfirst =>
    have hfirst : isH264 = false → p.videoHeader.isFirstPacketInFrame =
      false := by simpa using hfirst
    rw [← Walk.step]
    cases hstep : w.step isH264 s p with
    | error f => exact fault f hstep
    | ok o =>
      cases o with
      | none => exact refused hstep
      | some w' =>
        have hon := on w' hstep hfirst
        cases fuel <;> exact hon

/-- The buffer in which a packet is marked as continuous. -/
def marked (s : PacketBuffer) (q : U16) (p : Packet) : PacketBuffer :=
  s.set (s.indexOf q) (some { p with continuous := true })

/-- The walk a round makes at the last packet of a frame. -/
def walkFrom (s : PacketBuffer) (q : U16) (p : Packet) : Except Fault (Walk × Bool) :=
  (s.marked q p).walkBack (p.videoHeader.codecType == .h264) p.timestamp (s.size - 1) (s.indexOf q)
    { p with continuous := true } { seqNumStart := q }

/-- What a round makes of its walk. -/
def ended (s : PacketBuffer) (q : U16) (p : Packet) :
    Except Fault (Walk × Bool) → Except Fault Round
  | .error f => .error f
  | .ok (w, false) => .ok (.stop (s.marked q p) w.visited)
  | .ok (w, true) => (s.marked q p).finishFrame (p.videoHeader.codecType == .h264) q w

variable {p : Packet}

/-- **All a round can do**: pass over a packet inside a frame, give a frame up, or find
its first packet and finish it. -/
theorem assembleRound_cases {r : Round} (h : s.assembleRound q p = .ok r) :
    (p.videoHeader.isLastPacketInFrame = false ∧ r = .next (s.marked q p) none []) ∨
      (p.videoHeader.isLastPacketInFrame = true ∧ ∃ w,
        (s.walkFrom q p = .ok (w, false) ∧ r = .stop (s.marked q p) w.visited) ∨
        (s.walkFrom q p = .ok (w, true) ∧
          (s.marked q p).finishFrame (p.videoHeader.codecType == .h264) q w = .ok r)) := by
  unfold assembleRound at h
  simp only [size_set, indexOf_set] at h
  cases hlast : p.videoHeader.isLastPacketInFrame with
  | false =>
    rw [if_neg (by simp [hlast])] at h
    cases h
    exact Or.inl ⟨rfl, rfl⟩
  | true =>
    rw [if_pos hlast] at h
    refine Or.inr ⟨rfl, ?_⟩
    split at h
    · cases h
    · rename_i w hw
      cases h
      exact ⟨w, Or.inl ⟨hw, rfl⟩⟩
    · rename_i w hw
      exact ⟨w, Or.inr ⟨hw, h⟩⟩

/-- The buffer a round ends with. -/
def Round.buffer : Round → PacketBuffer
  | .next s _ _ => s
  | .stop s _ => s

/-- The packets a round takes out. -/
def Round.taken : Round → List Packet
  | .next _ f _ => f.toList.flatMap AssembledFrame.packets
  | .stop _ _ => []

theorem accounts_marked (hp : s.get (s.indexOf q) = some p) :
    Accounts s.packetBuffer (s.marked q p).packetBuffer [] :=
  Accounts.mark hp rfl

theorem accounts_finishFrame {r : Round}
    (h : s.finishFrame isH264 q w = .ok r) :
    r.buffer.maxPacketBufferSize = s.maxPacketBufferSize ∧
      Accounts s.packetBuffer r.buffer.packetBuffer r.taken := by
  obtain ⟨first, hfirst, hr⟩ := finishFrame_cases h
  have hclass : (s.classified isH264 w first).maxPacketBufferSize = s.maxPacketBufferSize ∧
      Accounts s.packetBuffer (s.classified isH264 w first).packetBuffer [] := by
    cases isH264 with
    | false => exact ⟨rfl, Accounts.refl _⟩
    | true => exact ⟨rfl, Accounts.mark (hfirst rfl) (w.content_classify first)⟩
  rcases hr with ⟨-, rfl⟩ | ⟨-, s', f, hf, rfl⟩
  · exact hclass
  · obtain ⟨s₁, ps, htake, -, rfl, rfl⟩ := assembleFrame_cases hf
    obtain ⟨heq, hacc⟩ := takePackets_spec htake
    refine ⟨?_, ?_⟩
    · show s₁.maxPacketBufferSize = _
      rw [heq]
      exact hclass.1
    · have := hclass.2.trans hacc
      simpa [Round.buffer, Round.taken] using this

theorem accounts_assembleRound {r : Round} (hp : s.get (s.indexOf q) = some p)
    (h : s.assembleRound q p = .ok r) :
    r.buffer.maxPacketBufferSize = s.maxPacketBufferSize ∧
      Accounts s.packetBuffer r.buffer.packetBuffer r.taken := by
  have hmark := accounts_marked hp
  rcases assembleRound_cases h with ⟨-, rfl⟩ | ⟨-, w, ⟨-, rfl⟩ | ⟨-, hf⟩⟩
  · exact ⟨rfl, hmark⟩
  · exact ⟨rfl, hmark⟩
  · obtain ⟨hmax, hacc⟩ := accounts_finishFrame hf
    exact ⟨hmax, by simpa using hmark.trans hacc⟩

variable {r : InsertResult}

theorem assembleLoop_cases (h : assembleLoop (n + 1) q s = .ok (s', r)) :
    (s.isContinuous q = false ∧ s' = s ∧ r = {}) ∨
      (s.isContinuous q = true ∧ ∃ p, s.get (s.indexOf q) = some p ∧
        ((∃ v, s.assembleRound q p = .ok (.stop s' v) ∧ r = { visits := v }) ∨
          ∃ s₁ f v r₁, s.assembleRound q p = .ok (.next s₁ f v) ∧
            assembleLoop n (q + 1) s₁ = .ok (s', r₁) ∧
            r = { r₁ with
              assembledFrames := f.toList ++ r₁.assembledFrames
              visits := v ++ r₁.visits })) := by
  rw [assembleLoop] at h
  cases hc : s.isContinuous q with
  | false =>
    rw [if_pos (by simp [hc])] at h
    cases h
    exact Or.inl ⟨rfl, rfl, rfl⟩
  | true =>
    rw [if_neg (by simp [hc])] at h
    refine Or.inr ⟨rfl, ?_⟩
    split at h
    · cases h
    · rename_i p hp
      refine ⟨p, hp, ?_⟩
      split at h
      · cases h
      · rename_i s₁ v hr
        cases h
        exact Or.inl ⟨v, hr, rfl⟩
      · rename_i s₁ f v hr
        split at h
        · cases h
        · rename_i s₂ r₁ hl
          cases h
          exact Or.inr ⟨s₁, f, v, r₁, hr, hl, rfl⟩

/-- The packets in the frames of a result. -/
def takenBy (r : InsertResult) : List Packet := r.assembledFrames.flatMap AssembledFrame.packets

theorem accounts_assembleLoop (h : assembleLoop n q s = .ok (s', r)) :
    s'.maxPacketBufferSize = s.maxPacketBufferSize ∧ r.keyframeRequested = false ∧
      Accounts s.packetBuffer s'.packetBuffer (takenBy r) := by
  induction n generalizing q s r with
  | zero =>
    cases h
    exact ⟨rfl, rfl, Accounts.refl _⟩
  | succ n ih =>
    rcases assembleLoop_cases h with
      ⟨-, rfl, rfl⟩ | ⟨-, p, hp, ⟨v, hround, rfl⟩ | ⟨s₁, f, v, r₁, hround, hl, rfl⟩⟩
    · exact ⟨rfl, rfl, Accounts.refl _⟩
    · obtain ⟨hmax, hacc⟩ := accounts_assembleRound hp hround
      exact ⟨hmax, rfl, hacc⟩
    · obtain ⟨hmax, hacc⟩ := accounts_assembleRound hp hround
      obtain ⟨hmax', hkey, hacc'⟩ := ih hl
      refine ⟨hmax'.trans hmax, hkey, ?_⟩
      have := hacc.trans hacc'
      simpa [takenBy, Round.taken, Round.buffer] using this

/-! ## The search for a new size -/

theorem conflictsAt_iff :
    s.conflictsAt q n = true ↔ ∃ p, some p ∈ s.packetBuffer ∧ p.key % n = q.toNat := by
  unfold conflictsAt
  simp only [List.any_eq_true]
  constructor
  · rintro ⟨o, ho, hany⟩
    cases o with
    | none => exact absurd hany (by simp)
    | some p => exact ⟨p, ho, by simpa using hany⟩
  · rintro ⟨p, hp, heq⟩
    exact ⟨some p, hp, by simpa using heq⟩

/-- Powers of two. -/
def IsPow (n : Nat) : Prop := ∃ k, n = 2 ^ k

theorem IsPow.pos (h : IsPow n) : 0 < n := by
  obtain ⟨k, rfl⟩ := h
  exact Nat.two_pow_pos k

theorem IsPow.double (h : IsPow n) : IsPow (2 * n) := by
  obtain ⟨k, rfl⟩ := h
  exact ⟨k + 1, by rw [Nat.pow_succ, Nat.mul_comm]⟩

theorem IsPow.min {m n : Nat} (hm : IsPow m) (hn : IsPow n) : IsPow (min m n) := by
  rcases Nat.le_total m n with h | h
  · rwa [Nat.min_eq_left h]
  · rwa [Nat.min_eq_right h]

theorem IsPow.dvd {m n : Nat} (hm : IsPow m) (hn : IsPow n) (h : m ≤ n) : m ∣ n := by
  obtain ⟨i, rfl⟩ := hm
  obtain ⟨j, rfl⟩ := hn
  exact Nat.pow_dvd_pow 2 ((Nat.pow_le_pow_iff_right (by omega)).1 h)

/-- **The search ends**: at a size where the test finds no conflict, or with a conflict
at the maximum size. -/
theorem findSize_spec (hmax : IsPow s.maxPacketBufferSize) {fuel n : Nat} (hn : IsPow n)
    (hle : n ≤ s.maxPacketBufferSize) (hfuel : s.maxPacketBufferSize < fuel + n) :
    (∀ m, s.findSize q fuel n = some m →
      IsPow m ∧ n ≤ m ∧ m ≤ s.maxPacketBufferSize ∧ s.conflictsAt q m = false) ∧
    (s.findSize q fuel n = none → s.conflictsAt q s.maxPacketBufferSize = true) := by
  induction fuel generalizing n with
  | zero => omega
  | succ fuel ih =>
    rw [findSize, if_pos hle]
    by_cases hc : s.conflictsAt q n = true
    · rw [if_pos hc]
      by_cases hlt : n < s.maxPacketBufferSize
      · rw [if_pos hlt]
        have hpos := hn.pos
        have hstep := ih (hmax.min hn.double) (Nat.min_le_left _ _) (by omega)
        refine ⟨?_, hstep.2⟩
        intro m hm
        obtain ⟨h₁, h₂, h₃, h₄⟩ := hstep.1 m hm
        exact ⟨h₁, by omega, h₃, h₄⟩
      · rw [if_neg hlt]
        have heq : n = s.maxPacketBufferSize := by omega
        exact ⟨by simp, fun _ => heq ▸ hc⟩
    · rw [if_neg hc]
      refine ⟨?_, by simp⟩
      rintro m ⟨⟩
      exact ⟨hn, Nat.le_refl _, hle, by simpa using hc⟩

theorem findSize_of_not_conflictsAt {fuel n : Nat} (hc : s.conflictsAt q n = false) :
    s.findSize q (fuel + 1) n = some n := by
  rw [findSize, hc]
  split <;> simp

/-! ## The invariant of all reachable buffers -/

/-- The sizes are powers of two and every packet is in its slot. -/
structure Ring (s : PacketBuffer) : Prop where
  size : IsPow s.size
  max : IsPow s.maxPacketBufferSize
  placed : Placed Packet.key s.packetBuffer

variable {i : Nat}

theorem Ring.get_home (h : Ring s) (hp : s.get i = some p) :
    s.get (s.indexOf p.seqNum) = some p := by
  have hi : i = s.indexOf p.seqNum := h.placed i p hp
  rwa [← hi]

theorem Ring.congr (h : Ring s) (hb : s'.packetBuffer = s.packetBuffer)
    (hm : s'.maxPacketBufferSize = s.maxPacketBufferSize) : Ring s' where
  size := by
    show IsPow s'.packetBuffer.length
    rw [hb]
    exact h.size
  max := hm ▸ h.max
  placed := hb ▸ h.placed

theorem Ring.of_accounts (h : Ring s) (hm : s'.maxPacketBufferSize = s.maxPacketBufferSize)
    {a : List Packet} (hacc : Accounts s.packetBuffer s'.packetBuffer a) : Ring s' where
  size := by
    show IsPow s'.packetBuffer.length
    rw [hacc.length]
    exact h.size
  max := hm ▸ h.max
  placed := hacc.placed h.placed

theorem ring_create {a b : Nat} (ha : IsPow a) (hb : IsPow b) : Ring (create a b) where
  size := by
    show IsPow (List.replicate a none).length
    rwa [List.length_replicate]
  max := hb
  placed := placed_replicate a

theorem Ring.set (h : Ring s) {o : Option Packet}
    (ho : ∀ p, o = some p → i = s.indexOf p.seqNum) : Ring (s.set i o) where
  size := by
    rw [size_set]
    exact h.size
  max := h.max
  placed := h.placed.set ho

theorem Ring.clear (h : Ring s) : Ring s.clear where
  size := by
    show IsPow (s.packetBuffer.map fun _ => none).length
    rw [List.length_map]
    exact h.size
  max := h.max
  placed := by
    intro i p hp
    rw [PacketBuffer.clear, slot_map_none] at hp
    exact absurd hp (by simp)

theorem Ring.clearLoop (h : Ring s) (q : U16) (n : Nat) : Ring (clearLoop q n s) := by
  induction n generalizing s with
  | zero => exact h
  | succ n ih =>
    rw [PacketBuffer.clearLoop]
    apply ih
    refine Ring.congr (s := if (s.get (s.indexOf s.firstSeqNum)).any fun p =>
      aheadOf q p.seqNum then
      s.set (s.indexOf s.firstSeqNum) none else s) ?_ rfl rfl
    split
    · exact h.set (by simp)
    · exact h

theorem Ring.clearTo (h : Ring s) (q : U16) : Ring (s.clearTo q) := by
  unfold PacketBuffer.clearTo
  split
  · exact h
  · split
    · exact h
    · exact (h.clearLoop _ _).congr rfl rfl

theorem Ring.tryToAssembleFrames (h : Ring s)
    (hr : s.tryToAssembleFrames q = .ok (s', r)) : Ring s' := by
  obtain ⟨hmax, -, hacc⟩ := accounts_assembleLoop hr
  exact h.of_accounts hmax hacc

/-- The buffer with a packet in its slot, before frames are assembled. -/
def stored (s : PacketBuffer) (p : Packet) : PacketBuffer :=
  (s.set (s.indexOf p.seqNum) (some { p with continuous := false })).updateMissingPackets p.seqNum
    kMaxMissingPacketCount

theorem packetBuffer_stored (s : PacketBuffer) (p : Packet) :
    (s.stored p).packetBuffer =
      s.packetBuffer.set (s.indexOf p.seqNum) (some { p with continuous := false }) := by
  rw [stored, packetBuffer_updateMissingPackets, packetBuffer_set]

theorem get_stored_self (hs : 0 < s.size) :
    (s.stored p).get (s.indexOf p.seqNum) = some { p with continuous := false } := by
  unfold get
  rw [packetBuffer_stored, slot_set_self (indexOf_lt hs _)]

theorem get_stored_ne (hi : s.indexOf p.seqNum ≠ i) :
    (s.stored p).get i = s.get i := by
  unfold get
  rw [packetBuffer_stored, slot_set_ne hi]

theorem size_stored (s : PacketBuffer) (p : Packet) : (s.stored p).size = s.size := by
  unfold size
  rw [packetBuffer_stored, List.length_set]

theorem Ring.stored (h : Ring s) (p : Packet) : Ring (s.stored p) := by
  refine Ring.congr (s := s.set (s.indexOf p.seqNum) (some { p with continuous := false })) ?_ ?_ ?_
  · apply h.set
    rintro _ ⟨⟩
    rfl
  · exact packetBuffer_stored s p
  · rw [PacketBuffer.stored, maxPacketBufferSize_updateMissingPackets]

/-- A packet finds its slot taken by another one. -/
def Conflict (s : PacketBuffer) (p : Packet) : Prop :=
  s.isCleared p.seqNum = false ∧ ∃ q, s.get (s.indexOf p.seqNum) = some q ∧ q.seqNum ≠ p.seqNum

/-- The size the search for a new size begins with. -/
def firstSize (s : PacketBuffer) : Nat := min s.maxPacketBufferSize (2 * s.size)

/-- **All an insertion can do**: ignore the packet, store it in a free slot, or, on a
conflict, clear the buffer or store it in a buffer of another size. -/
theorem insertPacket_eq (s : PacketBuffer) (p : Packet) :
    (s.isCleared p.seqNum = true ∧ s.insertPacket p = .ok (s, {})) ∨
    (∃ q, s.get (s.indexOf p.seqNum) = some q ∧ q.seqNum = p.seqNum ∧
      s.insertPacket p = .ok (s.noteFirst p.seqNum, {})) ∨
    (s.isCleared p.seqNum = false ∧ s.get (s.indexOf p.seqNum) = none ∧
      s.insertPacket p = ((s.noteFirst p.seqNum).stored p).tryToAssembleFrames p.seqNum) ∨
    (s.Conflict p ∧ (s.noteFirst p.seqNum).expandPacketBufferIfNecessary p.seqNum = none ∧
      s.insertPacket p = .ok ((s.noteFirst p.seqNum).clear, { keyframeRequested := true })) ∨
    (s.Conflict p ∧ ∃ s₁, (s.noteFirst p.seqNum).expandPacketBufferIfNecessary p.seqNum = some s₁ ∧
      s.insertPacket p = (s₁.stored p).tryToAssembleFrames p.seqNum) := by
  unfold insertPacket
  simp only [indexOf_noteFirst, get_noteFirst]
  cases hcl : s.isCleared p.seqNum with
  | true => exact Or.inl ⟨rfl, by rw [if_pos rfl]⟩
  | false =>
    rw [if_neg (by simp)]
    refine Or.inr ?_
    cases hg : s.get (s.indexOf p.seqNum) with
    | none => exact Or.inr (Or.inl ⟨rfl, rfl, rfl⟩)
    | some q =>
      dsimp only
      by_cases heq : q.seqNum = p.seqNum
      · exact Or.inl ⟨q, rfl, heq, by rw [if_pos heq]⟩
      · have hconf : s.Conflict p := ⟨hcl, q, hg, heq⟩
        rw [if_neg heq]
        refine Or.inr (Or.inr ?_)
        cases he : (s.noteFirst p.seqNum).expandPacketBufferIfNecessary p.seqNum with
        | none => exact Or.inl ⟨hconf, rfl, rfl⟩
        | some s₁ => exact Or.inr ⟨hconf, s₁, rfl, rfl⟩

theorem insertPacket_cases (h : s.insertPacket p = .ok (s', r)) :
    (s.isCleared p.seqNum = true ∧ s' = s ∧ r = {}) ∨
    (∃ q, s.get (s.indexOf p.seqNum) = some q ∧ q.seqNum = p.seqNum ∧
      s' = s.noteFirst p.seqNum ∧ r = {}) ∨
    (s.isCleared p.seqNum = false ∧ s.get (s.indexOf p.seqNum) = none ∧
      ((s.noteFirst p.seqNum).stored p).tryToAssembleFrames p.seqNum = .ok (s', r)) ∨
    (s.Conflict p ∧ (s.noteFirst p.seqNum).expandPacketBufferIfNecessary p.seqNum = none ∧
      s' = (s.noteFirst p.seqNum).clear ∧ r = { keyframeRequested := true }) ∨
    (s.Conflict p ∧ ∃ s₁, (s.noteFirst p.seqNum).expandPacketBufferIfNecessary p.seqNum = some s₁ ∧
      (s₁.stored p).tryToAssembleFrames p.seqNum = .ok (s', r)) := by
  rcases insertPacket_eq s p with
    ⟨hcl, he⟩ | ⟨q, hq, hqp, he⟩ | ⟨hcl, hg, he⟩ | ⟨hc, hx, he⟩ | ⟨hc, s₁, hx, he⟩
  · rw [he] at h
    cases h
    exact Or.inl ⟨hcl, rfl, rfl⟩
  · rw [he] at h
    cases h
    exact Or.inr (Or.inl ⟨q, hq, hqp, rfl, rfl⟩)
  · exact Or.inr (Or.inr (Or.inl ⟨hcl, hg, he ▸ h⟩))
  · rw [he] at h
    cases h
    exact Or.inr (Or.inr (Or.inr (Or.inl ⟨hc, hx, rfl, rfl⟩)))
  · exact Or.inr (Or.inr (Or.inr (Or.inr ⟨hc, s₁, hx, he ▸ h⟩)))

/-! ## Expansion -/

theorem Ring.noteFirst (h : Ring s) (q : U16) : Ring (s.noteFirst q) :=
  h.congr (packetBuffer_noteFirst s q) (maxPacketBufferSize_noteFirst s q)

theorem firstSize_noteFirst (q : U16) : (s.noteFirst q).firstSize = s.firstSize := by
  simp [firstSize]

theorem conflictsAt_noteFirst (q x : U16) (m : Nat) :
    (s.noteFirst q).conflictsAt x m = s.conflictsAt x m := by
  unfold conflictsAt
  rw [packetBuffer_noteFirst]

theorem Ring.firstSize (h : Ring s) : IsPow s.firstSize := h.max.min h.size.double

theorem Ring.conflict_noteFirst (hc : s.Conflict p) :
    ((s.noteFirst p.seqNum).get ((s.noteFirst p.seqNum).indexOf p.seqNum)).isSome := by
  obtain ⟨-, q, hq, -⟩ := hc
  rw [get_noteFirst, indexOf_noteFirst, hq]
  rfl

theorem expandPacketBufferIfNecessary_eq (h : (s.get (s.indexOf q)).isSome) :
    s.expandPacketBufferIfNecessary q =
      if s.size = s.maxPacketBufferSize then none
      else (s.findSize q (s.maxPacketBufferSize + 1) s.firstSize).map s.expandPacketBuffer := by
  obtain ⟨p, hp⟩ := Option.isSome_iff_exists.1 h
  unfold expandPacketBufferIfNecessary
  rw [if_neg (by simp [hp])]
  rfl

theorem Ring.expand_some (h : Ring s) (hg : (s.get (s.indexOf q)).isSome) {s₁ : PacketBuffer}
    (he : s.expandPacketBufferIfNecessary q = some s₁) :
    s.size ≠ s.maxPacketBufferSize ∧ ∃ n, IsPow n ∧ s.firstSize ≤ n ∧ n ≤ s.maxPacketBufferSize ∧
      s.conflictsAt q n = false ∧ (s.conflictsAt q s.firstSize = false → n = s.firstSize) ∧
      s₁ = { s with packetBuffer := rehash Packet.key n s.packetBuffer } := by
  rw [expandPacketBufferIfNecessary_eq hg] at he
  split at he
  · cases he
  · rename_i hne
    obtain ⟨n, hn, rfl⟩ := Option.map_eq_some_iff.1 he
    have hpos := h.firstSize.pos
    obtain ⟨h₁, h₂, h₃, h₄⟩ :=
      (findSize_spec h.max h.firstSize (Nat.min_le_left _ _) (by omega)).1 n hn
    refine ⟨hne, n, h₁, h₂, h₃, h₄, ?_, ?_⟩
    · intro hc
      rw [findSize_of_not_conflictsAt hc] at hn
      exact (Option.some.inj hn).symm
    · unfold expandPacketBuffer
      rw [if_neg hne, Nat.min_eq_right h₃]

theorem Ring.expand_none (hg : (s.get (s.indexOf q)).isSome)
    (he : s.expandPacketBufferIfNecessary q = none) :
    s.size = s.maxPacketBufferSize ∨ s.conflictsAt q s.firstSize = true := by
  rw [expandPacketBufferIfNecessary_eq hg] at he
  split at he
  · rename_i heq
    exact Or.inl heq
  · refine Or.inr ?_
    by_contra hc
    rw [findSize_of_not_conflictsAt (by simpa using hc)] at he
    cases he

theorem Ring.expand (h : Ring s) {s₁ : PacketBuffer}
    (he : s.expandPacketBufferIfNecessary q = some s₁) : Ring s₁ := by
  by_cases hg : (s.get (s.indexOf q)).isSome
  · obtain ⟨-, n, hn, -, -, -, -, rfl⟩ := h.expand_some hg he
    refine ⟨?_, h.max, placed_rehash _⟩
    show IsPow (rehash Packet.key n s.packetBuffer).length
    rwa [length_rehash]
  · unfold expandPacketBufferIfNecessary at he
    rw [if_pos (by simpa using hg)] at he
    cases he
    exact h

/-! ## Every run -/

theorem Ring.insertPacket (h : Ring s) (hr : s.insertPacket p = .ok (s', r)) : Ring s' := by
  have hfirst := h.noteFirst p.seqNum
  rcases insertPacket_cases hr with
    ⟨-, rfl, -⟩ | ⟨q, -, -, rfl, -⟩ | ⟨-, -, ha⟩ | ⟨-, -, rfl, -⟩ | ⟨-, s₁, he, ha⟩
  · exact h
  · exact hfirst
  · exact (hfirst.stored p).tryToAssembleFrames ha
  · exact hfirst.clear
  · exact ((hfirst.expand he).stored p).tryToAssembleFrames ha

theorem Ring.insertPadding (h : Ring s) (hr : s.insertPadding q = .ok (s', r)) : Ring s' := by
  apply Ring.tryToAssembleFrames _ hr
  exact h.congr (packetBuffer_updateMissingPackets ..) (maxPacketBufferSize_updateMissingPackets ..)

theorem packetMachine_step {P Q : PacketBuffer → Prop} {s : Option PacketBuffer} {op : PacketOp}
    (hins : ∀ s p s' r, P s → s.insertPacket p = .ok (s', r) → Q s')
    (hpad : ∀ s q s' r, P s → s.insertPadding q = .ok (s', r) → Q s')
    (hclear : ∀ s, P s → Q s.clear) (hclearTo : ∀ s q, P s → Q (s.clearTo q))
    (hflag : ∀ s b, P s → Q { s with spsPpsIdrIsH264Keyframe := b })
    (hs : ∀ b, s = some b → P b) : ∀ b, (packetMachine.step s op).1 = some b → Q b := by
  intro b hb
  cases s with
  | none => exact absurd hb (by simp [packetMachine])
  | some s =>
    have hP := hs s rfl
    cases op with
    | insertPacket p =>
      simp only [packetMachine] at hb
      cases hr : s.insertPacket p with
      | error f => simp [hr, outcome] at hb
      | ok x =>
        simp only [hr, outcome, Option.some.injEq] at hb
        exact hins s p b x.2 hP (by rw [hr, ← hb])
    | insertPadding q =>
      simp only [packetMachine] at hb
      cases hr : s.insertPadding q with
      | error f => simp [hr, outcome] at hb
      | ok x =>
        simp only [hr, outcome, Option.some.injEq] at hb
        exact hpad s q b x.2 hP (by rw [hr, ← hb])
    | clear =>
      cases hb
      exact hclear s hP
    | clearTo q =>
      cases hb
      exact hclearTo s q hP
    | setSpsPpsIdrIsH264Keyframe flag =>
      cases hb
      exact hflag s flag hP

theorem ring_reached {a b : Nat} {ops : List PacketOp}
    (h : packetMachine.final (some (create (2 ^ a) (2 ^ b))) ops = some s) : Ring s := by
  have := packetMachine.invariant_of_step (fun s => ∀ b, s = some b → Ring b)
    (fun s op hs => packetMachine_step (fun _ _ _ _ hP hr => hP.insertPacket hr)
      (fun _ _ _ _ hP hr => hP.insertPadding hr) (fun _ hP => hP.clear) (fun _ q hP => hP.clearTo q)
      (fun _ _ hP => hP.congr rfl rfl) hs)
    (s := some (create (2 ^ a) (2 ^ b))) ?_ ops
  · exact this s h
  · rintro _ ⟨⟩
    exact ring_create ⟨a, rfl⟩ ⟨b, rfl⟩

end PacketBuffer
end NaiveRtc.Jitter
