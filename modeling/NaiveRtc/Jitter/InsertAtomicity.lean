import NaiveRtc.Jitter.FrameBufferLinks

/-!
# What a refused frame leaves behind

`InsertFrame` is meant to be all or nothing: a frame that is refused leaves the
buffer as it was.  The entry under the frame's own id is created before the
references are looked at, though, and nobody takes it away again.

* `emplaceFrameInfo_fails_iff` — when `EmplaceFrameInfo` refuses a frame.
* `insertAccepted_of_keyframe` — a keyframe that made the buffer clear itself is stored.
* `insertFrame_fails` — a refusal is an early return, or one by `EmplaceFrameInfo` with
  the buffer not cleared.
* `insertFrame_atomic_iff` — in every run, a refusal leaves the buffer as it was unless
  the frame leaves a placeholder.
-/

namespace NaiveRtc.Jitter

open WrapAround FrameBuffer

/-! ## No jump -/

theorem not_jump (m : FrameInfoMap) (id : Int) :
    ((firstKey m).any (id < ·) && (lastKey m).any (· < id)) = false := by
  unfold firstKey lastKey
  have hord : m.toList.Pairwise fun a b => a.1 < b.1 :=
    (Std.TreeMap.ordered_keys_toList (t := m)).imp fun h => compare_lt_iff_lt.1 h
  cases hl : m.toList with
  | nil => rfl
  | cons e es =>
    rw [hl] at hord
    have hle : e.1 ≤ ((e :: es).getLast (List.cons_ne_nil _ _)).1 := by
      rcases List.mem_cons.1 (List.getLast_mem (List.cons_ne_nil e es)) with h | h
      · rw [h]
      · exact ((List.pairwise_cons.1 hord).1 _ h).le
    rw [List.getLast?_eq_getLast_of_ne_nil (List.cons_ne_nil e es)]
    simp only [List.head?_cons, Option.map_some, Option.any_some, Bool.and_eq_false_iff,
      decide_eq_false_iff_not]
    omega

theorem insertAccepted_eq (s : FrameBuffer) (f : FrameToDecode) (last : Int) (cleared : Bool) :
    (insertAccepted s f last cleared).2.success = (s.emplaceFrameInfo f).2 ∧
      ((s.emplaceFrameInfo f).2 = false →
        (insertAccepted s f last cleared).1 = (s.emplaceFrameInfo f).1) := by
  unfold insertAccepted
  simp only [not_jump, Bool.false_eq_true, if_false]
  rcases hemp : s.emplaceFrameInfo f with ⟨s', _ | _⟩
  · exact ⟨rfl, fun _ => rfl⟩
  · simp only
    refine ⟨?_, fun h => by cases h⟩
    split <;> rfl

/-! ## When `EmplaceFrameInfo` refuses a frame -/

/-- A reference at or before the last decoded frame was not decoded. -/
def Undecodable (s : FrameBuffer) (refs : List Int) : Prop :=
  ∃ r ∈ refs, ¬ Above s.decodedFramesHistory.lastDecodedFrameId r ∧
    s.decodedFramesHistory.wasDecoded r = false

theorem notYetFulfilled_eq_none_iff (s : FrameBuffer) (infos : FrameInfoMap) (refs : List Int) :
    notYetFulfilled s infos refs = none ↔ Undecodable s refs := by
  induction refs with
  | nil => simp [notYetFulfilled, Undecodable]
  | cons r refs ih =>
    have hcons : Undecodable s (r :: refs) ↔
        (¬ Above s.decodedFramesHistory.lastDecodedFrameId r ∧
          s.decodedFramesHistory.wasDecoded r = false) ∨ Undecodable s refs := by
      simp [Undecodable]
    rw [hcons, notYetFulfilled, above_iff, not_not]
    split
    · rename_i hold
      split
      · rename_i hdec
        simp [ih, hdec]
      · rename_i hdec
        simp [hold, hdec]
    · rename_i hnew
      simp [ih, hnew]

theorem emplaceFrameInfo_fails_iff (s : FrameBuffer) (f : FrameToDecode) :
    ((s.emplaceFrameInfo f).2 = false ↔
      s.frameInfos[f.id]?.any (·.frame.isSome) = true ∨
      ¬ Above s.decodedFramesHistory.lastDecodedFrameId f.id ∨ Undecodable s f.references) ∧
    ((s.emplaceFrameInfo f).2 = false →
      (s.emplaceFrameInfo f).1 = { s with frameInfos := updateInfo s.frameInfos f.id id }) := by
  have hentry : (updateInfo s.frameInfos f.id id)[f.id]?.any (·.frame.isSome) =
      s.frameInfos[f.id]?.any (·.frame.isSome) := by
    rw [getElem?_updateInfo, if_pos rfl]
    cases s.frameInfos[f.id]? <;> rfl
  rw [above_iff, not_not]
  unfold emplaceFrameInfo
  simp only [hentry]
  split
  · rename_i hoccupied
    simp [hoccupied]
  · rename_i hvacant
    split
    · rename_i hold
      simp [hold]
    · rename_i hnew
      have hnone := notYetFulfilled_eq_none_iff
        { s with frameInfos := updateInfo s.frameInfos f.id id }
        (updateInfo s.frameInfos f.id id) f.references
      have hsame : Undecodable { s with frameInfos := updateInfo s.frameInfos f.id id } f.references
          ↔ Undecodable s f.references := Iff.rfl
      rw [hsame] at hnone
      split
      · rename_i hdeps
        simp [hnone.1 hdeps]
      · rename_i deps hdeps
        have hdec : ¬ Undecodable s f.references := by
          rw [← hnone, hdeps]
          simp
        simp [hvacant, hnew, hdec]

/-! ## When `InsertFrame` refuses a frame -/

variable {f : FrameToDecode}

theorem references_of_keyframe (hv : validReferences f = true)
    (hkey : f.isKeyframe = true) : f.references = [] := by
  have htype : f.frameType = .key := by simpa [FrameToDecode.isKeyframe] using hkey
  simpa [validReferences, htype] using hv

theorem insertAccepted_of_keyframe (s : FrameBuffer)
    (hv : validReferences f = true) (hkey : f.isKeyframe = true) (last : Int) (cleared : Bool) :
    (insertAccepted s.clearFramesAndHistory f last cleared).2.success = true := by
  rw [(insertAccepted_eq _ f last cleared).1, ← Bool.not_eq_false]
  intro hfail
  rcases (emplaceFrameInfo_fails_iff _ f).1.1 hfail with h | h | ⟨r, hr, -⟩
  · simp [clearFramesAndHistory] at h
  · exact h fun l hl => by cases hl
  · rw [references_of_keyframe hv hkey] at hr
    cases hr

/-- The buffer takes the frame as far as `EmplaceFrameInfo` without clearing itself. -/
structure ReachesEmplace (s : FrameBuffer) (f : FrameToDecode) : Prop where
  valid : validReferences f = true
  room : s.frameInfos.size < kMaxFramesBuffered
  newer : Above s.decodedFramesHistory.lastDecodedFrameId f.id

variable {s : FrameBuffer}

theorem insertFrame_fails (hfail : (s.insertFrame f).2.success = false) :
    (s.insertFrame f).1 = s ∨
    (ReachesEmplace s f ∧ (s.emplaceFrameInfo f).2 = false ∧
      (s.insertFrame f).1 = (s.emplaceFrameInfo f).1) := by
  by_cases hv : validReferences f = true
  · by_cases hfull : kMaxFramesBuffered ≤ s.frameInfos.size
    · by_cases hkey : f.isKeyframe = true
      · -- the buffer is cleared, and the keyframe is stored
        have hnone : s.clearFramesAndHistory.decodedFramesHistory.lastDecodedFrameId = none := rfl
        unfold insertFrame at hfail
        simp only [hv, hfull, hkey, Bool.not_true, Bool.false_eq_true, if_false, decide_true,
          Bool.and_false, if_true, hnone, Option.any_none,
          insertAccepted_of_keyframe s hv hkey] at hfail
        cases hfail
      · refine Or.inl ?_
        unfold insertFrame
        simp [hv, hfull, hkey]
    · by_cases hold : s.decodedFramesHistory.lastDecodedFrameId.any (f.id ≤ ·) = true
      · unfold insertFrame at hfail ⊢
        simp only [hv, hfull, hold, Bool.not_true, Bool.false_eq_true, if_false, decide_false,
          Bool.false_and, if_true] at hfail ⊢
        split at hfail
        · rename_i hjump
          rw [insertAccepted_of_keyframe s hv (Bool.and_eq_true_iff.1 hjump).2] at hfail
          cases hfail
        · rename_i hlate
          rw [if_neg hlate]
          exact Or.inl rfl
      · unfold insertFrame at hfail ⊢
        simp only [hv, hfull, hold, Bool.not_true, Bool.false_eq_true, if_false, decide_false,
          Bool.false_and] at hfail ⊢
        rw [(insertAccepted_eq _ _ _ _).1] at hfail
        exact Or.inr ⟨⟨hv, not_le.1 hfull, (above_iff _ _).2 hold⟩, hfail,
          (insertAccepted_eq _ _ _ _).2 hfail⟩
  · refine Or.inl ?_
    unfold insertFrame
    simp [hv]

theorem insertFrame_of_reachesEmplace
    (h : ReachesEmplace s f) (hfail : (s.emplaceFrameInfo f).2 = false) :
    (s.insertFrame f).2.success = false ∧ (s.insertFrame f).1 = (s.emplaceFrameInfo f).1 := by
  have hnew := (above_iff _ _).1 h.newer
  unfold insertFrame
  simp only [h.valid, not_le.2 h.room, hnew, Bool.not_true, Bool.false_eq_true, if_false,
    decide_false, Bool.false_and]
  exact ⟨(insertAccepted_eq _ _ _ _).1.trans hfail, (insertAccepted_eq _ _ _ _).2 hfail⟩

/-! ## All or nothing -/

/-- Every entry with its counters, dependents and frame, the history, and the newest
continuous id are the same. -/
structure Unchanged (s s' : FrameBuffer) : Prop where
  frameInfos : ∀ id : Int, s'.frameInfos[id]? = s.frameInfos[id]?
  decodedFramesHistory : s'.decodedFramesHistory = s.decodedFramesHistory
  lastContinuousFrameId : s'.lastContinuousFrameId = s.lastContinuousFrameId

/-- The frame has no entry, gets as far as `EmplaceFrameInfo`, and refers to a frame that
the decoder has passed without decoding it. -/
structure LeavesPlaceholder (s : FrameBuffer) (f : FrameToDecode) : Prop extends
    ReachesEmplace s f where
  vacant : s.frameInfos[f.id]? = none
  undecodable : Undecodable s f.references

theorem LeavesPlaceholder.fails (h : LeavesPlaceholder s f) :
    (s.insertFrame f).2.success = false ∧ (s.insertFrame f).1.frameInfos[f.id]? = some {} := by
  have hfail := (emplaceFrameInfo_fails_iff s f).1.2 (Or.inr (Or.inr h.undecodable))
  obtain ⟨hsuccess, hstate⟩ := insertFrame_of_reachesEmplace h.toReachesEmplace hfail
  refine ⟨hsuccess, ?_⟩
  rw [hstate, (emplaceFrameInfo_fails_iff s f).2 hfail, getElem?_updateInfo, if_pos rfl, h.vacant]
  rfl

/-- A refusal leaves the buffer as it was. -/
def InsertAtomic (s : FrameBuffer) (f : FrameToDecode) : Prop :=
  (s.insertFrame f).2.success = false → Unchanged s (s.insertFrame f).1

theorem insertAtomic_iff (s : FrameBuffer) (f : FrameToDecode) :
    InsertAtomic s f ↔ ¬ LeavesPlaceholder s f := by
  constructor
  · intro hatomic hleaves
    have hsame := (hatomic hleaves.fails.1).frameInfos f.id
    rw [hleaves.fails.2, hleaves.vacant] at hsame
    cases hsame
  · intro hnot hfail
    rcases insertFrame_fails hfail with hstate | ⟨hreach, hemplace, hstate⟩
    · rw [hstate]
      exact ⟨fun _ => rfl, rfl, rfl⟩
    · rw [hstate, (emplaceFrameInfo_fails_iff s f).2 hemplace]
      refine ⟨fun id => ?_, rfl, rfl⟩
      -- the entry is there already, or there is nothing wrong with the references
      have hentry : ∃ i, s.frameInfos[f.id]? = some i := by
        cases hinfo : s.frameInfos[f.id]? with
        | some i => exact ⟨i, rfl⟩
        | none =>
          rcases (emplaceFrameInfo_fails_iff s f).1.1 hemplace with h | h | h
          · rw [hinfo] at h
            cases h
          · exact absurd hreach.newer h
          · exact absurd ⟨hreach, hinfo, h⟩ hnot
      obtain ⟨i, hi⟩ := hentry
      rw [getElem?_updateInfo]
      split
      · rename_i hid
        subst hid
        rw [hi]
        rfl
      · rfl

/-- **A refused frame leaves the buffer as it was, unless it leaves a placeholder.**  This
holds after every run, for every frame. -/
theorem insertFrame_atomic_iff (ops : List Op) (f : FrameToDecode) :
    InsertAtomic (reached ops).1.buffer f ↔ ¬ LeavesPlaceholder (reached ops).1.buffer f :=
  insertAtomic_iff _ f

/-- Keyframe 5 has been handed out when frame 10 arrives, which refers to frame 3.  The
frame is refused, and an empty entry stays under its id. -/
theorem insertFrame_not_atomic :
    ¬ ∀ (ops : List Op) (f : FrameToDecode), InsertAtomic (reached ops).1.buffer f := by
  intro h
  have hatomic := h [.insertFrame ⟨5, .key, 100, [], by decide⟩,
      .findNextFrameToDecode false 0 fun _ => 0, .getNextFrameToDecode]
    ⟨10, .delta, 200, [3], by decide⟩
  have hsame := (hatomic (by decide +kernel)).frameInfos 10
  revert hsame
  decide +kernel

end NaiveRtc.Jitter
