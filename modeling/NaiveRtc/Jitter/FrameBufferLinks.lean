import NaiveRtc.Jitter.FrameBuffer

/-!
# The entries of the frame buffer and the links between them

What the calls do to the map of entries, and the part of the invariant that speaks
about reverse links and decodability counters.

* `emplaceFrameInfo_spec`, `insertFrame_cases` — everything an insertion can do.
* `SameLinks`, `propagateContinuity_spec` — propagating continuity changes continuity
  counters only.
* `Links` — the reverse links and the decodability counters agree with the frames in
  the buffer and the ids decoded since the last clear; kept by a failed insertion
  (`Links.touch`), by storing a frame (`Links.stored`) and by handing one out
  (`Links.decoded`).
-/

namespace NaiveRtc.Jitter

open WrapAround FrameBuffer

/-! ## The map -/

theorem getElem?_updateInfo (m : FrameInfoMap) (id k : Int) (f : FrameInfo → FrameInfo) :
    (updateInfo m id f)[k]? = if k = id then some (f (m[k]?.getD {})) else m[k]? := by
  unfold updateInfo
  rw [Std.TreeMap.getElem?_alter]
  by_cases h : k = id
  · subst h
    simp
  · rw [if_neg h, if_neg (by simpa using Ne.symm h)]

theorem getElem?_eraseUpTo (m : FrameInfoMap) (id k : Int) :
    (eraseUpTo m id)[k]? = if id < k then m[k]? else none := by
  unfold eraseUpTo
  rw [Std.TreeMap.getElem?_filter]
  simp only [Std.TreeMap.getKey_eq, Option.pfilter_eq_filter]
  by_cases h : id < k
  · simp only [h, decide_true, if_true]
    cases m[k]? <;> rfl
  · simp [h]

/-! ## What an insertion can do -/

/-- `k` is newer than the last decoded id. -/
def Above (last : Option Int) (k : Int) : Prop := ∀ l, last = some l → l < k

theorem above_iff (last : Option Int) (k : Int) : Above last k ↔ ¬ last.any (k ≤ ·) = true := by
  cases last with
  | none => simp [Above]
  | some l => simp [Above]

theorem notYetFulfilled_spec {s : FrameBuffer} {infos : FrameInfoMap} {refs : List Int}
    {deps : List (Int × Bool)} (h : notYetFulfilled s infos refs = some deps) :
    deps.map Prod.fst
        = refs.filter (fun r => !s.decodedFramesHistory.lastDecodedFrameId.any (r ≤ ·)) ∧
      (∀ r ∈ refs, s.decodedFramesHistory.lastDecodedFrameId.any (r ≤ ·) = true →
        s.decodedFramesHistory.wasDecoded r = true) ∧
      ∀ d ∈ deps, d.2 = infos[d.1]?.any (·.continuous) := by
  induction refs generalizing deps with
  | nil =>
    cases h
    simp
  | cons r refs ih =>
    rw [notYetFulfilled] at h
    split at h
    · rename_i hold
      split at h
      · rename_i hdec
        obtain ⟨h₁, h₂, h₃⟩ := ih h
        refine ⟨by simp [h₁, hold], ?_, h₃⟩
        intro q hq hq'
        rcases List.mem_cons.1 hq with rfl | hq
        · exact hdec
        · exact h₂ q hq hq'
      · cases h
    · rename_i hnew
      obtain ⟨deps', hdeps', rfl⟩ := Option.map_eq_some_iff.1 h
      obtain ⟨h₁, h₂, h₃⟩ := ih hdeps'
      refine ⟨by simp [h₁, hnew], ?_, ?_⟩
      · intro q hq hq'
        rcases List.mem_cons.1 hq with rfl | hq
        · exact absurd hq' hnew
        · exact h₂ q hq hq'
      · intro d hd
        rcases List.mem_cons.1 hd with rfl | hd
        · rfl
        · exact h₃ d hd

theorem getElem?_linkReferences (m : FrameInfoMap) (id k : Int) {deps : List (Int × Bool)}
    (hnd : (deps.map Prod.fst).Nodup) :
    (linkReferences m id deps)[k]?
      = if k ∈ deps.map Prod.fst then
          some { m[k]?.getD {} with dependentFrames := (m[k]?.getD {}).dependentFrames ++ [id] }
        else m[k]? := by
  unfold linkReferences
  induction deps generalizing m with
  | nil => simp
  | cons d deps ih =>
    obtain ⟨hd, hnd'⟩ := List.nodup_cons.1 hnd
    rw [List.foldl_cons, ih _ hnd', getElem?_updateInfo]
    by_cases hk : k = d.1
    · subst hk
      simp only [List.map_cons, List.mem_cons, true_or, if_true]
      rw [if_neg hd]
    · simp only [List.map_cons, List.mem_cons, hk, false_or, if_false]

/-- The map after a frame was stored. -/
structure Stored (m : FrameInfoMap) (f : FrameToDecode) (deps : List (Int × Bool))
    (m' : FrameInfoMap) : Prop where
  vacant : ∀ i : FrameInfo, m[f.id]? = some i → i.frame = none
  own : m'[f.id]? = some
    { m[f.id]?.getD {} with
      frame := some f
      numMissingContinuous := deps.length - deps.countP (·.2)
      numMissingDecodable := deps.length }
  linked : ∀ k ∈ deps.map Prod.fst, m'[k]? = some
    { m[k]?.getD {} with dependentFrames := (m[k]?.getD {}).dependentFrames ++ [f.id] }
  other : ∀ k, k ≠ f.id → k ∉ deps.map Prod.fst → m'[k]? = m[k]?

variable {f : FrameToDecode}

theorem lt_of_mem_references (hv : validReferences f = true) {r : Int}
    (hr : r ∈ f.references) : r < f.id := by
  unfold validReferences at hv
  split at hv
  · simp only [beq_iff_eq, List.length_eq_zero_iff] at hv
    simp [hv] at hr
  · simpa using List.all_eq_true.1 hv r hr

theorem FrameToDecode.nodup (f : FrameToDecode) : f.references.Nodup :=
  f.sorted.imp fun h => Int.ne_of_lt h

theorem emplaceFrameInfo_spec (s : FrameBuffer) (hv : validReferences f = true) :
    s.emplaceFrameInfo f = ({ s with frameInfos := updateInfo s.frameInfos f.id id }, false) ∨
    ∃ deps m', notYetFulfilled s (updateInfo s.frameInfos f.id id) f.references = some deps ∧
      s.emplaceFrameInfo f = ({ s with frameInfos := m' }, true) ∧
      Stored s.frameInfos f deps m' := by
  unfold emplaceFrameInfo
  simp only
  split
  · exact Or.inl rfl
  · rename_i hvacant
    split
    · exact Or.inl rfl
    · have hsame : ∀ refs, notYetFulfilled
          { s with frameInfos := updateInfo s.frameInfos f.id id }
          (updateInfo s.frameInfos f.id id) refs
          = notYetFulfilled s (updateInfo s.frameInfos f.id id) refs := by
        intro refs
        induction refs with
        | nil => rfl
        | cons r refs ih => simp only [notYetFulfilled, ih]
      rw [hsame]
      cases hdeps : notYetFulfilled s (updateInfo s.frameInfos f.id id) f.references with
      | none => exact Or.inl rfl
      | some deps =>
        refine Or.inr ⟨deps, _, rfl, rfl, ?_⟩
        have hfst := (notYetFulfilled_spec hdeps).1
        have hnd : (deps.map Prod.fst).Nodup := hfst ▸ f.nodup.filter _
        have hown : f.id ∉ deps.map Prod.fst := by
          rw [hfst]
          intro hmem
          exact absurd (lt_of_mem_references hv (List.mem_filter.1 hmem).1) (lt_irrefl _)
        refine ⟨?_, ?_, ?_, ?_⟩
        · intro i hi
          simpa [getElem?_updateInfo, hi] using hvacant
        · rw [getElem?_linkReferences _ _ _ hnd, if_neg hown]
          simp [getElem?_updateInfo]
        · intro k hk
          have hne : k ≠ f.id := fun h => hown (h ▸ hk)
          rw [getElem?_linkReferences _ _ _ hnd, if_pos hk]
          simp [getElem?_updateInfo, hne]
        · intro k hne hk
          rw [getElem?_linkReferences _ _ _ hnd, if_neg hk]
          simp [getElem?_updateInfo, hne]

/-- The state an insertion works on: the buffer as it was, or cleared. -/
def Base (s s₀ : FrameBuffer) (cleared : Bool) : Prop :=
  (s₀ = s ∧ cleared = false) ∨ (s₀ = s.clearFramesAndHistory ∧ cleared = true)

/-- What happens to a frame that belongs in the buffer. -/
inductive Accepted (s₀ : FrameBuffer) (f : FrameToDecode) : FrameBuffer → Bool → Bool → Prop where
  /-- The frame is a duplicate or can never be decoded; its entry stays. -/
  | dropped : Accepted s₀ f { s₀ with frameInfos := updateInfo s₀.frameInfos f.id id } false false
  /-- The frame is stored and waits for a reference. -/
  | waiting {deps m'} (hdeps : notYetFulfilled s₀ (updateInfo s₀.frameInfos f.id id) f.references
        = some deps) (hm : Stored s₀.frameInfos f deps m')
      (hcont : ¬ (m'[f.id]?.any (·.continuous) = true)) :
      Accepted s₀ f { s₀ with frameInfos := m' } true false
  /-- The frame is stored, is continuous and tells its dependents. -/
  | continuous {deps m'} (hdeps : notYetFulfilled s₀ (updateInfo s₀.frameInfos f.id id) f.references
        = some deps) (hm : Stored s₀.frameInfos f deps m')
      (hcont : m'[f.id]?.any (·.continuous) = true) {s₁ u}
      (hs₁ : (s₁, u) = (({ s₀ with frameInfos := m' } : FrameBuffer).propagateContinuity f.id).getD
        ({ s₀ with frameInfos := m' }, false)) :
      Accepted s₀ f s₁ true u

theorem insertAccepted_cases (s : FrameBuffer) (hv : validReferences f = true)
    (last : Int) (cleared : Bool) :
    ∃ s₀ jump, Base s s₀ jump ∧ (jump = true → firstKey s.frameInfos ≠ none) ∧
      (insertAccepted s f last cleared).2.cleared = (cleared || jump) ∧
      Accepted s₀ f (insertAccepted s f last cleared).1 (insertAccepted s f last cleared).2.success
        (insertAccepted s f last cleared).2.underflow := by
  set jump := (firstKey s.frameInfos).any (f.id < ·) && (lastKey s.frameInfos).any (· < f.id)
    with hjump
  set s₀ := if jump then s.clearFramesAndHistory else s with hs₀
  refine ⟨s₀, jump, ?_, ?_, ?_⟩
  · unfold Base
    rw [hs₀]
    cases jump with
    | true => exact Or.inr ⟨rfl, rfl⟩
    | false => exact Or.inl ⟨rfl, rfl⟩
  · intro hj hnone
    rw [hj, hnone] at hjump
    simp at hjump
  · unfold insertAccepted
    simp only [← hjump, ← hs₀]
    rcases emplaceFrameInfo_spec s₀ hv with hfail | ⟨deps, m', hdeps, heq, hm⟩
    · rw [hfail]
      exact ⟨rfl, .dropped⟩
    · rw [heq]
      simp only
      split
      · rename_i hcont
        exact ⟨rfl, .continuous hdeps hm hcont rfl⟩
      · rename_i hcont
        exact ⟨rfl, .waiting hdeps hm hcont⟩

/-- **Everything an insertion can do.**  Either nothing happens, or the frame, newer
than the last decoded one and with valid references, is accepted by the buffer as
it was or as it is after a clear. -/
theorem insertFrame_cases (s : FrameBuffer) (f : FrameToDecode) :
    (∃ r, s.insertFrame f = (s, r) ∧ r.success = false ∧ r.cleared = false ∧ r.underflow = false) ∨
    (validReferences f = true ∧
      ∃ s₀, Base s s₀ (s.insertFrame f).2.cleared ∧
        Above s₀.decodedFramesHistory.lastDecodedFrameId f.id ∧
        Accepted s₀ f (s.insertFrame f).1 (s.insertFrame f).2.success
          (s.insertFrame f).2.underflow) := by
  by_cases hv : validReferences f = true
  · have hclear : ∀ last, ∃ s₀, Base s s₀
      (insertAccepted s.clearFramesAndHistory f last true).2.cleared ∧
        Above s₀.decodedFramesHistory.lastDecodedFrameId f.id ∧
        Accepted s₀ f (insertAccepted s.clearFramesAndHistory f last true).1
          (insertAccepted s.clearFramesAndHistory f last true).2.success
          (insertAccepted s.clearFramesAndHistory f last true).2.underflow := by
      intro last
      obtain ⟨s₀, jump, hbase, hj, hcl, hacc⟩ :=
        insertAccepted_cases s.clearFramesAndHistory hv last true
      have hjump : jump = false := by
        by_contra h
        exact hj (by simpa using h) rfl
      subst hjump
      rcases hbase with ⟨rfl, -⟩ | ⟨-, h⟩
      · refine ⟨_, ?_, ?_, hacc⟩
        · rw [hcl]
          exact Or.inr ⟨rfl, rfl⟩
        · intro l hl
          cases hl
      · cases h
    unfold insertFrame
    simp only [hv, Bool.not_true, Bool.false_eq_true, if_false]
    by_cases hfull : kMaxFramesBuffered ≤ s.frameInfos.size
    · simp only [hfull, decide_true, Bool.true_and, if_true]
      split
      · exact Or.inl ⟨_, rfl, rfl, rfl, rfl⟩
      · refine Or.inr ⟨trivial, ?_⟩
        have hnone : s.clearFramesAndHistory.decodedFramesHistory.lastDecodedFrameId = none := rfl
        simp only [hnone, Option.any_none, Bool.false_eq_true, if_false]
        exact hclear _
    · simp only [hfull, decide_false, Bool.false_and, Bool.false_eq_true, if_false]
      split
      · split
        · exact Or.inr ⟨trivial, hclear _⟩
        · exact Or.inl ⟨_, rfl, rfl, rfl, rfl⟩
      · rename_i hnew
        refine Or.inr ⟨trivial, ?_⟩
        obtain ⟨s₀, jump, hbase, -, hcl, hacc⟩ :=
          insertAccepted_cases s hv (s.lastContinuousFrameId.getD (-1)) false
        refine ⟨s₀, ?_, ?_, hacc⟩
        · rw [hcl, Bool.false_or]
          exact hbase
        · rcases hbase with ⟨rfl, -⟩ | ⟨rfl, -⟩
          · exact (above_iff _ _).2 hnew
          · intro l hl
            cases hl
  · refine Or.inl ⟨{ lastContinuousFrameId := s.lastContinuousFrameId.getD (-1), success := false },
      ?_, rfl, rfl, rfl⟩
    unfold insertFrame
    simp [hv]

/-! ## Continuity counters aside -/

/-- The maps differ in the continuity counters at most. -/
def SameLinks (m m' : FrameInfoMap) : Prop :=
  ∃ c : Int → Nat, ∀ k : Int, m'[k]? = m[k]?.map fun i => { i with numMissingContinuous := c k }

theorem SameLinks.refl (m : FrameInfoMap) : SameLinks m m := by
  refine ⟨fun k => (m[k]?.getD {}).numMissingContinuous, fun k => ?_⟩
  cases h : m[k]? with
  | none => rfl
  | some i => simp [h]

theorem SameLinks.trans {m m' m'' : FrameInfoMap} (h : SameLinks m m') (h' : SameLinks m' m'') :
    SameLinks m m'' := by
  obtain ⟨c, hc⟩ := h
  obtain ⟨c', hc'⟩ := h'
  refine ⟨c', fun k => ?_⟩
  rw [hc', hc]
  cases m[k]? <;> rfl

theorem sameLinks_fulfil (p : Propagation) (id : Int) : SameLinks p.infos (fulfil p id).infos := by
  unfold fulfil
  cases hid : p.infos[id]? with
  | none => exact SameLinks.refl _
  | some info =>
    refine ⟨fun k => if k = id then decrement info.numMissingContinuous
      else (p.infos[k]?.getD {}).numMissingContinuous, fun k => ?_⟩
    simp only [getElem?_updateInfo]
    by_cases hk : k = id
    · subst hk
      simp [hid]
    · simp only [hk, if_false]
      cases h : p.infos[k]? with
      | none => rfl
      | some i => simp

theorem sameLinks_foldl_fulfil (p : Propagation) (ids : List Int) :
    SameLinks p.infos (ids.foldl fulfil p).infos := by
  induction ids generalizing p with
  | nil => exact SameLinks.refl _
  | cons id ids ih => exact (sameLinks_fulfil p id).trans (ih _)

theorem sameLinks_propagateLoop {fuel : Nat} {p p' : Propagation} {last last' : Option Int}
    (h : propagateLoop fuel p last = some (p', last')) : SameLinks p.infos p'.infos := by
  induction fuel generalizing p last with
  | zero =>
    rw [propagateLoop] at h
    split at h
    · cases h
      exact SameLinks.refl _
    · cases h
  | succ fuel ih =>
    rw [propagateLoop] at h
    split at h
    · cases h
      exact SameLinks.refl _
    · rename_i id queue _
      exact (sameLinks_foldl_fulfil { p with queue } _).trans (ih h)

theorem propagateContinuity_spec {s s₁ : FrameBuffer} {id : Int} {u : Bool}
    (h : (s₁, u) = (s.propagateContinuity id).getD (s, false)) :
    SameLinks s.frameInfos s₁.frameInfos ∧
      s₁.decodedFramesHistory = s.decodedFramesHistory ∧ s₁.frameToDecode = s.frameToDecode := by
  unfold propagateContinuity at h
  cases hr : propagateLoop (propagationFuel s.frameInfos) ⟨s.frameInfos, [id], false⟩
      s.lastContinuousFrameId with
  | none =>
    simp only [hr, Option.map_none, Option.getD_none, Prod.mk.injEq] at h
    rw [h.1]
    exact ⟨SameLinks.refl _, rfl, rfl⟩
  | some r =>
    simp only [hr, Option.map_some, Option.getD_some, Prod.mk.injEq] at h
    rw [h.1]
    exact ⟨sameLinks_propagateLoop hr, rfl, rfl⟩

/-! ## The invariant -/

/-- Frame `f` is buffered under `k`. -/
def Buffered (m : FrameInfoMap) (k : Int) (f : FrameToDecode) : Prop :=
  ∃ i, m[k]? = some i ∧ i.frame = some f

/-- **The links agree with the frames**: relative to the last decoded id and the ids
`done` decoded since the last clear. -/
structure Links (m : FrameInfoMap) (last : Option Int) (done : List Int) : Prop where
  above : ∀ (k : Int) (i : FrameInfo), m[k]? = some i → Above last k
  own : ∀ k f, Buffered m k f → f.id = k
  below : ∀ k f, Buffered m k f → ∀ r ∈ f.references, r < k
  /-- A reference newer than the last decoded id has an entry. -/
  present : ∀ k f, Buffered m k f → ∀ r ∈ f.references, Above last r → ∃ j, m[r]? = some j
  nodup : ∀ (k : Int) (i : FrameInfo), m[k]? = some i → i.dependentFrames.Nodup
  /-- The dependents of an entry are the buffered frames that refer to it. -/
  dependents : ∀ (r : Int) (j : FrameInfo), m[r]? = some j → ∀ d, d ∈ j.dependentFrames ↔
    ∃ f, Buffered m d f ∧ r ∈ f.references
  /-- The counter counts the references that were not decoded. -/
  missing : ∀ (k : Int) (i : FrameInfo) f, m[k]? = some i → i.frame = some f →
    i.numMissingDecodable = f.references.countP (· ∉ done)

theorem links_empty (last : Option Int) (done : List Int) : Links ∅ last done := by
  constructor <;> simp [Buffered]

theorem buffered_of_sameLinks {m m' : FrameInfoMap} (h : SameLinks m m') {k : Int} :
    Buffered m' k f ↔ Buffered m k f := by
  obtain ⟨c, hc⟩ := h
  unfold Buffered
  rw [hc]
  constructor
  · rintro ⟨i, hi, hf⟩
    obtain ⟨j, hj, rfl⟩ := Option.map_eq_some_iff.1 hi
    exact ⟨j, hj, hf⟩
  · rintro ⟨i, hi, hf⟩
    exact ⟨{ i with numMissingContinuous := c k }, by rw [hi]; rfl, hf⟩

theorem Links.of_sameLinks {m m' : FrameInfoMap} {last : Option Int} {done : List Int}
    (hl : Links m last done) (h : SameLinks m m') : Links m' last done := by
  have hb := fun k f => buffered_of_sameLinks h (k := k) (f := f)
  obtain ⟨c, hc⟩ := h
  have hsome : ∀ (k : Int) (i' : FrameInfo), m'[k]? = some i' →
      ∃ i, m[k]? = some i ∧ i' = { i with numMissingContinuous := c k } := by
    intro k i' hi'
    rw [hc] at hi'
    obtain ⟨i, hi, rfl⟩ := Option.map_eq_some_iff.1 hi'
    exact ⟨i, hi, rfl⟩
  refine ⟨?_, ?_, ?_, ?_, ?_, ?_, ?_⟩
  · intro k i' hi'
    obtain ⟨i, hi, -⟩ := hsome k i' hi'
    exact hl.above k i hi
  · exact fun k f hf => hl.own k f ((hb k f).1 hf)
  · exact fun k f hf => hl.below k f ((hb k f).1 hf)
  · intro k f hf r hr ha
    obtain ⟨j, hj⟩ := hl.present k f ((hb k f).1 hf) r hr ha
    exact ⟨{ j with numMissingContinuous := c r }, by rw [hc, hj]; rfl⟩
  · intro k i' hi'
    obtain ⟨i, hi, rfl⟩ := hsome k i' hi'
    exact hl.nodup k i hi
  · intro r j' hj' d
    obtain ⟨j, hj, rfl⟩ := hsome r j' hj'
    simp only [hb]
    exact hl.dependents r j hj d
  · intro k i' f hi' hf
    obtain ⟨i, hi, rfl⟩ := hsome k i' hi'
    exact hl.missing k i f hi hf

/-! ### Storing a frame -/

section Storing

variable {m m' : FrameInfoMap} {last : Option Int} {done : List Int} {f : FrameToDecode} {k : Int}
  {g : FrameToDecode}

theorem Links.not_referred (hl : Links m last done) (hk : m[k]? = none)
    (ha : Above last k) {d : Int} (hg : Buffered m d g) : k ∉ g.references := by
  intro hmem
  obtain ⟨j, hj⟩ := hl.present d g hg k hmem ha
  rw [hk] at hj
  cases hj

theorem Links.touch (hl : Links m last done) (ha : Above last f.id) :
    Links (updateInfo m f.id id) last done := by
  have hget : ∀ k : Int, (updateInfo m f.id id)[k]? = if k =
    f.id then some (m[k]?.getD {}) else m[k]? :=
    fun k => getElem?_updateInfo m f.id k id
  cases hm : m[f.id]? with
  | some i =>
    have hsame : SameLinks m (updateInfo m f.id id) := by
      have : ∀ k : Int, (updateInfo m f.id id)[k]? = m[k]? := by
        intro k
        rw [hget]
        split
        · rename_i hk
          rw [hk, hm]
          rfl
        · rfl
      obtain ⟨c, hc⟩ := SameLinks.refl m
      exact ⟨c, fun k => (this k).trans (hc k)⟩
    exact hl.of_sameLinks hsame
  | none =>
    have hget' : ∀ (k : Int) (i : FrameInfo), (updateInfo m f.id id)[k]? = some i →
        (k = f.id ∧ i = {}) ∨ m[k]? = some i := by
      intro k i hi
      rw [hget] at hi
      split at hi
      · rename_i hk
        rw [hk, hm] at hi
        exact Or.inl ⟨hk, (Option.some.inj hi).symm⟩
      · exact Or.inr hi
    have hkeep : ∀ (k : Int) (i : FrameInfo), m[k]? = some i →
      (updateInfo m f.id id)[k]? = some i := by
      intro k i hi
      rw [hget, if_neg ?_]
      · exact hi
      · rintro rfl
        rw [hm] at hi
        cases hi
    have hb : ∀ k g, Buffered (updateInfo m f.id id) k g ↔ Buffered m k g := by
      intro k g
      constructor
      · rintro ⟨i, hi, hg⟩
        rcases hget' k i hi with ⟨-, rfl⟩ | hi
        · cases hg
        · exact ⟨i, hi, hg⟩
      · rintro ⟨i, hi, hg⟩
        exact ⟨i, hkeep k i hi, hg⟩
    refine ⟨?_, ?_, ?_, ?_, ?_, ?_, ?_⟩
    · intro k i hi
      rcases hget' k i hi with ⟨rfl, -⟩ | hi
      · exact ha
      · exact hl.above k i hi
    · exact fun k g hg => hl.own k g ((hb k g).1 hg)
    · exact fun k g hg => hl.below k g ((hb k g).1 hg)
    · intro k g hg r hr har
      obtain ⟨j, hj⟩ := hl.present k g ((hb k g).1 hg) r hr har
      exact ⟨j, hkeep r j hj⟩
    · intro k i hi
      rcases hget' k i hi with ⟨-, rfl⟩ | hi
      · exact List.nodup_nil
      · exact hl.nodup k i hi
    · intro r j hj d
      simp only [hb]
      rcases hget' r j hj with ⟨rfl, rfl⟩ | hj
      · refine iff_of_false List.not_mem_nil ?_
        rintro ⟨g, hg, hr⟩
        exact hl.not_referred hm ha hg hr
      · exact hl.dependents r j hj d
    · intro k i g hi hg
      rcases hget' k i hi with ⟨-, rfl⟩ | hi
      · cases hg
      · exact hl.missing k i g hi hg

variable {deps : List (Int × Bool)}

theorem Stored.cases (hm : Stored m f deps m') {i' : FrameInfo} (hi' : m'[k]? = some i') :
    (k = f.id ∧ i'.frame = some f ∧ i'.numMissingDecodable = deps.length ∧
      i'.dependentFrames = (m[f.id]?.getD {}).dependentFrames) ∨
    (k ≠ f.id ∧ i'.frame = (m[k]?.getD {}).frame ∧
      i'.numMissingDecodable = (m[k]?.getD {}).numMissingDecodable ∧
      i'.numMissingContinuous = (m[k]?.getD {}).numMissingContinuous ∧
      ((k ∈ deps.map Prod.fst ∧
          i'.dependentFrames = (m[k]?.getD {}).dependentFrames ++ [f.id]) ∨
        (k ∉ deps.map Prod.fst ∧ m[k]? = some i'))) := by
  by_cases hk : k = f.id
  · subst hk
    rw [hm.own] at hi'
    cases hi'
    exact Or.inl ⟨rfl, rfl, rfl, rfl⟩
  · refine Or.inr ⟨hk, ?_⟩
    by_cases hd : k ∈ deps.map Prod.fst
    · rw [hm.linked k hd] at hi'
      cases hi'
      exact ⟨rfl, rfl, rfl, Or.inl ⟨hd, rfl⟩⟩
    · rw [hm.other k hk hd] at hi'
      rw [hi']
      exact ⟨rfl, rfl, rfl, Or.inr ⟨hd, rfl⟩⟩

theorem Stored.isSome (hm : Stored m f deps m')
    (h : k = f.id ∨ k ∈ deps.map Prod.fst ∨ ∃ i, m[k]? = some i) : ∃ i', m'[k]? = some i' := by
  by_cases hk : k = f.id
  · exact ⟨_, hk ▸ hm.own⟩
  · by_cases hd : k ∈ deps.map Prod.fst
    · exact ⟨_, hm.linked k hd⟩
    · rcases h with h | h | ⟨i, hi⟩
      · exact absurd h hk
      · exact absurd h hd
      · exact ⟨i, by rw [hm.other k hk hd, hi]⟩

theorem Stored.buffered_iff (hm : Stored m f deps m') :
    Buffered m' k g ↔ (k = f.id ∧ g = f) ∨ Buffered m k g := by
  constructor
  · rintro ⟨i', hi', hg⟩
    rcases hm.cases hi' with ⟨rfl, hf, -⟩ | ⟨-, hf, -⟩
    · rw [hf] at hg
      exact Or.inl ⟨rfl, (Option.some.inj hg).symm⟩
    · rw [hf] at hg
      cases hk : m[k]? with
      | none =>
        rw [hk] at hg
        cases hg
      | some i =>
        rw [hk] at hg
        exact Or.inr ⟨i, hk, hg⟩
  · rintro (⟨rfl, rfl⟩ | ⟨i, hi, hg⟩)
    · exact ⟨_, hm.own, rfl⟩
    · have hk : k ≠ f.id := by
        rintro rfl
        rw [hm.vacant i hi] at hg
        cases hg
      obtain ⟨i', hi'⟩ := hm.isSome (Or.inr (Or.inr ⟨i, hi⟩))
      rcases hm.cases hi' with ⟨h, -⟩ | ⟨-, hf, -⟩
      · exact absurd h hk
      · exact ⟨i', hi', by rw [hf, hi]; exact hg⟩

theorem Stored.keeps (hm : Stored m f deps m') {i : FrameInfo}
    (hi : m[k]? = some i) (hg : i.frame = some g) :
    ∃ i', m'[k]? = some i' ∧ i'.frame = some g ∧ i'.numMissingDecodable = i.numMissingDecodable ∧
      i'.numMissingContinuous = i.numMissingContinuous := by
  have hk : k ≠ f.id := by
    rintro rfl
    rw [hm.vacant i hi] at hg
    cases hg
  obtain ⟨i', hi'⟩ := hm.isSome (Or.inr (Or.inr ⟨i, hi⟩))
  rcases hm.cases hi' with ⟨h, -⟩ | ⟨-, hf, hd, hc, -⟩
  · exact absurd h hk
  · rw [hi] at hf hd hc
    exact ⟨i', hi', hf.trans hg, hd, hc⟩

theorem Stored.not_dependent (hm : Stored m f deps m') (hl : Links m last done) {i : FrameInfo}
    (hi : m[k]? = some i) : f.id ∉ i.dependentFrames := by
  intro hmem
  obtain ⟨g, ⟨j, hj, hg⟩, -⟩ := (hl.dependents k i hi f.id).1 hmem
  rw [hm.vacant j hj] at hg
  cases hg

theorem Stored.nodup (hm : Stored m f deps m') (hl : Links m last done) {i' : FrameInfo}
    (hi' : m'[k]? = some i') : i'.dependentFrames.Nodup := by
  rcases hm.cases hi' with ⟨rfl, -, -, hd⟩ | ⟨-, -, -, -, ⟨-, hd⟩ | ⟨-, hi⟩⟩
  · rw [hd]
    cases hk : m[f.id]? with
    | none => exact List.nodup_nil
    | some i => exact hl.nodup _ i hk
  · rw [hd]
    cases hk : m[k]? with
    | none => exact List.pairwise_singleton _ _
    | some i =>
      refine List.nodup_append.2 ⟨hl.nodup k i hk, List.pairwise_singleton _ _, ?_⟩
      rintro x hx y hy rfl
      rw [List.mem_singleton.1 hy] at hx
      exact hm.not_dependent hl hk hx
  · exact hl.nodup k i' hi

theorem Stored.referred_iff (hm : Stored m f deps m') (r d : Int) :
    (∃ g, Buffered m' d g ∧ r ∈ g.references) ↔
      (d = f.id ∧ r ∈ f.references) ∨ ∃ g, Buffered m d g ∧ r ∈ g.references := by
  constructor
  · rintro ⟨g, hg, hr⟩
    rcases hm.buffered_iff.1 hg with ⟨rfl, rfl⟩ | hg
    · exact Or.inl ⟨rfl, hr⟩
    · exact Or.inr ⟨g, hg, hr⟩
  · rintro (⟨rfl, hr⟩ | ⟨g, hg, hr⟩)
    · exact ⟨f, hm.buffered_iff.2 (Or.inl ⟨rfl, rfl⟩), hr⟩
    · exact ⟨g, hm.buffered_iff.2 (Or.inr hg), hr⟩

theorem Stored.above (hm : Stored m f deps m') (hl : Links m last done) (ha : Above last f.id)
    (hdeps : ∀ r, r ∈ deps.map Prod.fst ↔ r ∈ f.references ∧ Above last r) {i' : FrameInfo}
    (hi' : m'[k]? = some i') : Above last k := by
  rcases hm.cases hi' with ⟨rfl, -⟩ | ⟨-, -, -, -, ⟨hd, -⟩ | ⟨-, hi⟩⟩
  · exact ha
  · exact ((hdeps k).1 hd).2
  · exact hl.above k i' hi

theorem Stored.dependents (hm : Stored m f deps m') (hl : Links m last done) (ha : Above last f.id)
    (hbelow : ∀ r ∈ f.references, r < f.id)
    (hdeps : ∀ r, r ∈ deps.map Prod.fst ↔ r ∈ f.references ∧ Above last r) {r : Int}
    {j' : FrameInfo} (hj' : m'[r]? = some j') (d : Int) :
    d ∈ j'.dependentFrames ↔ ∃ g, Buffered m' d g ∧ r ∈ g.references := by
  -- the old dependents of `r`, or none if `r` is new to the map
  have hold : d ∈ (m[r]?.getD {}).dependentFrames ↔ ∃ g, Buffered m d g ∧ r ∈ g.references := by
    cases hr : m[r]? with
    | none =>
      refine iff_of_false List.not_mem_nil ?_
      rintro ⟨g, hg, hmem⟩
      exact hl.not_referred hr (hm.above hl ha hdeps hj') hg hmem
    | some j => exact hl.dependents r j hr d
  rw [hm.referred_iff]
  rcases hm.cases hj' with ⟨rfl, -, -, hd⟩ | ⟨hne, -, -, -, ⟨hmem, hd⟩ | ⟨hmem, hj⟩⟩
  · rw [hd, hold]
    have : f.id ∉ f.references := fun h => absurd (hbelow _ h) (lt_irrefl _)
    simp [this]
  · rw [hd, List.mem_append, List.mem_singleton, hold]
    have := ((hdeps r).1 hmem).1
    simp [this, or_comm]
  · have hnot : r ∉ f.references := by
      intro h
      exact hmem ((hdeps r).2 ⟨h, hl.above r j' hj⟩)
    rw [hj, Option.getD_some] at hold
    rw [hold]
    simp [hnot]

theorem Links.stored (hl : Links m last done) (hm : Stored m f deps m') (ha : Above last f.id)
    (hbelow : ∀ r ∈ f.references, r < f.id)
    (hdeps : ∀ r, r ∈ deps.map Prod.fst ↔ r ∈ f.references ∧ Above last r)
    (hlen : deps.length = f.references.countP (· ∉ done)) : Links m' last done := by
  refine ⟨fun k i' hi' => hm.above hl ha hdeps hi', ?_, ?_, ?_, fun k i' hi' => hm.nodup hl hi',
    fun r j' hj' => hm.dependents hl ha hbelow hdeps hj', ?_⟩
  · intro k g hg
    rcases hm.buffered_iff.1 hg with ⟨rfl, rfl⟩ | hg
    · rfl
    · exact hl.own k g hg
  · intro k g hg
    rcases hm.buffered_iff.1 hg with ⟨rfl, rfl⟩ | hg
    · exact hbelow
    · exact hl.below k g hg
  · intro k g hg r hr har
    rcases hm.buffered_iff.1 hg with ⟨rfl, rfl⟩ | hg
    · exact hm.isSome (Or.inr (Or.inl ((hdeps r).2 ⟨hr, har⟩)))
    · exact hm.isSome (Or.inr (Or.inr (hl.present k g hg r hr har)))
  · intro k i' g hi' hg
    rcases hm.cases hi' with ⟨rfl, hf, hd, -⟩ | ⟨-, hf, hd, -⟩
    · rw [hf] at hg
      cases hg
      rw [hd, hlen]
    · rw [hf] at hg
      rw [hd]
      cases hk : m[k]? with
      | none =>
        rw [hk] at hg
        cases hg
      | some i =>
        rw [hk] at hg
        exact hl.missing k i g hk hg

end Storing

/-! ### Decoding a frame -/

theorem countP_not_mem_append {refs done : List Int} (hnd : refs.Nodup) {id : Int}
    (hid : id ∉ done) :
    refs.countP (· ∉ done) = refs.countP (· ∉ done ++ [id]) + if id ∈ refs then 1 else 0 := by
  induction refs with
  | nil => simp
  | cons r refs ih =>
    obtain ⟨hr, hnd'⟩ := List.nodup_cons.1 hnd
    specialize ih hnd'
    rw [List.countP_cons, List.countP_cons, ih]
    by_cases h : r = id
    · subst h
      rw [if_neg hr, if_pos List.mem_cons_self, if_pos (by simpa using hid), if_neg (by simp)]
    · have hmem : id ∈ r :: refs ↔ id ∈ refs := by simp [Ne.symm h]
      have hdec : (decide (r ∉ done) = true) ↔ (decide (r ∉ done ++ [id]) = true) := by simp [h]
      simp only [hmem, hdec]
      omega

theorem getElem?_propagateDecodability (m : FrameInfoMap) {ids : List Int} (hnd : ids.Nodup)
    (k : Int) :
    (propagateDecodability m ids)[k]? = m[k]?.map fun i =>
      if k ∈ ids then { i with numMissingDecodable := i.numMissingDecodable - 1 } else i := by
  unfold propagateDecodability
  induction ids generalizing m with
  | nil => simp
  | cons id ids ih =>
    obtain ⟨hid, hnd'⟩ := List.nodup_cons.1 hnd
    rw [List.foldl_cons, ih _ hnd']
    by_cases hk : k = id
    · subst hk
      cases hm : m[k]? with
      | none => simp [hm]
      | some i =>
        by_cases hpos : 0 < i.numMissingDecodable
        · simp [hpos, getElem?_updateInfo, hm, hid]
        · have hzero : i.numMissingDecodable = 0 := by omega
          simp [hm, hid, hzero]
          cases i
          simp_all
    · have hsame : (if (m[id]?.any fun x => decide (0 < x.numMissingDecodable)) = true then
          updateInfo m id fun i => { i with numMissingDecodable := i.numMissingDecodable - 1 }
          else m)[k]? = m[k]? := by
        split
        · rw [getElem?_updateInfo, if_neg hk]
        · rfl
      rw [hsame]
      simp [hk]

/-- The map after a frame with the dependents `ids` was handed out. -/
structure HandedOut (m : FrameInfoMap) (id : Int) (ids : List Int) (m' : FrameInfoMap) : Prop where
  cases : ∀ (k : Int) (i' : FrameInfo), m'[k]? = some i' →
    id < k ∧ ∃ i, m[k]? = some i ∧ i'.frame = i.frame ∧ i'.dependentFrames = i.dependentFrames ∧
      i'.numMissingDecodable = if k ∈ ids then i.numMissingDecodable - 1 else i.numMissingDecodable
  kept : ∀ (k : Int) (i : FrameInfo), id < k → m[k]? = some i →
    ∃ i', m'[k]? = some i' ∧ i'.frame = i.frame

theorem handedOut (m : FrameInfoMap) (id : Int) {ids : List Int} (hnd : ids.Nodup) :
    HandedOut m id ids (eraseUpTo (propagateDecodability m ids) id) := by
  have hget : ∀ k : Int, (eraseUpTo (propagateDecodability m ids) id)[k]?
      = if id < k then m[k]?.map fun i => if k ∈ ids then
          { i with numMissingDecodable := i.numMissingDecodable - 1 } else i else none := by
    intro k
    rw [getElem?_eraseUpTo, getElem?_propagateDecodability m hnd]
  refine ⟨?_, ?_⟩
  · intro k i' hi'
    rw [hget] at hi'
    split at hi'
    · rename_i hk
      obtain ⟨i, hi, rfl⟩ := Option.map_eq_some_iff.1 hi'
      refine ⟨hk, i, hi, ?_⟩
      split
      · exact ⟨rfl, rfl, rfl⟩
      · exact ⟨rfl, rfl, rfl⟩
    · cases hi'
  · intro k i hk hi
    refine ⟨_, by rw [hget, if_pos hk, hi, Option.map_some], ?_⟩
    split
    · rfl
    · rfl

theorem HandedOut.buffered_iff {m m' : FrameInfoMap} {id : Int} {ids : List Int}
    (h : HandedOut m id ids m') {k : Int} {g : FrameToDecode} :
    Buffered m' k g ↔ id < k ∧ Buffered m k g := by
  constructor
  · rintro ⟨i', hi', hg⟩
    obtain ⟨hk, i, hi, hf, -⟩ := h.cases k i' hi'
    exact ⟨hk, i, hi, hf ▸ hg⟩
  · rintro ⟨hk, i, hi, hg⟩
    obtain ⟨i', hi', hf⟩ := h.kept k i hk hi
    exact ⟨i', hi', hf.trans hg⟩

theorem HandedOut.missing {m m' : FrameInfoMap} {last : Option Int} {done : List Int} {id : Int}
    {info : FrameInfo} (h : HandedOut m id info.dependentFrames m') (hl : Links m last done)
    (hinfo : m[id]? = some info) (hdone : id ∉ done) {k : Int} {i' : FrameInfo} {g : FrameToDecode}
    (hi' : m'[k]? = some i') (hg : i'.frame = some g) :
    i'.numMissingDecodable = g.references.countP (· ∉ done ++ [id]) := by
  obtain ⟨hk, i, hi, hf, -, hd⟩ := h.cases k i' hi'
  rw [hf] at hg
  have hcount := hl.missing k i g hi hg
  have hdep : k ∈ info.dependentFrames ↔ id ∈ g.references := by
    rw [hl.dependents id info hinfo k]
    constructor
    · rintro ⟨g', ⟨i₁, hi₁, hg₁⟩, hmem⟩
      rw [hi] at hi₁
      cases hi₁
      rw [hg] at hg₁
      cases hg₁
      exact hmem
    · exact fun hmem => ⟨g, ⟨i, hi, hg⟩, hmem⟩
  have hstep := countP_not_mem_append g.nodup hdone
  rw [hd, hcount]
  simp only [hdep]
  split
  · rename_i hmem
    rw [if_pos hmem] at hstep
    omega
  · rename_i hmem
    rw [if_neg hmem] at hstep
    omega

theorem Links.decoded {m : FrameInfoMap} {last : Option Int} {done : List Int} {id : Int}
    {info : FrameInfo} (hl : Links m last done) (hinfo : m[id]? = some info)
    (hdone : id ∉ done) :
    Links (eraseUpTo (propagateDecodability m info.dependentFrames) id) (some id)
    (done ++ [id]) := by
  have hout := handedOut m id (hl.nodup id info hinfo)
  generalize eraseUpTo (propagateDecodability m info.dependentFrames) id = m' at hout
  refine ⟨?_, fun k g hg => hl.own k g (hout.buffered_iff.1 hg).2,
    fun k g hg => hl.below k g (hout.buffered_iff.1 hg).2, ?_, ?_, ?_,
    fun k i' g hi' hg => hout.missing hl hinfo hdone hi' hg⟩
  · intro k i' hi' l hl'
    cases hl'
    exact (hout.cases k i' hi').1
  · intro k g hg r hr har
    have hr' : id < r := har id rfl
    have hold : Above last r := by
      intro l hl'
      have := hl.above id info hinfo l hl'
      omega
    obtain ⟨j, hj⟩ := hl.present k g (hout.buffered_iff.1 hg).2 r hr hold
    obtain ⟨j', hj', -⟩ := hout.kept r j hr' hj
    exact ⟨j', hj'⟩
  · intro k i' hi'
    obtain ⟨-, i, hi, -, hd, -⟩ := hout.cases k i' hi'
    rw [hd]
    exact hl.nodup k i hi
  · intro r j' hj' d
    obtain ⟨hr, j, hj, -, hd, -⟩ := hout.cases r j' hj'
    rw [hd, hl.dependents r j hj d]
    simp only [hout.buffered_iff]
    constructor
    · rintro ⟨g, hg, hmem⟩
      have := hl.below d g hg r hmem
      exact ⟨g, ⟨by omega, hg⟩, hmem⟩
    · rintro ⟨g, ⟨-, hg⟩, hmem⟩
      exact ⟨g, hg, hmem⟩

end NaiveRtc.Jitter
