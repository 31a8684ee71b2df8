import NaiveRtc.Jitter.FrameBufferLinks

/-!
# Frames leave in order and after their references

What the buffer keeps true over any run of its calls, and what follows for the
frames it hands out.

* `BufferInv` — the history is the set of decoded ids and the links agree with it;
  kept by `BufferInv.insertFrame` and `BufferInv.getNextFrameToDecode`.
* `findNextFrameToDecode_spec` — only a decodable frame is chosen.
* `decode_safety` — over any run the frames handed out between two clears have
  increasing ids, every reference was handed out before, and every buffered id is
  newer than the last decoded one.
-/

namespace NaiveRtc.Jitter

open WrapAround FrameBuffer

/-! ## The invariant of the buffer -/

/-- **The invariant of the buffer**, relative to the ids decoded since the last clear. -/
structure BufferInv (s : FrameBuffer) (done : List Int) : Prop where
  history : s.decodedFramesHistory.Remembers done
  window : s.decodedFramesHistory.windowSize = kMaxFramesHistory
  links : Links s.frameInfos s.decodedFramesHistory.lastDecodedFrameId done

theorem bufferInv_create : BufferInv .create [] where
  history := DecodedFramesHistory.remembers_create _
  window := rfl
  links := links_empty _ _

variable {s : FrameBuffer} {done : List Int}

theorem BufferInv.clear (h : BufferInv s done) :
    BufferInv s.clearFramesAndHistory [] where
  history := DecodedFramesHistory.remembers_clear (by rw [h.window]; decide)
    (by rw [h.window]; decide)
  window := h.window
  links := links_empty _ _

theorem BufferInv.indexed (h : BufferInv s done) (id : Int) :
    s.decodedFramesHistory.Indexed id :=
  DecodedFramesHistory.indexed_of_dvd (by rw [h.window]; decide) (by rw [h.window]; decide) id

theorem BufferInv.not_above (h : BufferInv s done) {d : Int}
    (hd : d ∈ done) : ¬ Above s.decodedFramesHistory.lastDecodedFrameId d := by
  intro ha
  cases hlast : s.decodedFramesHistory.lastDecodedFrameId with
  | none =>
    rw [h.history.last, List.getLast?_eq_none_iff] at hlast
    rw [hlast] at hd
    exact absurd hd List.not_mem_nil
  | some l =>
    have := h.history.le_last hlast hd
    have := ha l hlast
    omega

section Accepting

variable {s₀ : FrameBuffer} {done : List Int} {f : FrameToDecode} {deps : List (Int × Bool)}

theorem BufferInv.mem_deps (h : BufferInv s₀ done) {infos : FrameInfoMap}
    (hdeps : notYetFulfilled s₀ infos f.references = some deps) :
    (∀ r, r ∈ deps.map Prod.fst ↔
      r ∈ f.references ∧ Above s₀.decodedFramesHistory.lastDecodedFrameId r) ∧
    (∀ r ∈ f.references, Above s₀.decodedFramesHistory.lastDecodedFrameId r ↔ r ∉ done) := by
  obtain ⟨hfst, hdec, -⟩ := notYetFulfilled_spec hdeps
  constructor
  · intro r
    rw [hfst, List.mem_filter, above_iff]
    simp
  · intro r hr
    constructor
    · exact fun ha hmem => h.not_above hmem ha
    · intro hnot
      rw [above_iff]
      intro hold
      exact hnot ((DecodedFramesHistory.wasDecoded_iff h.history (h.indexed r)).1 (hdec r hr hold)).1

theorem BufferInv.length_deps (h : BufferInv s₀ done) {infos : FrameInfoMap}
    (hdeps : notYetFulfilled s₀ infos f.references = some deps) :
    deps.length = f.references.countP (· ∉ done) := by
  have hfst := (notYetFulfilled_spec hdeps).1
  have hiff := (h.mem_deps hdeps).2
  rw [← List.length_map (f := Prod.fst), hfst, ← List.countP_eq_length_filter]
  refine List.countP_congr ?_
  intro r hr
  have := hiff r hr
  rw [above_iff] at this
  simpa using this

theorem BufferInv.links_stored (h : BufferInv s₀ done) (hv : validReferences f = true)
    (ha : Above s₀.decodedFramesHistory.lastDecodedFrameId f.id) {infos m' : FrameInfoMap}
    (hdeps : notYetFulfilled s₀ infos f.references = some deps)
    (hm : Stored s₀.frameInfos f deps m') :
    Links m' s₀.decodedFramesHistory.lastDecodedFrameId done :=
  h.links.stored hm ha (fun _ hr => lt_of_mem_references hv hr) (h.mem_deps hdeps).1
    (h.length_deps hdeps)

/-- A frame that belongs in the buffer keeps the invariant, and leaves the frames
already there and the choice alone. -/
theorem BufferInv.accepted (h : BufferInv s₀ done) (hv : validReferences f = true)
    (ha : Above s₀.decodedFramesHistory.lastDecodedFrameId f.id) {s' : FrameBuffer} {ok u : Bool}
    (hacc : Accepted s₀ f s' ok u) :
    BufferInv s' done ∧ s'.frameToDecode = s₀.frameToDecode ∧
      ∀ (k : Int) (i : FrameInfo) g, s₀.frameInfos[k]? = some i → i.frame = some g →
        ∃ i', s'.frameInfos[k]? = some i' ∧ i'.frame = some g ∧
          i'.numMissingDecodable = i.numMissingDecodable := by
  have hkeep : ∀ {deps m'}, Stored s₀.frameInfos f deps m' → ∀ (k : Int) (i : FrameInfo) g,
      s₀.frameInfos[k]? = some i → i.frame = some g →
        ∃ i', m'[k]? = some i' ∧ i'.frame = some g ∧
          i'.numMissingDecodable = i.numMissingDecodable := by
    intro deps m' hm k i g hi hg
    obtain ⟨i', hi', hf, hd, -⟩ := hm.keeps hi hg
    exact ⟨i', hi', hf, hd⟩
  cases hacc with
  | dropped =>
    refine ⟨⟨h.history, h.window, h.links.touch ha⟩, rfl, ?_⟩
    intro k i g hi hg
    refine ⟨i, ?_, hg, rfl⟩
    simp only [getElem?_updateInfo, hi, Option.getD_some, id_eq, ite_self]
  | waiting hdeps hm hcont =>
    exact ⟨⟨h.history, h.window, h.links_stored hv ha hdeps hm⟩, rfl, hkeep hm⟩
  | continuous hdeps hm hcont hs₁ =>
    obtain ⟨hsame, hhist, hftd⟩ := propagateContinuity_spec hs₁
    refine ⟨⟨?_, ?_, ?_⟩, hftd, ?_⟩
    · rw [hhist]
      exact h.history
    · rw [hhist]
      exact h.window
    · rw [hhist]
      exact (h.links_stored hv ha hdeps hm).of_sameLinks hsame
    · intro k i g hi hg
      obtain ⟨i', hi', hf, hd⟩ := hkeep hm k i g hi hg
      obtain ⟨c, hc⟩ := hsame
      refine ⟨{ i' with numMissingContinuous := c k }, ?_, hf, hd⟩
      rw [hc]
      simp only [hi', Option.map_some]

end Accepting

theorem BufferInv.insertFrame (h : BufferInv s done) (f : FrameToDecode) :
    BufferInv (s.insertFrame f).1 (if (s.insertFrame f).2.cleared then [] else done) ∧
    ((s.insertFrame f).2.cleared = true → (s.insertFrame f).1.frameToDecode = none) ∧
    ((s.insertFrame f).2.cleared = false →
      (s.insertFrame f).1.frameToDecode = s.frameToDecode ∧
      ∀ (k : Int) (i : FrameInfo) g, s.frameInfos[k]? = some i → i.frame = some g →
        ∃ i', (s.insertFrame f).1.frameInfos[k]? = some i' ∧ i'.frame = some g ∧
          i'.numMissingDecodable = i.numMissingDecodable) := by
  rcases insertFrame_cases s f with ⟨r, heq, -, hcl, -⟩ | ⟨hv, s₀, hbase, ha, hacc⟩
  · rw [heq]
    simp only [hcl, Bool.false_eq_true, if_false, false_implies, true_and, forall_const]
    exact ⟨h, fun k i g hi hg => ⟨i, hi, hg, rfl⟩⟩
  · rcases hbase with ⟨rfl, hcl⟩ | ⟨rfl, hcl⟩
    · obtain ⟨hinv, hftd, hkeep⟩ := h.accepted hv ha hacc
      simp only [hcl, Bool.false_eq_true, if_false, false_implies, true_and, forall_const]
      exact ⟨hinv, hftd, hkeep⟩
    · obtain ⟨hinv, hftd, -⟩ := h.clear.accepted hv ha hacc
      simp only [hcl, if_true, forall_const, Bool.true_eq_false, false_implies, and_true]
      exact ⟨hinv, hftd⟩

theorem findLoop_spec (s : FrameBuffer) (keyframeRequired : Bool) (wait : Int → Int)
    {entries : List (Int × FrameInfo)} {found : Option Int × Int} {k : Int}
    (h : (findLoop s keyframeRequired wait entries found).1 = some k) :
    found.1 = some k ∨ ∃ i, (k, i) ∈ entries ∧ s.decodable keyframeRequired i = true := by
  induction entries generalizing found with
  | nil => exact Or.inl h
  | cons e entries ih =>
    obtain ⟨id, info⟩ := e
    have hskip : ∀ found', (findLoop s keyframeRequired wait entries found').1 = some k →
        found'.1 = some k ∨ ∃ i, (k, i) ∈ (id, info) :: entries ∧
          s.decodable keyframeRequired i = true := by
      intro found' h'
      rcases ih h' with hf | ⟨i, hi, hd⟩
      · exact Or.inl hf
      · exact Or.inr ⟨i, List.mem_cons_of_mem _ hi, hd⟩
    have hhere : s.decodable keyframeRequired info = true → some id = some k →
        ∃ i, (k, i) ∈ (id, info) :: entries ∧ s.decodable keyframeRequired i = true := by
      intro hd hk
      cases hk
      exact ⟨info, List.mem_cons_self, hd⟩
    rw [findLoop] at h
    split at h
    · split at h
      · rename_i hd
        split at h
        · rcases hskip _ h with hf | hf
          · exact Or.inr (hhere hd hf)
          · exact Or.inr hf
        · exact Or.inr (hhere hd h)
      · exact hskip _ h
    · exact Or.inl h

theorem decodable_spec {keyframeRequired : Bool} {i : FrameInfo}
    (h : s.decodable keyframeRequired i = true) :
    ∃ f, i.frame = some f ∧ i.continuous = true ∧ i.numMissingDecodable = 0 := by
  unfold decodable at h
  cases hf : i.frame with
  | none => simp [hf] at h
  | some f =>
    simp only [hf, Bool.and_eq_true, beq_iff_eq] at h
    exact ⟨f, rfl, h.1.1.1, h.1.1.2⟩

theorem findNextFrameToDecode_spec {keyframeRequired : Bool} {maxWait : Int}
    {wait : Int → Int} {k : Int}
    (h : (s.findNextFrameToDecode keyframeRequired maxWait wait).1.frameToDecode = some (some k)) :
    ∃ i f, s.frameInfos[k]? = some i ∧ i.frame = some f ∧ i.continuous = true ∧
      i.numMissingDecodable = 0 := by
  unfold findNextFrameToDecode at h
  simp only [Option.map_eq_some_iff, Option.some.injEq, exists_eq_right] at h
  rcases findLoop_spec s keyframeRequired wait h with hf | ⟨i, hi, hd⟩
  · cases hf
  · obtain ⟨f, hf, hc, hm⟩ := decodable_spec hd
    exact ⟨i, f, Std.TreeMap.mem_toList_iff_getElem?_eq_some.1 hi, hf, hc, hm⟩

theorem BufferInv.getNextFrameToDecode (h : BufferInv s done)
    {id : Int} {info : FrameInfo} {f : FrameToDecode} (hinfo : s.frameInfos[id]? = some info)
    (hf : info.frame = some f) (hzero : info.numMissingDecodable = 0) :
    BufferInv (s.getNextFrameToDecode id info f) (done ++ [f.id]) ∧
      s.decodedFramesHistory.insertAssertion f.id = true ∧ ∀ r ∈ f.references, r ∈ done := by
  have hid : f.id = id := h.links.own id f ⟨info, hinfo, hf⟩
  have ha := h.links.above id info hinfo
  have hnot : id ∉ done := fun hmem => h.not_above hmem ha
  have hassert : s.decodedFramesHistory.insertAssertion f.id = true := by
    unfold DecodedFramesHistory.insertAssertion
    cases hlast : s.decodedFramesHistory.lastDecodedFrameId with
    | none => rfl
    | some l => simpa [hid] using ha l hlast
  refine ⟨⟨?_, h.window, ?_⟩, hassert, ?_⟩
  · exact DecodedFramesHistory.remembers_insertFrame h.history (h.indexed _) hassert _
  · have := h.links.decoded hinfo hnot
    rw [← hid] at this ⊢
    exact this
  · intro r hr
    have hcount := h.links.missing id info f hinfo hf
    rw [hzero, eq_comm, List.countP_eq_zero] at hcount
    simpa using hcount r hr

/-! ## Runs -/

@[simp] theorem History.update_handedOut (h : History) (op : Op) (e : Event) (w : World) :
    (h.update op e w).handedOut = cond e.clears [] h.handedOut ++ handed e := by
  unfold History.update
  cases e.clears <;> rfl

theorem watched_step (p : World × History) (op : Op) :
    watched.step p op = (((machine.step p.1 op).1,
      p.2.update op (machine.step p.1 op).2 (machine.step p.1 op).1), (machine.step p.1 op).2) :=
        rfl

theorem getNextFrameToDecode_cases (w : World) :
    machine.step w .getNextFrameToDecode = (w, .idle) ∨
    ∃ id info f, w.selected = true ∧ w.buffer.frameToDecode = some (some id) ∧
      w.buffer.frameInfos[id]? = some info ∧ info.frame = some f ∧
      machine.step w .getNextFrameToDecode
        = (⟨w.buffer.getNextFrameToDecode id info f, false⟩,
            .decoded f (w.buffer.decodedFramesHistory.insertAssertion f.id)) := by
  unfold machine
  simp only
  split
  · rename_i id hsel hftd
    cases hinfo : w.buffer.frameInfos[id]? with
    | none => exact Or.inl rfl
    | some info =>
      cases hf : info.frame with
      | none =>
        simp only [hf]
        exact Or.inl trivial
      | some f =>
        refine Or.inr ⟨id, info, f, hsel, hftd, hinfo, hf, ?_⟩
        simp only [hf]
  · exact Or.inl rfl

/-- The invariant of the buffer next to its record. -/
structure WatchInv (p : World × History) : Prop where
  buffer : BufferInv p.1.buffer (p.2.handedOut.map FrameToDecode.id)
  /-- A choice that is still to be collected is a frame without missing references. -/
  choice : p.1.selected = true → ∀ k, p.1.buffer.frameToDecode = some (some k) →
    ∃ i f, p.1.buffer.frameInfos[k]? = some i ∧ i.frame = some f ∧ i.numMissingDecodable = 0

theorem watchInv_start : WatchInv (start, {}) := ⟨bufferInv_create, fun h => by cases h⟩

theorem watchInv_step {p : World × History} (h : WatchInv p) (op : Op) :
    WatchInv (watched.step p op).1 ∧
    ∀ f a, (watched.step p op).2 = .decoded f a → a = true ∧
      ∀ r ∈ f.references, r ∈ p.2.handedOut.map FrameToDecode.id := by
  obtain ⟨⟨s, sel⟩, hist⟩ := p
  obtain ⟨hbuf, hchoice⟩ := h
  simp only at hbuf hchoice
  cases op with
  | insertFrame f =>
    refine ⟨?_, fun g a hg => by cases hg⟩
    obtain ⟨hinv, hclear, hkeep⟩ := hbuf.insertFrame f
    refine ⟨?_, ?_⟩
    · rw [watched_step]
      simp only [machine, History.update_handedOut, Event.clears, handed, List.append_nil]
      cases hcl : (s.insertFrame f).2.cleared with
      | true => rwa [if_pos hcl] at hinv
      | false => rwa [if_neg (by simp [hcl])] at hinv
    · intro hsel k hk
      change (s.insertFrame f).1.frameToDecode = some (some k) at hk
      cases hcl : (s.insertFrame f).2.cleared with
      | true =>
        rw [hclear hcl] at hk
        cases hk
      | false =>
        obtain ⟨hftd, hframes⟩ := hkeep hcl
        rw [hftd] at hk
        obtain ⟨i, g, hi, hg, hzero⟩ := hchoice hsel k hk
        obtain ⟨i', hi', hg', hd⟩ := hframes k i g hi hg
        exact ⟨i', g, hi', hg', hd.trans hzero⟩
  | findNextFrameToDecode kr mw t =>
    refine ⟨⟨?_, ?_⟩, fun g a hg => by cases hg⟩
    · rw [watched_step]
      simp only [machine, History.update_handedOut, Event.clears, handed, List.append_nil,
        cond_false]
      exact ⟨hbuf.history, hbuf.window, hbuf.links⟩
    · intro _ k hk
      obtain ⟨i, f, hi, hf, -, hzero⟩ := findNextFrameToDecode_spec hk
      exact ⟨i, f, hi, hf, hzero⟩
  | clear =>
    refine ⟨⟨?_, ?_⟩, fun g a hg => by cases hg⟩
    · rw [watched_step]
      simp only [machine, History.update_handedOut, Event.clears, handed, List.append_nil,
        cond_true]
      exact hbuf.clear
    · intro _ k hk
      cases hk
  | getNextFrameToDecode =>
    rw [watched_step]
    rcases getNextFrameToDecode_cases ⟨s, sel⟩ with hidle |
      ⟨id, info, f, hsel, hftd, hinfo, hf, heq⟩
    · rw [hidle]
      refine ⟨⟨?_, hchoice⟩, fun g a hg => by cases hg⟩
      simpa only [History.update_handedOut, Event.clears, handed, List.append_nil,
        cond_false] using hbuf
    · rw [heq]
      obtain ⟨i, g, hi, -, hzero⟩ := hchoice hsel id hftd
      have hsame : i = info := Option.some.inj (hi.symm.trans hinfo)
      subst hsame
      obtain ⟨hinv, hassert, hrefs⟩ := hbuf.getNextFrameToDecode hinfo hf hzero
      refine ⟨⟨?_, fun h => by cases h⟩, ?_⟩
      · simp only [History.update_handedOut, Event.clears, handed, cond_false, List.map_append,
          List.map_cons, List.map_nil]
        exact hinv
      · intro g' a hg'
        obtain ⟨rfl, rfl⟩ := Event.decoded.inj hg'
        exact ⟨hassert, hrefs⟩

theorem watchInv_reached (ops : List Op) : WatchInv (reached ops) :=
  watched.invariant_of_step WatchInv (fun _ op h => (watchInv_step h op).1) watchInv_start ops

/-- **Decode safety.**  In every run, with any clock and timing: the frames handed out
since the last clear have strictly increasing ids, every buffered id is newer than
the last decoded one, and a frame that is handed out next is newer than all of them,
all its references are among them, and the assertion of the history holds. -/
theorem decode_safety (ops : List Op) :
    ((reached ops).2.handedOut.map FrameToDecode.id).Pairwise (· < ·) ∧
    (∀ (k : Int) (i : FrameInfo), (reached ops).1.buffer.frameInfos[k]? = some i →
      ∀ l, (reached ops).1.buffer.decodedFramesHistory.lastDecodedFrameId = some l → l < k) ∧
    ∀ op f a, (watched.step (reached ops) op).2 = .decoded f a →
      a = true ∧ (∀ g ∈ (reached ops).2.handedOut, g.id < f.id) ∧
        ∀ r ∈ f.references, ∃ g ∈ (reached ops).2.handedOut, g.id = r := by
  have hinv := watchInv_reached ops
  refine ⟨hinv.buffer.history.ordered, hinv.buffer.links.above, ?_⟩
  intro op f a hdec
  obtain ⟨hnext, hstep⟩ := watchInv_step hinv op
  obtain ⟨ha, hrefs⟩ := hstep f a hdec
  refine ⟨ha, ?_, ?_⟩
  · -- the record after the step is ordered, and the frame is its last element
    have hord := hnext.buffer.history.ordered
    rw [watched_step] at hord hdec
    simp only at hdec
    rw [History.update_handedOut, hdec] at hord
    simp only [Event.clears, handed, cond_false, List.map_append, List.pairwise_append] at hord
    intro g hg
    exact hord.2.2 g.id (List.mem_map_of_mem hg) f.id (by simp)
  · intro r hr
    obtain ⟨g, hg, hgr⟩ := List.mem_map.1 (hrefs r hr)
    exact ⟨g, hg, hgr⟩

end NaiveRtc.Jitter
