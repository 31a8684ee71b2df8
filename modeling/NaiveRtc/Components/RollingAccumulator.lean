import NaiveRtc.Lib.Machine
import NaiveRtc.Lib.Recent
import Mathlib.Order.MinMax

/-!
# Extremes of the last samples

`rtc/rtp_rtcp/components/rolling_accumulator.hpp`: the last samples in a ring, with the largest and
the smallest of them cached.  The means and variances, which are in floating point, are left out.

* `RunningStatistics` — the count of the samples.
* `Cached`, `RollingAccumulator` — the two caches and the ring.
* `Op`, `machine` — the calls.
* `Current` — what a cache knows about the samples.
* `extremes_of_last` — **the extremes are those of the last samples**, after every run.
-/

namespace NaiveRtc

/-- `RunningStatistics<T>`, of which the accumulator reads the count. -/
structure RunningStatistics where
  count : Nat
  deriving DecidableEq

namespace RunningStatistics

/-- `AddSample(sample)`. -/
def addSample (s : RunningStatistics) : RunningStatistics := ⟨s.count + 1⟩

/-- `RemoveSample(sample)`. -/
def removeSample (s : RunningStatistics) : RunningStatistics :=
  if s.count = 0 then s else ⟨s.count - 1⟩

end RunningStatistics

/-- An extreme value that is kept, as `max_` with `max_stale_`, and `min_` with `min_stale_`. -/
structure Cached (α : Type*) where
  value : α
  stale : Bool
  deriving DecidableEq

namespace Cached

variable {α : Type*} (lt : α → α → Prop) [DecidableRel lt]

/-- A sample goes, which is not below the extreme in `lt`. -/
def evict (c : Cached α) (sampleToRemove : α) : Cached α :=
  if ¬lt sampleToRemove c.value then { c with stale := true } else c

/-- A sample comes. -/
def add (c : Cached α) (first : Bool) (sample : α) : Cached α :=
  if first = true ∨ lt c.value sample then ⟨sample, false⟩ else c

/-- The loop over the samples, if the value is stale. -/
def compute (c : Cached α) (sampleAt : Nat → α) (count : Nat) : Cached α :=
  if c.stale then
    ⟨(List.range' 1 (count - 1)).foldl
      (fun value i => if lt value (sampleAt i) then sampleAt i else value) (sampleAt 0), false⟩
  else c

end Cached

/-- `RollingAccumulator<T>`; the constructor asserts that the window is not empty. -/
structure RollingAccumulator (α : Type*) where
  stats : RunningStatistics
  samples : List α
  samples_pos : 0 < samples.length
  nextIndex : Nat
  max : Cached α
  min : Cached α

namespace RollingAccumulator

variable {α : Type*} [Inhabited α]

/-- `Reset()`. -/
def reset (s : RollingAccumulator α) : RollingAccumulator α :=
  { s with stats := ⟨0⟩, nextIndex := 0, max := ⟨default, false⟩, min := ⟨default, false⟩ }

/-- `RollingAccumulator(window_size)`. -/
def create (windowSize : Nat) (h : 0 < windowSize) : RollingAccumulator α where
  stats := ⟨0⟩
  samples := List.replicate windowSize default
  samples_pos := by rwa [List.length_replicate]
  nextIndex := 0
  max := ⟨default, false⟩
  min := ⟨default, false⟩

/-- `max_count()`. -/
def maxCount (s : RollingAccumulator α) : Nat := s.samples.length

/-- `count()`. -/
def count (s : RollingAccumulator α) : Nat := s.stats.count

/-- `samples_[(next_index_ + i) % max_count()]`. -/
def sampleAt (s : RollingAccumulator α) (i : Nat) : α :=
  s.samples.getD ((s.nextIndex + i) % s.maxCount) default

variable [LinearOrder α]

/-- The first part of `AddSample`: the oldest sample goes. -/
def removeOldest (s : RollingAccumulator α) : RollingAccumulator α :=
  if s.count = s.maxCount then
    let sampleToRemove := s.samples.getD s.nextIndex default
    { s with
      stats := s.stats.removeSample
      max := s.max.evict (· < ·) sampleToRemove
      min := s.min.evict (· > ·) sampleToRemove }
  else s

/-- The second part: the sample is stored. -/
def store (s : RollingAccumulator α) (sample : α) : RollingAccumulator α :=
  { s with
    samples := s.samples.set s.nextIndex sample
    samples_pos := by rw [List.length_set]; exact s.samples_pos
    max := s.max.add (· < ·) (s.count == 0) sample
    min := s.min.add (· > ·) (s.count == 0) sample
    stats := s.stats.addSample
    nextIndex := (s.nextIndex + 1) % s.maxCount }

/-- `AddSample(sample)`. -/
def addSample (s : RollingAccumulator α) (sample : α) : RollingAccumulator α :=
  s.removeOldest.store sample

/-- `ComputeMax()`, which may change what is cached. -/
def computeMax (s : RollingAccumulator α) : RollingAccumulator α × α :=
  let max := s.max.compute (· < ·) s.sampleAt s.count
  ({ s with max := max }, max.value)

/-- `ComputeMin()`. -/
def computeMin (s : RollingAccumulator α) : RollingAccumulator α × α :=
  let min := s.min.compute (· > ·) s.sampleAt s.count
  ({ s with min := min }, min.value)

/-- What is called. -/
inductive Op (α : Type*)
  | addSample (sample : α)
  | computeMax
  | computeMin
  | reset
  deriving DecidableEq

/-- One call after the other. -/
def machine : Machine (RollingAccumulator α) (Op α) (Option α) where
  step s
    | .addSample sample => (s.addSample sample, none)
    | .computeMax => (s.computeMax.1, some s.computeMax.2)
    | .computeMin => (s.computeMin.1, some s.computeMin.2)
    | .reset => (s.reset, none)

end RollingAccumulator

/-- The samples since the last reset. -/
def RollingAccumulator.samplesAfter {α : Type*} (samples : List α) : Op α → List α
  | .addSample sample => samples ++ [sample]
  | .reset => []
  | _ => samples

/-! ## What is cached -/

namespace Cached

variable {α : Type*} {lt : α → α → Prop} [DecidableRel lt] {c : Cached α} {samples : List α}

/-- The value is not below any sample, and is one of them unless it is stale, which happens only
when the ring is full. -/
structure Current (lt : α → α → Prop) (c : Cached α) (samples : List α) (full : Prop) : Prop where
  bound : ∀ sample ∈ samples, ¬lt c.value sample
  fresh : c.stale = false → samples ≠ [] → c.value ∈ samples
  stale : c.stale = true → full

variable [IsStrictOrder α lt] {full : Prop}

omit [DecidableRel lt] [IsStrictOrder α lt] in
theorem Current.imp {full' : Prop} (h : Current lt c samples full) (himp : full → full') :
    Current lt c samples full' :=
  ⟨h.bound, h.fresh, fun hstale => himp (h.stale hstale)⟩

theorem Current.evict {oldest : α} (h : Current lt c (oldest :: samples) full) (hfull : full) :
    Current lt (c.evict lt oldest) samples full := by
  unfold Cached.evict
  split
  case isTrue hnot =>
    exact ⟨fun sample hsample => h.bound sample (List.mem_cons_of_mem _ hsample),
      fun hstale => absurd hstale (by simp), fun _ => hfull⟩
  case isFalse hlt =>
    refine ⟨fun sample hsample => h.bound sample (List.mem_cons_of_mem _ hsample),
      fun hstale _ => ?_, h.stale⟩
    rcases List.mem_cons.1 (h.fresh hstale (by simp)) with heq | hmem
    · rw [heq] at hlt
      exact absurd (Decidable.of_not_not hlt) (irrefl oldest)
    · exact hmem

theorem Current.add (h : Current lt c samples full) {first : Bool}
    (hfirst : first = true ↔ samples = []) (sample : α) :
    Current lt (c.add lt first sample) (samples ++ [sample]) full := by
  unfold Cached.add
  split
  case isTrue hnew =>
    refine ⟨fun other hother => ?_, fun _ _ => by simp, fun hstale => absurd hstale (by simp)⟩
    rcases List.mem_append.1 hother with hold | hlast
    · rcases hnew with hempty | hlt
      · rw [hfirst.1 hempty] at hold
        cases hold
      · exact fun hother => h.bound other hold (trans_of lt hlt hother)
    · rw [List.mem_singleton.1 hlast]
      exact irrefl sample
  case isFalse hkeep =>
    obtain ⟨hnotFirst, hnot⟩ := not_or.1 hkeep
    refine ⟨fun other hother => ?_, fun hstale _ => ?_, h.stale⟩
    · rcases List.mem_append.1 hother with hold | hlast
      · exact h.bound other hold
      · rw [List.mem_singleton.1 hlast]
        exact hnot
    · exact List.mem_append_left _ (h.fresh hstale fun hempty => hnotFirst (hfirst.2 hempty))

omit [DecidableRel lt] [IsStrictOrder α lt] in
theorem foldl_extreme (lt : α → α → Prop) [DecidableRel lt] [IsStrictTotalOrder α lt]
    (l : List α) (a : α) :
    let extreme := l.foldl (fun value b => if lt value b then b else value) a
    extreme ∈ a :: l ∧ ∀ b ∈ a :: l, ¬lt extreme b := by
  induction l generalizing a with
  | nil => exact ⟨List.mem_cons_self, fun b hb => by rw [List.mem_singleton.1 hb]; exact irrefl a⟩
  | cons b l ih =>
    intro extreme
    obtain ⟨hmem, hbound⟩ := ih (if lt a b then b else a)
    have hnext : ¬lt extreme (if lt a b then b else a) := hbound _ List.mem_cons_self
    have hrest : ∀ c ∈ l, ¬lt extreme c := fun c hc => hbound c (List.mem_cons_of_mem _ hc)
    have hboth : ¬lt (if lt a b then b else a) a ∧ ¬lt (if lt a b then b else a) b := by
      split
      case isTrue hlt => exact ⟨fun hgt => asymm_of lt hlt hgt, irrefl b⟩
      case isFalse hnot => exact ⟨irrefl a, hnot⟩
    constructor
    · rcases List.mem_cons.1 hmem with heq | hlast
      · show l.foldl _ (if lt a b then b else a) ∈ _
        rw [heq]
        split <;> simp
      · exact List.mem_cons_of_mem _ (List.mem_cons_of_mem _ hlast)
    · intro c hc
      rcases List.mem_cons.1 hc with rfl | hc
      · exact IsOrderConnected.neg_trans hnext hboth.1
      · rcases List.mem_cons.1 hc with rfl | hc
        · exact IsOrderConnected.neg_trans hnext hboth.2
        · exact hrest c hc

omit [IsStrictOrder α lt] in
theorem Current.compute [IsStrictTotalOrder α lt] (h : Current lt c samples full)
    {sampleAt : Nat → α} {count : Nat}
    (hall : full → samples = sampleAt 0 :: (List.range' 1 (count - 1)).map sampleAt) :
    Current lt (c.compute lt sampleAt count) samples full ∧
      (samples ≠ [] → (c.compute lt sampleAt count).value ∈ samples) := by
  unfold Cached.compute
  split
  case isTrue hstale =>
    have hextreme := foldl_extreme lt ((List.range' 1 (count - 1)).map sampleAt) (sampleAt 0)
    rw [← hall (h.stale hstale), List.foldl_map] at hextreme
    exact ⟨⟨hextreme.2, fun _ _ => hextreme.1, fun hfalse => absurd hfalse (by simp)⟩,
      fun _ => hextreme.1⟩
  case isFalse hfresh => exact ⟨h, h.fresh (Bool.eq_false_iff.2 hfresh)⟩

end Cached

/-! ## Runs -/

namespace RollingAccumulator

open Recent (lastOf contents)

variable {α : Type*} {s : RollingAccumulator α} {last : List α}

theorem maxCount_pos (s : RollingAccumulator α) : 0 < s.maxCount := s.samples_pos

variable [LinearOrder α]

/-- The ring holds these samples, and both caches are about them. -/
structure Holds (s : RollingAccumulator α) (last : List α) : Prop where
  ring : last = contents s.samples s.nextIndex s.count
  count_le : s.count ≤ s.maxCount
  next_lt : s.nextIndex < s.maxCount
  max : s.max.Current (· < ·) last (s.count = s.maxCount)
  min : s.min.Current (· > ·) last (s.count = s.maxCount)

theorem Holds.length (h : Holds s last) : last.length = s.count := by
  rw [h.ring, Recent.length_contents h.count_le]

variable [Inhabited α]

theorem Holds.eq_samples (h : Holds s last) (hfull : s.count = s.maxCount) :
    last = s.sampleAt 0 :: (List.range' 1 (s.count - 1)).map s.sampleAt := by
  have hlength : s.samples.length = (s.count - 1) + 1 := by
    have hpos := s.maxCount_pos
    show s.maxCount = _
    omega
  have hring := h.ring
  rw [hfull] at hring
  rw [hring, maxCount, Recent.contents_full s.nextIndex s.samples default, ← List.map_cons]
  refine congrArg (List.map s.sampleAt) ?_
  rw [List.range_eq_range', hlength, List.range'_succ]

theorem create_holds (windowSize : Nat) (h : 0 < windowSize) :
    Holds (create windowSize h : RollingAccumulator α) [] := by
  have hlength : (create windowSize h : RollingAccumulator α).maxCount = windowSize :=
    List.length_replicate
  refine ⟨?_, Nat.zero_le _, by rwa [hlength], ⟨by simp, by simp, fun h => by cases h⟩,
    ⟨by simp, by simp, fun h => by cases h⟩⟩
  exact (List.length_eq_zero_iff.1 (Recent.length_contents (Nat.zero_le _))).symm

theorem reset_holds (s : RollingAccumulator α) : Holds s.reset [] := by
  refine ⟨?_, Nat.zero_le _, s.maxCount_pos, ⟨by simp, by simp, fun h => by cases h⟩,
    ⟨by simp, by simp, fun h => by cases h⟩⟩
  exact (List.length_eq_zero_iff.1 (Recent.length_contents (Nat.zero_le _))).symm

theorem Holds.computeMax (h : Holds s last) : Holds s.computeMax.1 last :=
  ⟨h.ring, h.count_le, h.next_lt, (h.max.compute h.eq_samples).1, h.min⟩

theorem Holds.computeMin (h : Holds s last) : Holds s.computeMin.1 last :=
  ⟨h.ring, h.count_le, h.next_lt, h.max, (h.min.compute h.eq_samples).1⟩

omit [Inhabited α] in
theorem store_holds {kept : List α} {sample : α} {full : Prop}
    (hring : contents (s.samples.set s.nextIndex sample) ((s.nextIndex + 1) % s.maxCount)
      (s.count + 1) = kept ++ [sample])
    (hcount : s.count < s.maxCount) (hfirst : (s.count == 0) = true ↔ kept = [])
    (hfull : full → s.count + 1 = s.maxCount) (hmax : s.max.Current (· < ·) kept full)
    (hmin : s.min.Current (· > ·) kept full) : Holds (s.store sample) (kept ++ [sample]) := by
  have hlength : (s.store sample).maxCount = s.maxCount := List.length_set
  refine ⟨hring.symm, ?_, ?_, (hmax.add hfirst sample).imp ?_, (hmin.add hfirst sample).imp ?_⟩
  · rw [hlength]
    exact hcount
  · rw [hlength]
    exact Nat.mod_lt _ s.maxCount_pos
  · rw [hlength]
    exact hfull
  · rw [hlength]
    exact hfull

theorem Holds.addSample_of_lt (h : Holds s last) (hroom : s.count < s.maxCount) (sample : α) :
    Holds (s.addSample sample) (last ++ [sample]) := by
  have hold : s.removeOldest = s := if_neg hroom.ne
  have hfirst : (s.count == 0) = true ↔ last = [] := by
    rw [beq_iff_eq, ← h.length, List.length_eq_zero_iff]
  have hring := Recent.contents_push h.next_lt hroom sample
  rw [← h.ring] at hring
  unfold addSample
  rw [hold]
  exact store_holds hring hroom hfirst (fun hfull => absurd hfull hroom.ne) h.max h.min

theorem Holds.addSample_of_full (h : Holds s last) (hfull : s.count = s.maxCount) (sample : α) :
    Holds (s.addSample sample) (last.tail ++ [sample]) := by
  have hpos := s.maxCount_pos
  have hlast := h.eq_samples hfull
  have hhead : s.sampleAt 0 = s.samples.getD s.nextIndex default := by
    rw [sampleAt, Nat.add_zero, Nat.mod_eq_of_lt h.next_lt]
  rw [hhead] at hlast
  have hlength := h.length
  have hremoved : s.removeOldest = { s with
      stats := s.stats.removeSample
      max := s.max.evict (· < ·) (s.samples.getD s.nextIndex default)
      min := s.min.evict (· > ·) (s.samples.getD s.nextIndex default) } := if_pos hfull
  have hcount : s.removeOldest.count = s.count - 1 := by
    rw [hremoved]
    show s.stats.removeSample.count = s.stats.count - 1
    unfold RunningStatistics.removeSample
    split
    case isTrue hzero => rw [hzero]
    case isFalse => rfl
  have hmax : s.removeOldest.maxCount = s.maxCount := by rw [hremoved]; rfl
  generalize hrest : (List.range' 1 (s.count - 1)).map s.sampleAt = rest at hlast
  have hcurrentMax : s.removeOldest.max.Current (· < ·) rest (s.count = s.maxCount) := by
    rw [hremoved]
    exact (hlast ▸ h.max).evict hfull
  have hcurrentMin : s.removeOldest.min.Current (· > ·) rest (s.count = s.maxCount) := by
    rw [hremoved]
    exact (hlast ▸ h.min).evict hfull
  have hring := Recent.contents_push_full h.next_lt sample
  rw [hlast, List.length_cons] at hlength
  rw [hlast, List.tail_cons]
  refine store_holds ?_ (by omega) ?_ (fun _ => by omega) hcurrentMax hcurrentMin
  · have hcells : s.removeOldest.samples = s.samples := by rw [hremoved]
    have hplace : s.removeOldest.nextIndex = s.nextIndex := by rw [hremoved]
    have hsame : contents s.samples s.nextIndex s.samples.length = last := by
      rw [h.ring, hfull]
      rfl
    rw [hcells, hplace, hmax, hcount, Nat.sub_add_cancel (by omega), hfull]
    show contents _ _ s.samples.length = _
    rw [hsame, hlast] at hring
    exact hring
  · rw [beq_iff_eq, hcount, ← List.length_eq_zero_iff]
    omega

theorem addSample_holds {samples : List α} (h : Holds s (lastOf s.maxCount samples)) (sample : α) :
    Holds (s.addSample sample) (lastOf s.maxCount (samples ++ [sample])) := by
  have hlength := h.length
  rw [Recent.length_lastOf] at hlength
  by_cases hroom : samples.length < s.maxCount
  · rw [Recent.lastOf_concat_of_lt hroom]
    exact h.addSample_of_lt (by omega) sample
  · rw [Recent.lastOf_concat_of_le s.maxCount_pos (Nat.le_of_not_lt hroom)]
    exact h.addSample_of_full (by omega) sample

theorem addSample_maxCount (s : RollingAccumulator α) (sample : α) :
    (s.addSample sample).maxCount = s.maxCount := by
  have hremoved : s.removeOldest.maxCount = s.maxCount := by
    unfold removeOldest
    split <;> rfl
  exact (List.length_set : (s.removeOldest.samples.set _ sample).length = _).trans hremoved

theorem step_holds {samples : List α} (h : Holds s (lastOf s.maxCount samples)) (op : Op α) :
    (machine.step s op).1.maxCount = s.maxCount ∧
      Holds (machine.step s op).1 (lastOf s.maxCount (samplesAfter samples op)) := by
  cases op with
  | addSample sample => exact ⟨addSample_maxCount s sample, addSample_holds h sample⟩
  | computeMax => exact ⟨rfl, h.computeMax⟩
  | computeMin => exact ⟨rfl, h.computeMin⟩
  | reset => exact ⟨rfl, by rw [samplesAfter, Recent.lastOf_nil]; exact reset_holds s⟩

theorem final_holds (windowSize : Nat) (hw : 0 < windowSize) (ops : List (Op α)) :
    (machine.final (create windowSize hw) ops).maxCount = windowSize ∧
      Holds (machine.final (create windowSize hw) ops)
        (lastOf windowSize (ops.foldl samplesAfter [])) := by
  induction ops using List.reverseRecOn with
  | nil => exact ⟨List.length_replicate, by
      rw [List.foldl_nil, Recent.lastOf_nil]
      exact create_holds windowSize hw⟩
  | append_singleton ops op ih =>
    obtain ⟨hcount, hholds⟩ := ih
    rw [Machine.final_append, List.foldl_concat]
    have hhere : Holds (machine.final (create windowSize hw) ops)
        (lastOf (machine.final (create windowSize hw) ops).maxCount
          (ops.foldl samplesAfter [])) := by
      rw [hcount]
      exact hholds
    have hstep := step_holds hhere op
    rw [hcount] at hstep
    exact hstep

/-- **The extremes are those of the last samples.**  After every run of calls since the
construction, with at least one sample since the last reset, the two answers are the largest and the
smallest of the last samples, as many as the window takes. -/
theorem extremes_of_last (windowSize : Nat) (hw : 0 < windowSize) (ops : List (Op α))
    (hne : ops.foldl samplesAfter [] ≠ []) :
    let s := machine.final (create windowSize hw) ops
    let last := lastOf windowSize (ops.foldl samplesAfter [])
    last.max? = some s.computeMax.2 ∧ last.min? = some s.computeMin.2 := by
  intro s last
  obtain ⟨-, hholds⟩ := final_holds windowSize hw ops
  have hlast : last ≠ [] := List.ne_nil_of_length_pos (by
    have := List.length_pos_iff.2 hne
    rw [Recent.length_lastOf]
    omega)
  obtain ⟨hmax, hmaxMem⟩ := hholds.max.compute hholds.eq_samples
  obtain ⟨hmin, hminMem⟩ := hholds.min.compute hholds.eq_samples
  exact ⟨List.max?_eq_some_iff.2 ⟨hmaxMem hlast, fun b hb => not_lt.1 (hmax.bound b hb)⟩,
    List.min?_eq_some_iff.2 ⟨hminMem hlast, fun b hb => not_lt.1 (hmin.bound b hb)⟩⟩

/-- The largest sample is evicted between two queries. -/
theorem extremes_of_last_evicted :
    let ops : List (Op Int) := [.addSample 5, .addSample 1, .computeMax, .addSample 3, .computeMin]
    let s := machine.final (create 2 (by decide)) ops
    ([1, 3] : List Int).max? = some s.computeMax.2 ∧
      ([1, 3] : List Int).min? = some s.computeMin.2 :=
  extremes_of_last 2 (by decide)
    [.addSample 5, .addSample 1, .computeMax, .addSample 3, .computeMin] (by decide)

end RollingAccumulator

end NaiveRtc
