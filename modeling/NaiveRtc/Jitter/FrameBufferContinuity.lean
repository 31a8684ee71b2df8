import NaiveRtc.Jitter.FrameBufferDecode
import Mathlib.Algebra.Order.BigOperators.Group.List

/-!
# What the continuity counters count

The breadth-first search ends, and in runs in which no frame refers to a placeholder
the counters say which references are still outstanding.

* `Searching`, `propagateLoop_spec` — the invariant of the search: the counters are
  right for the frames already taken from the queue.
* `Counted`, `Cont` — the invariant between two calls.
* `late_frame_uncounted` — a frame dropped because it is late is neither decoded nor
  present, and is not counted as missing.
* `continuity_invariant` — the counters in every state of every run that never refers
  to a placeholder.
-/

namespace NaiveRtc.Jitter

open WrapAround FrameBuffer

/-! ## The search ends -/

theorem foldl_fulfil_queue (p : Propagation) (ids : List Int) :
    ∃ pushed, (ids.foldl fulfil p).queue = p.queue ++ pushed ∧ pushed.Sublist ids ∧
      ∀ k ∈ pushed, ∃ i, p.infos[k]? = some i := by
  induction ids generalizing p with
  | nil => exact ⟨[], by simp, List.Sublist.refl _, by simp⟩
  | cons id ids ih =>
    obtain ⟨pushed, hq, hsub, hlive⟩ := ih (fulfil p id)
    obtain ⟨c, hc⟩ := sameLinks_fulfil p id
    have hlive' : ∀ k ∈ pushed, ∃ i, p.infos[k]? = some i := by
      intro k hk
      obtain ⟨i', hi'⟩ := hlive k hk
      rw [hc] at hi'
      obtain ⟨i, hi, -⟩ := Option.map_eq_some_iff.1 hi'
      exact ⟨i, hi⟩
    have hself : (fulfil p id).queue = p.queue ∨
        ((fulfil p id).queue = p.queue ++ [id] ∧ ∃ i, p.infos[id]? = some i) := by
      unfold fulfil
      cases hid : p.infos[id]? with
      | none => exact Or.inl rfl
      | some i =>
        simp only
        split
        · exact Or.inr ⟨rfl, i, rfl⟩
        · exact Or.inl rfl
    rw [List.foldl_cons, hq]
    rcases hself with hself | ⟨hself, hid⟩
    · exact ⟨pushed, by rw [hself], hsub.cons _, hlive'⟩
    · refine ⟨id :: pushed, by rw [hself, List.append_assoc]; rfl, hsub.cons_cons _, ?_⟩
      intro k hk
      rcases List.mem_cons.1 hk with rfl | hk
      · exact hid
      · exact hlive' k hk

/-- How many of the keys are larger. -/
def larger (keys : List Int) (k : Int) : Nat := keys.countP (k < ·)

theorem countP_lt_of_mem {α : Type*} {p q : α → Bool} {l : List α} {x : α} (hx : x ∈ l)
    (hpx : ¬ p x = true) (hqx : q x = true) (h : ∀ y, p y = true → q y = true) :
    l.countP p < l.countP q := by
  induction l with
  | nil => exact absurd hx List.not_mem_nil
  | cons y ys ih =>
    rw [List.countP_cons, List.countP_cons]
    rcases List.mem_cons.1 hx with rfl | hx
    · have := List.countP_mono_left (l := ys) fun y _ => h y
      rw [if_neg hpx, if_pos hqx]
      omega
    · have := ih hx
      by_cases hp : p y = true
      · rw [if_pos hp, if_pos (h y hp)]
        omega
      · rw [if_neg hp]
        omega

theorem larger_lt {keys : List Int} {k d : Int} (hkd : k < d) (hd : d ∈ keys) :
    larger keys d < larger keys k := by
  refine countP_lt_of_mem hd (by simp) (by simpa using hkd) fun y hy => ?_
  simp only [decide_eq_true_eq] at hy ⊢
  omega

/-- The rounds a queue may still take: every entry is the root of a tree that is at
most `width` wide and as deep as there are larger keys. -/
def workload (keys : List Int) (width : Nat) (queue : List Int) : Nat :=
  (queue.map fun k => (width + 1) ^ larger keys k).sum

theorem workload_append (keys : List Int) (width : Nat) (q q' : List Int) :
    workload keys width (q ++ q') = workload keys width q + workload keys width q' := by
  simp [workload]

variable {k : Int}

theorem workload_lt (keys : List Int) {width : Nat} {pushed : List Int}
    (hlen : pushed.length ≤ width) (hp : ∀ d ∈ pushed, k < d ∧ d ∈ keys) :
    workload keys width pushed < (width + 1) ^ larger keys k := by
  cases hn : larger keys k with
  | zero =>
    have hnil : pushed = [] := by
      refine List.eq_nil_iff_forall_not_mem.2 fun d hd => ?_
      have := larger_lt (hp d hd).1 (hp d hd).2
      omega
    simp [hnil, workload]
  | succ n =>
    have hle : workload keys width pushed ≤ pushed.length * (width + 1) ^ n := by
      have := List.sum_le_card_nsmul (pushed.map fun d => (width + 1) ^ larger keys d)
        ((width + 1) ^ n) ?_
      · simpa [workload] using this
      · intro x hx
        obtain ⟨d, hd, rfl⟩ := List.mem_map.1 hx
        have := larger_lt (hp d hd).1 (hp d hd).2
        exact Nat.pow_le_pow_right (by omega) (by omega)
    calc workload keys width pushed ≤ pushed.length * (width + 1) ^ n := hle
      _ ≤ width * (width + 1) ^ n := Nat.mul_le_mul_right _ hlen
      _ < (width + 1) ^ (n + 1) := by
        have : 0 < (width + 1) ^ n := Nat.pow_pos (by omega)
        rw [pow_succ]
        nlinarith

variable {last : Option Int} {p : Propagation}

theorem propagateLoop_isSome (keys : List Int) (width : Nat) {fuel : Nat}
    (hkeys : ∀ k i, p.infos[k]? = some i → k ∈ keys)
    (hlinks : ∀ (k : Int) (i : FrameInfo), p.infos[k]? = some i →
      i.dependentFrames.length ≤ width ∧ ∀ d ∈ i.dependentFrames, k < d)
    (hfuel : workload keys width p.queue ≤ fuel) : (propagateLoop fuel p last).isSome = true := by
  induction fuel generalizing p last with
  | zero =>
    have hnil : p.queue = [] := by
      cases hq : p.queue with
      | nil => rfl
      | cons k q =>
        rw [hq] at hfuel
        have : 0 < (width + 1) ^ larger keys k := Nat.pow_pos (by omega)
        simp [workload] at hfuel
    rw [propagateLoop, if_pos hnil]
    rfl
  | succ fuel ih =>
    rw [propagateLoop]
    cases hq : p.queue with
    | nil => rfl
    | cons k q =>
      simp only
      have hbound : ((p.infos[k]?.getD {}).dependentFrames.length ≤ width) ∧
          ∀ d ∈ (p.infos[k]?.getD {}).dependentFrames, k < d := by
        cases hk : p.infos[k]? with
        | none => simp
        | some i => exact hlinks k i hk
      obtain ⟨pushed, hqueue, hsub, hlive⟩ :=
        foldl_fulfil_queue { p with queue := q } (p.infos[k]?.getD {}).dependentFrames
      obtain ⟨c, hc⟩ := sameLinks_foldl_fulfil { p with queue := q }
        (p.infos[k]?.getD {}).dependentFrames
      have hback : ∀ (x : Int) (i' : FrameInfo), ((p.infos[k]?.getD {}).dependentFrames.foldl fulfil
          { p with queue := q }).infos[x]? = some i' →
          ∃ i, p.infos[x]? = some i ∧ i'.dependentFrames = i.dependentFrames := by
        intro x i' hi'
        rw [hc] at hi'
        obtain ⟨i, hi, rfl⟩ := Option.map_eq_some_iff.1 hi'
        exact ⟨i, hi, rfl⟩
      refine ih ?_ ?_ ?_
      · intro x i' hi'
        obtain ⟨i, hi, -⟩ := hback x i' hi'
        exact hkeys x i hi
      · intro x i' hi'
        obtain ⟨i, hi, hd⟩ := hback x i' hi'
        rw [hd]
        exact hlinks x i hi
      · have hlt := workload_lt keys (k := k)
          (hsub.length_le.trans hbound.1) fun d hd =>
          ⟨hbound.2 d (hsub.subset hd), by
            obtain ⟨i, hi⟩ := hlive d hd
            exact hkeys d i hi⟩
        have hhead : workload keys width (k :: q)
            = (width + 1) ^ larger keys k + workload keys width q := by simp [workload]
        rw [hqueue, workload_append]
        rw [hq, hhead] at hfuel
        simp only
        omega

variable {s : FrameBuffer}

theorem propagateContinuity_isSome {done : List Int}
    (hl : Links s.frameInfos s.decodedFramesHistory.lastDecodedFrameId done) (id : Int) :
    (s.propagateContinuity id).isSome = true := by
  unfold propagateContinuity
  rw [Option.isSome_map]
  refine propagateLoop_isSome s.frameInfos.keys
    (s.frameInfos.toList.map fun e => e.2.dependentFrames.length).sum ?_ ?_ ?_
  · intro k i hi
    rw [Std.TreeMap.mem_keys]
    exact Std.TreeMap.mem_iff_isSome_getElem?.2 (by rw [hi]; rfl)
  · intro k i hi
    refine ⟨?_, ?_⟩
    · refine List.single_le_sum (by simp) _ ?_
      refine List.mem_map.2 ⟨(k, i), ?_, rfl⟩
      exact Std.TreeMap.mem_toList_iff_getElem?_eq_some.2 hi
    · intro d hd
      obtain ⟨g, hg, hr⟩ := (hl.dependents k i hi d).1 hd
      exact hl.below d g hg k hr
  · unfold propagationFuel workload
    simp only [List.map_cons, List.map_nil, List.sum_cons, List.sum_nil, Nat.add_zero]
    refine Nat.pow_le_pow_right (by omega) ?_
    rw [← Std.TreeMap.length_keys]
    exact List.countP_le_length

/-! ## The search counts right -/

/-- **The counters**: relative to the ids `seen` that were seen continuous, a counter
says how many references are outstanding, and is zero for the ids seen. -/
structure Counted (m : FrameInfoMap) (seen : List Int) : Prop where
  counter : ∀ (k : Int) (i : FrameInfo) f, m[k]? = some i → i.frame = some f →
    i.numMissingContinuous = f.references.countP (· ∉ seen)
  zero : ∀ (k : Int) (i : FrameInfo) f, m[k]? = some i → i.frame = some f →
    (k ∈ seen ↔ i.numMissingContinuous = 0)

theorem countP_not_mem_congr {refs seen seen' : List Int} (h : ∀ k, k ∈ seen ↔ k ∈ seen') :
    refs.countP (· ∉ seen) = refs.countP (· ∉ seen') :=
  List.countP_congr fun r _ => by simp [h]

variable {m : FrameInfoMap}

theorem Counted.congr {seen seen' : List Int} (hc : Counted m seen)
    (h : ∀ k, k ∈ seen ↔ k ∈ seen') : Counted m seen' where
  counter k i f hi hf := (hc.counter k i f hi hf).trans (countP_not_mem_congr h)
  zero k i f hi hf := by rw [← h, hc.zero k i f hi hf]

/-- A round over distinct waiting dependents takes one off each counter and queues
those that reach zero. -/
theorem foldl_fulfil_spec {ids : List Int} (hnd : ids.Nodup)
    (hpos : ∀ d ∈ ids, ∃ i, p.infos[d]? = some i ∧ 0 < i.numMissingContinuous) :
    (∀ k : Int, (ids.foldl fulfil p).infos[k]? = p.infos[k]?.map fun i =>
      if k ∈ ids then { i with numMissingContinuous := i.numMissingContinuous - 1 } else i) ∧
    (∀ k, k ∈ (ids.foldl fulfil p).queue ↔ k ∈ p.queue ∨
      (k ∈ ids ∧ ∃ i, p.infos[k]? = some i ∧ i.numMissingContinuous = 1)) ∧
    (p.queue.Nodup → (∀ d ∈ ids, d ∉ p.queue) → (ids.foldl fulfil p).queue.Nodup) ∧
    (ids.foldl fulfil p).underflow = p.underflow := by
  induction ids generalizing p with
  | nil =>
    refine ⟨fun k => ?_, fun k => by simp, fun h _ => h, rfl⟩
    cases h : p.infos[k]? <;> simp [h]
  | cons d ids ih =>
    obtain ⟨hd, hnd'⟩ := List.nodup_cons.1 hnd
    obtain ⟨i₀, hi₀, hpos₀⟩ := hpos d List.mem_cons_self
    have hdec : decrement i₀.numMissingContinuous = i₀.numMissingContinuous - 1 := by
      cases hn : i₀.numMissingContinuous with
      | zero => omega
      | succ n => rfl
    have hinfos : ∀ k : Int, (fulfil p d).infos[k]? = if k = d then
        some { i₀ with numMissingContinuous := i₀.numMissingContinuous - 1 } else p.infos[k]? := by
      intro k
      unfold fulfil
      simp only [hi₀, getElem?_updateInfo]
      by_cases hk : k = d
      · subst hk
        simp [hi₀, hdec]
      · simp [hk]
    have hqueue : (fulfil p d).queue = if i₀.numMissingContinuous = 1 then p.queue ++ [d]
        else p.queue := by
      unfold fulfil
      simp only [hi₀, hdec]
      have : i₀.numMissingContinuous - 1 = 0 ↔ i₀.numMissingContinuous = 1 := by omega
      simp only [this]
    have hunder : (fulfil p d).underflow = p.underflow := by
      unfold fulfil
      have : (i₀.numMissingContinuous == 0) = false := by simpa using hpos₀.ne'
      simp [hi₀, this]
    have hne : ∀ x ∈ ids, x ≠ d := fun x hx h => hd (h ▸ hx)
    obtain ⟨h₁, h₂, h₃, h₄⟩ := ih (p := fulfil p d) hnd' (by
      intro x hx
      obtain ⟨i, hi, hp⟩ := hpos x (List.mem_cons_of_mem d hx)
      exact ⟨i, by rw [hinfos, if_neg (hne x hx)]; exact hi, hp⟩)
    rw [List.foldl_cons]
    refine ⟨?_, ?_, ?_, h₄.trans hunder⟩
    · intro k
      rw [h₁, hinfos]
      by_cases hk : k = d
      · subst hk
        simp [hi₀, hd]
      · simp [hk]
    · intro k
      rw [h₂, hqueue]
      by_cases hk : k = d
      · subst hk
        simp only [hd, false_and, or_false, List.mem_cons, true_and, hi₀, Option.some.injEq,
          exists_eq_left']
        split <;> simp_all
      · rw [hinfos, if_neg hk]
        have : (k ∈ if i₀.numMissingContinuous = 1 then p.queue ++ [d] else p.queue) ↔
          k ∈ p.queue := by
          split <;> simp [hk]
        rw [this]
        simp [hk]
    · intro hq hdis
      refine h₃ ?_ ?_
      · rw [hqueue]
        split
        · refine List.nodup_append.2 ⟨hq, List.pairwise_singleton _ _, ?_⟩
          rintro x hx y hy rfl
          rw [List.mem_singleton.1 hy] at hx
          exact hdis d List.mem_cons_self hx
        · exact hq
      · intro x hx
        rw [hqueue]
        have := hdis x (List.mem_cons_of_mem d hx)
        split <;> simp [this, hne x hx]

/-- **The invariant of the search**: the counters are right for the ids `seen`, which
include those taken from the queue, and the queue holds the frames that became
continuous since. -/
structure Searching (p : Propagation) (last : Option Int) (done seen : List Int) : Prop where
  links : Links p.infos last done
  counter : ∀ (k : Int) (i : FrameInfo) f, p.infos[k]? = some i → i.frame = some f →
    i.numMissingContinuous = f.references.countP (· ∉ seen)
  nodup : p.queue.Nodup
  queued : ∀ k ∈ p.queue, k ∉ seen ∧
    ∃ i f, p.infos[k]? = some i ∧ i.frame = some f ∧ i.numMissingContinuous = 0
  complete : ∀ (k : Int) (i : FrameInfo) f, p.infos[k]? = some i → i.frame = some f →
    i.numMissingContinuous = 0 → k ∈ seen ∨ k ∈ p.queue
  zero : ∀ (k : Int) (i : FrameInfo) f, p.infos[k]? = some i → i.frame = some f → k ∈ seen →
    i.numMissingContinuous = 0
  noUnderflow : p.underflow = false

variable {done seen : List Int}

variable {i₀ : FrameInfo}

theorem Searching.waits (h : Searching p last done seen)
    (hk : k ∈ p.queue) (hi₀ : p.infos[k]? = some i₀) {d : Int} (hd : d ∈ i₀.dependentFrames) :
    ∃ i f, p.infos[d]? = some i ∧ i.frame = some f ∧ k ∈ f.references ∧
      0 < i.numMissingContinuous := by
  obtain ⟨f, ⟨i, hi, hf⟩, hmem⟩ := (h.links.dependents k i₀ hi₀ d).1 hd
  refine ⟨i, f, hi, hf, hmem, ?_⟩
  rw [h.counter d i f hi hf, List.countP_pos_iff]
  exact ⟨k, hmem, by simpa using (h.queued k hk).1⟩

/-- The entries and the queue after the dependents `ids` of `k` were told. -/
structure Told (p p' : Propagation) (k : Int) (ids : List Int) : Prop where
  /-- A frame that refers to `k` waits for one reference less. -/
  entry : ∀ (x : Int) (i' : FrameInfo) f, p'.infos[x]? = some i' → i'.frame = some f →
    ∃ i, p.infos[x]? = some i ∧ i.frame = some f ∧
      ((x ∈ ids ∧ i'.numMissingContinuous + 1 = i.numMissingContinuous ∧ k ∈ f.references) ∨
        (x ∉ ids ∧ i'.numMissingContinuous = i.numMissingContinuous ∧ k ∉ f.references))
  infos : ∀ x : Int, p'.infos[x]? = p.infos[x]?.map fun i =>
    if x ∈ ids then { i with numMissingContinuous := i.numMissingContinuous - 1 } else i
  queue : ∀ x, x ∈ p'.queue ↔ x ∈ p.queue.tail ∨
    (x ∈ ids ∧ ∃ i, p.infos[x]? = some i ∧ i.numMissingContinuous = 1)

variable {q : List Int}

theorem Searching.told (h : Searching p last done seen)
    (hq : p.queue = k :: q) (hi₀ : p.infos[k]? = some i₀) :
    Told p (i₀.dependentFrames.foldl fulfil { p with queue := q }) k i₀.dependentFrames ∧
      (q.Nodup → (∀ d ∈ i₀.dependentFrames, d ∉ q) →
        (i₀.dependentFrames.foldl fulfil { p with queue := q }).queue.Nodup) ∧
      (i₀.dependentFrames.foldl fulfil { p with queue := q }).underflow = p.underflow := by
  have hk : k ∈ p.queue := hq ▸ List.mem_cons_self
  obtain ⟨hinfos, hqueue, hnodup, hunder⟩ := foldl_fulfil_spec (p := { p with queue := q })
    (h.links.nodup k i₀ hi₀) fun d hd => by
      obtain ⟨i, f, hi, -, -, hpos⟩ := h.waits hk hi₀ hd
      exact ⟨i, hi, hpos⟩
  refine ⟨⟨?_, hinfos, by rwa [hq]⟩, hnodup, hunder⟩
  intro x i' f hi' hf
  rw [hinfos] at hi'
  obtain ⟨i, hi, rfl⟩ := Option.map_eq_some_iff.1 hi'
  by_cases hx : x ∈ i₀.dependentFrames
  · rw [if_pos hx] at hf ⊢
    obtain ⟨i₁, f₁, hi₁, hf₁, hmem, hpos⟩ := h.waits hk hi₀ hx
    cases hi.symm.trans hi₁
    cases hf.symm.trans hf₁
    exact ⟨i, hi, hf, Or.inl ⟨hx, by simp only; omega, hmem⟩⟩
  · rw [if_neg hx] at hf ⊢
    refine ⟨i, hi, hf, Or.inr ⟨hx, rfl, ?_⟩⟩
    exact fun hmem => hx ((h.links.dependents k i₀ hi₀ x).2 ⟨f, ⟨i, hi, hf⟩, hmem⟩)

theorem Searching.counter_told {ids : List Int} (h : Searching p last done seen)
    (hk : k ∈ p.queue) (ht : Told p p' k ids) {x : Int} {i' : FrameInfo} {f : FrameToDecode}
    (hi' : p'.infos[x]? = some i') (hf : i'.frame = some f) :
    i'.numMissingContinuous = f.references.countP (· ∉ seen ++ [k]) := by
  obtain ⟨i, hi, hf', hcase⟩ := ht.entry x i' f hi' hf
  have hold := h.counter x i f hi hf'
  have hstep := countP_not_mem_append f.nodup (h.queued k hk).1
  rcases hcase with ⟨-, hn, hmem⟩ | ⟨-, hn, hmem⟩
  · rw [if_pos hmem] at hstep
    omega
  · rw [if_neg hmem] at hstep
    omega

theorem Searching.queued_told (h : Searching p last done seen) (hq : p.queue = k :: q)
    (hi₀ : p.infos[k]? = some i₀)
    (ht : Told p p' k i₀.dependentFrames) {x : Int} (hx : x ∈ p'.queue) :
    x ∉ seen ++ [k] ∧
      ∃ i f, p'.infos[x]? = some i ∧ i.frame = some f ∧ i.numMissingContinuous = 0 := by
  have hk : k ∈ p.queue := hq ▸ List.mem_cons_self
  have hkq : k ∉ q := (List.nodup_cons.1 (hq ▸ h.nodup)).1
  rcases (ht.queue x).1 hx with hxq | ⟨hxd, i, hi, hone⟩
  · rw [hq, List.tail_cons] at hxq
    obtain ⟨hns, i, f, hi, hf, hz⟩ := h.queued x (by rw [hq]; exact List.mem_cons_of_mem k hxq)
    have hxk : x ≠ k := fun h' => hkq (h' ▸ hxq)
    have hxd : x ∉ i₀.dependentFrames := by
      intro hxd
      obtain ⟨i₁, f₁, hi₁, -, -, hpos⟩ := h.waits hk hi₀ hxd
      cases hi.symm.trans hi₁
      omega
    refine ⟨by simp [hns, hxk], i, f, ?_, hf, hz⟩
    rw [ht.infos]
    simp only [hi, hxd, if_false, Option.map_some]
  · obtain ⟨i₁, f₁, hi₁, hf₁, hmem, hpos⟩ := h.waits hk hi₀ hxd
    cases hi.symm.trans hi₁
    have hxk : k < x := h.links.below x f₁ ⟨i, hi, hf₁⟩ k hmem
    have hns : x ∉ seen := by
      intro hs
      have := h.zero x i f₁ hi hf₁ hs
      omega
    refine ⟨?_, { i with numMissingContinuous := i.numMissingContinuous - 1 }, f₁, ?_, hf₁, ?_⟩
    · simp only [List.mem_append, List.mem_singleton, hns, false_or]
      omega
    · rw [ht.infos]
      simp only [hi, hxd, if_true, Option.map_some]
    · simp only
      omega

theorem Searching.step
    (h : Searching p last done seen) (hq : p.queue = k :: q) :
    Searching ((p.infos[k]?.getD {}).dependentFrames.foldl fulfil { p with queue := q }) last done
      (seen ++ [k]) := by
  have hk : k ∈ p.queue := hq ▸ List.mem_cons_self
  obtain ⟨-, i₀, f₀, hi₀, hf₀, hzero₀⟩ := h.queued k hk
  rw [hi₀, Option.getD_some]
  obtain ⟨ht, hnodup, hunder⟩ := h.told hq hi₀
  have hsame := sameLinks_foldl_fulfil { p with queue := q } i₀.dependentFrames
  generalize i₀.dependentFrames.foldl fulfil { p with queue := q } = p' at *
  refine ⟨h.links.of_sameLinks hsame, fun x i' f => h.counter_told hk ht, ?_,
    fun x => h.queued_told hq hi₀ ht, ?_, ?_, hunder.trans h.noUnderflow⟩
  · refine hnodup (List.nodup_cons.1 (hq ▸ h.nodup)).2 ?_
    intro d hd hdq
    obtain ⟨i, f, hi, hf, -, hpos⟩ := h.waits hk hi₀ hd
    obtain ⟨-, i₁, f₁, hi₁, -, hz⟩ := h.queued d (by rw [hq]; exact List.mem_cons_of_mem k hdq)
    cases hi.symm.trans hi₁
    omega
  · intro x i' f hi' hf hz
    obtain ⟨i, hi, hf', hcase⟩ := ht.entry x i' f hi' hf
    rcases hcase with ⟨hxd, hn, -⟩ | ⟨-, hn, -⟩
    · exact Or.inr ((ht.queue x).2 (Or.inr ⟨hxd, i, hi, by omega⟩))
    · rcases h.complete x i f hi hf' (by omega) with hs | hxq
      · exact Or.inl (List.mem_append_left _ hs)
      · rw [hq] at hxq
        rcases List.mem_cons.1 hxq with rfl | hxq
        · exact Or.inl (by simp)
        · exact Or.inr ((ht.queue x).2 (Or.inl (by rwa [hq])))
  · intro x i' f hi' hf hs
    rw [h.counter_told hk ht hi' hf, List.countP_eq_zero]
    obtain ⟨i, hi, hf', -⟩ := ht.entry x i' f hi' hf
    have hz : i.numMissingContinuous = 0 := by
      rcases List.mem_append.1 hs with hs | hs
      · exact h.zero x i f hi hf' hs
      · rw [List.mem_singleton.1 hs] at hi
        cases hi.symm.trans hi₀
        exact hzero₀
    rw [h.counter x i f hi hf', List.countP_eq_zero] at hz
    intro r hr
    have := hz r hr
    simp only [decide_eq_true_eq, not_not] at this ⊢
    exact List.mem_append_left _ this

theorem Searching.counted
    (h : Searching p last done seen) (hq : p.queue = []) : Counted p.infos seen where
  counter := h.counter
  zero k i f hi hf := by
    refine ⟨h.zero k i f hi hf, fun hz => ?_⟩
    rcases h.complete k i f hi hf hz with hs | hs
    · exact hs
    · rw [hq] at hs
      exact absurd hs List.not_mem_nil

/-- **The search ends with right counters** for the ids seen before it and the frames
it took from the queue, all of which are buffered and continuous. -/
theorem propagateLoop_spec {fuel : Nat} {p p' : Propagation} {newest newest' last : Option Int}
    (h : Searching p last done seen) (hrun : propagateLoop fuel p newest = some (p', newest')) :
    ∃ seen', Counted p'.infos seen' ∧ p'.underflow = false ∧ (∀ k ∈ seen, k ∈ seen') ∧
      ∀ k ∈ seen', k ∈ seen ∨ ∃ f, Buffered p'.infos k f := by
  induction fuel generalizing p newest seen with
  | zero =>
    rw [propagateLoop] at hrun
    split at hrun
    · rename_i hq
      cases hrun
      exact ⟨seen, h.counted hq, h.noUnderflow, fun _ hk => hk, fun _ hk => Or.inl hk⟩
    · cases hrun
  | succ fuel ih =>
    rw [propagateLoop] at hrun
    cases hq : p.queue with
    | nil =>
      simp only [hq] at hrun
      cases hrun
      exact ⟨seen, h.counted hq, h.noUnderflow, fun _ hk => hk, fun _ hk => Or.inl hk⟩
    | cons k q =>
      simp only [hq] at hrun
      obtain ⟨-, i₀, f₀, hi₀, hf₀, -⟩ := h.queued k (by rw [hq]; exact List.mem_cons_self)
      obtain ⟨seen', hcount, hunder, hsub, hnew⟩ := ih (h.step hq) hrun
      refine ⟨seen', hcount, hunder, fun x hx => hsub x (List.mem_append_left _ hx), ?_⟩
      intro x hx
      rcases hnew x hx with hs | hb
      · rcases List.mem_append.1 hs with hs | hs
        · exact Or.inl hs
        · rw [List.mem_singleton.1 hs]
          have hsame := (sameLinks_foldl_fulfil { p with queue := q }
            (p.infos[k]?.getD {}).dependentFrames).trans (sameLinks_propagateLoop hrun)
          exact Or.inr ⟨f₀, (buffered_of_sameLinks hsame).2 ⟨i₀, hi₀, hf₀⟩⟩
      · exact Or.inr hb

/-! ## The invariant between two calls -/

theorem mem_continuousIds :
    k ∈ s.continuousIds ↔
      ∃ i f, s.frameInfos[k]? = some i ∧ i.frame = some f ∧ i.numMissingContinuous = 0 := by
  unfold continuousIds
  rw [List.mem_filterMap]
  constructor
  · rintro ⟨⟨k', i⟩, hmem, hk⟩
    simp only at hk
    split at hk
    · rename_i hc
      cases hk
      simp only [Bool.and_eq_true, FrameInfo.continuous, beq_iff_eq] at hc
      obtain ⟨f, hf⟩ := Option.isSome_iff_exists.1 hc.1
      exact ⟨i, f, Std.TreeMap.mem_toList_iff_getElem?_eq_some.1 hmem, hf, hc.2⟩
    · cases hk
  · rintro ⟨i, f, hi, hf, hz⟩
    refine ⟨(k, i), Std.TreeMap.mem_toList_iff_getElem?_eq_some.2 hi, ?_⟩
    simp [hf, FrameInfo.continuous, hz]

/-- **The invariant of a run that never refers to a placeholder**: `arrived` are the
frames stored and `seen` the ids seen continuous since the last clear. -/
structure Cont (m : FrameInfoMap) (last : Option Int) (done seen : List Int)
    (arrived : List FrameToDecode) : Prop where
  counted : Counted m seen
  /-- A frame seen continuous stays until a newer one is decoded. -/
  live : ∀ k ∈ seen, Above last k → ∃ f, Buffered m k f
  decoded : ∀ d ∈ done, d ∈ seen
  buffered : ∀ k f, Buffered m k f → f ∈ arrived
  gone : ∀ g ∈ arrived, Buffered m g.id g ∨ ¬ Above last g.id
  below : ∀ g ∈ arrived, ∀ r ∈ g.references, r < g.id
  known : ∀ k ∈ seen, ∃ g ∈ arrived, g.id = k
  /-- A frame that arrived was seen continuous exactly when all its references were. -/
  closed : ∀ g ∈ arrived, (g.id ∈ seen ↔ ∀ r ∈ g.references, r ∈ seen)

theorem cont_empty (last : Option Int) : Cont ∅ last [] [] [] := by
  refine ⟨⟨?_, ?_⟩, ?_, ?_, ?_, ?_, ?_, ?_, ?_⟩ <;> simp [Buffered]

variable {arrived : List FrameToDecode}

theorem Cont.congr {done seen seen' : List Int} (hc : Cont m last done seen arrived)
    (h : ∀ k, k ∈ seen ↔ k ∈ seen') : Cont m last done seen' arrived where
  counted := hc.counted.congr h
  live k hk := hc.live k ((h k).2 hk)
  decoded d hd := (h d).1 (hc.decoded d hd)
  buffered := hc.buffered
  gone := hc.gone
  below := hc.below
  known k hk := hc.known k ((h k).2 hk)
  closed g hg := by
    rw [← h, hc.closed g hg]
    simp only [h]

theorem Cont.watch {done seen seen' : List Int} (hc : Cont s.frameInfos last done seen' arrived)
    (hsub : ∀ k ∈ seen, k ∈ seen')
    (hnew : ∀ k ∈ seen', k ∈ seen ∨ ∃ f, Buffered s.frameInfos k f) :
    Cont s.frameInfos last done (seen ++ s.continuousIds) arrived := by
  refine hc.congr fun k => ?_
  rw [List.mem_append, mem_continuousIds]
  constructor
  · intro hk
    rcases hnew k hk with h | ⟨f, i, hi, hf⟩
    · exact Or.inl h
    · exact Or.inr ⟨i, f, hi, hf, (hc.counted.zero k i f hi hf).1 hk⟩
  · rintro (hk | ⟨i, f, hi, hf, hz⟩)
    · exact hsub k hk
    · exact (hc.counted.zero k i f hi hf).2 hz

theorem Counted.closed {seen : List Int} (hc : Counted m seen)
    {f : FrameToDecode} (hb : Buffered m k f) : k ∈ seen ↔ ∀ r ∈ f.references, r ∈ seen := by
  obtain ⟨i, hi, hf⟩ := hb
  rw [hc.zero k i f hi hf, hc.counter k i f hi hf, List.countP_eq_zero]
  simp

section Storing

variable {m m' : FrameInfoMap} {last : Option Int} {done seen : List Int}
  {arrived : List FrameToDecode} {f : FrameToDecode} {deps : List (Int × Bool)}

/-- No reference of the frame is a placeholder. -/
def RefersToFrames (m : FrameInfoMap) (f : FrameToDecode) : Prop :=
  ∀ r ∈ f.references, ∀ i : FrameInfo, m[r]? = some i → i.frame.isSome = true

section

variable (hc : Cont m last done seen arrived)
include hc

theorem Cont.deps_iff (hrefs : RefersToFrames m f)
    (hd : ∀ r, r ∈ deps.map Prod.fst ↔ r ∈ f.references ∧ Above last r)
    (hb : ∀ d ∈ deps, d.2 = m[d.1]?.any (·.continuous)) {d : Int × Bool} (hmem : d ∈ deps) :
    d.2 = true ↔ d.1 ∈ seen := by
  obtain ⟨hr, ha⟩ := (hd d.1).1 (List.mem_map_of_mem hmem)
  rw [hb d hmem]
  constructor
  · intro h
    cases hi : m[d.1]? with
    | none => simp [hi] at h
    | some i =>
      obtain ⟨g, hg⟩ := Option.isSome_iff_exists.1 (hrefs d.1 hr i hi)
      exact (hc.counted.zero d.1 i g hi hg).2 (by simpa [hi, FrameInfo.continuous] using h)
  · intro hs
    obtain ⟨g, i, hi, hg⟩ := hc.live d.1 hs ha
    rw [hi]
    simpa [FrameInfo.continuous] using (hc.counted.zero d.1 i g hi hg).1 hs

theorem Cont.count_deps (hrefs : RefersToFrames m f)
    (hfst : deps.map Prod.fst = f.references.filter (fun r => !last.any (r ≤ ·)))
    (hdone : ∀ r ∈ f.references, Above last r ↔ r ∉ done)
    (hb : ∀ d ∈ deps, d.2 = m[d.1]?.any (·.continuous)) :
    deps.length - deps.countP (·.2) = f.references.countP (· ∉ seen) := by
  have hd : ∀ r, r ∈ deps.map Prod.fst ↔ r ∈ f.references ∧ Above last r := by
    intro r
    rw [hfst, List.mem_filter, above_iff]
    simp
  have hsplit : deps.length = deps.countP (·.2) + deps.countP (fun d => !d.2) := by
    simpa using List.length_eq_countP_add_countP (fun d : Int × Bool => d.2) (l := deps)
  have hneg : deps.countP (fun d => !d.2) = (deps.map Prod.fst).countP (· ∉ seen) := by
    rw [List.countP_map]
    refine List.countP_congr fun d hmem => ?_
    have := hc.deps_iff hrefs hd hb hmem
    simp [← this]
  have hfilter : (deps.map Prod.fst).countP (· ∉ seen) = f.references.countP (· ∉ seen) := by
    rw [hfst, List.countP_filter]
    refine List.countP_congr fun r hr => ?_
    have hr' := hdone r hr
    rw [above_iff] at hr'
    have hsub := hc.decoded r
    by_cases hmem : r ∈ seen
    · simp [hmem]
    · have : r ∉ done := fun h => hmem (hsub h)
      simpa [hmem] using hr'.2 this
  omega

theorem Cont.not_seen (ha : Above last f.id)
    (hvacant : ∀ i : FrameInfo, m[f.id]? = some i → i.frame = none) : f.id ∉ seen := by
  intro hs
  obtain ⟨g, i, hi, hg⟩ := hc.live f.id hs ha
  rw [hvacant i hi] at hg
  cases hg

theorem Cont.counter_stored (hm : Stored m f deps m')
    (hcount : deps.length - deps.countP (·.2) = f.references.countP (· ∉ seen)) :
    (∀ (k : Int) (i : FrameInfo) g, m'[k]? = some i → i.frame = some g →
      i.numMissingContinuous = g.references.countP (· ∉ seen)) ∧
    ∀ (k : Int) (i : FrameInfo) g, k ≠ f.id → m'[k]? = some i → i.frame = some g →
      (k ∈ seen ↔ i.numMissingContinuous = 0) := by
  have hold : ∀ (k : Int) (i' : FrameInfo) g, k ≠ f.id → m'[k]? = some i' → i'.frame = some g →
      ∃ i, m[k]? = some i ∧ i.frame = some g ∧
        i'.numMissingContinuous = i.numMissingContinuous := by
    intro k i' g hk hi' hg
    rcases hm.cases hi' with ⟨h, -⟩ | ⟨-, hf, -, hn, -⟩
    · exact absurd h hk
    · cases hmk : m[k]? with
      | none =>
        rw [hmk] at hf
        rw [hf] at hg
        cases hg
      | some i =>
        rw [hmk] at hf hn
        exact ⟨i, rfl, hf.symm.trans hg, hn⟩
  constructor
  · intro k i' g hi' hg
    by_cases hk : k = f.id
    · subst hk
      rw [hm.own] at hi'
      cases hi'
      cases hg
      exact hcount
    · obtain ⟨i, hi, hg', hn⟩ := hold k i' g hk hi' hg
      rw [hn]
      exact hc.counted.counter k i g hi hg'
  · intro k i' g hk hi' hg
    obtain ⟨i, hi, hg', hn⟩ := hold k i' g hk hi' hg
    rw [hn]
    exact hc.counted.zero k i g hi hg'

/-- The parts of the invariant that a stored frame touches in the same way whether or
not it is continuous. -/
theorem Cont.grow
    (hm : Stored m f deps m') (hbelow : ∀ r ∈ f.references, r < f.id) {m'' : FrameInfoMap}
    (hsame : SameLinks m' m'') {seen' : List Int} (hcount : Counted m'' seen')
    (hl'' : Links m'' last done) (hsub : ∀ k ∈ seen, k ∈ seen')
    (hnew : ∀ k ∈ seen', k ∈ seen ∨ ∃ f, Buffered m'' k f) :
    Cont m'' last done seen' (arrived ++ [f]) := by
  have hbuf : ∀ k g, Buffered m'' k g ↔ (k = f.id ∧ g = f) ∨ Buffered m k g := fun k g =>
    (buffered_of_sameLinks hsame).trans hm.buffered_iff
  have hgone : ∀ g ∈ arrived ++ [f], Buffered m'' g.id g ∨ ¬ Above last g.id := by
    intro g hg
    rcases List.mem_append.1 hg with hg | hg
    · exact (hc.gone g hg).imp (fun h => (hbuf _ _).2 (Or.inr h)) id
    · rw [List.mem_singleton.1 hg]
      exact Or.inl ((hbuf _ _).2 (Or.inl ⟨rfl, rfl⟩))
  have hbelow' : ∀ g ∈ arrived ++ [f], ∀ r ∈ g.references, r < g.id := by
    intro g hg
    rcases List.mem_append.1 hg with hg | hg
    · exact hc.below g hg
    · exact List.mem_singleton.1 hg ▸ hbelow
  refine ⟨hcount, ?_, fun d hd => hsub d (hc.decoded d hd), ?_, hgone, hbelow', ?_, ?_⟩
  · intro k hk ha
    rcases hnew k hk with hs | hb
    · obtain ⟨g, hg⟩ := hc.live k hs ha
      exact ⟨g, (hbuf k g).2 (Or.inr hg)⟩
    · exact hb
  · intro k g hg
    rcases (hbuf k g).1 hg with ⟨-, rfl⟩ | hg
    · simp
    · exact List.mem_append_left _ (hc.buffered k g hg)
  · intro k hk
    rcases hnew k hk with hs | ⟨g, hg⟩
    · obtain ⟨g, hg, hgk⟩ := hc.known k hs
      exact ⟨g, List.mem_append_left _ hg, hgk⟩
    · have hid := hl''.own k g hg
      rcases (hbuf k g).1 hg with ⟨-, rfl⟩ | hg
      · exact ⟨g, by simp, hid⟩
      · exact ⟨g, List.mem_append_left _ (hc.buffered k g hg), hid⟩
  · intro g hg
    rcases hgone g hg with hb | hna
    · exact hcount.closed hb
    · -- the frame is gone, and nothing at or before the last decoded id is seen any more
      have hold : ∀ k, ¬ Above last k → (k ∈ seen' ↔ k ∈ seen) := by
        intro k hk
        refine ⟨fun h => ?_, hsub k⟩
        rcases hnew k h with hs | ⟨x, i, hi, -⟩
        · exact hs
        · exact absurd (hl''.above k i hi) hk
      have hrefs : ∀ r ∈ g.references, (r ∈ seen' ↔ r ∈ seen) := by
        intro r hr
        refine hold r fun har => hna ?_
        intro l hl'
        have h₁ := har l hl'
        have h₂ := hbelow' g hg r hr
        omega
      have hgold : g ∈ arrived := by
        rcases List.mem_append.1 hg with h | h
        · exact h
        · rw [List.mem_singleton.1 h] at hna
          obtain ⟨i, hi, -⟩ := (hbuf f.id f).2 (Or.inl ⟨rfl, rfl⟩)
          exact absurd (hl''.above f.id i hi) hna
      rw [hold g.id hna, hc.closed g hgold]
      exact forall₂_congr fun r hr => (hrefs r hr).symm

end

end Storing

section Accepting

variable {s₀ s' : FrameBuffer} {done seen : List Int} {arrived : List FrameToDecode}
  {f : FrameToDecode}

theorem Cont.touch {m : FrameInfoMap} {last : Option Int}
    (hc : Cont m last done seen arrived) :
    Cont (updateInfo m f.id id) last done seen arrived := by
  have hget : ∀ (k : Int) (i : FrameInfo) g, i.frame = some g →
      ((updateInfo m f.id id)[k]? = some i ↔ m[k]? = some i) := by
    intro k i g hg
    rw [getElem?_updateInfo]
    split
    · cases hm : m[k]? with
      | none =>
        simp only [Option.getD_none, id_eq, Option.some.injEq, reduceCtorEq, iff_false]
        rintro rfl
        cases hg
      | some j => simp
    · rfl
  have hbuf : ∀ k g, Buffered (updateInfo m f.id id) k g ↔ Buffered m k g := by
    intro k g
    constructor
    · rintro ⟨i, hi, hg⟩
      exact ⟨i, (hget k i g hg).1 hi, hg⟩
    · rintro ⟨i, hi, hg⟩
      exact ⟨i, (hget k i g hg).2 hi, hg⟩
  refine ⟨⟨?_, ?_⟩, ?_, hc.decoded, ?_, ?_, hc.below, hc.known, hc.closed⟩
  · exact fun k i g hi hg => hc.counted.counter k i g ((hget k i g hg).1 hi) hg
  · exact fun k i g hi hg => hc.counted.zero k i g ((hget k i g hg).1 hi) hg
  · intro k hk ha
    obtain ⟨g, hg⟩ := hc.live k hk ha
    exact ⟨g, (hbuf k g).2 hg⟩
  · exact fun k g hg => hc.buffered k g ((hbuf k g).1 hg)
  · exact fun g hg => (hc.gone g hg).imp (hbuf _ _).2 id

/-- **A frame that refers to no placeholder keeps the counters right**, and no counter
goes below zero. -/
theorem Cont.accepted (hb : BufferInv s₀ done)
    (hc : Cont s₀.frameInfos s₀.decodedFramesHistory.lastDecodedFrameId done seen arrived)
    (hv : validReferences f = true) (ha : Above s₀.decodedFramesHistory.lastDecodedFrameId f.id)
    (hrefs : RefersToFrames s₀.frameInfos f) {ok u : Bool} (hacc : Accepted s₀ f s' ok u) :
    Cont s'.frameInfos s'.decodedFramesHistory.lastDecodedFrameId done
      (seen ++ s'.continuousIds) (arrived ++ if ok then [f] else []) ∧ u = false := by
  have hbelow : ∀ r ∈ f.references, r < f.id := fun _ hr => lt_of_mem_references hv hr
  -- the counters after the frame was stored, before the search
  have hstored : ∀ {deps m'}, notYetFulfilled s₀ (updateInfo s₀.frameInfos f.id id) f.references
      = some deps → Stored s₀.frameInfos f deps m' → deps.length - deps.countP (·.2)
        = f.references.countP (· ∉ seen) := by
    intro deps m' hdeps hm
    obtain ⟨hfst, -, hcont⟩ := notYetFulfilled_spec hdeps
    refine hc.count_deps hrefs hfst (hb.mem_deps hdeps).2 ?_
    intro d hd
    have hr : d.1 ∈ f.references := (((hb.mem_deps hdeps).1 d.1).1 (List.mem_map_of_mem hd)).1
    rw [hcont d hd, getElem?_updateInfo, if_neg (hbelow _ hr).ne]
  cases hacc with
  | dropped =>
    refine ⟨?_, rfl⟩
    simp only [Bool.false_eq_true, if_false, List.append_nil]
    exact Cont.watch (s := { s₀ with frameInfos := updateInfo s₀.frameInfos f.id id }) hc.touch
      (fun _ hk => hk) fun _ hk => Or.inl hk
  | @waiting deps m' hdeps hm hcont =>
    refine ⟨?_, rfl⟩
    have hcount := hstored hdeps hm
    obtain ⟨h₁, h₂⟩ := hc.counter_stored hm hcount
    have hns := hc.not_seen ha hm.vacant
    have hcounted : Counted m' seen := by
      refine ⟨h₁, ?_⟩
      intro k i g hi hg
      by_cases hk : k = f.id
      · subst hk
        refine iff_of_false hns ?_
        simpa [hi, FrameInfo.continuous] using hcont
      · exact h₂ k i g hk hi hg
    exact Cont.watch (s := { s₀ with frameInfos := m' })
      (hc.grow hm hbelow (SameLinks.refl _) hcounted (hb.links_stored hv ha hdeps hm)
        (fun _ hk => hk) fun _ hk => Or.inl hk) (fun _ hk => hk) fun _ hk => Or.inl hk
  | @continuous deps m' hdeps hm hcont _ _ hs₁ =>
    have hcount := hstored hdeps hm
    obtain ⟨h₁, h₂⟩ := hc.counter_stored hm hcount
    have hns := hc.not_seen ha hm.vacant
    have hlinks := hb.links_stored hv ha hdeps hm
    have hzero : f.references.countP (· ∉ seen) = 0 := by
      rw [hm.own] at hcont
      rw [← hcount]
      simpa [FrameInfo.continuous] using hcont
    have hsearch : Searching ⟨m', [f.id], false⟩ s₀.decodedFramesHistory.lastDecodedFrameId done
        seen := by
      refine ⟨hlinks, h₁, List.pairwise_singleton _ _, ?_, ?_, ?_, rfl⟩
      · intro k hk
        rw [List.mem_singleton.1 hk]
        exact ⟨hns, _, f, hm.own, rfl, hcount.trans hzero⟩
      · intro k i g hi hg hz
        by_cases hk : k = f.id
        · exact Or.inr (by simp [hk])
        · exact Or.inl ((h₂ k i g hk hi hg).2 hz)
      · intro k i g hi hg hs
        have hk : k ≠ f.id := fun h => hns (h ▸ hs)
        exact (h₂ k i g hk hi hg).1 hs
    -- the search has rounds enough
    obtain ⟨hsame, hhist, -⟩ := propagateContinuity_spec hs₁
    have hsome := propagateContinuity_isSome (s := { s₀ with frameInfos := m' }) hlinks f.id
    unfold propagateContinuity at hs₁ hsome
    cases hrun : propagateLoop (propagationFuel m')
      ⟨m', [f.id], false⟩ s₀.lastContinuousFrameId with
    | none =>
      simp only [hrun, Option.map_none] at hsome
      cases hsome
    | some r =>
      obtain ⟨seen', hcounted, hunder, hsub, hnew⟩ := propagateLoop_spec hsearch hrun
      simp only [hrun, Option.map_some, Option.getD_some, Prod.mk.injEq] at hs₁
      have hinfos : s'.frameInfos = r.1.infos := by rw [hs₁.1]
      refine ⟨?_, hs₁.2.trans hunder⟩
      rw [← hinfos] at hcounted hnew
      rw [hhist]
      exact Cont.watch (hc.grow hm hbelow hsame hcounted (hlinks.of_sameLinks hsame) hsub hnew)
        hsub hnew

end Accepting

theorem Cont.decoded_step (hb : BufferInv s done)
    (hc : Cont s.frameInfos s.decodedFramesHistory.lastDecodedFrameId done seen arrived) {id : Int}
    {info : FrameInfo} {f : FrameToDecode} (hinfo : s.frameInfos[id]? = some info)
    (hf : info.frame = some f) (hseen : id ∈ seen) :
    Cont (s.getNextFrameToDecode id info f).frameInfos
      (s.getNextFrameToDecode id info f).decodedFramesHistory.lastDecodedFrameId (done ++ [f.id])
      (seen ++ (s.getNextFrameToDecode id info f).continuousIds) arrived := by
  have hid : f.id = id := hb.links.own id f ⟨info, hinfo, hf⟩
  have hget : ∀ (k : Int) (i' : FrameInfo),
      (s.getNextFrameToDecode id info f).frameInfos[k]? = some i' ↔
        id < k ∧ ∃ i, s.frameInfos[k]? = some i ∧ i' = (if k ∈ info.dependentFrames then
          { i with numMissingDecodable := i.numMissingDecodable - 1 } else i) := by
    intro k i'
    unfold FrameBuffer.getNextFrameToDecode
    simp only
    rw [getElem?_eraseUpTo, getElem?_propagateDecodability _ (hb.links.nodup id info hinfo)]
    split
    · rename_i hk
      simp [hk, eq_comm]
    · rename_i hk
      simp [hk]
  have hback : ∀ (k : Int) (i' : FrameInfo) g,
      (s.getNextFrameToDecode id info f).frameInfos[k]? = some i' → i'.frame = some g →
        id < k ∧ ∃ i, s.frameInfos[k]? = some i ∧ i.frame = some g ∧
          i'.numMissingContinuous = i.numMissingContinuous := by
    intro k i' g hi' hg
    obtain ⟨hk, i, hi, rfl⟩ := (hget k i').1 hi'
    refine ⟨hk, i, hi, ?_⟩
    split at hg
    · rename_i hd
      rw [if_pos hd]
      exact ⟨hg, rfl⟩
    · rename_i hd
      rw [if_neg hd]
      exact ⟨hg, rfl⟩
  have hbuf : ∀ k g, id < k → Buffered s.frameInfos k g →
      Buffered (s.getNextFrameToDecode id info f).frameInfos k g := by
    rintro k g hk ⟨i, hi, hg⟩
    refine ⟨_, (hget k _).2 ⟨hk, i, hi, rfl⟩, ?_⟩
    split
    · exact hg
    · exact hg
  have hlast : (s.getNextFrameToDecode id info f).decodedFramesHistory.lastDecodedFrameId
      = some f.id := rfl
  have hmono : ∀ k, Above (some f.id) k → Above s.decodedFramesHistory.lastDecodedFrameId k ∧
    id < k := by
    intro k hk
    have hlt : id < k := hid ▸ hk f.id rfl
    refine ⟨fun l hl => ?_, hlt⟩
    have := hb.links.above id info hinfo l hl
    omega
  have hnext : Cont (s.getNextFrameToDecode id info f).frameInfos (some f.id) (done ++ [f.id]) seen
      arrived := by
    refine ⟨⟨?_, ?_⟩, ?_, ?_, ?_, ?_, hc.below, hc.known, hc.closed⟩
    · intro k i' g hi' hg
      obtain ⟨-, i, hi, hg', hn⟩ := hback k i' g hi' hg
      rw [hn]
      exact hc.counted.counter k i g hi hg'
    · intro k i' g hi' hg
      obtain ⟨-, i, hi, hg', hn⟩ := hback k i' g hi' hg
      rw [hn]
      exact hc.counted.zero k i g hi hg'
    · intro k hk ha
      obtain ⟨ha', hlt⟩ := hmono k ha
      obtain ⟨g, hg⟩ := hc.live k hk ha'
      exact ⟨g, hbuf k g hlt hg⟩
    · intro d hd
      rcases List.mem_append.1 hd with hd | hd
      · exact hc.decoded d hd
      · rw [List.mem_singleton.1 hd, hid]
        exact hseen
    · rintro k g ⟨i', hi', hg⟩
      obtain ⟨-, i, hi, hg', -⟩ := hback k i' g hi' hg
      exact hc.buffered k g ⟨i, hi, hg'⟩
    · intro g hg
      by_cases hlt : id < g.id
      · rcases hc.gone g hg with h | h
        · exact Or.inl (hbuf _ _ hlt h)
        · exact Or.inr fun ha => h (hmono _ ha).1
      · exact Or.inr fun ha => hlt (hmono _ ha).2
  rw [hlast]
  exact hnext.watch (fun _ hk => hk) fun _ hk => Or.inl hk

/-! ## Runs -/

/-- **The condition on a call**: a frame is only inserted if none of its references is
a placeholder at that moment. -/
def refersToFrames (p : World × History) : Op → Prop
  | .insertFrame f => RefersToFrames p.1.buffer.frameInfos f
  | _ => True

/-- Did a continuity counter go below zero? -/
def Event.underflow : Event → Bool
  | .inserted r => r.underflow
  | _ => false

theorem History.update_arrived (h : History) (op : Op) (e : Event) (w : World) :
    (h.update op e w).arrived = cond e.clears [] h.arrived ++ stored op e := by
  unfold History.update
  cases e.clears <;> rfl

theorem History.update_seenContinuous (h : History) (op : Op) (e : Event) (w : World) :
    (h.update op e w).seenContinuous = cond e.clears [] h.seenContinuous ++
      w.buffer.continuousIds := by
  unfold History.update
  cases e.clears <;> rfl

/-- The invariant of the buffer next to its record, in a run that never refers to a
placeholder. -/
structure ContWatch (p : World × History) : Prop where
  watch : WatchInv p
  cont : Cont p.1.buffer.frameInfos p.1.buffer.decodedFramesHistory.lastDecodedFrameId
    (p.2.handedOut.map FrameToDecode.id) p.2.seenContinuous p.2.arrived
  choice : p.1.selected = true → ∀ k, p.1.buffer.frameToDecode = some (some k) →
    k ∈ p.2.seenContinuous

theorem contWatch_start : ContWatch (start, {}) where
  watch := watchInv_start
  cont := cont_empty _
  choice h := by cases h

theorem contWatch_step {p : World × History} (h : ContWatch p) {op : Op}
    (hgood : refersToFrames p op) :
    ContWatch (watched.step p op).1 ∧ (watched.step p op).2.underflow = false := by
  have hwatch := (watchInv_step h.watch op).1
  obtain ⟨⟨s, sel⟩, hist⟩ := p
  obtain ⟨⟨hbuf, -⟩, hcont, hchoice⟩ := h
  simp only at hbuf hcont hchoice
  cases op with
  | insertFrame f =>
    have hgood' : RefersToFrames s.frameInfos f := hgood
    have hftd := (hbuf.insertFrame f).2
    have hmain : Cont (s.insertFrame f).1.frameInfos
        (s.insertFrame f).1.decodedFramesHistory.lastDecodedFrameId
        ((cond (s.insertFrame f).2.cleared [] hist.handedOut).map FrameToDecode.id)
        (cond (s.insertFrame f).2.cleared [] hist.seenContinuous ++
          (s.insertFrame f).1.continuousIds)
        (cond (s.insertFrame f).2.cleared [] hist.arrived ++
          if (s.insertFrame f).2.success then [f] else []) ∧
        (s.insertFrame f).2.underflow = false := by
      rcases insertFrame_cases s f with ⟨r, heq, hok, hcl, hu⟩ | ⟨hv, s₀, hbase, ha, hacc⟩
      · rw [heq]
        simp only [hcl, hok, cond_false, Bool.false_eq_true, if_false, List.append_nil]
        exact ⟨hcont.watch (fun _ hk => hk) fun _ hk => Or.inl hk, hu⟩
      · rcases hbase with ⟨rfl, hcl⟩ | ⟨rfl, hcl⟩
        · rw [hcl]
          exact hcont.accepted hbuf hv ha hgood' hacc
        · rw [hcl]
          refine Cont.accepted hbuf.clear (cont_empty _) hv ha ?_ hacc
          intro r hr i hi
          simp [clearFramesAndHistory] at hi
    refine ⟨⟨hwatch, ?_, ?_⟩, hmain.2⟩
    · rw [watched_step]
      simp only [History.update_handedOut, History.update_arrived, History.update_seenContinuous]
      simpa only [machine, Event.clears, handed, stored, List.append_nil] using hmain.1
    · intro hsel k hk
      rw [watched_step]
      simp only [History.update_seenContinuous]
      change (s.insertFrame f).1.frameToDecode = some (some k) at hk
      simp only [machine, Event.clears]
      cases hcl : (s.insertFrame f).2.cleared with
      | true =>
        rw [hftd.1 hcl] at hk
        cases hk
      | false =>
        rw [(hftd.2 hcl).1] at hk
        exact List.mem_append_left _ (hchoice hsel k hk)
  | findNextFrameToDecode kr mw t =>
    refine ⟨⟨hwatch, ?_, ?_⟩, rfl⟩
    · rw [watched_step]
      simp only [History.update_handedOut, History.update_arrived, History.update_seenContinuous]
      simp only [machine, Event.clears, handed, stored, List.append_nil, cond_false]
      exact hcont.watch (s := (s.findNextFrameToDecode kr mw t).1) (fun _ hk => hk)
        fun _ hk => Or.inl hk
    · intro _ k hk
      obtain ⟨i, f, hi, hf, hcontinuous, -⟩ := findNextFrameToDecode_spec hk
      rw [watched_step]
      simp only [History.update_seenContinuous, machine, Event.clears, cond_false]
      refine List.mem_append_left _ ((hcont.counted.zero k i f hi hf).2 ?_)
      simpa [FrameInfo.continuous] using hcontinuous
  | clear =>
    refine ⟨⟨hwatch, ?_, ?_⟩, rfl⟩
    · rw [watched_step]
      simp only [History.update_handedOut, History.update_arrived, History.update_seenContinuous]
      simp only [machine, Event.clears, handed, stored, List.append_nil, cond_true, List.map_nil,
        List.nil_append]
      have hempty : Cont s.clearFramesAndHistory.frameInfos none [] [] [] := cont_empty _
      exact hempty.watch (fun _ hk => hk) fun _ hk => Or.inl hk
    · intro _ k hk
      cases hk
  | getNextFrameToDecode =>
    rw [watched_step] at hwatch ⊢
    rcases getNextFrameToDecode_cases ⟨s, sel⟩ with hidle |
      ⟨id, info, f, hsel, hftd, hinfo, hf, heq⟩
    · rw [hidle] at hwatch ⊢
      refine ⟨⟨hwatch, ?_, ?_⟩, rfl⟩
      · simp only [History.update_handedOut, History.update_arrived, History.update_seenContinuous]
        simp only [Event.clears, handed, stored, List.append_nil, cond_false]
        exact hcont.watch (fun _ hk => hk) fun _ hk => Or.inl hk
      · intro hsel k hk
        simp only [History.update_seenContinuous, Event.clears, cond_false]
        exact List.mem_append_left _ (hchoice hsel k hk)
    · rw [heq] at hwatch ⊢
      refine ⟨⟨hwatch, ?_, fun h => by cases h⟩, rfl⟩
      simp only [History.update_handedOut, History.update_arrived, History.update_seenContinuous]
      simp only [Event.clears, handed, stored, List.append_nil, cond_false, List.map_append,
        List.map_cons, List.map_nil]
      exact hcont.decoded_step hbuf hinfo hf (hchoice hsel id hftd)

/-- The ids a frame depends on directly or through frames that have arrived. -/
inductive DependsOn (arrived : List FrameToDecode) (f : FrameToDecode) : Int → Prop where
  | direct {r : Int} (hr : r ∈ f.references) : DependsOn arrived f r
  | indirect {g : FrameToDecode} {r : Int} (hg : g ∈ arrived) (hd : DependsOn arrived f g.id)
      (hr : r ∈ g.references) : DependsOn arrived f r

theorem Cont.mem_seen_iff (hc : Cont m last done seen arrived) {f : FrameToDecode}
    (hf : f ∈ arrived) :
    f.id ∈ seen ↔ ∀ r, DependsOn arrived f r → ∃ g ∈ arrived, g.id = r := by
  constructor
  · intro hs r hr
    have hseen : r ∈ seen := by
      induction hr with
      | direct hr => exact (hc.closed f hf).1 hs _ hr
      | indirect hg _ hr ih => exact (hc.closed _ hg).1 ih _ hr
    exact hc.known r hseen
  · intro hall
    -- by induction on how many arrived ids are smaller
    have hdep : ∀ n r, DependsOn arrived f r → arrived.countP (·.id < r) ≤ n → r ∈ seen := by
      intro n
      induction n with
      | zero =>
        intro r hr hn
        obtain ⟨g, hg, rfl⟩ := hall r hr
        refine (hc.closed g hg).2 fun q hq => ?_
        obtain ⟨g', hg', rfl⟩ := hall q (.indirect hg hr hq)
        have hlt := hc.below g hg _ hq
        have hzero : arrived.countP (·.id < g.id) = 0 := by omega
        rw [List.countP_eq_zero] at hzero
        exact absurd (decide_eq_true hlt) (hzero g' hg')
      | succ n ih =>
        intro r hr hn
        obtain ⟨g, hg, rfl⟩ := hall r hr
        refine (hc.closed g hg).2 fun q hq => ih q (.indirect hg hr hq) ?_
        obtain ⟨g', hg', rfl⟩ := hall q (.indirect hg hr hq)
        have hlt := hc.below g hg _ hq
        have hless : arrived.countP (·.id < g'.id) < arrived.countP (·.id < g.id) :=
          countP_lt_of_mem hg' (by simp) (by simpa using hlt) fun x hx => by
            simp only [decide_eq_true_eq] at hx ⊢
            omega
        omega
    exact (hc.closed f hf).2 fun r hr => hdep _ r (.direct hr) (le_refl _)

/-- **The continuity counters.**  In every state of every run that never refers to a
placeholder, the counter of a buffered frame is the number of its references that
were neither decoded nor seen in the buffer as a continuous frame since the last
clear; the frame is continuous exactly when everything it depends on has arrived; and
no counter ever goes below zero. -/
theorem continuity_invariant (ops : List Op)
    (hgood : watched.AllGood refersToFrames (start, {}) ops) :
    (∀ (k : Int) (i : FrameInfo) f, (reached ops).1.buffer.frameInfos[k]? = some i →
      i.frame = some f →
      i.numMissingContinuous = f.references.countP (fun r =>
        r ∉ (reached ops).2.handedOut.map FrameToDecode.id ∧ r ∉ (reached ops).2.seenContinuous) ∧
      (i.continuous = true ↔
        ∀ r, DependsOn (reached ops).2.arrived f r → ∃ g ∈ (reached ops).2.arrived, g.id = r)) ∧
    ∀ e ∈ watched.log (start, {}) ops, e.2.underflow = false := by
  have hinv : ∀ ops', watched.AllGood refersToFrames (start, {}) ops' → ContWatch (reached ops') :=
    fun ops' hg => watched.invariant_final (P :=
      ContWatch) (fun _ _ h hg => (contWatch_step h hg).1)
      contWatch_start hg
  constructor
  · intro k i f hi hf
    obtain ⟨hwatch, hcont, -⟩ := hinv ops hgood
    constructor
    · rw [hcont.counted.counter k i f hi hf]
      refine List.countP_congr fun r _ => ?_
      have := hcont.decoded r
      simp only [decide_eq_true_eq]
      exact ⟨fun h => ⟨fun hd => h (this hd), h⟩, fun h => h.2⟩
    · have hid := hwatch.buffer.links.own k f ⟨i, hi, hf⟩
      rw [← hcont.mem_seen_iff (hcont.buffered k f ⟨i, hi, hf⟩), hid,
        hcont.counted.zero k i f hi hf]
      simp [FrameInfo.continuous]
  · intro e he
    obtain ⟨pre, op, post, rfl, rfl⟩ := watched.mem_log_iff.1 he
    obtain ⟨hpre, hop, -⟩ := (watched.allGood_append _ _ pre (op :: post)).1 hgood
    exact (contWatch_step (hinv pre hpre) hop).2

/-- Keyframes 1 and 2 and a frame 3 that refers to 1 arrive, and 1 is found to be late. -/
def lateFrameRun : List Op :=
  [.insertFrame ⟨1, .key, 1, [], by simp⟩, .insertFrame ⟨2, .key, 2, [], by simp⟩,
    .insertFrame ⟨3, .delta, 3, [1], by simp⟩,
    .findNextFrameToDecode false 100 (fun id => if id = 1 then -10 else 0), .getNextFrameToDecode]

/-- Frames 1 and 2 are complete and 3 waits behind 1; the search finds that 1 is late
and hands out 2 instead, which drops 1 undecoded.  Its reference is then neither
decoded nor present, and the counter of 3 stays at zero. -/
theorem late_frame_uncounted :
    ¬ ∀ (k : Int) (i : FrameInfo) f, (reached lateFrameRun).1.buffer.frameInfos[k]? = some i →
      i.frame = some f →
      i.numMissingContinuous = f.references.countP (fun r =>
        r ∉ (reached lateFrameRun).2.handedOut.map FrameToDecode.id ∧
        ¬ (reached lateFrameRun).1.buffer.frameInfos[r]?.any (fun j =>
          j.frame.isSome && j.continuous) = true) := by
  intro h
  have hthree := h 3 { numMissingDecodable := 1, frame := some ⟨3, .delta, 3, [1], by simp⟩ }
    ⟨3, .delta, 3, [1], by simp⟩ (by decide +kernel) rfl
  revert hthree
  decide +kernel

/-- The run keeps to frames that have arrived, so the counters are right in it. -/
theorem continuity_invariant_late_frame :
    watched.AllGood refersToFrames (start, {}) lateFrameRun ∧
    ∀ e ∈ watched.log (start, {}) lateFrameRun, e.2.underflow = false := by
  have hgood : watched.AllGood refersToFrames (start, {}) lateFrameRun := by
    refine ⟨?_, ?_, ?_, trivial, trivial, trivial⟩
    · intro r hr
      exact absurd hr List.not_mem_nil
    · intro r hr
      exact absurd hr List.not_mem_nil
    · intro r hr i hi
      have hframe : (reached (lateFrameRun.take 2)).1.buffer.frameInfos[(1 : Int)]?.all
          (·.frame.isSome) = true := by decide +kernel
      rw [List.mem_singleton.1 hr] at hi
      simpa [show (reached (lateFrameRun.take 2)).1.buffer.frameInfos[(1 : Int)]? = some i from hi]
        using hframe
  exact ⟨hgood, (continuity_invariant lateFrameRun hgood).2⟩

end NaiveRtc.Jitter
