import NaiveRtc.Rtcp.LastChunk

/-!
# The last chunk as a queue

What the feedback packet relies on when it calls `AddDeltaSize`: over every run of `Clear`, `Add`
and `Emit` the chunk is a queue of delta sizes, and its array is not left.

* `Reachable` — the states of such runs, of a chunk whose array held anything at first.
* `canAddIndices`, `addIndices`, `emitIndices`, `encodeLastIndices`, `appendToIndices`,
  `decodeIndices` — the indices of `delta_sizes_` that the methods touch.
* `Queue`, `queue_of_reachable` — **every reachable chunk is a faithful queue.**
-/

namespace NaiveRtc.Rtcp.LastChunk

/-- The states that `Clear`, `Add` and `Emit` lead to, `Add` being called where `CanAdd` allows it
and `Emit` where it refuses some delta size. -/
inductive Reachable : LastChunk → Prop where
  | clear (c : LastChunk) : Reachable c.clear
  | add {c : LastChunk} {d : Nat} (h : Reachable c) (hd : d ≤ 2) (hcan : c.canAdd d = true) :
    Reachable (c.add d)
  | emit {c : LastChunk} {d : Nat} (h : Reachable c) (hd : d ≤ 2) (hcan : c.canAdd d = false) :
    Reachable c.emit.2

/-! ## Indices -/

/-- The indices that `CanAdd` reads at. -/
def canAddIndices (c : LastChunk) : List Nat :=
  if c.size < kMaxRunLengthCapacity && c.allSame then [0] else []

/-- The indices that `Add` writes and reads at. -/
def addIndices (c : LastChunk) : List Nat :=
  (if c.size < kMaxVectorCapacity then [c.size] else []) ++ if c.allSame then [0] else []

/-- The indices that `Emit` reads and writes at. -/
def emitIndices (c : LastChunk) : List Nat :=
  if c.allSame then [0]
  else if c.size = kMaxOneBitCapacity then List.range c.size
  else List.range kMaxTwoBitCapacity ++
    (List.range (c.size - kMaxTwoBitCapacity)).flatMap fun i => [kMaxTwoBitCapacity + i, i, 0]

/-- The indices that `EncodeLast` reads at. -/
def encodeLastIndices (c : LastChunk) : List Nat :=
  if c.allSame then [0] else List.range c.size

/-- The indices that `AppendTo` reads at. -/
def appendToIndices (c : LastChunk) : List Nat :=
  if c.allSame then [0] else List.range c.size

/-- The indices that `Decode(chunk, max_size)` writes at. -/
def decodeIndices (chunk : U16) (maxSize : Nat) : List Nat :=
  if chunk &&& 0x8000 = 0 then
    List.range (min (min (chunk.toNat % 2 ^ 13) maxSize) kMaxVectorCapacity)
  else if chunk &&& 0x4000 = 0 then List.range (min kMaxOneBitCapacity maxSize)
  else List.range (min kMaxTwoBitCapacity maxSize)

/-- All indices are inside the array. -/
def Inside (indices : List Nat) : Prop := ∀ i ∈ indices, i < kMaxVectorCapacity

theorem inside_range {n : Nat} (h : n ≤ kMaxVectorCapacity) : Inside (List.range n) :=
  fun _ hi => lt_of_lt_of_le (List.mem_range.mp hi) h

theorem inside_zero : Inside [0] := by
  intro i hi
  rw [List.mem_singleton.mp hi]
  decide

theorem inside_decodeIndices (chunk : U16) (maxSize : Nat) :
    Inside (decodeIndices chunk maxSize) := by
  unfold decodeIndices
  split_ifs
  · exact inside_range (Nat.min_le_right _ _)
  · exact inside_range (Nat.min_le_left _ _)
  · exact inside_range (le_trans (Nat.min_le_left _ _) (by decide))

variable {c : LastChunk} {xs : List Nat} {d : Nat}

theorem inside_canAddIndices (c : LastChunk) : Inside c.canAddIndices := by
  unfold canAddIndices
  split_ifs
  · exact inside_zero
  · exact fun i hi => absurd hi List.not_mem_nil

theorem inside_addIndices (c : LastChunk) : Inside c.addIndices := by
  intro i hi
  rw [addIndices, List.mem_append] at hi
  rcases hi with hi | hi
  · split_ifs at hi with hlt
    · rw [List.mem_singleton.mp hi]
      exact hlt
    · cases hi
  · split_ifs at hi
    · exact inside_zero i hi
    · cases hi

theorem Holds.size_le (h : Holds c xs) (hsame : ¬c.allSame = true) :
    c.size ≤ kMaxVectorCapacity := by
  rw [h.size]
  rcases h.fits with hle | ⟨hle, -⟩ | ⟨-, hall⟩
  · exact le_trans hle (by decide)
  · exact hle
  · exact absurd hall hsame

theorem Holds.inside_appendToIndices (h : Holds c xs) : Inside c.appendToIndices := by
  unfold appendToIndices
  split_ifs with hsame
  · exact inside_zero
  · exact inside_range (h.size_le hsame)

theorem Holds.inside_emitIndices (h : Holds c xs) : Inside c.emitIndices := by
  unfold emitIndices
  split_ifs with hsame hfull
  · exact inside_zero
  · exact inside_range (h.size_le hsame)
  · intro i hi
    have hsize := h.size_le hsame
    simp only [kMaxVectorCapacity, kMaxOneBitCapacity] at hsize ⊢
    simp only [kMaxTwoBitCapacity, List.mem_append, List.mem_range, List.mem_flatMap,
      List.mem_cons, List.not_mem_nil, or_false] at hi
    rcases hi with hlt | ⟨k, hk, hi⟩
    · omega
    · omega

/-! ## Runs -/

theorem Reachable.holds (h : Reachable c) : ∃ xs, Holds c xs := by
  induction h with
  | clear c => exact ⟨[], holds_clear c⟩
  | add _ hd hcan ih =>
    obtain ⟨xs, hxs⟩ := ih
    exact ⟨_, holds_add hxs hd hcan⟩
  | emit _ _ hcan ih =>
    obtain ⟨xs, hxs⟩ := ih
    obtain ⟨_, zs, _, _, hzs, _⟩ := emit_spec hxs.keeps hcan
    exact ⟨zs, hzs⟩

/-- A faithful queue of delta sizes, seen as what `AppendTo` appends. -/
structure Queue (c : LastChunk) : Prop where
  add : ∀ d ≤ 2, c.canAdd d = true → (c.add d).statuses = c.statuses ++ [d]
  -- whoever reads the chunk expects at least as many statuses as it holds
  emit : ∀ d ≤ 2, c.canAdd d = false →
    ∃ first, first ≠ [] ∧ c.statuses = first ++ c.emit.2.statuses ∧
      (∀ (reader : LastChunk) (maxSize : Nat), first.length ≤ maxSize →
        (reader.decode c.emit.1 maxSize).statuses = first) ∧
      ∀ d' ≤ 2, c.emit.2.canAdd d' = true
  encodeLast : ∀ reader : LastChunk, (reader.decode c.encodeLast c.size).statuses = c.statuses
  length : c.statuses.length = c.size
  inside : Inside c.canAddIndices ∧ Inside c.addIndices ∧ Inside c.emitIndices ∧
    Inside c.encodeLastIndices ∧ Inside c.appendToIndices ∧
    ∀ chunk maxSize, Inside (decodeIndices chunk maxSize)

theorem Holds.queue (h : Holds c xs) : Queue c where
  add := by
    intro d hd hcan
    rw [(holds_add h hd hcan).keeps.statuses, h.keeps.statuses]
  emit := by
    intro d _ hcan
    obtain ⟨first, rest, hsplit, hne, hrest, hroom, hread⟩ := emit_spec h.keeps hcan
    refine ⟨first, hne, ?_, hread, fun d' _ => canAdd_iff.mpr (Or.inl ?_)⟩
    · rw [h.keeps.statuses, hrest.keeps.statuses, hsplit]
    · rw [hrest.size]
      exact hroom
  encodeLast := by
    intro reader
    rw [h.keeps.statuses, h.size]
    by_cases hne : xs = []
    · -- of an empty chunk nothing is expected, whatever stands in the array
      have hlen := length_decoded_le c.encodeLast 0
      rw [hne, statuses_decode]
      exact List.length_eq_zero_iff.mp (Nat.le_zero.mp hlen)
    · exact decode_encodeLast h.keeps hne reader
  length := by rw [h.keeps.statuses, h.size]
  inside := ⟨inside_canAddIndices c, inside_addIndices c, h.inside_emitIndices,
    h.inside_appendToIndices, h.inside_appendToIndices, inside_decodeIndices⟩

/-- **The last chunk is a faithful queue in every reachable state.** -/
theorem queue_of_reachable (h : Reachable c) : Queue c := by
  obtain ⟨xs, hxs⟩ := h.holds
  exact hxs.queue

theorem queue_of_reachable_two : Queue ((create.clear.add 2).add 0) :=
  queue_of_reachable
    (.add (.add (.clear create) (by decide) (by decide)) (by decide) (by decide))

end NaiveRtc.Rtcp.LastChunk
