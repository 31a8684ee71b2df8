import NaiveRtc.Lib.Pages
import NaiveRtc.Rtcp.RtcpPacket

/-!
# Packing into a buffer that may have to be flushed

What the `PackInto` functions of the RTCP packets share: the loop that flushes the buffer
until the packet fits, and the writes at `buffer[*index]`.  A loop has fuel, and a call
that is still running when the fuel is spent has no result.

* `Packed` — what a call returned and the buffer it left, if it returned.
* `flushUntilRoom` — the loop in front of every packet that is not split.
* `put`, `Writes` — a write, and a function that does nothing but write some bytes.
* `pages` — the fragments given to the callback and what stands in the buffer.
* `packUnsplit_spec` — a packet that is not split is written whole, on the page it finds
  or on the next, or is refused because it fits nowhere.
-/

namespace NaiveRtc.Rtcp

/-- The result of `PackInto` and the state it leaves; `none` is a call that has not
returned yet. -/
abbrev Packed := Option (Bool × PackState)

/-- `if (!first) return false;`, and then what follows. -/
def Packed.andThen (first : Packed) (rest : PackState → Packed) : Packed :=
  match first with
  | none => none
  | some (false, st) => some (false, st)
  | some (true, st) => rest st

namespace PackState

/-- `while (*index + size > max_size) if (!OnBufferFull(..)) return false`. -/
def flushUntilRoom (hasCallback : Bool) (size maxSize : Nat) : Nat → PackState → Packed
  | 0, _ => none
  | fuel + 1, st =>
    if maxSize < st.index + size then
      match st.onBufferFull hasCallback with
      | none => some (false, st)
      | some st' => flushUntilRoom hasCallback size maxSize fuel st'
    else some (true, st)

/-- Bytes written from `buffer[*index]` on, then `*index += size`. -/
def put (st : PackState) (bytes : List UInt8) (size : Nat) : PackState :=
  { st.write bytes with index := st.index + size }

/-- The fragments the callback was given, and what stands in `buffer[0..*index)`. -/
def pages (st : PackState) : List (List UInt8) := st.delivered ++ [st.buffer.take st.index]

/-! ## Writes -/

theorem put_length (st : PackState) (bytes : List UInt8) :
    st.put bytes bytes.length = st.write bytes := rfl

theorem put_eq_write (st : PackState) {bytes : List UInt8} {size : Nat} (h : bytes.length = size) :
    st.put bytes size = st.write bytes := by
  rw [← h]
  rfl

@[simp] theorem index_write (st : PackState) (bytes : List UInt8) :
    (st.write bytes).index = st.index + bytes.length := rfl

theorem write_nil (st : PackState) : st.write [] = st := by
  simp [write]

variable {st : PackState} {bytes : List UInt8}

theorem index_write_le (h : st.index ≤ st.buffer.length) :
    (st.write bytes).index ≤ (st.write bytes).buffer.length := by
  simp only [write, List.length_append, List.length_take, List.length_drop]
  omega

theorem write_write (h : st.index ≤ st.buffer.length) (more : List UInt8) :
    (st.write bytes).write more = st.write (bytes ++ more) := by
  have hlen : (st.buffer.take st.index ++ bytes).length = st.index + bytes.length := by
    simp only [List.length_append, List.length_take]
    omega
  simp only [write, List.length_append, mk.injEq, and_true]
  refine ⟨?_, Nat.add_assoc _ _ _⟩
  rw [List.take_left' hlen, List.drop_append, hlen, List.drop_eq_nil_of_le (by omega),
    List.drop_drop]
  have hsub : st.index + bytes.length + more.length - (st.index + bytes.length) = more.length := by
    omega
  rw [hsub, List.nil_append]
  simp only [List.append_assoc, Nat.add_assoc]

theorem take_write (h : st.index ≤ st.buffer.length) :
    (st.write bytes).buffer.take (st.write bytes).index = st.buffer.take st.index ++ bytes := by
  refine List.take_left' ?_
  simp only [List.length_append, List.length_take, index_write]
  omega

theorem length_buffer_write (h : st.index + bytes.length ≤ st.buffer.length) :
    (st.write bytes).buffer.length = st.buffer.length := by
  simp only [write, List.length_append, List.length_take, List.length_drop]
  omega

theorem drop_write {maxSize : Nat} (h : st.index + bytes.length ≤ maxSize)
    (hindex : st.index ≤ st.buffer.length) :
    (st.write bytes).buffer.drop maxSize = st.buffer.drop maxSize := by
  have hlen : (st.buffer.take st.index ++ bytes).length = st.index + bytes.length := by
    simp only [List.length_append, List.length_take]
    omega
  simp only [write]
  rw [List.drop_append, hlen, List.drop_eq_nil_of_le (by omega), List.drop_drop, List.nil_append]
  congr 1
  omega

/-- A function that does nothing but write `bytes`. -/
def Writes (f : PackState → PackState) (bytes : List UInt8) : Prop :=
  ∀ st, st.index ≤ st.buffer.length → f st = st.write bytes

theorem foldl_write {α : Type*} {step : PackState → α → PackState} {layout : α → List UInt8}
    {items : List α} (h : ∀ a ∈ items, Writes (step · a) (layout a))
    (hst : st.index ≤ st.buffer.length) :
      items.foldl step st = st.write (items.flatMap layout) := by
  induction items generalizing st with
  | nil => exact (write_nil st).symm
  | cons a items ih =>
    have hstep : step st a = st.write (layout a) := h a (List.mem_cons_self ..) st hst
    rw [List.foldl_cons, List.flatMap_cons, ← write_write hst, hstep]
    exact ih (fun b hb => h b (List.mem_cons_of_mem _ hb)) (index_write_le hst)

theorem length_flatMap_of_length {α : Type*} {layout : α → List UInt8} {n : Nat}
    (h : ∀ a, (layout a).length = n) (items : List α) :
    (items.flatMap layout).length = n * items.length := by
  induction items with
  | nil => rfl
  | cons a items ih =>
    rw [List.flatMap_cons, List.length_append, h, ih, List.length_cons, Nat.mul_succ, Nat.add_comm]

/-- A loop over blocks of `n` bytes that are each given the room up to `indexEnd`, and
written only if it is enough. -/
theorem foldl_put_room {α : Type*} {block : α → Nat → Option (List UInt8)} {layout : α → List UInt8}
    {n indexEnd : Nat} (hlength : ∀ a, (layout a).length = n)
    (hblock : ∀ a room, n ≤ room → block a room = some (layout a)) (items : List α)
    (hindex : st.index ≤ st.buffer.length) (hroom : st.index + n * items.length ≤ indexEnd) :
    items.foldl (fun st a => st.put ((block a (indexEnd - st.index)).getD []) n) st =
      st.write (items.flatMap layout) := by
  induction items generalizing st with
  | nil => exact (write_nil st).symm
  | cons a items ih =>
    rw [List.length_cons, Nat.mul_succ] at hroom
    rw [List.foldl_cons, hblock a _ (by omega), Option.getD_some, put_eq_write _ (hlength a),
      List.flatMap_cons, ← write_write hindex]
    refine ih (index_write_le hindex) ?_
    rw [index_write, hlength]
    omega

/-! ## Making room -/

/-- The buffer after `OnBufferFull` returned `true`. -/
def flushed (st : PackState) : PackState :=
  { st with index := 0, delivered := st.delivered ++ [st.buffer.take st.index] }

theorem onBufferFull_eq (hasCallback : Bool) (st : PackState) :
    st.onBufferFull hasCallback =
      if st.index ≠ 0 ∧ hasCallback = true then some st.flushed else none := by
  unfold onBufferFull flushed
  by_cases hindex : st.index = 0
  · simp [hindex]
  · cases hasCallback with
    | false => simp [hindex]
    | true => simp [hindex]

theorem pages_write (h : st.index ≤ st.buffer.length) :
    (st.write bytes).pages = st.delivered ++ [st.buffer.take st.index ++ bytes] := by
  rw [pages, take_write h]
  rfl

theorem laid_write (h : st.index ≤ st.buffer.length) :
    Laid st.pages [bytes] (st.write bytes).pages := by
  rw [pages_write h]
  exact Laid.same (Laid.nil _)

theorem page_ne_nil (hindex : st.index ≠ 0) (h : st.index ≤ st.buffer.length) :
    st.buffer.take st.index ≠ [] := by
  intro hnil
  have hlength := congrArg List.length hnil
  rw [List.length_take, List.length_nil] at hlength
  omega

theorem laid_write_flushed (hindex : st.index ≠ 0) (h : st.index ≤ st.buffer.length) :
    Laid st.pages [bytes] (st.flushed.write bytes).pages := by
  have hpages : (st.flushed.write bytes).pages =
      st.delivered ++ [st.buffer.take st.index] ++ [bytes] := by
    rw [pages_write (Nat.zero_le _)]
    rfl
  rw [hpages]
  exact Laid.turn (page_ne_nil hindex h) (Laid.nil _)

/-- What the loop of `flushUntilRoom` ends with. -/
def roomOutcome (hasCallback : Bool) (size maxSize : Nat) (st : PackState) : Bool × PackState :=
  if st.index + size ≤ maxSize then (true, st)
  else if st.index ≠ 0 ∧ hasCallback = true then (decide (size ≤ maxSize), st.flushed)
  else (false, st)

theorem flushUntilRoom_add_two (hasCallback : Bool) (size maxSize fuel : Nat) (st : PackState) :
    st.flushUntilRoom hasCallback size maxSize (fuel + 2) =
      some (st.roomOutcome hasCallback size maxSize) := by
  unfold roomOutcome
  simp only [flushUntilRoom, onBufferFull_eq]
  by_cases hroom : st.index + size ≤ maxSize
  · rw [if_neg (by omega), if_pos hroom]
  · rw [if_pos (by omega), if_neg hroom]
    by_cases hflush : st.index ≠ 0 ∧ hasCallback = true
    · have hindex : st.flushed.index = 0 := rfl
      simp only [if_pos hflush, hindex, Nat.zero_add, ne_eq, not_true_eq_false, false_and, if_false]
      by_cases hsize : size ≤ maxSize
      · rw [if_neg (by omega), decide_eq_true hsize]
      · rw [if_pos (by omega), decide_eq_false hsize]
    · simp only [if_neg hflush]

theorem flushUntilRoom_of_some {hasCallback : Bool} {size maxSize fuel : Nat}
    {r : Bool × PackState} (h : st.flushUntilRoom hasCallback size maxSize fuel = some r) :
    r = st.roomOutcome hasCallback size maxSize := by
  match fuel with
  | 0 => cases h
  | 1 =>
    unfold roomOutcome
    simp only [flushUntilRoom, onBufferFull_eq] at h
    by_cases hroom : st.index + size ≤ maxSize
    · rw [if_neg (by omega)] at h
      rw [if_pos hroom]
      exact (Option.some.inj h).symm
    · rw [if_pos (by omega)] at h
      by_cases hflush : st.index ≠ 0 ∧ hasCallback = true
      · simp only [if_pos hflush, reduceCtorEq] at h
      · simp only [if_neg hflush, Option.some.injEq] at h
        rw [if_neg hroom, if_neg hflush, h]
  | fuel + 2 =>
    rw [flushUntilRoom_add_two] at h
    exact (Option.some.inj h).symm

theorem flushUntilRoom_mono {hasCallback : Bool} {size maxSize fuel fuel' : Nat}
    {r : Bool × PackState} (h : st.flushUntilRoom hasCallback size maxSize fuel = some r)
    (hfuel : fuel ≤ fuel') : st.flushUntilRoom hasCallback size maxSize fuel' = some r := by
  match fuel', hfuel with
  | 0, hfuel =>
    obtain rfl := Nat.le_zero.mp hfuel
    exact h
  | 1, hfuel =>
    match fuel, hfuel with
    | 0, _ => cases h
    | 1, _ => exact h
  | fuel' + 2, _ => rw [flushUntilRoom_add_two, flushUntilRoom_of_some h]

end PackState

/-! ## Packets that are not split -/

/-- The shape of `PackInto` of a packet of `size` bytes that is not split: room is made,
then `body` writes the packet. -/
def packUnsplit (size : Nat) (body : PackState → Bool × PackState) (hasCallback : Bool)
    (maxSize fuel : Nat) (st : PackState) : Packed :=
  match st.flushUntilRoom hasCallback size maxSize fuel with
  | none => none
  | some (false, st) => some (false, st)
  | some (true, st) => some (body st)

/-- Where `*index` stands after a packet of `size` bytes that is not split; `none` when
the packet is refused. -/
def nextIndex (hasCallback : Bool) (maxSize size index : Nat) : Option Nat :=
  if index + size ≤ maxSize then some (index + size)
  else if hasCallback = true ∧ index ≠ 0 ∧ size ≤ maxSize then some size
  else none

/-- The pieces are on the pages, and nothing else was touched below or beyond `maxSize`. -/
structure Placed (maxSize : Nat) (st : PackState) (pieces : List (List UInt8)) (st' : PackState) :
    Prop where
  laid : Laid st.pages pieces st'.pages
  index_le : st'.index ≤ maxSize
  length : st'.buffer.length = st.buffer.length
  beyond : st'.buffer.drop maxSize = st.buffer.drop maxSize

variable {maxSize : Nat}

theorem Placed.refl {st : PackState} (h : st.index ≤ maxSize) :
    Placed maxSize st [] st :=
  ⟨Laid.nil _, h, rfl, rfl⟩

theorem Placed.trans {st st' st'' : PackState} {pieces pieces' : List (List UInt8)}
    (h : Placed maxSize st pieces st') (h' : Placed maxSize st' pieces' st'') :
    Placed maxSize st (pieces ++ pieces') st'' :=
  ⟨h.laid.trans h'.laid, h'.index_le, h'.length.trans h.length, h'.beyond.trans h.beyond⟩

theorem placed_write {st : PackState} {bytes : List UInt8}
    (hroom : st.index + bytes.length ≤ maxSize) (hbuffer : maxSize ≤ st.buffer.length) :
    Placed maxSize st [bytes] (st.write bytes) where
  laid := PackState.laid_write (by omega)
  index_le := hroom
  length := PackState.length_buffer_write (by omega)
  beyond := PackState.drop_write hroom (by omega)

theorem placed_write_flushed {st : PackState} {bytes : List UInt8}
    (hne : st.index ≠ 0) (hindex : st.index ≤ maxSize) (hroom : bytes.length ≤ maxSize)
    (hbuffer : maxSize ≤ st.buffer.length) :
    Placed maxSize st [bytes] (st.flushed.write bytes) where
  laid := PackState.laid_write_flushed hne (by omega)
  index_le := by
    show 0 + bytes.length ≤ maxSize
    omega
  length := PackState.length_buffer_write (show 0 + bytes.length ≤ st.buffer.length by omega)
  beyond := PackState.drop_write (show 0 + bytes.length ≤ maxSize by omega) (Nat.zero_le _)

/-- What a `PackInto` does: more fuel does not change its result, and with `enough` of it
there is one; when it accepts the packet, the pieces it placed serialise the packet and
`next` says where `*index` stands; and it refuses the packet only where `next` has no place
for it. -/
structure PacksAs (pack : Nat → PackState → Packed) (maxSize enough : Nat)
    (next : Nat → Option Nat) (serialises : List (List UInt8) → Prop) : Prop where
  mono : ∀ {st : PackState} {fuel fuel' : Nat} {r : Bool × PackState}, pack fuel st = some r →
    fuel ≤ fuel' → pack fuel' st = some r
  returns : ∀ {st : PackState} {fuel : Nat}, st.index ≤ maxSize → maxSize ≤ st.buffer.length →
    enough ≤ fuel → ∃ r, pack fuel st = some r
  accepts : ∀ {st st' : PackState} {fuel : Nat}, st.index ≤ maxSize → maxSize ≤ st.buffer.length →
    pack fuel st = some (true, st') →
    ∃ pieces, serialises pieces ∧ Placed maxSize st pieces st' ∧ next st.index = some st'.index
  refuses : ∀ {st st' : PackState} {fuel : Nat}, st.index ≤ maxSize → maxSize ≤ st.buffer.length →
    pack fuel st = some (false, st') → next st.index = none

section Unsplit

variable {size maxSize : Nat} {body : PackState → Bool × PackState} {bytes : List UInt8}

theorem packUnsplit_of_some {hasCallback : Bool} {fuel : Nat} {st : PackState}
    {r : Bool × PackState} (h : packUnsplit size body hasCallback maxSize fuel st = some r) :
    r = if (st.roomOutcome hasCallback size maxSize).1 = true then
      body (st.roomOutcome hasCallback size maxSize).2
      else (false, (st.roomOutcome hasCallback size maxSize).2) := by
  unfold packUnsplit at h
  split at h
  · cases h
  · rename_i st' hloop
    rw [← PackState.flushUntilRoom_of_some hloop]
    simpa using h.symm
  · rename_i st' hloop
    rw [← PackState.flushUntilRoom_of_some hloop]
    simpa using h.symm

/-- **A packet that is not split is written whole**, where it finds room or at the start of
the flushed buffer, and is refused only where it fits in neither. -/
theorem packUnsplit_spec (hasCallback : Bool) (hsize : bytes.length = size)
    (hbody : ∀ st, st.index + size ≤ st.buffer.length → body st = (true, st.write bytes)) :
    PacksAs (packUnsplit size body hasCallback maxSize) maxSize 2
      (nextIndex hasCallback maxSize size) (· = [bytes]) where
  mono := by
    intro st fuel fuel' r h hfuel
    unfold packUnsplit at *
    cases hloop : st.flushUntilRoom hasCallback size maxSize fuel with
    | none =>
      rw [hloop] at h
      cases h
    | some r' =>
      rw [PackState.flushUntilRoom_mono hloop hfuel]
      rw [hloop] at h
      exact h
  returns := by
    intro st fuel _ _ hfuel
    obtain ⟨fuel, rfl⟩ := Nat.exists_eq_add_of_le' hfuel
    unfold packUnsplit
    rw [PackState.flushUntilRoom_add_two]
    obtain ⟨ok, st'⟩ := st.roomOutcome hasCallback size maxSize
    cases ok with
    | false => exact ⟨_, rfl⟩
    | true => exact ⟨_, rfl⟩
  accepts := by
    intro st st' fuel hindex hbuffer h
    have hr := packUnsplit_of_some h
    unfold PackState.roomOutcome at hr
    unfold nextIndex
    by_cases hroom : st.index + size ≤ maxSize
    · rw [if_pos hroom, if_pos rfl, hbody st (by omega)] at hr
      obtain ⟨-, rfl⟩ := Prod.mk.inj hr
      exact ⟨_, rfl, placed_write (by omega) hbuffer, by rw [if_pos hroom, PackState.index_write, hsize]⟩
    · by_cases hflush : st.index ≠ 0 ∧ hasCallback = true
      · by_cases hfits : size ≤ maxSize
        · rw [if_neg hroom, if_pos hflush, if_pos (by simpa using hfits),
            hbody st.flushed (show 0 + size ≤ st.buffer.length by omega)] at hr
          obtain ⟨-, rfl⟩ := Prod.mk.inj hr
          refine ⟨_, rfl, placed_write_flushed hflush.1 hindex (by omega) hbuffer, ?_⟩
          rw [if_neg hroom, if_pos ⟨hflush.2, hflush.1, hfits⟩, PackState.index_write, hsize]
          exact congrArg some (Nat.zero_add size).symm
        · rw [if_neg hroom, if_pos hflush, if_neg (by simpa using hfits)] at hr
          exact absurd (Prod.mk.inj hr).1 (by decide)
      · rw [if_neg hroom, if_neg hflush] at hr
        exact absurd (Prod.mk.inj hr).1 (by decide)
  refuses := by
    intro st st' fuel hindex hbuffer h
    have hr := packUnsplit_of_some h
    unfold PackState.roomOutcome at hr
    unfold nextIndex
    by_cases hroom : st.index + size ≤ maxSize
    · rw [if_pos hroom, if_pos rfl, hbody st (by omega)] at hr
      exact absurd (Prod.mk.inj hr).1 (by decide)
    · rw [if_neg hroom, if_neg]
      rintro ⟨hcallback, hne, hfits⟩
      have hflush : st.index ≠ 0 ∧ hasCallback = true := ⟨hne, hcallback⟩
      rw [if_neg hroom, if_pos hflush, if_pos (by simpa using hfits),
        hbody st.flushed (show 0 + size ≤ st.buffer.length by omega)] at hr
      exact absurd (Prod.mk.inj hr).1 (by decide)

end Unsplit

end NaiveRtc.Rtcp
