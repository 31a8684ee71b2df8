import NaiveRtc.Lib.Machine
import Mathlib.Data.Fintype.Card
import Mathlib.Data.List.GetD

/-!
# Copy-on-write buffers

The model of `rtc/base/copy_on_write_buffer.{hpp,cpp}`: any number of handles over
a heap of shared byte vectors.  A handle holds a `shared_ptr` or null, and every
mutator decides by `use_count` whether to write in place or to clone first.

* `privateMachine` — what the handles should look like: each owns a vector.
* `swap_exchanges_shared` — a swap that a third handle sees.
* `value_semantics_iff` — the store refines the private vectors along a run exactly
  as long as no swap exchanges a vector that a third handle shares.
-/

namespace NaiveRtc.CopyOnWrite

/-! ## The heap -/

/-- `BinaryBuffer`, a `std::vector<uint8_t>`. -/
structure BinaryBuffer where
  bytes : List UInt8
  capacity : Nat
  deriving DecidableEq

/-- A vector made from a range. -/
def BinaryBuffer.ofBytes (bytes : List UInt8) : BinaryBuffer := ⟨bytes, bytes.length⟩

/-- `reserve(n)`. -/
def BinaryBuffer.reserve (v : BinaryBuffer) (n : Nat) : BinaryBuffer :=
  { v with capacity := max v.capacity n }

/-- New contents; how far the capacity grows when they do not fit is up to the
library. -/
def BinaryBuffer.setBytes (growTo : Nat → Nat → Nat) (v : BinaryBuffer) (bytes : List UInt8) :
    BinaryBuffer :=
  ⟨bytes, if bytes.length ≤ v.capacity then v.capacity else growTo v.capacity bytes.length⟩

/-- Contents of the given length, cut or filled up with zeros. -/
def resized (size : Nat) (bytes : List UInt8) : List UInt8 :=
  bytes.take size ++ List.replicate (size - bytes.length) 0

@[simp] theorem length_resized (n : Nat) (bytes : List UInt8) : (resized n bytes).length = n := by
  unfold resized
  rw [List.length_append, List.length_take, List.length_replicate]
  omega

theorem getD_resized (n : Nat) (bytes : List UInt8) (i : Nat) :
    (resized n bytes).getD i 0 = if i < n then bytes.getD i 0 else 0 := by
  unfold resized
  by_cases hi : i < n
  · rw [if_pos hi]
    by_cases hlen : i < bytes.length
    · rw [List.getD_append _ _ _ _ (by rw [List.length_take]; omega),
        List.getD_eq_getElem _ _ (by rw [List.length_take]; omega), List.getElem_take,
        List.getD_eq_getElem _ _ hlen]
    · rw [List.getD_append_right _ _ _ _ (by rw [List.length_take]; omega),
        List.getD_replicate _ (by rw [List.length_take]; omega),
        List.getD_eq_default _ _ (Nat.not_lt.1 hlen)]
  · rw [if_neg hi, List.getD_eq_default]
    rw [List.length_append, List.length_take, List.length_replicate]
    omega

/-- The handles and the heap; `next` is the first address not handed out yet. -/
structure Store (H : Type) where
  buffer : H → Option Nat
  heap : Nat → BinaryBuffer
  next : Nat

variable {H : Type} [DecidableEq H] [Fintype H]

/-- All handles default-constructed. -/
def Store.empty : Store H := ⟨fun _ => none, fun _ => ⟨[], 0⟩, 0⟩

/-- The bytes behind a pointer; none behind null. -/
def Store.bytesAt (w : Store H) : Option Nat → List UInt8
  | none => []
  | some r => (w.heap r).bytes

/-- The bytes a handle shows. -/
def observe (w : Store H) (h : H) : List UInt8 := w.bytesAt (w.buffer h)

/-- `use_count()`. -/
def useCount (w : Store H) (r : Nat) : Nat :=
  (Finset.univ.filter fun h => w.buffer h = some r).card

/-- `buffer_ = std::make_shared<BinaryBuffer>(...)`. -/
def makeShared (w : Store H) (h : H) (v : BinaryBuffer) : Store H where
  buffer := Function.update w.buffer h (some w.next)
  heap := Function.update w.heap w.next v
  next := w.next + 1

/-- A member call on the vector behind a handle. -/
def onBuffer (w : Store H) (h : H) (f : BinaryBuffer → BinaryBuffer) : Store H :=
  match w.buffer h with
  | none => w
  | some r => { w with heap := Function.update w.heap r (f (w.heap r)) }

/-- `capacity()`. -/
def capacity (w : Store H) (h : H) : Nat :=
  match w.buffer h with
  | none => 0
  | some r => (w.heap r).capacity

/-- `CloneIfNecessary(new_capacity)`. -/
def cloneIfNecessary (w : Store H) (h : H) (newCapacity : Nat) : Store H :=
  match w.buffer h with
  | none => w
  | some r =>
    if useCount w r = 1 then
      if capacity w h < newCapacity then onBuffer w h (·.reserve newCapacity) else w
    else makeShared w h ((BinaryBuffer.ofBytes (w.heap r).bytes).reserve newCapacity)

/-! ## The operations -/

/-- `begin()`, and the same code in `end()`, `rbegin()` and `rend()`. -/
def begin (w : Store H) (h : H) : Store H :=
  match w.buffer h with
  | none => makeShared w h (.ofBytes [])
  | some _ => cloneIfNecessary w h (capacity w h)

/-- `CreateEmptyBufferIfNecessary()`, all that `cbegin()` and its siblings change. -/
def createEmptyBufferIfNecessary (w : Store H) (h : H) : Store H :=
  match w.buffer h with
  | none => makeShared w h (.ofBytes [])
  | some _ => w

/-- `data()`, the mutable one. -/
def data (w : Store H) (h : H) : Store H :=
  match w.buffer h with
  | none => w
  | some _ => cloneIfNecessary w h (capacity w h)

/-- `CopyOnWriteBuffer(size, capacity)`; `CopyOnWriteBuffer(size)` is the case
`capacity = 0`. -/
def sized (w : Store H) (h : H) (size capacity : Nat) : Store H :=
  if 0 < size ∨ 0 < capacity then
    makeShared w h ((BinaryBuffer.ofBytes (List.replicate size 0)).reserve capacity)
  else { w with buffer := Function.update w.buffer h none }

/-- `CopyOnWriteBuffer(data, size, capacity)`. -/
def fromData (w : Store H) (h : H) (bytes : List UInt8) (capacity : Nat) : Store H :=
  onBuffer (sized w h bytes.length capacity) h fun v => { v with bytes := bytes }

/-- The copy constructor and the copy assignment. -/
def copy (w : Store H) (h other : H) : Store H :=
  { w with buffer := Function.update w.buffer h (w.buffer other) }

/-- The move constructor and the move assignment; a self-move does nothing. -/
def move (w : Store H) (h other : H) : Store H :=
  if h = other then w
  else { w with
    buffer := Function.update (Function.update w.buffer h (w.buffer other)) other none }

section Growth

variable (growTo : Nat → Nat → Nat)

/-- `Assign(data, size)`. -/
def assign (w : Store H) (h : H) (bytes : List UInt8) : Store H :=
  match w.buffer h with
  | none => if 0 < bytes.length then makeShared w h (.ofBytes bytes) else w
  | some r =>
    if useCount w r = 1 then
      let w := if capacity w h < bytes.length then onBuffer w h (·.reserve bytes.length) else w
      onBuffer w h (·.setBytes growTo bytes)
    else
      makeShared w h ((BinaryBuffer.ofBytes bytes).reserve (max (w.heap r).capacity bytes.length))

/-- `Append(data, size)`. -/
def append (w : Store H) (h : H) (bytes : List UInt8) : Store H :=
  match w.buffer h with
  | none => if 0 < bytes.length then makeShared w h (.ofBytes bytes) else w
  | some _ =>
    onBuffer (cloneIfNecessary w h (capacity w h)) h fun v => v.setBytes growTo (v.bytes ++ bytes)

/-- `Append(begin, end)`, which allocates for an empty range too. -/
def appendRange (w : Store H) (h : H) (bytes : List UInt8) : Store H :=
  match w.buffer h with
  | none => makeShared w h (.ofBytes bytes)
  | some _ =>
    onBuffer (cloneIfNecessary w h (capacity w h)) h fun v => v.setBytes growTo (v.bytes ++ bytes)

/-- `Insert(begin() + pos, ...)`: the position is an iterator, which only a call of
`begin()` or `end()` on the same handle can give.  It is taken in the call itself; an iterator
that was held while the handle was copied is outside the model. -/
def insert (w : Store H) (h : H) (pos : Nat) (bytes : List UInt8) : Store H :=
  let w := begin w h
  onBuffer (cloneIfNecessary w h (capacity w h)) h fun v =>
    v.setBytes growTo (v.bytes.take pos ++ bytes ++ v.bytes.drop pos)

/-- `Resize(size)`. -/
def resize (w : Store H) (h : H) (size : Nat) : Store H :=
  match w.buffer h with
  | none => if 0 < size then makeShared w h (.ofBytes (List.replicate size 0)) else w
  | some _ =>
    onBuffer (cloneIfNecessary w h (max (capacity w h) size)) h fun v =>
      v.setBytes growTo (resized size v.bytes)

end Growth

/-- `Clear()`. -/
def clear (w : Store H) (h : H) : Store H :=
  match w.buffer h with
  | none => w
  | some r =>
    if useCount w r = 1 then onBuffer w h fun v => { v with bytes := [] }
    else makeShared w h ((BinaryBuffer.ofBytes []).reserve (w.heap r).capacity)

/-- `EnsureCapacity(new_capacity)`. -/
def ensureCapacity (w : Store H) (h : H) (newCapacity : Nat) : Store H :=
  match w.buffer h with
  | none => makeShared w h ((BinaryBuffer.ofBytes []).reserve newCapacity)
  | some _ => if newCapacity ≤ capacity w h then w else cloneIfNecessary w h newCapacity

/-- `Swap(other)`: with two vectors at hand the *contents* are exchanged, after a
clone on the side of `h` only. -/
def swap (w : Store H) (h other : H) : Store H :=
  match w.buffer h with
  | none =>
    { w with buffer := Function.update (Function.update w.buffer h (w.buffer other)) other none }
  | some _ =>
    let w := cloneIfNecessary w h (capacity w h)
    match w.buffer h, w.buffer other with
    | p, none => { w with buffer := Function.update (Function.update w.buffer other p) h none }
    | some r, some r' =>
      { w with heap := Function.update (Function.update w.heap r (w.heap r')) r' (w.heap r) }
    | none, some _ => w

/-- An operation on the handles. -/
inductive Op (H : Type) where
  | create (h : H)
  | fromBuffer (h : H) (bytes : List UInt8)
  | sized (h : H) (size capacity : Nat)
  | fromData (h : H) (bytes : List UInt8) (capacity : Nat)
  | copy (h other : H)
  | move (h other : H)
  | writeData (h : H) (index : Nat) (byte : UInt8)
  | writeBegin (h : H) (index : Nat) (byte : UInt8)
  | readBegin (h : H)
  | assign (h : H) (bytes : List UInt8)
  | append (h : H) (bytes : List UInt8)
  | appendRange (h : H) (bytes : List UInt8)
  | insert (h : H) (pos : Nat) (bytes : List UInt8)
  | resize (h : H) (size : Nat)
  | clear (h : H)
  | ensureCapacity (h : H) (newCapacity : Nat)
  | swap (h other : H)
  deriving DecidableEq

/-- Write one byte through a pointer or an iterator. -/
def writeAt (w : Store H) (h : H) (index : Nat) (byte : UInt8) : Store H :=
  onBuffer w h fun v => { v with bytes := v.bytes.set index byte }

/-- The store as a machine; a destroyed handle counts as default-constructed. -/
def machine (growTo : Nat → Nat → Nat) : Machine (Store H) (Op H) Unit where
  step w op := (match op with
    | .create h => { w with buffer := Function.update w.buffer h none }
    | .fromBuffer h bytes => makeShared w h (.ofBytes bytes)
    | .sized h size capacity => sized w h size capacity
    | .fromData h bytes capacity => fromData w h bytes capacity
    | .copy h other => copy w h other
    | .move h other => move w h other
    | .writeData h index byte => writeAt (data w h) h index byte
    | .writeBegin h index byte => writeAt (begin w h) h index byte
    | .readBegin h => createEmptyBufferIfNecessary w h
    | .assign h bytes => assign growTo w h bytes
    | .append h bytes => append growTo w h bytes
    | .appendRange h bytes => appendRange growTo w h bytes
    | .insert h pos bytes => insert growTo w h pos bytes
    | .resize h size => resize growTo w h size
    | .clear h => clear w h
    | .ensureCapacity h newCapacity => ensureCapacity w h newCapacity
    | .swap h other => swap w h other, ())

/-! ## Private vectors -/

/-- **What the handles should show**: each owns a vector, and an operation changes
the vectors of its own handles only. -/
def privateMachine : Machine (H → List UInt8) (Op H) Unit where
  step v op := (match op with
    | .create h => Function.update v h []
    | .fromBuffer h bytes => Function.update v h bytes
    | .sized h size _ => Function.update v h (List.replicate size 0)
    | .fromData h bytes _ => Function.update v h bytes
    | .copy h other => Function.update v h (v other)
    | .move h other =>
      if h = other then v else Function.update (Function.update v h (v other)) other []
    | .writeData h index byte => Function.update v h ((v h).set index byte)
    | .writeBegin h index byte => Function.update v h ((v h).set index byte)
    | .readBegin _ => v
    | .assign h bytes => Function.update v h bytes
    | .append h bytes => Function.update v h (v h ++ bytes)
    | .appendRange h bytes => Function.update v h (v h ++ bytes)
    | .insert h pos bytes => Function.update v h ((v h).take pos ++ bytes ++ (v h).drop pos)
    | .resize h size => Function.update v h (resized size (v h))
    | .clear h => Function.update v h []
    | .ensureCapacity _ _ => v
    | .swap h other => Function.update (Function.update v h (v other)) other (v h), ())

/-! ## What the moves of the heap do to the observed bytes -/

set_option linter.unusedSectionVars false

/-- Every handle points below `next`. -/
def WellFormed (w : Store H) : Prop := ∀ h r, w.buffer h = some r → r < w.next

theorem wellFormed_empty : WellFormed (Store.empty : Store H) := by
  intro h r hr
  cases hr

variable {w : Store H}

theorem wellFormed_makeShared (hw : WellFormed w) (h : H) (v : BinaryBuffer) :
    WellFormed (makeShared w h v) := by
  intro c r hr
  simp only [makeShared, Function.update_apply] at hr ⊢
  split at hr
  · cases hr
    omega
  · have := hw c r hr
    omega

theorem wellFormed_of_buffer {w w' : Store H} (hw : WellFormed w) (hnext : w'.next = w.next)
    (hbuf : ∀ c r, w'.buffer c = some r → ∃ c', w.buffer c' = some r) : WellFormed w' := by
  intro c r hr
  obtain ⟨c', hc'⟩ := hbuf c r hr
  rw [hnext]
  exact hw c' r hc'

@[simp] theorem onBuffer_buffer (w : Store H) (h : H) (f : BinaryBuffer → BinaryBuffer) :
    (onBuffer w h f).buffer = w.buffer := by
  unfold onBuffer
  split <;> rfl

theorem wellFormed_onBuffer (hw : WellFormed w) (h : H)
    (f : BinaryBuffer → BinaryBuffer) : WellFormed (onBuffer w h f) := by
  refine wellFormed_of_buffer hw ?_ fun c r hr => ⟨c, by simpa using hr⟩
  unfold onBuffer
  split <;> rfl

theorem observe_makeShared (hw : WellFormed w) (h : H) (v : BinaryBuffer) :
    observe (makeShared w h v) = Function.update (observe w) h v.bytes := by
  funext c
  by_cases hc : c = h
  · subst hc
    simp [observe, makeShared, Store.bytesAt]
  · simp only [observe, makeShared, Function.update_of_ne hc]
    cases hr : w.buffer c with
    | none => rfl
    | some r => simp [Store.bytesAt, Function.update_of_ne (hw c r hr).ne]

/-- The handle has a vector of its own. -/
def Owns (w : Store H) (h : H) : Prop :=
  ∃ r, w.buffer h = some r ∧ ∀ c, w.buffer c = some r → c = h

variable {h : H} {r : Nat}

theorem owns_of_useCount (hr : w.buffer h = some r) (hu : useCount w r = 1) : Owns w h := by
  refine ⟨r, hr, ?_⟩
  intro c hc
  obtain ⟨a, ha⟩ := Finset.card_eq_one.1 hu
  have hmem : ∀ x, w.buffer x = some r → x = a := by
    intro x hx
    have : x ∈ Finset.univ.filter fun h => w.buffer h = some r := by simp [hx]
    rw [ha] at this
    exact Finset.mem_singleton.1 this
  rw [hmem c hc, hmem h hr]

theorem owns_makeShared (hw : WellFormed w) (h : H) (v : BinaryBuffer) :
    Owns (makeShared w h v) h := by
  refine ⟨w.next, by simp [makeShared], ?_⟩
  intro c hc
  by_contra hne
  simp only [makeShared, Function.update_of_ne hne] at hc
  exact absurd (hw c _ hc) (lt_irrefl _)

theorem observe_onBuffer_of_some (hr : w.buffer h = some r)
    (f : BinaryBuffer → BinaryBuffer) (c : H) :
    observe (onBuffer w h f) c
      = if w.buffer c = some r then (f (w.heap r)).bytes else observe w c := by
  simp only [observe, onBuffer, hr]
  cases hc : w.buffer c with
  | none => simp [Store.bytesAt]
  | some r' =>
    by_cases h' : r' = r
    · subst h'
      simp [Store.bytesAt]
    · simp [Store.bytesAt, h']

variable {f : BinaryBuffer → BinaryBuffer} {g : List UInt8 → List UInt8}

theorem observe_onBuffer (howns : Owns w h) (hf : ∀ v, (f v).bytes = g v.bytes) :
    observe (onBuffer w h f) = Function.update (observe w) h (g (observe w h)) := by
  obtain ⟨r, hr, honly⟩ := howns
  funext c
  rw [observe_onBuffer_of_some hr]
  by_cases hc : c = h
  · subst hc
    simp [hr, hf, observe, Store.bytesAt]
  · rw [if_neg fun h' => hc (honly c h'), Function.update_of_ne hc]

theorem observe_onBuffer_same (w : Store H) (h : H)
    (hf : ∀ v, (f v).bytes = v.bytes) : observe (onBuffer w h f) = observe w := by
  cases hr : w.buffer h with
  | none => simp [onBuffer, hr]
  | some r =>
    funext c
    rw [observe_onBuffer_of_some hr]
    split
    · rename_i hc
      simp [observe, Store.bytesAt, hc, hf]
    · rfl

theorem cloneIfNecessary_spec (hw : WellFormed w) (hr : w.buffer h = some r) (n : Nat) :
    observe (cloneIfNecessary w h n) = observe w ∧ WellFormed (cloneIfNecessary w h n) ∧
      Owns (cloneIfNecessary w h n) h ∧
      ∀ c, c ≠ h → (cloneIfNecessary w h n).buffer c = w.buffer c := by
  unfold cloneIfNecessary
  simp only [hr]
  split
  · rename_i hu
    have howns := owns_of_useCount hr hu
    split
    · refine ⟨observe_onBuffer_same _ _ fun v => rfl, wellFormed_onBuffer hw _ _, ?_, by simp⟩
      simpa [Owns] using howns
    · exact ⟨rfl, hw, howns, fun _ _ => rfl⟩
  · refine ⟨?_, wellFormed_makeShared hw _ _, owns_makeShared hw _ _,
      fun c hc => Function.update_of_ne hc _ _⟩
    rw [observe_makeShared hw]
    have : observe w h = (w.heap r).bytes := by simp [observe, Store.bytesAt, hr]
    simp [BinaryBuffer.reserve, BinaryBuffer.ofBytes, ← this]

theorem observe_of_none (hr : w.buffer h = none) : observe w h = [] := by
  simp [observe, Store.bytesAt, hr]

/-- A step that shows `v` and leaves the heap in order. -/
def Shows (w : Store H) (v : H → List UInt8) : Prop := observe w = v ∧ WellFormed w

section

variable (hw : WellFormed w)
include hw

theorem shows_makeShared (h : H) {v : BinaryBuffer} {bytes : List UInt8} (hv : v.bytes = bytes) :
    Shows (makeShared w h v) (Function.update (observe w) h bytes) :=
  ⟨hv ▸ observe_makeShared hw h v, wellFormed_makeShared hw h v⟩

theorem shows_makeShared_empty (hr : w.buffer h = none)
    {v : BinaryBuffer} (hv : v.bytes = []) : Shows (makeShared w h v) (observe w) := by
  have := shows_makeShared hw h hv
  rwa [← observe_of_none hr, Function.update_eq_self] at this

theorem shows_onBuffer (howns : Owns w h) (hf : ∀ v, (f v).bytes = g v.bytes) :
    Shows (onBuffer w h f) (Function.update (observe w) h (g (observe w h))) :=
  ⟨observe_onBuffer howns hf, wellFormed_onBuffer hw h f⟩

theorem shows_clone_onBuffer
    (hr : w.buffer h = some r) (n : Nat) (hf : ∀ v, (f v).bytes = g v.bytes) :
    Shows (onBuffer (cloneIfNecessary w h n) h f)
      (Function.update (observe w) h (g (observe w h))) := by
  obtain ⟨hobs, hwf, howns, -⟩ := cloneIfNecessary_spec hw hr n
  have := shows_onBuffer hwf howns hf
  rwa [hobs] at this

theorem begin_spec (h : H) :
    observe (begin w h) = observe w ∧ WellFormed (begin w h) ∧ Owns (begin w h) h := by
  unfold begin
  cases hr : w.buffer h with
  | none =>
    obtain ⟨hobs, hwf⟩ := shows_makeShared_empty hw hr (v := .ofBytes []) rfl
    exact ⟨hobs, hwf, owns_makeShared hw _ _⟩
  | some r =>
    obtain ⟨hobs, hwf, howns, -⟩ := cloneIfNecessary_spec hw hr (capacity w h)
    exact ⟨hobs, hwf, howns⟩

/-! ## One lemma per operation -/

theorem shows_redirect (h : H) {p : Option Nat}
    (hp : ∀ r, p = some r → ∃ c, w.buffer c = some r) {bytes : List UInt8}
    (hb : bytes = w.bytesAt p) :
    Shows { w with buffer := Function.update w.buffer h p }
    (Function.update (observe w) h bytes) := by
  constructor
  · funext c
    by_cases hc : c = h
    · subst hc
      simp only [observe, hb, Function.update_self]
      rfl
    · simp only [observe, Function.update_of_ne hc]
      rfl
  · refine wellFormed_of_buffer hw rfl ?_
    intro c r hr
    by_cases hc : c = h
    · subst hc
      exact hp r (by simpa using hr)
    · exact ⟨c, by simpa [Function.update_of_ne hc] using hr⟩

theorem shows_create (h : H) :
    Shows { w with buffer := Function.update w.buffer h none } (Function.update (observe w) h []) :=
  shows_redirect hw h (fun _ hr => by cases hr) rfl

theorem shows_copy (h other : H) :
    Shows (copy w h other) (Function.update (observe w) h (observe w other)) :=
  shows_redirect hw h (fun _ hr => ⟨other, hr⟩) rfl

theorem shows_move (h other : H) :
    Shows (move w h other) (if h = other then observe w
      else Function.update (Function.update (observe w) h (observe w other)) other []) := by
  unfold move
  split
  · exact ⟨rfl, hw⟩
  · obtain ⟨hobs, hwf⟩ := shows_copy hw h other
    have := shows_create hwf other
    rwa [hobs] at this

theorem shows_sized (h : H) (size capacity : Nat) :
    Shows (sized w h size capacity) (Function.update (observe w) h (List.replicate size 0)) := by
  unfold sized
  split
  · exact shows_makeShared hw h rfl
  · rename_i hzero
    have hs : size = 0 := by omega
    subst hs
    exact shows_create hw h

theorem shows_fromData (h : H) (bytes : List UInt8)
    (capacity : Nat) : Shows (fromData w h bytes capacity)
      (Function.update (observe w) h bytes) := by
  unfold fromData
  obtain ⟨hobs, hwf⟩ := shows_sized hw h bytes.length capacity
  by_cases hpos : 0 < bytes.length ∨ 0 < capacity
  · have howns : Owns (sized w h bytes.length capacity) h := by
      unfold sized
      rw [if_pos hpos]
      exact owns_makeShared hw _ _
    have := shows_onBuffer hwf howns (f := fun v => { v with bytes := bytes }) (g := fun _ => bytes)
      fun _ => rfl
    rw [hobs] at this
    simpa using this
  · have hnil : bytes = [] := List.length_eq_zero_iff.1 (by omega)
    subst hnil
    have hnone : (sized w h ([] : List UInt8).length capacity).buffer h = none := by
      unfold sized
      rw [if_neg hpos]
      simp
    have hsame : onBuffer (sized w h ([] : List UInt8).length capacity) h
        (fun v => { v with bytes := [] }) = sized w h ([] : List UInt8).length capacity := by
      simp only [onBuffer, hnone]
    rw [hsame]
    exact ⟨by simpa using hobs, hwf⟩

theorem shows_writeData (h : H) (index : Nat) (byte : UInt8) :
    Shows (writeAt (data w h) h index byte)
      (Function.update (observe w) h ((observe w h).set index byte)) := by
  unfold writeAt data
  cases hr : w.buffer h with
  | none =>
    have hnil := observe_of_none hr
    simp only [onBuffer, hr, hnil, List.set_nil]
    refine ⟨?_, hw⟩
    rw [← hnil]
    exact (Function.update_eq_self h _).symm
  | some r => exact shows_clone_onBuffer hw hr _ (g := fun b => b.set index byte) fun _ => rfl

theorem shows_writeBegin (h : H) (index : Nat) (byte : UInt8) :
    Shows (writeAt (begin w h) h index byte)
      (Function.update (observe w) h ((observe w h).set index byte)) := by
  obtain ⟨hobs, hwf, howns⟩ := begin_spec hw h
  have := shows_onBuffer hwf howns (f := fun v => { v with bytes := v.bytes.set index byte })
    (g := fun b => b.set index byte) fun _ => rfl
  rwa [hobs] at this

theorem shows_readBegin (h : H) :
    Shows (createEmptyBufferIfNecessary w h) (observe w) := by
  unfold createEmptyBufferIfNecessary
  cases hr : w.buffer h with
  | none => exact shows_makeShared_empty hw hr rfl
  | some r => exact ⟨rfl, hw⟩

theorem shows_of_none (hr : w.buffer h = none) :
    Shows w (Function.update (observe w) h []) := by
  refine ⟨?_, hw⟩
  rw [← observe_of_none hr, Function.update_eq_self]

end

section

variable (growTo : Nat → Nat → Nat)
include growTo

theorem shows_assign (hw : WellFormed w) (h : H)
    (bytes : List UInt8) : Shows (assign growTo w h bytes)
      (Function.update (observe w) h bytes) := by
  unfold assign
  cases hr : w.buffer h with
  | none =>
    simp only
    split
    · exact shows_makeShared hw h rfl
    · rename_i hlen
      have hnil : bytes = [] := List.length_eq_zero_iff.1 (by omega)
      exact hnil ▸ shows_of_none hw hr
  | some r =>
    simp only
    split
    · rename_i hu
      have howns := owns_of_useCount hr hu
      split
      · have hwf := wellFormed_onBuffer hw h (·.reserve bytes.length)
        have := shows_onBuffer hwf (h := h) (by simpa [Owns] using howns)
          (f := (·.setBytes growTo bytes)) (g := fun _ => bytes) fun _ => rfl
        rwa [observe_onBuffer_same w h (f := (·.reserve bytes.length)) fun _ => rfl] at this
      · exact shows_onBuffer hw howns (g := fun _ => bytes) fun _ => rfl
    · exact shows_makeShared hw h rfl

theorem shows_append (hw : WellFormed w) (h : H) (bytes : List UInt8) :
    Shows (append growTo w h bytes) (Function.update (observe w) h (observe w h ++ bytes)) := by
  unfold append
  cases hr : w.buffer h with
  | none =>
    simp only [observe_of_none hr, List.nil_append]
    split
    · exact shows_makeShared hw h rfl
    · rename_i hlen
      have hnil : bytes = [] := List.length_eq_zero_iff.1 (by omega)
      exact hnil ▸ shows_of_none hw hr
  | some r => exact shows_clone_onBuffer hw hr _ (g := (· ++ bytes)) fun _ => rfl

theorem shows_appendRange (hw : WellFormed w) (h : H) (bytes : List UInt8) :
    Shows (appendRange growTo w h bytes) (Function.update (observe w) h (observe w h ++ bytes)) := by
  unfold appendRange
  cases hr : w.buffer h with
  | none =>
    simp only [observe_of_none hr, List.nil_append]
    exact shows_makeShared hw h rfl
  | some r => exact shows_clone_onBuffer hw hr _ (g := (· ++ bytes)) fun _ => rfl

theorem shows_insert (hw : WellFormed w) (h : H) (pos : Nat) (bytes : List UInt8) :
    Shows (insert growTo w h pos bytes) (Function.update (observe w) h
      ((observe w h).take pos ++ bytes ++ (observe w h).drop pos)) := by
  obtain ⟨hobs, hwf, r, hr, -⟩ := begin_spec hw h
  have := shows_clone_onBuffer hwf hr (capacity (begin w h) h)
    (f := fun v => v.setBytes growTo (v.bytes.take pos ++ bytes ++ v.bytes.drop pos))
    (g := fun b => b.take pos ++ bytes ++ b.drop pos) fun _ => rfl
  rwa [hobs] at this

theorem shows_resize (hw : WellFormed w) (h : H) (size : Nat) :
    Shows (resize growTo w h size) (Function.update (observe w) h (resized size (observe w h))) := by
  unfold resize
  cases hr : w.buffer h with
  | none =>
    simp only [observe_of_none hr, resized, List.take_nil, List.nil_append, List.length_nil,
      Nat.sub_zero]
    split
    · exact shows_makeShared hw h rfl
    · rename_i hzero
      have hs : size = 0 := by omega
      subst hs
      exact shows_of_none hw hr
  | some r => exact shows_clone_onBuffer hw hr _ (g := resized size) fun _ => rfl

end

theorem shows_clear (hw : WellFormed w) (h : H) :
    Shows (clear w h) (Function.update (observe w) h []) := by
  unfold clear
  cases hr : w.buffer h with
  | none => exact shows_of_none hw hr
  | some r =>
    simp only
    split
    · rename_i hu
      exact shows_onBuffer hw (owns_of_useCount hr hu) (g := fun _ => []) fun _ => rfl
    · exact shows_makeShared hw h rfl

theorem shows_ensureCapacity (hw : WellFormed w) (h : H) (newCapacity : Nat) :
    Shows (ensureCapacity w h newCapacity) (observe w) := by
  unfold ensureCapacity
  cases hr : w.buffer h with
  | none => exact shows_makeShared_empty hw hr rfl
  | some r =>
    simp only
    split
    · exact ⟨rfl, hw⟩
    · obtain ⟨hobs, hwf, -, -⟩ := cloneIfNecessary_spec hw hr newCapacity
      exact ⟨hobs, hwf⟩

/-! ## Swap -/

/-- **The condition on a step**: a swap of two vectors is not seen by a third handle
that shares the other one, unless the two hold the same bytes. -/
def swapUnshared (w : Store H) : Op H → Prop
  | .swap h other =>
    w.buffer h = none ∨ w.buffer other = none ∨ observe w h = observe w other ∨
      ∀ c, c ≠ h → c ≠ other → w.buffer c ≠ w.buffer other
  | _ => True

theorem observe_exchange {h other : H} {r r' : Nat} (hr : w.buffer h = some r)
    (honly : ∀ c, w.buffer c = some r → c = h) (hr' : w.buffer other = some r') (c : H) :
    observe { w with heap := Function.update (Function.update w.heap r (w.heap r')) r' (w.heap r) } c
      = if w.buffer c = some r' then observe w h
        else if c = h then observe w other else observe w c := by
  simp only [observe, hr, hr']
  cases hc : w.buffer c with
  | none =>
    have : c ≠ h := by
      rintro rfl
      rw [hr] at hc
      cases hc
    simp [Store.bytesAt, this]
  | some p =>
    by_cases h₁ : p = r'
    · subst h₁
      simp [Store.bytesAt]
    · have hne : ¬ (some p = some r') := by simpa using h₁
      rw [if_neg hne]
      by_cases h₂ : p = r
      · subst h₂
        rw [if_pos (honly c hc)]
        simp [Store.bytesAt, h₁]
      · have : c ≠ h := by
          rintro rfl
          rw [hr] at hc
          exact h₂ (by simpa using hc.symm)
        simp [Store.bytesAt, h₁, h₂, this]

theorem shows_swap_of_none (hw : WellFormed w) (other : H) (hr : w.buffer h = none) :
    Shows (swap w h other)
      (Function.update (Function.update (observe w) h (observe w other)) other (observe w h)) := by
  obtain ⟨hobs, hwf⟩ := shows_copy hw h other
  have := shows_create hwf other
  rw [hobs, ← observe_of_none hr] at this
  simpa only [swap, hr, copy] using this

theorem shows_swap_of_other_none (hw : WellFormed w) {h other : H}
    (hr : w.buffer h = some r) (hr' : w.buffer other = none) :
    Shows (swap w h other)
      (Function.update (Function.update (observe w) h (observe w other)) other (observe w h)) := by
  have hne : other ≠ h := by
    rintro rfl
    rw [hr] at hr'
    cases hr'
  obtain ⟨hobs, hwf, howns, hbuf⟩ := cloneIfNecessary_spec hw hr (capacity w h)
  obtain ⟨hobs', hwf'⟩ := shows_copy hwf other h
  have := shows_create hwf' h
  rw [hobs', hobs, ← observe_of_none hr', Function.update_comm hne] at this
  unfold swap
  simp only [hr, hbuf other hne, hr']
  exact this

theorem swap_of_some (hw : WellFormed w) {h other : H} {r r' : Nat}
    (hr : w.buffer h = some r) (hr' : w.buffer other = some r') :
    WellFormed (swap w h other) ∧
    (observe (swap w h other)
        = Function.update (Function.update (observe w) h (observe w other)) other (observe w h) ↔
      swapUnshared w (.swap h other)) := by
  obtain ⟨hobs, hwf, ⟨p, hp, honly⟩, hbuf⟩ := cloneIfNecessary_spec hw hr (capacity w h)
  set w₁ := cloneIfNecessary w h (capacity w h) with hw₁
  obtain ⟨p', hp'⟩ : ∃ p', w₁.buffer other = some p' := by
    by_cases hne : other = h
    · exact ⟨p, hne ▸ hp⟩
    · exact ⟨r', by rw [hbuf other hne, hr']⟩
  have hswap : swap w h other
      = { w₁ with heap := Function.update (Function.update w₁.heap p (w₁.heap p')) p' (w₁.heap p) } := by
    unfold swap
    simp only [hr, ← hw₁, hp, hp']
  have hview := fun c => observe_exchange hp honly hp' c
  refine ⟨hswap ▸ wellFormed_of_buffer hwf rfl fun c r hc => ⟨c, hc⟩, ?_⟩
  rw [hswap]
  by_cases hsame : other = h
  · subst hsame
    simp only [swapUnshared, true_or, or_true, iff_true]
    funext c
    rw [hview, hobs]
    by_cases hc : c = other
    · subst hc
      simp
    · rw [if_neg fun h' => hc (honly c ?_), if_neg hc]
      · simp [hc]
      · rw [h', ← hp', hp]
  · -- the clone gave `h` a vector apart from the other one
    have hpp' : p' ≠ p := by
      rintro rfl
      exact hsame (honly other hp')
    have hother : p' = r' := by
      have := hbuf other hsame
      rw [hp', hr'] at this
      exact Option.some.inj this
    subst hother
    simp only [swapUnshared, hr, hr', reduceCtorEq, false_or]
    constructor
    · intro heq
      by_cases hthird : ∀ c, c ≠ h → c ≠ other → w.buffer c ≠ some p'
      · exact Or.inr hthird
      · simp only [not_forall, not_not] at hthird
        obtain ⟨c, hc, hc', hcp⟩ := hthird
        have h₁ := congrFun heq c
        rw [hview, hobs, if_pos (by rw [hbuf c hc, hcp]), Function.update_of_ne hc',
          Function.update_of_ne hc] at h₁
        refine Or.inl (h₁.trans ?_)
        simp [observe, hcp, hr']
    · intro hgood
      funext c
      rw [hview, hobs]
      by_cases hc' : c = other
      · subst hc'
        simp [hp']
      · rw [Function.update_of_ne hc']
        by_cases hc : c = h
        · subst hc
          rw [if_neg (by rw [hp]; simpa using Ne.symm hpp'), if_pos rfl, Function.update_self]
        · rw [if_neg hc, Function.update_of_ne hc]
          by_cases hcp : w₁.buffer c = some p'
          · rw [hbuf c hc] at hcp
            rcases hgood with hgood | hgood
            · rw [if_pos (by rw [hbuf c hc, hcp]), hgood]
              simp [observe, hcp, hr']
            · exact absurd hcp (hgood c hc hc')
          · rw [if_neg hcp]

/-! ## Runs -/

/-- **One step**: the heap stays in order, and the handles show what private vectors
would exactly when the step is not a swap of a shared vector. -/
theorem step_spec (growTo : Nat → Nat → Nat) (hw : WellFormed w) (op : Op H) :
    WellFormed ((machine growTo).step w op).1 ∧
    (observe ((machine growTo).step w op).1 = (privateMachine.step (observe w) op).1 ↔
      swapUnshared w op) := by
  have hof : ∀ {w' : Store H} {v : H → List UInt8}, Shows w' v →
      WellFormed w' ∧ (observe w' = v ↔ True) := fun h => ⟨h.2, by simp [h.1]⟩
  cases op with
  | create h => exact hof (shows_create hw h)
  | fromBuffer h bytes => exact hof (shows_makeShared hw h rfl)
  | sized h size capacity => exact hof (shows_sized hw h size capacity)
  | fromData h bytes capacity => exact hof (shows_fromData hw h bytes capacity)
  | copy h other => exact hof (shows_copy hw h other)
  | move h other => exact hof (shows_move hw h other)
  | writeData h index byte => exact hof (shows_writeData hw h index byte)
  | writeBegin h index byte => exact hof (shows_writeBegin hw h index byte)
  | readBegin h => exact hof (shows_readBegin hw h)
  | assign h bytes => exact hof (shows_assign growTo hw h bytes)
  | append h bytes => exact hof (shows_append growTo hw h bytes)
  | appendRange h bytes => exact hof (shows_appendRange growTo hw h bytes)
  | insert h pos bytes => exact hof (shows_insert growTo hw h pos bytes)
  | resize h size => exact hof (shows_resize growTo hw h size)
  | clear h => exact hof (shows_clear hw h)
  | ensureCapacity h newCapacity => exact hof (shows_ensureCapacity hw h newCapacity)
  | swap h other =>
    cases hr : w.buffer h with
    | none =>
      have := shows_swap_of_none hw other hr
      exact ⟨this.2, by simp [swapUnshared, hr, machine, privateMachine, this.1]⟩
    | some r =>
      cases hr' : w.buffer other with
      | none =>
        have := shows_swap_of_other_none hw hr hr'
        exact ⟨this.2, by simp [swapUnshared, hr', machine, privateMachine, this.1]⟩
      | some r' => exact swap_of_some hw hr hr'

/-- **Value semantics.**  Along a run, whatever the library's growth policy, every
state shows exactly what private vectors would show if and only if no step swaps
in a vector that a third handle shares. -/
theorem value_semantics_iff (growTo : Nat → Nat → Nat) (ops : List (Op H)) :
    (∀ pre, pre <+: ops → observe ((machine growTo).final Store.empty pre)
        = privateMachine.final (fun _ => []) pre) ↔
      (machine growTo).AllGood swapUnshared Store.empty ops :=
  (machine growTo).refines_iff_allGood privateMachine observe WellFormed
    (fun _ op hw => (step_spec growTo hw op).1) (fun _ op hw => (step_spec growTo hw op).2)
    wellFormed_empty ops

/-- A third handle sees the swap of the vector it shares: handle 2 is a copy of
handle 1 and ends up with the bytes of handle 0. -/
theorem swap_exchanges_shared :
    observe ((machine max).final (Store.empty : Store (Fin 3))
        [.fromBuffer 0 [1], .fromBuffer 1 [2], .copy 2 1, .swap 0 1])
      ≠ privateMachine.final (fun _ => [])
        [.fromBuffer 0 [1], .fromBuffer 1 [2], .copy 2 1, .swap 0 1] := by
  intro h
  have hthird := congrFun h 2
  revert hthird
  decide +kernel

end NaiveRtc.CopyOnWrite
