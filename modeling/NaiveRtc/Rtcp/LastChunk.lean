import NaiveRtc.Components.WrapAround
import NaiveRtc.Lib.BitField

/-!
# Status chunks of the transport feedback

The model of `rtc/rtp_rtcp/rtcp/packets/transport_feedback_last_chunk.cpp`: a queue
of delta sizes that always fits into a single 16-bit chunk, in one of three formats
(a run length, fourteen one-bit symbols, seven two-bit symbols).

* `LastChunk`, `canAdd`, `add`, `emit`, `encodeLast`, `decode`, `statuses` — the class.
* `Holds` — what a chunk holds, as a list; `Keeps` — the same for a chunk that was read
  and not filled, whose two flags are on the safe side only.
* `holds_add`, `emit_spec`, `decode_encodeLast` — the queue does not lose, invent or
  reorder a status, whichever format it is written in.
* `keeps_add`, `keeps_decode` — the same for chunks that were read.
-/

namespace NaiveRtc.Rtcp

open BitField

/-- The symbols of a run length chunk, at most, -/
def kMaxRunLengthCapacity : Nat := 0x1fff

/-- of a vector of one bit each, -/
def kMaxOneBitCapacity : Nat := 14

/-- of two bits each, -/
def kMaxTwoBitCapacity : Nat := 7

/-- and of a vector. -/
def kMaxVectorCapacity : Nat := kMaxOneBitCapacity

/-- The symbol of a large delta. -/
def kLarge : Nat := 2

/-- `TransportFeedback::LastChunk`.  A `DeltaSize` is the size in bytes of a receive
delta: 0 (not received), 1 or 2. -/
structure LastChunk where
  deltaSizes : Vector Nat kMaxVectorCapacity
  size : Nat
  allSame : Bool
  hasLargeDelta : Bool
  deriving DecidableEq

namespace LastChunk

/-- `delta_sizes_[i]`. -/
def entry (c : LastChunk) (i : Nat) : Nat := c.deltaSizes.getD i 0

/-- `Clear()`; the array keeps its old entries. -/
def clear (c : LastChunk) : LastChunk :=
  { c with size := 0, allSame := true, hasLargeDelta := false }

/-- `LastChunk()`.  The array is left uninitialised; it is never read before it is
written. -/
def create : LastChunk :=
  { deltaSizes := Vector.replicate _ 0, size := 0, allSame := true, hasLargeDelta := false }

/-- `Empty()`. -/
def empty (c : LastChunk) : Bool := c.size == 0

/-- `CanAdd(delta_size)`: does one chunk still hold everything after `delta_size`? -/
def canAdd (c : LastChunk) (deltaSize : Nat) : Bool :=
  if c.size < kMaxTwoBitCapacity then true
  else if c.size < kMaxOneBitCapacity && !c.hasLargeDelta && deltaSize != kLarge then true
  else if c.size < kMaxRunLengthCapacity && c.allSame && c.entry 0 == deltaSize then true
  else false

/-- `Add(delta_size)`. -/
def add (c : LastChunk) (deltaSize : Nat) : LastChunk :=
  -- `setIfInBounds` is the test `size_ < kMaxVectorCapacity`
  let deltaSizes := c.deltaSizes.setIfInBounds c.size deltaSize
  { deltaSizes := deltaSizes
    size := c.size + 1
    allSame := c.allSame && deltaSize == deltaSizes.getD 0 0
    hasLargeDelta := c.hasLargeDelta || deltaSize == kLarge }

/-! ## The three formats -/

/-- `EncodeRunLength()`. -/
def encodeRunLength (c : LastChunk) : U16 := BitVec.ofNat 16 ((c.entry 0 <<< 13) ||| c.size)

/-- `EncodeOneBit()`. -/
def encodeOneBit (c : LastChunk) : U16 :=
  BitVec.ofNat 16 (orFields 1 kMaxOneBitCapacity c.entry 0x8000 c.size)

/-- `EncodeTwoBit(size)`. -/
def encodeTwoBit (c : LastChunk) (size : Nat) : U16 :=
  BitVec.ofNat 16 (orFields 2 kMaxTwoBitCapacity c.entry 0xc000 size)

/-- `EncodeLast()`. -/
def encodeLast (c : LastChunk) : U16 :=
  if c.allSame then c.encodeRunLength
  else if c.size ≤ kMaxTwoBitCapacity then c.encodeTwoBit c.size
  else c.encodeOneBit

/-- One round of the loop of `Emit` that moves the statuses left over to the front. -/
def moveDown (c : LastChunk) (i : Nat) : LastChunk :=
  let deltaSize := c.entry (kMaxTwoBitCapacity + i)
  let deltaSizes := c.deltaSizes.setIfInBounds i deltaSize
  { c with
    deltaSizes := deltaSizes
    allSame := c.allSame && deltaSize == deltaSizes.getD 0 0
    hasLargeDelta := c.hasLargeDelta || deltaSize == kLarge }

/-- The first `n` rounds of that loop. -/
def moveDownLoop (c : LastChunk) : Nat → LastChunk
  | 0 => c
  | n + 1 => (moveDownLoop c n).moveDown n

/-- `Emit()`: the chunk written, and what is left. -/
def emit (c : LastChunk) : U16 × LastChunk :=
  if c.allSame then (c.encodeRunLength, c.clear)
  else if c.size = kMaxOneBitCapacity then (c.encodeOneBit, c.clear)
  else
    let rest := c.size - kMaxTwoBitCapacity
    (c.encodeTwoBit kMaxTwoBitCapacity,
      moveDownLoop { c with size := rest, allSame := true, hasLargeDelta := false } rest)

/-- `delta_sizes_[i] = f(i)` for `i = 0, …, n - 1`. -/
def fill (deltaSizes : Vector Nat kMaxVectorCapacity) (f : Nat → Nat) :
    Nat → Vector Nat kMaxVectorCapacity
  | 0 => deltaSizes
  | n + 1 => (fill deltaSizes f n).setIfInBounds n (f n)

/-- `DecodeRunLength(chunk, max_count)`. -/
def decodeRunLength (c : LastChunk) (chunk : U16) (maxCount : Nat) : LastChunk :=
  let size := min (chunk.toNat % 2 ^ 13) maxCount
  let deltaSize := (chunk.toNat >>> 13) % 2 ^ 2
  { deltaSizes := fill c.deltaSizes (fun _ => deltaSize) (min size kMaxVectorCapacity)
    size := size
    allSame := true
    hasLargeDelta := decide (kLarge ≤ deltaSize) }

/-- `DecodeOneBit(chunk, max_size)`. -/
def decodeOneBit (c : LastChunk) (chunk : U16) (maxSize : Nat) : LastChunk :=
  let size := min kMaxOneBitCapacity maxSize
  { deltaSizes := fill c.deltaSizes (field 1 kMaxOneBitCapacity chunk.toNat) size
    size := size
    allSame := false
    hasLargeDelta := false }

/-- `DecodeTwoBit(chunk, max_size)`. -/
def decodeTwoBit (c : LastChunk) (chunk : U16) (maxSize : Nat) : LastChunk :=
  let size := min kMaxTwoBitCapacity maxSize
  { deltaSizes := fill c.deltaSizes (field 2 kMaxTwoBitCapacity chunk.toNat) size
    size := size
    allSame := false
    hasLargeDelta := true }

/-- `Decode(chunk, max_size)`. -/
def decode (c : LastChunk) (chunk : U16) (maxSize : Nat) : LastChunk :=
  if chunk &&& 0x8000 = 0 then c.decodeRunLength chunk maxSize
  else if chunk &&& 0x4000 = 0 then c.decodeOneBit chunk maxSize
  else c.decodeTwoBit chunk maxSize

/-- What `AppendTo(deltas)` appends. -/
def statuses (c : LastChunk) : List Nat :=
  if c.allSame then List.replicate c.size (c.entry 0)
  else c.deltaSizes.toList.take c.size

/-! ## What a chunk holds -/

/-- The chunk holds the delta sizes `xs`, oldest first. -/
structure Holds (c : LastChunk) (xs : List Nat) : Prop where
  size : c.size = xs.length
  entry : ∀ i < kMaxVectorCapacity, i < xs.length → xs[i]? = some (c.entry i)
  allSame : c.allSame = true ↔ ∀ x ∈ xs, x = c.entry 0
  hasLargeDelta : c.hasLargeDelta = true ↔ kLarge ∈ xs
  valid : ∀ x ∈ xs, x ≤ 2
  -- one of the formats has room for all of it
  fits : xs.length ≤ kMaxTwoBitCapacity ∨
    (xs.length ≤ kMaxOneBitCapacity ∧ kLarge ∉ xs) ∨
    (xs.length ≤ kMaxRunLengthCapacity ∧ c.allSame = true)

/-- The chunk keeps the statuses `xs`, oldest first.  Reading a chunk sets `all_same_` and
`has_large_delta_` by its format, and the reserved symbol 3 may be among what it read. -/
structure Keeps (c : LastChunk) (xs : List Nat) : Prop where
  size : c.size = xs.length
  entry : ∀ i < kMaxVectorCapacity, i < xs.length → xs[i]? = some (c.entry i)
  allSame : c.allSame = true → ∀ x ∈ xs, x = c.entry 0
  small : c.hasLargeDelta = false → ∀ x ∈ xs, x < kLarge
  valid : ∀ x ∈ xs, x ≤ 3
  fits : xs.length ≤ kMaxTwoBitCapacity ∨
    (xs.length ≤ kMaxOneBitCapacity ∧ c.hasLargeDelta = false) ∨
    (xs.length ≤ kMaxRunLengthCapacity ∧ c.allSame = true)

theorem getD_setIfInBounds (v : Vector Nat kMaxVectorCapacity) (i j : Nat)
    (x : Nat) :
    (v.setIfInBounds i x).getD j 0 =
      if i = j ∧ i < kMaxVectorCapacity then x else v.getD j 0 := by
  have h : ∀ u : Vector Nat kMaxVectorCapacity, u.getD j 0 = u[j]?.getD 0 := by
    intro u
    simp [Vector.getD, Array.getD_eq_getD_getElem?]
  rw [h, h, Vector.getElem?_setIfInBounds]
  by_cases hij : i = j
  · subst hij
    by_cases hlt : i < kMaxVectorCapacity
    · simp [hlt]
    · simp [hlt]
  · simp [hij]

variable {c : LastChunk} {xs : List Nat} {d : Nat}

theorem Holds.keeps (h : Holds c xs) : Keeps c xs where
  size := h.size
  entry := h.entry
  allSame := h.allSame.mp
  small := by
    intro hno x hx
    have hle := h.valid x hx
    have hne : x ≠ kLarge := fun heq => by simp [h.hasLargeDelta.mpr (heq ▸ hx)] at hno
    unfold kLarge at *
    omega
  valid := fun x hx => le_trans (h.valid x hx) (by decide)
  fits := by
    rcases h.fits with hle | ⟨hle, hno⟩ | hrun
    · exact Or.inl hle
    · refine Or.inr (Or.inl ⟨hle, ?_⟩)
      rw [Bool.eq_false_iff]
      exact fun hlarge => hno (h.hasLargeDelta.mp hlarge)
    · exact Or.inr (Or.inr hrun)

theorem holds_clear (c : LastChunk) : Holds c.clear [] where
  size := rfl
  entry := by simp
  allSame := by simp [clear]
  hasLargeDelta := by simp [clear]
  valid := by simp
  fits := Or.inl (by simp)

theorem holds_create : Holds create [] := holds_clear create

theorem Keeps.entry_zero (h : Keeps c xs) (hne : xs ≠ []) : xs[0]? = some (c.entry 0) :=
  h.entry 0 (by decide) (List.length_pos_iff.mpr hne)

theorem Keeps.empty_iff (h : Keeps c xs) : c.empty = true ↔ xs = [] := by
  rw [empty, h.size, beq_iff_eq, List.length_eq_zero_iff]

theorem canAdd_iff : c.canAdd d = true ↔
    c.size < kMaxTwoBitCapacity ∨
    (c.size < kMaxOneBitCapacity ∧ c.hasLargeDelta = false ∧ d ≠ kLarge) ∨
    (c.size < kMaxRunLengthCapacity ∧ c.allSame = true ∧ c.entry 0 = d) := by
  unfold canAdd
  split_ifs with h1 h2 h3 <;> simp_all

theorem entry_add (i : Nat) :
    (c.add d).entry i = if c.size = i ∧ c.size < kMaxVectorCapacity then d else c.entry i :=
  getD_setIfInBounds c.deltaSizes c.size i d

theorem keeps_add (h : Keeps c xs) (hd : d ≤ 2) (hcan : c.canAdd d = true) :
    Keeps (c.add d) (xs ++ [d]) := by
  have hzero : xs ≠ [] → (c.add d).entry 0 = c.entry 0 := by
    intro hne
    rw [entry_add, h.size]
    exact if_neg fun h0 => hne (List.length_eq_zero_iff.mp h0.1)
  refine ⟨by simp [add, h.size], ?_, ?_, ?_, ?_, ?_⟩
  · intro i hcap hi
    rw [entry_add, h.size]
    by_cases hix : xs.length = i
    · subst hix
      simp [hcap]
    · have hlt : i < xs.length := by
        simp at hi
        omega
      simp [hix, List.getElem?_append_left hlt, h.entry i hcap hlt]
  · intro hsame
    have hdef : (c.add d).allSame = (c.allSame && d == (c.add d).entry 0) := rfl
    rw [hdef, Bool.and_eq_true, beq_iff_eq] at hsame
    intro x hx
    rcases List.mem_append.mp hx with hx | hx
    · rw [hzero (List.ne_nil_of_mem hx)]
      exact h.allSame hsame.1 x hx
    · rw [List.mem_singleton.mp hx]
      exact hsame.2
  · intro hsmall
    have hdef : (c.add d).hasLargeDelta = (c.hasLargeDelta || d == kLarge) := rfl
    rw [hdef, Bool.or_eq_false_iff, beq_eq_false_iff_ne] at hsmall
    intro x hx
    rcases List.mem_append.mp hx with hx | hx
    · exact h.small hsmall.1 x hx
    · rw [List.mem_singleton.mp hx]
      exact lt_of_le_of_ne hd hsmall.2
  · intro x hx
    rcases List.mem_append.mp hx with hx | hx
    · exact h.valid x hx
    · rw [List.mem_singleton.mp hx]
      omega
  · rw [canAdd_iff, h.size] at hcan
    rw [List.length_append, List.length_singleton]
    rcases hcan with hcan | ⟨hlt, hno, hnd⟩ | ⟨hlt, hsm, heq⟩
    · exact Or.inl hcan
    · exact Or.inr (Or.inl ⟨hlt, by simp [add, hno, hnd]⟩)
    · refine Or.inr (Or.inr ⟨hlt, ?_⟩)
      have hdef : (c.add d).allSame = (c.allSame && d == (c.add d).entry 0) := rfl
      rw [hdef, hsm, Bool.true_and, beq_iff_eq]
      by_cases hne : xs = []
      · rw [entry_add, h.size, hne]
        exact (if_pos ⟨rfl, by decide⟩).symm
      · rw [hzero hne]
        exact heq.symm

theorem holds_add (h : Holds c xs) (hd : d ≤ 2) (hcan : c.canAdd d = true) :
    Holds (c.add d) (xs ++ [d]) := by
  have hkeeps := keeps_add h.keeps hd hcan
  have hlarge : (c.add d).hasLargeDelta = true ↔ kLarge ∈ xs ++ [d] := by
    have hdef : (c.add d).hasLargeDelta = (c.hasLargeDelta || d == kLarge) := rfl
    rw [hdef, Bool.or_eq_true, beq_iff_eq, h.hasLargeDelta, List.mem_append, List.mem_singleton]
    exact or_congr_right eq_comm
  refine ⟨hkeeps.size, hkeeps.entry, ⟨hkeeps.allSame, fun hall => ?_⟩, hlarge, ?_, ?_⟩
  · have hdef : (c.add d).allSame = (c.allSame && d == (c.add d).entry 0) := rfl
    rw [hdef, Bool.and_eq_true, beq_iff_eq, h.allSame]
    refine ⟨fun x hx => ?_, hall d (by simp)⟩
    rw [hall x (List.mem_append_left _ hx), entry_add, h.size]
    exact if_neg fun h0 => List.ne_nil_of_mem hx (List.length_eq_zero_iff.mp h0.1)
  · intro x hx
    rcases List.mem_append.mp hx with hx | hx
    · exact h.valid x hx
    · rw [List.mem_singleton.mp hx]
      exact hd
  · refine hkeeps.fits.imp_right (Or.imp_left fun hfits => ⟨hfits.1, ?_⟩)
    rw [← hlarge, hfits.2]
    exact Bool.false_ne_true

/-! ## Written and read back -/

theorem getD_fill (v : Vector Nat kMaxVectorCapacity) (f : Nat → Nat) {n i : Nat}
    (hn : n ≤ kMaxVectorCapacity) :
    (fill v f n).getD i 0 = if i < n then f i else v.getD i 0 := by
  induction n with
  | zero => simp [fill]
  | succ n ih =>
    rw [fill, getD_setIfInBounds, ih (by omega)]
    by_cases hin : n = i
    · subst hin
      simp [show n < kMaxVectorCapacity by omega]
    · simp [hin, show i < n + 1 ↔ i < n by omega]

variable {n : Nat}

theorem take_eq_map (v : Vector Nat kMaxVectorCapacity) (hn : n ≤ kMaxVectorCapacity) :
    v.toList.take n = (List.range n).map (fun i => v.getD i 0) := by
  apply List.ext_getElem?
  intro i
  rw [List.getElem?_take, List.getElem?_map]
  by_cases hi : i < n
  · rw [if_pos hi, List.getElem?_range hi, Option.map_some]
    simp [Vector.getD, Array.getD_eq_getD_getElem?, show i < kMaxVectorCapacity by omega]
  · rw [if_neg hi, List.getElem?_eq_none (by simpa using hi), Option.map_none]

theorem take_fill (v : Vector Nat kMaxVectorCapacity) (f : Nat → Nat)
    (hn : n ≤ kMaxVectorCapacity) :
    (fill v f n).toList.take n = (List.range n).map f := by
  rw [take_eq_map _ hn]
  refine List.map_congr_left (fun i hi => ?_)
  rw [getD_fill v f hn, if_pos (List.mem_range.mp hi)]

theorem Keeps.eq_map (h : Keeps c xs) (hn : n ≤ xs.length)
    (hcap : n ≤ kMaxVectorCapacity) : xs.take n = (List.range n).map c.entry := by
  apply List.ext_getElem?
  intro i
  rw [List.getElem?_take, List.getElem?_map]
  by_cases hi : i < n
  · rw [if_pos hi, List.getElem?_range hi, Option.map_some]
    exact h.entry i (by omega) (by omega)
  · rw [if_neg hi, List.getElem?_eq_none (by simpa using hi), Option.map_none]

theorem Keeps.eq_replicate (h : Keeps c xs) (hsame : c.allSame = true) :
    xs = List.replicate xs.length (c.entry 0) :=
  List.eq_replicate_iff.mpr ⟨rfl, h.allSame hsame⟩

theorem Keeps.statuses (h : Keeps c xs) : c.statuses = xs := by
  unfold LastChunk.statuses
  by_cases hsame : c.allSame = true
  · rw [if_pos hsame, h.size]
    exact (h.eq_replicate hsame).symm
  · have hcap : xs.length ≤ kMaxVectorCapacity := by
      rcases h.fits with hle | ⟨hle, -⟩ | ⟨-, hall⟩
      · exact le_trans hle (by decide)
      · exact hle
      · exact absurd hall hsame
    rw [if_neg hsame, h.size, take_eq_map _ hcap]
    have := h.eq_map (le_refl xs.length) hcap
    rw [List.take_length] at this
    exact this.symm

theorem and_bit_eq_zero (chunk : U16) {k : Nat} (hk : k < 16) :
    chunk &&& BitVec.twoPow 16 k = 0 ↔ chunk.toNat.testBit k = false := by
  have hne : BitVec.twoPow 16 k ≠ 0#16 := by
    intro h0
    have hbit := congrArg (fun b => b.getLsbD k) h0
    simp [hk] at hbit
  rw [BitVec.and_twoPow, BitVec.getLsbD]
  cases chunk.toNat.testBit k <;> simp [hne]

theorem decode_eq (c : LastChunk) (chunk : U16) (maxSize : Nat) :
    c.decode chunk maxSize =
      if chunk.toNat.testBit 15 = false then c.decodeRunLength chunk maxSize
      else if chunk.toNat.testBit 14 = false then c.decodeOneBit chunk maxSize
      else c.decodeTwoBit chunk maxSize := by
  have h15 : (0x8000 : U16) = BitVec.twoPow 16 15 := by decide
  have h14 : (0x4000 : U16) = BitVec.twoPow 16 14 := by decide
  simp only [decode, h15, h14, and_bit_eq_zero chunk (by omega : 15 < 16),
    and_bit_eq_zero chunk (by omega : 14 < 16)]

theorem toNat_encodeRunLength (hd : c.entry 0 ≤ 3) (hlen : c.size < 2 ^ 13) :
    c.encodeRunLength.toNat = 2 ^ 13 * c.entry 0 + c.size := by
  rw [encodeRunLength, BitVec.toNat_ofNat, Nat.shiftLeft_eq, Nat.mul_comm,
    ← Nat.two_pow_add_eq_or_of_lt hlen]
  omega

variable {maxSize : Nat}

theorem decode_encodeRunLength (h : Keeps c xs) (hsame : c.allSame = true) (hne : xs ≠ [])
    (c₀ : LastChunk) (hmax : xs.length ≤ maxSize) :
    (c₀.decode c.encodeRunLength maxSize).statuses = xs := by
  have hd : c.entry 0 ≤ 3 := h.valid _ (List.mem_of_getElem? (h.entry_zero hne))
  have hlen : c.size < 2 ^ 13 := by
    have := h.fits
    rw [h.size]
    simp only [kMaxTwoBitCapacity, kMaxOneBitCapacity, kMaxRunLengthCapacity] at this
    omega
  have hval := toNat_encodeRunLength hd hlen
  have hsize : c.encodeRunLength.toNat % 2 ^ 13 = xs.length := by
    rw [hval, ← h.size]
    omega
  have hsymbol : (c.encodeRunLength.toNat >>> 13) % 2 ^ 2 = c.entry 0 := by
    rw [hval, Nat.shiftRight_eq_div_pow]
    omega
  have htag : c.encodeRunLength.toNat.testBit 15 = false :=
    Nat.testBit_lt_two_pow (by rw [hval]; omega)
  rw [decode_eq, if_pos htag, statuses, if_pos (show (c₀.decodeRunLength _ maxSize).allSame = true from rfl)]
  have hpos : 0 < xs.length := List.length_pos_iff.mpr hne
  have hentry : (c₀.decodeRunLength c.encodeRunLength maxSize).entry 0 = c.entry 0 := by
    show (fill _ _ _).getD 0 0 = _
    rw [hsize, hsymbol, getD_fill _ _ (Nat.min_le_right _ _), if_pos]
    simp only [kMaxVectorCapacity, kMaxOneBitCapacity]
    omega
  have hcount : (c₀.decodeRunLength c.encodeRunLength maxSize).size = xs.length := by
    show min _ maxSize = _
    rw [hsize, Nat.min_eq_left hmax]
  rw [hentry, hcount]
  exact (h.eq_replicate hsame).symm

theorem map_field_orFields {w cap base n : Nat} {f : Nat → Nat} (hn : n ≤ cap)
    (hwidth : w * cap ≤ 16) (hbase : base % 2 ^ (w * cap) = 0) (hf : ∀ j < n, f j < 2 ^ w) :
    (List.range n).map (field w cap (BitVec.ofNat 16 (orFields w cap f base n)).toNat) =
      (List.range n).map f := by
  refine List.map_congr_left (fun i hi => ?_)
  have hi : i < n := List.mem_range.mp hi
  rw [BitVec.toNat_ofNat, field_mod hwidth (by omega), field_orFields hn hi hf hbase]

theorem testBit_tag {w cap base n k : Nat} {f : Nat → Nat} (hn : n ≤ cap)
    (hk : w * cap ≤ k ∧ k < 16) (hf : ∀ j < n, f j < 2 ^ w) :
    (BitVec.ofNat 16 (orFields w cap f base n)).toNat.testBit k = base.testBit k := by
  rw [BitVec.toNat_ofNat, Nat.testBit_mod_two_pow, testBit_above hn hk.1 hf,
    decide_eq_true hk.2, Bool.true_and]

/-- **A one-bit chunk reads back**, when it is full or the reader knows how many
statuses to expect. -/
theorem decode_encodeOneBit (h : Keeps c xs) (hsmall : c.hasLargeDelta = false)
    (hcap : xs.length ≤ kMaxOneBitCapacity) (c₀ : LastChunk)
    (hmax : min kMaxOneBitCapacity maxSize = xs.length) :
    (c₀.decode c.encodeOneBit maxSize).statuses = xs := by
  have hf : ∀ j < xs.length, c.entry j < 2 ^ 1 := by
    intro j hj
    have hmem := List.mem_of_getElem? (h.entry j (lt_of_lt_of_le hj hcap) hj)
    exact h.small hsmall _ hmem
  have hchunk : c.encodeOneBit =
      BitVec.ofNat 16 (orFields 1 kMaxOneBitCapacity c.entry 0x8000 xs.length) := by
    rw [encodeOneBit, h.size]
  have h15 : c.encodeOneBit.toNat.testBit 15 = true := by
    rw [hchunk, testBit_tag hcap (by decide) hf]
    decide
  have h14 : c.encodeOneBit.toNat.testBit 14 = false := by
    rw [hchunk, testBit_tag hcap (by decide) hf]
    decide
  have hxs := h.eq_map (le_refl _) hcap
  rw [List.take_length] at hxs
  rw [decode_eq, if_neg (by simp [h15]), if_pos h14, statuses, if_neg (by simp [decodeOneBit])]
  show (fill _ _ (min _ maxSize)).toList.take (min _ maxSize) = xs
  rw [hmax, take_fill _ _ hcap, hchunk, map_field_orFields hcap (by decide) (by decide) hf,
    ← hxs]

/-- **A two-bit chunk reads back**, when it is full or the reader knows how many
statuses to expect. -/
theorem decode_encodeTwoBit (h : Keeps c xs) (hlen : n ≤ xs.length)
    (hcap : n ≤ kMaxTwoBitCapacity) (c₀ : LastChunk)
    (hmax : min kMaxTwoBitCapacity maxSize = n) :
    (c₀.decode (c.encodeTwoBit n) maxSize).statuses = xs.take n := by
  have hvec : n ≤ kMaxVectorCapacity := le_trans hcap (by decide)
  have hf : ∀ j < n, c.entry j < 2 ^ 2 := by
    intro j hj
    have hle := h.valid _ (List.mem_of_getElem? (h.entry j (by omega) (by omega)))
    omega
  have h15 : (c.encodeTwoBit n).toNat.testBit 15 = true := by
    rw [encodeTwoBit, testBit_tag hcap (by decide) hf]
    decide
  have h14 : (c.encodeTwoBit n).toNat.testBit 14 = true := by
    rw [encodeTwoBit, testBit_tag hcap (by decide) hf]
    decide
  rw [decode_eq, if_neg (by simp [h15]), if_neg (by simp [h14]), statuses,
    if_neg (by simp [decodeTwoBit])]
  show (fill _ _ (min _ maxSize)).toList.take (min _ maxSize) = xs.take n
  rw [hmax, take_fill _ _ hvec, encodeTwoBit,
    map_field_orFields hcap (by decide) (by decide) hf, h.eq_map hlen hvec]

/-- **`EncodeLast` loses nothing**: a reader that expects as many statuses as there
are finds all of them. -/
theorem decode_encodeLast (h : Keeps c xs) (hne : xs ≠ []) (c₀ : LastChunk) :
    (c₀.decode c.encodeLast xs.length).statuses = xs := by
  unfold encodeLast
  by_cases hsame : c.allSame = true
  · rw [if_pos hsame]
    exact decode_encodeRunLength h hsame hne c₀ (le_refl _)
  · rw [if_neg hsame]
    by_cases htwo : c.size ≤ kMaxTwoBitCapacity
    · rw [if_pos htwo]
      rw [h.size] at htwo
      have := decode_encodeTwoBit h (le_refl _) htwo c₀ (Nat.min_eq_right htwo)
      rw [List.take_length] at this
      rw [h.size]
      exact this
    · rw [if_neg htwo]
      rw [h.size] at htwo
      rcases h.fits with hle | ⟨hle, hno⟩ | ⟨-, hall⟩
      · exact absurd hle htwo
      · exact decode_encodeOneBit h hno hle c₀ (Nat.min_eq_right hle)
      · exact absurd hall hsame

/-! ## Emitting -/

theorem Keeps.not_canAdd (h : Keeps c xs) (hcan : c.canAdd d = false) :
    kMaxTwoBitCapacity ≤ xs.length := by
  by_contra hlt
  have : c.canAdd d = true := canAdd_iff.mpr (Or.inl (by rw [h.size]; omega))
  rw [this] at hcan
  exact Bool.noConfusion hcan

theorem Holds.of_size (h : Holds { c with size := n } xs) (hn : c.size = n) :
    Holds c xs := by
  subst hn
  exact h

/-- After `n` rounds of the moving loop the first `n` statuses left over are in
front, and what is still to be moved is where it was. -/
theorem holds_moveDownLoop (h : Keeps c xs) (hvalid : ∀ x ∈ xs.drop kMaxTwoBitCapacity, x ≤ 2)
    {rest n : Nat}
    (hlen : xs.length = kMaxTwoBitCapacity + rest) (hrest : rest ≤ kMaxTwoBitCapacity)
    (hn : n ≤ rest) :
    let c₁ : LastChunk := { c with size := rest, allSame := true, hasLargeDelta := false }
    Holds { c₁.moveDownLoop n with size := n } ((xs.drop kMaxTwoBitCapacity).take n) ∧
      (c₁.moveDownLoop n).size = rest ∧
      ∀ i, n ≤ i → (c₁.moveDownLoop n).entry i = c.entry i := by
  intro c₁
  induction n with
  | zero => exact ⟨holds_clear c₁, rfl, fun i _ => rfl⟩
  | succ n ih =>
    obtain ⟨ihHolds, ihSize, ihEntry⟩ := ih (by omega)
    have hcapn : kMaxTwoBitCapacity + n < kMaxVectorCapacity := by
      simp only [kMaxTwoBitCapacity, kMaxVectorCapacity, kMaxOneBitCapacity] at *
      omega
    -- the status moved in this round
    have hmoved : xs[kMaxTwoBitCapacity + n]? =
        some ((c₁.moveDownLoop n).entry (kMaxTwoBitCapacity + n)) := by
      rw [ihEntry _ (by omega)]
      exact h.entry _ hcapn (by omega)
    have hnext : (xs.drop kMaxTwoBitCapacity).take (n + 1) =
        (xs.drop kMaxTwoBitCapacity).take n ++
          [(c₁.moveDownLoop n).entry (kMaxTwoBitCapacity + n)] := by
      rw [List.take_add_one, List.getElem?_drop, hmoved, Option.toList_some]
    refine ⟨?_, ihSize, ?_⟩
    · rw [hnext]
      have hle := hvalid _ (List.mem_of_getElem? (List.getElem?_drop.trans hmoved))
      have hadd := holds_add ihHolds hle
        (canAdd_iff.mpr (Or.inl (by show n < kMaxTwoBitCapacity; omega)))
      exact hadd
    · intro i hi
      show ((c₁.moveDownLoop n).deltaSizes.setIfInBounds n _).getD i 0 = _
      rw [getD_setIfInBounds, if_neg (by omega)]
      exact ihEntry i (by omega)

/-- **`Emit` writes a first part and keeps the rest**: the chunk it returns reads
back as a non-empty first part of what was held, however many statuses the reader
expects after it, and the rest is held still, with room for any delta size. -/
theorem emit_spec (h : Keeps c xs) (hcan : c.canAdd d = false) :
    ∃ ys zs, xs = ys ++ zs ∧ ys ≠ [] ∧ Holds c.emit.2 zs ∧ zs.length < kMaxTwoBitCapacity ∧
      ∀ c₀ maxSize, ys.length ≤ maxSize → (decode c₀ c.emit.1 maxSize).statuses = ys := by
  have hge := h.not_canAdd hcan
  have hne : xs ≠ [] := by
    rintro rfl
    exact absurd hge (by decide)
  unfold emit
  by_cases hsame : c.allSame = true
  · rw [if_pos hsame]
    exact ⟨xs, [], by simp, hne, holds_clear c, by decide,
      fun c₀ maxSize hmax => decode_encodeRunLength h hsame hne c₀ hmax⟩
  · rw [if_neg hsame]
    by_cases hfull : c.size = kMaxOneBitCapacity
    · rw [if_pos hfull]
      rw [h.size] at hfull
      refine ⟨xs, [], by simp, hne, holds_clear c, by decide, fun c₀ maxSize hmax => ?_⟩
      rcases h.fits with hle | ⟨hle, hno⟩ | ⟨-, hall⟩
      · exact absurd hle (by rw [hfull]; decide)
      · exact decode_encodeOneBit h hno hle c₀ (by rw [← hfull, Nat.min_eq_left hmax])
      · exact absurd hall hsame
    · rw [if_neg hfull]
      rw [h.size] at hfull ⊢
      have hlt : xs.length < kMaxOneBitCapacity := by
        rcases h.fits with hle | ⟨hle, -⟩ | ⟨-, hall⟩
        · exact lt_of_le_of_lt hle (by decide)
        · omega
        · exact absurd hall hsame
      obtain ⟨rest, hlen⟩ := Nat.exists_eq_add_of_le hge
      have hrest : rest < kMaxTwoBitCapacity := by
        simp only [kMaxTwoBitCapacity, kMaxOneBitCapacity] at *
        omega
      have hvalid : ∀ x ∈ xs.drop kMaxTwoBitCapacity, x ≤ 2 := by
        intro x hx
        rcases h.fits with hle | ⟨-, hsmall⟩ | ⟨-, hall⟩
        · rw [List.drop_eq_nil_of_le hle] at hx
          cases hx
        · exact le_of_lt (h.small hsmall x (List.mem_of_mem_drop hx))
        · exact absurd hall hsame
      obtain ⟨hholds, hsize, -⟩ := holds_moveDownLoop h hvalid hlen (le_of_lt hrest) (le_refl rest)
      refine ⟨xs.take kMaxTwoBitCapacity, xs.drop kMaxTwoBitCapacity,
        (List.take_append_drop _ _).symm, ?_, ?_, ?_, fun c₀ maxSize hmax => ?_⟩
      · intro h0
        rcases List.take_eq_nil_iff.mp h0 with h1 | h1
        · exact absurd h1 (by decide)
        · exact hne h1
      · rw [List.take_of_length_le (by rw [List.length_drop]; omega)] at hholds
        rw [hlen, Nat.add_sub_cancel_left]
        exact hholds.of_size hsize
      · rw [List.length_drop]
        omega
      · rw [List.length_take, Nat.min_eq_left hge] at hmax
        exact decode_encodeTwoBit h hge (le_refl _) c₀ (Nat.min_eq_left hmax)

/-! ## Chunks that were read -/

theorem entry_fill (v : Vector Nat kMaxVectorCapacity) (f : Nat → Nat) {n i : Nat}
    (hn : n ≤ kMaxVectorCapacity) (hi : i < n) : (fill v f n).getD i 0 = f i := by
  rw [getD_fill v f hn, if_pos hi]

/-- What a chunk is read as. -/
def decoded (chunk : U16) (maxSize : Nat) : List Nat :=
  if chunk.toNat.testBit 15 = false then
    List.replicate (min (chunk.toNat % 2 ^ 13) maxSize) ((chunk.toNat >>> 13) % 2 ^ 2)
  else if chunk.toNat.testBit 14 = false then
    (List.range (min kMaxOneBitCapacity maxSize)).map (field 1 kMaxOneBitCapacity chunk.toNat)
  else (List.range (min kMaxTwoBitCapacity maxSize)).map (field 2 kMaxTwoBitCapacity chunk.toNat)

theorem keeps_decode (c : LastChunk) (chunk : U16) (maxSize : Nat) :
    Keeps (c.decode chunk maxSize) (decoded chunk maxSize) := by
  rw [decode_eq, decoded]
  by_cases h15 : chunk.toNat.testBit 15 = false
  · rw [if_pos h15, if_pos h15]
    have hentry : ∀ i < kMaxVectorCapacity, i < min (chunk.toNat % 2 ^ 13) maxSize →
        (c.decodeRunLength chunk maxSize).entry i = (chunk.toNat >>> 13) % 2 ^ 2 :=
      fun i hcap hi => entry_fill _ _ (Nat.min_le_right _ _) (lt_min hi hcap)
    have hsymbol : (chunk.toNat >>> 13) % 2 ^ 2 ≤ 3 := by omega
    refine ⟨by simp [decodeRunLength], ?_, ?_, ?_, ?_, ?_⟩
    · intro i hcap hi
      rw [List.length_replicate] at hi
      rw [List.getElem?_replicate, if_pos hi, hentry i hcap hi]
    · intro _ x hx
      obtain ⟨hne, rfl⟩ := List.mem_replicate.mp hx
      exact (hentry 0 (by decide) (Nat.pos_of_ne_zero hne)).symm
    · intro hsmall x hx
      obtain ⟨-, rfl⟩ := List.mem_replicate.mp hx
      exact not_le.mp (of_decide_eq_false hsmall)
    · intro x hx
      obtain ⟨-, rfl⟩ := List.mem_replicate.mp hx
      exact hsymbol
    · refine Or.inr (Or.inr ⟨?_, rfl⟩)
      rw [List.length_replicate, kMaxRunLengthCapacity]
      omega
  · rw [if_neg h15, if_neg h15]
    by_cases h14 : chunk.toNat.testBit 14 = false
    · rw [if_pos h14, if_pos h14]
      have hcap : min kMaxOneBitCapacity maxSize ≤ kMaxVectorCapacity := Nat.min_le_left _ _
      have hbit : ∀ x ∈ (List.range (min kMaxOneBitCapacity maxSize)).map
          (field 1 kMaxOneBitCapacity chunk.toNat), x < kLarge := by
        intro x hx
        obtain ⟨i, -, rfl⟩ := List.mem_map.mp hx
        exact Nat.mod_lt _ (by decide)
      refine ⟨by simp [decodeOneBit], ?_, fun h => by simp [decodeOneBit] at h, fun _ => hbit,
        fun x hx => le_trans (le_of_lt (hbit x hx)) (by decide), Or.inr (Or.inl ⟨?_, rfl⟩)⟩
      · intro i _ hi
        rw [List.length_map, List.length_range] at hi
        rw [List.getElem?_map, List.getElem?_range hi, Option.map_some]
        exact congrArg some (entry_fill _ _ hcap hi).symm
      · rw [List.length_map, List.length_range]
        exact hcap
    · rw [if_neg h14, if_neg h14]
      have htwo : min kMaxTwoBitCapacity maxSize ≤ kMaxTwoBitCapacity := Nat.min_le_left _ _
      refine ⟨by simp [decodeTwoBit], ?_, fun h => by simp [decodeTwoBit] at h,
        fun h => by simp [decodeTwoBit] at h, ?_,
          Or.inl (by rwa [List.length_map, List.length_range])⟩
      · intro i _ hi
        rw [List.length_map, List.length_range] at hi
        rw [List.getElem?_map, List.getElem?_range hi, Option.map_some]
        exact congrArg some (entry_fill _ _ (le_trans htwo (by decide)) hi).symm
      · intro x hx
        obtain ⟨i, -, rfl⟩ := List.mem_map.mp hx
        exact Nat.le_of_lt_succ (Nat.mod_lt _ (by decide))

theorem statuses_decode (c : LastChunk) (chunk : U16) (maxSize : Nat) :
    (c.decode chunk maxSize).statuses = decoded chunk maxSize :=
  (keeps_decode c chunk maxSize).statuses

theorem length_decoded_le (chunk : U16) (maxSize : Nat) :
    (decoded chunk maxSize).length ≤ maxSize := by
  unfold decoded
  split_ifs
  · rw [List.length_replicate]
    exact Nat.min_le_right _ _
  · rw [List.length_map, List.length_range]
    exact Nat.min_le_right _ _
  · rw [List.length_map, List.length_range]
    exact Nat.min_le_right _ _

theorem decoded_of_lt {chunk : U16} {maxSize maxSize' : Nat}
    (hlt : (decoded chunk maxSize).length < maxSize) (hle : maxSize ≤ maxSize') :
    decoded chunk maxSize' = decoded chunk maxSize := by
  have hmin : ∀ n, min n maxSize < maxSize → min n maxSize' = min n maxSize := by omega
  unfold decoded at hlt ⊢
  split_ifs at hlt ⊢
  · rw [List.length_replicate] at hlt
    rw [hmin _ hlt]
  · rw [List.length_map, List.length_range] at hlt
    rw [hmin _ hlt]
  · rw [List.length_map, List.length_range] at hlt
    rw [hmin _ hlt]

end LastChunk

end NaiveRtc.Rtcp
