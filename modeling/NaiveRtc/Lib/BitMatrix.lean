import Mathlib.Data.List.GetD
import Mathlib.Logic.Function.Basic
import Mathlib.Tactic.SplitIfs

/-!
# Bit matrices in a flat memory

A matrix of bits whose rows stand one after the other, `stride` bytes each, the first bit of a byte
being its most significant one.  A matrix is filled column by column: the bits of the byte that is
being filled are kept at its low end, and move up with every bit that comes.

* `msb` — the bits of a byte.
* `updateColumn` — one byte of every row changed, as a loop over the rows; `updateColumn_hit` and
  `updateColumn_miss` say what is where afterwards.
* `Filled` — the first bits of a row are there, the last ones of them in the byte being filled.
* `filled_push`, `filled_skip`, `filled_finish` — **one more bit, a run of zeros, the end.**
-/

namespace BitMatrix

/-! ## The bits of a byte -/

/-- The bit of a byte at a place, counted from the most significant one. -/
def msb (b : UInt8) (k : Nat) : Bool := b.toBitVec.getMsbD k

@[simp] theorem msb_zero (k : Nat) : msb 0 k = false := by
  show (0#8).getMsbD k = false
  rw [BitVec.getMsbD_zero]

@[simp] theorem msb_or (a b : UInt8) (k : Nat) : msb (a ||| b) k = (msb a k || msb b k) := by
  rw [msb, UInt8.toBitVec_or, BitVec.getMsbD_or]
  rfl

theorem msb_of_le (b : UInt8) {k : Nat} (h : 8 ≤ k) : msb b k = false :=
  BitVec.getMsbD_of_ge b.toBitVec k h

theorem msb_shiftLeft (b : UInt8) {n : Nat} (hn : n < 8) (k : Nat) :
    msb (b <<< UInt8.ofNat n) k = (decide (k < 8) && msb b (k + n)) := by
  have hshift : (UInt8.ofNat n).toBitVec % 8 = BitVec.ofNat 8 n := by
    apply BitVec.eq_of_toNat_eq
    rw [BitVec.toNat_umod]
    show n % 256 % 8 = n % 256
    omega
  have hn' : n % 2 ^ 8 = n := by omega
  rw [msb, UInt8.toBitVec_shiftLeft, hshift, BitVec.shiftLeft_eq', BitVec.toNat_ofNat, hn',
    BitVec.getMsbD_shiftLeft]
  by_cases hk : k < 8
  · rw [decide_eq_true hk, Bool.true_and]
    rfl
  · rw [decide_eq_false hk, Bool.false_and]
    exact BitVec.getMsbD_of_ge _ _ (by omega)

theorem eq_of_msb {a b : UInt8} (h : ∀ k < 8, msb a k = msb b k) : a = b := by
  apply UInt8.eq_of_toBitVec_eq
  exact BitVec.eq_of_getMsbD_eq fun k hk => h k hk

/-- A bit as a byte. -/
def lastBit (c : Bool) : UInt8 := if c then 1 else 0

theorem msb_lastBit (c : Bool) (k : Nat) : msb (lastBit c) k = (decide (k = 7) && c) := by
  cases c with
  | false =>
    rw [Bool.and_false]
    exact msb_zero k
  | true =>
    rw [Bool.and_true]
    by_cases hk : k < 8
    · have hall : ∀ k < 8, msb (lastBit true) k = decide (k = 7) := by decide
      exact hall k hk
    · rw [msb_of_le _ (by omega), decide_eq_false (by omega)]

/-- The most significant bit, moved to the low end. -/
theorem firstBit_eq (b : UInt8) : (b &&& 0x80) >>> 7 = lastBit (msb b 0) := by
  have hall : ∀ v : BitVec 8, (UInt8.ofBitVec v &&& 0x80) >>> 7 =
      lastBit (msb (UInt8.ofBitVec v) 0) := by decide
  exact hall b.toBitVec

/-! ## One byte of every row -/

section Column

variable (stride byte : Nat) (g : Nat → UInt8 → UInt8)

/-- The byte `byte` of every row is changed, one row after the other. -/
def updateColumn (rows : Nat) (mem : List UInt8) : List UInt8 :=
  (List.range rows).foldl (fun mem row =>
    mem.set (row * stride + byte) (g row (mem.getD (row * stride + byte) 0))) mem

variable {stride byte g} {rows : Nat} {mem : List UInt8}

theorem updateColumn_succ : updateColumn stride byte g (rows + 1) mem =
    (updateColumn stride byte g rows mem).set (rows * stride + byte)
      (g rows ((updateColumn stride byte g rows mem).getD (rows * stride + byte) 0)) := by
  rw [updateColumn, List.range_succ, List.foldl_append]
  rfl

@[simp] theorem length_updateColumn :
    (updateColumn stride byte g rows mem).length = mem.length := by
  induction rows with
  | zero => rfl
  | succ rows ih => rw [updateColumn_succ, List.length_set, ih]

theorem updateColumn_miss {i : Nat} (h : ∀ row < rows, i ≠ row * stride + byte) :
    (updateColumn stride byte g rows mem).getD i 0 = mem.getD i 0 := by
  induction rows with
  | zero => rfl
  | succ rows ih =>
    rw [updateColumn_succ, List.getD_eq_getElem?_getD,
      List.getElem?_set_ne (h rows (Nat.lt_succ_self _)).symm, ← List.getD_eq_getElem?_getD]
    exact ih fun row hrow => h row (Nat.lt_succ_of_lt hrow)

theorem row_inj (hstride : 0 < stride) {row row' : Nat}
    (h : row * stride + byte = row' * stride + byte) : row = row' :=
  Nat.eq_of_mul_eq_mul_right hstride (Nat.add_right_cancel h)

theorem updateColumn_hit (hstride : 0 < stride) {row : Nat} (hrow : row < rows)
    (hlen : row * stride + byte < mem.length) :
    (updateColumn stride byte g rows mem).getD (row * stride + byte) 0 =
      g row (mem.getD (row * stride + byte) 0) := by
  induction rows with
  | zero => omega
  | succ rows ih =>
    rw [updateColumn_succ]
    by_cases heq : row = rows
    · subst heq
      have hmiss : (updateColumn stride byte g row mem).getD (row * stride + byte) 0 =
          mem.getD (row * stride + byte) 0 :=
        updateColumn_miss fun other hother hsame => absurd (row_inj hstride hsame) (by omega)
      rw [hmiss, List.getD_eq_getElem?_getD, List.getElem?_set_self (by simpa using hlen)]
      rfl
    · have hne : rows * stride + byte ≠ row * stride + byte := fun hsame =>
        heq (row_inj hstride hsame).symm
      rw [List.getD_eq_getElem?_getD, List.getElem?_set_ne hne, ← List.getD_eq_getElem?_getD]
      exact ih (by omega)

end Column

/-! ## Rows that are being filled -/

/-- The bytes of a row; nothing stands behind them. -/
def rowAt (mem : List UInt8) (stride row byte : Nat) : UInt8 :=
  if byte < stride then mem.getD (row * stride + byte) 0 else 0

/-- The bit of a row at a place. -/
def bitAt (mem : List UInt8) (stride row place : Nat) : Bool :=
  msb (rowAt mem stride row (place / 8)) (place % 8)

theorem place_inj {stride row row' byte byte' : Nat} (hbyte : byte < stride)
    (hbyte' : byte' < stride) (h : row * stride + byte = row' * stride + byte') :
    row = row' ∧ byte = byte' := by
  have hrow : row = row' := by
    have hdiv := congrArg (· / stride) h
    simp only [Nat.mul_comm _ stride] at hdiv
    rwa [Nat.mul_add_div (by omega), Nat.mul_add_div (by omega), Nat.div_eq_of_lt hbyte,
      Nat.div_eq_of_lt hbyte', Nat.add_zero, Nat.add_zero] at hdiv
  subst hrow
  exact ⟨rfl, Nat.add_left_cancel h⟩

theorem place_lt {stride row rows byte : Nat} (hrow : row < rows) (hbyte : byte < stride) :
    row * stride + byte < rows * stride := by
  have hmul : (row + 1) * stride ≤ rows * stride := Nat.mul_le_mul_right _ hrow
  rw [Nat.succ_mul] at hmul
  omega

/-- A row after one byte of every row was changed. -/
theorem rowAt_updateColumn {stride byte rows row : Nat} {g : Nat → UInt8 → UInt8}
    {mem : List UInt8} (hbyte : byte < stride) (hlen : rows * stride ≤ mem.length)
    (hrow : row < rows) (b : Nat) :
    rowAt (updateColumn stride byte g rows mem) stride row b =
      if b = byte then g row (rowAt mem stride row byte) else rowAt mem stride row b := by
  unfold rowAt
  by_cases hb : b < stride
  · by_cases heq : b = byte
    · have hplace := place_lt hrow hbyte
      rw [heq, if_pos hbyte, if_pos rfl, if_pos hbyte,
        updateColumn_hit (by omega) hrow (by omega)]
    · rw [if_pos hb, if_neg heq, if_pos hb]
      exact updateColumn_miss fun row' _ hsame => heq (place_inj hb hbyte hsame).2
  · rw [if_neg hb, if_neg (by omega), if_neg hb]

/-- The first `count` bits of a row are those of `f`: the full bytes hold theirs, the byte being
filled does when it is moved up. -/
structure Filled (row : Nat → UInt8) (count : Nat) (f : Nat → Bool) : Prop where
  full : ∀ b < count / 8, ∀ k < 8, msb (row b) k = f (8 * b + k)
  last : ∀ k < 8, msb (row (count / 8) <<< UInt8.ofNat (7 - count % 8)) k =
    (decide (k < count % 8) && f (8 * (count / 8) + k))
  low : msb (row (count / 8)) 7 = false
  fresh : count % 8 = 0 → row (count / 8) = 0
  rest : ∀ b, count / 8 < b → row b = 0

section Filled

variable {row row' : Nat → UInt8} {count : Nat} {f : Nat → Bool}

theorem filled_zero (h : ∀ b, row b = 0) : Filled row 0 f where
  full := by omega
  last k hk := by
    rw [h, msb_shiftLeft _ (by decide), msb_zero, Bool.and_false, decide_eq_false (by omega),
      Bool.false_and]
  low := by rw [h, msb_zero]
  fresh _ := h _
  rest b _ := h b

theorem Filled.msb_last (h : Filled row count f) {k : Nat} (hk : k < 8) :
    msb (row (count / 8)) (k + (7 - count % 8)) =
      (decide (k < count % 8) && f (8 * (count / 8) + k)) := by
  have hlast := h.last k hk
  rwa [msb_shiftLeft _ (by omega), decide_eq_true hk, Bool.true_and] at hlast

theorem filled_push (h : Filled row count f) (c : Bool)
    (hlast : row' (count / 8) =
      if count % 8 ≠ 7 then (row (count / 8) ||| lastBit c) <<< 1
      else row (count / 8) ||| lastBit c)
    (hother : ∀ b, b ≠ count / 8 → row' b = row b) :
    Filled row' (count + 1) (fun j => if j = count then c else f j) := by
  have hold : ∀ b < count / 8, ∀ k < 8,
      msb (row' b) k = if 8 * b + k = count then c else f (8 * b + k) := by
    intro b hb k hk
    rw [hother b (by omega), if_neg (by omega), h.full b hb k hk]
  by_cases hseven : count % 8 = 7
  · rw [if_neg (by omega)] at hlast
    have hdiv : (count + 1) / 8 = count / 8 + 1 := by omega
    have hmod : (count + 1) % 8 = 0 := by omega
    have hnext : row' ((count + 1) / 8) = 0 := by
      rw [hdiv, hother _ (by omega), h.rest _ (by omega)]
    refine ⟨fun b hb k hk => ?_, fun k hk => ?_, by rw [hnext, msb_zero], fun _ => hnext,
      fun b hb => ?_⟩
    · rcases Nat.lt_or_ge b (count / 8) with hlt | hge
      · exact hold b hlt k hk
      · obtain rfl : b = count / 8 := by omega
        have hbyte := @Filled.msb_last _ _ _ h k hk
        rw [hseven, Nat.sub_self, Nat.add_zero] at hbyte
        rw [hlast, msb_or, hbyte, msb_lastBit]
        by_cases hk7 : k = 7
        · rw [decide_eq_false (by omega), decide_eq_true hk7, if_pos (by omega)]
          simp
        · rw [decide_eq_true (by omega), decide_eq_false hk7, if_neg (by omega)]
          simp
    · rw [hnext, msb_shiftLeft _ (by omega), msb_zero, Bool.and_false, hmod,
        decide_eq_false (by omega), Bool.false_and]
    · rw [hother b (by omega), h.rest b (by omega)]
  · rw [if_pos hseven] at hlast
    have hdiv : (count + 1) / 8 = count / 8 := by omega
    have hmod : (count + 1) % 8 = count % 8 + 1 := by omega
    have hone : ∀ b : UInt8, ∀ k, msb (b <<< 1) k = (decide (k < 8) && msb b (k + 1)) := fun b k =>
      @msb_shiftLeft b 1 (by decide) k
    refine ⟨fun b hb k hk => hold b (by omega) k hk, fun k hk => ?_, ?_, by omega, fun b hb => ?_⟩
    · rw [hdiv, hmod, hlast, msb_shiftLeft _ (by omega), hone, msb_or, msb_lastBit,
        decide_eq_true hk, Bool.true_and]
      have hplace : k + (7 - (count % 8 + 1)) + 1 = k + (7 - count % 8) := by omega
      rw [hplace, @Filled.msb_last _ _ _ h k hk]
      rcases Nat.lt_trichotomy k (count % 8) with hlt | heq | hgt
      · rw [decide_eq_true (by omega), decide_eq_true hlt, decide_eq_false (by omega),
          decide_eq_true (by omega), if_neg (by omega)]
        simp
      · rw [decide_eq_true (by omega), decide_eq_false (by omega), decide_eq_true (by omega),
          decide_eq_true (by omega), if_pos (by omega)]
        simp
      · have hnot : decide (k < count % 8) = false := decide_eq_false (by omega)
        have hplace7 : decide (k + (7 - count % 8) = 7) = false := decide_eq_false (by omega)
        have hnext : decide (k < count % 8 + 1) = false := decide_eq_false (by omega)
        rw [hnot, hplace7, hnext]
        simp
    · rw [hdiv, hlast, hone, msb_of_le _ (by omega), Bool.and_false]
    · rw [hother b (by omega), h.rest b (by omega)]

theorem filled_skip (h : Filled row count f) {zeros : Nat} (hf : ∀ j, count ≤ j → f j = false)
    (hlast : row' (count / 8) =
      row (count / 8) <<< UInt8.ofNat (min zeros (7 - count % 8)))
    (hother : ∀ b, b ≠ count / 8 → row' b = row b) :
    Filled row' (count + zeros) f := by
  have hold : ∀ b < count / 8, ∀ k < 8, msb (row' b) k = f (8 * b + k) := by
    intro b hb k hk
    rw [hother b (by omega), h.full b hb k hk]
  have hzero : count % 8 = 0 → row' (count / 8) = 0 := by
    intro hmod
    rw [hlast, h.fresh hmod]
    refine eq_of_msb fun k _ => ?_
    rw [msb_shiftLeft _ (by omega), msb_zero, msb_zero, Bool.and_false]
  by_cases hfits : count % 8 + zeros < 8
  · have hdiv : (count + zeros) / 8 = count / 8 := by omega
    have hmod : (count + zeros) % 8 = count % 8 + zeros := by omega
    rw [Nat.min_eq_left (by omega)] at hlast
    refine ⟨fun b hb k hk => hold b (by omega) k hk, fun k hk => ?_, ?_, fun hm => ?_,
      fun b hb => ?_⟩
    · rw [hdiv, hmod, hlast, msb_shiftLeft _ (by omega), msb_shiftLeft _ (by omega),
        decide_eq_true hk, Bool.true_and]
      have hplace : k + (7 - (count % 8 + zeros)) + zeros = k + (7 - count % 8) := by omega
      rw [hplace, @Filled.msb_last _ _ _ h k hk]
      rcases Nat.lt_or_ge k (count % 8) with hlt | hge
      · rw [decide_eq_true (by omega), decide_eq_true hlt, decide_eq_true (by omega)]
        simp
      · have hnot : decide (k < count % 8) = false := decide_eq_false (by omega)
        rw [hnot, hf _ (by omega)]
        simp
    · rw [hdiv, hlast, msb_shiftLeft _ (by omega), decide_eq_true (by decide), Bool.true_and]
      rcases Nat.eq_zero_or_pos zeros with rfl | hpos
      · exact h.low
      · exact msb_of_le _ (by omega)
    · rw [hdiv]
      exact hzero (by omega)
    · rw [hother b (by omega), h.rest b (by omega)]
  · have hdiv : count / 8 < (count + zeros) / 8 := by omega
    rw [Nat.min_eq_right (by omega)] at hlast
    have hrest : ∀ b, count / 8 < b → row' b = 0 := fun b hb => by
      rw [hother b (by omega), h.rest b hb]
    have hnext : row' ((count + zeros) / 8) = 0 := hrest _ hdiv
    refine ⟨fun b hb k hk => ?_, fun k hk => ?_, by rw [hnext, msb_zero], fun _ => hnext,
      fun b hb => hrest b (by omega)⟩
    · rcases Nat.lt_trichotomy b (count / 8) with hlt | rfl | hgt
      · exact hold b hlt k hk
      · rw [hlast, h.last k hk]
        rcases Nat.lt_or_ge k (count % 8) with hlt | hge
        · rw [decide_eq_true hlt, Bool.true_and]
        · rw [hf _ (by omega), Bool.and_false]
      · rw [hrest b hgt, msb_zero, hf _ (by omega)]
    · rw [hnext, msb_shiftLeft _ (by omega), msb_zero, Bool.and_false, hf _ (by omega),
        Bool.and_false]

theorem filled_finish (h : Filled row count f) (hf : ∀ j, count ≤ j → f j = false)
    (hlast : row' (count / 8) =
      if count % 8 ≠ 0 then row (count / 8) <<< UInt8.ofNat (7 - count % 8) else row (count / 8))
    (hother : ∀ b, b ≠ count / 8 → row' b = row b) (b : Nat) {k : Nat} (hk : k < 8) :
    msb (row' b) k = f (8 * b + k) := by
  rcases Nat.lt_trichotomy b (count / 8) with hlt | rfl | hgt
  · rw [hother b (by omega), h.full b hlt k hk]
  · by_cases hmod : count % 8 = 0
    · rw [hlast, if_neg (by omega), h.fresh hmod, msb_zero, hf _ (by omega)]
    · rw [hlast, if_pos hmod, h.last k hk]
      rcases Nat.lt_or_ge k (count % 8) with hlt | hge
      · rw [decide_eq_true hlt, Bool.true_and]
      · rw [hf _ (by omega), Bool.and_false]
  · rw [hother b (by omega), h.rest b hgt, msb_zero, hf _ (by omega)]

end Filled

end BitMatrix
