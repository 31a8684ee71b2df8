import Mathlib.Algebra.Order.Ring.Int

/-!
# Wrapping numbers

The comparison of wrapping counters used all over the receive path:
`rtc/base/numerics/modulo_operator.hpp` and
`rtc/rtp_rtcp/components/wrap_around_utils.hpp`, at modulus `M = 0` (the number
wraps at the width of its type).

* `aheadOrAt`, `aheadOf`, `olderThan` — the order, with the tie at distance
  exactly half broken by the numeric value.
* `aheadOf_iff` — what `aheadOf` decides, in terms of the distance.
* `rank`, `aheadOf_iff_rank` — inside a window of at most half the circle the
  order is the order of the offsets from the start of the window.
-/

namespace NaiveRtc

/-- `uint16_t`. -/
abbrev U16 := BitVec 16

/-- `uint32_t`. -/
abbrev U32 := BitVec 32

namespace WrapAround

variable {w : Nat}

/-- `forwardDiff(a, b)`: how far `b` is ahead of `a` going forward. -/
def forwardDiff (a b : BitVec w) : BitVec w := b - a

/-- `reverseDiff(a, b)`: how far `b` is behind `a` going backward. -/
def reverseDiff (a b : BitVec w) : BitVec w := a - b

/-- `minDiff(a, b)`: the shorter way round. -/
def minDiff (a b : BitVec w) : BitVec w :=
  if forwardDiff a b ≤ reverseDiff a b then forwardDiff a b else reverseDiff a b

/-- `max_dist`, the half-way mark of the type. -/
def maxDist (w : Nat) : BitVec w := BitVec.ofNat w (2 ^ (w - 1))

/-- `aheadOrAt(a, b)`.  The test `a - b == max_dist` is made on promoted integers
when the type is narrower than `int`; a difference of `-max_dist` then fails it
and is answered by the second return with the same value. -/
def aheadOrAt (a b : BitVec w) : Bool :=
  if a - b = maxDist w then decide (b < a)
  else decide (forwardDiff b a < maxDist w)

/-- `aheadOf(a, b)`: `a` is strictly newer than `b`. -/
def aheadOf (a b : BitVec w) : Bool := a != b && aheadOrAt a b

/-- `olderThan()(a, b)`, the comparator of the ordered containers. -/
def olderThan (a b : BitVec w) : Bool := aheadOf b a

/-! ## What the comparison decides -/

/-- `aheadOf` in terms of the distance `a - b`: strictly between nought and half
the circle, or exactly half with the tie broken by the value. -/
theorem aheadOf_iff (a b : U16) :
    aheadOf a b = true ↔
      (0 < (a - b).toNat ∧ (a - b).toNat < 32768) ∨
        ((a - b).toNat = 32768 ∧ b.toNat < a.toNat) := by
  unfold aheadOf aheadOrAt forwardDiff maxDist
  by_cases h : a - b = BitVec.ofNat 16 (2 ^ (16 - 1))
  · simp only [h, if_true]
    simp
    bv_omega
  · simp only [h, if_false]
    simp
    bv_omega

theorem aheadOf_false_iff (a b : U16) :
    aheadOf a b = false ↔
      a = b ∨ 32768 < (a - b).toNat ∨ ((a - b).toNat = 32768 ∧ a.toNat < b.toNat) := by
  rw [← Bool.not_eq_true, aheadOf_iff]
  bv_omega

@[simp] theorem aheadOf_self (a : BitVec w) : aheadOf a a = false := by simp [aheadOf]

theorem aheadOf_total {a b : U16} (h : a ≠ b) : aheadOf a b = !aheadOf b a := by
  cases hb : aheadOf b a
  · rw [aheadOf_false_iff] at hb
    rw [Bool.not_false, aheadOf_iff]
    bv_omega
  · rw [aheadOf_iff] at hb
    rw [Bool.not_true, aheadOf_false_iff]
    bv_omega

/-! ## Windows -/

/-- The offset of `q` in a window that starts at `b`. -/
def rank (b q : U16) : Nat := (q - b).toNat

variable {b p q : U16}

theorem rank_inj (h : rank b p = rank b q) : p = q := by
  unfold rank at h
  bv_omega

/-- **Inside a window shorter than half the circle the wrapping order is the
order of the offsets.** -/
theorem aheadOf_iff_rank (h₁ : rank b p < rank b q + 32768)
    (h₂ : rank b q < rank b p + 32768) : aheadOf p q = true ↔ rank b q < rank b p := by
  rw [aheadOf_iff]
  unfold rank at *
  bv_omega

theorem olderThan_eq_rank (h₁ : rank b p < rank b q + 32768)
    (h₂ : rank b q < rank b p + 32768) : olderThan p q = decide (rank b p < rank b q) := by
  rw [olderThan, Bool.eq_iff_iff, aheadOf_iff_rank h₂ h₁, decide_eq_true_iff]

end WrapAround
end NaiveRtc
