import Mathlib.Data.Nat.Size
import Mathlib.Algebra.Order.Ring.Nat

/-!
# Numbers as a mantissa and an exponent

A number is kept as its top bits, the others dropped: how many there are, how much is lost, and
that halving a number until it has few enough bits finds them.

* `exponent`, `mantissa`, `top` — the number of bits dropped, the bits kept, and their value.
* `mantissa_lt`, `le_mantissa` — the mantissa has the given number of bits unless it is exact.
* `top_eq_self`, `top_le`, `lt_top` — **how much is lost.**
* `top_lt_pow_iff` — no power of two is crossed.
-/

namespace Mantissa

variable {count n : Nat}

/-- The number of bits that are dropped. -/
def exponent (count n : Nat) : Nat := n.size - count

/-- The top bits. -/
def mantissa (count n : Nat) : Nat := n / 2 ^ exponent count n

/-- The number with all but its top bits dropped. -/
def top (count n : Nat) : Nat := mantissa count n * 2 ^ exponent count n

theorem exponent_eq_zero (h : n < 2 ^ count) : exponent count n = 0 :=
  Nat.sub_eq_zero_of_le (Nat.size_le.2 h)

theorem mantissa_lt (count n : Nat) : mantissa count n < 2 ^ count := by
  have hlt : n < 2 ^ n.size := Nat.size_le.1 (le_refl _)
  rw [mantissa, Nat.div_lt_iff_lt_mul (Nat.two_pow_pos _), ← pow_add]
  refine lt_of_lt_of_le hlt (Nat.pow_le_pow_right (by decide) ?_)
  unfold exponent
  omega

/-- All bits of the mantissa count when some were dropped. -/
theorem le_mantissa (hcount : 0 < count) (h : 2 ^ count ≤ n) :
    2 ^ (count - 1) ≤ mantissa count n := by
  have hsize : count < n.size := Nat.lt_size.2 h
  rw [mantissa, Nat.le_div_iff_mul_le (Nat.two_pow_pos _), ← pow_add]
  refine Nat.lt_size.1 ?_
  unfold exponent
  omega

theorem top_eq_self (h : n < 2 ^ count) : top count n = n := by
  rw [top, mantissa, exponent_eq_zero h, pow_zero, Nat.div_one, Nat.mul_one]

theorem top_le (count n : Nat) : top count n ≤ n := Nat.div_mul_le_self n _

/-- **Less than one part of the top bits is lost.** -/
theorem lt_top (hcount : 0 < count) (h : 0 < n) :
    n * (2 ^ (count - 1) - 1) < top count n * 2 ^ (count - 1) := by
  have hpos : 0 < 2 ^ (count - 1) := Nat.two_pow_pos _
  by_cases hsmall : n < 2 ^ count
  · rw [top_eq_self hsmall]
    exact Nat.mul_lt_mul_of_pos_left (Nat.sub_lt hpos Nat.one_pos) h
  · have hmantissa := le_mantissa hcount (not_lt.1 hsmall)
    have hrest : n < top count n + 2 ^ exponent count n :=
      Nat.lt_div_mul_add (Nat.two_pow_pos _)
    have hle : 2 ^ exponent count n * 2 ^ (count - 1) ≤ n :=
      le_trans (by rw [Nat.mul_comm]; exact Nat.mul_le_mul_right _ hmantissa) (top_le count n)
    have hmul := Nat.mul_lt_mul_of_pos_right hrest hpos
    have hself : n ≤ n * 2 ^ (count - 1) := Nat.le_mul_of_pos_right n hpos
    rw [Nat.add_mul] at hmul
    rw [Nat.mul_sub, Nat.mul_one]
    omega

theorem top_lt_pow_iff {k : Nat} (hcount : 0 < count) (hk : count ≤ k) :
    top count n < 2 ^ k ↔ n < 2 ^ k := by
  refine ⟨fun h => ?_, fun h => lt_of_le_of_lt (top_le count n) h⟩
  by_contra hge
  have hsize : k < n.size := Nat.lt_size.2 (not_lt.1 hge)
  have hlarge : 2 ^ count ≤ n :=
    le_trans (Nat.pow_le_pow_right (by decide) hk) (not_lt.1 hge)
  have hmantissa := Nat.mul_le_mul_right (2 ^ exponent count n) (le_mantissa hcount hlarge)
  rw [← pow_add] at hmantissa
  have hpow : 2 ^ k ≤ 2 ^ (count - 1 + exponent count n) := by
    refine Nat.pow_le_pow_right (by decide) ?_
    unfold exponent
    omega
  exact absurd h (not_lt.2 (le_trans hpow hmantissa))

theorem size_half (h : n ≠ 0) : n.size = (n / 2).size + 1 := by
  refine le_antisymm (Nat.size_le.2 ?_) (Nat.lt_size.2 ?_)
  · have hlt : n / 2 < 2 ^ (n / 2).size := Nat.size_le.1 (le_refl _)
    rw [pow_succ]
    omega
  · by_cases hhalf : n / 2 = 0
    · rw [hhalf, Nat.size_zero, pow_zero]
      omega
    · have hle : 2 ^ ((n / 2).size - 1) ≤ n / 2 :=
        Nat.lt_size.1 (Nat.sub_lt (Nat.size_pos.2 (Nat.pos_of_ne_zero hhalf)) Nat.one_pos)
      have hsize : 0 < (n / 2).size := Nat.size_pos.2 (Nat.pos_of_ne_zero hhalf)
      obtain ⟨m, hm⟩ := Nat.exists_eq_succ_of_ne_zero hsize.ne'
      rw [hm, Nat.succ_sub_one] at hle
      rw [hm, pow_succ]
      omega

theorem exponent_half (h : 2 ^ count ≤ n) :
    exponent count n = exponent count (n / 2) + 1 ∧ mantissa count (n / 2) = mantissa count n := by
  have hsize := size_half (Nat.ne_of_gt (lt_of_lt_of_le (Nat.two_pow_pos count) h))
  have hlt : count < n.size := Nat.lt_size.2 h
  have hexponent : exponent count n = exponent count (n / 2) + 1 := by
    unfold exponent
    omega
  refine ⟨hexponent, ?_⟩
  rw [mantissa, mantissa, hexponent, Nat.div_div_eq_div_mul, pow_succ']

end Mantissa
