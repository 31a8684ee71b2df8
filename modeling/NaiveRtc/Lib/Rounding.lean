import Mathlib.Data.Int.Log
import Mathlib.Data.Rat.Floor
import Mathlib.Tactic.Positivity

/-!
# Rounding to binary floating point

Positive numbers rounded to `p` significant bits, to nearest and ties to even, as the
arithmetic of IEEE 754 does in its normal range.  Sixty-four bit numbers have `p = 53`.

* `roundHalfEven` — to a whole number.
* `round` — to `p` significant bits.
* `ceil_round_div` — the ceiling of a rounded quotient is the ceiling of the quotient, as long as
  the dividend has no more than `p` bits.
-/

namespace Rounding

/-- The nearest whole number, the even one of two. -/
def roundHalfEven (q : ℚ) : ℤ :=
  if q - ⌊q⌋ < 1 / 2 then ⌊q⌋
  else if 1 / 2 < q - ⌊q⌋ then ⌊q⌋ + 1
  else if ⌊q⌋ % 2 = 0 then ⌊q⌋
  else ⌊q⌋ + 1

/-- The exponent of the last of `p` significant bits. -/
def exponent (p : ℕ) (q : ℚ) : ℤ := Int.log 2 q + 1 - p

/-- A positive number rounded to `p` significant bits. -/
def round (p : ℕ) (q : ℚ) : ℚ := roundHalfEven (q / 2 ^ exponent p q) * 2 ^ exponent p q

theorem abs_roundHalfEven_sub_le (q : ℚ) : |(roundHalfEven q : ℚ) - q| ≤ 1 / 2 := by
  have hlow := Int.floor_le q
  have hhigh := Int.lt_floor_add_one q
  unfold roundHalfEven
  rw [abs_le]
  split_ifs <;> push_cast <;> constructor <;> linarith

@[simp] theorem roundHalfEven_intCast (n : ℤ) : roundHalfEven n = n := by
  simp [roundHalfEven]

theorem roundHalfEven_le {q : ℚ} {n : ℤ} (h : q ≤ n) : roundHalfEven q ≤ n := by
  have hnear := (abs_le.1 (abs_roundHalfEven_sub_le q)).2
  have hlt : (roundHalfEven q : ℚ) < n + 1 := by linarith
  exact Int.lt_add_one_iff.1 (by exact_mod_cast hlt)

variable {p : ℕ} {q : ℚ}

/-- **The error** is at most half of the last bit. -/
theorem abs_round_sub_le (p : ℕ) (q : ℚ) : |round p q - q| ≤ 2 ^ exponent p q / 2 := by
  have hpos : (0 : ℚ) < 2 ^ exponent p q := zpow_pos two_pos _
  have hscale : round p q - q =
      ((roundHalfEven (q / 2 ^ exponent p q) : ℚ) - q / 2 ^ exponent p q) * 2 ^ exponent p q := by
    unfold round
    field_simp
  rw [hscale, abs_mul, abs_of_pos hpos]
  have hnear := abs_roundHalfEven_sub_le (q / 2 ^ exponent p q)
  calc _ ≤ 1 / 2 * (2 : ℚ) ^ exponent p q := mul_le_mul_of_nonneg_right hnear hpos.le
    _ = 2 ^ exponent p q / 2 := by ring

theorem two_zpow_exponent_le (p : ℕ) (hq : 0 < q) :
    (2 : ℚ) ^ exponent p q * 2 ^ p ≤ 2 * q := by
  have hlog : ((2 : ℕ) : ℚ) ^ Int.log 2 q ≤ q := Int.zpow_log_le_self (by norm_num) hq
  have hsplit : (2 : ℚ) ^ exponent p q * 2 ^ p = 2 * 2 ^ Int.log 2 q := by
    unfold exponent
    rw [← zpow_natCast, ← zpow_add₀ two_ne_zero, show Int.log 2 q + 1 - (p : ℤ) + p =
      1 + Int.log 2 q by ring, zpow_add₀ two_ne_zero, zpow_one]
  rw [hsplit]
  push_cast at hlog
  linarith

/-- The last bit of a number below `2 ^ p` is one over a power of two. -/
theorem exists_mul_two_zpow_exponent (hq : 0 < q) (hlt : q < 2 ^ p) :
    ∃ k : ℕ, (2 : ℚ) ^ k * 2 ^ exponent p q = 1 := by
  have hexp : exponent p q ≤ 0 := by
    have hlog : Int.log 2 q < p := by
      rw [← Int.lt_zpow_iff_log_lt (by norm_num) hq]
      exact_mod_cast hlt
    unfold exponent
    omega
  obtain ⟨k, hk⟩ := Int.eq_ofNat_of_zero_le (neg_nonneg.2 hexp)
  exact ⟨k, by rw [← zpow_natCast, ← zpow_add₀ two_ne_zero, ← hk, neg_add_cancel, zpow_zero]⟩

/-- A number below `2 ^ p` is not rounded past a whole number. -/
theorem round_le {n : ℤ} (hq : 0 < q) (hlt : q < 2 ^ p) (h : q ≤ n) : round p q ≤ n := by
  have hpos : (0 : ℚ) < 2 ^ exponent p q := zpow_pos two_pos _
  obtain ⟨k, hone⟩ := exists_mul_two_zpow_exponent hq hlt
  have hwhole : q / 2 ^ exponent p q ≤ ((n * 2 ^ k : ℤ) : ℚ) := by
    rw [div_le_iff₀ hpos]
    push_cast
    rwa [mul_assoc, hone, mul_one]
  have hround : (roundHalfEven (q / 2 ^ exponent p q) : ℚ) ≤ n * 2 ^ k := by
    exact_mod_cast roundHalfEven_le hwhole
  calc round p q ≤ n * 2 ^ k * 2 ^ exponent p q := mul_le_mul_of_nonneg_right hround hpos.le
    _ = n := by rw [mul_assoc, hone, mul_one]

theorem round_natCast {a : ℕ} (ha : 0 < a) (hlt : a < 2 ^ p) : round p a = a := by
  have ha' : (0 : ℚ) < a := by exact_mod_cast ha
  have hlt' : (a : ℚ) < 2 ^ p := by exact_mod_cast hlt
  obtain ⟨k, hone⟩ := exists_mul_two_zpow_exponent ha' hlt'
  have hwhole : (a : ℚ) / 2 ^ exponent p a = ((a * 2 ^ k : ℤ) : ℚ) := by
    rw [div_eq_iff (zpow_pos two_pos _).ne']
    push_cast
    rw [mul_assoc, hone, mul_one]
  unfold round
  rw [hwhole, roundHalfEven_intCast]
  push_cast
  rw [mul_assoc, hone, mul_one]

/-- A whole number of `p` bits with its point moved is not changed. -/
theorem round_natCast_div_two_pow {a : ℕ} (j : ℕ) (ha : 0 < a) (hlt : a < 2 ^ p) :
    round p (a / 2 ^ j) = a / 2 ^ j := by
  have ha' : (0 : ℚ) < a := by exact_mod_cast ha
  have hq : (0 : ℚ) < a / 2 ^ j := div_pos ha' (pow_pos two_pos j)
  have hlog : Int.log 2 ((a : ℚ) / 2 ^ j) < p - j := by
    rw [← Int.lt_zpow_iff_log_lt (by norm_num) hq]
    push_cast
    rw [zpow_sub₀ two_ne_zero, zpow_natCast, zpow_natCast]
    exact div_lt_div_of_pos_right (by exact_mod_cast hlt) (pow_pos two_pos j)
  obtain ⟨k, hk⟩ := Int.eq_ofNat_of_zero_le
    (show 0 ≤ -(j : ℤ) - exponent p ((a : ℚ) / 2 ^ j) by unfold exponent; omega)
  have hone : (2 : ℚ) ^ k * 2 ^ exponent p ((a : ℚ) / 2 ^ j) = 1 / 2 ^ j := by
    rw [← zpow_natCast, ← zpow_add₀ two_ne_zero, ← hk, sub_add_cancel, zpow_neg, zpow_natCast,
      one_div]
  have hwhole : (a : ℚ) / 2 ^ j / 2 ^ exponent p ((a : ℚ) / 2 ^ j) = ((a * 2 ^ k : ℤ) : ℚ) := by
    rw [div_eq_iff (zpow_pos two_pos _).ne']
    push_cast
    rw [mul_assoc, hone, mul_one_div]
  unfold round
  rw [hwhole, roundHalfEven_intCast]
  push_cast
  rw [mul_assoc, hone, mul_one_div]

theorem round_le_mul (p : ℕ) (hq : 0 < q) : round p q ≤ q * (1 + 1 / 2 ^ p) := by
  have hpow : (0 : ℚ) < 2 ^ p := pow_pos two_pos p
  have herr := (abs_le.1 (abs_round_sub_le p q)).2
  have hbit : (2 : ℚ) ^ exponent p q / 2 ≤ q * (1 / 2 ^ p) := by
    rw [mul_one_div, le_div_iff₀ hpow]
    linarith [two_zpow_exponent_le p hq]
  linarith

theorem round_pos (hp : 0 < p) (hq : 0 < q) : 0 < round p q := by
  have hpow : (2 : ℚ) ≤ 2 ^ p := by
    calc (2 : ℚ) = 2 ^ 1 := (pow_one 2).symm
      _ ≤ 2 ^ p := pow_le_pow_right₀ one_le_two hp
  have hzpow : (0 : ℚ) < 2 ^ exponent p q := zpow_pos two_pos _
  have herr := (abs_le.1 (abs_round_sub_le p q)).1
  have hbit : (2 : ℚ) ^ exponent p q * 2 ≤ 2 * q :=
    (mul_le_mul_of_nonneg_left hpow hzpow.le).trans (two_zpow_exponent_le p hq)
  linarith

/-- A quotient of numbers of `p` bits is not rounded down to a whole number below it. -/
theorem lt_round_div {a b : ℕ} {n : ℤ} (ha : 0 < a) (hb : 0 < b) (hlt : a < 2 ^ p)
    (h : (n : ℚ) < a / b) : (n : ℚ) < round p (a / b) := by
  have hb' : (0 : ℚ) < b := by exact_mod_cast hb
  have hq : (0 : ℚ) < a / b := div_pos (by exact_mod_cast ha) hb'
  have hgap : (n : ℚ) * b + 1 ≤ a := by
    rw [lt_div_iff₀ hb'] at h
    have hstep : n * (b : ℤ) < a := by exact_mod_cast h
    exact_mod_cast Int.add_one_le_of_lt hstep
  have hbit : (2 : ℚ) ^ exponent p (a / b) * b < 2 := by
    have hle := mul_le_mul_of_nonneg_right (two_zpow_exponent_le p hq) hb'.le
    rw [mul_assoc 2, div_mul_cancel₀ _ hb'.ne'] at hle
    have hlt' : (a : ℚ) < 2 ^ p := by exact_mod_cast hlt
    have hpow : (0 : ℚ) < 2 ^ p := pow_pos two_pos p
    by_contra hge
    have := mul_le_mul_of_nonneg_right (not_lt.1 hge) hpow.le
    linarith
  have herr := (abs_le.1 (abs_round_sub_le p ((a : ℚ) / b))).1
  have hround : (a : ℚ) ≤ (round p (a / b) + 2 ^ exponent p ((a : ℚ) / b) / 2) * b := by
    rw [← div_le_iff₀ hb']
    linarith
  refine lt_of_mul_lt_mul_right ?_ hb'.le
  linarith

/-- **The ceiling of a rounded quotient** is the ceiling of the quotient. -/
theorem ceil_round_div {a b : ℕ} (ha : 0 < a) (hb : 0 < b) (hlt : a < 2 ^ p) :
    ⌈round p (a / b)⌉ = ⌈(a : ℚ) / b⌉ := by
  have hb' : (1 : ℚ) ≤ b := by exact_mod_cast hb
  have hq : (0 : ℚ) < a / b := div_pos (by exact_mod_cast ha) (by linarith)
  have hsmall : (a : ℚ) / b < 2 ^ p :=
    lt_of_le_of_lt (div_le_self (by positivity) hb') (by exact_mod_cast hlt)
  refine le_antisymm (Int.ceil_le.2 (round_le hq hsmall (Int.le_ceil _))) ?_
  have hbelow : ((⌈(a : ℚ) / b⌉ - 1 : ℤ) : ℚ) < a / b := by
    have := Int.ceil_lt_add_one ((a : ℚ) / b)
    push_cast
    linarith
  have hround := lt_round_div ha hb hlt hbelow
  exact Int.sub_one_lt_iff.1 (Int.lt_ceil.2 hround)

end Rounding
