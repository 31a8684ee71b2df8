import Mathlib.Data.Nat.Bitwise

/-!
# Fields of a word

A word of `cap` fields, `w` bits each, the first field in the highest place: how
such a word is put together by or-ing shifted fields into it, and how a field is
read back.

* `place`, `field`, `orFields` — the shift of a field, its value, the loop that
  ors the first `n` fields into a word.
* `field_orFields` — a field that was put in is the field that is read.
* `orFields_field` — all fields of a word put together again are the word.
-/

namespace NaiveRtc.BitField

/-- How far field `i` is shifted. -/
def place (w cap i : Nat) : Nat := w * (cap - 1 - i)

/-- Field `i` of the word `v`. -/
def field (w cap v i : Nat) : Nat := (v >>> place w cap i) % 2 ^ w

/-- The word after `v |= f i << place i` for `i = 0, …, n - 1`. -/
def orFields (w cap : Nat) (f : Nat → Nat) (v : Nat) : Nat → Nat
  | 0 => v
  | n + 1 => orFields w cap f v n ||| (f n <<< place w cap n)

variable {w cap v : Nat} {f : Nat → Nat}

theorem testBit_orFields (n k : Nat) :
    (orFields w cap f v n).testBit k = true ↔
      v.testBit k = true ∨
        ∃ i < n, place w cap i ≤ k ∧ (f i).testBit (k - place w cap i) = true := by
  induction n with
  | zero => simp [orFields]
  | succ n ih =>
    simp only [orFields, Nat.testBit_lor, Bool.or_eq_true, ih, Nat.testBit_shiftLeft,
      Bool.and_eq_true, decide_eq_true_eq, ge_iff_le]
    constructor
    · rintro ((h | ⟨i, hi, h⟩) | h)
      · exact Or.inl h
      · exact Or.inr ⟨i, by omega, h⟩
      · exact Or.inr ⟨n, by omega, h⟩
    · rintro (h | ⟨i, hi, h⟩)
      · exact Or.inl (Or.inl h)
      · rcases Nat.lt_succ_iff_lt_or_eq.mp hi with hi | rfl
        · exact Or.inl (Or.inr ⟨i, hi, h⟩)
        · exact Or.inr h

theorem orFields_congr {g : Nat → Nat} {n : Nat} (h : ∀ i < n, f i = g i) :
    orFields w cap f v n = orFields w cap g v n := by
  induction n with
  | zero => rfl
  | succ n ih =>
    simp only [orFields]
    rw [ih (fun i hi => h i (by omega)), h n (by omega)]

theorem place_lt {i j : Nat} (hij : i < j) (hj : j < cap) :
    place w cap j + w ≤ place w cap i := by
  unfold place
  calc w * (cap - 1 - j) + w = w * (cap - 1 - j + 1) := by rw [Nat.mul_add, Nat.mul_one]
    _ ≤ w * (cap - 1 - i) := Nat.mul_le_mul_left w (by omega)

theorem place_add_le {i : Nat} (hi : i < cap) : place w cap i + w ≤ w * cap := by
  unfold place
  calc w * (cap - 1 - i) + w = w * (cap - 1 - i + 1) := by rw [Nat.mul_add, Nat.mul_one]
    _ ≤ w * cap := Nat.mul_le_mul_left w (by omega)

theorem testBit_field (i k : Nat) :
    (field w cap v i).testBit k = (decide (k < w) && v.testBit (place w cap i + k)) := by
  rw [field, Nat.testBit_mod_two_pow, Nat.testBit_shiftRight]

/-- At most one field reaches into the place of another. -/
theorem testBit_at_place {n i k : Nat} (hn : n ≤ cap) (hi : i < cap) (hk : k < w)
    (hf : ∀ j < n, f j < 2 ^ w) (hv : v % 2 ^ (w * cap) = 0) :
    (orFields w cap f v n).testBit (place w cap i + k) = true ↔
      i < n ∧ (f i).testBit k = true := by
  have hvbit : v.testBit (place w cap i + k) = false := by
    have hle : place w cap i + k < w * cap := by
      have := place_add_le (w := w) hi
      omega
    have h := Nat.testBit_mod_two_pow v (w * cap) (place w cap i + k)
    rw [hv, Nat.zero_testBit] at h
    simpa [hle] using h.symm
  rw [testBit_orFields, hvbit]
  simp only [Bool.false_eq_true, false_or]
  constructor
  · rintro ⟨j, hj, hle, hbit⟩
    rcases Nat.lt_trichotomy i j with hij | rfl | hij
    · -- field `j` lies below: it would need a bit beyond its width
      exfalso
      have hp := place_lt (w := w) hij (by omega : j < cap)
      rw [Nat.testBit_lt_two_pow (lt_of_lt_of_le (hf j hj)
        (Nat.pow_le_pow_right (by omega) (by omega)))] at hbit
      exact Bool.false_ne_true hbit
    · rw [Nat.add_sub_cancel_left] at hbit
      exact ⟨hj, hbit⟩
    · have hp := place_lt (w := w) hij hi
      omega
  · rintro ⟨hin, hbit⟩
    exact ⟨i, hin, by omega, by rwa [Nat.add_sub_cancel_left]⟩

theorem testBit_above {n k : Nat} (hn : n ≤ cap) (hk : w * cap ≤ k)
    (hf : ∀ j < n, f j < 2 ^ w) : (orFields w cap f v n).testBit k = v.testBit k := by
  rw [Bool.eq_iff_iff, testBit_orFields]
  refine or_iff_left ?_
  rintro ⟨j, hj, hle, hbit⟩
  have hp := place_add_le (w := w) (by omega : j < cap)
  rw [Nat.testBit_lt_two_pow (lt_of_lt_of_le (hf j hj)
    (Nat.pow_le_pow_right (by omega) (by omega)))] at hbit
  exact Bool.false_ne_true hbit

/-- **A field that was put in is the field that is read.** -/
theorem field_orFields {n i : Nat} (hn : n ≤ cap) (hi : i < n)
    (hf : ∀ j < n, f j < 2 ^ w) (hv : v % 2 ^ (w * cap) = 0) :
    field w cap (orFields w cap f v n) i = f i := by
  apply Nat.eq_of_testBit_eq
  intro k
  rw [testBit_field]
  by_cases hk : k < w
  · rw [decide_eq_true hk, Bool.true_and, Bool.eq_iff_iff,
      testBit_at_place hn (by omega) hk hf hv]
    simp [hi]
  · rw [decide_eq_false hk, Bool.false_and,
      Nat.testBit_lt_two_pow (lt_of_lt_of_le (hf i hi) (Nat.pow_le_pow_right (by omega) (by omega)))]

/-- **All fields of a word, put together again, are the word.** -/
theorem orFields_field (hw : 0 < w) :
    orFields w cap (field w cap v) 0 cap = v % 2 ^ (w * cap) := by
  apply Nat.eq_of_testBit_eq
  intro k
  rw [Nat.testBit_mod_two_pow]
  by_cases hk : k < w * cap
  · -- the bit belongs to field `cap - 1 - k / w`
    have hdiv : k / w < cap := Nat.div_lt_of_lt_mul hk
    have hlt : cap - 1 - k / w < cap := by
      generalize k / w = q at hdiv
      omega
    have hplace : place w cap (cap - 1 - k / w) = w * (k / w) := by
      unfold place
      rw [Nat.sub_sub_self (Nat.le_sub_one_of_lt hdiv)]
    have hsplit : place w cap (cap - 1 - k / w) + k % w = k := by
      rw [hplace, Nat.div_add_mod]
    have hfield : ∀ j < cap, field w cap v j < 2 ^ w :=
      fun j _ => Nat.mod_lt _ (Nat.two_pow_pos w)
    have hbit := testBit_at_place (le_refl cap) hlt (Nat.mod_lt k hw) hfield (Nat.zero_mod _)
    rw [testBit_field, decide_eq_true (Nat.mod_lt k hw), Bool.true_and, hsplit] at hbit
    rw [decide_eq_true hk, Bool.true_and, Bool.eq_iff_iff, hbit]
    exact and_iff_right hlt
  · rw [decide_eq_false hk, Bool.false_and, Bool.eq_false_iff]
    intro h
    rw [testBit_orFields] at h
    simp only [Nat.zero_testBit, Bool.false_eq_true, false_or] at h
    obtain ⟨i, hi, hle, hbit⟩ := h
    rw [testBit_field, Bool.and_eq_true, decide_eq_true_eq] at hbit
    have := place_add_le (w := w) hi
    omega

theorem field_mod {m i : Nat} (hm : w * cap ≤ m) (hi : i < cap) :
    field w cap (v % 2 ^ m) i = field w cap v i := by
  apply Nat.eq_of_testBit_eq
  intro k
  rw [testBit_field, testBit_field, Nat.testBit_mod_two_pow]
  by_cases hk : k < w
  · have := place_add_le (w := w) hi
    simp [hk, show place w cap i + k < m by omega]
  · simp [hk]

end NaiveRtc.BitField
