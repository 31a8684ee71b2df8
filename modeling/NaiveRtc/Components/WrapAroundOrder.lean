import NaiveRtc.Components.WrapAround
import NaiveRtc.Lib.Circle

/-!
# The order of wrapping numbers

`AheadOf` and `OlderThan` at every modulus: at `M = 0` for the types as wide as `int` and for the
narrower ones, whose difference is taken as an `int`, and at `M > 1`.

* `forwardDiffAt`, `reverseDiffAt`, `minDiffAt`, `aheadOrAtAt`, `aheadOfAt` — the functions with a
  modulus.
* `aheadOf_iff_ahead`, `aheadOfPromoted_iff_ahead`, `aheadOfAt_iff_ahead` — all of them compare
  numbers on a circle.
* `wrapOrder` — **the comparisons order what lies within half the range.**
-/

namespace NaiveRtc.WrapAround

open Circle

variable {w : Nat}

/-! ## At the width of the type -/

/-- `AheadOrAt<T, 0>(a, b)` of a type narrower than `int`: `a - b` is an `int` and may be negative,
`max_dist` is not. -/
def aheadOrAtPromoted (a b : BitVec w) : Bool :=
  if (a.toNat : Int) - b.toNat = (maxDist w).toNat then decide (b < a)
  else decide (forwardDiff b a < maxDist w)

/-- `AheadOf<T, 0>(a, b)` of such a type. -/
def aheadOfPromoted (a b : BitVec w) : Bool := a != b && aheadOrAtPromoted a b

theorem toNat_maxDist (hw : 0 < w) : (maxDist w).toNat = 2 ^ (w - 1) := by
  rw [maxDist, BitVec.toNat_ofNat, Nat.mod_eq_of_lt (Nat.pow_lt_pow_right (by decide) (by omega))]

theorem toNat_sub_eq_dist (a b : BitVec w) : (a - b).toNat = dist (2 ^ w) a.toNat b.toNat := by
  have ha := a.isLt
  have hb := b.isLt
  rw [BitVec.toNat_sub, Circle.dist]
  split_ifs with hle
  · rw [show 2 ^ w - b.toNat + a.toNat = a.toNat - b.toNat + 2 ^ w by omega, Nat.add_mod_right,
      Nat.mod_eq_of_lt (by omega)]
  · rw [Nat.mod_eq_of_lt (by omega)]
    omega

theorem two_pow_eq (hw : 0 < w) : 2 ^ w = 2 * 2 ^ (w - 1) := by
  obtain ⟨k, rfl⟩ := Nat.exists_eq_succ_of_ne_zero hw.ne'
  exact Nat.pow_succ'

/-- The comparison, whichever way the half-way mark is tested, as long as it is found when `a` is
the larger number. -/
theorem compare_iff_ahead (hw : 0 < w) {a b : BitVec w} {test : Prop} [Decidable test]
    (htest : test → (a - b).toNat = 2 ^ (w - 1))
    (hhalf : (a - b).toNat = 2 ^ (w - 1) → b.toNat < a.toNat → test) :
    (a != b && if test then decide (b < a) else decide (forwardDiff b a < maxDist w)) = true ↔
      Ahead (2 ^ w) a.toNat b.toNat := by
  have hmax := toNat_maxDist hw
  have hpow := two_pow_eq hw
  have hdist := toNat_sub_eq_dist a b
  have ha := a.isLt
  have hb := b.isLt
  rw [forwardDiff, Bool.and_eq_true, bne_iff_ne, Ne, ← BitVec.toNat_inj, Ahead, ← hdist]
  have hcases := dist_cases (2 ^ w) a.toNat b.toNat
  rw [← hdist] at hcases
  by_cases h : test
  · have heq := htest h
    rw [if_pos h, decide_eq_true_iff, BitVec.lt_def]
    omega
  · have hne : ¬((a - b).toNat = 2 ^ (w - 1) ∧ b.toNat < a.toNat) := fun hand =>
      h (hhalf hand.1 hand.2)
    rw [if_neg h, decide_eq_true_iff, BitVec.lt_def, hmax]
    omega

theorem aheadOf_iff_ahead (hw : 0 < w) (a b : BitVec w) :
    aheadOf a b = true ↔ Ahead (2 ^ w) a.toNat b.toNat := by
  have htest : a - b = maxDist w ↔ (a - b).toNat = 2 ^ (w - 1) := by
    rw [← BitVec.toNat_inj, toNat_maxDist hw]
  exact compare_iff_ahead hw htest.mp fun hhalf _ => htest.mpr hhalf

/-- At half the range the promoted difference has a sign, and the second test answers for the
negative one. -/
theorem aheadOfPromoted_iff_ahead (hw : 0 < w) (a b : BitVec w) :
    aheadOfPromoted a b = true ↔ Ahead (2 ^ w) a.toNat b.toNat := by
  have hmax := toNat_maxDist hw
  have hdist := toNat_sub_eq_dist a b
  rw [Circle.dist] at hdist
  refine compare_iff_ahead hw (fun htest => ?_) fun hhalf hlt => ?_
  · rw [hmax] at htest
    rw [hdist, if_pos (by omega)]
    omega
  · rw [if_pos hlt.le] at hdist
    rw [hmax]
    omega

/-! ## At a modulus -/

/-- `ForwardDiff<T, M>(a, b)`. -/
def forwardDiffAt (M a b : BitVec w) : BitVec w := if a ≤ b then b - a else M - (a - b)

/-- `ReverseDiff<T, M>(a, b)`. -/
def reverseDiffAt (M a b : BitVec w) : BitVec w := if b ≤ a then a - b else M - (b - a)

/-- `MinDiff<T, M>(a, b)`. -/
def minDiffAt (M a b : BitVec w) : BitVec w :=
  if reverseDiffAt M a b < forwardDiffAt M a b then reverseDiffAt M a b else forwardDiffAt M a b

/-- `AheadOrAt<T, M>(a, b)`. -/
def aheadOrAtAt (M a b : BitVec w) : Bool :=
  let maxDist := M / 2
  let isEven := M &&& 1 = 0
  if isEven ∧ minDiffAt M a b = maxDist then decide (b < a)
  else decide (forwardDiffAt M b a ≤ maxDist)

/-- `AheadOf<T, M>(a, b)`. -/
def aheadOfAt (M a b : BitVec w) : Bool := a != b && aheadOrAtAt M a b

variable {M a b : BitVec w}

theorem toNat_sub_add (h : b ≤ a) : (a - b).toNat + b.toNat = a.toNat := by
  have hle := BitVec.le_def.mp h
  rw [BitVec.toNat_sub_of_le h, Nat.sub_add_cancel hle]

theorem toNat_reverseDiffAt (hb : b < M) :
    (reverseDiffAt M a b).toNat = dist M.toNat a.toNat b.toNat := by
  rw [BitVec.lt_def] at hb
  unfold reverseDiffAt Circle.dist
  simp only [BitVec.le_def]
  split_ifs with hle
  · exact BitVec.toNat_sub_of_le hle
  · have hsub := toNat_sub_add (BitVec.le_def.mpr (not_le.mp hle).le)
    have hrest := @toNat_sub_add w M (b - a) (BitVec.le_def.mpr (by omega))
    omega

theorem toNat_forwardDiffAt (ha : a < M) :
    (forwardDiffAt M a b).toNat = dist M.toNat b.toNat a.toNat :=
  toNat_reverseDiffAt ha

theorem toNat_minDiffAt (ha : a < M) (hb : b < M) : (minDiffAt M a b).toNat =
    min (dist M.toNat b.toNat a.toNat) (dist M.toNat a.toNat b.toNat) := by
  rw [← toNat_reverseDiffAt hb, ← toNat_forwardDiffAt ha, minDiffAt]
  simp only [BitVec.lt_def]
  split_ifs <;> omega

theorem aheadOfAt_iff_ahead (hM : 1 < M.toNat) (ha : a < M) (hb : b < M) :
    aheadOfAt M a b = true ↔ Ahead M.toNat a.toNat b.toNat := by
  have hpow : 1 < 2 ^ w := hM.trans M.isLt
  have heven : M &&& 1 = 0 ↔ M.toNat % 2 = 0 := by
    rw [← BitVec.toNat_inj, BitVec.toNat_and]
    simp [Nat.mod_eq_of_lt hpow]
  have hhalf : (M / 2).toNat = M.toNat / 2 := by
    rw [BitVec.toNat_udiv]
    rcases Nat.lt_or_ge 2 (2 ^ w) with hlt | hge
    · simp [Nat.mod_eq_of_lt hlt]
    · have := M.isLt
      omega
  have hmin := toNat_minDiffAt ha hb
  have hback := toNat_forwardDiffAt (M := M) (b := a) hb
  rw [BitVec.lt_def] at ha hb
  rw [aheadOfAt, Bool.and_eq_true, bne_iff_ne, Ne, ← BitVec.toNat_inj, Ahead]
  simp only [aheadOrAtAt, heven, ← BitVec.toNat_inj, hmin, hhalf]
  have hab := dist_cases M.toNat a.toNat b.toNat
  have hba := dist_cases M.toNat b.toNat a.toNat
  by_cases htest : M.toNat % 2 = 0 ∧
      min (dist M.toNat b.toNat a.toNat) (dist M.toNat a.toNat b.toNat) = M.toNat / 2
  · rw [if_pos htest, decide_eq_true_iff, BitVec.lt_def]
    omega
  · rw [if_neg htest, decide_eq_true_iff, BitVec.le_def, hback, hhalf]
    omega

/-! ## The order -/

/-- A comparison of numbers that wrap at `R`, on the numbers below `R`: two different ones are
compared one way, and within half the range the comparison is that of any integers the numbers
stand for.  What lies in an interval shorter than that stands for such integers. -/
structure WrapOrder (R : Nat) (aheadOf : BitVec w → BitVec w → Bool) : Prop where
  irrefl : ∀ a, a.toNat < R → aheadOf a a = false
  total : ∀ a b, a.toNat < R → b.toNat < R → a ≠ b → aheadOf a b = !aheadOf b a
  window : ∀ (S : Set (BitVec w)) (u : BitVec w → Int), (∀ a ∈ S, a.toNat < R) →
    Unwraps R BitVec.toNat S u →
    (∀ a ∈ S, ∀ b ∈ S, aheadOf a b = true ↔ u b < u a) ∧
      IsStrictWeakOrder S fun a b => aheadOf b a = true
  interval : ∀ (S : Set (BitVec w)) (start size : Nat), start < R → 2 * size < R →
    (∀ a ∈ S, a.toNat < R ∧ dist R a.toNat start < size) → ∃ u, Unwraps R BitVec.toNat S u

theorem wrapOrder_of_iff_ahead {R : Nat} {aheadOf : BitVec w → BitVec w → Bool}
    (h : ∀ a b, a.toNat < R → b.toNat < R →
      (aheadOf a b = true ↔ Ahead R a.toNat b.toNat)) : WrapOrder R aheadOf where
  irrefl a ha := by
    rw [← Bool.not_eq_true, h a a ha ha]
    exact not_ahead_self
  total a b ha hb hne := by
    have hne' : a.toNat ≠ b.toNat := fun heq => hne (BitVec.eq_of_toNat_eq heq)
    rw [Bool.eq_iff_iff, Bool.not_eq_true', ← Bool.not_eq_true, h a b ha hb, h b a hb ha]
    exact ahead_iff_not ha hb hne'
  window S u hS hu := by
    have hiff : ∀ a ∈ S, ∀ b ∈ S, aheadOf a b = true ↔ u b < u a := fun a ha b hb =>
      (h a b (hS a ha) (hS b hb)).trans (hu.ahead_iff ha hb (hS a ha) (hS b hb))
    exact ⟨hiff, isStrictWeakOrder_of_iff fun a ha b hb => hiff b hb a ha⟩
  interval S start size hstart hsize hin :=
    ⟨_, unwraps_of_interval hstart hsize (fun a ha => (hin a ha).1) fun a ha => (hin a ha).2⟩

/-- **`AheadOf` orders numbers that wrap**: `uint16_t` and `uint32_t` at their width, and every
type at every modulus. -/
theorem wrapOrder {w : Nat} (M : BitVec w) (hM : 1 < M.toNat) :
    WrapOrder (2 ^ 16) (aheadOfPromoted (w := 16)) ∧ WrapOrder (2 ^ 32) (aheadOf (w := 32)) ∧
      WrapOrder M.toNat (aheadOfAt M) :=
  ⟨wrapOrder_of_iff_ahead fun a b _ _ => aheadOfPromoted_iff_ahead (by decide) a b,
    wrapOrder_of_iff_ahead fun a b _ _ => aheadOf_iff_ahead (by decide) a b,
    wrapOrder_of_iff_ahead fun _ _ ha hb => aheadOfAt_iff_ahead hM ha hb⟩

theorem wrapOrder_five :
    WrapOrder (2 ^ 16) (aheadOfPromoted (w := 16)) ∧ WrapOrder (2 ^ 32) (aheadOf (w := 32)) ∧
      WrapOrder 5 (aheadOfAt (5 : BitVec 8)) :=
  wrapOrder 5 (by decide)

end NaiveRtc.WrapAround
