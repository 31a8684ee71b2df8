import Mathlib.Algebra.Order.Group.Int
import Mathlib.Algebra.Order.Group.Nat
import Mathlib.Data.Int.Basic

/-!
# The order of numbers on a circle

Numbers below `R` that wrap: one is ahead of another when the way forward from the other is the
shorter one, and of two that are opposite each other the larger one is.

* `dist`, `Ahead` — the way forward, and the order.
* `ahead_iff_not` — of two numbers exactly one is ahead.
* `Unwraps` — integers for the numbers of a set that lie within half the circle.
* `Unwraps.ahead_iff` — **inside half a circle the order is that of the integers**, whichever
  integers they are.
* `unwraps_of_interval` — what lies in an interval shorter than half the circle has such integers.
-/

namespace Circle

/-- The way forward from `b` to `a`. -/
def dist (R a b : Nat) : Nat := if b ≤ a then a - b else a + R - b

/-- `a` is ahead of `b`. -/
def Ahead (R a b : Nat) : Prop :=
  (0 < dist R a b ∧ 2 * dist R a b < R) ∨ (2 * dist R a b = R ∧ b < a)

variable {R a b : Nat}

theorem dist_cases (R a b : Nat) :
    (b ≤ a ∧ dist R a b = a - b) ∨ (a < b ∧ dist R a b = a + R - b) := by
  unfold dist
  split_ifs with hle
  · exact Or.inl ⟨hle, rfl⟩
  · exact Or.inr ⟨not_le.mp hle, rfl⟩

theorem not_ahead_self : ¬Ahead R a a := by
  rintro (⟨hpos, -⟩ | ⟨-, hlt⟩)
  · rw [dist, if_pos (Nat.le_refl a), Nat.sub_self] at hpos
    exact Nat.lt_irrefl 0 hpos
  · exact Nat.lt_irrefl a hlt

/-- **Of two numbers exactly one is ahead**, also when they are opposite each other. -/
theorem ahead_iff_not (ha : a < R) (hb : b < R) (hne : a ≠ b) : Ahead R a b ↔ ¬Ahead R b a := by
  unfold Ahead dist
  split_ifs <;> omega

section Unwrapping

variable {α : Type*} {val : α → Nat} {S : Set α} {u : α → Int}

/-- The integers `u` unwrap the numbers of `S`, which lie within half the circle. -/
structure Unwraps (R : Nat) (val : α → Nat) (S : Set α) (u : α → Int) : Prop where
  wraps : ∀ x ∈ S, u x % R = val x
  near : ∀ x ∈ S, ∀ y ∈ S, 2 * (u x - u y) < R

theorem Unwraps.ahead_iff (h : Unwraps R val S u) {x y : α} (hx : x ∈ S) (hy : y ∈ S)
    (hxR : val x < R) (hyR : val y < R) : Ahead R (val x) (val y) ↔ u y < u x := by
  have hxy := h.near x hx y hy
  have hyx := h.near y hy x hx
  have hux := Int.emod_add_mul_ediv (u x) R
  have huy := Int.emod_add_mul_ediv (u y) R
  rw [h.wraps x hx] at hux
  rw [h.wraps y hy] at huy
  -- the two integers are in the same turn or in neighbouring ones
  obtain ⟨k, hk⟩ : ∃ k, u x / R = u y / R + k := ⟨u x / R - u y / R, by omega⟩
  rw [hk, Int.mul_add] at hux
  have hupper : k < 2 := by
    by_contra hge
    have := Int.mul_le_mul_of_nonneg_left (not_lt.mp hge) (Int.natCast_nonneg R)
    omega
  have hlower : -2 < k := by
    by_contra hle
    have := Int.mul_le_mul_of_nonneg_left (not_lt.mp hle) (Int.natCast_nonneg R)
    omega
  unfold Ahead dist
  obtain rfl | rfl | rfl : k = -1 ∨ k = 0 ∨ k = 1 := by omega
  · split_ifs <;> omega
  · split_ifs <;> omega
  · split_ifs <;> omega

/-- A comparator that follows the integers is a strict weak order of the set. -/
theorem isStrictWeakOrder_of_iff {lt : α → α → Prop}
    (h : ∀ x ∈ S, ∀ y ∈ S, lt x y ↔ u x < u y) :
    IsStrictWeakOrder S fun x y => lt x y where
  irrefl x := by
    rw [h x x.2 x x.2]
    exact lt_irrefl _
  trans x y z hxy hyz := by
    rw [h x x.2 y y.2] at hxy
    rw [h y y.2 z z.2] at hyz
    rw [h x x.2 z z.2]
    exact hxy.trans hyz
  incomp_trans x y z hxy hyz := by
    rw [h x x.2 y y.2, h y y.2 x x.2] at hxy
    rw [h y y.2 z z.2, h z z.2 y y.2] at hyz
    rw [h x x.2 z z.2, h z z.2 x x.2]
    omega

/-- Offsets from the start of an interval unwrap what is in it. -/
theorem unwraps_of_interval {start size : Nat} (hstart : start < R) (hsize : 2 * size < R)
    (hval : ∀ x ∈ S, val x < R) (hin : ∀ x ∈ S, dist R (val x) start < size) :
    Unwraps R val S fun x => (start + dist R (val x) start : Nat) where
  wraps x hx := by
    have hlt := hval x hx
    have hmod : (start + dist R (val x) start) % R = val x := by
      unfold dist
      split_ifs with hle
      · rw [Nat.add_sub_cancel' hle, Nat.mod_eq_of_lt hlt]
      · have heq : start + (val x + R - start) = val x + R := by omega
        rw [heq, Nat.add_mod_right, Nat.mod_eq_of_lt hlt]
    exact_mod_cast hmod
  near x hx y hy := by
    have hxs := hin x hx
    have hys := hin y hy
    omega

end Unwrapping

end Circle
