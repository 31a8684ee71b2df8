import Mathlib.Algebra.Order.Group.Abs
import Mathlib.Order.Interval.Set.UnorderedInterval

/-!
# Moving towards a target

A value that moves towards a target by no more than a limit.

* `approach` — the next value.
* `abs_approach_sub_le`, `approach_mem_uIcc` — it moves by the limit at most, and it does not pass
  the target.
* `approach_cases` — it is reached within the limit.
-/

namespace Approach

variable {α : Type*} [AddCommGroup α] [LinearOrder α] [IsOrderedAddMonoid α]

/-- The next value. -/
def approach (limit target current : α) : α :=
  current + min (max (target - current) (-limit)) limit

variable {limit target current : α}

theorem approach_of_le (h : |target - current| ≤ limit) :
    approach limit target current = target := by
  obtain ⟨hlow, hhigh⟩ := abs_le.1 h
  rw [approach, max_eq_left hlow, min_eq_left hhigh, add_sub_cancel]

theorem approach_of_lt (hlimit : 0 ≤ limit) (h : limit < target - current) :
    approach limit target current = current + limit := by
  have hlow : -limit ≤ target - current := (neg_nonpos.2 hlimit).trans (hlimit.trans h.le)
  rw [approach, max_eq_left hlow, min_eq_right h.le]

theorem approach_of_gt (hlimit : 0 ≤ limit) (h : target - current < -limit) :
    approach limit target current = current - limit := by
  rw [approach, max_eq_right h.le, min_eq_left (neg_le_self hlimit), sub_eq_add_neg]

theorem approach_cases (hlimit : 0 ≤ limit) (target current : α) :
    (|target - current| ≤ limit ∧ approach limit target current = target) ∨
    (limit < target - current ∧ approach limit target current = current + limit) ∨
    (target - current < -limit ∧ approach limit target current = current - limit) := by
  rcases le_or_gt (target - current) limit with hhigh | hhigh
  · rcases le_or_gt (-limit) (target - current) with hlow | hlow
    · exact Or.inl ⟨abs_le.2 ⟨hlow, hhigh⟩, approach_of_le (abs_le.2 ⟨hlow, hhigh⟩)⟩
    · exact Or.inr (Or.inr ⟨hlow, approach_of_gt hlimit hlow⟩)
  · exact Or.inr (Or.inl ⟨hhigh, approach_of_lt hlimit hhigh⟩)

theorem abs_approach_sub_le (hlimit : 0 ≤ limit) :
    |approach limit target current - current| ≤ limit := by
  rcases approach_cases hlimit target current with
    ⟨hnear, heq⟩ | ⟨-, heq⟩ | ⟨-, heq⟩
  · rwa [heq]
  · rw [heq, add_sub_cancel_left, abs_of_nonneg hlimit]
  · rw [heq, sub_sub_cancel_left, abs_neg, abs_of_nonneg hlimit]

theorem approach_mem_uIcc (hlimit : 0 ≤ limit) :
    approach limit target current ∈ Set.uIcc current target := by
  rcases approach_cases hlimit target current with
    ⟨-, heq⟩ | ⟨habove, heq⟩ | ⟨hbelow, heq⟩
  · rw [heq]
    exact Set.right_mem_uIcc
  · rw [heq]
    exact Set.mem_uIcc_of_le (le_add_of_nonneg_right hlimit)
      (le_sub_iff_add_le'.1 habove.le)
  · rw [heq]
    refine Set.mem_uIcc_of_ge ?_ (sub_le_self current hlimit)
    rw [sub_eq_add_neg]
    exact sub_le_iff_le_add'.1 hbelow.le

end Approach
