import Mathlib.Data.List.Basic

/-!
# Lists that several writers append to

A shared buffer is a list of entries, each with the writer that appended it.

* `whole` — the buffer as it stands; `part` — what one writer appended.
* `whole_eq_part_iff` — **the buffer is one writer's exactly when** no other writer has
  anything in it.
-/

namespace Interleaving

variable {κ α : Type*}

/-- The buffer as it stands. -/
def whole (entries : List (κ × List α)) : List α := entries.flatMap Prod.snd

@[simp] theorem whole_nil : whole ([] : List (κ × List α)) = [] := rfl

@[simp] theorem whole_cons (entry : κ × List α) (entries : List (κ × List α)) :
    whole (entry :: entries) = entry.2 ++ whole entries := List.flatMap_cons

theorem whole_append (entries entries' : List (κ × List α)) :
    whole (entries ++ entries') = whole entries ++ whole entries' := List.flatMap_append

variable [DecidableEq κ]

/-- What one writer appended. -/
def part (k : κ) (entries : List (κ × List α)) : List α :=
  whole (entries.filter fun entry => entry.1 = k)

@[simp] theorem part_nil (k : κ) : part k ([] : List (κ × List α)) = [] := rfl

theorem part_cons_self (k : κ) (list : List α) (entries : List (κ × List α)) :
    part k ((k, list) :: entries) = list ++ part k entries := by
  unfold part
  rw [List.filter_cons_of_pos (by simp), whole_cons]

theorem part_cons_of_ne {j k : κ} (h : j ≠ k) (list : List α) (entries : List (κ × List α)) :
    part k ((j, list) :: entries) = part k entries := by
  unfold part
  rw [List.filter_cons_of_neg (by simpa using h)]

theorem part_append (k : κ) (entries entries' : List (κ × List α)) :
    part k (entries ++ entries') = part k entries ++ part k entries' := by
  unfold part
  rw [List.filter_append, whole_append]

theorem part_concat (j k : κ) (list : List α) (entries : List (κ × List α)) :
    part k (entries ++ [(j, list)]) =
      if j = k then part k entries ++ list else part k entries := by
  rw [part_append]
  split
  · rename_i h
    rw [h, part_cons_self, part_nil, List.append_nil]
  · rename_i h
    rw [part_cons_of_ne h, part_nil, List.append_nil]

theorem length_part_le (k : κ) (entries : List (κ × List α)) :
    (part k entries).length ≤ (whole entries).length := by
  induction entries with
  | nil => exact Nat.le_refl _
  | cons entry entries ih =>
    obtain ⟨j, list⟩ := entry
    rw [whole_cons, List.length_append]
    by_cases h : j = k
    · rw [h, part_cons_self, List.length_append]
      exact Nat.add_le_add_left ih _
    · rw [part_cons_of_ne h]
      exact Nat.le_trans ih (Nat.le_add_left _ _)

/-- **The buffer is one writer's exactly when** no other writer has anything in it. -/
theorem whole_eq_part_iff (k : κ) (entries : List (κ × List α)) :
    whole entries = part k entries ↔ ∀ j, j ≠ k → part j entries = [] := by
  induction entries with
  | nil => simp
  | cons entry entries ih =>
    obtain ⟨i, list⟩ := entry
    rw [whole_cons]
    by_cases h : i = k
    · rw [h, part_cons_self, List.append_cancel_left_eq, ih]
      refine forall_congr' fun j => imp_congr_right fun hj => ?_
      rw [part_cons_of_ne hj.symm]
    · rw [part_cons_of_ne h]
      constructor
      · intro heq
        have hlen : list.length + (whole entries).length = (part k entries).length := by
          rw [← List.length_append]
          exact congrArg List.length heq
        have hle := length_part_le k entries
        obtain rfl : list = [] := List.eq_nil_of_length_eq_zero (by omega)
        intro j hj
        have hrest := ih.1 heq j hj
        by_cases hij : i = j
        · rw [hij, part_cons_self, hrest, List.append_nil]
        · rw [part_cons_of_ne hij, hrest]
      · intro hall
        have hlist := hall i h
        rw [part_cons_self, List.append_eq_nil_iff] at hlist
        rw [hlist.1, List.nil_append, ih]
        intro j hj
        by_cases hij : i = j
        · rw [← hij, hlist.2]
        · rw [← hall j hj, part_cons_of_ne hij]

end Interleaving
