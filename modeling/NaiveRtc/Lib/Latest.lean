import Mathlib.Data.List.Pairwise
import Mathlib.Order.Basic

/-!
# The latest element of each key

Of the elements of a list that have one key, the last one; what a map keeps of the values stored
into it.

* `latest` — the last element of each key, in the order of the list.
* `latest_concat` — one element more.
-/

namespace Latest

variable {α κ : Type*} [DecidableEq κ] (key : α → κ)

/-- The last element of each key. -/
def latest : List α → List α
  | [] => []
  | a :: l => if ∃ b ∈ l, key b = key a then latest l else a :: latest l

theorem latest_sublist (l : List α) : (latest key l).Sublist l := by
  induction l with
  | nil => exact List.Sublist.refl _
  | cons a l ih =>
    rw [latest]
    split_ifs
    · exact ih.cons a
    · exact ih.cons_cons a

/-- One element more takes the place of the one with its key. -/
theorem latest_concat (l : List α) (a : α) :
    latest key (l ++ [a]) = (latest key l).filter (fun b => key b ≠ key a) ++ [a] := by
  induction l with
  | nil => simp [latest]
  | cons x l ih =>
    have hlater : (∃ b ∈ l ++ [a], key b = key x) ↔
        (∃ b ∈ l, key b = key x) ∨ key a = key x := by
      simp [or_and_right, exists_or]
    rw [List.cons_append, latest, latest]
    by_cases hl : ∃ b ∈ l, key b = key x
    · rw [if_pos (hlater.2 (Or.inl hl)), if_pos hl, ih]
    · rw [if_neg hl]
      by_cases ha : key a = key x
      · rw [if_pos (hlater.2 (Or.inr ha)), ih, List.filter_cons_of_neg (by simp [ha])]
      · rw [if_neg (fun h => (hlater.1 h).elim hl ha), ih,
          List.filter_cons_of_pos (by simpa using Ne.symm ha), List.cons_append]

end Latest
