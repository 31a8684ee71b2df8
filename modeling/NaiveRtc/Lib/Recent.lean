import Mathlib.Data.List.GetD
import Mathlib.Data.List.Rotate

/-!
# The last elements

The last elements of a growing list, as many as fit, and the ring that keeps them.

* `lastOf` — the last elements; `lastOf_concat_of_lt`, `lastOf_concat_of_le` — after one more.
* `contents` — what a ring with a place for the next element holds, the oldest first;
  `contents_push`, `contents_push_full` — after one more.
-/

namespace Recent

variable {α : Type*}

/-- The last elements, as many as fit. -/
def lastOf (size : Nat) (l : List α) : List α := l.drop (l.length - size)

theorem length_lastOf (size : Nat) (l : List α) : (lastOf size l).length = min size l.length := by
  rw [lastOf, List.length_drop]
  omega

@[simp] theorem lastOf_nil (size : Nat) : lastOf size ([] : List α) = [] := List.drop_nil

theorem lastOf_concat_of_lt {size : Nat} {l : List α} (h : l.length < size) (a : α) :
    lastOf size (l ++ [a]) = lastOf size l ++ [a] := by
  rw [lastOf, lastOf, List.length_append, List.length_singleton, Nat.sub_eq_zero_of_le h,
    Nat.sub_eq_zero_of_le h.le, List.drop_zero, List.drop_zero]

theorem lastOf_concat_of_le {size : Nat} {l : List α} (hsize : 0 < size) (h : size ≤ l.length)
    (a : α) : lastOf size (l ++ [a]) = (lastOf size l).tail ++ [a] := by
  have hlength : l.length + 1 - size = l.length - size + 1 := by omega
  rw [lastOf, lastOf, List.length_append, List.length_singleton, hlength,
    List.drop_append_of_le_length (by omega), List.tail_drop]

/-! ## Rings -/

/-- What a ring holds, the oldest element first: `next` is the place of the next one. -/
def contents (cells : List α) (next count : Nat) : List α :=
  (cells.rotate next).drop (cells.length - count)

variable {cells : List α} {next count : Nat}

theorem length_contents (h : count ≤ cells.length) :
    (contents cells next count).length = count := by
  rw [contents, List.length_drop, List.length_rotate]
  omega

/-- Writing at the next place and going on is a push at the end, over the oldest cell. -/
theorem rotate_set (h : next < cells.length) (a : α) :
    (cells.set next a).rotate (next + 1) = (cells.rotate next).tail ++ [a] := by
  have hset : cells.set next a = cells.take next ++ a :: cells.drop (next + 1) :=
    List.set_eq_take_append_cons_drop.trans (if_pos h)
  have hlength : (cells.take next ++ [a]).length = next + 1 := by
    rw [List.length_append, List.length_take, List.length_singleton]
    omega
  have hleft : (cells.set next a).rotate (next + 1) =
      cells.drop (next + 1) ++ (cells.take next ++ [a]) := by
    rw [hset, List.append_cons, ← hlength, List.rotate_append_length_eq]
  rw [hleft, List.rotate_eq_drop_append_take h.le, List.drop_eq_getElem_cons h, List.cons_append,
    List.tail_cons, List.append_assoc]

theorem contents_push (hnext : next < cells.length) (hcount : count < cells.length) (a : α) :
    contents (cells.set next a) ((next + 1) % cells.length) (count + 1) =
      contents cells next count ++ [a] := by
  have hmod := List.rotate_mod (cells.set next a) (next + 1)
  rw [List.length_set] at hmod
  have hdrop : cells.length - count = cells.length - (count + 1) + 1 := by omega
  have hfits : cells.length - (count + 1) ≤ (cells.rotate next).tail.length := by
    rw [List.length_tail, List.length_rotate]
    omega
  rw [contents, contents, List.length_set, hmod, rotate_set hnext,
    List.drop_append_of_le_length hfits, hdrop, List.drop_tail]

theorem contents_push_full (hnext : next < cells.length) (a : α) :
    contents (cells.set next a) ((next + 1) % cells.length) cells.length =
      (contents cells next cells.length).tail ++ [a] := by
  have hmod := List.rotate_mod (cells.set next a) (next + 1)
  rw [List.length_set] at hmod
  rw [contents, contents, List.length_set, Nat.sub_self, List.drop_zero, List.drop_zero, hmod,
    rotate_set hnext]

theorem contents_full (next : Nat) (cells : List α) (default : α) :
    contents cells next cells.length =
      (List.range cells.length).map fun i => cells.getD ((next + i) % cells.length) default := by
  rw [contents, Nat.sub_self, List.drop_zero]
  refine List.ext_getElem (by simp) fun i h₁ h₂ => ?_
  have hpos : 0 < cells.length := by
    rw [List.length_rotate] at h₁
    omega
  rw [List.getElem_rotate, List.getElem_map, List.getElem_range, Nat.add_comm next i,
    List.getD_eq_getElem _ _ (Nat.mod_lt _ hpos)]

end Recent
