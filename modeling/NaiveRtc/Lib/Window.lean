import Mathlib.Data.List.Basic
import Mathlib.Algebra.Order.Group.Int

/-!
# Windows on the integers

A list of cells, some of them empty, laid over the integers from a base on: a finite partial
map whose domain lies in an interval.

* `look` — the entry at an integer.
* `look_append`, `look_replicate`, `look_drop`, `look_set` — what the operations on the two
  ends and inside do to the entries.
* `look_dropFront_eq_some` — dropping cells while a condition on position and entry holds.
-/

namespace Window

variable {α : Type*}

/-- The entry at `i` of the cells that start at `base`. -/
def look (base : Int) : List (Option α) → Int → Option α
  | [], _ => none
  | cell :: cells, i => if i = base then cell else look (base + 1) cells i

variable {base i : Int}

theorem look_of_lt (h : i < base) (cells : List (Option α)) :
    look base cells i = none := by
  induction cells generalizing base with
  | nil => rfl
  | cons cell cells ih => rw [look, if_neg (by omega), ih (by omega)]

variable {cells : List (Option α)}

theorem look_of_ge (h : base + cells.length ≤ i) :
    look base cells i = none := by
  induction cells generalizing base with
  | nil => rfl
  | cons cell cells ih =>
    rw [List.length_cons] at h
    rw [look, if_neg (by omega), ih (by omega)]

theorem mem_range_of_look {x : α}
    (h : look base cells i = some x) : base ≤ i ∧ i < base + cells.length := by
  constructor
  · by_contra hlt
    rw [look_of_lt (by omega)] at h
    cases h
  · by_contra hge
    rw [look_of_ge (by omega)] at h
    cases h

theorem look_eq_getElem? (h : base ≤ i) :
    look base cells i = cells[(i - base).toNat]?.join := by
  induction cells generalizing base with
  | nil => rfl
  | cons cell cells ih =>
    by_cases hi : i = base
    · subst hi
      rw [look, if_pos rfl, Int.sub_self]
      rfl
    · obtain ⟨n, hn⟩ : ∃ n : Nat, (i - base).toNat = n + 1 := ⟨(i - base).toNat - 1, by omega⟩
      rw [look, if_neg hi, ih (by omega), hn, List.getElem?_cons_succ]
      congr 2
      omega

theorem look_append (base i : Int) (front back : List (Option α)) :
    look base (front ++ back) i =
      if i < base + front.length then look base front i else look (base + front.length) back i := by
  induction front generalizing base with
  | nil =>
    rw [List.nil_append, List.length_nil, Int.natCast_zero, Int.add_zero]
    split_ifs with h
    · rw [look_of_lt h, look]
    · rfl
  | cons cell front ih =>
    have hbase : base + 1 + (front.length : Int) = base + ((cell :: front).length : Int) := by
      rw [List.length_cons]
      omega
    rw [List.cons_append, look, look, ih, hbase]
    split_ifs <;> first | rfl | omega

@[simp] theorem look_replicate (base i : Int) (n : Nat) :
    look base (List.replicate n (none : Option α)) i = none := by
  induction n generalizing base with
  | zero => rfl
  | succ n ih => rw [List.replicate_succ, look, ih, ite_self]

theorem look_singleton (base i : Int) (cell : Option α) :
    look base [cell] i = if i = base then cell else none := rfl

variable {n : Nat}

theorem look_drop (base i : Int) (hn : n ≤ cells.length) :
    look (base + n) (cells.drop n) i = if i < base + n then none else look base cells i := by
  have hlength : ((cells.take n).length : Int) = n := by
    rw [List.length_take, Nat.min_eq_left hn]
  have hsplit := look_append base i (cells.take n) (cells.drop n)
  rw [List.take_append_drop, hlength] at hsplit
  split_ifs at hsplit ⊢ with h
  · exact look_of_lt h _
  · exact hsplit.symm

theorem look_of_all_none (h : ∀ cell ∈ cells, cell = none) (base i : Int) :
    look base cells i = none := by
  rw [List.eq_replicate_of_mem h, look_replicate]

theorem look_trim (base i : Int) (hn : n ≤ cells.length)
    (hnone : ∀ cell ∈ cells.take n, cell = none) :
    look (base + n) (cells.drop n) i = look base cells i := by
  have hlength : ((cells.take n).length : Int) = n := by
    rw [List.length_take, Nat.min_eq_left hn]
  rw [look_drop base i hn]
  split_ifs with h
  · have hsplit := look_append base i (cells.take n) (cells.drop n)
    rw [List.take_append_drop, hlength, if_pos h, look_of_all_none hnone] at hsplit
    exact hsplit.symm
  · rfl

theorem look_set (base i : Int) (hn : n < cells.length) (cell : Option α) :
    look base (cells.set n cell) i = if i = base + n then cell else look base cells i := by
  induction cells generalizing base n with
  | nil => exact absurd hn (Nat.not_lt_zero n)
  | cons head cells ih =>
    cases n with
    | zero =>
      rw [List.set_cons_zero, look, look, Int.natCast_zero, Int.add_zero]
      split_ifs <;> rfl
    | succ n =>
      have hbase : base + 1 + (n : Int) = base + ((n + 1 : Nat) : Int) := by omega
      rw [List.set_cons_succ, look, look, ih (base + 1) (Nat.lt_of_succ_lt_succ hn), hbase]
      split_ifs <;> first | rfl | omega

/-- Cells dropped from the front while they meet a condition; the new base and cells. -/
def dropFront (p : Int → Option α → Bool) (base : Int) : List (Option α) → Int × List (Option α)
  | [] => (base, [])
  | cell :: cells => if p base cell then dropFront p (base + 1) cells else (base, cell :: cells)

theorem look_cons_of_ne (h : i ≠ base) (cell : Option α) (cells : List (Option α)) :
    look base (cell :: cells) i = look (base + 1) cells i := if_neg h

/-- What is left when cells are dropped from the front: an entry stays exactly if something up
to it does not meet the condition. -/
theorem look_dropFront_eq_some {p : Int → Option α → Bool} {x : α} :
    look (dropFront p base cells).1 (dropFront p base cells).2 i = some x ↔
      look base cells i = some x ∧
        ∃ j, base ≤ j ∧ j ≤ i ∧ p j (look base cells j) = false := by
  induction cells generalizing base with
  | nil => simp [dropFront, look]
  | cons cell cells ih =>
    have hhead : look base (cell :: cells) base = cell := if_pos rfl
    rw [dropFront]
    split_ifs with hp
    · rw [ih]
      constructor
      · rintro ⟨hi, j, hj, hji, hpj⟩
        have hne : i ≠ base := by omega
        refine ⟨by rw [look_cons_of_ne hne, hi], j, by omega, hji, ?_⟩
        rw [look_cons_of_ne (by omega), hpj]
      · rintro ⟨hi, j, hj, hji, hpj⟩
        have hne : j ≠ base := by
          rintro rfl
          rw [hhead, hp] at hpj
          cases hpj
        rw [look_cons_of_ne (by omega)] at hi hpj
        exact ⟨hi, j, by omega, hji, hpj⟩
    · constructor
      · intro hi
        have hrange := mem_range_of_look hi
        refine ⟨hi, base, le_refl base, hrange.1, ?_⟩
        rw [hhead, Bool.eq_false_iff]
        exact hp
      · exact fun h => h.1

theorem length_dropFront (p : Int → Option α → Bool) (base : Int) (cells : List (Option α)) :
    (dropFront p base cells).2.length ≤ cells.length := by
  induction cells generalizing base with
  | nil => exact Nat.le_refl _
  | cons cell cells ih =>
    rw [dropFront]
    split_ifs
    · exact Nat.le_trans (ih _) (Nat.le_succ _)
    · exact Nat.le_refl _

end Window
