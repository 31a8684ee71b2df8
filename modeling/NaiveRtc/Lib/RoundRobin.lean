import Mathlib.Data.List.Rotate

/-!
# Taking turns

A queue is served in turns: each takes entries from the front until it has found a number of active
ones, and puts what it took at the end.

* `turn` — the entries that one turn takes, and those that stay.
* `served`, `next` — the active entries among them, and the queue afterwards.
* `served_eq`, `filter_next` — on the active entries a turn is a rotation.
* `owed_next` — who is owed a turn at the front of the queue gets it or moves up.
-/

namespace RoundRobin

variable {α : Type*} (active : α → Bool)

/-- Entries are taken from the front until `count` of them are active. -/
def turn (count : Nat) : List α → List α × List α
  | [] => ([], [])
  | a :: queue =>
    if count = 0 then ([], a :: queue)
    else
      let rest := turn (if active a then count - 1 else count) queue
      (a :: rest.1, rest.2)

/-- The active entries that a turn takes. -/
def served (count : Nat) (queue : List α) : List α := (turn active count queue).1.filter active

/-- The queue after a turn. -/
def next (count : Nat) (queue : List α) : List α :=
  (turn active count queue).2 ++ (turn active count queue).1

variable {active} {count : Nat} {queue : List α}

@[simp] theorem turn_zero (queue : List α) : turn active 0 queue = ([], queue) := by
  cases queue with
  | nil => rfl
  | cons a queue => exact if_pos rfl

theorem turn_cons (hcount : 0 < count) (a : α) (queue : List α) :
    turn active count (a :: queue) =
      (a :: (turn active (if active a then count - 1 else count) queue).1,
        (turn active (if active a then count - 1 else count) queue).2) :=
  if_neg (Nat.pos_iff_ne_zero.1 hcount)

theorem turn_append (active : α → Bool) (count : Nat) (queue : List α) :
    (turn active count queue).1 ++ (turn active count queue).2 = queue := by
  induction queue generalizing count with
  | nil => rfl
  | cons a queue ih =>
    by_cases hcount : count = 0
    · rw [hcount, turn_zero]
      rfl
    · rw [turn_cons (Nat.pos_of_ne_zero hcount), List.cons_append, ih]

theorem next_eq_rotate (active : α → Bool) (count : Nat) (queue : List α) :
    next active count queue = queue.rotate (turn active count queue).1.length := by
  have hrotate := List.rotate_append_length_eq (turn active count queue).1
    (turn active count queue).2
  rw [turn_append] at hrotate
  exact hrotate.symm

/-- **A turn takes the first active entries, and leaves the others.** -/
theorem filter_turn (active : α → Bool) (count : Nat) (queue : List α) :
    (turn active count queue).1.filter active = (queue.filter active).take count ∧
      (turn active count queue).2.filter active = (queue.filter active).drop count := by
  induction queue generalizing count with
  | nil => simp [turn]
  | cons a queue ih =>
    by_cases hcount : count = 0
    · subst hcount
      simp
    · obtain ⟨n, rfl⟩ := Nat.exists_eq_succ_of_ne_zero hcount
      rw [turn_cons (Nat.succ_pos n)]
      by_cases ha : active a
      · simp [ha, ih n]
      · simp [ha, ih (n + 1)]

theorem served_eq (active : α → Bool) (count : Nat) (queue : List α) :
    served active count queue = (queue.filter active).take count :=
  (filter_turn active count queue).1

theorem filter_next (active : α → Bool) (count : Nat) (queue : List α) :
    (next active count queue).filter active =
      (queue.filter active).drop count ++ (queue.filter active).take count := by
  rw [next, List.filter_append, (filter_turn active count queue).1,
    (filter_turn active count queue).2]

/-- **Who stands at the front is served, or stands at the front after that.** -/
theorem owed_next {owed : List α} (h : owed <+: queue.filter active) :
    owed.drop count <+: (next active count queue).filter active ∧
      ∀ a ∈ owed, a ∈ served active count queue ∨ a ∈ owed.drop count := by
  obtain ⟨others, hothers⟩ := h
  constructor
  · rw [filter_next, ← hothers, List.drop_append, List.append_assoc]
    exact List.prefix_append _ _
  · intro a ha
    rw [← List.take_append_drop count owed] at ha
    rcases List.mem_append.1 ha with hfirst | hlater
    · left
      rw [served_eq, ← hothers, List.take_append]
      exact List.mem_append_left _ hfirst
    · exact .inr hlater

end RoundRobin
