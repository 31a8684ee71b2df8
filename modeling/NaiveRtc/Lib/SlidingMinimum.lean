import Mathlib.Data.List.DropRight
import Mathlib.Data.List.Pairwise
import Mathlib.Order.Lattice

/-!
# The minimum of a sliding window

A window over a list of entries is kept as the entries that are smaller than everything after
them: old entries leave at the front, dominated ones at the back, and the front is the minimum.

* `minima` — the entries below everything after them; `pairwise_minima`, `minima_sublist`.
* `minima_concat`, `minima_dropWhile` — what the two ends do to the entries behind the minima.
* `push_minima` — **one push on the minima** is the window without what is too old, and the entry.
* `head_minima` — **the front is the minimum.**
-/

namespace SlidingMinimum

variable {α β : Type*} [LinearOrder β] (f : α → β)

/-- The entries that are smaller than everything after them. -/
def minima : List α → List α
  | [] => []
  | a :: l => if ∀ b ∈ l, f a < f b then a :: minima l else minima l

/-- A push: what is too old leaves at the front, what is not below the new entry at the back. -/
def push (tooOld : α → Bool) (a : α) (l : List α) : List α :=
  (l.dropWhile tooOld).rdropWhile (fun b => f a ≤ f b) ++ [a]

variable {f} {l : List α}

theorem minima_sublist (l : List α) : (minima f l).Sublist l := by
  induction l with
  | nil => exact List.Sublist.slnil
  | cons a l ih =>
    rw [minima]
    split
    · exact ih.cons_cons a
    · exact ih.cons a

theorem pairwise_minima (l : List α) : (minima f l).Pairwise fun a b => f a < f b := by
  induction l with
  | nil => exact List.Pairwise.nil
  | cons a l ih =>
    rw [minima]
    split
    case isTrue hlt =>
      exact List.pairwise_cons.2 ⟨fun b hb => hlt b ((minima_sublist l).subset hb), ih⟩
    case isFalse => exact ih

variable {p : α → Bool}

theorem rdropWhile_cons_of_not {a : α} (ha : p a = false) (l : List α) :
    (a :: l).rdropWhile p = a :: l.rdropWhile p := by
  induction l using List.reverseRecOn with
  | nil => simp [List.rdropWhile, ha]
  | append_singleton l b ih =>
    rw [← List.cons_append, List.rdropWhile_concat, List.rdropWhile_concat, ih]
    split <;> rfl

/-- **One more entry** removes the minima that are not below it. -/
theorem minima_concat (l : List α) (a : α) :
    minima f (l ++ [a]) = (minima f l).rdropWhile (fun b => f a ≤ f b) ++ [a] := by
  induction l with
  | nil => simp [minima]
  | cons b l ih =>
    rw [List.cons_append, minima, minima, ih]
    have hsplit : (∀ c ∈ l ++ [a], f b < f c) ↔ (∀ c ∈ l, f b < f c) ∧ f b < f a := by
      rw [List.forall_mem_append, List.forall_mem_singleton]
    by_cases hall : ∀ c ∈ l, f b < f c
    · rw [if_pos hall]
      by_cases hlt : f b < f a
      · rw [if_pos (hsplit.2 ⟨hall, hlt⟩), rdropWhile_cons_of_not (by simpa using hlt)]
        rfl
      · -- `b` goes, and with it all that is after it
        have hle : f a ≤ f b := not_lt.1 hlt
        have hdropped : ∀ m : List α, (∀ c ∈ m, f a ≤ f c) →
            m.rdropWhile (fun c => f a ≤ f c) = [] := by
          intro m hm
          rw [List.rdropWhile_eq_nil_iff]
          exact fun c hc => decide_eq_true (hm c hc)
        have htail : ∀ c ∈ minima f l, f a ≤ f c := fun c hc =>
          hle.trans (hall c ((minima_sublist l).subset hc)).le
        rw [if_neg fun h => hlt (hsplit.1 h).2, hdropped _ htail,
          hdropped (b :: minima f l) (List.forall_mem_cons.2 ⟨hle, htail⟩)]
    · rw [if_neg hall, if_neg fun h => hall (hsplit.1 h).1]

/-- **What is too old** leaves the minima as it leaves the window. -/
theorem minima_dropWhile (hp : l.Pairwise fun a b => p b = true → p a = true) :
    (minima f l).dropWhile p = minima f (l.dropWhile p) := by
  induction l with
  | nil => rfl
  | cons a l ih =>
    obtain ⟨hhead, htail⟩ := List.pairwise_cons.1 hp
    by_cases ha : p a = true
    · rw [List.dropWhile_cons_of_pos ha, ← ih htail, minima]
      split
      · rw [List.dropWhile_cons_of_pos ha]
      · rfl
    · have hnone : ∀ b ∈ l, ¬ p b = true := fun b hb hpb => ha (hhead b hb hpb)
      rw [List.dropWhile_cons_of_neg ha, minima]
      split
      · rw [List.dropWhile_cons_of_neg ha]
      · cases hminima : minima f l with
        | nil => rfl
        | cons b rest =>
          have hb : b ∈ l := (minima_sublist l).subset (hminima ▸ List.mem_cons_self)
          rw [List.dropWhile_cons_of_neg (hnone b hb)]

theorem push_minima {tooOld : α → Bool}
    (hold : l.Pairwise fun a b => tooOld b = true → tooOld a = true) (a : α) :
    push f tooOld a (minima f l) = minima f (l.dropWhile tooOld ++ [a]) := by
  rw [push, minima_dropWhile hold, minima_concat]

theorem head_minima (hne : l ≠ []) :
    ∃ a rest, minima f l = a :: rest ∧ a ∈ l ∧ ∀ b ∈ l, f a ≤ f b := by
  induction l with
  | nil => exact absurd rfl hne
  | cons a l ih =>
    rw [minima]
    split
    case isTrue hlt =>
      exact ⟨a, minima f l, rfl, List.mem_cons_self,
        List.forall_mem_cons.2 ⟨le_refl _, fun b hb => (hlt b hb).le⟩⟩
    case isFalse hnot =>
      obtain ⟨c, hc, hca⟩ : ∃ c ∈ l, f c ≤ f a := by simpa using hnot
      obtain ⟨b, rest, heq, hb, hmin⟩ := ih (List.ne_nil_of_mem hc)
      exact ⟨b, rest, heq, List.mem_cons_of_mem a hb,
        List.forall_mem_cons.2 ⟨(hmin c hc).trans hca, hmin⟩⟩

/-- What is dropped from a list that ages from the front on. -/
theorem dropWhile_eq_filter (hp : l.Pairwise fun a b => p b = true → p a = true) :
    l.dropWhile p = l.filter fun a => !p a := by
  induction l with
  | nil => rfl
  | cons a l ih =>
    obtain ⟨hhead, htail⟩ := List.pairwise_cons.1 hp
    by_cases ha : p a = true
    · rw [List.dropWhile_cons_of_pos ha, List.filter_cons_of_neg (by simp [ha]), ih htail]
    · have hall : ∀ b ∈ a :: l, (!p b) = true := by
        refine List.forall_mem_cons.2 ⟨by simp [ha], fun b hb => ?_⟩
        simpa using fun hpb => ha (hhead b hb hpb)
      rw [List.dropWhile_cons_of_neg ha, List.filter_eq_self.2 hall]

theorem takeWhile_eq_filter
    (hp : l.Pairwise fun a b => p b = true → p a = true) : l.takeWhile p = l.filter p := by
  induction l with
  | nil => rfl
  | cons a l ih =>
    obtain ⟨hhead, htail⟩ := List.pairwise_cons.1 hp
    by_cases ha : p a = true
    · rw [List.takeWhile_cons_of_pos ha, List.filter_cons_of_pos ha, ih htail]
    · have hnone : ∀ b ∈ a :: l, ¬p b = true :=
        List.forall_mem_cons.2 ⟨ha, fun b hb hpb => ha (hhead b hb hpb)⟩
      rw [List.takeWhile_cons_of_neg ha, List.filter_eq_nil_iff.2 hnone]

end SlidingMinimum
