import Mathlib.Data.List.Sort

/-!
# Multisets as sorted lists

A multiset of a linear order, kept as its sorted list, with the places that a search tree gives.

* `upperBound`, `lowerBound` — the first place of a larger element, and of one that is not smaller.
* `lt_length_takeWhile_iff` — what a place says about the element there.
* `insertUpper` — insertion behind the equal elements; `getElem?_insertUpper` follows a place.
* `getElem?_lowerBound` — an element stands at its lower bound.
* `eq_insertionSort` — the list of a multiset.
-/

namespace SortedBag

variable {α : Type*}

section

variable {p : α → Bool}

/-- In a list where `p` holds of a prefix, it holds exactly of what is taken. -/
theorem lt_length_takeWhile_iff {l : List α} (hp : l.Pairwise fun a b => p b = true → p a = true)
    {i : Nat} (hi : i < l.length) : i < (l.takeWhile p).length ↔ p l[i] = true := by
  induction l generalizing i with
  | nil => exact absurd hi (Nat.not_lt_zero i)
  | cons a l ih =>
    obtain ⟨hhead, htail⟩ := List.pairwise_cons.1 hp
    cases ha : p a with
    | true =>
      rw [List.takeWhile_cons_of_pos ha, List.length_cons]
      cases i with
      | zero => exact iff_of_true (Nat.succ_pos _) ha
      | succ i => exact Nat.succ_lt_succ_iff.trans (ih htail (Nat.lt_of_succ_lt_succ hi))
    | false =>
      rw [List.takeWhile_cons_of_neg (by simp [ha])]
      refine iff_of_false (Nat.not_lt_zero i) fun hpi => ?_
      cases i with
      | zero => exact Bool.false_ne_true (ha.symm.trans hpi)
      | succ i =>
        exact Bool.false_ne_true (ha.symm.trans (hhead _ (List.getElem_mem _) hpi))

end

variable [LinearOrder α]

/-- The first place of a larger element. -/
def upperBound (a : α) (l : List α) : Nat := (l.takeWhile (· ≤ a)).length

/-- The first place of an element that is not smaller. -/
def lowerBound (a : α) (l : List α) : Nat := (l.takeWhile (· < a)).length

/-- Insert an element behind those that are equal. -/
def insertUpper (a : α) (l : List α) : List α := l.takeWhile (· ≤ a) ++ a :: l.dropWhile (· ≤ a)

variable {a : α} {l : List α}

theorem lt_upperBound_iff (hl : l.Pairwise (· ≤ ·)) {i : Nat} (hi : i < l.length) :
    i < upperBound a l ↔ l[i] ≤ a := by
  have hp : l.Pairwise fun b c => decide (c ≤ a) = true → decide (b ≤ a) = true :=
    hl.imp fun hbc hca => decide_eq_true (hbc.trans (of_decide_eq_true hca))
  exact (lt_length_takeWhile_iff hp hi).trans decide_eq_true_iff

theorem lt_lowerBound_iff (hl : l.Pairwise (· ≤ ·)) {i : Nat} (hi : i < l.length) :
    i < lowerBound a l ↔ l[i] < a := by
  have hp : l.Pairwise fun b c => decide (c < a) = true → decide (b < a) = true :=
    hl.imp fun hbc hca => decide_eq_true (hbc.trans_lt (of_decide_eq_true hca))
  exact (lt_length_takeWhile_iff hp hi).trans decide_eq_true_iff

theorem perm_insertUpper (a : α) (l : List α) : (insertUpper a l).Perm (a :: l) := by
  have h : (insertUpper a l).Perm (a :: (l.takeWhile (· ≤ a) ++ l.dropWhile (· ≤ a))) :=
    List.perm_middle
  rwa [List.takeWhile_append_dropWhile] at h

theorem lt_of_mem_dropWhile (hl : l.Pairwise (· ≤ ·)) {b : α} (hb : b ∈ l.dropWhile (· ≤ a)) :
    a < b := by
  induction l with
  | nil => cases hb
  | cons c l ih =>
    obtain ⟨hhead, htail⟩ := List.pairwise_cons.1 hl
    rw [List.dropWhile_cons] at hb
    by_cases hc : c ≤ a
    · rw [if_pos (decide_eq_true hc)] at hb
      exact ih htail hb
    · rw [if_neg (by simpa using hc)] at hb
      have hac : a < c := lt_of_not_ge hc
      rcases List.mem_cons.1 hb with rfl | hb
      · exact hac
      · exact hac.trans_le (hhead b hb)

theorem sorted_insertUpper (hl : l.Pairwise (· ≤ ·)) : (insertUpper a l).Pairwise (· ≤ ·) := by
  have htake : ∀ b ∈ l.takeWhile (· ≤ a), b ≤ a := fun b hb =>
    of_decide_eq_true (List.all_eq_true.1 List.all_takeWhile b hb)
  have hdrop : ∀ b ∈ l.dropWhile (· ≤ a), a ≤ b := fun b hb => (lt_of_mem_dropWhile hl hb).le
  refine List.pairwise_append.2 ⟨hl.sublist (List.takeWhile_sublist _),
    List.pairwise_cons.2 ⟨hdrop, hl.sublist (List.dropWhile_sublist _)⟩, fun b hb c hc => ?_⟩
  rcases List.mem_cons.1 hc with rfl | hc
  · exact htake b hb
  · exact (htake b hb).trans (hdrop c hc)

/-- What stood at or behind the upper bound moves by one place. -/
theorem getElem?_insertUpper (a : α) (l : List α) (i : Nat) :
    (insertUpper a l)[if upperBound a l ≤ i then i + 1 else i]? = l[i]? := by
  unfold insertUpper upperBound
  conv_rhs => rw [← List.takeWhile_append_dropWhile (p := (· ≤ a)) (l := l)]
  split
  case isTrue hle =>
    rw [List.getElem?_append_right (by omega), List.getElem?_append_right hle,
      Nat.succ_sub hle, List.getElem?_cons_succ]
  case isFalse hlt =>
    rw [List.getElem?_append_left (by omega), List.getElem?_append_left (by omega)]

/-- An element stands at its lower bound, if anywhere. -/
theorem getElem?_lowerBound (hl : l.Pairwise (· ≤ ·)) (ha : a ∈ l) :
    l[lowerBound a l]? = some a := by
  obtain ⟨i, hi, rfl⟩ := List.getElem_of_mem ha
  have hle : lowerBound l[i] l ≤ i := by
    by_contra hlt
    exact lt_irrefl _ ((lt_lowerBound_iff hl hi).1 (Nat.lt_of_not_le hlt))
  have hbound : lowerBound l[i] l < l.length := Nat.lt_of_le_of_lt hle hi
  rw [List.getElem?_eq_getElem hbound]
  have hge : l[i] ≤ l[lowerBound l[i] l] := by
    by_contra hlt
    exact lt_irrefl _ ((lt_lowerBound_iff hl hbound).2 (lt_of_not_ge hlt))
  have hmono : l[lowerBound l[i] l] ≤ l[i] := by
    rcases Nat.lt_or_eq_of_le hle with hlt | heq
    · exact List.pairwise_iff_getElem.1 hl _ _ hbound hi hlt
    · simp [heq]
  exact congrArg some (le_antisymm hmono hge)

/-- A sorted list is the sorted list of its multiset. -/
theorem eq_insertionSort {m : List α} (hl : l.Pairwise (· ≤ ·)) (hperm : l.Perm m) :
    l = m.insertionSort (· ≤ ·) :=
  (hperm.trans (List.perm_insertionSort _ m).symm).eq_of_pairwise
    (fun _ _ _ _ hab hba => le_antisymm hab hba) hl (List.pairwise_insertionSort _ m)

end SortedBag
