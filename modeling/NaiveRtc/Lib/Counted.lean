import Mathlib.Data.Multiset.Sort
import Mathlib.Algebra.Order.Group.Multiset

/-!
# Multisets as counted values

A multiset kept as a list of values in order, each with how often it is there.

* `expand` — the list with its repetitions; `count_expand`, `sorted_expand`.
* `select` — the element of a rank, found by skipping; `select_eq` — it is that element.
* `bump` — a value is there a few times more, in a map with its counts modulo a bound;
  `coe_expand_bump` — where nothing wraps around.
-/

namespace Counted

variable {α : Type*}

/-- The values, each as often as it is there. -/
def expand (l : List (α × Nat)) : List α := l.flatMap fun p => List.replicate p.2 p.1

/-- The element of a rank. -/
def select : List (α × Nat) → Nat → Option α
  | [], _ => none
  | p :: l, rank => if rank < p.2 then some p.1 else select l (rank - p.2)

@[simp] theorem expand_nil : expand ([] : List (α × Nat)) = [] := rfl

@[simp] theorem expand_cons (p : α × Nat) (l : List (α × Nat)) :
    expand (p :: l) = List.replicate p.2 p.1 ++ expand l := rfl

theorem expand_append (l m : List (α × Nat)) : expand (l ++ m) = expand l ++ expand m :=
  List.flatMap_append

theorem select_eq (l : List (α × Nat)) (rank : Nat) : select l rank = (expand l)[rank]? := by
  induction l generalizing rank with
  | nil => rfl
  | cons p l ih =>
    rw [select, expand_cons]
    split
    case isTrue hlt =>
      rw [List.getElem?_append_left (by rwa [List.length_replicate]), List.getElem?_replicate,
        if_pos hlt]
    case isFalse hge =>
      rw [List.getElem?_append_right (by rw [List.length_replicate]; omega), ih,
        List.length_replicate]

theorem mem_of_mem_expand {l : List (α × Nat)} {a : α} (h : a ∈ expand l) : a ∈ l.map Prod.fst := by
  obtain ⟨p, hp, ha⟩ := List.mem_flatMap.1 h
  rw [List.eq_of_mem_replicate ha]
  exact List.mem_map_of_mem hp

section

variable [LinearOrder α] {l : List (α × Nat)}

theorem sorted_expand (h : (l.map Prod.fst).Pairwise (· < ·)) : (expand l).Pairwise (· ≤ ·) := by
  induction l with
  | nil => exact .nil
  | cons p l ih =>
    obtain ⟨hhead, htail⟩ := List.pairwise_cons.1 h
    refine List.pairwise_append.2 ⟨List.pairwise_replicate.2 (.inr le_rfl), ih htail,
      fun a ha b hb => ?_⟩
    rw [List.eq_of_mem_replicate ha]
    exact (hhead b (mem_of_mem_expand hb)).le

theorem count_expand (h : (l.map Prod.fst).Pairwise (· < ·)) {p : α × Nat} (hp : p ∈ l) :
    (expand l).count p.1 = p.2 := by
  induction l with
  | nil => cases hp
  | cons q l ih =>
    obtain ⟨hhead, htail⟩ := List.pairwise_cons.1 h
    rw [expand_cons, List.count_append, List.count_replicate]
    rcases List.mem_cons.1 hp with rfl | hp
    · have hnone : (expand l).count p.1 = 0 :=
        List.count_eq_zero.2 fun hmem => lt_irrefl _ (hhead _ (mem_of_mem_expand hmem))
      rw [hnone, if_pos (beq_self_eq_true _)]
      rfl
    · have hne : (q.1 == p.1) = false :=
        beq_false_of_ne (hhead p.1 (List.mem_map_of_mem hp)).ne
      rw [hne, if_neg Bool.false_ne_true, Nat.zero_add, ih htail hp]

theorem expand_eq_sort (h : (expand l).Pairwise (· ≤ ·)) :
    expand l = Multiset.sort (expand l : Multiset α) := by
  refine List.Perm.eq_of_pairwise (fun _ _ _ _ hab hba => le_antisymm hab hba) h
    (Multiset.pairwise_sort _ _) ?_
  rw [← Multiset.coe_eq_coe, Multiset.sort_eq]

end

/-! ## Counting up -/

section

variable [LinearOrder α] {bound : Nat}

/-- `map[value] += count`, modulo a bound. -/
def bump (bound : Nat) (value : α) (count : Nat) : List (α × Nat) → List (α × Nat)
  | [] => [(value, count % bound)]
  | p :: l =>
    if p.1 < value then p :: bump bound value count l
    else if p.1 = value then (value, (p.2 + count) % bound) :: l
    else (value, count % bound) :: p :: l

variable {l : List (α × Nat)}

theorem mem_keys_bump {value a : α} {count : Nat}
    (h : a ∈ (bump bound value count l).map Prod.fst) : a = value ∨ a ∈ l.map Prod.fst := by
  induction l with
  | nil => exact .inl (List.mem_singleton.1 h)
  | cons p l ih =>
    unfold bump at h
    split_ifs at h with hlt heq
    · rcases List.mem_cons.1 h with rfl | h
      · exact .inr List.mem_cons_self
      · exact (ih h).imp_right (List.mem_cons_of_mem _)
    · rcases List.mem_cons.1 h with rfl | h
      · exact .inl rfl
      · exact .inr (List.mem_cons_of_mem _ h)
    · exact (List.mem_cons.1 h).imp id id

theorem sorted_bump (h : (l.map Prod.fst).Pairwise (· < ·)) (value : α)
    (count : Nat) : ((bump bound value count l).map Prod.fst).Pairwise (· < ·) := by
  induction l with
  | nil => exact List.pairwise_singleton _ _
  | cons p l ih =>
    obtain ⟨hhead, htail⟩ := List.pairwise_cons.1 h
    unfold bump
    split_ifs with hlt heq
    · refine List.pairwise_cons.2 ⟨fun a ha => ?_, ih htail⟩
      rcases mem_keys_bump ha with rfl | ha
      · exact hlt
      · exact hhead a ha
    · exact heq ▸ h
    · have hgt : value < p.1 := lt_of_le_of_ne (not_lt.1 hlt) (Ne.symm heq)
      refine List.pairwise_cons.2 ⟨fun a ha => ?_, h⟩
      rcases List.mem_cons.1 ha with rfl | ha
      · exact hgt
      · exact hgt.trans (hhead a ha)

/-- Where nothing wraps around, the value is there so many times more. -/
theorem coe_expand_bump {value : α} {count : Nat} (h : (expand l).length + count < bound) :
    (expand (bump bound value count l) : Multiset α) =
      (expand l : Multiset α) + Multiset.replicate count value := by
  induction l with
  | nil =>
    have hcount : count % bound = count := Nat.mod_eq_of_lt (by
      rw [expand_nil, List.length_nil] at h
      omega)
    rw [bump, hcount, expand_cons, expand_nil, List.append_nil, Multiset.coe_replicate,
      Multiset.coe_nil, zero_add]
  | cons p l ih =>
    rw [expand_cons, List.length_append, List.length_replicate] at h
    unfold bump
    split_ifs with hlt heq
    · rw [expand_cons, expand_cons, ← Multiset.coe_add, ih (by omega), ← Multiset.coe_add,
        add_assoc]
    · rw [Nat.mod_eq_of_lt (by omega), expand_cons, expand_cons, ← Multiset.coe_add,
        ← Multiset.coe_add, heq, List.replicate_add, ← Multiset.coe_add, Multiset.coe_replicate,
        Multiset.coe_replicate, add_right_comm]
    · rw [Nat.mod_eq_of_lt (by omega), expand_cons, ← Multiset.coe_add, Multiset.coe_replicate,
        add_comm]

/-- A value that is there is counted up in its place. -/
theorem bump_of_mem {l l' : List (α × Nat)} {p : α × Nat} (count : Nat)
    (h : ((l ++ p :: l').map Prod.fst).Pairwise (· < ·)) :
    bump bound p.1 count (l ++ p :: l') = l ++ (p.1, (p.2 + count) % bound) :: l' := by
  induction l with
  | nil => rw [List.nil_append, bump, if_neg (lt_irrefl _), if_pos rfl, List.nil_append]
  | cons q l ih =>
    obtain ⟨hhead, htail⟩ := List.pairwise_cons.1 h
    have hlt : q.1 < p.1 := hhead p.1 (by simp)
    rw [List.cons_append, bump, if_pos hlt, ih htail, List.cons_append]

end

end Counted
