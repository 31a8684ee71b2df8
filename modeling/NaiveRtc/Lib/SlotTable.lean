import Mathlib.Data.List.GetD
import Mathlib.Data.Nat.ModEq

/-!
# Tables of slots addressed modulo their length

A table is a list of optional entries.  An entry has a numeric key and its home
is the slot `key % length`; two entries whose keys agree modulo the length compete
for one slot.  Growing a table moves every entry to its home in a table of another
length, in slot order, and a later entry overwrites an earlier one.

* `slot` — reading; `slot_set` and its cases — reading after a write.
* `Placed` — every entry is at home.
* `rehash` — all entries moved into a table of `n` slots; `slot_rehash` says what
  is found there, `slot_rehash_of_inj` that nothing is lost when the keys differ
  modulo `n`.
* `entries` — what a table holds, slot by slot; what writing, clearing and dropping the
  empty slots in front does to it.
-/

namespace SlotTable

variable {α : Type*}

/-- The entry in slot `i`; nothing beyond the end. -/
def slot (t : List (Option α)) (i : Nat) : Option α := t.getD i none

theorem slot_set (t : List (Option α)) (i j : Nat) (o : Option α) :
    slot (t.set i o) j = if i = j then (if i < t.length then o else none) else slot t j := by
  unfold slot
  rw [List.getD_eq_getElem?_getD, List.getD_eq_getElem?_getD, List.getElem?_set]
  split
  · split <;> rfl
  · rfl

variable {t : List (Option α)}

theorem slot_set_self {i : Nat} (h : i < t.length) (o : Option α) :
    slot (t.set i o) i = o := by
  rw [slot_set, if_pos rfl, if_pos h]

theorem slot_set_ne {i j : Nat} (h : i ≠ j) (o : Option α) :
    slot (t.set i o) j = slot t j := by
  rw [slot_set, if_neg h]

@[simp] theorem slot_set_none_self (t : List (Option α)) (i : Nat) :
    slot (t.set i none) i = none := by
  rw [slot_set, if_pos rfl, ite_self]

theorem lt_of_slot_eq_some {i : Nat} {a : α} (h : slot t i = some a) :
    i < t.length := by
  by_contra hi
  unfold slot at h
  rw [List.getD_eq_default _ _ (Nat.le_of_not_lt hi)] at h
  exact absurd h (by simp)

@[simp] theorem slot_replicate_none (n i : Nat) :
    slot (List.replicate n (none : Option α)) i = none := by
  unfold slot
  rw [List.getD_eq_getElem?_getD, List.getElem?_replicate]
  split <;> rfl

theorem slot_map_none (t : List (Option α)) (i : Nat) :
    slot (t.map fun _ => none) i = (none : Option α) := by
  rw [List.map_const']
  exact slot_replicate_none _ _

theorem mem_iff_slot {a : α} : some a ∈ t ↔ ∃ i, slot t i = some a := by
  constructor
  · intro h
    obtain ⟨i, hi, heq⟩ := List.mem_iff_getElem.1 h
    refine ⟨i, ?_⟩
    unfold slot
    rw [List.getD_eq_getElem _ _ hi, heq]
  · rintro ⟨i, h⟩
    have hi := lt_of_slot_eq_some h
    unfold slot at h
    rw [List.getD_eq_getElem _ _ hi] at h
    rw [← h]
    exact List.getElem_mem hi

/-! ## Entries at home -/

/-- Every entry is in the slot of its key. -/
def Placed (key : α → Nat) (t : List (Option α)) : Prop :=
  ∀ i a, slot t i = some a → i = key a % t.length

section Placed

variable {key : α → Nat} {t : List (Option α)}

theorem placed_replicate (n : Nat) : Placed key (List.replicate n none) := by
  intro i a h
  rw [slot_replicate_none] at h
  exact absurd h (by simp)

theorem Placed.set (h : Placed key t) {i : Nat} {o : Option α}
    (ho : ∀ a, o = some a → i = key a % t.length) : Placed key (t.set i o) := by
  intro j a ha
  rw [List.length_set]
  rw [slot_set] at ha
  split at ha
  · rename_i hij
    split at ha
    · rw [← hij]
      exact ho a ha
    · exact absurd ha (by simp)
  · exact h j a ha

theorem Placed.mem_iff (h : Placed key t) {a : α} :
    some a ∈ t ↔ slot t (key a % t.length) = some a := by
  rw [mem_iff_slot]
  constructor
  · rintro ⟨i, hi⟩
    rwa [h i a hi] at hi
  · intro ha
    exact ⟨_, ha⟩

/-- At home, entries with keys that agree modulo the length are the same entry. -/
theorem Placed.eq_of_mod_eq (h : Placed key t) {a b : α} (ha : some a ∈ t) (hb : some b ∈ t)
    (hab : key a % t.length = key b % t.length) : a = b := by
  rw [h.mem_iff] at ha hb
  rw [hab, hb] at ha
  exact (Option.some.inj ha).symm

/-- At home, the keys stay apart modulo every multiple of the length. -/
theorem Placed.eq_of_mod_eq_of_dvd (h : Placed key t) {a b : α} (ha : some a ∈ t) (hb : some b ∈ t)
    {n : Nat} (hn : t.length ∣ n) (hab : key a % n = key b % n) : a = b :=
  h.eq_of_mod_eq ha hb (Nat.ModEq.of_dvd hn hab)

end Placed

/-! ## Rehashing -/

/-- Write an entry into its home among `n` slots. -/
def place (key : α → Nat) (n : Nat) (t : List (Option α)) (o : Option α) : List (Option α) :=
  match o with
  | none => t
  | some a => t.set (key a % n) (some a)

/-- Move all entries, in slot order, into an empty table of `n` slots. -/
def rehash (key : α → Nat) (n : Nat) (t : List (Option α)) : List (Option α) :=
  t.foldl (place key n) (List.replicate n none)

section Rehash

variable (key : α → Nat) (n : Nat)

@[simp] theorem length_place (t : List (Option α)) (o : Option α) :
    (place key n t o).length = t.length := by
  cases o <;> simp [place]

theorem length_foldl_place (l t : List (Option α)) :
    (l.foldl (place key n) t).length = t.length := by
  induction l generalizing t with
  | nil => rfl
  | cons o l ih => simp [ih]

@[simp] theorem length_rehash (t : List (Option α)) : (rehash key n t).length = n := by
  unfold rehash
  rw [length_foldl_place, List.length_replicate]

variable {key n} {l t : List (Option α)}

/-- What is found after some entries were placed was there before or is one of
them, at home. -/
theorem slot_foldl_place {j : Nat} {a : α} (h : slot (l.foldl (place key n) t) j = some a) :
    (some a ∈ l ∧ j = key a % n) ∨ slot t j = some a := by
  induction l generalizing t with
  | nil => exact Or.inr h
  | cons o l ih =>
    rcases ih h with ⟨hmem, hj⟩ | ht
    · exact Or.inl ⟨List.mem_cons_of_mem _ hmem, hj⟩
    · cases o with
      | none => exact Or.inr ht
      | some b =>
        simp only [place] at ht
        rw [slot_set] at ht
        split at ht
        · rename_i hb
          split at ht
          · cases ht
            exact Or.inl ⟨List.mem_cons_self, hb.symm⟩
          · exact absurd ht (by simp)
        · exact Or.inr ht

theorem isSome_slot_foldl_place (ht : t.length = n) {j : Nat}
    (h : (slot t j).isSome) : (slot (l.foldl (place key n) t) j).isSome := by
  induction l generalizing t with
  | nil => exact h
  | cons o l ih =>
    refine ih ((length_place key n t o).trans ht) ?_
    cases o with
    | none => exact h
    | some b =>
      simp only [place]
      rw [slot_set]
      split
      · rename_i hb
        obtain ⟨a, ha⟩ := Option.isSome_iff_exists.1 h
        rw [if_pos (hb ▸ lt_of_slot_eq_some ha)]
        rfl
      · exact h

theorem isSome_slot_foldl_place_of_mem (ht : t.length = n) (hn : 0 < n) {a : α}
    (ha : some a ∈ l) : (slot (l.foldl (place key n) t) (key a % n)).isSome := by
  induction l generalizing t with
  | nil => exact absurd ha List.not_mem_nil
  | cons o l ih =>
    have hlen := (length_place key n t o).trans ht
    rcases List.mem_cons.1 ha with rfl | hl
    · refine isSome_slot_foldl_place hlen ?_
      simp only [place]
      rw [slot_set_self (by rw [ht]; exact Nat.mod_lt _ hn)]
      rfl
    · exact ih hlen hl

variable {t : List (Option α)}

theorem slot_rehash {j : Nat} {a : α} (h : slot (rehash key n t) j = some a) :
    some a ∈ t ∧ j = key a % n := by
  rcases slot_foldl_place h with h' | h'
  · exact h'
  · rw [slot_replicate_none] at h'
    exact absurd h' (by simp)

theorem placed_rehash (t : List (Option α)) : Placed key (rehash key n t) := by
  intro j a h
  rw [length_rehash]
  exact (slot_rehash h).2

/-- The home of an entry is taken after the move, by an entry that belongs there. -/
theorem exists_slot_rehash (hn : 0 < n) {a : α} (ha : some a ∈ t) :
    ∃ b, some b ∈ t ∧ key b % n = key a % n ∧ slot (rehash key n t) (key a % n) = some b := by
  have h : (slot (rehash key n t) (key a % n)).isSome :=
    isSome_slot_foldl_place_of_mem List.length_replicate hn ha
  obtain ⟨b, hb⟩ := Option.isSome_iff_exists.1 h
  have := slot_rehash hb
  exact ⟨b, this.1, this.2.symm, hb⟩

/-- An entry no other entry competes with is found at home after the move. -/
theorem slot_rehash_of_inj (hn : 0 < n) {a : α} (ha : some a ∈ t)
    (hinj : ∀ b, some b ∈ t → key b % n = key a % n → b = a) :
    slot (rehash key n t) (key a % n) = some a := by
  obtain ⟨b, hb, hmod, hslot⟩ := exists_slot_rehash hn ha
  rw [hslot, hinj b hb hmod]

end Rehash

/-! ## Neighbours -/

/-- The slot before slot `i` in a ring of `n` slots. -/
def prevIndex (n i : Nat) : Nat := if 0 < i then i - 1 else n - 1

/-! ## What a table holds -/

theorem slot_modify (t : List (Option α)) (i j : Nat) (f : α → α) :
    slot (t.modify i (Option.map f)) j = if i = j then (slot t j).map f else slot t j := by
  unfold slot
  rw [List.getD_eq_getElem?_getD, List.getD_eq_getElem?_getD, List.getElem?_modify]
  cases t[j]? with
  | none => simp
  | some o =>
    by_cases hij : i = j
    · simp [hij]
    · simp [hij]

/-- The entries, in slot order. -/
def entries (t : List (Option α)) : List α := t.filterMap id

theorem entries_cons (o : Option α) (t : List (Option α)) :
    entries (o :: t) = o.toList ++ entries t := by
  cases o <;> rfl

theorem entries_append (t t' : List (Option α)) : entries (t ++ t') = entries t ++ entries t' :=
  List.filterMap_append

@[simp] theorem entries_replicate_none (n : Nat) :
    entries (List.replicate n (none : Option α)) = [] := by
  induction n with
  | zero => rfl
  | succ n ih => rw [List.replicate_succ, entries_cons, ih]; rfl

theorem entries_set (t : List (Option α)) {i : Nat} (hi : i < t.length) (o : Option α) :
    ((slot t i).toList ++ entries (t.set i o)).Perm (o.toList ++ entries t) := by
  induction t generalizing i with
  | nil => exact absurd hi (Nat.not_lt_zero i)
  | cons x t ih =>
    cases i with
    | zero =>
      rw [List.set_cons_zero, entries_cons, entries_cons]
      show (x.toList ++ (o.toList ++ entries t)).Perm (o.toList ++ (x.toList ++ entries t))
      exact List.perm_append_comm_assoc _ _ _
    | succ i =>
      rw [List.set_cons_succ, entries_cons, entries_cons]
      have hslot : slot (x :: t) (i + 1) = slot t i := rfl
      rw [hslot]
      have hrest := ih (Nat.lt_of_succ_lt_succ hi)
      exact (List.perm_append_comm_assoc _ _ _).trans
        ((hrest.append_left x.toList).trans (List.perm_append_comm_assoc _ _ _))

theorem entries_modify {β : Type*} (t : List (Option α)) (i : Nat) {f : α → α} {g : α → β}
    (hf : ∀ a, g (f a) = g a) :
    (entries (t.modify i (Option.map f))).map g = (entries t).map g := by
  induction t generalizing i with
  | nil => rw [List.modify_nil]
  | cons x t ih =>
    cases i with
    | zero =>
      rw [List.modify_zero_cons, entries_cons, entries_cons]
      cases x <;> simp [hf]
    | succ i =>
      rw [List.modify_succ_cons, entries_cons, entries_cons, List.map_append, List.map_append, ih]

/-- Dropping the empty slots in front moves the others up. -/
theorem slot_dropWhile (t : List (Option α)) (i : Nat) :
    slot (t.dropWhile Option.isNone) i = slot t (i + (t.takeWhile Option.isNone).length) := by
  induction t with
  | nil => rfl
  | cons x t ih =>
    cases x with
    | none =>
      rw [List.dropWhile_cons_of_pos rfl, List.takeWhile_cons_of_pos rfl, ih]
      rfl
    | some a => rfl

theorem slot_takeWhile {i : Nat} (hi : i < (t.takeWhile Option.isNone).length) :
    slot t i = none := by
  induction t generalizing i with
  | nil => rfl
  | cons x t ih =>
    cases x with
    | some a => exact absurd hi (Nat.not_lt_zero i)
    | none =>
      cases i with
      | zero => rfl
      | succ i =>
        rw [List.takeWhile_cons_of_pos rfl] at hi
        exact ih (Nat.lt_of_succ_lt_succ hi)

theorem entries_dropWhile (t : List (Option α)) :
    entries (t.dropWhile Option.isNone) = entries t := by
  induction t with
  | nil => rfl
  | cons x t ih =>
    cases x with
    | none =>
      rw [List.dropWhile_cons_of_pos rfl, ih]
      rfl
    | some a => rfl

theorem slot_append_replicate (t : List (Option α)) (n i : Nat) :
    slot (t ++ List.replicate n none) i = slot t i := by
  unfold slot
  rw [List.getD_eq_getElem?_getD, List.getD_eq_getElem?_getD]
  by_cases hi : i < t.length
  · rw [List.getElem?_append_left hi]
  · rw [List.getElem?_append_right (Nat.le_of_not_lt hi), List.getElem?_replicate,
      List.getElem?_eq_none (Nat.le_of_not_lt hi)]
    split <;> rfl

end SlotTable
