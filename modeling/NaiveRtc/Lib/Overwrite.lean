import Mathlib.Data.List.GetD

/-!
# Writing into a list in place

* `overwrite` — the entries from an offset on are replaced one by one; what lies beyond the end
  of the list is lost.  `getD_overwrite` says what that means for one entry, and `overwrite_comm`
  and `overwrite_overwrite` for two writes.
* `readFrom` — as many entries as asked for from an offset on, a default one beyond the end;
  `readFrom_append` for a list cut in three, `getD_readFrom` for one entry.
-/

namespace Overwrite

variable {α : Type*}

/-- The entries from `offset` on replaced by `data`. -/
def overwrite (list : List α) (offset : Nat) : List α → List α
  | [] => list
  | a :: data => overwrite (list.set offset a) (offset + 1) data

@[simp] theorem overwrite_nil (list : List α) (offset : Nat) : overwrite list offset [] = list :=
    rfl

@[simp] theorem length_overwrite (list : List α) (offset : Nat) (data : List α) :
    (overwrite list offset data).length = list.length := by
  induction data generalizing list offset with
  | nil => rfl
  | cons a data ih => rw [overwrite, ih, List.length_set]

variable {offset : Nat}

theorem overwrite_of_length_le {list : List α} (h : list.length ≤ offset)
    (data : List α) : overwrite list offset data = list := by
  induction data generalizing offset with
  | nil => rfl
  | cons a data ih => rw [overwrite, List.set_eq_of_length_le h, ih (by omega)]

/-- `size` entries from `offset` on. -/
def readFrom [Inhabited α] (list : List α) (offset size : Nat) : List α :=
  (List.range size).map fun i => list.getD (offset + i) default

@[simp] theorem length_readFrom [Inhabited α] (list : List α) (offset size : Nat) :
    (readFrom list offset size).length = size := by
  simp [readFrom]

theorem getD_readFrom [Inhabited α] {list : List α} {offset size i : Nat} (h : i < size) :
    (readFrom list offset size).getD i default = list.getD (offset + i) default := by
  rw [readFrom, List.getD_eq_getElem _ _ (by simpa using h)]
  simp

/-- What is written stands at its place, and the rest where it was. -/
theorem getD_overwrite {list data : List α} {offset i : Nat} (d : α) :
    (overwrite list offset data).getD i d =
      if offset ≤ i ∧ i < offset + data.length ∧ i < list.length then data.getD (i - offset) d
      else list.getD i d := by
  induction data generalizing list offset with
  | nil =>
    rw [overwrite_nil, if_neg]
    rintro ⟨hle, hlt, -⟩
    rw [List.length_nil] at hlt
    omega
  | cons a data ih =>
    rw [overwrite, ih, List.length_set, List.length_cons]
    by_cases hhead : i = offset
    · subst hhead
      rw [if_neg (by omega)]
      by_cases hlen : i < list.length
      · rw [if_pos (by omega), Nat.sub_self, List.getD_cons_zero, List.getD_eq_getElem?_getD,
          List.getElem?_set_self hlen]
        rfl
      · rw [if_neg (by omega), List.set_eq_of_length_le (by omega)]
    · have hset : (list.set offset a).getD i d = list.getD i d := by
        rw [List.getD_eq_getElem?_getD, List.getElem?_set_ne (Ne.symm hhead),
          ← List.getD_eq_getElem?_getD]
      rw [hset]
      by_cases hin : offset + 1 ≤ i ∧ i < offset + 1 + data.length ∧ i < list.length
      · have hsub : i - offset = (i - (offset + 1)) + 1 := by omega
        rw [if_pos hin, if_pos (by omega), hsub, List.getD_cons_succ]
      · rw [if_neg hin, if_neg (by omega)]

theorem overwrite_empty (offset : Nat) (data : List α) : overwrite [] offset data = [] :=
  overwrite_of_length_le (Nat.zero_le _) data

/-- Two lists are the same when their entries are. -/
theorem ext_getD {list list' : List α} (d : α) (hlen : list.length = list'.length)
    (h : ∀ i < list.length, list.getD i d = list'.getD i d) : list = list' := by
  refine List.ext_getElem hlen fun i hi hi' => ?_
  have hentry := h i hi
  rwa [List.getD_eq_getElem _ _ hi, List.getD_eq_getElem _ _ hi'] at hentry

theorem overwrite_comm {list data data' : List α} {offset offset' : Nat}
    (h : offset + data.length ≤ offset') :
    overwrite (overwrite list offset data) offset' data' =
      overwrite (overwrite list offset' data') offset data := by
  rcases list with _ | ⟨d, list⟩
  · rw [overwrite_empty, overwrite_empty, overwrite_empty]
  · refine ext_getD d (by simp) fun i _ => ?_
    simp only [getD_overwrite, length_overwrite]
    split
    · next hin => rw [if_neg (by omega)]
    · rfl

/-- Of what is written to one place, the last stays. -/
theorem overwrite_overwrite {list data data' : List α}
    (h : data.length = data'.length) :
    overwrite (overwrite list offset data) offset data' = overwrite list offset data' := by
  rcases list with _ | ⟨d, list⟩
  · rw [overwrite_empty]
  · refine ext_getD d (by simp) fun i _ => ?_
    simp only [getD_overwrite, length_overwrite, h]
    split
    · rfl
    · rfl

theorem readFrom_append [Inhabited α] (front data back : List α) :
    readFrom (front ++ (data ++ back)) front.length data.length = data := by
  refine List.ext_getElem (by simp) fun i _ hi => ?_
  simp only [readFrom, List.getElem_map, List.getElem_range]
  rw [List.getD_append_right _ _ _ _ (by omega), Nat.add_sub_cancel_left,
    List.getD_append _ _ _ _ hi, List.getD_eq_getElem _ _ hi]

/-- The same with the offset, the size and the parts given by equations. -/
theorem readFrom_of_eq [Inhabited α] {list front data back : List α} {offset size : Nat}
    (hlist : list = front ++ (data ++ back)) (hoffset : offset = front.length)
    (hsize : size = data.length) : readFrom list offset size = data := by
  rw [hlist, hoffset, hsize, readFrom_append]

theorem readFrom_overwrite [Inhabited α] {list data : List α}
    (h : offset + data.length ≤ list.length) :
    readFrom (overwrite list offset data) offset data.length = data := by
  refine ext_getD default (length_readFrom _ _ _) fun i hi => ?_
  rw [length_readFrom] at hi
  rw [getD_readFrom hi, getD_overwrite, if_pos (by omega), Nat.add_sub_cancel_left]

end Overwrite
