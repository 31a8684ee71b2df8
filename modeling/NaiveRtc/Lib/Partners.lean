import Mathlib.Data.List.Nodup
import Mathlib.Data.Nat.Basic

/-!
# Two lists side by side

The elements of one list belong to the elements of another one by their places.  Removing an
element from one of the two lists moves all places behind it.

* `partner` — the value at the place of a key; `partner_getElem`, `mem_of_partner` — which it is.
* `partner_erase_key_iff` — **removing a key** keeps the partners of the others exactly when it is
  the last key or no value stands from its place on.
* `partner_erase_value_iff` — **removing a value** keeps the partners of all other keys exactly when
  it is the last value or no key stands from its place on.
* `Erasable`, `partner_erase_iff` — both at once, for an element that is in one of the lists.
-/

namespace Partners

variable {α β : Type*} [DecidableEq α]

/-- The value at the place of a key. -/
def partner (keys : List α) (values : List β) (k : α) : Option β :=
  ((keys.zip values).find? fun p => p.1 = k).map Prod.snd

variable {keys : List α} {values : List β}

theorem partner_getElem (h : keys.Nodup) {i : Nat} (hi : i < keys.length) :
    partner keys values keys[i] = values[i]? := by
  induction keys generalizing values i with
  | nil => exact absurd hi (Nat.not_lt_zero i)
  | cons k keys ih =>
    obtain ⟨hk, hkeys⟩ := List.nodup_cons.1 h
    cases values with
    | nil => rfl
    | cons v values =>
      unfold partner
      rw [List.zip_cons_cons]
      cases i with
      | zero => simp
      | succ i =>
        have hlt : i < keys.length := Nat.lt_of_succ_lt_succ hi
        have hne : k ≠ keys[i] := fun heq => hk (heq ▸ List.getElem_mem hlt)
        rw [List.getElem_cons_succ, List.find?_cons_of_neg (by simpa using hne),
          List.getElem?_cons_succ]
        exact ih hkeys hlt

theorem mem_of_partner {k : α} {v : β} (h : partner keys values k = some v) : v ∈ values := by
  obtain ⟨⟨k', v'⟩, hfind, rfl⟩ := Option.map_eq_some_iff.1 h
  exact (List.of_mem_zip (List.mem_of_find?_eq_some hfind)).2

/-- A value that is not there is nobody's partner. -/
theorem filter_partner [DecidableEq β] {v : β} (h : v ∉ values) (k : α) :
    (partner keys values k).filter (· ≠ v) = partner keys values k := by
  cases hpartner : partner keys values k with
  | none => rfl
  | some v' =>
    have hne : v' ≠ v := fun heq => h (heq ▸ mem_of_partner hpartner)
    simp [hne]

theorem getElem?_ne_of_nodup (h : values.Nodup) {i j : Nat} (hi : i < values.length)
    (hne : i ≠ j) : values[i]? ≠ values[j]? := by
  intro heq
  by_cases hj : j < values.length
  · rw [List.getElem?_eq_getElem hi, List.getElem?_eq_getElem hj] at heq
    exact hne ((h.getElem_inj_iff).1 (Option.some.inj heq))
  · rw [List.getElem?_eq_getElem hi, List.getElem?_eq_none (Nat.le_of_not_lt hj)] at heq
    cases heq

theorem partner_erase_key_iff (hkeys : keys.Nodup) (hvalues : values.Nodup) {s : α}
    (hs : s ∈ keys) :
    (∀ k ∈ keys.erase s, partner (keys.erase s) values k = partner keys values k) ↔
      keys.idxOf s + 1 = keys.length ∨ values.length ≤ keys.idxOf s := by
  have hplace := List.idxOf_lt_length_of_mem hs
  have herase : keys.erase s = keys.eraseIdx (keys.idxOf s) :=
    List.erase_eq_eraseIdx_of_idxOf rfl
  have hnodup : (keys.eraseIdx (keys.idxOf s)).Nodup := hkeys.sublist (List.eraseIdx_sublist _ _)
  have hlength := List.length_eraseIdx_of_lt hplace
  rw [herase]
  generalize keys.idxOf s = j at hplace hnodup hlength ⊢
  constructor
  · intro h
    by_contra hnot
    have hnext : j + 1 < keys.length := by omega
    have hvalue : j < values.length := by omega
    have hat : j < (keys.eraseIdx j).length := by omega
    have heq : (keys.eraseIdx j)[j] = keys[j + 1] := List.getElem_eraseIdx_of_ge _ le_rfl
    have hsame := h _ (List.getElem_mem hat)
    rw [partner_getElem hnodup hat, heq, partner_getElem hkeys hnext] at hsame
    exact getElem?_ne_of_nodup hvalues hvalue (Nat.succ_ne_self j).symm hsame
  · intro h k hk
    obtain ⟨i, hi, rfl⟩ := List.getElem_of_mem hk
    rw [partner_getElem hnodup hi]
    rcases Nat.lt_or_ge i j with hlt | hge
    · rw [List.getElem_eraseIdx_of_lt hi hlt, partner_getElem hkeys]
    · rw [List.getElem_eraseIdx_of_ge hi hge, partner_getElem hkeys,
        List.getElem?_eq_none (by omega), List.getElem?_eq_none (by omega)]

theorem partner_erase_value_iff [DecidableEq β] (hkeys : keys.Nodup) (hvalues : values.Nodup)
    {s : β} (hs : s ∈ values) :
    (∀ k ∈ keys, partner keys (values.erase s) k = (partner keys values k).filter (· ≠ s)) ↔
      keys.length ≤ values.idxOf s ∨ values.idxOf s + 1 = values.length := by
  have hplace := List.idxOf_lt_length_of_mem hs
  have hat : values[values.idxOf s]? = some s := List.getElem?_idxOf hs
  have herase : values.erase s = values.eraseIdx (values.idxOf s) :=
    List.erase_eq_eraseIdx_of_idxOf rfl
  have hgone : (some s).filter (· ≠ s) = none := Option.filter_some_neg (by simp)
  rw [herase]
  generalize values.idxOf s = j at hplace hat ⊢
  constructor
  · intro h
    by_contra hnot
    have hkey : j < keys.length := by omega
    have hnext : j + 1 < values.length := by omega
    have hsame := h _ (List.getElem_mem hkey)
    rw [partner_getElem hkeys, partner_getElem hkeys, hat, List.getElem?_eraseIdx_of_ge le_rfl,
      List.getElem?_eq_getElem hnext, hgone] at hsame
    cases hsame
  · intro h k hk
    obtain ⟨i, hi, rfl⟩ := List.getElem_of_mem hk
    rw [partner_getElem hkeys, partner_getElem hkeys]
    rcases Nat.lt_or_ge i j with hlt | hge
    · have hi' : i < values.length := Nat.lt_trans hlt hplace
      have hne := getElem?_ne_of_nodup hvalues hi' (Nat.ne_of_lt hlt)
      rw [hat, List.getElem?_eq_getElem hi'] at hne
      have hother : values[i] ≠ s := fun heq => hne (congrArg some heq)
      rw [List.getElem?_eraseIdx_of_lt hlt, List.getElem?_eq_getElem hi',
        Option.filter_some_pos (by simpa using hother)]
    · rw [List.getElem?_eraseIdx_of_ge hge, List.getElem?_eq_none (by omega)]
      rcases Nat.eq_or_lt_of_le hge with rfl | hgt
      · rw [hat, hgone]
      · rw [List.getElem?_eq_none (by omega)]
        rfl

/-- An element that is last in its list, or that nothing stands beside from its place on. -/
def Erasable (keys values : List α) (s : α) : Prop :=
  (s ∈ keys → keys.idxOf s + 1 = keys.length ∨ values.length ≤ keys.idxOf s) ∧
    (s ∈ values → keys.length ≤ values.idxOf s ∨ values.idxOf s + 1 = values.length)

theorem partner_erase_iff {keys values : List α} (hkeys : keys.Nodup) (hvalues : values.Nodup)
    {s : α} (hdisjoint : s ∈ keys → s ∉ values) :
    (∀ k ∈ keys.erase s,
        partner (keys.erase s) (values.erase s) k = (partner keys values k).filter (· ≠ s)) ↔
      Erasable keys values s := by
  unfold Erasable
  by_cases hk : s ∈ keys
  · have hv := hdisjoint hk
    simp only [List.erase_of_not_mem hv, filter_partner hv]
    rw [partner_erase_key_iff hkeys hvalues hk]
    exact ⟨fun h => ⟨fun _ => h, fun hs => absurd hs hv⟩, fun h => h.1 hk⟩
  · rw [List.erase_of_not_mem hk]
    by_cases hv : s ∈ values
    · rw [partner_erase_value_iff hkeys hvalues hv]
      exact ⟨fun h => ⟨fun hs => absurd hs hk, fun _ => h⟩, fun h => h.2 hv⟩
    · simp only [List.erase_of_not_mem hv, filter_partner hv]
      exact iff_of_true (fun _ _ => trivial) ⟨fun hs => absurd hs hk, fun hs => absurd hs hv⟩

end Partners
