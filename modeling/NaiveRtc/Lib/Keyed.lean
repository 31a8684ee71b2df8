import Mathlib.Data.List.Nodup

/-!
# Maps as lists

The values of a map in some order, when a value holds its key.  No key is there twice, and looking
up a key finds the value that holds it.

* `find?_key_iff` — looking up.
* `find?_key_congr` — **two lists are one map if they have the same values.**
* `find?_key_map` — a function on the values that keeps the keys changes the map unless it is the
  identity on them.
* `zip_find?` — the values of a second list at the places of the keys of a first one.
-/

namespace Keyed

section Lookup

variable {α β : Type*} [DecidableEq β] {key : α → β} {l l' : List α}

theorem find?_key_iff (h : (l.map key).Nodup) {k : β} {x : α} :
    l.find? (fun y => decide (key y = k)) = some x ↔ x ∈ l ∧ key x = k := by
  induction l with
  | nil => simp
  | cons y l ih =>
    rw [List.map_cons, List.nodup_cons] at h
    obtain ⟨hy, hl⟩ := h
    by_cases hk : key y = k
    · rw [List.find?_cons_of_pos (by simpa using hk), Option.some.injEq, List.mem_cons]
      constructor
      · rintro rfl
        exact ⟨Or.inl rfl, hk⟩
      · rintro ⟨rfl | hmem, hkey⟩
        · rfl
        · exact absurd (hk ▸ hkey ▸ List.mem_map_of_mem hmem) hy
    · rw [List.find?_cons_of_neg (by simpa using hk), ih hl, List.mem_cons]
      constructor
      · rintro ⟨hmem, hkey⟩
        exact ⟨Or.inr hmem, hkey⟩
      · rintro ⟨rfl | hmem, hkey⟩
        · exact absurd hkey hk
        · exact ⟨hmem, hkey⟩

/-- **Two lists are one map exactly if they have the same values.** -/
theorem find?_key_congr (h : (l.map key).Nodup) (h' : (l'.map key).Nodup) :
    (∀ k, l.find? (fun y => decide (key y = k)) = l'.find? fun y => decide (key y = k)) ↔
      ∀ x, x ∈ l ↔ x ∈ l' := by
  constructor
  · intro heq x
    have hx : ∀ {l : List α}, (l.map key).Nodup →
        (x ∈ l ↔ l.find? (fun y => decide (key y = key x)) = some x) := fun hl =>
      ⟨fun hmem => (find?_key_iff hl).2 ⟨hmem, rfl⟩, fun hfind => ((find?_key_iff hl).1 hfind).1⟩
    rw [hx h, hx h', heq]
  · intro hmem k
    refine Option.ext fun x => ?_
    rw [find?_key_iff h, find?_key_iff h', hmem]

/-- A function that keeps the keys changes the map unless it changes no value. -/
theorem find?_key_map {f : α → α} (hf : ∀ x, key (f x) = key x) (h : (l.map key).Nodup) :
    (∀ k, (l.map f).find? (fun y => decide (key y = k)) = l.find? fun y => decide (key y = k)) ↔
      ∀ x ∈ l, f x = x := by
  have hkeys : ((l.map f).map key) = l.map key := by
    rw [List.map_map]
    exact List.map_congr_left fun x _ => hf x
  rw [find?_key_congr (hkeys ▸ h) h]
  constructor
  · intro hmem x hx
    have hfx : f x ∈ l := (hmem (f x)).1 (List.mem_map_of_mem hx)
    exact List.inj_on_of_nodup_map h hfx hx (hf x)
  · intro hid x
    rw [List.map_congr_left hid, List.map_id']

end Lookup

section Places

variable {α β : Type*} [DecidableEq α]

/-- The values at the places of the keys, in the order of the keys. -/
theorem zip_find? {keys : List α} {values : List β} (h : keys.Nodup)
    (hlen : values.length ≤ keys.length) :
    (keys.filterMap fun k => ((keys.zip values).find? fun p => decide (p.1 = k)).map Prod.snd) =
      values := by
  induction keys generalizing values with
  | nil =>
    rw [List.length_nil, Nat.le_zero, List.length_eq_zero_iff] at hlen
    rw [hlen]
    rfl
  | cons k keys ih =>
    rw [List.nodup_cons] at h
    cases values with
    | nil => simp
    | cons v values =>
      have htail : ∀ k' ∈ keys,
          ((((k :: keys).zip (v :: values)).find? fun p => decide (p.1 = k')).map Prod.snd) =
            ((keys.zip values).find? fun p => decide (p.1 = k')).map Prod.snd := by
        intro k' hk'
        rw [List.zip_cons_cons, List.find?_cons_of_neg]
        exact fun heq => h.1 ((of_decide_eq_true heq : k = k') ▸ hk')
      have hhead : (((k :: keys).zip (v :: values)).find? fun p => decide (p.1 = k)).map Prod.snd =
          some v := by
        rw [List.zip_cons_cons, List.find?_cons_of_pos (by simp), Option.map_some]
      have hrest := (List.filterMap_congr htail).trans (ih h.2 (Nat.le_of_succ_le_succ hlen))
      rw [List.filterMap_cons, hhead, hrest]

end Places

end Keyed
