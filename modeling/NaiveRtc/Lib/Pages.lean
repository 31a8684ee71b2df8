import Mathlib.Data.List.Basic

/-!
# Pieces laid out on pages

Pieces of data are put one after another on pages.  A piece goes on the last page, or on
a new one after it, and is never cut in two; an empty page is not left behind.

* `Laid` — how the pages look after some pieces, given how they looked before.
* `Laid.flatten` — read in order, the pages are what they were, followed by the pieces.
* `Laid.groups_of_empty` — every page holds whole pieces.
-/

variable {α : Type*}

/-- `Laid pages pieces pages'`: putting the pieces on `pages` can lead to `pages'`. -/
inductive Laid : List (List α) → List (List α) → List (List α) → Prop
  | nil (pages : List (List α)) : Laid pages [] pages
  | same {full : List (List α)} {last piece : List α} {pieces pages : List (List α)} :
      Laid (full ++ [last ++ piece]) pieces pages → Laid (full ++ [last]) (piece :: pieces) pages
  | turn {full : List (List α)} {last piece : List α} {pieces pages : List (List α)} :
      last ≠ [] →
      Laid (full ++ [last] ++ [piece]) pieces pages → Laid (full ++ [last]) (piece :: pieces) pages

namespace Laid

theorem trans {pages pages' pages'' pieces pieces' : List (List α)} (h : Laid pages pieces pages')
    (h' : Laid pages' pieces' pages'') : Laid pages (pieces ++ pieces') pages'' := by
  induction h with
  | nil pages => exact h'
  | same _ ih => exact same (ih h')
  | turn hlast _ ih => exact turn hlast (ih h')

theorem of_new_page {full pieces pages : List (List α)} {last : List α} (hlast : last ≠ [])
    (hpieces : pieces ≠ []) (h : Laid (full ++ [last] ++ [[]]) pieces pages) :
    Laid (full ++ [last]) pieces pages := by
  generalize hbefore : full ++ [last] ++ [[]] = before at h
  cases h with
  | nil => exact absurd rfl hpieces
  | same h =>
    obtain ⟨rfl, hnew⟩ := List.append_inj' hbefore rfl
    obtain rfl := List.singleton_inj.mp hnew
    exact turn hlast h
  | turn hnew _ =>
    obtain ⟨-, hempty⟩ := List.append_inj' hbefore rfl
    exact absurd (List.singleton_inj.mp hempty).symm hnew

theorem flatten {pages pieces pages' : List (List α)} (h : Laid pages pieces pages') :
    pages'.flatten = pages.flatten ++ pieces.flatten := by
  induction h with
  | nil pages => simp
  | same _ ih => simpa using ih
  | turn _ _ ih => simpa using ih

/-- Every page holds whole pieces: the last one what it held before and the first of them, each
new one those that come next. -/
theorem groups {full pieces pages : List (List α)} {last : List α}
    (h : Laid (full ++ [last]) pieces pages) :
    ∃ (first : List (List α)) (groups : List (List (List α))),
      pages = full ++ (last ++ first.flatten) :: groups.map List.flatten ∧
        first ++ groups.flatten = pieces := by
  generalize hbefore : full ++ [last] = before at h
  induction h generalizing full last with
  | nil => exact ⟨[], [], by simpa using hbefore.symm, rfl⟩
  | @same full' last' piece pieces pages _ ih =>
    obtain ⟨rfl, hlast⟩ := List.append_inj' hbefore rfl
    obtain rfl := List.singleton_inj.mp hlast
    obtain ⟨first, groups, hpages, hpieces⟩ := ih rfl
    exact ⟨piece :: first, groups, by simpa using hpages, by simpa using hpieces⟩
  | @turn full' last' piece pieces pages _ _ ih =>
    obtain ⟨rfl, hlast⟩ := List.append_inj' hbefore rfl
    obtain rfl := List.singleton_inj.mp hlast
    obtain ⟨first, groups, hpages, hpieces⟩ := @ih (full ++ [last]) piece rfl
    exact ⟨[], (piece :: first) :: groups, by simpa using hpages, by simpa using hpieces⟩

/-- **Pieces on an empty page**: every page is some of them. -/
theorem groups_of_empty {pieces pages : List (List α)} (h : Laid [[]] pieces pages) :
    ∃ groups : List (List (List α)), pages = groups.map List.flatten ∧ groups.flatten = pieces := by
  obtain ⟨first, groups, hpages, hpieces⟩ := @groups α [] pieces pages [] h
  exact ⟨first :: groups, by simpa using hpages, by simpa using hpieces⟩

theorem getLast?_ne_nil {pages pieces pages' : List (List α)} (h : Laid pages pieces pages')
    (hpieces : ∀ piece ∈ pieces, piece ≠ []) (hne : pieces ≠ [] ∨ pages.getLast? ≠ some []) :
    pages'.getLast? ≠ some [] := by
  induction h with
  | nil => simpa using hne
  | same _ ih | turn _ _ ih =>
    rw [List.forall_mem_cons] at hpieces
    exact ih hpieces.2 (.inr (by simp [hpieces.1]))

end Laid
