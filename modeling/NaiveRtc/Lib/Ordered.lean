import Mathlib.Data.List.Basic
import Mathlib.Data.List.Pairwise
import Mathlib.Order.Lattice

/-!
# Ordered containers as lists

An ordered set or map under a Boolean comparator, kept as the list of its
entries in iteration order.  The comparator need not be an order on the whole key
type; what the operations do is stated for lists on which it agrees with a
*rank* into a linear order.

* `eraseBelow lt key k` — erase from the begin to the lower bound of `k`.
* `eraseUpTo lt key k` — erase from the begin to the upper bound of `k`.
* `insertBy lt key e` — insert, keeping the entry already stored under the key;
  `assignBy lt key e` — insert, replacing it.
* `insertUpper lt a` — insert into a multiset, behind the entries it is not before;
  `sorted_insertUpper` — which keeps the entries in order of rank.
* `Ranked` — the list is strictly increasing in rank.
* `StrictTotalOn` — the comparator orders the keys of a list.
-/

namespace Ordered

variable {α β γ : Type*}

/-- Erase every entry before the lower bound of `k`: the leading entries whose
key is ordered before `k`. -/
def eraseBelow (lt : α → α → Bool) (key : β → α) (k : α) (l : List β) : List β :=
  l.dropWhile fun e => lt (key e) k

/-- Erase every entry before the upper bound of `k`: the leading entries whose
key is not ordered after `k`. -/
def eraseUpTo (lt : α → α → Bool) (key : β → α) (k : α) (l : List β) : List β :=
  l.dropWhile fun e => !lt k (key e)

/-- Insert an entry at its place, unless its key is there already. -/
def insertBy (lt : α → α → Bool) (key : β → α) (e : β) : List β → List β
  | [] => [e]
  | x :: xs =>
    if lt (key x) (key e) then x :: insertBy lt key e xs
    else if lt (key e) (key x) then e :: x :: xs
    else x :: xs

/-- Store an entry under its key, replacing the one that is there. -/
def assignBy (lt : α → α → Bool) (key : β → α) (e : β) : List β → List β
  | [] => [e]
  | x :: xs =>
    if lt (key x) (key e) then x :: assignBy lt key e xs
    else if lt (key e) (key x) then e :: x :: xs
    else e :: xs

/-- Insert into a multiset or multimap: before the first entry ordered after the new
one, so that equivalent entries stand in the order of their insertion. -/
def insertUpper (lt : α → α → Bool) (a : α) : List α → List α
  | [] => [a]
  | x :: xs => if lt a x then a :: x :: xs else x :: insertUpper lt a xs

/-- The entries are strictly increasing in rank. -/
def Ranked [LT γ] (rank : β → γ) (l : List β) : Prop := l.Pairwise fun x y => rank x < rank y

/-- The comparator is a strict total order on the keys of `l`. -/
structure StrictTotalOn (lt : α → α → Bool) (l : List α) : Prop where
  irrefl : ∀ p ∈ l, lt p p = false
  trans : ∀ p ∈ l, ∀ q ∈ l, ∀ r ∈ l, lt p q = true → lt q r = true → lt p r = true
  total : ∀ p ∈ l, ∀ q ∈ l, p = q ∨ lt p q = true ∨ lt q p = true

variable {lt : α → α → Bool}

/-- A comparator that follows an injective rank is a strict total order. -/
theorem strictTotalOn_of_rank [LinearOrder γ] {l : List α} (rank : α → γ)
    (hlt : ∀ p ∈ l, ∀ q ∈ l, lt p q = true ↔ rank p < rank q)
    (hinj : ∀ p ∈ l, ∀ q ∈ l, rank p = rank q → p = q) : StrictTotalOn lt l where
  irrefl p hp := by
    rw [← Bool.not_eq_true, hlt p hp p hp]
    exact lt_irrefl _
  trans p hp q hq r hr hpq hqr := by
    rw [hlt p hp r hr]
    exact ((hlt p hp q hq).1 hpq).trans ((hlt q hq r hr).1 hqr)
  total p hp q hq := by
    rw [hlt p hp q hq, hlt q hq p hp]
    rcases lt_trichotomy (rank p) (rank q) with h | h | h
    · exact Or.inr (Or.inl h)
    · exact Or.inl (hinj p hp q hq h)
    · exact Or.inr (Or.inr h)

/-! ## What survives an erasure -/

theorem eraseBelow_sublist (lt : α → α → Bool) (key : β → α) (k : α) (l : List β) :
    (eraseBelow lt key k l).Sublist l := List.dropWhile_sublist _

theorem eraseUpTo_sublist (lt : α → α → Bool) (key : β → α) (k : α) (l : List β) :
    (eraseUpTo lt key k l).Sublist l := List.dropWhile_sublist _

variable {key : β → α} {l : List β} {e : β}

theorem mem_of_mem_eraseBelow {k : α}
    (h : e ∈ eraseBelow lt key k l) : e ∈ l := (eraseBelow_sublist lt key k l).subset h

/-- An entry the comparator does not order before `k` is never erased. -/
theorem mem_dropWhile_of_not {p : β → Bool} (h : e ∈ l) (he : p e = false) :
    e ∈ l.dropWhile p := by
  induction l with
  | nil => exact absurd h List.not_mem_nil
  | cons x xs ih =>
    rw [List.dropWhile_cons]
    split
    · rename_i hx
      rcases List.mem_cons.1 h with rfl | hxs
      · rw [he] at hx
        exact absurd hx Bool.false_ne_true
      · exact ih hxs
    · exact h

theorem mem_eraseBelow_of_not_lt {k : α}
    (h : e ∈ l) (he : lt (key e) k = false) : e ∈ eraseBelow lt key k l :=
  mem_dropWhile_of_not h he

section Rank

variable [LinearOrder γ] {rank : β → γ}

theorem Ranked.sublist {l l' : List β} (h : Ranked rank l) (hs : l'.Sublist l) : Ranked rank l' :=
  List.Pairwise.sublist hs h

/-- Dropping the leading entries below a bound drops all of them. -/
theorem mem_dropWhile_iff_of_ranked {p : β → Bool} {c : γ} (h : Ranked rank l)
    (hp : ∀ e ∈ l, p e = decide (rank e < c)) {e : β} :
    e ∈ l.dropWhile p ↔ e ∈ l ∧ c ≤ rank e := by
  induction l with
  | nil => simp
  | cons x xs ih =>
    have hx := List.pairwise_cons.1 h
    have hpx := hp x List.mem_cons_self
    rw [List.dropWhile_cons]
    by_cases hc : rank x < c
    · rw [hpx, decide_eq_true hc, if_pos rfl, ih hx.2 fun e he => hp e (List.mem_cons_of_mem x he)]
      constructor
      · rintro ⟨he, hce⟩
        exact ⟨List.mem_cons_of_mem x he, hce⟩
      · rintro ⟨he, hce⟩
        rcases List.mem_cons.1 he with rfl | he
        · exact absurd hc (not_lt.2 hce)
        · exact ⟨he, hce⟩
    · rw [hpx, decide_eq_false hc, if_neg Bool.false_ne_true]
      refine ⟨fun he => ⟨he, ?_⟩, fun he => he.1⟩
      rcases List.mem_cons.1 he with rfl | hxs
      · exact not_lt.1 hc
      · exact (not_lt.1 hc).trans (hx.1 e hxs).le

/-- **The lower bound cuts at the rank of the key.** -/
theorem mem_eraseBelow_iff {key : β → α} {k : α} {c : γ}
    (h : Ranked rank l) (hlt : ∀ e ∈ l, lt (key e) k = decide (rank e < c)) {e : β} :
    e ∈ eraseBelow lt key k l ↔ e ∈ l ∧ c ≤ rank e :=
  mem_dropWhile_iff_of_ranked h hlt

theorem insertBy_eq_append {key : β → α} {e : β}
    (h : ∀ x ∈ l, lt (key x) (key e) = true) : insertBy lt key e l = l ++ [e] := by
  induction l with
  | nil => rfl
  | cons x xs ih =>
    rw [insertBy, if_pos (h x List.mem_cons_self), ih fun y hy => h y (List.mem_cons_of_mem x hy)]
    rfl

theorem assignBy_eq_append {key : β → α} {e : β}
    (h : ∀ x ∈ l, lt (key x) (key e) = true) : assignBy lt key e l = l ++ [e] := by
  induction l with
  | nil => rfl
  | cons x xs ih =>
    rw [assignBy, if_pos (h x List.mem_cons_self), ih fun y hy => h y (List.mem_cons_of_mem x hy)]
    rfl

end Rank

theorem mem_insertBy {e x : β} (h : x ∈ insertBy lt key e l) : x = e ∨ x ∈ l := by
  induction l with
  | nil => exact Or.inl (by simpa [insertBy] using h)
  | cons y ys ih =>
    rw [insertBy] at h
    split at h
    · rcases List.mem_cons.1 h with rfl | h
      · exact Or.inr List.mem_cons_self
      · exact (ih h).imp id (List.mem_cons_of_mem y)
    · split at h
      · exact (List.mem_cons.1 h).imp id id
      · exact Or.inr h

theorem mem_insertBy_of_mem {e x : β} (h : x ∈ l) : x ∈ insertBy lt key e l := by
  induction l with
  | nil => exact absurd h List.not_mem_nil
  | cons y ys ih =>
    rw [insertBy]
    split
    · rcases List.mem_cons.1 h with rfl | h
      · exact List.mem_cons_self
      · exact List.mem_cons_of_mem y (ih h)
    · split
      · exact List.mem_cons_of_mem e h
      · exact h

/-- A key the comparator tells apart from all others is there after its insertion. -/
theorem mem_insertBy_self {a : α} {l : List α}
    (h : ∀ x ∈ l, lt x a = false → lt a x = false → x = a) : a ∈ insertBy lt id a l := by
  induction l with
  | nil => exact List.mem_singleton_self a
  | cons y ys ih =>
    rw [insertBy]
    split
    · exact List.mem_cons_of_mem y (ih fun x hx => h x (List.mem_cons_of_mem y hx))
    · rename_i hya
      split
      · exact List.mem_cons_self
      · rename_i hay
        rw [h y List.mem_cons_self (by simpa using hya) (by simpa using hay)]
        exact List.mem_cons_self

/-- **Insertion keeps the keys increasing** when the comparator follows the rank. -/
theorem ranked_insertBy [LinearOrder γ] {rank : α → γ}
    (hlt : ∀ x ∈ l, (lt (key x) (key e) = true ↔ rank (key x) < rank (key e)) ∧
      (lt (key e) (key x) = true ↔ rank (key e) < rank (key x)))
    (h : Ranked (fun x => rank (key x)) l) :
      Ranked (fun x => rank (key x)) (insertBy lt key e l) := by
  induction l with
  | nil => exact List.pairwise_singleton _ _
  | cons x xs ih =>
    obtain ⟨hx, hxs⟩ := List.pairwise_cons.mp h
    obtain ⟨hbefore, hafter⟩ := hlt x List.mem_cons_self
    rw [insertBy]
    split
    · rename_i hxe
      refine List.pairwise_cons.mpr ⟨fun y hy =>
        ?_, ih (fun y hy => hlt y (List.mem_cons_of_mem x hy)) hxs⟩
      rcases mem_insertBy hy with rfl | hy
      · exact hbefore.mp hxe
      · exact hx y hy
    · split
      · rename_i hex
        have hex := hafter.mp hex
        refine List.pairwise_cons.mpr ⟨fun y hy => ?_, h⟩
        rcases List.mem_cons.mp hy with rfl | hy
        · exact hex
        · exact hex.trans (hx y hy)
      · exact h

/-- **Insertion adds the entry unless one of its rank is there.** -/
theorem mem_insertBy_iff [LinearOrder γ] {rank : α → γ}
    (hlt : ∀ a b, lt a b = true ↔ rank a < rank b) {e x : β}
    (h : Ranked (fun y => rank (key y)) l) :
    x ∈ insertBy lt key e l ↔ x ∈ l ∨ (x = e ∧ ∀ y ∈ l, rank (key y) ≠ rank (key e)) := by
  induction l with
  | nil => simp [insertBy]
  | cons y ys ih =>
    obtain ⟨hy, hys⟩ := List.pairwise_cons.mp h
    rw [insertBy]
    by_cases hbefore : lt (key y) (key e) = true
    · have hne := ne_of_lt ((hlt _ _).mp hbefore)
      rw [if_pos hbefore, List.mem_cons, ih hys, List.mem_cons, List.forall_mem_cons, or_assoc,
        and_iff_right hne]
    rw [if_neg hbefore]
    by_cases hafter : lt (key e) (key y) = true
    · have hlt' := (hlt _ _).mp hafter
      have hall : ∀ z ∈ y :: ys, rank (key z) ≠ rank (key e) := by
        intro z hz
        rcases List.mem_cons.mp hz with rfl | hz
        · exact ne_of_gt hlt'
        · exact ne_of_gt (hlt'.trans (hy z hz))
      rw [if_pos hafter, List.mem_cons, and_iff_left hall, or_comm]
    · have heq : rank (key y) = rank (key e) := by
        rw [hlt] at hbefore hafter
        exact le_antisymm (not_lt.mp hafter) (not_lt.mp hbefore)
      rw [if_neg hafter]
      refine ⟨.inl, ?_⟩
      rintro (hx | ⟨-, hnone⟩)
      · exact hx
      · exact absurd heq (hnone y List.mem_cons_self)

theorem insertBy_perm (h : ∀ x ∈ l, lt (key x) (key e) = false → lt (key e) (key x) = true) :
    (insertBy lt key e l).Perm (e :: l) := by
  induction l with
  | nil => exact List.Perm.refl _
  | cons x xs ih =>
    rw [insertBy]
    split
    · exact ((ih fun y hy => h y (List.mem_cons_of_mem x hy)).cons x).trans (List.Perm.swap e x xs)
    · rename_i hxe
      rw [if_pos (h x List.mem_cons_self (by simpa using hxe))]

theorem length_insertBy_le (lt : α → α → Bool) (key : β → α) (e : β) (l : List β) :
    (insertBy lt key e l).length ≤ l.length + 1 := by
  induction l with
  | nil => exact Nat.le_refl 1
  | cons x xs ih =>
    rw [insertBy]
    split
    · exact Nat.succ_le_succ ih
    · split
      · exact Nat.le_refl _
      · exact Nat.le_succ _

theorem mem_assignBy {e x : β} (h : x ∈ assignBy lt key e l) : x = e ∨ x ∈ l := by
  induction l with
  | nil => exact Or.inl (List.mem_singleton.mp h)
  | cons y ys ih =>
    rw [assignBy] at h
    split at h
    · rcases List.mem_cons.mp h with rfl | h
      · exact Or.inr List.mem_cons_self
      · exact (ih h).imp_right (List.mem_cons_of_mem y)
    · split at h
      · exact List.mem_cons.mp h
      · exact (List.mem_cons.mp h).imp_right (List.mem_cons_of_mem y)

/-- Where no entry has the key, storing it is inserting it. -/
theorem assignBy_eq_insertBy (h : ∀ x ∈ l, lt (key x) (key e) = false → lt (key e) (key x) = true) :
    assignBy lt key e l = insertBy lt key e l := by
  induction l with
  | nil => rfl
  | cons x xs ih =>
    rw [assignBy, insertBy, ih fun y hy => h y (List.mem_cons_of_mem x hy)]
    split
    · rfl
    · rename_i hxe
      rw [if_pos (h x List.mem_cons_self (by simpa using hxe)),
        if_pos (h x List.mem_cons_self (by simpa using hxe))]

/-- Two comparators that agree on the entries insert at the same place. -/
theorem map_insertBy {δ : Type*} {lt' : δ → δ → Bool} {f : β → δ}
    (h : ∀ x ∈ l, lt' (f x) (f e) = lt (key x) (key e) ∧
      lt' (f e) (f x) = lt (key e) (key x)) :
    (insertBy lt key e l).map f = insertBy lt' id (f e) (l.map f) := by
  induction l with
  | nil => rfl
  | cons x xs ih =>
    obtain ⟨hxe, hex⟩ := h x List.mem_cons_self
    rw [List.map_cons, insertBy, insertBy, id, id, hxe, hex,
      ← ih fun y hy => h y (List.mem_cons_of_mem x hy)]
    split
    · rfl
    · split <;> rfl

/-- An increasing list maps to `k` first and nowhere else, exactly if the least of its
elements that map at all is the one that maps to `k`. -/
theorem head?_filterMap_iff [LinearOrder γ] {rank : β → γ} {f : β → Option α} {k : α}
    (h : Ranked rank l) :
    ((l.filterMap f).head? = some k ∧ k ∉ (l.filterMap f).tail) ↔
      ∃ a ∈ l, f a = some k ∧ ∀ b ∈ l, b ≠ a → ∀ k', f b = some k' → rank a < rank b ∧ k' ≠ k := by
  induction l with
  | nil => simp
  | cons x xs ih =>
    obtain ⟨hx, hxs⟩ := List.pairwise_cons.mp h
    cases hfx : f x with
    | none =>
      rw [List.filterMap_cons_none hfx, ih hxs]
      constructor
      · rintro ⟨a, ha, hfa, hothers⟩
        refine ⟨a, List.mem_cons_of_mem x ha, hfa, fun b hb hne k' hfb => ?_⟩
        rcases List.mem_cons.mp hb with rfl | hb
        · rw [hfx] at hfb
          exact absurd hfb (by simp)
        · exact hothers b hb hne k' hfb
      · rintro ⟨a, ha, hfa, hothers⟩
        rcases List.mem_cons.mp ha with rfl | ha
        · rw [hfx] at hfa
          exact absurd hfa (by simp)
        · exact ⟨a, ha, hfa, fun b hb => hothers b (List.mem_cons_of_mem x hb)⟩
    | some k₀ =>
      rw [List.filterMap_cons_some hfx, List.head?_cons, List.tail_cons, Option.some.injEq]
      constructor
      · rintro ⟨rfl, hnone⟩
        refine ⟨x, List.mem_cons_self, hfx, fun b hb hne k' hfb => ?_⟩
        have hb := (List.mem_cons.mp hb).resolve_left hne
        refine ⟨hx b hb, ?_⟩
        rintro rfl
        exact hnone (List.mem_filterMap.mpr ⟨b, hb, hfb⟩)
      · rintro ⟨a, ha, hfa, hothers⟩
        rcases List.mem_cons.mp ha with rfl | ha
        · rw [hfx] at hfa
          refine ⟨Option.some.inj hfa, fun hmem => ?_⟩
          obtain ⟨b, hb, hfb⟩ := List.mem_filterMap.mp hmem
          have hne : b ≠ a := by
            rintro rfl
            exact lt_irrefl _ (hx b hb)
          exact (hothers b (List.mem_cons_of_mem a hb) hne k hfb).2 rfl
        · have hne : x ≠ a := by
            rintro rfl
            exact lt_irrefl _ (hx x ha)
          have hlt := (hothers x List.mem_cons_self hne k₀ hfx).1
          exact absurd (hx a ha) (lt_asymm hlt)

/-! ## Multisets -/

theorem insertUpper_perm (lt : α → α → Bool) (a : α) (l : List α) :
    (insertUpper lt a l).Perm (a :: l) := by
  induction l with
  | nil => exact List.Perm.refl _
  | cons x xs ih =>
    rw [insertUpper]
    split
    · exact List.Perm.refl _
    · exact (ih.cons x).trans (List.Perm.swap a x xs)

theorem mem_insertUpper {a x : α} {l : List α} :
    x ∈ insertUpper lt a l ↔ x = a ∨ x ∈ l := by
  rw [(insertUpper_perm lt a l).mem_iff, List.mem_cons]

/-- **Insertion keeps the order** when the comparator follows a rank. -/
theorem sorted_insertUpper [LinearOrder γ] {rank : α → γ}
    (hlt : ∀ x y, lt x y = true ↔ rank x < rank y) {a : α} {l : List α}
    (h : l.Pairwise fun x y => rank x ≤ rank y) :
    (insertUpper lt a l).Pairwise fun x y => rank x ≤ rank y := by
  induction l with
  | nil => exact List.pairwise_singleton _ _
  | cons x xs ih =>
    obtain ⟨hx, hxs⟩ := List.pairwise_cons.mp h
    rw [insertUpper]
    split
    · rename_i hax
      have hax := (hlt a x).mp hax
      refine List.pairwise_cons.mpr ⟨fun y hy => ?_, h⟩
      rcases List.mem_cons.mp hy with rfl | hy
      · exact hax.le
      · exact hax.le.trans (hx y hy)
    · rename_i hax
      refine List.pairwise_cons.mpr ⟨fun y hy => ?_, ih hxs⟩
      rcases mem_insertUpper.mp hy with rfl | hy
      · exact not_lt.mp fun hlt' => hax ((hlt _ _).mpr hlt')
      · exact hx y hy

/-- **First in, first out**: when what has come out so far is the beginning of what went
in, in strictly increasing order, the least of what is left comes next. -/
theorem prefix_concat_of_least {α κ : Type*} [LinearOrder κ] {f : α → κ} {l out rest : List α}
    {x : α}
    (hsorted : l.Pairwise fun a b => f a < f b) (hperm : l.Perm (out ++ rest)) (hpre : out <+: l)
    (hx : x ∈ rest) (hleast : ∀ y ∈ rest, f x ≤ f y) : out ++ [x] <+: l := by
  obtain ⟨tail, rfl⟩ := hpre
  have hrest : tail.Perm rest := (List.perm_append_left_iff out).mp hperm
  cases tail with
  | nil =>
    rw [← hrest.mem_iff] at hx
    cases hx
  | cons y tail =>
    have hy : f x ≤ f y := hleast y (hrest.mem_iff.mp List.mem_cons_self)
    have heq : x = y := by
      rcases List.mem_cons.mp (hrest.mem_iff.mpr hx) with rfl | hmem
      · rfl
      · have hlt := List.rel_of_pairwise_cons (List.pairwise_append.mp hsorted).2.1 hmem
        exact absurd hy (not_le.mpr hlt)
    rw [heq]
    exact ⟨tail, by simp⟩

end Ordered
