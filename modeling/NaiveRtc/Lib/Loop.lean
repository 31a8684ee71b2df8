import Mathlib.Order.WellFounded

/-!
# Loops that may fail or go on forever

A loop repeats a body that may fail, that may leave the loop, or that may ask for another pass.  It
is run with so many passes at most.

* `Pass`, `Outcome`, `run` — a pass, what the loop comes to, and the loop.
* `run_mono` — more fuel does not change what a loop comes to.
* `run_total` — **a loop ends** when an invariant holds and something becomes less in every pass.
* `run_endless` — **a loop does not end** when an invariant holds under which the body never leaves.
-/

namespace Loop

/-- How a pass ends. -/
inductive Pass (σ : Type*)
  | again (s : σ)
  | leave (s : σ)
  deriving DecidableEq

/-- What a computation comes to. -/
inductive Outcome (α : Type*)
  | done (a : α)
  | failed
  | outOfFuel
  deriving DecidableEq

/-- The result is worked on. -/
def Outcome.map {α β : Type*} (f : α → β) : Outcome α → Outcome β
  | done a => done (f a)
  | failed => failed
  | outOfFuel => outOfFuel

section

variable {σ : Type*} (body : σ → Option (Pass σ))

/-- The loop, with so many passes at most. -/
def run : Nat → σ → Outcome σ
  | 0, _ => .outOfFuel
  | fuel + 1, s =>
    match body s with
    | none => .failed
    | some (.leave s) => .done s
    | some (.again s) => run fuel s

variable {body}

/-- More fuel changes nothing once the loop has ended. -/
theorem run_mono {fuel : Nat} {s : σ} (h : run body fuel s ≠ .outOfFuel) {fuel' : Nat}
    (hle : fuel ≤ fuel') : run body fuel' s = run body fuel s := by
  induction fuel generalizing s fuel' with
  | zero => exact absurd rfl h
  | succ fuel ih =>
    obtain ⟨more, rfl⟩ : ∃ more, fuel' = more + 1 := ⟨fuel' - 1, by omega⟩
    unfold run at h ⊢
    cases hbody : body s with
    | none => rfl
    | some pass =>
      cases pass with
      | leave s => rfl
      | again s =>
        rw [hbody] at h
        exact ih h (by omega)

/-- **A loop ends** in a state that its last pass leaves, when every pass keeps the invariant and
makes the measure less. -/
theorem run_total {α : Type*} [Preorder α] [WellFoundedLT α] (measure : σ → α)
    {Inv Post : σ → Prop}
    (hbody : ∀ s, Inv s → ∃ pass, body s = some pass ∧
      (∀ s', pass = .again s' → Inv s' ∧ measure s' < measure s) ∧
      ∀ s', pass = .leave s' → Post s')
    {s : σ} (hs : Inv s) : ∃ fuel s', run body fuel s = .done s' ∧ Post s' := by
  induction hm : measure s using WellFoundedLT.induction generalizing s with
  | ind m ih =>
    obtain ⟨pass, hpass, hagain, hleave⟩ := hbody s hs
    cases pass with
    | leave s' => exact ⟨1, s', by simp [run, hpass], hleave s' rfl⟩
    | again s' =>
      obtain ⟨hinv, hlt⟩ := hagain s' rfl
      obtain ⟨fuel, t, hrun, hpost⟩ := ih (measure s') (hm ▸ hlt) hinv rfl
      exact ⟨fuel + 1, t, by simp [run, hpass, hrun], hpost⟩

/-- **A loop does not end** when the body asks for another pass wherever the invariant holds. -/
theorem run_endless (Inv : σ → Prop)
    (hbody : ∀ s, Inv s → ∃ s', body s = some (.again s') ∧ Inv s') (fuel : Nat) {s : σ}
    (hs : Inv s) : run body fuel s = .outOfFuel := by
  induction fuel generalizing s with
  | zero => rfl
  | succ fuel ih =>
    obtain ⟨s', hpass, hinv⟩ := hbody s hs
    simp [run, hpass, ih hinv]

end

end Loop
