import NaiveRtc.Lib.Machine

/-!
# Machines whose steps can fail

A checked machine either takes an input to a new state and an output, or stops with a
failure.  This file fixes its runs and proves what leads from one step to a whole run.

* `run` — the state a run ends in with its outputs, or the failure that stopped it;
  `run_append_ok_iff`, `run_concat_ok_iff` cut a run that did not fail.
* `invariant_run` — **what every step keeps**, of the state and of all that happened so
  far, holds at the end of every run.
* `run_error_iff` — a run fails where a step of it does.
* `forall_prefix_iff` — what is said of every step of a run that does not fail before it, turned
  into a condition on the inputs.
-/

/-- A machine with failures in `ε`. -/
structure CheckedMachine (σ ι ο ε : Type*) where
  /-- One step. -/
  step : σ → ι → Except ε (σ × ο)

namespace CheckedMachine

variable {σ ι ο ε : Type*} (M : CheckedMachine σ ι ο ε)

/-- The run over some inputs: the last state and all outputs. -/
def run (s : σ) : List ι → Except ε (σ × List ο)
  | [] => .ok (s, [])
  | i :: is =>
    match M.step s i with
    | .error e => .error e
    | .ok (s', o) => (run s' is).map fun rest => (rest.1, o :: rest.2)

variable {M}

theorem map_ok {α β : Type*} {x : Except ε α} {f : α → β} {b : β} (h : x.map f = .ok b) :
    ∃ a, x = .ok a ∧ f a = b := by
  cases x with
  | error e => cases h
  | ok a =>
    cases h
    exact ⟨a, rfl, rfl⟩

theorem map_map {α β γ : Type*} (x : Except ε α) (f : α → β) (g : β → γ) :
    (x.map f).map g = x.map fun a => g (f a) := by
  cases x <;> rfl

theorem map_error {α β : Type*} {x : Except ε α} {f : α → β} {e : ε} (h : x.map f = .error e) :
    x = .error e := by
  cases x with
  | error e' =>
    cases h
    rfl
  | ok a => cases h

theorem bind_ok {α β : Type _} {x : Except ε α} {f : α → Except ε β} {b : β}
    (h : x >>= f = .ok b) : ∃ a, x = .ok a ∧ f a = .ok b := by
  cases x with
  | error e => cases h
  | ok a => exact ⟨a, rfl, h⟩

theorem run_cons_of_error {s : σ} {i : ι} {e : ε} (h : M.step s i = .error e) (is : List ι) :
    M.run s (i :: is) = .error e := by
  rw [run, h]

theorem run_cons_of_ok {s s' : σ} {i : ι} {o : ο} (h : M.step s i = .ok (s', o)) (is : List ι) :
    M.run s (i :: is) = (M.run s' is).map fun rest => (rest.1, o :: rest.2) := by
  rw [run, h]

variable {os : List ο} {is : List ι}

theorem run_cons_ok_iff {s last : σ} {i : ι} :
    M.run s (i :: is) = .ok (last, os) ↔
      ∃ s' o os', M.step s i = .ok (s', o) ∧ M.run s' is = .ok (last, os') ∧ os = o :: os' := by
  constructor
  · intro h
    cases hstep : M.step s i with
    | error e =>
      rw [run_cons_of_error hstep] at h
      cases h
    | ok next =>
      rw [run_cons_of_ok hstep] at h
      cases hrun : M.run next.1 is with
      | error e =>
        rw [hrun] at h
        cases h
      | ok rest =>
        rw [hrun] at h
        cases h
        exact ⟨next.1, next.2, rest.2, rfl, hrun, rfl⟩
  · rintro ⟨s', o, os', hstep, hrun, rfl⟩
    rw [run_cons_of_ok hstep, hrun]
    rfl

theorem run_append_ok_iff {s last : σ} {is js : List ι} :
    M.run s (is ++ js) = .ok (last, os) ↔
      ∃ mid os₁ os₂, M.run s is = .ok (mid, os₁) ∧ M.run mid js = .ok (last, os₂) ∧
        os = os₁ ++ os₂ := by
  induction is generalizing s os with
  | nil =>
    constructor
    · exact fun h => ⟨s, [], os, rfl, h, rfl⟩
    · rintro ⟨_, _, _, ⟨⟩, h, rfl⟩
      exact h
  | cons i is ih =>
    rw [List.cons_append, run_cons_ok_iff]
    constructor
    · rintro ⟨s', o, os', hstep, hrun, rfl⟩
      obtain ⟨mid, os₁, os₂, hrun₁, hrun₂, rfl⟩ := ih.1 hrun
      exact ⟨mid, o :: os₁, os₂, run_cons_ok_iff.2 ⟨s', o, os₁, hstep, hrun₁, rfl⟩, hrun₂, rfl⟩
    · rintro ⟨mid, os₁, os₂, hrun, hrun₂, rfl⟩
      obtain ⟨s', o, os', hstep, hrun₁, rfl⟩ := run_cons_ok_iff.1 hrun
      exact ⟨s', o, os' ++ os₂, hstep, ih.2 ⟨mid, os', os₂, hrun₁, hrun₂, rfl⟩, rfl⟩

theorem run_concat_ok_iff {s last : σ} {done : List ι} {i : ι} :
    M.run s (done ++ [i]) = .ok (last, os) ↔
      ∃ mid os₁ o, M.run s done = .ok (mid, os₁) ∧ M.step mid i = .ok (last, o) ∧
        os = os₁ ++ [o] := by
  rw [run_append_ok_iff]
  constructor
  · rintro ⟨mid, os₁, os₂, hrun, hlast, rfl⟩
    obtain ⟨s', o, os', hstep, hnil, rfl⟩ := run_cons_ok_iff.1 hlast
    cases hnil
    exact ⟨mid, os₁, o, hrun, hstep, rfl⟩
  · rintro ⟨mid, os₁, o, hrun, hstep, rfl⟩
    exact ⟨mid, os₁, [o], hrun, run_cons_ok_iff.2 ⟨last, o, [], hstep, rfl, rfl⟩, rfl⟩

/-- **The invariant rule.**  `P` speaks about the inputs and the outputs so far and the current
state. -/
theorem invariant_run {P : List ι → List ο → σ → Prop} {s : σ} (hstart : P [] [] s)
    (hstep : ∀ done os mid i s' o, P done os mid → M.step mid i = .ok (s', o) →
      P (done ++ [i]) (os ++ [o]) s') {last : σ}
    (hrun : M.run s is = .ok (last, os)) : P is os last := by
  induction is using List.reverseRecOn generalizing last os with
  | nil =>
    cases hrun
    exact hstart
  | append_singleton done i ih =>
    obtain ⟨mid, os₁, o, hdone, hlast, rfl⟩ := run_concat_ok_iff.1 hrun
    exact hstep done os₁ mid i last o (ih hdone) hlast

theorem run_error_iff {s : σ} {e : ε} :
    M.run s is = .error e ↔
      ∃ done i mid os, done ++ [i] <+: is ∧ M.run s done = .ok (mid, os) ∧
        M.step mid i = .error e := by
  induction is generalizing s with
  | nil =>
    constructor
    · intro h
      cases h
    · rintro ⟨done, i, _, _, hpre, -⟩
      simp at hpre
  | cons i is ih =>
    cases hstep : M.step s i with
    | error e' =>
      rw [run_cons_of_error hstep]
      constructor
      · rintro ⟨⟩
        exact ⟨[], i, s, [], ⟨is, rfl⟩, rfl, hstep⟩
      · rintro ⟨done, j, mid, os, hpre, hrun, hfail⟩
        cases done with
        | nil =>
          cases hrun
          obtain ⟨rfl, -⟩ := List.cons_prefix_cons.1 hpre
          cases hstep.symm.trans hfail
          rfl
        | cons k done =>
          obtain ⟨rfl, -⟩ := List.cons_prefix_cons.1 hpre
          obtain ⟨_, _, _, hok, -⟩ := run_cons_ok_iff.1 hrun
          exact absurd (hstep.symm.trans hok) (by simp)
    | ok next =>
      have hrest : M.run s (i :: is) = .error e ↔ M.run next.1 is = .error e := by
        rw [run_cons_of_ok hstep]
        cases M.run next.1 is <;> simp [Except.map]
      refine hrest.trans (ih.trans ⟨?_, ?_⟩)
      · rintro ⟨done, j, mid, os, hpre, hrun, hfail⟩
        exact ⟨i :: done, j, mid, next.2 :: os, List.cons_prefix_cons.2 ⟨rfl, hpre⟩,
          run_cons_ok_iff.2 ⟨next.1, next.2, os, hstep, hrun, rfl⟩, hfail⟩
      · rintro ⟨done, j, mid, os, hpre, hrun, hfail⟩
        cases done with
        | nil =>
          cases hrun
          obtain ⟨rfl, -⟩ := List.cons_prefix_cons.1 hpre
          exact absurd (hstep.symm.trans hfail) (by simp)
        | cons k done =>
          obtain ⟨rfl, hpre'⟩ := List.cons_prefix_cons.1 hpre
          obtain ⟨s', o, os', hok, hrest', rfl⟩ := run_cons_ok_iff.1 hrun
          cases hstep.symm.trans hok
          exact ⟨done, j, mid, os', hpre', hrest', hfail⟩

/-- Under an invariant that the steps with a condition keep, a property of each step that is the
condition there holds along a run exactly when the condition does. -/
theorem forall_prefix_iff {A G : List ι → ι → Prop} {P : List ι → σ → ι → Prop}
    {Inv : List ι → σ → Prop}
    (hiff : ∀ done s i, Inv done s → A done i → (P done s i ↔ G done i))
    (hkeep : ∀ done s i, Inv done s → A done i → G done i →
      ∃ s' o, M.step s i = .ok (s', o) ∧ Inv (done ++ [i]) s')
    {s : σ} (hstart : Inv [] s) (hallowed : ∀ done i, done ++ [i] <+: is → A done i) :
    (∀ done i, done ++ [i] <+: is → ∃ mid os, M.run s done = .ok (mid, os) ∧ P done mid i) ↔
      ∀ done i, done ++ [i] <+: is → G done i := by
  have hboth : ((∀ done i, done ++ [i] <+: is →
        ∃ mid os, M.run s done = .ok (mid, os) ∧ P done mid i) ↔
        ∀ done i, done ++ [i] <+: is → G done i) ∧
      ((∀ done i, done ++ [i] <+: is → G done i) →
        ∃ mid os, M.run s is = .ok (mid, os) ∧ Inv is mid) := by
    induction is using List.reverseRecOn with
    | nil =>
      refine ⟨⟨fun _ done i hpre => ?_, fun _ done i hpre => ?_⟩, fun _ => ⟨s, [], rfl, hstart⟩⟩ <;>
        exact absurd (List.prefix_nil.1 hpre) (by simp)
    | append_singleton is j ih =>
      rw [Machine.forall_prefix_concat_iff] at hallowed
      obtain ⟨hiff', hrun⟩ := ih hallowed.1
      simp only [Machine.forall_prefix_concat_iff]
      constructor
      · rw [hiff']
        refine and_congr_right fun hgood => ?_
        obtain ⟨mid, os, hmid, hinv⟩ := hrun hgood
        constructor
        · rintro ⟨mid', os', hmid', hP⟩
          cases hmid.symm.trans hmid'
          exact (hiff is mid j hinv hallowed.2).1 hP
        · exact fun hG => ⟨mid, os, hmid, (hiff is mid j hinv hallowed.2).2 hG⟩
      · rintro ⟨hgood, hlast⟩
        obtain ⟨mid, os, hmid, hinv⟩ := hrun hgood
        obtain ⟨s', o, hstep, hinv'⟩ := hkeep is mid j hinv hallowed.2 hlast
        exact ⟨s', os ++ [o], run_concat_ok_iff.2 ⟨mid, os, o, hmid, hstep, rfl⟩, hinv'⟩
  exact hboth.1

end CheckedMachine
