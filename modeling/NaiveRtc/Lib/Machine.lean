import Mathlib.Data.List.Basic
import Mathlib.Data.List.Induction

/-!
# Deterministic machines and their runs

A machine is a step function that takes a state and an input to a new state and
an output.  This file fixes what a run of a machine is and proves the rules that
lead from one step to a whole run.

* `final`, `log` — the state a run ends in, and the list of inputs it consumed,
  each with the output it produced; `final_append`, `log_append` cut a run in two.
* `AllGood` — every step of the run met a condition on the input and the state
  before it.
* `invariant_final` — a state predicate kept by every good step holds at the end
  of every good run; `invariant_of_step` for one that every step keeps;
  `allGood_iff_of_allowed` for a condition that is met exactly by the good steps, and
  `forall_prefix_iff_of_invariant` when the conditions speak about the inputs so far.
* `forall_prefix_iff_allGood` — all states of a run, as a condition on its steps.
* `refines_iff_allGood` — when all states of a run agree with an abstract machine.
-/

/-- A deterministic machine: `step s i` is the next state and the output. -/
structure Machine (σ ι ο : Type*) where
  /-- One step. -/
  step : σ → ι → σ × ο

namespace Machine

variable {σ ι ο : Type*} (M : Machine σ ι ο)

/-- The state a run ends in. -/
def final (s : σ) : List ι → σ
  | [] => s
  | i :: is => final (M.step s i).1 is

/-- What happened during a run: every input with the output it produced. -/
def log (s : σ) : List ι → List (ι × ο)
  | [] => []
  | i :: is => (i, (M.step s i).2) :: log (M.step s i).1 is

/-- Every step of the run meets `Good`, a condition on the input and on the
state before the step. -/
def AllGood (Good : σ → ι → Prop) (s : σ) : List ι → Prop
  | [] => True
  | i :: is => Good s i ∧ AllGood Good (M.step s i).1 is

instance decidableAllGood {Good : σ → ι → Prop} [∀ s i, Decidable (Good s i)] (s : σ) :
    ∀ is, Decidable (M.AllGood Good s is)
  | [] => .isTrue trivial
  | i :: is =>
    have : Decidable (M.AllGood Good (M.step s i).1 is) := decidableAllGood (M.step s i).1 is
    inferInstanceAs (Decidable (Good s i ∧ M.AllGood Good (M.step s i).1 is))

@[simp] theorem final_nil (s : σ) : M.final s [] = s := rfl

@[simp] theorem final_cons (s : σ) (i : ι) (is : List ι) :
    M.final s (i :: is) = M.final (M.step s i).1 is := rfl

@[simp] theorem log_nil (s : σ) : M.log s [] = [] := rfl

@[simp] theorem log_cons (s : σ) (i : ι) (is : List ι) :
    M.log s (i :: is) = (i, (M.step s i).2) :: M.log (M.step s i).1 is := rfl

theorem final_append (s : σ) (is js : List ι) :
    M.final s (is ++ js) = M.final (M.final s is) js := by
  induction is generalizing s with
  | nil => rfl
  | cons i is ih => exact ih _

theorem log_append (s : σ) (is js : List ι) :
    M.log s (is ++ js) = M.log s is ++ M.log (M.final s is) js := by
  induction is generalizing s with
  | nil => rfl
  | cons i is ih => simp [ih]

variable {is : List ι}

theorem mem_log_iff {s : σ} {x : ι × ο} :
    x ∈ M.log s is ↔ ∃ pre i post, is = pre ++ i :: post ∧
      x = (i, (M.step (M.final s pre) i).2) := by
  induction is generalizing s with
  | nil => simp
  | cons i is ih =>
    rw [log_cons, List.mem_cons, ih]
    constructor
    · rintro (rfl | ⟨pre, j, post, rfl, rfl⟩)
      · exact ⟨[], i, is, rfl, rfl⟩
      · exact ⟨i :: pre, j, post, rfl, rfl⟩
    · rintro ⟨pre, j, post, heq, rfl⟩
      cases pre with
      | nil =>
        obtain ⟨rfl, rfl⟩ := List.cons.inj heq
        exact Or.inl rfl
      | cons k pre =>
        obtain ⟨rfl, rfl⟩ := List.cons.inj heq
        exact Or.inr ⟨pre, j, post, rfl, rfl⟩

theorem allGood_append (Good : σ → ι → Prop) (s : σ) (is js : List ι) :
    M.AllGood Good s (is ++ js) ↔ M.AllGood Good s is ∧ M.AllGood Good (M.final s is) js := by
  induction is generalizing s with
  | nil => simp [AllGood]
  | cons i is ih => simp [AllGood, ih, and_assoc]

variable {Good : σ → ι → Prop}

theorem allGood_of_forall (h : ∀ s i, Good s i) (s : σ) (is : List ι) :
    M.AllGood Good s is := by
  induction is generalizing s with
  | nil => trivial
  | cons i is ih => exact ⟨h s i, ih _⟩

/-- A condition on the inputs alone is one on the inputs. -/
theorem allGood_inputs {Good : ι → Prop} {s : σ} :
    M.AllGood (fun _ i => Good i) s is ↔ ∀ i ∈ is, Good i := by
  induction is generalizing s with
  | nil => simp [AllGood]
  | cons i is ih => rw [AllGood, ih, List.forall_mem_cons]

/-- **The invariant rule with a history.**  `P h s` speaks about the log so far
and the current state; if every good step keeps it, every good run does. -/
theorem invariant_log {P : List (ι × ο) → σ → Prop}
    (hstep : ∀ h s i, P h s → Good s i → P (h ++ [(i, (M.step s i).2)]) (M.step s i).1)
    {h : List (ι × ο)} {s : σ} (hs : P h s) (hg : M.AllGood Good s is) :
    P (h ++ M.log s is) (M.final s is) := by
  induction is generalizing h s with
  | nil => simpa using hs
  | cons i is ih =>
    have := ih (hstep h s i hs hg.1) hg.2
    simpa using this

theorem log_map_fst (s : σ) (is : List ι) : (M.log s is).map Prod.fst = is := by
  induction is generalizing s with
  | nil => rfl
  | cons i is ih => simp [ih]

/-- The invariant rule for a predicate on the inputs consumed so far. -/
theorem invariant_inputs {P : List ι → σ → Prop}
    (hstep : ∀ h s i, P h s → Good s i → P (h ++ [i]) (M.step s i).1) {s : σ} (hs : P [] s)
    (hg : M.AllGood Good s is) : P is (M.final s is) := by
  have := M.invariant_log (P := fun h s => P (h.map Prod.fst) s) (h := [])
    (fun h s i hP hgood => by simpa using hstep _ s i hP hgood) hs hg
  simpa [M.log_map_fst] using this

variable {Good : σ → ι → Prop} {s : σ}

/-- **The invariant rule.**  A predicate kept by every good step holds at the
end of every good run. -/
theorem invariant_final {P : σ → Prop}
    (hstep : ∀ s i, P s → Good s i → P (M.step s i).1) (hs : P s) {is : List ι}
    (hg : M.AllGood Good s is) : P (M.final s is) :=
  M.invariant_log (P := fun _ s => P s) (fun _ s i => hstep s i) (h := []) hs hg

/-- The invariant rule for a predicate that every step keeps. -/
theorem invariant_of_step (P : σ → Prop) (hstep : ∀ s i, P s → P (M.step s i).1) (hs : P s)
    (is : List ι) : P (M.final s is) :=
  M.invariant_final (P := P) (fun s i h _ => hstep s i h) hs
    (M.allGood_of_forall (fun _ _ => True.intro) s is)

/-- Under an invariant that good steps keep, a condition that agrees with goodness step by step
agrees with it along every run of allowed steps. -/
theorem allGood_iff_of_allowed {P Good Allowed : σ → ι → Prop} {I : σ → Prop}
    (hinv : ∀ s i, I s → Allowed s i → Good s i → I (M.step s i).1)
    (hiff : ∀ s i, I s → Allowed s i → (P s i ↔ Good s i)) (hs : I s) {is : List ι}
    (hallowed : M.AllGood Allowed s is) : M.AllGood P s is ↔ M.AllGood Good s is := by
  induction is generalizing s with
  | nil => exact Iff.rfl
  | cons i is ih =>
    unfold AllGood
    rw [hiff s i hs hallowed.1]
    exact and_congr_right fun h => ih (hinv s i hs hallowed.1 h) hallowed.2

theorem allGood_iff_of_invariant {P Good : σ → ι → Prop} {I : σ → Prop}
    (hinv : ∀ s i, I s → Good s i → I (M.step s i).1)
    (hiff : ∀ s i, I s → (P s i ↔ Good s i)) (hs : I s) (is : List ι) :
    M.AllGood P s is ↔ M.AllGood Good s is :=
  have hallowed : M.AllGood (fun _ _ => True) s is := M.allGood_of_forall (fun _ _ => trivial) s is
  M.allGood_iff_of_allowed (fun s i h _ => hinv s i h) (fun s i h _ => hiff s i h) hs hallowed

/-- A predicate holds in all states of a run when it holds in the first and after every step. -/
theorem forall_prefix_iff_allGood (Q : σ → Prop) (s : σ) (is : List ι) :
    (∀ pre, pre <+: is → Q (M.final s pre)) ↔
      Q s ∧ M.AllGood (fun s i => Q (M.step s i).1) s is := by
  induction is generalizing s with
  | nil => exact ⟨fun h => ⟨h [] List.nil_prefix, trivial⟩, fun h pre hpre => by
      rw [List.prefix_nil.1 hpre]
      exact h.1⟩
  | cons i is ih =>
    constructor
    · intro h
      refine ⟨h [] List.nil_prefix, (ih _).1 fun pre hpre => ?_⟩
      exact h (i :: pre) (List.cons_prefix_cons.2 ⟨rfl, hpre⟩)
    · rintro ⟨hs, hrest⟩ pre hpre
      cases pre with
      | nil => exact hs
      | cons j pre =>
        obtain ⟨rfl, hpre'⟩ := List.cons_prefix_cons.1 hpre
        exact (ih _).2 hrest pre hpre'

/-- What is said of every step of a run is said of the last one and of the run before it. -/
theorem forall_prefix_concat_iff {α : Type*} {Q : List α → α → Prop} {l : List α} {a : α} :
    (∀ h b, h ++ [b] <+: l ++ [a] → Q h b) ↔ (∀ h b, h ++ [b] <+: l → Q h b) ∧ Q l a := by
  constructor
  · exact fun hQ => ⟨fun h b hpre => hQ h b (hpre.trans (List.prefix_append _ _)),
      hQ l a (List.prefix_refl _)⟩
  · rintro ⟨hQ, hlast⟩ h b hpre
    rcases List.prefix_concat_iff.1 hpre with heq | hpre
    · have htail := List.append_inj' heq rfl
      obtain rfl : b = a := List.head_eq_of_cons_eq htail.2
      obtain rfl : h = l := htail.1
      exact hlast
    · exact hQ h b hpre

/-- `allGood_iff_of_invariant` for conditions that also speak about the inputs so far: under an
invariant of inputs and state, two conditions that agree step by step agree along every run. -/
theorem forall_prefix_iff_of_invariant {P Good : List ι → σ → ι → Prop} {Inv : List ι → σ → Prop}
    (hinv : ∀ h s i, Inv h s → Good h s i → Inv (h ++ [i]) (M.step s i).1)
    (hiff : ∀ h s i, Inv h s → (P h s i ↔ Good h s i)) (hs : Inv [] s) (is : List ι) :
    ((∀ h i, h ++ [i] <+: is → P h (M.final s h) i) ↔
        ∀ h i, h ++ [i] <+: is → Good h (M.final s h) i) ∧
      ((∀ h i, h ++ [i] <+: is → Good h (M.final s h) i) → Inv is (M.final s is)) := by
  induction is using List.reverseRecOn with
  | nil =>
    refine ⟨⟨fun _ h i hpre => ?_, fun _ h i hpre => ?_⟩, fun _ => hs⟩ <;>
      exact absurd (List.prefix_nil.1 hpre) (by simp)
  | append_singleton is j ih =>
    obtain ⟨hiff', hinv'⟩ := ih
    constructor
    · rw [forall_prefix_concat_iff, forall_prefix_concat_iff, hiff']
      exact and_congr_right fun hgood => hiff is _ j (hinv' hgood)
    · intro hgood
      obtain ⟨hgood, hlast⟩ := forall_prefix_concat_iff.1 hgood
      have hlast' := hinv is _ j (hinv' hgood) hlast
      rwa [M.final_append]

/-! ## Monitors -/

/-- The machine next to a record of its run, which cannot influence it. -/
def monitor {γ : Type*} (update : γ → ι → ο → σ → γ) : Machine (σ × γ) ι ο where
  step p i := (((M.step p.1 i).1, update p.2 i (M.step p.1 i).2 (M.step p.1 i).1), (M.step p.1 i).2)

/-- The machine next to a record that is kept of the states before the steps. -/
def alongside {γ : Type*} (update : σ → γ → ι → γ) : Machine (σ × γ) ι ο where
  step p i := (((M.step p.1 i).1, update p.1 p.2 i), (M.step p.1 i).2)

theorem alongside_allGood {γ : Type*} (update : σ → γ → ι → γ) (p : σ × γ) (is : List ι) :
    (M.alongside update).AllGood (fun p i => Good p.1 i) p is ↔ M.AllGood Good p.1 is := by
  induction is generalizing p with
  | nil => exact Iff.rfl
  | cons i is ih => exact and_congr_right fun _ => ih _

/-! ## Refinement -/

/-- **A run refines an abstract machine exactly as long as its steps do.**  Under
an invariant of the concrete machine, if a single step is matched by the abstract
one exactly when it is good, then all states of a run are matched exactly when all
its steps are good. -/
theorem refines_iff_allGood {α ο' : Type*} (A : Machine α ι ο') (obs : σ → α) (Inv : σ → Prop)
    (hinv : ∀ s i, Inv s → Inv (M.step s i).1)
    (hstep : ∀ s i, Inv s → (obs (M.step s i).1 = (A.step (obs s) i).1 ↔ Good s i)) (hs : Inv s)
    (is : List ι) :
    (∀ pre, pre <+: is → obs (M.final s pre) = A.final (obs s) pre) ↔ M.AllGood Good s is := by
  induction is generalizing s with
  | nil =>
    refine ⟨fun _ => trivial, ?_⟩
    intro _ pre hpre
    rw [List.prefix_nil.1 hpre]
    rfl
  | cons i is ih =>
    constructor
    · intro h
      have hi := h [i] (List.cons_prefix_cons.2 ⟨rfl, List.nil_prefix⟩)
      refine ⟨(hstep s i hs).1 hi, (ih (hinv s i hs)).1 ?_⟩
      intro pre hpre
      have := h (i :: pre) (List.cons_prefix_cons.2 ⟨rfl, hpre⟩)
      simp only [final_cons] at this hi
      rw [this]
      exact congrArg (A.final · pre) hi.symm
    · rintro ⟨hi, hrest⟩ pre hpre
      cases pre with
      | nil => rfl
      | cons j pre =>
        obtain ⟨rfl, hpre'⟩ := List.cons_prefix_cons.1 hpre
        have := (ih (hinv s j hs)).2 hrest pre hpre'
        simp only [final_cons]
        rw [this, (hstep s j hs).2 hi]

end Machine
