import NaiveRtc.Components.WrapAround
import NaiveRtc.Lib.Machine

/-!
# Unwrapping counters

`rtc/rtp_rtcp/components/num_unwrapper.hpp`: a wrapping number is placed next to the last
one that was unwrapped, on the line of integers.

* `unwrapped`, `unwrap` — the value `Unwrap` returns, and the unwrapper after it.
* `UnwrapCall`, `machine` — calls that update the last value or not.
* `unwrap_walk` — a walk by less than half the range is recovered exactly; whatever is
  fed, the results are non-negative and congruent to the inputs, and calls that do not
  update leave no trace.
-/

namespace NaiveRtc

/-- `NumberUnwrapper<U>`: `last_unwrapped_value_`. -/
abbrev NumberUnwrapper := Option Int

namespace NumberUnwrapper

open WrapAround

/-- The value `Unwrap(value)` returns. -/
def unwrapped {w : Nat} (last : NumberUnwrapper) (value : BitVec w) : Int :=
  match last with
  | none => value.toNat
  | some lastUnwrapped =>
    let lastValue := BitVec.ofInt w lastUnwrapped
    if aheadOrAt value lastValue then lastUnwrapped + (forwardDiff lastValue value).toNat
    else
      let back := lastUnwrapped - (reverseDiff lastValue value).toNat
      -- never back past zero
      if back < 0 then back + 2 ^ w else back

/-- `Unwrap(value)`: the value and the unwrapper after it. -/
def unwrap {w : Nat} (last : NumberUnwrapper) (value : BitVec w) : Int × NumberUnwrapper :=
  (last.unwrapped value, some (last.unwrapped value))

/-! ## One call -/

variable {w : Nat}

theorem ofInt_sub_ofInt (x y : Int) :
    BitVec.ofInt w x - BitVec.ofInt w y = BitVec.ofInt w (x - y) := by
  rw [BitVec.sub_eq_add_neg, ← BitVec.ofInt_neg, ← BitVec.ofInt_add, Int.sub_eq_add_neg]

theorem toNat_ofInt_eq (x : Int) : ((BitVec.ofInt w x).toNat : Int) = x % 2 ^ w := by
  have hpos : (0 : Int) < 2 ^ w := Int.pow_pos (by decide)
  have hnonneg := Int.emod_nonneg x (Int.ne_of_gt hpos)
  rw [BitVec.toNat_ofInt]
  push_cast
  omega

theorem two_pow_half (hw : 0 < w) : (2 : Int) ^ w = 2 * 2 ^ (w - 1) := by
  obtain ⟨k, rfl⟩ := Nat.exists_eq_add_of_lt hw
  rw [Nat.zero_add, Nat.add_sub_cancel, Int.pow_succ]
  omega

/-- **The value that is returned.**  The distance `d` from the last value is walked forward
when it is less than half the range, or half of it towards a larger number; otherwise the
walk is backward, unless it would pass zero. -/
theorem unwrapped_some (hw : 0 < w) (last : Int) (value : BitVec w) :
    let d := ((value.toNat : Int) - last) % 2 ^ w
    unwrapped (some last) value =
      if d < 2 ^ (w - 1) ∨ (d = 2 ^ (w - 1) ∧ last % 2 ^ w < value.toNat) then last + d
      else if last + d - 2 ^ w < 0 then last + d else last + d - 2 ^ w := by
  intro d
  have hM := two_pow_half hw
  have hH : (0 : Int) < 2 ^ (w - 1) := Int.pow_pos (by decide)
  have hd0 : 0 ≤ d := Int.emod_nonneg _ (by omega)
  have hdM : d < 2 ^ w := Int.emod_lt_of_pos _ (by omega)
  have hvalue : BitVec.ofInt w (value.toNat : Int) = value := by
    rw [BitVec.ofInt_natCast, BitVec.ofNat_toNat, BitVec.setWidth_eq]
  have hforward : ((value - BitVec.ofInt w last).toNat : Int) = d := by
    show _ = ((value.toNat : Int) - last) % 2 ^ w
    rw [← toNat_ofInt_eq, ← ofInt_sub_ofInt, hvalue]
  have hback : ((BitVec.ofInt w last - value).toNat : Int) = (-d) % 2 ^ w := by
    rw [← hforward, ← toNat_ofInt_eq, BitVec.ofInt_neg, BitVec.ofInt_natCast, BitVec.ofNat_toNat,
      BitVec.setWidth_eq, BitVec.neg_sub, BitVec.add_comm, ← BitVec.sub_eq_add_neg]
  have hmax : ((maxDist w).toNat : Int) = 2 ^ (w - 1) := by
    unfold maxDist
    rw [BitVec.toNat_ofNat, Nat.mod_eq_of_lt (Nat.pow_lt_pow_right (by decide) (by omega))]
    rfl
  have htie : value - BitVec.ofInt w last = maxDist w ↔ d = 2 ^ (w - 1) := by
    rw [← BitVec.toNat_inj, ← hforward, ← hmax]
    omega
  have hless : BitVec.ofInt w last < value ↔ last % 2 ^ w < value.toNat := by
    rw [BitVec.lt_def, ← toNat_ofInt_eq]
    omega
  have hnear : value - BitVec.ofInt w last < maxDist w ↔ d < 2 ^ (w - 1) := by
    rw [BitVec.lt_def, ← hforward, ← hmax]
    omega
  have hahead : aheadOrAt value (BitVec.ofInt w last) = true ↔
      d < 2 ^ (w - 1) ∨ (d = 2 ^ (w - 1) ∧ last % 2 ^ w < value.toNat) := by
    unfold aheadOrAt forwardDiff
    by_cases hd : d = 2 ^ (w - 1)
    · rw [if_pos (htie.mpr hd), decide_eq_true_iff, hless]
      omega
    · rw [if_neg (fun h => hd (htie.mp h)), decide_eq_true_iff, hnear]
      omega
  unfold unwrapped forwardDiff reverseDiff
  dsimp only
  by_cases hcase : d < 2 ^ (w - 1) ∨ (d = 2 ^ (w - 1) ∧ last % 2 ^ w < value.toNat)
  · rw [if_pos (hahead.mpr hcase), if_pos hcase, hforward]
  · have hneg : (-d) % 2 ^ w = 2 ^ w - d := by
      rw [← Int.add_emod_right, Int.emod_eq_of_lt (by omega) (by omega)]
      omega
    rw [if_neg (fun h => hcase (hahead.mp h)), if_neg hcase, hback, hneg]
    split_ifs <;> omega

theorem unwrapped_nonneg (hw : 0 < w) {last : NumberUnwrapper} (hlast : ∀ l ∈ last, 0 ≤ l)
    (value : BitVec w) : 0 ≤ last.unwrapped value := by
  cases last with
  | none => exact Int.natCast_nonneg _
  | some l =>
    have hl : 0 ≤ l := hlast l rfl
    have hpos : (0 : Int) < 2 ^ w := Int.pow_pos (by decide)
    have hd := Int.emod_nonneg ((value.toNat : Int) - l) (Int.ne_of_gt hpos)
    rw [unwrapped_some hw]
    split_ifs <;> omega

theorem unwrapped_emod (hw : 0 < w) (last : NumberUnwrapper) (value : BitVec w) :
    last.unwrapped value % 2 ^ w = value.toNat := by
  have hvalue : (value.toNat : Int) % 2 ^ w = value.toNat := by
    have hlt := value.isLt
    refine Int.emod_eq_of_lt (Int.natCast_nonneg _) ?_
    exact_mod_cast hlt
  cases last with
  | none => exact hvalue
  | some l =>
    have hforward : (l + ((value.toNat : Int) - l) % 2 ^ w) % 2 ^ w = value.toNat := by
      have hsum : l + ((value.toNat : Int) - l) = value.toNat := by omega
      rw [Int.add_emod, Int.emod_emod, ← Int.add_emod, hsum, hvalue]
    rw [unwrapped_some hw]
    split_ifs
    · exact hforward
    · exact hforward
    · rw [Int.sub_emod_right, hforward]

theorem unwrapped_step (hw : 0 < w) {x y : Int} (hy : 0 ≤ y) (hstep : |y - x| < 2 ^ (w - 1)) :
    unwrapped (some x) (BitVec.ofInt w y) = y := by
  obtain ⟨hlow, hhigh⟩ := abs_lt.mp hstep
  have hM := two_pow_half hw
  have hdist : (((BitVec.ofInt w y).toNat : Int) - x) % 2 ^ w = (y - x) % 2 ^ w := by
    rw [toNat_ofInt_eq, Int.sub_emod, Int.emod_emod, ← Int.sub_emod]
  rw [unwrapped_some hw, hdist]
  by_cases hforward : x ≤ y
  · rw [Int.emod_eq_of_lt (by omega) (by omega), if_pos (.inl hhigh)]
    omega
  · rw [← Int.add_emod_right, Int.emod_eq_of_lt (by omega) (by omega), if_neg (by omega),
      if_neg (by omega)]
    omega

/-! ## Runs -/

/-- A call `Unwrap(value, update_last)`. -/
structure UnwrapCall (w : Nat) where
  value : BitVec w
  updateLast : Bool
  deriving DecidableEq

/-- The unwrapper as a machine that is fed calls and returns values. -/
def machine (w : Nat) : Machine NumberUnwrapper (UnwrapCall w) Int where
  step last call :=
    (if call.updateLast then some (last.unwrapped call.value) else last, last.unwrapped call.value)

/-- The values a run of calls returns. -/
def results (last : NumberUnwrapper) (calls : List (UnwrapCall w)) : List Int :=
  ((machine w).log last calls).map Prod.snd

/-- The calls that feed a walk. -/
def feed (w : Nat) (walk : List Int) : List (UnwrapCall w) :=
  walk.map fun x => ⟨BitVec.ofInt w x, true⟩

theorem results_feed (hw : 0 < w) {x : Int} {walk : List Int}
    (hchain : (x :: walk).IsChain fun x y => |y - x| < 2 ^ (w - 1)) (hnonneg : ∀ y ∈ walk, 0 ≤ y) :
    results (some x) (feed w walk) = walk := by
  induction walk generalizing x with
  | nil => rfl
  | cons y walk ih =>
    rw [List.isChain_cons_cons] at hchain
    have hy := unwrapped_step hw (hnonneg y (List.mem_cons_self ..)) hchain.1
    show unwrapped (some x) (BitVec.ofInt w y) ::
      results (some (unwrapped (some x) (BitVec.ofInt w y))) (feed w walk) = _
    rw [hy, ih hchain.2 (fun z hz => hnonneg z (List.mem_cons_of_mem _ hz))]

theorem nonneg_final (hw : 0 < w) (calls : List (UnwrapCall w)) :
    ∀ l ∈ (machine w).final none calls, 0 ≤ l := by
  refine (machine w).invariant_of_step (fun last : NumberUnwrapper => ∀ l ∈ last, 0 ≤ l) ?_
    (by simp) calls
  intro last call hlast l hl
  change l ∈ (if call.updateLast then some (last.unwrapped call.value) else last) at hl
  split_ifs at hl
  · obtain rfl := Option.some.inj hl
    exact unwrapped_nonneg hw hlast call.value
  · exact hlast l hl

theorem final_filter (last : NumberUnwrapper) (calls : List (UnwrapCall w)) :
    (machine w).final last (calls.filter UnwrapCall.updateLast) = (machine w).final last calls := by
  induction calls generalizing last with
  | nil => rfl
  | cons call calls ih =>
    cases hupdate : call.updateLast with
    | true =>
      rw [List.filter_cons_of_pos hupdate, Machine.final_cons, Machine.final_cons, ih]
    | false =>
      have hstep : ((machine w).step last call).1 = last := by
        show (if call.updateLast then _ else _) = _
        rw [hupdate]
        rfl
      rw [List.filter_cons_of_neg (by simp [hupdate]), Machine.final_cons, hstep, ih]

/-- **Unwrapping recovers the walk.**  A walk on the non-negative integers with steps of less
than half the range, fed modulo the range to a new unwrapper, is returned as it is; any calls
return non-negative values congruent to their inputs; and what is returned after some calls
does not depend on those of them that did not update the last value. -/
theorem unwrap_walk (w : Nat) (hw : 0 < w) :
    (∀ walk : List Int, (∀ x ∈ walk.head?, x < 2 ^ w) → (∀ x ∈ walk, 0 ≤ x) →
      (walk.IsChain fun x y => |y - x| < 2 ^ (w - 1)) → results none (feed w walk) = walk) ∧
    (∀ calls : List (UnwrapCall w), ∀ entry ∈ (machine w).log none calls,
      0 ≤ entry.2 ∧ entry.2 % 2 ^ w = entry.1.value.toNat) ∧
    (∀ before after : List (UnwrapCall w), results ((machine w).final none before) after =
      results ((machine w).final none (before.filter UnwrapCall.updateLast)) after) := by
  refine ⟨?_, ?_, ?_⟩
  · intro walk hhead hnonneg hchain
    cases walk with
    | nil => rfl
    | cons x walk =>
      have hx0 := hnonneg x (List.mem_cons_self ..)
      have hx : ((BitVec.ofInt w x).toNat : Int) = x := by
        rw [toNat_ofInt_eq, Int.emod_eq_of_lt hx0 (hhead x rfl)]
      show ((BitVec.ofInt w x).toNat : Int) ::
        results (some ((BitVec.ofInt w x).toNat : Int)) (feed w walk) = _
      rw [hx, results_feed hw hchain (fun y hy => hnonneg y (List.mem_cons_of_mem _ hy))]
  · intro calls entry hentry
    obtain ⟨before, call, after, -, rfl⟩ := ((machine w).mem_log_iff).mp hentry
    exact ⟨unwrapped_nonneg hw (nonneg_final hw before) call.value, unwrapped_emod hw _ _⟩
  · intro before after
    rw [final_filter]

/-- Both counters of the receive path, and a walk of sequence numbers over the wrap and back. -/
theorem unwrap_walk_widths :
    results none (feed 16 [65000, 66000, 65500, 98000, 70000]) =
      [65000, 66000, 65500, 98000, 70000] ∧
    ∀ before after : List (UnwrapCall 32), results ((machine 32).final none before) after =
      results ((machine 32).final none (before.filter UnwrapCall.updateLast)) after :=
  ⟨(unwrap_walk 16 (by decide)).1 _ (by decide) (by decide) (by decide),
    (unwrap_walk 32 (by decide)).2.2⟩

end NumberUnwrapper

end NaiveRtc
