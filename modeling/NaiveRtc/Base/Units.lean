import Mathlib.Algebra.Order.Ring.Int

/-!
# Times and time deltas

What the model uses of `rtc/base/units`: `Timestamp` and `TimeDelta` count microseconds and
have two infinities.  Overflow of finite values, against which the source asserts, is left
out.
-/

namespace NaiveRtc

/-- A value of `UnitBase`, in microseconds. -/
inductive UnitValue
  | minusInfinity
  | micros (us : Int)
  | plusInfinity
  deriving DecidableEq

/-- `Timestamp`. -/
abbrev Timestamp := UnitValue

/-- `TimeDelta`. -/
abbrev TimeDelta := UnitValue

namespace UnitValue

/-- `IsFinite()`. -/
def isFinite : UnitValue → Bool
  | micros _ => true
  | _ => false

/-- `IsInfinite()`. -/
def isInfinite (a : UnitValue) : Bool := !a.isFinite

/-- `operator<`. -/
def lt : UnitValue → UnitValue → Bool
  | minusInfinity, minusInfinity => false
  | minusInfinity, _ => true
  | micros a, micros b => decide (a < b)
  | micros _, plusInfinity => true
  | _, _ => false

theorem lt_irrefl (a : UnitValue) : a.lt a = false := by
  cases a with
  | minusInfinity => rfl
  | micros us => exact decide_eq_false (Int.lt_irrefl us)
  | plusInfinity => rfl

theorem lt_asymm {a b : UnitValue} (h : a.lt b = true) : b.lt a = false := by
  cases a <;> cases b <;> first | rfl | cases h | skip
  case micros.micros us other =>
    have hlt : us < other := of_decide_eq_true h
    exact decide_eq_false (by omega)

/-- `std::max(a, b)`. -/
def max (a b : UnitValue) : UnitValue := if a.lt b then b else a

theorem max_ne_minusInfinity {a : UnitValue} (h : a ≠ minusInfinity) (b : UnitValue) :
    a.max b ≠ minusInfinity := by
  unfold max
  split
  case isTrue hlt =>
    rintro rfl
    cases a <;> cases hlt
  case isFalse => exact h

/-- `operator+`, of a time or a delta and a delta. -/
def add : UnitValue → UnitValue → UnitValue
  | plusInfinity, _ => plusInfinity
  | _, plusInfinity => plusInfinity
  | minusInfinity, _ => minusInfinity
  | _, minusInfinity => minusInfinity
  | micros a, micros b => micros (a + b)

/-- `operator-`. -/
def sub : UnitValue → UnitValue → UnitValue
  | plusInfinity, _ => plusInfinity
  | _, minusInfinity => plusInfinity
  | minusInfinity, _ => minusInfinity
  | _, plusInfinity => minusInfinity
  | micros a, micros b => micros (a - b)

end UnitValue

/-- `RoundDownTo(resolution)` of a finite value; the division of C++ truncates. -/
def roundDownTo (us resolution : Int) : Int := us.tdiv resolution * resolution

end NaiveRtc
