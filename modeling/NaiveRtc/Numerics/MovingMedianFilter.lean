import NaiveRtc.Lib.Recent
import NaiveRtc.Lib.SortedBag
import Mathlib.Data.Rat.Floor

/-!
# The moving median

`rtc/base/numerics/percentile_filter.hpp` and `moving_median_filter.hpp`.  The multiset is its
sorted list, and an iterator the place of its element; the percentile is exact.

* `PercentileFilter`, `insert`, `erase`, `refresh` — the multiset with the iterator to a rank.
* `MovingMedianFilter` — the last samples in such a filter.
* `Ranked` — the iterator stands at its rank; `insert_ranked`, `erase_ranked`.
* `getFilteredValue_foldl` — **the value is the median of the last samples.**
-/

namespace NaiveRtc

/-- A percentile, between 0 and 1. -/
structure Percentile where
  value : Rat
  nonneg : 0 ≤ value
  le_one : value ≤ 1

/-- `static_cast<int64_t>(percentile * (size - 1))`, of a size that is not zero. -/
def Percentile.rank (percentile : Percentile) (size : Nat) : Int :=
  ⌊percentile.value * ((size - 1 : Nat) : Rat)⌋

/-- `0.5f`. -/
def Percentile.half : Percentile := ⟨1 / 2, by decide +kernel, by decide +kernel⟩

/-- `PercentileFilter<T>`.  The iterator is a place in the sorted list; its length is the end. -/
structure PercentileFilter (α : Type*) where
  set : List α
  percentile : Percentile
  percentileIndex : Int
  percentileIt : Nat

namespace PercentileFilter

variable {α : Type*}

/-- `PercentileFilter(percentile)`. -/
def create (percentile : Percentile) : PercentileFilter α := ⟨[], percentile, 0, 0⟩

/-- `Refresh()`. -/
def refresh (f : PercentileFilter α) : PercentileFilter α :=
  if f.set.isEmpty then f
  else
    let index := f.percentile.rank f.set.length
    { f with
      percentileIt := (f.percentileIt + (index - f.percentileIndex)).toNat
      percentileIndex := index }

/-- `GetPercentileValue()`: nothing if the iterator stands at the end. -/
def getPercentileValue [Zero α] (f : PercentileFilter α) : Option α :=
  if f.set.isEmpty then some 0 else f.set[f.percentileIt]?

/-- `Reset()`. -/
def reset (f : PercentileFilter α) : PercentileFilter α :=
  { f with set := [], percentileIt := 0, percentileIndex := 0 }

variable [LinearOrder α]

/-- `Insert(value)`.  The iterator keeps its element, whose place may move. -/
def insert (f : PercentileFilter α) (value : α) : PercentileFilter α :=
  let percentileIt :=
    if SortedBag.upperBound value f.set ≤ f.percentileIt then f.percentileIt + 1
    else f.percentileIt
  let f := { f with set := SortedBag.insertUpper value f.set, percentileIt := percentileIt }
  refresh <|
    if f.set.length = 1 then { f with percentileIt := 0, percentileIndex := 0 }
    else if (f.set[f.percentileIt]?).any (value < ·) then
      { f with percentileIndex := f.percentileIndex + 1 }
    else f

/-- `Erase(value)`, of the element at the lower bound. -/
def erase (f : PercentileFilter α) (value : α) : PercentileFilter α × Bool :=
  let it := SortedBag.lowerBound value f.set
  if f.set[it]? ≠ some value then (f, false)
  else if it = f.percentileIt then
    -- the iterator goes on to the element behind, which takes the place
    (refresh { f with set := f.set.eraseIdx it }, true)
  else
    let percentileIt := if it < f.percentileIt then f.percentileIt - 1 else f.percentileIt
    let f := { f with set := f.set.eraseIdx it, percentileIt := percentileIt }
    (refresh <|
      if (f.set[f.percentileIt]?).any (value ≤ ·) then
        { f with percentileIndex := f.percentileIndex - 1 }
      else f, true)

end PercentileFilter

/-- `MovingMedianFilter<T>`, of a window that the constructor asserts to be positive. -/
structure MovingMedianFilter (α : Type*) where
  windowSize : Nat
  windowSize_pos : 0 < windowSize
  percentileFilter : PercentileFilter α
  samples : List α
  storedSampleCount : Nat

namespace MovingMedianFilter

variable {α : Type*}

/-- `MovingMedianFilter(window_size)`. -/
def create (windowSize : Nat) (h : 0 < windowSize) : MovingMedianFilter α :=
  ⟨windowSize, h, .create .half, [], 0⟩

/-- `Insert(value)`. -/
def insert [LinearOrder α] (f : MovingMedianFilter α) (value : α) : MovingMedianFilter α :=
  let f := { f with
    percentileFilter := f.percentileFilter.insert value
    samples := f.samples ++ [value]
    storedSampleCount := f.storedSampleCount + 1 }
  if f.windowSize < f.storedSampleCount then
    match f.samples with
    | [] => f
    | front :: samples =>
      { f with
        percentileFilter := (f.percentileFilter.erase front).1
        samples := samples
        storedSampleCount := f.storedSampleCount - 1 }
  else f

/-- `GetFilteredValue()`. -/
def getFilteredValue [Zero α] (f : MovingMedianFilter α) : Option α :=
  f.percentileFilter.getPercentileValue

/-- `Reset()`. -/
def reset (f : MovingMedianFilter α) : MovingMedianFilter α :=
  { f with percentileFilter := f.percentileFilter.reset, samples := [], storedSampleCount := 0 }

end MovingMedianFilter

/-! ## Ranks -/

namespace Percentile

variable (percentile : Percentile)

theorem rank_nonneg (size : Nat) : 0 ≤ percentile.rank size :=
  Int.floor_nonneg.2 (mul_nonneg percentile.nonneg (Nat.cast_nonneg _))

theorem rank_lt {size : Nat} (h : 0 < size) : percentile.rank size < size := by
  have hle : percentile.value * ((size - 1 : Nat) : Rat) ≤ ((size - 1 : Nat) : Rat) :=
    mul_le_of_le_one_left (Nat.cast_nonneg _) percentile.le_one
  have hfloor : percentile.rank size ≤ ((size - 1 : Nat) : Int) := by
    have := Int.floor_mono hle
    rwa [Int.floor_natCast] at this
  omega

@[simp] theorem rank_zero : percentile.rank 0 = 0 := by simp [rank]

@[simp] theorem rank_one : percentile.rank 1 = 0 := by simp [rank]

theorem rank_half (size : Nat) : half.rank size = ((size - 1) / 2 : Nat) := by
  have h : half.value * ((size - 1 : Nat) : Rat) =
      ((size - 1 : Nat) : Rat) / ((2 : Nat) : Rat) := by
    rw [half, one_div_mul_eq_div, Nat.cast_ofNat]
  rw [rank, h, Rat.floor_natCast_div_natCast, Int.natCast_div]

end Percentile

namespace PercentileFilter

variable {α : Type*}

@[simp] theorem refresh_set (f : PercentileFilter α) : f.refresh.set = f.set := by
  unfold refresh
  split <;> rfl

@[simp] theorem refresh_percentile (f : PercentileFilter α) :
    f.refresh.percentile = f.percentile := by
  unfold refresh
  split <;> rfl

variable [LinearOrder α] {f : PercentileFilter α}

/-- The elements are in order, and the iterator stands at the rank of the percentile. -/
structure Ranked (f : PercentileFilter α) : Prop where
  sorted : f.set.Pairwise (· ≤ ·)
  place : (f.percentileIt : Int) = f.percentileIndex
  index : f.percentileIndex = f.percentile.rank f.set.length

theorem create_ranked (percentile : Percentile) :
    Ranked (create percentile : PercentileFilter α) :=
  ⟨.nil, rfl, percentile.rank_zero.symm⟩

theorem refresh_ranked (hsorted : f.set.Pairwise (· ≤ ·))
    (hplace : (f.percentileIt : Int) = f.percentileIndex)
    (hempty : f.set = [] → f.percentileIndex = 0) : Ranked f.refresh := by
  unfold refresh
  split
  case isTrue h =>
    have hnil := List.isEmpty_iff.1 h
    exact ⟨hsorted, hplace, by rw [hempty hnil, hnil, List.length_nil, Percentile.rank_zero]⟩
  case isFalse =>
    refine ⟨hsorted, ?_, rfl⟩
    have hnonneg := f.percentile.rank_nonneg f.set.length
    show ((f.percentileIt + (f.percentile.rank f.set.length - f.percentileIndex)).toNat : Int) =
      f.percentile.rank f.set.length
    omega

theorem Ranked.it_lt (h : Ranked f) (hne : f.set ≠ []) : f.percentileIt < f.set.length := by
  have hlt := f.percentile.rank_lt (List.length_pos_iff.2 hne)
  have := h.place
  have := h.index
  omega

@[simp] theorem insert_set (f : PercentileFilter α) (value : α) :
    (f.insert value).set = SortedBag.insertUpper value f.set := by
  unfold insert
  dsimp only
  rw [refresh_set]
  split_ifs <;> rfl

@[simp] theorem insert_percentile (f : PercentileFilter α) (value : α) :
    (f.insert value).percentile = f.percentile := by
  unfold insert
  dsimp only
  rw [refresh_percentile]
  split_ifs <;> rfl

theorem insert_ranked (h : Ranked f) (value : α) : Ranked (f.insert value) := by
  have hsorted := SortedBag.sorted_insertUpper (a := value) h.sorted
  have hlength : (SortedBag.insertUpper value f.set).length = f.set.length + 1 :=
    (SortedBag.perm_insertUpper value f.set).length_eq
  have hne : SortedBag.insertUpper value f.set ≠ [] := List.ne_nil_of_length_eq_add_one hlength
  unfold insert
  dsimp only
  split
  · exact refresh_ranked hsorted rfl fun _ => rfl
  case isFalse hmany =>
    have hset : f.set ≠ [] := fun hnil => hmany (by rw [hlength, hnil, List.length_nil])
    have hit := h.it_lt hset
    have hbound := SortedBag.lt_upperBound_iff (a := value) h.sorted hit
    have hplace := h.place
    rw [SortedBag.getElem?_insertUpper, List.getElem?_eq_getElem hit, Option.any_some]
    by_cases hle : SortedBag.upperBound value f.set ≤ f.percentileIt
    · have hlt : value < f.set[f.percentileIt] :=
        lt_of_not_ge fun hge => absurd (hbound.2 hge) (Nat.not_lt.2 hle)
      rw [if_pos hle, if_pos (decide_eq_true hlt)]
      have hnext : ((f.percentileIt + 1 : Nat) : Int) = f.percentileIndex + 1 := by omega
      exact refresh_ranked hsorted hnext fun hnil => absurd hnil hne
    · have hge : ¬value < f.set[f.percentileIt] :=
        not_lt.2 (hbound.1 (Nat.lt_of_not_le hle))
      rw [if_neg hle, if_neg (by simpa using hge)]
      exact refresh_ranked hsorted hplace fun hnil => absurd hnil hne

theorem erase_set (h : Ranked f) {value : α} (hvalue : value ∈ f.set) :
    (f.erase value).2 = true ∧ (f.erase value).1.percentile = f.percentile ∧
      f.set.Perm (value :: (f.erase value).1.set) := by
  have hget := SortedBag.getElem?_lowerBound h.sorted hvalue
  obtain ⟨hlt, heq⟩ := List.getElem?_eq_some_iff.1 hget
  have hperm := List.getElem_cons_eraseIdx_perm hlt
  rw [heq] at hperm
  unfold erase
  dsimp only
  rw [if_neg (by simpa using hget)]
  split
  · exact ⟨rfl, refresh_percentile _, by rw [refresh_set]; exact hperm.symm⟩
  · refine ⟨rfl, ?_, ?_⟩
    · rw [refresh_percentile]
      split_ifs <;> rfl
    · rw [refresh_set]
      split_ifs <;> exact hperm.symm

theorem erase_ranked (h : Ranked f) (value : α) : Ranked (f.erase value).1 := by
  by_cases hget : f.set[SortedBag.lowerBound value f.set]? = some value
  swap
  · unfold erase
    rw [if_pos hget]
    exact h
  obtain ⟨hlt, heq⟩ := List.getElem?_eq_some_iff.1 hget
  have hne : f.set ≠ [] := List.ne_nil_of_length_pos (by omega)
  have hit := h.it_lt hne
  have hplace := h.place
  have hsorted : (f.set.eraseIdx (SortedBag.lowerBound value f.set)).Pairwise (· ≤ ·) :=
    h.sorted.sublist (List.eraseIdx_sublist _ _)
  have hlength := List.length_eraseIdx_of_lt hlt
  unfold erase
  dsimp only
  rw [if_neg (by simpa using hget)]
  split
  case isTrue hself =>
    refine refresh_ranked hsorted hplace fun hnil => ?_
    have hnone : (f.set.eraseIdx (SortedBag.lowerBound value f.set)).length = 0 :=
      congrArg List.length hnil
    have hone : f.set.length = 1 := by omega
    rw [h.index, hone, Percentile.rank_one]
  case isFalse hother =>
    have hmany : 1 < f.set.length := by omega
    have hnot : f.set.eraseIdx (SortedBag.lowerBound value f.set) ≠ [] :=
      List.ne_nil_of_length_pos (by omega)
    rcases Nat.lt_or_gt_of_ne hother with hbefore | hbehind
    · have hle : value ≤ f.set[f.percentileIt] := by
        rw [← heq]
        exact List.pairwise_iff_getElem.1 h.sorted _ _ hlt hit hbefore
      have hsame : (f.set.eraseIdx (SortedBag.lowerBound value f.set))[f.percentileIt - 1]? =
          some f.set[f.percentileIt] := by
        rw [List.getElem?_eraseIdx_of_ge (by omega), Nat.sub_add_cancel (by omega),
          List.getElem?_eq_getElem hit]
      rw [if_pos hbefore, hsame, Option.any_some, if_pos (decide_eq_true hle)]
      have hprev : ((f.percentileIt - 1 : Nat) : Int) = f.percentileIndex - 1 := by omega
      exact refresh_ranked hsorted hprev fun hnil => absurd hnil hnot
    · have hsmaller : ¬value ≤ f.set[f.percentileIt] :=
        not_le.2 ((SortedBag.lt_lowerBound_iff h.sorted hit).1 hbehind)
      have hsame : (f.set.eraseIdx (SortedBag.lowerBound value f.set))[f.percentileIt]? =
          some f.set[f.percentileIt] := by
        rw [List.getElem?_eraseIdx_of_lt hbehind, List.getElem?_eq_getElem hit]
      rw [if_neg (Nat.not_lt.2 hbehind.le), hsame, Option.any_some,
        if_neg (by simpa using hsmaller)]
      exact refresh_ranked hsorted hplace fun hnil => absurd hnil hnot

end PercentileFilter

/-! ## The window -/

namespace MovingMedianFilter

open Recent (lastOf length_lastOf)

variable {α : Type*} [LinearOrder α] {f : MovingMedianFilter α} {inserted : List α}

/-- The filter holds the last values that were inserted. -/
structure Holds (f : MovingMedianFilter α) (inserted : List α) : Prop where
  samples : f.samples = lastOf f.windowSize inserted
  count : f.storedSampleCount = f.samples.length
  ranked : f.percentileFilter.Ranked
  perm : f.percentileFilter.set.Perm f.samples
  half : f.percentileFilter.percentile = .half

theorem create_holds (windowSize : Nat) (h : 0 < windowSize) :
    Holds (create windowSize h : MovingMedianFilter α) [] :=
  ⟨(Recent.lastOf_nil _).symm, rfl, PercentileFilter.create_ranked _, .nil, rfl⟩

theorem insert_windowSize (f : MovingMedianFilter α) (value : α) :
    (f.insert value).windowSize = f.windowSize := by
  unfold insert
  dsimp only
  split
  · split <;> rfl
  · rfl

theorem insert_holds (h : Holds f inserted) (value : α) :
    Holds (f.insert value) (inserted ++ [value]) := by
  have hpos := f.windowSize_pos
  have hlength : f.samples.length = min f.windowSize inserted.length := by
    rw [h.samples, length_lastOf]
  have hpush : (f.percentileFilter.insert value).set.Perm (f.samples ++ [value]) := by
    rw [PercentileFilter.insert_set]
    exact ((SortedBag.perm_insertUpper value _).trans (h.perm.cons value)).trans
      (List.perm_append_singleton value f.samples).symm
  have hranked := PercentileFilter.insert_ranked h.ranked value
  have hhalf := (f.percentileFilter.insert_percentile value).trans h.half
  have hcount := h.count
  unfold insert
  dsimp only
  split
  case isTrue hfull =>
    have hlong : f.windowSize ≤ inserted.length := by omega
    have hne : f.samples ≠ [] := List.ne_nil_of_length_pos (by omega)
    have hall : lastOf f.windowSize (inserted ++ [value]) = (f.samples ++ [value]).tail := by
      rw [Recent.lastOf_concat_of_le hpos hlong, h.samples, List.tail_append_of_ne_nil]
      rw [← h.samples]
      exact hne
    cases hsamples : f.samples ++ [value] with
    | nil => simp at hsamples
    | cons front samples =>
      rw [hsamples] at hpush hall
      obtain ⟨-, hkeep, herased⟩ := PercentileFilter.erase_set hranked
        (hpush.mem_iff.2 List.mem_cons_self)
      have hsize : (f.samples ++ [value]).length = samples.length + 1 := by
        rw [hsamples, List.length_cons]
      rw [List.length_append, List.length_singleton] at hsize
      exact ⟨hall.symm, by show f.storedSampleCount + 1 - 1 = samples.length; omega,
        PercentileFilter.erase_ranked hranked front, (herased.symm.trans hpush).cons_inv,
        hkeep.trans hhalf⟩
  case isFalse hroom =>
    have hshort : inserted.length < f.windowSize := by omega
    have hall : f.samples ++ [value] = lastOf f.windowSize (inserted ++ [value]) := by
      rw [Recent.lastOf_concat_of_lt hshort, h.samples]
    exact ⟨hall, by rw [List.length_append, List.length_singleton, ← hcount], hranked, hpush,
      hhalf⟩

theorem foldl_holds (windowSize : Nat) (h : 0 < windowSize) (inserted : List α) :
    Holds (inserted.foldl insert (create windowSize h)) inserted ∧
      (inserted.foldl insert (create windowSize h)).windowSize = windowSize := by
  induction inserted using List.reverseRecOn with
  | nil => exact ⟨create_holds windowSize h, rfl⟩
  | append_singleton inserted value ih =>
    rw [List.foldl_concat]
    exact ⟨insert_holds ih.1 value, (insert_windowSize _ value).trans ih.2⟩

/-- **The filtered value is the median of the last samples**: of the last `k` in order, the one at
place `(k - 1) / 2`.  The iterator stands there throughout. -/
theorem getFilteredValue_foldl [Zero α] (windowSize : Nat) (h : 0 < windowSize)
    (inserted : List α) (hne : inserted ≠ []) :
    let f := inserted.foldl insert (create windowSize h)
    let sorted := (lastOf windowSize inserted).insertionSort (· ≤ ·)
    let k := min windowSize inserted.length
    sorted.length = k ∧
      (f.percentileFilter.percentileIt : Int) = f.percentileFilter.percentileIndex ∧
      ∃ hrank : (k - 1) / 2 < sorted.length, f.getFilteredValue = some sorted[(k - 1) / 2] := by
  intro f sorted k
  obtain ⟨hholds, hwindow⟩ := foldl_holds windowSize h inserted
  have hpos : 0 < inserted.length := List.length_pos_iff.2 hne
  have hlength : sorted.length = k := by
    rw [List.length_insertionSort, length_lastOf]
  have hset : f.percentileFilter.set = sorted := by
    have hperm := hholds.perm
    rw [hholds.samples, hwindow] at hperm
    exact SortedBag.eq_insertionSort hholds.ranked.sorted hperm
  have hrank : (k - 1) / 2 < sorted.length := by
    show (min windowSize inserted.length - 1) / 2 < sorted.length
    omega
  have hit : f.percentileFilter.percentileIt = (k - 1) / 2 := by
    have hplace := hholds.ranked.place
    rw [hholds.ranked.index, hholds.half, Percentile.rank_half] at hplace
    have : f.percentileFilter.set.length = k := by rw [hset, hlength]
    rw [this] at hplace
    exact_mod_cast hplace
  refine ⟨hlength, hholds.ranked.place, hrank, ?_⟩
  unfold getFilteredValue PercentileFilter.getPercentileValue
  rw [hset, hit, if_neg (by simpa using List.ne_nil_of_length_pos (Nat.zero_lt_of_lt hrank)),
    List.getElem?_eq_getElem hrank]

/-- Values with repetitions, in a window of three. -/
theorem getFilteredValue_repeated :
    (([5, 1, 5, 2, 2] : List Int).foldl insert (create 3 (by decide))).getFilteredValue =
      some 2 := by
  obtain ⟨-, -, hrank, h⟩ :=
    getFilteredValue_foldl 3 (by decide) ([5, 1, 5, 2, 2] : List Int) (by decide)
  rw [h, ← List.getElem?_eq_getElem hrank]
  decide +kernel

end MovingMedianFilter

end NaiveRtc
