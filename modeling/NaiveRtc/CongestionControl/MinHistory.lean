import NaiveRtc.CongestionControl.SendSideBwe
import NaiveRtc.Lib.SlidingMinimum

/-!
# The minimum bitrate of the last second

`UpdateMinHistory` of `rtc/congestion_control/send_side/goog_cc/send_side_bwe.cpp` keeps a
deque whose front is the minimum bitrate of a sliding window.

* `updateMinHistories` — a sequence of calls.
* `minBitrateHistory_push`, `minBitrateHistory_eq` — **the deque is the minima of the window**.
* `front_minBitrateHistory` — its front is the minimum, and how its entries are ordered.
-/

namespace NaiveRtc.CongestionControl

namespace SendSideBwe

/-- Calls of `UpdateMinHistory`, each with a finite time and a bitrate. -/
def updateMinHistories (s : SendSideBwe) (calls : List (Int × DataRate)) : SendSideBwe :=
  calls.foldl (fun s call => s.updateMinHistory call.2 (.micros call.1)) s

/-- The call belongs to the window that ends at a time. -/
def InWindow (now : Int) (call : Int × DataRate) : Prop := now - call.1 + 1000 ≤ 1000000

instance (now : Int) : DecidablePred (InWindow now) := fun call =>
  inferInstanceAs (Decidable (now - call.1 + 1000 ≤ 1000000))

/-- The entry of a call. -/
def entry (call : Int × DataRate) : Timestamp × DataRate := (.micros call.1, call.2)

/-- An entry is too old at a time. -/
def tooOld (now : Int) (e : Timestamp × DataRate) : Bool :=
  kBweIncreaseInterval.lt (((UnitValue.micros now).sub e.1).add (.micros 1000))

theorem tooOld_entry (now : Int) (call : Int × DataRate) :
    tooOld now (entry call) = !decide (InWindow now call) := by
  show decide ((1000000 : Int) < now - call.1 + 1000) = _
  rw [← decide_not]
  exact decide_eq_decide.2 not_le.symm

variable {s : SendSideBwe}

theorem minBitrateHistory_push {done window : List (Int × DataRate)}
    {call : Int × DataRate}
    (hminima : (s.updateMinHistories done).minBitrateHistory =
      SlidingMinimum.minima Prod.snd (window.map entry))
    (hsorted : window.Pairwise fun a b => a.1 ≤ b.1)
    (hwindow : window.filter (fun c => InWindow call.1 c) =
      done.filter fun c => InWindow call.1 c) :
    (s.updateMinHistories (done ++ [call])).minBitrateHistory =
      SlidingMinimum.minima Prod.snd
        (((done ++ [call]).filter fun c => InWindow call.1 c).map entry) := by
  have hstep : (s.updateMinHistories (done ++ [call])).minBitrateHistory =
      SlidingMinimum.push Prod.snd (tooOld call.1) (entry call)
        (s.updateMinHistories done).minBitrateHistory := by
    rw [updateMinHistories, List.foldl_append]
    rfl
  have hself : InWindow call.1 call := by
    unfold InWindow
    omega
  have hlast : (done ++ [call]).filter (fun c => InWindow call.1 c) =
      done.filter (fun c => InWindow call.1 c) ++ [call] := by
    rw [List.filter_append]
    exact congrArg _ (List.filter_cons_of_pos (decide_eq_true hself))
  have hage : (window.map entry).Pairwise fun a b =>
      tooOld call.1 b = true → tooOld call.1 a = true := by
    refine List.pairwise_map.2 (hsorted.imp fun {a b} hab => ?_)
    rw [tooOld_entry, tooOld_entry, Bool.not_eq_true', Bool.not_eq_true',
      decide_eq_false_iff_not, decide_eq_false_iff_not]
    unfold InWindow
    omega
  have hkept : (window.map entry).dropWhile (tooOld call.1) =
      (done.filter fun c => InWindow call.1 c).map entry := by
    rw [SlidingMinimum.dropWhile_eq_filter hage, List.filter_map, ← hwindow]
    congr 2
    funext c
    simp [tooOld_entry]
  rw [hstep, hminima, SlidingMinimum.push_minima hage, hkept, hlast, List.map_append]
  rfl

theorem minBitrateHistory_eq (hempty : s.minBitrateHistory = [])
    {done : List (Int × DataRate)} {call : Int × DataRate}
    (htimes : (done ++ [call]).Pairwise fun a b => a.1 ≤ b.1) :
    (s.updateMinHistories (done ++ [call])).minBitrateHistory =
      SlidingMinimum.minima Prod.snd
        (((done ++ [call]).filter fun c => InWindow call.1 c).map entry) := by
  induction done using List.reverseRecOn generalizing call with
  | nil =>
    have hnone : (s.updateMinHistories []).minBitrateHistory =
        SlidingMinimum.minima Prod.snd (List.map entry []) := hempty
    exact minBitrateHistory_push hnone List.Pairwise.nil rfl
  | append_singleton pre last ih =>
    obtain ⟨hdone, -, hle⟩ := List.pairwise_append.1 htimes
    refine minBitrateHistory_push (ih hdone) (hdone.filter _) ?_
    have hlater := hle last (by simp) call (by simp)
    rw [List.filter_filter]
    refine List.filter_congr fun c hc => ?_
    rw [← Bool.decide_and, decide_eq_decide]
    unfold InWindow
    omega

/-- **The front is the minimum** of the bitrates of the window, and the entries are ordered by
time and strictly by value. -/
theorem front_minBitrateHistory (hempty : s.minBitrateHistory = [])
    {done : List (Int × DataRate)} {now : Int} {bitrate : DataRate}
    (htimes : (done ++ [(now, bitrate)]).Pairwise fun a b => a.1 ≤ b.1) :
    let calls := done ++ [(now, bitrate)]
    let history := (s.updateMinHistories calls).minBitrateHistory
    (∃ front rest, history = front :: rest ∧
      (∃ call ∈ calls, InWindow now call ∧ call.2 = front.2) ∧
      ∀ call ∈ calls, InWindow now call → front.2 ≤ call.2) ∧
    history.Pairwise fun a b => b.1.lt a.1 = false ∧ a.2 < b.2 := by
  intro calls history
  have heq : history = SlidingMinimum.minima Prod.snd
      ((calls.filter fun c => InWindow now c).map entry) := minBitrateHistory_eq hempty htimes
  have hmem : ∀ call ∈ calls, InWindow now call →
      entry call ∈ (calls.filter fun c => InWindow now c).map entry := fun call hcall hin =>
    List.mem_map_of_mem (List.mem_filter.2 ⟨hcall, decide_eq_true hin⟩)
  have hnow : InWindow now (now, bitrate) := by
    unfold InWindow
    omega
  refine ⟨?_, ?_⟩
  · obtain ⟨front, rest, hminima, hfront, hle⟩ := SlidingMinimum.head_minima (f := Prod.snd)
      (List.ne_nil_of_mem (hmem (now, bitrate) (by simp [calls]) hnow))
    obtain ⟨call, hcall, rfl⟩ := List.mem_map.1 hfront
    obtain ⟨hcall, hin⟩ := List.mem_filter.1 hcall
    exact ⟨entry call, rest, heq.trans hminima, ⟨call, hcall, of_decide_eq_true hin, rfl⟩,
      fun c hc hwindow => hle (entry c) (hmem c hc hwindow)⟩
  · rw [heq]
    have htime : ((calls.filter fun c => InWindow now c).map entry).Pairwise fun a b =>
        b.1.lt a.1 = false :=
      List.pairwise_map.2 ((htimes.filter _).imp fun hab => decide_eq_false (not_lt.2 hab))
    exact (htime.sublist (SlidingMinimum.minima_sublist _)).and (SlidingMinimum.pairwise_minima _)

/-- A bitrate that leaves the window after a second. -/
theorem front_minBitrateHistory_second :
    let calls : List (Int × DataRate) := [(0, 100), (500000, 300), (600000, 200)] ++
      [(1000000, 400)]
    let history := (create.updateMinHistories calls).minBitrateHistory
    (∃ front rest, history = front :: rest ∧
      (∃ call ∈ calls, InWindow 1000000 call ∧ call.2 = front.2) ∧
      ∀ call ∈ calls, InWindow 1000000 call → front.2 ≤ call.2) ∧
    history.Pairwise fun a b => b.1.lt a.1 = false ∧ a.2 < b.2 :=
  front_minBitrateHistory rfl (by decide)

end SendSideBwe

end NaiveRtc.CongestionControl
