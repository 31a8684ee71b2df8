import NaiveRtc.Lib.CheckedMachine
import NaiveRtc.Lib.Keyed
import NaiveRtc.Lib.Latest
import NaiveRtc.Lib.Ordered
import NaiveRtc.Lib.SlidingMinimum
import Mathlib.Algebra.Order.BigOperators.Group.List
import Mathlib.Data.Int.Interval

/-!
# The send delays of the last second

`UpdateDelayStatistics` of `rtc/rtp_rtcp/rtp/sender/rtp_packet_egresser.cpp` keeps the delays of
the last second by the time they were measured at, with their sum and an iterator at the largest.
An iterator is the time it points at; the code says nothing about an iterator at the end that is
read, or about a sum beyond 64 bits, and these two are failures here.

* `kept` — **the window**: the latest delay of each instant of the last second.
* `Tracks` — what sum and iterator have to do with the window.
* `Meets`, `send_delay_law` — which calls report the window, and that all others do not.
-/

namespace NaiveRtc.Rtp

/-- `kSendSideDelayWindowMs`. -/
def kSendSideDelayWindowMs : Int := 1000

/-- The members of `RtpPacketEgresser` that the statistics use. -/
structure SendDelayStatistics where
  /-- `send_delays_`, by time. -/
  sendDelays : List (Int × Int)
  /-- The time that `max_delay_it_` points at; nothing for `send_delays_.end()`. -/
  maxDelayIt : Option Int
  slidingSumDelayMs : Int
  accumulatedDelayMs : Nat
  deriving DecidableEq

/-- `OnSendDelayUpdated(avg_delay_ms, max_delay_ms, total_delay_ms, ssrc)`. -/
structure SendDelayUpdate where
  avgDelayMs : Int
  maxDelayMs : Int
  totalDelayMs : Int
  ssrc : Nat
  deriving DecidableEq

namespace SendDelayStatistics

/-- What stops a call. -/
inductive Fault
  /-- `max_delay_it_->second` of the end. -/
  | endDereferenced
  /-- `max_delay_it_->second` of an entry that was erased. -/
  | erasedDereferenced
  /-- A difference or sum that is no `int64_t`. -/
  | overflow
  /-- `assert(avg_delay_ms >= 0)`. -/
  | negativeAverage
  deriving DecidableEq

/-- The statistics as they are constructed. -/
def create : SendDelayStatistics := ⟨[], none, 0, 0⟩

/-- A result in `int64_t`. -/
def int64 (n : Int) : Except Fault Int :=
  if -2 ^ 63 ≤ n ∧ n < 2 ^ 63 then .ok n else .error .overflow

/-- The conversion to `int`. -/
def toInt (n : Int) : Int := (n + 2 ^ 31) % 2 ^ 32 - 2 ^ 31

/-- The conversion to `int64_t`. -/
def toInt64 (n : Int) : Int := (n + 2 ^ 63) % 2 ^ 64 - 2 ^ 63

/-- `max_delay_it_->second`. -/
def maxDelay (s : SendDelayStatistics) : Except Fault Int :=
  match s.maxDelayIt with
  | none => .error .endDereferenced
  | some time =>
    match s.sendDelays.find? fun e => e.1 = time with
    | none => .error .erasedDereferenced
    | some e => .ok e.2

/-- `RecalculateMaxDelay()`. -/
def recalculateMaxDelay (s : SendDelayStatistics) : SendDelayStatistics :=
  { s with
    maxDelayIt :=
      match s.sendDelays with
      | [] => none
      | e :: es => some ((e :: es).foldl (fun max it => if max.2 ≤ it.2 then it else max) e).1 }

/-- The loop over the entries before the lower bound. -/
def forgetDelays (s : SendDelayStatistics) : List (Int × Int) → Except Fault SendDelayStatistics
  | [] => .ok s
  | e :: es => do
    let max ← s.maxDelay
    let sum ← int64 (s.slidingSumDelayMs - e.2)
    let s := { s with
      maxDelayIt := if max = e.2 then none else s.maxDelayIt
      slidingSumDelayMs := sum }
    s.forgetDelays es

/-- `send_delays_.erase`, and a new maximum when the previous one was removed. -/
def eraseDelays (s : SendDelayStatistics) (start : Int) : SendDelayStatistics :=
  let s := { s with sendDelays := s.sendDelays.dropWhile fun e => e.1 < start }
  if s.maxDelayIt = none then s.recalculateMaxDelay else s

/-- The removal of the elements older than the window. -/
def removeOldDelays (s : SendDelayStatistics) (nowMs : Int) :
    Except Fault SendDelayStatistics := do
  let start ← int64 (nowMs - kSendSideDelayWindowMs)
  let s ← s.forgetDelays (s.sendDelays.takeWhile fun e => e.1 < start)
  return s.eraseDelays start

/-- `send_delays_.insert`, and the replacement of an entry of the same time. -/
def insertDelay (s : SendDelayStatistics) (newDelayMs nowMs : Int) :
    Except Fault SendDelayStatistics :=
  match s.sendDelays.find? fun e => e.1 = nowMs with
  | none =>
    .ok { s with
      sendDelays := Ordered.insertBy (fun a b => decide (a < b)) Prod.fst (nowMs, newDelayMs)
        s.sendDelays }
  | some e => do
    let previousDelayMs := toInt e.2
    let sum ← int64 (s.slidingSumDelayMs - previousDelayMs)
    let s : SendDelayStatistics := { s with
      slidingSumDelayMs := sum
      sendDelays := s.sendDelays.map fun e => if e.1 = nowMs then (nowMs, newDelayMs) else e }
    return if s.maxDelayIt = some nowMs ∧ newDelayMs < previousDelayMs then s.recalculateMaxDelay
      else s

/-- The new entry is the largest one. -/
def raiseMaxDelay (s : SendDelayStatistics) (newDelayMs nowMs : Int) :
    Except Fault SendDelayStatistics :=
  if s.maxDelayIt = none then .ok { s with maxDelayIt := some nowMs }
  else do
    let max ← s.maxDelay
    return if max < newDelayMs then { s with maxDelayIt := some nowMs } else s

/-- `(sliding_sum_delay_ms_ + num_delays / 2) / num_delays`, which is computed unsigned. -/
def avgDelay (slidingSumDelayMs : Int) (numDelays : Nat) : Int :=
  toInt64 ((slidingSumDelayMs + numDelays / 2) % 2 ^ 64 / numDelays)

/-- What follows the removal and the insertion: the sums and the notification. -/
def notifyDelay (s : SendDelayStatistics) (newDelayMs : Int) (ssrc : Nat) :
    Except Fault (SendDelayStatistics × Option SendDelayUpdate) := do
  let sum ← int64 (s.slidingSumDelayMs + newDelayMs)
  let s := { s with
    slidingSumDelayMs := sum
    accumulatedDelayMs := (s.accumulatedDelayMs + newDelayMs.toNat) % 2 ^ 64 }
  let avgDelayMs := avgDelay sum s.sendDelays.length
  if avgDelayMs < 0 then .error .negativeAverage
  else do
    let maxDelayMs ← s.maxDelay
    return (s, some ⟨avgDelayMs, maxDelayMs, toInt64 s.accumulatedDelayMs, ssrc⟩)

/-- `UpdateDelayStatistics(new_delay_ms, now_ms, ssrc)`, with or without `send_delay_observer_`. -/
def updateDelayStatistics (sendDelayObserver : Bool) (s : SendDelayStatistics)
    (newDelayMs nowMs : Int) (ssrc : Nat) :
    Except Fault (SendDelayStatistics × Option SendDelayUpdate) :=
  if sendDelayObserver = false ∨ newDelayMs < 0 then .ok (s, none)
  else do
    let s ← s.removeOldDelays nowMs
    let s ← s.insertDelay newDelayMs nowMs
    let s ← s.raiseMaxDelay newDelayMs nowMs
    s.notifyDelay newDelayMs ssrc

/-- One call. -/
structure Call where
  newDelayMs : Int
  nowMs : Int
  ssrc : Nat
  deriving DecidableEq

/-- The statistics driven by calls. -/
def delayMachine (sendDelayObserver : Bool) :
    CheckedMachine SendDelayStatistics Call (Option SendDelayUpdate) Fault where
  step s call := s.updateDelayStatistics sendDelayObserver call.newDelayMs call.nowMs call.ssrc

/-! ## The window -/

/-- The latest delay of each instant that is in the window at a time. -/
def kept (calls : List Call) (nowMs : Int) : List (Int × Int) :=
  (Latest.latest Prod.fst (calls.map fun c => (c.nowMs, c.newDelayMs))).filter fun e =>
    nowMs - kSendSideDelayWindowMs ≤ e.1

/-- The window at the time of the last call. -/
def window (calls : List Call) : List (Int × Int) :=
  match calls.getLast? with
  | none => []
  | some call => kept calls call.nowMs

/-- The delays of the entries added. -/
def total (entries : List (Int × Int)) : Int := (entries.map Prod.snd).sum

/-- The window after one more call. -/
def windowAfter (entries : List (Int × Int)) (call : Call) : List (Int × Int) :=
  entries.filter (fun e => call.nowMs - kSendSideDelayWindowMs ≤ e.1 ∧ e.1 ≠ call.nowMs) ++
    [(call.nowMs, call.newDelayMs)]

/-- The call is not before the others, and its delay is not negative. -/
def Proper (done : List Call) (call : Call) : Prop :=
  0 ≤ call.newDelayMs ∧ ∀ earlier ∈ done, earlier.nowMs ≤ call.nowMs

theorem window_concat {done : List Call} {call : Call}
    (hlater : ∀ earlier ∈ done, earlier.nowMs ≤ call.nowMs) :
    window (done ++ [call]) = windowAfter (window done) call := by
  have hself : call.nowMs - kSendSideDelayWindowMs ≤ call.nowMs := by
    unfold kSendSideDelayWindowMs
    omega
  have hkept : window (done ++ [call]) =
      (kept done call.nowMs).filter (fun e => e.1 ≠ call.nowMs) ++
        [(call.nowMs, call.newDelayMs)] := by
    unfold window kept
    rw [List.getLast?_concat, List.map_append]
    show List.filter _ (Latest.latest Prod.fst (_ ++ [(call.nowMs, call.newDelayMs)])) = _
    rw [Latest.latest_concat, List.filter_append,
      List.filter_cons_of_pos (by simpa using hself), List.filter_filter, List.filter_filter]
    congr 2
    funext e
    exact Bool.and_comm _ _
  rw [hkept, windowAfter]
  congr 1
  unfold window
  split
  case h_1 hnone =>
    rw [List.getLast?_eq_none_iff.1 hnone]
    rfl
  case h_2 last hlast =>
    have hle := hlater last (List.mem_of_getLast? hlast)
    unfold kept
    rw [List.filter_filter, List.filter_filter]
    refine List.filter_congr fun e _ => ?_
    rw [Bool.eq_iff_iff]
    simp only [Bool.and_eq_true, decide_eq_true_eq]
    omega

theorem total_append (xs ys : List (Int × Int)) : total (xs ++ ys) = total xs + total ys := by
  simp [total]

variable {entries : List (Int × Int)}

theorem total_nonneg (h : ∀ e ∈ entries, 0 ≤ e.2) :
    0 ≤ total entries :=
  List.sum_nonneg fun _ hd => by
    obtain ⟨e, he, rfl⟩ := List.mem_map.1 hd
    exact h e he

/-! ## Sum and iterator -/

/-- The number is an `int64_t`. -/
def Fits (n : Int) : Prop := -2 ^ 63 ≤ n ∧ n < 2 ^ 63

variable {n : Int}

theorem int64_ok (h : Fits n) : int64 n = .ok n := if_pos h

theorem int64_error (h : ¬Fits n) : int64 n = .error .overflow := if_neg h

/-- The iterator is at a largest delay, or at the end when there is none. -/
def Points (it : Option Int) (entries : List (Int × Int)) : Prop :=
  match it with
  | none => entries = []
  | some time => ∃ delay, (time, delay) ∈ entries ∧ ∀ e ∈ entries, e.2 ≤ delay

/-- The statistics are about these entries. -/
structure Tracks (s : SendDelayStatistics) (entries : List (Int × Int)) : Prop where
  sendDelays_eq : s.sendDelays = entries
  sum_eq : s.slidingSumDelayMs = total entries
  points : Points s.maxDelayIt entries
  ordered : entries.Pairwise fun a b => a.1 < b.1
  nonneg : ∀ e ∈ entries, 0 ≤ e.2
  total_lt : total entries < 2 ^ 63

theorem nodup_times (h : entries.Pairwise fun a b => a.1 < b.1) :
    (entries.map Prod.fst).Nodup :=
  List.pairwise_map.2 (h.imp fun hlt => hlt.ne)

theorem maxDelay_eq {s : SendDelayStatistics} {time delay : Int} (hit : s.maxDelayIt = some time)
    (hmem : (time, delay) ∈ s.sendDelays)
    (hordered : s.sendDelays.Pairwise fun a b => a.1 < b.1) : s.maxDelay = .ok delay := by
  have hfind : s.sendDelays.find? (fun e => e.1 = time) = some (time, delay) :=
    (Keyed.find?_key_iff (nodup_times hordered)).2 ⟨hmem, rfl⟩
  simp only [maxDelay, hit, hfind]

theorem foldl_largest (es : List (Int × Int)) (m : Int × Int) :
    let last := es.foldl (fun max it => if max.2 ≤ it.2 then it else max) m
    last ∈ m :: es ∧ ∀ e ∈ m :: es, e.2 ≤ last.2 := by
  induction es generalizing m with
  | nil => simp
  | cons e es ih =>
    intro last
    obtain ⟨hmem, hle⟩ := ih (if m.2 ≤ e.2 then e else m)
    have hnext := hle _ List.mem_cons_self
    constructor
    · rcases List.mem_cons.1 hmem with heq | hmem
      · show es.foldl _ (if m.2 ≤ e.2 then e else m) ∈ _
        rw [heq]
        split <;> simp
      · exact List.mem_cons_of_mem _ (List.mem_cons_of_mem _ hmem)
    · refine List.forall_mem_cons.2 ⟨?_, List.forall_mem_cons.2
        ⟨?_, fun x hx => hle x (List.mem_cons_of_mem _ hx)⟩⟩ <;>
      · refine le_trans ?_ hnext
        split <;> omega

theorem points_recalculateMaxDelay (s : SendDelayStatistics) :
    Points s.recalculateMaxDelay.maxDelayIt s.sendDelays := by
  unfold recalculateMaxDelay
  cases s.sendDelays with
  | nil => rfl
  | cons e es =>
    obtain ⟨hmem, hle⟩ := foldl_largest (e :: es) e
    refine ⟨_, ?_, fun x hx => hle x (List.mem_cons_of_mem _ hx)⟩
    rcases List.mem_cons.1 hmem with heq | hmem
    · rw [heq]
      exact List.mem_cons_self
    · exact hmem

/-! ## The removal -/

section Removal

variable {s : SendDelayStatistics} {entries es : List (Int × Int)} {nowMs delay : Int}

theorem forgetDelays_cons {e : Int × Int} (hmax : s.maxDelay = .ok delay)
    (hfits : Fits (s.slidingSumDelayMs - e.2)) :
    s.forgetDelays (e :: es) = forgetDelays { s with
      maxDelayIt := if delay = e.2 then none else s.maxDelayIt
      slidingSumDelayMs := s.slidingSumDelayMs - e.2 } es := by
  rw [forgetDelays, hmax, int64_ok hfits]
  rfl

theorem fits_of_le {e : Int × Int} (hnonneg : ∀ x ∈ e :: es, 0 ≤ x.2)
    (hle : total (e :: es) ≤ s.slidingSumDelayMs) (hlt : s.slidingSumDelayMs < 2 ^ 63) :
    Fits (s.slidingSumDelayMs - e.2) ∧ total es ≤ s.slidingSumDelayMs - e.2 ∧
      s.slidingSumDelayMs - e.2 < 2 ^ 63 := by
  obtain ⟨hfirst, hrest⟩ := List.forall_mem_cons.1 hnonneg
  have hsplit : total (e :: es) = e.2 + total es := rfl
  have htotal := total_nonneg hrest
  unfold Fits
  omega

theorem forgetDelays_ok (hmax : s.maxDelay = .ok delay) (hnonneg : ∀ e ∈ es, 0 ≤ e.2)
    (hle : total es ≤ s.slidingSumDelayMs) (hlt : s.slidingSumDelayMs < 2 ^ 63)
    (hlast : ∀ e ∈ es.dropLast, e.2 ≠ delay) :
    s.forgetDelays es = .ok { s with
      maxDelayIt := if ∃ e ∈ es, e.2 = delay then none else s.maxDelayIt
      slidingSumDelayMs := s.slidingSumDelayMs - total es } := by
  induction es generalizing s with
  | nil => simp [forgetDelays, total]
  | cons e es ih =>
    obtain ⟨hfits, hle', hlt'⟩ := fits_of_le hnonneg hle hlt
    have hsplit : total (e :: es) = e.2 + total es := rfl
    rw [forgetDelays_cons hmax hfits]
    by_cases heq : delay = e.2
    · have hes : es = [] := by
        by_contra hne
        exact hlast e (by rw [List.dropLast_cons_of_ne_nil hne]; exact List.mem_cons_self) heq.symm
      subst hes
      simp [forgetDelays, heq, total]
    · have hlast' : ∀ x ∈ es.dropLast, x.2 ≠ delay := by
        intro x hx
        refine hlast x ?_
        rw [List.dropLast_cons_of_ne_nil (by rintro rfl; cases hx)]
        exact List.mem_cons_of_mem _ hx
      have hrest := ih (s := { s with slidingSumDelayMs := s.slidingSumDelayMs - e.2 }) hmax
        (List.forall_mem_cons.1 hnonneg).2 hle' hlt' hlast'
      have hlater : (∃ x ∈ e :: es, x.2 = delay) ↔ ∃ x ∈ es, x.2 = delay := by
        simp [Ne.symm heq]
      rw [if_neg heq, hrest, hsplit, ← sub_sub]
      simp only [hlater]

theorem forgetDelays_error (hmax : s.maxDelay = .ok delay) (hnonneg : ∀ e ∈ es, 0 ≤ e.2)
    (hle : total es ≤ s.slidingSumDelayMs) (hlt : s.slidingSumDelayMs < 2 ^ 63)
    (hearly : ∃ e ∈ es.dropLast, e.2 = delay) :
    s.forgetDelays es = .error .endDereferenced := by
  induction es generalizing s with
  | nil =>
    obtain ⟨_, hmem, -⟩ := hearly
    cases hmem
  | cons e es ih =>
    obtain ⟨hfits, hle', hlt'⟩ := fits_of_le hnonneg hle hlt
    rw [forgetDelays_cons hmax hfits]
    cases es with
    | nil =>
      obtain ⟨_, hmem, -⟩ := hearly
      cases hmem
    | cons e' es =>
      by_cases heq : delay = e.2
      · rw [if_pos heq]
        rfl
      · obtain ⟨x, hx, hdelay⟩ := hearly
        rw [if_neg heq]
        refine ih hmax (List.forall_mem_cons.1 hnonneg).2 hle' hlt' ⟨x, ?_, hdelay⟩
        rcases List.mem_cons.1 hx with rfl | hx
        · exact absurd hdelay.symm heq
        · exact hx

/-- No entry that leaves the window before the last one that leaves it has the largest delay. -/
def LeavesLast (entries : List (Int × Int)) (nowMs : Int) : Prop :=
  ∀ e ∈ (entries.filter fun e => e.1 < nowMs - kSendSideDelayWindowMs).dropLast,
    ∃ other ∈ entries, e.2 < other.2

theorem expired_eq (h : Tracks s entries) (start : Int) :
    s.sendDelays.takeWhile (fun e => decide (e.1 < start)) =
      entries.filter fun e => e.1 < start := by
  rw [h.sendDelays_eq]
  exact SlidingMinimum.takeWhile_eq_filter (h.ordered.imp fun hlt hb =>
    decide_eq_true (hlt.trans (of_decide_eq_true hb)))

theorem left_eq (h : Tracks s entries) (start : Int) :
    s.sendDelays.dropWhile (fun e => decide (e.1 < start)) =
      entries.filter fun e => start ≤ e.1 := by
  rw [h.sendDelays_eq, SlidingMinimum.dropWhile_eq_filter (h.ordered.imp fun hlt hb =>
    decide_eq_true (hlt.trans (of_decide_eq_true hb)))]
  exact List.filter_congr fun e _ => by rw [← decide_not, decide_eq_decide, not_lt]

theorem total_filter_add (entries : List (Int × Int)) (start : Int) :
    total (entries.filter fun e => e.1 < start) + total (entries.filter fun e => start ≤ e.1) =
      total entries := by
  induction entries with
  | nil => rfl
  | cons e es ih =>
    have hsplit : total (e :: es) = e.2 + total es := rfl
    by_cases he : e.1 < start
    · rw [List.filter_cons_of_pos (by simpa using he), List.filter_cons_of_neg (by simpa using he),
        hsplit, ← ih, ← add_assoc]
      rfl
    · rw [List.filter_cons_of_neg (by simpa using he),
        List.filter_cons_of_pos (by simpa using he), hsplit, ← ih, add_left_comm]
      rfl

section

variable (h : Tracks s entries)
include h

theorem total_expired_le (start : Int) :
    total (entries.filter fun e => e.1 < start) ≤ s.slidingSumDelayMs := by
  have hsplit := total_filter_add entries start
  have hleft : 0 ≤ total (entries.filter fun e => start ≤ e.1) :=
    total_nonneg fun e he => h.nonneg e (List.mem_of_mem_filter he)
  rw [h.sum_eq]
  omega

theorem tracks_eraseDelays (start : Int) (it : Option Int)
    (hit : it ≠ none → Points it (entries.filter fun e => start ≤ e.1)) :
    Tracks (eraseDelays { s with
      maxDelayIt := it
      slidingSumDelayMs :=
        s.slidingSumDelayMs - total (entries.filter fun e => e.1 < start) } start)
      (entries.filter fun e => start ≤ e.1) := by
  have hsplit := total_filter_add entries start
  have hexpired : 0 ≤ total (entries.filter fun e => e.1 < start) :=
    total_nonneg fun e he => h.nonneg e (List.mem_of_mem_filter he)
  have hsum : s.slidingSumDelayMs - total (entries.filter fun e => e.1 < start) =
      total (entries.filter fun e => start ≤ e.1) := by
    rw [h.sum_eq]
    omega
  have hlt := h.total_lt
  unfold eraseDelays
  rw [left_eq h, hsum]
  dsimp only
  split
  case isTrue hnone =>
    exact ⟨rfl, rfl, points_recalculateMaxDelay _, h.ordered.filter _,
      fun e he => h.nonneg e (List.mem_of_mem_filter he), by omega⟩
  case isFalse hsome =>
    exact ⟨rfl, rfl, hit hsome, h.ordered.filter _,
      fun e he => h.nonneg e (List.mem_of_mem_filter he), by omega⟩

theorem removeOldDelays_eq (hfits : Fits (nowMs - kSendSideDelayWindowMs)) :
    s.removeOldDelays nowMs =
      (s.forgetDelays (entries.filter fun e => e.1 < nowMs - kSendSideDelayWindowMs)).map
        fun s => s.eraseDelays (nowMs - kSendSideDelayWindowMs) := by
  unfold removeOldDelays
  rw [int64_ok hfits]
  show (s.forgetDelays _ >>= _) = _
  rw [expired_eq h]
  rfl

theorem exists_maxDelay (hne : entries ≠ []) :
    ∃ time delay, s.maxDelayIt = some time ∧ s.maxDelay = .ok delay ∧
      (time, delay) ∈ entries ∧ ∀ e ∈ entries, e.2 ≤ delay := by
  have hpoints := h.points
  cases hit : s.maxDelayIt with
  | none =>
    rw [hit] at hpoints
    exact absurd hpoints hne
  | some time =>
    rw [hit] at hpoints
    obtain ⟨delay, hmem, hlargest⟩ := hpoints
    exact ⟨time, delay, rfl, maxDelay_eq hit (h.sendDelays_eq ▸ hmem)
      (h.sendDelays_eq ▸ h.ordered), hmem, hlargest⟩

theorem removeOldDelays_ok (hfits : Fits (nowMs - kSendSideDelayWindowMs))
    (hleaves : LeavesLast entries nowMs) :
    ∃ s', s.removeOldDelays nowMs = .ok s' ∧
      Tracks s' (entries.filter fun e => nowMs - kSendSideDelayWindowMs ≤ e.1) := by
  rw [removeOldDelays_eq h hfits]
  unfold LeavesLast at hleaves
  generalize nowMs - kSendSideDelayWindowMs = start at hleaves ⊢
  by_cases hempty : entries = []
  · subst hempty
    refine ⟨_, rfl, ?_⟩
    have htracks := tracks_eraseDelays h start s.maxDelayIt fun _ => h.points
    rwa [show s.slidingSumDelayMs - total ([].filter fun e => e.1 < start) =
      s.slidingSumDelayMs from sub_zero _] at htracks
  · obtain ⟨time, delay, hit, hmax, hmem, hlargest⟩ := exists_maxDelay h hempty
    have hlast : ∀ e ∈ (entries.filter fun e => e.1 < start).dropLast, e.2 ≠ delay := by
      intro e he heq
      obtain ⟨other, hother, hlt⟩ := hleaves e he
      exact absurd (hlargest other hother) (not_le.2 (heq ▸ hlt))
    have hforget := forgetDelays_ok hmax
      (fun e he => h.nonneg e (List.mem_of_mem_filter he)) (total_expired_le h start)
      (h.sum_eq ▸ h.total_lt) hlast
    rw [hforget]
    refine ⟨_, rfl, tracks_eraseDelays h start _ ?_⟩
    split
    case isTrue hout => exact fun hsome => absurd rfl hsome
    case isFalse hstays =>
      intro _
      rw [hit]
      refine ⟨delay, List.mem_filter.2 ⟨hmem, ?_⟩, fun e he =>
        hlargest e (List.mem_of_mem_filter he)⟩
      refine decide_eq_true (not_lt.1 fun hlt => hstays ⟨(time, delay), ?_, rfl⟩)
      exact List.mem_filter.2 ⟨hmem, decide_eq_true hlt⟩

theorem removeOldDelays_error
    (hnot : ¬(Fits (nowMs - kSendSideDelayWindowMs) ∧ LeavesLast entries nowMs)) :
    ∃ f, s.removeOldDelays nowMs = .error f := by
  by_cases hfits : Fits (nowMs - kSendSideDelayWindowMs)
  · have hearly : ¬LeavesLast entries nowMs := fun hleaves => hnot ⟨hfits, hleaves⟩
    rw [removeOldDelays_eq h hfits]
    unfold LeavesLast at hearly
    push Not at hearly
    obtain ⟨e, he, hlargest'⟩ := hearly
    have hmem : e ∈ entries := List.mem_of_mem_filter (List.dropLast_subset _ he)
    obtain ⟨time, delay, -, hmax, hat, hlargest⟩ := exists_maxDelay h (List.ne_nil_of_mem hmem)
    have heq : e.2 = delay := le_antisymm (hlargest e hmem) (hlargest' _ hat)
    rw [forgetDelays_error hmax (fun e he => h.nonneg e (List.mem_of_mem_filter he))
      (total_expired_le h _) (h.sum_eq ▸ h.total_lt) ⟨e, he, heq⟩]
    exact ⟨_, rfl⟩
  · refine ⟨.overflow, ?_⟩
    unfold removeOldDelays
    rw [int64_error hfits]
    rfl

end

end Removal

/-! ## The insertion -/

section Insertion

variable {s : SendDelayStatistics} {entries others : List (Int × Int)} {newDelayMs nowMs : Int}

/-- The entry is stored, and its delay is left to be added and compared. -/
structure Inserted (s : SendDelayStatistics) (others : List (Int × Int))
    (newDelayMs nowMs : Int) : Prop where
  sendDelays_eq : s.sendDelays = others ++ [(nowMs, newDelayMs)]
  sum_eq : s.slidingSumDelayMs = total others
  empty : s.maxDelayIt = none → others = []
  largest : ∀ time, s.maxDelayIt = some time →
    ∃ delay, (time, delay) ∈ others ++ [(nowMs, newDelayMs)] ∧ ∀ e ∈ others, e.2 ≤ delay

theorem eq_filter_concat (hordered : entries.Pairwise fun a b => a.1 < b.1)
    (hle : ∀ e ∈ entries, e.1 ≤ nowMs) {e : Int × Int} (hmem : e ∈ entries) (he : e.1 = nowMs) :
    entries = entries.filter (fun x => x.1 ≠ nowMs) ++ [e] := by
  obtain ⟨pre, post, rfl⟩ := List.append_of_mem hmem
  obtain ⟨-, hlast, hbefore⟩ := List.pairwise_append.1 hordered
  have hpost : post = [] := List.eq_nil_iff_forall_not_mem.2 fun x hx =>
    absurd ((List.pairwise_cons.1 hlast).1 x hx)
      (not_lt.2 ((hle x (by simp [hx])).trans he.ge))
  subst hpost
  have hpre : ∀ x ∈ pre, decide (x.1 ≠ nowMs) = true := fun x hx =>
    decide_eq_true (he ▸ (hbefore x hx e List.mem_cons_self).ne)
  rw [List.filter_append, List.filter_eq_self.2 hpre, List.filter_cons_of_neg (by simp [he]),
    List.filter_nil, List.append_nil]

theorem insertDelay_new (h : Tracks s entries) (hle : ∀ e ∈ entries, e.1 ≤ nowMs)
    (hnone : ∀ e ∈ entries, e.1 ≠ nowMs) :
    ∃ s', s.insertDelay newDelayMs nowMs = .ok s' ∧ Inserted s' entries newDelayMs nowMs := by
  have hfind : s.sendDelays.find? (fun e => e.1 = nowMs) = none := by
    rw [h.sendDelays_eq]
    exact List.find?_eq_none.2 fun e he => by simpa using hnone e he
  have hinsert : Ordered.insertBy (fun a b => decide (a < b)) Prod.fst (nowMs, newDelayMs)
      s.sendDelays = entries ++ [(nowMs, newDelayMs)] := by
    rw [h.sendDelays_eq]
    exact Ordered.insertBy_eq_append fun e he =>
      decide_eq_true (lt_of_le_of_ne (hle e he) (hnone e he))
  refine ⟨{ s with sendDelays := entries ++ [(nowMs, newDelayMs)] }, ?_, rfl, h.sum_eq,
    fun hit => ?_, fun time hit => ?_⟩
  · unfold insertDelay
    rw [hfind, hinsert]
  · have hpoints := h.points
    rwa [show s.maxDelayIt = none from hit] at hpoints
  · have hpoints := h.points
    rw [show s.maxDelayIt = some time from hit] at hpoints
    obtain ⟨delay, hmem, hlargest⟩ := hpoints
    exact ⟨delay, List.mem_append_left _ hmem, hlargest⟩

theorem toInt_of_lt (hlow : 0 ≤ n) (hhigh : n < 2 ^ 31) : toInt n = n := by
  unfold toInt
  omega

theorem toInt_ne (hhigh : 2 ^ 31 ≤ n) : toInt n ≠ n := by
  unfold toInt
  omega

variable {previous : Int}

theorem insertDelay_eq (h : Tracks s (others ++ [(nowMs, previous)])) :
    s.insertDelay newDelayMs nowMs =
      (int64 (s.slidingSumDelayMs - toInt previous)).map fun sum =>
        let s : SendDelayStatistics := { s with
          slidingSumDelayMs := sum
          sendDelays := others ++ [(nowMs, newDelayMs)] }
        if s.maxDelayIt = some nowMs ∧ newDelayMs < toInt previous then s.recalculateMaxDelay
        else s := by
  have hfind : s.sendDelays.find? (fun e => e.1 = nowMs) = some (nowMs, previous) := by
    rw [h.sendDelays_eq]
    exact (Keyed.find?_key_iff (nodup_times h.ordered)).2 ⟨by simp, rfl⟩
  have hothers : others.map (fun e => if e.1 = nowMs then (nowMs, newDelayMs) else e) = others := by
    refine (List.map_congr_left fun e he => ?_).trans (List.map_id others)
    have hlt : e.1 < nowMs :=
      (List.pairwise_append.1 h.ordered).2.2 e he (nowMs, previous) List.mem_cons_self
    exact if_neg hlt.ne
  have hmap : s.sendDelays.map (fun e => if e.1 = nowMs then (nowMs, newDelayMs) else e) =
      others ++ [(nowMs, newDelayMs)] := by
    rw [h.sendDelays_eq, List.map_append, hothers]
    simp
  unfold insertDelay
  rw [hfind]
  simp only [hmap]
  rfl

theorem insertDelay_replaced (h : Tracks s (others ++ [(nowMs, previous)]))
    (hshort : previous < 2 ^ 31) :
    ∃ s', s.insertDelay newDelayMs nowMs = .ok s' ∧ Inserted s' others newDelayMs nowMs := by
  have hnonneg : 0 ≤ previous := h.nonneg (nowMs, previous) (by simp)
  have hothers : 0 ≤ total others := total_nonneg fun e he => h.nonneg e (by simp [he])
  have htotal : total (others ++ [(nowMs, previous)]) = total others + previous := by
    simp [total]
  have hsum : s.slidingSumDelayMs - toInt previous = total others := by
    rw [h.sum_eq, toInt_of_lt hnonneg hshort]
    omega
  have hfits : Fits (s.slidingSumDelayMs - toInt previous) := by
    have hlt := h.total_lt
    unfold Fits
    omega
  rw [insertDelay_eq h, int64_ok hfits, hsum, toInt_of_lt hnonneg hshort]
  refine ⟨_, rfl, ?_⟩
  have hpoints := h.points
  dsimp only
  split
  case isTrue hbelow =>
    have hnew := points_recalculateMaxDelay
      ⟨others ++ [(nowMs, newDelayMs)], s.maxDelayIt, total others, s.accumulatedDelayMs⟩
    refine ⟨rfl, rfl, fun hit => ?_, fun time hit => ?_⟩
    · rw [hit] at hnew
      simp [Points] at hnew
    · rw [hit] at hnew
      obtain ⟨delay, hmem, hlargest⟩ := hnew
      exact ⟨delay, hmem, fun e he => hlargest e (by simp [he])⟩
  case isFalse hkept =>
    refine ⟨rfl, rfl, fun hit => ?_, fun time hit => ?_⟩
    · rw [show s.maxDelayIt = none from hit] at hpoints
      simp [Points] at hpoints
    · have hat : s.maxDelayIt = some time := hit
      rw [hat] at hpoints
      obtain ⟨delay, hmem, hlargest⟩ := hpoints
      rcases List.mem_append.1 hmem with hmem | hmem
      · exact ⟨delay, List.mem_append_left _ hmem, fun e he => hlargest e (by simp [he])⟩
      · -- the iterator is at the entry, which does not become smaller
        obtain ⟨rfl, rfl⟩ := Prod.mk.inj (List.mem_singleton.1 hmem)
        have hle : delay ≤ newDelayMs := not_lt.1 fun hlt => hkept ⟨hat, hlt⟩
        exact ⟨newDelayMs, by simp, fun e he => (hlargest e (by simp [he])).trans hle⟩

theorem insertDelay_long (h : Tracks s (others ++ [(nowMs, previous)]))
    (hlong : 2 ^ 31 ≤ previous) {s' : SendDelayStatistics}
    (hinsert : s.insertDelay newDelayMs nowMs = .ok s') :
    s'.sendDelays = others ++ [(nowMs, newDelayMs)] ∧ s'.slidingSumDelayMs ≠ total others := by
  rw [insertDelay_eq h] at hinsert
  obtain ⟨sum, hsum, rfl⟩ := CheckedMachine.map_ok hinsert
  have hvalue : sum = s.slidingSumDelayMs - toInt previous := by
    unfold int64 at hsum
    split at hsum <;> cases hsum
    rfl
  have htotal : total (others ++ [(nowMs, previous)]) = total others + previous := by
    simp [total]
  have hne := toInt_ne hlong
  have hwrong : sum ≠ total others := by
    rw [hvalue, h.sum_eq]
    omega
  dsimp only
  split
  · exact ⟨rfl, hwrong⟩
  · exact ⟨rfl, hwrong⟩

theorem raiseMaxDelay_ok (h : Inserted s others newDelayMs nowMs)
    (hordered : (others ++ [(nowMs, newDelayMs)]).Pairwise fun a b => a.1 < b.1) :
    ∃ it, s.raiseMaxDelay newDelayMs nowMs = .ok { s with maxDelayIt := it } ∧
      Points it (others ++ [(nowMs, newDelayMs)]) ∧ it ≠ none := by
  unfold raiseMaxDelay
  split
  case isTrue hnone =>
    refine ⟨some nowMs, rfl, ⟨newDelayMs, by simp, ?_⟩, by simp⟩
    rw [h.empty hnone]
    simp
  case isFalse hsome =>
    obtain ⟨time, hit⟩ := Option.ne_none_iff_exists'.1 hsome
    obtain ⟨delay, hmem, hlargest⟩ := h.largest time hit
    rw [maxDelay_eq hit (h.sendDelays_eq ▸ hmem) (h.sendDelays_eq ▸ hordered)]
    by_cases hlt : delay < newDelayMs
    · refine ⟨some nowMs, congrArg _ (if_pos hlt), ⟨newDelayMs, by simp, ?_⟩, by simp⟩
      intro e he
      rcases List.mem_append.1 he with he | he
      · exact (hlargest e he).trans hlt.le
      · rw [List.mem_singleton.1 he]
    · refine ⟨some time, (congrArg _ (if_neg hlt)).trans (by rw [← hit]), ⟨delay, hmem, ?_⟩,
        by simp⟩
      intro e he
      rcases List.mem_append.1 he with he | he
      · exact hlargest e he
      · rw [List.mem_singleton.1 he]
        exact not_lt.1 hlt

theorem raiseMaxDelay_same {s' : SendDelayStatistics}
    (h : s.raiseMaxDelay newDelayMs nowMs = .ok s') :
    s'.slidingSumDelayMs = s.slidingSumDelayMs ∧ s'.sendDelays = s.sendDelays := by
  unfold raiseMaxDelay at h
  split at h
  · cases h
    exact ⟨rfl, rfl⟩
  · obtain ⟨max, -, rfl⟩ := CheckedMachine.map_ok h
    split
    · exact ⟨rfl, rfl⟩
    · exact ⟨rfl, rfl⟩

end Insertion

/-! ## The notification -/

/-- The notification is about these entries: the average is rounded to the nearest, half up, and
the maximum is one of them. -/
structure Reports (update : SendDelayUpdate) (entries : List (Int × Int)) : Prop where
  average_near : 2 * (total entries - entries.length * update.avgDelayMs) < entries.length
  average_le : 2 * (entries.length * update.avgDelayMs - total entries) ≤ entries.length
  attained : ∃ e ∈ entries, e.2 = update.maxDelayMs
  bound : ∀ e ∈ entries, e.2 ≤ update.maxDelayMs

theorem length_le_window {nowMs : Int} (hordered : entries.Pairwise fun a b => a.1 < b.1)
    (hin : ∀ e ∈ entries, nowMs - kSendSideDelayWindowMs ≤ e.1 ∧ e.1 ≤ nowMs) :
    entries.length ≤ 1001 := by
  have hsubset : (entries.map Prod.fst).toFinset ⊆ Finset.Icc (nowMs - 1000) nowMs := by
    intro time htime
    obtain ⟨e, he, rfl⟩ := List.mem_map.1 (List.mem_toFinset.1 htime)
    exact Finset.mem_Icc.2 (hin e he)
  have hcard := Finset.card_le_card hsubset
  rw [List.toFinset_card_of_nodup (nodup_times hordered), List.length_map, Int.card_Icc] at hcard
  omega

theorem avgDelay_spec {sum : Int} {count : Nat} (hlow : 0 ≤ sum) (hhigh : sum < 2 ^ 63)
    (hpos : 0 < count) (hcount : count ≤ 1001) :
    0 ≤ avgDelay sum count ∧ 2 * (sum - count * avgDelay sum count) < count ∧
      2 * (count * avgDelay sum count - sum) ≤ count := by
  have hunsigned : (sum + (count : Int) / 2) % 2 ^ 64 = sum + (count : Int) / 2 :=
    Int.emod_eq_of_lt (by omega) (by omega)
  have hnonneg : 0 ≤ (sum + (count : Int) / 2) / count := Int.ediv_nonneg (by omega) (by omega)
  have hfits : (sum + (count : Int) / 2) / count < 2 ^ 63 :=
    Int.ediv_lt_of_lt_mul (by omega) (by omega)
  have heq : avgDelay sum count = (sum + (count : Int) / 2) / count := by
    unfold avgDelay toInt64
    rw [hunsigned]
    omega
  have hle := Int.mul_ediv_self_le (x := sum + (count : Int) / 2) (k := count) (by omega)
  have hlt := Int.lt_mul_ediv_self_add (x := sum + (count : Int) / 2) (k := count) (by omega)
  rw [heq]
  generalize (count : Int) * ((sum + (count : Int) / 2) / count) = product at hle hlt ⊢
  omega

theorem notifyDelay_ok {s : SendDelayStatistics} {newDelayMs : Int}
    (hentries : s.sendDelays = entries) (hsum : s.slidingSumDelayMs + newDelayMs = total entries)
    (hpoints : Points s.maxDelayIt entries) (hne : s.maxDelayIt ≠ none)
    (hordered : entries.Pairwise fun a b => a.1 < b.1) (hnonneg : ∀ e ∈ entries, 0 ≤ e.2)
    (hlt : total entries < 2 ^ 63) (hcount : entries.length ≤ 1001) (ssrc : Nat) :
    ∃ s' update, s.notifyDelay newDelayMs ssrc = .ok (s', some update) ∧ Tracks s' entries ∧
      Reports update entries := by
  subst hentries
  have htotal := total_nonneg hnonneg
  have hfits : Fits (total s.sendDelays) := ⟨by omega, hlt⟩
  obtain ⟨time, hit⟩ := Option.ne_none_iff_exists'.1 hne
  have hpoints' := hpoints
  rw [hit] at hpoints'
  obtain ⟨delay, hmem, hlargest⟩ := hpoints'
  obtain ⟨havg, hnear, hle⟩ := avgDelay_spec htotal hlt (List.length_pos_of_mem hmem) hcount
  have hmax : s.maxDelay = .ok delay := maxDelay_eq hit hmem hordered
  refine ⟨{ s with
    slidingSumDelayMs := total s.sendDelays
    accumulatedDelayMs := (s.accumulatedDelayMs + newDelayMs.toNat) % 2 ^ 64 },
    ⟨avgDelay (total s.sendDelays) s.sendDelays.length, delay,
      toInt64 ((s.accumulatedDelayMs + newDelayMs.toNat) % 2 ^ 64 : Nat), ssrc⟩, ?_,
    ⟨rfl, rfl, hpoints, hordered, hnonneg, hlt⟩, ⟨hnear, hle, ⟨_, hmem, rfl⟩, hlargest⟩⟩
  unfold notifyDelay
  rw [hsum, int64_ok hfits]
  show (if avgDelay (total s.sendDelays) s.sendDelays.length < 0 then _ else _) = _
  rw [if_neg (not_lt.2 havg)]
  show ((s.maxDelay : Except Fault Int) >>= _) = _
  rw [hmax]
  rfl

/-! ## One call -/

/-- The conditions under which a call reports the window. -/
structure Meets (done : List Call) (call : Call) : Prop where
  start_fits : Fits (call.nowMs - kSendSideDelayWindowMs)
  total_lt : total (window (done ++ [call])) < 2 ^ 63
  leavesLast : LeavesLast (window done) call.nowMs
  replaced : ∀ e ∈ window done, e.1 = call.nowMs → e.2 < 2 ^ 31

/-- The call reports the window, and the sum is that of its entries. -/
def Lawful (done : List Call) (s : SendDelayStatistics) (call : Call) : Prop :=
  ∃ s' update, (delayMachine true).step s call = .ok (s', some update) ∧
    Reports update (window (done ++ [call])) ∧
    s'.slidingSumDelayMs = total (window (done ++ [call]))

theorem windowAfter_eq (entries : List (Int × Int)) (call : Call) :
    windowAfter entries call =
      (entries.filter fun e => call.nowMs - kSendSideDelayWindowMs ≤ e.1).filter
        (fun e => e.1 ≠ call.nowMs) ++ [(call.nowMs, call.newDelayMs)] := by
  rw [windowAfter, List.filter_filter]
  congr 2
  funext e
  rw [Bool.decide_and, Bool.and_comm]

theorem mem_window {done : List Call} {e : Int × Int} (h : e ∈ window done) :
    ∃ earlier ∈ done, e = (earlier.nowMs, earlier.newDelayMs) := by
  unfold window at h
  split at h
  · cases h
  · have hmem := (Latest.latest_sublist _ _).subset (List.mem_of_mem_filter h)
    obtain ⟨earlier, hearlier, rfl⟩ := List.mem_map.1 hmem
    exact ⟨earlier, hearlier, rfl⟩

theorem step_eq {call : Call} (hnonneg : 0 ≤ call.newDelayMs) (s : SendDelayStatistics) :
    (delayMachine true).step s call = (do
      let s ← s.removeOldDelays call.nowMs
      let s ← s.insertDelay call.newDelayMs call.nowMs
      let s ← s.raiseMaxDelay call.newDelayMs call.nowMs
      s.notifyDelay call.newDelayMs call.ssrc) :=
  if_neg (by simpa using hnonneg)

section Step

variable {done : List Call} {call : Call} {s : SendDelayStatistics}

theorem times_le (hproper : Proper done call) : ∀ e ∈ window done, e.1 ≤ call.nowMs := by
  intro e he
  obtain ⟨earlier, hearlier, rfl⟩ := mem_window he
  exact hproper.2 earlier hearlier

theorem step_ok (h : Tracks s (window done)) (hproper : Proper done call)
    (hmeets : Meets done call) :
    ∃ s' update, (delayMachine true).step s call = .ok (s', some update) ∧
      Tracks s' (window (done ++ [call])) ∧ Reports update (window (done ++ [call])) := by
  obtain ⟨s₁, hremove, h₁⟩ := removeOldDelays_ok h hmeets.start_fits hmeets.leavesLast
  have hle : ∀ e ∈ (window done).filter fun e => call.nowMs - kSendSideDelayWindowMs ≤ e.1,
      e.1 ≤ call.nowMs := fun e he => times_le hproper e (List.mem_of_mem_filter he)
  have hwindow := (window_concat hproper.2).trans (windowAfter_eq (window done) call)
  have hshort : ∀ e ∈ (window done).filter fun e => call.nowMs - kSendSideDelayWindowMs ≤ e.1,
      e.1 = call.nowMs → e.2 < 2 ^ 31 := fun e he =>
    hmeets.replaced e (List.mem_of_mem_filter he)
  have hlt := hmeets.total_lt
  rw [hwindow] at hlt ⊢
  have hin : ∀ e ∈ (window done).filter fun e => call.nowMs - kSendSideDelayWindowMs ≤ e.1,
      call.nowMs - kSendSideDelayWindowMs ≤ e.1 := fun e he =>
    of_decide_eq_true (List.mem_filter.1 he).2
  generalize (window done).filter (fun e => call.nowMs - kSendSideDelayWindowMs ≤ e.1) = live
    at h₁ hle hshort hlt hin ⊢
  have hinsert : ∃ s₂, s₁.insertDelay call.newDelayMs call.nowMs = .ok s₂ ∧
      Inserted s₂ (live.filter fun e => e.1 ≠ call.nowMs) call.newDelayMs call.nowMs := by
    by_cases hsame : ∃ e ∈ live, e.1 = call.nowMs
    · obtain ⟨⟨_, previous⟩, hmem, rfl⟩ := hsame
      have hsplit := eq_filter_concat h₁.ordered hle hmem rfl
      rw [hsplit] at h₁
      exact insertDelay_replaced h₁ (hshort _ hmem rfl)
    · have hother : ∀ e ∈ live, e.1 ≠ call.nowMs := fun e he heq => hsame ⟨e, he, heq⟩
      rw [List.filter_eq_self.2 fun e he => decide_eq_true (hother e he)]
      exact insertDelay_new h₁ hle hother
  obtain ⟨s₂, hinsert, h₂⟩ := hinsert
  generalize hothers : live.filter (fun e => e.1 ≠ call.nowMs) = others at h₂ hlt ⊢
  have hmem : ∀ e ∈ others, e ∈ live ∧ e.1 ≠ call.nowMs := by
    intro e he
    rw [← hothers] at he
    exact ⟨List.mem_of_mem_filter he, of_decide_eq_true (List.mem_filter.1 he).2⟩
  have hordered : (others ++ [(call.nowMs, call.newDelayMs)]).Pairwise fun a b => a.1 < b.1 := by
    refine List.pairwise_append.2 ⟨hothers ▸ h₁.ordered.filter _, List.pairwise_singleton _ _,
      fun e he x hx => ?_⟩
    rw [List.mem_singleton.1 hx]
    exact lt_of_le_of_ne (hle e (hmem e he).1) (hmem e he).2
  have hnonneg : ∀ e ∈ others ++ [(call.nowMs, call.newDelayMs)], 0 ≤ e.2 := by
    intro e he
    rcases List.mem_append.1 he with he | he
    · exact h₁.nonneg e (hmem e he).1
    · rw [List.mem_singleton.1 he]
      exact hproper.1
  have hinside : ∀ e ∈ others ++ [(call.nowMs, call.newDelayMs)],
      call.nowMs - kSendSideDelayWindowMs ≤ e.1 ∧ e.1 ≤ call.nowMs := by
    intro e he
    rcases List.mem_append.1 he with he | he
    · exact ⟨hin e (hmem e he).1, hle e (hmem e he).1⟩
    · rw [List.mem_singleton.1 he]
      unfold kSendSideDelayWindowMs
      constructor <;> omega
  obtain ⟨it, hraise, hpoints, hne⟩ := raiseMaxDelay_ok h₂ hordered
  have hsum : s₂.slidingSumDelayMs + call.newDelayMs =
      total (others ++ [(call.nowMs, call.newDelayMs)]) := by
    rw [h₂.sum_eq, total_append]
    simp [total]
  obtain ⟨s', update, hnotify, h', hreports⟩ := notifyDelay_ok (s := { s₂ with maxDelayIt := it })
    h₂.sendDelays_eq hsum hpoints hne hordered hnonneg hlt
    (length_le_window hordered hinside) call.ssrc
  refine ⟨s', update, ?_, h', hreports⟩
  rw [step_eq hproper.1, hremove]
  show (s₁.insertDelay _ _ >>= _) = _
  rw [hinsert]
  show (s₂.raiseMaxDelay _ _ >>= _) = _
  rw [hraise]
  exact hnotify

theorem notifyDelay_sum {s' : SendDelayStatistics} {update : Option SendDelayUpdate}
    {newDelayMs : Int} {ssrc : Nat} (h : s.notifyDelay newDelayMs ssrc = .ok (s', update)) :
    Fits (s.slidingSumDelayMs + newDelayMs) ∧
      s'.slidingSumDelayMs = s.slidingSumDelayMs + newDelayMs := by
  by_cases hfits : Fits (s.slidingSumDelayMs + newDelayMs)
  · refine ⟨hfits, ?_⟩
    unfold notifyDelay at h
    rw [int64_ok hfits] at h
    obtain ⟨_, hsum, h⟩ := CheckedMachine.bind_ok h
    cases hsum
    dsimp only at h
    split at h
    · cases h
    · obtain ⟨_, -, h⟩ := CheckedMachine.bind_ok h
      cases h
      rfl
  · unfold notifyDelay at h
    rw [int64_error hfits] at h
    cases h

theorem meets_of_lawful (h : Tracks s (window done)) (hproper : Proper done call)
    (hlawful : Lawful done s call) : Meets done call := by
  obtain ⟨s', update, hstep, -, hsum⟩ := hlawful
  rw [step_eq hproper.1] at hstep
  obtain ⟨s₁, hremove, hstep⟩ := CheckedMachine.bind_ok hstep
  obtain ⟨s₂, hinsert, hstep⟩ := CheckedMachine.bind_ok hstep
  obtain ⟨s₃, hraise, hnotify⟩ := CheckedMachine.bind_ok hstep
  have hremoves : Fits (call.nowMs - kSendSideDelayWindowMs) ∧
      LeavesLast (window done) call.nowMs := by
    by_contra hnot
    obtain ⟨f, herror⟩ := removeOldDelays_error h hnot
    cases hremove.symm.trans herror
  obtain ⟨hfits, hsum'⟩ := notifyDelay_sum hnotify
  refine ⟨hremoves.1, ?_, hremoves.2, fun e he hnow => not_le.1 fun hlong => ?_⟩
  · rw [← hsum, hsum']
    exact hfits.2
  · -- the sum is wrong from the replacement on
    obtain ⟨s₁', hremove', h₁⟩ := removeOldDelays_ok h hremoves.1 hremoves.2
    cases hremove.symm.trans hremove'
    have hlive : e ∈ (window done).filter fun e =>
        call.nowMs - kSendSideDelayWindowMs ≤ e.1 := by
      refine List.mem_filter.2 ⟨he, decide_eq_true ?_⟩
      unfold kSendSideDelayWindowMs
      omega
    have hsplit := eq_filter_concat h₁.ordered
      (fun x hx => times_le hproper x (List.mem_of_mem_filter hx)) hlive hnow
    rw [hsplit, show e = (call.nowMs, e.2) from Prod.ext hnow rfl] at h₁
    obtain ⟨-, hwrong⟩ := insertDelay_long h₁ hlong hinsert
    have hsame := (raiseMaxDelay_same hraise).1
    rw [hsum', hsame, window_concat hproper.2, windowAfter_eq, total_append] at hsum
    refine hwrong (add_right_cancel (hsum.trans (congrArg _ ?_)))
    simp [total]

theorem lawful_iff_meets (h : Tracks s (window done)) (hproper : Proper done call) :
    Lawful done s call ↔ Meets done call := by
  refine ⟨meets_of_lawful h hproper, fun hmeets => ?_⟩
  obtain ⟨s', update, hstep, h', hreports⟩ := step_ok h hproper hmeets
  exact ⟨s', update, hstep, hreports, h'.sum_eq⟩

end Step

/-! ## Runs -/

theorem tracks_create : Tracks create (window []) :=
  ⟨rfl, rfl, rfl, List.Pairwise.nil, by simp [window], by decide⟩

theorem proper_of_prefix {calls done : List Call} {call : Call}
    (htimes : calls.Pairwise fun a b => a.nowMs ≤ b.nowMs)
    (hdelays : ∀ call ∈ calls, 0 ≤ call.newDelayMs) (hpre : done ++ [call] <+: calls) :
    Proper done call :=
  ⟨hdelays call (hpre.subset (by simp)), fun earlier hearlier =>
    (List.pairwise_append.1 (htimes.sublist hpre.sublist)).2.2 earlier hearlier call
      List.mem_cons_self⟩

/-- **The law of the send delays.**  Every call of a run reports the latest delays of the last
second and keeps their sum, and none reads the end, exactly when every call meets the
conditions. -/
theorem send_delay_law {calls : List Call}
    (htimes : calls.Pairwise fun a b => a.nowMs ≤ b.nowMs)
    (hdelays : ∀ call ∈ calls, 0 ≤ call.newDelayMs) :
    (∀ done call, done ++ [call] <+: calls →
        ∃ s updates, (delayMachine true).run create done = .ok (s, updates) ∧
          Lawful done s call) ↔
      ∀ done call, done ++ [call] <+: calls → Meets done call := by
  refine CheckedMachine.forall_prefix_iff (A := Proper) (P := Lawful)
    (fun done s call (h : Tracks s (window done)) hproper => lawful_iff_meets h hproper)
    (fun done s call h hproper hmeets => ?_) tracks_create
    (fun done call hpre => proper_of_prefix htimes hdelays hpre)
  obtain ⟨s', update, hstep, h', -⟩ := step_ok h hproper hmeets
  exact ⟨s', some update, hstep, h'⟩

/-- A delay that is replaced in its instant, and one that leaves the window. -/
theorem send_delay_law_replaced :
    let calls : List Call := [⟨10, 0, 1⟩, ⟨20, 0, 1⟩, ⟨5, 500, 1⟩, ⟨7, 1200, 1⟩]
    (∀ done call, done ++ [call] <+: calls →
        ∃ s updates, (delayMachine true).run create done = .ok (s, updates) ∧
          Lawful done s call) ↔
      ∀ done call, done ++ [call] <+: calls → Meets done call :=
  send_delay_law (by decide) (by decide)

/-- The largest delay is the first of two that leave the window. -/
theorem end_dereferenced :
    ¬∀ done call, done ++ [call] <+: [⟨10, 0, 1⟩, ⟨5, 1, 1⟩, (⟨1, 2000, 1⟩ : Call)] →
      ∃ s updates, (delayMachine true).run create done = .ok (s, updates) ∧
        Lawful done s call := by
  intro h
  obtain ⟨s, updates, hrun, s', update, hstep, -⟩ :=
    h [⟨10, 0, 1⟩, ⟨5, 1, 1⟩] ⟨1, 2000, 1⟩ (List.prefix_refl _)
  have hok := CheckedMachine.run_concat_ok_iff.2 ⟨s, updates, _, hrun, hstep, rfl⟩
  have herror : (delayMachine true).run create ([⟨10, 0, 1⟩, ⟨5, 1, 1⟩] ++ [⟨1, 2000, 1⟩]) =
      .error .endDereferenced := by rfl
  cases hok.symm.trans herror

end SendDelayStatistics

end NaiveRtc.Rtp
