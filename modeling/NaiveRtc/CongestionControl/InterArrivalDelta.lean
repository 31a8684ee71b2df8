import NaiveRtc.Base.Units
import NaiveRtc.Lib.Machine
import Mathlib.Data.List.Perm.Basic

/-!
# Deltas between groups of packets

The model of `rtc/congestion_control/components/inter_arrival_delta.cpp`: packets are grouped by
their send times, bursts are merged, and two completed groups are compared.

* `Packet`, `PacketGroup`, `InterArrivalDelta`, `computeDeltas` — the class.
* `Fate`, `fate`, `Ledger` — what becomes of a packet, and all packets in their groups.
* `computeDeltas_some` — which deltas are returned.
* `inter_arrival_law` — the deltas and the groups over whole runs.
-/

namespace NaiveRtc.CongestionControl

/-- Packets of a burst arrive within this time of each other. -/
def kBurstDeltaThreshold : TimeDelta := .micros 5000

/-- A burst lasts no longer. -/
def kMaxBurstDuration : TimeDelta := .micros 100000

/-- So many groups in the wrong order reset the groups. -/
def kReorderedResetThreshold : Nat := 3

/-- A jump of the arrival times against the system clock resets them too. -/
def kArrivalTimeOffsetThreshold : TimeDelta := .micros 3000000

/-! ## The class -/

/-- The arguments of a call. -/
structure InterArrivalDelta.Packet where
  sendTime : Timestamp
  arrivalTime : Timestamp
  atTime : Timestamp
  packetSize : Nat
  deriving DecidableEq

/-- `InterArrivalDelta::Result`. -/
structure InterArrivalDelta.Result where
  sendTimeDelta : TimeDelta
  arrivalTimeDelta : TimeDelta
  packetSizeDelta : Int
  deriving DecidableEq

/-- `PacketGroup`. -/
structure InterArrivalDelta.PacketGroup where
  size : Nat
  firstPacketSendTime : Timestamp
  firstPacketArrivalTime : Timestamp
  lastPacketSendTime : Timestamp
  lastPacketArrivalTime : Timestamp
  lastSystemTime : Timestamp
  deriving DecidableEq

namespace InterArrivalDelta

/-- A new group, and what `Reset()` makes of one. -/
def PacketGroup.create : PacketGroup :=
  ⟨0, .minusInfinity, .minusInfinity, .minusInfinity, .minusInfinity, .minusInfinity⟩

/-- `IsStarted()`. -/
def PacketGroup.isStarted (g : PacketGroup) : Bool := g.firstPacketSendTime.isFinite

/-- `IsCompleted()`. -/
def PacketGroup.isCompleted (g : PacketGroup) : Bool := g.lastPacketArrivalTime.isFinite

end InterArrivalDelta

open InterArrivalDelta in
/-- `InterArrivalDelta`. -/
structure InterArrivalDelta where
  sendTimeGroupSpan : TimeDelta
  currPacketGroup : PacketGroup
  prevPacketGroup : PacketGroup
  numConsecutiveReorderedPacketGroups : Nat
  deriving DecidableEq

namespace InterArrivalDelta

/-- `InterArrivalDelta(send_time_group_span)`. -/
def create (sendTimeGroupSpan : TimeDelta) : InterArrivalDelta :=
  ⟨sendTimeGroupSpan, .create, .create, 0⟩

/-- `Reset()`. -/
def reset (s : InterArrivalDelta) : InterArrivalDelta :=
  { s with
    currPacketGroup := .create
    prevPacketGroup := .create
    numConsecutiveReorderedPacketGroups := 0 }

/-- `BelongsToBurst(arrival_time, send_time)`. -/
def belongsToBurst (s : InterArrivalDelta) (arrivalTime sendTime : Timestamp) : Bool :=
  let sendTimeDelta := sendTime.sub s.currPacketGroup.lastPacketSendTime
  if sendTimeDelta = .micros 0 then true
  else
    let arrivalTimeDelta := arrivalTime.sub s.currPacketGroup.lastPacketArrivalTime
    let propagationDelta := arrivalTimeDelta.sub sendTimeDelta
    propagationDelta.lt (.micros 0) && !kBurstDeltaThreshold.lt arrivalTimeDelta &&
      (arrivalTime.sub s.currPacketGroup.firstPacketArrivalTime).lt kMaxBurstDuration

/-- `IsNewPacketGroup(arrival_time, send_time)`. -/
def isNewPacketGroup (s : InterArrivalDelta) (arrivalTime sendTime : Timestamp) : Bool :=
  if s.currPacketGroup.isStarted = false then false
  else if s.belongsToBurst arrivalTime sendTime then false
  else s.sendTimeGroupSpan.lt (sendTime.sub s.currPacketGroup.firstPacketSendTime)

/-- The conversion to `int`. -/
def toInt (n : Int) : Int := (n + 2 ^ 31) % 2 ^ 32 - 2 ^ 31

/-- What comes out when the current group is compared with the previous one. -/
inductive Comparison
  | reset
  | reordered
  | deltas (result : Option Result)
  deriving DecidableEq

/-- The comparison of the two groups in `ComputeDeltas`. -/
def compare (s : InterArrivalDelta) : Comparison :=
  let curr := s.currPacketGroup
  let prev := s.prevPacketGroup
  if prev.isCompleted then
    let sendTimeDelta := curr.lastPacketSendTime.sub prev.lastPacketSendTime
    let arrivalTimeDelta := curr.lastPacketArrivalTime.sub prev.lastPacketArrivalTime
    let systemTimeDelta := curr.lastSystemTime.sub prev.lastSystemTime
    if (arrivalTimeDelta.sub systemTimeDelta).lt kArrivalTimeOffsetThreshold = false then .reset
    else if arrivalTimeDelta.lt (.micros 0) then
      if kReorderedResetThreshold ≤ s.numConsecutiveReorderedPacketGroups + 1 then .reset
      else .reordered
    else .deltas (some ⟨sendTimeDelta, arrivalTimeDelta, toInt (toInt curr.size - toInt prev.size)⟩)
  else .deltas none

/-- The end of `ComputeDeltas`. -/
def accumulate (s : InterArrivalDelta) (p : Packet) : InterArrivalDelta :=
  { s with currPacketGroup := { s.currPacketGroup with
    size := (s.currPacketGroup.size + p.packetSize) % 2 ^ 64
    lastPacketArrivalTime := p.arrivalTime
    lastSystemTime := p.atTime } }

/-- `ComputeDeltas(send_time, arrival_time, at_time, packet_size)`. -/
def computeDeltas (s : InterArrivalDelta) (p : Packet) : InterArrivalDelta × Option Result :=
  if s.currPacketGroup.isStarted = false then
    let s := { s with currPacketGroup := { s.currPacketGroup with
      firstPacketSendTime := p.sendTime
      lastPacketSendTime := p.sendTime
      firstPacketArrivalTime := p.arrivalTime } }
    (s.accumulate p, none)
  else if p.sendTime.lt s.currPacketGroup.firstPacketSendTime then (s, none)
  else if s.isNewPacketGroup p.arrivalTime p.sendTime then
    match s.compare with
    | .reset => (s.reset, none)
    | .reordered =>
      ({ s with
        numConsecutiveReorderedPacketGroups := s.numConsecutiveReorderedPacketGroups + 1 }, none)
    | .deltas result =>
      let s := { s with
        numConsecutiveReorderedPacketGroups :=
          if result.isSome then 0 else s.numConsecutiveReorderedPacketGroups
        prevPacketGroup := s.currPacketGroup
        currPacketGroup := { s.currPacketGroup with
          firstPacketSendTime := p.sendTime
          lastPacketSendTime := p.sendTime
          firstPacketArrivalTime := p.arrivalTime
          size := 0 } }
      (s.accumulate p, result)
  else
    let s := { s with currPacketGroup := { s.currPacketGroup with
      lastPacketSendTime := s.currPacketGroup.lastPacketSendTime.max p.sendTime } }
    (s.accumulate p, none)

/-! ## The groups -/

/-- What becomes of a packet. -/
inductive Fate
  /-- It starts the current group, or joins it. -/
  | starts
  | joins
  /-- It opens a new group. -/
  | opens
  /-- It was sent before the current group, and is rejected. -/
  | reordered
  /-- It would open a group, but the current one arrived before the previous one. -/
  | outOfOrder
  /-- It makes everything start again, without being counted itself. -/
  | resets
  deriving DecidableEq

/-- The fate of the next packet. -/
def fate (s : InterArrivalDelta) (p : Packet) : Fate :=
  if s.currPacketGroup.isStarted = false then .starts
  else if p.sendTime.lt s.currPacketGroup.firstPacketSendTime then .reordered
  else if s.isNewPacketGroup p.arrivalTime p.sendTime then
    match s.compare with
    | .reset => .resets
    | .reordered => .outOfOrder
    | .deltas _ => .opens
  else .joins

/-- All packets: those of earlier groups, of the two groups that are kept, and those that were not
counted. -/
structure Ledger where
  earlier : List (List Packet)
  previous : List Packet
  current : List Packet
  left : List Packet

/-- A packet is entered. -/
def Ledger.enter (l : Ledger) (p : Packet) : Fate → Ledger
  | .starts | .joins => { l with current := l.current ++ [p] }
  | .opens =>
    { l with earlier := l.earlier ++ [l.previous], previous := l.current, current := [p] }
  | .reordered | .outOfOrder => { l with left := l.left ++ [p] }
  | .resets =>
    { earlier := l.earlier ++ [l.previous, l.current], previous := [], current := []
      left := l.left ++ [p] }

/-- All groups. -/
def Ledger.groups (l : Ledger) : List (List Packet) := l.earlier ++ [l.previous, l.current]

/-- The bytes of some packets. -/
def total (packets : List Packet) : Nat := (packets.map Packet.packetSize).sum

/-- The estimator next to the ledger of its packets. -/
def interArrivalMachine : Machine (InterArrivalDelta × Ledger) Packet (Option Result) where
  step s p := (((s.1.computeDeltas p).1, s.2.enter p (s.1.fate p)), (s.1.computeDeltas p).2)

/-- The estimator and the ledger after some calls. -/
def after (sendTimeGroupSpan : TimeDelta) (calls : List Packet) : InterArrivalDelta × Ledger :=
  interArrivalMachine.final (create sendTimeGroupSpan, ⟨[], [], [], []⟩) calls

/-- A packet that starts or opens a group was not sent before the last one of the group before. -/
def InOrder (s : InterArrivalDelta) (p : Packet) : Prop :=
  match s.fate p with
  | .starts => p.sendTime.lt s.prevPacketGroup.lastPacketSendTime = false
  | .opens => p.sendTime.lt s.currPacketGroup.lastPacketSendTime = false
  | _ => True

/-! ## One packet -/

variable {s : InterArrivalDelta} {l : Ledger} {p : Packet}

/-- **What is returned** is the comparison of the two groups, for a packet that opens another. -/
theorem computeDeltas_some {result : Result} (h : (s.computeDeltas p).2 = some result) :
    s.fate p = .opens ∧ s.compare = .deltas (some result) := by
  unfold computeDeltas at h
  unfold fate
  split at h
  case isTrue => cases h
  case isFalse hstarted =>
    rw [if_neg hstarted]
    split at h
    case isTrue => cases h
    case isFalse hreordered =>
      rw [if_neg hreordered]
      split at h
      case isFalse => cases h
      case isTrue hnew =>
        rw [if_pos hnew]
        split at h
        · cases h
        · cases h
        case h_3 other hcompare =>
          obtain rfl : other = some result := h
          rw [hcompare]
          exact ⟨rfl, rfl⟩

theorem compare_deltas {result : Result} (h : s.compare = .deltas (some result)) :
    result.arrivalTimeDelta.lt (.micros 0) = false ∧
      result.sendTimeDelta =
        s.currPacketGroup.lastPacketSendTime.sub s.prevPacketGroup.lastPacketSendTime ∧
      result.packetSizeDelta =
        toInt (toInt s.currPacketGroup.size - toInt s.prevPacketGroup.size) := by
  unfold compare at h
  dsimp only at h
  split at h
  case isFalse => cases h
  case isTrue =>
    split at h
    case isTrue => cases h
    case isFalse =>
      split at h
      case isTrue => split at h <;> cases h
      case isFalse harrival =>
        cases h
        exact ⟨Bool.eq_false_iff.2 harrival, rfl, rfl⟩

/-- The sizes of the groups are those of their packets. -/
structure Accounts (s : InterArrivalDelta) (l : Ledger) : Prop where
  current : s.currPacketGroup.size = total l.current % 2 ^ 64
  previous : s.prevPacketGroup.size = total l.previous % 2 ^ 64

theorem total_concat (packets : List Packet) (p : Packet) :
    total (packets ++ [p]) = total packets + p.packetSize := by
  simp [total]

theorem accounts_step (h : Accounts s l) (p : Packet) :
    Accounts (s.computeDeltas p).1 (l.enter p (s.fate p)) := by
  obtain ⟨hcurrent, hprevious⟩ := h
  have hjoined : (s.currPacketGroup.size + p.packetSize) % 2 ^ 64 =
      total (l.current ++ [p]) % 2 ^ 64 := by
    rw [total_concat, hcurrent, Nat.mod_add_mod]
  unfold computeDeltas fate
  split
  · exact ⟨hjoined, hprevious⟩
  · split
    · exact ⟨hcurrent, hprevious⟩
    · split
      · split
        · exact ⟨rfl, rfl⟩
        · exact ⟨hcurrent, hprevious⟩
        · refine ⟨?_, hcurrent⟩
          show (0 + p.packetSize) % 2 ^ 64 = total [p] % 2 ^ 64
          simp [total]
      · exact ⟨hjoined, hprevious⟩

theorem perm_enter (l : Ledger) (p : Packet) (fate : Fate) :
    ((l.enter p fate).groups.flatten ++ (l.enter p fate).left).Perm
      (l.groups.flatten ++ l.left ++ [p]) := by
  have hmove : ∀ a b : List Packet, (a ++ [p] ++ b).Perm (a ++ b ++ [p]) := fun a b => by
    rw [List.append_assoc, List.append_assoc]
    exact List.perm_append_comm.append_left a
  cases fate with
  | starts | joins =>
    simpa [Ledger.groups, Ledger.enter] using
      hmove (l.earlier.flatten ++ (l.previous ++ l.current)) l.left
  | opens =>
    simpa [Ledger.groups, Ledger.enter] using
      hmove (l.earlier.flatten ++ (l.previous ++ l.current)) l.left
  | reordered | outOfOrder | resets => simp [Ledger.groups, Ledger.enter]

theorem not_lt_trans {a b c : UnitValue} (hab : a.lt b = false) (hbc : b.lt c = false) :
    a.lt c = false := by
  revert hab hbc
  cases a <;> cases b <;> cases c <;> simp [UnitValue.lt]
  omega

theorem sub_not_negative {a b : UnitValue} (h : a.lt b = false) :
    (a.sub b).lt (.micros 0) = false := by
  revert h
  cases a <;> cases b <;> simp [UnitValue.lt, UnitValue.sub]

theorem max_not_lt {a c : UnitValue} (h : a.lt c = false) (b : UnitValue) :
    (a.max b).lt c = false := by
  unfold UnitValue.max
  split
  case isTrue hlt => exact not_lt_trans (UnitValue.lt_asymm hlt) h
  case isFalse => exact h

/-- The groups were sent in order. -/
structure Ordered (s : InterArrivalDelta) : Prop where
  within : s.currPacketGroup.lastPacketSendTime.lt s.currPacketGroup.firstPacketSendTime = false
  between : s.currPacketGroup.firstPacketSendTime.lt s.prevPacketGroup.lastPacketSendTime = false

theorem ordered_step (h : Ordered s) (hin : InOrder s p) : Ordered (s.computeDeltas p).1 := by
  obtain ⟨hwithin, hbetween⟩ := h
  unfold InOrder fate at hin
  unfold computeDeltas
  split
  case isTrue hstarted =>
    rw [if_pos hstarted] at hin
    exact ⟨UnitValue.lt_irrefl _, hin⟩
  case isFalse hstarted =>
    rw [if_neg hstarted] at hin
    split
    case isTrue => exact ⟨hwithin, hbetween⟩
    case isFalse hreordered =>
      rw [if_neg hreordered] at hin
      split
      case isTrue hnew =>
        rw [if_pos hnew] at hin
        split
        · exact ⟨rfl, rfl⟩
        · exact ⟨hwithin, hbetween⟩
        case h_3 result hcompare =>
          rw [hcompare] at hin
          exact ⟨UnitValue.lt_irrefl _, hin⟩
      case isFalse => exact ⟨max_not_lt hwithin _, hbetween⟩

/-! ## Runs -/

theorem toInt_of_fits {n : Int} (hlow : -2 ^ 31 ≤ n) (hhigh : n < 2 ^ 31) : toInt n = n := by
  unfold toInt
  omega

theorem accounts_after (sendTimeGroupSpan : TimeDelta) (calls : List Packet) :
    Accounts (after sendTimeGroupSpan calls).1 (after sendTimeGroupSpan calls).2 ∧
      ((after sendTimeGroupSpan calls).2.groups.flatten ++
        (after sendTimeGroupSpan calls).2.left).Perm calls := by
  refine interArrivalMachine.invariant_inputs
    (P := fun calls s => Accounts s.1 s.2 ∧ (s.2.groups.flatten ++ s.2.left).Perm calls)
    (fun done s p h (_ : True) => ?_) ⟨⟨rfl, rfl⟩, List.Perm.refl _⟩
    (interArrivalMachine.allGood_of_forall (fun _ _ => trivial) _ _)
  exact ⟨accounts_step h.1 p, (perm_enter s.2 p _).trans (h.2.append_right [p])⟩

/-- **The law of the deltas.**  In every run the deltas compare the two groups of the ledger and
no arrival delta is negative; every packet is in one group or was left out by its fate; and no
send delta is negative when groups are opened in order. -/
theorem inter_arrival_law (sendTimeGroupSpan : TimeDelta) (calls : List Packet) :
    (∀ done p result, done ++ [p] <+: calls →
      ((after sendTimeGroupSpan done).1.computeDeltas p).2 = some result →
        result.arrivalTimeDelta.lt (.micros 0) = false ∧
          (total (after sendTimeGroupSpan done).2.current < 2 ^ 31 →
            total (after sendTimeGroupSpan done).2.previous < 2 ^ 31 →
            result.packetSizeDelta = total (after sendTimeGroupSpan done).2.current -
              total (after sendTimeGroupSpan done).2.previous)) ∧
    ((after sendTimeGroupSpan calls).2.groups.flatten ++
      (after sendTimeGroupSpan calls).2.left).Perm calls ∧
    ((∀ done p, done ++ [p] <+: calls → InOrder (after sendTimeGroupSpan done).1 p) →
      ∀ done p result, done ++ [p] <+: calls →
        ((after sendTimeGroupSpan done).1.computeDeltas p).2 = some result →
        result.sendTimeDelta.lt (.micros 0) = false) := by
  refine ⟨fun done p result _ hsome => ?_, (accounts_after sendTimeGroupSpan calls).2, ?_⟩
  · obtain ⟨harrival, -, hsize⟩ := compare_deltas (computeDeltas_some hsome).2
    obtain ⟨hcurrent, hprevious⟩ := (accounts_after sendTimeGroupSpan done).1
    refine ⟨harrival, fun hcurrlt hprevlt => ?_⟩
    have hfits : ∀ {n : Nat}, n < 2 ^ 31 → toInt (n % 2 ^ 64 : Nat) = n := by
      intro n hn
      rw [Nat.mod_eq_of_lt (by omega), toInt_of_fits (by omega) (by omega)]
    rw [hsize, hcurrent, hprevious, hfits hcurrlt, hfits hprevlt,
      toInt_of_fits (by omega) (by omega)]
  · intro hin done p result hpre hsome
    have hordered : ∀ done, done <+: calls → Ordered (after sendTimeGroupSpan done).1 := by
      intro done
      induction done using List.reverseRecOn with
      | nil => exact fun _ => ⟨rfl, rfl⟩
      | append_singleton done p ih =>
        intro hpre
        unfold after
        rw [Machine.final_append]
        exact ordered_step (ih ((List.prefix_append _ _).trans hpre)) (hin done p hpre)
    obtain ⟨hwithin, hbetween⟩ := hordered done ((List.prefix_append _ _).trans hpre)
    rw [(compare_deltas (computeDeltas_some hsome).2).2.1]
    exact sub_not_negative (not_lt_trans hwithin hbetween)

/-- **A negative send delta, and a packet that is not counted**: a burst reaches 20 ms ahead of
the group that follows it, and a packet arrives after the clock of the receiver has moved. -/
theorem negative_send_delta :
    let packet (sendTime arrivalTime atTime : Int) : Packet :=
      ⟨.micros sendTime, .micros arrivalTime, .micros atTime, 1000⟩
    ((after (.micros 5000) [packet 0 0 0, packet 20000 1000 1000,
        packet 6000 10000 10000]).1.computeDeltas (packet 12000 20000 20000)).2 =
      some ⟨.micros (-14000), .micros 9000, -1000⟩ ∧
    (after (.micros 5000) [packet 0 0 0, packet 6000 6000 6000,
        packet 12000 4000000 12000]).1.fate (packet 18000 4006000 18000) = .resets ∧
    (after (.micros 5000) [packet 0 0 0, packet 6000 6000 6000, packet 12000 4000000 12000,
        packet 18000 4006000 18000]).2.left = [packet 18000 4006000 18000] := by
  decide +kernel

end InterArrivalDelta

end NaiveRtc.CongestionControl
