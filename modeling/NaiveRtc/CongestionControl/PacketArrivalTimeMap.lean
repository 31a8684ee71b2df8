import NaiveRtc.Lib.Machine
import NaiveRtc.Lib.Window
import Mathlib.Data.List.GetD
import Mathlib.Data.List.TakeWhile

/-!
# Arrival times by packet id

`rtc/congestion_control/receive_side/packet_arrival_time_map.cpp`: a deque of arrival times,
zero where nothing was received, over a window of at most `kMaxNumberOfPackets` ids.

* `addPacket`, `eraseTo`, `removeOldPackets`, `hasReceived`, `at'` — the operations.
* `entry` — the deque read as a partial map.
* `recordedAfter` — what each operation is to do to the map of latest arrival times.
* `arrival_time_map_refines` — the deque is that map, along every run.
-/

namespace NaiveRtc

/-- `PacketArrivalTimeMap`. -/
structure PacketArrivalTimeMap where
  arrivalTimes : List Int
  beginPacketId : Int
  hasReceivedPacket : Bool
  deriving DecidableEq

namespace PacketArrivalTimeMap

/-- `kMaxNumberOfPackets`. -/
def kMaxNumberOfPackets : Nat := 32768

/-- `kPacketIdPlaceholder`. -/
def kPacketIdPlaceholder : Int := 0

/-- A new map. -/
def empty : PacketArrivalTimeMap := ⟨[], 0, false⟩

/-- `end_packet_id()`. -/
def endPacketId (m : PacketArrivalTimeMap) : Int := m.beginPacketId + m.arrivalTimes.length

/-- `at(packet_id)`; out of range it throws. -/
def at' (m : PacketArrivalTimeMap) (packetId : Int) : Except String Int :=
  let offset := packetId - m.beginPacketId
  if offset < 0 ∨ (m.arrivalTimes.length : Int) ≤ offset then
    .error ("The packet id[" ++ toString packetId ++ "] is not in rang[" ++
      toString m.beginPacketId ++ ", " ++ toString m.endPacketId ++ ").")
  else .ok (m.arrivalTimes.getD offset.toNat 0)

/-- `HasReceived(packet_id)`. -/
def hasReceived (m : PacketArrivalTimeMap) (packetId : Int) : Bool :=
  let offset := packetId - m.beginPacketId
  0 ≤ offset && offset < m.arrivalTimes.length &&
    m.arrivalTimes.getD offset.toNat 0 != kPacketIdPlaceholder

/-- The end of `AddPacket`: the packet goes behind the queue, which is filled up to it; none
if an assertion fails. -/
def appendAt (m : PacketArrivalTimeMap) (offset : Nat) (arrivalTimeMs : Int) :
    Option PacketArrivalTimeMap :=
  let filled := m.arrivalTimes ++
    List.replicate (offset - m.arrivalTimes.length) kPacketIdPlaceholder
  if filled.length ≠ offset then none
  else if kMaxNumberOfPackets < (filled ++ [arrivalTimeMs]).length then none
  else some { m with arrivalTimes := filled ++ [arrivalTimeMs] }

/-- How many packets to remove so that the queue starts with a received one. -/
def trimLeading (arrivalTimes : List Int) (packetsToRemove : Nat) : Nat :=
  packetsToRemove +
    ((arrivalTimes.drop packetsToRemove).takeWhile (· == kPacketIdPlaceholder)).length

/-- `AddPacket` for a packet that goes after the queue. -/
def addAfter (m : PacketArrivalTimeMap) (packetId : Int) (offset : Nat) (arrivalTimeMs : Int) :
    Option PacketArrivalTimeMap :=
  if kMaxNumberOfPackets ≤ offset then
    let packetsToRemove := offset - kMaxNumberOfPackets + 1
    if m.arrivalTimes.length ≤ packetsToRemove then
      appendAt { m with arrivalTimes := [], beginPacketId := packetId } 0 arrivalTimeMs
    else
      let packetsToRemove := trimLeading m.arrivalTimes packetsToRemove
      let rest := m.arrivalTimes.drop packetsToRemove
      if offset - packetsToRemove < rest.length then none
      else appendAt { m with
        arrivalTimes := rest
        beginPacketId := m.beginPacketId + packetsToRemove }
          (offset - packetsToRemove) arrivalTimeMs
  else appendAt m offset arrivalTimeMs

/-- `AddPacket`; none if an assertion fails. -/
def addPacket (m : PacketArrivalTimeMap) (packetId arrivalTimeMs : Int) :
    Option PacketArrivalTimeMap :=
  if m.hasReceivedPacket = false then
    some ⟨m.arrivalTimes ++ [arrivalTimeMs], packetId, true⟩
  else
    let offset := packetId - m.beginPacketId
    if 0 ≤ offset ∧ offset < m.arrivalTimes.length then
      some { m with arrivalTimes := m.arrivalTimes.set offset.toNat arrivalTimeMs }
    else if offset < 0 then
      let missingPackets := (-offset).toNat
      if kMaxNumberOfPackets < missingPackets + m.arrivalTimes.length then some m
      else
        some { m with
          arrivalTimes := (List.replicate missingPackets kPacketIdPlaceholder ++
            m.arrivalTimes).set 0 arrivalTimeMs
          beginPacketId := packetId }
    else m.addAfter packetId offset.toNat arrivalTimeMs

/-- `EraseTo`. -/
def eraseTo (m : PacketArrivalTimeMap) (packetId : Int) : PacketArrivalTimeMap :=
  if m.beginPacketId < packetId then
    let packetsToRemove := min (packetId - m.beginPacketId).toNat m.arrivalTimes.length
    { m with
      arrivalTimes := m.arrivalTimes.drop packetsToRemove
      beginPacketId := m.beginPacketId + packetsToRemove }
  else m

/-- The loop of `RemoveOldPackets`: the first id and the times that are left. -/
def removeOldLoop (packetId arrivalTimeMs : Int) : Int → List Int → Int × List Int
  | beginPacketId, [] => (beginPacketId, [])
  | beginPacketId, front :: times =>
    if beginPacketId < packetId ∧ front ≤ arrivalTimeMs then
      removeOldLoop packetId arrivalTimeMs (beginPacketId + 1) times
    else (beginPacketId, front :: times)

/-- `RemoveOldPackets`. -/
def removeOldPackets (m : PacketArrivalTimeMap) (packetId arrivalTimeMs : Int) :
    PacketArrivalTimeMap :=
  let left := removeOldLoop packetId arrivalTimeMs m.beginPacketId m.arrivalTimes
  { m with arrivalTimes := left.2, beginPacketId := left.1 }

/-! ## The deque as a partial map -/

/-- A time, or a hole. -/
def cell (time : Int) : Option Int := if time = kPacketIdPlaceholder then none else some time

/-- The arrival time of an id. -/
def entry (m : PacketArrivalTimeMap) : Int → Option Int :=
  Window.look m.beginPacketId (m.arrivalTimes.map cell)

@[simp] theorem cell_placeholder : cell kPacketIdPlaceholder = none := if_pos rfl

theorem cell_of_pos {time : Int} (h : 0 < time) : cell time = some time :=
  if_neg (by unfold kPacketIdPlaceholder; omega)

theorem hasReceived_and_at_iff (m : PacketArrivalTimeMap) (id t : Int) :
    m.hasReceived id = true ∧ m.at' id = .ok t ↔ m.entry id = some t := by
  by_cases hrange : 0 ≤ id - m.beginPacketId ∧ id - m.beginPacketId < m.arrivalTimes.length
  · have hoffset : (id - m.beginPacketId).toNat < m.arrivalTimes.length := by omega
    have hlook : m.entry id = cell (m.arrivalTimes.getD (id - m.beginPacketId).toNat 0) := by
      rw [entry, Window.look_eq_getElem? (by omega), List.getElem?_map,
        List.getElem?_eq_getElem hoffset, List.getD_eq_getElem _ _ hoffset]
      rfl
    rw [hlook, hasReceived, at', if_neg (by omega), cell]
    generalize m.arrivalTimes.getD (id - m.beginPacketId).toNat 0 = time
    simp only [hrange, decide_true, Bool.true_and, bne_iff_ne, Except.ok.injEq]
    by_cases hhole : time = kPacketIdPlaceholder
    · simp [hhole]
    · simp [hhole]
  · have hnone : m.entry id = none := by
      cases hentry : m.entry id with
      | none => rfl
      | some x =>
        have hin := Window.mem_range_of_look hentry
        rw [List.length_map] at hin
        exact absurd ⟨by omega, by omega⟩ hrange
    rw [hnone, hasReceived]
    simp only [Bool.and_eq_true, decide_eq_true_eq, reduceCtorEq, iff_false]
    exact fun h => hrange h.1.1

theorem hasReceived_iff (m : PacketArrivalTimeMap) (id : Int) :
    m.hasReceived id = true ↔ ∃ t, m.entry id = some t := by
  constructor
  · intro h
    refine ⟨m.arrivalTimes.getD (id - m.beginPacketId).toNat 0, ?_⟩
    rw [← hasReceived_and_at_iff]
    refine ⟨h, ?_⟩
    simp only [hasReceived, Bool.and_eq_true, decide_eq_true_eq] at h
    rw [at', if_neg (by omega)]
  · rintro ⟨t, ht⟩
    exact ((hasReceived_and_at_iff m id t).mpr ht).1

/-! ## Adding a packet -/

variable {m m' : PacketArrivalTimeMap} {id t : Int}

/-- The map after a packet was taken: the packet is in, what is too old for it is out, and
nothing else changed. -/
structure Taken (m : PacketArrivalTimeMap) (id t : Int) (m' : PacketArrivalTimeMap) : Prop where
  received : m'.hasReceivedPacket = true
  bounded : m'.arrivalTimes.length ≤ kMaxNumberOfPackets
  entry_eq : ∀ j, m'.entry j =
    if j = id then some t else if j ≤ id - kMaxNumberOfPackets then none else m.entry j

theorem mem_window {j x : Int} (h : m.entry j = some x) :
    m.beginPacketId ≤ j ∧ j < m.endPacketId := by
  have hin := Window.mem_range_of_look h
  rwa [List.length_map] at hin

theorem entry_of_lt {j : Int} (h : j < m.beginPacketId) : m.entry j = none :=
  Window.look_of_lt h _

theorem entry_of_ge {j : Int} (h : m.endPacketId ≤ j) : m.entry j = none :=
  Window.look_of_ge (by rwa [List.length_map])

variable {offset : Nat}

theorem appendAt_eq (hlength : m.arrivalTimes.length ≤ offset)
    (hmax : offset < kMaxNumberOfPackets) :
    m.appendAt offset t = some { m with
      arrivalTimes := m.arrivalTimes ++
        List.replicate (offset - m.arrivalTimes.length) kPacketIdPlaceholder ++ [t] } := by
  have hfilled : (m.arrivalTimes ++ List.replicate (offset - m.arrivalTimes.length)
      kPacketIdPlaceholder).length = offset := by
    rw [List.length_append, List.length_replicate]
    omega
  rw [appendAt, if_neg (not_not.mpr hfilled), if_neg]
  rw [List.length_append, hfilled, List.length_singleton]
  omega

theorem appendAt_spec (hlength : m.arrivalTimes.length ≤ offset)
    (hmax : offset < kMaxNumberOfPackets) (hreceived : m.hasReceivedPacket = true) (ht : 0 < t) :
    ∃ m', m.appendAt offset t = some m' ∧ m'.hasReceivedPacket = true ∧
      m'.arrivalTimes.length ≤ kMaxNumberOfPackets ∧
      ∀ j, m'.entry j = if j = m.beginPacketId + offset then some t else m.entry j := by
  refine ⟨_, appendAt_eq hlength hmax, hreceived, ?_, fun j => ?_⟩
  · simp only [List.length_append, List.length_replicate, List.length_singleton]
    omega
  · have hfilled : (((m.arrivalTimes.map cell) ++ List.replicate (offset - m.arrivalTimes.length)
        none).length : Int) = offset := by
      rw [List.length_append, List.length_replicate, List.length_map]
      omega
    simp only [entry, List.map_append, List.map_replicate, cell_placeholder, List.map_cons,
      List.map_nil, cell_of_pos ht]
    rw [Window.look_append, hfilled, Window.look_append, Window.look_replicate,
      Window.look_singleton, List.length_map]
    by_cases hj : j = m.beginPacketId + offset
    · rw [if_neg (by omega), if_pos hj, if_pos hj]
    · rw [if_neg hj, if_neg hj]
      have hbehind : m.beginPacketId + (m.arrivalTimes.length : Int) ≤ j → m.entry j = none :=
        entry_of_ge
      split_ifs with h₁ h₂
      · rfl
      · exact (hbehind (by omega)).symm
      · exact (hbehind (by omega)).symm

theorem trimLeading_spec {times : List Int} {n : Nat} (hn : n ≤ times.length) :
    n ≤ trimLeading times n ∧ trimLeading times n ≤ times.length ∧
      ∀ base j : Int, Window.look (base + trimLeading times n)
        ((times.drop (trimLeading times n)).map cell) j =
          if j < base + n then none else Window.look base (times.map cell) j := by
  have hholes := List.takeWhile_prefix (l := times.drop n) (· == kPacketIdPlaceholder)
  have hlength := hholes.length_le
  rw [List.length_drop] at hlength
  refine ⟨Nat.le_add_right _ _, by unfold trimLeading; omega, fun base j => ?_⟩
  rw [← Window.look_drop base j (by rwa [List.length_map]), trimLeading, Int.natCast_add,
    ← Int.add_assoc, ← List.drop_drop, List.map_drop, List.map_drop]
  refine Window.look_trim (base + n) j ?_ ?_
  · rw [List.length_drop, List.length_map]
    exact hlength
  · intro c hc
    rw [← List.map_drop, ← List.map_take, ← List.prefix_iff_eq_take.mp hholes] at hc
    obtain ⟨x, hx, rfl⟩ := List.mem_map.mp hc
    have hhole := List.mem_takeWhile_imp hx
    rw [eq_of_beq hhole, cell_placeholder]

theorem taken_appendAt {rest : PacketArrivalTimeMap}
    (hreceived : rest.hasReceivedPacket = true) (hlength : rest.arrivalTimes.length ≤ offset)
    (hmax : offset < kMaxNumberOfPackets) (ht : 0 < t) (hid : rest.beginPacketId + offset = id)
    (hentry : ∀ j, rest.entry j = if j ≤ id - kMaxNumberOfPackets then none else m.entry j) :
    ∃ m', rest.appendAt offset t = some m' ∧ Taken m id t m' := by
  obtain ⟨m', hm', hreceived', hbounded, hentry'⟩ := appendAt_spec hlength hmax hreceived ht
  refine ⟨m', hm', hreceived', hbounded, fun j => ?_⟩
  rw [hentry', hid, hentry]

theorem addAfter_spec (hreceived : m.hasReceivedPacket = true)
    (hlength : m.arrivalTimes.length ≤ offset) (ht : 0 < t) (hid : m.beginPacketId + offset = id) :
    ∃ m', m.addAfter id offset t = some m' ∧ Taken m id t m' := by
  have hend : m.endPacketId = m.beginPacketId + m.arrivalTimes.length := rfl
  by_cases hlarge : kMaxNumberOfPackets ≤ offset
  · rw [addAfter, if_pos hlarge]
    by_cases hclear : m.arrivalTimes.length ≤ offset - kMaxNumberOfPackets + 1
    · rw [if_pos hclear]
      refine taken_appendAt hreceived (Nat.le_refl 0) (by decide) ht (Int.add_zero id) fun j => ?_
      split_ifs with hj
      · rfl
      · exact (entry_of_ge (by omega)).symm
    · rw [if_neg hclear]
      obtain ⟨hle, hlen, hlook⟩ := trimLeading_spec (Nat.le_of_not_le hclear)
      have hrest : (m.arrivalTimes.drop (trimLeading m.arrivalTimes
          (offset - kMaxNumberOfPackets + 1))).length = m.arrivalTimes.length -
            trimLeading m.arrivalTimes (offset - kMaxNumberOfPackets + 1) := List.length_drop
      rw [if_neg (by omega)]
      refine taken_appendAt hreceived (by dsimp only; omega) (by omega) ht (by dsimp only; omega)
        fun j => ?_
      rw [entry, hlook]
      have hcut : j < m.beginPacketId + ((offset - kMaxNumberOfPackets + 1 : Nat) : Int) ↔
          j ≤ id - kMaxNumberOfPackets := by omega
      simp only [hcut, entry]
  · rw [addAfter, if_neg hlarge]
    refine taken_appendAt hreceived hlength (by omega) ht hid fun j => ?_
    split_ifs with hj
    · exact entry_of_lt (by omega)
    · rfl

/-- Whether `AddPacket` takes an id: always, unless it is before the queue and the window from
it to the end would be too long. -/
def accepts (m : PacketArrivalTimeMap) (id : Int) : Bool :=
  !m.hasReceivedPacket || decide (m.beginPacketId ≤ id) ||
    decide (m.endPacketId - id ≤ kMaxNumberOfPackets)

/-- What holds of every map: the queue is not too long, and empty before the first packet. -/
structure Bounded (m : PacketArrivalTimeMap) : Prop where
  length_le : m.arrivalTimes.length ≤ kMaxNumberOfPackets
  fresh : m.hasReceivedPacket = false → m.arrivalTimes = []

theorem addPacket_spec (h : Bounded m) (id : Int) (ht : 0 < t) :
    (m.accepts id = true ∧ ∃ m', m.addPacket id t = some m' ∧ Taken m id t m') ∨
    (m.accepts id = false ∧ m.addPacket id t = some m ∧ id < m.beginPacketId ∧
      kMaxNumberOfPackets < m.endPacketId - id) := by
  have hend : m.endPacketId = m.beginPacketId + m.arrivalTimes.length := rfl
  cases hreceived : m.hasReceivedPacket with
  | false =>
    refine .inl ⟨by simp [accepts, hreceived], _, by rw [addPacket, if_pos hreceived], rfl, ?_,
      fun j => ?_⟩
    · rw [h.fresh hreceived]
      exact Nat.le_of_ble_eq_true rfl
    · have hempty : m.entry j = none := by
        rw [entry, h.fresh hreceived]
        rfl
      rw [hempty, ite_self, entry, h.fresh hreceived]
      simp only [List.nil_append, List.map_cons, List.map_nil, cell_of_pos ht,
        Window.look_singleton]
  | true =>
    have hlength := h.length_le
    have hold : ∀ j, j ≤ id - kMaxNumberOfPackets → id < m.endPacketId → m.entry j = none :=
      fun j hj hid => entry_of_lt (by omega)
    rw [addPacket, if_neg (by simp [hreceived])]
    dsimp only
    split_ifs with hinside hbefore hfar
    · refine .inl ⟨by simp [accepts]; omega, _, rfl, hreceived, ?_, fun j => ?_⟩
      · rw [List.length_set]
        exact hlength
      · simp only [entry, List.map_set, cell_of_pos ht]
        rw [Window.look_set _ _ (by rw [List.length_map]; omega),
          show m.beginPacketId + ((id - m.beginPacketId).toNat : Int) = id by omega]
        split_ifs with hj hlow
        · rfl
        · exact hold j hlow (by omega)
        · rfl
    · exact .inr ⟨by simp [accepts, hreceived]; omega, rfl, by omega, by omega⟩
    · refine .inl ⟨by simp [accepts]; omega, _, rfl, hreceived, ?_, fun j => ?_⟩
      · rw [List.length_set, List.length_append, List.length_replicate]
        omega
      · simp only [entry, List.map_set, cell_of_pos ht, List.map_append, List.map_replicate,
          cell_placeholder]
        rw [Window.look_set _ _ (by rw [List.length_append, List.length_replicate]; omega),
          Window.look_append, Window.look_replicate, List.length_replicate, Int.natCast_zero,
          Int.add_zero, show id + ((-(id - m.beginPacketId)).toNat : Int) =
            m.beginPacketId by omega]
        have hbelow : j < m.beginPacketId → m.entry j = none := entry_of_lt
        split_ifs with hj hj' hlow hlow
        · rfl
        · rfl
        · exact (hbelow hj').symm
        · exact hbelow (by omega)
        · rfl
    · obtain ⟨m', hm', htaken⟩ := addAfter_spec hreceived
        (show m.arrivalTimes.length ≤ (id - m.beginPacketId).toNat by omega) ht
        (show m.beginPacketId + _ = id by omega)
      exact .inl ⟨by simp [accepts]; omega, m', hm', htaken⟩

/-! ## Removing packets -/

theorem entry_eraseTo (m : PacketArrivalTimeMap) (id j : Int) :
    (m.eraseTo id).entry j = if j < id then none else m.entry j := by
  have hend : m.endPacketId = m.beginPacketId + m.arrivalTimes.length := rfl
  rw [eraseTo]
  by_cases hid : m.beginPacketId < id
  · rw [if_pos hid]
    simp only [entry, List.map_drop]
    rw [Window.look_drop _ _ (by rw [List.length_map]; exact Nat.min_le_right _ _)]
    have hbehind : m.endPacketId ≤ j → m.entry j = none := entry_of_ge
    split_ifs with h₁ h₂ h₂
    · rfl
    · exact (hbehind (by omega)).symm
    · exact hbehind (by omega)
    · rfl
  · rw [if_neg hid]
    split_ifs with hj
    · exact entry_of_lt (by omega)
    · rfl

theorem removeOldLoop_eq (id t base : Int) (times : List Int) :
    ((removeOldLoop id t base times).1, (removeOldLoop id t base times).2.map cell) =
      Window.dropFront (fun j c => decide (j < id ∧ c.getD 0 ≤ t)) base (times.map cell) := by
  induction times generalizing base with
  | nil => rfl
  | cons front times ih =>
    have hfront : (cell front).getD 0 = front := by
      unfold cell kPacketIdPlaceholder
      split_ifs with h
      · exact h.symm
      · rfl
    rw [List.map_cons, Window.dropFront, removeOldLoop, hfront]
    by_cases hold : base < id ∧ front ≤ t
    · rw [if_pos hold, if_pos (decide_eq_true hold), ih]
    · rw [if_neg hold, if_neg (by simpa using hold)]
      rfl

theorem entry_removeOldPackets {m : PacketArrivalTimeMap} (hpos : ∀ j x, m.entry j = some x → 0 < x)
    (id t j x : Int) : (m.removeOldPackets id t).entry j = some x ↔
      m.entry j = some x ∧ ¬ (j < id ∧ ∀ i u, i ≤ j → m.entry i = some u → u ≤ t) := by
  have hloop := removeOldLoop_eq id t m.beginPacketId m.arrivalTimes
  have hbase := congrArg Prod.fst hloop
  have hcells := congrArg Prod.snd hloop
  dsimp only at hbase hcells
  rw [entry, removeOldPackets, hbase, hcells, Window.look_dropFront_eq_some]
  change m.entry j = some x ∧ (∃ i, m.beginPacketId ≤ i ∧ i ≤ j ∧
    decide (i < id ∧ (m.entry i).getD 0 ≤ t) = false) ↔ _
  refine and_congr_right fun hj => ?_
  constructor
  · rintro ⟨i, -, hij, hkept⟩ ⟨hjid, hall⟩
    have hyoung : ¬ (m.entry i).getD 0 ≤ t := fun hle => of_decide_eq_false hkept ⟨by omega, hle⟩
    cases hi : m.entry i with
    | some u =>
      rw [hi] at hyoung
      exact hyoung (hall i u hij hi)
    | none =>
      -- a hole stays only for a negative time, and then the entry itself is younger
      rw [hi] at hyoung
      have hx := hall j x (Int.le_refl j) hj
      have := hpos j x hj
      exact hyoung (by simp only [Option.getD_none]; omega)
  · intro hstays
    have hbase' := (mem_window hj).1
    by_cases hjid : j < id
    · obtain ⟨i, u, hij, hi, hu⟩ : ∃ i u, i ≤ j ∧ m.entry i = some u ∧ ¬ u ≤ t := by
        by_contra hnone
        push Not at hnone
        exact hstays ⟨hjid, fun i u hij hi => hnone i u hij hi⟩
      refine ⟨i, (mem_window hi).1, hij, decide_eq_false ?_⟩
      rw [hi]
      exact fun h => hu h.2
    · exact ⟨j, hbase', Int.le_refl j, decide_eq_false fun h => hjid h.1⟩

/-! ## Runs -/

/-- The calls that change the map. -/
inductive Op where
  | addPacket (packetId arrivalTimeMs : Int)
  | eraseTo (packetId : Int)
  | removeOldPackets (packetId arrivalTimeMs : Int)
  deriving DecidableEq

/-- A call; none if an assertion fails. -/
def apply (m : PacketArrivalTimeMap) : Op → Option PacketArrivalTimeMap
  | .addPacket packetId arrivalTimeMs => m.addPacket packetId arrivalTimeMs
  | .eraseTo packetId => some (m.eraseTo packetId)
  | .removeOldPackets packetId arrivalTimeMs => some (m.removeOldPackets packetId arrivalTimeMs)

/-- The map as a machine. -/
def machine : Machine (Option PacketArrivalTimeMap) Op Unit where
  step m op := (m.bind fun m => m.apply op, ())

open Classical in
/-- What a call is to do to the latest arrival times: a packet that is taken is recorded, and
ids that are `kMaxNumberOfPackets` or more below it are given up; `EraseTo` erases what is
below the id; `RemoveOldPackets` erases what is below the id, if it and everything before it
is old enough. -/
noncomputable def recordedAfter (m : PacketArrivalTimeMap) (recorded : Int → Option Int) :
    Op → Int → Option Int
  | .addPacket id t => fun j =>
    if m.accepts id = false then recorded j
    else if j = id then some t
    else if j ≤ id - kMaxNumberOfPackets then none
    else recorded j
  | .eraseTo id => fun j => if j < id then none else recorded j
  | .removeOldPackets id t => fun j =>
    if j < id ∧ ∀ i u, i ≤ j → recorded i = some u → u ≤ t then none else recorded j

/-- The latest arrival times after a run. -/
noncomputable def recordedRun (m : PacketArrivalTimeMap) (recorded : Int → Option Int) :
    List Op → Int → Option Int
  | [] => recorded
  | op :: ops =>
    match m.apply op with
    | none => recorded
    | some m' => recordedRun m' (m.recordedAfter recorded op) ops

/-- Arrival times are positive. -/
def Op.Timed : Op → Prop
  | .addPacket _ t => 0 < t
  | _ => True

instance : DecidablePred Op.Timed
  | .addPacket _ t => inferInstanceAs (Decidable (0 < t))
  | .eraseTo _ => isTrue trivial
  | .removeOldPackets _ _ => isTrue trivial

/-- A map that is what it should be. -/
structure Faithful (m : PacketArrivalTimeMap) (recorded : Int → Option Int) : Prop where
  bounded : Bounded m
  entry_eq : m.entry = recorded
  positive : ∀ j x, recorded j = some x → 0 < x

theorem Taken.bounded' (h : Taken m id t m') : Bounded m' :=
  ⟨h.bounded, fun hfalse => absurd (h.received.symm.trans hfalse) (by decide)⟩

theorem bounded_eraseTo (h : Bounded m) (id : Int) : Bounded (m.eraseTo id) := by
  rw [eraseTo]
  split_ifs
  · refine ⟨?_, fun hfalse => ?_⟩
    · rw [List.length_drop]
      exact Nat.le_trans (Nat.sub_le _ _) h.length_le
    · simp only [h.fresh hfalse, List.drop_nil]
  · exact h

theorem bounded_removeOldPackets (h : Bounded m) (id t : Int) :
    Bounded (m.removeOldPackets id t) := by
  have hcells := congrArg Prod.snd (removeOldLoop_eq id t m.beginPacketId m.arrivalTimes)
  have hlength := Window.length_dropFront (fun j c => decide (j < id ∧ c.getD 0 ≤ t))
    m.beginPacketId (m.arrivalTimes.map cell)
  rw [← hcells, List.length_map, List.length_map] at hlength
  refine ⟨Nat.le_trans hlength h.length_le, fun hfalse => ?_⟩
  simp only [removeOldPackets, h.fresh hfalse, removeOldLoop]

variable {recorded : Int → Option Int}

variable {op : Op}

theorem recordedAfter_eq_some {j x : Int}
    (h : m.recordedAfter recorded op j = some x) : recorded j = some x ∨ op = .addPacket j x := by
  cases op with
  | addPacket id t =>
    simp only [recordedAfter] at h
    split_ifs at h with hrefused hj
    · exact .inl h
    · obtain rfl := Option.some.inj h
      exact .inr (by rw [hj])
    · exact .inl h
  | eraseTo id =>
    simp only [recordedAfter] at h
    split_ifs at h
    exact .inl h
  | removeOldPackets id t =>
    simp only [recordedAfter] at h
    split_ifs at h
    exact .inl h

theorem positive_recordedAfter (h : ∀ j x, recorded j = some x → 0 < x) (hop : op.Timed) :
    ∀ j x, m.recordedAfter recorded op j = some x → 0 < x := by
  intro j x hj
  rcases recordedAfter_eq_some hj with hbefore | rfl
  · exact h j x hbefore
  · exact hop

theorem faithful_apply (h : Faithful m recorded) (hop : op.Timed) :
    ∃ m', m.apply op = some m' ∧ Faithful m' (m.recordedAfter recorded op) := by
  have hpositive : ∀ j x, m.recordedAfter recorded op j = some x → 0 < x :=
    positive_recordedAfter h.positive hop
  cases op with
  | addPacket id t =>
    obtain ⟨haccepts, m', hm', htaken⟩ | ⟨hrefused, hm, -⟩ := addPacket_spec h.bounded id hop
    · refine ⟨m', hm', htaken.bounded', ?_, hpositive⟩
      funext j
      dsimp only [recordedAfter]
      rw [htaken.entry_eq, h.entry_eq, haccepts, if_neg (show ¬ true = false by decide)]
    · refine ⟨m, hm, h.bounded, ?_, hpositive⟩
      funext j
      dsimp only [recordedAfter]
      rw [h.entry_eq, if_pos hrefused]
  | eraseTo id =>
    refine ⟨_, rfl, bounded_eraseTo h.bounded id, ?_, hpositive⟩
    funext j
    rw [entry_eraseTo, h.entry_eq]
    rfl
  | removeOldPackets id t =>
    refine ⟨_, rfl, bounded_removeOldPackets h.bounded id t, ?_, hpositive⟩
    funext j
    refine Option.ext fun x => ?_
    dsimp only [recordedAfter]
    rw [entry_removeOldPackets (by rw [h.entry_eq]; exact h.positive), h.entry_eq]
    split_ifs with hold
    · exact ⟨fun hx => absurd hold hx.2, fun hx => nomatch hx⟩
    · exact ⟨fun hx => hx.1, fun hx => ⟨hx, hold⟩⟩

theorem faithful_run (h : Faithful m recorded) {ops : List Op} (hops : ∀ op ∈ ops, op.Timed) :
    ∃ m', machine.final (some m) ops = some m' ∧ Faithful m' (m.recordedRun recorded ops) := by
  induction ops generalizing m recorded with
  | nil => exact ⟨m, rfl, h⟩
  | cons op ops ih =>
    obtain ⟨m₁, hm₁, h₁⟩ := faithful_apply h (hops op (List.mem_cons_self ..))
    obtain ⟨m', hm', h'⟩ := ih h₁ fun op hop => hops op (List.mem_cons_of_mem _ hop)
    refine ⟨m', ?_, ?_⟩
    · rw [Machine.final_cons, ← hm']
      exact congrArg (machine.final · ops) hm₁
    · rw [recordedRun, hm₁]
      exact h'

theorem faithful_empty : Faithful empty fun _ => none :=
  ⟨⟨by decide, fun _ => rfl⟩, rfl, fun _ _ h => nomatch h⟩

/-- **The deque is a bounded map.**  After any run with positive times no assertion has failed,
an id has been received at `t` exactly if `t` is its latest recorded time, and the ids lie in a
window of at most `kMaxNumberOfPackets`.  One more packet is taken unless the window from it to
the end would be too long; it gives up no id less than `kMaxNumberOfPackets` below the newest
one. -/
theorem arrival_time_map_refines {ops : List Op} (hops : ∀ op ∈ ops, op.Timed) :
    ∃ m, machine.final (some empty) ops = some m ∧
      (∀ id t, m.hasReceived id = true ∧ m.at' id = .ok t ↔
        empty.recordedRun (fun _ => none) ops id = some t) ∧
      (∀ id, m.hasReceived id = true → m.beginPacketId ≤ id ∧ id < m.endPacketId) ∧
      m.endPacketId - m.beginPacketId ≤ kMaxNumberOfPackets ∧
      ∀ id t, 0 < t → ∃ m', m.addPacket id t = some m' ∧
        (m'.hasReceived id = true ∨ m' = m ∧ m.hasReceived id = false ∧
          kMaxNumberOfPackets < m.endPacketId - id) ∧
        ∀ newest j, m'.hasReceived newest = true → (∀ i, m'.hasReceived i = true → i ≤ newest) →
          newest - kMaxNumberOfPackets < j → m.hasReceived j = true → m'.hasReceived j = true := by
  obtain ⟨m, hm, h⟩ := faithful_run faithful_empty hops
  refine ⟨m, hm, fun id t => ?_, fun id hid => ?_, ?_, fun id t ht => ?_⟩
  · rw [hasReceived_and_at_iff, h.entry_eq]
  · obtain ⟨t, ht⟩ := (hasReceived_iff m id).mp hid
    exact mem_window ht
  · have hlength := h.bounded.length_le
    rw [endPacketId]
    omega
  · obtain ⟨-, m', hm', htaken⟩ | ⟨-, hm', hbefore, hfar⟩ := addPacket_spec h.bounded id ht
    · have hentry := htaken.entry_eq
      have hid : m'.hasReceived id = true :=
        (hasReceived_iff m' id).mpr ⟨t, by rw [hentry, if_pos rfl]⟩
      refine ⟨m', hm', .inl hid, fun newest j _ hnewest hj hreceivedj => ?_⟩
      obtain ⟨u, hu⟩ := (hasReceived_iff m j).mp hreceivedj
      have := hnewest id hid
      rw [hasReceived_iff, hentry]
      split_ifs with heq hold
      · exact ⟨t, rfl⟩
      · omega
      · exact ⟨u, hu⟩
    · refine ⟨m, hm', .inr ⟨rfl, ?_, hfar⟩, fun _ _ _ _ _ hj => hj⟩
      rw [Bool.eq_false_iff, ne_eq, hasReceived_iff, entry_of_lt hbefore]
      rintro ⟨u, hu⟩
      cases hu

/-- Packets out of order, an erased front, and a jump that gives up everything before it. -/
theorem arrival_time_map_jump :
    let ops := [Op.addPacket 10 100, .addPacket 8 101, .eraseTo 9, .addPacket 40000 102]
    ∃ m, machine.final (some empty) ops = some m ∧
      ∀ id t, m.hasReceived id = true ∧ m.at' id = .ok t ↔
        empty.recordedRun (fun _ => none) ops id = some t := by
  intro ops
  obtain ⟨m, hm, hmap, -⟩ := arrival_time_map_refines (show ∀ op ∈ ops, op.Timed by decide)
  exact ⟨m, hm, hmap⟩

end PacketArrivalTimeMap

end NaiveRtc
