import NaiveRtc.Media.NalUnit
import NaiveRtc.Rtp.H264Plan
import Mathlib.Algebra.Order.BigOperators.Group.List

/-!
# The packets of a frame and their number

`NumberOfPackets()` is counted while the packets are planned, and the packets are written
later, from a queue of units of which one, or several, go into a packet.

* `Piece`, `drain_pieces` — a queue that consists of whole packets is written packet by packet,
  and the count and the marker bit follow it.
* `generateLoop_spec` — what is planned consists of whole packets that respect the limit of their
  position in the frame.
* `planKept_iff` — when every packet respects the limit of its position: a packet that holds all
  NAL units of a frame is not measured against the reduction of a single packet.
-/

namespace NaiveRtc.Rtp

open RtpH264Packetizer NalUnit

namespace RtpH264Packetizer

/-! ## The packetizer with its counter -/

/-- `RtpH264Packetizer`. -/
structure State where
  packetUnits : List PacketUnit
  numPacketsLeft : Nat
  inputFragments : List Bytes
  deriving DecidableEq

/-- `input_fragments_`: the NAL units of the payload, which all start inside it. -/
def fragmentsOf (payload : Bytes) : List Bytes :=
  (findNaluIndices payload .shortStartSequence).map fun index =>
    (payload.drop index.payloadStartOffset).take index.payloadSize

/-- `Packetize(payload, limits, packetization_mode)`; `none` is a failed assertion. -/
def packetizeFrame (payload : Bytes) (limits : PayloadSizeLimits) (mode : PacketizationMode) :
    Option State :=
  let fragments := fragmentsOf payload
  match generatePackets limits mode fragments with
  | .ok (units, count) => some ⟨units, count, fragments⟩
  -- `Reset()`
  | .error .refused => some ⟨[], 0, []⟩
  | .error .assertion => none

/-- `input_fragments_.pop_front()`, several times; `none` when there is nothing to pop. -/
def popFragments : Nat → List Bytes → Option (List Bytes)
  | 0, fragments => some fragments
  | _ + 1, [] => none
  | k + 1, _ :: fragments => popFragments k fragments

/-- How many fragments are popped with a packet; `rest` is the queue behind it. -/
def fragmentsPopped (unit : PacketUnit) (units rest : List PacketUnit) : Nat :=
  if unit.firstFragment ∧ unit.lastFragment then 1
  else if unit.aggregated then units.length + 1 - rest.length
  else if unit.lastFragment then 1
  else 0

/-- What a call of `NextPacket` that returns `true` leaves: the payload and the marker bit of the
packet, and `NumberOfPackets()` behind it. -/
structure Sent where
  payload : Bytes
  marker : Bool
  numberOfPackets : Nat
  deriving DecidableEq

/-- `NextPacket(rtp_packet)`, for a packet with `free` bytes left: `none` is a failed assertion,
`some none` a return of `false`. -/
def State.next (free : Nat) (s : State) : Option (Option (Sent × State)) :=
  match s.packetUnits with
  | [] => some none
  | unit :: units => do
    let (payload, rest) ← nextPacket free unit units
    let fragments ← popFragments (fragmentsPopped unit units rest) s.inputFragments
    let left := if s.numPacketsLeft = 0 then 2 ^ 64 - 1 else s.numPacketsLeft - 1
    return some (⟨payload, rest.isEmpty, left⟩, ⟨rest, left, fragments⟩)

/-- The calls of `NextPacket` until one returns `false`, at most `fuel` of them; call `k` gets a
packet with `free k` bytes left. -/
def drain (free : Nat → Nat) : Nat → Nat → State → Option (List Sent)
  | 0, _, _ => none
  | fuel + 1, k, s =>
    match s.next (free k) with
    | none => none
    | some none => some []
    | some (some (sent, s)) => (drain free fuel (k + 1) s).map (sent :: ·)

end RtpH264Packetizer

/-! ## Packets -/

/-- A packet in the queue. -/
inductive Piece where
  /-- A NAL unit in the mode without aggregation. -/
  | single (nal : Bytes)
  /-- NAL units that go into one packet. -/
  | group (nals : List Bytes)
  /-- A fragment of a NAL unit. -/
  | fuA (unit : PacketUnit)

namespace Piece

/-- The packet units of the piece. -/
def units : Piece → List PacketUnit
  | single nal => [⟨nal, true, true, false, nal.headD 0⟩]
  | group nals => stapAUnits true nals
  | fuA unit => [unit]

/-- Its payload. -/
def payload : Piece → Bytes
  | single nal => nal
  | group [nal] => nal
  | group nals => stapAPayload nals
  | fuA unit => fuAPayload unit

/-- How many NAL units end with the packet. -/
def popped : Piece → Nat
  | single _ => 1
  | group nals => nals.length
  | fuA unit => if unit.lastFragment then 1 else 0

/-- A piece that a receiver can put together again. -/
def Valid : Piece → Prop
  | single _ => True
  | group nals => nals ≠ []
  | fuA unit => unit.aggregated = false ∧ (unit.firstFragment && unit.lastFragment) = false

theorem length_payload_group (nals : List Bytes) :
    (group nals).payload.length = groupSize nals := by
  match nals with
  | [] => rfl
  | [_] => rfl
  | _ :: _ :: _ => rfl

theorem units_ne_nil {p : Piece} (h : p.Valid) : p.units ≠ [] := by
  cases p with
  | single nal => exact List.cons_ne_nil _ _
  | group nals =>
    intro hnil
    have hlength := congrArg List.length hnil
    rw [units, stapAUnits_length] at hlength
    exact h (List.length_eq_zero_iff.mp hlength)
  | fuA unit => exact List.cons_ne_nil _ _

theorem next_eq {p : Piece} (h : p.Valid) {free : Nat} (hroom : p.payload.length ≤ free)
    (units : List PacketUnit) :
    ∃ unit rest, p.units ++ units = unit :: rest ∧
      nextPacket free unit rest = some (p.payload, units) ∧
      fragmentsPopped unit rest units = p.popped := by
  cases p with
  | single nal => exact ⟨_, _, rfl, nextPacket_single hroom _ _ _, rfl⟩
  | fuA unit =>
    refine ⟨_, _, rfl, nextPacket_fuA h.2 h.1 hroom _, ?_⟩
    obtain ⟨haggregated, hpart⟩ := h
    unfold fragmentsPopped popped
    rw [if_neg (by simpa using hpart), haggregated]
    rfl
  | group nals =>
    obtain ⟨nal, nals, rfl⟩ := List.exists_cons_of_ne_nil h
    cases nals with
    | nil => exact ⟨_, _, rfl, nextPacket_single hroom _ _ _, rfl⟩
    | cons nal' nals =>
      obtain ⟨unit, rest, heq, hnext⟩ :=
        @nextPacket_stapA _ (nal :: nal' :: nals) (by simp) hroom units
      refine ⟨unit, rest, heq, hnext, ?_⟩
      have hlength := congrArg List.length heq
      simp only [List.length_append, stapAUnits_length, List.length_cons] at hlength
      rw [stapAUnits_cons true nal (List.cons_ne_nil _ _)] at heq
      obtain rfl := (List.cons.inj heq).1
      unfold fragmentsPopped
      rw [if_neg (by simp), if_pos rfl]
      show rest.length + 1 - units.length = nals.length + 1 + 1
      omega

end Piece

theorem popFragments_eq {k : Nat} {fragments : List Bytes} (h : k ≤ fragments.length) :
    popFragments k fragments = some (fragments.drop k) := by
  induction k generalizing fragments with
  | zero => rfl
  | succ k ih =>
    cases fragments with
    | nil => simp at h
    | cons fragment fragments => exact ih (by simpa using h)

/-- What the calls leave, packet by packet. -/
def sentOf : List Piece → List Sent
  | [] => []
  | p :: ps => ⟨p.payload, ps.isEmpty, ps.length⟩ :: sentOf ps

theorem drain_pieces {free : Nat → Nat} {ps : List Piece} (hvalid : ∀ p ∈ ps, p.Valid)
    {k fuel : Nat} (hroom : ∀ j p, ps[j]? = some p → p.payload.length ≤ free (k + j))
    (hfuel : ps.length < fuel) {fragments : List Bytes}
    (hpopped : (ps.map Piece.popped).sum ≤ fragments.length) :
    drain free fuel k ⟨ps.flatMap Piece.units, ps.length, fragments⟩ = some (sentOf ps) := by
  induction ps generalizing k fuel fragments with
  | nil =>
    obtain ⟨fuel, rfl⟩ : ∃ m, fuel = m + 1 := ⟨fuel - 1, by omega⟩
    rfl
  | cons p ps ih =>
    obtain ⟨fuel, rfl⟩ : ∃ m, fuel = m + 1 := ⟨fuel - 1, by omega⟩
    rw [List.length_cons] at hfuel
    rw [List.map_cons, List.sum_cons] at hpopped
    have hrest : ∀ q ∈ ps, q.Valid := fun q hq => hvalid q (List.mem_cons_of_mem p hq)
    obtain ⟨unit, rest, heq, hnext, hpop⟩ := Piece.next_eq (hvalid p List.mem_cons_self)
      (hroom 0 p rfl) (ps.flatMap Piece.units)
    have hmarker : (ps.flatMap Piece.units).isEmpty = ps.isEmpty := by
      cases ps with
      | nil => rfl
      | cons q qs =>
        have hne := Piece.units_ne_nil (hrest q List.mem_cons_self)
        simp [hne]
    have hfragments : popFragments p.popped fragments = some (fragments.drop p.popped) :=
      popFragments_eq (by omega)
    have hstep : State.next (free k) ⟨(p :: ps).flatMap Piece.units, (p :: ps).length, fragments⟩ =
        some (some (⟨p.payload, ps.isEmpty, ps.length⟩,
          ⟨ps.flatMap Piece.units, ps.length, fragments.drop p.popped⟩)) := by
      unfold State.next
      rw [List.flatMap_cons, heq]
      dsimp only
      rw [show free k = free (k + 0) from rfl, hnext]
      simp only [Option.bind_eq_bind, Option.bind_some, hpop, hfragments, hmarker,
        List.length_cons, Nat.add_sub_cancel, if_neg (Nat.succ_ne_zero _)]
      rfl
    rw [drain, hstep]
    dsimp only
    rw [ih hrest (fun j q hq => by
        rw [Nat.add_assoc, Nat.add_comm 1]
        exact hroom (j + 1) q (by simpa using hq)) (by omega)
      (by rw [List.length_drop]; omega)]
    rfl

theorem length_sentOf (ps : List Piece) : (sentOf ps).length = ps.length := by
  induction ps with
  | nil => rfl
  | cons p ps ih => rw [sentOf, List.length_cons, ih, List.length_cons]

theorem getElem?_sentOf (ps : List Piece) (k : Nat) :
    (sentOf ps)[k]? = ps[k]?.map fun p =>
      ⟨p.payload, decide (k + 1 = ps.length), ps.length - (k + 1)⟩ := by
  induction ps generalizing k with
  | nil => rfl
  | cons p ps ih =>
    cases k with
    | zero => cases ps <;> simp [sentOf]
    | succ k =>
      rw [sentOf, List.getElem?_cons_succ, List.getElem?_cons_succ, ih, List.length_cons]
      cases ps[k]? with
      | none => rfl
      | some q => simp

/-! ## The limits of the positions -/

/-- Every packet has room for the reduction of its position, from fragment `i` of the frame on:
the first packet, the last one, and those between; a frame of one packet is left open. -/
structure Placed (limits : PayloadSizeLimits) (i : Nat) (ps : List Piece) : Prop where
  first : i = 0 → 2 ≤ ps.length → ∀ p, ps[0]? = some p →
    p.payload.length + limits.firstPacketReductionSize ≤ limits.maxPayloadSize
  last : i ≠ 0 ∨ 2 ≤ ps.length → ∀ k p, k + 1 = ps.length → ps[k]? = some p →
    p.payload.length + limits.lastPacketReductionSize ≤ limits.maxPayloadSize
  middle : ∀ k p, i ≠ 0 ∨ k ≠ 0 → k + 1 < ps.length → ps[k]? = some p →
    p.payload.length ≤ limits.maxPayloadSize

variable {limits : PayloadSizeLimits}

theorem Placed.append {i i' : Nat} {qs ps : List Piece}
    (hps : Placed limits i' ps) (hi' : i' ≠ 0) (hne : qs ≠ [])
    (hfirst : i = 0 → 2 ≤ qs.length ∨ ps ≠ [] → ∀ q, qs[0]? = some q →
      q.payload.length + limits.firstPacketReductionSize ≤ limits.maxPayloadSize)
    (hmiddle : ∀ k q, i ≠ 0 ∨ k ≠ 0 → qs[k]? = some q → q.payload.length ≤ limits.maxPayloadSize)
    (hlast : ps = [] → i ≠ 0 ∨ 2 ≤ qs.length → ∀ k q, k + 1 = qs.length → qs[k]? = some q →
      q.payload.length + limits.lastPacketReductionSize ≤ limits.maxPayloadSize) :
    Placed limits i (qs ++ ps) := by
  have hpos := List.length_pos_of_ne_nil hne
  have hnil : ps = [] ↔ ps.length = 0 := List.length_eq_zero_iff.symm
  refine ⟨fun hi hlen p hp => ?_, fun hlen k p hk hp => ?_, fun k p hk hlt hp => ?_⟩
  · rw [List.length_append] at hlen
    rw [List.getElem?_append_left hpos] at hp
    exact hfirst hi (by rw [Ne, hnil]; omega) p hp
  · rw [List.length_append] at hlen hk
    by_cases hend : ps = []
    · rw [hend, List.length_nil] at hlen hk
      rw [List.getElem?_append_left (by omega)] at hp
      exact hlast hend hlen k p hk hp
    · rw [hnil] at hend
      rw [List.getElem?_append_right (by omega)] at hp
      exact hps.last (Or.inl hi') _ p (by omega) hp
  · rw [List.length_append] at hlt
    by_cases hfront : k < qs.length
    · rw [List.getElem?_append_left hfront] at hp
      exact hmiddle k p hk hp
    · rw [List.getElem?_append_right (by omega)] at hp
      exact hps.middle _ p (Or.inl hi') (by omega) hp

theorem placed_nil (limits : PayloadSizeLimits) (i : Nat) : Placed limits i [] :=
  ⟨fun _ hlen => by simp at hlen, fun _ k p hk => by simp at hk, fun k p _ hk => by simp at hk⟩

/-! ## What is planned -/

theorem fuAUnits_getElem? (nal : Bytes) (offset : Nat) (first : Bool) (sizes : List Nat) (k : Nat)
    {unit : PacketUnit} (hunit : (fuAUnits nal offset first sizes)[k]? = some unit) :
    ∃ size, sizes[k]? = some size ∧ unit.fragmentData.length ≤ size ∧ unit.aggregated = false ∧
      unit.firstFragment = (first && k == 0) ∧
        unit.lastFragment = decide (k + 1 = sizes.length) := by
  induction sizes generalizing offset first k with
  | nil => cases hunit
  | cons size sizes ih =>
    cases k with
    | zero =>
      obtain rfl := Option.some.inj hunit
      refine ⟨size, rfl, List.length_take_le _ _, rfl, by simp, ?_⟩
      cases sizes <;> simp
    | succ k =>
      obtain ⟨c, hc, hle, hagg, hfirst, hlast⟩ := ih _ _ k (by simpa [fuAUnits] using hunit)
      exact ⟨c, hc, hle, hagg, by simpa using hfirst, by simpa using hlast⟩

theorem popped_fuAUnits (nal : Bytes) (offset : Nat) (first : Bool) {sizes : List Nat}
    (hne : sizes ≠ []) :
    (((fuAUnits nal offset first sizes).map Piece.fuA).map Piece.popped).sum = 1 := by
  induction sizes generalizing offset first with
  | nil => exact absurd rfl hne
  | cons size sizes ih =>
    rw [fuAUnits, List.map_cons, List.map_cons, List.sum_cons]
    by_cases hnil : sizes = []
    · rw [hnil]
      rfl
    · rw [ih _ _ hnil]
      simp [Piece.popped, hnil]

theorem flatMap_units_fuA (units : List PacketUnit) :
    (units.map Piece.fuA).flatMap Piece.units = units := by
  induction units with
  | nil => rfl
  | cons unit units ih =>
    rw [List.map_cons, List.flatMap_cons, ih]
    rfl

/-- The comparison in `int` takes a NAL unit for one that fits. -/
def Misjudged (limits : PayloadSizeLimits) (n i : Nat) (nal : Bytes) : Prop :=
  toInt nal.length ≤ limits.maxPayloadSize - reductionSize limits n i ∧
    limits.maxPayloadSize - reductionSize limits n i < nal.length

theorem toInt_le (k : Nat) : toInt k ≤ k := by
  rw [toInt, BitVec.toInt_ofInt, Int.bmod_def]
  split <;> omega

theorem not_misjudged_of_small {n i : Nat} {nal : Bytes}
    (h : nal.length < 2 ^ 31) : ¬ Misjudged limits n i nal := by
  rintro ⟨hle, hlt⟩
  rw [toInt_of_small (by omega) (by omega)] at hle
  omega

section Planning

variable {limits : PayloadSizeLimits} {n i : Nat}

/-- What one round plans, for the NAL unit `nal` and those of `fragments` that go with it. -/
structure Round (limits : PayloadSizeLimits) (n i : Nat) (nal : Bytes) (fragments : List Bytes)
    (qs : List Piece) (taken rest : List Bytes) : Prop where
  split : fragments = taken ++ rest
  small : ∀ x ∈ taken, x.length < 2 ^ 31
  ne_nil : qs ≠ []
  valid : ∀ q ∈ qs, q.Valid
  popped : (qs.map Piece.popped).sum = taken.length + 1
  first : i = 0 → 2 ≤ qs.length ∨ rest ≠ [] → ∀ q, qs[0]? = some q →
    q.payload.length + limits.firstPacketReductionSize ≤ limits.maxPayloadSize
  middle : ∀ k q, i ≠ 0 ∨ k ≠ 0 → qs[k]? = some q → q.payload.length ≤ limits.maxPayloadSize
  last : rest = [] → i ≠ 0 ∨ 2 ≤ qs.length → ∀ k q, k + 1 = qs.length → qs[k]? = some q →
    q.payload.length + limits.lastPacketReductionSize ≤ limits.maxPayloadSize
  one : n = 1 → ∀ q, qs = [q] →
    q.payload.length + limits.singlePacketReductionSize ≤ limits.maxPayloadSize
  /-- Where all NAL units are in one packet, it leaves the first and the last reduction. -/
  whole : i = 0 → n ≠ 1 → ∀ q, qs = [q] → rest = [] →
    q.payload.length = groupSize (nal :: fragments) ∧
      groupSize (nal :: fragments) + limits.firstPacketReductionSize +
        limits.lastPacketReductionSize ≤ limits.maxPayloadSize
  /-- They are in one packet if it can leave the two. -/
  fits : i = 0 → n ≠ 1 → groupSize (nal :: fragments) + limits.firstPacketReductionSize +
    limits.lastPacketReductionSize ≤ limits.maxPayloadSize → rest = [] ∧ ∃ q, qs = [q]

variable {fragments : List Bytes} {nal : Bytes}

section

variable (h : Workable limits)
include h

theorem round_fuA (hlength : nal.length < 2 ^ 63)
    (hlarge : limits.maxPayloadSize - reductionSize limits n i < nal.length)
    (hi : i + (nal :: fragments).length = n) :
    ∃ qs, Round limits n i nal fragments qs [] fragments ∧ packetizeFuA limits n i nal =
      some (qs.flatMap Piece.units) ∧
      (splitAboutEqually (nal.length - kNaluHeaderSize) (fuALimits limits n i)).length =
        qs.length := by
  obtain ⟨sizes, hplan, hsplit, hlen, hsum, hmiddle, hfirst, hlast⟩ :=
    packetizeFuA_spec h hlength hlarge
  rw [List.length_cons] at hi
  have hne : sizes ≠ [] := by
    rintro rfl
    simp at hlen
  have hpiece : ∀ (k : Nat) (q : Piece),
      ((fuAUnits nal kNaluHeaderSize true sizes).map Piece.fuA)[k]? = some q →
      ∃ size, sizes[k]? = some size ∧ q.payload.length ≤ kFuAHeaderSize + size ∧ q.Valid := by
    intro k q hq
    rw [List.getElem?_map] at hq
    obtain ⟨unit, hunit, rfl⟩ := Option.map_eq_some_iff.mp hq
    obtain ⟨size, hsize, hle, hagg, hfst, hlst⟩ :=
      fuAUnits_getElem? nal kNaluHeaderSize true sizes k hunit
    refine ⟨size, hsize, ?_, hagg, ?_⟩
    · rw [Piece.payload, length_fuAPayload]
      omega
    · rw [hfst, hlst]
      simp
      omega
  have hlen' : ((fuAUnits nal kNaluHeaderSize true sizes).map Piece.fuA).length = sizes.length := by
    rw [List.length_map, fuAUnits_length]
  have hnil : fragments = [] ↔ i + 1 = n := by
    rw [← List.length_eq_zero_iff]
    omega
  have hone : ∀ q, (fuAUnits nal kNaluHeaderSize true sizes).map Piece.fuA ≠ [q] := by
    intro q hq
    rw [hq, List.length_singleton] at hlen'
    omega
  refine ⟨_, ?_, by rw [flatMap_units_fuA]; exact hplan, by rw [hsplit, hlen']⟩
  refine ⟨rfl, by simp, ?_, ?_, popped_fuAUnits _ _ _ hne, fun hi₀ _ q hq => ?_, fun k q _ hq => ?_,
    fun hrest _ k q hk hq => ?_, fun _ q hq => absurd hq (hone q), fun _ _ q hq =>
      absurd hq (hone q),
    fun hi₀ hn hfits => ?_⟩
  · rw [Ne, ← List.length_eq_zero_iff, hlen']
    omega
  · intro q hq
    obtain ⟨k, hk⟩ := List.getElem?_of_mem hq
    exact (hpiece k q hk).choose_spec.2.2
  · obtain ⟨size, hsize, hle, -⟩ := hpiece 0 q hq
    have := hfirst hi₀ size (by rw [List.head?_eq_getElem?]; exact hsize)
    omega
  · obtain ⟨size, hsize, hle, -⟩ := hpiece k q hq
    have := hmiddle size (List.mem_of_getElem? hsize)
    omega
  · obtain ⟨size, hsize, hle, -⟩ := hpiece k q hq
    have hend : sizes.length - 1 = k := by omega
    have := hlast (hnil.1 hrest) size (by rw [List.getLast?_eq_getElem?, hend]; exact hsize)
    omega
  · -- a NAL unit that is too large does not share a packet
    have hred : reductionSize limits n i = limits.firstPacketReductionSize := by
      rw [RtpH264Packetizer.reductionSize, if_neg hn, if_pos hi₀]
    have hlast₀ := h.last_nonneg
    rw [groupSize_cons] at hfits
    omega

theorem round_stapA
    (hlength : ∀ x ∈ nal :: fragments, x.length < 2 ^ 63) (hi : i + (nal :: fragments).length = n)
    (hsmall : nal.length ≤ limits.maxPayloadSize - reductionSize limits n i) :
    ∃ q taken rest, Round limits n i nal fragments [q] taken rest ∧
      packetizeStapA limits n i (nal :: fragments) = some (q.units, rest) := by
  obtain ⟨taken, rest, hplan, hsplit, hsize, hend, hall⟩ := packetizeStapA_spec h hlength hi hsmall
  have hmax := h.max_lt
  have hfirst₀ := h.first_nonneg
  have hsingle := h.single_gt
  have hred : groupReduction limits n i = if n = 1 then limits.singlePacketReductionSize
      else if i = 0 then limits.firstPacketReductionSize else 0 := rfl
  rw [List.length_cons] at hi
  have hbound : groupSize (nal :: taken) < 2 ^ 31 := by
    split_ifs at hred <;> omega
  have hpayload := Piece.length_payload_group (nal :: taken)
  have hzero : ∀ {k : Nat} {q : Piece}, [Piece.group (nal :: taken)][k]? = some q →
      k = 0 ∧ Piece.group (nal :: taken) = q := by
    intro k q hq
    cases k with
    | zero => exact ⟨rfl, by simpa using hq⟩
    | succ k => simp at hq
  have hnil : n = 1 → rest = [] := by
    intro hn
    have := congrArg List.length hsplit
    rw [List.length_append] at this
    exact List.length_eq_zero_iff.mp (by omega)
  refine ⟨.group (nal :: taken), taken, rest, ⟨hsplit, fun x hx => ?_, List.cons_ne_nil _ _,
    by simp [Piece.Valid], by simp [Piece.popped], fun hi₀ hmore q hq => ?_, fun k q hk hq => ?_,
    fun hrest hk k q _ hq => ?_, fun hn q hq => ?_, fun hi₀ hn q hq hrest => ?_,
    fun hi₀ hn hfits => ⟨?_, _, rfl⟩⟩, hplan⟩
  · have := length_le_cost hx (nextHeadersSize 0)
    rw [groupSize_cons] at hbound
    omega
  · obtain ⟨-, rfl⟩ := hzero hq
    have hn : n ≠ 1 := fun hn => hmore.elim (by simp) fun hne => hne (hnil hn)
    rw [if_neg hn, if_pos hi₀] at hred
    omega
  · obtain ⟨rfl, rfl⟩ := hzero hq
    have hi₀ : i ≠ 0 := hk.resolve_right fun hne => hne rfl
    rw [if_neg (by omega), if_neg hi₀] at hred
    omega
  · obtain ⟨rfl, rfl⟩ := hzero hq
    have hi₀ : i ≠ 0 := hk.resolve_right (by simp)
    have := hend (by omega) hrest
    rw [if_neg (by omega), if_neg hi₀] at hred
    omega
  · obtain rfl := (List.cons.inj hq).1
    rw [if_pos hn] at hred
    omega
  · obtain rfl := (List.cons.inj hq).1
    have := hend hn hrest
    rw [if_neg hn, if_pos hi₀] at hred
    rw [hsplit, hrest, List.append_nil, hpayload]
    exact ⟨rfl, by omega⟩
  · rw [if_neg hn, if_pos hi₀] at hred
    exact hall hn (by omega)

theorem generateLoop_round
    (hlength : ∀ x ∈ nal :: fragments, x.length < 2 ^ 63) (hi : i + (nal :: fragments).length = n)
    (hjudged : ¬ Misjudged limits n i nal) :
    ∃ qs taken rest, Round limits n i nal fragments qs taken rest ∧ ∀ fuel,
      generateLoop limits .nonInterleaved n (fuel + 1) i (nal :: fragments) =
        (generateLoop limits .nonInterleaved n fuel (n - rest.length) rest).map fun r =>
          (qs.flatMap Piece.units ++ r.1, r.2 + qs.length) := by
  have hle := toInt_le nal.length
  unfold Misjudged at hjudged
  by_cases hlarge : limits.maxPayloadSize - reductionSize limits n i < toInt nal.length
  · obtain ⟨qs, hround, hplan, hcount⟩ :=
      round_fuA h (hlength nal List.mem_cons_self) (lt_of_lt_of_le hlarge hle) hi
    refine ⟨qs, [], fragments, hround, fun fuel => ?_⟩
    rw [List.length_cons] at hi
    rw [generateLoop, h.capacity]
    dsimp only
    rw [if_pos hlarge, hplan, hcount, show n - fragments.length = i + 1 by omega]
  · obtain ⟨q, taken, rest, hround, hplan⟩ := round_stapA h hlength hi (by omega)
    refine ⟨[q], taken, rest, hround, fun fuel => ?_⟩
    rw [generateLoop, h.capacity]
    dsimp only
    rw [if_neg hlarge, hplan]
    dsimp only
    rw [List.flatMap_singleton, List.length_singleton]

theorem generateLoop_misjudged (fragments : List Bytes)
    (hlength : nal.length < 2 ^ 63) (hmisjudged : Misjudged limits n i nal) (fuel : Nat) :
    generateLoop limits .nonInterleaved n (fuel + 1) i (nal :: fragments) = .error .assertion := by
  rw [generateLoop, h.capacity]
  dsimp only
  rw [if_neg (not_lt.mpr hmisjudged.1), packetizeStapA_eq_none h fragments hlength hmisjudged.2]

/-- What holds of the packets of a whole frame. -/
structure Whole (limits : PayloadSizeLimits) (fragments : List Bytes) (ps : List Piece) : Prop where
  one : fragments.length = 1 → ∀ p, ps = [p] →
    p.payload.length + limits.singlePacketReductionSize ≤ limits.maxPayloadSize
  size : 2 ≤ fragments.length → ∀ p, ps = [p] → p.payload.length = groupSize fragments ∧
    groupSize fragments + limits.firstPacketReductionSize + limits.lastPacketReductionSize ≤
      limits.maxPayloadSize
  fits : 2 ≤ fragments.length → groupSize fragments + limits.firstPacketReductionSize +
    limits.lastPacketReductionSize ≤ limits.maxPayloadSize → ∃ p, ps = [p]

/-- **The plan in the mode with aggregation and fragmentation.**  Whole packets are planned, as
many as are counted, and each respects the limit of its position; unless a NAL unit is misjudged,
which fails an assertion. -/
theorem generateLoop_spec {fuel : Nat}
    (hlength : ∀ x ∈ fragments, x.length < 2 ^ 63) (hfuel : fragments.length ≤ fuel)
    (hi : i + fragments.length = n) :
    ((∀ j nal, fragments[j]? = some nal → ¬ Misjudged limits n (i + j) nal) → ∃ ps : List Piece,
      generateLoop limits .nonInterleaved n fuel i fragments =
        .ok (ps.flatMap Piece.units, ps.length) ∧
      (∀ p ∈ ps, p.Valid) ∧ (ps.map Piece.popped).sum = fragments.length ∧
      (ps = [] ↔ fragments = []) ∧ Placed limits i ps ∧ (i = 0 → Whole limits fragments ps)) ∧
    ((∃ j nal, fragments[j]? = some nal ∧ Misjudged limits n (i + j) nal) →
      generateLoop limits .nonInterleaved n fuel i fragments = .error .assertion) := by
  induction fuel generalizing i fragments with
  | zero =>
    obtain rfl : fragments = [] := List.length_eq_zero_iff.mp (by omega)
    exact ⟨fun _ => ⟨[], rfl, by simp, rfl, by simp, placed_nil limits i,
      fun _ => ⟨by simp, by simp, by simp⟩⟩, by simp⟩
  | succ fuel ih =>
    cases fragments with
    | nil =>
      exact ⟨fun _ => ⟨[], rfl, by simp, rfl, by simp, placed_nil limits i,
        fun _ => ⟨by simp, by simp, by simp⟩⟩, by simp⟩
    | cons nal fragments =>
      by_cases hmisjudged : Misjudged limits n i nal
      · exact ⟨fun hall => absurd hmisjudged (hall 0 nal rfl), fun _ =>
          generateLoop_misjudged h fragments (hlength nal List.mem_cons_self) hmisjudged fuel⟩
      · obtain ⟨qs, taken, rest, hround, heq⟩ := generateLoop_round h hlength hi hmisjudged
        rw [heq fuel]
        have hcount : fragments.length = taken.length + rest.length := by
          rw [hround.split, List.length_append]
        rw [List.length_cons] at hfuel hi
        obtain ⟨hgood, hbad⟩ := @ih (n - rest.length) rest
          (fun x hx => hlength x (List.mem_cons_of_mem nal (by
            rw [hround.split]
            exact List.mem_append_right taken hx)))
          (by omega) (by omega)
        have hget : ∀ j, (nal :: fragments)[taken.length + 1 + j]? = rest[j]? := by
          intro j
          rw [Nat.add_right_comm, List.getElem?_cons_succ, hround.split,
            List.getElem?_append_right (by omega), Nat.add_sub_cancel_left]
        have hindex : ∀ j, n - rest.length + j = i + (taken.length + 1 + j) := fun j => by omega
        refine ⟨fun hall => ?_, fun ⟨j, x, hx, hmis⟩ => ?_⟩
        · obtain ⟨ps, hplan, hvalid, hpopped, hnil, hplaced, -⟩ := hgood fun j x hx => by
            rw [hindex]
            exact hall _ x (by rw [hget, hx])
          have hone : ∀ p, qs ++ ps = [p] → qs = [p] ∧ rest = [] := by
            intro p hp
            rcases List.append_eq_singleton_iff.mp hp with ⟨hqs, -⟩ | ⟨hqs, hps⟩
            · exact absurd hqs hround.ne_nil
            · exact ⟨hqs, hnil.1 hps⟩
          refine ⟨qs ++ ps, by rw [hplan, List.flatMap_append, List.length_append, Nat.add_comm]; rfl,
            ?_, ?_, ?_, ?_, fun hi₀ => ⟨fun hn p hp => ?_, fun hn p hp => ?_, fun hn hfits => ?_⟩⟩
          · exact fun p hp => (List.mem_append.mp hp).elim (hround.valid p) (hvalid p)
          · rw [List.map_append, List.sum_append, hround.popped, hpopped, List.length_cons]
            omega
          · simp [hround.ne_nil]
          · exact hplaced.append (by omega) hround.ne_nil
              (fun hi₀ hmore => hround.first hi₀ (hmore.imp_right fun hne => mt hnil.2 hne))
              hround.middle (fun hps => hround.last (hnil.1 hps))
          · rw [List.length_cons] at hn
            exact hround.one (by omega) p (hone p hp).1
          · rw [List.length_cons] at hn
            exact hround.whole hi₀ (by omega) p (hone p hp).1 (hone p hp).2
          · rw [List.length_cons] at hn
            obtain ⟨hrest, q, hq⟩ := hround.fits hi₀ (by omega) hfits
            exact ⟨q, by rw [hq, hnil.2 hrest]; rfl⟩
        · rw [hbad ?_]
          · rfl
          · -- neither the NAL unit itself nor one that goes with it is misjudged
            obtain ⟨j', rfl⟩ : ∃ j', j = taken.length + 1 + j' := by
              refine ⟨j - (taken.length + 1), ?_⟩
              by_contra hlt
              cases j with
              | zero =>
                obtain rfl := Option.some.inj hx
                exact hmisjudged hmis
              | succ j =>
                rw [List.getElem?_cons_succ, hround.split,
                  List.getElem?_append_left (by omega)] at hx
                exact not_misjudged_of_small (hround.small x (List.mem_of_getElem? hx)) hmis
            exact ⟨j', x, by rw [← hget, hx], by rw [hindex]; exact hmis⟩

theorem generateLoop_single {fuel : Nat} (hfuel : fragments.length ≤ fuel) :
    generateLoop limits .singleNalUnit n fuel i fragments = .error .refused ∨
    generateLoop limits .singleNalUnit n fuel i fragments =
        .ok ((fragments.map Piece.single).flatMap Piece.units, fragments.length) ∧
      ∀ k nal, fragments[k]? = some nal →
        nal.length ≤ limits.maxPayloadSize - reductionSize limits n (i + k) := by
  induction fuel generalizing i fragments with
  | zero =>
    obtain rfl : fragments = [] := List.length_eq_zero_iff.mp (by omega)
    exact Or.inr ⟨rfl, by simp⟩
  | succ fuel ih =>
    cases fragments with
    | nil => exact Or.inr ⟨rfl, by simp⟩
    | cons nal fragments =>
      rw [List.length_cons] at hfuel
      obtain ⟨hred, hgt⟩ := h.reductionSize n i
      unfold kFuAHeaderSize at hred
      rw [generateLoop, packetizeSingleNalu, toSize_of_nonneg (by omega) (by omega)]
      split_ifs with hlarge
      · exact Or.inl rfl
      · rcases @ih (i + 1) fragments (by omega) with hplan | ⟨hplan, hsmall⟩
        · exact Or.inl (by rw [hplan]; rfl)
        · refine Or.inr ⟨by rw [hplan]; rfl, fun k x hx => ?_⟩
          cases k with
          | zero =>
            obtain rfl := Option.some.inj hx
            rw [Nat.add_zero]
            omega
          | succ k =>
            rw [← Nat.add_assoc, Nat.add_right_comm]
            exact hsmall k x (by simpa using hx)

end

end Planning

/-! ## The packets of a frame -/

/-- The calls of `NextPacket`, for packets with room for the limit of their position: as many as
`NumberOfPackets()` said return `true`, the number counts down to zero, the last packet and no
other is marked, and each payload respects the limit of its position. -/
def Delivers (limits : PayloadSizeLimits) (s : State) : Prop :=
  ∀ free : Nat → Nat,
    (∀ k, limits.maxPayloadSize - reductionSize limits s.numPacketsLeft k ≤ free k) →
      ∃ sent, drain free (s.packetUnits.length + 1) 0 s = some sent ∧
        sent.length = s.numPacketsLeft ∧
        ∀ k x, sent[k]? = some x → x.numberOfPackets + (k + 1) = s.numPacketsLeft ∧
          x.marker = decide (k + 1 = s.numPacketsLeft) ∧
          x.payload.length ≤ limits.maxPayloadSize - reductionSize limits s.numPacketsLeft k

/-- The frame is planned, and its packets are delivered as the plan says. -/
def PlanKept (payload : Bytes) (limits : PayloadSizeLimits) (mode : PacketizationMode) : Prop :=
  ∃ s, packetizeFrame payload limits mode = some s ∧ Delivers limits s

/-- All NAL units of the frame fit one packet that is first and last, but do not leave the
reduction of a single packet. -/
def OneTooLarge (limits : PayloadSizeLimits) (fragments : List Bytes) : Prop :=
  2 ≤ fragments.length ∧
    groupSize fragments + limits.firstPacketReductionSize + limits.lastPacketReductionSize ≤
      limits.maxPayloadSize ∧
    limits.maxPayloadSize < groupSize fragments + limits.singlePacketReductionSize

theorem length_le_flatMap_units {ps : List Piece} (h : ∀ p ∈ ps, p.Valid) :
    ps.length ≤ (ps.flatMap Piece.units).length := by
  induction ps with
  | nil => exact Nat.zero_le _
  | cons p ps ih =>
    have hpos := List.length_pos_of_ne_nil (Piece.units_ne_nil (h p List.mem_cons_self))
    have := ih fun q hq => h q (List.mem_cons_of_mem p hq)
    rw [List.flatMap_cons, List.length_append, List.length_cons]
    omega

theorem delivers_pieces_iff (limits : PayloadSizeLimits) {ps : List Piece}
    (hvalid : ∀ p ∈ ps, p.Valid)
    {fragments : List Bytes} (hpopped : (ps.map Piece.popped).sum ≤ fragments.length) :
    Delivers limits ⟨ps.flatMap Piece.units, ps.length, fragments⟩ ↔ ∀ k p, ps[k]? = some p →
      p.payload.length ≤ limits.maxPayloadSize - reductionSize limits ps.length k := by
  have hfuel := length_le_flatMap_units hvalid
  constructor
  · intro hdelivers k p hp
    -- packets with room for all that is written
    let free : Nat → Nat := fun k => (limits.maxPayloadSize - reductionSize limits ps.length k).toNat +
      (ps.map (·.payload.length)).sum
    have hroom : ∀ j q, ps[j]? = some q → q.payload.length ≤ free (0 + j) := by
      intro j q hq
      have : q.payload.length ≤ (ps.map (·.payload.length)).sum :=
        List.le_sum_of_mem (List.mem_map_of_mem (List.mem_of_getElem? hq))
      exact le_trans this (Nat.le_add_left _ _)
    obtain ⟨sent, hdrain, -, hsent⟩ := hdelivers free fun k => by
      show _ - reductionSize limits ps.length k ≤ ((_ + _ : Nat) : Int)
      omega
    dsimp only at hdrain
    rw [drain_pieces hvalid hroom (by omega) hpopped] at hdrain
    obtain rfl := Option.some.inj hdrain
    exact (hsent k _ (by rw [getElem?_sentOf, hp]; rfl)).2.2
  · intro hlimits free hfree
    have hroom : ∀ j q, ps[j]? = some q → q.payload.length ≤ free (0 + j) := by
      intro j q hq
      have := hlimits j q hq
      have := hfree (0 + j)
      dsimp only at this
      rw [Nat.zero_add] at *
      omega
    refine ⟨sentOf ps, drain_pieces hvalid hroom (by dsimp only; omega) hpopped, length_sentOf ps,
      fun k x hx => ?_⟩
    rw [getElem?_sentOf] at hx
    obtain ⟨p, hp, rfl⟩ := Option.map_eq_some_iff.mp hx
    have hlt := (List.getElem?_eq_some_iff.mp hp).1
    exact ⟨Nat.sub_add_cancel hlt, rfl, hlimits k p hp⟩

theorem length_fragmentsOf {payload nal : Bytes} (h : nal ∈ fragmentsOf payload) :
    nal.length ≤ payload.length := by
  obtain ⟨index, -, rfl⟩ := List.mem_map.mp h
  exact le_trans (List.length_take_le' _ _) (by rw [List.length_drop]; omega)

theorem Placed.limit {ps : List Piece} (h : Placed limits 0 ps) (hone : ∀ p, ps = [p] →
      p.payload.length + limits.singlePacketReductionSize ≤ limits.maxPayloadSize)
    (k : Nat) (p : Piece) (hp : ps[k]? = some p) :
    p.payload.length ≤ limits.maxPayloadSize - reductionSize limits ps.length k := by
  have hlt := (List.getElem?_eq_some_iff.mp hp).1
  unfold RtpH264Packetizer.reductionSize
  split_ifs with hlen hfirst hlast
  · obtain ⟨q, rfl⟩ := List.length_eq_one_iff.mp hlen
    obtain rfl : k = 0 := by omega
    have := hone q rfl
    obtain rfl := Option.some.inj hp
    omega
  · subst hfirst
    have := h.first rfl (by omega) p hp
    omega
  · have := h.last (Or.inr (by omega)) k p hlast hp
    omega
  · have := h.middle k p (Or.inr hfirst) (by omega) hp
    omega

/-- **When the plan is kept.**  In the mode of single NAL units always.  Else exactly when no NAL
unit is so large that it is taken for a small one, and when the packet that holds all NAL units of
a frame, if there is one, leaves the reduction of a single packet. -/
theorem planKept_iff (payload : Bytes) (limits : PayloadSizeLimits) (mode : PacketizationMode)
    (hpayload : payload.length < 2 ^ 63) (hmax : limits.maxPayloadSize < 2 ^ 31)
    (hfirst₀ : 0 ≤ limits.firstPacketReductionSize) (hlast₀ : 0 ≤ limits.lastPacketReductionSize)
    (hsingle : limits.maxPayloadSize - limits.singlePacketReductionSize < 2 ^ 31)
    (hroom : limits.firstPacketReductionSize + 3 < limits.maxPayloadSize ∧
      limits.lastPacketReductionSize + 3 < limits.maxPayloadSize ∧
      limits.singlePacketReductionSize + 3 < limits.maxPayloadSize) :
    PlanKept payload limits mode ↔ mode = .singleNalUnit ∨
      (∀ i nal, (fragmentsOf payload)[i]? = some nal →
        ¬ Misjudged limits (fragmentsOf payload).length i nal) ∧
      ¬ OneTooLarge limits (fragmentsOf payload) := by
  obtain ⟨hfirst, hlast, hone⟩ := hroom
  have h : Workable limits := by
    refine ⟨hmax, hfirst₀, hlast₀, hsingle, ?_, ?_, ?_⟩ <;> unfold kFuAHeaderSize <;> omega
  have hlength : ∀ nal ∈ fragmentsOf payload, nal.length < 2 ^ 63 := fun nal hnal =>
    lt_of_le_of_lt (length_fragmentsOf hnal) hpayload
  unfold PlanKept packetizeFrame generatePackets
  dsimp only
  generalize fragmentsOf payload = fragments at *
  cases mode with
  | singleNalUnit =>
    refine iff_of_true ?_ (Or.inl rfl)
    rcases generateLoop_single h (n := fragments.length) (i := 0) (le_refl fragments.length) with
      hplan | ⟨hplan, hlimits⟩
    · rw [hplan]
      exact ⟨_, rfl, (@delivers_pieces_iff limits [] (by simp) _ (Nat.zero_le _)).2 (by simp)⟩
    · rw [hplan]
      have hlen : fragments.length = (fragments.map Piece.single).length := by rw [List.length_map]
      have hpopped : ((fragments.map Piece.single).map Piece.popped).sum ≤ fragments.length := by
        rw [List.map_map]
        simp [Function.comp_def, Piece.popped]
      refine ⟨_, rfl, ?_⟩
      have hdelivers := (@delivers_pieces_iff limits (fragments.map Piece.single)
        (by simp [Piece.Valid]) _ hpopped).2 fun k p hp => by
          rw [List.getElem?_map] at hp
          obtain ⟨nal, hnal, rfl⟩ := Option.map_eq_some_iff.mp hp
          rw [← hlen, ← Nat.zero_add k]
          exact hlimits k nal hnal
      rwa [← hlen] at hdelivers
  | nonInterleaved =>
    obtain ⟨hgood, hbad⟩ := generateLoop_spec h (n := fragments.length) (i := 0) hlength
      (le_refl fragments.length) (Nat.zero_add _)
    simp only [Nat.zero_add] at hgood hbad
    simp only [reduceCtorEq, false_or]
    by_cases hjudged : ∀ i nal, fragments[i]? = some nal → ¬ Misjudged limits fragments.length i nal
    · obtain ⟨ps, hplan, hvalid, hpopped, hnil, hplaced, hwhole⟩ := hgood hjudged
      have hwhole := hwhole trivial
      rw [hplan]
      have hdelivers := delivers_pieces_iff limits hvalid hpopped.le
      constructor
      · rintro ⟨s, hs, hdelivered⟩
        obtain rfl := Option.some.inj hs
        refine ⟨hjudged, fun ⟨htwo, hfits, hlarge⟩ => ?_⟩
        obtain ⟨p, rfl⟩ := hwhole.fits htwo hfits
        have hsize := (hwhole.size htwo p rfl).1
        have hlimit := hdelivers.1 hdelivered 0 p rfl
        rw [RtpH264Packetizer.reductionSize, if_pos (List.length_singleton)] at hlimit
        omega
      · rintro ⟨-, hone⟩
        refine ⟨_, rfl, hdelivers.2 (hplaced.limit fun p hp => ?_)⟩
        by_cases htwo : 2 ≤ fragments.length
        · obtain ⟨hsize, hfits⟩ := hwhole.size htwo p hp
          have hle := not_lt.mp fun hlarge => hone ⟨htwo, hfits, hlarge⟩
          omega
        · refine hwhole.one ?_ p hp
          have hpos := List.length_pos_of_ne_nil
            (mt hnil.2 (by rw [hp]; exact List.cons_ne_nil _ _))
          omega
    · push Not at hjudged
      rw [hbad hjudged]
      refine iff_of_false ?_ fun hall => ?_
      · rintro ⟨s, hs, -⟩
        cases hs
      · obtain ⟨i, nal, hnal, hmis⟩ := hjudged
        exact hall.1 i nal hnal hmis

/-- Two NAL units of three bytes each. -/
def twoNalUnits : Bytes := [0, 0, 1, 0x65, 1, 2, 0, 0, 1, 0x41, 3, 4]

theorem fragmentsOf_twoNalUnits : fragmentsOf twoNalUnits = [[0x65, 1, 2], [0x41, 3, 4]] := by
  decide +kernel

/-- A packet of their eleven bytes leaves a reduction of nine. -/
theorem planKept_twoNalUnits : PlanKept twoNalUnits ⟨20, 0, 0, 9⟩ .nonInterleaved := by
  refine (planKept_iff twoNalUnits ⟨20, 0, 0, 9⟩ .nonInterleaved (by decide) (by decide) (by decide)
    (by decide) (by decide) (by decide)).2 (Or.inr ⟨fun i nal hnal => ?_, ?_⟩)
  · have hlength := length_fragmentsOf (List.mem_of_getElem? hnal)
    exact not_misjudged_of_small (lt_of_le_of_lt hlength (by decide))
  · rw [fragmentsOf_twoNalUnits]
    unfold OneTooLarge
    decide

/-- **A single packet that is too large**: the two NAL units are aggregated into eleven bytes,
where a single packet has room for ten. -/
theorem not_planKept : ¬ ∀ (payload : Bytes) (limits : PayloadSizeLimits)
    (mode : PacketizationMode),
    (limits.firstPacketReductionSize + 3 < limits.maxPayloadSize ∧
      limits.lastPacketReductionSize + 3 < limits.maxPayloadSize ∧
      limits.singlePacketReductionSize + 3 < limits.maxPayloadSize) →
    PlanKept payload limits mode := by
  intro h
  obtain ⟨s, hs, hdelivers⟩ := h twoNalUnits ⟨20, 0, 0, 10⟩ .nonInterleaved (by decide)
  have hplan : packetizeFrame twoNalUnits ⟨20, 0, 0, 10⟩ .nonInterleaved =
      some ⟨stapAUnits true [[0x65, 1, 2], [0x41, 3, 4]], 1, [[0x65, 1, 2], [0x41, 3, 4]]⟩ := by
    decide +kernel
  obtain rfl := Option.some.inj (hplan.symm.trans hs)
  obtain ⟨sent, hdrain, -, hsent⟩ := hdelivers (fun _ => 20) fun k => by
    show (20 : Int) - reductionSize ⟨20, 0, 0, 10⟩ 1 k ≤ 20
    rw [RtpH264Packetizer.reductionSize, if_pos rfl]
    decide
  have hwritten : drain (fun _ => 20) 3 0
      ⟨stapAUnits true [[0x65, 1, 2], [0x41, 3, 4]], 1, [[0x65, 1, 2], [0x41, 3, 4]]⟩ =
      some [⟨[0x78, 0, 3, 0x65, 1, 2, 0, 3, 0x41, 3, 4], true, 0⟩] := by decide +kernel
  obtain rfl := Option.some.inj (hwritten.symm.trans hdrain)
  have hlimit := (hsent 0 _ rfl).2.2
  revert hlimit
  decide

end NaiveRtc.Rtp
