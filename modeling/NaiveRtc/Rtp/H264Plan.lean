import NaiveRtc.Rtp.H264Packetizer

/-!
# How the packets of a frame are planned

What `PacketizeFuA` and `PacketizeStapA` put into the queue, with the room that is left in
the packets they plan.

* `stapAUnits`, `stapAPayload` — the NAL units of one packet.
* `Workable` — limits that leave room for a piece of a NAL unit in every packet.
* `packetizeFuA_spec` — a NAL unit that is too large goes into at least two packets, and the
  first and the last packet of the frame have room for their reductions.
* `packetizeStapA_spec` — one that fits goes into a packet with as many as fit there.
-/

namespace NaiveRtc.Rtp

open ByteIo RtpH264Packetizer

/-! ## The units of one packet -/

/-- The units of NAL units that go into one packet. -/
def stapAUnits (first : Bool) : List Bytes → List PacketUnit
  | [] => []
  | [nal] => [⟨nal, first, true, true, nal.headD 0⟩]
  | nal :: nals => ⟨nal, first, false, true, nal.headD 0⟩ :: stapAUnits false nals

/-- The payload of a STAP-A packet. -/
def stapAPayload (nals : List Bytes) : Bytes :=
  stapAHeader ((nals.headD []).headD 0) :: nals.flatMap aggregationUnit

variable {nals : List Bytes}

theorem stapAUnits_cons (first : Bool) (nal : Bytes) (hne : nals ≠ []) :
    stapAUnits first (nal :: nals) =
      ⟨nal, first, false, true, nal.headD 0⟩ :: stapAUnits false nals := by
  cases nals with
  | nil => exact absurd rfl hne
  | cons nal' nals => rfl

theorem stapAUnits_length (first : Bool) (nals : List Bytes) :
    (stapAUnits first nals).length = nals.length := by
  induction nals generalizing first with
  | nil => rfl
  | cons nal nals ih =>
    by_cases hne : nals = []
    · rw [hne]
      rfl
    · rw [stapAUnits_cons first nal hne, List.length_cons, ih, List.length_cons]

theorem fuAUnits_length (nal : Bytes) (offset : Nat) (first : Bool) (sizes : List Nat) :
    (fuAUnits nal offset first sizes).length = sizes.length := by
  induction sizes generalizing offset first with
  | nil => rfl
  | cons size sizes ih => rw [fuAUnits, List.length_cons, ih, List.length_cons]

/-- The unit of an aggregated NAL unit, before the last one is marked. -/
def aggregatedUnit (first : Bool) (nal : Bytes) : PacketUnit :=
    ⟨nal, first, false, true, nal.headD 0⟩

theorem markLast_aggregated (first : Bool) (nal : Bytes) (nals : List Bytes) :
    markLast (aggregatedUnit first nal :: nals.map (aggregatedUnit false)) =
      stapAUnits first (nal :: nals) := by
  induction nals generalizing first nal with
  | nil => rfl
  | cons nal' nals ih =>
    rw [List.map_cons, stapAUnits_cons first nal (List.cons_ne_nil _ _), ← ih]
    rfl

theorem length_aggregationUnit (nal : Bytes) :
    (aggregationUnit nal).length = kLengthFieldSize + nal.length := by
  rw [aggregationUnit, List.length_append, length_writeBigEndian]

/-- What NAL units take of a packet, the first of them with `headersSize` bytes of headers. -/
def cost (headersSize : Nat) : List Bytes → Nat
  | [] => 0
  | nal :: nals => nal.length + headersSize + cost kLengthFieldSize nals

/-- The size of the payload that is written for NAL units in one packet. -/
def groupSize : List Bytes → Nat
  | [nal] => nal.length
  | nals => (stapAPayload nals).length

theorem length_flatMap_aggregationUnit (nals : List Bytes) :
    (nals.flatMap aggregationUnit).length = cost kLengthFieldSize nals := by
  induction nals with
  | nil => rfl
  | cons nal nals ih =>
    rw [List.flatMap_cons, List.length_append, length_aggregationUnit, ih, cost]
    omega

theorem groupSize_cons (nal : Bytes) (nals : List Bytes) :
    groupSize (nal :: nals) = nal.length + cost (nextHeadersSize 0) nals := by
  cases nals with
  | nil => rfl
  | cons nal' nals =>
    have hheaders : nextHeadersSize 0 = kLengthFieldSize + (kNaluHeaderSize + kLengthFieldSize) :=
      rfl
    rw [groupSize, stapAPayload, List.length_cons, length_flatMap_aggregationUnit, cost, cost, cost,
      hheaders]
    · unfold kNaluHeaderSize
      omega
    · simp

/-! ## Writing the units of one packet -/

theorem aggregationUnits_stapAUnits (first : Bool) (hne : nals ≠ []) (units : List PacketUnit) :
    aggregationUnits (stapAUnits first nals ++ units) =
      some (nals.flatMap aggregationUnit, units) := by
  induction nals generalizing first with
  | nil => exact absurd rfl hne
  | cons nal nals ih =>
    by_cases hrest : nals = []
    · rw [hrest]
      simp [stapAUnits, aggregationUnits]
    · rw [stapAUnits_cons first nal hrest, List.cons_append, aggregationUnits, if_neg (by simp),
        if_neg (by simp), ih false hrest]
      rfl

section Writing

variable {free : Nat}

theorem nextPacket_single {nal : Bytes} (hroom : nal.length ≤ free) (aggregated : Bool)
    (header : UInt8)
    (units : List PacketUnit) :
    nextPacket free ⟨nal, true, true, aggregated, header⟩ units = some (nal, units) := by
  rw [nextPacket, if_pos ⟨rfl, rfl⟩, allocate, if_pos hroom]
  rfl

theorem nextPacket_stapA {group : List Bytes} (hgroup : 2 ≤ group.length)
    (hroom : (stapAPayload group).length ≤ free) (units : List PacketUnit) :
    ∃ unit rest, stapAUnits true group ++ units = unit :: rest ∧
      nextPacket free unit rest = some (stapAPayload group, units) := by
  obtain ⟨nal, rest, rfl⟩ : ∃ nal rest, group = nal :: rest :=
    List.exists_cons_of_ne_nil (by rintro rfl; simp at hgroup)
  have hne : rest ≠ [] := by
    rintro rfl
    simp at hgroup
  have hunits := aggregationUnits_stapAUnits true (List.cons_ne_nil nal rest) units
  rw [stapAUnits_cons true nal hne, List.cons_append] at hunits ⊢
  refine ⟨_, _, rfl, ?_⟩
  rw [nextPacket, if_neg (by simp), if_pos rfl, hunits]
  show (allocate free (stapAPayload (nal :: rest))).bind _ = _
  rw [allocate, if_pos hroom]
  rfl

theorem length_fuAPayload (unit : PacketUnit) :
    (fuAPayload unit).length = kFuAHeaderSize + unit.fragmentData.length := by
  rw [fuAPayload, List.length_cons, List.length_cons, kFuAHeaderSize]
  omega

theorem nextPacket_fuA {unit : PacketUnit}
    (hpart : (unit.firstFragment && unit.lastFragment) = false)
    (haggregated : unit.aggregated = false) (hroom : (fuAPayload unit).length ≤ free)
    (units : List PacketUnit) : nextPacket free unit units = some (fuAPayload unit, units) := by
  rw [nextPacket, if_neg (by simpa using hpart), if_neg (by simp [haggregated]), allocate,
    if_pos hroom]
  rfl

end Writing

theorem length_le_cost {nal : Bytes} (h : nal ∈ nals) (headersSize : Nat) :
    nal.length ≤ cost headersSize nals := by
  induction nals generalizing headersSize with
  | nil => cases h
  | cons x xs ih =>
    rw [cost]
    rcases List.mem_cons.mp h with rfl | h
    · omega
    · have := ih h kLengthFieldSize
      omega

/-! ## Limits -/

/-- Limits that leave room for a byte of payload behind every reduction and the header of a
fragment, and that fit `int`. -/
structure Workable (limits : PayloadSizeLimits) : Prop where
  max_lt : limits.maxPayloadSize < 2 ^ 31
  first_nonneg : 0 ≤ limits.firstPacketReductionSize
  last_nonneg : 0 ≤ limits.lastPacketReductionSize
  single_gt : limits.maxPayloadSize - limits.singlePacketReductionSize < 2 ^ 31
  first_lt : limits.firstPacketReductionSize + kFuAHeaderSize < limits.maxPayloadSize
  last_lt : limits.lastPacketReductionSize + kFuAHeaderSize < limits.maxPayloadSize
  single_lt : limits.singlePacketReductionSize + kFuAHeaderSize < limits.maxPayloadSize

theorem toInt_of_small {n : Int} (hle : -2 ^ 31 ≤ n) (hlt : n < 2 ^ 31) : toInt n = n := by
  rw [toInt, BitVec.toInt_ofInt, Int.bmod_eq_of_le (by omega) (by omega)]

section Planning

variable {limits : PayloadSizeLimits} {n i : Nat}

theorem Workable.reductionSize (h : Workable limits) (n i : Nat) :
    RtpH264Packetizer.reductionSize limits n i + kFuAHeaderSize < limits.maxPayloadSize ∧
      limits.maxPayloadSize - RtpH264Packetizer.reductionSize limits n i < 2 ^ 31 := by
  have hmax := h.max_lt
  have hfirst := h.first_lt
  have hlast := h.last_lt
  have hsingle := h.single_lt
  have hfirst₀ := h.first_nonneg
  have hlast₀ := h.last_nonneg
  have hsingle₀ := h.single_gt
  unfold RtpH264Packetizer.reductionSize kFuAHeaderSize at *
  split_ifs <;> omega

theorem Workable.capacity (h : Workable limits) (n i : Nat) :
    toInt (toInt limits.maxPayloadSize - RtpH264Packetizer.reductionSize limits n i) =
      limits.maxPayloadSize - RtpH264Packetizer.reductionSize limits n i := by
  have hmax := h.max_lt
  obtain ⟨hred, hgt⟩ := h.reductionSize n i
  unfold kFuAHeaderSize at hred
  rw [toInt_of_small (n := (limits.maxPayloadSize : Int)) (by omega) (by omega),
    toInt_of_small (by omega) (by omega)]

theorem fuALimits_single (limits : PayloadSizeLimits) (n i : Nat) :
    (fuALimits limits n i).singlePacketReductionSize = reductionSize limits n i := by
  simp only [fuALimits, RtpH264Packetizer.reductionSize]
  split_ifs <;> first | rfl | omega

/-! ## Fragmentation -/

variable {nal : Bytes}

/-- **A NAL unit that is too large for a packet is planned in pieces**; the first packet of the
frame and the last have room for their reductions. -/
theorem packetizeFuA_spec (h : Workable limits) (hlength : nal.length < 2 ^ 63)
    (hlarge : limits.maxPayloadSize - reductionSize limits n i < nal.length) :
    ∃ sizes, packetizeFuA limits n i nal = some (fuAUnits nal kNaluHeaderSize true sizes) ∧
      splitAboutEqually (nal.length - kNaluHeaderSize) (fuALimits limits n i) = sizes ∧
      2 ≤ sizes.length ∧ sizes.sum + kNaluHeaderSize = nal.length ∧
      (∀ size ∈ sizes, kFuAHeaderSize + size ≤ limits.maxPayloadSize) ∧
      (i = 0 → ∀ size ∈ sizes.head?,
        kFuAHeaderSize + size + limits.firstPacketReductionSize ≤ limits.maxPayloadSize) ∧
      (i + 1 = n → ∀ size ∈ sizes.getLast?,
        kFuAHeaderSize + size + limits.lastPacketReductionSize ≤ limits.maxPayloadSize) := by
  have hmax := h.max_lt
  have hfirst := h.first_lt
  have hlast := h.last_lt
  have hfirst₀ := h.first_nonneg
  have hlast₀ := h.last_nonneg
  obtain ⟨hred, hgt⟩ := h.reductionSize n i
  unfold kFuAHeaderSize at hfirst hlast hred ⊢
  have hcap : (fuALimits limits n i).maxPayloadSize = limits.maxPayloadSize - 2 := by
    show toSize ((limits.maxPayloadSize : Int) - 2) = _
    rw [toSize_of_nonneg (by omega) (by omega)]
    omega
  have hfirst' : 0 ≤ (fuALimits limits n i).firstPacketReductionSize ∧
      (fuALimits limits n i).firstPacketReductionSize ≤ limits.firstPacketReductionSize ∧
      (i = 0 → (fuALimits limits n i).firstPacketReductionSize =
        limits.firstPacketReductionSize) := by
    simp only [fuALimits]
    split_ifs <;> omega
  have hlast' : 0 ≤ (fuALimits limits n i).lastPacketReductionSize ∧
      (fuALimits limits n i).lastPacketReductionSize ≤ limits.lastPacketReductionSize ∧
      (i + 1 = n → (fuALimits limits n i).lastPacketReductionSize =
        limits.lastPacketReductionSize) := by
    simp only [fuALimits]
    split_ifs <;> omega
  have hsingle := fuALimits_single limits n i
  generalize hnew : fuALimits limits n i = new at hcap hfirst' hlast' hsingle ⊢
  have hpayload : 3 ≤ nal.length - kNaluHeaderSize := by
    unfold kNaluHeaderSize
    omega
  have hpayload' : nal.length - kNaluHeaderSize + kNaluHeaderSize = nal.length := by
    unfold kNaluHeaderSize at hpayload ⊢
    omega
  have hpayload'' : nal.length - kNaluHeaderSize < 2 ^ 63 := by omega
  have hlarge' : limits.maxPayloadSize - reductionSize limits n i ≤
      (nal.length - kNaluHeaderSize : Nat) := by
    unfold kNaluHeaderSize at hpayload' ⊢
    omega
  generalize nal.length - kNaluHeaderSize = payload at hpayload hpayload' hpayload'' hlarge' ⊢
  have hsizes : SizesFit payload new :=
    ⟨by omega, by omega, by omega, by omega, by omega, fun _ _ => by omega⟩
  obtain ⟨hspread, hlen, hhead, -⟩ := splitAboutEqually_entered hsizes hfirst'.1 hlast'.1 (by omega)
    (by omega) (by rw [toSize_of_nonneg (by omega) (by omega)]; omega)
    (packetsNeeded_le hsizes hpayload hfirst'.1 hlast'.1 (by omega) (by omega)) (by omega)
  have hunits : packetizeFuA limits n i nal =
      some (fuAUnits nal kNaluHeaderSize true (splitAboutEqually payload new)) := by
    have hpayload : nal.length - kNaluHeaderSize = payload := by
      unfold kNaluHeaderSize at hpayload' ⊢
      omega
    unfold packetizeFuA
    rw [hpayload, hnew]
    dsimp only
    rw [if_neg (by intro hnil; rw [hnil] at hlen; simp at hlen), if_pos hspread.sum]
  refine ⟨_, hunits, rfl, hlen, by rw [hspread.sum, hpayload'], fun size hsize => ?_,
    fun hi size hsize => ?_, fun hi size hsize => ?_⟩
  · have := (hspread.piece size hsize).2
    omega
  · have := hhead size hsize
    have := hfirst'.2.2 hi
    omega
  · have := hspread.last size hsize
    have := hlast'.2.2 hi
    omega

/-! ## Aggregation -/

theorem payloadSizeNeed_eq (h : Workable limits) (hlength : nal.length < 2 ^ 63)
    {headersSize : Nat} (hheaders : headersSize ≤ 5) :
    (payloadSizeNeed limits n i headersSize nal : Int) =
      nal.length + headersSize + if n ≠ 1 ∧
        i + 1 = n then limits.lastPacketReductionSize else 0 := by
  have hlast := h.last_lt
  have hlast₀ := h.last_nonneg
  have hmax := h.max_lt
  unfold kFuAHeaderSize at hlast
  unfold payloadSizeNeed
  dsimp only
  split_ifs
  · rw [toSize_of_nonneg (by omega) (by omega)]
    omega
  · omega

theorem aggregate_rest (h : Workable limits) {fragments : List Bytes}
    (hlength : ∀ nal ∈ fragments, nal.length < 2 ^ 63) {left headersSize count : Nat}
    (hleft : left < 2 ^ 32) (hheaders : headersSize ≤ 5) (hcount : count ≠ 0) (hn : n ≠ 1)
    (hi : i + fragments.length = n) :
    ∃ taken rest, aggregate limits n i left headersSize count fragments =
        (taken.map (aggregatedUnit false), rest) ∧ fragments = taken ++ rest ∧
      cost headersSize taken ≤ left ∧
      (taken ≠ [] → rest = [] → cost headersSize taken + limits.lastPacketReductionSize ≤ left) ∧
      (cost headersSize fragments + limits.lastPacketReductionSize ≤ left → rest = []) := by
  induction fragments generalizing i left headersSize count with
  | nil => exact ⟨[], [], rfl, rfl, Nat.zero_le _, fun hne => absurd rfl hne, fun _ => rfl⟩
  | cons nal fragments ih =>
    rw [List.length_cons] at hi
    have hneed := payloadSizeNeed_eq h (n := n) (i := i) (hlength nal List.mem_cons_self) hheaders
    have hlast : i + 1 = n ↔ fragments = [] := by
      rw [← List.length_eq_zero_iff]
      omega
    have hlast₀ := h.last_nonneg
    rw [aggregate, show nextHeadersSize count = kLengthFieldSize from if_neg hcount]
    by_cases hfits : payloadSizeNeed limits n i headersSize nal ≤ left
    · have hle : nal.length + headersSize ≤ left := by
        split_ifs at hneed <;> omega
      have hleft' : toSize ((left : Int) - nal.length - headersSize) =
          left - nal.length - headersSize := by
        rw [toSize_of_nonneg (by omega) (by omega)]
        omega
      rw [if_pos hfits, hleft']
      obtain ⟨taken, rest, heq, hsplit, hcost, hend, hall⟩ := ih (i := i + 1)
        (fun x hx => hlength x (List.mem_cons_of_mem nal hx))
        (show left - nal.length - headersSize < 2 ^ 32 by omega)
        (show kLengthFieldSize ≤ 5 by decide) (Nat.succ_ne_zero count) (by omega)
      refine ⟨nal :: taken, rest, ?_, by rw [hsplit, List.cons_append], ?_, fun _ hnil => ?_,
        fun hfull => ?_⟩
      · rw [heq]
        simp [aggregatedUnit, hcount]
      · rw [cost]
        omega
      · rw [cost]
        by_cases hone : taken = []
        · rw [if_pos ⟨hn, hlast.2 (by rw [hsplit, hone, hnil]; rfl)⟩] at hneed
          rw [hone, cost]
          omega
        · have := hend hone hnil
          omega
      · by_cases hone : fragments = []
        · rw [hone] at hsplit
          exact (List.append_eq_nil_iff.mp hsplit.symm).2
        · rw [cost] at hfull
          exact hall (by omega)
    · rw [if_neg hfits]
      refine ⟨[], nal :: fragments, rfl, rfl, Nat.zero_le _, fun hne => absurd rfl hne,
        fun hfull => absurd ?_ hfits⟩
      rw [cost] at hfull
      split_ifs at hneed <;> omega

/-- The reduction that counts for a group whatever comes behind it. -/
def groupReduction (limits : PayloadSizeLimits) (n i : Nat) : Int :=
  if n = 1 then limits.singlePacketReductionSize
  else if i = 0 then limits.firstPacketReductionSize
  else 0

theorem reductionSize_eq (limits : PayloadSizeLimits) (n i : Nat) :
    reductionSize limits n i =
      groupReduction limits n i + if n ≠ 1 ∧
        i + 1 = n then limits.lastPacketReductionSize else 0 := by
  unfold RtpH264Packetizer.reductionSize groupReduction
  split_ifs <;> omega

theorem stapA_capacity (h : Workable limits) (n i : Nat) :
    ∃ left : Nat, (if n = 1 then toSize (limits.maxPayloadSize - limits.singlePacketReductionSize)
      else if i = 0 then toSize (limits.maxPayloadSize - limits.firstPacketReductionSize)
      else limits.maxPayloadSize) = left ∧
      (left : Int) = limits.maxPayloadSize - groupReduction limits n i ∧ left < 2 ^ 32 := by
  have hmax := h.max_lt
  have hfirst := h.first_lt
  have hfirst₀ := h.first_nonneg
  have hsingle := h.single_lt
  have hsingle₀ := h.single_gt
  refine ⟨_, rfl, ?_⟩
  unfold groupReduction kFuAHeaderSize at *
  split_ifs
  · rw [toSize_of_nonneg (by omega) (by omega)]
    omega
  · rw [toSize_of_nonneg (by omega) (by omega)]
    omega
  · omega

theorem packetizeStapA_eq_none (h : Workable limits) (fragments : List Bytes)
    (hlength : nal.length < 2 ^ 63)
    (hlarge : limits.maxPayloadSize - reductionSize limits n i < nal.length) :
    packetizeStapA limits n i (nal :: fragments) = none := by
  obtain ⟨left, hleft, hle, -⟩ := stapA_capacity h n i
  have hneed := payloadSizeNeed_eq h (n := n) (i := i) hlength (Nat.zero_le 5)
  have hred := reductionSize_eq limits n i
  have hfull : ¬ payloadSizeNeed limits n i 0 nal ≤ left := by
    split_ifs at hneed hred <;> omega
  unfold packetizeStapA
  dsimp only
  rw [hleft, aggregate, if_neg hfull]
  rfl

/-- **A NAL unit that fits a packet is planned together with as many as follow it there.** -/
theorem packetizeStapA_spec (h : Workable limits) {fragments : List Bytes}
    (hlength : ∀ x ∈ nal :: fragments, x.length < 2 ^ 63)
    (hi : i + (nal :: fragments).length = n)
    (hsmall : nal.length ≤ limits.maxPayloadSize - reductionSize limits n i) :
    ∃ taken rest, packetizeStapA limits n i (nal :: fragments) =
        some (stapAUnits true (nal :: taken), rest) ∧
      fragments = taken ++ rest ∧
      groupSize (nal :: taken) + groupReduction limits n i ≤ limits.maxPayloadSize ∧
      (n ≠ 1 → rest = [] → groupSize (nal :: taken) + groupReduction limits n i +
        limits.lastPacketReductionSize ≤ limits.maxPayloadSize) ∧
      (n ≠ 1 → groupSize (nal :: fragments) + groupReduction limits n i +
        limits.lastPacketReductionSize ≤ limits.maxPayloadSize → rest = []) := by
  have hmax := h.max_lt
  have hnal := hlength nal List.mem_cons_self
  obtain ⟨hred, hgt⟩ := h.reductionSize n i
  have hneed := payloadSizeNeed_eq h (n := n) (i := i) hnal (Nat.zero_le 5)
  have hfirst₀ := h.first_nonneg
  have hlast₀ := h.last_nonneg
  have hsingle₀ := h.single_gt
  unfold kFuAHeaderSize at hred
  rw [List.length_cons] at hi
  have hlast : i + 1 = n ↔ fragments = [] := by
    rw [← List.length_eq_zero_iff]
    omega
  obtain ⟨left, hleft, hle, hbound⟩ := stapA_capacity h n i
  have hfits : payloadSizeNeed limits n i 0 nal ≤ left := by
    have hred := reductionSize_eq limits n i
    split_ifs at hneed hred <;> omega
  have hle' : nal.length ≤ left := by
    split_ifs at hneed <;> omega
  have hleft' : toSize ((left : Int) - nal.length - (0 : Nat)) = left - nal.length := by
    rw [toSize_of_nonneg (by omega) (by omega)]
    omega
  have hplan : ∀ taken rest, aggregate limits n (i + 1) (left - nal.length) (nextHeadersSize 0) 1
      fragments = (taken.map (aggregatedUnit false), rest) →
      packetizeStapA limits n i (nal :: fragments) =
        some (stapAUnits true (nal :: taken), rest) := by
    intro taken rest heq
    unfold packetizeStapA
    dsimp only
    rw [hleft, aggregate, if_pos hfits, hleft', heq]
    dsimp only
    rw [if_neg (List.cons_ne_nil _ _), ← markLast_aggregated]
    rfl
  by_cases hone : n = 1
  · obtain rfl : fragments = [] := hlast.1 (by omega)
    refine ⟨[], [], hplan [] [] rfl, rfl, ?_, fun hn => absurd hone hn, fun hn => absurd hone hn⟩
    rw [groupSize_cons, cost]
    omega
  · obtain ⟨taken, rest, heq, hsplit, hcost, hend, hall⟩ := aggregate_rest h (n := n) (i := i + 1)
      (fun x hx => hlength x (List.mem_cons_of_mem nal hx))
        (show left - nal.length < 2 ^ 32 by omega)
      (show nextHeadersSize 0 ≤ 5 by decide) (Nat.succ_ne_zero 0) hone (by omega)
    refine ⟨taken, rest, hplan taken rest heq, hsplit, ?_, fun _ hnil => ?_, fun _ hfull => ?_⟩
    · rw [groupSize_cons]
      omega
    · rw [groupSize_cons]
      by_cases htaken : taken = []
      · rw [if_pos ⟨hone, hlast.2 (by rw [hsplit, htaken, hnil]; rfl)⟩] at hneed
        rw [htaken, cost]
        omega
      · have := hend htaken hnil
        omega
    · rw [groupSize_cons] at hfull
      exact hall (by omega)

end Planning

end NaiveRtc.Rtp
