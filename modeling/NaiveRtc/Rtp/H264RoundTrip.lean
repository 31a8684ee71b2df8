import NaiveRtc.Rtp.H264Depacketizer
import NaiveRtc.Rtp.H264Plan
import NaiveRtc.Rtp.PacketToSend

/-!
# H.264 there and back

The NAL units of a frame come back from the payloads of its packets, byte for byte.

* `Plans` — a queue of packet units, the NAL units it stands for and the payloads that are
  written from it.
* `plans_nextPackets` — what the packetizer writes; `plans_reassemble` — what the depacketizer
  and the reassembly make of it.
* `h264_round_trip` — the two together.
-/

namespace NaiveRtc.Rtp

open ByteIo RtpH264Packetizer RtpH264Depacketizer

/-! ## Header bytes -/

theorem fuA_header (first last : Bool) (header : UInt8) :
    let fuIndicator := (header &&& ~~~kTypeMask &&& (kFBit ||| kNriMask)) ||| kFuA
    let fuHeader := (if first then kSBit else 0) ||| (if last then kEBit else 0) |||
      (header &&& kTypeMask)
    fuIndicator &&& kTypeMask = kFuA ∧ decide (0 < fuHeader &&& kSBit) = first ∧
      (fuIndicator &&& (kFBit ||| kNriMask)) ||| (fuHeader &&& kTypeMask) = header := by
  refine forall_byte (P := fun header =>
    let fuIndicator := (header &&& ~~~kTypeMask &&& (kFBit ||| kNriMask)) ||| kFuA
    let fuHeader := (if first then kSBit else 0) ||| (if last then kEBit else 0) |||
      (header &&& kTypeMask)
    fuIndicator &&& kTypeMask = kFuA ∧ decide (0 < fuHeader &&& kSBit) = first ∧
      (fuIndicator &&& (kFBit ||| kNriMask)) ||| (fuHeader &&& kTypeMask) = header) ?_ header
  cases first <;> cases last <;> decide +kernel

theorem stapA_header (header : UInt8) : stapAHeader header &&& kTypeMask = kStapA := by
  refine forall_byte (P := fun header => stapAHeader header &&& kTypeMask = kStapA) ?_ header
  decide +kernel

/-! ## Plans -/

/-- `Plans cap units nals payloads`: the queue `units` stands for the NAL units `nals`, and the
payloads written from it are `payloads`, none longer than `cap`. -/
inductive Plans (cap : Nat) : List PacketUnit → List Bytes → List Bytes → Prop
  | nil : Plans cap [] [] []
  | single {nal : Bytes} {aggregated : Bool} {units : List PacketUnit} {nals payloads : List Bytes}
      (hcap : nal.length ≤ cap) (h : Plans cap units nals payloads) :
      Plans cap (⟨nal, true, true, aggregated, nal.headD 0⟩ :: units) (nal :: nals)
      (nal :: payloads)
  | stapA {group : List Bytes} {units : List PacketUnit} {nals payloads : List Bytes}
      (hgroup : 2 ≤ group.length) (hcap : (stapAPayload group).length ≤ cap)
      (h : Plans cap units nals payloads) :
      Plans cap (stapAUnits true group ++ units) (group ++ nals) (stapAPayload group :: payloads)
  | fuA {nal : Bytes} {sizes : List Nat} {units : List PacketUnit} {nals payloads : List Bytes}
      (hsizes : 2 ≤ sizes.length) (hsum : sizes.sum + kNaluHeaderSize = nal.length)
      (hcap : ∀ size ∈ sizes, kFuAHeaderSize + size ≤ cap) (h : Plans cap units nals payloads) :
      Plans cap (fuAUnits nal kNaluHeaderSize true sizes ++ units) (nal :: nals)
        ((fuAUnits nal kNaluHeaderSize true sizes).map fuAPayload ++ payloads)

/-! ## Writing -/

theorem Plans.units_ne_nil {cap : Nat} {units : List PacketUnit} {nals payloads : List Bytes}
    (h : Plans cap units nals payloads) (hne : nals ≠ []) : units ≠ [] := by
  cases h with
  | nil => exact absurd rfl hne
  | single hcap h => exact List.cons_ne_nil _ _
  | @stapA group units nals payloads hgroup hcap h =>
    intro hnil
    have hlength := congrArg List.length hnil
    rw [List.length_append, stapAUnits_length, List.length_nil] at hlength
    omega
  | @fuA nal sizes units nals payloads hsizes hsum hcap h =>
    intro hnil
    have hlength := congrArg List.length hnil
    rw [List.length_append, fuAUnits_length, List.length_nil] at hlength
    omega

section Writing

variable {cap : Nat} {freeCapacity : Nat → Nat}

theorem nextPacket_piece {k : Nat} (hfree : cap ≤ freeCapacity k) {nal : Bytes} {offset size : Nat}
    {first last : Bool} (hpart : (first && last) = false) (hsize : kFuAHeaderSize + size ≤ cap)
    (units : List PacketUnit) :
    let unit : PacketUnit := ⟨(nal.drop offset).take size, first, last, false, nal.headD 0⟩
    nextPacket (freeCapacity k) unit units = some (fuAPayload unit, units) := by
  intro unit
  have hroom : (fuAPayload unit).length ≤ freeCapacity k := by
    rw [length_fuAPayload]
    simp only [unit, List.length_take]
    omega
  exact nextPacket_fuA hpart rfl hroom units

theorem nextPackets_fuAUnits (hfree : ∀ k, cap ≤ freeCapacity k) {nal : Bytes} {offset : Nat}
    {sizes : List Nat} (hcap : ∀ size ∈ sizes, kFuAHeaderSize + size ≤ cap)
    {units : List PacketUnit}
    {payloads : List Bytes} {fuel k : Nat}
    (hrest : nextPackets freeCapacity fuel (k + sizes.length) units = some payloads) :
    nextPackets freeCapacity (fuel + sizes.length) k (fuAUnits nal offset false sizes ++ units) =
      some ((fuAUnits nal offset false sizes).map fuAPayload ++ payloads) := by
  induction sizes generalizing offset k with
  | nil => exact hrest
  | cons size sizes ih =>
    rw [fuAUnits, List.cons_append, List.length_cons, ← Nat.add_assoc, nextPackets,
      nextPacket_piece (hfree k) (by rfl) (hcap size List.mem_cons_self),
      Option.bind_eq_bind, Option.bind_some]
    dsimp only
    rw [ih (fun c hc => hcap c (List.mem_cons_of_mem size hc))
      (by rw [← hrest, List.length_cons, Nat.add_assoc, Nat.add_comm 1])]
    rfl

theorem plans_nextPackets (hfree : ∀ k, cap ≤ freeCapacity k) {units : List PacketUnit}
    {nals payloads : List Bytes} (h : Plans cap units nals payloads) {fuel k : Nat}
    (hfuel : units.length ≤ fuel) : nextPackets freeCapacity fuel k units = some payloads := by
  induction h generalizing fuel k with
  | nil => cases fuel <;> rfl
  | single hcap h ih =>
    obtain ⟨fuel, rfl⟩ : ∃ n, fuel = n + 1 := ⟨fuel - 1, by simp at hfuel; omega⟩
    rw [nextPackets, nextPacket_single (hcap.trans (hfree k)), Option.bind_eq_bind,
      Option.bind_some]
    dsimp only
    rw [ih (by simpa using hfuel)]
    rfl
  | @stapA group units nals payloads hgroup hcap h ih =>
    obtain ⟨unit, rest, heq, hpacket⟩ := nextPacket_stapA hgroup (hcap.trans (hfree k)) units
    have hlength := congrArg List.length heq
    rw [List.length_append, stapAUnits_length, List.length_cons] at hlength
    rw [List.length_append, stapAUnits_length] at hfuel
    obtain ⟨fuel, rfl⟩ : ∃ n, fuel = n + 1 := ⟨fuel - 1, by omega⟩
    rw [heq]
    rw [nextPackets, hpacket, Option.bind_eq_bind, Option.bind_some]
    dsimp only
    rw [ih (by omega)]
    rfl
  | @fuA nal sizes units nals payloads hsizes hsum hcap h ih =>
    obtain ⟨size, rest, rfl⟩ : ∃ size rest, sizes = size :: rest :=
      List.exists_cons_of_ne_nil (by rintro rfl; simp at hsizes)
    have hne : rest.isEmpty = false := by
      cases rest with
      | nil => simp at hsizes
      | cons c cs => rfl
    rw [List.length_append, fuAUnits_length, List.length_cons] at hfuel
    obtain ⟨fuel', rfl⟩ : ∃ n, fuel = n + rest.length + 1 := ⟨fuel - rest.length - 1, by omega⟩
    rw [fuAUnits, List.cons_append, nextPackets,
      nextPacket_piece (hfree k) (by rw [hne]; rfl) (hcap size List.mem_cons_self),
      Option.bind_eq_bind, Option.bind_some]
    dsimp only
    rw [nextPackets_fuAUnits hfree (fun c hc => hcap c (List.mem_cons_of_mem size hc))
      (ih (by omega))]
    rfl

end Writing

/-! ## Reading -/

/-- A NAL unit that can be packetized: a type that is not a packet format of its own, a byte
behind the header, and a length that fits the length field. -/
structure ValidNal (nal : Bytes) : Prop where
  two_le : 2 ≤ nal.length
  le_max : nal.length ≤ 65535
  one_le_type : 1 ≤ nal.headD 0 &&& kTypeMask
  type_le : nal.headD 0 &&& kTypeMask ≤ 23

theorem ValidNal.type_ne {nal : Bytes} (h : ValidNal nal) :
    nal.headD 0 &&& kTypeMask ≠ kStapA ∧ nal.headD 0 &&& kTypeMask ≠ kFuA := by
  have hle := h.type_le
  constructor
  · intro heq
    rw [heq] at hle
    exact absurd hle (by decide)
  · intro heq
    rw [heq] at hle
    exact absurd hle (by decide)

section Reading

variable (parser : ParameterSetParser)

theorem parseNalu_spec {packet : DepacketizedPacket} {start size : Nat}
    (hsize : kNalHeaderSize ≤ size)
    (hstapA : packet.videoPayload.getD start 0 &&& kTypeMask ≠ kStapA)
    (hfuA : packet.videoPayload.getD start 0 &&& kTypeMask ≠ kFuA) :
    ∃ packet', parseNalu parser packet start size = some packet' ∧
      packet'.videoPayload = packet.videoPayload ∧
      packet'.packetizationType = packet.packetizationType := by
  unfold parseNalu
  rw [if_neg (Nat.not_lt.mpr hsize)]
  dsimp only
  split_ifs with h₁ h₂ h₃ h₄ h₅
  · split <;> exact ⟨_, rfl, rfl, rfl⟩
  · split <;> exact ⟨_, rfl, rfl, rfl⟩
  · exact ⟨_, rfl, rfl, rfl⟩
  · exact ⟨_, rfl, rfl, rfl⟩
  · exact absurd h₅ (not_or.mpr ⟨hstapA, hfuA⟩)
  · exact ⟨_, rfl, rfl, rfl⟩

theorem parseNalus_spec {packet : DepacketizedPacket} {indices : List NaluIndex}
    (h : ∀ index ∈ indices, kNalHeaderSize ≤ index.payloadSize ∧
      packet.videoPayload.getD index.payloadStartOffset 0 &&& kTypeMask ≠ kStapA ∧
      packet.videoPayload.getD index.payloadStartOffset 0 &&& kTypeMask ≠ kFuA) :
    ∃ packet', parseNalus parser packet indices = some packet' ∧
      packet'.videoPayload = packet.videoPayload ∧
      packet'.packetizationType = packet.packetizationType := by
  induction indices generalizing packet with
  | nil => exact ⟨packet, rfl, rfl, rfl⟩
  | cons index indices ih =>
    obtain ⟨hsize, hstapA, hfuA⟩ := h index List.mem_cons_self
    obtain ⟨packet₁, hparse, hpayload, htype⟩ := parseNalu_spec parser hsize hstapA hfuA
    rw [← hpayload] at h
    obtain ⟨packet', hrest, hpayload', htype'⟩ := ih fun index' hindex =>
      h index' (List.mem_cons_of_mem index hindex)
    refine ⟨packet', ?_, hpayload'.trans hpayload, htype'.trans htype⟩
    rw [parseNalus, hparse]
    exact hrest

/-- Where the NAL units of a STAP-A packet are. -/
def naluIndices (offset : Nat) : List Bytes → List NaluIndex
  | [] => []
  | nal :: nals =>
    ⟨offset + kLengthFieldSize, nal.length⟩ :: naluIndices
      (offset + kLengthFieldSize + nal.length) nals

theorem length_le_flatMap (group : List Bytes) :
    group.length ≤ (group.flatMap aggregationUnit).length := by
  induction group with
  | nil => exact Nat.le_refl 0
  | cons nal group ih =>
    rw [List.flatMap_cons, List.length_append, length_aggregationUnit, List.length_cons,
      kLengthFieldSize]
    omega

variable {group : List Bytes}

theorem append_aggregationUnit (pre nal : Bytes) (group : List Bytes) :
    pre ++ (nal :: group).flatMap aggregationUnit =
        (pre ++ aggregationUnit nal) ++ group.flatMap aggregationUnit ∧
      (pre ++ aggregationUnit nal).length = pre.length + kLengthFieldSize + nal.length :=
  ⟨by rw [List.flatMap_cons, List.append_assoc],
    by rw [List.length_append, length_aggregationUnit, Nat.add_assoc]⟩

theorem parseNaluIndices_spec (hlength : ∀ nal ∈ group, nal.length ≤ 65535)
    (pre : Bytes) {fuel : Nat} (hfuel : group.length ≤ fuel) :
    parseNaluIndices (pre ++ group.flatMap aggregationUnit) fuel pre.length =
      some (naluIndices pre.length group) := by
  induction group generalizing pre fuel with
  | nil =>
    have hend : ¬ pre.length < (pre ++ ([] : List Bytes).flatMap aggregationUnit).length := by simp
    cases fuel with
    | zero => rw [parseNaluIndices, if_neg hend]; rfl
    | succ fuel => rw [parseNaluIndices, if_neg hend]; rfl
  | cons nal group ih =>
    rw [List.length_cons] at hfuel
    obtain ⟨fuel, rfl⟩ : ∃ n, fuel = n + 1 := ⟨fuel - 1, by omega⟩
    have hnal := hlength nal List.mem_cons_self
    obtain ⟨hsplit, hpre⟩ := append_aggregationUnit pre nal group
    have htotal : (pre ++ (nal :: group).flatMap aggregationUnit).length =
        pre.length + kLengthFieldSize + nal.length + (group.flatMap aggregationUnit).length := by
      rw [hsplit, List.length_append, hpre]
    have hread : readBigEndian kLengthFieldSize
        ((pre ++ (nal :: group).flatMap aggregationUnit).drop pre.length) = nal.length := by
      rw [List.drop_left, List.flatMap_cons, aggregationUnit, List.append_assoc,
        readBigEndian_write]
      exact Nat.mod_eq_of_lt (by unfold kLengthFieldSize; omega)
    rw [parseNaluIndices, hread, htotal]
    dsimp only
    rw [if_pos (by unfold kLengthFieldSize; omega), if_neg (by omega), if_neg (by omega), hsplit,
      ← hpre,
      ih (fun x hx => hlength x (List.mem_cons_of_mem nal hx)) (pre ++ aggregationUnit nal)
        (by omega),
      hpre]
    rfl

theorem naluIndices_spec (group : List Bytes) (pre : Bytes) :
    (∀ index ∈ naluIndices pre.length group, ∃ nal ∈ group, index.payloadSize = nal.length ∧
      (nal ≠ [] → (pre ++ group.flatMap aggregationUnit).getD index.payloadStartOffset 0 = nal.headD 0)) ∧
    (naluIndices pre.length group).map (fun index =>
      ((pre ++ group.flatMap aggregationUnit).drop index.payloadStartOffset).take index.payloadSize) =
        group := by
  induction group generalizing pre with
  | nil => exact ⟨by simp [naluIndices], rfl⟩
  | cons nal group ih =>
    obtain ⟨hsplit, hpre⟩ := append_aggregationUnit pre nal group
    have hhere : (pre ++ (nal :: group).flatMap aggregationUnit).drop
      (pre.length + kLengthFieldSize) =
        nal ++ group.flatMap aggregationUnit := by
      have hlen : (pre ++ writeBigEndian kLengthFieldSize nal.length).length =
          pre.length + kLengthFieldSize := by rw [List.length_append, length_writeBigEndian]
      rw [List.flatMap_cons, aggregationUnit, ← hlen, List.append_assoc, ← List.append_assoc pre,
        List.drop_left]
    obtain ⟨hmem, hmap⟩ := ih (pre ++ aggregationUnit nal)
    rw [← hsplit, hpre] at hmem hmap
    rw [naluIndices]
    refine ⟨fun index hindex => ?_, ?_⟩
    · rcases List.mem_cons.mp hindex with rfl | hindex
      · refine ⟨nal, List.mem_cons_self, rfl, fun hne => ?_⟩
        obtain ⟨b, bs, rfl⟩ := List.exists_cons_of_ne_nil hne
        dsimp only
        rw [List.getD_eq_getElem?_getD, ← List.head?_drop, hhere]
        rfl
      · obtain ⟨nal', hnal', hspec⟩ := hmem index hindex
        exact ⟨nal', List.mem_cons_of_mem nal hnal', hspec⟩
    · rw [List.map_cons, hmap]
      dsimp only
      rw [hhere, List.take_left]

theorem depacketize_single {nal : Bytes} (h : ValidNal nal) :
    ∃ packet, depacketize parser nal = some packet ∧ packet.videoPayload = nal ∧
      packet.packetizationType = .single := by
  obtain ⟨hstapA, hfuA⟩ := h.type_ne
  have htwo := h.two_le
  have hhead : nal.getD 0 0 = nal.headD 0 := by cases nal <;> rfl
  unfold depacketize depacketizeStapAOrSingleNalu
  rw [if_neg (by omega), if_neg hfuA]
  dsimp only
  rw [if_neg hstapA]
  exact parseNalu_spec parser (by unfold kNalHeaderSize; omega) (by rw [hhead]; exact hstapA)
    (by rw [hhead]; exact hfuA)

theorem parse_stapAPayload (hvalid : ∀ nal ∈ group, ValidNal nal) :
    parseNaluIndicesPerStapAPacket (stapAPayload group) = some (naluIndices 1 group) := by
  have hfuel : group.length ≤ (stapAPayload group).length := by
    have := length_le_flatMap group
    rw [stapAPayload, List.length_cons]
    omega
  exact parseNaluIndices_spec (fun nal hnal => (hvalid nal hnal).le_max)
    [stapAHeader ((group.headD []).headD 0)] hfuel

theorem depacketize_stapA (hgroup : 2 ≤ group.length) (hvalid : ∀ nal ∈ group, ValidNal nal) :
    (∃ packet, depacketize parser (stapAPayload group) = some packet ∧
      packet.videoPayload = stapAPayload group ∧ packet.packetizationType = .stapA) ∧
    splitStapA (stapAPayload group) = group := by
  obtain ⟨hmem, hmap⟩ := naluIndices_spec group [stapAHeader ((group.headD []).headD 0)]
  have hindices := parse_stapAPayload hvalid
  have htype : (stapAPayload group).headD 0 &&& kTypeMask = kStapA := stapA_header _
  have hlong : ¬ (stapAPayload group).length ≤ kStapAHeaderSize := by
    obtain ⟨nal, rest, rfl⟩ : ∃ nal rest, group = nal :: rest :=
      List.exists_cons_of_ne_nil (by rintro rfl; simp at hgroup)
    have htwo := (hvalid nal List.mem_cons_self).two_le
    rw [stapAPayload, List.length_cons, List.flatMap_cons, List.length_append,
      length_aggregationUnit]
    unfold kStapAHeaderSize kNalHeaderSize kLengthFieldSize
    omega
  constructor
  · unfold depacketize depacketizeStapAOrSingleNalu
    rw [if_neg (by unfold kStapAHeaderSize at hlong; omega), htype, if_neg (by decide)]
    dsimp only
    rw [if_pos rfl, if_neg hlong, hindices]
    dsimp only
    refine parseNalus_spec parser fun index hindex => ?_
    obtain ⟨nal, hnal, hsize, hhead⟩ := hmem index hindex
    have htwo := (hvalid nal hnal).two_le
    have hne : nal ≠ [] := by rintro rfl; simp at htwo
    refine ⟨by rw [hsize]; unfold kNalHeaderSize; omega, ?_⟩
    rw [show (stapAPayload group).getD index.payloadStartOffset 0 = nal.headD 0 from hhead hne]
    exact (hvalid nal hnal).type_ne
  · rw [splitStapA, hindices]
    exact hmap

/-- **A FU-A packet is accepted**, and the first one has the header of the NAL unit again. -/
theorem depacketize_fuA (unit : PacketUnit) :
    ∃ packet, depacketize parser (fuAPayload unit) = some packet ∧ packet.packetizationType = .fuA ∧
      packet.videoHeader.isFirstPacketInFrame = unit.firstFragment ∧
      packet.videoPayload =
        if unit.firstFragment then unit.header :: unit.fragmentData else unit.fragmentData := by
  obtain ⟨htype, hfirst, hheader⟩ := fuA_header unit.firstFragment unit.lastFragment unit.header
  unfold depacketize
  rw [if_neg (by simp [fuAPayload]), show (fuAPayload unit).headD 0 &&& kTypeMask = kFuA from htype,
    if_pos rfl]
  unfold depacketizeFuANalu
  rw [if_neg (by simp [fuAPayload, kFuAHeaderSize])]
  refine ⟨_, rfl, rfl, hfirst, ?_⟩
  dsimp only
  rw [show decide (0 < (fuAPayload unit).getD 1 0 &&& kSBit) = unit.firstFragment from hfirst,
    show (((fuAPayload unit).getD 0 0 &&& (kFBit ||| kNriMask)) |||
      ((fuAPayload unit).getD 1 0 &&& kTypeMask)) = unit.header from hheader]
  rfl

theorem appendToLast_concat (fragment : Bytes) (nals : List Bytes) (nal : Bytes) :
    appendToLast fragment (nals ++ [nal]) = nals ++ [nal ++ fragment] := by
  induction nals with
  | nil => rfl
  | cons x nals ih =>
    rw [List.cons_append, List.cons_append, ← ih]
    cases hnals : nals ++ [nal] with
    | nil => simp at hnals
    | cons y ys => rfl

theorem reassemble_fuAUnits (nals : List Bytes) (part : Bytes) (nal : Bytes) (offset : Nat)
    (sizes : List Nat)
    (payloads : List Bytes) :
    reassemble parser (nals ++ [part]) ((fuAUnits nal offset false sizes).map fuAPayload ++ payloads) =
      reassemble parser (nals ++ [part ++ (nal.drop offset).take sizes.sum]) payloads := by
  induction sizes generalizing part offset with
  | nil => simp [fuAUnits]
  | cons size sizes ih =>
    obtain ⟨packet, hpacket, htype, hfirst, hpayload⟩ := depacketize_fuA parser
      ⟨(nal.drop offset).take size, false, sizes.isEmpty, false, nal.headD 0⟩
    rw [fuAUnits, List.map_cons, List.cons_append, reassemble, hpacket]
    dsimp only
    rw [reassembleStep, htype]
    dsimp only
    rw [if_neg (by rw [hfirst]; simp), hpayload, if_neg (by simp), appendToLast_concat, ih,
      List.append_assoc, List.sum_cons, List.take_add, List.drop_drop]

theorem plans_reassemble {cap : Nat} {units : List PacketUnit} {nals payloads : List Bytes}
    (h : Plans cap units nals payloads) (hvalid : ∀ nal ∈ nals, ValidNal nal)
    (before : List Bytes) :
    reassemble parser before payloads = some (before ++ nals) := by
  induction h generalizing before with
  | nil => rw [reassemble, List.append_nil]
  | @single nal aggregated units nals payloads hcap h ih =>
    obtain ⟨packet, hpacket, hpayload, htype⟩ :=
      depacketize_single parser (hvalid nal List.mem_cons_self)
    rw [reassemble, hpacket]
    dsimp only
    rw [reassembleStep, htype, hpayload]
    dsimp only
    rw [ih (fun x hx => hvalid x (List.mem_cons_of_mem nal hx)), List.append_assoc]
    rfl
  | @stapA group units nals payloads hgroup hcap h ih =>
    obtain ⟨⟨packet, hpacket, hpayload, htype⟩, hsplit⟩ :=
      depacketize_stapA parser hgroup fun x hx => hvalid x (List.mem_append_left nals hx)
    rw [reassemble, hpacket]
    dsimp only
    rw [reassembleStep, htype, hpayload]
    dsimp only
    rw [hsplit, ih (fun x hx => hvalid x (List.mem_append_right group hx)), List.append_assoc]
  | @fuA nal sizes units nals payloads hsizes hsum hcap h ih =>
    obtain ⟨size, rest, rfl⟩ : ∃ size rest, sizes = size :: rest :=
      List.exists_cons_of_ne_nil (by rintro rfl; simp at hsizes)
    obtain ⟨b, bs, rfl⟩ : ∃ b bs, nal = b :: bs :=
      List.exists_cons_of_ne_nil (by rintro rfl; simp [kNaluHeaderSize] at hsum)
    obtain ⟨packet, hpacket, htype, hfirst, hpayload⟩ := depacketize_fuA parser
      ⟨((b :: bs).drop kNaluHeaderSize).take size, true, rest.isEmpty, false, (b :: bs).headD 0⟩
    have hall : b :: (bs.take size ++ (bs.drop size).take rest.sum) = b :: bs := by
      rw [← List.take_add, List.take_of_length_le]
      rw [List.sum_cons, List.length_cons, kNaluHeaderSize] at hsum
      omega
    rw [fuAUnits, List.map_cons, List.cons_append, reassemble, hpacket]
    dsimp only
    rw [reassembleStep, htype]
    dsimp only
    rw [if_pos hfirst, hpayload, if_pos rfl, reassemble_fuAUnits, ih fun x hx =>
      hvalid x (List.mem_cons_of_mem (b :: bs) hx), List.append_assoc]
    congr 2
    rw [Nat.add_comm kNaluHeaderSize size]
    exact congrArg (· :: nals) hall

end Reading

/-! ## Planning -/

section Planning

variable {limits : PayloadSizeLimits} {n i : Nat}

theorem Workable.reduction_nonneg (h : Workable limits)
    (hsingle : 0 ≤ limits.singlePacketReductionSize)
    (n i : Nat) : 0 ≤ groupReduction limits n i ∧
      0 ≤ RtpH264Packetizer.reductionSize limits n i := by
  have hfirst := h.first_nonneg
  have hlast := h.last_nonneg
  unfold groupReduction RtpH264Packetizer.reductionSize
  split_ifs <;> omega

theorem groupSize_of_ne_nil (nal : Bytes) {nals : List Bytes} (hne : nals ≠ []) :
    groupSize (nal :: nals) = (stapAPayload (nal :: nals)).length := by
  cases nals with
  | nil => exact absurd rfl hne
  | cons nal' nals => rfl

theorem plans_aggregated {units : List PacketUnit} {nals payloads : List Bytes}
    (hplans : Plans limits.maxPayloadSize units nals payloads) {nal : Bytes} {taken : List Bytes}
    (hone : nal.length ≤ limits.maxPayloadSize)
    (hmany : taken ≠ [] → (stapAPayload (nal :: taken)).length ≤ limits.maxPayloadSize) :
    ∃ payloads', Plans limits.maxPayloadSize (stapAUnits true (nal :: taken) ++ units)
      (nal :: taken ++ nals) payloads' := by
  by_cases hne : taken = []
  · subst hne
    exact ⟨_, Plans.single hone hplans⟩
  · have hpos := List.length_pos_of_ne_nil hne
    exact ⟨_, Plans.stapA (by rw [List.length_cons]; omega) (hmany hne) hplans⟩

theorem map_eq_ok {ε α β : Type*} {f : α → β} {x : Except ε α} {b : β} (h : x.map f = .ok b) :
    ∃ a, x = .ok a ∧ f a = b := by
  cases x with
  | error e => cases h
  | ok a => exact ⟨a, rfl, Except.ok.inj h⟩

/-- **The plan for the fragments**: in the mode with aggregation and fragmentation there is
always one. -/
theorem generateLoop_plans (h : Workable limits) (hsingle : 0 ≤ limits.singlePacketReductionSize)
    (mode : PacketizationMode) {fuel : Nat}
    {fragments : List Bytes} (hlength : ∀ nal ∈ fragments, nal.length ≤ 65535)
    (hfuel : fragments.length ≤ fuel) (hi : i + fragments.length = n) :
    (mode = .nonInterleaved → ∃ r, generateLoop limits mode n fuel i fragments = .ok r) ∧
    ∀ r, generateLoop limits mode n fuel i fragments = .ok r →
      ∃ payloads, Plans limits.maxPayloadSize r.1 fragments payloads := by
  induction fuel generalizing i fragments with
  | zero =>
    obtain rfl : fragments = [] := List.length_eq_zero_iff.mp (by omega)
    refine ⟨fun _ => ⟨_, rfl⟩, fun r hr => ?_⟩
    cases hr
    exact ⟨[], Plans.nil⟩
  | succ fuel ih =>
    cases fragments with
    | nil =>
      refine ⟨fun _ => ⟨_, rfl⟩, fun r hr => ?_⟩
      cases hr
      exact ⟨[], Plans.nil⟩
    | cons nal fragments =>
      rw [List.length_cons] at hfuel hi
      have hnal := hlength nal List.mem_cons_self
      have hrest : ∀ x ∈ fragments, x.length ≤ 65535 := fun x hx =>
        hlength x (List.mem_cons_of_mem nal hx)
      have hlong : ∀ x ∈ nal :: fragments, x.length < 2 ^ 63 := fun x hx => by
        have := hlength x hx
        omega
      obtain ⟨hred, hgt⟩ := h.reductionSize n i
      obtain ⟨hgroup₀, hred₀⟩ := h.reduction_nonneg hsingle n i
      have hmax := h.max_lt
      unfold kFuAHeaderSize at hred
      cases mode with
      | singleNalUnit =>
        refine ⟨fun hmode => (nomatch hmode), fun r hr => ?_⟩
        rw [generateLoop, packetizeSingleNalu, toSize_of_nonneg (by omega) (by omega)] at hr
        split_ifs at hr with hlarge
        obtain ⟨r', hr', rfl⟩ := map_eq_ok hr
        obtain ⟨payloads, hplans⟩ := (ih hrest (by omega) (by omega)).2 r' hr'
        exact ⟨_, Plans.single (by omega) hplans⟩
      | nonInterleaved =>
        have hsize : toInt nal.length = nal.length := toInt_of_small (by omega) (by omega)
        rw [generateLoop, h.capacity, hsize]
        dsimp only
        by_cases hlarge : limits.maxPayloadSize - reductionSize limits n i < nal.length
        · rw [if_pos hlarge]
          obtain ⟨sizes, hfuA, -, hsizes, hsum, hcap, -⟩ :=
            packetizeFuA_spec h (hlong nal List.mem_cons_self) hlarge
          obtain ⟨⟨r', hr'⟩, hplans⟩ := (ih (i := i + 1) hrest (by omega) (by omega)).imp_left
            (· rfl)
          obtain ⟨payloads, hplans⟩ := hplans r' hr'
          rw [hfuA, hr']
          refine ⟨fun _ => ⟨_, rfl⟩, fun r hr => ?_⟩
          cases hr
          exact ⟨_, Plans.fuA hsizes hsum hcap hplans⟩
        · rw [if_neg hlarge]
          obtain ⟨taken, rest, hstapA, rfl, hsize, -⟩ :=
            packetizeStapA_spec (n := n) (i := i) h hlong hi (by omega)
          have hone : nal.length ≤ limits.maxPayloadSize := by
            rw [groupSize_cons] at hsize
            omega
          have hmany : taken ≠ [] → (stapAPayload (nal :: taken)).length ≤ limits.maxPayloadSize := by
            intro hne
            rw [groupSize_of_ne_nil nal hne] at hsize
            omega
          rw [List.length_append] at hfuel hi
          obtain ⟨⟨r', hr'⟩, hplans⟩ := (ih (i := n - rest.length)
            (fun x hx => hrest x (List.mem_append_right taken hx)) (by omega) (by omega)).imp_left
              (· rfl)
          obtain ⟨payloads, hplans⟩ := hplans r' hr'
          rw [hstapA]
          dsimp only
          rw [hr']
          refine ⟨fun _ => ⟨_, rfl⟩, fun r hr => ?_⟩
          cases hr
          exact plans_aggregated hplans hone hmany

end Planning

/-! ## There and back -/

/-- **Every NAL unit comes back**, byte for byte.  The packets have room for the largest payload
and are no larger than an IP packet, so the limits fit `int`. -/
theorem h264_round_trip (parser : ParameterSetParser) (limits : PayloadSizeLimits)
    (mode : PacketizationMode) (nals : List Bytes) (freeCapacity : Nat → Nat) (hne : nals ≠ [])
    (hvalid : ∀ nal ∈ nals, ValidNal nal)
    (hnonneg : 0 ≤ limits.firstPacketReductionSize ∧ 0 ≤ limits.lastPacketReductionSize ∧
      0 ≤ limits.singlePacketReductionSize)
    (hroom : limits.firstPacketReductionSize + kFuAHeaderSize < limits.maxPayloadSize ∧
      limits.lastPacketReductionSize + kFuAHeaderSize < limits.maxPayloadSize ∧
      limits.singlePacketReductionSize + kFuAHeaderSize < limits.maxPayloadSize)
    (hfree : ∀ k, limits.maxPayloadSize ≤ freeCapacity k ∧ freeCapacity k ≤ kIpPacketSize) :
    (mode = .nonInterleaved → packetize limits mode nals ≠ []) ∧
    (packetize limits mode nals ≠ [] →
      ∃ written, payloads freeCapacity (packetize limits mode nals) = some written ∧
        reassemble parser [] written = some nals) := by
  have hmax := hfree 0
  unfold kIpPacketSize at hmax
  have hworkable : Workable limits :=
    ⟨by omega, hnonneg.1, hnonneg.2.1, by omega, hroom.1, hroom.2.1, hroom.2.2⟩
  obtain ⟨hsome, hplans⟩ := generateLoop_plans hworkable hnonneg.2.2 mode (n := nals.length) (i :=
    0)
    (fun nal hnal => (hvalid nal hnal).le_max) (Nat.le_refl nals.length) (Nat.zero_add _)
  unfold packetize generatePackets
  refine ⟨fun hmode => ?_, fun hunits => ?_⟩
  · obtain ⟨r, hr⟩ := hsome hmode
    obtain ⟨payloads, hplan⟩ := hplans r hr
    rw [hr]
    exact hplan.units_ne_nil hne
  · generalize generateLoop limits mode nals.length nals.length 0 nals = plan at hplans hunits ⊢
    cases plan with
    | error stop => exact absurd rfl hunits
    | ok r =>
      obtain ⟨payloads, hplan⟩ := hplans r rfl
      exact ⟨payloads, plans_nextPackets (fun k => (hfree k).1) hplan (Nat.le_refl _),
        plans_reassemble parser hplan hvalid []⟩

/-- Two NAL units share a packet, a third one, with the F bit set, is cut into three. -/
theorem h264_round_trip_mixed :
    let parser : ParameterSetParser := ⟨fun _ => none, fun _ => none, fun _ => none⟩
    let limits : PayloadSizeLimits := ⟨12, 2, 3, 4⟩
    let nals : List Bytes := [[0x67, 1], [0x68, 2, 3], 0xE5 :: List.replicate 25 7]
    packetize limits .nonInterleaved nals ≠ [] ∧
      ∃ written, payloads (fun _ => 12) (packetize limits .nonInterleaved nals) = some written ∧
        reassemble parser [] written = some nals := by
  intro parser limits nals
  have hvalid : ∀ nal ∈ nals, ValidNal nal := by
    intro nal hnal
    have : nal = [0x67, 1] ∨ nal = [0x68, 2, 3] ∨ nal = 0xE5 :: List.replicate 25 7 := by
      simpa [nals] using hnal
    rcases this with rfl | rfl | rfl
    · exact ⟨by decide, by decide, by decide, by decide⟩
    · exact ⟨by decide, by decide, by decide, by decide⟩
    · exact ⟨by decide, by decide, by decide, by decide⟩
  obtain ⟨hplanned, hback⟩ := h264_round_trip parser limits .nonInterleaved nals (fun _ => 12)
    (List.cons_ne_nil _ _) hvalid (by decide) (by decide) (fun _ => by decide)
  exact ⟨hplanned rfl, hback (hplanned rfl)⟩

end NaiveRtc.Rtp
