import NaiveRtc.Base.ByteIo
import NaiveRtc.Rtp.Packetizer

/-!
# The H.264 packetizer

The model of `rtc/rtp_rtcp/rtp/packetizer/rtp_packetizer_h264.cpp`.  The NAL units of a frame
are planned as a queue of packet units, and the payload of a packet is then written from the
front of that queue: a NAL unit of its own, several of them aggregated (STAP-A), or a
fragment of one (FU-A).

* `PacketUnit`, `PacketizationMode` — the queue and the mode.
* `packetizeSingleNalu`, `packetizeFuA`, `packetizeStapA`, `generatePackets` — the plan for
  the NAL units that `FindNaluIndices` found.
* `nextPacket`, `nextPackets` — the payloads.

`none` is a step that failed (`false`, or an assertion); `Stop` tells the two apart for a plan.
-/

namespace NaiveRtc.Rtp

open ByteIo

/-- The bytes of a NAL unit, of a fragment of one, or of a payload. -/
abbrev Bytes := List UInt8

/-- `h264::PacketizationMode`. -/
inductive PacketizationMode
  | nonInterleaved
  | singleNalUnit
  deriving DecidableEq

namespace RtpH264Packetizer

/-- The header of a NAL unit. -/
def kNaluHeaderSize : Nat := 1

/-- The two headers of an FU-A. -/
def kFuAHeaderSize : Nat := 2

/-- The length in front of each unit of a STAP-A. -/
def kLengthFieldSize : Nat := 2

/-- The header of a NAL unit: the forbidden bit, -/
def kFBit : UInt8 := 0x80

/-- the reference indicator -/
def kNriMask : UInt8 := 0x60

/-- and the type. -/
def kTypeMask : UInt8 := 0x1F

/-- The header of an FU-A: the start, -/
def kSBit : UInt8 := 0x80

/-- the end -/
def kEBit : UInt8 := 0x40

/-- and the reserved bit. -/
def kRBit : UInt8 := 0x20

/-- `h264::NaluType::STAP_A`. -/
def kStapA : UInt8 := 24

/-- `h264::NaluType::FU_A`. -/
def kFuA : UInt8 := 28

/-- `PacketUnit`. -/
structure PacketUnit where
  fragmentData : Bytes
  firstFragment : Bool
  lastFragment : Bool
  aggregated : Bool
  header : UInt8
  deriving DecidableEq

/-! ## The plan -/

/-- The conversion to `int`. -/
def toInt (n : Int) : Int := (BitVec.ofInt 32 n).toInt

/-- The reduction of the packet that holds fragment `i` of `n`. -/
def reductionSize (limits : PayloadSizeLimits) (n i : Nat) : Int :=
  if n = 1 then limits.singlePacketReductionSize
  else if i = 0 then limits.firstPacketReductionSize
  else if i + 1 = n then limits.lastPacketReductionSize
  else 0

/-- `PacketizeSingleNalu(fragment_index, limits)`. -/
def packetizeSingleNalu (limits : PayloadSizeLimits) (n i : Nat) (fragment : Bytes) :
    Option PacketUnit :=
  if toSize (limits.maxPayloadSize - reductionSize limits n i) < fragment.length then none
  else some ⟨fragment, true, true, false, fragment.headD 0⟩

/-- `new_limits` of `PacketizeFuA`. -/
def fuALimits (limits : PayloadSizeLimits) (n i : Nat) : PayloadSizeLimits :=
  { maxPayloadSize := toSize (limits.maxPayloadSize - kFuAHeaderSize)
    singlePacketReductionSize :=
      if n ≠ 1 then
        if i + 1 = n then limits.lastPacketReductionSize
        else if i = 0 then limits.firstPacketReductionSize
        else 0
      else limits.singlePacketReductionSize
    firstPacketReductionSize := if i ≠ 0 then 0 else limits.firstPacketReductionSize
    lastPacketReductionSize := if i + 1 ≠ n then 0 else limits.lastPacketReductionSize }

/-- The units of the pieces of a NAL unit; `offset` bytes of it are behind. -/
def fuAUnits (fragment : Bytes) (offset : Nat) (first : Bool) : List Nat → List PacketUnit
  | [] => []
  | size :: sizes =>
    ⟨(fragment.drop offset).take size, first, sizes.isEmpty, false, fragment.headD 0⟩ ::
      fuAUnits fragment (offset + size) false sizes

/-- `PacketizeFuA(fragment_index, limits)`. -/
def packetizeFuA (limits : PayloadSizeLimits) (n i : Nat) (fragment : Bytes) :
    Option (List PacketUnit) :=
  let payloadSize := fragment.length - kNaluHeaderSize
  let sizes := splitAboutEqually payloadSize (fuALimits limits n i)
  if sizes = [] then none
  -- the assertion that nothing is left
  else if sizes.sum = payloadSize then some (fuAUnits fragment kNaluHeaderSize true sizes)
  else none

/-- `payload_size_need()`, for fragment `i` of `n`. -/
def payloadSizeNeed (limits : PayloadSizeLimits) (n i headersSize : Nat) (fragment : Bytes) : Nat :=
  let fragmentSize := fragment.length + headersSize
  if n ≠ 1 ∧ i + 1 = n then toSize (fragmentSize + limits.lastPacketReductionSize) else fragmentSize

/-- `fragment_headers_size` after a fragment; the second one also pays for the header of the
packet and the length field of the first. -/
def nextHeadersSize (count : Nat) : Nat :=
  if count = 0 then kLengthFieldSize + (kNaluHeaderSize + kLengthFieldSize) else kLengthFieldSize

/-- The loop of `PacketizeStapA`, from fragment `i` of `n` on: the units, and the fragments
that are left. -/
def aggregate (limits : PayloadSizeLimits) (n i left headersSize count : Nat) :
    List Bytes → List PacketUnit × List Bytes
  | [] => ([], [])
  | fragment :: fragments =>
    if payloadSizeNeed limits n i headersSize fragment ≤ left then
      let (units, rest) := aggregate limits n (i + 1)
        (toSize ((left : Int) - fragment.length - headersSize)) (nextHeadersSize count)
          (count + 1) fragments
      (⟨fragment, count == 0, false, true, fragment.headD 0⟩ :: units, rest)
    else ([], fragment :: fragments)

/-- `packet_units_.back().last_fragment = true`. -/
def markLast : List PacketUnit → List PacketUnit
  | [] => []
  | [unit] => [{ unit with lastFragment := true }]
  | unit :: units => unit :: markLast units

/-- `PacketizeStapA(fragment_index, limits)`. -/
def packetizeStapA (limits : PayloadSizeLimits) (n i : Nat) (fragments : List Bytes) :
    Option (List PacketUnit × List Bytes) :=
  let payloadSize :=
    if n = 1 then toSize (limits.maxPayloadSize - limits.singlePacketReductionSize)
    else if i = 0 then toSize (limits.maxPayloadSize - limits.firstPacketReductionSize)
    else limits.maxPayloadSize
  let (units, rest) := aggregate limits n i payloadSize 0 0 fragments
  if units = [] then none else some (markLast units, rest)

/-- Why `GeneratePackets` has no plan: it returned `false`, or an assertion failed. -/
inductive Stop where
  | refused
  | assertion
  deriving DecidableEq

/-- The loop of `GeneratePackets` with `num_packets_left_`, from fragment `i` of `n` on, for at most
`fuel` rounds. -/
def generateLoop (limits : PayloadSizeLimits) (mode : PacketizationMode) (n : Nat) :
    Nat → Nat → List Bytes → Except Stop (List PacketUnit × Nat)
  | _, _, [] => .ok ([], 0)
  | 0, _, _ :: _ => .error .assertion
  | fuel + 1, i, fragment :: fragments =>
    match mode with
    | .singleNalUnit =>
      match packetizeSingleNalu limits n i fragment with
      | none => .error .refused
      | some unit =>
        (generateLoop limits mode n fuel (i + 1) fragments).map fun r => (unit :: r.1, r.2 + 1)
    | .nonInterleaved =>
      let capacity := toInt (toInt limits.maxPayloadSize - reductionSize limits n i)
      if capacity < toInt fragment.length then
        let sizes := splitAboutEqually (fragment.length - kNaluHeaderSize) (fuALimits limits n i)
        match packetizeFuA limits n i fragment with
        | none => .error (if sizes = [] then .refused else .assertion)
        | some units =>
          (generateLoop limits mode n fuel (i + 1) fragments).map fun r =>
            (units ++ r.1, r.2 + sizes.length)
      else
        match packetizeStapA limits n i (fragment :: fragments) with
        | none => .error .assertion
        | some (units, rest) =>
          (generateLoop limits mode n fuel (n - rest.length) rest).map fun r =>
            (units ++ r.1, r.2 + 1)

/-- `GeneratePackets(limits, packetization_mode)`. -/
def generatePackets (limits : PayloadSizeLimits) (mode : PacketizationMode)
    (fragments : List Bytes) :
    Except Stop (List PacketUnit × Nat) :=
  generateLoop limits mode fragments.length fragments.length 0 fragments

/-- `Packetize(payload, limits, packetization_mode)`, for the NAL units of the payload: the
queue is empty when there is no plan. -/
def packetize (limits : PayloadSizeLimits) (mode : PacketizationMode) (fragments : List Bytes) :
    List PacketUnit :=
  match generatePackets limits mode fragments with
  | .ok (units, _) => units
  | .error _ => []

/-! ## The payloads -/

/-- `NextFuAPacket(rtp_packet)`: what is written. -/
def fuAPayload (unit : PacketUnit) : Bytes :=
  let fuIndicator := (unit.header &&& ~~~kTypeMask &&& (kFBit ||| kNriMask)) ||| kFuA
  let fuHeader := (if unit.firstFragment then kSBit else 0) |||
    (if unit.lastFragment then kEBit else 0) |||
    (unit.header &&& kTypeMask)
  fuIndicator :: fuHeader :: unit.fragmentData

/-- A length field and the NAL unit. -/
def aggregationUnit (fragment : Bytes) : Bytes :=
  writeBigEndian kLengthFieldSize fragment.length ++ fragment

/-- The loop of `NextStapAPacket`: the aggregation units, and the queue behind them. -/
def aggregationUnits : List PacketUnit → Option (Bytes × List PacketUnit)
  | [] => none
  | unit :: units =>
    if unit.aggregated = false then none
    else if unit.lastFragment then some (aggregationUnit unit.fragmentData, units)
    else (aggregationUnits units).map fun r => (aggregationUnit unit.fragmentData ++ r.1, r.2)

/-- The first byte of a STAP-A packet. -/
def stapAHeader (header : UInt8) : UInt8 :=
  (header &&& ~~~kTypeMask &&& (kRBit ||| kNriMask)) ||| kStapA

/-- `AllocatePayload(size)`, for a packet with `freeCapacity` bytes left. -/
def allocate (freeCapacity : Nat) (payload : Bytes) : Option Bytes :=
  if payload.length ≤ freeCapacity then some payload else none

/-- `NextPacket(rtp_packet)`, for a queue that is not empty: the payload and the queue behind. -/
def nextPacket (freeCapacity : Nat) (unit : PacketUnit) (units : List PacketUnit) :
    Option (Bytes × List PacketUnit) :=
  if unit.firstFragment ∧ unit.lastFragment then
    (allocate freeCapacity unit.fragmentData).map fun payload => (payload, units)
  else if unit.aggregated then do
    let (payload, units) ← aggregationUnits (unit :: units)
    let payload ← allocate freeCapacity (stapAHeader unit.header :: payload)
    return (payload, units)
  else (allocate freeCapacity (fuAPayload unit)).map fun payload => (payload, units)

/-- The payloads until `NextPacket` returns `false`, for at most `fuel` calls; call `k` gets a
packet with `freeCapacity k` bytes left. -/
def nextPackets (freeCapacity : Nat → Nat) : Nat → Nat → List PacketUnit → Option (List Bytes)
  | _, _, [] => some []
  | 0, _, _ :: _ => none
  | fuel + 1, k, unit :: units => do
    let (payload, units) ← nextPacket (freeCapacity k) unit units
    let payloads ← nextPackets freeCapacity fuel (k + 1) units
    return payload :: payloads

/-- The payloads of all packets. -/
def payloads (freeCapacity : Nat → Nat) (units : List PacketUnit) : Option (List Bytes) :=
  nextPackets freeCapacity units.length 0 units

end RtpH264Packetizer

end NaiveRtc.Rtp
