import NaiveRtc.Fec.FecEncoder

/-!
# The ULPFEC generator

The model of `rtc/rtp_rtcp/rtp/fec/ulp/fec_generator_ulp.{hpp,cpp}`.

* `FecProtectionParams`, `MediaPacket`, `RedPacket` — what goes in and what comes out.
* `UlpFecGenerator` — with `collect`, `triggers` and `encodeFec`, the parts of `pushMediaPacket`,
  and `popFecPackets`.
* `ulpFecGeneratorMachine` — the generator driven by calls.

The average of packets per frame is a `float` that is compared with 2; with at most 48 packets the
comparison is exact, and is one of integers here.
-/

namespace NaiveRtc.Fec

open Rtp (RtpPacket)

/-- The RED header in front of an FEC packet. -/
def kRedForFecHeaderLength : Nat := 1

/-- The excess overhead stays below this, in Q8. -/
def kMaxExcessOverhead : Nat := 50

/-- At high protection so many media packets are awaited. -/
def kMinMediaPackets : Nat := 4

/-- Protection is high above this rate. -/
def kHighProtectionThreshold : Nat := 80

/-- From so many packets a frame on, one more is awaited. -/
def kMinMediaPacketsAdaptationThreshold : Nat := 2

/-- `FecProtectionParams`. -/
structure FecProtectionParams where
  fecRate : Nat := 0
  maxFecFrames : Nat := 0
  fecMaskType : FecMaskType := .random
  deriving DecidableEq

/-- What the generator reads of an `RtpPacketToSend`. -/
structure MediaPacket extends RtpPacket where
  isKeyFrame : Bool := false

/-- An `RtpPacketToSend` that carries an FEC packet. -/
structure RedPacket extends RtpPacket where
  packetType : RtpPacketType
  allowRetransmission : Bool
  isRed : Bool
  fecProtectionNeed : Bool
  redProtectionNeed : Bool

/-- `UlpFecGenerator`. -/
structure UlpFecGenerator where
  redPayloadType : Int
  fecPayloadType : Int
  numProtectedFrames : Nat := 0
  minNumMediaPackets : Nat := 1
  containsKeyFrame : Bool := false
  fecEncoder : FecEncoder
  /-- The parameters of delta frames, and those of key frames. -/
  currentParams : FecProtectionParams × FecProtectionParams := ({}, {})
  pendingParams : Option (FecProtectionParams × FecProtectionParams) := none
  lastProtectedMediaPacket : Option MediaPacket := none
  mediaPackets : List RtpPacket := []
  generatedFecPackets : List FecPacket := []

namespace UlpFecGenerator

variable (g : UlpFecGenerator)

/-- `SetProtectionParameters(delta_params, key_params)`. -/
def setProtectionParameters (deltaParams keyParams : FecProtectionParams) : UlpFecGenerator :=
  { g with pendingParams := some (deltaParams, keyParams) }

/-- `CurrentParams()`. -/
def currParams : FecProtectionParams :=
  if g.containsKeyFrame then g.currentParams.2 else g.currentParams.1

/-- `Reset()`. -/
def reset : UlpFecGenerator :=
  { g with
    mediaPackets := []
    generatedFecPackets := []
    lastProtectedMediaPacket := none
    numProtectedFrames := 0
    minNumMediaPackets := 1
    containsKeyFrame := false }

/-! ## Pushing -/

/-- The actual rate of FEC, of `MaxExcessOverheadNotReached`; `CalcNumFecPackets` takes the target
as a `uint8_t`. -/
def actualFecRate (targetFecRate : Nat) : Nat :=
  calcNumFecPackets g.mediaPackets.length (targetFecRate % 2 ^ 8) * 2 ^ 8 / g.mediaPackets.length

/-- `MaxExcessOverheadNotReached(target_fec_rate)`: the difference is a `size_t`. -/
def maxExcessOverheadNotReached (targetFecRate : Nat) : Bool :=
  sizeT ((g.actualFecRate targetFecRate : Int) - targetFecRate) < kMaxExcessOverhead

/-- `MinimumMediaPacketsReached()`. -/
def minimumMediaPacketsReached : Bool :=
  let numMediaPackets := g.mediaPackets.length
  if numMediaPackets < kMinMediaPacketsAdaptationThreshold * g.numProtectedFrames then
    g.minNumMediaPackets ≤ numMediaPackets
  else g.minNumMediaPackets + 1 ≤ numMediaPackets

/-- The pending parameters become the current ones. -/
def takePendingParams : UlpFecGenerator :=
  match g.pendingParams with
  | some params => { g with currentParams := params, pendingParams := none }
  | none => g

/-- The beginning of `PushMediaPacket`, up to the count of the frames; the minimum is chosen before
a key frame is noticed. -/
def collect (mediaPacket : MediaPacket) : UlpFecGenerator :=
  let g := g.takePendingParams
  let hasRoom := decide (g.mediaPackets.length < kUlpFecMaxMediaPackets)
  { g with
    minNumMediaPackets :=
      if kHighProtectionThreshold < g.currParams.fecRate then kMinMediaPackets else 1
    containsKeyFrame := mediaPacket.isKeyFrame || g.containsKeyFrame
    mediaPackets :=
      if hasRoom then g.mediaPackets ++ [mediaPacket.toRtpPacket] else g.mediaPackets
    lastProtectedMediaPacket :=
      if hasRoom then some mediaPacket else g.lastProtectedMediaPacket
    numProtectedFrames :=
      if mediaPacket.marker then g.numProtectedFrames + 1 else g.numProtectedFrames }

/-- The condition of `PushMediaPacket` to encode. -/
def triggers (completeFrame : Bool) : Bool :=
  completeFrame &&
    (decide (g.currParams.maxFecFrames ≤ g.numProtectedFrames) ||
      (g.maxExcessOverheadNotReached g.currParams.fecRate && g.minimumMediaPacketsReached))

/-- The arguments of `Encode`. -/
def encodeParams : EncodeParams where
  protectionFactor := UInt8.ofNat g.currParams.fecRate
  numImportantPackets := 0
  useUnequalProtection := false
  fecMaskType := g.currParams.fecMaskType

/-- The end of `PushMediaPacket`: the media packets are encoded. -/
def encodeFec : UlpFecGenerator :=
  let r := g.fecEncoder.encode g.mediaPackets g.encodeParams g.generatedFecPackets
  let g := { g with fecEncoder := r.1, generatedFecPackets := r.2.1 }
  if r.2.2 then g else g.reset

/-- `PushMediaPacket(media_packet)`, and whether `Encode` was called. -/
def pushMediaPacket (mediaPacket : MediaPacket) : UlpFecGenerator × Bool :=
  let g := g.collect mediaPacket
  if g.triggers mediaPacket.marker then (g.encodeFec, true) else (g, false)

/-! ## Popping -/

section Growth

variable (growTo : Nat → Nat → Nat)

/-- The RED packet around an FEC packet, of `PopFecPackets`; `none` where an assertion fails: the
FEC packet does not fit behind the header, or `set_payload_size` returns null. -/
def wrapInRed (lastPacket : MediaPacket) (fecPacket : FecPacket) : Option RedPacket :=
  let redPacket := (((RtpPacket.create growTo {} lastPacket.capacity).copyHeaderFrom growTo
    lastPacket.toRtpPacket).setPayloadType (UInt8.ofInt g.redPayloadType)).setMarker false
  let payloadSize := kRedForFecHeaderLength + fecPacket.length
  if redPacket.payloadOffset + payloadSize < redPacket.capacity then
    let r := redPacket.setPayloadSize growTo payloadSize
    if r.2 then
      some {
        toRtpPacket := r.1.writePayload 0 ((UInt8.ofInt g.fecPayloadType &&& 0x7f) :: fecPacket)
        packetType := .fec
        allowRetransmission := false
        isRed := true
        fecProtectionNeed := false
        redProtectionNeed := false }
    else none
  else none

/-- `PopFecPackets()`; `none` where an assertion fails. -/
def popFecPackets : Option (UlpFecGenerator × List RedPacket) :=
  if g.generatedFecPackets.length = 0 then some (g, [])
  else
    match g.lastProtectedMediaPacket with
    | none => some (g, [])
    | some lastPacket =>
      (g.generatedFecPackets.mapM (g.wrapInRed growTo lastPacket)).map fun redPackets =>
        (g.reset, redPackets)

end Growth

/-- A generator with no packets in it. -/
def create (redPayloadType fecPayloadType : Int) (fecEncoder : FecEncoder) : UlpFecGenerator where
  redPayloadType := redPayloadType
  fecPayloadType := fecPayloadType
  fecEncoder := fecEncoder

end UlpFecGenerator

/-! ## Runs -/

/-- A call of the generator. -/
inductive UlpFecCall
  | setProtectionParameters (deltaParams keyParams : FecProtectionParams)
  | pushMediaPacket (mediaPacket : MediaPacket)
  | popFecPackets

/-- What a call did: whether it encoded, and the packets it returned. -/
structure UlpFecEvent where
  encoded : Bool := false
  popped : List RedPacket := []

/-- A generator driven by calls; a call that fails an assertion is not made. -/
def ulpFecGeneratorMachine (growTo : Nat → Nat → Nat) :
    Machine UlpFecGenerator UlpFecCall UlpFecEvent where
  step g
    | .setProtectionParameters deltaParams keyParams =>
      if deltaParams.fecRate ≤ 255 ∧ keyParams.fecRate ≤ 255 then
        (g.setProtectionParameters deltaParams keyParams, {})
      else (g, {})
    | .pushMediaPacket mediaPacket =>
      let r := g.pushMediaPacket mediaPacket
      (r.1, { encoded := r.2 })
    | .popFecPackets =>
      match g.popFecPackets growTo with
      | some (g, popped) => (g, { popped := popped })
      | none => (g, {})

end NaiveRtc.Fec
