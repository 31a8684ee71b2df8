import NaiveRtc.Base.ByteIo
import NaiveRtc.Components.WrapAround
import Mathlib.Data.List.TakeWhile

/-!
# The values of the header extensions

The model of `rtc/rtp_rtcp/rtp/packets/rtp_header_extensions.cpp`: how the value of each header
extension is written into its place in a packet, and parsed from there into an object that may
hold another value already.

* `ValueCodec`, `RoundTrips` — a class with `ValueSize`, `Write` and `Parse`, and what is asked of
  it for a value and a destination.
* `roundTrips_iff_parse` — a class that writes the same bytes wherever it writes.
* `written_read_iff` — the values and destinations for which they work.
-/

namespace NaiveRtc.Rtp

open ByteIo

/-! ## What is asked of a class -/

/-- A class of header extensions.  `write` is given the bytes of its place and gives those after;
`parse` is given the bytes and what the destination holds.  `none` is `false`. -/
structure ValueCodec (Value : Type) where
  valueSize : Value → Nat
  write : List UInt8 → Value → Option (List UInt8)
  parse : List UInt8 → Value → Option Value

namespace ValueCodec

variable {Value : Type} (c : ValueCodec Value) (read : Value) (value dest : Value)

/-- What was written over `data` has the size of the value and nothing of the bytes before, and is
parsed as `read`. -/
structure Restores (data written : List UInt8) : Prop where
  place : data.length = c.valueSize value
  size : written.length = c.valueSize value
  fresh : ∀ old, old.length = data.length → c.write old value = some written
  parsed : c.parse written dest = some read

/-- Whenever the value is written it is restored. -/
def RoundTrips : Prop :=
  ∀ data written, c.write data value = some written → c.Restores read value dest data written

variable {c read value dest}

theorem roundTrips_of_refused (h : ∀ data, c.write data value = none) :
    c.RoundTrips read value dest := by
  intro data written hwrite
  rw [h] at hwrite
  cases hwrite

theorem roundTrips_iff_parse {bytes : List UInt8} (hlen : bytes.length = c.valueSize value)
    (hwrite : ∀ data, c.write data value =
      if data.length ≠ c.valueSize value then none else some bytes) :
    c.RoundTrips read value dest ↔ c.parse bytes dest = some read := by
  constructor
  · intro h
    have hself : c.write bytes value = some bytes := by
      rw [hwrite, if_neg (not_not.2 hlen)]
    exact (h bytes bytes hself).parsed
  · intro hparse data written hdata
    rw [hwrite] at hdata
    split_ifs at hdata with hplace
    obtain rfl := Option.some.inj hdata
    refine ⟨not_not.1 hplace, hlen, fun old hold => ?_, hparse⟩
    rw [hwrite, hold, if_neg hplace]

end ValueCodec

theorem ofNat_readBigEndian {w B : Nat} (value : BitVec w) (rest : List UInt8)
    (hfits : value.toNat < 2 ^ (8 * B)) :
    BitVec.ofNat w (readBigEndian B (writeBigEndian B value.toNat ++ rest)) = value := by
  rw [readBigEndian_write, Nat.mod_eq_of_lt hfits, BitVec.ofNat_toNat, BitVec.setWidth_eq]

theorem bmod_eq_iff_signed24 (value : Int) :
    value.bmod (2 ^ (8 * 3)) = value ↔ -2 ^ 23 ≤ value ∧ value < 2 ^ 23 := by
  constructor
  · intro h
    have hlow : -(2 ^ 24 : Int) / 2 ≤ value.bmod (2 ^ 24) := Int.le_bmod (by decide)
    have hhigh : value.bmod (2 ^ 24) < (2 ^ 24 + 1) / 2 := Int.bmod_lt (by decide)
    change value.bmod (2 ^ 24) = value at h
    omega
  · rintro ⟨hlow, hhigh⟩
    rw [Int.bmod_eq_of_le]
    · omega
    · omega

/-! ## The classes -/

namespace AbsoluteSendTime

/-- The bytes of a value. -/
def kValueSizeBytes : Nat := 3

/-- `Parse(data, time_24bits)`. -/
def parse (data : List UInt8) (_ : U32) : Option U32 :=
  if data.length ≠ kValueSizeBytes then none
  else some (BitVec.ofNat 32 (readBigEndian 3 data))

/-- `Write(data, time_24bits)`. -/
def write (data : List UInt8) (time24bits : U32) : Option (List UInt8) :=
  if data.length ≠ kValueSizeBytes then none
  else if 0x00FFFFFF < time24bits.toNat then none
  else some (writeBigEndian 3 time24bits.toNat)

/-- The class as a codec. -/
def codec : ValueCodec U32 := ⟨fun _ => kValueSizeBytes, write, parse⟩

theorem roundTrips (value dest : U32) : codec.RoundTrips value value dest := by
  by_cases hwide : 0x00FFFFFF < value.toNat
  · refine ValueCodec.roundTrips_of_refused fun data => ?_
    show write data value = none
    rw [write, if_pos hwide, ite_self]
  · refine (ValueCodec.roundTrips_iff_parse (length_writeBigEndian 3 value.toNat) ?_).2 ?_
    · intro data
      show write data value = _
      rw [write, if_neg hwide]
      rfl
    · show parse (writeBigEndian 3 value.toNat) dest = some value
      have hread := @ofNat_readBigEndian 32 3 value [] (by omega)
      rw [List.append_nil] at hread
      rw [parse, if_neg (by simp [kValueSizeBytes]), hread]

end AbsoluteSendTime

namespace AbsoluteCaptureTime

/-- `TimeInfo`. -/
structure TimeInfo where
  absoluteCaptureTimestamp : BitVec 64
  estimatedCaptureClockOffset : Option (BitVec 64)
  deriving DecidableEq

/-- The bytes of a value. -/
def kValueSizeBytes : Nat := 16

/-- The bytes of a value without the offset. -/
def kValueSizeBytesWithoutEstimatedCaptureClockOffset : Nat := 8

/-- `ValueSize(time_info)`. -/
def valueSize (timeInfo : TimeInfo) : Nat :=
  if timeInfo.estimatedCaptureClockOffset.isSome then kValueSizeBytes
  else kValueSizeBytesWithoutEstimatedCaptureClockOffset

/-- `Parse(data, time_info)`.  Without an offset in the packet the one of the destination stays. -/
def parse (data : List UInt8) (timeInfo : TimeInfo) : Option TimeInfo :=
  if data.length ≠ kValueSizeBytes ∧
      data.length ≠ kValueSizeBytesWithoutEstimatedCaptureClockOffset then none
  else
    let timeInfo := { timeInfo with
      absoluteCaptureTimestamp := BitVec.ofNat 64 (readBigEndian 8 data) }
    if data.length ≠ kValueSizeBytesWithoutEstimatedCaptureClockOffset then
      some { timeInfo with
        estimatedCaptureClockOffset := some (BitVec.ofNat 64 (readBigEndian 8 (data.drop 8))) }
    else some timeInfo

/-- `Write(data, time_info)`. -/
def write (data : List UInt8) (timeInfo : TimeInfo) : Option (List UInt8) :=
  if data.length ≠ valueSize timeInfo then none
  else
    some (writeBigEndian 8 timeInfo.absoluteCaptureTimestamp.toNat ++
      if data.length ≠ kValueSizeBytesWithoutEstimatedCaptureClockOffset then
        writeBigEndian 8 (timeInfo.estimatedCaptureClockOffset.getD 0).toNat
      else [])

/-- The class as a codec. -/
def codec : ValueCodec TimeInfo := ⟨valueSize, write, parse⟩

/-- What is written into a place of the right size. -/
def image (timeInfo : TimeInfo) : List UInt8 :=
  writeBigEndian 8 timeInfo.absoluteCaptureTimestamp.toNat ++
    (timeInfo.estimatedCaptureClockOffset.map fun offset => writeBigEndian 8 offset.toNat).getD []

theorem length_image (value : TimeInfo) : (image value).length = valueSize value := by
  obtain ⟨timestamp, _ | offset⟩ := value
  · simp [image, valueSize, kValueSizeBytesWithoutEstimatedCaptureClockOffset]
  · simp [image, valueSize, kValueSizeBytes]

theorem write_eq (data : List UInt8) (value : TimeInfo) :
    write data value = if data.length ≠ valueSize value then none else some (image value) := by
  unfold write
  by_cases hsize : data.length = valueSize value
  · rw [if_neg (not_not.2 hsize), if_neg (not_not.2 hsize), hsize]
    obtain ⟨timestamp, _ | offset⟩ := value <;> rfl
  · rw [if_pos hsize, if_pos hsize]

theorem parse_image (value dest : TimeInfo) :
    parse (image value) dest = some { value with
      estimatedCaptureClockOffset :=
        value.estimatedCaptureClockOffset.or dest.estimatedCaptureClockOffset } := by
  unfold parse
  rw [length_image]
  obtain ⟨timestamp, _ | offset⟩ := value
  · have hread := @ofNat_readBigEndian 64 8 timestamp [] timestamp.isLt
    show some _ = some _
    unfold image
    rw [Option.map_none, Option.getD_none, hread]
    rfl
  · have hread := @ofNat_readBigEndian 64 8 timestamp (writeBigEndian 8 offset.toNat) timestamp.isLt
    have hoffset := @ofNat_readBigEndian 64 8 offset [] offset.isLt
    rw [List.append_nil] at hoffset
    show some _ = some _
    unfold image
    rw [Option.map_some, Option.getD_some, hread, List.drop_left' (length_writeBigEndian 8 _),
      hoffset]
    rfl

theorem value_roundTrips_iff (value dest : TimeInfo) : codec.RoundTrips value value dest ↔
    (value.estimatedCaptureClockOffset = none → dest.estimatedCaptureClockOffset = none) := by
  rw [ValueCodec.roundTrips_iff_parse (length_image value) fun data => write_eq data value]
  show parse (image value) dest = some value ↔ _
  rw [parse_image]
  obtain ⟨timestamp, _ | offset⟩ := value <;> simp

end AbsoluteCaptureTime

namespace TransmissionTimeOffset

/-- The bytes of a value. -/
def kValueSizeBytes : Nat := 3

/-- `Parse(data, rtp_time_24bits)`. -/
def parse (data : List UInt8) (_ : Int) : Option Int :=
  if data.length ≠ kValueSizeBytes then none else some (readSigned 3 data)

/-- `Write(data, rtp_time_24bits)`.  The check is that of an unsigned field. -/
def write (data : List UInt8) (rtpTime24bits : Int) : Option (List UInt8) :=
  if data.length ≠ kValueSizeBytes then none
  else if 0x00ffffff < rtpTime24bits then none
  else some (writeSigned 3 rtpTime24bits)

/-- The class as a codec. -/
def codec : ValueCodec Int := ⟨fun _ => kValueSizeBytes, write, parse⟩

theorem value_roundTrips_iff (value dest : Int) : codec.RoundTrips value value dest ↔
    -2 ^ 23 ≤ value ∧ (value < 2 ^ 23 ∨ 0x00ffffff < value) := by
  by_cases hwide : 0x00ffffff < value
  · refine iff_of_true (ValueCodec.roundTrips_of_refused fun data => ?_) (by omega)
    show write data value = none
    rw [write, if_pos hwide, ite_self]
  · have hread := readSigned_write 3 value []
    rw [List.append_nil] at hread
    have hwrite (data : List UInt8) : codec.write data value =
        if data.length ≠ codec.valueSize value then none else some (writeSigned 3 value) := by
      show write data value = _
      rw [write, if_neg hwide]
      rfl
    rw [ValueCodec.roundTrips_iff_parse (length_writeSigned 3 value) hwrite]
    show parse (writeSigned 3 value) dest = some value ↔ _
    rw [parse, if_neg (by simp [kValueSizeBytes]), hread, Option.some_inj,
      bmod_eq_iff_signed24]
    omega

end TransmissionTimeOffset

namespace TransportSequenceNumber

/-- The bytes of a value. -/
def kValueSizeBytes : Nat := 2

/-- `Parse(data, transport_sequence_number)`. -/
def parse (data : List UInt8) (_ : U16) : Option U16 :=
  if data.length ≠ kValueSizeBytes then none
  else some (BitVec.ofNat 16 (readBigEndian 2 data))

/-- `Write(data, transport_sequence_number)`. -/
def write (data : List UInt8) (transportSequenceNumber : U16) : Option (List UInt8) :=
  if data.length ≠ kValueSizeBytes then none
  else some (writeBigEndian 2 transportSequenceNumber.toNat)

/-- The class as a codec. -/
def codec : ValueCodec U16 := ⟨fun _ => kValueSizeBytes, write, parse⟩

theorem roundTrips (value dest : U16) : codec.RoundTrips value value dest := by
  refine (ValueCodec.roundTrips_iff_parse (length_writeBigEndian 2 value.toNat)
    fun data => rfl).2 ?_
  show parse (writeBigEndian 2 value.toNat) dest = some value
  have hread := @ofNat_readBigEndian 16 2 value [] value.isLt
  rw [List.append_nil] at hread
  rw [parse, if_neg (by simp [kValueSizeBytes]), hread]

end TransportSequenceNumber

namespace TransportSequenceNumberV2

/-- `FeedbackRequest`. -/
structure FeedbackRequest where
  includeTimestamps : Bool
  sequenceCount : Int
  deriving DecidableEq

/-- The bytes of a value. -/
def kValueSizeBytes : Nat := 4

/-- The bytes of a value without the request. -/
def kValueSizeBytesWithoutFeedbackRequest : Nat := 2

/-- The bit of a request that asks for timestamps. -/
def kIncludeTimestampsBit : U16 := 1 <<< 15

/-- `ValueSize(transport_sequence_number, feedback_request)`. -/
def valueSize (_ : U16) (feedbackRequest : Option FeedbackRequest) : Nat :=
  if feedbackRequest.isSome then kValueSizeBytes else kValueSizeBytesWithoutFeedbackRequest

/-- `Parse(data, transport_sequence_number, feedback_request)`. -/
def parse (data : List UInt8) (_ : U16 × Option FeedbackRequest) :
    Option (U16 × Option FeedbackRequest) :=
  if data.length ≠ kValueSizeBytes ∧ data.length ≠ kValueSizeBytesWithoutFeedbackRequest then none
  else
    let transportSequenceNumber : U16 := BitVec.ofNat 16 (readBigEndian 2 data)
    let feedbackRequest :=
      if data.length = kValueSizeBytes then
        let feedbackRequestRaw : U16 := BitVec.ofNat 16 (readBigEndian 2 (data.drop 2))
        let includeTimestamps := feedbackRequestRaw &&& kIncludeTimestampsBit ≠ 0
        let sequenceCount := feedbackRequestRaw &&& ~~~kIncludeTimestampsBit
        -- no feedback is requested without packets
        if sequenceCount ≠ 0 then some ⟨includeTimestamps, sequenceCount.toNat⟩ else none
      else none
    some (transportSequenceNumber, feedbackRequest)

/-- `feedback_request_raw`. -/
def feedbackRequestRaw (request : FeedbackRequest) : U16 :=
  BitVec.ofInt 16 request.sequenceCount |||
    if request.includeTimestamps then kIncludeTimestampsBit else 0

/-- `Write(data, transport_sequence_number, feedback_request)`.  A count that the assertions rule
out is not written. -/
def write (data : List UInt8) (value : U16 × Option FeedbackRequest) : Option (List UInt8) :=
  if data.length ≠ valueSize value.1 value.2 then none
  else
    match value.2 with
    | none => some (writeBigEndian 2 value.1.toNat)
    | some request =>
      if 0 ≤ request.sequenceCount ∧ request.sequenceCount < kIncludeTimestampsBit.toNat then
        some (writeBigEndian 2 value.1.toNat ++
          writeBigEndian 2 (feedbackRequestRaw request).toNat)
      else none

/-- The class as a codec. -/
def codec : ValueCodec (U16 × Option FeedbackRequest) :=
  ⟨fun value => valueSize value.1 value.2, write, parse⟩

theorem feedbackRequestRaw_fields (includeTimestamps : Bool) {count : Nat} (hlt : count < 2 ^ 15) :
    decide (feedbackRequestRaw ⟨includeTimestamps, count⟩ &&& kIncludeTimestampsBit ≠ 0) =
        includeTimestamps ∧
      (feedbackRequestRaw ⟨includeTimestamps, count⟩ &&& ~~~kIncludeTimestampsBit).toNat =
        count := by
  have hcount : (BitVec.ofInt 16 (count : Int)).toNat = count := by
    rw [BitVec.ofInt_natCast, BitVec.toNat_ofNat]
    omega
  have hbit : kIncludeTimestampsBit.toNat = 2 ^ 15 := by decide
  have hmask : (~~~kIncludeTimestampsBit).toNat = 2 ^ 15 - 1 := by decide
  have hraw : (feedbackRequestRaw ⟨includeTimestamps, count⟩).toNat =
      2 ^ 15 * includeTimestamps.toNat + count := by
    unfold feedbackRequestRaw
    rw [BitVec.toNat_or, hcount, Nat.or_comm]
    cases includeTimestamps with
    | false =>
      rw [if_neg Bool.false_ne_true]
      simp
    | true =>
      rw [if_pos rfl, hbit]
      exact (Nat.two_pow_add_eq_or_of_lt hlt 1).symm
  constructor
  · rw [Bool.eq_iff_iff, decide_eq_true_iff, ne_eq, ← BitVec.toNat_inj, BitVec.toNat_and, hraw,
      hbit, Nat.and_two_pow]
    have hset : (2 ^ 15 * includeTimestamps.toNat + count).testBit 15 = includeTimestamps := by
      cases includeTimestamps with
      | false => simpa using Nat.testBit_lt_two_pow hlt
      | true =>
        rw [Bool.toNat_true, Nat.mul_one, Nat.testBit_two_pow_add_eq, Nat.testBit_lt_two_pow hlt]
        rfl
    rw [hset]
    cases includeTimestamps <;> simp
  · rw [BitVec.toNat_and, hraw, hmask, Nat.and_two_pow_sub_one_eq_mod, Nat.mul_add_mod,
      Nat.mod_eq_of_lt hlt]

theorem roundTrips (value dest : U16 × Option FeedbackRequest)
    (hcount : ∀ request, value.2 = some request → 0 < request.sequenceCount) :
    codec.RoundTrips value value dest := by
  obtain ⟨number, _ | request⟩ := value
  · refine (ValueCodec.roundTrips_iff_parse (length_writeBigEndian 2 number.toNat)
      fun data => rfl).2 ?_
    show parse (writeBigEndian 2 number.toNat) dest = some (number, none)
    have hread := @ofNat_readBigEndian 16 2 number [] number.isLt
    rw [List.append_nil] at hread
    unfold parse
    rw [length_writeBigEndian, hread]
    rfl
  · by_cases hvalid : 0 ≤ request.sequenceCount ∧
        request.sequenceCount < kIncludeTimestampsBit.toNat
    · have hlen : (writeBigEndian 2 number.toNat ++
          writeBigEndian 2 (feedbackRequestRaw request).toNat).length = 4 := by simp
      refine (ValueCodec.roundTrips_iff_parse hlen fun data => ?_).2 ?_
      · show (if data.length ≠ 4 then none else _) = _
        rw [if_pos hvalid]
        rfl
      · obtain ⟨includeTimestamps, sequenceCount⟩ := request
        obtain ⟨count, rfl⟩ := Int.eq_ofNat_of_zero_le hvalid.1
        have hpos : 0 < count := Int.natCast_pos.1 (hcount _ rfl)
        have hlt : count < 2 ^ 15 := Int.ofNat_lt.1 hvalid.2
        obtain ⟨hflag, hfield⟩ := feedbackRequestRaw_fields includeTimestamps hlt
        have hnumber := @ofNat_readBigEndian 16 2 number
          (writeBigEndian 2 (feedbackRequestRaw ⟨includeTimestamps, count⟩).toNat) number.isLt
        have hrequest := @ofNat_readBigEndian 16 2
          (feedbackRequestRaw ⟨includeTimestamps, count⟩) [] (BitVec.isLt _)
        rw [List.append_nil] at hrequest
        have hne :
            feedbackRequestRaw ⟨includeTimestamps, count⟩ &&& ~~~kIncludeTimestampsBit ≠ 0 := by
          rw [ne_eq, ← BitVec.toNat_inj, hfield]
          exact hpos.ne'
        show parse (writeBigEndian 2 number.toNat ++ writeBigEndian 2
          (feedbackRequestRaw ⟨includeTimestamps, count⟩).toNat) dest = _
        unfold parse
        rw [hlen, hnumber, List.drop_left' (length_writeBigEndian 2 _), hrequest]
        dsimp only
        rw [if_neg (by decide), if_pos (show 4 = kValueSizeBytes from rfl), if_pos hne, hflag,
          hfield]
    · refine ValueCodec.roundTrips_of_refused fun data => ?_
      show (if data.length ≠ 4 then none else _) = none
      rw [if_neg hvalid, ite_self]

end TransportSequenceNumberV2

namespace PlayoutDelayLimits

/-- `video::PlayoutDelay`. -/
structure PlayoutDelay where
  minMs : Int
  maxMs : Int
  deriving DecidableEq

/-- The bytes of a value. -/
def kValueSizeBytes : Nat := 3

/-- The unit of a delay -/
def kGranularityMs : Int := 10

/-- and the largest one. -/
def kMaxMs : Int := 0xfff * kGranularityMs

/-- `Parse(data, playout_delay)`. -/
def parse (data : List UInt8) (_ : PlayoutDelay) : Option PlayoutDelay :=
  if data.length ≠ kValueSizeBytes then none
  else
    let raw := readBigEndian 3 data
    let minRaw := (raw >>> 12) % 2 ^ 16
    let maxRaw := raw &&& 0xfff
    if maxRaw < minRaw then none
    else some ⟨minRaw * kGranularityMs, maxRaw * kGranularityMs⟩

/-- `Write(data, playout_delay)`. -/
def write (data : List UInt8) (playoutDelay : PlayoutDelay) : Option (List UInt8) :=
  if data.length ≠ kValueSizeBytes then none
  else if 0 > playoutDelay.minMs then none
  else if playoutDelay.minMs > playoutDelay.maxMs then none
  else if playoutDelay.maxMs > kMaxMs then none
  else
    let minDelay := (playoutDelay.minMs.tdiv kGranularityMs).toNat
    let maxDelay := (playoutDelay.maxMs.tdiv kGranularityMs).toNat
    some (writeBigEndian 3 (minDelay <<< 12 ||| maxDelay))

/-- The class as a codec. -/
def codec : ValueCodec PlayoutDelay := ⟨fun _ => kValueSizeBytes, write, parse⟩

/-- The delays rounded down to the granularity. -/
def rounded (value : PlayoutDelay) : PlayoutDelay :=
  ⟨value.minMs / kGranularityMs * kGranularityMs, value.maxMs / kGranularityMs * kGranularityMs⟩

theorem roundTrips (value dest : PlayoutDelay) : codec.RoundTrips (rounded value) value dest := by
  by_cases hvalid : 0 ≤ value.minMs ∧ value.minMs ≤ value.maxMs ∧ value.maxMs ≤ kMaxMs
  · obtain ⟨hmin, hordered, hbound⟩ := hvalid
    obtain ⟨minMs, maxMs⟩ := value
    obtain ⟨low, rfl⟩ := Int.eq_ofNat_of_zero_le hmin
    obtain ⟨high, rfl⟩ := Int.eq_ofNat_of_zero_le (Int.le_trans hmin hordered)
    have hle : low ≤ high := Int.ofNat_le.1 hordered
    have hmax : high ≤ 40950 := Int.ofNat_le.1 hbound
    have hraw : (low / 10) <<< 12 ||| high / 10 = 4096 * (low / 10) + high / 10 := by
      rw [← Nat.shiftLeft_add_eq_or_of_lt (by omega), Nat.shiftLeft_eq]
      omega
    refine (ValueCodec.roundTrips_iff_parse
      (length_writeBigEndian 3 ((low / 10) <<< 12 ||| high / 10)) fun data => ?_).2 ?_
    · show write data ⟨low, high⟩ = _
      unfold write
      rw [if_neg (Int.not_lt.2 hmin), if_neg (Int.not_lt.2 hordered), if_neg (Int.not_lt.2 hbound)]
      rfl
    · show parse (writeBigEndian 3 ((low / 10) <<< 12 ||| high / 10)) dest = _
      have hread := readBigEndian_write 3 ((low / 10) <<< 12 ||| high / 10) []
      rw [List.append_nil, hraw, Nat.mod_eq_of_lt (by omega)] at hread
      have hlow : (4096 * (low / 10) + high / 10) >>> 12 % 2 ^ 16 = low / 10 := by
        rw [Nat.shiftRight_eq_div_pow]
        omega
      have hhigh : (4096 * (low / 10) + high / 10) &&& 0xfff = high / 10 := by
        rw [show 0xfff = 2 ^ 12 - 1 by rfl, Nat.and_two_pow_sub_one_eq_mod]
        omega
      unfold parse
      rw [if_neg (by simp [kValueSizeBytes]), hraw, hread]
      dsimp only
      rw [hlow, hhigh, if_neg (by omega)]
      rfl
  · refine ValueCodec.roundTrips_of_refused fun data => ?_
    show write data value = none
    unfold write
    split_ifs
    · rfl
    · rfl
    · rfl
    · rfl
    · exact absurd ⟨by omega, by omega, by omega⟩ hvalid

end PlayoutDelayLimits

namespace BaseRtpString

/-- The longest value. -/
def kMaxValueSizeBytes : Nat := 16

/-- `Parse(data, value)`; the string ends before its first zero byte (`strnlen`). -/
def parse (data _ : List UInt8) : Option (List UInt8) :=
  if data.length = 0 ∨ data.headD 0 = 0 then none
  else
    let value := data.takeWhile (· ≠ 0)
    if value.isEmpty then none else some value

/-- `Write(data, value)`. -/
def write (data value : List UInt8) : Option (List UInt8) :=
  if kMaxValueSizeBytes < value.length then none
  else if value.isEmpty ∨ data.length ≠ value.length then none
  else some value

/-- The class as a codec. -/
def codec : ValueCodec (List UInt8) := ⟨List.length, write, parse⟩

theorem roundTrips (value dest : List UInt8) (hnul : 0 ∉ value) :
    codec.RoundTrips value value dest := by
  by_cases hrefused : kMaxValueSizeBytes < value.length ∨ value.isEmpty = true
  · refine ValueCodec.roundTrips_of_refused fun data => ?_
    show write data value = none
    unfold write
    rcases hrefused with hlong | hempty
    · rw [if_pos hlong]
    · rw [if_pos (Or.inl hempty), ite_self]
  · obtain ⟨hlong, hempty⟩ := not_or.1 hrefused
    refine (ValueCodec.roundTrips_iff_parse rfl fun data => ?_).2 ?_
    · show write data value = if data.length ≠ value.length then none else some value
      rw [write, if_neg hlong]
      exact if_congr (or_iff_right hempty) rfl rfl
    · show parse value dest = some value
      have hwhole : value.takeWhile (· ≠ 0) = value :=
        List.takeWhile_eq_self_iff.2 fun byte hmem =>
          decide_eq_true fun heq => hnul (heq ▸ hmem)
      have hhead : ¬ (value.length = 0 ∨ value.headD 0 = 0) := by
        cases value with
        | nil => exact absurd rfl hempty
        | cons byte value =>
          have hne : byte ≠ 0 := fun heq => hnul (heq ▸ List.mem_cons_self)
          simpa using hne
      unfold parse
      rw [if_neg hhead]
      dsimp only
      rw [hwhole, if_neg hempty]

end BaseRtpString

/-! ## All of them -/

/-- The classes of `rtp_header_extensions.hpp`. -/
inductive HeaderExtension
  | absoluteSendTime
  | absoluteCaptureTime
  | transmissionTimeOffset
  | transportSequenceNumber
  | transportSequenceNumberV2
  | playoutDelayLimits
  | rtpMid
  | rtpStreamId
  | repairedRtpStreamId
  deriving DecidableEq

namespace HeaderExtension

/-- `ValueType`, and the two values of the second version of transport sequence numbers. -/
abbrev Value : HeaderExtension → Type
  | absoluteSendTime => U32
  | absoluteCaptureTime => AbsoluteCaptureTime.TimeInfo
  | transmissionTimeOffset => Int
  | transportSequenceNumber => U16
  | transportSequenceNumberV2 => U16 × Option TransportSequenceNumberV2.FeedbackRequest
  | playoutDelayLimits => PlayoutDelayLimits.PlayoutDelay
  | rtpMid | rtpStreamId | repairedRtpStreamId => List UInt8

/-- The class. -/
def codec : (e : HeaderExtension) → ValueCodec e.Value
  | absoluteSendTime => AbsoluteSendTime.codec
  | absoluteCaptureTime => AbsoluteCaptureTime.codec
  | transmissionTimeOffset => TransmissionTimeOffset.codec
  | transportSequenceNumber => TransportSequenceNumber.codec
  | transportSequenceNumberV2 => TransportSequenceNumberV2.codec
  | playoutDelayLimits => PlayoutDelayLimits.codec
  | rtpMid | rtpStreamId | repairedRtpStreamId => BaseRtpString.codec

/-- What a value is read as: itself, but for the delays. -/
def readAs : (e : HeaderExtension) → e.Value → e.Value
  | playoutDelayLimits, value => PlayoutDelayLimits.rounded value
  | absoluteSendTime, value | absoluteCaptureTime, value | transmissionTimeOffset, value
  | transportSequenceNumber, value | transportSequenceNumberV2, value | rtpMid, value
  | rtpStreamId, value | repairedRtpStreamId, value => value

/-- The values that the wire can tell apart: strings without a zero byte, and requests that ask
for packets. -/
def Distinct : (e : HeaderExtension) → e.Value → Prop
  | transportSequenceNumberV2, value =>
    ∀ request, value.2 = some request → 0 < request.sequenceCount
  | rtpMid, value | rtpStreamId, value | repairedRtpStreamId, value => (0 : UInt8) ∉ value
  | absoluteSendTime, _ | absoluteCaptureTime, _ | transmissionTimeOffset, _
  | transportSequenceNumber, _ | playoutDelayLimits, _ => True

/-- A capture time without an offset goes into a destination without one, and a transmission time
offset is one of a signed field of 24 bits, or is refused. -/
def Exact : (e : HeaderExtension) → e.Value → e.Value → Prop
  | absoluteCaptureTime, value, dest =>
    value.estimatedCaptureClockOffset = none → dest.estimatedCaptureClockOffset = none
  | transmissionTimeOffset, value, _ => -2 ^ 23 ≤ value ∧ (value < 2 ^ 23 ∨ 0x00ffffff < value)
  | absoluteSendTime, _, _ | transportSequenceNumber, _, _ | transportSequenceNumberV2, _, _
  | playoutDelayLimits, _, _ | rtpMid, _, _ | rtpStreamId, _, _ | repairedRtpStreamId, _, _ => True

/-- **What is written is read.**  For every class, value and destination: a value that is written
fills its place with as many bytes as it has, none of them left from before, and is parsed from
there whatever the destination held, exactly unless it is a capture time without an offset that
goes into a destination with one, or a transmission time offset beyond the signed 24 bits of its
field that the check for 24 bits lets pass. -/
theorem written_read_iff (e : HeaderExtension) (value dest : e.Value)
    (hdistinct : e.Distinct value) :
    e.codec.RoundTrips (e.readAs value) value dest ↔ e.Exact value dest := by
  cases e with
  | absoluteSendTime => exact iff_of_true (AbsoluteSendTime.roundTrips value dest) trivial
  | absoluteCaptureTime => exact AbsoluteCaptureTime.value_roundTrips_iff value dest
  | transmissionTimeOffset => exact TransmissionTimeOffset.value_roundTrips_iff value dest
  | transportSequenceNumber =>
    exact iff_of_true (TransportSequenceNumber.roundTrips value dest) trivial
  | transportSequenceNumberV2 =>
    exact iff_of_true (TransportSequenceNumberV2.roundTrips value dest hdistinct) trivial
  | playoutDelayLimits => exact iff_of_true (PlayoutDelayLimits.roundTrips value dest) trivial
  | rtpMid => exact iff_of_true (BaseRtpString.roundTrips value dest hdistinct) trivial
  | rtpStreamId => exact iff_of_true (BaseRtpString.roundTrips value dest hdistinct) trivial
  | repairedRtpStreamId => exact iff_of_true (BaseRtpString.roundTrips value dest hdistinct) trivial

/-- A request for three packets, parsed over an older one. -/
theorem written_read_iff_request :
    transportSequenceNumberV2.codec.RoundTrips (65535, some ⟨true, 3⟩) (65535, some ⟨true, 3⟩)
      (0, some ⟨false, 9⟩) := by
  refine (written_read_iff transportSequenceNumberV2 (65535, some ⟨true, 3⟩)
    (0, some ⟨false, 9⟩) ?_).2 trivial
  rintro request ⟨⟩
  decide

/-- **The two that fail**: an offset of 2^23 ticks, and a capture time over one with an offset. -/
theorem not_roundTrips_offsets :
    ¬ transmissionTimeOffset.codec.RoundTrips (0x800000 : Int) (0x800000 : Int) (0 : Int) ∧
      ¬ absoluteCaptureTime.codec.RoundTrips ⟨1, none⟩ ⟨1, none⟩ ⟨0, some 5⟩ := by
  refine ⟨fun h => ?_, fun h => ?_⟩
  · exact absurd ((TransmissionTimeOffset.value_roundTrips_iff 0x800000 0).1 h) (by decide)
  · exact absurd ((AbsoluteCaptureTime.value_roundTrips_iff ⟨1, none⟩ ⟨0, some 5⟩).1 h rfl)
      (by decide)

end HeaderExtension

end NaiveRtc.Rtp
