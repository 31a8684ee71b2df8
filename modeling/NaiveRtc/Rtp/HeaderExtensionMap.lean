import Mathlib.Logic.Function.Basic

/-!
# RTP header extensions

The types of header extensions and the map from types to identifiers:
`rtc/rtp_rtcp/base/rtp_extensions.hpp` and
`rtc/rtp_rtcp/rtp/packets/rtp_header_extension_map.{hpp,cpp}`.
-/

namespace NaiveRtc.Rtp

/-- `RtpExtensionType`. -/
inductive RtpExtensionType
  | none
  | transmissionTimeOffset
  | absoluteSendTime
  | absoluteCaptureTime
  | transportSequenceNumber
  | transportSequenceNumber02
  | playoutDelay
  | rtpStreamId
  | repairedRtpStreamId
  | mid
  deriving DecidableEq

/-- The types in order, from the one after `kRtpExtensionNone` on. -/
def RtpExtensionType.all : List RtpExtensionType :=
  [transmissionTimeOffset, absoluteSendTime, absoluteCaptureTime, transportSequenceNumber,
    transportSequenceNumber02, playoutDelay, rtpStreamId, repairedRtpStreamId, mid]

namespace RtpExtension

/-- No extension has this identifier. -/
def kInvalidId : Nat := 0

/-- The smallest identifier -/
def kMinId : Nat := 1

/-- and the largest one. -/
def kMaxId : Nat := 255

/-- The longest value. -/
def kMaxValueSize : Nat := 255

/-- The largest identifier with a one byte header; -/
def kOneByteHeaderExtensionMaxId : Nat := 14

/-- this one ends the extensions. -/
def kOneByteHeaderExtensionReservedId : Nat := 15

/-- The longest value behind a one byte header. -/
def kOneByteHeaderExtensionMaxValueSize : Nat := 16

end RtpExtension

/-- `rtp::HeaderExtensionMap`; an identifier of zero stands for a type that is not registered. -/
structure HeaderExtensionMap where
  extensionIds : RtpExtensionType → UInt8 := fun _ => 0
  extmapAllowMixed : Bool := false

/-- `GetId(type)`. -/
def HeaderExtensionMap.getId (map : HeaderExtensionMap) : RtpExtensionType → Nat
  | .none => RtpExtension.kInvalidId
  | type => (map.extensionIds type).toNat

theorem HeaderExtensionMap.getId_le (map : HeaderExtensionMap) (type : RtpExtensionType) :
    map.getId type ≤ RtpExtension.kMaxId := by
  have hlt := (map.extensionIds type).toNat_lt
  unfold HeaderExtensionMap.getId
  unfold RtpExtension.kMaxId
  split
  · exact Nat.zero_le _
  · omega

/-! ## Sizes -/

/-- `rtp::ExtensionSize`. -/
structure ExtensionSize where
  type : RtpExtensionType
  size : Nat
  deriving DecidableEq

/-- `kExtensionBlockHeaderSize` of `CalculateSize`. -/
def kExtensionBlockHeaderSize : Nat := 4

/-- The loop of `CalculateSize`: `extension_size`, `num_extensions` and
`each_extension_header_size`. -/
def HeaderExtensionMap.addSizes (map : HeaderExtensionMap) (extensionSize numExtensions
    eachExtensionHeaderSize : Nat) : List ExtensionSize → Nat × Nat × Nat
  | [] => (extensionSize, numExtensions, eachExtensionHeaderSize)
  | extension :: extensions =>
    let id := map.getId extension.type
    if id ≠ RtpExtension.kInvalidId then
      map.addSizes extensionSize numExtensions eachExtensionHeaderSize extensions
    else
      map.addSizes (extensionSize + extension.size) (numExtensions + 1)
        (if RtpExtension.kOneByteHeaderExtensionMaxId < id ∨
            RtpExtension.kOneByteHeaderExtensionMaxValueSize < extension.size then 2
          else eachExtensionHeaderSize) extensions

/-- `CalculateSize(extensions)`. -/
def HeaderExtensionMap.calculateSize (map : HeaderExtensionMap) (extensions : List ExtensionSize) :
    Nat :=
  let r := map.addSizes 0 0 1 extensions
  if r.1 = 0 then 0
  else
    let size := kExtensionBlockHeaderSize + r.2.2 * r.2.1 + r.1
    size + 3 - (size + 3) % 4

end NaiveRtc.Rtp
