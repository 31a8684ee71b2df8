import NaiveRtc.Rtcp.PackInto

/-!
# Feedback messages

The `PackInto` functions of `pli.cpp`, `fir.cpp`, `loss_notification.cpp`, `remb.cpp`,
`tmmbr.cpp` and `tmmbn.cpp` under `rtc/rtp_rtcp/rtcp/packets`: feedback that is written
whole.

* `packCommonFeedback`, `packCommonFeedbackInto` — the SSRCs every feedback starts with.
* `packetSize`, `packInto` — the functions of the source, for each packet.
* `bytes` — what a packet looks like on the wire.
* `Pli.packsAs` and its siblings — `packInto` writes `bytes`, and `packetSize` is their
  number; for the packets that can be refused for what they hold, when they are well formed.
-/

namespace NaiveRtc.Rtcp

open ByteIo PackState

/-! ## The common fields -/

/-- `Psfb::kPacketType`. -/
def kPsfbPacketType : Nat := 206
/-- `Rtpfb::kPacketType`. -/
def kRtpfbPacketType : Nat := 205
/-- `Psfb::kAfbMessageType`. -/
def kAfbMessageType : Nat := 15
/-- `kCommonFeedbackSize` of `Psfb` and `Rtpfb`. -/
def kCommonFeedbackSize : Nat := 8

/-- `Psfb::PackCommonFeedback(payload)`, the bytes it writes. -/
def packCommonFeedback (senderSsrc mediaSsrc : U32) : List UInt8 :=
  writeBigEndian 4 senderSsrc.toNat ++ writeBigEndian 4 mediaSsrc.toNat

/-- `Rtpfb::PackCommonFeedbackInto(buffer, size)`; `none` is `false`. -/
def packCommonFeedbackInto (senderSsrc mediaSsrc : U32) (size : Nat) : Option (List UInt8) :=
  if size < kCommonFeedbackSize then none else some (packCommonFeedback senderSsrc mediaSsrc)

@[simp] theorem length_packCommonFeedback (senderSsrc mediaSsrc : U32) :
    (packCommonFeedback senderSsrc mediaSsrc).length = kCommonFeedbackSize := by
  simp [packCommonFeedback, kCommonFeedbackSize]

theorem packCommonFeedbackInto_of_le (senderSsrc mediaSsrc : U32) {size : Nat}
    (h : kCommonFeedbackSize ≤ size) :
    packCommonFeedbackInto senderSsrc mediaSsrc size =
      some (packCommonFeedback senderSsrc mediaSsrc) :=
  if_neg (by omega)

/-! ## Picture loss indications -/

/-- `Pli`. -/
structure Pli where
  senderSsrc : U32
  mediaSsrc : U32
  deriving DecidableEq

namespace Pli

/-- `kFeedbackMessageType`. -/
def kFeedbackMessageType : Nat := 1

/-- `PacketSize()`. -/
def packetSize (_ : Pli) : Nat := kRtcpCommonHeaderSize + kCommonFeedbackSize

/-- `PackInto` after its first loop. -/
def packBody (p : Pli) (st : PackState) : Bool × PackState :=
  let st := st.write (packCommonHeader kFeedbackMessageType kPsfbPacketType
    (p.packetSize - kRtcpCommonHeaderSize) false)
  (true, st.put (packCommonFeedback p.senderSsrc p.mediaSsrc) kCommonFeedbackSize)

/-- `PackInto(buffer, index, max_size, callback)`. -/
def packInto (p : Pli) : Bool → Nat → Nat → PackState → Packed :=
  packUnsplit p.packetSize p.packBody

/-- The packet on the wire. -/
def bytes (p : Pli) : List UInt8 :=
  packCommonHeader kFeedbackMessageType kPsfbPacketType (p.packetSize - kRtcpCommonHeaderSize)
    false ++ packCommonFeedback p.senderSsrc p.mediaSsrc

theorem length_bytes (p : Pli) : p.bytes.length = p.packetSize := by
  rw [bytes, List.length_append, length_packCommonHeader, length_packCommonFeedback]
  rfl

theorem packBody_eq (p : Pli) {st : PackState} (h : st.index ≤ st.buffer.length) :
    p.packBody st = (true, st.write p.bytes) := by
  unfold packBody
  dsimp only
  rw [put_eq_write _ (length_packCommonFeedback _ _), write_write h, bytes]

theorem packsAs (p : Pli) (hasCallback : Bool) (maxSize : Nat) :
    PacksAs (p.packInto hasCallback maxSize) maxSize 2
      (nextIndex hasCallback maxSize p.packetSize) (· = [p.bytes]) :=
  packUnsplit_spec hasCallback p.length_bytes (fun st h => p.packBody_eq (by omega))

end Pli

/-! ## Full intra requests -/

/-- `Fir::Request`. -/
structure FirRequest where
  ssrc : U32
  seqNr : UInt8
  deriving DecidableEq

/-- `Fir`; `fci_itmes_` is spelled out. -/
structure Fir where
  senderSsrc : U32
  mediaSsrc : U32
  fciItems : List FirRequest
  deriving DecidableEq

namespace Fir

/-- `kFeedbackMessageType`. -/
def kFeedbackMessageType : Nat := 4
/-- `kFciSize`. -/
def kFciSize : Nat := 8

/-- `PacketSize()`. -/
def packetSize (f : Fir) : Nat :=
  kRtcpCommonHeaderSize + kCommonFeedbackSize + kFciSize * f.fciItems.length

/-- One request, with its reserved bytes. -/
def itemBytes (request : FirRequest) : List UInt8 :=
  writeBigEndian 4 request.ssrc.toNat ++ [request.seqNr] ++ writeBigEndian 3 0

/-- `PackInto` after its first loop. -/
def packBody (f : Fir) (st : PackState) : Bool × PackState :=
  if f.mediaSsrc ≠ 0 then (false, st)
  else
    let st := st.write (packCommonHeader kFeedbackMessageType kPsfbPacketType
      (f.packetSize - kRtcpCommonHeaderSize) false)
    let st := st.put (packCommonFeedback f.senderSsrc f.mediaSsrc) kCommonFeedbackSize
    (true, f.fciItems.foldl (fun st request => st.put (itemBytes request) kFciSize) st)

/-- `PackInto(buffer, index, max_size, callback)`. -/
def packInto (f : Fir) (hasCallback : Bool) (maxSize fuel : Nat) (st : PackState) : Packed :=
  if f.fciItems.isEmpty then some (false, st)
  else packUnsplit f.packetSize f.packBody hasCallback maxSize fuel st

/-- Something is requested, and the unused media SSRC is zero. -/
def WellFormed (f : Fir) : Prop := f.fciItems ≠ [] ∧ f.mediaSsrc = 0

/-- The packet on the wire. -/
def bytes (f : Fir) : List UInt8 :=
  packCommonHeader kFeedbackMessageType kPsfbPacketType (f.packetSize - kRtcpCommonHeaderSize)
    false ++ packCommonFeedback f.senderSsrc f.mediaSsrc ++ f.fciItems.flatMap itemBytes

theorem length_itemBytes (request : FirRequest) : (itemBytes request).length = kFciSize := by
  simp [itemBytes, kFciSize]

theorem length_bytes (f : Fir) : f.bytes.length = f.packetSize := by
  rw [bytes, List.length_append, List.length_append, length_packCommonHeader,
    length_packCommonFeedback, length_flatMap_of_length length_itemBytes]
  rfl

theorem packBody_eq {f : Fir} (hf : f.WellFormed) {st : PackState}
    (h : st.index ≤ st.buffer.length) : f.packBody st = (true, st.write f.bytes) := by
  have hitems : ∀ request ∈ f.fciItems,
      Writes (fun st => st.put (itemBytes request) kFciSize) (itemBytes request) :=
    fun request _ st _ => put_eq_write st (length_itemBytes request)
  unfold packBody
  rw [if_neg (not_not.mpr hf.2)]
  dsimp only
  rw [put_eq_write _ (length_packCommonFeedback _ _), write_write h,
    foldl_write hitems (index_write_le h),
    write_write h, bytes]

theorem packsAs {f : Fir} (hf : f.WellFormed) (hasCallback : Bool) (maxSize : Nat) :
    PacksAs (f.packInto hasCallback maxSize) maxSize 2
      (nextIndex hasCallback maxSize f.packetSize) (· = [f.bytes]) := by
  have hpack : f.packInto hasCallback maxSize =
      packUnsplit f.packetSize f.packBody hasCallback maxSize := by
    funext fuel st
    exact if_neg (by simpa using hf.1)
  rw [hpack]
  exact packUnsplit_spec hasCallback f.length_bytes (fun st h => packBody_eq hf (by omega))

end Fir

/-! ## Loss notifications -/

/-- `LossNotification`. -/
structure LossNotification where
  senderSsrc : U32
  mediaSsrc : U32
  lastDecoded : U16
  lastReceived : U16
  decodabilityFlag : Bool
  deriving DecidableEq

namespace LossNotification

/-- `kUniqueIdentifier`, `'L' 'N' 'T' 'F'`. -/
def kUniqueIdentifier : Nat := 0x4C4E5446
/-- `kLossNotificationPayloadSize`. -/
def kLossNotificationPayloadSize : Nat := 8

/-- `PacketSize()`. -/
def packetSize (_ : LossNotification) : Nat :=
  kRtcpCommonHeaderSize + kCommonFeedbackSize + kLossNotificationPayloadSize

/-- `last_received_delta_and_decodability`. -/
def lastReceivedDeltaAndDecodability (l : LossNotification) : U16 :=
  let lastReceivedDelta := l.lastReceived - l.lastDecoded
  (lastReceivedDelta <<< 1) ||| (if l.decodabilityFlag then 0x0001 else 0x0000)

/-- `PackInto` after its first loop. -/
def packBody (l : LossNotification) (st : PackState) : Bool × PackState :=
  let st := st.write (packCommonHeader kAfbMessageType kPsfbPacketType
    (l.packetSize - kRtcpCommonHeaderSize) false)
  let st := st.put (packCommonFeedback l.senderSsrc l.mediaSsrc) kCommonFeedbackSize
  let st := st.write (writeBigEndian 4 kUniqueIdentifier)
  let st := st.write (writeBigEndian 2 l.lastDecoded.toNat)
  (true, st.write (writeBigEndian 2 l.lastReceivedDeltaAndDecodability.toNat))

/-- `PackInto(packet, index, max_length, callback)`. -/
def packInto (l : LossNotification) : Bool → Nat → Nat → PackState → Packed :=
  packUnsplit l.packetSize l.packBody

/-- The packet on the wire. -/
def bytes (l : LossNotification) : List UInt8 :=
  packCommonHeader kAfbMessageType kPsfbPacketType (l.packetSize - kRtcpCommonHeaderSize) false ++
    packCommonFeedback l.senderSsrc l.mediaSsrc ++ writeBigEndian 4 kUniqueIdentifier ++
    writeBigEndian 2 l.lastDecoded.toNat ++
    writeBigEndian 2 l.lastReceivedDeltaAndDecodability.toNat

theorem length_bytes (l : LossNotification) : l.bytes.length = l.packetSize := by
  simp only [bytes, List.length_append, length_packCommonHeader, length_packCommonFeedback,
    length_writeBigEndian, packetSize, kRtcpCommonHeaderSize, kLossNotificationPayloadSize]

theorem packBody_eq (l : LossNotification) {st : PackState} (h : st.index ≤ st.buffer.length) :
    l.packBody st = (true, st.write l.bytes) := by
  unfold packBody
  dsimp only
  rw [put_eq_write _ (length_packCommonFeedback _ _), write_write h, write_write h, write_write h,
    write_write h, bytes]

theorem packsAs (l : LossNotification) (hasCallback : Bool) (maxSize : Nat) :
    PacksAs (l.packInto hasCallback maxSize) maxSize 2
      (nextIndex hasCallback maxSize l.packetSize) (· = [l.bytes]) :=
  packUnsplit_spec hasCallback l.length_bytes (fun st h => l.packBody_eq (by omega))

end LossNotification

/-! ## Bitrates -/

/-- The loop `while (mantissa > kMaxMantissa) { mantissa >>= 1; ++exponent; }`, from the
exponent zero: the mantissa and the exponent it ends with. -/
def scaleDown (maxMantissa mantissa : Nat) : Nat × Nat :=
  if maxMantissa < mantissa then
    let (mantissa, exponent) := scaleDown maxMantissa (mantissa >>> 1)
    (mantissa, exponent + 1)
  else (mantissa, 0)
termination_by mantissa
decreasing_by
  rw [Nat.shiftRight_one]
  omega

/-- `Remb`, with the bound that `set_ssrcs` puts on it. -/
structure Remb where
  senderSsrc : U32
  mediaSsrc : U32
  bitrateBps : Int
  ssrcs : List U32
  ssrcs_le : ssrcs.length ≤ 0xff
  deriving DecidableEq

namespace Remb

/-- `kUniqueIdentifier`, `'R' 'E' 'M' 'B'`. -/
def kUniqueIdentifier : Nat := 0x52454D42
/-- `kMaxMantissa`, 18 bits. -/
def kMaxMantissa : Nat := 0x3ffff

/-- `PacketSize()`. -/
def packetSize (r : Remb) : Nat :=
  kRtcpCommonHeaderSize + kCommonFeedbackSize + (2 + r.ssrcs.length) * 4

/-- The four bytes with the number of SSRCs and the bitrate. -/
def bitrateBytes (r : Remb) : List UInt8 :=
  let (mantissa, exponent) := scaleDown kMaxMantissa (BitVec.ofInt 64 r.bitrateBps).toNat
  [UInt8.ofNat r.ssrcs.length] ++ [UInt8.ofNat ((exponent <<< 2) ||| (mantissa >>> 16))] ++
    writeBigEndian 2 (mantissa &&& 0xFFFF)

/-- `PackInto` after its first loop. -/
def packBody (r : Remb) (st : PackState) : Bool × PackState :=
  if r.mediaSsrc ≠ 0 then (false, st)
  else
    let st := st.write (packCommonHeader kAfbMessageType kPsfbPacketType
      (r.packetSize - kRtcpCommonHeaderSize) false)
    let st := st.put (packCommonFeedback r.senderSsrc r.mediaSsrc) kCommonFeedbackSize
    let st := st.write (writeBigEndian 4 kUniqueIdentifier)
    let st := st.write r.bitrateBytes
    (true, r.ssrcs.foldl (fun st ssrc => st.write (writeBigEndian 4 ssrc.toNat)) st)

/-- `PackInto(buffer, index, max_size, callback)`. -/
def packInto (r : Remb) : Bool → Nat → Nat → PackState → Packed :=
  packUnsplit r.packetSize r.packBody

/-- The unused media SSRC is zero. -/
def WellFormed (r : Remb) : Prop := r.mediaSsrc = 0

/-- The packet on the wire. -/
def bytes (r : Remb) : List UInt8 :=
  packCommonHeader kAfbMessageType kPsfbPacketType (r.packetSize - kRtcpCommonHeaderSize) false ++
    packCommonFeedback r.senderSsrc r.mediaSsrc ++ writeBigEndian 4 kUniqueIdentifier ++
    r.bitrateBytes ++ r.ssrcs.flatMap (fun ssrc => writeBigEndian 4 ssrc.toNat)

theorem length_bitrateBytes (r : Remb) : r.bitrateBytes.length = 4 := by
  simp [bitrateBytes]

theorem length_bytes (r : Remb) : r.bytes.length = r.packetSize := by
  simp only [bytes, List.length_append, length_packCommonHeader, length_packCommonFeedback,
    length_bitrateBytes, length_writeBigEndian, packetSize, kRtcpCommonHeaderSize,
    length_flatMap_of_length (fun ssrc : U32 => length_writeBigEndian 4 ssrc.toNat)]
  omega

theorem packBody_eq {r : Remb} (hr : r.WellFormed) {st : PackState}
    (h : st.index ≤ st.buffer.length) : r.packBody st = (true, st.write r.bytes) := by
  have hmedia : r.mediaSsrc = 0 := hr
  unfold packBody
  rw [if_neg (not_not.mpr hmedia)]
  dsimp only
  rw [put_eq_write _ (length_packCommonFeedback _ _), write_write h, write_write h, write_write h,
    foldl_write (fun _ _ _ _ => rfl) (index_write_le h), write_write h, bytes]

theorem packsAs {r : Remb} (hr : r.WellFormed) (hasCallback : Bool) (maxSize : Nat) :
    PacksAs (r.packInto hasCallback maxSize) maxSize 2
      (nextIndex hasCallback maxSize r.packetSize) (· = [r.bytes]) :=
  packUnsplit_spec hasCallback r.length_bytes (fun st h => packBody_eq hr (by omega))

end Remb

/-- `TmmbItem`. -/
structure TmmbItem where
  ssrc : U32
  bitrateBps : BitVec 64
  packetOverhead : U16
  deriving DecidableEq

namespace TmmbItem

/-- `kFixedTmmbItemSize`. -/
def kFixedTmmbItemSize : Nat := 8
/-- `kMaxMantissa`, 17 bits. -/
def kMaxMantissa : Nat := 0x1ffff

/-- The item on the wire. -/
def bytes (item : TmmbItem) : List UInt8 :=
  let (mantissa, exponent) := scaleDown kMaxMantissa item.bitrateBps.toNat
  let compact := (exponent <<< 26) ||| (mantissa <<< 9) ||| item.packetOverhead.toNat
  writeBigEndian 4 item.ssrc.toNat ++ writeBigEndian 4 compact

/-- `PackInto(buffer, size)`: the bytes written; `none` is `false`. -/
def packInto (item : TmmbItem) (size : Nat) : Option (List UInt8) :=
  if size < kFixedTmmbItemSize then none else some item.bytes

@[simp] theorem length_bytes (item : TmmbItem) : item.bytes.length = kFixedTmmbItemSize := by
  simp [bytes, kFixedTmmbItemSize]

theorem packInto_of_le (item : TmmbItem) (size : Nat) (h : kFixedTmmbItemSize ≤ size) :
    item.packInto size = some item.bytes :=
  if_neg (by omega)

end TmmbItem

/-! ## Bitrate requests and notifications -/

/-- What `Tmmbr` and `Tmmbn` have in common: their fields, `PacketSize()`, and all of
`PackInto` but the first check of `Tmmbr`. -/
structure Tmmb where
  senderSsrc : U32
  mediaSsrc : U32
  items : List TmmbItem
  deriving DecidableEq

namespace Tmmb

/-- `kFeedbackMessageType` of `Tmmbr`. -/
def kTmmbrFeedbackMessageType : Nat := 3
/-- `kFeedbackMessageType` of `Tmmbn`. -/
def kTmmbnFeedbackMessageType : Nat := 4

/-- `PacketSize()`. -/
def packetSize (t : Tmmb) : Nat :=
  kRtcpCommonHeaderSize + kCommonFeedbackSize + TmmbItem.kFixedTmmbItemSize * t.items.length

/-- `PackInto` after its first loop.  The media SSRC is checked when the common header has
been written. -/
def packBody (feedbackMessageType : Nat) (t : Tmmb) (st : PackState) : Bool × PackState :=
  let indexEnd := st.index + t.packetSize
  let st := st.write (packCommonHeader feedbackMessageType kRtpfbPacketType
    (t.packetSize - kRtcpCommonHeaderSize) false)
  if t.mediaSsrc ≠ 0 then (false, st)
  else
    let st := st.put ((packCommonFeedbackInto t.senderSsrc t.mediaSsrc
      (indexEnd - st.index)).getD []) kCommonFeedbackSize
    (true, t.items.foldl (fun st item =>
      st.put ((item.packInto (indexEnd - st.index)).getD []) TmmbItem.kFixedTmmbItemSize) st)

/-- The packet on the wire. -/
def bytes (feedbackMessageType : Nat) (t : Tmmb) : List UInt8 :=
  packCommonHeader feedbackMessageType kRtpfbPacketType (t.packetSize - kRtcpCommonHeaderSize)
    false ++ packCommonFeedback t.senderSsrc t.mediaSsrc ++ t.items.flatMap TmmbItem.bytes

theorem length_bytes (feedbackMessageType : Nat) (t : Tmmb) :
    (bytes feedbackMessageType t).length = t.packetSize := by
  rw [bytes, List.length_append, List.length_append, length_packCommonHeader,
    length_packCommonFeedback, length_flatMap_of_length TmmbItem.length_bytes]
  rfl

theorem packBody_eq (feedbackMessageType : Nat) {t : Tmmb} (ht : t.mediaSsrc = 0) {st : PackState}
    (h : st.index ≤ st.buffer.length) :
    packBody feedbackMessageType t st = (true, st.write (bytes feedbackMessageType t)) := by
  unfold packBody
  dsimp only
  have hroom : kCommonFeedbackSize ≤ st.index + t.packetSize - (st.write (packCommonHeader
      feedbackMessageType kRtpfbPacketType (t.packetSize - kRtcpCommonHeaderSize) false)).index := by
    rw [index_write, length_packCommonHeader, packetSize, kRtcpCommonHeaderSize]
    omega
  rw [if_neg (not_not.mpr ht), packCommonFeedbackInto_of_le _ _ hroom, Option.getD_some,
    put_eq_write _ (length_packCommonFeedback _ _), write_write h,
    foldl_put_room TmmbItem.length_bytes TmmbItem.packInto_of_le _ (index_write_le h),
    write_write h, bytes]
  rw [index_write, List.length_append, length_packCommonHeader, length_packCommonFeedback,
    packetSize, kRtcpCommonHeaderSize]
  omega

end Tmmb

/-- `Tmmbr`. -/
structure Tmmbr extends Tmmb
  deriving DecidableEq

/-- `Tmmbn`. -/
structure Tmmbn extends Tmmb
  deriving DecidableEq

/-- `Tmmbr::PackInto(buffer, index, max_size, callback)`: nothing to request is an error. -/
def Tmmbr.packInto (t : Tmmbr) (hasCallback : Bool) (maxSize fuel : Nat) (st : PackState) :
    Packed :=
  if t.items.isEmpty then some (false, st)
  else packUnsplit t.packetSize (Tmmb.packBody Tmmb.kTmmbrFeedbackMessageType t.toTmmb) hasCallback
    maxSize fuel st

/-- Something is requested, and the unused media SSRC is zero. -/
def Tmmbr.WellFormed (t : Tmmbr) : Prop := t.items ≠ [] ∧ t.mediaSsrc = 0

/-- The packet on the wire. -/
def Tmmbr.bytes (t : Tmmbr) : List UInt8 := Tmmb.bytes Tmmb.kTmmbrFeedbackMessageType t.toTmmb

theorem Tmmbr.length_bytes (t : Tmmbr) : t.bytes.length = t.packetSize :=
  Tmmb.length_bytes _ t.toTmmb

theorem Tmmbr.packsAs {t : Tmmbr} (ht : t.WellFormed) (hasCallback : Bool) (maxSize : Nat) :
    PacksAs (t.packInto hasCallback maxSize) maxSize 2
      (nextIndex hasCallback maxSize t.packetSize) (· = [t.bytes]) := by
  have hpack : t.packInto hasCallback maxSize = packUnsplit t.packetSize
      (Tmmb.packBody Tmmb.kTmmbrFeedbackMessageType t.toTmmb) hasCallback maxSize := by
    funext fuel st
    exact if_neg (by simpa using ht.1)
  rw [hpack]
  exact packUnsplit_spec hasCallback t.length_bytes
    (fun st h => Tmmb.packBody_eq _ ht.2 (by omega))

/-- `Tmmbn::PackInto(buffer, index, max_size, callback)`. -/
def Tmmbn.packInto (t : Tmmbn) : Bool → Nat → Nat → PackState → Packed :=
  packUnsplit t.packetSize (Tmmb.packBody Tmmb.kTmmbnFeedbackMessageType t.toTmmb)

/-- The unused media SSRC is zero. -/
def Tmmbn.WellFormed (t : Tmmbn) : Prop := t.mediaSsrc = 0

/-- The packet on the wire. -/
def Tmmbn.bytes (t : Tmmbn) : List UInt8 := Tmmb.bytes Tmmb.kTmmbnFeedbackMessageType t.toTmmb

theorem Tmmbn.length_bytes (t : Tmmbn) : t.bytes.length = t.packetSize :=
  Tmmb.length_bytes _ t.toTmmb

theorem Tmmbn.packsAs {t : Tmmbn} (ht : t.WellFormed) (hasCallback : Bool) (maxSize : Nat) :
    PacksAs (t.packInto hasCallback maxSize) maxSize 2
      (nextIndex hasCallback maxSize t.packetSize) (· = [t.bytes]) :=
  packUnsplit_spec hasCallback t.length_bytes (fun st h => Tmmb.packBody_eq _ ht (by omega))

end NaiveRtc.Rtcp
