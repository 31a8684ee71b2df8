import NaiveRtc.Base.ByteIo
import NaiveRtc.Base.CopyOnWriteBuffer
import NaiveRtc.Lib.Overwrite
import NaiveRtc.Rtp.HeaderExtensionMap
import NaiveRtc.Rtp.PacketToSend

/-!
# RTP packets

The model of `rtc/rtp_rtcp/rtp/packets/rtp_packet.{hpp,cpp}`: the fields of a packet next to the
buffer they are written to and read from.

* `RtpPacket` — the fields and the buffer; `create`, `reset`.
* `setMarker` … `setPadding` — the setters of header, payload and padding.
* `allocateExtension`, with `allocateRawExtension`, `selectProfile`, `appendExtension`,
  `updateExtensionSizeByPaddingZero` and `promoteToTwoByteHeaderExtension`.
* `findExtension`, `csrcs`, `payload` — reading.
* `parseInternal`, `parse`, `parseBuffer`, `copyHeaderFrom`, `removeExtension`.

How far a vector grows beyond its capacity is up to the library, and a parameter.  What is
written behind the size of the buffer is lost: when the size reaches it, it is filled with
zeros.  The checked casts to 16 bits cut what they are given, as they do where the assertion in
them is not compiled.
-/

namespace NaiveRtc.Rtp

open ByteIo CopyOnWrite Overwrite

/-- The header without contributing sources and extensions. -/
def kFixedHeaderSize : Nat := 12

/-- The version of every packet. -/
def kRtpVersion : UInt8 := 2

/-- The profile of extensions with one byte headers -/
def kOneByteExtensionProfileId : Nat := 0xBEDE

/-- and with two byte headers, -/
def kTwoByteExtensionProfileId : Nat := 0x1000

/-- whose last four bits are left to applications. -/
def kTwoByteExtensionProfileIdAppBitsFilter : Nat := 0xFFF0

/-- The header in front of a value: one byte -/
def kOneByteExtensionHeaderSize : Nat := 1

/-- or two. -/
def kTwoByteExtensionHeaderSize : Nat := 2

/-- `RtpPacket::ExtensionInfo`. -/
structure ExtensionInfo where
  id : Nat
  size : Nat
  offset : Nat
  deriving DecidableEq

/-- `RtpPacket`; no constructor sets `has_padding_`, and no reset. -/
structure RtpPacket where
  hasPadding : Bool := false
  marker : Bool := false
  payloadType : UInt8 := 0
  paddingSize : UInt8 := 0
  sequenceNum : U16 := 0
  timestamp : U32 := 0
  ssrc : U32 := 0
  payloadOffset : Nat := kFixedHeaderSize
  payloadSize : Nat := 0
  extensionsSize : Nat := 0
  extensionMap : HeaderExtensionMap := {}
  extensionEntries : List ExtensionInfo := []
  /-- The vector of the `CopyOnWriteBuffer`. -/
  buffer : BinaryBuffer

namespace RtpPacket

/-! ## The buffer -/

/-- `data()` up to the size of the buffer. -/
def bytes (p : RtpPacket) : List UInt8 := p.buffer.bytes

/-- `capacity()`. -/
def capacity (p : RtpPacket) : Nat := p.buffer.capacity

/-- `header_size()`. -/
def headerSize (p : RtpPacket) : Nat := p.payloadOffset

/-- `size()`. -/
def size (p : RtpPacket) : Nat := p.payloadOffset + p.payloadSize + p.paddingSize.toNat

/-- Bytes written from `offset` on. -/
def writeAt (p : RtpPacket) (offset : Nat) (data : List UInt8) : RtpPacket :=
  { p with buffer := { p.buffer with bytes := overwrite p.bytes offset data } }

/-- The byte at `offset`. -/
def byteAt (p : RtpPacket) (offset : Nat) : UInt8 := p.bytes.getD offset 0

/-- The number of CSRCs in the first byte. -/
def numCsrc (p : RtpPacket) : Nat := (p.byteAt 0 &&& 0x0F).toNat

section Growth

variable (growTo : Nat → Nat → Nat)

/-- `Resize(size)`. -/
def resize (p : RtpPacket) (size : Nat) : RtpPacket :=
  { p with buffer := p.buffer.setBytes growTo (resized size p.bytes) }

/-- `Reset()`. -/
def reset (p : RtpPacket) : RtpPacket :=
  ({ p with
    marker := false
    payloadType := 0
    sequenceNum := 0
    timestamp := 0
    ssrc := 0
    payloadOffset := kFixedHeaderSize
    payloadSize := 0
    paddingSize := 0
    buffer := { p.buffer with bytes := [] } }.resize growTo kFixedHeaderSize).writeAt 0
      [kRtpVersion <<< 6]

/-- `RtpPacket(extension_map, capacity)`. -/
def create (extensionMap : HeaderExtensionMap) (capacity : Nat) : RtpPacket :=
  reset growTo { extensionMap := extensionMap, buffer := ⟨[], capacity⟩ }

/-! ## Header, payload and padding -/

/-- `csrcs()`. -/
def csrcs (p : RtpPacket) : List U32 :=
  (List.range p.numCsrc).map fun i =>
    BitVec.ofNat 32 (readBigEndian 4 (p.bytes.drop (kFixedHeaderSize + 4 * i)))

/-- `payload()`. -/
def payload (p : RtpPacket) : List UInt8 := readFrom p.bytes p.payloadOffset p.payloadSize

/-- `set_has_padding(has_padding)`. -/
def setHasPadding (p : RtpPacket) (hasPadding : Bool) : RtpPacket :=
  { p with hasPadding := hasPadding }.writeAt 0
    [if hasPadding then p.byteAt 0 ||| 0x20 else p.byteAt 0 &&& ~~~0x20]

/-- `set_marker(marker)`. -/
def setMarker (p : RtpPacket) (marker : Bool) : RtpPacket :=
  { p with marker := marker }.writeAt 1
    [if marker then p.byteAt 1 ||| 0x80 else p.byteAt 1 &&& 0x7F]

/-- `set_payload_type(payload_type)`. -/
def setPayloadType (p : RtpPacket) (payloadType : UInt8) : RtpPacket :=
  { p with payloadType := payloadType }.writeAt 1 [(p.byteAt 1 &&& 0x80) ||| payloadType]

/-- `set_sequence_number(sequence_num)`. -/
def setSequenceNumber (p : RtpPacket) (sequenceNum : U16) : RtpPacket :=
  { p with sequenceNum := sequenceNum }.writeAt 2 (writeBigEndian 2 sequenceNum.toNat)

/-- `set_timestamp(timestamp)`. -/
def setTimestamp (p : RtpPacket) (timestamp : U32) : RtpPacket :=
  { p with timestamp := timestamp }.writeAt 4 (writeBigEndian 4 timestamp.toNat)

/-- `set_ssrc(ssrc)`. -/
def setSsrc (p : RtpPacket) (ssrc : U32) : RtpPacket :=
  { p with ssrc := ssrc }.writeAt 8 (writeBigEndian 4 ssrc.toNat)

/-- The loop of `set_csrcs`, from an offset on. -/
def writeCsrcs (p : RtpPacket) (offset : Nat) : List U32 → RtpPacket
  | [] => p
  | csrc :: csrcs => (p.writeAt offset (writeBigEndian 4 csrc.toNat)).writeCsrcs (offset + 4) csrcs

/-- `set_csrcs(csrcs)`. -/
def setCsrcs (p : RtpPacket) (csrcs : List U32) : RtpPacket :=
  let payloadOffset := kFixedHeaderSize + 4 * csrcs.length
  let p := { p with payloadOffset := payloadOffset }.resize growTo payloadOffset
  (p.writeAt 0 [(p.byteAt 0 &&& 0xF0) ||| UInt8.ofNat csrcs.length]).writeCsrcs kFixedHeaderSize
    csrcs

/-- `SetPadding(padding_size)`. -/
def setPadding (p : RtpPacket) (paddingSize : UInt8) : RtpPacket :=
  if p.capacity < p.payloadOffset + p.payloadSize + paddingSize.toNat then p
  else
    let p := { p with paddingSize := paddingSize }.resize growTo
      (p.payloadOffset + p.payloadSize + paddingSize.toNat)
    if 0 < paddingSize then
      let paddingOffset := p.payloadOffset + p.payloadSize
      let paddingEnd := paddingOffset + paddingSize.toNat
      ((p.writeAt paddingOffset (List.replicate paddingSize.toNat 0)).writeAt (paddingEnd - 1)
        [paddingSize]).setHasPadding true
    else p.setHasPadding false

/-- `SetPayload(payload)`: the buffer gets its new size, and then the payload is inserted. -/
def setPayload (p : RtpPacket) (payload : List UInt8) : RtpPacket :=
  let p := ({ p with payloadSize := payload.length }.resize growTo
    (p.payloadOffset + payload.length))
  let inserted := p.bytes.take p.payloadOffset ++ payload ++ p.bytes.drop p.payloadOffset
  { p with buffer := p.buffer.setBytes growTo inserted }

/-- `set_payload_size(size)`; `false` for a return of null. -/
def setPayloadSize (p : RtpPacket) (size : Nat) : RtpPacket × Bool :=
  if 0 < p.paddingSize then (p, false)
  else if p.capacity < p.payloadOffset + size then (p, false)
  else ({ p with payloadSize := size }.resize growTo (p.payloadOffset + size), true)

/-- `AllocatePayload(size)`. -/
def allocatePayload (p : RtpPacket) (size : Nat) : RtpPacket × Bool :=
  (p.setPayloadSize growTo 0).1.setPayloadSize growTo size

/-- Bytes written to the payload through the pointer that a caller was given. -/
def writePayload (p : RtpPacket) (offset : Nat) (data : List UInt8) : RtpPacket :=
  p.writeAt (p.payloadOffset + offset) data

/-! ## Header extensions -/

/-- `FindExtensionInfo(id)`. -/
def findExtensionInfo (p : RtpPacket) (id : Nat) : Option ExtensionInfo :=
  p.extensionEntries.find? (·.id == id)

/-- `HasExtension(type)`. -/
def hasExtension (p : RtpPacket) (type : RtpExtensionType) : Bool :=
  let id := p.extensionMap.getId type
  id != RtpExtension.kInvalidId && (p.findExtensionInfo id).isSome

/-- `FindExtension(type)`; null is an empty view.  An entry that an earlier buffer has left can reach
behind the end of this one: the view has zeros there, where memory has stale bytes. -/
def findExtension (p : RtpPacket) (type : RtpExtensionType) : List UInt8 :=
  let id := p.extensionMap.getId type
  if id = RtpExtension.kInvalidId then []
  else
    match p.findExtensionInfo id with
    | none => []
    | some info => readFrom p.bytes info.offset info.size

/-- `UpdateExtensionSizeByPaddingZero(extensions_offset)`. -/
def updateExtensionSizeByPaddingZero (p : RtpPacket) (extensionsOffset : Nat) : RtpPacket × Nat :=
  let extensionsWords := (p.extensionsSize + 3) / 4 % 2 ^ 16
  let extensionPaddingSize := 4 * extensionsWords - p.extensionsSize
  ((p.writeAt (extensionsOffset - 2) (writeBigEndian 2 extensionsWords)).writeAt
    (extensionsOffset + p.extensionsSize) (List.replicate extensionPaddingSize 0),
    4 * extensionsWords % 2 ^ 16)

/-- The loop of `PromoteToTwoByteHeaderExtension` over the entries, the last one first: what it
makes of the buffer and of the entries. -/
def promoteEntries (bytes : List UInt8) (writeReadDelta : Nat) :
    List ExtensionInfo → List UInt8 × List ExtensionInfo
  | [] => (bytes, [])
  | entry :: entries =>
    let writeIndex := entry.offset + writeReadDelta
    let bytes := overwrite bytes writeIndex (readFrom bytes entry.offset entry.size)
    let bytes := overwrite bytes (writeIndex - 1) [UInt8.ofNat entry.size]
    let bytes := overwrite bytes (writeIndex - 2) [UInt8.ofNat entry.id]
    let r := promoteEntries bytes (writeReadDelta - 1) entries
    (r.1, { entry with offset := writeIndex % 2 ^ 16 } :: r.2)

/-- The profile in front of the extensions. -/
def profileId (p : RtpPacket) (extensionsOffset : Nat) : Nat :=
  readBigEndian 2 (p.bytes.drop (extensionsOffset - 4))

/-- `PromoteToTwoByteHeaderExtension()`. -/
def promoteToTwoByteHeaderExtension (p : RtpPacket) : RtpPacket :=
  if p.extensionEntries.length = 0 then p
  else if 0 < p.payloadSize then p
  else
    let extensionsOffset := kFixedHeaderSize + p.numCsrc * 4 + 4
    if kOneByteExtensionProfileId ≠ p.profileId extensionsOffset then p
    else
      let p := p.resize growTo p.capacity
      let r := promoteEntries p.bytes p.extensionEntries.length p.extensionEntries.reverse
      let p := { p with
        buffer := { p.buffer with bytes := r.1 }, extensionEntries := r.2.reverse }
      let p := p.writeAt (extensionsOffset - 4) (writeBigEndian 2 kTwoByteExtensionProfileId)
      let p := { p with extensionsSize := p.extensionsSize + p.extensionEntries.length }
      let r := p.updateExtensionSizeByPaddingZero extensionsOffset
      let payloadOffset := extensionsOffset + r.2
      { r.1 with payloadOffset := payloadOffset }.resize growTo payloadOffset

/-- The part of `AllocateRawExtension` that chooses the profile; `none` when there is no room to
change it. -/
def selectProfile (p : RtpPacket) (extensionsOffset : Nat) (twoByteHeaderRequired : Bool)
    (size : Nat) : Option (RtpPacket × Nat) :=
  if 0 < p.extensionsSize then
    if p.profileId extensionsOffset = kOneByteExtensionProfileId ∧ twoByteHeaderRequired then
      let expectedNewExtensionsSize :=
        p.extensionsSize + p.extensionEntries.length + kTwoByteExtensionHeaderSize + size
      if p.capacity < extensionsOffset + expectedNewExtensionsSize then none
      else some (p.promoteToTwoByteHeaderExtension growTo, kTwoByteExtensionProfileId)
    else some (p, p.profileId extensionsOffset)
  else
    some (p,
      if twoByteHeaderRequired then kTwoByteExtensionProfileId else kOneByteExtensionProfileId)

/-- The part of `AllocateRawExtension` that writes the extension down; with it the offset of the
value, or `none` when there is no room. -/
def appendExtension (p : RtpPacket) (extensionsOffset profileId id size : Nat) :
    RtpPacket × Option Nat :=
  let extensionHeaderSize :=
    if profileId = kOneByteExtensionProfileId then kOneByteExtensionHeaderSize
    else kTwoByteExtensionHeaderSize
  let newExtensionsSize := p.extensionsSize + extensionHeaderSize + size
  if p.capacity < extensionsOffset + newExtensionsSize then (p, none)
  else
    let p :=
      if p.extensionsSize = 0 then
        (p.writeAt 0 [p.byteAt 0 ||| 0x10]).writeAt (extensionsOffset - 4)
          (writeBigEndian 2 profileId)
      else p
    let header :=
      if profileId = kOneByteExtensionProfileId then
        [UInt8.ofNat id <<< 4 ||| UInt8.ofNat (size - 1)]
      else [UInt8.ofNat id, UInt8.ofNat size]
    let p := p.writeAt (extensionsOffset + p.extensionsSize) header
    let offset := (extensionsOffset + p.extensionsSize + extensionHeaderSize) % 2 ^ 16
    let p := { p with
      extensionEntries := p.extensionEntries ++ [ExtensionInfo.mk id size offset]
      extensionsSize := newExtensionsSize }
    let r := p.updateExtensionSizeByPaddingZero extensionsOffset
    let payloadOffset := extensionsOffset + r.2
    ({ r.1 with payloadOffset := payloadOffset }.resize growTo payloadOffset, some offset)

/-- `AllocateRawExtension(id, size)`: the offset of the value, or `none` for null. -/
def allocateRawExtension (p : RtpPacket) (id size : Nat) : RtpPacket × Option Nat :=
  if id < RtpExtension.kMinId ∨ RtpExtension.kMaxId < id then (p, none)
  else if size < 1 ∨ RtpExtension.kMaxValueSize < size then (p, none)
  else
    match p.findExtensionInfo id with
    | some entry => if entry.size = size then (p, some entry.offset) else (p, none)
    | none =>
      if 0 < p.payloadSize then (p, none)
      else if 0 < p.paddingSize then (p, none)
      else
        let p := p.resize growTo p.capacity
        let extensionsOffset := kFixedHeaderSize + p.numCsrc * 4 + 4
        let twoByteHeaderRequired :=
          decide (RtpExtension.kOneByteHeaderExtensionMaxId < id) ||
            decide (RtpExtension.kOneByteHeaderExtensionMaxValueSize < size) || decide (size = 0)
        if twoByteHeaderRequired && !p.extensionMap.extmapAllowMixed then (p, none)
        else
          match p.selectProfile growTo extensionsOffset twoByteHeaderRequired size with
          | none => (p, none)
          | some (p, profileId) => p.appendExtension growTo extensionsOffset profileId id size

/-- `AllocateExtension(type, size)`. -/
def allocateExtension (p : RtpPacket) (type : RtpExtensionType) (size : Nat) :
    RtpPacket × Option Nat :=
  if size = 0 ∨ RtpExtension.kMaxValueSize < size ∨
      (!p.extensionMap.extmapAllowMixed ∧
        RtpExtension.kOneByteHeaderExtensionMaxValueSize < size) then
    (p, none)
  else
    let id := p.extensionMap.getId type
    if id = RtpExtension.kInvalidId then (p, none)
    else if !p.extensionMap.extmapAllowMixed ∧ RtpExtension.kOneByteHeaderExtensionMaxId < id then
      (p, none)
    else p.allocateRawExtension growTo id size

/-- `SetExtension<Extension>(values...)`, for an extension that writes its values as `value`. -/
def setExtension (p : RtpPacket) (type : RtpExtensionType) (value : List UInt8) : RtpPacket :=
  match p.allocateExtension growTo type value.length with
  | (p, none) => p
  | (p, some offset) => p.writeAt offset value

/-! ## Parsing -/

/-- `FindOrCreateExtensionInfo(id)`, filled. -/
def setExtensionInfo (info : ExtensionInfo) : List ExtensionInfo → List ExtensionInfo
  | [] => [info]
  | entry :: entries =>
    if entry.id = info.id then info :: entries else entry :: setExtensionInfo info entries

/-- The header of an extension: its identifier and length, or `none` where the loop ends. -/
def parseExtensionHeader (oneByte : Bool) (buffer : List UInt8) (offset : Nat) :
    Option (Nat × Nat) :=
  let byte := buffer.getD offset 0
  if oneByte then
    let id := (byte >>> 4).toNat
    let length := 1 + (byte &&& 0xF).toNat
    if id = RtpExtension.kOneByteHeaderExtensionReservedId ∨ (id = 0 ∧ length ≠ 1) then none
    else some (id, length)
  else some (byte.toNat, (buffer.getD (offset + 1) 0).toNat)

/-- The loop of `ParseInternal` over the extensions, for at most `fuel` rounds: the size that was
parsed, and the entries. -/
def parseExtensions (oneByte : Bool) (buffer : List UInt8)
    (extensionOffset extensionCapacity : Nat) :
    Nat → Nat → List ExtensionInfo → Nat × List ExtensionInfo
  | 0, extensionsSize, entries => (extensionsSize, entries)
  | fuel + 1, extensionsSize, entries =>
    let headerLength :=
      if oneByte then kOneByteExtensionHeaderSize else kTwoByteExtensionHeaderSize
    if extensionsSize + headerLength < extensionCapacity then
      if buffer.getD (extensionOffset + extensionsSize) 0 = 0 then
        parseExtensions oneByte buffer extensionOffset extensionCapacity fuel (extensionsSize + 1)
          entries
      else
        match parseExtensionHeader oneByte buffer (extensionOffset + extensionsSize) with
        | none => (extensionsSize, entries)
        | some (id, length) =>
          if extensionCapacity < extensionsSize + headerLength + length then
            (extensionsSize, entries)
          else
            let offset := extensionOffset + extensionsSize + headerLength
            if 65535 < offset then (extensionsSize, entries)
            else
              parseExtensions oneByte buffer extensionOffset extensionCapacity fuel
                (extensionsSize + headerLength + length)
                (setExtensionInfo ⟨id, length, offset⟩ entries)
    else (extensionsSize, entries)

/-- The part of `ParseInternal` behind the extensions. -/
def parsePadding (p : RtpPacket) (buffer : List UInt8) (hasPadding : Bool) : RtpPacket × Bool :=
  if hasPadding ∧ p.payloadOffset < buffer.length then
    let p := { p with paddingSize := buffer.getD (buffer.length - 1) 0 }
    if p.paddingSize = 0 then (p, false)
    else if buffer.length < p.payloadOffset + p.paddingSize.toNat then (p, false)
    else ({ p with payloadSize := buffer.length - p.payloadOffset - p.paddingSize.toNat }, true)
  else
    let p := { p with paddingSize := 0 }
    if buffer.length < p.payloadOffset then (p, false)
    else ({ p with payloadSize := buffer.length - p.payloadOffset }, true)

/-- `ParseInternal(buffer, size)`. -/
def parseInternal (p : RtpPacket) (buffer : List UInt8) : RtpPacket × Bool :=
  if buffer.length < kFixedHeaderSize then (p, false)
  else if buffer.getD 0 0 >>> 6 ≠ kRtpVersion then (p, false)
  else
    let hasPadding := decide (buffer.getD 0 0 &&& 0x20 ≠ 0)
    let hasExtension := decide (buffer.getD 0 0 &&& 0x10 ≠ 0)
    let numberOfCsrcs := (buffer.getD 0 0 &&& 0x0F).toNat
    let payloadOffset := kFixedHeaderSize + numberOfCsrcs * 4
    if buffer.length < payloadOffset then (p, false)
    else
      let p := { p with
        hasPadding := hasPadding
        marker := decide (buffer.getD 1 0 &&& 0x80 ≠ 0)
        payloadType := buffer.getD 1 0 &&& 0x7F
        sequenceNum := BitVec.ofNat 16 (readBigEndian 2 (buffer.drop 2))
        timestamp := BitVec.ofNat 32 (readBigEndian 4 (buffer.drop 4))
        ssrc := BitVec.ofNat 32 (readBigEndian 4 (buffer.drop 8))
        payloadOffset := payloadOffset
        extensionsSize := 0 }
      if hasExtension then
        let extensionOffset := payloadOffset + 4
        if buffer.length < extensionOffset then (p, false)
        else
          let profileId := readBigEndian 2 (buffer.drop payloadOffset)
          let extensionCapacity := readBigEndian 2 (buffer.drop (payloadOffset + 2)) * 4
          if buffer.length < extensionOffset + extensionCapacity then (p, false)
          else
            let p :=
              if profileId ≠ kOneByteExtensionProfileId ∧
                  profileId &&& kTwoByteExtensionProfileIdAppBitsFilter ≠
                    kTwoByteExtensionProfileId then p
              else
                let r := parseExtensions (decide (profileId = kOneByteExtensionProfileId)) buffer
                  extensionOffset extensionCapacity extensionCapacity 0 p.extensionEntries
                { p with extensionsSize := r.1, extensionEntries := r.2 }
            { p with payloadOffset := extensionOffset + extensionCapacity }.parsePadding buffer
              hasPadding
      else p.parsePadding buffer hasPadding

/-- `Parse(buffer, size)`. -/
def parse (p : RtpPacket) (buffer : List UInt8) : RtpPacket × Bool :=
  if kIpPacketSize < buffer.length then (p, false)
  else
    match p.parseInternal buffer with
    | (p, false) => (p.reset growTo, false)
    | (p, true) => ({ p with buffer := p.buffer.setBytes growTo buffer }, true)

/-- `Parse(CopyOnWriteBuffer)`. -/
def parseBuffer (p : RtpPacket) (buffer : BinaryBuffer) : RtpPacket × Bool :=
  match p.parseInternal buffer.bytes with
  | (p, false) => (p.reset growTo, false)
  | (p, true) => ({ p with buffer := buffer }, true)

/-- `CopyHeaderFrom(other)`. -/
def copyHeaderFrom (p other : RtpPacket) : RtpPacket :=
  { p with
    marker := other.marker
    payloadType := other.payloadType
    sequenceNum := other.sequenceNum
    timestamp := other.timestamp
    ssrc := other.ssrc
    payloadOffset := other.payloadOffset
    payloadSize := 0
    paddingSize := 0
    buffer := p.buffer.setBytes growTo (readFrom other.bytes 0 other.headerSize) }

/-! ## Removing an extension -/

/-- `SetHeaderExtensionMap(extension_map)`. -/
def setHeaderExtensionMap (p : RtpPacket) (extensionMap : HeaderExtensionMap) : RtpPacket :=
  { p with extensionMap := extensionMap }

/-- The loop of `RemoveExtension` that copies the other extensions to the new packet; `none` when
one is not allocated with its size. -/
def copyExtensions (p : RtpPacket) (idToRemove : Nat) :
    RtpPacket → List ExtensionInfo → Option RtpPacket
  | newPacket, [] => some newPacket
  | newPacket, ext :: exts =>
    if ext.id = idToRemove then copyExtensions p idToRemove newPacket exts
    else
      match newPacket.allocateRawExtension growTo ext.id ext.size with
      -- null is as long as an extension without a value
      | (newPacket, none) =>
        if ext.size = 0 then copyExtensions p idToRemove newPacket exts else none
      | (newPacket, some offset) =>
        copyExtensions p idToRemove
          (newPacket.writeAt offset (readFrom p.bytes ext.offset ext.size)) exts

/-- The header of the new packet of `RemoveExtension`. -/
def newPacketFor (p : RtpPacket) : RtpPacket :=
  (((((create growTo p.extensionMap kIpPacketSize).setMarker p.marker).setPayloadType
    p.payloadType).setSequenceNumber p.sequenceNum).setTimestamp p.timestamp).setSsrc p.ssrc

/-- `RemoveExtension(type)`. -/
def removeExtension (p : RtpPacket) (type : RtpExtensionType) : RtpPacket × Bool :=
  let idToRemove := p.extensionMap.getId type
  if idToRemove = RtpExtension.kInvalidId then (p, false)
  else
    match p.copyExtensions growTo idToRemove (p.newPacketFor growTo) p.extensionEntries with
    | none => (p, false)
    | some newPacket =>
      if (p.extensionEntries.any fun ext => ext.id = idToRemove) = false then (p, false)
      else
        let r := newPacket.allocatePayload growTo p.payloadSize
        let newPacket := if r.2 then r.1.writePayload 0 p.payload else r.1
        (newPacket.setPadding growTo p.paddingSize, true)

/-! ## Calls -/

/-- A call of a mutator. -/
inductive Call
  | setMarker (marker : Bool)
  | setPayloadType (payloadType : UInt8)
  | setSequenceNumber (sequenceNum : U16)
  | setTimestamp (timestamp : U32)
  | setSsrc (ssrc : U32)
  | setCsrcs (csrcs : List U32)
  | allocateExtension (type : RtpExtensionType) (size : Nat)
  | setExtension (type : RtpExtensionType) (value : List UInt8)
  | allocatePayload (size : Nat)
  | setPayloadSize (size : Nat)
  | writePayload (offset : Nat) (data : List UInt8)
  | setPayload (payload : List UInt8)
  | setPadding (paddingSize : UInt8)
  deriving DecidableEq

/-- The assertions at the beginning of a mutator; a payload is written within its size. -/
def asserts (p : RtpPacket) : Call → Bool
  | .setPayloadType payloadType => decide (payloadType ≤ 0x7F)
  | .setCsrcs csrcs =>
    decide (p.extensionsSize = 0 ∧ p.payloadSize = 0 ∧ p.paddingSize = 0 ∧ csrcs.length ≤ 0x0F ∧
      kFixedHeaderSize + 4 * csrcs.length ≤ p.capacity)
  | .writePayload offset data => decide (offset + data.length ≤ p.payloadSize)
  | _ => true

/-- The packet after a call. -/
def call (p : RtpPacket) : Call → RtpPacket
  | .setMarker marker => p.setMarker marker
  | .setPayloadType payloadType => p.setPayloadType payloadType
  | .setSequenceNumber sequenceNum => p.setSequenceNumber sequenceNum
  | .setTimestamp timestamp => p.setTimestamp timestamp
  | .setSsrc ssrc => p.setSsrc ssrc
  | .setCsrcs csrcs => p.setCsrcs growTo csrcs
  | .allocateExtension type size => (p.allocateExtension growTo type size).1
  | .setExtension type value => p.setExtension growTo type value
  | .allocatePayload size => (p.allocatePayload growTo size).1
  | .setPayloadSize size => (p.setPayloadSize growTo size).1
  | .writePayload offset data => p.writePayload offset data
  | .setPayload payload => p.setPayload growTo payload
  | .setPadding paddingSize => p.setPadding growTo paddingSize

end Growth

end RtpPacket

end NaiveRtc.Rtp
