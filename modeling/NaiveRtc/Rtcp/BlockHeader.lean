import NaiveRtc.Lib.Reading
import NaiveRtc.Rtcp.RtcpPacket

/-!
# Headers of received blocks

`CommonHeader::Parse` of `rtc/rtp_rtcp/rtcp/packets/common_header.cpp` once more, as a program
that reads the received buffer where it lies in memory: `payload_` is an address here, so that
one can ask what lies behind it.

* `BlockHeader`, `BlockHeader.parse` — the header of the block at an address.
* `BlockHeader.safe_parse` — reading it stays in the buffer, and what is accepted fits there.
* `BlockHeader.value_parse` — it is the header that `CommonHeader.parse` finds in the bytes.
-/

namespace NaiveRtc.Rtcp

open ByteIo Reading

/-! ## Numbers at an address -/

/-- `ByteReader<T, B>::ReadBigEndian(data)` of an unsigned type. -/
def readUnsigned (B data : Nat) : Reading Nat := do
  let found ← bytes data B
  pure (readBigEndian B found.toList)

/-- `ByteReader<uint16_t>::ReadBigEndian(data)`. -/
def readU16 (data : Nat) : Reading U16 := do
  let val ← readUnsigned 2 data
  pure (BitVec.ofNat 16 val)

/-- `ByteReader<uint32_t>::ReadBigEndian(data)`. -/
def readU32 (data : Nat) : Reading U32 := do
  let val ← readUnsigned 4 data
  pure (BitVec.ofNat 32 val)

/-- `ByteReader<T, B>::ReadBigEndian(data)` of a signed type. -/
def readInt (B data : Nat) : Reading Int := do
  let found ← bytes data B
  pure (readSigned B found.toList)

section Numbers

variable {mem : Nat → UInt8} {low high data : Nat}

theorem safe_readUnsigned {B : Nat} {post : Nat → Prop} (hB : 0 < B) :
    (readUnsigned B data).Safe mem low high post ↔
      (low ≤ data ∧ data + B ≤ high) ∧ post ((readUnsigned B data).value mem) := by
  have hrange : (∀ i < B, low ≤ data + i ∧ data + i < high) ↔ low ≤ data ∧ data + B ≤ high :=
    ⟨fun h => ⟨(h 0 hB).1, by have := (h (B - 1) (by omega)).2; omega⟩,
      fun h i hi => ⟨by omega, by omega⟩⟩
  rw [readUnsigned, safe_bind, safe_bytes, safe_pure, hrange, value_bind, value_pure]

theorem safe_readU16 {post : U16 → Prop} :
    (readU16 data).Safe mem low high post ↔
      (low ≤ data ∧ data + 2 ≤ high) ∧ post ((readU16 data).value mem) := by
  rw [readU16, safe_bind, safe_readUnsigned (by omega), safe_pure, value_bind, value_pure]

theorem safe_readU32 {post : U32 → Prop} :
    (readU32 data).Safe mem low high post ↔
      (low ≤ data ∧ data + 4 ≤ high) ∧ post ((readU32 data).value mem) := by
  rw [readU32, safe_bind, safe_readUnsigned (by omega), safe_pure, value_bind, value_pure]

theorem safe_readInt {B : Nat} {post : Int → Prop} (hB : 0 < B) :
    (readInt B data).Safe mem low high post ↔
      (low ≤ data ∧ data + B ≤ high) ∧ post ((readInt B data).value mem) := by
  have hbytes := @safe_readUnsigned mem low high data B (fun _ => True) hB
  rw [readUnsigned, safe_bind, safe_bytes] at hbytes
  simp only [safe_pure, and_true] at hbytes
  rw [readInt, safe_bind, safe_bytes, safe_pure, hbytes, value_bind, value_pure]

end Numbers

/-! ## The bytes of a buffer -/

/-- The `size` bytes from an address on, as a byte string. -/
def bytesAt (mem : Nat → UInt8) (start size : Nat) : List UInt8 :=
  (List.range size).map fun i => mem (start + i)

section Bytes

variable {mem : Nat → UInt8} {start size : Nat}

@[simp] theorem length_bytesAt : (bytesAt mem start size).length = size := by simp [bytesAt]

theorem drop_bytesAt (count : Nat) :
    (bytesAt mem start size).drop count = bytesAt mem (start + count) (size - count) := by
  refine List.ext_getElem (by simp) fun i hi hi' => ?_
  simp [bytesAt, Nat.add_assoc]

theorem take_bytesAt {count : Nat} (h : count ≤ size) :
    (bytesAt mem start size).take count = bytesAt mem start count := by
  refine List.ext_getElem (by simp [h]) fun i hi hi' => ?_
  simp [bytesAt]

theorem getD_bytesAt {i : Nat} (h : i < size) :
    (bytesAt mem start size).getD i 0 = mem (start + i) := by
  rw [List.getD_eq_getElem _ _ (by simpa using h)]
  simp [bytesAt]

theorem value_readUnsigned {B : Nat} (h : B ≤ size) :
    (readUnsigned B start).value mem = readBigEndian B (bytesAt mem start size) := by
  rw [readUnsigned, value_bind, value_pure, value_bytes]
  show readBigEndian B (bytesAt mem start B) = _
  rw [← take_bytesAt h, readBigEndian_take]

theorem value_readU16 (h : 2 ≤ size) :
    (readU16 start).value mem = BitVec.ofNat 16 (readBigEndian 2 (bytesAt mem start size)) := by
  rw [readU16, value_bind, value_pure, value_readUnsigned h]

theorem value_readU32 (h : 4 ≤ size) :
    (readU32 start).value mem = BitVec.ofNat 32 (readBigEndian 4 (bytesAt mem start size)) := by
  rw [readU32, value_bind, value_pure, value_readUnsigned h]

theorem value_readInt {B : Nat} (h : B ≤ size) :
    (readInt B start).value mem = readSigned B (bytesAt mem start size) := by
  have hnumber := @value_readUnsigned mem start size B h
  rw [readUnsigned, value_bind, value_pure] at hnumber
  rw [readInt, value_bind, value_pure, readSigned, readSigned, hnumber]

theorem toNat_readU16 (h : 2 ≤ size) :
    ((readU16 start).value mem).toNat = readBigEndian 2 (bytesAt mem start size) := by
  rw [value_readU16 h, BitVec.toNat_ofNat]
  exact Nat.mod_eq_of_lt (readBigEndian_lt 2 _)

end Bytes

/-! ## The header -/

/-- `CommonHeader` of the block at an address.  The mask on the first byte bounds the count, and
the length field the size. -/
structure BlockHeader (start : Nat) where
  packetType : UInt8
  countOrFmt : UInt8
  paddingSize : UInt8
  payloadSize : Nat
  count_le : countOrFmt.toNat ≤ 0x1F
  size_lt : payloadSize < 2 ^ 32
  deriving DecidableEq

namespace BlockHeader

variable {start : Nat}

/-- `payload()`. -/
def payload (_ : BlockHeader start) : Nat := start + kRtcpCommonHeaderSize

/-- `packet_size()`. -/
def packetSize (h : BlockHeader start) : Nat :=
  kRtcpCommonHeaderSize + h.payloadSize + h.paddingSize.toNat

/-- `NextPacket()`. -/
def nextPacket (h : BlockHeader start) : Nat := h.payload + h.payloadSize + h.paddingSize.toNat

theorem mask_le (first : UInt8) : (first &&& 0x1F).toNat ≤ 0x1F := by
  rw [UInt8.toNat_and]
  exact Nat.and_le_right

/-- `Parse(buffer, size)`; `none` is `false`. -/
def parse (start size : Nat) : Reading (Option (BlockHeader start)) :=
  if size < kRtcpCommonHeaderSize then pure none
  else do
    let first ← byte start
    if first >>> 6 ≠ 2 then pure none
    else
      let packetType ← byte (start + 1)
      let words ← readU16 (start + 2)
      let payloadSize := words.toNat * 4
      let header (paddingSize : UInt8) : BlockHeader start :=
        { packetType := packetType
          countOrFmt := first &&& 0x1F
          paddingSize := paddingSize
          payloadSize := payloadSize - paddingSize.toNat
          count_le := mask_le first
          size_lt := by omega }
      if size < kRtcpCommonHeaderSize + payloadSize then pure none
      else if first &&& 0x20 ≠ 0 then
        if payloadSize = 0 then pure none
        else
          -- the last byte in the payload
          let paddingSize ← byte (start + kRtcpCommonHeaderSize + (payloadSize - 1))
          if paddingSize = 0 then pure none
          else if payloadSize < paddingSize.toNat then pure none
          else pure (some (header paddingSize))
      else pure (some (header 0))

/-- The number of bytes that the length field of the block at an address declares, without the
header. -/
def declaredSize (mem : Nat → UInt8) (start : Nat) : Nat :=
  readBigEndian 2 (bytesAt mem (start + 2) 2) * 4

/-- **A header is read inside the buffer, and what it accepts is inside the buffer**: payload and
padding are what the length field declares. -/
theorem safe_parse (mem : Nat → UInt8) (start size : Nat) :
    (parse start size).Safe mem start (start + size) fun result => ∀ h, result = some h →
      h.payloadSize + h.paddingSize.toNat = declaredSize mem start ∧
        kRtcpCommonHeaderSize + declaredSize mem start ≤ size := by
  have hwords : ((readU16 (start + 2)).value mem).toNat * 4 = declaredSize mem start := by
    rw [toNat_readU16 (le_refl 2), declaredSize]
  unfold parse
  simp only [safe_ite, safe_bind, safe_byte, safe_readU16, safe_pure, hwords,
    kRtcpCommonHeaderSize]
  refine ⟨fun _ => by simp, fun hsize => ⟨by omega, fun _ => by simp, fun _ => ?_⟩⟩
  refine ⟨by omega, by omega, fun _ => by simp, fun hroom => ⟨fun _ => ?_, fun _ => ?_⟩⟩
  · refine ⟨fun _ => by simp, fun hpos => ⟨by omega, fun _ => by simp, fun _ => ?_⟩⟩
    refine ⟨fun _ => by simp, fun hpad h hh => ?_⟩
    obtain rfl := Option.some.inj hh
    exact ⟨by dsimp only; omega, by omega⟩
  · intro h hh
    obtain rfl := Option.some.inj hh
    exact ⟨by simp, by omega⟩

/-- The header with the payload as a byte string. -/
def toCommonHeader (mem : Nat → UInt8) (h : BlockHeader start) : CommonHeader where
  packetType := h.packetType
  countOrFmt := h.countOrFmt
  paddingSize := h.paddingSize
  payload := bytesAt mem h.payload h.payloadSize

theorem value_parse (mem : Nat → UInt8) (start size : Nat) :
    ((parse start size).value mem).map (toCommonHeader mem) =
      CommonHeader.parse (bytesAt mem start size) := by
  unfold parse CommonHeader.parse
  rw [length_bytesAt]
  by_cases hsize : size < kRtcpCommonHeaderSize
  · rw [if_pos hsize, if_pos hsize]
    rfl
  · have hfour : 4 ≤ size := Nat.le_of_not_lt hsize
    have hwords : ((readU16 (start + 2)).value mem).toNat =
        readBigEndian 2 ((bytesAt mem start size).drop 2) := by
      rw [drop_bytesAt]
      exact toNat_readU16 (by omega)
    have hfirst : (bytesAt mem start size).getD 0 0 = mem start := getD_bytesAt (by omega)
    have htype : (bytesAt mem start size).getD 1 0 = mem (start + 1) := getD_bytesAt (by omega)
    simp only [if_neg hsize, value_bind, value_byte, value_ite, value_pure, hwords, hfirst, htype,
      apply_ite (Option.map (toCommonHeader mem)), Option.map_none, Option.map_some, toCommonHeader,
      payload]
    generalize hpayload : readBigEndian 2 ((bytesAt mem start size).drop 2) * 4 = payloadSize
    by_cases hroom : size < kRtcpCommonHeaderSize + payloadSize
    · simp only [if_pos hroom]
    · have hbody : ((bytesAt mem start size).drop kRtcpCommonHeaderSize).take payloadSize =
          bytesAt mem (start + kRtcpCommonHeaderSize) payloadSize := by
        rw [drop_bytesAt, take_bytesAt (by omega)]
      have hcut : ∀ pad : UInt8, (bytesAt mem (start + kRtcpCommonHeaderSize) payloadSize).take
          (payloadSize - pad.toNat) =
            bytesAt mem (start + kRtcpCommonHeaderSize) (payloadSize - pad.toNat) :=
        fun pad => take_bytesAt (Nat.sub_le _ _)
      simp only [if_neg hroom, hbody, hcut, bne_iff_ne]
      by_cases hpos : payloadSize = 0
      · simp only [if_pos hpos]
      · have hlast : (bytesAt mem (start + kRtcpCommonHeaderSize) payloadSize).getD
            (payloadSize - 1) 0 = mem (start + kRtcpCommonHeaderSize + (payloadSize - 1)) :=
          getD_bytesAt (by omega)
        simp only [if_neg hpos, hlast]

end BlockHeader

end NaiveRtc.Rtcp
