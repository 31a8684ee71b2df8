import NaiveRtc.Base.ByteIo
import NaiveRtc.Components.WrapAround

/-!
# RTCP packets and their common header

The model of `rtc/rtp_rtcp/rtcp/rtcp_packet.cpp` and
`rtc/rtp_rtcp/rtcp/packets/common_header.cpp`: the buffer that packets are written
into, and the four bytes every packet starts with.

* `PackState`, `onBufferFull` — the buffer, its write position, and what was
  handed to the callback when it was full.
* `packCommonHeader`, `CommonHeader.parse` — the header, written and read.
* `parse_packCommonHeader` — a packet written with `padding` bytes at its end is read
  back without them.
-/

namespace NaiveRtc.Rtcp

open ByteIo

/-- `RtcpPacket::kRtcpCommonHeaderSize` and `CommonHeader::kFixedHeaderSize`. -/
def kRtcpCommonHeaderSize : Nat := 4

/-! ## The buffer -/

/-- `buffer` and `*index` of `PackInto`, and the fragments given to the callback. -/
structure PackState where
  buffer : List UInt8
  index : Nat
  delivered : List (List UInt8)
  deriving DecidableEq

namespace PackState

/-- `OnBufferFull(buffer, index, callback)`; `none` is `false`. -/
def onBufferFull (hasCallback : Bool) (st : PackState) : Option PackState :=
  if st.index = 0 then none
  else if hasCallback = false then none
  else some { st with index := 0, delivered := st.delivered ++ [st.buffer.take st.index] }

/-- Bytes written at `buffer[*index]` on, each followed by `++(*index)`. -/
def write (st : PackState) (bytes : List UInt8) : PackState :=
  { st with
    buffer := st.buffer.take st.index ++ bytes ++ st.buffer.drop (st.index + bytes.length)
    index := st.index + bytes.length }

theorem slice_write (st : PackState) (bytes : List UInt8)
    (h : st.index + bytes.length ≤ st.buffer.length) :
    ((st.write bytes).buffer.drop st.index).take ((st.write bytes).index - st.index) = bytes := by
  have hlen : (st.buffer.take st.index).length = st.index := by
    rw [List.length_take]
    omega
  simp only [write, List.append_assoc, Nat.add_sub_cancel_left]
  rw [List.drop_left' hlen, List.take_left' rfl]

end PackState

/-! ## The common header -/

/-- The four bytes of `PackCommonHeader(count_or_format, packet_type, payload_size,
padding, ..)`, as a release build writes them: the assertion that the payload size is at most
`0xFFFF` is left out. -/
def packCommonHeader (countOrFormat packetType payloadSize : Nat) (padding : Bool) :
    List UInt8 :=
  let paddingBit := if padding then 1 <<< 5 else 0
  let payloadSizeIn32bit := payloadSize / 4
  [UInt8.ofNat ((2 <<< 6) ||| paddingBit ||| countOrFormat),
    UInt8.ofNat packetType,
    UInt8.ofNat ((payloadSizeIn32bit >>> 8) &&& 0xFF),
    UInt8.ofNat (payloadSizeIn32bit &&& 0xFF)]

/-- `CommonHeader`; `payload` is the bytes from `payload_` on, `payload_size_` of them. -/
structure CommonHeader where
  packetType : UInt8
  countOrFmt : UInt8
  paddingSize : UInt8
  payload : List UInt8
  deriving DecidableEq

/-- `packet_size()`. -/
def CommonHeader.packetSize (h : CommonHeader) : Nat :=
  kRtcpCommonHeaderSize + h.payload.length + h.paddingSize.toNat

/-- `CommonHeader::Parse(buffer, size)`; `none` is `false`. -/
def CommonHeader.parse (buffer : List UInt8) : Option CommonHeader :=
  if buffer.length < kRtcpCommonHeaderSize then none
  else
    let first := buffer.getD 0 0
    if first >>> 6 ≠ 2 then none
    else
      let hasPadding := first &&& 0x20 != 0
      let payloadSize := readBigEndian 2 (buffer.drop 2) * 4
      if buffer.length < kRtcpCommonHeaderSize + payloadSize then none
      else
        let payload := (buffer.drop kRtcpCommonHeaderSize).take payloadSize
        let header (paddingSize : UInt8) : CommonHeader :=
          { packetType := buffer.getD 1 0
            countOrFmt := first &&& 0x1F
            paddingSize := paddingSize
            payload := payload.take (payloadSize - paddingSize.toNat) }
        if hasPadding then
          if payloadSize = 0 then none
          else
            -- the last byte in the payload
            let paddingSize := payload.getD (payloadSize - 1) 0
            if paddingSize = 0 then none
            else if payloadSize < paddingSize.toNat then none
            else some (header paddingSize)
        else some (header 0)

/-- The padding of a packet: zeros, and its own length in the last byte. -/
def padding (size : Nat) : List UInt8 :=
  if size = 0 then [] else List.replicate (size - 1) 0 ++ [UInt8.ofNat size]

@[simp] theorem length_padding (size : Nat) : (padding size).length = size := by
  unfold padding
  split_ifs with h
  · simp [h]
  · simp
    omega

@[simp] theorem length_packCommonHeader (countOrFormat packetType payloadSize : Nat)
    (pad : Bool) : (packCommonHeader countOrFormat packetType payloadSize pad).length = 4 := rfl

theorem first_byte {fmt : Nat} (hfmt : fmt < 32) (pad : Bool) :
    let first := UInt8.ofNat ((2 <<< 6) ||| (if pad then 1 <<< 5 else 0) ||| fmt)
    first >>> 6 = 2 ∧ (first &&& 0x20 != 0) = pad ∧ first &&& 0x1F = UInt8.ofNat fmt := by
  revert fmt pad
  decide

theorem length_bytes (words : Nat) (rest : List UInt8) :
    readBigEndian 2 (UInt8.ofNat ((words >>> 8) &&& 0xFF) :: UInt8.ofNat (words &&& 0xFF) :: rest) =
      words % 2 ^ 16 := by
  have hwrite : UInt8.ofNat ((words >>> 8) &&& 0xFF) :: UInt8.ofNat (words &&& 0xFF) :: rest =
      writeBigEndian 2 words ++ rest := by
    have hcut : ∀ n : Nat, UInt8.ofNat (n &&& 0xFF) = UInt8.ofNat n := by
      intro n
      apply UInt8.toNat_inj.mp
      rw [Nat.and_two_pow_sub_one_eq_mod n 8]
      simp
    simp [writeBigEndian, List.range_succ, BitField.place, hcut]
  rw [hwrite, readBigEndian_write]

theorem last_byte (payload : List UInt8) {size : Nat} (hpos : 0 < size) :
    (payload ++ padding size).getD (payload.length + size - 1) 0 = UInt8.ofNat size := by
  have hne : size ≠ 0 := by omega
  have hsub : payload.length + size - 1 - payload.length = size - 1 := by omega
  rw [List.getD_append_right _ _ _ _ (by omega), hsub, padding, if_neg hne,
    List.getD_append_right _ _ _ _ (by simp)]
  simp

/-- **A packet written is read back.**  The payload comes back without the padding,
whichever bytes follow the packet in the buffer. -/
theorem parse_packCommonHeader {fmt type padSize : Nat} {payload rest : List UInt8}
    (hfmt : fmt < 32) (hpad : padSize < 256)
    (halign : (payload.length + padSize) % 4 = 0)
    (hlen : payload.length + padSize < 2 ^ 18) :
    CommonHeader.parse (packCommonHeader fmt type (payload.length + padSize) (decide (0 < padSize))
      ++ payload ++ padding padSize ++ rest) =
      some { packetType := UInt8.ofNat type
             countOrFmt := UInt8.ofNat fmt
             paddingSize := UInt8.ofNat padSize
             payload := payload } := by
  obtain ⟨hversion, hpadbit, hfmtbits⟩ := first_byte hfmt (decide (0 < padSize))
  have hsize : (payload.length + padSize) / 4 % 2 ^ 16 * 4 = payload.length + padSize := by omega
  have hbody : (payload ++ padding padSize).length = payload.length + padSize := by simp
  have hbuffer : ¬(packCommonHeader fmt type (payload.length + padSize) (decide (0 < padSize))
      ++ payload ++ padding padSize ++ rest).length <
      kRtcpCommonHeaderSize + (payload.length + padSize) := by
    simp [kRtcpCommonHeaderSize]
  simp only [packCommonHeader, List.cons_append, List.nil_append] at hbuffer ⊢
  unfold CommonHeader.parse
  rw [if_neg (by simp [kRtcpCommonHeaderSize])]
  simp only [List.getD_cons_zero, List.getD_cons_succ, List.drop_succ_cons, List.drop_zero,
    length_bytes, hsize, kRtcpCommonHeaderSize, hpadbit, hfmtbits] at hbuffer ⊢
  rw [if_neg (not_not.mpr hversion), if_neg hbuffer, List.take_left' hbody]
  by_cases hpos : 0 < padSize
  · have hbyte : (UInt8.ofNat padSize).toNat = padSize := UInt8.toNat_ofNat_of_lt hpad
    have hne : UInt8.ofNat padSize ≠ 0 := by
      intro h0
      rw [h0] at hbyte
      simp at hbyte
      omega
    rw [if_pos (by simpa using hpos), if_neg (by omega), last_byte payload hpos, if_neg hne, hbyte,
      if_neg (by omega), Nat.add_sub_cancel, List.take_left' rfl]
  · have hzero : padSize = 0 := by omega
    subst hzero
    simp [padding]

end NaiveRtc.Rtcp
