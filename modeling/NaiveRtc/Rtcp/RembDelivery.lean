import NaiveRtc.Lib.Mantissa
import NaiveRtc.Rtcp.HeldBytes
import NaiveRtc.Rtcp.ReportReceiver

/-!
# Bitrates from one side to the other

A bitrate is written with the top bits that it has room for, in `Remb` and in `TmmbItem`, and read
as it was written.  The receiver then keeps it in 32 bits.

* `scaleDown_eq` — the loop of `PackInto` finds the top bits.
* `TmmbItem.parse`, `TmmbItem.parse_bytes` — `Parse` of the item, and what it makes of one that was
  written.
* `Remb.parse_payload`, `Remb.packetBlocks_bytes` — the same for `Remb`, and for the packet that it
  makes.
* `ReportedTop`, `RembDelivered` — what the bandwidth observer is to hear.
* `remb_delivery_iff` — the bitrates for which it hears that.
-/

namespace NaiveRtc.Rtcp

open ByteIo Mantissa Reading PackState

/-! ## Mantissa and exponent -/

theorem scaleDown_eq (count n : Nat) :
    scaleDown (2 ^ count - 1) n = (mantissa count n, exponent count n) := by
  have hpos := Nat.two_pow_pos count
  induction n using Nat.strong_induction_on with
  | _ n ih =>
    rw [scaleDown]
    by_cases hlarge : 2 ^ count ≤ n
    · obtain ⟨hexponent, hmantissa⟩ := exponent_half hlarge
      rw [if_pos (by omega), Nat.shiftRight_one, ih (n / 2) (by omega), hexponent, hmantissa]
    · have hsmall := not_le.1 hlarge
      rw [if_neg (by omega), mantissa, exponent_eq_zero hsmall, pow_zero, Nat.div_one]

theorem shift_mantissa (count : Nat) (bitrate : BitVec 64) :
    BitVec.ofNat 64 (mantissa count bitrate.toNat) <<< exponent count bitrate.toNat =
        BitVec.ofNat 64 (top count bitrate.toNat) ∧
      BitVec.ofNat 64 (top count bitrate.toNat) >>> exponent count bitrate.toNat =
        BitVec.ofNat 64 (mantissa count bitrate.toNat) := by
  have htop : top count bitrate.toNat < 2 ^ 64 :=
    lt_of_le_of_lt (top_le count bitrate.toNat) bitrate.isLt
  have hmantissa : mantissa count bitrate.toNat < 2 ^ 64 := by
    refine lt_of_le_of_lt ?_ bitrate.isLt
    exact Nat.div_le_self _ _
  constructor
  · apply BitVec.eq_of_toNat_eq
    rw [BitVec.toNat_shiftLeft, BitVec.toNat_ofNat, BitVec.toNat_ofNat, Nat.mod_eq_of_lt hmantissa,
      Nat.shiftLeft_eq]
    rfl
  · apply BitVec.eq_of_toNat_eq
    rw [BitVec.toNat_ushiftRight, BitVec.toNat_ofNat, BitVec.toNat_ofNat, Nat.mod_eq_of_lt htop,
      Nat.mod_eq_of_lt hmantissa, Nat.shiftRight_eq_div_pow, top,
      Nat.mul_div_cancel _ (Nat.two_pow_pos _)]

theorem exponent_le (count : Nat) (bitrate : BitVec 64) :
    exponent count bitrate.toNat ≤ 64 - count := by
  have hsize : bitrate.toNat.size ≤ 64 := Nat.size_le.2 bitrate.isLt
  unfold exponent
  omega

/-! ## Items of bitrate requests -/

namespace TmmbItem

/-- `TmmbItem(ssrc, bitrate_bps, overhead)`, with the bound that it asserts. -/
def create (ssrc : U32) (bitrateBps : BitVec 64) (overhead : Fin 0x200) : TmmbItem :=
  ⟨ssrc, bitrateBps, BitVec.ofNat 16 overhead⟩

/-- `Parse(buffer)`; `none` is `false`. -/
def parse (buffer : List UInt8) : Option TmmbItem :=
  let ssrc : U32 := BitVec.ofNat 32 (readBigEndian 4 buffer)
  let compact := readBigEndian 4 (buffer.drop 4)
  let exponent := compact >>> 26
  let mantissa : BitVec 64 := BitVec.ofNat 64 ((compact >>> 9) &&& 0x1ffff)
  let overhead : U16 := BitVec.ofNat 16 (compact &&& 0x1ff)
  let bitrateBps := mantissa <<< exponent
  if bitrateBps >>> exponent ≠ mantissa then none else some ⟨ssrc, bitrateBps, overhead⟩

theorem compact_fields {exponent mantissa overhead : Nat}
    (hmantissa : mantissa < 2 ^ 17) (hoverhead : overhead < 2 ^ 9) :
    ((exponent <<< 26) ||| (mantissa <<< 9) ||| overhead) =
      exponent * 2 ^ 26 + mantissa * 2 ^ 9 + overhead := by
  rw [Nat.lor_assoc, ← Nat.shiftLeft_add_eq_or_of_lt hoverhead, Nat.shiftLeft_eq mantissa,
    ← Nat.shiftLeft_add_eq_or_of_lt (by omega), Nat.shiftLeft_eq, Nat.add_assoc]

theorem parse_bytes (ssrc : U32) (bitrateBps : BitVec 64) (overhead : Fin 0x200)
    (rest : List UInt8) : parse ((create ssrc bitrateBps overhead).bytes ++ rest) =
      some ⟨ssrc, BitVec.ofNat 64 (top 17 bitrateBps.toNat), BitVec.ofNat 16 overhead⟩ := by
  obtain ⟨hleft, hright⟩ := shift_mantissa 17 bitrateBps
  have hexponent := exponent_le 17 bitrateBps
  have hmantissa := mantissa_lt 17 bitrateBps.toNat
  have hscale : scaleDown kMaxMantissa bitrateBps.toNat = _ := scaleDown_eq 17 bitrateBps.toNat
  have hoverhead : (BitVec.ofNat 16 (overhead : Nat)).toNat = overhead := by
    rw [BitVec.toNat_ofNat, Nat.mod_eq_of_lt (by omega)]
  generalize hm : mantissa 17 bitrateBps.toNat = m at *
  generalize he : exponent 17 bitrateBps.toNat = e at *
  have hcompact := @compact_fields e m overhead hmantissa overhead.isLt
  have hbytes : (create ssrc bitrateBps overhead).bytes ++ rest =
      writeBigEndian 4 ssrc.toNat ++
        (writeBigEndian 4 (e * 2 ^ 26 + m * 2 ^ 9 + overhead) ++ rest) := by
    unfold bytes create
    dsimp only
    rw [hscale, hoverhead]
    dsimp only
    rw [hcompact, List.append_assoc]
  have hword := readBigEndian_write 4 (e * 2 ^ 26 + m * 2 ^ 9 + overhead) rest
  have hlt := overhead.isLt
  rw [Nat.mod_eq_of_lt (by omega)] at hword
  have hfields : (e * 2 ^ 26 + m * 2 ^ 9 + overhead) >>> 26 = e ∧
      ((e * 2 ^ 26 + m * 2 ^ 9 + overhead) >>> 9) &&& 0x1ffff = m ∧
      (e * 2 ^ 26 + m * 2 ^ 9 + overhead) &&& 0x1ff = overhead := by
    rw [show 0x1ffff = 2 ^ 17 - 1 by rfl, show 0x1ff = 2 ^ 9 - 1 by rfl,
      Nat.and_two_pow_sub_one_eq_mod, Nat.and_two_pow_sub_one_eq_mod, Nat.shiftRight_eq_div_pow,
      Nat.shiftRight_eq_div_pow]
    omega
  unfold parse
  rw [hbytes, readBigEndian_write, Nat.mod_eq_of_lt ssrc.isLt,
    List.drop_left' (length_writeBigEndian 4 _), hword]
  dsimp only
  rw [hfields.1, hfields.2.1, hfields.2.2, hleft, if_neg (not_not.2 hright), BitVec.ofNat_toNat,
    BitVec.setWidth_eq]

end TmmbItem

/-! ## REMB -/

namespace Remb

/-- A REMB with the bitrate of `set_bitrate_bps` and the SSRCs that `set_ssrcs` accepted.  Its
media SSRC cannot be set. -/
def create (senderSsrc : U32) (bitrateBps : BitVec 64)
    (ssrcs : { ssrcs : List U32 // ssrcs.length ≤ 0xff }) : Remb :=
  ⟨senderSsrc, 0, bitrateBps.toInt, ssrcs, ssrcs.property⟩

/-- The packet behind its common header. -/
def payload (r : Remb) : List UInt8 :=
  writeBigEndian 4 r.senderSsrc.toNat ++ (writeBigEndian 4 r.mediaSsrc.toNat ++
    (writeBigEndian 4 kUniqueIdentifier ++
      (r.bitrateBytes ++ r.ssrcs.flatMap fun ssrc => writeBigEndian 4 ssrc.toNat)))

theorem length_payload (r : Remb) : r.payload.length = 16 + 4 * r.ssrcs.length := by
  simp only [payload, List.length_append, length_writeBigEndian, length_bitrateBytes,
    length_flatMap_of_length (fun ssrc : U32 => length_writeBigEndian 4 ssrc.toNat)]
  omega

theorem bytes_eq (r : Remb) :
    r.bytes =
      packCommonHeader kAfbMessageType kPsfbPacketType r.payload.length false ++ r.payload := by
  have hsize : r.packetSize - kRtcpCommonHeaderSize = r.payload.length := by
    rw [length_payload]
    unfold packetSize kRtcpCommonHeaderSize kCommonFeedbackSize
    omega
  unfold bytes
  rw [hsize, payload, packCommonFeedback]
  simp only [List.append_assoc]

theorem bitrateBytes_create (senderSsrc : U32) (bitrateBps : BitVec 64)
    (ssrcs : { ssrcs : List U32 // ssrcs.length ≤ 0xff }) :
    (create senderSsrc bitrateBps ssrcs).bitrateBytes =
      UInt8.ofNat ssrcs.val.length ::
        UInt8.ofNat (exponent 18 bitrateBps.toNat * 4 + mantissa 18 bitrateBps.toNat / 2 ^ 16) ::
          writeBigEndian 2 (mantissa 18 bitrateBps.toNat % 2 ^ 16) := by
  have hscale : scaleDown kMaxMantissa bitrateBps.toNat = _ := scaleDown_eq 18 bitrateBps.toNat
  have hmantissa := mantissa_lt 18 bitrateBps.toNat
  unfold bitrateBytes create
  rw [BitVec.ofInt_toInt, hscale]
  dsimp only
  rw [Nat.shiftRight_eq_div_pow, ← Nat.shiftLeft_add_eq_or_of_lt (by omega), Nat.shiftLeft_eq,
    show 0xFFFF = 2 ^ 16 - 1 by rfl, Nat.and_two_pow_sub_one_eq_mod]
  rfl

theorem byte_fields {high low : Nat} (hhigh : high < 64) (hlow : low < 4) :
    (UInt8.ofNat (high * 4 + low) >>> 2).toNat = high ∧
      (UInt8.ofNat (high * 4 + low) &&& 0x03).toNat = low := by
  have hbyte : (UInt8.ofNat (high * 4 + low)).toNat = high * 4 + low :=
    UInt8.toNat_ofNat_of_lt (by show high * 4 + low < 256; omega)
  constructor
  · rw [UInt8.toNat_shiftRight, hbyte]
    show (high * 4 + low) >>> 2 = high
    rw [Nat.shiftRight_eq_div_pow]
    omega
  · rw [UInt8.toNat_and, hbyte]
    show (high * 4 + low) &&& 2 ^ 2 - 1 = low
    rw [Nat.and_two_pow_sub_one_eq_mod]
    omega

theorem join_mantissa {m : Nat} (h : m < 2 ^ 18) :
    BitVec.ofNat 64 ((m / 2 ^ 16) <<< 16) ||| (BitVec.ofNat 16 (m % 2 ^ 16)).setWidth 64 =
      BitVec.ofNat 64 m := by
  have hlow : m % 2 ^ 16 < 2 ^ 16 := Nat.mod_lt _ (by decide)
  apply BitVec.eq_of_toNat_eq
  rw [BitVec.toNat_or, BitVec.toNat_setWidth, BitVec.toNat_ofNat, BitVec.toNat_ofNat,
    BitVec.toNat_ofNat, Nat.shiftLeft_eq, Nat.mod_eq_of_lt hlow,
    Nat.mod_eq_of_lt (show m / 2 ^ 16 * 2 ^ 16 < 2 ^ 64 by omega),
    Nat.mod_eq_of_lt (show m % 2 ^ 16 < 2 ^ 64 by omega), ← Nat.shiftLeft_eq,
    ← Nat.shiftLeft_add_eq_or_of_lt hlow, Nat.shiftLeft_eq,
    Nat.mod_eq_of_lt (show m < 2 ^ 64 by omega)]
  omega

section Memory

variable {start : Nat} {mem : Nat → UInt8} {h : BlockHeader start}

theorem parse_payload (senderSsrc : U32) (bitrateBps : BitVec 64)
    (ssrcs : { ssrcs : List U32 // ssrcs.length ≤ 0xff })
    (htype : h.packetType.toNat = kPsfbPacketType) (hformat : h.countOrFmt.toNat = kAfbMessageType)
    (hsize : h.payloadSize = (create senderSsrc bitrateBps ssrcs).payload.length)
    (hheld : HeldAt mem h.payload (create senderSsrc bitrateBps ssrcs).payload) :
    (parse h).value mem = some (create senderSsrc
      (BitVec.ofNat 64 (top 18 bitrateBps.toNat)) ssrcs) := by
  have hcount : (UInt8.ofNat ssrcs.val.length).toNat = ssrcs.val.length :=
    UInt8.toNat_ofNat_of_lt (Nat.lt_succ_of_le ssrcs.property)
  have hmantissa := mantissa_lt 18 bitrateBps.toNat
  have hexponent := exponent_le 18 bitrateBps
  obtain ⟨hleft, hright⟩ := shift_mantissa 18 bitrateBps
  rw [length_payload] at hsize
  change h.payloadSize = 16 + 4 * ssrcs.val.length at hsize
  rw [payload, bitrateBytes_create, List.cons_append, List.cons_append] at hheld
  simp only [heldAt_append, heldAt_cons, length_writeBigEndian, Nat.add_assoc, Nat.reduceAdd]
    at hheld
  generalize mantissa 18 bitrateBps.toNat = m at *
  generalize exponent 18 bitrateBps.toNat = e at *
  obtain ⟨hsender, hmedia, hidentifier, hnumber, hexponentByte, hmantissaWord, hssrcs⟩ := hheld
  obtain ⟨hhigh, hlow⟩ := @byte_fields e (m / 2 ^ 16) (by omega) (by omega)
  have hcommon : (parseCommonFeedback h.payload).value mem = (senderSsrc, 0) := by
    unfold parseCommonFeedback
    rw [value_bind, value_bind, value_pure, hsender.readU32, HeldAt.readU32 hmedia]
    rfl
  have hremb : ((readU32 (h.payload + 8)).value mem).toNat = kUniqueIdentifier := by
    rw [@HeldAt.readU32 mem _ (BitVec.ofNat 32 kUniqueIdentifier) hidentifier]
    rfl
  have hword : (readU16 (h.payload + 14)).value mem = BitVec.ofNat 16 (m % 2 ^ 16) := by
    apply BitVec.eq_of_toNat_eq
    rw [hmantissaWord.readU16, BitVec.toNat_ofNat]
  have hnumber' : (mem (h.payload + 12)).toNat = ssrcs.val.length := by rw [hnumber, hcount]
  have hlist : ((collect (fun i => readU32 (h.payload + 16 + i * 4))
      (mem (h.payload + 12)).toNat).value mem).toList = ssrcs.val := by
    refine HeldAt.collect hssrcs (fun ssrc => length_writeBigEndian 4 ssrc.toNat) hnumber' ?_
    exact fun i ssrc _ hheld => hheld.readU32
  unfold parse
  rw [value_ite, if_neg (not_not.2 htype), value_ite, if_neg (not_not.2 hformat), value_ite,
    if_neg (by unfold kRembBaseSize; omega), value_bind, value_ite, if_neg (not_not.2 hremb.symm),
    value_bind, value_byte, value_ite, if_neg (by unfold kCommonFeedbackSize; omega), value_bind,
    hcommon, value_bind, value_byte, hexponentByte, value_bind, hword, hhigh, hlow,
    join_mantissa hmantissa]
  dsimp only
  rw [value_ite, hleft, if_neg (not_not.2 hright), value_bind, value_pure]
  unfold create
  rw [Option.some.injEq, Remb.mk.injEq]
  exact ⟨rfl, rfl, rfl, hlist⟩

end Memory

theorem packInto_slice {r : Remb} (hr : r.WellFormed) {hasCallback : Bool} {maxSize fuel : Nat}
    {st st' : PackState} (hbuffer : maxSize ≤ st.buffer.length)
    (hpack : r.packInto hasCallback maxSize fuel st = some (true, st')) :
    (st'.buffer.take st'.index).drop (st'.index - r.packetSize) = r.bytes := by
  unfold packInto packUnsplit at hpack
  cases hroom : st.flushUntilRoom hasCallback r.packetSize maxSize fuel with
  | none => rw [hroom] at hpack; cases hpack
  | some outcome =>
    rw [hroom] at hpack
    obtain ⟨accepted, ready⟩ := outcome
    have houtcome := flushUntilRoom_of_some hroom
    cases accepted with
    | false => cases hpack
    | true =>
      have hready : ready.index + r.packetSize ≤ ready.buffer.length := by
        unfold roomOutcome at houtcome
        split_ifs at houtcome with hfits hflush
        · cases houtcome
          omega
        · injection houtcome with hdecide hflushed
          have hsize := of_decide_eq_true hdecide.symm
          rw [hflushed]
          show 0 + r.packetSize ≤ st.buffer.length
          omega
        · cases houtcome
      rw [Option.some.injEq] at hpack
      change r.packBody ready = (true, st') at hpack
      rw [packBody_eq hr (by omega), Prod.mk.injEq] at hpack
      have hslice := slice_write ready r.bytes (by rw [length_bytes]; exact hready)
      rw [← hpack.2, List.drop_take]
      have hplace : (ready.write r.bytes).index - r.packetSize = ready.index := by
        rw [index_write, length_bytes]
        omega
      rw [hplace]
      exact hslice

theorem packetBlocks_bytes (senderSsrc : U32) (bitrateBps : BitVec 64)
    (ssrcs : { ssrcs : List U32 // ssrcs.length ≤ 0xff }) :
    ReportReceiver.packetBlocks (create senderSsrc bitrateBps ssrcs).bytes =
      [.remb (create senderSsrc (BitVec.ofNat 64 (top 18 bitrateBps.toNat)) ssrcs)] := by
  have hpayload : (create senderSsrc bitrateBps ssrcs).payload.length =
      16 + 4 * ssrcs.val.length := length_payload _
  have hssrcs := ssrcs.property
  have hlength : (packCommonHeader kAfbMessageType kPsfbPacketType
      (create senderSsrc bitrateBps ssrcs).payload.length false ++
        (create senderSsrc bitrateBps ssrcs).payload).length =
      kRtcpCommonHeaderSize + (create senderSsrc bitrateBps ssrcs).payload.length := by
    rw [List.length_append, length_packCommonHeader]
    rfl
  have hheld := heldAt_memoryOf (create senderSsrc bitrateBps ssrcs).bytes []
  rw [List.append_nil, bytes_eq] at hheld
  rw [bytes_eq]
  obtain ⟨h, hparse, htype, hformat, hsize, hnext, hpayloadHeld⟩ := BlockHeader.parse_held
    hheld (Nat.le_of_eq hlength.symm) (by decide) (by decide) (by omega) (by omega)
  refine ReportReceiver.packetBlocks_single hparse ?_ ?_
  · rw [hnext, hlength, Nat.zero_add]
  · have hremb := parse_payload senderSsrc bitrateBps ssrcs htype hformat hsize hpayloadHeld
    unfold parseBlock
    rw [htype, if_neg (by decide), if_neg (by decide), if_neg (by decide), if_neg (by decide),
      if_neg (by decide), if_neg (by decide), if_pos rfl]
    unfold parsePsfb
    rw [hformat, if_neg (by decide), if_neg (by decide), if_pos rfl]
    unfold parseAfb parseAs
    rw [value_bind, value_bind]
    change (Remb.parse h).value (fun address => List.getD _ address 0) = _ at hremb
    rw [hremb]
    rfl

end Remb

/-! ## What is reported -/

/-- A bitrate is reported with its top bits: it is not more than it was, less than one part of
`2 ^ (count - 1)` is missing, and nothing is when it has no more bits than that. -/
structure ReportedTop (count bitrate reported : Nat) : Prop where
  eq_top : reported = top count bitrate
  le : reported ≤ bitrate
  near : 0 < bitrate → bitrate * (2 ^ (count - 1) - 1) < reported * 2 ^ (count - 1)
  exact : bitrate < 2 ^ count → reported = bitrate

theorem reportedTop (count : Nat) (hcount : 0 < count) (bitrate : Nat) :
    ReportedTop count bitrate (top count bitrate) :=
  ⟨rfl, top_le count bitrate, lt_top hcount, top_eq_self⟩

/-- A REMB that was packed, anywhere in a buffer, is parsed with its SSRCs and with the top 18 bits
of its bitrate, and the bandwidth observer hears these. -/
def RembDelivered (toNtp : Int → NtpTime) (now : Int) (receiver : ReportReceiver) (senderSsrc : U32)
    (bitrateBps : BitVec 64) (ssrcs : { ssrcs : List U32 // ssrcs.length ≤ 0xff }) : Prop :=
  ∀ (hasCallback : Bool) (maxSize fuel : Nat) (st st' : PackState), maxSize ≤ st.buffer.length →
    (Remb.create senderSsrc bitrateBps ssrcs).packInto hasCallback maxSize fuel st =
      some (true, st') →
    let packet := (st'.buffer.take st'.index).drop
      (st'.index - (Remb.create senderSsrc bitrateBps ssrcs).packetSize)
    ∃ (parsed : BitVec 64) (reported : U32),
      ReportReceiver.packetBlocks packet = [.remb (Remb.create senderSsrc parsed ssrcs)] ∧
      receiver.incomingRtcpPacket toNtp now packet =
        (receiver, [.onReceivedEstimatedBitrateBps reported]) ∧
      ReportedTop 18 bitrateBps.toNat parsed.toNat ∧
      ReportedTop 18 bitrateBps.toNat reported.toNat

/-- A bitrate request keeps its SSRC and its overhead, and the top 17 bits of its bitrate. -/
def TmmbItemKept (ssrc : U32) (bitrateBps : BitVec 64) (overhead : Fin 0x200) : Prop :=
  ∀ (size : Nat) (rest : List UInt8), TmmbItem.kFixedTmmbItemSize ≤ size →
    ∃ (bytes : List UInt8) (item : TmmbItem),
      (TmmbItem.create ssrc bitrateBps overhead).packInto size = some bytes ∧
      TmmbItem.parse (bytes ++ rest) = some item ∧ item.ssrc = ssrc ∧
      item.packetOverhead = BitVec.ofNat 16 overhead ∧
      ReportedTop 17 bitrateBps.toNat item.bitrateBps.toNat

theorem toNat_top (count : Nat) (bitrateBps : BitVec 64) :
    (BitVec.ofNat 64 (top count bitrateBps.toNat)).toNat = top count bitrateBps.toNat := by
  rw [BitVec.toNat_ofNat,
    Nat.mod_eq_of_lt (lt_of_le_of_lt (top_le count bitrateBps.toNat) bitrateBps.isLt)]

theorem tmmbItemKept (ssrc : U32) (bitrateBps : BitVec 64) (overhead : Fin 0x200) :
    TmmbItemKept ssrc bitrateBps overhead := by
  intro size rest hsize
  refine ⟨_, _, TmmbItem.packInto_of_le _ size hsize, TmmbItem.parse_bytes ssrc bitrateBps overhead
    rest, rfl, rfl, ?_⟩
  rw [toNat_top]
  exact reportedTop 17 (by decide) _

theorem incomingRtcpPacket_bytes (toNtp : Int → NtpTime) (now : Int) (receiver : ReportReceiver)
    (senderSsrc : U32) (bitrateBps : BitVec 64)
    (ssrcs : { ssrcs : List U32 // ssrcs.length ≤ 0xff }) :
    receiver.incomingRtcpPacket toNtp now (Remb.create senderSsrc bitrateBps ssrcs).bytes =
      (receiver, [.onReceivedEstimatedBitrateBps
        (BitVec.ofNat 32 (top 18 bitrateBps.toNat))]) := by
  have hnarrow : BitVec.ofInt 32 (BitVec.ofNat 64 (top 18 bitrateBps.toNat)).toInt =
      BitVec.ofNat 32 (top 18 bitrateBps.toNat) := by
    rw [← BitVec.signExtend, BitVec.signExtend_eq_setWidth_of_le _ (by decide),
      BitVec.setWidth_ofNat_of_le (by decide)]
  rw [ReportReceiver.incomingRtcpPacket_eq, Remb.packetBlocks_bytes]
  unfold ReportReceiver.handleBlocks
  rw [List.foldl_cons, List.foldl_nil]
  dsimp only [ReportReceiver.handleBlock, ReportReceiver.parseAfb, Remb.create]
  rw [hnarrow]
  rfl

theorem packInto_fresh (r : Remb) (hr : r.WellFormed) :
    ∃ st', r.packInto false r.packetSize 1 ⟨List.replicate r.packetSize 0, 0, []⟩ =
      some (true, st') := by
  refine ⟨PackState.write ⟨List.replicate r.packetSize 0, 0, []⟩ r.bytes, ?_⟩
  have hroom : PackState.flushUntilRoom false r.packetSize r.packetSize 1
      ⟨List.replicate r.packetSize 0, 0, []⟩ =
        some (true, ⟨List.replicate r.packetSize 0, 0, []⟩) := by
    unfold PackState.flushUntilRoom
    rw [if_neg (not_lt.2 (Nat.le_of_eq (Nat.zero_add _)))]
  unfold Remb.packInto packUnsplit
  rw [hroom]
  exact congrArg some (Remb.packBody_eq hr (Nat.zero_le _))

theorem RembDelivered.lt {toNtp : Int → NtpTime} {now : Int} {receiver : ReportReceiver}
    {senderSsrc : U32} {bitrateBps : BitVec 64}
    {ssrcs : { ssrcs : List U32 // ssrcs.length ≤ 0xff }}
    (h : RembDelivered toNtp now receiver senderSsrc bitrateBps ssrcs) :
    bitrateBps.toNat < 2 ^ 32 := by
  obtain ⟨st', hpack⟩ := packInto_fresh (Remb.create senderSsrc bitrateBps ssrcs) rfl
  obtain ⟨_, reported, -, -, -, hreported⟩ :=
    h false _ 1 _ st' (by rw [List.length_replicate]) hpack
  have hlt := reported.isLt
  rw [hreported.eq_top] at hlt
  exact (top_lt_pow_iff (by decide) (by decide)).1 hlt

/-- **A bitrate is reported with its top bits as long as it has no more than 32 of them.**  A larger
one reaches the observer modulo `2 ^ 32`; what is parsed, and what is read of a bitrate request, is
right for every bitrate. -/
theorem remb_delivery_iff (toNtp : Int → NtpTime) (now : Int) (receiver : ReportReceiver)
    (senderSsrc : U32) (bitrateBps : BitVec 64)
    (ssrcs : { ssrcs : List U32 // ssrcs.length ≤ 0xff }) (ssrc : U32) (overhead : Fin 0x200) :
    (RembDelivered toNtp now receiver senderSsrc bitrateBps ssrcs ∧
      TmmbItemKept ssrc bitrateBps overhead) ↔ bitrateBps.toNat < 2 ^ 32 := by
  have hwell : (Remb.create senderSsrc bitrateBps ssrcs).WellFormed := rfl
  constructor
  · exact fun h => h.1.lt
  · intro hsmall
    refine ⟨fun hasCallback maxSize fuel st st' hbuffer hpack => ?_,
      tmmbItemKept ssrc bitrateBps overhead⟩
    dsimp only
    rw [Remb.packInto_slice hwell hbuffer hpack]
    refine ⟨_, _, Remb.packetBlocks_bytes senderSsrc bitrateBps ssrcs,
      incomingRtcpPacket_bytes toNtp now receiver senderSsrc bitrateBps ssrcs, ?_, ?_⟩
    · rw [toNat_top]
      exact reportedTop 18 (by decide) _
    · rw [BitVec.toNat_ofNat,
        Nat.mod_eq_of_lt (lt_of_le_of_lt (top_le 18 bitrateBps.toNat) hsmall)]
      exact reportedTop 18 (by decide) _

/-- The first bitrate with more than 32 bits is not heard. -/
theorem not_rembDelivered_large :
    ¬ (RembDelivered (fun _ => ⟨0, by decide⟩) 0
        (ReportReceiver.create ⟨false, false, 1000, 1, none, none⟩) 2 (BitVec.ofNat 64 (2 ^ 32))
        ⟨[3], by decide⟩ ∧
      TmmbItemKept 3 (BitVec.ofNat 64 (2 ^ 32)) 40) :=
  fun h => absurd h.1.lt (by decide)

end NaiveRtc.Rtcp
