import NaiveRtc.Rtcp.BlockHeader

/-!
# Reading what was written

A memory holds the bytes that were written, and the programs that read it find the values that the
bytes were written for.

* `HeldAt` — a memory holds bytes from an address on; `heldAt_append` takes them apart.
* `HeldAt.readU32` and its companions — what is read of one value; `HeldAt.collect` for values of
  the same size in a row.
* `BlockHeader.parse_held` — the header of a packet without padding.
* `readPacket` — a packet as a byte string, header first.
-/

namespace NaiveRtc.Rtcp

open ByteIo Reading

/-- The memory holds the bytes from an address on. -/
def HeldAt (mem : Nat → UInt8) (start : Nat) (held : List UInt8) : Prop :=
  bytesAt mem start held.length = held

section Held

variable {mem : Nat → UInt8} {start : Nat} {held held' : List UInt8}

theorem heldAt_append :
    HeldAt mem start (held ++ held') ↔
      HeldAt mem start held ∧ HeldAt mem (start + held.length) held' := by
  have hcut : bytesAt mem start (held ++ held').length =
      bytesAt mem start held.length ++ bytesAt mem (start + held.length) held'.length := by
    have htake := @take_bytesAt mem start (held ++ held').length held.length
      (by rw [List.length_append]; omega)
    have hdrop := @drop_bytesAt mem start (held ++ held').length held.length
    rw [List.length_append, Nat.add_sub_cancel_left] at hdrop
    rw [← htake, ← hdrop, List.length_append, List.take_append_drop]
  unfold HeldAt
  rw [hcut]
  constructor
  · exact fun heq => List.append_inj heq length_bytesAt
  · rintro ⟨hfirst, hrest⟩
    rw [hfirst, hrest]

theorem heldAt_singleton {b : UInt8} : HeldAt mem start [b] ↔ mem start = b := by
  unfold HeldAt bytesAt
  rw [List.length_singleton, List.range_one, List.map_singleton, Nat.add_zero, List.cons.injEq,
    and_iff_left rfl]

theorem heldAt_cons {b : UInt8} :
    HeldAt mem start (b :: held) ↔ mem start = b ∧ HeldAt mem (start + 1) held := by
  rw [← List.singleton_append, heldAt_append, heldAt_singleton, List.length_singleton]

theorem heldAt_nil : HeldAt mem start [] := rfl

theorem heldAt_of_bytesAt {size : Nat} (h : bytesAt mem start size = held) :
    held.length = size ∧ HeldAt mem start held := by
  have hlength : held.length = size := by rw [← h, length_bytesAt]
  refine ⟨hlength, ?_⟩
  unfold HeldAt
  rw [hlength]
  exact h

/-! ## Values -/

theorem HeldAt.readUnsigned {B val : Nat} (h : HeldAt mem start (writeBigEndian B val)) :
    (Rtcp.readUnsigned B start).value mem = val % 2 ^ (8 * B) := by
  have hbytes : bytesAt mem start B = writeBigEndian B val := by
    unfold HeldAt at h
    rwa [length_writeBigEndian] at h
  rw [value_readUnsigned (Nat.le_refl B), hbytes, ← List.append_nil (writeBigEndian B val),
    readBigEndian_write]

theorem HeldAt.readU16 {val : Nat} (h : HeldAt mem start (writeBigEndian 2 val)) :
    ((Rtcp.readU16 start).value mem).toNat = val % 2 ^ 16 := by
  rw [Rtcp.readU16, value_bind, value_pure, h.readUnsigned, BitVec.toNat_ofNat, Nat.mod_mod]

theorem HeldAt.readU32 {val : U32} (h : HeldAt mem start (writeBigEndian 4 val.toNat)) :
    (Rtcp.readU32 start).value mem = val := by
  rw [Rtcp.readU32, value_bind, value_pure, h.readUnsigned, Nat.mod_eq_of_lt val.isLt,
    BitVec.ofNat_toNat, BitVec.setWidth_eq]

theorem HeldAt.bytes {count : Nat} (h : HeldAt mem start held) (hcount : count = held.length) :
    ((Reading.bytes start count).value mem).toList = held := by
  rw [value_bytes, hcount]
  exact h

theorem HeldAt.collect {α : Type} {layout : α → List UInt8} {size : Nat} {items : List α}
    {f : Nat → Reading α} {count : Nat} (h : HeldAt mem start (items.flatMap layout))
    (hlength : ∀ item, (layout item).length = size) (hcount : count = items.length)
    (hread : ∀ i item, item ∈ items → HeldAt mem (start + i * size) (layout item) →
      (f i).value mem = item) :
    ((Reading.collect f count).value mem).toList = items := by
  subst hcount
  induction items generalizing start f with
  | nil => rfl
  | cons item items ih =>
    rw [List.flatMap_cons, heldAt_append, hlength] at h
    have hfirst : (f 0).value mem = item :=
      hread 0 item List.mem_cons_self (by rw [Nat.zero_mul]; exact h.1)
    rw [List.length_cons, Reading.collect, value_bind, value_bind, value_pure,
      List.Vector.toList_cons, hfirst, ih h.2 fun i item hitem hheld => ?_]
    refine hread (i + 1) item (List.mem_cons_of_mem _ hitem) ?_
    have hplace : start + (i + 1) * size = start + size + i * size := by
      rw [Nat.add_mul, Nat.one_mul]
      omega
    rw [hplace]
    exact hheld

end Held

/-! ## Packets -/

/-- **The header of a packet without padding**, in a buffer of any size that the packet fits in. -/
theorem BlockHeader.parse_held {mem : Nat → UInt8} {start size fmt type : Nat}
    {payload : List UInt8}
    (hheld : HeldAt mem start (packCommonHeader fmt type payload.length false ++ payload))
    (hsize : kRtcpCommonHeaderSize + payload.length ≤ size) (hfmt : fmt < 32) (htype : type < 256)
    (halign : payload.length % 4 = 0) (hlength : payload.length < 2 ^ 18) :
    ∃ h : BlockHeader start, (BlockHeader.parse start size).value mem = some h ∧
      h.packetType.toNat = type ∧ h.countOrFmt.toNat = fmt ∧ h.payloadSize = payload.length ∧
      h.nextPacket = start + kRtcpCommonHeaderSize + payload.length ∧
      HeldAt mem h.payload payload := by
  have hfour : kRtcpCommonHeaderSize = 4 := rfl
  have hpacket : (packCommonHeader fmt type payload.length false ++ payload).length =
      4 + payload.length := by rw [List.length_append, length_packCommonHeader]
  have hbuffer : bytesAt mem start size = packCommonHeader fmt type payload.length false ++ payload
      ++ bytesAt mem (start + (4 + payload.length)) (size - (4 + payload.length)) := by
    have htake := @take_bytesAt mem start size (4 + payload.length) (by omega)
    unfold HeldAt at hheld
    rw [hpacket] at hheld
    rw [← hheld, ← htake, ← drop_bytesAt, List.take_append_drop]
  have hparse := @parse_packCommonHeader fmt type 0 payload
    (bytesAt mem (start + (4 + payload.length)) (size - (4 + payload.length))) hfmt (by omega)
    halign hlength
  have hheader := value_parse mem start size
  rw [Nat.add_zero] at hparse
  have hnone : padding 0 = [] := rfl
  rw [hnone, List.append_nil] at hparse
  rw [hbuffer] at hheader
  obtain ⟨h, hsome, hcommon⟩ := Option.map_eq_some_iff.1 (hheader.trans hparse)
  unfold toCommonHeader at hcommon
  injection hcommon with htype' hfmt' hpadding hpayload
  obtain ⟨hpayloadSize, hpayloadHeld⟩ := heldAt_of_bytesAt hpayload
  refine ⟨h, hsome, ?_, ?_, hpayloadSize.symm, ?_, hpayloadHeld⟩
  · rw [htype']
    exact UInt8.toNat_ofNat_of_lt htype
  · rw [hfmt']
    exact UInt8.toNat_ofNat_of_lt (show fmt < 256 by omega)
  · rw [nextPacket, hpadding, ← hpayloadSize, BlockHeader.payload]
    rfl

/-- A memory with a byte string at its start. -/
def memoryOf (held : List UInt8) : Nat → UInt8 := fun address => held.getD address 0

theorem heldAt_memoryOf (held held' : List UInt8) : HeldAt (memoryOf (held ++ held')) 0 held := by
  refine List.ext_getElem length_bytesAt fun i hi hi' => ?_
  rw [← List.getD_eq_getElem _ 0 hi, getD_bytesAt hi', memoryOf, Nat.zero_add,
    List.getD_append _ _ _ _ hi', List.getD_eq_getElem _ _ hi']

/-- `CommonHeader::Parse(buffer, size)` of a byte string, and then the parser of a packet. -/
def readPacket {α : Type} (parse : BlockHeader 0 → Reading (Option α)) (packet : List UInt8) :
    Option α :=
  ((BlockHeader.parse 0 packet.length).value (memoryOf packet)).bind fun header =>
    (parse header).value (memoryOf packet)

end NaiveRtc.Rtcp
