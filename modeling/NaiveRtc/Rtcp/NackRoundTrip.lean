import NaiveRtc.Lib.Machine
import NaiveRtc.Rtcp.Nack

/-!
# Negative acknowledgements, read back

The reading half of `rtc/rtp_rtcp/rtcp/packets/nack.cpp`, and what comes back of the sequence
numbers that were written.

* `unpackFciItem`, `Nack.unpackFciItems`, `Nack.parse` — the items, taken apart and read.
* `mem_packFciItems` — the items stand for the sequence numbers they were made of, and
  `unpack_packFciItems` for these in order, when they increase.
* `Nack.Faithful` — what is packed is what `packet_ids()` reports, and can be parsed.
* `Nack.faithful_iff` — **when that holds after every call** of `set_packet_ids`.
-/

namespace NaiveRtc.Rtcp

open ByteIo PackState

/-- The loop of `UnpackFciItems` over the bits of an item, for at most `fuel` rounds. -/
def unpackBits : Nat → U16 → U16 → List U16
  | 0, _, _ => []
  | fuel + 1, bitmask, pid =>
    if bitmask = 0 then []
    else if bitmask &&& 1 ≠ 0 then pid :: unpackBits fuel (bitmask >>> 1) (pid + 1)
    else unpackBits fuel (bitmask >>> 1) (pid + 1)

/-- The sequence numbers of an item; a bit mask is zero after 16 rounds. -/
def unpackFciItem (item : FciItem) : List U16 :=
  item.firstPid :: unpackBits 16 item.bitmask (item.firstPid + 1)

/-- The items at `next_nack`. -/
def readFciItems : Nat → List UInt8 → List FciItem
  | 0, _ => []
  | count + 1, bytes =>
    ⟨BitVec.ofNat 16 (readBigEndian 2 bytes), BitVec.ofNat 16 (readBigEndian 2 (bytes.drop 2))⟩ ::
      readFciItems count (bytes.drop Nack.kFciItemSize)

namespace Nack

/-- `Nack()`. -/
def fresh : Nack := ⟨0, 0, [], []⟩

/-- `UnpackFciItems()`. -/
def unpackFciItems (n : Nack) : Nack :=
  if n.fciItems.isEmpty then n else { n with packetIds := n.fciItems.flatMap unpackFciItem }

/-- `Rtpfb::ParseCommonFeedback(buffer, size)`. -/
def parseCommonFeedback (n : Nack) (buffer : List UInt8) (size : Nat) : Nack :=
  if size < kCommonFeedbackSize then n
  else
    { n with
      senderSsrc := BitVec.ofNat 32 (readBigEndian 4 buffer)
      mediaSsrc := BitVec.ofNat 32 (readBigEndian 4 (buffer.drop 4)) }

/-- `Parse(packet)`. -/
def parse (n : Nack) (packet : CommonHeader) : Nack × Bool :=
  if packet.packetType ≠ UInt8.ofNat kRtpfbPacketType then (n, false)
  else if packet.countOrFmt ≠ UInt8.ofNat kFeedbackMessageType then (n, false)
  else if packet.payload.length < kCommonFeedbackSize + kFciItemSize then (n, false)
  else
    let fciItemCount := (packet.payload.length - kCommonFeedbackSize) / kFciItemSize
    let n := n.parseCommonFeedback packet.payload packet.packetSize
    ({ n with
        fciItems := readFciItems fciItemCount (packet.payload.drop kCommonFeedbackSize)
        }.unpackFciItems, true)

end Nack

/-! ## Bits -/

theorem and_one_ne_zero_iff (bitmask : U16) : bitmask &&& 1 ≠ 0 ↔ bitmask.getLsbD 0 = true := by
  rw [show (1 : U16) = 1#16 from rfl, BitVec.and_one_eq_setWidth_ofBool_getLsbD]
  cases bitmask.getLsbD 0 <;> decide

theorem unpackBits_eq (fuel : Nat) (bitmask pid : U16) :
    unpackBits fuel bitmask pid = (List.range fuel).filterMap fun i =>
      if bitmask.getLsbD i then some (pid + BitVec.ofNat 16 i) else none := by
  induction fuel generalizing bitmask pid with
  | zero => rfl
  | succ fuel ih =>
    have hpid : ∀ i, pid + BitVec.ofNat 16 (i + 1) = pid + 1 + BitVec.ofNat 16 i := by
      intro i
      rw [BitVec.ofNat_add, BitVec.add_assoc, BitVec.add_comm (BitVec.ofNat 16 i)]
      rfl
    have htail : (List.range fuel).filterMap (fun i =>
        if bitmask.getLsbD (i + 1) then some (pid + BitVec.ofNat 16 (i + 1)) else none) =
        unpackBits fuel (bitmask >>> 1) (pid + 1) := by
      rw [ih]
      refine List.filterMap_congr fun i _ => ?_
      rw [hpid, BitVec.getLsbD_ushiftRight, Nat.add_comm 1 i]
    rw [List.range_succ_eq_map, List.filterMap_cons, List.filterMap_map]
    unfold unpackBits
    by_cases hzero : bitmask = 0
    · rw [if_pos hzero, hzero]
      simp
    · rw [if_neg hzero, ← htail]
      by_cases hbit : bitmask.getLsbD 0 = true
      · rw [if_pos ((and_one_ne_zero_iff bitmask).2 hbit), if_pos hbit]
        simp
      · rw [if_neg (mt (and_one_ne_zero_iff bitmask).1 hbit), if_neg hbit]
        rfl

variable {item : FciItem}

theorem mem_unpackFciItem {id : U16} :
    id ∈ unpackFciItem item ↔ id = item.firstPid ∨
      ∃ i < 16, item.bitmask.getLsbD i = true ∧ id = item.firstPid + 1 + BitVec.ofNat 16 i := by
  unfold unpackFciItem
  rw [List.mem_cons, unpackBits_eq, List.mem_filterMap]
  refine or_congr Iff.rfl (exists_congr fun i => ?_)
  rw [List.mem_range]
  by_cases hbit : item.bitmask.getLsbD i = true
  · simp [hbit, eq_comm]
  · simp [hbit]

theorem getLsbD_setBit (item : FciItem) {shift : Nat} (hshift : shift ≤ 15) (i : Nat) :
    (item.bitmask ||| (1 <<< shift : Nat)).getLsbD i =
      (item.bitmask.getLsbD i || decide (i = shift)) := by
  rw [BitVec.getLsbD_or, show ((1 <<< shift : Nat) : U16) = BitVec.ofNat 16 (1 <<< shift) from rfl,
    BitVec.getLsbD_ofNat, Nat.one_shiftLeft, Nat.testBit_two_pow]
  by_cases heq : i = shift
  · rw [heq, decide_eq_true rfl, decide_eq_true (show shift < 16 by omega)]
    rfl
  · rw [decide_eq_false heq, decide_eq_false (Ne.symm heq), Bool.and_false]

theorem add_shift (first pid : U16) :
    first + 1 + BitVec.ofNat 16 (pid - first - 1).toNat = pid := by
  rw [BitVec.ofNat_toNat, BitVec.setWidth_eq]
  bv_omega

/-! ## Items -/

/-- The item with one more bit. -/
def FciItem.setBit (item : FciItem) (shift : Nat) : FciItem :=
  { item with bitmask := item.bitmask ||| (1 <<< shift : Nat) }

theorem mem_unpack_setBit {shift : Nat} (hshift : shift ≤ 15) {id : U16} :
    id ∈ unpackFciItem (item.setBit shift) ↔
      id ∈ unpackFciItem item ∨ id = item.firstPid + 1 + BitVec.ofNat 16 shift := by
  have hbit : ∀ i, (item.setBit shift).bitmask.getLsbD i = true ↔
      item.bitmask.getLsbD i = true ∨ i = shift := by
    intro i
    rw [FciItem.setBit, getLsbD_setBit item hshift, Bool.or_eq_true, decide_eq_true_iff]
  rw [mem_unpackFciItem, mem_unpackFciItem]
  simp only [hbit]
  constructor
  · rintro (h | ⟨i, hi, hset | rfl, h⟩)
    · exact Or.inl (Or.inl h)
    · exact Or.inl (Or.inr ⟨i, hi, hset, h⟩)
    · exact Or.inr h
  · rintro ((h | ⟨i, hi, hset, h⟩) | h)
    · exact Or.inl h
    · exact Or.inr ⟨i, hi, Or.inl hset, h⟩
    · exact Or.inr ⟨shift, Nat.lt_succ_of_le hshift, Or.inr rfl, h⟩

theorem unpack_setBit {shift : Nat} (hshift : shift ≤ 15)
    (h : ∀ i, item.bitmask.getLsbD i = true → i < shift) :
    unpackFciItem (item.setBit shift) =
      unpackFciItem item ++ [item.firstPid + 1 + BitVec.ofNat 16 shift] := by
  have hrange : List.range 16 = List.range shift ++ shift ::
      (List.range (15 - shift)).map fun i => shift + (i + 1) := by
    rw [show 16 = shift + (15 - shift + 1) by omega, List.range_add, List.range_succ_eq_map,
      List.map_cons, List.map_map, Nat.add_zero]
    rfl
  unfold unpackFciItem
  rw [unpackBits_eq, unpackBits_eq, hrange, List.filterMap_append, List.filterMap_append,
    List.filterMap_cons, List.filterMap_cons]
  have hbit : ∀ i, (item.setBit shift).bitmask.getLsbD i =
      (item.bitmask.getLsbD i || decide (i = shift)) := getLsbD_setBit item hshift
  have hclear : ∀ i, shift ≤ i → item.bitmask.getLsbD i = false := by
    intro i hi
    rw [Bool.eq_false_iff]
    exact fun hset => absurd (h i hset) (by omega)
  have hbehind : ∀ (b : U16), (∀ i, shift < i → b.getLsbD i = false) →
      ((List.range (15 - shift)).map fun i => shift + (i + 1)).filterMap (fun i =>
        if b.getLsbD i then some (item.firstPid + 1 + BitVec.ofNat 16 i) else none) = [] := by
    intro b hb
    refine List.filterMap_eq_nil_iff.2 fun j hj => ?_
    obtain ⟨i, -, rfl⟩ := List.mem_map.1 hj
    rw [hb _ (by omega)]
    rfl
  have hfront : (List.range shift).filterMap (fun i =>
        if (item.setBit shift).bitmask.getLsbD i then
          some ((item.setBit shift).firstPid + 1 + BitVec.ofNat 16 i) else none) =
      (List.range shift).filterMap (fun i => if item.bitmask.getLsbD i then
          some (item.firstPid + 1 + BitVec.ofNat 16 i) else none) := by
    refine List.filterMap_congr fun i hi => ?_
    have hne : i ≠ shift := by
      have hlt := List.mem_range.1 hi
      omega
    rw [hbit, decide_eq_false hne, Bool.or_false]
    rfl
  rw [hfront, hbit, decide_eq_true rfl, Bool.or_true, if_pos rfl, hclear shift (Nat.le_refl _)]
  rw [show (item.setBit shift).firstPid = item.firstPid from rfl]
  rw [hbehind _ fun i hi => hclear i (by omega), hbehind _ fun i hi => by
    rw [hbit, hclear i (by omega), decide_eq_false (by omega)]
    rfl]
  simp

theorem packFciItems_cons (item : FciItem) (pid : U16) (ids : List U16) :
    Nack.packFciItems item (pid :: ids) =
      if (pid - item.firstPid - 1).toNat ≤ 15 then
        Nack.packFciItems (item.setBit (pid - item.firstPid - 1).toNat) ids
      else item :: Nack.packFciItems ⟨pid, 0⟩ ids := rfl

theorem mem_packFciItems {ids : List U16} {id : U16} :
    id ∈ (Nack.packFciItems item ids).flatMap unpackFciItem ↔
      id ∈ unpackFciItem item ∨ id ∈ ids := by
  induction ids generalizing item with
  | nil => simp [Nack.packFciItems]
  | cons pid ids ih =>
    rw [packFciItems_cons]
    split
    · rename_i hshift
      have hset := @mem_unpack_setBit item _ hshift id
      rw [add_shift] at hset
      rw [ih, hset, List.mem_cons, or_assoc]
    · have hitem : id ∈ unpackFciItem ⟨pid, 0⟩ ↔ id = pid := List.mem_singleton
      rw [List.flatMap_cons, List.mem_append, ih, List.mem_cons, hitem]

/-- How far behind a sequence number another is. -/
def offset (base id : U16) : Nat := (id - base).toNat

theorem unpack_packFciItems {base : U16} {ids : List U16} {last : Nat}
    (hfirst : offset base item.firstPid ≤ last)
    (hbits : ∀ i, item.bitmask.getLsbD i = true → offset base item.firstPid + 1 + i ≤ last)
    (hlast : ∀ id ∈ ids, last < offset base id)
    (hincreasing : ids.Pairwise fun a b => offset base a < offset base b) :
    (Nack.packFciItems item ids).flatMap unpackFciItem = unpackFciItem item ++ ids := by
  induction ids generalizing item last with
  | nil => simp [Nack.packFciItems]
  | cons pid ids ih =>
    obtain ⟨hpid, hids⟩ := List.pairwise_cons.1 hincreasing
    have hlt := hlast pid List.mem_cons_self
    have hoffset : (pid - item.firstPid - 1).toNat =
        offset base pid - offset base item.firstPid - 1 := by
      unfold offset at *
      bv_omega
    rw [packFciItems_cons]
    split
    · rename_i hshift
      have hbefore : ∀ i, item.bitmask.getLsbD i = true →
          i < (pid - item.firstPid - 1).toNat := by
        intro i hi
        have hle := hbits i hi
        omega
      have hunpack := unpack_setBit hshift hbefore
      rw [add_shift] at hunpack
      have hset : ∀ i, (item.setBit (pid - item.firstPid - 1).toNat).bitmask.getLsbD i = true →
          offset base (item.setBit (pid - item.firstPid - 1).toNat).firstPid + 1 + i ≤
            offset base pid := by
        intro i hi
        rw [FciItem.setBit, getLsbD_setBit item hshift, Bool.or_eq_true, decide_eq_true_iff] at hi
        rcases hi with hi | rfl
        · exact (hbits i hi).trans hlt.le
        · show offset base item.firstPid + 1 + _ ≤ _
          omega
      have hfirst' : offset base (item.setBit (pid - item.firstPid - 1).toNat).firstPid ≤
          offset base pid := hfirst.trans hlt.le
      rw [ih hfirst' hset hpid hids, hunpack, List.append_assoc]
      rfl
    · have hnone : ∀ i, (FciItem.mk pid 0).bitmask.getLsbD i = true →
          offset base pid + 1 + i ≤ offset base pid := fun i hi => by simp at hi
      rw [List.flatMap_cons, ih le_rfl hnone hpid hids]
      rfl

/-! ## Fragments -/

theorem readFciItems_flatMap (items : List FciItem) (rest : List UInt8) :
    readFciItems items.length (items.flatMap Nack.itemBytes ++ rest) = items := by
  induction items with
  | nil => rfl
  | cons item items ih =>
    have hpid : BitVec.ofNat 16 (item.firstPid.toNat % 2 ^ (8 * 2)) = item.firstPid := by
      rw [Nat.mod_eq_of_lt item.firstPid.isLt, BitVec.ofNat_toNat, BitVec.setWidth_eq]
    have hmask : BitVec.ofNat 16 (item.bitmask.toNat % 2 ^ (8 * 2)) = item.bitmask := by
      rw [Nat.mod_eq_of_lt item.bitmask.isLt, BitVec.ofNat_toNat, BitVec.setWidth_eq]
    rw [List.length_cons, readFciItems, List.flatMap_cons, List.append_assoc,
      List.drop_left' (Nack.length_itemBytes item), ih]
    unfold Nack.itemBytes
    rw [List.append_assoc, readBigEndian_write, hpid,
      List.drop_left' (length_writeBigEndian 2 _), readBigEndian_write, hmask]

/-- What a new `Nack` makes of a packet. -/
def parseNack (piece : List UInt8) : Option Nack :=
  (CommonHeader.parse piece).bind fun packet =>
    match Nack.fresh.parse packet with
    | (n, true) => some n
    | (_, false) => none

namespace Nack

theorem parseNack_fragment (n : Nack) {items : List FciItem} (hne : items ≠ [])
    (hlength : items.length < 2 ^ 16 - 2) :
    ∃ m, parseNack (n.fragment items) = some m ∧ m.packetIds = items.flatMap unpackFciItem := by
  have hitems : (items.flatMap itemBytes).length = kFciItemSize * items.length :=
    length_flatMap_of_length length_itemBytes items
  have hpayload : (packCommonFeedback n.senderSsrc n.mediaSsrc ++ items.flatMap itemBytes).length =
      kCommonFeedbackSize + kFciItemSize * items.length := by
    rw [List.length_append, length_packCommonFeedback, hitems]
  have hsize : kCommonFeedbackSize + items.length * kFciItemSize =
      (packCommonFeedback n.senderSsrc n.mediaSsrc ++ items.flatMap itemBytes).length + 0 := by
    rw [hpayload, Nat.mul_comm, Nat.add_zero]
  have hheader : CommonHeader.parse (n.fragment items) = some
      { packetType := UInt8.ofNat kRtpfbPacketType
        countOrFmt := UInt8.ofNat kFeedbackMessageType
        paddingSize := 0
        payload := packCommonFeedback n.senderSsrc n.mediaSsrc ++ items.flatMap itemBytes } := by
    have hbound : kCommonFeedbackSize + kFciItemSize * items.length < 2 ^ 18 := by
      unfold kCommonFeedbackSize kFciItemSize
      omega
    have halign : (kCommonFeedbackSize + kFciItemSize * items.length) % 4 = 0 := by
      unfold kCommonFeedbackSize kFciItemSize
      omega
    have hparse := @parse_packCommonHeader kFeedbackMessageType kRtpfbPacketType 0
      (packCommonFeedback n.senderSsrc n.mediaSsrc ++ items.flatMap itemBytes) [] (by decide)
      (by decide) (by rw [hpayload]; exact halign) (by rw [hpayload]; exact hbound)
    rw [← hsize] at hparse
    simpa [fragment, padding] using hparse
  have hdrop : (packCommonFeedback n.senderSsrc n.mediaSsrc ++ items.flatMap itemBytes).drop
      kCommonFeedbackSize = items.flatMap itemBytes ++ [] := by
    rw [List.append_nil]
    exact List.drop_left' (length_packCommonFeedback _ _)
  have hcount : (kCommonFeedbackSize + kFciItemSize * items.length - kCommonFeedbackSize) /
      kFciItemSize = items.length := by
    unfold kFciItemSize
    omega
  have hpos := List.length_pos_iff.2 hne
  have henough : ¬ kCommonFeedbackSize + kFciItemSize * items.length <
      kCommonFeedbackSize + kFciItemSize := by
    unfold kFciItemSize
    omega
  unfold parseNack
  rw [hheader, Option.bind_some]
  unfold parse
  rw [if_neg (not_not.2 rfl), if_neg (not_not.2 rfl), hpayload, if_neg henough]
  dsimp only
  rw [hcount, hdrop, readFciItems_flatMap]
  refine ⟨_, rfl, ?_⟩
  unfold unpackFciItems
  rw [if_neg (by simpa using hne)]

/-- The sequence numbers increase, wrapping around, over less than half of their range. -/
def Increasing (ids : List U16) : Prop :=
  ids.Pairwise (fun a b => offset (ids.headD 0) a < offset (ids.headD 0) b) ∧
    ∀ id ∈ ids, offset (ids.headD 0) id < 2 ^ 15

/-- **What is packed is what is reported.**  Wherever packing starts, the packets are on the
pages, none is larger than a page, and their items stand for the sequence numbers that
`packet_ids()` has.  When these increase, the packets are parsed to them, in order. -/
def Faithful (n : Nack) : Prop :=
  ∀ (maxSize fuel : Nat) (st : PackState), kNackHeaderSize + kFciItemSize ≤ maxSize →
    st.index ≤ maxSize → maxSize ≤ st.buffer.length → 2 * n.fciItems.length + 1 ≤ fuel →
    ∃ (ok : Bool) (st' : PackState) (groups : List (List FciItem)),
      n.packInto true maxSize fuel st = some (ok, st') ∧
      Placed maxSize st (groups.map n.fragment) st' ∧
      (∀ group ∈ groups, group ≠ [] ∧ (n.fragment group).length ≤ maxSize) ∧
      (∀ id, id ∈ groups.flatten.flatMap unpackFciItem ↔ id ∈ n.packetIds) ∧
      (n.packetIds ≠ [] → Increasing n.packetIds → ok = true ∧
        ∃ nacks : List Nack, (groups.map n.fragment).map parseNack = nacks.map some ∧
          nacks.flatMap packetIds = n.packetIds)

theorem Increasing.length_le {ids : List U16} (h : Increasing ids) : ids.length ≤ 2 ^ 15 := by
  have hnodup : (ids.map (offset (ids.headD 0))).Nodup :=
    List.pairwise_map.2 (h.1.imp fun hlt => ne_of_lt hlt)
  have hsub : ids.map (offset (ids.headD 0)) ⊆ List.range (2 ^ 15) := by
    intro x hx
    obtain ⟨id, hid, rfl⟩ := List.mem_map.1 hx
    exact List.mem_range.2 (h.2 id hid)
  have hle := hnodup.length_le_of_subset hsub
  rwa [List.length_map, List.length_range] at hle

theorem length_packFciItems_le (item : FciItem) (ids : List U16) :
    (packFciItems item ids).length ≤ ids.length + 1 := by
  induction ids generalizing item with
  | nil => exact le_rfl
  | cons pid ids ih =>
    rw [packFciItems_cons]
    split
    · exact (ih _).trans (Nat.le_succ _)
    · exact Nat.succ_le_succ (ih _)

theorem packInto_groups {n : Nack} (hn : n.WellFormed) {maxSize fuel : Nat} {st : PackState}
    (hsize : kNackHeaderSize + kFciItemSize ≤ maxSize) (hindex : st.index ≤ maxSize)
    (hbuffer : maxSize ≤ st.buffer.length) (hfuel : 2 * n.fciItems.length + 1 ≤ fuel) :
    ∃ (st' : PackState) (groups : List (List FciItem)),
      n.packInto true maxSize fuel st = some (true, st') ∧ groups.flatten = n.fciItems ∧
      (∀ group ∈ groups, group ≠ [] ∧ (n.fragment group).length ≤ maxSize) ∧
      Placed maxSize st (groups.map n.fragment) st' := by
  obtain ⟨⟨ok, st'⟩, hr⟩ := (packsAs hn true maxSize).returns hindex hbuffer hfuel
  have hitems : n.packItems true maxSize fuel n.fciItems st = some (ok, st') := by
    rw [← hr]
    exact (if_neg fun hempty => hn (List.isEmpty_iff.mp hempty)).symm
  rcases n.packItems_spec n.fciItems fuel hn hindex hbuffer hitems with
    ⟨hok, groups, hflatten, hgroups, hplaced, -⟩ | ⟨-, hnext⟩
  · obtain rfl : ok = true := hok
    refine ⟨st', groups, hr, hflatten, fun group hgroup => ?_, hplaced⟩
    have hroom := (hgroups group hgroup).2
    refine ⟨(hgroups group hgroup).1, ?_⟩
    rw [length_fragment]
    unfold room kFciItemSize at *
    omega
  · exfalso
    have hroom : 0 < room maxSize 0 := by
      unfold room kFciItemSize at *
      omega
    unfold nextIndex at hnext
    split at hnext
    · cases hnext
    · rw [if_pos ⟨rfl, hroom⟩] at hnext
      cases hnext

theorem parseNack_fragments (n : Nack) {groups : List (List FciItem)}
    (hne : ∀ group ∈ groups, group ≠ []) (hlength : groups.flatten.length < 2 ^ 16 - 2) :
    ∃ nacks : List Nack, (groups.map n.fragment).map parseNack = nacks.map some ∧
      nacks.flatMap packetIds = groups.flatten.flatMap unpackFciItem := by
  induction groups with
  | nil => exact ⟨[], rfl, rfl⟩
  | cons group groups ih =>
    rw [List.flatten_cons, List.length_append] at hlength
    obtain ⟨m, hparse, hids⟩ := n.parseNack_fragment (hne group List.mem_cons_self) (by omega)
    obtain ⟨nacks, hparses, hidss⟩ := ih (fun g hg => hne g (List.mem_cons_of_mem _ hg)) (by omega)
    refine ⟨m :: nacks, ?_, ?_⟩
    · rw [List.map_cons, List.map_cons, List.map_cons, hparse, hparses]
    · rw [List.flatMap_cons, hids, hidss, List.flatten_cons, List.flatMap_append]

theorem faithful_of_ne_nil (n : Nack) {ids : List U16} (hne : ids ≠ []) :
    (n.setPacketIds ids).Faithful := by
  intro maxSize fuel st hsize hindex hbuffer hfuel
  have hwell := n.wellFormed_setPacketIds hne
  obtain ⟨st', groups, hpacked, hflatten, hgroups, hplaced⟩ :=
    packInto_groups hwell hsize hindex hbuffer hfuel
  obtain ⟨pid, ids, rfl⟩ := List.exists_cons_of_ne_nil hne
  have hitems : groups.flatten = packFciItems ⟨pid, 0⟩ ids := hflatten
  have hids : (n.setPacketIds (pid :: ids)).packetIds = pid :: ids := rfl
  refine ⟨true, st', groups, hpacked, hplaced, hgroups, fun id => ?_,
    fun _ hincreasing => ⟨rfl, ?_⟩⟩
  · rw [hitems, mem_packFciItems, hids, List.mem_cons]
    exact or_congr List.mem_singleton Iff.rfl
  · rw [hids] at hincreasing ⊢
    have hbound : groups.flatten.length < 2 ^ 16 - 2 := by
      have hle := hincreasing.length_le
      have hle' := length_packFciItems_le ⟨pid, 0⟩ ids
      rw [hitems]
      rw [List.length_cons] at hle
      omega
    obtain ⟨nacks, hparses, hidss⟩ := parseNack_fragments (n.setPacketIds (pid :: ids))
      (fun group hgroup => (hgroups group hgroup).1) hbound
    refine ⟨nacks, hparses, ?_⟩
    obtain ⟨hfirst, hrest⟩ := List.pairwise_cons.1 hincreasing.1
    have hself : offset pid pid = 0 := by
      unfold offset
      rw [BitVec.sub_self]
      rfl
    have hnone : ∀ i, (FciItem.mk pid 0).bitmask.getLsbD i = true →
        offset pid pid + 1 + i ≤ 0 := fun i hi => by simp at hi
    rw [hidss, hitems, unpack_packFciItems hself.le hnone
      (fun id hid => hself.symm.trans_lt (hfirst id hid)) hrest]
    rfl

/-- **An empty list is packed as it is reported exactly when** no items are left of an earlier
one. -/
theorem faithful_nil_iff (n : Nack) : (n.setPacketIds []).Faithful ↔ n.fciItems = [] := by
  constructor
  · intro h
    by_contra hne
    have hwell : (n.setPacketIds []).WellFormed := hne
    have hsize : kNackHeaderSize + kFciItemSize ≤ 16 := by decide
    have hindex : (PackState.mk (List.replicate 16 0) 0 []).index ≤ 16 := by decide
    have hbuffer : 16 ≤ (PackState.mk (List.replicate 16 0) 0 []).buffer.length := by decide
    obtain ⟨ok, st', groups, hpacked, hplaced, hgroups, hids, -⟩ := h 16
      (2 * n.fciItems.length + 1) _ hsize hindex hbuffer le_rfl
    obtain ⟨st'', groups', hpacked', hflatten', -, hplaced'⟩ :=
      packInto_groups hwell hsize hindex hbuffer le_rfl
    obtain ⟨-, rfl⟩ := Prod.mk.inj (Option.some.inj (hpacked.symm.trans hpacked'))
    -- a group would have an item, and the item a sequence number
    have hnil : groups = [] := by
      refine List.eq_nil_iff_forall_not_mem.2 fun group hgroup => ?_
      obtain ⟨item, hitem⟩ := List.exists_mem_of_ne_nil _ (hgroups group hgroup).1
      have hmem : item.firstPid ∈ groups.flatten.flatMap unpackFciItem :=
        List.mem_flatMap.2 ⟨item, List.mem_flatten.2 ⟨group, hgroup, hitem⟩, List.mem_cons_self⟩
      exact List.not_mem_nil ((hids item.firstPid).1 hmem)
    have hbytes := hplaced'.laid.flatten
    rw [hplaced.laid.flatten, hnil, List.map_nil, List.append_cancel_left_eq] at hbytes
    cases groups' with
    | nil => exact hwell hflatten'.symm
    | cons group groups' =>
      have hlength := congrArg List.length hbytes
      rw [List.map_cons, List.flatten_cons, List.length_append, length_fragment, List.flatten_nil,
        List.length_nil] at hlength
      unfold kNackHeaderSize kRtcpCommonHeaderSize at hlength
      omega
  · intro h maxSize fuel st _ hindex _ _
    refine ⟨false, st, [], ?_, Placed.refl hindex, by simp, fun id => Iff.rfl, fun hne => ?_⟩
    · have hempty : (n.setPacketIds []).fciItems.isEmpty = true := List.isEmpty_iff.2 h
      exact if_pos hempty
    · exact absurd rfl hne

end Nack

/-- A `Nack` that is given one list after the other. -/
def nackMachine : Machine Nack (List U16) Unit where
  step n ids := (n.setPacketIds ids, ())

namespace Nack

/-- **What is packed is what is reported, after every call, exactly when** an empty list finds
no items. -/
theorem faithful_iff (n : Nack) (calls : List (List U16)) :
    (∀ done ids, done ++ [ids] <+: calls →
        (nackMachine.final n (done ++ [ids])).Faithful) ↔
      ∀ done ids, done ++ [ids] <+: calls → ids = [] →
        (nackMachine.final n done).fciItems = [] := by
  have hiff : ∀ (m : Nack) (ids : List U16),
      (m.setPacketIds ids).Faithful ↔ (ids = [] → m.fciItems = []) := by
    intro m ids
    by_cases hids : ids = []
    · rw [hids, faithful_nil_iff]
      exact ⟨fun h _ => h, fun h => h rfl⟩
    · exact iff_of_true (m.faithful_of_ne_nil hids) fun h => absurd h hids
  refine forall_congr' fun done => forall_congr' fun ids => imp_congr_right fun _ => ?_
  rw [nackMachine.final_append]
  exact hiff _ ids

/-- **An empty list after another** leaves its items to be packed. -/
theorem items_left : ¬ (nackMachine.final fresh [[1], []]).Faithful := fun h => by
  have hnil := (faithful_nil_iff (nackMachine.final fresh [[1]])).1 h
  revert hnil
  decide

end Nack

end NaiveRtc.Rtcp
