import NaiveRtc.Rtcp.FeedbackPackets

/-!
# Negative acknowledgements

The writing half of `rtc/rtp_rtcp/rtcp/packets/nack.cpp`.  A list of items that does not
fit is split: every fragment is a packet of its own, with as many items as there is room
for.

* `Nack.setPacketIds` — the items, from the sequence numbers they stand for.
* `Nack.packInto` — the loop over the fragments.
* `Nack.nextIndex` — where `*index` stands after it, in closed form.
* `Nack.packsAs` — the fragments that were placed hold all items, in order.
-/

namespace NaiveRtc.Rtcp

open ByteIo PackState

/-- `Nack::FciItem`. -/
structure FciItem where
  firstPid : U16
  bitmask : U16
  deriving DecidableEq

/-- `Nack`. -/
structure Nack where
  senderSsrc : U32
  mediaSsrc : U32
  fciItems : List FciItem
  packetIds : List U16
  deriving DecidableEq

namespace Nack

/-- `kFeedbackMessageType`. -/
def kFeedbackMessageType : Nat := 1
/-- `kFciItemSize`. -/
def kFciItemSize : Nat := 4
/-- `kNackHeaderSize`. -/
def kNackHeaderSize : Nat := kRtcpCommonHeaderSize + kCommonFeedbackSize

/-! ## The items -/

/-- The two loops of `PackFciItems`, in the middle of building `item`. -/
def packFciItems (item : FciItem) : List U16 → List FciItem
  | [] => [item]
  | pid :: ids =>
    let shift := pid - item.firstPid - 1
    if shift.toNat ≤ 15 then
      packFciItems { item with bitmask := item.bitmask ||| (1 <<< shift.toNat) } ids
    else item :: packFciItems ⟨pid, 0⟩ ids

/-- `set_packet_ids(nack_list)`.  An empty list leaves the items as they were. -/
def setPacketIds (n : Nack) (nackList : List U16) : Nack :=
  match nackList with
  | [] => { n with packetIds := [] }
  | pid :: ids => { n with packetIds := pid :: ids, fciItems := packFciItems ⟨pid, 0⟩ ids }

/-! ## Packing -/

/-- `PacketSize()`. -/
def packetSize (n : Nack) : Nat :=
  kRtcpCommonHeaderSize + kCommonFeedbackSize + n.fciItems.length * kFciItemSize

/-- One item. -/
def itemBytes (item : FciItem) : List UInt8 :=
  writeBigEndian 2 item.firstPid.toNat ++ writeBigEndian 2 item.bitmask.toNat

/-- The part of the loop of `PackInto` that writes a fragment with the given items. -/
def packFragment (n : Nack) (items : List FciItem) (st : PackState) : PackState :=
  let currPayloadSize := kCommonFeedbackSize + items.length * kFciItemSize
  let indexEnd := st.index + n.packetSize
  let st := st.write (packCommonHeader kFeedbackMessageType kRtpfbPacketType currPayloadSize false)
  let st := st.put ((packCommonFeedbackInto n.senderSsrc n.mediaSsrc (indexEnd - st.index)).getD [])
    kCommonFeedbackSize
  items.foldl (fun st item => st.put (itemBytes item) kFciItemSize) st

/-- The loop of `PackInto`, with the items from `fci_index` on. -/
def packItems (n : Nack) (hasCallback : Bool) (maxSize : Nat) :
    Nat → List FciItem → PackState → Packed
  | _, [], st => some (true, st)
  | 0, _ :: _, _ => none
  | fuel + 1, item :: items, st =>
    let bytesLeftInBuffer := maxSize - st.index
    if bytesLeftInBuffer < kNackHeaderSize + kFciItemSize then
      match st.onBufferFull hasCallback with
      | none => some (false, st)
      | some st' => packItems n hasCallback maxSize fuel (item :: items) st'
    else
      let fciItemCount := min ((bytesLeftInBuffer - kNackHeaderSize) / kFciItemSize)
        (item :: items).length
      packItems n hasCallback maxSize fuel ((item :: items).drop fciItemCount)
        (n.packFragment ((item :: items).take fciItemCount) st)

/-- `PackInto(buffer, index, max_size, callback)`. -/
def packInto (n : Nack) (hasCallback : Bool) (maxSize fuel : Nat) (st : PackState) : Packed :=
  if n.fciItems.isEmpty then some (false, st)
  else n.packItems hasCallback maxSize fuel n.fciItems st

/-- Something is missing. -/
def WellFormed (n : Nack) : Prop := n.fciItems ≠ []

theorem packFciItems_ne_nil (item : FciItem) (ids : List U16) : packFciItems item ids ≠ [] := by
  induction ids generalizing item with
  | nil => exact List.cons_ne_nil _ _
  | cons pid ids ih =>
    unfold packFciItems
    dsimp only
    split_ifs
    · exact ih _
    · exact List.cons_ne_nil _ _

theorem wellFormed_setPacketIds (n : Nack) {nackList : List U16} (h : nackList ≠ []) :
    (n.setPacketIds nackList).WellFormed := by
  cases nackList with
  | nil => exact absurd rfl h
  | cons pid ids => exact packFciItems_ne_nil _ _

/-! ## Fragments -/

/-- A fragment on the wire. -/
def fragment (n : Nack) (items : List FciItem) : List UInt8 :=
  packCommonHeader kFeedbackMessageType kRtpfbPacketType
      (kCommonFeedbackSize + items.length * kFciItemSize) false ++
    packCommonFeedback n.senderSsrc n.mediaSsrc ++ items.flatMap itemBytes

/-- The packets are fragments that hold all items, in order and at least one each. -/
def Serialises (n : Nack) (pieces : List (List UInt8)) : Prop :=
  ∃ groups : List (List FciItem), groups.flatten = n.fciItems ∧ (∀ group ∈ groups, group ≠ []) ∧
    pieces = groups.map n.fragment

theorem length_itemBytes (item : FciItem) : (itemBytes item).length = kFciItemSize := by
  simp [itemBytes, kFciItemSize]

theorem length_fragment (n : Nack) (items : List FciItem) :
    (n.fragment items).length = kNackHeaderSize + kFciItemSize * items.length := by
  rw [fragment, List.length_append, List.length_append, length_packCommonHeader,
    length_packCommonFeedback, length_flatMap_of_length length_itemBytes]
  rfl

theorem packFragment_eq (n : Nack) (items : List FciItem) {st : PackState}
    (h : st.index ≤ st.buffer.length) : n.packFragment items st = st.write (n.fragment items) := by
  have hitems : ∀ item ∈ items,
      Writes (fun st => st.put (itemBytes item) kFciItemSize) (itemBytes item) :=
    fun item _ st _ => put_eq_write st (length_itemBytes item)
  unfold packFragment
  dsimp only
  have hroom : kCommonFeedbackSize ≤ st.index + n.packetSize - (st.write (packCommonHeader
      kFeedbackMessageType kRtpfbPacketType (kCommonFeedbackSize + items.length * kFciItemSize)
      false)).index := by
    rw [index_write, length_packCommonHeader, packetSize, kRtcpCommonHeaderSize]
    omega
  rw [packCommonFeedbackInto_of_le _ _ hroom, Option.getD_some,
    put_eq_write _ (length_packCommonFeedback _ _), write_write h,
    foldl_write hitems (index_write_le h), write_write h, fragment]

/-! ## Where the index ends -/

/-- How many items a fragment can hold that starts at `index`. -/
def room (maxSize index : Nat) : Nat := (maxSize - index - kNackHeaderSize) / kFciItemSize

/-- Where `*index` stands after `count` items: behind them, or behind what is left for
the last fragment when all fragments before it are full; `none` when they are refused. -/
def nextIndex (hasCallback : Bool) (maxSize count index : Nat) : Option Nat :=
  if count ≤ room maxSize index then some (index + kNackHeaderSize + kFciItemSize * count)
  else if hasCallback = true ∧ 0 < room maxSize 0 then
    some (kNackHeaderSize +
      kFciItemSize * ((count - room maxSize index - 1) % room maxSize 0 + 1))
  else none

section Index

variable {maxSize count index : Nat}

theorem room_eq_zero_iff (h : index ≤ maxSize) :
    room maxSize index = 0 ↔ maxSize - index < kNackHeaderSize + kFciItemSize := by
  unfold room kNackHeaderSize kFciItemSize kRtcpCommonHeaderSize kCommonFeedbackSize
  omega

theorem room_le_room_zero (maxSize index : Nat) : room maxSize index ≤ room maxSize 0 := by
  unfold room
  exact Nat.div_le_div_right (by omega)

theorem room_full (h : 0 < room maxSize index) :
    index + kNackHeaderSize + kFciItemSize * room maxSize index ≤ maxSize ∧
      room maxSize (index + kNackHeaderSize + kFciItemSize * room maxSize index) = 0 := by
  unfold room kNackHeaderSize kFciItemSize kRtcpCommonHeaderSize kCommonFeedbackSize at *
  omega

theorem nextIndex_flush (hcount : 0 < count) (hfull : room maxSize index = 0) :
    nextIndex true maxSize count index = nextIndex true maxSize count 0 := by
  unfold nextIndex
  rw [if_neg (by omega), hfull, Nat.sub_zero, Nat.zero_add]
  by_cases hroom : 0 < room maxSize 0
  · rw [if_pos ⟨rfl, hroom⟩]
    by_cases hfits : count ≤ room maxSize 0
    · rw [if_pos hfits, Nat.mod_eq_of_lt (by omega), Nat.sub_add_cancel hcount]
    · rw [if_neg hfits, if_pos ⟨rfl, hroom⟩]
      have hsub : count - room maxSize 0 - 1 = count - 1 - room maxSize 0 := by omega
      rw [hsub, ← Nat.mod_eq_sub_mod (by omega)]
  · rw [if_neg (by omega), if_neg (by omega), if_neg (by omega)]

theorem nextIndex_full (hasCallback : Bool) (hroom : 0 < room maxSize index)
    (hcount : room maxSize index < count) :
    nextIndex hasCallback maxSize (count - room maxSize index)
      (index + kNackHeaderSize + kFciItemSize * room maxSize index) =
    nextIndex hasCallback maxSize count index := by
  unfold nextIndex
  rw [(room_full hroom).2, if_neg (by omega), if_neg (show ¬count ≤ room maxSize index by omega),
    Nat.sub_zero]

end Index

/-! ## The loop -/

section Loop

variable {hasCallback : Bool} {maxSize : Nat} {st : PackState}

theorem placed_fragment (n : Nack) {items : List FciItem}
    (hbuffer : maxSize ≤ st.buffer.length) (hroom : 0 < room maxSize st.index)
    (hitems : items.length ≤ room maxSize st.index) :
    n.packFragment items st = st.write (n.fragment items) ∧
      Placed maxSize st [n.fragment items] (st.write (n.fragment items)) := by
  have hmul := Nat.mul_le_mul_left kFciItemSize hitems
  have hlength := n.length_fragment items
  have hfull := (room_full hroom).1
  exact ⟨n.packFragment_eq items (by omega), placed_write (by omega) hbuffer⟩

/-- The loop returns: a round either flushes a buffer that has no room for an item, or
writes at least one item. -/
theorem packItems_returns (n : Nack) (items : List FciItem) (fuel : Nat)
    (hindex : st.index ≤ maxSize) (hbuffer : maxSize ≤ st.buffer.length)
    (hfuel : 2 * items.length + (if room maxSize st.index = 0 then 1 else 0) ≤ fuel) :
    ∃ r, n.packItems hasCallback maxSize fuel items st = some r := by
  induction fuel generalizing items st with
  | zero =>
    cases items with
    | nil => exact ⟨_, rfl⟩
    | cons item items =>
      rw [List.length_cons] at hfuel
      omega
  | succ fuel ih =>
    cases items with
    | nil => exact ⟨_, rfl⟩
    | cons item items =>
      unfold packItems
      dsimp only
      by_cases hroom : room maxSize st.index = 0
      · rw [if_pos ((room_eq_zero_iff hindex).mp hroom), onBufferFull_eq]
        rw [if_pos hroom] at hfuel
        by_cases hflush : st.index ≠ 0 ∧ hasCallback = true
        · rw [if_pos hflush]
          by_cases hempty : room maxSize st.flushed.index = 0
          · -- not even the empty buffer has room: the next round gives up
            have hsmall : maxSize - st.flushed.index < kNackHeaderSize + kFciItemSize :=
              (room_eq_zero_iff (Nat.zero_le maxSize)).mp hempty
            obtain ⟨fuel, rfl⟩ : ∃ k, fuel = k + 1 := ⟨fuel - 1, by
              rw [List.length_cons] at hfuel
              omega⟩
            refine ⟨(false, st.flushed), ?_⟩
            show n.packItems hasCallback maxSize (fuel + 1) (item :: items) st.flushed = _
            unfold packItems
            dsimp only
            rw [if_pos hsmall, onBufferFull_eq, if_neg (fun h => h.1 rfl)]
          · refine ih (item :: items) (Nat.zero_le _) hbuffer ?_
            rw [if_neg hempty]
            omega
        · rw [if_neg hflush]
          exact ⟨_, rfl⟩
      · rw [if_neg (fun h => hroom ((room_eq_zero_iff hindex).mpr h))]
        change ∃ r, n.packItems hasCallback maxSize fuel
          ((item :: items).drop (min (room maxSize st.index) (item :: items).length))
          (n.packFragment
            ((item :: items).take (min (room maxSize st.index) (item :: items).length)) st) = some r
        obtain ⟨hpacked, hplaced⟩ := n.placed_fragment hbuffer (Nat.pos_of_ne_zero hroom)
          (show ((item :: items).take (min (room maxSize st.index) (item :: items).length)).length ≤
            room maxSize st.index by rw [List.length_take]; omega)
        rw [hpacked]
        refine ih _ hplaced.index_le (by rw [hplaced.length]; exact hbuffer) ?_
        rw [if_neg hroom] at hfuel
        rw [List.length_drop]
        rw [List.length_cons] at hfuel ⊢
        split_ifs <;> omega

theorem packItems_mono (n : Nack) (items : List FciItem) {fuel fuel' : Nat} {r : Bool × PackState}
    (h : n.packItems hasCallback maxSize fuel items st = some r) (hfuel : fuel ≤ fuel') :
    n.packItems hasCallback maxSize fuel' items st = some r := by
  induction fuel generalizing items st fuel' with
  | zero =>
    cases items with
    | nil =>
      unfold packItems at h ⊢
      exact h
    | cons item items => cases h
  | succ fuel ih =>
    obtain ⟨fuel', rfl⟩ : ∃ k, fuel' = k + 1 := ⟨fuel' - 1, by omega⟩
    cases items with
    | nil =>
      unfold packItems at h ⊢
      exact h
    | cons item items =>
      unfold packItems at h ⊢
      dsimp only at h ⊢
      split_ifs at h ⊢ with hroom
      · cases hflush : st.onBufferFull hasCallback with
        | none =>
          rw [hflush] at h
          exact h
        | some st' =>
          rw [hflush] at h
          exact ih _ h (by omega)
      · exact ih _ h (by omega)

/-- What the loop has done when it returns: the items are placed, in groups, or there is no
place for them. -/
theorem packItems_spec (n : Nack) (items : List FciItem) (fuel : Nat) {r : Bool × PackState}
    (hne : items ≠ []) (hindex : st.index ≤ maxSize) (hbuffer : maxSize ≤ st.buffer.length)
    (h : n.packItems hasCallback maxSize fuel items st = some r) :
    (r.1 = true ∧ ∃ groups : List (List FciItem), groups.flatten = items ∧
      (∀ group ∈ groups, group ≠ [] ∧ group.length ≤ room maxSize 0) ∧
      Placed maxSize st (groups.map n.fragment) r.2 ∧
      nextIndex hasCallback maxSize items.length st.index = some r.2.index) ∨
    (r.1 = false ∧ nextIndex hasCallback maxSize items.length st.index = none) := by
  induction fuel generalizing items st with
  | zero =>
    cases items with
    | nil => exact absurd rfl hne
    | cons item items => cases h
  | succ fuel ih =>
    obtain ⟨item, rest, rfl⟩ := List.exists_cons_of_ne_nil hne
    unfold packItems at h
    dsimp only at h
    by_cases hroom : room maxSize st.index = 0
    · rw [if_pos ((room_eq_zero_iff hindex).mp hroom), onBufferFull_eq] at h
      by_cases hflush : st.index ≠ 0 ∧ hasCallback = true
      · rw [if_pos hflush] at h
        obtain ⟨hindex0, rfl⟩ := hflush
        change n.packItems true maxSize fuel (item :: rest) st.flushed = some r at h
        rw [nextIndex_flush (show 0 < (item :: rest).length from Nat.succ_pos _) hroom]
        rcases ih (item :: rest) hne (show st.flushed.index ≤ maxSize from Nat.zero_le _) hbuffer h with
          ⟨hok, groups, hflatten, hgroups, hplaced, hnext⟩ | ⟨hok, hnext⟩
        · have hpieces : groups.map n.fragment ≠ [] := by
            intro hnil
            rw [List.map_eq_nil_iff.mp hnil] at hflatten
            exact absurd hflatten (List.cons_ne_nil _ _).symm
          have hlaid := Laid.of_new_page (page_ne_nil hindex0 (by omega)) hpieces hplaced.laid
          exact .inl ⟨hok, groups, hflatten, hgroups,
            ⟨hlaid, hplaced.index_le, hplaced.length, hplaced.beyond⟩, hnext⟩
        · exact .inr ⟨hok, hnext⟩
      · rw [if_neg hflush] at h
        obtain rfl := Option.some.inj h
        refine .inr ⟨rfl, ?_⟩
        unfold nextIndex
        rw [if_neg (by rw [hroom, List.length_cons]; omega), if_neg]
        rintro ⟨hcallback, hpos⟩
        by_cases hzero : st.index = 0
        · rw [hzero] at hroom
          omega
        · exact hflush ⟨hzero, hcallback⟩
    · rw [if_neg (fun h => hroom ((room_eq_zero_iff hindex).mpr h))] at h
      change n.packItems hasCallback maxSize fuel
          ((item :: rest).drop (min (room maxSize st.index) (item :: rest).length))
          (n.packFragment
            ((item :: rest).take (min (room maxSize st.index) (item :: rest).length)) st) =
              some r at h
      have hpos := Nat.pos_of_ne_zero hroom
      generalize item :: rest = items at *
      by_cases hfits : items.length ≤ room maxSize st.index
      · obtain ⟨hpacked, hplaced⟩ := n.placed_fragment hbuffer hpos hfits
        rw [Nat.min_eq_right hfits, List.drop_length, List.take_length, hpacked] at h
        unfold packItems at h
        obtain rfl := Option.some.inj h
        refine .inl ⟨rfl, [items], by simp, ?_, hplaced, ?_⟩
        · intro group hgroup
          rw [List.mem_singleton.mp hgroup]
          exact ⟨hne, hfits.trans (room_le_room_zero maxSize st.index)⟩
        unfold nextIndex
        rw [if_pos hfits, index_write, length_fragment, Nat.add_assoc]
      · have hlength : (items.take (room maxSize st.index)).length = room maxSize st.index := by
          rw [List.length_take]
          omega
        obtain ⟨hpacked, hplaced⟩ := n.placed_fragment hbuffer hpos (le_of_eq hlength)
        rw [Nat.min_eq_left (by omega), hpacked] at h
        have hdrop : items.drop (room maxSize st.index) ≠ [] := by
          intro hnil
          have := List.drop_eq_nil_iff.mp hnil
          omega
        have hnextIndex := nextIndex_full hasCallback hpos (Nat.lt_of_not_le hfits)
        have hend : (st.write (n.fragment (items.take (room maxSize st.index)))).index =
            st.index + kNackHeaderSize + kFciItemSize * room maxSize st.index := by
          rw [index_write, length_fragment, hlength, Nat.add_assoc]
        rw [← hnextIndex, ← hend, ← List.length_drop]
        rcases ih _ hdrop hplaced.index_le (by rw [hplaced.length]; exact hbuffer) h with
          ⟨hok, groups, hflatten, hgroups, hplaced', hnext⟩ | ⟨hok, hnext⟩
        · refine .inl ⟨hok, items.take (room maxSize st.index) :: groups, ?_, ?_, ?_, hnext⟩
          · rw [List.flatten_cons, hflatten, List.take_append_drop]
          · intro group hgroup
            rcases List.mem_cons.mp hgroup with rfl | hgroup
            · refine ⟨List.ne_nil_of_length_pos (by omega), ?_⟩
              rw [hlength]
              exact room_le_room_zero maxSize st.index
            · exact hgroups group hgroup
          · exact hplaced.trans hplaced'
        · exact .inr ⟨hok, hnext⟩

end Loop

/-- **A list of losses is placed in fragments**, each with as many items as fit, or there
is no room for even one item. -/
theorem packsAs {n : Nack} (hn : n.WellFormed) (hasCallback : Bool) (maxSize : Nat) :
    PacksAs (n.packInto hasCallback maxSize) maxSize (2 * n.fciItems.length + 1)
      (nextIndex hasCallback maxSize n.fciItems.length) n.Serialises := by
  have hpack : ∀ fuel st, n.packInto hasCallback maxSize fuel st =
      n.packItems hasCallback maxSize fuel n.fciItems st := by
    intro fuel st
    exact if_neg (fun hempty => hn (List.isEmpty_iff.mp hempty))
  refine ⟨?_, ?_, ?_, ?_⟩
  · intro st fuel fuel' r h hfuel
    rw [hpack] at h ⊢
    exact n.packItems_mono n.fciItems h hfuel
  · intro st fuel hindex hbuffer hfuel
    rw [hpack]
    refine n.packItems_returns n.fciItems fuel hindex hbuffer ?_
    split_ifs <;> omega
  · intro st st' fuel hindex hbuffer h
    rw [hpack] at h
    rcases n.packItems_spec n.fciItems fuel hn hindex hbuffer h with
      ⟨-, groups, hflatten, hgroups, hplaced, hnext⟩ | ⟨hok, -⟩
    · exact ⟨_, ⟨groups, hflatten, fun group hgroup => (hgroups group hgroup).1, rfl⟩, hplaced,
        hnext⟩
    · cases hok
  · intro st st' fuel hindex hbuffer h
    rw [hpack] at h
    rcases n.packItems_spec n.fciItems fuel hn hindex hbuffer h with ⟨hok, -⟩ | ⟨-, hnext⟩
    · cases hok
    · exact hnext

end Nack

end NaiveRtc.Rtcp
