import NaiveRtc.Rtp.PacketHistoryTable

/-!
# The packet history over whole runs

One specification for each function of the history, and from them what holds in every state
that a run of calls reaches, when the packets are put in with increasing sequence numbers.

* `Whole` — the table, with the first entry populated.
* `getPacketIndex_spec`, `lookup_spec` — the index of a sequence number.
* `removePacket_spec`, `cullLoop_spec`, `store_spec` — what goes in and what comes out.
* `call_spec` — every call returns and keeps the invariant.
* `packet_history_invariant` — every run.
-/

namespace NaiveRtc.Rtp

open Ordered

namespace RtpPacketHistory

variable {h h' h'' : RtpPacketHistory} {start : U16} {next : Nat}

/-- The table, with the first entry populated; the numbers span less than a quarter of the
circle. -/
structure Whole (start : U16) (next : Nat) (h : RtpPacketHistory) : Prop
    extends Table start next h where
  front : FrontPopulated h
  bound : next ≤ 2 ^ 14

/-- The packets in the history. -/
def contents (h : RtpPacketHistory) : List RtpPacketToSend :=
  (SlotTable.entries h.packetHistory).map StoredPacket.packet

/-- From `h` to `h'` the packets `ins` came in and `outs` went out. -/
structure Evolves (start : U16) (next : Nat) (h h' : RtpPacketHistory)
    (ins outs : List RtpPacketToSend) :
    Prop where
  whole : Whole start next h'
  balance : (outs ++ h'.contents).Perm (ins ++ h.contents)
  mode : h'.mode = h.mode

theorem Evolves.trans {ins outs outs' : List RtpPacketToSend} {next' : Nat}
    (h₁ : Evolves start next h h' [] outs) (h₂ : Evolves start next' h' h'' ins outs') :
    Evolves start next' h h'' ins (outs ++ outs') := by
  refine ⟨h₂.whole, ?_, h₂.mode.trans h₁.mode⟩
  have hfirst : (outs ++ h'.contents).Perm h.contents := h₁.balance
  calc (outs ++ outs') ++ h''.contents
      _ = outs ++ (outs' ++ h''.contents) := List.append_assoc _ _ _
      List.Perm _ (outs ++ (ins ++ h'.contents)) := h₂.balance.append_left outs
      List.Perm _ (ins ++ (outs ++ h'.contents)) := List.perm_append_comm_assoc _ _ _
      List.Perm _ (ins ++ h.contents) := hfirst.append_left ins

theorem Evolves.refl (hw : Whole start next h) : Evolves start next h h [] [] :=
  ⟨hw, List.Perm.refl _, rfl⟩

/-! ## The index -/

theorem packetHistory_cases (hfront : FrontPopulated h) :
    h.packetHistory = [] ∨ ∃ front rest, h.packetHistory = some front :: rest := by
  cases hh : h.packetHistory with
  | nil => exact Or.inl rfl
  | cons x rest =>
    obtain ⟨p, hp⟩ := hfront (by simp [hh])
    have hx : x = some p := by
      rw [slot, hh] at hp
      exact hp
    exact Or.inr ⟨p, rest, by rw [hx]⟩

/-- **The index of a sequence number** is its distance from the first one, as far as that is
less than half the circle. -/
theorem getPacketIndex_spec {front : StoredPacket} {rest : List (Option StoredPacket)}
    (hh : h.packetHistory = some front :: rest) (sequenceNumber : U16) :
    ∃ index, h.getPacketIndex sequenceNumber = some index ∧ ∀ i : Nat, i < 2 ^ 15 →
      (index = i ↔ (sequenceNumber - front.packet.sequenceNumber).toNat = i) := by
  unfold getPacketIndex
  rw [hh]
  dsimp only
  have hlt := front.packet.sequenceNumber.isLt
  have hlt' := sequenceNumber.isLt
  have hsub : (sequenceNumber - front.packet.sequenceNumber).toNat =
      (65536 - front.packet.sequenceNumber.toNat + sequenceNumber.toNat) % 65536 := by
    rw [BitVec.toNat_sub]
  split
  · rename_i heq
    refine ⟨0, rfl, fun i _ => ?_⟩
    rw [heq] at hsub ⊢
    omega
  · rename_i hne
    have hne' : front.packet.sequenceNumber.toNat ≠ sequenceNumber.toNat :=
      fun heq => hne (BitVec.eq_of_toNat_eq heq)
    have hahead := WrapAround.aheadOf_iff sequenceNumber front.packet.sequenceNumber
    rw [hsub] at hahead ⊢
    simp only [BitVec.lt_def]
    generalize front.packet.sequenceNumber.toNat = f at *
    generalize sequenceNumber.toNat = n at *
    split
    · rename_i ha
      have ha := hahead.mp ha
      refine ⟨_, rfl, fun i hi => ?_⟩
      split <;> omega
    · rename_i ha
      have ha : ¬ _ := fun hcond => ha (hahead.mpr hcond)
      refine ⟨_, rfl, fun i hi => ?_⟩
      split <;> omega

theorem distance_iff {a b s : U16} {c i : Nat} (hb : (b - s).toNat = c) (hlt : c + i < 2 ^ 16) :
    (a - b).toNat = i ↔ (a - s).toNat = c + i := by
  have hsum : a - s = (a - b) + (b - s) := by bv_omega
  have := (a - b).isLt
  rw [hsum, BitVec.toNat_add, hb]
  omega

theorem lookup_spec (hw : Whole start next h) (sequenceNumber : U16) :
    ∃ found, h.getStoredPacket sequenceNumber = some found ∧ ∀ i p,
      found = some (i, p) ↔ h.slot i = some p ∧ p.packet.sequenceNumber = sequenceNumber := by
  unfold getStoredPacket
  rcases packetHistory_cases hw.front with hnil | ⟨front, rest, hh⟩
  · have hindex : h.getPacketIndex sequenceNumber = some 0 := by simp [getPacketIndex, hnil]
    have hslot : ∀ i, h.slot i = none := by simp [slot, SlotTable.slot, hnil]
    rw [hindex]
    refine ⟨_, rfl, fun i p => ?_⟩
    simp [hslot]
  · obtain ⟨index, hindex, hspec⟩ := getPacketIndex_spec hh sequenceNumber
    obtain ⟨c, hc, hlen⟩ := hw.seqs
    have hfront : h.slot 0 = some front := by rw [slot, hh]; rfl
    have hfc : (front.packet.sequenceNumber - start).toNat = c := hc 0 front hfront
    have hbound := hw.bound
    rw [hindex]
    -- a packet in slot `i` has the number exactly when the index is `i`
    have hat : ∀ i p, h.slot i = some p →
      (p.packet.sequenceNumber = sequenceNumber ↔ index = i) := by
      intro i p hp
      have hi : i < h.packetHistory.length := SlotTable.lt_of_slot_eq_some hp
      rw [hspec i (by omega), distance_iff hfc (by omega), ← hc i p hp]
      constructor
      · rintro rfl
        rfl
      · intro heq
        have hsame := BitVec.eq_of_toNat_eq heq
        bv_omega
    dsimp only
    split
    · rename_i hneg
      refine ⟨_, rfl, fun i p => ⟨fun hf => absurd hf (by simp), ?_⟩⟩
      rintro ⟨hp, hseq⟩
      have := (hat i p hp).mp hseq
      omega
    · rename_i hpos
      refine ⟨_, rfl, fun i p => ?_⟩
      rw [Option.map_eq_some_iff]
      constructor
      · rintro ⟨p', hp', heq⟩
        obtain ⟨rfl, rfl⟩ := Prod.mk.inj heq
        exact ⟨hp', (hat _ _ hp').mpr (by omega)⟩
      · rintro ⟨hp, hseq⟩
        have hi := (hat i p hp).mp hseq
        refine ⟨p, ?_, ?_⟩
        · rw [show index.toNat = i by omega]
          exact hp
        · rw [show index.toNat = i by omega]

/-! ## Removing -/

theorem contents_popFront (h : RtpPacketHistory) : h.popFront.contents = h.contents := by
  unfold contents
  rw [show h.popFront.packetHistory = h.packetHistory.dropWhile Option.isNone from rfl,
    SlotTable.entries_dropWhile]

variable {p : StoredPacket} {i : Nat}

theorem cleared_spec (ht : Table start next h) (hp : h.slot i = some p) :
    let cleared := { h with
      paddingPriority :=
        if h.enablePaddingPrio then (erasePointer h.before (h.firstAddress + i) h.paddingPriority).1
        else h.paddingPriority
      packetHistory := h.packetHistory.set i none }
    Table start next cleared ∧ (p.packet :: cleared.contents).Perm h.contents := by
  intro cleared
  have hset : ∃ set, cleared = { h with
        paddingPriority := set, packetHistory := h.packetHistory.set i none } ∧
      set.Sublist h.paddingPriority ∧ h.firstAddress + i ∉ set := by
    by_cases hon : h.enablePaddingPrio = true
    · refine ⟨h.paddingPriority.filter fun a => a ≠ h.firstAddress + i, ?_, List.filter_sublist,
        not_mem_filter_ne _ _⟩
      show { h with paddingPriority := _, packetHistory := _ } = _
      rw [if_pos hon, ht.erase_eq (deref_eq_some.mpr ⟨i, rfl, hp⟩)]
    · have hnil := ht.unused (Bool.not_eq_true _ ▸ hon)
      refine ⟨h.paddingPriority, ?_, List.Sublist.refl _, by rw [hnil]; simp⟩
      show { h with paddingPriority := _, packetHistory := _ } = _
      rw [if_neg hon]
  obtain ⟨set, heq, hsub, hnot⟩ := hset
  rw [heq]
  refine ⟨table_clear ht hsub hnot, ?_⟩
  have hentries := SlotTable.entries_set h.packetHistory (SlotTable.lt_of_slot_eq_some hp) none
  rw [show SlotTable.slot h.packetHistory i = some p from hp] at hentries
  exact hentries.map StoredPacket.packet

theorem removePacket_spec (hw : Whole start next h) (i : Nat) :
    Evolves start next h (h.removePacket i).1 [] (h.removePacket i).2 := by
  unfold removePacket
  cases hp : h.slot i with
  | none =>
    dsimp only
    by_cases hi : i = 0
    · rw [if_pos hi]
      obtain ⟨ht, hfront⟩ := table_popFront hw.toTable
      exact ⟨⟨ht, hfront, hw.bound⟩, List.Perm.of_eq (contents_popFront h), rfl⟩
    · rw [if_neg hi]
      exact Evolves.refl hw
  | some p =>
    dsimp only
    obtain ⟨ht, hperm⟩ := cleared_spec hw.toTable hp
    by_cases hi : i = 0
    · rw [if_pos hi]
      obtain ⟨ht', hfront⟩ := table_popFront ht
      refine ⟨⟨ht', hfront, hw.bound⟩, ?_, rfl⟩
      rw [contents_popFront]
      exact hperm
    · rw [if_neg hi]
      refine ⟨⟨ht, fun hne => ?_, hw.bound⟩, hperm, rfl⟩
      have hne' : h.packetHistory ≠ [] := by
        intro hnil
        exact hne (by simp [hnil])
      obtain ⟨front, hfront⟩ := hw.front hne'
      exact ⟨front, (SlotTable.slot_set_ne hi none).trans hfront⟩

theorem length_removePacket (hfront : FrontPopulated h) (hne : h.packetHistory ≠ []) :
    (h.removePacket 0).1.packetHistory.length < h.packetHistory.length := by
  obtain ⟨p, hp⟩ := hfront hne
  unfold removePacket
  rw [hp]
  dsimp only
  rw [if_pos rfl]
  show ((h.packetHistory.set 0 none).dropWhile Option.isNone).length < _
  cases hh : h.packetHistory with
  | nil => exact absurd hh hne
  | cons x rest =>
    rw [List.set_cons_zero, List.dropWhile_cons_of_pos rfl]
    exact Nat.lt_succ_of_le (List.dropWhile_sublist _).length_le

/-! ## Culling -/

theorem cullLoop_spec (hw : Whole start next h) (nowMs : Int) {fuel : Nat}
    (hfuel : h.packetHistory.length < fuel) :
    ∃ h' culled, cullLoop nowMs fuel h = some (h', culled) ∧ Evolves start next h h' [] culled := by
  induction fuel generalizing h with
  | zero => exact absurd hfuel (Nat.not_lt_zero _)
  | succ fuel ih =>
    rw [cullLoop]
    by_cases hnil : h.packetHistory = []
    · rw [if_pos hnil]
      exact ⟨h, [], rfl, Evolves.refl hw⟩
    · rw [if_neg hnil]
      have hremove := removePacket_spec hw 0
      have hshorter := length_removePacket hw.front hnil
      obtain ⟨h', culled, hloop, hevolves⟩ := ih hremove.whole (by omega)
      have hfirst : ∃ h' culled, ((cullLoop nowMs fuel (h.removePacket 0).1).map fun r =>
          (r.1, (h.removePacket 0).2 ++ r.2)) = some (h', culled) ∧
            Evolves start next h h' [] culled :=
        ⟨h', (h.removePacket 0).2 ++ culled, by rw [hloop]; rfl, hremove.trans hevolves⟩
      have hstop : ∃ h' culled, some (h, []) = some (h', culled) ∧
        Evolves start next h h' [] culled :=
        ⟨h, [], rfl, Evolves.refl hw⟩
      dsimp only
      split
      · exact hfirst
      · -- the first entry is populated, and was sent unless it is pending
        obtain ⟨front, hfront⟩ := hw.front hnil
        rw [hfront]
        dsimp only
        split
        · exact hstop
        · rename_i hpending
          have hsent := hw.sent 0 front hfront (Bool.not_eq_true _ ▸ hpending)
          obtain ⟨sendTime, htime⟩ := Option.isSome_iff_exists.mp hsent
          rw [htime]
          dsimp only
          split
          · exact hstop
          · split
            · exact hfirst
            · exact hstop

theorem cullOldPackets_spec (hw : Whole start next h) (nowMs : Int) :
    ∃ h' culled, h.cullOldPackets nowMs = some (h', culled) ∧ Evolves start next h h' [] culled :=
  cullLoop_spec hw nowMs (Nat.lt_succ_self _)

theorem cullAckedPackets_spec (hw : Whole start next h) (ackedSeqNums : List U16) :
    ∃ h' culled, h.cullAckedPackets ackedSeqNums = some (h', culled) ∧
      Evolves start next h h' [] culled := by
  induction ackedSeqNums generalizing h with
  | nil => exact ⟨h, [], rfl, Evolves.refl hw⟩
  | cons ackedSeqNum ackedSeqNums ih =>
    have hindex : ∃ index, h.getPacketIndex ackedSeqNum = some index := by
      rcases packetHistory_cases hw.front with hnil | ⟨front, rest, hh⟩
      · exact ⟨0, by simp [getPacketIndex, hnil]⟩
      · obtain ⟨index, hindex, -⟩ := getPacketIndex_spec hh ackedSeqNum
        exact ⟨index, hindex⟩
    obtain ⟨index, hindex⟩ := hindex
    rw [cullAckedPackets, hindex]
    dsimp only
    split
    · exact ih hw
    · have hremove := removePacket_spec hw index.toNat
      obtain ⟨h', culled, hrest, hevolves⟩ := ih hremove.whole
      exact ⟨h', (h.removePacket index.toNat).2 ++ culled, by rw [hrest]; rfl,
        hremove.trans hevolves⟩

/-! ## Storing -/

theorem index_of_new (hw : Whole start next h) {sequenceNumber : U16}
    (hnew : next ≤ (sequenceNumber - start).toNat)
    (hbound : (sequenceNumber - start).toNat < 2 ^ 14) :
    ∃ i c : Nat, h.getPacketIndex sequenceNumber = some (i : Int) ∧ h.packetHistory.length ≤ i ∧
      (h.packetHistory = [] → i = 0) ∧
      (∀ j p, h.slot j = some p → (p.packet.sequenceNumber - start).toNat = c + j) ∧
      (sequenceNumber - start).toNat = c + i := by
  rcases packetHistory_cases hw.front with hnil | ⟨front, rest, hh⟩
  · refine ⟨0, (sequenceNumber - start).toNat, by simp [getPacketIndex, hnil], by simp [hnil],
      fun _ => rfl, ?_, rfl⟩
    intro j p hp
    simp [slot, SlotTable.slot, hnil] at hp
  · obtain ⟨index, hindex, hspec⟩ := getPacketIndex_spec hh sequenceNumber
    obtain ⟨c, hc, hlen⟩ := hw.seqs
    have hfront : h.slot 0 = some front := by rw [slot, hh]; rfl
    have hfc : (front.packet.sequenceNumber - start).toNat = c := hc 0 front hfront
    have hpos : 0 < h.packetHistory.length := by rw [hh]; exact Nat.succ_pos _
    have hdist : index = ((sequenceNumber - start).toNat - c : Nat) := by
      rw [hspec _ (by omega), distance_iff hfc (by omega)]
      omega
    refine ⟨(sequenceNumber - start).toNat - c, c, hindex.trans (by rw [hdist]), by omega, ?_, hc,
      by omega⟩
    intro hnil
    rw [hnil] at hh
    cases hh

theorem table_store (ht : Table start next h) {i c : Nat} (stored : StoredPacket)
    (hi : h.packetHistory.length ≤ i)
    (hc : ∀ j p, h.slot j = some p → (p.packet.sequenceNumber - start).toNat = c + j)
    (hseq : (stored.packet.sequenceNumber - start).toNat = c + i)
    (hsent : stored.pendingTransmission = false → stored.sendTimeMs.isSome)
    (horder : stored.insertOrder = h.packetsInserted) :
    let h' := { h with
      packetHistory := (h.packetHistory ++
        List.replicate (i + 1 - h.packetHistory.length) none).set i (some stored)
      packetsInserted := h.packetsInserted + 1 }
    Table start (c + i + 1) h' ∧ h'.slot i = some stored ∧ (∀ j, j ≠ i → h'.slot j = h.slot j) ∧
      h'.contents.Perm (stored.packet :: h.contents) := by
  intro h'
  have hlen : (h.packetHistory ++ List.replicate (i + 1 - h.packetHistory.length) none).length =
      i + 1 := by
    rw [List.length_append, List.length_replicate]
    omega
  have hself : h'.slot i = some stored := SlotTable.slot_set_self (by omega) _
  have hother : ∀ j, j ≠ i → h'.slot j = h.slot j := by
    intro j hj
    exact (SlotTable.slot_set_ne (Ne.symm hj) _).trans (SlotTable.slot_append_replicate _ _ _)
  have hcases : ∀ j p, h'.slot j = some p → (j = i ∧ p = stored) ∨ (j ≠ i ∧ h.slot j = some p) := by
    intro j p hp
    by_cases hj : j = i
    · rw [hj, hself] at hp
      exact Or.inl ⟨hj, (Option.some.inj hp).symm⟩
    · exact Or.inr ⟨hj, hother j hj ▸ hp⟩
  have hderef : ∀ a ∈ h.paddingPriority, h'.deref a = h.deref a := by
    intro a ha
    obtain ⟨p, hp⟩ := ht.pointers a ha
    obtain ⟨j, rfl, hj⟩ := deref_eq_some.mp hp
    have hlt : j < h.packetHistory.length := SlotTable.lt_of_slot_eq_some hj
    rw [hp]
    exact deref_eq_some.mpr ⟨j, rfl, (hother j (by omega)).trans hj⟩
  refine ⟨⟨⟨c, ?_, ?_⟩, ?_, ?_, ?_, ?_, ?_, ht.unused⟩, hself, hother, ?_⟩
  · intro j p hp
    rcases hcases j p hp with ⟨rfl, rfl⟩ | ⟨-, hp⟩
    · exact hseq
    · exact hc j p hp
  · show c + ((h.packetHistory ++ _).set i (some stored)).length ≤ _
    rw [List.length_set, hlen]
    exact le_refl _
  · intro j p hp
    rcases hcases j p hp with ⟨rfl, rfl⟩ | ⟨-, hp⟩
    · exact hsent
    · exact ht.sent j p hp
  · intro j p hp
    rcases hcases j p hp with ⟨rfl, rfl⟩ | ⟨-, hp⟩
    · rw [horder]
      exact Nat.lt_succ_self _
    · exact Nat.lt_succ_of_lt (ht.orders j p hp)
  · intro j k p p' hp hp' heq
    rcases hcases j p hp with ⟨rfl, rfl⟩ | ⟨-, hq⟩ <;>
      rcases hcases k p' hp' with ⟨rfl, rfl⟩ | ⟨-, hq'⟩
    · rfl
    · have := ht.orders k p' hq'
      omega
    · have := ht.orders j p hq
      omega
    · exact ht.distinct j k p p' hq hq' heq
  · intro a ha
    rw [hderef a ha]
    exact ht.pointers a ha
  · refine ht.sorted.imp_of_mem fun {a b} ha hb hab => ?_
    unfold rankOf
    rw [hderef a ha, hderef b hb]
    exact hab
  · have hempty : SlotTable.slot (h.packetHistory ++
        List.replicate (i + 1 - h.packetHistory.length) none) i = none := by
      rw [SlotTable.slot_append_replicate]
      cases hslot : SlotTable.slot h.packetHistory i with
      | none => rfl
      | some p => exact absurd (SlotTable.lt_of_slot_eq_some hslot) (by omega)
    have hentries := SlotTable.entries_set (h.packetHistory ++
      List.replicate (i + 1 - h.packetHistory.length) none) (i := i) (by omega) (some stored)
    rw [hempty, SlotTable.entries_append, SlotTable.entries_replicate_none,
      List.append_nil] at hentries
    exact hentries.map StoredPacket.packet

theorem insertPadding_spec (ht : Table start next h)
    (hp : h.slot i = some p) : Table start next (h.insertPadding (h.firstAddress + i)) := by
  unfold insertPadding
  by_cases hon : h.enablePaddingPrio = true
  · rw [if_pos hon]
    dsimp only
    split
    · exact table_insert (table_sublist ht (List.dropLast_sublist _))
        (deref_eq_some.mpr ⟨i, rfl, hp⟩) hon
    · exact table_insert ht (deref_eq_some.mpr ⟨i, rfl, hp⟩) hon
  · rw [if_neg hon]
    exact ht

theorem insertPadding_slot (h : RtpPacketHistory) (pointer : Int) (i : Nat) :
    (h.insertPadding pointer).slot i = h.slot i := by
  unfold insertPadding
  split <;> rfl

theorem insertPadding_contents (h : RtpPacketHistory) (pointer : Int) :
    (h.insertPadding pointer).contents = h.contents := by
  unfold insertPadding
  split <;> rfl

theorem insertPadding_mode (h : RtpPacketHistory) (pointer : Int) :
    (h.insertPadding pointer).mode = h.mode := by
  unfold insertPadding
  split <;> rfl

theorem store_spec (hw : Whole start next h) {packet : RtpPacketToSend} (sendTimeMs : Option Int)
    (hnew : next ≤ (packet.sequenceNumber - start).toNat)
    (hbound : (packet.sequenceNumber - start).toNat < 2 ^ 14) :
    ∃ h', h.store packet sendTimeMs = some (h', []) ∧
      Evolves start ((packet.sequenceNumber - start).toNat + 1) h h' [packet] [] := by
  obtain ⟨i, c, hindex, hi, hzero, hc, hseq⟩ := index_of_new hw hnew hbound
  have hempty : h.slot i = none := by
    cases hslot : h.slot i with
    | none => rfl
    | some p => exact absurd (SlotTable.lt_of_slot_eq_some hslot) (by omega)
  obtain ⟨ht, hself, hother, hperm⟩ := table_store hw.toTable
    (StoredPacket.create packet sendTimeMs h.packetsInserted) hi hc hseq
    (fun hpending => by
      cases sendTimeMs with
      | none => cases hpending
      | some t => rfl) rfl
  have hexpand : h.expand (i : Int) =
      ({ h with
        packetHistory :=
          h.packetHistory ++ List.replicate (i + 1 - h.packetHistory.length) none }, i) := by
    simp [expand]
  have hroom : i < (h.packetHistory ++
      List.replicate (i + 1 - h.packetHistory.length) none).length := by
    rw [List.length_append, List.length_replicate]
    omega
  have hslot : SlotTable.slot (h.packetHistory ++
      List.replicate (i + 1 - h.packetHistory.length) none) i = none :=
    (SlotTable.slot_append_replicate _ _ _).trans hempty
  have hinserted := insertPadding_spec ht hself
  refine ⟨_, ?_, ⟨⟨hseq ▸ hinserted, ?_, by omega⟩, ?_, ?_⟩⟩
  · unfold store
    rw [hindex]
    simp only [Option.bind_eq_bind, Option.bind_some, Int.toNat_natCast, hempty, Option.isSome_none,
      Bool.false_eq_true, and_false, if_false, hexpand]
    exact if_pos ⟨hroom, hslot⟩
  · intro _
    rw [insertPadding_slot]
    by_cases hi0 : i = 0
    · subst hi0
      exact ⟨_, hself⟩
    · obtain ⟨p, hp⟩ := hw.front fun hnil => hi0 (hzero hnil)
      exact ⟨p, (hother 0 (Ne.symm hi0)).trans hp⟩
  · rw [insertPadding_contents]
    exact hperm
  · exact insertPadding_mode _ _

/-! ## The other calls -/

theorem evolves_of_update (hw : Whole start next h) (i : Nat) (f : StoredPacket → StoredPacket)
    (hpacket : ∀ p, (f p).packet = p.packet) (ht : Table start next h')
    (hslots : h'.packetHistory = (h.update i f).packetHistory) (hmode : h'.mode = h.mode) :
    Evolves start next h h' [] [] := by
  refine ⟨⟨ht, fun hne => ?_, hw.bound⟩, List.Perm.of_eq ?_, hmode⟩
  · have hslot : h'.slot 0 = (h.update i f).slot 0 := by rw [slot, slot, hslots]
    have hne' : h.packetHistory ≠ [] := by
      rw [hslots] at hne
      intro hnil
      exact hne (List.length_eq_zero_iff.mp (by rw [length_update, hnil]; rfl))
    obtain ⟨p, hp⟩ := hw.front hne'
    rw [hslot, slot_update, hp]
    split
    · exact ⟨_, rfl⟩
    · exact ⟨_, rfl⟩
  · show h'.contents = h.contents
    rw [contents, hslots]
    exact SlotTable.entries_modify _ _ hpacket

theorem retransmitted_packetHistory (h : RtpPacketHistory) (i : Nat) :
    (h.retransmitted i).packetHistory = (h.update i fun p =>
      { p with numRetransmitted := p.numRetransmitted + 1 }).packetHistory := by
  unfold retransmitted
  dsimp only
  generalize (if h.enablePaddingPrio = true then _ else _ : List Int × Bool) = erased
  split <;> rfl

theorem retransmitted_mode (h : RtpPacketHistory) (i : Nat) :
    (h.retransmitted i).mode = h.mode := by
  unfold retransmitted
  dsimp only
  generalize (if h.enablePaddingPrio = true then _ else _ : List Int × Bool) = erased
  split <;> rfl

theorem retransmitted_spec (hw : Whole start next h)
    (hp : h.slot i = some p) : Evolves start next h (h.retransmitted i) [] [] :=
  evolves_of_update hw i (fun p => { p with numRetransmitted := p.numRetransmitted + 1 })
    (fun _ => rfl) (table_retransmitted hw.toTable hp) (retransmitted_packetHistory h i)
    (retransmitted_mode h i)

theorem setSendTime_spec (hw : Whole start next h) (i : Nat) (nowMs : Int) (pending : Bool → Bool) :
    Evolves start next h (h.update i fun p =>
      { p with sendTimeMs := some nowMs, pendingTransmission := pending p.pendingTransmission }) []
        [] :=
  evolves_of_update hw i
    (fun p => { p with
      sendTimeMs := some nowMs, pendingTransmission := pending p.pendingTransmission })
    (fun _ => rfl)
    (table_update hw.toTable i (fun _ => rfl) (fun _ => rfl) (fun _ _ => rfl) fun _ _ _ =>
      rfl) rfl rfl

theorem exists_slot_update (hp : h.slot i = some p)
    (f : StoredPacket → StoredPacket) : ∃ p', (h.update i f).slot i = some p' :=
  ⟨f p, by rw [slot_update, if_pos rfl, hp]; rfl⟩

theorem withStored_spec (hw : Whole start next h) (sequenceNumber : U16)
    {act : Nat → StoredPacket → RtpPacketHistory × Option RtpPacketToSend}
    (hact : ∀ i p, h.slot i = some p → Evolves start next h (act i p).1 [] []) :
    ∃ h' result, h.withStored sequenceNumber act = some (h', result) ∧
      Evolves start next h h' [] result.culled := by
  unfold withStored
  split
  · exact ⟨h, _, rfl, Evolves.refl hw⟩
  · obtain ⟨found, hfound, hspec⟩ := lookup_spec hw sequenceNumber
    rw [hfound]
    cases found with
    | none => exact ⟨h, _, rfl, Evolves.refl hw⟩
    | some found =>
      obtain ⟨i, p⟩ := found
      exact ⟨_, _, rfl, hact i p ((hspec i p).mp rfl).1⟩

theorem getPacketAndSetSendTime_spec (hw : Whole start next h) (nowMs : Int)
    (sequenceNumber : U16) :
    ∃ h' result, h.getPacketAndSetSendTime nowMs sequenceNumber = some (h', result) ∧
      Evolves start next h h' [] result.culled := by
  refine withStored_spec hw sequenceNumber fun i p hp => ?_
  split
  · exact Evolves.refl hw
  · dsimp only
    split
    · have hretransmitted := retransmitted_spec hw hp
      exact hretransmitted.trans (setSendTime_spec hretransmitted.whole i nowMs fun _ => false)
    · exact setSendTime_spec hw i nowMs fun _ => false

theorem getPacketAndMarkAsPending_spec (hw : Whole start next h) (nowMs : Int)
    (sequenceNumber : U16)
    (encapsulate : RtpPacketToSend → Option RtpPacketToSend) :
    ∃ h' result, h.getPacketAndMarkAsPending nowMs sequenceNumber encapsulate = some (h', result) ∧
      Evolves start next h h' [] result.culled := by
  refine withStored_spec hw sequenceNumber fun i p hp => ?_
  split
  · exact Evolves.refl hw
  · split
    · exact Evolves.refl hw
    · split
      · exact Evolves.refl hw
      · exact evolves_of_update hw i (fun p => { p with pendingTransmission := true }) (fun _ =>
          rfl)
          (table_update hw.toTable i (fun _ => rfl) (fun _ => rfl) (fun _ _ => rfl)
            fun _ _ hpending => absurd hpending (by simp)) rfl rfl

theorem markPacketAsSent_spec (hw : Whole start next h) (nowMs : Int) (sequenceNumber : U16) :
    ∃ h' result, h.markPacketAsSent nowMs sequenceNumber = some (h', result) ∧
      Evolves start next h h' [] result.culled := by
  refine withStored_spec hw sequenceNumber fun i p hp => ?_
  split
  · exact Evolves.refl hw
  · have hset := setSendTime_spec hw i nowMs fun _ => false
    obtain ⟨p', hp'⟩ := exists_slot_update hp fun p =>
      { p with sendTimeMs := some nowMs, pendingTransmission := false }
    exact hset.trans (retransmitted_spec hset.whole hp')

theorem getLastAvailablePacket_slot
    (hbest : h.getLastAvailablePacket = some (i, p)) : h.slot i = some p := by
  obtain ⟨j, -, hj⟩ := List.exists_of_findSome?_eq_some hbest
  obtain ⟨p', hp', heq⟩ := Option.map_eq_some_iff.mp hj
  obtain ⟨rfl, rfl⟩ := Prod.mk.inj heq
  exact hp'

theorem bestPacket_slot (hbest : h.bestPacket = some (i, p)) :
    h.slot i = some p := by
  unfold bestPacket at hbest
  split at hbest
  · split at hbest
    · cases hbest
    · obtain ⟨p', hp', heq⟩ := Option.map_eq_some_iff.mp hbest
      obtain ⟨rfl, rfl⟩ := Prod.mk.inj heq
      obtain ⟨j, hj, hslot⟩ := deref_eq_some.mp hp'
      rw [hj, show (h.firstAddress + j - h.firstAddress).toNat = j by omega]
      exact hslot
  · exact getLastAvailablePacket_slot hbest

theorem getPayloadPaddingPacket_spec (hw : Whole start next h) (nowMs : Int)
    (encapsulate : RtpPacketToSend → Option RtpPacketToSend) :
    Evolves start next h (h.getPayloadPaddingPacket nowMs encapsulate).1 []
      (h.getPayloadPaddingPacket nowMs encapsulate).2.culled := by
  unfold getPayloadPaddingPacket
  split
  · exact Evolves.refl hw
  · split
    · exact Evolves.refl hw
    · rename_i i best hbest
      split
      · exact Evolves.refl hw
      · split
        · exact Evolves.refl hw
        · have hset := setSendTime_spec hw i nowMs id
          obtain ⟨p', hp'⟩ := exists_slot_update (bestPacket_slot hbest) fun p =>
            { p with sendTimeMs := some nowMs }
          exact hset.trans (retransmitted_spec hset.whole hp')

theorem setRttMs_spec (hw : Whole start next h) (nowMs rttMs : Int) :
    ∃ h' result, h.setRttMs nowMs rttMs = some (h', result) ∧
      Evolves start next h h' [] result.culled := by
  have hrtt : Evolves start next h { h with rttMs := rttMs } [] [] :=
    ⟨⟨⟨hw.seqs, hw.sent, hw.orders, hw.distinct, hw.pointers, hw.sorted, hw.unused⟩, hw.front,
      hw.bound⟩, List.Perm.refl _, rfl⟩
  unfold setRttMs
  split
  · exact ⟨h, _, rfl, Evolves.refl hw⟩
  · dsimp only
    split
    · exact ⟨_, _, rfl, hrtt⟩
    · obtain ⟨h', culled, hcull, hevolves⟩ := cullOldPackets_spec hrtt.whole nowMs
      exact ⟨h', ⟨none, culled⟩, by rw [hcull]; rfl, hrtt.trans hevolves⟩

theorem putRtpPacket_spec (hw : Whole start next h) (nowMs : Int) {packet : RtpPacketToSend}
    (sendTimeMs : Option Int) (haccepts : h.accepts packet = true)
    (hnew : next ≤ (packet.sequenceNumber - start).toNat)
    (hbound : (packet.sequenceNumber - start).toNat < 2 ^ 14) :
    ∃ h' result, h.putRtpPacket nowMs packet sendTimeMs = some (h', result) ∧
      Evolves start ((packet.sequenceNumber - start).toNat + 1) h h' [packet] result.culled := by
  obtain ⟨h₁, culled, hcull, hevolves⟩ := cullOldPackets_spec hw nowMs
  obtain ⟨h₂, hstore, hstored⟩ := store_spec hevolves.whole sendTimeMs hnew hbound
  unfold putRtpPacket
  rw [if_pos haccepts, hcull]
  dsimp only
  rw [hstore]
  exact ⟨h₂, ⟨none, culled ++ []⟩, rfl, hevolves.trans hstored⟩

/-! ## Every run -/

/-- The sequence numbers of the packets that are put in. -/
def putSeqs : List Op → List U16
  | [] => []
  | .putRtpPacket _ packet _ :: ops => packet.sequenceNumber :: putSeqs ops
  | _ :: ops => putSeqs ops

/-- The packets that a call stores. -/
def accepted (h : RtpPacketHistory) : Op → List RtpPacketToSend
  | .putRtpPacket _ packet _ => if h.accepts packet then [packet] else []
  | _ => []

/-- Numbers that increase from `start` on and span less than a quarter of the circle. -/
def Ascending (start : U16) (seqs : List U16) : Prop :=
  seqs.Pairwise (fun a b => (a - start).toNat < (b - start).toNat) ∧
    ∀ a ∈ seqs, (a - start).toNat < 2 ^ 14

theorem accepted_congr (hmode : h'.mode = h.mode) : h'.accepted = h.accepted := by
  have haccepts : h'.accepts = h.accepts := by
    funext packet
    rw [accepts, accepts, hmode]
  funext op
  cases op with
  | putRtpPacket nowMs packet sendTimeMs => rw [accepted, accepted, haccepts]
  | _ => rfl

/-- **Every call returns** and keeps the invariant; a packet that is put in must be newer than
all before. -/
theorem call_spec (hw : Whole start next h) (op : Op)
    (hput : ∀ a ∈ putSeqs [op], next ≤ (a - start).toNat ∧ (a - start).toNat < 2 ^ 14) :
    ∃ h' result next', h.call op = some (h', result) ∧
      (next' = next ∨ ∃ a ∈ putSeqs [op], next' = (a - start).toNat + 1) ∧
      Evolves start next' h h' (h.accepted op) result.culled := by
  cases op with
  | putRtpPacket nowMs packet sendTimeMs =>
    obtain ⟨hnew, hbound⟩ := hput packet.sequenceNumber List.mem_cons_self
    by_cases haccepts : h.accepts packet = true
    · obtain ⟨h', result, hcall, hevolves⟩ :=
        putRtpPacket_spec hw nowMs sendTimeMs haccepts hnew hbound
      refine ⟨h', result, _, hcall, Or.inr ⟨packet.sequenceNumber, List.mem_cons_self, rfl⟩, ?_⟩
      rw [accepted, if_pos haccepts]
      exact hevolves
    · refine ⟨h, ⟨none, []⟩, next, if_neg haccepts, Or.inl rfl, ?_⟩
      rw [accepted, if_neg haccepts]
      exact Evolves.refl hw
  | getPacketAndSetSendTime nowMs sequenceNumber =>
    obtain ⟨h', result, hcall, hevolves⟩ := getPacketAndSetSendTime_spec hw nowMs sequenceNumber
    exact ⟨h', result, next, hcall, Or.inl rfl, hevolves⟩
  | getPacketAndMarkAsPending nowMs sequenceNumber encapsulate =>
    obtain ⟨h', result, hcall, hevolves⟩ :=
      getPacketAndMarkAsPending_spec hw nowMs sequenceNumber encapsulate
    exact ⟨h', result, next, hcall, Or.inl rfl, hevolves⟩
  | markPacketAsSent nowMs sequenceNumber =>
    obtain ⟨h', result, hcall, hevolves⟩ := markPacketAsSent_spec hw nowMs sequenceNumber
    exact ⟨h', result, next, hcall, Or.inl rfl, hevolves⟩
  | getPayloadPaddingPacket nowMs encapsulate =>
    exact ⟨_, _, next, rfl, Or.inl rfl, getPayloadPaddingPacket_spec hw nowMs encapsulate⟩
  | cullAckedPackets ackedSeqNums =>
    obtain ⟨h', culled, hcull, hevolves⟩ := cullAckedPackets_spec hw ackedSeqNums
    exact ⟨h', ⟨none, culled⟩, next, by simp [call, hcull], Or.inl rfl, hevolves⟩
  | setRttMs nowMs rttMs =>
    obtain ⟨h', result, hcall, hevolves⟩ := setRttMs_spec hw nowMs rttMs
    exact ⟨h', result, next, hcall, Or.inl rfl, hevolves⟩

theorem putSeqs_cons (op : Op) (ops : List Op) :
    putSeqs (op :: ops) = putSeqs [op] ++ putSeqs ops := by
  cases op <;> rfl

theorem run_spec (hw : Whole start next h) {ops : List Op} (hasc : Ascending start (putSeqs ops))
    (hnew : ∀ a ∈ putSeqs ops, next ≤ (a - start).toNat) :
    ∃ (h' : RtpPacketHistory) (results : List Result) (next' : Nat),
      historyMachine.final (some h) ops = some h' ∧
      (historyMachine.log (some h) ops).map Prod.snd = results.map some ∧ Whole start next' h' ∧
      (results.flatMap Result.culled ++ h'.contents).Perm
        (ops.flatMap h.accepted ++ h.contents) := by
  induction ops generalizing h next with
  | nil => exact ⟨h, [], next, rfl, rfl, hw, List.Perm.refl _⟩
  | cons op ops ih =>
    obtain ⟨hpair, hbound⟩ := hasc
    rw [putSeqs_cons] at hpair hbound hnew
    obtain ⟨-, hpair', hcross⟩ := List.pairwise_append.mp hpair
    obtain ⟨h₁, result, next₁, hcall, hnext, hevolves⟩ := call_spec hw op fun a ha =>
      ⟨hnew a (List.mem_append_left _ ha), hbound a (List.mem_append_left _ ha)⟩
    have hnew₁ : ∀ a ∈ putSeqs ops, next₁ ≤ (a - start).toNat := by
      intro a ha
      rcases hnext with rfl | ⟨b, hb, rfl⟩
      · exact hnew a (List.mem_append_right _ ha)
      · exact hcross b hb a ha
    obtain ⟨h', results, next', hfinal, hlog, hw', hperm⟩ := ih hevolves.whole
      ⟨hpair', fun a ha => hbound a (List.mem_append_right _ ha)⟩ hnew₁
    have hstep : historyMachine.step (some h) op = (some h₁, some result) := by
      simp only [historyMachine, Option.bind_some, hcall]
    refine ⟨h', result :: results, next', ?_, ?_, hw', ?_⟩
    · rw [Machine.final_cons, hstep]
      exact hfinal
    · rw [Machine.log_cons, List.map_cons, List.map_cons, hstep, hlog]
    · rw [accepted_congr hevolves.mode] at hperm
      rw [List.flatMap_cons, List.flatMap_cons]
      calc (result.culled ++ results.flatMap Result.culled) ++ h'.contents
          _ = result.culled ++ (results.flatMap Result.culled ++ h'.contents) :=
            List.append_assoc _ _ _
          List.Perm _ (result.culled ++ (ops.flatMap h.accepted ++ h₁.contents)) :=
            hperm.append_left _
          List.Perm _ (ops.flatMap h.accepted ++ (result.culled ++ h₁.contents)) :=
            List.perm_append_comm_assoc _ _ _
          List.Perm _ (ops.flatMap h.accepted ++ (h.accepted op ++ h.contents)) :=
            hevolves.balance.append_left _
          List.Perm _ (h.accepted op ++ (ops.flatMap h.accepted ++ h.contents)) :=
            List.perm_append_comm_assoc _ _ _
          _ = (h.accepted op ++ ops.flatMap h.accepted) ++ h.contents :=
            (List.append_assoc _ _ _).symm

theorem whole_setStorePacketsStatus (enablePaddingPrio : Bool) (mode : StorageMode)
    (numberToStore : Nat)
    (start : U16) :
    Whole start 0 ((create enablePaddingPrio).setStorePacketsStatus mode numberToStore) := by
  have hempty : ∀ h : RtpPacketHistory, h.packetHistory = [] → h.paddingPriority = [] →
    Whole start 0 h := by
    intro h hnil hset
    have hslot : ∀ i, h.slot i = none := by simp [slot, SlotTable.slot, hnil]
    refine ⟨⟨⟨0, ?_, by simp [hnil]⟩, ?_, ?_, ?_, by simp [hset], ?_, fun _ => hset⟩, ?_, by decide⟩
    · exact fun i p hp => absurd hp (by simp [hslot])
    · exact fun i p hp => absurd hp (by simp [hslot])
    · exact fun i p hp => absurd hp (by simp [hslot])
    · exact fun i j p p' hp => absurd hp (by simp [hslot])
    · rw [hset]
      exact List.Pairwise.nil
    · exact fun hne => absurd hnil hne
  unfold setStorePacketsStatus
  split
  · exact hempty _ rfl rfl
  · exact hempty _ rfl rfl

/-- **The packet history over every run**, when the packets are put in with increasing sequence
numbers that span less than a quarter of the circle: every call returns, so the culling loop
ends and the assertions hold; the first entry is populated, entry `i` holds the packet `i`
behind the first, what is not pending was sent, every pointer of the padding set refers to a
packet that is stored; a look-up finds exactly the packets that are stored, and these are the
packets that were put in and not culled. -/
theorem packet_history_invariant (enablePaddingPrio : Bool) (mode : StorageMode)
    (numberToStore : Nat)
    (ops : List Op) (start : U16) (hasc : Ascending start (putSeqs ops)) :
    let h₀ := (create enablePaddingPrio).setStorePacketsStatus mode numberToStore
    ∃ (h : RtpPacketHistory) (results : List Result), historyMachine.final (some h₀) ops = some h ∧
      (historyMachine.log (some h₀) ops).map Prod.snd = results.map some ∧
      (h.packetHistory ≠ [] → ∃ front, h.slot 0 = some front ∧ ∀ i p, h.slot i = some p →
        p.packet.sequenceNumber = front.packet.sequenceNumber + BitVec.ofNat 16 i) ∧
      (∀ i p, h.slot i = some p → p.pendingTransmission = false → p.sendTimeMs.isSome) ∧
      (∀ a ∈ h.paddingPriority, ∃ (i : Nat) (p : StoredPacket), a = h.firstAddress + i ∧
        h.slot i = some p) ∧
      (∀ nowMs, (h.cullOldPackets nowMs).isSome) ∧
      (∀ sequenceNumber, ∃ found, h.getStoredPacket sequenceNumber = some found ∧
        ∀ i p, found = some (i, p) ↔
          h.slot i = some p ∧ p.packet.sequenceNumber = sequenceNumber) ∧
      (results.flatMap Result.culled ++ h.contents).Perm (ops.flatMap h₀.accepted) := by
  intro h₀
  have hw₀ : Whole start 0 h₀ :=
    whole_setStorePacketsStatus enablePaddingPrio mode numberToStore start
  obtain ⟨h, results, next, hfinal, hlog, hw, hperm⟩ := run_spec hw₀ hasc fun _ _ => Nat.zero_le _
  have hnone : h₀.contents = [] := by
    show contents (setStorePacketsStatus _ _ _) = []
    unfold setStorePacketsStatus
    split <;> rfl
  rw [hnone, List.append_nil] at hperm
  refine ⟨h, results, hfinal, hlog, ?_, hw.sent, ?_, ?_, lookup_spec hw, hperm⟩
  · intro hne
    obtain ⟨front, hfront⟩ := hw.front hne
    obtain ⟨c, hc, hlen⟩ := hw.seqs
    refine ⟨front, hfront, fun i p hp => ?_⟩
    have hf := hc 0 front hfront
    have hi := hc i p hp
    have hlt : i < h.packetHistory.length := SlotTable.lt_of_slot_eq_some hp
    have hbound := hw.bound
    have hdist := (distance_iff (a := p.packet.sequenceNumber) hf (show c + i < 2 ^ 16 by omega)).mpr hi
    bv_omega
  · intro a ha
    obtain ⟨p, hp⟩ := hw.pointers a ha
    obtain ⟨i, hi, hslot⟩ := deref_eq_some.mp hp
    exact ⟨i, p, hi, hslot⟩
  · intro nowMs
    obtain ⟨h', culled, hcull, -⟩ := cullOldPackets_spec hw nowMs
    rw [hcull]
    rfl

/-- Packet 65535 is put in and sent, packet 0 follows and waits, the first is acknowledged. -/
theorem packet_history_invariant_wrap :
    let packet : U16 → RtpPacketToSend := fun sequenceNumber =>
      { ssrc := 1, sequenceNumber := sequenceNumber, packetType := .video, allowRetransmission :=
        true
        headerSize := 12, payloadSize := 100, paddingSize := 0 }
    let h₀ := (create true).setStorePacketsStatus .storeAndCull 10
    let ops := [.putRtpPacket 0 (packet 65535) (some 0), .putRtpPacket 5 (packet 0) none,
      .cullAckedPackets [65535]]
    Ascending 65535 (putSeqs ops) ∧
      ∃ (h : RtpPacketHistory) (results : List Result),
        historyMachine.final (some h₀) ops = some h ∧
        (results.flatMap Result.culled ++ h.contents).Perm [packet 65535, packet 0] := by
  intro packet h₀ ops
  have hasc : Ascending 65535 (putSeqs ops) := by
    show Ascending 65535 [65535, 0]
    simp [Ascending]
  have haccepted : ops.flatMap h₀.accepted = [packet 65535, packet 0] := rfl
  obtain ⟨h, results, hfinal, -, -, -, -, -, -, hperm⟩ :=
    packet_history_invariant true .storeAndCull 10 ops 65535 hasc
  exact ⟨hasc, h, results, hfinal, haccepted ▸ hperm⟩

end RtpPacketHistory

end NaiveRtc.Rtp
