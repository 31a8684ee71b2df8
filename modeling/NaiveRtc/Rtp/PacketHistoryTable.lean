import NaiveRtc.Rtp.PacketHistory
import Mathlib.Data.Prod.Lex

/-!
# The slots of the packet history

The invariant of the deque and of the pointers into it, and what changing a slot, clearing
one and dropping the empty slots in front do to it.

* `StoredPacket.rank`, `before_iff` — the order of the padding set as a rank.
* `erasePointer_eq` — erasing from a set that is in order.
* `Table` — slot `i` holds the packet with the `i`-th sequence number behind the first one,
  the pointers refer to packets and are in order.
* `table_update`, `table_retransmitted`, `table_clear`, `table_popFront`.
-/

namespace NaiveRtc.Rtp

open Ordered

/-- The order of the padding set as a rank. -/
def StoredPacket.rank (p : StoredPacket) : Nat ×ₗ Natᵒᵈ :=
  toLex (p.numRetransmitted, OrderDual.toDual p.insertOrder)

theorem StoredPacket.compare_iff (p p' : StoredPacket) :
    p.compare p' = true ↔ p.rank < p'.rank := by
  unfold StoredPacket.compare StoredPacket.rank
  rw [Prod.Lex.toLex_lt_toLex]
  by_cases hnum : p.numRetransmitted = p'.numRetransmitted
  · simp [hnum]
  · simp [hnum]

namespace RtpPacketHistory

variable {h : RtpPacketHistory} {start : U16} {next : Nat}

/-! ## Pointers -/

variable {p : StoredPacket}

theorem deref_eq_some {a : Int} :
    h.deref a = some p ↔ ∃ i : Nat, a = h.firstAddress + i ∧ h.slot i = some p := by
  unfold deref
  constructor
  · intro hderef
    split at hderef
    · cases hderef
    · exact ⟨_, by omega, hderef⟩
  · rintro ⟨i, rfl, hslot⟩
    rw [if_neg (by omega), show (h.firstAddress + i - h.firstAddress).toNat = i by omega]
    exact hslot

/-- The rank of the packet that a pointer refers to. -/
def rankOf (h : RtpPacketHistory) (a : Int) : Nat ×ₗ Natᵒᵈ :=
  match h.deref a with
  | some p => p.rank
  | none => toLex (0, OrderDual.toDual 0)

theorem before_iff {a b : Int} {p p' : StoredPacket} (ha : h.deref a = some p)
    (hb : h.deref b = some p') : h.before a b = true ↔ h.rankOf a < h.rankOf b := by
  unfold before rankOf
  rw [ha, hb]
  exact StoredPacket.compare_iff p p'

variable {set : List Int} {k : Int}

/-- **Erasing a pointer** takes out exactly that pointer, when the set is in order and the
ranks tell its pointers apart. -/
theorem erasePointer_eq {γ : Type*} [LinearOrder γ] {before : Int → Int → Bool} {rank : Int → γ}
    (hsorted : Ranked rank set)
    (hlt : ∀ a ∈ set, (before a k = true ↔ rank a < rank k) ∧ (before k a = true ↔ rank k < rank a))
    (hinj : ∀ a ∈ set, rank a = rank k → a = k) :
    erasePointer before k set = (set.filter fun a => a ≠ k, decide (k ∈ set)) := by
  induction set with
  | nil => rfl
  | cons a set ih =>
    obtain ⟨hhead, htail⟩ := List.pairwise_cons.mp hsorted
    obtain ⟨hbefore, hafter⟩ := hlt a List.mem_cons_self
    have hrest := ih htail (fun b hb => hlt b (List.mem_cons_of_mem a hb))
      (fun b hb => hinj b (List.mem_cons_of_mem a hb))
    rw [erasePointer]
    by_cases h1 : rank a < rank k
    · have hne : a ≠ k := fun heq => absurd (heq ▸ h1) (lt_irrefl _)
      rw [if_pos (hbefore.mpr h1), hrest]
      refine Prod.ext ?_ ?_
      · simp [hne]
      · simp [Ne.symm hne]
    · rw [if_neg fun hb => h1 (hbefore.mp hb)]
      by_cases h2 : rank k < rank a
      · have hgone : ∀ b ∈ a :: set, b ≠ k := by
          intro b hb heq
          subst heq
          rcases List.mem_cons.mp hb with rfl | hb
          · exact lt_irrefl _ h2
          · exact lt_irrefl _ (h2.trans (hhead b hb))
        rw [if_pos (hafter.mpr h2)]
        refine Prod.ext ?_ ?_
        · exact (List.filter_eq_self.mpr fun b hb => decide_eq_true (hgone b hb)).symm
        · exact (decide_eq_false fun hk => hgone k hk rfl).symm
      · rw [if_neg fun hb => h2 (hafter.mp hb)]
        obtain rfl : a = k :=
          hinj a List.mem_cons_self (le_antisymm (not_lt.mp h2) (not_lt.mp h1))
        have hgone : ∀ b ∈ set, b ≠ a := by
          intro b hb heq
          exact absurd (hhead b hb) (by rw [heq]; exact lt_irrefl _)
        refine Prod.ext ?_ ?_
        · rw [List.filter_cons_of_neg (by simp)]
          exact (List.filter_eq_self.mpr fun b hb => decide_eq_true (hgone b hb)).symm
        · simp

/-! ## The invariant -/

/-- What holds of the slots and of the pointers between any two steps.  The sequence numbers
are counted from `start`; all stored so far are below `next`. -/
structure Table (start : U16) (next : Nat) (h : RtpPacketHistory) : Prop where
  seqs : ∃ c, (∀ i p, h.slot i = some p → (p.packet.sequenceNumber - start).toNat = c + i) ∧
    c + h.packetHistory.length ≤ next
  sent : ∀ i p, h.slot i = some p → p.pendingTransmission = false → p.sendTimeMs.isSome
  orders : ∀ i p, h.slot i = some p → p.insertOrder < h.packetsInserted
  distinct : ∀ i j p p', h.slot i = some p → h.slot j = some p' → p.insertOrder = p'.insertOrder →
    i = j
  pointers : ∀ a ∈ h.paddingPriority, ∃ p, h.deref a = some p
  sorted : Ranked h.rankOf h.paddingPriority
  unused : h.enablePaddingPrio = false → h.paddingPriority = []

theorem Table.rankOf_inj (ht : Table start next h) {a b : Int} {p p' : StoredPacket}
    (ha : h.deref a = some p) (hb : h.deref b = some p') (hrank : h.rankOf a = h.rankOf b) :
    a = b := by
  obtain ⟨i, rfl, hi⟩ := deref_eq_some.mp ha
  obtain ⟨j, rfl, hj⟩ := deref_eq_some.mp hb
  unfold rankOf at hrank
  rw [ha, hb] at hrank
  have horder : p.insertOrder = p'.insertOrder :=
    congrArg OrderDual.ofDual (congrArg Prod.snd (toLex.injective hrank))
  rw [ht.distinct i j p p' hi hj horder]

theorem Table.erase_eq (ht : Table start next h) (hk : h.deref k = some p) :
    erasePointer h.before k h.paddingPriority =
      (h.paddingPriority.filter fun a => a ≠ k, decide (k ∈ h.paddingPriority)) := by
  refine erasePointer_eq ht.sorted (fun a ha => ?_) (fun a ha hrank => ?_)
  · obtain ⟨p', hp'⟩ := ht.pointers a ha
    exact ⟨before_iff hp' hk, before_iff hk hp'⟩
  · obtain ⟨p', hp'⟩ := ht.pointers a ha
    exact ht.rankOf_inj hp' hk hrank

/-! ## Changing a slot -/

theorem slot_update (h : RtpPacketHistory) (i j : Nat) (f : StoredPacket → StoredPacket) :
    (h.update i f).slot j = if i = j then (h.slot j).map f else h.slot j :=
  SlotTable.slot_modify _ _ _ _

theorem length_update (h : RtpPacketHistory) (i : Nat) (f : StoredPacket → StoredPacket) :
    (h.update i f).packetHistory.length = h.packetHistory.length := List.length_modify _ _ _

variable {f : StoredPacket → StoredPacket}

theorem slot_update_cases {i j : Nat} (hp : (h.update i f).slot j = some p) :
    (j = i ∧ ∃ p₀, h.slot j = some p₀ ∧ p = f p₀) ∨ (j ≠ i ∧ h.slot j = some p) := by
  rw [slot_update] at hp
  split at hp
  · rename_i hij
    obtain ⟨p₀, hp₀, heq⟩ := Option.map_eq_some_iff.mp hp
    exact Or.inl ⟨hij.symm, p₀, hp₀, heq.symm⟩
  · rename_i hij
    exact Or.inr ⟨Ne.symm hij, hp⟩

theorem slot_update_from {i j : Nat}
    (hp : (h.update i f).slot j = some p) : ∃ p₀, h.slot j = some p₀ ∧ (p = f p₀ ∨ p = p₀) := by
  rcases slot_update_cases hp with ⟨-, p₀, hp₀, heq⟩ | ⟨-, hp⟩
  · exact ⟨p₀, hp₀, Or.inl heq⟩
  · exact ⟨p, hp, Or.inr rfl⟩

theorem deref_update (h : RtpPacketHistory) (i : Nat) (f : StoredPacket → StoredPacket) (a : Int) :
    (h.update i f).deref a = if a = h.firstAddress + i then (h.deref a).map f else h.deref a := by
  unfold deref
  by_cases hlt : a < h.firstAddress
  · rw [if_pos (show a < (h.update i f).firstAddress from hlt), if_pos hlt]
    split <;> rfl
  · rw [if_neg (show ¬ a < (h.update i f).firstAddress from hlt), if_neg hlt]
    show (h.update i f).slot (a - h.firstAddress).toNat = _
    rw [slot_update]
    by_cases ha : a = h.firstAddress + i
    · rw [if_pos (by omega), if_pos ha]
    · rw [if_neg (by omega), if_neg ha]

/-- **A change that keeps the packet and its order**, and its rank as far as a pointer of the
set refers to it, keeps the table. -/
theorem table_update (ht : Table start next h) (i : Nat)
    (hpacket : ∀ p, (f p).packet = p.packet) (horder : ∀ p, (f p).insertOrder = p.insertOrder)
    (hnum : h.firstAddress + i ∈ h.paddingPriority →
      ∀ p, (f p).numRetransmitted = p.numRetransmitted)
    (hsent : ∀ p, h.slot i = some p → (f p).pendingTransmission = false → (f p).sendTimeMs.isSome) :
    Table start next (h.update i f) := by
  have hrank : ∀ a ∈ h.paddingPriority, (h.update i f).rankOf a = h.rankOf a := by
    intro a hmem
    unfold rankOf
    rw [deref_update]
    by_cases ha : a = h.firstAddress + i
    · rw [if_pos ha]
      cases h.deref a with
      | none => rfl
      | some p =>
        show (f p).rank = p.rank
        rw [StoredPacket.rank, StoredPacket.rank, hnum (ha ▸ hmem), horder]
    · rw [if_neg ha]
  refine ⟨?_, ?_, ?_, ?_, ?_, ?_, ht.unused⟩
  · obtain ⟨c, hc, hlen⟩ := ht.seqs
    refine ⟨c, fun j p hp => ?_, by rw [length_update]; exact hlen⟩
    obtain ⟨p₀, hp₀, rfl | rfl⟩ := slot_update_from hp
    · rw [hpacket]
      exact hc j p₀ hp₀
    · exact hc j p hp₀
  · intro j p hp
    rcases slot_update_cases hp with ⟨rfl, p₀, hp₀, rfl⟩ | ⟨-, hp⟩
    · exact hsent p₀ hp₀
    · exact ht.sent j p hp
  · intro j p hp
    obtain ⟨p₀, hp₀, rfl | rfl⟩ := slot_update_from hp
    · rw [horder]
      exact ht.orders j p₀ hp₀
    · exact ht.orders j p hp₀
  · intro j k p p' hp hp' heq
    obtain ⟨p₀, hp₀, hfrom⟩ := slot_update_from hp
    obtain ⟨p₁, hp₁, hfrom'⟩ := slot_update_from hp'
    refine ht.distinct j k p₀ p₁ hp₀ hp₁ ?_
    have h0 : p.insertOrder = p₀.insertOrder := by rcases hfrom with rfl | rfl <;> simp [horder]
    have h1 : p'.insertOrder = p₁.insertOrder := by rcases hfrom' with rfl | rfl <;> simp [horder]
    rw [← h0, ← h1, heq]
  · intro a ha
    obtain ⟨p, hp⟩ := ht.pointers a ha
    rw [deref_update, hp]
    split
    · exact ⟨_, rfl⟩
    · exact ⟨_, rfl⟩
  · exact ht.sorted.imp_of_mem fun {a b} ha hb hab => by
      rw [hrank a ha, hrank b hb]
      exact hab

/-! ## Changing the set -/

theorem table_sublist (ht : Table start next h) (hsub : set.Sublist h.paddingPriority) :
    Table start next { h with paddingPriority := set } := by
  refine ⟨ht.seqs, ht.sent, ht.orders, ht.distinct, fun a ha => ht.pointers a (hsub.subset ha),
    ht.sorted.sublist hsub, fun hoff => ?_⟩
  rw [ht.unused hoff] at hsub
  exact List.sublist_nil.mp hsub

theorem table_insert (ht : Table start next h)
    (hk : h.deref k = some p) (hon : h.enablePaddingPrio = true) :
    Table start next { h with paddingPriority := insertBy h.before id k h.paddingPriority } := by
  refine ⟨ht.seqs, ht.sent, ht.orders, ht.distinct, fun a ha => ?_, ?_, fun hoff => ?_⟩
  · rcases mem_insertBy ha with rfl | ha
    · exact ⟨p, hk⟩
    · exact ht.pointers a ha
  · refine @ranked_insertBy Int Int _ h.before id h.paddingPriority k _ h.rankOf ?_ ht.sorted
    intro a ha
    obtain ⟨p', hp'⟩ := ht.pointers a ha
    exact ⟨before_iff hp' hk, before_iff hk hp'⟩
  · exact absurd (hon.symm.trans hoff) (by decide)

theorem not_mem_filter_ne (k : Int) (set : List Int) : k ∉ set.filter fun a => a ≠ k := by
  intro hmem
  simpa using (List.mem_filter.mp hmem).2

theorem table_retransmitted (ht : Table start next h) {i : Nat}
    (hp : h.slot i = some p) : Table start next (h.retransmitted i) := by
  have hk : h.deref (h.firstAddress + i) = some p := deref_eq_some.mpr ⟨i, rfl, hp⟩
  have hbump : ∀ {set : List Int}, set.Sublist h.paddingPriority → h.firstAddress + i ∉ set →
      Table start next ({ h with paddingPriority := set }.update i fun p =>
        { p with numRetransmitted := p.numRetransmitted + 1 }) := by
    intro set hsub hnot
    refine table_update (table_sublist ht hsub) i (fun _ => rfl) (fun _ => rfl)
      (fun hmem => absurd hmem hnot) (fun p₀ hp₀ => ht.sent i p₀ hp₀)
  unfold retransmitted
  extract_lets pointer
  by_cases hon : h.enablePaddingPrio = true
  · rw [if_pos hon, ht.erase_eq hk]
    have hset := hbump List.filter_sublist
      (not_mem_filter_ne (h.firstAddress + i) h.paddingPriority)
    dsimp only
    split
    · refine table_insert hset (p := { p with numRetransmitted := p.numRetransmitted + 1 }) ?_ hon
      refine (deref_update _ i _ _).trans ?_
      rw [if_pos rfl]
      exact congrArg (Option.map _) hk
    · exact hset
  · rw [if_neg hon]
    have hnil := ht.unused (Bool.not_eq_true _ ▸ hon)
    exact hbump (List.Sublist.refl _) (by rw [hnil]; simp)

/-! ## Clearing a slot -/

theorem table_clear (ht : Table start next h) {i : Nat}
    (hsub : set.Sublist h.paddingPriority) (hnot : h.firstAddress + i ∉ set) :
    Table start next { h with
      paddingPriority := set, packetHistory := h.packetHistory.set i none } := by
  have hslot : ∀ j p, SlotTable.slot (h.packetHistory.set i none) j = some p →
      j ≠ i ∧ h.slot j = some p := by
    intro j p hp
    rw [SlotTable.slot_set] at hp
    split at hp
    · simp at hp
    · rename_i hij
      exact ⟨Ne.symm hij, hp⟩
  have hderef : ∀ a ∈ set, RtpPacketHistory.deref { h with
      paddingPriority := set, packetHistory := h.packetHistory.set i none } a = h.deref a := by
    intro a ha
    unfold deref
    split
    · rfl
    · rename_i hge
      refine SlotTable.slot_set_ne (fun heq => hnot ?_) none
      have haddr : h.firstAddress + i = a := by
        change ¬ a < h.firstAddress at hge
        change i = (a - h.firstAddress).toNat at heq
        omega
      exact haddr ▸ ha
  refine ⟨?_, ?_, ?_, ?_, ?_, ?_, ?_⟩
  · obtain ⟨c, hc, hlen⟩ := ht.seqs
    exact ⟨c, fun j p hp => hc j p (hslot j p hp).2, by simpa using hlen⟩
  · exact fun j p hp => ht.sent j p (hslot j p hp).2
  · exact fun j p hp => ht.orders j p (hslot j p hp).2
  · exact fun j k p p' hp hp' => ht.distinct j k p p' (hslot j p hp).2 (hslot k p' hp').2
  · intro a ha
    rw [hderef a ha]
    exact ht.pointers a (hsub.subset ha)
  · refine (ht.sorted.sublist hsub).imp_of_mem fun {a b} ha hb hab => ?_
    unfold rankOf
    rw [hderef a ha, hderef b hb]
    exact hab
  · exact (table_sublist ht hsub).unused

/-! ## Empty slots in front -/

/-- The first entry is populated. -/
def FrontPopulated (h : RtpPacketHistory) : Prop := h.packetHistory ≠ [] → ∃ p, h.slot 0 = some p

theorem slot_popFront (h : RtpPacketHistory) (i : Nat) :
    h.popFront.slot i = h.slot (i + (h.packetHistory.takeWhile Option.isNone).length) :=
  SlotTable.slot_dropWhile _ _

theorem deref_popFront (h : RtpPacketHistory) (a : Int) : h.popFront.deref a = h.deref a := by
  unfold deref
  rw [show h.popFront.firstAddress =
    h.firstAddress + (h.packetHistory.takeWhile Option.isNone).length from rfl]
  by_cases hlt : a < h.firstAddress
  · rw [if_pos (by omega), if_pos hlt]
  · rw [if_neg hlt]
    by_cases hpopped : a < h.firstAddress + (h.packetHistory.takeWhile Option.isNone).length
    · rw [if_pos hpopped]
      exact (SlotTable.slot_takeWhile (by omega)).symm
    · rw [if_neg hpopped, slot_popFront]
      congr 1
      omega

theorem table_popFront (ht : Table start next h) :
    Table start next h.popFront ∧ FrontPopulated h.popFront := by
  have hrank : ∀ a, h.popFront.rankOf a = h.rankOf a := by
    intro a
    unfold rankOf
    rw [deref_popFront]
  refine ⟨⟨?_, ?_, ?_, ?_, ?_, ?_, ht.unused⟩, ?_⟩
  · obtain ⟨c, hc, hlen⟩ := ht.seqs
    refine ⟨c + (h.packetHistory.takeWhile Option.isNone).length, fun i p hp => ?_, ?_⟩
    · rw [slot_popFront] at hp
      rw [hc _ p hp]
      omega
    · have hsplit := congrArg List.length
        (List.takeWhile_append_dropWhile (p := Option.isNone) (l := h.packetHistory))
      rw [List.length_append] at hsplit
      show _ + (h.packetHistory.dropWhile Option.isNone).length ≤ next
      omega
  · intro i p hp
    rw [slot_popFront] at hp
    exact ht.sent _ p hp
  · intro i p hp
    rw [slot_popFront] at hp
    exact ht.orders _ p hp
  · intro i j p p' hp hp' heq
    rw [slot_popFront] at hp hp'
    have := ht.distinct _ _ p p' hp hp' heq
    omega
  · intro a ha
    rw [deref_popFront]
    exact ht.pointers a ha
  · exact ht.sorted.imp fun {a b} hab => by rw [hrank, hrank]; exact hab
  · intro hne
    change h.packetHistory.dropWhile Option.isNone ≠ [] at hne
    show ∃ p, SlotTable.slot (h.packetHistory.dropWhile Option.isNone) 0 = some p
    cases hdrop : h.packetHistory.dropWhile Option.isNone with
    | nil => exact absurd hdrop hne
    | cons x rest =>
      have hx := List.head?_dropWhile_not Option.isNone h.packetHistory
      rw [hdrop] at hx
      cases x with
      | none => simp at hx
      | some p => exact ⟨p, rfl⟩

end RtpPacketHistory

end NaiveRtc.Rtp
