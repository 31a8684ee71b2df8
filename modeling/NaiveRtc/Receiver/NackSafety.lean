import NaiveRtc.Receiver.NackInvariant

/-!
# The NACK module and the packets it already has

A number that was received, recovered, or cleared should never be requested.  The
module guards numbers behind `newest_seq_num_` by never going back over them, and
numbers ahead of it only by `recovered_list_`; that list is pruned by the age of
*recovered* packets and by `ClearUpTo`, both of which may run ahead of
`newest_seq_num_`.

* `NeverRequestsKnown` — the property, over a whole run.
* `keepsKnown` — the condition on a step under which nothing is forgotten.
* `neverRequestsKnown_of_keepsKnown` — runs of such steps request nothing known.
-/

namespace NaiveRtc.Nack

open WrapAround Ordered

/-- The numbers passed to `InsertPacket`. -/
def inserted (ops : List Op) : List U16 :=
  ops.filterMap fun
    | .insertPacket q _ _ => some q
    | _ => none

/-- The arguments of `ClearUpTo`. -/
def clearPoints (ops : List Op) : List U16 :=
  ops.filterMap fun
    | .clearUpTo c => some c
    | _ => none

theorem inserted_append (ops ops' : List Op) :
    inserted (ops ++ ops') = inserted ops ++ inserted ops' := List.filterMap_append

theorem clearPoints_append (ops ops' : List Op) :
    clearPoints (ops ++ ops') = clearPoints ops ++ clearPoints ops' := List.filterMap_append

/-- No step of the run hands out a number that was inserted so far, or one that is
older than the argument of an earlier `ClearUpTo`. -/
def NeverRequestsKnown (w : World) (ops : List Op) : Prop :=
  ∀ pre op post, ops = pre ++ op :: post →
    ∀ x ∈ (machine.step (machine.final w pre) op).2,
      x ∉ inserted (pre ++ [op]) ∧ ∀ c ∈ clearPoints pre, olderThan x c = false

/-- Fewer than half the sequence numbers are spanned, from `b` on. -/
def SpannedFrom (b : U16) (ops : List Op) : Prop :=
  ∀ q ∈ inserted ops ++ clearPoints ops, rank b q < 32767

/-- Number 2 is recovered, then number 10003, which ages 2 out of the recovered
list although `newest_seq_num_` is still 0; the gap in front of 4 requests it. -/
theorem forgets_recovered :
    SpannedFrom 0 [.insertPacket 0 false false, .insertPacket 2 false true,
      .insertPacket 10003 false true, .insertPacket 4 false false] ∧
    ¬ NeverRequestsKnown (start 0 0) [.insertPacket 0 false false, .insertPacket 2 false true,
      .insertPacket 10003 false true, .insertPacket 4 false false] := by
  constructor
  · simp [SpannedFrom, inserted, clearPoints, rank]
  · intro h
    have hout := h [.insertPacket 0 false false, .insertPacket 2 false true,
      .insertPacket 10003 false true] (.insertPacket 4 false false) [] rfl 2 (by decide +kernel)
    exact hout.1 (by decide +kernel)

/-- **What a step must respect.**  A recovered packet that runs ahead must not age
out a recovered number that is itself still ahead of `newest_seq_num_`, and
`ClearUpTo` must come after the first packet and not reach past the number after
`newest_seq_num_`. -/
def keepsKnown (w : World) : Op → Bool
  | .insertPacket q _ true =>
    !w.nack.initialized || !aheadOf q w.nack.newestSeqNum ||
      w.nack.recoveredList.all fun r =>
        !aheadOf r w.nack.newestSeqNum || !olderThan r (oldestKept q)
  | .clearUpTo c => w.nack.initialized && !aheadOf c (w.nack.newestSeqNum + 1)
  | _ => true

/-! ## The invariant -/

/-- What the history says about a state: `ins` and `clr` are the numbers inserted
and cleared so far, in a window that starts at `b`. -/
structure SafeInv (b : U16) (ins clr : List U16) (w : World) : Prop where
  inv : WorldInv w
  /-- Before the first packet nothing has happened. -/
  fresh : w.nack.initialized = false → ins = [] ∧ clr = []
  newest : w.nack.initialized = true → rank b w.nack.newestSeqNum < 32767
  spanned : ∀ q ∈ ins, rank b q < 32767
  /-- No entry was inserted or cleared, and each lies behind the newest number. -/
  entries : ∀ x ∈ keys w.nack.nackList, rank b x < rank b w.nack.newestSeqNum ∧ x ∉ ins ∧
    ∀ c ∈ clr, rank b c ≤ rank b x
  /-- A number ahead of the newest one that was inserted is on the recovered list. -/
  ahead : ∀ q ∈ ins, rank b q ≤ rank b w.nack.newestSeqNum ∨ q ∈ w.nack.recoveredList
  /-- No `ClearUpTo` reached past the number after the newest one. -/
  cleared : ∀ c ∈ clr, rank b c ≤ rank b w.nack.newestSeqNum + 1

section Steps

variable {b : U16} {ins clr : List U16} {w : World}

theorem SafeInv.of_keys_subset (hs : SafeInv b ins clr w) {w' : World} (hinv : WorldInv w')
    (hinit : w'.nack.initialized = w.nack.initialized)
    (hnewest : w'.nack.newestSeqNum = w.nack.newestSeqNum)
    (hrec : w'.nack.recoveredList = w.nack.recoveredList)
    (hkeys : keys w'.nack.nackList ⊆ keys w.nack.nackList) : SafeInv b ins clr w' where
  inv := hinv
  fresh := hinit ▸ hs.fresh
  newest := hinit ▸ hnewest ▸ hs.newest
  spanned := hs.spanned
  entries x hx := hnewest ▸ hs.entries x (hkeys hx)
  ahead q hq := hnewest ▸ hrec ▸ hs.ahead q hq
  cleared c hc := hnewest ▸ hs.cleared c hc

theorem aheadOf_eq_rank {p q : U16} (hp : rank b p < 32768) (hq : rank b q < 32768) :
    aheadOf p q = true ↔ rank b q < rank b p :=
  aheadOf_iff_rank (by omega) (by omega)

theorem SafeInv.ranked (hs : SafeInv b ins clr w) (hinit : w.nack.initialized = true) :
    Ranked (fun e : NackInfo => rank b e.seqNum) w.nack.nackList := by
  have hnew := hs.newest hinit
  refine (List.pairwise_map.1 hs.inv.1.ordered).imp_of_mem ?_
  intro e e' he he' hlt
  have h₁ := (hs.entries _ (List.mem_map_of_mem he)).1
  have h₂ := (hs.entries _ (List.mem_map_of_mem he')).1
  exact (aheadOf_eq_rank (by omega) (by omega)).1 hlt

theorem SafeInv.clearUpTo (hs : SafeInv b ins clr w) {c : U16} (hc : rank b c < 32767)
    (hgood : keepsKnown w (.clearUpTo c) = true) :
    SafeInv b ins (clr ++ [c]) (machine.step w (.clearUpTo c)).1 := by
  have hinv := (step_spec hs.inv (.clearUpTo c)).inv
  simp only [keepsKnown, Bool.and_eq_true, Bool.not_eq_true'] at hgood
  obtain ⟨hinit, hahead⟩ := hgood
  have hnew := hs.newest hinit
  have hnext : rank b (w.nack.newestSeqNum + 1) = rank b w.nack.newestSeqNum + 1 := by
    unfold rank at hnew ⊢
    bv_omega
  have hle : rank b c ≤ rank b w.nack.newestSeqNum + 1 := by
    rw [← Bool.not_eq_true, aheadOf_eq_rank (b := b) (by omega) (by omega), hnext] at hahead
    omega
  refine ⟨hinv, ?_, fun _ => hnew, hs.spanned, ?_, ?_, ?_⟩
  · intro hi
    exact absurd (hinit.symm.trans hi) (by simp)
  · intro x hx
    obtain ⟨e, he, rfl⟩ := List.mem_map.1 hx
    -- the lower bound cuts the list at the rank of the argument
    have hcut := (mem_eraseBelow_iff (hs.ranked hinit) (c := rank b c) ?_).1 he
    · obtain ⟨hlt, hins, hclr⟩ := hs.entries _ (List.mem_map_of_mem hcut.1)
      refine ⟨hlt, hins, ?_⟩
      intro c' hc'
      rcases List.mem_append.1 hc' with hc' | hc'
      · exact hclr c' hc'
      · rw [List.mem_singleton.1 hc']
        exact hcut.2
    · intro e' he'
      have := (hs.entries _ (List.mem_map_of_mem he')).1
      exact olderThan_eq_rank (by omega) (by omega)
  · intro q hq
    rcases hs.ahead q hq with hq' | hq'
    · exact Or.inl hq'
    · have hspan := hs.spanned q hq
      by_cases hold : olderThan q c = true
      · rw [olderThan, aheadOf_eq_rank (b := b) (by omega) (by omega)] at hold
        exact Or.inl (show rank b q ≤ rank b w.nack.newestSeqNum by omega)
      · exact Or.inr (mem_eraseBelow_of_not_lt hq' (by simpa using hold))
  · intro c' hc'
    rcases List.mem_append.1 hc' with hc' | hc'
    · exact hs.cleared c' hc'
    · rw [List.mem_singleton.1 hc']
      exact hle

variable {q : U16}

/-- A step that notes a number at or behind the newest one, or on the recovered
list, and takes the number off the NACK list. -/
theorem SafeInv.note (hs : SafeInv b ins clr w) {w' : World} (hinv : WorldInv w')
    (hq : rank b q < 32767) (hinit : w.nack.initialized = true)
    (hinit' : w'.nack.initialized = true)
    (hnewest : w'.nack.newestSeqNum = w.nack.newestSeqNum)
    (hkeys : ∀ x ∈ keys w'.nack.nackList, x ∈ keys w.nack.nackList ∧ x ≠ q)
    (hrec : ∀ r ∈ w.nack.recoveredList, r ∈ ins →
      rank b r ≤ rank b w.nack.newestSeqNum ∨ r ∈ w'.nack.recoveredList)
    (hself : rank b q ≤ rank b w.nack.newestSeqNum ∨ q ∈ w'.nack.recoveredList) :
    SafeInv b (ins ++ [q]) clr w' where
  inv := hinv
  fresh hi := absurd (hinit'.symm.trans hi) (by simp)
  newest _ := hnewest ▸ hs.newest hinit
  spanned p hp := by
    rcases List.mem_append.1 hp with hp | hp
    · exact hs.spanned p hp
    · exact List.mem_singleton.1 hp ▸ hq
  entries x hx := by
    obtain ⟨hmem, hne⟩ := hkeys x hx
    obtain ⟨hlt, hins, hclr⟩ := hs.entries x hmem
    refine ⟨hnewest ▸ hlt, ?_, hclr⟩
    simp [hins, hne]
  ahead p hp := by
    rw [hnewest]
    rcases List.mem_append.1 hp with hp | hp
    · rcases hs.ahead p hp with h | h
      · exact Or.inl h
      · exact hrec p h hp
    · rw [List.mem_singleton.1 hp]
      exact hself
  cleared c hc := hnewest ▸ hs.cleared c hc

theorem rank_of_mem_gap {n q : U16} (hn : rank b n < 32767) (hq : rank b q < 32767)
    (hlt : rank b n < rank b q) {now : Int} {rs : List U16} {e : NackInfo}
    (he : e ∈ newNacks now rs (q - (n + 1)).toNat (n + 1)) :
    rank b n < rank b e.seqNum ∧ rank b e.seqNum < rank b q := by
  obtain ⟨⟨i, hi, heq⟩, -⟩ := mem_newNacks he
  rw [heq]
  unfold rank at *
  bv_omega

theorem SafeInv.closeGap (hs : SafeInv b ins clr w) {k : Bool}
    (hq : rank b q < 32767) (hinit : w.nack.initialized = true)
    (hlt : rank b w.nack.newestSeqNum < rank b q) {ks : List U16} {s₁ : NackModuleImpl}
    (hs₁ : s₁ = { (addPacketsToNack { w.nack with keyframeList := ks } w.nowMs
      (w.nack.newestSeqNum + 1) q).1 with newestSeqNum := q })
    (hstep : (machine.step w (.insertPacket q k false)).1.nack
      = (nackListToSend s₁ w.nowMs .seqNum q).1) :
    (∀ x ∈ keys s₁.nackList, rank b x < rank b q ∧ x ∉ ins ++ [q] ∧
      ∀ c ∈ clr, rank b c ≤ rank b x) ∧
    SafeInv b (ins ++ [q]) clr (machine.step w (.insertPacket q k false)).1 := by
  have hinv := (step_spec hs.inv (.insertPacket q k false)).inv
  have hnew := hs.newest hinit
  have hI : Inv { w.nack with keyframeList := ks } :=
    hs.inv.1.of_nackList_sublist _ _ (List.Sublist.refl _)
  have hspec := addPacketsToNack_spec hI w.nowMs q
  have hshape : s₁.initialized = true ∧ s₁.newestSeqNum = q ∧
      s₁.recoveredList = w.nack.recoveredList := by
    rcases hspec with ⟨ks', hA⟩ | ⟨-, ks', l, -, -, hB⟩
    · rw [hs₁, hA]
      exact ⟨hinit, rfl, rfl⟩
    · rw [hs₁, hB]
      exact ⟨hinit, rfl, rfl⟩
  have hentries : ∀ x ∈ keys s₁.nackList, rank b x < rank b q ∧ x ∉ ins ++ [q] ∧
      ∀ c ∈ clr, rank b c ≤ rank b x := by
    intro x hx
    have hx' : (rank b x < rank b q ∧ x ∉ ins) ∧ ∀ c ∈ clr, rank b c ≤ rank b x := by
      rcases hspec with ⟨ks', hA⟩ | ⟨-, ks', l, hl, -, hB⟩
      · rw [hs₁, hA] at hx
        exact absurd hx List.not_mem_nil
      · rw [hs₁, hB] at hx
        simp only [keys, List.map_append, List.mem_append] at hx
        rcases hx with hx | hx
        · obtain ⟨e, he, rfl⟩ := List.mem_map.1 hx
          have hold := hs.entries _ (List.mem_map_of_mem (mem_of_mem_eraseBelow (hl.subset he)))
          exact ⟨⟨hold.1.trans hlt, hold.2.1⟩, hold.2.2⟩
        · obtain ⟨e, he, rfl⟩ := List.mem_map.1 hx
          have hgap := rank_of_mem_gap hnew hq hlt he
          refine ⟨⟨hgap.2, fun hins => ?_⟩, fun c hc => ?_⟩
          · rcases hs.ahead _ hins with h | h
            · omega
            · exact (mem_newNacks he).2.1 h
          · have := hs.cleared c hc
            omega
    refine ⟨hx'.1.1, ?_, hx'.2⟩
    have hne : x ≠ q := by
      rintro rfl
      exact absurd hx'.1.1 (lt_irrefl _)
    simp [hx'.1.2, hne]
  have hkeys : keys (machine.step w (.insertPacket q k false)).1.nack.nackList ⊆ keys s₁.nackList := by
    rw [hstep]
    exact (keys_sendDue_sublist _ _ _ _ _).subset
  have hfields : (machine.step w (.insertPacket q k false)).1.nack.initialized = true ∧
      (machine.step w (.insertPacket q k false)).1.nack.newestSeqNum = q ∧
      (machine.step w (.insertPacket q k false)).1.nack.recoveredList = w.nack.recoveredList := by
    rw [hstep]
    exact hshape
  refine ⟨hentries, hinv, ?_, ?_, ?_, ?_, ?_, ?_⟩
  · intro hi
    exact absurd (hfields.1.symm.trans hi) (by simp)
  · rw [hfields.2.1]
    exact fun _ => hq
  · intro p hp
    rcases List.mem_append.1 hp with hp | hp
    · exact hs.spanned p hp
    · exact List.mem_singleton.1 hp ▸ hq
  · intro x hx
    rw [hfields.2.1]
    exact hentries x (hkeys hx)
  · intro p hp
    rw [hfields.2.1, hfields.2.2]
    rcases List.mem_append.1 hp with hp | hp
    · exact (hs.ahead p hp).imp (fun h => h.trans hlt.le) id
    · exact Or.inl (List.mem_singleton.1 hp ▸ le_rfl)
  · intro c hc
    have := hs.cleared c hc
    rw [hfields.2.1]
    omega

/-- **The step for `InsertPacket`**: the invariant is kept and nothing known is
handed out. -/
theorem SafeInv.insertPacket (hs : SafeInv b ins clr w) {k r : Bool}
    (hq : rank b q < 32767) (hgood : keepsKnown w (.insertPacket q k r) = true) :
    SafeInv b (ins ++ [q]) clr (machine.step w (.insertPacket q k r)).1 ∧
    ∀ x ∈ (machine.step w (.insertPacket q k r)).2, x ∉ ins ++ [q] ∧
      rank b x < 32767 ∧ ∀ c ∈ clr, rank b c ≤ rank b x := by
  have hinv := (step_spec hs.inv (.insertPacket q k r)).inv
  rcases insertPacket_cases w.nack w.nowMs q k r with ⟨hi, ks, heq⟩ | ⟨hi, hnew, heq⟩ |
    ⟨hi, hahead, heq, hout⟩ | ⟨hi, hne, hnot, rfl, ks, heq⟩ |
      ⟨hi, hne, hnot, rfl, ks, s₁, hs₁, heq, hout⟩
  · -- the first packet
    obtain ⟨rfl, rfl⟩ := hs.fresh hi
    have hnil := hs.inv.2 hi
    simp only [machine, heq] at hinv ⊢
    refine ⟨⟨hinv, by simp, fun _ => hq, by simpa using hq, by simp [hnil, keys], ?_, by simp⟩, by simp⟩
    intro p hp
    exact Or.inl (by simp only [List.nil_append, List.mem_singleton] at hp; rw [hp])
  · simp only [machine, heq] at hinv ⊢
    refine ⟨hs.note hinv hq hi hi rfl ?_ (fun r hr _ => Or.inr hr) (Or.inl (by rw [hnew])), by simp⟩
    intro x hx
    refine ⟨hx, ?_⟩
    rintro rfl
    have := (hs.entries x hx).1
    rw [hnew] at this
    exact absurd this (lt_irrefl _)
  · simp only [machine, heq, hout] at hinv ⊢
    have hn := hs.newest hi
    rw [aheadOf_eq_rank (b := b) (by omega) (by omega)] at hahead
    refine ⟨hs.note hinv hq hi hi rfl ?_ (fun r hr _ => Or.inr hr) (Or.inl hahead.le), by simp⟩
    intro x hx
    obtain ⟨e, he, rfl⟩ := List.mem_map.1 hx
    obtain ⟨hmem, hne⟩ := List.mem_filter.1 he
    exact ⟨List.mem_map_of_mem hmem, by simpa using hne⟩
  · -- a recovered packet ahead of the newest number
    simp only [machine, heq] at hinv ⊢
    have hn := hs.newest hi
    have hq' : aheadOf q w.nack.newestSeqNum = true := by
      rw [aheadOf_total hne, hnot]
      rfl
    have hgood' : ∀ r ∈ w.nack.recoveredList, aheadOf r w.nack.newestSeqNum = true →
        olderThan r (oldestKept q) = false := by
      simp only [keepsKnown, hi, hq', Bool.not_true, Bool.false_or, List.all_eq_true,
        Bool.or_eq_true,
        Bool.not_eq_true'] at hgood
      intro r hr hra
      rcases hgood r hr with h | h
      · exact absurd (hra.symm.trans h) (by simp)
      · exact h
    refine ⟨hs.note hinv hq hi hi rfl ?_ ?_ (Or.inr ?_), by simp⟩
    · intro x hx
      refine ⟨hx, ?_⟩
      rintro rfl
      have := (hs.entries x hx).1
      rw [aheadOf_eq_rank (b := b) (by omega) (by omega)] at hq'
      omega
    · intro r hr hins
      have hspan := hs.spanned r hins
      by_cases hra : aheadOf r w.nack.newestSeqNum = true
      · exact Or.inr (mem_eraseBelow_of_not_lt (mem_insertBy_of_mem hr) (hgood' r hr hra))
      · rw [aheadOf_eq_rank (b := b) (by omega) (by omega)] at hra
        exact Or.inl (not_lt.1 hra)
    · refine mem_eraseBelow_of_not_lt (mem_insertBy_self ?_) ?_
      · intro x _ hxq hqx
        by_contra hne'
        rw [olderThan, aheadOf_total (Ne.symm hne')] at hxq
        rw [olderThan] at hqx
        simp [hqx] at hxq
      · rw [olderThan, aheadOf_false_iff]
        unfold oldestKept kMaxPacketAge id
        bv_omega
  · -- an ordinary packet ahead of the newest number
    have hn := hs.newest hi
    have hq' : aheadOf q w.nack.newestSeqNum = true := by
      rw [aheadOf_total hne, hnot]
      rfl
    rw [aheadOf_eq_rank (b := b) (by omega) (by omega)] at hq'
    obtain ⟨hentries, hnext⟩ := hs.closeGap (k := k) hq hi hq' hs₁ heq
    refine ⟨hnext, ?_⟩
    intro x hx
    have hx' : x ∈ (nackListToSend s₁ w.nowMs .seqNum q).2 := by
      rw [← hout]
      exact hx
    obtain ⟨hlt, hins, hclr⟩ := hentries x ((sendDue_fst_sublist _ _ _ _ _).subset hx')
    exact ⟨hins, by omega, hclr⟩

theorem SafeInv.step (hs : SafeInv b ins clr w) {op : Op}
    (hspan : ∀ q ∈ inserted [op] ++ clearPoints [op], rank b q < 32767)
    (hgood : keepsKnown w op = true) :
    SafeInv b (ins ++ inserted [op]) (clr ++ clearPoints [op]) (machine.step w op).1 ∧
    ∀ x ∈ (machine.step w op).2, x ∉ ins ++ inserted [op] ∧
      rank b x < 32767 ∧ ∀ c ∈ clr, rank b c ≤ rank b x := by
  have hinv := (step_spec hs.inv op).inv
  cases op with
  | insertPacket q k r =>
    have := hs.insertPacket (hspan q (by simp [inserted])) hgood
    simpa [inserted, clearPoints] using this
  | clearUpTo c =>
    have := hs.clearUpTo (hspan c (by simp [clearPoints])) hgood
    refine ⟨by simpa [inserted, clearPoints] using this, ?_⟩
    intro x hx
    exact absurd hx List.not_mem_nil
  | updateRtt r =>
    simp only [inserted, clearPoints, List.filterMap_cons_none, List.filterMap_nil, List.append_nil]
    exact ⟨hs.of_keys_subset hinv rfl rfl rfl (List.Subset.refl _), fun x hx =>
      absurd hx List.not_mem_nil⟩
  | advanceTime ms =>
    simp only [inserted, clearPoints, List.filterMap_cons_none, List.filterMap_nil, List.append_nil]
    exact ⟨hs.of_keys_subset hinv rfl rfl rfl (List.Subset.refl _), fun x hx =>
      absurd hx List.not_mem_nil⟩
  | nackListOnRttPassed =>
    simp only [inserted, clearPoints, List.filterMap_cons_none, List.filterMap_nil, List.append_nil]
    refine ⟨hs.of_keys_subset hinv rfl rfl rfl (keys_sendDue_sublist _ _ _ _ _).subset, ?_⟩
    intro x hx
    have hmem := (sendDue_fst_sublist _ _ _ _ _).subset hx
    obtain ⟨hlt, hins, hclr⟩ := hs.entries x hmem
    have hinit : w.nack.initialized = true := by
      by_contra hi
      rw [hs.inv.2 (by simpa using hi)] at hmem
      exact absurd hmem List.not_mem_nil
    have := hs.newest hinit
    exact ⟨hins, by omega, hclr⟩

end Steps

/-! ## Runs -/

theorem SpannedFrom.left {b : U16} {ops ops' : List Op} (h : SpannedFrom b (ops ++ ops')) :
    SpannedFrom b ops := by
  intro q hq
  refine h q ?_
  rw [inserted_append, clearPoints_append]
  simp only [List.mem_append] at hq ⊢
  rcases hq with hq | hq
  · exact Or.inl (Or.inl hq)
  · exact Or.inr (Or.inl hq)

theorem SpannedFrom.right {b : U16} {ops ops' : List Op} (h : SpannedFrom b (ops ++ ops')) :
    SpannedFrom b ops' := by
  intro q hq
  refine h q ?_
  rw [inserted_append, clearPoints_append]
  simp only [List.mem_append] at hq ⊢
  rcases hq with hq | hq
  · exact Or.inl (Or.inr hq)
  · exact Or.inr (Or.inr hq)

theorem safeInv_start (b : U16) (nowMs delay : Int) : SafeInv b [] [] (start nowMs delay) where
  inv := worldInv_start nowMs delay
  fresh _ := ⟨rfl, rfl⟩
  newest h := by simp [start, create] at h
  spanned := by simp
  entries := by simp [start, create, keys]
  ahead := by simp
  cleared := by simp

theorem safeInv_final {b : U16} {nowMs delay : Int} {ops : List Op} (hspan : SpannedFrom b ops)
    (hgood : machine.AllGood (fun w op => keepsKnown w op = true) (start nowMs delay) ops) :
    SafeInv b (inserted ops) (clearPoints ops) (machine.final (start nowMs delay) ops) := by
  have hrun : SpannedFrom b ops →
      SafeInv b (inserted ops) (clearPoints ops) (machine.final (start nowMs delay) ops) := by
    refine machine.invariant_inputs
      (P := fun h w => SpannedFrom b h → SafeInv b (inserted h) (clearPoints h) w) ?_
      (fun _ => safeInv_start b nowMs delay) hgood
    intro h w op hP hg hspan'
    rw [inserted_append, clearPoints_append]
    exact ((hP hspan'.left).step hspan'.right hg).1
  exact hrun hspan

/-- **Runs of good steps request nothing known.** -/
theorem neverRequestsKnown_of_keepsKnown (b : U16) (nowMs delay : Int) (ops : List Op)
    (hspan : SpannedFrom b ops)
    (hgood : machine.AllGood (fun w op => keepsKnown w op = true) (start nowMs delay) ops) :
    NeverRequestsKnown (start nowMs delay) ops := by
  rintro pre op post rfl x hx
  obtain ⟨hpre, hop, -⟩ := (machine.allGood_append _ _ pre (op :: post)).1 hgood
  have hrest : SpannedFrom b ([op] ++ post) := hspan.right
  have hopspan : SpannedFrom b [op] := hrest.left
  obtain ⟨hins, hrank, hclr⟩ := ((safeInv_final hspan.left hpre).step hopspan hop).2 x hx
  refine ⟨by rwa [inserted_append], ?_⟩
  intro c hc
  have hle := hclr c hc
  have hcspan := hspan.left c (List.mem_append_right _ hc)
  rw [← Bool.not_eq_true, olderThan, aheadOf_eq_rank (b := b) (by omega) (by omega)]
  omega

/-- A gap around a recovered number, and a clear that reaches the newest one. -/
theorem neverRequestsKnown_recovered_in_gap :
    NeverRequestsKnown (start 0 0) [.insertPacket 65534 false false, .insertPacket 0 false true,
      .insertPacket 2 false false, .clearUpTo 1, .advanceTime 100, .nackListOnRttPassed] :=
  neverRequestsKnown_of_keepsKnown 65534 0 0 _
    (by simp [SpannedFrom, inserted, clearPoints, rank]) (by decide +kernel)

end NaiveRtc.Nack
