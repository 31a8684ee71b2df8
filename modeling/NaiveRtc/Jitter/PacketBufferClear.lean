import NaiveRtc.Jitter.MissingPackets
import Mathlib.Data.List.TakeWhile

/-!
# Clearing up to a number

After `ClearTo(seq_num)` nothing at or before the number should be left, neither a packet nor a
number that counts as missing, and everything newer should be as before.  The loop walks from the
first number on and not more than once round; of the missing packets up to the number after
`seq_num` the last one is always kept.

* `Cleared` — what the call promises.
* `missing_clearTo` — the missing packets that are left.
* `ClearsAll`, `cleared_iff` — in every reachable buffer the promise is kept exactly when the
  stored packets and the missing ones allow it.
* `keeps_missing` — the last missing packet stays behind.
-/

namespace NaiveRtc.Jitter

open WrapAround SlotTable

namespace PacketBuffer

variable {s : PacketBuffer} {p : Packet} {q : U16} {i : Nat}

/-! ## The promise -/

/-- **Everything up to `q` is cleared**, on the way from `s` to `s'`, and nothing else.  The gate
for delta frames reads the missing packets after a number `x` has arrived: at no later call is a
cleared number among them, as long as the newest number has not gone half round the circle. -/
structure Cleared (s s' : PacketBuffer) (q : U16) : Prop where
  stored : ∀ i p, s'.get i = some p → ¬ AtOrBefore p.seqNum q
  missing : ∀ m ∈ s'.missingPackets, ¬ AtOrBefore m q
  kept : ∀ i p, s.get i = some p → aheadOf p.seqNum q = true → s'.get i = some p
  firstSeqNum : s'.firstSeqNum = q + 1
  later : ∀ ops t x, packetMachine.AllGood (Stays q) (some s') ops →
    packetMachine.final (some s') ops = some t →
    (t.updateMissingPackets x kMaxMissingPacketCount).NewestFrom q →
    ∀ m ∈ (t.updateMissingPackets x kMaxMissingPacketCount).missingPackets, ¬ AtOrBefore m q

/-- The missing packets up to the number after `q`, as the set has them. -/
def missingBefore (s : PacketBuffer) (q : U16) : List U16 :=
  s.missingPackets.takeWhile fun m => !olderThan (q + 1) m

/-- The buffer was cleared up to `q` before, so that the call returns at once. -/
def ClearedBefore (s : PacketBuffer) (q : U16) : Prop :=
  s.isClearedToFirstSeqNum = true ∧ s.firstSeqNum = q + 1

/-- What the promise takes: the packets at or before `q` are in the slots that are visited, and
less than half the circle behind; of the missing packets none is at or before `q`, unless the
number after `q` is missing too and is the one that is kept; and the newest number is not older
than `q`, since the next one that arrives makes everything behind it missing. -/
structure ClearsAll (s : PacketBuffer) (q : U16) : Prop where
  stored : ∀ i p, s.get i = some p → AtOrBefore p.seqNum q →
    aheadOf (q + 1) p.seqNum = true ∧
      (p.seqNum - s.firstSeqNum).toNat % s.size < (q + 1 - s.firstSeqNum).toNat
  missing : (∀ m ∈ s.missingPackets, ¬ AtOrBefore m q) ∨
    (¬ s.ClearedBefore q ∧ (s.missingBefore q).getLast? = some (q + 1) ∧
      ∀ m ∈ s.missingPackets.drop (s.missingBefore q).length, ¬ AtOrBefore m q)
  newest : s.NewestFrom q

/-! ## Numbers around the one cleared -/

theorem not_aheadOf_succ {m : U16} (h : aheadOf m q = true) : aheadOf (q + 1) m = false := by
  rw [aheadOf_iff] at h
  rw [aheadOf_false_iff]
  bv_omega

theorem not_atOrBefore_succ : ¬ AtOrBefore (q + 1) q := by
  rintro (h | h)
  · bv_omega
  · rw [aheadOf_iff] at h
    bv_omega

theorem atOrBefore_of_not_olderThan {m : U16} (h : olderThan (q + 1) m = false) (hne : m ≠ q + 1) :
    AtOrBefore m q := by
  unfold olderThan at h
  rw [aheadOf_false_iff] at h
  by_cases heq : m = q
  · exact Or.inl heq
  · refine Or.inr ?_
    rw [aheadOf_iff]
    bv_omega

theorem aheadOf_first_iff (hnew : aheadOf (s.firstSeqNum - 1) q = false) :
    aheadOf s.firstSeqNum q = true ↔ s.firstSeqNum = q + 1 := by
  constructor
  · intro h
    have hnext := eq_of_aheadOf_pred (x := s.firstSeqNum) (y := q + 1) ?_ ?_
    · exact hnext.symm
    · rwa [BitVec.add_sub_cancel]
    · rw [aheadOf_false_iff] at hnew ⊢
      rw [aheadOf_iff] at h
      bv_omega
  · intro h
    rw [h, aheadOf_iff]
    bv_omega

/-! ## The slots visited -/

/-- **The loop visits** the slots of the numbers from the first one up to `q`, at most all. -/
theorem visited_iff (hs : IsPow s.size) (x y : U16) :
    (∃ k, k < min (x - s.firstSeqNum).toNat s.size ∧
        s.indexOf (s.firstSeqNum + BitVec.ofNat 16 k) = s.indexOf y) ↔
      (y - s.firstSeqNum).toNat % s.size < (x - s.firstSeqNum).toNat := by
  have hy : s.firstSeqNum + BitVec.ofNat 16 (y - s.firstSeqNum).toNat = y := by
    rw [BitVec.ofNat_toNat, BitVec.setWidth_eq, BitVec.add_comm, BitVec.sub_add_cancel]
  have hlt := (x - s.firstSeqNum).isLt
  have hlt' := (y - s.firstSeqNum).isLt
  generalize (y - s.firstSeqNum).toNat = d at hy hlt' ⊢
  subst hy
  rcases hs.dvd_or_lt with hd | hlarge
  · rw [indexOf_base_add hd]
    constructor
    · rintro ⟨k, hk, hindex⟩
      rw [indexOf_base_add hd] at hindex
      have hmod : k % s.size = d % s.size := Nat.ModEq.add_left_cancel' s.firstSeqNum.toNat hindex
      rw [Nat.mod_eq_of_lt (by omega)] at hmod
      omega
    · intro h
      have hmod := Nat.mod_lt d hs.pos
      refine ⟨d % s.size, by omega, ?_⟩
      rw [indexOf_base_add hd, Nat.add_mod_mod]
  · rw [Nat.mod_eq_of_lt (show d < s.size by omega)]
    constructor
    · rintro ⟨k, hk, hindex⟩
      have hk' := (s.firstSeqNum + BitVec.ofNat 16 k).isLt
      have hd' := (s.firstSeqNum + BitVec.ofNat 16 d).isLt
      unfold indexOf at hindex
      rw [Nat.mod_eq_of_lt (by omega), Nat.mod_eq_of_lt (by omega)] at hindex
      have hsame := BitVec.eq_of_toNat_eq hindex
      have hkd : k = d := by bv_omega
      omega
    · exact fun h => ⟨d, by omega, rfl⟩

/-! ## What is left -/

theorem clearTo_of_clearedBefore (h : s.ClearedBefore q) : s.clearTo q = s := by
  unfold clearTo
  have hahead : aheadOf s.firstSeqNum q = true := by
    rw [h.2, aheadOf_iff]
    bv_omega
  rw [h.1, hahead]
  rfl

section Working

variable (hreceived : s.firstPacketReceived = true)
  (hwork : (s.isClearedToFirstSeqNum && aheadOf s.firstSeqNum q) = false)

include hreceived hwork

theorem get_clearTo : (s.clearTo q).get i = some p ↔ s.get i = some p ∧
    ¬ (aheadOf (q + 1) p.seqNum = true ∧ ∃ k, k < min (q + 1 - s.firstSeqNum).toNat s.size ∧
      s.indexOf (s.firstSeqNum + BitVec.ofNat 16 k) = i) := by
  unfold clearTo
  rw [hwork, hreceived]
  exact get_clearLoop

theorem firstSeqNum_clearTo : (s.clearTo q).firstSeqNum = q + 1 := by
  unfold clearTo
  rw [hwork, hreceived]
  rfl

/-- **The missing packets left**: the last one up to the number after `q`, and those after it. -/
theorem missing_clearTo : (s.clearTo q).missingPackets =
    (s.missingBefore q).getLast?.toList ++ s.missingPackets.drop (s.missingBefore q).length := by
  have hdrop : (s.clearTo q).missingPackets =
      s.missingPackets.drop ((s.missingBefore q).length - 1) := by
    unfold clearTo
    rw [hwork, hreceived]
    show ((clearLoop (q + 1) _ s).missingPackets).drop _ = _
    rw [missing_clearLoop]
    rfl
  rw [hdrop]
  have hsplit : s.missingPackets = s.missingBefore q ++
      s.missingPackets.drop (s.missingBefore q).length :=
    (List.prefix_iff_eq_append.1 (List.takeWhile_prefix _)).symm
  generalize s.missingPackets.drop (s.missingBefore q).length = rest at hsplit ⊢
  rw [hsplit]
  rcases List.eq_nil_or_concat (s.missingBefore q) with hnil | ⟨init, last, hconcat⟩
  · rw [hnil]
    rfl
  · rw [hconcat]
    simp

end Working

/-! ## When the promise is kept -/

theorem cleared_missing_iff (hreceived : s.firstPacketReceived = true)
    (hwork : (s.isClearedToFirstSeqNum && aheadOf s.firstSeqNum q) = false) :
    (∀ m ∈ (s.clearTo q).missingPackets, ¬ AtOrBefore m q) ↔
      (∀ m ∈ s.missingPackets, ¬ AtOrBefore m q) ∨
        ((s.missingBefore q).getLast? = some (q + 1) ∧
          ∀ m ∈ s.missingPackets.drop (s.missingBefore q).length, ¬ AtOrBefore m q) := by
  rw [missing_clearTo hreceived hwork]
  cases hlast : (s.missingBefore q).getLast? with
  | none =>
    have hnil := List.getLast?_eq_none_iff.1 hlast
    simp [hnil]
  | some last =>
    have hmem : last ∈ s.missingBefore q := List.mem_of_getLast? hlast
    have hbefore : olderThan (q + 1) last = false := by
      simpa using List.mem_takeWhile_imp hmem
    have hmissing : last ∈ s.missingPackets :=
      (List.takeWhile_prefix _).subset hmem
    constructor
    · intro h
      refine Or.inr ⟨?_, fun m hm => h m (List.mem_append_right _ hm)⟩
      by_contra hne
      refine h last (by simp) (atOrBefore_of_not_olderThan hbefore ?_)
      exact fun heq => hne (congrArg some heq)
    · rintro (h | ⟨hnext, h⟩)
      · intro m hm
        rcases List.mem_append.1 hm with hm | hm
        · obtain rfl := List.mem_singleton.1 hm
          exact h m hmissing
        · exact h m (List.drop_subset _ _ hm)
      · intro m hm
        rcases List.mem_append.1 hm with hm | hm
        · obtain rfl := List.mem_singleton.1 hm
          rw [Option.some.inj hnext]
          exact not_atOrBefore_succ
        · exact h m hm

/-- **The promise is kept exactly when** the packets and the missing numbers allow it: in every
run, for every buffer that has received a packet and every number not older than the last one it
was cleared to. -/
theorem cleared_iff {a b : Nat} {ops : List PacketOp}
    (hs : packetMachine.final (some (create (2 ^ a) (2 ^ b))) ops = some s)
    (hreceived : s.firstPacketReceived = true)
    (hnew : s.isClearedToFirstSeqNum = true → aheadOf (s.firstSeqNum - 1) q = false) :
    Cleared s (s.clearTo q) q ↔ ClearsAll s q := by
  have h := ring_reached hs
  have hthin := thinned_clearTo s q
  have hlater : (∀ m ∈ (s.clearTo q).missingPackets, ¬ AtOrBefore m q) → s.NewestFrom q →
      ∀ ops t x, packetMachine.AllGood (Stays q) (some (s.clearTo q)) ops →
        packetMachine.final (some (s.clearTo q)) ops = some t →
        (t.updateMissingPackets x kMaxMissingPacketCount).NewestFrom q →
        ∀ m ∈ (t.updateMissingPackets x kMaxMissingPacketCount).missingPackets,
          ¬ AtOrBefore m q := by
    intro hmissing hnewest ops t x hops ht hx
    have hclear : (s.clearTo q).ClearOf q := ⟨fun n hn => hnewest n (hthin.newest ▸ hn), hmissing⟩
    exact ((hclear.run hops ht).update hx).missing
  have hnewest : Cleared s (s.clearTo q) q → s.NewestFrom q := by
    intro hc n hn
    by_contra holder
    obtain ⟨x, hx, m, hm, hle⟩ := comes_back (s := s.clearTo q) (q := q)
      (hthin.newest.trans hn) (by simpa using holder)
    exact hc.later [] (s.clearTo q) x trivial rfl hx m hm hle
  by_cases hbefore : s.ClearedBefore q
  · -- nothing happens, and nothing may be left
    rw [clearTo_of_clearedBefore hbefore] at hlater hnewest ⊢
    constructor
    · intro hc
      exact ⟨fun i p hp hle => absurd hle (hc.stored i p hp), Or.inl hc.missing, hnewest hc⟩
    · intro hc
      have hmissing : ∀ m ∈ s.missingPackets, ¬ AtOrBefore m q := by
        rcases hc.missing with hmissing | ⟨hnot, -⟩
        · exact hmissing
        · exact absurd hbefore hnot
      refine ⟨fun i p hp hle => ?_, hmissing, fun _ _ hp _ => hp, hbefore.2,
        hlater hmissing hc.newest⟩
      have hslot := (hc.stored i p hp hle).2
      rw [hbefore.2] at hslot
      simp at hslot
  · have hwork : (s.isClearedToFirstSeqNum && aheadOf s.firstSeqNum q) = false := by
      cases hcleared : s.isClearedToFirstSeqNum with
      | false => rfl
      | true =>
        rw [Bool.true_and, ← Bool.not_eq_true, aheadOf_first_iff (hnew hcleared)]
        exact fun hfirst => hbefore ⟨hcleared, hfirst⟩
    have hvisited : ∀ i p, s.get i = some p →
        ((∃ k, k < min (q + 1 - s.firstSeqNum).toNat s.size ∧
            s.indexOf (s.firstSeqNum + BitVec.ofNat 16 k) = i) ↔
          (p.seqNum - s.firstSeqNum).toNat % s.size < (q + 1 - s.firstSeqNum).toNat) := by
      intro i p hp
      have hhome : i = s.indexOf p.seqNum := h.placed i p hp
      rw [hhome]
      exact visited_iff h.size (q + 1) p.seqNum
    have hmissing := cleared_missing_iff hreceived hwork
    constructor
    · intro hc
      refine ⟨fun i p hp hle => ?_, ?_, hnewest hc⟩
      · rw [← hvisited i p hp]
        by_contra hstays
        exact hc.stored i p ((get_clearTo hreceived hwork).2 ⟨hp, hstays⟩) hle
      · exact (hmissing.1 hc.missing).imp id fun hlast => ⟨hbefore, hlast⟩
    · intro hc
      have hleft := hmissing.2 (hc.missing.imp id And.right)
      refine ⟨fun i p hp hle => ?_, hleft, fun i p hp hnewer => ?_,
        firstSeqNum_clearTo hreceived hwork, hlater hleft hc.newest⟩
      · obtain ⟨hp, hstays⟩ := (get_clearTo hreceived hwork).1 hp
        rw [hvisited i p hp] at hstays
        exact hstays (hc.stored i p hp hle)
      · refine (get_clearTo hreceived hwork).2 ⟨hp, fun hgone => ?_⟩
        rw [not_aheadOf_succ hnewer] at hgone
        exact Bool.false_ne_true hgone.1

/-- Packets 0 and 4 have arrived, so that 1, 2 and 3 are missing. -/
def gapOfThree : List PacketOp := [.insertPacket { seqNum := 0 }, .insertPacket { seqNum := 4 }]

/-- The buffer after them. -/
def withGapOfThree : PacketBuffer where
  maxPacketBufferSize := 8
  packetBuffer := [some { seqNum := 0 }, none, none, none, some { seqNum := 4 }, none, none, none]
  firstPacketReceived := true
  newestInsertedSeqNum := some 4
  missingPackets := [1, 2, 3]

theorem final_gapOfThree :
    packetMachine.final (some (create (2 ^ 3) (2 ^ 3))) gapOfThree = some withGapOfThree := rfl

/-- The number after the one cleared to is missing too: it alone is left. -/
theorem cleared_gap : ∃ s, packetMachine.final (some (create (2 ^ 3) (2 ^ 3))) gapOfThree = some s ∧
    Cleared s (s.clearTo 2) 2 := by
  refine ⟨_, final_gapOfThree,
    (cleared_iff (a := 3) (b := 3) final_gapOfThree rfl (by decide)).2 ⟨?_, ?_, ?_⟩⟩
  · intro i p hp
    have hmem : p = { seqNum := 0 } ∨ p = { seqNum := 4 } := by
      simpa [Holds, withGapOfThree] using holds_of_get hp
    rcases hmem with rfl | rfl
    · decide
    · decide
  · refine Or.inr ⟨fun hbefore => Bool.false_ne_true hbefore.1, by decide +kernel, fun m hm => ?_⟩
    have hnone : withGapOfThree.missingPackets.drop (withGapOfThree.missingBefore 2).length =
      [] := by
      decide +kernel
    rw [hnone] at hm
    exact absurd hm List.not_mem_nil
  · rintro _ ⟨⟩
    decide

/-- **The last missing packet stays behind**: 3 is still missing after everything up to 3 was
cleared. -/
theorem keeps_missing : ∃ s, packetMachine.final (some (create (2 ^ 3) (2 ^ 3))) gapOfThree =
    some s ∧
    s.firstPacketReceived = true ∧ s.isClearedToFirstSeqNum = false ∧
      ¬ Cleared s (s.clearTo 3) 3 := by
  refine ⟨withGapOfThree, final_gapOfThree, rfl, rfl, fun h => ?_⟩
  exact h.missing 3 (by decide) (by decide)

end PacketBuffer
end NaiveRtc.Jitter
