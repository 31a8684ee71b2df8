import NaiveRtc.Receiver.NackModule
import Mathlib.Data.List.Sublists

/-!
# What the NACK list can look like

The structural invariant of the NACK module and what it buys.  Everything rests
on one description of what a step can do to the list (`step_spec`): an entry
after the step is an entry from before it or a fresh one, untouched or requested
once more.

* `pruneLoop_isSome` — the keyframe-pruning loop ends.
* `addPacketsToNack_cases` — the two outcomes of noticing a gap.
* `Inv`, `step_spec` — at most 1000 entries, all in the window of 10000 numbers
  behind the newest one, in wrap-around order, each requested fewer than ten
  times and with a send time exactly when it was requested.
* `run_structure` — the invariant in every reachable state, at most ten requests
  per stay, and at least one round trip before the timer repeats a request.
-/

namespace NaiveRtc.Nack

open WrapAround Ordered

/-! ## The pruning loop ends -/

theorem removeUntilKeyFrame_sublist (ks : List U16) (nacks : List NackInfo) :
    (removeUntilKeyFrame ks nacks).2.1.Sublist nacks := by
  induction ks with
  | nil => exact List.Sublist.refl _
  | cons k ks ih =>
    simp only [removeUntilKeyFrame]
    split
    · exact eraseBelow_sublist _ _ _ _
    · exact ih

theorem removeUntilKeyFrame_length {ks : List U16} {nacks : List NackInfo}
    (h : (removeUntilKeyFrame ks nacks).2.2 = true) :
    (removeUntilKeyFrame ks nacks).2.1.length < nacks.length := by
  induction ks with
  | nil => simp [removeUntilKeyFrame] at h
  | cons k ks ih =>
    simp only [removeUntilKeyFrame] at h ⊢
    split
    · assumption
    · rename_i hk
      rw [if_neg hk] at h
      exact ih h

variable {s : NackModuleImpl}

/-- **The keyframe-pruning loop terminates**: one round more than there are
entries always reaches its end. -/
theorem pruneLoop_isSome {fuel : Nat} (n : Nat)
    (h : s.nackList.length < fuel) : (pruneLoop n fuel s).isSome = true := by
  induction fuel generalizing s with
  | zero => omega
  | succ fuel ih =>
    rw [pruneLoop]
    cases hr : removePacketsUntilKeyFrame s with
    | mk s' found =>
      cases found with
      | false => rfl
      | true =>
        have hlen : s'.nackList.length < s.nackList.length := by
          have hs' : s' = (removePacketsUntilKeyFrame s).1 := by rw [hr]
          have hf : (removePacketsUntilKeyFrame s).2 = true := by rw [hr]
          rw [hs']
          exact removeUntilKeyFrame_length hf
        simp only
        split
        · exact ih (by omega)
        · rfl

theorem pruneLoop_eq {n fuel : Nat} {s s' : NackModuleImpl} (h : pruneLoop n fuel s = some s') :
    ∃ ks l, l.Sublist s.nackList ∧ s' = { s with keyframeList := ks, nackList := l } := by
  induction fuel generalizing s with
  | zero => simp [pruneLoop] at h
  | succ fuel ih =>
    have hsub := removeUntilKeyFrame_sublist s.keyframeList s.nackList
    rw [pruneLoop] at h
    simp only [removePacketsUntilKeyFrame] at h
    split at h
    · rename_i s₁ heq
      obtain ⟨rfl, -⟩ := Prod.mk.inj heq
      cases h
      exact ⟨_, _, hsub, rfl⟩
    · rename_i s₁ heq
      obtain ⟨rfl, -⟩ := Prod.mk.inj heq
      split at h
      · obtain ⟨ks, l, hl, rfl⟩ := ih h
        exact ⟨ks, l, hl.trans hsub, rfl⟩
      · cases h
        exact ⟨_, _, hsub, rfl⟩

/-! ## Noticing a gap -/

local instance : LawfulBEq U16 := inferInstance

/-- The entries the gap loop creates, in order. -/
def newNacks (now : Int) (recovered : List U16) : Nat → U16 → List NackInfo
  | 0, _ => []
  | count + 1, seqNum =>
    (if seqNum ∈ recovered then [] else [⟨seqNum, now, none, 0⟩]) ++
      newNacks now recovered count (seqNum + 1)

theorem length_newNacks_le (now : Int) (recovered : List U16) (count : Nat) (seqNum : U16) :
    (newNacks now recovered count seqNum).length ≤ count := by
  induction count generalizing seqNum with
  | zero => simp [newNacks]
  | succ count ih =>
    have := ih (seqNum + 1)
    simp only [newNacks, List.length_append]
    split
    · rw [List.length_nil]
      omega
    · rw [List.length_singleton]
      omega

variable {now : Int} {count : Nat}

theorem mem_newNacks {recovered : List U16} {seqNum : U16} {e : NackInfo}
    (h : e ∈ newNacks now recovered count seqNum) :
    (∃ i < count, e.seqNum = seqNum + BitVec.ofNat 16 i) ∧ e.seqNum ∉ recovered ∧
      e.retries = 0 ∧ e.sentTime = none := by
  induction count generalizing seqNum with
  | zero => simp [newNacks] at h
  | succ count ih =>
    rw [newNacks, List.mem_append] at h
    rcases h with h | h
    · split at h
      · simp at h
      · rename_i hrec
        rw [List.mem_singleton] at h
        subst h
        exact ⟨⟨0, by omega, by simp⟩, hrec, rfl, rfl⟩
    · obtain ⟨⟨i, hi, he⟩, hrest⟩ := ih h
      refine ⟨⟨i + 1, by omega, ?_⟩, hrest⟩
      rw [he]
      bv_omega

variable {l : List NackInfo}

theorem addNacks_eq_append {recovered : List U16} {seqNum : U16} (hc : count ≤ 32768)
    (h : ∀ e ∈ l, ∀ i < count, olderThan e.seqNum (seqNum + BitVec.ofNat 16 i) = true) :
    addNacks now recovered count seqNum l = l ++ newNacks now recovered count seqNum := by
  induction count generalizing seqNum l with
  | zero => simp [addNacks, newNacks]
  | succ count ih =>
    have hshift : ∀ i : Nat, seqNum + 1 + BitVec.ofNat 16 i = seqNum + BitVec.ofNat 16 (i + 1) := by
      intro i
      bv_omega
    rw [addNacks, newNacks]
    by_cases hrec : seqNum ∈ recovered
    · rw [if_pos hrec, if_pos hrec, ih (by omega), List.nil_append]
      intro e he i hi
      rw [hshift]
      exact h e he (i + 1) (by omega)
    · have happ : assignBy olderThan NackInfo.seqNum ⟨seqNum, now, none, 0⟩ l
          = l ++ [⟨seqNum, now, none, 0⟩] := by
        refine assignBy_eq_append fun e he => ?_
        simpa using h e he 0 (by omega)
      rw [if_neg hrec, if_neg hrec, happ, ih (by omega), List.append_assoc]
      intro e he i hi
      rw [hshift]
      rcases List.mem_append.1 he with he | he
      · exact h e he (i + 1) (by omega)
      · rw [List.mem_singleton.1 he, olderThan, aheadOf_iff]
        bv_omega

/-- **Noticing a gap has two outcomes.**  Either the gap does not fit and the list
is emptied, or it fits behind a part of the entries that are not too old. -/
theorem addPacketsToNack_cases (s : NackModuleImpl) (now : Int) (seqNumStart seqNumEnd : U16) :
    (∃ ks, addPacketsToNack s now seqNumStart seqNumEnd
        = ({ s with keyframeList := ks, nackList := [] }, false)) ∨
    (∃ ks l, l.Sublist (eraseBelow olderThan NackInfo.seqNum (oldestKept seqNumEnd) s.nackList) ∧
        l.length + (seqNumEnd - seqNumStart).toNat ≤ kMaxNackPacketCount ∧
        addPacketsToNack s now seqNumStart seqNumEnd
          = ({ s with
              keyframeList := ks
              nackList := addNacks now s.recoveredList (seqNumEnd - seqNumStart).toNat
                seqNumStart l }, true)) := by
  unfold addPacketsToNack forwardDiff
  simp only
  set old := eraseBelow olderThan NackInfo.seqNum (oldestKept seqNumEnd) s.nackList with hold
  by_cases hfit : kMaxNackPacketCount < old.length + (seqNumEnd - seqNumStart).toNat
  · rw [if_pos hfit]
    obtain ⟨s', hs'⟩ := Option.isSome_iff_exists.1
      (pruneLoop_isSome (s := { s with nackList := old }) (seqNumEnd - seqNumStart).toNat
        (Nat.lt_succ_self _))
    simp only at hs'
    obtain ⟨ks, l, hl, rfl⟩ := pruneLoop_eq hs'
    rw [hs', Option.getD_some]
    simp only
    split
    · exact Or.inl ⟨ks, rfl⟩
    · exact Or.inr ⟨ks, l, hl, by omega, rfl⟩
  · rw [if_neg hfit]
    exact Or.inr ⟨s.keyframeList, old, List.Sublist.refl _, by omega, rfl⟩

/-! ## Sending what is due -/

/-- The numbers under which the module holds entries. -/
def keys (l : List NackInfo) : List U16 := l.map NackInfo.seqNum

/-- What a batch does to an entry it keeps: nothing, or one more request. -/
def Evolves (now : Int) (out : List U16) (e e' : NackInfo) : Prop :=
  (e' = e ∧ e.seqNum ∉ out) ∨
    (e' = { e with retries := e.retries + 1, sentTime := some now } ∧ e.seqNum ∈ out ∧
      e.retries + 1 < kMaxNackRetries)

variable {e e' : NackInfo}

theorem Evolves.seqNum_eq {out : List U16}
    (h : Evolves now out e e') : e'.seqNum = e.seqNum := by
  rcases h with ⟨rfl, -⟩ | ⟨rfl, -⟩ <;> rfl

variable {q : U16}

theorem Evolves.cons {out : List U16} (h : Evolves now out e e') (hne : e.seqNum ≠ q) :
    Evolves now (q :: out) e e' := by
  rcases h with ⟨rfl, hout⟩ | ⟨rfl, hout, hlt⟩
  · exact Or.inl ⟨rfl, by simp [hne, hout]⟩
  · exact Or.inr ⟨rfl, List.mem_cons_of_mem _ hout, hlt⟩

theorem keys_sendDue_sublist (s : NackModuleImpl) (now : Int) (type : NackFilterType) (q : U16)
    (l : List NackInfo) : (keys (sendDue s now type q l).2).Sublist (keys l) := by
  induction l with
  | nil => exact List.Sublist.refl _
  | cons e l ih =>
    simp only [sendDue]
    split
    · split
      · exact ih.cons _
      · exact ih.cons_cons _
    · exact ih.cons_cons _

theorem sendDue_fst_sublist (s : NackModuleImpl) (now : Int) (type : NackFilterType) (q : U16)
    (l : List NackInfo) : (sendDue s now type q l).1.Sublist (keys l) := by
  induction l with
  | nil => exact List.Sublist.refl _
  | cons e l ih =>
    simp only [sendDue]
    split
    · exact ih.cons_cons _
    · exact ih.cons _

theorem mem_sendDue_fst {type : NackFilterType} {q x : U16} (h : x ∈ (sendDue s now type q l).1) :
    ∃ e ∈ l, e.seqNum = x ∧ isDue s now type q e = true := by
  induction l with
  | nil => simp [sendDue] at h
  | cons e l ih =>
    simp only [sendDue] at h
    split at h
    · rename_i hdue
      rcases List.mem_cons.1 h with rfl | h
      · exact ⟨e, List.mem_cons_self, rfl, hdue⟩
      · obtain ⟨e', he', hrest⟩ := ih h
        exact ⟨e', List.mem_cons_of_mem e he', hrest⟩
    · obtain ⟨e', he', hrest⟩ := ih h
      exact ⟨e', List.mem_cons_of_mem e he', hrest⟩

/-- **What a batch leaves behind.**  Every entry that stays comes from one that
was there, untouched or requested once more. -/
theorem mem_sendDue_snd {type : NackFilterType} (hnd : (keys l).Nodup) {e' : NackInfo}
    (h : e' ∈ (sendDue s now type q l).2) :
    ∃ e ∈ l, Evolves now (sendDue s now type q l).1 e e' := by
  induction l with
  | nil => simp [sendDue] at h
  | cons e l ih =>
    have hnd' : e.seqNum ∉ keys l ∧ (keys l).Nodup := List.nodup_cons.1 hnd
    -- an entry of the tail keeps its status when the head is added to the batch
    have htail : e' ∈ (sendDue s now type q l).2 → ∃ e₀ ∈ e :: l,
        Evolves now (sendDue s now type q l).1 e₀ e' ∧ e₀.seqNum ≠ e.seqNum := by
      intro h'
      obtain ⟨e₀, he₀, hev⟩ := ih hnd'.2 h'
      refine ⟨e₀, List.mem_cons_of_mem e he₀, hev, ?_⟩
      intro heq
      exact hnd'.1 (heq ▸ List.mem_map_of_mem he₀)
    simp only [sendDue] at h ⊢
    by_cases hdue : isDue s now type q e = true
    · rw [if_pos hdue] at h ⊢
      by_cases hmax : kMaxNackRetries ≤ e.retries + 1
      · rw [if_pos hmax] at h
        obtain ⟨e₀, he₀, hev, hne⟩ := htail h
        exact ⟨e₀, he₀, hev.cons hne⟩
      · rw [if_neg hmax] at h
        rcases List.mem_cons.1 h with rfl | h
        · exact ⟨e, List.mem_cons_self, Or.inr ⟨rfl, List.mem_cons_self, by omega⟩⟩
        · obtain ⟨e₀, he₀, hev, hne⟩ := htail h
          exact ⟨e₀, he₀, hev.cons hne⟩
    · rw [if_neg hdue] at h ⊢
      rcases List.mem_cons.1 h with rfl | h
      · refine ⟨e', List.mem_cons_self, Or.inl ⟨rfl, ?_⟩⟩
        exact fun hmem => hnd'.1 ((sendDue_fst_sublist s now type q l).subset hmem)
      · obtain ⟨e₀, he₀, hev, -⟩ := htail h
        exact ⟨e₀, he₀, hev⟩

/-! ## The invariant -/

/-- `q` lies in `[newest - 10000, newest - 1]` on the circle. -/
def InWindow (newest q : U16) : Prop :=
  1 ≤ (newest - q).toNat ∧ (newest - q).toNat ≤ kMaxPacketAge

/-- **The structural invariant of the NACK module.** -/
structure Inv (s : NackModuleImpl) : Prop where
  /-- The list is bounded. -/
  size : s.nackList.length ≤ kMaxNackPacketCount
  /-- Every entry lies in the window behind the newest number. -/
  window : ∀ q ∈ keys s.nackList, InWindow s.newestSeqNum q
  /-- The entries are in wrap-around order. -/
  ordered : (keys s.nackList).Pairwise fun p q => olderThan p q = true
  /-- Every entry was requested fewer than ten times, and has a send time exactly
  when it was requested at all. -/
  requests : ∀ e ∈ s.nackList, e.retries < kMaxNackRetries ∧ (e.sentTime.isSome ↔ 0 < e.retries)

theorem inv_create (d : Int) : Inv (create d) where
  size := by simp [create]
  window := by simp [create, keys]
  ordered := by simp [create, keys]
  requests := by simp [create]

theorem olderThan_iff_of_inWindow {n p q : U16} (hp : InWindow n p) (hq : InWindow n q) :
    olderThan p q = true ↔ (n - q).toNat < (n - p).toNat := by
  unfold InWindow kMaxPacketAge at hp hq
  rw [olderThan, aheadOf_iff]
  bv_omega

theorem Inv.nodup (h : Inv s) : (keys s.nackList).Nodup := by
  refine h.ordered.imp ?_
  rintro p q hpq rfl
  simp [olderThan] at hpq

theorem Inv.of_sublist (h : Inv s) (ks rs : List U16) (hkeys : (keys l).Sublist (keys s.nackList))
    (hreq : ∀ e ∈ l, e.retries < kMaxNackRetries ∧ (e.sentTime.isSome ↔ 0 < e.retries)) :
    Inv { s with keyframeList := ks, recoveredList := rs, nackList := l } where
  size := by
    have := hkeys.length_le
    simp only [keys, List.length_map] at this
    exact this.trans h.size
  window q hq := h.window q (hkeys.subset hq)
  ordered := h.ordered.sublist hkeys
  requests := hreq

theorem Inv.of_nackList_sublist (h : Inv s) (ks rs : List U16) (hl : l.Sublist s.nackList) :
    Inv { s with keyframeList := ks, recoveredList := rs, nackList := l } :=
  h.of_sublist ks rs (hl.map _) fun e he => h.requests e (hl.subset he)

/-- The entries that survive the age limit lie in the window of the number that
set it, when that number is close to the newest one. -/
theorem inWindow_of_mem_eraseBelow (h : Inv s) {q x : U16} (hq : (q - s.newestSeqNum).toNat ≤ 1001)
    (hx : x ∈ keys (eraseBelow olderThan NackInfo.seqNum (oldestKept q) s.nackList)) :
    InWindow q x := by
  obtain ⟨e, he, rfl⟩ := List.mem_map.1 hx
  have hranked : Ranked (fun e : NackInfo =>
    rank (s.newestSeqNum - 10000) e.seqNum) s.nackList := by
    refine (List.pairwise_map.1 h.ordered).imp_of_mem ?_
    intro a b ha hb hab
    have hwa := h.window _ (List.mem_map_of_mem ha)
    have hwb := h.window _ (List.mem_map_of_mem hb)
    rw [olderThan_iff_of_inWindow hwa hwb] at hab
    unfold InWindow kMaxPacketAge at hwa hwb
    unfold rank
    bv_omega
  have hmem := (mem_eraseBelow_iff (c := (q - s.newestSeqNum).toNat) hranked ?_).1 he
  · have hw := h.window _ (List.mem_map_of_mem hmem.1)
    have hle := hmem.2
    unfold InWindow kMaxPacketAge at hw ⊢
    unfold rank at hle
    bv_omega
  · intro e he
    have hw := h.window _ (List.mem_map_of_mem he)
    unfold InWindow kMaxPacketAge at hw
    rw [olderThan_eq_rank (b := s.newestSeqNum - 10000)]
    · congr 1
      unfold rank oldestKept kMaxPacketAge
      apply propext
      bv_omega
    · unfold rank oldestKept kMaxPacketAge
      bv_omega
    · unfold rank oldestKept kMaxPacketAge
      bv_omega

/-- **The gap loop on a well-formed list.**  Either the list is emptied, or the
part of it that is young enough is followed by the numbers of the gap. -/
theorem addPacketsToNack_spec (h : Inv s) (now : Int) (q : U16) :
    (∃ ks, addPacketsToNack s now (s.newestSeqNum + 1) q
        = ({ s with keyframeList := ks, nackList := [] }, false)) ∨
    ((q - s.newestSeqNum).toNat ≤ 1001 ∧
      ∃ ks l, l.Sublist (eraseBelow olderThan NackInfo.seqNum (oldestKept q) s.nackList) ∧
        l.length + (q - (s.newestSeqNum + 1)).toNat ≤ kMaxNackPacketCount ∧
        addPacketsToNack s now (s.newestSeqNum + 1) q
          = ({ s with
              keyframeList := ks
              nackList := l ++ newNacks now s.recoveredList (q - (s.newestSeqNum + 1)).toNat
                (s.newestSeqNum + 1) }, true)) := by
  rcases addPacketsToNack_cases s now (s.newestSeqNum + 1) q with hA | ⟨ks, l, hl, hlen, heq⟩
  · exact Or.inl hA
  · have hnum : (q - (s.newestSeqNum + 1)).toNat ≤ 1000 := by
      unfold kMaxNackPacketCount at hlen
      omega
    refine Or.inr ⟨by bv_omega, ks, l, hl, hlen, ?_⟩
    rw [heq, addNacks_eq_append (by omega)]
    intro e he i hi
    have hw := h.window _ (List.mem_map_of_mem (mem_of_mem_eraseBelow (hl.subset he)))
    unfold InWindow kMaxPacketAge at hw
    rw [olderThan, aheadOf_iff]
    bv_omega

theorem not_mem_keys_of_mem_newNacks (h : Inv s) {rs : List U16} (hc : count ≤ 1000) {e : NackInfo}
    (he : e ∈ newNacks now rs count (s.newestSeqNum + 1)) : e.seqNum ∉ keys s.nackList := by
  intro hmem
  obtain ⟨⟨i, hi, heq⟩, -⟩ := mem_newNacks he
  have hw := h.window _ hmem
  unfold InWindow kMaxPacketAge at hw
  rw [heq] at hw
  bv_omega

theorem pairwise_keys_newNacks (now : Int) (rs : List U16) (hc : count ≤ 32768)
    (q : U16) : (keys (newNacks now rs count q)).Pairwise fun a b => olderThan a b = true := by
  induction count generalizing q with
  | zero => simp [newNacks, keys]
  | succ count ih =>
    have hrest := ih (by omega) (q + 1)
    rw [newNacks]
    split
    · exact hrest
    · refine List.pairwise_cons.2 ⟨?_, hrest⟩
      intro b hb
      obtain ⟨e, he, rfl⟩ := List.mem_map.1 hb
      obtain ⟨⟨i, hi, heq⟩, -⟩ := mem_newNacks he
      rw [heq, olderThan, aheadOf_iff]
      bv_omega

theorem inv_addPacketsToNack (h : Inv s) (now : Int) (hq : q ≠ s.newestSeqNum) :
    Inv { (addPacketsToNack s now (s.newestSeqNum + 1) q).1 with newestSeqNum := q } := by
  rcases addPacketsToNack_spec h now q with ⟨ks, heq⟩ | ⟨hclose, ks, l, hl, hlen, heq⟩
  · rw [heq]
    exact ⟨by simp, by simp [keys], by simp [keys], by simp⟩
  · rw [heq]
    have hsub : l.Sublist s.nackList := hl.trans (eraseBelow_sublist _ _ _ _)
    have hnew := length_newNacks_le now s.recoveredList (q - (s.newestSeqNum + 1)).toNat
      (s.newestSeqNum + 1)
    have hnum : (q - (s.newestSeqNum + 1)).toNat + 1 = (q - s.newestSeqNum).toNat := by bv_omega
    refine ⟨?_, ?_, ?_, ?_⟩
    · simp only [List.length_append]
      omega
    · intro x hx
      simp only [keys, List.map_append, List.mem_append] at hx
      rcases hx with hx | hx
      · exact inWindow_of_mem_eraseBelow h hclose ((hl.map _).subset hx)
      · obtain ⟨e, he, rfl⟩ := List.mem_map.1 hx
        obtain ⟨⟨i, hi, heq⟩, -⟩ := mem_newNacks he
        rw [heq]
        unfold InWindow kMaxPacketAge
        bv_omega
    · simp only [keys, List.map_append]
      refine List.pairwise_append.2 ⟨h.ordered.sublist (hsub.map _),
        pairwise_keys_newNacks _ _ (by omega) _, ?_⟩
      intro a ha b hb
      have hw := h.window a ((hsub.map _).subset ha)
      obtain ⟨e, he, rfl⟩ := List.mem_map.1 hb
      obtain ⟨⟨i, hi, heq⟩, -⟩ := mem_newNacks he
      unfold InWindow kMaxPacketAge at hw
      rw [heq, olderThan, aheadOf_iff]
      bv_omega
    · intro e he
      rcases List.mem_append.1 he with he | he
      · exact h.requests e (hsub.subset he)
      · obtain ⟨-, -, hr, ht⟩ := mem_newNacks he
        simp [hr, ht, kMaxNackRetries]

theorem inv_nackListToSend (h : Inv s) (now : Int) (type : NackFilterType)
    (q : U16) : Inv (nackListToSend s now type q).1 := by
  refine h.of_sublist s.keyframeList s.recoveredList
    (keys_sendDue_sublist s now type q s.nackList) ?_
  intro e' he'
  obtain ⟨e, he, hev⟩ := mem_sendDue_snd h.nodup he'
  rcases hev with ⟨rfl, -⟩ | ⟨rfl, -, hlt⟩
  · exact h.requests _ he
  · exact ⟨hlt, by simp⟩

/-! ## What a step can do -/

theorem insertPacket_cases (s : NackModuleImpl) (now : Int) (q : U16) (k r : Bool) :
    (s.initialized = false ∧ ∃ ks, insertPacket s now q k r
        = ({ s with newestSeqNum := q, keyframeList := ks, initialized := true }, {})) ∨
    (s.initialized = true ∧ q = s.newestSeqNum ∧ insertPacket s now q k r = (s, {})) ∨
    (s.initialized = true ∧ aheadOf s.newestSeqNum q = true ∧
      (insertPacket s now q k r).1
        = { s with nackList := s.nackList.filter (·.seqNum ≠ q) } ∧
      (insertPacket s now q k r).2.nackListToSend = []) ∨
    (s.initialized = true ∧ q ≠ s.newestSeqNum ∧ aheadOf s.newestSeqNum q = false ∧ r = true ∧
      ∃ ks, insertPacket s now q k r
        = ({ s with
            keyframeList := ks
            recoveredList := eraseBelow olderThan id (oldestKept q)
              (insertBy olderThan id q s.recoveredList) }, {})) ∨
    (s.initialized = true ∧ q ≠ s.newestSeqNum ∧ aheadOf s.newestSeqNum q = false ∧ r = false ∧
      ∃ ks s₁, s₁ = { (addPacketsToNack { s with keyframeList := ks } now
            (s.newestSeqNum + 1) q).1 with newestSeqNum := q } ∧
        (insertPacket s now q k r).1 = (nackListToSend s₁ now .seqNum q).1 ∧
        (insertPacket s now q k r).2.nackListToSend = (nackListToSend s₁ now .seqNum q).2) := by
  unfold insertPacket
  by_cases hi : s.initialized = true
  · rw [if_neg (by simp [hi])]
    by_cases hq : q = s.newestSeqNum
    · rw [if_pos hq]
      exact Or.inr (Or.inl ⟨hi, hq, rfl⟩)
    · rw [if_neg hq]
      by_cases ha : aheadOf s.newestSeqNum q = true
      · rw [if_pos ha]
        refine Or.inr (Or.inr (Or.inl ⟨hi, ha, ?_⟩))
        split
        · exact ⟨rfl, rfl⟩
        · rename_i hnone
          have hself : s.nackList.filter (fun e => decide (e.seqNum ≠ q)) = s.nackList := by
            refine List.filter_eq_self.2 fun e he => ?_
            simpa using List.find?_eq_none.1 hnone e he
          exact ⟨by simp only [hself], rfl⟩
      · rw [if_neg ha]
        simp only [Bool.not_eq_true] at ha
        unfold insertNewer
        cases r with
        | true => exact Or.inr (Or.inr (Or.inr (Or.inl ⟨hi, hq, ha, rfl, _, rfl⟩)))
        | false => exact Or.inr (Or.inr (Or.inr (Or.inr ⟨hi, hq, ha, rfl, _, _, rfl, rfl, rfl⟩)))
  · simp only [Bool.not_eq_true] at hi
    rw [if_pos (by simp [hi])]
    exact Or.inl ⟨hi, _, rfl⟩

/-- The invariant together with the fact that a module without packets is empty. -/
def WorldInv (w : World) : Prop :=
  Inv w.nack ∧ (w.nack.initialized = false → w.nack.nackList = [])

/-- An entry the step may have started from: one that was there, or a fresh one
for a number that had none. -/
def Origin (s : NackModuleImpl) (e : NackInfo) : Prop :=
  e ∈ s.nackList ∨ (e.retries = 0 ∧ e.sentTime = none ∧ e.seqNum ∉ keys s.nackList)

/-- One step seen from the list: the invariant is kept, every entry evolves from
an origin, no number is handed out twice, and the timer only repeats a request
after a round trip. -/
structure StepSpec (w : World) (op : Op) (w' : World) (out : List U16) : Prop where
  inv : WorldInv w'
  clock : w.nowMs ≤ w'.nowMs
  nodup : out.Nodup
  entries : ∀ e' ∈ w'.nack.nackList, ∃ e, Origin w.nack e ∧ Evolves w.nowMs out e e'
  handed : ∀ x ∈ out, ∃ e, Origin w.nack e ∧ e.seqNum = x ∧ (op = .nackListOnRttPassed →
    ∃ sent, e.sentTime = some sent ∧ w.nack.rttMs ≤ w.nowMs - sent)

theorem Evolves.refl (now : Int) (e : NackInfo) : Evolves now [] e e := Or.inl ⟨rfl, by simp⟩

variable {w : World}

variable {op : Op}

theorem stepSpec_of_sublist {w' : World} (hinv : WorldInv w')
    (hclock : w.nowMs ≤ w'.nowMs) (hsub : w'.nack.nackList.Sublist w.nack.nackList) :
    StepSpec w op w' [] where
  inv := hinv
  clock := hclock
  nodup := List.nodup_nil
  entries e' he' := ⟨e', Or.inl (hsub.subset he'), Evolves.refl _ _⟩
  handed _ hx := absurd hx List.not_mem_nil

theorem isDue_time {e : NackInfo} (h : isDue s now .time q e = true) :
    ∃ sent, e.sentTime = some sent ∧ s.rttMs ≤ now - sent := by
  unfold isDue at h
  cases hs : e.sentTime with
  | none => simp [hs] at h
  | some sent =>
    simp only [hs, Bool.or_false, Bool.and_eq_true, decide_eq_true_eq] at h
    exact ⟨sent, rfl, h.2⟩

theorem step_spec (h : WorldInv w) (op : Op) :
    StepSpec w op (machine.step w op).1 (machine.step w op).2 := by
  obtain ⟨hinv, hempty⟩ := h
  cases op with
  | clearUpTo q =>
    refine stepSpec_of_sublist ⟨hinv.of_nackList_sublist _ _ (eraseBelow_sublist _ _ _ _), ?_⟩
      (Int.le_refl _) (eraseBelow_sublist _ _ _ _)
    intro hi
    simp only [machine, clearUpTo, hempty hi]
    rfl
  | updateRtt r =>
    exact stepSpec_of_sublist ⟨⟨hinv.1, hinv.2, hinv.3, hinv.4⟩, hempty⟩ (Int.le_refl _)
      (List.Sublist.refl _)
  | advanceTime ms =>
    refine stepSpec_of_sublist ⟨hinv, hempty⟩ ?_ (List.Sublist.refl _)
    simp only [machine]
    omega
  | nackListOnRttPassed =>
    refine ⟨⟨inv_nackListToSend hinv _ _ _, ?_⟩, (Int.le_refl _),
      (sendDue_fst_sublist _ _ _ _ _).nodup hinv.nodup, ?_, ?_⟩
    · intro hi
      have := hempty hi
      simp only [machine, nackListOnRttPassed, nackListToSend, this]
      rfl
    · intro e' he'
      obtain ⟨e, he, hev⟩ := mem_sendDue_snd hinv.nodup he'
      exact ⟨e, Or.inl he, hev⟩
    · intro x hx
      obtain ⟨e, he, heq, hdue⟩ := mem_sendDue_fst hx
      exact ⟨e, Or.inl he, heq, fun _ => isDue_time hdue⟩
  | insertPacket q k r =>
    rcases insertPacket_cases w.nack w.nowMs q k r with ⟨hi, ks, heq⟩ | ⟨hi, -, heq⟩ |
      ⟨hi, -, heq, hout⟩ | ⟨hi, -, -, -, ks, heq⟩ | ⟨hi, hne, -, -, ks, s₁, hs₁, heq, hout⟩
    · have hnil := hempty hi
      simp only [machine, heq]
      refine stepSpec_of_sublist ⟨⟨?_, ?_, ?_, ?_⟩, fun _ =>
        hnil⟩ (Int.le_refl _) (List.Sublist.refl _)
      all_goals simp [hnil, keys]
    · simp only [machine, heq]
      exact stepSpec_of_sublist ⟨hinv, hempty⟩ (Int.le_refl _) (List.Sublist.refl _)
    · simp only [machine, hout, heq]
      refine stepSpec_of_sublist ⟨hinv.of_nackList_sublist w.nack.keyframeList
        w.nack.recoveredList List.filter_sublist, ?_⟩ (Int.le_refl _) List.filter_sublist
      intro hi'
      rw [hempty hi']
      rfl
    · simp only [machine, heq]
      exact stepSpec_of_sublist ⟨hinv.of_nackList_sublist _ _ (List.Sublist.refl _), hempty⟩
        (Int.le_refl _)
        (List.Sublist.refl _)
    · -- the gap is noted first and the batch is taken from the longer list
      have hs : Inv { w.nack with keyframeList := ks } :=
        hinv.of_nackList_sublist _ _ (List.Sublist.refl _)
      have hinv₁ : Inv s₁ := hs₁ ▸ inv_addPacketsToNack hs w.nowMs hne
      have horigin : ∀ e ∈ s₁.nackList, Origin w.nack e := by
        intro e he
        rw [hs₁] at he
        rcases addPacketsToNack_spec hs w.nowMs q with ⟨ks', hA⟩ | ⟨hcl, ks', l, hl, hlen, hB⟩
        · rw [hA] at he
          exact absurd he List.not_mem_nil
        · rw [hB] at he
          rcases List.mem_append.1 he with he | he
          · exact Or.inl (mem_of_mem_eraseBelow (hl.subset he))
          · obtain ⟨-, -, hr, ht⟩ := mem_newNacks he
            refine Or.inr ⟨hr, ht, ?_⟩
            refine not_mem_keys_of_mem_newNacks hs ?_ he
            unfold kMaxNackPacketCount at hlen
            omega
      have hinit₁ : s₁.initialized = true := by
        rw [hs₁]
        rcases addPacketsToNack_spec hs w.nowMs q with ⟨ks', hA⟩ | ⟨-, ks', l, -, -, hB⟩
        · rw [hA]
          exact hi
        · rw [hB]
          exact hi
      simp only [machine, heq, hout]
      refine ⟨⟨inv_nackListToSend hinv₁ _ _ _, ?_⟩, (Int.le_refl _),
        (sendDue_fst_sublist _ _ _ _ _).nodup hinv₁.nodup, ?_, ?_⟩
      · intro hi'
        exact absurd (hinit₁.symm.trans hi') (by simp)
      · intro e' he'
        obtain ⟨e, he, hev⟩ := mem_sendDue_snd hinv₁.nodup he'
        exact ⟨e, horigin e he, hev⟩
      · intro x hx
        obtain ⟨e, he, hex, -⟩ := mem_sendDue_fst hx
        exact ⟨e, horigin e he, hex, fun hop => by cases hop⟩

/-! ## Runs -/

/-- How often `x` is handed out in a stretch of a run. -/
def handedOut (x : U16) (log : List (Op × List U16)) : Nat := (log.map fun p => p.2.count x).sum

/-- `x` is in the list after every step of the stretch but the last: the stretch
is part of one stay. -/
def Stays (x : U16) (w : World) : List Op → Prop
  | [] => True
  | [_] => True
  | op :: ops => x ∈ keys (machine.step w op).1.nack.nackList ∧ Stays x (machine.step w op).1 ops

theorem worldInv_start (nowMs delay : Int) : WorldInv (start nowMs delay) :=
  ⟨inv_create delay, fun _ => rfl⟩

theorem worldInv_final (h : WorldInv w) (ops : List Op) :
    WorldInv (machine.final w ops) :=
  machine.invariant_of_step WorldInv (fun _ op hw => (step_spec hw op).inv) h ops

theorem Inv.eq_of_seqNum_eq (h : Inv s)
    (he : e ∈ s.nackList) (he' : e' ∈ s.nackList) (heq : e.seqNum = e'.seqNum) : e = e' :=
  List.inj_on_of_nodup_map h.nodup he he' heq

variable {x : U16}

theorem handedOut_add_retries_le {ops : List Op} {r : Nat} (h : WorldInv w)
    (hr : r < kMaxNackRetries) (horigin : ∀ e, Origin w.nack e → e.seqNum = x → r ≤ e.retries)
    (hstay : Stays x w ops) : handedOut x (machine.log w ops) + r ≤ kMaxNackRetries := by
  induction ops generalizing w r with
  | nil => simpa [handedOut] using hr.le
  | cons op ops ih =>
    have hspec := step_spec h op
    set w' := (machine.step w op).1 with hw'
    set out := (machine.step w op).2 with hout
    have hone : out.count x ≤ 1 := List.nodup_iff_count_le_one.1 hspec.nodup x
    have hlog : handedOut x (machine.log w (op :: ops))
        = out.count x + handedOut x (machine.log w' ops) := by
      simp [handedOut, ← hw', ← hout]
    rw [hlog]
    cases ops with
    | nil =>
      simp only [Machine.log_nil, handedOut, List.map_nil, List.sum_nil]
      omega
    | cons op' ops =>
      obtain ⟨hmem, hrest⟩ := hstay
      obtain ⟨e', he', hx⟩ := List.mem_map.1 hmem
      -- the entry is listed after the step, so no fresh one can appear for it
      have hnext : ∀ e, Origin w'.nack e → e.seqNum = x → e = e' := by
        rintro e (he | ⟨-, -, hnot⟩) hex
        · exact hspec.inv.1.eq_of_seqNum_eq he he' (hex.trans hx.symm)
        · exact absurd (hex ▸ hmem) hnot
      obtain ⟨e, he, hev⟩ := hspec.entries e' he'
      have hle := horigin e he (hev.seqNum_eq.symm.trans hx)
      have hex : e.seqNum = x := hev.seqNum_eq.symm.trans hx
      rcases hev with ⟨rfl, hnot⟩ | ⟨heq, -, hlt⟩
      · have hzero : out.count x = 0 := List.count_eq_zero.2 (hex ▸ hnot)
        have := ih hspec.inv hr (fun a ha hax => by rw [hnext a ha hax]; exact hle) hrest
        omega
      · have := ih (r := r + 1) hspec.inv (by omega) (fun a ha hax => by
          rw [hnext a ha hax, heq]
          simpa using hle) hrest
        omega

/-- Every request of `x` still on record was made at `t` or later. -/
def SentSince (x : U16) (t : Int) (w : World) : Prop :=
  WorldInv w ∧ t ≤ w.nowMs ∧
    ∀ e ∈ w.nack.nackList, e.seqNum = x → ∀ sent, e.sentTime = some sent → t ≤ sent

theorem sentSince_step {t : Int} (h : SentSince x t w) (op : Op) :
    SentSince x t (machine.step w op).1 := by
  obtain ⟨hinv, hnow, hsent⟩ := h
  have hspec := step_spec hinv op
  refine ⟨hspec.inv, Int.le_trans hnow hspec.clock, ?_⟩
  intro e' he' hx sent hs
  obtain ⟨e, horigin, hev⟩ := hspec.entries e' he'
  rcases hev with ⟨rfl, -⟩ | ⟨rfl, -, -⟩
  · rcases horigin with he | ⟨-, hnone, -⟩
    · exact hsent e' he hx sent hs
    · rw [hnone] at hs
      cases hs
  · cases hs
    exact hnow

theorem sentSince_of_handed (h : WorldInv w)
    (hx : x ∈ (machine.step w op).2) : SentSince x w.nowMs (machine.step w op).1 := by
  have hspec := step_spec h op
  refine ⟨hspec.inv, hspec.clock, ?_⟩
  intro e' he' hex sent hs
  obtain ⟨e, -, hev⟩ := hspec.entries e' he'
  have heq := hev.seqNum_eq
  rcases hev with ⟨rfl, hnot⟩ | ⟨rfl, -, -⟩
  · exact absurd (hex ▸ hx) hnot
  · cases hs
    exact Int.le_refl _

theorem rtt_le_of_handed_again {w₁ : World} (h : WorldInv w₁) {ops : List Op}
    {w₂ : World} (hw₂ : w₂ = machine.final w₁ (op :: ops)) (h₁ : x ∈ (machine.step w₁ op).2)
    (h₂ : x ∈ (machine.step w₂ .nackListOnRttPassed).2) :
    w₂.nack.rttMs ≤ w₂.nowMs - w₁.nowMs := by
  have hsince : SentSince x w₁.nowMs w₂ := by
    rw [hw₂]
    exact machine.invariant_of_step (SentSince x w₁.nowMs) (fun _ op hw => sentSince_step hw op)
      (sentSince_of_handed h h₁) ops
  obtain ⟨e, horigin, hex, htime⟩ := (step_spec hsince.1 .nackListOnRttPassed).handed x h₂
  obtain ⟨sent, hs, hrtt⟩ := htime rfl
  rcases horigin with he | ⟨-, hnone, -⟩
  · have := hsince.2.2 e he hex sent hs
    omega
  · rw [hnone] at hs
    cases hs

theorem Inv.strictTotalOn (h : Inv s) :
    StrictTotalOn olderThan (keys s.nackList) := by
  refine strictTotalOn_of_rank (rank (s.newestSeqNum - 10000)) ?_
    fun p _ q _ => rank_inj
  intro p hp q hq
  have hwp := h.window p hp
  have hwq := h.window q hq
  unfold InWindow kMaxPacketAge at hwp hwq
  rw [olderThan, aheadOf_iff_rank]
  all_goals
    unfold rank
    bv_omega

/-- **The NACK list in every run.**  Whatever calls are made and however time
passes: the list has its shape in every state reached, the comparator orders it,
a number is handed out at most ten times per stay, the timer hands a number out
again only after a round trip, and the pruning loop ends. -/
theorem run_structure (nowMs delay : Int) :
    (∀ ops, Inv (machine.final (start nowMs delay) ops).nack ∧
      StrictTotalOn olderThan (keys (machine.final (start nowMs delay) ops).nack.nackList)) ∧
    (∀ ops stay x, Stays x (machine.final (start nowMs delay) ops) stay →
      handedOut x (machine.log (machine.final (start nowMs delay) ops) stay) ≤ kMaxNackRetries) ∧
    (∀ ops₁ op ops₂ x w₁ w₂, w₁ = machine.final (start nowMs delay) ops₁ →
      w₂ = machine.final w₁ (op :: ops₂) → x ∈ (machine.step w₁ op).2 →
      x ∈ (machine.step w₂ .nackListOnRttPassed).2 →
      w₂.nack.rttMs ≤ w₂.nowMs - w₁.nowMs) ∧
    (∀ (s : NackModuleImpl) (numNewNacks : Nat),
      (pruneLoop numNewNacks (s.nackList.length + 1) s).isSome = true) := by
  have hreach := fun ops => worldInv_final (worldInv_start nowMs delay) ops
  refine ⟨fun ops => ⟨(hreach ops).1, (hreach ops).1.strictTotalOn⟩, ?_, ?_, ?_⟩
  · intro ops stay x hstay
    have := handedOut_add_retries_le (r := 0) (hreach ops) (by decide)
      (fun _ _ _ => Nat.zero_le _) hstay
    omega
  · rintro ops₁ op ops₂ x w₁ w₂ rfl hw₂ h₁ h₂
    exact rtt_le_of_handed_again (hreach ops₁) hw₂ h₁ h₂
  · exact fun s n => pruneLoop_isSome n (Nat.lt_succ_self _)

end NaiveRtc.Nack
