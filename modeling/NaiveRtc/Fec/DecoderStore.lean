import NaiveRtc.Fec.FecDecoder
import Mathlib.Data.List.TakeWhile

/-!
# The stores of the FEC decoder

What holds of the media packets and of the FEC packets that the decoder keeps, and of the packets
that it hands to its callback.

* `Kept` — the store is in order, and what is stored is known to the FEC packets that protect it.
* `scan_spec`, `tryToRecover_rule`, `kept_tryToRecover` — recovering keeps it.
* `decoder_stores` — **the bounds on the stores, and no packet is recovered that is there**.
* `nothing_left_to_recover` — **and none is missed that could be**.
-/

namespace NaiveRtc.Fec

open WrapAround Ordered Overwrite CopyOnWrite ByteIo

namespace FecDecoder

/-! ## Numbers that are near -/

/-- The numbers lie within half of the circle, as the order of the maps needs it. -/
def Near (numbers : List U16) : Prop := ∃ start, ∀ n ∈ numbers, rank start n < 2 ^ 15

theorem Near.subset {numbers numbers' : List U16} (h : Near numbers)
    (hsub : numbers' ⊆ numbers) : Near numbers' := by
  obtain ⟨start, hstart⟩ := h
  exact ⟨start, fun n hn => hstart n (hsub hn)⟩

theorem olderThan_iff_rank {start a b : U16} (ha : rank start a < 2 ^ 15)
    (hb : rank start b < 2 ^ 15) : olderThan a b = true ↔ rank start a < rank start b :=
  aheadOf_iff_rank (by omega) (by omega)

theorem olderThan_of_ne {a b : U16} (hne : a ≠ b) (h : olderThan a b = false) :
    olderThan b a = true := by
  unfold olderThan at h ⊢
  rw [aheadOf_total hne, h]
  rfl

/-- The entries are in the order of the map. -/
def Sorted {α : Type} (key : α → U16) (l : List α) : Prop :=
  l.Pairwise fun x y => olderThan (key x) (key y) = true

theorem sorted_iff_ranked {α : Type} {key : α → U16} {start : U16} {l : List α}
    (h : ∀ x ∈ l, rank start (key x) < 2 ^ 15) :
    Sorted key l ↔ Ranked (fun x => rank start (key x)) l := by
  constructor
  · refine fun hl => List.Pairwise.imp_of_mem (fun hx hy hxy => ?_) hl
    exact (olderThan_iff_rank (h _ hx) (h _ hy)).mp hxy
  · refine fun hl => List.Pairwise.imp_of_mem (fun hx hy hxy => ?_) hl
    exact (olderThan_iff_rank (h _ hx) (h _ hy)).mpr hxy

theorem Sorted.insertBy {α : Type} {key : α → U16} {e : α} {l : List α} (h : Sorted key l)
    (hnear : Near (key e :: l.map key)) : Sorted key (insertBy olderThan key e l) := by
  obtain ⟨start, hstart⟩ := hnear
  have he := hstart (key e) List.mem_cons_self
  have hl : ∀ x ∈ l, rank start (key x) < 2 ^ 15 := fun x hx =>
    hstart (key x) (List.mem_cons_of_mem _ (List.mem_map_of_mem hx))
  rw [sorted_iff_ranked fun x hx => ?_]
  · refine ranked_insertBy (fun x hx => ⟨olderThan_iff_rank (hl x hx) he,
      olderThan_iff_rank he (hl x hx)⟩) ?_
    exact (sorted_iff_ranked hl).mp h
  · rcases mem_insertBy hx with rfl | hx
    · exact he
    · exact hl x hx

theorem mem_insertBy_new {α : Type} {key : α → U16} {e : α} {l : List α}
    (h : ∀ x ∈ l, key x ≠ key e) : e ∈ insertBy olderThan key e l :=
  (insertBy_perm fun x hx => olderThan_of_ne (h x hx)).mem_iff.mpr List.mem_cons_self

/-! ## Recovered packets -/

variable {store : List RecoveredMediaPacket} {fecs : List FecPacket}

theorem foldl_recoverStep_seqNum (protectedSsrc : U32) (ps : List MediaPacket)
    (r : RecoveredMediaPacket) :
    (∃ p ∈ ps, p.pkt = [] ∧ (ps.foldl (recoverStep protectedSsrc) r).seqNum = p.seqNum) ∨
      ((∀ p ∈ ps, p.pkt ≠ []) ∧ (ps.foldl (recoverStep protectedSsrc) r).seqNum = r.seqNum) := by
  induction ps generalizing r with
  | nil => exact Or.inr ⟨by simp, rfl⟩
  | cons p ps ih =>
    rw [List.foldl_cons]
    rcases ih (recoverStep protectedSsrc r p) with ⟨q, hq, hempty, heq⟩ | ⟨hall, heq⟩
    · exact Or.inl ⟨q, List.mem_cons_of_mem p hq, hempty, heq⟩
    · by_cases hp : p.pkt = []
      · refine Or.inl ⟨p, List.mem_cons_self, hp, ?_⟩
        rw [heq, recoverStep, if_pos hp]
      · refine Or.inr ⟨List.forall_mem_cons.mpr ⟨hp, hall⟩, ?_⟩
        rw [heq, recoverStep, if_neg hp]

theorem finishPacketForRecovery_spec {r packet : RecoveredMediaPacket}
    (h : finishPacketForRecovery r = some packet) :
    packet.seqNum = r.seqNum ∧ packet.pkt ≠ [] := by
  unfold finishPacketForRecovery at h
  dsimp only at h
  split at h
  · cases h
  · obtain rfl := Option.some.inj h
    refine ⟨rfl, List.ne_nil_of_length_pos ?_⟩
    rw [length_overwrite, length_overwrite, length_resized]
    exact Nat.succ_pos _

variable {packet : RecoveredMediaPacket} {f : FecPacket}

theorem recoverPacket_spec (hone : numPacketsToRecover f = 1) (h : recoverPacket f = some packet) :
    (∃ p ∈ f.protectedMediaPackets, p.pkt = [] ∧ packet.seqNum = p.seqNum) ∧ packet.pkt ≠ [] := by
  obtain ⟨pkt, -, hfinish⟩ := Option.bind_eq_some_iff.mp h
  obtain ⟨hseq, hne⟩ := finishPacketForRecovery_spec hfinish
  refine ⟨?_, hne⟩
  rcases foldl_recoverStep_seqNum f.protectedSsrc f.protectedMediaPackets
    { pkt := pkt, wasRecovered := true } with ⟨p, hp, hempty, heq⟩ | ⟨hall, -⟩
  · exact ⟨p, hp, hempty, hseq.trans heq⟩
  · have hzero : f.protectedMediaPackets.countP (fun p => decide (p.pkt = [])) = 0 :=
      List.countP_eq_zero.mpr fun p hp => by simpa using hall p hp
    unfold numPacketsToRecover at hone
    rw [hzero] at hone
    cases hone

theorem scan_spec (store : List RecoveredMediaPacket) (fecs : List FecPacket) :
    (scan store fecs).1.Sublist fecs ∧ ∀ packet rest, (scan store fecs).2 = some (packet, rest) →
      ((scan store fecs).1 ++ rest).Sublist fecs ∧
        (scan store fecs).1.length + rest.length < fecs.length ∧
        ∃ f ∈ fecs, numPacketsToRecover f = 1 ∧ recoverPacket f = some packet := by
  induction fecs with
  | nil => exact ⟨List.Sublist.refl _, fun _ _ h => by cases h⟩
  | cons f fs ih =>
    obtain ⟨hkept, hfound⟩ := ih
    have hskip : (scan store fs).1.Sublist (f :: fs) ∧
        ∀ packet rest, (scan store fs).2 = some (packet, rest) →
          ((scan store fs).1 ++ rest).Sublist (f :: fs) ∧
            (scan store fs).1.length + rest.length < (f :: fs).length ∧
            ∃ f' ∈ f :: fs, numPacketsToRecover f' = 1 ∧ recoverPacket f' = some packet := by
      refine ⟨hkept.cons f, fun packet rest h => ?_⟩
      obtain ⟨hsub, hlen, f', hf', hrec⟩ := hfound packet rest h
      exact ⟨hsub.cons f, Nat.lt_succ_of_lt hlen, f', List.mem_cons_of_mem f hf', hrec⟩
    rw [scan]
    split
    · next hone =>
      split
      · exact hskip
      · next packet hrec =>
        refine ⟨List.nil_sublist _, fun packet' rest h => ?_⟩
        obtain ⟨rfl, rfl⟩ := Prod.mk.inj (Option.some.inj h)
        exact ⟨List.sublist_cons_self f fs, by simp, f, List.mem_cons_self, hone, hrec⟩
    · split
      · exact hskip
      · refine ⟨hkept.cons_cons f, fun packet rest h => ?_⟩
        obtain ⟨hsub, hlen, f', hf', hrec⟩ := hfound packet rest h
        refine ⟨hsub.cons_cons f, ?_, f', List.mem_cons_of_mem f hf', hrec⟩
        dsimp only
        rw [List.length_cons, List.length_cons]
        omega

/-! ## What is kept -/

/-- The numbers in the stores. -/
def storedNumbers (store : List RecoveredMediaPacket) (fecs : List FecPacket) : List U16 :=
  store.map (fun r => r.seqNum) ++
    fecs.flatMap fun f => f.protectedMediaPackets.map MediaPacket.seqNum

/-- **What is kept**: the store is in order, its packets are not empty, and an FEC packet has
those of them that it protects. -/
structure Kept (store : List RecoveredMediaPacket) (fecs : List FecPacket) : Prop where
  sorted : Sorted (fun r => r.seqNum) store
  nonempty : ∀ r ∈ store, r.pkt ≠ []
  known : ∀ f ∈ fecs, ∀ p ∈ f.protectedMediaPackets, ∀ r ∈ store, r.seqNum = p.seqNum → p.pkt ≠ []

variable {p : MediaPacket}

theorem mem_storedNumbers_of_fec (hf : f ∈ fecs)
    (hp : p ∈ f.protectedMediaPackets) : p.seqNum ∈ storedNumbers store fecs :=
  List.mem_append_right _ (List.mem_flatMap.mpr ⟨f, hf, List.mem_map_of_mem hp⟩)

theorem storedNumbers_subset {store' : List RecoveredMediaPacket} {fecs' : List FecPacket}
    (hstore : ∀ r ∈ store', r.seqNum ∈ storedNumbers store fecs)
    (hfecs : ∀ f ∈ fecs', ∀ p ∈ f.protectedMediaPackets, p.seqNum ∈ storedNumbers store fecs) :
    storedNumbers store' fecs' ⊆ storedNumbers store fecs := by
  intro n hn
  rcases List.mem_append.mp hn with hn | hn
  · obtain ⟨r, hr, rfl⟩ := List.mem_map.mp hn
    exact hstore r hr
  · obtain ⟨f, hf, hn⟩ := List.mem_flatMap.mp hn
    obtain ⟨p, hp, rfl⟩ := List.mem_map.mp hn
    exact hfecs f hf p hp

theorem Kept.sublist {store' : List RecoveredMediaPacket} {fecs' : List FecPacket}
    (h : Kept store fecs) (hstore : store'.Sublist store) (hfecs : fecs'.Sublist fecs) :
    Kept store' fecs' :=
  ⟨List.Pairwise.sublist hstore h.sorted, fun r hr => h.nonempty r (hstore.subset hr),
    fun f hf p hp r hr => h.known f (hfecs.subset hf) p hp r (hstore.subset hr)⟩

theorem discardOldRecoveredPackets_sublist (store : List RecoveredMediaPacket) :
    (discardOldRecoveredPackets store).Sublist store := List.drop_sublist _ _

theorem length_discardOldRecoveredPackets_le (store : List RecoveredMediaPacket) :
    (discardOldRecoveredPackets store).length ≤ kMaxTrackedMediaPackets := by
  unfold discardOldRecoveredPackets
  rw [List.length_drop]
  omega

theorem length_updateConveringFecPackets (packet : RecoveredMediaPacket) (fecs : List FecPacket) :
    (updateConveringFecPackets packet fecs).length = fecs.length := List.length_map _

theorem mem_updateConveringFecPackets {f' : FecPacket}
    {p' : MediaPacket} (hf' : f' ∈ updateConveringFecPackets packet fecs)
    (hp' : p' ∈ f'.protectedMediaPackets) :
    ∃ f ∈ fecs, ∃ p ∈ f.protectedMediaPackets, p'.seqNum = p.seqNum ∧
      p'.pkt = if p.seqNum = packet.seqNum then packet.pkt else p.pkt := by
  obtain ⟨f, hf, rfl⟩ := List.mem_map.mp hf'
  obtain ⟨p, hp, rfl⟩ := List.mem_map.mp hp'
  refine ⟨f, hf, p, hp, ?_⟩
  split
  · exact ⟨rfl, rfl⟩
  · exact ⟨rfl, rfl⟩

theorem Kept.insert (h : Kept store fecs)
    (hne : packet.pkt ≠ []) (hnear : Near (packet.seqNum :: storedNumbers store fecs)) :
    Kept (insertBy olderThan (fun r => r.seqNum) packet store)
      (updateConveringFecPackets packet fecs) := by
  refine ⟨h.sorted.insertBy (hnear.subset (List.cons_subset_cons _ (List.subset_append_left _ _))),
    fun r hr => ?_, fun f' hf' p' hp' r hr hseq => ?_⟩
  · rcases mem_insertBy hr with rfl | hr
    · exact hne
    · exact h.nonempty r hr
  · obtain ⟨f, hf, p, hp, hnum, hpkt⟩ := mem_updateConveringFecPackets hf' hp'
    rw [hpkt]
    split
    · exact hne
    · next hother =>
      rcases mem_insertBy hr with rfl | hr
      · exact absurd (hnum.symm.trans hseq.symm) hother
      · exact h.known f hf p hp r hr (hseq.trans hnum)

/-- What the callback is to be told. -/
def Recovery.Sound (e : Recovery) : Prop :=
  (∀ r ∈ e.before, r.seqNum ≠ e.packet.seqNum) ∧
    (e.before.length < kMaxTrackedMediaPackets ∨
      (∃ r ∈ e.before, olderThan r.seqNum e.packet.seqNum = true) → e.packet ∈ e.store)

theorem mem_storeWith (hsorted : Sorted (fun r => r.seqNum) store)
    (hnear : Near (packet.seqNum :: store.map fun r => r.seqNum))
    (hnew : ∀ r ∈ store, r.seqNum ≠ packet.seqNum) (hlen : store.length ≤ kMaxTrackedMediaPackets)
    (hroom : store.length < kMaxTrackedMediaPackets ∨
      ∃ r ∈ store, olderThan r.seqNum packet.seqNum = true) :
    packet ∈ storeWith packet store := by
  have hinserted := length_insertBy_le olderThan (fun r => r.seqNum) packet store
  unfold storeWith discardOldRecoveredPackets
  rcases hroom with hroom | ⟨r, hr, holder⟩
  · rw [Nat.sub_eq_zero_of_le (by omega), List.drop_zero]
    exact mem_insertBy_new hnew
  · obtain ⟨first, rest, rfl⟩ := List.exists_cons_of_ne_nil (List.ne_nil_of_mem hr)
    -- at most the first packet is discarded, and that one is older than what was recovered
    have hfirst : olderThan first.seqNum packet.seqNum = true := by
      rcases List.mem_cons.mp hr with rfl | hrest
      · exact holder
      · obtain ⟨start, hstart⟩ := hnear
        have hnum : ∀ x ∈ first :: rest, rank start x.seqNum < 2 ^ 15 := fun x hx =>
          hstart _ (List.mem_cons_of_mem _ (List.mem_map_of_mem hx))
        have hpacket := hstart _ List.mem_cons_self
        have hhead := List.rel_of_pairwise_cons hsorted hrest
        rw [olderThan_iff_rank (hnum first List.mem_cons_self) (hnum r hr)] at hhead
        rw [olderThan_iff_rank (hnum r hr) hpacket] at holder
        exact (olderThan_iff_rank (hnum first List.mem_cons_self) hpacket).mpr (hhead.trans holder)
    have hmem : packet ∈ insertBy olderThan (fun r => r.seqNum) packet rest :=
      mem_insertBy_new fun x hx => hnew x (List.mem_cons_of_mem first hx)
    have hdrop : (insertBy olderThan (fun r => r.seqNum) packet (first :: rest)).length -
        kMaxTrackedMediaPackets ≤ 1 := by omega
    rw [insertBy, if_pos hfirst] at hdrop ⊢
    generalize List.length _ - kMaxTrackedMediaPackets = excess at hdrop
    rcases Nat.le_one_iff_eq_zero_or_eq_one.mp hdrop with rfl | rfl
    · exact List.mem_cons_of_mem first hmem
    · exact hmem

theorem Kept.recovered (h : Kept store fecs) (hnear : Near (storedNumbers store fecs))
    (hlen : store.length ≤ kMaxTrackedMediaPackets)
    (hf : f ∈ fecs) (hone : numPacketsToRecover f = 1) (hrec : recoverPacket f = some packet) :
    packet.seqNum ∈ storedNumbers store fecs ∧ packet.pkt ≠ [] ∧
      (∀ r ∈ store, r.seqNum ≠ packet.seqNum) ∧
      ((insertBy olderThan (fun r => r.seqNum) packet store).find?
        (·.seqNum = packet.seqNum)).getD packet = packet ∧
      Recovery.Sound ⟨packet, store, storeWith packet store⟩ := by
  obtain ⟨⟨p, hp, hempty, hseq⟩, hne⟩ := recoverPacket_spec hone hrec
  have hnew : ∀ r ∈ store, r.seqNum ≠ packet.seqNum := fun r hr heq =>
    h.known f hf p hp r hr (heq.trans hseq) hempty
  have hnum : packet.seqNum ∈ storedNumbers store fecs := hseq ▸ mem_storedNumbers_of_fec hf hp
  have hnumbers : Near (packet.seqNum :: store.map fun r => r.seqNum) :=
    hnear.subset (List.cons_subset.mpr ⟨hnum, List.subset_append_left _ _⟩)
  refine ⟨hnum, hne, hnew, ?_, hnew, fun hroom => ?_⟩
  · cases hfind : (insertBy olderThan (fun r => r.seqNum) packet store).find?
        (·.seqNum = packet.seqNum) with
    | none => rfl
    | some entry =>
      have hseq := List.find?_some hfind
      rcases mem_insertBy (List.mem_of_find?_eq_some hfind) with rfl | hmem
      · rfl
      · exact absurd (by simpa using hseq) (hnew entry hmem)
  · dsimp only at hroom ⊢
    exact mem_storeWith h.sorted hnumbers hnew hlen hroom

/-! ## The loop -/

/-- **The rule for the loop**: FEC packets are dropped, or a packet is recovered and the loop goes
on with what there is then. -/
theorem tryToRecover_rule {P : List RecoveredMediaPacket → List FecPacket →
      List RecoveredMediaPacket × List FecPacket × List Recovery → Prop}
    (hdrop : ∀ store fecs kept, kept.Sublist fecs → P store fecs (store, kept, []))
    (hrecover : ∀ store fecs f packet others, others.Sublist fecs → f ∈ fecs →
      numPacketsToRecover f = 1 → recoverPacket f = some packet → ∀ r,
      P (storeWith packet store) (updateConveringFecPackets (entryOf packet store) others) r →
      P store fecs (r.1, r.2.1, callsFor packet store ++ r.2.2))
    (fuel : Nat) (store : List RecoveredMediaPacket) (fecs : List FecPacket) :
    P store fecs (tryToRecover fuel store fecs) := by
  induction fuel generalizing store fecs with
  | zero => exact hdrop store fecs fecs (List.Sublist.refl fecs)
  | succ fuel ih =>
    obtain ⟨hkept, hfound⟩ := scan_spec store fecs
    rw [tryToRecover]
    split
    · next kept hscan =>
      rw [hscan] at hkept
      exact hdrop store fecs kept hkept
    · next kept packet rest hscan =>
      obtain ⟨hsub, -, f, hf, hone, hrec⟩ := hfound packet rest (by rw [hscan])
      rw [hscan] at hsub
      exact hrecover store fecs f packet (kept ++ rest) hsub hf hone hrec _ (ih _ _)

/-- The FEC packet lacks more than one packet, and is not old. -/
def Pending (store : List RecoveredMediaPacket) (f : FecPacket) : Prop :=
  2 ≤ f.protectedMediaPackets.countP (fun p => decide (p.pkt = [])) ∧ isOldFecPacket store f = false

theorem pending_of_scan {kept : List FecPacket} (h : scan store fecs = (kept, none)) :
    ∀ f ∈ kept, Pending store f := by
  induction fecs generalizing kept with
  | nil =>
    obtain ⟨rfl, -⟩ := Prod.mk.inj h
    simp
  | cons f fs ih =>
    rw [scan] at h
    split at h
    · split at h
      · exact ih h
      · cases (Prod.mk.inj h).2
    · next hone =>
      split at h
      · exact ih h
      · next hdrop =>
        obtain ⟨rfl, hnone⟩ := Prod.mk.inj h
        obtain ⟨hzero, hold⟩ := not_or.1 hdrop
        unfold numPacketsToRecover at hone hzero
        exact List.forall_mem_cons.mpr ⟨⟨by omega, Bool.eq_false_iff.2 hold⟩,
          ih (Prod.ext rfl hnone)⟩

/-- **Nothing is left to recover** when the loop ends: every round but the last removes an FEC
packet. -/
theorem pending_tryToRecover {fuel : Nat} {store : List RecoveredMediaPacket}
    {fecs : List FecPacket} (h : fecs.length < fuel) :
    ∀ f ∈ (tryToRecover fuel store fecs).2.1, Pending (tryToRecover fuel store fecs).1 f := by
  induction fuel generalizing store fecs with
  | zero => exact absurd h (Nat.not_lt_zero _)
  | succ fuel ih =>
    rw [tryToRecover]
    split
    · next kept hscan => exact pending_of_scan hscan
    · next kept packet rest hscan =>
      obtain ⟨-, hlen, -⟩ := (scan_spec store fecs).2 packet rest (by rw [hscan])
      rw [hscan] at hlen
      refine ih ?_
      rw [length_updateConveringFecPackets, List.length_append]
      exact Nat.lt_of_lt_of_le hlen (Nat.le_of_lt_succ h)

theorem length_tryToRecover (fuel : Nat) (store : List RecoveredMediaPacket)
    (fecs : List FecPacket) :
    (store.length ≤ kMaxTrackedMediaPackets →
        (tryToRecover fuel store fecs).1.length ≤ kMaxTrackedMediaPackets) ∧
      (tryToRecover fuel store fecs).2.1.length ≤ fecs.length := by
  refine tryToRecover_rule (P := fun store fecs r =>
    (store.length ≤ kMaxTrackedMediaPackets → r.1.length ≤ kMaxTrackedMediaPackets) ∧
      r.2.1.length ≤ fecs.length) ?_ ?_ fuel store fecs
  · exact fun store fecs kept hkept => ⟨id, hkept.length_le⟩
  · rintro store fecs f packet others hsub - - - r ⟨hstore, hfecs⟩
    rw [length_updateConveringFecPackets] at hfecs
    exact ⟨fun _ => hstore (length_discardOldRecoveredPackets_le _), hfecs.trans hsub.length_le⟩

theorem kept_tryToRecover (fuel : Nat) (store : List RecoveredMediaPacket)
    (fecs : List FecPacket) :
    Kept store fecs → Near (storedNumbers store fecs) →
      store.length ≤ kMaxTrackedMediaPackets →
        Kept (tryToRecover fuel store fecs).1 (tryToRecover fuel store fecs).2.1 ∧
        ∀ e ∈ (tryToRecover fuel store fecs).2.2, e.Sound := by
  refine tryToRecover_rule (P := fun store fecs r => Kept store fecs →
    Near (storedNumbers store fecs) → store.length ≤ kMaxTrackedMediaPackets →
      Kept r.1 r.2.1 ∧ ∀ e ∈ r.2.2, e.Sound) ?_ ?_ fuel store fecs
  · exact fun store fecs kept hkept h _ _ =>
      ⟨h.sublist (List.Sublist.refl store) hkept, fun _ he => absurd he List.not_mem_nil⟩
  · intro store fecs f packet others hsub hf hone hrec r ih h hnear hlen
    obtain ⟨hnum, hne, hnew, hentry, hsound⟩ := h.recovered hnear hlen hf hone hrec
    have hentry : entryOf packet store = packet := hentry
    have hinserted := (h.sublist (List.Sublist.refl store) hsub).insert hne
      (hnear.subset (List.cons_subset.mpr ⟨hnum, storedNumbers_subset
        (fun r hr => List.mem_append_left _ (List.mem_map_of_mem hr))
        fun f hf p hp => mem_storedNumbers_of_fec (hsub.subset hf) hp⟩))
    rw [hentry] at ih
    have hsubset : storedNumbers (storeWith packet store)
        (updateConveringFecPackets packet others) ⊆ storedNumbers store fecs := by
      refine storedNumbers_subset (fun r hr => ?_) fun f' hf' p' hp' => ?_
      · rcases mem_insertBy ((discardOldRecoveredPackets_sublist _).subset hr) with rfl | hr
        · exact hnum
        · exact List.mem_append_left _ (List.mem_map_of_mem hr)
      · obtain ⟨f, hf, p, hp, hseq, -⟩ := mem_updateConveringFecPackets hf' hp'
        rw [hseq]
        exact mem_storedNumbers_of_fec (hsub.subset hf) hp
    obtain ⟨hkept, hcalls⟩ := ih
      (hinserted.sublist (discardOldRecoveredPackets_sublist _) (List.Sublist.refl _))
      (hnear.subset hsubset) (length_discardOldRecoveredPackets_le _)
    refine ⟨hkept, fun e he => ?_⟩
    rcases List.mem_append.mp he with he | he
    · unfold callsFor at he
      rw [hentry] at he
      split at he
      · obtain rfl := List.mem_singleton.mp he
        exact hsound
      · exact absurd he List.not_mem_nil
    · exact hcalls e he

/-! ## FEC packets that come in -/

theorem rank_add (base : U16) {k : Nat} (hk : k < 2 ^ 16) :
    rank base (base + BitVec.ofNat 16 k) = k := by
  unfold rank
  rw [BitVec.add_comm, BitVec.add_sub_cancel, BitVec.toNat_ofNat, Nat.mod_eq_of_lt hk]

theorem olderThan_add (base : U16) {j k : Nat} (hjk : j < k) (hk : k < 2 ^ 15) :
    olderThan (base + BitVec.ofNat 16 j) (base + BitVec.ofNat 16 k) = true := by
  have hj := rank_add base (show j < 2 ^ 16 by omega)
  have hk' := rank_add base (show k < 2 ^ 16 by omega)
  rw [olderThan_iff_rank (hj.trans_lt (hjk.trans hk)) (hk'.trans_lt hk), hj, hk']
  exact hjk

/-- The `k`-th bit of the mask. -/
def maskBit (header : FecHeader) (pkt : List UInt8) (k : Nat) : Bool :=
  protects pkt (header.packetMaskOffset + k / 8) (k % 8)

/-- The packet that the `k`-th bit of the mask names. -/
def namedPacket (ssrc : U32) (header : FecHeader) (k : Nat) : MediaPacket :=
  { ssrc := ssrc, seqNum := header.seqNumBase + BitVec.ofNat 16 k }

/-- The packets that the first bits of the mask name. -/
def namedPackets (ssrc : U32) (header : FecHeader) (pkt : List UInt8) (n : Nat) :
    List MediaPacket :=
  ((List.range n).filter (maskBit header pkt)).map (namedPacket ssrc header)

variable {ssrc : U32} {header : FecHeader} {pkt : List UInt8}

variable {n : Nat}

theorem mem_namedPackets (h : p ∈ namedPackets ssrc header pkt n) :
    ∃ k < n, maskBit header pkt k = true ∧ p = namedPacket ssrc header k := by
  obtain ⟨k, hk, rfl⟩ := List.mem_map.mp h
  obtain ⟨hk, hbit⟩ := List.mem_filter.mp hk
  exact ⟨k, List.mem_range.mp hk, hbit, rfl⟩

theorem namedPackets_succ (hn : n < 2 ^ 15) :
    namedPackets ssrc header pkt (n + 1) =
      if maskBit header pkt n then
        assignBy olderThan MediaPacket.seqNum (namedPacket ssrc header n)
          (namedPackets ssrc header pkt n)
      else namedPackets ssrc header pkt n := by
  have hsucc : namedPackets ssrc header pkt (n + 1) = namedPackets ssrc header pkt n ++
      ([n].filter (maskBit header pkt)).map (namedPacket ssrc header) := by
    unfold namedPackets
    rw [List.range_succ, List.filter_append, List.map_append]
  rw [hsucc]
  split
  · next hbit =>
    rw [List.filter_cons_of_pos hbit, List.filter_nil, List.map_singleton, assignBy_eq_append]
    intro p hp
    obtain ⟨k, hk, -, rfl⟩ := mem_namedPackets hp
    exact olderThan_add header.seqNumBase hk hn
  · next hbit =>
    rw [List.filter_cons_of_neg hbit, List.filter_nil, List.map_nil, List.append_nil]

theorem protectedMediaPackets_eq (hsize : header.packetMaskSize ≤ 2 ^ 12) :
    protectedMediaPackets ssrc header pkt =
      namedPackets ssrc header pkt (8 * header.packetMaskSize) := by
  have hbits : ∀ byteIdx m, 8 * byteIdx + 8 ≤ 2 ^ 15 → m ≤ 8 →
      (List.range m).foldl (fun packets bitIdx =>
        if protects pkt (header.packetMaskOffset + byteIdx) bitIdx then
          assignBy olderThan MediaPacket.seqNum
            { ssrc := ssrc, seqNum := header.seqNumBase + BitVec.ofNat 16 (byteIdx * 8 + bitIdx) }
            packets
        else packets) (namedPackets ssrc header pkt (8 * byteIdx)) =
        namedPackets ssrc header pkt (8 * byteIdx + m) := by
    intro byteIdx m hbyte hm
    induction m with
    | zero => rfl
    | succ m ih =>
      rw [List.range_succ, List.foldl_append, ih (by omega), List.foldl_cons, List.foldl_nil,
        ← Nat.add_assoc, namedPackets_succ (by omega), maskBit,
        show (8 * byteIdx + m) / 8 = byteIdx by omega, show (8 * byteIdx + m) % 8 = m by omega,
        namedPacket, Nat.mul_comm byteIdx 8]
  unfold protectedMediaPackets
  generalize header.packetMaskSize = n at hsize
  induction n with
  | zero => rfl
  | succ n ih =>
    rw [List.range_succ (n := n), List.foldl_append, ih (by omega), List.foldl_cons,
      List.foldl_nil, hbits n 8 (by omega) (le_refl 8), Nat.mul_succ]

theorem sorted_namedPackets (hn : n ≤ 2 ^ 15) :
    Sorted MediaPacket.seqNum (namedPackets ssrc header pkt n) := by
  refine List.pairwise_map.mpr ?_
  refine List.Pairwise.imp_of_mem (fun hj hk hjk => ?_)
    (List.Pairwise.filter _ List.pairwise_lt_range)
  exact olderThan_add header.seqNumBase hjk
    ((List.mem_range.mp (List.mem_of_mem_filter hk)).trans_le hn)

theorem readFecHeader_packetMaskSize {pkt' : List UInt8}
    (h : readFecHeader pkt = some (header, pkt')) : header.packetMaskSize ≤ 6 := by
  unfold readFecHeader at h
  split at h
  · cases h
  · obtain ⟨rfl, -⟩ := Prod.mk.inj (Option.some.inj h)
    dsimp only
    split <;> decide

theorem map_seqNum_assignProtected (ps : List MediaPacket) (store : List RecoveredMediaPacket) :
    (assignProtected ps store).map MediaPacket.seqNum = ps.map MediaPacket.seqNum := by
  induction store generalizing ps with
  | nil => rfl
  | cons r rs ih =>
    conv_rhs => rw [← List.takeWhile_append_dropWhile
      (p := fun p : MediaPacket => aheadOf r.seqNum p.seqNum) (l := ps)]
    rw [assignProtected]
    split
    · next hdrop => rw [hdrop, List.append_nil]
    · next p rest hdrop =>
      rw [hdrop, List.map_append, List.map_append]
      congr 1
      split
      · exact ih _
      · rw [List.map_cons, List.map_cons, ih]

theorem exists_of_mem_assignProtected {ps : List MediaPacket}
    (h : p ∈ assignProtected ps store) : ∃ q ∈ ps, q.seqNum = p.seqNum := by
  have hmem := List.mem_map_of_mem (f := MediaPacket.seqNum) h
  rw [map_seqNum_assignProtected] at hmem
  exact List.mem_map.mp hmem

theorem assignProtected_spec {ps : List MediaPacket} {start : U16}
    (hps : Ranked (fun p => rank start p.seqNum) ps)
    (hstore : Ranked (fun r => rank start r.seqNum) store)
    (hpsNear : ∀ p ∈ ps, rank start p.seqNum < 2 ^ 15)
    (hnear : ∀ r ∈ store, rank start r.seqNum < 2 ^ 15) :
    ∀ p ∈ assignProtected ps store, ∀ r ∈ store, r.seqNum = p.seqNum → p.pkt = r.pkt := by
  induction store generalizing ps with
  | nil => simp
  | cons r rs ih =>
    obtain ⟨hr, hrs⟩ := List.pairwise_cons.mp hstore
    have hrNear := hnear r List.mem_cons_self
    have hrsNear : ∀ r' ∈ rs, rank start r'.seqNum < 2 ^ 15 := fun r' hr' =>
      hnear r' (List.mem_cons_of_mem r hr')
    intro p hp r' hr' hseq
    have hle : rank start r.seqNum ≤ rank start p.seqNum := by
      rw [← hseq]
      rcases List.mem_cons.mp hr' with rfl | hr'
      · exact le_refl _
      · exact (hr r' hr').le
    -- a packet that is skipped is older than all that are stored
    have holder : p ∉ ps.takeWhile fun p => aheadOf r.seqNum p.seqNum := by
      intro hp
      have hahead : aheadOf r.seqNum p.seqNum = true :=
        List.mem_takeWhile_imp (p := fun p : MediaPacket => aheadOf r.seqNum p.seqNum) hp
      have hlt := (olderThan_iff_rank
        (hpsNear p (List.takeWhile_subset _ hp)) hrNear).mp hahead
      omega
    have hdropped : ∀ q ∈ ps.dropWhile fun p => aheadOf r.seqNum p.seqNum, q ∈ ps := fun q hq =>
      (List.dropWhile_sublist _).subset hq
    have hranked := List.Pairwise.sublist
      (List.dropWhile_sublist fun p : MediaPacket => aheadOf r.seqNum p.seqNum) hps
    rw [assignProtected] at hp
    split at hp
    · exact absurd hp holder
    · next q rest hdrop =>
      rw [hdrop] at hdropped hranked
      obtain ⟨hq, hrest⟩ := List.pairwise_cons.mp hranked
      have hqNear := hpsNear q (hdropped q List.mem_cons_self)
      have hp := (List.mem_append.mp hp).resolve_left holder
      split at hp
      · next hahead =>
        have hlt := (olderThan_iff_rank hrNear hqNear).mp hahead
        obtain ⟨q', hq', hseq'⟩ := exists_of_mem_assignProtected hp
        have hqle : rank start q.seqNum ≤ rank start p.seqNum := by
          rw [← hseq']
          rcases List.mem_cons.mp hq' with rfl | hq'
          · exact le_refl _
          · exact (hq q' hq').le
        refine ih hranked hrs (fun x hx => hpsNear x (hdropped x hx)) hrsNear p hp r'
          ((List.mem_cons.mp hr').resolve_left ?_) hseq
        rintro rfl
        rw [hseq] at hlt
        omega
      · next hahead =>
        have hsame : q.seqNum = r.seqNum := by
          by_contra hne
          have hhead : aheadOf r.seqNum q.seqNum = false := by
            have hfirst := List.head?_dropWhile_not
              (fun p : MediaPacket => aheadOf r.seqNum p.seqNum) ps
            rw [hdrop] at hfirst
            simpa using hfirst
          exact hahead (by rw [aheadOf_total hne, hhead]; rfl)
        rcases List.mem_cons.mp hp with rfl | hp
        · rcases List.mem_cons.mp hr' with rfl | hr'
          · rfl
          · have hlt : rank start r.seqNum < rank start r'.seqNum := hr r' hr'
            have hseq : r'.seqNum = q.seqNum := hseq
            rw [hseq, hsame] at hlt
            exact absurd hlt (lt_irrefl _)
        · obtain ⟨q', hq', hseq'⟩ := exists_of_mem_assignProtected hp
          have hlt : rank start q.seqNum < rank start q'.seqNum := hq q' hq'
          rw [hseq', hsame] at hlt
          refine ih hrest hrs (fun x hx => hpsNear x (hdropped x (List.mem_cons_of_mem q hx)))
            hrsNear p hp r' ((List.mem_cons.mp hr').resolve_left ?_) hseq
          rintro rfl
          rw [hseq] at hlt
          exact lt_irrefl _ hlt

/-! ## A packet that comes in -/

variable {d : FecDecoder} {seqNum : U16} {isFec : Bool} {fecSsrc : U32}

/-- The bounds on the stores. -/
def Bounded (d : FecDecoder) : Prop :=
  d.recoveredMediaPackets.length ≤ kMaxTrackedMediaPackets ∧
    d.receivedFecPackets.length ≤ kMaxFecPackets

theorem length_discardOldReceivedFecPackets_le (fecs : List FecPacket) :
    (discardOldReceivedFecPackets fecs).length ≤ kMaxFecPackets := by
  unfold discardOldReceivedFecPackets
  rw [List.length_drop]
  omega

theorem bounded_reset (d : FecDecoder) : d.reset.Bounded := ⟨Nat.zero_le _, Nat.zero_le _⟩

theorem discardOutdatedFecPackets_eq (d : FecDecoder) (fecSsrc : U32) (seqNum : U16) :
    ∃ fecs, fecs.Sublist d.receivedFecPackets ∧
      d.discardOutdatedFecPackets fecSsrc seqNum = { d with receivedFecPackets := fecs } := by
  unfold discardOutdatedFecPackets
  split
  · exact ⟨d.receivedFecPackets, List.Sublist.refl _, rfl⟩
  · split
    · exact ⟨_, List.dropWhile_sublist _, rfl⟩
    · exact ⟨d.receivedFecPackets, List.Sublist.refl _, rfl⟩

theorem Bounded.insertFecPacket (h : d.Bounded) (fecSsrc : U32) (seqNum : U16) (pkt : List UInt8) :
    (d.insertFecPacket fecSsrc seqNum pkt).Bounded := by
  unfold FecDecoder.insertFecPacket
  split
  · exact h
  · split
    · exact h
    · exact ⟨h.1, length_discardOldReceivedFecPackets_le _⟩

theorem Bounded.insertMediaPacket (h : d.Bounded) (mediaSsrc : U32) (seqNum : U16)
    (pkt : List UInt8) : (d.insertMediaPacket mediaSsrc seqNum pkt).Bounded := by
  unfold FecDecoder.insertMediaPacket
  split
  · exact h
  · dsimp only [Bounded]
    rw [length_updateConveringFecPackets]
    exact ⟨length_discardOldRecoveredPackets_le _, h.2⟩

theorem Bounded.insertPacket (h : d.Bounded) (fecSsrc : U32) (seqNum : U16) (isFec : Bool)
    (pkt : List UInt8) : (d.insertPacket fecSsrc seqNum isFec pkt).Bounded := by
  obtain ⟨fecs, hsub, heq⟩ := discardOutdatedFecPackets_eq d fecSsrc seqNum
  have hbounded : Bounded { d with receivedFecPackets := fecs } :=
    ⟨h.1, hsub.length_le.trans h.2⟩
  unfold FecDecoder.insertPacket
  rw [heq]
  cases isFec with
  | true => exact hbounded.insertFecPacket fecSsrc seqNum pkt
  | false => exact hbounded.insertMediaPacket fecSsrc seqNum pkt

/-- The decoder before it tries to recover packets. -/
def inserted (d : FecDecoder) (fecSsrc : U32) (seqNum : U16) (isFec : Bool) (pkt : List UInt8) :
    FecDecoder :=
  (if d.hasBigGap fecSsrc seqNum then d.reset else d).insertPacket fecSsrc seqNum isFec pkt

theorem decode_eq (d : FecDecoder) (fecSsrc : U32) (seqNum : U16) (isFec : Bool)
    (pkt : List UInt8) :
    d.decode fecSsrc seqNum isFec pkt =
      let d := d.inserted fecSsrc seqNum isFec pkt
      let r := tryToRecover (d.receivedFecPackets.length + 1) d.recoveredMediaPackets
        d.receivedFecPackets
      ({ d with recoveredMediaPackets := r.1, receivedFecPackets := r.2.1 }, r.2.2) := rfl

theorem Bounded.inserted (h : d.Bounded) (fecSsrc : U32) (seqNum : U16) (isFec : Bool)
    (pkt : List UInt8) : (d.inserted fecSsrc seqNum isFec pkt).Bounded := by
  unfold FecDecoder.inserted
  split
  · exact (bounded_reset d).insertPacket fecSsrc seqNum isFec pkt
  · exact h.insertPacket fecSsrc seqNum isFec pkt

theorem Bounded.decode (h : d.Bounded) (fecSsrc : U32) (seqNum : U16) (isFec : Bool)
    (pkt : List UInt8) : (d.decode fecSsrc seqNum isFec pkt).1.Bounded := by
  have hinserted := h.inserted fecSsrc seqNum isFec pkt
  rw [decode_eq]
  generalize d.inserted fecSsrc seqNum isFec pkt = d' at hinserted
  obtain ⟨hstore, hfecs⟩ := length_tryToRecover (d'.receivedFecPackets.length + 1)
    d'.recoveredMediaPackets d'.receivedFecPackets
  exact ⟨hstore hinserted.1, hfecs.trans hinserted.2⟩

/-! ## Packets that are near what is stored -/

/-- The numbers that a packet brings: its own, or those that it protects. -/
def arrivingNumbers (seqNum : U16) (isFec : Bool) (pkt : List UInt8) : List U16 :=
  if isFec then
    match readFecHeader pkt with
    | none => []
    | some (header, pkt) => (protectedMediaPackets 0 header pkt).map MediaPacket.seqNum
  else [seqNum]

/-- The decoder after it discarded what a packet outdates. -/
def settled (d : FecDecoder) (fecSsrc : U32) (seqNum : U16) : FecDecoder :=
  (if d.hasBigGap fecSsrc seqNum then d.reset else d).discardOutdatedFecPackets fecSsrc seqNum

theorem inserted_eq (d : FecDecoder) (fecSsrc : U32) (seqNum : U16) (isFec : Bool)
    (pkt : List UInt8) :
    d.inserted fecSsrc seqNum isFec pkt =
      if isFec then (d.settled fecSsrc seqNum).insertFecPacket fecSsrc seqNum pkt
      else (d.settled fecSsrc seqNum).insertMediaPacket fecSsrc seqNum pkt := rfl

/-- The numbers that are stored, or protected by what is stored. -/
def numbers (d : FecDecoder) : List U16 :=
  storedNumbers d.recoveredMediaPackets d.receivedFecPackets

/-- `Kept`, of a decoder. -/
def KeptBy (d : FecDecoder) : Prop := Kept d.recoveredMediaPackets d.receivedFecPackets

theorem kept_nil : Kept [] [] := ⟨List.Pairwise.nil, by simp, by simp⟩

theorem KeptBy.settled (h : d.KeptBy) (fecSsrc : U32) (seqNum : U16) :
    (d.settled fecSsrc seqNum).KeptBy := by
  have hreset : KeptBy (if d.hasBigGap fecSsrc seqNum then d.reset else d) := by
    split
    · exact kept_nil
    · exact h
  unfold FecDecoder.settled
  obtain ⟨fecs, hsub, heq⟩ := discardOutdatedFecPackets_eq
    (if d.hasBigGap fecSsrc seqNum then d.reset else d) fecSsrc seqNum
  rw [heq]
  exact Kept.sublist hreset (List.Sublist.refl _) hsub

theorem map_seqNum_namedPackets (ssrc ssrc' : U32) (header : FecHeader) (pkt : List UInt8)
    (n : Nat) : (namedPackets ssrc header pkt n).map MediaPacket.seqNum =
      (namedPackets ssrc' header pkt n).map MediaPacket.seqNum := by
  unfold namedPackets
  rw [List.map_map, List.map_map]
  rfl

theorem readFecPacket_spec (h : d.readFecPacket fecSsrc seqNum pkt = some f) :
    ∃ packets, Sorted MediaPacket.seqNum packets ∧
      packets.map MediaPacket.seqNum = arrivingNumbers seqNum true pkt ∧
      f.protectedMediaPackets = assignProtected packets d.recoveredMediaPackets := by
  unfold readFecPacket at h
  split at h
  · cases h
  · next header pkt' hheader =>
    have hsize := readFecHeader_packetMaskSize hheader
    have hpackets : ∀ ssrc, protectedMediaPackets ssrc header pkt' =
        namedPackets ssrc header pkt' (8 * header.packetMaskSize) := fun ssrc =>
      protectedMediaPackets_eq (by omega)
    split at h
    · cases h
    · split at h
      · cases h
      · dsimp only at h
        split at h
        · cases h
        · obtain rfl := Option.some.inj h
          refine ⟨protectedMediaPackets d.protectedMediaSsrc header pkt', ?_, ?_, rfl⟩
          · rw [hpackets]
            exact sorted_namedPackets (by omega)
          · unfold arrivingNumbers
            rw [if_pos rfl, hheader]
            dsimp only
            rw [hpackets, hpackets, map_seqNum_namedPackets]

theorem KeptBy.insertFecPacket (h : d.KeptBy)
    (hnear : Near (d.numbers ++ arrivingNumbers seqNum true pkt)) :
    (d.insertFecPacket fecSsrc seqNum pkt).KeptBy ∧
      Near (d.insertFecPacket fecSsrc seqNum pkt).numbers := by
  have hnumbers := hnear.subset (List.subset_append_left _ _)
  unfold FecDecoder.insertFecPacket
  split
  · exact ⟨h, hnumbers⟩
  · split
    · exact ⟨h, hnumbers⟩
    · next f hf =>
      obtain ⟨packets, hsorted, harriving, hassigned⟩ := readFecPacket_spec hf
      obtain ⟨start, hstart⟩ := hnear
      have hfecs : ∀ f' ∈ discardOldReceivedFecPackets
          (assignBy olderThan FecPacket.seqNum f d.receivedFecPackets),
          f' = f ∨ f' ∈ d.receivedFecPackets := fun f' hf' =>
        mem_assignBy ((List.drop_sublist _ _).subset hf')
      have hstored : ∀ r ∈ d.recoveredMediaPackets, rank start r.seqNum < 2 ^ 15 := fun r hr =>
        hstart _ (List.mem_append_left _ (List.mem_append_left _ (List.mem_map_of_mem hr)))
      have hpackets : ∀ p ∈ packets, rank start p.seqNum < 2 ^ 15 := fun p hp =>
        hstart _ (List.mem_append_right _ (harriving ▸ List.mem_map_of_mem hp))
      have hspec := assignProtected_spec ((sorted_iff_ranked hpackets).mp hsorted)
        ((sorted_iff_ranked hstored).mp h.sorted) hpackets hstored
      refine ⟨⟨h.sorted, h.nonempty, fun f' hf' p hp r hr hseq => ?_⟩, start, fun n hn => ?_⟩
      · rcases hfecs f' hf' with rfl | hf'
        · rw [hassigned] at hp
          rw [hspec p hp r hr hseq]
          exact h.nonempty r hr
        · exact h.known f' hf' p hp r hr hseq
      · rcases List.mem_append.mp hn with hn | hn
        · exact hstart n (List.mem_append_left _ (List.mem_append_left _ hn))
        · obtain ⟨f', hf', hnum⟩ := List.mem_flatMap.mp hn
          rcases hfecs f' hf' with heq | hf'
          · rw [heq, hassigned, map_seqNum_assignProtected, harriving] at hnum
            exact hstart n (List.mem_append_right _ hnum)
          · exact hstart n (List.mem_append_left _
              (List.mem_append_right _ (List.mem_flatMap.mpr ⟨f', hf', hnum⟩)))

theorem KeptBy.insertMediaPacket (h : d.KeptBy) (hne : pkt ≠ [])
    (hnear : Near (d.numbers ++ arrivingNumbers seqNum false pkt)) :
    (d.insertMediaPacket fecSsrc seqNum pkt).KeptBy ∧
      Near (d.insertMediaPacket fecSsrc seqNum pkt).numbers := by
  unfold FecDecoder.insertMediaPacket
  split
  · exact ⟨h, hnear.subset (List.subset_append_left _ _)⟩
  · next hany =>
    have hnew : ∀ r ∈ d.recoveredMediaPackets, r.seqNum ≠ seqNum := fun r hr heq =>
      hany (List.any_eq_true.mpr ⟨r, hr, by simpa using heq⟩)
    generalize hpacket : RecoveredMediaPacket.mk ⟨fecSsrc, seqNum, pkt⟩ false = packet
    have hseq : packet.seqNum = seqNum := by rw [← hpacket]
    have hpkt : packet.pkt ≠ [] := by rw [← hpacket]; exact hne
    have hnear' : Near (packet.seqNum :: d.numbers) := by
      refine hnear.subset (List.cons_subset.mpr ⟨?_, List.subset_append_left _ _⟩)
      rw [hseq]
      exact List.mem_append_right _ (List.mem_singleton_self _)
    have hassign : assignBy olderThan (fun r => r.seqNum) packet d.recoveredMediaPackets =
        insertBy olderThan (fun r => r.seqNum) packet d.recoveredMediaPackets :=
      assignBy_eq_insertBy fun r hr => olderThan_of_ne (by rw [hseq]; exact hnew r hr)
    have hkept := (Kept.insert h hpkt hnear').sublist
      (discardOldRecoveredPackets_sublist _) (List.Sublist.refl _)
    refine ⟨?_, hnear'.subset fun n hn => ?_⟩
    · unfold KeptBy
      dsimp only
      rw [hassign]
      exact hkept
    · dsimp only [numbers] at hn
      rcases List.mem_append.mp hn with hn | hn
      · obtain ⟨r, hr, rfl⟩ := List.mem_map.mp hn
        rcases mem_assignBy ((discardOldRecoveredPackets_sublist _).subset hr) with rfl | hr
        · exact List.mem_cons_self
        · exact List.mem_cons_of_mem _ (List.mem_append_left _ (List.mem_map_of_mem hr))
      · obtain ⟨f', hf', hn⟩ := List.mem_flatMap.mp hn
        obtain ⟨p', hp', rfl⟩ := List.mem_map.mp hn
        obtain ⟨f, hf, p, hp, hnum, -⟩ := mem_updateConveringFecPackets hf' hp'
        rw [hnum]
        exact List.mem_cons_of_mem _ (mem_storedNumbers_of_fec hf hp)

/-- The numbers that are stored or arrive are near, and a media packet has an RTP header. -/
def Admissible (d : FecDecoder) (c : DecodeCall) : Prop :=
  Near ((d.settled d.fecSsrc c.seqNum).numbers ++ arrivingNumbers c.seqNum c.isFec c.pkt) ∧
    (c.isFec = false → kRtpHeaderSize ≤ c.pkt.length)

theorem KeptBy.step {c : DecodeCall} (h : d.KeptBy) (hbounded : d.Bounded)
    (hc : d.Admissible c) :
    (fecDecoderMachine.step d c).1.KeptBy ∧ ∀ e ∈ (fecDecoderMachine.step d c).2, e.Sound := by
  obtain ⟨seqNum, isFec, pkt⟩ := c
  obtain ⟨hnear, hlen⟩ := hc
  have hsettled := h.settled d.fecSsrc seqNum
  have hinserted : (d.inserted d.fecSsrc seqNum isFec pkt).KeptBy ∧
      Near (d.inserted d.fecSsrc seqNum isFec pkt).numbers := by
    rw [inserted_eq]
    cases isFec with
    | true => exact hsettled.insertFecPacket hnear
    | false =>
      refine hsettled.insertMediaPacket (List.ne_nil_of_length_pos ?_) hnear
      exact Nat.lt_of_lt_of_le (by decide) (hlen rfl)
  show (d.decode d.fecSsrc seqNum isFec pkt).1.KeptBy ∧
    ∀ e ∈ (d.decode d.fecSsrc seqNum isFec pkt).2, e.Sound
  rw [decode_eq]
  exact kept_tryToRecover _ _ _ hinserted.1 hinserted.2
    (hbounded.inserted d.fecSsrc seqNum isFec pkt).1

/-! ## Runs -/

/-- **The stores of the decoder**: over any run they keep their bounds, and while what arrives is
near, no packet is handed to the callback whose number was stored before, and a packet is lost
before that only as the oldest one of a full store. -/
theorem decoder_stores (ssrc : U32) (calls : List DecodeCall) :
    (fecDecoderMachine.final (createUlpFecDecoder ssrc) calls).Bounded ∧
      (fecDecoderMachine.AllGood Admissible (createUlpFecDecoder ssrc) calls →
        ∀ entry ∈ fecDecoderMachine.log (createUlpFecDecoder ssrc) calls,
          ∀ e ∈ entry.2, (∀ r ∈ e.before, r.seqNum ≠ e.packet.seqNum) ∧
            (e.before.length < kMaxTrackedMediaPackets ∨
              (∃ r ∈ e.before, olderThan r.seqNum e.packet.seqNum = true) →
                e.packet ∈ e.store)) := by
  have hbounded : (createUlpFecDecoder ssrc).Bounded := ⟨Nat.zero_le _, Nat.zero_le _⟩
  constructor
  · refine fecDecoderMachine.invariant_of_step Bounded (fun d c hd => ?_) hbounded calls
    exact hd.decode d.fecSsrc c.seqNum c.isFec c.pkt
  · intro hadmissible
    have hcreate : KeptBy (createUlpFecDecoder ssrc) := kept_nil
    refine (fecDecoderMachine.invariant_log (h := [])
      (P := fun log d => (d.KeptBy ∧ d.Bounded) ∧ ∀ entry ∈ log, ∀ e ∈ entry.2, e.Sound)
      (fun log d c hP hc => ?_) ⟨⟨hcreate, hbounded⟩, by simp⟩ hadmissible).2
    obtain ⟨⟨hkept, hbounded⟩, hlog⟩ := hP
    obtain ⟨hkept', hcalls⟩ := hkept.step hbounded hc
    refine ⟨⟨hkept', hbounded.decode d.fecSsrc c.seqNum c.isFec c.pkt⟩, fun entry hentry => ?_⟩
    rcases List.mem_append.mp hentry with hentry | hentry
    · exact hlog entry hentry
    · obtain rfl := List.mem_singleton.mp hentry
      exact hcalls

/-- **Nothing that can be recovered is left**: over any run, each FEC packet that is kept lacks more
than one packet and is not old, and while what arrives is near, none that it lacks is stored. -/
theorem nothing_left_to_recover (ssrc : U32) (calls : List DecodeCall) :
    let d := fecDecoderMachine.final (createUlpFecDecoder ssrc) calls
    (∀ f ∈ d.receivedFecPackets, Pending d.recoveredMediaPackets f) ∧
      (fecDecoderMachine.AllGood Admissible (createUlpFecDecoder ssrc) calls →
        ∀ f ∈ d.receivedFecPackets, ∀ p ∈ f.protectedMediaPackets, p.pkt = [] →
          ∀ r ∈ d.recoveredMediaPackets, r.seqNum ≠ p.seqNum) := by
  constructor
  · refine fecDecoderMachine.invariant_of_step
      (fun d => ∀ f ∈ d.receivedFecPackets, Pending d.recoveredMediaPackets f) (fun d c _ => ?_)
      (by simp [createUlpFecDecoder]) calls
    show ∀ f ∈ (d.decode d.fecSsrc c.seqNum c.isFec c.pkt).1.receivedFecPackets, _
    rw [decode_eq]
    exact pending_tryToRecover (Nat.lt_succ_self _)
  · intro hadmissible
    have hcreate : KeptBy (createUlpFecDecoder ssrc) := kept_nil
    have hkept := fecDecoderMachine.invariant_final (P := fun d => d.KeptBy ∧ d.Bounded)
      (fun d c hd hc => ⟨(KeptBy.step hd.1 hd.2 hc).1,
        hd.2.decode d.fecSsrc c.seqNum c.isFec c.pkt⟩)
      ⟨hcreate, Nat.zero_le _, Nat.zero_le _⟩ hadmissible
    intro f hf p hp hlacks r hr hseq
    exact hkept.1.known f hf p hp r hr hseq hlacks

/-- Media packets that follow each other. -/
def consecutiveMedia (n : Nat) : List DecodeCall :=
  (List.range n).map fun i => ⟨BitVec.ofNat 16 i, false, List.replicate kRtpHeaderSize 0⟩

/-- **More than 48 media packets are kept**: the window is four times as large. -/
theorem tracked_beyond_fortyEight :
    kUlpFecMaxMediaPackets < (fecDecoderMachine.final (createUlpFecDecoder 1)
      (consecutiveMedia 49)).recoveredMediaPackets.length := by
  decide +kernel

/-- A media packet. -/
def mediaCall : DecodeCall := ⟨1, false, [0x80, 96, 0, 1, 0, 0, 0, 1, 0, 0, 0, 1, 7]⟩

/-- An FEC packet that protects it and the next one. -/
def fecCall : DecodeCall := ⟨3, true, [0, 0, 0, 1, 0, 0, 0, 0, 0, 0, 0, 1, 0xC0, 0, 14]⟩

theorem near_of_all {numbers : List U16} (start : U16)
    (h : (numbers.all fun n => rank start n < 2 ^ 15) = true) : Near numbers :=
  ⟨start, fun n hn => by simpa using List.all_eq_true.mp h n hn⟩

theorem admissible_mediaCall : Admissible (createUlpFecDecoder 1) mediaCall :=
  ⟨near_of_all 1 (by decide +kernel), by decide⟩

theorem admissible_fecCall :
    Admissible (fecDecoderMachine.step (createUlpFecDecoder 1) mediaCall).1 fecCall := by
  refine ⟨near_of_all 1 ?_, fun h => Bool.noConfusion h⟩
  decide +kernel

/-- The next one is recovered, and was not there. -/
theorem decoder_stores_next :
    (fecDecoderMachine.log (createUlpFecDecoder 1) [mediaCall, fecCall]).flatMap
        (fun entry => entry.2.map fun e => e.packet.pkt) =
      [[0x80, 96, 0, 2, 0, 0, 0, 1, 0, 0, 0, 1, 9]] ∧
    ∀ entry ∈ fecDecoderMachine.log (createUlpFecDecoder 1) [mediaCall, fecCall],
      ∀ e ∈ entry.2, (∀ r ∈ e.before, r.seqNum ≠ e.packet.seqNum) ∧
        (e.before.length < kMaxTrackedMediaPackets ∨
          (∃ r ∈ e.before, olderThan r.seqNum e.packet.seqNum = true) → e.packet ∈ e.store) :=
  ⟨by decide +kernel, (decoder_stores 1 [mediaCall, fecCall]).2
    ⟨admissible_mediaCall, admissible_fecCall, trivial⟩⟩

/-- An FEC packet whose packets are both missing stays. -/
theorem nothing_left_to_recover_pair :
    let d := fecDecoderMachine.final (createUlpFecDecoder 1) [fecCall]
    d.receivedFecPackets.length = 1 ∧
      ∀ f ∈ d.receivedFecPackets, ∀ p ∈ f.protectedMediaPackets, p.pkt = [] →
        ∀ r ∈ d.recoveredMediaPackets, r.seqNum ≠ p.seqNum := by
  have hfec : Admissible (createUlpFecDecoder 1) fecCall :=
    ⟨near_of_all 1 (by decide +kernel), fun h => Bool.noConfusion h⟩
  exact ⟨by decide +kernel, (nothing_left_to_recover 1 [fecCall]).2 ⟨hfec, trivial⟩⟩

end FecDecoder

end NaiveRtc.Fec
