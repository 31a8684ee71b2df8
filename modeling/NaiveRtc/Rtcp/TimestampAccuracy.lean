import NaiveRtc.Rtcp.TransportFeedbackConsistency
import Mathlib.Algebra.Order.BigOperators.Group.List

/-!
# The times of a transport feedback do not drift

A feedback stores the time from one packet to the next in ticks of 250 µs, rounded.  A reader
adds the deltas up, so that the errors of rounding could add up too.  They do not: each delta is
rounded from the time the deltas before it add up to, and makes up for their error.

* `deltaOf_near` — one delta leads to within half a tick of the time given, up to the wrap.
* `accepted`, `OnTime` — the calls that were accepted, and the times read for their packets.
* `times_do_not_drift` — every packet of every run is within half a tick of its time.
-/

namespace NaiveRtc.Rtcp

namespace TransportFeedback

/-! ## One delta -/

/-- Two times in microseconds are at most half a tick apart, up to the wrap of the clock. -/
def Near (timeUs timestampUs : Int) : Prop :=
  ∃ wraps : Int, (timeUs - timestampUs - wraps * kTimeWrapPeriodUs).natAbs ≤ 125

theorem tick_near (us : Int) :
    ((us + if us < 0 then -(kDeltaScaleFactor.tdiv 2) else kDeltaScaleFactor.tdiv 2).tdiv
      kDeltaScaleFactor * kDeltaScaleFactor - us).natAbs ≤ 125 := by
  have hhalf : kDeltaScaleFactor.tdiv 2 = 125 := rfl
  rw [hhalf, show kDeltaScaleFactor = 250 from rfl]
  by_cases hneg : us < 0
  · rw [if_pos hneg]
    have hopp : (us + -125).tdiv 250 = -((125 - us) / 250) := by
      rw [← Int.tdiv_eq_ediv_of_nonneg (by omega), ← Int.neg_tdiv]
      congr 1
      omega
    rw [hopp]
    omega
  · rw [if_neg hneg, Int.tdiv_eq_ediv_of_nonneg (by omega)]
    omega

theorem tmod_period (us : Int) :
    ∃ wraps : Int, us.tmod kTimeWrapPeriodUs = us - wraps * kTimeWrapPeriodUs ∧
      (us.tmod kTimeWrapPeriodUs).natAbs < 1073741824000 ∧
      (us < 0 → us.tmod kTimeWrapPeriodUs ≤ 0) ∧ (0 ≤ us → 0 ≤ us.tmod kTimeWrapPeriodUs) := by
  have hperiod : kTimeWrapPeriodUs = 1073741824000 := by decide
  refine ⟨us.tdiv kTimeWrapPeriodUs, ?_, ?_, ?_, ?_⟩
  · rw [Int.tmod_def, Int.mul_comm]
  · rw [Int.natAbs_tmod, hperiod]
    exact Nat.mod_lt _ (by decide)
  · intro hneg
    have hopp := Int.tmod_nonneg (a := -us) kTimeWrapPeriodUs (by omega)
    rw [Int.neg_tmod] at hopp
    omega
  · exact fun hnonneg => Int.tmod_nonneg _ hnonneg

variable {f g : TransportFeedback}

theorem deltaFull_near {timestampUs : Int} (hlow : -2 ^ 63 ≤ timestampUs - f.lastTimestampUs)
    (hhigh : timestampUs - f.lastTimestampUs < 2 ^ 63) :
    Near (f.lastTimestampUs + f.deltaFull timestampUs * kDeltaScaleFactor) timestampUs := by
  unfold deltaFull
  rw [Int.bmod_eq_of_le (by omega) (by omega)]
  obtain ⟨wraps, hwraps, -⟩ := tmod_period (timestampUs - f.lastTimestampUs)
  dsimp only
  generalize (timestampUs - f.lastTimestampUs).tmod kTimeWrapPeriodUs = us at hwraps ⊢
  by_cases hhalf : us > kTimeWrapPeriodUs.tdiv 2
  · rw [if_pos hhalf]
    have hround := tick_near (us - kTimeWrapPeriodUs)
    generalize Int.tdiv _ kDeltaScaleFactor = ticks at hround ⊢
    refine ⟨-(wraps + 1), ?_⟩
    rw [Int.neg_mul, Int.add_mul, Int.one_mul]
    omega
  · rw [if_neg hhalf]
    have hround := tick_near us
    generalize Int.tdiv _ kDeltaScaleFactor = ticks at hround ⊢
    refine ⟨-wraps, ?_⟩
    rw [Int.neg_mul]
    omega

/-- A difference that does not fit into 64 bits, of a timestamp near the end of the range and a
time that went below zero, is far too large for a delta. -/
theorem deltaFull_overflow {timestampUs : Int} (hlow : 2 ^ 63 ≤ timestampUs - f.lastTimestampUs)
    (hhigh : timestampUs - f.lastTimestampUs ≤ 2 ^ 63 + 65535 * 8192000) :
    f.deltaFull timestampUs < -2 ^ 15 := by
  have hperiod : kTimeWrapPeriodUs = 1073741824000 := by decide
  unfold deltaFull
  have hwrapped : (timestampUs - f.lastTimestampUs).bmod (2 ^ 64) =
      timestampUs - f.lastTimestampUs - 2 ^ 64 := by
    rw [← Int.sub_bmod_right, Int.bmod_eq_of_le (by omega) (by omega)]
    rfl
  rw [hwrapped]
  obtain ⟨wraps, hwraps, hsmall, hsign, -⟩ :=
    tmod_period (timestampUs - f.lastTimestampUs - 2 ^ 64)
  specialize hsign (by omega)
  dsimp only
  generalize (timestampUs - f.lastTimestampUs - 2 ^ 64).tmod kTimeWrapPeriodUs = us
    at hwraps hsmall hsign ⊢
  rw [hperiod] at hwraps
  -- `2 ^ 63` lies 635655159808 after a whole number of periods
  have hfar : us ≤ -98792439808 := by omega
  have hhalf : ¬ us > kTimeWrapPeriodUs.tdiv 2 := by
    rw [hperiod, Int.tdiv_eq_ediv_of_nonneg (by decide)]
    omega
  rw [if_neg hhalf]
  have hround := tick_near us
  generalize Int.tdiv _ kDeltaScaleFactor = ticks at hround ⊢
  rw [show kDeltaScaleFactor = 250 from rfl] at hround
  omega

theorem deltaOf_near {timestampUs delta : Int} (htime : f.includeTimestamps = true)
    (hdelta : f.deltaOf timestampUs = some delta) (hlow : 0 ≤ timestampUs)
    (hhigh : timestampUs < 2 ^ 63) (hlast : -(65535 * 8192000) ≤ f.lastTimestampUs)
    (hlast' : f.lastTimestampUs ≤ 2 ^ 63) :
    Near (f.lastTimestampUs + delta * kDeltaScaleFactor) timestampUs := by
  unfold deltaOf at hdelta
  rw [if_pos htime] at hdelta
  dsimp only at hdelta
  split_ifs at hdelta with hfit
  obtain rfl : f.deltaFull timestampUs = delta :=
    (not_not.1 hfit).symm.trans (Option.some.inj hdelta)
  by_cases hoverflow : timestampUs - f.lastTimestampUs < 2 ^ 63
  · exact deltaFull_near (by omega) hoverflow
  · have hfar := deltaFull_overflow (f := f) (not_lt.1 hoverflow) (by omega)
    have hrange : -(2 ^ 16 : Int) / 2 ≤ (f.deltaFull timestampUs).bmod (2 ^ 16) :=
      Int.le_bmod (by decide)
    omega

/-! ## Runs -/

/-- The calls of a run that returned true. -/
def accepted (f : TransportFeedback) : List (U16 × Int) → List (U16 × Int)
  | [] => []
  | call :: calls =>
    let (ok, g) := f.addReceivedPacket call.1 call.2
    if ok then call :: accepted g calls else accepted g calls

/-- The packets listed are those of the calls accepted, and the time read for each, the base
time with the deltas up to its own, is near the time it was given with. -/
structure OnTime (f : TransportFeedback) (calls : List (U16 × Int)) : Prop where
  numbers : f.receivedPackets.map (·.sequenceNumber) = calls.map (·.1)
  near : ∀ i, (hi : i < calls.length) →
    Near (f.getBaseTimeUs + ((f.receivedPackets.take (i + 1)).map deltaUs).sum) calls[i].2

theorem OnTime.length (h : OnTime f calls) : f.receivedPackets.length = calls.length := by
  simpa using congrArg List.length h.numbers

theorem OnTime.same (h : OnTime f calls) (hpackets : g.receivedPackets = f.receivedPackets)
    (hbase : g.getBaseTimeUs = f.getBaseTimeUs) : OnTime g calls := by
  refine ⟨?_, fun i hi => ?_⟩
  · rw [hpackets]
    exact h.numbers
  · rw [hpackets, hbase]
    exact h.near i hi

theorem OnTime.snoc {calls : List (U16 × Int)} (h : OnTime f calls) {call : U16 × Int}
    {delta : Int} (hpackets : g.receivedPackets = f.receivedPackets ++ [⟨call.1, some delta⟩])
    (hbase : g.getBaseTimeUs = f.getBaseTimeUs)
    (hnear : Near (g.getBaseTimeUs + (g.receivedPackets.map deltaUs).sum) call.2) :
    OnTime g (calls ++ [call]) := by
  have hlen := h.length
  have hlen' : g.receivedPackets.length = calls.length + 1 := by
    rw [hpackets, List.length_append, hlen, List.length_singleton]
  refine ⟨?_, fun i hi => ?_⟩
  · rw [hpackets, List.map_append, h.numbers, List.map_append]
    rfl
  · rw [List.length_append, List.length_singleton] at hi
    by_cases hlast : i = calls.length
    · subst hlast
      rw [List.take_of_length_le hlen'.le]
      simpa using hnear
    · have hold : i < calls.length := by omega
      rw [hpackets, hbase, List.take_append_of_le_length (by omega), List.getElem_append_left hold]
      exact h.near i hold

theorem addMissing_receivedPackets (seq : U16) (gap : Nat) :
    (f.addMissing seq gap).2.receivedPackets = f.receivedPackets := by
  induction gap generalizing f seq with
  | zero => rfl
  | succ gap ih =>
    unfold addMissing
    cases hadd : f.addDeltaSize 0 with
    | none => rfl
    | some g => exact (ih (seq + 1)).trans (addDeltaSize_sizes hadd).1.receivedPackets

theorem addReceivedPacket_receivedPackets (seq : U16) (timestampUs : Int) :
    ((f.addReceivedPacket seq timestampUs).1 = false ∧
      (f.addReceivedPacket seq timestampUs).2.receivedPackets = f.receivedPackets) ∨
    ((f.addReceivedPacket seq timestampUs).1 = true ∧
      ∃ delta, f.deltaOf timestampUs = some delta ∧
        (f.addReceivedPacket seq timestampUs).2.receivedPackets =
          f.receivedPackets ++ [⟨seq, some delta⟩]) := by
  unfold addReceivedPacket
  cases hdelta : f.deltaOf timestampUs with
  | none => exact .inl ⟨rfl, rfl⟩
  | some delta =>
    dsimp only
    by_cases horder : seq ≠ f.nextSeqNo ∧ WrapAround.aheadOf seq (f.nextSeqNo - 1) = false
    · rw [if_pos horder]
      exact .inl ⟨rfl, rfl⟩
    · rw [if_neg horder]
      have hkept := addMissing_receivedPackets (f := f) f.nextSeqNo (seq - f.nextSeqNo).toNat
      generalize f.addMissing f.nextSeqNo (seq - f.nextSeqNo).toNat = result at hkept
      obtain ⟨ok, g⟩ := result
      cases ok with
      | false => exact .inl ⟨rfl, hkept⟩
      | true =>
        dsimp only
        cases hadd : g.addDeltaSize (deltaSizeOf delta) with
        | none => exact .inl ⟨rfl, hkept⟩
        | some g' =>
          refine .inr ⟨rfl, delta, rfl, ?_⟩
          show g'.receivedPackets ++ _ = _
          rw [(addDeltaSize_sizes hadd).1.receivedPackets]
          exact congrArg (· ++ [(⟨seq, some delta⟩ : ReceivedPacket)]) hkept

variable {report : List (Option Int)}

theorem mem_listing {seq : U16} {p : ReceivedPacket} (h : p ∈ listing seq report) :
    p.deltaTicks ∈ report := by
  induction report generalizing seq with
  | nil => exact absurd h List.not_mem_nil
  | cons status report ih =>
    rcases List.mem_cons.1 h with rfl | h
    · exact List.mem_cons_self
    · exact List.mem_cons_of_mem _ (ih h)

theorem length_listing (seq : U16) (report : List (Option Int)) :
    (listing seq report).length = report.length := by
  induction report generalizing seq with
  | nil => rfl
  | cons status report ih => simp [listing, ih]

/-- The deltas of a feedback, at most 65535 of at most 2 ^ 15 ticks, lead no further than nine
minutes from its base time. -/
theorem sum_deltas_le (h : Describes f report) :
    -(65535 * 8192000) ≤ (f.receivedPackets.map deltaUs).sum ∧
      (f.receivedPackets.map deltaUs).sum ≤ 65535 * 8192000 := by
  have hcount : (f.receivedPackets.map deltaUs).length ≤ 65535 := by
    rw [List.length_map, h.received]
    refine (List.length_filter_le _ _).trans ?_
    rw [length_listing]
    exact h.count_le
  have hdelta : ∀ us ∈ f.receivedPackets.map deltaUs, -8192000 ≤ us ∧ us ≤ 8192000 := by
    intro us hus
    obtain ⟨p, hp, rfl⟩ := List.mem_map.1 hus
    rw [h.received, List.mem_filter] at hp
    obtain ⟨delta, hticks⟩ := Option.isSome_iff_exists.1 hp.2
    obtain ⟨hlow, hhigh, -⟩ := h.deltas delta (hticks ▸ mem_listing hp.1)
    unfold deltaUs
    rw [hticks, Option.getD_some, show kDeltaScaleFactor = 250 from rfl]
    omega
  have hlow := List.card_nsmul_le_sum _ _ fun us hus => (hdelta us hus).1
  have hhigh := List.sum_le_card_nsmul _ _ fun us hus => (hdelta us hus).2
  rw [Int.nsmul_eq_mul] at hlow hhigh
  omega

/-- What every state of a run satisfies, after the calls that were accepted so far. -/
structure Running (f : TransportFeedback) (calls : List (U16 × Int)) : Prop where
  describes : ∃ report, Describes f report
  sound : ∃ sizes, Sound f sizes
  timestamps : f.includeTimestamps = true
  base : 0 ≤ f.getBaseTimeUs ∧ f.getBaseTimeUs < kTimeWrapPeriodUs
  onTime : OnTime f calls

theorem Running.step {calls : List (U16 × Int)} (h : Running f calls) {call : U16 × Int}
    (hlow : 0 ≤ call.2) (hhigh : call.2 < 2 ^ 63) :
    Running (f.addReceivedPacket call.1 call.2).2
      (if (f.addReceivedPacket call.1 call.2).1 then calls ++ [call] else calls) := by
  obtain ⟨⟨report, hdescribes⟩, ⟨sizes, hsound⟩, htimestamps, hbase, hontime⟩ := h
  obtain ⟨more, hdescribes', hsame, -⟩ := describes_addReceivedPacket hdescribes call.1 call.2
  obtain ⟨sizes', hsound', -⟩ := hsound.addReceivedPacket call.1 call.2
  have hperiod : kTimeWrapPeriodUs = 1073741824000 := by decide
  have hsum := sum_deltas_le hdescribes
  have htime := hsound.time
  have hlists := addReceivedPacket_receivedPackets (f := f) call.1 call.2
  generalize f.addReceivedPacket call.1 call.2 = result at *
  obtain ⟨ok, g⟩ := result
  dsimp only at *
  have hbase' : g.getBaseTimeUs = f.getBaseTimeUs := by
    unfold getBaseTimeUs
    rw [hsame.referenceTime]
  refine ⟨⟨_, hdescribes'⟩, ⟨sizes', hsound'⟩, hsame.includeTimestamps.trans htimestamps,
    by rw [hbase']; exact hbase, ?_⟩
  rcases hlists with ⟨rfl, hpackets⟩ | ⟨rfl, delta, hdelta, hpackets⟩
  · exact hontime.same hpackets hbase'
  · refine hontime.snoc hpackets hbase' ?_
    have hnear := deltaOf_near htimestamps hdelta hlow hhigh (by omega) (by omega)
    have hall : g.getBaseTimeUs + (g.receivedPackets.map deltaUs).sum =
        f.lastTimestampUs + delta * kDeltaScaleFactor := by
      rw [hbase', hpackets, htime, List.map_append, List.sum_append, ← Int.add_assoc]
      simp [deltaUs]
    rw [hall]
    exact hnear

theorem Running.addAll {done : List (U16 × Int)} (h : Running f done) (calls : List (U16 × Int))
    (hcalls : ∀ call ∈ calls, 0 ≤ call.2 ∧ call.2 < 2 ^ 63) :
    Running (f.addAll calls).2 (done ++ f.accepted calls) := by
  induction calls generalizing f done with
  | nil => simpa [TransportFeedback.addAll, accepted] using h
  | cons call calls ih =>
    obtain ⟨hlow, hhigh⟩ := hcalls call List.mem_cons_self
    have hnext := ih (h.step hlow hhigh) fun c hc => hcalls c (List.mem_cons_of_mem _ hc)
    have haccepted : done ++ f.accepted (call :: calls) =
        (if (f.addReceivedPacket call.1 call.2).1 then done ++ [call] else done) ++
          (f.addReceivedPacket call.1 call.2).2.accepted calls := by
      rw [accepted]
      dsimp only
      split_ifs
      · exact (List.append_cons ..)
      · rfl
    rw [haccepted]
    exact hnext

theorem running_setBase (includeLost : Bool) (baseSequence : U16) {refTimestampUs : Int}
    (href : 0 ≤ refTimestampUs) :
    Running ((create true includeLost).setBase baseSequence refTimestampUs) [] where
  describes := ⟨[], describes_nil true includeLost 0 0 baseSequence refTimestampUs 0⟩
  sound := ⟨[], (sound_create true includeLost).setBase rfl baseSequence refTimestampUs⟩
  timestamps := rfl
  base := by
    have hbase : ((create true includeLost).setBase baseSequence refTimestampUs).getBaseTimeUs =
      (refTimestampUs.tmod kTimeWrapPeriodUs).tdiv kBaseScaleFactor * kBaseScaleFactor := rfl
    have hperiod : kTimeWrapPeriodUs = 1073741824000 := by decide
    have hscale : kBaseScaleFactor = 64000 := by decide
    rw [hbase, hperiod, hscale, Int.tmod_eq_emod_of_nonneg href,
      Int.tdiv_eq_ediv_of_nonneg (Int.emod_nonneg _ (by decide))]
    omega
  onTime := ⟨rfl, fun i hi => absurd hi (Nat.not_lt_zero i)⟩

/-- **The times of a feedback do not drift**: in every run, the packets listed are those of the
calls accepted, each within half a tick of the time it was given with. -/
theorem times_do_not_drift (includeLost : Bool) (baseSequence : U16) (refTimestampUs : Int)
    (href : 0 ≤ refTimestampUs) (calls : List (U16 × Int))
    (hcalls : ∀ call ∈ calls, 0 ≤ call.2 ∧ call.2 < 2 ^ 63) :
    OnTime (((create true includeLost).setBase baseSequence refTimestampUs).addAll calls).2
      (((create true includeLost).setBase baseSequence refTimestampUs).accepted calls) :=
  ((running_setBase includeLost baseSequence href).addAll calls hcalls).onTime

/-- Two packets on either side of the wrap, and one between them that is too far away. -/
theorem times_do_not_drift_wrap :
    OnTime (((create true false).setBase 7 1073741800000).addAll
        [(7, 1073741823990), (8, 500), (9, 99000000), (10, 1000)]).2
      (((create true false).setBase 7 1073741800000).accepted
        [(7, 1073741823990), (8, 500), (9, 99000000), (10, 1000)]) :=
  times_do_not_drift false 7 1073741800000 (by decide)
    [(7, 1073741823990), (8, 500), (9, 99000000), (10, 1000)] (by decide)

end TransportFeedback
end NaiveRtc.Rtcp
