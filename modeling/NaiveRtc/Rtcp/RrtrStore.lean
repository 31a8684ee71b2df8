import NaiveRtc.Lib.StableList
import NaiveRtc.Rtcp.CompoundWalk
import NaiveRtc.Rtcp.RtcpSender

/-!
# The stored reference times of the receiver

What `RtcpReceiver` does with the reference times of extended reports: `ParseXr`, `ParseBye` and
`HandleXrRrtrBlock` of `rtc/rtp_rtcp/rtcp/rtcp_receiver_parser.cpp`, and
`ConsumeXrDlrrTimeInfos` of `rtcp_receiver.cpp`.

* `RtcpReceiver` — the list of entries, and for each SSRC an iterator into it.
* `handleXrRrtrBlock`, `parseBye`, `consumeXrDlrrTimeInfos` — what changes them; `none` is an
  iterator that is used although its entry is gone.
* `receiverMachine` — any blocks that are received, and calls that consume.
* `arrivals` — the reference times of an SSRC since it left, told from the history only.
* `rrtrs_consistent` — **the index fits the list in every run**, and what is consumed is the
  latest, in the order in which the entries came.
-/

namespace NaiveRtc.Rtcp

open RtcpSender (compactNtp kMaxNumberOfDlrrTimeInfos)

/-- `kMaxNumberOfStoredRrtrs`. -/
def kMaxNumberOfStoredRrtrs : Nat := 300

/-- `RrtrInfo`. -/
structure RrtrInfo where
  ssrc : U32
  receivedRemoteMidNtpTime : U32
  localReceiveMidNtpTime : U32
  deriving DecidableEq

/-- `RtcpReceiver`, as far as it stores reference times.  `rrtrIts` holds no iterator for an SSRC
that is not in `rrtr_its_`. -/
structure RtcpReceiver where
  rrtrs : StableList RrtrInfo
  rrtrIts : U32 → Option Nat

namespace RtcpReceiver

/-- A new receiver. -/
def fresh : RtcpReceiver := ⟨.empty, fun _ => none⟩

/-! ## Operations -/

/-- `HandleXrRrtrBlock(rrtr, sender_ssrc)` at a time, and whether the block was not ignored. -/
def handleXrRrtrBlock (r : RtcpReceiver) (rrtr : Rrtr) (senderSsrc : U32) (now : NtpTime) :
    Option (RtcpReceiver × Bool) :=
  let receivedRemoteMidNtpTime := compactNtp rrtr.ntp
  let localReceiveMidNtpTime := compactNtp now
  match r.rrtrIts senderSsrc with
  | some it =>
    if (r.rrtrs.find? it).isNone then none
    else
      some ({ r with
        rrtrs := r.rrtrs.modify it fun info =>
          { info with receivedRemoteMidNtpTime, localReceiveMidNtpTime } }, true)
  | none =>
    if r.rrtrs.size < kMaxNumberOfStoredRrtrs then
      some ({
        rrtrs := r.rrtrs.pushBack ⟨senderSsrc, receivedRemoteMidNtpTime, localReceiveMidNtpTime⟩
        rrtrIts := Function.update r.rrtrIts senderSsrc (some r.rrtrs.nextNode) }, true)
    else some (r, false)

/-- `ParseXr(rtcp_block, packet_info)` of a block that was parsed. -/
def parseXr (r : RtcpReceiver) (xr : ExtendedReports) (now : NtpTime) :
    Option (RtcpReceiver × Bool) :=
  match xr.rrtrBlock with
  | some rrtr => r.handleXrRrtrBlock rrtr xr.senderSsrc now
  | none => some (r, true)

/-- `ParseBye(rtcp_block)` of a block that was parsed. -/
def parseBye (r : RtcpReceiver) (bye : Bye) : Option RtcpReceiver :=
  match r.rrtrIts bye.senderSsrc with
  | some it =>
    if (r.rrtrs.find? it).isNone then none
    else some ⟨r.rrtrs.erase it, Function.update r.rrtrIts bye.senderSsrc none⟩
  | none => some r

/-- The loop of `ConsumeXrDlrrTimeInfos`. -/
def consumeLoop (nowNtp : U32) : Nat → RtcpReceiver → Option (RtcpReceiver × List TimeInfo)
  | 0, r => some (r, [])
  | count + 1, r =>
    match r.rrtrs.front? with
    | none => none
    | some rrtr =>
      let timeInfo : TimeInfo :=
        ⟨rrtr.ssrc, rrtr.receivedRemoteMidNtpTime, nowNtp - rrtr.localReceiveMidNtpTime⟩
      let r : RtcpReceiver := ⟨r.rrtrs.popFront, Function.update r.rrtrIts rrtr.ssrc none⟩
      (consumeLoop nowNtp count r).map fun rest => (rest.1, timeInfo :: rest.2)

/-- `ConsumeXrDlrrTimeInfos()` at a time. -/
def consumeXrDlrrTimeInfos (r : RtcpReceiver) (now : NtpTime) :
    Option (RtcpReceiver × List TimeInfo) :=
  let numTimeInfos := min r.rrtrs.size kMaxNumberOfDlrrTimeInfos
  if numTimeInfos = 0 then some (r, [])
  else consumeLoop (compactNtp now) numTimeInfos r

/-! ## The machine -/

/-- What happens to a receiver: a block is received at a time, or time infos are consumed. -/
inductive Event
  | received (block : RtcpBlock) (now : NtpTime)
  | consume (now : NtpTime)

/-- What comes of it. -/
inductive Outcome
  | undefined
  | done
  | ignored
  | timeInfos (infos : List TimeInfo)
  deriving DecidableEq

/-- One event. -/
def step (r : RtcpReceiver) : Event → RtcpReceiver × Outcome
  | .received (.extendedReports xr) now =>
    (r.parseXr xr now).elim (r, .undefined) fun result =>
      (result.1, if result.2 then .done else .ignored)
  | .received (.bye bye) _ => (r.parseBye bye).elim (r, .undefined) fun r => (r, .done)
  | .received _ _ => (r, .done)
  | .consume now =>
    (r.consumeXrDlrrTimeInfos now).elim (r, .undefined) fun result =>
      (result.1, .timeInfos result.2)

/-- The receiver as a machine. -/
def receiverMachine : Machine RtcpReceiver Event Outcome := ⟨step⟩

/-! ## History -/

/-- A reference time that arrived: when, what it said, when that was for the receiver, and whether
it was not ignored. -/
structure Arrival where
  place : Nat
  remote : U32
  received : U32
  kept : Bool
  deriving DecidableEq

/-- What one event of the history means for the arrivals of an SSRC. -/
def heed (ssrc : U32) (past : List Arrival) (entry : (Event × Outcome) × Nat) : List Arrival :=
  match entry.1 with
  | (.received (.extendedReports xr) now, outcome) =>
    match xr.rrtrBlock with
    | some rrtr =>
      if xr.senderSsrc = ssrc then
        past ++ [⟨entry.2, compactNtp rrtr.ntp, compactNtp now, outcome ≠ .ignored⟩]
      else past
    | none => past
  | (.received (.bye bye) _, _) => if bye.senderSsrc = ssrc then [] else past
  | (.consume _, .timeInfos infos) => if ssrc ∈ infos.map TimeInfo.ssrc then [] else past
  | _ => past

/-- The reference times that arrived from an SSRC since it was consumed or said goodbye. -/
def arrivals (ssrc : U32) (log : List (Event × Outcome)) : List Arrival :=
  log.zipIdx.foldl (heed ssrc) []

/-- When the entry of an SSRC came: the first of its arrivals that was kept. -/
def firstArrival (ssrc : U32) (log : List (Event × Outcome)) : Option Nat :=
  ((arrivals ssrc log).find? (·.kept)).map (·.place)

/-- The entry of the one came before the entry of the other. -/
def Before (log : List (Event × Outcome)) (ssrc ssrc' : U32) : Prop :=
  ∃ i j, firstArrival ssrc log = some i ∧ firstArrival ssrc' log = some j ∧ i < j

theorem arrivals_concat (ssrc : U32) (log : List (Event × Outcome)) (entry : Event × Outcome) :
    arrivals ssrc (log ++ [entry]) = heed ssrc (arrivals ssrc log) (entry, log.length) := by
  unfold arrivals
  rw [List.zipIdx_append, List.foldl_append]
  simp

/-! ## The index and the list -/

/-- Every iterator of the index points to the entry of its SSRC, and every entry has its iterator
there. -/
structure Linked (r : RtcpReceiver) : Prop where
  alive : ∀ ssrc it, r.rrtrIts ssrc = some it →
    ∃ info, (it, info) ∈ r.rrtrs.nodes ∧ info.ssrc = ssrc
  indexed : ∀ it info, (it, info) ∈ r.rrtrs.nodes → r.rrtrIts info.ssrc = some it

theorem linked_fresh : Linked fresh where
  alive _ _ hsome := by cases hsome
  indexed _ _ hmem := by cases hmem

section Links

variable {r : RtcpReceiver} {ssrc : U32} {it : Nat}

theorem Linked.find? (h : Linked r) (hit : r.rrtrIts ssrc = some it) :
    (r.rrtrs.find? it).isNone = false := by
  obtain ⟨info, hmem, -⟩ := h.alive ssrc it hit
  rw [StableList.find?_eq_some_iff.2 hmem]
  rfl

theorem Linked.absent (h : Linked r) (hnone : r.rrtrIts ssrc = none) :
    ∀ info ∈ r.rrtrs.values, info.ssrc ≠ ssrc := by
  rintro info hinfo rfl
  obtain ⟨it, hmem⟩ := StableList.mem_values_iff.1 hinfo
  rw [h.indexed it info hmem] at hnone
  cases hnone

theorem Linked.modify (h : Linked r) {f : RrtrInfo → RrtrInfo}
    (hf : ∀ info, (f info).ssrc = info.ssrc) :
    Linked { r with rrtrs := r.rrtrs.modify it f } where
  alive ssrc it' hit' := by
    obtain ⟨info, hmem, hssrc⟩ := h.alive ssrc it' hit'
    by_cases heq : it' = it
    · exact ⟨f info, StableList.mem_modify.2 (Or.inr ⟨heq, info, heq ▸ hmem, rfl⟩),
        (hf info).trans hssrc⟩
    · exact ⟨info, StableList.mem_modify.2 (Or.inl ⟨heq, hmem⟩), hssrc⟩
  indexed it' info hmem := by
    rcases StableList.mem_modify.1 hmem with ⟨-, hold⟩ | ⟨rfl, info', hold, rfl⟩
    · exact h.indexed it' info hold
    · rw [hf]
      exact h.indexed it' info' hold

theorem Linked.pushBack (h : Linked r) {info : RrtrInfo} (hnone : r.rrtrIts info.ssrc = none) :
    Linked ⟨r.rrtrs.pushBack info,
      Function.update r.rrtrIts info.ssrc (some r.rrtrs.nextNode)⟩ where
  alive ssrc it hit := by
    dsimp only at hit
    by_cases heq : ssrc = info.ssrc
    · subst heq
      rw [Function.update_self, Option.some.injEq] at hit
      exact ⟨info, StableList.mem_pushBack.2 (Or.inr ⟨hit.symm, rfl⟩), rfl⟩
    · rw [Function.update_of_ne heq] at hit
      obtain ⟨info', hmem, hssrc⟩ := h.alive ssrc it hit
      exact ⟨info', StableList.mem_pushBack.2 (Or.inl hmem), hssrc⟩
  indexed it info' hmem := by
    rcases StableList.mem_pushBack.1 hmem with hmem | ⟨rfl, rfl⟩
    · have hne : info'.ssrc ≠ info.ssrc :=
        h.absent hnone info' (StableList.mem_values_iff.2 ⟨it, hmem⟩)
      dsimp only
      rw [Function.update_of_ne hne]
      exact h.indexed it info' hmem
    · exact Function.update_self _ _ _

theorem Linked.remove (h : Linked r) {rrtrs : StableList RrtrInfo} (hit : r.rrtrIts ssrc = some it)
    (hnodes : ∀ it' info, (it', info) ∈ rrtrs.nodes ↔ (it', info) ∈ r.rrtrs.nodes ∧ it' ≠ it) :
    Linked ⟨rrtrs, Function.update r.rrtrIts ssrc none⟩ where
  alive ssrc' it' hit' := by
    dsimp only at hit'
    by_cases heq : ssrc' = ssrc
    · rw [heq, Function.update_self] at hit'
      cases hit'
    · rw [Function.update_of_ne heq] at hit'
      obtain ⟨info, hmem, hssrc⟩ := h.alive ssrc' it' hit'
      refine ⟨info, (hnodes it' info).2 ⟨hmem, fun hsame => ?_⟩, hssrc⟩
      obtain ⟨info', hmem', hssrc'⟩ := h.alive ssrc it hit
      rw [hsame] at hmem
      exact heq (hssrc.symm.trans ((congrArg _ (StableList.value_unique hmem hmem')).trans hssrc'))
  indexed it' info hmem := by
    obtain ⟨hmem, hne⟩ := (hnodes it' info).1 hmem
    have hindexed := h.indexed it' info hmem
    have hssrc : info.ssrc ≠ ssrc := by
      rintro rfl
      rw [hit] at hindexed
      exact hne (Option.some.inj hindexed).symm
    dsimp only
    rw [Function.update_of_ne hssrc]
    exact hindexed

end Links

/-! ## What is stored -/

/-- The stored entries are told by the history. -/
structure Tracks (log : List (Event × Outcome)) (r : RtcpReceiver) : Prop extends Linked r where
  size_le : r.rrtrs.size ≤ kMaxNumberOfStoredRrtrs
  latest : ∀ info ∈ r.rrtrs.values, ∃ arrival, (arrivals info.ssrc log).getLast? = some arrival ∧
    arrival.remote = info.receivedRemoteMidNtpTime ∧
      arrival.received = info.localReceiveMidNtpTime
  came : ∀ info ∈ r.rrtrs.values, ∃ place, firstArrival info.ssrc log = some place
  ignored : ∀ ssrc, r.rrtrIts ssrc = none → ∀ arrival ∈ arrivals ssrc log, arrival.kept = false
  past : ∀ ssrc, ∀ arrival ∈ arrivals ssrc log, arrival.place < log.length
  ordered : (r.rrtrs.values.map RrtrInfo.ssrc).Pairwise (Before log)

theorem tracks_fresh : Tracks [] fresh where
  toLinked := linked_fresh
  size_le := Nat.zero_le _
  latest _ hmem := by cases hmem
  came _ hmem := by cases hmem
  ignored _ _ _ hmem := by cases hmem
  past _ _ hmem := by cases hmem
  ordered := List.Pairwise.nil

section Tracking

variable {r r' : RtcpReceiver} {log log' : List (Event × Outcome)} {ssrc ssrc' : U32}

theorem firstArrival_congr (h : arrivals ssrc log' = arrivals ssrc log) :
    firstArrival ssrc log' = firstArrival ssrc log := by
  unfold firstArrival
  rw [h]

theorem Before.congr (hbefore : Before log ssrc ssrc')
    (h : firstArrival ssrc log' = firstArrival ssrc log)
    (h' : firstArrival ssrc' log' = firstArrival ssrc' log) : Before log' ssrc ssrc' := by
  obtain ⟨i, j, hi, hj, hlt⟩ := hbefore
  exact ⟨i, j, h.trans hi, h'.trans hj, hlt⟩

theorem ordered_congr {infos : List RrtrInfo}
    (hordered : (infos.map RrtrInfo.ssrc).Pairwise (Before log))
    (hfirst : ∀ info ∈ infos, firstArrival info.ssrc log' = firstArrival info.ssrc log) :
    (infos.map RrtrInfo.ssrc).Pairwise (Before log') := by
  refine hordered.imp_of_mem fun {ssrc ssrc'} hmem hmem' hbefore => ?_
  obtain ⟨info, hinfo, rfl⟩ := List.mem_map.1 hmem
  obtain ⟨info', hinfo', rfl⟩ := List.mem_map.1 hmem'
  exact hbefore.congr (hfirst info hinfo) (hfirst info' hinfo')

theorem Tracks.leave (h : Tracks log r) {left : U32 → Prop} [DecidablePred left]
    (hlinked : Linked r') (hvalues : r'.rrtrs.values.Sublist r.rrtrs.values)
    (hlog : log.length ≤ log'.length)
    (harrivals : ∀ ssrc, arrivals ssrc log' = if left ssrc then [] else arrivals ssrc log)
    (hits : ∀ ssrc, r'.rrtrIts ssrc = if left ssrc then none else r.rrtrIts ssrc) :
    Tracks log' r' := by
  have hstay : ∀ info ∈ r'.rrtrs.values, arrivals info.ssrc log' = arrivals info.ssrc log := by
    intro info hinfo
    obtain ⟨it, hmem⟩ := StableList.mem_values_iff.1 hinfo
    have hit := hlinked.indexed it info hmem
    rw [hits] at hit
    rw [harrivals]
    split_ifs with hleft
    · rw [if_pos hleft] at hit
      cases hit
    · rfl
  refine ⟨hlinked, ?_, fun info hinfo => ?_, fun info hinfo => ?_, fun ssrc hnone => ?_,
    fun ssrc => ?_, ?_⟩
  · have hle := hvalues.length_le
    rw [StableList.length_values, StableList.length_values] at hle
    exact hle.trans h.size_le
  · rw [hstay info hinfo]
    exact h.latest info (hvalues.subset hinfo)
  · rw [firstArrival_congr (hstay info hinfo)]
    exact h.came info (hvalues.subset hinfo)
  · rw [harrivals]
    rw [hits] at hnone
    split_ifs with hleft
    · simp
    · rw [if_neg hleft] at hnone
      exact h.ignored ssrc hnone
  · rw [harrivals]
    split_ifs
    · simp
    · exact fun arrival harrival => (h.past ssrc arrival harrival).trans_le hlog
  · exact ordered_congr (h.ordered.sublist (hvalues.map _)) fun info hinfo =>
      firstArrival_congr (hstay info hinfo)

theorem Tracks.stay (h : Tracks log r) (hlog : log.length ≤ log'.length)
    (harrivals : ∀ ssrc, arrivals ssrc log' = arrivals ssrc log) : Tracks log' r :=
  @Tracks.leave r r log log' h (fun _ => False) _ h.toLinked (List.Sublist.refl _) hlog
    (fun ssrc => (harrivals ssrc).trans (if_neg id).symm) fun _ => (if_neg id).symm

/-- What the arrivals are after one more. -/
def Arrives (ssrc : U32) (arrival : Arrival) (log log' : List (Event × Outcome)) : Prop :=
  arrivals ssrc log' = arrivals ssrc log ++ [arrival] ∧
    ∀ ssrc', ssrc' ≠ ssrc → arrivals ssrc' log' = arrivals ssrc' log

variable {arrival : Arrival}

theorem Arrives.firstArrival_other (h : Arrives ssrc arrival log log')
    (hne : ssrc' ≠ ssrc) : firstArrival ssrc' log' = firstArrival ssrc' log :=
  firstArrival_congr (h.2 ssrc' hne)

theorem Arrives.firstArrival_same {place : Nat}
    (h : Arrives ssrc arrival log log') (hcame : firstArrival ssrc log = some place) :
    firstArrival ssrc log' = some place := by
  unfold firstArrival at hcame ⊢
  obtain ⟨first, hfirst, hplace⟩ := Option.map_eq_some_iff.1 hcame
  rw [h.1, List.find?_append, hfirst]
  exact congrArg some hplace

theorem Arrives.past (h : Arrives ssrc arrival log log')
    (hplace : arrival.place = log.length) (hlog : log'.length = log.length + 1)
    (hpast : ∀ ssrc, ∀ arrival ∈ arrivals ssrc log, arrival.place < log.length) :
    ∀ ssrc, ∀ arrival ∈ arrivals ssrc log', arrival.place < log'.length := by
  intro ssrc' other hother
  by_cases hssrc : ssrc' = ssrc
  · rw [hssrc, h.1] at hother
    rcases List.mem_append.1 hother with hother | hother
    · have hlt := hpast ssrc other hother
      omega
    · rw [List.mem_singleton.1 hother]
      omega
  · rw [h.2 ssrc' hssrc] at hother
    have hlt := hpast ssrc' other hother
    omega

theorem Tracks.ignore (h : Tracks log r)
    (harrives : Arrives ssrc arrival log log') (hplace : arrival.place = log.length)
    (hlog : log'.length = log.length + 1) (hkept : arrival.kept = false)
    (hnone : r.rrtrIts ssrc = none) : Tracks log' r := by
  have hother : ∀ info ∈ r.rrtrs.values, arrivals info.ssrc log' = arrivals info.ssrc log :=
    fun info hinfo => harrives.2 _ (h.absent hnone info hinfo)
  refine ⟨h.toLinked, h.size_le, fun info hinfo => ?_, fun info hinfo => ?_, fun ssrc' hnone' => ?_,
    harrives.past hplace hlog h.past, ?_⟩
  · rw [hother info hinfo]
    exact h.latest info hinfo
  · rw [firstArrival_congr (hother info hinfo)]
    exact h.came info hinfo
  · intro old hold
    by_cases hssrc : ssrc' = ssrc
    · rw [hssrc, harrives.1] at hold
      rcases List.mem_append.1 hold with hold | hold
      · exact h.ignored ssrc hnone old hold
      · rw [List.mem_singleton.1 hold]
        exact hkept
    · rw [harrives.2 ssrc' hssrc] at hold
      exact h.ignored ssrc' hnone' old hold
  · exact ordered_congr h.ordered fun info hinfo => firstArrival_congr (hother info hinfo)

theorem Tracks.update (h : Tracks log r) {it : Nat}
    (harrives : Arrives ssrc arrival log log') (hplace : arrival.place = log.length)
    (hlog : log'.length = log.length + 1) (hit : r.rrtrIts ssrc = some it) :
    Tracks log' { r with rrtrs := r.rrtrs.modify it fun info =>
      { info with
        receivedRemoteMidNtpTime := arrival.remote
        localReceiveMidNtpTime := arrival.received } } := by
  obtain ⟨entry, hentry, hssrc⟩ := h.alive ssrc it hit
  have hfirst : ∀ info ∈ r.rrtrs.values,
      firstArrival info.ssrc log' = firstArrival info.ssrc log := by
    intro info hinfo
    by_cases heq : info.ssrc = ssrc
    · obtain ⟨place, hcame⟩ := h.came info hinfo
      rw [heq] at hcame ⊢
      rw [hcame, harrives.firstArrival_same hcame]
    · exact harrives.firstArrival_other heq
  -- A value is the changed entry, or one of the others.
  have hvalue : ∀ info ∈ (r.rrtrs.modify it fun info =>
      { info with
        receivedRemoteMidNtpTime := arrival.remote
        localReceiveMidNtpTime := arrival.received }).values,
      (info.ssrc ≠ ssrc ∧ info ∈ r.rrtrs.values) ∨
        info = ⟨ssrc, arrival.remote, arrival.received⟩ := by
    intro info hinfo
    obtain ⟨it', hmem⟩ := StableList.mem_values_iff.1 hinfo
    rcases StableList.mem_modify.1 hmem with ⟨hne, hold⟩ | ⟨rfl, old, hold, rfl⟩
    · refine Or.inl ⟨fun heq => hne ?_, StableList.mem_values_iff.2 ⟨it', hold⟩⟩
      have hindexed := h.indexed it' info hold
      rw [heq, hit] at hindexed
      exact (Option.some.inj hindexed).symm
    · refine Or.inr ?_
      rw [StableList.value_unique hold hentry, hssrc]
  refine ⟨h.modify fun _ => rfl, ?_, fun info hinfo => ?_, fun info hinfo => ?_,
    fun ssrc' hnone' => ?_, harrives.past hplace hlog h.past, ?_⟩
  · rw [StableList.size_modify]
    exact h.size_le
  · rcases hvalue info hinfo with ⟨hne, hold⟩ | rfl
    · rw [harrives.2 info.ssrc hne]
      exact h.latest info hold
    · refine ⟨arrival, ?_, rfl, rfl⟩
      rw [harrives.1]
      exact List.getLast?_concat
  · rcases hvalue info hinfo with ⟨-, hold⟩ | rfl
    · rw [hfirst info hold]
      exact h.came info hold
    · obtain ⟨place, hcame⟩ := h.came entry (StableList.mem_values_iff.2 ⟨it, hentry⟩)
      rw [hssrc] at hcame
      exact ⟨place, harrives.firstArrival_same hcame⟩
  · have hne : ssrc' ≠ ssrc := by
      rintro rfl
      rw [hit] at hnone'
      cases hnone'
    rw [harrives.2 ssrc' hne]
    exact h.ignored ssrc' hnone'
  · have hsame := @StableList.map_values_modify _ r.rrtrs it _ (fun info : RrtrInfo =>
      { info with
        receivedRemoteMidNtpTime := arrival.remote
        localReceiveMidNtpTime := arrival.received }) RrtrInfo.ssrc fun _ => rfl
    rw [hsame]
    exact ordered_congr h.ordered hfirst

theorem Tracks.append (h : Tracks log r)
    (harrives : Arrives ssrc arrival log log') (hplace : arrival.place = log.length)
    (hlog : log'.length = log.length + 1) (hkept : arrival.kept = true)
    (hnone : r.rrtrIts ssrc = none) (hroom : r.rrtrs.size < kMaxNumberOfStoredRrtrs) :
    Tracks log' ⟨r.rrtrs.pushBack ⟨ssrc, arrival.remote, arrival.received⟩,
      Function.update r.rrtrIts ssrc (some r.rrtrs.nextNode)⟩ := by
  have hother : ∀ info ∈ r.rrtrs.values, arrivals info.ssrc log' = arrivals info.ssrc log :=
    fun info hinfo => harrives.2 _ (h.absent hnone info hinfo)
  have hfirst : firstArrival ssrc log' = some log.length := by
    have hold : (arrivals ssrc log).find? (·.kept) = none :=
      List.find?_eq_none.2 fun old hmem => by simp [h.ignored ssrc hnone old hmem]
    unfold firstArrival
    rw [harrives.1, List.find?_append, hold, Option.none_or, List.find?_singleton, hkept,
      if_pos rfl, Option.map_some, hplace]
  have hlast : (arrivals ssrc log').getLast? = some arrival := by
    rw [harrives.1]
    exact List.getLast?_concat
  refine ⟨@Linked.pushBack _ h.toLinked ⟨ssrc, arrival.remote, arrival.received⟩ hnone, ?_,
    fun info hinfo => ?_, fun info hinfo => ?_, fun ssrc' hnone' => ?_,
    harrives.past hplace hlog h.past, ?_⟩
  · rw [StableList.size_pushBack]
    exact hroom
  · rw [StableList.values_pushBack] at hinfo
    rcases List.mem_append.1 hinfo with hinfo | hinfo
    · rw [hother info hinfo]
      exact h.latest info hinfo
    · rw [List.mem_singleton.1 hinfo]
      exact ⟨arrival, hlast, rfl, rfl⟩
  · rw [StableList.values_pushBack] at hinfo
    rcases List.mem_append.1 hinfo with hinfo | hinfo
    · rw [firstArrival_congr (hother info hinfo)]
      exact h.came info hinfo
    · rw [List.mem_singleton.1 hinfo]
      exact ⟨log.length, hfirst⟩
  · have hne : ssrc' ≠ ssrc := by
      rintro rfl
      dsimp only at hnone'
      rw [Function.update_self] at hnone'
      cases hnone'
    dsimp only at hnone'
    rw [Function.update_of_ne hne] at hnone'
    rw [harrives.2 ssrc' hne]
    exact h.ignored ssrc' hnone'
  · rw [StableList.values_pushBack, List.map_append]
    refine List.pairwise_append.2 ⟨?_, List.pairwise_singleton _ _, ?_⟩
    · exact ordered_congr h.ordered fun info hinfo => firstArrival_congr (hother info hinfo)
    · intro ssrc' hmem ssrc'' hmem''
      obtain ⟨info, hinfo, rfl⟩ := List.mem_map.1 hmem
      rw [List.mem_singleton.1 hmem'']
      obtain ⟨place, hcame⟩ := h.came info hinfo
      refine ⟨place, log.length, (firstArrival_congr (hother info hinfo)).trans hcame, hfirst, ?_⟩
      obtain ⟨first, hmem, hplace⟩ := Option.map_eq_some_iff.1 hcame
      rw [← hplace]
      exact h.past info.ssrc first (List.mem_of_find?_eq_some hmem)

end Tracking

/-! ## Steps -/

/-- The time info that an entry becomes. -/
def timeInfoOf (nowNtp : U32) (info : RrtrInfo) : TimeInfo :=
  ⟨info.ssrc, info.receivedRemoteMidNtpTime, nowNtp - info.localReceiveMidNtpTime⟩

theorem consumeLoop_spec {nowNtp : U32} {count : Nat} {r : RtcpReceiver} (h : Linked r)
    (hcount : count ≤ r.rrtrs.size) :
    ∃ r', consumeLoop nowNtp count r =
        some (r', (r.rrtrs.values.take count).map (timeInfoOf nowNtp)) ∧
      Linked r' ∧ r'.rrtrs.values = r.rrtrs.values.drop count ∧
      ∀ ssrc, r'.rrtrIts ssrc =
        if ssrc ∈ (r.rrtrs.values.take count).map RrtrInfo.ssrc then none else r.rrtrIts ssrc := by
  induction count generalizing r with
  | zero => exact ⟨r, rfl, h, rfl, fun ssrc => (if_neg List.not_mem_nil).symm⟩
  | succ count ih =>
    rcases r.rrtrs.popFront_cases with ⟨-, hempty⟩ | ⟨it, info, hfront, hnodes, hgone⟩
    · unfold StableList.size at hcount
      rw [hempty] at hcount
      exact absurd hcount (Nat.not_succ_le_zero count)
    · have hit : r.rrtrIts info.ssrc = some it :=
        h.indexed it info (by rw [hnodes]; exact List.mem_cons_self)
      have hvalues : r.rrtrs.values = info :: r.rrtrs.popFront.values := by
        unfold StableList.values
        rw [hnodes, List.map_cons]
      have hlinked := @Linked.remove r _ it h r.rrtrs.popFront hit fun it' info' => by
        rw [hnodes, List.mem_cons, Prod.mk.injEq]
        constructor
        · exact fun hmem => ⟨Or.inr hmem, fun heq => hgone info' (heq ▸ hmem)⟩
        · rintro ⟨⟨heq, -⟩ | hmem, hne⟩
          · exact absurd heq hne
          · exact hmem
      have hsize : count ≤ r.rrtrs.popFront.size := by
        rw [← StableList.length_values, hvalues, List.length_cons,
          StableList.length_values] at hcount
        omega
      obtain ⟨r', hloop, hlinked', hvalues', hits⟩ := ih hlinked hsize
      refine ⟨r', ?_, hlinked', ?_, fun ssrc => ?_⟩
      · rw [consumeLoop, hfront]
        dsimp only
        rw [hloop, hvalues]
        rfl
      · rw [hvalues', hvalues]
        rfl
      · rw [hits ssrc, hvalues, List.take_succ_cons, List.map_cons]
        dsimp only
        by_cases hssrc : ssrc = info.ssrc
        · rw [if_pos (show ssrc ∈ info.ssrc :: _ from hssrc ▸ List.mem_cons_self), hssrc,
            Function.update_self, ite_self]
        · rw [Function.update_of_ne hssrc]
          refine if_congr ?_ rfl rfl
          rw [List.mem_cons, or_iff_right hssrc]

section Steps

variable {r : RtcpReceiver} {log : List (Event × Outcome)}

theorem consume_spec (h : Linked r) (now : NtpTime) :
    ∃ r' taken, step r (.consume now) =
        (r', .timeInfos (taken.map (timeInfoOf (compactNtp now)))) ∧
      Linked r' ∧ r.rrtrs.values = taken ++ r'.rrtrs.values ∧
      ∀ ssrc, r'.rrtrIts ssrc =
        if ssrc ∈ taken.map RrtrInfo.ssrc then none else r.rrtrIts ssrc := by
  by_cases hzero : min r.rrtrs.size kMaxNumberOfDlrrTimeInfos = 0
  · have hconsume : r.consumeXrDlrrTimeInfos now = some (r, []) := if_pos hzero
    refine ⟨r, [], ?_, h, rfl, fun ssrc => (if_neg List.not_mem_nil).symm⟩
    rw [step, hconsume]
    rfl
  · obtain ⟨r', hloop, hlinked, hvalues, hits⟩ :=
      @consumeLoop_spec (compactNtp now) _ r h (Nat.min_le_left _ kMaxNumberOfDlrrTimeInfos)
    have hconsume : r.consumeXrDlrrTimeInfos now = _ := (if_neg hzero).trans hloop
    refine ⟨r', _, ?_, hlinked, ?_, hits⟩
    · rw [step, hconsume]
      rfl
    · rw [hvalues, List.take_append_drop]

theorem map_ssrc_timeInfoOf (nowNtp : U32) (infos : List RrtrInfo) :
    (infos.map (timeInfoOf nowNtp)).map TimeInfo.ssrc = infos.map RrtrInfo.ssrc := List.map_map

/-- **An extended report** with a reference time updates an entry, makes one, or is ignored. -/
theorem Tracks.xr (h : Tracks log r) (xr : ExtendedReports) (now : NtpTime) :
    let outcome := step r (.received (.extendedReports xr) now)
    Tracks (log ++ [(.received (.extendedReports xr) now, outcome.2)]) outcome.1 ∧
      outcome.2 ≠ .undefined := by
  intro outcome
  have hlength := @List.length_append _ log [(.received (.extendedReports xr) now, outcome.2)]
  cases hblock : xr.rrtrBlock with
  | none =>
    have hparse : r.parseXr xr now = some (r, true) := by
      unfold parseXr
      rw [hblock]
    have houtcome : outcome = (r, .done) := by
      show (r.parseXr xr now).elim _ _ = _
      rw [hparse]
      rfl
    rw [houtcome]
    refine ⟨h.stay (by simp) fun ssrc => ?_, by simp⟩
    rw [arrivals_concat]
    simp only [heed, hblock]
  | some rrtr =>
    have harrives : ∀ result : RtcpReceiver × Outcome, Arrives xr.senderSsrc
        ⟨log.length, compactNtp rrtr.ntp, compactNtp now, result.2 ≠ .ignored⟩ log
        (log ++ [(.received (.extendedReports xr) now, result.2)]) := by
      intro result
      unfold Arrives
      simp only [arrivals_concat, heed, hblock]
      exact ⟨if_pos trivial, fun ssrc' hne => if_neg (Ne.symm hne)⟩
    have harrives := harrives outcome
    cases hit : r.rrtrIts xr.senderSsrc with
    | some it =>
      have houtcome : outcome = ({ r with rrtrs := r.rrtrs.modify it fun info =>
          { info with
            receivedRemoteMidNtpTime := compactNtp rrtr.ntp
            localReceiveMidNtpTime := compactNtp now } }, .done) := by
        show (r.parseXr xr now).elim _ _ = _
        unfold parseXr handleXrRrtrBlock
        simp only [hblock, hit, h.find? hit, Bool.false_eq_true, if_false]
        rfl
      have hupdate := h.update harrives rfl hlength hit
      rw [houtcome] at hupdate ⊢
      exact ⟨hupdate, by simp⟩
    | none =>
      by_cases hroom : r.rrtrs.size < kMaxNumberOfStoredRrtrs
      · have houtcome : outcome = (⟨r.rrtrs.pushBack ⟨xr.senderSsrc, compactNtp rrtr.ntp,
            compactNtp now⟩, Function.update r.rrtrIts xr.senderSsrc (some r.rrtrs.nextNode)⟩,
            .done) := by
          show (r.parseXr xr now).elim _ _ = _
          unfold parseXr handleXrRrtrBlock
          simp only [hblock, hit, if_pos hroom]
          rfl
        have happend := h.append harrives rfl hlength (by rw [houtcome]; rfl) hit hroom
        rw [houtcome] at happend ⊢
        exact ⟨happend, by simp⟩
      · have houtcome : outcome = (r, .ignored) := by
          show (r.parseXr xr now).elim _ _ = _
          unfold parseXr handleXrRrtrBlock
          simp only [hblock, hit, if_neg hroom]
          rfl
        have hignore := h.ignore harrives rfl hlength (by rw [houtcome]; rfl) hit
        rw [houtcome] at hignore ⊢
        exact ⟨hignore, by simp⟩

theorem Tracks.bye (h : Tracks log r) (bye : Bye) (now : NtpTime) :
    let outcome := step r (.received (.bye bye) now)
    Tracks (log ++ [(.received (.bye bye) now, outcome.2)]) outcome.1 ∧
      outcome.2 ≠ .undefined := by
  intro outcome
  have harrivals : ∀ (result : Outcome) ssrc,
      arrivals ssrc (log ++ [(.received (.bye bye) now, result)]) =
        if bye.senderSsrc = ssrc then [] else arrivals ssrc log := by
    intro result ssrc
    rw [arrivals_concat, heed]
  cases hit : r.rrtrIts bye.senderSsrc with
  | some it =>
    have houtcome : outcome =
        (⟨r.rrtrs.erase it, Function.update r.rrtrIts bye.senderSsrc none⟩, .done) := by
      show (r.parseBye bye).elim _ _ = _
      unfold parseBye
      simp only [hit, h.find? hit, Bool.false_eq_true, if_false]
      rfl
    rw [houtcome]
    refine ⟨h.leave (h.remove hit fun _ _ => StableList.mem_erase)
      StableList.values_erase_sublist (by simp) (harrivals _) (fun ssrc => ?_), by simp⟩
    dsimp only
    by_cases hssrc : bye.senderSsrc = ssrc
    · rw [if_pos hssrc, ← hssrc, Function.update_self]
    · rw [if_neg hssrc, Function.update_of_ne (Ne.symm hssrc)]
  | none =>
    have houtcome : outcome = (r, .done) := by
      show (r.parseBye bye).elim _ _ = _
      unfold parseBye
      rw [hit]
      rfl
    rw [houtcome]
    refine ⟨h.leave h.toLinked (List.Sublist.refl _) (by simp) (harrivals _) (fun ssrc => ?_),
      by simp⟩
    by_cases hssrc : bye.senderSsrc = ssrc
    · rw [if_pos hssrc, ← hssrc, hit]
    · rw [if_neg hssrc]

theorem Tracks.consume (h : Tracks log r) (now : NtpTime) :
    let outcome := step r (.consume now)
    Tracks (log ++ [(.consume now, outcome.2)]) outcome.1 ∧ outcome.2 ≠ .undefined := by
  obtain ⟨r', taken, houtcome, hlinked, hvalues, hits⟩ := consume_spec h.toLinked now
  rw [houtcome]
  refine ⟨h.leave hlinked ?_ (by simp) (fun ssrc => ?_) hits, by simp⟩
  · rw [hvalues]
    exact List.sublist_append_right _ _
  · rw [arrivals_concat, ← map_ssrc_timeInfoOf (compactNtp now)]
    rfl

theorem Tracks.step (h : Tracks log r) (event : Event) :
    Tracks (log ++ [(event, (receiverMachine.step r event).2)]) (receiverMachine.step r event).1 ∧
      (receiverMachine.step r event).2 ≠ .undefined := by
  cases event with
  | consume now => exact h.consume now
  | received block now =>
    cases block with
    | extendedReports xr => exact h.xr xr now
    | bye bye => exact h.bye bye now
    | _ =>
      refine ⟨h.stay (by simp) fun ssrc => ?_, by simp [receiverMachine, RtcpReceiver.step]⟩
      rw [arrivals_concat]
      rfl

end Steps

/-! ## Runs -/

theorem tracks_run (events : List Event) :
    Tracks (receiverMachine.log fresh events) (receiverMachine.final fresh events) ∧
      ∀ entry ∈ receiverMachine.log fresh events, entry.2 ≠ .undefined := by
  have hrun := receiverMachine.invariant_log
    (P := fun log r => Tracks log r ∧ ∀ entry ∈ log, entry.2 ≠ .undefined)
    (fun log r event h _ => by
      obtain ⟨htracks, hdefined⟩ := h.1.step event
      refine ⟨htracks, fun entry hentry => ?_⟩
      rcases List.mem_append.1 hentry with hentry | hentry
      · exact h.2 entry hentry
      · rw [List.mem_singleton.1 hentry]
        exact hdefined)
    ⟨tracks_fresh, by simp⟩ (receiverMachine.allGood_of_forall (fun _ _ => trivial) fresh events)
  rwa [List.nil_append] at hrun

theorem nodup_of_ordered {log : List (Event × Outcome)} {ssrcs : List U32}
    (h : ssrcs.Pairwise (Before log)) : ssrcs.Nodup := by
  refine h.imp ?_
  rintro ssrc ssrc' ⟨i, j, hi, hj, hlt⟩ rfl
  rw [hi, Option.some.injEq] at hj
  omega

/-- **After every run** of received blocks and calls that consume, index and list fit: each
iterator points to a live entry of its SSRC, and each entry has its iterator.  There are at most
300 entries, no entry that is gone was ever used, and no SSRC has two.  A call that consumes now
returns time infos of entries in the order in which these came, and before all that stay; each
carries the last reference time that arrived from its SSRC since that was consumed or said
goodbye, ignored ones included.  An entry comes with the first reference time of its SSRC that is
not ignored for want of room. -/
theorem rrtrs_consistent (events : List Event) :
    let r := receiverMachine.final fresh events
    let log := receiverMachine.log fresh events
    Linked r ∧ r.rrtrs.size ≤ kMaxNumberOfStoredRrtrs ∧
      (r.rrtrs.values.map RrtrInfo.ssrc).Nodup ∧ (∀ entry ∈ log, entry.2 ≠ .undefined) ∧
      ∀ now, ∃ infos, (receiverMachine.step r (.consume now)).2 = .timeInfos infos ∧
        (infos.map TimeInfo.ssrc).Nodup ∧
        (infos.map TimeInfo.ssrc ++
          (receiverMachine.step r (.consume now)).1.rrtrs.values.map RrtrInfo.ssrc).Pairwise
            (Before log) ∧
        ∀ info ∈ infos, ∃ arrival, (arrivals info.ssrc log).getLast? = some arrival ∧
          info.lastRr = arrival.remote ∧
            info.delaySinceLastRr = compactNtp now - arrival.received := by
  intro r log
  obtain ⟨htracks, hdefined⟩ := tracks_run events
  refine ⟨htracks.toLinked, htracks.size_le, nodup_of_ordered htracks.ordered, hdefined,
    fun now => ?_⟩
  obtain ⟨r', taken, houtcome, -, hvalues, -⟩ := consume_spec htracks.toLinked now
  have hstep : receiverMachine.step r (.consume now) = _ := houtcome
  have hordered := htracks.ordered
  rw [hvalues, List.map_append] at hordered
  rw [hstep]
  refine ⟨_, rfl, ?_, ?_, fun info hinfo => ?_⟩
  · rw [map_ssrc_timeInfoOf]
    exact nodup_of_ordered (List.pairwise_append.1 hordered).1
  · rw [map_ssrc_timeInfoOf]
    exact hordered
  · obtain ⟨entry, hentry, rfl⟩ := List.mem_map.1 hinfo
    have hstored : entry ∈ (receiverMachine.final fresh events).rrtrs.values := by
      rw [hvalues]
      exact List.mem_append_left _ hentry
    obtain ⟨arrival, hlast, hremote, hreceived⟩ := htracks.latest entry hstored
    exact ⟨arrival, hlast, hremote.symm, by rw [hreceived]; rfl⟩

end RtcpReceiver

end NaiveRtc.Rtcp
