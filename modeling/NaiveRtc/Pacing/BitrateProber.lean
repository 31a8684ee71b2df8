import NaiveRtc.Components.BitrateLimiter

/-!
# The probes of the pacer

`rtc/congestion_control/pacing/bitrate_prober.cpp`: clusters of probes wait in a queue, the one in
front is sent at its target rate, and one time says when the next probe is due.

* `Leaves` — why a call may take a cluster out of the queue; `step_clusters`, what it does to it.
* `Divides` — no cluster has a rate of zero, by which the time of the next probe is divided.
* `Scheduled` — what ties the time to the cluster in front; `Undisturbed`, the same where probing
  is never disabled.
* `Journal`, `Tracks` — the probes that were sent, one list for each cluster.
* `probing_law` — **a cluster is sent no faster than its rate**, unless the prober is activated
  again in the middle of it.
-/

namespace NaiveRtc.Pacing

open CongestionControl (DataRate)

/-- `duration * rate`, in bytes. -/
def bytesIn (duration : TimeDelta) (rate : DataRate) : Nat :=
  (BitVec.ofInt 64 ((rate * duration.us + 4000000).tdiv 8000000)).toNat

/-- `size_in_bytes / rate`, in `uint64_t` arithmetic.  That the rate is not zero is left to whoever
divides: the prober divides by the rates of its clusters, see `Divides`. -/
def timeToSend (sizeInBytes : Nat) (rate : DataRate) : TimeDelta :=
  .micros (BitVec.ofNat 64 (sizeInBytes * 8000000) / BitVec.ofInt 64 rate).toInt

/-- `kMinProbePacketSize`. -/
def kMinProbePacketSize : Nat := 200

/-- `kProbeClusterTimeout`. -/
def kProbeClusterTimeout : TimeDelta := .micros 5000000

/-! ## Clusters -/

/-- `ProbeCluster`. -/
structure ProbeCluster where
  id : Int
  minProbes : Int
  minBytes : Nat
  targetBitrate : DataRate
  sentProbes : Int
  sentBytes : Nat
  deriving DecidableEq

/-- `IsDone()`. -/
def ProbeCluster.isDone (c : ProbeCluster) : Bool :=
  decide (c.minProbes ≤ c.sentProbes ∧ c.minBytes ≤ c.sentBytes)

/-- `ProbeClusterInfo`. -/
structure ProbeClusterInfo where
  probeCluster : ProbeCluster
  createdAt : Timestamp
  startedAt : Timestamp
  deriving DecidableEq

namespace ProbeClusterInfo

/-- A probe of the cluster was sent; the bytes are counted in `size_t`. -/
def record (c : ProbeClusterInfo) (sentBytes : Nat) (atTime : Int) : ProbeClusterInfo where
  probeCluster := { c.probeCluster with
    sentBytes := (c.probeCluster.sentBytes + sentBytes) % 2 ^ 64
    sentProbes := c.probeCluster.sentProbes + 1 }
  createdAt := c.createdAt
  startedAt := if c.probeCluster.sentBytes = 0 then .micros atTime else c.startedAt

/-- Was the cluster created more than `kProbeClusterTimeout` before? -/
def expiredAt (atTime : Int) (c : ProbeClusterInfo) : Bool :=
  kProbeClusterTimeout.lt ((UnitValue.micros atTime).sub c.createdAt)

/-- `CalculateNextProbeTime(cluster)`. -/
def calculateNextProbeTime (c : ProbeClusterInfo) : Timestamp :=
  c.startedAt.add (timeToSend c.probeCluster.sentBytes c.probeCluster.targetBitrate)

@[simp] theorem record_sentProbes (c : ProbeClusterInfo) (sentBytes : Nat) (atTime : Int) :
    (c.record sentBytes atTime).probeCluster.sentProbes = c.probeCluster.sentProbes + 1 := rfl

@[simp] theorem record_sentBytes (c : ProbeClusterInfo) (sentBytes : Nat) (atTime : Int) :
    (c.record sentBytes atTime).probeCluster.sentBytes =
      (c.probeCluster.sentBytes + sentBytes) % 2 ^ 64 := rfl

end ProbeClusterInfo

/-! ## The prober -/

/-- `Configuration`. -/
structure Configuration where
  minProbePacketsSent : Int := 5
  minProbeDelta : TimeDelta := .micros 1000
  minProbeDuration : TimeDelta := .micros 15000
  maxProbeDelay : TimeDelta := .micros 10000
  abortDelayedProbes : Bool := true
  deriving DecidableEq

/-- `ProbingState`. -/
inductive ProbingState
  | disabled
  | inactive
  | active
  | suspended
  deriving DecidableEq

/-- `BitrateProber`. -/
structure BitrateProber where
  config : Configuration
  probingState : ProbingState
  clusters : List ProbeClusterInfo
  nextTimeToProbe : Timestamp
  totalProbeCount : Nat
  totalFailedProbeCount : Nat
  deriving DecidableEq

namespace BitrateProber

/-- `SetEnabled(enabled)`. -/
def setEnabled (s : BitrateProber) (enabled : Bool) : BitrateProber :=
  if enabled then
    if s.probingState = .disabled then { s with probingState := .inactive } else s
  else { s with probingState := .disabled }

/-- `BitrateProber(config)`. -/
def create (config : Configuration) : BitrateProber :=
  setEnabled
    { config := config, probingState := .disabled, clusters := [], nextTimeToProbe := .plusInfinity
      totalProbeCount := 0, totalFailedProbeCount := 0 } true

/-- `IsProbing()`. -/
def isProbing (s : BitrateProber) : Bool := decide (s.probingState = .active)

/-- `IsProbeTimedOut(at_time)`. -/
def isProbeTimedOut (s : BitrateProber) (atTime : Int) : Bool :=
  s.nextTimeToProbe.isFinite &&
    s.config.maxProbeDelay.lt ((UnitValue.micros atTime).sub s.nextTimeToProbe)

/-- `RecommendedMinProbeSize()`. -/
def recommendedMinProbeSize (s : BitrateProber) : Nat :=
  match s.clusters with
  | [] => 0
  | front :: _ => bytesIn s.config.minProbeDelta (2 * front.probeCluster.targetBitrate)

/-- `OnIncomingPacket(packet_size)`: an activation sends the next probe immediately. -/
def onIncomingPacket (s : BitrateProber) (packetSize : Nat) : BitrateProber :=
  if s.probingState = .inactive ∧ s.clusters ≠ [] ∧
      min s.recommendedMinProbeSize kMinProbePacketSize ≤ packetSize then
    { s with nextTimeToProbe := .minusInfinity, probingState := .active }
  else s

/-- The cluster that `AddProbeCluster` makes. -/
def newCluster (s : BitrateProber) (clusterId : Int) (targetBitrate : DataRate) (atTime : Int) :
    ProbeClusterInfo where
  probeCluster :=
    { id := clusterId, minProbes := s.config.minProbePacketsSent
      minBytes := bytesIn s.config.minProbeDuration targetBitrate, targetBitrate := targetBitrate
      sentProbes := 0, sentBytes := 0 }
  createdAt := .micros atTime
  startedAt := .minusInfinity

/-- Does `AddProbeCluster` take a cluster of this rate? -/
def acceptsCluster (s : BitrateProber) (targetBitrate : DataRate) : Bool :=
  decide (s.probingState ≠ .disabled ∧ targetBitrate ≠ 0)

/-- `AddProbeCluster(cluster_id, target_bitrate, at_time)`. -/
def addProbeCluster (s : BitrateProber) (clusterId : Int) (targetBitrate : DataRate)
    (atTime : Int) : BitrateProber × Bool :=
  if s.acceptsCluster targetBitrate then
    let kept := s.clusters.dropWhile (ProbeClusterInfo.expiredAt atTime)
    ({ s with
      totalProbeCount := s.totalProbeCount + 1
      totalFailedProbeCount := s.totalFailedProbeCount + (s.clusters.length - kept.length)
      clusters := kept ++ [s.newCluster clusterId targetBitrate atTime]
      probingState := if s.probingState = .active then .active else .inactive }, true)
  else (s, false)

/-- `NextTimeToProbe(at_time)`. -/
def nextProbeAt (s : BitrateProber) (atTime : Int) : Timestamp :=
  if s.probingState ≠ .active ∨ s.clusters = [] then .plusInfinity
  else if s.config.abortDelayedProbes = false ∧ s.isProbeTimedOut atTime = true then .plusInfinity
  else s.nextTimeToProbe

/-- Is the probe that is due too late to be sent? -/
def isProbeLate (s : BitrateProber) (atTime : Int) : Bool :=
  s.config.abortDelayedProbes && s.isProbeTimedOut atTime

/-- `CurrentProbeCluster(at_time)`. -/
def currentProbeCluster (s : BitrateProber) (atTime : Int) :
    BitrateProber × Option ProbeCluster :=
  if s.probingState ≠ .active then (s, none)
  else
    match s.clusters with
    | [] => (s, none)
    | front :: rest =>
      if s.isProbeLate atTime then
        match rest with
        | [] => ({ s with clusters := [], probingState := .suspended }, none)
        | next :: _ => ({ s with clusters := rest }, some next.probeCluster)
      else (s, some front.probeCluster)

/-- `OnProbeSent(sent_bytes, at_time)`. -/
def onProbeSent (s : BitrateProber) (sentBytes : Nat) (atTime : Int) : BitrateProber :=
  if s.probingState ≠ .active ∨ sentBytes = 0 then s
  else
    match s.clusters with
    | [] => s
    | front :: rest =>
      let front := front.record sentBytes atTime
      let clusters := if front.probeCluster.isDone then rest else front :: rest
      { s with
        nextTimeToProbe := front.calculateNextProbeTime
        clusters := clusters
        probingState := if clusters = [] then .suspended else s.probingState }

/-! ## The machine -/

/-- What is called, and when. -/
inductive Op
  | setEnabled (enabled : Bool)
  | addProbeCluster (clusterId : Int) (targetBitrate : DataRate) (atTime : Int)
  | onIncomingPacket (packetSize : Nat)
  | currentProbeCluster (atTime : Int)
  | nextTimeToProbe (atTime : Int)
  | onProbeSent (sentBytes : Nat) (atTime : Int)
  deriving DecidableEq

/-- What a call answers. -/
inductive Answer
  | nothing
  | added (accepted : Bool)
  | cluster (current : Option ProbeCluster)
  | time (next : Timestamp)
  deriving DecidableEq

/-- One call. -/
def step (s : BitrateProber) : Op → BitrateProber × Answer
  | .setEnabled enabled => (s.setEnabled enabled, .nothing)
  | .addProbeCluster clusterId targetBitrate atTime =>
    let (s, accepted) := s.addProbeCluster clusterId targetBitrate atTime
    (s, .added accepted)
  | .onIncomingPacket packetSize => (s.onIncomingPacket packetSize, .nothing)
  | .currentProbeCluster atTime =>
    let (s, current) := s.currentProbeCluster atTime
    (s, .cluster current)
  | .nextTimeToProbe atTime => (s, .time (s.nextProbeAt atTime))
  | .onProbeSent sentBytes atTime => (s.onProbeSent sentBytes atTime, .nothing)

/-- One call after the other. -/
def proberMachine : Machine BitrateProber Op Answer where
  step := step

/-! ## What a call does to the queue -/

/-- Does a probe of so many bytes count? -/
def probes (s : BitrateProber) (sentBytes : Nat) : Bool :=
  decide (s.probingState = .active ∧ sentBytes ≠ 0)

/-- The queue with the probe of a call recorded. -/
def recorded (s : BitrateProber) : Op → List ProbeClusterInfo
  | .onProbeSent sentBytes atTime =>
    if s.probes sentBytes then s.clusters.modifyHead (·.record sentBytes atTime) else s.clusters
  | _ => s.clusters

/-- The cluster that a call adds. -/
def entering (s : BitrateProber) : Op → List ProbeClusterInfo
  | .addProbeCluster clusterId targetBitrate atTime =>
    if s.acceptsCluster targetBitrate then [s.newCluster clusterId targetBitrate atTime] else []
  | _ => []

/-- Why a call may take a cluster out: it is older than five seconds, its probe is late, or it has
been sent. -/
def Leaves (s : BitrateProber) : Op → ProbeClusterInfo → Prop
  | .addProbeCluster _ _ atTime, c => c.expiredAt atTime = true
  | .currentProbeCluster atTime, _ => s.isProbeLate atTime = true
  | .onProbeSent _ _, c => c.probeCluster.isDone = true
  | _, _ => False

/-- How many clusters a call takes out. -/
def leaving (s : BitrateProber) (op : Op) : Nat :=
  (s.recorded op).length + (s.entering op).length - (s.step op).1.clusters.length

section

variable {s : BitrateProber}

theorem addProbeCluster_clusters (s : BitrateProber) (clusterId : Int) (targetBitrate : DataRate)
    (atTime : Int) :
    (s.addProbeCluster clusterId targetBitrate atTime).1.clusters =
      if s.acceptsCluster targetBitrate then
        s.clusters.dropWhile (ProbeClusterInfo.expiredAt atTime) ++
          [s.newCluster clusterId targetBitrate atTime]
      else s.clusters := by
  unfold addProbeCluster
  split <;> rfl

theorem currentProbeCluster_clusters (s : BitrateProber) (atTime : Int) :
    (s.currentProbeCluster atTime).1.clusters =
      if s.probingState = .active ∧ s.isProbeLate atTime = true then s.clusters.tail
      else s.clusters := by
  unfold currentProbeCluster
  by_cases hactive : s.probingState = .active
  · rw [if_neg (not_not.2 hactive)]
    cases hclusters : s.clusters with
    | nil => simp [hclusters]
    | cons front rest =>
      dsimp only
      cases hlate : s.isProbeLate atTime with
      | false => simp [hclusters]
      | true => cases rest <;> simp [hactive]
  · simp [hactive]

theorem onProbeSent_of_not_probes {sentBytes : Nat} (h : s.probes sentBytes = false)
    (atTime : Int) : s.onProbeSent sentBytes atTime = s := by
  have hidle : s.probingState ≠ .active ∨ sentBytes = 0 := by
    by_contra hcon
    push Not at hcon
    have hprobes : s.probes sentBytes = true := decide_eq_true hcon
    rw [h] at hprobes
    cases hprobes
  exact if_pos hidle

theorem onProbeSent_of_probes {sentBytes : Nat} (h : s.probes sentBytes = true) (atTime : Int)
    {front : ProbeClusterInfo} {rest : List ProbeClusterInfo}
    (hclusters : s.clusters = front :: rest) :
    s.onProbeSent sentBytes atTime =
      let front := front.record sentBytes atTime
      let clusters := if front.probeCluster.isDone then rest else front :: rest
      { s with
        nextTimeToProbe := front.calculateNextProbeTime
        clusters := clusters
        probingState := if clusters = [] then .suspended else s.probingState } := by
  obtain ⟨hactive, hbytes⟩ := of_decide_eq_true h
  unfold onProbeSent
  rw [if_neg (by simp [hactive, hbytes]), hclusters]

/-- **What a call does to the queue.**  The probe is recorded, some clusters leave in front, each
for its reason, and the new one comes behind. -/
theorem exists_step_clusters (s : BitrateProber) (op : Op) :
    ∃ n ≤ (s.recorded op).length,
      (s.step op).1.clusters = (s.recorded op).drop n ++ s.entering op ∧
        ∀ c ∈ (s.recorded op).take n, s.Leaves op c := by
  cases op with
  | setEnabled enabled =>
    refine ⟨0, Nat.zero_le _, ?_, by simp⟩
    cases enabled
    · exact (List.append_nil _).symm
    · show (s.setEnabled true).clusters = _
      unfold setEnabled
      rw [if_pos rfl]
      split <;> exact (List.append_nil _).symm
  | onIncomingPacket packetSize =>
    refine ⟨0, Nat.zero_le _, ?_, by simp⟩
    show (s.onIncomingPacket packetSize).clusters = _
    unfold onIncomingPacket
    split <;> exact (List.append_nil _).symm
  | nextTimeToProbe atTime => exact ⟨0, Nat.zero_le _, (List.append_nil _).symm, by simp⟩
  | addProbeCluster clusterId targetBitrate atTime =>
    have hstep := addProbeCluster_clusters s clusterId targetBitrate atTime
    cases haccepts : s.acceptsCluster targetBitrate with
    | false =>
      refine ⟨0, Nat.zero_le _, ?_, by simp⟩
      show (s.addProbeCluster clusterId targetBitrate atTime).1.clusters = _
      simp [hstep, recorded, entering, haccepts]
    | true =>
      have hsplit := List.takeWhile_append_dropWhile
        (p := ProbeClusterInfo.expiredAt atTime) (l := s.clusters)
      refine ⟨(s.clusters.takeWhile (ProbeClusterInfo.expiredAt atTime)).length, ?_, ?_, ?_⟩
      · exact (List.takeWhile_sublist _).length_le
      · show (s.addProbeCluster clusterId targetBitrate atTime).1.clusters = s.clusters.drop _ ++ _
        rw [hstep, haccepts, if_pos rfl]
        have hdrop := congrArg
          (List.drop (s.clusters.takeWhile (ProbeClusterInfo.expiredAt atTime)).length) hsplit
        rw [List.drop_left] at hdrop
        rw [← hdrop]
        simp [entering, haccepts]
      · intro c hc
        have htake := congrArg
          (List.take (s.clusters.takeWhile (ProbeClusterInfo.expiredAt atTime)).length) hsplit
        rw [List.take_left] at htake
        have hc : c ∈ s.clusters.takeWhile (ProbeClusterInfo.expiredAt atTime) := by
          rw [htake]
          exact hc
        exact List.mem_takeWhile_imp hc
  | currentProbeCluster atTime =>
    have hstep := currentProbeCluster_clusters s atTime
    by_cases hlate : s.probingState = .active ∧ s.isProbeLate atTime = true
    · rw [if_pos hlate] at hstep
      refine ⟨min 1 s.clusters.length, Nat.min_le_right _ _, ?_, fun _ _ => hlate.2⟩
      show (s.currentProbeCluster atTime).1.clusters = s.clusters.drop _ ++ []
      rw [hstep, List.append_nil]
      cases s.clusters <;> simp
    · rw [if_neg hlate] at hstep
      exact ⟨0, Nat.zero_le _, hstep.trans (List.append_nil _).symm, by simp⟩
  | onProbeSent sentBytes atTime =>
    show ∃ n ≤ _, (s.onProbeSent sentBytes atTime).clusters = _ ∧ _
    cases hprobes : s.probes sentBytes with
    | false =>
      rw [onProbeSent_of_not_probes hprobes]
      exact ⟨0, Nat.zero_le _, by simp [recorded, entering, hprobes], by simp⟩
    | true =>
      cases hclusters : s.clusters with
      | nil =>
        refine ⟨0, Nat.zero_le _, ?_, by simp⟩
        simp [onProbeSent, recorded, entering, hclusters]
      | cons front rest =>
        rw [onProbeSent_of_probes hprobes atTime hclusters]
        have hrecorded : s.recorded (.onProbeSent sentBytes atTime) =
            front.record sentBytes atTime :: rest := by
          simp [recorded, hprobes, hclusters]
        rw [hrecorded]
        cases hdone : (front.record sentBytes atTime).probeCluster.isDone with
        | false => exact ⟨0, Nat.zero_le _, by simp [entering, hdone], by simp⟩
        | true =>
          refine ⟨1, by simp, by simp [entering, hdone], ?_⟩
          intro c hc
          obtain rfl : c = front.record sentBytes atTime := by simpa using hc
          exact hdone

theorem step_clusters (s : BitrateProber) (op : Op) :
    (s.step op).1.clusters = (s.recorded op).drop (s.leaving op) ++ s.entering op ∧
      ∀ c ∈ (s.recorded op).take (s.leaving op), s.Leaves op c := by
  obtain ⟨n, hle, hclusters, hleaves⟩ := exists_step_clusters s op
  have hn : s.leaving op = n := by
    unfold leaving
    rw [hclusters, List.length_append, List.length_drop]
    omega
  rw [hn]
  exact ⟨hclusters, hleaves⟩

end

/-! ## The time and the cluster in front -/

/-- What holds in every state: the clusters behind the first have sent nothing, and when the one in
front has, the time is the one it asks for, or the prober was activated since. -/
structure Scheduled (s : BitrateProber) : Prop where
  nonempty : s.probingState = .active → s.clusters ≠ []
  fresh : ∀ c ∈ s.clusters.tail, c.probeCluster.sentProbes = 0
  due : s.probingState = .active → ∀ c ∈ s.clusters.head?, c.probeCluster.sentProbes ≠ 0 →
    s.nextTimeToProbe = .minusInfinity ∨ s.nextTimeToProbe = c.calculateNextProbeTime
  started : ∀ c ∈ s.clusters, c.probeCluster.sentBytes ≠ 0 → c.startedAt.isFinite = true

/-- What holds while probing is not disabled: only an active prober has sent something of a cluster,
and it has a time for the next probe then. -/
structure Undisturbed (s : BitrateProber) : Prop where
  enabled : s.probingState ≠ .disabled
  untouched : s.probingState ≠ .active → ∀ c ∈ s.clusters, c.probeCluster.sentProbes = 0
  finite : s.probingState = .active → ∀ c ∈ s.clusters.head?, c.probeCluster.sentProbes ≠ 0 →
    s.nextTimeToProbe ≠ .minusInfinity

section

variable {s : BitrateProber} {op : Op} {c : ProbeClusterInfo}

theorem mem_tail_drop_append {l entering : List ProbeClusterInfo} {n : Nat}
    (h : c ∈ (l.drop n ++ entering).tail) : c ∈ l.tail ∨ c ∈ entering := by
  cases n with
  | zero =>
    cases l with
    | nil => exact Or.inr (List.mem_of_mem_tail h)
    | cons front rest => exact List.mem_append.1 h
  | succ n =>
    rcases List.mem_append.1 (List.mem_of_mem_tail h) with hold | hnew
    · rw [← List.drop_tail] at hold
      exact Or.inl (List.mem_of_mem_drop hold)
    · exact Or.inr hnew

theorem mem_head_drop_append {l entering : List ProbeClusterInfo} {n : Nat}
    (h : c ∈ (l.drop n ++ entering).head?) : c ∈ l.head? ∨ c ∈ l.tail ∨ c ∈ entering := by
  cases n with
  | zero =>
    cases l with
    | nil => exact Or.inr (Or.inr (List.mem_of_mem_head? h))
    | cons front rest => exact Or.inl h
  | succ n =>
    rcases List.mem_append.1 (List.mem_of_mem_head? h) with hold | hnew
    · rw [← List.drop_tail] at hold
      exact Or.inr (Or.inl (List.mem_of_mem_drop hold))
    · exact Or.inr (Or.inr hnew)

theorem entering_fresh (h : c ∈ s.entering op) :
    c.probeCluster.sentProbes = 0 ∧ c.probeCluster.sentBytes = 0 := by
  cases op <;> simp only [entering, List.not_mem_nil] at h
  case addProbeCluster clusterId targetBitrate atTime =>
    split at h
    · obtain rfl := List.mem_singleton.1 h
      exact ⟨rfl, rfl⟩
    · exact absurd h List.not_mem_nil

@[simp] theorem recorded_tail (s : BitrateProber) (op : Op) :
    (s.recorded op).tail = s.clusters.tail := by
  cases op <;> try rfl
  case onProbeSent sentBytes atTime =>
    simp only [recorded]
    split
    · cases s.clusters <;> rfl
    · rfl

theorem Scheduled.head_recorded (h : Scheduled s)
    (hc : c ∈ (s.step op).1.clusters.head?) (hsent : c.probeCluster.sentProbes ≠ 0) :
    c ∈ (s.recorded op).head? := by
  rw [(step_clusters s op).1] at hc
  rcases mem_head_drop_append hc with hc | hc | hc
  · exact hc
  · rw [recorded_tail] at hc
    exact absurd (h.fresh c hc) hsent
  · exact absurd (entering_fresh hc).1 hsent

theorem calculateNextProbeTime_ne (h : c.startedAt.isFinite = true) :
    c.calculateNextProbeTime ≠ .minusInfinity := by
  unfold ProbeClusterInfo.calculateNextProbeTime timeToSend
  cases hstarted : c.startedAt with
  | minusInfinity => rw [hstarted] at h; cases h
  | micros us => simp [UnitValue.add]
  | plusInfinity => simp [UnitValue.add]

theorem Scheduled.record_started (h : Scheduled s) (hc : c ∈ s.clusters)
    (sentBytes : Nat) (atTime : Int) : (c.record sentBytes atTime).startedAt.isFinite = true := by
  unfold ProbeClusterInfo.record
  by_cases hbytes : c.probeCluster.sentBytes = 0
  · simp [hbytes, UnitValue.isFinite]
  · simpa [hbytes] using h.started c hc hbytes

theorem mem_recorded (hc : c ∈ s.recorded op) :
    c ∈ s.clusters ∨
      ∃ sentBytes atTime, op = .onProbeSent sentBytes atTime ∧ s.probes sentBytes = true ∧
        ∃ front ∈ s.clusters.head?, c = front.record sentBytes atTime := by
  cases op <;> try exact Or.inl hc
  case onProbeSent sentBytes atTime =>
    simp only [recorded] at hc
    split at hc
    case isTrue hprobes =>
      cases hclusters : s.clusters with
      | nil => rw [hclusters] at hc; exact absurd hc List.not_mem_nil
      | cons front rest =>
        rw [hclusters] at hc
        rcases List.mem_cons.1 hc with rfl | hc
        · exact Or.inr ⟨sentBytes, atTime, rfl, hprobes, front, by simp, rfl⟩
        · exact Or.inl (List.mem_cons_of_mem _ hc)
    case isFalse => exact Or.inl hc

theorem targetBitrate_step (hc : c ∈ (s.step op).1.clusters) :
    (∃ old ∈ s.clusters, c.probeCluster.targetBitrate = old.probeCluster.targetBitrate) ∨
      ∃ clusterId targetBitrate atTime, op = .addProbeCluster clusterId targetBitrate atTime ∧
        targetBitrate ≠ 0 ∧ c.probeCluster.targetBitrate = targetBitrate := by
  rw [(step_clusters s op).1] at hc
  rcases List.mem_append.1 hc with hc | hc
  · rcases mem_recorded (List.mem_of_mem_drop hc) with hc | ⟨_, _, -, -, front, hfront, rfl⟩
    · exact Or.inl ⟨c, hc, rfl⟩
    · exact Or.inl ⟨front, List.mem_of_mem_head? hfront, rfl⟩
  · cases op with
    | addProbeCluster clusterId targetBitrate atTime =>
      simp only [entering] at hc
      split at hc
      case isTrue haccepts =>
        obtain rfl := List.mem_singleton.1 hc
        exact Or.inr ⟨clusterId, targetBitrate, atTime, rfl, (of_decide_eq_true haccepts).2, rfl⟩
      case isFalse => exact absurd hc List.not_mem_nil
    | _ => exact absurd hc List.not_mem_nil

/-- No cluster has a rate of zero, by which `CalculateNextProbeTime` would divide. -/
def Divides (s : BitrateProber) : Prop := ∀ c ∈ s.clusters, c.probeCluster.targetBitrate ≠ 0

theorem Divides.step (h : Divides s) (op : Op) : Divides (s.step op).1 := by
  intro c hc
  rcases targetBitrate_step hc with ⟨old, hold, hrate⟩ | ⟨_, _, _, -, hne, hrate⟩
  · rw [hrate]
    exact h old hold
  · rw [hrate]
    exact hne

theorem step_active (hactive : (s.step op).1.probingState = .active)
    (hop : ∀ sentBytes atTime, op = .onProbeSent sentBytes atTime → s.probes sentBytes = false) :
    (s.step op).1.nextTimeToProbe = .minusInfinity ∧ s.probingState = .inactive ∨
      s.probingState = .active ∧ (s.step op).1.nextTimeToProbe = s.nextTimeToProbe := by
  cases op with
  | setEnabled enabled =>
    cases enabled
    · cases hactive
    · simp only [step, setEnabled, if_true] at hactive ⊢
      split at hactive
      · cases hactive
      case isFalse hstate => exact Or.inr ⟨hactive, by rw [if_neg hstate]⟩
  | addProbeCluster clusterId targetBitrate atTime =>
    simp only [step, addProbeCluster] at hactive ⊢
    split at hactive
    case isTrue haccepts =>
      simp only [if_pos haccepts]
      by_cases h : s.probingState = .active
      · exact Or.inr ⟨h, trivial⟩
      · simp [h] at hactive
    case isFalse haccepts =>
      simp only [if_neg haccepts]
      exact Or.inr ⟨hactive, trivial⟩
  | onIncomingPacket packetSize =>
    simp only [step, onIncomingPacket] at hactive ⊢
    split at hactive
    case isTrue h =>
      rw [if_pos h]
      exact Or.inl ⟨rfl, h.1⟩
    case isFalse h =>
      rw [if_neg h]
      exact Or.inr ⟨hactive, rfl⟩
  | currentProbeCluster atTime =>
    have hsame : (s.currentProbeCluster atTime).1.nextTimeToProbe = s.nextTimeToProbe ∧
        ((s.currentProbeCluster atTime).1.probingState = s.probingState ∨
          (s.currentProbeCluster atTime).1.probingState = .suspended) := by
      unfold currentProbeCluster
      split
      · exact ⟨rfl, Or.inl rfl⟩
      · split
        · exact ⟨rfl, Or.inl rfl⟩
        · split
          · split <;> simp
          · exact ⟨rfl, Or.inl rfl⟩
    have hstate : (s.currentProbeCluster atTime).1.probingState = .active := hactive
    rcases hsame.2 with h | h
    · exact Or.inr ⟨h.symm.trans hstate, hsame.1⟩
    · rw [h] at hstate
      cases hstate
  | nextTimeToProbe atTime => exact Or.inr ⟨hactive, rfl⟩
  | onProbeSent sentBytes atTime =>
    have hstep := onProbeSent_of_not_probes (hop sentBytes atTime rfl) atTime
    refine Or.inr ⟨?_, congrArg nextTimeToProbe hstep⟩
    rw [← hactive]
    exact (congrArg probingState hstep).symm

theorem onProbeSent_nextTimeToProbe {sentBytes : Nat} (h : s.probes sentBytes = true)
    (atTime : Int) {front : ProbeClusterInfo} (hfront : front ∈ s.clusters.head?) :
    (s.onProbeSent sentBytes atTime).nextTimeToProbe =
      (front.record sentBytes atTime).calculateNextProbeTime := by
  cases hclusters : s.clusters with
  | nil => rw [hclusters] at hfront; cases hfront
  | cons first rest =>
    rw [hclusters] at hfront
    obtain rfl : first = front := by simpa using hfront
    rw [onProbeSent_of_probes h atTime hclusters]

theorem create_scheduled (config : Configuration) : Scheduled (create config) := by
  constructor <;> simp [create, setEnabled]

theorem Scheduled.step_nonempty (h : Scheduled s) (op : Op)
    (hactive : (s.step op).1.probingState = .active) : (s.step op).1.clusters ≠ [] := by
  cases op with
  | setEnabled enabled =>
    cases enabled
    · cases hactive
    · simp only [step, setEnabled, if_true] at hactive ⊢
      split at hactive
      · cases hactive
      case isFalse hstate =>
        rw [if_neg hstate]
        exact h.nonempty hactive
  | addProbeCluster clusterId targetBitrate atTime =>
    simp only [step, addProbeCluster] at hactive ⊢
    split
    · simp
    case isFalse haccepts =>
      simp only [if_neg haccepts] at hactive
      exact h.nonempty hactive
  | onIncomingPacket packetSize =>
    simp only [step, onIncomingPacket] at hactive ⊢
    split
    case isTrue hstart => exact hstart.2.1
    case isFalse hidle =>
      rw [if_neg hidle] at hactive
      exact h.nonempty hactive
  | currentProbeCluster atTime =>
    simp only [step, currentProbeCluster] at hactive ⊢
    split at hactive
    case isTrue hidle => exact absurd hactive hidle
    case isFalse hidle =>
      rw [if_neg hidle]
      cases hclusters : s.clusters with
      | nil => exact absurd hclusters (h.nonempty (not_not.1 hidle))
      | cons front rest =>
        rw [hclusters] at hactive
        dsimp only at hactive ⊢
        split at hactive
        case isTrue hlate =>
          rw [if_pos hlate]
          cases rest with
          | nil => cases hactive
          | cons next rest => exact List.cons_ne_nil _ _
        case isFalse hlate =>
          rw [if_neg hlate]
          simp [hclusters]
  | nextTimeToProbe atTime => exact h.nonempty hactive
  | onProbeSent sentBytes atTime =>
    simp only [step] at hactive ⊢
    cases hprobes : s.probes sentBytes with
    | false =>
      rw [onProbeSent_of_not_probes hprobes] at hactive ⊢
      exact h.nonempty hactive
    | true =>
      cases hclusters : s.clusters with
      | nil =>
        have hstate := (of_decide_eq_true hprobes).1
        exact absurd hclusters (h.nonempty hstate)
      | cons front rest =>
        rw [onProbeSent_of_probes hprobes atTime hclusters] at hactive ⊢
        dsimp only at hactive ⊢
        intro hnil
        rw [if_pos hnil] at hactive
        cases hactive

/-- Where the cluster in front has sent something, a call either sent a probe of it, or activated
the prober, or left the time as it was. -/
theorem Scheduled.head_cases (h : Scheduled s) (hactive : (s.step op).1.probingState = .active)
    (hc : c ∈ (s.step op).1.clusters.head?) (hsent : c.probeCluster.sentProbes ≠ 0) :
    ((s.step op).1.nextTimeToProbe = c.calculateNextProbeTime ∧ c.startedAt.isFinite = true) ∨
      ((s.step op).1.nextTimeToProbe = .minusInfinity ∧ s.probingState = .inactive ∧
        c ∈ s.clusters.head?) ∨
      (s.probingState = .active ∧ (s.step op).1.nextTimeToProbe = s.nextTimeToProbe ∧
        c ∈ s.clusters.head?) := by
  have hold := h.head_recorded hc hsent
  by_cases hprobe : ∃ sentBytes atTime, op = .onProbeSent sentBytes atTime ∧
      s.probes sentBytes = true
  · obtain ⟨sentBytes, atTime, rfl, hprobes⟩ := hprobe
    cases hclusters : s.clusters with
    | nil => simp [recorded, hclusters] at hold
    | cons front rest =>
      have hfront : front ∈ s.clusters.head? := by simp [hclusters]
      obtain rfl : front.record sentBytes atTime = c := by
        simpa [recorded, hprobes, hclusters] using hold
      exact Or.inl ⟨onProbeSent_nextTimeToProbe hprobes atTime hfront,
        h.record_started (List.mem_of_mem_head? hfront) sentBytes atTime⟩
  · have hquiet : ∀ sentBytes atTime, op = .onProbeSent sentBytes atTime →
        s.probes sentBytes = false := by
      intro sentBytes atTime heq
      by_contra hcon
      exact hprobe ⟨sentBytes, atTime, heq, by simpa using hcon⟩
    have hsame : s.recorded op = s.clusters := by
      cases op <;> try rfl
      case onProbeSent sentBytes atTime => simp [recorded, hquiet sentBytes atTime rfl]
    rw [hsame] at hold
    rcases step_active hactive hquiet with ⟨htime, hstate⟩ | ⟨hstate, htime⟩
    · exact Or.inr (Or.inl ⟨htime, hstate, hold⟩)
    · exact Or.inr (Or.inr ⟨hstate, htime, hold⟩)

theorem Scheduled.step (h : Scheduled s) (op : Op) : Scheduled (s.step op).1 where
  nonempty := h.step_nonempty op
  fresh := by
    intro c hc
    rw [(step_clusters s op).1] at hc
    rcases mem_tail_drop_append hc with hc | hc
    · rw [recorded_tail] at hc
      exact h.fresh c hc
    · exact (entering_fresh hc).1
  due := by
    intro hactive c hc hsent
    rcases h.head_cases hactive hc hsent with ⟨htime, -⟩ | ⟨htime, -⟩ | ⟨hstate, htime, hold⟩
    · exact Or.inr htime
    · exact Or.inl htime
    · rw [htime]
      exact h.due hstate c hold hsent
  started := by
    intro c hc hbytes
    rw [(step_clusters s op).1] at hc
    rcases List.mem_append.1 hc with hc | hc
    · rcases mem_recorded (List.mem_of_mem_drop hc) with hc | ⟨_, _, -, -, front, hfront, rfl⟩
      · exact h.started c hc hbytes
      · exact h.record_started (List.mem_of_mem_head? hfront) _ _
    · exact absurd (entering_fresh hc).2 hbytes

theorem create_undisturbed (config : Configuration) : Undisturbed (create config) := by
  constructor <;> simp [create, setEnabled]

theorem step_idle (hop : op ≠ .setEnabled false) (henabled : s.probingState ≠ .disabled)
    (hidle : (s.step op).1.probingState ≠ .active) :
    s.probingState ≠ .active ∨ (s.step op).1.clusters = [] := by
  cases op with
  | setEnabled enabled =>
    cases enabled
    · exact absurd rfl hop
    · left
      simpa [BitrateProber.step, setEnabled, henabled] using hidle
  | addProbeCluster clusterId targetBitrate atTime =>
    left
    intro hactive
    apply hidle
    simp only [BitrateProber.step, addProbeCluster]
    split <;> simp [hactive]
  | onIncomingPacket packetSize =>
    left
    intro hactive
    apply hidle
    simp [BitrateProber.step, onIncomingPacket, hactive]
  | currentProbeCluster atTime =>
    simp only [BitrateProber.step, currentProbeCluster] at hidle ⊢
    split
    case isTrue h => exact Or.inl h
    case isFalse h =>
      rw [if_neg h] at hidle
      right
      cases hclusters : s.clusters with
      | nil => exact hclusters
      | cons front rest =>
        rw [hclusters] at hidle
        dsimp only at hidle ⊢
        split
        case isTrue hlate =>
          rw [if_pos hlate] at hidle
          cases rest with
          | nil => rfl
          | cons next rest => exact absurd hidle h
        case isFalse hlate =>
          rw [if_neg hlate] at hidle
          exact absurd hidle h
  | nextTimeToProbe atTime => exact Or.inl hidle
  | onProbeSent sentBytes atTime =>
    simp only [BitrateProber.step] at hidle ⊢
    cases hprobes : s.probes sentBytes with
    | false =>
      rw [onProbeSent_of_not_probes hprobes] at hidle
      exact Or.inl hidle
    | true =>
      have hactive := (of_decide_eq_true hprobes).1
      cases hclusters : s.clusters with
      | nil =>
        right
        simp [onProbeSent, hclusters]
      | cons front rest =>
        rw [onProbeSent_of_probes hprobes atTime hclusters] at hidle ⊢
        dsimp only at hidle ⊢
        by_contra hcon
        push Not at hcon
        rw [if_neg hcon.2] at hidle
        exact hidle hactive

theorem step_enabled (hop : op ≠ .setEnabled false) (h : s.probingState ≠ .disabled) :
    (s.step op).1.probingState ≠ .disabled := by
  cases op with
  | setEnabled enabled =>
    cases enabled
    · exact absurd rfl hop
    · simp [BitrateProber.step, setEnabled, h]
  | addProbeCluster clusterId targetBitrate atTime =>
    simp only [BitrateProber.step, addProbeCluster]
    split
    · dsimp only
      split <;> simp
    · exact h
  | onIncomingPacket packetSize =>
    simp only [BitrateProber.step, onIncomingPacket]
    split
    · simp
    · exact h
  | currentProbeCluster atTime =>
    simp only [BitrateProber.step, currentProbeCluster]
    split
    · exact h
    · split
      · exact h
      · split
        · split <;> simp [h]
        · exact h
  | nextTimeToProbe atTime => exact h
  | onProbeSent sentBytes atTime =>
    simp only [BitrateProber.step, onProbeSent]
    split
    · exact h
    · split
      · exact h
      case h_2 front rest hclusters =>
        dsimp only
        generalize (if (front.record sentBytes atTime).probeCluster.isDone then rest
          else front.record sentBytes atTime :: rest) = clusters
        by_cases hnil : clusters = [] <;> simp [hnil, h]

theorem Undisturbed.step (h : Undisturbed s) (hsched : Scheduled s) (hop : op ≠ .setEnabled false) :
    Undisturbed (s.step op).1 where
  enabled := step_enabled hop h.enabled
  untouched := by
    intro hidle c hc
    rcases step_idle hop h.enabled hidle with hstate | hnil
    · rw [(step_clusters s op).1] at hc
      rcases List.mem_append.1 hc with hc | hc
      · rcases mem_recorded (List.mem_of_mem_drop hc) with hc | ⟨_, _, -, hprobes, -⟩
        · exact h.untouched hstate c hc
        · exact absurd (of_decide_eq_true hprobes).1 hstate
      · exact (entering_fresh hc).1
    · rw [hnil] at hc
      exact absurd hc List.not_mem_nil
  finite := by
    intro hactive c hc hsent
    rcases hsched.head_cases hactive hc hsent with
      ⟨htime, hfinite⟩ | ⟨-, hstate, hold⟩ | ⟨hstate, htime, hold⟩
    · rw [htime]
      exact calculateNextProbeTime_ne hfinite
    · have hidle : s.probingState ≠ .active := by simp [hstate]
      exact absurd (h.untouched hidle c (List.mem_of_mem_head? hold)) hsent
    · rw [htime]
      exact h.finite hstate c hold hsent

end

/-! ## The probes of a cluster -/

/-- The probes of a cluster, the first in front: the bytes of each, and when it was sent. -/
abbrev Journal := List (Nat × Int)

/-- The bytes of all probes. -/
def Journal.total (journal : Journal) : Nat := (journal.map Prod.fst).sum

/-- The journals with the probe of a call recorded. -/
def recordedJournals (s : BitrateProber) (journals : List Journal) : Op → List Journal
  | .onProbeSent sentBytes atTime =>
    if s.probes sentBytes then journals.modifyHead (· ++ [(sentBytes, atTime)]) else journals
  | _ => journals

/-- The journals follow the queue. -/
def updateJournals (s : BitrateProber) (journals : List Journal) (op : Op) : List Journal :=
  (s.recordedJournals journals op).drop (s.leaving op) ++ (s.entering op).map fun _ => []

/-- The prober next to its journals. -/
def journalMachine : Machine (BitrateProber × List Journal) Op Answer :=
  proberMachine.alongside updateJournals

/-- What a cluster keeps of its probes. -/
structure Tracks (c : ProbeClusterInfo) (journal : Journal) : Prop where
  positive : ∀ probe ∈ journal, probe.1 ≠ 0
  sentBytes : c.probeCluster.sentBytes = journal.total % 2 ^ 64
  sentProbes : c.probeCluster.sentProbes = journal.length
  startedAt : journal.total < 2 ^ 64 → ∀ first ∈ journal.head?, c.startedAt = .micros first.2

/-- The bytes sent at a rate, and the time they take, are in the range of the division. -/
def Divisible (bytes : Nat) (rate : DataRate) : Prop :=
  bytes * 8000000 < 2 ^ 64 ∧ (bytes * 8000000 : Int) / rate < 2 ^ 63

/-- What a caller may pass: a rate is neither negative nor infinite. -/
def Op.InRange : Op → Prop
  | .addProbeCluster _ targetBitrate _ => 0 ≤ targetBitrate ∧ targetBitrate < DataRate.plusInfinity
  | _ => True

section

variable {s : BitrateProber} {journals : List Journal} {op : Op}

@[simp] theorem total_append (journal : Journal) (probe : Nat × Int) :
    Journal.total (journal ++ [probe]) = journal.total + probe.1 := by
  simp [Journal.total]

variable {c : ProbeClusterInfo}

theorem Tracks.nil
    (h : c.probeCluster.sentProbes = 0 ∧ c.probeCluster.sentBytes = 0) : Tracks c [] :=
  ⟨by simp, h.2, by simpa using h.1, by simp⟩

variable {journal : Journal}

theorem Tracks.eq_nil_iff (h : Tracks c journal)
    (hsmall : journal.total < 2 ^ 64) : c.probeCluster.sentBytes = 0 ↔ journal = [] := by
  rw [h.sentBytes, Nat.mod_eq_of_lt hsmall]
  constructor
  · intro htotal
    cases journal with
    | nil => rfl
    | cons probe rest =>
      have hpos := h.positive probe (by simp)
      simp only [Journal.total, List.map_cons, List.sum_cons] at htotal
      omega
  · rintro rfl
    rfl

theorem Tracks.record (h : Tracks c journal)
    {sentBytes : Nat} (hbytes : sentBytes ≠ 0) (atTime : Int) :
    Tracks (c.record sentBytes atTime) (journal ++ [(sentBytes, atTime)]) where
  positive := by
    intro probe hprobe
    rcases List.mem_append.1 hprobe with hprobe | hprobe
    · exact h.positive probe hprobe
    · obtain rfl := List.mem_singleton.1 hprobe
      exact hbytes
  sentBytes := by
    rw [ProbeClusterInfo.record_sentBytes, h.sentBytes, total_append, Nat.mod_add_mod]
  sentProbes := by
    simp [h.sentProbes]
  startedAt := by
    intro hsmall first hfirst
    rw [total_append] at hsmall
    have hold : journal.total < 2 ^ 64 := by omega
    simp only [ProbeClusterInfo.record]
    cases journal with
    | nil =>
      rw [if_pos ((h.eq_nil_iff hold).2 rfl)]
      obtain rfl : (sentBytes, atTime) = first := by simpa using hfirst
      rfl
    | cons probe rest =>
      rw [if_neg fun hzero => List.cons_ne_nil _ _ ((h.eq_nil_iff hold).1 hzero)]
      exact h.startedAt hold first (by simpa using hfirst)

theorem tracks_recorded (h : List.Forall₂ Tracks s.clusters journals) (op : Op) :
    List.Forall₂ Tracks (s.recorded op) (s.recordedJournals journals op) := by
  cases op <;> try exact h
  case onProbeSent sentBytes atTime =>
    simp only [recorded, recordedJournals]
    split
    case isTrue hprobes =>
      generalize s.clusters = clusters at h ⊢
      cases h with
      | nil => exact List.Forall₂.nil
      | cons hfront hrest =>
        exact List.Forall₂.cons (hfront.record (of_decide_eq_true hprobes).2 atTime) hrest
    case isFalse => exact h

theorem tracks_step (h : List.Forall₂ Tracks s.clusters journals) (op : Op) :
    List.Forall₂ Tracks (s.step op).1.clusters (s.updateJournals journals op) := by
  rw [(step_clusters s op).1]
  refine List.rel_append (List.forall₂_drop _ (tracks_recorded h op)) ?_
  rw [List.forall₂_map_right_iff, List.forall₂_same]
  exact fun c hc => Tracks.nil (entering_fresh hc)

theorem timeToSend_of_divisible {bytes : Nat} {rate : DataRate} (h : Divisible bytes rate)
    (hpos : 0 < rate) (hrate : rate < 2 ^ 63) :
    timeToSend bytes rate = .micros ((bytes * 8000000 : Int) / rate) := by
  obtain ⟨hsize, hquotient⟩ := h
  obtain ⟨bps, rfl⟩ := Int.eq_ofNat_of_zero_le hpos.le
  have hbps : bps < 2 ^ 64 := by
    have : (bps : Int) < 2 ^ 63 := hrate
    omega
  have hcast : ((bytes * 8000000 / bps : Nat) : Int) = (bytes * 8000000 : Int) / bps := by
    rw [Int.natCast_ediv, Int.natCast_mul]
    rfl
  have hdiv : bytes * 8000000 / bps < 2 ^ 63 := by
    have : ((bytes * 8000000 / bps : Nat) : Int) < 2 ^ 63 := hcast.trans_lt hquotient
    omega
  have htoNat : (BitVec.ofNat 64 (bytes * 8000000) / BitVec.ofInt 64 (bps : Int)).toNat =
      bytes * 8000000 / bps := by
    rw [BitVec.toNat_udiv, BitVec.toNat_ofNat, BitVec.ofInt_natCast, BitVec.toNat_ofNat,
      Nat.mod_eq_of_lt hsize, Nat.mod_eq_of_lt hbps]
  unfold timeToSend
  rw [BitVec.toInt_eq_toNat_of_lt (by omega), htoNat, hcast]

/-- The bytes sent before a probe are at most those of the rate, up to the rounding of one
division. -/
def WithinRate (c : ProbeClusterInfo) (journal : Journal) (atTime : Int) : Prop :=
  ∀ first ∈ journal.head?,
    (journal.total * 8000000 : Int) < c.probeCluster.targetBitrate * (atTime - first.2 + 1)

theorem Tracks.withinRate (h : Tracks c journal)
    (hpos : 0 < c.probeCluster.targetBitrate) (hrate : c.probeCluster.targetBitrate < 2 ^ 63)
    (hdiv : Divisible journal.total c.probeCluster.targetBitrate) {atTime : Int}
    (hdue : (UnitValue.micros atTime).lt c.calculateNextProbeTime = false) :
    WithinRate c journal atTime := by
  intro first hfirst
  have hsmall : journal.total < 2 ^ 64 := by have := hdiv.1; omega
  have hsent : c.probeCluster.sentBytes = journal.total :=
    h.sentBytes.trans (Nat.mod_eq_of_lt hsmall)
  have htime : c.calculateNextProbeTime =
      .micros (first.2 + (journal.total * 8000000 : Int) / c.probeCluster.targetBitrate) := by
    unfold ProbeClusterInfo.calculateNextProbeTime
    rw [hsent, timeToSend_of_divisible hdiv hpos hrate, h.startedAt hsmall first hfirst]
    rfl
  rw [htime] at hdue
  have hle : (journal.total * 8000000 : Int) / c.probeCluster.targetBitrate <
      atTime - first.2 + 1 := by
    have := of_decide_eq_false hdue
    omega
  have hlt := (Int.ediv_lt_iff_lt_mul hpos).1 hle
  rwa [mul_comm (atTime - first.2 + 1)] at hlt

/-- The rates of the clusters are positive and finite. -/
def Rated (s : BitrateProber) : Prop :=
  ∀ c ∈ s.clusters, 0 < c.probeCluster.targetBitrate ∧ c.probeCluster.targetBitrate < 2 ^ 63

theorem Rated.step (h : Rated s) (hop : op.InRange) : Rated (s.step op).1 := by
  intro c hc
  rcases targetBitrate_step hc with ⟨old, hold, hrate⟩ | ⟨_, _, _, rfl, hne, hrate⟩
  · rw [hrate]
    exact h old hold
  · rw [hrate]
    have hmax : _ < (2 ^ 63 - 1 : Int) := hop.2
    exact ⟨lt_of_le_of_ne hop.1 hne.symm, hmax.trans (Int.sub_one_lt_of_le le_rfl)⟩

end

/-! ## Runs -/

/-- A cluster may leave: all its probes were sent, or it is older than five seconds, or its probe is
late. -/
def Excused (s : BitrateProber) (op : Op) (x : ProbeClusterInfo × Journal) : Prop :=
  (x.1.probeCluster.minBytes ≤ x.2.total ∧ x.1.probeCluster.minProbes ≤ x.2.length) ∨
    (∃ clusterId targetBitrate atTime, op = .addProbeCluster clusterId targetBitrate atTime ∧
      x.1.expiredAt atTime = true) ∨
    ∃ atTime, op = .currentProbeCluster atTime ∧ s.isProbeLate atTime = true

/-- `OnProbeSent` is called when the probe is due. -/
def Timely (s : BitrateProber) : Op → Prop
  | .onProbeSent _ atTime => (UnitValue.micros atTime).lt s.nextTimeToProbe = false
  | _ => True

/-- The bytes sent before the probe of a call are within the rate of the cluster. -/
def KeepsRate (s : BitrateProber) (journals : List Journal) : Op → Prop
  | .onProbeSent sentBytes atTime =>
    s.probes sentBytes = true →
      ∀ c ∈ s.clusters.head?, ∀ journal ∈ journals.head?, WithinRate c journal atTime
  | _ => True

/-- The cluster in front has sent so little that its division is in range. -/
def FrontDivisible (s : BitrateProber) (journals : List Journal) : Prop :=
  ∀ c ∈ s.clusters.head?, ∀ journal ∈ journals.head?,
    Divisible journal.total c.probeCluster.targetBitrate

instance (bytes : Nat) (rate : DataRate) : Decidable (Divisible bytes rate) :=
  inferInstanceAs (Decidable (_ ∧ _))

instance (c : ProbeClusterInfo) (journal : Journal) (atTime : Int) :
    Decidable (WithinRate c journal atTime) :=
  inferInstanceAs (Decidable (∀ first ∈ journal.head?, _))

instance (s : BitrateProber) : ∀ op, Decidable (s.Timely op)
  | .onProbeSent _ _ => inferInstanceAs (Decidable (_ = _))
  | .setEnabled _ | .addProbeCluster _ _ _ | .onIncomingPacket _ | .currentProbeCluster _
  | .nextTimeToProbe _ => .isTrue trivial

instance (s : BitrateProber) (journals : List Journal) : ∀ op, Decidable (s.KeepsRate journals op)
  | .onProbeSent _ _ => inferInstanceAs (Decidable (_ = _ → _))
  | .setEnabled _ | .addProbeCluster _ _ _ | .onIncomingPacket _ | .currentProbeCluster _
  | .nextTimeToProbe _ => .isTrue trivial

section

variable {s : BitrateProber} {journals : List Journal}

theorem leaves_excused (h : List.Forall₂ Tracks s.clusters journals) (op : Op)
    {x : ProbeClusterInfo × Journal}
    (hx : x ∈ ((s.recorded op).zip (s.recordedJournals journals op)).take (s.leaving op)) :
    Excused s op x := by
  obtain ⟨c, journal⟩ := x
  have htracks : Tracks c journal :=
    List.forall₂_zip (tracks_recorded h op) (List.mem_of_mem_take hx)
  have hx : (c, journal) ∈ ((s.recorded op).take (s.leaving op)).zip
      ((s.recordedJournals journals op).take (s.leaving op)) := by
    rw [List.zip, ← List.take_zipWith]
    exact hx
  have hleaves := (step_clusters s op).2 c (List.of_mem_zip hx).1
  cases op with
  | addProbeCluster clusterId targetBitrate atTime =>
    exact Or.inr (Or.inl ⟨clusterId, targetBitrate, atTime, rfl, hleaves⟩)
  | currentProbeCluster atTime => exact Or.inr (Or.inr ⟨atTime, rfl, hleaves⟩)
  | onProbeSent sentBytes atTime =>
    obtain ⟨hprobes, hbytes⟩ := of_decide_eq_true (show _ = true from hleaves)
    rw [htracks.sentBytes] at hbytes
    rw [htracks.sentProbes] at hprobes
    exact Or.inl ⟨hbytes.trans (Nat.mod_le _ _), hprobes⟩
  | setEnabled enabled => exact hleaves.elim
  | onIncomingPacket packetSize => exact hleaves.elim
  | nextTimeToProbe atTime => exact hleaves.elim

theorem Scheduled.keepsRate (h : Scheduled s) (hrated : Rated s)
    (htracks : List.Forall₂ Tracks s.clusters journals) {op : Op} (htimely : s.Timely op)
    (htime : s.nextTimeToProbe ≠ .minusInfinity) (hdiv : s.FrontDivisible journals) :
    s.KeepsRate journals op := by
  cases op <;> try trivial
  case onProbeSent sentBytes atTime =>
    intro hprobes c hc journal hjournal
    have hactive := (of_decide_eq_true hprobes).1
    have hfront : Tracks c journal := by
      generalize s.clusters = clusters at htracks hc
      cases htracks with
      | nil => cases hc
      | cons hfront hrest =>
        cases hc
        cases hjournal
        exact hfront
    by_cases hnil : journal = []
    · intro first hfirst
      rw [hnil] at hfirst
      cases hfirst
    · have hsent : c.probeCluster.sentProbes ≠ 0 := by
        rw [hfront.sentProbes]
        simpa using hnil
      obtain ⟨hpos, hrate⟩ := hrated c (List.mem_of_mem_head? hc)
      refine hfront.withinRate hpos hrate (hdiv c hc journal hjournal) ?_
      rw [← (h.due hactive c hc hsent).resolve_left htime]
      exact htimely

end

/-- **The law of the prober.**  After every run, an active prober has a cluster, and what a call
takes out of the queue it may take out.  A probe that is due finds its cluster within the rate,
where the division is in range and the prober was not activated since the last probe; for that to
happen probing must have been disabled. -/
theorem probing_law (config : Configuration) (ops : List Op) (hrange : ∀ op ∈ ops, op.InRange) :
    let p := journalMachine.final (create config, []) ops
    (p.1.probingState = .active → p.1.clusters ≠ []) ∧
      List.Forall₂ Tracks p.1.clusters p.2 ∧
      (∀ op, (p.1.step op).1.clusters =
          (p.1.recorded op).drop (p.1.leaving op) ++ p.1.entering op ∧
        ∀ x ∈ ((p.1.recorded op).zip (p.1.recordedJournals p.2 op)).take (p.1.leaving op),
          Excused p.1 op x) ∧
      (∀ op, p.1.Timely op → p.1.nextTimeToProbe ≠ .minusInfinity → p.1.FrontDivisible p.2 →
        p.1.KeepsRate p.2 op) ∧
      ((∀ op ∈ ops, op ≠ .setEnabled false) → p.1.probingState = .active →
        ∀ journal ∈ p.2.head?, journal ≠ [] → p.1.nextTimeToProbe ≠ .minusInfinity) := by
  intro p
  have hgood : journalMachine.AllGood (fun _ op => op.InRange) (create config, []) ops :=
    journalMachine.allGood_inputs.2 hrange
  obtain ⟨hsched, hrated, htracks⟩ : Scheduled p.1 ∧ Rated p.1 ∧
      List.Forall₂ Tracks p.1.clusters p.2 :=
    journalMachine.invariant_final
      (P := fun p => Scheduled p.1 ∧ Rated p.1 ∧ List.Forall₂ Tracks p.1.clusters p.2)
      (fun p op h hop => ⟨h.1.step op, h.2.1.step hop, tracks_step h.2.2 op⟩)
      ⟨create_scheduled config, fun _ hc => absurd hc List.not_mem_nil, List.Forall₂.nil⟩ hgood
  refine ⟨hsched.nonempty, htracks,
    fun op => ⟨(step_clusters p.1 op).1, fun x => leaves_excused htracks op⟩,
    fun op => hsched.keepsRate hrated htracks, ?_⟩
  intro henabled hactive journal hjournal hne
  have hgood : journalMachine.AllGood (fun _ op => op ≠ .setEnabled false) (create config, [])
      ops := journalMachine.allGood_inputs.2 henabled
  have hundisturbed : Undisturbed p.1 :=
    (journalMachine.invariant_final (P := fun p => Scheduled p.1 ∧ Undisturbed p.1)
      (fun p op h hop => ⟨h.1.step op, h.2.step h.1 hop⟩)
      ⟨create_scheduled config, create_undisturbed config⟩ hgood).2
  generalize hclusters : p.1.clusters = clusters at htracks
  generalize p.2 = journals at htracks hjournal
  cases htracks with
  | nil => cases hjournal
  | @cons front _ _ _ hfront hrest =>
    cases hjournal
    refine hundisturbed.finite hactive front (by simp [hclusters]) ?_
    rw [hfront.sentProbes]
    simpa using hne

/-- A cluster of 800 kbps, the first probe of 1500 bytes sent at once. -/
def oneProbe (sentBytes : Nat) : List Op :=
  [.addProbeCluster 0 800000 0, .onIncomingPacket 1000, .onProbeSent sentBytes 0]

/-- `probing_law` on a run whose second probe is due 15 milliseconds after the first. -/
theorem probing_law_two_probes :
    let p := journalMachine.final (create {}, []) (oneProbe 1500)
    p.1.KeepsRate p.2 (.onProbeSent 1500 15000) ∧ p.1.nextTimeToProbe = .micros 15000 := by
  have hnext : (journalMachine.final (create {}, []) (oneProbe 1500)).1.nextTimeToProbe =
      .micros 15000 := by decide +kernel
  refine ⟨(probing_law {} (oneProbe 1500) ?_).2.2.2.1 _ ?_ ?_ ?_, hnext⟩
  · intro op hop
    simp only [oneProbe, List.mem_cons, List.not_mem_nil, or_false] at hop
    rcases hop with rfl | rfl | rfl
    · exact ⟨by decide, by decide⟩
    · trivial
    · trivial
  · decide +kernel
  · rw [hnext]
    simp
  · unfold FrontDivisible
    decide +kernel

/-- Every probe of these two runs is due, and the second one is too fast.  In the first run probing
is disabled and enabled between them, so that the packet that comes activates the prober again; in
the second one the bytes of the first probe, in bits, do not fit `size_t`. -/
theorem second_probe_too_fast :
    let resumed : List Op := oneProbe 1500 ++
      [.setEnabled false, .setEnabled true, .onIncomingPacket 1000, .onProbeSent 1500 1]
    let wrapped : List Op := oneProbe (2 ^ 61) ++ [.onProbeSent 1500 1]
    (journalMachine.AllGood (fun p op => p.1.Timely op) (create {}, []) resumed ∧
        ¬journalMachine.AllGood (fun p op => p.1.KeepsRate p.2 op) (create {}, []) resumed) ∧
      journalMachine.AllGood (fun p op => p.1.Timely op) (create {}, []) wrapped ∧
        ¬journalMachine.AllGood (fun p op => p.1.KeepsRate p.2 op) (create {}, []) wrapped := by
  decide +kernel

end BitrateProber

end NaiveRtc.Pacing
