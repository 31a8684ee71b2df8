import NaiveRtc.CongestionControl.SendSideBwe
import NaiveRtc.Lib.CheckedMachine

/-!
# When the bitrate is probed

The model of `rtc/congestion_control/send_side/goog_cc/probe/probe_controller.cpp`: six methods
that start, extend or end a probing, all through one initialiser that caps what they ask for.

* `Configuration`, `ProbeController`, the `on…` methods, `requestProbe`, `reset` — the class.
  Products with a `double` are functions of the configuration.  The assertions are left out, so
  that every run that passes them is a run here.
* `controller` — runs of the public methods.  Two things stop a run: an identifier that leaves
  `int32_t`, and a mid-call probing that is read when there is none.
* `Does`, `step_does` — all that a call can do.
* `onMaxTotalAllocatedBitrate_again` — when the same allocation, given twice, probes twice.
* `probe_controller_law` — identifiers, caps and the bitrate to probe further over whole runs.
-/

namespace NaiveRtc.CongestionControl

/-- The packets of a probing, at least. -/
def kMinProbePacketsSent : Int := 5

/-- Its duration, at least. -/
def kMinProbeInterval : TimeDelta := .micros 15000

/-- How long a result is awaited. -/
def kMaxWaitingTimeForProbingResult : TimeDelta := .micros 1000000

/-- The maximum while none is given. -/
def kDefaultMaxProbingBitrate : DataRate := 5000000

/-- A recovery within this time after a large drop is probed. -/
def kBitrateDropTimeout : TimeDelta := .micros 5000000

/-- So long after the end of ALR it is probed, too. -/
def kAlrEndedTimeout : TimeDelta := .micros 3000000

/-- The time between two requested probings, at least. -/
def kMinTimeBetweenAlrProbes : TimeDelta := .micros 5000000

/-- `ProbeClusterConfig`. -/
structure ProbeClusterConfig where
  id : Int
  targetProbeCount : Int
  targetBitrate : DataRate
  targetInterval : TimeDelta
  atTime : Timestamp
  deriving DecidableEq

/-! ## The class -/

/-- A `double` that scales rates: whether it is above zero, and its product with a rate. -/
structure Scale where
  positive : Bool
  times : DataRate → DataRate

/-- A scale in hundredths, taken exactly and rounded. -/
def Scale.hundredths (n : Int) : Scale :=
  { positive := 0 < n
    times := fun rate => (n * rate + 50) / 100 }

/-- `ProbeController::Configuration`, and the scales among the constants of the file. -/
structure ProbeController.Configuration where
  firstExponentialProbeScale : Scale
  secondExponentialProbeScale : Scale
  furtherExponentialProbeScale : Scale
  furtherProbeScale : Scale
  alrProbingInterval : TimeDelta
  alrProbeScale : Scale
  firstAllocationProbeScale : Scale
  secondAllocationProbeScale : Scale
  allocationAllowFurtherProbing : Bool
  allocationProbeCap : DataRate
  limitProbesWithAllocatableBitrate : Bool
  /-- `kBitrateDropThreshold`. -/
  bitrateDropThreshold : Scale
  /-- `kProbeFractionAfterDrop`. -/
  probeFractionAfterDrop : Scale
  /-- `1 - kProbeUncertainty`. -/
  probeCertainty : Scale
  /-- The `1.2` and the `0.9` of `OnBitrates`. -/
  estimateJump : Scale
  nearMaximum : Scale

/-- The default configuration. -/
def ProbeController.Configuration.default : ProbeController.Configuration :=
  { firstExponentialProbeScale := .hundredths 300
    secondExponentialProbeScale := .hundredths 600
    furtherExponentialProbeScale := .hundredths 200
    furtherProbeScale := .hundredths 70
    alrProbingInterval := .micros 5000000
    alrProbeScale := .hundredths 200
    firstAllocationProbeScale := .hundredths 100
    secondAllocationProbeScale := .hundredths 200
    allocationAllowFurtherProbing := false
    allocationProbeCap := DataRate.plusInfinity
    limitProbesWithAllocatableBitrate := true
    bitrateDropThreshold := .hundredths 66
    probeFractionAfterDrop := .hundredths 85
    probeCertainty := .hundredths 95
    estimateJump := .hundredths 120
    nearMaximum := .hundredths 90 }

/-- `ProbingState`. -/
inductive ProbingState
  | new
  | waiting
  | done
  deriving DecidableEq

/-- `MidCallProbing`. -/
structure MidCallProbing where
  probingState : ProbingState
  bitrateToProbe : DataRate
  successThreshold : DataRate
  deriving DecidableEq

/-- `ProbeController`. -/
structure ProbeController where
  enablePeriodicAlrProbing : Bool
  networkAvailable : Bool
  probingState : ProbingState
  startBitrate : DataRate
  estimatedBitrate : DataRate
  maxBitrate : DataRate
  maxTotalAllocatedBitrate : DataRate
  timeLastProbingInitiated : Timestamp
  timeLastLargeDrop : Timestamp
  timeLastProbeRequest : Timestamp
  bitrateBeforeLastLargeDrop : DataRate
  minBitrateToProbeFurther : Option DataRate
  midCallProbing : Option MidCallProbing
  nextProbeClusterId : Int
  alrStartTime : Option Timestamp
  alrEndTime : Option Timestamp
  deriving DecidableEq

/-- What stops a call. -/
inductive ProbeController.Fault
  /-- `next_probe_cluster_id_` leaves `int32_t`. -/
  | overflow
  /-- `mid_call_probing_` is read when it is empty. -/
  | emptyMidCallProbing
  deriving DecidableEq

namespace ProbeController

/-- `ProbeController(config)`. -/
def create : ProbeController :=
  { enablePeriodicAlrProbing := false
    networkAvailable := true
    probingState := .new
    startBitrate := 0
    estimatedBitrate := 0
    maxBitrate := 0
    maxTotalAllocatedBitrate := 0
    timeLastProbingInitiated := .micros 0
    timeLastLargeDrop := .micros 0
    timeLastProbeRequest := .micros 0
    bitrateBeforeLastLargeDrop := 0
    minBitrateToProbeFurther := none
    midCallProbing := none
    nextProbeClusterId := 1
    alrStartTime := none
    alrEndTime := none }

/-- `max_bitrate_`, or its default while none is known. -/
def maxBitrateOrDefault (s : ProbeController) : DataRate :=
  if s.maxBitrate ≠ 0 then s.maxBitrate else kDefaultMaxProbingBitrate

/-- The `max_probe_bitrate` of `InitProbing`. -/
def maxProbeBitrate (config : Configuration) (s : ProbeController) : DataRate :=
  if config.limitProbesWithAllocatableBitrate = true ∧ 0 < s.maxTotalAllocatedBitrate then
    min s.maxBitrateOrDefault (s.maxTotalAllocatedBitrate * 2)
  else s.maxBitrateOrDefault

/-- The loop of `InitProbing`: one cluster for each bitrate, from an identifier on. -/
def makeClusters (maxProbeBitrate : DataRate) (atTime : Timestamp) (id : Int) :
    List DataRate → Except Fault (List ProbeClusterConfig)
  | [] => .ok []
  | bitrate :: bitrates =>
    if 2 ^ 31 - 1 ≤ id then .error .overflow
    else
      let cluster : ProbeClusterConfig :=
        { id := id
          targetProbeCount := kMinProbePacketsSent
          targetBitrate := if maxProbeBitrate < bitrate then maxProbeBitrate else bitrate
          targetInterval := kMinProbeInterval
          atTime := atTime }
      (makeClusters maxProbeBitrate atTime (id + 1) bitrates).map (cluster :: ·)

/-- What `InitProbing` leaves behind. -/
def probed (config : Configuration) (s : ProbeController) (bitratesToProbe : List DataRate)
    (probeFurther : Bool) (atTime : Timestamp) : ProbeController :=
  -- a target above the cap ends the probing with this round
  let probeFurther :=
    probeFurther && bitratesToProbe.all fun bitrate => bitrate ≤ s.maxProbeBitrate config
  let maxBitrate := bitratesToProbe.foldl max 0
  { s with
    nextProbeClusterId := s.nextProbeClusterId + bitratesToProbe.length
    timeLastProbingInitiated := atTime
    probingState := if probeFurther then .waiting else .done
    minBitrateToProbeFurther :=
      if probeFurther then
        if maxBitrate ≠ 0 then some (config.furtherProbeScale.times maxBitrate)
        else s.minBitrateToProbeFurther
      else none }

/-- `InitProbing(bitrates_to_probe, probe_further, at_time)`. -/
def initProbing (config : Configuration) (s : ProbeController) (bitratesToProbe : List DataRate)
    (probeFurther : Bool) (atTime : Timestamp) :
    Except Fault (ProbeController × List ProbeClusterConfig) :=
  (makeClusters (s.maxProbeBitrate config) atTime s.nextProbeClusterId bitratesToProbe).map
    fun clusters => (s.probed config bitratesToProbe probeFurther atTime, clusters)

/-- `InitExponentialProbing(at_time)`. -/
def initExponentialProbing (config : Configuration) (s : ProbeController) (atTime : Timestamp) :
    Except Fault (ProbeController × List ProbeClusterConfig) :=
  let first := config.firstExponentialProbeScale
  let second := config.secondExponentialProbeScale
  let bitratesToProbe := (if first.positive then [first.times s.startBitrate] else []) ++
    (if second.positive then [second.times s.startBitrate] else [])
  s.initProbing config bitratesToProbe true atTime

/-- `InAlr()`. -/
def inAlr (s : ProbeController) : Bool := s.alrStartTime.isSome

/-- The start of `OnBitrates`. -/
def storeBitrates (s : ProbeController) (startBitrate minBitrate maxBitrate : DataRate) :
    ProbeController :=
  let s := if startBitrate = 0 then { s with startBitrate := minBitrate } else s
  let s := if 0 < startBitrate then
      { s with startBitrate := startBitrate, estimatedBitrate := startBitrate }
    else s
  { s with maxBitrate := maxBitrate }

/-- `OnBitrates(start_bitrate, min_bitrate, max_bitrate, at_time)`. -/
def onBitrates (config : Configuration) (s : ProbeController)
    (startBitrate minBitrate maxBitrate : DataRate) (atTime : Timestamp) :
    Except Fault (ProbeController × List ProbeClusterConfig) :=
  let oldMaxBitrate := s.maxBitrate
  let s := s.storeBitrates startBitrate minBitrate maxBitrate
  match s.probingState with
  | .new => if s.networkAvailable then s.initExponentialProbing config atTime else .ok (s, [])
  | .waiting => .ok (s, [])
  | .done =>
    if s.estimatedBitrate ≠ 0 ∧ oldMaxBitrate < s.maxBitrate ∧
        s.estimatedBitrate < s.maxBitrate then
      let midCallProbing : MidCallProbing :=
        { probingState := .waiting
          bitrateToProbe := s.maxBitrate
          successThreshold := min (config.estimateJump.times s.estimatedBitrate)
            (config.nearMaximum.times maxBitrate) }
      { s with midCallProbing := some midCallProbing }.initProbing config [maxBitrate] false atTime
    else .ok (s, [])

/-- The conditions under which an allocation is probed. -/
def probesAllocation (s : ProbeController) (maxTotalAllocatedBitrate : DataRate) : Bool :=
  s.inAlr && s.probingState == .done && s.maxTotalAllocatedBitrate != maxTotalAllocatedBitrate &&
    s.estimatedBitrate != 0 &&
    (!s.maxBitrate.isFinite || s.estimatedBitrate < s.maxBitrate) &&
    s.estimatedBitrate < maxTotalAllocatedBitrate

/-- The `pending_probes` of an allocation. -/
def allocationProbes (config : Configuration) (maxTotalAllocatedBitrate : DataRate) :
    List DataRate :=
  let probeCap := config.allocationProbeCap
  let first := min (config.firstAllocationProbeScale.times maxTotalAllocatedBitrate) probeCap
  let second := min (config.secondAllocationProbeScale.times maxTotalAllocatedBitrate) probeCap
  first :: if config.secondAllocationProbeScale.positive = true ∧ first < second then [second]
    else []

/-- `OnMaxTotalAllocatedBitrate(max_total_allocated_bitrate, at_time)`. -/
def onMaxTotalAllocatedBitrate (config : Configuration) (s : ProbeController)
    (maxTotalAllocatedBitrate : DataRate) (atTime : Timestamp) :
    Except Fault (ProbeController × List ProbeClusterConfig) :=
  if s.probesAllocation maxTotalAllocatedBitrate then
    -- the new allocation is not stored on this branch
    if config.firstAllocationProbeScale.positive then
      s.initProbing config (allocationProbes config maxTotalAllocatedBitrate)
        config.allocationAllowFurtherProbing atTime
    else .ok (s, [])
  else .ok ({ s with maxTotalAllocatedBitrate := maxTotalAllocatedBitrate }, [])

/-- The start of `OnNetworkAvailability`: without a network no probing goes on. -/
def storeNetworkAvailability (s : ProbeController) (networkAvailable : Bool) : ProbeController :=
  let s := { s with networkAvailable := networkAvailable }
  if s.networkAvailable = false ∧ s.probingState = .waiting then
    { s with probingState := .done, minBitrateToProbeFurther := none }
  else s

/-- `OnNetworkAvailability(msg)`. -/
def onNetworkAvailability (config : Configuration) (s : ProbeController) (networkAvailable : Bool)
    (atTime : Timestamp) : Except Fault (ProbeController × List ProbeClusterConfig) :=
  let s := s.storeNetworkAvailability networkAvailable
  if s.networkAvailable = true ∧ s.probingState = .new ∧ 0 < s.startBitrate then
    s.initExponentialProbing config atTime
  else .ok (s, [])

/-- The further probing of `OnEstimatedBitrate`. -/
def continueProbing (config : Configuration) (s : ProbeController) (estimate : DataRate)
    (atTime : Timestamp) : Except Fault (ProbeController × List ProbeClusterConfig) :=
  match s.probingState, s.minBitrateToProbeFurther with
  | .waiting, some minBitrateToProbeFurther =>
    if minBitrateToProbeFurther < estimate then
      s.initProbing config [config.furtherExponentialProbeScale.times estimate] true atTime
    else .ok (s, [])
  | _, _ => .ok (s, [])

/-- The end of `OnEstimatedBitrate`. -/
def storeEstimate (config : Configuration) (s : ProbeController) (estimate : DataRate)
    (atTime : Timestamp) : ProbeController :=
  let s := if estimate < config.bitrateDropThreshold.times s.estimatedBitrate then
      { s with timeLastLargeDrop := atTime, bitrateBeforeLastLargeDrop := s.estimatedBitrate }
    else s
  { s with estimatedBitrate := estimate }

/-- `OnEstimatedBitrate(estimate, at_time)`.  The mid-call probing is read without a check. -/
def onEstimatedBitrate (config : Configuration) (s : ProbeController) (estimate : DataRate)
    (atTime : Timestamp) : Except Fault (ProbeController × List ProbeClusterConfig) :=
  match s.midCallProbing with
  | none => .error .emptyMidCallProbing
  | some midCallProbing =>
    let successful := midCallProbing.probingState = .waiting ∧
      midCallProbing.successThreshold < estimate
    let s := { s with midCallProbing := if successful then none else some midCallProbing }
    (s.continueProbing config estimate atTime).map fun (s, pendingProbes) =>
      (s.storeEstimate config estimate atTime, pendingProbes)

/-- The start of `OnPeriodicProcess`: a probing without a result is given up. -/
def checkTimeout (s : ProbeController) (atTime : Timestamp) : ProbeController :=
  if kMaxWaitingTimeForProbingResult.lt (atTime.sub s.timeLastProbingInitiated) then
    let s := { s with midCallProbing := none }
    if s.probingState = .waiting then
      { s with probingState := .done, minBitrateToProbeFurther := none }
    else s
  else s

/-- `OnPeriodicProcess(at_time)`. -/
def onPeriodicProcess (config : Configuration) (s : ProbeController) (atTime : Timestamp) :
    Except Fault (ProbeController × List ProbeClusterConfig) :=
  let s := s.checkTimeout atTime
  match s.alrStartTime with
  | none => .ok (s, [])
  | some alrStartTime =>
    let timeToNextProbe :=
      (alrStartTime.max s.timeLastProbingInitiated).add config.alrProbingInterval
    if s.enablePeriodicAlrProbing = true ∧ s.probingState = .done ∧ s.estimatedBitrate ≠ 0 ∧
        atTime.lt timeToNextProbe = false then
      s.initProbing config [config.alrProbeScale.times s.estimatedBitrate] true atTime
    else .ok (s, [])

/-- `RequestProbe(at_time)`. -/
def requestProbe (config : Configuration) (s : ProbeController) (atTime : Timestamp) :
    Except Fault (ProbeController × List ProbeClusterConfig) :=
  let alrEndedRecently := s.alrEndTime.any fun alrEndTime =>
    (atTime.sub alrEndTime).lt kAlrEndedTimeout
  let bitrateToProbe := config.probeFractionAfterDrop.times s.bitrateBeforeLastLargeDrop
  let minExpectedProbeBitrate := config.probeCertainty.times bitrateToProbe
  let intervalSinceLastDrop := atTime.sub s.timeLastLargeDrop
  let intervalSinceLastRequest := atTime.sub s.timeLastProbeRequest
  if (s.inAlr = true ∨ alrEndedRecently = true) ∧ s.probingState = .done ∧
      s.estimatedBitrate < minExpectedProbeBitrate ∧
      intervalSinceLastDrop.lt kBitrateDropTimeout = true ∧
      kMinTimeBetweenAlrProbes.lt intervalSinceLastRequest = true then
    { s with timeLastProbeRequest := atTime }.initProbing config [bitrateToProbe] false atTime
  else .ok (s, [])

/-- `Reset(at_time)`. -/
def reset (s : ProbeController) (atTime : Timestamp) : ProbeController :=
  { s with
    networkAvailable := true
    probingState := .new
    startBitrate := 0
    estimatedBitrate := 0
    maxBitrate := 0
    maxTotalAllocatedBitrate := 0
    timeLastProbingInitiated := .micros 0
    timeLastLargeDrop := atTime
    timeLastProbeRequest := atTime
    bitrateBeforeLastLargeDrop := 0
    minBitrateToProbeFurther := none
    midCallProbing := none
    alrEndTime := none }

/-- A call of a public method. -/
inductive Call
  | setEnablePeriodicAlrProbing (enable : Bool)
  | setAlrStartTime (startTime : Option Timestamp)
  | setAlrEndTime (endTime : Timestamp)
  | onBitrates (startBitrate minBitrate maxBitrate : DataRate) (atTime : Timestamp)
  | onMaxTotalAllocatedBitrate (maxTotalAllocatedBitrate : DataRate) (atTime : Timestamp)
  | onNetworkAvailability (networkAvailable : Bool) (atTime : Timestamp)
  | onEstimatedBitrate (estimate : DataRate) (atTime : Timestamp)
  | onPeriodicProcess (atTime : Timestamp)
  | requestProbe (atTime : Timestamp)
  | reset (atTime : Timestamp)

/-- A controller and the calls made on it. -/
def controller (config : Configuration) :
    CheckedMachine ProbeController Call (List ProbeClusterConfig) Fault where
  step s
    | .setEnablePeriodicAlrProbing enable => .ok ({ s with enablePeriodicAlrProbing := enable }, [])
    | .setAlrStartTime startTime => .ok ({ s with alrStartTime := startTime }, [])
    | .setAlrEndTime endTime => .ok ({ s with alrEndTime := some endTime }, [])
    | .onBitrates startBitrate minBitrate maxBitrate atTime =>
      s.onBitrates config startBitrate minBitrate maxBitrate atTime
    | .onMaxTotalAllocatedBitrate maxTotalAllocatedBitrate atTime =>
      s.onMaxTotalAllocatedBitrate config maxTotalAllocatedBitrate atTime
    | .onNetworkAvailability networkAvailable atTime =>
      s.onNetworkAvailability config networkAvailable atTime
    | .onEstimatedBitrate estimate atTime => s.onEstimatedBitrate config estimate atTime
    | .onPeriodicProcess atTime => s.onPeriodicProcess config atTime
    | .requestProbe atTime => s.requestProbe config atTime
    | .reset atTime => .ok (s.reset atTime, [])

/-! ## One probing -/

/-- Clusters with increasing identifiers, from one identifier on and below another. -/
structure Numbered (first : Int) (clusters : List ProbeClusterConfig) (next : Int) : Prop where
  le : first ≤ next
  mem : ∀ c ∈ clusters, first ≤ c.id ∧ c.id < next
  increasing : (clusters.map fun c => c.id).Pairwise (· < ·)

theorem Numbered.nil (first : Int) : Numbered first [] first :=
  ⟨le_refl _, by simp, List.Pairwise.nil⟩

theorem Numbered.append {a b c : Int} {l l' : List ProbeClusterConfig} (h : Numbered a l b)
    (h' : Numbered b l' c) : Numbered a (l ++ l') c := by
  refine ⟨h.le.trans h'.le, fun x hx => ?_, ?_⟩
  · rcases List.mem_append.1 hx with hx | hx
    · exact ⟨(h.mem x hx).1, (h.mem x hx).2.trans_le h'.le⟩
    · exact ⟨h.le.trans (h'.mem x hx).1, (h'.mem x hx).2⟩
  · rw [List.map_append, List.pairwise_append]
    refine ⟨h.increasing, h'.increasing, fun i hi j hj => ?_⟩
    obtain ⟨x, hx, rfl⟩ := List.mem_map.1 hi
    obtain ⟨y, hy, rfl⟩ := List.mem_map.1 hj
    exact (h.mem x hx).2.trans_le (h'.mem y hy).1

/-- The bitrate to probe further is there only while a result is awaited. -/
def Settled (s : ProbeController) : Prop :=
  s.minBitrateToProbeFurther.isSome = true → s.probingState = .waiting

/-- What a call leaves behind: clusters numbered on and capped, a settled state, and an
allocation. -/
structure Stepped (config : Configuration) (first : Int) (allocation : DataRate)
    (s' : ProbeController) (out : List ProbeClusterConfig) : Prop where
  numbered : Numbered first out s'.nextProbeClusterId
  capped : ∀ c ∈ out, c.targetBitrate ≤ s'.maxProbeBitrate config
  settled : s'.Settled
  allocation_eq : s'.maxTotalAllocatedBitrate = allocation

variable {config : Configuration} {s s' : ProbeController} {out : List ProbeClusterConfig}
  {atTime : Timestamp}

variable {bitrates : List DataRate}

theorem makeClusters_spec {cap : DataRate} {id : Int}
    (h : makeClusters cap atTime id bitrates = .ok out) :
    Numbered id out (id + bitrates.length) ∧ out.length = bitrates.length ∧
      ∀ c ∈ out, c.targetBitrate ≤ cap := by
  induction bitrates generalizing id out with
  | nil =>
    cases h
    exact ⟨by simpa using Numbered.nil id, rfl, by simp⟩
  | cons bitrate bitrates ih =>
    rw [makeClusters] at h
    split at h
    case isTrue => cases h
    obtain ⟨rest, hrest, rfl⟩ := CheckedMachine.map_ok h
    obtain ⟨hnumbered, hlen, hcap⟩ := ih hrest
    refine ⟨?_, by simp [hlen], ?_⟩
    · refine Numbered.append (b := id + 1) (l := [_])
        ⟨by omega, List.forall_mem_singleton.2 ⟨le_refl _, Int.lt_succ id⟩, by simp⟩ ?_
      have hnext : id + 1 + (bitrates.length : Int) = id + ((bitrates.length + 1 : Nat) : Int) := by
        omega
      rwa [List.length_cons, ← hnext]
    · intro c hc
      rcases List.mem_cons.1 hc with rfl | hc
      · dsimp only
        split_ifs with hlt
        · exact le_refl _
        · exact not_lt.1 hlt
      · exact hcap c hc

variable {further : Bool}

theorem initProbing_ok (h : s.initProbing config bitrates further atTime = .ok (s', out)) :
    s' = s.probed config bitrates further atTime ∧
      makeClusters (s.maxProbeBitrate config) atTime s.nextProbeClusterId bitrates = .ok out := by
  obtain ⟨clusters, hclusters, heq⟩ := CheckedMachine.map_ok h
  cases heq
  exact ⟨rfl, hclusters⟩

theorem settled_probed (bitrates : List DataRate) (further : Bool) :
    (s.probed config bitrates further atTime).Settled := by
  unfold Settled probed
  dsimp only
  split_ifs <;> simp

theorem makeClusters_ne_empty {cap : DataRate} {id : Int} :
    makeClusters cap atTime id bitrates ≠ .error .emptyMidCallProbing := by
  induction bitrates generalizing id with
  | nil => exact (nomatch ·)
  | cons bitrate bitrates ih =>
    rw [makeClusters]
    split
    · exact (nomatch ·)
    · exact fun h => ih (CheckedMachine.map_error h)

/-! ## One call -/

/-- The allocation a call leaves behind. -/
def allocationAfter (s : ProbeController) : Call → DataRate
  | .onMaxTotalAllocatedBitrate maxTotalAllocatedBitrate _ =>
    if s.probesAllocation maxTotalAllocatedBitrate then s.maxTotalAllocatedBitrate
    else maxTotalAllocatedBitrate
  | .reset _ => 0
  | _ => s.maxTotalAllocatedBitrate

/-- The mid-call probing a call leaves behind. -/
def midCallAfter (config : Configuration) (s : ProbeController) : Call → Option MidCallProbing
  | .onBitrates startBitrate minBitrate maxBitrate _ =>
    let estimate := (s.storeBitrates startBitrate minBitrate maxBitrate).estimatedBitrate
    if s.probingState = .done ∧ estimate ≠ 0 ∧ s.maxBitrate < maxBitrate ∧
      estimate < maxBitrate then
      some ⟨.waiting, maxBitrate,
        min (config.estimateJump.times estimate) (config.nearMaximum.times maxBitrate)⟩
    else s.midCallProbing
  | .onEstimatedBitrate estimate _ =>
    s.midCallProbing.bind fun m =>
      if m.probingState = .waiting ∧ m.successThreshold < estimate then none else some m
  | .onPeriodicProcess atTime =>
    if kMaxWaitingTimeForProbingResult.lt (atTime.sub s.timeLastProbingInitiated) then none
    else s.midCallProbing
  | .reset _ => none
  | _ => s.midCallProbing

/-- The state in which a call probes, if it does. -/
structure Prepares (config : Configuration) (s : ProbeController) (call : Call)
    (t : ProbeController) : Prop where
  next : t.nextProbeClusterId = s.nextProbeClusterId
  allocation : t.maxTotalAllocatedBitrate = s.allocationAfter call
  midCall : t.midCallProbing = s.midCallAfter config call
  settled : s.Settled → t.Settled

/-- What a call does behind a probing: an estimate is stored. -/
def finishCall (config : Configuration) : Call → ProbeController → ProbeController
  | .onEstimatedBitrate estimate atTime, s => s.storeEstimate config estimate atTime
  | _, s => s

/-- **All that a call can do**: read a mid-call probing that is empty, nothing more than prepare a
probing, or probe. -/
inductive Does (config : Configuration) (s : ProbeController) (call : Call) :
    Except Fault (ProbeController × List ProbeClusterConfig) → Prop
  | empty {estimate : DataRate} {atTime : Timestamp}
      (hcall : call = .onEstimatedBitrate estimate atTime) (hnone : s.midCallProbing = none) :
      Does config s call (.error .emptyMidCallProbing)
  | idle {t : ProbeController} (ht : Prepares config s call t) : Does config s call (.ok (t, []))
  | probes {t : ProbeController} (ht : Prepares config s call t) (bitrates : List DataRate)
      (further : Bool) (atTime : Timestamp) :
      Does config s call
        ((makeClusters (t.maxProbeBitrate config) atTime t.nextProbeClusterId bitrates).map
          fun clusters =>
            (finishCall config call (t.probed config bitrates further atTime), clusters))

variable {t : ProbeController} {call : Call}

theorem Prepares.storeEstimate (h : Prepares config s call t) (estimate : DataRate)
    (atTime : Timestamp) : Prepares config s call (t.storeEstimate config estimate atTime) := by
  obtain ⟨hnext, hallocation, hmidCall, hsettled⟩ := h
  unfold ProbeController.storeEstimate
  split_ifs <;> exact ⟨hnext, hallocation, hmidCall, hsettled⟩

theorem does_initProbing (ht : Prepares config s call t) (hcall : ∀ t, finishCall config call t = t)
    (bitrates : List DataRate) (further : Bool) (atTime : Timestamp) :
    Does config s call (t.initProbing config bitrates further atTime) := by
  have hdoes := Does.probes ht bitrates further atTime
  simp only [hcall] at hdoes
  exact hdoes

theorem storeBitrates_eq (s : ProbeController) (startBitrate minBitrate maxBitrate : DataRate) :
    ∃ start estimate, s.storeBitrates startBitrate minBitrate maxBitrate =
      { s with startBitrate := start, estimatedBitrate := estimate, maxBitrate := maxBitrate } := by
  unfold storeBitrates
  split_ifs <;> exact ⟨_, _, rfl⟩

theorem does_onBitrates (config : Configuration) (s : ProbeController)
    (startBitrate minBitrate maxBitrate : DataRate) (atTime : Timestamp) :
    Does config s (.onBitrates startBitrate minBitrate maxBitrate atTime)
      (s.onBitrates config startBitrate minBitrate maxBitrate atTime) := by
  obtain ⟨start, estimate, hstore⟩ := storeBitrates_eq s startBitrate minBitrate maxBitrate
  have hmid : s.midCallAfter config (.onBitrates startBitrate minBitrate maxBitrate atTime) =
      if s.probingState = .done ∧ estimate ≠ 0 ∧ s.maxBitrate < maxBitrate ∧
        estimate < maxBitrate then
        some ⟨.waiting, maxBitrate,
          min (config.estimateJump.times estimate) (config.nearMaximum.times maxBitrate)⟩
      else s.midCallProbing := by
    unfold midCallAfter
    dsimp only
    rw [hstore]
  unfold onBitrates
  dsimp only
  rw [hstore]
  dsimp only
  split
  case h_1 hstate =>
    have hkept := hmid.trans (if_neg (by simp [hstate]))
    split
    · refine does_initProbing ?_ (fun _ => rfl) _ _ _
      exact ⟨rfl, rfl, hkept.symm, id⟩
    · exact .idle ⟨rfl, rfl, hkept.symm, id⟩
  case h_2 hstate => exact .idle ⟨rfl, rfl, (hmid.trans (if_neg (by simp [hstate]))).symm, id⟩
  case h_3 hstate =>
    split
    case isTrue hraised =>
      refine does_initProbing ?_ (fun _ => rfl) _ _ _
      exact ⟨rfl, rfl, (hmid.trans (if_pos ⟨hstate, hraised⟩)).symm, id⟩
    case isFalse hraised =>
      exact .idle ⟨rfl, rfl, (hmid.trans (if_neg fun h => hraised h.2)).symm, id⟩

theorem does_onEstimatedBitrate (config : Configuration) (s : ProbeController)
    (estimate : DataRate) (atTime : Timestamp) :
    Does config s (.onEstimatedBitrate estimate atTime)
      (s.onEstimatedBitrate config estimate atTime) := by
  unfold onEstimatedBitrate
  cases hmid : s.midCallProbing with
  | none => exact .empty rfl hmid
  | some m =>
    dsimp only
    have hprepares : Prepares config s (.onEstimatedBitrate estimate atTime)
        { s with midCallProbing :=
          if m.probingState = .waiting ∧ m.successThreshold < estimate then none else some m } :=
      ⟨rfl, rfl, by simp [midCallAfter, hmid], id⟩
    unfold continueProbing
    split
    · split
      · unfold initProbing
        rw [CheckedMachine.map_map]
        exact .probes hprepares _ _ _
      · exact .idle (hprepares.storeEstimate estimate atTime)
    · exact .idle (hprepares.storeEstimate estimate atTime)

theorem prepares_checkTimeout (config : Configuration) (s : ProbeController) (atTime : Timestamp) :
    Prepares config s (.onPeriodicProcess atTime) (s.checkTimeout atTime) := by
  unfold checkTimeout
  split
  case isTrue hlate =>
    dsimp only
    split
    · exact ⟨rfl, rfl, (if_pos hlate).symm, fun _ => nofun⟩
    · exact ⟨rfl, rfl, (if_pos hlate).symm, id⟩
  case isFalse hlate => exact ⟨rfl, rfl, (if_neg hlate).symm, id⟩

theorem step_does (config : Configuration) (s : ProbeController) (call : Call) :
    Does config s call ((controller config).step s call) := by
  cases call with
  | setEnablePeriodicAlrProbing | setAlrStartTime | setAlrEndTime => exact .idle ⟨rfl, rfl, rfl, id⟩
  | reset => exact .idle ⟨rfl, rfl, rfl, fun _ => nofun⟩
  | onBitrates => exact does_onBitrates ..
  | onEstimatedBitrate => exact does_onEstimatedBitrate ..
  | onMaxTotalAllocatedBitrate allocation atTime =>
    show Does config s _ (s.onMaxTotalAllocatedBitrate config allocation atTime)
    unfold onMaxTotalAllocatedBitrate
    split
    case isTrue hprobes =>
      split
      · exact does_initProbing ⟨rfl, (if_pos hprobes).symm, rfl, id⟩ (fun _ => rfl) _ _ _
      · exact .idle ⟨rfl, (if_pos hprobes).symm, rfl, id⟩
    case isFalse hprobes => exact .idle ⟨rfl, (if_neg hprobes).symm, rfl, id⟩
  | onNetworkAvailability networkAvailable atTime =>
    have hprepares : Prepares config s (.onNetworkAvailability networkAvailable atTime)
        (s.storeNetworkAvailability networkAvailable) := by
      unfold storeNetworkAvailability
      dsimp only
      split
      · exact ⟨rfl, rfl, rfl, fun _ => nofun⟩
      · exact ⟨rfl, rfl, rfl, id⟩
    show Does config s _ (s.onNetworkAvailability config networkAvailable atTime)
    unfold onNetworkAvailability
    dsimp only
    split
    · exact does_initProbing hprepares (fun _ => rfl) _ _ _
    · exact .idle hprepares
  | onPeriodicProcess atTime =>
    have hprepares := prepares_checkTimeout config s atTime
    show Does config s _ (s.onPeriodicProcess config atTime)
    unfold onPeriodicProcess
    dsimp only
    split
    · exact .idle hprepares
    · split
      · exact does_initProbing hprepares (fun _ => rfl) _ _ _
      · exact .idle hprepares
  | requestProbe atTime =>
    show Does config s _ (s.requestProbe config atTime)
    unfold requestProbe
    dsimp only
    split
    · refine does_initProbing ?_ (fun _ => rfl) _ _ _
      exact ⟨rfl, rfl, rfl, id⟩
    · exact .idle ⟨rfl, rfl, rfl, id⟩

theorem Stepped.finishCall {first : Int} {allocation : DataRate}
    (h : Stepped config first allocation s out) (call : Call) :
    Stepped config first allocation (finishCall config call s) out := by
  obtain ⟨hnumbered, hcapped, hsettled, hallocation⟩ := h
  unfold ProbeController.finishCall storeEstimate
  split
  · split_ifs <;> exact ⟨hnumbered, hcapped, hsettled, hallocation⟩
  · exact ⟨hnumbered, hcapped, hsettled, hallocation⟩

theorem step_spec (hsettled : s.Settled) (h : (controller config).step s call = .ok (s', out)) :
    Stepped config s.nextProbeClusterId (s.allocationAfter call) s' out := by
  have hdoes := step_does config s call
  rw [h] at hdoes
  generalize hr : (Except.ok (s', out) : Except Fault _) = r at hdoes
  cases hdoes with
  | empty => cases hr
  | idle ht =>
    cases hr
    exact ⟨ht.next ▸ Numbered.nil _, by simp, ht.settled hsettled, ht.allocation⟩
  | @probes t ht bitrates further atTime =>
    obtain ⟨clusters, hclusters, heq⟩ := CheckedMachine.map_ok hr.symm
    cases heq
    obtain ⟨hnumbered, -, hcap⟩ := makeClusters_spec hclusters
    refine Stepped.finishCall (s := t.probed config bitrates further atTime)
      ⟨?_, hcap, settled_probed bitrates further, ht.allocation⟩ call
    rw [← ht.next]
    exact hnumbered

theorem midCall_step_eq (h : (controller config).step s call = .ok (s', out)) :
    s'.midCallProbing = s.midCallAfter config call := by
  have hdoes := step_does config s call
  rw [h] at hdoes
  generalize hr : (Except.ok (s', out) : Except Fault _) = r at hdoes
  cases hdoes with
  | empty => cases hr
  | idle ht =>
    cases hr
    exact ht.midCall
  | probes ht =>
    obtain ⟨clusters, -, heq⟩ := CheckedMachine.map_ok hr.symm
    cases heq
    refine Eq.trans ?_ ht.midCall
    unfold finishCall storeEstimate
    split
    · split_ifs <;> rfl
    · rfl

theorem eq_onEstimatedBitrate_of_empty
    (h : (controller config).step s call = .error .emptyMidCallProbing) :
    ∃ estimate atTime, call = .onEstimatedBitrate estimate atTime ∧ s.midCallProbing = none := by
  have hdoes := step_does config s call
  rw [h] at hdoes
  generalize hr : (Except.error .emptyMidCallProbing : Except Fault _) = r at hdoes
  cases hdoes with
  | empty hcall hnone => exact ⟨_, _, hcall, hnone⟩
  | idle => cases hr
  | probes => exact absurd (CheckedMachine.map_error hr.symm) makeClusters_ne_empty

/-! ## The same allocation twice -/

/-- An allocation is probed, and that ends the probing. -/
def ProbesAgain (config : Configuration) (s : ProbeController)
    (maxTotalAllocatedBitrate : DataRate) : Prop :=
  s.probesAllocation maxTotalAllocatedBitrate = true ∧
    config.firstAllocationProbeScale.positive = true ∧
    (config.allocationAllowFurtherProbing = false ∨
      ∃ bitrate ∈ allocationProbes config maxTotalAllocatedBitrate,
        s.maxProbeBitrate config < bitrate)

theorem probesAllocation_eq_true_iff :
    s.probesAllocation allocation = true ↔
      s.inAlr = true ∧ s.probingState = .done ∧ s.maxTotalAllocatedBitrate ≠ allocation ∧
        s.estimatedBitrate ≠ 0 ∧
        (s.maxBitrate.isFinite = false ∨ s.estimatedBitrate < s.maxBitrate) ∧
        s.estimatedBitrate < allocation := by
  simp [probesAllocation, and_assoc]

theorem initProbing_ne_nil
    (h : s.initProbing config bitrates further atTime = .ok (s', out)) (hne : bitrates ≠ []) :
    out ≠ [] := by
  rintro rfl
  obtain ⟨-, hclusters⟩ := initProbing_ok h
  have hlen := (makeClusters_spec hclusters).2.1
  exact hne (List.eq_nil_of_length_eq_zero hlen.symm)

/-- **The same allocation again** is answered with probes exactly when the first call probed it
and was done with that. -/
theorem onMaxTotalAllocatedBitrate_again {t₁ t₂ : Timestamp}
    {s₁ s₂ : ProbeController} {out₁ out₂ : List ProbeClusterConfig}
    (h₁ : s.onMaxTotalAllocatedBitrate config allocation t₁ = .ok (s₁, out₁))
    (h₂ : s₁.onMaxTotalAllocatedBitrate config allocation t₂ = .ok (s₂, out₂)) :
    out₂ = [] ↔ ¬ s.ProbesAgain config allocation := by
  unfold onMaxTotalAllocatedBitrate at h₁ h₂
  have hidle : s₁.probesAllocation allocation = false → out₂ = [] := by
    intro hno
    rw [hno, if_neg Bool.false_ne_true] at h₂
    cases h₂
    rfl
  by_cases hprobes : s.probesAllocation allocation = true
  case neg =>
    rw [if_neg hprobes] at h₁
    cases h₁
    refine iff_of_true (hidle ?_) fun hagain => hprobes hagain.1
    rw [Bool.eq_false_iff]
    exact fun hsame => (probesAllocation_eq_true_iff.1 hsame).2.2.1 rfl
  rw [if_pos hprobes] at h₁
  by_cases hscale : config.firstAllocationProbeScale.positive = true
  case neg =>
    rw [if_neg hscale] at h₁
    cases h₁
    rw [if_pos hprobes, if_neg hscale] at h₂
    cases h₂
    exact iff_of_true rfl fun hagain => hscale hagain.2.1
  rw [if_pos hscale] at h₁ h₂
  obtain ⟨rfl, -⟩ := initProbing_ok h₁
  cases hfurther : config.allocationAllowFurtherProbing &&
      (allocationProbes config allocation).all fun bitrate =>
        bitrate ≤ s.maxProbeBitrate config with
  | true =>
    -- the answer is awaited, and no allocation is probed meanwhile
    refine iff_of_true (hidle ?_) ?_
    · rw [Bool.eq_false_iff]
      intro hagain
      have hdone := (probesAllocation_eq_true_iff.1 hagain).2.1
      simp [probed, hfurther] at hdone
    · rintro ⟨-, -, hno | ⟨bitrate, hmem, hlt⟩⟩
      · rw [hno] at hfurther
        cases hfurther
      · rw [Bool.and_eq_true, List.all_eq_true] at hfurther
        exact absurd (of_decide_eq_true (hfurther.2 bitrate hmem)) (not_le.2 hlt)
  | false =>
    obtain ⟨halr, -, hconditions⟩ := probesAllocation_eq_true_iff.1 hprobes
    have hagain : (s.probed config (allocationProbes config allocation)
        config.allocationAllowFurtherProbing t₁).probesAllocation allocation = true :=
      probesAllocation_eq_true_iff.2 ⟨halr, by simp [probed, hfurther], hconditions⟩
    rw [if_pos hagain] at h₂
    refine iff_of_false (initProbing_ne_nil h₂ (by simp [allocationProbes])) (not_not.2 ?_)
    refine ⟨hprobes, hscale, ?_⟩
    rcases Bool.and_eq_false_iff.1 hfurther with hno | hall
    · exact Or.inl hno
    · obtain ⟨bitrate, hmem, hgt⟩ := List.all_eq_false.1 hall
      exact Or.inr ⟨bitrate, hmem, by simpa using hgt⟩

/-! ## Runs -/

/-- The calls lead from a new controller to `s` with the answers `outs`. -/
def Reached (config : Configuration) (calls : List Call) (s : ProbeController)
    (outs : List (List ProbeClusterConfig)) : Prop :=
  (controller config).run create calls = .ok (s, outs)

/-- The allocation given last, since the construction or the last reset. -/
def lastAllocation (calls : List Call) : DataRate :=
  calls.foldl (fun allocation call => match call with
    | .onMaxTotalAllocatedBitrate maxTotalAllocatedBitrate _ => maxTotalAllocatedBitrate
    | .reset _ => 0
    | _ => allocation) 0

/-- The law at the end of a run, with an allocation that bounds the probes. -/
structure Lawful (config : Configuration) (allocation : DataRate) (calls : List Call)
    (s : ProbeController) (outs : List (List ProbeClusterConfig)) : Prop where
  /-- Identifiers increase over the whole run. -/
  increasing : (outs.flatten.map fun c => c.id).Pairwise (· < ·)
  /-- The last answer is capped. -/
  capped : ∀ out, outs.getLast? = some out → ∀ c ∈ out,
    c.targetBitrate ≤ s.maxBitrateOrDefault ∧
      (config.limitProbesWithAllocatableBitrate = true → 0 < allocation →
        c.targetBitrate ≤ 2 * allocation)
  /-- There is a bitrate to probe further only while a result is awaited. -/
  waiting : s.minBitrateToProbeFurther.isSome = true → s.probingState = .waiting
  /-- The same allocation, given again at once, is not probed. -/
  again : ∀ done maxTotalAllocatedBitrate t₁ t₂,
    calls = done ++ [.onMaxTotalAllocatedBitrate maxTotalAllocatedBitrate t₁,
      .onMaxTotalAllocatedBitrate maxTotalAllocatedBitrate t₂] →
    outs.getLast? = some []

/-- What every run keeps. -/
structure Tracked (config : Configuration) (outs : List (List ProbeClusterConfig))
    (s : ProbeController) : Prop where
  numbered : Numbered 1 outs.flatten s.nextProbeClusterId
  capped : ∀ out, outs.getLast? = some out → ∀ c ∈ out,
    c.targetBitrate ≤ s.maxProbeBitrate config
  settled : s.Settled

variable {calls done : List Call} {outs : List (List ProbeClusterConfig)}

theorem Reached.tracked (h : Reached config calls s outs) : Tracked config outs s := by
  have hcreate : Tracked config [] create := ⟨Numbered.nil 1, by simp, (nomatch ·)⟩
  refine CheckedMachine.invariant_run (P := fun _ outs s => Tracked config outs s) hcreate ?_ h
  intro _ outs mid call s' out htracked hstep
  obtain ⟨hnumbered, hcapped, hsettled, -⟩ := step_spec htracked.settled hstep
  refine ⟨?_, ?_, hsettled⟩
  · rw [List.flatten_append, List.flatten_singleton]
    exact htracked.numbered.append hnumbered
  · intro last hlast
    rw [List.getLast?_concat] at hlast
    cases hlast
    exact hcapped

theorem le_of_le_maxProbeBitrate {rate : DataRate} (h : rate ≤ s.maxProbeBitrate config) :
    rate ≤ s.maxBitrateOrDefault ∧
      (config.limitProbesWithAllocatableBitrate = true → 0 < s.maxTotalAllocatedBitrate →
        rate ≤ 2 * s.maxTotalAllocatedBitrate) := by
  unfold maxProbeBitrate at h
  split_ifs at h with hlimit
  · obtain ⟨hmax, hallocation⟩ := le_min_iff.1 h
    exact ⟨hmax, fun _ _ => Int.mul_comm s.maxTotalAllocatedBitrate 2 ▸ hallocation⟩
  · exact ⟨h, fun hset hpos => absurd ⟨hset, hpos⟩ hlimit⟩

theorem Reached.again_iff {t₁ t₂ : Timestamp} {s₀ : ProbeController}
    {outs₀ : List (List ProbeClusterConfig)} (h₀ : Reached config done s₀ outs₀)
    (h : Reached config (done ++ [.onMaxTotalAllocatedBitrate allocation t₁,
      .onMaxTotalAllocatedBitrate allocation t₂]) s outs) :
    outs.getLast? = some [] ↔ ¬ s₀.ProbesAgain config allocation := by
  obtain ⟨mid, outs₁, outs₂, hdone, hrest, rfl⟩ := CheckedMachine.run_append_ok_iff.1 h
  cases h₀.symm.trans hdone
  obtain ⟨s₁, out₁, outs₃, hfirst, hlast, rfl⟩ := CheckedMachine.run_cons_ok_iff.1 hrest
  obtain ⟨s₂, out₂, outs₄, hsecond, hnil, rfl⟩ := CheckedMachine.run_cons_ok_iff.1 hlast
  cases hnil
  rw [← onMaxTotalAllocatedBitrate_again hfirst hsecond,
    show outs₀ ++ [out₁, out₂] = (outs₀ ++ [out₁]) ++ [out₂] by simp, List.getLast?_concat]
  simp

theorem Reached.of_prefix (h : Reached config calls s outs) (hpre : done <+: calls) :
    ∃ s₀ outs₀, Reached config done s₀ outs₀ := by
  obtain ⟨rest, rfl⟩ := hpre
  obtain ⟨mid, outs₁, _, hdone, -⟩ := CheckedMachine.run_append_ok_iff.1 h
  exact ⟨mid, outs₁, hdone⟩

theorem lastAllocation_concat (done : List Call) (call : Call) :
    lastAllocation (done ++ [call]) = match call with
      | .onMaxTotalAllocatedBitrate maxTotalAllocatedBitrate _ => maxTotalAllocatedBitrate
      | .reset _ => 0
      | _ => lastAllocation done := by
  rw [lastAllocation, List.foldl_append]
  rfl

theorem Reached.maxTotalAllocatedBitrate_eq (h : Reached config calls s outs)
    (hidle : ∀ done allocation t s₀ outs₀,
      done ++ [.onMaxTotalAllocatedBitrate allocation t] <+: calls →
      Reached config done s₀ outs₀ → s₀.probesAllocation allocation = false) :
    s.maxTotalAllocatedBitrate = lastAllocation calls := by
  induction calls using List.reverseRecOn generalizing s outs with
  | nil =>
    cases h
    rfl
  | append_singleton done call ih =>
    obtain ⟨mid, outs₁, out, hdone, hstep, rfl⟩ := CheckedMachine.run_concat_ok_iff.1 h
    have hmid := ih hdone fun pre allocation t s₀ outs₀ hpre =>
      hidle pre allocation t s₀ outs₀ (hpre.trans (List.prefix_append _ _))
    rw [(step_spec (Reached.tracked hdone).settled hstep).allocation_eq, lastAllocation_concat]
    cases call with
    | onMaxTotalAllocatedBitrate allocation t =>
      have hno := hidle done allocation t mid outs₁ (List.prefix_refl _) hdone
      exact if_neg (Bool.eq_false_iff.1 hno)
    | reset => rfl
    | _ => exact hmid

/-- **The law of the probes.**  Every run keeps it exactly when no allocation is given twice in a
row whose first probing is over at once.  If no call probes an allocation at all, the stored one
is the last one given. -/
theorem probe_controller_law (config : Configuration) (calls : List Call) :
    ((∀ done s outs, done <+: calls → Reached config done s outs →
        Lawful config s.maxTotalAllocatedBitrate done s outs) ↔
      ∀ done allocation t₁ t₂ s outs s' outs',
        done ++ [.onMaxTotalAllocatedBitrate allocation t₁,
          .onMaxTotalAllocatedBitrate allocation t₂] <+: calls →
        Reached config done s outs →
        Reached config (done ++ [.onMaxTotalAllocatedBitrate allocation t₁,
          .onMaxTotalAllocatedBitrate allocation t₂]) s' outs' →
        ¬ s.ProbesAgain config allocation) ∧
    ((∀ done allocation t s outs, done ++ [.onMaxTotalAllocatedBitrate allocation t] <+: calls →
        Reached config done s outs → s.probesAllocation allocation = false) →
      ∀ done s outs, done <+: calls → Reached config done s outs →
        Lawful config (lastAllocation done) done s outs) := by
  have hlawful : ∀ done s outs, Reached config done s outs →
      (∀ pre allocation t₁ t₂ s₀ outs₀, done = pre ++
          [.onMaxTotalAllocatedBitrate allocation t₁, .onMaxTotalAllocatedBitrate allocation t₂] →
        Reached config pre s₀ outs₀ → ¬ s₀.ProbesAgain config allocation) →
      Lawful config s.maxTotalAllocatedBitrate done s outs := by
    intro done s outs h hagain
    obtain ⟨hnumbered, hcapped, hsettled⟩ := h.tracked
    refine ⟨hnumbered.increasing, fun out hout c hc => ?_, hsettled, ?_⟩
    · exact le_of_le_maxProbeBitrate (hcapped out hout c hc)
    rintro pre allocation t₁ t₂ rfl
    obtain ⟨s₀, outs₀, h₀⟩ := h.of_prefix (List.prefix_append _ _)
    exact (h₀.again_iff h).2 (hagain pre allocation t₁ t₂ s₀ outs₀ rfl h₀)
  refine ⟨⟨?_, ?_⟩, ?_⟩
  · intro hlaw done allocation t₁ t₂ s outs s' outs' hpre h h'
    exact (h.again_iff h').1 ((hlaw _ s' outs' hpre h').again done allocation t₁ t₂ rfl)
  · intro hagain done s outs hpre h
    refine hlawful done s outs h ?_
    rintro pre allocation t₁ t₂ s₀ outs₀ rfl h₀
    exact hagain pre allocation t₁ t₂ s₀ outs₀ s outs hpre h₀ h
  · intro hidle done s outs hpre h
    have hstored := h.maxTotalAllocatedBitrate_eq fun pre allocation t s₀ outs₀ hpre' =>
      hidle pre allocation t s₀ outs₀ (hpre'.trans hpre)
    rw [← hstored]
    refine hlawful done s outs h ?_
    rintro pre allocation t₁ t₂ s₀ outs₀ rfl h₀ hprobes
    have hno := hidle pre allocation t₁ s₀ outs₀ (List.IsPrefix.trans ?_ hpre) h₀
    · exact absurd (hno.symm.trans hprobes.1) Bool.false_ne_true
    · exact ⟨[.onMaxTotalAllocatedBitrate allocation t₂], by simp⟩

/-- **An allocation of 1 Mbps, given twice, is probed twice**, with the default configuration and
an estimate of 500 kbps. -/
theorem allocation_probed_twice :
    let calls : List Call :=
      [.setAlrStartTime (some (.micros 0)), .onBitrates 500000 100000 2000000 (.micros 0),
        .onMaxTotalAllocatedBitrate 1000000 (.micros 1000),
        .onMaxTotalAllocatedBitrate 1000000 (.micros 2000)]
    ∃ s outs, Reached .default calls s outs ∧
      (outs.getLast?.map fun out => out.map fun c => c.targetBitrate) =
        some [1000000, 2000000] ∧
      ¬ Lawful .default s.maxTotalAllocatedBitrate calls s outs := by
  refine ⟨_, _, rfl, by decide +kernel, fun hlaw => ?_⟩
  exact absurd (hlaw.again [_, _] 1000000 (.micros 1000) (.micros 2000) rfl) (by decide +kernel)

end ProbeController

end NaiveRtc.CongestionControl
