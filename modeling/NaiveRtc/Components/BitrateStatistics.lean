import NaiveRtc.Base.Units
import NaiveRtc.Lib.Machine
import Mathlib.Algebra.Order.BigOperators.Group.List

/-!
# Bytes in a window

`rtc/rtp_rtcp/components/bitrate_statistics.cpp`: samples are put into buckets by their time, and
the sums over all buckets are kept next to them.  The quotient of the rate is in floating point;
what is divided by what is here.

* `recorded` — the machine next to its samples, each with the smallest window since it was added.
* `Accounted` — the buckets and the sums are those of the last samples.
* `accounted_final` — **after every run.**
-/

namespace NaiveRtc

/-- `BitrateStatistics::Bucket`. -/
structure Bucket where
  accumulatedBytes : Int
  numSamples : Int
  timestamp : Int
  deriving DecidableEq

/-- `BitrateStatistics`.  The sums are integers, so that one that is negative would be seen. -/
structure BitrateStatistics where
  buckets : List Bucket
  accumulatedBytes : Int
  numSamples : Int
  firstUpdateTime : Option Timestamp
  isOverflowed : Bool
  maxWindowSize : TimeDelta
  currentWindowSize : TimeDelta
  deriving DecidableEq

namespace BitrateStatistics

/-- `kSingleBucketWindowSize`, one millisecond. -/
def kSingleBucketWindowSize : TimeDelta := .micros 1000

/-- `std::numeric_limits<int64_t>::max()`. -/
def int64Max : Int := 2 ^ 63 - 1

/-- `BitrateStatistics(max_window_size)`. -/
def create (maxWindowSize : TimeDelta) : BitrateStatistics where
  buckets := []
  accumulatedBytes := 0
  numSamples := 0
  firstUpdateTime := none
  isOverflowed := false
  maxWindowSize := maxWindowSize
  currentWindowSize := maxWindowSize

/-- The loop of `EraseOld`, over the buckets. -/
def eraseBuckets (newOldestTime : Timestamp) : List Bucket → BitrateStatistics → BitrateStatistics
  | [], s => { s with buckets := [] }
  | oldestBucket :: buckets, s =>
    if (UnitValue.micros oldestBucket.timestamp).lt newOldestTime then
      let accumulatedBytes := s.accumulatedBytes - oldestBucket.accumulatedBytes
      eraseBuckets newOldestTime buckets { s with
        accumulatedBytes := accumulatedBytes
        numSamples := s.numSamples - oldestBucket.numSamples
        isOverflowed := s.isOverflowed && !decide (accumulatedBytes < int64Max) }
    else { s with buckets := oldestBucket :: buckets }

/-- The oldest time that is included. -/
def newOldestTime (s : BitrateStatistics) (atTime : Int) : Timestamp :=
  ((UnitValue.micros atTime).sub s.currentWindowSize).add kSingleBucketWindowSize

/-- `EraseOld(at_time)`. -/
def eraseOld (s : BitrateStatistics) (atTime : Int) : BitrateStatistics :=
  eraseBuckets (s.newOldestTime atTime) s.buckets s

/-- The last bucket, if it is for this time; otherwise a new one.  A time before that of the last
bucket is aligned to it. -/
def addToBuckets (bytes atTime : Int) (buckets : List Bucket) : List Bucket :=
  match buckets.getLast? with
  | none => [⟨bytes, 1, atTime⟩]
  | some last =>
    if atTime = last.timestamp then
      buckets.dropLast ++ [⟨last.accumulatedBytes + bytes, last.numSamples + 1, last.timestamp⟩]
    else if atTime < last.timestamp then buckets ++ [⟨bytes, 1, last.timestamp⟩]
    else buckets ++ [⟨bytes, 1, atTime⟩]

/-- `Update(bytes, at_time)`. -/
def update (s : BitrateStatistics) (bytes atTime : Int) : BitrateStatistics :=
  let s := s.eraseOld atTime
  let fits := decide (s.accumulatedBytes + bytes < int64Max)
  { s with
    firstUpdateTime :=
      if s.firstUpdateTime.isNone || s.numSamples == 0 then some (.micros atTime)
      else s.firstUpdateTime
    buckets := addToBuckets bytes atTime s.buckets
    accumulatedBytes := if fits then s.accumulatedBytes + bytes else s.accumulatedBytes
    isOverflowed := if fits then s.isOverflowed else true
    numSamples := s.numSamples + 1 }

/-- `ms()` of a finite delta. -/
def deltaMs (us : Int) : Int := (us + if 0 ≤ us then 1000 / 2 else (-1000).tdiv 2).tdiv 1000

/-- `active_window_size` of `Rate`. -/
def activeWindowSize (s : BitrateStatistics) (atTime : Int) : TimeDelta :=
  match s.firstUpdateTime with
  | none => .micros 0
  | some first =>
    if (UnitValue.micros atTime).lt (first.add s.currentWindowSize) = false then s.currentWindowSize
    else ((UnitValue.micros atTime).sub first).add kSingleBucketWindowSize

/-- `Rate(at_time)`: the bytes and the milliseconds that the rate is computed from, if there is
one; and what is left. -/
def rate (s : BitrateStatistics) (atTime : Int) : BitrateStatistics × Option (Int × Int) :=
  let s := s.eraseOld atTime
  let active := s.activeWindowSize atTime
  if s.numSamples = 0 ∨ kSingleBucketWindowSize.lt active = false ∨
      (s.numSamples ≤ 1 ∧ active.lt s.currentWindowSize = true) ∨ s.isOverflowed = true then
    (s, none)
  else
    match active with
    | .micros us => (s, some (s.accumulatedBytes, deltaMs us))
    -- `ms()` asserts that it is finite
    | _ => (s, some (s.accumulatedBytes, 0))

/-- Whether `SetWindowSize` takes a window. -/
def acceptsWindow (s : BitrateStatistics) (windowSize : TimeDelta) : Bool :=
  !(windowSize == .micros 0 || s.maxWindowSize.lt windowSize)

/-- `SetWindowSize(window_size, at_time)`. -/
def setWindowSize (s : BitrateStatistics) (windowSize : TimeDelta) (atTime : Int) :
    BitrateStatistics × Bool :=
  if s.acceptsWindow windowSize = false then (s, false)
  else
    let s := { s with
      firstUpdateTime := s.firstUpdateTime.map fun first =>
        UnitValue.max first (((UnitValue.micros atTime).sub windowSize).add kSingleBucketWindowSize)
      currentWindowSize := windowSize }
    (s.eraseOld atTime, true)

/-- What is called, and when. -/
inductive Op
  | update (bytes atTime : Int)
  | rate (atTime : Int)
  | setWindowSize (windowSize : TimeDelta) (atTime : Int)
  deriving DecidableEq

/-- The time of a call. -/
def Op.atTime : Op → Int
  | .update _ atTime => atTime
  | .rate atTime => atTime
  | .setWindowSize _ atTime => atTime

/-- The bytes that a call adds. -/
def Op.bytes : Op → Int
  | .update bytes _ => bytes
  | _ => 0

/-- One call after the other. -/
def machine : Machine BitrateStatistics Op (Option (Int × Int)) where
  step s
    | .update bytes atTime => (s.update bytes atTime, none)
    | .rate atTime => s.rate atTime
    | .setWindowSize windowSize atTime => ((s.setWindowSize windowSize atTime).1, none)

/-! ## Buckets and samples -/

/-- What an `Update` added, and the smallest window since. -/
structure Sample where
  time : Int
  bytes : Int
  smallest : TimeDelta
  deriving DecidableEq

/-- The sample under a new window. -/
def Sample.under (sample : Sample) (window : TimeDelta) : Sample :=
  { sample with smallest := if window.lt sample.smallest then window else sample.smallest }

/-- The buckets are for different times, in order, and each stands for the samples of its time. -/
inductive Groups : List Bucket → List Sample → Prop
  | nil : Groups [] []
  | cons (bucket : Bucket) (samples rest : List Sample) (buckets : List Bucket)
      (htime : ∀ sample ∈ samples, sample.time = bucket.timestamp)
      (hbytes : bucket.accumulatedBytes = (samples.map Sample.bytes).sum)
      (hnumber : bucket.numSamples = samples.length)
      (hlater : ∀ other ∈ buckets, bucket.timestamp < other.timestamp)
      (hrest : Groups buckets rest) : Groups (bucket :: buckets) (samples ++ rest)

namespace Groups

variable {buckets : List Bucket} {samples : List Sample}

theorem sorted (h : Groups buckets samples) :
    (buckets.map Bucket.timestamp).Pairwise (· < ·) := by
  induction h with
  | nil => exact .nil
  | cons bucket samples rest buckets htime hbytes hnumber hlater hrest ih =>
    refine List.pairwise_cons.2 ⟨fun t ht => ?_, ih⟩
    obtain ⟨other, hother, rfl⟩ := List.mem_map.1 ht
    exact hlater other hother

theorem sums (h : Groups buckets samples) :
    (buckets.map Bucket.accumulatedBytes).sum = (samples.map Sample.bytes).sum ∧
      (buckets.map Bucket.numSamples).sum = samples.length := by
  induction h with
  | nil => exact ⟨rfl, rfl⟩
  | cons bucket samples rest buckets htime hbytes hnumber hlater hrest ih =>
    rw [List.map_cons, List.sum_cons, ih.1, hbytes, List.map_append, List.sum_append, List.map_cons,
      List.sum_cons, ih.2, hnumber, List.length_append]
    exact ⟨rfl, (Int.natCast_add _ _).symm⟩

theorem under (h : Groups buckets samples) (window : TimeDelta) :
    Groups buckets (samples.map (Sample.under · window)) := by
  induction h with
  | nil => exact nil
  | cons bucket samples rest buckets htime hbytes hnumber hlater hrest ih =>
    rw [List.map_append]
    refine cons bucket _ _ buckets (fun sample hsample => ?_) ?_ ?_ hlater ih
    · obtain ⟨old, hold, rfl⟩ := List.mem_map.1 hsample
      exact htime old hold
    · rw [hbytes, List.map_map]
      rfl
    · rw [hnumber, List.length_map]

theorem single (sample : Sample) : Groups [⟨sample.bytes, 1, sample.time⟩] [sample] := by
  have h := cons ⟨sample.bytes, 1, sample.time⟩ [sample] [] [] (by simp) (by simp) rfl (by simp) nil
  exact h

theorem append_new (h : Groups buckets samples) {sample : Sample}
    (hlater : ∀ bucket ∈ buckets, bucket.timestamp < sample.time) :
    Groups (buckets ++ [⟨sample.bytes, 1, sample.time⟩]) (samples ++ [sample]) := by
  induction h with
  | nil => exact single sample
  | cons bucket samples rest buckets htime hbytes hnumber hother hrest ih =>
    rw [List.append_assoc, List.cons_append]
    refine cons bucket samples _ _ htime hbytes hnumber (fun other hmem => ?_)
      (ih fun other hmem => hlater other (List.mem_cons_of_mem _ hmem))
    rcases List.mem_append.1 hmem with hold | hnew
    · exact hother other hold
    · rw [List.mem_singleton.1 hnew]
      exact hlater bucket List.mem_cons_self

theorem append_last {last : Bucket} (h : Groups (buckets ++ [last]) samples) {sample : Sample}
    (htime : sample.time = last.timestamp) :
    Groups (buckets ++
        [⟨last.accumulatedBytes + sample.bytes, last.numSamples + 1, last.timestamp⟩])
      (samples ++ [sample]) := by
  induction buckets generalizing samples with
  | nil =>
    cases h with
    | cons _ samples rest _ hsame hbytes hnumber hother hrest =>
      cases hrest
      rw [List.append_nil]
      have hmore := cons
        ⟨last.accumulatedBytes + sample.bytes, last.numSamples + 1, last.timestamp⟩
        (samples ++ [sample]) [] [] (fun other hmem => ?_) ?_ ?_ (by simp) nil
      · rw [List.append_nil] at hmore
        exact hmore
      · rcases List.mem_append.1 hmem with hold | hnew
        · exact hsame other hold
        · rw [List.mem_singleton.1 hnew]
          exact htime
      · simp [hbytes]
      · simp [hnumber]
  | cons bucket buckets ih =>
    cases h with
    | cons _ samples rest _ hsame hbytes hnumber hother hrest =>
      rw [List.append_assoc, List.cons_append]
      refine cons bucket samples _ _ hsame hbytes hnumber (fun other hmem => ?_) (ih hrest)
      rcases List.mem_append.1 hmem with hold | hnew
      · exact hother other (List.mem_append_left _ hold)
      · rw [List.mem_singleton.1 hnew]
        exact hother last (List.mem_append_right _ (List.mem_singleton_self last))

theorem addToBuckets (h : Groups buckets samples) (sample : Sample)
    (hlatest : ∀ bucket ∈ buckets, bucket.timestamp ≤ sample.time) :
    Groups (BitrateStatistics.addToBuckets sample.bytes sample.time buckets)
        (samples ++ [sample]) ∧
      ∀ bucket ∈ BitrateStatistics.addToBuckets sample.bytes sample.time buckets,
        bucket.timestamp ≤ sample.time := by
  rcases List.eq_nil_or_concat buckets with rfl | ⟨init, last, rfl⟩
  · cases h
    exact ⟨single sample, fun bucket hbucket => by rw [List.mem_singleton.1 hbucket]⟩
  rw [List.concat_eq_append] at h hlatest ⊢
  have hle : last.timestamp ≤ sample.time := hlatest last (by simp)
  unfold BitrateStatistics.addToBuckets
  rw [List.getLast?_concat]
  dsimp only
  by_cases heq : sample.time = last.timestamp
  · rw [if_pos heq, List.dropLast_concat]
    refine ⟨append_last h heq, fun bucket hbucket => ?_⟩
    rcases List.mem_append.1 hbucket with hold | hnew
    · exact hlatest bucket (List.mem_append_left _ hold)
    · rw [List.mem_singleton.1 hnew]
      exact hle
  · rw [if_neg heq, if_neg (by omega)]
    have hlt : last.timestamp < sample.time := by omega
    refine ⟨append_new h fun bucket hbucket => ?_, fun bucket hbucket => ?_⟩
    · have hsorted := h.sorted
      rw [List.map_append, List.pairwise_append] at hsorted
      rcases List.mem_append.1 hbucket with hold | hnew
      · have := hsorted.2.2 bucket.timestamp (List.mem_map_of_mem hold) last.timestamp (by simp)
        omega
      · rw [List.mem_singleton.1 hnew]
        exact hlt
    · rcases List.mem_append.1 hbucket with hold | hnew
      · exact hlatest bucket hold
      · rw [List.mem_singleton.1 hnew]

end Groups

/-! ## Erasing -/

theorem lt_micros_mono {a b : Int} (h : a ≤ b) {t : Timestamp}
    (ha : (UnitValue.micros a).lt t = false) : (UnitValue.micros b).lt t = false := by
  cases t with
  | minusInfinity => rfl
  | plusInfinity => cases ha
  | micros us =>
    have hus : ¬a < us := of_decide_eq_false ha
    exact decide_eq_false (by omega)

@[simp] theorem eraseBuckets_firstUpdateTime (t : Timestamp) (buckets : List Bucket)
    (s : BitrateStatistics) :
    (eraseBuckets t buckets s).firstUpdateTime = s.firstUpdateTime := by
  induction buckets generalizing s with
  | nil => rfl
  | cons bucket buckets ih =>
    unfold eraseBuckets
    split
    · exact ih _
    · rfl

@[simp] theorem eraseBuckets_maxWindowSize (t : Timestamp) (buckets : List Bucket)
    (s : BitrateStatistics) : (eraseBuckets t buckets s).maxWindowSize = s.maxWindowSize := by
  induction buckets generalizing s with
  | nil => rfl
  | cons bucket buckets ih =>
    unfold eraseBuckets
    split
    · exact ih _
    · rfl

@[simp] theorem eraseBuckets_currentWindowSize (t : Timestamp) (buckets : List Bucket)
    (s : BitrateStatistics) :
    (eraseBuckets t buckets s).currentWindowSize = s.currentWindowSize := by
  induction buckets generalizing s with
  | nil => rfl
  | cons bucket buckets ih =>
    unfold eraseBuckets
    split
    · exact ih _
    · rfl

/-- The buckets and the sums are those of these samples. -/
structure Holds (s : BitrateStatistics) (samples : List Sample) : Prop where
  groups : Groups s.buckets samples
  bytes : s.accumulatedBytes = (samples.map Sample.bytes).sum
  number : s.numSamples = samples.length
  notOverflowed : s.isOverflowed = false

variable {s : BitrateStatistics}

theorem Groups.eraseBuckets {buckets : List Bucket} {samples : List Sample}
    (h : Groups buckets samples) (t : Timestamp)
    (hbytes : s.accumulatedBytes = (samples.map Sample.bytes).sum)
    (hnumber : s.numSamples = samples.length) (hfits : s.isOverflowed = false) :
    ∃ out rest, samples = out ++ rest ∧ Holds (eraseBuckets t buckets s) rest ∧
      (∀ sample ∈ out, (UnitValue.micros sample.time).lt t = true) ∧
      ∀ bucket ∈ (eraseBuckets t buckets s).buckets,
        bucket ∈ buckets ∧ (UnitValue.micros bucket.timestamp).lt t = false := by
  induction h generalizing s with
  | nil =>
    exact ⟨[], [], rfl, ⟨.nil, hbytes, hnumber, hfits⟩, by simp,
      fun bucket hbucket => absurd hbucket List.not_mem_nil⟩
  | cons bucket samples rest buckets htime hsum hlength hlater hrest ih =>
    unfold BitrateStatistics.eraseBuckets
    split
    case isTrue hold =>
      have hless : s.accumulatedBytes - bucket.accumulatedBytes =
          (rest.map Sample.bytes).sum := by
        rw [hbytes, hsum, List.map_append, List.sum_append]
        omega
      have hfewer : s.numSamples - bucket.numSamples = rest.length := by
        rw [hnumber, hlength, List.length_append]
        omega
      obtain ⟨out, kept, heq, hholds, hout, hkept⟩ := ih (s := { s with
        accumulatedBytes := s.accumulatedBytes - bucket.accumulatedBytes
        numSamples := s.numSamples - bucket.numSamples
        isOverflowed := s.isOverflowed &&
          !decide (s.accumulatedBytes - bucket.accumulatedBytes < int64Max) })
        hless hfewer (by rw [hfits, Bool.false_and])
      refine ⟨samples ++ out, kept, by rw [heq, List.append_assoc], hholds, ?_, ?_⟩
      · intro sample hsample
        rcases List.mem_append.1 hsample with hfirst | hlast
        · rw [htime sample hfirst]
          exact hold
        · exact hout sample hlast
      · exact fun other hother =>
          ⟨List.mem_cons_of_mem _ (hkept other hother).1, (hkept other hother).2⟩
    case isFalse hnew =>
      refine ⟨[], samples ++ rest, rfl,
        ⟨cons bucket samples rest buckets htime hsum hlength hlater hrest, hbytes, hnumber, hfits⟩,
        by simp, fun other hother => ⟨hother, ?_⟩⟩
      have hfirst := Bool.eq_false_iff.2 hnew
      rcases List.mem_cons.1 hother with rfl | hlast
      · exact hfirst
      · exact lt_micros_mono (hlater other hlast).le hfirst

theorem Holds.eraseOld {samples : List Sample} (h : Holds s samples) (atTime : Int) :
    ∃ out rest, samples = out ++ rest ∧ Holds (s.eraseOld atTime) rest ∧
      (∀ sample ∈ out, (UnitValue.micros sample.time).lt (s.newOldestTime atTime) = true) ∧
      ∀ bucket ∈ (s.eraseOld atTime).buckets, bucket ∈ s.buckets ∧
        (UnitValue.micros bucket.timestamp).lt (s.newOldestTime atTime) = false :=
  h.groups.eraseBuckets (s.newOldestTime atTime) h.bytes h.number h.notOverflowed

/-! ## The windows -/

section

variable {s : BitrateStatistics} {windowSize : TimeDelta} {atTime : Int}

theorem setWindowSize_rejected (h : s.acceptsWindow windowSize = false) :
    s.setWindowSize windowSize atTime = (s, false) := if_pos h

theorem setWindowSize_accepted (h : s.acceptsWindow windowSize = true) :
    s.setWindowSize windowSize atTime =
      (eraseOld { s with
        firstUpdateTime := s.firstUpdateTime.map fun first =>
          UnitValue.max first
            (((UnitValue.micros atTime).sub windowSize).add kSingleBucketWindowSize)
        currentWindowSize := windowSize } atTime, true) :=
  if_neg (by rw [h]; exact Bool.noConfusion)

end

section

variable (s : BitrateStatistics)

@[simp] theorem eraseOld_currentWindowSize (atTime : Int) :
    (s.eraseOld atTime).currentWindowSize = s.currentWindowSize :=
  eraseBuckets_currentWindowSize _ _ s

@[simp] theorem eraseOld_maxWindowSize (atTime : Int) :
    (s.eraseOld atTime).maxWindowSize = s.maxWindowSize :=
  eraseBuckets_maxWindowSize _ _ s

theorem rate_fst (atTime : Int) : (s.rate atTime).1 = s.eraseOld atTime := by
  unfold rate
  dsimp only
  split
  · rfl
  · split <;> rfl

@[simp] theorem rate_currentWindowSize (atTime : Int) :
    (s.rate atTime).1.currentWindowSize = s.currentWindowSize := by
  rw [rate_fst, eraseOld_currentWindowSize]

@[simp] theorem rate_maxWindowSize (atTime : Int) :
    (s.rate atTime).1.maxWindowSize = s.maxWindowSize := by
  rw [rate_fst, eraseOld_maxWindowSize]

@[simp] theorem update_currentWindowSize (bytes atTime : Int) :
    (s.update bytes atTime).currentWindowSize = s.currentWindowSize :=
  s.eraseOld_currentWindowSize atTime

@[simp] theorem update_maxWindowSize (bytes atTime : Int) :
    (s.update bytes atTime).maxWindowSize = s.maxWindowSize :=
  s.eraseOld_maxWindowSize atTime

theorem acceptsWindow_iff {s : BitrateStatistics} {windowSize : TimeDelta} :
    s.acceptsWindow windowSize = true ↔
      windowSize ≠ .micros 0 ∧ s.maxWindowSize.lt windowSize = false := by
  simp [acceptsWindow]

theorem setWindowSize_maxWindowSize (windowSize : TimeDelta) (atTime : Int) :
    (s.setWindowSize windowSize atTime).1.maxWindowSize = s.maxWindowSize := by
  cases h : s.acceptsWindow windowSize with
  | false => rw [setWindowSize_rejected h]
  | true =>
    rw [setWindowSize_accepted h]
    exact eraseOld_maxWindowSize _ atTime

theorem setWindowSize_currentWindowSize (windowSize : TimeDelta) (atTime : Int) :
    (s.setWindowSize windowSize atTime).1.currentWindowSize =
      if s.acceptsWindow windowSize then windowSize else s.currentWindowSize := by
  cases h : s.acceptsWindow windowSize with
  | false => rw [setWindowSize_rejected h, if_neg Bool.false_ne_true]
  | true =>
    rw [setWindowSize_accepted h, if_pos rfl]
    exact eraseOld_currentWindowSize _ atTime

theorem setWindowSize_snd (windowSize : TimeDelta) (atTime : Int) :
    (s.setWindowSize windowSize atTime).2 = s.acceptsWindow windowSize := by
  cases h : s.acceptsWindow windowSize with
  | false => rw [setWindowSize_rejected h]
  | true => rw [setWindowSize_accepted h]

end

/-! ## Runs -/

/-- Too old for a window, up to the width of a bucket. -/
def Sample.isOld (sample : Sample) (now : Int) : Bool :=
  (UnitValue.micros sample.time).lt
    (((UnitValue.micros now).sub sample.smallest).add kSingleBucketWindowSize)

variable {sample : Sample}

theorem Sample.isOld_later {now later : Int} (h : now ≤ later)
    (hold : sample.isOld now = true) : sample.isOld later = true := by
  unfold isOld at hold ⊢
  cases hsmallest : sample.smallest with
  | minusInfinity => rfl
  | plusInfinity =>
    rw [hsmallest] at hold
    cases hold
  | micros us =>
    rw [hsmallest] at hold
    have hlt : sample.time < now - us + 1000 := of_decide_eq_true hold
    exact decide_eq_true (by omega)

theorem Sample.isOld_of_lt {now : Int} {window : TimeDelta}
    (hsmaller : window.lt sample.smallest = false)
    (hold : (UnitValue.micros sample.time).lt
      (((UnitValue.micros now).sub window).add kSingleBucketWindowSize) = true) :
    sample.isOld now = true := by
  unfold isOld
  cases hsmallest : sample.smallest with
  | minusInfinity => rfl
  | plusInfinity =>
    rw [hsmallest] at hsmaller
    cases window with
    | plusInfinity => exact hold
    | minusInfinity => cases hsmaller
    | micros us => cases hsmaller
  | micros least =>
    rw [hsmallest] at hsmaller
    cases window with
    | plusInfinity => cases hold
    | minusInfinity => cases hsmaller
    | micros us =>
      have hle : ¬us < least := of_decide_eq_false hsmaller
      have hlt : sample.time < now - us + 1000 := of_decide_eq_true hold
      exact decide_eq_true (by omega)

theorem Sample.isOld_under {now : Int} (window : TimeDelta)
    (hold : sample.isOld now = true) : (sample.under window).isOld now = true := by
  have hsmaller : sample.smallest.lt (sample.under window).smallest = false := by
    unfold Sample.under
    cases hlt : window.lt sample.smallest with
    | false => exact UnitValue.lt_irrefl _
    | true => exact UnitValue.lt_asymm hlt
  exact Sample.isOld_of_lt hsmaller hold

/-- The samples that were added, next to the run. -/
def samplesAfter (s : BitrateStatistics) (samples : List Sample) : Op → List Sample
  | .update bytes atTime => samples ++ [⟨atTime, bytes, s.currentWindowSize⟩]
  | .rate _ => samples
  | .setWindowSize windowSize _ =>
    if s.acceptsWindow windowSize then samples.map (Sample.under · windowSize) else samples

section

variable {s : BitrateStatistics} {windowSize : TimeDelta} {atTime : Int}

theorem samplesAfter_rejected (h : s.acceptsWindow windowSize = false) (samples : List Sample) :
    samplesAfter s samples (.setWindowSize windowSize atTime) = samples :=
  if_neg (by rw [h]; exact Bool.noConfusion)

theorem samplesAfter_accepted (h : s.acceptsWindow windowSize = true) (samples : List Sample) :
    samplesAfter s samples (.setWindowSize windowSize atTime) =
      samples.map (Sample.under · windowSize) := if_pos h

end

/-- The machine next to its samples. -/
abbrev recorded : Machine (BitrateStatistics × List Sample) Op (Option (Int × Int)) :=
  machine.alongside samplesAfter

/-- The buckets hold the last samples, and those before are too old. -/
structure Accounted (s : BitrateStatistics) (samples : List Sample) (now : Int)
    (gone live : List Sample) : Prop where
  split : samples = gone ++ live
  holds : Holds s live
  dropped : ∀ sample ∈ gone, sample.isOld now = true
  past : ∀ bucket ∈ s.buckets, bucket.timestamp ≤ now
  windows : ∀ sample ∈ live, s.currentWindowSize.lt sample.smallest = false
  begun : s.firstUpdateTime ≠ some .minusInfinity

namespace Accounted

variable {s : BitrateStatistics} {samples gone live : List Sample} {now : Int}

theorem create (maxWindowSize : TimeDelta) (now : Int) :
    Accounted (create maxWindowSize) [] now [] [] where
  split := rfl
  holds := ⟨.nil, rfl, rfl, rfl⟩
  dropped := by simp
  past := by simp [BitrateStatistics.create]
  windows := by simp
  begun := by simp [BitrateStatistics.create]

section

variable (h : Accounted s samples now gone live)
include h

theorem later {later : Int} (hle : now ≤ later) :
    Accounted s samples later gone live where
  split := h.split
  holds := h.holds
  dropped sample hsample := Sample.isOld_later hle (h.dropped sample hsample)
  past bucket hbucket := (h.past bucket hbucket).trans hle
  windows := h.windows
  begun := h.begun

theorem eraseOld :
    ∃ gone live, Accounted (s.eraseOld now) samples now gone live := by
  obtain ⟨out, rest, heq, hholds, hout, hkept⟩ := h.holds.eraseOld now
  refine ⟨gone ++ out, rest, ?_, hholds, fun sample hsample => ?_, fun bucket hbucket => ?_,
    fun sample hsample => ?_, ?_⟩
  · rw [h.split, heq, List.append_assoc]
  · rcases List.mem_append.1 hsample with hold | hnew
    · exact h.dropped sample hold
    · refine Sample.isOld_of_lt (h.windows sample ?_) (hout sample hnew)
      rw [heq]
      exact List.mem_append_left _ hnew
  · exact h.past bucket (hkept bucket hbucket).1
  · unfold BitrateStatistics.eraseOld
    rw [eraseBuckets_currentWindowSize]
    refine h.windows sample ?_
    rw [heq]
    exact List.mem_append_right _ hsample
  · unfold BitrateStatistics.eraseOld
    rw [eraseBuckets_firstUpdateTime]
    exact h.begun

theorem bytes_le (hbytes : ∀ sample ∈ samples, 0 ≤ sample.bytes) :
    0 ≤ s.accumulatedBytes ∧ s.accumulatedBytes ≤ (samples.map Sample.bytes).sum := by
  have hsum : ∀ l : List Sample, (∀ sample ∈ l, 0 ≤ sample.bytes) →
      0 ≤ (l.map Sample.bytes).sum := fun l hl =>
    List.sum_nonneg fun x hx => by
      obtain ⟨sample, hsample, rfl⟩ := List.mem_map.1 hx
      exact hl sample hsample
  rw [h.split] at hbytes
  have hgone := hsum gone fun sample hsample => hbytes sample (List.mem_append_left _ hsample)
  have hlive := hsum live fun sample hsample => hbytes sample (List.mem_append_right _ hsample)
  rw [h.holds.bytes, h.split, List.map_append, List.sum_append]
  omega

theorem update {bytes : Int} (hbytes : ∀ sample ∈ samples, 0 ≤ sample.bytes)
    (htotal : (samples.map Sample.bytes).sum + bytes < int64Max) :
    ∃ gone live, Accounted (s.update bytes now) (samplesAfter s samples (.update bytes now)) now
      gone live := by
  obtain ⟨gone, live, herased⟩ := h.eraseOld
  have hwindow : (s.eraseOld now).currentWindowSize = s.currentWindowSize :=
    eraseBuckets_currentWindowSize _ _ s
  have hfits : (s.eraseOld now).accumulatedBytes + bytes < int64Max := by
    have := (herased.bytes_le hbytes).2
    omega
  let sample : Sample := ⟨now, bytes, s.currentWindowSize⟩
  obtain ⟨hgroups, hpast⟩ := herased.holds.groups.addToBuckets sample herased.past
  refine ⟨gone, live ++ [sample], ?_, ⟨hgroups, ?_, ?_, ?_⟩, herased.dropped, hpast, ?_, ?_⟩
  · show samples ++ [sample] = _
    rw [herased.split, List.append_assoc]
  · rw [List.map_append, List.sum_append, ← herased.holds.bytes]
    simp [BitrateStatistics.update, hfits, sample]
  · rw [List.length_append, Int.natCast_add, ← herased.holds.number]
    rfl
  · simp [BitrateStatistics.update, hfits, herased.holds.notOverflowed]
  · intro other hother
    show (s.eraseOld now).currentWindowSize.lt other.smallest = false
    rcases List.mem_append.1 hother with hold | hnew
    · exact herased.windows other hold
    · rw [List.mem_singleton.1 hnew, hwindow]
      exact UnitValue.lt_irrefl _
  · have hbegun := herased.begun
    simp only [BitrateStatistics.update]
    split
    · simp
    · exact hbegun

theorem rate :
    ∃ gone live, Accounted (s.rate now).1 samples now gone live := by
  rw [rate_fst]
  exact h.eraseOld

theorem setWindowSize (windowSize : TimeDelta) :
    ∃ gone live, Accounted (s.setWindowSize windowSize now).1
      (samplesAfter s samples (.setWindowSize windowSize now)) now gone live := by
  cases haccepts : s.acceptsWindow windowSize with
  | false =>
    rw [setWindowSize_rejected haccepts, samplesAfter_rejected haccepts]
    exact ⟨gone, live, h⟩
  | true =>
    rw [setWindowSize_accepted haccepts, samplesAfter_accepted haccepts]
    have hsplit : samples.map (Sample.under · windowSize) =
        gone.map (Sample.under · windowSize) ++ live.map (Sample.under · windowSize) := by
      rw [h.split, List.map_append]
    refine Accounted.eraseOld ⟨hsplit, ⟨h.holds.groups.under windowSize, ?_, ?_,
      h.holds.notOverflowed⟩, fun sample hsample => ?_, h.past, fun sample hsample => ?_, ?_⟩
    · rw [List.map_map]
      exact h.holds.bytes
    · rw [List.length_map]
      exact h.holds.number
    · obtain ⟨old, hold, rfl⟩ := List.mem_map.1 hsample
      exact Sample.isOld_under windowSize (h.dropped old hold)
    · obtain ⟨old, hold, rfl⟩ := List.mem_map.1 hsample
      unfold Sample.under
      cases hlt : windowSize.lt old.smallest with
      | false => exact hlt
      | true => exact UnitValue.lt_irrefl windowSize
    · cases hfirst : s.firstUpdateTime with
      | none => simp
      | some first =>
        have hne : first ≠ .minusInfinity := fun heq => h.begun (heq ▸ hfirst)
        simp only [Option.map_some, ne_eq, Option.some.injEq]
        exact UnitValue.max_ne_minusInfinity hne _

theorem step (op : Op) (hle : now ≤ op.atTime) (hbytes : ∀ sample ∈ samples, 0 ≤ sample.bytes)
    (htotal : (samples.map Sample.bytes).sum + op.bytes < int64Max) :
    ∃ gone live, Accounted (machine.step s op).1 (samplesAfter s samples op) op.atTime
      gone live := by
  cases op with
  | update bytes atTime => exact (h.later hle).update hbytes htotal
  | rate atTime => exact (h.later hle).rate
  | setWindowSize windowSize atTime => exact (h.later hle).setWindowSize windowSize

end

end Accounted

theorem deltaMs_pos (hbegun : s.firstUpdateTime ≠ some .minusInfinity)
    {atTime : Int} (hwide : kSingleBucketWindowSize.lt (s.activeWindowSize atTime) = true) :
    ∃ us, s.activeWindowSize atTime = .micros us ∧ 0 < deltaMs us := by
  have hms : ∀ us : Int, kSingleBucketWindowSize.lt (.micros us) = true → 0 < deltaMs us := by
    intro us hlt
    have hus : 1000 < us := of_decide_eq_true hlt
    unfold deltaMs
    rw [if_pos (by omega), Int.tdiv_eq_ediv_of_nonneg (by omega)]
    omega
  unfold activeWindowSize at hwide ⊢
  cases hfirst : s.firstUpdateTime with
  | none =>
    rw [hfirst] at hwide
    cases hwide
  | some first =>
    simp only [hfirst] at hwide ⊢
    cases first with
    | minusInfinity => exact absurd hfirst hbegun
    | plusInfinity => cases hwide
    | micros began =>
      cases hwindow : s.currentWindowSize with
      | minusInfinity =>
        rw [hwindow] at hwide
        cases hwide
      | plusInfinity =>
        rw [hwindow] at hwide
        exact ⟨_, rfl, hms _ hwide⟩
      | micros us =>
        rw [hwindow] at hwide
        split at hwide
        · rw [if_pos ‹_›]
          exact ⟨us, rfl, hms us hwide⟩
        · rw [if_neg ‹_›]
          exact ⟨_, rfl, hms _ hwide⟩

theorem rate_divisor (hbegun : s.firstUpdateTime ≠ some .minusInfinity)
    {atTime bytes ms : Int} (h : (s.rate atTime).2 = some (bytes, ms)) : 0 < ms := by
  unfold rate at h
  dsimp only at h
  split at h
  · cases h
  case isFalse hrate =>
    have hwide : kSingleBucketWindowSize.lt ((s.eraseOld atTime).activeWindowSize atTime) = true :=
      Bool.eq_true_of_not_eq_false fun hfalse => hrate (.inr (.inl hfalse))
    have hsame : (s.eraseOld atTime).firstUpdateTime ≠ some .minusInfinity := by
      unfold eraseOld
      rw [eraseBuckets_firstUpdateTime]
      exact hbegun
    obtain ⟨us, heq, hpos⟩ := deltaMs_pos hsame hwide
    rw [heq] at h
    obtain ⟨-, rfl⟩ := Prod.mk.inj (Option.some.inj h)
    exact hpos

theorem samplesAfter_bytes (s : BitrateStatistics) (samples : List Sample) (op : Op)
    (hsamples : ∀ sample ∈ samples, 0 ≤ sample.bytes) (hop : 0 ≤ op.bytes) :
    (∀ sample ∈ samplesAfter s samples op, 0 ≤ sample.bytes) ∧
      ((samplesAfter s samples op).map Sample.bytes).sum =
        (samples.map Sample.bytes).sum + op.bytes := by
  cases op with
  | update bytes atTime =>
    constructor
    · intro sample hsample
      rcases List.mem_append.1 hsample with hold | hnew
      · exact hsamples sample hold
      · rw [List.mem_singleton.1 hnew]
        exact hop
    · simp [samplesAfter, Op.bytes]
  | rate atTime => exact ⟨hsamples, (add_zero _).symm⟩
  | setWindowSize windowSize atTime =>
    cases haccepts : s.acceptsWindow windowSize with
    | false =>
      rw [samplesAfter_rejected haccepts]
      exact ⟨hsamples, (add_zero _).symm⟩
    | true =>
      rw [samplesAfter_accepted haccepts, List.map_map]
      refine ⟨fun sample hsample => ?_, (add_zero _).symm⟩
      obtain ⟨old, hold, rfl⟩ := List.mem_map.1 hsample
      exact hsamples old hold

theorem exists_accounted (maxWindowSize : TimeDelta) {ops : List Op}
    (htimes : (ops.map Op.atTime).Pairwise (· ≤ ·)) (hbytes : ∀ op ∈ ops, 0 ≤ op.bytes)
    (htotal : (ops.map Op.bytes).sum < int64Max) {now : Int} (hnow : ∀ op ∈ ops, op.atTime ≤ now) :
    let run := recorded.final (create maxWindowSize, []) ops
    (∃ gone live, Accounted run.1 run.2 now gone live) ∧
      (∀ sample ∈ run.2, 0 ≤ sample.bytes) ∧
      (run.2.map Sample.bytes).sum = (ops.map Op.bytes).sum := by
  induction ops using List.reverseRecOn generalizing now with
  | nil => exact ⟨⟨[], [], Accounted.create maxWindowSize now⟩, by simp, rfl⟩
  | append_singleton ops op ih =>
    rw [List.map_append, List.pairwise_append] at htimes
    rw [List.map_append, List.sum_append] at htotal
    have hop : 0 ≤ op.bytes := hbytes op (by simp)
    have hlast : ([op].map Op.bytes).sum = op.bytes := by simp
    rw [hlast] at htotal
    have hpast : ∀ other ∈ ops, other.atTime ≤ op.atTime := fun other hother =>
      htimes.2.2 other.atTime (List.mem_map_of_mem hother) op.atTime (by simp)
    obtain ⟨⟨gone, live, haccounted⟩, hnonneg, hsum⟩ := ih htimes.1
      (fun other hother => hbytes other (List.mem_append_left _ hother)) (by omega) hpast
    rw [Machine.final_append]
    obtain ⟨hnonneg', hsum'⟩ := samplesAfter_bytes _ _ op hnonneg hop
    obtain ⟨gone', live', hstep⟩ := haccounted.step op (Int.le_refl _) hnonneg (by omega)
    refine ⟨⟨gone', live', hstep.later (hnow op (by simp))⟩, hnonneg', ?_⟩
    rw [List.map_append, List.sum_append, hlast, ← hsum]
    exact hsum'

/-- **The window is accounted for.**  After every run of calls in the order of their times, with
less than the largest number of bytes in all: the buckets are in order and their sums are the sums
next to them; counted are the last samples, each once, and those that are not counted are older
than the smallest window since they were added, up to the width of a bucket; what `EraseOld` leaves
is inside the window; no sum is negative, and what the rate is divided by is positive. -/
theorem accounted_final (maxWindowSize : TimeDelta) {ops : List Op}
    (htimes : (ops.map Op.atTime).Pairwise (· ≤ ·)) (hbytes : ∀ op ∈ ops, 0 ≤ op.bytes)
    (htotal : (ops.map Op.bytes).sum < int64Max) {now : Int} (hnow : ∀ op ∈ ops, op.atTime ≤ now) :
    let run := recorded.final (create maxWindowSize, []) ops
    let s := run.1
    (s.buckets.map Bucket.timestamp).Pairwise (· ≤ ·) ∧
      s.accumulatedBytes = (s.buckets.map Bucket.accumulatedBytes).sum ∧
      s.numSamples = (s.buckets.map Bucket.numSamples).sum ∧
      (∃ gone live, run.2 = gone ++ live ∧ s.accumulatedBytes = (live.map Sample.bytes).sum ∧
        s.numSamples = live.length ∧ ∀ sample ∈ gone, sample.isOld now = true) ∧
      (∀ bucket ∈ (s.eraseOld now).buckets,
        (UnitValue.micros bucket.timestamp).lt (s.newOldestTime now) = false) ∧
      0 ≤ s.accumulatedBytes ∧ 0 ≤ s.numSamples ∧
      ∀ bytes ms, (s.rate now).2 = some (bytes, ms) → 0 < ms := by
  obtain ⟨⟨gone, live, h⟩, hnonneg, -⟩ := exists_accounted maxWindowSize htimes hbytes htotal hnow
  obtain ⟨hsumBytes, hsumNumber⟩ := h.holds.groups.sums
  obtain ⟨-, -, -, -, -, hkept⟩ := h.holds.eraseOld now
  refine ⟨h.holds.groups.sorted.imp fun hlt => hlt.le, ?_, ?_,
    ⟨gone, live, h.split, h.holds.bytes, h.holds.number, h.dropped⟩,
    fun bucket hbucket => (hkept bucket hbucket).2, (h.bytes_le hnonneg).1, ?_,
    fun bytes ms hrate => rate_divisor h.begun hrate⟩
  · rw [hsumBytes, h.holds.bytes]
  · rw [hsumNumber, h.holds.number]
  · rw [h.holds.number]
    exact Int.natCast_nonneg _

/-- Three samples at two times; the smaller window keeps the third. -/
theorem accounted_final_shrunk :
    let run := recorded.final (create (.micros 1000000), [])
      [.update 100 10000000, .update 50 10000000, .update 30 10400000,
        .setWindowSize (.micros 300000) 10500000]
    run.1.accumulatedBytes = 30 ∧ ∃ gone live, run.2 = gone ++ live ∧
      run.1.accumulatedBytes = (live.map Sample.bytes).sum ∧ run.1.numSamples = live.length ∧
      ∀ sample ∈ gone, sample.isOld 10500000 = true :=
  ⟨by decide +kernel, (accounted_final (.micros 1000000) (by decide) (by decide) (by decide)
    (by decide : ∀ op ∈ [Op.update 100 10000000, .update 50 10000000, .update 30 10400000,
      .setWindowSize (.micros 300000) 10500000], op.atTime ≤ 10500000)).2.2.2.1⟩

/-- A sample that is 999.5 ms old is not counted in a window of a second: the window begins one
millisecond later than its size says. -/
theorem younger_sample_erased :
    let run := recorded.final (create (.micros 1000000), []) [.update 100 10000000, .rate 10999500]
    run.2 = [⟨10000000, 100, .micros 1000000⟩] ∧ (10999500 : Int) - 10000000 < 1000000 ∧
      run.1.accumulatedBytes = 0 ∧ run.1.numSamples = 0 := by
  decide +kernel

end BitrateStatistics

end NaiveRtc
