import NaiveRtc.Jitter.DecodedFramesHistory
import NaiveRtc.Lib.Machine
import NaiveRtc.Media.Video
import Mathlib.Tactic.Linarith

/-!
# The frame buffer

The model of `rtc/rtp_rtcp/rtp/receiver/video/jitter/frame_buffer.{hpp,cpp}`,
`frame_buffer_continuity.cpp` and `frame_buffer_decodability.cpp`: complete frames
wait for the frames they refer to and leave for the decoder in id order.

* `insertFrame`, with `validReferences`, `emplaceFrameInfo` and `propagateContinuity`
  — a frame arrives.
* `findNextFrameToDecode`, `getNextFrameToDecode` — the next frame is chosen and
  handed out; what `Timing` answers for a frame is a parameter of the choice.
* `History`, `watched` — the machine next to a record of what happened since the
  last time the buffer was cleared.
-/

namespace NaiveRtc.Jitter

open WrapAround

/-! ## Data -/

/-- Max number of frames the buffer will hold. -/
def kMaxFramesBuffered : Nat := 800

/-- Max number of decoded frames that will be remembered. -/
def kMaxFramesHistory : Nat := 8192

/-- How late a frame may be and still be rendered, in milliseconds. -/
def kMaxAllowedFrameDelayMs : Int := 5

/-- `FrameToDecode`, as far as the buffer looks at it. -/
structure FrameToDecode where
  id : Int
  frameType : FrameType
  timestamp : U32
  /-- `referred_frame_ids_`, a set of ids in ascending order. -/
  references : List Int
  sorted : references.Pairwise (· < ·)
  deriving DecidableEq

/-- `is_keyframe()`. -/
def FrameToDecode.isKeyframe (f : FrameToDecode) : Bool := f.frameType == .key

/-- `FrameInfo`; without a frame it is a placeholder for one that has not arrived. -/
structure FrameInfo where
  numMissingContinuous : Nat := 0
  numMissingDecodable : Nat := 0
  dependentFrames : List Int := []
  frame : Option FrameToDecode := none
  deriving DecidableEq

/-- `frame_id()`. -/
def FrameInfo.frameId (info : FrameInfo) : Int :=
  match info.frame with
  | none => -1
  | some f => f.id

/-- `continuous()`. -/
def FrameInfo.continuous (info : FrameInfo) : Bool := info.numMissingContinuous == 0

/-- `frame_infos_`, by frame identifier. -/
abbrev FrameInfoMap := Std.TreeMap Int FrameInfo

/-- `frame_infos_[id]` as an lvalue: the entry is created if it is not there. -/
def updateInfo (m : FrameInfoMap) (id : Int) (f : FrameInfo → FrameInfo) : FrameInfoMap :=
  m.alter id fun o => some (f (o.getD {}))

/-- `frame_infos_.begin()->first`. -/
def firstKey (m : FrameInfoMap) : Option Int := m.toList.head?.map Prod.fst

/-- `frame_infos_.rbegin()->first`. -/
def lastKey (m : FrameInfoMap) : Option Int := m.toList.getLast?.map Prod.fst

/-- The state of `FrameBuffer`, less clock, timing and jitter estimation. -/
structure FrameBuffer where
  decodedFramesHistory : DecodedFramesHistory
  lastContinuousFrameId : Option Int
  frameInfos : FrameInfoMap
  /-- `frame_to_decode_`: not set, or an iterator; `some none` is the end iterator. -/
  frameToDecode : Option (Option Int)

namespace FrameBuffer

/-- The constructor. -/
def create : FrameBuffer where
  decodedFramesHistory := .create kMaxFramesHistory
  lastContinuousFrameId := none
  frameInfos := ∅
  frameToDecode := none

/-- `ClearFramesAndHistory()`. -/
def clearFramesAndHistory (s : FrameBuffer) : FrameBuffer where
  decodedFramesHistory := s.decodedFramesHistory.clear
  lastContinuousFrameId := none
  frameInfos := ∅
  frameToDecode := none

/-! ## Insertion -/

/-- `ValidReferences(frame)`. -/
def validReferences (f : FrameToDecode) : Bool :=
  if f.frameType = .key then f.references.length == 0 else f.references.all (· < f.id)

/-- The walk over the references in `EmplaceFrameInfo`: the ones not decoded yet, each
with the answer whether it is continuous; `none` if one can never be decoded. -/
def notYetFulfilled (s : FrameBuffer) (infos : FrameInfoMap) : List Int → Option (List (Int × Bool))
  | [] => some []
  | ref :: refs =>
    if s.decodedFramesHistory.lastDecodedFrameId.any (ref ≤ ·) then
      if s.decodedFramesHistory.wasDecoded ref then notYetFulfilled s infos refs else none
    else
      (notYetFulfilled s infos refs).map ((ref, infos[ref]?.any (·.continuous)) :: ·)

/-- The reverse links: every unfulfilled reference learns of the frame, with a
placeholder for a reference that has not arrived. -/
def linkReferences (infos : FrameInfoMap) (frameId : Int) (refs : List (Int × Bool)) :
    FrameInfoMap :=
  refs.foldl (fun m ref => updateInfo m ref.1 fun info =>
    { info with dependentFrames := info.dependentFrames ++ [frameId] }) infos

/-- `EmplaceFrameInfo(frame)`; every failure leaves the entry under the frame's own
id behind. -/
def emplaceFrameInfo (s : FrameBuffer) (f : FrameToDecode) : FrameBuffer × Bool :=
  let infos := updateInfo s.frameInfos f.id id
  let s := { s with frameInfos := infos }
  if infos[f.id]?.any (·.frame.isSome) then (s, false)
  else if s.decodedFramesHistory.lastDecodedFrameId.any (f.id ≤ ·) then (s, false)
  else
    match notYetFulfilled s infos f.references with
    | none => (s, false)
    | some refs =>
      let infos := updateInfo infos f.id fun info =>
        { info with
          frame := some f
          numMissingContinuous := refs.length - refs.countP (·.2)
          numMissingDecodable := refs.length }
      ({ s with frameInfos := linkReferences infos f.id refs }, true)

/-- `--` on a `size_t`. -/
def decrement : Nat → Nat
  | 0 => 2 ^ 64 - 1
  | n + 1 => n

/-- What the search carries along: the entries, the queue, and whether a counter
was decremented at zero. -/
structure Propagation where
  infos : FrameInfoMap
  queue : List Int
  underflow : Bool

/-- One round of the inner loop of `PropagateContinuity`. -/
def fulfil (p : Propagation) (depFrameId : Int) : Propagation :=
  match p.infos[depFrameId]? with
  | none => p
  | some info =>
    { infos := updateInfo p.infos depFrameId fun i =>
        { i with numMissingContinuous := decrement i.numMissingContinuous }
      queue := if decrement info.numMissingContinuous = 0 then p.queue ++ [depFrameId] else p.queue
      underflow := p.underflow || info.numMissingContinuous == 0 }

/-- The newest continuous id, with one more. -/
def newerContinuous (last : Option Int) (id : Int) : Int :=
  match last with
  | none => id
  | some l => if l < id then id else l

/-- The breadth-first search of `PropagateContinuity`; `none` when `fuel` rounds do
not empty the queue. -/
def propagateLoop : Nat → Propagation → Option Int → Option (Propagation × Option Int)
  | 0, p, last => if p.queue = [] then some (p, last) else none
  | fuel + 1, p, last =>
    match p.queue with
    | [] => some (p, last)
    | id :: queue =>
      let info := p.infos[id]?.getD {}
      propagateLoop fuel (info.dependentFrames.foldl fulfil { p with queue })
        (some (newerContinuous last info.frameId))

/-- Rounds the search gets: a queue entry can only lead to larger ids, so a tree as
deep as there are entries and as wide as there are links bounds it
(`propagateContinuity_isSome`). -/
def propagationFuel (infos : FrameInfoMap) : Nat :=
  ((infos.toList.map fun e => e.2.dependentFrames.length).sum + 1) ^ infos.size

/-- `PropagateContinuity(frame_info)`, from the entry under `id`. -/
def propagateContinuity (s : FrameBuffer) (id : Int) : Option (FrameBuffer × Bool) :=
  (propagateLoop (propagationFuel s.frameInfos) ⟨s.frameInfos, [id], false⟩
    s.lastContinuousFrameId).map fun r =>
      ({ s with frameInfos := r.1.infos, lastContinuousFrameId := r.2 }, r.1.underflow)

/-- What `InsertFrame` returns, and two marks of ours: whether the buffer was cleared
on the way and whether a counter went below zero. -/
structure InsertResult where
  lastContinuousFrameId : Int
  success : Bool
  cleared : Bool := false
  underflow : Bool := false
  deriving DecidableEq

/-- The end of `InsertFrame`, once it is clear that the frame belongs in the buffer. -/
def insertAccepted (s : FrameBuffer) (f : FrameToDecode) (last : Int) (cleared : Bool) :
    FrameBuffer × InsertResult :=
  -- the ids are unwrapped, so no id is below the first and above the last entry
  let jump := (firstKey s.frameInfos).any (f.id < ·) && (lastKey s.frameInfos).any (· < f.id)
  let s := if jump then s.clearFramesAndHistory else s
  let last := if jump then -1 else last
  let cleared := cleared || jump
  match s.emplaceFrameInfo f with
  | (s, false) => (s, { lastContinuousFrameId := last, success := false, cleared })
  | (s, true) =>
    if s.frameInfos[f.id]?.any (·.continuous) then
      let r := (s.propagateContinuity f.id).getD (s, false)
      (r.1, { lastContinuousFrameId := r.1.lastContinuousFrameId.getD (-1), success := true,
              cleared, underflow := r.2 })
    else (s, { lastContinuousFrameId := last, success := true, cleared })

/-- `InsertFrame(frame)`. -/
def insertFrame (s : FrameBuffer) (f : FrameToDecode) : FrameBuffer × InsertResult :=
  let last := s.lastContinuousFrameId.getD (-1)
  if !validReferences f then (s, { lastContinuousFrameId := last, success := false })
  else
    let full := decide (kMaxFramesBuffered ≤ s.frameInfos.size)
    if full && !f.isKeyframe then (s, { lastContinuousFrameId := last, success := false })
    else
      let s := if full then s.clearFramesAndHistory else s
      if s.decodedFramesHistory.lastDecodedFrameId.any (f.id ≤ ·) then
        -- an earlier id: a jump in the ids if the frame is a newer keyframe, too late otherwise
        if s.decodedFramesHistory.lastDecodedFrameTimestamp.any (aheadOf f.timestamp ·) &&
            f.isKeyframe then
          insertAccepted s.clearFramesAndHistory f (-1) true
        else (s, { lastContinuousFrameId := last, success := false, cleared := full })
      else insertAccepted s f last full

/-! ## Decoding -/

/-- May this entry be chosen? -/
def decodable (s : FrameBuffer) (keyframeRequired : Bool) (info : FrameInfo) : Bool :=
  match info.frame with
  | none => false
  | some f =>
    info.continuous && info.numMissingDecodable == 0 && (!keyframeRequired || f.isKeyframe) &&
      !s.decodedFramesHistory.lastDecodedFrameTimestamp.any (aheadOf · f.timestamp)

/-- The loop of `FindNextFrameToDecode` over the entries in id order: the choice so
far and its waiting time. -/
def findLoop (s : FrameBuffer) (keyframeRequired : Bool) (waitTimeMs : Int → Int) :
    List (Int × FrameInfo) → Option Int × Int → Option Int × Int
  | [], found => found
  | (id, info) :: rest, found =>
    if s.lastContinuousFrameId.any (id ≤ ·) then
      if s.decodable keyframeRequired info then
        -- a frame that is too late is only kept if no later one can be decoded
        if waitTimeMs id < -kMaxAllowedFrameDelayMs then
          findLoop s keyframeRequired waitTimeMs rest (some id, waitTimeMs id)
        else (some id, waitTimeMs id)
      else findLoop s keyframeRequired waitTimeMs rest found
    else found

/-- `FindNextFrameToDecode()`, with what is left until the deadline and the waiting
time `Timing` gives for each frame; returns the time to wait. -/
def findNextFrameToDecode (s : FrameBuffer) (keyframeRequired : Bool) (maxWaitTimeMs : Int)
    (waitTimeMs : Int → Int) : FrameBuffer × Int :=
  let r := findLoop s keyframeRequired waitTimeMs s.frameInfos.toList (none, maxWaitTimeMs)
  ({ s with frameToDecode := r.1.map some }, max (min r.2 maxWaitTimeMs) 0)

/-- `PropagateDecodability(frame_info)`. -/
def propagateDecodability (infos : FrameInfoMap) (dependentFrames : List Int) : FrameInfoMap :=
  dependentFrames.foldl (fun m id =>
    if m[id]?.any (0 < ·.numMissingDecodable) then
      updateInfo m id fun i => { i with numMissingDecodable := i.numMissingDecodable - 1 }
    else m) infos

/-- `frame_infos_.erase(begin, ++it)`: the entry and everything before it. -/
def eraseUpTo (infos : FrameInfoMap) (id : Int) : FrameInfoMap := infos.filter fun k _ => id < k

/-- `GetNextFrameToDecode()` for the entry the iterator points to; the iterator is
left at the entry behind it. -/
def getNextFrameToDecode (s : FrameBuffer) (id : Int) (info : FrameInfo) (f : FrameToDecode) :
    FrameBuffer :=
  let infos := eraseUpTo (propagateDecodability s.frameInfos info.dependentFrames) id
  { s with
    decodedFramesHistory := s.decodedFramesHistory.insertFrame f.id f.timestamp
    frameInfos := infos
    frameToDecode := some (firstKey infos) }

/-- The ids of the buffered frames that are continuous. -/
def continuousIds (s : FrameBuffer) : List Int :=
  s.frameInfos.toList.filterMap fun e =>
    if e.2.frame.isSome && e.2.continuous then some e.1 else none

end FrameBuffer

/-! ## The buffer and its callers -/

/-- The buffer, and whether the last choice is still to be collected: the delayed
task calls `GetNextFrameToDecode` at most once after each search. -/
structure World where
  buffer : FrameBuffer
  selected : Bool

/-- A call. -/
inductive Op where
  | insertFrame (f : FrameToDecode)
  | findNextFrameToDecode (keyframeRequired : Bool) (maxWaitTimeMs : Int) (waitTimeMs : Int → Int)
  | getNextFrameToDecode
  | clear

/-- What a call answers. -/
inductive Event where
  | inserted (result : FrameBuffer.InsertResult)
  | found (waitTimeMs : Int)
  /-- The frame handed out, and whether the assertion of the history held. -/
  | decoded (f : FrameToDecode) (assertion : Bool)
  | cleared
  | idle
  deriving DecidableEq

/-- The buffer as a machine. -/
def machine : Machine World Op Event where
  step w
    | .insertFrame f =>
      let r := w.buffer.insertFrame f
      ({ w with buffer := r.1 }, .inserted r.2)
    | .findNextFrameToDecode k m t =>
      let r := w.buffer.findNextFrameToDecode k m t
      (⟨r.1, true⟩, .found r.2)
    | .getNextFrameToDecode =>
      match w.selected, w.buffer.frameToDecode with
      | true, some (some id) =>
        match w.buffer.frameInfos[id]? with
        | some info =>
          match info.frame with
          | some f =>
            (⟨w.buffer.getNextFrameToDecode id info f, false⟩,
              .decoded f (w.buffer.decodedFramesHistory.insertAssertion f.id))
          | none => (w, .idle)
        | none => (w, .idle)
      | _, _ => (w, .idle)
    | .clear => ({ w with buffer := w.buffer.clearFramesAndHistory }, .cleared)

/-- A fresh buffer. -/
def start : World := ⟨.create, false⟩

/-- What happened since the buffer was last cleared. -/
structure History where
  /-- The frames handed out, oldest first. -/
  handedOut : List FrameToDecode := []
  /-- The frames stored. -/
  arrived : List FrameToDecode := []
  /-- The ids under which a continuous frame was seen in the buffer. -/
  seenContinuous : List Int := []

/-- Did the call clear the buffer? -/
def Event.clears : Event → Bool
  | .inserted r => r.cleared
  | .cleared => true
  | _ => false

/-- The frame stored by a call. -/
def stored : Op → Event → List FrameToDecode
  | .insertFrame f, .inserted r => if r.success then [f] else []
  | _, _ => []

/-- The frame handed out by a call. -/
def handed : Event → List FrameToDecode
  | .decoded f _ => [f]
  | _ => []

/-- The record after one more call. -/
def History.update (h : History) (op : Op) (e : Event) (w : World) : History :=
  let h := if e.clears then {} else h
  { handedOut := h.handedOut ++ handed e
    arrived := h.arrived ++ stored op e
    seenContinuous := h.seenContinuous ++ w.buffer.continuousIds }

/-- The buffer next to its record. -/
def watched : Machine (World × History) Op Event := machine.monitor History.update

/-- What a run from a fresh buffer reaches. -/
def reached (ops : List Op) : World × History := watched.final (start, {}) ops

end NaiveRtc.Jitter
