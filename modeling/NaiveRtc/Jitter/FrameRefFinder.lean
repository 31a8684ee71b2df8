import NaiveRtc.Components.NumUnwrapper
import NaiveRtc.Lib.Ordered
import NaiveRtc.Media.Video

/-!
# The reference finder

The model of `rtc/rtp_rtcp/rtp/receiver/video/jitter/frame_ref_finder_seq_num.cpp`: complete
frames get their id and their reference from the sequence numbers alone, and wait until
everything before them has arrived.

* `RefFrame`, `GopInfo`, `SeqNumFrameRefFinder` — the state.
* `updateGopInfo`, `findRefForFrame`, `retryStashedFrames` — the private functions.
* `insertFrame`, `insertPadding`, `clearTo` — the calls, `finderMachine` — driven by them.
-/

namespace NaiveRtc.Jitter

open WrapAround Ordered

/-- A group of pictures is moved on once the stream is further than this from its number. -/
def kMaxGopPacketAge : Nat := 10000

/-- Groups of pictures this far behind are forgotten, -/
def kMaxGopInfoAge : U16 := 100

/-- and so are paddings. -/
def kMaxPaddingAge : Nat := 100

/-- So many frames wait for their references. -/
def kMaxStashedFrames : Nat := 100

/-- `FrameToDecode`, as far as the finder looks at it. -/
structure RefFrame where
  frameType : FrameType
  seqNumStart : U16
  seqNumEnd : U16
  /-- `cdata() != nullptr`. -/
  hasData : Bool
  id : Int := -1
  /-- `referred_frame_ids_`, a set of ids in ascending order. -/
  references : List Int := []
  deriving DecidableEq

/-- `InsertReference(frame_id)`: the frame, and whether the id is new. -/
def RefFrame.insertReference (f : RefFrame) (frameId : Int) : RefFrame × Bool :=
  if frameId ∈ f.references then (f, false)
  else
    ({ f with references := insertBy (fun a b => decide (a < b)) (fun a => a) frameId f.references }, true)

/-- `GopInfo`. -/
structure GopInfo where
  lastPictureIdGop : U16
  lastPictureIdWithPaddingGop : U16
  deriving DecidableEq

/-- `FrameDecision`. -/
inductive FrameDecision
  | stashed
  | handOff
  | dropped
  deriving DecidableEq

/-- `SeqNumFrameRefFinder`.  The map and the set are ordered by `olderThan` and kept in
iteration order. -/
structure SeqNumFrameRefFinder where
  pictureIdOffset : Int
  gopInfos : List (U16 × GopInfo)
  stashedPadding : List U16
  stashedFrames : List RefFrame
  seqNumUnwrapper : NumberUnwrapper
  deriving DecidableEq

namespace SeqNumFrameRefFinder

/-- `SeqNumFrameRefFinder(picture_id_offset)`. -/
def create (pictureIdOffset : Int) : SeqNumFrameRefFinder :=
  { pictureIdOffset := pictureIdOffset, gopInfos := [], stashedPadding := [], stashedFrames := []
    seqNumUnwrapper := none }

/-! ## Groups of pictures -/

/-- The entries before `gop_infos_.upper_bound(seq_num)`. -/
def gopsUpTo (s : SeqNumFrameRefFinder) (seqNum : U16) : List (U16 × GopInfo) :=
  s.gopInfos.takeWhile fun gop => !olderThan seqNum gop.1

/-- The loop of `UpdateGopInfo`, from the lower bound of the next number on: the last number
that is reached, and the padding that stays. -/
def advancePadding (last : U16) : List U16 → U16 × List U16
  | [] => (last, [])
  | padding :: rest =>
    if padding = last + 1 then advancePadding padding rest else (last, padding :: rest)

/-- `UpdateGopInfo(seq_num)`. -/
def updateGopInfo (s : SeqNumFrameRefFinder) (seqNum : U16) : SeqNumFrameRefFinder :=
  match (s.gopsUpTo seqNum).getLast? with
  | none => s
  | some (key, info) =>
    let before := s.stashedPadding.takeWhile fun p =>
      olderThan p (info.lastPictureIdWithPaddingGop + 1)
    let (last, rest) := advancePadding info.lastPictureIdWithPaddingGop
      (s.stashedPadding.drop before.length)
    let info := { info with lastPictureIdWithPaddingGop := last }
    { s with
      stashedPadding := before ++ rest
      gopInfos :=
        if kMaxGopPacketAge < (forwardDiff key seqNum).toNat then [(seqNum, info)]
        else s.gopInfos.set ((s.gopsUpTo seqNum).length - 1) (key, info) }

/-- The new entry of a keyframe, and old entries dropped but for the last. -/
def trackKeyframe (s : SeqNumFrameRefFinder) (frame : RefFrame) : SeqNumFrameRefFinder :=
  let gops :=
    if frame.frameType = .key then
      insertBy olderThan Prod.fst (frame.seqNumEnd, ⟨frame.seqNumEnd, frame.seqNumEnd⟩) s.gopInfos
    else s.gopInfos
  let old := (gops.takeWhile fun gop => olderThan gop.1 (frame.seqNumEnd - kMaxGopInfoAge)).length
  { s with gopInfos := gops.drop (min old (gops.length - 1)) }

/-- The second half of `FindRefForFrame`, for a frame of the group `(key, info)` that follows
what has been seen of it. -/
def handOff (s : SeqNumFrameRefFinder) (frame : RefFrame) (key : U16) (info : GopInfo) :
    SeqNumFrameRefFinder × RefFrame × FrameDecision :=
  let (unwrapper, frame, success) :=
    if frame.frameType = .delta then
      let (referred, unwrapper) := s.seqNumUnwrapper.unwrap info.lastPictureIdGop
      (unwrapper, frame.insertReference (s.pictureIdOffset + referred))
    else (s.seqNumUnwrapper, frame, true)
  let s := { s with seqNumUnwrapper := unwrapper }
  if success = false then (s, frame, .dropped)
  else
    let info :=
      if aheadOf frame.seqNumEnd info.lastPictureIdGop then ⟨frame.seqNumEnd, frame.seqNumEnd⟩
      else info
    let s := { s with
      gopInfos := s.gopInfos.set ((s.gopsUpTo frame.seqNumEnd).length - 1) (key, info) }
    let s := s.updateGopInfo frame.seqNumEnd
    let (pictureId, unwrapper) := s.seqNumUnwrapper.unwrap frame.seqNumEnd
    ({ s with seqNumUnwrapper := unwrapper },
      { frame with id := s.pictureIdOffset + pictureId }, .handOff)

/-- `FindRefForFrame(frame)`: the finder, the frame and the decision.  The assertion holds, as
the group was found by the same comparison. -/
def findRefForFrame (s : SeqNumFrameRefFinder) (frame : RefFrame) :
    SeqNumFrameRefFinder × RefFrame × FrameDecision :=
  let s := s.trackKeyframe frame
  if s.gopInfos = [] then (s, frame, .stashed)
  else
    match (s.gopsUpTo frame.seqNumEnd).getLast? with
    | none => (s, frame, .dropped)
    | some (key, info) =>
      if frame.frameType = .delta ∧ frame.seqNumStart - 1 ≠ info.lastPictureIdWithPaddingGop then
        (s, frame, .stashed)
      else s.handOff frame key info

/-! ## Frames that wait -/

/-- One round over the stashed frames: the finder, the frames that stay and those that are
handed off. -/
def retryRound (s : SeqNumFrameRefFinder) :
    List RefFrame → SeqNumFrameRefFinder × List RefFrame × List RefFrame
  | [] => (s, [], [])
  | frame :: frames =>
    match s.findRefForFrame frame with
    | (s, frame, .stashed) =>
      let (s, kept, handedOff) := retryRound s frames
      (s, frame :: kept, handedOff)
    | (s, frame, .handOff) =>
      let (s, kept, handedOff) := retryRound s frames
      (s, kept, frame :: handedOff)
    | (s, _, .dropped) => retryRound s frames

/-- The loop of `RetryStashedFrames`, for at most `fuel` rounds. -/
def retryLoop : Nat → SeqNumFrameRefFinder → SeqNumFrameRefFinder × List RefFrame
  | 0, s => (s, [])
  | fuel + 1, s =>
    let (s', kept, handedOff) := s.retryRound s.stashedFrames
    let s := { s' with stashedFrames := kept }
    if handedOff = [] then (s, [])
    else
      let (s, more) := retryLoop fuel s
      (s, handedOff ++ more)

/-- `RetryStashedFrames()`: the finder and the frames that are handed off. -/
def retryStashedFrames (s : SeqNumFrameRefFinder) : SeqNumFrameRefFinder × List RefFrame :=
  retryLoop (s.stashedFrames.length + 1) s

/-! ## The calls -/

/-- `InsertFrame(frame)`: the finder and the frames that are handed off. -/
def insertFrame (s : SeqNumFrameRefFinder) (frame : RefFrame) :
    SeqNumFrameRefFinder × List RefFrame :=
  if frame.hasData = false then (s, [])
  else
    match s.findRefForFrame frame with
    | (s, frame, .stashed) =>
      ({ s with
        stashedFrames := frame ::
          (if kMaxStashedFrames < s.stashedFrames.length then s.stashedFrames.dropLast
            else s.stashedFrames) }, [])
    | (s, frame, .handOff) =>
      let (s, more) := s.retryStashedFrames
      (s, frame :: more)
    | (s, _, .dropped) => (s, [])

/-- `InsertPadding(seq_num)`. -/
def insertPadding (s : SeqNumFrameRefFinder) (seqNum : U16) :
    SeqNumFrameRefFinder × List RefFrame :=
  let s := { s with
    stashedPadding := insertBy olderThan id seqNum
      (eraseBelow olderThan id (seqNum - BitVec.ofNat 16 kMaxPaddingAge) s.stashedPadding) }
  (s.updateGopInfo seqNum).retryStashedFrames

/-- `ClearTo(seq_num)`. -/
def clearTo (s : SeqNumFrameRefFinder) (seqNum : U16) : SeqNumFrameRefFinder :=
  { s with stashedFrames := s.stashedFrames.filter fun frame => !aheadOf seqNum frame.seqNumStart }

/-- The calls. -/
inductive Op
  | insertFrame (frame : RefFrame)
  | insertPadding (seqNum : U16)
  | clearTo (seqNum : U16)
  deriving DecidableEq

end SeqNumFrameRefFinder

/-- The finder driven by calls; a step gives the frames that are handed off. -/
def finderMachine : Machine SeqNumFrameRefFinder SeqNumFrameRefFinder.Op (List RefFrame) where
  step s
    | .insertFrame frame => s.insertFrame frame
    | .insertPadding seqNum => s.insertPadding seqNum
    | .clearTo seqNum => (s.clearTo seqNum, [])

namespace SeqNumFrameRefFinder

/-! ## The loop ends -/

theorem retryRound_length (s : SeqNumFrameRefFinder) (frames : List RefFrame) :
    (s.retryRound frames).2.1.length + (s.retryRound frames).2.2.length ≤ frames.length := by
  induction frames generalizing s with
  | nil => exact Nat.le_refl 0
  | cons frame frames ih =>
    rw [retryRound]
    rcases s.findRefForFrame frame with ⟨s', frame', decision⟩
    have hrest := ih s'
    cases decision with
    | stashed =>
      show (_ :: (s'.retryRound frames).2.1).length + (s'.retryRound frames).2.2.length ≤ _
      rw [List.length_cons, List.length_cons]
      omega
    | handOff =>
      show (s'.retryRound frames).2.1.length + (_ :: (s'.retryRound frames).2.2).length ≤ _
      rw [List.length_cons, List.length_cons]
      omega
    | dropped =>
      rw [List.length_cons]
      exact Nat.le_succ_of_le hrest

end SeqNumFrameRefFinder

end NaiveRtc.Jitter
