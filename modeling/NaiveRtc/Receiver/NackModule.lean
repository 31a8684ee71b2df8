import NaiveRtc.Components.WrapAround
import NaiveRtc.Lib.Machine
import NaiveRtc.Lib.Ordered

/-!
# The NACK module

The model of `rtc/rtp_rtcp/rtp/receiver/nack_module_impl.{hpp,cpp}`.  The three
containers `keyframe_list_`, `recovered_list_` and `nack_list_` are ordered by
`OlderThan`; each is kept as the list of its entries in iteration order, with
`lower_bound` the first entry that is not older than the key.  Entries spread over more
than half the circle need not be cut in two by the key; the search of the source may then
end at another entry.

* `clearUpTo`, `insertPacket`, `updateRtt`, `nackListOnRttPassed` — the public
  calls; `addPacketsToNack`, `removePacketsUntilKeyFrame`, `nackListToSend` — the
  private ones.
* `World`, `Op`, `machine` — the module together with the clock it reads, driven
  by calls and by the passing of time.
-/

namespace NaiveRtc.Nack

open WrapAround Ordered

/-! ## Data -/

/-- Numbers further than this behind the newest one are dropped. -/
def kMaxPacketAge : Nat := 10000

/-- The NACK list never holds more entries than this. -/
def kMaxNackPacketCount : Nat := 1000

/-- The round-trip time assumed before the first update. -/
def kDefaultRttMs : Int := 100

/-- A number is given up after this many requests. -/
def kMaxNackRetries : Nat := 10

/-- `NackInfo`: one missing packet. -/
structure NackInfo where
  /-- The missing sequence number, also the key the entry is stored under. -/
  seqNum : U16
  /-- When the gap was noticed. -/
  createdTime : Int
  /-- When it was last requested. -/
  sentTime : Option Int
  /-- How often it was requested. -/
  retries : Nat
  deriving DecidableEq

/-- The state of `NackModuleImpl`. -/
structure NackModuleImpl where
  sendNackDelayMs : Int
  initialized : Bool
  rttMs : Int
  newestSeqNum : U16
  keyframeList : List U16
  recoveredList : List U16
  nackList : List NackInfo
  deriving DecidableEq

/-- `InsertResult`. -/
structure InsertResult where
  nacksSentForSeqNum : Nat := 0
  keyframeRequested : Bool := false
  nackListToSend : List U16 := []
  deriving DecidableEq

/-- Which entries a batch considers. -/
inductive NackFilterType where
  /-- Entries not requested yet, at or before a sequence number. -/
  | seqNum
  /-- Entries requested at least one round trip ago. -/
  | time
  deriving DecidableEq

/-- The constructor. -/
def create (sendNackDelayMs : Int) : NackModuleImpl where
  sendNackDelayMs := sendNackDelayMs
  initialized := false
  rttMs := kDefaultRttMs
  newestSeqNum := 0
  keyframeList := []
  recoveredList := []
  nackList := []

/-! ## The calls -/

/-- `ClearUpTo(seq_num)`. -/
def clearUpTo (s : NackModuleImpl) (seqNum : U16) : NackModuleImpl :=
  { s with
    nackList := eraseBelow olderThan NackInfo.seqNum seqNum s.nackList
    keyframeList := eraseBelow olderThan id seqNum s.keyframeList
    recoveredList := eraseBelow olderThan id seqNum s.recoveredList }

/-- `UpdateRtt(rtt_ms)`. -/
def updateRtt (s : NackModuleImpl) (rttMs : Int) : NackModuleImpl := { s with rttMs := rttMs }

/-- The loop of `RemovePacketsUntilKeyFrame`, over the keyframe list and the NACK
list: the first keyframe newer than some entry prunes the list and stays, the
ones before it are forgotten. -/
def removeUntilKeyFrame : List U16 → List NackInfo → List U16 × List NackInfo × Bool
  | [], nacks => ([], nacks, false)
  | k :: ks, nacks =>
    let rest := eraseBelow olderThan NackInfo.seqNum k nacks
    if rest.length < nacks.length then (k :: ks, rest, true)
    else removeUntilKeyFrame ks nacks

/-- `RemovePacketsUntilKeyFrame()`. -/
def removePacketsUntilKeyFrame (s : NackModuleImpl) : NackModuleImpl × Bool :=
  let r := removeUntilKeyFrame s.keyframeList s.nackList
  ({ s with keyframeList := r.1, nackList := r.2.1 }, r.2.2)

/-- The `while` loop of `AddPacketsToNack`: prune until the new entries fit or no
keyframe helps any more.  `none` after `fuel` rounds without an end. -/
def pruneLoop (numNewNacks : Nat) : Nat → NackModuleImpl → Option NackModuleImpl
  | 0, _ => none
  | fuel + 1, s =>
    match removePacketsUntilKeyFrame s with
    | (s', false) => some s'
    | (s', true) =>
      if kMaxNackPacketCount < s'.nackList.length + numNewNacks then pruneLoop numNewNacks fuel s'
      else some s'

/-- The `for` loop of `AddPacketsToNack`, `count` numbers from `seqNum` on. -/
def addNacks (now : Int) (recovered : List U16) : Nat → U16 → List NackInfo → List NackInfo
  | 0, _, nacks => nacks
  | count + 1, seqNum, nacks =>
    addNacks now recovered count (seqNum + 1)
      (if seqNum ∈ recovered then nacks
       else assignBy olderThan NackInfo.seqNum ⟨seqNum, now, none, 0⟩ nacks)

/-- The age limit a newer number sets. -/
def oldestKept (seqNum : U16) : U16 := seqNum - BitVec.ofNat 16 kMaxPacketAge

/-- `AddPacketsToNack(seq_num_start, seq_num_end)`; the pruning loop gets one round
more than there are entries, which `pruneLoop_isSome` shows to be enough. -/
def addPacketsToNack (s : NackModuleImpl) (now : Int) (seqNumStart seqNumEnd : U16) :
    NackModuleImpl × Bool :=
  let s := { s with
    nackList := eraseBelow olderThan NackInfo.seqNum (oldestKept seqNumEnd) s.nackList }
  let numNewNacks := (forwardDiff seqNumStart seqNumEnd).toNat
  let add (s : NackModuleImpl) : NackModuleImpl × Bool :=
    ({ s with nackList := addNacks now s.recoveredList numNewNacks seqNumStart s.nackList }, true)
  if kMaxNackPacketCount < s.nackList.length + numNewNacks then
    let s := (pruneLoop numNewNacks (s.nackList.length + 1) s).getD s
    if kMaxNackPacketCount < s.nackList.length + numNewNacks then ({ s with nackList := [] }, false)
    else add s
  else add s

/-- Is this entry due in a batch of the given type? -/
def isDue (s : NackModuleImpl) (now : Int) (type : NackFilterType) (seqNum : U16)
    (info : NackInfo) : Bool :=
  let delayTimedOut := decide (s.sendNackDelayMs ≤ now - info.createdTime)
  let nackOnRttPassed :=
    match type, info.sentTime with
    | .time, some sent => decide (s.rttMs ≤ now - sent)
    | _, _ => false
  let nackOnSeqNumPassed :=
    match type, info.sentTime with
    | .seqNum, none => aheadOrAt seqNum info.seqNum
    | _, _ => false
  delayTimedOut && (nackOnRttPassed || nackOnSeqNumPassed)

/-- The loop of `NackListToSend`: the numbers to request and the entries that
stay, an entry leaving once it has been requested `kMaxNackRetries` times. -/
def sendDue (s : NackModuleImpl) (now : Int) (type : NackFilterType) (seqNum : U16) :
    List NackInfo → List U16 × List NackInfo
  | [] => ([], [])
  | info :: rest =>
    let r := sendDue s now type seqNum rest
    if isDue s now type seqNum info then
      (info.seqNum :: r.1,
        if kMaxNackRetries ≤ info.retries + 1 then r.2
        else { info with retries := info.retries + 1, sentTime := some now } :: r.2)
    else (r.1, info :: r.2)

/-- `NackListToSend(type, seq_num)`. -/
def nackListToSend (s : NackModuleImpl) (now : Int) (type : NackFilterType) (seqNum : U16) :
    NackModuleImpl × List U16 :=
  let r := sendDue s now type seqNum s.nackList
  ({ s with nackList := r.2 }, r.1)

/-- `NackListUpTo(seq_num)`. -/
def nackListUpTo (s : NackModuleImpl) (now : Int) (seqNum : U16) : NackModuleImpl × List U16 :=
  nackListToSend s now .seqNum seqNum

/-- `NackListOnRttPassed()`. -/
def nackListOnRttPassed (s : NackModuleImpl) (now : Int) : NackModuleImpl × List U16 :=
  nackListToSend s now .time s.newestSeqNum

/-- Keep track of a new keyframe and forget the ones that are too old. -/
def trackKeyframe (s : NackModuleImpl) (seqNum : U16) (isKeyframe : Bool) : NackModuleImpl :=
  { s with
    keyframeList := eraseBelow olderThan id (oldestKept seqNum)
      (if isKeyframe then insertBy olderThan id seqNum s.keyframeList else s.keyframeList) }

/-- The part of `InsertPacket` for a number newer than `newest_seq_num_`. -/
def insertNewer (s : NackModuleImpl) (now : Int) (seqNum : U16) (isKeyframe isRecovered : Bool) :
    NackModuleImpl × InsertResult :=
  let s := trackKeyframe s seqNum isKeyframe
  if isRecovered then
    ({ s with
      recoveredList := eraseBelow olderThan id (oldestKept seqNum)
        (insertBy olderThan id seqNum s.recoveredList) }, {})
  else
    let added := addPacketsToNack s now (s.newestSeqNum + 1) seqNum
    let sent := nackListUpTo { added.1 with newestSeqNum := seqNum } now seqNum
    (sent.1, { keyframeRequested := !added.2, nackListToSend := sent.2 })

/-- `InsertPacket(seq_num, is_keyframe, is_recovered)`. -/
def insertPacket (s : NackModuleImpl) (now : Int) (seqNum : U16) (isKeyframe isRecovered : Bool) :
    NackModuleImpl × InsertResult :=
  if !s.initialized then
    ({ s with
      newestSeqNum := seqNum
      keyframeList := if isKeyframe then insertBy olderThan id seqNum s.keyframeList
        else s.keyframeList
      initialized := true }, {})
  else if seqNum = s.newestSeqNum then (s, {})
  else if aheadOf s.newestSeqNum seqNum then
    match s.nackList.find? (·.seqNum = seqNum) with
    | some info =>
      ({ s with nackList := s.nackList.filter (·.seqNum ≠ seqNum) },
        { nacksSentForSeqNum := info.retries })
    | none => (s, {})
  else insertNewer s now seqNum isKeyframe isRecovered

/-! ## The module and its clock -/

/-- The module together with the clock it reads. -/
structure World where
  nowMs : Int
  nack : NackModuleImpl
  deriving DecidableEq

/-- A call, or the passing of time. -/
inductive Op where
  | insertPacket (seqNum : U16) (isKeyframe isRecovered : Bool)
  | clearUpTo (seqNum : U16)
  | updateRtt (rttMs : Int)
  | nackListOnRttPassed
  | advanceTime (ms : Nat)
  deriving DecidableEq

/-- The module as a machine; the output of a step is the list of sequence numbers
it hands out for a NACK message. -/
def machine : Machine World Op (List U16) where
  step w
    | .insertPacket q k r =>
      let p := insertPacket w.nack w.nowMs q k r
      ({ w with nack := p.1 }, p.2.nackListToSend)
    | .clearUpTo q => ({ w with nack := clearUpTo w.nack q }, [])
    | .updateRtt r => ({ w with nack := updateRtt w.nack r }, [])
    | .nackListOnRttPassed =>
      let p := nackListOnRttPassed w.nack w.nowMs
      ({ w with nack := p.1 }, p.2)
    | .advanceTime ms => ({ w with nowMs := w.nowMs + ms }, [])

/-- A fresh module. -/
def start (nowMs sendNackDelayMs : Int) : World := ⟨nowMs, create sendNackDelayMs⟩

end NaiveRtc.Nack
