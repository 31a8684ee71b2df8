import NaiveRtc.Components.WrapAround
import Mathlib.Data.List.Pairwise
import Mathlib.Tactic.Ring

/-!
# The history of decoded frames

The model of `rtc/rtp_rtcp/rtp/receiver/video/jitter/decoded_frames_history.{hpp,cpp}`:
a cyclic bitmap over the last `window_size_` frame ids.

* `insertFrame`, `wasDecoded`, `clear` — the calls.
* `Remembers` — the bitmap holds exactly the decoded ids inside the window.
* `remembers_insertFrame`, `wasDecoded_iff` — insertion keeps this, and
  `wasDecoded` then answers membership in the window.
* `RefinesSet`, `refinesSet_iff` — over whole runs the history is this set, exactly when the
  window has at most `2 ^ 31` flags.
-/

namespace NaiveRtc.Jitter

/-! ## The calls -/

/-- The state of `DecodedFramesHistory`. -/
structure DecodedFramesHistory where
  windowSize : Nat
  /-- `buffer_`, of `windowSize` flags. -/
  buffer : Nat → Bool
  lastDecodedFrameId : Option Int
  lastDecodedFrameTimestamp : Option U32

namespace DecodedFramesHistory

/-- The constructor. -/
def create (windowSize : Nat) : DecodedFramesHistory := ⟨windowSize, fun _ => false, none, none⟩

/-- `FrameIdToIndex(frame_id)`: the remainder is taken of a `size_t` and narrowed to `int`,
and so is the index made of a negative one.  The vector takes it as a `size_t` again. -/
def frameIdToIndex (h : DecodedFramesHistory) (frameId : Int) : Nat :=
  let index := (((frameId % 2 ^ 64).toNat % h.windowSize : Nat) : Int).bmod (2 ^ 32)
  let index := if 0 ≤ index then index else (index + h.windowSize).bmod (2 ^ 32)
  (index % 2 ^ 64).toNat

/-- `std::fill(begin + first, begin + last, false)`. -/
def fillFalse (buffer : Nat → Bool) (first last : Nat) : Nat → Bool :=
  fun i => if first ≤ i ∧ i < last then false else buffer i

/-- The expiry at the top of `InsertFrame`. -/
def clearExpired (h : DecodedFramesHistory) (frameId : Int) : Nat → Bool :=
  match h.lastDecodedFrameId with
  | none => h.buffer
  | some last =>
    let newIndex := h.frameIdToIndex frameId
    let lastIndex := h.frameIdToIndex last
    if (h.windowSize : Int) ≤ frameId - last then fillFalse h.buffer 0 h.windowSize
    else if lastIndex < newIndex then fillFalse h.buffer (lastIndex + 1) newIndex
    else fillFalse (fillFalse h.buffer (lastIndex + 1) h.windowSize) 0 newIndex

/-- `InsertFrame(frame_id, timestamp)`. -/
def insertFrame (h : DecodedFramesHistory) (frameId : Int) (timestamp : U32) :
    DecodedFramesHistory :=
  { h with
    buffer := fun i => if i = h.frameIdToIndex frameId then true else h.clearExpired frameId i
    lastDecodedFrameId := some frameId
    lastDecodedFrameTimestamp := some timestamp }

/-- What `InsertFrame` asserts: the id is newer than the last one. -/
def insertAssertion (h : DecodedFramesHistory) (frameId : Int) : Bool :=
  match h.lastDecodedFrameId with
  | none => true
  | some last => decide (last < frameId)

/-- `WasDecoded(frame_id)`. -/
def wasDecoded (h : DecodedFramesHistory) (frameId : Int) : Bool :=
  match h.lastDecodedFrameId with
  | none => false
  | some last =>
    if frameId ≤ last - h.windowSize then false
    else if last < frameId then false
    else h.buffer (h.frameIdToIndex frameId)

/-- `Clear()`. -/
def clear (h : DecodedFramesHistory) : DecodedFramesHistory :=
  { h with
    buffer := fillFalse h.buffer 0 h.windowSize
    lastDecodedFrameId := none
    lastDecodedFrameTimestamp := none }

/-! ## The bitmap as a set -/

/-- The index of an id is its remainder: so in a window of at most `2 ^ 31` flags for every
id from 0 on, and for every id at all when the window divides `2 ^ 64`. -/
def Indexed (h : DecodedFramesHistory) (frameId : Int) : Prop :=
  (h.frameIdToIndex frameId : Int) = frameId % h.windowSize

@[simp] theorem frameIdToIndex_insertFrame (h : DecodedFramesHistory) (frameId : Int)
    (timestamp : U32) (id : Int) :
    (h.insertFrame frameId timestamp).frameIdToIndex id = h.frameIdToIndex id := by
  unfold frameIdToIndex
  rfl

theorem buffer_insertFrame (h : DecodedFramesHistory) (frameId : Int) (timestamp : U32) (i : Nat) :
    (h.insertFrame frameId timestamp).buffer i =
      if i = h.frameIdToIndex frameId then true else h.clearExpired frameId i := rfl

variable {h : DecodedFramesHistory} {frameId : Int}

variable {id : Int}

theorem indexed_insertFrame {timestamp : U32}
    : (h.insertFrame frameId timestamp).Indexed id ↔ h.Indexed id := by
  unfold Indexed
  rw [frameIdToIndex_insertFrame]
  rfl

theorem frameIdToIndex_of_fits (hfits : (frameId % 2 ^ 64).toNat % h.windowSize < 2 ^ 31) :
    h.frameIdToIndex frameId = (frameId % 2 ^ 64).toNat % h.windowSize := by
  unfold frameIdToIndex
  generalize (frameId % 2 ^ 64).toNat % h.windowSize = index at hfits ⊢
  dsimp only
  rw [Int.bmod_eq_of_le (by omega) (by omega), if_pos (by omega)]
  omega

theorem frameIdToIndex_lt (hw : 0 < h.windowSize) (hsmall : h.windowSize ≤ 2 ^ 31) (frameId : Int) :
    h.frameIdToIndex frameId < h.windowSize := by
  have hlt := Nat.mod_lt (frameId % 2 ^ 64).toNat hw
  rw [frameIdToIndex_of_fits (by omega)]
  exact hlt

theorem indexed_of_dvd (hw : (h.windowSize : Int) ∣ 2 ^ 64)
    (hsmall : h.windowSize ≤ 2 ^ 31) (frameId : Int) : h.Indexed frameId := by
  have hpos : h.windowSize ≠ 0 := by
    intro hzero
    rw [hzero, Nat.cast_zero, zero_dvd_iff] at hw
    exact absurd hw (by norm_num)
  have hlt := Nat.mod_lt (frameId % 2 ^ 64).toNat (Nat.pos_of_ne_zero hpos)
  unfold Indexed
  rw [frameIdToIndex_of_fits (by omega), Int.natCast_emod,
    Int.toNat_of_nonneg (Int.emod_nonneg _ (by norm_num)), Int.emod_emod_of_dvd _ hw]

theorem indexed_of_nonneg (hw : 0 < h.windowSize)
    (hsmall : h.windowSize ≤ 2 ^ 31) (hlow : 0 ≤ frameId)
    (hhigh : frameId < 2 ^ 63) : h.Indexed frameId := by
  have hlt := Nat.mod_lt (frameId % 2 ^ 64).toNat hw
  unfold Indexed
  rw [frameIdToIndex_of_fits (by omega), Int.natCast_emod,
    Int.toNat_of_nonneg (Int.emod_nonneg _ (by norm_num)), Int.emod_eq_of_lt hlow (by omega)]

theorem emod_forward {x y w : Int} (hxy : x ≤ y) (hlt : y - x < w) :
    y % w = x % w + (y - x) ∨ y % w = x % w + (y - x) - w := by
  have hw : 0 < w := by omega
  have hx := Int.emod_nonneg x hw.ne'
  have hxw := Int.emod_lt_of_pos x hw
  have hy : y % w = (x % w + (y - x)) % w := by
    rw [Int.emod_add_emod]
    congr 1
    omega
  by_cases hfit : x % w + (y - x) < w
  · left
    rw [hy, Int.emod_eq_of_lt (by omega) hfit]
  · right
    rw [hy, ← Int.sub_emod_right, Int.emod_eq_of_lt (by omega) (by omega)]

/-- **The bitmap holds the set.**  `ids` are the ids decoded since the last clear,
oldest first; inside the window the flags say which ids they are. -/
structure Remembers (h : DecodedFramesHistory) (ids : List Int) : Prop where
  last : h.lastDecodedFrameId = ids.getLast?
  ordered : ids.Pairwise (· < ·)
  indexed : ∀ id ∈ ids, h.Indexed id
  blank : h.lastDecodedFrameId = none → ∀ id, h.buffer (h.frameIdToIndex id) = false
  flags : ∀ last, h.lastDecodedFrameId = some last → ∀ id, h.Indexed id →
    last - h.windowSize < id → id ≤ last → (h.buffer (h.frameIdToIndex id) = true ↔ id ∈ ids)

theorem remembers_create (windowSize : Nat) : Remembers (create windowSize) [] where
  last := rfl
  ordered := List.Pairwise.nil
  indexed _ h := absurd h List.not_mem_nil
  blank _ _ := rfl
  flags last h := by cases h

theorem remembers_clear (hw : 0 < h.windowSize)
    (hsmall : h.windowSize ≤ 2 ^ 31) : Remembers h.clear [] where
  last := rfl
  ordered := List.Pairwise.nil
  indexed _ h := absurd h List.not_mem_nil
  blank _ id := if_pos ⟨Nat.zero_le _, frameIdToIndex_lt hw hsmall id⟩
  flags last h := by cases h

variable {ids : List Int}

theorem Remembers.le_last (hr : h.Remembers ids)
    {last id : Int} (hlast : h.lastDecodedFrameId = some last) (hid : id ∈ ids) : id ≤ last := by
  rw [hr.last] at hlast
  obtain ⟨pre, rfl⟩ := List.getLast?_eq_some_iff.1 hlast
  rcases List.mem_append.1 hid with hid | hid
  · have := (List.pairwise_append.1 hr.ordered).2.2 id hid last (List.mem_singleton_self _)
    omega
  · exact (List.mem_singleton.1 hid).le

theorem clearExpired_iff {last frameId id : Int}
    (hlast : h.lastDecodedFrameId = some last) (hnew : last < frameId) (hL : h.Indexed last)
    (hN : h.Indexed frameId) (hI : h.Indexed id) (hid : frameId - h.windowSize < id)
    (hid' : id < frameId) :
    h.clearExpired frameId (h.frameIdToIndex id) = true ↔
      id ≤ last ∧ h.buffer (h.frameIdToIndex id) = true := by
  have hw : (0 : Int) < h.windowSize := by omega
  have hIw := Int.emod_lt_of_pos id hw
  unfold Indexed at hN hL hI
  unfold clearExpired
  simp only [hlast]
  by_cases hjump : (h.windowSize : Int) ≤ frameId - last
  · rw [if_pos hjump, fillFalse, if_pos (by omega)]
    simp only [Bool.false_eq_true, false_iff, not_and]
    omega
  · rw [if_neg hjump]
    have hnl := emod_forward (w := h.windowSize) hnew.le (by omega)
    have hni := emod_forward (w := h.windowSize) hid'.le (by omega)
    have hil : id ≤ last → _ := fun hle => emod_forward (w := h.windowSize) hle (by omega)
    have hli : last < id → _ := fun hlt => emod_forward (w := h.windowSize) hlt.le (by omega)
    by_cases hle : id ≤ last
    · specialize hil hle
      split
      · rw [fillFalse, if_neg (by omega)]
        simp [hle]
      · rw [fillFalse, if_neg (by omega), fillFalse, if_neg (by omega)]
        simp [hle]
    · specialize hli (by omega)
      split
      · rw [fillFalse, if_pos (by omega)]
        simp [hle]
      · by_cases hzero : h.frameIdToIndex id < h.frameIdToIndex frameId
        · rw [fillFalse, if_pos (by omega)]
          simp [hle]
        · rw [fillFalse, if_neg (by omega), fillFalse, if_pos (by omega)]
          simp [hle]

theorem remembers_insertFrame (hr : h.Remembers ids) (hN : h.Indexed frameId)
    (hnew : h.insertAssertion frameId = true)
    (timestamp : U32) : (h.insertFrame frameId timestamp).Remembers (ids ++ [frameId]) where
  last := by simp [insertFrame]
  ordered := by
    refine List.pairwise_append.2 ⟨hr.ordered, List.pairwise_singleton _ _, ?_⟩
    intro a ha b hb
    rw [List.mem_singleton.1 hb]
    unfold insertAssertion at hnew
    cases hlast : h.lastDecodedFrameId with
    | none =>
      rw [hr.last, List.getLast?_eq_none_iff] at hlast
      simp [hlast] at ha
    | some last =>
      have := hr.le_last hlast ha
      simp only [hlast, decide_eq_true_eq] at hnew
      omega
  indexed id hid := by
    rw [indexed_insertFrame]
    rcases List.mem_append.1 hid with hid | hid
    · exact hr.indexed id hid
    · exact List.mem_singleton.1 hid ▸ hN
  blank hnone := by cases hnone
  flags last' hlast' id hI hlo hhi := by
    have heq : frameId = last' := Option.some.inj hlast'
    subst heq
    rw [indexed_insertFrame] at hI
    have hbuf : (h.insertFrame frameId timestamp).buffer
        ((h.insertFrame frameId timestamp).frameIdToIndex id)
        = if h.frameIdToIndex id = h.frameIdToIndex frameId then true
          else h.clearExpired frameId (h.frameIdToIndex id) := by
      rw [frameIdToIndex_insertFrame, buffer_insertFrame]
    have hw : (h.insertFrame frameId timestamp).windowSize = h.windowSize := rfl
    rw [hw] at hlo
    rw [hbuf, List.mem_append, List.mem_singleton]
    by_cases hid : id = frameId
    · simp [hid]
    · have hne : h.frameIdToIndex id ≠ h.frameIdToIndex frameId := by
        intro hsame
        have h₁ : (h.frameIdToIndex id : Int) = id % h.windowSize := hI
        have h₂ : (h.frameIdToIndex frameId : Int) = frameId % h.windowSize := hN
        have h₃ := emod_forward (w := h.windowSize) (x := id) (y := frameId) (by omega) (by omega)
        omega
      rw [if_neg hne]
      simp only [hid, or_false]
      unfold insertAssertion at hnew
      cases hlast : h.lastDecodedFrameId with
      | none =>
        have hnil := hr.last
        rw [hlast, eq_comm, List.getLast?_eq_none_iff] at hnil
        simp [clearExpired, hlast, hr.blank hlast id, hnil]
      | some last =>
        have hmem : last ∈ ids := List.mem_of_getLast? (hr.last ▸ hlast)
        simp only [hlast, decide_eq_true_eq] at hnew
        rw [clearExpired_iff hlast hnew (hr.indexed last hmem) hN hI (by omega) (by omega)]
        constructor
        · rintro ⟨hle, hflag⟩
          exact (hr.flags last hlast id hI (by omega) hle).1 hflag
        · intro hmem
          have hle := hr.le_last hlast hmem
          exact ⟨hle, (hr.flags last hlast id hI (by omega) hle).2 hmem⟩

theorem wasDecoded_iff (hr : h.Remembers ids) (hI : h.Indexed id) :
    h.wasDecoded id = true ↔
      id ∈ ids ∧ ∀ last, h.lastDecodedFrameId = some last → last - h.windowSize < id := by
  unfold wasDecoded
  cases hlast : h.lastDecodedFrameId with
  | none =>
    have hnil := hr.last
    rw [hlast, eq_comm, List.getLast?_eq_none_iff] at hnil
    simp [hnil]
  | some last =>
    simp only [Option.some.injEq, forall_eq']
    by_cases hold : id ≤ last - h.windowSize
    · simp only [if_pos hold, Bool.false_eq_true, false_iff, not_and]
      omega
    · rw [if_neg hold]
      by_cases hahead : last < id
      · simp only [if_pos hahead, Bool.false_eq_true, false_iff, not_and]
        intro hmem
        have := hr.le_last hlast hmem
        omega
      · rw [if_neg hahead, hr.flags last hlast id hI (by omega) (by omega)]
        constructor
        · exact fun hmem => ⟨hmem, by omega⟩
        · exact fun hmem => hmem.1

/-! ## Runs -/

/-- The calls that change a history. -/
inductive HistoryCall where
  | insertFrame (frameId : Int) (timestamp : U32)
  | clear
  deriving DecidableEq

/-- One call; `none` when it accesses an element that the buffer does not have. -/
def call (h : DecodedFramesHistory) : HistoryCall → Option DecodedFramesHistory
  | .insertFrame frameId timestamp =>
    if h.frameIdToIndex frameId < h.windowSize then some (h.insertFrame frameId timestamp)
    else none
  | .clear => some h.clear

/-- `WasDecoded` gets as far as the buffer. -/
def looksUp (h : DecodedFramesHistory) (frameId : Int) : Bool :=
  match h.lastDecodedFrameId with
  | none => false
  | some last => decide (last - h.windowSize < frameId ∧ frameId ≤ last)

/-- `WasDecoded(frame_id)`; `none` when it accesses an element that the buffer does not have. -/
def ask (h : DecodedFramesHistory) (frameId : Int) : Option Bool :=
  if h.looksUp frameId = true ∧ h.windowSize ≤ h.frameIdToIndex frameId then none
  else some (h.wasDecoded frameId)

/-- The ids inserted since the last clear, oldest first, when `ids` were before the calls. -/
def insertedSince : List Int → List HistoryCall → List Int
  | ids, [] => ids
  | ids, .insertFrame frameId _ :: calls => insertedSince (ids ++ [frameId]) calls
  | _, .clear :: calls => insertedSince [] calls

/-- Every id inserted is an `int64_t` from 0 on, and newer than those before it. -/
def Increasing : List Int → List HistoryCall → Prop
  | _, [] => True
  | ids, .insertFrame frameId _ :: calls =>
    (0 ≤ frameId ∧ frameId < 2 ^ 63) ∧ (∀ id ∈ ids, id < frameId) ∧
      Increasing (ids ++ [frameId]) calls
  | _, .clear :: calls => Increasing [] calls

/-- The answer of a set of ids with a window: the id is in it, and not too old. -/
def windowAnswer (windowSize : Nat) (ids : List Int) (id : Int) : Bool :=
  decide (id ∈ ids ∧ ∀ last ∈ ids.getLast?, last - windowSize < id)

/-- **The history is a set**: after every run it answers as the set of the ids inserted since
the last clear, and no call accesses anything but its buffer. -/
def RefinesSet (windowSize : Nat) : Prop :=
  ∀ calls, Increasing [] calls → ∃ h, calls.foldlM call (create windowSize) = some h ∧
    ∀ id, 0 ≤ id → id < 2 ^ 63 → h.ask id =
      some (windowAnswer windowSize (insertedSince [] calls) id)

section SmallWindow

variable {windowSize : Nat}

theorem ask_of_indexed {h : DecodedFramesHistory} (hr : h.Remembers ids)
    (hw : 0 < h.windowSize) (hI : h.Indexed id) :
    h.ask id = some (windowAnswer h.windowSize ids id) := by
  have hinside : h.frameIdToIndex id < h.windowSize := by
    have hlt := Int.emod_lt_of_pos id (show (0 : Int) < h.windowSize by omega)
    unfold Indexed at hI
    omega
  unfold ask windowAnswer
  rw [if_neg fun hout => absurd hinside (Nat.not_lt.2 hout.2), Option.some.injEq,
    Bool.eq_iff_iff, decide_eq_true_iff, wasDecoded_iff hr hI, hr.last]
  rfl

theorem remembers_foldlM (hw : 0 < windowSize) (hsmall : windowSize ≤ 2 ^ 31)
    {calls : List HistoryCall} {h : DecodedFramesHistory} (hr : h.Remembers ids)
    (hsize : h.windowSize = windowSize) (hids : Increasing ids calls) :
    ∃ h', calls.foldlM call h = some h' ∧ h'.Remembers (insertedSince ids calls) ∧
      h'.windowSize = windowSize := by
  induction calls generalizing h ids with
  | nil => exact ⟨h, rfl, hr, hsize⟩
  | cons c calls ih =>
    rw [List.foldlM_cons]
    have hw' : 0 < h.windowSize := by rw [hsize]; exact hw
    have hsmall' : h.windowSize ≤ 2 ^ 31 := by rw [hsize]; exact hsmall
    cases c with
    | clear => exact ih (remembers_clear hw' hsmall') hsize hids
    | insertFrame frameId timestamp =>
      obtain ⟨⟨hlow, hhigh⟩, hnew, hids⟩ := hids
      have hassert : h.insertAssertion frameId = true := by
        unfold insertAssertion
        cases hlast : h.lastDecodedFrameId with
        | none => rfl
        | some last => exact decide_eq_true (hnew last (List.mem_of_getLast? (hr.last ▸ hlast)))
      have hstep : h.call (.insertFrame frameId timestamp) =
          some (h.insertFrame frameId timestamp) := if_pos (frameIdToIndex_lt hw' hsmall' frameId)
      rw [hstep]
      have hI := indexed_of_nonneg hw' hsmall' hlow hhigh
      exact ih (remembers_insertFrame hr hI hassert timestamp) hsize hids

end SmallWindow

section LargeWindow

variable {windowSize : Nat}

theorem not_refinesSet_of_alias {a b : Int} (ha : 0 ≤ a ∧ a < 2 ^ 63) (hb : 0 ≤ b ∧ b < 2 ^ 63)
    (hne : b ≠ a) (hwindow : a - windowSize < b ∧ b ≤ a)
    (hinside : (create windowSize).frameIdToIndex a < windowSize)
    (hsame : (create windowSize).frameIdToIndex b = (create windowSize).frameIdToIndex a) :
    ¬ RefinesSet windowSize := by
  intro hrefines
  obtain ⟨h, hrun, hask⟩ := hrefines [.insertFrame a 0] ⟨ha, fun id hid => absurd hid
    List.not_mem_nil, trivial⟩
  have hcall : (create windowSize).call (.insertFrame a 0) =
    some ((create windowSize).insertFrame a 0) := if_pos hinside
  rw [List.foldlM_cons, hcall] at hrun
  obtain rfl : (create windowSize).insertFrame a 0 = h := Option.some.inj hrun
  have hyes : ((create windowSize).insertFrame a 0).wasDecoded b = true := by
    have hbuffer : ((create windowSize).insertFrame a 0).buffer
        ((create windowSize).frameIdToIndex b) = true := by
      rw [buffer_insertFrame, if_pos hsame]
    have hlast : ((create windowSize).insertFrame a 0).lastDecodedFrameId = some a := rfl
    have hsize : ((create windowSize).insertFrame a 0).windowSize = windowSize := rfl
    unfold wasDecoded
    rw [hlast]
    dsimp only
    rw [hsize, if_neg (by omega), if_neg (by omega), frameIdToIndex_insertFrame, hbuffer]
  have hno : windowAnswer windowSize (insertedSince [] [.insertFrame a 0]) b = false :=
    decide_eq_false fun hmem => hne (by simpa [insertedSince] using hmem.1)
  have hanswer := hask b hb.1 hb.2
  unfold ask at hanswer
  split_ifs at hanswer
  rw [Option.some.injEq, hyes, hno] at hanswer
  exact absurd hanswer (by decide)

theorem not_refinesSet_of_outside {a : Int} (ha : 0 ≤ a ∧ a < 2 ^ 63)
    (houtside : windowSize ≤ (create windowSize).frameIdToIndex a) : ¬ RefinesSet windowSize := by
  intro hrefines
  obtain ⟨h, hrun, -⟩ := hrefines [.insertFrame a 0] ⟨ha, fun id hid => absurd hid
    List.not_mem_nil, trivial⟩
  have hcall : (create windowSize).call (.insertFrame a 0) = none :=
    if_neg (Nat.not_lt.2 houtside)
  rw [List.foldlM_cons, hcall] at hrun
  cases hrun

theorem frameIdToIndex_halfway (hlow : 2 ^ 31 < windowSize) (hhigh : windowSize < 2 ^ 32) :
    (create windowSize).frameIdToIndex (2 ^ 31) = windowSize - 2 ^ 31 := by
  have hrem : ((2 ^ 31 % 2 ^ 64 : Int)).toNat % windowSize = 2 ^ 31 := Nat.mod_eq_of_lt hlow
  have hneg : ((2 ^ 31 : Nat) : Int).bmod (2 ^ 32) = -2 ^ 31 := by decide
  unfold frameIdToIndex
  dsimp only [create]
  rw [hrem, hneg, if_neg (by decide), Int.bmod_eq_of_le (by omega) (by omega)]
  omega

end LargeWindow

/-- **The history is a set exactly when** the window has at most `2 ^ 31` flags: the remainder
of a larger one need not fit into an `int`. -/
theorem refinesSet_iff (windowSize : Nat) (hpos : 0 < windowSize) (hmax : windowSize < 2 ^ 63) :
    RefinesSet windowSize ↔ windowSize ≤ 2 ^ 31 := by
  constructor
  · intro hrefines
    by_contra hlarge
    rcases Nat.lt_trichotomy windowSize (2 ^ 32) with hlt | rfl | hgt
    · -- the flag of `2 ^ 31` is that of a smaller id
      have hself : (create windowSize).frameIdToIndex (windowSize - 2 ^ 31) =
          windowSize - 2 ^ 31 := by
        have hrem : (((windowSize : Int) - 2 ^ 31) % 2 ^ 64).toNat % windowSize =
            windowSize - 2 ^ 31 := by
          rw [Int.emod_eq_of_lt (by omega) (by omega), Nat.mod_eq_of_lt (by omega)]
          omega
        rw [frameIdToIndex_of_fits (h := create windowSize) (by
          show _ % windowSize < _
          omega)]
        exact hrem
      have hhalf := frameIdToIndex_halfway (by omega) hlt
      exact not_refinesSet_of_alias (a := 2 ^ 31) (b := windowSize - 2 ^ 31) (by decide) (by omega)
        (by omega) (by omega) (by omega) (hself.trans hhalf.symm) hrefines
    · exact not_refinesSet_of_outside (a := 2 ^ 31) (by decide) (by decide) hrefines
    · -- `2 ^ 32` is narrowed to 0
      have hzero : (create windowSize).frameIdToIndex 0 = 0 := by
        unfold frameIdToIndex
        simp
      have hwrapped : (create windowSize).frameIdToIndex (2 ^ 32) = 0 := by
        have hrem : ((2 ^ 32 % 2 ^ 64 : Int)).toNat % windowSize = 2 ^ 32 := Nat.mod_eq_of_lt hgt
        have hnarrow : ((2 ^ 32 : Nat) : Int).bmod (2 ^ 32) = 0 := by decide
        unfold frameIdToIndex
        dsimp only [create]
        rw [hrem, hnarrow]
        rfl
      exact not_refinesSet_of_alias (a := 2 ^ 32) (b := 0) (by decide) (by decide) (by decide)
        (by omega) (by omega) (hzero.trans hwrapped.symm) hrefines
  · intro hsmall calls hids
    obtain ⟨h, hrun, hr, hsize⟩ := remembers_foldlM hpos hsmall
      (remembers_create windowSize) rfl hids
    refine ⟨h, hrun, fun id hlow hhigh => ?_⟩
    subst hsize
    exact ask_of_indexed hr hpos (indexed_of_nonneg hpos hsmall hlow hhigh)

/-- A window that lands on the same flag again. -/
theorem refinesSet_eight : 8 ≤ 2 ^ 31 ∧ RefinesSet 8 :=
  ⟨by decide, (refinesSet_iff 8 (by decide) (by decide)).2 (by decide)⟩

/-- **A window of `2 ^ 31 + 1` flags** takes the id 1 for `2 ^ 31`. -/
theorem not_refinesSet_large : ¬ RefinesSet 2147483649 :=
  not_refinesSet_of_alias (a := 2147483648) (b := 1) (by decide) (by decide) (by decide) (by decide)
    (by decide) (by decide)

end DecodedFramesHistory
end NaiveRtc.Jitter
