import NaiveRtc.Jitter.FrameRefFinder

/-!
# Streams for the reference finder

A stream of delta frames and padding behind one keyframe, placed on the line of unwrapped
sequence numbers, and what the finder does while everything that it compares lies in a
window that is much shorter than half the circle.

* `seqNum` — the wrapped number of a place; `olderThan_seqNum`, `aheadOf_seqNum`,
  `unwrapped_seqNum` — comparisons inside a window.
* `Event`, `Covers` — frames and padding that cover consecutive places; `handedOff` — the
  frames with the ids and references they should get.
* `Tracks` — the state of the finder after everything up to a place.
* `advancePadding_spec`, `updateGopInfo_spec`, `findRefForFrame_waits`,
  `findRefForFrame_fits` — what the private functions do then.
-/

namespace NaiveRtc.Jitter.SeqNumFrameRefFinder

open WrapAround Ordered

/-! ## Places on the circle -/

/-- The sequence number at a place. -/
def seqNum (n : Nat) : U16 := BitVec.ofNat 16 n

theorem seqNum_succ (n : Nat) : seqNum n + 1 = seqNum (n + 1) := by
  unfold seqNum
  bv_omega

theorem seqNum_pred (n : Nat) : seqNum (n + 1) - 1 = seqNum n := by
  unfold seqNum
  bv_omega

variable {m n : Nat}

theorem seqNum_inj (h : seqNum m = seqNum n) (h₁ : m < n + 2 ^ 16) (h₂ : n < m + 2 ^ 16) :
    m = n := by
  unfold seqNum at h
  have hmod : m % 2 ^ 16 = n % 2 ^ 16 := by simpa using congrArg BitVec.toNat h
  omega

theorem toNat_forwardDiff_seqNum (hle : m ≤ n) (hlt : n < m + 2 ^ 16) :
    (forwardDiff (seqNum m) (seqNum n)).toNat = n - m := by
  unfold forwardDiff seqNum
  rw [BitVec.toNat_sub, BitVec.toNat_ofNat, BitVec.toNat_ofNat]
  omega

theorem aheadOf_seqNum (h₁ : m < n + 2 ^ 15) (h₂ : n < m + 2 ^ 15) :
    aheadOf (seqNum m) (seqNum n) = decide (n < m) := by
  rw [Bool.eq_iff_iff, aheadOf_iff, decide_eq_true_iff]
  unfold seqNum
  rw [BitVec.toNat_sub, BitVec.toNat_ofNat, BitVec.toNat_ofNat]
  omega

theorem olderThan_seqNum (h₁ : m < n + 2 ^ 15) (h₂ : n < m + 2 ^ 15) :
    olderThan (seqNum m) (seqNum n) = decide (m < n) := aheadOf_seqNum h₂ h₁

theorem unwrapped_seqNum (hle : m ≤ n) (hlt : n < m + 2 ^ 15) :
    NumberUnwrapper.unwrapped (some (m : Int)) (seqNum n) = n := by
  have hlast : BitVec.ofInt 16 (m : Int) = seqNum m := by
    rw [BitVec.ofInt_natCast]
    rfl
  have hahead : aheadOrAt (seqNum n) (seqNum m) = true := by
    by_cases hmn : m = n
    · subst hmn
      simp [aheadOrAt, forwardDiff, maxDist]
    · have hof := aheadOf_seqNum (m := n) (n := m) (by omega) (by omega)
      rw [decide_eq_true (by omega), aheadOf, Bool.and_eq_true] at hof
      exact hof.2
  unfold NumberUnwrapper.unwrapped
  dsimp only
  rw [hlast, if_pos hahead, toNat_forwardDiff_seqNum hle (by omega)]
  omega

/-! ## Streams -/

/-- A delta frame, or a padding packet, at its places. -/
structure Event where
  isFrame : Bool
  first : Nat
  last : Nat
  deriving DecidableEq

/-- The delta frame, as it is inserted. -/
def Event.frame (e : Event) : RefFrame :=
  { frameType := .delta, seqNumStart := seqNum e.first, seqNumEnd := seqNum e.last, hasData :=
    true }

/-- The call that inserts the event. -/
def Event.op (e : Event) : Op :=
  if e.isFrame then .insertFrame e.frame else .insertPadding (seqNum e.first)

/-- The events cover consecutive places from behind `u` on; padding is one packet. -/
def Covers (u : Nat) : List Event → Prop
  | [] => True
  | e :: es => e.first = u + 1 ∧ e.first ≤ e.last ∧ (e.isFrame = false → e.last = e.first) ∧
    Covers e.last es

/-- The frames, each with its last place as id and the frame before it as reference. -/
def handedOff (offset : Int) (prev : Nat) : List Event → List RefFrame
  | [] => []
  | e :: es =>
    if e.isFrame then
      { e.frame with id := offset + e.last, references :=
        [offset + prev] } :: handedOff offset e.last es
    else handedOff offset prev es

/-- The last place of the last frame. -/
def lastFrame (prev : Nat) : List Event → Nat
  | [] => prev
  | e :: es => if e.isFrame then lastFrame e.last es else lastFrame prev es

/-- The last places of two frames in a row are less than half the circle apart. -/
def FramesNear (prev : Nat) : List Event → Prop
  | [] => True
  | e :: es =>
    if e.isFrame then e.last < prev + 2 ^ 15 ∧ FramesNear e.last es else FramesNear prev es

instance decidableCovers (u : Nat) : ∀ es, Decidable (Covers u es)
  | [] => .isTrue trivial
  | e :: es =>
    have : Decidable (Covers e.last es) := decidableCovers e.last es
    inferInstanceAs (Decidable (_ ∧ _ ∧ _ ∧ _))

variable {u : Nat}

theorem covers_append {es es' : List Event} (h : Covers u (es ++ es')) :
    ∃ u', u ≤ u' ∧ Covers u es ∧ Covers u' es' ∧ (∀ e ∈ es, e.last ≤ u') := by
  induction es generalizing u with
  | nil => exact ⟨u, Nat.le_refl u, trivial, h, by simp⟩
  | cons e es ih =>
    obtain ⟨hfirst, hle, hpadding, hrest⟩ := h
    obtain ⟨u', hu', hcover, hcover', hlast⟩ := ih hrest
    refine ⟨u', by omega, ⟨hfirst, hle, hpadding, hcover⟩, hcover', fun x hx => ?_⟩
    rcases List.mem_cons.mp hx with rfl | hx
    · exact hu'
    · exact hlast x hx

variable {es : List Event}

variable {e : Event}

theorem Covers.lt_first (h : Covers u es) (he : e ∈ es) :
    u < e.first ∧ e.first ≤ e.last ∧ (e.isFrame = false → e.last = e.first) := by
  induction es generalizing u with
  | nil => exact absurd he List.not_mem_nil
  | cons x es ih =>
    obtain ⟨hfirst, hle, hpadding, hrest⟩ := h
    rcases List.mem_cons.mp he with rfl | he
    · exact ⟨by omega, hle, hpadding⟩
    · have hu := ih hrest he
      exact ⟨by omega, hu.2⟩

theorem Covers.eq_cons (h : Covers u es) (he : e ∈ es)
    (hfirst : e.first = u + 1) : ∃ es', es = e :: es' ∧ Covers e.last es' := by
  cases es with
  | nil => exact absurd he List.not_mem_nil
  | cons x es =>
    obtain ⟨hx, hle, -, hrest⟩ := h
    rcases List.mem_cons.mp he with rfl | he
    · exact ⟨es, rfl, hrest⟩
    · have hlt := (hrest.lt_first he).1
      omega

theorem Covers.eq_of_first (h : Covers u es) {x y : Event} (hx : x ∈ es)
    (hy : y ∈ es) (heq : x.first = y.first) : x = y := by
  induction es generalizing u with
  | nil => exact absurd hx List.not_mem_nil
  | cons z es ih =>
    obtain ⟨hfirst, hle, -, hrest⟩ := h
    rcases List.mem_cons.mp hx with rfl | hx' <;> rcases List.mem_cons.mp hy with rfl | hy'
    · rfl
    · have := (hrest.lt_first hy').1
      omega
    · have := (hrest.lt_first hx').1
      omega
    · exact ih hrest hx' hy'

theorem Covers.nodup (h : Covers u es) : es.Nodup := by
  induction es generalizing u with
  | nil => exact List.nodup_nil
  | cons z es ih =>
    obtain ⟨hfirst, hle, -, hrest⟩ := h
    refine List.nodup_cons.mpr ⟨fun hz => ?_, ih hrest⟩
    have := (hrest.lt_first hz).1
    omega

theorem Covers.last_lt_first (h : Covers u es) {x y : Event} (hx : x ∈ es)
    (hy : y ∈ es) (hlt : x.first < y.first) : x.last < y.first := by
  induction es generalizing u with
  | nil => exact absurd hx List.not_mem_nil
  | cons z es ih =>
    obtain ⟨hfirst, hle, -, hrest⟩ := h
    rcases List.mem_cons.mp hx with rfl | hx' <;> rcases List.mem_cons.mp hy with rfl | hy'
    · exact absurd hlt (lt_irrefl _)
    · exact (hrest.lt_first hy').1
    · have := (hrest.lt_first hx').1
      omega
    · exact ih hrest hx' hy'

theorem handedOff_append (offset : Int) (prev : Nat) (es es' : List Event) :
    handedOff offset prev (es ++ es') =
      handedOff offset prev es ++ handedOff offset (lastFrame prev es) es' := by
  induction es generalizing prev with
  | nil => rfl
  | cons e es ih =>
    rw [List.cons_append, handedOff, handedOff, lastFrame]
    split
    · rw [ih, List.cons_append]
    · exact ih prev

theorem lastFrame_append (prev : Nat) (es es' : List Event) :
    lastFrame prev (es ++ es') = lastFrame (lastFrame prev es) es' := by
  induction es generalizing prev with
  | nil => rfl
  | cons e es ih =>
    rw [List.cons_append, lastFrame, lastFrame]
    split
    · exact ih e.last
    · exact ih prev

theorem handedOff_padding (offset : Int) (prev : Nat)
    (hpadding : ∀ e ∈ es, e.isFrame = false) :
      handedOff offset prev es = [] ∧ lastFrame prev es = prev := by
  induction es with
  | nil => exact ⟨rfl, rfl⟩
  | cons e es ih =>
    have he : ¬ e.isFrame = true := by simp [hpadding e List.mem_cons_self]
    rw [handedOff, lastFrame, if_neg he, if_neg he]
    exact ih fun x hx => hpadding x (List.mem_cons_of_mem e hx)

theorem framesNear_padding {prev : Nat} {es es' : List Event}
    (hpadding : ∀ e ∈ es, e.isFrame = false)
    (h : FramesNear prev (es ++ es')) : FramesNear prev es' := by
  induction es with
  | nil => exact h
  | cons e es ih =>
    have he : ¬ e.isFrame = true := by simp [hpadding e List.mem_cons_self]
    rw [List.cons_append, FramesNear, if_neg he] at h
    exact ih (fun x hx => hpadding x (List.mem_cons_of_mem e hx)) h

theorem Covers.length_le {u bound : Nat} (h : Covers u es)
    (hpadding : ∀ e ∈ es, e.isFrame = false) (hbound : ∀ e ∈ es, e.first ≤ u + bound) :
    es.length ≤ bound := by
  induction es generalizing u bound with
  | nil => exact Nat.zero_le _
  | cons e es ih =>
    obtain ⟨hfirst, -, hone, hrest⟩ := h
    have hlast := hone (hpadding e List.mem_cons_self)
    have hle := hbound e List.mem_cons_self
    have hbound' : ∀ x ∈ es, x.first ≤ e.last + (bound - 1) := by
      intro x hx
      have := hbound x (List.mem_cons_of_mem e hx)
      omega
    have hshort := ih hrest (fun x hx => hpadding x (List.mem_cons_of_mem e hx)) hbound'
    rw [List.length_cons]
    omega

/-! ## Padding -/

/-- The stashed padding moves the place on: `consumed` is taken from the front of the padding
and of what is to come, and the next place is not padding that waits. -/
structure Advances (u : Nat) (todo paddings consumed todo' paddings' : List Event) : Prop where
  paddings : paddings = consumed ++ paddings'
  todo : todo = consumed ++ todo'
  isPadding : ∀ e ∈ consumed, e.isFrame = false
  covers : Covers (u + consumed.length) todo'
  rest : ∀ p ∈ paddings', p.first ≠ u + consumed.length + 1

/-- The padding that waits: in order, part of what is to come, and not far. -/
structure Waiting (u : Nat) (todo paddings : List Event) : Prop where
  sorted : paddings.Pairwise fun p q => p.first < q.first
  mem : ∀ p ∈ paddings, p ∈ todo
  isPadding : ∀ p ∈ paddings, p.isFrame = false
  window : ∀ p ∈ paddings, p.first ≤ u + 2 ^ 14

theorem advancePadding_spec {todo paddings : List Event} (hcover : Covers u todo)
    (hwaiting : Waiting u todo paddings) :
    ∃ consumed todo' paddings', Advances u todo paddings consumed todo' paddings' ∧
      advancePadding (seqNum u) (paddings.map fun p => seqNum p.first) =
        (seqNum (u + consumed.length), paddings'.map fun p => seqNum p.first) := by
  induction paddings generalizing u todo with
  | nil => exact ⟨[], todo, [], ⟨rfl, rfl, by simp, hcover, by simp⟩, rfl⟩
  | cons p paddings ih =>
    obtain ⟨hhead, htail⟩ := List.pairwise_cons.mp hwaiting.sorted
    have hp := hwaiting.mem p List.mem_cons_self
    have hpadding := hwaiting.isPadding p List.mem_cons_self
    have hwindow := hwaiting.window p List.mem_cons_self
    obtain ⟨hlt, -, hone⟩ := hcover.lt_first hp
    rw [List.map_cons, advancePadding, seqNum_succ]
    by_cases hnext : p.first = u + 1
    · obtain ⟨todo₁, rfl, hcover₁⟩ := hcover.eq_cons hp hnext
      rw [hone hpadding, hnext] at hcover₁
      have hwaiting₁ : Waiting (u + 1) todo₁ paddings := by
        refine ⟨htail, fun q hq => ?_, fun q hq => hwaiting.isPadding q (List.mem_cons_of_mem p hq),
          fun q hq => ?_⟩
        · rcases List.mem_cons.mp (hwaiting.mem q (List.mem_cons_of_mem p hq)) with rfl | hmem
          · exact absurd (hhead q hq) (lt_irrefl _)
          · exact hmem
        · have := hwaiting.window q (List.mem_cons_of_mem p hq)
          omega
      obtain ⟨consumed, todo', paddings', hadv, heq⟩ := ih hcover₁ hwaiting₁
      have hlen : u + 1 + consumed.length = u + (p :: consumed).length := by
        rw [List.length_cons]
        omega
      refine ⟨p :: consumed, todo', paddings', ⟨?_, ?_, ?_, ?_, ?_⟩, ?_⟩
      · rw [hadv.paddings, List.cons_append]
      · rw [hadv.todo, List.cons_append]
      · intro e he
        rcases List.mem_cons.mp he with rfl | he
        · exact hpadding
        · exact hadv.isPadding e he
      · rw [← hlen]
        exact hadv.covers
      · rw [← hlen]
        exact hadv.rest
      · rw [if_pos (by rw [hnext]), hnext, heq, hlen]
    · refine ⟨[], todo, p :: paddings, ⟨rfl, rfl, by simp, hcover, fun q hq => ?_⟩, ?_⟩
      · rcases List.mem_cons.mp hq with rfl | hq
        · exact hnext
        · have := hhead q hq
          show q.first ≠ u + 0 + 1
          omega
      · rw [if_neg fun h => hnext (seqNum_inj h (by omega) (by omega))]
        rfl

/-- **`UpdateGopInfo`** when the finder tracks one group: the place moves on over the padding,
and the key moves to a number that is far ahead of it. -/
theorem updateGopInfo_spec {s : SeqNumFrameRefFinder} {u prev key n : Nat}
    {todo paddings : List Event}
    (hgops : s.gopInfos = [(seqNum key, ⟨seqNum prev, seqNum u⟩)])
    (hpadding : s.stashedPadding = paddings.map fun p => seqNum p.first) (hle : key ≤ n)
    (hlt : n < key + 2 ^ 15) (hcover : Covers u todo) (hwaiting : Waiting u todo paddings) :
    ∃ consumed todo' paddings', Advances u todo paddings consumed todo' paddings' ∧
      s.updateGopInfo (seqNum n) = { s with
        stashedPadding := paddings'.map fun p => seqNum p.first
        gopInfos := [(seqNum (if key + kMaxGopPacketAge < n then n else key),
          ⟨seqNum prev, seqNum (u + consumed.length)⟩)] } := by
  obtain ⟨consumed, todo', paddings', hadv, heq⟩ := advancePadding_spec hcover hwaiting
  refine ⟨consumed, todo', paddings', hadv, ?_⟩
  have hupTo : s.gopsUpTo (seqNum n) = [(seqNum key, ⟨seqNum prev, seqNum u⟩)] := by
    rw [gopsUpTo, hgops, List.takeWhile_cons, olderThan_seqNum (by omega) (by omega),
      decide_eq_false (by omega)]
    rfl
  have hbefore : (s.stashedPadding.takeWhile fun p => olderThan p (seqNum u + 1)) = [] := by
    cases hnil : paddings with
    | nil => rw [hpadding, hnil]; rfl
    | cons p ps =>
      have hp : p ∈ paddings := by rw [hnil]; exact List.mem_cons_self
      have hlt' := (hcover.lt_first (hwaiting.mem p hp)).1
      have hwindow := hwaiting.window p hp
      rw [hpadding, hnil, List.map_cons, List.takeWhile_cons, seqNum_succ,
        olderThan_seqNum (by omega) (by omega), decide_eq_false (by omega)]
      rfl
  unfold updateGopInfo
  rw [hupTo]
  dsimp only [List.getLast?_singleton]
  rw [hbefore, List.length_nil, List.drop_zero, hpadding, heq,
    toNat_forwardDiff_seqNum hle (by omega)]
  dsimp only
  rw [List.nil_append, hgops]
  by_cases hfar : key + kMaxGopPacketAge < n
  · rw [if_pos (by omega), if_pos hfar]
  · rw [if_neg (by omega), if_neg hfar]
    rfl

/-! ## Frames -/

/-- The finder has handed off everything up to place `u`, the last frame at `prev`; the padding
that waits is `paddings`. -/
structure Tracks (offset : Int) (u prev key : Nat) (paddings : List Event)
    (s : SeqNumFrameRefFinder) :
    Prop where
  offset : s.pictureIdOffset = offset
  gops : s.gopInfos = [(seqNum key, ⟨seqNum prev, seqNum u⟩)]
  key_le : key ≤ u
  le_key : u ≤ key + kMaxGopPacketAge + kMaxPaddingAge
  prev_le : prev ≤ u
  unwrapper : s.seqNumUnwrapper = some (prev : Int)
  padding : s.stashedPadding = paddings.map fun p => seqNum p.first

section Frames

variable {offset : Int} {u prev key : Nat} {paddings todo : List Event} {s : SeqNumFrameRefFinder}

section

variable (h : Tracks offset u prev key paddings s)
include h

theorem Tracks.gopsUpTo {n : Nat} (hle : key ≤ n)
    (hlt : n < key + 2 ^ 15) : s.gopsUpTo (seqNum n) = [(seqNum key, ⟨seqNum prev, seqNum u⟩)] := by
  rw [SeqNumFrameRefFinder.gopsUpTo, h.gops, List.takeWhile_cons,
    olderThan_seqNum (by omega) (by omega),
    decide_eq_false (by omega)]
  rfl

theorem Tracks.trackKeyframe (e : Event) :
    s.trackKeyframe e.frame = s := by
  have hdelta : ¬ e.frame.frameType = .key := FrameType.noConfusion
  unfold SeqNumFrameRefFinder.trackKeyframe
  dsimp only
  rw [if_neg hdelta, h.gops, List.length_singleton, Nat.sub_self, Nat.min_zero, List.drop_zero,
    ← h.gops]

theorem Tracks.findRefForFrame_eq
    (hlt : u < e.first) (hle : e.first ≤ e.last) (hwindow : e.last < key + 2 ^ 15) :
    s.findRefForFrame e.frame =
      if e.first = u + 1 then s.handOff e.frame (seqNum key) ⟨seqNum prev, seqNum u⟩
      else (s, e.frame, .stashed) := by
  have hkey := h.key_le
  have hfirst : e.first = e.first - 1 + 1 := by omega
  have hiff : e.frame.seqNumStart - 1 = seqNum u ↔ e.first = u + 1 := by
    show seqNum e.first - 1 = seqNum u ↔ _
    rw [hfirst, seqNum_pred]
    constructor
    · intro heq
      rw [seqNum_inj heq (by omega) (by omega)]
    · intro heq
      rw [show e.first - 1 = u by omega]
  unfold findRefForFrame
  rw [h.trackKeyframe]
  dsimp only
  rw [if_neg (by rw [h.gops]; simp), show e.frame.seqNumEnd = seqNum e.last from rfl,
    h.gopsUpTo (by omega) hwindow]
  dsimp only [List.getLast?_singleton]
  by_cases hnext : e.first = u + 1
  · rw [if_pos hnext, if_neg fun hstash => hstash.2 (hiff.mpr hnext)]
  · rw [if_neg hnext, if_pos ⟨rfl, fun heq => hnext (hiff.mp heq)⟩]

theorem findRefForFrame_waits
    (hlt : u + 1 < e.first) (hle : e.first ≤ e.last) (hwindow : e.last < key + 2 ^ 15) :
    s.findRefForFrame e.frame = (s, e.frame, .stashed) := by
  rw [h.findRefForFrame_eq (by omega) hle hwindow, if_neg (by omega)]

theorem findRefForFrame_fits
    (hfirst : e.first = u + 1) (hle : e.first ≤ e.last) (hcover : Covers e.last todo)
    (hwaiting : Waiting e.last todo paddings) (hnear : e.last < prev + 2 ^ 15)
    (hwindow : e.last < key + 2 ^ 15) (hclose : ∀ p ∈ paddings, p.first ≤ e.last + kMaxPaddingAge) :
    ∃ s' key' consumed todo' paddings',
      s.findRefForFrame e.frame =
        (s', { e.frame with id := offset + e.last, references := [offset + prev] }, .handOff) ∧
      s'.stashedFrames = s.stashedFrames ∧
      Advances e.last todo paddings consumed todo' paddings' ∧
      Tracks offset (e.last + consumed.length) e.last key' paddings' s' := by
  have hkey := h.key_le
  have hprev := h.prev_le
  -- the finder before `UpdateGopInfo`
  obtain ⟨consumed, todo', paddings', hadv, heq⟩ := updateGopInfo_spec (n := e.last) (u := e.last)
    (s := { s with
      seqNumUnwrapper := some (prev : Int)
      gopInfos := [(seqNum key, ⟨seqNum e.last, seqNum e.last⟩)] }) rfl h.padding
    (by omega) hwindow hcover hwaiting
  have hlength : consumed.length ≤ kMaxPaddingAge := by
    obtain ⟨-, -, hconsumed, -, -⟩ := covers_append (hadv.todo ▸ hcover)
    refine hconsumed.length_le hadv.isPadding fun p hp => hclose p ?_
    rw [hadv.paddings]
    exact List.mem_append_left _ hp
  have hsame : NumberUnwrapper.unwrapped (some (prev : Int)) (seqNum prev) = prev :=
    unwrapped_seqNum (Nat.le_refl _) (by omega)
  have hnext : NumberUnwrapper.unwrapped (some (prev : Int)) (seqNum e.last) = e.last :=
    unwrapped_seqNum (by omega) hnear
  have hahead : aheadOf (seqNum e.last) (seqNum prev) = true := by
    rw [aheadOf_seqNum (by omega) (by omega)]
    exact decide_eq_true (by omega)
  have hunwrap : s.seqNumUnwrapper.unwrap (seqNum prev) = ((prev : Int), some (prev : Int)) := by
    rw [h.unwrapper, NumberUnwrapper.unwrap, hsame]
  have hreference : e.frame.insertReference (s.pictureIdOffset + prev) =
      ({ e.frame with references := [offset + prev] }, true) := by
    rw [h.offset]
    exact if_neg List.not_mem_nil
  have hset : s.gopInfos.set
      ((SeqNumFrameRefFinder.gopsUpTo { s with seqNumUnwrapper := some (prev : Int) }
        (seqNum e.last)).length - 1) (seqNum key, ⟨seqNum e.last, seqNum e.last⟩) =
      [(seqNum key, ⟨seqNum e.last, seqNum e.last⟩)] := by
    show s.gopInfos.set ((s.gopsUpTo (seqNum e.last)).length - 1) _ = _
    rw [h.gopsUpTo (by omega) hwindow, h.gops]
    rfl
  refine ⟨{ s with
      gopInfos := [(seqNum (if key + kMaxGopPacketAge < e.last then e.last else key),
        ⟨seqNum e.last, seqNum (e.last + consumed.length)⟩)]
      stashedPadding := paddings'.map fun p => seqNum p.first
      seqNumUnwrapper := some (e.last : Int) },
    if key + kMaxGopPacketAge < e.last then e.last else key, consumed, todo', paddings', ?_, rfl,
      hadv,
    ⟨h.offset, rfl, ?_, ?_, by omega, rfl, rfl⟩⟩
  · rw [h.findRefForFrame_eq (by omega) hle hwindow, if_pos hfirst]
    unfold SeqNumFrameRefFinder.handOff
    rw [if_pos (show e.frame.frameType = .delta from rfl), hunwrap]
    dsimp only
    rw [hreference]
    dsimp only
    rw [if_neg (by decide), show e.frame.seqNumEnd = seqNum e.last from rfl, if_pos hahead, hset,
      heq]
    dsimp only
    rw [NumberUnwrapper.unwrap, hnext, h.offset]
  · split
    · exact Nat.le_add_right _ _
    · omega
  · split
    · omega
    · omega

end

end Frames

end NaiveRtc.Jitter.SeqNumFrameRefFinder
