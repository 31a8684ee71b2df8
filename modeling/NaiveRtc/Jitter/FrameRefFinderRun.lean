import NaiveRtc.Jitter.FrameRefFinderStream

/-!
# The reference finder over a whole stream

Every frame of a stream is handed off once, in the order of the stream and with the frame
before it as reference, whatever the order in which frames and padding arrive, as long as
padding never moves the key of the group past something that is missing.

* `Follows` — the finder between two events: what has been handed off is the beginning of the
  stream, what has arrived of the rest waits.
* `retryRound_spec`, `retryLoop_spec` — frames that wait are handed off as far as possible.
* `run_spec`, `frame_refs` — every order of events; `frame_refs_overtaken` — padding that moves
  the key past a frame.
-/

namespace NaiveRtc.Jitter.SeqNumFrameRefFinder

open WrapAround Ordered

/-- Frames have at most this many packets; the packet buffer holds 2048. -/
def kMaxFramePackets : Nat := 2 ^ 13

/-- How far ahead an event can arrive. -/
def kMaxAhead : Nat := kMaxFramePackets + kMaxPaddingAge

/-- What comes after place `u` is `todo`, made of `frames` and `paddings` that wait, no further
than `ahead`, and of `missing`. -/
structure Follows (ahead : Nat) (offset : Int) (u prev key : Nat)
    (todo frames missing paddings : List Event)
    (s : SeqNumFrameRefFinder) : Prop where
  tracks : Tracks offset u prev key paddings s
  covers : Covers u todo
  near : FramesNear prev todo
  sizes : ∀ e ∈ todo, e.last < e.first + kMaxFramePackets
  perm : todo.Perm (frames ++ missing ++ paddings)
  isFrame : ∀ e ∈ frames, e.isFrame = true
  isPadding : ∀ p ∈ paddings, p.isFrame = false
  sorted : paddings.Pairwise fun p q => p.first < q.first
  settled : ∀ p ∈ paddings, p.first ≠ u + 1
  window : ∀ e ∈ frames ++ paddings, e.first ≤ u + ahead

section Retry

variable {ahead : Nat} {offset : Int} {u prev key : Nat} {todo frames missing paddings : List Event}
  {s : SeqNumFrameRefFinder}

section

variable (h : Follows ahead offset u prev key todo frames missing paddings s)
include h

theorem Follows.mem_frames {e : Event} (he : e ∈ frames) : e ∈ todo :=
  h.perm.mem_iff.mpr (List.mem_append_left _ (List.mem_append_left _ he))

theorem Follows.mem_paddings {e : Event} (he : e ∈ paddings) : e ∈ todo :=
  h.perm.mem_iff.mpr (List.mem_append_right _ he)

theorem Follows.mem_missing {e : Event} (he : e ∈ missing) : e ∈ todo :=
  h.perm.mem_iff.mpr (List.mem_append_left _ (List.mem_append_right _ he))

theorem Follows.mono {ahead' : Nat}
    (hle : ahead ≤ ahead') : Follows ahead' offset u prev key todo frames missing paddings s :=
  { h with window := fun e he => (h.window e he).trans (Nat.add_le_add_left hle u) }

end

theorem Tracks.stash (h : Tracks offset u prev key paddings s) (stash : List RefFrame) :
    Tracks offset u prev key paddings { s with stashedFrames := stash } :=
  ⟨h.offset, h.gops, h.key_le, h.le_key, h.prev_le, h.unwrapper, h.padding⟩

theorem Follows.stash (h : Follows ahead offset u prev key todo frames missing paddings s)
    (stash : List RefFrame) :
    Follows ahead offset u prev key todo frames missing paddings { s with stashedFrames :=
      stash } :=
  { h with tracks := h.tracks.stash stash }

theorem Follows.last_lt_key (h : Follows ahead offset u prev key todo frames missing paddings s)
    (hahead : ahead ≤ kMaxAhead) {e : Event} (he : e ∈ frames) : e.last < key + 2 ^ 15 := by
  have hle := h.tracks.le_key
  have hsize := h.sizes e (h.mem_frames he)
  have hwindow := h.window e (List.mem_append_left _ he)
  unfold kMaxGopPacketAge kMaxPaddingAge at hle
  unfold kMaxAhead kMaxFramePackets kMaxPaddingAge at hahead
  unfold kMaxFramePackets at hsize
  omega

variable {f : Event}

theorem Follows.setAside
    (h : Follows ahead offset u prev key todo (f :: frames) missing paddings s) :
    Follows ahead offset u prev key todo frames (f :: missing) paddings s := by
  refine { h with perm := ?_, isFrame := ?_, window := ?_ }
  · exact h.perm.trans ((List.perm_middle.symm).append_right paddings)
  · exact fun e he => h.isFrame e (List.mem_cons_of_mem f he)
  · exact fun e he => h.window e (List.mem_cons_of_mem f he)

theorem Follows.putBack
    (h : Follows ahead offset u prev key todo frames (f :: missing) paddings s)
    (hf : f.isFrame = true)
    (hwindow : f.first ≤ u + ahead) :
    Follows ahead offset u prev key todo (f :: frames) missing paddings s := by
  refine { h with perm := ?_, isFrame := ?_, window := ?_ }
  · exact h.perm.trans (List.perm_middle.append_right paddings)
  · intro e he
    rcases List.mem_cons.mp he with rfl | he
    · exact hf
    · exact h.isFrame e he
  · intro e he
    rcases List.mem_cons.mp he with rfl | he
    · exact hwindow
    · exact h.window e he

theorem Follows.fits
    (h : Follows ahead offset u prev key todo (f :: frames) missing paddings s)
    (hahead : ahead ≤ kMaxAhead) (hfirst : f.first = u + 1)
    (hclose : ∀ e ∈ frames ++ paddings, e.first ≤ f.last + kMaxPaddingAge) :
    ∃ s' key' consumed todo' paddings',
      s.findRefForFrame f.frame =
        (s', { f.frame with id := offset + f.last, references := [offset + prev] }, .handOff) ∧
      s'.stashedFrames = s.stashedFrames ∧ todo = f :: consumed ++ todo' ∧
      (∀ e ∈ consumed, e.isFrame = false) ∧
      Follows kMaxPaddingAge offset (f.last + consumed.length) f.last key' todo' frames missing
        paddings' s' := by
  have hf : f ∈ todo := h.mem_frames List.mem_cons_self
  have hisFrame := h.isFrame f List.mem_cons_self
  obtain ⟨todo₁, rfl, hcover⟩ := h.covers.eq_cons hf hfirst
  have hle := (h.covers.lt_first List.mem_cons_self).2.1
  obtain ⟨hnear, hnear'⟩ : f.last < prev + 2 ^ 15 ∧ FramesNear f.last todo₁ := by
    have := h.near
    rwa [FramesNear, if_pos hisFrame] at this
  have hperm : todo₁.Perm (frames ++ missing ++ paddings) := List.perm_cons f |>.mp h.perm
  have hwaiting : Waiting f.last todo₁ paddings := by
    refine ⟨h.sorted, fun p hp => hperm.mem_iff.mpr (List.mem_append_right _ hp), h.isPadding,
      fun p hp => ?_⟩
    have := hclose p (List.mem_append_right _ hp)
    unfold kMaxPaddingAge at this
    omega
  obtain ⟨s', key', consumed, todo', paddings', hfind, hstash, hadv, htracks⟩ :=
    findRefForFrame_fits h.tracks hfirst hle hcover hwaiting hnear
      (h.last_lt_key hahead List.mem_cons_self) fun p hp => hclose p (List.mem_append_right _ hp)
  have htodo := hadv.todo
  have hpaddings := hadv.paddings
  subst htodo hpaddings
  refine ⟨s', key', consumed, todo', paddings', hfind, hstash, rfl, hadv.isPadding,
    ⟨htracks, hadv.covers, framesNear_padding hadv.isPadding hnear', ?_, ?_, ?_, ?_, ?_, hadv.rest,
      ?_⟩⟩
  · exact fun e he => h.sizes e (List.mem_cons_of_mem f (List.mem_append_right _ he))
  · refine (List.perm_append_left_iff consumed).mp (hperm.trans ?_)
    exact List.perm_append_comm_assoc _ _ _
  · exact fun e he => h.isFrame e (List.mem_cons_of_mem f he)
  · exact fun p hp => h.isPadding p (List.mem_append_right _ hp)
  · exact (List.pairwise_append.mp h.sorted).2.1
  · intro e he
    have : e ∈ frames ++ (consumed ++ paddings') := by
      rcases List.mem_append.mp he with he | he
      · exact List.mem_append_left _ he
      · exact List.mem_append_right _ (List.mem_append_right _ he)
    have := hclose e this
    omega

/-! ## Retries -/

theorem retryRound_waits (h : Follows ahead offset u prev key todo frames missing paddings s)
    (hahead : ahead ≤ kMaxAhead) (hwait : ∀ e ∈ frames, e.first ≠ u + 1) :
    s.retryRound (frames.map Event.frame) = (s, frames.map Event.frame, []) := by
  induction frames generalizing missing with
  | nil => rfl
  | cons f frames ih =>
    have hlt := h.covers.lt_first (h.mem_frames List.mem_cons_self)
    have hf := hwait f List.mem_cons_self
    rw [List.map_cons, retryRound, findRefForFrame_waits h.tracks (by omega) hlt.2.1
      (h.last_lt_key hahead List.mem_cons_self)]
    dsimp only
    rw [ih h.setAside fun e he => hwait e (List.mem_cons_of_mem f he)]

theorem retryRound_spec (h : Follows kMaxPaddingAge offset u prev key todo frames missing paddings s) :
    ∃ s' u' key' done todo' kept paddings',
      s.retryRound (frames.map Event.frame) =
        (s', kept.map Event.frame, handedOff offset prev done) ∧
      todo = done ++ todo' ∧ u ≤ u' ∧
      (handedOff offset prev done = [] → u' = u ∧ ∀ e ∈ kept, e.first ≠ u + 1) ∧
      Follows kMaxPaddingAge offset u' (lastFrame prev done) key' todo' kept missing paddings' s' := by
  induction frames generalizing missing s u prev key todo paddings with
  | nil => exact ⟨s, u, key, [], todo, [], paddings, rfl, rfl, Nat.le_refl u, fun _ =>
    ⟨rfl, by simp⟩, h⟩
  | cons f frames ih =>
    have hahead : kMaxPaddingAge ≤ kMaxAhead := by decide
    obtain ⟨hlt, hle, -⟩ := h.covers.lt_first (h.mem_frames List.mem_cons_self)
    rw [List.map_cons, retryRound]
    by_cases hfirst : f.first = u + 1
    · obtain ⟨s₁, key₁, consumed, todo₁, paddings₁, hfind, -, rfl, hconsumed, h₁⟩ :=
        h.fits hahead hfirst fun e he => by
          have := h.window e (List.mem_cons_of_mem f he)
          omega
      obtain ⟨s', u', key', done, todo', kept, paddings', hround, htodo, hu, -, h'⟩ := ih h₁
      have hisFrame := h.isFrame f List.mem_cons_self
      obtain ⟨hnone, hsame⟩ := handedOff_padding offset f.last hconsumed
      have hhanded : handedOff offset prev (f :: consumed ++ done) =
          { f.frame with id := offset + f.last, references := [offset + prev] } ::
            handedOff offset f.last done := by
        rw [List.cons_append, handedOff, if_pos hisFrame, handedOff_append, hnone, hsame,
          List.nil_append]
      have hlast : lastFrame prev (f :: consumed ++ done) = lastFrame f.last done := by
        rw [List.cons_append, lastFrame, if_pos hisFrame, lastFrame_append, hsame]
      refine ⟨s', u', key', f :: consumed ++ done, todo', kept, paddings', ?_, ?_, by omega, ?_, ?_⟩
      · rw [hfind]
        dsimp only
        rw [hround, hhanded]
      · rw [htodo, List.append_assoc]
      · rw [hhanded]
        exact fun hnil => absurd hnil (List.cons_ne_nil _ _)
      · rw [hlast]
        exact h'
    · obtain ⟨s', u', key', done, todo', kept, paddings', hround, htodo, hu, hquiet, h'⟩ :=
        ih h.setAside
      have hwindow := h.window f List.mem_cons_self
      refine ⟨s', u', key', done, todo', f :: kept, paddings', ?_, htodo, hu, ?_,
        h'.putBack (h.isFrame f List.mem_cons_self) (by omega)⟩
      · rw [findRefForFrame_waits h.tracks (by omega) hle (h.last_lt_key hahead List.mem_cons_self)]
        dsimp only
        rw [hround]
        rfl
      · intro hnil
        obtain ⟨hu', hkept⟩ := hquiet hnil
        refine ⟨hu', fun e he => ?_⟩
        rcases List.mem_cons.mp he with rfl | he
        · exact hfirst
        · exact hkept e he

theorem retryLoop_spec {fuel : Nat}
    (h : Follows kMaxPaddingAge offset u prev key todo frames missing paddings s)
    (hstash : s.stashedFrames = frames.map Event.frame) (hfuel : frames.length < fuel) :
    ∃ s' u' key' done todo' kept paddings',
      retryLoop fuel s = (s', handedOff offset prev done) ∧ todo = done ++ todo' ∧
      s'.stashedFrames = kept.map Event.frame ∧ (∀ e ∈ kept, e.first ≠ u' + 1) ∧
      Follows kMaxPaddingAge offset u' (lastFrame prev done) key' todo' kept missing paddings' s' := by
  induction fuel generalizing s u prev key todo frames paddings with
  | zero => exact absurd hfuel (Nat.not_lt_zero _)
  | succ fuel ih =>
    obtain ⟨s₁, u₁, key₁, done₁, todo₁, kept₁, paddings₁, hround, rfl, -, hquiet, h₁⟩ :=
      retryRound_spec h
    have hlength := retryRound_length s s.stashedFrames
    rw [retryLoop]
    rw [hstash, hround] at hlength ⊢
    dsimp only at hlength ⊢
    by_cases hnil : handedOff offset prev done₁ = []
    · obtain ⟨rfl, hkept⟩ := hquiet hnil
      rw [if_pos hnil]
      exact ⟨_, u₁, key₁, done₁, todo₁, kept₁, paddings₁, by rw [hnil], rfl, rfl, hkept, h₁.stash _⟩
    · have hpos := List.length_pos_of_ne_nil hnil
      rw [List.length_map, List.length_map] at hlength
      obtain ⟨s', u', key', done', todo', kept, paddings', hloop, rfl, hstash', hkept, h'⟩ :=
        ih (h₁.stash _) rfl (by omega)
      rw [if_neg hnil, hloop]
      refine ⟨s', u', key', done₁ ++ done', todo', kept, paddings', ?_, ?_, hstash', hkept, ?_⟩
      · rw [handedOff_append]
      · rw [List.append_assoc]
      · rw [lastFrame_append]
        exact h'

theorem retryStashedFrames_waits (h : Follows ahead offset u prev key todo frames missing paddings s)
    (hahead : ahead ≤ kMaxAhead) (hstash : s.stashedFrames = frames.map Event.frame)
    (hwait : ∀ e ∈ frames, e.first ≠ u + 1) : s.retryStashedFrames = (s, []) := by
  unfold retryStashedFrames
  rw [retryLoop, hstash, retryRound_waits h hahead hwait]
  dsimp only
  rw [if_pos rfl, ← hstash]

end Retry

/-! ## Events -/

/-- The finder between two events: nothing that has arrived fits, and nothing that has arrived
is far ahead of what is missing. -/
structure Between (offset : Int) (u prev key : Nat) (todo frames missing paddings : List Event)
    (s : SeqNumFrameRefFinder) : Prop
    extends Follows kMaxAhead offset u prev key todo frames missing paddings s where
  stashed : s.stashedFrames = frames.map Event.frame
  waits : ∀ e ∈ frames, e.first ≠ u + 1
  displaced : ∀ w ∈ frames ++ paddings, ∀ e ∈ missing, w.first ≤ e.last + kMaxPaddingAge

section Events

variable {offset : Int} {u prev key : Nat} {todo frames missing paddings : List Event} {e : Event}
  {s : SeqNumFrameRefFinder}

theorem Between.next_missing (h : Between offset u prev key todo frames missing paddings s)
    (hne : todo ≠ []) : ∃ x ∈ missing, x.first = u + 1 := by
  cases todo with
  | nil => exact absurd rfl hne
  | cons x todo =>
    have hfirst : x.first = u + 1 := h.covers.1
    have hx := h.perm.mem_iff.mp (List.mem_cons_self (a := x) (l := todo))
    rcases List.mem_append.mp hx with hx | hx
    · rcases List.mem_append.mp hx with hx | hx
      · exact absurd hfirst (h.waits x hx)
      · exact ⟨x, hx, hfirst⟩
    · exact absurd hfirst (h.settled x hx)

theorem between_of_close (h : Follows kMaxPaddingAge offset u prev key todo frames missing paddings s)
    (hstash : s.stashedFrames = frames.map Event.frame) (hwait : ∀ e ∈ frames, e.first ≠ u + 1) :
    Between offset u prev key todo frames missing paddings s := by
  refine ⟨h.mono (by decide), hstash, hwait, fun w hw x hx => ?_⟩
  have hwindow := h.window w hw
  have hlt := h.covers.lt_first (h.mem_missing hx)
  omega

/-- What an event does, when the finder was between two events. -/
def Steps (offset : Int) (prev : Nat) (todo missing : List Event) (s : SeqNumFrameRefFinder)
    (e : Event) :
    Prop :=
  ∃ s' u' key' done todo' frames' paddings',
    finderMachine.step s e.op = (s', handedOff offset prev done) ∧ todo = done ++ todo' ∧
    Between offset u' (lastFrame prev done) key' todo' frames' missing paddings' s'

section

variable (h : Between offset u prev key todo frames (e :: missing) paddings s)
include h

theorem insertFrame_next
    (hfirst : e.first = u + 1) (hframe : e.isFrame = true) :
      Steps offset prev todo missing s e := by
  have hclose : ∀ w ∈ frames ++ paddings, w.first ≤ e.last + kMaxPaddingAge := fun w hw =>
    h.displaced w hw e List.mem_cons_self
  obtain ⟨s₁, key₁, consumed, todo₁, paddings₁, hfind, hstash, rfl, hconsumed, h₁⟩ :=
    (h.toFollows.putBack hframe (by unfold kMaxAhead kMaxFramePackets; omega)).fits (Nat.le_refl _)
      hfirst hclose
  obtain ⟨s', u', key', done, todo', kept, paddings', hloop, rfl, hstash', hkept, h'⟩ :=
    retryLoop_spec h₁ (hstash.trans h.stashed) (Nat.lt_succ_self _)
  obtain ⟨hnone, hsame⟩ := handedOff_padding offset e.last hconsumed
  refine ⟨s', u', key', e :: consumed ++ done, todo', kept, paddings',
    ?_, by rw [List.append_assoc], ?_⟩
  · show finderMachine.step s (if e.isFrame then .insertFrame e.frame else _) = _
    rw [if_pos hframe]
    show s.insertFrame e.frame = _
    unfold insertFrame
    rw [if_neg (show ¬ e.frame.hasData = false by simp [Event.frame]), hfind]
    dsimp only
    rw [retryStashedFrames, hstash, h.stashed, List.length_map, hloop, List.cons_append, handedOff,
      if_pos hframe, handedOff_append, hnone, hsame, List.nil_append]
  · rw [List.cons_append, lastFrame, if_pos hframe, lastFrame_append, hsame]
    exact between_of_close h' hstash' hkept

theorem Between.ahead_le
    (hfirst : e.first ≠ u + 1) (hdisplaced : ∀ x ∈ missing, e.first ≤ x.last + kMaxPaddingAge) :
    u + 1 < e.first ∧ e.first ≤ u + kMaxAhead ∧
      ∃ x ∈ missing, x.first = u + 1 ∧ x.last < e.first ∧
        ∀ w ∈ frames ++ paddings, x.last < w.first := by
  have he : e ∈ todo := h.mem_missing List.mem_cons_self
  have hlt := (h.covers.lt_first he).1
  obtain ⟨x, hx, hxfirst⟩ := h.next_missing (List.ne_nil_of_mem he)
  have hxtodo := h.mem_missing hx
  have hsize := h.sizes x hxtodo
  rcases List.mem_cons.mp hx with rfl | hx
  · exact absurd hxfirst hfirst
  · have hle := hdisplaced x hx
    refine ⟨by omega, ?_, x, hx, hxfirst, h.covers.last_lt_first hxtodo he (by omega), fun w hw =>
      ?_⟩
    · unfold kMaxAhead
      omega
    · have hw' : w ∈ todo ∧ w.first ≠ u + 1 := by
        rcases List.mem_append.mp hw with hw | hw
        · exact ⟨h.mem_frames hw, h.waits w hw⟩
        · exact ⟨h.mem_paddings hw, h.settled w hw⟩
      have hwlt := (h.covers.lt_first hw'.1).1
      exact h.covers.last_lt_first hxtodo hw'.1 (by omega)

theorem insertFrame_later (hfirst : e.first ≠ u + 1) (hframe : e.isFrame = true)
    (hroom : s.stashedFrames.length ≤ kMaxStashedFrames)
    (hdisplaced : ∀ x ∈ missing, e.first ≤ x.last + kMaxPaddingAge) :
    Steps offset prev todo missing s e := by
  obtain ⟨hlt, hahead, -⟩ := h.ahead_le hfirst hdisplaced
  have h₁ := h.toFollows.putBack hframe hahead
  have hle := (h.covers.lt_first (h.mem_missing List.mem_cons_self)).2.1
  refine ⟨{ s with stashedFrames := e.frame :: s.stashedFrames }, u, key, [], todo, e :: frames,
    paddings, ?_, rfl, ⟨h₁.stash _, ?_, ?_, ?_⟩⟩
  · show finderMachine.step s (if e.isFrame then .insertFrame e.frame else _) = _
    rw [if_pos hframe]
    show s.insertFrame e.frame = _
    unfold insertFrame
    rw [if_neg (show ¬ e.frame.hasData = false by simp [Event.frame]),
      findRefForFrame_waits h.tracks hlt hle (h₁.last_lt_key (Nat.le_refl _) List.mem_cons_self)]
    dsimp only
    rw [if_neg (Nat.not_lt.mpr hroom)]
    rfl
  · show e.frame :: s.stashedFrames = _
    rw [h.stashed, List.map_cons]
  · intro f hf
    rcases List.mem_cons.mp hf with rfl | hf
    · exact hfirst
    · exact h.waits f hf
  · intro w hw x hx
    rcases List.mem_cons.mp hw with rfl | hw
    · exact hdisplaced x hx
    · exact h.displaced w hw x (List.mem_cons_of_mem e hx)

end

/-! ## Padding -/

/-- The stash of padding with one more. -/
def stashPadding (e : Event) (paddings : List Event) : List Event :=
  insertBy (fun a b => decide (a < b)) Event.first e paddings

theorem stashPadding_eq (hage : ∀ p ∈ paddings, e.first ≤ p.first + kMaxPaddingAge)
    (hwindow : ∀ p ∈ paddings, p.first < e.first + 2 ^ 14) :
    insertBy olderThan id (seqNum e.first) (eraseBelow olderThan id
      (seqNum e.first - BitVec.ofNat 16 kMaxPaddingAge) (paddings.map fun p => seqNum p.first)) =
      (stashPadding e paddings).map fun p => seqNum p.first := by
  unfold kMaxPaddingAge at hage
  have hkeep : eraseBelow olderThan id (seqNum e.first - BitVec.ofNat 16 kMaxPaddingAge)
      (paddings.map fun p => seqNum p.first) = paddings.map fun p => seqNum p.first := by
    cases hnil : paddings with
    | nil => rfl
    | cons p ps =>
      have hp : p ∈ paddings := by rw [hnil]; exact List.mem_cons_self
      have hp₁ := hage p hp
      have hp₂ := hwindow p hp
      have hback : seqNum e.first - BitVec.ofNat 16 kMaxPaddingAge =
        seqNum (e.first + (65536 - 100)) := by
        unfold seqNum kMaxPaddingAge
        bv_omega
      have hwrap : seqNum p.first = seqNum (p.first + 65536) := by
        unfold seqNum
        bv_omega
      rw [List.map_cons, eraseBelow, List.dropWhile_cons, id, hback, hwrap,
        olderThan_seqNum (by omega) (by omega), decide_eq_false (by omega)]
      rfl
  rw [hkeep, stashPadding]
  refine (map_insertBy (f := fun p : Event => seqNum p.first) fun p hp => ?_).symm
  have hp₁ := hage p hp
  have hp₂ := hwindow p hp
  exact ⟨olderThan_seqNum (by omega) (by omega), olderThan_seqNum (by omega) (by omega)⟩

theorem stashPadding_perm (hne : ∀ p ∈ paddings, p.first ≠ e.first) :
    (stashPadding e paddings).Perm (e :: paddings) := by
  refine insertBy_perm fun p hp hlt => ?_
  have := hne p hp
  rw [decide_eq_false_iff_not] at hlt
  exact decide_eq_true (by omega)

theorem stashPadding_sorted (hsorted : paddings.Pairwise fun p q => p.first < q.first) :
    (stashPadding e paddings).Pairwise fun p q => p.first < q.first := by
  refine @ranked_insertBy Nat Event Nat (fun a b => decide (a < b)) Event.first paddings e _ id
    (fun p hp => ?_) hsorted
  exact ⟨decide_eq_true_iff, decide_eq_true_iff⟩

section

variable (h : Between offset u prev key todo frames (e :: missing) paddings s)
include h

/-- **A padding packet is stashed**, and the place moves on over the padding that follows it. -/
theorem insertPadding_eq (hpadding : e.isFrame = false) (hahead : e.first ≤ u + kMaxAhead)
    (hage : ∀ p ∈ paddings, e.first ≤ p.first + kMaxPaddingAge) :
    ∃ consumed todo' paddings',
      Advances u todo (stashPadding e paddings) consumed todo' paddings' ∧
      (consumed ++ paddings').Perm (e :: paddings) ∧ todo'.Perm (frames ++ missing ++ paddings') ∧
      finderMachine.step s e.op = SeqNumFrameRefFinder.retryStashedFrames { s with
        stashedPadding := paddings'.map fun p => seqNum p.first
        gopInfos := [(seqNum (if key + kMaxGopPacketAge < e.first then e.first else key),
          ⟨seqNum prev, seqNum (u + consumed.length)⟩)] } := by
  have he : e ∈ todo := h.mem_missing List.mem_cons_self
  have hlt := (h.covers.lt_first he).1
  have hkey := h.tracks.key_le
  have hkey' := h.tracks.le_key
  unfold kMaxAhead kMaxFramePackets at hahead
  unfold kMaxGopPacketAge at hkey'
  have hwindow : ∀ p ∈ paddings, p.first ≤ u + kMaxAhead := fun p hp =>
    h.window p (List.mem_append_right _ hp)
  unfold kMaxAhead kMaxFramePackets at hwindow
  unfold kMaxPaddingAge at hahead hkey' hwindow
  -- events at one place are one event, and the stream has each only once
  have hnodup : (frames ++ (e :: missing) ++ paddings).Nodup :=
    h.perm.nodup_iff.mp h.covers.nodup
  have hne : ∀ p ∈ paddings, p.first ≠ e.first := by
    intro p hp heq
    have hpe : p = e := h.covers.eq_of_first (h.mem_paddings hp) he heq
    have hdisj := (List.nodup_append.mp hnodup).2.2
    exact hdisj e (List.mem_append_right _ List.mem_cons_self) p hp hpe.symm
  have hperm₁ := stashPadding_perm hne
  have hperm : todo.Perm (frames ++ missing ++ stashPadding e paddings) := by
    refine h.perm.trans ?_
    rw [List.append_assoc, List.append_assoc]
    refine List.Perm.append_left frames ?_
    rw [List.cons_append]
    exact (List.perm_middle.symm).trans (hperm₁.symm.append_left missing)
  have hwaiting : Waiting u todo (stashPadding e paddings) := by
    refine ⟨stashPadding_sorted h.sorted, fun p hp =>
      hperm.mem_iff.mpr (List.mem_append_right _ hp),
      fun p hp => ?_, fun p hp => ?_⟩
    · rcases List.mem_cons.mp (hperm₁.mem_iff.mp hp) with rfl | hp
      · exact hpadding
      · exact h.isPadding p hp
    · rcases List.mem_cons.mp (hperm₁.mem_iff.mp hp) with rfl | hp
      · omega
      · have := hwindow p hp
        omega
  have hstash := stashPadding_eq (e := e) hage fun p hp => by
    have := hwindow p hp
    omega
  obtain ⟨consumed, todo', paddings', hadv, heq⟩ := updateGopInfo_spec (n := e.first) (u := u)
    (s := { s with stashedPadding := (stashPadding e paddings).map fun p => seqNum p.first })
    h.tracks.gops rfl (by omega) (by omega) h.covers hwaiting
  refine ⟨consumed, todo', paddings', hadv, hadv.paddings ▸ hperm₁, ?_, ?_⟩
  · refine (List.perm_append_left_iff consumed).mp ?_
    rw [← hadv.todo]
    refine hperm.trans ?_
    rw [hadv.paddings]
    exact List.perm_append_comm_assoc _ _ _
  · show finderMachine.step s (if e.isFrame then _ else .insertPadding (seqNum e.first)) = _
    rw [if_neg (by simp [hpadding])]
    show s.insertPadding (seqNum e.first) = _
    unfold insertPadding
    rw [h.tracks.padding, hstash]
    dsimp only
    rw [heq]

theorem insertPadding_next
    (hfirst : e.first = u + 1) (hpadding : e.isFrame = false) :
      Steps offset prev todo missing s e := by
  have hlast : e.last = e.first := (h.covers.lt_first (h.mem_missing List.mem_cons_self)).2.2 hpadding
  have hclose : ∀ w ∈ frames ++ paddings, w.first ≤ e.first + kMaxPaddingAge := fun w hw =>
    hlast ▸ h.displaced w hw e List.mem_cons_self
  have hlt : ∀ w ∈ frames ++ paddings, u < w.first := by
    intro w hw
    rcases List.mem_append.mp hw with hw | hw
    · exact (h.covers.lt_first (h.mem_frames hw)).1
    · exact (h.covers.lt_first (h.mem_paddings hw)).1
  obtain ⟨consumed, todo₁, paddings₁, hadv, hperm₁, hperm, hstep⟩ := insertPadding_eq h hpadding
    (by unfold kMaxAhead kMaxFramePackets; omega) fun p hp => by
      have := hlt p (List.mem_append_right _ hp)
      omega
  have hmem : ∀ p, p ∈ consumed ++ paddings₁ → p = e ∨ p ∈ paddings := fun p hp =>
    List.mem_cons.mp (hperm₁.mem_iff.mp hp)
  have hpass : 0 < consumed.length := by
    rcases Nat.eq_zero_or_pos consumed.length with hzero | hpos
    · have he : e ∈ consumed ++ paddings₁ := hperm₁.mem_iff.mpr List.mem_cons_self
      rw [List.length_eq_zero_iff.mp hzero, List.nil_append] at he
      have := hadv.rest e he
      omega
    · exact hpos
  have hlength : consumed.length ≤ kMaxPaddingAge + 1 := by
    obtain ⟨-, -, hcovers, -⟩ := covers_append (hadv.todo ▸ h.covers)
    refine hcovers.length_le hadv.isPadding fun p hp => ?_
    rcases hmem p (List.mem_append_left _ hp) with rfl | hp
    · omega
    · have := hclose p (List.mem_append_right _ hp)
      omega
  have htodo := hadv.todo
  subst htodo
  have hkey := h.tracks.key_le
  have hkey' := h.tracks.le_key
  have hprev := h.tracks.prev_le
  have h₁ : Follows kMaxPaddingAge offset (u + consumed.length) prev
      (if key + kMaxGopPacketAge < e.first then e.first else key) todo₁ frames missing paddings₁
      { s with
        stashedPadding := paddings₁.map fun p => seqNum p.first
        gopInfos := [(seqNum (if key + kMaxGopPacketAge < e.first then e.first else key),
          ⟨seqNum prev, seqNum (u + consumed.length)⟩)] } := by
    refine ⟨⟨h.tracks.offset, rfl, ?_, ?_, by omega, h.tracks.unwrapper, rfl⟩, hadv.covers,
      framesNear_padding hadv.isPadding h.near, ?_, hperm, h.isFrame, ?_, ?_, hadv.rest, ?_⟩
    · split
      · omega
      · omega
    · split
      · omega
      · omega
    · exact fun x hx => h.sizes x (List.mem_append_right _ hx)
    · intro p hp
      rcases hmem p (List.mem_append_right _ hp) with rfl | hp
      · exact hpadding
      · exact h.isPadding p hp
    · exact (List.pairwise_append.mp (hadv.paddings ▸ stashPadding_sorted h.sorted)).2.1
    · intro w hw
      have hw' : w = e ∨ w ∈ frames ++ paddings := by
        rcases List.mem_append.mp hw with hw | hw
        · exact Or.inr (List.mem_append_left _ hw)
        · exact (hmem w (List.mem_append_right _ hw)).imp id (List.mem_append_right _)
      rcases hw' with rfl | hw'
      · omega
      · have := hclose w hw'
        omega
  obtain ⟨s', u', key', done, todo', kept, paddings', hloop, rfl, hstash', hkept, h'⟩ :=
    retryLoop_spec h₁ h.stashed (show frames.length < s.stashedFrames.length + 1 by
      rw [h.stashed, List.length_map]
      exact Nat.lt_succ_self _)
  obtain ⟨hnone, hsame⟩ := handedOff_padding offset prev hadv.isPadding
  refine ⟨s', u', key', consumed ++ done, todo', kept, paddings', ?_, by rw [List.append_assoc], ?_⟩
  · rw [hstep, handedOff_append, hnone, hsame, List.nil_append]
    exact hloop
  · rw [lastFrame_append, hsame]
    exact between_of_close h' hstash' hkept

theorem insertPadding_later (hfirst : e.first ≠ u + 1) (hpadding : e.isFrame = false)
    (hdisplaced : ∀ x ∈ missing, e.first ≤ x.last + kMaxPaddingAge)
    (hkey : e.first ≤ key + kMaxGopPacketAge) : Steps offset prev todo missing s e := by
  obtain ⟨hlt, hahead, x, hx, -, -, hbehind⟩ := h.ahead_le hfirst hdisplaced
  obtain ⟨consumed, todo', paddings', hadv, hperm₁, hperm, hstep⟩ :=
    insertPadding_eq h hpadding hahead
    fun p hp => by
      have hle := hdisplaced x hx
      have hp' := hbehind p (List.mem_append_right _ hp)
      omega
  have hmem : ∀ p, p ∈ consumed ++ paddings' → p = e ∨ p ∈ paddings := fun p hp =>
    List.mem_cons.mp (hperm₁.mem_iff.mp hp)
  have hnil : consumed = [] := by
    cases hconsumed : consumed with
    | nil => rfl
    | cons c cs =>
      have hc : c.first = u + 1 := by
        have := hadv.todo ▸ h.covers
        rw [hconsumed] at this
        exact this.1
      rcases hmem c (by rw [hconsumed]; exact List.mem_cons_self) with rfl | hp
      · exact absurd hc hfirst
      · exact absurd hc (h.settled c hp)
  subst hnil
  have htodo : todo = todo' := hadv.todo
  subst htodo
  have h₁ : Follows kMaxAhead offset u prev key todo frames missing paddings'
      { s with
        stashedPadding := paddings'.map fun p => seqNum p.first
        gopInfos := [(seqNum key, ⟨seqNum prev, seqNum u⟩)] } := by
    refine ⟨⟨h.tracks.offset, rfl, h.tracks.key_le, h.tracks.le_key, h.tracks.prev_le,
      h.tracks.unwrapper, rfl⟩, h.covers, h.near, h.sizes, hperm, h.isFrame, ?_, ?_, hadv.rest, ?_⟩
    · intro p hp
      rcases hmem p hp with rfl | hp
      · exact hpadding
      · exact h.isPadding p hp
    · have hsorted := stashPadding_sorted (e := e) h.sorted
      rw [hadv.paddings] at hsorted
      exact hsorted
    · intro w hw
      rcases List.mem_append.mp hw with hw | hw
      · exact h.window w (List.mem_append_left _ hw)
      · rcases hmem w hw with rfl | hw
        · exact hahead
        · exact h.window w (List.mem_append_right _ hw)
  refine ⟨_, u, key, [], todo, frames, paddings', ?_, rfl,
    ⟨h₁, h.stashed, h.waits, fun w hw y hy => ?_⟩⟩
  · rw [hstep, if_neg (Nat.not_lt.mpr hkey)]
    exact retryStashedFrames_waits h₁ (Nat.le_refl _) h.stashed h.waits
  · rcases List.mem_append.mp hw with hw | hw
    · exact h.displaced w (List.mem_append_left _ hw) y (List.mem_cons_of_mem e hy)
    · rcases hmem w hw with rfl | hw
      · exact hdisplaced y hy
      · exact h.displaced w (List.mem_append_right _ hw) y (List.mem_cons_of_mem e hy)

end

end Events

/-! ## Every order -/

/-- No event arrives later than one that is far ahead of it. -/
def Displaced (order : List Event) : Prop :=
  order.Pairwise fun y x => y.first ≤ x.last + kMaxPaddingAge

/-- No more frames wait than the stash can hold, from state `s` on. -/
def StashHolds (s : SeqNumFrameRefFinder) : List Event → Prop
  | [] => s.stashedFrames.length ≤ kMaxStashedFrames
  | e :: order =>
    s.stashedFrames.length ≤ kMaxStashedFrames ∧ StashHolds (finderMachine.step s e.op).1 order

/-- Padding that arrives while something before it is missing is not so far ahead of the key of
its group that the key moves. -/
def KeyStays (s : SeqNumFrameRefFinder) : List Event → Prop
  | [] => True
  | e :: order =>
    (e.isFrame = false → (∃ x ∈ order, x.last < e.first) →
      ∀ gop ∈ s.gopInfos, (forwardDiff gop.1 (seqNum e.first)).toNat ≤ kMaxGopPacketAge) ∧
    KeyStays (finderMachine.step s e.op).1 order

instance decidableStashHolds (s : SeqNumFrameRefFinder) : ∀ order, Decidable (StashHolds s order)
  | [] => inferInstanceAs (Decidable (_ ≤ _))
  | e :: order =>
    have := decidableStashHolds (finderMachine.step s e.op).1 order
    inferInstanceAs (Decidable (_ ∧ _))

instance decidableKeyStays (s : SeqNumFrameRefFinder) : ∀ order, Decidable (KeyStays s order)
  | [] => .isTrue trivial
  | e :: order =>
    have := decidableKeyStays (finderMachine.step s e.op).1 order
    inferInstanceAs (Decidable (_ ∧ _))

/-- The frames that are handed off during a run. -/
def outputs (s : SeqNumFrameRefFinder) (ops : List Op) : List RefFrame :=
  (finderMachine.log s ops).flatMap Prod.snd

section Run

variable {offset : Int} {u prev key : Nat} {todo frames order paddings : List Event}
  {s : SeqNumFrameRefFinder}

theorem step_spec {e : Event} (h : Between offset u prev key todo frames (e :: order) paddings s)
    (hdisplaced : Displaced (e :: order)) (hroom : StashHolds s (e :: order))
    (hkey : KeyStays s (e :: order)) : Steps offset prev todo order s e := by
  have hdisplaced := (List.pairwise_cons.mp hdisplaced).1
  by_cases hframe : e.isFrame = true
  · by_cases hfirst : e.first = u + 1
    · exact insertFrame_next h hfirst hframe
    · exact insertFrame_later h hfirst hframe hroom.1 hdisplaced
  · have hpadding : e.isFrame = false := Bool.not_eq_true _ ▸ hframe
    by_cases hfirst : e.first = u + 1
    · exact insertPadding_next h hfirst hpadding
    · obtain ⟨hlt, hahead, x, hx, -, hxe, -⟩ := h.ahead_le hfirst hdisplaced
      have hgop := hkey.1 hpadding ⟨x, hx, hxe⟩ (seqNum key, ⟨seqNum prev, seqNum u⟩) (by
        rw [h.tracks.gops]
        exact List.mem_singleton_self _)
      have hle := h.tracks.key_le
      have hle' := h.tracks.le_key
      unfold kMaxAhead kMaxFramePackets at hahead
      unfold kMaxGopPacketAge kMaxPaddingAge at hle'
      unfold kMaxPaddingAge at hahead
      rw [toNat_forwardDiff_seqNum (by omega) (by omega)] at hgop
      exact insertPadding_later h hfirst hpadding hdisplaced (by omega)

theorem run_spec (h : Between offset u prev key todo frames order paddings s)
    (hdisplaced : Displaced order) (hroom : StashHolds s order) (hkey : KeyStays s order) :
    outputs s (order.map Event.op) = handedOff offset prev todo := by
  induction order generalizing s u prev key todo frames paddings with
  | nil =>
    have htodo : todo = [] := by
      by_contra hne
      obtain ⟨x, hx, -⟩ := h.next_missing hne
      exact absurd hx List.not_mem_nil
    rw [htodo]
    rfl
  | cons e order ih =>
    obtain ⟨s', u', key', done, todo', frames', paddings', hstep, rfl, h'⟩ :=
      step_spec h hdisplaced hroom hkey
    have hroom' := hroom.2
    have hkey' := hkey.2
    rw [hstep] at hroom' hkey'
    have hrest := ih h' (List.pairwise_cons.mp hdisplaced).2 hroom' hkey'
    rw [List.map_cons, outputs, Machine.log_cons, List.flatMap_cons, hstep, handedOff_append]
    exact congrArg (handedOff offset prev done ++ ·) hrest

end Run

/-! ## Streams that begin with their keyframe -/

/-- A keyframe. -/
def keyframe (seqNumStart seqNumEnd : U16) : RefFrame :=
  { frameType := .key, seqNumStart := seqNumStart, seqNumEnd := seqNumEnd, hasData := true }

/-- The finder after the keyframe. -/
def started (offset : Int) (seqNumStart seqNumEnd : U16) : SeqNumFrameRefFinder :=
  (finderMachine.step (create offset) (.insertFrame (keyframe seqNumStart seqNumEnd))).1

theorem insert_keyframe (offset : Int) (seqNumStart seqNumEnd : U16) :
    finderMachine.step (create offset) (.insertFrame (keyframe seqNumStart seqNumEnd)) =
      ({ create offset with
        gopInfos := [(seqNumEnd, ⟨seqNumEnd, seqNumEnd⟩)]
        seqNumUnwrapper := some (seqNumEnd.toNat : Int) },
      [{ keyframe seqNumStart seqNumEnd with id := offset + seqNumEnd.toNat }]) := by
  have htrack : (create offset).trackKeyframe (keyframe seqNumStart seqNumEnd) =
      { create offset with gopInfos := [(seqNumEnd, ⟨seqNumEnd, seqNumEnd⟩)] } := by
    simp [trackKeyframe, create, insertBy, keyframe]
  have hupTo : gopsUpTo { create offset with gopInfos := [(seqNumEnd, ⟨seqNumEnd, seqNumEnd⟩)] }
      seqNumEnd = [(seqNumEnd, ⟨seqNumEnd, seqNumEnd⟩)] := by
    simp [gopsUpTo, olderThan]
  have hupdate : updateGopInfo { create offset with gopInfos :=
    [(seqNumEnd, ⟨seqNumEnd, seqNumEnd⟩)] }
      seqNumEnd = { create offset with gopInfos := [(seqNumEnd, ⟨seqNumEnd, seqNumEnd⟩)] } := by
    unfold updateGopInfo
    rw [hupTo]
    simp [create, advancePadding, forwardDiff, kMaxGopPacketAge]
  show (create offset).insertFrame (keyframe seqNumStart seqNumEnd) = _
  unfold insertFrame findRefForFrame
  rw [htrack]
  dsimp only
  rw [if_neg (by simp [keyframe]), if_neg (by simp),
    show (keyframe seqNumStart seqNumEnd).seqNumEnd =
    seqNumEnd from rfl, hupTo]
  dsimp only [List.getLast?_singleton]
  rw [if_neg (by simp [keyframe])]
  unfold SeqNumFrameRefFinder.handOff
  rw [if_neg (by simp [keyframe])]
  dsimp only
  rw [if_neg (by decide), show (keyframe seqNumStart seqNumEnd).seqNumEnd = seqNumEnd from rfl,
    aheadOf_self, if_neg (by decide), hupTo]
  rw [show ([(seqNumEnd, ⟨seqNumEnd, seqNumEnd⟩)] : List (U16 × GopInfo)).set ([(seqNumEnd,
    (⟨seqNumEnd, seqNumEnd⟩ : GopInfo))].length - 1) (seqNumEnd, ⟨seqNumEnd, seqNumEnd⟩) =
      [(seqNumEnd, ⟨seqNumEnd, seqNumEnd⟩)] from rfl, hupdate]
  rfl

/-- **The references of a stream.**  A keyframe is inserted, and then the delta frames and the
padding behind it, in any order: no event is displaced too far, the stash holds, and padding
does not move the key past anything that is missing.  Every frame is handed off once, in the
order of the stream; its id is its last sequence number, unwrapped, and its one reference is
the frame before it. -/
theorem frame_refs (offset : Int) (seqNumStart seqNumEnd : U16) (stream order : List Event)
    (hcovers : Covers seqNumEnd.toNat stream) (hnear : FramesNear seqNumEnd.toNat stream)
    (hsizes : ∀ e ∈ stream, e.last < e.first + kMaxFramePackets) (hperm : order.Perm stream)
    (hdisplaced : Displaced order) (hroom : StashHolds (started offset seqNumStart seqNumEnd) order)
    (hkey : KeyStays (started offset seqNumStart seqNumEnd) order) :
    outputs (create offset) (.insertFrame (keyframe seqNumStart seqNumEnd) :: order.map Event.op) =
      { keyframe seqNumStart seqNumEnd with id := offset + seqNumEnd.toNat } ::
        handedOff offset seqNumEnd.toNat stream := by
  have hplace : seqNum seqNumEnd.toNat = seqNumEnd := by simp [seqNum]
  have hstart := insert_keyframe offset seqNumStart seqNumEnd
  have h : Between offset seqNumEnd.toNat seqNumEnd.toNat seqNumEnd.toNat stream [] order []
      (started offset seqNumStart seqNumEnd) := by
    unfold started
    rw [hstart]
    refine ⟨⟨⟨rfl, ?_, Nat.le_refl _, by omega, Nat.le_refl _, rfl, rfl⟩, hcovers, hnear, hsizes, ?_,
      by simp, by simp, List.Pairwise.nil, by simp, by simp⟩, rfl, by simp, by simp⟩
    · rw [hplace]
    · rw [List.nil_append, List.append_nil]
      exact hperm.symm
  have hrest := run_spec h hdisplaced hroom hkey
  rw [outputs, Machine.log_cons, List.flatMap_cons]
  unfold started at hrest
  rw [hstart] at hrest ⊢
  exact congrArg (_ :: ·) hrest

/-- A frame of two packets behind keyframe 65535 is overtaken by padding and by another frame. -/
theorem frame_refs_wrap :
    let stream : List Event := [⟨true, 65536, 65537⟩, ⟨false, 65538, 65538⟩, ⟨true, 65539, 65539⟩]
    let order : List Event := [⟨true, 65539, 65539⟩, ⟨false, 65538, 65538⟩, ⟨true, 65536, 65537⟩]
    Covers (65535#16).toNat stream ∧ order.Perm stream ∧
      (outputs (create 0) (.insertFrame (keyframe 65530 65535) :: order.map Event.op)).map
        (fun f => (f.id, f.references)) = [(65535, []), (65537, [65535]), (65539, [65537])] := by
  intro stream order
  have hcovers : Covers (65535#16).toNat stream := by decide
  have hperm : order.Perm stream := by decide
  refine ⟨hcovers, hperm, ?_⟩
  rw [frame_refs 0 65530 65535 stream order hcovers ⟨by decide, by decide, trivial⟩ (by decide) hperm
    (by unfold Displaced; decide) (by decide) (by decide)]
  decide

/-- Padding 10002 overtakes the frame 10001 and moves the key past it: the frame is dropped, and
so is everything behind it. -/
theorem frame_refs_overtaken :
    let stream : List Event := [⟨true, 1, 2000⟩, ⟨true, 2001, 4000⟩, ⟨true, 4001, 6000⟩,
      ⟨true, 6001, 8000⟩, ⟨true, 8001, 10000⟩, ⟨true, 10001, 10001⟩, ⟨false, 10002, 10002⟩,
      ⟨true, 10003, 10003⟩]
    let order : List Event := [⟨true, 1, 2000⟩, ⟨true, 2001, 4000⟩, ⟨true, 4001, 6000⟩,
      ⟨true, 6001, 8000⟩, ⟨true, 8001, 10000⟩, ⟨false, 10002, 10002⟩, ⟨true, 10001, 10001⟩,
      ⟨true, 10003, 10003⟩]
    Covers (0#16).toNat stream ∧ FramesNear (0#16).toNat stream ∧
      (∀ e ∈ stream, e.last < e.first + kMaxFramePackets) ∧ order.Perm stream ∧ Displaced order ∧
      StashHolds (started 0 0 0) order ∧
      outputs (create 0) (.insertFrame (keyframe 0 0) :: order.map Event.op) ≠
        { keyframe 0 0 with id := 0 + (0#16).toNat } :: handedOff 0 (0#16).toNat stream := by
  intro stream order
  refine ⟨by decide, ?_, by decide, by decide, by unfold Displaced; decide, by decide, by decide⟩
  simp [FramesNear, stream]

end NaiveRtc.Jitter.SeqNumFrameRefFinder
