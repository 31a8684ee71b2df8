import NaiveRtc.Jitter.PacketBufferAssembly
import Mathlib.Order.Bounds.Basic

/-!
# What an assembled frame says about its packets

A frame carries a summary of its packets: how often they were nacked at most, when the first and
the last of them were received, and, for H264, whether they make up a key frame.  The last is
gathered on the walk backward, the others while the packets are taken out.

* `Metadata` — what the summary should be, in terms of the packets of the frame.
* `takePackets_eq` — a frame is built from the slots between its first and its last number.
* `walkBack_gathers` — the walk backward visits the same slots and gathers what they hold.
* `metadata_iff` — in every run the summary is right exactly when no packet of the frame was
  nacked more often than the first one, whose count the frame takes over.
-/

namespace NaiveRtc.Jitter

open WrapAround SlotTable

/-! ## The summary of a frame -/

/-- What the codec header of an H264 packet says. -/
def Packet.reports (p : Packet) (flag : H264.PacketizationInfo → Bool) : Bool :=
  match p.videoCodecHeader with
  | .monostate => false
  | .h264 info => flag info

/-- The packets together contain a NAL unit of a kind. -/
def Contains (ps : List Packet) (flag : H264.PacketizationInfo → Bool) : Prop :=
  ∃ p ∈ ps, p.reports flag = true

/-- The last packet of the frame says that it is H264. -/
def AssembledFrame.IsH264 (f : AssembledFrame) : Prop :=
  ∃ p ∈ f.packets.getLast?, p.videoHeader.codecType = .h264

/-- An H264 frame is a key frame when its packets contain an IDR picture and, where that is
asked for, the parameter sets. -/
def AssembledFrame.KeyRight (spsPpsIdrIsH264Keyframe : Bool) (f : AssembledFrame) : Prop :=
  f.IsH264 → (f.frameType = .key ↔ Contains f.packets (·.hasIdr) ∧
    (spsPpsIdrIsH264Keyframe = true → Contains f.packets (·.hasSps) ∧
      Contains f.packets (·.hasPps)))

/-- **The summary is right**: the fields of the frame are those of all its packets. -/
structure AssembledFrame.Metadata (spsPpsIdrIsH264Keyframe : Bool) (f : AssembledFrame) : Prop where
  timesNacked : IsGreatest {n | ∃ p ∈ f.packets, p.timesNacked = n} f.timesNacked
  minReceivedTimeMs : IsLeast {t | ∃ p ∈ f.packets, p.receivedTimeMs = t} f.minReceivedTimeMs
  maxReceivedTimeMs : IsGreatest {t | ∃ p ∈ f.packets, p.receivedTimeMs = t} f.maxReceivedTimeMs
  frameType : f.KeyRight spsPpsIdrIsH264Keyframe

/-! ## The forward walk -/

section Fold

variable {α β : Type*} [LinearOrder β]

theorem isLeast_foldl_min (g : α → β) (l : List α) (t : β) :
    IsLeast {x | x = t ∨ ∃ a ∈ l, g a = x} (l.foldl (fun t a => min t (g a)) t) := by
  induction l generalizing t with
  | nil => exact ⟨Or.inl rfl, by rintro x (rfl | ⟨a, ha, -⟩); exacts [le_rfl, absurd ha List.not_mem_nil]⟩
  | cons a l ih =>
    obtain ⟨hmem, hle⟩ := ih (min t (g a))
    refine ⟨?_, ?_⟩
    · rcases hmem with hmem | ⟨b, hb, hmem⟩
      · rw [List.foldl_cons, hmem]
        rcases min_choice t (g a) with h | h
        · exact Or.inl h
        · exact Or.inr ⟨a, List.mem_cons_self, h.symm⟩
      · exact Or.inr ⟨b, List.mem_cons_of_mem _ hb, hmem⟩
    · have hstart := hle (Or.inl rfl)
      rintro x (rfl | ⟨b, hb, rfl⟩)
      · exact hstart.trans (min_le_left _ _)
      · rcases List.mem_cons.1 hb with rfl | hb
        · exact hstart.trans (min_le_right _ _)
        · exact hle (Or.inr ⟨b, hb, rfl⟩)

theorem isLeast_foldl_min_head (g : α → β) (a : α) (l : List α) :
    IsLeast {x | ∃ b ∈ a :: l, g b = x} ((a :: l).foldl (fun t b => min t (g b)) (g a)) := by
  have hset : {x | ∃ b ∈ a :: l, g b = x} = {x | x = g a ∨ ∃ b ∈ a :: l, g b = x} := by
    ext x
    constructor
    · exact Or.inr
    · rintro (rfl | h)
      · exact ⟨a, List.mem_cons_self, rfl⟩
      · exact h
  rw [hset]
  exact isLeast_foldl_min g (a :: l) (g a)

end Fold

namespace PacketBuffer

variable {s s' : PacketBuffer} {p : Packet} {q : U16}

theorem buildFrame_cons (n size : Nat) (first : Packet) (rest : List Packet) :
    (buildFrame n size (first :: rest)).frameType = first.videoHeader.frameType ∧
      (buildFrame n size (first :: rest)).timesNacked = first.timesNacked ∧
      (buildFrame n size (first :: rest)).minReceivedTimeMs =
        (first :: rest).foldl (fun t p => min t p.receivedTimeMs) first.receivedTimeMs ∧
      (buildFrame n size (first :: rest)).maxReceivedTimeMs =
        (first :: rest).foldl (fun t p => max t p.receivedTimeMs) first.receivedTimeMs := by
  obtain ⟨last, hlast⟩ : ∃ last, (first :: rest).getLast? = some last :=
    ⟨_, List.getLast?_eq_some_getLast (List.cons_ne_nil _ _)⟩
  unfold buildFrame
  rw [hlast]
  exact ⟨rfl, rfl, rfl, rfl⟩

variable {ps : List Packet}

/-- **The summary of a frame that was built** is right exactly when its first packet was nacked
most often, given that its frame type is. -/
theorem metadata_buildFrame_iff {n size : Nat} {flag : Bool}
    (hkey : (buildFrame n size ps).KeyRight flag) :
    (buildFrame n size ps).Metadata flag ↔
      ∃ first, ps.head? = some first ∧ ∀ p ∈ ps, p.timesNacked ≤ first.timesNacked := by
  cases ps with
  | nil =>
    refine iff_of_false (fun h => ?_) (by simp)
    obtain ⟨p, hp, -⟩ := h.timesNacked.1
    rw [packets_buildFrame] at hp
    exact absurd hp List.not_mem_nil
  | cons first rest =>
    obtain ⟨-, hnacked, hmin, hmax⟩ := buildFrame_cons n size first rest
    constructor
    · intro h
      refine ⟨first, rfl, fun p hp => ?_⟩
      have hle := h.timesNacked.2 ⟨p, by rwa [packets_buildFrame], rfl⟩
      rwa [hnacked] at hle
    · rintro ⟨_, ⟨⟩, hle⟩
      refine ⟨?_, ?_, ?_, hkey⟩
      · rw [packets_buildFrame, hnacked]
        refine ⟨⟨first, List.mem_cons_self, rfl⟩, ?_⟩
        rintro n ⟨p, hp, rfl⟩
        exact hle p hp
      · rw [packets_buildFrame, hmin]
        exact isLeast_foldl_min_head Packet.receivedTimeMs first rest
      · rw [packets_buildFrame, hmax]
        exact isLeast_foldl_min_head (β := Intᵒᵈ) Packet.receivedTimeMs first rest

/-! ## The slots of a frame -/

variable {n : Nat}

/-- **The packets taken** are those in the slots from the first number on; every slot is emptied
at once, so that none is met twice. -/
theorem takePackets_eq (h : takePackets n q s = .ok (s', ps)) :
    ps = s.packetsFrom q n ∧ ∀ k, k < n → (s.get (s.indexOf (q + BitVec.ofNat 16 k))).isSome := by
  induction n generalizing q s ps with
  | zero =>
    cases h
    exact ⟨rfl, fun k hk => absurd hk (Nat.not_lt_zero k)⟩
  | succ n ih =>
    obtain ⟨p, rest, hp, rfl, hrest⟩ := takePackets_cons h
    obtain ⟨rfl, hall⟩ := ih hrest
    -- what is taken later is in another slot
    have hsame : ∀ k, k < n → (s.set (s.indexOf q) none).get
        ((s.set (s.indexOf q) none).indexOf (q + 1 + BitVec.ofNat 16 k)) =
          s.get (s.indexOf (q + 1 + BitVec.ofNat 16 k)) := by
      intro k hk
      have hsome := hall k hk
      rw [indexOf_set] at hsome ⊢
      by_cases heq : s.indexOf q = s.indexOf (q + 1 + BitVec.ofNat 16 k)
      · have hempty : (s.set (s.indexOf q) none).get (s.indexOf q) = none :=
          slot_set_none_self _ _
        rw [← heq, hempty] at hsome
        cases hsome
      · exact get_set_ne heq none
    refine ⟨?_, fun k hk => ?_⟩
    · rw [packetsFrom, hp, packetsFrom_congr hsame]
      rfl
    · cases k with
      | zero => simp [hp]
      | succ k =>
        have hsome := hall k (by omega)
        rw [hsame k (by omega)] at hsome
        rwa [← succ_add_ofNat]

theorem packetsFrom_map_congr {α : Type*} (g : Packet → α) (hsize : s'.size = s.size)
    (h : ∀ i, (s'.get i).map g = (s.get i).map g) :
    (s'.packetsFrom q n).map g = (s.packetsFrom q n).map g := by
  induction n generalizing q with
  | zero => rfl
  | succ n ih =>
    have hindex : s'.indexOf q = s.indexOf q := by
      unfold indexOf
      rw [hsize]
    rw [packetsFrom, packetsFrom, List.map_append, List.map_append, ih, ← Option.toList_map,
      ← Option.toList_map, hindex, h]

/-- A packet is only found in the slot before that of `q` if that is the slot of the number
before `q`: at 0 a larger ring has a slot there that no number leads to. -/
theorem Ring.prevIndex_of_some (h : Ring s) {x : Packet}
    (hx : s.get (prevIndex s.size (s.indexOf q)) = some x) :
    prevIndex s.size (s.indexOf q) = s.indexOf (q - 1) ∧ (65536 < s.size → 0 < q.toNat) := by
  rcases h.size.dvd_or_lt with hd | hlt
  · exact ⟨prevIndex_indexOf hd q, fun hlt => absurd (Nat.le_of_dvd (by decide) hd) (by omega)⟩
  · have hhome : prevIndex s.size (s.indexOf q) = x.seqNum.toNat % s.size := h.placed _ x hx
    have hq := q.isLt
    have hx := x.seqNum.isLt
    unfold prevIndex indexOf at hhome
    unfold prevIndex indexOf
    rw [Nat.mod_eq_of_lt (show q.toNat < s.size by omega)] at hhome ⊢
    rw [Nat.mod_eq_of_lt (show x.seqNum.toNat < s.size by omega)] at hhome
    have hpos : 0 < q.toNat := by
      split at hhome <;> omega
    refine ⟨?_, fun _ => hpos⟩
    have hpred : (q - 1).toNat = q.toNat - 1 := by bv_omega
    rw [if_pos hpos, hpred, Nat.mod_eq_of_lt (by omega)]

/-! ## The walk backward -/

/-- What makes a frame a key frame, for what was seen of it. -/
def Walk.isKey (flag : Bool) (w : Walk) : Bool :=
  (flag && w.hasSps && w.hasPps && w.hasIdr) || (!flag && w.hasIdr)

/-- What a walk gathers from the packets `ps`, on the way from `w` to `w'`. -/
structure Gathers (flag : Bool) (w w' : Walk) (ps : List Packet) : Prop where
  sps : w'.hasSps = (w.hasSps || ps.any fun p => p.reports (·.hasSps))
  pps : w'.hasPps = (w.hasPps || ps.any fun p => p.reports (·.hasPps))
  idr : w'.hasIdr = (w.hasIdr || ps.any fun p => p.reports (·.hasIdr))
  key : w.isH264Keyframe = w.isKey flag → w'.isH264Keyframe = w'.isKey flag

theorem Gathers.trans {flag : Bool} {w w₁ w' : Walk} {ps ps' : List Packet}
    (h : Gathers flag w w₁ ps) (h' : Gathers flag w₁ w' ps') : Gathers flag w w' (ps' ++ ps) where
  sps := by rw [h'.sps, h.sps, List.any_append, Bool.or_assoc, Bool.or_comm (ps'.any _)]
  pps := by rw [h'.pps, h.pps, List.any_append, Bool.or_assoc, Bool.or_comm (ps'.any _)]
  idr := by rw [h'.idr, h.idr, List.any_append, Bool.or_assoc, Bool.or_comm (ps'.any _)]
  key hkey := h'.key (h.key hkey)

variable {w w' : Walk}

theorem gathers_inspect (h : (w.visit p).inspect s p = .ok (some w')) :
    Gathers s.spsPpsIdrIsH264Keyframe w w' [p] := by
  unfold Walk.inspect at h
  cases hheader : p.videoCodecHeader with
  | monostate =>
    rw [hheader] at h
    cases h
  | h264 info =>
    have hreports : ∀ flag : H264.PacketizationInfo →
      Bool, [p].any (·.reports flag) = flag info := by
      intro flag
      simp [Packet.reports, hheader]
    rw [hheader] at h
    dsimp only at h
    by_cases hfull : H264.kMaxNaluNumPerPacket ≤ info.nalus.length
    · rw [if_pos hfull] at h
      cases h
    · rw [if_neg hfull] at h
      generalize hkey : (s.spsPpsIdrIsH264Keyframe && ((w.visit p).hasSps || info.hasSps) &&
        ((w.visit p).hasPps || info.hasPps) && ((w.visit p).hasIdr || info.hasIdr) ||
          !s.spsPpsIdrIsH264Keyframe && ((w.visit p).hasIdr || info.hasIdr)) = key at h
      cases key with
      | true =>
        rw [if_pos rfl] at h
        cases h
        exact ⟨by rw [hreports]; rfl, by rw [hreports]; rfl, by rw [hreports]; rfl, fun _ =>
          hkey.symm⟩
      | false =>
        rw [if_neg Bool.false_ne_true] at h
        cases h
        refine ⟨by rw [hreports]; rfl, by rw [hreports]; rfl, by rw [hreports]; rfl, fun hold => ?_⟩
        -- what is not enough with this packet was not enough without it
        show w.isH264Keyframe = _
        refine Eq.trans ?_ hkey.symm
        rw [hold]
        change (_ && (w.hasSps || _) && (w.hasPps || _) && (w.hasIdr || _) || _ &&
          (w.hasIdr || _)) =
          false at hkey
        revert hkey
        unfold Walk.isKey
        cases s.spsPpsIdrIsH264Keyframe <;> cases w.hasSps <;> cases w.hasPps <;>
          cases w.hasIdr <;> simp

variable {isH264 : Bool}

theorem gathers_step (h : w.step isH264 s p = .ok (some w')) :
    isH264 = true → Gathers s.spsPpsIdrIsH264Keyframe w w' [p] := by
  rintro rfl
  exact gathers_inspect h

theorem packetsFrom_one (hp : s.get (s.indexOf q) = some p) : s.packetsFrom q 1 = [p] := by
  simp [packetsFrom, hp]

/-- What a walk from `q` has gathered: what the packets say in the slots of `k + 1` numbers, up to
the one it starts from. -/
def WalkGathers (s : PacketBuffer) (isH264 : Bool) (fuel : Nat) (q : U16) (w w' : Walk) : Prop :=
  ∃ k, k ≤ fuel ∧ (65536 < s.size → k ≤ q.toNat) ∧ w'.seqNumStart = q - BitVec.ofNat 16 k ∧
    (isH264 = true → Gathers s.spsPpsIdrIsH264Keyframe w w' (s.packetsFrom w'.seqNumStart (k + 1)))

theorem gathers_here {fuel : Nat} (hp : s.get (s.indexOf q) = some p)
    (hw : w'.seqNumStart = q)
    (h : isH264 = true → Gathers s.spsPpsIdrIsH264Keyframe w w' [p]) :
    s.WalkGathers isH264 fuel q w w' := by
  refine ⟨0, Nat.zero_le _, fun _ => Nat.zero_le _, by simp [hw], fun hyes => ?_⟩
  rw [hw, packetsFrom_one hp]
  exact h hyes

theorem Ring.walkBack_gathers (h : Ring s) {ts : U32} {fuel : Nat}
    (hp : s.get (s.indexOf q) = some p) (hw : w.seqNumStart = q)
    (hr : s.walkBack isH264 ts fuel (s.indexOf q) p w = .ok (w', true)) :
    s.WalkGathers isH264 fuel q w w' := by
  induction fuel generalizing q p w with
  | zero =>
    revert hr
    refine walkBack_cases (fun hno _ hr => ?_) (fun _ _ => nofun) (fun _ => nofun)
      fun w₁ hstep _ hr => ?_
    · cases hr
      exact gathers_here hp hw fun hyes => by cases hno.symm.trans hyes
    · cases hr
      exact gathers_here hp ((Walk.step_eq_some hstep).1.trans hw) (gathers_step hstep)
  | succ fuel ih =>
    revert hr
    refine walkBack_cases (fun hno _ hr => ?_) (fun _ _ => nofun) (fun _ => nofun)
      fun w₁ hstep _ hr => ?_
    · cases hr
      exact gathers_here hp hw fun hyes => by cases hno.symm.trans hyes
    · have hstart := (Walk.step_eq_some hstep).1.trans hw
      unfold walkOn at hr
      cases hx : s.get (prevIndex s.size (s.indexOf q)) with
      | none =>
        rw [hx] at hr
        dsimp only at hr
        split_ifs at hr
        cases hr
        exact gathers_here hp hstart (gathers_step hstep)
      | some x =>
        rw [hx] at hr
        dsimp only at hr
        split_ifs at hr
        · cases hr
          exact gathers_here hp hstart (gathers_step hstep)
        · obtain ⟨hprev, hpos⟩ := h.prevIndex_of_some hx
          rw [hprev] at hx hr
          obtain ⟨k, hk, hlarge, hk', hrest⟩ :=
            ih (w := { w₁ with seqNumStart := w₁.seqNumStart - 1 })
            hx (by rw [hstart]) hr
          have hq : q = w'.seqNumStart + BitVec.ofNat 16 (k + 1) := by
            rw [hk', BitVec.ofNat_add]
            bv_omega
          refine ⟨k + 1, by omega, fun hlt => ?_, ?_, fun hyes => ?_⟩
          · have hle := hlarge hlt
            have hone := hpos hlt
            have hpred : (q - 1).toNat = q.toNat - 1 := by bv_omega
            omega
          · rw [hk', BitVec.ofNat_add]
            bv_omega
          · rw [packetsFrom_succ s w'.seqNumStart (k + 1), ← hq, hp]
            have hlast : Gathers s.spsPpsIdrIsH264Keyframe
                { w₁ with seqNumStart := w₁.seqNumStart - 1 } w' _ := hrest hyes
            have hone := gathers_step hstep hyes
            have hfirst : Gathers s.spsPpsIdrIsH264Keyframe w
                { w₁ with seqNumStart := w₁.seqNumStart - 1 } [p] :=
                  ⟨hone.sps, hone.pps, hone.idr, hone.key⟩
            exact hfirst.trans hlast

/-! ## Frames -/

/-- A frame as the assembly builds it, with the right frame type. -/
def Summarised (flag : Bool) (f : AssembledFrame) : Prop :=
  (∃ n size ps, f = buildFrame n size ps) ∧ f.KeyRight flag

theorem contains_iff_any {flag : H264.PacketizationInfo → Bool} :
    Contains ps flag ↔ ps.any (·.reports flag) = true := List.any_eq_true.symm

theorem get_classified {w : Walk} {first : Packet} {α : Type*} (g : Packet → α)
    (hfirst : isH264 = true → s.get (s.indexOf w.seqNumStart) = some first)
    (hg : g (w.classify first) = g first) (i : Nat) :
    ((s.classified isH264 w first).get i).map g = (s.get i).map g := by
  unfold classified
  cases isH264 with
  | false => rfl
  | true =>
    have hsome := hfirst rfl
    rw [if_pos rfl]
    by_cases hi : s.indexOf w.seqNumStart = i
    · subst hi
      by_cases hlt : s.indexOf w.seqNumStart < s.size
      · rw [get_set_self hlt, hsome, Option.map_some, Option.map_some, hg]
      · have hsame : s.set (s.indexOf w.seqNumStart) (some (w.classify first)) = s := by
          unfold PacketBuffer.set
          rw [List.set_eq_of_length_le (not_lt.1 hlt)]
        rw [hsame]
    · rw [get_set_ne hi]

theorem codecType_classify (w : Walk) (first : Packet) :
    (w.classify first).videoHeader.codecType = first.videoHeader.codecType := by
  unfold Walk.classify
  split_ifs
  · split <;> rfl
  · rfl

theorem frameType_classify (w : Walk) (first : Packet) :
    (w.classify first).videoHeader.frameType = .key ↔ w.isH264Keyframe = true := by
  unfold Walk.classify
  split_ifs with hkey
  · refine iff_of_true ?_ hkey
    split <;> rfl
  · exact iff_of_false (by simp) hkey

theorem reports_classify (w : Walk) (first : Packet) (flag : H264.PacketizationInfo → Bool) :
    (w.classify first).reports flag = first.reports flag := by
  unfold Walk.classify
  rfl

variable {f : AssembledFrame}

theorem Ring.finishFrame_summarised (h : Ring s) {ts : U32} {w : Walk}
    {v : List (U16 × Packet)} (hp : s.get (s.indexOf q) = some p)
    (hwalk : s.walkBack (p.videoHeader.codecType == .h264) ts (s.size - 1) (s.indexOf q) p
      { seqNumStart := q } = .ok (w, true))
    (hf : s.finishFrame (p.videoHeader.codecType == .h264) q w = .ok (.next s' (some f) v)) :
    Summarised s.spsPpsIdrIsH264Keyframe f := by
  obtain ⟨first, hfirst, ⟨-, hr⟩ | ⟨-, s₁, f₁, hassemble, hr⟩⟩ := finishFrame_cases hf
  · cases hr
  · cases hr
    obtain ⟨s₂, ps, htake, -, -, rfl⟩ := assembleFrame_cases hassemble
    refine ⟨⟨_, _, _, rfl⟩, ?_⟩
    obtain ⟨hps, -⟩ := takePackets_eq htake
    obtain ⟨k, hk, hlarge, hstart, hgathers⟩ := h.walkBack_gathers hp rfl hwalk
    have hpos := h.size.pos
    have hk' : k < 65536 := by
      rcases Nat.lt_or_ge 65536 s.size with hlt | hle
      · have hle := hlarge hlt
        have hq := q.isLt
        omega
      · omega
    have hcount : q + 1 - w.seqNumStart = BitVec.ofNat 16 (k + 1) := by
      rw [hstart, BitVec.ofNat_add]
      bv_omega
    have hsize : (s.classified (p.videoHeader.codecType == .h264) w first).size = s.size := by
      unfold classified
      split_ifs
      · exact size_set ..
      · rfl
    rw [hcount, BitVec.toNat_ofNat] at hps ⊢
    rintro ⟨last, hlast, hcodec⟩
    rw [packets_buildFrame] at hlast
    by_cases hall : k = 65535
    · subst hall
      rw [hps] at hlast
      exact absurd hlast (by simp [packetsFrom])
    rw [Nat.mod_eq_of_lt (by omega)] at hps ⊢
    -- the last packet of the frame is the one the walk starts from
    have hend : w.seqNumStart + BitVec.ofNat 16 k = q := by
      rw [hstart]
      bv_omega
    have hH264 : p.videoHeader.codecType = .h264 := by
      have hmap := get_classified (fun p : Packet => p.videoHeader.codecType) hfirst
        (codecType_classify w first) (s.indexOf q)
      have hindex : (s.classified (p.videoHeader.codecType == .h264) w first).indexOf q =
          s.indexOf q := by
        unfold indexOf
        rw [hsize]
      rw [hps, packetsFrom_succ, hend, hindex] at hlast
      rw [hp] at hmap
      cases hget : (s.classified (p.videoHeader.codecType == .h264) w first).get (s.indexOf q) with
      | none =>
        rw [hget] at hmap
        cases hmap
      | some p' =>
        rw [hget] at hmap hlast
        rw [Option.toList_some, List.getLast?_append, List.getLast?_singleton, Option.some_or,
          Option.mem_some_iff] at hlast
        subst hlast
        exact (Option.some.inj hmap).symm.trans hcodec
    have hyes : (p.videoHeader.codecType == .h264) = true := by
      rw [hH264]
      rfl
    have hgathers := hgathers hyes
    rw [hyes] at hfirst hps hsize
    have hany : ∀ flag : H264.PacketizationInfo → Bool,
        ps.any (·.reports flag) = (s.packetsFrom w.seqNumStart (k + 1)).any (·.reports flag) := by
      intro flag
      have hmap : ps.map (·.reports flag) =
        (s.packetsFrom w.seqNumStart (k + 1)).map (·.reports flag) := by
        rw [hps]
        exact packetsFrom_map_congr _ hsize
          (get_classified _ hfirst (reports_classify w first flag))
      have hany := congrArg (List.any · id) hmap
      rwa [List.any_map, List.any_map] at hany
    -- the first packet was classified
    obtain ⟨rest, hrest⟩ : ∃ rest, ps = w.classify first :: rest := by
      have hget : (s.classified true w first).get
        ((s.classified true w first).indexOf w.seqNumStart) =
          some (w.classify first) := by
        unfold classified
        rw [if_pos rfl, indexOf_set, get_set_self (indexOf_lt hpos _)]
      rw [hps, packetsFrom, hget]
      exact ⟨_, rfl⟩
    rw [packets_buildFrame, contains_iff_any, contains_iff_any, contains_iff_any, hany, hany, hany,
      hrest, (buildFrame_cons ..).1, frameType_classify, hgathers.key (by simp [Walk.isKey])]
    have hsps := hgathers.sps
    have hpps := hgathers.pps
    have hidr := hgathers.idr
    rw [Bool.false_or] at hsps hpps hidr
    unfold Walk.isKey
    rw [hsps, hpps, hidr]
    cases s.spsPpsIdrIsH264Keyframe
    · simp
    · simp [and_assoc, and_comm]

theorem flag_classified (s : PacketBuffer) (isH264 : Bool) (w : Walk) (first : Packet) :
    (s.classified isH264 w first).spsPpsIdrIsH264Keyframe = s.spsPpsIdrIsH264Keyframe := by
  unfold classified
  split_ifs <;> rfl

theorem flag_assembleRound {r : Round} (h : s.assembleRound q p = .ok r) :
    r.buffer.spsPpsIdrIsH264Keyframe = s.spsPpsIdrIsH264Keyframe := by
  rcases assembleRound_cases h with ⟨-, rfl⟩ | ⟨-, w, ⟨-, rfl⟩ | ⟨-, hf⟩⟩
  · rfl
  · rfl
  · obtain ⟨first, -, ⟨-, rfl⟩ | ⟨-, s', f, hassemble, rfl⟩⟩ := finishFrame_cases hf
    · exact flag_classified ..
    · obtain ⟨s₁, ps, htake, -, rfl, -⟩ := assembleFrame_cases hassemble
      have hsame := congrArg PacketBuffer.spsPpsIdrIsH264Keyframe (takePackets_spec htake).1
      exact hsame.trans (flag_classified ..)

theorem Ring.assembleRound_summarised (h : Ring s) {v : List (U16 × Packet)}
    (hp : s.get (s.indexOf q) = some p) (hr : s.assembleRound q p = .ok (.next s' (some f) v)) :
    Summarised s.spsPpsIdrIsH264Keyframe f := by
  rcases assembleRound_cases hr with ⟨-, hr⟩ | ⟨-, w, ⟨-, hr⟩ | ⟨hwalk, hf⟩⟩
  · cases hr
  · cases hr
  · have hmarked : Ring (s.marked q p) := h.of_accounts rfl (accounts_marked hp)
    have hsize : (s.marked q p).size = s.size := size_set ..
    have hindex : (s.marked q p).indexOf q = s.indexOf q := indexOf_set ..
    have hget : (s.marked q p).get ((s.marked q p).indexOf q) =
      some { p with continuous := true } := by
      rw [hindex]
      exact get_set_self (indexOf_lt h.size.pos q) _
    have hwalk' : (s.marked q p).walkBack (p.videoHeader.codecType == .h264) p.timestamp
        ((s.marked q p).size - 1) ((s.marked q p).indexOf q) { p with continuous := true }
        { seqNumStart := q } = .ok (w, true) := by
      rw [hsize, hindex]
      exact hwalk
    exact hmarked.finishFrame_summarised hget hwalk' hf

variable {r : InsertResult}

theorem Ring.assembleLoop_summarised (h : Ring s) (hr : assembleLoop n q s = .ok (s', r)) :
    ∀ f ∈ r.assembledFrames, Summarised s.spsPpsIdrIsH264Keyframe f := by
  induction n generalizing q s r with
  | zero =>
    cases hr
    exact fun f hf => absurd hf List.not_mem_nil
  | succ n ih =>
    rcases assembleLoop_cases hr with
      ⟨-, -, rfl⟩ | ⟨-, p, hp, ⟨v, -, rfl⟩ | ⟨s₁, f, v, r₁, hround, hl, rfl⟩⟩
    · exact fun f hf => absurd hf List.not_mem_nil
    · exact fun f hf => absurd hf List.not_mem_nil
    · obtain ⟨hmax, hacc⟩ := accounts_assembleRound hp hround
      have hrest := ih (h.of_accounts hmax hacc) hl
      rw [flag_assembleRound hround] at hrest
      intro g hg
      rcases List.mem_append.1 hg with hg | hg
      · cases f with
        | none => exact absurd hg List.not_mem_nil
        | some f =>
          obtain rfl := List.mem_singleton.1 hg
          exact h.assembleRound_summarised hp hround
      · exact hrest g hg

theorem flag_updateMissingPackets (s : PacketBuffer) (q : U16) (n : Nat) :
    (s.updateMissingPackets q n).spsPpsIdrIsH264Keyframe = s.spsPpsIdrIsH264Keyframe := by
  unfold updateMissingPackets
  dsimp only
  split <;> rfl

theorem flag_noteFirst (s : PacketBuffer) (q : U16) :
    (s.noteFirst q).spsPpsIdrIsH264Keyframe = s.spsPpsIdrIsH264Keyframe := by
  unfold noteFirst
  split_ifs <;> rfl

theorem flag_stored (s : PacketBuffer) (p : Packet) :
    (s.stored p).spsPpsIdrIsH264Keyframe = s.spsPpsIdrIsH264Keyframe :=
  flag_updateMissingPackets ..

theorem Ring.step_summarised (h : Ring s) {op : PacketOp}
    (hr : (packetMachine.step (some s) op).2 = .returned r) :
    ∀ f ∈ r.assembledFrames, Summarised s.spsPpsIdrIsH264Keyframe f := by
  cases op with
  | insertPacket p =>
    simp only [packetMachine] at hr
    cases hi : s.insertPacket p with
    | error f => simp [hi, outcome] at hr
    | ok x =>
      obtain ⟨s', r'⟩ := x
      simp only [hi, outcome, PacketEvent.returned.injEq] at hr
      subst hr
      have hfirst := h.noteFirst p.seqNum
      rcases insertPacket_cases hi with
        ⟨-, -, rfl⟩ | ⟨x, -, -, -, rfl⟩ | ⟨-, -, ha⟩ | ⟨-, -, -, rfl⟩ | ⟨hc, s₁, he, ha⟩
      · exact fun f hf => absurd hf List.not_mem_nil
      · exact fun f hf => absurd hf List.not_mem_nil
      · have hall := (hfirst.stored p).assembleLoop_summarised ha
        rwa [flag_stored, flag_noteFirst] at hall
      · exact fun f hf => absurd hf List.not_mem_nil
      · have hall := ((hfirst.expand he).stored p).assembleLoop_summarised ha
        obtain ⟨-, n, -, -, -, -, -, rfl⟩ :=
          hfirst.expand_some (Ring.conflict_noteFirst hc) he
        rwa [flag_stored, show PacketBuffer.spsPpsIdrIsH264Keyframe { s.noteFirst p.seqNum with
          packetBuffer := rehash Packet.key n (s.noteFirst p.seqNum).packetBuffer } = _ from
            flag_noteFirst s p.seqNum] at hall
  | insertPadding x =>
    simp only [packetMachine] at hr
    cases hi : s.insertPadding x with
    | error f => simp [hi, outcome] at hr
    | ok y =>
      obtain ⟨s', r'⟩ := y
      simp only [hi, outcome, PacketEvent.returned.injEq] at hr
      subst hr
      have hring : Ring (s.updateMissingPackets x kMaxMissingPacketCount) :=
        h.congr (packetBuffer_updateMissingPackets ..) (maxPacketBufferSize_updateMissingPackets ..)
      have hall := hring.assembleLoop_summarised hi
      rwa [flag_updateMissingPackets] at hall
  | clear => cases hr
  | clearTo x => cases hr
  | setSpsPpsIdrIsH264Keyframe flag => cases hr

/-- **The summary of a frame is right exactly when** no packet of the frame was nacked more often
than the first one: in every run, for every frame that a call returns. -/
theorem metadata_iff {a b : Nat} {ops : List PacketOp} {op : PacketOp}
    (hs : packetMachine.final (some (create (2 ^ a) (2 ^ b))) ops = some s)
    (hr : (packetMachine.step (some s) op).2 = .returned r) {f : AssembledFrame}
    (hf : f ∈ r.assembledFrames) :
    f.Metadata s.spsPpsIdrIsH264Keyframe ↔
      ∃ first, f.packets.head? = some first ∧
        ∀ p ∈ f.packets, p.timesNacked ≤ first.timesNacked := by
  obtain ⟨⟨n, size, ps, rfl⟩, hkey⟩ := (ring_reached hs).step_summarised hr f hf
  rw [packets_buildFrame]
  exact metadata_buildFrame_iff hkey

/-- A packet of an H264 frame that arrived in three packets. -/
def partOfKeyFrame (q : U16) (info : H264.PacketizationInfo) (timesNacked receivedTimeMs : Int) :
    Packet where
  seqNum := q
  timestamp := 7
  timesNacked := timesNacked
  receivedTimeMs := receivedTimeMs
  videoHeader := {
    codecType := .h264
    isFirstPacketInFrame := q == 0
    isLastPacketInFrame := q == 2 }
  videoCodecHeader := .h264 info

/-- The first two packets of the frame have arrived. -/
def partsArrived : List PacketOp :=
  [.insertPacket (partOfKeyFrame 0 { hasSps := true, hasPps := true } 4 30),
    .insertPacket (partOfKeyFrame 1 { hasIdr := true } 0 20)]

/-- What the call that completes a frame returns first. -/
def completed (ops : List PacketOp) (p : Packet) : Option AssembledFrame :=
  match (packetMachine.step (packetMachine.final (some (create (2 ^ 2) (2 ^ 2))) ops)
    (.insertPacket p)).2 with
  | .returned r => r.assembledFrames.head?
  | _ => none

theorem completed_spec {ops : List PacketOp} {p : Packet} (h : completed ops p = some f) :
    ∃ s r, packetMachine.final (some (create (2 ^ 2) (2 ^ 2))) ops = some s ∧
      (packetMachine.step (some s) (.insertPacket p)).2 = .returned r ∧ f ∈ r.assembledFrames := by
  unfold completed at h
  cases hs : packetMachine.final (some (create (2 ^ 2) (2 ^ 2))) ops with
  | none =>
    rw [hs] at h
    cases h
  | some s =>
    rw [hs] at h
    split at h
    · rename_i r hr
      exact ⟨s, r, rfl, hr, List.mem_of_mem_head? h⟩
    · cases h

/-- A key frame of three packets, the first of them nacked most often. -/
theorem metadata_of_three :
    ∃ s r f, packetMachine.final (some (create (2 ^ 2) (2 ^ 2))) partsArrived = some s ∧
      (packetMachine.step (some s) (.insertPacket (partOfKeyFrame 2 {} 1 10))).2 = .returned r ∧
      f ∈ r.assembledFrames ∧ f.frameType = .key ∧ f.Metadata s.spsPpsIdrIsH264Keyframe := by
  have hany : (completed partsArrived (partOfKeyFrame 2 {} 1 10)).any (fun f =>
      f.frameType == .key && f.packets.head?.any fun first =>
        f.packets.all fun p => decide (p.timesNacked ≤ first.timesNacked)) = true := by
    decide +kernel
  obtain ⟨f, hcompleted, hright⟩ := (Option.any_eq_true _ _).1 hany
  obtain ⟨s, r, hs, hr, hf⟩ := completed_spec hcompleted
  rw [Bool.and_eq_true, beq_iff_eq, Option.any_eq_true] at hright
  obtain ⟨hkey, first, hfirst, hle⟩ := hright
  refine ⟨s, r, f, hs, hr, hf, hkey, (metadata_iff (a := 2) (b := 2) hs hr hf).2 ⟨first, hfirst, ?_⟩⟩
  exact fun p hp => of_decide_eq_true (List.all_eq_true.1 hle p hp)

/-- **The summary is not always right**: when it is the last packet that was nacked five times,
the frame says four, as its first packet does. -/
theorem not_metadata_of_three :
    ∃ s r f, packetMachine.final (some (create (2 ^ 2) (2 ^ 2))) partsArrived = some s ∧
      (packetMachine.step (some s) (.insertPacket (partOfKeyFrame 2 {} 5 10))).2 = .returned r ∧
      f ∈ r.assembledFrames ∧ ¬ f.Metadata s.spsPpsIdrIsH264Keyframe := by
  have hany : (completed partsArrived (partOfKeyFrame 2 {} 5 10)).any (fun f =>
      f.packets.any fun p => decide (f.timesNacked < p.timesNacked)) = true := by
    decide +kernel
  obtain ⟨f, hcompleted, hwrong⟩ := (Option.any_eq_true _ _).1 hany
  obtain ⟨s, r, hs, hr, hf⟩ := completed_spec hcompleted
  obtain ⟨p, hp, hlt⟩ := List.any_eq_true.1 hwrong
  refine ⟨s, r, f, hs, hr, hf, fun hright => ?_⟩
  have hle := hright.timesNacked.2 ⟨p, hp, rfl⟩
  exact absurd (of_decide_eq_true hlt) (not_lt.2 hle)

end PacketBuffer
end NaiveRtc.Jitter
