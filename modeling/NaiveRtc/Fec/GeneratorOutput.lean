import NaiveRtc.Fec.EncodeOutcome
import NaiveRtc.Fec.UlpFecGenerator

/-!
# What the generator returns

* `Since` — a record of what happened since the last reset: the packets that were pushed, and the
  last encoding.
* `Since.fecPackets` — what that encoding produces into an empty list.
* `Tracks` — the generator holds what the record says; `Tracks.step` as long as nothing is encoded
  on top of earlier FEC packets.
* `payload_wrapInRed` — the payload of a RED packet is the RED header and the FEC packet.
* `popsFresh` — **every pop returns what was encoded into an empty list.**
-/

namespace NaiveRtc.Fec

open Rtp (RtpPacket)
open CopyOnWrite Overwrite

/-! ## A record of the calls -/

/-- An encoding: the encoder before, how many packets had been pushed, and the parameters. -/
structure Encoding where
  fecEncoder : FecEncoder
  numPushed : Nat
  params : EncodeParams

/-- What happened since the last reset. -/
structure Since where
  pushed : List MediaPacket := []
  encoding : Option Encoding := none

/-- The packets that are protected: the first 48. -/
def protectable (pushed : List MediaPacket) : List MediaPacket :=
  pushed.take kUlpFecMaxMediaPackets

namespace Since

/-- What the last encoding produces into an empty list. -/
def fecPackets (w : Since) : List FecPacket :=
  match w.encoding with
  | none => []
  | some encoding =>
    (encoding.fecEncoder.encode ((protectable (w.pushed.take encoding.numPushed)).map
      MediaPacket.toRtpPacket) encoding.params []).2.1

/-- The record after a packet was pushed: it is forgotten when the encoder refuses the packets. -/
def push (w : Since) (g : UlpFecGenerator) (mediaPacket : MediaPacket) : Since :=
  let w := { w with pushed := w.pushed ++ [mediaPacket] }
  let g' := g.collect mediaPacket
  if g'.triggers mediaPacket.marker then
    if FecEncoder.accepts ((protectable w.pushed).map MediaPacket.toRtpPacket) g'.encodeParams then
      { w with encoding := some ⟨g.fecEncoder, w.pushed.length, g'.encodeParams⟩ }
    else {}
  else w

/-- The record after FEC packets were asked for: it is forgotten when there were some. -/
def pop (w : Since) : Since := if w.fecPackets = [] then w else {}

/-- The record after a call; a pop that fails an assertion is not made. -/
def update (growTo : Nat → Nat → Nat) (g : UlpFecGenerator) (w : Since) : UlpFecCall → Since
  | .setProtectionParameters _ _ => w
  | .pushMediaPacket mediaPacket => w.push g mediaPacket
  | .popFecPackets => if (g.popFecPackets growTo).isSome then w.pop else w

/-- The RED packets that should be returned: the header is taken from the last packet that was
collected. -/
def expected (w : Since) (g : UlpFecGenerator) (growTo : Nat → Nat → Nat) :
    Option (List RedPacket) :=
  match (protectable w.pushed).getLast? with
  | none => some []
  | some lastPacket => w.fecPackets.mapM (g.wrapInRed growTo lastPacket)

/-- The payloads they should have: the RED header and the FEC packet. -/
def payloads (w : Since) (g : UlpFecGenerator) : List (List UInt8) :=
  w.fecPackets.map ((UInt8.ofInt g.fecPayloadType &&& 0x7f) :: ·)

end Since

/-- The FEC packets that are returned are those of the record, byte for byte. -/
def PopsFresh (growTo : Nat → Nat → Nat) (x : UlpFecGenerator × Since) : UlpFecCall → Prop
  | .popFecPackets =>
    (x.1.popFecPackets growTo).map Prod.snd = x.2.expected x.1 growTo ∧
      ∀ popped, (x.1.popFecPackets growTo).map Prod.snd = some popped →
        popped.map (fun redPacket => redPacket.payload) = x.2.payloads x.1
  | _ => True

/-- Nothing is encoded on top of earlier FEC packets. -/
def EncodesIntoEmpty (g : UlpFecGenerator) : UlpFecCall → Prop
  | .pushMediaPacket mediaPacket =>
    (g.collect mediaPacket).triggers mediaPacket.marker = true → g.generatedFecPackets = []
  | _ => True

/-! ## The generator and the record -/

/-- The generator holds what the record says. -/
structure Tracks (g : UlpFecGenerator) (w : Since) : Prop where
  mediaPackets : g.mediaPackets = (protectable w.pushed).map MediaPacket.toRtpPacket
  last : g.lastProtectedMediaPacket = (protectable w.pushed).getLast?
  generated : g.generatedFecPackets = w.fecPackets
  encoding : ∀ encoding, w.encoding = some encoding →
    0 < encoding.numPushed ∧ encoding.numPushed ≤ w.pushed.length

theorem protectable_push (pushed : List MediaPacket) (mediaPacket : MediaPacket) :
    protectable (pushed ++ [mediaPacket]) =
      if pushed.length < kUlpFecMaxMediaPackets then protectable pushed ++ [mediaPacket]
      else protectable pushed := by
  unfold protectable
  split
  · next hroom =>
    rw [List.take_of_length_le (by rw [List.length_append]; exact hroom),
      List.take_of_length_le (Nat.le_of_lt hroom)]
  · next hfull => exact List.take_append_of_le_length (Nat.not_lt.1 hfull)

section Tracks

variable {g : UlpFecGenerator} {w : Since} {growTo : Nat → Nat → Nat}

theorem Tracks.reset : Tracks g.reset {} where
  mediaPackets := rfl
  last := rfl
  generated := rfl
  encoding _ hnone := by cases hnone

theorem Tracks.length_lt_iff (h : Tracks g w) :
    g.mediaPackets.length < kUlpFecMaxMediaPackets ↔ w.pushed.length < kUlpFecMaxMediaPackets := by
  rw [h.mediaPackets, List.length_map, protectable, List.length_take]
  omega

theorem Since.fecPackets_pushed (hencoding : ∀ encoding, w.encoding = some encoding →
      encoding.numPushed ≤ w.pushed.length) (mediaPacket : MediaPacket) :
    ({ w with pushed := w.pushed ++ [mediaPacket] } : Since).fecPackets = w.fecPackets := by
  unfold Since.fecPackets
  dsimp only
  split
  · rfl
  · next encoding hsome => rw [List.take_append_of_le_length (hencoding encoding hsome)]

theorem Tracks.collect (h : Tracks g w) (mediaPacket : MediaPacket) :
    Tracks (g.collect mediaPacket) { w with pushed := w.pushed ++ [mediaPacket] } := by
  have hkept : g.takePendingParams.mediaPackets = g.mediaPackets ∧
      g.takePendingParams.lastProtectedMediaPacket = g.lastProtectedMediaPacket ∧
      g.takePendingParams.generatedFecPackets = g.generatedFecPackets := by
    unfold UlpFecGenerator.takePendingParams
    split <;> exact ⟨rfl, rfl, rfl⟩
  obtain ⟨hmedia, hlast, hgenerated⟩ := hkept
  have hroom := h.length_lt_iff
  refine ⟨?_, ?_, ?_, fun encoding hsome => ?_⟩
  · show (if decide (g.takePendingParams.mediaPackets.length < kUlpFecMaxMediaPackets) = true then
      g.takePendingParams.mediaPackets ++ [mediaPacket.toRtpPacket]
      else g.takePendingParams.mediaPackets) = _
    rw [protectable_push, hmedia]
    simp only [decide_eq_true_eq, hroom]
    split
    · rw [List.map_append, h.mediaPackets]
      rfl
    · exact h.mediaPackets
  · show (if decide (g.takePendingParams.mediaPackets.length < kUlpFecMaxMediaPackets) = true then
      some mediaPacket else g.takePendingParams.lastProtectedMediaPacket) = _
    rw [protectable_push, hmedia, hlast]
    simp only [decide_eq_true_eq, hroom]
    split
    · rw [List.getLast?_append_of_ne_nil _ (List.cons_ne_nil _ _), List.getLast?_singleton]
    · exact h.last
  · rw [Since.fecPackets_pushed fun encoding hsome => (h.encoding encoding hsome).2]
    exact hgenerated.trans h.generated
  · have hbounds := h.encoding encoding hsome
    rw [List.length_append]
    exact ⟨hbounds.1, by omega⟩

theorem Tracks.push (h : Tracks g w) (mediaPacket : MediaPacket)
    (hempty : EncodesIntoEmpty g (.pushMediaPacket mediaPacket)) :
    Tracks (g.pushMediaPacket mediaPacket).1 (w.push g mediaPacket) := by
  have hcollect := h.collect mediaPacket
  unfold UlpFecGenerator.pushMediaPacket Since.push
  dsimp only
  by_cases htriggers : (g.collect mediaPacket).triggers mediaPacket.marker = true
  · rw [if_pos htriggers, if_pos htriggers]
    have hgenerated : (g.collect mediaPacket).generatedFecPackets = [] := by
      rw [hcollect.generated,
        Since.fecPackets_pushed fun encoding hsome => (h.encoding encoding hsome).2,
        ← h.generated]
      exact hempty htriggers
    have hencoder : (g.collect mediaPacket).fecEncoder = g.fecEncoder := by
      show g.takePendingParams.fecEncoder = _
      unfold UlpFecGenerator.takePendingParams
      split <;> rfl
    unfold UlpFecGenerator.encodeFec
    dsimp only
    rw [FecEncoder.encode_result, hcollect.mediaPackets, hgenerated, hencoder]
    by_cases haccepts : FecEncoder.accepts ((protectable (w.pushed ++ [mediaPacket])).map
        MediaPacket.toRtpPacket) (g.collect mediaPacket).encodeParams = true
    · rw [if_pos haccepts, if_pos haccepts]
      refine ⟨rfl, hcollect.last, ?_, fun encoding hsome => ?_⟩
      · show _ = (FecEncoder.encode _ ((protectable (List.take _ _)).map _) _ []).2.1
        rw [List.take_length]
      · obtain rfl := Option.some.inj hsome
        rw [List.length_append]
        exact ⟨Nat.succ_pos _, Nat.le_refl _⟩
    · rw [if_neg haccepts, if_neg haccepts]
      exact Tracks.reset
  · rw [if_neg htriggers, if_neg htriggers]
    exact hcollect

theorem payload_wrapInRed {lastPacket : MediaPacket} {fecPacket : FecPacket} {redPacket : RedPacket}
    (h : g.wrapInRed growTo lastPacket fecPacket = some redPacket) :
    redPacket.payload = (UInt8.ofInt g.fecPayloadType &&& 0x7f) :: fecPacket := by
  unfold UlpFecGenerator.wrapInRed at h
  dsimp only at h
  split_ifs at h with hroom hallocated
  obtain rfl := Option.some.inj h
  generalize (((RtpPacket.create growTo {} lastPacket.capacity).copyHeaderFrom growTo
    lastPacket.toRtpPacket).setPayloadType (UInt8.ofInt g.redPayloadType)).setMarker false = red
    at hroom hallocated ⊢
  unfold RtpPacket.setPayloadSize at hallocated ⊢
  split_ifs at hallocated ⊢ with hpadding hfull
  have hlength : kRedForFecHeaderLength + fecPacket.length =
      ((UInt8.ofInt g.fecPayloadType &&& 0x7f) :: fecPacket).length := by
    rw [List.length_cons, Nat.add_comm]
    rfl
  show readFrom (overwrite (resized _ red.bytes) red.payloadOffset _) red.payloadOffset
    (kRedForFecHeaderLength + fecPacket.length) = _
  rw [hlength]
  exact readFrom_overwrite (by rw [length_resized])

theorem payloads_mapM {lastPacket : MediaPacket} {fecPackets : List FecPacket}
    {redPackets : List RedPacket}
    (h : fecPackets.mapM (g.wrapInRed growTo lastPacket) = some redPackets) :
    redPackets.map (fun redPacket => redPacket.payload) =
      fecPackets.map ((UInt8.ofInt g.fecPayloadType &&& 0x7f) :: ·) := by
  induction fecPackets generalizing redPackets with
  | nil =>
    cases h
    rfl
  | cons fecPacket fecPackets ih =>
    simp only [List.mapM_cons, Option.bind_eq_bind, Option.bind_eq_some_iff, Option.pure_def,
      Option.some.injEq] at h
    obtain ⟨redPacket, hfirst, rest, hrest, rfl⟩ := h
    rw [List.map_cons, List.map_cons, ih hrest, payload_wrapInRed hfirst]

theorem Tracks.getLast?_ne_none (h : Tracks g w) (hsome : w.fecPackets ≠ []) :
    (protectable w.pushed).getLast? ≠ none := by
  intro hlast
  rw [List.getLast?_eq_none_iff, protectable, List.take_eq_nil_iff] at hlast
  have hpushed : w.pushed = [] := hlast.resolve_left (by decide)
  refine hsome ?_
  unfold Since.fecPackets
  split
  · rfl
  · next encoding hencoding =>
    have hbounds := h.encoding encoding hencoding
    rw [hpushed, List.length_nil] at hbounds
    omega

theorem Tracks.pop_eq (h : Tracks g w) : g.popFecPackets growTo =
    if w.fecPackets = [] then some (g, [])
    else (w.expected g growTo).map fun redPackets => (g.reset, redPackets) := by
  unfold UlpFecGenerator.popFecPackets Since.expected
  rw [h.generated, h.last]
  by_cases hnone : w.fecPackets = []
  · rw [if_pos (List.length_eq_zero_iff.2 hnone), if_pos hnone]
  · rw [if_neg (mt List.length_eq_zero_iff.1 hnone), if_neg hnone]
    cases hlast : (protectable w.pushed).getLast? with
    | some lastPacket => rfl
    | none => exact absurd hlast (h.getLast?_ne_none hnone)

theorem Tracks.pops (h : Tracks g w) :
    PopsFresh growTo (g, w) .popFecPackets := by
  have hexpected : (g.popFecPackets growTo).map Prod.snd = w.expected g growTo := by
    rw [h.pop_eq]
    split
    · next hnone =>
      unfold Since.expected
      rw [hnone]
      split <;> rfl
    · rw [Option.map_map]
      exact congrFun Option.map_id _
  refine ⟨hexpected, fun popped hpopped => ?_⟩
  rw [hexpected] at hpopped
  unfold Since.expected at hpopped
  split at hpopped
  · next hlast =>
    cases hpopped
    have hnone : w.fecPackets = [] := by
      by_contra hsome
      exact h.getLast?_ne_none hsome hlast
    unfold Since.payloads
    rw [hnone]
    rfl
  · exact payloads_mapM hpopped

theorem Tracks.pop (h : Tracks g w) {r : UlpFecGenerator × List RedPacket}
    (hr : g.popFecPackets growTo = some r) : Tracks r.1 w.pop := by
  rw [h.pop_eq] at hr
  unfold Since.pop
  split at hr
  · next hnone =>
    cases hr
    rw [if_pos hnone]
    exact h
  · next hsome =>
    obtain ⟨redPackets, -, rfl⟩ := Option.map_eq_some_iff.1 hr
    rw [if_neg hsome]
    exact Tracks.reset

theorem Tracks.step (h : Tracks g w) (call : UlpFecCall) (hempty : EncodesIntoEmpty g call) :
    Tracks ((ulpFecGeneratorMachine growTo).step g call).1 (Since.update growTo g w call) := by
  cases call with
  | setProtectionParameters deltaParams keyParams =>
    show Tracks (if _ then _ else _ : UlpFecGenerator × UlpFecEvent).1 w
    split
    · exact ⟨h.mediaPackets, h.last, h.generated, h.encoding⟩
    · exact h
  | pushMediaPacket mediaPacket => exact h.push mediaPacket hempty
  | popFecPackets =>
    have hpop : ∀ r, g.popFecPackets growTo = some r → Tracks r.1 w.pop := fun r hr => h.pop hr
    unfold ulpFecGeneratorMachine Since.update
    dsimp only
    cases hr : g.popFecPackets growTo with
    | none => exact h
    | some r => exact hpop r hr

theorem tracks_create (redPayloadType fecPayloadType : Int) (fecEncoder : FecEncoder) :
    Tracks (.create redPayloadType fecPayloadType fecEncoder) {} where
  mediaPackets := rfl
  last := rfl
  generated := rfl
  encoding _ hnone := by cases hnone

end Tracks

/-! ## Runs -/

/-- The generator next to the record. -/
def watchedGeneratorMachine (growTo : Nat → Nat → Nat) :
    Machine (UlpFecGenerator × Since) UlpFecCall UlpFecEvent :=
  (ulpFecGeneratorMachine growTo).alongside (Since.update growTo)

/-- **Every pop returns what was encoded into an empty list**, in every run that never encodes on
top of earlier FEC packets. -/
theorem popsFresh (growTo : Nat → Nat → Nat) (redPayloadType fecPayloadType : Int)
    (fecEncoder : FecEncoder) (calls : List UlpFecCall)
    (hempty : (ulpFecGeneratorMachine growTo).AllGood EncodesIntoEmpty
      (.create redPayloadType fecPayloadType fecEncoder) calls) :
    (watchedGeneratorMachine growTo).AllGood (PopsFresh growTo)
      (.create redPayloadType fecPayloadType fecEncoder, {}) calls := by
  have hallowed := ((ulpFecGeneratorMachine growTo).alongside_allGood (Since.update growTo)
    (.create redPayloadType fecPayloadType fecEncoder, {}) calls).2 hempty
  have htracks : ∀ x call, Tracks x.1 x.2 → EncodesIntoEmpty x.1 call → True →
      Tracks ((watchedGeneratorMachine growTo).step x call).1.1
        ((watchedGeneratorMachine growTo).step x call).1.2 :=
    fun x call h hgood _ => h.step call hgood
  refine ((watchedGeneratorMachine growTo).allGood_iff_of_allowed htracks
    (fun x call h _ => ?_) (tracks_create _ _ _) hallowed).2
    ((watchedGeneratorMachine growTo).allGood_of_forall (fun _ _ => trivial) _ _)
  refine iff_true_intro ?_
  cases call with
  | popFecPackets => exact h.pops
  | setProtectionParameters deltaParams keyParams => trivial
  | pushMediaPacket mediaPacket => trivial

/-- The last packet of a frame. -/
def lastOfFrame (sequenceNum : U16) : MediaPacket where
  toRtpPacket := { bareHeader sequenceNum with marker := true }

/-- One frame before a pop. -/
theorem popsFresh_frame :
    (watchedGeneratorMachine fun _ size => size).AllGood (PopsFresh fun _ size => size)
      (.create 98 99 { packetMasks := List.replicate maxPacketMaskCount 0
                       tmpPacketMasks := List.replicate maxPacketMaskCount 0 }, {})
      [.setProtectionParameters { fecRate := 255, maxFecFrames := 1 } {},
        .pushMediaPacket (lastOfFrame 5), .popFecPackets] :=
  popsFresh _ 98 99 _ _ ⟨trivial, fun _ => rfl, trivial, trivial⟩

/-- Two frames before a pop. -/
theorem not_popsFresh_frames :
    ¬(watchedGeneratorMachine fun _ size => size).AllGood (PopsFresh fun _ size => size)
      (.create 98 99 { packetMasks := List.replicate maxPacketMaskCount 0
                       tmpPacketMasks := List.replicate maxPacketMaskCount 0 }, {})
      [.setProtectionParameters { fecRate := 255, maxFecFrames := 1 } {},
        .pushMediaPacket (lastOfFrame 5), .pushMediaPacket (lastOfFrame 6), .popFecPackets] := by
  rintro ⟨-, -, -, ⟨-, hpop⟩, -⟩
  have hbytes := hpop _ rfl
  exact absurd hbytes (by decide +kernel)

end NaiveRtc.Fec
