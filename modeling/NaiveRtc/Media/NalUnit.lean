import NaiveRtc.Base.ByteIo
import Mathlib.Data.List.Forall2
import Mathlib.Data.List.Infix
import Mathlib.Tactic.IntervalCases

/-!
# NAL units in a byte stream

The model of `rtc/media/video/codecs/h264/nalunit_auxiliaries.cpp`: the search for the NAL
units of a buffer, and the emulation bytes that keep start sequences out of them.

* `retrieveRbspFromEbsp`, `writeRbsp` — the emulation bytes out and in.
* `scanStartSequences_reach`, `scanStartSequences_done` — the search never jumps over a start
  sequence.
* `findStartSequences_stream` — the units of a stream whose units hold no start sequence.
* `annex_b_round_trip` — framing and escaping together.
-/

namespace NaiveRtc.NalUnit

open ByteIo

/-- `h264::NaluIndex`. -/
structure NaluIndex where
  startOffset : Nat
  payloadStartOffset : Nat
  payloadSize : Nat
  deriving DecidableEq

/-- `NalUnit::Separator`. -/
inductive Separator where
  | shortStartSequence
  | longStartSequence
  | length
  deriving DecidableEq

/-- `00 00 01`. -/
def kNaluShortStartSequenceSize : Nat := 3

/-- `00 00 00 01`. -/
def kNaluLongStartSequenceSize : Nat := 4

/-! ## The search for NAL units -/

/-- The loop over length fields, at an offset, for at most `fuel` rounds. -/
def scanLengths (buffer : List UInt8) : Nat → Nat → List NaluIndex
  | 0, _ => []
  | fuel + 1, offset =>
    if offset + 4 < buffer.length then
      let naluSize := readBigEndian 4 (buffer.drop offset)
      let naluStartOffset := offset + 4
      let naluEndOffset := naluStartOffset + naluSize
      if buffer.length < naluEndOffset then []
      else ⟨offset, naluStartOffset, naluSize⟩ :: scanLengths buffer fuel naluEndOffset
    else []

/-- `it->payload_size = finish - it->payload_start_offset` at the last index, if there is
one. -/
def closeLast (finish : Nat) : List NaluIndex → List NaluIndex
  | [] => []
  | [last] => [{ last with payloadSize := finish - last.payloadStartOffset }]
  | index :: next :: indices => index :: closeLast finish (next :: indices)

/-- The test for a start sequence of the separator at an offset whose last byte is known to
be one. -/
def foundStartSequence (buffer : List UInt8) (separator : Separator) (i : Nat) : Bool :=
  buffer.getD (i + 1) 0 == 0 && buffer.getD i 0 == 0 &&
    (separator == .shortStartSequence || buffer.getD (i + 2) 0 == 0)

/-- `index.start_offset`: a zero byte in front of the start sequence belongs to it. -/
def indexStartOffset (buffer : List UInt8) (i : Nat) : Nat :=
  if 0 < i ∧ buffer.getD (i - 1) 0 = 0 then i - 1 else i

/-- The loop over the bytes, at an offset, for at most `fuel` rounds. -/
def scanStartSequences (buffer : List UInt8) (separator : Separator) (startSequenceSize : Nat) :
    Nat → Nat → List NaluIndex → List NaluIndex
  | 0, _, indices => indices
  | fuel + 1, i, indices =>
    if i < buffer.length - startSequenceSize then
      if 1 < buffer.getD (i + startSequenceSize - 1) 0 then
        scanStartSequences buffer separator startSequenceSize fuel (i + startSequenceSize) indices
      else if buffer.getD (i + startSequenceSize - 1) 0 = 1 then
        if foundStartSequence buffer separator i then
          let startOffset := indexStartOffset buffer i
          scanStartSequences buffer separator startSequenceSize fuel (i + startSequenceSize)
            (closeLast startOffset indices ++ [⟨startOffset, i + startSequenceSize, 0⟩])
        else
          scanStartSequences buffer separator startSequenceSize fuel (i + startSequenceSize)
            indices
      else scanStartSequences buffer separator startSequenceSize fuel (i + 1) indices
    else indices

/-- The search for start sequences of a size. -/
def findStartSequences (buffer : List UInt8) (separator : Separator) (startSequenceSize : Nat) :
    List NaluIndex :=
  if buffer.length < startSequenceSize then []
  else
    closeLast buffer.length
      (scanStartSequences buffer separator startSequenceSize buffer.length 0 [])

/-- `NalUnit::FindNaluIndices(buffer, size, separator)`. -/
def findNaluIndices (buffer : List UInt8) (separator : Separator) : List NaluIndex :=
  match separator with
  | .length => scanLengths buffer buffer.length 0
  | .shortStartSequence => findStartSequences buffer separator kNaluShortStartSequenceSize
  | .longStartSequence => findStartSequences buffer separator kNaluLongStartSequenceSize

/-! ## Emulation bytes -/

/-- After so many zeros a byte is escaped -/
def kZerosInStartSequence : Nat := 2

/-- by this one. -/
def kEmulationByte : UInt8 := 3

/-- `NalUnit::RetrieveRbspFromEbsp(ebsp_buffer, ebsp_size)`. -/
def retrieveRbspFromEbsp : List UInt8 → List UInt8
  | b₀ :: b₁ :: b₂ :: rest =>
    if b₀ = 0 ∧ b₁ = 0 ∧ b₂ = 3 then b₀ :: b₁ :: retrieveRbspFromEbsp rest
    else b₀ :: retrieveRbspFromEbsp (b₁ :: b₂ :: rest)
  | b :: rest => b :: retrieveRbspFromEbsp rest
  | [] => []

/-- The bytes the loop of `WriteRbsp` appends, with `num_consecutive_zeros`. -/
def escapeRbsp : Nat → List UInt8 → List UInt8
  | _, [] => []
  | numConsecutiveZeros, byte :: rbsp =>
    if byte ≤ kEmulationByte ∧ kZerosInStartSequence ≤ numConsecutiveZeros then
      kEmulationByte :: byte :: escapeRbsp (if byte = 0 then 1 else 0) rbsp
    else byte :: escapeRbsp (if byte = 0 then numConsecutiveZeros + 1 else 0) rbsp

/-- `NalUnit::WriteRbsp(rbsp_buffer, rbsp_size, ebsp_buffer)`. -/
def writeRbsp (rbspBuffer ebspBuffer : List UInt8) : List UInt8 :=
  ebspBuffer ++ escapeRbsp 0 rbspBuffer

/-! ## Start sequences -/

/-- A start sequence of `n` bytes at an offset: zeros and a one. -/
def StartsAt (buffer : List UInt8) (n j : Nat) : Prop :=
  j + n ≤ buffer.length ∧ ∀ k < n, buffer.getD (j + k) 0 = if k + 1 = n then 1 else 0

/-- The two separators that are start sequences, with their sizes. -/
def SizeOf : Separator → Nat → Prop
  | .shortStartSequence, n => n = kNaluShortStartSequenceSize
  | .longStartSequence, n => n = kNaluLongStartSequenceSize
  | .length, _ => False

section Scan

variable {buffer : List UInt8} {separator : Separator} {n : Nat}

theorem SizeOf.pos (hsep : SizeOf separator n) : 0 < n := by
  cases separator <;> simp_all [SizeOf, kNaluShortStartSequenceSize, kNaluLongStartSequenceSize]

theorem SizeOf.found_iff (hsep : SizeOf separator n) {i : Nat} (hi : i + n ≤ buffer.length)
    (hone : buffer.getD (i + n - 1) 0 = 1) :
    foundStartSequence buffer separator i = true ↔ StartsAt buffer n i := by
  constructor
  · intro hfound
    refine ⟨hi, fun k hk => ?_⟩
    cases separator with
    | length => exact hsep.elim
    | shortStartSequence =>
      obtain rfl : n = 3 := hsep
      simp only [foundStartSequence, Bool.and_eq_true, beq_iff_eq] at hfound
      interval_cases k <;> simp_all
    | longStartSequence =>
      obtain rfl : n = 4 := hsep
      simp only [foundStartSequence, Bool.and_eq_true, beq_iff_eq] at hfound
      interval_cases k <;> simp_all
  · rintro ⟨-, hbytes⟩
    cases separator with
    | length => exact hsep.elim
    | shortStartSequence =>
      obtain rfl : n = 3 := hsep
      have h₀ := hbytes 0 (by omega)
      have h₁ := hbytes 1 (by omega)
      simp_all [foundStartSequence]
    | longStartSequence =>
      obtain rfl : n = 4 := hsep
      have h₀ := hbytes 0 (by omega)
      have h₁ := hbytes 1 (by omega)
      have h₂ := hbytes 2 (by omega)
      simp_all [foundStartSequence]

theorem StartsAt.last {j : Nat} (hn : 0 < n) (hj : StartsAt buffer n j) :
    buffer.getD (j + n - 1) 0 = 1 := by
  have h := hj.2 (n - 1) (by omega)
  rwa [if_pos (by omega), ← Nat.add_sub_assoc (by omega)] at h

theorem StartsAt.probe_eq_zero {i j : Nat} (hj : StartsAt buffer n j) (hij : i < j)
    (hover : j < i + n) : buffer.getD (i + n - 1) 0 = 0 := by
  have h := hj.2 (i + n - 1 - j) (by omega)
  rwa [if_neg (by omega), show j + (i + n - 1 - j) = i + n - 1 by omega] at h

/-- **The search does not jump over a start sequence**: it comes to the next one with the
indices it had. -/
theorem scanStartSequences_reach (hsep : SizeOf separator n) {j : Nat}
    (hj : StartsAt buffer n j) (hend : j < buffer.length - n) :
    ∀ {fuel i : Nat} (indices : List NaluIndex), buffer.length ≤ fuel + i → i ≤ j →
      (∀ q, i ≤ q → q < j → ¬ StartsAt buffer n q) →
      ∃ fuel', buffer.length ≤ fuel' + j ∧
        scanStartSequences buffer separator n fuel i indices
          = scanStartSequences buffer separator n fuel' j indices := by
  have hn := hsep.pos
  intro fuel
  induction fuel with
  | zero => intro i indices hfuel hij _; omega
  | succ fuel ih =>
    intro i indices hfuel hij hfree
    rcases Nat.eq_or_lt_of_le hij with rfl | hlt
    · exact ⟨fuel + 1, hfuel, rfl⟩
    have hstep (hprobe : buffer.getD (i + n - 1) 0 ≠ 0) : i + n ≤ j := by
      by_contra hover
      exact hprobe (hj.probe_eq_zero hlt (by omega))
    have hjump (hle : i + n ≤ j) := ih indices (i := i + n) (by omega) hle
      fun q hq hqj => hfree q (by omega) hqj
    rw [scanStartSequences, if_pos (by omega)]
    by_cases hbig : 1 < buffer.getD (i + n - 1) 0
    · rw [if_pos hbig]
      exact hjump (hstep fun h => by rw [h] at hbig; exact absurd hbig (by decide))
    rw [if_neg hbig]
    by_cases hone : buffer.getD (i + n - 1) 0 = 1
    · rw [if_pos hone, if_neg]
      · exact hjump (hstep (by rw [hone]; decide))
      · rw [hsep.found_iff (by omega) hone]
        exact hfree i (Nat.le_refl i) hlt
    · rw [if_neg hone]
      exact ih indices (by omega) hlt fun q hq hqj => hfree q (by omega) hqj

theorem scanStartSequences_done (hsep : SizeOf separator n) :
    ∀ (fuel : Nat) {i : Nat} (indices : List NaluIndex),
      (∀ q, i ≤ q → ¬ StartsAt buffer n q) →
      scanStartSequences buffer separator n fuel i indices = indices := by
  intro fuel
  induction fuel with
  | zero => intro i indices _; rfl
  | succ fuel ih =>
    intro i indices hfree
    rw [scanStartSequences]
    by_cases hend : i < buffer.length - n
    · rw [if_pos hend]
      by_cases hbig : 1 < buffer.getD (i + n - 1) 0
      · rw [if_pos hbig]
        exact ih indices fun q hq => hfree q (by omega)
      rw [if_neg hbig]
      by_cases hone : buffer.getD (i + n - 1) 0 = 1
      · rw [if_pos hone, if_neg]
        · exact ih indices fun q hq => hfree q (by omega)
        · rw [hsep.found_iff (by omega) hone]
          exact hfree i (Nat.le_refl i)
      · rw [if_neg hone]
        exact ih indices fun q hq => hfree q (by omega)
    · rw [if_neg hend]

theorem scanStartSequences_found (hsep : SizeOf separator n) {fuel j : Nat}
    (hj : StartsAt buffer n j) (hend : j < buffer.length - n) (indices : List NaluIndex) :
    scanStartSequences buffer separator n (fuel + 1) j indices
      = scanStartSequences buffer separator n fuel (j + n)
          (closeLast (indexStartOffset buffer j) indices
            ++ [⟨indexStartOffset buffer j, j + n, 0⟩]) := by
  have hone := hj.last hsep.pos
  rw [scanStartSequences, if_pos hend, if_neg (by rw [hone]; decide), if_pos hone,
    if_pos ((hsep.found_iff hj.1 hone).mpr hj)]

end Scan

theorem closeLast_concat (finish : Nat) (indices : List NaluIndex) (last : NaluIndex) :
    closeLast finish (indices ++ [last])
      = indices ++ [{ last with payloadSize := finish - last.payloadStartOffset }] := by
  induction indices with
  | nil => rfl
  | cons index indices ih =>
    cases indices with
    | nil => rfl
    | cons next indices =>
      simp only [List.cons_append] at ih ⊢
      rw [closeLast, ih]

/-! ## Streams of units -/

/-- A NAL unit in a stream: which start sequence stands before it, its header byte and its
RBSP. -/
structure StreamUnit where
  longStartSequence : Bool
  header : UInt8
  rbsp : List UInt8
  deriving DecidableEq

namespace StreamUnit

/-- The start sequence in front of the unit. -/
def startSequence (unit : StreamUnit) : List UInt8 :=
  if unit.longStartSequence then [0, 0, 0, 1] else [0, 0, 1]

/-- The bytes of the unit: the header byte, and the RBSP with emulation bytes. -/
def bytes (unit : StreamUnit) : List UInt8 := unit.header :: writeRbsp unit.rbsp []

/-- The stream of units. -/
def stream (units : List StreamUnit) : List UInt8 :=
  units.flatMap fun unit => unit.startSequence ++ unit.bytes

/-- The indices of the units of a stream that begins at an offset. -/
def layout : Nat → List StreamUnit → List NaluIndex
  | _, [] => []
  | offset, unit :: units =>
    ⟨offset, offset + unit.startSequence.length, unit.bytes.length⟩ ::
      layout (offset + unit.startSequence.length + unit.bytes.length) units

end StreamUnit

/-- The payload ranges of the indices are the payloads, in order. -/
def Delimits (buffer : List UInt8) (indices : List NaluIndex) (payloads : List (List UInt8)) :
    Prop :=
  List.Forall₂ (fun index payload => index.payloadSize = payload.length ∧
    (buffer.drop index.payloadStartOffset).take index.payloadSize = payload) indices payloads

/-- Bytes that end in a byte other than zero and hold no start sequence of `n` bytes. -/
structure Solid (n : Nat) (bytes : List UInt8) : Prop where
  last : bytes.getD (bytes.length - 1) 0 ≠ 0
  free : ∀ q, ¬ StartsAt bytes n q

theorem Solid.length_pos {n : Nat} {bytes : List UInt8} (h : Solid n bytes) :
    0 < bytes.length := by
  by_contra hlen
  have hnil : bytes = [] := List.eq_nil_of_length_eq_zero (by omega)
  exact h.last (by rw [hnil]; rfl)

theorem getD_length_add (pre rest : List UInt8) (k : Nat) :
    (pre ++ rest).getD (pre.length + k) 0 = rest.getD k 0 := by
  rw [List.getD_append_right _ _ _ _ (by omega), Nat.add_sub_cancel_left]

theorem Solid.not_startsAt {n : Nat} {pre bytes rest : List UInt8} (h : Solid n bytes) {q : Nat}
    (hle : pre.length ≤ q) (hlt : q < pre.length + bytes.length) :
    ¬ StartsAt (pre ++ (bytes ++ rest)) n q := by
  obtain ⟨p, rfl⟩ := Nat.exists_eq_add_of_le hle
  rintro ⟨-, hstart⟩
  have hbyte {k : Nat} (hk : k < n) (hin : p + k < bytes.length) :
      bytes.getD (p + k) 0 = if k + 1 = n then 1 else 0 := by
    rw [← hstart k hk, Nat.add_assoc, getD_length_add, List.getD_append _ _ _ _ hin]
  by_cases hfit : p + n ≤ bytes.length
  · exact h.free p ⟨hfit, fun k hk => hbyte hk (by omega)⟩
  · have hlast := hbyte (k := bytes.length - 1 - p) (by omega) (by omega)
    rw [if_neg (by omega), show p + (bytes.length - 1 - p) = bytes.length - 1 by omega] at hlast
    exact h.last hlast

section Stream

open StreamUnit

variable {separator : Separator} {n : Nat}

/-- Where the search finds the start sequence of a unit. -/
def foundOffset (n : Nat) (pre : List UInt8) (unit : StreamUnit) : Nat :=
  pre.length + (unit.startSequence.length - n)

variable {unit : StreamUnit}

section

variable (hsep : SizeOf separator n)
include hsep

theorem startsAt_foundOffset (hcode : n ≤ unit.startSequence.length) (pre rest : List UInt8) :
    StartsAt (pre ++ (unit.startSequence ++ rest)) n (foundOffset n pre unit) := by
  refine ⟨by simp only [foundOffset, List.length_append]; omega, fun k hk => ?_⟩
  rw [foundOffset, Nat.add_assoc, getD_length_add, List.getD_append _ _ _ _ (by omega)]
  cases separator with
  | length => exact hsep.elim
  | shortStartSequence =>
    obtain rfl : n = 3 := hsep
    cases hlong : unit.longStartSequence <;> simp only [startSequence, hlong] <;>
      interval_cases k <;> rfl
  | longStartSequence =>
    obtain rfl : n = 4 := hsep
    cases hlong : unit.longStartSequence with
    | false => simp [startSequence, hlong] at hcode
    | true => simp only [startSequence, hlong]; interval_cases k <;> rfl

theorem not_startsAt_before_foundOffset
    {pre rest : List UInt8} {q : Nat} (hle : pre.length ≤ q) (hlt : q < foundOffset n pre unit) :
    ¬ StartsAt (pre ++ (unit.startSequence ++ rest)) n q := by
  rintro ⟨-, hstart⟩
  obtain ⟨p, rfl⟩ := Nat.exists_eq_add_of_le hle
  have hone := hstart (n - 1) (by have := hsep.pos; omega)
  have hin : p + (n - 1) < unit.startSequence.length := by
    simp only [foundOffset] at hlt
    omega
  rw [if_pos (by have := hsep.pos; omega), Nat.add_assoc, getD_length_add,
    List.getD_append _ _ _ _ hin] at hone
  simp only [foundOffset] at hlt
  cases separator with
  | length => exact hsep.elim
  | shortStartSequence =>
    obtain rfl : n = 3 := hsep
    cases hlong : unit.longStartSequence <;> simp only [startSequence, hlong] at hlt hone
    · simp at hlt
    · obtain rfl : p = 0 := by simp at hlt; omega
      exact absurd hone (by decide)
  | longStartSequence =>
    obtain rfl : n = 4 := hsep
    cases hlong : unit.longStartSequence <;> simp [startSequence, hlong] at hlt

theorem indexStartOffset_foundOffset
    (hcode : n ≤ unit.startSequence.length) {pre : List UInt8} (rest : List UInt8)
    (hpre : pre = [] ∨ pre.getD (pre.length - 1) 0 ≠ 0) :
    indexStartOffset (pre ++ (unit.startSequence ++ rest)) (foundOffset n pre unit)
      = pre.length := by
  by_cases hlen : unit.startSequence.length = n
  · have hfound : foundOffset n pre unit = pre.length := by simp [foundOffset, hlen]
    rw [hfound, indexStartOffset, if_neg]
    rintro ⟨hpos, hzero⟩
    rw [List.getD_append _ _ _ _ (by omega)] at hzero
    rcases hpre with rfl | hlast
    · exact absurd hpos (by decide)
    · exact hlast hzero
  · -- only a long start sequence found as a short one has a byte to spare
    have hn : n = 3 ∧ unit.startSequence = [0, 0, 0, 1] := by
      cases separator with
      | length => exact hsep.elim
      | shortStartSequence =>
        obtain rfl : n = 3 := hsep
        cases hlong : unit.longStartSequence <;> simp_all [startSequence]
      | longStartSequence =>
        obtain rfl : n = 4 := hsep
        cases hlong : unit.longStartSequence <;> simp_all [startSequence]
    obtain ⟨rfl, hseq⟩ := hn
    have hfound : foundOffset 3 pre unit = pre.length + 1 := by simp [foundOffset, hseq]
    rw [hfound, indexStartOffset, if_pos, Nat.add_sub_cancel]
    refine ⟨by omega, ?_⟩
    have hzero := getD_length_add pre (unit.startSequence ++ rest) 0
    rw [hseq] at hzero ⊢
    exact hzero

theorem scanStartSequences_unit
    (hcode : n ≤ unit.startSequence.length) (hsolid : Solid n unit.bytes)
    {pre rest : List UInt8} (hpre : pre = [] ∨ pre.getD (pre.length - 1) 0 ≠ 0)
    {buffer : List UInt8} (hbuffer : buffer = pre ++ (unit.startSequence ++ (unit.bytes ++ rest)))
    {fuel i : Nat} (indices : List NaluIndex) (hfuel : buffer.length ≤ fuel + i)
    (hi : i ≤ pre.length) (hfree : ∀ q, i ≤ q → q < pre.length → ¬ StartsAt buffer n q) :
    ∃ fuel', buffer.length ≤ fuel' + (pre.length + unit.startSequence.length) ∧
      scanStartSequences buffer separator n fuel i indices
        = scanStartSequences buffer separator n fuel' (pre.length + unit.startSequence.length)
            (closeLast pre.length indices
              ++ [⟨pre.length, pre.length + unit.startSequence.length, 0⟩]) := by
  have hstart : StartsAt buffer n (foundOffset n pre unit) := by
    rw [hbuffer]
    exact startsAt_foundOffset hsep hcode pre _
  have hnext : foundOffset n pre unit + n = pre.length + unit.startSequence.length := by
    simp only [foundOffset]
    omega
  have hend : foundOffset n pre unit < buffer.length - n := by
    have hpos := hsolid.length_pos
    rw [hbuffer]
    simp only [List.length_append]
    omega
  obtain ⟨fuel₁, hfuel₁, hreach⟩ := scanStartSequences_reach hsep hstart hend indices hfuel
    (by simp only [foundOffset]; omega) fun q hq hlt => by
      by_cases hqpre : q < pre.length
      · exact hfree q hq hqpre
      · rw [hbuffer]
        exact not_startsAt_before_foundOffset hsep (by omega) hlt
  obtain ⟨fuel₂, rfl⟩ : ∃ fuel₂, fuel₁ = fuel₂ + 1 := ⟨fuel₁ - 1, by omega⟩
  have hoffset : indexStartOffset buffer (foundOffset n pre unit) = pre.length := by
    rw [hbuffer]
    exact indexStartOffset_foundOffset hsep hcode _ hpre
  refine ⟨fuel₂, by have := hsep.pos; omega, ?_⟩
  rw [hreach, scanStartSequences_found hsep hstart hend, hoffset, hnext]

/-- The search over the units of a stream, from any offset with no start sequence between it
and the next unit. -/
theorem scanStartSequences_stream {buffer : List UInt8}
    (units : List StreamUnit) (hcode : ∀ unit ∈ units, n ≤ unit.startSequence.length)
    (hsolid : ∀ unit ∈ units, Solid n unit.bytes) {pre : List UInt8}
    (hpre : pre = [] ∨ pre.getD (pre.length - 1) 0 ≠ 0) (hbuffer : buffer = pre ++ stream units)
    {fuel i : Nat} (indices : List NaluIndex) (hfuel : buffer.length ≤ fuel + i)
    (hi : i ≤ pre.length) (hfree : ∀ q, i ≤ q → q < pre.length → ¬ StartsAt buffer n q) :
    closeLast buffer.length (scanStartSequences buffer separator n fuel i indices)
      = closeLast pre.length indices ++ layout pre.length units := by
  induction units generalizing pre fuel i indices with
  | nil =>
    obtain rfl : buffer = pre := by simpa [stream] using hbuffer
    have hdone : ∀ q, i ≤ q → ¬ StartsAt buffer n q := by
      intro q hq hstart
      by_cases hlt : q < buffer.length
      · exact hfree q hq hlt hstart
      · have hpos := hsep.pos
        have hle := hstart.1
        omega
    rw [scanStartSequences_done hsep fuel indices hdone]
    simp [layout]
  | cons unit units ih =>
    have hunit : Solid n unit.bytes := hsolid unit (by simp)
    have hbuffer₁ : buffer
        = pre ++ (unit.startSequence ++ (unit.bytes ++ stream units)) := by
      simpa [stream] using hbuffer
    obtain ⟨fuel', hfuel', hscan⟩ := scanStartSequences_unit hsep (hcode unit (by simp)) hunit hpre
      hbuffer₁ indices hfuel hi hfree
    have hlast : (pre ++ (unit.startSequence ++ unit.bytes)).getD
        ((pre ++ (unit.startSequence ++ unit.bytes)).length - 1) 0 ≠ 0 := by
      have hpos := hunit.length_pos
      rw [show (pre ++ (unit.startSequence ++ unit.bytes)).length - 1
        = pre.length + (unit.startSequence.length + (unit.bytes.length - 1)) by
          simp only [List.length_append]; omega, getD_length_add, getD_length_add]
      exact hunit.last
    rw [hscan, ih (fun u hu => hcode u (by simp [hu])) (fun u hu => hsolid u (by simp [hu]))
      (.inr hlast) (by simpa using hbuffer₁) _ hfuel' (by simp) ?_, closeLast_concat]
    · have hsize : (pre ++ (unit.startSequence ++ unit.bytes)).length
          - (pre.length + unit.startSequence.length) = unit.bytes.length := by
        simp only [List.length_append]
        omega
      simp only [List.append_assoc, List.cons_append, List.nil_append, layout, hsize]
      simp only [List.length_append, Nat.add_assoc]
    · intro q hq hlt
      have hassoc : buffer = (pre ++ unit.startSequence) ++ (unit.bytes ++ stream units) := by
        simpa using hbuffer₁
      rw [hassoc]
      exact hunit.not_startsAt (by simpa using hq) (by simpa [Nat.add_assoc] using hlt)

theorem findStartSequences_stream (units : List StreamUnit)
    (hcode : ∀ unit ∈ units, n ≤ unit.startSequence.length)
    (hsolid : ∀ unit ∈ units, Solid n unit.bytes) :
    findStartSequences (stream units) separator n = layout 0 units := by
  have hbuffer : stream units = [] ++ stream units := rfl
  have hfuel : (stream units).length ≤ (stream units).length + 0 := Nat.le_refl _
  have hscan := scanStartSequences_stream hsep units hcode hsolid (.inl rfl) hbuffer [] hfuel
    (Nat.le_refl 0) fun q _ hlt => absurd hlt (by simp)
  rw [findStartSequences]
  by_cases hshort : (stream units).length < n
  · rw [if_pos hshort]
    cases units with
    | nil => rfl
    | cons unit units =>
      have hle := hcode unit (by simp)
      simp only [stream, List.flatMap_cons, List.length_append] at hshort
      omega
  · rw [if_neg hshort, hscan]
    rfl

end

theorem delimits_layout (units : List StreamUnit) (pre : List UInt8) :
    Delimits (pre ++ stream units) (layout pre.length units) (units.map bytes) := by
  induction units generalizing pre with
  | nil => exact List.Forall₂.nil
  | cons unit units ih =>
    refine List.Forall₂.cons ⟨rfl, ?_⟩ ?_
    · have hdrop : (pre ++ stream (unit :: units)).drop (pre.length + unit.startSequence.length)
          = unit.bytes ++ stream units := by
        simp [stream, List.drop_append]
      rw [hdrop]
      exact List.take_left
    · have hrest := ih (pre ++ (unit.startSequence ++ unit.bytes))
      simp only [List.append_assoc, List.length_append, ← Nat.add_assoc] at hrest
      simp only [stream, List.flatMap_cons, List.append_assoc] at hrest ⊢
      exact hrest

end Stream

/-! ## Escaping -/

variable {byte : UInt8}

theorem escapeRbsp_escaped (hbyte : byte ≤ 3) (rbsp : List UInt8) :
    escapeRbsp 2 (byte :: rbsp) = 3 :: byte :: escapeRbsp (if byte = 0 then 1 else 0) rbsp := by
  rw [escapeRbsp, if_pos ⟨hbyte, Nat.le_refl 2⟩]
  rfl

theorem escapeRbsp_zero {zeros : Nat} (hzeros : zeros < 2) (rbsp : List UInt8) :
    escapeRbsp zeros (0 :: rbsp) = 0 :: escapeRbsp (zeros + 1) rbsp := by
  rw [escapeRbsp, if_neg (by simp only [kZerosInStartSequence]; omega), if_pos rfl]

theorem escapeRbsp_plain {zeros : Nat} (hbyte : byte ≠ 0)
    (h : ¬ (byte ≤ 3 ∧ 2 ≤ zeros)) (rbsp : List UInt8) :
    escapeRbsp zeros (byte :: rbsp) = byte :: escapeRbsp 0 rbsp := by
  have hplain : ¬ (byte ≤ kEmulationByte ∧ kZerosInStartSequence ≤ zeros) := h
  rw [escapeRbsp, if_neg hplain, if_neg hbyte]

/-- **The cases of the escaping loop**, for what follows at most two zeros: an escaped byte,
a zero, another byte. -/
theorem escapeRbsp_cases {motive : Nat → List UInt8 → Prop}
    (nil : ∀ zeros ≤ 2, motive zeros [])
    (escaped : ∀ byte rbsp, byte ≤ 3 → motive (if byte = 0 then 1 else 0) rbsp →
      motive 2 (byte :: rbsp))
    (zero : ∀ zeros rbsp, zeros < 2 → motive (zeros + 1) rbsp → motive zeros (0 :: rbsp))
    (plain : ∀ zeros byte rbsp, zeros ≤ 2 → byte ≠ 0 → ¬ (byte ≤ 3 ∧ 2 ≤ zeros) →
      motive 0 rbsp → motive zeros (byte :: rbsp))
    (rbsp : List UInt8) : ∀ zeros ≤ 2, motive zeros rbsp := by
  induction rbsp with
  | nil => exact nil
  | cons byte rbsp ih =>
    intro zeros hzeros
    by_cases hesc : byte ≤ 3 ∧ 2 ≤ zeros
    · obtain rfl : zeros = 2 := by omega
      refine escaped byte rbsp hesc.1 (ih _ ?_)
      split <;> omega
    by_cases hbyte : byte = 0
    · subst hbyte
      have hlt : zeros < 2 := by
        by_contra hge
        exact hesc ⟨by decide, by omega⟩
      exact zero zeros rbsp hlt (ih _ hlt)
    · exact plain zeros byte rbsp hzeros hbyte hesc (ih 0 (by omega))

theorem retrieveRbspFromEbsp_cons (hbyte : byte ≠ 0) (rest : List UInt8) :
    retrieveRbspFromEbsp (byte :: rest) = byte :: retrieveRbspFromEbsp rest := by
  rcases rest with _ | ⟨b₁, _ | ⟨b₂, rest⟩⟩
  · rfl
  · rfl
  · rw [retrieveRbspFromEbsp, if_neg (fun h => hbyte h.1)]

theorem retrieveRbspFromEbsp_zero_cons (hbyte : byte ≠ 0) (rest : List UInt8) :
    retrieveRbspFromEbsp (0 :: byte :: rest) = 0 :: byte :: retrieveRbspFromEbsp rest := by
  rw [← retrieveRbspFromEbsp_cons hbyte]
  cases rest with
  | nil => rfl
  | cons b rest => rw [retrieveRbspFromEbsp, if_neg (fun h => hbyte h.2.1)]

theorem retrieveRbspFromEbsp_zero_zero_cons (hbyte : byte ≠ 0) (hne : byte ≠ 3)
    (rest : List UInt8) :
    retrieveRbspFromEbsp (0 :: 0 :: byte :: rest)
      = 0 :: 0 :: byte :: retrieveRbspFromEbsp rest := by
  rw [retrieveRbspFromEbsp, if_neg (fun h => hne h.2.2), retrieveRbspFromEbsp_zero_cons hbyte]

theorem retrieveRbspFromEbsp_emulation (rest : List UInt8) :
    retrieveRbspFromEbsp (0 :: 0 :: 3 :: rest) = 0 :: 0 :: retrieveRbspFromEbsp rest := by
  rw [retrieveRbspFromEbsp, if_pos ⟨rfl, rfl, rfl⟩]

theorem retrieveRbspFromEbsp_escapeRbsp (rbsp : List UInt8) : ∀ zeros ≤ 2,
    retrieveRbspFromEbsp (List.replicate zeros 0 ++ escapeRbsp zeros rbsp)
      = List.replicate zeros 0 ++ rbsp := by
  refine escapeRbsp_cases (motive := fun zeros rbsp =>
    retrieveRbspFromEbsp (List.replicate zeros 0 ++ escapeRbsp zeros rbsp)
      = List.replicate zeros 0 ++ rbsp)
    ?nil ?escaped ?zero ?plain rbsp
  case nil =>
    intro zeros hzeros
    interval_cases zeros <;> rfl
  case escaped =>
    intro byte rbsp hbyte ih
    rw [escapeRbsp_escaped hbyte]
    simp only [List.replicate, List.cons_append, List.nil_append, retrieveRbspFromEbsp_emulation]
    by_cases hzero : byte = 0
    · subst hzero
      simpa using ih
    · rw [if_neg hzero] at ih ⊢
      rw [retrieveRbspFromEbsp_cons hzero]
      simpa using ih
  case zero =>
    intro zeros rbsp hzeros ih
    rw [escapeRbsp_zero hzeros]
    simpa [List.replicate_succ', List.append_assoc] using ih
  case plain =>
    intro zeros byte rbsp hzeros hbyte hesc ih
    rw [escapeRbsp_plain hbyte hesc]
    simp only [List.replicate, List.nil_append] at ih
    interval_cases zeros
    · simp [retrieveRbspFromEbsp_cons hbyte, ih]
    · simp [retrieveRbspFromEbsp_zero_cons hbyte, ih]
    · have hne : byte ≠ 3 := fun h => hesc ⟨by rw [h]; decide, Nat.le_refl 2⟩
      simp [retrieveRbspFromEbsp_zero_zero_cons hbyte hne, ih]

theorem escapeRbsp_free {b : UInt8} (hb : b ≤ 2) (rbsp : List UInt8) : ∀ zeros ≤ 2,
    ¬ [0, 0, b] <:+: List.replicate zeros 0 ++ escapeRbsp zeros rbsp := by
  have hb3 : ∀ {byte : UInt8}, ¬ byte ≤ 3 → b ≠ byte := by
    rintro byte hlarge rfl
    exact hlarge (UInt8.le_trans hb (by decide))
  have hb3' : b ≠ 3 := by rintro rfl; exact absurd hb (by decide)
  refine escapeRbsp_cases (motive := fun zeros rbsp =>
    ¬ [0, 0, b] <:+: List.replicate zeros 0 ++ escapeRbsp zeros rbsp)
    ?nil ?escaped ?zero ?plain rbsp
  case nil =>
    intro zeros hzeros hinfix
    have hlen := hinfix.length_le
    simp only [escapeRbsp, List.append_nil, List.length_replicate, List.length_cons,
      List.length_nil] at hlen
    omega
  case escaped =>
    intro byte rbsp hbyte ih
    rw [escapeRbsp_escaped hbyte]
    by_cases hzero : byte = 0
    · subst hzero
      simpa [List.replicate, List.infix_cons_iff, hb3'] using ih
    · rw [if_neg hzero] at ih ⊢
      simpa [List.replicate, List.infix_cons_iff, hb3', Ne.symm hzero] using ih
  case zero =>
    intro zeros rbsp hzeros ih
    rw [escapeRbsp_zero hzeros]
    simpa [List.replicate_succ', List.append_assoc] using ih
  case plain =>
    intro zeros byte rbsp hzeros hbyte hesc ih
    rw [escapeRbsp_plain hbyte hesc]
    interval_cases zeros
    · simpa [List.replicate, List.infix_cons_iff, Ne.symm hbyte] using ih
    · simpa [List.replicate, List.infix_cons_iff, Ne.symm hbyte] using ih
    · have hne : b ≠ byte := hb3 fun h => hesc ⟨h, Nat.le_refl 2⟩
      simpa [List.replicate, List.infix_cons_iff, Ne.symm hbyte, hne] using ih

theorem getLastD_escapeRbsp (rbsp : List UInt8) : ∀ zeros ≤ 2, ∀ d,
    (escapeRbsp zeros rbsp).getLastD d = rbsp.getLastD d := by
  refine escapeRbsp_cases (motive := fun zeros rbsp =>
    ∀ d, (escapeRbsp zeros rbsp).getLastD d = rbsp.getLastD d)
    ?nil ?escaped ?zero ?plain rbsp
  case nil =>
    intro zeros hzeros d
    rfl
  case escaped =>
    intro byte rbsp hbyte ih d
    rw [escapeRbsp_escaped hbyte]
    simp only [List.getLastD_cons, ih]
  case zero =>
    intro zeros rbsp hzeros ih d
    rw [escapeRbsp_zero hzeros]
    simp only [List.getLastD_cons, ih]
  case plain =>
    intro zeros byte rbsp hzeros hbyte hesc ih d
    rw [escapeRbsp_plain hbyte hesc]
    simp only [List.getLastD_cons, ih]

/-! ## Framing and escaping -/

theorem StartsAt.isPrefix {bytes : List UInt8} {q : Nat} (h : StartsAt bytes 3 q) :
    [0, 0, 1] <+: bytes.drop q := by
  obtain ⟨hlen, hbytes⟩ := h
  have hdrop (k : Nat) : bytes.getD (q + k) 0 = (bytes.drop q).getD k 0 := by
    simp [List.getD_eq_getElem?_getD, List.getElem?_drop]
  have h₀ := hbytes 0 (by omega)
  have h₁ := hbytes 1 (by omega)
  have h₂ := hbytes 2 (by omega)
  rw [hdrop] at h₀ h₁ h₂
  have hdlen : (bytes.drop q).length = bytes.length - q := List.length_drop
  rcases hd : bytes.drop q with _ | ⟨b₀, _ | ⟨b₁, _ | ⟨b₂, rest⟩⟩⟩ <;> rw [hd] at hdlen h₀ h₁ h₂
  · simp at hdlen; omega
  · simp at hdlen; omega
  · simp at hdlen; omega
  · obtain rfl : b₀ = 0 := h₀
    obtain rfl : b₁ = 0 := h₁
    obtain rfl : b₂ = 1 := h₂
    exact ⟨rest, rfl⟩

theorem StartsAt.short {bytes : List UInt8} {q : Nat} (h : StartsAt bytes 4 q) :
    StartsAt bytes 3 (q + 1) := by
  refine ⟨by have := h.1; omega, fun k hk => ?_⟩
  rw [Nat.add_assoc, Nat.add_comm 1 k, h.2 (k + 1) (by omega)]
  simp

theorem writeRbsp_nil (rbsp : List UInt8) : writeRbsp rbsp [] = escapeRbsp 0 rbsp := rfl

theorem not_startsAt_succ (header : UInt8) (rbsp : List UInt8) (q : Nat) :
    ¬ StartsAt (header :: writeRbsp rbsp []) 3 (q + 1) := by
  intro hstart
  refine escapeRbsp_free (b := 1) (by decide) rbsp 0 (by omega) ?_
  have hinfix := hstart.isPrefix.isInfix.trans (List.drop_suffix q (writeRbsp rbsp [])).isInfix
  rwa [writeRbsp_nil] at hinfix

theorem isPrefix_of_escapeRbsp {rbsp : List UInt8} (h : [0, 1] <+: escapeRbsp 0 rbsp) :
    [0, 1] <+: rbsp := by
  rcases rbsp with _ | ⟨b₀, _ | ⟨b₁, rbsp⟩⟩
  · simp [escapeRbsp] at h
  · simp [escapeRbsp, kZerosInStartSequence] at h
  · by_cases hzero : b₀ = 0
    · subst hzero
      rw [escapeRbsp_zero (by omega)] at h
      simp [escapeRbsp, kZerosInStartSequence] at h
      simp [h]
    · rw [escapeRbsp_plain hzero (by omega)] at h
      simp [Ne.symm hzero] at h

theorem getD_length_sub_one (bytes : List UInt8) :
    bytes.getD (bytes.length - 1) 0 = bytes.getLastD 0 := by
  rw [List.getD_eq_getElem?_getD, ← List.getLast?_eq_getElem?, List.getLastD_eq_getLast?]

variable {unit : StreamUnit}

theorem last_bytes (hlast : unit.rbsp.getLastD 0 ≠ 0) :
    unit.bytes.getD (unit.bytes.length - 1) 0 ≠ 0 := by
  rw [getD_length_sub_one]
  have hne : unit.rbsp ≠ [] := by rintro h; simp [h] at hlast
  have hd : unit.rbsp.getLastD unit.header = unit.rbsp.getLastD 0 := by
    simp [List.getLastD_eq_getLast?, List.getLast?_eq_getLast_of_ne_nil hne]
  simp only [StreamUnit.bytes, List.getLastD_cons, writeRbsp_nil]
  rwa [getLastD_escapeRbsp unit.rbsp 0 (by omega), hd]

/-- A unit is solid for short start sequences unless its header byte and the first bytes of
the RBSP make one up. -/
theorem solid_short (hlast : unit.rbsp.getLastD 0 ≠ 0)
    (hheader : ¬ (unit.header = 0 ∧ [0, 1] <+: unit.rbsp)) : Solid 3 unit.bytes := by
  refine ⟨last_bytes hlast, fun q hstart => ?_⟩
  cases q with
  | zero =>
    have hhead := hstart.isPrefix
    rw [List.drop_zero, StreamUnit.bytes, List.cons_prefix_cons, writeRbsp_nil] at hhead
    exact hheader ⟨hhead.1.symm, isPrefix_of_escapeRbsp hhead.2⟩
  | succ q => exact not_startsAt_succ _ _ q hstart

theorem solid_long (hlast : unit.rbsp.getLastD 0 ≠ 0) :
    Solid 4 unit.bytes :=
  ⟨last_bytes hlast, fun q hstart => not_startsAt_succ _ _ q hstart.short⟩

theorem length_startSequence_ge (unit : StreamUnit) : 3 ≤ unit.startSequence.length := by
  unfold StreamUnit.startSequence
  split <;> simp

/-- **Framing and escaping come back.**  For units whose RBSP ends in a byte other than zero,
the search for short start sequences delimits the units, whichever start sequences stand
between them, unless a zero header byte stands before an RBSP that begins with 0, 1; the
search for long ones delimits them if all start sequences are long; the bytes behind the
header byte give the RBSP back; and emulation bytes leave nothing that looks like a start
sequence. -/
theorem annex_b_round_trip (units : List StreamUnit)
    (hlast : ∀ unit ∈ units, unit.rbsp.getLastD 0 ≠ 0) :
    ((∀ unit ∈ units, ¬ (unit.header = 0 ∧ [0, 1] <+: unit.rbsp)) →
      Delimits (StreamUnit.stream units)
        (findNaluIndices (StreamUnit.stream units) .shortStartSequence)
        (units.map StreamUnit.bytes)) ∧
    ((∀ unit ∈ units, unit.longStartSequence = true) →
      Delimits (StreamUnit.stream units)
        (findNaluIndices (StreamUnit.stream units) .longStartSequence)
        (units.map StreamUnit.bytes)) ∧
    (∀ unit ∈ units, retrieveRbspFromEbsp (unit.bytes.drop 1) = unit.rbsp) ∧
    ∀ rbsp, ∀ b ≤ 2, ¬ [0, 0, b] <:+: writeRbsp rbsp [] := by
  refine ⟨fun hheader => ?_, fun hlong => ?_, fun unit _ => ?_, fun rbsp b hb => ?_⟩
  · have hsep : SizeOf .shortStartSequence 3 := rfl
    have hfind : findNaluIndices (StreamUnit.stream units) .shortStartSequence
        = StreamUnit.layout 0 units :=
      findStartSequences_stream hsep units
        (fun unit _ => length_startSequence_ge unit)
        fun unit hunit => solid_short (hlast unit hunit) (hheader unit hunit)
    rw [hfind]
    exact delimits_layout units []
  · have hsep : SizeOf .longStartSequence 4 := rfl
    have hfind : findNaluIndices (StreamUnit.stream units) .longStartSequence
        = StreamUnit.layout 0 units :=
      findStartSequences_stream hsep units
        (fun unit hunit => by simp [StreamUnit.startSequence, hlong unit hunit])
        fun unit hunit => solid_long (hlast unit hunit)
    rw [hfind]
    exact delimits_layout units []
  · exact retrieveRbspFromEbsp_escapeRbsp unit.rbsp 0 (by omega)
  · exact escapeRbsp_free hb rbsp 0 (by omega)

/-- Two units behind long start sequences, with emulation bytes in both. -/
theorem annex_b_round_trip_two :
    let units : List StreamUnit := [⟨true, 0x67, [0, 0, 1, 0, 0, 0, 9]⟩, ⟨true, 0, [0, 0, 1]⟩]
    Delimits (StreamUnit.stream units)
      (findNaluIndices (StreamUnit.stream units) .shortStartSequence)
      (units.map StreamUnit.bytes) ∧
    Delimits (StreamUnit.stream units)
      (findNaluIndices (StreamUnit.stream units) .longStartSequence)
      (units.map StreamUnit.bytes) := by
  intro units
  have h := annex_b_round_trip units (by decide)
  exact ⟨h.1 (by decide), h.2.1 (by decide)⟩

/-- A zero header byte before an RBSP that begins with 0, 1 makes a start sequence: the search
splits the unit in two. -/
theorem zero_header_splits :
    let units : List StreamUnit := [⟨false, 0, [0, 1, 5]⟩]
    (∀ unit ∈ units, unit.rbsp.getLastD 0 ≠ 0) ∧
    findNaluIndices (StreamUnit.stream units) .shortStartSequence = [⟨0, 3, 0⟩, ⟨3, 6, 1⟩] ∧
    ¬ Delimits (StreamUnit.stream units)
      (findNaluIndices (StreamUnit.stream units) .shortStartSequence)
      (units.map StreamUnit.bytes) := by
  intro units
  have hfind : findNaluIndices (StreamUnit.stream units) .shortStartSequence
      = [⟨0, 3, 0⟩, ⟨3, 6, 1⟩] := by decide
  refine ⟨by decide, hfind, fun h => ?_⟩
  have hlen := h.length_eq
  rw [hfind] at hlen
  exact absurd hlen (by decide)

end NaiveRtc.NalUnit
