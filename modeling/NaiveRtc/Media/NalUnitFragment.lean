import NaiveRtc.Base.ByteIo
import NaiveRtc.Lib.Rounding

/-!
# Fragments of a NAL unit

The model of `rtc/media/video/codecs/h264/nalunit_fragment.cpp`: a NAL unit cut into FU-A
fragments of about the same size.

* `fragmentSize` — the size of the payloads, in the 16-bit and floating-point arithmetic of the
  source; `fragmentSize_eq` is the same in whole numbers.
* `fragmentLoop`, `fragmentsFrom` — the loop, which may read outside the payload and may not end.
* `fragments_iff` — the NAL units that are cut as they should be.
-/

namespace NaiveRtc.NalUnitFragmentA

open ByteIo

/-- `h264::NalUnit`, a byte vector.  Its size is a number that a `double` holds exactly: no
address space has room for more. -/
structure NalUnit where
  bytes : List UInt8
  fits : bytes.length < 2 ^ 53
  deriving DecidableEq

namespace NalUnit

variable (nalu : NalUnit)

/-- `size()`. -/
def size : Nat := nalu.bytes.length

/-- `forbidden_bit()`. -/
def forbiddenBit : Bool := nalu.bytes.getD 0 0 >>> 7 ≠ 0

/-- `nri()`. -/
def nri : UInt8 := nalu.bytes.getD 0 0 >>> 5 &&& 0x03

/-- `unit_type()`. -/
def unitType : UInt8 := nalu.bytes.getD 0 0 &&& 0x1F

/-- `payload()`. -/
def payload : List UInt8 := nalu.bytes.drop 1

end NalUnit

/-! ## One fragment -/

/-- `FragmentType`: `START`, `MIDDLE` and `END`. -/
inductive FragmentType where
  | start
  | middle
  | finish
  deriving DecidableEq

/-- `uint8_t(is_set ? 1 : 0)`. -/
def bit (isSet : Bool) : UInt8 := if isSet then 1 else 0

/-- `NalUnit::set_forbidden_bit(is_set)`, on the first byte. -/
def setForbiddenBit (byte : UInt8) (isSet : Bool) : UInt8 :=
  (byte &&& 0x7F) ||| bit isSet <<< (7 : UInt8)

/-- `NalUnit::set_nri(nri)`. -/
def setNri (byte nri : UInt8) : UInt8 := (byte &&& 0x9F) ||| (nri &&& 0x03) <<< (5 : UInt8)

/-- `set_unit_type(type)`, of the NAL unit on the first byte and of the fragment on the second. -/
def setUnitType (byte type : UInt8) : UInt8 := (byte &&& 0xE0) ||| (type &&& 0x1F)

/-- `set_start(is_set)`, on the second byte. -/
def setStart (byte : UInt8) (isSet : Bool) : UInt8 := (byte &&& 0x7F) ||| bit isSet <<< (7 : UInt8)

/-- `set_end(is_set)`. -/
def setEnd (byte : UInt8) (isSet : Bool) : UInt8 := (byte &&& 0xBF) ||| bit isSet <<< (6 : UInt8)

/-- `set_fragment_type(type)`. -/
def setFragmentType (byte : UInt8) : FragmentType → UInt8
  | .start => setEnd (setStart byte true) false
  | .finish => setEnd (setStart byte false) true
  | .middle => setEnd (setStart byte false) false

/-- The type of an FU-A unit. -/
def kNalUnitTypeFuA : UInt8 := 28

/-- `NalUnitFragmentA(type, forbidden_bit, nri, unit_type, payload_data)`. -/
def create (type : FragmentType) (forbiddenBit : Bool) (nri unitType : UInt8)
    (payloadData : List UInt8) : List UInt8 :=
  setUnitType (setNri (setForbiddenBit 0 forbiddenBit) nri) kNalUnitTypeFuA ::
    setUnitType (setFragmentType 0 type) unitType :: payloadData

/-- `fragment_type()`. -/
def fragmentType (fragment : List UInt8) : FragmentType :=
  if fragment.getD 1 0 >>> 7 ≠ 0 then .start
  else if (fragment.getD 1 0 >>> 6) &&& 0x01 ≠ 0 then .finish
  else .middle

/-- `payload()` of a fragment. -/
def fragmentPayload (fragment : List UInt8) : List UInt8 := fragment.drop 2

/-! ## All fragments -/

/-- `ceil(double(a) / b)`, with `b` converted to `double`. -/
def ceilQuotient (a b : Nat) : Nat :=
  ⌈Rounding.round 53 (Rounding.round 53 a / Rounding.round 53 b)⌉.toNat

/-- `max_fragment_size` when the loop starts: the size of the payloads. -/
def fragmentSize (size : Nat) (maxFragmentSize : UInt16) : UInt16 :=
  -- at least two fragments
  let maxFragmentSize :=
    if size ≤ maxFragmentSize.toNat then UInt16.ofNat (size / 2) else maxFragmentSize
  let fragmentsCount := ceilQuotient size maxFragmentSize.toNat
  -- 2 bytes for FU indicator and FU header
  UInt16.ofNat (ceilQuotient size fragmentsCount) - 2

/-- How `FragmentsFrom` ends: with its fragments, by reading outside the payload, or not within
the rounds it was given. -/
inductive Outcome where
  | returned (fragments : List (List UInt8))
  | readOutside
  | unfinished
  deriving DecidableEq

/-- `fragment_type` of the fragment at `offset`. -/
def typeAt (payload : List UInt8) (offset maxFragmentSize : Nat) : FragmentType :=
  if offset = 0 then .start
  else if offset + maxFragmentSize < payload.length then .middle
  else .finish

/-- `max_fragment_size` of the fragment at `offset`; the first fragment is not cut. -/
def sizeAt (payload : List UInt8) (offset maxFragmentSize : Nat) : Nat :=
  if offset ≠ 0 ∧ payload.length < offset + maxFragmentSize then payload.length - offset
  else maxFragmentSize

/-- The loop of `FragmentsFrom`, for at most `fuel` rounds; `make` builds a fragment. -/
def fragmentLoop (payload : List UInt8) (make : FragmentType → List UInt8 → List UInt8) :
    (fuel offset maxFragmentSize : Nat) → List (List UInt8) → Outcome
  | 0, offset, _, fragments => if offset < payload.length then .unfinished else .returned fragments
  | fuel + 1, offset, maxFragmentSize, fragments =>
    if offset < payload.length then
      let size := sizeAt payload offset maxFragmentSize
      if payload.length < offset + size then .readOutside
      else
        let data := (payload.drop offset).take size
        let fragment := make (typeAt payload offset maxFragmentSize) data
        fragmentLoop payload make fuel (offset + size) size (fragments ++ [fragment])
    else .returned fragments

/-- `FragmentsFrom(nalu, max_fragment_size)`. -/
def fragmentsFrom (fuel : Nat) (nalu : NalUnit) (maxFragmentSize : UInt16) : Outcome :=
  let make (type : FragmentType) := create type nalu.forbiddenBit (nalu.nri &&& 0x03)
    (nalu.unitType &&& 0x1F)
  fragmentLoop nalu.payload make fuel 0 (fragmentSize nalu.size maxFragmentSize).toNat []

/-! ## The size of the payloads -/

theorem ceilQuotient_eq {a b : Nat} (ha : 0 < a) (hb : 0 < b) (ha' : a < 2 ^ 53)
    (hb' : b < 2 ^ 53) : ceilQuotient a b = (a + b - 1) / b := by
  unfold ceilQuotient
  rw [Rounding.round_natCast ha ha', Rounding.round_natCast hb hb',
    Rounding.ceil_round_div ha hb ha', Rat.ceil_natCast_div_natCast]
  have hdiv := Nat.div_add_mod (a + b - 1) b
  have hmod := Nat.mod_lt (a + b - 1) hb
  have hcast : -(a : ℤ) / b = -((a + b - 1) / b : Nat) := by
    refine ((Int.ediv_emod_unique (r := b * ((a + b - 1) / b : Nat) - a)
      (by exact_mod_cast hb)).2 ⟨by ring, ?_, ?_⟩).1
    · have : a ≤ b * ((a + b - 1) / b) := by omega
      exact sub_nonneg.2 (by exact_mod_cast this)
    · have : b * ((a + b - 1) / b) < a + b := by omega
      exact sub_lt_iff_lt_add'.2 (by exact_mod_cast this)
  rw [hcast, neg_neg, Int.toNat_natCast]

theorem fragmentSize_eq {size : Nat} (maxFragmentSize : UInt16) (hsize : 2 ≤ size)
    (hmax : 3 ≤ maxFragmentSize.toNat) (hfits : size < 2 ^ 53) {limit count : Nat}
    (hlimit : limit = if size ≤ maxFragmentSize.toNat then size / 2 else maxFragmentSize.toNat)
    (hcount : count = (size + limit - 1) / limit) :
    (fragmentSize size maxFragmentSize).toNat = ((size + count - 1) / count + 65534) % 65536 := by
  have hword := maxFragmentSize.toNat_lt
  have hlimit' : (if size ≤ maxFragmentSize.toNat then UInt16.ofNat (size / 2)
      else maxFragmentSize).toNat = limit := by
    rw [hlimit]
    split_ifs
    · rw [UInt16.toNat_ofNat']
      omega
    · rfl
  have hpos : 0 < limit := by
    rw [hlimit]
    split_ifs <;> omega
  have hsmall : limit < 2 ^ 53 := by
    rw [hlimit]
    split_ifs <;> omega
  have hcountPos : 0 < count := by
    rw [hcount]
    exact Nat.div_pos (by omega) hpos
  have hcountLe : count ≤ size := by
    rw [hcount]
    refine Nat.div_le_of_le_mul ?_
    have hmul := Nat.mul_le_mul_left (limit - 1) (show 1 ≤ size by omega)
    rw [mul_one, Nat.sub_mul, one_mul] at hmul
    have := Nat.le_mul_of_pos_left size hpos
    omega
  unfold fragmentSize
  dsimp only
  rw [hlimit', ceilQuotient_eq (by omega) hpos hfits hsmall, ← hcount,
    ceilQuotient_eq (by omega) hcountPos hfits (by omega), UInt16.toNat_sub, UInt16.toNat_ofNat']
  have : (2 : UInt16).toNat = 2 := rfl
  omega

/-- **Where the size is right**: a payload of at least one byte, within the limit and smaller
than the payload of the NAL unit. -/
theorem fragmentSize_spec {size : Nat} (maxFragmentSize : UInt16)
    (hmax : 3 ≤ maxFragmentSize.toNat) (hfits : size < 2 ^ 53)
    (hsize : 6 ≤ size ∨ size = 5 ∧ maxFragmentSize.toNat < 5) :
    0 < (fragmentSize size maxFragmentSize).toNat ∧
      (fragmentSize size maxFragmentSize).toNat + 2 ≤ maxFragmentSize.toNat ∧
      (fragmentSize size maxFragmentSize).toNat + 2 < size := by
  have heq := fragmentSize_eq maxFragmentSize (by omega) hmax hfits rfl rfl
  have hword := maxFragmentSize.toNat_lt
  generalize hlimit : (if size ≤ maxFragmentSize.toNat then size / 2 else maxFragmentSize.toNat)
    = limit at heq
  obtain ⟨hthree, hle, hlt⟩ : 3 ≤ limit ∧ limit ≤ maxFragmentSize.toNat ∧ limit < size := by
    rw [← hlimit]
    split_ifs <;> omega
  generalize hcount : (size + limit - 1) / limit = count at heq
  have hdiv := Nat.div_add_mod (size + limit - 1) limit
  have hmod := Nat.mod_lt (size + limit - 1) (show 0 < limit by omega)
  rw [hcount] at hdiv
  -- the last fragment is not empty, and all of them cover the NAL unit
  have hcover : size ≤ limit * count := by omega
  have hneeded : limit * count < size + limit := by omega
  have hpos : 0 < count := by
    rcases Nat.eq_zero_or_pos count with rfl | hpos
    · omega
    · exact hpos
  have htwice : 2 * count < size := by
    obtain ⟨count, rfl⟩ := Nat.exists_eq_add_of_lt hpos
    have := Nat.mul_le_mul_right count hthree
    rw [Nat.zero_add, Nat.mul_add, Nat.mul_one] at hneeded
    omega
  have hlow : 3 ≤ (size + count - 1) / count := (Nat.le_div_iff_mul_le hpos).2 (by omega)
  have hhigh : (size + count - 1) / count < limit + 1 := by
    rw [Nat.div_lt_iff_lt_mul hpos, Nat.add_mul]
    omega
  omega

theorem fragmentSize_of_le_three {size : Nat} {maxFragmentSize : UInt16} (hsize : 2 ≤ size)
    (hmax : 3 ≤ maxFragmentSize.toNat) (hthree : size ≤ 3) :
    (fragmentSize size maxFragmentSize).toNat = 65535 := by
  rw [fragmentSize_eq maxFragmentSize hsize hmax (by omega) rfl rfl, if_pos (by omega)]
  obtain rfl | rfl : size = 2 ∨ size = 3 := by omega
  · rfl
  · rfl

theorem fragmentSize_eq_zero {size : Nat} {maxFragmentSize : UInt16}
    (hmax : 3 ≤ maxFragmentSize.toNat)
    (hsize : size = 4 ∨ size = 5 ∧ 5 ≤ maxFragmentSize.toNat) :
    (fragmentSize size maxFragmentSize).toNat = 0 := by
  rw [fragmentSize_eq maxFragmentSize (by omega) hmax (by omega) rfl rfl]
  obtain rfl | ⟨rfl, hfits⟩ := hsize
  · by_cases hle : 4 ≤ maxFragmentSize.toNat
    · rw [if_pos hle]
    · rw [if_neg hle, show maxFragmentSize.toNat = 3 by omega]
  · rw [if_pos hfits]

section Create

variable (type : FragmentType) (forbiddenBit : Bool) (nri unitType : UInt8) (data : List UInt8)

@[simp] theorem length_create :
    (create type forbiddenBit nri unitType data).length = data.length + 2 := rfl

@[simp] theorem fragmentPayload_create :
    fragmentPayload (create type forbiddenBit nri unitType data) = data := rfl

@[simp] theorem fragmentType_create :
    fragmentType (create type forbiddenBit nri unitType data) = type := by
  unfold fragmentType create
  rw [List.getD_cons_succ, List.getD_cons_zero]
  revert unitType
  cases type with
  | start => exact forall_byte (by decide +kernel)
  | middle => exact forall_byte (by decide +kernel)
  | finish => exact forall_byte (by decide +kernel)

end Create

/-! ## What the fragments should be -/

/-- The fragments of a NAL unit, for a size. -/
structure Fragments (nalu : NalUnit) (maxFragmentSize : UInt16) (fragments : List (List UInt8)) :
    Prop where
  /-- Every fragment has a payload. -/
  payload_pos : ∀ fragment ∈ fragments, 0 < (fragmentPayload fragment).length
  /-- No fragment is too large. -/
  size_le : ∀ fragment ∈ fragments, fragment.length ≤ maxFragmentSize.toNat
  /-- Nothing is lost or reordered. -/
  payloads : (fragments.map fragmentPayload).flatten = nalu.payload
  /-- The first and the last are marked, and no other. -/
  types : ∀ (i : Nat) (h : i < fragments.length), fragmentType fragments[i] =
    if i = 0 then .start else if i + 1 = fragments.length then .finish else .middle
  /-- There are two at least. -/
  two_le : 2 ≤ nalu.payload.length → 2 ≤ fragments.length

/-- `FragmentsFrom` ends and returns the fragments. -/
def Cuts (nalu : NalUnit) (maxFragmentSize : UInt16) : Prop :=
  ∃ fuel fragments, fragmentsFrom fuel nalu maxFragmentSize = .returned fragments ∧
    Fragments nalu maxFragmentSize fragments

/-! ## The loop -/

section Loop

variable {payload : List UInt8} {make : FragmentType → List UInt8 → List UInt8}

theorem fragmentLoop_done (fuel : Nat) {offset : Nat} (size : Nat) (fragments : List (List UInt8))
    (h : payload.length ≤ offset) :
    fragmentLoop payload make fuel offset size fragments = .returned fragments := by
  cases fuel with
  | zero => exact if_neg (by omega)
  | succ fuel => exact if_neg (by omega)

theorem fragmentLoop_rest {size : Nat} (hsize : 0 < size) {fuel offset : Nat}
    (fragments : List (List UInt8)) (hfuel : payload.length ≤ fuel + offset) (hoffset : 0 < offset)
    (hmore : offset < payload.length) :
    ∃ middles last, fragmentLoop payload make fuel offset size fragments =
        .returned (fragments ++ (middles.map (make .middle) ++ [make .finish last])) ∧
      middles.flatten ++ last = payload.drop offset ∧
      ∀ data ∈ middles ++ [last], 0 < data.length ∧ data.length ≤ size := by
  induction fuel generalizing offset fragments with
  | zero => omega
  | succ fuel ih =>
    rw [fragmentLoop, if_pos hmore]
    dsimp only
    by_cases hmiddle : offset + size < payload.length
    · have hat : sizeAt payload offset size = size := if_neg (by omega)
      have htype : typeAt payload offset size = .middle := by
        rw [typeAt, if_neg (by omega), if_pos hmiddle]
      rw [hat, htype, if_neg (by omega)]
      obtain ⟨middles, last, hrun, hdata, hsizes⟩ := ih
        (fragments ++ [make .middle ((payload.drop offset).take size)]) (by omega) (by omega)
        hmiddle
      refine ⟨(payload.drop offset).take size :: middles, last, ?_, ?_, ?_⟩
      · rw [hrun]
        simp
      · rw [List.flatten_cons, List.append_assoc, hdata, ← List.drop_drop, List.take_append_drop]
      · intro data hmem
        rcases List.mem_cons.1 hmem with rfl | hmem
        · rw [List.length_take, List.length_drop]
          omega
        · exact hsizes data hmem
    · have hat : sizeAt payload offset size = payload.length - offset := by
        unfold sizeAt
        split_ifs <;> omega
      have htype : typeAt payload offset size = .finish := by
        rw [typeAt, if_neg (by omega), if_neg hmiddle]
      rw [hat, htype, if_neg (by omega), fragmentLoop_done _ _ _ (by omega),
        List.take_of_length_le (by rw [List.length_drop])]
      refine ⟨[], payload.drop offset, by simp, rfl, ?_⟩
      intro data hmem
      obtain rfl : data = payload.drop offset := by simpa using hmem
      rw [List.length_drop]
      omega

theorem fragmentLoop_spec {size : Nat} (hsize : 0 < size) (hlt : size < payload.length) :
    ∃ first middles last, fragmentLoop payload make payload.length 0 size [] =
        .returned (make .start first :: (middles.map (make .middle) ++ [make .finish last])) ∧
      first ++ (middles.flatten ++ last) = payload ∧
      ∀ data ∈ first :: (middles ++ [last]), 0 < data.length ∧ data.length ≤ size := by
  obtain ⟨fuel, hfuel⟩ := Nat.exists_eq_succ_of_ne_zero (show payload.length ≠ 0 by omega)
  have hat : sizeAt payload 0 size = size := if_neg (by omega)
  have htype : typeAt payload 0 size = .start := if_pos rfl
  rw [hfuel, fragmentLoop, if_pos (by omega)]
  dsimp only
  rw [hat, htype, if_neg (by omega), Nat.zero_add, List.drop_zero, List.nil_append]
  obtain ⟨middles, last, hrun, hdata, hsizes⟩ := @fragmentLoop_rest payload make size hsize
    fuel size [make .start (payload.take size)] (by omega) hsize hlt
  refine ⟨payload.take size, middles, last, hrun, ?_, ?_⟩
  · rw [hdata, List.take_append_drop]
  · refine List.forall_mem_cons.2 ⟨?_, hsizes⟩
    rw [List.length_take]
    omega

theorem fragmentLoop_zero (hpos : 0 < payload.length) (fuel : Nat)
    (fragments : List (List UInt8)) :
    fragmentLoop payload make fuel 0 0 fragments = .unfinished := by
  induction fuel generalizing fragments with
  | zero => exact if_pos hpos
  | succ fuel ih =>
    rw [fragmentLoop, if_pos hpos]
    exact (if_neg (Nat.not_lt_zero _)).trans (ih _)

theorem fragmentLoop_outside {size : Nat} (hpos : 0 < payload.length) (hlt : payload.length < size)
    (fuel : Nat) (fragments result : List (List UInt8)) :
    fragmentLoop payload make fuel 0 size fragments ≠ .returned result := by
  have hat : sizeAt payload 0 size = size := if_neg (by omega)
  cases fuel with
  | zero =>
    rw [fragmentLoop, if_pos hpos]
    exact Outcome.noConfusion
  | succ fuel =>
    rw [fragmentLoop, if_pos hpos]
    dsimp only
    rw [hat, if_pos (by omega)]
    exact Outcome.noConfusion

end Loop

/-! ## The result -/

variable {nalu : NalUnit} {maxFragmentSize : UInt16}

theorem length_payload (nalu : NalUnit) : nalu.payload.length = nalu.size - 1 := List.length_drop

/-- The NAL units that `FragmentsFrom` has a size for. -/
def HasSize (nalu : NalUnit) (maxFragmentSize : UInt16) : Prop :=
  6 ≤ nalu.size ∨ nalu.size = 5 ∧ maxFragmentSize.toNat < 5

instance : Decidable (HasSize nalu maxFragmentSize) := inferInstanceAs (Decidable (_ ∨ _))

theorem types_of_map {fragments : List (List UInt8)} {count : Nat}
    (h : fragments.map fragmentType = .start :: (List.replicate count .middle ++ [.finish]))
    (i : Nat) (hi : i < fragments.length) : fragmentType fragments[i] =
      if i = 0 then .start else if i + 1 = fragments.length then .finish else .middle := by
  have hlen : fragments.length = count + 2 := by simpa using congrArg List.length h
  have hget : (fragments.map fragmentType)[i]? = some (fragmentType fragments[i]) := by
    rw [List.getElem?_map, List.getElem?_eq_getElem hi, Option.map_some]
  rw [h] at hget
  cases i with
  | zero => exact (Option.some.inj hget).symm
  | succ i =>
    rw [List.getElem?_cons_succ] at hget
    rw [if_neg (Nat.succ_ne_zero i)]
    by_cases hlast : i = count
    · rw [List.getElem?_append_right (by simp [hlast])] at hget
      rw [if_pos (by omega)]
      simpa [hlast] using hget.symm
    · rw [List.getElem?_append_left (by rw [List.length_replicate]; omega),
        List.getElem?_replicate_of_lt (by omega)] at hget
      rw [if_neg (by omega)]
      exact (Option.some.inj hget).symm

theorem cuts_of_hasSize (hmax : 3 ≤ maxFragmentSize.toNat) (h : HasSize nalu maxFragmentSize) :
    Cuts nalu maxFragmentSize := by
  have hfits : nalu.size < 2 ^ 53 := nalu.fits
  obtain ⟨hpos, hle, hlt⟩ := fragmentSize_spec maxFragmentSize hmax hfits h
  generalize hmake : (fun type : FragmentType => create type nalu.forbiddenBit (nalu.nri &&& 0x03)
    (nalu.unitType &&& 0x1F)) = make
  have hlength (type : FragmentType) (data : List UInt8) :
      (make type data).length = data.length + 2 := by
    rw [← hmake, length_create]
  have hpayload (type : FragmentType) (data : List UInt8) :
      fragmentPayload (make type data) = data := by
    rw [← hmake, fragmentPayload_create]
  have htype (type : FragmentType) (data : List UInt8) : fragmentType (make type data) = type := by
    rw [← hmake, fragmentType_create]
  obtain ⟨first, middles, last, hrun, hdata, hsizes⟩ := @fragmentLoop_spec nalu.payload make _ hpos
    (by rw [length_payload]; omega)
  -- every fragment was made of a piece
  have hmade : ∀ fragment ∈
      make .start first :: (middles.map (make .middle) ++ [make .finish last]),
      0 < (fragmentPayload fragment).length ∧ fragment.length ≤ maxFragmentSize.toNat := by
    intro fragment hmem
    obtain ⟨type, data, hdata, rfl⟩ : ∃ type, ∃ data ∈ first :: (middles ++ [last]),
        make type data = fragment := by
      rcases List.mem_cons.1 hmem with rfl | hmem
      · exact ⟨_, first, by simp, rfl⟩
      · rcases List.mem_append.1 hmem with hmem | hmem
        · obtain ⟨data, hdata, rfl⟩ := List.mem_map.1 hmem
          exact ⟨_, data, by simp [hdata], rfl⟩
        · exact ⟨_, last, by simp, (List.mem_singleton.1 hmem).symm⟩
    rw [hpayload, hlength]
    have := hsizes data hdata
    omega
  refine ⟨nalu.payload.length, _, ?_, fun f hf => (hmade f hf).1, fun f hf => (hmade f hf).2, ?_,
    @types_of_map _ middles.length ?_, fun _ => by simp⟩
  · rw [← hrun, ← hmake]
    rfl
  · simpa [hpayload, Function.comp_def] using hdata
  · simp [htype, Function.comp_def]

theorem not_cuts_of_small (hsize : 2 ≤ nalu.size) (hmax : 3 ≤ maxFragmentSize.toNat)
    (h : ¬ HasSize nalu maxFragmentSize) : ¬ Cuts nalu maxFragmentSize := by
  rintro ⟨fuel, fragments, hrun, -⟩
  have hlen := length_payload nalu
  unfold HasSize at h
  unfold fragmentsFrom at hrun
  by_cases hthree : nalu.size ≤ 3
  · have hlarge := fragmentSize_of_le_three hsize hmax hthree
    exact fragmentLoop_outside (by omega) (by omega) fuel [] fragments hrun
  · rw [fragmentSize_eq_zero hmax (by omega), fragmentLoop_zero (by omega)] at hrun
    exact Outcome.noConfusion hrun

/-- **`FragmentsFrom` cuts a NAL unit as it should exactly when** the NAL unit has at least six
bytes, or five that do not fit into one fragment. -/
theorem fragments_iff (nalu : NalUnit) (maxFragmentSize : UInt16) (hsize : 2 ≤ nalu.size)
    (hmax : 3 ≤ maxFragmentSize.toNat) :
    Cuts nalu maxFragmentSize ↔
      6 ≤ nalu.size ∨ nalu.size = 5 ∧ maxFragmentSize.toNat < 5 :=
  ⟨fun hcuts => by_contra fun h => not_cuts_of_small hsize hmax h hcuts, cuts_of_hasSize hmax⟩

/-- Six bytes in fragments of three. -/
theorem fragments_iff_six : Cuts ⟨[0x65, 1, 2, 3, 4, 5], by decide⟩ 3 :=
  (fragments_iff ⟨[0x65, 1, 2, 3, 4, 5], by decide⟩ 3 (by decide) (by decide)).2 (by decide)

/-- **Four bytes are never cut**: there is no room for a payload, and the loop does not end. -/
theorem four_bytes_unfinished :
    (∀ fuel, fragmentsFrom fuel ⟨[0x65, 1, 2, 3], by decide⟩ 1200 = .unfinished) ∧
      ¬ Cuts ⟨[0x65, 1, 2, 3], by decide⟩ 1200 := by
  have hrun (fuel : Nat) : fragmentsFrom fuel ⟨[0x65, 1, 2, 3], by decide⟩ 1200 = .unfinished := by
    unfold fragmentsFrom
    rw [fragmentSize_eq_zero (by decide) (by decide)]
    exact fragmentLoop_zero (by decide) fuel []
  refine ⟨hrun, ?_⟩
  rintro ⟨fuel, fragments, hreturned, -⟩
  rw [hrun] at hreturned
  exact Outcome.noConfusion hreturned

end NaiveRtc.NalUnitFragmentA
