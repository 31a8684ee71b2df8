import NaiveRtc.Lib.Reading

/-!
# Integers of every type and width in memory

The templates of `rtc/base/memory/byte_io_reader.hpp` and `byte_io_writer.hpp` over an integer type
`T` and a number of bytes `B`, as programs that read and write a memory.

* `IntType`, `Admitted`, `Fits` — the types, the static assertions, and what `B` bytes can hold.
* `write`, `readUnsigned`, `signExtend`, `reinterpretAsSigned`, `read` — the functions.  A shift of
  the `int` one by its width or more is undefined.
* `read_write_iff` — **what was written is read**, unless it is negative and its sign is extended
  from four bytes or more.
-/

namespace NaiveRtc.ByteIo

/-- An integer type: `sizeof(T)`, and whether it has a sign. -/
structure IntType where
  size : Nat
  signed : Bool

namespace IntType

/-- `int8_t` to `uint64_t`. -/
def Standard (T : IntType) : Prop := T.size = 1 ∨ T.size = 2 ∨ T.size = 4 ∨ T.size = 8

/-- The static assertions on `T` and `B`. -/
def Admitted (T : IntType) : Nat → Prop
  | 1 => T.size = 1
  | 2 => 2 ≤ T.size
  | 4 => 4 ≤ T.size
  | 8 => 8 ≤ T.size
  | B => 0 < B ∧ B < T.size

/-- What `B` bytes can hold, in two's complement where the type has a sign. -/
def Fits (T : IntType) (B : Nat) (v : Int) : Prop :=
  if T.signed then -2 ^ (8 * B - 1) ≤ v ∧ v < 2 ^ (8 * B - 1) else 0 ≤ v ∧ v < 2 ^ (8 * B)

/-- The integer that an object of the type stands for. -/
def toInt (T : IntType) (val : BitVec (8 * T.size)) : Int :=
  if T.signed then val.toInt else val.toNat

end IntType

/-- The byte orders. -/
inductive Endian where
  | big
  | little

/-- The shifts of the bytes `data[0]`, `data[1]`, …: those of the specialisations, and those of the
loops. -/
def shifts : Endian → Nat → List Nat
  | .big, 1 => [0]
  | .big, 2 => [8, 0]
  | .big, 4 => [24, 16, 8, 0]
  | .big, 8 => [56, 48, 40, 32, 24, 16, 8, 0]
  | .big, B => (List.range B).map fun i => (B - 1 - i) * 8
  | .little, 1 => [0]
  | .little, 2 => [0, 8]
  | .little, 4 => [0, 8, 16, 24]
  | .little, 8 => [0, 8, 16, 24, 32, 40, 48, 56]
  | .little, B => (List.range B).map fun i => i * 8

/-! ## Writing -/

variable {w : Nat}

/-- `val >> shift`, cut to a byte; the shift is an arithmetic one where the type has a sign. -/
def byteAt (signed : Bool) (val : BitVec w) (shift : Nat) : UInt8 :=
  ⟨(if signed then val.sshiftRight shift else val >>> shift).setWidth 8⟩

/-- `ByteWriter<T, B>::WriteBigEndian(data, val)` and `WriteLittleEndian(data, val)`. -/
def write (T : IntType) (e : Endian) (B : Nat) (val : BitVec w) (data : Nat → UInt8) :
    Nat → UInt8 := fun i =>
  match (shifts e B)[i]? with
  | some shift => byteAt T.signed val shift
  | none => data i

/-! ## Reading -/

/-- The bytes from `data[i]` on, shifted and put together. -/
def gather : List Nat → Nat → BitVec w → Reading (BitVec w)
  | [], _, val => pure val
  | shift :: rest, i, val => do
    let byte ← Reading.byte i
    gather rest (i + 1) (val ||| byte.toBitVec.setWidth w <<< shift)

/-- `ByteReader<T, B, false>::ReadBigEndian(data)` and `ReadLittleEndian(data)`. -/
def readUnsigned (w : Nat) (e : Endian) (B : Nat) : Reading (BitVec w) := gather (shifts e B) 0 0

/-- `1 << shift`, where one is an `int`. -/
def shiftOne (shift : Nat) : Option (BitVec 32) :=
  if shift < 32 then some (1#32 <<< shift) else none

/-- `SignExtend(val)`. -/
def signExtend (size B : Nat) (val : BitVec w) : Option (BitVec w) :=
  let kMaskBit := (val >>> ((B - 1) * 8)).setWidth 8
  if kMaskBit &&& 0x80#8 ≠ 0#8 then
    (shiftOne (B % size * 8)).map fun one =>
      let kUsedBitMask := (one - 1).signExtend w
      ~~~kUsedBitMask ||| val
  else some val

/-- `ReinterpretAsSigned(unsigned_val)`. -/
def reinterpretAsSigned (val : BitVec w) : BitVec w :=
  let kHighestBitMask := 1#w <<< (w - 1)
  if val &&& kHighestBitMask ≠ 0 then (val &&& ~~~kHighestBitMask) ||| kHighestBitMask else val

/-- `ByteReader<T, B>::ReadBigEndian(data)` and `ReadLittleEndian(data)`; `none` is undefined. -/
def read (T : IntType) (e : Endian) (B : Nat) : Reading (Option (BitVec (8 * T.size))) := do
  let val ← readUnsigned (8 * T.size) e B
  pure <|
    if T.signed then
      (if B < T.size then signExtend T.size B val else some val).map reinterpretAsSigned
    else some val

/-! ## The shifts -/

theorem mem_shifts {e : Endian} {B shift : Nat} :
    shift ∈ shifts e B ↔ ∃ i < B, shift = i * 8 := by
  have hbig : shifts .big B = (List.range B).map fun i => (B - 1 - i) * 8 := by
    unfold shifts
    split <;> first | rfl | simp_all
  have hlittle : shifts .little B = (List.range B).map fun i => i * 8 := by
    unfold shifts
    split <;> first | rfl | simp_all
  cases e with
  | big =>
    simp only [hbig, List.mem_map, List.mem_range]
    constructor
    · rintro ⟨i, hi, rfl⟩
      exact ⟨B - 1 - i, by omega, rfl⟩
    · rintro ⟨i, hi, rfl⟩
      exact ⟨B - 1 - i, by omega, by congr 1; omega⟩
  | little =>
    simp only [hlittle, List.mem_map, List.mem_range, eq_comm]

theorem length_shifts (e : Endian) (B : Nat) : (shifts e B).length = B := by
  unfold shifts
  split <;> simp

/-! ## What is read -/

theorem getLsbD_byteAt {signed : Bool} {val : BitVec w} {shift : Nat} (h : shift + 8 ≤ w)
    (k : Nat) :
    (byteAt signed val shift).toBitVec.getLsbD k = (decide (k < 8) && val.getLsbD (shift + k)) := by
  by_cases hk : k < 8
  · cases signed
    · simp [byteAt, hk]
    · simp [byteAt, hk, BitVec.getLsbD_sshiftRight, show ¬w ≤ k by omega,
        show shift + k < w by omega]
  · simp [byteAt, hk]

theorem reads_gather (mem : Nat → UInt8) (l : List Nat) (i : Nat) (val : BitVec w) :
    (gather l i val).reads mem = List.range' i l.length := by
  induction l generalizing i val with
  | nil => rfl
  | cons shift rest ih =>
    rw [gather, Reading.reads_bind, Reading.reads_byte, ih]
    rfl

theorem getLsbD_gather {mem : Nat → UInt8} {signed : Bool} {val acc : BitVec w} {l : List Nat}
    {i k : Nat} (hfits : ∀ shift ∈ l, shift + 8 ≤ w)
    (hmem : ∀ j shift, l[j]? = some shift → mem (i + j) = byteAt signed val shift) :
    ((gather l i acc).value mem).getLsbD k =
      (acc.getLsbD k || (decide (∃ shift ∈ l, shift ≤ k ∧ k < shift + 8) && val.getLsbD k)) := by
  induction l generalizing i acc with
  | nil => simp [gather]
  | cons shift rest ih =>
    rw [gather, Reading.value_bind, Reading.value_byte,
      ih (fun s hs => hfits s (List.mem_cons_of_mem _ hs))
        fun j s hs => by rw [Nat.add_assoc, Nat.add_comm 1, ← hmem (j + 1) s hs]]
    rw [show mem i = _ from hmem 0 shift rfl, BitVec.getLsbD_or, BitVec.getLsbD_shiftLeft,
      BitVec.getLsbD_setWidth, getLsbD_byteAt (hfits shift List.mem_cons_self)]
    have hw := hfits shift List.mem_cons_self
    by_cases hin : shift ≤ k ∧ k < shift + 8
    · have hbit : shift + (k - shift) = k := by omega
      have hhead : ∃ s ∈ shift :: rest, s ≤ k ∧ k < s + 8 := ⟨shift, List.mem_cons_self, hin⟩
      rw [decide_eq_true hhead, hbit]
      cases val.getLsbD k <;>
        simp [show k < w by omega, show k - shift < w by omega, show k - shift < 8 by omega, hin]
    · have hout : k < shift ∨ ¬k - shift < 8 := by omega
      rcases hout with hlt | hge
      · simp [hlt, show ¬shift ≤ k by omega]
      · simp [hge, show ¬k < shift + 8 by omega]

theorem value_readUnsigned {T : IntType} {e : Endian} {B : Nat} (hB : 8 * B ≤ w) (val : BitVec w)
    (data : Nat → UInt8) :
    (readUnsigned w e B).value (write T e B val data) = (val.setWidth (8 * B)).setWidth w := by
  refine BitVec.eq_of_getLsbD_eq fun k hk => ?_
  have hfits : ∀ shift ∈ shifts e B, shift + 8 ≤ w := by
    intro shift hmem
    obtain ⟨i, hi, rfl⟩ := mem_shifts.mp hmem
    omega
  have hbyte : (∃ shift ∈ shifts e B, shift ≤ k ∧ k < shift + 8) ↔ k < 8 * B := by
    constructor
    · rintro ⟨shift, hmem, hin⟩
      obtain ⟨i, hi, rfl⟩ := mem_shifts.mp hmem
      omega
    · intro hlt
      exact ⟨k / 8 * 8, mem_shifts.mpr ⟨k / 8, by omega, rfl⟩, by omega⟩
  have hmem : ∀ j shift, (shifts e B)[j]? = some shift →
      write T e B val data (0 + j) = byteAt T.signed val shift := by
    intro j shift hj
    rw [Nat.zero_add, write, hj]
  rw [readUnsigned, getLsbD_gather hfits hmem]
  simp [hbyte, hk]

/-! ## The sign -/

theorem reinterpretAsSigned_eq (val : BitVec w) : reinterpretAsSigned val = val := by
  have hmask : ∀ k, (1#w <<< (w - 1)).getLsbD k = (decide (k < w) && decide (k = w - 1)) := by
    intro k
    rw [BitVec.getLsbD_shiftLeft, BitVec.getLsbD_one]
    by_cases hk : k < w
    · simp only [hk, decide_true, Bool.true_and, ← Bool.decide_and]
      by_cases hkw : k = w - 1 <;> simp [hkw] <;> omega
    · simp [hk]
  unfold reinterpretAsSigned
  dsimp only
  split
  · next hbit =>
    refine BitVec.eq_of_getLsbD_eq fun k hk => ?_
    rw [BitVec.getLsbD_or, BitVec.getLsbD_and, BitVec.getLsbD_not, hmask]
    by_cases hkw : k = w - 1
    · have hmsb : val.getLsbD k = true := by
        by_contra hno
        refine hbit (BitVec.eq_of_getLsbD_eq fun j hj => ?_)
        rw [BitVec.getLsbD_and, hmask]
        by_cases hjw : j = k
        · simp [hjw, Bool.eq_false_iff.mpr hno]
        · simp [← hkw, hjw]
      rw [hmsb, decide_eq_true hk, decide_eq_true hkw]
      rfl
    · simp [hk, hkw]
  · rfl

theorem getLsbD_mask {n k : Nat} (hn : n < 32) (hk : k < w) :
    ((1#32 <<< n - 1).signExtend w).getLsbD k = decide (k < n) := by
  have hmask : 1#32 <<< n - 1 = BitVec.ofNat 32 (2 ^ n - 1) := by
    have hpow : 2 ^ n < 2 ^ 32 := Nat.pow_lt_pow_right (by decide) hn
    have hpos : 0 < 2 ^ n := Nat.two_pow_pos n
    refine BitVec.eq_of_toNat_eq ?_
    simp [BitVec.toNat_sub, Nat.shiftLeft_eq]
    omega
  have hbit : ∀ j, (BitVec.ofNat 32 (2 ^ n - 1)).getLsbD j = decide (j < n) := by
    intro j
    rw [BitVec.getLsbD_ofNat, Nat.testBit_two_pow_sub_one]
    by_cases hj : j < n
    · simp [hj, show j < 32 by omega]
    · simp [hj]
  rw [hmask, BitVec.getLsbD_signExtend, BitVec.msb_eq_getLsbD_last, hbit, hbit]
  by_cases hk32 : k < 32
  · simp [hk, hk32]
  · simp [hk, hk32, show ¬k < n by omega, show ¬31 < n by omega]

theorem signExtend_setWidth {size B : Nat} (hB : 0 < B) (hsize : B < size) (x : BitVec (8 * B))
    (hw : 8 * B < w) : signExtend size B (x.setWidth w) =
      if x.msb = true ∧ 4 ≤ B then none else some (x.signExtend w) := by
  have hbit : (((x.setWidth w) >>> ((B - 1) * 8)).setWidth 8 &&& 0x80#8 ≠ 0#8) ↔ x.msb = true := by
    rw [show 0x80#8 = BitVec.twoPow 8 7 from rfl, BitVec.and_twoPow, BitVec.msb_eq_getLsbD_last,
      BitVec.getLsbD_setWidth, BitVec.getLsbD_ushiftRight, BitVec.getLsbD_setWidth,
      show (B - 1) * 8 + 7 = 8 * B - 1 by omega, decide_eq_true (show 8 * B - 1 < w by omega)]
    cases x.getLsbD (8 * B - 1) <;> decide
  rw [signExtend]
  by_cases hmsb : x.msb = true
  · rw [if_pos (hbit.mpr hmsb), Nat.mod_eq_of_lt hsize]
    by_cases h4 : 4 ≤ B
    · rw [shiftOne, if_neg (by omega), if_pos ⟨hmsb, h4⟩, Option.map_none]
    · rw [shiftOne, if_pos (by omega), if_neg fun hand => h4 hand.2, Option.map_some]
      refine congrArg some (BitVec.eq_of_getLsbD_eq fun k hk => ?_)
      rw [BitVec.getLsbD_or, BitVec.getLsbD_not, getLsbD_mask (by omega) hk,
        BitVec.getLsbD_signExtend, BitVec.getLsbD_setWidth, hmsb]
      by_cases hkB : k < 8 * B
      · simp [hk, hkB, show k < B * 8 by omega]
      · simp [hk, hkB, show ¬k < B * 8 by omega]
  · rw [if_neg (mt hbit.mp hmsb), if_neg fun hand => hmsb hand.1,
      BitVec.signExtend_eq_setWidth_of_msb_false (Bool.eq_false_iff.mpr hmsb)]

/-! ## Round trips -/

/-- Reading what was written gives it back, and both touch exactly the `B` bytes behind the
pointer. -/
structure RoundTrips (T : IntType) (e : Endian) (B : Nat) (v : Int) : Prop where
  returns : ∀ data, ((read T e B).value
    (write T e B (BitVec.ofInt (8 * T.size) v) data)).map T.toInt = some v
  reads : ∀ mem, (read T e B).reads mem = List.range B
  keeps : ∀ (val : BitVec (8 * T.size)) (data : Nat → UInt8) (i : Nat), B ≤ i →
    write T e B val data i = data i
  writes : ∀ (val : BitVec (8 * T.size)) (data data' : Nat → UInt8) (i : Nat), i < B →
    write T e B val data i = write T e B val data' i

variable {T : IntType} {B : Nat} {v : Int}

theorem IntType.Admitted.le_size (hT : T.Standard) (hB : T.Admitted B) :
    0 < B ∧ B ≤ T.size ∧ (B < T.size → B ≤ 3 ∨ T.size = 8) := by
  unfold IntType.Standard at hT
  unfold IntType.Admitted at hB
  split at hB <;> omega

theorem toInt_ofInt_of_fits {n : Nat} (hn : 0 < n) (hlow : -2 ^ (n - 1) ≤ v)
    (hhigh : v < 2 ^ (n - 1)) : (BitVec.ofInt n v).toInt = v := by
  have hpow : ((2 ^ n : Nat) : Int) = 2 * 2 ^ (n - 1) := by
    obtain ⟨m, rfl⟩ := Nat.exists_eq_succ_of_ne_zero hn.ne'
    rw [Nat.succ_sub_one, Nat.pow_succ']
    simp
  rw [BitVec.toInt_ofInt]
  exact Int.bmod_eq_of_le (by omega) (by omega)

theorem value_read (hT : T.Standard) (hB : T.Admitted B) (hv : T.Fits B v) (e : Endian)
    (data : Nat → UInt8) :
    ((read T e B).value (write T e B (BitVec.ofInt (8 * T.size) v) data)).map T.toInt =
      if T.signed = true ∧ B < T.size ∧ v < 0 ∧ 4 ≤ B then none else some v := by
  obtain ⟨hpos, hle, -⟩ := hB.le_size hT
  rw [read, Reading.value_bind, Reading.value_pure, value_readUnsigned (by omega)]
  unfold IntType.Fits at hv
  unfold IntType.toInt
  cases hs : T.signed with
  | false =>
    simp only [hs, Bool.false_eq_true, if_false, false_and] at hv ⊢
    obtain ⟨n, rfl⟩ := Int.eq_ofNat_of_zero_le hv.1
    have hn : n < 2 ^ (8 * B) := by exact_mod_cast hv.2
    have hn' : n < 2 ^ (8 * T.size) :=
      lt_of_lt_of_le hn (Nat.pow_le_pow_right (by decide) (by omega))
    simp [Nat.mod_eq_of_lt hn, Nat.mod_eq_of_lt hn']
  | true =>
    simp only [hs, if_true, true_and] at hv ⊢
    have hx : (BitVec.ofInt (8 * B) v).toInt = v := toInt_ofInt_of_fits (by omega) hv.1 hv.2
    have hval : BitVec.ofInt (8 * T.size) v =
        (BitVec.ofInt (8 * B) v).signExtend (8 * T.size) := by
      have hpow : (2 : Int) ^ (8 * B - 1) ≤ 2 ^ (8 * T.size - 1) := by
        exact_mod_cast Nat.pow_le_pow_right (show 2 > 0 by decide)
          (show 8 * B - 1 ≤ 8 * T.size - 1 by omega)
      refine BitVec.eq_of_toInt_eq ?_
      rw [BitVec.toInt_signExtend_of_le (by omega), hx,
        toInt_ofInt_of_fits (by omega) (by omega) (by omega)]
    have hlow : (BitVec.ofInt (8 * T.size) v).setWidth (8 * B) = BitVec.ofInt (8 * B) v := by
      rw [hval]
      refine BitVec.eq_of_getLsbD_eq fun i hi => ?_
      rw [BitVec.getLsbD_setWidth, BitVec.getLsbD_signExtend, if_pos hi, decide_eq_true hi,
        decide_eq_true (show i < 8 * T.size by omega), Bool.true_and, Bool.true_and]
    have hmsb : (BitVec.ofInt (8 * B) v).msb = true ∧ 4 ≤ B ↔ v < 0 ∧ 4 ≤ B := by
      rw [BitVec.msb_eq_toInt, hx, decide_eq_true_iff]
    rw [hlow]
    by_cases hlt : B < T.size
    · rw [if_pos hlt, signExtend_setWidth hpos hlt _ (by omega)]
      by_cases hneg : v < 0 ∧ 4 ≤ B
      · rw [if_pos (hmsb.mpr hneg), if_pos ⟨hlt, hneg⟩]
        rfl
      · rw [if_neg (mt hmsb.mp hneg), if_neg fun hand => hneg hand.2]
        simp only [Option.map_some, reinterpretAsSigned_eq]
        rw [BitVec.toInt_signExtend_of_le (by omega), hx]
    · obtain rfl : B = T.size := by omega
      rw [if_neg hlt, if_neg fun hand => hlt hand.1]
      simp [reinterpretAsSigned_eq, hx]

/-- **What was written is read back**, by every type and width, except for the negative values
whose sign is extended from four bytes or more: `SignExtend` shifts an `int` then. -/
theorem read_write_iff (hT : T.Standard) (hB : T.Admitted B) (hv : T.Fits B v) (e : Endian) :
    RoundTrips T e B v ↔ ¬(T.signed = true ∧ T.size = 8 ∧ 4 ≤ B ∧ B < 8 ∧ v < 0) := by
  have hsize := (hB.le_size hT).2.2
  constructor
  · rintro h ⟨hs, h8, h4, hlt, hneg⟩
    have hread := h.returns fun _ => 0
    rw [value_read hT hB hv e, if_pos ⟨hs, by omega, hneg, h4⟩] at hread
    cases hread
  · intro h
    refine ⟨fun data => ?_, fun mem => ?_, fun val data i hi => ?_, fun val data data' i hi => ?_⟩
    · rw [value_read hT hB hv e, if_neg]
      rintro ⟨hs, hlt, hneg, h4⟩
      exact h ⟨hs, by omega, h4, by omega, hneg⟩
    · rw [read, Reading.reads_bind, readUnsigned, reads_gather, length_shifts, Reading.reads_pure,
        List.append_nil, List.range_eq_range']
    · rw [write, List.getElem?_eq_none (by rw [length_shifts]; exact hi)]
    · rw [write, write, List.getElem?_eq_getElem (by rw [length_shifts]; exact hi)]

theorem read_write_iff_int24 : RoundTrips ⟨4, true⟩ .big 3 (-5) ↔
    ¬(true = true ∧ 4 = 8 ∧ 4 ≤ 3 ∧ 3 < 8 ∧ (-5 : Int) < 0) :=
  read_write_iff (T := ⟨4, true⟩) (B := 3) (Or.inr (Or.inr (Or.inl rfl)))
    (by decide : 0 < 3 ∧ 3 < 4) (by decide : -2 ^ 23 ≤ (-5 : Int) ∧ (-5 : Int) < 2 ^ 23) .big

/-- Minus one in five bytes of an `int64_t` is not read back. -/
theorem minus_one_in_five_bytes :
    ¬∀ (T : IntType) (B : Nat) (v : Int) (e : Endian),
      T.Standard → T.Admitted B → T.Fits B v → RoundTrips T e B v := by
  intro h
  have hread := (h ⟨8, true⟩ 5 (-1) .big (Or.inr (Or.inr (Or.inr rfl)))
    (by decide : 0 < 5 ∧ 5 < 8)
    (by decide : -2 ^ 39 ≤ (-1 : Int) ∧ (-1 : Int) < 2 ^ 39)).returns fun _ => 0
  revert hread
  decide

end NaiveRtc.ByteIo
