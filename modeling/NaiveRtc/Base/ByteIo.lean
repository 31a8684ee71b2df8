import NaiveRtc.Lib.BitField

/-!
# Big-endian integers in byte strings

The model of `rtc/base/memory/byte_io_reader.hpp` and `byte_io_writer.hpp`: `B`
bytes of an unsigned integer, or of a signed one in two's complement with sign
extension on the way in.

* `writeBigEndian`, `readBigEndian` — `ByteWriter` and `ByteReader`, unsigned.
* `writeSigned`, `readSigned` — the same for signed types.
* `readBigEndian_write`, `readSigned_write` — what is read is what was written, cut
  to the width.
-/

namespace NaiveRtc.ByteIo

open BitField

/-- `ByteWriter<T, B>::WriteBigEndian`, the bytes it writes. -/
def writeBigEndian (B val : Nat) : List UInt8 :=
  (List.range B).map fun i => UInt8.ofNat (val >>> place 8 B i)

/-- `ByteReader<T, B>::ReadBigEndian` of an unsigned type. -/
def readBigEndian (B : Nat) (data : List UInt8) : Nat :=
  orFields 8 B (fun i => (data.getD i 0).toNat) 0 B

/-- `ByteWriter<T, B>::WriteBigEndian` of a signed type (`ReinterpretAsUnsigned`). -/
def writeSigned (B : Nat) (val : Int) : List UInt8 :=
  writeBigEndian B (BitVec.ofInt (8 * B) val).toNat

/-- `ByteReader<T, B>::ReadBigEndian` of a signed type (`SignExtend`, then
`ReinterpretAsSigned`). -/
def readSigned (B : Nat) (data : List UInt8) : Int :=
  (BitVec.ofNat (8 * B) (readBigEndian B data)).toInt

@[simp] theorem length_writeBigEndian (B val : Nat) : (writeBigEndian B val).length = B := by
  simp [writeBigEndian]

@[simp] theorem length_writeSigned (B : Nat) (val : Int) : (writeSigned B val).length = B :=
  length_writeBigEndian B _

theorem getD_writeBigEndian {B i : Nat} (val : Nat) (rest : List UInt8) (hi : i < B) :
    ((writeBigEndian B val ++ rest).getD i 0).toNat = field 8 B val i := by
  rw [List.getD_append _ _ _ _ (by simpa using hi)]
  simp [writeBigEndian, hi, List.getD_eq_getElem?_getD, field]

@[simp] theorem readBigEndian_write (B val : Nat) (rest : List UInt8) :
    readBigEndian B (writeBigEndian B val ++ rest) = val % 2 ^ (8 * B) := by
  unfold readBigEndian
  rw [orFields_congr (fun i hi => getD_writeBigEndian val rest hi)]
  exact orFields_field (by omega)

theorem writeBigEndian_read {B : Nat} {bytes : List UInt8} (hlen : bytes.length = B) :
    writeBigEndian B (readBigEndian B bytes) = bytes := by
  refine List.ext_getElem (by simp [hlen]) fun i hi hi' => ?_
  have hB : i < B := by simpa using hi
  have hbyte : field 8 B (readBigEndian B bytes) i = (bytes.getD i 0).toNat :=
    field_orFields (Nat.le_refl B) hB (fun j _ => (bytes.getD j 0).toNat_lt) (Nat.zero_mod _)
  apply UInt8.toNat_inj.mp
  simp only [writeBigEndian, List.getElem_map, List.getElem_range, UInt8.toNat_ofNat']
  rw [List.getD_eq_getElem _ _ hi'] at hbyte
  exact hbyte

/-- The signed case: what is read is the written value modulo the width, in the
range of the signed type. -/
theorem readSigned_write (B : Nat) (val : Int) (rest : List UInt8) :
    readSigned B (writeSigned B val ++ rest) = val.bmod (2 ^ (8 * B)) := by
  unfold readSigned writeSigned
  rw [readBigEndian_write, Nat.mod_eq_of_lt (BitVec.isLt _), BitVec.ofNat_toNat,
    BitVec.setWidth_eq, BitVec.toInt_ofInt]

theorem readBigEndian_lt (B : Nat) (data : List UInt8) : readBigEndian B data < 2 ^ (8 * B) := by
  refine Nat.lt_pow_two_of_testBit _ fun k hk => ?_
  unfold readBigEndian
  rw [testBit_above (le_refl B) hk fun i _ => (data.getD i 0).toNat_lt, Nat.zero_testBit]

theorem readBigEndian_take (B : Nat) (data : List UInt8) :
    readBigEndian B (data.take B) = readBigEndian B data := by
  refine orFields_congr (fun i hi => ?_)
  rw [List.getD_eq_getElem?_getD, List.getD_eq_getElem?_getD, List.getElem?_take, if_pos hi]

theorem getD_drop (bytes : List UInt8) (offset i : Nat) :
    (bytes.drop offset).getD i 0 = bytes.getD (offset + i) 0 := by
  rw [List.getD_eq_getElem?_getD, List.getD_eq_getElem?_getD, List.getElem?_drop]

theorem readBigEndian_drop_congr {B offset : Nat} {bytes bytes' : List UInt8}
    (h : ∀ i < B, bytes.getD (offset + i) 0 = bytes'.getD (offset + i) 0) :
    readBigEndian B (bytes.drop offset) = readBigEndian B (bytes'.drop offset) := by
  refine orFields_congr fun i hi => ?_
  rw [getD_drop, getD_drop, h i hi]

theorem forall_byte {P : UInt8 → Prop} (h : ∀ n : Fin 256, P (UInt8.ofNat n)) (b : UInt8) :
    P b := by
  have hb := h ⟨b.toNat, b.toNat_lt⟩
  rwa [UInt8.ofNat_toNat] at hb

end NaiveRtc.ByteIo
