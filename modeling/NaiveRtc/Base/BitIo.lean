import Mathlib.Data.List.GetD
import Mathlib.Tactic.SplitIfs

/-!
# Reading and writing bits

The model of `rtc/base/memory/bit_io*.{hpp,cpp}`: values of up to 64 bits at any bit position
of a byte buffer, most significant bit first, and the Exp-Golomb codes of H.264.

* `Cursor` — the position, with the functions that the two classes share.
* `BitWriter.writeBits`, `writeExpGolomb`, `writeSignedExpGolomb`.
* `BitReader.peekBits`, `readBits`, `readExpGolomb`, `readSignedExpGolomb`.
* `bitAt` — the buffer as a sequence of bits, and what the byte operations do to it.
-/

namespace NaiveRtc.BitIo

/-! ## Bytes -/

/-- `RightMostBits`. -/
def rightMostBits (byte : BitVec 8) (bitCount : Nat) : BitVec 8 :=
  byte &&& BitVec.ofNat 8 ((1 <<< bitCount) - 1)

/-- `LeftMostBits`. -/
def leftMostBits (byte : BitVec 8) (bitCount : Nat) : BitVec 8 :=
  let shift := 8 - bitCount
  (byte &&& (0xFF#8 <<< shift)) >>> shift

/-- `LeftMostByte`. -/
def leftMostByte (val : BitVec 64) : BitVec 8 := (val >>> 56).setWidth 8

/-- `CountBits`: the loop shifts until nothing is left. -/
def countBits (val : BitVec 64) : Nat := loop 64 val
where
  /-- At most `fuel` rounds of the loop. -/
  loop : Nat → BitVec 64 → Nat
    | 0, _ => 0
    | fuel + 1, val => if val = 0 then 0 else loop fuel (val >>> 1) + 1

/-- `WritePartialByte`. -/
def writePartialByte (source : BitVec 8) (sourceBitCount : Nat) (target : BitVec 8)
    (targetBitOffset : Nat) : BitVec 8 :=
  let mask := (0xFF#8 <<< (8 - sourceBitCount)) >>> targetBitOffset
  (target &&& ~~~mask) ||| (source >>> targetBitOffset)

/-! ## Positions -/

/-- `byte_offset_` and `bit_offset_`. -/
structure Cursor where
  byteOffset : Nat
  bitOffset : Nat
  deriving DecidableEq

namespace Cursor

/-- `RemainingBitCount()`. -/
def remainingBitCount (byteCount : Nat) (c : Cursor) : Nat :=
  (byteCount - c.byteOffset) * 8 - c.bitOffset

/-- `ConsumeBits`. -/
def consumeBits (byteCount bitCount : Nat) (c : Cursor) : Bool × Cursor :=
  if c.remainingBitCount byteCount < bitCount then (false, c)
  else
    let newBitOffset := c.bitOffset + bitCount
    (true, ⟨c.byteOffset + newBitOffset / 8, newBitOffset % 8⟩)

/-- `Seek`. -/
def seek (byteCount byteOffset bitOffset : Nat) (c : Cursor) : Bool × Cursor :=
  if byteCount < byteOffset ∨ 7 < bitOffset ∨ (byteOffset = byteCount ∧ 0 < bitOffset) then
    (false, c)
  else (true, ⟨byteOffset, bitOffset⟩)

end Cursor

/-! ## Writing -/

/-- `BitWriter`: `bytes_`, `byte_count_` and the position. -/
structure BitWriter where
  bytes : List (BitVec 8)
  cursor : Cursor
  deriving DecidableEq

namespace BitWriter

/-- The full bytes in the middle: the buffer, the index behind them, the value and the bits
that are left. -/
def writeFullBytes (bytes : List (BitVec 8)) (index : Nat) (val : BitVec 64) :
    Nat → List (BitVec 8) × Nat × BitVec 64 × Nat
  | bitCount + 8 =>
    writeFullBytes (bytes.set index (leftMostByte val)) (index + 1) (val <<< 8) bitCount
  | bitCount => (bytes, index, val, bitCount)

/-- `ConsumeBits` at the end of a write. -/
def consume (w : BitWriter) (bytes : List (BitVec 8)) (bitCount : Nat) : Bool × BitWriter :=
  let r := w.cursor.consumeBits bytes.length bitCount
  (r.1, ⟨bytes, r.2⟩)

/-- `WriteBits`. -/
def writeBits (w : BitWriter) (val : BitVec 64) (bitCount : Nat) : Bool × BitWriter :=
  if w.cursor.remainingBitCount w.bytes.length < bitCount then (false, w)
  else
    let index := w.cursor.byteOffset
    let val := val <<< (64 - bitCount)
    let remainingBitsInCurrentByte := 8 - w.cursor.bitOffset
    let bitsInFirstByte := min bitCount remainingBitsInCurrentByte
    let bytes := w.bytes.set index (writePartialByte (leftMostByte val) bitsInFirstByte
      (w.bytes.getD index 0) w.cursor.bitOffset)
    if bitCount ≤ remainingBitsInCurrentByte then w.consume bytes bitCount
    else
      let (bytes, index, val, left) :=
        writeFullBytes bytes (index + 1) (val <<< bitsInFirstByte) (bitCount - bitsInFirstByte)
      let bytes := if 0 < left then
        bytes.set index (writePartialByte (leftMostByte val) left (bytes.getD index 0) 0)
      else bytes
      w.consume bytes bitCount

/-- `WriteExpGolomb`. -/
def writeExpGolomb (w : BitWriter) (val : BitVec 32) : Bool × BitWriter :=
  if val = BitVec.allOnes 32 then (false, w)
  else
    let valToEncode := val.setWidth 64 + 1
    w.writeBits valToEncode (countBits valToEncode * 2 - 1)

/-- `WriteSignedExpGolomb`. -/
def writeSignedExpGolomb (w : BitWriter) (val : BitVec 32) : Bool × BitWriter :=
  if val = 0 then w.writeExpGolomb 0
  else if 0 < val.toInt then w.writeExpGolomb (val * 2 - 1)
  else if val = BitVec.intMin 32 then (false, w)
  else w.writeExpGolomb (-val * 2)

end BitWriter

/-! ## Reading -/

/-- `BitReader`: `bytes_`, `byte_count_` and the position. -/
structure BitReader where
  bytes : List (BitVec 8)
  cursor : Cursor
  deriving DecidableEq

namespace BitReader

/-- The full bytes in the middle of a read into a `T` of `w` bits: the index behind them, the
bits read and how many are left. -/
def readFullBytes {w : Nat} (bytes : List (BitVec 8)) (index : Nat) (bits : BitVec w) :
    Nat → Nat × BitVec w × Nat
  | bitCount + 8 =>
    readFullBytes bytes (index + 1) ((bits <<< 8) ||| (bytes.getD index 0).setWidth w) bitCount
  | bitCount => (index, bits, bitCount)

/-- `PeekBits` into a `T` of `w` bits. -/
def peekBits (w : Nat) (r : BitReader) (bitCount : Nat) : Option (BitVec w) :=
  if r.cursor.remainingBitCount r.bytes.length < bitCount ∨ w < bitCount then none
  else
    let index := r.cursor.byteOffset
    let remainingBitsInCurrByte := 8 - r.cursor.bitOffset
    let bits : BitVec w := (rightMostBits (r.bytes.getD index 0) remainingBitsInCurrByte).setWidth w
    if bitCount < remainingBitsInCurrByte then
      some ((leftMostBits (bits.setWidth 8) (r.cursor.bitOffset + bitCount)).setWidth w)
    else
      let (index, bits, left) :=
        readFullBytes r.bytes (index + 1) bits (bitCount - remainingBitsInCurrByte)
      if 0 < left then
        some ((bits <<< left) ||| (leftMostBits (r.bytes.getD index 0) left).setWidth w)
      else some bits

/-- `ConsumeBits`. -/
def consumeBits (r : BitReader) (bitCount : Nat) : Bool × BitReader :=
  let c := r.cursor.consumeBits r.bytes.length bitCount
  (c.1, ⟨r.bytes, c.2⟩)

/-- `ReadBits` into a `T` of `w` bits; none is the answer false. -/
def readBits (w : Nat) (r : BitReader) (bitCount : Nat) : Option (BitVec w) × BitReader :=
  match r.peekBits w bitCount with
  | none => (none, r)
  | some val =>
    if (r.consumeBits bitCount).1 then (some val, (r.consumeBits bitCount).2) else (none, r)

/-- The leading zeros of an Exp-Golomb code: how many, and the reader behind them. -/
def skipZeros : Nat → BitReader → Nat × BitReader
  | 0, r => (0, r)
  | fuel + 1, r =>
    if r.peekBits 32 1 = some 0 then
      let (count, r) := skipZeros fuel (r.consumeBits 1).2
      (count + 1, r)
    else (0, r)

/-- `ReadExpGolomb`; the loop over the zeros ends with the buffer. -/
def readExpGolomb (r : BitReader) : Option (BitVec 32) × BitReader :=
  let (zeroBitCount, behind) := skipZeros (r.cursor.remainingBitCount r.bytes.length + 1) r
  let valueBitCount := zeroBitCount + 1
  let reset : Option (BitVec 32) × BitReader :=
    (none, ⟨r.bytes, (behind.cursor.seek r.bytes.length r.cursor.byteOffset r.cursor.bitOffset).2⟩)
  if 32 < valueBitCount then reset
  else
    match behind.readBits 32 valueBitCount with
    | (none, _) => reset
    | (some value, r) => (some (value - 1), r)

/-- `ReadSignedExpGolomb`. -/
def readSignedExpGolomb (r : BitReader) : Option (BitVec 32) × BitReader :=
  match r.readExpGolomb with
  | (none, r) => (none, r)
  | (some unsignedVal, r) =>
    (some (if unsignedVal &&& 1 = 0 then -(unsignedVal / 2) else (unsignedVal + 1) / 2), r)

end BitReader

end NaiveRtc.BitIo
