import NaiveRtc.Base.BitIo
import Mathlib.Data.Nat.Bitwise

/-!
# What is written is read

The buffer as a sequence of bits: a write replaces a range of it, a read returns one.

* `bitAt` — the bits of a buffer.
* `writeBits_spec`, `readBits_spec` — the two operations on the bits.
* `Item`, `code` — a value to write, and the bits it is written as.
* `bit_io_round_trip` — any values written one after the other are read back.
-/

namespace NaiveRtc.BitIo

/-- Bit `i` of a buffer, most significant bits first. -/
def bitAt (bytes : List (BitVec 8)) (i : Nat) : Bool := (bytes.getD (i / 8) 0).getMsbD (i % 8)

/-! ## Bytes -/

variable {j : Nat}

theorem getMsbD_leftMostByte (val : BitVec 64) (hj : j < 8) :
    (leftMostByte val).getMsbD j = val.getMsbD j := by
  rw [leftMostByte, BitVec.getMsbD_setWidth, BitVec.getMsbD_ushiftRight,
    decide_eq_true (show j + 64 - 8 < 64 by omega),
    decide_eq_false (show ¬ j + 64 - 8 < 56 by omega), show j + 64 - 8 - 56 = j by omega]
  rfl

theorem getMsbD_writePartialByte {source target : BitVec 8} {count offset : Nat}
    (hsource : ∀ k, count ≤ k → k < 8 - offset → source.getMsbD k = false) (hj : j < 8) :
    (writePartialByte source count target offset).getMsbD j =
      if offset ≤ j ∧ j < offset + count then source.getMsbD
        (j - offset) else target.getMsbD j := by
  have hmask : ((0xFF#8 <<< (8 - count)) >>> offset).getMsbD j =
      decide (offset ≤ j ∧ j < offset + count) := by
    rw [BitVec.getMsbD_ushiftRight, BitVec.getMsbD_shiftLeft,
      show (0xFF#8) = BitVec.allOnes 8 by decide, BitVec.getMsbD_allOnes, Bool.eq_iff_iff]
    simp only [Bool.and_eq_true, Bool.not_eq_true', decide_eq_false_iff_not, decide_eq_true_eq]
    omega
  rw [writePartialByte, BitVec.getMsbD_or, BitVec.getMsbD_and, BitVec.getMsbD_not, hmask,
    BitVec.getMsbD_ushiftRight]
  split_ifs with hin
  · simp [hin, hj]
  · simp only [hj, hin, decide_true, decide_false, Bool.not_false, Bool.and_true, Bool.true_and]
    by_cases hbefore : j < offset
    · simp [hbefore]
    · rw [hsource (j - offset) (by omega) (by omega), Bool.and_false, Bool.or_false]

theorem getLsbD_rightMostBits (byte : BitVec 8) (n k : Nat) :
    (rightMostBits byte n).getLsbD k = (decide (k < n) && byte.getLsbD k) := by
  rw [rightMostBits, BitVec.getLsbD_and, BitVec.getLsbD_ofNat, Nat.one_shiftLeft,
    Nat.testBit_two_pow_sub_one]
  by_cases hk : k < 8
  · simp [hk, Bool.and_comm]
  · simp [BitVec.getLsbD_of_ge byte k (by omega)]

variable {n : Nat}

theorem getLsbD_leftMostBits (byte : BitVec 8) (hn : n ≤ 8) (k : Nat) :
    (leftMostBits byte n).getLsbD k = (decide (k < n) && byte.getLsbD (8 - n + k)) := by
  rw [leftMostBits, BitVec.getLsbD_ushiftRight, BitVec.getLsbD_and, BitVec.getLsbD_shiftLeft,
    show (0xFF#8) = BitVec.allOnes 8 by decide, BitVec.getLsbD_allOnes]
  by_cases hk : k < n
  · simp [hk, show 8 - n + k < 8 by omega, show k < 8 by omega]
  · simp [hk, show ¬ 8 - n + k < 8 by omega]

/-! ## Bits of a buffer -/

variable {bytes : List (BitVec 8)} {index i : Nat}

theorem bitAt_set (hindex : index < bytes.length) (byte : BitVec 8) :
    bitAt (bytes.set index byte) i =
      if 8 * index ≤ i ∧ i < 8 * (index + 1) then byte.getMsbD (i - 8 * index)
      else bitAt bytes i := by
  unfold bitAt
  by_cases hi : 8 * index ≤ i ∧ i < 8 * (index + 1)
  · rw [if_pos hi, show i / 8 = index by omega, show i % 8 = i - 8 * index by omega,
      List.getD_eq_getElem _ _ (by rwa [List.length_set]), List.getElem_set_self]
  · rw [if_neg hi, List.getD_eq_getElem?_getD, List.getElem?_set_ne (by omega),
      ← List.getD_eq_getElem?_getD]

theorem getMsbD_getD (hj : j < 8) :
    (bytes.getD index 0).getMsbD j = bitAt bytes (8 * index + j) := by
  rw [bitAt, show (8 * index + j) / 8 = index by omega, show (8 * index + j) % 8 = j by omega]

theorem getLsbD_getD (k : Nat) :
    (bytes.getD index 0).getLsbD k = (decide (k < 8) && bitAt bytes (8 * index + 7 - k)) := by
  by_cases hk : k < 8
  · rw [BitVec.getLsbD_eq_getMsbD, getMsbD_getD (by omega),
      show 8 * index + (8 - 1 - k) = 8 * index + 7 - k by omega]
  · rw [BitVec.getLsbD_of_ge _ _ (by omega), decide_eq_false hk, Bool.false_and]

/-! ## Positions -/

namespace Cursor

/-- The position in bits. -/
def position (c : Cursor) : Nat := 8 * c.byteOffset + c.bitOffset

/-- Inside the buffer or at its end; what `Seek` accepts. -/
structure Inside (byteCount : Nat) (c : Cursor) : Prop where
  bit_lt : c.bitOffset < 8
  position_le : c.position ≤ 8 * byteCount

variable {byteCount : Nat} {c : Cursor}

theorem Inside.remaining_eq (h : c.Inside byteCount) :
    c.remainingBitCount byteCount = 8 * byteCount - c.position := by
  have := h.position_le
  unfold remainingBitCount position
  omega

theorem inside_of_seek {byteOffset bitOffset : Nat}
    (h : (c.seek byteCount byteOffset bitOffset).1 = true) :
    Inside byteCount ⟨byteOffset, bitOffset⟩ := by
  rw [seek] at h
  split_ifs at h with hout
  exact ⟨by dsimp only; omega, by dsimp only [position]; omega⟩

theorem seek_inside (h : c.Inside byteCount) (c' : Cursor) :
    (c'.seek byteCount c.byteOffset c.bitOffset).2 = c := by
  have hbit := h.bit_lt
  have hpos := h.position_le
  unfold position at hpos
  rw [seek, if_neg (by omega)]

theorem consumeBits_of_le {n : Nat} (h : c.Inside byteCount) (hn : c.position + n ≤ 8 * byteCount) :
    ∃ c', c.consumeBits byteCount n = (true, c') ∧ c'.Inside byteCount ∧
      c'.position = c.position + n := by
  have hrem := h.remaining_eq
  refine ⟨_, by rw [consumeBits, if_neg (by omega)], ?_, ?_⟩
  · refine ⟨Nat.mod_lt _ (by decide), ?_⟩
    unfold position at hn ⊢
    dsimp only
    omega
  · unfold position
    dsimp only
    omega

end Cursor

theorem Cursor.eq_of_position {c c' : Cursor} (h : c.Inside n) (h' : c'.Inside n)
    (hpos : c.position = c'.position) : c = c' := by
  have := h.bit_lt
  have := h'.bit_lt
  unfold Cursor.position at hpos
  cases c
  cases c'
  simp only [Cursor.mk.injEq] at *
  omega

/-! ## Writing -/

/-- The bits of a buffer after `val` was written at `start`, its first `n` bits. -/
def Overwritten (bytes bytes' : List (BitVec 8)) (start n : Nat) (val : BitVec 64) : Prop :=
  bytes'.length = bytes.length ∧ ∀ i, bitAt bytes' i =
    if start ≤ i ∧ i < start + n then val.getMsbD (i - start) else bitAt bytes i

variable {val : BitVec 64}

theorem Overwritten.trans {bytes bytes' bytes'' : List (BitVec 8)} {start n k : Nat}
    (h : Overwritten bytes bytes' start n val)
    (h' : Overwritten bytes' bytes'' (start + n) k (val <<< n)) :
    Overwritten bytes bytes'' start (n + k) val := by
  refine ⟨h'.1.trans h.1, fun i => ?_⟩
  rw [h'.2, h.2, BitVec.getMsbD_shiftLeft]
  split_ifs with h₁ h₂ h₃ h₃ h₃
  · exact congrArg val.getMsbD (by omega)
  · omega
  · rfl
  · omega
  · omega
  · rfl

theorem overwritten_zero (bytes : List (BitVec 8)) (start : Nat) (val : BitVec 64) :
    Overwritten bytes bytes start 0 val :=
  ⟨rfl, fun i => by rw [if_neg (by omega)]⟩

theorem overwritten_partial (val : BitVec 64) (offset count : Nat) (hindex : index < bytes.length)
    (hcount : offset + count ≤ 8)
    (hval : ∀ k, count ≤ k → k < 8 - offset → val.getMsbD k = false) :
    Overwritten bytes (bytes.set index (writePartialByte (leftMostByte val) count
      (bytes.getD index 0) offset)) (8 * index + offset) count val := by
  refine ⟨List.length_set .., fun i => ?_⟩
  rw [bitAt_set hindex]
  by_cases hbyte : 8 * index ≤ i ∧ i < 8 * (index + 1)
  · rw [if_pos hbyte, getMsbD_writePartialByte _ (by omega), getMsbD_getD (by omega),
      show 8 * index + (i - 8 * index) = i by omega]
    · split_ifs with h₁ h₂ h₂
      · rw [getMsbD_leftMostByte _ (by omega)]
        exact congrArg val.getMsbD (by omega)
      · omega
      · omega
      · rfl
    · intro k hk hk'
      rw [getMsbD_leftMostByte _ (by omega), hval k hk hk']
  · rw [if_neg hbyte, if_neg (by omega)]

theorem overwritten_full (hindex : index < bytes.length) :
    Overwritten bytes (bytes.set index (leftMostByte val)) (8 * index) 8 val := by
  refine ⟨List.length_set .., fun i => ?_⟩
  rw [bitAt_set hindex, show 8 * (index + 1) = 8 * index + 8 by omega]
  split_ifs with h
  · exact getMsbD_leftMostByte val (by omega)
  · rfl

theorem writeFullBytes_spec (bytes : List (BitVec 8)) (index : Nat) (val : BitVec 64) (n : Nat)
    (hindex : index + n / 8 ≤ bytes.length) :
    ∃ bytes', BitWriter.writeFullBytes bytes index val n =
        (bytes', index + n / 8, val <<< (8 * (n / 8)), n % 8) ∧
      Overwritten bytes bytes' (8 * index) (8 * (n / 8)) val := by
  fun_induction BitWriter.writeFullBytes bytes index val n with
  | case1 bytes index val n ih =>
    have hdiv : (n + 8) / 8 = n / 8 + 1 := by omega
    obtain ⟨bytes', heq, hover⟩ := ih (by rw [List.length_set]; omega)
    refine ⟨bytes', ?_, ?_⟩
    · rw [heq, hdiv, ← BitVec.shiftLeft_add, show 8 + 8 * (n / 8) = 8 * (n / 8 + 1) by omega,
        show n % 8 = (n + 8) % 8 by omega, show index + 1 + n / 8 = index + (n / 8 + 1) by omega]
    · rw [hdiv, show 8 * (n / 8 + 1) = 8 + 8 * (n / 8) by omega]
      exact (overwritten_full (by omega)).trans hover
  | case2 bytes index val n hn =>
    have hsmall : n < 8 := by
      by_contra hge
      exact hn (n - 8) (by omega)
    rw [Nat.div_eq_of_lt hsmall, Nat.mod_eq_of_lt hsmall]
    exact ⟨bytes, by rw [Nat.mul_zero, BitVec.shiftLeft_zero]; rfl, overwritten_zero ..⟩

theorem getMsbD_pushed (val : BitVec 64) (hn : n ≤ 64) (j : Nat) :
    (val <<< (64 - n)).getMsbD j = (decide (j < n) && val.getLsbD (n - 1 - j)) := by
  rw [BitVec.getMsbD_shiftLeft, BitVec.getMsbD_eq_getLsbD]
  by_cases hj : j < n
  · rw [decide_eq_true hj, decide_eq_true (show j + (64 - n) < 64 by omega),
      show 64 - 1 - (j + (64 - n)) = n - 1 - j by omega]
  · rw [decide_eq_false hj, decide_eq_false (show ¬ j + (64 - n) < 64 by omega), Bool.false_and,
      Bool.false_and]

variable {w : BitWriter}

/-- Where a writer is. -/
def BitWriter.position (w : BitWriter) : Nat := w.cursor.position

/-- A writer whose position is inside its buffer. -/
def BitWriter.Inside (w : BitWriter) : Prop := w.cursor.Inside w.bytes.length

theorem consume_spec (h : w.Inside) {bytes' : List (BitVec 8)}
    (hlength : bytes'.length = w.bytes.length) (hn : w.position + n ≤ 8 * w.bytes.length) :
    ∃ w', w.consume bytes' n = (true, w') ∧ w'.bytes = bytes' ∧ w'.Inside ∧
      w'.position = w.position + n := by
  unfold BitWriter.Inside BitWriter.position at *
  rw [← hlength] at h hn
  obtain ⟨c', hc', hinside, hpos⟩ := Cursor.consumeBits_of_le h hn
  refine ⟨⟨bytes', c'⟩, ?_, rfl, hinside, hpos⟩
  rw [BitWriter.consume, hc']

theorem overwritten_rest (val : BitVec 64) (hindex : 8 * index + n ≤ 8 * bytes.length)
    (hval : ∀ k, n ≤ k → val.getMsbD k = false) :
    ∃ bytes₁ index₁ val₁ left, BitWriter.writeFullBytes bytes index val n =
        (bytes₁, index₁, val₁, left) ∧
      Overwritten bytes (if 0 < left then bytes₁.set index₁
        (writePartialByte (leftMostByte val₁) left (bytes₁.getD index₁ 0) 0) else bytes₁)
        (8 * index) n val := by
  obtain ⟨bytes₁, heq, hfull⟩ := writeFullBytes_spec bytes index val n (by omega)
  refine ⟨_, _, _, _, heq, ?_⟩
  have htotal : n = 8 * (n / 8) + n % 8 := (Nat.div_add_mod n 8).symm
  split_ifs with hleft
  · have hindex₁ : index + n / 8 < bytes₁.length := by
      rw [hfull.1]
      omega
    have hpartial := overwritten_partial (val <<< (8 * (n / 8))) 0 (n % 8) hindex₁ (by omega)
      fun k hk _ => by
        rw [BitVec.getMsbD_shiftLeft]
        exact hval _ (by omega)
    rw [show 8 * (index + n / 8) + 0 = 8 * index + 8 * (n / 8) by omega] at hpartial
    have hboth := hfull.trans hpartial
    rwa [← htotal] at hboth
  · rwa [show 8 * (n / 8) = n by omega] at hfull

/-- **A write that fits** replaces the bits from the position on and moves it behind them. -/
theorem writeBits_spec (h : w.Inside) (hpos : 0 < n) (hn : n ≤ 64)
    (hfits : w.position + n ≤ 8 * w.bytes.length) (val : BitVec 64) :
    ∃ w', w.writeBits val n = (true, w') ∧ w'.Inside ∧ w'.position = w.position + n ∧
      Overwritten w.bytes w'.bytes w.position n (val <<< (64 - n)) := by
  have hrem : w.cursor.remainingBitCount w.bytes.length = 8 * w.bytes.length - w.position :=
    h.remaining_eq
  have hbit : w.cursor.bitOffset < 8 := h.bit_lt
  have hposition : w.position = 8 * w.cursor.byteOffset + w.cursor.bitOffset := rfl
  have hzero : ∀ k, n ≤ k → (val <<< (64 - n)).getMsbD k = false := fun k hk => by
    rw [getMsbD_pushed val hn, decide_eq_false (by omega), Bool.false_and]
  have hindex : w.cursor.byteOffset < w.bytes.length := by omega
  have hfirst := overwritten_partial (val <<< (64 - n)) w.cursor.bitOffset
    (min n (8 - w.cursor.bitOffset)) hindex (by omega) fun k hk hk' => hzero k (by omega)
  rw [← hposition] at hfirst
  rw [BitWriter.writeBits, if_neg (by omega)]
  dsimp only
  by_cases hshort : n ≤ 8 - w.cursor.bitOffset
  · rw [Nat.min_eq_left hshort] at hfirst ⊢
    rw [if_pos hshort]
    obtain ⟨w', hw', hbytes, hinside, hpos'⟩ := consume_spec h hfirst.1 hfits
    exact ⟨w', hw', hinside, hpos', by rw [hbytes]; exact hfirst⟩
  · rw [Nat.min_eq_right (by omega)] at hfirst ⊢
    rw [if_neg hshort]
    have hroom : 8 * (w.cursor.byteOffset + 1) + (n - (8 - w.cursor.bitOffset)) ≤
        8 * (w.bytes.set w.cursor.byteOffset (writePartialByte (leftMostByte (val <<< (64 - n)))
          (8 - w.cursor.bitOffset) (w.bytes.getD w.cursor.byteOffset 0)
          w.cursor.bitOffset)).length := by
      rw [List.length_set]
      omega
    obtain ⟨bytes₁, index₁, val₁, left, heq, hrest⟩ := overwritten_rest
      (val <<< (64 - n) <<< (8 - w.cursor.bitOffset)) hroom fun k hk => by
        rw [BitVec.getMsbD_shiftLeft]
        exact hzero _ (by omega)
    rw [heq]
    rw [show 8 * (w.cursor.byteOffset + 1) =
      w.position + (8 - w.cursor.bitOffset) by omega] at hrest
    have hboth := hfirst.trans hrest
    rw [show 8 - w.cursor.bitOffset + (n - (8 - w.cursor.bitOffset)) = n by omega] at hboth
    obtain ⟨w', hw', hbytes, hinside, hpos'⟩ := consume_spec h hboth.1 hfits
    exact ⟨w', hw', hinside, hpos', by rw [hbytes]; exact hboth⟩

theorem writeBits_of_not_fits (h : w.Inside) (hfits : 8 * w.bytes.length < w.position + n)
    (val : BitVec 64) : w.writeBits val n = (false, w) := by
  have hrem : w.cursor.remainingBitCount w.bytes.length = 8 * w.bytes.length - w.position :=
    h.remaining_eq
  have := h.position_le
  rw [BitWriter.writeBits, if_pos]
  rw [hrem]
  change w.position ≤ _ at this
  omega

/-! ## Reading -/

/-- The `n` bits in front of `stop`, gathered in a word. -/
def Gathered {width : Nat} (bytes : List (BitVec 8)) (stop n : Nat) (bits : BitVec width) : Prop :=
  ∀ k, bits.getLsbD k = (decide (k < n) && bitAt bytes (stop - 1 - k))

variable {width : Nat}

theorem gathered_shift {stop n : Nat} {bits : BitVec width} (m : Nat) (byte : BitVec 8)
    (hn : n + m ≤ width) (h : Gathered bytes stop n bits)
    (hbyte : ∀ k, byte.getLsbD k = (decide (k < m) && bitAt bytes (stop + m - 1 - k))) :
    Gathered bytes (stop + m) (n + m) ((bits <<< m) ||| byte.setWidth width) := by
  intro k
  rw [BitVec.getLsbD_or, BitVec.getLsbD_shiftLeft, BitVec.getLsbD_setWidth, h, hbyte]
  by_cases hk : k < m
  · simp [hk, show k < width by omega, show k < n + m by omega]
  · rw [show stop - 1 - (k - m) = stop + m - 1 - k by omega]
    by_cases hk' : k < n + m
    · simp [hk, hk', show k < width by omega, show k - m < n by omega]
    · simp [hk, hk', show ¬ k - m < n by omega]

theorem readFullBytes_spec {m : Nat} (bytes : List (BitVec 8)) (index : Nat) (bits : BitVec width)
    (n : Nat) (hm : m + n ≤ width) (h : Gathered bytes (8 * index) m bits) :
    ∃ bits', BitReader.readFullBytes bytes index bits n = (index + n / 8, bits', n % 8) ∧
      Gathered bytes (8 * (index + n / 8)) (m + 8 * (n / 8)) bits' := by
  fun_induction BitReader.readFullBytes bytes index bits n generalizing m with
  | case1 index bits n ih =>
    have hnext : Gathered bytes (8 * index + 8) (m + 8)
        ((bits <<< 8) ||| (bytes.getD index 0).setWidth width) :=
      gathered_shift 8 _ (by omega) h fun k => by
        rw [getLsbD_getD, show 8 * index + 7 - k = 8 * index + 8 - 1 - k by omega]
    obtain ⟨bits', heq, hbits'⟩ := @ih (m + 8) (by omega) hnext
    refine ⟨bits', ?_, ?_⟩
    · rw [heq, show index + 1 + n / 8 = index + (n + 8) / 8 by omega,
        show n % 8 = (n + 8) % 8 by omega]
    · rw [show index + (n + 8) / 8 = index + 1 + n / 8 by omega,
        show m + 8 * ((n + 8) / 8) = m + 8 + 8 * (n / 8) by omega]
      exact hbits'
  | case2 index bits n hn =>
    have hsmall : n < 8 := by
      by_contra hge
      exact hn (n - 8) (by omega)
    refine ⟨bits, by rw [Nat.div_eq_of_lt hsmall, Nat.mod_eq_of_lt hsmall]; rfl, ?_⟩
    rw [Nat.div_eq_of_lt hsmall]
    exact h

/-- Where a reader is. -/
def BitReader.position (r : BitReader) : Nat := r.cursor.position

/-- A reader whose position is inside its buffer. -/
def BitReader.Inside (r : BitReader) : Prop := r.cursor.Inside r.bytes.length

variable {r : BitReader}

theorem peekBits_spec (h : r.Inside) (hwidth : 8 ≤ width) (hn : n ≤ width)
    (hfits : r.position + n ≤ 8 * r.bytes.length) :
    ∃ val, r.peekBits width n = some val ∧ Gathered r.bytes (r.position + n) n val := by
  have hrem : r.cursor.remainingBitCount r.bytes.length = 8 * r.bytes.length - r.position :=
    h.remaining_eq
  have hbit : r.cursor.bitOffset < 8 := h.bit_lt
  have hposition : r.position = 8 * r.cursor.byteOffset + r.cursor.bitOffset := rfl
  have hfirst : Gathered r.bytes (8 * (r.cursor.byteOffset + 1)) (8 - r.cursor.bitOffset)
      ((rightMostBits (r.bytes.getD r.cursor.byteOffset 0)
        (8 - r.cursor.bitOffset)).setWidth width) := by
    intro k
    rw [BitVec.getLsbD_setWidth, getLsbD_rightMostBits, getLsbD_getD]
    by_cases hk : k < 8 - r.cursor.bitOffset
    · simp [hk, show k < width by omega, show k < 8 by omega,
        show 8 * (r.cursor.byteOffset + 1) - 1 - k = 8 * r.cursor.byteOffset + 7 - k by omega]
    · simp [hk]
  rw [BitReader.peekBits, if_neg (by omega)]
  by_cases hshort : n < 8 - r.cursor.bitOffset
  · rw [if_pos hshort]
    refine ⟨_, rfl, fun k => ?_⟩
    rw [BitVec.getLsbD_setWidth, getLsbD_leftMostBits _ (by omega), BitVec.getLsbD_setWidth, hfirst]
    by_cases hk : k < n
    · simp only [hk, show k < width by omega, show k < r.cursor.bitOffset + n by omega,
        show 8 - (r.cursor.bitOffset + n) + k < 8 by omega,
        show 8 - (r.cursor.bitOffset + n) + k < 8 - r.cursor.bitOffset by omega, decide_true,
        Bool.true_and]
      exact congrArg (bitAt r.bytes) (by omega)
    · simp only [hk, show ¬ 8 - (r.cursor.bitOffset + n) + k < 8 - r.cursor.bitOffset by omega,
        decide_false, Bool.false_and, Bool.and_false]
  · rw [if_neg hshort]
    have hstart : r.position + n =
        8 * (r.cursor.byteOffset + 1) + (n - (8 - r.cursor.bitOffset)) := by omega
    generalize hleft : n - (8 - r.cursor.bitOffset) = rest at hstart ⊢
    obtain ⟨bits, heq, hbits⟩ := readFullBytes_spec r.bytes (r.cursor.byteOffset + 1) _ rest
      (by omega) hfirst
    rw [heq]
    dsimp only
    have hstop : r.position + n =
        8 * (r.cursor.byteOffset + 1 + rest / 8) + rest % 8 := by omega
    have hcount : n = 8 - r.cursor.bitOffset + 8 * (rest / 8) + rest % 8 := by omega
    split_ifs with hpartial
    · refine ⟨_, rfl, ?_⟩
      have hboth := gathered_shift (rest % 8)
        (leftMostBits (r.bytes.getD (r.cursor.byteOffset + 1 + rest / 8) 0) (rest % 8))
        (by omega) hbits fun k => by
          rw [getLsbD_leftMostBits _ (by omega), getLsbD_getD]
          by_cases hk : k < rest % 8
          · simp only [hk, show 8 - rest % 8 + k < 8 by omega, decide_true, Bool.true_and]
            exact congrArg (bitAt r.bytes) (by omega)
          · simp only [hk, decide_false, Bool.false_and]
      rwa [← hstop, ← hcount] at hboth
    · refine ⟨_, rfl, ?_⟩
      rwa [show 8 * (r.cursor.byteOffset + 1 + rest / 8) = r.position + n by omega,
        show 8 - r.cursor.bitOffset + 8 * (rest / 8) = n by omega] at hbits

/-- The last `n` bits of `val` stand at `start`. -/
def Codes (bytes : List (BitVec 8)) (start : Nat) (val : BitVec 64) (n : Nat) : Prop :=
  ∀ j < n, bitAt bytes (start + j) = val.getLsbD (n - 1 - j)

theorem toNat_of_gathered {start n : Nat} {bits : BitVec width}
    (hcodes : Codes bytes start val n) (hbits : Gathered bytes (start + n) n bits) :
    bits.toNat = val.toNat % 2 ^ n := by
  apply Nat.eq_of_testBit_eq
  intro k
  rw [BitVec.testBit_toNat, hbits, Nat.testBit_mod_two_pow, BitVec.testBit_toNat]
  by_cases hk : k < n
  · have hcode := hcodes (n - 1 - k) (by omega)
    rw [show start + (n - 1 - k) = start + n - 1 - k by omega,
      show n - 1 - (n - 1 - k) = k by omega] at hcode
    rw [hcode]
  · rw [decide_eq_false hk, Bool.false_and, Bool.false_and]

theorem consumeBits_spec (h : r.Inside) (hfits : r.position + n ≤ 8 * r.bytes.length) :
    ∃ r', r.consumeBits n = (true, r') ∧ r'.bytes = r.bytes ∧ r'.Inside ∧
      r'.position = r.position + n := by
  obtain ⟨c', hc', hinside, hpos⟩ := Cursor.consumeBits_of_le h hfits
  exact ⟨⟨r.bytes, c'⟩, by rw [BitReader.consumeBits, hc'], rfl, hinside, hpos⟩

theorem readBits_spec (h : r.Inside) (hwidth : 8 ≤ width) (hn : n ≤ width)
    (hfits : r.position + n ≤ 8 * r.bytes.length) (hcodes : Codes r.bytes r.position val n) :
    ∃ bits r', r.readBits width n = (some bits, r') ∧ bits.toNat = val.toNat % 2 ^ n ∧
      r'.bytes = r.bytes ∧ r'.Inside ∧ r'.position = r.position + n := by
  obtain ⟨bits, hpeek, hgathered⟩ := peekBits_spec h hwidth hn hfits
  obtain ⟨r', hconsume, hbytes, hinside, hpos⟩ := consumeBits_spec h hfits
  refine ⟨bits, r', ?_, toNat_of_gathered hcodes hgathered, hbytes, hinside, hpos⟩
  rw [BitReader.readBits, hpeek]
  dsimp only
  rw [hconsume, if_pos rfl]

theorem peekBits_one (h : r.Inside) (hfits : r.position < 8 * r.bytes.length) :
    r.peekBits 32 1 = some 0 ↔ bitAt r.bytes r.position = false := by
  obtain ⟨bits, hpeek, hgathered⟩ := peekBits_spec h (show 8 ≤ 32 by decide)
    (show 1 ≤ 32 by decide) (show r.position + 1 ≤ _ from hfits)
  rw [hpeek, Option.some_inj]
  constructor
  · intro hzero
    have hbit := hgathered 0
    rw [hzero] at hbit
    exact hbit.symm
  · intro hbit
    apply BitVec.eq_of_getLsbD_eq
    intro k hk
    rw [hgathered k]
    by_cases hk0 : k = 0
    · subst hk0
      exact hbit
    · rw [decide_eq_false (by omega), Bool.false_and]
      exact BitVec.getLsbD_zero.symm

/-! ## Exp-Golomb codes -/

theorem skipZeros_spec {z : Nat} (h : r.Inside) (hfits : r.position + z < 8 * r.bytes.length)
    (hzeros : ∀ j < z, bitAt r.bytes (r.position + j) = false)
    (hone : bitAt r.bytes (r.position + z) = true) {fuel : Nat} (hfuel : z < fuel) :
    ∃ r', BitReader.skipZeros fuel r = (z, r') ∧ r'.bytes = r.bytes ∧ r'.Inside ∧
      r'.position = r.position + z := by
  induction z generalizing r fuel with
  | zero =>
    obtain ⟨fuel, rfl⟩ : ∃ f, fuel = f + 1 := ⟨fuel - 1, by omega⟩
    refine ⟨r, ?_, rfl, h, rfl⟩
    rw [BitReader.skipZeros, if_neg]
    rw [peekBits_one h hfits, Bool.not_eq_false]
    exact hone
  | succ z ih =>
    obtain ⟨fuel, rfl⟩ : ∃ f, fuel = f + 1 := ⟨fuel - 1, by omega⟩
    obtain ⟨r₁, hconsume, hbytes, hinside, hpos⟩ := consumeBits_spec (n := 1) h (by omega)
    have hnext : ∀ j, r.position + (j + 1) = r₁.position + j := fun j => by omega
    obtain ⟨r', hskip, hbytes', hinside', hpos'⟩ := ih hinside (by rw [hbytes]; omega)
      (fun j hj => by rw [hbytes, ← hnext]; exact hzeros (j + 1) (by omega))
      (by rw [hbytes, ← hnext]; exact hone) (show z < fuel by omega)
    refine ⟨r', ?_, hbytes'.trans hbytes, hinside', by omega⟩
    rw [BitReader.skipZeros, if_pos ((peekBits_one h (by omega)).mpr (hzeros 0 (by omega))),
      hconsume]
    rw [hskip]

theorem countBits_loop {fuel : Nat} (hval : val.toNat < 2 ^ fuel)
    (hne : val ≠ 0) : ∃ c, countBits.loop fuel val = c + 1 ∧ c < fuel ∧ 2 ^ c ≤ val.toNat ∧
      val.toNat < 2 ^ (c + 1) := by
  induction fuel generalizing val with
  | zero =>
    refine absurd (BitVec.eq_of_toNat_eq ?_) hne
    change val.toNat = 0
    omega
  | succ fuel ih =>
    have hshift : (val >>> 1).toNat = val.toNat / 2 := by
      rw [BitVec.toNat_ushiftRight, Nat.shiftRight_one]
    have hpos : 0 < val.toNat := Nat.pos_of_ne_zero fun h => hne (BitVec.eq_of_toNat_eq h)
    rw [countBits.loop, if_neg hne]
    by_cases hhalf : val >>> 1 = 0
    · have hsmall : val.toNat / 2 = 0 := by
        rw [← hshift, hhalf]
        rfl
      refine ⟨0, ?_, by omega, by omega, by omega⟩
      rw [hhalf]
      cases fuel <;> rfl
    · obtain ⟨c, hloop, hc, hlow, hhigh⟩ := ih (by rw [hshift]; omega) hhalf
      rw [hshift] at hlow hhigh
      refine ⟨c + 1, by rw [hloop], by omega, ?_, ?_⟩
      · rw [Nat.pow_succ]
        omega
      · rw [Nat.pow_succ]
        omega

variable {val : BitVec 32}

theorem countBits_encoded (hval : val ≠ BitVec.allOnes 32) :
    ∃ c, countBits (val.setWidth 64 + 1) = c + 1 ∧ c < 32 ∧
      (val.setWidth 64 + 1).toNat = val.toNat + 1 ∧ 2 ^ c ≤ val.toNat + 1 ∧
      val.toNat + 1 < 2 ^ (c + 1) := by
  have hlt := val.isLt
  have hne : val.toNat ≠ 2 ^ 32 - 1 := fun h => hval (BitVec.eq_of_toNat_eq (by
    rw [h, BitVec.toNat_allOnes]))
  have hencoded : (val.setWidth 64 + 1).toNat = val.toNat + 1 := by
    rw [BitVec.toNat_add, BitVec.toNat_setWidth]
    change (val.toNat % 2 ^ 64 + 1) % 2 ^ 64 = _
    omega
  obtain ⟨c, hloop, hc, hlow, hhigh⟩ := countBits_loop (val.setWidth 64 + 1).isLt (by
    intro h
    rw [h] at hencoded
    change 0 = _ at hencoded
    omega)
  rw [hencoded] at hlow hhigh
  refine ⟨c, hloop, ?_, hencoded, hlow, hhigh⟩
  by_contra hge
  have := Nat.pow_le_pow_right (show 0 < 2 by decide) (show 32 ≤ c by omega)
  omega

theorem readExpGolomb_spec (h : r.Inside) (hval : val ≠ BitVec.allOnes 32)
    (hcodes : Codes r.bytes r.position (val.setWidth 64 + 1)
      (countBits (val.setWidth 64 + 1) * 2 - 1))
    (hfits : r.position + (countBits (val.setWidth 64 + 1) * 2 - 1) ≤ 8 * r.bytes.length) :
    ∃ r', r.readExpGolomb = (some val, r') ∧ r'.bytes = r.bytes ∧ r'.Inside ∧
      r'.position = r.position + (countBits (val.setWidth 64 + 1) * 2 - 1) := by
  obtain ⟨c, hcount, hc, hencoded, hlow, hhigh⟩ := countBits_encoded hval
  rw [hcount] at hcodes hfits ⊢
  have hrem : r.cursor.remainingBitCount r.bytes.length = 8 * r.bytes.length - r.position :=
    h.remaining_eq
  have hbit : ∀ j, (val.setWidth 64 + 1).getLsbD j = (val.toNat + 1).testBit j := fun j => by
    rw [← BitVec.testBit_toNat, hencoded]
  have hzeros : ∀ j < c, bitAt r.bytes (r.position + j) = false := fun j hj => by
    rw [hcodes j (by omega), hbit]
    exact Nat.testBit_lt_two_pow (lt_of_lt_of_le hhigh (Nat.pow_le_pow_right (by decide) (by omega)))
  have hone : bitAt r.bytes (r.position + c) = true := by
    rw [hcodes c (by omega), hbit, show (c + 1) * 2 - 1 - 1 - c = c by omega]
    exact Nat.testBit_of_two_pow_le_and_two_pow_add_one_gt hlow hhigh
  obtain ⟨behind, hskip, hbytes, hinside, hpos⟩ := skipZeros_spec h (by omega) hzeros hone
    (show c < r.cursor.remainingBitCount r.bytes.length + 1 by omega)
  have hvalue : Codes behind.bytes behind.position (val.setWidth 64 + 1) (c + 1) := fun j hj => by
    rw [hbytes, hpos, Nat.add_assoc, hcodes (c + j) (by omega)]
    exact congrArg _ (by omega)
  obtain ⟨bits, r', hread, hbits, hbytes', hinside', hpos'⟩ := readBits_spec hinside
    (show 8 ≤ 32 by decide) (show c + 1 ≤ 32 by omega) (by rw [hbytes]; omega) hvalue
  refine ⟨r', ?_, hbytes'.trans hbytes, hinside', by omega⟩
  have hminus : bits - 1 = val := by
    have hlt := val.isLt
    rw [hencoded, Nat.mod_eq_of_lt hhigh] at hbits
    apply BitVec.eq_of_toNat_eq
    rw [BitVec.toNat_sub, hbits]
    change (2 ^ 32 - 1 + (val.toNat + 1)) % 2 ^ 32 = val.toNat
    omega
  rw [BitReader.readExpGolomb, hskip]
  dsimp only
  rw [if_neg (by omega), hread]
  dsimp only
  rw [hminus]

/-- The number a signed value is written as. -/
def signedCode (val : BitVec 32) : BitVec 32 :=
  if val = 0 then 0 else if 0 < val.toInt then val * 2 - 1 else -val * 2

/-- The signed value of a number that was read. -/
def signedValue (val : BitVec 32) : BitVec 32 :=
  if val &&& 1 = 0 then -(val / 2) else (val + 1) / 2

theorem and_one_eq_zero_iff (val : BitVec 32) : val &&& 1 = 0 ↔ val.toNat % 2 = 0 := by
  rw [← BitVec.toNat_inj, BitVec.toNat_and]
  simp [Nat.and_one_is_mod]

theorem toNat_double (h : val.toNat < 2 ^ 31) :
    (val * 2).toNat = 2 * val.toNat := by
  rw [BitVec.toNat_mul]
  change val.toNat * 2 % 2 ^ 32 = _
  omega

theorem signedValue_of_pos (hpos : 0 < val.toNat) (hlt : val.toNat < 2 ^ 31) :
    signedValue (val * 2 - 1) = val ∧ val * 2 - 1 ≠ BitVec.allOnes 32 := by
  have hcode : (val * 2 - 1).toNat = 2 * val.toNat - 1 := by
    rw [BitVec.toNat_sub, toNat_double hlt]
    change (2 ^ 32 - 1 + 2 * val.toNat) % 2 ^ 32 = _
    omega
  refine ⟨?_, fun h => ?_⟩
  · rw [signedValue, if_neg (by rw [and_one_eq_zero_iff, hcode]; omega)]
    apply BitVec.eq_of_toNat_eq
    rw [BitVec.toNat_udiv, BitVec.toNat_add, hcode]
    change (2 * val.toNat - 1 + 1) % 2 ^ 32 / 2 = val.toNat
    omega
  · rw [h, BitVec.toNat_allOnes] at hcode
    omega

theorem signedValue_of_neg {magnitude : BitVec 32} (hlt : magnitude.toNat < 2 ^ 31) :
    signedValue (magnitude * 2) = -magnitude ∧ magnitude * 2 ≠ BitVec.allOnes 32 := by
  have hcode := toNat_double hlt
  refine ⟨?_, fun h => ?_⟩
  · rw [signedValue, if_pos (by rw [and_one_eq_zero_iff, hcode]; omega)]
    congr 1
    apply BitVec.eq_of_toNat_eq
    rw [BitVec.toNat_udiv, hcode]
    change 2 * magnitude.toNat / 2 = _
    omega
  · rw [h, BitVec.toNat_allOnes] at hcode
    omega

theorem signedValue_signedCode (hval : val ≠ BitVec.intMin 32) :
    signedValue (signedCode val) = val ∧ signedCode val ≠ BitVec.allOnes 32 := by
  have hsign := val.toInt_eq_toNat_cond
  have hlt := val.isLt
  have hmin : val.toNat ≠ 2 ^ 31 := fun h => hval (BitVec.eq_of_toNat_eq h)
  rw [signedCode]
  split_ifs with hzero hpos
  · subst hzero
    decide
  · have hne : val.toNat ≠ 0 := fun h => hzero (BitVec.eq_of_toNat_eq h)
    exact signedValue_of_pos (by omega) (by split_ifs at hsign <;> omega)
  · have hneg : (-val).toNat < 2 ^ 31 := by
      have hne : val.toNat ≠ 0 := fun h => hzero (BitVec.eq_of_toNat_eq h)
      rw [BitVec.toNat_neg]
      split_ifs at hsign <;> omega
    have hboth := signedValue_of_neg hneg
    rwa [BitVec.neg_neg] at hboth

theorem writeSignedExpGolomb_eq (w : BitWriter) (val : BitVec 32) :
    w.writeSignedExpGolomb val =
      if val = BitVec.intMin 32 then (false, w) else w.writeExpGolomb (signedCode val) := by
  rw [BitWriter.writeSignedExpGolomb, signedCode]
  by_cases hmin : val = BitVec.intMin 32
  · subst hmin
    rw [if_neg (by decide), if_neg (by decide), if_pos rfl, if_pos rfl]
  · rw [if_neg hmin, if_neg hmin]
    split_ifs <;> rfl

/-! ## Values one after the other -/

/-- A value to write; plain bits come with the width of the type they are read into. -/
inductive Item where
  | bits (val : BitVec 64) (bitCount width : Nat)
  | expGolomb (val : BitVec 32)
  | signedExpGolomb (val : BitVec 32)
  deriving DecidableEq

/-- What to read. -/
inductive Kind where
  | bits (bitCount width : Nat)
  | expGolomb
  | signedExpGolomb
  deriving DecidableEq

namespace Item

/-- The read that matches a write. -/
def kind : Item → Kind
  | bits _ bitCount width => .bits bitCount width
  | expGolomb _ => .expGolomb
  | signedExpGolomb _ => .signedExpGolomb

/-- The value that is to be read. -/
def value : Item → Int
  | bits val bitCount _ => ((val.toNat % 2 ^ bitCount : Nat) : Int)
  | expGolomb val => val.toNat
  | signedExpGolomb val => val.toInt

/-- Between one and 64 bits, read into an integer type that holds them. -/
def Valid : Item → Prop
  | bits _ bitCount width => 0 < bitCount ∧ bitCount ≤ 64 ∧ bitCount ≤ width ∧
      width ∈ [8, 16, 32, 64]
  | _ => True

/-- The write of a value. -/
def write (w : BitWriter) : Item → Bool × BitWriter
  | bits val bitCount _ => w.writeBits val bitCount
  | expGolomb val => w.writeExpGolomb val
  | signedExpGolomb val => w.writeSignedExpGolomb val

end Item

/-- The read of a value. -/
def Kind.read (r : BitReader) : Kind → Option Int × BitReader
  | bits bitCount width =>
    let result := r.readBits width bitCount
    (result.1.map fun val => (val.toNat : Int), result.2)
  | expGolomb =>
    let result := r.readExpGolomb
    (result.1.map fun val => (val.toNat : Int), result.2)
  | signedExpGolomb =>
    let result := r.readSignedExpGolomb
    (result.1.map fun val => val.toInt, result.2)

/-- The Exp-Golomb code of a number: the value and its length. -/
def golombCode (val : BitVec 32) : BitVec 64 × Nat :=
  (val.setWidth 64 + 1, countBits (val.setWidth 64 + 1) * 2 - 1)

namespace Item

/-- The bits a value is written as. -/
def code : Item → BitVec 64 × Nat
  | bits val bitCount _ => (val, bitCount)
  | expGolomb val => golombCode val
  | signedExpGolomb val => golombCode (signedCode val)

/-- The values that have a code. -/
def Encodable : Item → Prop
  | bits _ _ _ => True
  | expGolomb val => val ≠ BitVec.allOnes 32
  | signedExpGolomb val => val ≠ BitVec.intMin 32

variable {item : Item}

theorem length_golombCode {val : BitVec 32} (h : val ≠ BitVec.allOnes 32) :
    0 < (golombCode val).2 ∧ (golombCode val).2 ≤ 64 := by
  obtain ⟨c, hcount, hc, -⟩ := countBits_encoded h
  rw [golombCode, hcount]
  omega

theorem length_code (hvalid : item.Valid) (hcode : item.Encodable) :
    0 < item.code.2 ∧ item.code.2 ≤ 64 := by
  cases item with
  | bits val bitCount width => exact ⟨hvalid.1, hvalid.2.1⟩
  | expGolomb val => exact length_golombCode hcode
  | signedExpGolomb val => exact length_golombCode (signedValue_signedCode hcode).2

theorem write_cases (item : Item) (w : BitWriter) : (¬ item.Encodable ∧ item.write w = (false, w)) ∨
    (item.Encodable ∧ item.write w = w.writeBits item.code.1 item.code.2) := by
  have hgolomb : ∀ val : BitVec 32, val ≠ BitVec.allOnes 32 →
      w.writeExpGolomb val = w.writeBits (golombCode val).1 (golombCode val).2 := fun val hval => by
    rw [BitWriter.writeExpGolomb, if_neg hval]
    rfl
  cases item with
  | bits val bitCount width => exact .inr ⟨trivial, rfl⟩
  | expGolomb val =>
    by_cases hval : val = BitVec.allOnes 32
    · exact .inl ⟨not_not.mpr hval, if_pos hval⟩
    · exact .inr ⟨hval, hgolomb val hval⟩
  | signedExpGolomb val =>
    rw [write, writeSignedExpGolomb_eq]
    by_cases hval : val = BitVec.intMin 32
    · exact .inl ⟨not_not.mpr hval, if_pos hval⟩
    · rw [if_neg hval]
      exact .inr ⟨hval, hgolomb _ (signedValue_signedCode hval).2⟩

theorem write_spec {w : BitWriter} (h : w.Inside) (hvalid : item.Valid) :
    item.write w = (false, w) ∨
    ∃ w', item.write w = (true, w') ∧ item.Encodable ∧ w'.Inside ∧
      w'.position = w.position + item.code.2 ∧
      Overwritten w.bytes w'.bytes w.position item.code.2
        (item.code.1 <<< (64 - item.code.2)) := by
  obtain ⟨-, hwrite⟩ | ⟨hcode, hwrite⟩ := write_cases item w
  · exact .inl hwrite
  · rw [hwrite]
    obtain ⟨hpos, hmax⟩ := length_code hvalid hcode
    by_cases hfits : w.position + item.code.2 ≤ 8 * w.bytes.length
    · obtain ⟨w', hw', hinside, hpos', hover⟩ := writeBits_spec h hpos hmax hfits item.code.1
      exact .inr ⟨w', hw', hcode, hinside, hpos', hover⟩
    · exact .inl (writeBits_of_not_fits h (by omega) _)

theorem read_spec {r : BitReader} (h : r.Inside) (hvalid : item.Valid) (hcode : item.Encodable)
    (hcodes : Codes r.bytes r.position item.code.1 item.code.2)
    (hfits : r.position + item.code.2 ≤ 8 * r.bytes.length) :
    ∃ r', item.kind.read r = (some item.value, r') ∧ r'.bytes = r.bytes ∧ r'.Inside ∧
      r'.position = r.position + item.code.2 := by
  cases item with
  | bits val bitCount width =>
    obtain ⟨-, -, hwidth, htype⟩ := hvalid
    have hmin : 8 ≤ width := by
      simp only [List.mem_cons, List.not_mem_nil, or_false] at htype
      omega
    obtain ⟨bits, r', hread, hbits, hrest⟩ := readBits_spec h hmin hwidth hfits hcodes
    refine ⟨r', ?_, hrest⟩
    rw [kind, Kind.read, hread]
    dsimp only [Option.map_some]
    rw [hbits]
    rfl
  | expGolomb val =>
    obtain ⟨r', hread, hrest⟩ := readExpGolomb_spec h hcode hcodes hfits
    refine ⟨r', ?_, hrest⟩
    rw [kind, Kind.read, hread]
    rfl
  | signedExpGolomb val =>
    obtain ⟨hback, hsigned⟩ := signedValue_signedCode hcode
    obtain ⟨r', hread, hrest⟩ := readExpGolomb_spec h hsigned hcodes hfits
    refine ⟨r', ?_, hrest⟩
    rw [kind, Kind.read, BitReader.readSignedExpGolomb, hread]
    change (some (signedValue (signedCode val)).toInt, r') = _
    rw [hback]
    rfl

end Item

theorem readBits_eq_none {r : BitReader} {bitCount : Nat}
    (hnone : (r.readBits width bitCount).1 = none) : (r.readBits width bitCount).2 = r := by
  rw [BitReader.readBits] at hnone ⊢
  split at hnone
  · rfl
  · split_ifs at hnone ⊢
    rfl

theorem readExpGolomb_eq_none {r : BitReader} (h : r.Inside) (hnone : r.readExpGolomb.1 = none) :
    r.readExpGolomb.2 = r := by
  rw [BitReader.readExpGolomb] at hnone ⊢
  dsimp only at hnone ⊢
  rw [Cursor.seek_inside h] at hnone ⊢
  split_ifs at hnone ⊢ with hlong
  · rfl
  · split at hnone
    · rfl
    · cases hnone

theorem Kind.read_eq_none {r : BitReader} (h : r.Inside) {kind : Kind}
    (hnone : (kind.read r).1 = none) : (kind.read r).2 = r := by
  cases kind with
  | bits bitCount width =>
    rw [Kind.read] at hnone ⊢
    exact readBits_eq_none (Option.map_eq_none_iff.mp hnone)
  | expGolomb =>
    rw [Kind.read] at hnone ⊢
    exact readExpGolomb_eq_none h (Option.map_eq_none_iff.mp hnone)
  | signedExpGolomb =>
    rw [Kind.read] at hnone ⊢
    have hsigned := Option.map_eq_none_iff.mp hnone
    rw [BitReader.readSignedExpGolomb] at hsigned ⊢
    split at hsigned
    · rename_i r' hread
      have hback := readExpGolomb_eq_none h (by rw [hread])
      rw [hread] at hback
      exact hback
    · cases hsigned

/-- Values written one after the other, if all writes return true. -/
def writeAll (w : BitWriter) : List Item → Option BitWriter
  | [] => some w
  | item :: items =>
    match item.write w with
    | (true, w) => writeAll w items
    | (false, _) => none

/-- Values read one after the other, if all reads return true. -/
def readAll (r : BitReader) : List Kind → Option (List Int × BitReader)
  | [] => some ([], r)
  | kind :: kinds =>
    match kind.read r with
    | (some value, r) => (readAll r kinds).map fun result => (value :: result.1, result.2)
    | (none, _) => none

theorem writeAll_spec {w w' : BitWriter} (h : w.Inside) {items : List Item}
    (hitems : ∀ item ∈ items, item.Valid) (hwrite : writeAll w items = some w') :
    w'.Inside ∧ w'.bytes.length = w.bytes.length ∧ w.position ≤ w'.position ∧
      (∀ i, i < w.position ∨ w'.position ≤ i → bitAt w'.bytes i = bitAt w.bytes i) ∧
      readAll ⟨w'.bytes, w.cursor⟩ (items.map Item.kind) =
        some (items.map Item.value, ⟨w'.bytes, w'.cursor⟩) := by
  induction items generalizing w with
  | nil =>
    obtain rfl : w = w' := Option.some.inj hwrite
    exact ⟨h, rfl, Nat.le_refl _, fun _ _ => rfl, rfl⟩
  | cons item items ih =>
    have hitem := hitems item (List.mem_cons_self ..)
    rw [writeAll] at hwrite
    obtain hfalse | ⟨w₁, htrue, hcode, hinside₁, hpos₁, hover⟩ := Item.write_spec h hitem
    · rw [hfalse] at hwrite
      cases hwrite
    · rw [htrue] at hwrite
      obtain ⟨hinside, hlength, hle, houtside, hread⟩ := ih hinside₁
        (fun item hitem => hitems item (List.mem_cons_of_mem _ hitem)) hwrite
      obtain ⟨hpos, hmax⟩ := Item.length_code hitem hcode
      refine ⟨hinside, hlength.trans hover.1, by omega, fun i hi => ?_, ?_⟩
      · rw [houtside i (by omega), hover.2, if_neg (by omega)]
      · have hcodes : Codes w'.bytes w.position item.code.1 item.code.2 := fun j hj => by
          rw [houtside _ (by omega), hover.2, if_pos (by omega), getMsbD_pushed _ hmax,
            Nat.add_sub_cancel_left, decide_eq_true hj, Bool.true_and]
        have hstart : BitReader.Inside ⟨w'.bytes, w.cursor⟩ := by
          have hlength' : w'.bytes.length = w.bytes.length := hlength.trans hover.1
          rw [BitReader.Inside, hlength']
          exact h
        have hend : w.position + item.code.2 ≤ 8 * w'.bytes.length := by
          have := hinside₁.position_le
          change w₁.position ≤ _ at this
          omega
        obtain ⟨r₁, hr₁, hbytes₁, hinsideR, hposR⟩ := Item.read_spec hstart hitem hcode hcodes hend
        obtain rfl : r₁ = ⟨w'.bytes, w₁.cursor⟩ := by
          obtain ⟨bytes₁, c₁⟩ := r₁
          obtain rfl : bytes₁ = w'.bytes := hbytes₁
          have hinside₁' : w₁.cursor.Inside w'.bytes.length := by
            rw [hlength]
            exact hinside₁
          exact congrArg (BitReader.mk w'.bytes)
            (Cursor.eq_of_position hinsideR hinside₁' (hposR.trans hpos₁.symm))
        rw [List.map_cons, readAll, hr₁]
        dsimp only
        rw [hread]
        rfl

/-- **What is written is read.**  From any position that `Seek` accepts, values written one
after the other, if all writes return true, are read back by the matching reads, which end
where the writes ended; the bits outside the written range are unchanged.  A write or a read
that returns false changes nothing. -/
theorem bit_io_round_trip (bytes : List (BitVec 8)) (byteOffset bitOffset : Nat)
    (hseek : (Cursor.seek bytes.length byteOffset bitOffset ⟨0, 0⟩).1 = true) :
    let start : Cursor := ⟨byteOffset, bitOffset⟩
    (∀ items : List Item, (∀ item ∈ items, item.Valid) →
      ∀ w', writeAll ⟨bytes, start⟩ items = some w' →
        readAll ⟨w'.bytes, start⟩ (items.map Item.kind) =
          some (items.map Item.value, ⟨w'.bytes, w'.cursor⟩) ∧
        w'.bytes.length = bytes.length ∧
        ∀ i, i < start.position ∨ w'.cursor.position ≤ i → bitAt w'.bytes i = bitAt bytes i) ∧
    (∀ item : Item, item.Valid → (item.write ⟨bytes, start⟩).1 = false →
      (item.write ⟨bytes, start⟩).2 = ⟨bytes, start⟩) ∧
    ∀ kind : Kind, (kind.read ⟨bytes, start⟩).1 = none →
      (kind.read ⟨bytes, start⟩).2 = ⟨bytes, start⟩ := by
  intro start
  have hinside : start.Inside bytes.length := Cursor.inside_of_seek hseek
  refine ⟨fun items hitems w' hwrite => ?_, fun item hvalid hfalse => ?_, fun kind hnone => ?_⟩
  · obtain ⟨-, hlength, -, houtside, hread⟩ :=
      writeAll_spec (show BitWriter.Inside ⟨bytes, start⟩ from hinside) hitems hwrite
    exact ⟨hread, hlength, houtside⟩
  · obtain hwrite | ⟨w', hwrite, -⟩ :=
      Item.write_spec (show BitWriter.Inside ⟨bytes, start⟩ from hinside) hvalid
    · rw [hwrite]
    · rw [hwrite] at hfalse
      cases hfalse
  · exact Kind.read_eq_none (show BitReader.Inside ⟨bytes, start⟩ from hinside) hnone

/-- Thirteen bits, a number and a negative number, from the middle of the first byte on. -/
theorem bit_io_round_trip_mixed :
    let items := [Item.bits 0xABCD 13 16, .expGolomb 7, .signedExpGolomb (-3)]
    let bytes : List (BitVec 8) := [0xFF, 0xFF, 0xFF, 0xFF, 0xFF]
    ∃ w', writeAll ⟨bytes, ⟨0, 5⟩⟩ items = some w' ∧
      readAll ⟨w'.bytes, ⟨0, 5⟩⟩ (items.map Item.kind) =
        some ([3021, 7, -3], ⟨w'.bytes, w'.cursor⟩) := by
  intro items bytes
  have hvalid : ∀ item ∈ items, item.Valid := by
    simp [items, Item.Valid]
  have hsome : (writeAll ⟨bytes, ⟨0, 5⟩⟩ items).isSome = true := by decide +kernel
  obtain ⟨w', hwrite⟩ := Option.isSome_iff_exists.mp hsome
  exact ⟨w', hwrite, ((bit_io_round_trip bytes 0 5 (by decide)).1 items hvalid w' hwrite).1⟩

end NaiveRtc.BitIo
