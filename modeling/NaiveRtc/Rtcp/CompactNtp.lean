import NaiveRtc.Rtcp.ReportReceiver
import Mathlib.Algebra.Order.Group.Abs

/-!
# Intervals in compact NTP

`rtc/base/time/ntp_time_util.cpp`: microseconds to 1/65536 seconds and from there to milliseconds.
An intermediate value outside of `int64_t` is nothing.

* `saturatedUsToCompactNtp` — the first way; the second is `compactNtpRttToMs`.
* `divideRoundToNearest_mono`, `divideRoundToNearest_error` — what rounding does.
* `compactNtp_conversions` — **both ways are monotone and do not overflow, and one after the other
  is off by a millisecond at most.**
-/

namespace NaiveRtc.Rtcp

/-- A value of `int64_t`. -/
def int64 (value : Int) : Option Int :=
  if -2 ^ 63 ≤ value ∧ value < 2 ^ 63 then some value else none

/-- `kNumMicrosecsPerSec`. -/
def kNumMicrosecsPerSec : Int := 1000000

/-- `kMaxCompactNtp`. -/
def kMaxCompactNtp : U32 := 0xFFFFFFFF

/-- `kCompactNtpInSecond`. -/
def kCompactNtpInSecond : Int := 0x10000

/-- `SaturatedUsToCompactNtp(us)`. -/
def saturatedUsToCompactNtp (us : Int) : Option U32 :=
  if us ≤ 0 then some 0
  else (int64 (kMaxCompactNtp.toNat * kNumMicrosecsPerSec)).bind fun limit =>
    if limit.tdiv kCompactNtpInSecond ≤ us then some kMaxCompactNtp
    else (int64 (us * kCompactNtpInSecond)).map fun scaled =>
      BitVec.ofNat 32 (divideRoundToNearest scaled.toNat kNumMicrosecsPerSec.toNat)

/-! ## Rounding -/

theorem divideRoundToNearest_mono {a b : Nat} (h : a ≤ b) (d : Nat) :
    divideRoundToNearest a d ≤ divideRoundToNearest b d := by
  unfold divideRoundToNearest
  dsimp only
  have ha := Nat.div_add_mod a d
  have hb := Nat.div_add_mod b d
  rcases Nat.lt_or_eq_of_le (Nat.div_le_div_right (c := d) h) with hlt | heq
  · split <;> split <;> omega
  · rw [heq] at ha ⊢
    generalize d * (b / d) = whole at ha hb
    split <;> split <;> omega

theorem divideRoundToNearest_error (a : Nat) {d : Nat} (hd : 0 < d) :
    2 * (d * divideRoundToNearest a d) ≤ 2 * a + d ∧
      2 * a ≤ 2 * (d * divideRoundToNearest a d) + d := by
  unfold divideRoundToNearest
  dsimp only
  have ha := Nat.div_add_mod a d
  have hmod := Nat.mod_lt a hd
  split
  · rw [Nat.mul_add, Nat.mul_one]
    omega
  · rw [Nat.add_zero]
    omega

/-! ## To compact NTP -/

theorem int64_limit :
    int64 (kMaxCompactNtp.toNat * kNumMicrosecsPerSec) = some 4294967295000000 := by
  decide

theorem limit_tdiv : (4294967295000000 : Int).tdiv kCompactNtpInSecond = 65535999984 := by decide

variable {us : Int}

theorem saturatedUsToCompactNtp_of_nonpos (h : us ≤ 0) :
    saturatedUsToCompactNtp us = some 0 := if_pos h

theorem saturatedUsToCompactNtp_of_large (h : 65535999984 ≤ us) :
    saturatedUsToCompactNtp us = some kMaxCompactNtp := by
  unfold saturatedUsToCompactNtp
  rw [if_neg (by omega), int64_limit, Option.bind_some, limit_tdiv, if_pos h]

theorem saturatedUsToCompactNtp_of_small (hpos : 0 < us) (h : us < 65535999984) :
    ∃ c : U32, saturatedUsToCompactNtp us = some c ∧
      c.toNat = divideRoundToNearest (us * 65536).toNat 1000000 := by
  have hscaled : int64 (us * kCompactNtpInSecond) = some (us * 65536) :=
    if_pos (by unfold kCompactNtpInSecond; omega)
  have hround := (divideRoundToNearest_error (us * 65536).toNat (by decide : 0 < 1000000)).1
  refine ⟨BitVec.ofNat 32 (divideRoundToNearest (us * 65536).toNat 1000000), ?_, ?_⟩
  · unfold saturatedUsToCompactNtp
    rw [if_neg (by omega), int64_limit, Option.bind_some, limit_tdiv, if_neg (by omega), hscaled]
    rfl
  · rw [BitVec.toNat_ofNat]
    exact Nat.mod_eq_of_lt (by omega)

theorem saturatedUsToCompactNtp_defined (us : Int) :
    ∃ c, saturatedUsToCompactNtp us = some c := by
  rcases le_or_gt us 0 with hneg | hpos
  · exact ⟨0, saturatedUsToCompactNtp_of_nonpos hneg⟩
  rcases le_or_gt 65535999984 us with hlarge | hsmall
  · exact ⟨kMaxCompactNtp, saturatedUsToCompactNtp_of_large hlarge⟩
  · obtain ⟨c, hc, -⟩ := saturatedUsToCompactNtp_of_small hpos hsmall
    exact ⟨c, hc⟩

theorem saturatedUsToCompactNtp_mono {us us' : Int} (h : us ≤ us') :
    ∃ c c' : U32, saturatedUsToCompactNtp us = some c ∧ saturatedUsToCompactNtp us' = some c' ∧
      c.toNat ≤ c'.toNat := by
  rcases le_or_gt us 0 with hneg | hpos
  · obtain ⟨c', hc'⟩ := saturatedUsToCompactNtp_defined us'
    exact ⟨0, c', saturatedUsToCompactNtp_of_nonpos hneg, hc', Nat.zero_le _⟩
  rcases le_or_gt 65535999984 us' with hlarge | hsmall
  · obtain ⟨c, hc⟩ := saturatedUsToCompactNtp_defined us
    exact ⟨c, kMaxCompactNtp, hc, saturatedUsToCompactNtp_of_large hlarge,
      Nat.le_of_lt_succ c.isLt⟩
  · obtain ⟨c, hc, heq⟩ := saturatedUsToCompactNtp_of_small hpos (by omega)
    obtain ⟨c', hc', heq'⟩ := saturatedUsToCompactNtp_of_small (by omega) hsmall
    refine ⟨c, c', hc, hc', ?_⟩
    rw [heq, heq']
    exact divideRoundToNearest_mono (by omega) 1000000

/-! ## To milliseconds -/

theorem compactNtpRttToMs_pos (c : U32) : 1 ≤ compactNtpRttToMs c := by
  unfold compactNtpRttToMs
  split
  · exact Int.le_refl 1
  · exact le_max_right _ _

theorem compactNtpRttToMs_mono {c c' : U32} (h : c.toNat ≤ c'.toNat) (hc' : c'.toNat ≤ 2 ^ 31) :
    compactNtpRttToMs c ≤ compactNtpRttToMs c' := by
  unfold compactNtpRttToMs
  rw [if_neg (by omega), if_neg (by omega)]
  have := divideRoundToNearest_mono (Nat.mul_le_mul_right 1000 h) 0x10000
  exact max_le_max (by exact_mod_cast this) (Int.le_refl 1)

theorem compactNtpRttToMs_saturated (hpos : 0 < us) (h : us < 2 ^ 15 * 1000000) :
    ∃ c : U32, saturatedUsToCompactNtp us = some c ∧ |1000 * compactNtpRttToMs c - us| ≤ 1000 ∧
      |compactNtpRttToMs c - max (us / 1000) 1| ≤ 1 := by
  obtain ⟨c, hc, heq⟩ := saturatedUsToCompactNtp_of_small hpos (by omega)
  have hfirst := divideRoundToNearest_error (us * 65536).toNat (by decide : 0 < 1000000)
  have hsecond := divideRoundToNearest_error (c.toNat * 1000) (by decide : 0 < 0x10000)
  have hms : compactNtpRttToMs c = max (divideRoundToNearest (c.toNat * 1000) 0x10000 : Int) 1 :=
    if_neg (by omega)
  refine ⟨c, hc, ?_, ?_⟩
  · rw [hms, abs_le]
    omega
  · rw [hms, abs_le]
    omega

/-- **Both conversions.**  The first is defined without overflow for every `int64_t`, monotone, 0 up
to 0 and the largest value from where it would be exceeded; the second is monotone up to 2^31 and
never below 1; and one after the other is off by at most a millisecond below 2^15 seconds. -/
theorem compactNtp_conversions :
    (∀ us us' : BitVec 64, us.toInt ≤ us'.toInt →
      ∃ c c' : U32, saturatedUsToCompactNtp us.toInt = some c ∧
        saturatedUsToCompactNtp us'.toInt = some c' ∧ c.toNat ≤ c'.toNat) ∧
      (∀ us : BitVec 64, us.toInt ≤ 0 → saturatedUsToCompactNtp us.toInt = some 0) ∧
      (∀ us : BitVec 64, 0xFFFFFFFF * 1000000 ≤ us.toInt * 65536 →
        saturatedUsToCompactNtp us.toInt = some 0xFFFFFFFF) ∧
      (∀ c c' : U32, c.toNat ≤ c'.toNat → c'.toNat ≤ 2 ^ 31 →
        compactNtpRttToMs c ≤ compactNtpRttToMs c') ∧
      (∀ c : U32, 1 ≤ compactNtpRttToMs c) ∧
      ∀ us : BitVec 64, 0 < us.toInt → us.toInt < 2 ^ 15 * 1000000 →
        ∃ c : U32, saturatedUsToCompactNtp us.toInt = some c ∧
          |1000 * compactNtpRttToMs c - us.toInt| ≤ 1000 ∧
          |compactNtpRttToMs c - max (us.toInt / 1000) 1| ≤ 1 :=
  ⟨fun _ _ h => saturatedUsToCompactNtp_mono h, fun _ h => saturatedUsToCompactNtp_of_nonpos h,
    fun _ h => saturatedUsToCompactNtp_of_large (by omega),
    fun _ _ h hc' => compactNtpRttToMs_mono h hc', compactNtpRttToMs_pos,
    fun _ hpos h => compactNtpRttToMs_saturated hpos h⟩

end NaiveRtc.Rtcp
