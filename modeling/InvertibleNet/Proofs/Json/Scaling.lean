/-
# Decimals through double precision

How close the number of a document comes to the decimal that its text writes. The digits fit the
significand and are held exactly; the power of ten is rounded beyond the twenty-second, and the
product or the quotient once more. A decimal that is itself a number of the format is hit exactly
where the power is.
-/

import InvertibleNet.Json.Number
import InvertibleNet.Proofs.Binary.Rounding

namespace InvertibleNet.Json

open Binary

variable {digits : Nat} {shift : ℤ}

/-- Digits that fit the significand are held exactly. -/
theorem ofNat_eq (some : 0 < digits) (fits : digits < 2 ^ 53) :
    ∃ significand exponent, (Double.ofNat digits).IsNormal significand exponent ∧
      (significand : ℚ) * 2 ^ exponent = digits ∧ -54 < exponent ∧ exponent ≤ 1 := by
  have least : (2 : ℚ) ^ (0 : ℤ) ≤ digits / (1 : Nat) := by
    rw [zpow_zero, Nat.cast_one, div_one]
    exact_mod_cast some
  have most : (digits / (1 : Nat) : ℚ) ≤ 2 ^ (53 : ℤ) := by
    rw [Nat.cast_one, div_one]
    exact_mod_cast fits.le
  obtain ⟨significand, exponent, normal, rounded⟩ := Double.isNormal_ofRatio some one_pos
    ((zpow_le_zpow_right₀ one_le_two (by decide)).trans least)
    (most.trans_lt (zpow_lt_zpow_right₀ one_lt_two (by decide)))
  obtain ⟨low, high⟩ := rounded.exponent_bounds least most
  refine ⟨significand, exponent, normal, ?_, by omega, by omega⟩
  rw [rounded.exact digits 0 fits (by simp), Nat.cast_one, div_one]

/-- A power of ten is held up to half a unit, and exactly while its odd part fits. -/
theorem powerOfTen_eq {power : Nat} (listed : power ≤ 60) :
    ∃ significand exponent,
      (Double.ofRatio false (Nat.pow 10 power) 1).IsNormal significand exponent ∧
        |(significand : ℚ) * 2 ^ exponent - 10 ^ power| ≤ 10 ^ power / 2 ^ 53 ∧
        (power ≤ 22 → (significand : ℚ) * 2 ^ exponent = 10 ^ power) ∧
        -54 < exponent ∧ exponent < 189 := by
  have value : ((Nat.pow 10 power : Nat) : ℚ) / (1 : Nat) = 10 ^ power := by
    rw [Nat.cast_one, div_one]
    exact Nat.cast_pow 10 power
  have least : (2 : ℚ) ^ (0 : ℤ) ≤ (10 : ℚ) ^ power := one_le_pow₀ (by norm_num)
  have most : (10 : ℚ) ^ power ≤ 2 ^ (240 : ℤ) := by
    calc (10 : ℚ) ^ power ≤ 16 ^ power := by gcongr; norm_num
      _ ≤ 16 ^ 60 := pow_le_pow_right₀ (by norm_num) listed
      _ = 2 ^ (240 : ℤ) := by norm_num
  have low : (2 : ℚ) ^ (-1000 : ℤ) ≤ (Nat.pow 10 power : Nat) / (1 : Nat) := by
    rw [value]
    exact (zpow_le_zpow_right₀ one_le_two (by decide)).trans least
  have high : ((Nat.pow 10 power : Nat) / (1 : Nat) : ℚ) < 2 ^ (900 : ℤ) := by
    rw [value]
    exact most.trans_lt (zpow_lt_zpow_right₀ one_lt_two (by decide))
  obtain ⟨significand, exponent, normal, rounded⟩ :=
    @Double.isNormal_ofRatio (Nat.pow 10 power) 1 (Nat.pow_pos (by decide)) one_pos low high
  rw [value] at rounded
  obtain ⟨low, high⟩ := rounded.exponent_bounds least most
  refine ⟨significand, exponent, normal, rounded.error, fun table => ?_, by omega, by omega⟩
  have odd : 5 ^ power < 2 ^ 53 :=
    (Nat.pow_le_pow_right (by decide) table).trans_lt (by decide)
  refine rounded.exact (5 ^ power) power odd ?_
  rw [zpow_natCast, Nat.cast_pow, ← mul_pow]
  norm_num

/-- Whether a number is what a decimal is read as: off by little more than two halves of its last
bit, and with a short shift not at all if the decimal is a number of the format. -/
structure IsReadAs (decimal : ℚ) (shift : ℤ) (significand : Nat) (exponent : ℤ) : Prop where
  error : |(significand : ℚ) * 2 ^ exponent - decimal| ≤ decimal * (9 / 2 ^ 55)
  exact (whole : Nat) (place : ℤ) : shift.natAbs ≤ 22 → whole < 2 ^ 53 →
    decimal = whole * 2 ^ place → (significand : ℚ) * 2 ^ exponent = decimal

/-- Two errors that follow each other. -/
theorem error_trans {decimal middle result : ℚ} (nonneg : 0 ≤ decimal)
    (first : |middle - decimal| ≤ decimal * (9 / 8 / 2 ^ 53))
    (second : |result - middle| ≤ middle / 2 ^ 53) :
    |result - decimal| ≤ decimal * (9 / 2 ^ 55) := by
  obtain ⟨low, high⟩ := abs_le.mp first
  obtain ⟨below, above⟩ := abs_le.mp second
  rw [abs_le]
  constructor <;> linarith

section Powers

variable {whole power held : ℚ}

/-- A product with a rounded power is off by as much as the power. -/
theorem mul_error (nonneg : 0 ≤ whole) (error : |held - power| ≤ power / 2 ^ 53) (ten : 0 < power) :
    |whole * held - whole * power| ≤ whole * power * (9 / 8 / 2 ^ 53) := by
  rw [← mul_sub, abs_mul, abs_of_nonneg nonneg, mul_assoc]
  refine mul_le_mul_of_nonneg_left (error.trans ?_) nonneg
  linarith

/-- A quotient by a rounded power is off by little more than the power. -/
theorem div_error (nonneg : 0 ≤ whole) (error : |held - power| ≤ power / 2 ^ 53) (ten : 0 < power) :
    |whole / held - whole * power⁻¹| ≤ whole * power⁻¹ * (9 / 8 / 2 ^ 53) := by
  obtain ⟨low, high⟩ := abs_le.mp error
  have large : power * (8 / 9) ≤ held := by linarith
  have positive : 0 < held := by linarith
  have apart : whole / held - whole * power⁻¹ = whole * power⁻¹ * ((power - held) / held) := by
    field_simp
  rw [apart, abs_mul, abs_of_nonneg (mul_nonneg nonneg (inv_nonneg.mpr ten.le)), abs_div,
    abs_of_pos positive, abs_sub_comm power held]
  refine mul_le_mul_of_nonneg_left ?_ (mul_nonneg nonneg (inv_nonneg.mpr ten.le))
  rw [div_le_iff₀ positive]
  linarith

end Powers

/-- Collected digits are scaled to a number that is what the decimal is read as. -/
theorem scaleByTen_eq (some : 0 < digits) (fits : digits < 2 ^ 53) (listed : shift.natAbs ≤ 60) :
    ∃ value significand exponent, scaleByTen (.ofNat digits) shift = .some value ∧
      value.IsNormal significand exponent ∧
      IsReadAs (digits * 10 ^ shift) shift significand exponent := by
  obtain ⟨first, place, number, worth, place_low, place_high⟩ := ofNat_eq some fits
  obtain ⟨factor, power, ten, error, table, power_low, power_high⟩ := powerOfTen_eq listed
  have positive : (0 : ℚ) ≤ digits := Nat.cast_nonneg digits
  have tens : (0 : ℚ) < 10 ^ shift.natAbs := by positivity
  rw [scaleByTen, if_pos (listed.trans (by decide))]
  dsimp only
  split
  · next up =>
    have whole : (10 : ℚ) ^ shift = 10 ^ shift.natAbs := by
      rw [← zpow_natCast, Int.natAbs_of_nonneg up]
    obtain ⟨significand, exponent, product, rounded⟩ := number.mul ten (by omega) (by omega)
    rw [worth] at rounded
    rw [product.isInfinite_eq, whole]
    refine ⟨_, significand, exponent, rfl, product, ?_, fun natural place short few value => ?_⟩
    · exact error_trans (by positivity) (mul_error positive error tens) rounded.error
    · rw [table short] at rounded
      exact rounded.exact natural place few value
  · next down =>
    have whole : (10 : ℚ) ^ shift = (10 ^ shift.natAbs)⁻¹ := by
      rw [← zpow_natCast, ← zpow_neg]
      congr 1
      omega
    obtain ⟨significand, exponent, quotient, rounded⟩ := number.div ten (by omega) (by omega)
    rw [worth] at rounded
    rw [whole]
    refine ⟨_, significand, exponent, rfl, quotient, ?_, fun natural place short few value => ?_⟩
    · exact error_trans (by positivity) (div_error positive error tens) rounded.error
    · rw [table short, div_eq_mul_inv] at rounded
      exact rounded.exact natural place few value

end InvertibleNet.Json
