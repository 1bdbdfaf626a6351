/-
# Products and quotients of double precision

How far a product or a quotient of two numbers is from the exact one. The float model keeps, next
to a significand, one bit for the half and one for everything below; together they say on which
side of a half the exact value lies, and shifting keeps them right. So what is rounded is off by
half a unit of the last place at most, and not at all where the exact value has a place.
-/

import InvertibleNet.Proofs.Binary.Finite
import InvertibleNet.Proofs.Binary.Nearest

namespace InvertibleNet

open Float.Model Float.Model.UnpackedFloat

namespace Binary

/-! ## A significand with its two bits -/

/-- Which exact values a significand stands for, with its bit for the half and its bit for what
is below. -/
inductive Represents : ExtendedMantissa → ℚ → Prop
  | exact (mantissa : Nat) : Represents ⟨mantissa, false, false⟩ mantissa
  | below {mantissa : Nat} {value : ℚ} (above : mantissa < value) (less : value < mantissa + 1 / 2) :
      Represents ⟨mantissa, false, true⟩ value
  | half (mantissa : Nat) : Represents ⟨mantissa, true, false⟩ (mantissa + 1 / 2)
  | above {mantissa : Nat} {value : ℚ} (more : mantissa + 1 / 2 < value)
      (less : value < mantissa + 1) : Represents ⟨mantissa, true, true⟩ value

theorem shiftRightOne_even (whole : Nat) (half rest : Bool) :
    (⟨2 * whole, half, rest⟩ : ExtendedMantissa).shiftRightOne = ⟨whole, false, half || rest⟩ := by
  simp [ExtendedMantissa.shiftRightOne]

theorem shiftRightOne_odd (whole : Nat) (half rest : Bool) :
    (⟨2 * whole + 1, half, rest⟩ : ExtendedMantissa).shiftRightOne =
      ⟨whole, true, half || rest⟩ := by
  simp [ExtendedMantissa.shiftRightOne, Nat.mul_add_div]

namespace Represents

variable {extended : ExtendedMantissa} {value : ℚ}

theorem bounds (represents : Represents extended value) :
    (extended.mantissa : ℚ) ≤ value ∧ value < extended.mantissa + 1 := by
  cases represents with
  | exact mantissa => exact ⟨le_rfl, by linarith⟩
  | below above less => exact ⟨above.le, by linarith⟩
  | half mantissa => constructor <;> linarith
  | above more less => exact ⟨by linarith, less⟩

/-- One place further up the last bit says on which side of the half the value lies, and the two
bits together whether it lies on the half. -/
theorem shiftRightOne (represents : Represents extended value) :
    Represents extended.shiftRightOne (value / 2) := by
  obtain ⟨mantissa, first, rest⟩ := extended
  obtain ⟨whole, rfl | rfl⟩ := Nat.even_or_odd' mantissa
  · rw [shiftRightOne_even]
    cases represents with
    | exact =>
        rw [Nat.cast_mul, Nat.cast_ofNat, mul_div_cancel_left₀ _ two_ne_zero]
        exact exact whole
    | below above less =>
        push_cast at above less
        exact below (by linarith) (by linarith)
    | half =>
        push_cast
        exact below (by linarith) (by linarith)
    | above more less =>
        push_cast at more less
        exact below (by linarith) (by linarith)
  · rw [shiftRightOne_odd]
    cases represents with
    | exact =>
        have middle : ((2 * whole + 1 : Nat) : ℚ) / 2 = whole + 1 / 2 := by
          push_cast
          ring
        rw [middle]
        exact half whole
    | below more less =>
        push_cast at more less
        exact above (by linarith) (by linarith)
    | half =>
        push_cast
        exact above (by linarith) (by linarith)
    | above more less =>
        push_cast at more less
        exact above (by linarith) (by linarith)

theorem shiftRight (represents : Represents extended value) (shift : Nat) :
    Represents (extended >>> shift) (value / 2 ^ shift) := by
  induction shift with
  | zero =>
      rw [pow_zero, div_one]
      exact represents
  | succ shift ih =>
      have next := ih.shiftRightOne
      rwa [div_div, ← pow_succ] at next

/-- What a significand is rounded to, by its two bits. -/
theorem rounded_cases (represents : Represents extended value) :
    (extended.roundedMantissa = extended.mantissa ∧ value ≤ extended.mantissa + 1 / 2) ∨
      (extended.roundedMantissa = extended.mantissa + 1 ∧
        extended.mantissa + 1 / 2 ≤ value) := by
  cases represents with
  | exact mantissa => exact .inl ⟨rfl, by linarith⟩
  | below above less => exact .inl ⟨rfl, less.le⟩
  | half mantissa =>
      have rounded : (⟨mantissa, true, false⟩ : ExtendedMantissa).roundedMantissa =
          mantissa + mantissa % 2 := rfl
      rw [rounded]
      rcases Nat.mod_two_eq_zero_or_one mantissa with even | odd
      · exact .inl ⟨congrArg (mantissa + ·) even, le_rfl⟩
      · exact .inr ⟨congrArg (mantissa + ·) odd, le_rfl⟩
  | above more less => exact .inr ⟨rfl, more.le⟩

/-- Rounding is off by half a unit at most. -/
theorem rounded_error (represents : Represents extended value) :
    |(extended.roundedMantissa : ℚ) - value| ≤ 1 / 2 := by
  obtain ⟨least, most⟩ := represents.bounds
  rw [abs_le]
  rcases represents.rounded_cases with ⟨rounded, near⟩ | ⟨rounded, near⟩ <;> rw [rounded]
  · constructor <;> linarith
  · push_cast
    constructor <;> linarith

end Represents

/-! ## Rounding to a normal number -/

/-- Whether a normal number is what a value is rounded to: off by half a unit of the last place of
the value at most, and not at all if the value is a number of as many bits. -/
structure IsRounded (significand : Nat) (exponent : ℤ) (value : ℚ) : Prop where
  leading : 2 ^ 52 ≤ significand
  narrow : significand < 2 ^ 53
  error : |(significand : ℚ) * 2 ^ exponent - value| ≤ value / 2 ^ 53
  exact (whole : Nat) (place : ℤ) : whole < 2 ^ 53 → value = whole * 2 ^ place →
    (significand : ℚ) * 2 ^ exponent = value

/-- The last place of a rounded value goes with the binades between which the value lies. -/
theorem IsRounded.exponent_bounds {significand : Nat} {exponent low high : ℤ} {value : ℚ}
    (rounded : IsRounded significand exponent value) (above : (2 : ℚ) ^ low ≤ value)
    (below : value ≤ 2 ^ high) : low - 54 < exponent ∧ exponent < high - 51 := by
  have unit := two_zpow_pos exponent
  obtain ⟨least, most⟩ := abs_le.mp rounded.error
  have leading : (2 : ℚ) ^ (52 : ℤ) ≤ significand := by exact_mod_cast rounded.leading
  have narrow : (significand : ℚ) < 2 ^ (53 : ℤ) := by exact_mod_cast rounded.narrow
  have positive : 0 < value := (two_zpow_pos low).trans_le above
  constructor
  · have step : (2 : ℚ) ^ (low - 1) < 2 ^ (53 + exponent) := by
      rw [zpow_add₀ two_ne_zero, zpow_sub_one₀ two_ne_zero]
      calc (2 : ℚ) ^ low * 2⁻¹ ≤ value * 2⁻¹ := by gcongr
        _ ≤ significand * 2 ^ exponent := by linarith
        _ < 2 ^ (53 : ℤ) * 2 ^ exponent := by gcongr
    have := (zpow_lt_zpow_iff_right₀ one_lt_two).mp step
    omega
  · have step : (2 : ℚ) ^ (52 + exponent) < 2 ^ (high + 1) := by
      rw [zpow_add₀ two_ne_zero, zpow_add_one₀ two_ne_zero]
      calc (2 : ℚ) ^ (52 : ℤ) * 2 ^ exponent ≤ significand * 2 ^ exponent := by gcongr
        _ ≤ value + value / 2 ^ 53 := by linarith
        _ < value * 2 := by linarith
        _ ≤ 2 ^ high * 2 := by gcongr
    have := (zpow_lt_zpow_iff_right₀ one_lt_two).mp step
    omega

/-- A significand of at least fifty-three bits is shifted until it has just as many. -/
theorem shiftToTargetExponent_eq {mantissa : Nat} {exponent : ℤ} (accuracy : Accuracy)
    (wide : 2 ^ 52 ≤ mantissa) (normal : -1022 ≤ mantissa.log2 + exponent) :
    shiftToTargetExponent Format.binary64 mantissa exponent accuracy =
      (ExtendedMantissa.ofMantissaAndAccuracy mantissa accuracy >>> (mantissa.log2 - 52),
        exponent + (mantissa.log2 - 52 : Nat)) := by
  have bits : 52 ≤ mantissa.log2 := (Nat.le_log2 (by omega)).mpr wide
  have shift : (max (totalExponent mantissa exponent - 53) (-1074) - exponent).toNat =
      mantissa.log2 - 52 := by
    unfold totalExponent
    omega
  simp only [shiftToTargetExponent, shiftToExponent, targetExponent_eq, shift]

/-- A significand that was rounded up to a bit more is shifted back. -/
theorem shiftToTargetExponent_rounded {rounded : Nat} {exponent : ℤ} (leading : 2 ^ 52 ≤ rounded)
    (narrow : rounded ≤ 2 ^ 53) (normal : -1074 ≤ exponent) :
    ∃ extended place,
      shiftToTargetExponent Format.binary64 rounded exponent .exact = (extended, place) ∧
        2 ^ 52 ≤ extended.mantissa ∧ extended.mantissa < 2 ^ 53 ∧ exponent ≤ place ∧
        place ≤ exponent + 1 ∧
        (extended.mantissa : ℚ) * 2 ^ place = rounded * 2 ^ exponent := by
  have bits : 52 ≤ rounded.log2 := (Nat.le_log2 (by omega)).mpr leading
  refine ⟨_, _, shiftToTargetExponent_eq .exact leading (by omega), ?_⟩
  rw [mantissa_shiftRight, mantissa_ofMantissaAndAccuracy]
  rcases narrow.lt_or_eq with less | rfl
  · have top : rounded.log2 = 52 := by
      have := (Nat.log2_lt (by omega)).mpr less
      omega
    rw [top, Nat.sub_self, pow_zero, Nat.div_one, Nat.cast_zero, add_zero]
    exact ⟨leading, less, le_rfl, by omega, rfl⟩
  · have top : (2 ^ 53 : Nat).log2 = 53 := Nat.log2_two_pow
    rw [top, zpow_add₀ two_ne_zero]
    refine ⟨by decide, by decide, by omega, le_rfl, ?_⟩
    norm_num
    ring

/-- A natural within half a unit of a value stays between the naturals around the value. -/
theorem rounded_bounds {rounded low high : Nat} {units : ℚ}
    (half : |(rounded : ℚ) - units| ≤ 1 / 2) (large : (low : ℚ) ≤ units) (small : units < high) :
    low ≤ rounded ∧ rounded ≤ high := by
  obtain ⟨above, below⟩ := abs_le.mp half
  have least : (low : ℚ) < rounded + 1 := by linarith
  have most : (rounded : ℚ) < high + 1 := by linarith
  exact ⟨Nat.lt_succ_iff.mp (by exact_mod_cast least), Nat.lt_succ_iff.mp (by exact_mod_cast most)⟩

/-- Half a unit, in the place where a value has fifty-three bits: it is half of what the last bit
of the value is worth, and a value with no more bits is whole in this place. -/
theorem isRounded_of_half {rounded significand : Nat} {units : ℚ} {exponent place : ℤ}
    (half : |(rounded : ℚ) - units| ≤ 1 / 2) (large : 2 ^ 52 ≤ units)
    (same : (significand : ℚ) * 2 ^ place = rounded * 2 ^ exponent)
    (leading : 2 ^ 52 ≤ significand) (narrow : significand < 2 ^ 53) :
    IsRounded significand place (units * 2 ^ exponent) := by
  refine ⟨leading, narrow, ?_, fun whole power few value => ?_⟩
  · rw [same, ← sub_mul, abs_mul, abs_of_pos (two_zpow_pos exponent), mul_div_right_comm]
    exact mul_le_mul_of_nonneg_right (half.trans (by linarith)) (two_zpow_pos exponent).le
  have moved : units = whole * 2 ^ (power - exponent) := by
    rw [zpow_sub₀ two_ne_zero, ← mul_div_assoc, ← value, mul_div_cancel_right₀]
    exact (two_zpow_pos exponent).ne'
  rcases Int.lt_or_le power exponent with below | above
  · have half : (2 : ℚ) ^ (power - exponent) ≤ 1 / 2 := by
      have := zpow_le_zpow_right₀ (a := (2 : ℚ)) one_le_two (show power - exponent ≤ -1 by omega)
      rwa [zpow_neg_one, ← one_div] at this
    have few : (whole : ℚ) < 2 ^ 53 := by exact_mod_cast few
    have small : units < 2 ^ 52 := by
      calc units = whole * 2 ^ (power - exponent) := moved
        _ ≤ whole * (1 / 2) := by gcongr
        _ < 2 ^ 52 := by linarith
    exact absurd large (not_le.mpr small)
  · have natural : units = ((whole * 2 ^ (power - exponent).toNat : Nat) : ℚ) := by
      rw [moved, Nat.cast_mul, Nat.cast_pow, Nat.cast_ofNat, pow_toNat (by omega)]
    rw [natural] at half ⊢
    generalize whole * 2 ^ (power - exponent).toNat = natural at half ⊢
    obtain ⟨low, high⟩ := abs_le.mp half
    have least : natural < rounded + 1 := by
      exact_mod_cast (by linarith : (natural : ℚ) < rounded + 1)
    have most : rounded < natural + 1 := by
      exact_mod_cast (by linarith : (rounded : ℚ) < natural + 1)
    obtain rfl : rounded = natural := by omega
    exact same

/-- A significand without its bits behind the first fifty-three. -/
theorem leading_bits {mantissa : Nat} (wide : 2 ^ 52 ≤ mantissa) :
    2 ^ 52 ≤ mantissa / 2 ^ (mantissa.log2 - 52) ∧ mantissa / 2 ^ (mantissa.log2 - 52) < 2 ^ 53 := by
  have bits : 52 ≤ mantissa.log2 := (Nat.le_log2 (by omega)).mpr wide
  have carried : 53 + (mantissa.log2 - 52) = mantissa.log2 + 1 := by omega
  rw [Nat.le_div_iff_mul_le (Nat.two_pow_pos _), Nat.div_lt_iff_lt_mul (Nat.two_pow_pos _),
    ← Nat.pow_add, ← Nat.pow_add, Nat.add_sub_of_le bits, carried]
  exact ⟨Nat.log2_self_le (by omega), Nat.lt_log2_self⟩

/-- A significand with at least fifty-three bits is rounded to a normal number. -/
theorem roundWithAccuracy_eq (sign : Sign) {mantissa : Nat} {exponent : ℤ} {accuracy : Accuracy}
    {units : ℚ}
    (represents : Represents (ExtendedMantissa.ofMantissaAndAccuracy mantissa accuracy) units)
    (wide : 2 ^ 52 ≤ mantissa) (normal : -1022 ≤ mantissa.log2 + exponent) :
    ∃ significand place positive,
      roundWithAccuracy Format.binary64 sign mantissa exponent accuracy =
        .finite sign significand place positive ∧
      IsRounded significand place (units * 2 ^ exponent) ∧ -1074 ≤ place ∧
        place ≤ mantissa.log2 + exponent - 51 := by
  have shifted := represents.shiftRight (mantissa.log2 - 52)
  have first := shiftToTargetExponent_eq accuracy wide normal
  obtain ⟨leading, narrow⟩ := leading_bits wide
  rw [← mantissa_ofMantissaAndAccuracy mantissa accuracy, ← mantissa_shiftRight,
    mantissa_ofMantissaAndAccuracy] at leading narrow
  generalize ExtendedMantissa.ofMantissaAndAccuracy mantissa accuracy >>> (mantissa.log2 - 52) =
    extended at shifted first leading narrow
  obtain ⟨least, most⟩ := roundedMantissa_bounds extended
  have bits : 52 ≤ mantissa.log2 := (Nat.le_log2 (by omega)).mpr wide
  obtain ⟨final, place, second, wide_final, narrow_final, low, high, same⟩ :=
    @shiftToTargetExponent_rounded _ (exponent + (mantissa.log2 - 52 : Nat))
      (leading.trans least) (most.trans narrow) (by omega)
  have value : units * 2 ^ exponent =
      units / 2 ^ (mantissa.log2 - 52) * 2 ^ (exponent + (mantissa.log2 - 52 : Nat)) := by
    rw [zpow_add₀ two_ne_zero, zpow_natCast]
    field_simp
  have large : (2 ^ 52 : ℚ) ≤ units / 2 ^ (mantissa.log2 - 52) :=
    le_trans (by exact_mod_cast leading) shifted.bounds.1
  refine ⟨final.mantissa, place, by omega, ?_, ?_, by omega, by omega⟩
  · simp only [roundWithAccuracy, first, second]
    exact dif_neg (by omega)
  · rw [value]
    exact isRounded_of_half shifted.rounded_error large same wide_final narrow_final

/-- A significand that nothing was cut off stands for itself. -/
theorem represents_whole (mantissa : Nat) :
    Represents (ExtendedMantissa.ofMantissaAndAccuracy mantissa .exact) mantissa :=
  .exact mantissa

/-- A quotient by its whole part and what its remainder says. -/
theorem represents_quotient (dividend : Nat) {divisor : Nat} (some : 0 < divisor) :
    Represents (ExtendedMantissa.ofMantissaAndAccuracy (dividend / divisor)
      (accuracyOfFraction (dividend % divisor) divisor)) (dividend / divisor : ℚ) := by
  have positive : (0 : ℚ) < divisor := Nat.cast_pos.mpr some
  have parts : (dividend / divisor : ℚ) =
      (dividend / divisor : Nat) + (dividend % divisor : Nat) / divisor := by
    have whole : (dividend : ℚ) =
        (dividend / divisor : Nat) * divisor + (dividend % divisor : Nat) := by
      exact_mod_cast (Nat.div_add_mod' dividend divisor).symm
    rw [div_eq_iff positive.ne', add_mul, div_mul_cancel₀ _ positive.ne']
    exact whole
  have less : ((dividend % divisor : Nat) : ℚ) / divisor < 1 := by
    rw [div_lt_one positive]
    exact_mod_cast Nat.mod_lt dividend some
  rw [parts]
  generalize dividend / divisor = whole
  generalize dividend % divisor = remainder at less ⊢
  unfold accuracyOfFraction
  split
  · next none =>
    rw [none, Nat.cast_zero, zero_div, add_zero]
    exact .exact whole
  · next rest =>
    have more : (0 : ℚ) < remainder / divisor :=
      div_pos (Nat.cast_pos.mpr (Nat.pos_of_ne_zero rest)) positive
    rcases Nat.lt_trichotomy (2 * remainder) divisor with below | half | above
    · rw [Nat.compare_eq_lt.mpr below]
      have part : (remainder / divisor : ℚ) < 1 / 2 := by
        rw [div_lt_div_iff₀ positive two_pos]
        exact_mod_cast (by omega : remainder * 2 < 1 * divisor)
      exact .below (by linarith) (by linarith)
    · rw [Nat.compare_eq_eq.mpr half]
      have part : (remainder / divisor : ℚ) = 1 / 2 := by
        rw [div_eq_div_iff positive.ne' two_ne_zero]
        exact_mod_cast (by omega : remainder * 2 = 1 * divisor)
      rw [part]
      exact .half whole
    · rw [Nat.compare_eq_gt.mpr above]
      have part : (1 / 2 : ℚ) < remainder / divisor := by
        rw [div_lt_div_iff₀ two_pos positive]
        exact_mod_cast (by omega : 1 * divisor < remainder * 2)
      exact .above (by linarith) (by linarith)

/-! ## Packing a normal number -/

/-- The word of two fields without a sign. -/
theorem toNat_packComponents (biased : BitVec 11) (fraction : BitVec 52) :
    (packComponents Format.binary64 .positive biased fraction).toNat =
      biased.toNat * 2 ^ 52 + fraction.toNat := by
  have biased_lt : biased.toNat < 2 ^ 11 := biased.isLt
  have fraction_lt : fraction.toNat < 2 ^ 52 := fraction.isLt
  simp only [packComponents, BitVec.toNat_append]
  rw [← Nat.shiftLeft_add_eq_or_of_lt biased_lt, ← Nat.shiftLeft_add_eq_or_of_lt fraction_lt,
    Nat.shiftLeft_eq, Nat.shiftLeft_eq]
  have none : Sign.positive.toBitVec.toNat = 0 := rfl
  rw [none]
  omega

/-- A normal number is packed into its word. -/
theorem toNat_pack_normal {significand : Nat} {exponent : ℤ} {positive : 0 < significand}
    (leading : 2 ^ 52 ≤ significand) (narrow : significand < 2 ^ 53) (low : -1074 ≤ exponent)
    (high : exponent ≤ 971) :
    (UnpackedFloat.pack Format.binary64 (.finite .positive significand exponent positive)).toNat =
      double.word significand exponent := by
  have bits : significand.log2 + 1 = 53 := by
    have lower := (Nat.le_log2 positive.ne').mpr leading
    have upper := (Nat.log2_lt positive.ne').mpr narrow
    omega
  have smallest : double.minExponent = -1074 := rfl
  have unit : double.leadingOne = 2 ^ 52 := rfl
  rw [pack_finite, if_neg (by omega), if_pos bits, toNat_packComponents, BitVec.toNat_ofNat,
    BitVec.toNat_ofNat, Format.word, smallest, unit]
  omega

end Binary

namespace Double

open Binary

variable {x y : Double} {significand factor : Nat} {exponent power : ℤ}

/-- Whether a word stands for a positive normal number of a significand and an exponent. -/
structure IsNormal (x : Double) (significand : Nat) (exponent : ℤ) : Prop where
  datum : x.datum = .finite false significand exponent
  leading : 2 ^ 52 ≤ significand
  narrow : significand < 2 ^ 53

theorem IsNormal.unpacked (normal : x.IsNormal significand exponent) :
    ∃ positive, x.unpacked = .finite .positive significand exponent positive := by
  have positive : 0 < significand := by
    have := normal.leading
    omega
  have reads := x.unpacks
  rw [normal.datum] at reads
  generalize x.unpacked = held at reads ⊢
  cases reads with
  | zero => exact absurd positive (Nat.lt_irrefl 0)
  | finite negative significand exponent some => exact ⟨some, rfl⟩

/-- The word of a normal number stands for it. -/
theorem isNormal_of_word (word : x.bits.toNat = double.word significand exponent)
    (leading : 2 ^ 52 ≤ significand) (narrow : significand < 2 ^ 53) (low : -1074 ≤ exponent)
    (high : exponent ≤ 971) : x.IsNormal significand exponent := by
  refine ⟨?_, leading, narrow⟩
  have smallest : double.minExponent = -1074 := rfl
  have unit : double.leadingOne = 2 ^ 52 := rfl
  have top : double.infinity = 2047 * 2 ^ 52 := rfl
  have canonical : double.IsCanonical significand exponent := ⟨by omega, by omega, .inl leading⟩
  have finite : double.word significand exponent < double.infinity := by
    rw [Format.word, smallest, unit, top]
    omega
  have decoded := @Format.decode_word _ _ _ canonical 0 (by decide) finite
  rw [Nat.zero_mul, Nat.zero_add, ← word] at decoded
  exact decoded

/-- A word that is packed from a normal number stands for it. -/
theorem isNormal_of_packed {positive : 0 < significand}
    (packed : x.bits.toNat =
      (UnpackedFloat.pack Format.binary64 (.finite .positive significand exponent positive)).toNat)
    (leading : 2 ^ 52 ≤ significand) (narrow : significand < 2 ^ 53) (low : -1074 ≤ exponent)
    (high : exponent ≤ 971) : x.IsNormal significand exponent :=
  isNormal_of_word (packed.trans (toNat_pack_normal leading narrow low high)) leading narrow low high

theorem IsNormal.isInfinite_eq (normal : x.IsNormal significand exponent) : x.isInfinite = false := by
  have finite : x.IsFinite := by
    rw [IsFinite, normal.datum]
    rfl
  rw [isFinite_iff_magnitude] at finite
  rw [Bool.eq_false_iff, ne_eq, isInfinite_iff_magnitude]
  omega

theorem IsNormal.log2_eq (normal : x.IsNormal significand exponent) : significand.log2 = 52 := by
  have leading := normal.leading
  have positive : significand ≠ 0 := by omega
  have lower := (Nat.le_log2 positive).mpr leading
  have upper := (Nat.log2_lt positive).mpr normal.narrow
  omega

/-- A product of normal numbers in the middle of the range is the exact one, rounded. -/
theorem IsNormal.mul (first : x.IsNormal significand exponent) (second : y.IsNormal factor power)
    (low : -1100 ≤ exponent + power) (high : exponent + power ≤ 900) :
    ∃ result place, (x.mul y).IsNormal result place ∧
      IsRounded result place (significand * 2 ^ exponent * (factor * 2 ^ power)) := by
  obtain ⟨positive, unpacked⟩ := first.unpacked
  obtain ⟨some, other⟩ := second.unpacked
  have product : 0 < significand * factor := Nat.mul_pos positive some
  have least : 2 ^ (52 + 52) ≤ significand * factor := by
    rw [Nat.pow_add]
    exact Nat.mul_le_mul first.leading second.leading
  have most : significand * factor < 2 ^ (53 + 53) := by
    rw [Nat.pow_add]
    exact Nat.mul_lt_mul'' first.narrow second.narrow
  have low_bits := (Nat.le_log2 product.ne').mpr least
  have high_bits := (Nat.log2_lt product.ne').mpr most
  have wide : 2 ^ 52 ≤ significand * factor :=
    (Nat.pow_le_pow_right two_pos (by decide)).trans least
  obtain ⟨result, place, nonzero, rounds, is_rounded, above, below⟩ :=
    @roundWithAccuracy_eq (.positive * .positive) _ (exponent + power) _ _
      (represents_whole (significand * factor)) wide (by omega)
  have value : ((significand * factor : Nat) : ℚ) * 2 ^ (exponent + power) =
      significand * 2 ^ exponent * (factor * 2 ^ power) := by
    rw [zpow_add₀ two_ne_zero]
    push_cast
    ring
  rw [value] at is_rounded
  refine ⟨result, place, @isNormal_of_packed _ _ _ nonzero ?_ is_rounded.leading
    is_rounded.narrow above (by omega), is_rounded⟩
  rw [toNat_bits_mul, unpacked, other, UnpackedFloat.mul, rounds]
  rfl

/-- Two normal numbers are divided with fifty-three bits more in front. -/
theorem divCore_eq (first : x.IsNormal significand exponent) (second : y.IsNormal factor power)
    (low : -1000 ≤ exponent - power) :
    divCore Format.binary64 significand exponent factor power =
      (significand * 2 ^ 53 / factor, exponent - power - 53,
        accuracyOfFraction (significand * 2 ^ 53 % factor) factor) := by
  have target : min (exponent - power) (max (totalExponent significand exponent -
      totalExponent factor power - 53) (-1074)) = exponent - power - 53 := by
    unfold totalExponent
    rw [first.log2_eq, second.log2_eq]
    omega
  have shift : (exponent - power - (exponent - power - 53)).toNat = 53 := by omega
  simp only [divCore, targetExponent_eq, target, shift, Nat.shiftLeft_eq]

/-- A quotient of normal numbers in the middle of the range is the exact one, rounded. -/
theorem IsNormal.div (first : x.IsNormal significand exponent) (second : y.IsNormal factor power)
    (low : -1000 ≤ exponent - power) (high : exponent - power ≤ 1000) :
    ∃ result place, (x.div y).IsNormal result place ∧
      IsRounded result place (significand * 2 ^ exponent / (factor * 2 ^ power)) := by
  obtain ⟨positive, unpacked⟩ := first.unpacked
  obtain ⟨some, other⟩ := second.unpacked
  have leading := first.leading
  have narrow := second.narrow
  have wide : 2 ^ 52 ≤ significand * 2 ^ 53 / factor := by
    rw [Nat.le_div_iff_mul_le some]
    exact Nat.mul_le_mul leading narrow.le
  have bits := (Nat.le_log2 (by omega)).mpr wide
  have most : (significand * 2 ^ 53 / factor).log2 < 54 := by
    refine (Nat.log2_lt (by omega)).mpr (Nat.div_lt_of_lt_mul ?_)
    have above := second.leading
    have below := first.narrow
    omega
  obtain ⟨result, place, nonzero, rounds, is_rounded, above, below⟩ :=
    @roundWithAccuracy_eq (.positive / .positive) _ (exponent - power - 53) _ _
      (represents_quotient (significand * 2 ^ 53) some) wide (by omega)
  have value : ((significand * 2 ^ 53 : Nat) : ℚ) / factor * 2 ^ (exponent - power - 53) =
      significand * 2 ^ exponent / (factor * 2 ^ power) := by
    have nonzero : (factor : ℚ) ≠ 0 := Nat.cast_ne_zero.mpr some.ne'
    rw [zpow_sub₀ two_ne_zero, zpow_sub₀ two_ne_zero]
    push_cast
    field_simp
  rw [value] at is_rounded
  refine ⟨result, place, @isNormal_of_packed _ _ _ nonzero ?_ is_rounded.leading
    is_rounded.narrow above (by omega), is_rounded⟩
  rw [toNat_bits_div, unpacked, other, UnpackedFloat.div, divCore_eq first second low]
  simp only [rounds]
  rfl

/-- A number whose nearest word is that of a normal number stands for it. -/
theorem isNormal_of_nearest {numerator denominator : Nat}
    (nearest : double.nearest numerator denominator =
      min (double.word significand exponent) double.infinity)
    (leading : 2 ^ 52 ≤ significand) (narrow : significand < 2 ^ 53) (low : -1074 ≤ exponent)
    (high : exponent ≤ 971) :
    (ofRatio false numerator denominator).IsNormal significand exponent := by
  have smallest : double.minExponent = -1074 := rfl
  have unit : double.leadingOne = 2 ^ 52 := rfl
  have top : double.infinity = 2047 * 2 ^ 52 := rfl
  have finite : double.word significand exponent < 2047 * 2 ^ 52 := by
    rw [Format.word, smallest, unit]
    omega
  have bits : (ofRatio false numerator denominator).bits.toNat =
      double.nearest numerator denominator % 2 ^ 64 := rfl
  refine isNormal_of_word ?_ leading narrow low high
  rw [bits, nearest, top, Nat.min_eq_left finite.le]
  omega

/-- The number of a quotient in the middle of the range is the exact one, rounded. -/
theorem isNormal_ofRatio {numerator denominator : Nat} (first : 0 < numerator)
    (some : 0 < denominator) (low : (2 : ℚ) ^ (-1000 : ℤ) ≤ numerator / denominator)
    (high : (numerator / denominator : ℚ) < 2 ^ (900 : ℤ)) :
    ∃ significand exponent, (ofRatio false numerator denominator).IsNormal significand exponent ∧
      IsRounded significand exponent (numerator / denominator) := by
  obtain ⟨starts, ends⟩ := binaryMagnitude_spec first some
  have lowest := (zpow_lt_zpow_iff_right₀ one_lt_two).mp (low.trans_lt ends)
  have highest := (zpow_lt_zpow_iff_right₀ one_lt_two).mp (starts.trans_lt high)
  obtain ⟨place, magnitude⟩ : ∃ place, binaryMagnitude numerator denominator = place + 52 :=
    ⟨binaryMagnitude numerator denominator - 52, by omega⟩
  rw [magnitude] at starts ends lowest highest
  have last : max (binaryMagnitude numerator denominator - double.fractionBits)
      double.minExponent = place := by
    have bits : (double.fractionBits : ℤ) = 52 := rfl
    have smallest : double.minExponent = -1074 := rfl
    omega
  have nearest := Format.nearest_of_place first last
  obtain ⟨unit, scale⟩ := scaled_value numerator some (-place)
  have half := roundedQuotient_error (scaled numerator denominator (-place)).1 unit
  rw [scale] at half
  generalize roundedQuotient (scaled numerator denominator (-place)).1
    (scaled numerator denominator (-place)).2 = rounded at nearest half
  -- the quotient in units of its last place
  have value : (numerator / denominator : ℚ) =
      numerator / denominator * 2 ^ (-place) * 2 ^ place := by
    rw [mul_assoc, ← zpow_add₀ two_ne_zero, neg_add_cancel, zpow_zero, mul_one]
  generalize (numerator / denominator : ℚ) * 2 ^ (-place) = units at value half
  rw [value] at starts ends ⊢
  rw [zpow_add₀ two_ne_zero, mul_comm, mul_le_mul_iff_of_pos_right (two_zpow_pos place)] at starts
  rw [show place + 52 + 1 = 53 + place by ring, zpow_add₀ two_ne_zero,
    mul_lt_mul_iff_of_pos_right (two_zpow_pos place)] at ends
  have large : (2 ^ 52 : ℚ) ≤ units := starts
  have small : units < (2 ^ 53 : ℚ) := ends
  obtain ⟨least, most⟩ : 2 ^ 52 ≤ rounded ∧ rounded ≤ 2 ^ 53 :=
    rounded_bounds half (by exact_mod_cast large) (by exact_mod_cast small)
  rcases most.lt_or_eq with less | rfl
  · exact ⟨rounded, place, isNormal_of_nearest nearest least less (by omega) (by omega),
      isRounded_of_half half large rfl least less⟩
  · refine ⟨2 ^ 52, place + 1, isNormal_of_nearest ?_ le_rfl (by decide) (by omega) (by omega),
      isRounded_of_half half large ?_ le_rfl (by decide)⟩
    · have carried := @Format.word_carry double (place + 1)
        (show (-1074 : ℤ) < place + 1 by omega)
      rw [add_sub_cancel_right] at carried
      rw [nearest]
      exact congrArg (min · double.infinity) carried
    · rw [zpow_add₀ two_ne_zero]
      push_cast
      ring

end Double

end InvertibleNet
