/-
# Numbers of single precision read back

A number of single precision is written by its shortest decimal and read through double precision,
with a rounding for the power of ten and another for the product. The reading is as near to the
decimal as two roundings leave it; the decimal keeps further away from the two halves around the
number than that, or lies on one of them and is then read exactly. So rounding the reading gives
the number again. Six numbers next to the exceptional halves are read for themselves.
-/

import InvertibleNet.Proofs.Binary.Magnitude
import InvertibleNet.Proofs.Decimal.Shortest
import InvertibleNet.Proofs.Json.Literal
import InvertibleNet.Proofs.Json.Scaling

namespace InvertibleNet

open Binary Decimal Json

/-! ## Readings and halves -/

namespace Json.IsReadAs

variable {decimal half : ℚ} {shift : ℤ} {significand : Nat} {exponent : ℤ}

/-- The reading of a decimal far below a half is below it. -/
theorem lt_of_far (read : IsReadAs decimal shift significand exponent) (nonneg : 0 ≤ decimal)
    (below : decimal ≤ half) (far : half * (10 / 2 ^ 55) < |decimal - half|) :
    (significand : ℚ) * 2 ^ exponent < half := by
  have error := (abs_le.mp read.error).2
  rw [abs_of_nonpos (sub_nonpos.mpr below)] at far
  linarith

/-- The reading of a decimal far above a half is above it. -/
theorem gt_of_far (read : IsReadAs decimal shift significand exponent) (positive : 0 < half)
    (above : half ≤ decimal) (far : half * (10 / 2 ^ 55) < |decimal - half|) :
    half < (significand : ℚ) * 2 ^ exponent := by
  have error := (abs_le.mp read.error).1
  rw [abs_of_nonneg (sub_nonneg.mpr above)] at far
  linarith

end Json.IsReadAs

/-- A number next to a half that a decimal comes too near to. -/
def IsExceptional (significand : Nat) (exponent : ℤ) : Prop :=
  (exponent - 1, 2 * significand + 1) ∈ exceptions ∨ (exponent - 1, 2 * significand - 1) ∈ exceptions

section Sides

variable {power ten shift place : ℤ} {half digits whole : Nat}

/-- A reading lies on the same side of a half as its decimal. -/
structure KeepsSide (decimal reading half : ℚ) : Prop where
  below : decimal < half → reading < half
  equal : decimal = half → reading = half
  above : half < decimal → half < reading

/-- On a coarse grid every reading lies on the side of its decimal. -/
theorem keepsSide_of_coarse (read : IsReadAs (digits * 10 ^ ten) shift whole place)
    (short : -12 ≤ ten → (digits : ℚ) * 10 ^ ten < 10 ^ 20 → shift.natAbs ≤ 22)
    (least : -150 ≤ power) (most : power ≤ 103)
    (coarse : (9 : ℚ) * 2 ^ power < 10 * 10 ^ ten) (some : 0 < half) (small : half < 2 ^ 25)
    (regular : (power, half) ∉ exceptions) :
    KeepsSide (digits * 10 ^ ten) (whole * 2 ^ place) (half * 2 ^ power) := by
  have unit := two_zpow_pos power
  have positive : (0 : ℚ) < half * 2 ^ power := mul_pos (by exact_mod_cast some) unit
  have nonneg : (0 : ℚ) ≤ digits * 10 ^ ten := mul_nonneg (Nat.cast_nonneg _) (ten_zpow_pos _).le
  rcases halves_apart least most coarse some small digits with ⟨equal, fine, range⟩ | far | listed
  · have less : (digits : ℚ) * 10 ^ ten < 10 ^ 20 := by
      rw [equal]
      calc (half : ℚ) * 2 ^ power ≤ 2 ^ 25 * 2 ^ (40 : ℤ) :=
            mul_le_mul (by exact_mod_cast small.le) (zpow_le_zpow_right₀ one_le_two range) unit.le
              (by positivity)
        _ < 10 ^ 20 := by norm_num
    have exact := read.exact half power (short fine less) (small.trans (by decide)) equal
    exact ⟨fun less => absurd equal less.ne, fun equal => exact.trans equal,
      fun more => absurd equal more.ne'⟩
  · refine ⟨fun less => read.lt_of_far nonneg less.le far, fun equal => ?_,
      fun more => read.gt_of_far positive more.le far⟩
    rw [equal, sub_self, abs_zero] at far
    exact absurd far (not_lt.mpr (by positivity))
  · exact absurd listed regular

end Sides

/-! ## Rounding the reading -/

section Rounding

variable {significand whole : Nat} {exponent shift place : ℤ} {decimal : Decimal}

theorem upper_eq (significand : Nat) (exponent : ℤ) :
    Format.upper significand exponent = (2 * significand + 1 : Nat) * 2 ^ (exponent - 1) := by
  rw [Format.upper, zpow_sub_one₀ two_ne_zero]
  push_cast
  ring

/-- The half below a number is an odd multiple of a power of two as well. -/
theorem lower_eq (number : IsSingle significand exponent) : ∃ power half,
    single.lower significand exponent = (half : Nat) * 2 ^ power ∧ power ≤ exponent - 1 ∧
      -150 ≤ power ∧ 0 < half ∧ half < 2 ^ 25 ∧
        (power = exponent - 1 ∧ half = 2 * significand - 1 ∨ half = 2 ^ 25 - 1) := by
  obtain ⟨least, -, narrow⟩ := number.bounds
  have some := number.some
  have one : single.leadingOne = 2 ^ 23 := by decide
  have smallest : single.minExponent = -149 := by decide
  rw [Format.lower, one, smallest]
  split
  · next first =>
    obtain ⟨rfl, above⟩ := first
    refine ⟨exponent - 2, 2 ^ 25 - 1, ?_, by omega, by omega, by decide, by decide, .inr rfl⟩
    rw [zpow_sub₀ two_ne_zero]
    norm_num
    ring
  · refine ⟨exponent - 1, 2 * significand - 1, ?_, le_rfl, by omega, by omega, by omega,
      .inl ⟨rfl, rfl⟩⟩
    rw [zpow_sub_one₀ two_ne_zero, Nat.cast_sub (by omega)]
    push_cast
    ring

/-- On a fine grid the reading stays within a quarter of the last place. -/
theorem rounds_of_near (number : IsSingle significand exponent) {step value reading : ℚ}
    (fine : 10 * step ≤ 9 * 2 ^ (exponent - 1))
    (near : |value - significand * 2 ^ exponent| ≤ step / 2)
    (error : |reading - value| ≤ value * (9 / 2 ^ 55)) :
    single.Rounds significand exponent reading := by
  have unit := two_zpow_pos exponent
  have narrow : (significand : ℚ) + 1 ≤ 2 ^ 24 := by exact_mod_cast number.bounds.2.2
  have most : (significand : ℚ) * 2 ^ exponent + 2 ^ exponent ≤ 2 ^ 24 * 2 ^ exponent := by
    nlinarith
  rw [zpow_sub_one₀ two_ne_zero] at fine
  obtain ⟨above, below⟩ := abs_le.mp near
  obtain ⟨error_low, error_high⟩ := abs_le.mp error
  refine ⟨.inl ?_, .inl ?_⟩
  · rw [Format.lower]
    split <;> linarith
  · rw [Format.upper]
    linarith

/-- The reading of the decimal of a number is rounded to the number. -/
theorem rounds_reading (number : IsSingle significand exponent)
    (written : IsWritten significand exponent decimal) (regular : ¬ IsExceptional significand exponent)
    (read : IsReadAs (decimal.coefficient * 10 ^ decimal.exponent) shift whole place)
    (short : -12 ≤ decimal.exponent →
      (decimal.coefficient : ℚ) * 10 ^ decimal.exponent < 10 ^ 20 → shift.natAbs ≤ 22) :
    single.Rounds significand exponent (whole * 2 ^ place) := by
  obtain ⟨least, most, narrow⟩ := number.bounds
  obtain ⟨low, high⟩ := written.rounds
  rcases written.near with coarse | ⟨fine, near⟩
  · have above := keepsSide_of_coarse read short (by omega) (by omega) coarse
      (Nat.succ_pos (2 * significand)) (by omega) fun listed => regular (.inl listed)
    rw [← upper_eq] at above
    obtain ⟨power, half, lower, up, range, some, small, cases⟩ := lower_eq number
    have below := keepsSide_of_coarse read short range (by omega)
      (lt_of_le_of_lt (mul_le_mul_of_nonneg_left (zpow_le_zpow_right₀ one_le_two up) (by norm_num))
        coarse) some small fun listed => by
      rcases cases with ⟨rfl, rfl⟩ | rfl
      · exact regular (.inr listed)
      · simp [exceptions] at listed
    rw [← lower] at below
    exact ⟨low.imp below.above (And.imp_right fun equal => (below.equal equal.symm).symm),
      high.imp above.below (And.imp_right above.equal)⟩
  · exact rounds_of_near number fine near read.error

end Rounding

/-! ## Words -/

/-- A quotient with a sign is rounded like the one without. -/
theorem Single.ofRatio_true (numerator denominator : Nat) :
    ofRatio true numerator denominator = (ofRatio false numerator denominator).neg := by
  have small : single.nearest numerator denominator < 2 ^ 31 :=
    (Format.nearest_le_infinity _ _ _).trans_lt (by decide)
  refine eq_of_toNat_bits ?_
  unfold ofRatio neg
  generalize single.nearest numerator denominator = magnitude at small ⊢
  have word : magnitude.toUInt32.toNat = magnitude :=
    UInt32.toNat_ofNat_of_lt' (Nat.lt_trans small (by decide))
  show (magnitude.toUInt32 ||| 0x80000000).toNat = (magnitude.toUInt32 ^^^ 0x80000000).toNat
  rw [UInt32.toNat_or, UInt32.toNat_xor, word, Nat.or_comm]
  exact (Nat.two_pow_add_eq_or_of_lt small 1).symm.trans (xor_two_pow small).symm

namespace Double

variable {x : Double} {significand whole : Nat} {exponent place : ℤ}

/-- A number that is rounded to one of single precision becomes it. -/
theorem IsNormal.toSingle_eq (normal : x.IsNormal whole place)
    (number : IsSingle significand exponent)
    (rounds : single.Rounds significand exponent (whole * 2 ^ place)) :
    x.toSingle = ⟨(single.word significand exponent).toUInt32⟩ := by
  obtain ⟨some, value⟩ := scaled_value whole one_pos place
  rw [Nat.cast_one, div_one] at value
  have positive : (0 : ℚ) < whole * 2 ^ place := by
    have leading := normal.leading
    exact mul_pos (by exact_mod_cast (by omega : 0 < whole)) (two_zpow_pos place)
  have first : 0 < (scaled whole 1 place).1 := Nat.pos_of_ne_zero fun zero => by
    rw [zero, Nat.cast_zero, zero_div] at value
    exact positive.ne value
  have nearest := Format.nearest_eq number.canonical first some (value ▸ rounds)
  rw [Nat.min_eq_left number.finite.le] at nearest
  rw [toSingle, normal.datum]
  dsimp only
  rw [Single.ofRatio, nearest]
  rfl

/-- Turning the sign of a normal number over sets it. -/
theorem IsNormal.neg_datum (normal : x.IsNormal whole place) :
    x.neg.datum = .finite true whole place := by
  have bounded : x.bits.toNat < 2 * double.signWord := x.bits.toNat_lt
  obtain ⟨canonical, finite, word⟩ := Format.word_of_decode bounded normal.datum
  rw [Bool.toNat_false, Nat.zero_mul, Nat.zero_add] at word
  have small : x.bits.toNat < 2 ^ 63 := word ▸ finite.trans (by decide)
  have bits : x.neg.bits.toNat = 1 * double.signWord + double.word whole place := by
    rw [neg, UInt64.toNat_xor, ← word]
    exact xor_two_pow small
  rw [Double.datum, bits]
  exact Format.decode_word canonical (by decide) finite

/-- Turning the sign over and rounding may be done in either order. -/
theorem IsNormal.neg_toSingle (normal : x.IsNormal whole place) :
    x.neg.toSingle = x.toSingle.neg := by
  rw [toSingle, normal.neg_datum, toSingle, normal.datum]
  exact Single.ofRatio_true _ _

end Double

namespace Single

/-- The word of a finite number stands for a number. -/
theorem exists_datum {x : Single} (finite : x.isFinite = true) :
    ∃ negative significand exponent, x.datum = .finite negative significand exponent := by
  rw [isFinite_iff] at finite
  have fraction : single.fractionBits = 23 := rfl
  have fields : single.exponentFields = 256 := by decide
  unfold datum Format.decode
  dsimp only
  rw [fraction, fields, Nat.shiftRight_eq_div_pow, if_neg (by omega)]
  split
  · exact ⟨_, _, _, rfl⟩
  · exact ⟨_, _, _, rfl⟩

/-- Whether the text of a number in a document stands for that number again. -/
def ReadsBack (x : Single) : Prop :=
  ∀ literal, x.documentText? = some literal →
    (Number.ofText literal.toList).map (·.toSingle) = .ok x

instance (x : Single) : Decidable x.ReadsBack :=
  inferInstanceAs (Decidable (∀ literal ∈ x.documentText?,
    (Number.ofText literal.toList).map (·.toSingle) = .ok x))

/-- The words of zero and of the six numbers next to the exceptional halves, without a sign. -/
def specialWords : List Nat :=
  [0, 363742205, 363742206, 372130813, 372130814, 853298129, 853298130]

/-- The two zeros and the numbers next to the exceptional halves read back. -/
theorem readsBack_special : ∀ sign < 2, ∀ word ∈ specialWords,
    (Single.mk (sign * 0x80000000 + word).toUInt32).ReadsBack := by
  decide +kernel

section Finite

variable {significand : Nat} {exponent : ℤ}

theorem word_special (number : IsSingle significand exponent)
    (special : IsExceptional significand exponent) :
    single.word significand exponent ∈ specialWords := by
  have some := number.some
  have listed : ((significand = 11420669 ∨ significand = 11420670) ∧
        (exponent = -107 ∨ exponent = -106)) ∨
      ((significand = 14437329 ∨ significand = 14437330) ∧ exponent = -49) := by
    unfold IsExceptional exceptions at special
    simp only [List.mem_cons, Prod.mk.injEq, List.not_mem_nil, or_false] at special
    omega
  rcases listed with ⟨rfl | rfl, rfl | rfl⟩ | ⟨rfl | rfl, rfl⟩ <;> decide

/-- The text of a number that is not zero has the digits of its decimal. -/
theorem toList_text (negative : Bool) (some : 0 < significand) :
    (Layout.documentSingle.text single (.finite negative significand exponent)).toList =
      if negative then '-' :: (Layout.documentSingle.ofDecimal
          (shortest single .toEven significand exponent)).toList
        else (Layout.documentSingle.ofDecimal
          (shortest single .toEven significand exponent)).toList := by
  rw [Layout.text, if_neg some.ne']
  cases negative <;> simp [Layout.documentSingle]

/-- The digits of a number are read as a number of double precision that becomes it again. -/
theorem reads_shortest (number : IsSingle significand exponent)
    (regular : ¬ IsExceptional significand exponent) :
    ∃ collected shift value,
      IsScaled (Layout.documentSingle.ofDecimal
        (shortest single .toEven significand exponent)).toList collected shift ∧
      scaleByTen (.ofNat collected) shift = some value ∧
      value.toSingle = ⟨(single.word significand exponent).toUInt32⟩ ∧
      value.neg.toSingle = (⟨(single.word significand exponent).toUInt32⟩ : Single).neg := by
  have written := isWritten_shortest number .toEven
  generalize shortest single .toEven significand exponent = decimal at written ⊢
  obtain ⟨least, most⟩ := written.range number
  obtain ⟨collected, shift, scaled, place, fits, worth⟩ :=
    Layout.isScaled_ofDecimal written.positive (written.few number) (by omega)
  have some : 0 < collected := Nat.pos_of_ne_zero fun zero => by
    rw [zero, Nat.cast_zero, zero_mul] at worth
    exact (mul_pos (Nat.cast_pos.mpr written.positive) (ten_zpow_pos _)).ne worth
  have below := exponent_lt some (worth ▸ written.value_lt number)
  obtain ⟨value, whole, power, scales, normal, read⟩ :=
    @scaleByTen_eq collected shift some fits (by omega)
  rw [worth] at read
  have rounds := rounds_reading number written regular read fun fine less => by
    have below : shift < 20 := exponent_lt some (by rw [worth]; exact_mod_cast less)
    omega
  have rounded := normal.toSingle_eq number rounds
  exact ⟨collected, shift, value, scaled, scales, rounded, rounded ▸ normal.neg_toSingle⟩

/-- A finite number has the word of its magnitude, with the sign turned over if it is negative. -/
theorem eq_of_datum {x : Single} {negative : Bool}
    (datum : x.datum = .finite negative significand exponent) :
    x = if negative then (⟨(single.word significand exponent).toUInt32⟩ : Single).neg
      else ⟨(single.word significand exponent).toUInt32⟩ := by
  obtain ⟨-, below, bits⟩ := Format.word_of_decode x.bits.toNat_lt datum
  have sign : single.signWord = 2 ^ 31 := by decide
  have small : single.word significand exponent < 2 ^ 31 := Nat.lt_trans below (by decide)
  rw [sign] at bits
  generalize single.word significand exponent = word at small bits ⊢
  have held : word.toUInt32.toNat = word :=
    UInt32.toNat_ofNat_of_lt' (Nat.lt_trans small (by decide))
  refine eq_of_toNat_bits ?_
  cases negative with
  | false => simpa [held] using bits
  | true =>
      rw [bits]
      show true.toNat * 2 ^ 31 + word = (word.toUInt32 ^^^ 0x80000000).toNat
      rw [UInt32.toNat_xor, held, Bool.toNat_true, Nat.one_mul]
      exact (xor_two_pow small).symm

/-- Every number of single precision reads back from its text. -/
theorem readsBack (x : Single) : x.ReadsBack := by
  by_cases finite : x.isFinite = true
  · obtain ⟨negative, significand, exponent, datum⟩ := exists_datum finite
    obtain ⟨canonical, below, bits⟩ := Format.word_of_decode x.bits.toNat_lt datum
    have special (listed : single.word significand exponent ∈ specialWords) : x.ReadsBack := by
      have word : x = ⟨(negative.toNat * 0x80000000 + single.word significand exponent).toUInt32⟩ := by
        have sign : single.signWord = 0x80000000 := by decide
        rw [← sign, ← bits, Nat.toUInt32_eq, UInt32.ofNat_toNat]
      rw [word]
      exact readsBack_special negative.toNat negative.toNat_lt _ listed
    rcases Nat.eq_zero_or_pos significand with rfl | some
    · refine special ?_
      rw [canonical.leading.resolve_left (by decide)]
      decide
    · have number : IsSingle significand exponent := ⟨canonical, some, below⟩
      by_cases exceptional : IsExceptional significand exponent
      · exact special (word_special number exceptional)
      · obtain ⟨collected, shift, value, scaled, scales, positive, turned⟩ :=
          reads_shortest number exceptional
        intro literal text
        rw [documentText?, if_pos finite, datum] at text
        cases text
        rw [toList_text negative some, scaled negative value scales, eq_of_datum datum]
        cases negative with
        | false => exact congrArg Except.ok positive
        | true => exact congrArg Except.ok turned
  · intro literal text
    rw [documentText?, if_neg finite] at text
    cases text

end Finite

end Single

end InvertibleNet
