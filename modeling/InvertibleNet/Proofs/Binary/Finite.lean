/-
# Numbers that stay finite

Which operations on doubles lead from numbers to numbers. A product of two numbers is
a number or infinite and never anything else, so a check for infinity behind it is
enough. A quotient by something that is at least two needs no check: it loses at least
one binade, and rounding gives back no more than that one.

The argument runs on the model of floats, where a finite number is a significand with
an exponent, and the position of its first bit says in which binade it lies.
-/

import InvertibleNet.Count
import InvertibleNet.Proofs.Binary.Order

namespace InvertibleNet

open Float.Model Float.Model.UnpackedFloat

namespace Binary

/-! ## Packing -/

/-- The exponent and the fraction of a packed word, in their places. -/
theorem magnitude_packComponents (sign : Sign) (biased : BitVec 11) (fraction : BitVec 52) :
    (packComponents Format.binary64 sign biased fraction).toNat % 2 ^ 63 =
      biased.toNat * 2 ^ 52 + fraction.toNat := by
  have biased_lt : biased.toNat < 2 ^ 11 := biased.isLt
  have fraction_lt : fraction.toNat < 2 ^ 52 := fraction.isLt
  have word : (packComponents Format.binary64 sign biased fraction).toNat =
      (sign.toBitVec.toNat * 2 ^ 11 + biased.toNat) * 2 ^ 52 + fraction.toNat := by
    simp only [packComponents, BitVec.toNat_append]
    rw [← Nat.shiftLeft_add_eq_or_of_lt biased_lt, ← Nat.shiftLeft_add_eq_or_of_lt fraction_lt,
      Nat.shiftLeft_eq, Nat.shiftLeft_eq]
  rw [word]
  omega

theorem magnitude_packedInfinity (sign : Sign) :
    (packedInfinity Format.binary64 sign).toNat % 2 ^ 63 = 0x7ff0000000000000 :=
  magnitude_packComponents sign (-1#_) 0

theorem magnitude_packedZero (sign : Sign) :
    (packedZero Format.binary64 sign).toNat % 2 ^ 63 = 0 :=
  magnitude_packComponents sign 0 0

/-- Whether what the float model holds is packed as a number, with its magnitude below the
word of infinity. -/
def PacksFinite (x : UnpackedFloat) : Prop :=
  (UnpackedFloat.pack Format.binary64 x).toNat % 2 ^ 63 < 0x7ff0000000000000

theorem packsFinite_zero (sign : Sign) : PacksFinite (.zero sign) := by
  rw [PacksFinite, UnpackedFloat.pack, magnitude_packedZero]
  decide

theorem pack_finite (sign : Sign) (significand : Nat) (exponent : Int)
    (positive : 0 < significand) :
    UnpackedFloat.pack Format.binary64 (.finite sign significand exponent positive) =
      if 2048 ≤ (exponent + 1023 + 52).toNat + 1 then packedInfinity Format.binary64 sign
      else if significand.log2 + 1 = 53 then
        packComponents Format.binary64 sign (BitVec.ofNat 11 (exponent + 1023 + 52).toNat)
          (BitVec.ofNat 52 significand)
      else packComponents Format.binary64 sign 0#11 (BitVec.ofNat 52 significand) := rfl

/-- A significand whose exponent is in range is packed as a number. -/
theorem packsFinite_finite {sign : Sign} {significand : Nat} {exponent : Int}
    {positive : 0 < significand} (inside : exponent ≤ 971) :
    PacksFinite (.finite sign significand exponent positive) := by
  have fraction_lt : (BitVec.ofNat 52 significand).toNat < 2 ^ 52 := BitVec.isLt _
  have biased_le : (BitVec.ofNat 11 (exponent + 1023 + 52).toNat).toNat ≤ 2046 :=
    Nat.le_trans (Nat.mod_le _ _) (by omega)
  rw [PacksFinite, pack_finite, if_neg (by omega)]
  split
  · rw [magnitude_packComponents]
    omega
  · rw [magnitude_packComponents, BitVec.toNat_ofNat 0]
    omega

/-- What is a number in the float model is packed as a number or as infinity. -/
theorem magnitude_pack_le {x : UnpackedFloat} (finite : x.isFinite = true) :
    (UnpackedFloat.pack Format.binary64 x).toNat % 2 ^ 63 ≤ 0x7ff0000000000000 := by
  cases x with
  | notANumber => cases finite
  | infinity sign => cases finite
  | zero sign => exact (packsFinite_zero sign).le
  | finite sign significand exponent positive =>
      by_cases inside : exponent ≤ 971
      · exact (packsFinite_finite inside).le
      · rw [pack_finite, if_pos (by omega), magnitude_packedInfinity]

/-! ## Rounding -/

theorem targetExponent_eq (total : Int) :
    Format.binary64.targetExponent total = max (total - 53) (-1074) := rfl

theorem mantissa_shiftRight (extended : ExtendedMantissa) (shift : Nat) :
    (extended >>> shift).mantissa = extended.mantissa / 2 ^ shift := by
  induction shift with
  | zero => exact (Nat.div_one _).symm
  | succ shift ih =>
      show (extended >>> shift).mantissa / 2 = _
      rw [ih, Nat.div_div_eq_div_mul, Nat.pow_succ]

theorem mantissa_ofMantissaAndAccuracy (significand : Nat) (accuracy : Accuracy) :
    (ExtendedMantissa.ofMantissaAndAccuracy significand accuracy).mantissa = significand := by
  cases accuracy with
  | exact => rfl
  | inexact order => cases order <;> rfl

/-- Rounding takes nothing away and adds one unit of the last place at most. -/
theorem roundedMantissa_bounds (extended : ExtendedMantissa) :
    extended.mantissa ≤ extended.roundedMantissa ∧
      extended.roundedMantissa ≤ extended.mantissa + 1 := by
  unfold ExtendedMantissa.roundedMantissa
  cases extended.accuracy with
  | exact => exact ⟨Nat.le_refl _, Nat.le_succ _⟩
  | inexact order =>
      cases order with
      | lt => exact ⟨Nat.le_refl _, Nat.le_succ _⟩
      | eq =>
          simp only [Accuracy.roundToNearestEven]
          omega
      | gt => exact ⟨Nat.le_succ _, Nat.le_refl _⟩

theorem isFinite_roundWithAccuracy (sign : Sign) (significand : Nat) (exponent : Int)
    (accuracy : Accuracy) :
    (roundWithAccuracy Format.binary64 sign significand exponent accuracy).isFinite = true := by
  simp only [roundWithAccuracy]
  split <;> rfl

/-- A significand that is shifted and rounded has no more bits than were left of it and one. -/
theorem log2_le_of_shifted {significand shift rounded : Nat}
    (near : rounded ≤ significand / 2 ^ shift + 1) :
    rounded.log2 ≤ significand.log2 + 1 - shift := by
  have below : significand < 2 ^ (significand.log2 + 1) := Nat.lt_log2_self
  have left : significand / 2 ^ shift < 2 ^ (significand.log2 + 1 - shift) := by
    by_cases some : shift ≤ significand.log2 + 1
    · apply Nat.div_lt_of_lt_mul
      rwa [← Nat.pow_add, Nat.add_sub_of_le some]
    · have none : significand < 2 ^ shift :=
        below.trans (Nat.pow_lt_pow_right (by decide) (by omega))
      rw [Nat.div_eq_of_lt none]
      exact Nat.two_pow_pos _
  by_cases zero : rounded = 0
  · rw [zero]
    exact Nat.zero_le _
  · apply Nat.le_of_lt_succ
    rw [Nat.log2_lt zero, Nat.pow_succ]
    omega

theorem rounded_le (significand shift : Nat) (accuracy : Accuracy) :
    (ExtendedMantissa.ofMantissaAndAccuracy significand accuracy >>> shift).roundedMantissa ≤
      significand / 2 ^ shift + 1 := by
  have rounded := (roundedMantissa_bounds
    (ExtendedMantissa.ofMantissaAndAccuracy significand accuracy >>> shift)).2
  rwa [mantissa_shiftRight, mantissa_ofMantissaAndAccuracy] at rounded

/-- What lies a binade below the largest numbers is rounded to a number. -/
theorem packsFinite_round {sign : Sign} {significand : Nat} {exponent : Int}
    {accuracy : Accuracy} (low : totalExponent significand exponent ≤ 1023)
    (inside : exponent ≤ 971) :
    PacksFinite (roundWithAccuracy Format.binary64 sign significand exponent accuracy) := by
  simp only [roundWithAccuracy]
  split
  · exact packsFinite_zero sign
  · apply packsFinite_finite
    simp only [shiftToTargetExponent, shiftToExponent, targetExponent_eq]
    generalize shifts : (max (totalExponent significand exponent - 53) (-1074) - exponent).toNat =
      shift
    have bits := log2_le_of_shifted (rounded_le significand shift accuracy)
    unfold totalExponent at low shifts ⊢
    omega

/-! ## Products and quotients -/

theorem isFinite_mul {x y : UnpackedFloat} (first : x.isFinite = true)
    (second : y.isFinite = true) : (UnpackedFloat.mul Format.binary64 x y).isFinite = true := by
  cases x with
  | notANumber => cases first
  | infinity sign => cases first
  | zero sign =>
      cases y with
      | notANumber => cases second
      | infinity other => cases second
      | zero other => rfl
      | finite other divisor power some => rfl
  | finite sign significand exponent positive =>
      cases y with
      | notANumber => cases second
      | infinity other => cases second
      | zero other => rfl
      | finite other factor power some => exact isFinite_roundWithAccuracy _ _ _ _

/-- A quotient has the bits that the divisor leaves over. -/
theorem log2_div_le (significand shift : Nat) {divisor : Nat} (some : 0 < divisor) :
    ((significand <<< shift) / divisor).log2 ≤ significand.log2 + shift - divisor.log2 := by
  have above : 2 ^ divisor.log2 ≤ divisor := Nat.log2_self_le some.ne'
  have below : significand <<< shift < 2 ^ (significand.log2 + shift + 1) := by
    rw [Nat.shiftLeft_eq, Nat.add_right_comm, Nat.pow_add]
    exact Nat.mul_lt_mul_of_pos_right Nat.lt_log2_self (Nat.two_pow_pos shift)
  by_cases wider : divisor.log2 ≤ significand.log2 + shift
  · by_cases zero : (significand <<< shift) / divisor = 0
    · rw [zero]
      exact Nat.zero_le _
    apply Nat.le_of_lt_succ
    rw [Nat.log2_lt zero]
    apply Nat.div_lt_of_lt_mul
    calc significand <<< shift < 2 ^ (significand.log2 + shift + 1) := below
      _ = 2 ^ divisor.log2 * 2 ^ (significand.log2 + shift - divisor.log2 + 1) := by
          rw [← Nat.pow_add]
          congr 1
          omega
      _ ≤ divisor * 2 ^ (significand.log2 + shift - divisor.log2).succ :=
          Nat.mul_le_mul_right _ above
  · have none : significand <<< shift < divisor :=
      below.trans_le ((Nat.pow_le_pow_right (by decide) (by omega)).trans above)
    rw [Nat.div_eq_of_lt none]
    exact Nat.zero_le _

/-- A number divided by at least two is packed as a number. -/
theorem packsFinite_div {sign other : Sign} {significand divisor : Nat} {exponent power : Int}
    {positive : 0 < significand} {some : 0 < divisor}
    (fits : totalExponent significand exponent ≤ 1024)
    (two_le : 2 ≤ totalExponent divisor power) :
    PacksFinite (UnpackedFloat.div Format.binary64 (.finite sign significand exponent positive)
      (.finite other divisor power some)) := by
  simp only [UnpackedFloat.div, divCore, targetExponent_eq]
  generalize target : min (exponent - power)
    (max (totalExponent significand exponent - totalExponent divisor power - 53) (-1074)) = placed
  have bits := log2_div_le significand (exponent - power - placed).toNat some
  apply packsFinite_round
  · unfold totalExponent at fits two_le target ⊢
    omega
  · omega

/-! ## The number nearest to a natural -/

theorem roundedQuotient_le (dividend divisor : Nat) :
    roundedQuotient dividend divisor ≤ dividend / divisor + 1 := by
  unfold roundedQuotient
  dsimp only
  split
  · exact Nat.le_refl _
  · exact Nat.le_succ _

/-- A natural of some bits that is scaled has as many bits more or less. -/
theorem scaled_quotient_lt {value bits place : Nat} {exponent : Int} (narrow : value < 2 ^ bits)
    (fits : bits + exponent ≤ place) :
    (scaled value 1 exponent).1 / (scaled value 1 exponent).2 < 2 ^ place := by
  unfold scaled
  split
  · next upward =>
    calc value * 2 ^ exponent.toNat / 1 = value * 2 ^ exponent.toNat := Nat.div_one _
      _ < 2 ^ bits * 2 ^ exponent.toNat :=
          Nat.mul_lt_mul_of_pos_right narrow (Nat.two_pow_pos _)
      _ = 2 ^ (bits + exponent.toNat) := (Nat.pow_add 2 _ _).symm
      _ ≤ 2 ^ place := Nat.pow_le_pow_right (by decide) (by omega)
  · next downward =>
    apply Nat.div_lt_of_lt_mul
    calc value < 2 ^ bits := narrow
      _ ≤ 2 ^ ((-exponent).toNat + place) := Nat.pow_le_pow_right (by decide) (by omega)
      _ = 1 * 2 ^ (-exponent).toNat * 2 ^ place := by rw [Nat.one_mul, Nat.pow_add]

theorem binaryMagnitude_natural (value : Nat) :
    binaryMagnitude value 1 ≤ value.log2 ∧ (value.log2 - 1 : Int) ≤ binaryMagnitude value 1 := by
  have one : Nat.log2 1 = 0 := by decide
  unfold binaryMagnitude
  rw [one]
  dsimp only
  split <;> omega

/-- A natural of a word is far below infinity. -/
theorem nearest_natural_lt {value : Nat} (fits : value < 2 ^ 64) :
    double.nearest value 1 < 0x7ff0000000000000 := by
  by_cases zero : value = 0
  · rw [Format.nearest, if_pos zero]
    decide
  have bits : value.log2 < 64 := (Nat.log2_lt zero).mpr fits
  obtain ⟨magnitude_le, le_magnitude⟩ := binaryMagnitude_natural value
  have smallest : double.minExponent = -1074 := rfl
  have fraction : double.fractionBits = 52 := rfl
  have leading : double.leadingOne = 2 ^ 52 := rfl
  rw [Format.nearest, if_neg zero, smallest, fraction, leading]
  generalize binaryMagnitude value 1 = magnitude at magnitude_le le_magnitude ⊢
  have last : max (magnitude - (52 : Nat)) (-1074) = magnitude - 52 := by omega
  rw [last]
  dsimp only
  have quotient : (scaled value 1 (-(magnitude - 52))).1 /
      (scaled value 1 (-(magnitude - 52))).2 < 2 ^ 54 :=
    scaled_quotient_lt Nat.lt_log2_self (by omega)
  have rounded := roundedQuotient_le (scaled value 1 (-(magnitude - 52))).1
    (scaled value 1 (-(magnitude - 52))).2
  apply Nat.lt_of_le_of_lt (Nat.min_le_left _ _)
  omega

/-! ## Reading a word -/

/-- The last place of a number is never above that of the largest ones. -/
theorem decode_exponent_le {word significand : Nat} {negative : Bool} {exponent : Int}
    (finite : double.decode word = .finite negative significand exponent) : exponent ≤ 971 := by
  rw [decode_eq] at finite
  split at finite
  · split at finite <;> cases finite
  · split at finite
    · cases finite
      decide
    · cases finite
      omega

end Binary

/-! ## Numbers -/

namespace Double

/-- Whether the word stands for a number. -/
def IsFinite (x : Double) : Prop := x.datum.value?.isSome = true

instance (x : Double) : Decidable x.IsFinite := inferInstanceAs (Decidable (_ = true))

theorem isFinite_iff_unpacked (x : Double) : x.IsFinite ↔ x.unpacked.isFinite = true := by
  have reads := x.unpacks
  unfold IsFinite
  generalize x.datum = datum, x.unpacked = unpacked at reads
  cases reads <;> simp [Binary.Datum.value?, UnpackedFloat.isFinite]

theorem isFinite_iff_magnitude (x : Double) :
    x.IsFinite ↔ x.bits.toNat % 2 ^ 63 < 0x7ff0000000000000 := by
  rw [IsFinite, datum, Binary.decode_eq]
  split
  · have none : (if x.bits.toNat % 2 ^ 52 = 0 then
        Binary.Datum.infinite (x.bits.toNat >>> 63 % 2 == 1) else .nan).value? = none := by
      split <;> rfl
    rw [none]
    exact iff_of_false Bool.false_ne_true (by omega)
  · have some : ∀ negative significand exponent,
        (Binary.Datum.finite negative significand exponent).value?.isSome = true :=
      fun _ _ _ => rfl
    refine iff_of_true ?_ (by omega)
    split <;> exact some _ _ _

theorem isInfinite_iff_magnitude (x : Double) :
    x.isInfinite = true ↔ x.bits.toNat % 2 ^ 63 = 0x7ff0000000000000 := by
  have magnitude : (x.bits &&& 0x7fffffffffffffff).toNat = x.bits.toNat % 2 ^ 63 := by
    rw [UInt64.toNat_and]
    exact Nat.and_two_pow_sub_one_eq_mod _ 63
  rw [isInfinite, beq_iff_eq, ← UInt64.toNat_inj, magnitude]
  rfl

variable {x y : Double}

/-- Turning the sign over leaves a number a number. -/
theorem IsFinite.neg (finite : x.IsFinite) : x.neg.IsFinite := by
  have magnitude : x.neg.bits.toNat % 2 ^ 63 = x.bits.toNat % 2 ^ 63 := by
    rw [Double.neg, UInt64.toNat_xor, Nat.xor_mod_two_pow]
    exact Nat.xor_zero _
  rw [isFinite_iff_magnitude] at finite ⊢
  rwa [magnitude]

/-- The significand of a number has its first bit below the binade of infinity. -/
theorem IsFinite.unpacked_cases (finite : x.IsFinite) :
    (∃ sign, x.unpacked = .zero sign) ∨
      ∃ sign significand exponent positive,
        x.unpacked = .finite sign significand exponent positive ∧
          totalExponent significand exponent ≤ 1024 := by
  rw [isFinite_iff_unpacked] at finite
  have reads := x.unpacks
  have small {negative significand exponent} :
      x.datum = .finite negative significand exponent → significand < 2 ^ 53 ∧ exponent ≤ 971 :=
    fun datum => ⟨(Binary.decode_canonical datum).1, Binary.decode_exponent_le datum⟩
  generalize x.datum = datum at reads small
  generalize x.unpacked = unpacked at finite reads ⊢
  cases reads with
  | nan => cases finite
  | infinite negative => cases finite
  | zero negative exponent => exact .inl ⟨_, rfl⟩
  | finite negative significand exponent positive =>
      refine .inr ⟨_, significand, exponent, positive, rfl, ?_⟩
      obtain ⟨narrow, low⟩ := small rfl
      have bits := (Nat.log2_lt positive.ne').mpr narrow
      unfold totalExponent
      omega

theorem toNat_bits_mul (x y : Double) :
    (x.mul y).bits.toNat = (UnpackedFloat.pack Format.binary64
      (UnpackedFloat.mul Format.binary64 x.unpacked y.unpacked)).toNat := by
  rw [← unpack_toFloat, ← unpack_toFloat]
  rfl

theorem toNat_bits_div (x y : Double) :
    (x.div y).bits.toNat = (UnpackedFloat.pack Format.binary64
      (UnpackedFloat.div Format.binary64 x.unpacked y.unpacked)).toNat := by
  rw [← unpack_toFloat, ← unpack_toFloat]
  rfl

/-- A product of numbers that is not infinite is a number. -/
theorem IsFinite.mul (first : x.IsFinite) (second : y.IsFinite)
    (bounded : (x.mul y).isInfinite = false) : (x.mul y).IsFinite := by
  rw [isFinite_iff_unpacked] at first second
  have packed := Binary.magnitude_pack_le (Binary.isFinite_mul first second)
  rw [← toNat_bits_mul] at packed
  rw [← Bool.not_eq_true, isInfinite_iff_magnitude] at bounded
  rw [isFinite_iff_magnitude]
  omega

/-- Whether a number is two or more and no more than the largest one. -/
def IsScale (x : Double) : Prop :=
  0x4000000000000000 ≤ x.bits.toNat ∧ x.bits.toNat < 0x7ff0000000000000

instance (x : Double) : Decidable x.IsScale := inferInstanceAs (Decidable (_ ∧ _))

theorem IsScale.isFinite (scale : x.IsScale) : x.IsFinite := by
  obtain ⟨-, bounded⟩ := scale
  rw [isFinite_iff_magnitude]
  omega

/-- A scale has its first bit in front of the place of ones. -/
theorem IsScale.unpacked (scale : x.IsScale) :
    ∃ sign significand exponent positive,
      x.unpacked = .finite sign significand exponent positive ∧
        2 ≤ totalExponent significand exponent := by
  obtain ⟨two_le, bounded⟩ := scale
  have reads := x.unpacks
  rw [datum, Binary.decode_eq, if_neg (by omega), if_neg (by omega)] at reads
  generalize x.unpacked = unpacked at reads ⊢
  generalize kept : x.bits.toNat % 2 ^ 52 + 2 ^ 52 = significand at reads
  generalize place : (-1074 + (x.bits.toNat / 2 ^ 52 % 2048 : Nat) - 1 : Int) = exponent at reads
  cases reads with
  | zero negative exponent => omega
  | finite negative significand exponent positive =>
      refine ⟨_, significand, exponent, positive, rfl, ?_⟩
      have bits : 52 ≤ significand.log2 := (Nat.le_log2 positive.ne').mpr (by omega)
      unfold totalExponent
      omega

/-- A number divided by a scale is a number. -/
theorem IsFinite.div (finite : x.IsFinite) (scale : y.IsScale) : (x.div y).IsFinite := by
  have quotient : Binary.PacksFinite
      (UnpackedFloat.div Format.binary64 x.unpacked y.unpacked) := by
    obtain ⟨other, divisor, power, some, divides, two_le⟩ := scale.unpacked
    rw [divides]
    rcases finite.unpacked_cases with ⟨sign, zero⟩ | ⟨sign, significand, exponent, _, number, fits⟩
    · rw [zero]
      exact Binary.packsFinite_zero _
    · rw [number]
      exact Binary.packsFinite_div fits two_le
  rw [isFinite_iff_magnitude, toNat_bits_div]
  exact quotient

/-! ## Numbers of counts -/

theorem isFinite_ofRatio_iff (numerator denominator : Nat) :
    (ofRatio false numerator denominator).IsFinite ↔
      Binary.double.nearest numerator denominator < 0x7ff0000000000000 := by
  have nearest_le : Binary.double.nearest numerator denominator ≤ 0x7ff0000000000000 := by
    unfold Binary.Format.nearest
    split
    · decide
    · exact Nat.min_le_right _ _
  have word : (ofRatio false numerator denominator).bits.toNat =
      Binary.double.nearest numerator denominator % 2 ^ 64 := rfl
  rw [isFinite_iff_magnitude, word]
  omega

theorem isFinite_ofNat {value : Nat} (fits : value < Count.limit) : (ofNat value).IsFinite := by
  rw [ofNat, isFinite_ofRatio_iff]
  exact Binary.nearest_natural_lt fits

/-- The powers of ten that numbers are scaled by. -/
theorem isScale_powerOfTen : ∀ power < 309, 1 ≤ power →
    (ofRatio false (Nat.pow 10 power) 1).IsScale := by
  decide +kernel

theorem isFinite_powerOfTen {power : Nat} (listed : power < 309) :
    (ofRatio false (Nat.pow 10 power) 1).IsFinite := by
  rcases Nat.eq_zero_or_pos power with rfl | some
  · decide
  · exact (isScale_powerOfTen power listed some).isFinite

end Double

end InvertibleNet
