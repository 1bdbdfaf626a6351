/-
# The order of double precision

Comparisons of doubles run on floats, whose meaning is a model that unpacks the
word. That model reads the same sign, significand and exponent from a word as the
format does, so a comparison can be stated on the exact number the word stands
for. Only the two comparisons with zero and one are needed: they decide whether a
rate is a proper fraction.
-/

import Mathlib
import InvertibleNet.Binary.Double

namespace InvertibleNet

open Float.Model Float.Model.UnpackedFloat

namespace Binary

/-! ## Words as the float model reads them -/

/-- The sign of the float model. -/
def signOf (negative : Bool) : Sign := if negative then .negative else .positive

/-- How the float model holds a datum: a finite number whose significand is zero
has a constructor of its own there. -/
inductive Datum.Unpacks : Datum → UnpackedFloat → Prop
  | nan : Unpacks .nan .notANumber
  | infinite (negative : Bool) : Unpacks (.infinite negative) (.infinity (signOf negative))
  | zero (negative : Bool) (exponent : Int) :
      Unpacks (.finite negative 0 exponent) (.zero (signOf negative))
  | finite (negative : Bool) (significand : Nat) (exponent : Int) (positive : 0 < significand) :
      Unpacks (.finite negative significand exponent)
        (.finite (signOf negative) significand exponent positive)

/-- The significand of a normal number has its leading one in front of the fraction. -/
theorem toNat_normal (fraction : BitVec 52) : (1#1 ++ fraction).toNat = 2 ^ 52 + fraction.toNat := by
  rw [BitVec.toNat_append, ← Nat.shiftLeft_add_eq_or_of_lt fraction.isLt]
  rfl

/-- The number that a datum stands for, if it is one. -/
def Datum.value? : Datum → Option ℚ
  | .finite negative significand exponent =>
      some ((if negative then -1 else 1) * (significand * 2 ^ exponent))
  | _ => none

/-- The three fields of a word, as the float model reads them. -/
def ofFields (sign : Sign) (biased : BitVec 11) (fraction : BitVec 52) : UnpackedFloat :=
  if biased = -1#11 then
    if fraction = 0#52 then .infinity sign else .notANumber
  else if biased = 0#11 then
    if positive : fraction = 0#52 then .zero sign
    else .finite sign fraction.toNat (biased.toNat - (1023 + 52 : Nat) + 1)
      (Nat.pos_of_ne_zero fun none => positive (BitVec.eq_of_toNat_eq none))
  else .finite sign (1#1 ++ fraction).toNat (biased.toNat - (1023 + 52 : Nat))
      (by rw [toNat_normal]; exact Nat.add_pos_left (by decide) _)

theorem unpack_eq (word : BitVec 64) :
    UnpackedFloat.unpack Format.binary64 word =
      ofFields (Sign.ofBitVec (@unpackSign Format.binary64 word))
        (@unpackExponent Format.binary64 word)
        (@unpackMantissa Format.binary64 word) := rfl

theorem signOf_unpackSign (word : BitVec 64) :
    Sign.ofBitVec (@unpackSign Format.binary64 word) =
      signOf (word.toNat >>> 63 % 2 == 1) := by
  have value : (@unpackSign Format.binary64 word).toNat = word.toNat >>> 63 % 2 := by
    simp [unpackSign]
  unfold Sign.ofBitVec signOf
  by_cases zero : @unpackSign Format.binary64 word = 0#1
  · rw [zero] at value
    simp [zero, ← value]
  · have odd : word.toNat >>> 63 % 2 ≠ 0 := fun even =>
      zero (BitVec.eq_of_toNat_eq (value.trans even))
    have one : word.toNat >>> 63 % 2 = 1 := by omega
    simp [zero, one]

/-- The fields of a word and what they stand for. -/
theorem decode_eq (word : Nat) :
    double.decode word =
      if word / 2 ^ 52 % 2048 = 2047 then
        if word % 2 ^ 52 = 0 then .infinite (word >>> 63 % 2 == 1) else .nan
      else if word / 2 ^ 52 % 2048 = 0 then
        .finite (word >>> 63 % 2 == 1) (word % 2 ^ 52) (-1074)
      else
        .finite (word >>> 63 % 2 == 1) (word % 2 ^ 52 + 2 ^ 52)
          (-1074 + (word / 2 ^ 52 % 2048 : Nat) - 1) := by
  rw [← Nat.shiftRight_eq_div_pow]
  rfl

/-- The float model and the format read a word alike. -/
theorem unpacks_decode (word : BitVec 64) :
    (double.decode word.toNat).Unpacks (UnpackedFloat.unpack Format.binary64 word) := by
  have mantissa : (@unpackMantissa Format.binary64 word).toNat = word.toNat % 2 ^ 52 := by
    simp [unpackMantissa]
  have exponent : (@unpackExponent Format.binary64 word).toNat =
      word.toNat / 2 ^ 52 % 2048 := by
    simp [unpackExponent, Nat.shiftRight_eq_div_pow]
  rw [unpack_eq, signOf_unpackSign, decode_eq, ← mantissa, ← exponent]
  generalize @unpackMantissa Format.binary64 word = fraction
  generalize @unpackExponent Format.binary64 word = biased
  have ones : biased = -1#_ ↔ biased.toNat = 2047 := by
    rw [← BitVec.toNat_inj]
    rfl
  have zeros : biased = 0#_ ↔ biased.toNat = 0 := by
    rw [← BitVec.toNat_inj]
    rfl
  have whole : fraction = 0#_ ↔ fraction.toNat = 0 := by
    rw [← BitVec.toNat_inj]
    rfl
  rw [ofFields]
  by_cases last : biased.toNat = 2047
  · rw [if_pos last, if_pos (ones.mpr last)]
    by_cases none : fraction.toNat = 0
    · rw [if_pos none, if_pos (whole.mpr none)]
      exact .infinite _
    · rw [if_neg none, if_neg (mt whole.mp none)]
      exact .nan
  rw [if_neg last, if_neg (mt ones.mp last)]
  by_cases first : biased.toNat = 0
  · rw [if_pos first, if_pos (zeros.mpr first)]
    by_cases none : fraction.toNat = 0
    · rw [dif_pos (whole.mpr none), none]
      exact .zero _ _
    · rw [dif_neg (mt whole.mp none), first]
      exact .finite _ _ _ _
  · rw [if_neg first, if_neg (mt zeros.mp first)]
    have significand : fraction.toNat + 2 ^ 52 = (1#1 ++ fraction).toNat := by
      rw [toNat_normal, Nat.add_comm]
    have power : (-1074 + biased.toNat - 1 : Int) = biased.toNat - (1023 + 52 : Nat) := by omega
    rw [significand, power]
    exact .finite _ _ _ _

/-- A word that has been through the float model reads as before. -/
theorem unpack_pack_unpack {format : Float.Model.Format} (wide : 2 ≤ format.exponentBits)
    (word : BitVec format.numBits) :
    UnpackedFloat.unpack format (UnpackedFloat.pack format (UnpackedFloat.unpack format word)) =
      UnpackedFloat.unpack format word := by
  rw [pack_unpack word wide]
  by_cases nan : isNaNBits word = true
  · obtain ⟨last, some⟩ := of_decide_eq_true nan
    rw [if_pos nan, unpack_packedNaN]
    simp only [UnpackedFloat.unpack, if_pos last, if_neg some]
  · rw [if_neg nan]

/-! ## Significands -/

/-- A significand either has its leading one in place or belongs to the smallest
exponent. -/
theorem decode_canonical {word significand : Nat} {negative : Bool} {exponent : Int}
    (finite : double.decode word = .finite negative significand exponent) :
    significand < 2 ^ 53 ∧ (2 ^ 52 ≤ significand ∨ exponent = -1074) := by
  rw [decode_eq] at finite
  split at finite
  · split at finite <;> cases finite
  · split at finite
    · cases finite
      exact ⟨by omega, .inr rfl⟩
    · cases finite
      exact ⟨by omega, .inl (by omega)⟩

/-- A number of the format is below one exactly if its last place is below the
last place of one. -/
theorem significand_lt_one_iff {significand : Nat} {exponent : Int}
    (small : significand < 2 ^ 53) (canonical : 2 ^ 52 ≤ significand ∨ exponent = -1074) :
    (significand * 2 ^ exponent : ℚ) < 1 ↔ exponent < -52 := by
  have two_pos : (0 : ℚ) < 2 := by norm_num
  apply Iff.intro
  · intro below
    by_contra large
    have leading : (2 ^ (52 : Int) : ℚ) ≤ significand := by
      have natural : 2 ^ 52 ≤ significand := by omega
      exact_mod_cast natural
    have one_le : (1 : ℚ) ≤ significand * 2 ^ exponent := calc
      (1 : ℚ) ≤ 2 ^ (52 + exponent) := one_le_zpow₀ (by norm_num) (by omega)
      _ = 2 ^ (52 : Int) * 2 ^ exponent := zpow_add₀ two_pos.ne' _ _
      _ ≤ significand * 2 ^ exponent := by gcongr
    exact absurd below (not_lt.mpr one_le)
  · intro low
    have natural : (significand : ℚ) < 2 ^ (53 : Int) := by exact_mod_cast small
    calc (significand * 2 ^ exponent : ℚ) < 2 ^ (53 : Int) * 2 ^ exponent := by
          gcongr
      _ = 2 ^ (53 + exponent) := (zpow_add₀ two_pos.ne' _ _).symm
      _ ≤ 1 := zpow_le_one_of_nonpos₀ (by norm_num) (by omega)

end Binary

/-! ## Comparisons -/

namespace Double

/-- The number as the float model holds it. -/
def unpacked (x : Double) : UnpackedFloat :=
  UnpackedFloat.unpack Format.binary64 x.bits.toBitVec

theorem unpack_toFloat (x : Double) : x.toFloat.toModel.unpack = x.unpacked :=
  @Binary.unpack_pack_unpack Format.binary64 (by decide) x.bits.toBitVec

theorem unpacks (x : Double) : x.datum.Unpacks x.unpacked :=
  Binary.unpacks_decode x.bits.toBitVec

theorem atMost_eq (x y : Double) : x.atMost y = x.unpacked.le y.unpacked := by
  rw [← unpack_toFloat, ← unpack_toFloat]
  show decide (decide (UnpackedFloat.le _ _ = true) = true) = _
  rw [Bool.decide_eq_true, Bool.decide_eq_true]

theorem less_eq (x y : Double) : x.less y = x.unpacked.lt y.unpacked := by
  rw [← unpack_toFloat, ← unpack_toFloat]
  show decide (decide (UnpackedFloat.lt _ _ = true) = true) = _
  rw [Bool.decide_eq_true, Bool.decide_eq_true]

theorem unpacked_zero : zero.unpacked = .zero .positive := rfl

theorem unpacked_one :
    one.unpacked = .finite .positive (2 ^ 52) (-52) (Nat.two_pow_pos 52) := rfl

/-- Whether the word stands for a number from zero on that is below one. -/
def IsFraction (x : Double) : Prop :=
  ∃ value, x.datum.value? = some value ∧ 0 ≤ value ∧ value < 1

/-- The two comparisons that admit a rate, on the number it stands for. -/
theorem isFraction_iff (x : Double) :
    (zero.atMost x && x.less one) = true ↔ x.IsFraction := by
  rw [Bool.and_eq_true, atMost_eq, less_eq, unpacked_zero, unpacked_one, IsFraction]
  have canonical {negative significand exponent} :
      x.datum = .finite negative significand exponent →
        significand < 2 ^ 53 ∧ (2 ^ 52 ≤ significand ∨ exponent = -1074) :=
    Binary.decode_canonical
  have reads := x.unpacks
  generalize x.datum = datum at canonical reads ⊢
  generalize x.unpacked = unpacked at reads ⊢
  cases reads with
  | nan => simp [UnpackedFloat.le, UnpackedFloat.lt, UnpackedFloat.compare, Binary.Datum.value?]
  | infinite negative =>
      cases negative
      · simp [UnpackedFloat.lt, UnpackedFloat.compare, Binary.signOf, Binary.Datum.value?]
      · simp [UnpackedFloat.le, UnpackedFloat.compare, Binary.signOf, Binary.Datum.value?]
  | zero negative exponent =>
      simp [UnpackedFloat.le, UnpackedFloat.lt, UnpackedFloat.compare, Binary.Datum.value?]
  | finite negative significand exponent positive =>
      obtain ⟨small, leading⟩ := canonical rfl
      have size_pos : (0 : ℚ) < significand * 2 ^ exponent := by positivity
      cases negative
      · have low := Binary.significand_lt_one_iff small leading
        have first : ((compare exponent (-52)).then (compare significand (2 ^ 52)) = .lt) ↔
            exponent < -52 := by
          rw [Ordering.then_eq_lt, Int.compare_eq_lt, Int.compare_eq_eq, Nat.compare_eq_lt]
          omega
        simp [UnpackedFloat.le, UnpackedFloat.lt, UnpackedFloat.compare, Binary.signOf,
          Binary.Datum.value?, first, low, size_pos.le, -Nat.reducePow]
      · simp [UnpackedFloat.le, UnpackedFloat.compare, Binary.signOf, Binary.Datum.value?,
          size_pos]

end Double

end InvertibleNet
