/-
# The literals of single precision

A number of single precision is written with a point or with a signed exponent, so its literal is
read through double precision: its digits are collected, the point left out, and scaled once.
What is collected and how far it is scaled follow from the digits and the exponent that were laid
out. A whole number takes one zero behind the point with it.
-/

import Mathlib
import InvertibleNet.Proofs.Decimal.Layout

namespace InvertibleNet

namespace Decimal

/-! ## The value of digits -/

theorem foldl_digits (start : Nat) (digits : List Char) :
    digits.foldl (fun value digit => value * 10 + digitValue digit) start =
      start * 10 ^ digits.length + digitsValue digits := by
  induction digits generalizing start with
  | nil => simp [digitsValue]
  | cons digit digits ih =>
      rw [digitsValue, List.foldl_cons, List.foldl_cons, ih, ih (0 * 10 + _), List.length_cons]
      ring

theorem digitsValue_append (front digits : List Char) :
    digitsValue (front ++ digits) =
      digitsValue front * 10 ^ digits.length + digitsValue digits := by
  rw [digitsValue, List.foldl_append, foldl_digits]
  rfl

theorem digitsValue_zeros (count : Nat) : digitsValue (List.replicate count '0') = 0 := by
  induction count with
  | zero => rfl
  | succ count ih =>
      rw [List.replicate_succ', digitsValue_append, ih]
      rfl

theorem digitValue_lt {c : Char} (digit : isDigit c = true) : digitValue c < 10 := by
  simp only [isDigit, Bool.and_eq_true, decide_eq_true_eq, Char.le_def,
    UInt32.le_iff_toNat_le] at digit
  have first : ('0' : Char).val.toNat = 48 := rfl
  have last : ('9' : Char).val.toNat = 57 := rfl
  unfold digitValue Char.toNat
  omega

/-- A row of digits is worth less than the power of ten that it is as long as. -/
theorem digitsValue_lt {digits : List Char} (all : ∀ c ∈ digits, isDigit c = true) :
    digitsValue digits < 10 ^ digits.length := by
  induction digits with
  | nil => decide
  | cons digit digits ih =>
      rw [List.forall_mem_cons] at all
      have rest := ih all.2
      calc digitsValue (digit :: digits)
          = digitValue digit * 10 ^ digits.length + digitsValue digits := by
            rw [digitsValue, List.foldl_cons, foldl_digits, Nat.zero_mul, Nat.zero_add]
        _ < digitValue digit * 10 ^ digits.length + 10 ^ digits.length :=
            Nat.add_lt_add_left rest _
        _ = (digitValue digit + 1) * 10 ^ digits.length := (Nat.succ_mul _ _).symm
        _ ≤ 10 * 10 ^ digits.length :=
            Nat.mul_le_mul_right _ (Nat.succ_le_of_lt (digitValue_lt all.1))
        _ = 10 ^ (digit :: digits).length := by rw [List.length_cons, Nat.pow_succ, Nat.mul_comm]

end Decimal

namespace Json

open Decimal

/-! ## Taking a literal apart -/

/-- The mark of an exponent with its sign, if there is an exponent. -/
def markText : Option (Bool × List Char) → List Char
  | none => []
  | some (negative, digits) => 'e' :: (if negative then '-' else '+') :: digits

/-- The exponent behind a mark. -/
def markPower : Option (Bool × List Char) → ℤ
  | none => 0
  | some (negative, digits) => if negative then -digitsValue digits else digitsValue digits

/-- The parts of a literal that is read through double precision. -/
structure IsSpelled (front behind : List Char) (mark : Option (Bool × List Char)) : Prop where
  whole : AreDigits front
  fraction : ∀ c ∈ behind, isDigit c = true
  isReal : behind ≠ [] ∨ mark.isSome = true
  fits : digitsValue (front ++ behind) < Count.limit
  range : (markPower mark).natAbs < 0x80000000

/-- The text of the parts. -/
def spell (whole fraction : List Char) (mark : Option (Bool × List Char)) : List Char :=
  whole ++ ((if fraction.isEmpty then [] else '.' :: fraction) ++ markText mark)

/-- Whether a text is read as digits scaled by a power of ten, with a minus in front or not. -/
def IsScaled (text : List Char) (digits : Nat) (shift : ℤ) : Prop :=
  ∀ (negative : Bool) (value : Double), scaleByTen (.ofNat digits) shift = some value →
    Number.ofText (if negative then '-' :: text else text) =
      .ok (.real (if negative then value.neg else value))

/-- A minus in front changes nothing but the sign. -/
theorem Literal.ofText_minus {text : List Char} (unsigned : text.head? ≠ some '-') :
    ofText ('-' :: text) = { ofText text with isNegative := true } := by
  simp [ofText, unsigned]

theorem endsDigits_markText (mark : Option (Bool × List Char)) : EndsDigits (markText mark) := by
  intro c first
  cases mark with
  | none => cases first
  | some mark =>
      cases first
      rfl

/-- Digits are collected in one go over the point. -/
theorem collect_append {whole fraction : List Char}
    (fits : digitsValue (whole ++ fraction) < Count.limit) :
    Literal.collect 0 whole = (digitsValue whole, 0) ∧
      Literal.collect (digitsValue whole) fraction = (digitsValue (whole ++ fraction), 0) := by
  have value := digitsValue_append whole fraction
  have grows : digitsValue whole ≤ digitsValue whole * 10 ^ fraction.length :=
    Nat.le_mul_of_pos_right _ (Nat.pow_pos (by decide))
  constructor
  · exact collect_eq 0 (show digitsValue whole < _ by omega)
  · rw [digitsValue_append, ← foldl_digits] at fits ⊢
    exact collect_eq _ fits

namespace IsSpelled

variable {whole fraction : List Char} {mark : Option (Bool × List Char)}

theorem unsigned (spelled : IsSpelled whole fraction mark) :
    (spell whole fraction mark).head? ≠ some '-' := by
  obtain ⟨nonempty, digits⟩ := spelled.whole
  obtain ⟨c, tail, rfl⟩ := List.exists_cons_of_ne_nil nonempty
  intro minus
  cases minus
  exact absurd (digits '-' List.mem_cons_self) (by decide)

/-- A literal is taken apart into the parts that it was made of. -/
theorem ofText (spelled : IsSpelled whole fraction mark) :
    Literal.ofText (spell whole fraction mark) = ⟨false, whole, fraction, mark, true⟩ := by
  obtain ⟨⟨nonempty, digits⟩, fractions, real, -, -⟩ := id spelled
  have marks := endsDigits_markText mark
  have behind : EndsDigits ((if fraction.isEmpty then [] else '.' :: fraction) ++ markText mark) := by
    split
    · exact marks
    · intro c first
      cases first
      rfl
  have parts := takeWhile_digits digits behind
  have rest := dropWhile_digits digits behind
  rw [← spell] at parts rest
  unfold Literal.ofText
  simp only [spelled.unsigned, if_false, parts, rest]
  cases fraction with
  | nil =>
      obtain ⟨⟨negative, digits⟩, rfl⟩ := Option.isSome_iff_exists.mp (real.resolve_left (by simp))
      cases negative <;> simp [markText]
  | cons digit fraction =>
      have fraction_taken := takeWhile_digits fractions marks
      have fraction_dropped := dropWhile_digits fractions marks
      rw [List.cons_append] at fraction_taken fraction_dropped
      simp only [List.isEmpty_cons, Bool.false_eq_true, if_false, List.cons_append, List.head?_cons,
        if_true, List.drop_succ_cons, List.drop_zero, fraction_taken, fraction_dropped,
        decide_true, decide_false, Bool.true_or]
      rcases mark with _ | ⟨_ | _, digits⟩ <;> rfl

/-- The parts are read as the digits scaled by the exponent and the places behind the point. -/
theorem isScaled (spelled : IsSpelled whole fraction mark) :
    IsScaled (spell whole fraction mark) (digitsValue (whole ++ fraction))
      (markPower mark - fraction.length) := by
  intro negative value scaled
  have literal : Literal.ofText (if negative then '-' :: spell whole fraction mark
      else spell whole fraction mark) = ⟨negative, whole, fraction, mark, true⟩ := by
    cases negative with
    | false => exact spelled.ofText
    | true => rw [if_pos rfl, Literal.ofText_minus spelled.unsigned, spelled.ofText]
  obtain ⟨first, second⟩ := collect_append spelled.fits
  have realValue : (⟨negative, whole, fraction, mark, true⟩ : Literal).realValue
      (digitsValue (whole ++ fraction)) (-fraction.length) =
        some (if negative then value.neg else value) := by
    have range := spelled.range
    rcases mark with _ | ⟨down, digits⟩
    · rw [markPower, zero_sub] at scaled
      simp [Literal.realValue, scaled]
    · have small : ¬ Literal.exponentLimit ≤ (digitsValue digits : ℤ) := by
        unfold Literal.exponentLimit
        rw [markPower] at range
        cases down <;> simp at range <;> omega
      rw [markPower, sub_eq_neg_add] at scaled
      simp [Literal.realValue, small, scaled]
  rw [Number.ofText, literal, Literal.number]
  simp [first, second, realValue]

end IsSpelled

end Json

/-! ## What the layout writes -/

namespace Layout

open Decimal Json

variable {digits : List Char} {exponent : ℤ}

/-- Zeros between the point and the digits are left out. -/
theorem isScaled_small (zeros : Nat) (are : AreDigits digits)
    (fits : digitsValue digits < Count.limit) :
    IsScaled ("0." ++ String.ofList (List.replicate zeros '0' ++ digits)).toList
      (digitsValue digits) (-(zeros + digits.length)) := by
  have value : digitsValue (['0'] ++ (List.replicate zeros '0' ++ digits)) =
      digitsValue digits := by
    rw [← List.append_assoc, digitsValue_append, ← List.replicate_one, List.replicate_append_replicate,
      digitsValue_zeros, Nat.zero_mul, Nat.zero_add]
  have spelled : IsSpelled ['0'] (List.replicate zeros '0' ++ digits) none := by
    refine ⟨areDigits_singleton rfl, fun c member => ?_, .inl (by simp [are.1]), by rwa [value],
      by decide⟩
    rcases List.mem_append.mp member with padding | digit
    · exact isDigit_of_mem_zeros padding
    · exact are.2 c digit
  have scaled := spelled.isScaled
  rw [value, markPower, List.length_append, List.length_replicate, zero_sub, Nat.cast_add] at scaled
  have text : ("0." ++ String.ofList (List.replicate zeros '0' ++ digits)).toList =
      spell ['0'] (List.replicate zeros '0' ++ digits) none := by
    simp [spell, markText, are.1]
  rwa [text]

/-- Zeros up to the point are collected, and so is the one behind it. -/
theorem isScaled_whole (zeros : Nat) (are : AreDigits digits)
    (fits : digitsValue digits * 10 ^ (zeros + 1) < Count.limit) :
    IsScaled (String.ofList (digits ++ List.replicate zeros '0') ++ ".0").toList
      (digitsValue digits * 10 ^ (zeros + 1)) (-1) := by
  have value : digitsValue (digits ++ List.replicate zeros '0' ++ ['0']) =
      digitsValue digits * 10 ^ (zeros + 1) := by
    rw [List.append_assoc, ← List.replicate_one, List.replicate_append_replicate,
      digitsValue_append, digitsValue_zeros, List.length_replicate, Nat.add_zero]
  have spelled : IsSpelled (digits ++ List.replicate zeros '0') ['0'] none := by
    refine ⟨⟨by simp [are.1], fun c member => ?_⟩, fun c member => ?_, .inl (List.cons_ne_nil _ _),
      by rwa [value], by decide⟩
    · rcases List.mem_append.mp member with digit | padding
      · exact are.2 c digit
      · exact isDigit_of_mem_zeros padding
    · rw [List.mem_singleton.mp member]
      rfl
  have scaled := spelled.isScaled
  rw [value] at scaled
  have text : (String.ofList (digits ++ List.replicate zeros '0') ++ ".0").toList =
      spell (digits ++ List.replicate zeros '0') ['0'] none := by
    simp [spell, markText]
  rwa [text]

/-- A point between the digits is left out. -/
theorem isScaled_split {place : Nat} (some : 0 < place) (inside : place < digits.length)
    (are : AreDigits digits) (fits : digitsValue digits < Count.limit) :
    IsScaled (String.ofList (digits.take place) ++ "." ++ String.ofList (digits.drop place)).toList
      (digitsValue digits) (place - digits.length) := by
  have behind : digits.drop place ≠ [] := by
    rw [Ne, List.drop_eq_nil_iff]
    omega
  have spelled : IsSpelled (digits.take place) (digits.drop place) none :=
    ⟨⟨by simp [are.1]; omega, fun c member => are.2 c (List.mem_of_mem_take member)⟩,
      fun c member => are.2 c (List.mem_of_mem_drop member), .inl behind,
      by rwa [List.take_append_drop], by decide⟩
  have scaled := spelled.isScaled
  rw [List.take_append_drop, markPower, List.length_drop, zero_sub, Nat.cast_sub inside.le,
    neg_sub] at scaled
  have text : (String.ofList (digits.take place) ++ "." ++ String.ofList (digits.drop place)).toList =
      spell (digits.take place) (digits.drop place) none := by
    simp [spell, markText, behind]
  rwa [text]

/-- A point behind the first digit is left out, and the exponent moved behind the last. -/
theorem isScaled_scientific (are : AreDigits digits) (fits : digitsValue digits < Count.limit)
    (range : exponent.natAbs < 0x80000000) :
    IsScaled (String.ofList (digits.take 1) ++
        (if (digits.drop 1).isEmpty then "" else "." ++ String.ofList (digits.drop 1)) ++ "e" ++
        (if exponent < 0 then "-" else "+") ++ toString exponent.natAbs).toList
      (digitsValue digits) (exponent + 1 - digits.length) := by
  have power : markPower (.some (decide (exponent < 0), Nat.toDigits 10 exponent.natAbs)) =
      exponent := by
    rw [markPower, digitsValue_toDigits]
    by_cases down : exponent < 0
    · rw [decide_eq_true down, if_pos rfl]
      omega
    · rw [decide_eq_false down, if_neg Bool.false_ne_true]
      omega
  have spelled : IsSpelled (digits.take 1) (digits.drop 1)
      (.some (decide (exponent < 0), Nat.toDigits 10 exponent.natAbs)) :=
    ⟨⟨by simp [are.1], fun c member => are.2 c (List.mem_of_mem_take member)⟩,
      fun c member => are.2 c (List.mem_of_mem_drop member), .inr rfl,
      by rwa [List.take_append_drop], by rwa [power]⟩
  have scaled := spelled.isScaled
  have some : 0 < digits.length := List.length_pos_of_ne_nil are.1
  rw [List.take_append_drop, power, List.length_drop, Nat.cast_sub (by omega), Nat.cast_one,
    sub_sub_eq_add_sub] at scaled
  have text : (String.ofList (digits.take 1) ++
        (if (digits.drop 1).isEmpty then "" else "." ++ String.ofList (digits.drop 1)) ++ "e" ++
        (if exponent < 0 then "-" else "+") ++ toString exponent.natAbs).toList =
      spell (digits.take 1) (digits.drop 1)
        (.some (decide (exponent < 0), Nat.toDigits 10 exponent.natAbs)) := by
    have point : (if digits.tail = [] then "" else "." ++ String.ofList digits.tail).toList =
        if digits.tail = [] then [] else '.' :: digits.tail := by
      split <;> simp
    have sign : (if exponent < 0 then "-" else "+").toList =
        [if exponent < 0 then '-' else '+'] := by
      split <;> rfl
    simp [spell, markText, Nat.toString_eq_repr, point, sign]
  rwa [text]

/-- Digits that are laid out with a point or a signed exponent are collected again and scaled to
where they stood. A whole number has one more zero collected. -/
theorem isScaled_arrange (are : AreDigits digits) (short : digits.length ≤ 9)
    (range : exponent.natAbs < 100) :
    ∃ collected shift, IsScaled (documentSingle.arrange digits exponent).toList collected shift ∧
      collected < 2 ^ 53 ∧
      (collected = digitsValue digits ∧ shift = exponent + 1 - digits.length ∨
        collected = digitsValue digits * 10 ^ ((exponent + 1).toNat - digits.length + 1) ∧
          shift = -1 ∧ digits.length ≤ exponent + 1) := by
  have some : 0 < digits.length := List.length_pos_of_ne_nil are.1
  have small := digitsValue_lt are.2
  have fits : digitsValue digits < 2 ^ 53 :=
    (small.trans_le (Nat.pow_le_pow_right (by decide) short)).trans (by decide)
  have word : 2 ^ 53 < Count.limit := by decide
  unfold arrange
  split
  · next positional =>
    simp only [documentSingle, Bool.and_eq_true, decide_eq_true_eq] at positional
    split
    · next below =>
      refine ⟨_, _, isScaled_small _ are (fits.trans word), fits, .inl ⟨rfl, ?_⟩⟩
      omega
    · next above =>
      dsimp only
      split
      · next whole =>
        have fits : digitsValue digits * 10 ^ (exponent.toNat + 1 - digits.length + 1) < 2 ^ 53 :=
          calc digitsValue digits * 10 ^ (exponent.toNat + 1 - digits.length + 1)
              < 10 ^ digits.length * 10 ^ (exponent.toNat + 1 - digits.length + 1) :=
                Nat.mul_lt_mul_of_pos_right small (Nat.pow_pos (by decide))
            _ = 10 ^ (exponent.toNat + 2) := by
                rw [← Nat.pow_add]
                congr 1
                omega
            _ ≤ 10 ^ 14 := Nat.pow_le_pow_right (by decide) (by omega)
            _ < 2 ^ 53 := by decide
        refine ⟨_, _, isScaled_whole _ are (fits.trans word), fits, .inr ⟨?_, rfl, by omega⟩⟩
        congr 3
        omega
      · next long =>
        refine ⟨_, _, isScaled_split (by omega) (by omega) are (fits.trans word), fits,
          .inl ⟨rfl, ?_⟩⟩
        omega
  · exact ⟨_, _, isScaled_scientific are (fits.trans word) (by omega), fits, .inl ⟨rfl, rfl⟩⟩

/-- Trimming takes zeros off the end. -/
theorem exists_trimZeros {value : Nat} (some : 0 < value) :
    ∃ zeros, Nat.toDigits 10 value =
      trimZeros (Nat.toDigits 10 value) ++ List.replicate zeros '0' := by
  generalize digits_eq : Nat.toDigits 10 value = digits
  have split := @List.rdropWhile_append_rtakeWhile _ (decide <| · = '0') digits
  have zeros : digits.rtakeWhile (decide <| · = '0') =
      List.replicate (digits.rtakeWhile (decide <| · = '0')).length '0' :=
    List.eq_replicate_of_mem fun c member => by simpa using List.mem_rtakeWhile_imp member
  have kept : digits.rdropWhile (decide <| · = '0') ≠ [] := by
    intro none
    rw [none, List.nil_append, zeros] at split
    rw [← digitsValue_toDigits value, digits_eq, ← split, digitsValue_zeros] at some
    exact some.false
  rw [trimZeros_eq, if_neg kept]
  exact ⟨_, (zeros ▸ split).symm⟩

/-- The digits of a short decimal are read as a number that is worth the decimal, scaled no further
down than it. -/
theorem isScaled_ofDecimal {decimal : Decimal} (some : 0 < decimal.coefficient)
    (few : decimal.coefficient < 10 ^ 9) (range : decimal.exponent.natAbs ≤ 60) :
    ∃ collected shift, IsScaled (documentSingle.ofDecimal decimal).toList collected shift ∧
      (decimal.exponent ≤ shift ∨ shift = -1) ∧ collected < 2 ^ 53 ∧
      (collected : ℚ) * 10 ^ shift = decimal.coefficient * 10 ^ decimal.exponent := by
  obtain ⟨zeros, split⟩ := exists_trimZeros some
  have are := (presentable_decimal (.inl some.ne')).areDigits
  have short : (Nat.toDigits 10 decimal.coefficient).length ≤ 9 :=
    (Nat.length_toDigits_le_iff (by decide) (by decide)).mpr few
  have value := digitsValue_toDigits decimal.coefficient
  have count : (Nat.toDigits 10 decimal.coefficient).length =
      (trimZeros (Nat.toDigits 10 decimal.coefficient)).length + zeros := by
    conv_lhs => rw [split, List.length_append, List.length_replicate]
  rw [split, digitsValue_append, digitsValue_zeros, List.length_replicate, Nat.add_zero] at value
  unfold ofDecimal
  dsimp only
  generalize trimZeros (Nat.toDigits 10 decimal.coefficient) = digits at *
  generalize (Nat.toDigits 10 decimal.coefficient).length = length at *
  have long : 0 < digits.length := List.length_pos_of_ne_nil are.1
  obtain ⟨collected, shift, scaled, fits, ⟨rfl, rfl⟩ | ⟨rfl, rfl, whole⟩⟩ :=
    isScaled_arrange are (by omega) (by omega : (decimal.exponent + length - 1).natAbs < 100)
  · have shift : decimal.exponent + length - 1 + 1 - digits.length = zeros + decimal.exponent := by
      omega
    rw [shift] at scaled
    refine ⟨_, _, scaled, .inl (by omega), fits, ?_⟩
    rw [zpow_add₀ (by norm_num), ← mul_assoc, zpow_natCast, ← value, Nat.cast_mul, Nat.cast_pow,
      Nat.cast_ofNat]
  · have places : zeros + decimal.exponent =
        ((decimal.exponent + length - 1 + 1).toNat - digits.length : Nat) := by omega
    refine ⟨_, _, scaled, .inr rfl, fits, ?_⟩
    generalize (decimal.exponent + length - 1 + 1).toNat - digits.length = count at places ⊢
    have step : (10 : ℚ) ^ zeros * 10 ^ decimal.exponent = 10 ^ count := by
      rw [← zpow_natCast, ← zpow_add₀ (by norm_num), places, zpow_natCast]
    rw [← value, Nat.cast_mul, Nat.cast_mul, Nat.cast_pow, Nat.cast_pow, Nat.cast_ofNat,
      mul_assoc _ ((10 : ℚ) ^ zeros), step, pow_succ, zpow_neg_one]
    field_simp

end Layout

end InvertibleNet
