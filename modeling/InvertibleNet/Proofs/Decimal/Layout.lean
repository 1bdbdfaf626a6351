/-
# Number texts are numerals

However the digits of a finite number are laid out, around a point or with an
exponent, the text is a numeral. The digits come from a shortest decimal, which
has no zero in front, so the layouts never write a leading zero of their own
accord.
-/

import Mathlib.Data.List.DropRight
import InvertibleNet.Decimal.Layout
import InvertibleNet.Proofs.Json.Numeral

namespace InvertibleNet

open Decimal Json

/-! ## The digits of a shortest decimal -/

/-- A point of a grid that is taken for a number is not zero. -/
theorem Decimal.RoundingInterval.gridPoint_ne_zero {interval : RoundingInterval} {tie : Tie}
    {exponent : Int} {decimal : Decimal}
    (found : interval.gridPoint? tie exponent = some decimal) : decimal.coefficient ≠ 0 := by
  unfold gridPoint? at found
  simp only at found
  split at found
  · rename_i fits
    obtain ⟨⟨positive, -⟩, -⟩ := fits
    split at found
    · cases found
      exact Nat.pos_iff_ne_zero.mp positive
    · cases found
      exact Nat.succ_ne_zero _
  · split at found
    · rename_i fits
      cases found
      exact Nat.pos_iff_ne_zero.mp fits.1
    · split at found
      · cases found
        exact Nat.succ_ne_zero _
      · cases found

/-- A shortest decimal is not zero, or it is the plain zero that stands for none. -/
theorem Decimal.shortest_cases (format : Binary.Format) (tie : Tie) (significand : Nat)
    (exponent : Int) :
    (shortest format tie significand exponent).coefficient ≠ 0 ∨
      shortest format tie significand exponent = ⟨0, 0⟩ := by
  unfold shortest
  simp only
  generalize grids : List.map _ (List.range 17) = exponents
  cases found : exponents.findSome? _ with
  | none => exact .inr rfl
  | some decimal =>
      obtain ⟨exponent, -, point⟩ := List.exists_of_findSome?_eq_some found
      exact .inl (RoundingInterval.gridPoint_ne_zero point)

namespace Layout

/-- Digits that may be laid out: a zero in front stands alone, for the number
zero itself. -/
structure Presentable (digits : List Char) (exponent : Int) : Prop where
  areDigits : AreDigits digits
  leading : digits.head? = some '0' → digits = ['0'] ∧ exponent = 0

theorem trimZeros_eq (digits : List Char) :
    trimZeros digits =
      if digits.rdropWhile (· = '0') = [] then ['0'] else digits.rdropWhile (· = '0') := by
  unfold trimZeros List.rdropWhile
  split
  · rename_i none
    rw [if_pos none]
  · rename_i some
    rw [if_neg some]

/-- The digits of a decimal, without the zeros at their end. -/
theorem presentable_decimal {decimal : Decimal}
    (cases : decimal.coefficient ≠ 0 ∨ decimal = ⟨0, 0⟩) :
    Presentable (trimZeros (Nat.toDigits 10 decimal.coefficient))
      (decimal.exponent + (Nat.toDigits 10 decimal.coefficient).length - 1) := by
  rcases cases with nonzero | rfl
  · obtain ⟨nonempty, all⟩ := areDigits_toDigits decimal.coefficient
    have first := head_toDigits_ne_zero (Nat.pos_iff_ne_zero.mpr nonzero)
    obtain ⟨c, tail, digits⟩ := List.exists_cons_of_ne_nil nonempty
    rw [digits] at all first ⊢
    have significant : c ≠ '0' := first c rfl
    have kept : (c :: tail).rdropWhile (· = '0') ≠ [] := fun none =>
      significant (by simpa using List.rdropWhile_eq_nil_iff.mp none c List.mem_cons_self)
    have front := List.rdropWhile_prefix (p := (decide <| · = '0')) (c :: tail)
    rw [trimZeros_eq, if_neg kept]
    refine ⟨⟨kept, fun other member => all other (front.subset member)⟩, fun zero => ?_⟩
    obtain ⟨d, others, trimmed⟩ := List.exists_cons_of_ne_nil kept
    rw [trimmed] at front zero
    obtain ⟨rest, whole⟩ := front
    cases whole
    cases zero
    exact absurd rfl significant
  · have zero : trimZeros (Nat.toDigits 10 0) = ['0'] := by decide
    exact ⟨zero ▸ areDigits_singleton rfl, fun _ => ⟨zero, by decide⟩⟩

section Arrange

variable {digits : List Char} {exponent : Int}

theorem isDigit_of_mem_zeros {count : Nat} {c : Char} (member : c ∈ List.replicate count '0') :
    isDigit c = true := by
  rw [List.eq_of_mem_replicate member]
  rfl

/-- Digits behind a point and some zeros. -/
theorem isUnsigned_small (zeros : Nat) (are : AreDigits digits) :
    IsUnsigned ("0." ++ String.ofList (List.replicate zeros '0' ++ digits)).toList := by
  have zero : IsWhole ['0'] := isWhole_singleton rfl
  have fraction : AreDigits (List.replicate zeros '0' ++ digits) := by
    refine ⟨by simp [are.1], fun c member => ?_⟩
    rcases List.mem_append.mp member with padding | digit
    · exact isDigit_of_mem_zeros padding
    · exact are.2 c digit
  simpa using zero.point fraction

/-- Digits with zeros up to the point, and behind it one zero or nothing. -/
theorem isUnsigned_whole (presentable : Presentable digits exponent) (point : Bool) :
    IsUnsigned (String.ofList (digits ++
        List.replicate (exponent.toNat + 1 - digits.length) '0') ++
      (if point then ".0" else "")).toList := by
  obtain ⟨⟨nonempty, all⟩, leading⟩ := presentable
  have whole : IsWhole (digits ++ List.replicate (exponent.toNat + 1 - digits.length) '0') := by
    refine ⟨⟨by simp [nonempty], fun c member => ?_⟩, fun zero => ?_⟩
    · rcases List.mem_append.mp member with digit | padding
      · exact all c digit
      · exact isDigit_of_mem_zeros padding
    · obtain ⟨c, tail, rfl⟩ := List.exists_cons_of_ne_nil nonempty
      obtain ⟨alone, rfl⟩ := leading zero
      rw [alone]
      rfl
  cases point with
  | false => simpa using whole.isUnsigned
  | true => simpa using whole.point (areDigits_singleton rfl)

/-- Digits around a point. -/
theorem isUnsigned_split (presentable : Presentable digits exponent)
    (long : ¬ digits.length ≤ exponent.toNat + 1) :
    IsUnsigned (String.ofList (digits.take (exponent.toNat + 1)) ++ "." ++
      String.ofList (digits.drop (exponent.toNat + 1))).toList := by
  obtain ⟨⟨nonempty, all⟩, leading⟩ := presentable
  have whole : IsWhole (digits.take (exponent.toNat + 1)) := by
    refine ⟨⟨by simp [nonempty], fun c member => all c (List.mem_of_mem_take member)⟩,
      fun zero => ?_⟩
    obtain ⟨c, tail, rfl⟩ := List.exists_cons_of_ne_nil nonempty
    obtain ⟨alone, -⟩ := leading zero
    rw [alone] at long
    simp at long
  have fraction : AreDigits (digits.drop (exponent.toNat + 1)) := by
    refine ⟨?_, fun c member => all c (List.mem_of_mem_drop member)⟩
    rw [Ne, List.drop_eq_nil_iff]
    omega
  simpa using whole.point fraction

/-- One digit in front of the point, and an exponent. -/
theorem isUnsigned_scientific (are : AreDigits digits) (exponent : Int) (signed : Bool) :
    IsUnsigned (String.ofList (digits.take 1) ++
      (if (digits.drop 1).isEmpty then "" else "." ++ String.ofList (digits.drop 1)) ++ "e" ++
      (if exponent < 0 then "-" else if signed then "+" else "") ++
      toString exponent.natAbs).toList := by
  obtain ⟨nonempty, all⟩ := are
  obtain ⟨c, tail, rfl⟩ := List.exists_cons_of_ne_nil nonempty
  have whole : IsWhole [c] := isWhole_singleton (all c List.mem_cons_self)
  have fraction : IsFraction (if tail.isEmpty then [] else '.' :: tail) := by
    split
    · exact .inl rfl
    · rename_i some
      exact .inr ⟨tail, ⟨by simpa using some, fun d member => all d (by simp_all)⟩, rfl⟩
  have sign : ∃ sign, (sign = [] ∨ sign = ['+'] ∨ sign = ['-']) ∧
      (if exponent < 0 then "-" else if signed then "+" else "").toList = sign := by
    refine ⟨_, ?_, rfl⟩
    split
    · exact .inr (.inr rfl)
    · split
      · exact .inr (.inl rfl)
      · exact .inl rfl
  obtain ⟨sign, sign_cases, sign_text⟩ := sign
  refine ⟨[c], _, 'e' :: (sign ++ Nat.toDigits 10 exponent.natAbs), whole, fraction,
    .inr ⟨sign, _, sign_cases, areDigits_toDigits _, rfl⟩, ?_⟩
  cases tail with
  | nil => simp [sign_text, Nat.toString_eq_repr]
  | cons d tail => simp [sign_text, Nat.toString_eq_repr]

/-- Presentable digits become a numeral without a sign, whatever the layout. -/
theorem isUnsigned_arrange (layout : Layout) (presentable : Presentable digits exponent) :
    IsUnsigned (layout.arrange digits exponent).toList := by
  unfold arrange
  split
  · split
    · exact isUnsigned_small _ presentable.areDigits
    · simp only
      split
      · exact isUnsigned_whole presentable layout.keepPoint
      · rename_i long
        exact isUnsigned_split presentable long
  · exact isUnsigned_scientific presentable.areDigits exponent layout.signedExponent

end Arrange

/-- The text of a finite number is a numeral, whatever the layout. -/
theorem isNumeral_text (layout : Layout) (format : Binary.Format) (negative : Bool)
    (significand : Nat) (exponent : Int) :
    IsNumeral (layout.text format (.finite negative significand exponent)).toList := by
  have unsigned : IsUnsigned (if significand = 0 then layout.arrange ['0'] 0
      else layout.ofDecimal (.shortest format layout.tie significand exponent)).toList := by
    split
    · exact layout.isUnsigned_arrange ⟨areDigits_singleton rfl, fun _ => ⟨rfl, rfl⟩⟩
    · exact layout.isUnsigned_arrange (presentable_decimal (shortest_cases _ _ _ _))
  unfold text
  cases negative with
  | false => exact .inl (by simpa using unsigned)
  | true => exact .inr ⟨_, unsigned, by simp⟩

end Layout

/-- The text of a number in a document is a numeral. -/
theorem Double.isNumeral_documentText {x : Double} {literal : String}
    (has : x.documentText? = some literal) : IsNumeral literal.toList := by
  unfold documentText? at has
  split at has
  · rename_i negative significand exponent datum
    cases has
    rw [datum]
    exact Layout.isNumeral_text _ _ _ _ _
  · cases has

end InvertibleNet
