/-
# Numerals

The form of a number literal: a sign, whole digits without a leading zero, a
fraction and an exponent. A reader that meets a numeral takes all of it, as long
as nothing that could continue it stands behind it. What the numeral is worth is
read from its text alone; for the digits of a count that is the count.
-/

import Mathlib.Data.List.TakeWhile
import InvertibleNet.Json.Reading

namespace InvertibleNet

/-! ## Digits -/

namespace Decimal

/-- At least one character, and nothing but digits. -/
def AreDigits (text : List Char) : Prop := text ≠ [] ∧ ∀ c ∈ text, isDigit c = true

/-- Text in front of which a row of digits ends. -/
def EndsDigits (text : List Char) : Prop := ∀ c ∈ text.head?, isDigit c = false

variable {digits rest : List Char}

theorem takeWhile_digits (all : ∀ c ∈ digits, isDigit c = true) (ends : EndsDigits rest) :
    (digits ++ rest).takeWhile isDigit = digits := by
  rw [List.takeWhile_append_of_pos all]
  cases rest with
  | nil => rw [List.takeWhile_nil, List.append_nil]
  | cons c rest => rw [List.takeWhile_cons_of_neg (by simp [ends c rfl]), List.append_nil]

theorem dropWhile_digits (all : ∀ c ∈ digits, isDigit c = true) (ends : EndsDigits rest) :
    (digits ++ rest).dropWhile isDigit = rest := by
  rw [List.dropWhile_append_of_pos all]
  cases rest with
  | nil => rfl
  | cons c rest => rw [List.dropWhile_cons_of_neg (by simp [ends c rfl])]

theorem areDigits_singleton {c : Char} (digit : isDigit c = true) : AreDigits [c] := by
  refine ⟨List.cons_ne_nil c [], fun other member => ?_⟩
  rwa [List.mem_singleton.mp member]

/-- The digits of a natural. -/
theorem areDigits_toDigits (value : Nat) : AreDigits (Nat.toDigits 10 value) :=
  ⟨Nat.toDigits_ne_nil, fun _ member => Nat.isDigit_of_mem_toDigits (by decide) (by decide) member⟩

theorem digitsValue_toDigits (value : Nat) : digitsValue (Nat.toDigits 10 value) = value := by
  have same : ∀ digits, digitsValue digits = Nat.ofDigitChars 10 digits 0 := fun digits => by
    simp only [digitsValue, digitValue, Nat.ofDigitChars_eq_foldl, Nat.mul_comm]
  rw [same, Nat.ofDigitChars_ten_toDigits]

/-- The digits of a positive natural start with one that is not zero. -/
theorem head_toDigits_ne_zero {value : Nat} (positive : 0 < value) :
    ∀ c ∈ (Nat.toDigits 10 value).head?, c ≠ '0' := by
  induction value using Nat.strongRecOn with
  | ind value ih =>
      by_cases small : value < 10
      · rw [Nat.toDigits_of_lt_base small]
        intro c first
        cases first
        rw [Ne, Nat.digitChar_eq_zero]
        omega
      · have front := ih (value / 10) (by omega) (by omega)
        rw [Nat.toDigits_of_base_le (by decide) (by omega)]
        obtain ⟨c, tail, digits⟩ := List.exists_cons_of_ne_nil
          (Nat.toDigits_ne_nil (n := value / 10) (b := 10))
        rw [digits] at front ⊢
        exact front

end Decimal

namespace Json

open Decimal

/-! ## The form of a numeral -/

/-- Whole digits; a zero stands alone. -/
def IsWhole (text : List Char) : Prop := AreDigits text ∧ (text.head? = some '0' → text = ['0'])

/-- A point and digits, or nothing. -/
def IsFraction (text : List Char) : Prop :=
  text = [] ∨ ∃ digits, AreDigits digits ∧ text = '.' :: digits

/-- An exponent mark, a sign or none, and digits, or nothing. -/
def IsExponent (text : List Char) : Prop :=
  text = [] ∨ ∃ sign digits, (sign = [] ∨ sign = ['+'] ∨ sign = ['-']) ∧ AreDigits digits ∧
    text = 'e' :: (sign ++ digits)

/-- A numeral without its sign. -/
structure IsUnsigned (text : List Char) : Prop where
  parts : ∃ whole fraction exponent, IsWhole whole ∧ IsFraction fraction ∧ IsExponent exponent ∧
    text = whole ++ fraction ++ exponent

/-- A number literal as the library writes it. -/
def IsNumeral (text : List Char) : Prop :=
  IsUnsigned text ∨ ∃ unsigned, IsUnsigned unsigned ∧ text = '-' :: unsigned

/-- Text that does not continue a numeral in front of it. -/
def EndsNumeral (text : List Char) : Prop :=
  ∀ c ∈ text.head?, isDigit c = false ∧ c ≠ '.' ∧ c ≠ 'e' ∧ c ≠ 'E'

variable {text rest : List Char}

theorem EndsNumeral.nil : EndsNumeral [] := by
  intro c first
  cases first

theorem EndsNumeral.cons {c : Char} (rest : List Char)
    (ends : isDigit c = false ∧ c ≠ '.' ∧ c ≠ 'e' ∧ c ≠ 'E') : EndsNumeral (c :: rest) := by
  intro other first
  cases first
  exact ends

theorem EndsNumeral.endsDigits (ends : EndsNumeral rest) : EndsDigits rest :=
  fun c first => (ends c first).1

/-- A numeral without its sign starts with a digit. -/
theorem IsUnsigned.starts (unsigned : IsUnsigned text) :
    ∃ c tail, text = c :: tail ∧ isDigit c = true := by
  obtain ⟨whole, fraction, exponent, ⟨⟨nonempty, digits⟩, -⟩, -, -, rfl⟩ := unsigned.parts
  obtain ⟨c, tail, rfl⟩ := List.exists_cons_of_ne_nil nonempty
  exact ⟨c, _, rfl, digits c List.mem_cons_self⟩

/-- A numeral starts with its sign or with a digit. -/
theorem IsNumeral.starts (numeral : IsNumeral text) :
    ∃ c tail, text = c :: tail ∧ (c = '-' ∨ isDigit c = true) := by
  rcases numeral with unsigned | ⟨unsigned, -, rfl⟩
  · obtain ⟨c, tail, rfl, digit⟩ := unsigned.starts
    exact ⟨c, tail, rfl, .inr digit⟩
  · exact ⟨'-', unsigned, rfl, .inl rfl⟩

theorem isWhole_singleton {c : Char} (digit : isDigit c = true) : IsWhole [c] :=
  ⟨areDigits_singleton digit, fun zero => by simpa using zero⟩

theorem IsWhole.isUnsigned (whole : IsWhole text) : IsUnsigned text :=
  ⟨text, [], [], whole, .inl rfl, .inl rfl, by simp⟩

/-- Whole digits, a point and further digits. -/
theorem IsWhole.point {digits : List Char} (whole : IsWhole text) (fraction : AreDigits digits) :
    IsUnsigned (text ++ '.' :: digits) :=
  ⟨text, '.' :: digits, [], whole, .inr ⟨digits, fraction, rfl⟩, .inl rfl, by simp⟩

/-! ## Reading a numeral -/

theorem wholeDigits_append (whole : IsWhole text) (ends : EndsDigits rest) :
    wholeDigits (text ++ rest) = .ok (text, rest) := by
  obtain ⟨⟨nonempty, all⟩, leading⟩ := whole
  unfold wholeDigits
  rw [takeWhile_digits all ends, dropWhile_digits all ends]
  match text, nonempty, leading with
  | [c], _, _ => simp
  | c :: second :: tail, _, leading =>
      have nonzero : c ≠ '0' := fun zero => by
        have alone := leading (by rw [zero]; rfl)
        cases alone
      simp [nonzero]

theorem fractionDigits_append (fraction : IsFraction text) (ends : EndsDigits rest)
    (point : ∀ c ∈ rest.head?, c ≠ '.') : fractionDigits (text ++ rest) = .ok (text, rest) := by
  rcases fraction with rfl | ⟨digits, ⟨nonempty, all⟩, rfl⟩
  · cases rest with
    | nil => rfl
    | cons c rest =>
        have other := point c rfl
        simp [fractionDigits, other]
  · simp only [List.cons_append, fractionDigits, takeWhile_digits all ends,
      dropWhile_digits all ends]
    rw [if_neg (by simp [nonempty])]

theorem markedDigits_append {mark digits : List Char} (are : AreDigits digits)
    (ends : EndsDigits rest) : markedDigits mark (digits ++ rest) = .ok (mark ++ digits, rest) := by
  unfold markedDigits
  simp only [takeWhile_digits are.2 ends, dropWhile_digits are.2 ends]
  rw [if_neg (by simp [are.1])]

theorem exponentDigits_append (exponent : IsExponent text) (ends : EndsNumeral rest) :
    exponentDigits (text ++ rest) = .ok (text, rest) := by
  rcases exponent with rfl | ⟨sign, digits, sign_cases, are, rfl⟩
  · cases rest with
    | nil => rfl
    | cons c rest =>
        obtain ⟨-, -, lower, upper⟩ := ends c rfl
        simp [exponentDigits, lower, upper]
  · have marked (mark : List Char) :
        markedDigits mark (digits ++ rest) = .ok (mark ++ digits, rest) :=
      markedDigits_append are ends.endsDigits
    rcases sign_cases with rfl | rfl | rfl
    · obtain ⟨c, tail, rfl⟩ := List.exists_cons_of_ne_nil are.1
      have digit := are.2 c List.mem_cons_self
      have plus : c ≠ '+' := by
        rintro rfl
        exact absurd digit (by decide)
      have minus : c ≠ '-' := by
        rintro rfl
        exact absurd digit (by decide)
      simpa [exponentDigits, plus, minus] using marked ['e']
    · simpa [exponentDigits] using marked ['e', '+']
    · simpa [exponentDigits] using marked ['e', '-']

/-- What stands behind whole digits does not continue them. -/
theorem endsDigits_behind {fraction exponent : List Char} (is_fraction : IsFraction fraction)
    (is_exponent : IsExponent exponent) (ends : EndsNumeral rest) :
    EndsDigits (fraction ++ (exponent ++ rest)) ∧ EndsDigits (exponent ++ rest) ∧
      ∀ c ∈ (exponent ++ rest).head?, c ≠ '.' := by
  have exponent_digits : EndsDigits (exponent ++ rest) := by
    rcases is_exponent with rfl | ⟨sign, digits, -, -, rfl⟩
    · exact ends.endsDigits
    · intro c first
      cases first
      rfl
  refine ⟨?_, exponent_digits, ?_⟩
  · rcases is_fraction with rfl | ⟨digits, -, rfl⟩
    · exact exponent_digits
    · intro c first
      cases first
      rfl
  · rcases is_exponent with rfl | ⟨sign, digits, -, -, rfl⟩
    · exact fun c first => (ends c first).2.1
    · intro c first
      cases first
      decide

/-- The parts of a numeral are read one behind the other. -/
theorem IsUnsigned.reads (unsigned : IsUnsigned text) (ends : EndsNumeral rest) :
    ∃ whole fraction exponent, text = whole ++ fraction ++ exponent ∧
      wholeDigits (text ++ rest) = .ok (whole, fraction ++ (exponent ++ rest)) ∧
      fractionDigits (fraction ++ (exponent ++ rest)) = .ok (fraction, exponent ++ rest) ∧
      exponentDigits (exponent ++ rest) = .ok (exponent, rest) := by
  obtain ⟨whole, fraction, exponent, is_whole, is_fraction, is_exponent, rfl⟩ := unsigned.parts
  obtain ⟨behind_whole, behind_fraction, point⟩ := endsDigits_behind is_fraction is_exponent ends
  refine ⟨whole, fraction, exponent, rfl, ?_, ?_, ?_⟩
  · rw [List.append_assoc, List.append_assoc]
    exact wholeDigits_append is_whole behind_whole
  · exact fractionDigits_append is_fraction behind_fraction point
  · exact exponentDigits_append is_exponent ends

/-- A numeral is read to its end. -/
theorem numberText_append (numeral : IsNumeral text) (ends : EndsNumeral rest) :
    numberText (text ++ rest) = .ok (text, rest) := by
  rcases numeral with unsigned | ⟨unsigned, is_unsigned, rfl⟩
  · obtain ⟨c, tail, starts, digit⟩ := unsigned.starts
    have no_sign : c ≠ '-' := by
      rintro rfl
      exact absurd digit (by decide)
    obtain ⟨whole, fraction, exponent, parts, wholes, fractions, exponents⟩ := unsigned.reads ends
    rw [starts, List.cons_append] at wholes ⊢
    simpa [numberText, no_sign, wholes, fractions, exponents, bind, Except.bind, pure,
      Except.pure] using parts.symm.trans starts
  · obtain ⟨whole, fraction, exponent, parts, wholes, fractions, exponents⟩ :=
      is_unsigned.reads ends
    simp only [List.cons_append, numberText, wholes, fractions, exponents, bind, Except.bind, pure,
      Except.pure, List.nil_append]
    rw [← parts]

/-! ## The numeral of a count -/

/-- The digits of a natural as whole digits: only zero starts with a zero. -/
theorem isWhole_toDigits (value : Nat) : IsWhole (Nat.toDigits 10 value) := by
  refine ⟨areDigits_toDigits value, fun zero => ?_⟩
  by_cases positive : 0 < value
  · exact absurd rfl (head_toDigits_ne_zero positive '0' zero)
  · obtain rfl : value = 0 := by omega
    rw [Nat.toDigits_zero]

/-- Digits are collected as long as the number they stand for fits a word. -/
theorem collect_eq (value : Nat) {digits : List Char}
    (fits : digits.foldl (fun value digit => value * 10 + digitValue digit) value < Count.limit) :
    Literal.collect value digits =
      (digits.foldl (fun value digit => value * 10 + digitValue digit) value, 0) := by
  induction digits generalizing value with
  | nil => rfl
  | cons digit digits ih =>
      have grows : ∀ (start : Nat) (digits : List Char),
          start ≤ digits.foldl (fun value digit => value * 10 + digitValue digit) start :=
        fun start digits => by
          induction digits generalizing start with
          | nil => exact Nat.le_refl start
          | cons digit digits ih =>
              exact Nat.le_trans (by omega) (ih (start * 10 + digitValue digit))
      rw [List.foldl_cons] at fits ⊢
      rw [Literal.collect, if_pos (Nat.lt_of_le_of_lt (grows _ digits) fits)]
      exact ih _ fits

/-- A numeral without sign, fraction and exponent, taken apart. -/
theorem Literal.ofText_digits (are : AreDigits text) :
    Literal.ofText text = ⟨false, text, [], none, false⟩ := by
  have all := are.2
  have whole : text.takeWhile isDigit = text := List.takeWhile_eq_self_iff.mpr all
  have behind : text.dropWhile isDigit = [] := List.dropWhile_eq_nil_iff.mpr all
  have unsigned : text.head? ≠ some '-' := fun minus =>
    absurd (all '-' (List.mem_of_mem_head? minus)) (by decide)
  simp [Literal.ofText, unsigned, whole, behind]

/-- The digits of a count stand for that count. -/
theorem Number.ofText_toDigits {value : Nat} (fits : value < Count.limit) :
    Number.ofText (Nat.toDigits 10 value) = .ok (.whole value) := by
  have collected : Literal.collect 0 (Nat.toDigits 10 value) =
      (digitsValue (Nat.toDigits 10 value), 0) :=
    collect_eq 0 (by rwa [← digitsValue_toDigits value] at fits)
  rw [digitsValue_toDigits] at collected
  rw [Number.ofText, Literal.ofText_digits (areDigits_toDigits value), Literal.number]
  simp [collected]

end Json

end InvertibleNet
