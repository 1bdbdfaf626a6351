/-
# Reading numbers

The number that a whole text stands for, if it stands for one. Nothing may
stand around the number, blanks included. A decimal is rounded once, from its
exact value to the nearest number of the format.
-/

import InvertibleNet.Binary.Single
import InvertibleNet.Count
import InvertibleNet.Decimal.Digits
import InvertibleNet.Decimal.Shortest

namespace InvertibleNet

namespace Decimal

/-- Split off a sign; `true` stands for a minus. -/
def splitSign : List Char → Bool × List Char
  | '-' :: rest => (true, rest)
  | '+' :: rest => (false, rest)
  | text => (false, text)

/-- The number behind an exponent mark: a sign, if there is one, and at least
one digit. -/
def exponentOf? (text : List Char) : Option Int :=
  let (negative, digits) := splitSign text
  if digits.isEmpty || !digits.all isDigit then none
  else if negative then some (-(digitsValue digits : Int))
  else some (digitsValue digits)

/-- The decimal that an unsigned text stands for: digits around a point, which
may be left out, with at least one digit on either side of it, and an exponent,
which may be left out as well. -/
def ofUnsigned? (text : List Char) : Option Decimal := do
  let whole := text.takeWhile isDigit
  let afterWhole := text.dropWhile isDigit
  let (fraction, rest) := match afterWhole with
    | '.' :: behind => (behind.takeWhile isDigit, behind.dropWhile isDigit)
    | behind => ([], behind)
  if whole.isEmpty && fraction.isEmpty then failure
  let exponent ← match rest with
    | [] => some 0
    | mark :: digits => if mark = 'e' ∨ mark = 'E' then exponentOf? digits else none
  return ⟨digitsValue (whole ++ fraction), exponent - fraction.length⟩

/-- The magnitude that a decimal rounds to. A decimal that is far outside the
range of the format is settled by the exponent of its first digit alone. -/
def toSingle (decimal : Decimal) (negative : Bool) : Single :=
  let leading := decimal.exponent + digitCount decimal.coefficient
  if decimal.coefficient = 0 ∨ leading < -50 then .ofRatio negative 0 1
  else if 40 < leading then .infinity negative
  else
    .ofRatio negative (decimal.coefficient * Nat.pow 10 decimal.exponent.toNat)
      (Nat.pow 10 (-decimal.exponent).toNat)

end Decimal

/-- The count that a text stands for: digits, behind a plus sign or not. -/
def Count.ofText? (text : String) : Option Nat :=
  let digits := match text.toList with
    | '+' :: rest => rest
    | other => other
  if digits.isEmpty || !digits.all Decimal.isDigit then none
  else Count.checked (Decimal.digitsValue digits)

/-- The single-precision number that a text stands for: a decimal, or the word
for infinity or for a not-a-number in any mix of cases, behind a sign or not. -/
def Single.ofText? (text : String) : Option Single :=
  let (negative, unsigned) := Decimal.splitSign text.toList
  let word := String.ofList (unsigned.map Char.toLower)
  if word = "inf" ∨ word = "infinity" then some (.infinity negative)
  else if word = "nan" then some (if negative then Single.nan.neg else .nan)
  else (Decimal.ofUnsigned? unsigned).map fun decimal => decimal.toSingle negative

end InvertibleNet
