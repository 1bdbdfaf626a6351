/-
# Shortest decimals

Among the decimals that round to a given binary number, the ones with the
fewest digits are those on the coarsest decimal grid that meets the rounding
interval of the number. On one grid only the two neighbours of the number need
to be tried: if any point of the grid lies in the interval, so does a
neighbour. The search is exact, in natural numbers.
-/

import InvertibleNet.Binary.Format

namespace InvertibleNet

/-- A decimal number, `coefficient * 10 ^ exponent`. -/
structure Decimal where
  coefficient : Nat
  exponent : Int
  deriving DecidableEq, Repr

namespace Decimal

/-- How many digits a natural has; zero has one. -/
def digitCount (value : Nat) : Nat := (Nat.toDigits 10 value).length

/-- The largest power of ten that is at most the given positive quotient. Below
one it is found from the other side: the least `k` with `10 ^ k` at least the
reciprocal. -/
def magnitude (numerator denominator : Nat) : Int :=
  if denominator ≤ numerator then (digitCount (numerator / denominator) : Int) - 1
  else -(digitCount ((denominator - 1) / numerator) : Int)

/-- Which one is taken of two decimals that are equally near. -/
inductive Tie where
  | toEven
  | upward
  deriving DecidableEq, Repr

/-- The numbers that round to one binary number: three naturals over a common
denominator, and whether the two ends round to it as well. -/
structure RoundingInterval where
  low : Nat
  value : Nat
  high : Nat
  denominator : Nat
  closed : Bool

/-- The interval of a positive number of a format. The gap below the first
number of a binade is half as wide as the gap above it, and a tie rounds to the
even significand. -/
def RoundingInterval.of (format : Binary.Format) (significand : Nat) (exponent : Int) :
    RoundingInterval :=
  let narrow := significand = format.leadingOne ∧ format.minExponent < exponent
  let (unit, denominator) := Binary.scaled 1 1 (exponent - 2)
  { low := (4 * significand - if narrow then 1 else 2) * unit
    value := 4 * significand * unit
    high := (4 * significand + 2) * unit
    denominator := denominator
    closed := significand % 2 = 0 }

/-- The point of the grid with the given exponent that lies in the interval,
the nearer one of two. -/
def RoundingInterval.gridPoint? (interval : RoundingInterval) (tie : Tie) (exponent : Int) :
    Option Decimal :=
  let up := Nat.pow 10 exponent.toNat
  let down := Nat.pow 10 (-exponent).toNat
  let unit := up * interval.denominator
  let low := interval.low * down
  let value := interval.value * down
  let high := interval.high * down
  let below := value / unit
  let above := below + 1
  let belowFits := 0 < below ∧ (low < below * unit ∨ interval.closed ∧ low = below * unit)
  let aboveFits := above * unit < high ∨ interval.closed ∧ above * unit = high
  let toBelow := value - below * unit
  let toAbove := above * unit - value
  if belowFits ∧ aboveFits then
    if toBelow < toAbove ∨ toBelow = toAbove ∧ tie = .toEven ∧ below % 2 = 0 then
      some ⟨below, exponent⟩
    else some ⟨above, exponent⟩
  else if belowFits then some ⟨below, exponent⟩
  else if aboveFits then some ⟨above, exponent⟩
  else none

/-- A shortest decimal that rounds to a positive number of the format, the
nearest of those. Seventeen digits are enough for both formats. -/
def shortest (format : Binary.Format) (tie : Tie) (significand : Nat) (exponent : Int) :
    Decimal :=
  let interval := RoundingInterval.of format significand exponent
  let leading := magnitude interval.value interval.denominator
  let grids : List Int := (List.range 17).map fun (place : Nat) => leading - place
  (grids.findSome? (interval.gridPoint? tie)).getD ⟨0, 0⟩

/-- A positive quotient rounded to the given number of digits after the
leading one, a half to the even digit. -/
def rounded (places : Nat) (numerator denominator : Nat) : Decimal :=
  let exponent := magnitude numerator denominator - places
  let up := Nat.pow 10 exponent.toNat
  let down := Nat.pow 10 (-exponent).toNat
  ⟨Binary.roundedQuotient (numerator * down) (denominator * up), exponent⟩

end Decimal

end InvertibleNet
