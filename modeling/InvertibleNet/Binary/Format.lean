/-
# Binary interchange formats

A binary format stores a sign, an exponent and a fraction in one word. This
module reads such a word as an exact number and finds, for an exact quotient
of naturals, the word of the nearest number. Everything is integer arithmetic,
so no rounding happens but the one that is asked for.
-/

namespace InvertibleNet.Binary

/-- The two widths that fix a format: bits of the significand, counting its
leading one, and bits of the exponent field. -/
structure Format where
  precision : Nat
  exponentBits : Nat
  deriving DecidableEq, Repr

/-- The 32-bit format. -/
def single : Format := ⟨24, 8⟩

/-- The 64-bit format. -/
def double : Format := ⟨53, 11⟩

/-- What a stored word stands for. A finite number is `significand * 2 ^ exponent`
with a sign; zero keeps its sign. -/
inductive Datum where
  | nan
  | infinite (negative : Bool)
  | finite (negative : Bool) (significand : Nat) (exponent : Int)
  deriving DecidableEq, Repr

namespace Format

/-- Bits of the fraction field: the leading one is not stored. -/
def fractionBits (format : Format) : Nat := format.precision - 1

/-- The leading one of a significand, which is also one unit of the exponent
field. -/
def leadingOne (format : Format) : Nat := Nat.pow 2 format.fractionBits

/-- How many values the exponent field has. -/
def exponentFields (format : Format) : Nat := Nat.pow 2 format.exponentBits

/-- The exponent of the last place of the smallest numbers. -/
def minExponent (format : Format) : Int :=
  2 - (format.exponentFields / 2 : Nat) - format.fractionBits

/-- The magnitude bits of infinity: all ones in the exponent field. -/
def infinity (format : Format) : Nat := (format.exponentFields - 1) * format.leadingOne

/-- Read a stored word. -/
def decode (format : Format) (bits : Nat) : Datum :=
  let negative := bits >>> (format.fractionBits + format.exponentBits) % 2 == 1
  let biased := bits >>> format.fractionBits % format.exponentFields
  let fraction := bits % format.leadingOne
  if biased = format.exponentFields - 1 then
    if fraction = 0 then .infinite negative else .nan
  else if biased = 0 then
    .finite negative fraction format.minExponent
  else
    .finite negative (fraction + format.leadingOne) (format.minExponent + biased - 1)

end Format

/-- The quotient rounded to the nearest whole number, a half to the even one. -/
def roundedQuotient (numerator denominator : Nat) : Nat :=
  let quotient := numerator / denominator
  let remainder := numerator % denominator
  if denominator < 2 * remainder ∨ (2 * remainder = denominator ∧ quotient % 2 = 1) then
    quotient + 1
  else quotient

/-- A fraction scaled by a power of two, as numerator and denominator. -/
def scaled (numerator denominator : Nat) (exponent : Int) : Nat × Nat :=
  if 0 ≤ exponent then (numerator * Nat.pow 2 exponent.toNat, denominator)
  else (numerator, denominator * Nat.pow 2 (-exponent).toNat)

/-- The largest power of two that is at most the given positive quotient. -/
def binaryMagnitude (numerator denominator : Nat) : Int :=
  let estimate : Int := (Nat.log2 numerator : Int) - Nat.log2 denominator
  let (dividend, divisor) := scaled numerator denominator (-estimate)
  if divisor ≤ dividend then estimate else estimate - 1

/-- The magnitude bits of the number of the format that is nearest to
`numerator / denominator`, ties to the even significand. A carry out of the
significand runs into the exponent field, which is where it belongs, and what
would run past the largest finite number is infinity. -/
def Format.nearest (format : Format) (numerator denominator : Nat) : Nat :=
  if numerator = 0 then 0
  else
    let lastPlace := max (binaryMagnitude numerator denominator - format.fractionBits)
      format.minExponent
    let (dividend, divisor) := scaled numerator denominator (-lastPlace)
    let steps := (lastPlace - format.minExponent).toNat
    min (steps * format.leadingOne + roundedQuotient dividend divisor) format.infinity

end InvertibleNet.Binary
