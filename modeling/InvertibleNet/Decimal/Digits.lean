/-
# Decimal digits

The ten digits, and the number that a row of them stands for.
-/

namespace InvertibleNet.Decimal

def isDigit (c : Char) : Bool := '0' ≤ c && c ≤ '9'

def digitValue (c : Char) : Nat := c.toNat - '0'.toNat

/-- The number that a row of digits stands for; leading zeros change nothing. -/
def digitsValue (digits : List Char) : Nat :=
  digits.foldl (fun value digit => value * 10 + digitValue digit) 0

end InvertibleNet.Decimal
