/-
# Double precision

A number of the 64-bit format, held as its word. The library stores one such
number, the dropout rate of a configuration, and reads every decimal number of
a text through this format.
-/

import InvertibleNet.Binary.Single

namespace InvertibleNet

/-- A 64-bit binary number, as its word. -/
structure Double where
  bits : UInt64
  deriving DecidableEq, Repr, Inhabited

namespace Double

@[inline] def toFloat (x : Double) : Float := Float.ofBits x.bits

@[inline] def ofFloat (x : Float) : Double := ⟨x.toBits⟩

/-- The number nearest to a signed quotient. -/
def ofRatio (negative : Bool) (numerator denominator : Nat) : Double :=
  let magnitude := (Binary.double.nearest numerator denominator).toUInt64
  ⟨if negative then magnitude ||| 0x8000000000000000 else magnitude⟩

/-- The number nearest to a natural. -/
def ofNat (value : Nat) : Double := ofRatio false value 1

/-- What the word stands for. -/
def datum (x : Double) : Binary.Datum := Binary.double.decode x.bits.toNat

def zero : Double := ⟨0⟩
def one : Double := ⟨0x3ff0000000000000⟩

def mul (x y : Double) : Double := ofFloat (x.toFloat * y.toFloat)
def div (x y : Double) : Double := ofFloat (x.toFloat / y.toFloat)

/-- The sign bit turned over. -/
def neg (x : Double) : Double := ⟨x.bits ^^^ 0x8000000000000000⟩

def isInfinite (x : Double) : Bool := x.bits &&& 0x7fffffffffffffff == 0x7ff0000000000000

/-- Either of the two zeros. -/
def isZero (x : Double) : Bool := x.bits &&& 0x7fffffffffffffff == 0

/-- The order of arithmetic: the zeros are equal and nothing is below or above
a not-a-number. -/
def less (x y : Double) : Bool := x.toFloat < y.toFloat

/-- The order of arithmetic with equality. -/
def atMost (x y : Double) : Bool := x.toFloat ≤ y.toFloat

/-- The single-precision number nearest to an exact value. -/
def toSingle (x : Double) : Single :=
  match x.datum with
  | .nan => .nan
  | .infinite negative => .infinity negative
  | .finite negative significand exponent =>
      let (dividend, divisor) := Binary.scaled significand 1 exponent
      .ofRatio negative dividend divisor

end Double

end InvertibleNet
