/-
# Single precision

A number of the 32-bit format, held as its word. Two numbers are equal when
their words are, which tells apart the two zeros and the two signs of a
not-a-number; the comparisons of arithmetic are separate functions.
-/

import InvertibleNet.Binary.Format

namespace InvertibleNet

/-- A 32-bit binary number, as its word. -/
structure Single where
  bits : UInt32
  deriving DecidableEq, Repr, Inhabited

namespace Single

/-- The hardware number of the word. -/
@[inline] def toFloat32 (x : Single) : Float32 := Float32.ofBits x.bits

/-- The word of a hardware number. -/
@[inline] def ofFloat32 (x : Float32) : Single := ⟨x.toBits⟩

/-- The number nearest to a signed quotient. -/
def ofRatio (negative : Bool) (numerator denominator : Nat) : Single :=
  let magnitude := (Binary.single.nearest numerator denominator).toUInt32
  ⟨if negative then magnitude ||| 0x80000000 else magnitude⟩

/-- The number nearest to a natural. -/
def ofNat (value : Nat) : Single := ofRatio false value 1

/-- What the word stands for. -/
def datum (x : Single) : Binary.Datum := Binary.single.decode x.bits.toNat

def zero : Single := ⟨0⟩
def one : Single := ⟨0x3f800000⟩

/-- The one not-a-number that the library makes itself. -/
def nan : Single := ⟨0x7fc00000⟩

def infinity (negative : Bool) : Single := ⟨if negative then 0xff800000 else 0x7f800000⟩

instance : Zero Single := ⟨zero⟩

@[inline] def add (x y : Single) : Single := ofFloat32 (x.toFloat32 + y.toFloat32)
@[inline] def sub (x y : Single) : Single := ofFloat32 (x.toFloat32 - y.toFloat32)
@[inline] def mul (x y : Single) : Single := ofFloat32 (x.toFloat32 * y.toFloat32)
@[inline] def div (x y : Single) : Single := ofFloat32 (x.toFloat32 / y.toFloat32)
@[inline] def sqrt (x : Single) : Single := ofFloat32 x.toFloat32.sqrt

/-- The sign bit turned over. -/
@[inline] def neg (x : Single) : Single := ⟨x.bits ^^^ 0x80000000⟩

/-- The sign bit cleared. -/
@[inline] def abs (x : Single) : Single := ⟨x.bits &&& 0x7fffffff⟩

instance : Add Single := ⟨add⟩
instance : Sub Single := ⟨sub⟩
instance : Mul Single := ⟨mul⟩
instance : Div Single := ⟨div⟩
instance : Neg Single := ⟨neg⟩

/-- Neither infinite nor not a number. -/
@[inline] def isFinite (x : Single) : Bool := x.bits &&& 0x7f800000 != 0x7f800000

@[inline] def isNaN (x : Single) : Bool := 0x7f800000 < (x.bits &&& 0x7fffffff)

/-- Either of the two zeros. -/
@[inline] def isZero (x : Single) : Bool := x.bits &&& 0x7fffffff == 0

/-- The order of arithmetic: the zeros are equal and nothing is below or above
a not-a-number. -/
@[inline] def less (x y : Single) : Bool := x.toFloat32 < y.toFloat32

/-- The larger of two numbers, the first where neither is below the other. -/
@[inline] def larger (x y : Single) : Single := if x.less y then y else x

/-- The position of a word in the total order of the format, which runs from
the negative not-a-numbers over minus infinity and the two zeros up to the
positive not-a-numbers. -/
def rank (x : Single) : Int :=
  let magnitude := (x.bits &&& 0x7fffffff).toNat
  if x.bits &&& 0x80000000 = 0 then magnitude else -(magnitude : Int) - 1

end Single

end InvertibleNet
