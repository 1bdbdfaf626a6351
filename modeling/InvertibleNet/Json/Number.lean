/-
# Numbers in documents

A number literal is kept as its text and read when its place asks for it. Whole
literals that fit a signed or unsigned word are integers; all others are read
as double precision: digits are collected while they fit a word, and the
collected number is scaled once by a power of ten. A result that is too large
makes the literal malformed.
-/

import InvertibleNet.Count
import InvertibleNet.Decimal.Digits
import InvertibleNet.Json.Fault

namespace InvertibleNet.Json

/-- What a number literal stands for. -/
inductive Number where
  | whole (value : Nat)
  | negative (magnitude : Nat)
  | real (value : Double)
  deriving DecidableEq, Repr

/-- The parts of a number literal. -/
structure Literal where
  isNegative : Bool
  whole : List Char
  fraction : List Char
  /-- Sign and digits behind the exponent mark, if there is one. -/
  exponent : Option (Bool × List Char)
  /-- Whether the literal has a point or an exponent mark. -/
  isReal : Bool

namespace Literal

/-- Split a literal of the right form into its parts. -/
def ofText (text : List Char) : Literal :=
  let isNegative := text.head? = some '-'
  let unsigned := if isNegative then text.drop 1 else text
  let whole := unsigned.takeWhile Decimal.isDigit
  let afterWhole := unsigned.dropWhile Decimal.isDigit
  let hasPoint := afterWhole.head? = some '.'
  let afterPoint := if hasPoint then afterWhole.drop 1 else afterWhole
  let fraction := if hasPoint then afterPoint.takeWhile Decimal.isDigit else []
  let afterFraction := if hasPoint then afterPoint.dropWhile Decimal.isDigit else afterPoint
  let exponent := match afterFraction with
    | [] => none
    | _ :: '-' :: digits => some (true, digits)
    | _ :: '+' :: digits => some (false, digits)
    | _ :: digits => some (false, digits)
  { isNegative, whole, fraction, exponent, isReal := hasPoint || exponent.isSome }

/-- Collect digits behind a number while the result fits a word, and count the
digits that are left over. -/
def collect (value : Nat) : List Char → Nat × Nat
  | [] => (value, 0)
  | digit :: rest =>
      let next := value * 10 + Decimal.digitValue digit
      if next < Count.limit then collect next rest else (value, rest.length + 1)

end Literal

/-- The number scaled by a power of ten, with one rounding where the power is
in the table of the format. -/
def scaleByTen (value : Double) (exponent : Int) : Option Double :=
  if exponent.natAbs ≤ 308 then
    let power := Double.ofRatio false (Nat.pow 10 exponent.natAbs) 1
    if 0 ≤ exponent then
      let scaled := value.mul power
      if scaled.isInfinite then none else some scaled
    else some (value.div power)
  else if value.isZero then some value
  else if 0 ≤ exponent then none
  else scaleByTen (value.div (Double.ofRatio false (Nat.pow 10 308) 1)) (exponent + 308)
termination_by (-exponent).toNat
decreasing_by omega

namespace Literal

/-- The largest exponent that is read as written. -/
def exponentLimit : Int := 0x80000000

/-- The double-precision value of collected digits and an exponent mark. An
exponent beyond the limit leaves only zero and, upwards, nothing. -/
def realValue (literal : Literal) (collected : Nat) (shift : Int) : Option Double :=
  let magnitude := match literal.exponent with
    | none => scaleByTen (.ofNat collected) shift
    | some (isNegative, digits) =>
        let exponent : Int := Decimal.digitsValue digits
        if exponentLimit ≤ exponent then
          if collected ≠ 0 ∧ !isNegative then none else some .zero
        else scaleByTen (.ofNat collected) (shift + if isNegative then -exponent else exponent)
  magnitude.map fun (value : Double) => if literal.isNegative then value.neg else value

/-- What the literal stands for. -/
def number (literal : Literal) : Except Fault Number :=
  let (whole, wholeLeft) := collect 0 literal.whole
  if literal.isReal || wholeLeft ≠ 0 then
    let (collected, left) := collect whole literal.fraction
    let shift := (wholeLeft : Int) - (literal.fraction.length - left)
    match literal.realValue collected shift with
    | some value => .ok (.real value)
    | none => .error .malformed
  else if !literal.isNegative then .ok (.whole whole)
  else if 1 ≤ whole ∧ whole ≤ 0x8000000000000000 then .ok (.negative whole)
  else .ok (.real (Double.ofNat whole).neg)

end Literal

namespace Number

/-- The number that a literal of the right form stands for. -/
def ofText (text : List Char) : Except Fault Number := (Literal.ofText text).number

def found : Number → Found
  | .whole value => .integer value
  | .negative magnitude => .integer (-magnitude)
  | .real value => .real value

def toDouble : Number → Double
  | .whole value => .ofNat value
  | .negative magnitude => (Double.ofNat magnitude).neg
  | .real value => value

/-- The single-precision value: whole numbers directly, all others through
double precision. -/
def toSingle : Number → Single
  | .whole value => .ofNat value
  | .negative magnitude => (Single.ofNat magnitude).neg
  | .real value => value.toSingle

end Number

end InvertibleNet.Json
