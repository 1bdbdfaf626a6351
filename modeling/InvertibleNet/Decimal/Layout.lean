/-
# Number texts

A number becomes text in two steps: its digits are chosen, and then they are
laid out around a point or with an exponent. This module holds the layouts the
library writes, each as one record, and the functions that fill them in.
-/

import InvertibleNet.Decimal.Shortest
import InvertibleNet.Binary.Double

namespace InvertibleNet

/-- How the digits of a number are laid out. The exponent is that of the first
digit. -/
structure Layout where
  /-- Which exponents are written around a point. -/
  positional : Int → Bool
  /-- Whether a whole number keeps a point and a zero. -/
  keepPoint : Bool
  /-- Whether a positive exponent carries a sign. -/
  signedExponent : Bool
  /-- Which of two equally near shortest decimals is written. -/
  tie : Decimal.Tie

namespace Layout

/-- Document numbers of double precision. -/
def documentDouble : Layout :=
  ⟨fun exponent => -5 ≤ exponent && exponent ≤ 15, true, true, .toEven⟩

/-- Document numbers of single precision. -/
def documentSingle : Layout :=
  ⟨fun exponent => -6 ≤ exponent && exponent ≤ 12, true, true, .toEven⟩

/-- Plain text: no exponent at all, and whole numbers without a point. -/
def plain : Layout := ⟨fun _ => true, false, false, .upward⟩

/-- Tables: always an exponent. -/
def scientific : Layout := ⟨fun _ => false, false, false, .upward⟩

/-- Lay out the digits of a number whose first digit has the given exponent. -/
def arrange (layout : Layout) (digits : List Char) (exponent : Int) : String :=
  if layout.positional exponent then
    if exponent < 0 then
      "0." ++ String.ofList (List.replicate ((-exponent).toNat - 1) '0' ++ digits)
    else
      let whole := exponent.toNat + 1
      if digits.length ≤ whole then
        String.ofList (digits ++ List.replicate (whole - digits.length) '0') ++
          (if layout.keepPoint then ".0" else "")
      else
        String.ofList (digits.take whole) ++ "." ++ String.ofList (digits.drop whole)
  else
    let fraction := digits.drop 1
    String.ofList (digits.take 1) ++
      (if fraction.isEmpty then "" else "." ++ String.ofList fraction) ++ "e" ++
      (if exponent < 0 then "-" else if layout.signedExponent then "+" else "") ++
      toString exponent.natAbs

/-- The digits without the zeros at their end. At least one digit stays. -/
def trimZeros (digits : List Char) : List Char :=
  match (digits.reverse.dropWhile (· = '0')).reverse with
  | [] => ['0']
  | trimmed => trimmed

/-- Lay out a decimal by its significant digits. -/
def ofDecimal (layout : Layout) (decimal : Decimal) : String :=
  let digits := Nat.toDigits 10 decimal.coefficient
  layout.arrange (trimZeros digits) (decimal.exponent + digits.length - 1)

/-- The text of a stored number by its shortest digits. -/
def text (layout : Layout) (format : Binary.Format) : Binary.Datum → String
  | .nan => "NaN"
  | .infinite negative => (if negative then "-" else "") ++ "inf"
  | .finite negative significand exponent =>
      (if negative then "-" else "") ++
        if significand = 0 then layout.arrange ['0'] 0
        else layout.ofDecimal (.shortest format layout.tie significand exponent)

/-- The text of a stored number rounded to a fixed number of places after the
point, with an exponent. -/
def roundedText (places : Nat) : Binary.Datum → String
  | .nan => "NaN"
  | .infinite negative => (if negative then "-" else "") ++ "inf"
  | .finite negative significand exponent =>
      (if negative then "-" else "") ++
        if significand = 0 then scientific.arrange (List.replicate (places + 1) '0') 0
        else
          let (dividend, divisor) := Binary.scaled significand 1 exponent
          let decimal := Decimal.rounded places dividend divisor
          let digits := Nat.toDigits 10 decimal.coefficient
          scientific.arrange (digits.take (places + 1)) (decimal.exponent + digits.length - 1)

end Layout

/-- The text of a number in a document. A number that is not finite has none. -/
def Single.documentText? (x : Single) : Option String :=
  if x.isFinite then some (Layout.documentSingle.text Binary.single x.datum) else none

/-- The text of a number in a table. -/
def Single.tableText (x : Single) : String := Layout.scientific.text Binary.single x.datum

/-- The text of a number rounded for a message. -/
def Single.messageText (x : Single) (places : Nat) : String := Layout.roundedText places x.datum

/-- The text of a number in a document. A number that is not finite has none. -/
def Double.documentText? (x : Double) : Option String :=
  match x.datum with
  | .finite .. => some (Layout.documentDouble.text Binary.double x.datum)
  | _ => none

/-- The text of a number in a message. -/
def Double.messageText (x : Double) : String := Layout.plain.text Binary.double x.datum

end InvertibleNet
