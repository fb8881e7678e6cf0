import AccessControl.Number.Shortest

/-! # How numbers are written

The digits of a number come from `Decimal.shortest`; a `NumberFormat` holds the decisions of one
written form. Three forms are in use: plain text without exponents, the form in error messages,
and the form inside structured data.
-/

namespace AccessControl

/-- The decisions of one written form of numbers. -/
structure NumberFormat where
  /-- Exponents of the leading digit that are written positionally; `none` for all of them. -/
  positional : Option (Int × Int)
  /-- Whole numbers keep a fraction of zero. -/
  keepsFraction : Bool
  /-- Positive exponents carry a sign. -/
  signedExponent : Bool
  /-- Which of two equally near decimals is taken. -/
  tie : HalfWay
  nan : String
  infinity : String
  negativeInfinity : String

namespace NumberFormat

/-- Text of numbers in messages and string concatenation: all digits, never an exponent. -/
def plain : NumberFormat where
  positional := none
  keepsFraction := false
  signedExponent := false
  tie := .up
  nan := "NaN"
  infinity := "inf"
  negativeInfinity := "-inf"

/-- Text of numbers in the description of a token: a fraction is always shown, and exponents
    appear below `1e-4` and from `1e16` on. -/
def described : NumberFormat where
  positional := some (-4, 15)
  keepsFraction := true
  signedExponent := false
  tie := .up
  nan := "NaN"
  infinity := "inf"
  negativeInfinity := "-inf"

/-- Text of numbers in structured data: a fraction is always shown, an exponent carries its sign,
    and what is not a finite number is null. -/
def structured : NumberFormat where
  positional := some (-5, 15)
  keepsFraction := true
  signedExponent := true
  tie := .toEven
  nan := "null"
  infinity := "null"
  negativeInfinity := "null"

/-- Digits with a point after the first `point` of them, zeros filled in on either side. -/
def positionalText (keepsFraction : Bool) (digits : List Char) (point : Int) : List Char :=
  let whole := digits.take point.toNat
  let fraction := List.replicate (-point).toNat '0' ++ digits.drop point.toNat
  let padded := whole ++ List.replicate (point.toNat - digits.length) '0'
  let shown := if padded.isEmpty then ['0'] else padded
  if fraction.isEmpty then
    if keepsFraction then shown ++ ['.', '0'] else shown
  else shown ++ '.' :: fraction

/-- One digit, a point before the others if there are any, and the exponent. -/
def scientificText (signedExponent : Bool) (digits : List Char) (exponent : Int) : List Char :=
  let mantissa := match digits with
    | [] => ['0']
    | [d] => [d]
    | d :: rest => d :: '.' :: rest
  let sign := if exponent < 0 then ['-'] else if signedExponent then ['+'] else []
  mantissa ++ 'e' :: sign ++ (toString exponent.natAbs).toList

def render (format : NumberFormat) (x : Binary64) : String :=
  if x.isNaN then format.nan
  else if !x.isFinite then if x.isNegative then format.negativeInfinity else format.infinity
  else
    let d := Decimal.shortest format.tie x
    let digits := if d.digits = 0 then [] else Nat.toDigits 10 d.digits
    let point : Int := d.exponent + digits.length
    let positional := match format.positional with
      | none => true
      | some (low, high) => digits.isEmpty || (low ≤ point - 1 && point - 1 ≤ high)
    let body :=
      if positional then
        positionalText format.keepsFraction digits (if digits.isEmpty then 0 else point)
      else scientificText format.signedExponent digits (point - 1)
    String.ofList (if x.isNegative then '-' :: body else body)

end NumberFormat

end AccessControl
