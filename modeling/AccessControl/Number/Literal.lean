import AccessControl.Number.Binary64

/-! # Numbers read from text

`Binary64.ofText?` reads a signed decimal with an optional fraction and exponent, or one of the
names of infinity and NaN in any case. `readInteger?` reads a decimal integer within bounds.
-/

namespace AccessControl

def digitsValue (digits : List Char) : Nat :=
  digits.foldl (fun n c => 10 * n + (c.toNat - '0'.toNat)) 0

def spanDigits (text : List Char) : List Char × List Char := text.span Char.isDigit

/-- Split off a sign; the flag says that it is a minus. -/
def splitSign : List Char → Bool × List Char
  | '-' :: rest => (true, rest)
  | '+' :: rest => (false, rest)
  | text => (false, text)

/-- Read a decimal integer that fits the bounds. A plus sign is allowed, a minus sign only where
    the lower bound is negative. -/
def readInteger? (low high : Int) (text : List Char) : Option Int :=
  let (negative, digits) := splitSign text
  if digits.isEmpty || !digits.all Char.isDigit || (negative && 0 ≤ low) then none
  else
    let n : Int := if negative then -(digitsValue digits : Int) else digitsValue digits
    if low ≤ n && n ≤ high then some n else none

namespace Binary64

/-- Read the exponent part of a number: nothing, or a mark with a signed run of digits. -/
def readExponent? : List Char → Option Int
  | [] => some 0
  | c :: rest =>
    if c == 'e' || c == 'E' then
      let (negative, digits) := splitSign rest
      if digits.isEmpty || !digits.all Char.isDigit then none
      else some (if negative then -(digitsValue digits : Int) else digitsValue digits)
    else none

/-- Read an unsigned number: digits with an optional point, at least one digit, an exponent. -/
def readMagnitude? (negative : Bool) (text : List Char) : Option Binary64 :=
  let (whole, afterWhole) := spanDigits text
  let (fraction, rest) := match afterWhole with
    | '.' :: afterPoint => spanDigits afterPoint
    | other => ([], other)
  if whole.isEmpty && fraction.isEmpty then none
  else
    (readExponent? rest).map fun exponent =>
      ofDecimal negative (digitsValue (whole ++ fraction)) (exponent - fraction.length)

/-- Read a number from a text without surrounding blanks. -/
def ofText? (text : String) : Option Binary64 :=
  let (negative, body) := splitSign text.toList
  let name := String.ofList (body.map Char.toLower)
  if name == "nan" then some (nan negative)
  else if name == "inf" || name == "infinity" then some (infinity negative)
  else readMagnitude? negative body

end Binary64

end AccessControl
