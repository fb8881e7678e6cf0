import AccessControl.Number.Binary64

/-! # Arithmetic of binary floating-point numbers

Each operation takes the exact result and rounds it once, to the nearest number. A result that has
no value, such as the difference of two infinities or the quotient of two zeros, is a NaN.
-/

namespace AccessControl.Binary64

/-- The number nearest to `n * 2 ^ q`, with a sign for the case that `n` is zero. -/
def ofScaled (negativeZero : Bool) (n q : Int) : Binary64 :=
  nearest (if n = 0 then negativeZero else n < 0) (n.natAbs * twoTo q.toNat) (twoTo (-q).toNat)

/-- A finite number as `n * 2 ^ q`. -/
def scaled (x : Binary64) : Int × Int :=
  let (m, q) := x.decompose
  (if x.isNegative then -(m : Int) else m, q)

/-- The sum. That of two zeros, or of two numbers that cancel, is negative only if both are. -/
def add (x y : Binary64) : Binary64 :=
  if x.isNaN || y.isNaN then nan false
  else if !x.isFinite then
    if y.isFinite || x.isNegative == y.isNegative then x else nan false
  else if !y.isFinite then y
  else
    let (m, qx) := x.scaled
    let (n, qy) := y.scaled
    let q := min qx qy
    ofScaled (x.isNegative && y.isNegative) (m * twoTo (qx - q).toNat + n * twoTo (qy - q).toNat) q

def sub (x y : Binary64) : Binary64 := add x y.neg

/-- Whether a product or quotient is negative. -/
def differInSign (x y : Binary64) : Bool := x.isNegative != y.isNegative

def mul (x y : Binary64) : Binary64 :=
  if x.isNaN || y.isNaN then nan false
  else if !x.isFinite || !y.isFinite then
    if x.isZero || y.isZero then nan false else infinity (differInSign x y)
  else
    let (m, qx) := x.scaled
    let (n, qy) := y.scaled
    ofScaled (differInSign x y) (m * n) (qx + qy)

/-- The quotient. A number over zero is infinite. -/
def div (x y : Binary64) : Binary64 :=
  if x.isNaN || y.isNaN then nan false
  else if !x.isFinite then
    if y.isFinite then infinity (differInSign x y) else nan false
  else if !y.isFinite then ofMagnitude (differInSign x y) 0
  else if y.isZero then
    if x.isZero then nan false else infinity (differInSign x y)
  else
    let (m, qx) := x.decompose
    let (n, qy) := y.decompose
    nearest (differInSign x y) (m * twoTo (qx - qy).toNat) (n * twoTo (qy - qx).toNat)

/-- The remainder of a division truncated toward zero. It is exact, and takes the sign of the
    dividend. -/
def rem (x y : Binary64) : Binary64 :=
  if x.isNaN || y.isNaN || !x.isFinite || y.isZero then nan false
  else if !y.isFinite then x
  else
    let (m, qx) := x.decompose
    let (n, qy) := y.decompose
    let q := min qx qy
    let r := (m * twoTo (qx - q).toNat) % (n * twoTo (qy - q).toNat)
    nearest x.isNegative (r * twoTo q.toNat) (twoTo (-q).toNat)

end AccessControl.Binary64
