/-! # Binary floating-point numbers by their bits

A `Binary64` is a 64-bit pattern: sign, eleven bits of exponent, fifty-two bits of fraction.
Comparison goes through `rank`, the signed position of a pattern on the number line, so that
equality and order are those of the integers; both zeros stand at position 0, and a NaN compares
with nothing. Rounding of exact quotients is `nearest`, in natural numbers throughout.
-/

/-! ## Powers of two and ten

The scales of binary and decimal numbers.
-/

namespace AccessControl

def twoTo (exponent : Nat) : Nat := Nat.pow 2 exponent

def tenTo (exponent : Nat) : Nat := Nat.pow 10 exponent

/-! ## Bits -/

/-- A double-precision number, by its bit pattern. -/
structure Binary64 where
  /-- Sign, exponent and fraction, from the highest bit down. -/
  bits : UInt64
  deriving DecidableEq

namespace Binary64

/-- The bits of positive infinity; every larger magnitude is a NaN. -/
def infinityMagnitude : Nat := 0x7FF0000000000000

/-- The weight of the sign bit. -/
def signWeight : Nat := 0x8000000000000000

/-- The pattern without its sign bit; it grows with the absolute value. -/
def magnitude (x : Binary64) : Nat := x.bits.toNat % signWeight

def isNegative (x : Binary64) : Bool := signWeight ≤ x.bits.toNat

def isNaN (x : Binary64) : Bool := infinityMagnitude < x.magnitude

def isFinite (x : Binary64) : Bool := x.magnitude < infinityMagnitude

def isZero (x : Binary64) : Bool := x.magnitude == 0

/-- The position of a number on the number line; the two zeros share position 0. -/
def rank (x : Binary64) : Int :=
  if x.isNegative then -(x.magnitude : Int) else x.magnitude

/-- A position for every pattern, which also parts the zeros and orders the NaNs outermost. -/
def totalRank (x : Binary64) : Int :=
  if x.isNegative then -(x.magnitude : Int) - 1 else x.magnitude

/-- Numeric comparison; a NaN on either side has no answer. -/
def compare? (x y : Binary64) : Option Ordering :=
  if x.isNaN || y.isNaN then none else some (compare x.rank y.rank)

/-- Numeric equality: a NaN equals nothing, and the zeros equal each other. -/
def equals (x y : Binary64) : Bool :=
  !x.isNaN && !y.isNaN && x.rank == y.rank

/-- Order of all patterns, with the negative zero below the positive one. -/
def totalCompare (x y : Binary64) : Ordering := compare x.totalRank y.totalRank

/-- Put a sign on a pattern given by its magnitude. -/
def ofMagnitude (negative : Bool) (magnitude : Nat) : Binary64 :=
  ⟨UInt64.ofNat (if negative then signWeight + magnitude else magnitude)⟩

def zero : Binary64 := ofMagnitude false 0

def infinity (negative : Bool) : Binary64 := ofMagnitude negative infinityMagnitude

def nan (negative : Bool) : Binary64 := ofMagnitude negative 0x7FF8000000000000

/-- Flip the sign bit, of zeros and NaNs too. -/
def neg (x : Binary64) : Binary64 := ofMagnitude (!x.isNegative) x.magnitude

/-- A finite magnitude as `m * 2 ^ q`, with `m` below `2 ^ 53` and `q` at least `-1074`. -/
def decompose (x : Binary64) : Nat × Int :=
  let exponent : Nat := x.magnitude / twoTo 52
  let fraction : Nat := x.magnitude % twoTo 52
  if exponent = 0 then (fraction, -1074) else (twoTo 52 + fraction, (exponent : Int) - 1075)

/-- The magnitude of `m * 2 ^ q` for `m ≤ 2 ^ 53` and `q ≥ -1074`, where `m` reaches `2 ^ 52`
    unless `q` is `-1074`. Values beyond the largest finite one become infinity. -/
def composeMagnitude (m : Nat) (q : Int) : Nat :=
  if m < twoTo 52 then m
  else min infinityMagnitude ((q + 1075).toNat * twoTo 52 + (m - twoTo 52))

/-- The quotient rounded to the nearest natural number, halves to the even one. -/
def divideToEven (num den : Nat) : Nat :=
  let quotient := num / den
  let twice := 2 * (num % den)
  if twice < den then quotient
  else if den < twice then quotient + 1
  else quotient + quotient % 2

/-- The number nearest to `num / den`, halves to the even fraction. -/
def nearest (negative : Bool) (num den : Nat) : Binary64 :=
  if num = 0 then ofMagnitude negative 0
  else
    let estimate : Int := (num.log2 : Int) - (den.log2 : Int) - 53
    -- at the scale `estimate` the quotient lies between `2 ^ 52` and `2 ^ 54`
    let scaled (q : Int) : Nat × Nat := (num * twoTo (-q).toNat, den * twoTo q.toNat)
    let (wideNum, wideDen) := scaled estimate
    let normal := if twoTo 53 * wideDen ≤ wideNum then estimate + 1 else estimate
    let q := max normal (-1074)
    let (exactNum, exactDen) := scaled q
    ofMagnitude negative (composeMagnitude (divideToEven exactNum exactDen) q)

def ofInt (i : Int) : Binary64 := nearest (i < 0) i.natAbs 1

/-- The number nearest to `digits * 10 ^ exponent`. Exponents far outside the range of the format
    are answered without computing the power. -/
def ofDecimal (negative : Bool) (digits : Nat) (exponent : Int) : Binary64 :=
  if digits = 0 then ofMagnitude negative 0
  else
    let places : Int := (digits.log2 : Int) / 4 + exponent
    if 400 < places then infinity negative
    else if (digits.log2 : Int) + exponent < -400 then ofMagnitude negative 0
    else nearest negative (digits * tenTo exponent.toNat) (tenTo (-exponent).toNat)

end Binary64

end AccessControl
