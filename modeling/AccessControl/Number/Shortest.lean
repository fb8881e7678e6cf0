import AccessControl.Number.Binary64

/-! # The fewest digits that identify a number

A decimal identifies a binary number when it lies among the reals that round to it. `shortest`
tries one digit, two digits and so on, each time the two multiples of the power of ten around the
value, and takes the first that identifies the number; of two, the nearer one. All tests are exact
comparisons of natural numbers.
-/

namespace AccessControl

/-- The decimal `digits * 10 ^ exponent`. -/
structure Decimal where
  digits : Nat
  exponent : Int
  deriving DecidableEq

/-- Which of two equally near decimals is taken. -/
inductive HalfWay where
  | toEven
  | up
  deriving DecidableEq

namespace Decimal

/-- Compare `a * 10 ^ i` with `n * 2 ^ j`. -/
def compareScaled (a : Nat) (i : Int) (n : Nat) (j : Int) : Ordering :=
  compare (a * tenTo i.toNat * twoTo (-j).toNat) (n * twoTo j.toNat * tenTo (-i).toNat)

/-- Whether a decimal lies among the reals that round to the finite magnitude of `x`. The two ends
    of that interval belong to it when the last bit of `x` is zero. Below a power of two the gap is
    half as wide as above it. -/
def identifies (d : Decimal) (x : Binary64) : Bool :=
  let (m, q) := x.decompose
  let narrow := m == twoTo 52 && q > -1074
  let low := if narrow then 4 * m - 1 else 4 * m - 2
  let closed := m % 2 == 0
  let fromLow := compareScaled d.digits d.exponent low (q - 2)
  let fromHigh := compareScaled d.digits d.exponent (4 * m + 2) (q - 2)
  (fromLow == .gt || (closed && fromLow == .eq)) && (fromHigh == .lt || (closed && fromHigh == .eq))

/-- The least `k` with `m * 2 ^ q < 10 ^ k`, for a positive `m`. -/
def scaleOf (m : Nat) (q : Int) : Int :=
  let estimate := ((m.log2 : Int) + q) * 30103 / 100000
  let below (k : Int) : Bool := compareScaled 1 k m q == .gt
  if below estimate then estimate
  else if below (estimate + 1) then estimate + 1
  else estimate + 2

/-- Move the factors of ten of the digits into the exponent. -/
def strip (fuel : Nat) (d : Decimal) : Decimal :=
  match fuel with
  | 0 => d
  | fuel + 1 =>
    if d.digits % 10 = 0 then strip fuel ⟨d.digits / 10, d.exponent + 1⟩ else d

/-- The nearer of the two neighbours of `x` on the grid of `10 ^ exponent`, among those that
    identify it. -/
def onGrid (tie : HalfWay) (x : Binary64) (exponent : Int) : Option Decimal :=
  let (m, q) := x.decompose
  let num := m * twoTo q.toNat * tenTo (-exponent).toNat
  let den := twoTo (-q).toNat * tenTo exponent.toNat
  let below : Decimal := ⟨num / den, exponent⟩
  let above : Decimal := ⟨num / den + 1, exponent⟩
  match below.digits != 0 && below.identifies x, above.identifies x with
  | false, false => none
  | true, false => some below
  | false, true => some above
  | true, true =>
    match compare (2 * (num % den)) den with
    | .lt => some below
    | .gt => some above
    | .eq => if tie == .up || below.digits % 2 == 1 then some above else some below

/-- The shortest decimal that identifies the magnitude of a finite number. Seventeen digits always
    suffice; the exact value stands behind them. -/
def shortest (tie : HalfWay) (x : Binary64) : Decimal :=
  let (m, q) := x.decompose
  if m = 0 then ⟨0, 0⟩
  else
    let scale := scaleOf m q
    match (List.range 17).findSome? fun (n : Nat) => onGrid tie x (scale - (n + 1)) with
    | some d => strip 20 d
    | none => ⟨m * twoTo q.toNat * Nat.pow 5 (-q).toNat, min q 0⟩

end Decimal

end AccessControl
