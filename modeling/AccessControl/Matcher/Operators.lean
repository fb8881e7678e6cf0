import AccessControl.Error
import AccessControl.Matcher.Expr
import AccessControl.Number.Arithmetic
import AccessControl.Value.Equality

/-! # Operators on values

Two integers are added, subtracted, multiplied and reduced exactly, and a result that does not fit
is an error. Their quotient, and everything that involves a float, is a float. Texts are ordered by
their code points; all else that can be ordered is ordered as numbers.
-/

namespace AccessControl

namespace Value

/-- The integer of an exact result, if it fits. -/
def exactly (op : BinaryOp) (n : Int) : Except Error Value :=
  if intInRange n then .ok (.int (Int64.ofInt n)) else .error (.evaluation (.overflow op.symbol))

/-- An operand of a float operation; texts do not count as numbers here. -/
def operand? : Value → Option Binary64
  | .int n => some (Binary64.ofInt n.toInt)
  | .float x => some x
  | _ => none

/-- Both operands of a float operation. -/
def operands (op : BinaryOp) (left right : Value) : Except Error (Binary64 × Binary64) :=
  match left.operand?, right.operand? with
  | some x, some y => .ok (x, y)
  | _, _ => .error (.evaluation (.notCombinable op.symbol left.kind right.kind))

/-- A sum, difference or product: exact on two integers, else rounded. -/
def arithmetic (op : BinaryOp) (exact : Int → Int → Int)
    (rounded : Binary64 → Binary64 → Binary64) : Value → Value → Except Error Value
  | .int a, .int b => exactly op (exact a.toInt b.toInt)
  | left, right => do
    let (x, y) ← operands op left right
    .ok (.float (rounded x y))

/-- A sum, or the concatenation of the texts of two values of which one is a text. -/
def plus : Value → Value → Except Error Value
  | .str a, right => .ok (.str (a ++ right.plainText))
  | left, .str b => .ok (.str (left.plainText ++ b))
  | left, right => arithmetic .add (· + ·) Binary64.add left right

/-- A quotient, which is always a float. -/
def quotient (left right : Value) : Except Error Value := do
  let (x, y) ← operands .div left right
  if y.isZero then .error (.evaluation .divisionByZero) else .ok (.float (x.div y))

/-- A remainder with the sign of the left operand. That of two integers is exact, and fails where
    their quotient does not fit. -/
def remainder : Value → Value → Except Error Value
  | .int a, .int b =>
    if b = 0 then .error (.evaluation .divisionByZero)
    else if intInRange (a.toInt.tdiv b.toInt) then .ok (.int (Int64.ofInt (a.toInt.tmod b.toInt)))
    else .error (.evaluation (.overflow BinaryOp.rem.symbol))
  | left, right => do
    let (x, y) ← operands .rem left right
    if y.isZero then .error (.evaluation .divisionByZero) else .ok (.float (x.rem y))

def ordering (op : BinaryOp) : Value → Value → Except Error Ordering
  | .str a, .str b => .ok (compare a b)
  | left, right =>
    match left.number?, right.number? with
    | some x, some y =>
      match x.compare? y with
      | some o => .ok o
      | none => .error (.evaluation .comparedNaN)
    | _, _ => .error (.evaluation (.notComparable op.symbol left.kind right.kind))

/-- Whether the order of two values is an accepted one. -/
def compared (op : BinaryOp) (accepted : Ordering → Bool) (left right : Value) :
    Except Error Value := do
  let o ← ordering op left right
  .ok (.bool (accepted o))

/-- Whether a list has a loosely equal item, or a map a key that is the text of a value. -/
def containedIn (left : Value) : Value → Except Error Value
  | .list items => .ok (.bool (items.any left.looselyEqual))
  | .map members => .ok (.bool (lookup left.plainText members).isSome)
  | other => .error (.evaluation (.notAContainer other.kind))

/-- An operand of a logical operator. -/
def asCondition (symbol : String) : Value → Except Error Bool
  | .bool b => .ok b
  | other => .error (.evaluation (.nonBoolOperand symbol other.kind))

end Value

namespace UnaryOp

def apply : UnaryOp → Value → Except Error Value
  | .not, .bool b => .ok (.bool !b)
  | .not, other => .error (.evaluation (.negatedNonBool other.kind))
  | .neg, .int n =>
    if Value.intInRange (-n.toInt) then .ok (.int (Int64.ofInt (-n.toInt)))
    else .error (.evaluation .negationOverflow)
  | .neg, .float x => .ok (.float x.neg)
  | .neg, other => .error (.evaluation (.negatedNonNumber other.kind))

end UnaryOp

namespace BinaryOp

/-- Whether a left operand decides a logical operator, and how. -/
def decidedBy? : BinaryOp → Bool → Option Bool
  | .or, true => some true
  | .and, false => some false
  | _, _ => none

def isLogical : BinaryOp → Bool
  | .or => true
  | .and => true
  | _ => false

def apply (op : BinaryOp) (left right : Value) : Except Error Value :=
  match op with
  | .or => do
    let a ← left.asCondition op.symbol
    let b ← right.asCondition op.symbol
    .ok (.bool (a || b))
  | .and => do
    let a ← left.asCondition op.symbol
    let b ← right.asCondition op.symbol
    .ok (.bool (a && b))
  | .equal => .ok (.bool (left.looselyEqual right))
  | .notEqual => .ok (.bool !(left.looselyEqual right))
  | .less => Value.compared op (· == .lt) left right
  | .lessEqual => Value.compared op (· != .gt) left right
  | .greater => Value.compared op (· == .gt) left right
  | .greaterEqual => Value.compared op (· != .lt) left right
  | .in => left.containedIn right
  | .add => left.plus right
  | .sub => Value.arithmetic op (· - ·) Binary64.sub left right
  | .mul => Value.arithmetic op (· * ·) Binary64.mul left right
  | .div => left.quotient right
  | .rem => left.remainder right

end BinaryOp

end AccessControl
