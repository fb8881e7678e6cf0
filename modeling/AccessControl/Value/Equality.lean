import AccessControl.Value.Basic

/-! # Equality of values

`same` compares values of one kind, floats numerically. `looselyEqual` is the equality of matchers:
it also compares numbers across kinds, and a number with a text that holds one; inside maps it is
`same` that compares.
-/

namespace AccessControl.Value

mutual

/-- Equality of values of one kind. -/
def same : Value → Value → Bool
  | .bool a, .bool b => a == b
  | .int a, .int b => a == b
  | .float a, .float b => a.equals b
  | .str a, .str b => a == b
  | .list a, .list b => sameItems a b
  | .map a, .map b => sameMembers a b
  | _, _ => false

def sameItems : List Value → List Value → Bool
  | [], [] => true
  | a :: as, b :: bs => a.same b && sameItems as bs
  | _, _ => false

def sameMembers : List (String × Value) → List (String × Value) → Bool
  | [], [] => true
  | (ka, a) :: as, (kb, b) :: bs => ka == kb && a.same b && sameMembers as bs
  | _, _ => false

end

/-- Numeric comparison of two values of which one at least is a number. -/
def numericallyEqual (a b : Value) : Bool :=
  match a.number?, b.number? with
  | some x, some y => (a.isNumeric || b.isNumeric) && x.equals y
  | _, _ => false

mutual

/-- The equality that matchers use. -/
def looselyEqual : Value → Value → Bool
  | .str a, .str b => a == b
  | .bool a, .bool b => a == b
  | .list a, .list b => looselyEqualItems a b
  | .map a, .map b => sameMembers a b
  | .int a, .int b => a == b
  | a, b => numericallyEqual a b

def looselyEqualItems : List Value → List Value → Bool
  | [], [] => true
  | a :: as, b :: bs => a.looselyEqual b && looselyEqualItems as bs
  | _, _ => false

end

end AccessControl.Value
