import AccessControl.Value.Basic

/-! # Matcher expressions

The tree of a matcher text, with names as they are written.
-/

namespace AccessControl

inductive BinaryOp where
  | or
  | and
  | equal
  | notEqual
  | less
  | lessEqual
  | greater
  | greaterEqual
  | in
  | add
  | sub
  | mul
  | div
  | rem
  deriving DecidableEq

namespace BinaryOp

def symbol : BinaryOp → String
  | .or => "||"
  | .and => "&&"
  | .equal => "=="
  | .notEqual => "!="
  | .less => "<"
  | .lessEqual => "<="
  | .greater => ">"
  | .greaterEqual => ">="
  | .in => "in"
  | .add => "+"
  | .sub => "-"
  | .mul => "*"
  | .div => "/"
  | .rem => "%"

/-- How tightly an operator binds its operands. -/
def precedence : BinaryOp → Nat
  | .or => 1
  | .and => 2
  | .equal | .notEqual | .less | .lessEqual | .greater | .greaterEqual | .in => 3
  | .add | .sub => 4
  | .mul | .div | .rem => 5

end BinaryOp

inductive UnaryOp where
  | not
  | neg
  deriving DecidableEq

def UnaryOp.symbol : UnaryOp → String
  | .not => "!"
  | .neg => "-"

/-- A matcher expression. Offsets are byte offsets of the first name. -/
inductive Expr where
  | literal (value : Value)
  /-- A name without fields. -/
  | identifier (name : String) (offset : Nat)
  /-- A name with a field and attributes behind it. -/
  | field (base : String) (path : List String) (offset : Nat)
  | unary (op : UnaryOp) (operand : Expr)
  | binary (op : BinaryOp) (left right : Expr)
  | tuple (items : List Expr)
  | call (name : String) (args : List Expr) (offset : Nat)

end AccessControl
