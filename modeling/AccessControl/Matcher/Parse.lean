import AccessControl.Matcher.Expr
import AccessControl.Matcher.Scan

/-! # Tokens as expressions

The parser reads tokens one by one and keeps what is still open on a stack. Unary operators take the
operand next to them. A binary operator takes the operand on its left as soon as a token follows
that binds no tighter, so that operators of one precedence associate to the left.
-/

namespace AccessControl

namespace Token

def binaryOp? : Token → Option BinaryOp
  | .or => some .or
  | .and => some .and
  | .equal => some .equal
  | .notEqual => some .notEqual
  | .less => some .less
  | .lessEqual => some .lessEqual
  | .greater => some .greater
  | .greaterEqual => some .greaterEqual
  | .inWord => some .in
  | .plus => some .add
  | .minus => some .sub
  | .asterisk => some .mul
  | .slash => some .div
  | .percent => some .rem
  | _ => none

def literal? : Token → Option Value
  | .int n => some (.int n)
  | .float x => some (.float x)
  | .str text => some (.str text)
  | .trueWord => some (.bool true)
  | .falseWord => some (.bool false)
  | _ => none

def unaryOp? : Token → Option UnaryOp
  | .not => some .not
  | .minus => some .neg
  | _ => none

end Token

/-- A construct that waits for an operand. -/
inductive Pending where
  | unary (op : UnaryOp)
  | binary (left : Expr) (op : BinaryOp)
  /-- An opening parenthesis. -/
  | group
  /-- A tuple with its items so far, in reverse. -/
  | tuple (reversed : List Expr)
  /-- A call with its arguments so far, in reverse. -/
  | call (name : String) (offset : Nat) (reversed : List Expr)

namespace Pending

/-- What may follow a complete operand, according to the innermost open bracket. -/
def expectation : List Pending → Expectation
  | [] => .endOfExpression
  | .unary _ :: rest => expectation rest
  | .binary _ _ :: rest => expectation rest
  | .group :: _ => .closeGroup
  | .tuple _ :: _ => .closeTuple
  | .call _ _ _ :: _ => .nextArgument

/-- Hand a complete primary expression to the unary operators before it. -/
def applyUnary (e : Expr) : List Pending → Expr × List Pending
  | .unary op :: rest => applyUnary (.unary op e) rest
  | stack => (e, stack)

/-- Complete the binary operators that bind at least as tightly as `precedence`. -/
def applyBinary (precedence : Nat) (e : Expr) : List Pending → Expr × List Pending
  | .binary left op :: rest =>
    if precedence ≤ op.precedence then applyBinary precedence (.binary op left e) rest
    else (e, .binary left op :: rest)
  | stack => (e, stack)

end Pending

/-- Where the parser stands between two tokens. -/
inductive ParseState where
  /-- An operand must follow; right after an opening parenthesis it may close instead. -/
  | operand (opened : Bool) (stack : List Pending)
  /-- After a name and the fields behind it. -/
  | named (base : String) (path : List String) (offset : Nat) (stack : List Pending)
  /-- After a point behind a name. -/
  | point (base : String) (path : List String) (offset : Nat) (stack : List Pending)
  /-- After a complete operand. -/
  | complete (e : Expr) (stack : List Pending)
  | done (e : Expr)

namespace ParseState

def unexpected (expected : Expectation) (t : PlacedToken) : Except Error ParseState :=
  .error (.matcherSyntax t.offset (.unexpectedToken expected t.token))

def afterPrimary (e : Expr) (stack : List Pending) : ParseState :=
  let (e, stack) := Pending.applyUnary e stack
  .complete e stack

/-- Close the innermost open parenthesis without an operand. -/
def closeEmpty (t : PlacedToken) : List Pending → Except Error ParseState
  | .group :: rest => .ok (afterPrimary (.tuple []) rest)
  | .call name offset [] :: rest => .ok (afterPrimary (.call name [] offset) rest)
  | _ => unexpected .expression t

/-- A token where an operand must begin. -/
def beginOperand (opened : Bool) (stack : List Pending) (t : PlacedToken) :
    Except Error ParseState :=
  match t.token.literal?, t.token.unaryOp? with
  | some value, _ => .ok (afterPrimary (.literal value) stack)
  | none, some op => .ok (.operand false (.unary op :: stack))
  | none, none =>
    match t.token with
    | .identifier name => .ok (.named name [] t.offset stack)
    | .leftParen => .ok (.operand true (.group :: stack))
    | .rightParen => if opened then closeEmpty t stack else unexpected .expression t
    | _ => unexpected .expression t

/-- A comma or a closing parenthesis after an operand, or the end. All binary operators of the
    innermost bracket are complete by now. -/
def delimit (e : Expr) (stack : List Pending) (t : PlacedToken) : Except Error ParseState :=
  let refused := unexpected (Pending.expectation stack) t
  match t.token, stack with
  | .comma, .group :: rest => .ok (.operand false (.tuple [e] :: rest))
  | .comma, .tuple reversed :: rest => .ok (.operand false (.tuple (e :: reversed) :: rest))
  | .comma, .call name offset reversed :: rest =>
    .ok (.operand false (.call name offset (e :: reversed) :: rest))
  | .rightParen, .group :: rest => .ok (afterPrimary e rest)
  | .rightParen, .tuple reversed :: rest =>
    .ok (afterPrimary (.tuple (e :: reversed).reverse) rest)
  | .rightParen, .call name offset reversed :: rest =>
    .ok (afterPrimary (.call name (e :: reversed).reverse offset) rest)
  | .endMark, [] => .ok (.done e)
  | _, _ => refused

def afterOperand (e : Expr) (stack : List Pending) (t : PlacedToken) : Except Error ParseState :=
  match t.token.binaryOp? with
  | some op =>
    let (left, stack) := Pending.applyBinary op.precedence e stack
    .ok (.operand false (.binary left op :: stack))
  | none =>
    let (e, stack) := Pending.applyBinary 0 e stack
    delimit e stack t

/-- The expression of a name and the fields behind it. -/
def ofName (base : String) (path : List String) (offset : Nat) : Expr :=
  if path.isEmpty then .identifier base offset else .field base path offset

def step (s : ParseState) (t : PlacedToken) : Except Error ParseState :=
  match s with
  | .operand opened stack => beginOperand opened stack t
  | .named base path offset stack =>
    match t.token with
    | .dot => .ok (.point base path offset stack)
    | .leftParen =>
      if path.isEmpty then .ok (.operand true (.call base offset [] :: stack))
      else unexpected (Pending.expectation stack) t
    | _ =>
      let (e, stack) := Pending.applyUnary (ofName base path offset) stack
      afterOperand e stack t
  | .point base path offset stack =>
    match t.token with
    | .identifier field => .ok (.named base (path ++ [field]) offset stack)
    | _ => unexpected .fieldName t
  | .complete e stack => afterOperand e stack t
  | .done _ => unexpected .endOfExpression t

def run (s : ParseState) : List PlacedToken → Except Error Expr
  | [] =>
    match s with
    | .done e => .ok e
    | _ => .error (.matcherSyntax 0 .missingEnd)
  | t :: rest => do
    let next ← s.step t
    next.run rest

end ParseState

def Expr.parse (text : String) : Except Error Expr := do
  let tokens ← tokenize text
  (ParseState.operand false []).run tokens

end AccessControl
