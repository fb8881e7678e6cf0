import AccessControl.Matcher.Node
import AccessControl.Matcher.Operators
import AccessControl.Matcher.Traced
import AccessControl.Value.Attribute

/-! # Evaluation of resolved expressions

A resolved expression is evaluated against one request and one policy row. Operands and arguments
are evaluated from left to right. The right operand of a logical operator is left out where the left
one decides.
-/

namespace AccessControl

/-- Answers whether a name has a role of a type, possibly in a domain. -/
abbrev RoleOracle := String → String → String → Option String → Bool

/-- What an evaluation refers to. -/
structure Bindings where
  request : List Value
  row : List String
  roles : RoleOracle

namespace Bindings

def requestValue (env : Bindings) (position : Nat) : Except Error Value :=
  match env.request[position]? with
  | some value => .ok value
  | none => .error (.evaluation (.noRequestValue position))

def policyValue (env : Bindings) (position : Nat) : Except Error Value :=
  match env.row[position]? with
  | some text => .ok (.str text)
  | none => .error (.evaluation (.noPolicyValue position))

/-- Check a role. The first two arguments are names, the third is the domain. -/
def checkRole (env : Bindings) (type : String) (args : List Value) : Traced Value :=
  match args.map Value.plainText with
  | name :: role :: rest => do
    let answer := env.roles type name role rest.head?
    Traced.note (.roleChecked type name role rest.head? answer)
    return .bool answer
  | _ => Traced.ofExcept (.error (.modelDefinition (.roleArgumentCount type 3 args.length)))

end Bindings

/-- The text of a rule that is given as a value. -/
def Value.ruleText : List Value → Except Error String
  | [.str text] => .ok text
  | [other] => .error (.evaluation (.ruleNotText other.kind))
  | args => .error (.modelDefinition (.argumentCount Scope.ruleFunction 1 args.length))

namespace Node

mutual

/-- Evaluate an expression. Rules that are given as text are handed to `onRule`. -/
def evaluate (env : Bindings) (onRule : String → Traced Value) : Node → Traced Value
  | .literal value => return value
  | .request position path => Traced.ofExcept do
    let value ← env.requestValue position
    value.follow path
  | .policy position path => Traced.ofExcept do
    let value ← env.policyValue position
    value.follow path
  | .unary op operand => do
    let value ← operand.evaluate env onRule
    op.apply value
  | .binary op left right =>
    if op.isLogical then do
      let value ← left.evaluate env onRule
      let condition ← value.asCondition op.symbol
      match op.decidedBy? condition with
      | some answer => return .bool answer
      | none =>
        let value ← right.evaluate env onRule
        let condition ← value.asCondition op.symbol
        return .bool condition
    else do
      let left ← left.evaluate env onRule
      let right ← right.evaluate env onRule
      op.apply left right
  | .tuple items => do
    let values ← evaluateAll env onRule items
    return .list values
  | .call callee args => do
    let values ← evaluateAll env onRule args
    match callee with
    | .builtin f => f.call values
    | .custom f =>
      Traced.note (.called f.label values)
      f.run values
    | .role type => env.checkRole type values
    | .rule =>
      let text ← Value.ruleText values
      onRule text

def evaluateAll (env : Bindings) (onRule : String → Traced Value) :
    List Node → Traced (List Value)
  | [] => return []
  | node :: rest => do
    let value ← node.evaluate env onRule
    let values ← evaluateAll env onRule rest
    return value :: values

end

end Node

end AccessControl
