import AccessControl.Matcher.Parse
import AccessControl.Matcher.Scope

/-! # Resolved expressions

In a resolved expression every field is a position, and every call goes to something that can be
called. Names and numbers of arguments are checked here, once, so that evaluation does not meet an
unknown name. A rule that is loaded as text during an evaluation is resolved in the same way, but
cannot load another one.
-/

namespace AccessControl

/-- What a call goes to. -/
inductive Callee where
  | builtin (f : Builtin)
  | custom (f : CustomFunction)
  /-- A role check in the graph of a role type. -/
  | role (type : String)
  /-- The evaluation of a rule that is given as text. -/
  | rule

inductive Node where
  | literal (value : Value)
  /-- The request value at a position, and the attributes to follow from it. -/
  | request (position : Nat) (path : List String)
  /-- The value of a policy row at a position, and the attributes to follow from it. -/
  | policy (position : Nat) (path : List String)
  | unary (op : UnaryOp) (operand : Node)
  | binary (op : BinaryOp) (left right : Node)
  | tuple (items : List Node)
  | call (callee : Callee) (args : List Node)

namespace Scope

/-- The name under which rules are evaluated from text. -/
def ruleFunction : String := "eval"

/-- The callee of a name. A role type comes before the evaluation of rules, and that before the
    registered functions. In a rule that was loaded itself, `nested` forbids to load another. -/
def callee (scope : Scope) (nested : Bool) (name : String) (argumentCount : Nat) :
    Except Error Callee :=
  match scope.roleTypes.lookup name with
  | some fieldCount =>
    let most := max 2 (min fieldCount 3)
    if argumentCount < 2 ∨ most < argumentCount then
      .error (.modelDefinition (.roleArgumentCount name most argumentCount))
    else .ok (.role name)
  | none =>
    if name = ruleFunction then
      if nested then .error (.evaluation .nestedRule)
      else if argumentCount = 1 then .ok .rule
      else .error (.modelDefinition (.argumentCount name 1 argumentCount))
    else
      match scope.functions.lookup name with
      | some (.builtin f) =>
        if argumentCount = f.arity then .ok (.builtin f)
        else .error (.modelDefinition (.argumentCount name f.arity argumentCount))
      | some (.custom f) => .ok (.custom f)
      | none => .error (.undefinedFunction name)

/-- The position of a field in one of the two shapes. -/
def field (base : String) (fields : List String) (name : String) : Except Error Nat :=
  match positionOf? fields name with
  | some position => .ok position
  | none => .error (.modelDefinition (.undeclaredField base name))

/-- Resolve a field reference. -/
def reference (scope : Scope) (base name : String) (path : List String) : Except Error Node :=
  if base = scope.requestKey then do
    let position ← field base scope.requestFields name
    .ok (.request position path)
  else if base = scope.policyKey then do
    let position ← field base scope.policyFields name
    .ok (.policy position path)
  else .error (.modelDefinition (.outOfScope base scope.requestKey scope.policyKey))

mutual

/-- Resolve an expression. Arguments are resolved before the name that is called. -/
def resolve (scope : Scope) (nested : Bool) : Expr → Except Error Node
  | .literal value => .ok (.literal value)
  | .identifier name _ => .error (.modelDefinition (.undeclaredIdentifier name))
  | .field base [] _ => .error (.modelDefinition (.undeclaredIdentifier base))
  | .field base (name :: path) _ => scope.reference base name path
  | .unary op operand => do
    let operand ← scope.resolve nested operand
    .ok (.unary op operand)
  | .binary op left right => do
    let left ← scope.resolve nested left
    let right ← scope.resolve nested right
    .ok (.binary op left right)
  | .tuple items => do
    let items ← scope.resolveAll nested items
    .ok (.tuple items)
  | .call name args _ => do
    let args ← scope.resolveAll nested args
    let callee ← scope.callee nested name args.length
    .ok (.call callee args)

def resolveAll (scope : Scope) (nested : Bool) : List Expr → Except Error (List Node)
  | [] => .ok []
  | e :: rest => do
    let e ← scope.resolve nested e
    let rest ← scope.resolveAll nested rest
    .ok (e :: rest)

end

end Scope

namespace Node

mutual

/-- Whether an expression can depend on the policy row. A rule that is given as text may. -/
def usesPolicy : Node → Bool
  | .literal _ => false
  | .request _ _ => false
  | .policy _ _ => true
  | .unary _ operand => operand.usesPolicy
  | .binary _ left right => left.usesPolicy || right.usesPolicy
  | .tuple items => anyUsesPolicy items
  | .call .rule _ => true
  | .call _ args => anyUsesPolicy args

def anyUsesPolicy : List Node → Bool
  | [] => false
  | node :: rest => node.usesPolicy || anyUsesPolicy rest

end

end Node

end AccessControl
