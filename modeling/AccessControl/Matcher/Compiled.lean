import AccessControl.Matcher.Evaluate
import AccessControl.Memo

/-! # Matchers

A matcher is a text that has been resolved in a scope. It can be evaluated against any number of
requests and rows. The rules that rows supply as text are resolved in the same scope when they are
first needed, and remembered.
-/

namespace AccessControl

structure Matcher where
  text : String
  root : Node
  scope : Scope
  /-- Rules that have been resolved, by their text. -/
  rules : Memo String Node

namespace Matcher

/-- How many resolved rules a matcher remembers. -/
def ruleCapacity : Nat := 1024

/-- Resolve a text in a scope. -/
def compile (scope : Scope) (text : String) : Except Error Matcher := do
  let e ← Expr.parse text
  let root ← scope.resolve false e
  .ok { text, root, scope, rules := { capacity := ruleCapacity } }

/-- Whether the outcome can depend on the policy row. -/
def usesPolicy (matcher : Matcher) : Bool := matcher.root.usesPolicy

/-- Resolve a rule in the scope of a matcher. -/
def resolveRule (scope : Scope) (text : String) : Except Error Node := do
  let e ← Expr.parse text
  scope.resolve true e

/-- The resolved form of a rule, from memory if it is there. -/
def rule (matcher : Matcher) (text : String) : Except Error Node :=
  match matcher.rules.get? text with
  | some node => .ok node
  | none => resolveRule matcher.scope text

/-- Refuse to load a rule. -/
def refuseRule (_ : String) : Traced Value := Traced.ofExcept (.error (.evaluation .nestedRule))

/-- Evaluate a rule that is given as text. -/
def evaluateRule (matcher : Matcher) (env : Bindings) (text : String) : Traced Value := do
  Traced.note (.ruleLoaded text)
  let node ← matcher.rule text
  node.evaluate env refuseRule

/-- The boolean that a matcher must produce. -/
def asAnswer (text : String) : Value → Except Error Bool
  | .bool b => .ok b
  | other => .error (.evaluation (.nonBoolResult text other.kind))

def evaluate (matcher : Matcher) (env : Bindings) : Traced Bool := do
  let value ← matcher.root.evaluate env (matcher.evaluateRule env)
  asAnswer matcher.text value

/-- Remember the rules that an evaluation has loaded; a rule that cannot be resolved is not kept. -/
def remember (matcher : Matcher) (events : List Event) : Matcher :=
  events.foldl (fun matcher event =>
    match event with
    | .ruleLoaded text =>
      match matcher.rule text with
      | .ok node => { matcher with rules := matcher.rules.insert text node }
      | .error _ => matcher
    | _ => matcher) matcher

end Matcher

end AccessControl
