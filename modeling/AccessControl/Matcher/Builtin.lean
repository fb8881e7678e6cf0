import AccessControl.Pattern
import AccessControl.Value.Basic

/-! # Functions of the matcher language

Every matcher can call these functions without registering them. They take texts only. Those that
answer yes or no to two texts can also serve as predicates on the names of a role graph.
-/

namespace AccessControl

/-- A predicate that relates a queried name to a stored one, which may be a pattern. -/
abbrev NamePredicate := String → String → Bool

inductive Builtin where
  | keyMatch
  | keyGet
  | keyMatch2
  | keyGet2
  | keyMatch3
  | keyMatch4
  | keyMatch5
  | regexMatch
  | ipMatch
  | globMatch
  deriving DecidableEq

namespace Builtin

def all : List Builtin :=
  [.keyMatch, .keyGet, .keyMatch2, .keyGet2, .keyMatch3, .keyMatch4, .keyMatch5, .regexMatch,
    .ipMatch, .globMatch]

def name : Builtin → String
  | .keyMatch => "keyMatch"
  | .keyGet => "keyGet"
  | .keyMatch2 => "keyMatch2"
  | .keyGet2 => "keyGet2"
  | .keyMatch3 => "keyMatch3"
  | .keyMatch4 => "keyMatch4"
  | .keyMatch5 => "keyMatch5"
  | .regexMatch => "regexMatch"
  | .ipMatch => "ipMatch"
  | .globMatch => "globMatch"

def ofName? (name : String) : Option Builtin := all.find? (·.name == name)

def arity : Builtin → Nat
  | .keyGet2 => 3
  | _ => 2

/-- Apply a function to texts; a wrong number of them has no answer. -/
def onTexts? : Builtin → List String → Option (Except Error Value)
  | .keyMatch, [key, pattern] => some (.ok (.bool (Pattern.keyMatch key pattern)))
  | .keyGet, [key, pattern] => some (.ok (.str (Pattern.keyGet key pattern)))
  | .keyMatch2, [key, pattern] => some (.ok (.bool (Pattern.keyMatch2 key pattern)))
  | .keyGet2, [key, pattern, variableName] =>
    some (.ok (.str (Pattern.keyGet2 key pattern variableName)))
  | .keyMatch3, [key, pattern] => some (.ok (.bool (Pattern.keyMatch3 key pattern)))
  | .keyMatch4, [key, pattern] => some (.ok (.bool (Pattern.keyMatch4 key pattern)))
  | .keyMatch5, [key, pattern] => some (.ok (.bool (Pattern.keyMatch5 key pattern)))
  | .regexMatch, [key, pattern] => some ((Pattern.regexMatch key pattern).map .bool)
  | .ipMatch, [address, block] => some ((Pattern.ipMatch address block).map .bool)
  | .globMatch, [key, pattern] => some ((Pattern.globMatch key pattern).map .bool)
  | _, _ => none

def textArgument (f : Builtin) (arg : Value) : Except Error String :=
  match arg.text? with
  | some text => .ok text
  | none => .error (.evaluation (.nonTextArgument f.name arg.kind))

/-- Call a function. An argument that is no text is reported before a wrong number of arguments. -/
def call (f : Builtin) (args : List Value) : Except Error Value := do
  let texts ← args.mapM f.textArgument
  match f.onTexts? texts with
  | some result => result
  | none => .error (.evaluation (.argumentCount f.name f.arity texts.length))

/-- An answer, or no where there is none. -/
def orFalse : Except Error Bool → Bool
  | .ok answer => answer
  | .error _ => false

/-- The predicate on names that a function can serve as. -/
def namePredicate? : Builtin → Option NamePredicate
  | .keyMatch => some Pattern.keyMatch
  | .keyMatch2 => some Pattern.keyMatch2
  | .keyMatch3 => some Pattern.keyMatch3
  | .keyMatch4 => some Pattern.keyMatch4
  | .keyMatch5 => some Pattern.keyMatch5
  | .regexMatch => some fun key pattern => orFalse (Pattern.regexMatch key pattern)
  | .ipMatch => some fun address block => orFalse (Pattern.ipMatch address block)
  | .globMatch => some fun key pattern => orFalse (Pattern.globMatch key pattern)
  | .keyGet => none
  | .keyGet2 => none

end Builtin

end AccessControl
