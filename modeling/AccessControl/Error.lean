import AccessControl.Matcher.Token
import AccessControl.Section
import AccessControl.Value.Basic

/-! # Errors

Every way in which an operation can fail, by its cause. `Error.message` gives the wording, and
nothing else does.
-/

namespace AccessControl

/-- Why a model definition, or the resolution of a matcher against it, is refused. -/
inductive ModelFault where
  | unsupportedEffect (expression : String)
  | unknownSection (key : String)
  | foreignKey (key sectionKey : String)
  | invalidKey (key : String)
  | invalidField (field key : String)
  | duplicateField (field key : String)
  | roleShape (key text : String)
  | missingSection (missing : Section)
  | shortGroupingRow (key : String) (row : List String)
  | undeclaredIdentifier (name : String)
  | outOfScope (base request policy : String)
  | undeclaredField (base field : String)
  | argumentCount (function : String) (expected actual : Nat)
  /-- A role check takes two names and, if `most` is 3, may take a domain. -/
  | roleArgumentCount (type : String) (most actual : Nat)

/-- What a parser expects where it meets a token that cannot stand there. -/
inductive Expectation where
  | endOfExpression
  | expression
  | fieldName
  | closeTuple
  | closeGroup
  | nextArgument

/-- Why a matcher text is no expression. -/
inductive SyntaxFault where
  | loneEquals
  | unexpectedCharacter (c : Char)
  | unterminatedString
  | invalidNumber (text : String)
  | unexpectedToken (expected : Expectation) (found : Token)
  | missingEnd

/-- Why an evaluation fails. -/
inductive EvaluationFault where
  | noRequestValue (position : Nat)
  | noPolicyValue (position : Nat)
  | attributeNotFound (name : String)
  | attributeOf (name : String) (kind : Kind)
  | negationOverflow
  | overflow (symbol : String)
  | divisionByZero
  | negatedNonBool (kind : Kind)
  | negatedNonNumber (kind : Kind)
  | nonBoolOperand (symbol : String) (kind : Kind)
  | notComparable (symbol : String) (left right : Kind)
  | comparedNaN
  | notCombinable (symbol : String) (left right : Kind)
  | notAContainer (kind : Kind)
  | ruleNotText (kind : Kind)
  | nestedRule
  | nonBoolResult (text : String) (kind : Kind)
  | nonTextArgument (function : String) (kind : Kind)
  | argumentCount (function : String) (expected actual : Nat)
  | invalidRegex
  | invalidGlob
  | notAnAddress (text : String)
  | notAnAddressBlock (text : String)
  /-- A failure that a registered function reports. -/
  | custom (text : String)

/-- The calls of a store of policy lines. -/
inductive StoreMethod where
  | loadPolicy
  | savePolicy
  | addPolicy
  | addPolicies
  | removePolicy
  | removePolicies
  | removeFilteredPolicy
  | updatePolicy
  | updatePolicies
  deriving DecidableEq

/-- Why a store of policy lines fails. -/
inductive StoreError where
  | notImplemented (method : StoreMethod)
  | io (text : String)
  | serialization
  | notStored (row : List String) (type : String)
  | other (text : String)
  deriving DecidableEq

/-- Why the arguments of a call are refused. -/
inductive ArgumentFault where
  | noRowsIn (refused : Section)
  | unpaired (old new : Nat)

/-- Everything that can go wrong. -/
inductive Error where
  | modelDefinition (fault : ModelFault)
  | arityMismatch (type : String) (expected actual : Nat)
  | matcherSyntax (offset : Nat) (fault : SyntaxFault)
  | undefinedFunction (name : String)
  | evaluation (fault : EvaluationFault)
  /-- The milliseconds for which a change waited in vain until nobody would read the state. -/
  | lockTimeout (waited : Nat)
  | policyTypeNotFound (searched : Section) (type : String)
  | store (error : StoreError)
  | cancelled
  | invalidArgument (fault : ArgumentFault)

namespace ModelFault

def message : ModelFault → String
  | .unsupportedEffect expression => "unsupported effect expression '" ++ expression ++ "'"
  | .unknownSection key => "unknown section '" ++ key ++ "'"
  | .foreignKey key sectionKey =>
    "key '" ++ key ++ "' does not belong to section '" ++ sectionKey ++ "'"
  | .invalidKey key => "invalid key '" ++ key ++ "'"
  | .invalidField field key => "invalid field name '" ++ field ++ "' in '" ++ key ++ "'"
  | .duplicateField field key => "duplicate field '" ++ field ++ "' in '" ++ key ++ "'"
  | .roleShape key text =>
    "role definition '" ++ key ++ "' must list at least two '_' fields, got '" ++ text ++ "'"
  | .missingSection missing => "model is missing the '" ++ missing.key ++ "' section"
  | .shortGroupingRow key row =>
    "grouping policy '" ++ key ++ "' needs at least two values, got " ++ Text.quoteList row
  | .undeclaredIdentifier name => "undeclared identifier '" ++ name ++ "' in matcher"
  | .outOfScope base request policy =>
    "matcher references '" ++ base ++ "', but only '" ++ request ++ "' and '" ++ policy ++
      "' are in scope"
  | .undeclaredField base field =>
    "matcher references undeclared field '" ++ base ++ "." ++ field ++ "'"
  | .argumentCount function expected actual =>
    "function '" ++ function ++ "' expects " ++ toString expected ++ " arguments, got " ++
      toString actual
  | .roleArgumentCount type most actual =>
    "function '" ++ type ++ "' expects 2 to " ++ toString most ++ " arguments, got " ++
      toString actual

end ModelFault

namespace Expectation

def describe : Expectation → String
  | .endOfExpression => "end of expression"
  | .expression => "expression"
  | .fieldName => "field name after '.'"
  | .closeTuple => "')' to close tuple"
  | .closeGroup => "')'"
  | .nextArgument => "',' or ')' in argument list"

end Expectation

namespace SyntaxFault

def message : SyntaxFault → String
  | .loneEquals => "expected '==', found '='"
  | .unexpectedCharacter c => "unexpected character '" ++ String.ofList [c] ++ "'"
  | .unterminatedString => "unterminated string literal"
  | .invalidNumber text => "invalid number '" ++ text ++ "'"
  | .unexpectedToken expected found =>
    "expected " ++ expected.describe ++ ", found " ++ found.describe
  | .missingEnd => "unexpected end of expression"

end SyntaxFault

namespace EvaluationFault

def message : EvaluationFault → String
  | .noRequestValue position => "request has no value at position " ++ toString position
  | .noPolicyValue position => "policy row has no value at position " ++ toString position
  | .attributeNotFound name => "attribute '" ++ name ++ "' not found"
  | .attributeOf name kind => "cannot access attribute '" ++ name ++ "' on a " ++ kind.name
  | .negationOverflow => "integer overflow"
  | .overflow symbol => "integer overflow in '" ++ symbol ++ "'"
  | .divisionByZero => "division by zero"
  | .negatedNonBool kind => "'!' expects bool, got " ++ kind.name
  | .negatedNonNumber kind => "'-' expects a number, got " ++ kind.name
  | .nonBoolOperand symbol kind => "'" ++ symbol ++ "' expects bool operands, got " ++ kind.name
  | .notComparable symbol left right =>
    "'" ++ symbol ++ "' cannot compare " ++ left.name ++ " with " ++ right.name
  | .comparedNaN => "cannot compare NaN"
  | .notCombinable symbol left right =>
    "'" ++ symbol ++ "' cannot combine " ++ left.name ++ " and " ++ right.name
  | .notAContainer kind => "'in' expects a tuple or map on the right, got " ++ kind.name
  | .ruleNotText kind => "eval() expects a string rule, got " ++ kind.name
  | .nestedRule => "a rule evaluated by eval() cannot call eval() itself"
  | .nonBoolResult text kind =>
    "matcher '" ++ text ++ "' produced a " ++ kind.name ++ ", expected bool"
  | .nonTextArgument function kind =>
    function ++ ": expected string arguments, got " ++ kind.name
  | .argumentCount function expected actual =>
    function ++ ": expected " ++ toString expected ++ " arguments, got " ++ toString actual
  | .invalidRegex => "regexMatch: invalid pattern"
  | .invalidGlob => "globMatch: invalid pattern"
  | .notAnAddress text => "ipMatch: argument 1 must be an IP address, got '" ++ text ++ "'"
  | .notAnAddressBlock text =>
    "ipMatch: argument 2 must be an IP address or CIDR, got '" ++ text ++ "'"
  | .custom text => text

end EvaluationFault

namespace StoreMethod

def name : StoreMethod → String
  | .loadPolicy => "load_policy"
  | .savePolicy => "save_policy"
  | .addPolicy => "add_policy"
  | .addPolicies => "add_policies"
  | .removePolicy => "remove_policy"
  | .removePolicies => "remove_policies"
  | .removeFilteredPolicy => "remove_filtered_policy"
  | .updatePolicy => "update_policy"
  | .updatePolicies => "update_policies"

end StoreMethod

namespace StoreError

def message : StoreError → String
  | .notImplemented method => "Operation not implemented by adapter: " ++ method.name
  | .io text => "IO error: " ++ text
  | .serialization => "Serialization error"
  | .notStored row type => "rule " ++ Text.quoteList row ++ " not stored under '" ++ type ++ "'"
  | .other text => text

end StoreError

namespace ArgumentFault

def message : ArgumentFault → String
  | .noRowsIn refused => "section '" ++ refused.key ++ "' does not hold policy rows"
  | .unpaired old new => toString old ++ " old rules but " ++ toString new ++ " new rules"

end ArgumentFault

/-- A wait as text: milliseconds below a second, seconds with the places they need above. -/
def durationText (milliseconds : Nat) : String :=
  if milliseconds = 0 then "0ns"
  else if milliseconds < 1000 then toString milliseconds ++ "ms"
  else
    let places := (Nat.toDigits 10 (1000 + milliseconds % 1000)).drop 1
    let shown := (places.reverse.dropWhile (· == '0')).reverse
    let fraction := if shown.isEmpty then "" else "." ++ String.ofList shown
    toString (milliseconds / 1000) ++ fraction ++ "s"

namespace Error

def message : Error → String
  | .modelDefinition fault => "Model definition error: " ++ fault.message
  | .arityMismatch type expected actual =>
    "Arity mismatch for '" ++ type ++ "': expected " ++ toString expected ++ " values, got " ++
      toString actual
  | .matcherSyntax offset fault =>
    "Matcher syntax error at offset " ++ toString offset ++ ": " ++ fault.message
  | .undefinedFunction name => "Undefined function: " ++ name
  | .evaluation fault => "Evaluation error: " ++ fault.message
  | .lockTimeout waited =>
    "Lock timeout after " ++ durationText waited ++ " while mutating policy state"
  | .policyTypeNotFound searched type =>
    "Policy type '" ++ type ++ "' not found in section '" ++ searched.key ++ "'"
  | .store error => "Adapter error: " ++ error.message
  | .cancelled => "Batch enforcement cancelled"
  | .invalidArgument fault => "Invalid argument: " ++ fault.message

/-- Whether the same call may succeed when it is repeated. -/
def isRetryable : Error → Bool
  | .lockTimeout _ => true
  | _ => false

end Error

end AccessControl
