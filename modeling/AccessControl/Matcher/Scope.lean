import AccessControl.Matcher.Builtin

/-! # What a matcher can name

The fields of one request shape and one policy shape, the role types, and the functions.
-/

namespace AccessControl

/-- A function that is registered under a name. -/
structure CustomFunction where
  /-- Names the function in the record of calls. -/
  label : String
  run : List Value → Except Error Value

inductive Function where
  | builtin (f : Builtin)
  | custom (f : CustomFunction)

/-- Functions by name; the first entry of a name counts. -/
abbrev Functions := List (String × Function)

namespace Functions

def builtins : Functions := Builtin.all.map fun f => (f.name, .builtin f)

/-- Register a function, in place of any other of that name. -/
def register (functions : Functions) (name : String) (f : CustomFunction) : Functions :=
  (name, .custom f) :: functions.filter (·.1 != name)

end Functions

/-- What is visible to a matcher. -/
structure Scope where
  requestKey : String
  requestFields : List String
  policyKey : String
  policyFields : List String
  /-- Role types and the number of their fields. -/
  roleTypes : List (String × Nat) := []
  functions : Functions := Functions.builtins

namespace Scope

/-- The position of a field; of two fields with one name the later one is meant. -/
def positionOf? (fields : List String) (name : String) : Option Nat :=
  (fields.zipIdx.reverse.find? (·.1 == name)).map (·.2)

/-- Declare a role type, in place of any other of that name. -/
def withRoleType (scope : Scope) (type : String) (fieldCount : Nat) : Scope :=
  { scope with roleTypes := (type, fieldCount) :: scope.roleTypes.filter (·.1 != type) }

end Scope

end AccessControl
