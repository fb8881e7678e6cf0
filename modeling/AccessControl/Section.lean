/-! # Sections of a model

A model has five sections: request shapes, policy shapes, role types, effects and matchers. A type
such as `p2` belongs to the section its first letter names.
-/

namespace AccessControl

inductive Section where
  | request
  | policy
  | role
  | effect
  | matcher
  deriving DecidableEq

namespace Section

def key : Section → String
  | .request => "r"
  | .policy => "p"
  | .role => "g"
  | .effect => "e"
  | .matcher => "m"

def all : List Section := [.request, .policy, .role, .effect, .matcher]

def ofKey? (key : String) : Option Section := all.find? (·.key == key)

/-- The first letter of a type, where that is a single byte; otherwise nothing. -/
def letterOf (type : String) : String :=
  match type.toList with
  | [] => ""
  | c :: _ => if c.utf8Size = 1 then String.ofList [c] else ""

end Section

end AccessControl
