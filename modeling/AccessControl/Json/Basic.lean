import AccessControl.Number.Binary64

/-! # Structured data

The data that stored policies and request attributes are exchanged in. Objects keep their members in
source order, repeated keys included; who reads an object decides what a repeated key means.
-/

namespace AccessControl

inductive Json where
  | null
  | bool (value : Bool)
  /-- A number without point or exponent, within 64 bits. -/
  | integer (value : Int)
  /-- Any other number. -/
  | real (value : Binary64)
  | string (text : String)
  | array (items : List Json)
  | object (members : List (String × Json))

namespace Json

def text? : Json → Option String
  | .string text => some text
  | _ => none

def items? : Json → Option (List Json)
  | .array items => some items
  | _ => none

/-- The first member with a key, if the datum is an object that has one. -/
def member? (key : String) : Json → Option Json
  | .object members => (members.find? (·.1 == key)).map (·.2)
  | _ => none

def texts? (j : Json) : Option (List String) := j.items?.bind (·.mapM text?)

def ofTexts (texts : List String) : Json := .array (texts.map .string)

end Json

end AccessControl
