import AccessControl.Error

/-! # Attributes of values -/

namespace AccessControl.Value

/-- The attribute of a map with a name. -/
def attributeNamed (v : Value) (name : String) : Except Error Value :=
  match v with
  | .map members =>
    match lookup name members with
    | some found => .ok found
    | none => .error (.evaluation (.attributeNotFound name))
  | other => .error (.evaluation (.attributeOf name other.kind))

def follow (v : Value) : List String → Except Error Value
  | [] => .ok v
  | name :: path => do
    let inner ← v.attributeNamed name
    inner.follow path

end AccessControl.Value
