/-! # Maps in the order of their keys

A map from names is a list of entries with ascending keys, so that its entries can be listed in the
order of their names.
-/

namespace AccessControl

/-- Entries by name, in ascending order of the names. -/
abbrev NameMap (α : Type) := List (String × α)

namespace NameMap

variable {α : Type}

def get? (map : NameMap α) (name : String) : Option α := map.lookup name

/-- Put an entry at its place. A present name gets the new entry. -/
def insert (name : String) (entry : α) : List (String × α) → List (String × α)
  | [] => [(name, entry)]
  | (other, present) :: rest =>
    if name = other then (name, entry) :: rest
    else if name < other then (name, entry) :: (other, present) :: rest
    else (other, present) :: insert name entry rest

/-- Change the entry of a name, if there is one. -/
def modify : NameMap α → String → (α → α) → NameMap α
  | [], _, _ => []
  | (other, entry) :: rest, name, change =>
    if other = name then (other, change entry) :: rest
    else (other, entry) :: modify rest name change

end NameMap

end AccessControl
