/-! # Names by name

An index leads from a name to the set of names that are linked with it. Names without any link have
no entry.
-/

/-! ## Sorted sets of names

A set of names is a list in ascending order without repetition, so that two sets with the same
members are the same list.
-/

namespace AccessControl

/-- A set of names, in ascending order. -/
abbrev NameSet := List String

namespace NameSet

/-- Put a name at its place, unless it is there. -/
def insert (name : String) : NameSet → NameSet
  | [] => [name]
  | other :: rest =>
    if name = other then other :: rest
    else if name < other then name :: other :: rest
    else other :: insert name rest

def ofList (names : List String) : NameSet := names.foldl (fun set name => insert name set) []

end NameSet

/-! ## Sets by name -/

/-- Sets of linked names by name. -/
abbrev NameIndex := List (String × NameSet)

namespace NameIndex

def linked (index : NameIndex) (name : String) : NameSet := (index.lookup name).getD []

def hasEntry (index : NameIndex) (name : String) : Bool := (index.lookup name).isSome

/-- Link a name with another. -/
def link (name other : String) : NameIndex → NameIndex
  | [] => [(name, [other])]
  | (key, set) :: rest =>
    if key = name then (key, NameSet.insert other set) :: rest
    else (key, set) :: link name other rest

/-- Undo a link; an entry that becomes empty goes. -/
def unlink (name other : String) : NameIndex → NameIndex
  | [] => []
  | (key, set) :: rest =>
    if key = name then
      match set.erase other with
      | [] => rest
      | remaining => (key, remaining) :: rest
    else (key, set) :: unlink name other rest

/-- The names linked with any entry that passes a test. -/
def linkedWhere (index : NameIndex) (test : String → Bool) : List String :=
  (index.filter fun entry => test entry.1).flatMap (·.2)

def size (index : NameIndex) : Nat :=
  index.foldr (fun entry n => entry.2.length + n) 0

end NameIndex

end AccessControl
