import AccessControl.Json.Reader
import AccessControl.Json.Writer
import AccessControl.Storage.Store

/-! # Stores in memory

A store that holds its lines in a list, in the order in which they came. It can be written as
structured data, and read back from it.
-/

namespace AccessControl

structure MemoryStore where
  lines : List PolicyLine := []
  deriving DecidableEq

namespace MemoryStore

/-- The rows of a type that a store holds. -/
def rowsOf (store : MemoryStore) (type : String) : List Row := PolicyLine.rowsOf type store.lines

/-- Add a line, unless it is there. -/
def add (store : MemoryStore) (type : String) (row : Row) : MemoryStore :=
  if store.lines.contains ⟨type, row⟩ then store else ⟨store.lines ++ [⟨type, row⟩]⟩

/-- Remove the first line with a type and row. -/
def remove (store : MemoryStore) (type : String) (row : Row) : MemoryStore :=
  ⟨store.lines.erase ⟨type, row⟩⟩

/-- Remove the lines of a type that a filter picks. -/
def removeFiltered (store : MemoryStore) (type : String) (filter : FieldFilter) : MemoryStore :=
  ⟨store.lines.filter fun line => !(line.type == type && filter.picks line.row)⟩

/-- The same, unless a test breaks off. -/
def removeFiltered? (store : MemoryStore) (type : String) (filter : FieldFilter) :
    Option MemoryStore :=
  filter.testing (store.rowsOf type) (store.removeFiltered type filter)

/-- Put a row in place of the first line with another one. -/
def update (store : MemoryStore) (type : String) (old new : Row) : Except StoreError MemoryStore :=
  if store.lines.contains ⟨type, old⟩ then
    .ok ⟨store.lines.replace ⟨type, old⟩ ⟨type, new⟩⟩
  else .error (.notStored old type)

/-- Put rows in place of others one after another, up to the first that is missing. -/
def updateAll (store : MemoryStore) (type : String) :
    List (Row × Row) → Except StoreError Unit × MemoryStore
  | [] => (.ok (), store)
  | (old, new) :: rest =>
    match store.update type old new with
    | .ok store => store.updateAll type rest
    | .error e => (.error e, store)

def follow (store : MemoryStore) (type : String) :
    RowChange → Except StoreError Unit × MemoryStore
  | .add row => (.ok (), store.add type row)
  | .addMany rows => (.ok (), rows.foldl (fun store row => store.add type row) store)
  | .remove row => (.ok (), store.remove type row)
  | .removeMany rows => (.ok (), rows.foldl (fun store row => store.remove type row) store)
  | .removeFiltered filter => (.ok (), store.removeFiltered type filter)
  | .update old new => store.updateAll type [(old, new)]
  | .updateMany old new => store.updateAll type (old.zip new)

/-- The same, unless a test breaks off. -/
def follow? (store : MemoryStore) (type : String) (change : RowChange) :
    Option (Except StoreError Unit × MemoryStore) :=
  change.testing (store.rowsOf type) (store.follow type change)

instance : PolicyStore MemoryStore where
  load store := .ok store.lines
  save _ lines := (.ok (), ⟨lines⟩)
  follow store _ type change := store.follow type change

/-! ## Structured data -/

/-- The key of the type of a line. -/
def typeKey : String := "ptype"

/-- The key of the row of a line. -/
def rowKey : String := "rule"

def lineToJson (line : PolicyLine) : Json :=
  .object [(typeKey, .string line.type), (rowKey, .ofTexts line.row)]

def toText (store : MemoryStore) : String := (Json.array (store.lines.map lineToJson)).compact

/-- The only member with a key. -/
def soleMember? (key : String) (members : List (String × Json)) : Option Json :=
  match members.filter (·.1 == key) with
  | [member] => some member.2
  | _ => none

/-- A line at the head of a text, as structured data. Of an object only the members of a line are
    read. -/
def readLine (text : List Char) : Option (Json × List Char) :=
  match text with
  | '\x7b' :: rest =>
    let member (key : String) : List Char → Option (Json × List Char) :=
      if key == typeKey || key == rowKey then Json.readValue Json.depthLimit else Json.pass
    (Json.readSequence (Json.readMember member) '\x7d' rest).map fun (members, rest) =>
      (.object members, rest)
  | text => Json.readValue Json.depthLimit text

/-- An array of lines at the head of a text. -/
def readLines (text : List Char) : Option (List Json × List Char) :=
  match text with
  | '[' :: rest => Json.readSequence readLine ']' rest
  | _ => none

/-- A line, from an object with its two members and possibly others, or from an array of its two
    parts. -/
def lineOfJson? : Json → Option PolicyLine
  | .object members => do
    let type ← (← soleMember? typeKey members).text?
    let row ← (← soleMember? rowKey members).texts?
    some ⟨type, row⟩
  | .array [type, row] => do
    let type ← type.text?
    let row ← row.texts?
    some ⟨type, row⟩
  | _ => none

/-- The store that a text describes. -/
def ofText (text : String) : Except StoreError MemoryStore :=
  match (Json.readAll readLines text).bind (·.mapM lineOfJson?) with
  | some lines => .ok ⟨lines⟩
  | none => .error .serialization

end MemoryStore

end AccessControl
