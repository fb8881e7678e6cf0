import AccessControl.Error
import AccessControl.Section

/-! # Policy rows

A row is a list of texts, one per declared field of its type. A filter picks the rows that have
given texts from some field on, where an empty text picks any. Positions of fields are 64-bit words:
to test a row breaks off, and with it the call that does so, where a position is no such word.
-/

namespace AccessControl

/-- The values of a policy, in the order of the declared fields. -/
abbrev Row := List String

/-- Wanted texts for the fields from an index on. -/
structure FieldFilter where
  /-- The field of the first text. -/
  start : UInt64
  values : List String

namespace FieldFilter

/-- Whether texts stand in a row, the first of them at a distance from the start. The first text that
    does not settles it, and empty ones are passed over. Yields nothing if the position of a text is
    no word. -/
def matchesFrom? (row : Row) (start : UInt64) : Nat → List String → Option Bool
  | _, [] => some true
  | offset, value :: rest =>
    if value.isEmpty then matchesFrom? row start (offset + 1) rest
    else if start.toNat + offset < UInt64.size then
      if row[start.toNat + offset]? == some value then matchesFrom? row start (offset + 1) rest
      else some false
    else none

/-- Test a row, unless that breaks off. -/
def picks? (filter : FieldFilter) (row : Row) : Option Bool :=
  matchesFrom? row filter.start 0 filter.values

/-- Whether the test of a row ends, and the row is picked. -/
def picks (filter : FieldFilter) (row : Row) : Bool := (filter.picks? row).getD false

theorem picks_singleton (start : UInt64) (value : String) (row : Row) :
    picks ⟨start, [value]⟩ row = (value.isEmpty || row[start.toNat]? == some value) := by
  have word : start.toNat < UInt64.size := start.toNat_lt
  simp only [picks, picks?, matchesFrom?, Nat.add_zero, word, if_true]
  cases value.isEmpty <;> cases row[start.toNat]? == some value <;> rfl

/-- What a call comes to that tests some rows. It yields nothing if one of the tests breaks off. -/
def testing {α : Type} (filter : FieldFilter) (rows : List Row) (result : α) : Option α :=
  if rows.all fun row => (filter.picks? row).isSome then some result else none

end FieldFilter

/-- The sections whose types hold rows. -/
inductive RowSection where
  | policy
  | role
  deriving DecidableEq

namespace RowSection

def toSection : RowSection → Section
  | .policy => .policy
  | .role => .role

def key (s : RowSection) : String := s.toSection.key

end RowSection

/-! ## Policy lines

A line is a row together with its type, the form in which rows are stored outside a model.
-/

/-- The section with a letter. -/
def Section.ofKey (key : String) : Except Error Section :=
  match Section.ofKey? key with
  | some s => .ok s
  | none => .error (.modelDefinition (.unknownSection key))

/-- The section with a letter, if its types hold rows. -/
def RowSection.ofKey (key : String) : Except Error RowSection := do
  match ← Section.ofKey key with
  | .policy => .ok .policy
  | .role => .ok .role
  | other => .error (.invalidArgument (.noRowsIn other))

/-- A row as it is stored outside, with the type it belongs to. -/
structure PolicyLine where
  type : String
  row : Row
  deriving DecidableEq

/-- The section that the first letter of the type names. -/
def PolicyLine.section (line : PolicyLine) : Except Error Section :=
  Section.ofKey (Section.letterOf line.type)

/-- The rows of a type among lines. -/
def PolicyLine.rowsOf (type : String) (lines : List PolicyLine) : List Row :=
  (lines.filter (·.type == type)).map (·.row)

end AccessControl
