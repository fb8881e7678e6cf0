import AccessControl.Model.Basic
import AccessControl.Policy.Change

/-! # The rows of a model

Rows are addressed by the letter of their section and by their type. The operations are those of the
table of that type; all else in the model stays as it is, the links of role types included.
-/

namespace AccessControl.Model

def table (model : Model) (sec type : String) : Except Error RowTable := do
  let s ← RowSection.ofKey sec
  match model.table? s type with
  | some table => .ok table
  | none => .error (.policyTypeNotFound s.toSection type)

def change {α : Type} (model : Model) (sec type : String)
    (f : RowTable → Except Error (α × RowTable)) : Except Error (α × Model) := do
  let s ← RowSection.ofKey sec
  let table ← model.table sec type
  let (answer, table) ← f table
  .ok (answer, model.setTable s type table)

/-! ## Queries -/

/-- The table of a type, where one is declared. -/
def tableOrNone (model : Model) (sec type : String) : Option RowTable :=
  (model.table sec type).toOption

def has (model : Model) (sec type : String) (row : Row) : Bool :=
  ((model.tableOrNone sec type).map (·.has row)).getD false

def rows (model : Model) (sec type : String) : List Row :=
  ((model.tableOrNone sec type).map (·.rows)).getD []

def filtered (model : Model) (sec type : String) (filter : FieldFilter) : List Row :=
  ((model.tableOrNone sec type).map (·.filtered filter)).getD []

/-- The same, unless a test breaks off. -/
def filtered? (model : Model) (sec type : String) (filter : FieldFilter) : Option (List Row) :=
  filter.testing (model.rows sec type) (model.filtered sec type filter)

def valuesAt (model : Model) (sec type : String) (position : UInt64) : List String :=
  ((model.tableOrNone sec type).map (·.valuesAt position)).getD []

/-- Check that rows have the length that their type declares. -/
def checkArities (model : Model) (sec type : String) (rows : List Row) : Except Error Unit := do
  let table ← model.table sec type
  table.checkArities rows

/-! ## Changes -/

def add (model : Model) (sec type : String) (row : Row) : Except Error (Bool × Model) :=
  model.change sec type (·.add row)

def addMany (model : Model) (sec type : String) (rows : List Row) : Except Error (Bool × Model) :=
  model.change sec type (·.addMany rows)

def remove (model : Model) (sec type : String) (row : Row) : Except Error (Bool × Model) :=
  model.change sec type fun table => .ok (table.remove row)

def removeMany (model : Model) (sec type : String) (rows : List Row) :
    Except Error (Bool × Model) :=
  model.change sec type fun table => .ok (table.removeMany rows)

/-- Remove the rows that a filter picks, and tell which they were. -/
def removeFiltered (model : Model) (sec type : String) (filter : FieldFilter) :
    Except Error (List Row × Model) :=
  model.change sec type fun table => .ok (table.removeFiltered filter)

/-- The same, unless a test breaks off. -/
def removeFiltered? (model : Model) (sec type : String) (filter : FieldFilter) :
    Option (Except Error (List Row × Model)) :=
  filter.testing (model.rows sec type) (model.removeFiltered sec type filter)

def update (model : Model) (sec type : String) (old new : Row) : Except Error (Bool × Model) :=
  model.change sec type (·.update old new)

/-- Put rows in place of others. There must be as many new rows as old ones. -/
def updateMany (model : Model) (sec type : String) (old new : List Row) :
    Except Error (Bool × Model) :=
  if old.length = new.length then model.change sec type (·.updateMany old new)
  else .error (.invalidArgument (.unpaired old.length new.length))

/-- Remove all rows. Links stay. -/
def clear (model : Model) : Model :=
  { model with
    policies := model.policies.map fun (type, declared) =>
      (type, { declared with body := declared.body.clear })
    roles := model.roles.map fun (type, declared) =>
      (type, { declared with body := { declared.body with table := declared.body.table.clear } }) }

/-! ## Lines -/

def linesOf (table : RowTable) : List PolicyLine := table.rows.map fun row => ⟨table.type, row⟩

/-- All rows as lines: the policy types first, then the role types. -/
def lines (model : Model) : List PolicyLine :=
  (model.policies.map fun entry => linesOf entry.2.body).flatten ++
    (model.roles.map fun entry => linesOf entry.2.body.table).flatten

/-- Add the row of a line to its table. -/
def addLine (model : Model) (line : PolicyLine) : Except Error (Bool × Model) := do
  let s ← line.section
  model.add s.key line.type line.row

/-- Add the rows of lines one after another, up to the first that is refused, and tell how many were
    new. -/
def load (model : Model) : List PolicyLine → Except Error Nat × Model
  | [] => (.ok 0, model)
  | line :: rest =>
    match model.addLine line with
    | .error e => (.error e, model)
    | .ok (new, model) =>
      let (count, model) := model.load rest
      (count.map (· + if new then 1 else 0), model)

/-! ## Changes of a model -/

/-- Apply a change to the rows of a type, and tell what it has changed, if anything. -/
def apply (model : Model) (sec type : String) :
    RowChange → Except Error (Option RowDelta × Model)
  | .add row => (model.add sec type row).map (RowDelta.ifChanged { added := [row] })
  | .addMany rows => (model.addMany sec type rows).map (RowDelta.ifChanged { added := rows })
  | .remove row => (model.remove sec type row).map (RowDelta.ifChanged { removed := [row] })
  | .removeMany rows =>
    (model.removeMany sec type rows).map (RowDelta.ifChanged { removed := rows })
  | .removeFiltered filter =>
    (model.removeFiltered sec type filter).map fun (removed, model) =>
      RowDelta.ifChanged { removed } (!removed.isEmpty, model)
  | .update old new =>
    (model.update sec type old new).map (RowDelta.ifChanged { removed := [old], added := [new] })
  | .updateMany old new =>
    (model.updateMany sec type old new).map (RowDelta.ifChanged { removed := old, added := new })

end AccessControl.Model
