import AccessControl.Effect
import AccessControl.Number.Literal
import AccessControl.Policy.Row
import AccessControl.Text.Classes

/-! # Tables of rows

A table holds the rows of one type, no row twice. A type with a priority field keeps its rows in the
order of their priorities, where a new row goes behind those of its rank; all other types keep them
in the order in which they came. A change of several rows is made as a whole or not at all.
-/

/-! ## Priorities

A priority is a text. Texts that hold a finite number come first, in the order of the numbers; all
others follow in the order of their code points.
-/

namespace AccessControl

/-- The finite number that a priority holds between blanks. -/
def priorityNumber? (text : String) : Option Binary64 :=
  (Binary64.ofText? (String.ofList (Text.trim text.toList))).filter (·.isFinite)

def comparePriority (a b : String) : Ordering :=
  match priorityNumber? a, priorityNumber? b with
  | some x, some y => x.totalCompare y
  | some _, none => .lt
  | none, some _ => .gt
  | none, none => compare a b

/-! ## The rows of one type -/

/-- The rows of one type. -/
structure RowTable where
  type : String
  fields : List String
  rows : List Row := []
  /-- The same rows in no particular order, to look up whether one is there. -/
  members : List Row := []

namespace RowTable

/-- The field whose texts order the rows. -/
def priorityField : String := "priority"

/-- The field whose texts are the labels of effects. -/
def effectField : String := "eft"

/-- The number of values of each row. -/
def arity (table : RowTable) : Nat := table.fields.length

def priorityAt? (table : RowTable) : Option Nat := table.fields.idxOf? priorityField

def effectAt? (table : RowTable) : Option Nat := table.fields.idxOf? effectField

/-- The effect of a row; where no label is declared, every row allows. -/
def effectOf (table : RowTable) (row : Row) : Effect :=
  Effect.ofLabel (table.effectAt?.bind fun position => row[position]?)

/-- Refuse a row with a wrong number of values. -/
def checkArity (table : RowTable) (row : Row) : Except Error Unit :=
  if row.length = table.arity then .ok ()
  else .error (.arityMismatch table.type table.arity row.length)

/-- Refuse rows of which one has a wrong number of values. -/
def checkArities (table : RowTable) : List Row → Except Error Unit
  | [] => .ok ()
  | row :: rest => do
    table.checkArity row
    table.checkArities rest

def has (table : RowTable) (row : Row) : Bool := table.members.contains row

/-- The priority of a row, given the position of the priority field. -/
def priorityOf (position : Nat) (row : Row) : String := row.getD position ""

/-- Put a row among others: behind the last one whose priority does not come after its own, or at
    the end where there are no priorities. -/
def place (table : RowTable) (row : Row) (rows : List Row) : List Row :=
  match table.priorityAt? with
  | none => rows ++ [row]
  | some position =>
    let before (other : Row) : Bool :=
      comparePriority (priorityOf position other) (priorityOf position row) != .gt
    rows.takeWhile before ++ row :: rows.dropWhile before

/-- Insert a row, and tell whether it is new. -/
def insert (table : RowTable) (row : Row) : Bool × RowTable :=
  if table.has row then (false, table)
  else
    (true, { table with
      rows := table.place row table.rows
      members := row :: table.members })

/-- Remove a row, and tell whether it was there. -/
def remove (table : RowTable) (row : Row) : Bool × RowTable :=
  if table.has row then
    (true, { table with rows := table.rows.erase row, members := table.members.erase row })
  else (false, table)

/-- Whether a change of a row leaves its place among the others open to question. -/
def movesIn (table : RowTable) (old new : Row) : Bool :=
  match table.priorityAt? with
  | none => false
  | some position => priorityOf position old != priorityOf position new

/-- Put a row in place of another. It moves only if its priority is another text. -/
def replace (table : RowTable) (old new : Row) : RowTable :=
  { table with
    rows :=
      if table.movesIn old new then table.place new (table.rows.erase old)
      else table.rows.replace old new
    members := new :: table.members.erase old }

/-- Insert rows one after another; those that are there already count for nothing. -/
def insertAll (table : RowTable) (rows : List Row) : RowTable :=
  rows.foldl (fun table row => (table.insert row).2) table

def removeAll (table : RowTable) (rows : List Row) : RowTable :=
  rows.foldl (fun table row => (table.remove row).2) table

/-- Insert a row of the right length, and tell whether it is new. -/
def add (table : RowTable) (row : Row) : Except Error (Bool × RowTable) := do
  table.checkArity row
  .ok (table.insert row)

/-- Whether rows are new and distinct from each other and from `seen`; the first row that is not,
    or that has a wrong length, settles it. -/
def allNew (table : RowTable) : List Row → List Row → Except Error Bool
  | _, [] => .ok true
  | seen, row :: rest => do
    table.checkArity row
    if table.has row || seen.contains row then .ok false else table.allNew (row :: seen) rest

/-- Insert rows if all of them are new, and tell whether they are. -/
def addMany (table : RowTable) (rows : List Row) : Except Error (Bool × RowTable) := do
  let new ← table.allNew [] rows
  .ok (if new then (true, table.insertAll rows) else (false, table))

/-- Remove rows if all of them are there, and tell whether they are. -/
def removeMany (table : RowTable) (rows : List Row) : Bool × RowTable :=
  if rows.all table.has then (true, table.removeAll rows) else (false, table)

/-- Put a row in place of another one, if that is there and the new one is not. -/
def update (table : RowTable) (old new : Row) : Except Error (Bool × RowTable) := do
  table.checkArity new
  .ok <|
    if !table.has old || (old != new && table.has new) then (false, table)
    else (true, table.replace old new)

/-- Whether old rows can make way for new ones: the old ones are there and distinct, the new ones
    are distinct, and each of them is absent or makes way itself. -/
def canUpdate (table : RowTable) (old new : List Row) : Bool :=
  old.Nodup && old.all table.has && new.Nodup &&
    new.all fun row => !table.has row || old.contains row

/-- Put rows in place of others, if all of them can be. All old rows go before the first new one
    comes. -/
def updateMany (table : RowTable) (old new : List Row) : Except Error (Bool × RowTable) := do
  table.checkArities new
  .ok <|
    if table.canUpdate old new then (true, (table.removeAll old).insertAll new)
    else (false, table)

def filtered (table : RowTable) (filter : FieldFilter) : List Row :=
  table.rows.filter filter.picks

/-- Remove the rows that a filter picks, and tell which they were. -/
def removeFiltered (table : RowTable) (filter : FieldFilter) : List Row × RowTable :=
  (table.filtered filter, { table with
    rows := table.rows.filter fun row => !filter.picks row
    members := table.members.filter fun row => !filter.picks row })

def clear (table : RowTable) : RowTable := { table with rows := [], members := [] }

/-- The distinct texts of one field, in the order of the rows. -/
def valuesAt (table : RowTable) (position : UInt64) : List String :=
  (table.rows.filterMap fun row => row[position.toNat]?).eraseDups

end RowTable

end AccessControl
