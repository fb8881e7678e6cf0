import AccessControl.Proofs.Model.Prepared
import AccessControl.Proofs.Policy.Strict

/-! # The rows of a model in every state

A model that has been read from definitions goes through changes of rows, clearings and loadings of
lines, whether they succeed or not. In every state its tables hold no row twice, look rows up
correctly, and keep their rows complete and in order. No operation reads a row past its end.
-/

namespace AccessControl

/-- An operation on the rows of a model. -/
inductive RowOperation where
  | change (sec type : String) (change : RowChange)
  | clear
  | load (lines : List PolicyLine)

/-- What holds of a table in every state. -/
structure RowTable.Intact (table : RowTable) : Prop where
  nodup : table.rows.Nodup
  nodup_members : table.members.Nodup
  mem_members : ∀ row, row ∈ table.members ↔ row ∈ table.rows
  length : ∀ row ∈ table.rows, row.length = table.fields.length
  /-- No priority comes after one that stands behind it. -/
  ordered : ∀ position, table.priorityAt? = some position →
    table.rows.Pairwise fun row later =>
      comparePriority (priorityOf position row) (priorityOf position later) ≠ .gt
  /-- Where effects are declared, those of the rows come from their labels. -/
  label : ∀ position, table.effectAt? = some position → ∀ row ∈ table.rows,
    ∃ label, row[position]? = some label ∧ table.effectOf row = Effect.ofLabel (some label)

theorem RowTable.WellFormed.intact {table : RowTable} (h : table.WellFormed)
    (ordered : table.Ordered) : table.Intact where
  nodup := h.nodup
  nodup_members := h.members.nodup_iff.mpr h.nodup
  mem_members _ := h.members.mem_iff
  length := h.arity
  ordered position found :=
    (List.pairwise_map.mp (ordered position found)).imp fun ranked =>
      Ordering.isLE_iff_ne_gt.mp ranked
  label _ found _ member := h.effect_label found member

namespace Model

/-- What holds of the rows of a model in every state. -/
structure Intact (model : Model) : Prop where
  tables : ∀ s type table, model.table? s type = some table → table.Intact
  has : ∀ sec type row, model.has sec type row = true ↔ row ∈ model.rows sec type

/-- The model after an operation. One that is refused leaves it as it is, but for the lines that
    have been loaded before a bad one. -/
def step (model : Model) : RowOperation → Model
  | .change sec type change =>
    match model.apply sec type change with
    | .ok (_, model) => model
    | .error _ => model
  | .clear => model.clear
  | .load lines => (model.load lines).2

/-- The model after operations one after another. -/
def run (model : Model) (operations : List RowOperation) : Model := operations.foldl step model

/-! ## States that are reached -/

theorem Prepared.step {model : Model} (prepared : model.Prepared) (operation : RowOperation) :
    (model.step operation).Prepared := by
  cases operation with
  | change sec type change =>
      unfold Model.step
      simp only
      split
      · rename_i delta? model' made
        obtain ⟨s, rfl⟩ := key_of_apply made
        exact .apply prepared made
      · exact prepared
  | clear => exact prepared.clear
  | load lines => exact prepared.load lines

theorem Prepared.run {model : Model} (prepared : model.Prepared)
    (operations : List RowOperation) : (model.run operations).Prepared := by
  induction operations generalizing model with
  | nil => exact prepared
  | cons operation rest ih => exact ih (prepared.step operation)

/-- The tables of a model stand in the order of their priorities. -/
def Ordered (model : Model) : Prop :=
  ∀ s type table, model.table? s type = some table → table.Ordered

theorem SameTables.ordered {model model' : Model} (same : SameTables model model')
    (ordered : model.Ordered) : model'.Ordered :=
  fun s type table found => ordered s type table (by rw [← same s type, found])

theorem Ordered.setTable {model : Model} (ordered : model.Ordered) {s : RowSection} {type : String}
    {table table' : RowTable} (found : model.table? s type = some table)
    (changed : table'.Ordered) : (model.setTable s type table').Ordered := by
  intro s' type' other found'
  rw [table?_setTable, found] at found'
  split at found'
  · exact Option.some.inj found' ▸ changed
  · exact ordered s' type' other found'

theorem Prepared.ordered {model : Model} (prepared : model.Prepared) : model.Ordered := by
  induction prepared with
  | empty =>
      intro s type table found
      cases s <;> simp [Model.table?, NameMap.get?] at found
  | define _ defined ih =>
      rcases define_eq_ok defined with rfl | ⟨s, _, _, declared⟩
      · exact ih
      · intro s' type table found
        rcases table?_declare declared found with ⟨_, _, fields, rfl, _⟩ | before
        · exact RowTable.ordered_empty _ fields
        · exact ih s' type table before
  | apply _ made ih =>
      obtain ⟨table, table', found, changed, rfl⟩ := apply_eq_ok made
      exact ih.setTable found ((ih _ _ _ found).apply changed)
  | clear _ ih =>
      intro s type table found
      rw [table?_clear] at found
      obtain ⟨before, _, rfl⟩ := Option.map_eq_some_iff.mp found
      exact before.ordered_clear
  | load lines _ ih =>
      exact load_induction lines ih fun model s type table row found _ ordered =>
        ordered.setTable found ((ordered s type table found).insert row)
  | buildLinks _ ih => exact (tables_buildLinks _).ordered ih
  | changeLinks type change rows _ ih => exact (tables_changeLinks _ type change rows).ordered ih
  | setManager type manager _ ih => exact (tables_setManager _ type manager).ordered ih

theorem Prepared.intact {model : Model} (prepared : model.Prepared) : model.Intact where
  tables s type table found :=
    (prepared.wellFormed.tables s type table found).intact (prepared.ordered s type table found)
  has sec type row := by
    unfold Model.has Model.rows tableOrNone
    cases named : model.table sec type with
    | error error => simp [Except.toOption]
    | ok table =>
        obtain ⟨s, _, found⟩ := table_eq_ok_iff.mp named
        exact (prepared.wellFormed.tables s type table found).has_iff row

/-! ## Strict access

The operations with strict access to the tables, which stop where a row is read past its end.
-/

namespace Strict

def change (model : Model) (sec type : String) (change : RowChange) :
    Option (Except Error (Option RowDelta × Model)) :=
  match RowSection.ofKey sec with
  | .error error => some (.error error)
  | .ok s =>
    match model.table? s type with
    | none => some (.error (.policyTypeNotFound s.toSection type))
    | some table => (RowTable.Strict.apply table change).map fun outcome =>
      outcome.map fun (delta?, table) => (delta?, model.setTable s type table)

/-- Apply a change. What pairs rows is refused at once where there are more of one kind. -/
def apply (model : Model) (sec type : String) (change : RowChange) :
    Option (Except Error (Option RowDelta × Model)) :=
  if change.paired then Strict.change model sec type change
  else some (model.apply sec type change)

def load (model : Model) : List PolicyLine → Option (Except Error Nat × Model)
  | [] => some (.ok 0, model)
  | line :: rest =>
    match line.section with
    | .error error => some (.error error, model)
    | .ok s =>
      match Strict.apply model s.key line.type (.add line.row) with
      | none => none
      | some (.error error) => some (.error error, model)
      | some (.ok (delta?, model)) =>
        (load model rest).map fun (count, model) =>
          (count.map (· + if delta?.isSome then 1 else 0), model)

def step (model : Model) : RowOperation → Option Model
  | .change sec type change =>
    (Strict.apply model sec type change).map fun
      | .ok (_, model) => model
      | .error _ => model
  | .clear => some model.clear
  | .load lines => (load model lines).map (·.2)

def run (model : Model) (operations : List RowOperation) : Option Model :=
  operations.foldlM step model

end Strict

theorem Prepared.strict_apply {model : Model} (prepared : model.Prepared) (sec type : String)
    (change : RowChange) : Strict.apply model sec type change = some (model.apply sec type change) := by
  unfold Strict.apply
  split
  · rename_i paired
    rw [apply_eq paired]
    unfold Strict.change Model.change Model.table
    cases RowSection.ofKey sec with
    | error error => rfl
    | ok s =>
        simp only [Except.ok_bind]
        cases found : model.table? s type with
        | none => rfl
        | some table =>
            simp only [Except.ok_bind]
            rw [RowTable.Strict.apply_eq (prepared.wellFormed.tables s type table found)
              (prepared.ordered s type table found)]
            cases table.apply change <;> rfl
  · rfl

/-- To add a line is a change like any other. -/
theorem addLine_eq (model : Model) {line : PolicyLine} {s : Section} (named : line.section = .ok s) :
    model.addLine line =
      (model.apply s.key line.type (.add line.row)).map fun outcome =>
        (outcome.1.isSome, outcome.2) := by
  unfold addLine Model.apply
  rw [named]
  simp only [Except.ok_bind]
  cases model.add s.key line.type line.row with
  | error error => rfl
  | ok outcome =>
      obtain ⟨new, model'⟩ := outcome
      cases new <;> rfl

theorem Prepared.strict_load {model : Model} (prepared : model.Prepared)
    (lines : List PolicyLine) : Strict.load model lines = some (model.load lines) := by
  induction lines generalizing model with
  | nil => rfl
  | cons line rest ih =>
      unfold Strict.load Model.load
      cases named : line.section with
      | error error =>
          unfold addLine
          rw [named]
          rfl
      | ok s =>
          simp only
          rw [prepared.strict_apply, addLine_eq model named]
          cases made : model.apply s.key line.type (.add line.row) with
          | error error => rfl
          | ok outcome =>
              obtain ⟨delta?, model'⟩ := outcome
              obtain ⟨s', key⟩ := key_of_apply made
              have loaded := ih (.apply prepared (key ▸ made))
              simp only [Except.ok_map]
              rw [loaded]
              rfl

/-- Strict access never stops an operation. -/
theorem Prepared.strict_step {model : Model} (prepared : model.Prepared)
    (operation : RowOperation) : Strict.step model operation = some (model.step operation) := by
  cases operation with
  | change sec type change =>
      unfold Strict.step Model.step
      simp only
      rw [prepared.strict_apply]
      rfl
  | clear => rfl
  | load lines =>
      unfold Strict.step
      simp only
      rw [prepared.strict_load]
      rfl

theorem Prepared.strict_run {model : Model} (prepared : model.Prepared)
    (operations : List RowOperation) : Strict.run model operations = some (model.run operations) := by
  induction operations generalizing model with
  | nil => rfl
  | cons operation rest ih =>
      unfold Strict.run
      rw [List.foldlM_cons, prepared.strict_step]
      exact ih (prepared.step operation)

/-- In every state that a model reaches from its definitions its rows are intact, and no operation
    has read a row past its end. -/
theorem run_ofDefinitions_intact {definitions : List (String × String × String)} {model : Model}
    (read : ofDefinitions definitions = .ok model) (operations : List RowOperation) :
    (model.run operations).Intact ∧ Strict.run model operations = some (model.run operations) :=
  have prepared := Prepared.ofDefinitions read
  ⟨(prepared.run operations).intact, prepared.strict_run operations⟩

/-- Definitions of a model whose rows have priorities and labels. -/
def rankedDefinitions : List (String × String × String) :=
  [("r", "r", "sub"), ("p", "p", "sub, priority, eft"), ("g", "g", "_, _"),
    ("e", "e", EffectKind.priority.expression), ("m", "m", "r.sub == p.sub")]

def ranked : Model := (ofDefinitions rankedDefinitions).toOption.getD {}

theorem ofDefinitions_ranked : ofDefinitions rankedDefinitions = .ok ranked := by
  have reads : (ofDefinitions rankedDefinitions).isOk = true := by decide +kernel
  unfold ranked
  cases read : ofDefinitions rankedDefinitions with
  | error error => simp [read, Except.isOk, Except.toBool] at reads
  | ok model => rfl

/-- Rows come in any order, one comes too short, and one gets another priority. -/
def ranking : List RowOperation :=
  [.load [⟨"p", ["alice", "10", "allow"]⟩, ⟨"p", ["bob", "none", "deny"]⟩, ⟨"g", ["alice", "staff"]⟩],
    .change "p" "p" (.add ["carol", "9.5", "deny"]), .change "p" "p" (.add ["dave"]),
    .change "p" "p" (.update ["bob", "none", "deny"] ["bob", "-1", "deny"])]

theorem run_ofDefinitions_intact_ranked :
    ofDefinitions rankedDefinitions = .ok ranked ∧
      (ranked.run ranking).rows "p" "p" =
        [["bob", "-1", "deny"], ["carol", "9.5", "deny"], ["alice", "10", "allow"]] ∧
      (ranked.run ranking).Intact ∧ Strict.run ranked ranking = some (ranked.run ranking) :=
  ⟨ofDefinitions_ranked, by decide +kernel,
    run_ofDefinitions_intact ofDefinitions_ranked ranking⟩

end Model

end AccessControl
