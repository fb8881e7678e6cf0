import AccessControl.Model.Rows
import AccessControl.Model.Links
import AccessControl.Proofs.NameMap
import AccessControl.Proofs.Policy.Table

/-! # The tables of a model

Every operation of a model reaches its tables in one of a few ways: it puts one table in place of
another of its type, clears all of them, or leaves them alone. Hence the tables of a model that has
been built by these operations are well formed, and the rows of its role types all stand for links.
-/

namespace AccessControl

theorem RowSection.ofKey_key (s : RowSection) : RowSection.ofKey s.key = .ok s := by
  cases s <;> rfl

theorem Section.key_of_ofKey {key : String} {s : Section} (named : Section.ofKey key = .ok s) :
    s.key = key := by
  unfold Section.ofKey at named
  cases found : Section.ofKey? key with
  | none => simp [found] at named
  | some other =>
      rw [found] at named
      obtain rfl := Except.ok.inj named
      unfold Section.ofKey? at found
      exact eq_of_beq (List.find?_some (p := fun s : Section => s.key == key) found)

theorem RowSection.key_of_ofKey {key : String} {s : RowSection}
    (named : RowSection.ofKey key = .ok s) : s.key = key := by
  obtain ⟨s', named', settled⟩ := Except.bind_eq_ok_iff.mp named
  cases s' with
  | policy => exact Except.ok.inj settled ▸ Section.key_of_ofKey named'
  | role => exact Except.ok.inj settled ▸ Section.key_of_ofKey named'
  | request | effect | matcher => simp at settled

/-- Whether a change has as many new rows as old ones, where it pairs them. -/
def RowChange.paired : RowChange → Bool
  | .updateMany old new => old.length = new.length
  | _ => true

namespace Model

/-! ## Looking up -/

theorem role_eq_ok_iff {model : Model} {type : String} {role : RoleType} :
    model.role type = .ok role ↔ ∃ text, model.roles.get? type = some ⟨text, role⟩ := by
  unfold Model.role named
  cases found : model.roles.get? type with
  | none => simp
  | some declared =>
      obtain ⟨text, body⟩ := declared
      simp

theorem table?_role {model : Model} {type : String} {role : RoleType}
    (declared : model.role type = .ok role) : model.table? .role type = some role.table := by
  obtain ⟨text, found⟩ := role_eq_ok_iff.mp declared
  simp [table?, found]

theorem role_of_table? {model : Model} {type : String} {table : RowTable}
    (found : model.table? .role type = some table) :
    ∃ role, model.role type = .ok role ∧ role.table = table := by
  obtain ⟨⟨text, role⟩, declared, rfl⟩ := Option.map_eq_some_iff.mp found
  exact ⟨role, role_eq_ok_iff.mpr ⟨text, declared⟩, rfl⟩

theorem table?_setTable (model : Model) (s : RowSection) (type : String) (table : RowTable)
    (s' : RowSection) (type' : String) :
    (model.setTable s type table).table? s' type' =
      if s' = s ∧ type' = type then (model.table? s type).map fun _ => table
      else model.table? s' type' := by
  cases s <;> cases s' <;> simp only [setTable, table?, NameMap.get?_modify, reduceCtorEq,
    false_and, if_false, true_and]
  · split
    · cases model.policies.get? type <;> rfl
    · rfl
  · split
    · cases model.roles.get? type <;> rfl
    · rfl

theorem role_modifyRole (model : Model) (type : String) (change : RoleType → RoleType)
    (type' : String) :
    (model.modifyRole type change).role type' =
      if type' = type then (model.role type).map change else model.role type' := by
  simp only [Model.role, named, modifyRole, NameMap.get?_modify]
  by_cases here : type' = type
  · subst here
    rw [if_pos rfl, if_pos rfl]
    cases model.roles.get? type' <;> rfl
  · rw [if_neg here, if_neg here]

theorem role_modifyRole_self {model : Model} {type : String} {role : RoleType}
    (declared : model.role type = .ok role) (change : RoleType → RoleType) :
    (model.modifyRole type change).role type = .ok (change role) := by
  rw [role_modifyRole, if_pos rfl, declared]
  rfl

theorem modifyRole_modifyRole (model : Model) (type : String)
    (change change' : RoleType → RoleType) :
    (model.modifyRole type change).modifyRole type change' =
      model.modifyRole type (change' ∘ change) := by
  unfold modifyRole
  simp only [NameMap.modify_modify]
  rfl

theorem table?_modifyRole (model : Model) (type : String) {change : RoleType → RoleType}
    (same : ∀ role, model.role type = .ok role → (change role).table = role.table)
    (s : RowSection) (type' : String) :
    (model.modifyRole type change).table? s type' = model.table? s type' := by
  cases s with
  | policy => rfl
  | role =>
      simp only [table?, modifyRole, NameMap.get?_modify]
      split
      · rename_i here
        subst here
        cases found : model.roles.get? type' with
        | none => rfl
        | some declared => simp [same declared.body (role_eq_ok_iff.mpr ⟨declared.text, found⟩)]
      · rfl

theorem modifyRole_const {model : Model} {type : String} {role : RoleType}
    (declared : model.role type = .ok role) (change : RoleType → RoleType) :
    (model.modifyRole type fun _ => change role) = model.modifyRole type change := by
  obtain ⟨text, found⟩ := role_eq_ok_iff.mp declared
  unfold modifyRole
  congr 1
  refine NameMap.modify_congr fun entry here => ?_
  rw [found] at here
  obtain rfl := Option.some.inj here
  rfl

/-! ## Well-formed models -/

/-- What all operations of a model keep: its tables are well formed, and every grouping row stands
    for a link. -/
structure WellFormed (model : Model) : Prop where
  tables : ∀ s type table, model.table? s type = some table → table.WellFormed
  links : ∀ type table, model.table? .role type = some table → 2 ≤ table.arity

/-- The type and fields of a declared table. -/
def shape? (model : Model) (s : RowSection) (type : String) : Option (String × List String) :=
  (model.table? s type).map fun table => (table.type, table.fields)

/-- The same types are declared, with the same fields. -/
def SameShapes (model model' : Model) : Prop := ∀ s type, model'.shape? s type = model.shape? s type

theorem SameShapes.refl (model : Model) : SameShapes model model := fun _ _ => rfl

theorem SameShapes.trans {model model' model'' : Model} (h : SameShapes model model')
    (h' : SameShapes model' model'') : SameShapes model model'' :=
  fun s type => (h' s type).trans (h s type)

/-- The tables of two models are the same. -/
def SameTables (model model' : Model) : Prop := ∀ s type, model'.table? s type = model.table? s type

theorem SameTables.refl (model : Model) : SameTables model model := fun _ _ => rfl

theorem SameTables.trans {model model' model'' : Model} (h : SameTables model model')
    (h' : SameTables model' model'') : SameTables model model'' :=
  fun s type => (h' s type).trans (h s type)

theorem SameTables.shapes {model model' : Model} (h : SameTables model model') :
    SameShapes model model' :=
  fun s type => congrArg (Option.map _) (h s type)

theorem SameTables.wellFormed {model model' : Model} (h : SameTables model model')
    (well : model.WellFormed) : model'.WellFormed where
  tables s type table found := well.tables s type table (by rw [← h s type, found])
  links type table found := well.links type table (by rw [← h .role type, found])

/-! ## Changing one table -/

theorem shapes_setTable {model : Model} {s : RowSection} {type : String} {table table' : RowTable}
    (found : model.table? s type = some table) (shape : table.SameShape table') :
    SameShapes model (model.setTable s type table') := by
  intro s' type'
  unfold shape?
  rw [table?_setTable]
  split
  · rename_i here
    obtain ⟨rfl, rfl⟩ := here
    simp [found, shape.1, shape.2]
  · rfl

theorem WellFormed.setTable {model : Model} (h : model.WellFormed) {s : RowSection}
    {type : String} {table table' : RowTable} (found : model.table? s type = some table)
    (shape : table.SameShape table') (well : table'.WellFormed) :
    (model.setTable s type table').WellFormed where
  tables s' type' other found' := by
    rw [table?_setTable, found] at found'
    split at found'
    · exact Option.some.inj found' ▸ well
    · exact h.tables s' type' other found'
  links type' other found' := by
    rw [table?_setTable, found] at found'
    split at found'
    · rename_i here
      obtain ⟨rfl, rfl⟩ := here
      exact Option.some.inj found' ▸ shape.arity ▸ h.links type' table found
    · exact h.links type' other found'

theorem setTable_self {model : Model} {s : RowSection} {type : String} {table : RowTable}
    (found : model.table? s type = some table) : model.setTable s type table = model := by
  cases s with
  | policy =>
      obtain ⟨declared, here, rfl⟩ := Option.map_eq_some_iff.mp found
      unfold Model.setTable
      simp only
      rw [NameMap.modify_eq_self fun entry there => ?_]
      obtain rfl := Option.some.inj (here.symm.trans there)
      rfl
  | role =>
      obtain ⟨declared, here, rfl⟩ := Option.map_eq_some_iff.mp found
      unfold Model.setTable
      simp only
      rw [NameMap.modify_eq_self fun entry there => ?_]
      obtain rfl := Option.some.inj (here.symm.trans there)
      rfl

theorem setTable_setTable (model : Model) (s : RowSection) (type : String)
    (table table' : RowTable) :
    (model.setTable s type table).setTable s type table' = model.setTable s type table' := by
  cases s with
  | policy =>
      unfold setTable
      simp only [NameMap.modify_modify]
      rfl
  | role =>
      unfold setTable
      simp only [NameMap.modify_modify]
      rfl

theorem table_eq_ok_iff {model : Model} {sec type : String} {table : RowTable} :
    model.table sec type = .ok table ↔
      ∃ s, RowSection.ofKey sec = .ok s ∧ model.table? s type = some table := by
  unfold Model.table
  rw [Except.bind_eq_ok_iff]
  refine exists_congr fun s => and_congr_right fun _ => ?_
  cases model.table? s type <;> simp

/-- A change of a table puts another one in its place. -/
theorem change_eq_ok_iff {α : Type} {model model' : Model} {sec type : String}
    {f : RowTable → Except Error (α × RowTable)} {answer : α} :
    model.change sec type f = .ok (answer, model') ↔
      ∃ s table table', RowSection.ofKey sec = .ok s ∧ model.table? s type = some table ∧
        f table = .ok (answer, table') ∧ model.setTable s type table' = model' := by
  unfold Model.change
  simp only [Except.bind_eq_ok_iff, table_eq_ok_iff]
  constructor
  · rintro ⟨s, key, table, ⟨s', key', found⟩, ⟨answer', table'⟩, made, settled⟩
    obtain rfl := Except.ok.inj (key.symm.trans key')
    obtain ⟨rfl, rfl⟩ := Prod.mk.inj (Except.ok.inj settled)
    exact ⟨s, table, table', key, found, made, rfl⟩
  · rintro ⟨s, table, table', key, found, made, rfl⟩
    exact ⟨s, key, table, ⟨s, key, found⟩, (answer, table'), made, rfl⟩

theorem change_map {α β : Type} (model : Model) (sec type : String)
    (f : RowTable → Except Error (α × RowTable)) (g : α → β) :
    (model.change sec type f).map (fun outcome => (g outcome.1, outcome.2)) =
      model.change sec type fun table =>
        (f table).map fun outcome => (g outcome.1, outcome.2) := by
  unfold Model.change
  cases RowSection.ofKey sec with
  | error error => rfl
  | ok s =>
      simp only [Except.ok_bind]
      cases model.table sec type with
      | error error => rfl
      | ok table =>
          simp only [Except.ok_bind]
          cases f table <;> rfl

/-- A change of a model is a change of the table of its type. -/
theorem apply_eq {change : RowChange} (paired : change.paired = true) (model : Model)
    (sec type : String) : model.apply sec type change = model.change sec type (·.apply change) := by
  let claimed (delta : RowDelta) (changed : Bool) : Option RowDelta :=
    if changed then some delta else none
  cases change with
  | add row => exact change_map model sec type (·.add row) (claimed { added := [row] })
  | addMany rows => exact change_map model sec type (·.addMany rows) (claimed { added := rows })
  | remove row =>
      exact change_map model sec type (fun table => .ok (table.remove row))
        (claimed { removed := [row] })
  | removeMany rows =>
      exact change_map model sec type (fun table => .ok (table.removeMany rows))
        (claimed { removed := rows })
  | removeFiltered filter =>
      exact change_map model sec type (fun table => .ok (table.removeFiltered filter))
        fun removed => claimed { removed } (!removed.isEmpty)
  | update old new =>
      exact change_map model sec type (·.update old new)
        (claimed { removed := [old], added := [new] })
  | updateMany old new =>
      have lengths : old.length = new.length := of_decide_eq_true paired
      simp only [apply, updateMany, if_pos lengths]
      exact change_map model sec type (·.updateMany old new)
        (claimed { removed := old, added := new })

theorem paired_of_apply {model model' : Model} {sec type : String} {change : RowChange}
    {delta? : Option RowDelta} (made : model.apply sec type change = .ok (delta?, model')) :
    change.paired = true := by
  cases change with
  | updateMany old new =>
      simp only [apply, updateMany] at made
      split at made
      · exact decide_eq_true ‹_›
      · simp at made
  | add | addMany | remove | removeMany | removeFiltered | update => rfl

theorem key_of_apply {model model' : Model} {sec type : String} {change : RowChange}
    {delta? : Option RowDelta} (made : model.apply sec type change = .ok (delta?, model')) :
    ∃ s : RowSection, s.key = sec := by
  rw [apply_eq (paired_of_apply made)] at made
  obtain ⟨s, _, _, named, _⟩ := change_eq_ok_iff.mp made
  exact ⟨s, RowSection.key_of_ofKey named⟩

theorem apply_eq_ok {model model' : Model} {s : RowSection} {type : String} {change : RowChange}
    {delta? : Option RowDelta} (made : model.apply s.key type change = .ok (delta?, model')) :
    ∃ table table', model.table? s type = some table ∧
      table.apply change = .ok (delta?, table') ∧ model.setTable s type table' = model' := by
  rw [apply_eq (paired_of_apply made)] at made
  obtain ⟨s', table, table', key, found, outcome, placed⟩ := change_eq_ok_iff.mp made
  obtain rfl := Except.ok.inj (key.symm.trans s.ofKey_key)
  exact ⟨table, table', found, outcome, placed⟩

/-- What a successful change does to a well-formed model. -/
structure Changed (model : Model) (s : RowSection) (type : String) (delta? : Option RowDelta)
    (model' : Model) (table table' : RowTable) : Prop where
  found : model.table? s type = some table
  outcome : table.Outcome delta? table'
  placed : model.setTable s type table' = model'

theorem WellFormed.apply {model model' : Model} (h : model.WellFormed) {s : RowSection}
    {type : String} {change : RowChange} {delta? : Option RowDelta}
    (made : model.apply s.key type change = .ok (delta?, model')) :
    ∃ table table', Changed model s type delta? model' table table' := by
  obtain ⟨table, table', found, outcome, placed⟩ := apply_eq_ok made
  exact ⟨table, table', found, (h.tables s type table found).apply outcome, placed⟩

namespace Changed

variable {model model' : Model} {s : RowSection} {type : String} {delta? : Option RowDelta}
  {table table' : RowTable} (changed : Changed model s type delta? model' table table')
include changed

theorem shapes : SameShapes model model' :=
  changed.placed ▸ shapes_setTable changed.found changed.outcome.shape

theorem wellFormed (h : model.WellFormed) : model'.WellFormed :=
  changed.placed ▸ h.setTable changed.found changed.outcome.shape changed.outcome.well

theorem unchanged (none : delta? = none) : model' = model := by
  rw [← changed.placed, changed.outcome.unchanged none]
  exact setTable_self changed.found

theorem lengths {delta : RowDelta} (made : delta? = some delta) (h : model.WellFormed) :
    (∀ row ∈ delta.removed, row.length = table.arity) ∧
      ∀ row ∈ delta.added, row.length = table.arity := by
  have accounts := changed.outcome.accounts delta made
  constructor
  · intro row member
    exact (h.tables s type table changed.found).arity row (accounts.present row member)
  · intro row member
    rw [changed.outcome.well.arity row ((accounts.stored row).mpr (.inl member)),
      changed.outcome.shape.arity]

end Changed

/-! ## The rows of a type -/

variable {model model' : Model}

theorem rows_eq (model : Model) (s : RowSection) (type : String) :
    model.rows s.key type = ((model.table? s type).map (·.rows)).getD [] := by
  unfold rows tableOrNone table
  rw [s.ofKey_key, Except.ok_bind]
  cases model.table? s type <;> rfl

theorem rows_of_table? {s : RowSection} {type : String} {table : RowTable}
    (found : model.table? s type = some table) : model.rows s.key type = table.rows := by
  simp [rows_eq, found]

theorem rows_of_role {type : String} {role : RoleType} (declared : model.role type = .ok role) :
    model.rows "g" type = role.table.rows :=
  rows_of_table? (s := .role) (table?_role declared)

theorem SameTables.rows_key (same : model.SameTables model') (s : RowSection) (type : String) :
    model'.rows s.key type = model.rows s.key type := by
  rw [rows_eq, rows_eq, same s type]

theorem rows_setTable {s : RowSection} {type : String} {table : RowTable}
    (found : model.table? s type = some table) (table' : RowTable) (s' : RowSection)
    (type' : String) : (model.setTable s type table').rows s'.key type' =
      if s' = s ∧ type' = type then table'.rows else model.rows s'.key type' := by
  simp only [rows_eq, table?_setTable, found]
  split <;> rfl

end Model

end AccessControl
