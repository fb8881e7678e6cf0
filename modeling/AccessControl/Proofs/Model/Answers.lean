import AccessControl.Decision.Evaluate
import AccessControl.Enforcer.Roles
import AccessControl.Proofs.Model.InStep
import AccessControl.Proofs.Roles.Links

/-! # What answers depend on

Models whose types have the same fields, and the same rows in the same order, answer all questions
about rows alike. Once their links are in step with the rows by the same rules, they also answer those
about roles alike, and then requests are decided alike.
-/

namespace AccessControl

/-- What a table tells of itself: its type, its fields and its rows. -/
def RowTable.contents (table : RowTable) : String × List String × List Row :=
  (table.type, table.fields, table.rows)

namespace Model

/-- The same types are declared, with the same fields, and have the same rows in the same order. -/
def SameRows (model model' : Model) : Prop := ∀ s type,
  (model'.table? s type).map RowTable.contents = (model.table? s type).map RowTable.contents

/-- Two models answer all questions about rows and roles alike. -/
structure SameAnswers (model model' : Model) : Prop where
  rows : model'.rows = model.rows
  has : model'.has = model.has
  filtered : model'.filtered = model.filtered
  valuesAt : model'.valuesAt = model.valuesAt
  managers : ∀ type manager, model.manager? type = some manager →
    ∃ manager', model'.manager? type = some manager' ∧ manager.SameAnswers manager'
  hasLink : model'.hasLink = model.hasLink
  rolesOf : model'.rolesOf = model.rolesOf
  usersOf : model'.usersOf = model.usersOf
  domainsOf : model'.domainsOf = model.domainsOf
  implicitRolesOf : model'.implicitRolesOf = model.implicitRolesOf

variable {model model' : Model}

theorem manager?_eq_none_iff {type : String} :
    model.manager? type = none ↔ model.table? .role type = none := by
  unfold manager? table?
  rw [Option.map_eq_none_iff, Option.map_eq_none_iff]

namespace SameRows

theorem refl (model : Model) : model.SameRows model := fun _ _ => rfl

theorem of_tables (shapes : model.SameShapes model')
    (rows : ∀ s type table, model.table? s type = some table → ∃ table',
      model'.table? s type = some table' ∧ table.SameShape table' ∧ table'.rows = table.rows) :
    model.SameRows model' := by
  intro s type
  cases found : model.table? s type with
  | none =>
      have shape := shapes s type
      unfold shape? at shape
      rw [found, Option.map_none, Option.map_eq_none_iff] at shape
      rw [shape]
  | some table =>
      obtain ⟨table', found', ⟨type, fields⟩, same⟩ := rows s type table found
      rw [found', Option.map_some, Option.map_some, RowTable.contents, RowTable.contents, type,
        fields, same]

variable (same : model.SameRows model')
include same

theorem table {s : RowSection} {type : String} {table : RowTable}
    (found : model.table? s type = some table) : ∃ table', model'.table? s type = some table' ∧
      table.SameShape table' ∧ table'.rows = table.rows := by
  have contents := same s type
  rw [found, Option.map_some] at contents
  obtain ⟨table', found', equal⟩ := Option.map_eq_some_iff.mp contents
  obtain ⟨types, rest⟩ := Prod.mk.inj equal
  obtain ⟨fields, rows⟩ := Prod.mk.inj rest
  exact ⟨table', found', ⟨types, fields⟩, rows⟩

theorem table_none {s : RowSection} {type : String} (missing : model.table? s type = none) :
    model'.table? s type = none := by
  have contents := same s type
  rwa [missing, Option.map_none, Option.map_eq_none_iff] at contents

/-! ## Questions about rows -/

theorem tableOrNone (sec type : String) :
    (model'.tableOrNone sec type).map RowTable.contents =
      (model.tableOrNone sec type).map RowTable.contents := by
  have looked (model : Model) : model.tableOrNone sec type =
      (RowSection.ofKey sec).toOption.bind fun s => model.table? s type := by
    unfold Model.tableOrNone Model.table
    cases RowSection.ofKey sec with
    | error error => rfl
    | ok s =>
        simp only [Except.ok_bind, Except.toOption, Option.bind_some]
        cases model.table? s type <;> rfl
  rw [looked, looked]
  cases (RowSection.ofKey sec).toOption with
  | none => rfl
  | some s => exact same s type

theorem question {α : Type} (ask : String × List String × List Row → α) (sec type : String) :
    (model'.tableOrNone sec type).map (ask ∘ RowTable.contents) =
      (model.tableOrNone sec type).map (ask ∘ RowTable.contents) := by
  rw [← Option.map_map, ← Option.map_map, same.tableOrNone]

theorem rows : model'.rows = model.rows := by
  funext sec type
  exact congrArg (Option.getD · []) (same.question (·.2.2) sec type)

theorem filtered : model'.filtered = model.filtered := by
  funext sec type filter
  exact congrArg (Option.getD · []) (same.question (·.2.2.filter filter.picks) sec type)

theorem valuesAt : model'.valuesAt = model.valuesAt := by
  funext sec type position
  exact congrArg (Option.getD · []) (same.question
    (fun contents => (contents.2.2.filterMap fun row => row[position.toNat]?).eraseDups) sec type)

theorem has (h : model.WellFormed) (h' : model'.WellFormed) : model'.has = model.has := by
  -- a row is looked up among the members, which are the rows in no particular order
  have among {model : Model} (h : model.WellFormed) (sec type : String) (row : Row) :
      (model.tableOrNone sec type).map (·.has row) =
        (model.tableOrNone sec type).map
          ((fun contents : String × List String × List Row => contents.2.2.contains row) ∘
            RowTable.contents) := by
    refine Option.map_congr fun table found => ?_
    unfold Model.tableOrNone at found
    cases looked : model.table sec type with
    | error error => simp [looked, Except.toOption] at found
    | ok other =>
        rw [looked] at found
        obtain rfl := Option.some.inj found
        obtain ⟨s, _, declared⟩ := table_eq_ok_iff.mp looked
        rw [Bool.eq_iff_iff, (h.tables s type other declared).has_iff, Function.comp_apply,
          List.contains_iff_mem]
        rfl
  funext sec type row
  unfold Model.has
  rw [among h, among h', same.question]

/-! ## Requests -/

/-- With the same answers to role checks, the same requests and effects, requests are decided
    alike. -/
theorem evaluateWith (requests : model'.requests = model.requests)
    (effects : model'.effects = model.effects) (roles : RoleOracle) (context : Context)
    (matcher : Matcher) (request : List Value) :
    model'.evaluateWith roles context matcher request =
      model.evaluateWith roles context matcher request := by
  have looked (model : Model) : model.policy context.policyType =
      (model.table? .policy context.policyType).elim
        (.error (.policyTypeNotFound .policy context.policyType)) .ok := by
    unfold Model.policy Model.named table?
    cases model.policies.get? context.policyType <;> rfl
  unfold Model.evaluateWith Model.checkRequest Model.request Model.effect
  rw [requests, effects, looked, looked]
  cases found : model.table? .policy context.policyType with
  | none => rw [same.table_none found]
  | some table =>
      obtain ⟨table', found', ⟨types, fields⟩, rows⟩ := same.table found
      rw [found', Option.elim_some, Option.elim_some]
      obtain ⟨type, fields, rows, members⟩ := table
      obtain ⟨type', fields', rows', members'⟩ := table'
      simp only at types fields rows
      subst types fields rows
      rfl

/-! ## Questions about roles -/

variable {rules : String → RoleRules} (inStep : model.InStep rules) (inStep' : model'.InStep rules)
include inStep inStep'

theorem manager {type : String} {manager : RoleManager}
    (found : model.manager? type = some manager) : ∃ manager', model'.manager? type = some manager' ∧
      manager.SameAnswers manager' ∧ manager'.linkBound = manager.linkBound := by
  obtain ⟨⟨text, role⟩, declared, rfl⟩ := Option.map_eq_some_iff.mp found
  have known := role_eq_ok_iff.mpr ⟨text, declared⟩
  obtain ⟨table', found', _, rows⟩ := same.table (table?_role known)
  obtain ⟨role', known', rfl⟩ := role_of_table? found'
  obtain ⟨text', declared'⟩ := role_eq_ok_iff.mp known'
  obtain ⟨stepped, ruled⟩ := inStep type role known
  obtain ⟨stepped', ruled'⟩ := inStep' type role' known'
  refine ⟨role'.manager, ?_, stepped.sameAnswers_of_rows stepped' (ruled'.trans ruled.symm) rows⟩
  unfold manager?
  rw [declared', Option.map_some]

/-- What depends on the answers of a manager and the number of its links only is the same. -/
theorem roleQuestion {α : Type} {ask : RoleManager → α}
    (alike : ∀ manager manager' : RoleManager, manager.SameAnswers manager' →
      manager'.linkBound = manager.linkBound → ask manager' = ask manager) (type : String) :
    (model'.manager? type).map ask = (model.manager? type).map ask := by
  cases found : model.manager? type with
  | none => rw [manager?_eq_none_iff.mpr (same.table_none (manager?_eq_none_iff.mp found))]
  | some manager =>
      obtain ⟨manager', found', answers, bound⟩ := same.manager inStep inStep' found
      rw [found', Option.map_some, Option.map_some, alike manager manager' answers bound]

theorem hasLink : model'.hasLink = model.hasLink := by
  have looked (model : Model) (type name role : String) (domain : Option String) :
      model.hasLink type name role domain =
        ((model.manager? type).map (·.hasLink name role domain)).getD (name == role) := by
    unfold Model.hasLink
    cases model.manager? type <;> rfl
  funext type name role domain
  rw [looked, looked, same.roleQuestion inStep inStep' fun _ _ answers _ => by rw [answers.hasLink]]

theorem rolesOf : model'.rolesOf = model.rolesOf := by
  funext name domain
  exact congrArg (Option.getD · [])
    (same.roleQuestion inStep inStep' (fun _ _ answers _ => by rw [answers.getRoles]) plainRole)

theorem usersOf : model'.usersOf = model.usersOf := by
  funext role domain
  exact congrArg (Option.getD · [])
    (same.roleQuestion inStep inStep' (fun _ _ answers _ => by rw [answers.getUsers]) plainRole)

theorem domainsOf : model'.domainsOf = model.domainsOf := by
  funext name
  exact congrArg (Option.getD · [])
    (same.roleQuestion inStep inStep' (fun _ _ answers _ => by rw [answers.getDomains]) plainRole)

theorem implicitRolesOf : model'.implicitRolesOf = model.implicitRolesOf := by
  funext name domain
  unfold Model.implicitRolesOf
  rw [same.rolesOf inStep inStep',
    same.roleQuestion inStep inStep' (fun _ _ _ bound => bound) plainRole]

theorem sameAnswers (h : model.WellFormed) (h' : model'.WellFormed) : model.SameAnswers model' where
  rows := same.rows
  has := same.has h h'
  filtered := same.filtered
  valuesAt := same.valuesAt
  managers type manager found := by
    obtain ⟨manager', found', answers, _⟩ := same.manager inStep inStep' found
    exact ⟨manager', found', answers⟩
  hasLink := same.hasLink inStep inStep'
  rolesOf := same.rolesOf inStep inStep'
  usersOf := same.usersOf inStep inStep'
  domainsOf := same.domainsOf inStep inStep'
  implicitRolesOf := same.implicitRolesOf inStep inStep'

end SameRows

/-! ## Loading -/

theorem effects_load (model : Model) (lines : List PolicyLine) :
    (model.load lines).2.effects = model.effects :=
  load_induction (P := fun loaded => loaded.effects = model.effects) lines rfl
    fun _ s _ _ _ _ _ kept => by cases s <;> exact kept

theorem effects_modifyRoles (model : Model) (types : List String) (change : RoleType → RoleType) :
    (model.modifyRoles types change).effects = model.effects := by
  induction types generalizing model with
  | nil => rfl
  | cons type rest ih => exact ih _

theorem WellFormed.effects_buildLinks (h : model.WellFormed) :
    model.buildLinks.2.effects = model.effects := by
  rw [h.buildLinks]
  exact effects_modifyRoles model _ _

end Model

end AccessControl
