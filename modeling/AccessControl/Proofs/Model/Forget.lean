import AccessControl.Proofs.Model.Declarations
import AccessControl.Proofs.Model.Move
import AccessControl.Proofs.Roles.Forget

/-! # Models that have forgotten the answers to role checks

Whatever is done to a model that has forgotten its answers is what is done to the model itself: the
tables, errors and declarations are the same, and so are the role types but for what they remember.
-/

namespace AccessControl.Model

/-- Let all role managers forget their answers. -/
def forget (model : Model) : Model :=
  { model with roles := model.roles.map fun entry =>
      (entry.1, { entry.2 with body := entry.2.body.forget }) }

variable (model : Model)

/-! ## Looking up -/

@[simp]
theorem forget_forget : model.forget.forget = model.forget := by
  unfold forget
  simp

theorem table?_forget (s : RowSection) (type : String) :
    model.forget.table? s type = model.table? s type := by
  cases s with
  | policy => rfl
  | role =>
      have mapped := NameMap.get?_map (fun declared : Declared RoleType =>
        ({ declared with body := declared.body.forget } : Declared RoleType)) model.roles type
      simp only [table?, forget, mapped]
      cases model.roles.get? type <;> rfl

theorem role_forget (type : String) :
    model.forget.role type = (model.role type).map RoleType.forget := by
  have mapped := NameMap.get?_map (fun declared : Declared RoleType =>
    ({ declared with body := declared.body.forget } : Declared RoleType)) model.roles type
  simp only [Model.role, named, forget, mapped]
  cases model.roles.get? type <;> rfl

theorem types_forget : model.forget.types .role = model.types .role := by
  simp [types, forget]

theorem sameTables_forget : SameTables model model.forget :=
  fun s type => model.table?_forget s type

theorem WellFormed.forget {model : Model} (h : model.WellFormed) : model.forget.WellFormed :=
  model.sameTables_forget.wellFormed h

theorem wellFormed_forget {model : Model} : model.forget.WellFormed ↔ model.WellFormed := by
  refine ⟨fun h => SameTables.wellFormed (fun s type => ?_) h, WellFormed.forget⟩
  exact (model.table?_forget s type).symm

theorem lines_forget : model.forget.lines = model.lines := by
  simp only [lines, forget, List.map_map]
  rfl

theorem table_forget (sec type : String) : model.forget.table sec type = model.table sec type := by
  unfold Model.table
  simp only [table?_forget]

theorem checkLines_forget (lines : List PolicyLine) :
    model.forget.checkLines lines = model.checkLines lines := by
  induction lines with
  | nil => rfl
  | cons line rest ih => simp only [checkLines, checkArities, table_forget, ih]

theorem declarations_forget : SameDeclarations model model.forget := by
  refine ⟨rfl, rfl, rfl, ?_⟩
  simp only [roleArities, forget, List.map_map]
  rfl

/-! ## Changing rows -/

theorem forget_setTable (s : RowSection) (type : String) (table : RowTable) :
    model.forget.setTable s type table = (model.setTable s type table).forget := by
  cases s with
  | policy => rfl
  | role =>
      have traded := NameMap.modify_map (fun declared : Declared RoleType =>
          ({ declared with body := declared.body.forget } : Declared RoleType))
        (fun declared => { declared with body := { declared.body with table } })
        (fun declared => { declared with body := { declared.body with table } })
        (fun _ => rfl) model.roles type
      exact congrArg (fun roles => { model with roles }) traded

theorem forget_change {α : Type} (sec type : String)
    (f : RowTable → Except Error (α × RowTable)) :
    model.forget.change sec type f =
      (model.change sec type f).map fun outcome => (outcome.1, outcome.2.forget) := by
  unfold Model.change
  simp only [table_forget, forget_setTable]
  cases RowSection.ofKey sec with
  | error error => rfl
  | ok s =>
      simp only [Except.ok_bind]
      cases model.table sec type with
      | error error => rfl
      | ok table =>
          simp only [Except.ok_bind]
          cases f table <;> rfl

theorem forget_removeFiltered (sec type : String) (filter : FieldFilter) :
    model.forget.removeFiltered sec type filter =
      (model.removeFiltered sec type filter).map fun outcome => (outcome.1, outcome.2.forget) :=
  model.forget_change sec type _

/-- The same change is made, with the same answer or error. -/
theorem forget_apply (sec type : String) (change : RowChange) :
    model.forget.apply sec type change =
      (model.apply sec type change).map fun outcome => (outcome.1, outcome.2.forget) := by
  cases change with
  | updateMany old new =>
      simp only [apply, updateMany]
      split
      · rw [forget_change]
        cases model.change sec type (·.updateMany old new) <;> rfl
      · rfl
  | add row => 
      simp only [apply, add, forget_change]
      cases model.change sec type (·.add row) <;> rfl
  | addMany rows =>
      simp only [apply, addMany, forget_change]
      cases model.change sec type (·.addMany rows) <;> rfl
  | remove row =>
      simp only [apply, remove, forget_change]
      cases model.change sec type fun table => .ok (table.remove row) <;> rfl
  | removeMany rows =>
      simp only [apply, removeMany, forget_change]
      cases model.change sec type fun table => .ok (table.removeMany rows) <;> rfl
  | removeFiltered filter =>
      simp only [apply, removeFiltered, forget_change]
      cases model.change sec type fun table => .ok (table.removeFiltered filter) <;> rfl
  | update old new =>
      simp only [apply, update, forget_change]
      cases model.change sec type (·.update old new) <;> rfl

theorem forget_clear : model.forget.clear = model.clear.forget := by
  unfold clear forget
  simp only [List.map_map]
  rfl

theorem forget_load (lines : List PolicyLine) :
    model.forget.load lines = (model.load lines).map id forget := by
  induction lines generalizing model with
  | nil => rfl
  | cons line rest ih =>
      unfold Model.load
      have added : model.forget.addLine line =
          (model.addLine line).map fun outcome => (outcome.1, outcome.2.forget) := by
        unfold addLine
        simp only [add, forget_change]
        cases line.section <;> rfl
      rw [added]
      cases model.addLine line with
      | error error => rfl
      | ok outcome =>
          simp only [Except.ok_map, ih]
          rfl

/-! ## Changing role types -/

variable {model}

theorem forget_modifyRole {change : RoleType → RoleType}
    (unremembering : RoleType.Unremembering change) (model : Model) (type : String) :
    (model.forget.modifyRole type change).forget = (model.modifyRole type change).forget := by
  have lost := NameMap.map_modify_map
    (fun declared : Declared RoleType => { declared with body := declared.body.forget })
    (fun declared => { declared with body := change declared.body })
    (fun declared => by simp) (fun declared => by simp [unremembering declared.body])
    model.roles type
  exact congrArg (fun roles => { model with roles }) lost

theorem forget_modifyRoles {change : RoleType → RoleType}
    (unremembering : RoleType.Unremembering change) (model : Model) (types : List String) :
    (model.forget.modifyRoles types change).forget = (model.modifyRoles types change).forget := by
  induction types generalizing model with
  | nil => exact model.forget_forget
  | cons type rest ih =>
      rw [modifyRoles_cons, modifyRoles_cons, ← ih (model.forget.modifyRole type change),
        forget_modifyRole unremembering, ih]

theorem forget_buildLinks (h : model.WellFormed) :
    model.forget.buildLinks.2.forget = model.buildLinks.2.forget := by
  rw [h.buildLinks, h.forget.buildLinks, types_forget]
  exact forget_modifyRoles RoleType.unremembering_buildLinks model _

theorem forget_follow (model : Model) (links : Bool) (s : RowSection) (type : String)
    (delta : RowDelta) :
    (model.forget.follow links s type delta).forget = (model.follow links s type delta).forget := by
  unfold follow
  split
  · exact forget_modifyRole (RoleType.unremembering_follow delta) model type
  · exact model.forget_forget

/-! ## Role checks -/

theorem rememberLink_forget (model : Model) (type name role : String) (domain : Option String) :
    (model.rememberLink type name role domain).forget = model.forget := by
  have lost := NameMap.map_modify (fun entry : String × Declared RoleType =>
      (entry.1, ({ entry.2 with body := entry.2.body.forget } : Declared RoleType)))
    model.roles type
    (fun declared => { declared with body := { declared.body with
      manager := declared.body.manager.remember name role domain } })
    fun declared _ => by simp only [declared.body.remember_forget name role domain]
  exact congrArg (fun roles => { model with roles }) lost

theorem remember_forget (model : Model) (events : List Event) :
    (model.remember events).forget = model.forget := by
  induction events generalizing model with
  | nil => rfl
  | cons event rest ih =>
      cases event with
      | roleChecked type name role domain answer =>
          exact (ih _).trans (model.rememberLink_forget type name role domain)
      | called label args => exact ih model
      | ruleLoaded text => exact ih model

theorem Regular.hasLink_forget (regular : model.Regular) :
    model.forget.hasLink = model.hasLink := by
  funext type name role domain
  have mapped := NameMap.get?_map (fun declared : Declared RoleType =>
    ({ declared with body := declared.body.forget } : Declared RoleType)) model.roles type
  simp only [hasLink, manager?, forget, mapped]
  cases found : model.roles.get? type with
  | none => rfl
  | some declared =>
      have known : model.role type = .ok declared.body :=
        role_eq_ok_iff.mpr ⟨declared.text, found⟩
      exact congrFun (congrFun (congrFun
        (RoleManager.sameAnswers_forget (regular type _ known)).hasLink name) role) domain

end AccessControl.Model
