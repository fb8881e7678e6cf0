import AccessControl.Proofs.Model.Tables
import AccessControl.Proofs.Roles.Type

/-! # The role links of a well-formed model

Every grouping row of a well-formed model stands for a link. So its links can always be built, and
be brought in step with a change of rows; neither touches the tables.
-/

namespace AccessControl

namespace Model

/-! ## Changing several role types -/

/-- Change role types one after another. -/
def modifyRoles (model : Model) (types : List String) (change : RoleType → RoleType) : Model :=
  types.foldl (fun model type => model.modifyRole type change) model

theorem modifyRoles_cons (model : Model) (type : String) (rest : List String)
    (change : RoleType → RoleType) :
    model.modifyRoles (type :: rest) change =
      (model.modifyRole type change).modifyRoles rest change := rfl

/-- Every declared role type has a property. -/
def EachRole (model : Model) (P : String → RoleType → Prop) : Prop :=
  ∀ type role, model.role type = .ok role → P type role

theorem EachRole.modifyRole {model : Model} {P Q : String → RoleType → Prop} {type : String}
    {change : RoleType → RoleType} (each : model.EachRole P)
    (changed : ∀ role, P type role → Q type (change role))
    (others : ∀ type' role, type' ≠ type → P type' role → Q type' role) :
    (model.modifyRole type change).EachRole Q := by
  intro type' role declared
  rw [role_modifyRole] at declared
  split at declared
  · rename_i here
    subst here
    obtain ⟨before, found, rfl⟩ := Except.map_eq_ok_iff.mp declared
    exact changed before (each type' before found)
  · rename_i other
    exact others type' role other (each type' role declared)

theorem EachRole.modifyRoles {model : Model} {P Q : String → RoleType → Prop}
    (each : model.EachRole P) (change : RoleType → RoleType)
    (changed : ∀ type role, P type role → P type (change role) ∧ Q type (change role))
    (types : List String) :
    (model.modifyRoles types change).EachRole fun type role =>
      P type role ∧ (type ∈ types → Q type role) := by
  induction types generalizing model P with
  | nil => exact fun type role declared => ⟨each type role declared, fun member => by simp at member⟩
  | cons first rest ih =>
      have stepped : (model.modifyRole first change).EachRole fun type role =>
          P type role ∧ (type = first → Q type role) :=
        each.modifyRole (fun role before => ⟨(changed first role before).1,
            fun _ => (changed first role before).2⟩)
          fun type role other before => ⟨before, fun here => absurd here other⟩
      have finished := ih stepped fun type role before =>
        ⟨⟨(changed type role before.1).1, fun _ => (changed type role before.1).2⟩,
          (changed type role before.1).2⟩
      intro type role declared
      obtain ⟨⟨before, here⟩, later⟩ := finished type role declared
      exact ⟨before, fun member => (List.mem_cons.mp member).elim here later⟩

theorem mem_types_of_role {model : Model} {type : String} {role : RoleType}
    (declared : model.role type = .ok role) : type ∈ model.types .role := by
  obtain ⟨text, entry⟩ := role_eq_ok_iff.mp declared
  exact List.mem_map_of_mem (f := (·.1)) (NameMap.mem_of_get? entry)

theorem types_modifyRoles (model : Model) (types : List String)
    (change : RoleType → RoleType) :
    (model.modifyRoles types change).types .role = model.types .role := by
  induction types generalizing model with
  | nil => rfl
  | cons type rest ih =>
      rw [modifyRoles_cons, ih]
      exact NameMap.map_modify (·.1) model.roles type _ fun _ _ => rfl

theorem EachRole.modifyAll {model : Model} {P Q : String → RoleType → Prop}
    (each : model.EachRole P) (change : RoleType → RoleType)
    (changed : ∀ type role, P type role → P type (change role) ∧ Q type (change role)) :
    (model.modifyRoles (model.types .role) change).EachRole fun type role =>
      P type role ∧ Q type role := by
  intro type role declared
  obtain ⟨kept, brought⟩ := each.modifyRoles change changed (model.types .role) type role declared
  refine ⟨kept, brought ?_⟩
  rw [← types_modifyRoles model _ change]
  exact mem_types_of_role declared

theorem modifyRole_undeclared {model : Model} {type : String} {error : Error}
    (undeclared : model.role type = .error error) (change : RoleType → RoleType) :
    model.modifyRole type change = model := by
  unfold modifyRole
  rw [NameMap.modify_eq_self fun entry found => ?_]
  simp [Model.role, named, found] at undeclared

/-! ## Operations that leave the tables alone -/

theorem tables_modifyRole (model : Model) (type : String) (change : RoleType → RoleType)
    (same : ∀ role, (change role).table = role.table) :
    SameTables model (model.modifyRole type change) :=
  fun s type' => table?_modifyRole model type (fun role _ => same role) s type'

theorem tables_modifyRoles (model : Model) (types : List String) (change : RoleType → RoleType)
    (same : ∀ role, (change role).table = role.table) :
    SameTables model (model.modifyRoles types change) := by
  induction types generalizing model with
  | nil => exact .refl model
  | cons type rest ih => exact (tables_modifyRole model type change same).trans (ih _)

theorem tables_rememberLink (model : Model) (type name role : String) (domain : Option String) :
    SameTables model (model.rememberLink type name role domain) :=
  tables_modifyRole model type _ fun _ => rfl

theorem tables_remember (model : Model) (events : List Event) :
    SameTables model (model.remember events) := by
  induction events generalizing model with
  | nil => exact .refl model
  | cons event rest ih =>
      cases event with
      | roleChecked type name role domain answer =>
          exact (tables_rememberLink model type name role domain).trans (ih _)
      | called label args => exact ih model
      | ruleLoaded text => exact ih model

theorem tables_changeLinks (model : Model) (type : String) (change : LinkChange)
    (rows : List Row) : SameTables model (model.changeLinks type change rows).2 := by
  unfold Model.changeLinks
  cases declared : model.role type with
  | error error => exact .refl model
  | ok role =>
      simp only
      rw [modifyRole_const declared fun role => (role.changeLinks change rows).2]
      exact tables_modifyRole model type _ fun _ => rfl

theorem tables_setManager (model : Model) (type : String) (manager : RoleManager) :
    SameTables model (model.setManager type manager).2 := by
  unfold Model.setManager
  cases declared : model.role type with
  | error error => exact .refl model
  | ok role =>
      show SameTables model (model.modifyRole type fun _ => role.linkedIn manager)
      rw [modifyRole_const declared (·.linkedIn manager)]
      exact tables_modifyRole model type _ fun _ => rfl

theorem tables_buildLinksOf (model : Model) (types : List String) :
    SameTables model (model.buildLinksOf types).2 := by
  induction types generalizing model with
  | nil => exact .refl model
  | cons type rest ih =>
      unfold buildLinksOf
      cases declared : model.role type with
      | error error => exact ih model
      | ok role =>
          simp only
          rw [modifyRole_const declared fun role => role.buildLinks.2]
          have built := tables_modifyRole model type (fun role => role.buildLinks.2) fun _ => rfl
          cases role.buildLinks.1 with
          | error error => exact built
          | ok _ => exact built.trans (ih _)

theorem tables_buildLinks (model : Model) : SameTables model model.buildLinks.2 :=
  tables_buildLinksOf model _

/-! ## Following a change of the rows -/

/-- A model whose rows have changed, with the links brought in step if they are to follow. -/
def follow (model : Model) (links : Bool) (s : RowSection) (type : String) (delta : RowDelta) :
    Model :=
  if s = .role ∧ links = true then model.modifyRole type (·.follow delta) else model

theorem tables_follow (model : Model) (links : Bool) (s : RowSection) (type : String)
    (delta : RowDelta) : SameTables model (model.follow links s type delta) := by
  unfold follow
  split
  · exact tables_modifyRole model type _ fun _ => rfl
  · exact .refl model

/-! ## Links can be built -/

variable {model : Model} (h : model.WellFormed)
include h

theorem WellFormed.role {type : String} {role : RoleType} (declared : model.role type = .ok role) :
    role.table.WellFormed ∧ 2 ≤ role.table.arity :=
  ⟨h.tables .role type role.table (table?_role declared),
    h.links type role.table (table?_role declared)⟩

theorem WellFormed.changeLinks {type : String} {role : RoleType}
    (declared : model.role type = .ok role) (change : LinkChange) {rows : List Row}
    (lengths : ∀ row ∈ rows, row.length = role.table.arity) :
    model.changeLinks type change rows =
      (.ok (), model.modifyRole type fun role => (role.changeLinks change rows).2) := by
  have long : ∀ row ∈ rows, 2 ≤ row.length := fun row member =>
    lengths row member ▸ (h.role declared).2
  rw [← modifyRole_const declared fun role => (role.changeLinks change rows).2]
  unfold Model.changeLinks
  rw [declared, ← role.changeLinks_fst change long]

theorem WellFormed.setManager {type : String} {role : RoleType}
    (declared : model.role type = .ok role) (manager : RoleManager) :
    model.setManager type manager = (.ok (), model.modifyRole type (·.linkedIn manager)) := by
  obtain ⟨well, links⟩ := h.role declared
  have built : ({ role with manager }.buildLinks).1 = .ok () := RoleType.buildLinks_fst well links
  rw [← modifyRole_const declared (·.linkedIn manager), ← built]
  unfold Model.setManager
  rw [declared]
  rfl

/-- The links of role types are built one after another. -/
theorem WellFormed.buildLinksOf (types : List String) :
    model.buildLinksOf types = (.ok (), model.modifyRoles types (·.buildLinks.2)) := by
  induction types generalizing model with
  | nil => rfl
  | cons type rest ih =>
      unfold Model.buildLinksOf
      cases declared : model.role type with
      | error error =>
          rw [modifyRoles_cons, modifyRole_undeclared declared]
          exact ih h
      | ok role =>
          obtain ⟨well, links⟩ := h.role declared
          have same := tables_modifyRole model type (fun role => role.buildLinks.2) fun _ => rfl
          simp only
          rw [RoleType.buildLinks_fst well links,
            modifyRole_const declared fun role => role.buildLinks.2]
          exact ih (same.wellFormed h)

theorem WellFormed.buildLinks :
    model.buildLinks = (.ok (), model.modifyRoles (model.types .role) (·.buildLinks.2)) :=
  h.buildLinksOf _

theorem WellFormed.buildLinks_fst : model.buildLinks.1 = .ok () := congrArg Prod.fst h.buildLinks

end Model

end AccessControl
