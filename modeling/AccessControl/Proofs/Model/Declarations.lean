import AccessControl.Proofs.Model.Move

/-! # No move changes what is declared

What a matcher can name is settled by the declarations of a model. They stay the same when rows,
links and managers change, and so does the scope that matchers are compiled in.
-/

namespace AccessControl.Model

/-- The fields of all policy types. -/
def policyFields (model : Model) : NameMap (List String) :=
  model.policies.map fun entry => (entry.1, entry.2.body.fields)

/-- The number of fields of all role types. -/
def roleArities (model : Model) : NameMap Nat :=
  model.roles.map fun entry => (entry.1, entry.2.body.table.arity)

/-- Two models declare the same, as far as matchers can tell. -/
structure SameDeclarations (model model' : Model) : Prop where
  requests : model'.requests = model.requests
  matchers : model'.matchers = model.matchers
  policyFields : model'.policyFields = model.policyFields
  roleArities : model'.roleArities = model.roleArities

namespace SameDeclarations

variable {model model' model'' : Model}

theorem refl (model : Model) : SameDeclarations model model := ⟨rfl, rfl, rfl, rfl⟩

theorem symm (h : SameDeclarations model model') : SameDeclarations model' model :=
  ⟨h.requests.symm, h.matchers.symm, h.policyFields.symm, h.roleArities.symm⟩

theorem trans (h : SameDeclarations model model') (h' : SameDeclarations model' model'') :
    SameDeclarations model model'' :=
  ⟨h'.requests.trans h.requests, h'.matchers.trans h.matchers,
    h'.policyFields.trans h.policyFields, h'.roleArities.trans h.roleArities⟩

end SameDeclarations

variable {model model' : Model}

theorem fields_of_policy (model : Model) (type : String) :
    (model.policy type).map (·.fields) =
      match model.policyFields.get? type with
      | some fields => .ok fields
      | none => .error (.policyTypeNotFound .policy type) := by
  have mapped := NameMap.get?_map (fun declared : Declared RowTable => declared.body.fields)
    model.policies type
  simp only [Model.policy, named, policyFields, mapped]
  cases model.policies.get? type <;> rfl

theorem SameDeclarations.scope (same : SameDeclarations model model')
    (requestType policyType : String) :
    model'.scope requestType policyType = model.scope requestType policyType := by
  have unfolded (model : Model) : model.scope requestType policyType =
      (model.request requestType).bind fun requestFields =>
        ((model.policy policyType).map (·.fields)).bind fun policyFields =>
          .ok { requestKey := requestType, requestFields, policyKey := policyType, policyFields
                roleTypes := model.roleArities } := by
    unfold Model.scope
    cases model.request requestType with
    | error error => rfl
    | ok requestFields => cases model.policy policyType <;> rfl
  rw [unfolded model', unfolded model, fields_of_policy, fields_of_policy, same.policyFields,
    same.roleArities]
  unfold Model.request
  rw [same.requests]

theorem SameDeclarations.matcher (same : SameDeclarations model model') (type : String) :
    model'.matcher type = model.matcher type := by
  unfold Model.matcher
  rw [same.matchers]

/-! ## Operations -/

theorem declarations_setTable {s : RowSection} {type : String} {table table' : RowTable}
    (found : model.table? s type = some table) (shape : table.SameShape table') :
    SameDeclarations model (model.setTable s type table') := by
  cases s with
  | policy =>
      refine ⟨rfl, rfl, NameMap.map_modify _ _ _ _ fun declared here => ?_, rfl⟩
      obtain ⟨_, there, rfl⟩ := Option.map_eq_some_iff.mp found
      obtain rfl := Option.some.inj (here.symm.trans there)
      exact Prod.ext rfl shape.2
  | role =>
      refine ⟨rfl, rfl, rfl, NameMap.map_modify _ _ _ _ fun declared here => ?_⟩
      obtain ⟨_, there, rfl⟩ := Option.map_eq_some_iff.mp found
      obtain rfl := Option.some.inj (here.symm.trans there)
      exact Prod.ext rfl shape.arity

theorem declarations_modifyRole (model : Model) (type : String) {change : RoleType → RoleType}
    (same : ∀ role, (change role).table = role.table) :
    SameDeclarations model (model.modifyRole type change) :=
  ⟨rfl, rfl, rfl, NameMap.map_modify _ _ _ _ fun declared _ =>
    Prod.ext rfl (congrArg RowTable.arity (same declared.body))⟩

theorem declarations_modifyRoles (model : Model) (types : List String)
    {change : RoleType → RoleType} (same : ∀ role, (change role).table = role.table) :
    SameDeclarations model (model.modifyRoles types change) := by
  induction types generalizing model with
  | nil => exact .refl model
  | cons type rest ih => exact (declarations_modifyRole model type same).trans (ih _)

theorem declarations_clear (model : Model) : SameDeclarations model model.clear := by
  refine ⟨rfl, rfl, ?_, ?_⟩
  · simp only [policyFields, clear, List.map_map]
    rfl
  · simp only [roleArities, clear, List.map_map]
    rfl

theorem declarations_load (model : Model) (lines : List PolicyLine) :
    SameDeclarations model (model.load lines).2 :=
  load_induction (P := SameDeclarations model) lines (.refl model)
    fun _ _ _ table row found _ same =>
      same.trans (declarations_setTable found (table.insert_shape row))

theorem WellFormed.declarations_buildLinks (h : model.WellFormed) :
    SameDeclarations model model.buildLinks.2 := by
  rw [h.buildLinks]
  exact declarations_modifyRoles model _ fun _ => rfl

theorem declarations_changeLinks (model : Model) (type : String) (change : LinkChange)
    (rows : List Row) : SameDeclarations model (model.changeLinks type change rows).2 := by
  unfold Model.changeLinks
  cases declared : model.role type with
  | error error => exact .refl model
  | ok role =>
      simp only
      rw [modifyRole_const declared fun role => (role.changeLinks change rows).2]
      exact declarations_modifyRole model type fun _ => rfl

theorem declarations_setManager (model : Model) (type : String) (manager : RoleManager) :
    SameDeclarations model (model.setManager type manager).2 := by
  unfold Model.setManager
  cases declared : model.role type with
  | error error => exact .refl model
  | ok role =>
      show SameDeclarations model (model.modifyRole type fun _ => role.linkedIn manager)
      rw [modifyRole_const declared (·.linkedIn manager)]
      exact declarations_modifyRole model type fun _ => rfl

theorem declarations_remember (model : Model) (events : List Event) :
    SameDeclarations model (model.remember events) := by
  induction events generalizing model with
  | nil => exact .refl model
  | cons event rest ih =>
      cases event with
      | roleChecked type name role domain answer =>
          have asked : SameDeclarations model (model.rememberLink type name role domain) :=
            declarations_modifyRole model type fun _ => rfl
          exact asked.trans (ih _)
      | called label args => exact ih model
      | ruleLoaded text => exact ih model

theorem declarations_follow (model : Model) (links : Bool) (s : RowSection) (type : String)
    (delta : RowDelta) : SameDeclarations model (model.follow links s type delta) := by
  unfold follow
  split
  · exact declarations_modifyRole model type fun _ => rfl
  · exact .refl model

/-- No move changes what is declared. -/
theorem Move.declarations {links rules : Bool} (move : Move links rules model model')
    (h : model.WellFormed) : SameDeclarations model model' := by
  induction move with
  | same model => exact .refl model
  | trans first _ ih ih' => exact (ih h).trans (ih' (first.wellFormed h))
  | @change model model' s type delta table table' changed =>
      have placed : SameDeclarations model model' :=
        changed.placed ▸ declarations_setTable changed.found changed.outcome.shape
      exact placed.trans (declarations_follow model' _ s type delta)
  | clear model => exact model.declarations_clear.trans h.clear.declarations_buildLinks
  | load model lines =>
      have loaded := model.declarations_clear.trans (model.clear.declarations_load lines)
      split
      · exact loaded.trans (h.clear.load lines).1.declarations_buildLinks
      · exact loaded
  | buildLinks model => exact h.declarations_buildLinks
  | remember model events => exact declarations_remember model events
  | addNamePredicate _ model type holds => exact declarations_modifyRole model type fun _ => rfl
  | addDomainPredicate _ model type holds => exact declarations_modifyRole model type fun _ => rfl
  | setManager _ model type manager => exact declarations_modifyRole model type fun _ => rfl

end AccessControl.Model
