import AccessControl.Proofs.Model.Move

/-! # Models whose links are in step with their rows

A model is in step if all its role types are. To build the links brings it in step, and every move
that follows the rows keeps it so.
-/

namespace AccessControl.Model

/-- All role types have come to the given rules. -/
def Ruled (rules : String → RoleRules) (model : Model) : Prop :=
  model.EachRole fun type role => role.rules = rules type

/-- All role types are in step, and have come to the given rules. -/
def InStep (rules : String → RoleRules) (model : Model) : Prop :=
  model.EachRole fun type role => role.InStep ∧ role.rules = rules type

variable {rules : String → RoleRules} {model : Model}

theorem InStep.ruled (inStep : model.InStep rules) : model.Ruled rules :=
  fun type role declared => (inStep type role declared).2

theorem exists_ruled (model : Model) : ∃ rules, model.Ruled rules := by
  let rules (type : String) : RoleRules :=
    ((model.role type).toOption.map (·.rules)).getD { kind := .indexed, maxLevel := 0 }
  refine ⟨rules, fun type role declared => ?_⟩
  show role.rules = rules type
  simp only [rules, declared]
  rfl

/-! ## Operations that change rows only -/

theorem Ruled.clear (ruled : model.Ruled rules) : model.clear.Ruled rules :=
  EachRole.clear ruled fun _ _ _ kept => kept

theorem Ruled.load (ruled : model.Ruled rules) (lines : List PolicyLine) :
    (model.load lines).2.Ruled rules :=
  EachRole.load ruled (fun _ _ _ kept => kept) lines

/-! ## Building links anew -/

theorem Ruled.buildLinks (ruled : model.Ruled rules) (h : model.WellFormed) :
    model.buildLinks.2.InStep rules := by
  have each : model.EachRole fun type role =>
      (role.table.WellFormed ∧ 2 ≤ role.table.arity) ∧ role.rules = rules type :=
    fun type role declared => ⟨h.role declared, ruled type role declared⟩
  rw [h.buildLinks]
  have built := each.modifyAll (·.buildLinks.2) (Q := fun _ role => role.InStep)
    fun type role ⟨⟨well, arity⟩, kept⟩ => by
      obtain ⟨stepped, kept'⟩ := RoleType.inStep_buildLinks role well arity
      exact ⟨⟨⟨well, arity⟩, kept'.trans kept⟩, stepped⟩
  intro type role declared
  obtain ⟨⟨_, kept⟩, stepped⟩ := built type role declared
  exact ⟨stepped, kept⟩

/-! ## Moves -/

theorem InStep.rememberLink (inStep : model.InStep rules) (type name role : String)
    (domain : Option String) : (model.rememberLink type name role domain).InStep rules :=
  EachRole.modifyRole inStep (fun _ ⟨stepped, ruled⟩ => by
    obtain ⟨stepped', kept⟩ := stepped.remember name role domain
    exact ⟨stepped', kept.trans ruled⟩) fun _ _ _ before => before

theorem InStep.remember (inStep : model.InStep rules) (events : List Event) :
    (model.remember events).InStep rules := by
  induction events generalizing model with
  | nil => exact inStep
  | cons event rest ih =>
      cases event with
      | roleChecked type name role domain answer => exact ih (inStep.rememberLink _ _ _ _)
      | called label args => exact ih inStep
      | ruleLoaded text => exact ih inStep

/-- The links follow a change of the rows of their type, and no other type is touched. -/
theorem InStep.follow (inStep : model.InStep rules) (h : model.WellFormed) {s : RowSection}
    {type : String} {delta : RowDelta} {model' : Model} {table table' : RowTable}
    (changed : Changed model s type (some delta) model' table table') :
    (model'.follow true s type delta).InStep rules := by
  have placed := changed.placed
  subst placed
  unfold Model.follow
  split
  · rename_i follows
    obtain ⟨rfl, _⟩ := follows
    obtain ⟨role, declared, rfl⟩ := role_of_table? changed.found
    obtain ⟨well, arity⟩ := h.role declared
    intro type' role' found
    rw [role_modifyRole, role_setTable, role_setTable, declared] at found
    split at found
    · rename_i here
      subst here
      obtain ⟨stepped, ruled⟩ := inStep type' role declared
      obtain ⟨stepped', kept⟩ := stepped.follow well arity changed.outcome
      rw [if_pos ⟨rfl, rfl⟩] at found
      obtain rfl := Except.ok.inj found
      exact ⟨stepped', kept.trans ruled⟩
    · rename_i other
      rw [if_neg fun here => other here.2] at found
      exact inStep type' role' found
  · rename_i apart
    intro type' role' found
    rw [role_setTable, if_neg fun here => apart ⟨here.1, rfl⟩] at found
    exact inStep type' role' found

/-- A move without a change of rules leaves all role types in step, if the links follow the rows. -/
theorem Move.inStep {model' : Model} (move : Move true false model model') (h : model.WellFormed)
    (inStep : model.InStep rules) : model'.InStep rules := by
  induction move with
  | same => exact inStep
  | trans first _ ih ih' => exact ih' (first.wellFormed h) (ih h inStep)
  | change changed => exact inStep.follow h changed
  | clear model => exact inStep.ruled.clear.buildLinks h.clear
  | load model lines =>
      exact (inStep.ruled.clear.load lines).buildLinks (h.clear.load lines).1
  | buildLinks model => exact inStep.ruled.buildLinks h
  | remember model events => exact inStep.remember events
  | addNamePredicate free | addDomainPredicate free | setManager free => simp at free

end AccessControl.Model
