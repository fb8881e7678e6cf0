import AccessControl.Proofs.Model.Answers
import AccessControl.Proofs.Model.Declarations

/-! # What is declared under the plain names

The plain context names one type of each section. What a model declares under these names settles
how requests, rows and matchers look there, and no move of the model changes it.
-/

namespace AccessControl

/-- Declarations under the plain names. -/
structure PlainTypes where
  requestFields : List String
  policyFields : List String
  /-- The number of fields of a grouping row. -/
  roleArity : Nat
  effect : EffectKind
  matcher : String

namespace Model

/-- A model declares just this under the plain names. -/
structure DeclaresPlain (model : Model) (types : PlainTypes) : Prop where
  request : model.request "r" = .ok types.requestFields
  policy : (model.policy "p").map (·.fields) = .ok types.policyFields
  role : (model.role "g").map (·.table.arity) = .ok types.roleArity
  effect : model.effect "e" = .ok types.effect
  matcher : model.matcher "m" = .ok types.matcher

variable {model model' : Model} {types : PlainTypes}

theorem declaresPlain_iff :
    model.DeclaresPlain types ↔
      (model.request "r").toOption = some types.requestFields ∧
        ((model.policy "p").map (·.fields)).toOption = some types.policyFields ∧
        ((model.role "g").map (·.table.arity)).toOption = some types.roleArity ∧
        (model.effect "e").toOption = some types.effect ∧
        (model.matcher "m").toOption = some types.matcher := by
  simp only [Except.toOption_eq_some_iff]
  constructor
  · rintro ⟨request, policy, role, effect, matcher⟩
    exact ⟨request, policy, role, effect, matcher⟩
  · rintro ⟨request, policy, role, effect, matcher⟩
    exact { request, policy, role, effect, matcher }

instance : Decidable (model.DeclaresPlain types) := decidable_of_iff' _ declaresPlain_iff

theorem arity_of_role (model : Model) (type : String) :
    (model.role type).map (·.table.arity) =
      match model.roleArities.get? type with
      | some arity => .ok arity
      | none => .error (.policyTypeNotFound .role type) := by
  have mapped := NameMap.get?_map (fun declared : Declared RoleType => declared.body.table.arity)
    model.roles type
  simp only [Model.role, named, roleArities, mapped]
  cases model.roles.get? type <;> rfl

namespace DeclaresPlain

theorem congr (declares : model.DeclaresPlain types) (same : model.SameDeclarations model')
    (effects : model'.effects = model.effects) : model'.DeclaresPlain types where
  request := by
    rw [← declares.request]
    unfold Model.request
    rw [same.requests]
  policy := by rw [← declares.policy, fields_of_policy, fields_of_policy, same.policyFields]
  role := by rw [← declares.role, arity_of_role, arity_of_role, same.roleArities]
  effect := by
    rw [← declares.effect]
    unfold Model.effect
    rw [effects]
  matcher := by rw [← declares.matcher, same.matcher]

variable (declares : model.DeclaresPlain types)
include declares

theorem exists_table : ∃ table, model.policy "p" = .ok table ∧ table.fields = types.policyFields ∧
    model.table? .policy "p" = some table := by
  obtain ⟨table, found, fields⟩ := Except.map_eq_ok_iff.mp declares.policy
  refine ⟨table, found, fields, ?_⟩
  obtain ⟨⟨text, body⟩, named, rfl⟩ := Except.map_eq_ok_iff.mp found
  unfold Model.named at named
  split at named
  · rename_i entry
    rw [table?, entry, Except.ok.inj named, Option.map_some]
  · simp at named

theorem exists_role : ∃ role, model.role "g" = .ok role ∧ role.table.arity = types.roleArity :=
  Except.map_eq_ok_iff.mp declares.role

theorem lookup_roleArities : model.roleArities.lookup "g" = some types.roleArity := by
  have role := declares.role
  rw [arity_of_role] at role
  split at role
  · rename_i found
    exact found.trans (congrArg some (Except.ok.inj role))
  · simp at role

theorem scope : model.scope "r" "p" =
    .ok { requestKey := "r", requestFields := types.requestFields, policyKey := "p",
          policyFields := types.policyFields, roleTypes := model.roleArities } := by
  obtain ⟨table, found, fields, _⟩ := declares.exists_table
  unfold Model.scope
  rw [declares.request, found, Except.ok_bind, Except.ok_bind, fields]
  rfl

end DeclaresPlain

/-! ## Moves -/

theorem effects_follow (model : Model) (links : Bool) (s : RowSection) (type : String)
    (delta : RowDelta) : (model.follow links s type delta).effects = model.effects := by
  unfold follow
  split <;> rfl

theorem effects_remember (model : Model) (events : List Event) :
    (model.remember events).effects = model.effects := by
  induction events generalizing model with
  | nil => rfl
  | cons event rest ih => cases event <;> exact ih _

theorem Move.effects {links rules : Bool} (move : Move links rules model model')
    (h : model.WellFormed) : model'.effects = model.effects := by
  induction move with
  | same => rfl
  | trans first _ ih ih' => exact (ih' (first.wellFormed h)).trans (ih h)
  | @change model model' s type delta table table' changed =>
      refine (effects_follow model' _ s type delta).trans ?_
      rw [← changed.placed]
      cases s <;> rfl
  | clear model => exact h.clear.effects_buildLinks
  | load model lines =>
      have loaded : (model.clear.load lines).2.effects = model.effects :=
        effects_load model.clear lines
      split
      · exact (h.clear.load lines).1.effects_buildLinks.trans loaded
      · exact loaded
  | buildLinks => exact h.effects_buildLinks
  | remember model events => exact effects_remember model events
  | addNamePredicate | addDomainPredicate | setManager => rfl

theorem Move.declaresPlain {links rules : Bool} (move : Move links rules model model')
    (h : model.WellFormed) (declares : model.DeclaresPlain types) : model'.DeclaresPlain types :=
  declares.congr (move.declarations h) (move.effects h)

end Model

end AccessControl
