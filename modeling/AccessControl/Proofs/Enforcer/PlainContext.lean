import AccessControl.Proofs.Decision.Outcome
import AccessControl.Proofs.Enforcer.Memory
import AccessControl.Proofs.Enforcer.Touched
import AccessControl.Proofs.Matcher.Conditions
import AccessControl.Proofs.Model.PlainTypes
import AccessControl.Proofs.Roles.Plain

/-! # Decisions in the plain context

Without a cache, a request in the plain context is decided by what the text of the plain matcher means
for each row. Where it means an answer for every row, the decision is that of the complete sequence.
-/

namespace AccessControl

theorem Context.plain_eq : Context.plain =
    { requestType := "r", policyType := "p", effectType := "e", matcherType := "m" } := by
  simp [plain, ofSuffix]

namespace Model

/-- Names and domains stand for themselves only in the plain role type. -/
def ChecksPlainly (model : Model) : Prop := ∀ role, model.role "g" = .ok role → role.Plain

variable {model : Model} {type : String} {role : RoleType}

theorem hasLink_of_role (declared : model.role type = .ok role) :
    model.hasLink type = role.manager.hasLink := by
  obtain ⟨text, found⟩ := role_eq_ok_iff.mp declared
  funext name role domain
  simp [hasLink, manager?, found]

theorem DeclaresPlain.length_of_mem {types : PlainTypes} (declares : model.DeclaresPlain types)
    (h : model.WellFormed) {row : Row} (stored : row ∈ model.rows "p" "p") :
    row.length = types.policyFields.length := by
  obtain ⟨table, _, fields, found⟩ := declares.exists_table
  have rows : model.rows "p" "p" = table.rows := rows_of_table? found
  rw [rows] at stored
  exact ((h.tables .policy "p" table found).arity row stored).trans (congrArg List.length fields)

end Model

/-- The effect of a row of the plain policy type. -/
def PlainTypes.effectOf (types : PlainTypes) : Row → Effect :=
  RowTable.effectOf { type := "p", fields := types.policyFields }

/-- Where an expression means a boolean, a matcher of its text answers just that. -/
theorem Matcher.Resolves.result_evaluate {matcher : Matcher} {scope : Scope} {text : String}
    (resolves : matcher.Resolves scope text) {tree : Expr} (parsed : Expr.parse text = .ok tree)
    {env : Bindings} (request : env.request.length = scope.requestFields.length)
    (row : env.row.length = scope.policyFields.length) {answer : Bool}
    (means : ∀ onRule, (tree.interpret scope env onRule).result = .ok (.bool answer)) :
    (matcher.evaluate env).result = .ok answer := by
  obtain ⟨tree', parsed', resolved⟩ := resolves.root
  obtain rfl := Except.ok.inj (parsed.symm.trans parsed')
  unfold Matcher.evaluate
  rw [Scope.evaluate_resolve request row resolved, Traced.result_bind, means]
  rfl

namespace Enforcer

variable {σ κ : Type} {e : Enforcer σ κ} {types : PlainTypes}

/-- What the plain matcher of an enforcer can name. -/
def plainScope (e : Enforcer σ κ) (types : PlainTypes) : Scope :=
  { requestKey := "r", requestFields := types.requestFields, policyKey := "p",
    policyFields := types.policyFields, roleTypes := e.model.roleArities, functions := e.functions }

theorem plainScope_isPlain (e : Enforcer σ κ) (types : PlainTypes) :
    (e.plainScope types).IsPlain := ⟨rfl, rfl⟩

theorem compile_plain (declares : e.model.DeclaresPlain types) {tree : Expr}
    (parsed : Expr.parse types.matcher = .ok tree) (resolves : tree.ResolvesIn (e.plainScope types)) :
    ∃ matcher, e.compile .plain none = .ok matcher ∧
      Matcher.compile (e.plainScope types) types.matcher = .ok matcher := by
  obtain ⟨root, resolved⟩ := resolves
  have compiled : e.compile .plain none = Matcher.compile (e.plainScope types) types.matcher := by
    unfold compile
    rw [Context.plain_eq]
    simp only [declares.matcher, declares.scope, Except.ok_bind]
    rfl
  rw [compiled]
  unfold Matcher.compile
  rw [parsed, Except.ok_bind, resolved]
  exact ⟨_, rfl, rfl⟩

variable [PolicyStore σ] [BEq κ]

/-- The decision of a request of which the plain matcher means an answer for every row. -/
theorem Reachable.decide_plain (reachable : e.Reachable) (uncached : e.cache = none)
    (enabled : e.enabled = true) (declares : e.model.DeclaresPlain types) {tree : Expr}
    (parsed : Expr.parse types.matcher = .ok tree) (resolves : tree.ResolvesIn (e.plainScope types))
    {request : List Value} (length : request.length = types.requestFields.length)
    {holds : Row → Bool}
    (means : ∀ row ∈ e.model.rows "p" "p", row.length = types.policyFields.length → ∀ onRule,
      (tree.interpret (e.plainScope types) { request, row, roles := e.model.hasLink } onRule).result =
        .ok (.bool (holds row))) :
    (e.decide .plain none request).1 =
      .ok (Decision.ofOutcome (e.model.rows "p" "p") (combine types.effect
        ((e.model.rows "p" "p").map fun row => (holds row, types.effectOf row)))) := by
  obtain ⟨matcher, compiled, settled⟩ := compile_plain declares parsed resolves
  obtain ⟨table, policy, fields, found⟩ := declares.exists_table
  have rows : e.model.rows "p" "p" = table.rows := Model.rows_of_table? found
  have effectOf : table.effectOf = types.effectOf := by
    unfold PlainTypes.effectOf RowTable.effectOf RowTable.effectAt?
    rw [fields]
  have checked : e.model.checkRequest Context.plain.requestType request = .ok () := by
    simp [Context.plain_eq, Model.checkRequest, declares.request, length]
  have tested : ∀ row ∈ table.rows,
      matcher.test request e.model.hasLink row = .ok (holds row) := by
    intro row stored
    have stored' : row ∈ e.model.rows "p" "p" := rows ▸ stored
    have width := declares.length_of_mem reachable.wellFormed stored'
    exact (Matcher.resolves_of_compile settled).result_evaluate parsed length width
      (means row stored' width)
  have effect : e.model.effect Context.plain.effectType = .ok types.effect := by
    rw [Context.plain_eq]
    exact declares.effect
  have policy' : e.model.policy Context.plain.policyType = .ok table := by
    rw [Context.plain_eq]
    exact policy
  have decided := reachable.decide_uncached uncached { context := .plain, given := none, request }
  simp only at decided
  rw [decided, rows, ← effectOf, ← Model.decideRowByRow_of_answered effect policy' tested,
    ← Model.result_evaluateWith _ _ _ _ _ checked]
  unfold answer judge
  rw [enabled, if_pos rfl, compiled, Except.ok_bind]
  -- neither the matcher nor the managers remember anything that shows
  have fresh := Matcher.forget_of_compile settled
  have sound : matcher.Sound := fresh ▸ matcher.sound_forget
  have remembered := reachable.remembersRightly.roles.evaluate_forget sound .plain request
  rw [fresh] at remembered
  exact congrArg Traced.result remembered

/-! ## Setting up -/

section

variable {setup : Setup σ κ} (prepared : setup.model.Prepared) (built : setup.build = .ok e)
include prepared built

omit [BEq κ] in
theorem exists_before_load : ∃ empty : Enforcer σ κ,
    empty.loadPolicy.2 = e ∧ empty.cache = setup.cache ∧ empty.model.WellFormed ∧
      setup.model.SameDeclarations empty.model ∧ empty.model.effects = setup.model.effects := by
  obtain ⟨_, model, matchers, reset, _, loaded⟩ := build_eq_ok_iff.mp built
  have same := resetManagers_eq prepared.wellFormed reset
  refine ⟨{ setup.initial model with matchers }, by rw [loaded], rfl,
    resetManagers_wellFormed prepared.wellFormed reset, ?_, ?_⟩
  · exact same ▸ Model.declarations_modifyRoles _ _ fun _ => rfl
  · exact same ▸ Model.effects_modifyRoles _ _ _

omit [BEq κ] in
theorem declaresPlain_of_build (declares : setup.model.DeclaresPlain types) :
    e.model.DeclaresPlain types := by
  obtain ⟨empty, rfl, _, well, same, effects⟩ := exists_before_load prepared built
  exact (moved_loadPolicy well).move.declaresPlain well (declares.congr same effects)

omit [BEq κ] in
theorem uncached_of_build (uncached : setup.cache = none) : e.cache = none := by
  obtain ⟨empty, rfl, cache, _⟩ := exists_before_load prepared built
  exact cache_loadPolicy (cache.trans uncached)

end

/-! ## Role checks -/

omit [PolicyStore σ] [BEq κ] in
theorem checksPlainly_of_inStep {rules : String → RoleRules} (inStep : e.model.InStep rules)
    (names : (rules "g").namePredicates = []) (domains : (rules "g").domainPredicates = []) :
    e.model.ChecksPlainly := by
  intro role declared
  have ruled := (inStep "g" role declared).2
  exact ⟨(congrArg RoleRules.namePredicates ruled).trans names,
    (congrArg RoleRules.domainPredicates ruled).trans domains⟩

omit [BEq κ] in
theorem inStep_mutate (h : e.model.WellFormed) (follows : e.settings.autoBuildRoleLinks = true)
    {rules : String → RoleRules} (inStep : e.model.InStep rules) (mutation : Mutation) :
    (e.mutate mutation).2.model.InStep rules := by
  have move := (moved_mutate h mutation).move
  rw [follows] at move
  exact move.inStep h inStep

end Enforcer

end AccessControl
