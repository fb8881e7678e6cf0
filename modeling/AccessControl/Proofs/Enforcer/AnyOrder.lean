import AccessControl.Proofs.Decision.Outcome
import AccessControl.Proofs.Enforcer.Course
import AccessControl.Proofs.Enforcer.Memory
import AccessControl.Proofs.Enforcer.Touched

/-! # The same rows in any order

Two models may have the same rows of every type in different orders. Their links are then the same, and
so is what they allow, if the matcher fails on no row and the effect is not one of priority. With
priorities it is enough that no two rows have the same rank, for such rows stand in one order only.
-/

namespace AccessControl

namespace RowTable

variable {table table' : RowTable}

/-- No two rows have the same rank. -/
def RanksApart (table : RowTable) : Prop :=
  ∀ row ∈ table.rows, ∀ other ∈ table.rows, table.sameRank row other = true → row = other

instance (table : RowTable) : Decidable table.RanksApart :=
  inferInstanceAs (Decidable (∀ row ∈ table.rows, ∀ other ∈ table.rows,
    table.sameRank row other = true → row = other))

theorem RanksApart.rows_eq (apart : table.RanksApart) (well : table.WellFormed)
    (shape : SameShape table table') (ordered : table.Ordered) (ordered' : table'.Ordered)
    (perm : table.rows.Perm table'.rows) : table.rows = table'.rows := by
  have lined := ordered_iff.mp ordered
  have lined' : table.Lined table'.rows := by
    have own := ordered_iff.mp ordered'
    unfold Lined at own ⊢
    rwa [shape.mayPrecede] at own
  refine Agree.eq_of_lined (.of_perm perm ?_) lined lined'
  refine well.nodup.pairwise_of_forall_ne fun row stored other stored' differ => ?_
  exact eq_false_of_ne_true fun same => differ (apart row stored other stored' same)

end RowTable

namespace Model

variable {model model' : Model}

theorem policy_eq (model : Model) (type : String) : model.policy type =
    (model.table? .policy type).elim (.error (.policyTypeNotFound .policy type)) .ok := by
  unfold Model.policy Model.named table?
  cases model.policies.get? type <;> rfl

/-- The same types are declared, with the same fields, and have the same rows in some order. -/
structure SameMembers (model model' : Model) : Prop where
  shapes : model.SameShapes model'
  rows : ∀ (s : RowSection) (type : String) (row : Row),
    row ∈ model'.rows s.key type ↔ row ∈ model.rows s.key type

namespace SameMembers

variable (same : model.SameMembers model')
include same

theorem table {s : RowSection} {type : String} {table : RowTable}
    (found : model.table? s type = some table) : ∃ table', model'.table? s type = some table' ∧
      table.SameShape table' ∧ ∀ row, row ∈ table'.rows ↔ row ∈ table.rows := by
  obtain ⟨table', found', shape⟩ := same.shapes.table? found
  refine ⟨table', found', shape, fun row => ?_⟩
  rw [← rows_of_table? found, ← rows_of_table? found']
  exact same.rows s type row

theorem table_none {s : RowSection} {type : String} (missing : model.table? s type = none) :
    model'.table? s type = none := by
  have shape := same.shapes s type
  unfold shape? at shape
  rwa [missing, Option.map_none, Option.map_eq_none_iff] at shape

/-- Links in step with the same rows, whatever their order, answer role checks alike. -/
theorem hasLink {rules : String → RoleRules} (inStep : model.InStep rules)
    (inStep' : model'.InStep rules) : model'.hasLink = model.hasLink := by
  funext type name role domain
  unfold Model.hasLink
  cases found : model.table? .role type with
  | none =>
      rw [manager?_eq_none_iff.mpr found, manager?_eq_none_iff.mpr (same.table_none found)]
  | some table =>
      obtain ⟨type₁, known, rfl⟩ := role_of_table? found
      obtain ⟨table', found', _, rows⟩ := same.table found
      obtain ⟨type₂, known', rfl⟩ := role_of_table? found'
      obtain ⟨text, declared⟩ := role_eq_ok_iff.mp known
      obtain ⟨text', declared'⟩ := role_eq_ok_iff.mp known'
      obtain ⟨stepped, ruled⟩ := inStep type type₁ known
      obtain ⟨stepped', ruled'⟩ := inStep' type type₂ known'
      have alike := (stepped.sameAnswers_of_mem stepped' (ruled'.trans ruled.symm) rows).1
      unfold manager?
      rw [declared, declared', Option.map_some, Option.map_some]
      exact congrFun (congrFun (congrFun alike.hasLink name) role) domain

/-- Where the matcher fails on no row, rows in another order allow the same, unless the effect is one of
    priority and there are rows of one rank. -/
theorem allowed_decideRowByRow (h : model.Proper) (h' : model'.Proper)
    (effects : model'.effects = model.effects) (roles : RoleOracle) (context : Context)
    (matcher : Matcher) (request : List Value)
    (apart : model.effect context.effectType = .ok .priority → ∀ table,
      model.table? .policy context.policyType = some table → table.RanksApart)
    (answered : ∀ row ∈ model.rows RowSection.policy.key context.policyType,
      ∃ answer, matcher.test request roles row = .ok answer) :
    (model'.decideRowByRow roles context matcher request).map (·.allowed) =
      (model.decideRowByRow roles context matcher request).map (·.allowed) := by
  have effect : model'.effect context.effectType = model.effect context.effectType := by
    unfold Model.effect
    rw [effects]
  cases declared : model.effect context.effectType with
  | error error =>
      unfold decideRowByRow
      rewrite [effect, declared]
      rfl
  | ok kind =>
      cases found : model.table? .policy context.policyType with
      | none =>
          unfold decideRowByRow
          rewrite [effect, declared, policy_eq, policy_eq, found, same.table_none found]
          rfl
      | some table =>
          obtain ⟨table', found', shape, members⟩ := same.table found
          have well := h.well.tables _ _ _ found
          have well' := h'.well.tables _ _ _ found'
          have perm : table.rows.Perm table'.rows :=
            (List.perm_ext_iff_of_nodup well.nodup well'.nodup).mpr fun row => (members row).symm
          have settled (ordered : kind = .priority) : table.rows = table'.rows := by
            subst ordered
            exact (apart declared table found).rows_eq well shape (h.ordered _ _ _ found)
              (h'.ordered _ _ _ found') perm
          have effectOf : table'.effectOf = table.effectOf := by
            unfold RowTable.effectOf RowTable.effectAt?
            rw [shape.2]
          rw [rows_of_table? found] at answered
          let answer (row : Row) : Bool := (matcher.test request roles row).toOption.getD false
          have tested : ∀ row ∈ table.rows, matcher.test request roles row = .ok (answer row) := by
            intro row stored
            obtain ⟨_, result⟩ := answered row stored
            simp only [answer, result]
            rfl
          rw [decideRowByRow_of_answered declared (by rw [policy_eq, found]; rfl) tested,
            decideRowByRow_of_answered (effect.trans declared) (by rw [policy_eq, found']; rfl)
              fun row stored => tested row ((members row).mp stored), effectOf]
          exact congrArg Except.ok (Decision.allowed_perm perm settled answer table.effectOf).symm

end SameMembers

theorem Regular.result_evaluate_forget (regular : model.Regular) (context : Context)
    (matcher : Matcher) (request : List Value) :
    (model.forget.evaluate context matcher request).result =
      model.checkRequest context.requestType request >>= fun _ =>
        model.decideRowByRow model.hasLink context matcher request := by
  unfold evaluate
  rw [regular.hasLink_forget]
  have same : model.forget.checkRequest context.requestType request =
      model.checkRequest context.requestType request := rfl
  cases checked : model.checkRequest context.requestType request with
  | error error =>
      unfold evaluateWith
      rw [same, checked]
      rfl
  | ok u => exact model.forget.result_evaluateWith model.hasLink context matcher request checked

end Model

/-! ## Decisions -/

namespace Enforcer

variable {σ σ' κ κ' : Type}

/-- The matcher of a query fails on none of the rows. -/
def FailsNowhere (e : Enforcer σ κ) (query : Query) : Prop :=
  ∀ matcher, e.compile query.context query.given = .ok matcher →
    ∀ row ∈ e.model.rows RowSection.policy.key query.context.policyType,
      ∃ answer, matcher.test query.request e.model.hasLink row = .ok answer

/-- If a query is decided by priorities, no two rows have the same rank. -/
def Ranked (e : Enforcer σ κ) (query : Query) : Prop :=
  e.model.effect query.context.effectType = .ok .priority → ∀ table,
    e.model.table? .policy query.context.policyType = some table → table.RanksApart

variable [PolicyStore σ] [PolicyStore σ'] [BEq κ] [BEq κ']

/-- Enforcers that have the same rows in different orders allow the same. -/
theorem allowed_decide {e : Enforcer σ κ} {e' : Enforcer σ' κ'} (reachable : e.Reachable)
    (reachable' : e'.Reachable) (uncached : e.cache = none) (uncached' : e'.cache = none)
    (enabled : e'.enabled = e.enabled) (functions : e'.functions = e.functions)
    (declarations : e.model.SameDeclarations e'.model) (effects : e'.model.effects = e.model.effects)
    (same : e.model.SameMembers e'.model) {rules : String → RoleRules}
    (inStep : e.model.InStep rules) (inStep' : e'.model.InStep rules) {query : Query}
    (ranked : e.Ranked query) (answered : e.FailsNowhere query) :
    (e'.decide query.context query.given query.request).1.map (·.allowed) =
      (e.decide query.context query.given query.request).1.map (·.allowed) := by
  rw [reachable.decide_uncached uncached, reachable'.decide_uncached uncached']
  unfold answer
  rw [enabled]
  cases e.enabled with
  | false => simp only [Bool.false_eq_true, if_false]
  | true =>
      have compiled : e'.compile query.context query.given = e.compile query.context query.given := by
        unfold compile
        rw [declarations.scope, declarations.matcher, functions]
      have checked (type : String) : e'.model.checkRequest type query.request =
          e.model.checkRequest type query.request := by
        unfold Model.checkRequest Model.request
        rw [declarations.requests]
      simp only [if_true]
      unfold judge
      rw [compiled]
      cases found : e.compile query.context query.given with
      | error error => simp only [Except.error_bind]
      | ok matcher =>
          simp only [Except.ok_bind]
          rw [reachable.remembersRightly.roles.result_evaluate_forget,
            reachable'.remembersRightly.roles.result_evaluate_forget, checked,
            same.hasLink inStep inStep']
          cases e.model.checkRequest query.context.requestType query.request with
          | error error => simp only [Except.error_bind]
          | ok _ =>
              simp only [Except.ok_bind]
              exact same.allowed_decideRowByRow reachable.proper reachable'.proper effects
                e.model.hasLink query.context matcher query.request ranked (answered matcher found)

end Enforcer

end AccessControl
