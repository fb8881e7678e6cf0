import AccessControl.Proofs.Enforcer.Moves
import AccessControl.Proofs.Model.Refusal

/-! # Operations that do not concern the store

Only changes of rows, loading and saving call the store. All other operations leave both the store
and the rows as they are, and no error that they answer comes from a store.
-/

namespace AccessControl

/-- Whether an operation may call the store. -/
def Operation.callsStore : Operation → Bool
  | .mutate _ => true
  | .loadPolicy => true
  | .savePolicy => true
  | _ => false

/-- The error of a store that an operation answers. Decisions and role checks call no store. -/
def Answer.storeError? : Answer → Option StoreError
  | .changed (.error error) => error.store?
  | .done (.error error) => error.store?
  | _ => none

namespace Enforcer

variable {σ κ : Type}

theorem store?_of_access {e : Enforcer σ κ} {error : Error}
    (refused : e.access = .error error) : error.store? = none := by
  unfold access at refused
  split at refused
  · exact Except.error.inj refused ▸ rfl
  · simp at refused

theorem store?_of_checkRemovals {e : Enforcer σ κ} {removals : List Removal}
    {error : Error} (refused : e.checkRemovals removals = .error error) : error.store? = none := by
  induction removals with
  | nil => simp [checkRemovals] at refused
  | cons removal rest ih =>
      unfold checkRemovals at refused
      split at refused
      · exact Except.error.inj refused ▸ rfl
      · exact ih refused

/-- An operation that touches neither the store nor the rows. -/
structure Apart (e e' : Enforcer σ κ) : Prop where
  store : e'.store = e.store
  tables : e.model.SameTables e'.model

variable {e : Enforcer σ κ}

theorem apart_changeRole (type : String) {change : RoleType → RoleType}
    (same : ∀ role, (change role).table = role.table) :
    (Answer.done (e.changeRole type change).1).storeError? = none ∧
      Apart e (e.changeRole type change).2 := by
  unfold changeRole
  cases refused : e.access with
  | error error => exact ⟨store?_of_access refused, rfl, .refl _⟩
  | ok _ =>
      cases declared : e.model.role type with
      | error error => exact ⟨Model.store?_of_role declared, rfl, .refl _⟩
      | ok role => exact ⟨rfl, rfl, Model.tables_modifyRole e.model type change same⟩

theorem apart_buildRoleLinks (h : e.model.WellFormed) :
    (Answer.done e.buildRoleLinks.1).storeError? = none ∧ Apart e e.buildRoleLinks.2 := by
  rw [buildRoleLinks_eq h]
  cases refused : e.access with
  | error error => exact ⟨store?_of_access refused, rfl, .refl _⟩
  | ok _ => exact ⟨rfl, rfl, Model.tables_buildLinks e.model⟩

theorem apart_addFunction (name : String) (f : CustomFunction) :
    (Answer.done (e.addFunction name f).1).storeError? = none ∧
      Apart e (e.addFunction name f).2 := by
  unfold addFunction
  cases refused : e.access with
  | error error => exact ⟨store?_of_access refused, rfl, .refl _⟩
  | ok _ => exact ⟨rfl, rfl, .refl _⟩

theorem apart_evaluate (e : Enforcer σ κ) (context : Context) (given : Option String)
    (request : List Value) : Apart e (e.evaluate context given request).2 := by
  unfold evaluate
  split
  · exact ⟨rfl, .refl _⟩
  · exact ⟨rfl, Model.tables_remember e.model _⟩

theorem apart_decide [BEq κ] (context : Context) (given : Option String)
    (request : List Value) : Apart e (e.decide context given request).2 := by
  unfold decide
  split
  · unfold decideEnabled
    split
    · exact apart_evaluate e context given request
    · rename_i cache _
      simp only
      have evaluated := apart_evaluate { e with
        cache := some ((cache.elapse 1).get (e.cacheKey context given request)).2 }
        context given request
      split
      · exact ⟨rfl, .refl _⟩
      · split
        · rename_i failed
          rw [failed] at evaluated
          exact ⟨evaluated.store, evaluated.tables⟩
        · rename_i done
          rw [done] at evaluated
          exact ⟨evaluated.store, evaluated.tables⟩
  · exact ⟨rfl, .refl _⟩

/-- Operations that do not call the store have nothing to do with it. -/
theorem apart_step [PolicyStore σ] [BEq κ] (h : e.model.WellFormed) {operation : Operation}
    (silent : operation.callsStore = false) :
    (e.step operation).1.storeError? = none ∧ Apart e (e.step operation).2 := by
  cases operation with
  | mutate | loadPolicy | savePolicy => cases silent
  | buildRoleLinks => exact apart_buildRoleLinks h
  | addFunction name f => exact apart_addFunction name f
  | addNamePredicate type holds => exact apart_changeRole type fun _ => rfl
  | addDomainPredicate type holds => exact apart_changeRole type fun _ => rfl
  | setManager type manager =>
      show (Answer.done (e.setManager type manager).1).storeError? = none ∧
        Apart e (e.setManager type manager).2
      rw [setManager_eq h]
      exact apart_changeRole type fun _ => rfl
  | enable | clearCache | wait => exact ⟨rfl, rfl, .refl _⟩
  | decide context given request => exact ⟨rfl, apart_decide context given request⟩
  | ask type name role domain =>
      exact ⟨rfl, rfl, Model.tables_rememberLink e.model type name role domain⟩

end Enforcer

end AccessControl
