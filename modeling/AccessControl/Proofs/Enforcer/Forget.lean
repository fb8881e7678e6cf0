import AccessControl.Proofs.Enforcer.Moves
import AccessControl.Proofs.Model.Forget

/-! # Enforcers without memory

An enforcer remembers answers to role checks, compiled matchers, decisions, and the calls of
functions. Apart from decisions and questions, no operation reads any of that: it does the same to
an enforcer that has forgotten everything.
-/

namespace AccessControl.Enforcer

variable {σ κ : Type}

/-- An enforcer without a cache, that has forgotten everything. -/
def forget (e : Enforcer σ κ) : Enforcer σ κ :=
  { e with model := e.model.forget, matchers := e.matchers.clear, cache := none, calls := [] }

/-- An answer, and the enforcer without memory that is left behind. -/
def lost {α : Type} (outcome : α × Enforcer σ κ) : α × Enforcer σ κ :=
  (outcome.1, outcome.2.forget)

@[simp]
theorem forget_model (e : Enforcer σ κ) : e.forget.model = e.model.forget := rfl

@[simp]
theorem forget_access (e : Enforcer σ κ) : e.forget.access = e.access := rfl

@[simp]
theorem forget_settings (e : Enforcer σ κ) : e.forget.settings = e.settings := rfl

@[simp]
theorem forget_store (e : Enforcer σ κ) : e.forget.store = e.store := rfl

@[simp]
theorem forget_forget (e : Enforcer σ κ) : e.forget.forget = e.forget := by
  simp [forget, Memo.clear]

theorem forget_afterChange (e : Enforcer σ κ) (change : PolicyChange) :
    (e.afterChange change).forget = e.forget.afterChange change := by
  rw [afterChange_eq, afterChange_eq]
  unfold forget
  cases e.settings.autoCleanCache <;> simp

theorem forget_afterChanges (e : Enforcer σ κ) (changes : List PolicyChange) :
    (changes.foldl afterChange e).forget = changes.foldl afterChange e.forget := by
  induction changes generalizing e with
  | nil => rfl
  | cons change rest ih => rw [List.foldl_cons, List.foldl_cons, ih, forget_afterChange]

theorem forget_congr (e : Enforcer σ κ) {model model' : Model} (store : σ)
    (same : model.forget = model'.forget) :
    forget { e.forget with model, store } = forget { e with model := model', store } := by
  simp [forget, same, Memo.clear]

/-! ## Changing rows -/

variable [PolicyStore σ]

theorem lost_carryOut (e : Enforcer σ κ) (model : Model) (s : RowSection) (type : String)
    (change : RowChange) (delta : RowDelta) :
    lost (e.forget.carryOut model.forget s type change delta) =
      lost (e.carryOut model s type change delta) := by
  rw [carryOut_eq, carryOut_eq]
  exact Prod.ext rfl (forget_congr e _ (Model.forget_follow model _ s type delta))

theorem lost_applyChange {e : Enforcer σ κ} (h : e.model.WellFormed) (s : RowSection)
    (type : String) (change : RowChange) :
    lost (e.forget.applyChange s type change) = lost (e.applyChange s type change) := by
  rw [applyChange_eq h, applyChange_eq h.forget, forget_model, Model.forget_apply]
  cases e.model.apply s.key type change with
  | error error => exact Prod.ext rfl e.forget_forget
  | ok outcome =>
      obtain ⟨delta?, model⟩ := outcome
      cases delta? with
      | none => exact Prod.ext rfl e.forget_forget
      | some delta =>
          obtain ⟨answers, states⟩ := Prod.mk.inj (lost_carryOut e model s type change delta)
          refine Prod.ext (congrArg (Except.map fun _ => true) answers) ?_
          simp only [lost, Except.ok_map, forget_afterChange, states]

theorem lost_change {e : Enforcer σ κ} (h : e.model.WellFormed) (s : RowSection) (type : String)
    (change : RowChange) :
    lost (e.forget.change s type change) = lost (e.change s type change) := by
  unfold Enforcer.change
  rw [forget_access]
  cases e.access with
  | error error => exact Prod.ext rfl e.forget_forget
  | ok _ => exact lost_applyChange h s type change

omit [PolicyStore σ] in
theorem forget_checkRemovals (e : Enforcer σ κ) (removals : List Removal) :
    e.forget.checkRemovals removals = e.checkRemovals removals := by
  induction removals with
  | nil => rfl
  | cons removal rest ih => simp only [checkRemovals, forget_model, Model.table?_forget, ih]

omit [PolicyStore σ] in
/-- An operation that does the same without memory does the same with any other memory. -/
theorem lost_of_forget_eq {α : Type} (op : Enforcer σ κ → α × Enforcer σ κ)
    (loses : ∀ {e : Enforcer σ κ}, e.model.WellFormed → lost (op e.forget) = lost (op e))
    {e e' : Enforcer σ κ} (same : e.forget = e'.forget) (h : e'.model.WellFormed) :
    lost (op e) = lost (op e') := by
  have models : e.model.forget = e'.model.forget := congrArg Enforcer.model same
  have h' : e.model.WellFormed := Model.wellFormed_forget.mp (models ▸ h.forget)
  rw [← loses h', ← loses h, same]

theorem lost_applyRemovals {e : Enforcer σ κ} (h : e.model.WellFormed) (removals : List Removal) :
    lost (e.forget.applyRemovals removals) = lost (e.applyRemovals removals) := by
  induction removals generalizing e with
  | nil => exact Prod.ext rfl e.forget_forget
  | cons removal rest ih =>
      rw [applyRemovals_cons h, applyRemovals_cons h.forget, forget_model,
        Model.forget_removeFiltered]
      cases made : e.model.removeFiltered removal.table.key removal.type removal.filter with
      | error error => exact Prod.ext rfl e.forget_forget
      | ok outcome =>
          obtain ⟨removed, model⟩ := outcome
          simp only [Except.ok_map]
          cases none : removed.isEmpty with
          | true => exact ih h
          | false =>
              obtain ⟨table, table', changed⟩ := h.apply (apply_of_removeFiltered made)
              simp only [none, Bool.not_false, if_true] at changed
              have well := (moved_carryOut (.removeFiltered removal.filter) changed).wellFormed h
              have carried := lost_carryOut e model removal.table removal.type
                (.removeFiltered removal.filter) { removed }
              simp only [Bool.false_eq_true, if_false]
              generalize e.forget.carryOut model.forget removal.table removal.type
                (.removeFiltered removal.filter) { removed } = bare at carried ⊢
              generalize e.carryOut model removal.table removal.type
                (.removeFiltered removal.filter) { removed } = full at carried well ⊢
              obtain ⟨persisted, after⟩ := bare
              obtain ⟨persisted', after'⟩ := full
              obtain ⟨answers, states⟩ := Prod.mk.inj carried
              simp only at answers states well
              subst answers
              have others : lost (after.applyRemovals rest) = lost (after'.applyRemovals rest) :=
                lost_of_forget_eq (·.applyRemovals rest) ih states well
              generalize after.applyRemovals rest = bare at others ⊢
              generalize after'.applyRemovals rest = full at others ⊢
              obtain ⟨answer, last⟩ := bare
              obtain ⟨answer', last'⟩ := full
              obtain ⟨answers, states⟩ := Prod.mk.inj others
              simp only at answers states
              subst answers
              cases answer with
              | error error => exact Prod.ext rfl states
              | ok rest => exact Prod.ext rfl states

theorem lost_removeTogether {e : Enforcer σ κ} (h : e.model.WellFormed)
    (removals : List Removal) :
    lost (e.forget.removeTogether removals) = lost (e.removeTogether removals) := by
  unfold removeTogether
  rw [forget_access, forget_checkRemovals]
  cases e.access with
  | error error => exact Prod.ext rfl e.forget_forget
  | ok _ =>
      cases e.checkRemovals removals with
      | error error => exact Prod.ext rfl e.forget_forget
      | ok _ =>
          have applied := lost_applyRemovals h removals
          simp only
          generalize e.forget.applyRemovals removals = bare at applied ⊢
          generalize e.applyRemovals removals = full at applied ⊢
          obtain ⟨answer, after⟩ := bare
          obtain ⟨answer', after'⟩ := full
          obtain ⟨answers, states⟩ := Prod.mk.inj applied
          simp only at answers states
          subst answers
          cases answer with
          | error error => exact Prod.ext rfl states
          | ok outcome =>
              refine Prod.ext rfl ?_
              simp only [lost, forget_afterChanges, states]

theorem lost_clearPolicy {e : Enforcer σ κ} (h : e.model.WellFormed) :
    lost e.forget.clearPolicy = lost e.clearPolicy := by
  rw [clearPolicy_eq h, clearPolicy_eq h.forget, forget_access]
  cases e.access with
  | error error => exact Prod.ext rfl e.forget_forget
  | ok _ =>
      have cleared : (e.model.forget.clear.buildLinks.2).forget =
          (e.model.clear.buildLinks.2).forget := by
        rw [Model.forget_clear, Model.forget_buildLinks h.clear]
      simp only [persist_eq, forget_model, forget_settings, forget_store]
      generalize report (if e.settings.autoSave then
        failuresOf (PolicyStore.save e.store []).1 else []) = answer
      have states := forget_congr e (if e.settings.autoSave = true then
        (PolicyStore.save e.store []).2 else e.store) cleared
      cases answer with
      | error error => exact Prod.ext rfl states
      | ok _ =>
          refine Prod.ext rfl ?_
          simp only [lost, forget_afterChange]
          exact congrArg (afterChange · .cleared) states

theorem lost_mutate {e : Enforcer σ κ} (h : e.model.WellFormed) (mutation : Mutation) :
    lost (e.forget.mutate mutation) = lost (e.mutate mutation) := by
  cases mutation with
  | rows s type change => exact lost_change h s type change
  | deleteUser user => exact lost_removeTogether h _
  | deleteRole role => exact lost_removeTogether h _
  | clearPolicy =>
      obtain ⟨answers, states⟩ := Prod.mk.inj (lost_clearPolicy h)
      exact Prod.ext (congrArg (Except.map fun _ => true) answers) states

/-! ## Loading, saving and switching -/

theorem lost_loadPolicy {e : Enforcer σ κ} (h : e.model.WellFormed) :
    lost e.forget.loadPolicy = lost e.loadPolicy := by
  unfold loadPolicy
  rw [forget_access, forget_store]
  cases PolicyStore.load e.store with
  | error error => exact Prod.ext rfl e.forget_forget
  | ok lines =>
      cases e.access with
      | error error => exact Prod.ext rfl e.forget_forget
      | ok _ =>
          simp only
          rw [replaceRows_eq h, replaceRows_eq h.forget, forget_model, Model.checkLines_forget,
            Model.forget_clear, Model.forget_load]
          cases e.model.checkLines lines with
          | error error => exact Prod.ext rfl e.forget_forget
          | ok _ =>
              have same (links : Bool) :
                  Model.forget (if links then (e.model.clear.load lines).2.forget.buildLinks.2
                    else (e.model.clear.load lines).2.forget) =
                  Model.forget (if links then (e.model.clear.load lines).2.buildLinks.2
                    else (e.model.clear.load lines).2) := by
                cases links with
                | true => exact Model.forget_buildLinks (h.clear.load lines).1
                | false => exact Model.forget_forget _
              exact Prod.ext rfl (forget_congr e e.store (same e.settings.autoBuildRoleLinks))

theorem lost_savePolicy (e : Enforcer σ κ) : lost e.forget.savePolicy = lost e.savePolicy := by
  have saved := forget_congr e (PolicyStore.save e.store e.model.lines).2 e.model.forget_forget
  unfold savePolicy
  rw [forget_store, forget_model, Model.lines_forget]
  generalize PolicyStore.save e.store e.model.lines = outcome at saved ⊢
  obtain ⟨answer, store⟩ := outcome
  cases answer with
  | error error => exact Prod.ext rfl saved
  | ok _ =>
      refine Prod.ext rfl ?_
      simp only [lost, announce, forget_settings]
      show forget (if (e.settings.autoNotifyWatcher && e.watched) = true then _ else _) = _
      cases e.settings.autoNotifyWatcher && e.watched with
      | false => exact saved
      | true =>
          exact congrArg
            (fun e => { e with announced := e.announced ++ [PolicyChange.saved] }) saved

omit [PolicyStore σ] in
theorem lost_buildRoleLinks {e : Enforcer σ κ} (h : e.model.WellFormed) :
    lost e.forget.buildRoleLinks = lost e.buildRoleLinks := by
  rw [buildRoleLinks_eq h, buildRoleLinks_eq h.forget, forget_access]
  cases e.access with
  | error error => exact Prod.ext rfl e.forget_forget
  | ok _ => exact Prod.ext rfl (forget_congr e e.store (Model.forget_buildLinks h))

omit [PolicyStore σ] in
theorem lost_addFunction (e : Enforcer σ κ) (name : String) (f : CustomFunction) :
    lost (e.forget.addFunction name f) = lost (e.addFunction name f) := by
  unfold addFunction
  rw [forget_access]
  cases e.access with
  | error error => exact Prod.ext rfl e.forget_forget
  | ok _ =>
      refine Prod.ext rfl ?_
      simp [lost, forget, clearCache, Memo.clear]

omit [PolicyStore σ] in
theorem lost_changeRole (e : Enforcer σ κ) (type : String) {change : RoleType → RoleType}
    (unremembering : RoleType.Unremembering change) :
    lost (e.forget.changeRole type change) = lost (e.changeRole type change) := by
  unfold changeRole
  rw [forget_access, forget_model, Model.role_forget]
  cases e.access with
  | error error => exact Prod.ext rfl e.forget_forget
  | ok _ =>
      cases e.model.role type with
      | error error => exact Prod.ext rfl e.forget_forget
      | ok role =>
          exact Prod.ext rfl
            (forget_congr e e.store (Model.forget_modifyRole unremembering e.model type))

omit [PolicyStore σ] in
theorem lost_setManager {e : Enforcer σ κ} (h : e.model.WellFormed) (type : String)
    (manager : RoleManager) :
    lost (e.forget.setManager type manager) = lost (e.setManager type manager) := by
  rw [setManager_eq h, setManager_eq h.forget]
  exact lost_changeRole e type (RoleType.unremembering_linkedIn manager)

omit [PolicyStore σ] in
theorem lost_ask {e : Enforcer σ κ} (regular : e.model.Regular) (type name role : String)
    (domain : Option String) :
    lost (e.forget.ask type name role domain) = lost (e.ask type name role domain) := by
  have answers : e.model.forget.hasLink type name role domain =
      e.model.hasLink type name role domain := by rw [regular.hasLink_forget]
  refine Prod.ext answers (forget_congr e e.store ?_)
  show (e.model.forget.rememberLink type name role domain).forget =
    (e.model.rememberLink type name role domain).forget
  rw [Model.rememberLink_forget, Model.rememberLink_forget, Model.forget_forget]

/-! ## All operations but decisions -/

omit [PolicyStore σ] in
theorem lost_map {α β : Type} (f : α → β) {outcome outcome' : α × Enforcer σ κ}
    (same : lost outcome = lost outcome') :
    lost (outcome.map f id) = lost (outcome'.map f id) := by
  obtain ⟨answers, states⟩ := Prod.mk.inj same
  exact Prod.ext (congrArg f answers) states

/-- Every operation but a decision does the same without memory. -/
theorem lost_step [BEq κ] {e : Enforcer σ κ} (h : e.model.WellFormed) (regular : e.model.Regular)
    {operation : Operation} (other : operation.query? = none) :
    lost (e.forget.step operation) = lost (e.step operation) := by
  cases operation with
  | mutate mutation => exact lost_map _ (lost_mutate h mutation)
  | loadPolicy => exact lost_map _ (lost_loadPolicy h)
  | savePolicy => exact lost_map _ (lost_savePolicy e)
  | buildRoleLinks => exact lost_map _ (lost_buildRoleLinks h)
  | addFunction name f => exact lost_map _ (lost_addFunction e name f)
  | addNamePredicate type holds =>
      exact lost_map _ (lost_changeRole e type (RoleType.unremembering_addNamePredicate holds))
  | addDomainPredicate type holds =>
      exact lost_map _ (lost_changeRole e type (RoleType.unremembering_addDomainPredicate holds))
  | setManager type manager => exact lost_map _ (lost_setManager h type manager)
  | enable enabled =>
      exact Prod.ext rfl (congrArg (fun e => { e with enabled }) e.forget_forget)
  | decide context given request => simp [Operation.query?] at other
  | ask type name role domain => exact lost_map _ (lost_ask regular type name role domain)
  | clearCache => exact Prod.ext rfl e.forget_forget
  | wait nanoseconds => exact Prod.ext rfl e.forget_forget

end AccessControl.Enforcer
