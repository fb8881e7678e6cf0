import AccessControl.Proofs.Enforcer.Linked
import AccessControl.Proofs.Model.Move

/-! # How the model of an enforcer moves

Whatever an operation of an enforcer does to its model is a sequence of moves. So what all moves
keep holds throughout every run, and in every state that can be reached.
-/

namespace AccessControl

/-- Whether an operation may change managers or predicates of role types. -/
def Operation.setsRules : Operation → Bool
  | .addNamePredicate _ _ => true
  | .addDomainPredicate _ _ => true
  | .setManager _ _ => true
  | _ => false

namespace Enforcer

variable {σ κ : Type}

/-- An enforcer has moved: its model by one of the moves, and its settings not at all. -/
structure Moved (rules : Bool) (e e' : Enforcer σ κ) : Prop where
  settings : e'.settings = e.settings
  beingRead : e'.beingRead = e.beingRead
  move : Model.Move e.settings.autoBuildRoleLinks rules e.model e'.model

namespace Moved

variable {e e' e'' : Enforcer σ κ} {rules : Bool}

theorem still (model : e'.model = e.model) (settings : e'.settings = e.settings)
    (beingRead : e'.beingRead = e.beingRead) : Moved rules e e' :=
  ⟨settings, beingRead, by rw [model]; exact .same e.model⟩

theorem trans (first : Moved rules e e') (second : Moved rules e' e'') : Moved rules e e'' :=
  ⟨second.settings.trans first.settings, second.beingRead.trans first.beingRead,
    first.move.trans (first.settings ▸ second.move)⟩

theorem free (moved : Moved rules e e') : Moved true e e' :=
  ⟨moved.settings, moved.beingRead, moved.move.free⟩

theorem access (moved : Moved rules e e') : e'.access = e.access := by
  unfold Enforcer.access
  rw [moved.settings, moved.beingRead]

theorem wellFormed (moved : Moved rules e e') (h : e.model.WellFormed) : e'.model.WellFormed :=
  moved.move.wellFormed h

theorem shapes (moved : Moved rules e e') (h : e.model.WellFormed) :
    e.model.SameShapes e'.model := moved.move.shapes h

theorem afterChange (moved : Moved rules e e') (change : PolicyChange) :
    Moved rules e (e'.afterChange change) :=
  moved.trans (.still (afterChange_model e' change) (afterChange_settings e' change)
    (afterChange_beingRead e' change))

theorem afterChanges (moved : Moved rules e e') (changes : List PolicyChange) :
    Moved rules e (changes.foldl Enforcer.afterChange e') := by
  induction changes generalizing e' with
  | nil => exact moved
  | cons change rest ih => exact ih (moved.afterChange change)

end Moved

theorem moved_buildRoleLinks {e : Enforcer σ κ} (h : e.model.WellFormed) :
    Moved false e e.buildRoleLinks.2 := by
  rw [buildRoleLinks_eq h]
  split
  · exact .still rfl rfl rfl
  · exact ⟨rfl, rfl, .buildLinks e.model⟩

theorem moved_changeRole {e : Enforcer σ κ} (type : String) {change : RoleType → RoleType}
    (move : Model.Move e.settings.autoBuildRoleLinks true e.model
      (e.model.modifyRole type change)) :
    Moved true e (e.changeRole type change).2 := by
  unfold changeRole
  split
  · exact .still rfl rfl rfl
  · split
    · exact .still rfl rfl rfl
    · exact ⟨rfl, rfl, move⟩

theorem moved_setManager {e : Enforcer σ κ} (h : e.model.WellFormed) (type : String)
    (manager : RoleManager) : Moved true e (e.setManager type manager).2 := by
  rw [setManager_eq h]
  exact moved_changeRole type (.setManager rfl e.model type manager)

theorem moved_evaluate (e : Enforcer σ κ) (context : Context) (given : Option String)
    (request : List Value) : Moved false e (e.evaluate context given request).2 := by
  unfold evaluate
  split
  · exact .still rfl rfl rfl
  · exact ⟨rfl, rfl, .remember e.model _⟩

section

variable [BEq κ]

theorem moved_decide (e : Enforcer σ κ) (context : Context) (given : Option String)
    (request : List Value) : Moved false e (e.decide context given request).2 := by
  unfold decide
  split
  · unfold decideEnabled
    split
    · exact moved_evaluate e context given request
    · rename_i cache _
      simp only
      have evaluated := moved_evaluate { e with
        cache := some ((cache.elapse 1).get (e.cacheKey context given request)).2 }
        context given request
      split
      · exact .still rfl rfl rfl
      · split
        · rename_i failed
          rw [failed] at evaluated
          exact ⟨evaluated.settings, evaluated.beingRead, evaluated.move⟩
        · rename_i done
          rw [done] at evaluated
          exact ⟨evaluated.settings, evaluated.beingRead, evaluated.move⟩
  · exact .still rfl rfl rfl

end

variable [PolicyStore σ]

theorem moved_carryOut {e : Enforcer σ κ} {model : Model} {s : RowSection} {type : String}
    {delta : RowDelta} {table table' : RowTable} (change : RowChange)
    (changed : Model.Changed e.model s type (some delta) model table table') :
    Moved false e (e.carryOut model s type change delta).2 := by
  unfold carryOut
  simp only [persist_snd]
  exact ⟨rfl, rfl, .change changed⟩

theorem moved_applyChange {e : Enforcer σ κ} (h : e.model.WellFormed) (s : RowSection)
    (type : String) (change : RowChange) : Moved false e (e.applyChange s type change).2 := by
  rw [applyChange_eq h]
  split
  · exact .still rfl rfl rfl
  · exact .still rfl rfl rfl
  · rename_i delta model made
    obtain ⟨table, table', changed⟩ := h.apply made
    exact (moved_carryOut change changed).afterChange _

theorem moved_applyRemovals {e : Enforcer σ κ} (h : e.model.WellFormed) (removals : List Removal) :
    Moved false e (e.applyRemovals removals).2 := by
  induction removals generalizing e with
  | nil => exact .still rfl rfl rfl
  | cons removal rest ih =>
      rw [applyRemovals_cons h]
      split
      · exact .still rfl rfl rfl
      · rename_i removed model made
        obtain ⟨table, table', changed⟩ := h.apply (apply_of_removeFiltered made)
        split
        · exact ih h
        · rename_i some
          simp only [Bool.not_eq_true] at some
          simp only [some, Bool.not_false, if_true] at changed
          have first := moved_carryOut (.removeFiltered removal.filter) changed
          have others := first.trans (ih (first.wellFormed h))
          simp only
          split
          · rename_i failed
            rwa [failed] at others
          · rename_i done
            rwa [done] at others

theorem moved_removeTogether {e : Enforcer σ κ} (h : e.model.WellFormed)
    (removals : List Removal) : Moved false e (e.removeTogether removals).2 := by
  unfold removeTogether
  have applied := moved_applyRemovals h removals
  split
  · exact .still rfl rfl rfl
  · split
    · exact .still rfl rfl rfl
    · split
      · rename_i failed
        rwa [failed] at applied
      · rename_i done
        rw [done] at applied
        exact applied.afterChanges _

theorem moved_clearPolicy {e : Enforcer σ κ} (h : e.model.WellFormed) :
    Moved false e e.clearPolicy.2 := by
  rw [clearPolicy_eq h]
  have persisted : Moved false e
      ({ e with model := e.model.clear.buildLinks.2 }.persist fun store =>
        PolicyStore.save store []).2 := by
    rw [persist_snd]
    exact ⟨rfl, rfl, .clear e.model⟩
  split
  · exact .still rfl rfl rfl
  · split
    · rename_i failed
      rwa [failed] at persisted
    · rename_i done
      rw [done] at persisted
      exact persisted.afterChange _

theorem moved_mutate {e : Enforcer σ κ} (h : e.model.WellFormed) (mutation : Mutation) :
    Moved false e (e.mutate mutation).2 := by
  cases mutation with
  | rows s type change =>
      show Moved false e (e.change s type change).2
      unfold Enforcer.change
      split
      · exact .still rfl rfl rfl
      · exact moved_applyChange h s type change
  | deleteUser user => exact moved_removeTogether h _
  | deleteRole role => exact moved_removeTogether h _
  | clearPolicy => exact moved_clearPolicy h

theorem moved_loadPolicy {e : Enforcer σ κ} (h : e.model.WellFormed) :
    Moved false e e.loadPolicy.2 := by
  unfold loadPolicy
  split
  · exact .still rfl rfl rfl
  · split
    · exact .still rfl rfl rfl
    · rename_i lines _ _ _
      rw [replaceRows_eq h]
      split
      · exact .still rfl rfl rfl
      · exact ⟨rfl, rfl, .load e.model lines⟩

theorem moved_savePolicy (e : Enforcer σ κ) : Moved false e e.savePolicy.2 := by
  unfold savePolicy announce
  split
  · exact .still rfl rfl rfl
  · split <;> exact .still rfl rfl rfl

/-! ## Setting up -/

omit [PolicyStore σ] in
theorem resetManagers_eq {model model' : Model} (h : model.WellFormed) {maxLevel : Nat}
    {types : List String} (reset : Setup.resetManagers maxLevel model types = .ok model') :
    model.modifyRoles types (·.linkedIn (.empty .indexed maxLevel)) = model' := by
  induction types generalizing model with
  | nil => exact Except.ok.inj reset
  | cons type rest ih =>
      unfold Setup.resetManagers at reset
      split at reset
      · simp at reset
      · rename_i done
        cases declared : model.role type with
        | error error =>
            unfold Model.setManager at done
            simp [declared] at done
        | ok role =>
            rw [h.setManager declared] at done
            obtain ⟨_, rfl⟩ := Prod.mk.inj done
            have same := Model.tables_modifyRole model type (·.linkedIn (.empty .indexed maxLevel))
              fun _ => rfl
            exact ih (same.wellFormed h) reset

omit [PolicyStore σ] in
theorem resetManagers_wellFormed {model model' : Model} (h : model.WellFormed) {maxLevel : Nat}
    {types : List String} (reset : Setup.resetManagers maxLevel model types = .ok model') :
    model'.WellFormed := by
  have same := Model.tables_modifyRoles model types (·.linkedIn (.empty .indexed maxLevel))
    fun _ => rfl
  exact (resetManagers_eq h reset ▸ same).wellFormed h

/-- The steps of setting up: the managers are reset, the plain matcher is compiled, and the rows of
    the store are loaded. -/
theorem build_eq_ok_iff {setup : Setup σ κ} {e : Enforcer σ κ} :
    setup.build = .ok e ↔
      Setup.checkSections setup.model = .ok () ∧
        ∃ model matchers, Setup.resetManagers setup.settings.maxHierarchyLevel setup.model
            (setup.model.types .role) = .ok model ∧
          Setup.compilePlain (setup.initial model) = .ok { setup.initial model with matchers } ∧
          { setup.initial model with matchers }.loadPolicy = (.ok (), e) := by
  constructor
  · intro built
    obtain ⟨_, checked, built⟩ := Except.bind_eq_ok_iff.mp built
    obtain ⟨model, reset, built⟩ := Except.bind_eq_ok_iff.mp built
    obtain ⟨compiled, plain, built⟩ := Except.bind_eq_ok_iff.mp built
    have remembered : ∃ matchers, compiled = { setup.initial model with matchers } := by
      unfold Setup.compilePlain at plain
      split at plain
      · obtain ⟨_, _, plain⟩ := Except.bind_eq_ok_iff.mp plain
        exact ⟨_, (Except.ok.inj plain).symm⟩
      · exact ⟨_, (Except.ok.inj plain).symm⟩
    obtain ⟨matchers, rfl⟩ := remembered
    refine ⟨checked, model, matchers, reset, plain, ?_⟩
    split at built
    · simp at built
    · rename_i loaded
      rw [loaded, Except.ok.inj built]
  · rintro ⟨checked, model, matchers, reset, plain, loaded⟩
    simp only [Setup.build, checked, reset, plain, Except.ok_bind, loaded]

theorem build_access {setup : Setup σ κ} {e : Enforcer σ κ} (prepared : setup.model.Prepared)
    (built : setup.build = .ok e) : e.settings = setup.settings ∧ e.access = .ok () := by
  obtain ⟨_, model, matchers, reset, _, loaded⟩ := build_eq_ok_iff.mp built
  have well := resetManagers_wellFormed prepared.wellFormed reset
  have moved := moved_loadPolicy (e := { setup.initial model with matchers }) well
  rw [loaded] at moved
  exact ⟨moved.settings, moved.access⟩

/-! ## Runs -/

variable [BEq κ]

/-- Every operation on a well-formed model is a move. -/
theorem moved_step {e : Enforcer σ κ} (h : e.model.WellFormed) (operation : Operation) :
    Moved operation.setsRules e (e.step operation).2 := by
  cases operation with
  | mutate mutation => exact moved_mutate h mutation
  | loadPolicy => exact moved_loadPolicy h
  | savePolicy => exact moved_savePolicy e
  | buildRoleLinks => exact moved_buildRoleLinks h
  | addFunction name f =>
      unfold step addFunction
      simp only [Prod.map_snd, id_eq]
      split <;> exact .still rfl rfl rfl
  | addNamePredicate type holds =>
      exact moved_changeRole type (.addNamePredicate rfl e.model type holds)
  | addDomainPredicate type holds =>
      exact moved_changeRole type (.addDomainPredicate rfl e.model type holds)
  | setManager type manager => exact moved_setManager h type manager
  | enable enabled => exact .still rfl rfl rfl
  | decide context given request => exact moved_decide e context given request
  | ask type name role domain =>
      exact ⟨rfl, rfl, .remember e.model [.roleChecked type name role domain true]⟩
  | clearCache => exact .still rfl rfl rfl
  | wait nanoseconds => exact .still rfl rfl rfl

theorem moved_run {e : Enforcer σ κ} (h : e.model.WellFormed) (operations : List Operation) :
    Moved true e (e.run operations).2 := by
  induction operations generalizing e with
  | nil => exact .still rfl rfl rfl
  | cons operation rest ih =>
      have first := (moved_step h operation).free
      exact first.trans (ih (first.wellFormed h))

/-- The model of an enforcer is well formed in every state that it can be in. -/
theorem Reachable.wellFormed {e : Enforcer σ κ} (reachable : e.Reachable) :
    e.model.WellFormed := by
  induction reachable with
  | @built setup e prepared built =>
      obtain ⟨_, model, matchers, reset, _, loaded⟩ := build_eq_ok_iff.mp built
      have well := resetManagers_wellFormed prepared.wellFormed reset
      have moved := moved_loadPolicy (e := { setup.initial model with matchers }) well
      rw [loaded] at moved
      exact moved.wellFormed well
  | step operation _ ih => exact (moved_step ih operation).wellFormed ih
  | configure | setStore | setWatched | takeAnnounced | takeCalls | read => assumption

end Enforcer

end AccessControl
