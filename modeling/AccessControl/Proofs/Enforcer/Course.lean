import AccessControl.Proofs.Enforcer.Apart
import AccessControl.Proofs.Model.Loading

/-! # How store and rows go on together

Whatever an operation of an enforcer does to its store and to its rows is a sequence of a few steps.
So what these steps keep holds throughout every run. A course may be held to changes of rows that
are permitted where they are made.
-/

namespace AccessControl

/-! ## Proper models -/

/-- What all operations keep of the tables of a model. -/
structure Model.Proper (model : Model) : Prop where
  well : model.WellFormed
  named : model.Named
  ordered : model.Ordered

namespace Model.Proper

variable {model model' : Model}

theorem congr (proper : model.Proper) (tables : model.SameTables model')
    (declarations : model.SameDeclarations model') : model'.Proper :=
  ⟨tables.wellFormed proper.well, proper.named.congr_tables tables declarations,
    tables.ordered proper.ordered⟩

theorem apply (proper : model.Proper) {s : RowSection} {type : String} {change : RowChange}
    {delta? : Option RowDelta} (made : model.apply s.key type change = .ok (delta?, model')) :
    model'.Proper := by
  obtain ⟨table, table', found, changed, placed⟩ := apply_eq_ok made
  have outcome := (proper.well.tables s type table found).apply changed
  subst placed
  exact ⟨proper.well.setTable found outcome.shape outcome.well,
    proper.named.congr (shapes_setTable found outcome.shape)
      (declarations_setTable found outcome.shape),
    proper.ordered.setTable found ((proper.ordered s type table found).apply changed)⟩

theorem clear (proper : model.Proper) : model.clear.Proper := by
  refine ⟨proper.well.clear, proper.named.congr model.shapes_clear model.declarations_clear, ?_⟩
  intro s type table found
  rw [table?_clear] at found
  obtain ⟨before, _, rfl⟩ := Option.map_eq_some_iff.mp found
  exact before.ordered_clear

theorem load (proper : model.Proper) (lines : List PolicyLine) : (model.load lines).2.Proper := by
  obtain ⟨well, shapes⟩ := proper.well.load lines
  refine ⟨well, proper.named.congr shapes (model.declarations_load lines), ?_⟩
  exact load_induction lines proper.ordered fun model s type table row found _ ordered =>
    ordered.setTable found ((ordered s type table found).insert row)

end Model.Proper

theorem Model.Prepared.proper {model : Model} (prepared : model.Prepared) : model.Proper :=
  ⟨prepared.wellFormed, prepared.named, prepared.ordered⟩

/-! ## Courses -/

/-- Which changes of rows are permitted with a store and a model. -/
abbrev Permission (σ : Type) := σ → Model → RowSection → String → RowChange → Prop

/-- A store and a model come to others. `saves` tells whether changes are passed on to the store. -/
inductive Course {σ : Type} [PolicyStore σ] (saves : Bool) (permits : Permission σ) :
    σ → Model → σ → Model → Prop where
  | still {model model' : Model} (store : σ) (tables : model.SameTables model')
      (declarations : model.SameDeclarations model') :
      Course saves permits store model store model'
  | trans {store store' store'' : σ} {model model' model'' : Model}
      (first : Course saves permits store model store' model')
      (second : Course saves permits store' model' store'' model'') :
      Course saves permits store model store'' model''
  | change {store : σ} {model model' : Model} {s : RowSection} {type : String} {change : RowChange}
      {delta : RowDelta} (permitted : permits store model s type change)
      (made : model.apply s.key type change = .ok (some delta, model')) :
      Course saves permits store model
        (if saves then (PolicyStore.follow store s type change).2 else store) model'
  | clear (store : σ) (model : Model) :
      Course saves permits store model
        (if saves then (PolicyStore.save store []).2 else store) model.clear
  | load {store : σ} {lines : List PolicyLine} (model : Model)
      (given : PolicyStore.load store = .ok lines) (passed : model.checkLines lines = .ok ()) :
      Course saves permits store model store (model.clear.load lines).2
  | save (store : σ) (model : Model) :
      Course saves permits store model (PolicyStore.save store model.lines).2 model

section

variable {σ : Type} [PolicyStore σ] {saves : Bool} {permits : Permission σ} {store store' : σ}
  {model model' : Model}

theorem Course.refl (store : σ) (model : Model) : Course saves permits store model store model :=
  .still store (.refl model) (.refl model)

theorem Course.proper (course : Course saves permits store model store' model')
    (proper : model.Proper) : model'.Proper := by
  induction course with
  | still _ tables declarations => exact proper.congr tables declarations
  | trans _ _ ih ih' => exact ih' (ih proper)
  | change _ made => exact proper.apply made
  | clear _ model => exact proper.clear
  | load model _ _ => exact proper.clear.load _
  | save => exact proper

end

/-! ## Operations -/

namespace Enforcer

variable {σ κ : Type} [PolicyStore σ] {permits : Permission σ} {e : Enforcer σ κ}

/-- An enforcer has come to another state: its store and its rows by a course. -/
abbrev Goes (permits : Permission σ) (e e' : Enforcer σ κ) : Prop :=
  Course e.settings.autoSave permits e.store e.model e'.store e'.model

theorem goes_afterChanges {e' : Enforcer σ κ} (goes : Goes permits e e')
    (changes : List PolicyChange) : Goes permits e (changes.foldl Enforcer.afterChange e') := by
  induction changes generalizing e' with
  | nil => exact goes
  | cons change rest ih =>
      refine ih ?_
      unfold Goes
      rwa [afterChange_store, afterChange_model]

theorem goes_carryOut {model : Model} {s : RowSection} {type : String} {change : RowChange}
    {delta : RowDelta} (permitted : permits e.store e.model s type change)
    (made : e.model.apply s.key type change = .ok (some delta, model)) :
    Goes permits e (e.carryOut model s type change delta).2 := by
  rw [carryOut_eq]
  exact .trans (.change permitted made)
    (.still _ (Model.tables_follow model _ s type delta) (Model.declarations_follow model _ s type delta))

theorem goes_change (h : e.model.WellFormed) {s : RowSection} {type : String} {change : RowChange}
    (permitted : permits e.store e.model s type change) :
    Goes permits e (e.change s type change).2 := by
  unfold Enforcer.change
  split
  · exact .refl e.store e.model
  · rw [applyChange_eq h]
    split
    · exact .refl e.store e.model
    · exact .refl e.store e.model
    · rename_i made
      exact goes_afterChanges (goes_carryOut permitted made) [_]

section

variable (filtered : ∀ store model s type filter,
  permits store model s type (.removeFiltered filter))
include filtered

theorem goes_applyRemovals (h : e.model.WellFormed) (removals : List Removal) :
    Goes permits e (e.applyRemovals removals).2 := by
  induction removals generalizing e with
  | nil => exact .refl e.store e.model
  | cons removal rest ih =>
      rw [applyRemovals_cons h]
      split
      · exact .refl e.store e.model
      · rename_i removed model made
        obtain ⟨table, table', changed⟩ := h.apply (apply_of_removeFiltered made)
        split
        · exact ih h
        · rename_i some
          have applied := apply_of_removeFiltered made
          simp only [Bool.not_eq_true] at some
          simp only [some, Bool.not_false, RowDelta.ifChanged, if_true] at applied changed
          have first : Goes permits e (e.carryOut model removal.table removal.type
              (.removeFiltered removal.filter) { removed }).2 :=
            goes_carryOut (filtered _ _ _ _ _) applied
          have moved := moved_carryOut (.removeFiltered removal.filter) changed
          have others : Goes permits _ _ := ih (moved.wellFormed h)
          unfold Goes at others
          rw [moved.settings] at others
          have both := first.trans others
          simp only
          split
          · rename_i failed
            rwa [failed] at both
          · rename_i done
            rwa [done] at both

theorem goes_removeTogether (h : e.model.WellFormed) (removals : List Removal) :
    Goes permits e (e.removeTogether removals).2 := by
  unfold removeTogether
  have applied := goes_applyRemovals filtered h removals
  split
  · exact .refl e.store e.model
  · split
    · exact .refl e.store e.model
    · split
      · rename_i failed
        rwa [failed] at applied
      · rename_i done
        rw [done] at applied
        exact goes_afterChanges applied _

end

theorem goes_clearPolicy (h : e.model.WellFormed) : Goes permits e e.clearPolicy.2 := by
  rw [clearPolicy_eq h]
  have cleared : Goes permits e ({ e with model := e.model.clear.buildLinks.2 }.persist fun store =>
      PolicyStore.save store []).2 := by
    rw [persist_snd]
    exact .trans (.clear e.store e.model)
      (.still _ (Model.tables_buildLinks _) h.clear.declarations_buildLinks)
  split
  · exact .refl e.store e.model
  · split
    · rename_i failed
      rwa [failed] at cleared
    · rename_i done
      rw [done] at cleared
      exact goes_afterChanges cleared [_]

theorem goes_loadPolicy (h : e.model.WellFormed) : Goes permits e e.loadPolicy.2 := by
  unfold loadPolicy
  split
  · exact .refl e.store e.model
  · rename_i given
    split
    · exact .refl e.store e.model
    · rw [replaceRows_eq h]
      split
      · exact .refl e.store e.model
      · rename_i passed
        have loaded : Course e.settings.autoSave permits e.store e.model e.store _ :=
          .load e.model given passed
        refine loaded.trans ?_
        simp only [clearCache]
        split
        · exact .still _ (Model.tables_buildLinks _)
            (h.clear.load _).1.declarations_buildLinks
        · exact .refl _ _

theorem goes_savePolicy (e : Enforcer σ κ) : Goes permits e e.savePolicy.2 := by
  have saved : Course e.settings.autoSave permits e.store e.model _ e.model :=
    .save e.store e.model
  unfold savePolicy announce
  split
  · rename_i failed
    rwa [failed] at saved
  · rename_i done
    rw [done] at saved
    split <;> exact saved

/-- An operation makes only changes that are permitted. What a filter picks may always go. -/
def Permitted (permits : Permission σ) (e : Enforcer σ κ) : Operation → Prop
  | .mutate (.rows s type change) => permits e.store e.model s type change
  | _ => True

/-- So do all operations of a run. -/
def RunPermitted [BEq κ] (permits : Permission σ) : Enforcer σ κ → List Operation → Prop
  | _, [] => True
  | e, operation :: rest =>
    e.Permitted permits operation ∧ RunPermitted permits (e.step operation).2 rest

section

variable [BEq κ] (filtered : ∀ store model s type filter,
  permits store model s type (.removeFiltered filter))
include filtered

theorem goes_step (h : e.model.WellFormed) {operation : Operation}
    (permitted : e.Permitted permits operation) : Goes permits e (e.step operation).2 := by
  cases called : operation.callsStore with
  | false =>
      obtain ⟨_, apart⟩ := apart_step h called
      unfold Goes
      rw [apart.store]
      exact .still e.store apart.tables ((moved_step h operation).move.declarations h)
  | true =>
      cases operation with
      | mutate mutation =>
          cases mutation with
          | rows s type change => exact goes_change h permitted
          | deleteUser user => exact goes_removeTogether filtered h _
          | deleteRole role => exact goes_removeTogether filtered h _
          | clearPolicy => exact goes_clearPolicy h
      | loadPolicy => exact goes_loadPolicy h
      | savePolicy => exact goes_savePolicy e
      | buildRoleLinks | addFunction | addNamePredicate | addDomainPredicate | setManager | enable
      | decide | ask | clearCache | wait => cases called

theorem goes_run (h : e.model.WellFormed) {operations : List Operation}
    (permitted : e.RunPermitted permits operations) : Goes permits e (e.run operations).2 := by
  induction operations generalizing e with
  | nil => exact .refl e.store e.model
  | cons operation rest ih =>
      obtain ⟨first, others⟩ := permitted
      have moved := moved_step h operation
      have rest := ih (moved.wellFormed h) others
      unfold Goes at rest
      rw [moved.settings] at rest
      exact (goes_step filtered h first).trans rest

end

/-! ## States that are reached -/

theorem proper_of_resetManagers {model model' : Model} (prepared : model.Prepared) {maxLevel : Nat}
    {types : List String} (reset : Setup.resetManagers maxLevel model types = .ok model') :
    model'.Proper := by
  rw [← resetManagers_eq prepared.wellFormed reset]
  exact prepared.proper.congr (Model.tables_modifyRoles model _ _ fun _ => rfl)
    (Model.declarations_modifyRoles model _ fun _ => rfl)

theorem shapes_of_build {setup : Setup σ κ} {e : Enforcer σ κ}
    (prepared : setup.model.Prepared) (built : setup.build = .ok e) :
    setup.model.SameShapes e.model := by
  obtain ⟨_, model, matchers, reset, _, loaded⟩ := build_eq_ok_iff.mp built
  have well := resetManagers_wellFormed prepared.wellFormed reset
  have moved := moved_loadPolicy (e := { setup.initial model with matchers }) well
  rw [loaded] at moved
  have same : setup.model.SameTables model := by
    rw [← resetManagers_eq prepared.wellFormed reset]
    exact Model.tables_modifyRoles setup.model _ _ fun _ => rfl
  exact same.shapes.trans (moved.shapes well)

/-- The model of an enforcer is proper in every state that it can be in. -/
theorem Reachable.proper [BEq κ] (reachable : e.Reachable) : e.model.Proper := by
  induction reachable with
  | @built setup e prepared built =>
      obtain ⟨_, model, matchers, reset, _, loaded⟩ := build_eq_ok_iff.mp built
      have proper := proper_of_resetManagers prepared reset
      have goes : Goes (fun _ _ _ _ _ => True) { setup.initial model with matchers } _ :=
        goes_loadPolicy proper.well
      rw [loaded] at goes
      exact goes.proper proper
  | @step e operation before ih =>
      have permitted : e.Permitted (fun _ _ _ _ _ => True) operation := by
        unfold Permitted
        split <;> trivial
      exact (goes_step (fun _ _ _ _ _ => trivial) before.wellFormed permitted).proper ih
  | configure | setStore | setWatched | takeAnnounced | takeCalls | read => assumption

end Enforcer

end AccessControl
