import AccessControl.Proofs.Enforcer.Loading
import AccessControl.Proofs.Enforcer.Mirror
import AccessControl.Proofs.Enforcer.RoleLinks
import AccessControl.Proofs.Model.Answers

/-! # Saving and loading again

Rows that are saved in memory come back as they were, for they pass every check that they have passed
before, and rows of one rank are saved in their order. The links are built anew, and answer as before
if they have followed the rows.
-/

namespace AccessControl

/-! ## Loading the same rows -/

namespace Enforcer

variable {σ κ : Type} [PolicyStore σ] {e : Enforcer σ κ}

theorem sameRows_loadPolicy (proper : e.model.Proper) (free : e.access = .ok ())
    {lines : List PolicyLine} (given : PolicyStore.load e.store = .ok lines)
    (admits : ∀ line ∈ lines, e.model.Admits line)
    (settled : ∀ s type table, e.model.table? s type = some table →
      table.arranged (PolicyLine.rowsOf type lines).eraseDups = table.rows) :
    e.model.SameRows e.loadPolicy.2.model := by
  refine .of_tables ((moved_loadPolicy proper.well).shapes proper.well) fun s type table found => ?_
  obtain ⟨table', found', shape, rows⟩ := table?_loadPolicy proper free given admits found
  exact ⟨table', found', shape, rows.trans (settled s type table found)⟩

/-! ## Links that have followed the rows -/

variable [BEq κ]

/-- The states that an enforcer can be in whose links have followed the rows all along, or since they
    were last built anew. -/
inductive Following : Enforcer σ κ → Prop where
  | built {setup : Setup σ κ} {e : Enforcer σ κ} (prepared : setup.model.Prepared)
      (follows : setup.settings.autoBuildRoleLinks = true) (built : setup.build = .ok e) :
      Following e
  | rebuilt {e : Enforcer σ κ} (before : e.Reachable)
      (follows : e.settings.autoBuildRoleLinks = true) (rebuilt : e.buildRoleLinks.1 = .ok ()) :
      Following e.buildRoleLinks.2
  | step {e : Enforcer σ κ} (operation : Operation) (before : Following e) :
      Following (e.step operation).2
  | configure {e : Enforcer σ κ} (settings : Settings)
      (follows : settings.autoBuildRoleLinks = true) (before : Following e) :
      Following (e.configure settings)
  | setStore {e : Enforcer σ κ} (store : σ) (before : Following e) : Following (e.setStore store)
  | setWatched {e : Enforcer σ κ} (before : Following e) : Following e.setWatched
  | takeAnnounced {e : Enforcer σ κ} (before : Following e) : Following e.takeAnnounced.2
  | takeCalls {e : Enforcer σ κ} (before : Following e) : Following e.takeCalls.2
  /-- Somebody begins or ends to read the state. -/
  | read {e : Enforcer σ κ} (beingRead : Bool) (before : Following e) :
      Following { e with beingRead }

theorem Following.reachable (following : e.Following) : e.Reachable := by
  induction following with
  | built prepared _ built => exact .built prepared built
  | rebuilt before _ _ => exact before.step .buildRoleLinks
  | step operation _ ih => exact ih.step operation
  | configure settings _ _ ih => exact ih.configure settings
  | setStore store _ ih => exact ih.setStore store
  | setWatched _ ih => exact ih.setWatched
  | takeAnnounced _ ih => exact ih.takeAnnounced
  | takeCalls _ ih => exact ih.takeCalls
  | read beingRead _ ih => exact ih.read beingRead

theorem exists_inStep_step (h : e.model.WellFormed) (follows : e.settings.autoBuildRoleLinks = true)
    {rules : String → RoleRules} (inStep : e.model.InStep rules) (operation : Operation) :
    ∃ rules', (e.step operation).2.model.InStep rules' := by
  cases access : e.access with
  | ok _ => exact ⟨_, inStep_step h access follows inStep operation⟩
  | error error =>
      refine ⟨rules, ?_⟩
      cases quiet : operation.setsRules with
      | false =>
          have move := (moved_step h operation).move
          rw [quiet, follows] at move
          exact move.inStep h inStep
      | true =>
          have refused (type : String) (change : RoleType → RoleType) :
              (e.changeRole type change).2 = e := by
            unfold changeRole
            rw [access]
          cases operation with
          | addNamePredicate type holds =>
              show (e.changeRole type _).2.model.InStep rules
              rwa [refused]
          | addDomainPredicate type holds =>
              show (e.changeRole type _).2.model.InStep rules
              rwa [refused]
          | setManager type manager =>
              show (e.setManager type manager).2.model.InStep rules
              rwa [setManager_eq h, refused]
          | _ => simp [Operation.setsRules] at quiet

/-- The links are in step whenever they have followed the rows. -/
theorem Following.inStep (following : e.Following) :
    e.settings.autoBuildRoleLinks = true ∧ ∃ rules, e.model.InStep rules := by
  induction following with
  | @built setup e prepared follows built =>
      obtain ⟨settings, _⟩ := build_access prepared built
      exact ⟨settings ▸ follows, _, inStep_build prepared follows built⟩
  | @rebuilt e before follows rebuilt =>
      have h := before.wellFormed
      refine ⟨(moved_buildRoleLinks h).settings ▸ follows, ?_⟩
      obtain ⟨rules, ruled⟩ := e.model.exists_ruled
      have built := buildRoleLinks_eq h
      cases access : e.access with
      | error error =>
          rw [access] at built
          simp [built] at rebuilt
      | ok _ =>
          rw [access] at built
          rw [built]
          exact ⟨rules, ruled.buildLinks h⟩
  | @step e operation before ih =>
      obtain ⟨follows, rules, inStep⟩ := ih
      have h := before.reachable.wellFormed
      exact ⟨(moved_step h operation).settings ▸ follows, exists_inStep_step h follows inStep operation⟩
  | configure _ follows _ ih => exact ⟨follows, ih.2⟩
  | setStore | setWatched | takeAnnounced | takeCalls | read => assumption

omit [BEq κ] in
/-- Where the same rows are loaded and links follow them, all answers stay the same. -/
theorem sameAnswers_loadPolicy (proper : e.model.Proper)
    (follows : e.settings.autoBuildRoleLinks = true) {rules : String → RoleRules}
    (inStep : e.model.InStep rules) (same : e.model.SameRows e.loadPolicy.2.model) :
    e.model.SameAnswers e.loadPolicy.2.model := by
  have moved := moved_loadPolicy proper.well
  have move := moved.move
  rw [follows] at move
  exact same.sameAnswers inStep (move.inStep proper.well inStep) proper.well
    (moved.wellFormed proper.well)

end Enforcer

/-! ## Saving and loading -/

/-- The lines of a model bring its rows back in any model without rows that declares the same. -/
theorem Model.Proper.rows_load_lines {model fresh : Model} (proper : model.Proper)
    (prepared : fresh.Prepared) (rowless : fresh.Rowless) (shapes : fresh.SameShapes model) :
    (∃ count, (fresh.load model.lines).1 = .ok count) ∧
      (fresh.load model.lines).2.rows = model.rows := by
  obtain ⟨loaded, rows⟩ := rowless.load_lines prepared.named prepared.wellFormed shapes proper.named
    proper.well proper.ordered
  have declared : model.SameShapes fresh := fun s type => (shapes s type).symm
  have same : model.SameRows (fresh.load model.lines).2 :=
    .of_tables (declared.trans (prepared.wellFormed.load model.lines).2) rows
  exact ⟨loaded, same.rows⟩

namespace Enforcer

variable {κ : Type} {e : Enforcer MemoryStore κ}

theorem loadPolicy_own_lines (proper : e.model.Proper)
    (follows : e.settings.autoBuildRoleLinks = true) {rules : String → RoleRules}
    (inStep : e.model.InStep rules) (own : e.store = ⟨e.model.lines⟩) :
    e.loadPolicy.1 = e.access ∧ e.model.SameAnswers e.loadPolicy.2.model := by
  have given : PolicyStore.load e.store = .ok e.model.lines := by
    rw [own]
    rfl
  cases access : e.access with
  | error error =>
      have refused : e.loadPolicy = (.error error, e) := by rw [loadPolicy_memory, access]
      have same : e.model.SameRows e.loadPolicy.2.model := by
        rw [refused]
        exact .refl e.model
      exact ⟨by rw [refused], sameAnswers_loadPolicy proper follows inStep same⟩
  | ok _ =>
      have admits := proper.named.admits_lines proper.well
      have same : e.model.SameRows e.loadPolicy.2.model :=
        sameRows_loadPolicy proper access given admits fun s type table found => by
          rw [proper.named.rowsOf_lines found]
          exact Model.arranged_rows (proper.well.tables s type table found)
            (proper.ordered s type table found)
      exact ⟨by rw [loadPolicy_of_admits proper access given admits],
        sameAnswers_loadPolicy proper follows inStep same⟩

/-- To save the rows in memory and to load them again leaves all rows in their places, and all answers
    to questions about roles as they were; loading fails only if somebody reads the state for too
    long. The lines of a model bring its rows back in a fresh model of the same definitions, too. -/
theorem load_saved [BEq κ] (following : e.Following) :
    (e.savePolicy.1 = .ok () ∧ e.savePolicy.2.loadPolicy.1 = e.access ∧
        e.model.SameAnswers e.savePolicy.2.loadPolicy.2.model) ∧
      ∀ model, model = e.model ∨ model.Prepared → ∀ definitions fresh,
        Model.ofDefinitions definitions = .ok fresh → fresh.SameShapes model →
          (∃ count, (fresh.load model.lines).1 = .ok count) ∧
            (fresh.load model.lines).2.rows = model.rows := by
  have proper := following.reachable.proper
  constructor
  · obtain ⟨follows, rules, inStep⟩ := following.inStep
    obtain ⟨done, store, model⟩ := savePolicy_memory e
    have moved := moved_savePolicy e
    obtain ⟨loaded, answers⟩ := loadPolicy_own_lines (model ▸ proper) (moved.settings ▸ follows)
      (model ▸ inStep) (model ▸ store)
    exact ⟨done, loaded.trans moved.access, model ▸ answers⟩
  · intro model origin definitions fresh read shapes
    have proper : model.Proper := by
      rcases origin with rfl | prepared
      · exact proper
      · exact prepared.proper
    exact proper.rows_load_lines (.ofDefinitions read) (Model.rowless_ofDefinitions read) shapes

/-! ## A guest who comes late -/

/-- A guest of a rank that another one has already. -/
def latecomer : Operation := .mutate (.rows .policy "p" (.add ["dave", "9.5", "allow"]))

/-- The late guest stays behind the other one of that rank. -/
theorem load_saved_latecomer :
    let late := (rankedGuests.enforcer.step latecomer).2
    let again := late.savePolicy.2.loadPolicy
    let rows := [["bob", "9.5", "deny"], ["dave", "9.5", "allow"], ["alice", "10", "allow"],
      ["carol", "10", "deny"]]
    again.1 = .ok () ∧ again.2.model.rows "p" "p" = rows ∧
      again.2.model.hasLink "g" "alice" "staff" none = true ∧
      (Model.ranked.load late.model.lines).2.rows "p" "p" = rows := by
  have built : rankedGuests.build = .ok rankedGuests.enforcer :=
    Setup.build_eq_enforcer (by decide +kernel)
  have prepared : Model.ranked.Prepared := .ofDefinitions Model.ofDefinitions_ranked
  have first : rankedGuests.enforcer.Following := .built prepared rfl built
  have moved := moved_step first.reachable.wellFormed latecomer
  have shapes := (shapes_of_build prepared built).trans (moved.shapes first.reachable.wellFormed)
  have rows : (rankedGuests.enforcer.step latecomer).2.model.rows "p" "p" =
      [["bob", "9.5", "deny"], ["dave", "9.5", "allow"], ["alice", "10", "allow"],
        ["carol", "10", "deny"]] := by decide +kernel
  have linked : (rankedGuests.enforcer.step latecomer).2.model.hasLink "g" "alice" "staff" none =
      true := by decide +kernel
  have free : (rankedGuests.enforcer.step latecomer).2.access = .ok () := by
    rw [moved.access, (build_access prepared built).2]
  obtain ⟨⟨_, loaded, answers⟩, fresh⟩ := load_saved (first.step latecomer)
  obtain ⟨_, same⟩ := fresh _ (.inl rfl) _ _ Model.ofDefinitions_ranked shapes
  refine ⟨loaded.trans free, ?_, ?_, ?_⟩
  · rw [answers.rows, rows]
  · rw [answers.hasLink, linked]
  · rw [same, rows]

end Enforcer

end AccessControl
