import AccessControl.Proofs.Enforcer.RoundTrip
import AccessControl.Proofs.Enforcer.Uncached
import AccessControl.Proofs.Storage.Order

/-! # Reloading

A store in memory that changes are passed on to holds the rows of each rank in their order, except
where rows have taken the place of others and now stand elsewhere than in the store. As long as no
change has led to that, to load the rows again moves none of them, and so no decision changes.
-/

namespace AccessControl

/-- A store holds the rows of every declared type, those of each rank in their order, and no others. -/
structure MemoryStore.Arranges (store : MemoryStore) (model : Model) : Prop where
  agree : ∀ s type table, model.table? s type = some table →
    table.Agree (store.rowsOf type) table.rows
  declared : ∀ line ∈ store.lines, ∃ s table, model.table? s line.type = some table

/-- Changes that, where they change anything, settle the order of the rows in the table as in the
    store. -/
def MemoryStore.Settles : Permission MemoryStore := fun store model s type change =>
  ∀ table delta table', model.table? s type = some table →
    table.apply change = .ok (some delta, table') → table.Settles (store.rowsOf type) change

namespace MemoryStore.Arranges

variable {store : MemoryStore} {model model' : Model}

theorem congr (arranges : store.Arranges model) (same : model.SameTables model') :
    store.Arranges model' where
  agree s type table found := arranges.agree s type table (by rw [← same s type, found])
  declared line member := by
    obtain ⟨s, table, found⟩ := arranges.declared line member
    exact ⟨s, table, (same s line.type).trans found⟩

theorem distinct (arranges : store.Arranges model) (h : model.WellFormed) {s : RowSection}
    {type : String} {table : RowTable} (found : model.table? s type = some table) :
    (store.rowsOf type).Nodup :=
  (arranges.agree s type table found).perm.nodup_iff.mpr (h.tables s type table found).nodup

theorem admits (arranges : store.Arranges model) (h : model.WellFormed) :
    ∀ line ∈ store.lines, model.Admits line := by
  intro line member
  obtain ⟨s, table, found⟩ := arranges.declared line member
  have stored := ((arranges.agree s line.type table found).mem_iff line.row).mp
    (PolicyLine.mem_rowsOf.mpr member)
  exact ⟨s, table, found, (h.tables s line.type table found).arity line.row stored⟩

theorem arranged (arranges : store.Arranges model) (proper : model.Proper) {s : RowSection}
    {type : String} {table : RowTable} (found : model.table? s type = some table) :
    table.arranged (store.rowsOf type).eraseDups = table.rows := by
  rw [← RowTable.foldl_appendNew,
    RowTable.foldl_appendNew_of_nodup (arranges.distinct proper.well found), List.nil_append]
  exact (arranges.agree s type table found).arranged_eq
    (RowTable.ordered_iff.mp (proper.ordered s type table found))

/-! ## Steps -/

/-- A store that follows a change that settles still arranges the rows. -/
theorem follow (arranges : store.Arranges model) (proper : model.Proper) {s : RowSection}
    {type : String} {change : RowChange} {delta : RowDelta}
    (settles : MemoryStore.Settles store model s type change)
    (made : model.apply s.key type change = .ok (some delta, model')) :
    (store.follow type change).2.Arranges model' := by
  have paired := Model.paired_of_apply made
  obtain ⟨table, table', found, applied, rfl⟩ := Model.apply_eq_ok made
  have outcome := (proper.well.tables s type table found).apply applied
  have followed := (MemoryStore.follow_agree_iff (proper.well.tables s type table found)
    (proper.ordered s type table found) (arranges.agree s type table found) paired applied).mpr
    (settles table delta table' found applied)
  have shapes := Model.shapes_setTable found outcome.shape
  constructor
  · intro s' type' other found'
    rw [Model.table?_setTable, found] at found'
    split at found'
    · rename_i here
      obtain ⟨rfl, rfl⟩ := here
      obtain rfl := Option.some.inj found'
      exact outcome.shape.agree.mpr followed
    · rename_i elsewhere
      have differ : type' ≠ type := by
        rintro rfl
        exact elsewhere ⟨proper.named.section_eq found' found, rfl⟩
      rw [MemoryStore.rowsOf_follow_other differ change]
      exact arranges.agree s' type' other found'
  · intro line member
    by_cases here : line.type = type
    · obtain ⟨table'', found'', _⟩ := shapes.table? found
      exact ⟨s, table'', here ▸ found''⟩
    · have stored : line.row ∈ (store.follow type change).2.rowsOf line.type :=
        PolicyLine.mem_rowsOf.mpr member
      rw [MemoryStore.rowsOf_follow_other here change] at stored
      obtain ⟨s', other, found'⟩ := arranges.declared line (PolicyLine.mem_rowsOf.mp stored)
      obtain ⟨other', found'', _⟩ := shapes.table? found'
      exact ⟨s', other', found''⟩

theorem follow_iff (arranges : store.Arranges model) (proper : model.Proper) {s : RowSection}
    {type : String} {change : RowChange} {delta : RowDelta}
    (made : model.apply s.key type change = .ok (some delta, model')) :
    (store.follow type change).2.Arranges model' ↔
      MemoryStore.Settles store model s type change := by
  refine ⟨fun after table delta' table' found applied => ?_, fun settles =>
    arranges.follow proper settles made⟩
  obtain ⟨_, other, found', applied', rfl⟩ := Model.apply_eq_ok made
  obtain rfl := Option.some.inj (found.symm.trans found')
  obtain ⟨_, rfl⟩ := Prod.mk.inj (Except.ok.inj (applied.symm.trans applied'))
  have well := proper.well.tables s type table found
  have placed : (model.setTable s type table').table? s type = some table' := by
    rw [Model.table?_setTable, found, if_pos ⟨rfl, rfl⟩, Option.map_some]
  exact (MemoryStore.follow_agree_iff well (proper.ordered s type table found)
    (arranges.agree s type table found) (Model.paired_of_apply made) applied).mp
    ((well.apply applied).shape.agree.mp (after.agree s type table' placed))

theorem clear (model : Model) : Arranges ⟨[]⟩ model.clear where
  agree s type table found := by
    rw [Model.table?_clear] at found
    obtain ⟨before, _, rfl⟩ := Option.map_eq_some_iff.mp found
    exact .refl _ []
  declared line member := by simp at member

theorem load (proper : model.Proper) {u : Unit} (passed : model.checkLines store.lines = .ok u)
    (distinct : ∀ s type table, model.table? s type = some table → (store.rowsOf type).Nodup) :
    store.Arranges (model.clear.load store.lines).2 := by
  have shapes : model.SameShapes (model.clear.load store.lines).2 :=
    model.shapes_clear.trans (proper.well.clear.load store.lines).2
  constructor
  · intro s type table found
    obtain ⟨before, found', _⟩ :=
      Model.SameShapes.table? (fun s type => (shapes s type).symm) found
    obtain ⟨table', loaded, shape, rows⟩ :=
      proper.named.table?_clear_load proper.well passed found'
    obtain rfl := Option.some.inj (found.symm.trans loaded)
    rw [← RowTable.foldl_appendNew,
      RowTable.foldl_appendNew_of_nodup (distinct s type before found'), List.nil_append] at rows
    rw [rows, shape.agree]
    exact (before.agree_arranged _).symm
  · intro line member
    obtain ⟨s, table, found, _⟩ := proper.named.checkLines_eq_ok_iff.mp passed line member
    obtain ⟨table', found', _⟩ := shapes.table? found
    exact ⟨s, table', found'⟩

theorem save (proper : model.Proper) : Arranges ⟨model.lines⟩ model where
  agree s type table found := by
    have rows : MemoryStore.rowsOf ⟨model.lines⟩ type = table.rows :=
      proper.named.rowsOf_lines found
    rw [rows]
    exact .refl table table.rows
  declared line member := by
    obtain ⟨s, table, found, _⟩ := proper.named.admits_lines proper.well line member
    exact ⟨s, table, found⟩

/-- Every course of changes that settle leaves the rows arranged. -/
theorem course {store' : MemoryStore} (arranges : store.Arranges model) (proper : model.Proper)
    (course : Course true MemoryStore.Settles store model store' model') :
    store'.Arranges model' := by
  induction course with
  | still _ tables _ => exact arranges.congr tables
  | trans first _ ih ih' => exact ih' (ih arranges proper) (first.proper proper)
  | change permitted made => exact arranges.follow proper permitted made
  | clear _ model => exact .clear model
  | @load store lines model given passed =>
      obtain rfl := Except.ok.inj given
      exact .load proper passed fun _ _ _ found => arranges.distinct proper.well found
  | save _ model => exact .save proper

end MemoryStore.Arranges

namespace Enforcer

variable {κ : Type}

theorem arranges_of_build {setup : Setup MemoryStore κ} {e : Enforcer MemoryStore κ}
    (prepared : setup.model.Prepared) (distinct : setup.store.lines.Nodup)
    (built : setup.build = .ok e) : e.store.Arranges e.model := by
  obtain ⟨_, model, matchers, reset, _, loaded⟩ := build_eq_ok_iff.mp built
  have proper := proper_of_resetManagers prepared reset
  rw [loadPolicy_memory] at loaded
  split at loaded
  · simp at loaded
  · rw [replaceRows_eq proper.well] at loaded
    split at loaded
    · simp at loaded
    · rename_i passed
      obtain ⟨_, rfl⟩ := Prod.mk.inj loaded
      have arranges : setup.store.Arranges (model.clear.load setup.store.lines).2 :=
        .load proper passed fun _ type _ _ => PolicyLine.nodup_rowsOf distinct type
      show setup.store.Arranges (if setup.settings.autoBuildRoleLinks = true then _ else _)
      split
      · exact arranges.congr (Model.tables_buildLinks _)
      · exact arranges

/-- Where the store arranges the rows and links follow them, to load them again changes no decision. -/
theorem decide_loadPolicy [BEq κ] {e : Enforcer MemoryStore κ} (proper : e.model.Proper)
    (free : e.access = .ok ()) (follows : e.settings.autoBuildRoleLinks = true)
    {rules : String → RoleRules} (inStep : e.model.InStep rules) (uncached : e.cache = none)
    (arranges : e.store.Arranges e.model) :
    e.loadPolicy.1 = .ok () ∧ ∀ context given request,
      (e.loadPolicy.2.decide context given request).1 = (e.decide context given request).1 := by
  have given : PolicyStore.load e.store = .ok e.store.lines := rfl
  have admits := arranges.admits proper.well
  have loaded := loadPolicy_of_admits proper free given admits
  have same := sameRows_loadPolicy proper free given admits fun s type table found =>
    arranges.arranged proper found
  have answers := sameAnswers_loadPolicy proper follows inStep same
  have declarations := (moved_loadPolicy proper.well).move.declarations proper.well
  have effects : e.loadPolicy.2.model.effects = e.model.effects := by
    rw [loaded, follows]
    have well := (proper.well.clear.load e.store.lines).1
    exact well.effects_buildLinks.trans (Model.effects_load e.model.clear e.store.lines)
  have evaluate : e.loadPolicy.2.model.evaluate = e.model.evaluate := by
    funext context matcher request
    unfold Model.evaluate
    rw [answers.hasLink, same.evaluateWith declarations.requests effects]
  refine ⟨by rw [loaded], fun context given request => ?_⟩
  exact decide_congr uncached (cache_loadPolicy uncached) (by rw [loaded]; rfl)
    (by rw [loaded]; rfl) (by rw [loaded]; rfl) declarations evaluate context given request

/-- Over a store in memory with distinct lines, loading changes no decision after any run whose
    changes settle the order of the rows in the table as in the store. -/
theorem run_reload_decides [BEq κ] {setup : Setup MemoryStore κ} {e : Enforcer MemoryStore κ}
    (prepared : setup.model.Prepared) (saves : setup.settings.autoSave = true)
    (follows : setup.settings.autoBuildRoleLinks = true) (uncached : setup.cache = none)
    (distinct : setup.store.lines.Nodup) (built : setup.build = .ok e)
    {operations : List Operation} (settled : e.RunPermitted MemoryStore.Settles operations) :
    (e.run operations).2.loadPolicy.1 = .ok () ∧ ∀ context given request,
      ((e.run operations).2.loadPolicy.2.decide context given request).1 =
        ((e.run operations).2.decide context given request).1 := by
  have reachable : e.Reachable := .built prepared built
  obtain ⟨settings, free⟩ := build_access prepared built
  have h := reachable.wellFormed
  have bare : e.cache = none := by
    obtain ⟨_, model, matchers, _, _, loaded⟩ := build_eq_ok_iff.mp built
    have kept := cache_loadPolicy (e := { setup.initial model with matchers }) uncached
    rwa [loaded] at kept
  have moved := moved_run h operations
  have goes : Goes MemoryStore.Settles e (e.run operations).2 :=
    goes_run (fun _ _ _ _ _ _ _ _ _ _ => trivial) h settled
  unfold Goes at goes
  rw [settings, saves] at goes
  exact decide_loadPolicy (reachable_run reachable operations).proper (moved.access.trans free)
    (moved.settings ▸ settings ▸ follows)
    (inStep_run h free (settings ▸ follows) (inStep_build prepared follows built) operations)
    (cache_run bare operations)
    ((arranges_of_build prepared distinct built).course reachable.proper goes)

/-! ## Permissions that take the place of others -/

/-- A model in which the first row of a guest decides. -/
def firstMatch : Setup MemoryStore (List UInt8) :=
  let definitions :=
    [("r", "r", "sub"), ("p", "p", "sub, obj, eft"), ("e", "e", EffectKind.priority.expression),
      ("m", "m", "r.sub == p.sub")]
  { model := (Model.ofDefinitions definitions).toOption.getD {}
    store := {}
    digest := id }

theorem prepared_firstMatch : firstMatch.model.Prepared := by
  unfold firstMatch
  simp only
  exact .ofDefinitions_getD _

/-- Alice is allowed one thing and denied another one; then one row takes the place of another. -/
def replacement (old new : Row) : List Operation :=
  [.mutate (.rows .policy "p" (.add ["alice", "a", "allow"])),
    .mutate (.rows .policy "p" (.add ["alice", "b", "deny"])),
    .mutate (.rows .policy "p" (.updateMany [old] [new]))]

/-- Where the last row makes way, the first one decides before and after loading. -/
theorem run_reload_decides_last :
    let after := (firstMatch.enforcer.run
      (replacement ["alice", "b", "deny"] ["alice", "c", "deny"])).2
    after.loadPolicy.1 = .ok () ∧
      (after.loadPolicy.2.decide .plain none [.str "alice"]).1.toOption =
        some { allowed := true, explain := [["alice", "a", "allow"]] } := by
  have built : firstMatch.build = .ok firstMatch.enforcer :=
    Setup.build_eq_enforcer (by decide +kernel)
  have decided : ((firstMatch.enforcer.run
      (replacement ["alice", "b", "deny"] ["alice", "c", "deny"])).2.decide .plain none
        [.str "alice"]).1.toOption =
      some { allowed := true, explain := [["alice", "a", "allow"]] } := by decide +kernel
  let before := (firstMatch.enforcer.run
    [.mutate (.rows .policy "p" (.add ["alice", "a", "allow"])),
      .mutate (.rows .policy "p" (.add ["alice", "b", "deny"]))]).2
  have last : MemoryStore.Settles before.store before.model .policy "p"
      (.updateMany [["alice", "b", "deny"]] [["alice", "c", "deny"]]) := by
    have settles : (before.model.table? .policy "p").all (fun table => Decidable.decide
        (table.Settles (before.store.rowsOf "p")
          (.updateMany [["alice", "b", "deny"]] [["alice", "c", "deny"]]))) = true := by
      decide +kernel
    intro table _ _ found _
    rw [found] at settles
    exact of_decide_eq_true settles
  have settled : firstMatch.enforcer.RunPermitted MemoryStore.Settles
      (replacement ["alice", "b", "deny"] ["alice", "c", "deny"]) :=
    ⟨fun _ _ _ _ _ => trivial, fun _ _ _ _ _ => trivial, last, trivial⟩
  obtain ⟨loaded, same⟩ :=
    run_reload_decides prepared_firstMatch rfl rfl rfl List.nodup_nil built settled
  exact ⟨loaded, by rw [same, decided]⟩

/-- Where the first row makes way, the table puts the new one last and the store leaves it first. So
    Alice is not let in before loading, and is let in after it. -/
theorem reload_lets_in :
    let run := firstMatch.enforcer.run
      (replacement ["alice", "a", "allow"] ["alice", "c", "allow"])
    firstMatch.build = .ok firstMatch.enforcer ∧ firstMatch.settings.autoSave = true ∧
      firstMatch.settings.autoBuildRoleLinks = true ∧ firstMatch.cache = none ∧
      firstMatch.store.lines.Nodup ∧
      run.1 = [.changed (.ok true), .changed (.ok true), .changed (.ok true)] ∧
      (run.2.decide .plain none [.str "alice"]).1.toOption =
        some { allowed := false, explain := [["alice", "b", "deny"]] } ∧
      run.2.loadPolicy.1 = .ok () ∧
      (run.2.loadPolicy.2.decide .plain none [.str "alice"]).1.toOption =
        some { allowed := true, explain := [["alice", "c", "allow"]] } := by
  refine ⟨Setup.build_eq_enforcer (by decide +kernel), rfl, rfl, rfl, List.nodup_nil, ?_,
    by decide +kernel, ?_, by decide +kernel⟩
  · rfl
  · rfl

end Enforcer

end AccessControl
