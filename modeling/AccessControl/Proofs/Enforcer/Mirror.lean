import AccessControl.Proofs.Enforcer.Apart
import AccessControl.Proofs.Model.Named

/-! # A store in memory mirrors the rows

An enforcer that passes its changes on to a store in memory finds there, at any time, the rows of
every type, though perhaps in another order. The store never fails it.
-/

namespace AccessControl

/-! ## Rows in the store -/

/-- A store holds the rows of every declared type, in some order. -/
def MemoryStore.Mirrors (store : MemoryStore) (model : Model) : Prop :=
  ∀ s type table, model.table? s type = some table → (store.rowsOf type).Perm table.rows

namespace MemoryStore.Mirrors

variable {store : MemoryStore} {model model' : Model}

theorem congr (mirrors : store.Mirrors model) (same : model.SameTables model') :
    store.Mirrors model' :=
  fun s type table found => mirrors s type table (by rw [← same s type, found])

theorem follow (mirrors : store.Mirrors model) (named : model.Named) (h : model.WellFormed)
    {s : RowSection} {type : String} {change : RowChange} {delta : RowDelta}
    (made : model.apply s.key type change = .ok (some delta, model')) :
    (store.follow type change).1 = .ok () ∧ (store.follow type change).2.Mirrors model' := by
  have paired := Model.paired_of_apply made
  obtain ⟨table, table', found, applied, rfl⟩ := Model.apply_eq_ok made
  obtain ⟨done, placed⟩ := MemoryStore.follow_perm (h.tables s type table found)
    (mirrors s type table found) paired applied
  refine ⟨done, fun s' type' other found' => ?_⟩
  rw [Model.table?_setTable, found] at found'
  split at found'
  · rename_i here
    obtain ⟨rfl, rfl⟩ := here
    exact Option.some.inj found' ▸ placed
  · rename_i elsewhere
    have differ : type' ≠ type := by
      rintro rfl
      exact elsewhere ⟨named.section_eq found' found, rfl⟩
    rw [MemoryStore.rowsOf_follow_other differ change]
    exact mirrors s' type' other found'

/-- Lines that take the place of all rows are mirrored, if no row of a type comes twice. -/
theorem load (named : model.Named) (h : model.WellFormed) {u : Unit}
    (passed : model.checkLines store.lines = .ok u)
    (distinct : ∀ s type table, model.table? s type = some table → (store.rowsOf type).Nodup) :
    store.Mirrors (model.clear.load store.lines).2 := by
  intro s type table found
  have shapes := model.shapes_clear
  obtain ⟨count, loaded⟩ := Model.load_fst passed shapes
  obtain ⟨cleared, found', _⟩ := Model.SameShapes.table?
    (fun s type => ((h.clear.load store.lines).2 s type).symm) found
  rw [Model.table?_clear] at found'
  obtain ⟨before, declared, rfl⟩ := Option.map_eq_some_iff.mp found'
  have clean := distinct s type before declared
  rw [← List.append_nil (store.rowsOf type)] at clean
  obtain ⟨table', found'', same⟩ := (named.congr shapes model.declarations_clear).load_perm h.clear
    loaded ((model.table?_clear s type).trans (congrArg _ declared)) clean
  obtain rfl := Option.some.inj (found.symm.trans found'')
  exact (List.append_nil (store.rowsOf type) ▸ same).symm

end MemoryStore.Mirrors

namespace Enforcer

variable {κ : Type}

/-- An enforcer passes its changes on to a store that mirrors its rows. -/
structure Mirroring (e : Enforcer MemoryStore κ) : Prop where
  well : e.model.WellFormed
  named : e.model.Named
  saves : e.settings.autoSave = true
  rows : e.store.Mirrors e.model

theorem loadPolicy_memory (e : Enforcer MemoryStore κ) :
    e.loadPolicy =
      match e.access with
      | .error error => (.error error, e)
      | .ok () => e.replaceRows e.store.lines := rfl

theorem savePolicy_memory (e : Enforcer MemoryStore κ) : e.savePolicy.1 = .ok () ∧
    e.savePolicy.2.store = ⟨e.model.lines⟩ ∧ e.savePolicy.2.model = e.model := by
  have saved : e.savePolicy = (.ok (),
      ({ e with store := ⟨e.model.lines⟩ } : Enforcer MemoryStore κ).announce .saved) := rfl
  rw [saved]
  unfold announce
  split <;> exact ⟨rfl, rfl, rfl⟩

theorem loadPolicy_mirrors {e : Enforcer MemoryStore κ} (h : e.model.WellFormed)
    (named : e.model.Named) (distinct : ∀ s type table, e.model.table? s type = some table →
      (e.store.rowsOf type).Nodup) :
    (∃ error, e.loadPolicy = (.error error, e) ∧ error.store? = none) ∨
      e.loadPolicy.1 = .ok () ∧ e.loadPolicy.2.store.Mirrors e.loadPolicy.2.model := by
  rw [loadPolicy_memory, replaceRows_eq h]
  cases refused : e.access with
  | error error => exact .inl ⟨error, rfl, store?_of_access refused⟩
  | ok _ =>
      cases passed : e.model.checkLines e.store.lines with
      | error error => exact .inl ⟨error, rfl, Model.store?_of_checkLines passed⟩
      | ok _ =>
          have loaded := MemoryStore.Mirrors.load named h passed distinct
          refine .inr ⟨rfl, ?_⟩
          show e.store.Mirrors (if e.settings.autoBuildRoleLinks = true then _ else _)
          split
          · exact loaded.congr (Model.tables_buildLinks _)
          · exact loaded

namespace Mirroring

variable {e e' : Enforcer MemoryStore κ} (m : e.Mirroring)
include m

theorem moved {rules : Bool} (moved : Moved rules e e') (rows : e'.store.Mirrors e'.model) :
    e'.Mirroring where
  well := moved.wellFormed m.well
  named := m.named.congr (moved.shapes m.well) (moved.move.declarations m.well)
  saves := moved.settings ▸ m.saves
  rows := rows

theorem afterChange (change : PolicyChange) : (e.afterChange change).Mirroring := by
  have still : Moved false e (e.afterChange change) :=
    .still (afterChange_model e change) (afterChange_settings e change)
      (afterChange_beingRead e change)
  refine m.moved still ?_
  rw [afterChange_store, afterChange_model]
  exact m.rows

theorem afterChanges (changes : List PolicyChange) :
    (changes.foldl Enforcer.afterChange e).Mirroring := by
  induction changes generalizing e with
  | nil => exact m
  | cons change rest ih => exact ih (m.afterChange change)

/-! ## Changing rows -/

theorem carryOut {model : Model} {s : RowSection} {type : String} {change : RowChange}
    {delta : RowDelta} (made : e.model.apply s.key type change = .ok (some delta, model)) :
    ∃ e', e.carryOut model s type change delta = (.ok (), e') ∧ e'.Mirroring ∧
      e.model.SameShapes e'.model := by
  obtain ⟨done, followed⟩ := m.rows.follow m.named m.well made
  obtain ⟨table, table', changed⟩ := m.well.apply made
  have carried := e.carryOut_eq model s type change delta
  have quiet : failuresOf (PolicyStore.follow e.store s type change).1 = [] := by
    show failuresOf (e.store.follow type change).1 = []
    rw [done]
    rfl
  rw [m.saves, if_pos rfl, if_pos rfl, quiet] at carried
  have moved := moved_carryOut change changed
  rw [carried] at moved
  refine ⟨_, carried, m.moved moved ?_, moved.shapes m.well⟩
  exact followed.congr (Model.tables_follow model _ s type delta)

theorem applyChange (s : RowSection) (type : String) (change : RowChange) :
    (Answer.changed (e.applyChange s type change).1).storeError? = none ∧
      (e.applyChange s type change).2.Mirroring := by
  rw [applyChange_eq m.well]
  cases made : e.model.apply s.key type change with
  | error error => exact ⟨Model.store?_of_apply made, m⟩
  | ok outcome =>
      obtain ⟨delta?, model⟩ := outcome
      cases delta? with
      | none => exact ⟨rfl, m⟩
      | some delta =>
          obtain ⟨e', carried, m', _⟩ := m.carryOut made
          simp only [carried]
          exact ⟨rfl, m'.afterChange _⟩

theorem applyRemovals {removals : List Removal} (declares : Declares e.model removals) :
    ∃ changes e', e.applyRemovals removals = (.ok (.ok (), changes), e') ∧ e'.Mirroring := by
  induction removals generalizing e with
  | nil => exact ⟨[], e, rfl, m⟩
  | cons removal rest ih =>
      obtain ⟨⟨table, found⟩, others⟩ := List.forall_mem_cons.mp declares
      obtain ⟨removed, model, made⟩ := removeFiltered_eq_ok found removal.filter
      rw [applyRemovals_cons m.well, made]
      simp only
      cases none : removed.isEmpty with
      | true =>
          rw [if_pos rfl]
          exact ih m others
      | false =>
          have applied := apply_of_removeFiltered made
          rw [none] at applied
          obtain ⟨e', carried, m', shapes⟩ := m.carryOut applied
          obtain ⟨changes, last, removed', done⟩ := ih m' (Declares.congr others shapes)
          rw [if_neg (by simp), carried]
          simp only
          rw [removed']
          exact ⟨_, last, rfl, done⟩

theorem removeTogether (removals : List Removal) :
    (Answer.changed (e.removeTogether removals).1).storeError? = none ∧
      (e.removeTogether removals).2.Mirroring := by
  unfold Enforcer.removeTogether
  cases refused : e.access with
  | error error => exact ⟨store?_of_access refused, m⟩
  | ok _ =>
      simp only
      cases checked : e.checkRemovals removals with
      | error error => exact ⟨store?_of_checkRemovals checked, m⟩
      | ok _ =>
          obtain ⟨changes, e', removed, m'⟩ := m.applyRemovals (declares_of_checkRemovals checked)
          simp only [removed]
          exact ⟨rfl, m'.afterChanges changes⟩

theorem clearPolicy :
    (Answer.done e.clearPolicy.1).storeError? = none ∧ e.clearPolicy.2.Mirroring := by
  have moved := moved_clearPolicy m.well
  cases refused : e.access with
  | error error =>
      have kept : e.clearPolicy = (.error error, e) := by rw [clearPolicy_eq m.well, refused]
      rw [kept]
      exact ⟨store?_of_access refused, m⟩
  | ok _ =>
      have cleared : e.clearPolicy = (.ok (),
          ({ e with model := e.model.clear.buildLinks.2, store := ⟨[]⟩ } :
            Enforcer MemoryStore κ).afterChange .cleared) := by
        rw [clearPolicy_eq m.well, refused]
        simp only [persist_eq, m.saves, if_true]
        rfl
      rw [cleared] at moved ⊢
      refine ⟨rfl, m.moved moved ?_⟩
      rw [afterChange_store, afterChange_model]
      intro s type table found
      rw [Model.tables_buildLinks e.model.clear s type, Model.table?_clear] at found
      obtain ⟨before, _, rfl⟩ := Option.map_eq_some_iff.mp found
      exact .refl _

theorem mutate (mutation : Mutation) :
    (Answer.changed (e.mutate mutation).1).storeError? = none ∧ (e.mutate mutation).2.Mirroring := by
  cases mutation with
  | rows s type change =>
      show (Answer.changed (e.change s type change).1).storeError? = none ∧
        (e.change s type change).2.Mirroring
      unfold Enforcer.change
      cases refused : e.access with
      | error error => exact ⟨store?_of_access refused, m⟩
      | ok _ => exact m.applyChange s type change
  | deleteUser user => exact m.removeTogether _
  | deleteRole role => exact m.removeTogether _
  | clearPolicy =>
      obtain ⟨quiet, cleared⟩ := m.clearPolicy
      refine ⟨?_, cleared⟩
      unfold Enforcer.mutate
      simp only
      cases answered : e.clearPolicy.1 with
      | error error => rwa [answered] at quiet
      | ok _ => rfl

/-! ## Loading and saving -/

theorem savePolicy :
    (Answer.done e.savePolicy.1).storeError? = none ∧ e.savePolicy.2.Mirroring := by
  obtain ⟨done, store, model⟩ := savePolicy_memory e
  rw [done]
  refine ⟨rfl, m.moved (moved_savePolicy e) ?_⟩
  rw [store, model]
  exact fun s type table found => .of_eq (m.named.rowsOf_lines found)

theorem loadPolicy :
    (Answer.done e.loadPolicy.1).storeError? = none ∧ e.loadPolicy.2.Mirroring := by
  have moved := moved_loadPolicy m.well
  have distinct : ∀ s type table, e.model.table? s type = some table →
      (e.store.rowsOf type).Nodup := fun s type table found =>
    (m.rows s type table found).nodup_iff.mpr (m.well.tables s type table found).nodup
  rcases loadPolicy_mirrors m.well m.named distinct with ⟨error, kept, other⟩ | ⟨loaded, rows⟩
  · rw [kept]
    exact ⟨other, m⟩
  · rw [loaded]
    exact ⟨rfl, m.moved moved rows⟩

/-! ## Runs -/

variable [BEq κ]

/-- Every operation leaves the rows mirrored, and answers no error of the store. -/
theorem step (operation : Operation) :
    (e.step operation).1.storeError? = none ∧ (e.step operation).2.Mirroring := by
  cases called : operation.callsStore with
  | false =>
      obtain ⟨quiet, apart⟩ := apart_step m.well called
      exact ⟨quiet, m.moved (moved_step m.well operation)
        (apart.store ▸ m.rows.congr apart.tables)⟩
  | true =>
      cases operation with
      | mutate mutation => exact m.mutate mutation
      | loadPolicy => exact m.loadPolicy
      | savePolicy => exact m.savePolicy
      | buildRoleLinks | addFunction | addNamePredicate | addDomainPredicate | setManager | enable
      | decide | ask | clearCache | wait => cases called

theorem run (operations : List Operation) :
    (∀ answer ∈ (e.run operations).1, answer.storeError? = none) ∧
      (e.run operations).2.Mirroring := by
  induction operations generalizing e with
  | nil => exact ⟨by simp [Enforcer.run], m⟩
  | cons operation rest ih =>
      obtain ⟨quiet, stepped⟩ := m.step operation
      obtain ⟨others, done⟩ := ih stepped
      exact ⟨List.forall_mem_cons.mpr ⟨quiet, others⟩, done⟩

end Mirroring

theorem mirroring_of_build {setup : Setup MemoryStore κ} {e : Enforcer MemoryStore κ}
    (prepared : setup.model.Prepared) (saves : setup.settings.autoSave = true)
    (distinct : setup.store.lines.Nodup) (built : setup.build = .ok e) : e.Mirroring := by
  obtain ⟨_, model, matchers, reset, _, loaded⟩ := build_eq_ok_iff.mp built
  have well := resetManagers_wellFormed prepared.wellFormed reset
  have named : model.Named := by
    rw [← resetManagers_eq prepared.wellFormed reset]
    exact prepared.named.congr_tables
      (Model.tables_modifyRoles setup.model _ _ fun _ => rfl)
      (Model.declarations_modifyRoles setup.model _ fun _ => rfl)
  have moved := moved_loadPolicy (e := { setup.initial model with matchers }) well
  have mirrors := loadPolicy_mirrors (e := { setup.initial model with matchers }) well named
    fun _ type _ _ => PolicyLine.nodup_rowsOf distinct type
  rw [loaded] at moved mirrors
  rcases mirrors with ⟨error, kept, _⟩ | ⟨_, rows⟩
  · simp at kept
  · exact ⟨moved.wellFormed well, named.congr (moved.shapes well) (moved.move.declarations well),
      moved.settings ▸ saves, rows⟩

/-- Over a store in memory with distinct lines no operation answers an error of the store, and after
    every run the lines of each declared type are its rows, in some order. -/
theorem run_mirrors [BEq κ] {setup : Setup MemoryStore κ} {e : Enforcer MemoryStore κ}
    (prepared : setup.model.Prepared) (saves : setup.settings.autoSave = true)
    (distinct : setup.store.lines.Nodup) (built : setup.build = .ok e)
    (operations : List Operation) :
    (∀ answer ∈ (e.run operations).1, answer.storeError? = none) ∧
      ∀ s type table, (e.run operations).2.model.table? s type = some table →
        (((e.run operations).2.store.lines.filter (·.type == type)).map (·.row)).Perm
          table.rows := by
  obtain ⟨quiet, mirroring⟩ := (mirroring_of_build prepared saves distinct built).run operations
  exact ⟨quiet, mirroring.rows⟩

/-- A guest list with two guests, kept in memory. -/
def twoGuests : Setup MemoryStore (List UInt8) :=
  { model := .guestList
    store := ⟨[⟨"p", ["alice"]⟩, ⟨"p", ["bob"]⟩]⟩
    digest := id }

/-- Two rows take each other's place. -/
def swap : List Operation :=
  [.mutate (.rows .policy "p" (.updateMany [["alice"], ["bob"]] [["bob"], ["alice"]]))]

/-- The store puts each new row in the place of an old one, and the table puts them last. -/
theorem run_mirrors_swap :
    twoGuests.build = .ok twoGuests.enforcer ∧
      PolicyLine.rowsOf "p" (twoGuests.enforcer.run swap).2.store.lines = [["alice"], ["bob"]] ∧
      (twoGuests.enforcer.run swap).2.model.rows "p" "p" = [["bob"], ["alice"]] ∧
      (∀ answer ∈ (twoGuests.enforcer.run swap).1, answer.storeError? = none) ∧
      ∀ s type table, (twoGuests.enforcer.run swap).2.model.table? s type = some table →
        (((twoGuests.enforcer.run swap).2.store.lines.filter (·.type == type)).map (·.row)).Perm
          table.rows := by
  have built : twoGuests.build = .ok twoGuests.enforcer :=
    Setup.build_eq_enforcer (by decide +kernel)
  exact ⟨built, by decide +kernel, by decide +kernel,
    run_mirrors Model.prepared_guestList rfl (by decide) built swap⟩

end Enforcer

end AccessControl
