import AccessControl.Proofs.Enforcer.Course
import AccessControl.Storage.Memory

/-! # Loading is all or nothing

All lines are checked before the first row is dropped, and lines that pass the check are loaded to
the last one. So either the lines of the store take the place of all rows, or nothing happens.
-/

namespace AccessControl.Enforcer

variable {σ κ : Type} [PolicyStore σ]

/-- The store gives lines, and all of them are admitted. -/
def Loadable (e : Enforcer σ κ) : Prop :=
  ∃ lines, PolicyStore.load e.store = .ok lines ∧ ∀ line ∈ lines, e.model.Admits line

variable {e : Enforcer σ κ}

theorem loadPolicy_of_admits (proper : e.model.Proper) (free : e.access = .ok ())
    {lines : List PolicyLine} (given : PolicyStore.load e.store = .ok lines)
    (admits : ∀ line ∈ lines, e.model.Admits line) :
    e.loadPolicy = (.ok (), { e with model :=
      if e.settings.autoBuildRoleLinks then (e.model.clear.load lines).2.buildLinks.2
      else (e.model.clear.load lines).2 }.clearCache) := by
  unfold loadPolicy
  rw [given, free]
  simp only
  rw [replaceRows_eq proper.well, proper.named.checkLines_eq_ok_iff (u := ()) |>.mpr admits]

theorem loadPolicy_of_not (proper : e.model.Proper)
    (not : ¬(e.access = .ok () ∧ e.Loadable)) : ∃ error, e.loadPolicy = (.error error, e) := by
  unfold loadPolicy
  cases given : PolicyStore.load e.store with
  | error error => exact ⟨_, rfl⟩
  | ok lines =>
      cases free : e.access with
      | error error => exact ⟨_, rfl⟩
      | ok _ =>
          simp only
          rw [replaceRows_eq proper.well]
          cases passed : e.model.checkLines lines with
          | error error => exact ⟨_, rfl⟩
          | ok _ =>
              exact (not ⟨free, lines, given, proper.named.checkLines_eq_ok_iff.mp passed⟩).elim

theorem table?_loadPolicy (proper : e.model.Proper) (free : e.access = .ok ())
    {lines : List PolicyLine} (given : PolicyStore.load e.store = .ok lines)
    (admits : ∀ line ∈ lines, e.model.Admits line) {s : RowSection} {type : String}
    {table : RowTable} (found : e.model.table? s type = some table) :
    ∃ table', e.loadPolicy.2.model.table? s type = some table' ∧ table.SameShape table' ∧
      table'.rows = table.arranged (PolicyLine.rowsOf type lines).eraseDups := by
  have passed : e.model.checkLines lines = .ok () := proper.named.checkLines_eq_ok_iff.mpr admits
  rw [loadPolicy_of_admits proper free given admits]
  have loaded := proper.named.table?_clear_load proper.well passed found
  simp only [clearCache]
  split
  · rwa [Model.tables_buildLinks]
  · exact loaded

/-- When lines have been loaded, the rows of every type are those of its lines. -/
theorem mem_rows_loadPolicy {e' : Enforcer σ κ} (proper : e.model.Proper)
    (loaded : e.loadPolicy = (.ok (), e')) :
    ∃ lines, PolicyStore.load e.store = .ok lines ∧ ∀ s type table,
      e'.model.table? s type = some table →
        ∀ row, row ∈ table.rows ↔ row ∈ PolicyLine.rowsOf type lines := by
  by_cases can : e.access = .ok () ∧ e.Loadable
  · obtain ⟨free, lines, given, admits⟩ := can
    have moved := moved_loadPolicy (e := e) proper.well
    rw [loaded] at moved
    refine ⟨lines, given, fun s type table found row => ?_⟩
    obtain ⟨before, found', _⟩ := Model.SameShapes.table?
      (fun s type => (moved.shapes proper.well s type).symm) found
    obtain ⟨table', stored, _, rows⟩ := table?_loadPolicy proper free given admits found'
    rw [loaded, found] at stored
    obtain rfl := Option.some.inj stored
    rw [rows, (before.agree_arranged _).mem_iff, List.mem_eraseDups]
  · obtain ⟨error, kept⟩ := loadPolicy_of_not proper can
    simp [kept] at loaded

/-- Loading succeeds exactly if the store gives lines that are all of declared types and have their
    lengths. Then each type holds the first occurrences of its lines, in their order or sorted by
    priority. Otherwise everything stays as it was. -/
theorem loadPolicy_all_or_nothing [BEq κ] (reachable : e.Reachable) :
    (e.loadPolicy.1 = .ok () ↔ e.access = .ok () ∧ e.Loadable) ∧
      (∀ lines, PolicyStore.load e.store = .ok lines → e.loadPolicy.1 = .ok () →
        ∀ s type table, e.model.table? s type = some table →
          ∃ table', e.loadPolicy.2.model.table? s type = some table' ∧ table.SameShape table' ∧
            table'.rows = table.arranged (PolicyLine.rowsOf type lines).eraseDups) ∧
      ∀ error, e.loadPolicy.1 = .error error → e.loadPolicy.2 = e := by
  have proper := reachable.proper
  by_cases can : e.access = .ok () ∧ e.Loadable
  · obtain ⟨free, lines, given, admits⟩ := can
    have loaded := loadPolicy_of_admits proper free given admits
    refine ⟨iff_of_true (by rw [loaded]) ⟨free, lines, given, admits⟩, ?_, ?_⟩
    · intro lines' given' _ s type table found
      obtain rfl := Except.ok.inj (given.symm.trans given')
      exact table?_loadPolicy proper free given admits found
    · intro error failed
      rw [loaded] at failed
      cases failed
  · obtain ⟨error, kept⟩ := loadPolicy_of_not proper can
    rw [kept]
    exact ⟨iff_of_false (by simp) can, by simp, fun _ _ => rfl⟩

/-! ## A list with repetitions -/

/-- Guests in order of their ranks. One of them is listed twice. -/
def rankedLines : List PolicyLine :=
  [⟨"p", ["alice", "10", "allow"]⟩, ⟨"g", ["alice", "staff"]⟩, ⟨"p", ["bob", "9.5", "deny"]⟩,
    ⟨"p", ["alice", "10", "allow"]⟩, ⟨"p", ["carol", "10", "deny"]⟩]

def rankedGuests : Setup MemoryStore (List UInt8) :=
  { model := .ranked
    store := ⟨rankedLines⟩
    digest := id }

/-- The same list with a line of no known type behind it. -/
def misprinted : Enforcer MemoryStore (List UInt8) :=
  rankedGuests.enforcer.setStore ⟨rankedLines ++ [⟨"é", ["dave"]⟩]⟩

/-- The guests come to stand in order, once each. The misprinted list is not loaded at all. -/
theorem loadPolicy_all_or_nothing_ranked :
    rankedGuests.enforcer.loadPolicy.1 = .ok () ∧
      (∃ table, rankedGuests.enforcer.loadPolicy.2.model.table? .policy "p" = some table ∧
        table.rows =
          [["bob", "9.5", "deny"], ["alice", "10", "allow"], ["carol", "10", "deny"]]) ∧
      misprinted.loadPolicy.1 ≠ .ok () ∧ misprinted.loadPolicy.2 = misprinted := by
  have built : rankedGuests.build = .ok rankedGuests.enforcer :=
    Setup.build_eq_enforcer (by decide +kernel)
  have reachable : rankedGuests.enforcer.Reachable :=
    .built (.ofDefinitions Model.ofDefinitions_ranked) built
  have loads : rankedGuests.enforcer.loadPolicy.1.toOption = some () := by decide +kernel
  have fails : misprinted.loadPolicy.1.toOption = none := by decide +kernel
  have sorted : (rankedGuests.enforcer.model.table? .policy "p").map
      (fun table => table.arranged (PolicyLine.rowsOf "p" rankedLines).eraseDups) =
        some [["bob", "9.5", "deny"], ["alice", "10", "allow"], ["carol", "10", "deny"]] := by
    decide +kernel
  have loaded : rankedGuests.enforcer.loadPolicy.1 = .ok () := by
    cases answered : rankedGuests.enforcer.loadPolicy.1 with
    | error error => simp [answered, Except.toOption] at loads
    | ok _ => rfl
  obtain ⟨table, found, arranged⟩ := Option.map_eq_some_iff.mp sorted
  obtain ⟨_, rows, _⟩ := loadPolicy_all_or_nothing reachable
  obtain ⟨table', found', _, filled⟩ := rows rankedLines rfl loaded .policy "p" table found
  obtain ⟨_, _, kept⟩ := loadPolicy_all_or_nothing (reachable.setStore _)
  refine ⟨loaded, ⟨table', found', filled.trans arranged⟩, ?_, ?_⟩
  · intro answered
    simp [answered, Except.toOption] at fails
  · cases answered : misprinted.loadPolicy.1 with
    | error error => exact kept error answered
    | ok _ => simp [answered, Except.toOption] at fails

end AccessControl.Enforcer
