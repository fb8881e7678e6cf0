import AccessControl.Proofs.Enforcer.Silent
import AccessControl.Proofs.Enforcer.Spare

/-! # Rows that have been removed

To remove a row from an enforcer over a store in memory takes one of its lines there, unless it goes by
a filter, which takes all. So a row that is not added again stays away when the rows are loaded anew,
unless the store was set up with several lines for it.
-/

namespace AccessControl

/-- A mutation brings a row to a type. -/
def Mutation.Brings (mutation : Mutation) (s : RowSection) (type : String) (row : Row) : Prop :=
  match mutation with
  | .rows s' type' change => s = s' ∧ type = type' ∧ row ∈ change.brought
  | _ => False

/-- An operation may bring a row to a type. To load the rows may bring any. -/
def Operation.MayBring (operation : Operation) (s : RowSection) (type : String) (row : Row) : Prop :=
  match operation with
  | .mutate mutation => mutation.Brings s type row
  | .loadPolicy => True
  | _ => False

/-- How many of the lines with a row are left by a mutation that takes the row. -/
def Mutation.leaves (row : Row) (copies : Nat) : Mutation → Nat
  | .rows _ _ change => change.leaves row copies
  | _ => 0

namespace Model

variable {model model' : Model} {s : RowSection} {type : String} {row : Row}

theorem table?_of_mem_rows (stored : row ∈ model.rows s.key type) :
    ∃ table, model.table? s type = some table ∧ row ∈ table.rows := by
  rw [rows_eq] at stored
  cases found : model.table? s type with
  | none => simp [found] at stored
  | some table => exact ⟨table, rfl, by simpa [found] using stored⟩

theorem mem_rows_apply (h : model.WellFormed) {change : RowChange} {delta : RowDelta}
    (made : model.apply s.key type change = .ok (some delta, model')) (s' : RowSection)
    (type' : String) (row : Row) :
    row ∈ model'.rows s'.key type' ↔
      if s' = s ∧ type' = type then
        row ∈ change.brought ∨
          row ∉ change.taken (model.rows s.key type) ∧ row ∈ model.rows s.key type
      else row ∈ model.rows s'.key type' := by
  obtain ⟨table, table', found, applied, rfl⟩ := apply_eq_ok made
  have accounts := ((h.tables s type table found).apply applied).accounts delta rfl
  rw [RowTable.delta_of_apply applied] at accounts
  rw [rows_setTable found, rows_of_table? found]
  split
  · exact accounts.stored row
  · exact Iff.rfl

end Model

namespace Enforcer

variable {σ κ : Type} [PolicyStore σ] {e e' : Enforcer σ κ} {s : RowSection} {type : String}
  {row : Row}

/-- A change that says that it has changed something has removed the rows that it takes and does not
    bring. -/
theorem gone_of_taken (h : e.model.WellFormed) {change : RowChange}
    (made : e.mutate (.rows s type change) = (.ok true, e'))
    (taken : row ∈ change.taken (e.model.rows s.key type)) (apart : row ∉ change.brought) :
    row ∈ e.model.rows s.key type ∧ row ∉ e'.model.rows s.key type := by
  have changed : e.change s type change = (.ok true, e') := made
  obtain ⟨rejected, _⟩ | ⟨_, delta, model, applied, same, _⟩ := change_cases h s type change
  · rw [changed] at rejected
    cases rejected
  · obtain ⟨table, table', found, outcome, _⟩ := Model.apply_eq_ok applied
    have accounts := ((h.tables s type table found).apply outcome).accounts delta rfl
    rw [RowTable.delta_of_apply outcome] at accounts
    rw [changed] at same
    rw [same.rows_key, Model.mem_rows_apply h applied, if_pos ⟨rfl, rfl⟩]
    constructor
    · rw [Model.rows_of_table? found] at taken ⊢
      exact accounts.present row taken
    · rintro (brought | ⟨kept, _⟩)
      · exact apart brought
      · exact kept taken

/-! ## Rows that are not brought -/

theorem notMem_rows_mutate (h : e.model.WellFormed) {mutation : Mutation}
    (apart : ¬mutation.Brings s type row) (missing : row ∉ e.model.rows s.key type) :
    row ∉ (e.mutate mutation).2.model.rows s.key type := by
  have untouched (picked : ∀ other, mutation.Touches e.model s type other →
      other ∈ e.model.rows s.key type) : row ∉ (e.mutate mutation).2.model.rows s.key type := by
    have differ (other : Row) (touched : mutation.Touches e.model s type other) :
        (other == row) = false := by
      rw [beq_eq_false_iff_ne]
      rintro rfl
      exact missing (picked _ touched)
    have same := filter_rows_mutate h differ
    intro stored
    have kept : row ∈ (e.model.rows s.key type).filter (· == row) :=
      same ▸ List.mem_filter.mpr ⟨stored, beq_self_eq_true row⟩
    exact missing (List.mem_filter.mp kept).1
  cases mutation with
  | rows s' type' change =>
      show row ∉ (e.change s' type' change).2.model.rows s.key type
      rcases change_cases h s' type' change with ⟨_, same⟩ | ⟨_, delta, model, applied, same, _⟩
      · rwa [same]
      · rw [same.rows_key, Model.mem_rows_apply h applied]
        split
        · rename_i here
          obtain ⟨rfl, rfl⟩ := here
          rintro (brought | ⟨_, stored⟩)
          · exact apart ⟨rfl, rfl, brought⟩
          · exact missing stored
        · exact missing
  | deleteUser | deleteRole => exact untouched fun _ touched => touched.1
  | clearPolicy => exact untouched fun _ touched => touched

variable [BEq κ]

theorem notMem_rows_step (h : e.model.WellFormed) {operation : Operation}
    (apart : ¬operation.MayBring s type row) (missing : row ∉ e.model.rows s.key type) :
    row ∉ (e.step operation).2.model.rows s.key type := by
  cases called : operation.callsStore with
  | false =>
      obtain ⟨_, still⟩ := apart_step h called
      rwa [still.tables.rows_key]
  | true =>
      cases operation with
      | mutate mutation => exact notMem_rows_mutate h apart missing
      | loadPolicy => exact absurd trivial apart
      | savePolicy =>
          have kept : e.savePolicy.2.model = e.model := by
            unfold savePolicy announce
            split
            · rfl
            · split <;> rfl
          show row ∉ e.savePolicy.2.model.rows s.key type
          rwa [kept]
      | buildRoleLinks | addFunction | addNamePredicate | addDomainPredicate | setManager | enable
      | decide | ask | clearCache | wait => cases called

/-- A row that no operation brings stays away. -/
theorem notMem_rows_run (h : e.model.WellFormed) {operations : List Operation}
    (apart : ∀ operation ∈ operations, ¬operation.MayBring s type row)
    (missing : row ∉ e.model.rows s.key type) :
    row ∉ (e.run operations).2.model.rows s.key type := by
  induction operations generalizing e with
  | nil => exact missing
  | cons operation rest ih =>
      obtain ⟨first, others⟩ := List.forall_mem_cons.mp apart
      exact ih ((moved_step h operation).wellFormed h) others (notMem_rows_step h first missing)

end Enforcer

/-! ## Filters -/

/-- Only what a filter picks may go. -/
def MemoryStore.Filters : Permission MemoryStore := fun _ _ _ _ change =>
  ∃ filter, change = .removeFiltered filter

theorem Course.stored_or_gone {store store' : MemoryStore} {model model' : Model}
    (course : Course true MemoryStore.Filters store model store' model') (proper : model.Proper)
    {spare : String → List Row} (holds : store.Holds model spare) {s : RowSection} {type : String}
    {row : Row} (before : row ∈ model.rows s.key type ∨ store.copies type row = 0) :
    row ∈ model'.rows s.key type ∨ store'.copies type row = 0 := by
  induction course generalizing spare with
  | still store tables _ => rwa [tables.rows_key]
  | trans first second ih ih' =>
      obtain ⟨_, _, held⟩ := first.holds proper holds
      exact ih' (first.proper proper) held (ih proper holds before)
  | @change store model model' s' type' _ delta permitted made =>
      obtain ⟨filter, rfl⟩ := permitted
      rcases before with stored | none
      · rw [Model.mem_rows_apply proper.well made]
        split
        · rename_i here
          obtain ⟨rfl, rfl⟩ := here
          cases picked : filter.picks row with
          | true => exact .inr (MemoryStore.copies_removeFiltered picked)
          | false =>
              refine .inl (.inr ⟨fun taken => ?_, stored⟩)
              exact absurd (List.mem_filter.mp taken).2 (by simp [picked])
        · exact .inl stored
      · right
        rw [MemoryStore.copies_eq_zero_iff] at none ⊢
        exact fun line => none (List.mem_filter.mp line).1
  | clear store model => exact .inr rfl
  | @load store lines model given passed =>
      obtain rfl := Except.ok.inj given
      refine before.imp_left fun stored => ?_
      obtain ⟨table, found, member⟩ := Model.table?_of_mem_rows stored
      obtain ⟨table', loaded, _, rows⟩ := proper.named.table?_clear_load proper.well passed found
      rw [Model.rows_of_table? loaded, rows, (table.agree_arranged _).mem_iff, List.mem_eraseDups]
      exact (holds.rows s type table found).mem_iff.mpr (List.mem_append_left _ member)
  | save store model =>
      refine before.imp_right fun none => ?_
      rw [MemoryStore.copies_eq_zero_iff] at none ⊢
      intro line
      obtain ⟨s', table, found, member⟩ := (proper.named.mem_lines_iff ⟨type, row⟩).mp line
      have held := (holds.rows s' type table found).mem_iff.mpr (List.mem_append_left _ member)
      exact none (PolicyLine.mem_rowsOf.mp held)

namespace Enforcer

variable {κ : Type} {e e' : Enforcer MemoryStore κ} {s : RowSection} {type : String} {row : Row}

theorem copies_mutate (proper : e.model.Proper) (saves : e.settings.autoSave = true)
    {spare : String → List Row} (holds : e.store.Holds e.model spare) {mutation : Mutation}
    (removal : e.mutate mutation = (.ok true, e')) (stored : row ∈ e.model.rows s.key type)
    (gone : row ∉ e'.model.rows s.key type) :
    e'.store.copies type row = mutation.leaves row (e.store.copies type row) := by
  have h := proper.well
  have filtered (goes : Goes MemoryStore.Filters e (e.mutate mutation).2) :
      e'.store.copies type row = 0 := by
    unfold Goes at goes
    rw [removal, saves] at goes
    exact (goes.stored_or_gone proper holds (.inl stored)).resolve_left gone
  cases mutation with
  | rows s' type' change =>
      have made : e.change s' type' change = (.ok true, e') := removal
      obtain ⟨rejected, _⟩ | ⟨_, delta, model, applied, same, followed⟩ :=
        change_cases h s' type' change
      · rw [made] at rejected
        cases rejected
      · rw [made] at same followed
        have missing := gone
        rw [same.rows_key, Model.mem_rows_apply h applied] at missing
        split at missing
        · rename_i here
          obtain ⟨rfl, rfl⟩ := here
          have paired := Model.paired_of_apply applied
          obtain ⟨table, table', found, outcome, placed⟩ := Model.apply_eq_ok applied
          rw [same.rows_key, ← placed, Model.rows_setTable found, if_pos ⟨rfl, rfl⟩] at gone
          rw [Model.rows_of_table? found] at stored
          rw [followed saves]
          exact MemoryStore.copies_follow (h.tables s type table found)
            (holds.rows s type table found) paired outcome stored gone
        · exact absurd stored missing
  | deleteUser user =>
      exact filtered (goes_removeTogether (fun _ _ _ _ filter => ⟨filter, rfl⟩) h _)
  | deleteRole role =>
      exact filtered (goes_removeTogether (fun _ _ _ _ filter => ⟨filter, rfl⟩) h _)
  | clearPolicy => exact filtered (goes_clearPolicy h)

/-! ## Loading anew -/

theorem holds_of_build {setup : Setup MemoryStore κ} (prepared : setup.model.Prepared)
    (built : setup.build = .ok e) : e.store.Holds e.model setup.store.spares := by
  obtain ⟨_, model, matchers, reset, _, loaded⟩ := build_eq_ok_iff.mp built
  have proper := proper_of_resetManagers prepared reset
  by_cases can : { setup.initial model with matchers }.access = .ok () ∧
      Loadable { setup.initial model with matchers }
  · obtain ⟨free, lines, given, admits⟩ := can
    obtain rfl : setup.store.lines = lines := Except.ok.inj given
    rw [loadPolicy_of_admits proper free given admits] at loaded
    obtain ⟨_, rfl⟩ := Prod.mk.inj loaded
    have held : setup.store.Holds (model.clear.load setup.store.lines).2 setup.store.spares :=
      .load proper admits
    show setup.store.Holds (if setup.settings.autoBuildRoleLinks = true then _ else _) _
    split
    · exact held.congr (Model.tables_buildLinks _)
    · exact held
  · obtain ⟨error, kept⟩ := loadPolicy_of_not proper can
    rw [kept] at loaded
    cases loaded

theorem loadPolicy_of_holds (proper : e.model.Proper) (free : e.access = .ok ())
    {spare : String → List Row} (holds : e.store.Holds e.model spare) :
    e.loadPolicy.1 = .ok () ∧ ∀ s type table, e.model.table? s type = some table → ∀ row,
      row ∈ e.loadPolicy.2.model.rows s.key type ↔ 0 < e.store.copies type row := by
  have loaded := loadPolicy_of_admits proper free rfl holds.admits
  refine ⟨congrArg Prod.fst loaded, fun s type table found row => ?_⟩
  obtain ⟨table', found', _, rows⟩ := table?_loadPolicy proper free rfl holds.admits found
  rw [Model.rows_of_table? found', rows, (table.agree_arranged _).mem_iff, List.mem_eraseDups]
  exact List.count_pos_iff.symm

variable [BEq κ]

/-- In every run the rows stay in the store, beside no more spare copies than before. -/
theorem holds_run (proper : e.model.Proper) (saves : e.settings.autoSave = true)
    {spare : String → List Row} (holds : e.store.Holds e.model spare)
    (operations : List Operation) :
    (e.run operations).2.model.Proper ∧ (e.run operations).2.settings.autoSave = true ∧
      ∃ spare' : String → List Row, (∀ type, (spare' type).Subperm (spare type)) ∧
        (e.run operations).2.store.Holds (e.run operations).2.model spare' := by
  have permitted (e : Enforcer MemoryStore κ) (operations : List Operation) :
      e.RunPermitted (fun _ _ _ _ _ => True) operations := by
    induction operations generalizing e with
    | nil => trivial
    | cons operation rest ih =>
        refine ⟨?_, ih _⟩
        unfold Permitted
        split <;> trivial
  have goes := goes_run (fun _ _ _ _ _ => trivial) proper.well (permitted e operations)
  unfold Goes at goes
  rw [saves] at goes
  exact ⟨goes.proper proper, (moved_run proper.well operations).settings ▸ saves,
    goes.holds proper holds⟩

/-- A row that a mutation has removed, and that is not brought again, comes back when the rows are
    loaded exactly if lines with it have stayed in the store. To remove or to replace a row takes one
    line for each time that it is named, and a filter takes all. There were never more lines than at
    the beginning, apart from the one of the stored row, and none are added. So the row stays away if
    it had no more than one line at the beginning, or if its removal has left none. -/
theorem removed_row_after_load {setup : Setup MemoryStore κ} {e e₁ e₂ e₃ : Enforcer MemoryStore κ}
    (prepared : setup.model.Prepared) (saves : setup.settings.autoSave = true)
    (built : setup.build = .ok e) {before after : List Operation} (earlier : (e.run before).2 = e₁)
    {mutation : Mutation} (removal : e₁.mutate mutation = (.ok true, e₂))
    (stored : row ∈ e₁.model.rows s.key type) (gone : row ∉ e₂.model.rows s.key type)
    (later : (e₂.run after).2 = e₃)
    (apart : ∀ operation ∈ after, ¬operation.MayBring s type row) :
    e₃.loadPolicy.1 = .ok () ∧
      (row ∈ e₃.loadPolicy.2.model.rows s.key type ↔ 0 < e₃.store.copies type row) ∧
      e₃.store.copies type row ≤ e₂.store.copies type row ∧
      e₂.store.copies type row = mutation.leaves row (e₁.store.copies type row) ∧
      e₁.store.copies type row ≤ max 1 (setup.store.copies type row) ∧
      (setup.store.copies type row ≤ 1 ∨ mutation.leaves row (e₁.store.copies type row) = 0 →
        row ∉ e₃.loadPolicy.2.model.rows s.key type) := by
  obtain ⟨settings, free⟩ := build_access prepared built
  have proper := (Reachable.built prepared built).proper
  have moved := moved_run proper.well before
  obtain ⟨proper₁, saves₁, spare₁, fewer₁, holds₁⟩ :=
    holds_run proper (settings ▸ saves) (holds_of_build prepared built) before
  rw [earlier] at moved proper₁ saves₁ holds₁
  have moved₂ := moved_run proper₁.well [.mutate mutation]
  obtain ⟨proper₂, saves₂, spare₂, fewer₂, holds₂⟩ :=
    holds_run proper₁ saves₁ holds₁ [.mutate mutation]
  have stepped : (e₁.run [.mutate mutation]).2 = e₂ := congrArg Prod.snd removal
  rw [stepped] at moved₂ proper₂ saves₂ holds₂
  have moved₃ := moved_run proper₂.well after
  obtain ⟨proper₃, _, spare₃, fewer₃, holds₃⟩ := holds_run proper₂ saves₂ holds₂ after
  have away := notMem_rows_run proper₂.well apart gone
  rw [later] at moved₃ proper₃ holds₃ away
  -- the type is declared throughout
  obtain ⟨table₁, found₁, member⟩ := Model.table?_of_mem_rows stored
  obtain ⟨table₂, found₂, _⟩ := (moved₂.shapes proper₁.well).table? found₁
  obtain ⟨table₃, found₃, _⟩ := (moved₃.shapes proper₂.well).table? found₂
  rw [Model.rows_of_table? found₂] at gone
  rw [Model.rows_of_table? found₃] at away
  have copies₁ := holds₁.copies_eq proper₁.well found₁ row
  have copies₂ := holds₂.copies_eq proper₂.well found₂ row
  have copies₃ := holds₃.copies_eq proper₃.well found₃ row
  rw [if_pos member] at copies₁
  rw [if_neg gone, Nat.zero_add] at copies₂
  rw [if_neg away, Nat.zero_add] at copies₃
  have less₁ := (fewer₁ type).count_le row
  have less₂ := (fewer₂ type).count_le row
  have less₃ := (fewer₃ type).count_le row
  rw [MemoryStore.count_spares] at less₁
  have left := copies_mutate proper₁ saves₁ holds₁ removal stored
    (by rwa [Model.rows_of_table? found₂])
  obtain ⟨loads, rows⟩ := loadPolicy_of_holds proper₃
    (moved₃.access.trans (moved₂.access.trans (moved.access.trans free))) holds₃
  have back := rows s type table₃ found₃ row
  refine ⟨loads, back, by omega, left, by omega, fun few => ?_⟩
  rw [back]
  omega

/-! ## A guest who is listed twice -/

/-- A guest list with some lines for Alice, and one for Bob. -/
def listed (times : Nat) : Setup MemoryStore (List UInt8) :=
  { model := .guestList
    store := ⟨List.replicate times ⟨"p", ["alice"]⟩ ++ [⟨"p", ["bob"]⟩]⟩
    digest := id }

/-- Alice is taken off the list. -/
def takeOff : Mutation := .rows .policy "p" (.remove ["alice"])

/-- Carol takes the place of Bob. -/
def replaceBob : List Operation :=
  [.mutate (.rows .policy "p" (.update ["bob"] ["carol"]))]

/-- Where she was listed once, Alice stays off the list, whatever becomes of the others. -/
theorem removed_row_after_load_listed :
    (((listed 1).enforcer.mutate takeOff).2.run replaceBob).2.loadPolicy.1 = .ok () ∧
      ["alice"] ∉ (((listed 1).enforcer.mutate takeOff).2.run replaceBob).2.loadPolicy.2.model.rows
        RowSection.policy.key "p" := by
  have built : (listed 1).build = .ok (listed 1).enforcer :=
    Setup.build_eq_enforcer (by decide +kernel)
  have answered : ((listed 1).enforcer.mutate takeOff).1.toOption = some true := by decide +kernel
  have removal : (listed 1).enforcer.mutate takeOff =
      (.ok true, ((listed 1).enforcer.mutate takeOff).2) :=
    Prod.ext (Except.toOption_eq_some_iff.mp answered) rfl
  have apart : ∀ operation ∈ replaceBob, ¬operation.MayBring .policy "p" ["alice"] := by
    simp [replaceBob, Operation.MayBring, Mutation.Brings, RowChange.brought]
  have well := (Reachable.built Model.prepared_guestList built).wellFormed
  have taken : ["alice"] ∈ RowChange.taken ((listed 1).enforcer.model.rows "p" "p")
      (.remove ["alice"]) := List.mem_singleton_self _
  obtain ⟨stored, gone⟩ := gone_of_taken well removal taken List.not_mem_nil
  obtain ⟨loads, _, _, _, _, away⟩ := removed_row_after_load Model.prepared_guestList rfl built
    (show ((listed 1).enforcer.run []).2 = (listed 1).enforcer from rfl) removal stored gone rfl apart
  exact ⟨loads, away (.inl (by decide +kernel))⟩

/-- Where she was listed twice, she is back as soon as the list is loaded, and may come in. -/
theorem listedTwice_returns :
    (listed 2).build = .ok (listed 2).enforcer ∧
      ((listed 2).enforcer.mutate takeOff).1.toOption = some true ∧
      ["alice"] ∉ ((listed 2).enforcer.mutate takeOff).2.model.rows "p" "p" ∧
      ((listed 2).enforcer.mutate takeOff).2.loadPolicy.1.toOption = some () ∧
      ["alice"] ∈ ((listed 2).enforcer.mutate takeOff).2.loadPolicy.2.model.rows "p" "p" ∧
      ((((listed 2).enforcer.mutate takeOff).2.loadPolicy.2.decide .plain none
        [.str "alice"]).1.map (·.allowed)).toOption = some true :=
  ⟨Setup.build_eq_enforcer (by decide +kernel), by decide +kernel, by decide +kernel,
    by decide +kernel, by decide +kernel, by decide +kernel⟩

end Enforcer

end AccessControl
