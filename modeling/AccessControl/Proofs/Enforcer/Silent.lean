import AccessControl.Proofs.Enforcer.Rejection
import AccessControl.Proofs.Enforcer.Touched

/-! # Mutations that change nothing

A mutation after which the rows stand as before is silent: it is not answered as a change, and store,
cache and watcher are left alone. The exceptions are the changes that bring in the very rows that they
take away, and empty batches among them. They are carried out like any other.
-/

namespace AccessControl

/-- A change is idle if the rows that it names to be taken away are those to be brought in. -/
def RowChange.Idle : RowChange → Prop
  | .addMany rows => rows = []
  | .removeMany rows => rows = []
  | .update old new => old = new
  | .updateMany old new => old.Perm new
  | .add _ => False
  | .remove _ => False
  | .removeFiltered _ => False

/-- A mutation is idle if it is an idle change of some type. -/
def Mutation.Idle : Mutation → Prop
  | .rows _ _ change => change.Idle
  | .deleteUser _ => False
  | .deleteRole _ => False
  | .clearPolicy => False

/-! ## Tables -/

theorem RowDelta.ifChanged_eq_some_iff {α : Type} {delta delta' : RowDelta} {outcome : Bool × α}
    {a : α} : RowDelta.ifChanged delta outcome = (some delta', a) ↔
      outcome.1 = true ∧ delta = delta' ∧ outcome.2 = a := by
  obtain ⟨changed, b⟩ := outcome
  cases changed <;> simp [RowDelta.ifChanged]

namespace RowTable

theorem rows_replace_self (table : RowTable) (row : Row) :
    (table.replace row row).rows = table.rows := by
  have replaced (rows : List Row) : rows.replace row row = rows := by
    induction rows with
    | nil => rfl
    | cons first rest ih =>
        rw [List.replace_cons, ih]
        split
        · rename_i here
          rw [eq_of_beq here]
        · rfl
  have stays : table.movesIn row row = false := by
    unfold movesIn
    cases table.priorityAt? <;> simp
  unfold replace
  simp only [stays, Bool.false_eq_true, if_false]
  exact replaced table.rows

/-- Where the rows stand as before, all that has gone has come back. -/
theorem Accounts.returned {delta : RowDelta} {table table' : RowTable}
    (accounts : Accounts delta table table') (same : table'.rows = table.rows) :
    delta.removed ⊆ delta.added := by
  intro row removed
  have present := accounts.present row removed
  rw [← same] at present
  exact ((accounts.stored row).mp present).resolve_right fun stays => stays.1 removed

theorem WellFormed.idle_of_rows_eq {table table' : RowTable} (h : table.WellFormed)
    {change : RowChange} {delta : RowDelta} (made : table.apply change = .ok (some delta, table'))
    (same : table'.rows = table.rows) : change.Idle := by
  have accounts := (h.apply made).accounts delta rfl
  have returned := accounts.returned same
  have stored (row : Row) (added : row ∈ delta.added) : row ∈ table.rows :=
    same ▸ (accounts.stored row).mpr (.inl added)
  cases change with
  | add row =>
      obtain ⟨_, _, settled⟩ := Except.map_bind_ok_eq_ok_iff.mp made
      obtain ⟨new, rfl, _⟩ := RowDelta.ifChanged_eq_some_iff.mp settled
      have present : table.has row = true := (h.has_iff row).mpr (stored row List.mem_cons_self)
      simp [RowTable.insert, present] at new
  | addMany rows =>
      obtain ⟨outcome, added, settled⟩ := Except.map_eq_ok_iff.mp made
      obtain ⟨new, checked, inserted⟩ := Except.bind_eq_ok_iff.mp added
      obtain rfl := Except.ok.inj inserted
      obtain ⟨changed, rfl, _⟩ := RowDelta.ifChanged_eq_some_iff.mp settled
      cases new with
      | false => simp at changed
      | true =>
          refine List.eq_nil_iff_forall_not_mem.mpr fun row member => ?_
          obtain ⟨_, absent, _⟩ := (allNew_eq_ok_true_iff.mp checked).2 row member
          exact (h.has_eq_false_iff row).mp absent (stored row member)
  | remove row =>
      obtain ⟨_, rfl, _⟩ := RowDelta.ifChanged_eq_some_iff.mp (Except.ok.inj made)
      simp at returned
  | removeMany rows =>
      obtain ⟨_, rfl, _⟩ := RowDelta.ifChanged_eq_some_iff.mp (Except.ok.inj made)
      exact List.subset_nil.mp returned
  | removeFiltered filter =>
      obtain ⟨taken, rfl, _⟩ := RowDelta.ifChanged_eq_some_iff.mp (Except.ok.inj made)
      have none : table.filtered filter = [] := List.subset_nil.mp returned
      simp [none] at taken
  | update old new =>
      obtain ⟨_, _, settled⟩ := Except.map_eq_ok_iff.mp made
      obtain ⟨_, rfl, _⟩ := RowDelta.ifChanged_eq_some_iff.mp settled
      exact List.mem_singleton.mp (returned List.mem_cons_self)
  | updateMany old new =>
      obtain ⟨_, updated, settled⟩ := Except.map_eq_ok_iff.mp made
      obtain ⟨_, lengths, replaced⟩ := Except.bind_eq_ok_iff.mp updated
      obtain rfl := Except.ok.inj replaced
      split at settled
      · rename_i possible
        obtain ⟨rest, before, after⟩ :=
          h.updateMany_perm possible (checkArities_eq_ok_iff.mp lengths)
        obtain ⟨_, _, rfl⟩ := RowDelta.ifChanged_eq_some_iff.mp settled
        rw [same] at after
        exact (List.perm_append_right_iff rest).mp (before.symm.trans after)
      · simp [RowDelta.ifChanged] at settled

end RowTable

/-! ## Models -/

namespace Model

variable {model model' : Model} {s : RowSection} {type : String}

/-- A change of a model that is made and leaves the rows as they stand is idle. -/
theorem WellFormed.idle_of_rows_eq (h : model.WellFormed) {change : RowChange} {delta : RowDelta}
    (made : model.apply s.key type change = .ok (some delta, model'))
    (same : model'.rows s.key type = model.rows s.key type) : change.Idle := by
  obtain ⟨table, table', found, applied, rfl⟩ := apply_eq_ok made
  rw [rows_setTable found, if_pos ⟨rfl, rfl⟩, rows_of_table? found] at same
  exact (h.tables s type table found).idle_of_rows_eq applied same

theorem WellFormed.apply_update_self (h : model.WellFormed) {row : Row}
    (stored : row ∈ model.rows s.key type) :
    ∃ delta model', model.apply s.key type (.update row row) = .ok (some delta, model') ∧
      ∀ (s' : RowSection) (type' : String), model'.rows s'.key type' = model.rows s'.key type' := by
  cases found : model.table? s type with
  | none => simp [rows_eq, found] at stored
  | some table =>
      rw [rows_of_table? found] at stored
      have well := h.tables s type table found
      have present : table.has row = true := (well.has_iff row).mpr stored
      have updated : table.update row row = .ok (true, table.replace row row) := by
        unfold RowTable.update
        have checked : table.checkArity row = .ok () :=
          RowTable.checkArity_eq_ok_iff.mpr (well.arity row stored)
        rw [checked]
        simp [present]
      refine ⟨{ removed := [row], added := [row] },
        model.setTable s type (table.replace row row), ?_, fun s' type' => ?_⟩
      · have changed : model.update s.key type row row =
            .ok (true, model.setTable s type (table.replace row row)) :=
          change_eq_ok_iff.mpr ⟨s, table, _, s.ofKey_key, found, updated, rfl⟩
        simp only [Model.apply, changed]
        rfl
      · rw [rows_setTable found, RowTable.rows_replace_self]
        split
        · rename_i here
          obtain ⟨rfl, rfl⟩ := here
          exact (rows_of_table? found).symm
        · rfl

end Model

/-! ## Mutations -/

namespace Enforcer

variable {σ κ : Type} [PolicyStore σ] {e : Enforcer σ κ}

theorem rejects_error {error : Error} (other : error.store? = none) :
    rejects (.error error) = true := by
  simp [rejects, other]

/-- A change is rejected and nothing has happened, or it has been made in the model and, where changes
    are saved, in the store. -/
theorem change_cases (h : e.model.WellFormed) (s : RowSection) (type : String)
    (change : RowChange) :
    (rejects (e.change s type change).1 = true ∧ (e.change s type change).2 = e) ∨
      rejects (e.change s type change).1 = false ∧ ∃ delta model,
        e.model.apply s.key type change = .ok (some delta, model) ∧
          model.SameTables (e.change s type change).2.model ∧
          (e.settings.autoSave = true →
            (e.change s type change).2.store = (PolicyStore.follow e.store s type change).2) := by
  unfold Enforcer.change
  cases refused : e.access with
  | error error => exact .inl ⟨rejects_error (store?_of_access refused), rfl⟩
  | ok _ =>
      simp only
      rw [applyChange_eq h]
      cases made : e.model.apply s.key type change with
      | error error => exact .inl ⟨rejects_error (Model.store?_of_apply made), rfl⟩
      | ok outcome =>
          obtain ⟨delta?, model⟩ := outcome
          cases delta? with
          | none => exact .inl ⟨rfl, rfl⟩
          | some delta =>
              simp only [carryOut_eq, afterChange_model, afterChange_store]
              exact .inr ⟨rejects_report _, delta, model, rfl, Model.tables_follow model _ _ _ _,
                fun saves => by simp [saves]⟩

/-- A change that leaves the rows as they stand is rejected, unless it is idle. -/
theorem rejects_change (h : e.model.WellFormed) {s : RowSection} {type : String}
    {change : RowChange} (busy : ¬change.Idle)
    (same : (e.change s type change).2.model.rows s.key type = e.model.rows s.key type) :
    rejects (e.change s type change).1 = true := by
  rcases change_cases h s type change with ⟨rejected, _⟩ | ⟨_, delta, model, made, tables, _⟩
  · exact rejected
  · rw [tables.rows_key] at same
    exact (busy (h.idle_of_rows_eq made same)).elim

theorem applyRemovals_of_untaken (h : e.model.WellFormed) {removals : List Removal}
    (declares : Declares e.model removals)
    (untaken : ∀ removal ∈ removals, ∀ row ∈ e.model.rows removal.table.key removal.type,
      removal.filter.picks row = false) :
    e.applyRemovals removals = (.ok (.ok (), []), e) := by
  induction removals with
  | nil => rfl
  | cons removal rest ih =>
      obtain ⟨⟨table, found⟩, others⟩ := List.forall_mem_cons.mp declares
      obtain ⟨first, later⟩ := List.forall_mem_cons.mp untaken
      rw [Model.rows_of_table? found] at first
      have none : table.filtered removal.filter = [] :=
        List.filter_eq_nil_iff.mpr fun row stored => by simp [first row stored]
      have made : e.model.removeFiltered removal.table.key removal.type removal.filter =
          .ok ([], e.model.setTable removal.table removal.type
            (table.removeFiltered removal.filter).2) :=
        Model.change_eq_ok_iff.mpr ⟨removal.table, table, _, removal.table.ofKey_key, found,
          by rw [← none]; rfl, rfl⟩
      rw [applyRemovals_cons h, made]
      exact ih others later

/-- Removals that leave the rows of every type as they stand are rejected. -/
theorem rejects_removeTogether (h : e.model.WellFormed) (removals : List Removal)
    (same : ∀ (s : RowSection) (type : String),
      (e.removeTogether removals).2.model.rows s.key type = e.model.rows s.key type) :
    rejects (e.removeTogether removals).1 = true := by
  rcases rows_removeTogether h removals with ⟨⟨error, refused, other⟩, _⟩ | rows
  · rw [refused]
    exact rejects_error other
  · have untaken : ∀ removal ∈ removals, ∀ row ∈ e.model.rows removal.table.key removal.type,
        removal.filter.picks row = false := by
      intro removal member row stored
      have kept := rows removal.table removal.type
      rw [same] at kept
      by_contra picked
      have takes : removal.takes removal.table removal.type row = true := by
        simpa [Removal.takes] using picked
      exact Removal.not_mem_remaining member takes _ (kept ▸ stored)
    unfold removeTogether
    cases refused : e.access with
    | error error => exact rejects_error (store?_of_access refused)
    | ok _ =>
        cases checked : e.checkRemovals removals with
        | error error => exact rejects_error (store?_of_checkRemovals checked)
        | ok _ =>
            rw [applyRemovals_of_untaken h (declares_of_checkRemovals checked) untaken]
            rfl

/-- On a well-formed model a mutation that is rejected does nothing at all. -/
theorem mutate_eq_self (h : e.model.WellFormed) {mutation : Mutation}
    (rejected : rejects (e.mutate mutation).1 = true) : (e.mutate mutation).2 = e := by
  cases mutation with
  | rows s type change => exact change_rejected h s type change rejected
  | deleteUser user => exact removeTogether_rejected h (Removal.ofUser user) rejected
  | deleteRole role => exact removeTogether_rejected h (Removal.ofRole role) rejected
  | clearPolicy => exact clearPolicy_rejected h rejected

/-- A mutation that leaves the rows of every type as they stand is silent: it does not answer that
    anything has changed, and all else is left as it was too, with the store, the cache and what the
    watcher has been told. To clear the rows is another matter, and so are idle changes. -/
theorem mutate_silent [BEq κ] (reachable : e.Reachable) {mutation : Mutation}
    (keeps : mutation ≠ .clearPolicy) (busy : ¬mutation.Idle)
    (same : ∀ (s : RowSection) (type : String),
      (e.mutate mutation).2.model.rows s.key type = e.model.rows s.key type) :
    (e.mutate mutation).1 ≠ .ok true ∧ (e.mutate mutation).2 = e := by
  have h := reachable.wellFormed
  have rejected : rejects (e.mutate mutation).1 = true := by
    cases mutation with
    | rows s type change => exact rejects_change h busy (same s type)
    | deleteUser user => exact rejects_removeTogether h (Removal.ofUser user) same
    | deleteRole role => exact rejects_removeTogether h (Removal.ofRole role) same
    | clearPolicy => exact (keeps rfl).elim
  refine ⟨fun changed => ?_, mutate_eq_self h rejected⟩
  simp [changed, rejects] at rejected

/-- Guests whose list is watched. -/
def watchedGuests : Setup MemoryStore (List UInt8) := { twoGuests with watched := true }

theorem build_watchedGuests : watchedGuests.build = .ok watchedGuests.enforcer :=
  Setup.build_eq_enforcer (by decide +kernel)

theorem reachable_watchedGuests : watchedGuests.enforcer.Reachable :=
  .built Model.prepared_guestList build_watchedGuests

/-- To delete a user that there is not is silent. -/
theorem mutate_silent_stranger :
    Mutation.deleteUser "mallory" ≠ .clearPolicy ∧ ¬(Mutation.deleteUser "mallory").Idle ∧
      (∀ (s : RowSection) (type : String),
        (watchedGuests.enforcer.mutate (.deleteUser "mallory")).2.model.rows s.key type =
          watchedGuests.enforcer.model.rows s.key type) ∧
      (watchedGuests.enforcer.mutate (.deleteUser "mallory")).1 ≠ .ok true ∧
      (watchedGuests.enforcer.mutate (.deleteUser "mallory")).2 = watchedGuests.enforcer := by
  have rejected : rejects (watchedGuests.enforcer.mutate (.deleteUser "mallory")).1 = true := by
    decide +kernel
  have kept := mutate_eq_self reachable_watchedGuests.wellFormed rejected
  have same (s : RowSection) (type : String) :
      (watchedGuests.enforcer.mutate (.deleteUser "mallory")).2.model.rows s.key type =
        watchedGuests.enforcer.model.rows s.key type := by rw [kept]
  exact ⟨by simp, id, same, mutate_silent reachable_watchedGuests (by simp) id same⟩

/-- To update a stored row to itself is carried out as a change: the cache is cleared, and the watcher
    is told. -/
theorem mutate_update_self (h : e.model.WellFormed) (access : e.access = .ok ()) {s : RowSection}
    {type : String} {row : Row} (stored : row ∈ e.model.rows s.key type) :
    (∀ (s' : RowSection) (type' : String),
      (e.mutate (.rows s type (.update row row))).2.model.rows s'.key type' =
        e.model.rows s'.key type') ∧
      ∃ failures model store,
        e.mutate (.rows s type (.update row row)) = ((report failures).map fun _ => true,
          { e with model, store }.afterChange (.rows s type (.update row row))) := by
  obtain ⟨delta, model, made, same⟩ := h.apply_update_self stored
  have carried : e.mutate (.rows s type (.update row row)) =
      ((e.carryOut model s type (.update row row) delta).1.map fun _ => true,
        (e.carryOut model s type (.update row row) delta).2.afterChange
          (.rows s type (.update row row))) := by
    show e.change s type (.update row row) = _
    unfold Enforcer.change
    rw [access]
    simp only
    rw [applyChange_eq h, made]
  rw [carryOut_eq] at carried
  refine ⟨fun s' type' => ?_, _, _, _, carried⟩
  rw [carried, afterChange_model]
  exact ((Model.tables_follow model _ s type delta).rows_key s' type').trans (same s' type')

/-- A row is put in its own place. -/
def aliceAgain : Mutation := .rows .policy "p" (.update ["alice"] ["alice"])

/-- The rows stand as before, but the watcher is told of a change. -/
theorem aliceAgain_announced :
    (∀ (s : RowSection) (type : String),
      (watchedGuests.enforcer.mutate aliceAgain).2.model.rows s.key type =
        watchedGuests.enforcer.model.rows s.key type) ∧
      (watchedGuests.enforcer.mutate aliceAgain).1 = .ok true ∧
      (watchedGuests.enforcer.mutate aliceAgain).2.announced.length = 1 := by
  have stored : ["alice"] ∈ watchedGuests.enforcer.model.rows RowSection.policy.key "p" := by
    decide +kernel
  have access := (build_access Model.prepared_guestList build_watchedGuests).2
  have made := mutate_update_self reachable_watchedGuests.wellFormed access stored
  exact ⟨made.1, Except.toOption_eq_some_iff.mp (by decide +kernel), by decide +kernel⟩

end Enforcer

end AccessControl
