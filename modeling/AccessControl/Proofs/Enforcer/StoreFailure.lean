import AccessControl.Proofs.Enforcer.Moves
import AccessControl.Storage.Memory

/-! # Failures of the store

A change of rows is made whether or not the store follows it, and so is what comes with it: the
links, the cache and the watcher. The store only decides about the answer. To show this, an operation is
watched in three runs: on some store, on the same store with a record of its errors, and on a store
that accepts all calls.

To clear the rows is the exception: an error of the store leaves out the cache and the watcher.
-/

namespace AccessControl

/-- A store with a record of its errors, oldest first. -/
structure MonitoredStore (σ : Type) where
  inner : σ
  failures : List StoreError := []

namespace MonitoredStore

variable {σ : Type}

/-- Record the error of a call, if there is one. -/
def record (failures : List StoreError) (outcome : Except StoreError Unit × σ) :
    Except StoreError Unit × MonitoredStore σ :=
  (outcome.1, { inner := outcome.2, failures := failures ++ failuresOf outcome.1 })

instance [PolicyStore σ] : PolicyStore (MonitoredStore σ) where
  load store := PolicyStore.load store.inner
  save store lines := record store.failures (PolicyStore.save store.inner lines)
  follow store s type change :=
    record store.failures (PolicyStore.follow store.inner s type change)

end MonitoredStore

/-- A store that never fails. -/
structure Accepting (τ : Type) [PolicyStore τ] : Prop where
  save : ∀ (store : τ) lines, (PolicyStore.save store lines).1 = .ok ()
  follow : ∀ (store : τ) s type change, (PolicyStore.follow store s type change).1 = .ok ()

/-- A store that keeps nothing and accepts everything. -/
structure NullStore where

instance : PolicyStore NullStore where
  load _ := .ok []
  save store _ := (.ok (), store)
  follow store _ _ _ := (.ok (), store)

theorem NullStore.accepting : Accepting NullStore := ⟨fun _ _ => rfl, fun _ _ _ _ => rfl⟩

namespace Enforcer

variable {σ τ κ : Type}

/-- An enforcer with another store. -/
def withStore (e : Enforcer σ κ) (store : τ) : Enforcer τ κ := { e with store }

theorem withStore_afterChange (e : Enforcer σ κ) (change : PolicyChange) (store : τ) :
    (e.withStore store).afterChange change = (e.afterChange change).withStore store := by
  rw [afterChange_eq, afterChange_eq]
  rfl

theorem withStore_afterChanges (e : Enforcer σ κ) (changes : List PolicyChange) (store : τ) :
    changes.foldl afterChange (e.withStore store) =
      (changes.foldl afterChange e).withStore store := by
  induction changes generalizing e with
  | nil => rfl
  | cons change rest ih => rw [List.foldl_cons, List.foldl_cons, withStore_afterChange, ih]

@[simp]
theorem withStore_model (e : Enforcer σ κ) (store : τ) : (e.withStore store).model = e.model := rfl

@[simp]
theorem withStore_access (e : Enforcer σ κ) (store : τ) : (e.withStore store).access = e.access :=
  rfl

theorem withStore_checkRemovals (e : Enforcer σ κ) (store : τ) (removals : List Removal) :
    (e.withStore store).checkRemovals removals = e.checkRemovals removals := by
  induction removals with
  | nil => rfl
  | cons removal rest ih =>
      unfold checkRemovals
      rw [ih]
      rfl

/-- An enforcer whose store is monitored, with the errors so far. -/
def monitored (e : Enforcer σ κ) (errors : List StoreError) : Enforcer (MonitoredStore σ) κ :=
  e.withStore { inner := e.store, failures := errors }

@[simp]
theorem monitored_model (e : Enforcer σ κ) (errors : List StoreError) :
    (e.monitored errors).model = e.model := rfl

@[simp]
theorem monitored_access (e : Enforcer σ κ) (errors : List StoreError) :
    (e.monitored errors).access = e.access := rfl

theorem monitored_afterChange (e : Enforcer σ κ) (change : PolicyChange)
    (errors : List StoreError) :
    (e.monitored errors).afterChange change = (e.afterChange change).monitored errors := by
  unfold monitored
  rw [withStore_afterChange, afterChange_eq]

theorem monitored_afterChanges (e : Enforcer σ κ) (changes : List PolicyChange)
    (errors : List StoreError) :
    changes.foldl afterChange (e.monitored errors) =
      (changes.foldl afterChange e).monitored errors := by
  induction changes generalizing e with
  | nil => rfl
  | cons change rest ih => rw [List.foldl_cons, List.foldl_cons, monitored_afterChange, ih]

/-- Three runs of an operation beside each other. They end in the same state but for the store; the
    monitored store has recorded new errors; and these settle the answer, where the answer is not
    that of the run with a store that accepts all calls. -/
def Beside {α : Type} (errors : List StoreError) (plain : Except Error α × Enforcer σ κ)
    (watched : Except Error α × Enforcer (MonitoredStore σ) κ)
    (accepted : Except Error α × Enforcer τ κ) : Prop :=
  ∃ (new : List StoreError) (store : τ),
    plain.1 = (report new).bind (fun _ => accepted.1) ∧
      watched = (plain.1, plain.2.monitored (errors ++ new)) ∧
      accepted.2 = plain.2.withStore store

theorem Beside.aside {α : Type} (errors : List StoreError) (answer : Except Error α)
    (e : Enforcer σ κ) (store : τ) :
    Beside errors (answer, e) (answer, e.monitored errors) (answer, e.withStore store) :=
  ⟨[], store, rfl, by rw [List.append_nil], rfl⟩

variable [PolicyStore σ] [PolicyStore τ]

theorem carryOut_beside (accepting : Accepting τ) (errors : List StoreError) (e : Enforcer σ κ)
    (store : τ) (model : Model) (s : RowSection) (type : String) (change : RowChange)
    (delta : RowDelta) :
    ∃ (new : List StoreError) (store' : τ) (after : Enforcer σ κ),
      e.carryOut model s type change delta = (report new, after) ∧
        (e.monitored errors).carryOut model s type change delta =
          (report new, after.monitored (errors ++ new)) ∧
        (e.withStore store).carryOut model s type change delta =
          (.ok (), after.withStore store') := by
  unfold carryOut
  simp only [persist_eq, monitored, withStore]
  cases e.settings.autoSave with
  | false => exact ⟨[], store, _, rfl, by simp [report], rfl⟩
  | true =>
      simp only [if_true, accepting.follow]
      exact ⟨_, _, _, rfl, rfl, rfl⟩

theorem applyChange_beside (accepting : Accepting τ) (errors : List StoreError)
    {e : Enforcer σ κ} (h : e.model.WellFormed) (store : τ) (s : RowSection) (type : String)
    (change : RowChange) :
    Beside errors (e.applyChange s type change) ((e.monitored errors).applyChange s type change)
      ((e.withStore store).applyChange s type change) := by
  have plain := applyChange_eq h s type change
  have watched := applyChange_eq (e := e.monitored errors) h s type change
  have accepted := applyChange_eq (e := e.withStore store) h s type change
  rw [plain, watched, accepted]
  simp only [monitored_model, withStore_model]
  cases e.model.apply s.key type change with
  | error error => exact .aside errors _ e store
  | ok outcome =>
      obtain ⟨delta?, model⟩ := outcome
      cases delta? with
      | none => exact .aside errors _ e store
      | some delta =>
          obtain ⟨new, store', after, plain, watched, accepted⟩ :=
            carryOut_beside accepting errors e store model s type change delta
          refine ⟨new, store', ?_, ?_, ?_⟩
          · simp only [plain, accepted]
            cases report new <;> rfl
          · simp only [plain, watched]
            rw [monitored_afterChange]
          · simp only [plain, accepted]
            rw [withStore_afterChange]

theorem applyRemovals_beside (accepting : Accepting τ) (errors : List StoreError)
    {e : Enforcer σ κ} (h : e.model.WellFormed) (store : τ) {removals : List Removal}
    (declares : Declares e.model removals) :
    ∃ (new : List StoreError) (store' : τ) (changes : List PolicyChange) (after : Enforcer σ κ),
      e.applyRemovals removals = (.ok (report new, changes), after) ∧
        (e.monitored errors).applyRemovals removals =
          (.ok (report new, changes), after.monitored (errors ++ new)) ∧
        (e.withStore store).applyRemovals removals =
          (.ok (.ok (), changes), after.withStore store') := by
  induction removals generalizing e errors store with
  | nil => exact ⟨[], store, [], e, rfl, by rw [List.append_nil]; rfl, rfl⟩
  | cons removal rest ih =>
      obtain ⟨⟨table, found⟩, others⟩ := List.forall_mem_cons.mp declares
      obtain ⟨removed, model, made⟩ := removeFiltered_eq_ok found removal.filter
      have plain := applyRemovals_cons h removal rest
      have watched := applyRemovals_cons (e := e.monitored errors) h removal rest
      have accepted := applyRemovals_cons (e := e.withStore store) h removal rest
      rw [plain, watched, accepted]
      simp only [monitored_model, withStore_model, made]
      cases none : removed.isEmpty with
      | true => exact ih errors h store others
      | false =>
          obtain ⟨table, table', changed⟩ := h.apply (apply_of_removeFiltered made)
          simp only [none, Bool.not_false, if_true] at changed
          have moved := moved_carryOut (.removeFiltered removal.filter) changed
          obtain ⟨new, store', after, plain, watched, accepted⟩ := carryOut_beside accepting errors e
            store model removal.table removal.type (.removeFiltered removal.filter) { removed }
          rw [plain] at moved
          obtain ⟨new', store'', changes, last, plain', watched', accepted'⟩ :=
            ih (errors ++ new) (moved.wellFormed h) store' (Declares.congr others (moved.shapes h))
          refine ⟨new ++ new', store'', removal.change :: changes, last, ?_, ?_, ?_⟩
          · simp only [Bool.false_eq_true, if_false, plain, plain', report_append]
          · simp only [Bool.false_eq_true, if_false, watched, watched', report_append,
              List.append_assoc]
          · simp only [Bool.false_eq_true, if_false, accepted, accepted']
            rfl

theorem removeTogether_beside (accepting : Accepting τ) (errors : List StoreError)
    {e : Enforcer σ κ} (h : e.model.WellFormed) (store : τ) (removals : List Removal) :
    Beside errors (e.removeTogether removals) ((e.monitored errors).removeTogether removals)
      ((e.withStore store).removeTogether removals) := by
  unfold removeTogether
  simp only [monitored_access, withStore_access]
  cases e.access with
  | error error => exact .aside errors _ e store
  | ok _ =>
      have watched : (e.monitored errors).checkRemovals removals = e.checkRemovals removals :=
        withStore_checkRemovals e _ removals
      simp only [watched, withStore_checkRemovals]
      cases checked : e.checkRemovals removals with
      | error error => exact .aside errors _ e store
      | ok _ =>
          obtain ⟨new, store', changes, after, plain, watched, accepted⟩ :=
            applyRemovals_beside accepting errors h store (declares_of_checkRemovals checked)
          refine ⟨new, store', ?_, ?_, ?_⟩
          · simp only [plain, accepted]
            cases report new <;> rfl
          · simp only [plain, watched, monitored_afterChanges]
          · simp only [plain, accepted, withStore_afterChanges]

/-- All mutations but one run beside each other to the end. -/
theorem mutate_beside (accepting : Accepting τ) (errors : List StoreError) {e : Enforcer σ κ}
    (h : e.model.WellFormed) (store : τ) {mutation : Mutation} (rows : mutation ≠ .clearPolicy) :
    Beside errors (e.mutate mutation) ((e.monitored errors).mutate mutation)
      ((e.withStore store).mutate mutation) := by
  cases mutation with
  | rows s type change =>
      show Beside errors (e.change s type change) ((e.monitored errors).change s type change)
        ((e.withStore store).change s type change)
      unfold Enforcer.change
      simp only [monitored_access, withStore_access]
      cases e.access with
      | error error => exact .aside errors _ e store
      | ok _ => exact applyChange_beside accepting errors h store s type change
  | deleteUser user => exact removeTogether_beside accepting errors h store _
  | deleteRole role => exact removeTogether_beside accepting errors h store _
  | clearPolicy => exact (rows rfl).elim

/-! ## Clearing the rows -/

/-- Nothing would have to follow a change of the rows: there is no cached decision that has to go,
    and nobody is to be told. -/
structure Idle (e : Enforcer σ κ) : Prop where
  cache : e.settings.autoCleanCache = true → ∀ cache, e.cache = some cache → cache.entries = []
  watcher : (e.settings.autoNotifyWatcher && e.watched) = false

omit [PolicyStore σ] in
theorem afterChange_eq_self_iff (e : Enforcer σ κ) (change : PolicyChange) :
    e.afterChange change = e ↔ e.Idle := by
  rw [afterChange_eq]
  constructor
  · intro same
    have kept := congrArg Enforcer.cache same
    have told := congrArg Enforcer.announced same
    refine ⟨fun clean cache present => ?_, ?_⟩
    · simp only [clean, if_true, present, Option.map_some, Option.some.injEq] at kept
      exact (congrArg DecisionCache.entries kept).symm
    · cases told' : e.settings.autoNotifyWatcher && e.watched with
      | false => rfl
      | true => simp [told'] at told
  · intro idle
    have kept : (if e.settings.autoCleanCache then e.cache.map DecisionCache.clear else e.cache) =
        e.cache := by
      cases clean : e.settings.autoCleanCache with
      | false => rfl
      | true =>
          cases present : e.cache with
          | none => rfl
          | some cache =>
              simp only [if_true, Option.map_some, DecisionCache.clear,
                ← idle.cache clean cache present]
    rw [kept, idle.watcher]
    rfl

/-- The errors of the store when the rows are cleared. -/
def clearFailures (e : Enforcer σ κ) : List StoreError :=
  if e.settings.autoSave then failuresOf (PolicyStore.save e.store []).1 else []

/-- An enforcer without rows, and with a store that has been told so. -/
def cleared (e : Enforcer σ κ) : Enforcer σ κ :=
  { e with
    model := e.model.clear.buildLinks.2
    store := if e.settings.autoSave then (PolicyStore.save e.store []).2 else e.store }

/-- Where the rows can be cleared, only a store without errors lets the cache and the watcher
    follow. -/
theorem clearPolicy_eq_cleared {e : Enforcer σ κ} (h : e.model.WellFormed)
    (free : e.access = .ok ()) :
    e.clearPolicy =
      match e.clearFailures with
      | [] => (.ok (), e.cleared.afterChange .cleared)
      | error :: _ => (.error (.store error), e.cleared) := by
  rw [clearPolicy_eq h, free]
  simp only [persist_eq, clearFailures, cleared]
  cases (if e.settings.autoSave then failuresOf (PolicyStore.save e.store []).1 else []) <;> rfl

theorem monitored_cleared (e : Enforcer σ κ) (errors : List StoreError) :
    (e.monitored errors).cleared = e.cleared.monitored (errors ++ e.clearFailures) := by
  unfold cleared clearFailures monitored withStore
  cases e.settings.autoSave with
  | false => simp
  | true => rfl

/-- The first error of the store during a mutation, as a record of its errors tells; what it has not
    implemented does not count. -/
def firstFailure (e : Enforcer σ κ) (mutation : Mutation) : Option StoreError :=
  ((e.monitored []).mutate mutation).2.store.failures.head?

theorem firstFailure_clearPolicy {e : Enforcer σ κ} (h : e.model.WellFormed) {error : StoreError}
    (failed : e.firstFailure .clearPolicy = some error) :
    e.access = .ok () ∧ e.clearFailures.head? = some error := by
  cases access : e.access with
  | error refusal =>
      have refused : (e.monitored []).clearPolicy = (.error refusal, e.monitored []) := by
        unfold clearPolicy
        rw [monitored_access, access]
      have silent : e.firstFailure .clearPolicy = none := by
        unfold firstFailure mutate
        rw [refused]
        rfl
      rw [silent] at failed
      cases failed
  | ok _ =>
      have watched : ((e.monitored []).clearPolicy).2.store.failures = e.clearFailures := by
        have same : (e.monitored []).clearFailures = e.clearFailures := rfl
        rw [clearPolicy_eq_cleared (e := e.monitored []) h access, same, monitored_cleared]
        cases e.clearFailures with
        | nil => rw [monitored_afterChange]; rfl
        | cons first others => rfl
      refine ⟨rfl, ?_⟩
      rw [← watched]
      exact failed

/-- A mutation with an error of the store returns it, and leaves the rows and links that it leaves
    without the error. Everything else is as without the error too, except that clearing the rows
    then leaves out what would have to follow. -/
theorem mutate_store_failure [BEq κ] {e : Enforcer σ κ} (reachable : e.Reachable)
    (accepting : Accepting τ) (store : τ) (mutation : Mutation) {error : StoreError}
    (failed : e.firstFailure mutation = some error) :
    (e.mutate mutation).1 = .error (.store error) ∧
      (e.mutate mutation).2.model = ((e.withStore store).mutate mutation).2.model ∧
      ((e.mutate mutation).2.withStore store =
          ((e.withStore store).mutate mutation).2.withStore store ↔
        (mutation = .clearPolicy → e.Idle)) := by
  have h := reachable.wellFormed
  by_cases clears : mutation = .clearPolicy
  · subst clears
    obtain ⟨free, first⟩ := firstFailure_clearPolicy h failed
    have plain := clearPolicy_eq_cleared h free
    have accepted := clearPolicy_eq_cleared (e := e.withStore store) h free
    have none : (e.withStore store).clearFailures = [] := by
      unfold clearFailures
      rw [accepting.save]
      split <;> rfl
    obtain ⟨others, failures⟩ := List.head?_eq_some_iff.mp first
    rw [failures] at plain
    rw [none] at accepted
    simp only [mutate, plain, accepted]
    refine ⟨rfl, ?_, ?_⟩
    · rw [afterChange_model]
      rfl
    · have followed : ((e.withStore store).cleared.afterChange .cleared).withStore store =
          (e.cleared.withStore store).afterChange .cleared := by
        rw [← withStore_afterChange]
        rfl
      have idle := afterChange_eq_self_iff (e.cleared.withStore store) .cleared
      rw [followed, eq_comm, idle]
      exact ⟨fun ⟨cache, watcher⟩ _ => ⟨cache, watcher⟩,
        fun clear => ⟨(clear trivial).cache, (clear trivial).watcher⟩⟩
  · obtain ⟨new, store', plain, watched, accepted⟩ :=
      mutate_beside accepting [] h store clears
    have first : new.head? = some error := by
      unfold firstFailure at failed
      rw [watched] at failed
      exact failed
    obtain ⟨others, rfl⟩ := List.head?_eq_some_iff.mp first
    refine ⟨plain, ?_, ?_⟩
    · rw [accepted]
      rfl
    · rw [accepted]
      exact ⟨fun _ clear => (clears clear).elim, fun _ => rfl⟩

/-! ## A full disk -/

/-- A guest list with a cache, whose store cannot be written as a whole. -/
def fullDisk : Setup (RefusingStore MemoryStore) (List UInt8) :=
  { model := .guestList
    store :=
      { inner := {}
        refused := fun method => if method = .savePolicy then some (.other "disk full") else none }
    digest := id
    cache := some {} }

/-- The guest list on a full disk, after Alice has been let in. -/
def aliceIn : Enforcer (RefusingStore MemoryStore) (List UInt8) :=
  (fullDisk.enforcer.run
    [.mutate (.rows .policy "p" (.add ["alice"])), .decide .plain none [.str "alice"]]).2

theorem reachable_aliceIn : aliceIn.Reachable := by
  have built : fullDisk.build = .ok fullDisk.enforcer :=
    Setup.build_eq_enforcer (by decide +kernel)
  exact reachable_run (.built Model.prepared_guestList built) _

/-- On a full disk the guest list is cleared but for the cache. -/
theorem mutate_store_failure_fullDisk :
    aliceIn.firstFailure .clearPolicy = some (.other "disk full") ∧
      (aliceIn.mutate .clearPolicy).1 = .error (.store (.other "disk full")) ∧
      (aliceIn.mutate .clearPolicy).2.withStore NullStore.mk ≠
        ((aliceIn.withStore NullStore.mk).mutate .clearPolicy).2.withStore NullStore.mk := by
  have failed : aliceIn.firstFailure .clearPolicy = some (.other "disk full") := by decide +kernel
  have failure := mutate_store_failure reachable_aliceIn NullStore.accepting NullStore.mk
    .clearPolicy failed
  refine ⟨failed, failure.1, fun same => ?_⟩
  have idle := failure.2.2.mp same rfl
  have cached : (aliceIn.cache.map fun cache => cache.entries.isEmpty) = some false := by
    decide +kernel
  obtain ⟨cache, present, filled⟩ := Option.map_eq_some_iff.mp cached
  have empty := idle.cache (by decide +kernel) cache present
  simp [empty] at filled

/-- On a full disk, Alice is still let in after the guest list has been cleared. -/
theorem clearPolicy_fullDisk_lets_in :
    aliceIn.firstFailure .clearPolicy = some (.other "disk full") ∧
      ((aliceIn.mutate .clearPolicy).2.decide .plain none [.str "alice"]).1.toOption =
        some { allowed := true, explain := [["alice"]] } ∧
      (((aliceIn.withStore NullStore.mk).mutate .clearPolicy).2.decide .plain none
        [.str "alice"]).1.toOption = some { allowed := false, explain := [] } := by
  decide +kernel

end Enforcer

end AccessControl
