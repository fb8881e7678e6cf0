import AccessControl.Proofs.Enforcer.Moves
import AccessControl.Proofs.Model.Forget

/-! # What operations keep in memory

Compiled matchers depend on the registered functions, and cached decisions on everything but what an
enforcer remembers. An operation that changes any of this keeps nothing that depends on it, whether
or not it comes to its end.
-/

namespace AccessControl

/-- The states that a store can come to. -/
inductive PolicyStore.Later {σ : Type} [PolicyStore σ] (store : σ) : σ → Prop where
  | same : Later store store
  | save {store' : σ} (lines : List PolicyLine) (before : Later store store') :
      Later store (PolicyStore.save store' lines).2
  | follow {store' : σ} (s : RowSection) (type : String) (change : RowChange)
      (before : Later store store') : Later store (PolicyStore.follow store' s type change).2

theorem PolicyStore.Later.trans {σ : Type} [PolicyStore σ] {first second third : σ}
    (before : Later first second) (after : Later second third) : Later first third := by
  induction after with
  | same => exact before
  | save lines _ ih => exact ih.save lines
  | follow s type change _ ih => exact ih.follow s type change

/-- Whenever a store is told that there are no more rows, it does so or has not implemented it. -/
def PolicyStore.ClearsQuietly {σ : Type} [PolicyStore σ] (store : σ) : Prop :=
  ∀ store', Later store store' → failuresOf (PolicyStore.save store' []).1 = []

namespace Enforcer

variable {σ κ : Type}

/-- The entries of the cache. -/
def cached (e : Enforcer σ κ) : List (κ × CachedDecision) :=
  (e.cache.map (·.entries)).getD []

@[simp]
theorem cached_clearCache (e : Enforcer σ κ) : e.clearCache.cached = [] := by
  unfold cached clearCache
  cases e.cache <;> rfl

variable [PolicyStore σ]

/-- What an operation keeps: compiled matchers only with the functions, and cached decisions only
    with the functions and a model that has not changed but for what it remembers. -/
structure Keeps (e e' : Enforcer σ κ) : Prop where
  digest : e'.digest = e.digest
  store : PolicyStore.Later e.store e'.store
  matchers : e'.matchers = e.matchers.clear ∨
    e'.matchers = e.matchers ∧ e'.functions = e.functions
  decisions : e'.cached = [] ∨
    e'.cached = e.cached ∧ e'.functions = e.functions ∧ e'.model.forget = e.model.forget

namespace Keeps

variable {e e' : Enforcer σ κ}

theorem refl (e : Enforcer σ κ) : Keeps e e :=
  ⟨rfl, .same, .inr ⟨rfl, rfl⟩, .inr ⟨rfl, rfl, rfl⟩⟩

theorem cleared (e : Enforcer σ κ) (model : Model) {store : σ}
    (later : PolicyStore.Later e.store store) : Keeps e { e with model, store }.clearCache :=
  ⟨rfl, later, .inr ⟨rfl, rfl⟩, .inl (cached_clearCache _)⟩

theorem afterChange {model : Model} {store : σ} (clean : e.settings.autoCleanCache = true)
    (later : PolicyStore.Later e.store store) (change : PolicyChange) :
    Keeps e ({ e with model, store }.afterChange change) := by
  rw [afterChange_eq]
  refine ⟨rfl, later, .inr ⟨rfl, rfl⟩, .inl ?_⟩
  simp only [clean, if_true]
  exact cached_clearCache e

theorem afterChanges (kept : Keeps e e') (clean : e'.settings.autoCleanCache = true)
    (changes : List PolicyChange) : Keeps e (changes.foldl Enforcer.afterChange e') := by
  induction changes generalizing e' with
  | nil => exact kept
  | cons change rest ih =>
      refine ih ?_ ((afterChange_settings e' change).symm ▸ clean)
      rw [afterChange_eq]
      refine ⟨kept.digest, kept.store, kept.matchers, .inl ?_⟩
      simp only [clean, if_true]
      exact cached_clearCache e'

end Keeps

/-! ## Changing rows -/

/-- To carry out a change leaves all but the model and the store alone, and fails only where the store
    does. -/
theorem carryOut_report (e : Enforcer σ κ) (model : Model) (s : RowSection) (type : String)
    (change : RowChange) (delta : RowDelta) :
    ∃ failures store, PolicyStore.Later e.store store ∧
      e.carryOut model s type change delta = (report failures,
        { e with model := model.follow e.settings.autoBuildRoleLinks s type delta, store }) := by
  refine ⟨_, _, ?_, e.carryOut_eq model s type change delta⟩
  cases e.settings.autoSave with
  | false => exact .same
  | true => exact .follow s type change .same

theorem keeps_applyChange {e : Enforcer σ κ} (h : e.model.WellFormed)
    (clean : e.settings.autoCleanCache = true) (s : RowSection) (type : String)
    (change : RowChange) : Keeps e (e.applyChange s type change).2 := by
  rw [applyChange_eq h]
  split
  · exact .refl e
  · exact .refl e
  · rename_i delta model _
    obtain ⟨_, store, later, carried⟩ := carryOut_report e model s type change delta
    simp only [carried]
    exact .afterChange clean later _

/-- Removals from declared types are all made, and fail only where the store does. Without an
    announcement nothing has been done. -/
theorem applyRemovals_eq_ok {e : Enforcer σ κ} (h : e.model.WellFormed) {removals : List Removal}
    (declares : Declares e.model removals) :
    ∃ failures changes model store,
      e.applyRemovals removals = (.ok (report failures, changes), { e with model, store }) ∧
        PolicyStore.Later e.store store ∧
        (changes = [] → failures = [] ∧ model = e.model ∧ store = e.store) := by
  induction removals generalizing e with
  | nil => exact ⟨[], [], e.model, e.store, rfl, .same, fun _ => ⟨rfl, rfl, rfl⟩⟩
  | cons removal rest ih =>
      obtain ⟨⟨table, found⟩, others⟩ := List.forall_mem_cons.mp declares
      obtain ⟨removed, model, made⟩ := removeFiltered_eq_ok found removal.filter
      rw [applyRemovals_cons h, made]
      cases none : removed.isEmpty with
      | true =>
          simp only [none, if_true]
          exact ih h others
      | false =>
          obtain ⟨table, table', changed⟩ := h.apply (apply_of_removeFiltered made)
          simp only [none, Bool.not_false, if_true] at changed
          have moved := moved_carryOut (.removeFiltered removal.filter) changed
          obtain ⟨first, store, later, carried⟩ := carryOut_report e model removal.table removal.type
            (.removeFiltered removal.filter) { removed }
          obtain ⟨failures, changes, model', store', last, later', _⟩ :=
            ih (moved.wellFormed h) (Declares.congr others (moved.shapes h))
          rw [carried] at last later'
          simp only [none, Bool.false_eq_true, if_false, carried, last, ← report_append]
          exact ⟨_, _, model', store', rfl, later.trans later', by simp⟩

theorem keeps_removeTogether {e : Enforcer σ κ} (h : e.model.WellFormed)
    (clean : e.settings.autoCleanCache = true) (removals : List Removal) :
    Keeps e (e.removeTogether removals).2 := by
  unfold removeTogether
  split
  · exact .refl e
  · split
    · exact .refl e
    · rename_i checked
      obtain ⟨failures, changes, model, store, applied, later, untouched⟩ :=
        applyRemovals_eq_ok h (declares_of_checkRemovals checked)
      rw [applied]
      cases changes with
      | nil =>
          obtain ⟨_, rfl, rfl⟩ := untouched rfl
          exact .refl e
      | cons change rest =>
          have first : Keeps e ({ e with model, store }.afterChange change) :=
            .afterChange clean later change
          exact first.afterChanges ((afterChange_settings _ change).symm ▸ clean) rest

theorem keeps_clearPolicy {e : Enforcer σ κ} (h : e.model.WellFormed)
    (clean : e.settings.autoCleanCache = true) (quiet : PolicyStore.ClearsQuietly e.store) :
    Keeps e e.clearPolicy.2 := by
  have accepted : report (if e.settings.autoSave then
      failuresOf (PolicyStore.save e.store []).1 else []) = .ok () := by
    rw [quiet e.store .same, ite_self]
    rfl
  rw [clearPolicy_eq h]
  split
  · exact .refl e
  · simp only [persist_eq, accepted]
    refine .afterChange clean ?_ .cleared
    cases e.settings.autoSave with
    | false => exact .same
    | true => exact .save [] .same

theorem keeps_mutate {e : Enforcer σ κ} (h : e.model.WellFormed)
    (clean : e.settings.autoCleanCache = true) (quiet : PolicyStore.ClearsQuietly e.store)
    (mutation : Mutation) : Keeps e (e.mutate mutation).2 := by
  cases mutation with
  | rows s type change =>
      show Keeps e (e.change s type change).2
      unfold Enforcer.change
      split
      · exact .refl e
      · exact keeps_applyChange h clean s type change
  | deleteUser user => exact keeps_removeTogether h clean _
  | deleteRole role => exact keeps_removeTogether h clean _
  | clearPolicy => exact keeps_clearPolicy h clean quiet

/-! ## Loading, saving and switching -/

theorem keeps_loadPolicy {e : Enforcer σ κ} (h : e.model.WellFormed) : Keeps e e.loadPolicy.2 := by
  unfold loadPolicy
  split
  · exact .refl e
  · split
    · exact .refl e
    · rw [replaceRows_eq h]
      split
      · exact .refl e
      · exact .cleared e _ .same

theorem cached_loadPolicy {e e' : Enforcer σ κ} (loaded : e.loadPolicy = (.ok (), e')) :
    e'.cached = [] := by
  unfold loadPolicy at loaded
  split at loaded
  · simp at loaded
  · split at loaded
    · simp at loaded
    · unfold replaceRows at loaded
      split at loaded
      · simp at loaded
      · split at loaded
        · simp at loaded
        · split at loaded
          · split at loaded
            · simp at loaded
            · obtain ⟨_, rfl⟩ := Prod.mk.inj loaded
              exact cached_clearCache _
          · obtain ⟨_, rfl⟩ := Prod.mk.inj loaded
            exact cached_clearCache _

theorem keeps_savePolicy (e : Enforcer σ κ) : Keeps e e.savePolicy.2 := by
  have later : PolicyStore.Later e.store (PolicyStore.save e.store e.model.lines).2 :=
    .save e.model.lines .same
  unfold savePolicy announce
  split
  · rename_i failed
    rw [failed] at later
    exact ⟨rfl, later, .inr ⟨rfl, rfl⟩, .inr ⟨rfl, rfl, rfl⟩⟩
  · rename_i saved
    rw [saved] at later
    split <;> exact ⟨rfl, later, .inr ⟨rfl, rfl⟩, .inr ⟨rfl, rfl, rfl⟩⟩

theorem keeps_buildRoleLinks {e : Enforcer σ κ} (h : e.model.WellFormed) :
    Keeps e e.buildRoleLinks.2 := by
  rw [buildRoleLinks_eq h]
  split
  · exact .refl e
  · exact .cleared e _ .same

theorem keeps_addFunction (e : Enforcer σ κ) (name : String) (f : CustomFunction) :
    Keeps e (e.addFunction name f).2 := by
  unfold addFunction
  split
  · exact .refl e
  · exact ⟨rfl, .same, .inl rfl, .inl (cached_clearCache _)⟩

theorem keeps_changeRole (e : Enforcer σ κ) (type : String) (change : RoleType → RoleType) :
    Keeps e (e.changeRole type change).2 := by
  unfold changeRole
  split
  · exact .refl e
  · split
    · exact .refl e
    · exact .cleared e _ .same

theorem keeps_ask (e : Enforcer σ κ) (type name role : String) (domain : Option String) :
    Keeps e (e.ask type name role domain).2 :=
  ⟨rfl, .same, .inr ⟨rfl, rfl⟩, .inr ⟨rfl, rfl, e.model.rememberLink_forget type name role domain⟩⟩

theorem keeps_wait (e : Enforcer σ κ) (nanoseconds : Nat) : Keeps e (e.wait nanoseconds) := by
  refine ⟨rfl, .same, .inr ⟨rfl, rfl⟩, .inr ⟨?_, rfl, rfl⟩⟩
  unfold cached wait
  cases e.cache <;> rfl

/-- No operation but a decision keeps anything that is out of date. -/
theorem keeps_step [BEq κ] {e : Enforcer σ κ} (h : e.model.WellFormed)
    (clean : e.settings.autoCleanCache = true) (quiet : PolicyStore.ClearsQuietly e.store)
    {operation : Operation} (other : operation.query? = none) :
    Keeps e (e.step operation).2 := by
  cases operation with
  | mutate mutation => exact keeps_mutate h clean quiet mutation
  | loadPolicy => exact keeps_loadPolicy h
  | savePolicy => exact keeps_savePolicy e
  | buildRoleLinks => exact keeps_buildRoleLinks h
  | addFunction name f => exact keeps_addFunction e name f
  | addNamePredicate type holds => exact keeps_changeRole e type _
  | addDomainPredicate type holds => exact keeps_changeRole e type _
  | setManager type manager =>
      show Keeps e (e.setManager type manager).2
      rw [setManager_eq h]
      exact keeps_changeRole e type _
  | enable enabled => exact ⟨rfl, .same, .inr ⟨rfl, rfl⟩, .inr ⟨rfl, rfl, rfl⟩⟩
  | decide context given request => simp [Operation.query?] at other
  | ask type name role domain => exact keeps_ask e type name role domain
  | clearCache => exact .cleared e e.model .same
  | wait nanoseconds => exact keeps_wait e nanoseconds

end Enforcer

end AccessControl
