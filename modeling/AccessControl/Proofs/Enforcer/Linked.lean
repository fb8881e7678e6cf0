import AccessControl.Proofs.Enforcer.Run

/-! # The operations of an enforcer without errors of links

With a well-formed model no link can fail to be built. So what an operation of an enforcer does can
be said without the errors that it passes on from there.
-/

namespace AccessControl

/-! ## Answers of the store -/

/-- The errors among some answers of a store. What is not implemented counts as done. -/
def failuresOf : Except StoreError Unit → List StoreError
  | .ok () => []
  | .error (.notImplemented _) => []
  | .error error => [error]

/-- The answer of an operation whose calls of the store have failed in some ways. -/
def report : List StoreError → Except Error Unit
  | [] => .ok ()
  | error :: _ => .error (.store error)

theorem report_append (first second : List StoreError) :
    report (first ++ second) = (report first).bind fun _ => report second := by
  cases first <;> rfl

namespace Enforcer

variable {σ κ : Type}

theorem persist_eq (e : Enforcer σ κ) (call : σ → Except StoreError Unit × σ) :
    e.persist call =
      (report (if e.settings.autoSave then failuresOf (call e.store).1 else []),
        { e with store := if e.settings.autoSave then (call e.store).2 else e.store }) := by
  unfold persist
  cases e.settings.autoSave with
  | false => rfl
  | true =>
      simp only [if_true]
      split
      · rename_i answered
        rw [answered]
        rfl
      · rename_i answered
        rw [answered]
        rfl
      · rename_i error implemented answered
        rw [answered]
        cases error with
        | notImplemented method => exact (implemented method rfl).elim
        | io | serialization | notStored | other => rfl

theorem persist_snd (e : Enforcer σ κ) (call : σ → Except StoreError Unit × σ) :
    (e.persist call).2 =
      { e with store := if e.settings.autoSave then (call e.store).2 else e.store } := by
  rw [persist_eq]

/-- The links of a well-formed model follow every change of its rows. -/
theorem followLinks_eq {e : Enforcer σ κ} {model : Model} {s : RowSection} {type : String}
    {delta : RowDelta} {table table' : RowTable} (h : model.WellFormed)
    (changed : Model.Changed model s type (some delta) e.model table table') :
    e.followLinks s type delta =
      (.ok (), { e with model := e.model.follow e.settings.autoBuildRoleLinks s type delta }) := by
  unfold followLinks Model.follow
  split
  · rename_i follows
    obtain ⟨rfl, _⟩ := follows
    have well := changed.wellFormed h
    obtain ⟨removed, added⟩ := changed.lengths rfl h
    have found : e.model.table? .role type = some table' := by
      rw [← changed.placed, Model.table?_setTable, if_pos ⟨rfl, rfl⟩, changed.found]
      rfl
    obtain ⟨role, declared, rfl⟩ := Model.role_of_table? found
    rw [changed.outcome.shape.arity.symm] at removed added
    have first := well.changeLinks declared .remove removed
    have same := Model.tables_modifyRole e.model type
      (fun role => (role.changeLinks .remove delta.removed).2) fun _ => rfl
    have linked := Model.role_modifyRole_self declared
      fun role => (role.changeLinks .remove delta.removed).2
    have second := (same.wellFormed well).changeLinks linked .add added
    rw [first]
    simp only
    rw [second]
    simp only [Model.modifyRole_modifyRole]
    rfl
  · rfl

theorem buildRoleLinks_eq {e : Enforcer σ κ} (h : e.model.WellFormed) :
    e.buildRoleLinks =
      match e.access with
      | .error error => (.error error, e)
      | .ok () => (.ok (), { e with model := e.model.buildLinks.2 }.clearCache) := by
  unfold buildRoleLinks
  have built := h.buildLinks_fst
  cases e.access with
  | error error => rfl
  | ok _ =>
      simp only
      generalize e.model.buildLinks = outcome at built ⊢
      obtain ⟨answer, model⟩ := outcome
      obtain rfl := built
      rfl

theorem setManager_eq {e : Enforcer σ κ} (h : e.model.WellFormed) (type : String)
    (manager : RoleManager) :
    e.setManager type manager = e.changeRole type (·.linkedIn manager) := by
  unfold setManager changeRole
  cases e.access with
  | error error => rfl
  | ok _ =>
      cases declared : e.model.role type with
      | error error =>
          unfold Model.setManager
          rw [declared]
      | ok role =>
          simp only
          rw [h.setManager declared manager]

/-- Lines that pass the check take the place of all rows. -/
theorem replaceRows_eq {e : Enforcer σ κ} (h : e.model.WellFormed) (lines : List PolicyLine) :
    e.replaceRows lines =
      match e.model.checkLines lines with
      | .error error => (.error error, e)
      | .ok () =>
        (.ok (), { e with model :=
          if e.settings.autoBuildRoleLinks then (e.model.clear.load lines).2.buildLinks.2
          else (e.model.clear.load lines).2 }.clearCache) := by
  unfold replaceRows
  cases passed : e.model.checkLines lines with
  | error error => rfl
  | ok _ =>
      obtain ⟨count, loaded⟩ := Model.load_fst passed e.model.shapes_clear
      have built := ((h.clear.load lines).1).buildLinks_fst
      generalize e.model.clear.load lines = outcome at loaded built ⊢
      obtain ⟨answer, model⟩ := outcome
      obtain rfl := loaded
      simp only at built ⊢
      cases e.settings.autoBuildRoleLinks with
      | false => rfl
      | true =>
          generalize model.buildLinks = outcome at built ⊢
          obtain ⟨answer, model⟩ := outcome
          obtain rfl := built
          rfl

variable [PolicyStore σ]

/-- Pass a change on to the store, when it has led to another model, and let the links follow. -/
def carryOut (e : Enforcer σ κ) (model : Model) (s : RowSection) (type : String)
    (change : RowChange) (delta : RowDelta) : Except Error Unit × Enforcer σ κ :=
  let (persisted, e) := { e with model }.persist fun store =>
    PolicyStore.follow store s type change
  (persisted, { e with model := model.follow e.settings.autoBuildRoleLinks s type delta })

theorem carryOut_eq (e : Enforcer σ κ) (model : Model) (s : RowSection) (type : String)
    (change : RowChange) (delta : RowDelta) :
    e.carryOut model s type change delta =
      (report (if e.settings.autoSave then
          failuresOf (PolicyStore.follow e.store s type change).1 else []),
        { e with
          model := model.follow e.settings.autoBuildRoleLinks s type delta
          store :=
            if e.settings.autoSave then (PolicyStore.follow e.store s type change).2
            else e.store }) := by
  unfold carryOut
  rw [persist_eq]

theorem applyChange_eq {e : Enforcer σ κ} (h : e.model.WellFormed) (s : RowSection) (type : String)
    (change : RowChange) :
    e.applyChange s type change =
      match e.model.apply s.key type change with
      | .error error => (.error error, e)
      | .ok (none, _) => (.ok false, e)
      | .ok (some delta, model) =>
        let (persisted, e) := e.carryOut model s type change delta
        (persisted.map fun _ => true, e.afterChange (.rows s type change)) := by
  unfold applyChange
  cases made : e.model.apply s.key type change with
  | error error => rfl
  | ok outcome =>
      obtain ⟨delta?, model⟩ := outcome
      obtain ⟨table, table', changed⟩ := h.apply made
      cases delta? with
      | none => simp only [changed.unchanged rfl]
      | some delta =>
          simp only [carryOut, persist_snd]
          rw [followLinks_eq h changed]

theorem apply_of_removeFiltered {model model' : Model} {s : RowSection} {type : String}
    {filter : FieldFilter} {removed : List Row}
    (made : model.removeFiltered s.key type filter = .ok (removed, model')) :
    model.apply s.key type (.removeFiltered filter) =
      .ok (RowDelta.ifChanged { removed } (!removed.isEmpty, model')) := by
  simp only [Model.apply, made]
  rfl

theorem applyRemovals_cons {e : Enforcer σ κ} (h : e.model.WellFormed) (removal : Removal)
    (rest : List Removal) :
    e.applyRemovals (removal :: rest) =
      match e.model.removeFiltered removal.table.key removal.type removal.filter with
      | .error error => (.error error, e)
      | .ok (removed, model) =>
        if removed.isEmpty then e.applyRemovals rest
        else
          let (persisted, e) := e.carryOut model removal.table removal.type
            (.removeFiltered removal.filter) { removed }
          match e.applyRemovals rest with
          | (.error error, e) => (.error error, e)
          | (.ok (others, changes), e) =>
            (.ok (persisted.bind fun _ => others, removal.change :: changes), e) := by
  conv => lhs; unfold applyRemovals
  cases made : e.model.removeFiltered removal.table.key removal.type removal.filter with
  | error error => rfl
  | ok outcome =>
      obtain ⟨removed, model⟩ := outcome
      obtain ⟨table, table', changed⟩ := h.apply (apply_of_removeFiltered made)
      simp only
      cases none : removed.isEmpty with
      | true =>
          simp only [none, Bool.not_true] at changed
          rw [changed.unchanged rfl]
          rfl
      | false =>
          simp only [none, Bool.not_false, if_true] at changed
          simp only [carryOut, persist_snd, Bool.false_eq_true, if_false]
          rewrite [followLinks_eq h changed]
          rfl

/-- All removals are from declared types. -/
def Declares (model : Model) (removals : List Removal) : Prop :=
  ∀ removal ∈ removals, ∃ table, model.table? removal.table removal.type = some table

omit [PolicyStore σ] in
theorem declares_of_checkRemovals {e : Enforcer σ κ} {removals : List Removal} {u : Unit}
    (checked : e.checkRemovals removals = .ok u) : Declares e.model removals := by
  induction removals with
  | nil => simp [Declares]
  | cons removal rest ih =>
      unfold checkRemovals at checked
      split at checked
      · simp at checked
      · rename_i table found
        exact List.forall_mem_cons.mpr ⟨⟨table, found⟩, ih checked⟩

omit [PolicyStore σ] in
theorem checkRemovals_of_declares {e : Enforcer σ κ} {removals : List Removal}
    (declares : Declares e.model removals) : e.checkRemovals removals = .ok () := by
  induction removals with
  | nil => rfl
  | cons removal rest ih =>
      obtain ⟨⟨table, found⟩, others⟩ := List.forall_mem_cons.mp declares
      unfold checkRemovals
      rw [found]
      exact ih others

theorem Declares.congr {model model' : Model} {removals : List Removal}
    (declares : Declares model removals) (shapes : model.SameShapes model') :
    Declares model' removals := by
  intro removal member
  obtain ⟨table, found⟩ := declares removal member
  obtain ⟨table', found', _⟩ := shapes.table? found
  exact ⟨table', found'⟩

theorem removeFiltered_eq_ok {model : Model} {s : RowSection} {type : String} {table : RowTable}
    (found : model.table? s type = some table) (filter : FieldFilter) :
    ∃ removed model', model.removeFiltered s.key type filter = .ok (removed, model') :=
  ⟨_, _, Model.change_eq_ok_iff.mpr ⟨s, table, _, s.ofKey_key, found, rfl, rfl⟩⟩

/-- To clear the rows fails only if the state is being read, or if the store fails. -/
theorem clearPolicy_eq {e : Enforcer σ κ} (h : e.model.WellFormed) :
    e.clearPolicy =
      match e.access with
      | .error error => (.error error, e)
      | .ok () =>
        match { e with model := e.model.clear.buildLinks.2 }.persist fun store =>
            PolicyStore.save store [] with
        | (.error error, e) => (.error error, e)
        | (.ok (), e) => (.ok (), e.afterChange .cleared) := by
  unfold clearPolicy
  have built := h.clear.buildLinks_fst
  cases e.access with
  | error error => rfl
  | ok _ =>
      simp only
      generalize e.model.clear.buildLinks = outcome at built ⊢
      obtain ⟨answer, model⟩ := outcome
      obtain rfl := built
      rfl

omit [PolicyStore σ] in
theorem afterChange_eq (e : Enforcer σ κ) (change : PolicyChange) :
    e.afterChange change = { e with
      cache := if e.settings.autoCleanCache then e.cache.map DecisionCache.clear else e.cache
      announced :=
        if e.settings.autoNotifyWatcher && e.watched then e.announced ++ [change]
        else e.announced } := by
  unfold afterChange announce clearCache
  cases e.settings.autoCleanCache with
  | false =>
      simp only [Bool.false_eq_true, if_false]
      split <;> rfl
  | true =>
      simp only [if_true]
      split <;> rfl

omit [PolicyStore σ] in
@[simp]
theorem afterChange_model (e : Enforcer σ κ) (change : PolicyChange) :
    (e.afterChange change).model = e.model := by rw [afterChange_eq]

omit [PolicyStore σ] in
@[simp]
theorem afterChange_store (e : Enforcer σ κ) (change : PolicyChange) :
    (e.afterChange change).store = e.store := by rw [afterChange_eq]

omit [PolicyStore σ] in
@[simp]
theorem afterChange_settings (e : Enforcer σ κ) (change : PolicyChange) :
    (e.afterChange change).settings = e.settings := by rw [afterChange_eq]

omit [PolicyStore σ] in
@[simp]
theorem afterChange_beingRead (e : Enforcer σ κ) (change : PolicyChange) :
    (e.afterChange change).beingRead = e.beingRead := by rw [afterChange_eq]

end Enforcer

end AccessControl
