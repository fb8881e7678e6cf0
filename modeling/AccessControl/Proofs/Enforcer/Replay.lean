import AccessControl.Proofs.Enforcer.Silent

/-! # Followers

A follower keeps a copy of the rows and hears of nothing but what the watcher is told. If it makes the
changes that it hears of, one after another, it has the rows of the enforcer, in the same order.
-/

namespace AccessControl

/-! ## Copies -/

namespace Model

/-- Make a change that has been announced. -/
def obey (model : Model) : PolicyChange → Except Error Model
  | .rows s type change => (model.apply s.key type change).map (·.2)
  | .cleared => .ok model.clear
  | .saved => .ok model

/-- Make changes one after another, up to the first that is refused. -/
def replay (model : Model) : List PolicyChange → Except Error Model
  | [] => .ok model
  | change :: rest => do
    let model ← model.obey change
    model.replay rest

theorem replay_append (model : Model) (first second : List PolicyChange) :
    model.replay (first ++ second) = model.replay first >>= (·.replay second) := by
  induction first generalizing model with
  | nil => rfl
  | cons change rest ih =>
      simp only [List.cons_append, replay]
      cases model.obey change with
      | error error => rfl
      | ok next => exact ih next

/-- A change does the same to all copies of a table. -/
theorem SameTables.apply {model model' copy : Model} (same : model.SameTables copy)
    {s : RowSection} {type : String} {change : RowChange} {delta? : Option RowDelta}
    (made : model.apply s.key type change = .ok (delta?, model')) :
    ∃ copy', copy.apply s.key type change = .ok (delta?, copy') ∧ model'.SameTables copy' := by
  obtain ⟨table, table', found, outcome, rfl⟩ := apply_eq_ok made
  have found' : copy.table? s type = some table := by rw [same, found]
  refine ⟨copy.setTable s type table', ?_, fun s' type' => ?_⟩
  · rw [apply_eq (paired_of_apply made)]
    exact change_eq_ok_iff.mpr ⟨s, table, table', s.ofKey_key, found', outcome, rfl⟩
  · rw [table?_setTable, table?_setTable, found, found', same]

/-- With some changes every copy of one model becomes a copy of another. -/
def Replays (changes : List PolicyChange) (model model' : Model) : Prop :=
  ∀ copy, model.SameTables copy → ∃ copy', copy.replay changes = .ok copy' ∧ model'.SameTables copy'

namespace Replays

variable {model model' model'' : Model} {changes changes' : List PolicyChange}

theorem still (same : model.SameTables model') : Replays [] model model' :=
  fun copy copied => ⟨copy, rfl, fun s type => (copied s type).trans (same s type).symm⟩

theorem trans (first : Replays changes model model') (second : Replays changes' model' model'') :
    Replays (changes ++ changes') model model'' := by
  intro copy copied
  obtain ⟨between, made, copied'⟩ := first copy copied
  obtain ⟨last, made', copied''⟩ := second between copied'
  exact ⟨last, by rw [replay_append, made]; exact made', copied''⟩

theorem trans_still (first : Replays changes model model') (same : model'.SameTables model'') :
    Replays changes model model'' := by
  have both := first.trans (still same)
  rwa [List.append_nil] at both

theorem rows {s : RowSection} {type : String} {change : RowChange} {delta? : Option RowDelta}
    (made : model.apply s.key type change = .ok (delta?, model')) :
    Replays [.rows s type change] model model' := by
  intro copy copied
  obtain ⟨copy', made', copied'⟩ := copied.apply made
  refine ⟨copy', ?_, copied'⟩
  simp only [replay, obey, made']
  rfl

theorem cleared (model : Model) : Replays [.cleared] model model.clear := by
  intro copy copied
  refine ⟨copy.clear, rfl, fun s type => ?_⟩
  rw [table?_clear, table?_clear, copied]

theorem saved (model : Model) : Replays [.saved] model model :=
  fun copy copied => ⟨copy, rfl, copied⟩

end Replays

end Model

namespace Enforcer

variable {σ κ : Type}

/-- Whether the watcher is told of changes. -/
def tellsWatcher (e : Enforcer σ κ) : Bool := e.settings.autoNotifyWatcher && e.watched

theorem afterChanges_of_tellsWatcher {e : Enforcer σ κ} (tells : e.tellsWatcher = true)
    (changes : List PolicyChange) :
    ∃ cache, changes.foldl afterChange e =
      { e with cache, announced := e.announced ++ changes } := by
  induction changes generalizing e with
  | nil => exact ⟨e.cache, by simp⟩
  | cons change rest ih =>
      have first := afterChange_eq e change
      have heard : (e.settings.autoNotifyWatcher && e.watched) = true := tells
      rw [heard, if_pos rfl] at first
      obtain ⟨cache, others⟩ := ih (e := e.afterChange change) (by rw [first]; exact tells)
      refine ⟨cache, ?_⟩
      rw [List.foldl_cons, others, first]
      simp

variable [PolicyStore σ]

/-- What the watcher is told while an enforcer comes from one state to another, and that it leads all
    copies of the rows there as well. -/
structure Tells (changes : List PolicyChange) (e e' : Enforcer σ κ) : Prop where
  settings : e'.settings = e.settings
  watched : e'.watched = e.watched
  store : PolicyStore.Later e.store e'.store
  announced : e'.announced = e.announced ++ changes
  replays : Model.Replays changes e.model e'.model

namespace Tells

variable {e e' e'' : Enforcer σ κ} {changes changes' : List PolicyChange}

theorem refl (e : Enforcer σ κ) : Tells [] e e :=
  ⟨rfl, rfl, .same, (List.append_nil _).symm, .still (.refl e.model)⟩

theorem trans (first : Tells changes e e') (second : Tells changes' e' e'') :
    Tells (changes ++ changes') e e'' where
  settings := second.settings.trans first.settings
  watched := second.watched.trans first.watched
  store := first.store.trans second.store
  announced := by rw [second.announced, first.announced, List.append_assoc]
  replays := first.replays.trans second.replays

theorem tellsWatcher (tells : Tells changes e e') (heard : e.tellsWatcher = true) :
    e'.tellsWatcher = true := by
  unfold Enforcer.tellsWatcher
  rw [tells.settings, tells.watched]
  exact heard

theorem quiet (tells : Tells changes e e') (quiet : PolicyStore.ClearsQuietly e.store) :
    PolicyStore.ClearsQuietly e'.store :=
  fun _ later => quiet _ (tells.store.trans later)

theorem afterChanges {model : Model} {store : σ} (heard : e.tellsWatcher = true)
    (later : PolicyStore.Later e.store store) (replays : Model.Replays changes e.model model) :
    Tells changes e (changes.foldl afterChange { e with model, store }) := by
  obtain ⟨cache, told⟩ := afterChanges_of_tellsWatcher (e := { e with model, store }) heard changes
  rw [told]
  exact ⟨rfl, rfl, later, rfl, replays⟩

end Tells

section

variable {e : Enforcer σ κ} (h : e.model.WellFormed) (heard : e.tellsWatcher = true)
include h heard

theorem tells_change (s : RowSection) (type : String) (change : RowChange) :
    ∃ changes, Tells changes e (e.change s type change).2 := by
  unfold Enforcer.change
  cases e.access with
  | error error => exact ⟨[], .refl e⟩
  | ok _ =>
      simp only
      rw [applyChange_eq h]
      cases made : e.model.apply s.key type change with
      | error error => exact ⟨[], .refl e⟩
      | ok outcome =>
          obtain ⟨delta?, model⟩ := outcome
          cases delta? with
          | none => exact ⟨[], .refl e⟩
          | some delta =>
              obtain ⟨_, store, later, carried⟩ := carryOut_report e model s type change delta
              simp only [carried]
              have replays := (Model.Replays.rows made).trans_still
                (Model.tables_follow model e.settings.autoBuildRoleLinks s type delta)
              exact ⟨_, .afterChanges heard later replays⟩

omit heard in
theorem replays_applyRemovals {removals : List Removal} {answer : Except Error Unit}
    {changes : List PolicyChange} {e' : Enforcer σ κ}
    (made : e.applyRemovals removals = (.ok (answer, changes), e')) :
    Model.Replays changes e.model e'.model := by
  induction removals generalizing e answer changes with
  | nil =>
      simp only [applyRemovals, Prod.mk.injEq, Except.ok.injEq] at made
      obtain ⟨⟨_, rfl⟩, rfl⟩ := made
      exact .still (.refl e.model)
  | cons removal rest ih =>
      rw [applyRemovals_cons h] at made
      split at made
      · simp at made
      · rename_i removed model taken
        have applied := apply_of_removeFiltered taken
        obtain ⟨table, table', changed⟩ := h.apply applied
        split at made
        · rename_i none
          simp only [none, Bool.not_true] at changed
          exact ih h made
        · rename_i some
          simp only [Bool.not_eq_true] at some
          simp only [some, Bool.not_false] at changed applied
          have moved := moved_carryOut (.removeFiltered removal.filter) changed
          simp only at made
          split at made
          · simp at made
          · rename_i others
            obtain ⟨outcome, rfl⟩ := Prod.mk.inj made
            obtain ⟨_, rfl⟩ := Prod.mk.inj (Except.ok.inj outcome)
            have first : Model.Replays [removal.change] e.model
                (e.carryOut model removal.table removal.type (.removeFiltered removal.filter)
                  { removed }).2.model := by
              rw [carryOut_eq]
              exact (Model.Replays.rows applied).trans_still (Model.tables_follow model _ _ _ _)
            exact first.trans (ih (moved.wellFormed h) others)

theorem tells_removeTogether (removals : List Removal) :
    ∃ changes, Tells changes e (e.removeTogether removals).2 := by
  unfold removeTogether
  cases e.access with
  | error error => exact ⟨[], .refl e⟩
  | ok _ =>
      cases checked : e.checkRemovals removals with
      | error error => exact ⟨[], .refl e⟩
      | ok _ =>
          obtain ⟨_, changes, model, store, applied, later, _⟩ :=
            applyRemovals_eq_ok h (declares_of_checkRemovals checked)
          have replays := replays_applyRemovals h applied
          simp only [applied]
          exact ⟨changes, .afterChanges heard later replays⟩

theorem tells_clearPolicy (quiet : PolicyStore.ClearsQuietly e.store) :
    ∃ changes, Tells changes e e.clearPolicy.2 := by
  have accepted : report (if e.settings.autoSave then
      failuresOf (PolicyStore.save e.store []).1 else []) = .ok () := by
    rw [quiet e.store .same, ite_self]
    rfl
  have later : PolicyStore.Later e.store
      (if e.settings.autoSave then (PolicyStore.save e.store []).2 else e.store) := by
    split
    · exact .save [] .same
    · exact .same
  rw [clearPolicy_eq h]
  cases e.access with
  | error error => exact ⟨[], .refl e⟩
  | ok _ =>
      simp only [persist_eq, accepted]
      exact ⟨[.cleared], .afterChanges heard later
        ((Model.Replays.cleared e.model).trans_still (Model.tables_buildLinks _))⟩

theorem tells_mutate (quiet : PolicyStore.ClearsQuietly e.store) (mutation : Mutation) :
    ∃ changes, Tells changes e (e.mutate mutation).2 := by
  cases mutation with
  | rows s type change => exact tells_change h heard s type change
  | deleteUser user => exact tells_removeTogether h heard (Removal.ofUser user)
  | deleteRole role => exact tells_removeTogether h heard (Removal.ofRole role)
  | clearPolicy => exact tells_clearPolicy h heard quiet

omit h in
theorem tells_savePolicy : ∃ changes, Tells changes e e.savePolicy.2 := by
  have later : PolicyStore.Later e.store (PolicyStore.save e.store e.model.lines).2 :=
    .save e.model.lines .same
  unfold savePolicy
  split
  · rename_i failed
    rw [failed] at later
    exact ⟨[], rfl, rfl, later, (List.append_nil _).symm, .still (.refl e.model)⟩
  · rename_i saved
    rw [saved] at later
    unfold announce
    have heard' : (e.settings.autoNotifyWatcher && e.watched) = true := heard
    simp only [heard', if_true]
    exact ⟨[.saved], rfl, rfl, later, rfl, .saved e.model⟩

end

/-! ## Runs -/

variable [BEq κ]

omit [PolicyStore σ] [BEq κ] in
theorem watched_changeRole (e : Enforcer σ κ) (type : String) (change : RoleType → RoleType) :
    (e.changeRole type change).2.watched = e.watched ∧
      (e.changeRole type change).2.announced = e.announced := by
  unfold changeRole
  split
  · exact ⟨rfl, rfl⟩
  · split <;> exact ⟨rfl, rfl⟩

omit [PolicyStore σ] in
theorem watched_decide (e : Enforcer σ κ) (context : Context) (given : Option String)
    (request : List Value) : (e.decide context given request).2.watched = e.watched ∧
      (e.decide context given request).2.announced = e.announced := by
  have evaluated (e : Enforcer σ κ) : (e.evaluate context given request).2.watched = e.watched ∧
      (e.evaluate context given request).2.announced = e.announced := by
    unfold evaluate
    split <;> exact ⟨rfl, rfl⟩
  unfold decide
  split
  · unfold decideEnabled
    split
    · exact evaluated e
    · rename_i cache _
      simp only
      have asked := evaluated { e with
        cache := some ((cache.elapse 1).get (e.cacheKey context given request)).2 }
      split
      · exact ⟨rfl, rfl⟩
      · split
        · rename_i failed
          rwa [failed] at asked
        · rename_i done
          rwa [done] at asked
  · exact ⟨rfl, rfl⟩

theorem tells_apart {e : Enforcer σ κ} (h : e.model.WellFormed) {operation : Operation}
    (silent : operation.callsStore = false) : Tells [] e (e.step operation).2 := by
  obtain ⟨_, apart⟩ := apart_step h silent
  have unheard : (e.step operation).2.watched = e.watched ∧
      (e.step operation).2.announced = e.announced := by
    cases operation with
    | mutate | loadPolicy | savePolicy => cases silent
    | buildRoleLinks =>
        show e.buildRoleLinks.2.watched = _ ∧ e.buildRoleLinks.2.announced = _
        rw [buildRoleLinks_eq h]
        split <;> exact ⟨rfl, rfl⟩
    | addFunction name f =>
        show (e.addFunction name f).2.watched = _ ∧ (e.addFunction name f).2.announced = _
        unfold addFunction
        split <;> exact ⟨rfl, rfl⟩
    | addNamePredicate type holds => exact watched_changeRole e type _
    | addDomainPredicate type holds => exact watched_changeRole e type _
    | setManager type manager =>
        show (e.setManager type manager).2.watched = _ ∧ (e.setManager type manager).2.announced = _
        rw [setManager_eq h]
        exact watched_changeRole e type _
    | enable | ask | clearCache | wait => exact ⟨rfl, rfl⟩
    | decide context given request => exact watched_decide e context given request
  exact ⟨(moved_step h operation).settings, unheard.1, apart.store ▸ .same,
    unheard.2.trans (List.append_nil _).symm, .still apart.tables⟩

theorem tells_step {e : Enforcer σ κ} (h : e.model.WellFormed) (heard : e.tellsWatcher = true)
    (quiet : PolicyStore.ClearsQuietly e.store) {operation : Operation}
    (keeps : operation ≠ .loadPolicy) : ∃ changes, Tells changes e (e.step operation).2 := by
  cases called : operation.callsStore with
  | false => exact ⟨[], tells_apart h called⟩
  | true =>
      cases operation with
      | mutate mutation => exact tells_mutate h heard quiet mutation
      | loadPolicy => exact (keeps rfl).elim
      | savePolicy => exact tells_savePolicy heard
      | buildRoleLinks | addFunction | addNamePredicate | addDomainPredicate | setManager | enable
      | decide | ask | clearCache | wait => cases called

/-- What the watcher is told of each of some operations. -/
def toldOf (e : Enforcer σ κ) : List Operation → List (List PolicyChange)
  | [] => []
  | operation :: rest =>
    (e.step operation).2.announced.drop e.announced.length :: (e.step operation).2.toldOf rest

/-- What the watcher is told in a run is what it is told of the operations, one after another, and it
    leads all copies of the rows to the end of the run. -/
theorem tells_run {e : Enforcer σ κ} (h : e.model.WellFormed) (heard : e.tellsWatcher = true)
    (quiet : PolicyStore.ClearsQuietly e.store) {operations : List Operation}
    (keeps : .loadPolicy ∉ operations) :
    Tells (e.toldOf operations).flatten e (e.run operations).2 := by
  induction operations generalizing e with
  | nil => exact .refl e
  | cons operation rest ih =>
      obtain ⟨first, others⟩ := not_or.mp (List.mem_cons.not.mp keeps)
      obtain ⟨changes, tells⟩ := tells_step h heard quiet (Ne.symm first)
      have here : (e.step operation).2.announced.drop e.announced.length = changes := by
        rw [tells.announced, List.drop_left]
      have later := ih ((moved_step h operation).wellFormed h) (tells.tellsWatcher heard)
        (tells.quiet quiet) others
      show Tells (_ :: _).flatten e _
      rw [List.flatten_cons, here]
      exact tells.trans later

end Enforcer

/-- Whether an answer tells that an operation has not been carried out. -/
def Answer.rejected : Answer → Bool
  | .changed result => rejects result
  | .done result => !result.isOk
  | .decided _ => false
  | .checked _ => false

namespace Enforcer

variable {σ κ : Type} [PolicyStore σ] [BEq κ]

theorem toldOf_rejected {e : Enforcer σ κ} (reachable : e.Reachable) {operation : Operation}
    (keeps : operation ≠ .loadPolicy) (rejected : (e.step operation).1.rejected = true) :
    (e.step operation).2.announced.drop e.announced.length = [] := by
  have unheard : (e.step operation).2.announced = e.announced := by
    cases called : operation.callsStore with
    | false =>
        rw [(tells_apart reachable.wellFormed called).announced, List.append_nil]
    | true =>
        cases operation with
        | mutate mutation =>
            show (e.mutate mutation).2.announced = e.announced
            rw [mutate_eq_self reachable.wellFormed rejected]
        | loadPolicy => exact (keeps rfl).elim
        | savePolicy =>
            have failed : (!e.savePolicy.1.isOk) = true := rejected
            show e.savePolicy.2.announced = e.announced
            unfold savePolicy at failed ⊢
            split at failed
            · rfl
            · simp [Except.isOk, Except.toBool] at failed
        | buildRoleLinks | addFunction | addNamePredicate | addDomainPredicate | setManager | enable
        | decide | ask | clearCache | wait => cases called
  rw [unheard, List.drop_length]

theorem toldOf_run_rejected {e : Enforcer σ κ} (reachable : e.Reachable)
    {operations : List Operation} (keeps : .loadPolicy ∉ operations) :
    List.Forall₂ (fun answer told => answer.rejected = true → told = [])
      (e.run operations).1 (e.toldOf operations) := by
  induction operations generalizing e with
  | nil => exact .nil
  | cons operation rest ih =>
      obtain ⟨first, others⟩ := not_or.mp (List.mem_cons.not.mp keeps)
      exact .cons (toldOf_rejected reachable (Ne.symm first)) (ih (reachable.step operation) others)

/-- A follower that hears what the watcher is told in a run, and makes these changes in a copy of the
    first rows, ends with the rows of the enforcer, type by type and in the same order. The watcher is
    told operation by operation, and nothing of those that are rejected. -/
theorem run_replays {e : Enforcer σ κ} (reachable : e.Reachable)
    (notifies : e.settings.autoNotifyWatcher = true) (watched : e.watched = true)
    (quiet : PolicyStore.ClearsQuietly e.store) {operations : List Operation}
    (keeps : .loadPolicy ∉ operations) :
    (e.run operations).2.announced = e.announced ++ (e.toldOf operations).flatten ∧
      (∃ copy, e.model.replay (e.toldOf operations).flatten = .ok copy ∧
        ∀ (s : RowSection) (type : String),
          copy.rows s.key type = (e.run operations).2.model.rows s.key type) ∧
      List.Forall₂ (fun answer told => answer.rejected = true → told = [])
        (e.run operations).1 (e.toldOf operations) := by
  have heard : e.tellsWatcher = true := by
    unfold tellsWatcher
    rw [notifies, watched]
    rfl
  have tells := tells_run reachable.wellFormed heard quiet keeps
  obtain ⟨copy, made, copied⟩ := tells.replays e.model (.refl e.model)
  exact ⟨tells.announced, ⟨copy, made, copied.rows_key⟩, toldOf_run_rejected reachable keeps⟩

/-- Carol comes, Alice is written down a second time, two guests change places, and Bob, who has given
    his role to Dave, is taken off the list. -/
def night : List Operation :=
  [.mutate (.rows .policy "p" (.add ["carol"])),
    .mutate (.rows .policy "p" (.add ["alice"])),
    .mutate (.rows .policy "p" (.updateMany [["alice"], ["bob"]] [["bob"], ["alice"]])),
    .mutate (.rows .role "g" (.add ["dave", "bob", "", ""])),
    .mutate (.deleteRole "bob")]

/-- The watcher hears once of what is done, twice of the role that goes with a guest, and not at all
    of Alice. -/
theorem run_replays_night :
    watchedGuests.enforcer.settings.autoNotifyWatcher = true ∧
      watchedGuests.enforcer.watched = true ∧
      (watchedGuests.enforcer.toldOf night).map List.length = [1, 0, 1, 1, 2] ∧
      (watchedGuests.enforcer.run night).2.announced =
        watchedGuests.enforcer.announced ++ (watchedGuests.enforcer.toldOf night).flatten ∧
      (∃ copy,
        watchedGuests.enforcer.model.replay (watchedGuests.enforcer.toldOf night).flatten =
          .ok copy ∧
        ∀ (s : RowSection) (type : String),
          copy.rows s.key type = (watchedGuests.enforcer.run night).2.model.rows s.key type) ∧
      List.Forall₂ (fun answer told => answer.rejected = true → told = [])
        (watchedGuests.enforcer.run night).1 (watchedGuests.enforcer.toldOf night) := by
  have notifies : watchedGuests.enforcer.settings.autoNotifyWatcher = true := by decide +kernel
  have watched : watchedGuests.enforcer.watched = true := by decide +kernel
  have quiet : PolicyStore.ClearsQuietly watchedGuests.enforcer.store := fun _ _ => rfl
  have keeps : .loadPolicy ∉ night := by simp [night]
  exact ⟨notifies, watched, by decide +kernel,
    run_replays reachable_watchedGuests notifies watched quiet keeps⟩

end Enforcer

end AccessControl
