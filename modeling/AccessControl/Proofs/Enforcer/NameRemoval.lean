import AccessControl.Proofs.Enforcer.Permissions
import AccessControl.Proofs.Enforcer.Silent
import AccessControl.Proofs.Enforcer.StoreFailure

/-! # Removals by name

To delete a user, a role or all roles of a user is to remove the rows that have a name in certain fields.
Filters pick these rows, and a filter takes the empty text for any text. So the removal of a name takes
the rows that have it there, and no other, unless the name is empty: then it takes all rows of the types.
-/

namespace AccessControl

/-- A field of the rows of a type. -/
structure Place where
  table : RowSection
  type : String
  index : UInt64

namespace Place

/-- Whether a type is the one with the field. -/
def covers (place : Place) (s : RowSection) (type : String) : Bool :=
  decide (s = place.table ∧ type = place.type)

/-- Whether a row of a type has a name in a field. -/
def holds (place : Place) (name : String) (s : RowSection) (type : String) (row : Row) : Bool :=
  place.covers s type && row[place.index.toNat]? == some name

/-- The removal of the rows that a filter for a name picks. -/
def removal (place : Place) (name : String) : Removal :=
  { table := place.table, type := place.type, filter := ⟨place.index, [name]⟩ }

theorem takes_removal (place : Place) {name : String} (named : name ≠ "") (s : RowSection)
    (type : String) (row : Row) :
    (place.removal name).takes s type row = place.holds name s type row := by
  have picks : (place.removal name).filter.picks row = (row[place.index.toNat]? == some name) := by
    simp [removal, FieldFilter.picks_singleton, named]
  exact congrArg (place.covers s type && ·) picks

theorem takes_removal_empty (place : Place) (s : RowSection) (type : String) (row : Row) :
    (place.removal "").takes s type row = place.covers s type := by
  have picks : (place.removal "").filter.picks row = true := by
    simp [removal, FieldFilter.picks_singleton]
  exact (congrArg (place.covers s type && ·) picks).trans (Bool.and_true _)

end Place

namespace Enforcer

variable {σ κ : Type} [PolicyStore σ] {e : Enforcer σ κ}

/-! ## What removals take, and what they answer -/

/-- A mutation takes some of the rows. It is refused as a whole while there is no access to the state.
    Otherwise the others stay in their order, and it answers whether there have been any to take, unless
    the store has failed. -/
structure Takes (e : Enforcer σ κ) (taken : RowSection → String → Row → Bool)
    (failure : Option StoreError) (outcome : Except Error Bool × Enforcer σ κ) : Prop where
  refused : ∀ error, e.access = .error error → outcome = (.error error, e)
  rows : e.access = .ok () → ∀ s type, outcome.2.model.rows s.key type =
    (e.model.rows s.key type).filter fun row => !taken s type row
  answer : e.access = .ok () → failure = none → ∃ changed, outcome.1 = .ok changed ∧
    (changed = true ↔ ∃ s type, ∃ row ∈ e.model.rows s.key type, taken s type row = true)
  failed : e.access = .ok () → ∀ error, failure = some error → outcome.1 = .error (.store error)

/-- Removals from declared types are announced, and the first error of the store during them is the
    answer. -/
theorem removeTogether_reports (h : e.model.WellFormed) (access : e.access = .ok ())
    {removals : List Removal} (declares : Declares e.model removals) :
    ∃ (failures : List StoreError) (changes : List PolicyChange) (after : Enforcer σ κ),
      e.applyRemovals removals = (.ok (report failures, changes), after) ∧
        (e.removeTogether removals).1 = (report failures).map (fun _ => !changes.isEmpty) ∧
        ((e.monitored []).removeTogether removals).2.store.failures = failures := by
  obtain ⟨failures, _, changes, after, plain, watched, _⟩ :=
    applyRemovals_beside NullStore.accepting [] h {} declares
  refine ⟨failures, changes, after, plain, ?_, ?_⟩
  · unfold removeTogether
    rw [access, checkRemovals_of_declares declares, plain]
  · unfold removeTogether
    rw [monitored_access, access, checkRemovals_of_declares (e := e.monitored []) declares, watched]
    simp only [monitored_afterChanges]
    rfl

theorem announced_iff_taken (h : e.model.WellFormed)
    {removals : List Removal} (declares : Declares e.model removals)
    {failures : List StoreError} {changes : List PolicyChange} {after : Enforcer σ κ}
    (applied : e.applyRemovals removals = (.ok (report failures, changes), after)) :
    (!changes.isEmpty) = true ↔ ∃ s type, ∃ row ∈ e.model.rows s.key type,
      (removals.any fun removal => removal.takes s type row) = true := by
  constructor
  · intro announced
    by_contra untaken
    have none : e.applyRemovals removals = (.ok (.ok (), []), e) := by
      refine applyRemovals_of_untaken h declares fun removal member row stored => ?_
      by_contra picked
      refine untaken ⟨_, _, row, stored, List.any_eq_true.mpr ⟨removal, member, ?_⟩⟩
      simpa [Removal.takes] using picked
    rw [none] at applied
    obtain ⟨rfl⟩ : changes = [] := by
      have same := congrArg (fun outcome => outcome.1.toOption.map (·.2)) applied
      simpa [Except.toOption] using same.symm
    cases announced
  · rintro ⟨s, type, row, stored, taken⟩
    obtain ⟨removal, member, takes⟩ := List.any_eq_true.mp taken
    cases changes with
    | cons => rfl
    | nil =>
        -- what is not announced has not been done
        have rows := rows_applyRemovals h declares s type
        obtain ⟨_, changes, model, store, applied', _, untouched⟩ := applyRemovals_eq_ok h declares
        rw [applied] at applied' rows
        simp only [Prod.mk.injEq, Except.ok.injEq] at applied'
        obtain ⟨⟨_, rfl⟩, rfl⟩ := applied'
        obtain ⟨_, rfl, rfl⟩ := untouched rfl
        exact (Removal.not_mem_remaining member takes _ (rows ▸ stored)).elim

/-- Removals from declared types take the rows that one of them picks. -/
theorem takes_removeTogether (h : e.model.WellFormed) {removals : List Removal}
    (declares : Declares e.model removals) :
    e.Takes (fun s type row => removals.any fun removal => removal.takes s type row)
      ((e.monitored []).removeTogether removals).2.store.failures.head?
      (e.removeTogether removals) where
  refused error refused := by
    unfold removeTogether
    rw [refused]
  rows access s type := by
    obtain ⟨failures, changes, after, _, answered, _⟩ := removeTogether_reports h access declares
    have made : tellsMade (e.removeTogether removals).1 = true := by
      rw [answered]
      cases failures <;> rfl
    rw [rows_removeTogether_of_made h removals made, Removal.remaining]
    simp only [List.not_any_eq_all_not]
  answer access none := by
    obtain ⟨failures, changes, after, applied, answered, watched⟩ :=
      removeTogether_reports h access declares
    rw [watched, List.head?_eq_none_iff] at none
    rw [none] at answered
    exact ⟨_, answered, announced_iff_taken h declares applied⟩
  failed access error first := by
    obtain ⟨failures, changes, after, _, answered, watched⟩ := removeTogether_reports h access declares
    rw [watched] at first
    obtain ⟨others, rfl⟩ := List.head?_eq_some_iff.mp first
    exact answered

theorem change_removeFiltered (h : e.model.WellFormed) {s : RowSection} {type : String}
    {table : RowTable} (found : e.model.table? s type = some table) (filter : FieldFilter) :
    e.change s type (.removeFiltered filter) = e.removeTogether [⟨s, type, filter⟩] := by
  unfold Enforcer.change removeTogether
  cases e.access with
  | error error => rfl
  | ok _ =>
      have declares : Declares e.model [⟨s, type, filter⟩] := by simpa [Declares] using ⟨table, found⟩
      obtain ⟨removed, model, made⟩ := removeFiltered_eq_ok found filter
      simp only [checkRemovals_of_declares declares]
      rw [applyChange_eq h, apply_of_removeFiltered made, applyRemovals_cons h]
      simp only [made]
      cases none : removed.isEmpty with
      | true => rfl
      | false =>
          simp only [Bool.not_false, RowDelta.ifChanged, if_true, Bool.false_eq_true, if_false,
            applyRemovals]
          cases (e.carryOut model s type (.removeFiltered filter) { removed }).1 <;> rfl

/-! ## Users and roles -/

section

variable (h : e.model.WellFormed) (places : List Place)
  (declared : ∀ place ∈ places, ∃ table, e.model.table? place.table place.type = some table)
include h declared

theorem takes_places (name : String) :
    e.Takes (fun s type row => places.any fun place => (place.removal name).takes s type row)
      ((e.monitored []).removeTogether (places.map (·.removal name))).2.store.failures.head?
      (e.removeTogether (places.map (·.removal name))) := by
  have declares : Declares e.model (places.map (·.removal name)) := by
    simpa [Declares, Place.removal] using declared
  simpa only [List.any_map, Function.comp_def] using takes_removeTogether h declares

theorem takes_places_of_named {name : String} (named : name ≠ "") :
    e.Takes (fun s type row => places.any fun place => place.holds name s type row)
      ((e.monitored []).removeTogether (places.map (·.removal name))).2.store.failures.head?
      (e.removeTogether (places.map (·.removal name))) := by
  simpa only [Place.takes_removal _ named] using takes_places h places declared name

theorem takes_places_of_empty :
    e.Takes (fun s type _ => places.any fun place => place.covers s type)
      ((e.monitored []).removeTogether (places.map (·.removal ""))).2.store.failures.head?
      (e.removeTogether (places.map (·.removal ""))) := by
  simpa only [Place.takes_removal_empty] using takes_places h places declared ""

end

/-- To delete the user or the role with the empty name takes all rows of both types. -/
theorem takes_empty [BEq κ] (reachable : e.Reachable)
    (grouping : ∃ table, e.model.table? .role "g" = some table)
    (policy : ∃ table, e.model.table? .policy "p" = some table) :
    e.Takes (fun s type _ => Place.covers ⟨.role, "g", 0⟩ s type ||
        Place.covers ⟨.policy, "p", 0⟩ s type)
        (e.firstFailure (.deleteUser "")) (e.deleteUser "") ∧
      e.Takes (fun s type _ => Place.covers ⟨.role, "g", 1⟩ s type ||
        Place.covers ⟨.policy, "p", 0⟩ s type)
        (e.firstFailure (.deleteRole "")) (e.deleteRole "") := by
  have both (index : UInt64) := takes_places_of_empty reachable.wellFormed
    [⟨.role, "g", index⟩, ⟨.policy, "p", 0⟩] (by simpa using ⟨grouping, policy⟩)
  simp only [List.any_cons, List.any_nil, Bool.or_false] at both
  exact ⟨both 0, both 1⟩

theorem readingRoom_stores :
    (readingRoom 10).enforcer.Reachable ∧
      (∃ table, (readingRoom 10).enforcer.model.table? .role "g" = some table) ∧
      (∃ table, (readingRoom 10).enforcer.model.table? .policy "p" = some table) ∧
      (readingRoom 10).enforcer.access = .ok () ∧
      (readingRoom 10).enforcer.model.rows "p" "p" = [["reader", "doc", "read"]] ∧
      (readingRoom 10).enforcer.model.rows "g" "g" = [["alice", "editor"], ["editor", "reader"]] := by
  have observed : (readingRoom 10).build.isOk = true ∧
      ((readingRoom 10).enforcer.model.table? .role "g").isSome = true ∧
      ((readingRoom 10).enforcer.model.table? .policy "p").isSome = true ∧
      (readingRoom 10).enforcer.access.toOption = some () ∧
      (readingRoom 10).enforcer.model.rows "p" "p" = [["reader", "doc", "read"]] ∧
      (readingRoom 10).enforcer.model.rows "g" "g" =
        [["alice", "editor"], ["editor", "reader"]] := by decide +kernel
  obtain ⟨builds, grouping, policy, free, rows⟩ := observed
  exact ⟨(readingRoom_of_builds builds).1.reachable, Option.isSome_iff_exists.mp grouping,
    Option.isSome_iff_exists.mp policy, Except.toOption_eq_some_iff.mp free, rows⟩

/-- To delete a user takes the grouping rows and the policy rows that begin with the user. To delete a role
    takes the grouping rows that give it and the policy rows that begin with it. To delete the roles of a
    user takes the grouping rows that begin with the user. -/
theorem takes_named [BEq κ] (reachable : e.Reachable)
    (grouping : ∃ table, e.model.table? .role "g" = some table)
    (policy : ∃ table, e.model.table? .policy "p" = some table) {name : String} (named : name ≠ "") :
    e.Takes (fun s type row => Place.holds ⟨.role, "g", 0⟩ name s type row ||
        Place.holds ⟨.policy, "p", 0⟩ name s type row)
        (e.firstFailure (.deleteUser name)) (e.deleteUser name) ∧
      e.Takes (fun s type row => Place.holds ⟨.role, "g", 1⟩ name s type row ||
        Place.holds ⟨.policy, "p", 0⟩ name s type row)
        (e.firstFailure (.deleteRole name)) (e.deleteRole name) ∧
      e.Takes (fun s type row => Place.holds ⟨.role, "g", 0⟩ name s type row)
        (e.firstFailure (.rows .role "g" (.removeFiltered ⟨0, [name]⟩))) (e.deleteRolesOf name none) := by
  have h := reachable.wellFormed
  have both (index : UInt64) := takes_places_of_named h [⟨.role, "g", index⟩, ⟨.policy, "p", 0⟩]
    (by simpa using ⟨grouping, policy⟩) named
  simp only [List.any_cons, List.any_nil, Bool.or_false] at both
  refine ⟨both 0, both 1, ?_⟩
  obtain ⟨table, found⟩ := grouping
  have alone := takes_places_of_named h [⟨.role, "g", 0⟩] (by simpa using ⟨table, found⟩) named
  simp only [List.any_cons, List.any_nil, Bool.or_false] at alone
  have plain : e.deleteRolesOf name none = e.removeTogether [⟨.role, "g", ⟨0, [name]⟩⟩] :=
    change_removeFiltered h found _
  have watched : (e.monitored []).mutate (.rows .role "g" (.removeFiltered ⟨0, [name]⟩)) =
      (e.monitored []).removeTogether [⟨.role, "g", ⟨0, [name]⟩⟩] :=
    change_removeFiltered (e := e.monitored []) h found _
  unfold firstFailure
  rw [plain, watched]
  exact alone

/-- The rows of the editor go, as a user and as a role, and no other. -/
theorem takes_named_readingRoom :
    ((readingRoom 10).enforcer.deleteUser "editor").2.model.rows "g" "g" = [["alice", "editor"]] ∧
      ((readingRoom 10).enforcer.deleteRole "editor").2.model.rows "g" "g" = [["editor", "reader"]] ∧
      ((readingRoom 10).enforcer.deleteRolesOf "editor" none).2.model.rows "g" "g" =
        [["alice", "editor"]] ∧
      (readingRoom 10).enforcer.firstFailure (.deleteUser "editor") = none ∧
      ∃ changed, ((readingRoom 10).enforcer.deleteUser "editor").1 = .ok changed ∧ changed = true := by
  obtain ⟨reachable, grouping, policy, access, _, stored⟩ := readingRoom_stores
  have accepted : (readingRoom 10).enforcer.firstFailure (.deleteUser "editor") = none := by
    decide +kernel
  have key : RowSection.role.key = "g" := rfl
  obtain ⟨user, role, roles⟩ := takes_named reachable grouping policy (by decide : "editor" ≠ "")
  have ofUser := user.rows access .role "g"
  have ofRole := role.rows access .role "g"
  have ofRoles := roles.rows access .role "g"
  obtain ⟨changed, answered, told⟩ := user.answer access accepted
  rw [key, stored] at ofUser ofRole ofRoles
  refine ⟨ofUser, ofRole, ofRoles, accepted, changed, answered, told.mpr ?_⟩
  refine ⟨.role, "g", ["editor", "reader"], ?_, by decide⟩
  rw [key, stored]
  decide

/-- To delete the user with the empty name takes all rows of both types, though none of them has it. -/
theorem deleteUser_empty_takes_all :
    (readingRoom 10).enforcer.Reachable ∧
      (∃ table, (readingRoom 10).enforcer.model.table? .role "g" = some table) ∧
      (∃ table, (readingRoom 10).enforcer.model.table? .policy "p" = some table) ∧
      (readingRoom 10).enforcer.access = .ok () ∧
      (readingRoom 10).enforcer.model.rows "p" "p" = [["reader", "doc", "read"]] ∧
      (readingRoom 10).enforcer.model.rows "g" "g" = [["alice", "editor"], ["editor", "reader"]] ∧
      ((readingRoom 10).enforcer.deleteUser "").1.toOption = some true ∧
      ((readingRoom 10).enforcer.deleteUser "").2.model.rows "p" "p" = [] ∧
      ((readingRoom 10).enforcer.deleteUser "").2.model.rows "g" "g" = [] ∧
      ¬(readingRoom 10).enforcer.Takes (fun s type row => Place.holds ⟨.role, "g", 0⟩ "" s type row ||
          Place.holds ⟨.policy, "p", 0⟩ "" s type row)
        ((readingRoom 10).enforcer.firstFailure (.deleteUser ""))
        ((readingRoom 10).enforcer.deleteUser "") := by
  obtain ⟨reachable, grouping, policy, access, stored, stored'⟩ := readingRoom_stores
  have observed : ((readingRoom 10).enforcer.deleteUser "").1.toOption = some true ∧
      ((readingRoom 10).enforcer.deleteUser "").2.model.rows "p" "p" = [] ∧
      ((readingRoom 10).enforcer.deleteUser "").2.model.rows "g" "g" = [] := by decide +kernel
  obtain ⟨answered, gone, gone'⟩ := observed
  refine ⟨reachable, grouping, policy, access, stored, stored', answered, gone, gone', fun takes => ?_⟩
  have kept := (takes.rows access .policy "p").symm.trans gone
  have key : RowSection.policy.key = "p" := rfl
  rw [key, stored] at kept
  revert kept
  decide

end Enforcer

end AccessControl
