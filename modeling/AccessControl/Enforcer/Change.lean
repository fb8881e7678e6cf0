import AccessControl.Enforcer.Basic
import AccessControl.Model.Rows

/-! # Changing the rows

A change is applied to the model first. If it changes anything, it is passed on to the store, the
links of the role type are brought in step, the cache is cleared and the watcher is told. An error
of the store is reported at the end, when all this has been done; a change that is refused, or that
changes nothing, does none of it.
-/

namespace AccessControl

/-- The removal of the rows of a type that a filter picks. -/
structure Removal where
  table : RowSection
  type : String
  filter : FieldFilter

/-- What is announced of a removal. -/
def Removal.change (removal : Removal) : PolicyChange :=
  .rows removal.table removal.type (.removeFiltered removal.filter)

namespace Enforcer

variable {σ κ : Type}

/-- Bring the links of a role type in step with a change of its rows, up to the first row that
    stands for no link. -/
def followLinks (e : Enforcer σ κ) (s : RowSection) (type : String) (delta : RowDelta) :
    Except Error Unit × Enforcer σ κ :=
  if s = .role ∧ e.settings.autoBuildRoleLinks then
    match e.model.changeLinks type .remove delta.removed with
    | (.error error, model) => (.error error, { e with model })
    | (.ok (), model) =>
      let (result, model) := model.changeLinks type .add delta.added
      (result, { e with model })
  else (.ok (), e)

variable [PolicyStore σ]

/-- Change the rows of a type, with access to the state, and tell whether anything has changed. -/
def applyChange (e : Enforcer σ κ) (s : RowSection) (type : String) (change : RowChange) :
    Except Error Bool × Enforcer σ κ :=
  match e.model.apply s.key type change with
  | .error error => (.error error, e)
  | .ok (none, model) => (.ok false, { e with model })
  | .ok (some delta, model) =>
    let (persisted, e) := { e with model }.persist fun store =>
      PolicyStore.follow store s type change
    match e.followLinks s type delta with
    | (.error error, e) => (.error error, e)
    | (.ok (), e) => (persisted.map fun _ => true, e.afterChange (.rows s type change))

/-- Change the rows of a type, and tell whether anything has changed. -/
def change (e : Enforcer σ κ) (s : RowSection) (type : String) (change : RowChange) :
    Except Error Bool × Enforcer σ κ :=
  match e.access with
  | .error error => (.error error, e)
  | .ok () => e.applyChange s type change

/-- The same, unless a test breaks off. The store tests its rows for the same places as the model does,
    and only after it. -/
def change? (e : Enforcer σ κ) (s : RowSection) (type : String) (change : RowChange) :
    Option (Except Error Bool × Enforcer σ κ) :=
  match e.access with
  | .error error => some (.error error, e)
  | .ok () => change.testing (e.model.rows s.key type) (e.applyChange s type change)

/-- Refuse removals from types that are not declared. -/
def checkRemovals (e : Enforcer σ κ) : List Removal → Except Error Unit
  | [] => .ok ()
  | removal :: rest =>
    match e.model.table? removal.table removal.type with
    | none => .error (.policyTypeNotFound removal.table.toSection removal.type)
    | some _ => e.checkRemovals rest

/-- Make removals one after another. Yields the first answer of the store that is an error, and what
    is to be announced: the removals that have changed anything. -/
def applyRemovals (e : Enforcer σ κ) :
    List Removal → Except Error (Except Error Unit × List PolicyChange) × Enforcer σ κ
  | [] => (.ok (.ok (), []), e)
  | removal :: rest =>
    match e.model.removeFiltered removal.table.key removal.type removal.filter with
    | .error error => (.error error, e)
    | .ok (removed, model) =>
      let e := { e with model }
      if removed.isEmpty then e.applyRemovals rest
      else
        let (persisted, e) := e.persist fun store =>
          PolicyStore.follow store removal.table removal.type (.removeFiltered removal.filter)
        match e.followLinks removal.table removal.type { removed } with
        | (.error error, e) => (.error error, e)
        | (.ok (), e) =>
          match e.applyRemovals rest with
          | (.error error, e) => (.error error, e)
          | (.ok (others, changes), e) =>
            (.ok (persisted.bind fun _ => others, removal.change :: changes), e)

/-- Make several removals with one access to the state, and tell whether any has changed anything.
    The cache is cleared and the watcher is told when all have been made. They are for single texts,
    and to test for those never breaks off. -/
def removeTogether (e : Enforcer σ κ) (removals : List Removal) :
    Except Error Bool × Enforcer σ κ :=
  match e.access with
  | .error error => (.error error, e)
  | .ok () =>
    match e.checkRemovals removals with
    | .error error => (.error error, e)
    | .ok () =>
      match e.applyRemovals removals with
      | (.error error, e) => (.error error, e)
      | (.ok (persisted, changes), e) =>
        (persisted.map fun _ => !changes.isEmpty, changes.foldl afterChange e)

/-- Remove all rows and all links. An error of the store leaves the cache and the watcher alone. -/
def clearPolicy (e : Enforcer σ κ) : Except Error Unit × Enforcer σ κ :=
  match e.access with
  | .error error => (.error error, e)
  | .ok () =>
    match e.model.clear.buildLinks with
    | (.error error, model) => (.error error, { e with model })
    | (.ok (), model) =>
      match { e with model }.persist fun store => PolicyStore.save store [] with
      | (.error error, e) => (.error error, e)
      | (.ok (), e) => (.ok (), e.afterChange .cleared)

end Enforcer

end AccessControl
