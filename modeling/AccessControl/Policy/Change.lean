import AccessControl.Error
import AccessControl.Policy.Row

/-! # Changes

A change of the rows of one type, as a value: it is applied to a model, passed on to a store, and
announced to a watcher.
-/

namespace AccessControl

/-- A change of the rows of one type. -/
inductive RowChange where
  | add (row : Row)
  | addMany (rows : List Row)
  | remove (row : Row)
  | removeMany (rows : List Row)
  | removeFiltered (filter : FieldFilter)
  | update (old new : Row)
  | updateMany (old new : List Row)

/-- The call of a store that a change is passed on with. -/
def RowChange.method : RowChange → StoreMethod
  | .add _ => .addPolicy
  | .addMany _ => .addPolicies
  | .remove _ => .removePolicy
  | .removeMany _ => .removePolicies
  | .removeFiltered _ => .removeFilteredPolicy
  | .update _ _ => .updatePolicy
  | .updateMany _ _ => .updatePolicies

/-- What a call comes to that makes a change of some rows. Only by a filter are they tested. -/
def RowChange.testing {α : Type} (change : RowChange) (rows : List Row) (result : α) : Option α :=
  match change with
  | .removeFiltered filter => filter.testing rows result
  | _ => some result

theorem RowChange.testing_eq_map {α : Type} (change : RowChange) (rows : List Row) (result : α) :
    change.testing rows result = (change.testing rows ()).map fun _ => result := by
  cases change with
  | removeFiltered filter =>
      simp only [testing, FieldFilter.testing]
      split <;> rfl
  | add | addMany | remove | removeMany | update | updateMany => rfl

/-- The rows that a change has taken away and brought in. -/
structure RowDelta where
  removed : List Row := []
  added : List Row := []

/-- The delta of a change beside what the change leaves behind, if it has changed anything. -/
def RowDelta.ifChanged {α : Type} (delta : RowDelta) (outcome : Bool × α) : Option RowDelta × α :=
  (if outcome.1 then some delta else none, outcome.2)

/-- What is announced to a watcher. -/
inductive PolicyChange where
  | rows (s : RowSection) (type : String) (change : RowChange)
  | cleared
  | saved

/-- The type that a change is about, if it is about one. -/
def PolicyChange.type? : PolicyChange → Option String
  | .rows _ type _ => some type
  | .cleared => none
  | .saved => none

end AccessControl
