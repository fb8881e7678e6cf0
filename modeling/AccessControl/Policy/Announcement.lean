import AccessControl.Json.Basic
import AccessControl.Policy.Change

/-! # Announcements

A change as structured data, the form in which a watcher passes it on: an object with the kind of
the change for its only key, or just the kind where there is nothing to add.
-/

namespace AccessControl

namespace RowChange

def kindName : RowChange → String
  | .add _ => "AddPolicy"
  | .addMany _ => "AddPolicies"
  | .remove _ => "RemovePolicy"
  | .removeMany _ => "RemovePolicies"
  | .removeFiltered _ => "RemoveFilteredPolicy"
  | .update _ _ => "UpdatePolicy"
  | .updateMany _ _ => "UpdatePolicies"

def rowsToJson (rows : List Row) : Json := .array (rows.map Json.ofTexts)

def partsToJson : RowChange → List (String × Json)
  | .add row => [("rule", .ofTexts row)]
  | .addMany rows => [("rules", rowsToJson rows)]
  | .remove row => [("rule", .ofTexts row)]
  | .removeMany rows => [("rules", rowsToJson rows)]
  | .removeFiltered filter =>
    [("field_index", .integer filter.start.toNat), ("field_values", .ofTexts filter.values)]
  | .update old new => [("old_rule", .ofTexts old), ("new_rule", .ofTexts new)]
  | .updateMany old new => [("old_rules", rowsToJson old), ("new_rules", rowsToJson new)]

end RowChange

def PolicyChange.toJson : PolicyChange → Json
  | .rows s type change =>
    .object [(change.kindName,
      .object (("sec", .string s.key) :: ("ptype", .string type) :: change.partsToJson))]
  | .cleared => .string "ClearPolicy"
  | .saved => .string "SavePolicy"

end AccessControl
