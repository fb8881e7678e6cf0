import AccessControl.Proofs.Policy.Table

/-! # Rows that a change does not touch

A change touches the rows that it names, and those that its filter picks. Whatever else is stored stays
where it is: among any rows of which none is touched, neither the rows nor their order change.
-/

namespace AccessControl

/-- The rows that a change of a table with given rows touches. -/
def RowChange.touched (stored : List Row) : RowChange → List Row
  | .add row => [row]
  | .addMany rows => rows
  | .remove row => [row]
  | .removeMany rows => rows
  | .removeFiltered filter => stored.filter filter.picks
  | .update old new => [old, new]
  | .updateMany old new => old ++ new

/-- The rows that a change takes from a table with given rows. -/
def RowChange.taken (stored : List Row) : RowChange → List Row
  | .add _ => []
  | .addMany _ => []
  | .remove row => [row]
  | .removeMany rows => rows
  | .removeFiltered filter => stored.filter filter.picks
  | .update old _ => [old]
  | .updateMany old _ => old

/-- The rows that a change brings into a table. -/
def RowChange.brought : RowChange → List Row
  | .add row => [row]
  | .addMany rows => rows
  | .remove _ => []
  | .removeMany _ => []
  | .removeFiltered _ => []
  | .update _ new => [new]
  | .updateMany _ new => new

namespace RowTable

variable {P : Row → Bool} {table : RowTable}

/-- A change that changes anything takes and brings the rows that it says. -/
theorem delta_of_apply {table' : RowTable} {change : RowChange} {delta : RowDelta}
    (made : table.apply change = .ok (some delta, table')) :
    delta = { removed := change.taken table.rows, added := change.brought } := by
  have settled {delta' : RowDelta} {outcome : Bool × RowTable}
      (changed : RowDelta.ifChanged delta' outcome = (some delta, table')) : delta = delta' := by
    obtain ⟨claimed, _⟩ := Prod.mk.inj changed
    split at claimed
    · exact (Option.some.inj claimed).symm
    · cases claimed
  cases change with
  | add | addMany | update | updateMany =>
      obtain ⟨_, _, changed⟩ := Except.map_eq_ok_iff.mp made
      exact settled changed
  | remove | removeMany | removeFiltered => exact settled (Except.ok.inj made)

section

variable {row : Row} (apart : P row = false)
include apart

theorem filter_place (table : RowTable) (rows : List Row) :
    (table.place row rows).filter P = rows.filter P := by
  unfold place
  cases table.priorityAt? with
  | none => simp [apart]
  | some position =>
      simp only [List.filter_append, List.filter_cons, apart, Bool.false_eq_true, if_false]
      rw [← List.filter_append, List.takeWhile_append_dropWhile]

theorem filter_erase (rows : List Row) : (rows.erase row).filter P = rows.filter P := by
  induction rows with
  | nil => rfl
  | cons first rest ih =>
      rw [List.erase_cons]
      by_cases here : first = row
      · simp [here, apart]
      · simp [here, List.filter_cons, ih]

theorem filter_insert (table : RowTable) :
    (table.insert row).2.rows.filter P = table.rows.filter P := by
  unfold insert
  split
  · rfl
  · exact filter_place apart table table.rows

theorem filter_remove (table : RowTable) :
    (table.remove row).2.rows.filter P = table.rows.filter P := by
  unfold remove
  split
  · exact filter_erase apart table.rows
  · rfl

end

theorem filter_replace {old new : Row} (apart : P old = false) (apart' : P new = false)
    (table : RowTable) : (table.replace old new).rows.filter P = table.rows.filter P := by
  have replaced (rows : List Row) : (rows.replace old new).filter P = rows.filter P := by
    induction rows with
    | nil => rfl
    | cons first rest ih =>
        rw [List.replace_cons]
        by_cases here : old = first
        · subst here
          simp [apart, apart']
        · have differ : (old == first) = false := beq_eq_false_iff_ne.mpr here
          simp only [differ, List.filter_cons, ih]
  unfold replace
  simp only
  split
  · rw [filter_place apart', filter_erase apart]
  · exact replaced table.rows

theorem filter_insertAll {rows : List Row} (apart : ∀ row ∈ rows, P row = false) :
    (table.insertAll rows).rows.filter P = table.rows.filter P := by
  induction rows generalizing table with
  | nil => rfl
  | cons row rest ih =>
      obtain ⟨first, others⟩ := List.forall_mem_cons.mp apart
      exact (ih others).trans (filter_insert first table)

theorem filter_removeAll {rows : List Row} (apart : ∀ row ∈ rows, P row = false) :
    (table.removeAll rows).rows.filter P = table.rows.filter P := by
  induction rows generalizing table with
  | nil => rfl
  | cons row rest ih =>
      obtain ⟨first, others⟩ := List.forall_mem_cons.mp apart
      exact (ih others).trans (filter_remove first table)

/-- Among rows that it does not touch, a change leaves everything as it is. -/
theorem filter_apply {change : RowChange} {delta? : Option RowDelta} {table' : RowTable}
    (made : table.apply change = .ok (delta?, table'))
    (apart : ∀ row ∈ change.touched table.rows, P row = false) :
    table'.rows.filter P = table.rows.filter P := by
  cases change with
  | add row =>
      obtain ⟨outcome, added, settled⟩ := Except.map_eq_ok_iff.mp made
      obtain ⟨_, _, inserted⟩ := Except.bind_eq_ok_iff.mp added
      obtain rfl := Except.ok.inj inserted
      obtain ⟨_, rfl⟩ := Prod.mk.inj settled
      exact filter_insert (apart row (by simp [RowChange.touched])) table
  | addMany rows =>
      obtain ⟨outcome, added, settled⟩ := Except.map_eq_ok_iff.mp made
      obtain ⟨new, _, inserted⟩ := Except.bind_eq_ok_iff.mp added
      obtain rfl := Except.ok.inj inserted
      obtain ⟨_, rfl⟩ := Prod.mk.inj settled
      cases new with
      | true => exact filter_insertAll apart
      | false => rfl
  | remove row =>
      obtain ⟨_, rfl⟩ := Prod.mk.inj (Except.ok.inj made)
      exact filter_remove (apart row (by simp [RowChange.touched])) table
  | removeMany rows =>
      obtain ⟨_, rfl⟩ := Prod.mk.inj (Except.ok.inj made)
      unfold removeMany
      split
      · exact filter_removeAll apart
      · rfl
  | removeFiltered filter =>
      obtain ⟨_, rfl⟩ := Prod.mk.inj (Except.ok.inj made)
      show (table.rows.filter fun row => !filter.picks row).filter P = table.rows.filter P
      rw [List.filter_filter]
      refine List.filter_congr fun row stored => ?_
      cases picked : filter.picks row with
      | false => simp
      | true =>
          have untouched := apart row (List.mem_filter.mpr ⟨stored, picked⟩)
          simp [untouched]
  | update old new =>
      obtain ⟨outcome, updated, settled⟩ := Except.map_eq_ok_iff.mp made
      obtain ⟨_, _, replaced⟩ := Except.bind_eq_ok_iff.mp updated
      obtain rfl := Except.ok.inj replaced
      obtain ⟨_, rfl⟩ := Prod.mk.inj settled
      have old' := apart old (by simp [RowChange.touched])
      have new' := apart new (by simp [RowChange.touched])
      split
      · rfl
      · exact filter_replace old' new' table
  | updateMany old new =>
      obtain ⟨outcome, updated, settled⟩ := Except.map_eq_ok_iff.mp made
      obtain ⟨_, _, replaced⟩ := Except.bind_eq_ok_iff.mp updated
      obtain rfl := Except.ok.inj replaced
      obtain ⟨_, rfl⟩ := Prod.mk.inj settled
      obtain ⟨old', new'⟩ := List.forall_mem_append.mp apart
      split
      · exact (filter_insertAll new').trans (filter_removeAll old')
      · rfl

end RowTable

end AccessControl
