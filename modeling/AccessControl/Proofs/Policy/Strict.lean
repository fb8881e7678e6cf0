import AccessControl.Proofs.Policy.Order

/-! # Tables with strict access

A strict operation stops where a row has no field at the position of the priorities, and where a
search for the place of a row meets rows that no place parts. On a table whose rows have the declared
length and stand in order it never stops, and does what the operation itself does.
-/

namespace AccessControl.RowTable

variable {table : RowTable} {position : Nat}

/-! ## Declared fields -/

theorem lt_arity_of_idxOf? {field : String} (found : table.fields.idxOf? field = some position) :
    position < table.arity := by
  obtain ⟨bound, _⟩ := List.idxOf?_eq_some_iff.mp found
  exact bound

theorem getElem?_of_length {row : Row} (length : row.length = table.arity)
    (bound : position < table.arity) : row[position]? = some (priorityOf position row) := by
  unfold priorityOf
  rw [List.getD_eq_getElem?_getD, List.getElem?_eq_getElem (length ▸ bound)]
  rfl

theorem WellFormed.effect_label (h : table.WellFormed) (found : table.effectAt? = some position)
    {row : Row} (member : row ∈ table.rows) :
    ∃ label, row[position]? = some label ∧ table.effectOf row = Effect.ofLabel (some label) := by
  have label := getElem?_of_length (h.arity row member) (lt_arity_of_idxOf? found)
  refine ⟨_, label, ?_⟩
  unfold effectOf
  rw [found, Option.bind_some, label]

/-! ## Strict operations -/

namespace Strict

/-- The priorities of rows, all of which must have one. -/
def priorities? (position : Nat) (rows : List Row) : Option (List String) :=
  rows.mapM fun row => row[position]?

/-- Whether those that stay before a new row are the first ones. -/
def parted (stays : List Bool) : Bool := (stays.dropWhile id).all (!·)

/-- Put a row among others, where all of them have a priority and some place parts them. -/
def place (table : RowTable) (row : Row) (rows : List Row) : Option (List Row) :=
  match table.priorityAt? with
  | none => some (table.place row rows)
  | some position => do
    let own ← row[position]?
    let present ← priorities? position rows
    if parted (present.map fun other => comparePriority other own != .gt) then
      some (table.place row rows)
    else none

def insert (table : RowTable) (row : Row) : Option (Bool × RowTable) :=
  if table.has row then some (false, table)
  else do
    let rows ← place table row table.rows
    some (true, { table with rows, members := row :: table.members })

def insertAll (table : RowTable) (rows : List Row) : Option RowTable :=
  rows.foldlM (fun table row => (insert table row).map (·.2)) table

def movesIn (table : RowTable) (old new : Row) : Option Bool :=
  match table.priorityAt? with
  | none => some false
  | some position => do
    let before ← old[position]?
    let after ← new[position]?
    some (before != after)

def replace (table : RowTable) (old new : Row) : Option RowTable := do
  let moves ← movesIn table old new
  let rows ←
    if moves then place table new (table.rows.erase old) else some (table.rows.replace old new)
  some { table with rows, members := new :: table.members.erase old }

/-- Apply a change. Removals look rows up, and read fields only where there are any. -/
def apply (table : RowTable) : RowChange → Option (Except Error (Option RowDelta × RowTable))
  | .add row =>
    match table.checkArity row with
    | .error error => some (.error error)
    | .ok () => (insert table row).map fun outcome =>
      .ok (RowDelta.ifChanged { added := [row] } outcome)
  | .addMany rows =>
    match table.allNew [] rows with
    | .error error => some (.error error)
    | .ok false => some (.ok (none, table))
    | .ok true => (insertAll table rows).map fun table => .ok (some { added := rows }, table)
  | .update old new =>
    match table.checkArity new with
    | .error error => some (.error error)
    | .ok () =>
      if !table.has old || (old != new && table.has new) then some (.ok (none, table))
      else (replace table old new).map fun table =>
        .ok (some { removed := [old], added := [new] }, table)
  | .updateMany old new =>
    match table.checkArities new with
    | .error error => some (.error error)
    | .ok () =>
      if table.canUpdate old new then
        (insertAll (table.removeAll old) new).map fun table =>
          .ok (some { removed := old, added := new }, table)
      else some (.ok (none, table))
  | .remove row => some (table.apply (.remove row))
  | .removeMany rows => some (table.apply (.removeMany rows))
  | .removeFiltered filter => some (table.apply (.removeFiltered filter))

/-! ## They never stop -/

theorem priorities?_eq (bound : position < table.arity) {rows : List Row}
    (lengths : ∀ row ∈ rows, row.length = table.arity) :
    priorities? position rows = some (rows.map (priorityOf position)) := by
  unfold priorities?
  induction rows with
  | nil => rfl
  | cons first rest ih =>
      obtain ⟨here, others⟩ := List.forall_mem_cons.mp lengths
      rw [List.mapM_cons, getElem?_of_length here bound, ih others]
      rfl

theorem parted_map {α : Type} {stays : α → Bool} {list : List α}
    (behind : ∀ entry ∈ list.dropWhile stays, stays entry = false) :
    parted (list.map stays) = true := by
  unfold parted
  rw [List.dropWhile_map, List.all_map]
  exact List.all_eq_true.mpr fun entry member => by simpa using behind entry member

theorem place_eq {row : Row} (length : row.length = table.arity) {rows : List Row}
    (lengths : ∀ other ∈ rows, other.length = table.arity)
    (ordered : ∀ position, table.priorityAt? = some position →
      InOrder (rows.map (priorityOf position))) :
    place table row rows = some (table.place row rows) := by
  unfold place
  cases found : table.priorityAt? with
  | none => rfl
  | some position =>
      have bound := lt_arity_of_idxOf? found
      have compared : ((rows.map (priorityOf position)).map fun other =>
          comparePriority other (priorityOf position row) != .gt) =
            rows.map (staysBefore position row) := by
        simp only [List.map_map, Function.comp_def]
        exact List.map_congr_left fun other _ => by unfold staysBefore; rfl
      have behind : ∀ other ∈ rows.dropWhile (staysBefore position row),
          staysBefore position row other = false :=
        fun other member => staysBefore_of_mem_dropWhile (ordered position found) member
      simp only [getElem?_of_length length bound, priorities?_eq bound lengths,
        Option.bind_eq_bind, Option.bind_some, compared]
      rw [if_pos (parted_map behind)]

/-! ## Changes never stop -/

section

variable (h : table.WellFormed) (ordered : table.Ordered)
include h ordered

theorem insert_eq {row : Row} (length : row.length = table.arity) :
    insert table row = some (table.insert row) := by
  unfold insert RowTable.insert
  split
  · rfl
  · rw [place_eq length h.arity ordered]
    rfl

theorem insertAll_eq {rows : List Row} (lengths : ∀ row ∈ rows, row.length = table.arity) :
    insertAll table rows = some (table.insertAll rows) := by
  induction rows generalizing table with
  | nil => rfl
  | cons row rest ih =>
      obtain ⟨here, others⟩ := List.forall_mem_cons.mp lengths
      have shape := table.insert_shape row
      have inserted := ih (h.insert here) (ordered.insert row) fun other member =>
        (others other member).trans shape.arity.symm
      unfold insertAll at inserted ⊢
      rw [List.foldlM_cons, insert_eq h ordered here]
      exact inserted

omit ordered in
theorem movesIn_eq {old new : Row} (stored : old ∈ table.rows) (length : new.length = table.arity) :
    movesIn table old new = some (table.movesIn old new) := by
  unfold movesIn RowTable.movesIn
  cases found : table.priorityAt? with
  | none => rfl
  | some position =>
      have bound := lt_arity_of_idxOf? found
      simp only [getElem?_of_length (h.arity old stored) bound, getElem?_of_length length bound]
      rfl

theorem replace_eq {old new : Row} (stored : old ∈ table.rows)
    (length : new.length = table.arity) :
    replace table old new = some (table.replace old new) := by
  unfold replace RowTable.replace
  rw [movesIn_eq h stored length]
  cases table.movesIn old new with
  | false => rfl
  | true =>
      have placed : place table new (table.rows.erase old) =
          some (table.place new (table.rows.erase old)) :=
        place_eq length (fun other member => h.arity other (List.mem_of_mem_erase member))
          fun position found => (ordered position found).sublist (List.erase_sublist.map _)
      simp only [Option.bind_eq_bind, Option.bind_some, if_true, placed]

/-- No change of a table indexes a row past its end, or searches rows that are out of order. -/
theorem apply_eq (change : RowChange) : apply table change = some (table.apply change) := by
  cases change with
  | add row =>
      simp only [apply, RowTable.apply, RowTable.add]
      cases checked : table.checkArity row with
      | error error => rfl
      | ok _ =>
          rw [insert_eq h ordered (checkArity_eq_ok_iff.mp checked)]
          rfl
  | addMany rows =>
      simp only [apply, RowTable.apply, RowTable.addMany]
      cases checked : table.allNew [] rows with
      | error error => rfl
      | ok new =>
          cases new with
          | false => rfl
          | true =>
              rw [insertAll_eq h ordered (lengths_of_allNew checked)]
              rfl
  | remove row => rfl
  | removeMany rows => rfl
  | removeFiltered filter => rfl
  | update old new =>
      simp only [apply, RowTable.apply, RowTable.update]
      cases checked : table.checkArity new with
      | error error => rfl
      | ok _ =>
          simp only [Except.ok_bind]
          split
          · rfl
          · rename_i possible
            simp only [Bool.or_eq_true, Bool.not_eq_true', not_or, Bool.not_eq_false] at possible
            rw [replace_eq h ordered ((h.has_iff old).mp possible.1) (checkArity_eq_ok_iff.mp checked)]
            rfl
  | updateMany old new =>
      simp only [apply, RowTable.apply, RowTable.updateMany]
      cases checked : table.checkArities new with
      | error error => rfl
      | ok _ =>
          simp only [Except.ok_bind]
          split
          · obtain ⟨cleared, shape, _⟩ := h.removeAll old
            have lengths : ∀ row ∈ new, row.length = (table.removeAll old).arity :=
              fun row member =>
                (checkArities_eq_ok_iff.mp checked row member).trans shape.arity.symm
            rw [insertAll_eq cleared (ordered.removeAll old) lengths]
            rfl
          · rfl

end

end Strict

end AccessControl.RowTable
