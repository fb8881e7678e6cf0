import AccessControl.Proofs.Model.Tables
import AccessControl.Storage.Memory
import Mathlib.Data.List.Perm.Subperm

/-! # A store in memory beside a table

The lines of each type are a list of rows of their own, and a change touches those of its type only.
Where the store holds the rows of a table in some order, it holds those of the changed table after it
has followed the change, and it misses no row on the way. This is so even if it holds spare copies of
some rows, which the table has but once or not at all.
-/

namespace AccessControl

namespace PolicyLine

theorem rowsOf_append (type : String) (lines others : List PolicyLine) :
    rowsOf type (lines ++ others) = rowsOf type lines ++ rowsOf type others := by
  simp [rowsOf]

theorem rowsOf_cons_self (type : String) (row : Row) (rest : List PolicyLine) :
    rowsOf type (⟨type, row⟩ :: rest) = row :: rowsOf type rest := by
  simp [rowsOf]

theorem rowsOf_cons_other {type other : String} (differ : other ≠ type) (row : Row)
    (rest : List PolicyLine) : rowsOf other (⟨type, row⟩ :: rest) = rowsOf other rest := by
  simp [rowsOf, Ne.symm differ]

theorem rowsOf_perm {lines lines' : List PolicyLine} (same : lines.Perm lines') (type : String) :
    (rowsOf type lines).Perm (rowsOf type lines') :=
  (same.filter _).map _

theorem mem_rowsOf {type : String} {row : Row} {lines : List PolicyLine} :
    row ∈ rowsOf type lines ↔ ⟨type, row⟩ ∈ lines := by
  simp only [rowsOf, List.mem_map, List.mem_filter, beq_iff_eq]
  constructor
  · rintro ⟨line, ⟨member, rfl⟩, rfl⟩
    exact member
  · intro member
    exact ⟨⟨type, row⟩, ⟨member, rfl⟩, rfl⟩

theorem nodup_rowsOf {lines : List PolicyLine} (distinct : lines.Nodup) (type : String) :
    (rowsOf type lines).Nodup := by
  refine List.Nodup.map_on ?_ (distinct.filter _)
  intro line member other member' same
  have here := eq_of_beq (List.mem_filter.mp member).2
  have there := eq_of_beq (List.mem_filter.mp member').2
  cases line
  cases other
  simp_all

/-! ## Changing one line -/

variable {type other : String}

theorem rowsOf_erase (type : String) (row : Row) (lines : List PolicyLine) :
    rowsOf type (lines.erase ⟨type, row⟩) = (rowsOf type lines).erase row := by
  induction lines with
  | nil => rfl
  | cons line rest ih =>
      obtain ⟨type', first⟩ := line
      by_cases here : type' = type
      · subst here
        rw [rowsOf_cons_self, List.erase_cons, List.erase_cons]
        by_cases same : first = row
        · simp [same]
        · simp [same, rowsOf_cons_self, ih]
      · rw [List.erase_cons_tail (by simp [here]), rowsOf_cons_other (Ne.symm here),
          rowsOf_cons_other (Ne.symm here), ih]

theorem rowsOf_erase_other (differ : other ≠ type) (row : Row) (lines : List PolicyLine) :
    rowsOf other (lines.erase ⟨type, row⟩) = rowsOf other lines := by
  induction lines with
  | nil => rfl
  | cons line rest ih =>
      rw [List.erase_cons]
      split
      · rename_i here
        rw [eq_of_beq here, rowsOf_cons_other differ]
      · rw [← List.singleton_append, rowsOf_append, ih, ← rowsOf_append, List.singleton_append]

theorem rowsOf_replace (type : String) (old new : Row) (lines : List PolicyLine) :
    rowsOf type (lines.replace ⟨type, old⟩ ⟨type, new⟩) = (rowsOf type lines).replace old new := by
  induction lines with
  | nil => rfl
  | cons line rest ih =>
      obtain ⟨type', first⟩ := line
      rw [List.replace_cons]
      by_cases here : type' = type
      · subst here
        rw [rowsOf_cons_self, List.replace_cons]
        by_cases same : old = first
        · simp [same, rowsOf_cons_self]
        · have differ : (old == first) = false := beq_eq_false_iff_ne.mpr same
          have differ' : ((⟨type', old⟩ : PolicyLine) == ⟨type', first⟩) = false := by simp [same]
          simp [differ, differ', rowsOf_cons_self, ih]
      · have differ : ((⟨type, old⟩ : PolicyLine) == ⟨type', first⟩) = false := by
          simp [Ne.symm here]
        simp [differ, rowsOf_cons_other (Ne.symm here), ih]

theorem rowsOf_replace_other (differ : other ≠ type) (old new : Row) (lines : List PolicyLine) :
    rowsOf other (lines.replace ⟨type, old⟩ ⟨type, new⟩) = rowsOf other lines := by
  induction lines with
  | nil => rfl
  | cons line rest ih =>
      rw [List.replace_cons]
      split
      · rename_i here
        rw [← eq_of_beq here, rowsOf_cons_other differ, rowsOf_cons_other differ]
      · rw [← List.singleton_append, rowsOf_append, ih, ← rowsOf_append, List.singleton_append]

end PolicyLine

namespace MemoryStore

open PolicyLine

variable {store : MemoryStore} {type other : String}

/-! ## Single lines -/

theorem rowsOf_add_of_mem {row : Row} (stored : row ∈ store.rowsOf type) :
    store.add type row = store := by
  unfold add
  rw [if_pos (List.contains_iff_mem.mpr (mem_rowsOf.mp stored))]

theorem rowsOf_add_of_notMem {row : Row} (missing : row ∉ store.rowsOf type) :
    (store.add type row).rowsOf type = store.rowsOf type ++ [row] := by
  have absent : ¬store.lines.contains ⟨type, row⟩ = true := fun present =>
    missing (mem_rowsOf.mpr (List.contains_iff_mem.mp present))
  unfold add rowsOf
  rw [if_neg absent, rowsOf_append, rowsOf_cons_self]
  rfl

theorem rowsOf_add_other (differ : other ≠ type) (row : Row) :
    (store.add type row).rowsOf other = store.rowsOf other := by
  unfold add rowsOf
  split
  · rfl
  · rw [rowsOf_append, rowsOf_cons_other differ]
    exact List.append_nil _

theorem rowsOf_remove_of_mem {row : Row} (stored : row ∈ store.rowsOf type) :
    (row :: (store.remove type row).rowsOf type).Perm (store.rowsOf type) := by
  have dropped := List.perm_cons_erase (mem_rowsOf.mp stored)
  have same := rowsOf_perm dropped.symm type
  rwa [rowsOf_cons_self] at same

theorem remove_of_notMem {row : Row} (missing : row ∉ store.rowsOf type) :
    store.remove type row = store := by
  unfold remove
  rw [List.erase_of_not_mem fun present => missing (mem_rowsOf.mpr present)]

theorem rowsOf_removeFiltered (store : MemoryStore) (type : String) (filter : FieldFilter) :
    (store.removeFiltered type filter).rowsOf type =
      (store.rowsOf type).filter fun row => !filter.picks row := by
  unfold removeFiltered rowsOf PolicyLine.rowsOf
  simp only [List.filter_map, List.filter_filter]
  congr 1
  refine List.filter_congr fun line _ => ?_
  cases line.type == type <;> simp

theorem rowsOf_removeFiltered_other (differ : other ≠ type) (filter : FieldFilter) :
    (store.removeFiltered type filter).rowsOf other = store.rowsOf other := by
  unfold removeFiltered rowsOf PolicyLine.rowsOf
  rw [List.filter_filter]
  congr 1
  refine List.filter_congr fun line _ => ?_
  by_cases here : line.type = other
  · simp [here, differ]
  · simp [here]

theorem update_of_mem {old : Row} (stored : old ∈ store.rowsOf type) (new : Row) :
    ∃ store', store.update type old new = .ok store' ∧
      (old :: store'.rowsOf type).Perm (new :: store.rowsOf type) := by
  have present := mem_rowsOf.mp stored
  refine ⟨_, if_pos (List.contains_iff_mem.mpr present), ?_⟩
  have put := rowsOf_perm (RowTable.replace_perm_of_mem present ⟨type, new⟩) type
  have dropped := rowsOf_perm (List.perm_cons_erase present) type
  rw [rowsOf_cons_self] at put dropped
  exact (put.cons old).trans ((List.Perm.swap new old _).trans (dropped.symm.cons new))

theorem rowsOf_update_other (differ : other ≠ type) {old new : Row} {store' : MemoryStore}
    (updated : store.update type old new = .ok store') :
    store'.rowsOf other = store.rowsOf other := by
  unfold update at updated
  split at updated
  · obtain rfl := Except.ok.inj updated
    exact rowsOf_replace_other differ old new store.lines
  · simp at updated

/-! ## Other types -/

theorem rowsOf_updateAll_other (differ : other ≠ type) (pairs : List (Row × Row)) :
    (store.updateAll type pairs).2.rowsOf other = store.rowsOf other := by
  induction pairs generalizing store with
  | nil => rfl
  | cons pair rest ih =>
      unfold updateAll
      split
      · rename_i updated
        exact ih.trans (rowsOf_update_other differ updated)
      · rfl

theorem rowsOf_follow_other (differ : other ≠ type) (change : RowChange) :
    (store.follow type change).2.rowsOf other = store.rowsOf other := by
  cases change with
  | add row => exact rowsOf_add_other differ row
  | addMany rows =>
      unfold follow
      induction rows generalizing store with
      | nil => rfl
      | cons row rest ih => exact ih.trans (rowsOf_add_other differ row)
  | remove row => exact rowsOf_erase_other differ row store.lines
  | removeMany rows =>
      unfold follow
      induction rows generalizing store with
      | nil => rfl
      | cons row rest ih => exact ih.trans (rowsOf_erase_other differ row store.lines)
  | removeFiltered filter => exact rowsOf_removeFiltered_other differ filter
  | update old new => exact rowsOf_updateAll_other differ [(old, new)]
  | updateMany old new => exact rowsOf_updateAll_other differ (old.zip new)

/-! ## The type of the change

Beside the rows of a table a store may hold spare copies of some rows. A change may use them up, but
it makes no new ones.
-/

section

variable {table : RowTable} (h : table.WellFormed) {spare : List Row}
  (same : (store.rowsOf type).Perm (table.rows ++ spare))
include h same

theorem add_perm (row : Row) : ∃ spare', spare'.Subperm spare ∧
    ((store.add type row).rowsOf type).Perm ((table.insert row).2.rows ++ spare') := by
  by_cases stored : row ∈ table.rows
  · rw [rowsOf_add_of_mem (same.mem_iff.mpr (List.mem_append_left spare stored))]
    unfold RowTable.insert
    rw [if_pos ((h.has_iff row).mpr stored)]
    exact ⟨spare, .refl spare, same⟩
  · have placed := h.insert_perm stored
    by_cases spared : row ∈ spare
    · -- the spare copy comes to stand for the row
      rw [rowsOf_add_of_mem (same.mem_iff.mpr (List.mem_append_right table.rows spared))]
      refine ⟨spare.erase row, List.erase_subperm row spare, ?_⟩
      have taken := (List.perm_cons_erase spared).append_left table.rows
      exact same.trans (taken.trans (List.perm_middle.trans (placed.symm.append_right _)))
    · have missing : row ∉ store.rowsOf type := fun present =>
        (List.mem_append.mp (same.mem_iff.mp present)).elim stored spared
      rw [rowsOf_add_of_notMem missing]
      refine ⟨spare, .refl spare, ?_⟩
      exact (List.perm_append_singleton row _).trans
        ((same.cons row).trans (placed.symm.append_right spare))

theorem addAll_perm {rows : List Row} (lengths : ∀ row ∈ rows, row.length = table.arity) :
    ∃ spare', spare'.Subperm spare ∧
      ((store.follow type (.addMany rows)).2.rowsOf type).Perm
        ((table.insertAll rows).rows ++ spare') := by
  induction rows generalizing store table spare with
  | nil => exact ⟨spare, .refl spare, same⟩
  | cons row rest ih =>
      obtain ⟨here, others⟩ := List.forall_mem_cons.mp lengths
      have shape := table.insert_shape row
      obtain ⟨spare', fewer, added⟩ := add_perm h same row
      obtain ⟨spare'', fewer', placed⟩ := ih (h.insert here) added fun other member =>
        (others other member).trans shape.arity.symm
      exact ⟨spare'', fewer'.trans fewer, placed⟩

theorem remove_perm (row : Row) : ∃ spare', spare'.Subperm spare ∧
    ((store.remove type row).rowsOf type).Perm ((table.remove row).2.rows ++ spare') := by
  unfold RowTable.remove
  by_cases stored : row ∈ table.rows
  · rw [if_pos ((h.has_iff row).mpr stored)]
    have dropped := rowsOf_remove_of_mem (same.mem_iff.mpr (List.mem_append_left spare stored))
    have taken := (List.perm_cons_erase stored).append_right spare
    exact ⟨spare, .refl spare, (dropped.trans (same.trans taken)).cons_inv⟩
  · have absent : ¬table.has row = true := fun present => stored ((h.has_iff row).mp present)
    rw [if_neg absent]
    by_cases spared : row ∈ spare
    · have dropped := rowsOf_remove_of_mem (same.mem_iff.mpr (List.mem_append_right table.rows spared))
      have taken := (List.perm_cons_erase spared).append_left table.rows
      exact ⟨spare.erase row, List.erase_subperm row spare,
        (dropped.trans (same.trans (taken.trans List.perm_middle))).cons_inv⟩
    · have missing : row ∉ store.rowsOf type := fun present =>
        (List.mem_append.mp (same.mem_iff.mp present)).elim stored spared
      rw [remove_of_notMem missing]
      exact ⟨spare, .refl spare, same⟩

theorem removeAll_perm (rows : List Row) : ∃ spare', spare'.Subperm spare ∧
    ((store.follow type (.removeMany rows)).2.rowsOf type).Perm
      ((table.removeAll rows).rows ++ spare') := by
  induction rows generalizing store table spare with
  | nil => exact ⟨spare, .refl spare, same⟩
  | cons row rest ih =>
      obtain ⟨spare', fewer, removed⟩ := remove_perm h same row
      obtain ⟨spare'', fewer', left⟩ := ih (h.remove row) removed
      exact ⟨spare'', fewer'.trans fewer, left⟩

end

/-- Rows that are stored, each of them once, make way for others one after another. Each is still
    there when its turn comes, even if a new row has been put in place of another meanwhile. -/
theorem updateAll_perm (pairs : List (Row × Row)) {rest : List Row}
    (parts : (store.rowsOf type).Perm (pairs.map (·.1) ++ rest)) :
    (store.updateAll type pairs).1 = .ok () ∧
      ((store.updateAll type pairs).2.rowsOf type).Perm (pairs.map (·.2) ++ rest) := by
  induction pairs generalizing store rest with
  | nil => exact ⟨rfl, parts⟩
  | cons pair others ih =>
      obtain ⟨old, new⟩ := pair
      have stored : old ∈ store.rowsOf type := parts.mem_iff.mpr List.mem_cons_self
      obtain ⟨store', updated, traded⟩ := update_of_mem stored new
      have kept : (store'.rowsOf type).Perm (others.map (·.1) ++ new :: rest) := by
        have renewed := traded.trans (parts.cons new)
        have swapped := renewed.trans (List.Perm.swap old new _)
        exact swapped.cons_inv.trans List.perm_middle.symm
      obtain ⟨done, placed⟩ := ih kept
      unfold updateAll
      rw [updated]
      exact ⟨done, placed.trans List.perm_middle⟩

/-- A store follows a change that has changed something, and then holds the rows of the changed
    table, beside no more spare copies than before. -/
theorem follow_spare {table table' : RowTable} (h : table.WellFormed) {spare : List Row}
    (same : (store.rowsOf type).Perm (table.rows ++ spare)) {change : RowChange} {delta : RowDelta}
    (paired : change.paired = true) (made : table.apply change = .ok (some delta, table')) :
    (store.follow type change).1 = .ok () ∧ ∃ spare', spare'.Subperm spare ∧
      ((store.follow type change).2.rowsOf type).Perm (table'.rows ++ spare') := by
  cases change with
  | add row =>
      obtain ⟨_, _, settled⟩ := Except.map_bind_ok_eq_ok_iff.mp made
      obtain ⟨_, rfl⟩ := Prod.mk.inj settled
      exact ⟨rfl, add_perm h same row⟩
  | addMany rows =>
      obtain ⟨new, checked, settled⟩ := Except.map_bind_ok_eq_ok_iff.mp made
      obtain ⟨changed, rfl⟩ := Prod.mk.inj settled
      cases new with
      | false => simp at changed
      | true => exact ⟨rfl, addAll_perm h same (RowTable.lengths_of_allNew checked)⟩
  | remove row =>
      obtain ⟨_, rfl⟩ := Prod.mk.inj (Except.ok.inj made)
      exact ⟨rfl, remove_perm h same row⟩
  | removeMany rows =>
      obtain ⟨changed, rfl⟩ := Prod.mk.inj (Except.ok.inj made)
      unfold RowTable.removeMany at changed ⊢
      split at changed
      · rename_i stored
        rw [if_pos stored]
        exact ⟨rfl, removeAll_perm h same rows⟩
      · simp at changed
  | removeFiltered filter =>
      obtain ⟨_, rfl⟩ := Prod.mk.inj (Except.ok.inj made)
      refine ⟨rfl, spare.filter fun row => !filter.picks row, List.filter_sublist.subperm, ?_⟩
      show ((store.removeFiltered type filter).rowsOf type).Perm
        ((table.rows.filter fun row => !filter.picks row) ++ _)
      rw [rowsOf_removeFiltered, ← List.filter_append]
      exact same.filter _
  | update old new =>
      obtain ⟨_, _, settled⟩ := Except.map_bind_ok_eq_ok_iff.mp made
      obtain ⟨changed, rfl⟩ := Prod.mk.inj settled
      split at changed
      · simp at changed
      · rename_i possible
        rw [if_neg possible]
        simp only [Bool.or_eq_true, Bool.not_eq_true', not_or, Bool.not_eq_false] at possible
        have stored : old ∈ table.rows := (h.has_iff old).mp possible.1
        have parts := same.trans ((List.perm_cons_erase stored).append_right spare)
        obtain ⟨done, placed⟩ := updateAll_perm [(old, new)] parts
        exact ⟨done, spare, .refl spare,
          placed.trans ((RowTable.replace_rows_perm stored new).symm.append_right spare)⟩
  | updateMany old new =>
      obtain ⟨_, checked, settled⟩ := Except.map_bind_ok_eq_ok_iff.mp made
      obtain ⟨changed, rfl⟩ := Prod.mk.inj settled
      split at changed
      · rename_i possible
        rw [if_pos possible]
        have lengths : old.length = new.length := of_decide_eq_true paired
        obtain ⟨rest, before, after⟩ :=
          h.updateMany_perm possible (RowTable.checkArities_eq_ok_iff.mp checked)
        have parts := same.trans (before.append_right spare)
        rw [← List.map_fst_zip (Nat.le_of_eq lengths), List.append_assoc] at parts
        obtain ⟨done, placed⟩ := updateAll_perm (old.zip new) parts
        rw [List.map_snd_zip (Nat.le_of_eq lengths.symm), ← List.append_assoc] at placed
        exact ⟨done, spare, .refl spare, placed.trans (after.symm.append_right spare)⟩
      · simp at changed

/-- Without spare copies the store holds just the rows of the changed table. -/
theorem follow_perm {table table' : RowTable} (h : table.WellFormed)
    (same : (store.rowsOf type).Perm table.rows) {change : RowChange} {delta : RowDelta}
    (paired : change.paired = true) (made : table.apply change = .ok (some delta, table')) :
    (store.follow type change).1 = .ok () ∧
      ((store.follow type change).2.rowsOf type).Perm table'.rows := by
  rw [← List.append_nil table.rows] at same
  obtain ⟨done, spare, fewer, placed⟩ := follow_spare h same paired made
  obtain rfl := List.subperm_nil.mp fewer
  exact ⟨done, by rwa [List.append_nil] at placed⟩

end MemoryStore

end AccessControl
