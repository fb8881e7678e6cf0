import AccessControl.Proofs.Policy.Arrange
import AccessControl.Proofs.Storage.Memory

/-! # The order of lines beside that of rows

A store in memory keeps its lines in the order in which they came, and puts a new row in the place of
the old one. A table agrees with that as long as the rows of each rank stand in the same order. Every
change keeps it so, except for some that put rows in place of others: where the table moves a row to
the end of its rank, the store may have other rows of that rank behind it.
-/

namespace AccessControl

namespace RowTable

/-- Rows make way for others one after another, each for one in its place. -/
def replaceEach (stored : List Row) (pairs : List (Row × Row)) : List Row :=
  pairs.foldl (fun stored pair => stored.replace pair.1 pair.2) stored

/-- Whether a change leaves rows of each rank in the order in which a store leaves them that puts
    each new row in the place of an old one. -/
def Settles (table : RowTable) (stored : List Row) : RowChange → Prop
  | .update old new => table.movesIn old new = true →
    table.arranged (stored.replace old new) = table.arranged (stored.erase old ++ [new])
  | .updateMany old new =>
    table.arranged (replaceEach stored (old.zip new)) = table.arranged (stored.diff old ++ new)
  | .add _ | .addMany _ | .remove _ | .removeMany _ | .removeFiltered _ => True

instance (table : RowTable) (stored : List Row) : DecidablePred (table.Settles stored)
  | .update old new => inferInstanceAs (Decidable (table.movesIn old new = true →
      table.arranged (stored.replace old new) = table.arranged (stored.erase old ++ [new])))
  | .updateMany old new => inferInstanceAs (Decidable
      (table.arranged (replaceEach stored (old.zip new)) = table.arranged (stored.diff old ++ new)))
  | .add _ | .addMany _ | .remove _ | .removeMany _ | .removeFiltered _ => .isTrue trivial

end RowTable

namespace MemoryStore

open PolicyLine

variable {store : MemoryStore} {type : String}

theorem rowsOf_add (store : MemoryStore) (type : String) (row : Row) :
    (store.add type row).rowsOf type = RowTable.appendNew (store.rowsOf type) row := by
  unfold RowTable.appendNew
  split
  · rename_i stored
    rw [rowsOf_add_of_mem stored]
  · rename_i missing
    rw [rowsOf_add_of_notMem missing]

theorem rowsOf_addMany (store : MemoryStore) (type : String) (rows : List Row) :
    (store.follow type (.addMany rows)).2.rowsOf type =
      rows.foldl RowTable.appendNew (store.rowsOf type) := by
  unfold follow
  induction rows generalizing store with
  | nil => rfl
  | cons row rest ih => exact (ih (store.add type row)).trans (by rw [rowsOf_add, List.foldl_cons])

theorem rowsOf_removeMany (store : MemoryStore) (type : String) (rows : List Row) :
    (store.follow type (.removeMany rows)).2.rowsOf type =
      rows.foldl List.erase (store.rowsOf type) := by
  unfold follow
  induction rows generalizing store with
  | nil => rfl
  | cons row rest ih =>
      refine (ih (store.remove type row)).trans ?_
      rw [List.foldl_cons]
      exact congrArg (rest.foldl List.erase) (rowsOf_erase type row store.lines)

theorem rowsOf_updateAll {pairs : List (Row × Row)} (done : (store.updateAll type pairs).1 = .ok ()) :
    (store.updateAll type pairs).2.rowsOf type =
      RowTable.replaceEach (store.rowsOf type) pairs := by
  induction pairs generalizing store with
  | nil => rfl
  | cons pair rest ih =>
      obtain ⟨old, new⟩ := pair
      unfold updateAll at done ⊢
      cases updated : store.update type old new with
      | error error => simp [updated] at done
      | ok store' =>
          rw [updated] at done
          refine (ih done).trans ?_
          unfold update at updated
          split at updated
          · obtain rfl := Except.ok.inj updated
            exact congrArg (RowTable.replaceEach · rest) (rowsOf_replace type old new store.lines)
          · simp at updated

/-- After a change that has changed something, store and table agree on the order of rows exactly if
    the change settles that. -/
theorem follow_agree_iff {table table' : RowTable} (h : table.WellFormed) (ordered : table.Ordered)
    (agree : table.Agree (store.rowsOf type) table.rows) {change : RowChange} {delta : RowDelta}
    (paired : change.paired = true) (made : table.apply change = .ok (some delta, table')) :
    table.Agree ((store.follow type change).2.rowsOf type) table'.rows ↔
      table.Settles (store.rowsOf type) change := by
  obtain ⟨done, _⟩ := follow_perm h agree.perm paired made
  have lined := RowTable.ordered_iff.mp ordered
  have distinct : (store.rowsOf type).Nodup := agree.perm.nodup_iff.mpr h.nodup
  cases change with
  | add row =>
      obtain ⟨_, _, settled⟩ := Except.map_bind_ok_eq_ok_iff.mp made
      obtain ⟨_, rfl⟩ := Prod.mk.inj settled
      refine iff_of_true ?_ trivial
      exact (rowsOf_add store type row).symm ▸ agree.insert h lined row
  | addMany rows =>
      obtain ⟨new, checked, settled⟩ := Except.map_bind_ok_eq_ok_iff.mp made
      obtain ⟨changed, rfl⟩ := Prod.mk.inj settled
      refine iff_of_true ?_ trivial
      cases new with
      | false => simp at changed
      | true =>
          rw [rowsOf_addMany]
          exact agree.insertAll h lined (RowTable.lengths_of_allNew checked)
  | remove row =>
      obtain ⟨_, rfl⟩ := Prod.mk.inj (Except.ok.inj made)
      refine iff_of_true ?_ trivial
      have dropped : (store.follow type (.remove row)).2.rowsOf type =
          (store.rowsOf type).erase row := rowsOf_erase type row store.lines
      exact dropped ▸ agree.remove h row
  | removeMany rows =>
      obtain ⟨changed, rfl⟩ := Prod.mk.inj (Except.ok.inj made)
      refine iff_of_true ?_ trivial
      unfold RowTable.removeMany at changed ⊢
      split at changed
      · rename_i stored
        rw [if_pos stored, rowsOf_removeMany]
        exact agree.removeAll h rows
      · simp at changed
  | removeFiltered filter =>
      obtain ⟨_, rfl⟩ := Prod.mk.inj (Except.ok.inj made)
      refine iff_of_true ?_ trivial
      exact (rowsOf_removeFiltered store type filter).symm ▸ agree.filter _
  | update old new =>
      obtain ⟨_, _, settled⟩ := Except.map_bind_ok_eq_ok_iff.mp made
      obtain ⟨changed, rfl⟩ := Prod.mk.inj settled
      split at changed
      · simp at changed
      · rename_i possible
        rw [if_neg possible]
        have stored : (store.follow type (.update old new)).2.rowsOf type =
            (store.rowsOf type).replace old new := rowsOf_updateAll done
        rw [stored]
        cases moves : table.movesIn old new with
        | false =>
            refine iff_of_true (agree.replace_of_stays moves) fun moved => ?_
            simp [moves] at moved
        | true =>
            have placed := agree.replace_of_moves h lined moves
            constructor
            · intro same _
              exact RowTable.arranged_eq_iff.mpr (same.trans placed.symm)
            · intro settles
              exact (RowTable.arranged_eq_iff.mp (settles moves)).trans placed
  | updateMany old new =>
      obtain ⟨_, checked, settled⟩ := Except.map_bind_ok_eq_ok_iff.mp made
      obtain ⟨changed, rfl⟩ := Prod.mk.inj settled
      split at changed
      · rename_i possible
        rw [if_pos possible]
        have stored : (store.follow type (.updateMany old new)).2.rowsOf type =
            RowTable.replaceEach (store.rowsOf type) (old.zip new) := rowsOf_updateAll done
        have placed :=
          agree.updateMany h lined possible (RowTable.checkArities_eq_ok_iff.mp checked)
        rw [stored]
        constructor
        · intro same
          exact RowTable.arranged_eq_iff.mpr (same.trans placed.symm)
        · intro settles
          exact (RowTable.arranged_eq_iff.mp settles).trans placed
      · simp at changed

end MemoryStore

end AccessControl
