import AccessControl.Proofs.Enforcer.Loading
import AccessControl.Proofs.Policy.Touched
import AccessControl.Proofs.Storage.Memory
import Mathlib.Data.List.Count

/-! # Spare copies in a store in memory

A store may be set up with several lines for one row. Of these the tables see one only. The others
are spare copies: they stay in the store when the row is removed. Whatever an enforcer does, the store
holds the rows of every type, beside no more spare copies than at the beginning.
-/

/-! ## The copies of a row in a store

A store in memory may hold a row in several lines, of which a table has one. To remove or to replace
a row takes one of its lines, and a filter takes them all.
-/

namespace AccessControl

/-- How many of the lines with a row are left by a change that takes the row. -/
def RowChange.leaves (row : Row) (copies : Nat) : RowChange → Nat
  | .removeFiltered _ => 0
  | change => copies - (change.taken []).count row

namespace MemoryStore

open PolicyLine

variable {store : MemoryStore} {type : String} {row : Row}

/-- How many lines of a type hold a row. -/
def copies (store : MemoryStore) (type : String) (row : Row) : Nat :=
  (store.rowsOf type).count row

theorem copies_eq_zero_iff : store.copies type row = 0 ↔ ⟨type, row⟩ ∉ store.lines := by
  rw [copies, List.count_eq_zero, rowsOf, mem_rowsOf]

/-! ## Spare copies -/

/-- The lines of a type that are left when each row has been taken once. -/
def spares (store : MemoryStore) (type : String) : List Row :=
  (store.rowsOf type).diff (store.rowsOf type).eraseDups

theorem count_eraseDups (rows : List Row) (row : Row) :
    rows.eraseDups.count row = min 1 (rows.count row) := by
  have once := List.nodup_iff_count_le_one.mp (nodup_eraseDups rows) row
  by_cases stored : row ∈ rows
  · have here := List.count_pos_iff.mpr (List.mem_eraseDups.mpr stored)
    have there := List.count_pos_iff.mpr stored
    omega
  · rw [List.count_eq_zero.mpr fun stored' => stored (List.mem_eraseDups.mp stored'),
      List.count_eq_zero.mpr stored]
    rfl

theorem count_spares (store : MemoryStore) (type : String) (row : Row) :
    (store.spares type).count row = store.copies type row - 1 := by
  rw [spares, List.count_diff, count_eraseDups, copies]
  omega

theorem spares_perm (store : MemoryStore) (type : String) :
    ((store.rowsOf type).eraseDups ++ store.spares type).Perm (store.rowsOf type) := by
  refine List.subperm_append_diff_self_of_count_le fun row _ => ?_
  rw [count_eraseDups]
  exact Nat.min_le_right _ _

/-! ## What a change leaves -/

theorem copies_remove (old : Row) :
    (store.remove type old).copies type row = store.copies type row - [old].count row := by
  unfold copies remove rowsOf
  rw [rowsOf_erase, List.count_erase, List.count_singleton]

theorem copies_removeMany (old : List Row) :
    (store.follow type (.removeMany old)).2.copies type row =
      store.copies type row - old.count row := by
  unfold follow
  induction old generalizing store with
  | nil => rfl
  | cons first rest ih =>
      have split : ([first] ++ rest).count row = [first].count row + rest.count row :=
        List.count_append
      refine ih.trans ?_
      rw [copies_remove, Nat.sub_sub, ← split]
      rfl

theorem copies_removeFiltered {filter : FieldFilter} (picked : filter.picks row = true) :
    (store.removeFiltered type filter).copies type row = 0 := by
  rw [copies, rowsOf_removeFiltered, List.count_eq_zero]
  intro left
  simp [picked] at left

theorem copies_updateAll {pairs : List (Row × Row)}
    (done : (store.updateAll type pairs).1 = .ok ()) :
    (store.updateAll type pairs).2.copies type row + (pairs.map (·.1)).count row =
      store.copies type row + (pairs.map (·.2)).count row := by
  induction pairs generalizing store with
  | nil => rfl
  | cons pair rest ih =>
      obtain ⟨old, new⟩ := pair
      by_cases stored : old ∈ store.rowsOf type
      · obtain ⟨store', updated, traded⟩ := update_of_mem stored new
        have counts := traded.count_eq row
        unfold updateAll at done ⊢
        rw [updated] at done ⊢
        have others := ih done
        unfold copies at others ⊢
        simp only [List.map_cons, List.count_cons] at counts ⊢
        omega
      · have missing : store.lines.contains ⟨type, old⟩ = false := by
          rw [← Bool.not_eq_true, List.contains_iff_mem]
          exact fun present => stored (mem_rowsOf.mpr present)
        unfold updateAll update at done
        rw [missing] at done
        simp at done

/-- What a change leaves of the lines with a row that it takes from a table. -/
theorem copies_follow {table table' : RowTable} (h : table.WellFormed) {spare : List Row}
    (same : (store.rowsOf type).Perm (table.rows ++ spare)) {change : RowChange} {delta : RowDelta}
    (paired : change.paired = true) (made : table.apply change = .ok (some delta, table'))
    (stored : row ∈ table.rows) (gone : row ∉ table'.rows) :
    (store.follow type change).2.copies type row =
      change.leaves row (store.copies type row) := by
  obtain ⟨done, _⟩ := follow_spare h same paired made
  have accounts := (h.apply made).accounts delta rfl
  have apart : row ∉ delta.added := fun added => gone ((accounts.stored row).mpr (.inl added))
  have taken : row ∈ delta.removed := by
    by_contra kept
    exact gone ((accounts.stored row).mpr (.inr ⟨kept, stored⟩))
  rw [RowTable.delta_of_apply made] at apart taken
  cases change with
  | add | addMany => cases taken
  | remove old => exact copies_remove old
  | removeMany old => exact copies_removeMany old
  | removeFiltered filter => exact copies_removeFiltered (List.mem_filter.mp taken).2
  | update old new =>
      have counts : _ + _ = store.copies type row + _ := copies_updateAll done
      have absent : [new].count row = 0 := List.count_eq_zero.mpr apart
      show _ = _ - [old].count row
      simp only [List.map_cons, List.map_nil, absent] at counts
      exact Nat.eq_sub_of_add_eq counts
  | updateMany old new =>
      have lengths : old.length = new.length := of_decide_eq_true paired
      have counts : _ + _ = store.copies type row + _ := copies_updateAll done
      have absent : new.count row = 0 := List.count_eq_zero.mpr apart
      rw [List.map_fst_zip (Nat.le_of_eq lengths), List.map_snd_zip (Nat.le_of_eq lengths.symm),
        absent] at counts
      exact Nat.eq_sub_of_add_eq counts

end MemoryStore

/-! ## What a store holds -/

namespace Model

variable {model model' : Model}

theorem Admits.congr (shapes : model.SameShapes model') {line : PolicyLine}
    (admits : model.Admits line) : model'.Admits line := by
  obtain ⟨s, table, found, length⟩ := admits
  obtain ⟨table', found', shape⟩ := shapes.table? found
  exact ⟨s, table', found', length.trans shape.arity.symm⟩

end Model

/-- A store holds the rows of every declared type beside spare copies of some, and no line that the
    model does not admit. -/
structure MemoryStore.Holds (store : MemoryStore) (model : Model) (spare : String → List Row) :
    Prop where
  rows : ∀ s type table, model.table? s type = some table →
    (store.rowsOf type).Perm (table.rows ++ spare type)
  admits : ∀ line ∈ store.lines, model.Admits line

namespace MemoryStore.Holds

open PolicyLine

variable {store : MemoryStore} {model model' : Model} {spare : String → List Row}

theorem copies_eq (holds : store.Holds model spare) (h : model.WellFormed) {s : RowSection}
    {type : String} {table : RowTable} (found : model.table? s type = some table) (row : Row) :
    store.copies type row = (if row ∈ table.rows then 1 else 0) + (spare type).count row := by
  have counts := (holds.rows s type table found).count_eq row
  rw [List.count_append] at counts
  refine counts.trans (congrArg (· + _) ?_)
  have once := List.nodup_iff_count_le_one.mp (h.tables s type table found).nodup row
  split
  · rename_i stored
    have := List.count_pos_iff.mpr stored
    omega
  · rename_i missing
    exact List.count_eq_zero.mpr missing

theorem spares_subperm (holds : store.Holds model spare) (h : model.WellFormed) (type : String) :
    (store.spares type).Subperm (spare type) := by
  rw [List.subperm_ext_iff]
  intro row member
  have counted := List.count_pos_iff.mpr member
  rw [MemoryStore.count_spares] at counted ⊢
  -- a type with lines is declared
  have stored : 0 < store.copies type row := by omega
  obtain ⟨s, table, found, _⟩ :=
    holds.admits ⟨type, row⟩ (mem_rowsOf.mp (List.count_pos_iff.mp stored))
  have copies : store.copies type row = _ + (spare type).count row := holds.copies_eq h found row
  split at copies <;> omega

theorem congr (holds : store.Holds model spare) (same : model.SameTables model') :
    store.Holds model' spare where
  rows s type table found := holds.rows s type table (by rw [← same s type, found])
  admits line member := (holds.admits line member).congr same.shapes

theorem load (proper : model.Proper) (admits : ∀ line ∈ store.lines, model.Admits line) :
    store.Holds (model.clear.load store.lines).2 store.spares := by
  have shapes : model.SameShapes (model.clear.load store.lines).2 :=
    model.shapes_clear.trans (proper.well.clear.load store.lines).2
  refine ⟨fun s type table found => ?_, fun line member => (admits line member).congr shapes⟩
  have passed : model.checkLines store.lines = .ok () := proper.named.checkLines_eq_ok_iff.mpr admits
  obtain ⟨before, found', _⟩ :=
    Model.SameShapes.table? (fun s type => (shapes s type).symm) found
  obtain ⟨table', loaded, _, rows⟩ := proper.named.table?_clear_load proper.well passed found'
  obtain rfl := Option.some.inj (found.symm.trans loaded)
  rw [rows]
  exact (store.spares_perm type).symm.trans ((before.agree_arranged _).perm.symm.append_right _)

/-- A store that follows a change holds the changed rows, and no more spare copies than before. -/
theorem follow (holds : store.Holds model spare) (proper : model.Proper) {s : RowSection}
    {type : String} {change : RowChange} {delta : RowDelta}
    (made : model.apply s.key type change = .ok (some delta, model')) :
    ∃ spare' : String → List Row, (∀ other, (spare' other).Subperm (spare other)) ∧
      (store.follow type change).2.Holds model' spare' := by
  have paired := Model.paired_of_apply made
  obtain ⟨_, _, changed⟩ := proper.well.apply made
  obtain ⟨table, table', found, applied, placed⟩ := Model.apply_eq_ok made
  obtain ⟨_, fewer, sparer, same⟩ := MemoryStore.follow_spare (proper.well.tables s type table found)
    (holds.rows s type table found) paired applied
  let spare' (other : String) : List Row := if other = type then fewer else spare other
  have sparer' (other : String) : (spare' other).Subperm (spare other) := by
    simp only [spare']
    split
    · rename_i here
      exact here ▸ sparer
    · exact .refl _
  have rows : ∀ s' other table'', model'.table? s' other = some table'' →
      ((store.follow type change).2.rowsOf other).Perm (table''.rows ++ spare' other) := by
    intro s' other table'' found'
    rw [← placed, Model.table?_setTable, found] at found'
    split at found'
    · rename_i here
      obtain ⟨rfl, rfl⟩ := here
      obtain rfl := Option.some.inj found'
      simpa only [spare', if_true] using same
    · rename_i elsewhere
      have differ : other ≠ type := by
        rintro rfl
        exact elsewhere ⟨proper.named.section_eq found' found, rfl⟩
      simp only [spare', if_neg differ]
      rw [MemoryStore.rowsOf_follow_other differ change]
      exact holds.rows s' other table'' found'
  refine ⟨spare', sparer', rows, fun line member => ?_⟩
  obtain ⟨other, row⟩ := line
  have stored : row ∈ (store.follow type change).2.rowsOf other := mem_rowsOf.mpr member
  by_cases here : other = type
  · subst here
    obtain ⟨after, found', shape⟩ := changed.shapes.table? found
    have well := changed.wellFormed proper.well
    refine ⟨s, after, found', ?_⟩
    rcases List.mem_append.mp ((rows s other after found').mem_iff.mp stored) with new | spared
    · exact (well.tables s other after found').arity row new
    · -- a spare copy was among the lines before
      have before := (holds.rows s other table found).mem_iff.mpr
        (List.mem_append_right _ ((sparer' other).subset spared))
      obtain ⟨s', other', found'', length⟩ := holds.admits ⟨other, row⟩ (mem_rowsOf.mp before)
      obtain rfl := proper.named.section_eq found found''
      obtain rfl := Option.some.inj (found.symm.trans found'')
      exact length.trans shape.arity.symm
  · rw [MemoryStore.rowsOf_follow_other here change] at stored
    exact (holds.admits ⟨other, row⟩ (mem_rowsOf.mp stored)).congr changed.shapes

end MemoryStore.Holds

/-- Spare copies are used up or stay, but none are made. -/
theorem Course.holds {permits : Permission MemoryStore} {store store' : MemoryStore}
    {model model' : Model} (course : Course true permits store model store' model')
    (proper : model.Proper) {spare : String → List Row} (holds : store.Holds model spare) :
    ∃ spare' : String → List Row, (∀ type, (spare' type).Subperm (spare type)) ∧
      store'.Holds model' spare' := by
  induction course generalizing spare with
  | still store tables _ => exact ⟨spare, fun _ => .refl _, holds.congr tables⟩
  | trans first second ih ih' =>
      obtain ⟨spare', fewer, held⟩ := ih proper holds
      obtain ⟨spare'', fewer', held'⟩ := ih' (first.proper proper) held
      exact ⟨spare'', fun type => (fewer' type).trans (fewer type), held'⟩
  | change _ made => exact holds.follow proper made
  | clear store model =>
      refine ⟨fun _ => [], fun _ => List.nil_subperm,
        ⟨fun s type table found => ?_, fun _ member => absurd member List.not_mem_nil⟩⟩
      rw [Model.table?_clear] at found
      obtain ⟨before, _, rfl⟩ := Option.map_eq_some_iff.mp found
      exact .refl _
  | @load store lines model given passed =>
      obtain rfl := Except.ok.inj given
      have admits := proper.named.checkLines_eq_ok_iff.mp passed
      exact ⟨store.spares, holds.spares_subperm proper.well, .load proper admits⟩
  | save store model =>
      refine ⟨fun _ => [], fun _ => List.nil_subperm, ⟨fun s type table found => ?_, ?_⟩⟩
      · rw [List.append_nil]
        exact .of_eq (proper.named.rowsOf_lines found)
      · exact proper.named.admits_lines proper.well

end AccessControl
