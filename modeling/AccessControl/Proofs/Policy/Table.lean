import AccessControl.Policy.Change
import AccessControl.Policy.Table
import AccessControl.Proofs.Except
import Mathlib.Data.List.Induction
import Mathlib.Data.List.Nodup
import Mathlib.Data.List.Perm.Basic

/-! # Tables of rows: what every change of a table keeps, and what it does to the rows

A table is well formed if it has no row twice, looks rows up correctly, and all its rows have the
length that it declares. Changes keep that; one that succeeds accounts for its rows by a delta, and
one that changes nothing leaves the very same table.
-/

namespace AccessControl

theorem nodup_eraseDups {α : Type} [BEq α] [LawfulBEq α] (items : List α) :
    items.eraseDups.Nodup := by
  induction items using List.reverseRecOn with
  | nil => exact .nil
  | append_singleton items item ih =>
      rw [List.eraseDups_append]
      by_cases present : item ∈ items
      · simpa [List.removeAll, present] using ih
      · simpa [List.removeAll, present, List.nodup_append, List.eraseDups_cons] using
          ⟨ih, fun other member => by rintro rfl; exact present member⟩

namespace RowTable

/-- What all changes of a table keep. -/
structure WellFormed (table : RowTable) : Prop where
  nodup : table.rows.Nodup
  members : table.members.Perm table.rows
  arity : ∀ row ∈ table.rows, row.length = table.arity

theorem WellFormed.has_iff {table : RowTable} (h : table.WellFormed) (row : Row) :
    table.has row = true ↔ row ∈ table.rows := by
  unfold has
  rw [List.contains_iff_mem]
  exact h.members.mem_iff

theorem WellFormed.has_eq_false_iff {table : RowTable} (h : table.WellFormed) (row : Row) :
    table.has row = false ↔ row ∉ table.rows := by
  rw [← h.has_iff row, Bool.not_eq_true]

theorem WellFormed.empty (type : String) (fields : List String) :
    WellFormed { type, fields } where
  nodup := List.nodup_nil
  members := List.Perm.nil
  arity := by simp

/-- Two tables of the same type and shape. -/
def SameShape (table table' : RowTable) : Prop :=
  table'.type = table.type ∧ table'.fields = table.fields

theorem SameShape.refl (table : RowTable) : SameShape table table := ⟨rfl, rfl⟩

theorem SameShape.trans {table table' table'' : RowTable} (h : SameShape table table')
    (h' : SameShape table' table'') : SameShape table table'' :=
  ⟨h'.1.trans h.1, h'.2.trans h.2⟩

theorem SameShape.arity {table table' : RowTable} (h : SameShape table table') :
    table'.arity = table.arity := congrArg List.length h.2

/-! ## Single rows -/

theorem place_perm (table : RowTable) (row : Row) (rows : List Row) :
    (table.place row rows).Perm (row :: rows) := by
  unfold place
  cases table.priorityAt? with
  | none => exact List.perm_append_singleton row rows
  | some position =>
      simp only
      refine List.perm_middle.trans ?_
      rw [List.takeWhile_append_dropWhile]

theorem insert_shape (table : RowTable) (row : Row) : SameShape table (table.insert row).2 := by
  unfold insert
  split <;> exact ⟨rfl, rfl⟩

theorem WellFormed.insert {table : RowTable} (h : table.WellFormed) {row : Row}
    (length : row.length = table.arity) : (table.insert row).2.WellFormed := by
  unfold RowTable.insert
  split
  · exact h
  · rename_i absent
    have fresh : row ∉ table.rows := (h.has_eq_false_iff row).mp (by simpa using absent)
    have placed := table.place_perm row table.rows
    refine ⟨?_, ?_, ?_⟩
    · exact placed.nodup_iff.mpr (List.nodup_cons.mpr ⟨fresh, h.nodup⟩)
    · exact (h.members.cons row).trans placed.symm
    · intro other member
      rcases List.mem_cons.mp (placed.mem_iff.mp member) with rfl | member
      · exact length
      · exact h.arity other member

theorem WellFormed.mem_insert {table : RowTable} (h : table.WellFormed) (row other : Row) :
    other ∈ (table.insert row).2.rows ↔ other = row ∨ other ∈ table.rows := by
  unfold RowTable.insert
  split
  · rename_i present
    have stored : row ∈ table.rows := (h.has_iff row).mp present
    constructor
    · exact Or.inr
    · rintro (rfl | member)
      · exact stored
      · exact member
  · simp only
    rw [(table.place_perm row table.rows).mem_iff, List.mem_cons]

theorem WellFormed.insert_perm {table : RowTable} (h : table.WellFormed) {row : Row}
    (fresh : row ∉ table.rows) : (table.insert row).2.rows.Perm (row :: table.rows) := by
  have absent : ¬table.has row = true := fun present => fresh ((h.has_iff row).mp present)
  unfold RowTable.insert
  rw [if_neg absent]
  exact table.place_perm row table.rows

theorem remove_shape (table : RowTable) (row : Row) : SameShape table (table.remove row).2 := by
  unfold remove
  split <;> exact ⟨rfl, rfl⟩

theorem WellFormed.remove {table : RowTable} (h : table.WellFormed) (row : Row) :
    (table.remove row).2.WellFormed := by
  unfold RowTable.remove
  split
  · exact ⟨h.nodup.erase row, h.members.erase row,
      fun other member => h.arity other (List.mem_of_mem_erase member)⟩
  · exact h

theorem WellFormed.mem_remove {table : RowTable} (h : table.WellFormed) (row other : Row) :
    other ∈ (table.remove row).2.rows ↔ other ≠ row ∧ other ∈ table.rows := by
  unfold RowTable.remove
  split
  · exact h.nodup.mem_erase_iff
  · rename_i absent
    have missing : row ∉ table.rows := (h.has_eq_false_iff row).mp (by simpa using absent)
    constructor
    · exact fun member => ⟨fun eq => missing (eq ▸ member), member⟩
    · exact And.right

theorem replace_perm_of_mem {α : Type} [BEq α] [LawfulBEq α] {list : List α} {old : α}
    (stored : old ∈ list) (new : α) : (list.replace old new).Perm (new :: list.erase old) := by
  induction list with
  | nil => simp at stored
  | cons first rest ih =>
      rw [List.replace_cons, List.erase_cons]
      by_cases here : first = old
      · simp [here]
      · have later : old ∈ rest := (List.mem_cons.mp stored).resolve_left (Ne.symm here)
        have differ : (first == old) = false := beq_eq_false_iff_ne.mpr here
        have differ' : (old == first) = false := beq_eq_false_iff_ne.mpr (Ne.symm here)
        simp only [differ, differ', Bool.false_eq_true, if_false]
        exact ((ih later).cons first).trans (List.Perm.swap new first _)

theorem replace_rows_perm {table : RowTable} {old : Row} (stored : old ∈ table.rows) (new : Row) :
    (table.replace old new).rows.Perm (new :: table.rows.erase old) := by
  unfold replace
  simp only
  split
  · exact table.place_perm new (table.rows.erase old)
  · exact replace_perm_of_mem stored new

theorem WellFormed.replace {table : RowTable} (h : table.WellFormed) {old new : Row}
    (stored : old ∈ table.rows) (length : new.length = table.arity)
    (fresh : new ∈ table.rows → new = old) : (table.replace old new).WellFormed := by
  have placed := replace_rows_perm stored new
  have absent : new ∉ table.rows.erase old := by
    intro member
    obtain ⟨differ, present⟩ := h.nodup.mem_erase_iff.mp member
    exact differ (fresh present)
  refine ⟨?_, ?_, ?_⟩
  · exact placed.nodup_iff.mpr (List.nodup_cons.mpr ⟨absent, h.nodup.erase old⟩)
  · exact ((h.members.erase old).cons new).trans placed.symm
  · intro row member
    rcases List.mem_cons.mp (placed.mem_iff.mp member) with rfl | member
    · exact length
    · exact h.arity row (List.mem_of_mem_erase member)

theorem WellFormed.mem_replace {table : RowTable} (h : table.WellFormed) {old : Row}
    (stored : old ∈ table.rows) (new other : Row) :
    other ∈ (table.replace old new).rows ↔ other = new ∨ other ≠ old ∧ other ∈ table.rows := by
  rw [(replace_rows_perm stored new).mem_iff, List.mem_cons, h.nodup.mem_erase_iff]

/-! ## Several rows -/

theorem WellFormed.insertAll {table : RowTable} (h : table.WellFormed) {rows : List Row}
    (length : ∀ row ∈ rows, row.length = table.arity) :
    (table.insertAll rows).WellFormed ∧ SameShape table (table.insertAll rows) ∧
      ∀ other, other ∈ (table.insertAll rows).rows ↔ other ∈ rows ∨ other ∈ table.rows := by
  induction rows generalizing table with
  | nil => exact ⟨h, .refl table, by simp [RowTable.insertAll]⟩
  | cons row rest ih =>
      have shape := table.insert_shape row
      have inserted := h.insert (length row List.mem_cons_self)
      obtain ⟨well, shape', stored⟩ := ih inserted fun other member =>
        (length other (List.mem_cons_of_mem row member)).trans shape.arity.symm
      refine ⟨well, shape.trans shape', fun other => ?_⟩
      refine (stored other).trans ?_
      rw [h.mem_insert, List.mem_cons]
      tauto

theorem WellFormed.removeAll {table : RowTable} (h : table.WellFormed) (rows : List Row) :
    (table.removeAll rows).WellFormed ∧ SameShape table (table.removeAll rows) ∧
      ∀ other, other ∈ (table.removeAll rows).rows ↔ other ∉ rows ∧ other ∈ table.rows := by
  induction rows generalizing table with
  | nil => exact ⟨h, .refl table, by simp [RowTable.removeAll]⟩
  | cons row rest ih =>
      obtain ⟨well, shape, stored⟩ := ih (h.remove row)
      refine ⟨well, (table.remove_shape row).trans shape, fun other => ?_⟩
      refine (stored other).trans ?_
      rw [h.mem_remove, List.mem_cons]
      tauto

theorem WellFormed.removeFiltered {table : RowTable} (h : table.WellFormed)
    (filter : FieldFilter) : (table.removeFiltered filter).2.WellFormed where
  nodup := h.nodup.filter _
  members := h.members.filter _
  arity row member := h.arity row (List.mem_of_mem_filter member)

theorem WellFormed.clear (table : RowTable) : table.clear.WellFormed where
  nodup := List.nodup_nil
  members := List.Perm.nil
  arity := by simp [RowTable.clear]

theorem WellFormed.updateMany_perm {table : RowTable} (h : table.WellFormed)
    {old new : List Row} (possible : table.canUpdate old new = true)
    (lengths : ∀ row ∈ new, row.length = table.arity) :
    ∃ rest, table.rows.Perm (old ++ rest) ∧
      ((table.removeAll old).insertAll new).rows.Perm (new ++ rest) := by
  simp only [canUpdate, Bool.and_eq_true, decide_eq_true_eq, List.all_eq_true, Bool.or_eq_true,
    Bool.not_eq_true', List.contains_iff_mem, h.has_iff, h.has_eq_false_iff] at possible
  obtain ⟨⟨⟨distinct, stored⟩, distinct'⟩, fresh⟩ := possible
  let rest := table.rows.filter fun row => row ∉ old
  have mem_rest (row : Row) : row ∈ rest ↔ row ∈ table.rows ∧ row ∉ old := by simp [rest]
  have nodup_rest : rest.Nodup := h.nodup.filter _
  obtain ⟨cleared, shape, kept⟩ := h.removeAll old
  obtain ⟨well, _, placed⟩ := cleared.insertAll fun row member =>
    (lengths row member).trans shape.arity.symm
  refine ⟨rest, ?_, ?_⟩
  · have apart : List.Disjoint old rest := fun row here there => ((mem_rest row).mp there).2 here
    refine (List.perm_ext_iff_of_nodup h.nodup (distinct.append nodup_rest apart)).mpr fun row => ?_
    rw [List.mem_append, mem_rest]
    have := stored row
    tauto
  · have apart : List.Disjoint new rest := by
      intro row here there
      obtain ⟨present, stays⟩ := (mem_rest row).mp there
      exact (fresh row here).elim (· present) stays
    refine (List.perm_ext_iff_of_nodup well.nodup (distinct'.append nodup_rest apart)).mpr
      fun row => ?_
    rw [placed, kept, List.mem_append, mem_rest]
    tauto

/-! ## Changes -/

/-- Apply a change to a table, and tell what it has changed, if anything. -/
def apply (table : RowTable) : RowChange → Except Error (Option RowDelta × RowTable)
  | .add row => (table.add row).map (RowDelta.ifChanged { added := [row] })
  | .addMany rows => (table.addMany rows).map (RowDelta.ifChanged { added := rows })
  | .remove row => .ok (RowDelta.ifChanged { removed := [row] } (table.remove row))
  | .removeMany rows => .ok (RowDelta.ifChanged { removed := rows } (table.removeMany rows))
  | .removeFiltered filter =>
    let (removed, table) := table.removeFiltered filter
    .ok (RowDelta.ifChanged { removed } (!removed.isEmpty, table))
  | .update old new =>
    (table.update old new).map (RowDelta.ifChanged { removed := [old], added := [new] })
  | .updateMany old new =>
    (table.updateMany old new).map (RowDelta.ifChanged { removed := old, added := new })

/-- A delta accounts for the rows after a change: they are the added ones, and those from before
    that have not been removed. A row may be both removed and added. -/
structure Accounts (delta : RowDelta) (before after : RowTable) : Prop where
  stored : ∀ row, row ∈ after.rows ↔
    row ∈ delta.added ∨ row ∉ delta.removed ∧ row ∈ before.rows
  present : ∀ row ∈ delta.removed, row ∈ before.rows

/-- What is to be shown of a change: it keeps the table well formed and its shape, and it either
    changes nothing or accounts for what it changes. -/
structure Outcome (table : RowTable) (delta? : Option RowDelta) (table' : RowTable) : Prop where
  well : table'.WellFormed
  shape : SameShape table table'
  unchanged : delta? = none → table' = table
  accounts : ∀ delta, delta? = some delta → Accounts delta table table'

theorem Outcome.ifChanged {table : RowTable} {delta : RowDelta} {outcome : Bool × RowTable}
    (well : outcome.2.WellFormed) (shape : SameShape table outcome.2)
    (unchanged : outcome.1 = false → outcome.2 = table)
    (accounts : outcome.1 = true → Accounts delta table outcome.2) :
    Outcome table (RowDelta.ifChanged delta outcome).1 (RowDelta.ifChanged delta outcome).2 := by
  obtain ⟨changed, table'⟩ := outcome
  cases changed with
  | false =>
      exact ⟨well, shape, fun _ => unchanged rfl, fun delta claimed => by
        simp [RowDelta.ifChanged] at claimed⟩
  | true =>
      refine ⟨well, shape, fun claimed => by simp [RowDelta.ifChanged] at claimed, ?_⟩
      intro _ claimed
      obtain rfl := Option.some.inj claimed
      exact accounts rfl

theorem checkArity_eq_ok_iff {table : RowTable} {row : Row} {u : Unit} :
    table.checkArity row = .ok u ↔ row.length = table.arity := by
  unfold checkArity
  split <;> simp_all

theorem checkArities_eq_ok_iff {table : RowTable} {rows : List Row} {u : Unit} :
    table.checkArities rows = .ok u ↔ ∀ row ∈ rows, row.length = table.arity := by
  induction rows with
  | nil => simp [checkArities]
  | cons row rest ih =>
      simp only [checkArities, Except.bind_eq_ok_iff, checkArity_eq_ok_iff, ih, List.forall_mem_cons]
      exact ⟨fun ⟨_, first, others⟩ => ⟨first, others⟩, fun ⟨first, others⟩ => ⟨(), first, others⟩⟩

theorem allNew_eq_ok_true_iff {table : RowTable} {seen rows : List Row} :
    table.allNew seen rows = .ok true ↔
      rows.Nodup ∧ ∀ row ∈ rows, row.length = table.arity ∧ table.has row = false ∧ row ∉ seen := by
  induction rows generalizing seen with
  | nil => simp [allNew]
  | cons row rest ih =>
      unfold allNew
      rw [Except.bind_eq_ok_iff, List.nodup_cons, List.forall_mem_cons]
      simp only [checkArity_eq_ok_iff]
      constructor
      · rintro ⟨_, length, others⟩
        split at others
        · simp at others
        · rename_i fresh
          obtain ⟨distinct, later⟩ := ih.mp others
          simp only [Bool.or_eq_true, List.contains_iff_mem, not_or, Bool.not_eq_true] at fresh
          refine ⟨⟨fun again => ?_, distinct⟩, ⟨length, fresh⟩, fun other member => ?_⟩
          · exact (later row again).2.2 List.mem_cons_self
          · obtain ⟨length', absent, unseen⟩ := later other member
            exact ⟨length', absent, fun seen => unseen (List.mem_cons_of_mem row seen)⟩
      · rintro ⟨⟨once, distinct⟩, ⟨length, absent, unseen⟩, later⟩
        refine ⟨(), length, ?_⟩
        rw [if_neg (by simp [absent, unseen])]
        refine ih.mpr ⟨distinct, fun other member => ?_⟩
        obtain ⟨length', absent', unseen'⟩ := later other member
        refine ⟨length', absent', fun seen => ?_⟩
        rcases List.mem_cons.mp seen with rfl | seen
        · exact once member
        · exact unseen' seen

theorem lengths_of_allNew {table : RowTable} {seen rows : List Row}
    (new : table.allNew seen rows = .ok true) : ∀ row ∈ rows, row.length = table.arity :=
  fun row member => ((allNew_eq_ok_true_iff.mp new).2 row member).1

namespace WellFormed

variable {table : RowTable} (h : table.WellFormed)
include h

theorem add_outcome {row : Row} (length : row.length = table.arity) :
    Outcome table (RowDelta.ifChanged { added := [row] } (table.insert row)).1
      (RowDelta.ifChanged { added := [row] } (table.insert row)).2 := by
  refine Outcome.ifChanged (h.insert length) (table.insert_shape row) ?_ fun _ => ⟨?_, by simp⟩
  · intro kept
    unfold RowTable.insert at kept ⊢
    split at kept <;> simp_all
  · intro other
    simpa using h.mem_insert row other

theorem addMany_outcome {rows : List Row} {outcome : Bool × RowTable}
    (made : table.addMany rows = .ok outcome) :
    Outcome table (RowDelta.ifChanged { added := rows } outcome).1
      (RowDelta.ifChanged { added := rows } outcome).2 := by
  obtain ⟨new, checked, settled⟩ := Except.bind_eq_ok_iff.mp made
  obtain rfl := Except.ok.inj settled
  cases new with
  | false => exact Outcome.ifChanged h (.refl table) (fun _ => rfl) (by simp)
  | true =>
      obtain ⟨well, shape, stored⟩ := h.insertAll (lengths_of_allNew checked)
      exact Outcome.ifChanged well shape (by simp) fun _ => ⟨by simpa using stored, by simp⟩

theorem remove_outcome (row : Row) :
    Outcome table (RowDelta.ifChanged { removed := [row] } (table.remove row)).1
      (RowDelta.ifChanged { removed := [row] } (table.remove row)).2 := by
  refine Outcome.ifChanged (h.remove row) (table.remove_shape row) ?_ fun changed => ⟨?_, ?_⟩
  · intro kept
    unfold RowTable.remove at kept ⊢
    split at kept <;> simp_all
  · intro other
    simpa using h.mem_remove row other
  · unfold RowTable.remove at changed
    split at changed
    · rename_i found
      simpa using (h.has_iff row).mp found
    · simp at changed

theorem removeMany_outcome (rows : List Row) :
    Outcome table (RowDelta.ifChanged { removed := rows } (table.removeMany rows)).1
      (RowDelta.ifChanged { removed := rows } (table.removeMany rows)).2 := by
  unfold RowTable.removeMany
  split
  · rename_i found
    obtain ⟨well, shape, stored⟩ := h.removeAll rows
    refine Outcome.ifChanged well shape (by simp) fun _ => ⟨by simpa using stored, ?_⟩
    intro row member
    exact (h.has_iff row).mp (List.all_eq_true.mp found row member)
  · exact Outcome.ifChanged h (.refl table) (fun _ => rfl) (by simp)

theorem removeFiltered_outcome (filter : FieldFilter) :
    Outcome table
      (RowDelta.ifChanged { removed := table.filtered filter }
        (!(table.filtered filter).isEmpty, (table.removeFiltered filter).2)).1
      (RowDelta.ifChanged { removed := table.filtered filter }
        (!(table.filtered filter).isEmpty, (table.removeFiltered filter).2)).2 := by
  refine Outcome.ifChanged (h.removeFiltered filter) ⟨rfl, rfl⟩ ?_ fun _ => ⟨?_, ?_⟩
  · intro kept
    have unpicked : ∀ row ∈ table.rows, filter.picks row = false := by
      simpa [RowTable.filtered] using kept
    have rows : table.rows.filter (fun row => !filter.picks row) = table.rows :=
      List.filter_eq_self.mpr fun row member => by simp [unpicked row member]
    have members : table.members.filter (fun row => !filter.picks row) = table.members :=
      List.filter_eq_self.mpr fun row member => by
        simp [unpicked row (h.members.mem_iff.mp member)]
    simp only [RowTable.removeFiltered, rows, members]
  · intro row
    simp only [RowTable.removeFiltered, RowTable.filtered, List.mem_filter, List.not_mem_nil,
      Bool.not_eq_true', false_or]
    by_cases picked : filter.picks row <;> simp [picked]
  · intro row member
    exact List.mem_of_mem_filter member

theorem update_outcome {old new : Row} {outcome : Bool × RowTable}
    (made : table.update old new = .ok outcome) :
    Outcome table (RowDelta.ifChanged { removed := [old], added := [new] } outcome).1
      (RowDelta.ifChanged { removed := [old], added := [new] } outcome).2 := by
  obtain ⟨_, checked, settled⟩ := Except.bind_eq_ok_iff.mp made
  have length := checkArity_eq_ok_iff.mp checked
  obtain rfl := Except.ok.inj settled
  split
  · exact Outcome.ifChanged h (.refl table) (fun _ => rfl) (by simp)
  · rename_i possible
    simp only [Bool.or_eq_true, Bool.not_eq_true', Bool.and_eq_true, bne_iff_ne, ne_eq, not_or,
      not_and, Bool.not_eq_false, Bool.not_eq_true] at possible
    have stored : old ∈ table.rows := (h.has_iff old).mp possible.1
    have fresh : new ∈ table.rows → new = old := by
      intro member
      by_contra differ
      exact (h.has_eq_false_iff new).mp (possible.2 (Ne.symm differ)) member
    refine Outcome.ifChanged (h.replace stored length fresh) ⟨rfl, rfl⟩ (by simp)
      fun _ => ⟨fun other => ?_, by simpa using stored⟩
    simpa using h.mem_replace stored new other

theorem updateMany_outcome {old new : List Row} {outcome : Bool × RowTable}
    (made : table.updateMany old new = .ok outcome) :
    Outcome table (RowDelta.ifChanged { removed := old, added := new } outcome).1
      (RowDelta.ifChanged { removed := old, added := new } outcome).2 := by
  obtain ⟨_, checked, settled⟩ := Except.bind_eq_ok_iff.mp made
  have lengths := checkArities_eq_ok_iff.mp checked
  obtain rfl := Except.ok.inj settled
  split
  · rename_i possible
    simp only [RowTable.canUpdate, Bool.and_eq_true, List.all_eq_true] at possible
    obtain ⟨cleared, shape, kept⟩ := h.removeAll old
    obtain ⟨well, shape', stored⟩ := cleared.insertAll fun row member =>
      (lengths row member).trans shape.arity.symm
    refine Outcome.ifChanged well (shape.trans shape') (by simp) fun _ => ⟨fun row => ?_, ?_⟩
    · exact (stored row).trans (or_congr_right (kept row))
    · intro row member
      exact (h.has_iff row).mp (possible.1.1.2 row member)
  · exact Outcome.ifChanged h (.refl table) (fun _ => rfl) (by simp)

/-- A change that succeeds keeps the table well formed, and accounts for its rows. -/
theorem apply {change : RowChange} {delta? : Option RowDelta} {table' : RowTable}
    (made : table.apply change = .ok (delta?, table')) : Outcome table delta? table' := by
  cases change with
  | add row =>
      obtain ⟨_, checked, settled⟩ := Except.map_bind_ok_eq_ok_iff.mp made
      have outcome := h.add_outcome (checkArity_eq_ok_iff.mp checked)
      rwa [settled] at outcome
  | addMany rows =>
      obtain ⟨outcome, added, settled⟩ := Except.map_eq_ok_iff.mp made
      have outcome := h.addMany_outcome added
      rwa [settled] at outcome
  | remove row =>
      have outcome := h.remove_outcome row
      rwa [Except.ok.inj made] at outcome
  | removeMany rows =>
      have outcome := h.removeMany_outcome rows
      rwa [Except.ok.inj made] at outcome
  | removeFiltered filter =>
      have outcome := h.removeFiltered_outcome filter
      have settled := Except.ok.inj made
      simp only [RowTable.removeFiltered] at settled outcome
      rwa [settled] at outcome
  | update old new =>
      obtain ⟨outcome, updated, settled⟩ := Except.map_eq_ok_iff.mp made
      have outcome := h.update_outcome updated
      rwa [settled] at outcome
  | updateMany old new =>
      obtain ⟨outcome, updated, settled⟩ := Except.map_eq_ok_iff.mp made
      have outcome := h.updateMany_outcome updated
      rwa [settled] at outcome

end WellFormed

end RowTable

end AccessControl
