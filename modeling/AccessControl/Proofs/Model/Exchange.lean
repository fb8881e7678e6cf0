import AccessControl.Proofs.Model.Batch

/-! # Rows put in place of others at once

A batch of updates is an exchange: its old rows leave together, and its new rows come together. So a row
may be both an old one and a new one, and rows may swap their texts or pass them on. What an exchange
asks for is just what it takes to lose no row and to hold none twice.
-/

namespace AccessControl

/-- What it takes to put rows in place of others at once. -/
structure Exchangeable (rows old new : List Row) : Prop where
  distinct : old.Nodup
  stored : ∀ row ∈ old, row ∈ rows
  distinct_new : new.Nodup
  /-- A new row that is there leaves itself. -/
  leaves : ∀ row ∈ new, row ∈ rows → row ∈ old

/-- The rows of an exchange in no particular order: the new ones, and the others that stay. -/
def exchanged (rows old new : List Row) : List Row := new ++ rows.filter fun row => !old.contains row

theorem mem_exchanged {rows old new : List Row} (row : Row) :
    row ∈ exchanged rows old new ↔ row ∈ new ∨ row ∈ rows ∧ row ∉ old := by
  simp [exchanged]

theorem Exchangeable.nodup_exchanged {rows old new : List Row} (able : Exchangeable rows old new)
    (once : rows.Nodup) : (exchanged rows old new).Nodup := by
  refine able.distinct_new.append (once.filter _) fun row here there => ?_
  obtain ⟨present, stays⟩ := List.mem_filter.mp there
  exact (by simpa using stays : row ∉ old) (able.leaves row here present)

theorem Exchangeable.length_exchanged {rows old new : List Row} (able : Exchangeable rows old new)
    (once : rows.Nodup) (paired : old.length = new.length) :
    (exchanged rows old new).length = rows.length := by
  have leaving : (rows.filter old.contains).Perm old := by
    refine (List.perm_ext_iff_of_nodup (once.filter _) able.distinct).mpr fun row => ?_
    rw [List.mem_filter, List.contains_iff_mem]
    exact ⟨And.right, fun member => ⟨able.stored row member, member⟩⟩
  have parted := (List.filter_append_perm old.contains rows).length_eq
  rw [List.length_append, leaving.length_eq, paired] at parted
  rw [exchanged, List.length_append, ← parted]

namespace RowTable

variable {table : RowTable} (h : table.WellFormed)
include h

theorem WellFormed.canUpdate_iff (old new : List Row) :
    table.canUpdate old new = true ↔ Exchangeable table.rows old new := by
  simp only [canUpdate, Bool.and_eq_true, decide_eq_true_eq, List.all_eq_true, Bool.or_eq_true,
    Bool.not_eq_true', List.contains_iff_mem, h.has_iff, h.has_eq_false_iff]
  constructor
  · rintro ⟨⟨⟨distinct, stored⟩, distinct_new⟩, leaves⟩
    exact ⟨distinct, stored, distinct_new, fun row member there =>
      (leaves row member).resolve_left (not_not_intro there)⟩
  · intro able
    exact ⟨⟨⟨able.distinct, able.stored⟩, able.distinct_new⟩, fun row member =>
      Classical.or_iff_not_imp_left.mpr fun there => able.leaves row member (not_not.mp there)⟩

/-- The old rows leave and the new ones come, and all other rows stay. -/
theorem WellFormed.rows_exchange {old new : List Row} (able : Exchangeable table.rows old new)
    (lengths : ∀ row ∈ new, row.length = table.arity) :
    ((table.removeAll old).insertAll new).rows.Perm (exchanged table.rows old new) := by
  obtain ⟨cleared, shape, kept⟩ := h.removeAll old
  obtain ⟨well, _, placed⟩ := cleared.insertAll fun row member =>
    (lengths row member).trans shape.arity.symm
  refine (List.perm_ext_iff_of_nodup well.nodup (able.nodup_exchanged h.nodup)).mpr fun row => ?_
  rw [placed, kept, mem_exchanged, and_comm]

end RowTable

namespace Model

variable {model : Model}

/-- A batch of updates with as many new rows as old ones and of the right length never fails. -/
theorem updateMany_eq {s : RowSection} {type : String} {table : RowTable}
    (here : model.table? s type = some table) {old new : List Row}
    (paired : old.length = new.length) (lengths : ∀ row ∈ new, row.length = table.arity) :
    model.updateMany s.key type old new =
      .ok (if table.canUpdate old new then
        (true, model.setTable s type ((table.removeAll old).insertAll new)) else (false, model)) := by
  have checked : table.checkArities new = .ok () := RowTable.checkArities_eq_ok_iff.mpr lengths
  have updated : table.updateMany old new =
      .ok (if table.canUpdate old new then (true, (table.removeAll old).insertAll new)
        else (false, table)) := by
    unfold RowTable.updateMany
    rw [checked]
    rfl
  unfold updateMany
  rw [if_pos paired]
  by_cases possible : table.canUpdate old new = true
  · rw [if_pos possible] at updated ⊢
    exact change_eq_ok_iff.mpr ⟨s, table, _, s.ofKey_key, here, updated, rfl⟩
  · rw [if_neg possible] at updated ⊢
    exact change_eq_ok_iff.mpr ⟨s, table, _, s.ofKey_key, here, updated, setTable_self here⟩

theorem Prepared.updateMany (prepared : model.Prepared) {s : RowSection} {type : String}
    {old new : List Row} {answer : Bool} {after : Model}
    (made : model.updateMany s.key type old new = .ok (answer, after)) : after.Prepared := by
  have changed : model.apply s.key type (.updateMany old new) =
      .ok (RowDelta.ifChanged { removed := old, added := new } (answer, after)) := by
    show (model.updateMany s.key type old new).map _ = _
    rw [made]
    rfl
  exact .apply prepared changed

/-- A batch of updates, with as many new rows as old ones and of the right length, succeeds just if its
    rows are exchangeable. Then the old rows are gone and the new ones are there, once each, and all
    other rows have stayed. Otherwise it leaves the model as it is. -/
theorem updateMany_exchanges (prepared : model.Prepared) {sec type : String}
    {table : RowTable} (found : model.table sec type = .ok table) (old new : List Row)
    (paired : old.length = new.length) (lengths : ∀ row ∈ new, row.length = table.arity) :
    (Exchangeable (model.rows sec type) old new →
      ∃ after, model.updateMany sec type old new = .ok (true, after) ∧
        (after.rows sec type).Perm (exchanged (model.rows sec type) old new) ∧
        (∀ row, after.has sec type row = true ↔
          row ∈ new ∨ model.has sec type row = true ∧ row ∉ old) ∧
        (after.rows sec type).Nodup ∧
        (after.rows sec type).length = (model.rows sec type).length ∧
        ∀ (s : RowSection) type', ¬(s.key = sec ∧ type' = type) →
          after.rows s.key type' = model.rows s.key type') ∧
    (¬Exchangeable (model.rows sec type) old new →
      model.updateMany sec type old new = .ok (false, model)) := by
  obtain ⟨s, key, here⟩ := table_eq_ok_iff.mp found
  obtain rfl := RowSection.key_of_ofKey key
  have h := prepared.wellFormed.tables s type table here
  have made := updateMany_eq here paired lengths
  have stored : model.rows s.key type = table.rows := rows_of_table? here
  rw [stored]
  constructor
  · intro able
    rw [if_pos ((h.canUpdate_iff old new).mpr able)] at made
    have left := h.rows_exchange able lengths
    have after := rows_setTable here ((table.removeAll old).insertAll new)
    have rows := after s type
    rw [if_pos ⟨rfl, rfl⟩] at rows
    have intact := (prepared.updateMany made).intact
    refine ⟨_, made, ?_, fun row => ?_, ?_, ?_, fun s' type' elsewhere => ?_⟩
    · rwa [rows]
    · rw [intact.has, rows, left.mem_iff, mem_exchanged, prepared.intact.has, stored]
    · rw [rows, left.nodup_iff]
      exact able.nodup_exchanged h.nodup
    · rw [rows, left.length_eq, able.length_exchanged h.nodup paired]
    · rw [after, if_neg]
      rintro ⟨rfl, rfl⟩
      exact elsewhere ⟨rfl, rfl⟩
  · intro unable
    rwa [if_neg fun possible => unable ((h.canUpdate_iff old new).mp possible)] at made

/-- One name is passed on and one comes instead, two names swap, and a name that stays is not taken. -/
theorem updateMany_exchanges_names :
    (listing "sub" [["a"], ["b"], ["c"]]).Prepared ∧
      (∃ after, (listing "sub" [["a"], ["b"], ["c"]]).updateMany "p" "p" [["a"], ["b"]]
        [["b"], ["d"]] = .ok (true, after) ∧ (after.rows "p" "p").Perm [["b"], ["d"], ["c"]]) ∧
      (∃ after, (listing "sub" [["a"], ["b"], ["c"]]).updateMany "p" "p" [["a"], ["c"]]
        [["c"], ["a"]] = .ok (true, after) ∧ (after.rows "p" "p").Perm [["c"], ["a"], ["b"]]) ∧
      (listing "sub" [["a"], ["b"], ["c"]]).updateMany "p" "p" [["a"]] [["c"]] =
        .ok (false, listing "sub" [["a"], ["b"], ["c"]]) := by
  have prepared : (listing "sub" [["a"], ["b"], ["c"]]).Prepared := prepared_listing _ _
  have observed : (listing "sub" [["a"], ["b"], ["c"]]).rows "p" "p" = [["a"], ["b"], ["c"]] ∧
      ((listing "sub" [["a"], ["b"], ["c"]]).table "p" "p").toOption.map (·.arity) = some 1 := by
    decide +kernel
  obtain ⟨rows, arity⟩ := observed
  obtain ⟨table, found, single⟩ := Option.map_eq_some_iff.mp arity
  rw [Except.toOption_eq_some_iff] at found
  have lengths {new : List Row} (singles : ∀ row ∈ new, row.length = 1) :
      ∀ row ∈ new, row.length = table.arity := by
    rwa [single]
  obtain ⟨passed, made, left, _⟩ := (updateMany_exchanges prepared found
    [["a"], ["b"]] [["b"], ["d"]] rfl (lengths (by decide))).1
      (rows ▸ ⟨by decide, by decide, by decide, by decide⟩)
  obtain ⟨swapped, made', left', _⟩ := (updateMany_exchanges prepared found
    [["a"], ["c"]] [["c"], ["a"]] rfl (lengths (by decide))).1
      (rows ▸ ⟨by decide, by decide, by decide, by decide⟩)
  rw [rows] at left left'
  refine ⟨prepared, ⟨passed, made, left⟩, ⟨swapped, made', left'⟩, ?_⟩
  refine (updateMany_exchanges prepared found [["a"]] [["c"]] rfl
    (lengths (by decide))).2 fun able => ?_
  have leaves := able.leaves ["c"] (by decide) (by rw [rows]; decide)
  revert leaves
  decide

end Model

end AccessControl
