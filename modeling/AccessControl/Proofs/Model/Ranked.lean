import AccessControl.Proofs.Model.Batch
import AccessControl.Proofs.Policy.Sorted

/-! # Rows that come one after another into an order of priorities

A type with priorities holds the rows that it has been told of as a stable sort leaves them. The order
of priorities is a total preorder of all texts, so there is just one such sort, and it does not depend
on the order in which rows of different ranks come.
-/

namespace AccessControl.Model

variable {model : Model}

/-- New rows of the right length can be added one after another, and then stand arranged among those
    that have been there. -/
theorem inTurn_add_arranged (prepared : model.Prepared) {s : RowSection} {type : String}
    {table : RowTable} (here : model.table? s type = some table) {rows : List Row}
    (distinct : (model.rows s.key type ++ rows).Nodup)
    (lengths : ∀ row ∈ rows, row.length = table.arity) :
    ∃ after, inTurn (fun model row => model.add s.key type row) model rows =
        .ok (rows.map fun _ => true, after) ∧
      after.rows s.key type = table.arranged (model.rows s.key type ++ rows) := by
  have h := prepared.wellFormed.tables s type table here
  rw [rows_of_table? here] at distinct ⊢
  obtain ⟨_, once, apart⟩ := List.nodup_append.mp distinct
  have fresh : ∀ row ∈ rows, row ∉ table.rows :=
    fun row member stored => apart row stored row member rfl
  refine ⟨_, inTurn_change here (h.inTurn_add once lengths fresh), ?_⟩
  rw [rows_setTable here, if_pos ⟨rfl, rfl⟩]
  exact h.rows_insertAll_of_nodup (prepared.ordered s type table here) distinct lengths

/-- Rows that are added one after another to a type with priorities stand as a stable sort leaves them:
    first those whose priorities hold finite numbers, in the order of these, then all others in the
    order of their texts, and rows of one rank in the order in which they came. If no two of them have
    the same rank, they may come in any order. Priorities are totally preordered, and numbers by their
    values. -/
theorem inTurn_add_sorted (prepared : model.Prepared) {sec type : String} {table : RowTable}
    (found : model.table sec type = .ok table) {position : Nat}
    (ranked : table.priorityAt? = some position) (rows : List Row)
    (distinct : (model.rows sec type ++ rows).Nodup)
    (lengths : ∀ row ∈ rows, row.length = table.arity) :
    (∃ after, inTurn (fun model row => model.add sec type row) model rows =
        .ok (rows.map fun _ => true, after) ∧
      after.rows sec type = RowTable.sorted position (model.rows sec type ++ rows) ∧
      after.rows sec type = RowTable.numbersFirst position (model.rows sec type ++ rows) ∧
      ∀ rows' : List Row, rows'.Perm rows →
        (rows.Pairwise fun row other => comparePriority (RowTable.priorityOf position row)
          (RowTable.priorityOf position other) ≠ .eq) →
        ∃ after', inTurn (fun model row => model.add sec type row) model rows' =
          .ok (rows'.map fun _ => true, after') ∧ after'.rows sec type = after.rows sec type) ∧
    (∀ a, comparePriority a a = .eq) ∧
    (∀ a b, comparePriority a b = (comparePriority b a).swap) ∧
    (∀ a b c, comparePriority a b ≠ .gt → comparePriority b c ≠ .gt → comparePriority a c ≠ .gt) ∧
    ∀ a b x y, priorityNumber? a = some x → priorityNumber? b = some y → x.value < y.value →
      comparePriority a b = .lt := by
  obtain ⟨s, key, here⟩ := table_eq_ok_iff.mp found
  obtain rfl := RowSection.key_of_ofKey key
  refine ⟨?_, fun _ => Std.ReflCmp.compare_self, fun _ _ => Std.OrientedCmp.eq_swap,
    fun _ _ _ first second => ?_, fun _ _ _ _ first second less =>
      comparePriority_of_value_lt first second less⟩
  · obtain ⟨after, made, left⟩ := inTurn_add_arranged prepared here distinct lengths
    refine ⟨after, made, ?_, ?_, fun rows' perm apart => ?_⟩
    · rw [left, RowTable.arranged_eq_sorted ranked]
    · rw [left, RowTable.arranged_eq_numbersFirst ranked]
    · have distinct' := ((perm.append_left (model.rows s.key type)).nodup_iff).mpr distinct
      obtain ⟨after', made', left'⟩ := inTurn_add_arranged prepared here distinct'
        fun row member => lengths row (perm.mem_iff.mp member)
      refine ⟨after', made', ?_⟩
      have differ : rows.Pairwise fun row other => table.sameRank row other = false :=
        apart.imp fun differ => Bool.eq_false_iff.mpr fun same =>
          differ ((RowTable.sameRank_iff_eq ranked _ _).mp same)
      rw [left, left', RowTable.arranged_eq_iff]
      exact ((RowTable.Agree.of_perm perm.symm differ).append_left _).symm
  · exact Ordering.isLE_iff_ne_gt.mp (Std.TransCmp.isLE_trans
      (Ordering.isLE_iff_ne_gt.mpr first) (Ordering.isLE_iff_ne_gt.mpr second))

/-- Names with numbers, with other texts, and with nothing but blanks for priorities. -/
def waiting : List Row :=
  [["alice", "low"], ["bob", "10"], ["carol", " 9.5"], ["dave", "inf"], ["erin", "1e1"], ["frank", " "]]

theorem inTurn_add_sorted_waiting :
    (listing "sub, priority" []).Prepared ∧
      ∃ after, inTurn (fun model row => model.add "p" "p" row) (listing "sub, priority" []) waiting =
          .ok (waiting.map fun _ => true, after) ∧
        after.rows "p" "p" = RowTable.sorted 1 waiting ∧
        after.rows "p" "p" =
          [["carol", " 9.5"], ["bob", "10"], ["erin", "1e1"], ["frank", " "], ["dave", "inf"],
            ["alice", "low"]] := by
  have prepared : (listing "sub, priority" []).Prepared := prepared_listing _ _
  have observed : (listing "sub, priority" []).rows "p" "p" = [] ∧
      ((listing "sub, priority" []).table "p" "p").toOption.map
        (fun table => (table.arity, table.priorityAt?)) = some (2, some 1) ∧
      seen (inTurn (fun model row => model.add "p" "p" row) (listing "sub, priority" []) waiting) =
        some ([true, true, true, true, true, true],
          [["carol", " 9.5"], ["bob", "10"], ["erin", "1e1"], ["frank", " "], ["dave", "inf"],
            ["alice", "low"]]) := by decide +kernel
  obtain ⟨none, shape, rows⟩ := observed
  obtain ⟨table, found, shaped⟩ := Option.map_eq_some_iff.mp shape
  obtain ⟨arity, ranked⟩ := Prod.mk.inj shaped
  obtain ⟨⟨after, made, sorted, _⟩, _⟩ := inTurn_add_sorted prepared
    (Except.toOption_eq_some_iff.mp found) ranked waiting (by rw [none]; decide)
    (by rw [arity]; decide)
  obtain ⟨after', made', left⟩ := seen_eq_some_iff.mp rows
  obtain ⟨_, rfl⟩ := Prod.mk.inj (Except.ok.inj (made.symm.trans made'))
  rw [none] at sorted
  exact ⟨prepared, after, made, sorted, left⟩

end AccessControl.Model
