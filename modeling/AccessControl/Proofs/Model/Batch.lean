import AccessControl.Proofs.Model.Intact
import AccessControl.Proofs.Policy.Batch

/-! # Batches of a model beside single changes

What a batch does to a table it does to the model that holds it. So a batch of additions or removals can
be made by single ones, while a batch of updates may leave the rows in another order.
-/

namespace AccessControl.Model

variable {model : Model}

theorem inTurn_change {α : Type} {single : RowTable → α → Except Error (Bool × RowTable)}
    {s : RowSection} {type : String} {table table' : RowTable} {changes : List α}
    {answers : List Bool} (found : model.table? s type = some table)
    (made : inTurn single table changes = .ok (answers, table')) :
    inTurn (fun model change => model.change s.key type (single · change)) model changes =
      .ok (answers, model.setTable s type table') := by
  induction changes generalizing model table answers with
  | nil =>
      obtain ⟨rfl, rfl⟩ := Prod.mk.inj (Except.ok.inj made)
      rw [setTable_self found]
      rfl
  | cons change rest ih =>
      obtain ⟨⟨answer, first⟩, once, later⟩ := Except.bind_eq_ok_iff.mp made
      obtain ⟨⟨others, last⟩, rest_made, settled⟩ := Except.bind_eq_ok_iff.mp later
      obtain ⟨rfl, rfl⟩ := Prod.mk.inj (Except.ok.inj settled)
      have changed : model.change s.key type (single · change) =
          .ok (answer, model.setTable s type first) :=
        change_eq_ok_iff.mpr ⟨s, table, first, s.ofKey_key, found, once, rfl⟩
      have placed : (model.setTable s type first).table? s type = some first := by
        rw [table?_setTable, if_pos ⟨rfl, rfl⟩, found]
        rfl
      have later := ih placed rest_made
      rw [setTable_setTable] at later
      exact inTurn_cons changed later

section

variable (prepared : model.Prepared) {sec type : String} {after : Model}
include prepared

/-- A batch of additions that succeeds does what the single additions do. -/
theorem addMany_eq_inTurn {rows : List Row}
    (made : model.addMany sec type rows = .ok (true, after)) :
    inTurn (fun model row => model.add sec type row) model rows =
      .ok (rows.map fun _ => true, after) := by
  obtain ⟨s, table, table', key, found, added, rfl⟩ := change_eq_ok_iff.mp made
  obtain rfl := RowSection.key_of_ofKey key
  have h := prepared.wellFormed.tables s type table found
  obtain ⟨new, checked, settled⟩ := Except.bind_eq_ok_iff.mp added
  cases new with
  | false => simp at settled
  | true =>
      obtain ⟨_, rfl⟩ := Prod.mk.inj (Except.ok.inj settled)
      obtain ⟨distinct, each⟩ := RowTable.allNew_eq_ok_true_iff.mp checked
      exact inTurn_change found (h.inTurn_add distinct (fun row member => (each row member).1)
        fun row member => (h.has_eq_false_iff row).mp (each row member).2.1)

theorem removeMany_eq_inTurn {rows : List Row} (distinct : rows.Nodup)
    (made : model.removeMany sec type rows = .ok (true, after)) :
    inTurn (fun model row => model.remove sec type row) model rows =
      .ok (rows.map fun _ => true, after) := by
  obtain ⟨s, table, table', key, found, removed, rfl⟩ := change_eq_ok_iff.mp made
  obtain rfl := RowSection.key_of_ofKey key
  have h := prepared.wellFormed.tables s type table found
  have settled := Except.ok.inj removed
  unfold RowTable.removeMany at settled
  split at settled
  · rename_i stored
    obtain ⟨_, rfl⟩ := Prod.mk.inj settled
    exact inTurn_change found (h.inTurn_remove distinct fun row member =>
      (h.has_iff row).mp (List.all_eq_true.mp stored row member))
  · simp at settled

/-- A batch of updates that succeeds, with no old row among the new ones, leaves the rows that the single
    updates leave, and in the same order just if they are aligned. -/
theorem updateMany_eq_inTurn_iff {old new : List Row} (apart : ∀ row ∈ new, row ∉ old)
    (made : model.updateMany sec type old new = .ok (true, after)) :
    ∃ table after', model.table sec type = .ok table ∧
      inTurn (fun model pair => model.update sec type pair.1 pair.2) model (old.zip new) =
        .ok ((old.zip new).map fun _ => true, after') ∧
      (∀ (s : RowSection) type', (after'.rows s.key type').Perm (after.rows s.key type')) ∧
      ((∀ (s : RowSection) type', after'.rows s.key type' = after.rows s.key type') ↔
        table.Aligned (old.zip new)) := by
  unfold updateMany at made
  split at made
  case isFalse => simp at made
  case isTrue paired =>
    obtain ⟨s, table, table', key, found, updated, rfl⟩ := change_eq_ok_iff.mp made
    obtain rfl := RowSection.key_of_ofKey key
    have h := prepared.wellFormed.tables s type table found
    have ordered := prepared.ordered s type table found
    obtain ⟨_, checked, settled⟩ := Except.bind_eq_ok_iff.mp updated
    have lengths := RowTable.checkArities_eq_ok_iff.mp checked
    split at settled
    case isFalse => simp at settled
    case isTrue possible =>
      obtain ⟨_, rfl⟩ := Prod.mk.inj (Except.ok.inj settled)
      have ready := h.replaceable paired possible lengths apart
      obtain ⟨same, aligned⟩ := h.updateMany_eq_iff ordered paired possible lengths apart
      refine ⟨table, _, table_eq_ok_iff.mpr ⟨s, key, found⟩,
        inTurn_change found (ready.inTurn_update h), fun s' type' => ?_, ?_⟩
      · rw [rows_setTable found, rows_setTable found]
        split
        · exact same
        · exact .refl _
      · rw [← aligned]
        constructor
        · intro everywhere
          have here := everywhere s type
          rwa [rows_setTable found, rows_setTable found, if_pos ⟨rfl, rfl⟩,
            if_pos ⟨rfl, rfl⟩] at here
        · intro here s' type'
          rw [rows_setTable found, rows_setTable found, here]

end

/-- A batch of additions that succeeds does what the single additions do, one after another, and so does
    a batch of removals of distinct rows. A batch of updates whose new rows are none of the old ones
    leaves the rows that the single updates leave. It leaves them in the same order just if the updates
    are aligned. -/
theorem batch_eq_inTurn (prepared : model.Prepared) (sec type : String) :
    (∀ rows after, model.addMany sec type rows = .ok (true, after) →
        inTurn (fun model row => model.add sec type row) model rows =
          .ok (rows.map fun _ => true, after)) ∧
      (∀ rows after, rows.Nodup → model.removeMany sec type rows = .ok (true, after) →
        inTurn (fun model row => model.remove sec type row) model rows =
          .ok (rows.map fun _ => true, after)) ∧
      ∀ old new after, (∀ row ∈ new, row ∉ old) →
        model.updateMany sec type old new = .ok (true, after) →
        ∃ table after', model.table sec type = .ok table ∧
          inTurn (fun model pair => model.update sec type pair.1 pair.2) model (old.zip new) =
            .ok ((old.zip new).map fun _ => true, after') ∧
          (∀ (s : RowSection) type',
            (after'.rows s.key type').Perm (after.rows s.key type')) ∧
          ((∀ (s : RowSection) type', after'.rows s.key type' = after.rows s.key type') ↔
            table.Aligned (old.zip new)) :=
  ⟨fun _ _ made => addMany_eq_inTurn prepared made,
    fun _ _ distinct made => removeMany_eq_inTurn prepared distinct made,
    fun _ _ _ apart made => updateMany_eq_inTurn_iff prepared apart made⟩

/-! ## Lists of names -/

/-- A model whose policy type has some fields, with rows. -/
def listing (fields : String) (rows : List Row) : Model :=
  (((Model.ofDefinitions [("p", "p", fields)]).toOption.getD {}).load (rows.map (⟨"p", ·⟩))).2

theorem prepared_listing (fields : String) (rows : List Row) : (listing fields rows).Prepared := by
  unfold listing
  exact .load _ (.ofDefinitions_getD _)

/-- The answer of a change, and the rows of the policy type after it. -/
def seen {α : Type} (outcome : Except Error (α × Model)) : Option (α × List Row) :=
  outcome.toOption.map fun outcome => (outcome.1, outcome.2.rows "p" "p")

theorem seen_eq_some_iff {α : Type} {outcome : Except Error (α × Model)} {answer : α}
    {rows : List Row} : seen outcome = some (answer, rows) ↔
      ∃ after, outcome = .ok (answer, after) ∧ after.rows "p" "p" = rows := by
  unfold seen
  simp only [Option.map_eq_some_iff, Except.toOption_eq_some_iff, Prod.exists, Prod.mk.injEq]
  constructor
  · rintro ⟨_, after, made, rfl, rfl⟩
    exact ⟨after, made, rfl⟩
  · rintro ⟨after, made, rfl⟩
    exact ⟨answer, after, made, rfl, rfl⟩

/-- Three names with priorities. -/
def rankedNames : Model := listing "sub, priority" [["alice", "1"], ["bob", "2"], ["carol", "2"]]

/-- Additions and removals may be made in a batch, and updates that give all their rows other priorities
    may be too. -/
theorem batch_eq_inTurn_rankedNames :
    (∃ after, rankedNames.addMany "p" "p" [["dave", "2"], ["erin", "0"]] = .ok (true, after) ∧
        inTurn (fun model row => model.add "p" "p" row) rankedNames [["dave", "2"], ["erin", "0"]] =
          .ok ([true, true], after)) ∧
      (∃ after, rankedNames.removeMany "p" "p" [["carol", "2"], ["alice", "1"]] = .ok (true, after) ∧
        inTurn (fun model row => model.remove "p" "p" row) rankedNames
          [["carol", "2"], ["alice", "1"]] = .ok ([true, true], after)) ∧
      seen (rankedNames.updateMany "p" "p" [["alice", "1"], ["bob", "2"]]
        [["alice", "3"], ["bob", "0"]]) =
          some (true, [["bob", "0"], ["carol", "2"], ["alice", "3"]]) ∧
      seen (inTurn (fun model pair => model.update "p" "p" pair.1 pair.2) rankedNames
        [(["alice", "1"], ["alice", "3"]), (["bob", "2"], ["bob", "0"])]) =
          some ([true, true], [["bob", "0"], ["carol", "2"], ["alice", "3"]]) := by
  have observed : seen (rankedNames.addMany "p" "p" [["dave", "2"], ["erin", "0"]]) =
        some (true, [["erin", "0"], ["alice", "1"], ["bob", "2"], ["carol", "2"], ["dave", "2"]]) ∧
      seen (rankedNames.removeMany "p" "p" [["carol", "2"], ["alice", "1"]]) =
        some (true, [["bob", "2"]]) ∧
      seen (rankedNames.updateMany "p" "p" [["alice", "1"], ["bob", "2"]]
        [["alice", "3"], ["bob", "0"]]) =
          some (true, [["bob", "0"], ["carol", "2"], ["alice", "3"]]) ∧
      (rankedNames.table "p" "p").toOption.map (fun table =>
        [(["alice", "1"], ["alice", "3"]), (["bob", "2"], ["bob", "0"])].all
          fun pair => table.movesIn pair.1 pair.2) = some true := by decide +kernel
  obtain ⟨added, removed, updated, moves⟩ := observed
  have prepared : rankedNames.Prepared := prepared_listing _ _
  obtain ⟨additions, removals, updates⟩ := batch_eq_inTurn prepared "p" "p"
  obtain ⟨afterAdditions, made, _⟩ := seen_eq_some_iff.mp added
  obtain ⟨afterRemovals, made', _⟩ := seen_eq_some_iff.mp removed
  obtain ⟨afterUpdates, made'', rows⟩ := seen_eq_some_iff.mp updated
  refine ⟨⟨afterAdditions, made, additions _ _ made⟩,
    ⟨afterRemovals, made', removals _ _ (by decide) made'⟩, updated, ?_⟩
  obtain ⟨table, afterSingles, found, singles, _, same⟩ := updates [["alice", "1"], ["bob", "2"]]
    [["alice", "3"], ["bob", "0"]] afterUpdates (by decide) made''
  rw [found] at moves
  have aligned := RowTable.aligned_of_moving (List.all_eq_true.mp (Option.some.inj moves))
  exact seen_eq_some_iff.mpr ⟨afterSingles, singles, (same.mpr aligned .policy "p").trans rows⟩

/-- A batch puts the new row behind the other one, where a single update leaves it in its place. -/
theorem updateMany_moves_row :
    (listing "sub" [["a"], ["b"]]).Prepared ∧
      seen ((listing "sub" [["a"], ["b"]]).updateMany "p" "p" [["a"]] [["c"]]) =
        some (true, [["b"], ["c"]]) ∧
      seen (inTurn (fun model pair => model.update "p" "p" pair.1 pair.2)
        (listing "sub" [["a"], ["b"]]) [(["a"], ["c"])]) = some ([true], [["c"], ["b"]]) := by
  refine ⟨prepared_listing _ _, ?_, ?_⟩
  · decide +kernel
  · decide +kernel

end AccessControl.Model
