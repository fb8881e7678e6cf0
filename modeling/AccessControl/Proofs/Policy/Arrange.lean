import AccessControl.Proofs.Policy.Order
import Mathlib.Data.List.Induction
import Mathlib.Data.List.Sort

/-! # The arrangement of rows

A table keeps its rows in the order of their priorities, and those of one rank in the order in which
they came. So where its rows stand is settled by the rows of each rank alone: lists of rows that
agree in every rank are arranged alike, and a table that has been told of rows one after another
holds them arranged.
-/

namespace AccessControl.RowTable

/-- Whether the priority of a row lets it stand before another. Without priorities every row may. -/
def mayPrecede (table : RowTable) (row later : Row) : Bool :=
  match table.priorityAt? with
  | none => true
  | some position =>
    (comparePriority (priorityOf position row) (priorityOf position later)).isLE

/-- Rows that come one after another, as a table keeps them: sorted by their priorities where it has
    any, rows of one rank in the order in which they came. -/
def arranged (table : RowTable) (rows : List Row) : List Row :=
  match table.priorityAt? with
  | none => rows
  | some _ => rows.insertionSort fun row later => table.mayPrecede row later

/-- Whether two rows have the same rank. -/
def sameRank (table : RowTable) (row other : Row) : Bool :=
  table.mayPrecede row other && table.mayPrecede other row

/-- Two lists of rows have the same rows of each rank, in the same order. -/
def Agree (table : RowTable) (rows rows' : List Row) : Prop :=
  ∀ row, rows.filter (table.sameRank row) = rows'.filter (table.sameRank row)

/-- Rows that stand as their priorities let them. -/
def Lined (table : RowTable) (rows : List Row) : Prop :=
  rows.Pairwise fun row later => table.mayPrecede row later

/-! ## Ranks -/

section

variable (table : RowTable)

theorem mayPrecede_of_none {table : RowTable} (none : table.priorityAt? = none) (row later : Row) :
    table.mayPrecede row later = true := by
  unfold mayPrecede
  rw [none]

theorem mayPrecede_of_some {table : RowTable} {position : Nat}
    (found : table.priorityAt? = some position) (row later : Row) :
    table.mayPrecede row later =
      (comparePriority (priorityOf position row) (priorityOf position later)).isLE := by
  unfold mayPrecede
  rw [found]

instance : IsTrans Row fun row later => table.mayPrecede row later = true where
  trans row other later first second := by
    cases found : table.priorityAt? with
    | none => exact mayPrecede_of_none found row later
    | some position =>
        rw [mayPrecede_of_some found] at first second ⊢
        exact Std.TransCmp.isLE_trans first second

instance : Std.Total fun row later : Row => table.mayPrecede row later = true where
  total row later := by
    cases found : table.priorityAt? with
    | none => exact .inl (mayPrecede_of_none found row later)
    | some position =>
        rw [mayPrecede_of_some found, mayPrecede_of_some found]
        cases ranked : comparePriority (priorityOf position row) (priorityOf position later) with
        | lt | eq => exact .inl rfl
        | gt =>
            rw [Std.OrientedCmp.gt_iff_lt] at ranked
            rw [ranked]
            exact .inr rfl

theorem mayPrecede_trans {table : RowTable} {row other later : Row}
    (first : table.mayPrecede row other = true) (second : table.mayPrecede other later = true) :
    table.mayPrecede row later = true :=
  IsTrans.trans (r := fun row later => table.mayPrecede row later = true) row other later first second

theorem mayPrecede_total (row later : Row) :
    table.mayPrecede row later = true ∨ table.mayPrecede later row = true :=
  Std.Total.total (r := fun row later => table.mayPrecede row later = true) row later

@[simp]
theorem mayPrecede_self (row : Row) : table.mayPrecede row row = true :=
  (table.mayPrecede_total row row).elim id id

theorem sameRank_iff {table : RowTable} {row other : Row} : table.sameRank row other = true ↔
    table.mayPrecede row other = true ∧ table.mayPrecede other row = true := by
  unfold sameRank
  exact Bool.and_eq_true_iff

@[simp]
theorem sameRank_self (row : Row) : table.sameRank row row = true :=
  sameRank_iff.mpr ⟨table.mayPrecede_self row, table.mayPrecede_self row⟩

theorem sameRank_congr {table : RowTable} {row other : Row} (same : table.sameRank row other = true)
    (third : Row) : table.sameRank third row = table.sameRank third other := by
  obtain ⟨before, behind⟩ := sameRank_iff.mp same
  rw [Bool.eq_iff_iff, sameRank_iff, sameRank_iff]
  exact ⟨fun ⟨first, second⟩ => ⟨mayPrecede_trans first before, mayPrecede_trans behind second⟩,
    fun ⟨first, second⟩ => ⟨mayPrecede_trans first behind, mayPrecede_trans before second⟩⟩

end

variable {table : RowTable} {rows rows' rows'' : List Row}

theorem SameShape.mayPrecede {table' : RowTable} (shape : SameShape table table') :
    table'.mayPrecede = table.mayPrecede := by
  unfold RowTable.mayPrecede priorityAt?
  rw [shape.2]

theorem SameShape.agree {table' : RowTable} (shape : SameShape table table') :
    table'.Agree rows rows' ↔ table.Agree rows rows' := by
  unfold Agree sameRank
  rw [shape.mayPrecede]

theorem SameShape.lined {table' : RowTable} (shape : SameShape table table') :
    table'.Lined rows ↔ table.Lined rows := by
  unfold Lined
  rw [shape.mayPrecede]

theorem SameShape.arranged {table' : RowTable} (shape : SameShape table table') :
    table'.arranged = table.arranged := by
  funext rows
  unfold RowTable.arranged
  rw [shape.mayPrecede]
  unfold priorityAt?
  rw [shape.2]

theorem ordered_iff : table.Ordered ↔ table.Lined table.rows := by
  unfold Ordered Lined
  cases found : table.priorityAt? with
  | none => simp [mayPrecede_of_none found, List.pairwise_of_forall]
  | some position => simp [mayPrecede_of_some found, InOrder, List.pairwise_map]

/-! ## Lists that agree -/

namespace Agree

theorem refl (table : RowTable) (rows : List Row) : table.Agree rows rows := fun _ => rfl

theorem symm (agree : table.Agree rows rows') : table.Agree rows' rows := fun row => (agree row).symm

theorem trans (agree : table.Agree rows rows') (agree' : table.Agree rows' rows'') :
    table.Agree rows rows'' := fun row => (agree row).trans (agree' row)

theorem mem_iff (agree : table.Agree rows rows') (row : Row) : row ∈ rows ↔ row ∈ rows' := by
  have ranked := congrArg (row ∈ ·) (agree row)
  simpa using ranked

theorem append (agree : table.Agree rows rows') (more : List Row) :
    table.Agree (rows ++ more) (rows' ++ more) := by
  intro row
  rw [List.filter_append, List.filter_append, agree row]

theorem append_left (agree : table.Agree rows rows') (more : List Row) :
    table.Agree (more ++ rows) (more ++ rows') := by
  intro row
  rw [List.filter_append, List.filter_append, agree row]

theorem filter (agree : table.Agree rows rows') (kept : Row → Bool) :
    table.Agree (rows.filter kept) (rows'.filter kept) := by
  intro row
  rw [List.filter_comm, agree row, List.filter_comm]

theorem perm (agree : table.Agree rows rows') : rows.Perm rows' := by
  refine List.perm_iff_count.mpr fun row => ?_
  have counted (rows : List Row) :
      (rows.filter (table.sameRank row)).count row = rows.count row :=
    List.count_filter (table.sameRank_self row)
  rw [← counted rows, ← counted rows', agree row]

/-- Rows of different ranks are settled by their ranks, whatever their order. -/
theorem of_perm (perm : rows.Perm rows')
    (apart : rows.Pairwise fun row other => table.sameRank row other = false) :
    table.Agree rows rows' := by
  intro row
  have ranked := perm.filter (table.sameRank row)
  have apart := apart.sublist (List.filter_sublist (p := table.sameRank row))
  match found : rows.filter (table.sameRank row) with
  | [] =>
      rw [found] at ranked
      exact (List.nil_perm.mp ranked).symm
  | [single] =>
      rw [found] at ranked
      exact (List.singleton_perm.mp ranked)
  | first :: second :: others =>
      -- two rows of one rank, which are not of different ranks
      obtain ⟨_, before⟩ := List.mem_filter.mp (found ▸ List.mem_cons_self : first ∈ _)
      obtain ⟨_, behind⟩ := List.mem_filter.mp
        (found ▸ List.mem_cons_of_mem first List.mem_cons_self : second ∈ _)
      have same : table.sameRank first second = true :=
        sameRank_iff.mpr
          ⟨mayPrecede_trans (sameRank_iff.mp before).2 (sameRank_iff.mp behind).1,
            mayPrecede_trans (sameRank_iff.mp behind).2 (sameRank_iff.mp before).1⟩
      rw [found] at apart
      have differ := (List.pairwise_cons.mp apart).1 second List.mem_cons_self
      rw [same] at differ
      cases differ

theorem erase (agree : table.Agree rows rows') (distinct : rows.Nodup) (row : Row) :
    table.Agree (rows.erase row) (rows'.erase row) := by
  rw [distinct.erase_eq_filter, (agree.perm.nodup_iff.mp distinct).erase_eq_filter]
  exact agree.filter _

theorem filter_replace {old new : Row} (same : table.sameRank old new = true) (row : Row)
    (rows : List Row) : (rows.replace old new).filter (table.sameRank row) =
      (rows.filter (table.sameRank row)).replace old new := by
  induction rows with
  | nil => rfl
  | cons first rest ih =>
      have ranked := sameRank_congr same row
      by_cases here : first = old
      · subst here
        rw [List.replace_cons_self]
        cases kept : table.sameRank row first <;> simp [← ranked, kept]
      · have differ : (old == first) = false := beq_eq_false_iff_ne.mpr (Ne.symm here)
        cases kept : table.sameRank row first <;> simp [List.replace_cons, differ, kept, ih]

theorem replace (agree : table.Agree rows rows') {old new : Row}
    (same : table.sameRank old new = true) :
    table.Agree (rows.replace old new) (rows'.replace old new) := by
  intro row
  rw [filter_replace same, filter_replace same, agree row]

theorem cons_inv {row : Row} (agree : table.Agree (row :: rows) (row :: rows')) :
    table.Agree rows rows' := by
  intro other
  have ranked := agree other
  rw [List.filter_cons, List.filter_cons] at ranked
  split at ranked
  · exact (List.cons.inj ranked).2
  · exact ranked

/-- Rows that stand in order are settled by the rows of each rank. -/
theorem eq_of_lined (agree : table.Agree rows rows') (lined : table.Lined rows)
    (lined' : table.Lined rows') : rows = rows' := by
  induction rows generalizing rows' with
  | nil => exact (List.Perm.nil_eq agree.perm)
  | cons first rest ih =>
      cases rows' with
      | nil => exact (List.Perm.eq_nil agree.perm)
      | cons first' rest' =>
          obtain ⟨least, others⟩ := List.pairwise_cons.mp lined
          obtain ⟨least', others'⟩ := List.pairwise_cons.mp lined'
          -- each head is among the other rows, so they have the same rank
          have before : table.mayPrecede first first' = true := by
            rcases List.mem_cons.mp ((agree.mem_iff first').mpr List.mem_cons_self) with rfl | later
            · exact table.mayPrecede_self _
            · exact least first' later
          have behind : table.mayPrecede first' first = true := by
            rcases List.mem_cons.mp ((agree.mem_iff first).mp List.mem_cons_self) with rfl | later
            · exact table.mayPrecede_self _
            · exact least' first later
          have ranked := agree first
          rw [List.filter_cons_of_pos (table.sameRank_self first),
            List.filter_cons_of_pos (sameRank_iff.mpr ⟨before, behind⟩)] at ranked
          obtain ⟨rfl, _⟩ := List.cons.inj ranked
          rw [ih agree.cons_inv others others']

end Agree

/-! ## Arranging -/

theorem lined_arranged (table : RowTable) (rows : List Row) : table.Lined (table.arranged rows) := by
  unfold Lined arranged
  cases found : table.priorityAt? with
  | none => exact List.pairwise_of_forall fun row later => mayPrecede_of_none found row later
  | some position => exact List.pairwise_insertionSort _ rows

theorem agree_arranged (table : RowTable) (rows : List Row) :
    table.Agree (table.arranged rows) rows := by
  unfold arranged
  cases found : table.priorityAt? with
  | none => exact .refl table rows
  | some position =>
      intro row
      have ranked : (rows.filter (table.sameRank row)).Pairwise
          fun row later => table.mayPrecede row later := by
        refine List.pairwise_of_forall_mem_list fun other member later member' => ?_
        obtain ⟨_, before⟩ := sameRank_iff.mp (List.mem_filter.mp member).2
        obtain ⟨behind, _⟩ := sameRank_iff.mp (List.mem_filter.mp member').2
        exact mayPrecede_trans before behind
      have kept := (List.sublist_insertionSort ranked List.filter_sublist).filter
        (table.sameRank row)
      simp only [List.filter_filter, Bool.and_self] at kept
      have sorted := (List.perm_insertionSort
        (fun row later => table.mayPrecede row later) rows).filter (table.sameRank row)
      exact (kept.eq_of_length sorted.length_eq.symm).symm

theorem arranged_eq_iff : table.arranged rows = table.arranged rows' ↔ table.Agree rows rows' := by
  constructor
  · intro same
    exact (table.agree_arranged rows).symm.trans (same ▸ table.agree_arranged rows')
  · intro agree
    have arranged := (table.agree_arranged rows).trans (agree.trans (table.agree_arranged rows').symm)
    exact arranged.eq_of_lined (table.lined_arranged rows) (table.lined_arranged rows')

theorem Agree.arranged_eq (agree : table.Agree rows rows') (lined : table.Lined rows') :
    table.arranged rows = rows' :=
  ((table.agree_arranged rows).trans agree).eq_of_lined (table.lined_arranged rows) lined

/-! ## Placing -/

theorem lined_iff_inOrder {position : Nat} (found : table.priorityAt? = some position) :
    table.Lined rows ↔ InOrder (rows.map (priorityOf position)) := by
  unfold Lined InOrder
  rw [List.pairwise_map]
  simp only [mayPrecede_of_some found]

theorem Lined.agree_place (lined : table.Lined rows) (row : Row) :
    table.Agree (rows ++ [row]) (table.place row rows) := by
  cases found : table.priorityAt? with
  | none =>
      unfold RowTable.place
      rw [found]
      exact .refl table _
  | some position =>
      rw [place_eq found]
      intro other
      have parts := congrArg (List.filter (table.sameRank other))
        (List.takeWhile_append_dropWhile (p := staysBefore position row) (l := rows))
      rw [List.filter_append] at parts
      rw [List.filter_append, List.filter_append, ← parts, List.filter_cons, List.filter_cons]
      split
      · rename_i ranked
        have behind : (rows.dropWhile (staysBefore position row)).filter (table.sameRank other) =
            [] := by
          refine List.filter_eq_nil_iff.mpr fun later member same => ?_
          have makesRoom := staysBefore_of_mem_dropWhile ((lined_iff_inOrder found).mp lined) member
          rw [staysBefore_eq, ← mayPrecede_of_some found] at makesRoom
          have before := mayPrecede_trans (sameRank_iff.mp same).2 (sameRank_iff.mp ranked).1
          rw [before] at makesRoom
          cases makesRoom
        rw [behind, List.filter_nil, List.append_nil]
      · simp

/-! ## Changes of a table -/

/-- Rows after one has been told: a row that is there counts for nothing. -/
def appendNew (stored : List Row) (row : Row) : List Row :=
  if row ∈ stored then stored else stored ++ [row]

/-- Of rows that come more than once, only the first one counts. -/
theorem foldl_appendNew (rows : List Row) : rows.foldl appendNew [] = rows.eraseDups := by
  induction rows using List.reverseRecOn with
  | nil => rfl
  | append_singleton rows row ih =>
      rw [List.foldl_append, ih, List.eraseDups_append]
      by_cases present : row ∈ rows
      · simp [appendNew, List.removeAll, present]
      · simp [appendNew, List.removeAll, present, List.eraseDups_cons]

theorem foldl_appendNew_of_nodup {stored rows : List Row} (distinct : (stored ++ rows).Nodup) :
    rows.foldl appendNew stored = stored ++ rows := by
  induction rows generalizing stored with
  | nil => simp
  | cons row rest ih =>
      rw [List.append_cons] at distinct
      have fresh : row ∉ stored := by
        have front := (List.nodup_append.mp (List.nodup_append.mp distinct).1).2.2
        exact fun here => front row here row (List.mem_singleton_self row) rfl
      rw [List.foldl_cons, appendNew, if_neg fresh, ih distinct, List.append_cons stored row rest]

theorem sameRank_of_stays {old new : Row} (stays : table.movesIn old new = false) :
    table.sameRank old new = true := by
  rw [sameRank_iff]
  unfold movesIn at stays
  cases found : table.priorityAt? with
  | none => exact ⟨mayPrecede_of_none found old new, mayPrecede_of_none found new old⟩
  | some position =>
      rw [found] at stays
      have same : priorityOf position old = priorityOf position new := by simpa using stays
      rw [mayPrecede_of_some found, mayPrecede_of_some found, same]
      exact ⟨Std.ReflCmp.isLE_rfl, Std.ReflCmp.isLE_rfl⟩

namespace Agree

variable {stored : List Row} (agree : table.Agree stored table.rows)
include agree

theorem replace_of_stays {old new : Row} (stays : table.movesIn old new = false) :
    table.Agree (stored.replace old new) (table.replace old new).rows := by
  unfold RowTable.replace
  rw [stays]
  exact agree.replace (sameRank_of_stays stays)

variable (h : table.WellFormed)
include h

theorem remove (row : Row) : table.Agree (stored.erase row) (table.remove row).2.rows := by
  unfold RowTable.remove
  by_cases present : row ∈ table.rows
  · rw [if_pos ((h.has_iff row).mpr present)]
    exact agree.erase (agree.perm.nodup_iff.mpr h.nodup) row
  · have absent : ¬table.has row = true := fun has => present ((h.has_iff row).mp has)
    rw [if_neg absent, List.erase_of_not_mem fun here => present ((agree.mem_iff row).mp here)]
    exact agree

theorem removeAll (rows : List Row) :
    table.Agree (rows.foldl List.erase stored) (table.removeAll rows).rows := by
  induction rows generalizing table stored with
  | nil => exact agree
  | cons row rest ih =>
      have shape := table.remove_shape row
      exact shape.agree.mp (ih (shape.agree.mpr (agree.remove h row)) (h.remove row))

variable (lined : table.Lined table.rows)
include lined

theorem insert (row : Row) :
    table.Agree (appendNew stored row) (table.insert row).2.rows := by
  unfold appendNew RowTable.insert
  by_cases present : row ∈ stored
  · have has := (h.has_iff row).mpr ((agree.mem_iff row).mp present)
    rw [if_pos present, if_pos has]
    exact agree
  · have absent : ¬table.has row = true := fun has =>
      present ((agree.mem_iff row).mpr ((h.has_iff row).mp has))
    rw [if_neg present, if_neg absent]
    exact (agree.append [row]).trans (lined.agree_place row)

theorem insertAll {rows : List Row} (lengths : ∀ row ∈ rows, row.length = table.arity) :
    table.Agree (rows.foldl appendNew stored) (table.insertAll rows).rows := by
  induction rows generalizing table stored with
  | nil => exact agree
  | cons row rest ih =>
      obtain ⟨here, others⟩ := List.forall_mem_cons.mp lengths
      have shape := table.insert_shape row
      have inserted := ih (shape.agree.mpr (agree.insert h lined row)) (h.insert here)
        (ordered_iff.mp ((ordered_iff.mpr lined).insert row))
        fun other member => (others other member).trans shape.arity.symm
      exact shape.agree.mp inserted

theorem replace_of_moves {old new : Row} (moves : table.movesIn old new = true) :
    table.Agree (stored.erase old ++ [new]) (table.replace old new).rows := by
  unfold RowTable.replace
  rw [moves, if_pos rfl]
  have without : table.Lined (table.rows.erase old) := lined.sublist List.erase_sublist
  exact ((agree.erase (agree.perm.nodup_iff.mpr h.nodup) old).append [new]).trans
    (without.agree_place new)

/-- Rows that come in place of others come behind all that stay. -/
theorem updateMany {old new : List Row} (possible : table.canUpdate old new = true)
    (lengths : ∀ row ∈ new, row.length = table.arity) :
    table.Agree (stored.diff old ++ new) ((table.removeAll old).insertAll new).rows := by
  simp only [canUpdate, Bool.and_eq_true, decide_eq_true_eq, List.all_eq_true] at possible
  obtain ⟨⟨_, distinct⟩, fresh⟩ := possible
  obtain ⟨cleared, shape, _⟩ := h.removeAll old
  have removed := agree.removeAll h old
  have inserted := (shape.agree.mpr removed).insertAll cleared
    (ordered_iff.mp ((ordered_iff.mpr lined).removeAll old))
    fun row member => (lengths row member).trans shape.arity.symm
  have once : stored.Nodup := agree.perm.nodup_iff.mpr h.nodup
  have stays : (stored.diff old).Nodup := once.sublist (List.diff_sublist stored old)
  have apart : List.Disjoint (stored.diff old) new := by
    intro row here there
    obtain ⟨present, kept⟩ := once.mem_sdiff_iff.mp here
    have has := (h.has_iff row).mpr ((agree.mem_iff row).mp present)
    simpa [has, kept] using fresh row there
  rw [← List.diff_eq_foldl, foldl_appendNew_of_nodup (stays.append distinct apart)] at inserted
  exact shape.agree.mp inserted

end Agree

/-- A table without rows holds the rows that it is told of arranged, each once. -/
theorem WellFormed.rows_insertAll (h : table.WellFormed) (empty : table.rows = [])
    {rows : List Row} (lengths : ∀ row ∈ rows, row.length = table.arity) :
    (table.insertAll rows).rows = table.arranged rows.eraseDups := by
  have lined : table.Lined table.rows := by
    rw [empty]
    exact List.Pairwise.nil
  have told : table.Agree [] table.rows := empty ▸ .refl table []
  have inserted := told.insertAll h lined lengths
  obtain ⟨_, shape, _⟩ := h.insertAll lengths
  have ordered := shape.lined.mp (ordered_iff.mp ((ordered_iff.mpr lined).insertAll rows))
  rw [← foldl_appendNew]
  exact (inserted.arranged_eq ordered).symm

end AccessControl.RowTable
