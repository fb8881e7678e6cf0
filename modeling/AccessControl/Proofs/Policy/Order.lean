import AccessControl.Proofs.Policy.Table
import Mathlib.Data.String.Basic

/-! # The order of rows

Priorities are compared by a total preorder: numbers by their ranks, other texts as texts, and the
numbers come first. For that reason a row that is put behind the last one of its rank keeps rows in
order that have been in order before, and so does every change of a table.
-/

namespace AccessControl

/-! ## Priorities -/

/-- What a priority is compared by: the number that it holds, or else the text itself. -/
def rankOf (text : String) : Binary64 ⊕ String :=
  match priorityNumber? text with
  | some number => .inl number
  | none => .inr text

def compareRanks : Binary64 ⊕ String → Binary64 ⊕ String → Ordering
  | .inl x, .inl y => x.totalCompare y
  | .inl _, .inr _ => .lt
  | .inr _, .inl _ => .gt
  | .inr a, .inr b => compare a b

theorem comparePriority_eq (a b : String) :
    comparePriority a b = compareRanks (rankOf a) (rankOf b) := by
  unfold comparePriority rankOf
  cases priorityNumber? a <;> cases priorityNumber? b <;> rfl

instance : Std.TransCmp compareRanks where
  eq_swap {a b} := by
    cases a <;> cases b
    case inl.inl x y =>
      show compare x.totalRank y.totalRank = (compare y.totalRank x.totalRank).swap
      exact Std.OrientedCmp.eq_swap
    case inr.inr x y =>
      show compare x y = (compare y x).swap
      exact Std.OrientedCmp.eq_swap
    all_goals rfl
  isLE_trans {a b c} first second := by
    cases a <;> cases b <;> cases c
    case inl.inl.inl x y z =>
      have first : (compare x.totalRank y.totalRank).isLE = true := first
      show (compare x.totalRank z.totalRank).isLE = true
      exact Std.TransCmp.isLE_trans first second
    case inr.inr.inr x y z =>
      have first : (compare x y).isLE = true := first
      show (compare x z).isLE = true
      exact Std.TransCmp.isLE_trans first second
    all_goals first | rfl | contradiction

/-- Priorities are totally preordered. -/
instance : Std.TransCmp comparePriority where
  eq_swap {a b} := by
    rw [comparePriority_eq, comparePriority_eq]
    exact Std.OrientedCmp.eq_swap
  isLE_trans {a b c} first second := by
    rw [comparePriority_eq] at first second ⊢
    exact Std.TransCmp.isLE_trans first second

namespace RowTable

/-- Texts in the order of priorities. -/
def InOrder (texts : List String) : Prop :=
  texts.Pairwise fun text later => (comparePriority text later).isLE

/-- The rows of a table stand in the order of their priorities, where it has priorities. -/
def Ordered (table : RowTable) : Prop :=
  ∀ position, table.priorityAt? = some position → InOrder (table.rows.map (priorityOf position))

/-- Whether a row stays before one that is put among others. -/
def staysBefore (position : Nat) (row other : Row) : Bool :=
  comparePriority (priorityOf position other) (priorityOf position row) != .gt

theorem staysBefore_eq (position : Nat) (row other : Row) :
    staysBefore position row other =
      (comparePriority (priorityOf position other) (priorityOf position row)).isLE := by
  unfold staysBefore
  rw [Ordering.isLE_eq_not_beq_gt]
  rfl

theorem place_eq {table : RowTable} {position : Nat} (found : table.priorityAt? = some position)
    (row : Row) (rows : List Row) :
    table.place row rows =
      rows.takeWhile (staysBefore position row) ++
        row :: rows.dropWhile (staysBefore position row) := by
  unfold place
  rw [found]
  rfl

variable {position : Nat} {rows : List Row}

theorem staysBefore_of_mem_dropWhile (ordered : InOrder (rows.map (priorityOf position)))
    {row other : Row} (member : other ∈ rows.dropWhile (staysBefore position row)) :
    staysBefore position row other = false := by
  induction rows with
  | nil => simp at member
  | cons first rest ih =>
      obtain ⟨smallest, others⟩ := List.pairwise_cons.mp ordered
      rw [List.dropWhile_cons] at member
      split at member
      · exact ih others member
      · rename_i stops
        rcases List.mem_cons.mp member with rfl | later
        · exact Bool.not_eq_true _ ▸ stops
        · have ranked := smallest _ (List.mem_map_of_mem (f := priorityOf position) later)
          rw [staysBefore_eq] at stops
          rw [staysBefore_eq, ← Bool.not_eq_true]
          intro before
          exact stops (Std.TransCmp.isLE_trans ranked before)

theorem staysBefore_of_mem_takeWhile {row other : Row}
    (member : other ∈ rows.takeWhile (staysBefore position row)) :
    staysBefore position row other = true :=
  List.all_eq_true.mp List.all_takeWhile other member

theorem InOrder.place {table : RowTable} (found : table.priorityAt? = some position)
    (ordered : InOrder (rows.map (priorityOf position))) (row : Row) :
    InOrder ((table.place row rows).map (priorityOf position)) := by
  rw [place_eq found]
  unfold InOrder at ordered ⊢
  rw [List.pairwise_map] at ordered ⊢
  have before := ordered.sublist (List.takeWhile_sublist (staysBefore position row))
  have behind := ordered.sublist (List.dropWhile_sublist (staysBefore position row))
  have split : (rows.takeWhile (staysBefore position row) ++
      rows.dropWhile (staysBefore position row)).Pairwise fun row later =>
        (comparePriority (priorityOf position row) (priorityOf position later)).isLE := by
    rwa [List.takeWhile_append_dropWhile]
  refine List.pairwise_append.mpr ⟨before, List.pairwise_cons.mpr ⟨?_, behind⟩, ?_⟩
  · intro later member
    have makesRoom := staysBefore_of_mem_dropWhile (List.pairwise_map.mpr ordered) member
    rw [staysBefore_eq, Ordering.isLE_eq_false] at makesRoom
    rw [Std.OrientedCmp.gt_iff_lt] at makesRoom
    rw [makesRoom]
    rfl
  · intro earlier member later among
    rcases List.mem_cons.mp among with rfl | among
    · exact staysBefore_eq position later earlier ▸ staysBefore_of_mem_takeWhile member
    · exact (List.pairwise_append.mp split).2.2 earlier member later among

theorem map_replace {α β : Type} [BEq α] [LawfulBEq α] (f : α → β) {old new : α}
    (same : f old = f new) (list : List α) : (list.replace old new).map f = list.map f := by
  induction list with
  | nil => rfl
  | cons first rest ih =>
      rw [List.replace_cons]
      split
      · rename_i here
        rw [List.map_cons, List.map_cons, ← same, eq_of_beq here]
      · rw [List.map_cons, List.map_cons, ih]

/-! ## Tables -/

theorem Ordered.of_sublist {table table' : RowTable} (ordered : table.Ordered)
    (fields : table'.fields = table.fields) (rows : table'.rows.Sublist table.rows) :
    table'.Ordered := by
  intro position found
  unfold priorityAt? at found
  rw [fields] at found
  exact (ordered position found).sublist (rows.map _)

theorem ordered_empty (type : String) (fields : List String) :
    Ordered { type, fields } := fun _ _ => List.Pairwise.nil

namespace Ordered

variable {table : RowTable} (ordered : table.Ordered)
include ordered

theorem insert (row : Row) : (table.insert row).2.Ordered := by
  unfold RowTable.insert
  split
  · exact ordered
  · exact fun position found => (ordered position found).place found row

theorem remove (row : Row) : (table.remove row).2.Ordered := by
  unfold RowTable.remove
  split
  · exact ordered.of_sublist rfl List.erase_sublist
  · exact ordered

theorem removeFiltered (filter : FieldFilter) : (table.removeFiltered filter).2.Ordered :=
  ordered.of_sublist rfl List.filter_sublist

theorem replace (old new : Row) : (table.replace old new).Ordered := by
  intro position found
  have found : table.priorityAt? = some position := found
  have kept := ordered position found
  unfold RowTable.replace
  simp only
  cases moves : table.movesIn old new with
  | true =>
      have without : InOrder ((table.rows.erase old).map (priorityOf position)) :=
        kept.sublist (List.erase_sublist.map _)
      exact without.place found new
  | false =>
      unfold movesIn at moves
      rw [found] at moves
      have same : priorityOf position old = priorityOf position new := by simpa using moves
      simp only [Bool.false_eq_true, if_false]
      rwa [map_replace (priorityOf position) same]

theorem insertAll (rows : List Row) : (table.insertAll rows).Ordered := by
  induction rows generalizing table with
  | nil => exact ordered
  | cons row rest ih => exact ih (ordered.insert row)

theorem removeAll (rows : List Row) : (table.removeAll rows).Ordered := by
  induction rows generalizing table with
  | nil => exact ordered
  | cons row rest ih => exact ih (ordered.remove row)

/-- Every change that succeeds keeps the rows in order. -/
theorem apply {change : RowChange} {delta? : Option RowDelta} {table' : RowTable}
    (made : table.apply change = .ok (delta?, table')) : table'.Ordered := by
  cases change with
  | add row =>
      obtain ⟨_, _, settled⟩ := Except.map_bind_ok_eq_ok_iff.mp made
      obtain ⟨_, rfl⟩ := Prod.mk.inj settled
      exact ordered.insert row
  | addMany rows =>
      obtain ⟨new, _, settled⟩ := Except.map_bind_ok_eq_ok_iff.mp made
      obtain ⟨_, rfl⟩ := Prod.mk.inj settled
      cases new with
      | false => exact ordered
      | true => exact ordered.insertAll rows
  | remove row =>
      obtain ⟨_, rfl⟩ := Prod.mk.inj (Except.ok.inj made)
      exact ordered.remove row
  | removeMany rows =>
      obtain ⟨_, rfl⟩ := Prod.mk.inj (Except.ok.inj made)
      unfold RowTable.removeMany
      split
      · exact ordered.removeAll rows
      · exact ordered
  | removeFiltered filter =>
      obtain ⟨_, rfl⟩ := Prod.mk.inj (Except.ok.inj made)
      exact ordered.removeFiltered filter
  | update old new =>
      obtain ⟨_, _, settled⟩ := Except.map_bind_ok_eq_ok_iff.mp made
      obtain ⟨_, rfl⟩ := Prod.mk.inj settled
      split
      · exact ordered
      · exact ordered.replace old new
  | updateMany old new =>
      obtain ⟨_, _, settled⟩ := Except.map_bind_ok_eq_ok_iff.mp made
      obtain ⟨_, rfl⟩ := Prod.mk.inj settled
      split
      · exact (ordered.removeAll old).insertAll new
      · exact ordered

end Ordered

theorem ordered_clear (table : RowTable) : table.clear.Ordered := fun _ _ => List.Pairwise.nil

end RowTable

end AccessControl
