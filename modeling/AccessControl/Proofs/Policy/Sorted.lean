import AccessControl.Proofs.Number.Order
import AccessControl.Proofs.Policy.Arrange

/-! # Rows in the order of their priorities

A table with priorities holds its rows as a stable sort leaves them: those whose priorities are numbers
first, in the order of the numbers, then all others in the order of the texts, and rows of one rank in
the order in which they came. Rows of different ranks come into one order, however they came.
-/

namespace AccessControl

/-! ## Sorting by keys -/

section

variable {α β : Type} (compare : β → β → Ordering) (key : α → β) (list : List α)

/-- Sort by keys. What has keys of one rank stays in its order. -/
def sortBy : List α := list.mergeSort fun a b => (compare (key a) (key b)).isLE

theorem sortBy_perm : (sortBy compare key list).Perm list := List.mergeSort_perm list _

variable [Std.TransCmp compare]

theorem isLE_total (a b : β) : ((compare a b).isLE || (compare b a).isLE) = true := by
  have swap : compare b a = (compare a b).swap := Std.OrientedCmp.eq_swap
  rw [swap]
  cases compare a b <;> rfl

theorem pairwise_sortBy :
    (sortBy compare key list).Pairwise fun a b => (compare (key a) (key b)).isLE = true :=
  List.pairwise_mergeSort (fun _ _ _ => Std.TransCmp.isLE_trans)
    (fun a b => isLE_total compare (key a) (key b)) list

theorem filter_sortBy {p : α → Bool} (alike : ∀ a ∈ list, ∀ b ∈ list, p a = true → p b = true →
    (compare (key a) (key b)).isLE = true) :
    (sortBy compare key list).filter p = list.filter p := by
  have ranked : (list.filter p).Pairwise fun a b => (compare (key a) (key b)).isLE = true := by
    refine List.pairwise_of_forall_mem_list fun a member b member' => ?_
    obtain ⟨stored, chosen⟩ := List.mem_filter.mp member
    obtain ⟨stored', chosen'⟩ := List.mem_filter.mp member'
    exact alike a stored b stored' chosen chosen'
  have kept := (List.sublist_mergeSort (fun _ _ _ => Std.TransCmp.isLE_trans)
    (fun a b => isLE_total compare (key a) (key b)) ranked List.filter_sublist).filter p
  simp only [List.filter_filter, Bool.and_self] at kept
  exact (kept.eq_of_length ((sortBy_perm compare key list).filter p).length_eq.symm).symm

end

theorem filter_parted {α : Type} {p part : α → Bool} {answer : Bool} (list : List α)
    (settled : ∀ a, p a = true → part a = answer) :
    (list.filter part).filter p ++ (list.filter fun a => !part a).filter p = list.filter p := by
  have inside (a : α) : (p a && part a) = (p a && answer) := by
    cases chosen : p a with
    | false => simp only [Bool.false_and]
    | true => rw [settled a chosen]
  have outside (a : α) : (p a && !part a) = (p a && !answer) := by
    cases chosen : p a with
    | false => simp only [Bool.false_and]
    | true => rw [settled a chosen]
  simp only [List.filter_filter, inside, outside]
  cases answer <;> simp

/-! ## Priorities -/

instance : Std.TransCmp Binary64.totalCompare where
  eq_swap {x y} := by
    show compare x.totalRank y.totalRank = (compare y.totalRank x.totalRank).swap
    exact Std.OrientedCmp.eq_swap
  isLE_trans {x y z} first second := by
    have first : (compare x.totalRank y.totalRank).isLE = true := first
    show (compare x.totalRank z.totalRank).isLE = true
    exact Std.TransCmp.isLE_trans first second

/-- A number before another comes first, whatever the texts that hold them. -/
theorem comparePriority_of_value_lt {a b : String} {x y : Binary64}
    (first : priorityNumber? a = some x) (second : priorityNumber? b = some y)
    (less : x.value < y.value) : comparePriority a b = .lt := by
  unfold comparePriority
  rw [first, second]
  exact Binary64.totalCompare_of_value_lt less

namespace RowTable

/-- Rows in the order of their priorities, those of one rank in the order in which they came. -/
def sorted (position : Nat) (rows : List Row) : List Row :=
  sortBy comparePriority (priorityOf position) rows

/-- Whether the priority of a row holds a number. -/
def holdsNumber (position : Nat) (row : Row) : Bool :=
  (priorityNumber? (priorityOf position row)).isSome

def numberOf (position : Nat) (row : Row) : Binary64 :=
  (priorityNumber? (priorityOf position row)).getD .zero

/-- Rows with numbers in the order of these, and then all others in the order of their texts. -/
def numbersFirst (position : Nat) (rows : List Row) : List Row :=
  sortBy Binary64.totalCompare (numberOf position) (rows.filter (holdsNumber position)) ++
    sortBy compare (priorityOf position) (rows.filter fun row => !holdsNumber position row)

section

variable {position : Nat} {row later : Row}

theorem priorityNumber?_eq_none (text : holdsNumber position row = false) :
    priorityNumber? (priorityOf position row) = none :=
  Option.isNone_iff_eq_none.mp (Option.isSome_eq_false_iff.mp text)

theorem comparePriority_of_numbers (first : holdsNumber position row = true)
    (second : holdsNumber position later = true) :
    comparePriority (priorityOf position row) (priorityOf position later) =
      (numberOf position row).totalCompare (numberOf position later) := by
  obtain ⟨x, number⟩ := Option.isSome_iff_exists.mp first
  obtain ⟨y, number'⟩ := Option.isSome_iff_exists.mp second
  unfold comparePriority numberOf
  rw [number, number']
  rfl

theorem comparePriority_of_texts (first : holdsNumber position row = false)
    (second : holdsNumber position later = false) :
    comparePriority (priorityOf position row) (priorityOf position later) =
      compare (priorityOf position row) (priorityOf position later) := by
  unfold comparePriority
  rw [priorityNumber?_eq_none first, priorityNumber?_eq_none second]

theorem comparePriority_of_mixed (first : holdsNumber position row = true)
    (second : holdsNumber position later = false) :
    comparePriority (priorityOf position row) (priorityOf position later) = .lt := by
  obtain ⟨x, number⟩ := Option.isSome_iff_exists.mp first
  unfold comparePriority
  rw [number, priorityNumber?_eq_none second]

theorem mem_texts {rows : List Row}
    (member : row ∈ rows.filter fun row => !holdsNumber position row) :
    holdsNumber position row = false := by
  simpa using (List.mem_filter.mp member).2

theorem holdsNumber_of_isLE
    (before : (comparePriority (priorityOf position row) (priorityOf position later)).isLE = true)
    (number : holdsNumber position later = true) : holdsNumber position row = true := by
  cases first : holdsNumber position row with
  | true => rfl
  | false =>
      rw [Std.OrientedCmp.gt_iff_lt.mpr (comparePriority_of_mixed number first)] at before
      cases before

end

variable {table : RowTable} {rows rows' : List Row}

/-! ## Arranging is sorting -/

section

variable {position : Nat} (found : table.priorityAt? = some position)
include found

/-- To arrange rows is to sort them by their priorities. -/
theorem arranged_eq_sorted (rows : List Row) : table.arranged rows = sorted position rows := by
  refine Agree.arranged_eq (fun row => ?_) ?_
  · refine (filter_sortBy _ _ rows fun other _ later _ first second => ?_).symm
    rw [← mayPrecede_of_some found]
    exact mayPrecede_trans (sameRank_iff.mp first).2 (sameRank_iff.mp second).1
  · unfold Lined
    simp only [mayPrecede_of_some found]
    exact pairwise_sortBy comparePriority (priorityOf position) rows

theorem holdsNumber_congr {row other : Row} (same : table.sameRank row other = true) :
    holdsNumber position row = holdsNumber position other := by
  obtain ⟨before, behind⟩ := sameRank_iff.mp same
  rw [mayPrecede_of_some found] at before behind
  exact Bool.eq_iff_iff.mpr ⟨holdsNumber_of_isLE behind, holdsNumber_of_isLE before⟩

theorem agree_numbersFirst (rows : List Row) :
    table.Agree (numbersFirst position rows) rows := by
  intro row
  have ranked {other later : Row} (first : table.sameRank row other = true)
      (second : table.sameRank row later = true) :
      (comparePriority (priorityOf position other) (priorityOf position later)).isLE = true := by
    rw [← mayPrecede_of_some found]
    exact mayPrecede_trans (sameRank_iff.mp first).2 (sameRank_iff.mp second).1
  have numbers := filter_sortBy Binary64.totalCompare (numberOf position)
    (rows.filter (holdsNumber position)) (p := table.sameRank row)
    fun other member later member' first second => by
      rw [← comparePriority_of_numbers (List.mem_filter.mp member).2 (List.mem_filter.mp member').2]
      exact ranked first second
  have texts := filter_sortBy compare (priorityOf position)
    (rows.filter fun row => !holdsNumber position row) (p := table.sameRank row)
    fun other member later member' first second => by
      rw [← comparePriority_of_texts (mem_texts member) (mem_texts member')]
      exact ranked first second
  rw [numbersFirst, List.filter_append, numbers, texts]
  exact filter_parted rows fun other same => (holdsNumber_congr found same).symm

theorem lined_numbersFirst (rows : List Row) : table.Lined (numbersFirst position rows) := by
  unfold Lined numbersFirst
  simp only [mayPrecede_of_some found]
  have holds {row : Row} (member : row ∈ sortBy Binary64.totalCompare (numberOf position)
      (rows.filter (holdsNumber position))) : holdsNumber position row = true :=
    (List.mem_filter.mp ((sortBy_perm _ _ _).mem_iff.mp member)).2
  have lacks {row : Row} (member : row ∈ sortBy compare (priorityOf position)
      (rows.filter fun row => !holdsNumber position row)) : holdsNumber position row = false :=
    mem_texts ((sortBy_perm _ _ _).mem_iff.mp member)
  refine List.pairwise_append.mpr ⟨?_, ?_, fun row member later member' => ?_⟩
  · refine (pairwise_sortBy _ _ _).imp_of_mem fun member member' before => ?_
    rwa [comparePriority_of_numbers (holds member) (holds member')]
  · refine (pairwise_sortBy _ _ _).imp_of_mem fun member member' before => ?_
    rwa [comparePriority_of_texts (lacks member) (lacks member')]
  · rw [comparePriority_of_mixed (holds member) (lacks member')]
    rfl

/-- To arrange rows is to put those with numbers first, in their order, and then all others in
    theirs. -/
theorem arranged_eq_numbersFirst (rows : List Row) :
    table.arranged rows = numbersFirst position rows :=
  (agree_numbersFirst found rows).symm.arranged_eq (lined_numbersFirst found rows)

theorem sameRank_iff_eq (row other : Row) : table.sameRank row other = true ↔
    comparePriority (priorityOf position row) (priorityOf position other) = .eq := by
  have swap : comparePriority (priorityOf position other) (priorityOf position row) =
      (comparePriority (priorityOf position row) (priorityOf position other)).swap :=
    Std.OrientedCmp.eq_swap
  rw [sameRank_iff, mayPrecede_of_some found, mayPrecede_of_some found, swap]
  cases comparePriority (priorityOf position row) (priorityOf position other) <;> simp

end

/-- New rows one after another come among those that are there as they are arranged. -/
theorem WellFormed.rows_insertAll_of_nodup (h : table.WellFormed) (ordered : table.Ordered)
    (distinct : (table.rows ++ rows).Nodup) (lengths : ∀ row ∈ rows, row.length = table.arity) :
    (table.insertAll rows).rows = table.arranged (table.rows ++ rows) := by
  have lined := ordered_iff.mp ordered
  have inserted := (Agree.refl table table.rows).insertAll h lined lengths
  rw [foldl_appendNew_of_nodup distinct] at inserted
  obtain ⟨_, shape, _⟩ := h.insertAll lengths
  exact (inserted.arranged_eq
    (shape.lined.mp (ordered_iff.mp (ordered.insertAll rows)))).symm

end RowTable

end AccessControl
