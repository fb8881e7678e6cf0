import AccessControl.Proofs.Policy.Arrange

/-! # Batches beside single changes

A batch of additions or of removals that succeeds leaves the very table that the single ones leave, made
one after another. A batch of updates leaves the same rows, but all of its new rows come behind those
that are left of their rank, where a single update puts a row of the same priority in the place of the
old one. So they stand in the same order only if the rows that are updated in their places have been
the last ones of their ranks.
-/

namespace AccessControl

/-- Make changes one after another, and collect what they answer. -/
def inTurn {S α : Type} (single : S → α → Except Error (Bool × S)) :
    S → List α → Except Error (List Bool × S)
  | state, [] => .ok ([], state)
  | state, change :: rest => do
    let (answer, state) ← single state change
    let (answers, state) ← inTurn single state rest
    .ok (answer :: answers, state)

theorem inTurn_cons {S α : Type} {single : S → α → Except Error (Bool × S)} {state state' last : S}
    {change : α} {rest : List α} {answers : List Bool} {answer : Bool}
    (first : single state change = .ok (answer, state'))
    (others : inTurn single state' rest = .ok (answers, last)) :
    inTurn single state (change :: rest) = .ok (answer :: answers, last) := by
  unfold inTurn
  rw [first, Except.ok_bind]
  exact congrArg (· >>= _) others

namespace RowTable

variable {table : RowTable}

/-! ## Additions and removals -/

namespace WellFormed

theorem inTurn_add (h : table.WellFormed) {rows : List Row} (distinct : rows.Nodup)
    (lengths : ∀ row ∈ rows, row.length = table.arity) (fresh : ∀ row ∈ rows, row ∉ table.rows) :
    inTurn RowTable.add table rows = .ok (rows.map fun _ => true, table.insertAll rows) := by
  induction rows generalizing table with
  | nil => rfl
  | cons row rest ih =>
      obtain ⟨once, distinct⟩ := List.nodup_cons.mp distinct
      obtain ⟨length, lengths⟩ := List.forall_mem_cons.mp lengths
      obtain ⟨absent, fresh⟩ := List.forall_mem_cons.mp fresh
      have checked : table.checkArity row = .ok () := checkArity_eq_ok_iff.mpr length
      have inserted : table.add row = .ok (true, (table.insert row).2) := by
        unfold RowTable.add RowTable.insert
        rw [checked, (h.has_eq_false_iff row).mpr absent]
        rfl
      have shape := table.insert_shape row
      refine inTurn_cons inserted (ih (h.insert length) distinct ?_ ?_)
      · exact fun other member => (lengths other member).trans shape.arity.symm
      · intro other member stored
        rcases (h.mem_insert row other).mp stored with rfl | stored
        · exact once member
        · exact fresh other member stored

theorem inTurn_remove (h : table.WellFormed) {rows : List Row} (distinct : rows.Nodup)
    (stored : ∀ row ∈ rows, row ∈ table.rows) :
    inTurn (fun table row => .ok (table.remove row)) table rows =
      .ok (rows.map fun _ => true, table.removeAll rows) := by
  induction rows generalizing table with
  | nil => rfl
  | cons row rest ih =>
      obtain ⟨once, distinct⟩ := List.nodup_cons.mp distinct
      obtain ⟨here, stored⟩ := List.forall_mem_cons.mp stored
      have removed : table.remove row = (true, (table.remove row).2) := by
        unfold RowTable.remove
        rw [if_pos ((h.has_iff row).mpr here)]
      refine inTurn_cons (congrArg Except.ok removed) (ih (h.remove row) distinct ?_)
      intro other member
      exact (h.mem_remove row other).mpr ⟨fun same => once (same ▸ member), stored other member⟩

end WellFormed

/-! ## Updates one after another -/

/-- Stored rows and rows to come in their places, all of them distinct. -/
structure Replaceable (table : RowTable) (pairs : List (Row × Row)) : Prop where
  distinct : (pairs.map Prod.fst).Nodup
  stored : ∀ pair ∈ pairs, pair.1 ∈ table.rows
  distinct_new : (pairs.map Prod.snd).Nodup
  fresh : ∀ pair ∈ pairs, pair.2 ∉ table.rows
  lengths : ∀ pair ∈ pairs, pair.2.length = table.arity

/-- Where a batch of updates is possible, and none of its new rows is an old one, its rows are
    replaceable. -/
theorem WellFormed.replaceable (h : table.WellFormed) {old new : List Row}
    (paired : old.length = new.length) (possible : table.canUpdate old new = true)
    (lengths : ∀ row ∈ new, row.length = table.arity) (apart : ∀ row ∈ new, row ∉ old) :
    table.Replaceable (old.zip new) := by
  simp only [canUpdate, Bool.and_eq_true, decide_eq_true_eq, List.all_eq_true, Bool.or_eq_true,
    Bool.not_eq_true', List.contains_iff_mem, h.has_iff, h.has_eq_false_iff] at possible
  obtain ⟨⟨⟨distinct, stored⟩, distinct_new⟩, fresh⟩ := possible
  refine ⟨?_, fun pair member => stored _ (List.of_mem_zip member).1, ?_, fun pair member => ?_,
    fun pair member => lengths _ (List.of_mem_zip member).2⟩
  · rwa [List.map_fst_zip paired.le]
  · rwa [List.map_snd_zip paired.ge]
  · have new := (List.of_mem_zip member).2
    exact (fresh _ new).resolve_right (apart _ new)

/-- The table after updates one after another. -/
def replaceAll (table : RowTable) (pairs : List (Row × Row)) : RowTable :=
  pairs.foldl (fun table pair => table.replace pair.1 pair.2) table

theorem replaceAll_shape (table : RowTable) (pairs : List (Row × Row)) :
    SameShape table (table.replaceAll pairs) := by
  induction pairs generalizing table with
  | nil => exact .refl table
  | cons pair rest ih => exact SameShape.trans ⟨rfl, rfl⟩ (ih (table.replace pair.1 pair.2))

theorem Ordered.replaceAll (ordered : table.Ordered) (pairs : List (Row × Row)) :
    (table.replaceAll pairs).Ordered := by
  induction pairs generalizing table with
  | nil => exact ordered
  | cons pair rest ih => exact ih (ordered.replace pair.1 pair.2)

namespace Replaceable

variable {old new : Row} {rest : List (Row × Row)}

theorem wellFormed (ready : table.Replaceable ((old, new) :: rest)) (h : table.WellFormed) :
    (table.replace old new).WellFormed :=
  h.replace (ready.stored _ List.mem_cons_self) (ready.lengths _ List.mem_cons_self)
    fun stored => (ready.fresh _ List.mem_cons_self stored).elim

theorem next (ready : table.Replaceable ((old, new) :: rest)) (h : table.WellFormed) :
    (table.replace old new).Replaceable rest := by
  obtain ⟨once, distinct⟩ := List.nodup_cons.mp ready.distinct
  obtain ⟨once_new, distinct_new⟩ := List.nodup_cons.mp ready.distinct_new
  have here := ready.stored _ List.mem_cons_self
  refine ⟨distinct, fun pair member => ?_, distinct_new, fun pair member stored => ?_,
    fun pair member => ready.lengths pair (List.mem_cons_of_mem _ member)⟩
  · refine (h.mem_replace here new pair.1).mpr (.inr ⟨fun same => ?_, ?_⟩)
    · exact once (List.mem_map.mpr ⟨pair, member, same⟩)
    · exact ready.stored pair (List.mem_cons_of_mem _ member)
  · rcases (h.mem_replace here new pair.2).mp stored with same | ⟨_, stored⟩
    · exact once_new (List.mem_map.mpr ⟨pair, member, same⟩)
    · exact ready.fresh pair (List.mem_cons_of_mem _ member) stored

theorem wellFormed_replaceAll {pairs : List (Row × Row)} (ready : table.Replaceable pairs)
    (h : table.WellFormed) : (table.replaceAll pairs).WellFormed := by
  induction pairs generalizing table with
  | nil => exact h
  | cons pair rest ih => exact ih (ready.next h) (ready.wellFormed h)

theorem mem_replaceAll {pairs : List (Row × Row)} (ready : table.Replaceable pairs)
    (h : table.WellFormed) (row : Row) : row ∈ (table.replaceAll pairs).rows ↔
      row ∈ pairs.map Prod.snd ∨ row ∉ pairs.map Prod.fst ∧ row ∈ table.rows := by
  induction pairs generalizing table with
  | nil => simp [replaceAll]
  | cons pair rest ih =>
      obtain ⟨old, new⟩ := pair
      have unnamed : new ∉ rest.map Prod.fst := by
        intro named
        obtain ⟨pair, member, same⟩ := List.mem_map.mp named
        exact ready.fresh _ List.mem_cons_self (same ▸ ready.stored _ (List.mem_cons_of_mem _ member))
      refine (ih (ready.next h) (ready.wellFormed h)).trans ?_
      rw [h.mem_replace (ready.stored _ List.mem_cons_self), List.map_cons, List.map_cons,
        List.mem_cons, List.mem_cons]
      by_cases here : row = new
      · subst here
        simp [unnamed]
      · tauto

theorem inTurn_update {pairs : List (Row × Row)} (ready : table.Replaceable pairs)
    (h : table.WellFormed) :
    inTurn (fun table pair => table.update pair.1 pair.2) table pairs =
      .ok (pairs.map fun _ => true, table.replaceAll pairs) := by
  induction pairs generalizing table with
  | nil => rfl
  | cons pair rest ih =>
      obtain ⟨old, new⟩ := pair
      have present := (h.has_iff old).mpr (ready.stored _ List.mem_cons_self)
      have absent := (h.has_eq_false_iff new).mpr (ready.fresh _ List.mem_cons_self)
      have checked : table.checkArity new = .ok () :=
        checkArity_eq_ok_iff.mpr (ready.lengths _ List.mem_cons_self)
      have updated : table.update old new = .ok (true, table.replace old new) := by
        unfold RowTable.update
        rw [checked]
        simp [present, absent]
      exact inTurn_cons updated (ih (ready.next h) (ready.wellFormed h))

end Replaceable

/-! ## Where updates put rows -/

/-- The row that has come in the place of another. -/
def renamed (pairs : List (Row × Row)) (row : Row) : Row := (pairs.lookup row).getD row

theorem renamed_cons_self (old new : Row) (rest : List (Row × Row)) :
    renamed ((old, new) :: rest) old = new := by
  simp [renamed]

theorem renamed_cons_of_ne {old row : Row} (other : row ≠ old) (new : Row)
    (rest : List (Row × Row)) : renamed ((old, new) :: rest) row = renamed rest row := by
  have differ : (row == old) = false := beq_eq_false_iff_ne.mpr other
  simp [renamed, List.lookup_cons, differ]

theorem renamed_of_notMem {pairs : List (Row × Row)} {row : Row}
    (unnamed : row ∉ pairs.map Prod.fst) : renamed pairs row = row := by
  induction pairs with
  | nil => rfl
  | cons pair rest ih =>
      obtain ⟨other, later⟩ := not_or.mp (fun found => unnamed (List.mem_cons.mpr found))
      exact (renamed_cons_of_ne other pair.2 rest).trans (ih later)

theorem renamed_of_mem {pairs : List (Row × Row)} (distinct : (pairs.map Prod.fst).Nodup)
    {pair : Row × Row} (member : pair ∈ pairs) : renamed pairs pair.1 = pair.2 := by
  induction pairs with
  | nil => cases member
  | cons first rest ih =>
      obtain ⟨once, distinct⟩ := List.nodup_cons.mp distinct
      rcases List.mem_cons.mp member with rfl | member
      · exact renamed_cons_self pair.1 pair.2 rest
      · have other : pair.1 ≠ first.1 := fun same => once (same ▸ List.mem_map_of_mem member)
        exact (renamed_cons_of_ne other first.2 rest).trans (ih distinct member)

/-- The updates that give rows other priorities, so that they move. -/
def moving (table : RowTable) (pairs : List (Row × Row)) : List (Row × Row) :=
  pairs.filter fun pair => table.movesIn pair.1 pair.2

/-- The updates that are made in place. -/
def staying (table : RowTable) (pairs : List (Row × Row)) : List (Row × Row) :=
  pairs.filter fun pair => !table.movesIn pair.1 pair.2

theorem mem_fst_iff (table : RowTable) (pairs : List (Row × Row)) (row : Row) :
    row ∈ pairs.map Prod.fst ↔
      row ∈ (table.moving pairs).map Prod.fst ∨ row ∈ (table.staying pairs).map Prod.fst := by
  simp only [moving, staying, List.mem_map, List.mem_filter, Bool.not_eq_true']
  constructor
  · rintro ⟨pair, member, rfl⟩
    cases moves : table.movesIn pair.1 pair.2 with
    | true => exact .inl ⟨pair, ⟨member, moves⟩, rfl⟩
    | false => exact .inr ⟨pair, ⟨member, moves⟩, rfl⟩
  · rintro (⟨pair, ⟨member, _⟩, rfl⟩ | ⟨pair, ⟨member, _⟩, rfl⟩)
    · exact ⟨pair, member, rfl⟩
    · exact ⟨pair, member, rfl⟩

theorem replace_eq_map {rows : List Row} (distinct : rows.Nodup) (old new : Row) :
    rows.replace old new = rows.map fun row => if row = old then new else row := by
  induction rows with
  | nil => rfl
  | cons first rest ih =>
      obtain ⟨once, distinct⟩ := List.nodup_cons.mp distinct
      rw [List.map_cons]
      by_cases here : first = old
      · subst here
        have untouched : (rest.map fun row => if row = first then new else row) = rest :=
          (List.map_congr_left fun row member =>
            if_neg fun same : row = first => once (same ▸ member)).trans (List.map_id' rest)
        rw [List.replace_cons_self, if_pos rfl, untouched]
      · have differ : (old == first) = false := beq_eq_false_iff_ne.mpr (Ne.symm here)
        rw [List.replace_cons, differ, if_neg here, ih distinct]

theorem map_renamed_replace {rows moved : List Row} {old new : Row} {rest : List (Row × Row)}
    (distinct : rows.Nodup) (once : old ∉ rest.map Prod.fst) (unnamed : new ∉ rest.map Prod.fst)
    (named : moved ⊆ rest.map Prod.fst) :
    ((rows.replace old new).filter fun row => row ∉ moved).map (renamed rest) =
      (rows.filter fun row => row ∉ moved).map (renamed ((old, new) :: rest)) := by
  have old_stays : old ∉ moved := fun gone => once (named gone)
  have new_stays : new ∉ moved := fun gone => unnamed (named gone)
  rw [replace_eq_map distinct, List.filter_map, List.map_map]
  have kept : (rows.filter ((fun row => decide (row ∉ moved)) ∘
      fun row => if row = old then new else row)) = rows.filter fun row => row ∉ moved := by
    refine List.filter_congr fun row _ => ?_
    by_cases here : row = old
    · simp [here, old_stays, new_stays]
    · simp [here]
  rw [kept]
  refine List.map_congr_left fun row _ => ?_
  by_cases here : row = old
  · subst here
    simp [renamed_cons_self, renamed_of_notMem unnamed]
  · simp [here, renamed_cons_of_ne here]

theorem map_renamed_erase {rows moved : List Row} (old new : Row) (rest : List (Row × Row))
    (distinct : rows.Nodup) :
    ((rows.erase old).filter fun row => row ∉ moved).map (renamed rest) =
      (rows.filter fun row => row ∉ old :: moved).map (renamed ((old, new) :: rest)) := by
  rw [distinct.erase_eq_filter, List.filter_filter]
  have kept : (rows.filter fun row => decide (row ∉ moved) && (row != old)) =
      rows.filter fun row => row ∉ old :: moved := by
    refine List.filter_congr fun row _ => ?_
    by_cases here : row = old <;> simp [here]
  rw [kept]
  refine List.map_congr_left fun row member => ?_
  have other : row ≠ old := fun same => by simp [same] at member
  exact (renamed_cons_of_ne other new rest).symm

/-- Updates one after another leave the rows that they do not move in their places, under their new
    names. The rows that they move come behind, in the order of the updates. -/
theorem Replaceable.agree {pairs : List (Row × Row)} (ready : table.Replaceable pairs)
    (h : table.WellFormed) (lined : table.Lined table.rows) {front behind : List Row}
    (agree : table.Agree (front ++ behind) table.rows) (among : ∀ pair ∈ pairs, pair.1 ∈ front) :
    table.Agree
      ((front.filter fun row => row ∉ (table.moving pairs).map Prod.fst).map (renamed pairs) ++
        (behind ++ (table.moving pairs).map Prod.snd))
      (table.replaceAll pairs).rows := by
  -- in front are the old rows under their names so far, behind them those that have moved
  induction pairs generalizing table front behind with
  | nil =>
      have unnamed : renamed [] = id := rfl
      simpa [moving, replaceAll, unnamed] using agree
  | cons pair rest ih =>
      obtain ⟨old, new⟩ := pair
      obtain ⟨here, among⟩ : old ∈ front ∧ ∀ pair ∈ rest, pair.1 ∈ front :=
        List.forall_mem_cons.mp among
      have once : old ∉ rest.map Prod.fst := (List.nodup_cons.mp ready.distinct).1
      have distinct : front.Nodup :=
        (List.nodup_append.mp (agree.perm.nodup_iff.mpr h.nodup)).1
      have others (pair : Row × Row) (member : pair ∈ rest) : pair.1 ≠ old :=
        fun same => once (List.mem_map.mpr ⟨pair, member, same⟩)
      have shape : table.SameShape (table.replace old new) := ⟨rfl, rfl⟩
      have ordered := ordered_iff.mp ((ordered_iff.mpr lined).replace old new)
      cases moves : table.movesIn old new with
      | false =>
          have placed := agree.replace_of_stays moves
          rw [List.replace_append_left here] at placed
          have later := ih (ready.next h) (ready.wellFormed h) ordered (shape.agree.mpr placed)
            fun pair member => by
              rw [replace_eq_map distinct]
              exact List.mem_map.mpr ⟨pair.1, among pair member, if_neg (others pair member)⟩
          have unnamed : new ∉ rest.map Prod.fst := by
            intro named
            obtain ⟨pair, member, same⟩ := List.mem_map.mp named
            refine ready.fresh _ List.mem_cons_self ((agree.mem_iff new).mp ?_)
            exact List.mem_append_left _ (same ▸ among pair member)
          have named : (table.moving rest).map Prod.fst ⊆ rest.map Prod.fst :=
            List.map_subset Prod.fst List.filter_sublist.subset
          have moved : table.moving ((old, new) :: rest) = table.moving rest := by
            simp [moving, moves]
          have same : (table.replace old new).moving rest = table.moving rest := rfl
          rw [same, map_renamed_replace distinct once unnamed named] at later
          rw [moved]
          exact shape.agree.mp later
      | true =>
          have placed := agree.replace_of_moves h lined moves
          rw [List.erase_append_left _ here, List.append_assoc] at placed
          have later := ih (ready.next h) (ready.wellFormed h) ordered (shape.agree.mpr placed)
            fun pair member => (List.mem_erase_of_ne (others pair member)).mpr (among pair member)
          have moved : table.moving ((old, new) :: rest) = (old, new) :: table.moving rest := by
            simp [moving, moves]
          have same : (table.replace old new).moving rest = table.moving rest := rfl
          rw [same, map_renamed_erase old new rest distinct, List.append_assoc] at later
          rw [moved]
          exact shape.agree.mp later

/-! ## The order after a batch -/

/-- In each rank the rows that updates change in place stand last, in the order of the updates, and the
    new rows for them come before those that move into the rank. -/
structure Aligned (table : RowTable) (pairs : List (Row × Row)) : Prop where
  last : table.Agree (table.rows.diff ((table.moving pairs).map Prod.fst))
    (table.rows.diff (pairs.map Prod.fst) ++ (table.staying pairs).map Prod.fst)
  first : table.Agree (pairs.map Prod.snd)
    ((table.staying pairs).map Prod.snd ++ (table.moving pairs).map Prod.snd)

theorem aligned_of_moving {pairs : List (Row × Row)}
    (moves : ∀ pair ∈ pairs, table.movesIn pair.1 pair.2 = true) : table.Aligned pairs := by
  have all : table.moving pairs = pairs := List.filter_eq_self.mpr moves
  have none : table.staying pairs = [] :=
    List.filter_eq_nil_iff.mpr fun pair member => by simp [moves pair member]
  constructor
  · rw [all, none, List.map_nil, List.append_nil]
    exact .refl table _
  · rw [all, none]
    exact .refl table _

theorem aligned_iff_of_none (none : table.priorityAt? = none) (pairs : List (Row × Row)) :
    table.Aligned pairs ↔
      table.rows = table.rows.diff (pairs.map Prod.fst) ++ pairs.map Prod.fst := by
  have stays (pair : Row × Row) : table.movesIn pair.1 pair.2 = false := by
    unfold movesIn
    rw [none]
  have moving_none : table.moving pairs = [] :=
    List.filter_eq_nil_iff.mpr fun pair _ => by simp [stays pair]
  have staying_all : table.staying pairs = pairs :=
    List.filter_eq_self.mpr fun pair _ => by simp [stays pair]
  have agree_iff (rows rows' : List Row) : table.Agree rows rows' ↔ rows = rows' := by
    rw [← arranged_eq_iff]
    unfold arranged
    rw [none]
  constructor
  · intro aligned
    have last := (agree_iff _ _).mp aligned.last
    rwa [moving_none, staying_all, List.map_nil, List.diff_nil] at last
  · intro last
    constructor
    · rwa [agree_iff, moving_none, staying_all, List.map_nil, List.diff_nil]
    · rw [moving_none, staying_all, List.map_nil, List.append_nil]
      exact .refl table _

section

variable {among kept last moved fresh : List Row} {name : Row → Row}
  (parts : kept = among.filter fun row => row ∉ last) (same : ∀ row ∈ kept, name row = row)

include parts same

theorem exists_of_map_append_eq (apart : ∀ row ∈ last, name row ∉ kept)
    (joined : among.map name ++ moved = kept ++ fresh) :
    ∃ tail, among = kept ++ tail ∧ (∀ row ∈ tail, row ∈ last) ∧ fresh = tail.map name ++ moved := by
  obtain ⟨renamed, front, rear⟩ : ∃ renamed, among.map name = kept ++ renamed ∧
      fresh = renamed ++ moved := by
    rcases List.append_eq_append_iff.mp joined with ⟨more, front, rear⟩ | ⟨more, front, rear⟩
    · -- there are no fewer rows than those that have kept their names
      have fewer : kept.length ≤ among.length := parts ▸ List.length_filter_le _ among
      have lengths := congrArg List.length front
      rw [List.length_append, List.length_map] at lengths
      obtain rfl : more = [] := List.length_eq_zero_iff.mp (by omega)
      exact ⟨[], by simpa using front.symm, rear.symm⟩
    · exact ⟨more, front, rear⟩
  obtain ⟨head, tail, rfl, named, rfl⟩ := List.map_eq_append_iff.mp front
  have unnamed (row : Row) (member : row ∈ head) : row ∉ last := fun late =>
    apart row late (named ▸ List.mem_map_of_mem member)
  have unmoved : head.filter (fun row => row ∉ last) = head :=
    List.filter_eq_self.mpr fun row member => decide_eq_true (unnamed row member)
  rw [List.filter_append, unmoved] at parts
  have head_kept : head = kept := by
    rw [← named]
    refine ((List.map_congr_left fun row member => same row ?_).trans (List.map_id' head)).symm
    exact parts ▸ List.mem_append_left _ member
  subst head_kept
  have none := List.append_cancel_left (parts.symm.trans (List.append_nil head).symm)
  refine ⟨tail, rfl, fun row member => ?_, rear⟩
  by_contra early
  exact List.filter_eq_nil_iff.mp none row member (decide_eq_true early)

/-- Rows under new names, with others behind them, are as those that have kept their names, with the new
    ones behind them, just if those that have got new names have been the last ones, in this order. -/
theorem map_append_eq_append_iff (back : Row → Row) (apart : ∀ row ∈ last, name row ∉ kept)
    (returns : ∀ row ∈ last, back (name row) = row)
    (first : fresh.filter (fun row => row ∈ last.map name) = last.map name)
    (others : ∀ row ∈ moved, row ∉ last.map name) :
    among.map name ++ moved = kept ++ fresh ↔
      among = kept ++ last ∧ fresh = last.map name ++ moved := by
  constructor
  · intro joined
    obtain ⟨tail, rfl, late, rfl⟩ := exists_of_map_append_eq parts same apart joined
    have all : (tail.map name).filter (fun row => row ∈ last.map name) = tail.map name := by
      refine List.filter_eq_self.mpr fun row member => ?_
      obtain ⟨before, here, rfl⟩ := List.mem_map.mp member
      exact decide_eq_true (List.mem_map_of_mem (late before here))
    have none : moved.filter (fun row => row ∈ last.map name) = [] :=
      List.filter_eq_nil_iff.mpr fun row member => by simpa using others row member
    rw [List.filter_append, all, none, List.append_nil] at first
    have back_to (rows : List Row) (member : ∀ row ∈ rows, row ∈ last) :
        (rows.map name).map back = rows := by
      rw [List.map_map]
      exact (List.map_congr_left fun row here => returns row (member row here)).trans
        (List.map_id' rows)
    obtain rfl : tail = last := by
      rw [← back_to tail late, first, back_to last fun _ member => member]
    exact ⟨rfl, rfl⟩
  · rintro ⟨rfl, rfl⟩
    have steady : kept.map name = kept := (List.map_congr_left same).trans (List.map_id' kept)
    rw [List.map_append, steady, List.append_assoc]

end

namespace Replaceable

variable {pairs : List (Row × Row)} (ready : table.Replaceable pairs)
include ready

theorem renamed_fst {pair : Row × Row} (member : pair ∈ pairs) :
    renamed pairs pair.1 = pair.2 := renamed_of_mem ready.distinct member

theorem sameRank_renamed {row : Row} (stays : row ∉ (table.moving pairs).map Prod.fst) (third : Row) :
    table.sameRank third (renamed pairs row) = table.sameRank third row := by
  by_cases named : row ∈ pairs.map Prod.fst
  · obtain ⟨pair, member, rfl⟩ := List.mem_map.mp named
    rw [ready.renamed_fst member]
    refine (sameRank_congr (sameRank_of_stays ?_) third).symm
    by_contra moves
    rw [Bool.not_eq_false] at moves
    exact stays (List.mem_map_of_mem (List.mem_filter.mpr ⟨member, moves⟩))
  · rw [renamed_of_notMem named]

theorem map_renamed_staying (third : Row) :
    (((table.staying pairs).map Prod.fst).filter (table.sameRank third)).map (renamed pairs) =
      ((table.staying pairs).map Prod.snd).filter (table.sameRank third) := by
  rw [List.filter_map, List.filter_map, List.map_map]
  have ranked : (table.staying pairs).filter (table.sameRank third ∘ Prod.fst) =
      (table.staying pairs).filter (table.sameRank third ∘ Prod.snd) := by
    refine List.filter_congr fun pair member => sameRank_congr (sameRank_of_stays ?_) third
    simpa using (List.mem_filter.mp member).2
  rw [ranked]
  refine List.map_congr_left fun pair member => ready.renamed_fst ?_
  exact (List.mem_filter.mp (List.mem_filter.mp member).1).1

theorem snd_mem_staying_iff {pair : Row × Row} (member : pair ∈ pairs) :
    pair.2 ∈ (table.staying pairs).map Prod.snd ↔ table.movesIn pair.1 pair.2 = false := by
  constructor
  · intro stays
    obtain ⟨other, kept, same⟩ := List.mem_map.mp stays
    obtain ⟨member', inPlace⟩ := List.mem_filter.mp kept
    obtain rfl := List.inj_on_of_nodup_map ready.distinct_new member' member same
    exact (Bool.not_eq_true' _).mp inPlace
  · intro stays
    exact List.mem_map_of_mem (List.mem_filter.mpr ⟨member, by simpa using stays⟩)

theorem renamed_swap {pair : Row × Row} (member : pair ∈ pairs) :
    renamed (pairs.map Prod.swap) pair.2 = pair.1 := by
  have distinct : ((pairs.map Prod.swap).map Prod.fst).Nodup := by
    rw [List.map_map]
    exact ready.distinct_new
  have swapped : pair.swap ∈ pairs.map Prod.swap := List.mem_map_of_mem member
  exact renamed_of_mem distinct swapped

theorem filter_snd_staying : (pairs.map Prod.snd).filter
      (fun row => row ∈ (table.staying pairs).map Prod.snd) = (table.staying pairs).map Prod.snd := by
  rw [List.filter_map]
  refine congrArg (List.map Prod.snd) (List.filter_congr fun pair member => ?_)
  rw [Bool.eq_iff_iff, Bool.not_eq_true']
  exact decide_eq_true_iff.trans (ready.snd_mem_staying_iff member)

theorem filter_eq_iff (h : table.WellFormed) (third : Row) :
    ((table.rows.diff ((table.moving pairs).map Prod.fst)).map (renamed pairs) ++
          (table.moving pairs).map Prod.snd).filter (table.sameRank third) =
        (table.rows.diff (pairs.map Prod.fst) ++ pairs.map Prod.snd).filter (table.sameRank third) ↔
      (table.rows.diff ((table.moving pairs).map Prod.fst)).filter (table.sameRank third) =
          (table.rows.diff (pairs.map Prod.fst) ++ (table.staying pairs).map Prod.fst).filter
            (table.sameRank third) ∧
        (pairs.map Prod.snd).filter (table.sameRank third) =
          ((table.staying pairs).map Prod.snd ++ (table.moving pairs).map Prod.snd).filter
            (table.sameRank third) := by
  have renamed_rows : ((table.rows.diff ((table.moving pairs).map Prod.fst)).map
        (renamed pairs)).filter (table.sameRank third) =
      ((table.rows.diff ((table.moving pairs).map Prod.fst)).filter
        (table.sameRank third)).map (renamed pairs) := by
    rw [List.filter_map]
    refine congrArg (List.map (renamed pairs)) (List.filter_congr fun row member => ?_)
    exact ready.sameRank_renamed (h.nodup.mem_sdiff_iff.mp member).2 third
  simp only [List.filter_append, renamed_rows, ← ready.map_renamed_staying third]
  refine map_append_eq_append_iff ?_ ?_ (renamed (pairs.map Prod.swap)) ?_ ?_ ?_ ?_
  · rw [h.nodup.sdiff_eq_filter, h.nodup.sdiff_eq_filter, List.filter_filter, List.filter_filter,
      List.filter_filter]
    refine List.filter_congr fun row _ => Bool.eq_iff_iff.mpr ?_
    have updated := mem_fst_iff table pairs row
    simp only [Bool.and_eq_true, decide_eq_true_eq, List.mem_filter]
    tauto
  · intro row member
    exact renamed_of_notMem (h.nodup.mem_sdiff_iff.mp (List.mem_filter.mp member).1).2
  · intro row member stored
    obtain ⟨pair, stays, rfl⟩ := List.mem_map.mp (List.mem_filter.mp member).1
    have updated := (List.mem_filter.mp stays).1
    rw [ready.renamed_fst updated] at stored
    exact ready.fresh pair updated (h.nodup.mem_sdiff_iff.mp (List.mem_filter.mp stored).1).1
  · intro row member
    obtain ⟨pair, stays, rfl⟩ := List.mem_map.mp (List.mem_filter.mp member).1
    have updated := (List.mem_filter.mp stays).1
    rw [ready.renamed_fst updated, ready.renamed_swap updated]
  · rw [ready.map_renamed_staying third, List.filter_filter]
    conv_rhs => rw [← ready.filter_snd_staying, List.filter_filter]
    refine List.filter_congr fun row _ => Bool.eq_iff_iff.mpr ?_
    simp only [Bool.and_eq_true, decide_eq_true_eq, List.mem_filter]
    tauto
  · rw [ready.map_renamed_staying third]
    intro row member stays
    obtain ⟨pair, moves, rfl⟩ := List.mem_map.mp (List.mem_filter.mp member).1
    obtain ⟨updated, moves⟩ := List.mem_filter.mp moves
    rw [(ready.snd_mem_staying_iff updated).mp (List.mem_filter.mp stays).1] at moves
    cases moves

/-- Updates one after another leave the rows as a batch does just if they are aligned. -/
theorem agree_iff_aligned (h : table.WellFormed) :
    table.Agree
        ((table.rows.diff ((table.moving pairs).map Prod.fst)).map (renamed pairs) ++
          (table.moving pairs).map Prod.snd)
        (table.rows.diff (pairs.map Prod.fst) ++ pairs.map Prod.snd) ↔
      table.Aligned pairs := by
  constructor
  · intro agree
    exact ⟨fun third => ((ready.filter_eq_iff h third).mp (agree third)).1,
      fun third => ((ready.filter_eq_iff h third).mp (agree third)).2⟩
  · intro aligned third
    exact (ready.filter_eq_iff h third).mpr ⟨aligned.last third, aligned.first third⟩

end Replaceable

/-- A batch of updates that can be made leaves the rows that the single ones leave. It leaves them in
    the same order just if they are aligned. -/
theorem WellFormed.updateMany_eq_iff (h : table.WellFormed) (ordered : table.Ordered)
    {old new : List Row} (paired : old.length = new.length)
    (possible : table.canUpdate old new = true) (lengths : ∀ row ∈ new, row.length = table.arity)
    (apart : ∀ row ∈ new, row ∉ old) :
    (table.replaceAll (old.zip new)).rows.Perm ((table.removeAll old).insertAll new).rows ∧
      ((table.replaceAll (old.zip new)).rows = ((table.removeAll old).insertAll new).rows ↔
        table.Aligned (old.zip new)) := by
  have ready := h.replaceable paired possible lengths apart
  have olds : (old.zip new).map Prod.fst = old := List.map_fst_zip paired.le
  have news : (old.zip new).map Prod.snd = new := List.map_snd_zip paired.ge
  have lined := ordered_iff.mp ordered
  obtain ⟨cleared, shape, kept⟩ := h.removeAll old
  obtain ⟨well, shape', stored⟩ := cleared.insertAll fun row member =>
    (lengths row member).trans shape.arity.symm
  constructor
  · have well' := ready.wellFormed_replaceAll h
    refine (List.perm_ext_iff_of_nodup well'.nodup well.nodup).mpr fun row => ?_
    rw [ready.mem_replaceAll h, olds, news, stored, kept]
  · have stand : table.Agree (table.rows ++ []) table.rows := by
      rw [List.append_nil]
      exact .refl table _
    have single := ready.agree h lined stand ready.stored
    rw [← h.nodup.sdiff_eq_filter, List.nil_append] at single
    have batch := (Agree.refl table table.rows).updateMany h lined possible lengths
    have aligned := ready.agree_iff_aligned h
    rw [olds, news] at aligned
    rw [← aligned]
    constructor
    · intro same
      exact single.trans (same ▸ batch.symm)
    · intro agree
      refine (single.symm.trans (agree.trans batch)).eq_of_lined ?_ ?_
      · exact (table.replaceAll_shape _).lined.mp (ordered_iff.mp (ordered.replaceAll _))
      · exact (shape.trans shape').lined.mp
          (ordered_iff.mp ((ordered.removeAll old).insertAll new))

end RowTable

end AccessControl
