import AccessControl.Proofs.Storage.Memory

/-! # Rows that a filter picks

A filter wants texts in the fields from its first one on. Reading by a filter, removing by it and the
store that follows the removal all take the same rows, just those with the wanted texts. But they
break off where they have to look for a text whose position is no 64-bit word. That depends on the
filter alone, as long as rows and filters are short enough for words to count their texts.
-/

namespace AccessControl

theorem Model.has_of_table? {model : Model} {s : RowSection} {type : String} {table : RowTable}
    (found : model.table? s type = some table) (row : Row) :
    model.has s.key type row = table.has row := by
  have named : model.tableOrNone s.key type = some table := by
    rw [Model.tableOrNone, Model.table_eq_ok_iff.mpr ⟨s, s.ofKey_key, found⟩]
    rfl
  rw [Model.has, named]
  rfl

namespace FieldFilter

variable (filter : FieldFilter) (row : Row)

/-- Each text of the filter that is not empty stands in the row, at its distance from the first
    field. -/
def Wants : Prop :=
  ∀ k (bound : k < filter.values.length), filter.values[k] ≠ "" →
    row[filter.start.toNat + k]? = some filter.values[k]

/-- A text has its place beyond the last word, and all wanted texts before it stand in the row. -/
def BreaksOff : Prop :=
  ∃ k, (∃ bound : k < filter.values.length,
      filter.values[k] ≠ "" ∧ 2 ^ 64 ≤ filter.start.toNat + k) ∧
    ∀ j < k, ∀ bound : j < filter.values.length, filter.values[j] ≠ "" →
      row[filter.start.toNat + j]? = some filter.values[j]

/-- The first text that is not empty has its place beyond the last word. -/
def BeginsBeyond : Prop :=
  ∃ k, (∃ bound : k < filter.values.length,
      filter.values[k] ≠ "" ∧ 2 ^ 64 ≤ filter.start.toNat + k) ∧
    ∀ j < k, ∀ bound : j < filter.values.length, filter.values[j] = ""

instance : DecidablePred filter.Wants := fun _ => Nat.decidableBallLT _ _

/-- A call that tests rows breaks off if one of the tests does, and has a result otherwise. -/
def Settles {α : Type} (rows : List Row) (outcome : Option α) (holds : α → Prop) : Prop :=
  ((∃ row ∈ rows, filter.BreaksOff row) → outcome = none) ∧
    ((∀ row ∈ rows, ¬filter.BreaksOff row) → ∃ result, outcome = some result ∧ holds result)

/-- Reading and removing by a filter take the rows that it wants. -/
structure Selects : Prop where
  filtered (model : Model) (sec type : String) :
    filter.Settles (model.rows sec type) (model.filtered? sec type filter)
      (· = (model.rows sec type).filter (filter.Wants ·))
  /-- The rows that are taken are told, and of the rows and members the others stay in order. -/
  removed {model : Model} {s : RowSection} {type : String} {table : RowTable}
    (declared : model.table? s type = some table) :
    filter.Settles (model.rows s.key type) (model.removeFiltered? s.key type filter) fun outcome =>
      ∃ model', outcome = .ok ((model.rows s.key type).filter (filter.Wants ·), model') ∧
        (∀ s' type', model'.rows s'.key type' =
          if s' = s ∧ type' = type then (model.rows s.key type).filter (¬filter.Wants ·)
          else model.rows s'.key type') ∧
        ∀ row, ¬filter.BreaksOff row →
          model'.has s.key type row = (model.has s.key type row && !decide (filter.Wants row))
  dropped (store : MemoryStore) (type : String) :
    filter.Settles (store.rowsOf type) (store.removeFiltered? type filter) fun store' =>
      store'.lines = store.lines.filter fun line => ¬(line.type = type ∧ filter.Wants line.row)

variable {filter row}

/-! ## The test of a row -/

theorem exists_behind_iff {here before : Nat → Prop} :
    (∃ k, here k ∧ ∀ j < k, before j) ↔
      here 0 ∨ before 0 ∧ ∃ k, here (k + 1) ∧ ∀ j < k, before (j + 1) := by
  constructor
  · rintro ⟨_ | k, first, others⟩
    · exact .inl first
    · exact .inr ⟨others 0 k.succ_pos, k, first, fun j less => others (j + 1) (by omega)⟩
  · rintro (first | ⟨zero, k, first, others⟩)
    · exact ⟨0, first, by simp⟩
    · refine ⟨k + 1, first, ?_⟩
      rintro (_ | j) less
      · exact zero
      · exact others j (by omega)

theorem matchesFrom?_eq_none_iff {start : UInt64} {offset : Nat} {values : List String} :
    matchesFrom? row start offset values = none ↔
      ∃ k, (∃ bound : k < values.length,
          values[k] ≠ "" ∧ UInt64.size ≤ start.toNat + (k + offset)) ∧
        ∀ j < k, ∀ bound : j < values.length, values[j] ≠ "" →
          row[start.toNat + (j + offset)]? = some values[j] := by
  induction values generalizing offset with
  | nil => simp [matchesFrom?]
  | cons value rest ih =>
      have next (k : Nat) : k + 1 + offset = k + (offset + 1) := by omega
      rw [exists_behind_iff]
      simp only [List.length_cons, List.getElem_cons_zero, List.getElem_cons_succ, next,
        Nat.add_lt_add_iff_right, Nat.zero_add, Nat.zero_lt_succ, exists_const, forall_const]
      rw [← ih, matchesFrom?]
      by_cases empty : value = ""
      · simp [empty]
      · by_cases word : start.toNat + offset < UInt64.size
        · have low : ¬UInt64.size ≤ start.toNat + offset := Nat.not_le_of_lt word
          by_cases stands : row[start.toNat + offset]? = some value <;>
            simp [empty, word, low, stands]
        · have high : UInt64.size ≤ start.toNat + offset := Nat.le_of_not_lt word
          simp [empty, word, high]

theorem matchesFrom?_eq_some {start : UInt64} {offset : Nat} {values : List String} {picked : Bool}
    (ends : matchesFrom? row start offset values = some picked) :
    picked = true ↔ ∀ k (bound : k < values.length), values[k] ≠ "" →
      row[start.toNat + (k + offset)]? = some values[k] := by
  induction values generalizing offset with
  | nil =>
      obtain rfl := Option.some.inj ends
      simp
  | cons value rest ih =>
      have next (k : Nat) : k + 1 + offset = k + (offset + 1) := by omega
      rw [← Nat.and_forall_add_one]
      simp only [List.length_cons, List.getElem_cons_zero, List.getElem_cons_succ, next,
        Nat.add_lt_add_iff_right, Nat.zero_add, Nat.zero_lt_succ, forall_const]
      rw [matchesFrom?] at ends
      by_cases empty : value = ""
      · simp only [empty, String.isEmpty_iff, if_true] at ends
        simpa [empty] using ih ends
      · by_cases word : start.toNat + offset < UInt64.size
        · by_cases stands : row[start.toNat + offset]? = some value
          · simp only [String.isEmpty_iff, empty, if_false, word, if_true, stands, beq_self_eq_true]
              at ends
            simpa [empty, stands] using ih ends
          · simp [empty, word, stands] at ends
            simp [empty, stands, ← ends]
        · simp [empty, word] at ends

theorem picks?_eq_none_iff : filter.picks? row = none ↔ filter.BreaksOff row :=
  matchesFrom?_eq_none_iff

theorem picks_eq (ends : ¬filter.BreaksOff row) : filter.picks row = decide (filter.Wants row) := by
  rw [← picks?_eq_none_iff] at ends
  obtain ⟨picked, tested⟩ := Option.ne_none_iff_exists'.mp ends
  rw [picks, tested, Option.getD_some, Bool.eq_iff_iff, decide_eq_true_iff]
  exact matchesFrom?_eq_some tested

/-- If words can count the texts of a row and of a filter, the test breaks off at the first text that
    is compared, or not at all. -/
theorem breaksOff_iff (countable : row.length + filter.values.length ≤ 2 ^ 64) :
    filter.BreaksOff row ↔ filter.BeginsBeyond := by
  refine exists_congr fun k => and_congr_right fun ⟨bound, _, beyond⟩ =>
    forall_congr' fun j => forall_congr' fun before => forall_congr' fun bound' => ?_
  constructor
  · intro stands
    by_contra named
    obtain ⟨short, _⟩ := List.getElem?_eq_some_iff.mp (stands named)
    omega
  · exact fun empty named => absurd empty named

theorem not_breaksOff (fits : filter.start.toNat + filter.values.length ≤ 2 ^ 64) :
    ¬filter.BreaksOff row := by
  rintro ⟨k, ⟨bound, _, beyond⟩, _⟩
  omega

theorem not_wants (beyond : filter.BeginsBeyond) (countable : row.length ≤ 2 ^ 64) :
    ¬filter.Wants row := by
  obtain ⟨k, ⟨bound, named, far⟩, _⟩ := beyond
  intro wanted
  obtain ⟨short, _⟩ := List.getElem?_eq_some_iff.mp (wanted k bound named)
  omega

/-! ## What is taken -/

theorem settles_testing {α : Type} {rows : List Row} {result : α} {holds : α → Prop}
    (right : (∀ row ∈ rows, ¬filter.BreaksOff row) → holds result) :
    filter.Settles rows (filter.testing rows result) holds := by
  have all : (rows.all fun row => (filter.picks? row).isSome) = true ↔
      ∀ row ∈ rows, ¬filter.BreaksOff row := by
    simp only [List.all_eq_true, ← picks?_eq_none_iff, Option.isSome_iff_ne_none, ne_eq]
  unfold testing
  constructor
  · rintro ⟨row, member, breaks⟩
    exact if_neg fun none => all.mp none row member breaks
  · intro none
    exact ⟨result, if_pos (all.mpr none), right none⟩

/-- Where no test breaks off, a filter selects the rows that it wants. -/
theorem selects (filter : FieldFilter) : filter.Selects where
  filtered model sec type := settles_testing fun ends => by
    unfold Model.filtered Model.rows at *
    cases found : model.tableOrNone sec type with
    | none => rfl
    | some table =>
        rw [found] at ends
        exact List.filter_congr fun row member => picks_eq (ends row member)
  removed {model s type table} declared := settles_testing fun ends => by
    rw [Model.rows_of_table? declared] at ends ⊢
    have taken : table.filtered filter = table.rows.filter (filter.Wants ·) :=
      List.filter_congr fun row member => picks_eq (ends row member)
    have kept : table.rows.filter (fun row => !filter.picks row) =
        table.rows.filter (¬filter.Wants ·) :=
      List.filter_congr fun row member => by rw [picks_eq (ends row member), decide_not]
    have placed : (model.setTable s type (table.removeFiltered filter).2).table? s type =
        some (table.removeFiltered filter).2 := by
      rw [Model.table?_setTable, if_pos ⟨rfl, rfl⟩, declared]
      rfl
    refine ⟨model.setTable s type (table.removeFiltered filter).2, ?_, fun s' type' => ?_,
      fun row ends => ?_⟩
    · rw [← taken]
      exact Model.change_eq_ok_iff.mpr ⟨s, table, _, s.ofKey_key, declared, rfl, rfl⟩
    · rw [Model.rows_setTable declared, ← kept]
      rfl
    · rw [Model.has_of_table? placed, Model.has_of_table? declared, ← picks_eq ends]
      unfold RowTable.has RowTable.removeFiltered
      rw [Bool.eq_iff_iff]
      simp
  dropped store type := settles_testing fun ends => by
    unfold MemoryStore.removeFiltered
    refine List.filter_congr fun line member => ?_
    by_cases here : line.type = type
    · rw [picks_eq (ends line.row (PolicyLine.mem_rowsOf.mpr (here ▸ member)))]
      simp [here]
    · simp [here]

/-- Reading, removing and the store that follows take just the rows that a filter wants, or break off:
    all alike if the first text that is not empty has its place beyond the last word, where no row is
    wanted, and never otherwise. -/
theorem selects_wanted (filter : FieldFilter) :
    filter.Selects ∧ ∀ row : Row, row.length + filter.values.length ≤ 2 ^ 64 →
      (filter.BreaksOff row ↔ filter.BeginsBeyond) ∧ (filter.BeginsBeyond → ¬filter.Wants row) :=
  ⟨selects filter, fun _ countable =>
    ⟨breaksOff_iff countable, fun beyond => not_wants beyond (by omega)⟩⟩

/-- All that a reader may do. -/
def ofReader : FieldFilter := ⟨0, ["alice", "", "read"]⟩

/-- Alice may read by the lamp and open the door. -/
def aliceAtHome : Model where
  policies :=
    let rows := [["alice", "lamp", "read"], ["alice", "door", "open"]]
    [("p", ⟨"sub, obj, act", ⟨"p", ["sub", "obj", "act"], rows, rows⟩⟩)]

theorem selects_wanted_ofReader :
    aliceAtHome.filtered? "p" "p" ofReader = some [["alice", "lamp", "read"]] := by
  obtain ⟨_, read, rfl⟩ := ((selects_wanted ofReader).1.filtered aliceAtHome "p" "p").2 fun _ _ =>
    not_breaksOff (by decide)
  exact read

/-- The text at hand, but wanted one field behind the last that a word can number. -/
def pastTheLast : FieldFilter := ⟨18446744073709551615, ["", "alice"]⟩

def aliceAlone : Model where
  policies := [("p", ⟨"sub", ⟨"p", ["sub"], [["alice"]], [["alice"]]⟩⟩)]

/-- No row is wanted, and yet reading and removing break off, and so does the store. -/
theorem pastTheLast_breaks_off :
    (Model.ofDefinitions [("p", "p", "sub")] >>= fun model => model.add "p" "p" ["alice"]) =
      .ok (true, aliceAlone) ∧
    ¬pastTheLast.Wants ["alice"] ∧
    aliceAlone.filtered? "p" "p" pastTheLast = none ∧
    (aliceAlone.removeFiltered? "p" "p" pastTheLast).isNone ∧
    MemoryStore.removeFiltered? ⟨[⟨"p", ["alice"]⟩]⟩ "p" pastTheLast = none :=
  ⟨rfl, by decide, rfl, rfl, rfl⟩

end FieldFilter

end AccessControl
