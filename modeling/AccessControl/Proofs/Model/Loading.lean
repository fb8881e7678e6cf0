import AccessControl.Proofs.Model.Intact
import AccessControl.Proofs.Model.Named
import AccessControl.Proofs.Policy.Arrange

/-! # Loading lines

A model admits a line if the type of the line is declared and the line has its length. Lines that
are admitted are all loaded, and fill tables without rows with the first occurrence of each line. The
lines of a model itself are admitted, and bring back just the rows that they came from.
-/

namespace AccessControl.Model

open PolicyLine

/-- A line is of a declared type and has the length that this declares. -/
def Admits (model : Model) (line : PolicyLine) : Prop :=
  ∃ s table, model.table? s line.type = some table ∧ line.row.length = table.arity

/-- No type has rows. -/
def Rowless (model : Model) : Prop :=
  ∀ s type table, model.table? s type = some table → table.rows = []

variable {model : Model} {lines : List PolicyLine}

theorem rowless_clear (model : Model) : model.clear.Rowless := by
  intro s type table found
  rw [table?_clear] at found
  obtain ⟨before, _, rfl⟩ := Option.map_eq_some_iff.mp found
  rfl

/-! ## Lines that are admitted -/

/-- The check of lines passes those that are admitted, and no others. -/
theorem Named.checkLines_eq_ok_iff (named : model.Named) {u : Unit} :
    model.checkLines lines = .ok u ↔ ∀ line ∈ lines, model.Admits line := by
  induction lines with
  | nil => simp [checkLines]
  | cons line rest ih =>
      simp only [checkLines, Model.checkArities, Except.bind_eq_ok_iff, table_eq_ok_iff,
        RowTable.checkArities_eq_ok_iff, List.forall_mem_singleton, ih, List.forall_mem_cons]
      constructor
      · rintro ⟨s, _, _, ⟨table, ⟨s', _, found⟩, length⟩, others⟩
        exact ⟨⟨s', table, found, length⟩, others⟩
      · rintro ⟨⟨s, table, found, length⟩, others⟩
        have lettered : line.section = .ok s.toSection := by
          unfold PolicyLine.section
          rw [named.letter s line.type table found]
          cases s <;> rfl
        exact ⟨s.toSection, lettered, (), ⟨table, ⟨s, s.ofKey_key, found⟩, length⟩, others⟩

theorem Named.mem_lines_iff (named : model.Named) (line : PolicyLine) :
    line ∈ model.lines ↔
      ∃ s table, model.table? s line.type = some table ∧ line.row ∈ table.rows := by
  have among : line ∈ model.lines ↔ line.row ∈ rowsOf line.type model.lines := mem_rowsOf.symm
  rw [among]
  constructor
  · intro member
    rw [named.rowsOf_lines_eq, List.mem_append] at member
    rcases member with member | member
    · cases found : model.table? .policy line.type with
      | none => simp [found] at member
      | some table => exact ⟨.policy, table, found, by simpa [found] using member⟩
    · cases found : model.table? .role line.type with
      | none => simp [found] at member
      | some table => exact ⟨.role, table, found, by simpa [found] using member⟩
  · rintro ⟨s, table, found, member⟩
    rwa [named.rowsOf_lines found]

theorem Named.admits_lines (named : model.Named) (h : model.WellFormed) :
    ∀ line ∈ model.lines, model.Admits line := by
  intro line member
  obtain ⟨s, table, found, stored⟩ := (named.mem_lines_iff line).mp member
  exact ⟨s, table, found, (h.tables s line.type table found).arity line.row stored⟩

/-! ## Loading into tables without rows -/

theorem Rowless.table?_load (rowless : model.Rowless) (named : model.Named) (h : model.WellFormed)
    {count : Nat} (loaded : (model.load lines).1 = .ok count) {s : RowSection} {type : String}
    {table : RowTable} (found : model.table? s type = some table) :
    ∃ table', (model.load lines).2.table? s type = some table' ∧ table.SameShape table' ∧
      table'.rows = table.arranged (rowsOf type lines).eraseDups := by
  obtain ⟨inserted, lengths⟩ := named.table?_load loaded found
  have well := h.tables s type table found
  obtain ⟨_, shape, _⟩ := well.insertAll lengths
  exact ⟨_, inserted, shape, well.rows_insertAll (rowless s type table found) lengths⟩

/-- Lines that pass the check take the place of all rows. -/
theorem Named.table?_clear_load (named : model.Named) (h : model.WellFormed) {u : Unit}
    (passed : model.checkLines lines = .ok u) {s : RowSection} {type : String} {table : RowTable}
    (found : model.table? s type = some table) :
    ∃ table', (model.clear.load lines).2.table? s type = some table' ∧ table.SameShape table' ∧
      table'.rows = table.arranged (rowsOf type lines).eraseDups := by
  obtain ⟨count, loaded⟩ := load_fst passed model.shapes_clear
  have cleared : model.clear.table? s type = some table.clear := by rw [table?_clear, found]; rfl
  obtain ⟨table', found', shape, rows⟩ := model.rowless_clear.table?_load
    (named.congr model.shapes_clear model.declarations_clear) h.clear loaded cleared
  exact ⟨table', found', shape, rows⟩

theorem arranged_rows {table : RowTable} (h : table.WellFormed) (ordered : table.Ordered) :
    table.arranged table.rows.eraseDups = table.rows := by
  have once : ([] ++ table.rows).Nodup := h.nodup
  rw [← RowTable.foldl_appendNew, RowTable.foldl_appendNew_of_nodup once, List.nil_append]
  exact (RowTable.Agree.refl table table.rows).arranged_eq (RowTable.ordered_iff.mp ordered)

/-- The lines of a model bring its rows back, in any model without rows that declares its types. -/
theorem Rowless.load_lines {fresh : Model} (rowless : fresh.Rowless) (freshNamed : fresh.Named)
    (freshWell : fresh.WellFormed) (shapes : fresh.SameShapes model) (named : model.Named)
    (h : model.WellFormed) (ordered : model.Ordered) :
    (∃ count, (fresh.load model.lines).1 = .ok count) ∧
      ∀ s type table, model.table? s type = some table →
        ∃ table', (fresh.load model.lines).2.table? s type = some table' ∧
          table.SameShape table' ∧ table'.rows = table.rows := by
  have passed : model.checkLines model.lines = .ok () :=
    named.checkLines_eq_ok_iff.mpr (named.admits_lines h)
  obtain ⟨count, loaded⟩ := load_fst passed fun s type => (shapes s type).symm
  refine ⟨⟨count, loaded⟩, fun s type table found => ?_⟩
  obtain ⟨empty, found', shape⟩ :=
    SameShapes.table? (fun s type => (shapes s type).symm) found
  obtain ⟨table', found'', shape', rows⟩ := rowless.table?_load freshNamed freshWell loaded found'
  refine ⟨table', found'', shape.trans shape', ?_⟩
  rw [rows, named.rowsOf_lines found, shape.arranged]
  exact arranged_rows (h.tables s type table found) (ordered s type table found)

/-! ## Models that have just been read -/

theorem rowless_ofDefinitions {definitions : List (String × String × String)}
    (read : ofDefinitions definitions = .ok model) : model.Rowless := by
  refine ofDefinitions_induction (P := Rowless) (fun s type table found => ?_)
    (fun before defined s type table found => ?_) read
  · cases s <;> simp [Model.table?, NameMap.get?] at found
  · rcases define_eq_ok defined with rfl | ⟨_, _, _, declared⟩
    · exact before s type table found
    · rcases table?_declare declared found with ⟨_, _, _, rfl, _⟩ | found
      · rfl
      · exact before s type table found

end AccessControl.Model
