import AccessControl.Enforcer.Control
import AccessControl.Proofs.Model.Links

/-! # Models that can be built

A model is built by declarations, changes of rows, and by building its links. All models that come
about in this way are well formed.
-/

namespace AccessControl.Model

/-! ## Clearing and loading -/

theorem table?_clear (model : Model) (s : RowSection) (type : String) :
    model.clear.table? s type = (model.table? s type).map RowTable.clear := by
  cases s with
  | policy =>
      have cleared := NameMap.get?_map (fun declared : Declared RowTable =>
        (⟨declared.text, declared.body.clear⟩ : Declared RowTable)) model.policies type
      simp only [clear, table?, cleared]
      cases model.policies.get? type <;> rfl
  | role =>
      have cleared := NameMap.get?_map (fun declared : Declared RoleType =>
        (⟨declared.text, { declared.body with table := declared.body.table.clear }⟩ :
          Declared RoleType)) model.roles type
      simp only [clear, table?, cleared]
      cases model.roles.get? type <;> rfl

theorem shapes_clear (model : Model) : SameShapes model model.clear := by
  intro s type
  unfold shape?
  rw [table?_clear, Option.map_map]
  rfl

theorem WellFormed.clear {model : Model} (h : model.WellFormed) : model.clear.WellFormed where
  tables s type table found := by
    rw [table?_clear] at found
    obtain ⟨before, _, rfl⟩ := Option.map_eq_some_iff.mp found
    exact .clear before
  links type table found := by
    rw [table?_clear] at found
    obtain ⟨before, declared, rfl⟩ := Option.map_eq_some_iff.mp found
    exact h.links type before declared

theorem addLine_eq_ok {model model' : Model} {line : PolicyLine} {new : Bool}
    (added : model.addLine line = .ok (new, model')) :
    ∃ s table, model.table? s line.type = some table ∧ line.row.length = table.arity ∧
      model.setTable s line.type (table.insert line.row).2 = model' := by
  obtain ⟨s, _, inserted⟩ := Except.bind_eq_ok_iff.mp added
  obtain ⟨s', table, table', _, found, outcome, placed⟩ := change_eq_ok_iff.mp inserted
  obtain ⟨_, checked, settled⟩ := Except.bind_eq_ok_iff.mp outcome
  refine ⟨s', table, found, RowTable.checkArity_eq_ok_iff.mp checked, ?_⟩
  rw [Except.ok.inj settled]
  exact placed

/-- To load lines is to insert rows one after another. -/
theorem load_induction {P : Model → Prop} {model : Model} (lines : List PolicyLine)
    (start : P model)
    (insert : ∀ model s type table row, model.table? s type = some table →
      row.length = table.arity → P model → P (model.setTable s type (table.insert row).2)) :
    P (model.load lines).2 := by
  induction lines generalizing model with
  | nil => exact start
  | cons line rest ih =>
      unfold Model.load
      cases added : model.addLine line with
      | error error => exact start
      | ok outcome =>
          obtain ⟨s, table, found, length, placed⟩ := addLine_eq_ok added
          exact ih (placed ▸ insert model s line.type table line.row found length start)

theorem WellFormed.load {model : Model} (h : model.WellFormed) (lines : List PolicyLine) :
    (model.load lines).2.WellFormed ∧ SameShapes model (model.load lines).2 := by
  refine load_induction (P := fun model' => model'.WellFormed ∧ SameShapes model model') lines
    ⟨h, .refl model⟩ fun model' s type table row found length ⟨well, shapes⟩ => ?_
  have shape := table.insert_shape row
  have inserted := (well.tables s type table found).insert length
  exact ⟨well.setTable found shape inserted, shapes.trans (shapes_setTable found shape)⟩

theorem SameShapes.table? {model model' : Model} (same : SameShapes model model') {s : RowSection}
    {type : String} {table : RowTable} (found : model.table? s type = some table) :
    ∃ table', model'.table? s type = some table' ∧ table.SameShape table' := by
  have shape := same s type
  unfold shape? at shape
  rw [found] at shape
  obtain ⟨table', found', eq⟩ := Option.map_eq_some_iff.mp shape
  exact ⟨table', found', (Prod.mk.inj eq).1, (Prod.mk.inj eq).2⟩

theorem load_fst {checked model : Model} {lines : List PolicyLine} {u : Unit}
    (passed : checked.checkLines lines = .ok u) (shapes : SameShapes checked model) :
    ∃ count, (model.load lines).1 = .ok count := by
  induction lines generalizing model with
  | nil => exact ⟨0, rfl⟩
  | cons line rest ih =>
      simp only [checkLines, Model.checkArities, Except.bind_eq_ok_iff, table_eq_ok_iff,
        RowTable.checkArities_eq_ok_iff, List.forall_mem_singleton] at passed
      obtain ⟨s, hasSection, _, ⟨table, ⟨s', key, found⟩, length⟩, others⟩ := passed
      obtain ⟨table', found', shape⟩ := shapes.table? found
      have inserted : table'.add line.row = .ok (table'.insert line.row) :=
        Except.bind_eq_ok_iff.mpr
          ⟨(), RowTable.checkArity_eq_ok_iff.mpr (length.trans shape.arity.symm), rfl⟩
      have added : model.addLine line = .ok ((table'.insert line.row).1,
          model.setTable s' line.type (table'.insert line.row).2) :=
        Except.bind_eq_ok_iff.mpr ⟨s, hasSection,
          change_eq_ok_iff.mpr ⟨s', table', _, key, found', inserted, rfl⟩⟩
      obtain ⟨count, loaded⟩ :=
        ih others (shapes.trans (shapes_setTable found' (table'.insert_shape line.row)))
      unfold Model.load
      rw [added]
      exact ⟨_, congrArg (Except.map _) loaded⟩

/-! ## Role types -/

variable {model : Model}

theorem role_setTable (model : Model) (s : RowSection) (type : String) (table : RowTable)
    (type' : String) :
    (model.setTable s type table).role type' =
      if s = .role ∧ type' = type then (model.role type).map ({ · with table })
      else model.role type' := by
  cases s with
  | policy => rfl
  | role =>
      simp only [Model.role, named, setTable, NameMap.get?_modify, true_and]
      by_cases here : type' = type
      · subst here
        rw [if_pos rfl, if_pos rfl]
        cases model.roles.get? type' <;> rfl
      · rw [if_neg here, if_neg here]

theorem role_clear (model : Model) (type : String) :
    model.clear.role type = (model.role type).map fun role =>
      { role with table := role.table.clear } := by
  have cleared := NameMap.get?_map (fun declared : Declared RoleType =>
    (⟨declared.text, { declared.body with table := declared.body.table.clear }⟩ :
      Declared RoleType)) model.roles type
  simp only [Model.role, named, clear, cleared]
  cases model.roles.get? type <;> rfl

theorem EachRole.setTable {P : String → RoleType → Prop} (each : model.EachRole P)
    (rowless : ∀ type role table, P type role → P type { role with table }) (s : RowSection)
    (type : String) (table : RowTable) : (model.setTable s type table).EachRole P := by
  intro type' role declared
  rw [role_setTable] at declared
  split at declared
  · rename_i here
    obtain ⟨_, rfl⟩ := here
    obtain ⟨before, found, rfl⟩ := Except.map_eq_ok_iff.mp declared
    exact rowless type' before table (each type' before found)
  · exact each type' role declared

theorem EachRole.clear {P : String → RoleType → Prop} (each : model.EachRole P)
    (rowless : ∀ type role table, P type role → P type { role with table }) :
    model.clear.EachRole P := by
  intro type role declared
  rw [role_clear] at declared
  obtain ⟨before, found, rfl⟩ := Except.map_eq_ok_iff.mp declared
  exact rowless type before before.table.clear (each type before found)

theorem EachRole.load {P : String → RoleType → Prop} (each : model.EachRole P)
    (rowless : ∀ type role table, P type role → P type { role with table })
    (lines : List PolicyLine) : (model.load lines).2.EachRole P :=
  load_induction (P := fun model => model.EachRole P) lines each
    fun _ s type _ _ _ _ each => each.setTable rowless s type _

/-! ## Declaring -/

theorem wellFormed_empty : WellFormed {} where
  tables s type table found := by cases s <;> simp [Model.table?, NameMap.get?] at found
  links type table found := by simp [Model.table?, NameMap.get?] at found

theorem length_roleFields {key text : String} {fields : List String}
    (read : Definition.roleFields key text = .ok fields) : 2 ≤ fields.length := by
  unfold Definition.roleFields at read
  simp only at read
  split at read
  · simp at read
  · rename_i proper
    obtain rfl := Except.ok.inj read
    simp only [Bool.or_eq_true, decide_eq_true_eq, not_or, Nat.not_lt] at proper
    simpa using proper.1

theorem table?_declare {model model' : Model} {s : Section} {key text : String}
    (declared : model.declare s key text = .ok model') {s' : RowSection} {type : String}
    {table : RowTable} (found : model'.table? s' type = some table) :
    (s = s'.toSection ∧ type = key ∧
      ∃ fields, table = { type := key, fields } ∧ (s' = .role → 2 ≤ fields.length)) ∨
        model.table? s' type = some table := by
  cases s with
  | request =>
      obtain ⟨fields, _, settled⟩ := Except.bind_eq_ok_iff.mp declared
      obtain rfl := Except.ok.inj settled
      cases s' <;> exact .inr found
  | policy =>
      obtain ⟨fields, _, settled⟩ := Except.bind_eq_ok_iff.mp declared
      obtain rfl := Except.ok.inj settled
      cases s' with
      | role => exact .inr found
      | policy =>
          simp only [Model.table?, NameMap.get?_insert] at found
          split at found
          · rename_i here
            exact .inl ⟨rfl, here, fields, (Option.some.inj found).symm, by simp⟩
          · exact .inr found
  | role =>
      obtain ⟨fields, read, settled⟩ := Except.bind_eq_ok_iff.mp declared
      obtain rfl := Except.ok.inj settled
      cases s' with
      | policy => exact .inr found
      | role =>
          simp only [Model.table?, NameMap.get?_insert] at found
          split at found
          · rename_i here
            exact .inl ⟨rfl, here, fields, (Option.some.inj found).symm,
              fun _ => length_roleFields read⟩
          · exact .inr found
  | effect =>
      obtain ⟨kind, _, settled⟩ := Except.bind_eq_ok_iff.mp declared
      obtain rfl := Except.ok.inj settled
      cases s' <;> exact .inr found
  | matcher =>
      obtain rfl := Except.ok.inj declared
      cases s' <;> exact .inr found

theorem WellFormed.declare {model model' : Model} (h : model.WellFormed) {s : Section}
    {key text : String} (declared : model.declare s key text = .ok model') :
    model'.WellFormed where
  tables s' type table found := by
    rcases table?_declare declared found with ⟨_, _, fields, rfl, _⟩ | before
    · exact .empty key fields
    · exact h.tables s' type table before
  links type table found := by
    rcases table?_declare declared found with ⟨_, _, fields, rfl, long⟩ | before
    · exact long rfl
    · exact h.links type table before

/-- A definition declares a type with a proper key, or nothing. -/
theorem define_eq_ok {model model' : Model} {sec key text : String} {new : Bool}
    (defined : model.define sec key text = .ok (new, model')) :
    model' = model ∨ ∃ s, Section.ofKey sec = .ok s ∧ Definition.checkKey sec key = .ok () ∧
      model.declare s key text = .ok model' := by
  obtain ⟨s, named, defined⟩ := Except.bind_eq_ok_iff.mp defined
  obtain ⟨_, proper, defined⟩ := Except.bind_eq_ok_iff.mp defined
  split at defined
  · exact .inl (Prod.mk.inj (Except.ok.inj defined)).2.symm
  · obtain ⟨declaredModel, declared, settled⟩ := Except.bind_eq_ok_iff.mp defined
    obtain ⟨_, rfl⟩ := Prod.mk.inj (Except.ok.inj settled)
    exact .inr ⟨s, named, proper, declared⟩

theorem WellFormed.define {model model' : Model} (h : model.WellFormed) {sec key text : String}
    {new : Bool} (defined : model.define sec key text = .ok (new, model')) :
    model'.WellFormed := by
  rcases define_eq_ok defined with rfl | ⟨s, _, _, declared⟩
  · exact h
  · exact h.declare declared

/-! ## Prepared models -/

/-- The models that can be built, by declarations and by operations on what they declare. -/
inductive Prepared : Model → Prop where
  | empty : Prepared {}
  | define {model model' : Model} {sec key text : String} {new : Bool} (before : Prepared model)
      (defined : model.define sec key text = .ok (new, model')) : Prepared model'
  | apply {model model' : Model} {s : RowSection} {type : String} {change : RowChange}
      {delta? : Option RowDelta} (before : Prepared model)
      (made : model.apply s.key type change = .ok (delta?, model')) : Prepared model'
  | clear {model : Model} (before : Prepared model) : Prepared model.clear
  | load {model : Model} (lines : List PolicyLine) (before : Prepared model) :
      Prepared (model.load lines).2
  | buildLinks {model : Model} (before : Prepared model) : Prepared model.buildLinks.2
  | changeLinks {model : Model} (type : String) (change : LinkChange) (rows : List Row)
      (before : Prepared model) : Prepared (model.changeLinks type change rows).2
  | setManager {model : Model} (type : String) (manager : RoleManager) (before : Prepared model) :
      Prepared (model.setManager type manager).2

theorem Prepared.wellFormed {model : Model} (prepared : model.Prepared) : model.WellFormed := by
  induction prepared with
  | empty => exact wellFormed_empty
  | define _ defined ih => exact ih.define defined
  | apply _ made ih =>
      obtain ⟨table, table', changed⟩ := ih.apply made
      exact changed.wellFormed ih
  | clear _ ih => exact ih.clear
  | load lines _ ih => exact (ih.load lines).1
  | buildLinks _ ih => exact (tables_buildLinks _).wellFormed ih
  | changeLinks type change rows _ ih => exact (tables_changeLinks _ type change rows).wellFormed ih
  | setManager type manager _ ih => exact (tables_setManager _ type manager).wellFormed ih

/-- What holds of the empty model and is kept by all definitions holds of what is read from some. -/
theorem ofDefinitions_induction {P : Model → Prop} (empty : P {})
    (define : ∀ {model model' : Model} {sec key text : String} {new : Bool}, P model →
      model.define sec key text = .ok (new, model') → P model')
    {definitions : List (String × String × String)} {model : Model}
    (read : ofDefinitions definitions = .ok model) : P model := by
  have general : ∀ (before : Model), P before →
      definitions.foldlM (fun (model : Model) (definition : String × String × String) => do
        let outcome ← model.define definition.1 definition.2.1 definition.2.2
        .ok outcome.2) before = .ok model → P model := by
    clear read
    induction definitions with
    | nil =>
        intro before holds read
        exact Except.ok.inj read ▸ holds
    | cons definition rest ih =>
        intro before holds read
        obtain ⟨next, stepped, others⟩ := Except.bind_eq_ok_iff.mp read
        obtain ⟨⟨new, declared⟩, defined, settled⟩ := Except.bind_eq_ok_iff.mp stepped
        obtain rfl := Except.ok.inj settled
        exact ih declared (define holds defined) others
  exact general {} empty read

theorem Prepared.ofDefinitions {definitions : List (String × String × String)} {model : Model}
    (read : ofDefinitions definitions = .ok model) : model.Prepared :=
  ofDefinitions_induction .empty .define read

theorem Prepared.ofDefinitions_getD (definitions : List (String × String × String)) :
    ((Model.ofDefinitions definitions).toOption.getD {}).Prepared := by
  cases read : Model.ofDefinitions definitions with
  | error error => exact .empty
  | ok model => exact .ofDefinitions read

end AccessControl.Model
