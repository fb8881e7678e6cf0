import AccessControl.Proofs.Model.Declarations
import AccessControl.Proofs.Storage.Memory

/-! # The names of types

The types of a model stand in the order of their names, and the first letter of a name tells the
section that it is declared in. So no two types share a name, and the lines of a model hold the rows
of each type where the type says so.
-/

namespace AccessControl

theorem Definition.toList_of_checkKey {s : Section} {key : String}
    (proper : Definition.checkKey s.key key = .ok ()) :
    ∃ digits, key.toList = s.key.toList ++ digits ∧ ∀ c ∈ digits, c.isDigit = true := by
  unfold Definition.checkKey at proper
  split at proper
  · simp at proper
  · rename_i begins
    have leads : s.key.toList <+: key.toList :=
      List.isPrefixOf_iff_prefix.mp (by simpa using begins)
    obtain ⟨digits, whole⟩ := leads
    refine ⟨digits, whole.symm, ?_⟩
    split at proper
    · rename_i digital
      rw [← whole, ← String.length_toList, List.drop_left] at digital
      exact List.all_eq_true.mp digital
    · simp at proper

theorem Section.letterOf_of_checkKey {s : Section} {key : String}
    (proper : Definition.checkKey s.key key = .ok ()) : Section.letterOf key = s.key := by
  obtain ⟨digits, whole, _⟩ := Definition.toList_of_checkKey proper
  unfold Section.letterOf
  rw [whole]
  cases s <;> rfl

theorem RowSection.key_injective {s s' : RowSection} (same : s.key = s'.key) : s = s' := by
  cases s <;> cases s' <;> first | rfl | exact absurd same (by decide)

namespace Model

/-- The types of a model have proper names. -/
structure Named (model : Model) : Prop where
  type : ∀ s type table, model.table? s type = some table → table.type = type
  letter : ∀ s type table, model.table? s type = some table → Section.letterOf type = s.key
  policies : NameMap.Ascending model.policies
  roles : NameMap.Ascending model.roles

namespace Named

variable {model model' : Model}

theorem section_eq (named : model.Named) {s s' : RowSection} {type : String} {table table' : RowTable}
    (found : model.table? s type = some table) (found' : model.table? s' type = some table') :
    s = s' :=
  RowSection.key_injective ((named.letter s type table found).symm.trans
    (named.letter s' type table' found'))

theorem names_policies (model : Model) :
    model.policies.map (·.1) = model.policyFields.map (·.1) := by
  simp only [policyFields, List.map_map, Function.comp_def]

theorem names_roles (model : Model) : model.roles.map (·.1) = model.roleArities.map (·.1) := by
  simp only [roleArities, List.map_map, Function.comp_def]

theorem congr (named : model.Named) (shapes : SameShapes model model')
    (declarations : SameDeclarations model model') : model'.Named := by
  have before {s : RowSection} {type : String} {table : RowTable}
      (found : model'.table? s type = some table) :
      ∃ table', model.table? s type = some table' ∧ table.SameShape table' :=
    SameShapes.table? (fun s type => (shapes s type).symm) found
  refine ⟨fun s type table found => ?_, fun s type table found => ?_, ?_, ?_⟩
  · obtain ⟨table', found', shape⟩ := before found
    exact shape.1.symm.trans (named.type s type table' found')
  · obtain ⟨table', found', _⟩ := before found
    exact named.letter s type table' found'
  · unfold NameMap.Ascending
    rw [names_policies, declarations.policyFields, ← names_policies]
    exact named.policies
  · unfold NameMap.Ascending
    rw [names_roles, declarations.roleArities, ← names_roles]
    exact named.roles

theorem congr_tables (named : model.Named) (tables : SameTables model model')
    (declarations : SameDeclarations model model') : model'.Named :=
  named.congr tables.shapes declarations

theorem declare (named : model.Named) {s : Section} {key text : String}
    (proper : Definition.checkKey s.key key = .ok ())
    (declared : model.declare s key text = .ok model') : model'.Named := by
  have maps : NameMap.Ascending model'.policies ∧ NameMap.Ascending model'.roles := by
    cases s with
    | request | effect =>
        obtain ⟨_, _, settled⟩ := Except.bind_eq_ok_iff.mp declared
        obtain rfl := Except.ok.inj settled
        exact ⟨named.policies, named.roles⟩
    | policy =>
        obtain ⟨_, _, settled⟩ := Except.bind_eq_ok_iff.mp declared
        obtain rfl := Except.ok.inj settled
        exact ⟨named.policies.insert key _, named.roles⟩
    | role =>
        obtain ⟨_, _, settled⟩ := Except.bind_eq_ok_iff.mp declared
        obtain rfl := Except.ok.inj settled
        exact ⟨named.policies, named.roles.insert key _⟩
    | matcher =>
        obtain rfl := Except.ok.inj declared
        exact ⟨named.policies, named.roles⟩
  refine ⟨fun s' type table found => ?_, fun s' type table found => ?_, maps.1, maps.2⟩
  · rcases table?_declare declared found with ⟨_, rfl, fields, rfl, _⟩ | before
    · rfl
    · exact named.type s' type table before
  · rcases table?_declare declared found with ⟨rfl, rfl, _⟩ | before
    · exact Section.letterOf_of_checkKey proper
    · exact named.letter s' type table before

end Named

/-- All models that can be built have proper names. -/
theorem Prepared.named {model : Model} (prepared : model.Prepared) : model.Named := by
  induction prepared with
  | empty =>
      refine ⟨fun s type table found => ?_, fun s type table found => ?_, List.Pairwise.nil,
        List.Pairwise.nil⟩ <;> cases s <;> simp [Model.table?, NameMap.get?] at found
  | define _ defined ih =>
      rcases define_eq_ok defined with rfl | ⟨s, named, proper, declared⟩
      · exact ih
      · exact ih.declare (Section.key_of_ofKey named ▸ proper) declared
  | apply before made ih =>
      obtain ⟨table, table', changed⟩ := before.wellFormed.apply made
      exact ih.congr changed.shapes
        (changed.placed ▸ declarations_setTable changed.found changed.outcome.shape)
  | @clear model _ ih => exact ih.congr model.shapes_clear model.declarations_clear
  | @load model lines before ih =>
      exact ih.congr (before.wellFormed.load lines).2 (model.declarations_load lines)
  | @buildLinks model before ih =>
      exact ih.congr_tables model.tables_buildLinks before.wellFormed.declarations_buildLinks
  | @changeLinks model type change rows _ ih =>
      exact ih.congr_tables (model.tables_changeLinks type change rows)
        (model.declarations_changeLinks type change rows)
  | @setManager model type manager _ ih =>
      exact ih.congr_tables (model.tables_setManager type manager)
        (model.declarations_setManager type manager)

/-! ## Lines -/

open PolicyLine

theorem rowsOf_linesOf (table : RowTable) (type : String) :
    rowsOf type (linesOf table) = if table.type = type then table.rows else [] := by
  unfold linesOf rowsOf
  rw [List.filter_map, List.map_map]
  split
  · rename_i here
    simp [Function.comp_def, here]
  · rename_i other
    simp [Function.comp_def, other]

theorem rowsOf_flatten {α : Type} (tableOf : α → RowTable) {map : NameMap α}
    (distinct : (map.map (·.1)).Nodup) (names : ∀ entry ∈ map, (tableOf entry.2).type = entry.1)
    (type : String) :
    rowsOf type (map.map fun entry => linesOf (tableOf entry.2)).flatten =
      ((map.get? type).map fun entry => (tableOf entry).rows).getD [] := by
  induction map with
  | nil => rfl
  | cons head rest ih =>
      obtain ⟨name, entry⟩ := head
      obtain ⟨fresh, distinct⟩ := List.nodup_cons.mp distinct
      obtain ⟨here, names⟩ := List.forall_mem_cons.mp names
      have here : (tableOf entry).type = name := here
      rw [List.map_cons, List.flatten_cons, rowsOf_append, rowsOf_linesOf, ih distinct names,
        NameMap.get?_cons, here]
      by_cases same : name = type
      · subst same
        have absent : NameMap.get? rest name = none := by
          cases found : NameMap.get? rest name with
          | none => rfl
          | some entry =>
              exact absurd (List.mem_map_of_mem (f := (·.1)) (NameMap.mem_of_get? found)) fresh
        simp [absent]
      · simp [same, Ne.symm same]

theorem Named.rowsOf_lines_eq {model : Model} (named : model.Named) (type : String) :
    rowsOf type model.lines =
      ((model.table? .policy type).map (·.rows)).getD [] ++
        ((model.table? .role type).map (·.rows)).getD [] := by
  have policies : rowsOf type (model.policies.map fun entry => linesOf entry.2.body).flatten =
      ((model.table? .policy type).map (·.rows)).getD [] := by
    rw [rowsOf_flatten (fun declared : Declared RowTable => declared.body) named.policies.nodup]
    · rw [table?, Option.map_map]
      rfl
    · intro entry member
      refine named.type .policy entry.1 entry.2.body ?_
      rw [table?, (NameMap.get?_eq_some_iff named.policies.nodup).mpr member]
      rfl
  have roles : rowsOf type (model.roles.map fun entry => linesOf entry.2.body.table).flatten =
      ((model.table? .role type).map (·.rows)).getD [] := by
    rw [rowsOf_flatten (fun declared : Declared RoleType => declared.body.table) named.roles.nodup]
    · rw [table?, Option.map_map]
      rfl
    · intro entry member
      refine named.type .role entry.1 entry.2.body.table ?_
      rw [table?, (NameMap.get?_eq_some_iff named.roles.nodup).mpr member]
      rfl
  unfold lines
  rw [rowsOf_append, policies, roles]

theorem Named.rowsOf_lines {model : Model} (named : model.Named) {s : RowSection} {type : String}
    {table : RowTable} (found : model.table? s type = some table) :
    rowsOf type model.lines = table.rows := by
  have nowhere (s' : RowSection) (other : s' ≠ s) : model.table? s' type = none := by
    cases found' : model.table? s' type with
    | none => rfl
    | some table' => exact absurd (named.section_eq found' found) other
  rw [named.rowsOf_lines_eq]
  cases s with
  | policy => simp [found, nowhere .role (by decide)]
  | role => simp [found, nowhere .policy (by decide)]

/-! ## Loading -/

/-- Lines that are all loaded insert their rows into the table of each type one after another, and
    these have the length that the type declares. -/
theorem Named.table?_load {model : Model} (named : model.Named) {lines : List PolicyLine}
    {count : Nat} (loaded : (model.load lines).1 = .ok count) {s : RowSection} {type : String}
    {table : RowTable} (found : model.table? s type = some table) :
    (model.load lines).2.table? s type = some (table.insertAll (rowsOf type lines)) ∧
      ∀ row ∈ rowsOf type lines, row.length = table.arity := by
  induction lines generalizing model table count with
  | nil => exact ⟨found, by simp [rowsOf]⟩
  | cons line rest ih =>
      unfold Model.load at loaded ⊢
      cases added : model.addLine line with
      | error error => simp [added] at loaded
      | ok outcome =>
          obtain ⟨new, model'⟩ := outcome
          rw [added] at loaded
          obtain ⟨count', loaded, _⟩ := Except.map_eq_ok_iff.mp loaded
          obtain ⟨s', table', found', length, rfl⟩ := addLine_eq_ok added
          obtain ⟨type', row⟩ := line
          have shape := table'.insert_shape row
          have named' := named.congr (shapes_setTable found' shape)
            (declarations_setTable found' shape)
          have placed := model.table?_setTable s' type' (table'.insert row).2 s type
          simp only
          by_cases here : type = type'
          · subst here
            obtain rfl := named.section_eq found found'
            obtain rfl := Option.some.inj (found.symm.trans found')
            rw [if_pos ⟨rfl, rfl⟩, found] at placed
            rw [rowsOf_cons_self]
            obtain ⟨inserted, lengths⟩ := ih named' loaded placed
            exact ⟨inserted, List.forall_mem_cons.mpr
              ⟨length, fun other member => (lengths other member).trans shape.arity⟩⟩
          · rw [if_neg fun same => here same.2, found] at placed
            rw [rowsOf_cons_other here]
            exact ih named' loaded placed

/-- Lines that are all loaded add their rows to those of each type, if none comes twice. -/
theorem Named.load_perm {model : Model} (named : model.Named) (h : model.WellFormed)
    {lines : List PolicyLine} {count : Nat} (loaded : (model.load lines).1 = .ok count)
    {s : RowSection} {type : String} {table : RowTable} (found : model.table? s type = some table)
    (distinct : (rowsOf type lines ++ table.rows).Nodup) :
    ∃ table', (model.load lines).2.table? s type = some table' ∧
      table'.rows.Perm (rowsOf type lines ++ table.rows) := by
  obtain ⟨inserted, lengths⟩ := named.table?_load loaded found
  obtain ⟨well, _, stored⟩ := (h.tables s type table found).insertAll lengths
  refine ⟨_, inserted, ?_⟩
  refine (List.perm_ext_iff_of_nodup well.nodup distinct).mpr fun row => ?_
  rw [stored, List.mem_append]

end Model

end AccessControl
