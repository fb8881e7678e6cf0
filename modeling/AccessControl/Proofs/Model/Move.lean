import AccessControl.Proofs.Model.Prepared

/-! # Moves of a model

Every operation of an enforcer does to its model a sequence of moves. Whatever all moves keep holds
throughout every run.
-/

namespace AccessControl.Model

/-- The moves of the model of an enforcer. `links` tells whether the links follow the rows, and
    `rules` whether the managers and predicates of the role types may change. -/
inductive Move (links rules : Bool) : Model → Model → Prop where
  | same (model : Model) : Move links rules model model
  | trans {model model' model'' : Model} (first : Move links rules model model')
      (second : Move links rules model' model'') : Move links rules model model''
  | change {model model' : Model} {s : RowSection} {type : String} {delta : RowDelta}
      {table table' : RowTable} (changed : Changed model s type (some delta) model' table table') :
      Move links rules model (model'.follow links s type delta)
  | clear (model : Model) : Move links rules model model.clear.buildLinks.2
  | load (model : Model) (lines : List PolicyLine) :
      Move links rules model
        (if links then (model.clear.load lines).2.buildLinks.2 else (model.clear.load lines).2)
  | buildLinks (model : Model) : Move links rules model model.buildLinks.2
  | remember (model : Model) (events : List Event) : Move links rules model (model.remember events)
  | addNamePredicate (free : rules = true) (model : Model) (type : String)
      (holds : NamePredicate) :
      Move links rules model (model.modifyRole type (·.addNamePredicate holds))
  | addDomainPredicate (free : rules = true) (model : Model) (type : String)
      (holds : NamePredicate) :
      Move links rules model (model.modifyRole type (·.addDomainPredicate holds))
  | setManager (free : rules = true) (model : Model) (type : String) (manager : RoleManager) :
      Move links rules model (model.modifyRole type (·.linkedIn manager))

variable {links rules : Bool} {model model' : Model}

theorem Move.free (move : Move links rules model model') : Move links true model model' := by
  induction move with
  | same model => exact .same model
  | trans _ _ ih ih' => exact .trans ih ih'
  | change changed => exact .change changed
  | clear model => exact .clear model
  | load model lines => exact .load model lines
  | buildLinks model => exact .buildLinks model
  | remember model events => exact .remember model events
  | addNamePredicate _ model type holds => exact .addNamePredicate rfl model type holds
  | addDomainPredicate _ model type holds => exact .addDomainPredicate rfl model type holds
  | setManager _ model type manager => exact .setManager rfl model type manager

theorem Move.wellFormed (move : Move links rules model model') (h : model.WellFormed) :
    model'.WellFormed := by
  induction move with
  | same => exact h
  | trans _ _ ih ih' => exact ih' (ih h)
  | change changed => exact (tables_follow _ _ _ _ _).wellFormed (changed.wellFormed h)
  | clear model => exact (tables_buildLinks _).wellFormed h.clear
  | load model lines =>
      have loaded := (h.clear.load lines).1
      split
      · exact (tables_buildLinks _).wellFormed loaded
      · exact loaded
  | buildLinks model => exact (tables_buildLinks model).wellFormed h
  | remember model events => exact (tables_remember model events).wellFormed h
  | addNamePredicate _ model type holds =>
      exact (tables_modifyRole model type (·.addNamePredicate holds) fun _ => rfl).wellFormed h
  | addDomainPredicate _ model type holds =>
      exact (tables_modifyRole model type (·.addDomainPredicate holds) fun _ => rfl).wellFormed h
  | setManager _ model type manager =>
      exact (tables_modifyRole model type (·.linkedIn manager) fun _ => rfl).wellFormed h

theorem Move.shapes (move : Move links rules model model') (h : model.WellFormed) :
    SameShapes model model' := by
  induction move with
  | same model => exact .refl model
  | trans first _ ih ih' => exact (ih h).trans (ih' (first.wellFormed h))
  | change changed => exact changed.shapes.trans (tables_follow _ _ _ _ _).shapes
  | clear model => exact model.shapes_clear.trans (tables_buildLinks _).shapes
  | load model lines =>
      have loaded := model.shapes_clear.trans (h.clear.load lines).2
      split
      · exact loaded.trans (tables_buildLinks _).shapes
      · exact loaded
  | buildLinks model => exact (tables_buildLinks model).shapes
  | remember model events => exact (tables_remember model events).shapes
  | addNamePredicate _ model type holds =>
      exact (tables_modifyRole model type (·.addNamePredicate holds) fun _ => rfl).shapes
  | addDomainPredicate _ model type holds =>
      exact (tables_modifyRole model type (·.addDomainPredicate holds) fun _ => rfl).shapes
  | setManager _ model type manager =>
      exact (tables_modifyRole model type (·.linkedIn manager) fun _ => rfl).shapes

end AccessControl.Model

/-! ## Models whose role managers remember right answers only

Role managers are regular from the moment in which their links are built, and every move keeps them
so, whether the links follow the rows or not.
-/

namespace AccessControl.Model

/-- The role managers of a model are regular, so that they remember right answers only. -/
def Regular (model : Model) : Prop := model.EachRole fun _ role => role.manager.Regular

variable {model model' : Model}

theorem Regular.modifyRole (regular : model.Regular) (type : String)
    {change : RoleType → RoleType}
    (keeps : ∀ role : RoleType, role.manager.Regular → (change role).manager.Regular) :
    (model.modifyRole type change).Regular :=
  EachRole.modifyRole regular (fun role before => keeps role before) fun _ _ _ before => before

theorem Regular.buildLinks (regular : model.Regular) (h : model.WellFormed) :
    model.buildLinks.2.Regular := by
  rw [h.buildLinks]
  have built := EachRole.modifyAll (Q := fun _ _ => True) regular (·.buildLinks.2)
    fun _ role _ => ⟨role.regular_buildLinks, trivial⟩
  exact fun type role declared => (built type role declared).1

theorem Regular.clear (regular : model.Regular) : model.clear.Regular :=
  EachRole.clear regular fun _ _ _ before => before

theorem Regular.load (regular : model.Regular) (lines : List PolicyLine) :
    (model.load lines).2.Regular :=
  EachRole.load regular (fun _ _ _ before => before) lines

theorem Regular.rememberLink (regular : model.Regular) (type name role : String)
    (domain : Option String) : (model.rememberLink type name role domain).Regular :=
  regular.modifyRole type fun _ before => (before.remember name role domain).1

theorem Regular.remember (regular : model.Regular) (events : List Event) :
    (model.remember events).Regular := by
  induction events generalizing model with
  | nil => exact regular
  | cons event rest ih =>
      cases event with
      | roleChecked type name role domain answer => exact ih (regular.rememberLink _ _ _ _)
      | called label args => exact ih regular
      | ruleLoaded text => exact ih regular

/-- Every move keeps all role managers regular. -/
theorem Move.regular {links rules : Bool} (move : Move links rules model model')
    (h : model.WellFormed) (regular : model.Regular) : model'.Regular := by
  induction move with
  | same => exact regular
  | trans first _ ih ih' => exact ih' (first.wellFormed h) (ih h regular)
  | @change model model' s type delta table table' changed =>
      have placed : model'.Regular :=
        changed.placed ▸ EachRole.setTable regular (fun _ _ _ before => before) s type table'
      unfold follow
      split
      · exact placed.modifyRole type fun _ before => RoleType.regular_follow before delta
      · exact placed
  | clear model => exact regular.clear.buildLinks h.clear
  | load model lines =>
      have loaded := regular.clear.load lines
      split
      · exact loaded.buildLinks (h.clear.load lines).1
      · exact loaded
  | buildLinks model => exact regular.buildLinks h
  | remember model events => exact regular.remember events
  | addNamePredicate _ model type holds =>
      exact regular.modifyRole type fun _ before => before.addNamePredicate holds
  | addDomainPredicate _ model type holds =>
      exact regular.modifyRole type fun _ before => before.addDomainPredicate holds
  | setManager _ model type manager =>
      exact regular.modifyRole type fun role _ =>
        RoleType.regular_buildLinks { role with manager }

end AccessControl.Model
