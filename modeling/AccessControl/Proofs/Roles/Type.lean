import AccessControl.Proofs.Policy.Table
import AccessControl.Proofs.Roles.Manager

/-! # Role types whose links are in step with their rows

A role type is in step if its manager has been told of all predicates that are remembered, and has
just the links that the stored rows stand for. Links that are built anew are in step, and stay so
when every change of the rows is followed.
-/

namespace AccessControl

/-! ## Rows and the links that they stand for -/

/-- The link that a row stands for. -/
def RoleLink.ofRow? : Row → Option RoleLink
  | subject :: role :: rest => some { subject, role, domain := rest.head?.getD defaultDomain }
  | _ => none

/-- Some row of a list stands for a link. -/
def RoleLink.In (link : RoleLink) (rows : List Row) : Prop :=
  ∃ row ∈ rows, RoleLink.ofRow? row = some link

theorem RoleLink.in_cons (link : RoleLink) (subject role : String) (values : List String)
    (rest : List Row) :
    link.In ((subject :: role :: values) :: rest) ↔
      link = { subject, role, domain := values.head?.getD defaultDomain } ∨ link.In rest := by
  unfold RoleLink.In
  rw [List.exists_mem_cons_iff, eq_comm (a := link)]
  simp [RoleLink.ofRow?]

/-- Rows of one length stand for one link just if they agree up to the third value. -/
theorem sameLink_iff {a b : Row} (long : 2 ≤ a.length) (lengths : a.length = b.length) :
    sameLink a b = true ↔ RoleLink.ofRow? a = RoleLink.ofRow? b := by
  unfold sameLink linkFields
  rw [beq_iff_eq]
  match a, b, long, lengths with
  | [s, r], [s', r'], _, _ => simp [RoleLink.ofRow?]
  | s :: r :: d :: rest, s' :: r' :: d' :: rest', _, _ => simp [RoleLink.ofRow?]

namespace RoleManager

variable {manager : RoleManager}

theorem applyAll_fst (manager : RoleManager) (type : String) (change : LinkChange)
    {rows : List Row} (long : ∀ row ∈ rows, 2 ≤ row.length) :
    (manager.applyAll type change rows).1 = .ok () := by
  induction rows generalizing manager with
  | nil => rfl
  | cons row rest ih =>
      obtain ⟨first, others⟩ := List.forall_mem_cons.mp long
      match row, first with
      | subject :: role :: values, _ =>
          cases change <;> exact ih _ others

theorem Regular.applyAll (regular : manager.Regular) (type : String) (change : LinkChange)
    (rows : List Row) : (manager.applyAll type change rows).2.Regular := by
  induction rows generalizing manager with
  | nil => exact regular
  | cons row rest ih =>
      match row with
      | [] => exact regular
      | [_] => exact regular
      | subject :: role :: values =>
          cases change with
          | add => exact ih (regular.addLink subject role values.head?).1
          | remove => exact ih (regular.deleteLink subject role values.head?).1

theorem Regular.applyAll_add (regular : manager.Regular) (type : String) {rows : List Row}
    (long : ∀ row ∈ rows, 2 ≤ row.length) :
    (manager.applyAll type .add rows).2.Regular ∧
      SameRules manager (manager.applyAll type .add rows).2 ∧
      ∀ link, (manager.applyAll type .add rows).2.Has link ↔ link.In rows ∨ manager.Has link := by
  induction rows generalizing manager with
  | nil => exact ⟨regular, .refl _, fun link => by simp [RoleManager.applyAll, RoleLink.In]⟩
  | cons row rest ih =>
      obtain ⟨first, others⟩ := List.forall_mem_cons.mp long
      match row, first with
      | subject :: role :: values, _ =>
          obtain ⟨added, same, stored⟩ := regular.addLink subject role values.head?
          obtain ⟨well, same', stored'⟩ := ih added others
          refine ⟨well, same.trans same', fun link => (stored' link).trans ?_⟩
          rw [stored, RoleLink.in_cons]
          tauto

theorem Regular.applyAll_remove (regular : manager.Regular) (type : String) {rows : List Row}
    (long : ∀ row ∈ rows, 2 ≤ row.length) :
    (manager.applyAll type .remove rows).2.Regular ∧
      SameRules manager (manager.applyAll type .remove rows).2 ∧
      ∀ link, (manager.applyAll type .remove rows).2.Has link ↔
        ¬link.In rows ∧ manager.Has link := by
  induction rows generalizing manager with
  | nil => exact ⟨regular, .refl _, fun link => by simp [RoleManager.applyAll, RoleLink.In]⟩
  | cons row rest ih =>
      obtain ⟨first, others⟩ := List.forall_mem_cons.mp long
      match row, first with
      | subject :: role :: values, _ =>
          obtain ⟨removed, same, stored⟩ := regular.deleteLink subject role values.head?
          obtain ⟨well, same', stored'⟩ := ih removed others
          refine ⟨well, same.trans same', fun link => (stored' link).trans ?_⟩
          rw [stored, RoleLink.in_cons]
          tauto

end RoleManager

/-! ## The rules of a role type -/

/-- What the manager of a role type is built by, apart from the rows. -/
structure RoleRules where
  kind : RoleManagerKind
  maxLevel : Nat
  namePredicates : List NamePredicate := []
  domainPredicates : List NamePredicate := []

namespace RoleRules

/-- A new manager that is told of all predicates in order. -/
def fresh (rules : RoleRules) : RoleManager :=
  let named := rules.namePredicates.foldl RoleManager.addNamePredicate
    (.empty rules.kind rules.maxLevel)
  rules.domainPredicates.foldl RoleManager.addDomainPredicate named

/-- A new manager with a link for each row, built from scratch. -/
def scratch (rules : RoleRules) (table : RowTable) : Except Error Unit × RoleManager :=
  rules.fresh.applyAll table.type .add table.rows

theorem bare_fresh (rules : RoleRules) : rules.fresh.Bare :=
  ((RoleManager.bare_empty rules.kind rules.maxLevel).addNamePredicates _).addDomainPredicates _

end RoleRules

namespace RoleType

/-- The rules that a role type has come to. -/
def rules (type : RoleType) : RoleRules where
  kind := type.manager.kind
  maxLevel := type.manager.maxLevel
  namePredicates := type.namePredicates
  domainPredicates := type.domainPredicates

/-- The manager of a role type is in step with its rules and rows. -/
structure InStep (type : RoleType) : Prop where
  regular : type.manager.Regular
  rules : RoleManager.SameRules type.rules.fresh type.manager
  links : ∀ link, type.manager.Has link ↔ link.In type.table.rows

variable {type : RoleType}

/-- A manager in step answers as one that is built from scratch. -/
theorem InStep.sameAnswers (inStep : type.InStep) (well : type.table.WellFormed)
    (arity : 2 ≤ type.table.arity) :
    (type.rules.scratch type.table).1 = .ok () ∧
      RoleManager.SameAnswers (type.rules.scratch type.table).2 type.manager := by
  have long : ∀ row ∈ type.table.rows, 2 ≤ row.length := fun row member =>
    well.arity row member ▸ arity
  obtain ⟨regular, none⟩ := type.rules.bare_fresh
  obtain ⟨built, same, stored⟩ := regular.applyAll_add type.table.type long
  refine ⟨RoleManager.applyAll_fst _ _ _ long, ?_⟩
  refine RoleManager.sameAnswers built inStep.regular (same.symm.trans inStep.rules) fun link => ?_
  refine (inStep.links link).trans (((stored link).trans ?_).symm)
  exact or_iff_left (none link)

/-! ## Building links anew -/

/-- A role type with its links built in another manager. -/
def linkedIn (type : RoleType) (manager : RoleManager) : RoleType :=
  { type with manager }.buildLinks.2

theorem buildLinks_fst (well : type.table.WellFormed) (arity : 2 ≤ type.table.arity) :
    type.buildLinks.1 = .ok () :=
  RoleManager.applyAll_fst _ _ _ fun row member => well.arity row member ▸ arity

theorem sameRules_restart (type : RoleType) :
    RoleManager.SameRules type.rules.fresh
      (type.manager.restart type.namePredicates type.domainPredicates) := by
  have cleared : RoleManager.SameRules (.empty type.manager.kind type.manager.maxLevel)
      type.manager.clear := by
    cases type.manager <;> exact ⟨rfl, rfl, rfl⟩
  exact (cleared.addNamePredicates _).addDomainPredicates _

theorem InStep.replace (rules : RoleManager.SameRules type.rules.fresh type.manager)
    {manager : RoleManager} {table : RowTable} (regular : manager.Regular)
    (same : RoleManager.SameRules type.manager manager)
    (links : ∀ link, manager.Has link ↔ link.In table.rows) :
    InStep { type with table, manager } ∧ RoleType.rules { type with table, manager } = type.rules := by
  have kept : RoleType.rules { type with table, manager } = type.rules := by
    simp only [RoleType.rules, same.kind, same.maxLevel]
  exact ⟨⟨regular, kept ▸ rules.trans same, links⟩, kept⟩

theorem inStep_buildLinks (type : RoleType) (well : type.table.WellFormed)
    (arity : 2 ≤ type.table.arity) :
    type.buildLinks.2.InStep ∧ type.buildLinks.2.rules = type.rules := by
  have long : ∀ row ∈ type.table.rows, 2 ≤ row.length := fun row member =>
    well.arity row member ▸ arity
  obtain ⟨regular, none⟩ :=
    type.manager.bare_restart type.namePredicates type.domainPredicates
  obtain ⟨built, same, stored⟩ := regular.applyAll_add type.table.type long
  obtain ⟨kind, bound⟩ := type.manager.restart_kind type.namePredicates type.domainPredicates
  have kept : type.buildLinks.2.rules = type.rules := by
    unfold RoleType.rules
    rw [← kind, ← bound, ← same.kind, ← same.maxLevel]
    rfl
  exact ⟨⟨built, kept ▸ type.sameRules_restart.trans same, fun link =>
    (stored link).trans (or_iff_left (none link))⟩, kept⟩

theorem regular_buildLinks (type : RoleType) : type.buildLinks.2.manager.Regular :=
  (type.manager.bare_restart _ _).1.applyAll _ _ _

/-! ## Following the rows -/

/-- A role type with its links brought in step with a change of its rows. -/
def follow (type : RoleType) (delta : RowDelta) : RoleType :=
  ((type.changeLinks .remove delta.removed).2.changeLinks .add delta.added).2

theorem changeLinks_fst (type : RoleType) (change : LinkChange) {rows : List Row}
    (long : ∀ row ∈ rows, 2 ≤ row.length) : (type.changeLinks change rows).1 = .ok () := by
  unfold changeLinks
  cases change with
  | add => exact RoleManager.applyAll_fst _ _ _ long
  | remove =>
      exact RoleManager.applyAll_fst _ _ _ fun row member =>
        long row (List.mem_of_mem_filter member)

theorem regular_follow (regular : type.manager.Regular) (delta : RowDelta) :
    (type.follow delta).manager.Regular :=
  (regular.applyAll _ _ _).applyAll _ _ _

/-- A link stays just if a row that is left or new stands for it, however many rows there are that
    stand for the same link. -/
theorem stays_iff {table table' : RowTable} {delta : RowDelta} (well : table.WellFormed)
    (arity : 2 ≤ table.arity) (outcome : table.Outcome (some delta) table') (link : RoleLink) :
    (link.In delta.added ∨
        ¬link.In (delta.removed.filter fun row => !table'.rows.any (sameLink row)) ∧
          link.In table.rows) ↔ link.In table'.rows := by
  have accounts := outcome.accounts delta rfl
  have lengths {row row' : Row} (gone : row ∈ delta.removed) (stored : row' ∈ table'.rows) :
      2 ≤ row.length ∧ row.length = row'.length := by
    rw [well.arity row (accounts.present row gone), outcome.well.arity row' stored,
      outcome.shape.arity]
    exact ⟨arity, rfl⟩
  constructor
  · rintro (⟨row, added, stands⟩ | ⟨kept, row, before, stands⟩)
    · exact ⟨row, (accounts.stored row).mpr (.inl added), stands⟩
    · by_cases gone : row ∈ delta.removed
      · -- the row is gone, but its link is kept for another one
        have shared : table'.rows.any (sameLink row) = true := by
          by_contra alone
          exact kept ⟨row, List.mem_filter.mpr ⟨gone, by simpa using alone⟩, stands⟩
        obtain ⟨row', stored, same⟩ := List.any_eq_true.mp shared
        obtain ⟨long, length⟩ := lengths gone stored
        exact ⟨row', stored, ((sameLink_iff long length).mp same).symm.trans stands⟩
      · exact ⟨row, (accounts.stored row).mpr (.inr ⟨gone, before⟩), stands⟩
  · rintro ⟨row, stored, stands⟩
    rcases (accounts.stored row).mp stored with added | ⟨_, before⟩
    · exact .inl ⟨row, added, stands⟩
    · refine .inr ⟨?_, row, before, stands⟩
      rintro ⟨row', dropped, stands'⟩
      obtain ⟨gone, alone⟩ := List.mem_filter.mp dropped
      obtain ⟨long, length⟩ := lengths gone stored
      have same : sameLink row' row = true :=
        (sameLink_iff long length).mpr (stands'.trans stands.symm)
      have shared : table'.rows.any (sameLink row') = true := List.any_eq_true.mpr ⟨row, stored, same⟩
      simp [shared] at alone

/-- A role type stays in step when a change of its rows is followed. -/
theorem InStep.follow (inStep : type.InStep) (well : type.table.WellFormed)
    (arity : 2 ≤ type.table.arity) {delta : RowDelta} {table : RowTable}
    (outcome : type.table.Outcome (some delta) table) :
    ({ type with table }.follow delta).InStep ∧
      ({ type with table }.follow delta).rules = type.rules := by
  have accounts := outcome.accounts delta rfl
  have removed : ∀ row ∈ delta.removed.filter fun row => !table.rows.any (sameLink row),
      2 ≤ row.length := fun row member =>
    well.arity row (accounts.present row (List.mem_of_mem_filter member)) ▸ arity
  have added : ∀ row ∈ delta.added, 2 ≤ row.length := fun row member => by
    rw [outcome.well.arity row ((accounts.stored row).mpr (.inl member)), outcome.shape.arity]
    exact arity
  obtain ⟨regular, same, stored⟩ := inStep.regular.applyAll_remove table.type removed
  obtain ⟨regular', same', stored'⟩ := regular.applyAll_add table.type added
  refine InStep.replace inStep.rules regular' (same.trans same') fun link => ?_
  refine (stored' link).trans ?_
  rw [stored, inStep.links]
  exact stays_iff well arity outcome link

theorem InStep.remember (inStep : type.InStep) (name role : String) (domain : Option String) :
    InStep { type with manager := type.manager.remember name role domain } ∧
      RoleType.rules { type with manager := type.manager.remember name role domain } =
        type.rules := by
  obtain ⟨regular, same, stored⟩ := inStep.regular.remember name role domain
  exact InStep.replace inStep.rules regular same fun link => (stored link).trans (inStep.links link)

/-! ## Predicates -/

theorem rules_addNamePredicate (type : RoleType) (holds : NamePredicate) :
    (type.addNamePredicate holds).rules =
      { type.rules with namePredicates := type.namePredicates ++ [holds] } := by
  cases type with
  | mk table manager => cases manager <;> rfl

theorem rules_addDomainPredicate (type : RoleType) (holds : NamePredicate) :
    (type.addDomainPredicate holds).rules =
      { type.rules with domainPredicates := type.domainPredicates ++ [holds] } := by
  cases type with
  | mk table manager => cases manager <;> rfl

theorem InStep.addNamePredicate (inStep : type.InStep) (holds : NamePredicate) :
    (type.addNamePredicate holds).InStep where
  regular := inStep.regular.addNamePredicate holds
  rules := by
    rw [rules_addNamePredicate]
    unfold RoleRules.fresh
    rw [List.foldl_append]
    exact (RoleManager.sameRules_addNamePredicate_comm _ _ _).trans
      (inStep.rules.addNamePredicate holds)
  links link :=
    (RoleManager.has_addNamePredicate type.manager holds link).trans (inStep.links link)

theorem InStep.addDomainPredicate (inStep : type.InStep) (holds : NamePredicate) :
    (type.addDomainPredicate holds).InStep where
  regular := inStep.regular.addDomainPredicate holds
  rules := by
    rw [rules_addDomainPredicate]
    unfold RoleRules.fresh
    rw [List.foldl_append]
    exact inStep.rules.addDomainPredicate holds
  links link :=
    (RoleManager.has_addDomainPredicate type.manager holds link).trans (inStep.links link)

end RoleType

end AccessControl
