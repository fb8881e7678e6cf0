import AccessControl.Proofs.Roles.Reachability
import AccessControl.Proofs.Roles.Type

/-! # Role types without predicates

Where names and domains stand for themselves only, a role check depends on the grouping rows of its
domain and on the bound of the manager, and on nothing else.
-/

namespace AccessControl

theorem Walk.exists_last {step : String → String → Prop} {hops : Nat} {name last : String}
    (walk : Walk step hops name last) (moves : 1 ≤ hops) : ∃ before, step before last := by
  induction walk with
  | stay => omega
  | @on hops name next last first rest ih =>
      cases rest with
      | stay => exact ⟨name, first⟩
      | on second others => exact ih (by omega)

/-- Some row links a subject with a role in a domain. -/
def RowTable.Links (table : RowTable) (domain subject role : String) : Prop :=
  RoleLink.In { subject, role, domain } table.rows

namespace RowTable

variable {table : RowTable} {domain subject role : String}

theorem Links.exists_row (links : table.Links domain subject role) :
    ∃ row ∈ table.rows, row.head? = some subject ∧ row[1]? = some role := by
  obtain ⟨row, stored, stands⟩ := links
  match row, stands with
  | subject' :: role' :: rest, stands =>
      obtain ⟨rfl, rfl, _⟩ := RoleLink.mk.inj (Option.some.inj stands)
      exact ⟨_, stored, rfl, rfl⟩

/-- What the rows tell a manager: their links. -/
def told (table : RowTable) : Told :=
  { links := (table.rows.filterMap RoleLink.ofRow?).toFinset }

theorem mem_told {link : RoleLink} : link ∈ table.told.links ↔ link.In table.rows := by
  simp [told, RoleLink.In]

theorem leads_told (table : RowTable) (domain : String) :
    table.told.Leads domain = table.Links domain := by
  funext subject role
  simp only [Told.Leads, mem_told, Links, eq_iff_iff]
  simp only [told, stands_nil_iff]
  constructor
  · rintro ⟨⟨subject, role, domain⟩, stored, rfl, rfl, rfl⟩
    exact stored
  · exact fun stored => ⟨⟨subject, role, domain⟩, stored, rfl, rfl, rfl⟩

theorem WellFormed.links_iff (h : table.WellFormed) (wide : table.arity = 3) :
    table.Links domain subject role ↔ [subject, role, domain] ∈ table.rows := by
  constructor
  · rintro ⟨row, stored, stands⟩
    have length := (h.arity row stored).trans wide
    match row, length, stands with
    | [subject', role', domain'], _, stands =>
        obtain ⟨rfl, rfl, rfl⟩ := RoleLink.mk.inj (Option.some.inj stands)
        exact stored
  · exact fun stored => ⟨_, stored, rfl⟩

theorem WellFormed.links_default_iff (h : table.WellFormed) (wide : table.arity = 2) :
    table.Links defaultDomain subject role ↔ [subject, role] ∈ table.rows := by
  constructor
  · rintro ⟨row, stored, stands⟩
    have length := (h.arity row stored).trans wide
    match row, length, stands with
    | [subject', role'], _, stands =>
        obtain ⟨rfl, rfl, _⟩ := RoleLink.mk.inj (Option.some.inj stands)
        exact stored
  · exact fun stored => ⟨_, stored, rfl⟩

end RowTable

namespace RoleType

variable {type type' : RoleType}

/-- No predicates are registered. -/
structure Plain (type : RoleType) : Prop where
  names : type.namePredicates = []
  domains : type.domainPredicates = []

theorem Plain.congr (plain : type.Plain) (same : type'.rules = type.rules) : type'.Plain :=
  ⟨(congrArg RoleRules.namePredicates same).trans plain.names,
    (congrArg RoleRules.domainPredicates same).trans plain.domains⟩

theorem InStep.knows (inStep : type.InStep) (plain : type.Plain) :
    type.manager.Knows type.manager.maxLevel type.table.told := by
  refine ⟨inStep.regular, rfl, ?_, fun link => ?_⟩
  · have predicates := inStep.rules.predicates
    unfold RoleRules.fresh RoleType.rules at predicates
    rw [plain.names, plain.domains] at predicates
    rw [predicates]
    cases type.manager <;> rfl
  · rw [inStep.links]
    exact type.table.mem_told.symm

/-- A name has itself, and the roles that links of the domain lead to. -/
theorem InStep.hasLink_iff (inStep : type.InStep) (plain : type.Plain) (name role : String)
    (domain : Option String) :
    type.manager.hasLink name role domain = true ↔
      name = role ∨ ∃ hops, 1 ≤ hops ∧ hops ≤ type.manager.maxLevel ∧
        Walk (type.table.Links (domain.getD defaultDomain)) hops name role := by
  rw [(inStep.knows plain).hasLink_iff]
  unfold Told.HasRole
  rw [type.table.leads_told]
  simp only [RowTable.told, stands_nil_iff]
  constructor
  · rintro (same | ⟨hops, last, least, most, walk, rfl⟩)
    · exact .inl same
    · exact .inr ⟨hops, least, most, walk⟩
  · rintro (same | ⟨hops, least, most, walk⟩)
    · exact .inl same
    · exact .inr ⟨hops, role, least, most, walk, rfl⟩

/-- Role checks of a domain depend on the links of that domain and on the bound. -/
theorem InStep.hasLink_congr (inStep : type.InStep) (plain : type.Plain) (inStep' : type'.InStep)
    (plain' : type'.Plain) (bound : type'.manager.maxLevel = type.manager.maxLevel)
    {domain : Option String}
    (links : type'.table.Links (domain.getD defaultDomain) =
      type.table.Links (domain.getD defaultDomain)) (name role : String) :
    type'.manager.hasLink name role domain = type.manager.hasLink name role domain := by
  rw [Bool.eq_iff_iff, inStep.hasLink_iff plain, inStep'.hasLink_iff plain', bound, links]

theorem InStep.hasLink_of_no_role (inStep : type.InStep) (plain : type.Plain) {name : String}
    {domain : Option String} (none : ∀ role, ¬type.table.Links (domain.getD defaultDomain) name role)
    (role : String) : type.manager.hasLink name role domain = true ↔ name = role := by
  rw [inStep.hasLink_iff plain]
  refine ⟨?_, .inl⟩
  rintro (same | ⟨hops, least, _, walk⟩)
  · exact same
  · cases walk with
    | stay => omega
    | on first rest => exact absurd first (none _)

theorem InStep.hasLink_of_no_subject (inStep : type.InStep) (plain : type.Plain) {role : String}
    {domain : Option String}
    (none : ∀ subject, ¬type.table.Links (domain.getD defaultDomain) subject role) (name : String) :
    type.manager.hasLink name role domain = true ↔ name = role := by
  rw [inStep.hasLink_iff plain]
  refine ⟨?_, .inl⟩
  rintro (same | ⟨hops, least, _, walk⟩)
  · exact same
  · obtain ⟨before, last⟩ := walk.exists_last least
    exact absurd last (none before)

end RoleType

end AccessControl
