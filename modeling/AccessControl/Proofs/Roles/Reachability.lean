import AccessControl.Proofs.Roles.History
import AccessControl.Proofs.Roles.Walk

/-! # Role checks are bounded reachability

A name has a role if it stands for it, or if a walk along stored links leads from it to a name that
the role stands for. The walk takes at least one step and at most as many as the manager follows. No
predicate needs to be symmetric, links may run in cycles, and a queried domain may stand for several
stored ones, whose links then mix in one walk.
-/

namespace AccessControl

/-- A queried name or domain stands for a stored one: it is the same, or some predicate says so. -/
def Stands (predicates : List NamePredicate) (query stored : String) : Prop :=
  query = stored ∨ ∃ holds ∈ predicates, holds query stored = true

theorem RoleGraph.stands_iff (predicates : List NamePredicate) (query stored : String) :
    RoleGraph.stands predicates query stored = true ↔ Stands predicates query stored := by
  simp [RoleGraph.stands, Stands]

theorem stands_nil_iff (query stored : String) : Stands [] query stored ↔ query = stored := by
  simp [Stands]

/-- A step leads from a name to a role: the name stands for the subject of a link to the role, in a
    domain that the queried one stands for. -/
def Told.Leads (told : Told) (domain name role : String) : Prop :=
  ∃ link ∈ told.links, Stands told.domainPredicates domain link.domain ∧
    Stands told.namePredicates name link.subject ∧ link.role = role

/-- A name has a role, directly or through links. -/
def Told.HasRole (told : Told) (maxLevel : Nat) (domain name role : String) : Prop :=
  Stands told.namePredicates name role ∨
    ∃ hops last, 1 ≤ hops ∧ hops ≤ maxLevel ∧ Walk (told.Leads domain) hops name last ∧
      Stands told.namePredicates role last

namespace RoleManager

variable {maxLevel : Nat} {told : Told} {graph : RoleGraph} {list : LinkList}

theorem Knows.isStored_iff (knows : (indexed graph).Knows maxLevel told)
    (subject role domain : String) :
    graph.isStored subject role domain = true ↔ ⟨subject, role, domain⟩ ∈ told.links :=
  knows.links ⟨subject, role, domain⟩

theorem Knows.mem_links (knows : (listed list).Knows maxLevel told) (link : RoleLink) :
    link ∈ list.links ↔ link ∈ told.links :=
  knows.links link

theorem Knows.nameStands_iff (knows : (indexed graph).Knows maxLevel told)
    (query stored : String) :
    graph.nameStands query stored = true ↔ Stands told.namePredicates query stored := by
  rw [← (Prod.mk.inj knows.predicates).1]
  exact RoleGraph.stands_iff graph.namePredicates query stored

theorem Knows.domainStands_iff (knows : (indexed graph).Knows maxLevel told)
    (query stored : String) :
    graph.domainStands query stored = true ↔ Stands told.domainPredicates query stored := by
  rw [← (Prod.mk.inj knows.predicates).2]
  exact RoleGraph.stands_iff graph.domainPredicates query stored

theorem Knows.stands_iff_eq (knows : (listed list).Knows maxLevel told) (query stored : String) :
    (Stands told.namePredicates query stored ↔ query = stored) ∧
      (Stands told.domainPredicates query stored ↔ query = stored) := by
  obtain ⟨names, domains⟩ := Prod.mk.inj knows.predicates
  rw [← names, ← domains]
  exact ⟨stands_nil_iff query stored, stands_nil_iff query stored⟩

theorem Knows.leads_iff_rolesOf (knows : (indexed graph).Knows maxLevel told)
    (domain name role : String) :
    told.Leads domain name role ↔ role ∈ graph.rolesOf domain name := by
  rw [RoleGraph.Regular.mem_rolesOf knows.regular]
  simp only [knows.isStored_iff, knows.nameStands_iff, knows.domainStands_iff]
  constructor
  · rintro ⟨⟨subject, role, stored⟩, member, domains, names, rfl⟩
    exact ⟨stored, subject, domains, names, member⟩
  · rintro ⟨stored, subject, domains, names, member⟩
    exact ⟨⟨subject, role, stored⟩, member, domains, names, rfl⟩

theorem Knows.leads_iff_listed (knows : (listed list).Knows maxLevel told)
    (domain name role : String) :
    told.Leads domain name role ↔ role ∈ list.rolesOf domain name := by
  rw [LinkList.mem_rolesOf, knows.mem_links]
  simp only [Told.Leads, knows.stands_iff_eq]
  constructor
  · rintro ⟨⟨subject, role, stored⟩, member, rfl, rfl, rfl⟩
    exact member
  · intro member
    exact ⟨⟨name, role, domain⟩, member, rfl, rfl, rfl⟩

/-- Either kind of manager finds the roles that there are walks to, and no others. -/
theorem Knows.hasLink_iff {manager : RoleManager} (knows : manager.Knows maxLevel told)
    (name role : String) (domain : Option String) :
    manager.hasLink name role domain = true ↔
      told.HasRole maxLevel (domain.getD defaultDomain) name role := by
  have bound := knows.maxLevel
  cases manager with
  | indexed graph =>
      have steps : Search.Leads (graph.rolesOf (domain.getD defaultDomain)) =
          told.Leads (domain.getD defaultDomain) := by
        funext name role
        exact propext (knows.leads_iff_rolesOf _ name role).symm
      simp only [RoleManager.maxLevel] at bound
      simp only [hasLink, RoleGraph.Regular.hasLink_eq knows.regular, Bool.or_eq_true,
        RoleGraph.reaches, Search.reaches_iff_walk, knows.nameStands_iff, steps, bound,
        Told.HasRole]
  | listed list =>
      have steps : Search.Leads (list.rolesOf (domain.getD defaultDomain)) =
          told.Leads (domain.getD defaultDomain) := by
        funext name role
        exact propext (knows.leads_iff_listed _ name role).symm
      simp only [RoleManager.maxLevel] at bound
      simp only [hasLink, LinkList.hasLink, Bool.or_eq_true, Search.reaches_iff_walk,
        beq_iff_eq, knows.stands_iff_eq, steps, bound, Told.HasRole, eq_comm (a := role)]

/-- After every run of a manager with indices, a role check answers whether there is a walk along
    the links that are stored, whichever answers the manager remembers and drops. -/
theorem hasLink_run_iff (maxLevel capacity : Nat)
    (victim : List (String × String × String) → Nat) (operations : List ManagerOperation)
    (name role : String) (domain : Option String) :
    ((indexedWith maxLevel capacity victim).run operations).hasLink name role domain = true ↔
      (Told.ofRun operations).HasRole maxLevel (domain.getD defaultDomain) name role := by
  have knows := (knows_indexedWith maxLevel capacity victim).run rfl operations
  exact knows.hasLink_iff name role domain

end RoleManager

end AccessControl
