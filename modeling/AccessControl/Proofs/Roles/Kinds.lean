import AccessControl.Proofs.Roles.Reachability

/-! # The two kinds of role managers answer alike

A manager with indices keeps every link twice, by domain, and remembers answers; a list of links is
scanned for every question. As long as there are no predicates, both have been told the same, and
each answer is settled by that. The order of listed names is settled too, as sets are in order.
-/

namespace AccessControl

namespace RoleManager

variable {maxLevel : Nat} {told : Told} {manager manager' : RoleManager}

theorem addLink_fst (manager : RoleManager) (subject role : String) (domain : Option String) :
    (manager.addLink subject role domain).1 = true ↔
      ¬manager.Has ⟨subject, role, domain.getD defaultDomain⟩ := by
  cases manager with
  | indexed graph =>
      simp only [RoleManager.addLink, RoleGraph.addLink, Has]
      split <;> simp_all
  | listed list =>
      simp only [RoleManager.addLink, LinkList.addLink, Has, List.contains_iff_mem]
      split <;> simp_all

theorem deleteLink_fst (manager : RoleManager) (subject role : String) (domain : Option String) :
    (manager.deleteLink subject role domain).1 = true ↔
      manager.Has ⟨subject, role, domain.getD defaultDomain⟩ := by
  cases manager with
  | indexed graph =>
      simp only [RoleManager.deleteLink, RoleGraph.deleteLink, Has]
      split <;> simp_all
  | listed list =>
      simp only [RoleManager.deleteLink, LinkList.deleteLink, Has, List.contains_iff_mem]
      split <;> simp_all

/-! ## Listed names -/

theorem Knows.mem_getRoles (knows : manager.Knows maxLevel told) (name : String)
    (domain : Option String) (role : String) :
    role ∈ manager.getRoles name domain ↔ told.Leads (domain.getD defaultDomain) name role := by
  cases manager with
  | indexed graph => exact (knows.leads_iff_rolesOf _ name role).symm
  | listed list =>
      rw [knows.leads_iff_listed]
      exact NameSet.mem_ofList _ role

theorem Knows.mem_getUsers (knows : manager.Knows maxLevel told) (role : String)
    (domain : Option String) (subject : String) :
    subject ∈ manager.getUsers role domain ↔
      ∃ link ∈ told.links, Stands told.domainPredicates (domain.getD defaultDomain) link.domain ∧
        Stands told.namePredicates role link.role ∧ link.subject = subject := by
  cases manager with
  | indexed graph =>
      refine (RoleGraph.Regular.mem_usersOf knows.regular _ role subject).trans ?_
      simp only [knows.isStored_iff, knows.nameStands_iff, knows.domainStands_iff]
      constructor
      · rintro ⟨stored, role, domains, names, member⟩
        exact ⟨⟨subject, role, stored⟩, member, domains, names, rfl⟩
      · rintro ⟨⟨subject, role, stored⟩, member, domains, names, rfl⟩
        exact ⟨stored, role, domains, names, member⟩
  | listed list =>
      refine (NameSet.mem_ofList _ subject).trans ?_
      rw [LinkList.mem_usersOf, knows.mem_links]
      simp only [knows.stands_iff_eq]
      constructor
      · intro member
        exact ⟨⟨subject, role, _⟩, member, rfl, rfl, rfl⟩
      · rintro ⟨⟨subject, role, stored⟩, member, rfl, rfl, rfl⟩
        exact member

theorem Knows.mem_getDomains (knows : manager.Knows maxLevel told) (name domain : String) :
    domain ∈ manager.getDomains name ↔
      domain ≠ defaultDomain ∧
        ∃ link ∈ told.links, link.domain = domain ∧ (link.subject = name ∨ link.role = name) := by
  cases manager with
  | indexed graph =>
      refine (RoleGraph.Regular.mem_getDomains knows.regular name domain).trans ?_
      simp only [knows.isStored_iff]
      refine and_congr_right fun _ => ⟨?_, ?_⟩
      · rintro ⟨other, member | member⟩
        · exact ⟨_, member, rfl, .inl rfl⟩
        · exact ⟨_, member, rfl, .inr rfl⟩
      · rintro ⟨⟨subject, role, stored⟩, member, rfl, rfl | rfl⟩
        · exact ⟨role, .inl member⟩
        · exact ⟨subject, .inr member⟩
  | listed list =>
      refine (NameSet.mem_ofList _ domain).trans ?_
      simp only [List.mem_map, List.mem_filter, knows.mem_links, Bool.and_eq_true, bne_iff_ne,
        Bool.or_eq_true, beq_iff_eq]
      constructor
      · rintro ⟨link, ⟨member, other, here⟩, rfl⟩
        exact ⟨other, link, member, rfl, here⟩
      · rintro ⟨other, link, member, rfl, here⟩
        exact ⟨link, ⟨member, other, here⟩, rfl⟩

theorem sorted_getRoles (manager : RoleManager) (name : String) (domain : Option String) :
    (manager.getRoles name domain).Sorted := by
  cases manager <;> exact NameSet.sorted_ofList _

theorem sorted_getUsers (manager : RoleManager) (role : String) (domain : Option String) :
    (manager.getUsers role domain).Sorted := by
  cases manager <;> exact NameSet.sorted_ofList _

theorem sorted_getDomains (manager : RoleManager) (name : String) :
    (manager.getDomains name).Sorted := by
  cases manager <;> exact NameSet.sorted_ofList _

/-! ## Managers that have been told the same -/

/-- What managers have been told settles their answer to every operation. -/
theorem Knows.take_fst (knows : manager.Knows maxLevel told)
    (knows' : manager'.Knows maxLevel told) (operation : LinkOperation) :
    (manager.take operation).1 = (manager'.take operation).1 := by
  cases operation with
  | add subject role domain =>
      have same : (manager.addLink subject role domain).1 =
          (manager'.addLink subject role domain).1 := by
        rw [Bool.eq_iff_iff, addLink_fst, addLink_fst, knows.links, knows'.links]
      exact congrArg LinkAnswer.flag same
  | delete subject role domain =>
      have same : (manager.deleteLink subject role domain).1 =
          (manager'.deleteLink subject role domain).1 := by
        rw [Bool.eq_iff_iff, deleteLink_fst, deleteLink_fst, knows.links, knows'.links]
      exact congrArg LinkAnswer.flag same
  | check name role domain =>
      apply congrArg LinkAnswer.flag
      rw [Bool.eq_iff_iff]
      exact (knows.hasLink_iff name role domain).trans (knows'.hasLink_iff name role domain).symm
  | roles name domain =>
      apply congrArg LinkAnswer.names
      apply (manager.sorted_getRoles name domain).ext (manager'.sorted_getRoles name domain)
      intro role
      rw [knows.mem_getRoles, knows'.mem_getRoles]
  | users role domain =>
      apply congrArg LinkAnswer.names
      apply (manager.sorted_getUsers role domain).ext (manager'.sorted_getUsers role domain)
      intro subject
      rw [knows.mem_getUsers, knows'.mem_getUsers]
  | domains name =>
      apply congrArg LinkAnswer.names
      apply (manager.sorted_getDomains name).ext (manager'.sorted_getDomains name)
      intro domain
      rw [knows.mem_getDomains, knows'.mem_getDomains]
  | clear | drop => rfl

theorem Knows.answers (knows : manager.Knows maxLevel told)
    (knows' : manager'.Knows maxLevel told) (operations : List LinkOperation) :
    manager.answers operations = manager'.answers operations := by
  induction operations generalizing manager manager' told with
  | nil => rfl
  | cons operation rest ih =>
      unfold RoleManager.answers
      rw [knows.take_fst knows' operation, ih (knows.take operation) (knows'.take operation)]

/-- An empty manager with indices and an empty list of links give the same answers to every sequence
    of operations on links, whatever the first one remembers. -/
theorem answers_indexed_eq_listed (maxLevel capacity : Nat)
    (victim : List (String × String × String) → Nat) (operations : List LinkOperation) :
    (indexedWith maxLevel capacity victim).answers operations =
      (empty .listed maxLevel).answers operations :=
  (knows_indexedWith maxLevel capacity victim).answers (knows_listed maxLevel) operations

end RoleManager

end AccessControl
