import AccessControl.Proofs.Roles.Graph
import AccessControl.Proofs.Roles.Search
import AccessControl.Roles.Type

/-! # What a role manager answers depends on its rules and links only

The two kinds of role managers are seen alike: as a kind, a bound, predicates, and a set of links.
Regular managers that agree in these give the same answers.
-/

namespace AccessControl

/-! ## Graphs as they are built and asked -/

namespace RoleGraph

variable {graph : RoleGraph}

theorem regular_of_no_domains {graph : RoleGraph} (domains : graph.domains = [])
    (answers : graph.answers.entries = []) : graph.Regular where
  keys := by simp [domains]
  links := by simp [NameMap.All, domains]
  answers := by simp [Memo.Sound, answers]

theorem Regular.addNamePredicate (regular : graph.Regular) (holds : NamePredicate) :
    (graph.addNamePredicate holds).Regular :=
  ⟨regular.keys, regular.links, Memo.Sound.clear _ _⟩

theorem Regular.addDomainPredicate (regular : graph.Regular) (holds : NamePredicate) :
    (graph.addDomainPredicate holds).Regular :=
  ⟨regular.keys, regular.links, Memo.Sound.clear _ _⟩

theorem Regular.remember (regular : graph.Regular) (name role : String)
    (domain : Option String) : (graph.remember name role domain).Regular := by
  unfold RoleGraph.remember
  split
  · exact regular
  · rename_i apart
    refine ⟨regular.keys, regular.links, regular.answers.insert ?_⟩
    show graph.hasLink name role domain = graph.reaches name role (domain.getD defaultDomain)
    rw [regular.hasLink_eq]
    simp [apart]

end RoleGraph

/-! ## Lists of links -/

namespace LinkList

variable {list list' : LinkList}

theorem mem_rolesOf (list : LinkList) (domain name role : String) :
    role ∈ list.rolesOf domain name ↔ { subject := name, role, domain } ∈ list.links := by
  simp only [rolesOf, List.mem_map, List.mem_filter, Bool.and_eq_true, beq_iff_eq]
  constructor
  · rintro ⟨link, ⟨member, rfl, rfl⟩, rfl⟩
    exact member
  · exact fun member => ⟨_, ⟨member, rfl, rfl⟩, rfl⟩

theorem mem_usersOf (list : LinkList) (domain role subject : String) :
    subject ∈ list.usersOf domain role ↔ { subject, role, domain } ∈ list.links := by
  simp only [usersOf, List.mem_map, List.mem_filter, Bool.and_eq_true, beq_iff_eq]
  constructor
  · rintro ⟨link, ⟨member, rfl, rfl⟩, rfl⟩
    exact member
  · exact fun member => ⟨_, ⟨member, rfl, rfl⟩, rfl⟩

theorem hasLink_congr (bound : list'.maxLevel = list.maxLevel)
    (links : ∀ link, link ∈ list'.links ↔ link ∈ list.links) : list'.hasLink = list.hasLink := by
  funext name role domain
  unfold hasLink
  rw [bound, Search.reaches_congr (fun name other => ?_) _ _ (fun _ => Iff.rfl) fun _ => Iff.rfl]
  rw [mem_rolesOf, mem_rolesOf, links]

theorem getRoles_congr (links : ∀ link, link ∈ list'.links ↔ link ∈ list.links) :
    list'.getRoles = list.getRoles := by
  funext name domain
  exact NameSet.ofList_congr fun role => by rw [mem_rolesOf, mem_rolesOf, links]

theorem getUsers_congr (links : ∀ link, link ∈ list'.links ↔ link ∈ list.links) :
    list'.getUsers = list.getUsers := by
  funext role domain
  exact NameSet.ofList_congr fun subject => by rw [mem_usersOf, mem_usersOf, links]

theorem getDomains_congr (links : ∀ link, link ∈ list'.links ↔ link ∈ list.links) :
    list'.getDomains = list.getDomains := by
  funext name
  exact NameSet.ofList_congr fun domain => by simp only [List.mem_map, List.mem_filter, links]

end LinkList

/-! ## Managers -/

namespace RoleManager

/-- Whether a link is stored. -/
def Has : RoleManager → RoleLink → Prop
  | .indexed graph, link => graph.isStored link.subject link.role link.domain = true
  | .listed list, link => link ∈ list.links

/-- What all operations of a manager keep. -/
def Regular : RoleManager → Prop
  | .indexed graph => graph.Regular
  | .listed list => list.links.Nodup

/-- The predicates on names and on domains; a list of links has none. -/
def predicates : RoleManager → List NamePredicate × List NamePredicate
  | .indexed graph => (graph.namePredicates, graph.domainPredicates)
  | .listed _ => ([], [])

/-- Two managers are of the same kind, and have the same bound and predicates. -/
structure SameRules (manager manager' : RoleManager) : Prop where
  kind : manager'.kind = manager.kind
  maxLevel : manager'.maxLevel = manager.maxLevel
  predicates : manager'.predicates = manager.predicates

theorem SameRules.refl (manager : RoleManager) : SameRules manager manager := ⟨rfl, rfl, rfl⟩

theorem SameRules.symm {manager manager' : RoleManager} (h : SameRules manager manager') :
    SameRules manager' manager := ⟨h.kind.symm, h.maxLevel.symm, h.predicates.symm⟩

theorem SameRules.trans {manager manager' manager'' : RoleManager} (h : SameRules manager manager')
    (h' : SameRules manager' manager'') : SameRules manager manager'' :=
  ⟨h'.kind.trans h.kind, h'.maxLevel.trans h.maxLevel, h'.predicates.trans h.predicates⟩

/-- Two managers give the same answers to all questions. -/
structure SameAnswers (manager manager' : RoleManager) : Prop where
  hasLink : manager'.hasLink = manager.hasLink
  getRoles : manager'.getRoles = manager.getRoles
  getUsers : manager'.getUsers = manager.getUsers
  getDomains : manager'.getDomains = manager.getDomains

variable {manager manager' : RoleManager}

/-- The answers of a regular manager are determined by its rules and its links. -/
theorem sameAnswers (regular : manager.Regular) (regular' : manager'.Regular)
    (rules : SameRules manager manager') (links : ∀ link, manager'.Has link ↔ manager.Has link) :
    SameAnswers manager manager' := by
  cases manager with
  | indexed graph =>
      cases manager' with
      | listed list => exact (by simpa [kind] using rules.kind)
      | indexed graph' =>
          obtain ⟨names, domains⟩ := Prod.mk.inj rules.predicates
          have same : RoleGraph.SameRules graph graph' := ⟨rules.maxLevel, names, domains⟩
          have stored (subject role domain) :
              graph'.isStored subject role domain = graph.isStored subject role domain :=
            Bool.eq_iff_iff.mpr (links { subject, role, domain })
          have steps := RoleGraph.rolesOf_congr regular regular' same stored
          have users := RoleGraph.usersOf_congr regular regular' same stored
          refine ⟨RoleGraph.hasLink_congr regular regular' same stored, ?_, ?_,
            RoleGraph.getDomains_congr regular regular' stored⟩
          · funext name domain
            exact congrFun (congrFun steps (domain.getD defaultDomain)) name
          · funext role domain
            exact congrFun (congrFun users (domain.getD defaultDomain)) role
  | listed list =>
      cases manager' with
      | indexed graph => exact (by simpa [kind] using rules.kind)
      | listed list' =>
          exact ⟨LinkList.hasLink_congr rules.maxLevel links, LinkList.getRoles_congr links,
            LinkList.getUsers_congr links, LinkList.getDomains_congr links⟩

/-! ## Changing the links of a manager -/

theorem Regular.addLink (regular : manager.Regular) (subject role : String)
    (domain : Option String) :
    (manager.addLink subject role domain).2.Regular ∧
      SameRules manager (manager.addLink subject role domain).2 ∧
      ∀ link, (manager.addLink subject role domain).2.Has link ↔
        link = { subject, role, domain := domain.getD defaultDomain } ∨ manager.Has link := by
  cases manager with
  | indexed graph =>
      obtain ⟨well, rules, stored⟩ := RoleGraph.Regular.addLink regular subject role domain
      refine ⟨well, ⟨rfl, rules.maxLevel, ?_⟩, fun link => ?_⟩
      · exact Prod.ext rules.namePredicates rules.domainPredicates
      · obtain ⟨subject', role', domain'⟩ := link
        rw [RoleLink.mk.injEq]
        exact stored subject' role' domain'
  | listed list =>
      simp only [RoleManager.addLink, LinkList.addLink]
      split
      · rename_i stored
        refine ⟨regular, .refl _, fun link => ⟨.inr, ?_⟩⟩
        rintro (rfl | present)
        · exact List.contains_iff_mem.mp stored
        · exact present
      · rename_i absent
        rw [List.contains_iff_mem] at absent
        refine ⟨?_, ⟨rfl, rfl, rfl⟩, fun link => ?_⟩
        · exact List.nodup_append.mpr ⟨regular, List.nodup_singleton _, fun link member other last =>
            fun same => absent (List.mem_singleton.mp last ▸ same ▸ member)⟩
        · simp only [Has, List.mem_append, List.mem_singleton]
          exact or_comm

theorem Regular.deleteLink (regular : manager.Regular) (subject role : String)
    (domain : Option String) :
    (manager.deleteLink subject role domain).2.Regular ∧
      SameRules manager (manager.deleteLink subject role domain).2 ∧
      ∀ link, (manager.deleteLink subject role domain).2.Has link ↔
        link ≠ { subject, role, domain := domain.getD defaultDomain } ∧ manager.Has link := by
  cases manager with
  | indexed graph =>
      obtain ⟨well, rules, stored⟩ := RoleGraph.Regular.deleteLink regular subject role domain
      refine ⟨well, ⟨rfl, rules.maxLevel, ?_⟩, fun link => ?_⟩
      · exact Prod.ext rules.namePredicates rules.domainPredicates
      · obtain ⟨subject', role', domain'⟩ := link
        rw [ne_eq, RoleLink.mk.injEq]
        exact stored subject' role' domain'
  | listed list =>
      simp only [RoleManager.deleteLink, LinkList.deleteLink]
      split
      · refine ⟨List.Nodup.erase _ regular, ⟨rfl, rfl, rfl⟩, fun link => ?_⟩
        exact List.Nodup.mem_erase_iff regular
      · rename_i absent
        rw [List.contains_iff_mem] at absent
        refine ⟨regular, .refl _, fun link => ⟨fun present => ⟨?_, present⟩, And.right⟩⟩
        rintro rfl
        exact absent present

theorem Regular.remember (regular : manager.Regular) (name role : String)
    (domain : Option String) :
    (manager.remember name role domain).Regular ∧
      SameRules manager (manager.remember name role domain) ∧
      ∀ link, (manager.remember name role domain).Has link ↔ manager.Has link := by
  cases manager with
  | indexed graph =>
      refine ⟨RoleGraph.Regular.remember regular name role domain, ?_⟩
      simp only [RoleManager.remember, RoleGraph.remember]
      split <;> exact ⟨⟨rfl, rfl, rfl⟩, fun _ => Iff.rfl⟩
  | listed list => exact ⟨regular, .refl _, fun _ => Iff.rfl⟩

/-! ## Predicates -/

theorem Regular.addNamePredicate (regular : manager.Regular) (holds : NamePredicate) :
    (manager.addNamePredicate holds).Regular := by
  cases manager with
  | indexed graph => exact RoleGraph.Regular.addNamePredicate regular holds
  | listed list => exact regular

theorem Regular.addDomainPredicate (regular : manager.Regular) (holds : NamePredicate) :
    (manager.addDomainPredicate holds).Regular := by
  cases manager with
  | indexed graph => exact RoleGraph.Regular.addDomainPredicate regular holds
  | listed list => exact regular

theorem has_addNamePredicate (manager : RoleManager) (holds : NamePredicate) (link : RoleLink) :
    (manager.addNamePredicate holds).Has link ↔ manager.Has link := by
  cases manager <;> exact Iff.rfl

theorem has_addDomainPredicate (manager : RoleManager) (holds : NamePredicate) (link : RoleLink) :
    (manager.addDomainPredicate holds).Has link ↔ manager.Has link := by
  cases manager <;> exact Iff.rfl

theorem SameRules.addNamePredicate (same : SameRules manager manager') (holds : NamePredicate) :
    SameRules (manager.addNamePredicate holds) (manager'.addNamePredicate holds) := by
  obtain ⟨kind, bound, predicates⟩ := same
  cases manager <;> cases manager' <;> simp only [RoleManager.kind, reduceCtorEq] at kind
  · obtain ⟨names, domains⟩ := Prod.mk.inj predicates
    exact ⟨rfl, bound, Prod.ext (congrArg (· ++ [holds]) names) domains⟩
  · exact ⟨rfl, bound, rfl⟩

theorem SameRules.addDomainPredicate (same : SameRules manager manager') (holds : NamePredicate) :
    SameRules (manager.addDomainPredicate holds) (manager'.addDomainPredicate holds) := by
  obtain ⟨kind, bound, predicates⟩ := same
  cases manager <;> cases manager' <;> simp only [RoleManager.kind, reduceCtorEq] at kind
  · obtain ⟨names, domains⟩ := Prod.mk.inj predicates
    exact ⟨rfl, bound, Prod.ext names (congrArg (· ++ [holds]) domains)⟩
  · exact ⟨rfl, bound, rfl⟩

theorem SameRules.addDomainPredicates (same : SameRules manager manager')
    (predicates : List NamePredicate) :
    SameRules (predicates.foldl RoleManager.addDomainPredicate manager)
      (predicates.foldl RoleManager.addDomainPredicate manager') := by
  induction predicates generalizing manager manager' with
  | nil => exact same
  | cons holds rest ih => exact ih (same.addDomainPredicate holds)

theorem SameRules.addNamePredicates (same : SameRules manager manager')
    (predicates : List NamePredicate) :
    SameRules (predicates.foldl RoleManager.addNamePredicate manager)
      (predicates.foldl RoleManager.addNamePredicate manager') := by
  induction predicates generalizing manager manager' with
  | nil => exact same
  | cons holds rest ih => exact ih (same.addNamePredicate holds)

/-- A predicate on names may come before or after those on domains. -/
theorem sameRules_addNamePredicate_comm (manager : RoleManager) (holds : NamePredicate)
    (predicates : List NamePredicate) :
    SameRules (predicates.foldl RoleManager.addDomainPredicate (manager.addNamePredicate holds))
      ((predicates.foldl RoleManager.addDomainPredicate manager).addNamePredicate holds) := by
  induction predicates generalizing manager with
  | nil => exact .refl _
  | cons other rest ih =>
      have swapped : SameRules ((manager.addNamePredicate holds).addDomainPredicate other)
          ((manager.addDomainPredicate other).addNamePredicate holds) := by
        cases manager <;> exact ⟨rfl, rfl, rfl⟩
      exact (swapped.addDomainPredicates rest).trans (ih _)

/-! ## Managers without links -/

/-- A regular manager without links. -/
def Bare (manager : RoleManager) : Prop := manager.Regular ∧ ∀ link, ¬manager.Has link

theorem bare_empty (kind : RoleManagerKind) (maxLevel : Nat) : (empty kind maxLevel).Bare := by
  cases kind with
  | indexed =>
      refine ⟨RoleGraph.regular_of_no_domains rfl rfl, fun link stored => ?_⟩
      simp [Has, empty, RoleGraph.empty, RoleGraph.isStored_iff, RoleGraph.linksOf,
        NameIndex.linked] at stored
  | listed => exact ⟨List.nodup_nil, fun link => List.not_mem_nil⟩

theorem bare_clear (manager : RoleManager) : manager.clear.Bare := by
  cases manager with
  | indexed graph =>
      refine ⟨RoleGraph.regular_of_no_domains rfl rfl, fun link stored => ?_⟩
      simp [Has, clear, RoleGraph.clear, RoleGraph.forget, RoleGraph.isStored_iff,
        RoleGraph.linksOf, NameIndex.linked] at stored
  | listed list => exact ⟨List.nodup_nil, fun link => List.not_mem_nil⟩

theorem Bare.addNamePredicates (bare : manager.Bare) (predicates : List NamePredicate) :
    (predicates.foldl RoleManager.addNamePredicate manager).Bare := by
  induction predicates generalizing manager with
  | nil => exact bare
  | cons holds rest ih =>
      exact ih ⟨bare.1.addNamePredicate holds, fun link stored =>
        bare.2 link ((has_addNamePredicate manager holds link).mp stored)⟩

theorem Bare.addDomainPredicates (bare : manager.Bare) (predicates : List NamePredicate) :
    (predicates.foldl RoleManager.addDomainPredicate manager).Bare := by
  induction predicates generalizing manager with
  | nil => exact bare
  | cons holds rest ih =>
      exact ih ⟨bare.1.addDomainPredicate holds, fun link stored =>
        bare.2 link ((has_addDomainPredicate manager holds link).mp stored)⟩

theorem bare_restart (manager : RoleManager) (names domains : List NamePredicate) :
    (manager.restart names domains).Bare :=
  (manager.bare_clear.addNamePredicates names).addDomainPredicates domains

private theorem foldl_kind (add : RoleManager → NamePredicate → RoleManager)
    (keeps : ∀ manager holds,
      (add manager holds).kind = manager.kind ∧ (add manager holds).maxLevel = manager.maxLevel)
    (predicates : List NamePredicate) (manager : RoleManager) :
    (predicates.foldl add manager).kind = manager.kind ∧
      (predicates.foldl add manager).maxLevel = manager.maxLevel := by
  induction predicates generalizing manager with
  | nil => exact ⟨rfl, rfl⟩
  | cons holds rest ih =>
      obtain ⟨kind, bound⟩ := ih (add manager holds)
      exact ⟨kind.trans (keeps manager holds).1, bound.trans (keeps manager holds).2⟩

theorem restart_kind (manager : RoleManager) (names domains : List NamePredicate) :
    (manager.restart names domains).kind = manager.kind ∧
      (manager.restart names domains).maxLevel = manager.maxLevel := by
  have cleared : manager.clear.kind = manager.kind ∧ manager.clear.maxLevel = manager.maxLevel := by
    cases manager <;> exact ⟨rfl, rfl⟩
  have named := foldl_kind RoleManager.addNamePredicate
    (fun manager holds => by cases manager <;> exact ⟨rfl, rfl⟩) names manager.clear
  have settled := foldl_kind RoleManager.addDomainPredicate
    (fun manager holds => by cases manager <;> exact ⟨rfl, rfl⟩) domains
    (names.foldl RoleManager.addNamePredicate manager.clear)
  exact ⟨(settled.1.trans named.1).trans cleared.1, (settled.2.trans named.2).trans cleared.2⟩

end RoleManager

end AccessControl
