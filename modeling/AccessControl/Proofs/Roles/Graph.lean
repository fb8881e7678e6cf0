import AccessControl.Proofs.Memo
import AccessControl.Proofs.Roles.NameSet
import AccessControl.Roles.Graph

/-! # What a role graph answers depends on its links only

A graph keeps every link twice, in indices by domain, and remembers answers. In a regular graph all
this agrees, so that its answers are determined by its predicates, its bound, and the links that it
stores; not by the order in which they came or the questions that have been asked.
-/

namespace AccessControl

/-- The two indices of a domain hold the same links. -/
structure DomainLinks.Regular (links : DomainLinks) : Prop where
  roles : NameIndex.Regular links.roles
  users : NameIndex.Regular links.users
  mirror : ∀ subject role,
    subject ∈ links.users.linked role ↔ role ∈ links.roles.linked subject

namespace RoleGraph

/-- The answer to a query that is neither settled by the names nor remembered. -/
def Answers (graph : RoleGraph) (key : String × String × String) (answer : Bool) : Prop :=
  answer = graph.reaches key.1 key.2.1 key.2.2

/-- What all operations of a graph keep. -/
structure Regular (graph : RoleGraph) : Prop where
  keys : (graph.domains.map (·.1)).Nodup
  links : NameMap.All DomainLinks.Regular graph.domains
  answers : graph.answers.Sound graph.Answers

variable {graph : RoleGraph}

/-! ## Looking up -/

theorem stands_nil (query stored : String) : stands [] query stored = true ↔ query = stored := by
  simp [stands]

theorem regular_default : DomainLinks.Regular {} where
  roles := NameIndex.regular_nil
  users := NameIndex.regular_nil
  mirror := by simp [NameIndex.linked]

theorem Regular.linksOf (regular : graph.Regular) (domain : String) :
    (graph.linksOf domain).Regular := by
  unfold RoleGraph.linksOf
  cases found : graph.domains.lookup domain with
  | none => exact regular_default
  | some links => exact regular.links.get? found

theorem isStored_iff (subject role domain : String) :
    graph.isStored subject role domain = true ↔
      role ∈ (graph.linksOf domain).roles.linked subject := by
  unfold isStored
  exact List.contains_iff_mem

theorem Regular.isStored_iff_mem (regular : graph.Regular) (subject role domain : String) :
    graph.isStored subject role domain = true ↔
      ∃ links, (domain, links) ∈ graph.domains ∧ role ∈ links.roles.linked subject := by
  rw [isStored_iff]
  unfold RoleGraph.linksOf
  constructor
  · intro linked
    cases found : graph.domains.lookup domain with
    | none => simp [found, NameIndex.linked] at linked
    | some links => exact ⟨links, NameMap.mem_of_get? found, by simpa [found] using linked⟩
  · rintro ⟨links, member, linked⟩
    have found : graph.domains.lookup domain = some links :=
      (NameMap.get?_eq_some_iff regular.keys).mpr member
    simpa [found] using linked

theorem Regular.mem_linksIn (regular : graph.Regular) (domain : String) (links : DomainLinks) :
    links ∈ graph.linksIn domain ↔
      ∃ stored, graph.domainStands domain stored = true ∧ (stored, links) ∈ graph.domains := by
  unfold linksIn
  split
  · rename_i none
    have plain : ∀ stored, graph.domainStands domain stored = true ↔ domain = stored := by
      intro stored
      unfold domainStands
      rw [List.isEmpty_iff.mp none, stands_nil]
    simp only [plain, Option.mem_toList]
    exact (NameMap.get?_eq_some_iff regular.keys).trans (by simp)
  · simp only [List.mem_map, List.mem_filter]
    constructor
    · rintro ⟨⟨stored, links⟩, ⟨member, stands⟩, rfl⟩
      exact ⟨stored, stands, member⟩
    · rintro ⟨stored, stands, member⟩
      exact ⟨(stored, links), ⟨member, stands⟩, rfl⟩

theorem mem_linkedWith {index : NameIndex} (regular : index.Regular) (name other : String) :
    other ∈ graph.linkedWith index name ↔
      ∃ stored, graph.nameStands name stored = true ∧ other ∈ index.linked stored := by
  unfold linkedWith
  split
  · rename_i none
    have plain : ∀ stored, graph.nameStands name stored = true ↔ name = stored := by
      intro stored
      unfold nameStands
      rw [List.isEmpty_iff.mp none, stands_nil]
    simp [plain]
  · exact regular.mem_linkedWhere (graph.nameStands name) other

theorem Regular.mem_rolesOf (regular : graph.Regular) (domain name role : String) :
    role ∈ graph.rolesOf domain name ↔
      ∃ stored subject, graph.domainStands domain stored = true ∧
        graph.nameStands name subject = true ∧ graph.isStored subject role stored = true := by
  simp only [rolesOf, NameSet.mem_ofList, List.mem_flatMap, regular.mem_linksIn,
    regular.isStored_iff_mem]
  constructor
  · rintro ⟨links, ⟨stored, domainStands, member⟩, linked⟩
    obtain ⟨subject, nameStands, linked⟩ :=
      (mem_linkedWith (regular.links _ member).roles name role).mp linked
    exact ⟨stored, subject, domainStands, nameStands, links, member, linked⟩
  · rintro ⟨stored, subject, domainStands, nameStands, links, member, linked⟩
    exact ⟨links, ⟨stored, domainStands, member⟩,
      (mem_linkedWith (regular.links _ member).roles name role).mpr ⟨subject, nameStands, linked⟩⟩

theorem Regular.mem_usersOf (regular : graph.Regular) (domain role subject : String) :
    subject ∈ graph.usersOf domain role ↔
      ∃ stored role', graph.domainStands domain stored = true ∧
        graph.nameStands role role' = true ∧ graph.isStored subject role' stored = true := by
  simp only [usersOf, NameSet.mem_ofList, List.mem_flatMap, regular.mem_linksIn,
    regular.isStored_iff_mem]
  constructor
  · rintro ⟨links, ⟨stored, domainStands, member⟩, linked⟩
    have mirrored := (regular.links _ member).mirror
    obtain ⟨role', nameStands, linked⟩ :=
      (mem_linkedWith (regular.links _ member).users role subject).mp linked
    exact ⟨stored, role', domainStands, nameStands, links, member, (mirrored _ _).mp linked⟩
  · rintro ⟨stored, role', domainStands, nameStands, links, member, linked⟩
    have mirrored := (regular.links _ member).mirror
    exact ⟨links, ⟨stored, domainStands, member⟩,
      (mem_linkedWith (regular.links _ member).users role subject).mpr
        ⟨role', nameStands, (mirrored _ _).mpr linked⟩⟩

theorem Regular.mem_getDomains (regular : graph.Regular) (name domain : String) :
    domain ∈ graph.getDomains name ↔
      domain ≠ defaultDomain ∧ ∃ other, graph.isStored name other domain = true ∨
        graph.isStored other name domain = true := by
  simp only [getDomains, NameSet.mem_ofList, List.mem_map, List.mem_filter,
    regular.isStored_iff_mem, Bool.and_eq_true, Bool.or_eq_true, bne_iff_ne, ne_eq]
  constructor
  · rintro ⟨⟨stored, links⟩, ⟨member, other, entry⟩, rfl⟩
    have regular := regular.links _ member
    refine ⟨other, ?_⟩
    rcases entry with entry | entry
    · obtain ⟨role, linked⟩ := (regular.roles.hasEntry_iff name).mp entry
      exact ⟨role, .inl ⟨links, member, linked⟩⟩
    · obtain ⟨subject, linked⟩ := (regular.users.hasEntry_iff name).mp entry
      exact ⟨subject, .inr ⟨links, member, (regular.mirror _ _).mp linked⟩⟩
  · rintro ⟨other, linked, ⟨links, member, role⟩ | ⟨links, member, subject⟩⟩
    · exact ⟨(domain, links), ⟨member, other,
        .inl (((regular.links _ member).roles.hasEntry_iff name).mpr ⟨linked, role⟩)⟩, rfl⟩
    · exact ⟨(domain, links), ⟨member, other,
        .inr (((regular.links _ member).users.hasEntry_iff name).mpr
          ⟨linked, ((regular.links _ member).mirror _ _).mpr subject⟩)⟩, rfl⟩

/-- What is remembered does not show in the answer. -/
theorem Regular.hasLink_eq (regular : graph.Regular) (name role : String)
    (domain : Option String) :
    graph.hasLink name role domain =
      (graph.nameStands name role || graph.reaches name role (domain.getD defaultDomain)) := by
  unfold hasLink
  simp only
  cases found : graph.answers.get? (name, role, domain.getD defaultDomain) with
  | none => rfl
  | some answer =>
      obtain rfl : answer = graph.reaches name role _ := regular.answers.get? found
      rfl

/-! ## What the answers depend on -/

/-- Two graphs have the same bound and predicates. -/
structure SameRules (graph graph' : RoleGraph) : Prop where
  maxLevel : graph'.maxLevel = graph.maxLevel
  namePredicates : graph'.namePredicates = graph.namePredicates
  domainPredicates : graph'.domainPredicates = graph.domainPredicates

theorem SameRules.refl (graph : RoleGraph) : SameRules graph graph := ⟨rfl, rfl, rfl⟩

variable {graph' : RoleGraph}

theorem rolesOf_congr (regular : graph.Regular) (regular' : graph'.Regular)
    (rules : SameRules graph graph')
    (links : ∀ subject role domain,
      graph'.isStored subject role domain = graph.isStored subject role domain) :
    graph'.rolesOf = graph.rolesOf := by
  funext domain name
  refine NameSet.Sorted.ext (NameSet.sorted_ofList _) (NameSet.sorted_ofList _) fun role => ?_
  exact (regular'.mem_rolesOf domain name role).trans <| by
    simp only [domainStands, nameStands, rules.namePredicates, rules.domainPredicates, links]
    exact (regular.mem_rolesOf domain name role).symm

theorem usersOf_congr (regular : graph.Regular) (regular' : graph'.Regular)
    (rules : SameRules graph graph')
    (links : ∀ subject role domain,
      graph'.isStored subject role domain = graph.isStored subject role domain) :
    graph'.usersOf = graph.usersOf := by
  funext domain role
  refine NameSet.Sorted.ext (NameSet.sorted_ofList _) (NameSet.sorted_ofList _) fun subject => ?_
  exact (regular'.mem_usersOf domain role subject).trans <| by
    simp only [domainStands, nameStands, rules.namePredicates, rules.domainPredicates, links]
    exact (regular.mem_usersOf domain role subject).symm

theorem getDomains_congr (regular : graph.Regular) (regular' : graph'.Regular)
    (links : ∀ subject role domain,
      graph'.isStored subject role domain = graph.isStored subject role domain) :
    graph'.getDomains = graph.getDomains := by
  funext name
  refine NameSet.Sorted.ext (NameSet.sorted_ofList _) (NameSet.sorted_ofList _) fun domain => ?_
  exact (regular'.mem_getDomains name domain).trans <| by
    simp only [links]
    exact (regular.mem_getDomains name domain).symm

theorem hasLink_congr (regular : graph.Regular) (regular' : graph'.Regular)
    (rules : SameRules graph graph')
    (links : ∀ subject role domain,
      graph'.isStored subject role domain = graph.isStored subject role domain) :
    graph'.hasLink = graph.hasLink := by
  funext name role domain
  have steps := rolesOf_congr regular regular' rules links
  have stands : graph'.nameStands = graph.nameStands := by
    funext query stored
    simp only [nameStands, rules.namePredicates]
  rw [regular.hasLink_eq, regular'.hasLink_eq]
  unfold reaches
  rw [steps, stands, rules.maxLevel]

/-! ## Changing the links -/

theorem linksOf_setLinks (graph : RoleGraph) (domain : String) (links : DomainLinks)
    (other : String) :
    ((graph.setLinks domain links).linksOf other).roles =
      if other = domain then links.roles else (graph.linksOf other).roles := by
  have others := NameMap.get?_filter_ne graph.domains domain other
  unfold NameMap.get? at others
  unfold linksOf setLinks
  simp only
  split
  · rename_i empty
    rw [others]
    split
    · exact (List.isEmpty_iff.mp empty).symm
    · rfl
  · rw [List.lookup_append, others]
    split
    · rename_i same
      simp [same]
    · rename_i differ
      simp [List.lookup_cons, beq_eq_false_iff_ne.mpr differ]

theorem isStored_setLinks (graph : RoleGraph) (domain : String) (links : DomainLinks)
    (subject role other : String) :
    (graph.setLinks domain links).isStored subject role other = true ↔
      if other = domain then role ∈ links.roles.linked subject
      else graph.isStored subject role other = true := by
  rw [isStored_iff, linksOf_setLinks]
  split
  · rfl
  · exact (isStored_iff subject role other).symm

theorem Regular.setLinks (regular : graph.Regular) (domain : String) {links : DomainLinks}
    (replaced : links.Regular) : (graph.setLinks domain links).forget.Regular := by
  have sublist := List.filter_sublist (p := fun entry => entry.1 != domain) (l := graph.domains)
  have keys := regular.keys.sublist (sublist.map (·.1))
  have others : NameMap.All DomainLinks.Regular (graph.domains.filter (·.1 != domain)) :=
    fun entry member => regular.links entry (List.mem_of_mem_filter member)
  refine ⟨?_, ?_, Memo.Sound.clear _ _⟩
  · show (List.map _ (if _ then _ else _)).Nodup
    split
    · exact keys
    · rw [List.map_append]
      refine List.nodup_append.mpr ⟨keys, List.nodup_singleton domain, fun key member => ?_⟩
      obtain ⟨entry, kept, rfl⟩ := List.mem_map.mp member
      have differ := (List.mem_filter.mp kept).2
      simpa using differ
  · show NameMap.All DomainLinks.Regular (if _ then _ else _)
    split
    · exact others
    · intro entry member
      rcases List.mem_append.mp member with member | member
      · exact others entry member
      · obtain rfl := List.mem_singleton.mp member
        exact replaced

theorem Regular.addLink (regular : graph.Regular) (subject role : String)
    (domain : Option String) :
    (graph.addLink subject role domain).2.Regular ∧
      SameRules graph (graph.addLink subject role domain).2 ∧
      ∀ subject' role' domain',
        (graph.addLink subject role domain).2.isStored subject' role' domain' = true ↔
          (subject' = subject ∧ role' = role ∧ domain' = domain.getD defaultDomain) ∨
            graph.isStored subject' role' domain' = true := by
  unfold RoleGraph.addLink
  simp only
  split
  · rename_i stored
    refine ⟨regular, .refl graph, fun subject' role' domain' => ⟨.inr, ?_⟩⟩
    rintro (⟨rfl, rfl, rfl⟩ | present)
    · exact stored
    · exact present
  · have before := regular.linksOf (domain.getD defaultDomain)
    refine ⟨regular.setLinks _ ⟨before.roles.link subject role, before.users.link role subject, ?_⟩,
      ⟨rfl, rfl, rfl⟩, fun subject' role' domain' => ?_⟩
    · intro subject' role'
      simp only [NameIndex.mem_linked_link, before.mirror, and_comm]
    · refine (isStored_setLinks graph _ _ subject' role' domain').trans ?_
      split
      · rename_i same
        rw [NameIndex.mem_linked_link, isStored_iff, same]
        simp
      · rename_i differ
        simp [differ]

theorem Regular.deleteLink (regular : graph.Regular) (subject role : String)
    (domain : Option String) :
    (graph.deleteLink subject role domain).2.Regular ∧
      SameRules graph (graph.deleteLink subject role domain).2 ∧
      ∀ subject' role' domain',
        (graph.deleteLink subject role domain).2.isStored subject' role' domain' = true ↔
          ¬(subject' = subject ∧ role' = role ∧ domain' = domain.getD defaultDomain) ∧
            graph.isStored subject' role' domain' = true := by
  unfold RoleGraph.deleteLink
  simp only
  split
  · have before := regular.linksOf (domain.getD defaultDomain)
    refine ⟨regular.setLinks _
      ⟨before.roles.unlink subject role, before.users.unlink role subject, ?_⟩,
      ⟨rfl, rfl, rfl⟩, fun subject' role' domain' => ?_⟩
    · intro subject' role'
      rw [before.users.mem_linked_unlink, before.roles.mem_linked_unlink, before.mirror, and_comm]
      simp only [and_comm]
    · refine (isStored_setLinks graph _ _ subject' role' domain').trans ?_
      split
      · rename_i same
        rw [before.roles.mem_linked_unlink, isStored_iff, same]
        simp
      · rename_i differ
        simp [differ]
  · rename_i absent
    refine ⟨regular, .refl graph, fun subject' role' domain' => ⟨fun present => ⟨?_, present⟩, (·.2)⟩⟩
    rintro ⟨rfl, rfl, rfl⟩
    exact absent present

end RoleGraph

end AccessControl
