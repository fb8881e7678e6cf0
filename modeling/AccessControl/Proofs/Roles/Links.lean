import AccessControl.Proofs.Roles.Type

/-! # The links of a role manager, counted

Both kinds of role managers hold each of their links once. So managers with the same links hold the
same number of them, and role types in step with the same rows and rules answer alike.
-/

namespace AccessControl

namespace NameIndex

/-- All names of an index with those that they are linked with. -/
def pairs (index : NameIndex) : List (String × String) :=
  index.flatMap fun entry => entry.2.map fun other => (entry.1, other)

theorem length_pairs (index : NameIndex) : index.pairs.length = index.size := by
  induction index with
  | nil => rfl
  | cons entry rest ih =>
      unfold pairs at ih
      simp [pairs, size, ih]

variable {index : NameIndex} (regular : index.Regular)
include regular

theorem Regular.mem_pairs (name other : String) :
    (name, other) ∈ index.pairs ↔ other ∈ index.linked name := by
  rw [regular.mem_linked_iff]
  simp [pairs]

theorem Regular.nodup_pairs : index.pairs.Nodup := by
  refine List.nodup_flatMap.mpr ⟨fun entry member => ?_, ?_⟩
  · exact (regular.sets entry member).2.nodup.map fun _ _ same => (Prod.mk.inj same).2
  · refine (List.pairwise_map.mp regular.keys).imp fun differ pair here there => ?_
    obtain ⟨_, _, rfl⟩ := List.mem_map.mp here
    obtain ⟨_, _, same⟩ := List.mem_map.mp there
    exact differ (Prod.mk.inj same).1.symm

end NameIndex

namespace RoleGraph

/-- All links of a graph. -/
def links (graph : RoleGraph) : List RoleLink :=
  graph.domains.flatMap fun entry =>
    entry.2.roles.pairs.map fun pair => { subject := pair.1, role := pair.2, domain := entry.1 }

theorem length_links (graph : RoleGraph) : graph.links.length = graph.linkCount := by
  unfold links linkCount
  induction graph.domains with
  | nil => rfl
  | cons entry rest ih => simp [ih, NameIndex.length_pairs]

variable {graph : RoleGraph} (regular : graph.Regular)
include regular

theorem Regular.mem_links (link : RoleLink) :
    link ∈ graph.links ↔ graph.isStored link.subject link.role link.domain = true := by
  rw [regular.isStored_iff_mem]
  simp only [RoleGraph.links, List.mem_flatMap, List.mem_map]
  constructor
  · rintro ⟨⟨domain, links⟩, member, ⟨subject, role⟩, paired, rfl⟩
    exact ⟨links, member, ((regular.links _ member).roles.mem_pairs subject role).mp paired⟩
  · rintro ⟨links, member, linked⟩
    exact ⟨(link.domain, links), member, (link.subject, link.role),
      ((regular.links _ member).roles.mem_pairs _ _).mpr linked, rfl⟩

theorem Regular.nodup_links : graph.links.Nodup := by
  refine List.nodup_flatMap.mpr ⟨fun entry member => ?_, ?_⟩
  · refine (regular.links entry member).roles.nodup_pairs.map fun pair pair' same => ?_
    obtain ⟨subjects, roles, _⟩ := RoleLink.mk.inj same
    exact Prod.ext subjects roles
  · refine (List.pairwise_map.mp regular.keys).imp fun differ link here there => ?_
    obtain ⟨_, _, rfl⟩ := List.mem_map.mp here
    obtain ⟨_, _, same⟩ := List.mem_map.mp there
    exact differ (RoleLink.mk.inj same).2.2.symm

end RoleGraph

namespace RoleManager

/-- All links of a manager. -/
def links : RoleManager → List RoleLink
  | .indexed graph => graph.links
  | .listed list => list.links

theorem length_links (manager : RoleManager) : manager.links.length = manager.linkBound := by
  cases manager with
  | indexed graph => exact graph.length_links
  | listed list => rfl

variable {manager manager' : RoleManager}

theorem Regular.mem_links (regular : manager.Regular) (link : RoleLink) :
    link ∈ manager.links ↔ manager.Has link := by
  cases manager with
  | indexed graph => exact RoleGraph.Regular.mem_links regular link
  | listed list => exact Iff.rfl

theorem Regular.nodup_links (regular : manager.Regular) : manager.links.Nodup := by
  cases manager with
  | indexed graph => exact RoleGraph.Regular.nodup_links regular
  | listed list => exact regular

theorem linkBound_congr (regular : manager.Regular) (regular' : manager'.Regular)
    (links : ∀ link, manager'.Has link ↔ manager.Has link) :
    manager'.linkBound = manager.linkBound := by
  rw [← manager.length_links, ← manager'.length_links]
  refine List.Perm.length_eq ((List.perm_ext_iff_of_nodup regular'.nodup_links
    regular.nodup_links).mpr fun link => ?_)
  rw [regular'.mem_links, regular.mem_links, links]

end RoleManager

/-- Role types in step with the same rules and rows answer alike, whatever the order of the rows. -/
theorem RoleType.InStep.sameAnswers_of_mem {type type' : RoleType} (inStep : type.InStep)
    (inStep' : type'.InStep) (rules : type'.rules = type.rules)
    (rows : ∀ row, row ∈ type'.table.rows ↔ row ∈ type.table.rows) :
    type.manager.SameAnswers type'.manager ∧ type'.manager.linkBound = type.manager.linkBound := by
  have same : RoleManager.SameRules type.manager type'.manager :=
    inStep.rules.symm.trans (rules ▸ inStep'.rules)
  have links : ∀ link, type'.manager.Has link ↔ type.manager.Has link := fun link => by
    rw [inStep'.links, inStep.links]
    exact exists_congr fun row => and_congr_left fun _ => rows row
  exact ⟨RoleManager.sameAnswers inStep.regular inStep'.regular same links,
    RoleManager.linkBound_congr inStep.regular inStep'.regular links⟩

theorem RoleType.InStep.sameAnswers_of_rows {type type' : RoleType} (inStep : type.InStep)
    (inStep' : type'.InStep) (rules : type'.rules = type.rules)
    (rows : type'.table.rows = type.table.rows) :
    type.manager.SameAnswers type'.manager ∧ type'.manager.linkBound = type.manager.linkBound :=
  inStep.sameAnswers_of_mem inStep' rules fun row => by rw [rows]

end AccessControl
