import AccessControl.Proofs.Roles.Manager
import Mathlib.Data.Finset.Basic

/-! # What a role manager has been told

A manager is told of links and predicates, is asked, and is cleared again. What it has been told
since then is a set of links and two lists of predicates. In every run a manager stores just these
links, whatever it is asked in between and whatever answers it remembers or drops.
-/

namespace AccessControl

/-- What is asked of a manager, and what it is told of links. -/
inductive LinkOperation where
  | add (subject role : String) (domain : Option String)
  | delete (subject role : String) (domain : Option String)
  | clear
  | check (name role : String) (domain : Option String)
  | roles (name : String) (domain : Option String)
  | users (role : String) (domain : Option String)
  | domains (name : String)
  /-- Some remembered answers are dropped, at whatever moment. -/
  | drop (kept : String × String × String → Bool)

/-- All that a manager can be told. -/
inductive ManagerOperation where
  | link (operation : LinkOperation)
  | addNamePredicate (holds : NamePredicate)
  | addDomainPredicate (holds : NamePredicate)

inductive LinkAnswer where
  | flag (answer : Bool)
  | names (names : List String)
  | done
  deriving DecidableEq

namespace RoleManager

/-- An empty manager with indices, which remembers at most so many answers and drops those that
    `victim` picks. -/
def indexedWith (maxLevel capacity : Nat) (victim : List (String × String × String) → Nat) :
    RoleManager :=
  .indexed { RoleGraph.empty maxLevel with answers := { capacity, victim } }

/-- Drop the answers to all role checks but some. -/
def restrict (manager : RoleManager) (kept : String × String × String → Bool) : RoleManager :=
  match manager with
  | .indexed graph => .indexed { graph with answers := graph.answers.restrict kept }
  | .listed list => .listed list

def take (manager : RoleManager) : LinkOperation → LinkAnswer × RoleManager
  | .add subject role domain => (manager.addLink subject role domain).map .flag id
  | .delete subject role domain => (manager.deleteLink subject role domain).map .flag id
  | .clear => (.done, manager.clear)
  | .check name role domain => (manager.ask name role domain).map .flag id
  | .roles name domain => (.names (manager.getRoles name domain), manager)
  | .users role domain => (.names (manager.getUsers role domain), manager)
  | .domains name => (.names (manager.getDomains name), manager)
  | .drop kept => (.done, manager.restrict kept)

/-- The answers to operations one after another. -/
def answers (manager : RoleManager) : List LinkOperation → List LinkAnswer
  | [] => []
  | operation :: rest => (manager.take operation).1 :: (manager.take operation).2.answers rest

def step (manager : RoleManager) : ManagerOperation → RoleManager
  | .link operation => (manager.take operation).2
  | .addNamePredicate holds => manager.addNamePredicate holds
  | .addDomainPredicate holds => manager.addDomainPredicate holds

/-- The manager after operations one after another. -/
def run (manager : RoleManager) (operations : List ManagerOperation) : RoleManager :=
  operations.foldl step manager

end RoleManager

/-- What a manager has been told since it was last cleared. -/
structure Told where
  links : Finset RoleLink := ∅
  namePredicates : List NamePredicate := []
  domainPredicates : List NamePredicate := []

namespace Told

def take (told : Told) : LinkOperation → Told
  | .add subject role domain =>
    { told with links := insert ⟨subject, role, domain.getD defaultDomain⟩ told.links }
  | .delete subject role domain =>
    { told with links := told.links.erase ⟨subject, role, domain.getD defaultDomain⟩ }
  | .clear => {}
  | _ => told

def step (told : Told) : ManagerOperation → Told
  | .link operation => told.take operation
  | .addNamePredicate holds => { told with namePredicates := told.namePredicates ++ [holds] }
  | .addDomainPredicate holds => { told with domainPredicates := told.domainPredicates ++ [holds] }

/-- What is told by operations one after another. -/
def ofRun (operations : List ManagerOperation) : Told := operations.foldl step {}

end Told

namespace RoleManager

/-- A manager is as it should be after it has been told something. -/
structure Knows (maxLevel : Nat) (told : Told) (manager : RoleManager) : Prop where
  regular : manager.Regular
  maxLevel : manager.maxLevel = maxLevel
  predicates : manager.predicates = (told.namePredicates, told.domainPredicates)
  links : ∀ link, manager.Has link ↔ link ∈ told.links

variable {maxLevel : Nat} {told : Told} {manager : RoleManager}

theorem Knows.changed (knows : manager.Knows maxLevel told) {manager' : RoleManager}
    (regular : manager'.Regular) (rules : SameRules manager manager') {links : Finset RoleLink}
    (stored : ∀ link, manager'.Has link ↔ link ∈ links) :
    manager'.Knows maxLevel { told with links } :=
  ⟨regular, rules.maxLevel.trans knows.maxLevel, rules.predicates.trans knows.predicates, stored⟩

theorem Bare.knows (bare : manager.Bare) (plain : manager.predicates = ([], [])) :
    manager.Knows manager.maxLevel {} := by
  obtain ⟨regular, none⟩ := bare
  refine ⟨regular, rfl, plain, ?_⟩
  intro link
  simp [none link]

theorem knows_indexedWith (maxLevel capacity : Nat)
    (victim : List (String × String × String) → Nat) :
    (indexedWith maxLevel capacity victim).Knows maxLevel {} := by
  have regular : (indexedWith maxLevel capacity victim).Regular :=
    RoleGraph.regular_of_no_domains rfl rfl
  refine Bare.knows ⟨regular, ?_⟩ rfl
  intro link stored
  simp [Has, indexedWith, RoleGraph.empty, RoleGraph.isStored_iff, RoleGraph.linksOf,
    NameIndex.linked] at stored

theorem knows_listed (maxLevel : Nat) : (empty .listed maxLevel).Knows maxLevel {} :=
  (bare_empty .listed maxLevel).knows rfl

theorem Knows.clear (knows : manager.Knows maxLevel told) :
    manager.clear.Knows maxLevel {} := by
  have plain : manager.clear.predicates = ([], []) := by cases manager <;> rfl
  have bound : manager.clear.maxLevel = maxLevel := by
    rw [← knows.maxLevel]
    cases manager <;> rfl
  have cleared := manager.bare_clear.knows plain
  rwa [bound] at cleared

theorem Knows.restrict (knows : manager.Knows maxLevel told)
    (kept : String × String × String → Bool) : (manager.restrict kept).Knows maxLevel told := by
  obtain ⟨regular, bound, predicates, links⟩ := knows
  cases manager with
  | indexed graph =>
      exact ⟨⟨regular.keys, regular.links, regular.answers.restrict kept⟩, bound, predicates, links⟩
  | listed list => exact ⟨regular, bound, predicates, links⟩

theorem Knows.take (knows : manager.Knows maxLevel told) (operation : LinkOperation) :
    (manager.take operation).2.Knows maxLevel (told.take operation) := by
  cases operation with
  | add subject role domain =>
      obtain ⟨regular, rules, stored⟩ := knows.regular.addLink subject role domain
      apply knows.changed regular rules
      intro link
      rw [Finset.mem_insert, ← knows.links]
      exact stored link
  | delete subject role domain =>
      obtain ⟨regular, rules, stored⟩ := knows.regular.deleteLink subject role domain
      apply knows.changed regular rules
      intro link
      rw [Finset.mem_erase, ← knows.links]
      exact stored link
  | check name role domain =>
      obtain ⟨regular, rules, stored⟩ := knows.regular.remember name role domain
      apply knows.changed regular rules
      intro link
      rw [← knows.links]
      exact stored link
  | clear => exact knows.clear
  | drop kept => exact knows.restrict kept
  | roles | users | domains => exact knows

theorem kind_take (manager : RoleManager) (operation : LinkOperation) :
    (manager.take operation).2.kind = manager.kind := by
  cases manager <;> cases operation <;> rfl

theorem kind_step (manager : RoleManager) (operation : ManagerOperation) :
    (manager.step operation).kind = manager.kind := by
  cases operation with
  | link operation => exact kind_take manager operation
  | addNamePredicate | addDomainPredicate => cases manager <;> rfl

/-- A manager with indices is as it should be after every operation. -/
theorem Knows.step (knows : manager.Knows maxLevel told) (indexed : manager.kind = .indexed)
    (operation : ManagerOperation) :
    (manager.step operation).Knows maxLevel (told.step operation) := by
  cases manager with
  | listed list => cases indexed
  | indexed graph =>
      obtain ⟨regular, bound, predicates, links⟩ := id knows
      obtain ⟨names, domains⟩ := Prod.mk.inj predicates
      cases operation with
      | link operation => exact knows.take operation
      | addNamePredicate holds =>
          refine ⟨@Regular.addNamePredicate (.indexed graph) regular holds, bound, ?_, links⟩
          exact Prod.ext (congrArg (· ++ [holds]) names) domains
      | addDomainPredicate holds =>
          refine ⟨@Regular.addDomainPredicate (.indexed graph) regular holds, bound, ?_, links⟩
          exact Prod.ext names (congrArg (· ++ [holds]) domains)

theorem Knows.run (knows : manager.Knows maxLevel told) (indexed : manager.kind = .indexed)
    (operations : List ManagerOperation) :
    (manager.run operations).Knows maxLevel (operations.foldl Told.step told) := by
  induction operations generalizing manager told with
  | nil => exact knows
  | cons operation rest ih =>
      exact ih (knows.step indexed operation) ((manager.kind_step operation).trans indexed)

end RoleManager

end AccessControl
