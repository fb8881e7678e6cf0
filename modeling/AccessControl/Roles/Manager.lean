import AccessControl.Roles.LinkList

/-! # Role managers

The role graph behind a role type is one of two kinds, which answer the same questions.
-/

namespace AccessControl

inductive RoleManager where
  | indexed (graph : RoleGraph)
  | listed (list : LinkList)

/-- The two kinds of role managers. -/
inductive RoleManagerKind where
  | indexed
  | listed
  deriving DecidableEq

namespace RoleManager

def empty (kind : RoleManagerKind) (maxLevel : Nat := defaultMaxLevel) : RoleManager :=
  match kind with
  | .indexed => .indexed (RoleGraph.empty maxLevel)
  | .listed => .listed { maxLevel }

def kind : RoleManager → RoleManagerKind
  | .indexed _ => .indexed
  | .listed _ => .listed

def maxLevel : RoleManager → Nat
  | .indexed graph => graph.maxLevel
  | .listed list => list.maxLevel

def addLink (manager : RoleManager) (subject role : String) (domain : Option String) :
    Bool × RoleManager :=
  match manager with
  | .indexed graph =>
    let (added, graph) := graph.addLink subject role domain
    (added, .indexed graph)
  | .listed list =>
    let (added, list) := list.addLink subject role domain
    (added, .listed list)

def deleteLink (manager : RoleManager) (subject role : String) (domain : Option String) :
    Bool × RoleManager :=
  match manager with
  | .indexed graph =>
    let (removed, graph) := graph.deleteLink subject role domain
    (removed, .indexed graph)
  | .listed list =>
    let (removed, list) := list.deleteLink subject role domain
    (removed, .listed list)

/-- Whether a name has a role, through any number of links that the manager follows. -/
def hasLink (manager : RoleManager) (name role : String) (domain : Option String) : Bool :=
  match manager with
  | .indexed graph => graph.hasLink name role domain
  | .listed list => list.hasLink name role domain

/-- The manager after it has answered `hasLink`. -/
def remember (manager : RoleManager) (name role : String) (domain : Option String) : RoleManager :=
  match manager with
  | .indexed graph => .indexed (graph.remember name role domain)
  | .listed list => .listed list

/-- Answer `hasLink`, and remember the answer. -/
def ask (manager : RoleManager) (name role : String) (domain : Option String) :
    Bool × RoleManager :=
  (manager.hasLink name role domain, manager.remember name role domain)

def getRoles (manager : RoleManager) (name : String) (domain : Option String) : NameSet :=
  match manager with
  | .indexed graph => graph.getRoles name domain
  | .listed list => list.getRoles name domain

def getUsers (manager : RoleManager) (role : String) (domain : Option String) : NameSet :=
  match manager with
  | .indexed graph => graph.getUsers role domain
  | .listed list => list.getUsers role domain

def getDomains (manager : RoleManager) (name : String) : NameSet :=
  match manager with
  | .indexed graph => graph.getDomains name
  | .listed list => list.getDomains name

/-- Let queried names stand for stored ones. A list of links takes no predicates. -/
def addNamePredicate (manager : RoleManager) (holds : NamePredicate) : RoleManager :=
  match manager with
  | .indexed graph => .indexed (graph.addNamePredicate holds)
  | .listed list => .listed list

/-- Let queried domains stand for stored ones. A list of links takes no predicates. -/
def addDomainPredicate (manager : RoleManager) (holds : NamePredicate) : RoleManager :=
  match manager with
  | .indexed graph => .indexed (graph.addDomainPredicate holds)
  | .listed list => .listed list

def clear (manager : RoleManager) : RoleManager :=
  match manager with
  | .indexed graph => .indexed graph.clear
  | .listed list => .listed list.clear

/-- The number of links, where the manager counts them. -/
def linkCount? : RoleManager → Option Nat
  | .indexed graph => some graph.linkCount
  | .listed _ => none

/-- An upper bound on the number of names that can be reached. -/
def linkBound : RoleManager → Nat
  | .indexed graph => graph.linkCount
  | .listed list => list.links.length

end RoleManager

end AccessControl
