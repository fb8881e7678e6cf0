import AccessControl.Matcher.Builtin
import AccessControl.Memo
import AccessControl.Roles.Index
import AccessControl.Roles.Search

/-! # Role graphs

A role graph holds links from subjects to roles, apart for each domain, and answers whether a name
has a role through a bounded number of links. Stored names and domains may be patterns: predicates
say which of them a queried name stands for. As long as there are no predicates, a step is a look-up
in an index; otherwise every entry of the index is tested. Answers are remembered until the graph
changes.
-/

namespace AccessControl

/-- The domain of links that name none. -/
def defaultDomain : String := "dotauthz::default"

/-- How many links a query follows unless it is told otherwise. -/
def defaultMaxLevel : Nat := 10

/-- The links of one domain, by either end. -/
structure DomainLinks where
  /-- The roles of each subject. -/
  roles : NameIndex := []
  /-- The subjects of each role. -/
  users : NameIndex := []

/-- A graph of roles with remembered answers. -/
structure RoleGraph where
  /-- The longest chain of links that a query follows. -/
  maxLevel : Nat := defaultMaxLevel
  domains : List (String × DomainLinks) := []
  namePredicates : List NamePredicate := []
  domainPredicates : List NamePredicate := []
  /-- Answers by name, role and domain. -/
  answers : Memo (String × String × String) Bool

namespace RoleGraph

/-- How many answers a graph remembers. -/
def answerCapacity : Nat := 4096

def empty (maxLevel : Nat := defaultMaxLevel) : RoleGraph :=
  { maxLevel, answers := { capacity := answerCapacity } }

/-- Whether a queried name stands for a stored one. -/
def stands (predicates : List NamePredicate) (query stored : String) : Bool :=
  query == stored || predicates.any fun holds => holds query stored

def nameStands (graph : RoleGraph) (query stored : String) : Bool :=
  stands graph.namePredicates query stored

def domainStands (graph : RoleGraph) (query stored : String) : Bool :=
  stands graph.domainPredicates query stored

/-- The links of the domains that a queried domain stands for. -/
def linksIn (graph : RoleGraph) (domain : String) : List DomainLinks :=
  if graph.domainPredicates.isEmpty then (graph.domains.lookup domain).toList
  else (graph.domains.filter fun entry => graph.domainStands domain entry.1).map (·.2)

/-- The names linked with the entries that a queried name stands for. -/
def linkedWith (graph : RoleGraph) (index : NameIndex) (name : String) : List String :=
  if graph.namePredicates.isEmpty then index.linked name
  else index.linkedWhere (graph.nameStands name)

/-- The roles one link away from a name. -/
def rolesOf (graph : RoleGraph) (domain name : String) : NameSet :=
  NameSet.ofList ((graph.linksIn domain).flatMap fun links => graph.linkedWith links.roles name)

/-- The subjects one link away from a role. -/
def usersOf (graph : RoleGraph) (domain role : String) : NameSet :=
  NameSet.ofList ((graph.linksIn domain).flatMap fun links => graph.linkedWith links.users role)

/-- Whether a role is reached from a name through links. -/
def reaches (graph : RoleGraph) (name role domain : String) : Bool :=
  Search.reaches (graph.rolesOf domain) (graph.nameStands role) graph.maxLevel [name] [name]

/-- Whether a name has a role: it stands for it, or reaches it. A remembered answer is taken. -/
def hasLink (graph : RoleGraph) (name role : String) (domain : Option String) : Bool :=
  let domain := domain.getD defaultDomain
  graph.nameStands name role ||
    (graph.answers.get? (name, role, domain)).getD (graph.reaches name role domain)

/-- Remember the answer to a query, if links were followed for it. -/
def remember (graph : RoleGraph) (name role : String) (domain : Option String) : RoleGraph :=
  if graph.nameStands name role then graph
  else
    let key := (name, role, domain.getD defaultDomain)
    { graph with answers := graph.answers.insert key (graph.hasLink name role domain) }

def forget (graph : RoleGraph) : RoleGraph := { graph with answers := graph.answers.clear }

/-- Put the links of a domain in place of those it had. A domain without links goes. -/
def setLinks (graph : RoleGraph) (domain : String) (links : DomainLinks) : RoleGraph :=
  let others := graph.domains.filter (·.1 != domain)
  { graph with domains := if links.roles.isEmpty then others else others ++ [(domain, links)] }

/-- The links of one stored domain. -/
def linksOf (graph : RoleGraph) (domain : String) : DomainLinks :=
  (graph.domains.lookup domain).getD {}

def isStored (graph : RoleGraph) (subject role domain : String) : Bool :=
  ((graph.linksOf domain).roles.linked subject).contains role

/-- Store a link, and tell whether it is new. -/
def addLink (graph : RoleGraph) (subject role : String) (domain : Option String) :
    Bool × RoleGraph :=
  let domain := domain.getD defaultDomain
  if graph.isStored subject role domain then (false, graph)
  else
    let links := graph.linksOf domain
    (true, (graph.setLinks domain
      { roles := links.roles.link subject role, users := links.users.link role subject }).forget)

/-- Drop a link, and tell whether it was stored. -/
def deleteLink (graph : RoleGraph) (subject role : String) (domain : Option String) :
    Bool × RoleGraph :=
  let domain := domain.getD defaultDomain
  if graph.isStored subject role domain then
    let links := graph.linksOf domain
    (true, (graph.setLinks domain
      { roles := links.roles.unlink subject role
        users := links.users.unlink role subject }).forget)
  else (false, graph)

def getRoles (graph : RoleGraph) (name : String) (domain : Option String) : NameSet :=
  graph.rolesOf (domain.getD defaultDomain) name

def getUsers (graph : RoleGraph) (role : String) (domain : Option String) : NameSet :=
  graph.usersOf (domain.getD defaultDomain) role

/-- The domains, apart from the default one, that store a link of a name. -/
def getDomains (graph : RoleGraph) (name : String) : NameSet :=
  NameSet.ofList <| (graph.domains.filter fun (domain, links) =>
    domain != defaultDomain && (links.roles.hasEntry name || links.users.hasEntry name)).map (·.1)

def addNamePredicate (graph : RoleGraph) (holds : NamePredicate) : RoleGraph :=
  { graph with namePredicates := graph.namePredicates ++ [holds] }.forget

def addDomainPredicate (graph : RoleGraph) (holds : NamePredicate) : RoleGraph :=
  { graph with domainPredicates := graph.domainPredicates ++ [holds] }.forget

/-- Drop all links, predicates and answers. -/
def clear (graph : RoleGraph) : RoleGraph :=
  { graph with domains := [], namePredicates := [], domainPredicates := [] }.forget

def linkCount (graph : RoleGraph) : Nat :=
  graph.domains.foldr (fun entry n => entry.2.roles.size + n) 0

end RoleGraph

end AccessControl
