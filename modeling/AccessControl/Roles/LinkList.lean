import AccessControl.Roles.Graph

/-! # Role graphs as a list of links

The plainest role graph: a list of links in the order in which they came. Names and domains are
compared exactly, and predicates on them are not supported.
-/

namespace AccessControl

/-- A link from a subject to a role in a domain. -/
structure RoleLink where
  subject : String
  role : String
  domain : String
  deriving DecidableEq

structure LinkList where
  maxLevel : Nat := defaultMaxLevel
  links : List RoleLink := []

namespace LinkList

/-- The roles one link away from a name, in the order of the links. -/
def rolesOf (list : LinkList) (domain name : String) : List String :=
  (list.links.filter fun link => link.subject == name && link.domain == domain).map (·.role)

/-- The subjects one link away from a role, in the order of the links. -/
def usersOf (list : LinkList) (domain role : String) : List String :=
  (list.links.filter fun link => link.role == role && link.domain == domain).map (·.subject)

/-- Whether a name is a role or reaches it through links. -/
def hasLink (list : LinkList) (name role : String) (domain : Option String) : Bool :=
  name == role ||
    Search.reaches (list.rolesOf (domain.getD defaultDomain)) (· == role) list.maxLevel [name]
      [name]

def addLink (list : LinkList) (subject role : String) (domain : Option String) :
    Bool × LinkList :=
  let link : RoleLink := { subject, role, domain := domain.getD defaultDomain }
  if list.links.contains link then (false, list)
  else (true, { list with links := list.links ++ [link] })

def deleteLink (list : LinkList) (subject role : String) (domain : Option String) :
    Bool × LinkList :=
  let link : RoleLink := { subject, role, domain := domain.getD defaultDomain }
  if list.links.contains link then (true, { list with links := list.links.erase link })
  else (false, list)

def getRoles (list : LinkList) (name : String) (domain : Option String) : NameSet :=
  NameSet.ofList (list.rolesOf (domain.getD defaultDomain) name)

def getUsers (list : LinkList) (role : String) (domain : Option String) : NameSet :=
  NameSet.ofList (list.usersOf (domain.getD defaultDomain) role)

/-- The domains, apart from the default one, that store a link of a name. -/
def getDomains (list : LinkList) (name : String) : NameSet :=
  NameSet.ofList <| (list.links.filter fun link =>
    link.domain != defaultDomain && (link.subject == name || link.role == name)).map (·.domain)

def clear (list : LinkList) : LinkList := { list with links := [] }

end LinkList

end AccessControl
