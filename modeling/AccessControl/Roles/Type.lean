import AccessControl.Policy.Table
import AccessControl.Roles.Manager

/-! # Role types

A role type has grouping rows and a manager for the links that the rows stand for. A row links its
first value with its second, in the domain of its third if it has one; what follows is not part of
the link. The predicates of a type are kept beside the manager, so that they survive when the links
are built anew.
-/

namespace AccessControl

/-- Whether rows bring their links in, or take them away. -/
inductive LinkChange where
  | add
  | remove
  deriving DecidableEq

/-- A role type with its rows and links. -/
structure RoleType where
  table : RowTable
  manager : RoleManager := .empty .indexed
  namePredicates : List NamePredicate := []
  domainPredicates : List NamePredicate := []

/-- The number of values that make a link. -/
def linkFields : Nat := 3

/-- Whether two rows stand for one link. -/
def sameLink (a b : Row) : Bool := a.take linkFields == b.take linkFields

namespace RoleManager

/-- Apply the link of a row of some type. -/
def apply (manager : RoleManager) (type : String) (change : LinkChange) :
    Row → Except Error RoleManager
  | subject :: role :: rest =>
    match change with
    | .add => .ok (manager.addLink subject role rest.head?).2
    | .remove => .ok (manager.deleteLink subject role rest.head?).2
  | row => .error (.modelDefinition (.shortGroupingRow type row))

/-- Apply the links of rows one after another, up to the first row that stands for none. -/
def applyAll (manager : RoleManager) (type : String) (change : LinkChange) :
    List Row → Except Error Unit × RoleManager
  | [] => (.ok (), manager)
  | row :: rest =>
    match manager.apply type change row with
    | .ok manager => manager.applyAll type change rest
    | .error e => (.error e, manager)

/-- A manager of the same kind and bound, with the given predicates and without links. -/
def restart (manager : RoleManager) (namePredicates domainPredicates : List NamePredicate) :
    RoleManager :=
  let manager := namePredicates.foldl addNamePredicate manager.clear
  domainPredicates.foldl addDomainPredicate manager

end RoleManager

namespace RoleType

/-- Build all links anew from the rows. -/
def buildLinks (type : RoleType) : Except Error Unit × RoleType :=
  let manager := type.manager.restart type.namePredicates type.domainPredicates
  let (result, manager) := manager.applyAll type.table.type .add type.table.rows
  (result, { type with manager })

/-- Apply the links of rows that have just been stored or removed. A link stays as long as some
    stored row stands for it. -/
def changeLinks (type : RoleType) (change : LinkChange) (rows : List Row) :
    Except Error Unit × RoleType :=
  let affected :=
    match change with
    | .add => rows
    | .remove => rows.filter fun row => !type.table.rows.any (sameLink row)
  let (result, manager) := type.manager.applyAll type.table.type change affected
  (result, { type with manager })

def addNamePredicate (type : RoleType) (holds : NamePredicate) : RoleType :=
  { type with
    manager := type.manager.addNamePredicate holds
    namePredicates := type.namePredicates ++ [holds] }

def addDomainPredicate (type : RoleType) (holds : NamePredicate) : RoleType :=
  { type with
    manager := type.manager.addDomainPredicate holds
    domainPredicates := type.domainPredicates ++ [holds] }

end RoleType

end AccessControl
