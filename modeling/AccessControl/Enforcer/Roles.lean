import AccessControl.Enforcer.Change

/-! # Roles and permissions

Questions about the roles and permissions of users, and changes in their terms. They concern the
plain role type and the plain policy type, whose rows begin with the user or role.
-/

namespace AccessControl

def plainRole : String := "g"

def plainPolicy : String := "p"

namespace Model

/-- The roles one link away from a name. -/
def rolesOf (model : Model) (name : String) (domain : Option String) : List String :=
  ((model.manager? plainRole).map (·.getRoles name domain)).getD []

/-- Whether a role is one link away from a name. -/
def hasRole (model : Model) (name role : String) (domain : Option String) : Bool :=
  (model.rolesOf name domain).contains role

/-- The subjects one link away from a role. -/
def usersOf (model : Model) (role : String) (domain : Option String) : List String :=
  ((model.manager? plainRole).map (·.getUsers role domain)).getD []

/-- The domains in which a name has links. -/
def domainsOf (model : Model) (name : String) : List String :=
  ((model.manager? plainRole).map (·.getDomains name)).getD []

/-- All roles that a name can reach, nearest first. A search meets a new name at every level but the
    last, so it need not go deeper than there are links. -/
def implicitRolesOf (model : Model) (name : String) (domain : Option String) : List String :=
  let bound := ((model.manager? plainRole).map (·.linkBound)).getD 0
  Search.collect (fun name => model.rolesOf name domain) bound [name] [name]

/-- The filter for rows that begin with a subject, and a domain if one is given. -/
def subjectFilter (subject : String) (domain : Option String) : FieldFilter :=
  ⟨0, subject :: domain.toList⟩

def permissionsOf (model : Model) (subject : String) (domain : Option String) : List Row :=
  model.filtered RowSection.policy.key plainPolicy (subjectFilter subject domain)

/-- The rows of a user and of all roles that it can reach, each once. -/
def implicitPermissionsOf (model : Model) (user : String) (domain : Option String) : List Row :=
  ((user :: model.implicitRolesOf user domain).flatMap fun subject =>
    model.permissionsOf subject domain).eraseDups

/-! ## Listings -/

def subjects (model : Model) : List String := model.valuesAt RowSection.policy.key plainPolicy 0

def objects (model : Model) : List String := model.valuesAt RowSection.policy.key plainPolicy 1

def actions (model : Model) : List String := model.valuesAt RowSection.policy.key plainPolicy 2

def roleNames (model : Model) : List String := model.valuesAt RowSection.role.key plainRole 1

end Model

namespace Enforcer

variable {σ κ : Type}

/-- Answer whether a name has a role, and remember the answer. -/
def ask (e : Enforcer σ κ) (type name role : String) (domain : Option String) :
    Bool × Enforcer σ κ :=
  let (answer, model) := e.model.ask type name role domain
  (answer, { e with model })

variable [PolicyStore σ]

/-- The grouping row that gives a user a role. -/
def roleRow (user role : String) (domain : Option String) : Row := user :: role :: domain.toList

def addRole (e : Enforcer σ κ) (user role : String) (domain : Option String) :
    Except Error Bool × Enforcer σ κ :=
  e.change .role plainRole (.add (roleRow user role domain))

def deleteRoleOf (e : Enforcer σ κ) (user role : String) (domain : Option String) :
    Except Error Bool × Enforcer σ κ :=
  e.change .role plainRole (.remove (roleRow user role domain))

/-- Take all roles from a user, in one domain if it is given. -/
def deleteRolesOf (e : Enforcer σ κ) (user : String) (domain : Option String) :
    Except Error Bool × Enforcer σ κ :=
  let values :=
    match domain with
    | some domain => [user, "", domain]
    | none => [user]
  e.change .role plainRole (.removeFiltered ⟨0, values⟩)

/-- Remove a user: its roles and its permissions. -/
def deleteUser (e : Enforcer σ κ) (user : String) : Except Error Bool × Enforcer σ κ :=
  e.removeTogether
    [{ table := .role, type := plainRole, filter := ⟨0, [user]⟩ },
      { table := .policy, type := plainPolicy, filter := ⟨0, [user]⟩ }]

/-- Remove a role: from all that have it, and with its permissions. -/
def deleteRole (e : Enforcer σ κ) (role : String) : Except Error Bool × Enforcer σ κ :=
  e.removeTogether
    [{ table := .role, type := plainRole, filter := ⟨1, [role]⟩ },
      { table := .policy, type := plainPolicy, filter := ⟨0, [role]⟩ }]

def addPermission (e : Enforcer σ κ) (user : String) (permission : List String) :
    Except Error Bool × Enforcer σ κ :=
  e.change .policy plainPolicy (.add (user :: permission))

def deletePermission (e : Enforcer σ κ) (user : String) (permission : List String) :
    Except Error Bool × Enforcer σ κ :=
  e.change .policy plainPolicy (.remove (user :: permission))

end Enforcer

end AccessControl
