import AccessControl.Model.Rows

/-! # The role links of a model -/

namespace AccessControl.Model

def manager? (model : Model) (type : String) : Option RoleManager :=
  (model.roles.get? type).map (·.body.manager)

/-- Whether a name has a role. Where no such role type is declared, a name has itself only. -/
def hasLink (model : Model) : RoleOracle := fun type name role domain =>
  match model.manager? type with
  | some manager => manager.hasLink name role domain
  | none => name == role

/-- Build the links of the given role types anew, up to the first failure. -/
def buildLinksOf (model : Model) : List String → Except Error Unit × Model
  | [] => (.ok (), model)
  | type :: rest =>
    match model.role type with
    | .error _ => model.buildLinksOf rest
    | .ok role =>
      let (result, role) := role.buildLinks
      let model := model.modifyRole type fun _ => role
      match result with
      | .ok () => model.buildLinksOf rest
      | .error e => (.error e, model)

/-- Build the links of all role types anew. -/
def buildLinks (model : Model) : Except Error Unit × Model :=
  model.buildLinksOf (model.types .role)

/-- Apply the links of rows of a role type that have just been stored or removed. -/
def changeLinks (model : Model) (type : String) (change : LinkChange) (rows : List Row) :
    Except Error Unit × Model :=
  match model.role type with
  | .error e => (.error e, model)
  | .ok role =>
    let (result, role) := role.changeLinks change rows
    (result, model.modifyRole type fun _ => role)

/-- Put a manager in place of that of a role type, and build the links in it. -/
def setManager (model : Model) (type : String) (manager : RoleManager) :
    Except Error Unit × Model :=
  match model.role type with
  | .error e => (.error e, model)
  | .ok role =>
    let (result, role) := { role with manager }.buildLinks
    (result, model.modifyRole type fun _ => role)

/-- The model after it has answered `hasLink`. -/
def rememberLink (model : Model) (type name role : String) (domain : Option String) : Model :=
  model.modifyRole type fun roleType =>
    { roleType with manager := roleType.manager.remember name role domain }

/-- Answer `hasLink`, and remember the answer. -/
def ask (model : Model) (type name role : String) (domain : Option String) : Bool × Model :=
  (model.hasLink type name role domain, model.rememberLink type name role domain)

/-- Let the managers remember the role checks of an evaluation. -/
def remember (model : Model) (events : List Event) : Model :=
  events.foldl (fun model event =>
    match event with
    | .roleChecked type name role domain _ => model.rememberLink type name role domain
    | _ => model) model

end AccessControl.Model
