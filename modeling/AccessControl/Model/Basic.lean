import AccessControl.Matcher.Scope
import AccessControl.Matcher.Traced
import AccessControl.Matcher.Evaluate
import AccessControl.Model.Definition
import AccessControl.NameMap
import AccessControl.Policy.Row
import AccessControl.Roles.Type

/-! # Models

A model declares what requests and policies look like, which role types there are, how matched rows
combine, and when a row matches. It also holds the rows. Types stand in the order of their names.
-/

namespace AccessControl

/-- A declaration with the text it was made with. -/
structure Declared (α : Type) where
  text : String
  body : α

structure Model where
  /-- Field names by request type. -/
  requests : NameMap (Declared (List String)) := []
  policies : NameMap (Declared RowTable) := []
  roles : NameMap (Declared RoleType) := []
  effects : NameMap (Declared EffectKind) := []
  matchers : NameMap String := []

namespace Model

/-! ## Declarations -/

/-- Declare a type of a section, in place of any other of that name. -/
def declare (model : Model) (s : Section) (key text : String) : Except Error Model :=
  match s with
  | .request => do
    let fields ← Definition.fields key text
    .ok { model with requests := NameMap.insert key ⟨text, fields⟩ model.requests }
  | .policy => do
    let fields ← Definition.fields key text
    let table : RowTable := { type := key, fields }
    .ok { model with policies := NameMap.insert key ⟨text, table⟩ model.policies }
  | .role => do
    let fields ← Definition.roleFields key text
    let type : RoleType := { table := { type := key, fields } }
    .ok { model with roles := NameMap.insert key ⟨text, type⟩ model.roles }
  | .effect => do
    let kind ← EffectKind.parse text
    .ok { model with effects := NameMap.insert key ⟨text, kind⟩ model.effects }
  | .matcher => .ok { model with matchers := NameMap.insert key text model.matchers }

/-- Add a definition, and tell whether it declares something; a blank text does not. -/
def define (model : Model) (sec key text : String) : Except Error (Bool × Model) := do
  let s ← Section.ofKey sec
  Definition.checkKey sec key
  if (Definition.trimmed text).isEmpty then .ok (false, model)
  else
    let model ← model.declare s key text
    .ok (true, model)

/-- The model of definitions, each a section, a key and a text. -/
def ofDefinitions (definitions : List (String × String × String)) : Except Error Model :=
  definitions.foldlM (fun (model : Model) (sec, key, text) => do
    let (_, model) ← model.define sec key text
    .ok model) {}

/-! ## Declared types -/

def types (model : Model) : Section → List String
  | .request => model.requests.map (·.1)
  | .policy => model.policies.map (·.1)
  | .role => model.roles.map (·.1)
  | .effect => model.effects.map (·.1)
  | .matcher => model.matchers.map (·.1)

def hasSection (model : Model) (s : Section) : Bool := !(model.types s).isEmpty

/-- What is declared under a name, or the error that nothing is. -/
def named {α : Type} (s : Section) (map : NameMap α) (type : String) : Except Error α :=
  match map.get? type with
  | some entry => .ok entry
  | none => .error (.policyTypeNotFound s type)

def request (model : Model) (type : String) : Except Error (List String) :=
  (named .request model.requests type).map (·.body)

def policy (model : Model) (type : String) : Except Error RowTable :=
  (named .policy model.policies type).map (·.body)

def role (model : Model) (type : String) : Except Error RoleType :=
  (named .role model.roles type).map (·.body)

def effect (model : Model) (type : String) : Except Error EffectKind :=
  (named .effect model.effects type).map (·.body)

def matcher (model : Model) (type : String) : Except Error String :=
  named .matcher model.matchers type

/-- What a matcher over a request type and a policy type can name. -/
def scope (model : Model) (requestType policyType : String) : Except Error Scope := do
  let requestFields ← model.request requestType
  let table ← model.policy policyType
  .ok
    { requestKey := requestType
      requestFields
      policyKey := policyType
      policyFields := table.fields
      roleTypes := model.roles.map fun (type, declared) => (type, declared.body.table.arity) }

/-! ## Tables of rows -/

/-- The table of a type that holds rows. -/
def table? (model : Model) (s : RowSection) (type : String) : Option RowTable :=
  match s with
  | .policy => (model.policies.get? type).map (·.body)
  | .role => (model.roles.get? type).map (·.body.table)

/-- Put a table in place of that of its type. -/
def setTable (model : Model) (s : RowSection) (type : String) (table : RowTable) : Model :=
  match s with
  | .policy =>
    { model with policies := model.policies.modify type fun declared =>
        { declared with body := table } }
  | .role =>
    { model with roles := model.roles.modify type fun declared =>
        { declared with body := { declared.body with table } } }

/-- Change a role type, if it is declared. -/
def modifyRole (model : Model) (type : String) (change : RoleType → RoleType) : Model :=
  { model with roles := model.roles.modify type fun declared =>
      { declared with body := change declared.body } }

end Model

end AccessControl
