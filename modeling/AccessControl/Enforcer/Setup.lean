import AccessControl.Enforcer.Control

/-! # Setting up

An enforcer is set up from a model that declares all it needs. It gets role managers of its own, its
plain matcher is compiled before the first request, and it starts with the rows of its store.
-/

namespace AccessControl

/-- What an enforcer is set up from. -/
structure Setup (σ κ : Type) where
  model : Model
  store : σ
  /-- The key of the cache that stands for some bytes. -/
  digest : List UInt8 → κ
  functions : Functions := Functions.builtins
  settings : Settings := {}
  cache : Option (DecisionCache κ) := none
  watched : Bool := false

namespace Setup

variable {σ κ : Type}

/-- The sections that a model needs for decisions. -/
def neededSections : List Section := [.request, .policy, .effect, .matcher]

/-- Refuse a model without one of the sections that it needs. -/
def checkSections (model : Model) : Except Error Unit :=
  match neededSections.find? fun s => !model.hasSection s with
  | some s => .error (.modelDefinition (.missingSection s))
  | none => .ok ()

/-- Give each of some role types a new manager with a bound, and build its links there. -/
def resetManagers (maxLevel : Nat) (model : Model) : List String → Except Error Model
  | [] => .ok model
  | type :: rest =>
    match model.setManager type (.empty .indexed maxLevel) with
    | (.error error, _) => .error error
    | (.ok (), model) => resetManagers maxLevel model rest

/-- The enforcer of a model before it has compiled or loaded anything. -/
def initial (setup : Setup σ κ) (model : Model) : Enforcer σ κ :=
  { model
    functions := setup.functions
    matchers := { capacity := Enforcer.matcherCapacity }
    store := setup.store
    digest := setup.digest
    cache := setup.cache
    watched := setup.watched
    settings := setup.settings
    enabled := setup.settings.enabled }

/-- Compile the matcher of the plain context, where its types are declared, and remember it. -/
def compilePlain (e : Enforcer σ κ) : Except Error (Enforcer σ κ) :=
  if (e.model.request Context.plain.requestType).isOk &&
      (e.model.matcher Context.plain.matcherType).isOk then do
    let matcher ← e.matcher .plain none
    let key := Enforcer.matcherKey .plain none
    .ok { e with matchers := e.matchers.insert key matcher }
  else .ok e

/-- Check the model, compile the plain matcher, and load the rows. -/
def build [PolicyStore σ] (setup : Setup σ κ) : Except Error (Enforcer σ κ) := do
  checkSections setup.model
  let model ← resetManagers setup.settings.maxHierarchyLevel setup.model (setup.model.types .role)
  let e ← compilePlain (setup.initial model)
  match e.loadPolicy with
  | (.error error, _) => .error error
  | (.ok (), e) => .ok e

end Setup

end AccessControl
