import AccessControl.Enforcer.Decide
import AccessControl.Model.Rows

/-! # Switching, loading and saving

The switches and collaborators of an enforcer can be changed at any time; what depends on them is
forgotten. The rows are loaded as a whole: every line is checked before the first row is dropped.
-/

namespace AccessControl

/-- Check that lines are of declared types and have the lengths that these declare. -/
def Model.checkLines (model : Model) : List PolicyLine → Except Error Unit
  | [] => .ok ()
  | line :: rest => do
    let s ← line.section
    model.checkArities s.key line.type [line.row]
    model.checkLines rest

namespace Enforcer

variable {σ κ : Type}

/-! ## Switches and collaborators -/

def enable (e : Enforcer σ κ) (enabled : Bool) : Enforcer σ κ := { e with enabled }

/-- Put settings in place of others. Whether requests are decided stays as it is. -/
def configure (e : Enforcer σ κ) (settings : Settings) : Enforcer σ κ := { e with settings }

def setStore (e : Enforcer σ κ) (store : σ) : Enforcer σ κ := { e with store }

def setWatched (e : Enforcer σ κ) : Enforcer σ κ := { e with watched := true }

def takeAnnounced (e : Enforcer σ κ) : List PolicyChange × Enforcer σ κ :=
  (e.announced, { e with announced := [] })

def takeCalls (e : Enforcer σ κ) : List (String × List Value) × Enforcer σ κ :=
  (e.calls, { e with calls := [] })

/-- Register a function. Compiled matchers and cached decisions may depend on it, and go. -/
def addFunction (e : Enforcer σ κ) (name : String) (f : CustomFunction) :
    Except Error Unit × Enforcer σ κ :=
  match e.access with
  | .error error => (.error error, e)
  | .ok () =>
    let e := { e with functions := e.functions.register name f, matchers := e.matchers.clear }
    (.ok (), e.clearCache)

/-- Change a declared role type, and clear the cache. -/
def changeRole (e : Enforcer σ κ) (type : String) (change : RoleType → RoleType) :
    Except Error Unit × Enforcer σ κ :=
  match e.access with
  | .error error => (.error error, e)
  | .ok () =>
    match e.model.role type with
    | .error error => (.error error, e)
    | .ok _ => (.ok (), { e with model := e.model.modifyRole type change }.clearCache)

/-- Let queried names stand for stored ones in a role type. -/
def addNamePredicate (e : Enforcer σ κ) (type : String) (holds : NamePredicate) :
    Except Error Unit × Enforcer σ κ :=
  e.changeRole type (·.addNamePredicate holds)

/-- Let queried domains stand for stored ones in a role type. -/
def addDomainPredicate (e : Enforcer σ κ) (type : String) (holds : NamePredicate) :
    Except Error Unit × Enforcer σ κ :=
  e.changeRole type (·.addDomainPredicate holds)

/-- Put a manager in place of that of a role type, and build the links in it. -/
def setManager (e : Enforcer σ κ) (type : String) (manager : RoleManager) :
    Except Error Unit × Enforcer σ κ :=
  match e.access with
  | .error error => (.error error, e)
  | .ok () =>
    match e.model.setManager type manager with
    | (.error error, model) => (.error error, { e with model })
    | (.ok (), model) => (.ok (), { e with model }.clearCache)

def buildRoleLinks (e : Enforcer σ κ) : Except Error Unit × Enforcer σ κ :=
  match e.access with
  | .error error => (.error error, e)
  | .ok () =>
    match e.model.buildLinks with
    | (.error error, model) => (.error error, { e with model })
    | (.ok (), model) => (.ok (), { e with model }.clearCache)

/-! ## Loading and saving -/

variable [PolicyStore σ]

/-- Put lines in place of all rows, with access to the state. -/
def replaceRows (e : Enforcer σ κ) (lines : List PolicyLine) :
    Except Error Unit × Enforcer σ κ :=
  match e.model.checkLines lines with
  | .error error => (.error error, e)
  | .ok () =>
    match e.model.clear.load lines with
    | (.error error, model) => (.error error, { e with model })
    | (.ok _, model) =>
      if e.settings.autoBuildRoleLinks then
        match model.buildLinks with
        | (.error error, model) => (.error error, { e with model })
        | (.ok (), model) => (.ok (), { e with model }.clearCache)
      else (.ok (), { e with model }.clearCache)

/-- Put the lines of the store in place of all rows. -/
def loadPolicy (e : Enforcer σ κ) : Except Error Unit × Enforcer σ κ :=
  match PolicyStore.load e.store with
  | .error error => (.error (.store error), e)
  | .ok lines =>
    match e.access with
    | .error error => (.error error, e)
    | .ok () => e.replaceRows lines

/-- Give all rows to the store. -/
def savePolicy (e : Enforcer σ κ) : Except Error Unit × Enforcer σ κ :=
  match PolicyStore.save e.store e.model.lines with
  | (.error error, store) => (.error (.store error), { e with store })
  | (.ok (), store) => (.ok (), { e with store }.announce .saved)

end Enforcer

end AccessControl
