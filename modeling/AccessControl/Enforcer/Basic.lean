import AccessControl.Decision.Evaluate
import AccessControl.Decision.Fingerprint
import AccessControl.Settings
import AccessControl.Storage.Store

/-! # Enforcers

An enforcer decides requests on a model and keeps everything around the model in step: the store
that its rows are kept in, the watcher that is told of changes, and the cache of decisions. Every
operation yields its answer and the enforcer that it leaves behind.
-/

namespace AccessControl

/-- Where the text of a matcher comes from. -/
inductive MatcherSource where
  /-- It is declared under a type. -/
  | declared (type : String)
  /-- It is given with the request. -/
  | given (text : String)
  deriving DecidableEq

/-- What a compiled matcher is remembered under. -/
structure MatcherKey where
  requestType : String
  policyType : String
  source : MatcherSource
  deriving DecidableEq

/-- An enforcer over a store and a cache. `κ` are the keys of the cache. -/
structure Enforcer (σ κ : Type) where
  model : Model
  functions : Functions := Functions.builtins
  matchers : Memo MatcherKey Matcher
  store : σ
  /-- The key of the cache that stands for some bytes. -/
  digest : List UInt8 → κ
  cache : Option (DecisionCache κ) := none
  /-- Whether there is a watcher. -/
  watched : Bool := false
  /-- What the watcher has been told, oldest first. -/
  announced : List PolicyChange := []
  settings : Settings := {}
  enabled : Bool := true
  /-- Whether somebody is reading the state, so that changes have to wait. -/
  beingRead : Bool := false
  /-- The calls of registered functions, oldest first. -/
  calls : List (String × List Value) := []

namespace Enforcer

variable {σ κ : Type}

/-- How many compiled matchers an enforcer remembers. -/
def matcherCapacity : Nat := 256

/-- Gain access to change the state. While it is being read, a bounded wait for it is in vain. -/
def access (e : Enforcer σ κ) : Except Error Unit :=
  match e.beingRead, e.settings.lockTimeout with
  | true, some waited => .error (.lockTimeout waited)
  | _, _ => .ok ()

def clearCache (e : Enforcer σ κ) : Enforcer σ κ :=
  { e with cache := e.cache.map DecisionCache.clear }

/-- Tell the watcher of a change, if there is one and it is to be told. -/
def announce (e : Enforcer σ κ) (change : PolicyChange) : Enforcer σ κ :=
  if e.settings.autoNotifyWatcher && e.watched then
    { e with announced := e.announced ++ [change] }
  else e

/-- What follows a change of the rows. -/
def afterChange (e : Enforcer σ κ) (change : PolicyChange) : Enforcer σ κ :=
  let e := if e.settings.autoCleanCache then e.clearCache else e
  e.announce change

/-- Call the store, if changes are passed on to it. What it has not implemented is passed over. -/
def persist (e : Enforcer σ κ) (call : σ → Except StoreError Unit × σ) :
    Except Error Unit × Enforcer σ κ :=
  if e.settings.autoSave then
    let (result, store) := call e.store
    let e := { e with store }
    match result with
    | .ok () => (.ok (), e)
    | .error (.notImplemented _) => (.ok (), e)
    | .error error => (.error (.store error), e)
  else (.ok (), e)

/-- Do something while the state is being read. -/
def whileRead {α : Type} (e : Enforcer σ κ) (step : Enforcer σ κ → α × Enforcer σ κ) :
    α × Enforcer σ κ :=
  let (answer, after) := step { e with beingRead := true }
  (answer, { after with beingRead := e.beingRead })

end Enforcer

end AccessControl
