import AccessControl.Enforcer.Roles
import AccessControl.Enforcer.Setup
import AccessControl.Proofs.Model.Prepared

/-! # Runs of an enforcer

The operations of an enforcer as values, so that theorems can be about every sequence of them. The
model of an enforcer that has been set up from a prepared model stays well formed in every run. A run
ends early where an operation breaks off: what it has answered by then is the beginning of what it
would answer otherwise.
-/

namespace AccessControl

/-- The changes of rows that are passed on to the store. -/
inductive Mutation where
  | rows (s : RowSection) (type : String) (change : RowChange)
  | deleteUser (user : String)
  | deleteRole (role : String)
  | clearPolicy

/-- The operations of an enforcer. -/
inductive Operation where
  | mutate (mutation : Mutation)
  | loadPolicy
  | savePolicy
  | buildRoleLinks
  | addFunction (name : String) (f : CustomFunction)
  | addNamePredicate (type : String) (holds : NamePredicate)
  | addDomainPredicate (type : String) (holds : NamePredicate)
  | setManager (type : String) (manager : RoleManager)
  | enable (enabled : Bool)
  | decide (context : Context) (given : Option String) (request : List Value)
  /-- Ask for a role outside of a decision. -/
  | ask (type name role : String) (domain : Option String)
  | clearCache
  /-- Let time pass for the cache. -/
  | wait (nanoseconds : Nat)

/-- What is asked of an enforcer with a request. -/
structure Query where
  context : Context
  given : Option String
  request : List Value

/-- The query that an operation decides. -/
def Operation.query? : Operation → Option Query
  | .decide context given request => some { context, given, request }
  | _ => none

/-- How much time passes for the cache in an operation at most. -/
def Operation.duration : Operation → Nat
  | .decide _ _ _ => 1
  | .wait nanoseconds => nanoseconds
  | _ => 0

/-- How much time passes for the cache in a run at most. -/
def elapsed : List Operation → Nat
  | [] => 0
  | operation :: rest => operation.duration + elapsed rest

theorem elapsed_append (first rest : List Operation) :
    elapsed (first ++ rest) = elapsed first + elapsed rest := by
  induction first with
  | nil => exact (Nat.zero_add _).symm
  | cons operation others ih => rw [List.cons_append, elapsed, elapsed, ih, Nat.add_assoc]

/-- The queries that are decided in a run. -/
def queries (operations : List Operation) : List Query := operations.filterMap Operation.query?

/-- What an operation answers. -/
inductive Answer where
  | changed (result : Except Error Bool)
  | done (result : Except Error Unit)
  | decided (result : Except Error Decision)
  | checked (answer : Bool)

namespace Enforcer

variable {σ κ : Type} [PolicyStore σ]

/-- Make a change, and tell whether it has changed anything; to clear the rows always does. -/
def mutate (e : Enforcer σ κ) : Mutation → Except Error Bool × Enforcer σ κ
  | .rows s type change => e.change s type change
  | .deleteUser user => e.deleteUser user
  | .deleteRole role => e.deleteRole role
  | .clearPolicy =>
    let (result, e) := e.clearPolicy
    (result.map fun _ => true, e)

/-- Let time pass for the cache. -/
def wait (e : Enforcer σ κ) (nanoseconds : Nat) : Enforcer σ κ :=
  { e with cache := e.cache.map (·.elapse nanoseconds) }

variable [BEq κ]

/-- Execute an operation. -/
def step (e : Enforcer σ κ) : Operation → Answer × Enforcer σ κ
  | .mutate mutation => (e.mutate mutation).map .changed id
  | .loadPolicy => e.loadPolicy.map .done id
  | .savePolicy => e.savePolicy.map .done id
  | .buildRoleLinks => e.buildRoleLinks.map .done id
  | .addFunction name f => (e.addFunction name f).map .done id
  | .addNamePredicate type holds => (e.addNamePredicate type holds).map .done id
  | .addDomainPredicate type holds => (e.addDomainPredicate type holds).map .done id
  | .setManager type manager => (e.setManager type manager).map .done id
  | .enable enabled => (.done (.ok ()), e.enable enabled)
  | .decide context given request => (e.decide context given request).map .decided id
  | .ask type name role domain => (e.ask type name role domain).map .checked id
  | .clearCache => (.done (.ok ()), e.clearCache)
  | .wait nanoseconds => (.done (.ok ()), e.wait nanoseconds)

/-- The same, unless the operation breaks off. -/
def step? (e : Enforcer σ κ) : Operation → Option (Answer × Enforcer σ κ)
  | .mutate (.rows s type change) => (e.change? s type change).map (·.map .changed id)
  | .decide context given request => (e.decide? context given request).map (·.map .decided id)
  | operation => some (e.step operation)

/-- Execute operations one after another. -/
def run (e : Enforcer σ κ) : List Operation → List Answer × Enforcer σ κ
  | [] => ([], e)
  | operation :: rest =>
    let (answer, e) := e.step operation
    let (answers, e) := e.run rest
    (answer :: answers, e)

/-- What operations answer one after another, up to one that breaks off. -/
def answers (e : Enforcer σ κ) : List Operation → List Answer
  | [] => []
  | operation :: rest =>
    match e.step? operation with
    | none => []
    | some (answer, e) => answer :: e.answers rest

/-- The states that an enforcer can be in. -/
inductive Reachable : Enforcer σ κ → Prop where
  | built {setup : Setup σ κ} {e : Enforcer σ κ} (prepared : setup.model.Prepared)
      (built : setup.build = .ok e) : Reachable e
  | step {e : Enforcer σ κ} (operation : Operation) (before : Reachable e) :
      Reachable (e.step operation).2
  | configure {e : Enforcer σ κ} (settings : Settings) (before : Reachable e) :
      Reachable (e.configure settings)
  | setStore {e : Enforcer σ κ} (store : σ) (before : Reachable e) : Reachable (e.setStore store)
  | setWatched {e : Enforcer σ κ} (before : Reachable e) : Reachable e.setWatched
  | takeAnnounced {e : Enforcer σ κ} (before : Reachable e) : Reachable e.takeAnnounced.2
  | takeCalls {e : Enforcer σ κ} (before : Reachable e) : Reachable e.takeCalls.2
  /-- Somebody begins or ends to read the state. -/
  | read {e : Enforcer σ κ} (beingRead : Bool) (before : Reachable e) :
      Reachable { e with beingRead }

theorem reachable_run {e : Enforcer σ κ} (reachable : e.Reachable)
    (operations : List Operation) : (e.run operations).2.Reachable := by
  induction operations generalizing e with
  | nil => exact reachable
  | cons operation rest ih => exact ih (reachable.step operation)

end Enforcer

/-! ## A small setup -/

/-- A model in which a policy names those that are allowed, and the roles that are. -/
def Model.guestList : Model :=
  let definitions :=
    [("r", "r", "sub"), ("p", "p", "sub"), ("g", "g", "_, _, _, _"),
      ("e", "e", EffectKind.allowOverride.expression), ("m", "m", "g(r.sub, p.sub)")]
  (Model.ofDefinitions definitions).toOption.getD {}

theorem Model.prepared_guestList : guestList.Prepared := by
  unfold guestList
  exact .ofDefinitions_getD _

/-- The enforcer of a setup that can be built. -/
def Setup.enforcer {σ κ : Type} [PolicyStore σ] (setup : Setup σ κ) : Enforcer σ κ :=
  setup.build.toOption.getD (setup.initial setup.model)

theorem Setup.build_eq_enforcer {σ κ : Type} [PolicyStore σ] {setup : Setup σ κ}
    (builds : setup.build.isOk = true) : setup.build = .ok setup.enforcer := by
  unfold enforcer
  cases built : setup.build with
  | error error => simp [built, Except.isOk, Except.toBool] at builds
  | ok e => rfl

end AccessControl
