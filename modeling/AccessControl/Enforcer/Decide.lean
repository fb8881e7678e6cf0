import AccessControl.Enforcer.Basic

/-! # Deciding requests

While an enforcer is disabled it allows everything. Otherwise a cached decision is taken if there is
one, and else the request is decided on the rows and the decision cached. Errors are not cached.
Where the cache cannot keep a decision because of its deadline, the call breaks off.
-/

namespace AccessControl.Enforcer

variable {σ κ : Type}

/-- The decision of a disabled enforcer. -/
def allowed : Decision := { allowed := true, explain := [] }

/-- What the matcher of a context is remembered under. -/
def matcherKey (context : Context) (given : Option String) : MatcherKey :=
  { requestType := context.requestType
    policyType := context.policyType
    source :=
      match given with
      | some text => .given text
      | none => .declared context.matcherType }

/-- Compile the matcher of a context, or one that is given. -/
def compile (e : Enforcer σ κ) (context : Context) (given : Option String) :
    Except Error Matcher := do
  let text ←
    match given with
    | some text => .ok text
    | none => e.model.matcher context.matcherType
  let scope ← e.model.scope context.requestType context.policyType
  Matcher.compile { scope with functions := e.functions } text

/-- The compiled matcher of a context, from memory if it is there. -/
def matcher (e : Enforcer σ κ) (context : Context) (given : Option String) :
    Except Error Matcher :=
  match e.matchers.get? (matcherKey context given) with
  | some matcher => .ok matcher
  | none => e.compile context given

/-- The enforcer after an evaluation: the matcher and what it has loaded are remembered, and so are
    the answers to role checks. -/
def remember (e : Enforcer σ κ) (key : MatcherKey) (matcher : Matcher) (events : List Event) :
    Enforcer σ κ :=
  let called := events.filterMap fun event =>
    match event with
    | .called label args => some (label, args)
    | _ => none
  { e with
    matchers := e.matchers.insert key (matcher.remember events)
    model := e.model.remember events
    calls := e.calls ++ called }

def cacheKey (e : Enforcer σ κ) (context : Context) (given : Option String)
    (request : List Value) : κ :=
  e.digest ({ context := context.parts, request, matcher := given } : DecisionKey).toBytes

/-- Decide a request on the rows. -/
def evaluate (e : Enforcer σ κ) (context : Context) (given : Option String)
    (request : List Value) : Except Error Decision × Enforcer σ κ :=
  match e.matcher context given with
  | .error error => (.error error, e)
  | .ok matcher =>
    let outcome := e.model.evaluate context matcher request
    (outcome.result, e.remember (matcherKey context given) matcher outcome.events)

variable [BEq κ]

def decideEnabled (e : Enforcer σ κ) (context : Context) (given : Option String)
    (request : List Value) : Except Error Decision × Enforcer σ κ :=
  match e.cache with
  | none => e.evaluate context given request
  | some cache =>
    let key := e.cacheKey context given request
    let (found, cache) := (cache.elapse 1).get key
    let e := { e with cache := some cache }
    match found with
    | some decision => (.ok decision, e)
    | none =>
      match e.evaluate context given request with
      | (.error error, e) => (.error error, e)
      | (.ok decision, e) => (.ok decision, { e with cache := some (cache.set key decision) })

/-- The same, unless keeping the decision breaks off. -/
def decideEnabled? (e : Enforcer σ κ) (context : Context) (given : Option String)
    (request : List Value) : Option (Except Error Decision × Enforcer σ κ) :=
  match e.cache with
  | none => some (e.evaluate context given request)
  | some cache =>
    let key := e.cacheKey context given request
    let (found, cache) := (cache.elapse 1).get key
    let e := { e with cache := some cache }
    match found with
    | some decision => some (.ok decision, e)
    | none =>
      match e.evaluate context given request with
      | (.error error, e) => some (.error error, e)
      | (.ok decision, e) =>
        (cache.set? key decision).map fun cache => (.ok decision, { e with cache := some cache })

/-- Decide a request in a context, with a matcher that may be given in place of the declared one. -/
def decide (e : Enforcer σ κ) (context : Context) (given : Option String)
    (request : List Value) : Except Error Decision × Enforcer σ κ :=
  if e.enabled then e.decideEnabled context given request else (.ok allowed, e)

/-- The same, unless keeping the decision breaks off. -/
def decide? (e : Enforcer σ κ) (context : Context) (given : Option String)
    (request : List Value) : Option (Except Error Decision × Enforcer σ κ) :=
  if e.enabled then e.decideEnabled? context given request else some (.ok allowed, e)

/-- Decide requests one after another, up to the first error. -/
def decideAll (e : Enforcer σ κ) (context : Context) :
    List (List Value) → Except Error (List Decision) × Enforcer σ κ
  | [] => (.ok [], e)
  | request :: rest =>
    match e.decideEnabled context none request with
    | (.error error, e) => (.error error, e)
    | (.ok decision, e) =>
      let (decisions, e) := e.decideAll context rest
      (decisions.map (decision :: ·), e)

/-- The same, unless keeping one of the decisions breaks off. -/
def decideAll? (e : Enforcer σ κ) (context : Context) :
    List (List Value) → Option (Except Error (List Decision) × Enforcer σ κ)
  | [] => some (.ok [], e)
  | request :: rest => do
    match ← e.decideEnabled? context none request with
    | (.error error, e) => some (.error error, e)
    | (.ok decision, e) =>
      let (decisions, e) ← e.decideAll? context rest
      some (decisions.map (decision :: ·), e)

/-- Decide many requests in one context, unless the batch has been cancelled. -/
def decideBatch (e : Enforcer σ κ) (context : Context) (cancelled : Bool)
    (requests : List (List Value)) : Except Error (List Decision) × Enforcer σ κ :=
  if !e.enabled then (.ok (requests.map fun _ => allowed), e)
  else if cancelled then (.error .cancelled, e)
  else e.decideAll context requests

/-- The same, unless keeping one of the decisions breaks off. -/
def decideBatch? (e : Enforcer σ κ) (context : Context) (cancelled : Bool)
    (requests : List (List Value)) : Option (Except Error (List Decision) × Enforcer σ κ) :=
  if !e.enabled then some (.ok (requests.map fun _ => allowed), e)
  else if cancelled then some (.error .cancelled, e)
  else e.decideAll? context requests

end AccessControl.Enforcer
