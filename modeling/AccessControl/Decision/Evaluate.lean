import AccessControl.Decision.Cache
import AccessControl.Matcher.Compiled
import AccessControl.Model.Links

/-! # Decisions on the rows of a model

A request is matched against the rows of a policy type in their order, and the matched rows are
folded by the effect, until that is decided. A matcher that does not read the row is evaluated once
for all of them.
-/

/-! ## Contexts

A context names the types that a decision is made with: one of requests, one of policies, one effect
and one matcher.
-/

namespace AccessControl

structure Context where
  requestType : String
  policyType : String
  effectType : String
  matcherType : String
  deriving DecidableEq

namespace Context

/-- The types whose names end in the same digits. -/
def ofSuffix (suffix : String) : Context :=
  { requestType := "r" ++ suffix
    policyType := "p" ++ suffix
    effectType := "e" ++ suffix
    matcherType := "m" ++ suffix }

/-- The types without a number. -/
def plain : Context := ofSuffix ""

def parts (context : Context) : List String :=
  [context.requestType, context.policyType, context.effectType, context.matcherType]

end Context

/-! ## Decisions -/

/-- Fold the rows that match, until the effect is decided. -/
def EffectFold.observeRows (fold : EffectFold) (matched : Row → Traced Bool)
    (effectOf : Row → Effect) (position : Nat) : List Row → Traced EffectFold
  | [] => return fold
  | row :: rest => do
    let isMatched ← matched row
    let next := if isMatched then fold.observe position (effectOf row) else fold
    if next.isDecided then return next
    else next.observeRows matched effectOf (position + 1) rest

/-- The decision of a finished fold over rows. -/
def Decision.ofOutcome (rows : List Row) (outcome : Bool × List Nat) : Decision :=
  { allowed := outcome.1, explain := outcome.2.filterMap fun position => rows[position]? }

namespace Model

/-- Refuse a request that has not one value for each field of its type. -/
def checkRequest (model : Model) (type : String) (request : List Value) : Except Error Unit := do
  let fields ← model.request type
  if request.length = fields.length then .ok ()
  else .error (.arityMismatch type fields.length request.length)

/-- How a row is matched. Where the row does not matter, the answer is found beforehand. -/
def rowTest (roles : RoleOracle) (matcher : Matcher) (request : List Value) :
    Traced (Row → Traced Bool) :=
  let test (row : Row) : Traced Bool := matcher.evaluate { request, row, roles }
  if matcher.usesPolicy then return test
  else do
    let answer ← test []
    return fun _ => return answer

/-- Decide a request in a context with a matcher and answers to role checks. Without rows nothing is
    allowed. -/
def evaluateWith (model : Model) (roles : RoleOracle) (context : Context) (matcher : Matcher)
    (request : List Value) : Traced Decision := do
  model.checkRequest context.requestType request
  let kind ← model.effect context.effectType
  let table ← model.policy context.policyType
  if table.rows.isEmpty then return { allowed := false, explain := [] }
  else
    let matched ← rowTest roles matcher request
    let fold : EffectFold := { kind }
    let fold ← fold.observeRows matched table.effectOf 0 table.rows
    return Decision.ofOutcome table.rows fold.finish

/-- Decide a request in a context with a matcher; role checks are answered by the role types. -/
def evaluate (model : Model) (context : Context) (matcher : Matcher) (request : List Value) :
    Traced Decision :=
  model.evaluateWith model.hasLink context matcher request

end Model

end AccessControl
