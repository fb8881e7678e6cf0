import AccessControl.Proofs.Matcher.Faults
import AccessControl.Proofs.Matcher.Fits
import AccessControl.Proofs.Matcher.Parse

/-! # Matchers do not go wrong

A strict evaluation stops where it would ask for a position or an argument that is not there, or
where an operator stands that cannot be applied. What was compiled never stops: names and numbers of
arguments were checked before, in rules that rows supply as well. Errors that are not about values
are those of such rules.
-/

namespace AccessControl

/-! ## Strict evaluation -/

/-- An evaluation that has an answer or an error, or none because it went wrong. -/
abbrev Strict (α : Type) := ExceptT Error Option α

namespace Strict

variable {α : Type}

def of (result : Except Error α) : Strict α := ExceptT.mk (some result)

theorem of_ok_bind {β : Type} (a : α) (f : α → Strict β) : (of (.ok a) >>= f) = f a := rfl

def wrong : Strict α := ExceptT.mk none

/-- Go wrong where there is nothing. -/
def demand : Option α → Strict α
  | some a => pure a
  | none => wrong

end Strict

namespace BinaryOp.Strict

/-- The orders of its operands that a comparison accepts. -/
def accepted? : BinaryOp → Option (Ordering → Bool)
  | .less => some (· == .lt)
  | .lessEqual => some (· != .gt)
  | .greater => some (· == .gt)
  | .greaterEqual => some (· != .lt)
  | _ => none

def compare (op : BinaryOp) (left right : Value) : Strict Value := do
  let o ← Strict.of (Value.ordering op left right)
  let accepted ← Strict.demand (accepted? op)
  return .bool (accepted o)

def arithmetic (op : BinaryOp) (left right : Value) : Strict Value :=
  match op with
  | .add => Strict.of (left.plus right)
  | .sub => Strict.of (Value.arithmetic op (· - ·) Binary64.sub left right)
  | .mul => Strict.of (Value.arithmetic op (· * ·) Binary64.mul left right)
  | .div => Strict.of (left.quotient right)
  | .rem => Strict.of (left.remainder right)
  | _ => Strict.wrong

/-- Apply an operator to two values. Those that may leave the right one out are not among them. -/
def apply (op : BinaryOp) (left right : Value) : Strict Value :=
  match op with
  | .equal => return .bool (left.looselyEqual right)
  | .notEqual => return .bool !(left.looselyEqual right)
  | .less | .lessEqual | .greater | .greaterEqual => compare op left right
  | .in => Strict.of (left.containedIn right)
  | .add | .sub | .mul | .div | .rem => arithmetic op left right
  | .or | .and => Strict.wrong

theorem apply_eq {op : BinaryOp} (binary : op.isLogical = false) (left right : Value) :
    apply op left right = Strict.of (op.apply left right) := by
  have compared (op : BinaryOp) (accepted : Ordering → Bool) (known : accepted? op = some accepted) :
      compare op left right = Strict.of (Value.compared op accepted left right) := by
    unfold compare Value.compared
    rw [known]
    cases Value.ordering op left right <;> rfl
  cases op with
  | or => simp [isLogical] at binary
  | and => simp [isLogical] at binary
  | less => exact compared _ _ rfl
  | lessEqual => exact compared _ _ rfl
  | greater => exact compared _ _ rfl
  | greaterEqual => exact compared _ _ rfl
  | _ => rfl

end BinaryOp.Strict

namespace Node.Strict

/-- Call with arguments, of which those that are needed must be there. -/
def call (env : Bindings) (onRule : String → Strict Value) (args : List Value) :
    Callee → Strict Value
  | .builtin f => Strict.of (f.call args)
  | .custom f => Strict.of (f.run args)
  | .role type => do
    let names := args.map Value.plainText
    let name ← Strict.demand names[0]?
    let role ← Strict.demand names[1]?
    return .bool (env.roles type name role names[2]?)
  | .rule => do
    let arg ← Strict.demand args[0]?
    match arg.text? with
    | some text => onRule text
    | none => Strict.of (.error (.evaluation (.ruleNotText arg.kind)))

mutual

def evaluate (env : Bindings) (onRule : String → Strict Value) : Node → Strict Value
  | .literal value => return value
  | .request position path => do
    let value ← Strict.demand env.request[position]?
    Strict.of (value.follow path)
  | .policy position path => do
    let text ← Strict.demand env.row[position]?
    Strict.of ((Value.str text).follow path)
  | .unary op operand => do
    let value ← evaluate env onRule operand
    Strict.of (op.apply value)
  | .binary .and left right => do
    let value ← evaluate env onRule left
    let condition ← Strict.of (value.asCondition "&&")
    if condition then
      let value ← evaluate env onRule right
      let condition ← Strict.of (value.asCondition "&&")
      return .bool condition
    else return .bool false
  | .binary .or left right => do
    let value ← evaluate env onRule left
    let condition ← Strict.of (value.asCondition "||")
    if condition then return .bool true
    else
      let value ← evaluate env onRule right
      let condition ← Strict.of (value.asCondition "||")
      return .bool condition
  | .binary op left right => do
    let left ← evaluate env onRule left
    let right ← evaluate env onRule right
    BinaryOp.Strict.apply op left right
  | .tuple items => do
    let values ← evaluateAll env onRule items
    return .list values
  | .call callee args => do
    let values ← evaluateAll env onRule args
    call env onRule values callee

def evaluateAll (env : Bindings) (onRule : String → Strict Value) :
    List Node → Strict (List Value)
  | [] => return []
  | node :: rest => do
    let value ← evaluate env onRule node
    let values ← evaluateAll env onRule rest
    return value :: values

end

end Node.Strict

namespace Matcher.Strict

/-- The resolved form of a rule. Its references must name fields for it to be resolved. -/
def rule (matcher : Matcher) (text : String) : Strict Node :=
  match matcher.rules.get? text with
  | some node => pure node
  | none => do
    let e ← Strict.of (Expr.parse text)
    if e.namesFields then Strict.of (matcher.scope.resolve true e) else Strict.wrong

/-- Evaluate a rule, from which no other may be loaded. -/
def evaluateRule (matcher : Matcher) (env : Bindings) (text : String) : Strict Value := do
  let node ← rule matcher text
  Node.Strict.evaluate env (fun _ => Strict.wrong) node

def evaluate (matcher : Matcher) (env : Bindings) : Strict Bool := do
  let value ← Node.Strict.evaluate env (evaluateRule matcher env) matcher.root
  Strict.of (asAnswer matcher.text value)

end Matcher.Strict

/-! ## Evaluations that end -/

/-- A strict evaluation does not go wrong and ends as the evaluation itself does, which raises no
    error of its own but about values; any other is that of a rule that it has loaded. -/
structure Ends {α : Type} (scope : Scope) (strict : Strict α) (x : Traced α) : Prop where
  agrees : strict = Strict.of x.result
  blame : ∀ error, x.result = .error error →
    error.IsEvaluation ∨
      ∃ text, .ruleLoaded text ∈ x.events ∧ Matcher.resolveRule scope text = .error error

namespace Ends

variable {α β : Type} {scope : Scope}

theorem of_evaluates {x : Except Error α} (evaluates : Except.Evaluates x) :
    Ends scope (Strict.of x) (Traced.ofExcept x) :=
  ⟨rfl, fun error failed => .inl (evaluates error failed)⟩

theorem pure (a : α) : Ends scope (Pure.pure a) (Pure.pure a) :=
  of_evaluates (Except.evaluates_ok a)

theorem bind {strict : Strict α} {x : Traced α} {f : α → Strict β} {g : α → Traced β}
    (first : Ends scope strict x) (rest : ∀ a, x.result = .ok a → Ends scope (f a) (g a)) :
    Ends scope (strict >>= f) (x >>= g) := by
  rw [first.agrees]
  cases answered : x.result with
  | error error =>
      have stopped : (x >>= g) = ⟨x.events, .error error⟩ := by
        show Traced.bind x g = _
        simp only [Traced.bind, answered]
      rw [stopped]
      refine ⟨rfl, fun other failed => ?_⟩
      rw [← Except.error.inj failed]
      exact first.blame error answered
  | ok a =>
      have went : (x >>= g) = ⟨x.events ++ (g a).events, (g a).result⟩ := by
        show Traced.bind x g = _
        simp only [Traced.bind, answered]
      rw [went]
      refine ⟨(rest a answered).agrees, fun error failed => ?_⟩
      rcases (rest a answered).blame error failed with own | ⟨text, loaded, refused⟩
      · exact .inl own
      · exact .inr ⟨text, List.mem_append_right _ loaded, refused⟩

theorem note {strict : Strict α} {x : Traced α} (ends : Ends scope strict x) (event : Event) :
    Ends scope strict (Traced.note event >>= fun _ => x) := by
  refine ⟨ends.agrees, fun error failed => ?_⟩
  rcases ends.blame error failed with own | ⟨text, loaded, refused⟩
  · exact .inl own
  · exact .inr ⟨text, List.mem_append_right _ loaded, refused⟩

end Ends

section

variable {scope : Scope} {nested : Bool} {env : Bindings} {strictRule : String → Strict Value}
  {onRule : String → Traced Value}

/-- What an evaluation may rely on where the row matters: that the row has its declared length, and
    that rules end. -/
def Served (scope : Scope) (nested : Bool) (env : Bindings) (strictRule : String → Strict Value)
    (onRule : String → Traced Value) (uses : Bool) : Prop :=
  uses = true → env.row.length = scope.policyFields.length ∧
    (nested = false → ∀ text, Ends scope (strictRule text) (onRule text))

theorem Served.left {a b : Bool} (served : Served scope nested env strictRule onRule (a || b)) :
    Served scope nested env strictRule onRule a := fun uses => served (by simp [uses])

theorem Served.right {a b : Bool} (served : Served scope nested env strictRule onRule (a || b)) :
    Served scope nested env strictRule onRule b := fun uses => served (by simp [uses])

theorem Callee.Takes.ends
    (functions : ∀ name f, scope.functions.lookup name = some (.custom f) →
      ∀ args, Except.Evaluates (f.run args))
    {callee : Callee} {args : List Value} (takes : callee.Takes scope nested args.length)
    (rules : callee = .rule → ∀ text, Ends scope (strictRule text) (onRule text)) :
    Ends scope (Node.Strict.call env strictRule args callee) (callee.call env onRule args) := by
  cases callee with
  | builtin f => exact Ends.of_evaluates (f.evaluates_call args)
  | custom f =>
      obtain ⟨name, registered⟩ := takes
      exact (Ends.of_evaluates (functions name f registered args)).note _
  | role type =>
      match args, takes with
      | [name, group], _ => exact (Ends.pure _).note _
      | [name, group, domain], _ => exact (Ends.pure _).note _
      | [], takes => simp [Takes] at takes
      | [_], takes => simp [Takes] at takes
      | _ :: _ :: _ :: _ :: _, takes => simp [Takes] at takes
  | rule =>
      obtain ⟨arg, rfl⟩ := List.length_eq_one_iff.mp takes.2
      cases arg with
      | str text => exact rules rfl text
      | _ => exact Ends.of_evaluates (Except.evaluates_error _)

mutual

/-- What fits its scope does not go wrong. -/
theorem Node.Fits.ends
    (functions : ∀ name f, scope.functions.lookup name = some (.custom f) →
      ∀ args, Except.Evaluates (f.run args))
    (request : env.request.length = scope.requestFields.length) :
    ∀ {node : Node}, node.Fits scope nested →
      Served scope nested env strictRule onRule node.usesPolicy →
      Ends scope (Node.Strict.evaluate env strictRule node) (node.evaluate env onRule)
  | .literal value, _, _ => Ends.pure value
  | .request position path, fits, _ => by
      have bound : position < env.request.length := request ▸ fits
      simp only [Node.Strict.evaluate, Node.evaluate, Bindings.requestValue,
        List.getElem?_eq_getElem bound]
      exact Ends.of_evaluates (Value.evaluates_follow path _)
  | .policy position path, fits, served => by
      have bound : position < env.row.length := (served rfl).1 ▸ fits
      simp only [Node.Strict.evaluate, Node.evaluate, Bindings.policyValue,
        List.getElem?_eq_getElem bound]
      exact Ends.of_evaluates (Value.evaluates_follow path _)
  | .unary op operand, fits, served => by
      have inner : Ends scope (Node.Strict.evaluate env strictRule operand)
          (operand.evaluate env onRule) := Node.Fits.ends functions request fits served
      exact inner.bind fun value _ => Ends.of_evaluates (op.evaluates_apply value)
  | .binary op left right, fits, served => by
      have first := Node.Fits.ends functions request fits.1 served.left
      have second := Node.Fits.ends functions request fits.2 served.right
      have asked (symbol : String) (value : Value) :
          Ends scope (Strict.of (value.asCondition symbol))
            (Traced.ofExcept (value.asCondition symbol)) :=
        Ends.of_evaluates (value.evaluates_asCondition symbol)
      cases op with
      | or =>
          refine first.bind fun value _ => (asked "||" value).bind fun condition _ => ?_
          cases condition with
          | true => exact Ends.pure _
          | false =>
              exact second.bind fun value _ => (asked "||" value).bind fun _ _ => Ends.pure _
      | and =>
          refine first.bind fun value _ => (asked "&&" value).bind fun condition _ => ?_
          cases condition with
          | true =>
              exact second.bind fun value _ => (asked "&&" value).bind fun _ _ => Ends.pure _
          | false => exact Ends.pure _
      | _ =>
          refine first.bind fun left _ => second.bind fun right _ => ?_
          rw [BinaryOp.Strict.apply_eq rfl]
          exact Ends.of_evaluates (BinaryOp.evaluates_apply _ left right)
  | .tuple items, fits, served => by
      have all : Ends scope (Node.Strict.evaluateAll env strictRule items)
          (Node.evaluateAll env onRule items) := Node.AllFit.ends functions request fits served
      exact all.bind fun values _ => Ends.pure _
  | .call callee args, fits, served => by
      have uses (any : Node.anyUsesPolicy args = true) :
          (Node.call callee args).usesPolicy = true := by
        cases callee <;> simp [Node.usesPolicy, any]
      have all := Node.AllFit.ends functions request fits.1 fun any => served (uses any)
      rw [Node.evaluate_call]
      refine all.bind fun values evaluated => ?_
      have takes : callee.Takes scope nested values.length :=
        Node.length_of_evaluateAll evaluated ▸ fits.2
      refine takes.ends functions fun isRule => ?_
      subst isRule
      exact (served rfl).2 takes.1

theorem Node.AllFit.ends
    (functions : ∀ name f, scope.functions.lookup name = some (.custom f) →
      ∀ args, Except.Evaluates (f.run args))
    (request : env.request.length = scope.requestFields.length) :
    ∀ {nodes : List Node}, Node.AllFit scope nested nodes →
      Served scope nested env strictRule onRule (Node.anyUsesPolicy nodes) →
      Ends scope (Node.Strict.evaluateAll env strictRule nodes) (Node.evaluateAll env onRule nodes)
  | [], _, _ => Ends.pure []
  | node :: rest, fits, served => by
      have first := Node.Fits.ends functions request fits.1 served.left
      have others := Node.AllFit.ends functions request fits.2 served.right
      exact first.bind fun value _ => others.bind fun values _ => Ends.pure _

end

end

/-! ## Matchers -/

namespace Matcher

variable {scope : Scope} {text : String} {matcher : Matcher} {env : Bindings}

/-- What the parser builds can be resolved strictly. -/
theorem Strict.rule_eq (matcher : Matcher) (ruleText : String) :
    Strict.rule matcher ruleText = Strict.of (matcher.rule ruleText) := by
  unfold Strict.rule Matcher.rule resolveRule
  cases matcher.rules.get? ruleText with
  | some node => rfl
  | none =>
      cases parsed : Expr.parse ruleText with
      | error error => rfl
      | ok e =>
          simp only [Strict.of_ok_bind, if_pos (Expr.namesFields_of_parse parsed)]
          rfl

theorem Resolves.ends_rule (resolves : matcher.Resolves scope text)
    (functions : ∀ name f, scope.functions.lookup name = some (.custom f) →
      ∀ args, Except.Evaluates (f.run args))
    (request : env.request.length = scope.requestFields.length)
    (row : env.row.length = scope.policyFields.length) (ruleText : String) :
    Ends scope (Strict.evaluateRule matcher env ruleText) (matcher.evaluateRule env ruleText) := by
  unfold Strict.evaluateRule evaluateRule
  rw [Strict.rule_eq, resolves.sound.rule_eq, resolves.scope_eq]
  cases resolved : resolveRule scope ruleText with
  | error error =>
      refine ⟨rfl, fun other failed => .inr ⟨ruleText, List.mem_cons_self, ?_⟩⟩
      have same : error = other := Except.error.inj failed
      rw [resolved, same]
  | ok node =>
      obtain ⟨e, _, inScope⟩ := Except.bind_eq_ok_iff.mp resolved
      have fits := Scope.fits_of_resolve inScope
      exact (fits.ends functions request fun _ => ⟨row, by simp⟩).note _

/-- A compiled matcher never asks for a request or row value that is not there, for an argument that
    a call does not have, or for an operator that cannot be applied. It raises errors about values
    only, or those of a rule that it has loaded and that cannot be read or resolved. -/
theorem CompiledFrom.evaluate_never_wrong (compiled : CompiledFrom scope text matcher)
    (functions : ∀ name f, scope.functions.lookup name = some (.custom f) →
      ∀ args, Except.Evaluates (f.run args))
    (request : env.request.length = scope.requestFields.length)
    (row : matcher.usesPolicy = true → env.row.length = scope.policyFields.length) :
    Strict.evaluate matcher env = Strict.of (matcher.evaluate env).result ∧
      ∀ error, (matcher.evaluate env).result = .error error →
        error.IsEvaluation ∨
          ∃ ruleText, .ruleLoaded ruleText ∈ (matcher.evaluate env).events ∧
            resolveRule scope ruleText = .error error := by
  have resolves := compiled.resolves
  obtain ⟨e, _, resolved⟩ := resolves.root
  have served : Served scope false env (Strict.evaluateRule matcher env) (matcher.evaluateRule env)
      matcher.root.usesPolicy := by
    intro uses
    exact ⟨row uses, fun _ => resolves.ends_rule functions request (row uses)⟩
  have root := (Scope.fits_of_resolve resolved).ends functions request served
  have answer (value : Value) : Except.Evaluates (asAnswer matcher.text value) := by
    unfold asAnswer
    split <;> simp
  have ends := root.bind fun value _ => Ends.of_evaluates (answer value)
  exact ⟨ends.agrees, ends.blame⟩

/-- A scope in which one function is registered, which always fails. -/
def failingScope : Scope :=
  { ruleScope with
    functions := [("check", .custom ⟨"check", fun _ => .error (.evaluation (.custom "failed"))⟩)] }

def failingMatcher : Matcher := { ruleMatcher with scope := failingScope }

/-- A rule of a row calls the function that fails. -/
theorem failing_rule_never_wrong :
    CompiledFrom failingScope "eval(p.rule)" failingMatcher ∧
      (Strict.evaluate failingMatcher (aliceUnder "check(r.sub)") =
          Strict.of (failingMatcher.evaluate (aliceUnder "check(r.sub)")).result ∧
        ∀ error, (failingMatcher.evaluate (aliceUnder "check(r.sub)")).result = .error error →
          error.IsEvaluation ∨
            ∃ ruleText,
              .ruleLoaded ruleText ∈ (failingMatcher.evaluate (aliceUnder "check(r.sub)")).events ∧
                resolveRule failingScope ruleText = .error error) ∧
      (failingMatcher.evaluate (aliceUnder "check(r.sub)")).result =
        .error (.evaluation (.custom "failed")) := by
  have compiled : CompiledFrom failingScope "eval(p.rule)" failingMatcher := .compile rfl
  refine ⟨compiled, ?_, rfl⟩
  refine compiled.evaluate_never_wrong (fun name f registered args => ?_) rfl fun _ => rfl
  obtain ⟨before, after, entries, _⟩ := List.lookup_eq_some_iff.mp registered
  have member : (name, Function.custom f) ∈ failingScope.functions := by simp [entries]
  obtain ⟨-, rfl⟩ := by simpa [failingScope] using member
  simp

end Matcher

end AccessControl
