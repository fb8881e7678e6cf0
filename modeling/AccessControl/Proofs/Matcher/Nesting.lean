import AccessControl.Model.Definition
import AccessControl.Proofs.Matcher.Fits
import AccessControl.Section

/-! # Rules do not nest

A row supplies rules as text, and a rule could load another one, or itself. Here a rule is computed
as the expression that loads it is, and enters other rules in the same way, down to a depth that may
be as great as one likes. Such a computation of a matcher never gets deeper than one rule, and ends
with what the evaluation yields, because no text that calls for a rule becomes a rule. It fails
instead, wherever in the text the call stands.
-/

namespace AccessControl

/-! ## Computations -/

/-- A computation that may run for ever: an answer or an error, or none if it does not end. -/
abbrev Computation (α : Type) := ExceptT Error Option α

namespace Computation

variable {α β : Type}

def ended (result : Except Error α) : Computation α := ExceptT.mk (some result)

def endless : Computation α := ExceptT.mk none

theorem ended_bind {x : Traced α} {f : α → Computation β} {g : α → Traced β}
    (rest : ∀ a, x.result = .ok a → f a = ended (g a).result) :
    (ended x.result >>= f) = ended (x >>= g).result := by
  rw [Traced.result_bind]
  cases answered : x.result with
  | error error => rfl
  | ok a => exact rest a answered

theorem ended_bind_lift {x : Except Error α} {f : α → Computation β} {g : α → Traced β}
    (rest : ∀ a, x = .ok a → f a = ended (g a).result) :
    (ended x >>= f) = ended ((liftM x : Traced α) >>= g).result :=
  ended_bind (x := Traced.ofExcept x) rest

end Computation

namespace Node

mutual

/-- Compute an expression. Rules that are given as text are handed to `onRule`. -/
def compute (env : Bindings) (onRule : String → Computation Value) : Node → Computation Value
  | .literal value => return value
  | .request position path => Computation.ended do
    let value ← env.requestValue position
    value.follow path
  | .policy position path => Computation.ended do
    let value ← env.policyValue position
    value.follow path
  | .unary op operand => do
    let value ← operand.compute env onRule
    Computation.ended (op.apply value)
  | .binary op left right => do
    let leftValue ← left.compute env onRule
    if op.isLogical then
      let condition ← Computation.ended (leftValue.asCondition op.symbol)
      match op.decidedBy? condition with
      | some answer => return .bool answer
      | none =>
        let value ← right.compute env onRule
        let condition ← Computation.ended (value.asCondition op.symbol)
        return .bool condition
    else
      let value ← right.compute env onRule
      Computation.ended (op.apply leftValue value)
  | .tuple items => do
    let values ← computeAll env onRule items
    return .list values
  | .call callee args => do
    let values ← computeAll env onRule args
    match callee with
    | .builtin f => Computation.ended (f.call values)
    | .custom f => Computation.ended (f.run values)
    | .role type => Computation.ended (env.checkRole type values).result
    | .rule =>
      let text ← Computation.ended (Value.ruleText values)
      onRule text

def computeAll (env : Bindings) (onRule : String → Computation Value) :
    List Node → Computation (List Value)
  | [] => return []
  | node :: rest => do
    let value ← node.compute env onRule
    let values ← computeAll env onRule rest
    return value :: values

end

/-- Load a rule and compute it as the expression that called for it, and the rules that it calls for
    in turn. There is no end to this where it would get deeper than the depth that is left. -/
def enter (load : String → Except Error Node) (env : Bindings) : Nat → String → Computation Value
  | 0, _ => Computation.endless
  | depth + 1, text => do
    let node ← Computation.ended (load text)
    node.compute env (enter load env depth)

mutual

/-- Whether an expression calls for a rule that is given as text. -/
def loadsRules : Node → Bool
  | .literal _ => false
  | .request _ _ => false
  | .policy _ _ => false
  | .unary _ operand => operand.loadsRules
  | .binary _ left right => left.loadsRules || right.loadsRules
  | .tuple items => anyLoadsRules items
  | .call .rule _ => true
  | .call _ args => anyLoadsRules args

def anyLoadsRules : List Node → Bool
  | [] => false
  | node :: rest => node.loadsRules || anyLoadsRules rest

end

section

variable {env : Bindings} {onRule : String → Traced Value} {enterRule : String → Computation Value}

theorem anyLoadsRules_of_call {callee : Callee} {args : List Node}
    (loads : anyLoadsRules args = true) : (Node.call callee args).loadsRules = true := by
  cases callee <;> simp [loadsRules, loads]

mutual

/-- A computation ends as the evaluation does, if every rule that it may call for is computed to what
    the evaluation takes for it. -/
theorem compute_eq_ended : ∀ node : Node,
    (node.loadsRules = true → ∀ text, enterRule text = Computation.ended (onRule text).result) →
    node.compute env enterRule = Computation.ended (node.evaluate env onRule).result
  | .literal value, _ => by simp only [compute, evaluate]; rfl
  | .request position path, _ => by simp only [compute, evaluate]; rfl
  | .policy position path, _ => by simp only [compute, evaluate]; rfl
  | .unary op operand, rules => by
      simp only [compute, evaluate]
      rw [compute_eq_ended operand rules]
      exact Computation.ended_bind fun value _ => rfl
  | .binary op left right, rules => by
      have first := compute_eq_ended left fun loads => rules (by simp [loadsRules, loads])
      have second := compute_eq_ended right fun loads =>
        rules (by simp [loadsRules, loads])
      simp only [compute, evaluate]
      rw [first]
      cases logical : op.isLogical with
      | false =>
          simp only [Bool.false_eq_true, if_false]
          refine Computation.ended_bind fun value _ => ?_
          rw [second]
          exact Computation.ended_bind fun other _ => rfl
      | true =>
          simp only [if_true]
          refine Computation.ended_bind fun value _ => ?_
          refine Computation.ended_bind_lift fun condition _ => ?_
          cases op.decidedBy? condition with
          | some answer => rfl
          | none =>
              simp only
              rw [second]
              refine Computation.ended_bind fun other _ => ?_
              exact Computation.ended_bind_lift fun condition _ => rfl
  | .tuple items, rules => by
      simp only [compute, evaluate]
      rw [computeAll_eq_ended items rules]
      exact Computation.ended_bind fun values _ => rfl
  | .call callee args, rules => by
      rw [evaluate_call]
      simp only [compute]
      rw [computeAll_eq_ended args fun loads => rules (anyLoadsRules_of_call loads)]
      refine Computation.ended_bind fun values _ => ?_
      cases callee with
      | builtin f => rfl
      | custom f => rfl
      | role type => rfl
      | rule =>
          exact Computation.ended_bind (x := Traced.ofExcept (Value.ruleText values))
            fun text _ => rules rfl text

theorem computeAll_eq_ended : ∀ nodes : List Node,
    (anyLoadsRules nodes = true → ∀ text, enterRule text = Computation.ended (onRule text).result) →
    computeAll env enterRule nodes = Computation.ended (evaluateAll env onRule nodes).result
  | [], _ => by simp only [computeAll, evaluateAll]; rfl
  | node :: rest, rules => by
      simp only [computeAll, evaluateAll]
      rw [compute_eq_ended node fun loads => rules (by simp [anyLoadsRules, loads])]
      refine Computation.ended_bind fun value _ => ?_
      rw [computeAll_eq_ended rest fun loads => rules (by simp [anyLoadsRules, loads])]
      exact Computation.ended_bind fun values _ => rfl

end

mutual

/-- What fits a scope as a rule calls for no other rule. -/
theorem Fits.loadsRules_eq {scope : Scope} : ∀ node : Node, node.Fits scope true →
    node.loadsRules = false
  | .literal _, _ => rfl
  | .request _ _, _ => rfl
  | .policy _ _, _ => rfl
  | .unary _ operand, fits => Fits.loadsRules_eq operand fits
  | .binary _ left right, fits => by
      simp [loadsRules, Fits.loadsRules_eq left fits.1, Fits.loadsRules_eq right fits.2]
  | .tuple items, fits => AllFit.anyLoadsRules_eq items fits
  | .call callee args, fits => by
      have none := AllFit.anyLoadsRules_eq args fits.1
      cases callee with
      | rule => exact absurd fits.2.1 (by simp)
      | _ => simpa [loadsRules] using none

theorem AllFit.anyLoadsRules_eq {scope : Scope} : ∀ nodes : List Node,
    AllFit scope true nodes → anyLoadsRules nodes = false
  | [], _ => rfl
  | node :: rest, fits => by
      simp [anyLoadsRules, Fits.loadsRules_eq node fits.1, AllFit.anyLoadsRules_eq rest fits.2]

end

end

end Node

/-! ## Texts that call for rules -/

namespace Expr

mutual

/-- Whether the evaluation of a rule is called for anywhere in an expression, by its name. -/
def callsRule : Expr → Bool
  | .literal _ => false
  | .identifier _ _ => false
  | .field _ _ _ => false
  | .unary _ operand => operand.callsRule
  | .binary _ left right => left.callsRule || right.callsRule
  | .tuple items => anyCallsRule items
  | .call name args _ => name == Scope.ruleFunction || anyCallsRule args

def anyCallsRule : List Expr → Bool
  | [] => false
  | e :: rest => e.callsRule || anyCallsRule rest

end

end Expr

namespace Scope

variable {scope : Scope}

/-- Role types have the names that a model may declare role types with. -/
def NamesRoleTypes (scope : Scope) : Prop :=
  ∀ entry ∈ scope.roleTypes, Definition.checkKey Section.role.key entry.1 = .ok ()

theorem NamesRoleTypes.lookup_ruleFunction (named : scope.NamesRoleTypes) :
    scope.roleTypes.lookup ruleFunction = none := by
  cases found : scope.roleTypes.lookup ruleFunction with
  | none => rfl
  | some fieldCount =>
      obtain ⟨before, after, entries, _⟩ := List.lookup_eq_some_iff.mp found
      have declared : Definition.checkKey Section.role.key ruleFunction = .ok () :=
        named (ruleFunction, fieldCount) (by simp [entries])
      have foreign : Definition.checkKey Section.role.key ruleFunction =
          .error (.modelDefinition (.foreignKey ruleFunction Section.role.key)) := rfl
      rw [foreign] at declared
      contradiction

theorem NamesRoleTypes.ne_ruleFunction (named : scope.NamesRoleTypes) {name : String}
    {count : Nat} {callee : Callee} (resolved : scope.callee true name count = .ok callee) :
    name ≠ ruleFunction := by
  rintro rfl
  simp [Scope.callee, named.lookup_ruleFunction] at resolved

mutual

theorem NamesRoleTypes.callsRule_eq (named : scope.NamesRoleTypes) :
    ∀ {e : Expr} {node : Node}, scope.resolve true e = .ok node → e.callsRule = false
  | .literal _, _, _ => rfl
  | .identifier _ _, _, _ => rfl
  | .field _ _ _, _, _ => rfl
  | .unary _ operand, _, resolved => by
      obtain ⟨_, inner, _⟩ := Except.bind_eq_ok_iff.mp resolved
      have free := named.callsRule_eq inner
      exact free
  | .binary _ left right, _, resolved => by
      obtain ⟨_, first, rest⟩ := Except.bind_eq_ok_iff.mp resolved
      obtain ⟨_, second, _⟩ := Except.bind_eq_ok_iff.mp rest
      simp [Expr.callsRule, named.callsRule_eq first, named.callsRule_eq second]
  | .tuple items, _, resolved => by
      obtain ⟨_, all, _⟩ := Except.bind_eq_ok_iff.mp resolved
      have free := named.anyCallsRule_eq all
      exact free
  | .call name args _, _, resolved => by
      obtain ⟨_, all, rest⟩ := Except.bind_eq_ok_iff.mp resolved
      obtain ⟨_, found, _⟩ := Except.bind_eq_ok_iff.mp rest
      simp [Expr.callsRule, named.ne_ruleFunction found, named.anyCallsRule_eq all]

theorem NamesRoleTypes.anyCallsRule_eq (named : scope.NamesRoleTypes) :
    ∀ {es : List Expr} {nodes : List Node}, scope.resolveAll true es = .ok nodes →
      Expr.anyCallsRule es = false
  | [], _, _ => rfl
  | _ :: _, _, resolved => by
      obtain ⟨_, first, others⟩ := Except.bind_eq_ok_iff.mp resolved
      obtain ⟨_, all, _⟩ := Except.bind_eq_ok_iff.mp others
      simp [Expr.anyCallsRule, named.callsRule_eq first, named.anyCallsRule_eq all]

end

end Scope

/-! ## Matchers -/

namespace Matcher

variable {scope : Scope} {text ruleText : String} {matcher : Matcher} {env : Bindings}

/-- Compute a matcher and the rules that it calls for, down to a depth. -/
def compute (matcher : Matcher) (depth : Nat) (env : Bindings) : Computation Bool := do
  let value ← matcher.root.compute env (Node.enter matcher.rule env depth)
  Computation.ended (asAnswer matcher.text value)

/-- A text with a call for a rule anywhere in it, or that cannot be read, is no rule. -/
theorem resolveRule_error (named : scope.NamesRoleTypes)
    (calls : ∀ e, Expr.parse ruleText = .ok e → e.callsRule = true) :
    ∃ error, resolveRule scope ruleText = .error error := by
  cases resolved : resolveRule scope ruleText with
  | error error => exact ⟨error, rfl⟩
  | ok node =>
      obtain ⟨e, parsed, inScope⟩ := Except.bind_eq_ok_iff.mp resolved
      have free := named.callsRule_eq inScope
      rw [calls e parsed] at free
      contradiction

theorem Resolves.loadsRules_eq (resolves : matcher.Resolves scope text) {node : Node}
    (loaded : matcher.rule ruleText = .ok node) : node.loadsRules = false := by
  rw [resolves.sound.rule_eq, resolves.scope_eq] at loaded
  obtain ⟨_, _, inScope⟩ := Except.bind_eq_ok_iff.mp loaded
  exact Node.Fits.loadsRules_eq node (Scope.fits_of_resolve inScope)

/-- A rule is computed as it is evaluated: it calls for no other rule, so that no depth is needed
    inside it. -/
theorem Resolves.enter_rule (resolves : matcher.Resolves scope text) (depth : Nat)
    (ruleText : String) : Node.enter matcher.rule env (depth + 1) ruleText =
      Computation.ended (matcher.evaluateRule env ruleText).result := by
  have noted : (matcher.evaluateRule env ruleText).result =
      ((liftM (matcher.rule ruleText) : Traced Node) >>=
        fun node => node.evaluate env refuseRule).result := by
    simp [evaluateRule]
  rw [noted, Node.enter]
  refine Computation.ended_bind_lift fun node loaded => ?_
  have free := resolves.loadsRules_eq loaded
  exact Node.compute_eq_ended node fun loads => by simp [free] at loads

/-- The evaluation of a compiled matcher ends, though nothing bounds it: a computation that enters
    rules inside rules never gets deeper than one rule, however deep it might go, and comes to the
    same answer or error. A rule that has been loaded calls for no other one, so that there is
    nothing to enter inside it. A text with a call for a rule anywhere in it, or that cannot be read,
    makes the call that was to load it fail, and is never remembered. -/
theorem CompiledFrom.evaluation_ends (compiled : CompiledFrom scope text matcher)
    (named : scope.NamesRoleTypes) :
    (∀ depth env, matcher.compute (depth + 1) env =
        Computation.ended (matcher.evaluate env).result) ∧
      (∀ ruleText node, matcher.rule ruleText = .ok node → node.loadsRules = false) ∧
      ∀ ruleText, (∀ e, Expr.parse ruleText = .ok e → e.callsRule = true) →
        matcher.rules.get? ruleText = none ∧
          ∀ env (arg : Node),
            (arg.evaluate env (matcher.evaluateRule env)).result = .ok (.str ruleText) →
            ∃ error, ((Node.call .rule [arg]).evaluate env (matcher.evaluateRule env)).result =
              .error error := by
  have resolves := compiled.resolves
  refine ⟨fun depth env => ?_, fun ruleText node loaded => resolves.loadsRules_eq loaded,
    fun ruleText calls => ?_⟩
  · have root : matcher.root.compute env (Node.enter matcher.rule env (depth + 1)) =
        Computation.ended (matcher.root.evaluate env (matcher.evaluateRule env)).result :=
      Node.compute_eq_ended matcher.root fun _ ruleText => resolves.enter_rule depth ruleText
    unfold compute Matcher.evaluate
    rw [root]
    exact Computation.ended_bind fun value _ => rfl
  · obtain ⟨error, refused⟩ := resolveRule_error named calls
    constructor
    · cases found : matcher.rules.get? ruleText with
      | none => rfl
      | some node =>
          have resolved : resolveRule matcher.scope ruleText = .ok node :=
            Memo.Sound.get? resolves.sound found
          rw [resolves.scope_eq, refused] at resolved
          contradiction
    · intro env arg given
      refine ⟨error, ?_⟩
      rw [Node.evaluate_call]
      simp [Node.evaluateAll, given, Callee.call, Value.ruleText, evaluateRule,
        resolves.sound.rule_eq, resolves.scope_eq, refused]

/-- Rules may check two types of roles. -/
def roleRuleScope : Scope := { ruleScope with roleTypes := [("g", 2), ("g2", 3)] }

def roleRuleMatcher : Matcher := { ruleMatcher with scope := roleRuleScope }

/-- A rule that loads itself where its evaluation would not get to. -/
def skippedRule : String := "true || eval(p.rule)"

theorem evaluation_ends_skippedRule :
    let matcher := roleRuleMatcher.remember
      (roleRuleMatcher.evaluate (aliceUnder skippedRule)).events
    matcher.compute 1 (aliceUnder skippedRule) =
        Computation.ended (.error (.evaluation .nestedRule)) ∧
      matcher.rules.get? skippedRule = none ∧
      matcher.root.loadsRules = true ∧
      ∃ error, ((Node.call .rule [.policy 1 []]).evaluate (aliceUnder skippedRule)
        (matcher.evaluateRule (aliceUnder skippedRule))).result = .error error := by
  have compiled : CompiledFrom roleRuleScope "eval(p.rule)" roleRuleMatcher := .compile rfl
  have named : roleRuleScope.NamesRoleTypes := by
    simp only [Scope.NamesRoleTypes, roleRuleScope, List.forall_mem_cons]
    exact ⟨rfl, rfl, by simp⟩
  obtain ⟨ends, _, refused⟩ :=
    (compiled.evaluate (aliceUnder skippedRule)).evaluation_ends named
  obtain ⟨forgotten, fails⟩ := refused skippedRule fun e parsed => by
    have read : (Expr.parse skippedRule).map Expr.callsRule = .ok true := rfl
    rw [parsed] at read
    exact Except.ok.inj read
  exact ⟨ends 0 (aliceUnder skippedRule), forgotten, rfl, fails _ _ rfl⟩

end Matcher

end AccessControl
