import AccessControl.Proofs.Matcher.ByName
import AccessControl.Proofs.Value.Symmetry

/-! # The sides of an equality

The sides of one `==` or `!=` of a matcher may be exchanged, wherever it stands: if both have
values, the matcher keeps its answer, or the error that it ends with. An exchange moves names within
the text. So expressions are compared without the places of their names, which mean nothing.
-/

namespace AccessControl

/-! ## Expressions without places -/

namespace Expr

mutual

/-- An expression in which no name has a place. -/
def unplaced : Expr → Expr
  | .literal value => .literal value
  | .identifier name _ => .identifier name 0
  | .field base path _ => .field base path 0
  | .unary op operand => .unary op operand.unplaced
  | .binary op left right => .binary op left.unplaced right.unplaced
  | .tuple items => .tuple (unplacedAll items)
  | .call name args _ => .call name (unplacedAll args) 0

def unplacedAll : List Expr → List Expr
  | [] => []
  | e :: rest => e.unplaced :: unplacedAll rest

end

end Expr

namespace Scope

variable {scope : Scope} {nested : Bool}

mutual

theorem resolve_unplaced (e : Expr) : scope.resolve nested e.unplaced = scope.resolve nested e := by
  cases e with
  | literal | identifier => rfl
  | field base path => cases path <;> rfl
  | unary op operand => rw [Expr.unplaced, resolve, resolve, resolve_unplaced operand]
  | binary op left right =>
      rw [Expr.unplaced, resolve, resolve, resolve_unplaced left, resolve_unplaced right]
  | tuple items => rw [Expr.unplaced, resolve, resolve, resolveAll_unplacedAll items]
  | call name args => rw [Expr.unplaced, resolve, resolve, resolveAll_unplacedAll args]

theorem resolveAll_unplacedAll (es : List Expr) :
    scope.resolveAll nested (Expr.unplacedAll es) = scope.resolveAll nested es := by
  cases es with
  | nil => rfl
  | cons e rest =>
      rw [Expr.unplacedAll, resolveAll, resolveAll, resolve_unplaced e, resolveAll_unplacedAll rest]

end

end Scope

/-! ## Exchanges -/

theorem BinaryOp.apply_comm {op : BinaryOp} (equality : op = .equal ∨ op = .notEqual)
    (left right : Value) : op.apply left right = op.apply right left := by
  rcases equality with rfl | rfl <;> rw [apply, apply, Value.looselyEqual_comm]

/-- The sides of one `==` or `!=` are exchanged, somewhere in an expression. Something holds of
    both. -/
inductive Expr.Exchanged (valued : Expr → Prop) : Expr → Expr → Prop where
  | sides {op : BinaryOp} {left right : Expr} (equality : op = .equal ∨ op = .notEqual)
      (first : valued left) (second : valued right) :
      Exchanged valued (.binary op left right) (.binary op right left)
  | operand (op : UnaryOp) {e e' : Expr} (within : Exchanged valued e e') :
      Exchanged valued (.unary op e) (.unary op e')
  | left (op : BinaryOp) {e e' : Expr} (right : Expr) (within : Exchanged valued e e') :
      Exchanged valued (.binary op e right) (.binary op e' right)
  | right (op : BinaryOp) (left : Expr) {e e' : Expr} (within : Exchanged valued e e') :
      Exchanged valued (.binary op left e) (.binary op left e')
  | item (before : List Expr) {e e' : Expr} (after : List Expr) (within : Exchanged valued e e') :
      Exchanged valued (.tuple (before ++ e :: after)) (.tuple (before ++ e' :: after))
  | argument (name : String) (before : List Expr) {e e' : Expr} (after : List Expr) (offset : Nat)
      (within : Exchanged valued e e') :
      Exchanged valued (.call name (before ++ e :: after) offset)
        (.call name (before ++ e' :: after) offset)

/-- An expression resolves, and evaluates without an error. -/
def Expr.HasValue (scope : Scope) (nested : Bool) (env : Bindings)
    (onRule : String → Traced Value) (e : Expr) : Prop :=
  ∃ node value, scope.resolve nested e = .ok node ∧ (node.evaluate env onRule).result = .ok value

section

variable {scope : Scope} {nested : Bool} {env : Bindings} {onRule : String → Traced Value}

/-- Two resolved expressions come to the same. -/
def Node.Agrees (env : Bindings) (onRule : String → Traced Value) (node node' : Node) : Prop :=
  (node'.evaluate env onRule).result = (node.evaluate env onRule).result

namespace Node.Agrees

variable {node node' : Node}

theorem unary (agrees : node.Agrees env onRule node') (op : UnaryOp) :
    (Node.unary op node).Agrees env onRule (.unary op node') := by
  rw [Agrees] at agrees
  simp [Agrees, evaluate, agrees]

theorem left (agrees : node.Agrees env onRule node') (op : BinaryOp) (other : Node) :
    (Node.binary op node other).Agrees env onRule (.binary op node' other) := by
  rw [Agrees] at agrees
  cases logical : op.isLogical <;> simp [Agrees, evaluate, logical, agrees]

/-- A side that is left out agrees all the more. -/
theorem right (agrees : node.Agrees env onRule node') (op : BinaryOp) (other : Node) :
    (Node.binary op other node).Agrees env onRule (.binary op other node') := by
  rw [Agrees] at agrees
  cases logical : op.isLogical
  · simp [Agrees, evaluate, logical, agrees]
  · simp only [Agrees, evaluate, logical, if_true, Traced.result_bind]
    refine congrArg _ (funext fun value => congrArg _ (funext fun condition => ?_))
    cases op.decidedBy? condition
    · simp [agrees]
    · rfl

theorem evaluateAll (agrees : node.Agrees env onRule node') (before after : List Node) :
    (Node.evaluateAll env onRule (before ++ node' :: after)).result =
      (Node.evaluateAll env onRule (before ++ node :: after)).result := by
  rw [Agrees] at agrees
  induction before with
  | nil => simp [Node.evaluateAll, agrees]
  | cons first before ih => simp [Node.evaluateAll, ih]

end Node.Agrees

theorem Scope.resolveAll_append_cons {before after : List Expr} {e : Expr} {nodes : List Node}
    (resolved : scope.resolveAll nested (before ++ e :: after) = .ok nodes) :
    ∃ front node back, nodes = front ++ node :: back ∧ scope.resolve nested e = .ok node ∧
      ∀ e' node', scope.resolve nested e' = .ok node' →
        scope.resolveAll nested (before ++ e' :: after) = .ok (front ++ node' :: back) := by
  induction before generalizing nodes with
  | nil =>
      obtain ⟨node, here, rest⟩ := Except.bind_eq_ok_iff.mp resolved
      obtain ⟨back, behind, eq⟩ := Except.bind_eq_ok_iff.mp rest
      refine ⟨[], node, back, (Except.ok.inj eq).symm, here, fun e' node' here' => ?_⟩
      rw [List.nil_append, resolveAll, here', behind]
      rfl
  | cons first before ih =>
      obtain ⟨node₁, here, rest⟩ := Except.bind_eq_ok_iff.mp resolved
      obtain ⟨others, behind, eq⟩ := Except.bind_eq_ok_iff.mp rest
      obtain ⟨front, node, back, rfl, inner, again⟩ := ih behind
      refine ⟨node₁ :: front, node, back, (Except.ok.inj eq).symm, inner, fun e' node' here' => ?_⟩
      rw [List.cons_append, resolveAll, here, again e' node' here']
      rfl

/-- An exchange of sides that have values keeps an expression resolved, and its value or error. -/
theorem Expr.Exchanged.resolve {e e' : Expr}
    (exchanged : Exchanged (HasValue scope nested env onRule) e e') {node : Node}
    (resolved : scope.resolve nested e = .ok node) :
    ∃ node', scope.resolve nested e' = .ok node' ∧ node.Agrees env onRule node' := by
  induction exchanged generalizing node with
  | @sides op left right equality first second =>
      obtain ⟨node₁, a, resolved₁, value₁⟩ := first
      obtain ⟨node₂, b, resolved₂, value₂⟩ := second
      rw [Scope.resolve, resolved₁, resolved₂] at resolved
      obtain rfl := Except.ok.inj resolved
      refine ⟨.binary op node₂ node₁, by rw [Scope.resolve, resolved₂, resolved₁]; rfl, ?_⟩
      have plain : op.isLogical = false := by rcases equality with rfl | rfl <;> rfl
      simp [Node.Agrees, Node.evaluate, plain, value₁, value₂, BinaryOp.apply_comm equality b a]
  | operand op within ih =>
      obtain ⟨inner, here, eq⟩ := Except.bind_eq_ok_iff.mp resolved
      obtain rfl := Except.ok.inj eq
      obtain ⟨inner', here', agrees⟩ := ih here
      exact ⟨.unary op inner', by rw [Scope.resolve, here']; rfl, agrees.unary op⟩
  | left op right within ih =>
      obtain ⟨inner, here, rest⟩ := Except.bind_eq_ok_iff.mp resolved
      obtain ⟨other, there, eq⟩ := Except.bind_eq_ok_iff.mp rest
      obtain rfl := Except.ok.inj eq
      obtain ⟨inner', here', agrees⟩ := ih here
      refine ⟨.binary op inner' other, ?_, agrees.left op other⟩
      rw [Scope.resolve, here', there]
      rfl
  | right op left within ih =>
      obtain ⟨other, there, rest⟩ := Except.bind_eq_ok_iff.mp resolved
      obtain ⟨inner, here, eq⟩ := Except.bind_eq_ok_iff.mp rest
      obtain rfl := Except.ok.inj eq
      obtain ⟨inner', here', agrees⟩ := ih here
      refine ⟨.binary op other inner', ?_, agrees.right op other⟩
      rw [Scope.resolve, there, here']
      rfl
  | item before after within ih =>
      obtain ⟨nodes, all, eq⟩ := Except.bind_eq_ok_iff.mp resolved
      obtain rfl := Except.ok.inj eq
      obtain ⟨front, inner, back, rfl, here, again⟩ := Scope.resolveAll_append_cons all
      obtain ⟨inner', here', agrees⟩ := ih here
      refine ⟨.tuple (front ++ inner' :: back), by rw [Scope.resolve, again _ _ here']; rfl, ?_⟩
      simp [Node.Agrees, Node.evaluate, agrees.evaluateAll]
  | argument name before after offset within ih =>
      obtain ⟨nodes, all, rest⟩ := Except.bind_eq_ok_iff.mp resolved
      obtain ⟨callee, called, eq⟩ := Except.bind_eq_ok_iff.mp rest
      obtain rfl := Except.ok.inj eq
      obtain ⟨front, inner, back, rfl, here, again⟩ := Scope.resolveAll_append_cons all
      obtain ⟨inner', here', agrees⟩ := ih here
      have counted : scope.callee nested name (front ++ inner' :: back).length = .ok callee := by
        rw [← called]
        simp
      refine ⟨.call callee (front ++ inner' :: back), ?_, ?_⟩
      · rw [Scope.resolve, again _ _ here', Except.ok_bind, counted]
        rfl
      · simp [Node.Agrees, Node.evaluate_call, agrees.evaluateAll]

end

/-! ## Matchers -/

namespace Matcher

variable {scope : Scope} {text text' : String} {matcher matcher' : Matcher} {env : Bindings}

theorem Resolves.evaluateRule_congr (resolves : matcher.Resolves scope text)
    (resolves' : matcher'.Resolves scope text') (env : Bindings) :
    matcher'.evaluateRule env = matcher.evaluateRule env := by
  funext rule
  unfold evaluateRule
  rw [resolves.sound.rule_eq, resolves'.sound.rule_eq, resolves.scope_eq, resolves'.scope_eq]

theorem evaluate_eq_ok_iff {answer : Bool} :
    (matcher.evaluate env).result = .ok answer ↔
      (matcher.root.evaluate env (matcher.evaluateRule env)).result = .ok (.bool answer) := by
  unfold Matcher.evaluate
  rw [Traced.result_bind, Except.bind_eq_ok_iff]
  constructor
  · rintro ⟨value, evaluated, answered⟩
    cases value <;> simp [asAnswer] at answered
    rw [evaluated, answered]
  · intro evaluated
    exact ⟨.bool answer, evaluated, rfl⟩

/-- After an exchange a text still compiles, and comes to the same value or error. -/
theorem CompiledFrom.exchange {e e' : Expr} (compiled : CompiledFrom scope text matcher)
    (parsed : Expr.parse text = .ok e) (parsed' : Expr.parse text' = .ok e')
    (exchanged : Expr.Exchanged (Expr.HasValue scope false env (matcher.evaluateRule env))
      e.unplaced e'.unplaced) :
    (∃ matcher', Matcher.compile scope text' = .ok matcher') ∧
    ∀ matcher', CompiledFrom scope text' matcher' →
      (matcher'.root.evaluate env (matcher'.evaluateRule env)).result =
        (matcher.root.evaluate env (matcher.evaluateRule env)).result := by
  obtain ⟨tree, read, resolved⟩ := compiled.resolves.root
  obtain rfl := Except.ok.inj (parsed.symm.trans read)
  rw [← Scope.resolve_unplaced] at resolved
  obtain ⟨root', resolved', agrees⟩ := exchanged.resolve resolved
  rw [Scope.resolve_unplaced] at resolved'
  have compiles : ∃ matcher', Matcher.compile scope text' = .ok matcher' := by
    rw [Matcher.compile, parsed', Except.ok_bind, resolved']
    exact ⟨_, rfl⟩
  refine ⟨compiles, fun matcher' compiled' => ?_⟩
  obtain ⟨tree', read', settled⟩ := compiled'.resolves.root
  obtain rfl := Except.ok.inj (parsed'.symm.trans read')
  obtain rfl := Except.ok.inj (resolved'.symm.trans settled)
  rw [compiled.resolves.evaluateRule_congr compiled'.resolves env]
  exact agrees

end Matcher

/-- Values are loosely equal whichever stands on the left, and to themselves unless a float that is
    no number is within them. So the sides of one `==` or `!=` in the text of a matcher, both of
    which have values, may be exchanged: the other text compiles as well, and has the same value or
    error and the same answer, whatever the two matchers have been evaluated for before. -/
theorem equality_symmetric_reflexive_exchangeable :
    (∀ a b : Value, a.looselyEqual b = b.looselyEqual a) ∧
    (∀ a : Value, a.looselyEqual a = true ↔ ¬a.HoldsNaN) ∧
    ∀ (scope : Scope) (text text' : String) (e e' : Expr) (env : Bindings) (matcher : Matcher),
      Matcher.CompiledFrom scope text matcher →
      Expr.parse text = .ok e → Expr.parse text' = .ok e' →
      Expr.Exchanged (Expr.HasValue scope false env (matcher.evaluateRule env))
        e.unplaced e'.unplaced →
      (∃ matcher', Matcher.compile scope text' = .ok matcher') ∧
      ∀ matcher', Matcher.CompiledFrom scope text' matcher' →
        (matcher'.root.evaluate env (matcher'.evaluateRule env)).result =
          (matcher.root.evaluate env (matcher.evaluateRule env)).result ∧
        ∀ answer, (matcher'.evaluate env).result = .ok answer ↔
          (matcher.evaluate env).result = .ok answer := by
  refine ⟨Value.looselyEqual_comm, Value.looselyEqual_self_iff, ?_⟩
  intro scope text text' e e' env matcher compiled parsed parsed' exchanged
  obtain ⟨compiles, same⟩ := compiled.exchange parsed parsed' exchanged
  refine ⟨compiles, fun matcher' compiled' => ⟨same matcher' compiled', fun answer => ?_⟩⟩
  rw [Matcher.evaluate_eq_ok_iff, Matcher.evaluate_eq_ok_iff, same matcher' compiled']

/-- The sides of an equality behind another condition. -/
theorem equality_symmetric_reflexive_exchangeable_behindAnd :
    ∃ matcher matcher',
      Matcher.compile Matcher.ruleScope "true && r.sub != p.sub" = .ok matcher ∧
      Matcher.compile Matcher.ruleScope "true && p.sub != r.sub" = .ok matcher' ∧
      (matcher.evaluate (Matcher.aliceUnder "")).result = .ok false ∧
      (matcher'.evaluate (Matcher.aliceUnder "")).result = .ok false := by
  refine ⟨_, _, rfl, rfl, rfl, ?_⟩
  have same := (equality_symmetric_reflexive_exchangeable.2.2 Matcher.ruleScope
    "true && r.sub != p.sub" "true && p.sub != r.sub" _ _ (Matcher.aliceUnder "") _
    (.compile rfl) rfl rfl
    (.right .and _ (.sides (.inr rfl) ⟨_, .str "alice", rfl, rfl⟩ ⟨_, .str "alice", rfl, rfl⟩))).2 _
    (.compile rfl)
  exact (same.2 false).mpr rfl

end AccessControl
