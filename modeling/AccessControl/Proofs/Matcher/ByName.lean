import AccessControl.Proofs.Matcher.Remembered

/-! # Matchers mean what their texts say

Before an expression is evaluated, its names are resolved to positions and callees. Here the same
expressions are interpreted as they are written, every name being looked up where it is met. Compiled
matchers make the same role checks and calls in the same order, and come to the same answer or error.
A rule that a row supplies is refused as a whole if some name in it means nothing, also where
its interpretation would not get to that name.
-/

namespace AccessControl

/-! ## Interpreting names -/

/-- The value of a field among named values; of two fields with one name the later one is meant. -/
def valueNamed? {α : Type} (fields : List String) (values : List α) (name : String) : Option α :=
  ((fields.zip values).reverse.find? (·.1 == name)).map (·.2)

/-- The value of a field that must be declared. -/
def valueNamed (base : String) (fields : List String) (values : List Value) (name : String) :
    Except Error Value :=
  match valueNamed? fields values name with
  | some value => .ok value
  | none => .error (.modelDefinition (.undeclaredField base name))

namespace Scope

/-- What a name with a field stands for. -/
def valueOf (scope : Scope) (env : Bindings) (base name : String) : Except Error Value :=
  if base = scope.requestKey then valueNamed base scope.requestFields env.request name
  else if base = scope.policyKey then
    valueNamed base scope.policyFields (env.row.map Value.str) name
  else .error (.modelDefinition (.outOfScope base scope.requestKey scope.policyKey))

/-- Check a role of a type: of two names, or of two names in a domain where rows have one. -/
def checkRole (roles : RoleOracle) (type : String) (fieldCount : Nat) (args : List Value) :
    Traced Value :=
  let check (name role : String) (domain : Option String) : Traced Value := do
    Traced.note (.roleChecked type name role domain (roles type name role domain))
    return .bool (roles type name role domain)
  match args.map Value.plainText with
  | [name, role] => check name role none
  | [name, role, domain] =>
    if 3 ≤ fieldCount then check name role (some domain)
    else Traced.ofExcept (.error (.modelDefinition (.roleArgumentCount type 2 3)))
  | _ =>
    let most := max 2 (min fieldCount 3)
    Traced.ofExcept (.error (.modelDefinition (.roleArgumentCount type most args.length)))

/-- Call what a name stands for: a role type, or else the evaluation of a rule, or else the function
    that is registered under it. -/
def callNamed (scope : Scope) (roles : RoleOracle) (onRule : String → Traced Value) (name : String)
    (args : List Value) : Traced Value :=
  match scope.roleTypes.lookup name with
  | some fieldCount => checkRole roles name fieldCount args
  | none =>
    if name = ruleFunction then
      match args with
      | [.str text] => onRule text
      | [other] => Traced.ofExcept (.error (.evaluation (.ruleNotText other.kind)))
      | _ => Traced.ofExcept (.error (.modelDefinition (.argumentCount name 1 args.length)))
    else
      match scope.functions.lookup name with
      | some (.builtin f) =>
        if args.length = f.arity then Traced.ofExcept (f.call args)
        else Traced.ofExcept (.error (.modelDefinition (.argumentCount name f.arity args.length)))
      | some (.custom f) => do
        Traced.note (.called f.label args)
        Traced.ofExcept (f.run args)
      | none => Traced.ofExcept (.error (.undefinedFunction name))

end Scope

namespace Expr

mutual

/-- Interpret an expression as it is written. Rules that are given as text are handed to `onRule`. -/
def interpret (scope : Scope) (env : Bindings) (onRule : String → Traced Value) :
    Expr → Traced Value
  | .literal value => return value
  | .identifier name _ => Traced.ofExcept (.error (.modelDefinition (.undeclaredIdentifier name)))
  | .field base [] _ => Traced.ofExcept (.error (.modelDefinition (.undeclaredIdentifier base)))
  | .field base (name :: path) _ => Traced.ofExcept do
    let value ← scope.valueOf env base name
    value.follow path
  | .unary op operand => do
    let value ← operand.interpret scope env onRule
    op.apply value
  | .binary .or left right => do
    let value ← left.interpret scope env onRule
    let condition ← value.asCondition "||"
    if condition then return .bool true
    else
      let value ← right.interpret scope env onRule
      let condition ← value.asCondition "||"
      return .bool condition
  | .binary .and left right => do
    let value ← left.interpret scope env onRule
    let condition ← value.asCondition "&&"
    if condition then
      let value ← right.interpret scope env onRule
      let condition ← value.asCondition "&&"
      return .bool condition
    else return .bool false
  | .binary op left right => do
    let left ← left.interpret scope env onRule
    let right ← right.interpret scope env onRule
    op.apply left right
  | .tuple items => do
    let values ← interpretAll scope env onRule items
    return .list values
  | .call name args _ => do
    let values ← interpretAll scope env onRule args
    scope.callNamed env.roles onRule name values

def interpretAll (scope : Scope) (env : Bindings) (onRule : String → Traced Value) :
    List Expr → Traced (List Value)
  | [] => return []
  | e :: rest => do
    let value ← e.interpret scope env onRule
    let values ← interpretAll scope env onRule rest
    return value :: values

end

end Expr

namespace Scope

/-- What a rule must pass before any of it is interpreted: each of its names means something, and it
    loads no other rule. -/
def accept (scope : Scope) (e : Expr) : Except Error Unit := (scope.resolve true e).map fun _ => ()

/-- Interpret a rule that is given as text, once it has passed a check as a whole. -/
def interpretRule (scope : Scope) (check : Expr → Except Error Unit) (env : Bindings)
    (text : String) : Traced Value := do
  Traced.note (.ruleLoaded text)
  let e ← Expr.parse text
  check e
  e.interpret scope env Matcher.refuseRule

/-- Interpret the text of a matcher. -/
def interpret (scope : Scope) (check : Expr → Except Error Unit) (env : Bindings) (text : String) :
    Traced Bool := do
  let e ← Expr.parse text
  let value ← e.interpret scope env (scope.interpretRule check env)
  Matcher.asAnswer text value

end Scope

/-! ## Names and positions -/

theorem Scope.lt_of_positionOf? {fields : List String} {name : String} {position : Nat}
    (found : Scope.positionOf? fields name = some position) : position < fields.length := by
  obtain ⟨entry, first, rfl⟩ := Option.map_eq_some_iff.mp found
  have member : entry ∈ fields.zipIdx := List.mem_reverse.mp (List.mem_of_find?_eq_some first)
  simpa using List.snd_lt_of_mem_zipIdx member

theorem Scope.field_eq_ok_iff {base : String} {fields : List String} {name : String}
    {position : Nat} :
    Scope.field base fields name = .ok position ↔ Scope.positionOf? fields name = some position := by
  unfold Scope.field
  cases Scope.positionOf? fields name <;> simp

theorem valueNamed?_eq {α : Type} {fields : List String} {values : List α}
    (lengths : values.length = fields.length) (name : String) :
    valueNamed? fields values name =
      (Scope.positionOf? fields name).bind fun position => values[position]? := by
  have paired (default : α) : fields.zip values =
      fields.zipIdx.map fun entry => (entry.1, values.getD entry.2 default) := by
    apply List.ext_getElem
    · simp [lengths]
    · intro i here there
      simp at here
      simp [here]
  cases values with
  | nil => simp [valueNamed?]
  | cons first rest =>
      unfold valueNamed? Scope.positionOf?
      rw [paired first, ← List.map_reverse, List.find?_map]
      have sought : (fields.zipIdx.reverse.find?
          ((·.1 == name) ∘ fun entry => (entry.1, (first :: rest).getD entry.2 first))) =
            fields.zipIdx.reverse.find? (·.1 == name) := rfl
      rw [sought]
      cases found : fields.zipIdx.reverse.find? (·.1 == name) with
      | none => rfl
      | some entry =>
          have member : entry ∈ fields.zipIdx := List.mem_reverse.mp (List.mem_of_find?_eq_some found)
          have bound : entry.2 < (first :: rest).length := by
            simpa only [lengths, Nat.add_zero] using List.snd_lt_of_mem_zipIdx member
          simp [List.getElem?_eq_getElem bound]

theorem valueNamed?_map {α β : Type} (fields : List String) (values : List α) (f : α → β)
    (name : String) :
    valueNamed? fields (values.map f) name = (valueNamed? fields values name).map f := by
  unfold valueNamed?
  rw [List.zip_map_right, ← List.map_reverse, List.find?_map, Option.map_map, Option.map_map]
  rfl

theorem Scope.valueNamed_of_field {base : String} {fields : List String} {values : List Value}
    (lengths : values.length = fields.length) {name : String} {position : Nat}
    (found : Scope.field base fields name = .ok position) :
    ∃ value, values[position]? = some value ∧ valueNamed base fields values name = .ok value := by
  have declared := Scope.field_eq_ok_iff.mp found
  have bound : position < values.length := lengths ▸ Scope.lt_of_positionOf? declared
  refine ⟨values[position], by simp [bound], ?_⟩
  simp [valueNamed, valueNamed?_eq lengths, declared, bound]

/-! ## Resolved expressions -/

namespace Traced

variable {α β : Type}

@[simp]
theorem result_lift (result : Except Error α) : (liftM result : Traced α).result = result := rfl

@[simp]
theorem result_note (event : Event) : (note event).result = .ok () := rfl

@[simp]
theorem lift_ok_bind (a : α) (f : α → Traced β) :
    (liftM (Except.ok a : Except Error α) >>= f : Traced β) = f a := rfl

@[simp]
theorem lift_error_bind (error : Error) (f : α → Traced β) :
    (liftM (Except.error error : Except Error α) >>= f : Traced β) = ofExcept (.error error) := rfl

theorem bind_congr {x : Traced α} {f g : α → Traced β}
    (same : ∀ a, x.result = .ok a → f a = g a) : (x >>= f) = (x >>= g) := by
  show Traced.bind x f = Traced.bind x g
  unfold Traced.bind
  cases answered : x.result with
  | error error => rfl
  | ok a => simp only [same a answered]

end Traced

section

variable {scope : Scope} {env : Bindings} {onRule : String → Traced Value}

theorem Node.length_of_evaluateAll {nodes : List Node} {values : List Value}
    (evaluated : (evaluateAll env onRule nodes).result = .ok values) :
    values.length = nodes.length := by
  induction nodes generalizing values with
  | nil =>
      simp [evaluateAll] at evaluated
      simp [← evaluated]
  | cons node rest ih =>
      simp only [evaluateAll, Traced.result_bind, Traced.result_pure, Except.bind_eq_ok_iff] at evaluated
      obtain ⟨value, _, others, done, eq⟩ := evaluated
      simp [← Except.ok.inj eq, ih done]

theorem Scope.evaluate_reference (request : env.request.length = scope.requestFields.length)
    (row : env.row.length = scope.policyFields.length) {base name : String} {path : List String}
    {node : Node} (resolved : scope.reference base name path = .ok node) :
    node.evaluate env onRule =
      Traced.ofExcept (scope.valueOf env base name >>= fun value => value.follow path) := by
  unfold Scope.reference at resolved
  unfold Scope.valueOf
  split at resolved
  · rename_i here
    obtain ⟨position, found, eq⟩ := Except.bind_eq_ok_iff.mp resolved
    obtain ⟨value, present, named⟩ := Scope.valueNamed_of_field request found
    rw [← Except.ok.inj eq, if_pos here, named]
    simp [Node.evaluate, Bindings.requestValue, present]
  · rename_i elsewhere
    split at resolved
    · rename_i here
      obtain ⟨position, found, eq⟩ := Except.bind_eq_ok_iff.mp resolved
      have texts : (env.row.map Value.str).length = scope.policyFields.length := by simp [row]
      obtain ⟨value, present, named⟩ := Scope.valueNamed_of_field texts found
      rw [List.getElem?_map, Option.map_eq_some_iff] at present
      obtain ⟨text, present, rfl⟩ := present
      rw [← Except.ok.inj eq, if_neg elsewhere, if_pos here, named]
      simp [Node.evaluate, Bindings.policyValue, present]
    · simp at resolved


/-- Call what a name was resolved to. -/
def Callee.call (env : Bindings) (onRule : String → Traced Value) (args : List Value) :
    Callee → Traced Value
  | .builtin f => Traced.ofExcept (f.call args)
  | .custom f => do
    Traced.note (.called f.label args)
    Traced.ofExcept (f.run args)
  | .role type => env.checkRole type args
  | .rule => do
    let text ← Traced.ofExcept (Value.ruleText args)
    onRule text

theorem Node.evaluate_call (callee : Callee) (args : List Node) :
    (Node.call callee args).evaluate env onRule =
      (evaluateAll env onRule args >>= fun values => callee.call env onRule values) := by
  cases callee <;> simp only [Node.evaluate] <;> rfl

theorem Scope.checkRole_of_count {type : String} {fieldCount : Nat} {args : List Value}
    (count : ¬ (args.length < 2 ∨ max 2 (min fieldCount 3) < args.length)) :
    env.checkRole type args = Scope.checkRole env.roles type fieldCount args := by
  match args, count with
  | [], count => simp at count
  | [_], count => simp at count
  | [name, role], _ => rfl
  | [name, role, domain], count =>
      have wide : 3 ≤ fieldCount := by simpa using count
      simp only [Bindings.checkRole, Scope.checkRole, List.map_cons, List.map_nil, List.head?_cons,
        if_pos wide]
  | _ :: _ :: _ :: _ :: _, count => simp at count

theorem Scope.call_of_callee {nested : Bool} {name : String} {args : List Value} {callee : Callee}
    (resolved : scope.callee nested name args.length = .ok callee) :
    callee.call env onRule args = scope.callNamed env.roles onRule name args := by
  unfold Scope.callee at resolved
  unfold Scope.callNamed
  cases role : scope.roleTypes.lookup name with
  | some fieldCount =>
      simp only [role] at resolved ⊢
      split at resolved
      · simp at resolved
      · rename_i count
        rw [← Except.ok.inj resolved]
        exact Scope.checkRole_of_count count
  | none =>
      simp only [role] at resolved ⊢
      split at resolved
      · rename_i isRule
        split at resolved
        · simp at resolved
        · split at resolved
          · rename_i one
            obtain ⟨arg, rfl⟩ := List.length_eq_one_iff.mp one
            rw [← Except.ok.inj resolved, if_pos isRule]
            cases arg <;> rfl
          · simp at resolved
      · rename_i other
        rw [if_neg other]
        cases registered : scope.functions.lookup name with
        | none => simp [registered] at resolved
        | some function =>
            cases function with
            | custom f =>
                simp only [registered] at resolved
                rw [← Except.ok.inj resolved]
                rfl
            | builtin f =>
                simp only [registered] at resolved ⊢
                split at resolved
                · rename_i count
                  rw [← Except.ok.inj resolved, if_pos count]
                  rfl
                · simp at resolved

mutual

/-- A resolved expression is evaluated to what the expression is interpreted as. -/
theorem Scope.evaluate_resolve (request : env.request.length = scope.requestFields.length)
    (row : env.row.length = scope.policyFields.length) {nested : Bool} :
    ∀ {e : Expr} {node : Node}, scope.resolve nested e = .ok node →
      node.evaluate env onRule = e.interpret scope env onRule
  | .literal value, node, resolved => by
      rw [← Except.ok.inj resolved]
      rfl
  | .identifier name offset, node, resolved => by simp [Scope.resolve] at resolved
  | .field base [] offset, node, resolved => by simp [Scope.resolve] at resolved
  | .field base (name :: path) offset, node, resolved =>
      Scope.evaluate_reference request row resolved
  | .unary op operand, node, resolved => by
      obtain ⟨operand', inner, eq⟩ := Except.bind_eq_ok_iff.mp resolved
      rw [← Except.ok.inj eq]
      simp only [Node.evaluate, Expr.interpret, Scope.evaluate_resolve request row inner]
  | .binary op left right, node, resolved => by
      obtain ⟨left', first, rest⟩ := Except.bind_eq_ok_iff.mp resolved
      obtain ⟨right', second, eq⟩ := Except.bind_eq_ok_iff.mp rest
      rw [← Except.ok.inj eq]
      have left := Scope.evaluate_resolve request row first
      have right := Scope.evaluate_resolve request row second
      cases op with
      | or =>
          simp only [Node.evaluate, Expr.interpret, left, right, BinaryOp.isLogical, if_true]
          refine Traced.bind_congr fun value _ => Traced.bind_congr fun condition _ => ?_
          cases condition <;> rfl
      | and =>
          simp only [Node.evaluate, Expr.interpret, left, right, BinaryOp.isLogical, if_true]
          refine Traced.bind_congr fun value _ => Traced.bind_congr fun condition _ => ?_
          cases condition <;> rfl
      | _ => simp [Node.evaluate, Expr.interpret, left, right, BinaryOp.isLogical]
  | .tuple items, node, resolved => by
      obtain ⟨nodes, all, eq⟩ := Except.bind_eq_ok_iff.mp resolved
      rw [← Except.ok.inj eq]
      simp only [Node.evaluate, Expr.interpret, Scope.evaluateAll_resolveAll request row all]
  | .call name args offset, node, resolved => by
      obtain ⟨nodes, all, rest⟩ := Except.bind_eq_ok_iff.mp resolved
      obtain ⟨callee, found, eq⟩ := Except.bind_eq_ok_iff.mp rest
      rw [← Except.ok.inj eq, Node.evaluate_call]
      simp only [Expr.interpret, ← Scope.evaluateAll_resolveAll request row all]
      refine Traced.bind_congr fun values evaluated => ?_
      have count := Node.length_of_evaluateAll evaluated
      exact Scope.call_of_callee (count ▸ found)

theorem Scope.evaluateAll_resolveAll (request : env.request.length = scope.requestFields.length)
    (row : env.row.length = scope.policyFields.length) {nested : Bool} :
    ∀ {es : List Expr} {nodes : List Node}, scope.resolveAll nested es = .ok nodes →
      Node.evaluateAll env onRule nodes = Expr.interpretAll scope env onRule es
  | [], nodes, resolved => by
      rw [← Except.ok.inj resolved]
      rfl
  | e :: rest, nodes, resolved => by
      obtain ⟨node, first, others⟩ := Except.bind_eq_ok_iff.mp resolved
      obtain ⟨nodes', all, eq⟩ := Except.bind_eq_ok_iff.mp others
      rw [← Except.ok.inj eq]
      simp only [Node.evaluateAll, Expr.interpretAll, Scope.evaluate_resolve request row first,
        Scope.evaluateAll_resolveAll request row all]

end

end

/-! ## Rules and matchers -/

namespace Matcher

variable {scope : Scope} {text : String} {matcher : Matcher} {env : Bindings}

theorem Resolves.evaluateRule_eq (resolves : matcher.Resolves scope text)
    (request : env.request.length = scope.requestFields.length)
    (row : env.row.length = scope.policyFields.length) :
    matcher.evaluateRule env = scope.interpretRule scope.accept env := by
  funext ruleText
  unfold evaluateRule Scope.interpretRule
  refine Traced.bind_congr fun _ _ => ?_
  rw [resolves.sound.rule_eq, resolves.scope_eq]
  unfold resolveRule Scope.accept
  cases Expr.parse ruleText with
  | error error => rfl
  | ok e =>
      cases resolved : scope.resolve true e with
      | error error => simp [resolved]
      | ok node => simp [resolved, Scope.evaluate_resolve request row resolved]

/-- Requests name a subject, and rows a subject and a rule. -/
def ruleScope : Scope where
  requestKey := "r"
  requestFields := ["sub"]
  policyKey := "p"
  policyFields := ["sub", "rule"]

/-- A matcher that leaves the decision to the rules of the rows. -/
def ruleMatcher : Matcher where
  text := "eval(p.rule)"
  root := .call .rule [.policy 1 []]
  scope := ruleScope
  rules := { capacity := ruleCapacity }

theorem compile_ruleMatcher : compile ruleScope "eval(p.rule)" = .ok ruleMatcher := rfl

/-- Alice and a row with a rule. -/
def aliceUnder (rule : String) : Bindings where
  request := [.str "alice"]
  row := ["alice", rule]
  roles _ _ _ _ := false

end Matcher

end AccessControl
