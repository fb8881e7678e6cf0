import AccessControl.Proofs.Matcher.ByName

/-! # Conditions on texts

What the usual matchers come to: conjunctions of role checks and of comparisons of a field of the
request with that of the row of the same name, where all values of the request are texts.
-/

namespace AccessControl

/-! ## Texts under names -/

theorem Scope.exists_field (base : String) {fields : List String} {name : String}
    (declared : name ∈ fields) : ∃ position, Scope.field base fields name = .ok position := by
  cases found : Scope.positionOf? fields name with
  | some position => exact ⟨position, Scope.field_eq_ok_iff.mpr found⟩
  | none =>
      obtain ⟨i, bound, rfl⟩ := List.mem_iff_getElem.mp declared
      have absent : ∀ entry ∈ fields.zipIdx.reverse, ¬(entry.1 == fields[i]) = true := by
        simpa [Scope.positionOf?] using found
      have member : (fields[i], i) ∈ fields.zipIdx.reverse := by
        simp [List.mk_mem_zipIdx_iff_getElem?, bound]
      exact absurd (beq_self_eq_true _) (absent _ member)

/-- The text of a field among named texts. -/
def textNamed (fields texts : List String) (name : String) : String :=
  (valueNamed? fields texts name).getD ""

theorem valueNamed?_eq_some {fields texts : List String} (length : texts.length = fields.length)
    {name : String} (declared : name ∈ fields) :
    valueNamed? fields texts name = some (textNamed fields texts name) := by
  obtain ⟨position, found⟩ := Scope.exists_field "" declared
  have known := Scope.field_eq_ok_iff.mp found
  have bound : position < texts.length := length ▸ Scope.lt_of_positionOf? known
  simp [textNamed, valueNamed?_eq length, known, bound]

namespace Scope

/-- The names under which the plain types are visible to a matcher. -/
structure IsPlain (scope : Scope) : Prop where
  request : scope.requestKey = "r"
  policy : scope.policyKey = "p"

/-- A request of texts and a row have the lengths that are declared. -/
structure Binds (scope : Scope) (texts : List String) (env : Bindings) : Prop where
  request : env.request = texts.map Value.str
  requestLength : texts.length = scope.requestFields.length
  rowLength : env.row.length = scope.policyFields.length

end Scope

/-! ## Conditions -/

namespace Expr

def requestField (name : String) (offset : Nat) : Expr := .field "r" [name] offset

def policyField (name : String) (offset : Nat) : Expr := .field "p" [name] offset

/-- The comparison of a field of the request with that of the row of the same name. -/
def sameField (name : String) (offset offset' : Nat) : Expr :=
  .binary .equal (requestField name offset) (policyField name offset')

/-- Some condition holds, and so do comparisons of fields, each a name with the offsets at which it
    stands. -/
def andSameFields (first : Expr) (fields : List (String × Nat × Nat)) : Expr :=
  fields.foldl (fun e field => .binary .and e (sameField field.1 field.2.1 field.2.2)) first

section

variable {scope : Scope} {texts : List String} {env : Bindings} {onRule : String → Traced Value}
  (plain : scope.IsPlain) (binds : scope.Binds texts env)

section

include plain binds

theorem result_requestField (name : String) (offset : Nat)
    (declared : name ∈ scope.requestFields) :
    ((requestField name offset).interpret scope env onRule).result =
      .ok (.str (textNamed scope.requestFields texts name)) := by
  have value : valueNamed? scope.requestFields env.request name =
      some (.str (textNamed scope.requestFields texts name)) := by
    rw [binds.request, valueNamed?_map, valueNamed?_eq_some binds.requestLength declared]
    rfl
  simp [requestField, interpret, Scope.valueOf, plain.request, valueNamed, value, Value.follow]

theorem result_policyField (name : String) (offset : Nat) (declared : name ∈ scope.policyFields) :
    ((policyField name offset).interpret scope env onRule).result =
      .ok (.str (textNamed scope.policyFields env.row name)) := by
  have value : valueNamed? scope.policyFields (env.row.map Value.str) name =
      some (.str (textNamed scope.policyFields env.row name)) := by
    rw [valueNamed?_map, valueNamed?_eq_some binds.rowLength declared]
    rfl
  simp [policyField, interpret, Scope.valueOf, plain.request, plain.policy, valueNamed, value,
    Value.follow]

theorem result_sameField (name : String) (offset offset' : Nat)
    (declared : name ∈ scope.requestFields) (declared' : name ∈ scope.policyFields) :
    ((sameField name offset offset').interpret scope env onRule).result =
      .ok (.bool (textNamed scope.requestFields texts name ==
        textNamed scope.policyFields env.row name)) := by
  simp [sameField, interpret, result_requestField plain binds name offset declared,
    result_policyField plain binds name offset' declared', BinaryOp.apply, Value.looselyEqual]

end

theorem result_and {left right : Expr} {a b : Bool}
    (first : (left.interpret scope env onRule).result = .ok (.bool a))
    (second : (right.interpret scope env onRule).result = .ok (.bool b)) :
    ((Expr.binary .and left right).interpret scope env onRule).result = .ok (.bool (a && b)) := by
  cases a <;> simp [interpret, first, second, Value.asCondition]

include plain binds in
theorem result_andSameFields {first : Expr} {a : Bool} (fields : List (String × Nat × Nat))
    (head : (first.interpret scope env onRule).result = .ok (.bool a))
    (declared : ∀ field ∈ fields, field.1 ∈ scope.requestFields ∧ field.1 ∈ scope.policyFields) :
    ((andSameFields first fields).interpret scope env onRule).result =
      .ok (.bool (a && fields.all fun field => textNamed scope.requestFields texts field.1 ==
        textNamed scope.policyFields env.row field.1)) := by
  induction fields generalizing first a with
  | nil => simpa [andSameFields] using head
  | cons field rest ih =>
      obtain ⟨⟨here, here'⟩, others⟩ := List.forall_mem_cons.mp declared
      have same : ((sameField field.1 field.2.1 field.2.2).interpret scope env onRule).result = _ :=
        result_sameField plain binds _ _ _ here here'
      have both := ih (result_and head same) others
      simpa [andSameFields, Bool.and_assoc] using both

theorem result_roleCheck {type : String} {count : Nat} {user role : Expr} {name name' : String}
    (offset : Nat) (declared : scope.roleTypes.lookup type = some count)
    (first : (user.interpret scope env onRule).result = .ok (.str name))
    (second : (role.interpret scope env onRule).result = .ok (.str name')) :
    ((call type [user, role] offset).interpret scope env onRule).result =
      .ok (.bool (env.roles type name name' none)) := by
  simp [interpret, interpretAll, first, second, Scope.callNamed, declared, Scope.checkRole,
    Value.plainText]

theorem result_roleCheckIn {type : String} {count : Nat} {user role domain : Expr}
    {name name' text : String} (offset : Nat) (declared : scope.roleTypes.lookup type = some count)
    (wide : 3 ≤ count) (first : (user.interpret scope env onRule).result = .ok (.str name))
    (second : (role.interpret scope env onRule).result = .ok (.str name'))
    (third : (domain.interpret scope env onRule).result = .ok (.str text)) :
    ((call type [user, role, domain] offset).interpret scope env onRule).result =
      .ok (.bool (env.roles type name name' (some text))) := by
  simp [interpret, interpretAll, first, second, third, Scope.callNamed, declared, wide,
    Scope.checkRole, Value.plainText]

end

/-! ## Resolution -/

/-- All names in a condition mean something. -/
def ResolvesIn (scope : Scope) (e : Expr) : Prop := ∃ node, scope.resolve false e = .ok node

section

variable {scope : Scope}

theorem resolvesIn_requestField (plain : scope.IsPlain) {name : String} (offset : Nat)
    (declared : name ∈ scope.requestFields) : (requestField name offset).ResolvesIn scope := by
  obtain ⟨position, found⟩ := Scope.exists_field "r" declared
  exact ⟨.request position [], by simp [requestField, Scope.resolve, Scope.reference,
    plain.request, found]⟩

theorem resolvesIn_policyField (plain : scope.IsPlain) {name : String} (offset : Nat)
    (declared : name ∈ scope.policyFields) : (policyField name offset).ResolvesIn scope := by
  obtain ⟨position, found⟩ := Scope.exists_field "p" declared
  exact ⟨.policy position [], by simp [policyField, Scope.resolve, Scope.reference,
    plain.request, plain.policy, found]⟩

theorem resolvesIn_binary (op : BinaryOp) {left right : Expr} (first : left.ResolvesIn scope)
    (second : right.ResolvesIn scope) : (Expr.binary op left right).ResolvesIn scope := by
  obtain ⟨left', resolved⟩ := first
  obtain ⟨right', resolved'⟩ := second
  exact ⟨.binary op left' right', by simp [Scope.resolve, resolved, resolved']⟩

theorem resolvesIn_andSameFields (plain : scope.IsPlain) {first : Expr}
    {fields : List (String × Nat × Nat)} (head : first.ResolvesIn scope)
    (declared : ∀ field ∈ fields, field.1 ∈ scope.requestFields ∧ field.1 ∈ scope.policyFields) :
    (andSameFields first fields).ResolvesIn scope := by
  induction fields generalizing first with
  | nil => exact head
  | cons field rest ih =>
      obtain ⟨⟨here, here'⟩, others⟩ := List.forall_mem_cons.mp declared
      have same := resolvesIn_binary .equal (resolvesIn_requestField plain field.2.1 here)
        (resolvesIn_policyField plain field.2.2 here')
      exact ih (resolvesIn_binary .and head same) others

theorem exists_resolveAll {args : List Expr} (each : ∀ arg ∈ args, arg.ResolvesIn scope) :
    ∃ nodes, scope.resolveAll false args = .ok nodes ∧ nodes.length = args.length := by
  induction args with
  | nil => exact ⟨[], rfl, rfl⟩
  | cons arg rest ih =>
      obtain ⟨⟨node, first⟩, others⟩ := List.forall_mem_cons.mp each
      obtain ⟨nodes, all, length⟩ := ih others
      exact ⟨node :: nodes, by simp [Scope.resolveAll, first, all], by simp [length]⟩

theorem resolvesIn_roleCheck {type : String} {count : Nat} {args : List Expr} (offset : Nat)
    (declared : scope.roleTypes.lookup type = some count) (least : 2 ≤ args.length)
    (most : args.length ≤ max 2 (min count 3)) (each : ∀ arg ∈ args, arg.ResolvesIn scope) :
    (call type args offset).ResolvesIn scope := by
  obtain ⟨nodes, all, length⟩ := exists_resolveAll each
  have fits : ¬(nodes.length < 2 ∨ max 2 (min count 3) < nodes.length) := by omega
  refine ⟨.call (.role type) nodes, ?_⟩
  simp only [Scope.resolve, all, Except.ok_bind, Scope.callee, declared, if_neg fits]

end

end Expr

end AccessControl
