import AccessControl.Decision.Evaluate
import AccessControl.Proofs.Effect
import AccessControl.Proofs.Except

/-! # Deciding row by row

`Model.evaluateWith` evaluates a matcher once for all rows if it does not read the row, and stops at
the row that settles the effect. Neither shows in its result: it is that of the plain loop
`Model.decideRowByRow`.
-/

namespace AccessControl

/-! ## Expressions that do not read the row -/

namespace Node

mutual

theorem evaluate_row_free (request : List Value) (roles : RoleOracle) (row row' : Row)
    (onRule onRule' : String → Traced Value) (node : Node) (free : node.usesPolicy = false) :
    node.evaluate { request, row, roles } onRule =
      node.evaluate { request, row := row', roles } onRule' := by
  cases node with
  | literal value => rfl
  | request position path => rfl
  | policy position path => simp [usesPolicy] at free
  | unary op operand =>
      simp only [evaluate, evaluate_row_free request roles row row' onRule onRule' operand
        (by simpa [usesPolicy] using free)]
  | binary op left right =>
      simp only [usesPolicy, Bool.or_eq_false_iff] at free
      simp only [evaluate, evaluate_row_free request roles row row' onRule onRule' left free.1,
        evaluate_row_free request roles row row' onRule onRule' right free.2]
  | tuple items =>
      simp only [evaluate, evaluateAll_row_free request roles row row' onRule onRule' items
        (by simpa [usesPolicy] using free)]
  | call callee args =>
      cases callee with
      | rule => simp [usesPolicy] at free
      | builtin | custom | role =>
          simp only [evaluate, Bindings.checkRole, evaluateAll_row_free request roles row row' onRule
            onRule' args (by simpa [usesPolicy] using free)]

theorem evaluateAll_row_free (request : List Value) (roles : RoleOracle) (row row' : Row)
    (onRule onRule' : String → Traced Value) (nodes : List Node)
    (free : anyUsesPolicy nodes = false) :
    evaluateAll { request, row, roles } onRule nodes =
      evaluateAll { request, row := row', roles } onRule' nodes := by
  cases nodes with
  | nil => rfl
  | cons node rest =>
      simp only [anyUsesPolicy, Bool.or_eq_false_iff] at free
      simp only [evaluateAll, evaluate_row_free request roles row row' onRule onRule' node free.1,
        evaluateAll_row_free request roles row row' onRule onRule' rest free.2]

end

end Node

/-- A matcher that does not read the row gives every row the answer and events of any other row. -/
theorem Matcher.evaluate_row_free {matcher : Matcher} (free : matcher.usesPolicy = false)
    (request : List Value) (roles : RoleOracle) (row row' : Row) :
    matcher.evaluate { request, row, roles } = matcher.evaluate { request, row := row', roles } := by
  unfold Matcher.evaluate
  rw [Node.evaluate_row_free request roles row row' _
    (matcher.evaluateRule { request, row := row', roles }) matcher.root free]

/-! ## The plain loop -/

/-- Test rows one after another, up to the first error or the first row that settles the outcome.
    Yields whether each of them is matched, and its effect. -/
def testRows (kind : EffectKind) (test : Row → Except Error Bool) (effectOf : Row → Effect) :
    List Row → Except Error (List (Bool × Effect))
  | [] => .ok []
  | row :: rest => do
    let matched ← test row
    if matched && kind.settledBy (effectOf row) then .ok [(matched, effectOf row)]
    else do
      let others ← testRows kind test effectOf rest
      .ok ((matched, effectOf row) :: others)

/-- Whether a matcher matches a row. -/
def Matcher.test (matcher : Matcher) (request : List Value) (roles : RoleOracle) (row : Row) :
    Except Error Bool :=
  (matcher.evaluate { request, row, roles }).result

/-- Decide a request by a plain loop over the rows. -/
def Model.decideRowByRow (model : Model) (roles : RoleOracle) (context : Context)
    (matcher : Matcher) (request : List Value) : Except Error Decision := do
  let kind ← model.effect context.effectType
  let table ← model.policy context.policyType
  if table.rows.isEmpty then .ok { allowed := false, explain := [] }
  else do
    let outcomes ← testRows kind (matcher.test request roles) table.effectOf table.rows
    .ok (Decision.ofOutcome table.rows (combine kind outcomes))

theorem testRows_cons (kind : EffectKind) (test : Row → Except Error Bool)
    (effectOf : Row → Effect) (row : Row) (rest : List Row) :
    testRows kind test effectOf (row :: rest) = (do
      let matched ← test row
      if matched && kind.settledBy (effectOf row) then .ok [(matched, effectOf row)]
      else do
        let others ← testRows kind test effectOf rest
        .ok ((matched, effectOf row) :: others)) := rfl

/-- The fold over rows is the fold over what the plain loop finds out of them. -/
theorem EffectFold.result_observeRows (test : Row → Traced Bool) (effectOf : Row → Effect)
    (rows : List Row) {fold : EffectFold} (undecided : fold.isDecided = false) (position : Nat) :
    (fold.observeRows test effectOf position rows).result =
      (testRows fold.kind (fun row => (test row).result) effectOf rows).map
        (fold.observeAll position) := by
  induction rows generalizing fold position with
  | nil => rfl
  | cons row rest ih =>
      rw [testRows_cons]
      simp only [observeRows, Traced.result_bind]
      cases (test row).result with
      | error error => rfl
      | ok matched =>
          have next_eq : (if matched then fold.observe position (effectOf row) else fold) =
              fold.next position (matched, effectOf row) := rfl
          have decides := isDecided_next undecided position (matched, effectOf row)
          simp only [next_eq, bind, Except.bind, decides]
          cases settled : matched && fold.kind.settledBy (effectOf row) with
          | true =>
              rw [settled] at decides
              simp [Except.map, observeAll_cons, decides]
          | false =>
              rw [settled] at decides
              simp only [Bool.false_eq_true, if_false, ih decides, kind_next]
              cases testRows fold.kind (fun row => (test row).result) effectOf rest with
              | error error => rfl
              | ok others => simp [Except.map, observeAll_cons, decides]

/-- Without an error every row that comes before the settling one has been tested, and the rest
    does not count. -/
theorem observeAll_testRows {test : Row → Except Error Bool} {effectOf : Row → Effect}
    {answer : Row → Bool} {rows : List Row} (answered : ∀ row ∈ rows, test row = .ok (answer row))
    {fold : EffectFold} (undecided : fold.isDecided = false) (position : Nat) :
    (testRows fold.kind test effectOf rows).map (fold.observeAll position) =
      .ok (fold.observeAll position (rows.map fun row => (answer row, effectOf row))) := by
  induction rows generalizing fold position with
  | nil => rfl
  | cons row rest ih =>
      have decides := EffectFold.isDecided_next undecided position (answer row, effectOf row)
      rw [testRows_cons, answered row List.mem_cons_self, List.map_cons, EffectFold.observeAll_cons]
      simp only [bind, Except.bind, decides]
      cases settled : answer row && fold.kind.settledBy (effectOf row) with
      | true =>
          rw [settled] at decides
          simp [Except.map, EffectFold.observeAll_cons, decides]
      | false =>
          rw [settled] at decides
          have later := ih (fun other member => answered other (List.mem_cons_of_mem row member))
            decides (position + 1)
          simp only [EffectFold.kind_next] at later
          cases tested : testRows fold.kind test effectOf rest with
          | error error => simp [tested, Except.map] at later
          | ok others =>
              simpa [tested, Except.map, EffectFold.observeAll_cons, decides] using later

theorem testRows_at {kind : EffectKind} {test : Row → Except Error Bool} {effectOf : Row → Effect}
    {rows : List Row} {outcomes : List (Bool × Effect)}
    (tested : testRows kind test effectOf rows = .ok outcomes) {i : Nat} {matched : Bool}
    {effect : Effect} (at_i : outcomes[i]? = some (matched, effect)) :
    ∃ row, rows[i]? = some row ∧ test row = .ok matched ∧ effectOf row = effect := by
  induction rows generalizing outcomes i with
  | nil =>
      obtain rfl : [] = outcomes := Except.ok.inj tested
      simp at at_i
  | cons row rest ih =>
      rw [testRows_cons] at tested
      cases here : test row with
      | error error => simp [here, bind, Except.bind] at tested
      | ok answer =>
          simp only [here, bind, Except.bind] at tested
          split at tested
          · obtain rfl := Except.ok.inj tested
            cases i with
            | zero =>
                obtain ⟨rfl, rfl⟩ := Prod.mk.inj (Option.some.inj at_i)
                exact ⟨row, rfl, here, rfl⟩
            | succ i => simp at at_i
          · cases later : testRows kind test effectOf rest with
            | error error => simp [later] at tested
            | ok others =>
                simp only [later, Except.ok.injEq] at tested
                subst tested
                cases i with
                | zero =>
                    obtain ⟨rfl, rfl⟩ := Prod.mk.inj (Option.some.inj at_i)
                    exact ⟨row, rfl, here, rfl⟩
                | succ i => exact ih later at_i

theorem forall₂_filterMap_getElem? {rows : List Row} {P : Row → Prop} {positions : List Nat}
    (present : ∀ i ∈ positions, ∃ row, rows[i]? = some row ∧ P row) :
    List.Forall₂ (fun i row => rows[i]? = some row ∧ P row) positions
      (positions.filterMap fun i => rows[i]?) := by
  induction positions with
  | nil => exact .nil
  | cons i rest ih =>
      obtain ⟨row, at_i, holds⟩ := present i List.mem_cons_self
      rw [List.filterMap_cons_some at_i]
      exact .cons ⟨at_i, holds⟩ (ih fun j member => present j (List.mem_cons_of_mem i member))

theorem testRows_ne_nil {kind : EffectKind} {test : Row → Except Error Bool}
    {effectOf : Row → Effect} {rows : List Row} {outcomes : List (Bool × Effect)}
    (tested : testRows kind test effectOf rows = .ok outcomes) (nonempty : rows ≠ []) :
    outcomes ≠ [] := by
  cases rows with
  | nil => exact absurd rfl nonempty
  | cons row rest =>
      rintro rfl
      rw [testRows_cons] at tested
      cases here : test row with
      | error error => simp [here, bind, Except.bind] at tested
      | ok matched =>
          simp only [here, bind, Except.bind] at tested
          split at tested
          · simp at tested
          · cases later : testRows kind test effectOf rest <;> simp [later] at tested

theorem combine_eq_finish (kind : EffectKind) {outcomes : List (Bool × Effect)}
    (nonempty : outcomes ≠ []) :
    combine kind outcomes = (EffectFold.observeAll { kind } 0 outcomes).finish := by
  unfold combine
  rw [if_neg (by simpa using nonempty)]

namespace Model

theorem result_rowTest_observeRows (roles : RoleOracle) (matcher : Matcher) (request : List Value)
    (kind : EffectKind) (effectOf : Row → Effect) {rows : List Row} (nonempty : rows ≠ []) :
    (do
      let test ← rowTest roles matcher request
      let fold : EffectFold := { kind }
      fold.observeRows test effectOf 0 rows).result =
    (testRows kind (matcher.test request roles) effectOf rows).map
      (EffectFold.observeAll { kind } 0) := by
  unfold rowTest
  cases free : matcher.usesPolicy with
  | true => exact EffectFold.result_observeRows _ effectOf rows rfl 0
  | false =>
      have same : ∀ row, matcher.test request roles row = matcher.test request roles [] := fun row =>
        congrArg Traced.result (matcher.evaluate_row_free free request roles row [])
      simp only [Bool.false_eq_true, if_false, Traced.result_bind]
      cases once : (matcher.evaluate { request, row := [], roles }).result with
      | error error =>
          obtain ⟨row, rest, rfl⟩ := List.exists_cons_of_ne_nil nonempty
          have first : matcher.test request roles row = .error error := (same row).trans once
          rw [testRows_cons, first]
          rfl
      | ok matched =>
          have always : matcher.test request roles = fun _ => .ok matched :=
            funext fun row => (same row).trans once
          rw [always]
          exact EffectFold.result_observeRows (fun _ => return matched) effectOf rows rfl 0

theorem result_evaluateWith (model : Model) (roles : RoleOracle) (context : Context)
    (matcher : Matcher) (request : List Value)
    (checked : model.checkRequest context.requestType request = .ok ()) :
    (model.evaluateWith roles context matcher request).result =
      model.decideRowByRow roles context matcher request := by
  unfold evaluateWith decideRowByRow
  simp only [checked, Traced.result_bind, Traced.result_ofExcept, liftM, monadLift,
    MonadLift.monadLift, Except.ok_bind]
  cases model.effect context.effectType with
  | error error => rfl
  | ok kind =>
      cases model.policy context.policyType with
      | error error => rfl
      | ok table =>
          simp only [Except.ok_bind]
          split
          · rfl
          · rename_i some_row
            have nonempty : table.rows ≠ [] := by simpa using some_row
            have loop := result_rowTest_observeRows roles matcher request kind table.effectOf nonempty
            simp only [Traced.result_bind] at loop ⊢
            rw [← bind_assoc, loop]
            cases tested : testRows kind (matcher.test request roles) table.effectOf table.rows with
            | error error => rfl
            | ok outcomes =>
                rw [Except.ok_bind, combine_eq_finish kind (testRows_ne_nil tested nonempty)]
                rfl

/-- Where the matcher fails on no row, the plain loop yields the outcome of the complete sequence. -/
theorem decideRowByRow_of_answered {model : Model} {roles : RoleOracle} {context : Context}
    {matcher : Matcher} {request : List Value} {kind : EffectKind} {table : RowTable}
    (effect : model.effect context.effectType = .ok kind)
    (policy : model.policy context.policyType = .ok table) {answer : Row → Bool}
    (answered : ∀ row ∈ table.rows, matcher.test request roles row = .ok (answer row)) :
    model.decideRowByRow roles context matcher request =
      .ok (Decision.ofOutcome table.rows
        (combine kind (table.rows.map fun row => (answer row, table.effectOf row)))) := by
  simp only [decideRowByRow, effect, policy, Except.ok_bind]
  split
  · rename_i no_row
    rw [List.isEmpty_iff.mp no_row]
    rfl
  · rename_i some_row
    have nonempty : table.rows ≠ [] := by simpa using some_row
    let fold : EffectFold := { kind }
    have loop : (testRows kind _ table.effectOf table.rows).map (fold.observeAll 0) = _ :=
      observeAll_testRows answered rfl 0
    cases tested : testRows kind (matcher.test request roles) table.effectOf table.rows with
    | error error => simp [tested] at loop
    | ok outcomes =>
        simp only [tested, Except.ok_map, Except.ok.injEq] at loop
        rw [Except.ok_bind, combine_eq_finish kind (testRows_ne_nil tested nonempty), loop,
          combine_eq_finish kind (by simpa using nonempty)]

/-- The explaining rows of the plain loop stand at the decisive positions, one for one. They are
    stored and matched. -/
theorem explain_decideRowByRow {model : Model} {roles : RoleOracle} {context : Context}
    {matcher : Matcher} {request : List Value} {kind : EffectKind} {table : RowTable}
    (effect : model.effect context.effectType = .ok kind)
    (policy : model.policy context.policyType = .ok table) {decision : Decision}
    (decided : model.decideRowByRow roles context matcher request = .ok decision) :
    ∃ outcomes,
      testRows kind (matcher.test request roles) table.effectOf table.rows = .ok outcomes ∧
      decision.allowed = (combine kind outcomes).1 ∧
      List.Forall₂ (fun i row => table.rows[i]? = some row ∧
        matcher.test request roles row = .ok true) (combine kind outcomes).2 decision.explain ∧
      (combine kind outcomes).2.Pairwise (· < ·) := by
  simp only [decideRowByRow, effect, policy, Except.ok_bind] at decided
  split at decided
  · rename_i no_row
    obtain rfl := Except.ok.inj decided
    rw [List.isEmpty_iff.mp no_row]
    exact ⟨[], rfl, rfl, .nil, .nil⟩
  · obtain ⟨outcomes, tested, eq⟩ := Except.bind_eq_ok_iff.mp decided
    obtain rfl := Except.ok.inj eq
    obtain ⟨matched, ascending⟩ := combine_positions kind outcomes
    refine ⟨outcomes, tested, rfl, ?_, ascending⟩
    refine forall₂_filterMap_getElem? fun i member => ?_
    obtain ⟨effect, at_i⟩ := matched i member
    obtain ⟨row, stored, holds, -⟩ := testRows_at tested at_i
    exact ⟨row, stored, holds⟩

/-- The evaluation of a request is the plain loop, for any answers to role checks. Where the matcher
    fails on no row, that is the outcome of the complete sequence of rows; a matcher that does not
    read the row answers for every row as it does for none; and the explaining rows are those at
    the decisive positions, all of them stored and matched, in the order in which they are stored. -/
theorem evaluateWith_row_by_row (model : Model) (roles : RoleOracle) (context : Context)
    (matcher : Matcher) (request : List Value) {fields : List String}
    (declared : model.request context.requestType = .ok fields)
    (length : request.length = fields.length) :
    (model.evaluateWith roles context matcher request).result =
        model.decideRowByRow roles context matcher request ∧
      (matcher.usesPolicy = false → ∀ row,
        matcher.test request roles row = matcher.test request roles []) ∧
      ∀ kind table, model.effect context.effectType = .ok kind →
        model.policy context.policyType = .ok table →
        (∀ answer : Row → Bool,
          (∀ row ∈ table.rows, matcher.test request roles row = .ok (answer row)) →
          (model.evaluateWith roles context matcher request).result =
            .ok (Decision.ofOutcome table.rows
              (combine kind (table.rows.map fun row => (answer row, table.effectOf row))))) ∧
        ∀ decision, (model.evaluateWith roles context matcher request).result = .ok decision →
          ∃ outcomes,
            testRows kind (matcher.test request roles) table.effectOf table.rows = .ok outcomes ∧
            decision.allowed = (combine kind outcomes).1 ∧
            List.Forall₂ (fun i row => table.rows[i]? = some row ∧
              matcher.test request roles row = .ok true) (combine kind outcomes).2 decision.explain ∧
            (combine kind outcomes).2.Pairwise (· < ·) := by
  have checked : model.checkRequest context.requestType request = .ok () := by
    simp [checkRequest, declared, length]
  rw [model.result_evaluateWith roles context matcher request checked]
  refine ⟨rfl, ?_, ?_⟩
  · intro free row
    exact congrArg Traced.result (matcher.evaluate_row_free free request roles row [])
  · intro kind table effect policy
    exact ⟨fun answer answered => decideRowByRow_of_answered effect policy answered,
      fun decision decided => explain_decideRowByRow effect policy decided⟩

/-- A model whose policy has two rows. -/
def twoSubjects : Model :=
  let table : RowTable :=
    { type := "p"
      fields := ["sub"]
      rows := [["alice"], ["bob"]]
      members := [["bob"], ["alice"]] }
  { requests := [("r", ⟨"sub", ["sub"]⟩)]
    policies := [("p", ⟨"sub", table⟩)]
    effects := [("e", ⟨EffectKind.allowOverride.expression, .allowOverride⟩)] }

/-- The matcher `r.sub == p.sub` over `twoSubjects`. -/
def sameSubject : Matcher :=
  { text := "r.sub == p.sub"
    root := .binary .equal (.request 0 []) (.policy 0 [])
    scope :=
      { requestKey := "r", requestFields := ["sub"], policyKey := "p", policyFields := ["sub"] }
    rules := { capacity := Matcher.ruleCapacity } }

theorem evaluateWith_row_by_row_twoSubjects :
    twoSubjects.request "r" = .ok ["sub"] ∧ [Value.str "bob"].length = ["sub"].length ∧
      (twoSubjects.evaluateWith twoSubjects.hasLink .plain sameSubject [.str "bob"]).result =
        twoSubjects.decideRowByRow twoSubjects.hasLink .plain sameSubject [.str "bob"] ∧
      (twoSubjects.evaluateWith twoSubjects.hasLink .plain sameSubject [.str "bob"]).result =
        .ok { allowed := true, explain := [["bob"]] } :=
  ⟨rfl, rfl, (evaluateWith_row_by_row twoSubjects twoSubjects.hasLink .plain sameSubject
    [.str "bob"] rfl rfl).1, rfl⟩

end Model

end AccessControl
