import AccessControl.Proofs.Matcher.ByName
import AccessControl.Proofs.Matcher.Faults
import Mathlib.Algebra.Group.Int.Defs

/-! # Expressions over integers

Such an expression is made of integer literals and of request values that are integers, with signs,
sums, differences, products and remainders. Its exact value is taken without bounds. An evaluation
comes to that value or fails, and it fails just if some part of the expression cannot be answered:
a remainder by zero or of the least integer by `-1`, or an exact value outside of 64 bits. So an
overflow somewhere inside is never made good further out.
-/

namespace AccessControl

/-! ## Integers of 64 bits -/

/-- The exact results that an integer can hold. -/
def FitsWord (n : Int) : Prop := -2 ^ 63 ≤ n ∧ n < 2 ^ 63

theorem fitsWord_toInt (n : Int64) : FitsWord n.toInt := ⟨n.le_toInt, n.toInt_lt⟩

namespace Value

theorem intInRange_iff {n : Int} : intInRange n = true ↔ FitsWord n := by
  have low : Int64.minValue.toInt = -2 ^ 63 := by decide
  have high : Int64.maxValue.toInt = 2 ^ 63 - 1 := by decide
  rw [intInRange, Bool.and_eq_true, decide_eq_true_eq, decide_eq_true_eq, low, high,
    Int.le_sub_one_iff]
  rfl

end Value

theorem FitsWord.toInt_ofInt {n : Int} (fits : FitsWord n) : (Int64.ofInt n).toInt = n :=
  Int64.toInt_ofInt_of_le fits.1 fits.2

variable {a b : Int}

theorem FitsWord.tmod (fits : FitsWord b) (nonzero : b ≠ 0) (a : Int) :
    FitsWord (a.tmod b) := by
  have magnitude := Int.natAbs_tmod a b
  have smaller : a.natAbs % b.natAbs < b.natAbs := Nat.mod_lt _ (Int.natAbs_pos.mpr nonzero)
  unfold FitsWord at *
  omega

/-- Of all quotients only that of the least integer by `-1` is beyond the others. -/
theorem FitsWord.tdiv_iff (fits : FitsWord a) (nonzero : b ≠ 0) :
    FitsWord (a.tdiv b) ↔ ¬(a = -2 ^ 63 ∧ b = -1) := by
  by_cases minusOne : b = -1
  · subst minusOne
    rw [Int.tdiv_neg, Int.tdiv_one]
    unfold FitsWord at *
    omega
  · refine iff_of_true ?_ fun least => minusOne least.2
    have magnitude : (a.tdiv b).natAbs = a.natAbs / b.natAbs := Int.natAbs_tdiv a b
    by_cases one : b = 1
    · rwa [one, Int.tdiv_one]
    · have halved : a.natAbs / b.natAbs ≤ a.natAbs / 2 :=
        Nat.div_le_div_left (by omega) (by decide)
      unfold FitsWord at *
      omega

/-! ## Exact values -/

namespace BinaryOp

/-- The operators that make integers of integers. A quotient is always a float. -/
def keepsIntegers : BinaryOp → Bool
  | .add | .sub | .mul | .rem => true
  | _ => false

/-- What they make of two integers without bounds. A remainder is that of a division truncated
    toward zero, and by zero there is none. -/
def exactValue? : BinaryOp → Int → Int → Option Int
  | .add, a, b => some (a + b)
  | .sub, a, b => some (a - b)
  | .mul, a, b => some (a * b)
  | .rem, a, b => if b = 0 then none else some (a.tmod b)
  | _, _, _ => none

/-- Whether an operator has no answer for two integers although each of them fits. -/
def Refuses (op : BinaryOp) (a b : Int) : Prop :=
  (op = .rem ∧ b = 0) ∨ (op = .rem ∧ a = -2 ^ 63 ∧ b = -1) ∨
    ∃ n, op.exactValue? a b = some n ∧ ¬FitsWord n

end BinaryOp

namespace Expr

section

variable (scope : Scope) (request : List Value)

/-- The integer of a request under a name, or under attributes behind it. -/
def requestInteger? (name : String) (path : List String) : Option Int64 := do
  let position ← Scope.positionOf? scope.requestFields name
  let value ← request[position]?
  match value.follow path with
  | .ok (.int n) => some n
  | _ => none

inductive OverIntegers : Expr → Prop where
  | literal (n : Int64) : OverIntegers (.literal (.int n))
  | field {name : String} {path : List String} {n : Int64} (offset : Nat)
      (found : requestInteger? scope request name path = some n) :
      OverIntegers (.field scope.requestKey (name :: path) offset)
  | neg {operand : Expr} (inner : OverIntegers operand) : OverIntegers (.unary .neg operand)
  | binary {op : BinaryOp} {left right : Expr} (integral : op.keepsIntegers = true)
      (first : OverIntegers left) (second : OverIntegers right) :
      OverIntegers (.binary op left right)

/-- The value of an expression over integers, where nothing in it is taken modulo zero. -/
def exactValue? : Expr → Option Int
  | .literal (.int n) => some n.toInt
  | .field base (name :: path) _ =>
    if base = scope.requestKey then (requestInteger? scope request name path).map Int64.toInt
    else none
  | .unary .neg operand => (exactValue? operand).map fun n => -n
  | .binary op left right => do
    let a ← exactValue? left
    let b ← exactValue? right
    op.exactValue? a b
  | _ => none

/-- No integer of 64 bits can answer an expression: it takes a remainder by zero or that of the
    least integer by `-1`, or its exact value does not fit. -/
inductive Unanswerable : Expr → Prop where
  | byZero {left right : Expr} (zero : right.exactValue? scope request = some 0) :
      Unanswerable (.binary .rem left right)
  | leastByMinusOne {left right : Expr} (least : left.exactValue? scope request = some (-2 ^ 63))
      (minusOne : right.exactValue? scope request = some (-1)) :
      Unanswerable (.binary .rem left right)
  | outside {e : Expr} {n : Int} (exact : e.exactValue? scope request = some n)
      (big : ¬FitsWord n) :
      Unanswerable e

end

/-- An expression stands in another one, or is it. -/
inductive PartOf (part : Expr) : Expr → Prop where
  | whole : PartOf part part
  | operand {op : UnaryOp} {e : Expr} (inner : PartOf part e) : PartOf part (.unary op e)
  | left {op : BinaryOp} {left right : Expr} (inner : PartOf part left) :
      PartOf part (.binary op left right)
  | right {op : BinaryOp} {left right : Expr} (inner : PartOf part right) :
      PartOf part (.binary op left right)

variable {scope : Scope} {request : List Value} {op : BinaryOp} {left right operand : Expr}

/-- Some part of an expression cannot be answered. -/
def HasUnanswerable (scope : Scope) (request : List Value) (e : Expr) : Prop :=
  ∃ part, PartOf part e ∧ part.Unanswerable scope request

theorem hasUnanswerable_unary_iff {op : UnaryOp} :
    (Expr.unary op operand).HasUnanswerable scope request ↔
      (Expr.unary op operand).Unanswerable scope request ∨
        operand.HasUnanswerable scope request := by
  constructor
  · rintro ⟨part, within, unanswerable⟩
    cases within with
    | whole => exact .inl unanswerable
    | operand inner => exact .inr ⟨part, inner, unanswerable⟩
  · rintro (unanswerable | ⟨part, inner, unanswerable⟩)
    · exact ⟨_, .whole, unanswerable⟩
    · exact ⟨part, .operand inner, unanswerable⟩

theorem hasUnanswerable_binary_iff :
    (Expr.binary op left right).HasUnanswerable scope request ↔
      (Expr.binary op left right).Unanswerable scope request ∨
        left.HasUnanswerable scope request ∨ right.HasUnanswerable scope request := by
  constructor
  · rintro ⟨part, within, unanswerable⟩
    cases within with
    | whole => exact .inl unanswerable
    | left inner => exact .inr (.inl ⟨part, inner, unanswerable⟩)
    | right inner => exact .inr (.inr ⟨part, inner, unanswerable⟩)
  · rintro (unanswerable | ⟨part, inner, unanswerable⟩ | ⟨part, inner, unanswerable⟩)
    · exact ⟨_, .whole, unanswerable⟩
    · exact ⟨part, .left inner, unanswerable⟩
    · exact ⟨part, .right inner, unanswerable⟩

theorem unanswerable_binary_iff {a b : Int} (first : left.exactValue? scope request = some a)
    (second : right.exactValue? scope request = some b) :
    (Expr.binary op left right).Unanswerable scope request ↔ op.Refuses a b := by
  have both : (Expr.binary op left right).exactValue? scope request = op.exactValue? a b := by
    rw [exactValue?, first, second]
    rfl
  constructor
  · rintro (⟨zero⟩ | ⟨least, minusOne⟩ | ⟨exact, big⟩)
    · exact .inl ⟨rfl, Option.some.inj (second.symm.trans zero)⟩
    · exact .inr (.inl ⟨rfl, Option.some.inj (first.symm.trans least),
        Option.some.inj (second.symm.trans minusOne)⟩)
    · exact .inr (.inr ⟨_, both.symm.trans exact, big⟩)
  · rintro (⟨rfl, rfl⟩ | ⟨rfl, rfl, rfl⟩ | ⟨n, exact, big⟩)
    · exact .byZero second
    · exact .leastByMinusOne first second
    · exact .outside (both.trans exact) big

theorem unanswerable_unary_iff {op : UnaryOp} :
    (Expr.unary op operand).Unanswerable scope request ↔
      ∃ n, (Expr.unary op operand).exactValue? scope request = some n ∧ ¬FitsWord n :=
  ⟨fun | .outside exact big => ⟨_, exact, big⟩, fun ⟨_, exact, big⟩ => .outside exact big⟩

end Expr

/-! ## Answers -/

/-- A result is the exact value, or a fault just where there must be one. -/
inductive Settled (exactValue? : Option Int) (refused : Prop) : Except Error Value → Prop where
  | answer {n : Int64} (exact : exactValue? = some n.toInt) (answerable : ¬refused) :
      Settled exactValue? refused (.ok (.int n))
  | fault (fault : EvaluationFault) (must : refused) :
      Settled exactValue? refused (.error (.evaluation fault))

theorem settled_neg (n : Int64) :
    Settled (some (-n.toInt)) (¬FitsWord (-n.toInt)) (UnaryOp.neg.apply (.int n)) := by
  show Settled _ _ (if Value.intInRange (-n.toInt) then .ok (.int (Int64.ofInt (-n.toInt)))
    else .error (.evaluation .negationOverflow))
  split
  next fits =>
    have fits := Value.intInRange_iff.mp fits
    exact .answer (by rw [fits.toInt_ofInt]) (not_not_intro fits)
  next big => exact .fault _ fun fits => big (Value.intInRange_iff.mpr fits)

theorem settled_exactly (op : BinaryOp) {a b n : Int} (exact : op.exactValue? a b = some n)
    (noRemainder : op ≠ .rem) (symbol : BinaryOp) :
    Settled (op.exactValue? a b) (op.Refuses a b) (Value.exactly symbol n) := by
  unfold Value.exactly
  split
  next fits =>
    have fits := Value.intInRange_iff.mp fits
    refine .answer (by rw [exact, fits.toInt_ofInt]) ?_
    rintro (⟨rem, -⟩ | ⟨rem, -⟩ | ⟨other, exact', big⟩)
    · exact noRemainder rem
    · exact noRemainder rem
    · obtain rfl := Option.some.inj (exact.symm.trans exact')
      exact big fits
  next big =>
    exact .fault _ (.inr (.inr ⟨n, exact, fun fits => big (Value.intInRange_iff.mpr fits)⟩))

theorem settled_remainder (m n : Int64) :
    Settled (BinaryOp.rem.exactValue? m.toInt n.toInt) (BinaryOp.rem.Refuses m.toInt n.toInt)
      (Value.remainder (.int m) (.int n)) := by
  have zero_iff : n = 0 ↔ n.toInt = 0 := by
    rw [← Int64.toInt_inj]
    rfl
  show Settled _ _ (if n = 0 then .error (.evaluation .divisionByZero)
    else if Value.intInRange (m.toInt.tdiv n.toInt) then
      .ok (.int (Int64.ofInt (m.toInt.tmod n.toInt)))
    else .error (.evaluation (.overflow BinaryOp.rem.symbol)))
  split
  next zero => exact .fault _ (.inl ⟨rfl, zero_iff.mp zero⟩)
  next nonzero =>
    have nonzero : n.toInt ≠ 0 := fun zero => nonzero (zero_iff.mpr zero)
    have exact : BinaryOp.rem.exactValue? m.toInt n.toInt = some (m.toInt.tmod n.toInt) :=
      if_neg nonzero
    have fits := (fitsWord_toInt n).tmod nonzero m.toInt
    have quotient := (fitsWord_toInt m).tdiv_iff nonzero
    split
    next within =>
      refine .answer (by rw [exact, fits.toInt_ofInt]) ?_
      rintro (⟨-, zero⟩ | ⟨-, least⟩ | ⟨other, exact', big⟩)
      · exact nonzero zero
      · exact quotient.mp (Value.intInRange_iff.mp within) least
      · obtain rfl := Option.some.inj (exact.symm.trans exact')
        exact big fits
    next beyond =>
      refine .fault _ (.inr (.inl ⟨rfl, ?_⟩))
      by_contra other
      exact beyond (Value.intInRange_iff.mpr (quotient.mpr other))

theorem settled_apply {op : BinaryOp} (integral : op.keepsIntegers = true) (m n : Int64) :
    Settled (op.exactValue? m.toInt n.toInt) (op.Refuses m.toInt n.toInt)
      (op.apply (.int m) (.int n)) := by
  cases op with
  | add => exact settled_exactly .add rfl (by decide) _
  | sub => exact settled_exactly .sub rfl (by decide) _
  | mul => exact settled_exactly .mul rfl (by decide) _
  | rem => exact settled_remainder m n
  | _ => cases integral

namespace Settled

variable {exactValue? otherValue? : Option Int} {refused refused' unanswerable : Prop}
  {x y : Except Error Value}

theorem congr (settled : Settled exactValue? refused x) (same : refused ↔ refused') :
    Settled exactValue? refused' x := propext same ▸ settled

theorem neg (settled : Settled exactValue? refused x)
    (unanswerable_iff : ∀ n, exactValue? = some n → (unanswerable ↔ ¬FitsWord (-n))) :
    Settled (exactValue?.map fun n => -n) (unanswerable ∨ refused) (x >>= UnaryOp.neg.apply) := by
  cases settled with
  | fault fault must => exact .fault fault (.inr must)
  | @answer n known answerable =>
      rw [known]
      exact (settled_neg n).congr
        ((unanswerable_iff _ known).symm.trans (or_iff_left answerable).symm)

theorem binary {op : BinaryOp} (integral : op.keepsIntegers = true)
    (first : Settled exactValue? refused x) (second : Settled otherValue? refused' y)
    (unanswerable_iff : ∀ a b, exactValue? = some a → otherValue? = some b →
      (unanswerable ↔ op.Refuses a b)) :
    Settled (exactValue?.bind fun a => otherValue?.bind fun b => op.exactValue? a b)
      (unanswerable ∨ refused ∨ refused') (x >>= fun v => y >>= fun w => op.apply v w) := by
  cases first with
  | fault fault must => exact .fault fault (.inr (.inl must))
  | @answer m known answerable =>
      cases second with
      | fault fault must => exact .fault fault (.inr (.inr must))
      | @answer n known' answerable' =>
          rw [known, known']
          exact (settled_apply integral m n).congr ((unanswerable_iff _ _ known known').symm.trans
            (or_iff_left (not_or_intro answerable answerable')).symm)

end Settled

namespace Expr

variable {scope : Scope} {request : List Value}

theorem settled_leaf {e : Expr} {n : Int64} (known : e.exactValue? scope request = some n.toInt)
    (leaf : ∀ part, PartOf part e → part = e)
    (simple : ∀ op left right, e ≠ .binary op left right) :
    Settled (e.exactValue? scope request) (e.HasUnanswerable scope request) (.ok (.int n)) := by
  refine .answer known ?_
  rintro ⟨part, within, unanswerable⟩
  obtain rfl := leaf part within
  cases unanswerable with
  | byZero | leastByMinusOne => exact simple _ _ _ rfl
  | outside exact big =>
      obtain rfl := Option.some.inj (known.symm.trans exact)
      exact big (fitsWord_toInt n)

theorem resolve_field {name : String} {path : List String} {n : Int64} {offset : Nat}
    (found : requestInteger? scope request name path = some n) (nested : Bool) :
    ∃ position, scope.resolve nested (.field scope.requestKey (name :: path) offset) =
        .ok (.request position path) ∧
      ∀ (env : Bindings) (onRule : String → Traced Value), env.request = request →
        ((Node.request position path).evaluate env onRule).result = .ok (.int n) := by
  obtain ⟨position, declared, found⟩ := Option.bind_eq_some_iff.mp found
  obtain ⟨value, present, integer⟩ := Option.bind_eq_some_iff.mp found
  have followed : value.follow path = .ok (.int n) := by
    split at integer
    next same =>
      obtain rfl := Option.some.inj integer
      exact same
    next => cases integer
  refine ⟨position, ?_, ?_⟩
  · simp [Scope.resolve, Scope.reference, Scope.field_eq_ok_iff.mpr declared]
  · rintro env onRule rfl
    simp [Node.evaluate, Bindings.requestValue, present, followed]

/-- An expression over integers can be resolved, and its evaluation settles its exact value. -/
theorem OverIntegers.settled {e : Expr} (integral : e.OverIntegers scope request) (nested : Bool) :
    ∃ node, scope.resolve nested e = .ok node ∧
      ∀ (env : Bindings) (onRule : String → Traced Value), env.request = request →
        Settled (e.exactValue? scope request) (e.HasUnanswerable scope request)
          (node.evaluate env onRule).result := by
  induction integral with
  | literal n =>
      refine ⟨.literal (.int n), rfl, fun env onRule _ => settled_leaf rfl ?_ (by simp)⟩
      rintro part ⟨⟩
      rfl
  | @field name path n offset found =>
      obtain ⟨position, resolved, evaluated⟩ := resolve_field found nested
      refine ⟨_, resolved, fun env onRule bound => ?_⟩
      rw [evaluated env onRule bound]
      refine settled_leaf (by simp [exactValue?, found]) ?_ (by simp)
      rintro part ⟨⟩
      rfl
  | @neg operand inner ih =>
      obtain ⟨node, resolved, settled⟩ := ih
      refine ⟨.unary .neg node, by simp [Scope.resolve, resolved], fun env onRule bound => ?_⟩
      have evaluated : ((Node.unary .neg node).evaluate env onRule).result =
          (node.evaluate env onRule).result >>= UnaryOp.neg.apply := by
        simp [Node.evaluate]
      rw [hasUnanswerable_unary_iff, evaluated]
      refine (settled env onRule bound).neg fun n known => ?_
      rw [unanswerable_unary_iff, exactValue?, known]
      simp
  | @binary op left right integral first second ih ih' =>
      obtain ⟨node, resolved, settled⟩ := ih
      obtain ⟨node', resolved', settled'⟩ := ih'
      refine ⟨.binary op node node', by simp [Scope.resolve, resolved, resolved'],
        fun env onRule bound => ?_⟩
      have strict : op.isLogical = false := by
        cases op with
        | or | and => cases integral
        | _ => rfl
      have evaluated : ((Node.binary op node node').evaluate env onRule).result =
          (node.evaluate env onRule).result >>= fun v =>
            (node'.evaluate env onRule).result >>= fun w => op.apply v w := by
        simp [Node.evaluate, strict]
      rw [hasUnanswerable_binary_iff, evaluated]
      exact (settled env onRule bound).binary integral (settled' env onRule bound)
        fun a b known known' => unanswerable_binary_iff known known'

/-- An expression over integers can be resolved, and then evaluates to its exact value, or not at
    all: it fails, with an error of the evaluation, just if one of its parts cannot be answered. -/
theorem integers_exact_or_refused {e : Expr} (integral : e.OverIntegers scope request)
    (nested : Bool) :
    ∃ node, scope.resolve nested e = .ok node ∧
      ∀ (env : Bindings) (onRule : String → Traced Value), env.request = request →
        (∀ value, (node.evaluate env onRule).result = .ok value →
          ∃ n : Int64, value = .int n ∧ e.exactValue? scope request = some n.toInt) ∧
        (∀ error, (node.evaluate env onRule).result = .error error → error.IsEvaluation) ∧
        ((∃ error, (node.evaluate env onRule).result = .error error) ↔
          ∃ part, PartOf part e ∧ part.Unanswerable scope request) := by
  obtain ⟨node, resolved, settled⟩ := integral.settled nested
  refine ⟨node, resolved, fun env onRule bound => ?_⟩
  have settled := settled env onRule bound
  revert settled
  generalize (node.evaluate env onRule).result = result
  intro settled
  cases settled with
  | @answer n known answerable =>
      refine ⟨?_, ?_, ?_⟩
      · rintro value ⟨⟩
        exact ⟨n, rfl, known⟩
      · rintro error ⟨⟩
      · exact iff_of_false (by rintro ⟨error, ⟨⟩⟩) answerable
  | fault fault must =>
      refine ⟨?_, ?_, ?_⟩
      · rintro value ⟨⟩
      · rintro error ⟨⟩
        trivial
      · exact iff_of_true ⟨_, rfl⟩ must

/-- Requests are a number. -/
def numberScope : Scope where
  requestKey := "r"
  requestFields := ["n"]
  policyKey := "p"
  policyFields := []

/-- A step up and a step back. -/
def upAndBack : Expr :=
  .binary .sub (.binary .add (.field "r" ["n"] 1) (.literal (.int 1))) (.literal (.int 1))

/-- From the largest integer the way back is not taken, though it would lead to where there is
    room. -/
theorem integers_exact_or_refused_upAndBack :
    Expr.parse "(r.n + 1) - 1" = .ok upAndBack ∧
    upAndBack.OverIntegers numberScope [.int Int64.maxValue] ∧
    upAndBack.exactValue? numberScope [.int Int64.maxValue] = some Int64.maxValue.toInt ∧
    ∃ node, numberScope.resolve false upAndBack = .ok node ∧
      ∀ (env : Bindings) (onRule : String → Traced Value), env.request = [.int Int64.maxValue] →
        ∃ error, (node.evaluate env onRule).result = .error error := by
  have integral : upAndBack.OverIntegers numberScope [.int Int64.maxValue] :=
    .binary rfl (.binary rfl (.field 1 rfl) (.literal 1)) (.literal 1)
  obtain ⟨node, resolved, settled⟩ := integers_exact_or_refused integral false
  refine ⟨rfl, integral, rfl, node, resolved, fun env onRule bound => ?_⟩
  have up : Unanswerable numberScope [.int Int64.maxValue]
      (.binary .add (.field "r" ["n"] 1) (.literal (.int 1))) :=
    .outside rfl fun fits => absurd fits.2 (by decide)
  exact (settled env onRule bound).2.2.mpr ⟨_, .left .whole, up⟩

end Expr

end AccessControl
