import AccessControl.Matcher.Operators
import AccessControl.Proofs.Except
import AccessControl.Value.Attribute
import AccessControl.Matcher.Builtin

/-! # Errors about values

Operators, attributes and the functions of the matcher language fail with errors that are about the
values they are given, never with one about names or texts.
-/

namespace AccessControl

/-- An error that an evaluation itself raises. -/
def Error.IsEvaluation : Error → Prop
  | .evaluation _ => True
  | _ => False

/-- If it fails, then with an error that an evaluation itself raises. -/
def Except.Evaluates {α : Type} (x : Except Error α) : Prop :=
  ∀ error, x = .error error → error.IsEvaluation

section

variable {α β : Type}

@[simp]
theorem Except.evaluates_ok (a : α) : Except.Evaluates (.ok a) := by simp [Except.Evaluates]

@[simp]
theorem Except.evaluates_error (fault : EvaluationFault) :
    Except.Evaluates (.error (.evaluation fault) : Except Error α) := by
  intro error eq
  rw [← Except.error.inj eq]
  trivial

theorem Except.Evaluates.bind {x : Except Error α} {f : α → Except Error β}
    (first : Except.Evaluates x) (rest : ∀ a, Except.Evaluates (f a)) :
    Except.Evaluates (x >>= f) := by
  cases x with
  | error error => exact fun other eq => first other (by simpa using eq)
  | ok a => exact rest a

theorem Except.Evaluates.map {x : Except Error α} (first : Except.Evaluates x) (f : α → β) :
    Except.Evaluates (x.map f) := by
  cases x with
  | error error => exact fun other eq => first other (by simpa using eq)
  | ok a => simp

theorem Except.Evaluates.mapM {f : α → Except Error β} (each : ∀ a, Except.Evaluates (f a))
    (items : List α) : Except.Evaluates (items.mapM f) := by
  induction items with
  | nil => exact Except.evaluates_ok []
  | cons a rest ih =>
      rw [List.mapM_cons]
      exact (each a).bind fun _ => ih.bind fun _ => Except.evaluates_ok _

end

namespace Value

theorem evaluates_follow (path : List String) (v : Value) : Except.Evaluates (v.follow path) := by
  induction path generalizing v with
  | nil => simp [follow]
  | cons name path ih =>
      refine Except.Evaluates.bind ?_ ih
      unfold attributeNamed
      split
      · split <;> simp
      · simp

theorem evaluates_asCondition (symbol : String) (v : Value) :
    Except.Evaluates (v.asCondition symbol) := by
  unfold asCondition
  split <;> simp

theorem evaluates_operands (op : BinaryOp) (left right : Value) :
    Except.Evaluates (operands op left right) := by
  unfold operands
  split <;> simp

theorem evaluates_exactly (op : BinaryOp) (n : Int) : Except.Evaluates (exactly op n) := by
  unfold exactly
  split <;> simp

theorem evaluates_arithmetic (op : BinaryOp) (exact : Int → Int → Int)
    (rounded : Binary64 → Binary64 → Binary64) (left right : Value) :
    Except.Evaluates (arithmetic op exact rounded left right) := by
  unfold arithmetic
  split
  · exact evaluates_exactly op _
  · exact (evaluates_operands op left right).bind fun _ => by simp

theorem evaluates_plus (left right : Value) : Except.Evaluates (left.plus right) := by
  unfold plus
  split
  · simp
  · simp
  · exact evaluates_arithmetic _ _ _ _ _

theorem evaluates_quotient (left right : Value) : Except.Evaluates (left.quotient right) := by
  refine (evaluates_operands .div left right).bind fun (x, y) => ?_
  dsimp only
  split <;> simp

theorem evaluates_remainder (left right : Value) : Except.Evaluates (left.remainder right) := by
  unfold remainder
  split
  · split
    · simp
    · split <;> simp
  · refine (evaluates_operands .rem left right).bind fun (x, y) => ?_
    dsimp only
    split <;> simp

theorem evaluates_compared (op : BinaryOp) (accepted : Ordering → Bool) (left right : Value) :
    Except.Evaluates (compared op accepted left right) := by
  refine Except.Evaluates.bind ?_ fun _ => by simp
  unfold ordering
  split
  · simp
  · split
    · split <;> simp
    · simp

theorem evaluates_containedIn (left right : Value) : Except.Evaluates (left.containedIn right) := by
  unfold containedIn
  split <;> simp

end Value

theorem UnaryOp.evaluates_apply (op : UnaryOp) (v : Value) : Except.Evaluates (op.apply v) := by
  unfold UnaryOp.apply
  split
  · simp
  · simp
  · split <;> simp
  · simp
  · simp

theorem BinaryOp.evaluates_apply (op : BinaryOp) (left right : Value) :
    Except.Evaluates (op.apply left right) := by
  cases op with
  | or =>
      refine (left.evaluates_asCondition _).bind fun _ => ?_
      exact (right.evaluates_asCondition _).bind fun _ => by simp
  | and =>
      refine (left.evaluates_asCondition _).bind fun _ => ?_
      exact (right.evaluates_asCondition _).bind fun _ => by simp
  | equal => simp [apply]
  | notEqual => simp [apply]
  | less => exact Value.evaluates_compared _ _ left right
  | lessEqual => exact Value.evaluates_compared _ _ left right
  | greater => exact Value.evaluates_compared _ _ left right
  | greaterEqual => exact Value.evaluates_compared _ _ left right
  | «in» => exact left.evaluates_containedIn right
  | add => exact left.evaluates_plus right
  | sub => exact Value.evaluates_arithmetic _ _ _ left right
  | mul => exact Value.evaluates_arithmetic _ _ _ left right
  | div => exact left.evaluates_quotient right
  | rem => exact left.evaluates_remainder right

namespace Pattern

theorem evaluates_regexMatch (key pattern : String) :
    Except.Evaluates (regexMatch key pattern) := by
  unfold regexMatch
  split <;> simp

theorem evaluates_ipMatch (address other : String) : Except.Evaluates (ipMatch address other) := by
  unfold ipMatch
  split
  · simp
  · split
    · simp
    · split <;> simp

theorem evaluates_globMatch (key pattern : String) :
    Except.Evaluates (globMatch key pattern) := by
  unfold globMatch
  split <;> simp

end Pattern

namespace Builtin

theorem evaluates_onTexts {f : Builtin} {texts : List String} {x : Except Error Value}
    (applied : f.onTexts? texts = some x) : Except.Evaluates x := by
  unfold onTexts? at applied
  split at applied
  case h_8 => exact Option.some.inj applied ▸ (Pattern.evaluates_regexMatch _ _).map _
  case h_9 => exact Option.some.inj applied ▸ (Pattern.evaluates_ipMatch _ _).map _
  case h_10 => exact Option.some.inj applied ▸ (Pattern.evaluates_globMatch _ _).map _
  case h_11 => simp at applied
  all_goals exact Option.some.inj applied ▸ Except.evaluates_ok _

theorem evaluates_call (f : Builtin) (args : List Value) : Except.Evaluates (f.call args) := by
  unfold call
  refine Except.Evaluates.bind ?_ fun texts => ?_
  · refine Except.Evaluates.mapM (fun arg => ?_) args
    unfold textArgument
    split <;> simp
  · cases applied : f.onTexts? texts with
    | some result => exact evaluates_onTexts applied
    | none => simp

end Builtin

end AccessControl
