import AccessControl.Matcher.Parse
import AccessControl.Proofs.Except

/-! # What the parser builds

Every field reference of a parsed expression names a field. The parser does not hold this of a
reference while it reads one, but of every expression that it has completed.
-/

namespace AccessControl

namespace Expr

mutual

/-- Whether every field reference names a field. -/
def namesFields : Expr → Bool
  | .literal _ => true
  | .identifier _ _ => true
  | .field _ path _ => !path.isEmpty
  | .unary _ operand => operand.namesFields
  | .binary _ left right => left.namesFields && right.namesFields
  | .tuple items => allNameFields items
  | .call _ args _ => allNameFields args

def allNameFields : List Expr → Bool
  | [] => true
  | e :: rest => e.namesFields && allNameFields rest

end

@[simp]
theorem allNameFields_iff {items : List Expr} :
    allNameFields items = true ↔ ∀ e ∈ items, e.namesFields = true := by
  induction items with
  | nil => simp [allNameFields]
  | cons e rest ih => simp [allNameFields, ih]

end Expr

namespace Pending

/-- Of an open construct: its operands so far name fields. -/
def NamesFields : Pending → Prop
  | .unary _ => True
  | .binary left _ => left.namesFields = true
  | .group => True
  | .tuple reversed => ∀ e ∈ reversed, e.namesFields = true
  | .call _ _ reversed => ∀ e ∈ reversed, e.namesFields = true

variable {e : Expr} {stack : List Pending}

theorem namesFields_applyUnary (operand : e.namesFields = true)
    (pending : ∀ p ∈ stack, p.NamesFields) :
    (applyUnary e stack).1.namesFields = true ∧ ∀ p ∈ (applyUnary e stack).2, p.NamesFields := by
  induction stack generalizing e with
  | nil => exact ⟨operand, pending⟩
  | cons p rest ih =>
      obtain ⟨_, others⟩ := List.forall_mem_cons.mp pending
      cases p with
      | unary op => exact ih (by simpa [Expr.namesFields] using operand) others
      | _ => exact ⟨operand, pending⟩

theorem namesFields_applyBinary (precedence : Nat) (operand : e.namesFields = true)
    (pending : ∀ p ∈ stack, p.NamesFields) :
    (applyBinary precedence e stack).1.namesFields = true ∧
      ∀ p ∈ (applyBinary precedence e stack).2, p.NamesFields := by
  induction stack generalizing e with
  | nil => exact ⟨operand, pending⟩
  | cons p rest ih =>
      obtain ⟨first, others⟩ := List.forall_mem_cons.mp pending
      cases p with
      | binary left op =>
          unfold applyBinary
          split
          · have left : left.namesFields = true := first
            exact ih (by simp [Expr.namesFields, left, operand]) others
          · exact ⟨operand, pending⟩
      | _ => exact ⟨operand, pending⟩

end Pending

namespace ParseState

/-- Of a state: all expressions in it name fields. -/
def NamesFields : ParseState → Prop
  | .operand _ stack => ∀ p ∈ stack, p.NamesFields
  | .named _ _ _ stack => ∀ p ∈ stack, p.NamesFields
  | .point _ _ _ stack => ∀ p ∈ stack, p.NamesFields
  | .complete e stack => e.namesFields = true ∧ ∀ p ∈ stack, p.NamesFields
  | .done e => e.namesFields = true

variable {s next : ParseState} {e : Expr} {stack : List Pending} {t : PlacedToken}

theorem namesFields_afterPrimary (operand : e.namesFields = true)
    (pending : ∀ p ∈ stack, p.NamesFields) : (afterPrimary e stack).NamesFields :=
  Pending.namesFields_applyUnary operand pending

theorem namesFields_ofName (base : String) (path : List String) (offset : Nat) :
    (ofName base path offset).namesFields = true := by
  unfold ofName
  split
  · rfl
  · rename_i named
    simpa [Expr.namesFields] using named

theorem namesFields_closeEmpty (pending : ∀ p ∈ stack, p.NamesFields)
    (closed : closeEmpty t stack = .ok next) : next.NamesFields := by
  unfold closeEmpty at closed
  split at closed
  · obtain ⟨_, others⟩ := List.forall_mem_cons.mp pending
    rw [← Except.ok.inj closed]
    exact namesFields_afterPrimary rfl others
  · obtain ⟨_, others⟩ := List.forall_mem_cons.mp pending
    rw [← Except.ok.inj closed]
    exact namesFields_afterPrimary rfl others
  · simp [unexpected] at closed

theorem namesFields_beginOperand {opened : Bool} (pending : ∀ p ∈ stack, p.NamesFields)
    (stepped : beginOperand opened stack t = .ok next) : next.NamesFields := by
  unfold beginOperand at stepped
  split at stepped
  · rw [← Except.ok.inj stepped]
    exact namesFields_afterPrimary rfl pending
  · rw [← Except.ok.inj stepped]
    exact List.forall_mem_cons.mpr ⟨trivial, pending⟩
  · split at stepped
    · rw [← Except.ok.inj stepped]
      exact pending
    · rw [← Except.ok.inj stepped]
      exact List.forall_mem_cons.mpr ⟨trivial, pending⟩
    · split at stepped
      · exact namesFields_closeEmpty pending stepped
      · simp [unexpected] at stepped
    · simp [unexpected] at stepped

theorem namesFields_delimit (operand : e.namesFields = true)
    (pending : ∀ p ∈ stack, p.NamesFields) (stepped : delimit e stack t = .ok next) :
    next.NamesFields := by
  -- What an open bracket has collected, with the operand that is complete now.
  have collected {reversed : List Expr} (items : ∀ e ∈ reversed, e.namesFields = true) :
      Expr.allNameFields (e :: reversed).reverse = true := by
    have all : ∀ item ∈ e :: reversed, item.namesFields = true :=
      List.forall_mem_cons.mpr ⟨operand, items⟩
    rw [Expr.allNameFields_iff]
    exact fun item member => all item (List.mem_reverse.mp member)
  unfold delimit at stepped
  split at stepped
  case h_7 => exact Except.ok.inj stepped ▸ operand
  case h_8 => simp [unexpected] at stepped
  all_goals
    obtain ⟨items, others⟩ := List.forall_mem_cons.mp pending
    rw [← Except.ok.inj stepped]
  case h_1 => exact List.forall_mem_cons.mpr ⟨by simpa [Pending.NamesFields], others⟩
  case h_2 => exact List.forall_mem_cons.mpr ⟨List.forall_mem_cons.mpr ⟨operand, items⟩, others⟩
  case h_3 => exact List.forall_mem_cons.mpr ⟨List.forall_mem_cons.mpr ⟨operand, items⟩, others⟩
  case h_4 => exact namesFields_afterPrimary operand others
  case h_5 => exact namesFields_afterPrimary (collected items) others
  case h_6 => exact namesFields_afterPrimary (collected items) others

theorem namesFields_afterOperand (operand : e.namesFields = true)
    (pending : ∀ p ∈ stack, p.NamesFields) (stepped : afterOperand e stack t = .ok next) :
    next.NamesFields := by
  unfold afterOperand at stepped
  split at stepped
  · rename_i op _
    obtain ⟨left, others⟩ := Pending.namesFields_applyBinary op.precedence operand pending
    rw [← Except.ok.inj stepped]
    exact List.forall_mem_cons.mpr ⟨left, others⟩
  · obtain ⟨whole, others⟩ := Pending.namesFields_applyBinary 0 operand pending
    exact namesFields_delimit whole others stepped

theorem namesFields_step (names : s.NamesFields) (stepped : s.step t = .ok next) :
    next.NamesFields := by
  cases s with
  | operand opened stack => exact namesFields_beginOperand names stepped
  | named base path offset stack =>
      simp only [step] at stepped
      split at stepped
      · exact Except.ok.inj stepped ▸ names
      · split at stepped
        · rw [← Except.ok.inj stepped]
          exact List.forall_mem_cons.mpr ⟨by simp [Pending.NamesFields], names⟩
        · simp [unexpected] at stepped
      · obtain ⟨operand, others⟩ :=
          Pending.namesFields_applyUnary (namesFields_ofName base path offset) names
        exact namesFields_afterOperand operand others stepped
  | point base path offset stack =>
      simp only [step] at stepped
      split at stepped
      · exact Except.ok.inj stepped ▸ names
      · simp [unexpected] at stepped
  | complete e stack => exact namesFields_afterOperand names.1 names.2 stepped
  | done e => simp [step, unexpected] at stepped

theorem namesFields_run (names : s.NamesFields) {tokens : List PlacedToken}
    (parsed : s.run tokens = .ok e) : e.namesFields = true := by
  induction tokens generalizing s with
  | nil =>
      cases s with
      | done e => exact Except.ok.inj parsed ▸ names
      | _ => simp [run] at parsed
  | cons t rest ih =>
      obtain ⟨next, stepped, others⟩ := Except.bind_eq_ok_iff.mp parsed
      exact ih (namesFields_step names stepped) others

end ParseState

theorem Expr.namesFields_of_parse {text : String} {e : Expr} (parsed : parse text = .ok e) :
    e.namesFields = true := by
  obtain ⟨tokens, _, run⟩ := Except.bind_eq_ok_iff.mp parsed
  exact ParseState.namesFields_run (by simp [ParseState.NamesFields]) run

end AccessControl
