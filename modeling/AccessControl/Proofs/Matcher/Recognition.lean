import AccessControl.Proofs.Except
import AccessControl.Proofs.Matcher.Grammar

/-! # What the parser accepts

The parser accepts the tokens that the grammar derives, and builds the tree of their derivation. In
one direction this is an induction on derivations: the parser gets from where an operand must begin
to where it has ended. In the other direction every state of the parser stands for derivations of
what it has read.
-/

namespace AccessControl

theorem BinaryOp.precedence_le (op : BinaryOp) : op.precedence ≤ 5 := by
  cases op <;> decide

/-! ## Stacks -/

namespace Pending

/-- What is on top of a stack takes no operand as tight as this. -/
def Loose (rank : Nat) : List Pending → Prop
  | .unary _ :: _ => False
  | .binary _ op :: _ => op.precedence < rank
  | _ => True

variable {m n : Nat} {e : Expr} {stack : List Pending}

theorem Loose.mono (loose : Loose m stack) (le : m ≤ n) : Loose n stack := by
  unfold Loose at loose ⊢
  split at loose
  · exact loose
  · exact Nat.lt_of_lt_of_le loose le
  · trivial

theorem Loose.applyUnary (loose : Loose n stack) : applyUnary e stack = (e, stack) := by
  unfold Pending.applyUnary
  split
  · exact loose.elim
  · rfl

theorem Loose.applyBinary (loose : Loose n stack) : applyBinary n e stack = (e, stack) := by
  unfold Pending.applyBinary
  split
  · rw [if_neg (Nat.not_le.mpr loose)]
  · rfl

theorem applyBinary_applyBinary (le : n ≤ m) (e : Expr) (stack : List Pending) :
    applyBinary n (applyBinary m e stack).1 (applyBinary m e stack).2 = applyBinary n e stack := by
  induction stack generalizing e with
  | nil => rfl
  | cons p rest ih =>
      cases p with
      | binary left op =>
          by_cases tight : m ≤ op.precedence
          · simp only [applyBinary, if_pos tight, if_pos (Nat.le_trans le tight)]
            exact ih (.binary op left e)
          · simp only [applyBinary, if_neg tight]
      | _ => rfl

theorem applyBinary_eq_self (tight : 5 < n) (e : Expr) (stack : List Pending) :
    applyBinary n e stack = (e, stack) := by
  unfold applyBinary
  split
  · rename_i op _
    rw [if_neg (Nat.not_le.mpr (Nat.lt_of_le_of_lt op.precedence_le tight))]
  · rfl

/-- What gathers expressions with commas between them. -/
inductive Gathers : (List Expr → Pending) → Prop where
  | tuple : Gathers .tuple
  | call (name : String) (offset : Nat) : Gathers (.call name offset)

theorem Gathers.loose {frame : List Expr → Pending} (gathers : Gathers frame)
    (reversed : List Expr) : Loose n (frame reversed :: stack) := by
  cases gathers <;> trivial

end Pending

/-! ## Reading tokens -/

namespace ParseState

open Pending (Loose Gathers)

/-- The parser gets from one state to another when it reads these tokens. -/
def Reads (s : ParseState) (tokens : List PlacedToken) (s' : ParseState) : Prop :=
  tokens.foldlM step s = .ok s'

variable {s s' s'' next : ParseState} {t : PlacedToken} {tokens tokens' rest : List PlacedToken}
  {e e' : Expr} {stack stack' : List Pending}

theorem Reads.nil (s : ParseState) : s.Reads [] s := rfl

theorem Reads.cons (stepped : s.step t = .ok next) (reads : next.Reads rest s') :
    s.Reads (t :: rest) s' := by
  unfold Reads at reads ⊢
  rw [List.foldlM_cons, stepped]
  exact reads

theorem Reads.append (first : s.Reads tokens s') (second : s'.Reads tokens' s'') :
    s.Reads (tokens ++ tokens') s'' := by
  unfold Reads at first second ⊢
  rw [List.foldlM_append, first]
  exact second

theorem Reads.step (first : s.Reads tokens s') (stepped : s'.step t = .ok next) :
    s.Reads (tokens ++ [t]) next := first.append (.cons stepped (.nil next))

theorem Reads.run (reads : s.Reads tokens s') (rest : List PlacedToken) :
    s.run (tokens ++ rest) = s'.run rest := by
  induction tokens generalizing s with
  | nil => rw [← Except.ok.inj reads]; rfl
  | cons t tokens ih =>
      obtain ⟨next, stepped, others⟩ := Except.bind_eq_ok_iff.mp reads
      rw [List.cons_append, ParseState.run, stepped]
      exact ih others

/-- An operand has ended, and has been handed to the unary operators before it. -/
inductive Settled : ParseState → Expr → List Pending → Prop where
  | complete (e : Expr) (stack : List Pending) : Settled (.complete e stack) e stack
  | named {base : String} {path : List String} {offset : Nat} {below : List Pending} {e : Expr}
      {stack : List Pending} (applied : Pending.applyUnary (ofName base path offset) below =
        (e, stack)) : Settled (.named base path offset below) e stack

theorem Settled.step (settled : s.Settled e stack) (noPoint : t.token ≠ .dot)
    (noParen : t.token ≠ .leftParen) : s.step t = afterOperand e stack t := by
  cases settled with
  | complete => rfl
  | named applied =>
      simp only [ParseState.step, applied]

/-- A bracket or the end meets the expression that stands right before it. -/
theorem Settled.step_delimit {n : Nat} (settled : s.Settled e' stack')
    (applied : Pending.applyBinary n e' stack' = (e, stack)) (loose : Loose 0 stack)
    (noPoint : t.token ≠ .dot) (noParen : t.token ≠ .leftParen)
    (noOperator : t.token.binaryOp? = none) : s.step t = delimit e stack t := by
  have whole : Pending.applyBinary 0 e' stack' = (e, stack) := by
    rw [← Pending.applyBinary_applyBinary (Nat.zero_le n), applied]
    exact loose.applyBinary
  rw [settled.step noPoint noParen]
  simp only [afterOperand, noOperator, whole]

/-- Read these tokens to the end of an operand, which is complete as soon as all operators are that
    bind at least as tightly as `rank`. -/
def Completes (s : ParseState) (tokens : List PlacedToken) (rank : Nat) (e : Expr)
    (stack : List Pending) : Prop :=
  ∃ s' e' stack', s.Reads tokens s' ∧ s'.Settled e' stack' ∧
    Pending.applyBinary rank e' stack' = (e, stack)

theorem completes_afterPrimary (reads : s.Reads tokens (afterPrimary e stack)) :
    s.Completes tokens 7 (Pending.applyUnary e stack).1 (Pending.applyUnary e stack).2 :=
  ⟨_, _, _, reads, .complete _ _, Pending.applyBinary_eq_self (by decide) _ _⟩

end ParseState

/-! ## Derivations are read -/

namespace Grammar

open ParseState (Completes afterOperand afterPrimary completes_afterPrimary delimit ofName)
open Pending (Loose Gathers)

/-- An operand from a symbol can begin on a stack. -/
def Symbol.BeginsOn : Symbol → List Pending → Prop
  | .binary level, stack => Loose level.rank stack
  | _, _ => True

theorem Level.operand_beginsOn {level : Level} {stack : List Pending}
    (loose : Loose (level.rank + 1) stack) : level.operand.BeginsOn stack := by
  cases level <;> first | exact loose | trivial

theorem ofName_selections (base : String) (offset : Nat) (fields : List Selection) :
    ofName base (fields.map Selection.field) offset = (Derivation.name base offset fields).tree := by
  cases fields <;> rfl

theorem selections_read (base : String) (path : List String) (offset : Nat) (stack : List Pending)
    (fields : List Selection) :
    (ParseState.named base path offset stack).Reads (fields.flatMap Selection.tokens)
      (.named base (path ++ fields.map Selection.field) offset stack) := by
  induction fields generalizing path with
  | nil => rw [List.map_nil, List.append_nil]; exact .nil _
  | cons selection others ih =>
      have read := ih (path ++ [selection.field])
      rw [List.append_assoc] at read
      exact .cons rfl (.cons rfl read)

mutual

/-- The parser reads a derivation where an operand can begin, and hands it to the unary operators
    before it. -/
theorem Derivation.completes : ∀ {s : Symbol} (d : Derivation s) (opened : Bool)
    (stack : List Pending), s.BeginsOn stack →
    Completes (.operand opened stack) d.tokens s.rank (Pending.applyUnary d.tree stack).1
      (Pending.applyUnary d.tree stack).2
  | .binary level, .chain first others, opened, stack, begins => by
      have loose : Loose level.rank stack := begins
      obtain ⟨s, e, below, reads, settled, applied⟩ := first.completes opened stack
        (Level.operand_beginsOn (loose.mono (Nat.le_succ level.rank)))
      rw [loose.applyUnary, Level.rank_operand] at applied
      -- Below the operand waits nothing as tight as this level.
      have whole : Pending.applyBinary level.rank e below = (first.tree, stack) := by
        rw [← Pending.applyBinary_applyBinary (Nat.le_succ level.rank), applied]
        exact loose.applyBinary
      obtain ⟨s', e', below', reads', ended⟩ := others.completes settled whole loose
      rw [loose.applyUnary]
      exact ⟨s', e', below', reads.append reads', ended⟩
  | .unary, .prefixed op offset operand, opened, stack, _ => by
      have stepped : (ParseState.operand opened stack).step ⟨op.token, offset⟩ =
          .ok (.operand false (.unary op :: stack)) := by cases op <;> rfl
      obtain ⟨s, e, below, reads, ended⟩ :=
        operand.completes false (.unary op :: stack) trivial
      exact ⟨s, e, below, .cons stepped reads, ended⟩
  | .unary, .plain primary, opened, stack, _ => by
      obtain ⟨s, e, below, reads, settled, applied⟩ :=
        primary.completes opened stack trivial
      rw [Pending.applyBinary_eq_self (by decide)] at applied
      exact ⟨s, e, below, reads, settled,
        (Pending.applyBinary_eq_self (by decide) e below).trans applied⟩
  | .primary, .literal literal offset, opened, stack, _ => by
      have stepped : (ParseState.operand opened stack).step ⟨literal.token, offset⟩ =
          .ok (afterPrimary (.literal literal.value) stack) := by
        cases literal with
        | bool b => cases b <;> rfl
        | _ => rfl
      exact completes_afterPrimary (.cons stepped (.nil _))
  | .primary, .name base offset fields, opened, stack, _ => by
      have read := selections_read base [] offset stack fields
      rw [List.nil_append] at read
      refine ⟨_, _, _, .cons rfl read, .named rfl, ?_⟩
      rw [Pending.applyBinary_eq_self (by decide), ofName_selections]
  | .primary, .bareCall name offset opening closing, opened, stack, _ =>
      completes_afterPrimary (.cons rfl (.cons rfl (.cons rfl (.nil _))))
  | .primary, .call name offset opening args closing, opened, stack, _ => by
      obtain ⟨s, before, last, reads, meets, all⟩ :=
        args.completes (.call name offset) true [] stack
      have closed : s.step ⟨.rightParen, closing⟩ =
        .ok (afterPrimary (.call name (last :: before).reverse offset) stack) :=
          meets ⟨.rightParen, closing⟩ (by simp) (by simp) rfl
      rw [all] at closed
      exact completes_afterPrimary (.cons rfl (.cons rfl (reads.step closed)))
  | .primary, .nothing opening closing, opened, stack, _ =>
      completes_afterPrimary (.cons rfl (.cons rfl (.nil _)))
  | .primary, .group opening inner closing, opened, stack, _ => by
      obtain ⟨s, e, below, reads, settled, applied⟩ :=
        inner.completes true (.group :: stack) trivial
      have closed := settled.step_delimit applied trivial (t := ⟨.rightParen, closing⟩) (by simp)
        (by simp) rfl
      exact completes_afterPrimary (.cons rfl (reads.step closed))
  | .primary, .tuple opening first comma others closing, opened, stack, _ => by
      obtain ⟨s, e, below, reads, settled, applied⟩ :=
        first.completes true (.group :: stack) trivial
      have parted := settled.step_delimit applied trivial (t := ⟨.comma, comma⟩) (by simp)
        (by simp) rfl
      obtain ⟨s', before, last, reads', meets, all⟩ :=
        others.completes .tuple false [first.tree] stack
      have closed : s'.step ⟨.rightParen, closing⟩ =
        .ok (afterPrimary (.tuple (last :: before).reverse) stack) :=
          meets ⟨.rightParen, closing⟩ (by simp) (by simp) rfl
      rw [all] at closed
      have read := reads.append (.cons parted (reads'.step closed))
      exact completes_afterPrimary (.cons rfl read)

theorem Operations.completes : ∀ {level : Level} (operations : Operations level) {s : ParseState}
    {e left : Expr} {below stack : List Pending}, s.Settled e below →
    Pending.applyBinary level.rank e below = (left, stack) → Loose level.rank stack →
    Completes s operations.tokens level.rank (operations.onto left) stack
  | _, .none, s, e, _, below, _, settled, applied, _ =>
      ⟨s, e, below, .nil s, settled, applied⟩
  | level, .more op ofLevel offset operand others, s, e, left, below, stack, settled, applied,
      loose => by
      have precedence := Level.mem_operators_iff.mp ofLevel
      have stepped : s.step ⟨op.token, offset⟩ = .ok (.operand false (.binary left op :: stack)) := by
        rw [settled.step (by cases op <;> simp [BinaryOp.token])
          (by cases op <;> simp [BinaryOp.token])]
        simp only [afterOperand, binaryOp?_eq_some_iff.mpr rfl, precedence, applied]
      have begins : Loose (level.rank + 1) (.binary left op :: stack) :=
        Nat.lt_of_le_of_lt (Nat.le_of_eq precedence) (Nat.lt_succ_self level.rank)
      obtain ⟨s', e', below', reads', settled', applied'⟩ :=
        operand.completes false _ (Level.operand_beginsOn begins)
      rw [begins.applyUnary, Level.rank_operand] at applied'
      -- The next operator of the level completes this one first: it associates to the left.
      have taken : Pending.applyBinary level.rank e' below' =
          (.binary op left operand.tree, stack) := by
        rw [← Pending.applyBinary_applyBinary (Nat.le_succ level.rank), applied']
        simp only [Pending.applyBinary, precedence, Nat.le_refl, if_true]
        exact loose.applyBinary
      obtain ⟨s'', e'', below'', reads'', ended⟩ := others.completes settled' taken loose
      exact ⟨s'', e'', below'', .cons stepped (reads'.append reads''), ended⟩

theorem Items.completes : ∀ (items : Items) {frame : List Expr → Pending}, Gathers frame →
    ∀ (opened : Bool) (reversed : List Expr) (stack : List Pending),
    ∃ s before last, (ParseState.operand opened (frame reversed :: stack)).Reads items.tokens s ∧
      (∀ t : PlacedToken, t.token ≠ .dot → t.token ≠ .leftParen → t.token.binaryOp? = none →
        s.step t = delimit last (frame before :: stack) t) ∧
      (last :: before).reverse = reversed.reverse ++ items.trees
  | .single item, frame, gathers, opened, reversed, stack => by
      obtain ⟨s, e, below, reads, settled, applied⟩ :=
        item.completes opened (frame reversed :: stack) (gathers.loose reversed)
      rw [(gathers.loose (n := 0) reversed).applyUnary] at applied
      refine ⟨s, reversed, item.tree, reads, fun t => settled.step_delimit applied
        (gathers.loose reversed), ?_⟩
      simp [Items.trees]
  | .more item comma others, frame, gathers, opened, reversed, stack => by
      obtain ⟨s, e, below, reads, settled, applied⟩ :=
        item.completes opened (frame reversed :: stack) (gathers.loose reversed)
      rw [(gathers.loose (n := 0) reversed).applyUnary] at applied
      have parted : s.step ⟨.comma, comma⟩ =
          .ok (.operand false (frame (item.tree :: reversed) :: stack)) := by
        rw [settled.step_delimit applied (gathers.loose reversed) (by simp) (by simp) rfl]
        cases gathers <;> rfl
      obtain ⟨s', before, last, reads', meets, all⟩ :=
        others.completes gathers false (item.tree :: reversed) stack
      refine ⟨s', before, last, reads.append (.cons parted reads'), meets, ?_⟩
      rw [all]
      simp [Items.trees]

end

/-- The parser builds the tree of a derivation. -/
theorem Derivation.run (d : Derivation whole) (offset : Nat) :
    (ParseState.operand false []).run (d.tokens ++ [⟨.endMark, offset⟩]) = .ok d.tree := by
  obtain ⟨s, e, below, reads, settled, applied⟩ := d.completes false [] trivial
  have ended : s.step ⟨.endMark, offset⟩ = .ok (.done d.tree) :=
    settled.step_delimit applied trivial (by simp) (by simp) rfl
  rw [reads.run, ParseState.run, ended]
  rfl

/-! ## Expressions that can be derived -/

/-- A symbol derives these tokens, and the expression is what they mean. -/
def Derives (s : Symbol) (tokens : List PlacedToken) (e : Expr) : Prop :=
  ∃ d : Derivation s, d.tokens = tokens ∧ d.tree = e

def DerivesItems (tokens : List PlacedToken) (es : List Expr) : Prop :=
  ∃ items : Items, items.tokens = tokens ∧ items.trees = es

variable {s : Symbol} {level : Level} {op : BinaryOp} {tokens tokens' : List PlacedToken}
  {e left right : Expr} {es : List Expr} {stack : List Pending}

theorem Symbol.rank_inj {s s' : Symbol} (same : s.rank = s'.rank) : s = s' := by
  have levels {level level' : Level} (same : level.rank = level'.rank) : level = level' := by
    cases level <;> cases level' <;> first | rfl | simp [Level.rank] at same
  have bound (level : Level) : level.rank ≤ 5 := by cases level <;> decide
  cases s with
  | binary level => cases s' with
    | binary level' => rw [levels same]
    | _ => have := bound level; simp only [Symbol.rank] at same; omega
  | _ => cases s' with
    | binary level' => have := bound level'; simp only [Symbol.rank] at same; omega
    | _ => first | rfl | simp [Symbol.rank] at same

theorem Symbol.rank_le (s : Symbol) : s.rank ≤ 7 := by
  cases s with
  | binary level => cases level <;> decide
  | _ => decide

theorem Symbol.one_le_rank (s : Symbol) : 1 ≤ s.rank := by
  cases s with
  | binary level => cases level <;> decide
  | _ => decide

theorem exists_level (op : BinaryOp) : ∃ level : Level, op ∈ level.operators := by
  cases op
  case or => exact ⟨.or, by decide⟩
  case and => exact ⟨.and, by decide⟩
  case add | sub => exact ⟨.sum, by decide⟩
  case mul | div | rem => exact ⟨.product, by decide⟩
  all_goals exact ⟨.comparison, by decide⟩

/-- One more operation at the end. -/
def Operations.snoc : {level : Level} → Operations level → (op : BinaryOp) →
    op ∈ level.operators → Nat → Derivation level.operand → Operations level
  | _, .none, op, ofLevel, offset, right => .more op ofLevel offset right .none
  | _, .more op' ofLevel' offset' right' others, op, ofLevel, offset, right =>
    .more op' ofLevel' offset' right' (others.snoc op ofLevel offset right)

theorem Operations.tokens_snoc : {level : Level} → (operations : Operations level) →
    (op : BinaryOp) → (ofLevel : op ∈ level.operators) → (offset : Nat) →
    (right : Derivation level.operand) →
    (operations.snoc op ofLevel offset right).tokens =
      operations.tokens ++ ⟨op.token, offset⟩ :: right.tokens
  | _, .none, _, _, _, _ => by simp [snoc, Operations.tokens]
  | _, .more _ _ _ _ others, _, _, _, _ => by simp [snoc, Operations.tokens, others.tokens_snoc]

theorem Operations.onto_snoc : {level : Level} → (operations : Operations level) →
    (op : BinaryOp) → (ofLevel : op ∈ level.operators) → (offset : Nat) →
    (right : Derivation level.operand) → (left : Expr) →
    (operations.snoc op ofLevel offset right).onto left =
      .binary op (operations.onto left) right.tree
  | _, .none, _, _, _, _, _ => rfl
  | _, .more _ _ _ _ others, op, ofLevel, offset, right, _ =>
      others.onto_snoc op ofLevel offset right _

namespace Derives

theorem chain (derives : Derives level.operand tokens e) : Derives (.binary level) tokens e := by
  obtain ⟨d, rfl, rfl⟩ := derives
  exact ⟨.chain d .none, List.append_nil _, rfl⟩

theorem plain (derives : Derives .primary tokens e) : Derives .unary tokens e := by
  obtain ⟨d, rfl, rfl⟩ := derives
  exact ⟨.plain d, rfl, rfl⟩

theorem looser (derives : Derives s tokens e) (s' : Symbol) (le : s'.rank ≤ s.rank) :
    Derives s' tokens e := by
  obtain ⟨gap, ranks⟩ := Nat.exists_eq_add_of_le le
  clear le
  induction gap generalizing s' with
  | zero =>
      rw [Symbol.rank_inj ranks] at derives
      exact derives
  | succ gap ih => cases s' with
    | binary level =>
        refine .chain (ih level.operand ?_)
        rw [ranks, Level.rank_operand]
        exact (Nat.succ_add_eq_add_succ level.rank gap).symm
    | unary => exact .plain (ih .primary (ranks.trans (Nat.succ_add_eq_add_succ 6 gap).symm))
    | primary =>
        have ranks : s.rank = 7 + (gap + 1) := ranks
        have bound := s.rank_le
        omega

theorem prefixed (derives : Derives .unary tokens e) (op : UnaryOp) (offset : Nat) :
    Derives .unary (⟨op.token, offset⟩ :: tokens) (.unary op e) := by
  obtain ⟨d, rfl, rfl⟩ := derives
  exact ⟨.prefixed op offset d, rfl, rfl⟩

theorem operation (derives : Derives (.binary level) tokens left) (ofLevel : op ∈ level.operators)
    (offset : Nat) (derives' : Derives level.operand tokens' right) :
    Derives (.binary level) (tokens ++ ⟨op.token, offset⟩ :: tokens') (.binary op left right) := by
  obtain ⟨d, rfl, rfl⟩ := derives
  obtain ⟨d', rfl, rfl⟩ := derives'
  cases d with
  | chain first others =>
      refine ⟨.chain first (others.snoc op ofLevel offset d'), ?_, ?_⟩
      · simp [Derivation.tokens, others.tokens_snoc]
      · simp [Derivation.tree, others.onto_snoc]

end Derives

theorem DerivesItems.single (derives : Derives whole tokens e) : DerivesItems tokens [e] := by
  obtain ⟨d, rfl, rfl⟩ := derives
  exact ⟨.single d, rfl, rfl⟩

theorem DerivesItems.more (derives : Derives whole tokens e) (comma : Nat)
    (others : DerivesItems tokens' es) :
    DerivesItems (tokens ++ ⟨.comma, comma⟩ :: tokens') (e :: es) := by
  obtain ⟨d, rfl, rfl⟩ := derives
  obtain ⟨items, rfl, rfl⟩ := others
  exact ⟨.more d comma items, rfl, rfl⟩

theorem DerivesItems.call (items : DerivesItems tokens es) (name : String)
    (offset opening closing : Nat) : Derives .primary (⟨.identifier name, offset⟩ ::
      ⟨.leftParen, opening⟩ :: (tokens ++ [⟨.rightParen, closing⟩])) (.call name es offset) := by
  obtain ⟨items, rfl, rfl⟩ := items
  exact ⟨.call name offset opening items closing, rfl, rfl⟩

theorem DerivesItems.tuple (items : DerivesItems tokens es) (several : 1 < es.length)
    (opening closing : Nat) : Derives .primary
      (⟨.leftParen, opening⟩ :: (tokens ++ [⟨.rightParen, closing⟩])) (.tuple es) := by
  obtain ⟨items, rfl, rfl⟩ := items
  cases items with
  | single item => simp [Items.trees] at several
  | more first comma others =>
      exact ⟨.tuple opening first comma others closing, by simp [Derivation.tokens, Items.tokens],
        rfl⟩

/-! ## What a stack stands for -/

/-- Expressions that have been read with a comma behind each, the last one first. -/
inductive Gathered : List Expr → List PlacedToken → Prop where
  | none : Gathered [] []
  | more {reversed : List Expr} {e : Expr} {tokens tokens' : List PlacedToken}
      (gathered : Gathered reversed tokens) (derives : Derives whole tokens' e) (comma : Nat) :
      Gathered (e :: reversed) (tokens ++ (tokens' ++ [⟨.comma, comma⟩]))

theorem Gathered.items {reversed : List Expr} (gathered : Gathered reversed tokens)
    (items : DerivesItems tokens' es) : DerivesItems (tokens ++ tokens') (reversed.reverse ++ es) := by
  induction gathered generalizing tokens' es with
  | none => exact items
  | more _ derives comma ih =>
      have all := ih (.more derives comma items)
      simpa using all

/-- The tokens that have been read for what is open. The left operand of an operator binds at least
    as tightly as the operator, and what is open below it does not. -/
inductive Stands : List Pending → List PlacedToken → Prop where
  | bottom : Stands [] []
  | unary {stack : List Pending} {tokens : List PlacedToken} (below : Stands stack tokens)
      (op : UnaryOp) (offset : Nat) : Stands (.unary op :: stack) (tokens ++ [⟨op.token, offset⟩])
  | binary {stack : List Pending} {tokens tokens' : List PlacedToken} {level : Level}
      {left : Expr} {op : BinaryOp} (below : Stands stack tokens)
      (derives : Derives (.binary level) tokens' left) (ofLevel : op ∈ level.operators)
      (loose : Loose level.rank stack) (offset : Nat) :
      Stands (.binary left op :: stack) (tokens ++ (tokens' ++ [⟨op.token, offset⟩]))
  | group {stack : List Pending} {tokens : List PlacedToken} (below : Stands stack tokens)
      (opening : Nat) : Stands (.group :: stack) (tokens ++ [⟨.leftParen, opening⟩])
  | tuple {stack : List Pending} {tokens tokens' : List PlacedToken} {e : Expr}
      {reversed : List Expr} (below : Stands stack tokens) (opening : Nat)
      (gathered : Gathered (e :: reversed) tokens') :
      Stands (.tuple (e :: reversed) :: stack) (tokens ++ ⟨.leftParen, opening⟩ :: tokens')
  | call {stack : List Pending} {tokens tokens' : List PlacedToken} {reversed : List Expr}
      (below : Stands stack tokens) (name : String) (offset opening : Nat)
      (gathered : Gathered reversed tokens') :
      Stands (.call name offset reversed :: stack)
        (tokens ++ ⟨.identifier name, offset⟩ :: ⟨.leftParen, opening⟩ :: tokens')

/-- The tokens that have been read in a state. -/
inductive StandsFor : ParseState → List PlacedToken → Prop where
  | operand {stack : List Pending} {tokens : List PlacedToken} (opened : Bool)
      (below : Stands stack tokens) : StandsFor (.operand opened stack) tokens
  | named {stack : List Pending} {tokens : List PlacedToken} (below : Stands stack tokens)
      (base : String) (offset : Nat) (fields : List Selection) :
      StandsFor (.named base (fields.map Selection.field) offset stack)
        (tokens ++ (Derivation.name base offset fields).tokens)
  | point {stack : List Pending} {tokens : List PlacedToken} (below : Stands stack tokens)
      (base : String) (offset : Nat) (fields : List Selection) (point : Nat) :
      StandsFor (.point base (fields.map Selection.field) offset stack)
        (tokens ++ ((Derivation.name base offset fields).tokens ++ [⟨.dot, point⟩]))
  | complete {stack : List Pending} {tokens tokens' : List PlacedToken} {e : Expr}
      (below : Stands stack tokens) (derives : Derives .unary tokens' e) (loose : Loose 6 stack) :
      StandsFor (.complete e stack) (tokens ++ tokens')
  | done {tokens : List PlacedToken} {e : Expr} (derives : Derives whole tokens e) (offset : Nat) :
      StandsFor (.done e) (tokens ++ [⟨.endMark, offset⟩])

theorem Stands.applyUnary (below : Stands stack tokens) (derives : Derives .unary tokens' e) :
    StandsFor (.complete (Pending.applyUnary e stack).1 (Pending.applyUnary e stack).2)
      (tokens ++ tokens') := by
  induction below generalizing e tokens' with
  | unary _ op offset ih =>
      rw [List.append_assoc]
      exact ih (derives.prefixed op offset)
  | binary below derives' ofLevel loose offset =>
      exact .complete (.binary below derives' ofLevel loose offset) derives
        (Nat.lt_succ_of_le (BinaryOp.precedence_le _))
  | bottom => exact .complete .bottom derives trivial
  | group below opening => exact .complete (.group below opening) derives trivial
  | tuple below opening gathered => exact .complete (.tuple below opening gathered) derives trivial
  | call below name offset opening gathered =>
      exact .complete (.call below name offset opening gathered) derives trivial

theorem Stands.afterPrimary (below : Stands stack tokens) (derives : Derives .primary tokens' e) :
    StandsFor (afterPrimary e stack) (tokens ++ tokens') := below.applyUnary derives.plain

/-- To complete operators keeps what the stack and the expression on it stand for. -/
theorem Stands.applyBinary {n : Nat} (below : Stands stack tokens) (derives : Derives s tokens' e)
    (loose : Loose s.rank stack) (le : n ≤ s.rank) :
    ∃ s' before behind, Stands (Pending.applyBinary n e stack).2 before ∧
      Derives s' behind (Pending.applyBinary n e stack).1 ∧ n ≤ s'.rank ∧
      Loose n (Pending.applyBinary n e stack).2 ∧ before ++ behind = tokens ++ tokens' := by
  induction below generalizing s e tokens' with
  | unary => exact loose.elim
  | @binary _ _ _ level _ op below derives' ofLevel loose' offset ih =>
      have precedence := Level.mem_operators_iff.mp ofLevel
      by_cases tight : n ≤ op.precedence
      -- The operator takes the expression, and both become a left operand for what is below.
      · have operand : level.operand.rank ≤ s.rank := by
          rw [Level.rank_operand, ← precedence]
          exact loose
        simp only [Pending.applyBinary, if_pos tight]
        simpa using ih (derives'.operation ofLevel offset (derives.looser level.operand operand))
          loose' (Nat.le_trans tight (Nat.le_of_eq precedence))
      · simp only [Pending.applyBinary, if_neg tight]
        exact ⟨s, _, tokens', .binary below derives' ofLevel loose' offset, derives, le,
          Nat.lt_of_not_le tight, rfl⟩
  | bottom => exact ⟨s, _, tokens', .bottom, derives, le, trivial, rfl⟩
  | group below opening => exact ⟨s, _, tokens', .group below opening, derives, le, trivial, rfl⟩
  | tuple below opening gathered =>
      exact ⟨s, _, tokens', .tuple below opening gathered, derives, le, trivial, rfl⟩
  | call below name offset opening gathered =>
      exact ⟨s, _, tokens', .call below name offset opening gathered, derives, le, trivial, rfl⟩

variable {t : PlacedToken} {next : ParseState}

theorem Stands.delimit (below : Stands stack tokens) (derives : Derives whole tokens' e)
    (delimited : delimit e stack t = .ok next) : StandsFor next (tokens ++ (tokens' ++ [t])) := by
  obtain ⟨token, offset⟩ := t
  unfold ParseState.delimit at delimited
  split at delimited
  case h_8 => simp [ParseState.unexpected] at delimited
  all_goals
    rename_i same
    obtain rfl := same
    rw [← Except.ok.inj delimited]
  case h_1 =>
    cases below with
    | group below opening =>
        rw [List.append_assoc]
        exact .operand false (below.tuple opening (.more .none derives offset))
  case h_2 =>
    cases below with
    | tuple below opening gathered =>
        rw [List.append_assoc]
        exact .operand false (below.tuple opening (gathered.more derives offset))
  case h_3 =>
    cases below with
    | call below name begun opening gathered =>
        rw [List.append_assoc]
        exact .operand false (below.call _ _ opening (gathered.more derives offset))
  case h_4 =>
    cases below with
    | group below opening =>
        obtain ⟨d, rfl, rfl⟩ := derives
        rw [List.append_assoc]
        exact below.afterPrimary ⟨.group opening d offset, rfl, rfl⟩
  case h_5 =>
    cases below with
    | tuple below opening gathered =>
        have items := gathered.items (.single derives)
        simpa using below.afterPrimary (items.tuple (by simp) opening offset)
  case h_6 =>
    cases below with
    | call below name begun opening gathered =>
        have items := gathered.items (.single derives)
        simpa using below.afterPrimary (items.call _ _ opening offset)
  case h_7 =>
    cases below
    exact .done derives offset

theorem Stands.afterOperand (below : Stands stack tokens) (derives : Derives .unary tokens' e)
    (loose : Loose 6 stack) (stepped : afterOperand e stack t = .ok next) :
    StandsFor next (tokens ++ (tokens' ++ [t])) := by
  rw [← List.append_assoc]
  unfold ParseState.afterOperand at stepped
  split at stepped
  · rename_i op found
    obtain ⟨token, offset⟩ := t
    obtain rfl := binaryOp?_eq_some_iff.mp found
    obtain ⟨level, ofLevel⟩ := exists_level op
    have precedence := Level.mem_operators_iff.mp ofLevel
    obtain ⟨s, before, behind, below', derives', le, loose', all⟩ :=
      below.applyBinary derives loose (Nat.le_succ_of_le op.precedence_le)
    rw [← all, ← Except.ok.inj stepped, List.append_assoc]
    exact .operand false (.binary below'
      (derives'.looser (.binary level) (Nat.le_trans (Nat.le_of_eq precedence.symm) le)) ofLevel
      (loose'.mono (Nat.le_of_eq precedence)) offset)
  · obtain ⟨s, before, behind, below', derives', le, _, all⟩ :=
      below.applyBinary derives loose (Nat.zero_le 6)
    rw [← all, List.append_assoc]
    exact below'.delimit (derives'.looser whole s.one_le_rank) stepped

theorem Stands.closeEmpty (below : Stands stack tokens) (closed : t.token = .rightParen)
    (stepped : ParseState.closeEmpty t stack = .ok next) : StandsFor next (tokens ++ [t]) := by
  obtain ⟨token, offset⟩ := t
  obtain rfl := closed
  unfold ParseState.closeEmpty at stepped
  split at stepped
  · cases below with
    | group below opening =>
        rw [← Except.ok.inj stepped, List.append_assoc]
        exact below.afterPrimary ⟨.nothing opening offset, rfl, rfl⟩
  · rename_i name begun _
    cases below with
    | call below _ _ opening gathered =>
        cases gathered
        rw [← Except.ok.inj stepped, List.append_assoc]
        exact below.afterPrimary ⟨.bareCall name begun opening offset, rfl, rfl⟩
  · simp [ParseState.unexpected] at stepped

theorem Stands.beginOperand {opened : Bool} (below : Stands stack tokens)
    (stepped : ParseState.beginOperand opened stack t = .ok next) :
    StandsFor next (tokens ++ [t]) := by
  unfold ParseState.beginOperand at stepped
  split at stepped
  · rename_i value _ found
    obtain ⟨token, offset⟩ := t
    obtain ⟨literal, rfl, rfl⟩ := literal?_eq_some_iff.mp found
    rw [← Except.ok.inj stepped]
    exact below.afterPrimary ⟨.literal literal offset, rfl, rfl⟩
  · rename_i op _ found
    obtain ⟨token, offset⟩ := t
    obtain rfl := unaryOp?_eq_some_iff.mp found
    rw [← Except.ok.inj stepped]
    exact .operand false (below.unary op offset)
  · obtain ⟨token, offset⟩ := t
    split at stepped
    · rename_i name same
      obtain rfl : token = .identifier name := same
      rw [← Except.ok.inj stepped]
      exact .named below name offset []
    · rename_i same
      obtain rfl : token = .leftParen := same
      rw [← Except.ok.inj stepped]
      exact .operand true (below.group offset)
    · rename_i same
      split at stepped
      · exact below.closeEmpty same stepped
      · simp [ParseState.unexpected] at stepped
    · simp [ParseState.unexpected] at stepped

/-- What has been read so far goes on standing for derivations. -/
theorem StandsFor.step {s : ParseState} (stands : StandsFor s tokens)
    (stepped : s.step t = .ok next) : StandsFor next (tokens ++ [t]) := by
  cases stands with
  | operand opened below => exact below.beginOperand stepped
  | complete below derives loose =>
      rw [List.append_assoc]
      exact below.afterOperand derives loose stepped
  | named below base offset fields =>
      obtain ⟨token, at'⟩ := t
      simp only [ParseState.step] at stepped
      split at stepped
      · rw [← Except.ok.inj stepped, List.append_assoc]
        exact .point below base offset fields at'
      · split at stepped
        · rename_i bare
          obtain rfl : fields = [] := by simpa using bare
          rw [← Except.ok.inj stepped, List.append_assoc]
          exact .operand true (.call below base offset at' .none)
        · simp [ParseState.unexpected] at stepped
      · have settled := below.applyUnary (Derives.plain ⟨.name base offset fields, rfl, rfl⟩)
        rw [← ofName_selections] at settled
        generalize Pending.applyUnary (ofName base (fields.map Selection.field) offset) _ = ended
          at settled stepped
        generalize _ ++ (Derivation.name base offset fields).tokens = read at settled ⊢
        cases settled with
        | complete below derives loose =>
            rw [List.append_assoc]
            exact below.afterOperand derives loose stepped
  | point below base offset fields point =>
      obtain ⟨token, at'⟩ := t
      simp only [ParseState.step] at stepped
      split at stepped
      · rename_i field
        rw [← Except.ok.inj stepped]
        have read := StandsFor.named below base offset (fields ++ [⟨point, field, at'⟩])
        simpa [Derivation.tokens, Selection.tokens] using read
      · simp [ParseState.unexpected] at stepped
  | done derives offset => simp [ParseState.step, ParseState.unexpected] at stepped

theorem StandsFor.run {s : ParseState} (stands : StandsFor s tokens) {rest : List PlacedToken}
    (parsed : s.run rest = .ok e) :
    ∃ offset, ∃ d : Derivation whole, tokens ++ rest = d.tokens ++ [⟨.endMark, offset⟩] ∧
      d.tree = e := by
  induction rest generalizing s tokens with
  | nil =>
      cases stands with
      | done derives offset =>
          obtain ⟨d, rfl, rfl⟩ := derives
          exact ⟨offset, d, List.append_nil _, Except.ok.inj parsed⟩
      | _ => simp [ParseState.run] at parsed
  | cons t rest ih =>
      obtain ⟨next, stepped, others⟩ := Except.bind_eq_ok_iff.mp parsed
      simpa using ih (stands.step stepped) others

/-- The parser accepts what can be derived, with the end behind it. -/
theorem run_eq_ok_iff {tokens : List PlacedToken} :
    (ParseState.operand false []).run tokens = .ok e ↔
      ∃ offset, ∃ d : Derivation whole, tokens = d.tokens ++ [⟨.endMark, offset⟩] ∧ d.tree = e := by
  constructor
  · intro parsed
    exact (StandsFor.operand false .bottom).run parsed
  · rintro ⟨offset, d, rfl, rfl⟩
    exact d.run offset

/-! ## Texts -/

theorem exists_endMark_of_scan {s : ScanState} {offset : Nat} {text : List Char}
    {tokens : List PlacedToken} (scanned : s.scan offset text = .ok tokens) :
    ∃ front last, tokens = front ++ [⟨.endMark, last⟩] := by
  induction text generalizing s offset tokens with
  | nil =>
      obtain ⟨last, _, all⟩ := Except.bind_eq_ok_iff.mp scanned
      exact ⟨last, offset, (Except.ok.inj all).symm⟩
  | cons c rest ih =>
      obtain ⟨⟨done, next⟩, _, others⟩ := Except.bind_eq_ok_iff.mp scanned
      obtain ⟨others, scanned, all⟩ := Except.bind_eq_ok_iff.mp others
      obtain ⟨front, last, rfl⟩ := ih scanned
      exact ⟨done ++ front, last, by rw [← Except.ok.inj all, List.append_assoc]⟩

/-- A text whose tokens can be read is an expression if and only if the grammar derives the tokens
    before the end. There is only one derivation of them, and the expression is its tree. -/
theorem parse_iff_derivation (text : String) {tokens : List PlacedToken}
    (tokenized : tokenize text = .ok tokens) :
    ((∃ e, Expr.parse text = .ok e) ↔ ∃ d : Derivation whole, d.tokens = tokens.dropLast) ∧
      ∀ d : Derivation whole, d.tokens = tokens.dropLast →
        Expr.parse text = .ok d.tree ∧
          ∀ d' : Derivation whole, d'.tokens = tokens.dropLast → d' = d := by
  have parse : Expr.parse text = (ParseState.operand false []).run tokens := by
    simp only [Expr.parse, tokenized]
    rfl
  obtain ⟨front, last, rfl⟩ := exists_endMark_of_scan tokenized
  rw [List.dropLast_concat, parse]
  refine ⟨⟨?_, ?_⟩, ?_⟩
  · rintro ⟨e, parsed⟩
    obtain ⟨_, d, all, _⟩ := run_eq_ok_iff.mp parsed
    exact ⟨d, (List.append_inj_left' all rfl).symm⟩
  · rintro ⟨d, rfl⟩
    exact ⟨d.tree, d.run last⟩
  · rintro d rfl
    exact ⟨d.run last, fun d' same => Derivation.tokens_inj same⟩

theorem parse_iff_derivation_differences :
    (∃ d : Derivation whole,
      d.tokens = [⟨.int 1, 0⟩, ⟨.minus, 2⟩, ⟨.minus, 4⟩, ⟨.int 2, 5⟩, ⟨.minus, 7⟩,
        ⟨.identifier "x", 9⟩, ⟨.dot, 10⟩, ⟨.identifier "y", 11⟩] ∧
      d.tree = .binary .sub
        (.binary .sub (.literal (.int 1)) (.unary .neg (.literal (.int 2)))) (.field "x" ["y"] 9)) ∧
    ¬ ∃ d : Derivation whole, d.tokens = [⟨.identifier "x", 0⟩, ⟨.identifier "y", 2⟩] := by
  have accepted := parse_iff_derivation "1 - -2 - x.y" rfl
  have refused := parse_iff_derivation "x y" rfl
  constructor
  · obtain ⟨d, tokens⟩ := accepted.1.mp ⟨_, rfl⟩
    exact ⟨d, tokens, (Except.ok.inj (accepted.2 d tokens).1).symm⟩
  · intro derived
    obtain ⟨e, parsed⟩ := refused.1.mpr derived
    have failed : (Expr.parse "x y").isOk = false := rfl
    rw [parsed] at failed
    contradiction

end Grammar

end AccessControl
