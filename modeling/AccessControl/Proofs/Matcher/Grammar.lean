import AccessControl.Matcher.Parse

/-! # The grammar of matcher expressions

    or         = and {'||' and}
    and        = comparison {'&&' comparison}
    comparison = sum {('==' | '!=' | '<' | '<=' | '>' | '>=' | 'in') sum}
    sum        = product {('+' | '-') product}
    product    = unary {('*' | '/' | '%') unary}
    unary      = ('!' | '-') unary | primary
    primary    = literal | name {'.' name} | name '(' [or {',' or}] ')'
               | '(' ')' | '(' or ')' | '(' or ',' or {',' or} ')'

A derivation is a tree with one constructor for each production. It says which tokens it derives and
which expression they mean; repetitions associate to the left. No tokens have two derivations.
-/

namespace AccessControl

def BinaryOp.token : BinaryOp → Token
  | .or => .or
  | .and => .and
  | .equal => .equal
  | .notEqual => .notEqual
  | .less => .less
  | .lessEqual => .lessEqual
  | .greater => .greater
  | .greaterEqual => .greaterEqual
  | .in => .inWord
  | .add => .plus
  | .sub => .minus
  | .mul => .asterisk
  | .div => .slash
  | .rem => .percent

def UnaryOp.token : UnaryOp → Token
  | .not => .not
  | .neg => .minus

namespace Grammar

/-- What a token means on its own. -/
inductive Literal where
  | int (n : Int64)
  | float (x : Binary64)
  | str (text : String)
  | bool (b : Bool)

def Literal.token : Literal → Token
  | .int n => .int n
  | .float x => .float x
  | .str text => .str text
  | .bool true => .trueWord
  | .bool false => .falseWord

def Literal.value : Literal → Value
  | .int n => .int n
  | .float x => .float x
  | .str text => .str text
  | .bool b => .bool b

/-- The levels of binary operators, from the loosest to the tightest. -/
inductive Level where
  | or
  | and
  | comparison
  | sum
  | product

inductive Symbol where
  | binary (level : Level)
  | unary
  | primary

def Level.operators : Level → List BinaryOp
  | .or => [.or]
  | .and => [.and]
  | .comparison => [.equal, .notEqual, .less, .lessEqual, .greater, .greaterEqual, .in]
  | .sum => [.add, .sub]
  | .product => [.mul, .div, .rem]

/-- The operands of the operators of a level. -/
def Level.operand : Level → Symbol
  | .or => .binary .and
  | .and => .binary .comparison
  | .comparison => .binary .sum
  | .sum => .binary .product
  | .product => .unary

/-- The symbol of whole expressions. -/
abbrev whole : Symbol := .binary .or

/-- A point and the name behind it. -/
structure Selection where
  point : Nat
  field : String
  offset : Nat

mutual

/-- A derivation of tokens from a symbol. Tokens are given with their offsets. -/
inductive Derivation : Symbol → Type where
  | chain {level : Level} (first : Derivation level.operand) (others : Operations level) :
      Derivation (.binary level)
  | prefixed (op : UnaryOp) (offset : Nat) (operand : Derivation .unary) : Derivation .unary
  | plain (primary : Derivation .primary) : Derivation .unary
  | literal (literal : Literal) (offset : Nat) : Derivation .primary
  | name (base : String) (offset : Nat) (fields : List Selection) : Derivation .primary
  | bareCall (name : String) (offset opening closing : Nat) : Derivation .primary
  | call (name : String) (offset opening : Nat) (args : Items) (closing : Nat) :
      Derivation .primary
  | nothing (opening closing : Nat) : Derivation .primary
  | group (opening : Nat) (inner : Derivation (.binary .or)) (closing : Nat) : Derivation .primary
  | tuple (opening : Nat) (first : Derivation (.binary .or)) (comma : Nat) (others : Items)
      (closing : Nat) : Derivation .primary

/-- Operators of a level with their right operands. -/
inductive Operations : Level → Type where
  | none {level : Level} : Operations level
  | more {level : Level} (op : BinaryOp) (ofLevel : op ∈ level.operators) (offset : Nat)
      (operand : Derivation level.operand) (others : Operations level) : Operations level

/-- Expressions with commas between them. -/
inductive Items : Type where
  | single (item : Derivation (.binary .or)) : Items
  | more (item : Derivation (.binary .or)) (comma : Nat) (others : Items) : Items

end

def Selection.tokens (selection : Selection) : List PlacedToken :=
  [⟨.dot, selection.point⟩, ⟨.identifier selection.field, selection.offset⟩]

mutual

def Derivation.tokens : {s : Symbol} → Derivation s → List PlacedToken
  | _, .chain first others => first.tokens ++ others.tokens
  | _, .prefixed op offset operand => ⟨op.token, offset⟩ :: operand.tokens
  | _, .plain primary => primary.tokens
  | _, .literal literal offset => [⟨literal.token, offset⟩]
  | _, .name base offset fields =>
    ⟨.identifier base, offset⟩ :: fields.flatMap Selection.tokens
  | _, .bareCall name offset opening closing =>
    [⟨.identifier name, offset⟩, ⟨.leftParen, opening⟩, ⟨.rightParen, closing⟩]
  | _, .call name offset opening args closing =>
    ⟨.identifier name, offset⟩ :: ⟨.leftParen, opening⟩ ::
      (args.tokens ++ [⟨.rightParen, closing⟩])
  | _, .nothing opening closing => [⟨.leftParen, opening⟩, ⟨.rightParen, closing⟩]
  | _, .group opening inner closing =>
    ⟨.leftParen, opening⟩ :: (inner.tokens ++ [⟨.rightParen, closing⟩])
  | _, .tuple opening first comma others closing =>
    ⟨.leftParen, opening⟩ ::
      (first.tokens ++ ⟨.comma, comma⟩ :: (others.tokens ++ [⟨.rightParen, closing⟩]))

def Operations.tokens : {level : Level} → Operations level → List PlacedToken
  | _, .none => []
  | _, .more op _ offset operand others =>
    ⟨op.token, offset⟩ :: (operand.tokens ++ others.tokens)

def Items.tokens : Items → List PlacedToken
  | .single item => item.tokens
  | .more item comma others => item.tokens ++ ⟨.comma, comma⟩ :: others.tokens

end

mutual

/-- The expression that is derived. A group leaves no trace in it. -/
def Derivation.tree : {s : Symbol} → Derivation s → Expr
  | _, .chain first others => others.onto first.tree
  | _, .prefixed op _ operand => .unary op operand.tree
  | _, .plain primary => primary.tree
  | _, .literal literal _ => .literal literal.value
  | _, .name base offset [] => .identifier base offset
  | _, .name base offset (selection :: others) =>
    .field base ((selection :: others).map Selection.field) offset
  | _, .bareCall name offset _ _ => .call name [] offset
  | _, .call name offset _ args _ => .call name args.trees offset
  | _, .nothing _ _ => .tuple []
  | _, .group _ inner _ => inner.tree
  | _, .tuple _ first _ others _ => .tuple (first.tree :: others.trees)

/-- Operations on what stands before them, which is the left operand of the first. -/
def Operations.onto : {level : Level} → Operations level → Expr → Expr
  | _, .none, left => left
  | _, .more op _ _ operand others, left => others.onto (.binary op left operand.tree)

def Items.trees : Items → List Expr
  | .single item => [item.tree]
  | .more item _ others => item.tree :: others.trees

end

/-! ## Ranks -/

def Level.rank : Level → Nat
  | .or => 1
  | .and => 2
  | .comparison => 3
  | .sum => 4
  | .product => 5

/-- How tightly the tokens of a symbol hold together. -/
def Symbol.rank : Symbol → Nat
  | .binary level => level.rank
  | .unary => 6
  | .primary => 7

@[simp]
theorem Level.rank_operand (level : Level) : level.operand.rank = level.rank + 1 := by
  cases level <;> rfl

theorem Level.mem_operators_iff {level : Level} {op : BinaryOp} :
    op ∈ level.operators ↔ op.precedence = level.rank := by
  cases level <;> cases op <;> decide

/-! ## Tokens of operators and literals -/

theorem binaryOp?_eq_some_iff {token : Token} {op : BinaryOp} :
    token.binaryOp? = some op ↔ token = op.token := by
  refine ⟨fun found => ?_, fun same => ?_⟩
  · cases token <;> simp only [Token.binaryOp?, reduceCtorEq, Option.some.injEq] at found <;>
      (subst found; rfl)
  · subst same
    cases op <;> rfl

theorem unaryOp?_eq_some_iff {token : Token} {op : UnaryOp} :
    token.unaryOp? = some op ↔ token = op.token := by
  refine ⟨fun found => ?_, fun same => ?_⟩
  · cases token <;> simp only [Token.unaryOp?, reduceCtorEq, Option.some.injEq] at found <;>
      (subst found; rfl)
  · subst same
    cases op <;> rfl

theorem literal?_eq_some_iff {token : Token} {value : Value} :
    token.literal? = some value ↔ ∃ literal : Literal, literal.token = token ∧
      literal.value = value := by
  refine ⟨fun found => ?_, ?_⟩
  · cases token with
    | int n => exact ⟨.int n, rfl, Option.some.inj found⟩
    | float x => exact ⟨.float x, rfl, Option.some.inj found⟩
    | str text => exact ⟨.str text, rfl, Option.some.inj found⟩
    | trueWord => exact ⟨.bool true, rfl, Option.some.inj found⟩
    | falseWord => exact ⟨.bool false, rfl, Option.some.inj found⟩
    | _ => exact absurd found (Option.some_ne_none value).symm
  · rintro ⟨literal, rfl, rfl⟩
    cases literal with
    | bool b => cases b <;> rfl
    | _ => rfl

theorem BinaryOp.token_inj {op op' : BinaryOp} (same : op.token = op'.token) : op = op' := by
  have found : op.token.binaryOp? = some op' := binaryOp?_eq_some_iff.mpr same
  rw [binaryOp?_eq_some_iff.mpr rfl] at found
  exact Option.some.inj found

theorem UnaryOp.token_inj {op op' : UnaryOp} (same : op.token = op'.token) : op = op' := by
  have found : op.token.unaryOp? = some op' := unaryOp?_eq_some_iff.mpr same
  rw [unaryOp?_eq_some_iff.mpr rfl] at found
  exact Option.some.inj found

theorem Literal.token_inj {literal literal' : Literal} (same : literal.token = literal'.token) :
    literal = literal' := by
  cases literal with
  | bool b => cases literal' with
    | bool b' => cases b <;> cases b' <;> simp_all [token]
    | _ => cases b <;> simp [token] at same
  | _ => cases literal' with
    | bool b' => cases b' <;> simp [token] at same
    | _ => simp_all [token]

@[simp]
theorem Literal.token_ne_identifier (literal : Literal) (name : String) :
    literal.token ≠ .identifier name := by
  cases literal with
  | bool b => cases b <;> simp [token]
  | _ => simp [token]

@[simp]
theorem Literal.token_ne_leftParen (literal : Literal) : literal.token ≠ .leftParen := by
  cases literal with
  | bool b => cases b <;> simp [token]
  | _ => simp [token]

@[simp]
theorem Literal.identifier_ne_token (literal : Literal) (name : String) :
    .identifier name ≠ literal.token := (literal.token_ne_identifier name).symm

@[simp]
theorem Literal.leftParen_ne_token (literal : Literal) : .leftParen ≠ literal.token :=
  literal.token_ne_leftParen.symm

/-! ## Where derivations begin and end -/

/-- No token at the head of these extends what stands before them, of a symbol of this rank. -/
def Closed (rank : Nat) (rest : List PlacedToken) : Prop :=
  ∀ t ∈ rest.head?, t.token ≠ .dot ∧ t.token ≠ .leftParen ∧
    ∀ op, t.token.binaryOp? = some op → op.precedence < rank

theorem Closed.mono {m n : Nat} {rest : List PlacedToken} (closed : Closed m rest) (le : m ≤ n) :
    Closed n rest := by
  intro t head
  obtain ⟨noPoint, noParen, loose⟩ := closed t head
  exact ⟨noPoint, noParen, fun op found => Nat.lt_of_lt_of_le (loose op found) le⟩

theorem closed_comma (n offset : Nat) (rest : List PlacedToken) :
    Closed n (⟨.comma, offset⟩ :: rest) := by
  simp [Closed, Token.binaryOp?]

theorem closed_rightParen (n offset : Nat) (rest : List PlacedToken) :
    Closed n (⟨.rightParen, offset⟩ :: rest) := by
  simp [Closed, Token.binaryOp?]

theorem closed_nil (n : Nat) : Closed n [] := by
  simp [Closed]

theorem closed_operator {n : Nat} {op : BinaryOp} (loose : op.precedence < n) (offset : Nat)
    (rest : List PlacedToken) : Closed n (⟨op.token, offset⟩ :: rest) := by
  intro t head
  obtain rfl := Option.some.inj head
  refine ⟨?_, ?_, fun op' found => ?_⟩
  · cases op <;> simp [BinaryOp.token]
  · cases op <;> simp [BinaryOp.token]
  · obtain rfl := BinaryOp.token_inj (binaryOp?_eq_some_iff.mp found)
    exact loose

theorem Closed.not_operator {level : Level} {op : BinaryOp} {offset : Nat}
    {rest rest' : List PlacedToken} (closed : Closed level.rank rest)
    (ofLevel : op ∈ level.operators) (same : rest = ⟨op.token, offset⟩ :: rest') : False := by
  subst same
  have loose := (closed ⟨op.token, offset⟩ rfl).2.2 op (binaryOp?_eq_some_iff.mpr rfl)
  rw [Level.mem_operators_iff.mp ofLevel] at loose
  exact Nat.lt_irrefl _ loose

theorem Operations.closed {level : Level} {rest : List PlacedToken} (operations : Operations level)
    (closed : Closed level.rank rest) : Closed level.operand.rank (operations.tokens ++ rest) := by
  rw [Level.rank_operand]
  cases operations with
  | none => exact closed.mono (Nat.le_succ level.rank)
  | more op ofLevel offset operand others =>
      refine closed_operator ?_ offset _
      rw [Level.mem_operators_iff.mp ofLevel]
      exact Nat.lt_succ_self level.rank

theorem Derivation.head_primary (d : Derivation .primary) :
    ∃ t rest, d.tokens = t :: rest ∧ t.token ≠ .rightParen ∧ t.token.unaryOp? = none := by
  cases d with
  | literal literal offset =>
      refine ⟨_, _, rfl, ?_⟩
      cases literal with
      | bool b => cases b <;> simp [Literal.token, Token.unaryOp?]
      | _ => simp [Literal.token, Token.unaryOp?]
  | _ => exact ⟨_, _, rfl, by simp [Token.unaryOp?]⟩

theorem Derivation.head : {s : Symbol} → (d : Derivation s) →
    ∃ t rest, d.tokens = t :: rest ∧ t.token ≠ .rightParen
  | .binary _, .chain first others => by
      obtain ⟨t, rest, tokens, opens⟩ := first.head
      exact ⟨t, rest ++ others.tokens, by simp [Derivation.tokens, tokens], opens⟩
  | .unary, .prefixed op _ _ => ⟨_, _, rfl, by cases op <;> simp [UnaryOp.token]⟩
  | .unary, .plain primary => by
      obtain ⟨t, rest, tokens, opens, _⟩ := primary.head_primary
      exact ⟨t, rest, tokens, opens⟩
  | .primary, primary => by
      obtain ⟨t, rest, tokens, opens, _⟩ := primary.head_primary
      exact ⟨t, rest, tokens, opens⟩

theorem Derivation.not_closed {s : Symbol} (d : Derivation s) {offset : Nat}
    {rest rest' : List PlacedToken} (same : d.tokens ++ rest = ⟨.rightParen, offset⟩ :: rest') :
    False := by
  obtain ⟨t, _, tokens, opens⟩ := d.head
  rw [tokens, List.cons_append] at same
  obtain ⟨rfl, _⟩ := List.cons.inj same
  exact opens rfl

theorem Items.not_closed (items : Items) {offset : Nat} {rest rest' : List PlacedToken}
    (same : items.tokens ++ rest = ⟨.rightParen, offset⟩ :: rest') : False := by
  cases items with
  | single item => exact item.not_closed same
  | more item comma others =>
      simp only [Items.tokens, List.append_assoc] at same
      exact item.not_closed same

/-! ## No tokens have two derivations -/

theorem not_opened_of_closed {n offset : Nat} {rest rest' : List PlacedToken} (closed : Closed n rest)
    (fields : List Selection)
    (same : fields.flatMap Selection.tokens ++ rest = ⟨.leftParen, offset⟩ :: rest') : False := by
  cases fields with
  | nil => exact (closed ⟨.leftParen, offset⟩ (by simp_all)).2.1 rfl
  | cons selection others => simp [Selection.tokens] at same

theorem selections_append_inj {n : Nat} {rest rest' : List PlacedToken} (closed : Closed n rest)
    (closed' : Closed n rest') {fields fields' : List Selection}
    (same : fields.flatMap Selection.tokens ++ rest =
      fields'.flatMap Selection.tokens ++ rest') : fields = fields' ∧ rest = rest' := by
  induction fields generalizing fields' with
  | nil => cases fields' with
    | nil => exact ⟨rfl, same⟩
    | cons selection others =>
        simp only [List.flatMap_nil, List.nil_append, List.flatMap_cons, Selection.tokens] at same
        exact absurd rfl (closed ⟨.dot, selection.point⟩ (by simp [same])).1
  | cons selection others ih => cases fields' with
    | nil =>
        simp only [List.flatMap_nil, List.nil_append, List.flatMap_cons, Selection.tokens] at same
        exact absurd rfl (closed' ⟨.dot, selection.point⟩ (by simp [← same])).1
    | cons selection' others' =>
        obtain ⟨point, field, offset⟩ := selection
        obtain ⟨point', field', offset'⟩ := selection'
        simp only [List.flatMap_cons, Selection.tokens, List.cons_append, List.nil_append,
          List.cons.injEq, PlacedToken.mk.injEq, true_and, Token.identifier.injEq] at same
        obtain ⟨rfl, ⟨rfl, rfl⟩, same⟩ := same
        obtain ⟨rfl, ends⟩ := ih same
        exact ⟨rfl, ends⟩

mutual

/-- A derivation can be read off its tokens, if nothing behind them extends it. -/
theorem Derivation.tokens_append_inj : ∀ {s : Symbol} (d d' : Derivation s)
    {rest rest' : List PlacedToken}, Closed s.rank rest → Closed s.rank rest' →
    d.tokens ++ rest = d'.tokens ++ rest' → d = d' ∧ rest = rest'
  | _, .chain first others, d', _, _, closed, closed', same => by
      cases d' with
      | chain first' others' =>
          -- The operators that follow are too loose to extend the first operand.
          simp only [Derivation.tokens, List.append_assoc] at same
          obtain ⟨rfl, behind⟩ := first.tokens_append_inj first' (others.closed closed)
            (others'.closed closed') same
          obtain ⟨rfl, ends⟩ := others.tokens_append_inj others' closed closed' behind
          exact ⟨rfl, ends⟩
  | _, .prefixed op offset operand, d', _, _, closed, closed', same => by
      cases d' with
      | prefixed op' offset' operand' =>
          simp only [Derivation.tokens, List.cons_append, List.cons.injEq,
            PlacedToken.mk.injEq] at same
          obtain ⟨⟨ops, rfl⟩, same⟩ := same
          obtain rfl := UnaryOp.token_inj ops
          obtain ⟨rfl, ends⟩ := operand.tokens_append_inj operand' closed closed' same
          exact ⟨rfl, ends⟩
      | plain primary' =>
          obtain ⟨_, _, tokens', _, none⟩ := primary'.head_primary
          simp only [Derivation.tokens, tokens', List.cons_append, List.cons.injEq] at same
          rw [← same.1, unaryOp?_eq_some_iff.mpr rfl] at none
          contradiction
  | _, .plain primary, d', _, _, closed, closed', same => by
      cases d' with
      | prefixed op' offset' operand' =>
          obtain ⟨_, _, tokens', _, none⟩ := primary.head_primary
          simp only [Derivation.tokens, tokens', List.cons_append, List.cons.injEq] at same
          rw [same.1, unaryOp?_eq_some_iff.mpr rfl] at none
          contradiction
      | plain primary' =>
          obtain ⟨rfl, ends⟩ := primary.tokens_append_inj primary'
            (closed.mono (Nat.le_succ 6)) (closed'.mono (Nat.le_succ 6)) same
          exact ⟨rfl, ends⟩
  | _, .literal literal offset, d', _, _, _, _, same => by
      cases d' with
      | literal literal' offset' =>
          simp only [Derivation.tokens, List.cons_append, List.nil_append, List.cons.injEq,
            PlacedToken.mk.injEq] at same
          obtain ⟨⟨literals, rfl⟩, ends⟩ := same
          obtain rfl := Literal.token_inj literals
          exact ⟨rfl, ends⟩
      | _ => simp [Derivation.tokens] at same
  | _, .name base offset fields, d', _, _, closed, closed', same => by
      cases d' with
      | name base' offset' fields' =>
          simp only [Derivation.tokens, List.cons_append, List.cons.injEq, PlacedToken.mk.injEq,
            Token.identifier.injEq] at same
          obtain ⟨⟨rfl, rfl⟩, same⟩ := same
          obtain ⟨rfl, ends⟩ := selections_append_inj closed closed' same
          exact ⟨rfl, ends⟩
      | bareCall | call =>
          -- What is behind a name opens no parenthesis, or the name would be called.
          simp only [Derivation.tokens, List.cons_append, List.cons.injEq] at same
          exact (not_opened_of_closed closed fields same.2).elim
      | _ => simp [Derivation.tokens] at same
  | _, .bareCall name offset opening closing, d', _, _, _, closed', same => by
      cases d' with
      | bareCall => simp_all [Derivation.tokens]
      | name base' offset' fields' =>
          simp only [Derivation.tokens, List.cons_append, List.cons.injEq] at same
          exact (not_opened_of_closed closed' fields' same.2.symm).elim
      | call name' offset' opening' args' closing' =>
          simp only [Derivation.tokens, List.cons_append, List.append_assoc, List.cons.injEq] at same
          exact (args'.not_closed same.2.2.symm).elim
      | _ => simp [Derivation.tokens] at same
  | _, .call name offset opening args closing, d', _, _, _, closed', same => by
      cases d' with
      | call name' offset' opening' args' closing' =>
          simp only [Derivation.tokens, List.cons_append, List.append_assoc, List.nil_append,
            List.cons.injEq, PlacedToken.mk.injEq, Token.identifier.injEq, true_and] at same
          obtain ⟨⟨rfl, rfl⟩, rfl, same⟩ := same
          obtain ⟨rfl, rfl, ends⟩ := args.tokens_append_inj args' same
          exact ⟨rfl, ends⟩
      | name base' offset' fields' =>
          simp only [Derivation.tokens, List.cons_append, List.cons.injEq] at same
          exact (not_opened_of_closed closed' fields' same.2.symm).elim
      | bareCall =>
          simp only [Derivation.tokens, List.cons_append, List.append_assoc, List.cons.injEq] at same
          exact (args.not_closed same.2.2).elim
      | _ => simp [Derivation.tokens] at same
  | _, .nothing opening closing, d', _, _, _, _, same => by
      cases d' with
      | nothing => simp_all [Derivation.tokens]
      | group opening' inner' closing' =>
          simp only [Derivation.tokens, List.cons_append, List.append_assoc, List.cons.injEq] at same
          exact (inner'.not_closed same.2.symm).elim
      | tuple opening' first' comma' others' closing' =>
          simp only [Derivation.tokens, List.cons_append, List.append_assoc, List.cons.injEq] at same
          exact (first'.not_closed same.2.symm).elim
      | _ => simp [Derivation.tokens] at same
  | _, .group opening inner closing, d', _, _, _, _, same => by
      cases d' with
      | group opening' inner' closing' =>
          simp only [Derivation.tokens, List.cons_append, List.append_assoc, List.nil_append,
            List.cons.injEq, PlacedToken.mk.injEq, true_and] at same
          obtain ⟨rfl, same⟩ := same
          obtain ⟨rfl, ends⟩ := inner.tokens_append_inj inner' (closed_rightParen _ _ _)
            (closed_rightParen _ _ _) same
          simp_all
      | nothing =>
          simp only [Derivation.tokens, List.cons_append, List.append_assoc, List.cons.injEq] at same
          exact (inner.not_closed same.2).elim
      | tuple opening' first' comma' others' closing' =>
          simp only [Derivation.tokens, List.cons_append, List.append_assoc, List.cons.injEq] at same
          obtain ⟨_, ends⟩ := inner.tokens_append_inj first' (closed_rightParen _ _ _)
            (closed_comma _ _ _) same.2
          simp at ends
      | _ => simp [Derivation.tokens] at same
  | _, .tuple opening first comma others closing, d', _, _, _, _, same => by
      cases d' with
      | tuple opening' first' comma' others' closing' =>
          simp only [Derivation.tokens, List.cons_append, List.append_assoc, List.nil_append,
            List.cons.injEq, PlacedToken.mk.injEq, true_and] at same
          obtain ⟨rfl, same⟩ := same
          obtain ⟨rfl, behind⟩ := first.tokens_append_inj first' (closed_comma _ _ _)
            (closed_comma _ _ _) same
          simp only [List.cons.injEq, PlacedToken.mk.injEq, true_and] at behind
          obtain ⟨rfl, behind⟩ := behind
          obtain ⟨rfl, rfl, ends⟩ := others.tokens_append_inj others' behind
          exact ⟨rfl, ends⟩
      | nothing =>
          simp only [Derivation.tokens, List.cons_append, List.append_assoc, List.cons.injEq] at same
          exact (first.not_closed same.2).elim
      | group opening' inner' closing' =>
          simp only [Derivation.tokens, List.cons_append, List.append_assoc, List.cons.injEq] at same
          obtain ⟨_, ends⟩ := first.tokens_append_inj inner' (closed_comma _ _ _)
            (closed_rightParen _ _ _) same.2
          simp at ends
      | _ => simp [Derivation.tokens] at same

theorem Operations.tokens_append_inj : ∀ {level : Level} (operations operations' : Operations level)
    {rest rest' : List PlacedToken}, Closed level.rank rest → Closed level.rank rest' →
    operations.tokens ++ rest = operations'.tokens ++ rest' →
      operations = operations' ∧ rest = rest'
  | _, .none, operations', _, _, closed, _, same => by
      cases operations' with
      | none => exact ⟨rfl, same⟩
      | more op' ofLevel' offset' operand' others' =>
          exact (closed.not_operator ofLevel' same).elim
  | _, .more op ofLevel offset operand others, operations', _, _, closed, closed', same => by
      cases operations' with
      | none => exact (closed'.not_operator ofLevel same.symm).elim
      | more op' ofLevel' offset' operand' others' =>
          simp only [Operations.tokens, List.cons_append, List.append_assoc, List.cons.injEq,
            PlacedToken.mk.injEq] at same
          obtain ⟨⟨ops, rfl⟩, same⟩ := same
          obtain rfl := BinaryOp.token_inj ops
          obtain ⟨rfl, behind⟩ := operand.tokens_append_inj operand' (others.closed closed)
            (others'.closed closed') same
          obtain ⟨rfl, ends⟩ := others.tokens_append_inj others' closed closed' behind
          exact ⟨rfl, ends⟩

theorem Items.tokens_append_inj : ∀ (items items' : Items) {closing closing' : Nat}
    {rest rest' : List PlacedToken},
    items.tokens ++ ⟨.rightParen, closing⟩ :: rest =
      items'.tokens ++ ⟨.rightParen, closing'⟩ :: rest' →
    items = items' ∧ closing = closing' ∧ rest = rest'
  | .single item, items', _, _, _, _, same => by
      cases items' with
      | single item' =>
          obtain ⟨rfl, ends⟩ := item.tokens_append_inj item' (closed_rightParen _ _ _)
            (closed_rightParen _ _ _) same
          simp_all
      | more item' comma' others' =>
          simp only [Items.tokens, List.append_assoc, List.cons_append] at same
          obtain ⟨_, ends⟩ := item.tokens_append_inj item' (closed_rightParen _ _ _)
            (closed_comma _ _ _) same
          simp at ends
  | .more item comma others, items', _, _, _, _, same => by
      cases items' with
      | single item' =>
          simp only [Items.tokens, List.append_assoc, List.cons_append] at same
          obtain ⟨_, ends⟩ := item.tokens_append_inj item' (closed_comma _ _ _)
            (closed_rightParen _ _ _) same
          simp at ends
      | more item' comma' others' =>
          simp only [Items.tokens, List.append_assoc, List.cons_append] at same
          obtain ⟨rfl, ends⟩ := item.tokens_append_inj item' (closed_comma _ _ _)
            (closed_comma _ _ _) same
          simp only [List.cons.injEq, PlacedToken.mk.injEq, true_and] at ends
          obtain ⟨rfl, behind⟩ := ends
          obtain ⟨rfl, rfl, ends⟩ := others.tokens_append_inj others' behind
          exact ⟨rfl, rfl, ends⟩

end

/-- No tokens have two derivations from a symbol. -/
theorem Derivation.tokens_inj {s : Symbol} {d d' : Derivation s} (same : d.tokens = d'.tokens) :
    d = d' := by
  have ends : d.tokens ++ [] = d'.tokens ++ [] := by rw [same]
  exact (d.tokens_append_inj d' (closed_nil _) (closed_nil _) ends).1

end Grammar

end AccessControl
