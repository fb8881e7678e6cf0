import AccessControl.Proofs.Matcher.Recognition
import AccessControl.Proofs.Matcher.Offsets

/-! # Where a text stops being an expression

Tokens are viable if some tokens behind them complete them to an expression with the end behind it.
Whatever the parser has read is viable: every state of it can be completed, by an operand where one
must follow and a parenthesis for each bracket that is open. A token that it refuses is the first
behind which the tokens are not viable any more, and the error points at its first byte.
-/

namespace AccessControl

namespace Grammar

open ParseState (ofName unexpected)

/-- Tokens that begin something that can be derived, with the end behind it. -/
def Viable (tokens : List PlacedToken) : Prop :=
  ∃ rest offset, ∃ d : Derivation whole, tokens ++ rest = d.tokens ++ [⟨.endMark, offset⟩]

variable {s : Symbol} {tokens tokens' rest : List PlacedToken} {e : Expr} {stack : List Pending}
  {t : PlacedToken} {error : Error} {state next : ParseState}

theorem Viable.front (viable : Viable tokens) (fewer : tokens' <+: tokens) : Viable tokens' := by
  obtain ⟨behind, rfl⟩ := fewer
  obtain ⟨rest, offset, d, all⟩ := viable
  exact ⟨behind ++ rest, offset, d, by rw [← all, List.append_assoc]⟩

theorem viable_iff_accepted :
    Viable tokens ↔ ∃ rest e, (ParseState.operand false []).run (tokens ++ rest) = .ok e := by
  constructor
  · rintro ⟨rest, offset, d, all⟩
    exact ⟨rest, d.tree, run_eq_ok_iff.mpr ⟨offset, d, all, rfl⟩⟩
  · rintro ⟨rest, e, accepted⟩
    obtain ⟨offset, d, all, _⟩ := run_eq_ok_iff.mp accepted
    exact ⟨rest, offset, d, all⟩

/-! ## What has been read can be completed -/

theorem Symbol.operand_rank_le {level : Level} {op : BinaryOp} {left : Expr}
    (ofLevel : op ∈ level.operators) (begins : s.BeginsOn (.binary left op :: stack)) :
    level.operand.rank ≤ s.rank := by
  have precedence := Level.mem_operators_iff.mp ofLevel
  have bound := op.precedence_le
  rw [Level.rank_operand, ← precedence]
  cases s with
  | binary level' => exact begins
  | unary => exact Nat.succ_le_succ bound
  | primary => exact Nat.le_succ_of_le (Nat.succ_le_succ bound)

theorem Stands.viable (below : Stands stack tokens) (derives : Derives s tokens' e)
    (begins : s.BeginsOn stack) : Viable (tokens ++ tokens') := by
  induction below generalizing s tokens' e with
  | bottom =>
      obtain ⟨d, rfl, _⟩ := derives.looser whole s.one_le_rank
      exact ⟨[⟨.endMark, 0⟩], 0, d, rfl⟩
  | unary _ op offset ih =>
      rw [List.append_assoc]
      cases s with
      | binary level => exact (begins : False).elim
      | unary => exact ih (derives.prefixed op offset) trivial
      | primary => exact ih (derives.plain.prefixed op offset) trivial
  | @binary _ _ _ level _ op below derives' ofLevel loose offset ih =>
      have operand := derives.looser level.operand (Symbol.operand_rank_le ofLevel begins)
      have viable := ih (derives'.operation ofLevel offset operand) loose
      simpa using viable
  | @group _ tokens _ opening ih =>
      obtain ⟨d, rfl, rfl⟩ := derives.looser whole s.one_le_rank
      have closed : Derives .primary
          (⟨.leftParen, opening⟩ :: (d.tokens ++ [⟨.rightParen, 0⟩])) d.tree :=
        ⟨.group opening d 0, rfl, rfl⟩
      refine (ih closed trivial).front ⟨[⟨.rightParen, 0⟩], ?_⟩
      simp
  | @tuple _ tokens _ _ _ _ opening gathered ih =>
      have items := gathered.items (.single (derives.looser whole s.one_le_rank))
      have closed := items.tuple (by simp) opening 0
      refine (ih closed trivial).front ⟨[⟨.rightParen, 0⟩], ?_⟩
      simp
  | @call _ tokens _ _ _ name offset opening gathered ih =>
      have items := gathered.items (.single (derives.looser whole s.one_le_rank))
      have closed := items.call name offset opening 0
      refine (ih closed trivial).front ⟨[⟨.rightParen, 0⟩], ?_⟩
      simp

/-- What the parser has read is viable. -/
theorem StandsFor.viable (stands : StandsFor state tokens) : Viable tokens := by
  cases stands with
  | operand opened below =>
      have literal : Derives .primary [⟨.int 0, 0⟩] (.literal (.int 0)) := ⟨.literal (.int 0) 0, rfl, rfl⟩
      exact (below.viable literal trivial).front (List.prefix_append _ _)
  | named below base offset fields =>
      exact below.viable ⟨.name base offset fields, rfl, rfl⟩ trivial
  | point below base offset fields point =>
      have named : Derives .primary _ _ := ⟨.name base offset (fields ++ [⟨point, "x", 0⟩]), rfl, rfl⟩
      refine (below.viable named trivial).front ⟨[⟨.identifier "x", 0⟩], ?_⟩
      simp [Derivation.tokens, Selection.tokens]
  | complete below derives loose => exact below.viable derives trivial
  | done derives offset =>
      obtain ⟨d, rfl, _⟩ := derives
      exact ⟨[], offset, d, List.append_nil _⟩

theorem StandsFor.reads (stands : StandsFor state tokens) (reads : state.Reads tokens' next) :
    StandsFor next (tokens ++ tokens') := by
  induction tokens' generalizing state tokens with
  | nil =>
      rw [← Except.ok.inj reads, List.append_nil]
      exact stands
  | cons t rest ih =>
      obtain ⟨_, stepped, others⟩ := Except.bind_eq_ok_iff.mp reads
      simpa using ih (stands.step stepped) others

/-! ## What is refused cannot be completed -/

theorem exists_reads_of_run {behind : List PlacedToken}
    (accepted : state.run (tokens ++ behind) = .ok e) : ∃ next, state.Reads tokens next := by
  induction tokens generalizing state with
  | nil => exact ⟨state, .nil state⟩
  | cons t rest ih =>
      obtain ⟨_, stepped, others⟩ := Except.bind_eq_ok_iff.mp accepted
      obtain ⟨next, reads⟩ := ih others
      exact ⟨next, .cons stepped reads⟩

/-- Tokens are viable if and only if the parser can read them. -/
theorem viable_iff_read : Viable tokens ↔ ∃ s, (ParseState.operand false []).Reads tokens s := by
  constructor
  · intro viable
    obtain ⟨rest, e, accepted⟩ := viable_iff_accepted.mp viable
    exact exists_reads_of_run accepted
  · rintro ⟨s, reads⟩
    have stands := (StandsFor.operand false .bottom).reads reads
    exact stands.viable

/-! ## Refusals -/

/-- A refusal names the token that is refused, at its first byte. -/
def Refuses (t : PlacedToken) (outcome : Except Error ParseState) : Prop :=
  ∀ error, outcome = .error error →
    ∃ expectation, error = .matcherSyntax t.offset (.unexpectedToken expectation t.token)

theorem refuses_ok (t : PlacedToken) (next : ParseState) : Refuses t (.ok next) := by
  intro error refused
  cases refused

theorem refuses_unexpected (expectation : Expectation) (t : PlacedToken) :
    Refuses t (unexpected expectation t) := by
  intro error refused
  exact ⟨expectation, (Except.error.inj refused).symm⟩

theorem refuses_closeEmpty (t : PlacedToken) (stack : List Pending) :
    Refuses t (ParseState.closeEmpty t stack) := by
  unfold ParseState.closeEmpty
  split
  · exact refuses_ok t _
  · exact refuses_ok t _
  · exact refuses_unexpected _ t

theorem refuses_beginOperand (opened : Bool) (stack : List Pending) (t : PlacedToken) :
    Refuses t (ParseState.beginOperand opened stack t) := by
  unfold ParseState.beginOperand
  split
  · exact refuses_ok t _
  · exact refuses_ok t _
  · split
    · exact refuses_ok t _
    · exact refuses_ok t _
    · split
      · exact refuses_closeEmpty t stack
      · exact refuses_unexpected _ t
    · exact refuses_unexpected _ t

theorem refuses_delimit (e : Expr) (stack : List Pending) (t : PlacedToken) :
    Refuses t (ParseState.delimit e stack t) := by
  unfold ParseState.delimit
  split
  case h_8 => exact refuses_unexpected _ t
  all_goals exact refuses_ok t _

theorem refuses_afterOperand (e : Expr) (stack : List Pending) (t : PlacedToken) :
    Refuses t (ParseState.afterOperand e stack t) := by
  unfold ParseState.afterOperand
  split
  · exact refuses_ok t _
  · exact refuses_delimit _ _ t

theorem refuses_step (state : ParseState) (t : PlacedToken) : Refuses t (state.step t) := by
  cases state with
  | operand opened stack => exact refuses_beginOperand opened stack t
  | named base path offset stack =>
      simp only [ParseState.step]
      split
      · exact refuses_ok t _
      · split
        · exact refuses_ok t _
        · exact refuses_unexpected _ t
      · exact refuses_afterOperand _ _ t
  | point base path offset stack =>
      simp only [ParseState.step]
      split
      · exact refuses_ok t _
      · exact refuses_unexpected _ t
  | complete e stack => exact refuses_afterOperand e stack t
  | done e => exact refuses_unexpected _ t

theorem done_of_delimit {offset : Nat}
    (ended : ParseState.delimit e stack ⟨.endMark, offset⟩ = .ok next) : next = .done e := by
  cases stack with
  | nil => exact (Except.ok.inj ended).symm
  | cons => cases ended

theorem done_of_step_end {offset : Nat} (stepped : state.step ⟨.endMark, offset⟩ = .ok next) :
    ∃ e, next = .done e := by
  cases state with
  | operand | point | done => cases stepped
  | named | complete => exact ⟨_, done_of_delimit stepped⟩

theorem done_of_reads_end {offset : Nat} (reads : state.Reads (tokens ++ [⟨.endMark, offset⟩]) next) :
    ∃ e, next = .done e := by
  induction tokens generalizing state with
  | nil =>
      obtain ⟨s, stepped, rest⟩ := Except.bind_eq_ok_iff.mp reads
      obtain rfl := Except.ok.inj rest
      exact done_of_step_end stepped
  | cons t rest ih =>
      obtain ⟨s, _, others⟩ := Except.bind_eq_ok_iff.mp reads
      exact ih others

theorem exists_refused_of_run (failed : state.run tokens = .error error) :
    (∃ before t after s, tokens = before ++ t :: after ∧ state.Reads before s ∧
      s.step t = .error error) ∨ ∃ s, state.Reads tokens s ∧ ∀ e, s ≠ .done e := by
  induction tokens generalizing state with
  | nil =>
      refine .inr ⟨state, .nil state, ?_⟩
      rintro e rfl
      cases failed
  | cons t rest ih =>
      rcases Except.bind_eq_error_iff.mp failed with refused | ⟨next, stepped, failed⟩
      · exact .inl ⟨[], t, rest, state, rfl, .nil state, refused⟩
      · rcases ih failed with ⟨before, t', after, s, rfl, reads, refused⟩ | ⟨s, reads, unfinished⟩
        · exact .inl ⟨t :: before, t', after, s, rfl, .cons stepped reads, refused⟩
        · exact .inr ⟨s, .cons stepped reads, unfinished⟩

/-! ## The first token that is impossible -/

/-- A token that is refused is the first behind which the tokens are not viable. -/
theorem viable_take_iff {before after : List PlacedToken}
    (reads : (ParseState.operand false []).Reads before state) (refused : state.step t = .error error)
    (n : Nat) : Viable ((before ++ t :: after).take n) ↔ n ≤ before.length := by
  constructor
  · intro viable
    refine Nat.le_of_not_lt fun beyond => ?_
    have more : before ++ [t] <+: (before ++ t :: after).take n := by
      refine List.prefix_of_prefix_length_le ⟨after, by simp⟩ (List.take_prefix n _) ?_
      simp only [List.length_append, List.length_cons, List.length_nil, List.length_take]
      omega
    obtain ⟨next, reads'⟩ := viable_iff_read.mp (viable.front more)
    have last : state.Reads [t] next := by
      unfold ParseState.Reads at reads reads'
      rw [List.foldlM_append, reads] at reads'
      exact reads'
    obtain ⟨_, stepped, _⟩ := Except.bind_eq_ok_iff.mp last
    rw [refused] at stepped
    cases stepped
  · intro few
    refine (viable_iff_read.mpr ⟨state, reads⟩).front ?_
    refine List.prefix_of_prefix_length_le (List.take_prefix n _) (List.prefix_append before _) ?_
    exact Nat.le_trans (List.length_take_le n _) few

/-- A text whose tokens can be read, but are no expression, is refused at one of them. The tokens
    before it are viable, and with it they are not, however they go on; the error says at which byte
    of the text it begins. So the parser never looks for a token behind the last one. -/
theorem refused_at_first_impossible (text : String) {tokens : List PlacedToken}
    (tokenized : tokenize text = .ok tokens) {error : Error}
    (refused : Expr.parse text = .error error) :
    ∃ position t expectation, tokens[position]? = some t ∧
      (∀ n, Viable (tokens.take n) ↔ n ≤ position) ∧
      error = .matcherSyntax t.offset (.unexpectedToken expectation t.token) ∧
      String.Pos.Raw.IsValid text ⟨t.offset⟩ ∧ t.offset ≤ text.utf8ByteSize := by
  have failed : (ParseState.operand false []).run tokens = .error error := by
    simp only [Expr.parse, tokenized] at refused
    exact refused
  rcases exists_refused_of_run failed with
    ⟨before, t, after, s, rfl, reads, stepped⟩ | ⟨s, reads, unfinished⟩
  · obtain ⟨expectation, named⟩ := refuses_step s t error stepped
    have inText := valid_of_tokenize tokenized (t := t) (by simp)
    exact ⟨before.length, t, expectation, by simp, viable_take_iff reads stepped, named, inText,
      inText.le_rawEndPos⟩
  -- The end of the tokens would have been read.
  · obtain ⟨front, last, rfl⟩ := exists_endMark_of_scan tokenized
    obtain ⟨e, ended⟩ := done_of_reads_end reads
    exact absurd ended (unfinished e)

/-- An argument list without a comma: `b` cannot stand behind `f(a`. -/
theorem refused_at_missing_comma :
    (∃ expectation, Expr.parse "f(a b)" =
      .error (.matcherSyntax 4 (.unexpectedToken expectation (.identifier "b")))) ∧
    Viable [⟨.identifier "f", 0⟩, ⟨.leftParen, 1⟩, ⟨.identifier "a", 2⟩] ∧
    ¬ Viable [⟨.identifier "f", 0⟩, ⟨.leftParen, 1⟩, ⟨.identifier "a", 2⟩, ⟨.identifier "b", 4⟩] := by
  have tokenized : tokenize "f(a b)" = .ok [⟨.identifier "f", 0⟩, ⟨.leftParen, 1⟩,
      ⟨.identifier "a", 2⟩, ⟨.identifier "b", 4⟩, ⟨.rightParen, 5⟩, ⟨.endMark, 6⟩] := rfl
  have refused : Expr.parse "f(a b)" =
      .error (.matcherSyntax 4 (.unexpectedToken .nextArgument (.identifier "b"))) := rfl
  obtain ⟨position, t, expectation, found, viable, named, _⟩ :=
    refused_at_first_impossible "f(a b)" tokenized refused
  obtain ⟨offset, _⟩ := Error.matcherSyntax.inj named
  -- Only one token begins at the byte that the error names.
  have fourth : position = 3 := by
    rcases position with _ | _ | _ | _ | _ | _ | position
    case succ.succ.succ.zero => rfl
    case succ.succ.succ.succ.succ.succ => simp at found
    all_goals
      obtain rfl := Option.some.inj found
      contradiction
  subst fourth
  exact ⟨⟨.nextArgument, refused⟩, (viable 3).mpr (Nat.le_refl 3), fun late =>
    absurd ((viable 4).mp late) (by decide)⟩

end Grammar

end AccessControl
