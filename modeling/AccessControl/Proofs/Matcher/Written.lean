import AccessControl.Matcher.Scan
import AccessControl.Proofs.Except
import Mathlib.Data.List.TakeDrop

/-! # Texts of tokens

A token can be written as a text, in several ways if it is a string. The scanner reads texts of
tokens with blanks between them as these tokens, and knows at which byte each of them begins.
-/

namespace AccessControl

/-- How many bytes a text takes. -/
def byteLength (text : List Char) : Nat := (String.ofList text).utf8ByteSize

@[simp]
theorem byteLength_nil : byteLength [] = 0 := rfl

@[simp]
theorem byteLength_cons (c : Char) (text : List Char) :
    byteLength (c :: text) = c.utf8Size + byteLength text := by
  simp [byteLength, String.ofList_cons]

@[simp]
theorem byteLength_append (text text' : List Char) :
    byteLength (text ++ text') = byteLength text + byteLength text' := by
  simp [byteLength, String.ofList_append]

/-! ## How tokens are written -/

/-- The text of a token that has only one. -/
def Token.spelling? : Token → Option String
  | .trueWord => some "true"
  | .falseWord => some "false"
  | .inWord => some "in"
  | .dot => some "."
  | .comma => some ","
  | .leftParen => some "("
  | .rightParen => some ")"
  | .equal => some "=="
  | .notEqual => some "!="
  | .less => some "<"
  | .lessEqual => some "<="
  | .greater => some ">"
  | .greaterEqual => some ">="
  | .and => some "&&"
  | .or => some "||"
  | .not => some "!"
  | .plus => some "+"
  | .minus => some "-"
  | .asterisk => some "*"
  | .slash => some "/"
  | .percent => some "%"
  | _ => none

theorem Token.ofWord_of_free {word : String} (free : word ∉ ["true", "false", "in"]) :
    Token.ofWord word = .identifier word := by
  simp only [List.mem_cons, List.not_mem_nil, or_false, not_or] at free
  obtain ⟨notTrue, notFalse, notIn⟩ := free
  simp only [Token.ofWord, beq_iff_eq, notTrue, notFalse, notIn, if_false]

/-- A token together with a way to write it. -/
inductive Lexeme where
  | fixed (token : Token) (spelling : String) (only : token.spelling? = some spelling)
  | name (first : Char) (others : List Char) (starts : Token.startsWord first = true)
      (continued : ∀ c ∈ others, Token.continuesWord c = true)
      (free : String.ofList (first :: others) ∉ ["true", "false", "in"])
  | str (quote : Char) (either : quote = '\'' ∨ quote = '"') (content : List Char)
  | int (n : Nat) (fits : n ≤ Int64.maxValue.toInt)
  | float (whole fraction : List Char) (begun : whole ≠ []) (ended : fraction ≠ [])
      (digits : ∀ c ∈ whole ++ fraction, c.isDigit = true)

namespace Lexeme

def token : Lexeme → Token
  | .fixed token _ _ => token
  | .name first others _ _ _ => .identifier (String.ofList (first :: others))
  | .str _ _ content => .str (String.ofList content)
  | .int n _ => .int (Int64.ofNat n)
  | .float whole fraction _ _ _ =>
    .float (Binary64.ofDecimal false (digitsValue (whole ++ fraction)) (-fraction.length))

/-- A backslash before every quote of a kind and every backslash. -/
def escape (quote : Char) (content : List Char) : List Char :=
  content.flatMap fun c => if c = quote ∨ c = '\\' then ['\\', c] else [c]

def text : Lexeme → List Char
  | .fixed _ spelling _ => spelling.toList
  | .name first others _ _ _ => first :: others
  | .str quote _ content => quote :: (escape quote content ++ [quote])
  | .int n _ => (toString n).toList
  | .float whole fraction _ _ _ => whole ++ '.' :: fraction

end Lexeme

/-- Blanks that keep two tokens apart. -/
structure Gap where
  blanks : List Char
  some : blanks ≠ []
  blank : ∀ c ∈ blanks, c = ' ' ∨ c = '\t' ∨ c = '\n'

/-- The text of tokens, each with the gap that keeps it apart from the next one. -/
def written : List (Lexeme × Gap) → List Char
  | [] => []
  | [(lexeme, _)] => lexeme.text
  | (lexeme, gap) :: next :: rest => lexeme.text ++ (gap.blanks ++ written (next :: rest))

/-- The tokens of such a text with the bytes at which they begin. -/
def placed (offset : Nat) : List (Lexeme × Gap) → List PlacedToken
  | [] => []
  | (lexeme, gap) :: rest =>
    ⟨lexeme.token, offset⟩ ::
      placed (offset + byteLength lexeme.text + byteLength gap.blanks) rest

/-! ## Passing over a part of a text -/

namespace ScanState

/-- What the scanner gives out over a part of a text and where it stands behind it, whatever
    follows. -/
def Passes (s : ScanState) (offset : Nat) (text : List Char) (done : List PlacedToken)
    (s' : ScanState) : Prop :=
  ∀ rest, s.scan offset (text ++ rest) =
    (s'.scan (offset + byteLength text) rest).map (done ++ ·)

variable {s s' s'' next : ScanState} {offset : Nat} {c : Char} {text text' rest : List Char}
  {done done' : List PlacedToken} {t : PlacedToken}

theorem Passes.nil (s : ScanState) (offset : Nat) : s.Passes offset [] [] s := by
  intro rest
  cases scanned : s.scan offset rest <;> simp [scanned, Except.map]

theorem scan_cons (advanced : s.advance offset c = .ok (done, next)) (rest : List Char) :
    s.scan offset (c :: rest) = (next.scan (offset + c.utf8Size) rest).map (done ++ ·) := by
  rw [scan, advanced]
  show (next.scan (offset + c.utf8Size) rest).bind _ = _
  cases next.scan (offset + c.utf8Size) rest <;> rfl

theorem Passes.cons (advanced : s.advance offset c = .ok (done, next))
    (passes : next.Passes (offset + c.utf8Size) text done' s') :
    s.Passes offset (c :: text) (done ++ done') s' := by
  intro rest
  rw [List.cons_append, scan_cons advanced, passes rest, byteLength_cons, ← Nat.add_assoc]
  cases s'.scan (offset + c.utf8Size + byteLength text) rest <;> simp [Except.map]

theorem Passes.append (first : s.Passes offset text done s')
    (second : s'.Passes (offset + byteLength text) text' done' s'') :
    s.Passes offset (text ++ text') (done ++ done') s'' := by
  intro rest
  rw [List.append_assoc, first, second, byteLength_append, ← Nat.add_assoc]
  cases s''.scan (offset + byteLength text + byteLength text') rest <;> simp [Except.map]

theorem Passes.silent (advanced : s.advance offset c = .ok ([], next))
    (passes : next.Passes (offset + c.utf8Size) text done s') :
    s.Passes offset (c :: text) done s' := .cons advanced passes

theorem Passes.last (advanced : s.advance offset c = .ok (done, next)) :
    s.Passes offset [c] done next := by
  have passes := Passes.cons advanced (.nil next (offset + c.utf8Size))
  rwa [List.append_nil] at passes

/-! ## Tokens that a blank completes -/

/-- A state holds a token that a blank or the end completes. -/
structure Holds (s : ScanState) (t : PlacedToken) : Prop where
  finish : s.finish = .ok [t]
  restart : ∀ offset c, Token.isScanBlank c = true → s.advance offset c = s.restart offset c

/-- No text, or one that begins with a blank. -/
def Separate (rest : List Char) : Prop := ∀ c ∈ rest.head?, Token.isScanBlank c = true

theorem start_blank (blank : Token.isScanBlank c = true) (offset : Nat) :
    start offset c = .ok ([], .between) := by
  rw [start, if_pos blank]

theorem Holds.scan (holds : s.Holds t) (separate : Separate rest) (offset : Nat) :
    s.scan offset rest = (between.scan offset rest).map ([t] ++ ·) := by
  cases rest with
  | nil => simp only [ScanState.scan, holds.finish]; rfl
  | cons c rest =>
      have blank := separate c rfl
      -- The blank completes the token and begins nothing itself.
      have restarted : s.advance offset c = .ok ([t], .between) := by
        rw [holds.restart offset c blank]
        simp only [ScanState.restart, holds.finish, start_blank blank]
        rfl
      have passed : between.advance offset c = .ok ([], .between) := start_blank blank offset
      rw [scan_cons restarted, scan_cons passed]
      cases between.scan (offset + c.utf8Size) rest <;> rfl

theorem not_continuesWord_of_blank (blank : Token.isScanBlank c = true) :
    Token.continuesWord c = false := by
  simp only [Token.isScanBlank, Bool.or_eq_true, beq_iff_eq] at blank
  rcases blank with ((rfl | rfl) | rfl) | rfl <;> decide

theorem not_digit_of_blank (blank : Token.isScanBlank c = true) :
    c.isDigit = false ∧ c ≠ '.' := by
  simp only [Token.isScanBlank, Bool.or_eq_true, beq_iff_eq] at blank
  rcases blank with ((rfl | rfl) | rfl) | rfl <;> decide

theorem holds_word (offset : Nat) (reversed : List Char) :
    (word offset reversed).Holds ⟨Token.ofWord (String.ofList reversed.reverse), offset⟩ := by
  refine ⟨rfl, fun at' c blank => ?_⟩
  simp [advance, not_continuesWord_of_blank blank]

theorem holds_number {reversed : List Char} {point : Bool} {token : Token}
    (valid : Token.ofNumber reversed.reverse point offset = .ok token) :
    (number offset reversed point).Holds ⟨token, offset⟩ := by
  refine ⟨?_, fun at' c blank => ?_⟩
  · simp only [finish, valid]
    rfl
  · simp [advance, not_digit_of_blank blank]

theorem holds_operator {first : Char} {token : Token}
    (valid : Token.ofSingle first offset = .ok token) :
    (operator first offset).Holds ⟨token, offset⟩ := by
  refine ⟨?_, fun at' c blank => ?_⟩
  · simp only [finish, valid]
    rfl
  · have unpaired : Token.ofPair? first c = none := by
      simp only [Token.isScanBlank, Bool.or_eq_true, beq_iff_eq] at blank
      unfold Token.ofPair?
      rcases blank with ((rfl | rfl) | rfl) | rfl <;> split <;> simp_all
    simp [advance, unpaired]

/-! ## What the characters of a token do -/

theorem eq_of_isDigit (digit : c.isDigit = true) : c = '0' ∨ c = '1' ∨ c = '2' ∨ c = '3' ∨
    c = '4' ∨ c = '5' ∨ c = '6' ∨ c = '7' ∨ c = '8' ∨ c = '9' := by
  have known : ∀ n < 58, 48 ≤ n → Char.ofNat n ∈ "0123456789".toList := by decide
  simp only [Char.isDigit, Bool.and_eq_true, decide_eq_true_eq, UInt32.le_iff_toNat_le] at digit
  have found := known c.toNat (Nat.lt_succ_of_le digit.2) digit.1
  rw [Char.ofNat_toNat] at found
  simpa using found

theorem continuesWord_of_startsWord (starts : Token.startsWord c = true) :
    Token.continuesWord c = true := by
  simp only [Token.startsWord, Token.continuesWord, Text.isAlphanumeric, Bool.or_eq_true]
    at starts ⊢
  exact starts.imp_left .inl

/-- A character of a word begins nothing else, and nothing at all if it may not stand first. -/
theorem start_of_continuesWord (continues : Token.continuesWord c = true)
    (digit : c.isDigit = false) (offset : Nat) :
    start offset c =
      if Token.startsWord c then .ok ([], .word offset [c])
      else .error (.matcherSyntax offset (.unexpectedCharacter c)) := by
  have blank : Token.isScanBlank c = false := by
    refine Bool.eq_false_iff.mpr fun blank => ?_
    simp [not_continuesWord_of_blank blank] at continues
  have punctuation : Token.ofPunctuation? c = none := by
    unfold Token.ofPunctuation?
    split <;> first | rfl | exact absurd continues (by decide)
  have operator : Token.startsOperator c = false := by
    refine Bool.eq_false_iff.mpr fun operator => ?_
    simp only [Token.startsOperator, Bool.or_eq_true, beq_iff_eq] at operator
    rcases operator with ((((rfl | rfl) | rfl) | rfl) | rfl) | rfl <;>
      exact absurd continues (by decide)
  have quote : (c == '\'' || c == '"') = false := by
    refine Bool.eq_false_iff.mpr fun quote => ?_
    simp only [Bool.or_eq_true, beq_iff_eq] at quote
    rcases quote with rfl | rfl <;> exact absurd continues (by decide)
  simp only [start, blank, punctuation, operator, quote, digit, Bool.false_eq_true, if_false]

theorem start_word (starts : Token.startsWord c = true) (offset : Nat) :
    start offset c = .ok ([], .word offset [c]) := by
  have digit : c.isDigit = false := by
    refine Bool.eq_false_iff.mpr fun digit => ?_
    rcases eq_of_isDigit digit with rfl | rfl | rfl | rfl | rfl | rfl | rfl | rfl | rfl | rfl <;>
      exact absurd starts (by decide)
  rw [start_of_continuesWord (continuesWord_of_startsWord starts) digit, if_pos starts]

theorem start_digit (digit : c.isDigit = true) (offset : Nat) :
    start offset c = .ok ([], .number offset [c] false) := by
  rcases eq_of_isDigit digit with rfl | rfl | rfl | rfl | rfl | rfl | rfl | rfl | rfl | rfl <;> rfl

theorem start_operator (starts : Token.startsOperator c = true) (offset : Nat) :
    start offset c = .ok ([], .operator c offset) := by
  simp only [Token.startsOperator, Bool.or_eq_true, beq_iff_eq] at starts
  rcases starts with ((((rfl | rfl) | rfl) | rfl) | rfl) | rfl <;> rfl

theorem start_quote (either : c = '\'' ∨ c = '"') (offset : Nat) :
    start offset c = .ok ([], .string c offset [] false) := by
  rcases either with rfl | rfl <;> rfl

theorem passes_word {others : List Char} (continued : ∀ c ∈ others, Token.continuesWord c = true)
    {begun : Nat} {reversed : List Char} :
    (word begun reversed).Passes offset others [] (word begun (others.reverse ++ reversed)) := by
  induction others generalizing offset reversed with
  | nil => exact .nil _ _
  | cons c others ih =>
      obtain ⟨first, others⟩ := List.forall_mem_cons.mp continued
      have advanced : (word begun reversed).advance offset c = .ok ([], word begun (c :: reversed)) := by
        simp only [advance, if_pos first]
      rw [List.reverse_cons, List.append_assoc]
      exact .silent advanced (ih others)

theorem passes_digits {digits : List Char} (all : ∀ c ∈ digits, c.isDigit = true)
    {begun : Nat} {reversed : List Char} {point : Bool} :
    (number begun reversed point).Passes offset digits []
      (number begun (digits.reverse ++ reversed) point) := by
  induction digits generalizing offset reversed with
  | nil => exact .nil _ _
  | cons c digits ih =>
      obtain ⟨first, others⟩ := List.forall_mem_cons.mp all
      have advanced : (number begun reversed point).advance offset c =
          .ok ([], number begun (c :: reversed) point) := by
        simp only [advance, if_pos first]
      rw [List.reverse_cons, List.append_assoc]
      exact .silent advanced (ih others)

theorem passes_number (offset : Nat) {digits : List Char} (some : digits ≠ [])
    (all : ∀ c ∈ digits, c.isDigit = true) :
    between.Passes offset digits [] (number offset digits.reverse false) := by
  cases digits with
  | nil => contradiction
  | cons c digits =>
      obtain ⟨first, others⟩ := List.forall_mem_cons.mp all
      rw [List.reverse_cons]
      exact .silent (start_digit first offset) (passes_digits others)

/-- The content of a string is what its text stands for without the backslashes. -/
theorem passes_string {quote : Char} (either : quote = '\'' ∨ quote = '"') (begun offset : Nat)
    (reversed content : List Char) :
    (string quote begun reversed false).Passes offset (Lexeme.escape quote content) []
      (string quote begun (content.reverse ++ reversed) false) := by
  have slash : '\\' ≠ quote := by rcases either with rfl | rfl <;> decide
  induction content generalizing offset reversed with
  | nil => exact .nil _ _
  | cons c content ih =>
      rw [Lexeme.escape, List.flatMap_cons, List.reverse_cons, List.append_assoc]
      split
      -- Behind a backslash every character stands for itself, the quote as well.
      · have escaped : (string quote begun reversed false).advance offset '\\' =
            .ok ([], string quote begun reversed true) := by
          simp [advance, slash]
        exact .silent escaped (.silent rfl (ih _ (c :: reversed)))
      · rename_i plain
        have advanced : (string quote begun reversed false).advance offset c =
            .ok ([], string quote begun (c :: reversed) false) := by
          simp [advance, not_or.mp plain]
        exact .silent advanced (ih _ (c :: reversed))

end ScanState

namespace Lexeme

open ScanState

/-- The scanner passes over the text of a token and either gives out the token or holds it. -/
def Scanned (token : Token) (text : List Char) : Prop :=
  ∀ offset, between.Passes offset text [⟨token, offset⟩] .between ∨
    ∃ s, between.Passes offset text [] s ∧ s.Holds ⟨token, offset⟩

theorem scanned_word (first : Char) (others : List Char)
    (starts : Token.startsWord first = true)
    (continued : ∀ c ∈ others, Token.continuesWord c = true) :
    Scanned (Token.ofWord (String.ofList (first :: others))) (first :: others) := by
  intro offset
  have holds := holds_word offset (others.reverse ++ [first])
  rw [List.reverse_append, List.reverse_reverse] at holds
  exact .inr ⟨_, .silent (start_word starts offset) (passes_word continued), holds⟩

theorem scanned_operator {first : Char} {token : Token} (starts : Token.startsOperator first = true)
    (valid : ∀ offset, Token.ofSingle first offset = .ok token) : Scanned token [first] := by
  intro offset
  exact .inr ⟨_, .last (start_operator starts offset), holds_operator (valid offset)⟩

theorem scanned_fixed {token : Token} {spelling : String}
    (only : token.spelling? = some spelling) : Scanned token spelling.toList := by
  cases token <;> simp only [Token.spelling?, Option.some.injEq, reduceCtorEq] at only <;>
    subst only
  case trueWord => exact scanned_word 't' ['r', 'u', 'e'] rfl (List.all_eq_true.mp rfl)
  case falseWord => exact scanned_word 'f' ['a', 'l', 's', 'e'] rfl (List.all_eq_true.mp rfl)
  case inWord => exact scanned_word 'i' ['n'] rfl (List.all_eq_true.mp rfl)
  case not | less | greater => exact scanned_operator rfl fun _ => rfl
  case equal | notEqual | lessEqual | greaterEqual | and | or =>
    exact fun _ => .inl (.silent rfl (.last rfl))
  all_goals exact fun _ => .inl (.last rfl)

theorem scanned_str {quote : Char} (either : quote = '\'' ∨ quote = '"') (content : List Char) :
    Scanned (.str (String.ofList content)) (quote :: (escape quote content ++ [quote])) := by
  intro offset
  have closed : (ScanState.string quote offset content.reverse false).advance
      (offset + quote.utf8Size + byteLength (escape quote content)) quote =
      .ok ([⟨.str (String.ofList content), offset⟩], .between) := by
    simp [advance]
  have inside := passes_string either offset (offset + quote.utf8Size) [] content
  rw [List.append_nil] at inside
  exact .inl (.silent (start_quote either offset) (inside.append (.last closed)))

theorem digitsValue_toString (n : Nat) : digitsValue (toString n).toList = n := by
  rw [Nat.toString_eq_ofList_toDigits, String.toList_ofList]
  exact Nat.ofDigitChars_eq_foldl.symm.trans Nat.ofDigitChars_ten_toDigits

theorem scanned_int {n : Nat} (fits : n ≤ Int64.maxValue.toInt) :
    Scanned (.int (Int64.ofNat n)) (toString n).toList := by
  intro offset
  have digits : (toString n).toList = Nat.toDigits 10 n := by
    rw [Nat.toString_eq_ofList_toDigits, String.toList_ofList]
  have passes := passes_number offset (digits ▸ Nat.toDigits_ne_nil)
    fun c member => Nat.isDigit_of_mem_toDigits (by decide) (by decide) (digits ▸ member)
  refine .inr ⟨_, passes, holds_number ?_⟩
  have inRange : Value.intInRange n = true := by
    have lowest : Int64.minValue.toInt ≤ 0 := by decide
    simp only [Value.intInRange, Bool.and_eq_true, decide_eq_true_eq]
    exact ⟨Int.le_trans lowest (Int.natCast_nonneg n), fits⟩
  rw [List.reverse_reverse]
  simp only [Token.ofNumber, digitsValue_toString, inRange, if_true, Bool.false_eq_true, if_false]

theorem spanDigits_of_digits {digits : List Char} (all : ∀ c ∈ digits, c.isDigit = true)
    (rest : List Char) (ends : ∀ c ∈ rest.head?, c.isDigit = false) :
    spanDigits (digits ++ rest) = (digits, rest) := by
  rw [spanDigits, List.span_eq_takeWhile_dropWhile, List.takeWhile_append_of_pos all,
    List.dropWhile_append_of_pos all]
  cases rest with
  | nil => simp
  | cons c rest => simp [ends c rfl]

theorem readMagnitude?_of_digits {whole fraction : List Char} (begun : whole ≠ [])
    (digits : ∀ c ∈ whole ++ fraction, c.isDigit = true) :
    Binary64.readMagnitude? false (whole ++ '.' :: fraction) =
      some (.ofDecimal false (digitsValue (whole ++ fraction)) (-fraction.length)) := by
  obtain ⟨wholeDigits, fractionDigits⟩ := List.forall_mem_append.mp digits
  have first := spanDigits_of_digits wholeDigits ('.' :: fraction) (by simp)
  have second := spanDigits_of_digits fractionDigits [] (by simp)
  rw [List.append_nil] at second
  simp [Binary64.readMagnitude?, first, second, Binary64.readExponent?, begun]

theorem scanned_float {whole fraction : List Char} (begun : whole ≠ [])
    (digits : ∀ c ∈ whole ++ fraction, c.isDigit = true) :
    Scanned (.float (.ofDecimal false (digitsValue (whole ++ fraction)) (-fraction.length)))
      (whole ++ '.' :: fraction) := by
  intro offset
  obtain ⟨wholeDigits, fractionDigits⟩ := List.forall_mem_append.mp digits
  have passes := (passes_number offset begun wholeDigits).append
    (.silent (c := '.') rfl (passes_digits fractionDigits))
  refine .inr ⟨_, passes, holds_number ?_⟩
  have whole : (fraction.reverse ++ '.' :: whole.reverse).reverse = whole ++ '.' :: fraction := by
    simp
  rw [whole]
  simp only [Token.ofNumber, readMagnitude?_of_digits begun digits, if_true]

theorem scanned : (lexeme : Lexeme) → Scanned lexeme.token lexeme.text
  | .fixed _ _ only => scanned_fixed only
  | .name first others starts continued free => by
      have scanned := scanned_word first others starts continued
      rwa [Token.ofWord_of_free free] at scanned
  | .str _ either content => scanned_str either content
  | .int _ fits => scanned_int fits
  | .float _ _ begun _ digits => scanned_float begun digits

/-- A token that is kept apart from what follows is read, and nothing else of the text with it. -/
theorem scan (lexeme : Lexeme) (offset : Nat) (rest : List Char) (separate : Separate rest) :
    between.scan offset (lexeme.text ++ rest) =
      (between.scan (offset + byteLength lexeme.text) rest).map
        ([⟨lexeme.token, offset⟩] ++ ·) := by
  rcases lexeme.scanned offset with passes | ⟨s, passes, holds⟩
  · exact passes rest
  · rw [passes rest, holds.scan separate]
    cases between.scan (offset + byteLength lexeme.text) rest <;> rfl

end Lexeme

/-! ## Texts -/

namespace Gap

open ScanState

theorem isScanBlank (gap : Gap) {c : Char} (member : c ∈ gap.blanks) :
    Token.isScanBlank c = true := by
  rcases gap.blank c member with rfl | rfl | rfl <;> rfl

theorem separate (gap : Gap) (rest : List Char) : Separate (gap.blanks ++ rest) := by
  intro c head
  cases blanks : gap.blanks with
  | nil => exact absurd blanks gap.some
  | cons first others =>
      rw [blanks, List.cons_append] at head
      obtain rfl := Option.some.inj head
      exact gap.isScanBlank (by simp [blanks])

theorem passes_blanks {blanks : List Char} (all : ∀ c ∈ blanks, Token.isScanBlank c = true)
    (offset : Nat) : between.Passes offset blanks [] between := by
  induction blanks generalizing offset with
  | nil => exact .nil _ _
  | cons c blanks ih =>
      obtain ⟨first, others⟩ := List.forall_mem_cons.mp all
      exact .silent (start_blank first offset) (ih others _)

theorem scan (gap : Gap) (offset : Nat) (rest : List Char) :
    between.scan offset (gap.blanks ++ rest) =
      between.scan (offset + byteLength gap.blanks) rest := by
  rw [passes_blanks (fun _ member => gap.isScanBlank member) offset rest]
  cases between.scan (offset + byteLength gap.blanks) rest <;> rfl

end Gap

theorem scan_written (entries : List (Lexeme × Gap)) (offset : Nat) :
    ScanState.between.scan offset (written entries) =
      .ok (placed offset entries ++ [⟨.endMark, offset + byteLength (written entries)⟩]) := by
  induction entries using written.induct generalizing offset with
  | case1 => rfl
  | case2 lexeme gap =>
      have read := lexeme.scan offset [] (by simp [ScanState.Separate])
      rw [List.append_nil] at read
      rw [written, read]
      rfl
  | case3 lexeme gap next rest ih =>
      rw [written, lexeme.scan offset _ (gap.separate _), gap.scan, ih]
      simp [Except.map, placed, Nat.add_assoc]

/-- Tokens that have been written are read again, at the bytes where they stand, with the end behind
    the last byte. -/
theorem tokenize_written (entries : List (Lexeme × Gap)) :
    tokenize (String.ofList (written entries)) =
      .ok (placed 0 entries ++ [⟨.endMark, (String.ofList (written entries)).utf8ByteSize⟩]) := by
  rw [tokenize, String.toList_ofList, scan_written, Nat.zero_add]
  rfl

example :
    written [(.str '\'' (.inl rfl) ['i', '\'', 's'], ⟨[' ', '\n'], by simp, by simp⟩),
      (.int 7 (by decide), ⟨[' '], by simp, by simp⟩)] = "'i\\'s' \n7".toList := by
  decide

end AccessControl
