import AccessControl.Error

/-! # Matcher texts as tokens

The scanner reads a text character by character. Its state says what the last characters belong to:
nothing, an operator that may have a second character, a string, a number or a word. A token is
given out when a character shows that it is complete.
-/

namespace AccessControl

/-- What the characters just read belong to. Offsets are those of the first character. -/
inductive ScanState where
  | between
  | operator (first : Char) (offset : Nat)
  /-- A string so far, in reverse; `escaped` after a backslash. -/
  | string (quote : Char) (offset : Nat) (reversed : List Char) (escaped : Bool)
  /-- A number so far, in reverse; `point` once it has one. -/
  | number (offset : Nat) (reversed : List Char) (point : Bool)
  | word (offset : Nat) (reversed : List Char)

namespace Token

def isScanBlank (c : Char) : Bool := c == ' ' || c == '\t' || c == '\n' || c == '\r'

def startsWord (c : Char) : Bool := Text.isAlphabetic c || c == '_'

def continuesWord (c : Char) : Bool := Text.isAlphanumeric c || c == '_'

/-- Tokens of a single character that no second character extends. -/
def ofPunctuation? : Char → Option Token
  | '.' => some .dot
  | ',' => some .comma
  | '(' => some .leftParen
  | ')' => some .rightParen
  | '+' => some .plus
  | '-' => some .minus
  | '*' => some .asterisk
  | '/' => some .slash
  | '%' => some .percent
  | _ => none

/-- Whether a second character may extend this one to an operator. -/
def startsOperator (c : Char) : Bool :=
  c == '=' || c == '!' || c == '<' || c == '>' || c == '&' || c == '|'

def ofPair? : Char → Char → Option Token
  | '=', '=' => some .equal
  | '!', '=' => some .notEqual
  | '<', '=' => some .lessEqual
  | '>', '=' => some .greaterEqual
  | '&', '&' => some .and
  | '|', '|' => some .or
  | _, _ => none

/-- The operator that a character is on its own. -/
def ofSingle (c : Char) (offset : Nat) : Except Error Token :=
  match c with
  | '!' => .ok .not
  | '<' => .ok .less
  | '>' => .ok .greater
  | '=' => .error (.matcherSyntax offset .loneEquals)
  | c => .error (.matcherSyntax offset (.unexpectedCharacter c))

/-- The token of a word: a keyword or an identifier. -/
def ofWord (word : String) : Token :=
  if word == "true" then .trueWord
  else if word == "false" then .falseWord
  else if word == "in" then .inWord
  else .identifier word

/-- The token of a number, which has to fit when it has no point. -/
def ofNumber (text : List Char) (point : Bool) (offset : Nat) : Except Error Token :=
  let invalid : Except Error Token :=
    .error (.matcherSyntax offset (.invalidNumber (String.ofList text)))
  if point then
    match Binary64.readMagnitude? false text with
    | some x => .ok (.float x)
    | none => invalid
  else if Value.intInRange (digitsValue text) then .ok (.int (Int64.ofNat (digitsValue text)))
  else invalid

end Token

namespace ScanState

/-- Begin a token with a character, or pass over a blank. -/
def start (offset : Nat) (c : Char) : Except Error (List PlacedToken × ScanState) :=
  if Token.isScanBlank c then .ok ([], .between)
  else
    match Token.ofPunctuation? c with
    | some token => .ok ([⟨token, offset⟩], .between)
    | none =>
      if Token.startsOperator c then .ok ([], .operator c offset)
      else if c == '\'' || c == '"' then .ok ([], .string c offset [] false)
      else if c.isDigit then .ok ([], .number offset [c] false)
      else if Token.startsWord c then .ok ([], .word offset [c])
      else .error (.matcherSyntax offset (.unexpectedCharacter c))

/-- The token that is complete when nothing more belongs to it. -/
def finish : ScanState → Except Error (List PlacedToken)
  | .between => .ok []
  | .operator first offset => do
    let token ← Token.ofSingle first offset
    return [⟨token, offset⟩]
  | .string _ offset _ _ => .error (.matcherSyntax offset .unterminatedString)
  | .number offset reversed point => do
    let token ← Token.ofNumber reversed.reverse point offset
    return [⟨token, offset⟩]
  | .word offset reversed =>
    .ok [⟨Token.ofWord (String.ofList reversed.reverse), offset⟩]

/-- Complete the token before a character that does not belong to it, and start with that one. -/
def restart (s : ScanState) (offset : Nat) (c : Char) :
    Except Error (List PlacedToken × ScanState) := do
  let done ← s.finish
  let (more, next) ← start offset c
  return (done ++ more, next)

def advance (s : ScanState) (offset : Nat) (c : Char) :
    Except Error (List PlacedToken × ScanState) :=
  match s with
  | .between => start offset c
  | .operator first begun =>
    match Token.ofPair? first c with
    | some token => .ok ([⟨token, begun⟩], .between)
    | none => s.restart offset c
  | .string quote begun reversed true => .ok ([], .string quote begun (c :: reversed) false)
  | .string quote begun reversed false =>
    if c == quote then .ok ([⟨.str (String.ofList reversed.reverse), begun⟩], .between)
    else if c == '\\' then .ok ([], .string quote begun reversed true)
    else .ok ([], .string quote begun (c :: reversed) false)
  | .number begun reversed point =>
    if c.isDigit then .ok ([], .number begun (c :: reversed) point)
    else if c == '.' && !point then .ok ([], .number begun (c :: reversed) true)
    else s.restart offset c
  | .word begun reversed =>
    if Token.continuesWord c then .ok ([], .word begun (c :: reversed))
    else s.restart offset c

/-- The tokens of the rest of a text, which begins at a byte offset. -/
def scan (s : ScanState) (offset : Nat) : List Char → Except Error (List PlacedToken)
  | [] => do
    let last ← s.finish
    return last ++ [⟨.endMark, offset⟩]
  | c :: rest => do
    let (done, next) ← s.advance offset c
    let others ← next.scan (offset + c.utf8Size) rest
    return done ++ others

end ScanState

/-- The tokens of a matcher text, an end mark behind them. -/
def tokenize (text : String) : Except Error (List PlacedToken) :=
  ScanState.between.scan 0 text.toList

end AccessControl
