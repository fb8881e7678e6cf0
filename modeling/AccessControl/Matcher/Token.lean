import AccessControl.Number.Notation
import AccessControl.Text.Quoted

/-! # Tokens of matcher expressions -/

namespace AccessControl

inductive Token where
  | identifier (name : String)
  | str (text : String)
  | int (value : Int64)
  | float (value : Binary64)
  | trueWord
  | falseWord
  | inWord
  | dot
  | comma
  | leftParen
  | rightParen
  | equal
  | notEqual
  | less
  | lessEqual
  | greater
  | greaterEqual
  | and
  | or
  | not
  | plus
  | minus
  | asterisk
  | slash
  | percent
  | endMark
  deriving DecidableEq

namespace Token

/-- The name of a sort of tokens in messages. -/
def name : Token → String
  | .identifier _ => "Identifier"
  | .str _ => "Str"
  | .int _ => "Int"
  | .float _ => "Float"
  | .trueWord => "True"
  | .falseWord => "False"
  | .inWord => "In"
  | .dot => "Dot"
  | .comma => "Comma"
  | .leftParen => "LeftParen"
  | .rightParen => "RightParen"
  | .equal => "Equal"
  | .notEqual => "NotEqual"
  | .less => "Less"
  | .lessEqual => "LessEqual"
  | .greater => "Greater"
  | .greaterEqual => "GreaterEqual"
  | .and => "And"
  | .or => "Or"
  | .not => "Not"
  | .plus => "Plus"
  | .minus => "Minus"
  | .asterisk => "Asterisk"
  | .slash => "Slash"
  | .percent => "Percent"
  | .endMark => "EOF"

/-- A token in a message: its name, and what it carries in parentheses. -/
def describe (token : Token) : String :=
  match token with
  | .identifier name => token.name ++ "(" ++ Text.quote name ++ ")"
  | .str text => token.name ++ "(" ++ Text.quote text ++ ")"
  | .int n => token.name ++ "(" ++ toString n.toInt ++ ")"
  | .float x => token.name ++ "(" ++ NumberFormat.described.render x ++ ")"
  | _ => token.name

end Token

/-- A token and the byte offset where it starts. -/
structure PlacedToken where
  token : Token
  offset : Nat
  deriving DecidableEq

end AccessControl
