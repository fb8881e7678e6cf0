import AccessControl.Json.Basic
import AccessControl.Number.Notation
import AccessControl.Text.Quoted

/-! # Structured data as text

The compact form: no blanks, members in the order given. Quotes, backslashes and controls are
escaped, everything else stands as it is.
-/

namespace AccessControl.Json

def escapeChar (c : Char) : List Char :=
  match c with
  | '"' => ['\\', '"']
  | '\\' => ['\\', '\\']
  | '\x08' => ['\\', 'b']
  | '\x0c' => ['\\', 'f']
  | '\n' => ['\\', 'n']
  | '\r' => ['\\', 'r']
  | '\t' => ['\\', 't']
  | c =>
    if c.toNat < 0x10 then ['\\', 'u', '0', '0', '0'] ++ Text.hexText c.toNat
    else if c.toNat < 0x20 then ['\\', 'u', '0', '0'] ++ Text.hexText c.toNat
    else [c]

def writeString (text : String) : List Char := '"' :: text.toList.flatMap escapeChar ++ ['"']

mutual

def write : Json → List Char
  | .null => "null".toList
  | .bool true => "true".toList
  | .bool false => "false".toList
  | .integer n => (toString n).toList
  | .real x => (NumberFormat.structured.render x).toList
  | .string text => writeString text
  | .array items => '[' :: writeItems items ++ [']']
  | .object members => '\x7b' :: writeMembers members ++ ['\x7d']

def writeItems : List Json → List Char
  | [] => []
  | [item] => write item
  | item :: rest => write item ++ ',' :: writeItems rest

def writeMembers : List (String × Json) → List Char
  | [] => []
  | [(key, item)] => writeString key ++ ':' :: write item
  | (key, item) :: rest => writeString key ++ ':' :: write item ++ ',' :: writeMembers rest

end

def compact (j : Json) : String := String.ofList j.write

end AccessControl.Json
