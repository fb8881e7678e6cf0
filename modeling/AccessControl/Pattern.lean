import AccessControl.Address
import AccessControl.Error
import AccessControl.Glob
import AccessControl.Regex.Parse
import AccessControl.Regex.Search
import AccessControl.Text.Utf8

/-! # Patterns for keys

The ways in which a policy row can name many resources at once: paths with wildcards and variables,
regular expressions, address blocks and globs. A path pattern becomes a regular expression by
replacing its wildcards and variables and leaving the rest as it is, so that what stands beside them
counts as a regular expression too.
-/

namespace AccessControl.Pattern

/-- Split a text at the first star, if it has one: what stands before it. -/
def beforeStar? : List Char → Option (List Char)
  | [] => none
  | c :: rest => if c == '*' then some [] else (beforeStar? rest).map (c :: ·)

/-- A star stands for any ending. Without one the pattern matches itself. -/
def keyMatch (key pattern : String) : Bool :=
  match beforeStar? pattern.toList with
  | none => key == pattern
  | some before =>
    let bytes := Text.encode before
    let keyBytes := Text.encode key.toList
    if bytes.length < keyBytes.length then keyBytes.take bytes.length == bytes
    else keyBytes == bytes

/-- The ending that the star of `keyMatch` stands for, or nothing. -/
def keyGet (key pattern : String) : String :=
  match beforeStar? pattern.toList with
  | none => ""
  | some before =>
    let bytes := Text.encode before
    let keyBytes := Text.encode key.toList
    if bytes.length < keyBytes.length && keyBytes.take bytes.length == bytes then
      String.ofList (Text.decode (keyBytes.drop bytes.length))
    else ""

/-- Turn each star behind a slash into any run of characters. -/
def openWildcards : List Char → List Char
  | '/' :: '*' :: rest => '/' :: '.' :: '*' :: openWildcards rest
  | c :: rest => c :: openWildcards rest
  | [] => []

inductive Piece where
  | text (c : Char)
  | variable (name : List Char)

/-- Read a variable at the head of a text. -/
abbrev VariableReader := List Char → Option (List Char × List Char)

/-- A colon and the characters up to the next slash, at least one. -/
def colonVariable : VariableReader
  | ':' :: rest =>
    let name := rest.takeWhile (· != '/')
    if name.isEmpty then none else some (name, rest.drop name.length)
  | _ => none

/-- The shortest non-empty name within braces that has no slash: it ends at the first closing brace
    behind its first character. -/
def bracedVariable : VariableReader
  | '\x7b' :: first :: rest =>
    let others := rest.takeWhile fun c => c != '/' && c != '\x7d'
    match rest.drop others.length with
    | '\x7d' :: after => if first == '/' then none else some (first :: others, after)
    | _ => none
  | _ => none

/-- The pieces of a pattern. The count bounds them. -/
def pieces (readVariable? : VariableReader) : Nat → List Char → List Piece
  | 0, _ => []
  | _ + 1, [] => []
  | n + 1, c :: rest =>
    match readVariable? (c :: rest) with
    | some (name, after) => .variable name :: pieces readVariable? n after
    | none => .text c :: pieces readVariable? n rest

/-- The pieces of a pattern after its wildcards were opened. -/
def piecesOf (readVariable? : VariableReader) (pattern : String) : List Piece :=
  let opened := openWildcards pattern.toList
  pieces readVariable? (opened.length + 1) opened

def names (ps : List Piece) : List (List Char) :=
  ps.filterMap fun p =>
    match p with
    | .variable name => some name
    | .text _ => none

/-- The expression text of pieces, with a text for each variable. -/
def expressionText (variableText : List Char) (ps : List Piece) : List Char :=
  '^' :: (ps.flatMap fun p =>
    match p with
    | .variable _ => variableText
    | .text c => [c]) ++ ['$']

/-- The expression of a pattern that takes no notice of what its variables stand for. -/
def plain? (readVariable? : VariableReader) (pattern : String) : Option Regex :=
  Regex.parse (expressionText "[^/]+".toList (piecesOf readVariable? pattern))

/-- The expression of a pattern with a group for each variable. -/
def capturing? (readVariable? : VariableReader) (pattern : String) : Option Regex :=
  Regex.parse (expressionText "([^/]+)".toList (piecesOf readVariable? pattern))

/-- Whether a key matches a pattern; a pattern that is no expression matches nothing. -/
def pathMatch (readVariable? : VariableReader) (key pattern : String) : Bool :=
  match plain? readVariable? pattern with
  | some r => r.isMatch key.toList
  | none => false

/-- Variables begin with a colon. -/
def keyMatch2 (key pattern : String) : Bool := pathMatch colonVariable key pattern

/-- The text of the group that has the position of a name among the variables. -/
def keyGet2 (key pattern name : String) : String :=
  let found : Option (List Char) := do
    let r ← capturing? colonVariable pattern
    let t ← r.find? key.toList
    let position ← (names (piecesOf colonVariable pattern)).findIdx? (· == name.toList)
    Regex.groupText? key.toList t (position + 1)
  String.ofList (found.getD [])

/-- Variables stand in braces. -/
def keyMatch3 (key pattern : String) : Bool := pathMatch bracedVariable key pattern

/-- Whether each name is bound to one text only. -/
def consistent (bindings : List (List Char × List Char)) : Bool :=
  bindings.all fun (name, text) => (bindings.lookup name).all (· == text)

/-- As `keyMatch3`, and variables of one name stand for one text. -/
def keyMatch4 (key pattern : String) : Bool :=
  match capturing? bracedVariable pattern with
  | none => false
  | some r =>
    match r.find? key.toList with
    | none => false
    | some t =>
      let names := names (piecesOf bracedVariable pattern)
      match names.zipIdx.mapM fun (name, position) =>
        (Regex.groupText? key.toList t (position + 1)).map fun text => (name, text) with
      | none => false
      | some bindings => consistent bindings

/-- As `keyMatch3`, on the key up to its first question mark. -/
def keyMatch5 (key pattern : String) : Bool :=
  keyMatch3 (String.ofList (key.toList.takeWhile (· != '?'))) pattern

/-- Whether a regular expression matches somewhere in a key. -/
def regexMatch (key pattern : String) : Except Error Bool :=
  match Regex.parse pattern.toList with
  | some r => .ok (r.isMatch key.toList)
  | none => .error (.evaluation .invalidRegex)

/-- Whether an address is another one, or lies in a block. -/
def ipMatch (address other : String) : Except Error Bool :=
  match Address.ofText? (Text.trim address.toList) with
  | none => .error (.evaluation (.notAnAddress address))
  | some a =>
    match AddressBlock.ofText? (Text.trim other.toList) with
    | some block => .ok (block.contains a)
    | none =>
      match Address.ofText? (Text.trim other.toList) with
      | some b => .ok (a == b)
      | none => .error (.evaluation (.notAnAddressBlock other))

/-- Whether a glob matches a whole key. -/
def globMatch (key pattern : String) : Except Error Bool :=
  match Glob.parse pattern.toList with
  | some parts => .ok (Glob.isMatch parts (Text.encode key.toList))
  | none => .error (.evaluation .invalidGlob)

end AccessControl.Pattern
