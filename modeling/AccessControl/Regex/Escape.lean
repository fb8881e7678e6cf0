import AccessControl.Json.Reader
import AccessControl.Regex.Property
import AccessControl.Regex.Syntax

/-! # Escapes in patterns

In a verbose pattern blanks and comments may stand between the characters of most constructs. A
comment runs from a number sign to the end of its line.
-/

namespace AccessControl.Regex

/-! ## Blanks -/

/-- Drop a comment up to the end of its line, blanks and further comments. -/
def skipComment (verbose inComment : Bool) : List Char → List Char
  | [] => []
  | c :: rest =>
    if !verbose then c :: rest
    else if inComment then skipComment verbose (c != '\n') rest
    else if c == '#' then skipComment verbose true rest
    else if Text.isBlank c then skipComment verbose false rest
    else c :: rest

/-- Drop the blanks and comments that a verbose pattern may have anywhere. -/
def skip (verbose : Bool) (text : List Char) : List Char := skipComment verbose false text

/-- The characters up to a closing brace, and what follows it; in verbose patterns without blanks
    and comments. -/
def upToBrace (verbose inComment : Bool) : List Char → Option (List Char × List Char)
  | [] => none
  | c :: rest =>
    if inComment then upToBrace verbose (c != '\n') rest
    else if verbose && c == '#' then upToBrace verbose true rest
    else if verbose && Text.isBlank c then upToBrace verbose false rest
    else if c == '\x7d' then some ([], rest)
    else (upToBrace verbose false rest).map fun (inside, rest) => (c :: inside, rest)

/-! ## Characters by their codes -/

/-- What an escape stands for. -/
inductive Escape where
  | char (c : WrittenChar)
  | named (c : NamedClass)
  | anchor (a : WrittenAnchor)

/-- The character with a code, if there is one. -/
def charOfCode? (n : Nat) : Option Char :=
  if n < 0xD800 || (0xE000 ≤ n && n < 0x110000) then some (Char.ofNat n) else none

def hexValue? (digits : List Char) : Option Nat :=
  if digits.isEmpty then none
  else digits.foldlM (fun n c => (Json.hexDigit? c).map (16 * n + ·)) 0

/-- Exactly so many characters, and what follows them. -/
def takeChars (verbose : Bool) : Nat → List Char → Option (List Char × List Char)
  | 0, text => some ([], text)
  | _ + 1, [] => none
  | n + 1, c :: rest =>
    (takeChars verbose n (skip verbose rest)).map fun (taken, rest) => (c :: taken, rest)

/-- A character given by so many digits, or by any number of them in braces. -/
def readHex (verbose : Bool) (digits : Nat) (text : List Char) :
    Option (Escape × List Char) := do
  let (inside, rest, isByte) ← match skip verbose text with
    | '\x7b' :: rest => (upToBrace verbose false rest).map fun (s, rest) => (s, rest, false)
    | text => (takeChars verbose digits text).map fun (s, rest) => (s, rest, digits == 2)
  let c ← charOfCode? (← hexValue? inside)
  some (.char ⟨c, isByte⟩, rest)

/-! ## Classes with a name -/

/-- Cut a text at the first place where a separator stands. -/
def splitAt? (separator : List Char) : List Char → Option (List Char × List Char)
  | [] => none
  | c :: rest =>
    if separator.isPrefixOf (c :: rest) then some ([], (c :: rest).drop separator.length)
    else (splitAt? separator rest).map fun (before, after) => (c :: before, after)

/-- The set that the text between the braces of a property names, and whether it is excluded. -/
def propertyOf? (text : List Char) : Option (CodePointSet × Bool) :=
  match splitAt? ['!', '='] text with
  | some (property, value) => (Property.valued? property value).map (·, true)
  | none =>
    match splitAt? [':'] text, splitAt? ['='] text with
    | some (property, value), _ => (Property.valued? property value).map (·, false)
    | none, some (property, value) => (Property.valued? property value).map (·, false)
    | none, none => (Property.named? text).map (·, false)

/-- A property after its letter: one letter, or a name in braces. -/
def readProperty (verbose negated : Bool) (text : List Char) : Option (Escape × List Char) :=
  match skip verbose text with
  | [] => none
  | '\x7b' :: rest => do
    let (inside, rest) ← upToBrace verbose false rest
    let (members, excluded) ← propertyOf? inside
    some (.named (.property members (negated != excluded)), rest)
  | c :: rest =>
    if c == '\\' then none
    else (Property.named? [c]).map fun members => (.named (.property members negated), rest)

/-! ## Word boundaries -/

/-- The boundary that is named in braces. -/
def boundary? (name : String) : Option Boundary :=
  match name with
  | "start" => some .wordStart
  | "end" => some .wordEnd
  | "start-half" => some .startHalf
  | "end-half" => some .endHalf
  | _ => none

/-- A word boundary after its letter. A brace behind it names a boundary if it begins like a name;
    otherwise it is a counted repetition. -/
def readBoundary (verbose : Bool) (text : List Char) : Option (Escape × List Char) :=
  match text with
  | '\x7b' :: rest =>
    match skip verbose rest with
    | [] => none
    | c :: _ =>
      if c.isAlpha || c == '-' then do
        let (name, rest) ← upToBrace verbose false rest
        let side ← boundary? (String.ofList name)
        some (.anchor (.boundary side), rest)
      else some (.anchor (.boundary .either), text)
  | text => some (.anchor (.boundary .either), text)

/-- An escape after its backslash. -/
def readEscape (verbose : Bool) : List Char → Option (Escape × List Char)
  | [] => none
  | c :: rest =>
    match c with
    | 'x' => readHex verbose 2 rest
    | 'u' => readHex verbose 4 rest
    | 'U' => readHex verbose 8 rest
    | 'p' => readProperty verbose false rest
    | 'P' => readProperty verbose true rest
    | 'd' => some (.named (.letter .digit false), rest)
    | 'D' => some (.named (.letter .digit true), rest)
    | 's' => some (.named (.letter .blank false), rest)
    | 'S' => some (.named (.letter .blank true), rest)
    | 'w' => some (.named (.letter .word false), rest)
    | 'W' => some (.named (.letter .word true), rest)
    | 'a' => some (.char ⟨'\x07', false⟩, rest)
    | 'f' => some (.char ⟨'\x0c', false⟩, rest)
    | 't' => some (.char ⟨'\t', false⟩, rest)
    | 'n' => some (.char ⟨'\n', false⟩, rest)
    | 'r' => some (.char ⟨'\r', false⟩, rest)
    | 'v' => some (.char ⟨'\x0b', false⟩, rest)
    | 'A' => some (.anchor .textStart, rest)
    | 'z' => some (.anchor .textEnd, rest)
    | 'b' => readBoundary verbose rest
    | 'B' => some (.anchor (.boundary .neither), rest)
    | '<' => some (.anchor (.boundary .wordStart), rest)
    | '>' => some (.anchor (.boundary .wordEnd), rest)
    | c => if c.toNat < 128 && !c.isAlphanum then some (.char ⟨c, false⟩, rest) else none

end AccessControl.Regex
