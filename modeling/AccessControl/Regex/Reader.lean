import AccessControl.Regex.Bracket

/-! # Reading patterns

There are no look-around conditions and no references back to groups: both are refused. A brace
opens a counted repetition and nothing else.
-/

namespace AccessControl.Regex

/-! ## Repetitions -/

/-- The digits at the head of a text. A verbose pattern may have blanks and comments behind each of
    them. -/
def readDigits (verbose inComment : Bool) : List Char → List Char × List Char
  | [] => ([], [])
  | c :: rest =>
    if inComment then readDigits verbose (c != '\n') rest
    else if c.isDigit then
      let (digits, rest) := readDigits verbose false rest
      (c :: digits, rest)
    else if verbose && c == '#' then readDigits verbose true rest
    else if verbose && Text.isBlank c then readDigits verbose false rest
    else ([], c :: rest)

/-- A count between blanks, which are allowed in all patterns. -/
def readCount (verbose : Bool) (text : List Char) : Option Nat × List Char :=
  let (digits, rest) := readDigits verbose false (text.dropWhile Text.isBlank)
  let count := digitsValue digits
  (if digits.isEmpty || UInt32.size ≤ count then none else some count, rest.dropWhile Text.isBlank)

/-- The bounds of a counted repetition behind its brace. -/
def readBounds (verbose : Bool) (text : List Char) :
    Option ((Nat × Option Nat) × List Char) := do
  let (least, rest) := readCount verbose (skip verbose text)
  let least ← least
  match rest with
  | '\x7d' :: rest => some ((least, some least), rest)
  | ',' :: rest =>
    match skip verbose rest with
    | '\x7d' :: rest => some ((least, none), rest)
    | rest =>
      let (most, rest) := readCount verbose rest
      let most ← most
      match rest with
      | '\x7d' :: rest => if least ≤ most then some ((least, some most), rest) else none
      | _ => none
  | _ => none

/-- A question mark that turns the preference of a repetition around. -/
def readGreedy (text : List Char) : Bool × List Char :=
  match text with
  | '?' :: rest => (false, rest)
  | text => (true, text)

/-! ## Groups -/

/-- What a group is: remembered under a number, or with flags of its own. -/
inductive GroupKind where
  | capture (index : Nat)
  | plain (changes : FlagChanges)

def GroupKind.wrap (a : Tree) : GroupKind → Tree
  | .capture index => .capture index a
  | .plain changes => .group changes a

/-- A group that is open: what stood before it where it began. -/
structure OpenGroup where
  kind : GroupKind
  verbose : Bool
  parts : List Tree
  branches : List Tree

/-- What the reader of a pattern has so far. -/
structure Reading where
  verbose : Bool
  /-- The parts of the current branch, in reverse. -/
  parts : List Tree
  /-- The branches before the current one, in reverse. -/
  branches : List Tree
  outer : List OpenGroup
  next : Nat
  names : List (List Char)

namespace Reading

def start : Reading := ⟨false, [], [], [], 1, []⟩

def push (s : Reading) (a : Tree) : Reading := { s with parts := a :: s.parts }

def current (s : Reading) : Tree :=
  .altOf (.catOf s.parts.reverse :: s.branches).reverse

/-- Put the last part under a repetition. A setting of flags is nothing to repeat. -/
def repeatLast (s : Reading) (least : Nat) (most : Option Nat) (text : List Char) :
    Option (Reading × List Char) :=
  match s.parts with
  | [] => none
  | .flags _ :: _ => none
  | a :: rest =>
    let (greedy, text) := readGreedy text
    some ({ s with parts := .rep a least most greedy :: rest }, text)

def branch (s : Reading) : Reading :=
  { s with parts := [], branches := .catOf s.parts.reverse :: s.branches }

/-- What changes of flags make of the verbosity. -/
def verboseAfter (verbose : Bool) (changes : FlagChanges) : Bool :=
  (changes.lookup .verbose).getD verbose

def openGroup (s : Reading) (kind : GroupKind) : Reading :=
  let outer := ⟨kind, s.verbose, s.parts, s.branches⟩ :: s.outer
  match kind with
  | .capture _ => { s with parts := [], branches := [], outer, next := s.next + 1 }
  | .plain changes =>
    { s with verbose := verboseAfter s.verbose changes, parts := [], branches := [], outer }

def closeGroup (s : Reading) : Option Reading :=
  match s.outer with
  | [] => none
  | g :: outer =>
    some { s with
      verbose := g.verbose, parts := g.kind.wrap s.current :: g.parts, branches := g.branches
      outer }

end Reading

def startsGroupName (c : Char) : Bool := c == '_' || Text.isAlphabetic c

def continuesGroupName (c : Char) : Bool :=
  c == '_' || c == '.' || c == '[' || c == ']' || Text.isAlphanumeric c

/-- The name of a group up to its angle bracket. -/
def readGroupName (taken : List (List Char)) (text : List Char) :
    Option (List Char × List Char) := do
  let name := text.takeWhile (· != '>')
  match name, text.drop name.length with
  | c :: others, _ :: rest =>
    if startsGroupName c && others.all continuesGroupName && !taken.contains name then
      some (name, rest)
    else none
  | _, _ => none

def flagOf? : Char → Option Flag
  | 'i' => some .ignoreCase
  | 'm' => some .multiLine
  | 's' => some .dotAll
  | 'U' => some .swapGreed
  | 'u' => some .unicode
  | 'R' => some .anyLineEnd
  | 'x' => some .verbose
  | _ => none

/-- Flags up to a colon or a closing parenthesis, which is given back with them. Each flag may stand
    once, and one hyphen, behind which flags are cleared; a hyphen may not be last. -/
def readFlags (seen : FlagChanges) (clearing justCleared : Bool) :
    List Char → Option (FlagChanges × Char × List Char)
  | [] => none
  | c :: rest =>
    if c == ':' || c == ')' then
      if justCleared then none else some (seen.reverse, c, rest)
    else if c == '-' then
      if clearing then none else readFlags seen true true rest
    else do
      let flag ← flagOf? c
      if seen.any fun (other, _) => other == flag then none
      else readFlags ((flag, !clearing) :: seen) clearing false rest

/-- What follows an opening parenthesis: a group, or a setting of flags. -/
def readOpening (s : Reading) (text : List Char) : Option (Reading × List Char) :=
  let lookAround := ["?=", "?!", "?<=", "?<!"]
  if lookAround.any fun mark => mark.toList.isPrefixOf text then none
  else
    let named (rest : List Char) : Option (Reading × List Char) := do
      let (name, rest) ← readGroupName s.names rest
      some ({ s.openGroup (.capture s.next) with names := name :: s.names }, rest)
    match text with
    | '?' :: 'P' :: '<' :: rest => named rest
    | '?' :: '<' :: rest => named rest
    | '?' :: rest => do
      let (changes, mark, rest) ← readFlags [] false false rest
      if mark == ':' then some (s.openGroup (.plain changes), rest)
      else if changes.isEmpty then none
      else
        some ({ s.push (.flags changes) with
          verbose := Reading.verboseAfter s.verbose changes }, rest)
    | text => some (s.openGroup (.capture s.next), text)

/-! ## Patterns -/

/-- Read one construct at the head of a text. -/
def readPart (s : Reading) (c : Char) (rest : List Char) : Option (Reading × List Char) :=
  match c with
  | '(' => readOpening s (skip s.verbose rest)
  | ')' => s.closeGroup.map fun s => (s, rest)
  | '|' => some (s.branch, rest)
  | '*' => s.repeatLast 0 none rest
  | '+' => s.repeatLast 1 none rest
  | '?' => s.repeatLast 0 (some 1) rest
  | '\x7b' => do
    let ((least, most), rest) ← readBounds s.verbose rest
    s.repeatLast least most (skip s.verbose rest)
  | '[' => do
    let (negated, inner, rest) ← readBracket s.verbose rest
    some (s.push (.bracket negated inner), rest)
  | '\\' => do
    let (escape, rest) ← readEscape s.verbose rest
    match escape with
    | .char c => some (s.push (.char c), rest)
    | .named c => some (s.push (.named c), rest)
    | .anchor a => some (s.push (.anchor a), rest)
  | '.' => some (s.push .dot, rest)
  | '^' => some (s.push (.anchor .caret), rest)
  | '$' => some (s.push (.anchor .dollar), rest)
  | c => some (s.push (.char ⟨c, false⟩), rest)

/-- Read a whole text. The count bounds the constructs. -/
def readAll : Nat → Reading → List Char → Option Reading
  | 0, _, _ => none
  | n + 1, s, text =>
    match skip s.verbose text with
    | [] => some s
    | c :: rest => do
      let (s, rest) ← readPart s c rest
      readAll n s rest

/-- The tree of a pattern; `none` for a text that is no pattern. -/
def Tree.ofText? (text : List Char) : Option Tree := do
  let s ← readAll (text.length + 1) Reading.start text
  if s.outer.isEmpty then some s.current else none

end AccessControl.Regex
