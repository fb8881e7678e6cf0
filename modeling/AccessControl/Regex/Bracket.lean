import AccessControl.Regex.Escape

/-! # Classes in brackets

A bracket holds characters, ranges, named classes and further brackets, and may combine parts by
operators of two equal signs. All operators bind alike, and from the left.
-/

namespace AccessControl.Regex

/-! ## Classes between colons -/

/-- The sets that a bracket may name between colons; they are ASCII sets. -/
def asciiClass? (name : String) : Option CodePointSet :=
  match name with
  | "alnum" => some (.ofLines ["30-39 41-5A 61-7A"])
  | "alpha" => some (.ofLines ["41-5A 61-7A"])
  | "ascii" => some (.ofLines ["0-7F"])
  | "blank" => some (.ofLines ["9 20"])
  | "cntrl" => some (.ofLines ["0-1F 7F"])
  | "digit" => some (.ofLines ["30-39"])
  | "graph" => some (.ofLines ["21-7E"])
  | "lower" => some (.ofLines ["61-7A"])
  | "print" => some (.ofLines ["20-7E"])
  | "punct" => some (.ofLines ["21-2F 3A-40 5B-60 7B-7E"])
  | "space" => some (.ofLines ["9-D 20"])
  | "upper" => some (.ofLines ["41-5A"])
  | "word" => some (.ofLines ["30-39 41-5A 5F 61-7A"])
  | "xdigit" => some (.ofLines ["30-39 41-46 61-66"])
  | _ => none

/-- A named class behind an opening bracket, if there is one. -/
def readAsciiClass? (text : List Char) : Option (ClassTree × List Char) :=
  match text with
  | ':' :: rest =>
    let (negated, rest) := match rest with
      | '^' :: rest => (true, rest)
      | rest => (false, rest)
    let name := rest.takeWhile (· != ':')
    match rest.drop name.length with
    | ':' :: ']' :: rest =>
      (asciiClass? (String.ofList name)).map fun members => (.ascii members negated, rest)
    | _ => none
  | _ => none

/-! ## Items -/

/-- One item of a class: a character or an escape. -/
def readClassItem (verbose : Bool) : List Char → Option (Escape × List Char)
  | [] => none
  | '\\' :: rest => readEscape verbose rest
  | c :: rest => some (.char ⟨c, false⟩, rest)

def itemOf? : Escape → Option ClassTree
  | .char c => some (.char c)
  | .named c => some (.named c)
  | .anchor _ => none

/-- The character behind a hyphen that decides whether the hyphen makes a range. In verbose patterns
    blanks are passed over, and one number sign, but not the comment that it begins. -/
def behindHyphen (verbose : Bool) (text : List Char) : Option Char :=
  if verbose then
    let beyond := match text.dropWhile Text.isBlank with
      | '#' :: rest => rest.dropWhile Text.isBlank
      | rest => rest
    beyond.head?.or text.head?
  else text.head?

/-- A range or a single item of a class. -/
def readClassRange (verbose : Bool) (text : List Char) : Option (ClassTree × List Char) := do
  let (first, rest) ← readClassItem verbose text
  match skip verbose rest with
  | '-' :: after =>
    let sign := behindHyphen verbose after
    if sign == some ']' || sign == some '-' then
      (itemOf? first).map fun item => (item, '-' :: after)
    else do
      let (last, rest) ← readClassItem verbose (skip verbose after)
      match first, last with
      | .char low, .char high =>
        if low.char ≤ high.char then some (.range low high, rest) else none
      | _, _ => none
  | rest => (itemOf? first).map fun item => (item, rest)

/-! ## Brackets -/

/-- The operator that a doubled sign stands for. -/
def setOperator? : Char → Option SetOperator
  | '&' => some .inter
  | '-' => some .diff
  | '~' => some .symmetricDiff
  | _ => none

/-- What waits for the rest of a class. -/
inductive PendingClass where
  /-- A bracket that was opened behind these items. -/
  | bracket (outer : ClassTree) (negated : Bool)
  | operator (op : SetOperator) (left : ClassTree)

/-- Combine items with the operator that waits for them. -/
def applyOperator (items : ClassTree) : List PendingClass → ClassTree × List PendingClass
  | .operator op left :: stack => (.combine op left items, stack)
  | stack => (items, stack)

/-- The hyphens that begin a class, as themselves. -/
def leadingHyphens (verbose inComment : Bool) (items : ClassTree) :
    List Char → ClassTree × List Char
  | [] => (items, [])
  | c :: rest =>
    if inComment then leadingHyphens verbose (c != '\n') items rest
    else if c == '-' then leadingHyphens verbose false (items.add (.char ⟨c, false⟩)) rest
    else if verbose && c == '#' then leadingHyphens verbose true items rest
    else if verbose && Text.isBlank c then leadingHyphens verbose false items rest
    else (items, c :: rest)

/-- The head of a class behind its bracket: a negation, hyphens, and a closing bracket that stands
    for itself. -/
def openClass (verbose : Bool) (text : List Char) : Bool × ClassTree × List Char :=
  let (negated, text) := match skip verbose text with
    | '^' :: rest => (true, rest)
    | text => (false, text)
  match leadingHyphens verbose false .empty text with
  | (.empty, ']' :: rest) => (negated, .char ⟨']', false⟩, rest)
  | (items, rest) => (negated, items, rest)

/-- The rest of a class with the items so far. The count bounds the items. -/
def readClass (verbose : Bool) : Nat → List PendingClass → ClassTree → List Char →
    Option (Bool × ClassTree × List Char)
  | 0, _, _, _ => none
  | n + 1, stack, items, text =>
    match skip verbose text with
    | [] => none
    | '[' :: rest =>
      match readAsciiClass? rest with
      | some (item, rest) => readClass verbose n stack (items.add item) rest
      | none =>
        let (negated, inner, rest) := openClass verbose rest
        readClass verbose n (.bracket items negated :: stack) inner rest
    | ']' :: rest =>
      let (inner, stack) := applyOperator items stack
      match stack with
      | [.bracket _ negated] => some (negated, inner, rest)
      | .bracket outer negated :: stack =>
        readClass verbose n stack (outer.add (.bracket negated inner)) rest
      | _ => none
    | c :: rest =>
      let op := if rest.head? == some c then setOperator? c else none
      match op with
      | some op =>
        let (left, stack) := applyOperator items stack
        readClass verbose n (.operator op left :: stack) .empty (rest.drop 1)
      | none => do
        let (item, rest) ← readClassRange verbose (c :: rest)
        readClass verbose n stack (items.add item) rest

/-- A class behind its opening bracket: whether it is negated, and what is in it. -/
def readBracket (verbose : Bool) (text : List Char) : Option (Bool × ClassTree × List Char) :=
  let (negated, items, rest) := openClass verbose text
  readClass verbose (text.length + 1) [.bracket .empty negated] items rest

end AccessControl.Regex
