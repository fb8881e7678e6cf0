import AccessControl.Text.Utf8

/-! # Glob patterns

A pattern matches bytes. A star matches within one part of a path and a double star, standing as a
whole part, across parts; a question mark and a class take one byte; braces hold alternatives.
-/

namespace AccessControl

/-- One element of a glob pattern. -/
inductive GlobPart where
  | literal (c : Char)
  /-- One byte that is no separator. -/
  | anyByte
  /-- Bytes that are no separators. -/
  | star
  /-- A double star at the beginning: nothing, or whole parts of a path. -/
  | leadingParts
  /-- A double star at the end: a separator and anything. -/
  | trailingParts
  /-- A double star inside: separators with whole parts between them. -/
  | innerParts
  | byteClass (negated : Bool) (ranges : List (Char × Char))
  | alternatives (branches : List (List GlobPart))

namespace Glob

def separator : Char := '/'

/-! ## Reading -/

/-- What the reader of a pattern has so far. -/
structure Reading where
  /-- The parts of the current branch, in reverse. -/
  parts : List GlobPart
  /-- For each open brace, innermost first: the branches before the current one, in reverse, and the
      parts before the brace. -/
  outer : List (List (List GlobPart) × List GlobPart)

namespace Reading

def push (s : Reading) (p : GlobPart) : Reading := { s with parts := p :: s.parts }

def openBrace (s : Reading) : Reading := ⟨[], ([], s.parts) :: s.outer⟩

def nextBranch (s : Reading) : Reading :=
  match s.outer with
  | [] => s.push (.literal ',')
  | (branches, before) :: outer => ⟨[], (s.parts.reverse :: branches, before) :: outer⟩

def closeBrace (s : Reading) : Option Reading :=
  match s.outer with
  | [] => none
  | (branches, before) :: outer =>
    some ⟨.alternatives (s.parts.reverse :: branches).reverse :: before, outer⟩

/-- Two stars that do not stand as a whole part. -/
def twoStars (s : Reading) : Reading := (s.push .star).push .star

end Reading

/-- Whether a text goes on with a separator or ends. -/
def atSeparator (text : List Char) : Bool := text.isEmpty || text.head? == some separator

/-- Read what follows two stars, given the character before them. -/
def readDoubleStar (s : Reading) (previous : Option Char) (rest : List Char) :
    Reading × List Char :=
  if s.parts.isEmpty then
    if atSeparator rest then (s.push .leadingParts, rest.drop 1) else (s.twoStars, rest)
  else if previous != some separator &&
      (s.outer.isEmpty || (previous != some ',' && previous != some '\x7b')) then
    (s.twoStars, rest)
  else
    let replaceLast (inside : Bool) : Reading :=
      match s.parts with
      | .leadingParts :: _ => s
      | .trailingParts :: _ => s
      | _ :: before =>
        { s with parts := (if inside then .innerParts else .trailingParts) :: before }
      | [] => s
    match rest with
    | [] => (replaceLast false, [])
    | c :: after =>
      if (c == ',' || c == '\x7d') && !s.outer.isEmpty then (replaceLast false, rest)
      else if c == separator then (replaceLast true, after)
      else (s.twoStars, rest)

/-- The rest of a class with its ranges so far, latest first. `pending` says that a hyphen waits for
    the end of a range. -/
def readClass (negated first pending : Bool) (ranges : List (Char × Char)) :
    List Char → Option (GlobPart × List Char)
  | [] => none
  | c :: rest =>
    if c == ']' && !first then
      let ranges := if pending then ('-', '-') :: ranges else ranges
      some (.byteClass negated ranges.reverse, rest)
    else if c == '-' && !first && !pending then readClass negated false true ranges rest
    else if pending then
      match ranges with
      | (low, _) :: before =>
        if low ≤ c then readClass negated false false ((low, c) :: before) rest else none
      | [] => none
    else readClass negated false false ((c, c) :: ranges) rest

/-- Read one element; the character before it matters to a double star. -/
def readPart (s : Reading) (previous : Option Char) (c : Char) (rest : List Char) :
    Option (Reading × List Char) :=
  match c with
  | '?' => some (s.push .anyByte, rest)
  | '*' =>
    match rest with
    | '*' :: rest => some (readDoubleStar s previous rest)
    | rest => some (s.push .star, rest)
  | '[' =>
    let (negated, rest) := match rest with
      | '!' :: rest => (true, rest)
      | '^' :: rest => (true, rest)
      | rest => (false, rest)
    (readClass negated true false [] rest).map fun (p, rest) => (s.push p, rest)
  | '\x7b' => some (s.openBrace, rest)
  | '\x7d' => s.closeBrace.map fun s => (s, rest)
  | ',' => some (s.nextBranch, rest)
  | '\\' =>
    match rest with
    | c :: rest => some (s.push (.literal c), rest)
    | [] => none
  | c => some (s.push (.literal c), rest)

/-- Read a whole text. The count bounds the elements. -/
def readAll : Nat → Reading → Option Char → List Char → Option Reading
  | 0, _, _, _ => none
  | _ + 1, s, _, [] => some s
  | n + 1, s, previous, c :: rest => do
    let (s, after) ← readPart s previous c rest
    let taken := (c :: rest).take (rest.length + 1 - after.length)
    readAll n s taken.getLast? after

/-- The parts of a pattern; `none` for a text that is no pattern. -/
def parse (text : List Char) : Option (List GlobPart) := do
  let s ← readAll (text.length + 1) ⟨[], []⟩ none text
  if s.outer.isEmpty then some s.parts.reverse else none

/-! ## Matching -/

def separatorByte : UInt8 := 0x2F

/-- The ranges of bytes of a range of characters: the bytes of both ends, and what lies between the
    last byte of the first and the first byte of the last. -/
def byteRanges (range : Char × Char) : List (UInt8 × UInt8) :=
  let low := String.utf8EncodeChar range.1
  let high := String.utf8EncodeChar range.2
  if range.1 == range.2 then low.map fun b => (b, b)
  else
    low.dropLast.map (fun b => (b, b)) ++ [(low.getLast?.getD 0, high.head?.getD 0)] ++
      (high.drop 1).map fun b => (b, b)

def classContains (negated : Bool) (ranges : List (Char × Char)) (b : UInt8) : Bool :=
  ((ranges.flatMap byteRanges).any fun (low, high) => low ≤ b && b ≤ high) != negated

/-- The rests of a text from each of its places on, the whole text first. -/
def suffixes : List UInt8 → List (List UInt8)
  | [] => [[]]
  | b :: rest => (b :: rest) :: suffixes rest

/-- The rests of a text behind each run of bytes that are no separators. -/
def withinPart : List UInt8 → List (List UInt8)
  | [] => [[]]
  | b :: rest => (b :: rest) :: if b == separatorByte then [] else withinPart rest

/-- The rests of a text behind each separator. -/
def behindSeparators (text : List UInt8) : List (List UInt8) :=
  (suffixes text).filterMap fun rest =>
    match rest with
    | b :: rest => if b == separatorByte then some rest else none
    | [] => none

/-- Rests of one text, each length once. -/
def distinct (rests : List (List UInt8)) : List (List UInt8) :=
  rests.foldr (fun rest kept =>
    if kept.any (·.length == rest.length) then kept else rest :: kept) []

/-- Drop the bytes of a text from the head of another. -/
def dropBytes? : List UInt8 → List UInt8 → Option (List UInt8)
  | [], text => some text
  | b :: bs, c :: rest => if b == c then dropBytes? bs rest else none
  | _ :: _, [] => none

mutual

/-- Whether an element takes no byte of any text: alternatives without a branch that takes one. -/
def takesNothing : GlobPart → Bool
  | .alternatives branches => branchesTakeNothing branches
  | _ => false

def branchesTakeNothing : List (List GlobPart) → Bool
  | [] => true
  | branch :: others => partsTakeNothing branch && branchesTakeNothing others

def partsTakeNothing : List GlobPart → Bool
  | [] => true
  | p :: others => takesNothing p && partsTakeNothing others

end

mutual

/-- The rests of a text that an element leaves. -/
def partRests : GlobPart → List UInt8 → List (List UInt8)
  | .literal c, text => (dropBytes? (String.utf8EncodeChar c) text).toList
  | .anyByte, text =>
    match text with
    | b :: rest => if b == separatorByte then [] else [rest]
    | [] => []
  | .star, text => withinPart text
  | .leadingParts, text => distinct (text :: behindSeparators text)
  | .trailingParts, text =>
    match text with
    | b :: rest => if b == separatorByte then suffixes rest else []
    | [] => []
  | .innerParts, text =>
    match text with
    | b :: rest => if b == separatorByte then rest :: behindSeparators rest else []
    | [] => []
  | .byteClass negated ranges, text =>
    match text with
    | b :: rest => if classContains negated ranges b then [rest] else []
    | [] => []
  | .alternatives branches, text =>
    if branchesTakeNothing branches then [text] else branchRests branches text

/-- The rests that the branches leave; a branch that takes nothing is left out. -/
def branchRests : List (List GlobPart) → List UInt8 → List (List UInt8)
  | [], _ => []
  | branch :: others, text =>
    (if partsTakeNothing branch then [] else partsRests branch [text]) ++ branchRests others text

/-- The rests that a sequence of elements leaves of the given ones. -/
def partsRests : List GlobPart → List (List UInt8) → List (List UInt8)
  | [], rests => rests
  | p :: others, rests => partsRests others (distinct (rests.flatMap (partRests p)))

end

def isMatch (parts : List GlobPart) (text : List UInt8) : Bool :=
  match parts with
  | [.leadingParts] => true
  | parts => (partsRests parts [text]).any List.isEmpty

end Glob

end AccessControl
