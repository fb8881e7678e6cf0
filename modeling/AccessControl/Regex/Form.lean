import AccessControl.Regex.Basic

/-! # Simplified expressions

How much room an expression takes is counted on a simplified form of it. Characters in a row are one
text, alternatives of single characters are a set, and what all alternatives begin with is taken out
of them.
-/

namespace AccessControl.Regex

/-- A simplified expression. -/
inductive Form where
  | empty
  | text (chars : List Char)
  | set (s : CodePointSet)
  | anchor (a : Anchor)
  | rep (a : Form) (least : Nat) (most : Option Nat) (greedy : Bool)
  | group (index : Nat) (a : Form)
  /-- Parts in a row; the left one is neither empty nor a row. -/
  | cat (a rest : Form)
  /-- Alternatives; the left one has no alternatives. -/
  | alt (a rest : Form)
  deriving DecidableEq, Repr

namespace Form

def ofSet (s : CodePointSet) : Form :=
  match s.only? with
  | some c => .text [c]
  | none => .set s

/-! ## Rows -/

def parts : Form → List Form
  | .empty => []
  | .cat a rest => a :: rest.parts
  | a => [a]

def row (parts : List Form) : Form :=
  match parts with
  | [] => .empty
  | [a] => a
  | a :: rest => .cat a (row rest)

/-- Join texts that stand side by side. -/
def joinTexts : List Form → List Form
  | [] => []
  | .text chars :: rest =>
    match joinTexts rest with
    | .text more :: rest => .text (chars ++ more) :: rest
    | rest => .text chars :: rest
  | a :: rest => a :: joinTexts rest

def concat (forms : List Form) : Form := row (joinTexts (forms.flatMap parts))

/-! ## Alternatives -/

def branches : Form → List Form
  | .alt a rest => a :: rest.branches
  | a => [a]

def choice (branches : List Form) : Form :=
  match branches with
  | [] => .set .empty
  | [a] => a
  | a :: rest => .alt a (choice rest)

def char? : Form → Option Char
  | .text [c] => some c
  | _ => none

def set? : Form → Option CodePointSet
  | .set s => some s
  | _ => none

/-- What alternatives have in common at their beginning, as rows of at least two parts. -/
def commonParts : List (List Form) → List Form
  | [] => []
  | [row] => if row.length < 2 then [] else row
  | row :: rest =>
    if row.length < 2 then []
    else ((row.zip (commonParts rest)).takeWhile fun (a, b) => a == b).map (·.1)

/-- Alternatives in one set if they are all single characters, or all sets. -/
def merged? (branches : List Form) : Option Form :=
  match branches.mapM char? with
  | some chars => some (ofSet (.ofList chars))
  | none => (branches.mapM set?).map fun sets => ofSet (.unionOf sets)

def alternation (forms : List Form) : Form :=
  match forms.flatMap branches with
  | [a] => a
  | all =>
    (merged? all).getD (
      let common := commonParts (all.map parts)
      if common.isEmpty then choice all
      else
        let ends := (all.map fun a => concat (a.parts.drop common.length)).flatMap branches
        concat (common ++ [(merged? ends).getD (choice ends)]))

/-! ## Lengths -/

/-- The least number of bytes that are matched, unless nothing can be. -/
def minLength : Form → Option Nat
  | .empty => some 0
  | .text chars => some (chars.foldl (fun n c => n + c.utf8Size) 0)
  | .set s => s.ranges.head?.map fun (low, _) => (Char.ofNat low).utf8Size
  | .anchor _ => some 0
  | .rep a least _ _ => a.minLength.map (· * least)
  | .group _ a => a.minLength
  | .cat a rest => do some ((← a.minLength) + (← rest.minLength))
  | .alt a rest => do some (min (← a.minLength) (← rest.minLength))

def consumesNothing : Form → Bool
  | .empty => true
  | .text _ => false
  | .set _ => false
  | .anchor _ => true
  | .rep a _ _ _ => a.consumesNothing
  | .group _ a => a.consumesNothing
  | .cat a rest => a.consumesNothing && rest.consumesNothing
  | .alt a rest => a.consumesNothing && rest.consumesNothing

/-- Whether all matches begin where the text does. -/
def fromStart : Form → Bool
  | .anchor a => a = .textStart
  | .rep a least _ _ => 0 < least && a.fromStart
  | .group _ a => a.fromStart
  | .cat a rest => a.fromStart || (a.consumesNothing && rest.fromStart)
  | .alt a rest => a.fromStart && rest.fromStart
  | _ => false

/-- Whether all matches end where the text does. -/
def toEnd : Form → Bool
  | .anchor a => a = .textEnd
  | .rep a least _ _ => 0 < least && a.toEnd
  | .group _ a => a.toEnd
  | .cat a rest => rest.toEnd || (rest.consumesNothing && a.toEnd)
  | .alt a rest => a.toEnd && rest.toEnd
  | _ => false

end Form

/-- The alternatives of an expression in simplified form. -/
def branchForms : Regex → List Form
  | .empty => [.empty]
  | .set s => [.ofSet s]
  | .anchor a => [.anchor a]
  | .cat a b => [.concat [.alternation a.branchForms, .alternation b.branchForms]]
  | .alt a b => .alternation a.branchForms :: b.branchForms
  | .rep a least most greedy => [.rep (.alternation a.branchForms) least most greedy]
  | .group (some index) a => [.group index (.alternation a.branchForms)]
  | .group none a => [.alternation a.branchForms]

def form (r : Regex) : Form := .alternation r.branchForms

end AccessControl.Regex
