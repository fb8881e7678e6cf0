import AccessControl.Regex.Basic

/-! # Expressions as they are written

What the text of a pattern says before flags give it a meaning: the same letter stands for one
character or for all its case variants, depending on the flags that are set where it stands.
-/

namespace AccessControl.Regex

inductive Flag where
  | ignoreCase
  | multiLine
  | dotAll
  | swapGreed
  | unicode
  | anyLineEnd
  | verbose
  deriving DecidableEq, Repr

/-- Flags that are set or cleared. -/
abbrev FlagChanges := List (Flag × Bool)

/-- A character with the way in which it is written. -/
structure WrittenChar where
  char : Char
  /-- Written by its code in two digits, which means a byte where text is not Unicode. -/
  isByte : Bool
  deriving DecidableEq, Repr

/-- The classes that have a letter of their own. -/
inductive LetterClass where
  | digit
  | blank
  | word
  deriving DecidableEq, Repr

/-- A class of characters with a name. -/
inductive NamedClass where
  | letter (kind : LetterClass) (negated : Bool)
  | property (members : CodePointSet) (negated : Bool)
  deriving DecidableEq, Repr

/-- An operator between the parts of a bracket. -/
inductive SetOperator where
  | inter
  | diff
  | symmetricDiff
  deriving DecidableEq, Repr

/-- The inside of a bracket. -/
inductive ClassTree where
  | empty
  | char (c : WrittenChar)
  | range (low high : WrittenChar)
  /-- One of the ASCII classes that are named between colons. -/
  | ascii (members : CodePointSet) (negated : Bool)
  | named (c : NamedClass)
  | bracket (negated : Bool) (inner : ClassTree)
  /-- Several items; the right one is a single item. -/
  | union (items item : ClassTree)
  | combine (op : SetOperator) (left right : ClassTree)
  deriving DecidableEq, Repr

namespace ClassTree

def add (items item : ClassTree) : ClassTree :=
  match items with
  | .empty => item
  | items => .union items item

/-- How deep the tree is. Items side by side make up one level. -/
def depth (inUnion : Bool) : ClassTree → Nat
  | .bracket _ inner => 1 + inner.depth false
  | .union items item =>
    (if inUnion then 0 else 1) + max (items.depth true) (item.depth false)
  | .combine _ left right => 1 + max (left.depth false) (right.depth false)
  | _ => 0

end ClassTree

/-- Which word boundary, line end or text end is meant. -/
inductive WrittenAnchor where
  | caret
  | dollar
  | textStart
  | textEnd
  | boundary (side : Boundary)
  deriving DecidableEq, Repr

inductive Tree where
  | empty
  /-- A setting of flags for what follows in the same group. -/
  | flags (changes : FlagChanges)
  | char (c : WrittenChar)
  | dot
  | anchor (a : WrittenAnchor)
  | named (c : NamedClass)
  | bracket (negated : Bool) (inner : ClassTree)
  | rep (a : Tree) (least : Nat) (most : Option Nat) (greedy : Bool)
  /-- A group whose text is remembered under a number. -/
  | capture (index : Nat) (a : Tree)
  /-- A group with flags of its own. -/
  | group (changes : FlagChanges) (a : Tree)
  /-- What stands side by side; the left one is a single part. -/
  | cat (a rest : Tree)
  /-- Alternatives; the left one is a single branch. -/
  | alt (a rest : Tree)
  deriving DecidableEq, Repr

namespace Tree

def catOf (parts : List Tree) : Tree :=
  match parts with
  | [] => .empty
  | [a] => a
  | a :: rest => .cat a (catOf rest)

def altOf (branches : List Tree) : Tree :=
  match branches with
  | [] => .empty
  | [a] => a
  | a :: rest => .alt a (altOf rest)

/-- What a tree is the tail of. -/
inductive Chain where
  | none
  | cat
  | alt
  deriving DecidableEq, Repr

/-- How deep the tree is. Parts side by side make up one level, and so do alternatives. -/
def depth (chain : Chain) : Tree → Nat
  | .bracket _ inner => 1 + inner.depth false
  | .rep a _ _ _ => 1 + a.depth .none
  | .capture _ a => 1 + a.depth .none
  | .group _ a => 1 + a.depth .none
  | .cat a rest => (if chain = .cat then 0 else 1) + max (a.depth .none) (rest.depth .cat)
  | .alt a rest => (if chain = .alt then 0 else 1) + max (a.depth .none) (rest.depth .alt)
  | _ => 0

/-- Trees that are deeper than this are refused. -/
def depthLimit : Nat := 250

end Tree

end AccessControl.Regex
