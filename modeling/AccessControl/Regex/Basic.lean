import AccessControl.Text.Classes

/-! # Regular expressions -/

namespace AccessControl

/-- Which characters make up words. -/
inductive WordLetters where
  | ascii
  | any
  deriving DecidableEq, Repr

def WordLetters.contains : WordLetters → Char → Bool
  | .ascii, c => c.isAlphanum || c == '_'
  | .any, c => Text.isWordChar c

/-- How a place lies to the words of a text. -/
inductive Boundary where
  /-- Where a word starts or ends. -/
  | either
  | neither
  | wordStart
  | wordEnd
  /-- Where no word is before the place. -/
  | startHalf
  /-- Where no word is behind the place. -/
  | endHalf
  deriving DecidableEq, Repr

/-- A condition on a place in a text, which consumes nothing. -/
inductive Anchor where
  | textStart
  | textEnd
  | lineStart
  | lineEnd
  /-- Line ends may be a carriage return, a newline, or both. -/
  | anyLineStart
  | anyLineEnd
  | boundary (side : Boundary) (letters : WordLetters)
  deriving DecidableEq, Repr

inductive Regex where
  | empty
  /-- One character of a set. -/
  | set (s : CodePointSet)
  | anchor (a : Anchor)
  | cat (a b : Regex)
  /-- The left side is preferred. A chain of alternatives leans to the right. -/
  | alt (a b : Regex)
  /-- At least `least` and at most `most` times; a greedy repetition prefers more. -/
  | rep (a : Regex) (least : Nat) (most : Option Nat) (greedy : Bool)
  /-- A group, whose text is remembered if it has a number. -/
  | group (index : Option Nat) (a : Regex)

namespace Regex

/-- Whether an expression can match nothing but the empty text, and says so in its form. -/
def onlyEmpty : Regex → Bool
  | .empty => true
  | .set _ => false
  | .anchor _ => true
  | .cat a b => a.onlyEmpty && b.onlyEmpty
  | .alt a b => a.onlyEmpty && b.onlyEmpty
  | .rep a _ _ _ => a.onlyEmpty
  | .group _ a => a.onlyEmpty

/-- A repetition in its simplest form. One turn of what is always empty does as well as many; no
    turn is the empty expression, and one turn is the expression itself. -/
def repeated (a : Regex) (least : Nat) (most : Option Nat) (greedy : Bool) : Regex :=
  let (least, most) :=
    if a.onlyEmpty then (min least 1, some (min (most.getD 1) 1)) else (least, most)
  match least, most with
  | 0, some 0 => .empty
  | 1, some 1 => a
  | least, most => .rep a least most greedy

end Regex

end AccessControl
