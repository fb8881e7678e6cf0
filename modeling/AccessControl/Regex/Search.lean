import AccessControl.Regex.Matching

/-! # Searching one way at a time

A list of threads tells which match is preferred as long as no repetition can come back, without
having consumed anything, to a choice whose preferred side it is still trying. That can happen where
the preferred side of a choice within a repetition consumes nothing. Then ways are tried one after
another: a choice that was begun at a place is not begun there again, so that what is left of it
belongs to the way that began it.
-/

namespace AccessControl.Regex

/-! ## Where lists of threads do not tell -/

/-- Whether an expression can match the empty text. -/
def nullable : Regex → Bool
  | .empty => true
  | .set _ => false
  | .anchor _ => true
  | .cat a b => a.nullable && b.nullable
  | .alt a b => a.nullable || b.nullable
  | .rep a least _ _ => least == 0 || a.nullable
  | .group _ a => a.nullable

/-- Whether there is a choice whose preferred side may consume nothing. -/
def reluctant : Regex → Bool
  | .cat a b => a.reluctant || b.reluctant
  | .alt a b => a.nullable || a.reluctant || b.reluctant
  | .rep a _ _ greedy => !greedy || a.reluctant
  | .group _ a => a.reluctant
  | _ => false

/-- Whether there is such a choice within a repetition. -/
def repeatsReluctantly : Regex → Bool
  | .cat a b => a.repeatsReluctantly || b.repeatsReluctantly
  | .alt a b => a.repeatsReluctantly || b.repeatsReluctantly
  | .rep a _ _ _ => a.reluctant || a.repeatsReluctantly
  | .group _ a => a.repeatsReluctantly
  | _ => false

/-! ## Searching -/

/-- The choices begun so far: where they stand in the expression, and at which place of the text. -/
abbrev Begun := List (List Nat × Nat)

/-- Go on from a thread: the match found, if any, and the choices begun. -/
abbrev Way := Thread → Begun → Option Thread × Begun

/-- Try the first way, and the other one if it leads nowhere. -/
def eitherWay (first second : Way) : Way := fun t begun =>
  match first t begun with
  | (some found, begun) => (some found, begun)
  | (none, begun) => second t begun

/-- Try two ways, the first one preferred, unless that was begun at the place before. -/
def choose (label : List Nat) (first second : Way) : Way := fun t begun =>
  if begun.contains (label, t.position) then (none, begun)
  else eitherWay first second t ((label, t.position) :: begun)

/-- Another turn or the way behind, in the order that is preferred. -/
def turnOr (label : List Nat) (greedy : Bool) (turn behind : Way) : Way :=
  if greedy then choose label turn behind else choose label behind turn

/-- Any number of turns. No place is begun at twice, so the number of places bounds the turns. -/
def anyTurns (label : List Nat) (greedy : Bool) (turn : Way → Way) (behind : Way) : Nat → Way
  | 0, _, begun => (none, begun)
  | n + 1, t, begun =>
    turnOr label greedy (turn (anyTurns label greedy turn behind n)) behind t begun

/-- So many turns, each under a number of its own. -/
def countedTurns (turn : Nat → Way → Way) (behind : Way) : Nat → Way
  | 0, t, begun => behind t begun
  | n + 1, t, begun => turn n (countedTurns turn behind n) t begun

/-- At most so many turns, each under a number of its own. -/
def optionalTurns (label : List Nat) (greedy : Bool) (turn : Nat → Way → Way) (behind : Way) :
    Nat → Way
  | 0, t, begun => behind t begun
  | n + 1, t, begun =>
    turnOr (n :: label) greedy (turn n (optionalTurns label greedy turn behind n)) behind t begun

/-- Go through an expression and on from its end. The label tells where the expression stands. -/
def search : Regex → List Nat → Way → Way
  | .empty, _, behind => behind
  | .set s, _, behind => fun t begun =>
    match t.advance with
    | some (c, next) => if s.contains c then behind next begun else (none, begun)
    | none => (none, begun)
  | .anchor a, _, behind => fun t begun => if holds a t then behind t begun else (none, begun)
  | .cat a b, label, behind => a.search (0 :: label) (b.search (1 :: label) behind)
  | .alt a b, label, behind =>
    choose label (a.search (0 :: label) behind) (b.search (1 :: label) behind)
  | .group none a, label, behind => a.search (0 :: label) behind
  | .group (some index) a, label, behind => fun t begun =>
    a.search (0 :: label) (fun t begun => behind (t.leave index) begun) (t.enter index) begun
  | .rep a least none greedy, label, behind => fun t begun =>
    let turn := a.search (0 :: label)
    let more := anyTurns (0 :: label) greedy turn behind (t.rest.length + 1)
    match least with
    | 0 =>
      if a.nullable then turnOr (1 :: label) greedy (turn more) behind t begun
      else more t begun
    | least + 1 =>
      countedTurns (fun n => a.search (n :: 2 :: label)) (turn more) least t begun
  | .rep a least (some most) greedy, label, behind =>
    countedTurns (fun n => a.search (n :: 0 :: label))
      (optionalTurns (2 :: label) greedy (fun n => a.search (n :: 1 :: label)) behind
        (most - least)) least

/-- The first match on the ways from the starts in order. -/
def searchFrom (r : Regex) : List Thread → Begun → Option Thread
  | [], _ => none
  | t :: rest, begun =>
    match r.search [] (fun t begun => (some t, begun)) t begun with
    | (some found, _) => some found
    | (none, begun) => r.searchFrom rest begun

/-- The preferred match in a text, as the thread that has come to its end. -/
def find? (r : Regex) (text : List Char) : Option Thread :=
  let starts := Thread.startsFrom 0 none text
  if r.repeatsReluctantly then r.searchFrom starts [] else (r.run starts).head?

/-- The text of a group in a match. -/
def groupText? (text : List Char) (found : Thread) (index : Nat) : Option (List Char) :=
  (found.groups.lookup index).map fun (start, stop) => (text.take stop).drop start

end AccessControl.Regex
