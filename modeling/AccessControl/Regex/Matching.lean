import AccessControl.Regex.Basic

/-! # Matching

A match is searched for by following all ways through a text at once. A thread is one of these ways,
as far as it has come; a list of threads is in order of preference, and holds no two threads at one
place, because what can follow depends on the place alone. Hence the first thread in the end is the
match that is preferred: it starts leftmost, and then takes the left branch and the longer
repetition wherever that leads to a match. The few expressions for which this does not hold have a
search of their own.
-/

namespace AccessControl.Regex

/-- A way through a text, as far as it has come. -/
structure Thread where
  /-- The number of characters before the place. -/
  position : Nat
  /-- The character before the place. -/
  previous : Option Char
  /-- The characters behind the place. -/
  rest : List Char
  /-- Where groups were entered, latest first. -/
  entered : List (Nat × Nat)
  /-- The groups completed, with their ends, latest first. -/
  groups : List (Nat × Nat × Nat)

namespace Thread

/-- Take one character. -/
def advance (t : Thread) : Option (Char × Thread) :=
  match t.rest with
  | [] => none
  | c :: rest => some (c, { t with position := t.position + 1, previous := some c, rest })

def enter (index : Nat) (t : Thread) : Thread :=
  { t with entered := (index, t.position) :: t.entered }

def leave (index : Nat) (t : Thread) : Thread :=
  match t.entered.lookup index with
  | some start => { t with groups := (index, start, t.position) :: t.groups }
  | none => t

/-- The threads that begin at each place of a text. -/
def startsFrom (position : Nat) (previous : Option Char) : List Char → List Thread
  | [] => [⟨position, previous, [], [], []⟩]
  | c :: rest =>
    ⟨position, previous, c :: rest, [], []⟩ :: startsFrom (position + 1) (some c) rest

end Thread

/-- Whether a place lies to the words of a text as a boundary says. -/
def boundaryHolds (side : Boundary) (letters : WordLetters) (t : Thread) : Bool :=
  let before := t.previous.any letters.contains
  let behind := t.rest.head?.any letters.contains
  match side with
  | .either => before != behind
  | .neither => before == behind
  | .wordStart => !before && behind
  | .wordEnd => before && !behind
  | .startHalf => !before
  | .endHalf => !behind

def holds (a : Anchor) (t : Thread) : Bool :=
  match a with
  | .textStart => t.position == 0
  | .textEnd => t.rest.isEmpty
  | .lineStart => t.position == 0 || t.previous == some '\n'
  | .lineEnd => t.rest.isEmpty || t.rest.head? == some '\n'
  | .anyLineStart =>
    t.position == 0 || t.previous == some '\n' ||
      (t.previous == some '\r' && t.rest.head? != some '\n')
  | .anyLineEnd =>
    t.rest.isEmpty || t.rest.head? == some '\r' ||
      (t.rest.head? == some '\n' && t.previous != some '\r')
  | .boundary side letters => boundaryHolds side letters t

/-- Keep the first thread at each place. -/
def firsts (seen : List Nat) : List Thread → List Thread
  | [] => []
  | t :: rest =>
    if seen.contains t.position then firsts seen rest
    else t :: firsts (t.position :: seen) rest

/-- The places where a repetition has begun, and those where one turn of it has ended. -/
structure Turns where
  begun : List Nat
  ended : List Nat

/-- What follows the ends of one turn, in order: more turns, and the end itself. -/
def continueTurns (again : Turns → Thread → List Thread × Turns) (greedy : Bool) :
    Turns → List Thread → List Thread × Turns
  | seen, [] => ([], seen)
  | seen, t :: rest =>
    if seen.ended.contains t.position then continueTurns again greedy seen rest
    else
      let (more, seen) := again { seen with ended := t.position :: seen.ended } t
      let (others, seen) := continueTurns again greedy seen rest
      ((if greedy then more ++ [t] else t :: more) ++ others, seen)

/-- One or more turns of a repetition from a place. No place is begun at twice, since that would
    lead to nothing new; so the number of places bounds the turns. -/
def turns (body : List Thread → List Thread) (greedy : Bool) :
    Nat → Turns → Thread → List Thread × Turns
  | 0, seen, _ => ([], seen)
  | n + 1, seen, t =>
    if seen.begun.contains t.position then ([], seen)
    else
      continueTurns (turns body greedy n) greedy
        { seen with begun := t.position :: seen.begun } (body [t])

/-- One or more turns from each thread in order. -/
def oneOrMore (body : List Thread → List Thread) (greedy : Bool) :
    Turns → List Thread → List Thread
  | _, [] => []
  | seen, t :: rest =>
    let (found, seen) := turns body greedy (t.rest.length + 1) seen t
    found ++ oneOrMore body greedy seen rest

/-- Any number of turns from each thread in order. -/
def zeroOrMore (body : List Thread → List Thread) (greedy : Bool) :
    Turns → List Thread → List Thread
  | _, [] => []
  | seen, t :: rest =>
    let (found, seen) := turns body greedy (t.rest.length + 1) seen t
    (if greedy then found ++ [t] else t :: found) ++ zeroOrMore body greedy seen rest

/-- Handle threads in order, with a record of what was seen. -/
def inOrder (step : List (Nat × Nat) → Thread → List Thread × List (Nat × Nat)) :
    List (Nat × Nat) → List Thread → List Thread × List (Nat × Nat)
  | seen, [] => ([], seen)
  | seen, t :: rest =>
    let (found, seen) := step seen t
    let (others, seen) := inOrder step seen rest
    (found ++ others, seen)

/-- At most so many turns from a place. No place is begun at twice with the same number of turns
    left. -/
def atMost (body : List Thread → List Thread) (greedy : Bool) :
    Nat → List (Nat × Nat) → Thread → List Thread × List (Nat × Nat)
  | 0, seen, t => ([t], seen)
  | n + 1, seen, t =>
    if seen.contains (n, t.position) then ([], seen)
    else
      let (found, seen) :=
        inOrder (atMost body greedy n) ((n, t.position) :: seen) (body [t])
      (if greedy then found ++ [t] else t :: found, seen)

/-- Exactly so many turns. -/
def exactly (body : List Thread → List Thread) : Nat → List Thread → List Thread
  | 0, threads => threads
  | n + 1, threads => exactly body n (body threads)

/-- Carry threads through an expression. -/
def run : Regex → List Thread → List Thread
  | .empty, threads => threads
  | .set s, threads =>
    threads.filterMap fun t =>
      t.advance.bind fun (c, next) => if s.contains c then some next else none
  | .anchor a, threads => threads.filter (holds a)
  | .cat a b, threads => b.run (a.run threads)
  | .alt a b, threads => firsts [] (threads.flatMap fun t => a.run [t] ++ b.run [t])
  | .group none a, threads => a.run threads
  | .group (some index) a, threads =>
    (a.run (threads.map (·.enter index))).map (·.leave index)
  | .rep a least none greedy, threads =>
    match least with
    | 0 => firsts [] (zeroOrMore a.run greedy ⟨[], []⟩ threads)
    | least + 1 => oneOrMore a.run greedy ⟨[], []⟩ (exactly a.run least threads)
  | .rep a least (some most) greedy, threads =>
    let begun := exactly a.run least threads
    firsts [] (inOrder (atMost a.run greedy (most - least)) [] begun).1

def isMatch (r : Regex) (text : List Char) : Bool :=
  !(r.run (Thread.startsFrom 0 none text)).isEmpty

end AccessControl.Regex
