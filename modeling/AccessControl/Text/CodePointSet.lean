/-! # Sets of characters given by ranges

A set of characters is held as its ranges of code points, in ascending order and apart from each
other. Tables of character properties are written as lines of hexadecimal ranges, such as
`41-5A AA 100-12E/2`, where the last word stands for every second code point of its range.
-/

namespace AccessControl

/-- A set of characters, as inclusive ranges of code points. -/
structure CodePointSet where
  ranges : List (Nat × Nat)
  deriving DecidableEq, Repr

namespace CodePointSet

def contains (s : CodePointSet) (c : Char) : Bool :=
  s.ranges.any fun (low, high) => low ≤ c.toNat && c.toNat ≤ high

/-! ## The order of characters

Surrogates are no characters, so that U+E000 follows U+D7FF.
-/

def lastCode : Nat := 0x10FFFF

/-- The code point of the next character. -/
def next (n : Nat) : Nat := if n == 0xD7FF then 0xE000 else n + 1

/-- The code point of the character before. -/
def previous (n : Nat) : Nat := if n == 0xE000 then 0xD7FF else n - 1

/-! ## Building sets -/

def empty : CodePointSet := ⟨[]⟩

def full : CodePointSet := ⟨[(0, lastCode)]⟩

def ofRange (low high : Char) : CodePointSet := ⟨[(low.toNat, high.toNat)]⟩

def single (c : Char) : CodePointSet := ofRange c c

/-- The value of an upper-case hexadecimal numeral. -/
def hexValue (digits : List Char) : Nat :=
  let digit (c : Char) : Nat :=
    if c.isDigit then c.toNat - '0'.toNat else c.toNat - 'A'.toNat + 10
  digits.foldl (fun n c => 16 * n + digit c) 0

/-- The range that a word such as `41-5A` or `AA` stands for. -/
def rangeOfWord (word : List Char) : Nat × Nat :=
  match word.splitOn '-' with
  | [low, high] => (hexValue low, hexValue high)
  | _ => (hexValue word, hexValue word)

/-- The code points from `low` to `high` that are a multiple of `step` away from `low`. -/
def steps (low high step : Nat) : List Nat :=
  (List.range ((high - low) / step + 1)).map fun i => low + step * i

/-- The ranges that a word stands for, which may name a step behind a slash. -/
def rangesOfWord (word : List Char) : List (Nat × Nat) :=
  match word.splitOn '/' with
  | [range, step] =>
    let (low, high) := rangeOfWord range
    (steps low high (hexValue step)).map fun n => (n, n)
  | _ => [rangeOfWord word]

/-- Read a table of ranges, separated by single spaces in each line. -/
def ofLines (lines : List String) : CodePointSet :=
  ⟨lines.flatMap fun line => (line.toList.splitOn ' ').flatMap rangesOfWord⟩

/-! ## Operations -/

/-- Put a range and what follows it into ascending ranges; `merge` puts in what follows it. -/
def mergeFrom (range : Nat × Nat) (rest : List (Nat × Nat))
    (merge : List (Nat × Nat) → List (Nat × Nat)) : List (Nat × Nat) → List (Nat × Nat)
  | [] => range :: rest
  | other :: others =>
    if range.1 ≤ other.1 then range :: merge (other :: others)
    else other :: mergeFrom range rest merge others

/-- Ranges in ascending order from two lists of them. -/
def merge : List (Nat × Nat) → List (Nat × Nat) → List (Nat × Nat)
  | [], others => others
  | range :: rest, others => mergeFrom range rest (merge rest) others

/-- Join each ascending range to the one before it where the two touch. -/
def joinFrom (low high : Nat) : List (Nat × Nat) → List (Nat × Nat)
  | [] => [(low, high)]
  | range :: rest =>
    if range.1 ≤ high + 1 then joinFrom low (max high range.2) rest
    else (low, high) :: joinFrom range.1 range.2 rest

def join : List (Nat × Nat) → List (Nat × Nat)
  | [] => []
  | range :: rest => joinFrom range.1 range.2 rest

def union (a b : CodePointSet) : CodePointSet := ⟨join (merge a.ranges b.ranges)⟩

def unionOf (sets : List CodePointSet) : CodePointSet := sets.foldr union empty

def insert (s : CodePointSet) (c : Char) : CodePointSet :=
  if s.contains c then s else s.union (single c)

def ofList (chars : List Char) : CodePointSet := chars.foldl insert empty

/-- The parts of ascending ranges between two code points. -/
def clip (low high : Nat) : List (Nat × Nat) → List (Nat × Nat)
  | [] => []
  | (first, last) :: rest =>
    if last < low then clip low high rest
    else if high < first then []
    else (max low first, min high last) :: clip low high rest

/-- The common parts of two lists of ascending ranges. -/
def common (ranges : List (Nat × Nat)) : List (Nat × Nat) → List (Nat × Nat)
  | [] => []
  | (low, high) :: others =>
    let ranges := ranges.dropWhile fun range => range.2 < low
    clip low high ranges ++ common ranges others

def inter (a b : CodePointSet) : CodePointSet := ⟨common a.ranges b.ranges⟩

/-- The parts of ascending ranges before a code point. -/
def before (low : Nat) : List (Nat × Nat) → List (Nat × Nat)
  | [] => []
  | (first, last) :: rest =>
    if last < low then (first, last) :: before low rest
    else if first < low then [(first, previous low)]
    else []

/-- The parts of ascending ranges behind a code point. -/
def behind (high : Nat) : List (Nat × Nat) → List (Nat × Nat)
  | [] => []
  | (first, last) :: rest =>
    if last ≤ high then behind high rest
    else if first ≤ high then (next high, last) :: rest
    else (first, last) :: rest

/-- What two lists of ascending ranges leave of the first. -/
def remove (ranges : List (Nat × Nat)) : List (Nat × Nat) → List (Nat × Nat)
  | [] => ranges
  | (low, high) :: others => before low ranges ++ remove (behind high ranges) others

def diff (a b : CodePointSet) : CodePointSet := ⟨remove a.ranges b.ranges⟩

/-- The members of exactly one of two sets. -/
def symmetricDiff (a b : CodePointSet) : CodePointSet := (a.union b).diff (a.inter b)

/-- The gaps behind a code point between ascending ranges. Two ranges that are apart only by the
    surrogates leave the two characters at their ends as a gap. -/
def gapsFrom (last : Nat) : List (Nat × Nat) → List (Nat × Nat)
  | [] => if last < lastCode then [(next last, lastCode)] else []
  | range :: rest =>
    (min (next last) (previous range.1), max (next last) (previous range.1)) ::
      gapsFrom range.2 rest

def complement (s : CodePointSet) : CodePointSet :=
  match s.ranges with
  | [] => full
  | (low, high) :: rest =>
    ⟨if 0 < low then (0, previous low) :: gapsFrom high rest else gapsFrom high rest⟩

/-- The only member of a set of one character. -/
def only? (s : CodePointSet) : Option Char :=
  match s.ranges with
  | [(low, high)] => if low == high then some (Char.ofNat low) else none
  | _ => none

/-- Whether all members are below a code point. -/
def isBelow (limit : Nat) (s : CodePointSet) : Bool := s.ranges.all fun range => range.2 < limit

end CodePointSet

end AccessControl
