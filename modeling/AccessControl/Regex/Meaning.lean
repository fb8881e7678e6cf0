import AccessControl.Regex.Syntax
import AccessControl.Text.CaseFold

/-! # What a written expression means

Flags hold from where they are set to the end of the group, across alternatives. Where Unicode is
switched off, an expression that could match a part of a character has no meaning.
-/

namespace AccessControl.Regex

/-- The flags that govern the meaning of an expression. -/
structure Flags where
  ignoreCase : Bool := false
  multiLine : Bool := false
  dotAll : Bool := false
  swapGreed : Bool := false
  unicode : Bool := true
  anyLineEnd : Bool := false

namespace Flags

def assign (f : Flags) (flag : Flag) (value : Bool) : Flags :=
  match flag with
  | .ignoreCase => { f with ignoreCase := value }
  | .multiLine => { f with multiLine := value }
  | .dotAll => { f with dotAll := value }
  | .swapGreed => { f with swapGreed := value }
  | .unicode => { f with unicode := value }
  | .anyLineEnd => { f with anyLineEnd := value }
  | .verbose => f

def change (f : Flags) (changes : FlagChanges) : Flags :=
  changes.foldl (fun f (flag, value) => f.assign flag value) f

/-- Both cases of the ASCII letters in a set. -/
def closeAscii (s : CodePointSet) : CodePointSet :=
  let letters := ('a'.toNat, 'z'.toNat)
  let capitals := ('A'.toNat, 'Z'.toNat)
  let shift (move : Nat → Nat) (part : CodePointSet) : CodePointSet :=
    ⟨part.ranges.map fun (low, high) => (move low, move high)⟩
  .unionOf [s, shift (· - 32) (s.inter ⟨[letters]⟩), shift (· + 32) (s.inter ⟨[capitals]⟩)]

/-- A set as it is meant under the flags. -/
def applyCase (f : Flags) (s : CodePointSet) : CodePointSet :=
  if !f.ignoreCase then s else if f.unicode then CaseFold.close s else closeAscii s

/-- The complement of a set; without Unicode it would reach into the bytes of a character. -/
def complement? (f : Flags) (s : CodePointSet) : Option CodePointSet :=
  if f.unicode then some s.complement else none

/-- A set in all cases, and then its complement if it is negated. -/
def settle? (f : Flags) (negated : Bool) (s : CodePointSet) : Option CodePointSet :=
  if negated then f.complement? (f.applyCase s) else some (f.applyCase s)

/-- A character by itself. Without Unicode a byte has to be ASCII, and so has a letter to have
    another case. -/
def literal? (f : Flags) (c : WrittenChar) : Option CodePointSet :=
  if f.unicode then
    some (if f.ignoreCase then .ofList (CaseFold.variants c.char) else .single c.char)
  else if c.isByte && 128 ≤ c.char.toNat then none
  else some (if f.ignoreCase then closeAscii (.single c.char) else .single c.char)

def dot? (f : Flags) : Option CodePointSet :=
  if !f.unicode then none
  else some (
    if f.dotAll then .full
    else if f.anyLineEnd then (CodePointSet.ofList ['\n', '\r']).complement
    else (CodePointSet.single '\n').complement)

def letters (f : Flags) : WordLetters := if f.unicode then .any else .ascii

def anchor (f : Flags) : WrittenAnchor → Anchor
  | .caret =>
    if !f.multiLine then .textStart else if f.anyLineEnd then .anyLineStart else .lineStart
  | .dollar =>
    if !f.multiLine then .textEnd else if f.anyLineEnd then .anyLineEnd else .lineEnd
  | .textStart => .textStart
  | .textEnd => .textEnd
  | .boundary side => .boundary side f.letters

end Flags

namespace LetterClass

/-- The characters of a class, in Unicode or in ASCII. -/
def members (unicode : Bool) : LetterClass → CodePointSet
  | .digit => if unicode then Category.decimalNumbers else .ofLines ["30-39"]
  | .blank => if unicode then Text.blanks else .ofLines ["9-D 20"]
  | .word => if unicode then Text.wordChars else .ofLines ["30-39 41-5A 5F 61-7A"]

end LetterClass

/-- The set of a class with a name. The letter classes hold all cases of their members already. -/
def NamedClass.meaning? (f : Flags) : NamedClass → Option CodePointSet
  | .letter kind negated =>
    let s := kind.members f.unicode
    if negated then f.complement? s else some s
  | .property members negated => if f.unicode then f.settle? negated members else none

/-- A character within a bracket; without Unicode it has to be ASCII. -/
def WrittenChar.member? (f : Flags) (c : WrittenChar) : Option Char :=
  if f.unicode || c.char.toNat < 128 then some c.char else none

def SetOperator.apply : SetOperator → CodePointSet → CodePointSet → CodePointSet
  | .inter, a, b => a.inter b
  | .diff, a, b => a.diff b
  | .symmetricDiff, a, b => a.symmetricDiff b

/-- The set of the inside of a bracket. -/
def ClassTree.meaning? (f : Flags) : ClassTree → Option CodePointSet
  | .empty => some .empty
  | .char c => (c.member? f).map .single
  | .range low high => do some (.ofRange (← low.member? f) (← high.member? f))
  | .ascii members negated => f.settle? negated members
  | .named c => c.meaning? f
  | .bracket negated inner => do f.settle? negated (← inner.meaning? f)
  | .union items item => do some ((← items.meaning? f).union (← item.meaning? f))
  | .combine op left right => do
    some (op.apply (f.applyCase (← left.meaning? f)) (f.applyCase (← right.meaning? f)))

/-- The expression that a tree means, with the flags behind it. -/
def Tree.meaning? (f : Flags) : Tree → Option (Regex × Flags)
  | .empty => some (.empty, f)
  | .flags changes => some (.empty, f.change changes)
  | .char c => (f.literal? c).map fun s => (.set s, f)
  | .dot => f.dot?.map fun s => (.set s, f)
  | .anchor a => some (.anchor (f.anchor a), f)
  | .named c => (c.meaning? f).map fun s => (.set s, f)
  | .bracket negated inner => do
    let s ← f.settle? negated (← inner.meaning? f)
    some (.set s, f)
  | .rep a least most greedy => do
    let (a, f) ← a.meaning? f
    some (a.repeated least most (greedy != f.swapGreed), f)
  | .capture index a => do
    let (a, _) ← a.meaning? f
    some (.group (some index) a, f)
  | .group changes a => do
    let (a, _) ← a.meaning? (f.change changes)
    some (.group none a, f)
  | .cat a rest => do
    let (a, f) ← a.meaning? f
    let (rest, f) ← rest.meaning? f
    some (.cat a rest, f)
  | .alt a rest => do
    let (a, f) ← a.meaning? f
    let (rest, f) ← rest.meaning? f
    some (.alt a rest, f)

end AccessControl.Regex
