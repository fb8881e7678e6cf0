import AccessControl.Regex.Form
import AccessControl.Text.EncodedRange
import AccessControl.Text.Utf8

/-! # The size of expressions

An expression is refused if the automaton for it would take too much room. The automaton reads
bytes; there is one that reads a text forwards and one that reads it backwards, and both count.
Every state takes the same room, and a state that branches takes more for each of its branches.
-/

namespace AccessControl.Regex.Size

/-- The room of a state. -/
def state : Nat := 32

/-- The room of a transition that depends on the byte read. -/
def transition : Nat := 8

/-- The room of a transition that reads nothing. -/
def choice : Nat := 4

/-- A state with so many transitions by bytes. -/
def reading (transitions : Nat) : Nat := state + transition * transitions

/-- A state with so many transitions that read nothing. -/
def choosing (choices : Nat) : Nat := state + choice * choices

/-! ## Sets of characters -/

/-- A state of the automaton for a set: its transitions by byte ranges to other states. -/
abbrev Node := List (EncodedRange.ByteRange × Nat)

/-- The number of a state among those made before, the last of them first; a new one is added. -/
def numberOf (node : Node) (made : List Node) : Nat × List Node :=
  match made.idxOf? node with
  | some i => (made.length - i, made)
  | none => (made.length + 1, node :: made)

/-- Make the states for sequences of at most so many byte ranges, and give the number of the first.
    Equal states are made once. Zero is the number of the state behind the set. -/
def makeStates : Nat → List (List EncodedRange.ByteRange) → List Node → Nat × List Node
  | 0, _, made => (0, made)
  | n + 1, sequences, made =>
    match EncodedRange.byHead sequences with
    | [] => (0, made)
    | groups =>
      let (node, made) := groups.foldl (fun (node, made) (head, tails) =>
        let (target, made) := makeStates n tails made
        ((head, target) :: node, made)) (([] : Node), made)
      numberOf node made

/-- The room of a set read forwards. -/
def forwardSet (s : CodePointSet) : Nat :=
  (makeStates 4 (EncodedRange.sequences s) []).2.foldl (fun n node => n + reading node.length) state

/-- How many beginnings the sequences have, of at most so many byte ranges each. -/
def beginnings : Nat → List (List EncodedRange.ByteRange) → Nat
  | 0, _ => 0
  | n + 1, sequences =>
    (EncodedRange.byHead sequences).foldl (fun count (_, tails) => count + 1 + beginnings n tails) 0

/-- The room of a set read backwards: the sequences are alternatives, and share the states for what
    they begin with. -/
def backwardSet (s : CodePointSet) : Nat :=
  let sequences := EncodedRange.sequences s
  choosing sequences.length + state + state * beginnings 4 sequences

def set (backwards : Bool) (s : CodePointSet) : Nat :=
  if s.isBelow 128 then state + reading s.ranges.length
  else if backwards then backwardSet s
  else forwardSet s

/-! ## Alternatives of texts -/

/-- Divide texts at the empty ones. -/
def divide : List (List UInt8) → List (List (List UInt8))
  | [] => [[]]
  | [] :: rest => [] :: divide rest
  | text :: rest =>
    match divide rest with
    | part :: parts => (text :: part) :: parts
    | [] => [[text]]

/-- The texts without all but one of the empty ones that they begin with. -/
def dropRepeatedEmpty : List (List UInt8) → List (List UInt8)
  | [] :: [] :: rest => dropRepeatedEmpty ([] :: rest)
  | texts => texts

/-- The room of a tree of texts of at most so many bytes, which share the states for what they begin
    with. An empty text is a way out, and texts before it are not joined to texts behind it. -/
def textTree : Nat → List (List UInt8) → Nat
  | 0, _ => 0
  | n + 1, texts =>
    let parts := divide (dropRepeatedEmpty texts)
    let heads (part : List (List UInt8)) : List UInt8 := (part.filterMap List.head?).eraseDups
    let sizes := parts.map fun part =>
      let bytes := heads part
      match bytes.length with
      | 0 => 0
      | 1 => state
      | count => reading count
    let inner := parts.flatMap fun part =>
      (heads part).map fun byte =>
        let tails := part.filterMap fun text =>
          if text.head? == some byte then text.tail? else none
        if tails.all List.isEmpty then 0 else textTree n tails
    let filled := (sizes.filter (· != 0)).length
    sizes.foldl (· + ·) 0 + inner.foldl (· + ·) 0 + choosing (filled + (parts.length - 1))

/-- The texts of alternatives, if they are all texts. -/
def texts? (backwards : Bool) (a : Form) : Option (List (List UInt8)) :=
  a.branches.mapM fun branch =>
    match branch with
    | .text chars =>
      let bytes := Text.encode chars
      some (if backwards then bytes.reverse else bytes)
    | _ => none

def textAlternatives (texts : List (List UInt8)) : Nat :=
  state + textTree (texts.foldl (fun n text => n + text.length) 0) texts

/-! ## Expressions -/

/-- The room of a repetition of something. What is repeated so often at least is there so often. -/
def repetition (inner : Nat) (consumes : Bool) (least : Nat) (most : Option Nat) : Nat :=
  match least, most with
  | 0, none => if consumes then choosing 2 + inner else 2 * choosing 2 + state + inner
  | least, none => least * inner + choosing 2
  | 0, some 1 => choosing 2 + inner + state
  | least, some most =>
    let required := if least == 0 then state else least * inner
    if least == most then required
    else required + state + (most - least) * (choosing 2 + inner)

/-- The room of an expression. Only forwards is the text of groups remembered. -/
def form (backwards inChoice : Bool) : Form → Nat
  | .empty => state
  | .text chars => state * (Text.encode chars).length
  | .set s => set backwards s
  | .anchor _ => state
  | .rep a least most _ =>
    repetition (form backwards false a) (a.minLength.any (0 < ·)) least most
  | .group _ a => (if backwards then 0 else 2 * state) + form backwards false a
  | .cat a rest => form backwards false a + form backwards false rest
  | .alt a rest =>
    let inner := form backwards false a + form backwards true rest
    if inChoice then inner
    else
      match texts? backwards (.alt a rest) with
      | some texts => textAlternatives texts
      | none => choosing (1 + rest.branches.length) + state + inner

/-- The room for passing over what is before a match. -/
def passing (fixed : Bool) : Nat :=
  if fixed then state else choosing 2 + state + reading 1

def forwards (a : Form) : Nat := passing a.fromStart + 2 * state + form false false a + state

def backwards (a : Form) : Nat := passing a.toEnd + form true false a + state

/-- Expressions that would take more than this are refused: ten mebibytes. -/
def limit : Nat := 10 * 1024 * 1024

def fits (r : Regex) : Bool := forwards r.form ≤ limit && backwards r.form ≤ limit

end AccessControl.Regex.Size
