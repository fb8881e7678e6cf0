import AccessControl.Pattern
import AccessControl.Proofs.Regex.Row
import Mathlib.Data.List.TakeWhile

/-! # What path patterns are made of

A path pattern is a row of characters, wildcards and variables, and a key matches it if it splits along
the row. The pattern is matched by way of a regular expression, whose text is read here: it stands for
the expressions of the parts in a row, provided that the characters are not special in expressions.
-/

namespace AccessControl.Pattern

open Regex

/-! ## Parts and splits -/

/-- A part of a path pattern. -/
inductive PathPart where
  /-- A character that stands for itself. -/
  | literal (c : Char)
  /-- Any text on one line. -/
  | wildcard
  /-- A variable: any text within one segment that is not empty. -/
  | named (name : List Char)

namespace PathPart

/-- The texts that a part stands for. -/
def Takes : PathPart → List Char → Prop
  | .literal c, taken => taken = [c]
  | .wildcard, taken => '\n' ∉ taken
  | .named _, taken => taken ≠ [] ∧ '/' ∉ taken

/-- The name of a variable with the text that it stands for. -/
def binding (taken : List Char) : PathPart → List (List Char × List Char)
  | .named name => [(name, taken)]
  | _ => []

end PathPart

/-- Split a key along the parts of a pattern. The texts that variables stand for are given with their
    names, in order. -/
inductive Splits : List PathPart → List Char → List (List Char × List Char) → Prop where
  | nil : Splits [] [] []
  | cons {part : PathPart} {taken : List Char} (takes : part.Takes taken) {parts : List PathPart}
      {key : List Char} {bound : List (List Char × List Char)} (rest : Splits parts key bound) :
      Splits (part :: parts) (taken ++ key) (part.binding taken ++ bound)

/-- The names of the variables in order. -/
def variableNames (parts : List PathPart) : List (List Char) :=
  parts.filterMap fun part =>
    match part with
    | .named name => some name
    | _ => none

theorem Splits.names {parts : List PathPart} {key : List Char}
    {bound : List (List Char × List Char)} (splits : Splits parts key bound) :
    bound.map (·.1) = variableNames parts := by
  induction splits with
  | nil => rfl
  | @cons part taken _ parts _ _ _ ih =>
      rw [List.map_append, ih]
      cases part <;> rfl

theorem splits_literals_iff {chars key : List Char} :
    (∃ bound, Splits (chars.map .literal) key bound) ↔ key = chars := by
  induction chars generalizing key with
  | nil =>
      constructor
      · rintro ⟨_, ⟨⟩⟩
        rfl
      · rintro rfl
        exact ⟨[], .nil⟩
  | cons c chars ih =>
      constructor
      · rintro ⟨_, ⟨⟩⟩
        next taken key bound takes rest =>
          obtain rfl : taken = [c] := takes
          exact congrArg (c :: ·) (ih.mp ⟨bound, rest⟩)
      · rintro rfl
        obtain ⟨bound, rest⟩ := ih.mpr rfl
        have takes : (PathPart.literal c).Takes [c] := rfl
        exact ⟨_, .cons takes rest⟩

theorem splits_append_iff {parts parts' : List PathPart} {key : List Char}
    {bound : List (List Char × List Char)} :
    Splits (parts ++ parts') key bound ↔ ∃ before behind first last, key = before ++ behind ∧
      bound = first ++ last ∧ Splits parts before first ∧ Splits parts' behind last := by
  induction parts generalizing key bound with
  | nil =>
      constructor
      · exact fun splits => ⟨[], key, [], bound, rfl, rfl, .nil, splits⟩
      · rintro ⟨_, _, _, _, rfl, rfl, ⟨⟩, splits⟩
        exact splits
  | cons part parts ih =>
      constructor
      · rintro ⟨⟩
        next taken key bound takes rest =>
          obtain ⟨before, behind, first, last, rfl, rfl, splits, splits'⟩ := ih.mp rest
          exact ⟨taken ++ before, behind, part.binding taken ++ first, last,
            (List.append_assoc _ _ _).symm, (List.append_assoc _ _ _).symm, .cons takes splits, splits'⟩
      · rintro ⟨_, behind, _, last, rfl, rfl, ⟨⟩, splits'⟩
        next taken before first takes splits =>
          rw [List.append_assoc, List.append_assoc]
          exact .cons takes (ih.mpr ⟨before, behind, first, last, rfl, rfl, splits, splits'⟩)

theorem splits_singleton_iff {part : PathPart} {key : List Char}
    {bound : List (List Char × List Char)} :
    Splits [part] key bound ↔ part.Takes key ∧ bound = part.binding key := by
  constructor
  · rintro ⟨⟩
    next taken key bound takes rest =>
      cases rest
      rw [List.append_nil, List.append_nil]
      exact ⟨takes, rfl⟩
  · rintro ⟨takes, rfl⟩
    simpa using Splits.cons takes .nil

/-! ## Texts of expressions -/

/-- The characters that are special in a regular expression. -/
def isSpecial (c : Char) : Bool := ".*+?()|[\x7b^$\\".toList.contains c

/-- What a variable is in the text of an expression, as a group or not. -/
def segmentText (grouped : Bool) : List Char :=
  if grouped then "([^/]+)".toList else "[^/]+".toList

/-- A character that is not special stands for itself. -/
def PathPart.IsPlain : PathPart → Prop
  | .literal c => isSpecial c = false
  | _ => True

def PathPart.text (grouped : Bool) : PathPart → List Char
  | .literal c => [c]
  | .wildcard => ['.', '*']
  | .named _ => segmentText grouped

/-- The text of the expression of parts. -/
def partsText (grouped : Bool) (parts : List PathPart) : List Char :=
  '^' :: parts.flatMap (·.text grouped) ++ ['$']

/-! ## Expressions -/

/-- The number of the next group behind a part, if variables are groups. -/
def PathPart.next (number : Option Nat) : PathPart → Option Nat
  | .named _ => number.map (· + 1)
  | _ => number

/-- The parts with the numbers that groups have there. -/
def numbered (number : Option Nat) : List PathPart → List (PathPart × Option Nat)
  | [] => []
  | part :: rest => (part, number) :: numbered (part.next number) rest

/-- Put an expression under a number if there is one. -/
def grouping {α : Type} (group : Nat → α → α) (number : Option Nat) (a : α) : α :=
  match number with
  | none => a
  | some number => group number a

def PathPart.tree (number : Option Nat) : PathPart → Tree
  | .literal c => .char ⟨c, false⟩
  | .wildcard => .rep .dot 0 none true
  | .named _ => grouping .capture number (.rep (.bracket true (.char ⟨'/', false⟩)) 1 none true)

def PathPart.regex (number : Option Nat) : PathPart → Regex
  | .literal c => .set (.single c)
  | .wildcard => .rep (.set (CodePointSet.single '\n').complement) 0 none true
  | .named _ =>
    grouping (fun number => .group (some number)) number
      (.rep (.set (CodePointSet.single '/').complement) 1 none true)

/-- The number of the first group, if variables are groups. -/
def firstNumber (grouped : Bool) : Option Nat := if grouped then some 1 else none

/-- The tree of the expression of parts. -/
def expressionTree (grouped : Bool) (parts : List PathPart) : Tree :=
  .catOf (.anchor .caret ::
    (numbered (firstNumber grouped) parts).map (fun (part, number) => part.tree number) ++
    [.anchor .dollar])

/-- The expression of parts, for the whole of a text. -/
def expression (grouped : Bool) (parts : List PathPart) : Regex :=
  .catOf (.anchor .textStart ::
    (numbered (firstNumber grouped) parts).map (fun (part, number) => part.regex number) ++
    [.anchor .textEnd])

/-! ## Reading -/

/-- A reading within no group. -/
def readingOf (trees : List Tree) (next : Nat) : Reading :=
  { Reading.start with parts := trees, next }

theorem readGreedy_eq {text : List Char} (plain : text.head? ≠ some '?') :
    readGreedy text = (true, text) := by
  unfold readGreedy
  split
  · exact absurd rfl plain
  · rfl

theorem readPart_eq {c : Char} (plain : isSpecial c = false) (s : Reading) (rest : List Char) :
    readPart s c rest = some (s.push (.char ⟨c, false⟩), rest) := by
  unfold readPart
  split <;> first | rfl | exact absurd plain (by decide)

/-- A part is read as its tree, wherever no sign follows that turns a preference around. -/
theorem readAll_part {part : PathPart} (plain : part.IsPlain) (number : Option Nat)
    (trees : List Tree) {rest : List Char} (behind : rest.head? ≠ some '?') {n : Nat}
    (enough : (part.text number.isSome ++ rest).length < n) :
    ∃ n', rest.length < n' ∧
      readAll n (readingOf trees (number.getD 1)) (part.text number.isSome ++ rest) =
        readAll n' (readingOf (part.tree number :: trees) ((part.next number).getD 1)) rest := by
  -- each sign is read by computing; only what follows a repetition can turn its preference around
  have greedy := readGreedy_eq behind
  match part, number, n, enough with
  | .literal c, number, n + 1, enough =>
      refine ⟨n, Nat.lt_of_succ_lt_succ enough, ?_⟩
      have step := readPart_eq plain (readingOf trees (number.getD 1)) rest
      exact congrArg (Option.bind · fun read => readAll n read.1 read.2) step
  | .wildcard, number, n + 2, enough =>
      refine ⟨n, Nat.lt_of_succ_lt_succ (Nat.lt_of_succ_lt_succ enough), ?_⟩
      show readAll n (readingOf (.rep .dot 0 none (readGreedy rest).1 :: trees) (number.getD 1))
        (readGreedy rest).2 = _
      rw [greedy]
      rfl
  | .named _, none, n + 2, enough =>
      refine ⟨n, by simp [PathPart.text, segmentText] at enough; omega, ?_⟩
      show readAll n (readingOf (.rep (.bracket true (.char ⟨'/', false⟩)) 1 none
        (readGreedy rest).1 :: trees) 1) (readGreedy rest).2 = _
      rw [greedy]
      rfl
  | .named _, some number, n + 4, enough =>
      exact ⟨n, by simp [PathPart.text, segmentText] at enough; omega, rfl⟩

theorem head?_text_ne {parts : List PathPart} (plain : ∀ part ∈ parts, part.IsPlain)
    (grouped : Bool) : (parts.flatMap (·.text grouped) ++ ['$']).head? ≠ some '?' := by
  match parts, grouped with
  | [], _ => simp
  | .literal c :: rest, _ =>
      rintro ⟨⟩
      exact nomatch (plain _ List.mem_cons_self : isSpecial '?' = false)
  | .wildcard :: rest, _ => simp [PathPart.text]
  | .named _ :: rest, true => simp [PathPart.text, segmentText]
  | .named _ :: rest, false => simp [PathPart.text, segmentText]

theorem readAll_parts {parts : List PathPart} (plain : ∀ part ∈ parts, part.IsPlain)
    (number : Option Nat) (trees : List Tree) {n : Nat}
    (enough : (parts.flatMap (·.text number.isSome) ++ ['$']).length < n) :
    ∃ next, readAll n (readingOf trees (number.getD 1))
        (parts.flatMap (·.text number.isSome) ++ ['$']) =
      some (readingOf (.anchor .dollar ::
        (((numbered number parts).map fun (part, number) => part.tree number).reverse ++ trees))
        next) := by
  induction parts generalizing number n trees with
  | nil =>
      match n, enough with
      | n + 2, _ => exact ⟨number.getD 1, rfl⟩
  | cons part rest ih =>
      have others : ∀ part ∈ rest, part.IsPlain :=
        fun other member => plain other (List.mem_cons_of_mem _ member)
      have still : (part.next number).isSome = number.isSome := by
        cases part <;> simp [PathPart.next]
      rw [List.flatMap_cons, List.append_assoc] at enough ⊢
      obtain ⟨n', less, step⟩ := readAll_part (plain part List.mem_cons_self) number trees
        (head?_text_ne others _) enough
      rw [step, ← still]
      rw [← still] at less
      obtain ⟨next, read⟩ := ih others (part.next number) (part.tree number :: trees) less
      refine ⟨next, read.trans ?_⟩
      simp [numbered]

theorem treeOfText?_partsText {parts : List PathPart} (plain : ∀ part ∈ parts, part.IsPlain)
    (grouped : Bool) :
    Tree.ofText? (partsText grouped parts) = some (expressionTree grouped parts) := by
  have first : (firstNumber grouped).isSome = grouped ∧ (firstNumber grouped).getD 1 = 1 := by
    cases grouped <;> exact ⟨rfl, rfl⟩
  obtain ⟨next, read⟩ := readAll_parts plain (firstNumber grouped) [.anchor .caret]
    (n := (partsText grouped parts).length) (by simp [partsText, first.1])
  rw [first.1, first.2] at read
  have begun : readAll ((partsText grouped parts).length + 1) Reading.start (partsText grouped parts) =
      readAll (partsText grouped parts).length (readingOf [.anchor .caret] 1)
        (parts.flatMap (·.text grouped) ++ ['$']) := rfl
  rw [Tree.ofText?, begun, read]
  simp [expressionTree, readingOf, Reading.start, Reading.current, Tree.altOf]

/-! ## Meaning -/

theorem meaning?_tree (part : PathPart) (number : Option Nat) :
    (part.tree number).meaning? {} = some (part.regex number, {}) := by
  match part, number with
  | .literal c, _ => rfl
  | .wildcard, _ => rfl
  | .named _, none => rfl
  | .named _, some _ => rfl

theorem depth_tree_le (part : PathPart) (number : Option Nat) (chain : Tree.Chain) :
    (part.tree number).depth chain ≤ 3 := by
  match part, number with
  | .literal c, _ => exact Nat.zero_le 3
  | .wildcard, _ => exact Nat.le_of_ble_eq_true rfl
  | .named _, none => exact Nat.le_of_ble_eq_true rfl
  | .named _, some _ => exact Nat.le_of_ble_eq_true rfl

theorem meaning?_expressionTree (grouped : Bool) (parts : List PathPart) :
    (expressionTree grouped parts).meaning? {} = some (expression grouped parts, {}) := by
  have inner : List.Forall₂ (fun tree a => tree.meaning? {} = some (a, ({} : Flags)))
      ((numbered (firstNumber grouped) parts).map fun (part, number) => part.tree number)
      ((numbered (firstNumber grouped) parts).map fun (part, number) => part.regex number) := by
    rw [List.forall₂_map_left_iff, List.forall₂_map_right_iff]
    exact List.forall₂_same.mpr fun numbered _ => meaning?_tree numbered.1 numbered.2
  refine Tree.meaning?_catOf (List.rel_append (.cons ?_ inner) (.cons ?_ .nil))
  · rfl
  · rfl

theorem depth_expressionTree_le (grouped : Bool) (parts : List PathPart) :
    (expressionTree grouped parts).depth .none ≤ 4 := by
  refine Nat.le_trans (Tree.depth_none_le _) (Nat.succ_le_succ (Tree.depth_catOf_le ?_))
  simp only [List.mem_append, List.mem_cons, List.mem_map, List.not_mem_nil, or_false]
  rintro tree ((rfl | ⟨⟨part, number⟩, _, rfl⟩) | rfl) chain
  · exact Nat.zero_le 3
  · exact depth_tree_le part number chain
  · exact Nat.zero_le 3

theorem ofText?_eq_expression {parts : List PathPart} (plain : ∀ part ∈ parts, part.IsPlain)
    (grouped : Bool) :
    Regex.ofText? (partsText grouped parts) = some (expression grouped parts) := by
  have shallow : ¬Tree.depthLimit < (expressionTree grouped parts).depth .none :=
    Nat.not_lt.mpr (Nat.le_trans (depth_expressionTree_le grouped parts) (by decide))
  rw [Regex.ofText?, treeOfText?_partsText plain]
  simp only [Option.bind_eq_bind, Option.bind_some, if_neg shallow]
  rw [meaning?_expressionTree]
  rfl

/-- The text of parts is read as their expression, unless that takes too much room. -/
theorem parse_partsText {parts : List PathPart} (plain : ∀ part ∈ parts, part.IsPlain)
    {grouped : Bool} (fits : (Regex.ofText? (partsText grouped parts)).all Size.fits = true) :
    Regex.parse (partsText grouped parts) = some (expression grouped parts) := by
  rw [ofText?_eq_expression plain] at fits
  rw [Regex.parse, ofText?_eq_expression plain]
  exact if_pos fits

/-! ## The pieces of a pattern

Wildcards are opened first, and variables are read in what comes of it. The pieces of parts make up
the text of their expression.
-/

/-- The pieces of a part when wildcards are opened. -/
def PathPart.pieces : PathPart → List Piece
  | .literal c => [.text c]
  | .wildcard => [.text '.', .text '*']
  | .named name => [.variable name]

theorem expressionText_pieces (grouped : Bool) (parts : List PathPart) :
    expressionText (segmentText grouped) (parts.flatMap (·.pieces)) = partsText grouped parts := by
  rw [expressionText, List.flatMap_assoc]
  refine congrArg (fun inner => '^' :: inner ++ ['$']) (List.flatMap_congr fun part _ => ?_)
  cases part
  · rfl
  · rfl
  · exact List.append_nil _

theorem names_pieces (parts : List PathPart) :
    names (parts.flatMap (·.pieces)) = variableNames parts := by
  induction parts with
  | nil => rfl
  | cons part parts ih =>
      rw [List.flatMap_cons, names, List.filterMap_append]
      refine (congrArg _ ih).trans ?_
      cases part <;> rfl

/-! ## Wildcards -/

theorem openWildcards_eq_self {text : List Char} (none : '*' ∉ text) : openWildcards text = text := by
  fun_induction openWildcards text with
  | case1 rest ih => exact absurd (by simp) none
  | case2 c rest _ ih => rw [ih fun member => none (List.mem_cons_of_mem _ member)]
  | case3 => rfl

theorem openWildcards_wildcard (rest : List Char) :
    openWildcards ('/' :: '*' :: rest) = '/' :: '.' :: '*' :: openWildcards rest := rfl

theorem openWildcards_cons {c : Char} {rest : List Char}
    (other : ∀ behind, c = '/' → rest = '*' :: behind → False) :
    openWildcards (c :: rest) = c :: openWildcards rest := by
  rw [openWildcards]
  exact other

theorem openWildcards_append {chars : List Char} (none : '/' ∉ chars) (rest : List Char) :
    openWildcards (chars ++ rest) = chars ++ openWildcards rest := by
  induction chars with
  | nil => rfl
  | cons c chars ih =>
      rw [List.mem_cons, not_or] at none
      rw [List.cons_append, openWildcards_cons fun _ slash => absurd slash.symm none.1, ih none.2,
        List.cons_append]

/-- Wildcards are opened behind a slash only, so a text up to the next slash stays as it is. -/
theorem openWildcards_split (text : List Char) :
    (openWildcards text).takeWhile (· != '/') = text.takeWhile (· != '/') ∧
      (openWildcards text).dropWhile (· != '/') = openWildcards (text.dropWhile (· != '/')) := by
  fun_induction openWildcards text with
  | case1 rest ih => exact ⟨rfl, rfl⟩
  | case2 c rest wildcard ih =>
      by_cases slash : c = '/'
      · subst slash
        refine ⟨rfl, ?_⟩
        rw [List.dropWhile_cons_of_neg (by decide), List.dropWhile_cons_of_neg (by decide),
          openWildcards_cons wildcard]
      · have passed : (c != '/') = true := bne_iff_ne.mpr slash
        simp only [List.takeWhile_cons, List.dropWhile_cons, passed, reduceIte, ih.1, ih.2, and_self]
  | case3 => exact ⟨rfl, rfl⟩

/-! ## Variables -/

theorem colonVariable_eq_none {c : Char} (other : c ≠ ':') (rest : List Char) :
    colonVariable (c :: rest) = none := by
  rw [colonVariable]
  rintro _ ⟨⟩
  exact other rfl

theorem bracedVariable_eq_none {c : Char} (other : c ≠ '\x7b') (rest : List Char) :
    bracedVariable (c :: rest) = none := by
  rw [bracedVariable]
  rintro _ _ ⟨⟩
  exact other rfl

theorem colonVariable_openWildcards {rest : List Char}
    (named : rest.takeWhile (· != '/') ≠ []) :
    colonVariable (':' :: openWildcards rest) =
      some (rest.takeWhile (· != '/'), openWildcards (rest.dropWhile (· != '/'))) := by
  obtain ⟨name, behind⟩ := openWildcards_split rest
  have split := List.takeWhile_append_dropWhile (p := (· != '/')) (l := openWildcards rest)
  rw [name, behind] at split
  have some : (rest.takeWhile (· != '/')).isEmpty = false := List.isEmpty_eq_false_iff.mpr named
  rw [colonVariable, name, some, if_neg (by decide), ← split, List.drop_left]

/-! ## Characters alone -/

theorem pieces_append {readVariable? : VariableReader} {chars : List Char}
    (unread : ∀ c ∈ chars, ∀ rest, readVariable? (c :: rest) = none) {rest : List Char} {n : Nat}
    (enough : (chars ++ rest).length < n) :
    ∃ m, rest.length < m ∧
      pieces readVariable? n (chars ++ rest) = chars.map .text ++ pieces readVariable? m rest := by
  induction chars generalizing n with
  | nil => exact ⟨n, enough, rfl⟩
  | cons c chars ih =>
      obtain ⟨here, later⟩ := List.forall_mem_cons.mp unread
      match n, enough with
      | n + 1, enough =>
          obtain ⟨m, less, read⟩ := ih later (Nat.lt_of_succ_lt_succ enough)
          refine ⟨m, less, ?_⟩
          rw [List.cons_append, pieces, here]
          exact congrArg (Piece.text c :: ·) read

theorem pieces_eq_map {readVariable? : VariableReader} {text : List Char}
    (unread : ∀ c ∈ text, ∀ rest, readVariable? (c :: rest) = none) {n : Nat}
    (enough : text.length < n) : pieces readVariable? n text = text.map .text := by
  rw [← List.append_nil text] at enough
  obtain ⟨m, _, read⟩ := pieces_append unread enough
  have none : pieces readVariable? m [] = [] := by cases m <;> rfl
  rwa [none, List.append_nil, List.append_nil] at read

end AccessControl.Pattern
