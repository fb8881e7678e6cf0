import AccessControl.Proofs.Pattern.Colon
import AccessControl.Proofs.Pattern.Preferred

/-! # Patterns with variables in braces

Here a pattern is made of segments, each behind a slash: a text over the characters of names, a
wildcard, or a variable. It is read as the parts of its segments, and a key splits along it into one
text for each segment. Where these texts have no slashes, the key tells what they are; so it is the
wildcards alone that leave a choice.
-/

namespace AccessControl.Pattern

open Regex

/-! ## Segments -/

/-- A text over the characters of names. -/
structure Word where
  chars : List Char
  plain : ∀ c ∈ chars, isNameChar c = true
  deriving DecidableEq

/-- What stands behind a slash in a pattern. -/
inductive Segment where
  | text (word : Word)
  | wildcard
  /-- A variable, whose name is not empty. -/
  | named (name : Word) (some : name.chars ≠ [])
  deriving DecidableEq

namespace Segment

/-- The text of a segment in a pattern. -/
def written : Segment → List Char
  | .text word => word.chars
  | .wildcard => ['*']
  | .named name _ => '\x7b' :: name.chars ++ ['\x7d']

/-- What is written when wildcards are opened. -/
def opened : Segment → List Char
  | .wildcard => ['.', '*']
  | segment => segment.written

def parts : Segment → List PathPart
  | .text word => word.chars.map .literal
  | .wildcard => [.wildcard]
  | .named name _ => [.named name.chars]

/-- The texts that a segment stands for. -/
def Takes : Segment → List Char → Prop
  | .text word, value => value = word.chars
  | .wildcard, value => '\n' ∉ value
  | .named _ _, value => value ≠ [] ∧ '/' ∉ value

def binding (value : List Char) : Segment → List (List Char × List Char)
  | .named name _ => [(name.chars, value)]
  | _ => []

end Segment

/-- Texts, each behind a slash. -/
def joined (values : List (List Char)) : List Char := values.flatMap ('/' :: ·)

/-- The pattern that is made of segments. -/
def patternOf (segments : List Segment) : String :=
  String.ofList (joined (segments.map Segment.written))

def partsOf (segments : List Segment) : List PathPart :=
  segments.flatMap fun segment => .literal '/' :: segment.parts

theorem joined_cons (value : List Char) (values : List (List Char)) :
    joined (value :: values) = '/' :: (value ++ joined values) := rfl

theorem joined_append (values others : List (List Char)) :
    joined (values ++ others) = joined values ++ joined others := List.flatMap_append

theorem joined_eq_nil_or (values : List (List Char)) :
    joined values = [] ∨ ∃ rest, joined values = '/' :: rest := by
  cases values with
  | nil => exact .inl rfl
  | cons value values => exact .inr ⟨_, rfl⟩

theorem partsOf_append (segments others : List Segment) :
    partsOf (segments ++ others) = partsOf segments ++ partsOf others := List.flatMap_append

/-! ## Reading -/

theorem notMem_of_isNameChar {chars : List Char} (plain : ∀ c ∈ chars, isNameChar c = true) {c : Char}
    (other : isNameChar c = false) : c ∉ chars :=
  fun member => absurd (plain c member) (by simp [other])

theorem openWildcards_segment {chars : List Char} (slash : '/' ∉ chars) (star : '*' ∉ chars)
    (values : List (List Char)) :
    openWildcards ('/' :: (chars ++ joined values)) =
      '/' :: (chars ++ openWildcards (joined values)) := by
  rw [openWildcards_cons, openWildcards_append slash]
  intro behind _ same
  cases chars with
  | nil =>
      obtain none | ⟨rest, some⟩ := joined_eq_nil_or values
      · exact absurd (none.symm.trans same) nofun
      · exact absurd (List.cons.inj (some.symm.trans same)).1 (by decide)
  | cons c chars =>
      obtain ⟨rfl, _⟩ := List.cons.inj same
      exact star List.mem_cons_self

theorem openWildcards_written (segments : List Segment) :
    openWildcards (joined (segments.map Segment.written)) = joined (segments.map Segment.opened) := by
  induction segments with
  | nil => rfl
  | cons segment segments ih =>
      have closed {chars : List Char} (slash : '/' ∉ chars) (star : '*' ∉ chars) :=
        (openWildcards_segment slash star (segments.map Segment.written)).trans
          (congrArg (fun rest => '/' :: (chars ++ rest)) ih)
      cases segment with
      | text word =>
          exact closed (notMem_of_isNameChar word.plain rfl) (notMem_of_isNameChar word.plain rfl)
      | wildcard => exact congrArg ('/' :: '.' :: '*' :: ·) ih
      | named name _ =>
          have slash := notMem_of_isNameChar name.plain (c := '/') rfl
          have star := notMem_of_isNameChar name.plain (c := '*') rfl
          refine closed ?_ ?_ <;> simp [Segment.written, slash, star]

theorem bracedVariable_name {name : Word} (some : name.chars ≠ []) (rest : List Char) :
    bracedVariable ('\x7b' :: name.chars ++ '\x7d' :: rest) = .some (name.chars, rest) := by
  obtain ⟨first, others, split⟩ := List.exists_cons_of_ne_nil some
  have plain := name.plain
  rw [split] at plain ⊢
  obtain ⟨here, later⟩ := List.forall_mem_cons.mp plain
  have inside : ∀ c ∈ others, (c != '/' && c != '\x7d') = true := by
    intro c member
    have slash := notMem_of_isNameChar later (c := '/') rfl
    have brace := notMem_of_isNameChar later (c := '\x7d') rfl
    rw [Bool.and_eq_true, bne_iff_ne, bne_iff_ne]
    exact ⟨fun same => slash (same ▸ member), fun same => brace (same ▸ member)⟩
  have taken : (others ++ '\x7d' :: rest).takeWhile (fun c => c != '/' && c != '\x7d') = others := by
    rw [List.takeWhile_append_of_pos inside]
    exact List.append_nil others
  have slash : (first == '/') = false := by
    rw [beq_eq_false_iff_ne]
    rintro rfl
    cases here
  simp only [bracedVariable, List.cons_append, taken, List.drop_left, slash, Bool.false_eq_true,
    if_false]

theorem bracedVariable_of_isNameChar {chars : List Char}
    (plain : ∀ c ∈ chars, isNameChar c = true) :
    ∀ c ∈ chars, ∀ rest, bracedVariable (c :: rest) = none := by
  intro c member
  refine bracedVariable_eq_none ?_
  rintro rfl
  exact notMem_of_isNameChar plain rfl member

theorem pieces_segment (segment : Segment) {rest : List Char} {n : Nat}
    (enough : (segment.opened ++ rest).length < n) :
    ∃ m, rest.length < m ∧ pieces bracedVariable n (segment.opened ++ rest) =
      segment.parts.flatMap (·.pieces) ++ pieces bracedVariable m rest := by
  cases segment with
  | text word =>
      obtain ⟨m, less, read⟩ := pieces_append (bracedVariable_of_isNameChar word.plain) enough
      refine ⟨m, less, read.trans ?_⟩
      rw [Segment.parts, List.flatMap_map]
      exact congrArg (· ++ _) List.map_eq_flatMap
  | wildcard =>
      have unread : ∀ c ∈ ['.', '*'], ∀ rest, bracedVariable (c :: rest) = none := by
        simp [bracedVariable]
      obtain ⟨m, less, read⟩ := pieces_append unread enough
      exact ⟨m, less, read⟩
  | named name some =>
      have text : (Segment.named name some).opened ++ rest =
          '\x7b' :: (name.chars ++ '\x7d' :: rest) := List.append_assoc ('\x7b' :: name.chars) _ _
      rw [text] at enough ⊢
      cases n with
      | zero => exact absurd enough (Nat.not_lt_zero _)
      | succ n =>
          refine ⟨n, by simp at enough; omega, ?_⟩
          have read : bracedVariable ('\x7b' :: (name.chars ++ '\x7d' :: rest)) = _ :=
            bracedVariable_name some rest
          rw [pieces, read]
          rfl

theorem pieces_opened (segments : List Segment) {n : Nat}
    (enough : (joined (segments.map Segment.opened)).length < n) :
    pieces bracedVariable n (joined (segments.map Segment.opened)) =
      (partsOf segments).flatMap (·.pieces) := by
  induction segments generalizing n with
  | nil => cases n <;> rfl
  | cons segment segments ih =>
      rw [List.map_cons, joined_cons] at enough ⊢
      cases n with
      | zero => exact absurd enough (Nat.not_lt_zero _)
      | succ n =>
          obtain ⟨m, less, read⟩ := pieces_segment segment (Nat.lt_of_succ_lt_succ enough)
          rw [ih less, ← List.flatMap_append] at read
          exact congrArg (Piece.text '/' :: ·) read

theorem piecesOf_patternOf (segments : List Segment) :
    piecesOf bracedVariable (patternOf segments) = (partsOf segments).flatMap (·.pieces) := by
  simp only [piecesOf, patternOf, String.toList_ofList, openWildcards_written]
  exact pieces_opened segments (Nat.lt_succ_self _)

theorem isPlain_partsOf (segments : List Segment) : ∀ part ∈ partsOf segments, part.IsPlain := by
  intro part member
  obtain ⟨segment, _, here⟩ := List.mem_flatMap.mp member
  obtain rfl | inside := List.mem_cons.mp here
  · rfl
  · cases segment with
    | text word =>
        obtain ⟨c, inWord, rfl⟩ := List.mem_map.mp inside
        exact not_isSpecial_of_isNameChar (word.plain c inWord)
    | wildcard | named =>
        obtain rfl := List.mem_singleton.mp inside
        trivial

/-! ## Splitting -/

theorem splits_parts_iff {segment : Segment} {key : List Char}
    {bound : List (List Char × List Char)} :
    Splits segment.parts key bound ↔ segment.Takes key ∧ bound = segment.binding key := by
  cases segment with
  | text word =>
      have nameless {key : List Char} {bound : List (List Char × List Char)}
          (splits : Splits (word.chars.map .literal) key bound) : bound = [] := by
        have none : variableNames (word.chars.map .literal) = [] := by
          rw [variableNames, List.filterMap_map]
          exact List.filterMap_eq_nil_iff.mpr fun _ _ => rfl
        exact List.map_eq_nil_iff.mp (splits.names.trans none)
      constructor
      · exact fun splits => ⟨splits_literals_iff.mp ⟨bound, splits⟩, nameless splits⟩
      · rintro ⟨same, rfl⟩
        obtain ⟨bound, splits⟩ := splits_literals_iff.mpr same
        rwa [nameless splits] at splits
  | wildcard => exact splits_singleton_iff
  | named name some => exact splits_singleton_iff

/-- The names of segments with the texts that they stand for. -/
def bindings : List Segment → List (List Char) → List (List Char × List Char)
  | segment :: segments, value :: values => segment.binding value ++ bindings segments values
  | _, _ => []

/-- A key splits along segments into one text for each, behind a slash. -/
theorem splits_partsOf_iff {segments : List Segment} {key : List Char}
    {bound : List (List Char × List Char)} :
    Splits (partsOf segments) key bound ↔ ∃ values, List.Forall₂ Segment.Takes segments values ∧
      key = joined values ∧ bound = bindings segments values := by
  induction segments generalizing key bound with
  | nil =>
      constructor
      · rintro ⟨⟩
        exact ⟨[], .nil, rfl, rfl⟩
      · rintro ⟨_, ⟨⟩, rfl, rfl⟩
        exact .nil
  | cons segment segments ih =>
      have row : partsOf (segment :: segments) =
          [.literal '/'] ++ (segment.parts ++ partsOf segments) := rfl
      simp only [row, splits_append_iff, splits_singleton_iff, splits_parts_iff, ih]
      constructor
      · rintro ⟨_, _, _, _, rfl, rfl, ⟨rfl, rfl⟩, value, _, _, _, rfl, rfl, ⟨takes, rfl⟩, values, others,
          rfl, rfl⟩
        exact ⟨value :: values, .cons takes others, rfl, rfl⟩
      · rintro ⟨_, ⟨⟩, rfl, rfl⟩
        next value values takes others =>
          exact ⟨['/'], _, [], _, rfl, rfl, ⟨rfl, rfl⟩, value, joined values, _, _, rfl, rfl,
            ⟨takes, rfl⟩, values, others, rfl, rfl⟩

theorem bindings_append {segments : List Segment} {values : List (List Char)}
    (length : segments.length = values.length) (segments' : List Segment)
    (values' : List (List Char)) :
    bindings (segments ++ segments') (values ++ values') =
      bindings segments values ++ bindings segments' values' := by
  induction segments generalizing values with
  | nil =>
      obtain rfl := List.length_eq_zero_iff.mp length.symm
      rfl
  | cons segment segments ih =>
      match values, length with
      | value :: values, length =>
          simp only [List.cons_append, bindings, ih (Nat.succ.inj length), List.append_assoc]

/-! ## Texts without slashes -/

theorem slash_notMem_of_takes {segments : List Segment} {values : List (List Char)}
    (takes : List.Forall₂ Segment.Takes segments values) (fixed : .wildcard ∉ segments) :
    ∀ value ∈ values, '/' ∉ value := by
  induction takes with
  | nil => nofun
  | @cons segment value _ _ here _ ih =>
      rw [List.mem_cons, not_or] at fixed
      refine List.forall_mem_cons.mpr ⟨?_, ih fixed.2⟩
      cases segment with
      | text word =>
          obtain rfl : value = word.chars := here
          exact notMem_of_isNameChar word.plain rfl
      | wildcard => exact absurd rfl fixed.1
      | named => exact here.2

theorem count_joined (values : List (List Char)) :
    (joined values).count '/' = values.length + values.flatten.count '/' := by
  induction values with
  | nil => rfl
  | cons value values ih =>
      rw [joined_cons, List.count_cons_self, List.count_append, ih, List.length_cons,
        List.flatten_cons, List.count_append]
      omega

theorem joined_forced {values values' : List (List Char)} (plain : ∀ value ∈ values, '/' ∉ value)
    (plain' : ∀ value ∈ values', '/' ∉ value) (length : values.length = values'.length)
    {rest rest' : List (List Char)}
    (same : joined values ++ joined rest = joined values' ++ joined rest') :
    values = values' ∧ joined rest = joined rest' := by
  have first {value : List Char} (plain : '/' ∉ value) (values : List (List Char)) :
      (value ++ joined values).takeWhile (· != '/') = value := by
    have inside : ∀ c ∈ value, (c != '/') = true :=
      fun c member => bne_iff_ne.mpr fun slash => plain (slash ▸ member)
    rw [List.takeWhile_append_of_pos inside]
    obtain none | ⟨rest, some⟩ := joined_eq_nil_or values <;> simp [*]
  induction values generalizing values' with
  | nil =>
      obtain rfl := List.length_eq_zero_iff.mp length.symm
      exact ⟨rfl, same⟩
  | cons value values ih =>
      match values', length with
      | value' :: values', length =>
          obtain ⟨here, later⟩ := List.forall_mem_cons.mp plain
          obtain ⟨here', later'⟩ := List.forall_mem_cons.mp plain'
          have tail : value ++ joined (values ++ rest) = value' ++ joined (values' ++ rest') := by
            simpa [joined_cons, joined_append] using same
          obtain rfl : value = value' := by
            rw [← first here (values ++ rest), tail, first here']
          have tail := List.append_cancel_left tail
          rw [joined_append, joined_append] at tail
          obtain ⟨rfl, rest⟩ := ih later later' (Nat.succ.inj length) tail
          exact ⟨rfl, rest⟩

/-- The last so many texts without slashes are the only ones that can be joined to an ending. -/
theorem joined_suffix {values values' : List (List Char)} (plain : ∀ value ∈ values, '/' ∉ value)
    (length : values.length = values'.length) {before : List Char}
    (suffix : joined values = before ++ joined values') : values = values' := by
  have unslashed {values : List (List Char)} :
      values.flatten.count '/' = 0 ↔ ∀ value ∈ values, '/' ∉ value := by
    simp [List.count_eq_zero]
  have count := congrArg (List.count '/') suffix
  rw [List.count_append, count_joined, count_joined, unslashed.mpr plain] at count
  have plain' := unslashed.mp (show values'.flatten.count '/' = 0 by omega)
  cases before with
  | nil =>
      have whole : joined values ++ joined [] = joined values' ++ joined [] := by rw [suffix]; rfl
      exact (joined_forced plain plain' length whole).1
  | cons c before =>
      cases values with
      | nil => cases suffix
      | cons value values =>
          obtain ⟨rfl, _⟩ := List.cons.inj suffix
          rw [List.count_cons_self] at count
          omega

end AccessControl.Pattern
