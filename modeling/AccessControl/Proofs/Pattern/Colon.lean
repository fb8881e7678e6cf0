import AccessControl.Proofs.Pattern.Ways

/-! # Patterns with variables behind colons

A pattern is plain if it has no character of which an expression would make something else. Then a key
matches it just if it splits along its parts, and the text of a variable is read off such a split.
-/

namespace AccessControl.Pattern

open Regex

/-! ## Plain patterns -/

def isNameChar (c : Char) : Bool := c.isAlphanum || c == '_' || c == '-'

/-- Whether a text, behind a character if there is one, has only characters of names and slashes,
    wildcards behind slashes, and colons before names. -/
def isPlainFrom (previous : Option Char) : List Char → Bool
  | [] => true
  | c :: rest =>
    (isNameChar c || c == '/' || (c == '*' && previous == some '/') ||
      (c == ':' && rest.head?.any isNameChar)) && isPlainFrom (some c) rest

def isPlain (pattern : String) : Bool := isPlainFrom none pattern.toList

/-- The parts of a pattern: a star behind a slash is a wildcard, and a colon with what follows it up
    to the next slash is a variable. -/
def colonParts : List Char → List PathPart
  | [] => []
  | '/' :: '*' :: rest => .literal '/' :: .wildcard :: colonParts rest
  | ':' :: rest =>
    .named (rest.takeWhile (· != '/')) :: colonParts (rest.dropWhile (· != '/'))
  | c :: rest => .literal c :: colonParts rest
termination_by text => text.length
decreasing_by
  all_goals simp_wf
  all_goals have := List.length_dropWhile_le rest (p := (· != '/'))
  all_goals omega

/-! ## Reading plain patterns -/

theorem ne_slash_of_isNameChar {c : Char} (inName : isNameChar c = true) : (c != '/') = true := by
  rw [bne_iff_ne]
  rintro rfl
  exact absurd inName (by decide)

theorem isPlainFrom_suffix (before : List Char) {rest : List Char} {previous : Option Char}
    (plain : isPlainFrom previous (before ++ rest) = true) :
    ∃ previous, isPlainFrom previous rest = true := by
  induction before generalizing previous with
  | nil => exact ⟨previous, plain⟩
  | cons c before ih => exact ih (Bool.and_eq_true_iff.mp plain).2

theorem isPlainFrom_dropWhile {rest : List Char} {previous : Option Char} (p : Char → Bool)
    (plain : isPlainFrom previous rest = true) :
    ∃ previous, isPlainFrom previous (rest.dropWhile p) = true :=
  isPlainFrom_suffix (rest.takeWhile p) (by rwa [List.takeWhile_append_dropWhile])

theorem named_of_isPlainFrom {rest : List Char} {previous : Option Char}
    (plain : isPlainFrom previous (':' :: rest) = true) : rest.takeWhile (· != '/') ≠ [] := by
  have named : rest.head?.any isNameChar = true := by
    simpa [isPlainFrom, isNameChar] using (Bool.and_eq_true_iff.mp plain).1
  match rest, named with
  | c :: rest, named =>
      rw [List.takeWhile_cons, if_pos (ne_slash_of_isNameChar named)]
      exact List.cons_ne_nil _ _

theorem pieces_colonVariable {text : List Char} {previous : Option Char}
    (plain : isPlainFrom previous text = true) {n : Nat} (enough : (openWildcards text).length < n) :
    pieces colonVariable n (openWildcards text) = (colonParts text).flatMap (·.pieces) := by
  fun_induction colonParts text generalizing previous n with
  | case1 => cases n <;> rfl
  | case2 rest ih =>
      obtain ⟨previous, behind⟩ := isPlainFrom_suffix ['/', '*'] plain
      rw [openWildcards_wildcard, List.length_cons, List.length_cons, List.length_cons] at enough
      obtain ⟨n, rfl⟩ : ∃ m, n = m + 3 := ⟨n - 3, by omega⟩
      refine congrArg (Piece.text '/' :: Piece.text '.' :: Piece.text '*' :: ·) (ih behind ?_)
      omega
  | case3 rest ih =>
      have named := colonVariable_openWildcards (named_of_isPlainFrom plain)
      obtain ⟨previous, behind⟩ := isPlainFrom_dropWhile (· != '/')
        (Bool.and_eq_true_iff.mp plain).2
      rw [openWildcards_cons fun _ slash => absurd slash (by decide)] at enough ⊢
      have shorter := List.length_dropWhile_le (openWildcards rest) (p := (· != '/'))
      rw [(openWildcards_split rest).2] at shorter
      rw [List.length_cons] at enough
      obtain ⟨n, rfl⟩ : ∃ m, n = m + 1 := ⟨n - 1, by omega⟩
      rw [pieces, named]
      exact congrArg (Piece.variable _ :: ·) (ih behind (by omega))
  | case4 c rest wildcard colon ih =>
      rw [openWildcards_cons wildcard] at enough ⊢
      rw [List.length_cons] at enough
      obtain ⟨n, rfl⟩ : ∃ m, n = m + 1 := ⟨n - 1, by omega⟩
      rw [pieces, colonVariable_eq_none colon]
      exact congrArg (Piece.text c :: ·)
        (ih (Bool.and_eq_true_iff.mp plain).2 (Nat.lt_of_succ_lt_succ enough))

theorem piecesOf_colonVariable {pattern : String} (plain : isPlain pattern = true) :
    piecesOf colonVariable pattern = (colonParts pattern.toList).flatMap (·.pieces) :=
  pieces_colonVariable plain (Nat.lt_succ_self _)

theorem not_isSpecial_of_isNameChar {c : Char} (inName : isNameChar c = true) :
    isSpecial c = false := by
  refine eq_false_of_ne_true fun special => ?_
  have none : (".*+?()|[\x7b^$\\".toList.any isNameChar) = false := rfl
  rw [List.any_eq_false] at none
  exact none c (List.contains_iff_mem.mp special) inName

theorem isPlain_colonParts {text : List Char} {previous : Option Char}
    (plain : isPlainFrom previous text = true)
    (wildcard : previous = some '/' → text.head? ≠ some '*') :
    ∀ part ∈ colonParts text, part.IsPlain := by
  fun_induction colonParts text generalizing previous with
  | case1 => nofun
  | case2 rest ih =>
      have behind := (Bool.and_eq_true_iff.mp (Bool.and_eq_true_iff.mp plain).2).2
      refine List.forall_mem_cons.mpr ⟨rfl, List.forall_mem_cons.mpr ⟨trivial, ih behind ?_⟩⟩
      exact fun same => absurd (Option.some.inj same) (by decide)
  | case3 rest ih =>
      obtain ⟨previous, behind⟩ := isPlainFrom_dropWhile (· != '/')
        (Bool.and_eq_true_iff.mp plain).2
      refine List.forall_mem_cons.mpr ⟨trivial, ih behind fun _ star => ?_⟩
      have stopped := List.head?_dropWhile_not (· != '/') rest
      rw [star] at stopped
      exact absurd stopped (by decide)
  | case4 c rest opens colon ih =>
      obtain ⟨here, behind⟩ := Bool.and_eq_true_iff.mp plain
      refine List.forall_mem_cons.mpr ⟨?_, ih behind ?_⟩
      · simp only [Bool.or_eq_true, Bool.and_eq_true, beq_iff_eq] at here
        obtain ((inName | rfl) | ⟨rfl, slash⟩) | ⟨rfl, _⟩ := here
        · exact not_isSpecial_of_isNameChar inName
        · exact rfl
        · exact absurd rfl (wildcard slash)
        · exact (colon rfl).elim
      · intro slash star
        obtain ⟨rest, rfl⟩ := List.head?_eq_some_iff.mp star
        exact opens rest (Option.some.inj slash) rfl

/-! ## Matches and variables -/

theorem lookup_of_findIdx? {bound : List (List Char × List Char)} {name : List Char}
    {position : Nat} (found : (bound.map (·.1)).findIdx? (· == name) = some position) :
    ∃ entry, bound[position]? = some entry ∧ bound.lookup name = some entry.2 := by
  induction bound generalizing position with
  | nil => cases found
  | cons entry bound ih =>
      obtain ⟨first, text⟩ := entry
      rw [List.map_cons, List.findIdx?_cons] at found
      by_cases same : first = name
      · subst same
        rw [beq_self_eq_true, if_pos rfl] at found
        cases found
        exact ⟨(first, text), rfl, List.lookup_cons_self⟩
      · rw [beq_false_of_ne same, if_neg (by decide)] at found
        obtain ⟨position, later, rfl⟩ := Option.map_eq_some_iff.mp found
        obtain ⟨entry, here, lookup⟩ := ih later
        refine ⟨entry, here, ?_⟩
        rw [List.lookup_cons, beq_false_of_ne (Ne.symm same)]
        exact lookup

section

variable {pattern : String} (plain : isPlain pattern = true)

include plain

theorem keyMatch2_iff (small : fits colonVariable pattern false = true) {key : String} :
    keyMatch2 key pattern = true ↔
      ∃ bound, Splits (colonParts pattern.toList) key.toList bound :=
  pathMatch_iff (piecesOf_colonVariable plain) (isPlain_colonParts plain nofun) small

variable (small : fits colonVariable pattern true = true) {key name : String}

include small

theorem keyGet2_eq : keyGet2 key pattern name =
    String.ofList (((expression true (colonParts pattern.toList)).find? key.toList >>= fun u =>
      (variableNames (colonParts pattern.toList)).findIdx? (· == name.toList) >>= fun position =>
        groupText? key.toList u (position + 1)).getD []) := by
  have pieces := piecesOf_colonVariable plain
  have read : capturing? colonVariable pattern =
      some (expression true (colonParts pattern.toList)) :=
    (capturing?_eq _ _).trans (parse_pieces pieces (isPlain_colonParts plain nofun) small)
  rw [keyGet2, read, pieces, names_pieces]
  rfl

/-- A variable of the pattern has the text that it has first in the split of the preferred match. -/
theorem keyGet2_of_find? {u : Thread}
    (found : (expression true (colonParts pattern.toList)).find? key.toList = some u)
    (member : name.toList ∈ variableNames (colonParts pattern.toList)) :
    ∃ bound text, Splits (colonParts pattern.toList) key.toList bound ∧
      bound.lookup name.toList = some text ∧ keyGet2 key pattern name = String.ofList text := by
  obtain ⟨bound, splits, groups⟩ := splits_of_find? found
  obtain ⟨position, first⟩ : ∃ position, (variableNames (colonParts pattern.toList)).findIdx?
      (· == name.toList) = some position := by
    rw [← Option.isSome_iff_exists, List.findIdx?_isSome, List.any_eq_true]
    exact ⟨name.toList, member, beq_self_eq_true _⟩
  obtain ⟨entry, here, lookup⟩ := lookup_of_findIdx? (splits.names ▸ first)
  refine ⟨bound, entry.2, splits, lookup, ?_⟩
  have text : groupText? key.toList u (position + 1) = some entry.2 := groups position entry here
  simp only [keyGet2_eq plain small, found, first, text, Option.bind_eq_bind, Option.bind_some,
    Option.getD_some]

theorem keyGet2_of_not_find?
    (none : (expression true (colonParts pattern.toList)).find? key.toList = none) :
    keyGet2 key pattern name = "" := by
  rw [keyGet2_eq plain small, none]
  rfl

theorem keyGet2_of_not_mem (other : name.toList ∉ variableNames (colonParts pattern.toList)) :
    keyGet2 key pattern name = "" := by
  have none : (variableNames (colonParts pattern.toList)).findIdx? (· == name.toList) = none := by
    refine List.findIdx?_eq_none_iff.mpr fun other' member => beq_false_of_ne ?_
    rintro rfl
    exact other member
  rw [keyGet2_eq plain small, none]
  cases (expression true (colonParts pattern.toList)).find? key.toList <;> rfl

end

/-- A key matches a plain pattern just if it splits along its parts: characters stand for themselves,
    wildcards for any text on one line, and variables for any text within one segment. Then a variable
    of the pattern has the text that it has first in such a split; other names have no text. -/
theorem colonPattern_means_parts {pattern : String} (plain : isPlain pattern = true)
    (small : ∀ grouped, fits colonVariable pattern grouped = true) (key name : String) :
    (keyMatch2 key pattern = true ↔
      ∃ bound, Splits (colonParts pattern.toList) key.toList bound) ∧
    (keyMatch2 key pattern = true → name.toList ∈ variableNames (colonParts pattern.toList) →
      ∃ bound text, Splits (colonParts pattern.toList) key.toList bound ∧
        bound.lookup name.toList = some text ∧ keyGet2 key pattern name = String.ofList text) ∧
    (keyMatch2 key pattern = false ∨ name.toList ∉ variableNames (colonParts pattern.toList) →
      keyGet2 key pattern name = "") := by
  have matched : keyMatch2 key pattern = true ↔
      ∃ bound, Splits (colonParts pattern.toList) key.toList bound :=
    keyMatch2_iff plain (small false)
  -- both expressions match the same keys, so the groups are there just if the key matches
  have found : ((expression true (colonParts pattern.toList)).find? key.toList).isSome =
      keyMatch2 key pattern :=
    Bool.eq_iff_iff.mpr (isSome_find?_expression_iff.trans matched.symm)
  refine ⟨matched, fun match' member => ?_, ?_⟩
  · obtain ⟨u, way⟩ := Option.isSome_iff_exists.mp (found.trans match')
    exact keyGet2_of_find? plain (small true) way member
  · rintro (unmatched | other)
    · have none := Option.isSome_eq_false_iff.mp (found.trans unmatched)
      exact keyGet2_of_not_find? plain (small true) (Option.isNone_iff_eq_none.mp none)
    · exact keyGet2_of_not_mem plain (small true) other

/-- A variable that stands twice, around a wildcard: the text is that of the first one. -/
theorem colonPattern_means_parts_twice :
    isPlain "/:x/*/:x" = true ∧ (∀ grouped, fits colonVariable "/:x/*/:x" grouped = true) ∧
      (∃ bound text, Splits (colonParts "/:x/*/:x".toList) "/a/b/c/d".toList bound ∧
        bound.lookup "x".toList = some text ∧
        keyGet2 "/a/b/c/d" "/:x/*/:x" "x" = String.ofList text) ∧
      keyGet2 "/a/b/c/d" "/:x/*/:x" "x" = "a" ∧ keyGet2 "/a//d/" "/:x/*/:x" "x" = "" := by
  have plain : isPlain "/:x/*/:x" = true := by decide
  have small : ∀ grouped, fits colonVariable "/:x/*/:x" grouped = true := by decide +kernel
  have matched : keyMatch2 "/a/b/c/d" "/:x/*/:x" = true := by decide +kernel
  have unmatched : keyMatch2 "/a//d/" "/:x/*/:x" = false := by decide +kernel
  have member : "x".toList ∈ variableNames (colonParts "/:x/*/:x".toList) := by
    simp [colonParts, variableNames]
  obtain ⟨_, text, _⟩ := colonPattern_means_parts plain small "/a/b/c/d" "x"
  obtain ⟨_, _, empty⟩ := colonPattern_means_parts plain small "/a//d/" "x"
  exact ⟨plain, small, text matched member, by decide +kernel, empty (.inl unmatched)⟩

end AccessControl.Pattern
