import AccessControl.Proofs.Pattern.Ways

/-! # Patterns without wildcards and variables

Such a pattern stands as it is between the two anchors of an expression, as in `^pattern$`. It
matches itself alone if none of its characters is special there; a special one keeps the meaning that
it has in an expression, so that with a bar each anchor holds for one side only.
-/

namespace AccessControl.Pattern

open Regex

/-- The characters by which a pattern has wildcards and variables. -/
def isSyntax (c : Char) : Bool := "*:\x7b\x7d".toList.contains c

/-- The text of the expression of a pattern that is taken as it is. -/
def wholeText (pattern : String) : List Char := '^' :: pattern.toList ++ ['$']

section

variable {pattern : String} (bare : pattern.toList.any isSyntax = false)

include bare

theorem piecesOf_eq_map {readVariable? : VariableReader}
    (unread : ∀ c, isSyntax c = false → ∀ rest, readVariable? (c :: rest) = none) :
    piecesOf readVariable? pattern = pattern.toList.map .text := by
  rw [List.any_eq_false] at bare
  have none : '*' ∉ pattern.toList := fun member => bare _ member rfl
  rw [piecesOf, openWildcards_eq_self none]
  exact pieces_eq_map (fun c member => unread c (eq_false_of_ne_true (bare c member)))
    (Nat.lt_succ_self _)

theorem piecesOf_colonVariable_eq_map :
    piecesOf colonVariable pattern = pattern.toList.map .text :=
  piecesOf_eq_map bare fun c plain => colonVariable_eq_none (by rintro rfl; cases plain)

theorem piecesOf_bracedVariable_eq_map :
    piecesOf bracedVariable pattern = pattern.toList.map .text :=
  piecesOf_eq_map bare fun c plain => bracedVariable_eq_none (by rintro rfl; cases plain)

end

theorem expressionText_map (variableText : List Char) (pattern : String) :
    expressionText variableText (pattern.toList.map .text) = wholeText pattern := by
  simp [expressionText, wholeText, List.flatMap_map]

theorem pathMatch_eq {readVariable? : VariableReader} {pattern : String}
    (pieces : piecesOf readVariable? pattern = pattern.toList.map .text) (key : String) :
    pathMatch readVariable? key pattern =
      (Regex.parse (wholeText pattern)).any (·.isMatch key.toList) := by
  rw [pathMatch, plain?_eq, pieces, expressionText_map]
  cases Regex.parse (wholeText pattern) <;> rfl

theorem keyMatch4_eq {pattern : String}
    (pieces : piecesOf bracedVariable pattern = pattern.toList.map .text) (key : String) :
    keyMatch4 key pattern =
      (Regex.parse (wholeText pattern)).any fun r => (r.find? key.toList).isSome := by
  have nameless : names (pattern.toList.map .text) = [] := by
    rw [names, List.filterMap_map]
    exact List.filterMap_eq_nil_iff.mpr fun _ _ => rfl
  rw [keyMatch4, capturing?_eq, pieces, expressionText_map, nameless]
  cases Regex.parse (wholeText pattern) with
  | none => rfl
  | some r =>
      simp only [Option.any_some]
      cases r.find? key.toList <;> rfl

theorem parse_wholeText {pattern : String} (plain : pattern.toList.any isSpecial = false)
    (small : (Regex.ofText? (wholeText pattern)).all Size.fits = true) :
    Regex.parse (wholeText pattern) =
      some (expression false (pattern.toList.map .literal)) := by
  have text : partsText false (pattern.toList.map .literal) = wholeText pattern := by
    simp [partsText, wholeText, List.flatMap_map, PathPart.text]
  have each : ∀ part ∈ pattern.toList.map PathPart.literal, part.IsPlain := by
    intro part member
    obtain ⟨c, inside, rfl⟩ := List.mem_map.mp member
    exact eq_false_of_ne_true (List.any_eq_false.mp plain c inside)
  rw [← text] at small ⊢
  exact parse_partsText each small

/-- A pattern without wildcards and variables matches what the expression `^pattern$` does. Unless one
    of its characters is special there, it matches itself alone. -/
theorem barePattern_matches {pattern : String}
    (bare : pattern.toList.any isSyntax = false) (key : String) :
    (keyMatch2 key pattern = (Regex.parse (wholeText pattern)).any (·.isMatch key.toList) ∧
      keyMatch3 key pattern = (Regex.parse (wholeText pattern)).any (·.isMatch key.toList) ∧
      keyMatch4 key pattern =
        (Regex.parse (wholeText pattern)).any (fun r => (r.find? key.toList).isSome) ∧
      keyMatch5 key pattern = (Regex.parse (wholeText pattern)).any
        (·.isMatch (key.toList.takeWhile (· != '?')))) ∧
    (pattern.toList.any isSpecial = false →
      (Regex.ofText? (wholeText pattern)).all Size.fits = true →
      (keyMatch2 key pattern = true ↔ key = pattern) ∧
      (keyMatch3 key pattern = true ↔ key = pattern) ∧
      (keyMatch4 key pattern = true ↔ key = pattern) ∧
      (keyMatch5 key pattern = true ↔
        String.ofList (key.toList.takeWhile (· != '?')) = pattern)) := by
  have colon := pathMatch_eq (piecesOf_colonVariable_eq_map bare)
  have braced := pathMatch_eq (piecesOf_bracedVariable_eq_map bare)
  have bound := keyMatch4_eq (piecesOf_bracedVariable_eq_map bare) key
  have cut : keyMatch5 key pattern = (Regex.parse (wholeText pattern)).any
      (·.isMatch (key.toList.takeWhile (· != '?'))) :=
    (braced _).trans (by rw [String.toList_ofList])
  refine ⟨⟨colon key, braced key, bound, cut⟩, fun plain small => ?_⟩
  have parsed := parse_wholeText plain small
  have itself (text : List Char) :
      (expression false (pattern.toList.map .literal)).isMatch text = true ↔
        text = pattern.toList := isMatch_expression_iff.trans splits_literals_iff
  have found : ((expression false (pattern.toList.map .literal)).find? key.toList).isSome = true ↔
      key.toList = pattern.toList := isSome_find?_expression_iff.trans splits_literals_iff
  rw [keyMatch2, keyMatch3, colon, braced, bound, cut, parsed]
  simp only [Option.any_some, itself, found, String.toList_inj, true_and]
  rw [← String.toList_inj, String.toList_ofList]

/-- Characters that are special nowhere but within brackets, and others, match themselves alone. -/
theorem barePattern_matches_matrixParameter :
    "/größe=1;v]".toList.any isSyntax = false ∧ "/größe=1;v]".toList.any isSpecial = false ∧
      (Regex.ofText? (wholeText "/größe=1;v]")).all Size.fits = true ∧
      keyMatch4 "/größe=1;v]" "/größe=1;v]" = true ∧
      keyMatch5 "/größe=1;v]?w" "/größe=1;v]" = true ∧
      ¬keyMatch2 "/größe=1;v" "/größe=1;v]" = true := by
  have bare : "/größe=1;v]".toList.any isSyntax = false := rfl
  have plain : "/größe=1;v]".toList.any isSpecial = false := rfl
  have small : (Regex.ofText? (wholeText "/größe=1;v]")).all Size.fits = true := by decide +kernel
  obtain ⟨_, _, same, _⟩ := (barePattern_matches bare "/größe=1;v]").2 plain small
  obtain ⟨_, _, _, cut⟩ := (barePattern_matches bare "/größe=1;v]?w").2 plain small
  obtain ⟨other, _⟩ := (barePattern_matches bare "/größe=1;v").2 plain small
  exact ⟨bare, plain, small, same.mpr rfl, cut.mpr rfl, by rw [other]; decide⟩

/-- A dot matches any character, so the pattern lets another key in. No special character alone
    matches itself and nothing else. -/
theorem special_characters_match_others :
    "a.c".toList.any isSyntax = false ∧ "abc" ≠ "a.c" ∧
      keyMatch2 "abc" "a.c" = true ∧ keyMatch3 "abc" "a.c" = true ∧
      keyMatch4 "abc" "a.c" = true ∧ keyMatch5 "abc" "a.c" = true ∧
      ".+?()|[^$\\".toList.all fun c =>
        !keyMatch2 (String.singleton c) (String.singleton c) ||
          keyMatch2 "x" (String.singleton c) := by
  decide +kernel

end AccessControl.Pattern
