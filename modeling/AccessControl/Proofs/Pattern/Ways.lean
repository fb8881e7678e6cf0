import AccessControl.Proofs.Pattern.Parts

/-! # Ways along a pattern

A way through the expression of a pattern splits the key along its parts, and every split is a way.
Where variables are groups, a way remembers under each number the text of its variable.
-/

namespace AccessControl.Pattern

open Regex

/-! ## One part -/

/-- Where a part leaves a thread that goes past a text. -/
def PathPart.leaveAt (number : Option Nat) (t : Thread) (taken rest : List Char) :
    PathPart → Thread
  | .named _ =>
    match number with
    | none => t.past taken rest
    | some number => ((t.enter number).past taken rest).leave number
  | _ => t.past taken rest

theorem all_ne_iff {d : Char} (first : 0 < d.toNat) (below : d.toNat < 0xD7FF)
    {taken : List Char} :
    (∀ c ∈ taken, (CodePointSet.single d).complement.contains c = true) ↔ d ∉ taken := by
  simp only [CodePointSet.contains_complement_single first below, bne_iff_ne]
  exact ⟨fun all member => all d member rfl, fun none c member same => none (same ▸ member)⟩

theorem carries_segment_iff {t u : Thread} :
    (Regex.rep (.set (CodePointSet.single '/').complement) 1 none true).Carries t u ↔
      ∃ taken rest, (taken ≠ [] ∧ '/' ∉ taken) ∧ t.rest = taken ++ rest ∧ u = t.past taken rest := by
  simp only [carries_rep_set_iff, all_ne_iff (d := '/') (by decide) (by decide),
    Nat.one_le_iff_ne_zero, ne_eq, List.length_eq_zero_iff, and_assoc]

theorem carries_part_iff {part : PathPart} {number : Option Nat} {t u : Thread} :
    (part.regex number).Carries t u ↔
      ∃ taken rest, part.Takes taken ∧ t.rest = taken ++ rest ∧
        u = part.leaveAt number t taken rest := by
  match part, number with
  | .literal c, _ =>
      refine carries_set_iff.trans ?_
      simp only [CodePointSet.contains_single, beq_iff_eq]
      constructor
      · rintro ⟨_, rest, rfl, split, after⟩
        exact ⟨[_], rest, rfl, split, after⟩
      · rintro ⟨_, rest, rfl, split, after⟩
        exact ⟨c, rest, rfl, split, after⟩
  | .wildcard, _ =>
      refine carries_rep_set_iff.trans ?_
      simp only [all_ne_iff (d := '\n') (by decide) (by decide), Nat.zero_le, true_and]
      rfl
  | .named _, none => exact carries_segment_iff
  | .named _, some number =>
      constructor
      · rintro ⟨_, inner, rfl⟩
        obtain ⟨taken, rest, takes, split, rfl⟩ := carries_segment_iff.mp inner
        exact ⟨taken, rest, takes, split, rfl⟩
      · rintro ⟨taken, rest, takes, split, rfl⟩
        exact ⟨_, carries_segment_iff.mpr ⟨taken, rest, takes, split, rfl⟩, rfl⟩

theorem leaveAt_named (name : List Char) (number : Nat) (t : Thread) (taken rest : List Char) :
    (PathPart.named name).leaveAt (some number) t taken rest =
      ⟨t.position + taken.length, taken.getLast?.or t.previous, rest,
        (number, t.position) :: t.entered,
        (number, t.position, t.position + taken.length) :: t.groups⟩ := by
  simp [PathPart.leaveAt, Thread.leave, Thread.past, Thread.enter]

theorem rest_leaveAt {part : PathPart} {number : Option Nat} {t : Thread} {taken rest : List Char} :
    (part.leaveAt number t taken rest).rest = rest := by
  match part, number with
  | .literal _, _ => rfl
  | .wildcard, _ => rfl
  | .named _, none => rfl
  | .named name, some number => rw [leaveAt_named]

theorem drop_take_of_on {text : List Char} {t : Thread} (on : t.On text) {taken rest : List Char}
    (split : t.rest = taken ++ rest) :
    (text.take (t.position + taken.length)).drop t.position = taken := by
  obtain ⟨before, whole, position, _⟩ := on
  rw [whole, split, position, ← List.append_assoc, ← List.length_append, List.take_left,
    List.drop_left]

/-! ## All parts -/

/-- A way along parts remembers the texts of variables under the numbers from the first one on, and
    leaves the groups with lower numbers as they are. -/
structure Remembers (text : List Char) (number : Option Nat) (t u : Thread)
    (bound : List (List Char × List Char)) : Prop where
  kept : ∀ first, number = some first → ∀ j < first, groupText? text u j = groupText? text t j
  found : ∀ first, number = some first → ∀ k entry, bound[k]? = some entry →
    groupText? text u (first + k) = some entry.2

theorem Remembers.cons {text : List Char} {number : Option Nat} {t u : Thread} (on : t.On text)
    {part : PathPart} {taken rest : List Char} (split : t.rest = taken ++ rest)
    {bound : List (List Char × List Char)}
    (remembers : Remembers text (part.next number) (part.leaveAt number t taken rest) u bound) :
    Remembers text number t u (part.binding taken ++ bound) := by
  match part, number, remembers with
  | .literal _, _, remembers => exact ⟨remembers.kept, remembers.found⟩
  | .wildcard, _, remembers => exact ⟨remembers.kept, remembers.found⟩
  | .named _, none, _ => exact ⟨nofun, nofun⟩
  | .named name, some number, remembers =>
      rw [leaveAt_named] at remembers
      have kept := remembers.kept (number + 1) rfl
      have found := remembers.found (number + 1) rfl
      constructor
      · rintro _ ⟨⟩ j less
        rw [kept j (Nat.lt_succ_of_lt less), groupText?, List.lookup_cons,
          beq_false_of_ne (Nat.ne_of_lt less)]
        rfl
      · rintro _ ⟨⟩ k entry here
        cases k with
        | zero =>
            cases here
            rw [Nat.add_zero, kept number (Nat.lt_succ_self number), groupText?, List.lookup_cons_self]
            exact congrArg some (drop_take_of_on on split)
        | succ k =>
            rw [← found k entry here, Nat.succ_add]
            rfl

theorem splits_of_carries {text : List Char} {parts : List PathPart} {number : Option Nat}
    {t u : Thread} (on : t.On text)
    (way : (catOf ((numbered number parts).map fun (part, number) => part.regex number)).Carries
      t u) :
    ∃ taken bound, t.rest = taken ++ u.rest ∧ Splits parts taken bound ∧
      Remembers text number t u bound := by
  induction parts generalizing number t with
  | nil =>
      cases way
      exact ⟨[], [], rfl, .nil, fun _ _ _ _ => rfl, nofun⟩
  | cons part parts ih =>
      obtain ⟨m, step, others⟩ := carries_catOf_cons.mp way
      have middle := (onward_carries text _ step on).1
      obtain ⟨taken, rest, takes, split, rfl⟩ := carries_part_iff.mp step
      obtain ⟨more, bound, split', splits, remembers⟩ := ih middle others
      rw [rest_leaveAt] at split'
      refine ⟨taken ++ more, part.binding taken ++ bound, ?_, .cons takes splits,
        remembers.cons on split⟩
      rw [split, split', List.append_assoc]

theorem carries_of_splits {parts : List PathPart} {taken : List Char}
    {bound : List (List Char × List Char)} (splits : Splits parts taken bound) (number : Option Nat)
    {t : Thread} {rest : List Char} (split : t.rest = taken ++ rest) :
    ∃ u, (catOf ((numbered number parts).map fun (part, number) => part.regex number)).Carries t u ∧
      u.rest = rest := by
  induction splits generalizing number t with
  | nil => exact ⟨t, rfl, split⟩
  | @cons part taken takes parts key _ _ ih =>
      rw [List.append_assoc] at split
      have behind : (part.leaveAt number t taken (key ++ rest)).rest = key ++ rest := rest_leaveAt
      obtain ⟨u, others, last⟩ := ih (part.next number) behind
      refine ⟨u, carries_catOf_cons.mpr ⟨_, ?_, others⟩, last⟩
      exact carries_part_iff.mpr ⟨taken, key ++ rest, takes, split, rfl⟩

/-! ## Whole keys -/

theorem carries_expression_iff {grouped : Bool} {parts : List PathPart} {t u : Thread} :
    (expression grouped parts).Carries t u ↔ t.position = 0 ∧
      (catOf ((numbered (firstNumber grouped) parts).map
        fun (part, number) => part.regex number)).Carries t u ∧ u.rest = [] := by
  rw [expression, List.cons_append, carries_catOf_cons]
  simp only [carries_catOf_append, Carries, holds, beq_iff_eq, List.isEmpty_iff]
  constructor
  · rintro ⟨_, ⟨rfl, first⟩, _, way, rfl, last⟩
    exact ⟨first, way, last⟩
  · rintro ⟨first, way, last⟩
    exact ⟨t, ⟨rfl, first⟩, u, way, rfl, last⟩

theorem rest_of_first {text : List Char} {t : Thread} (on : t.On text) (first : t.position = 0) :
    t.rest = text := by
  obtain ⟨before, split, position, _⟩ := on
  obtain rfl := List.length_eq_zero_iff.mp (position.symm.trans first)
  exact split.symm

/-- The expression of parts matches the keys that split along them. -/
theorem isMatch_expression_iff {grouped : Bool} {parts : List PathPart} {key : List Char} :
    (expression grouped parts).isMatch key = true ↔ ∃ bound, Splits parts key bound := by
  rw [isMatch_iff]
  constructor
  · rintro ⟨t, u, on, way⟩
    obtain ⟨first, inner, last⟩ := carries_expression_iff.mp way
    obtain ⟨taken, bound, split, splits, _⟩ := splits_of_carries on inner
    rw [rest_of_first on first, last, List.append_nil] at split
    exact ⟨bound, split ▸ splits⟩
  · rintro ⟨bound, splits⟩
    let t : Thread := ⟨0, none, key, [], []⟩
    have whole : t.rest = key ++ [] := (List.append_nil key).symm
    obtain ⟨u, inner, last⟩ := carries_of_splits splits (firstNumber grouped) whole
    exact ⟨t, u, ⟨[], rfl, rfl, rfl⟩, carries_expression_iff.mpr ⟨rfl, inner, last⟩⟩

theorem repeatsReluctantly_expression (grouped : Bool) (parts : List PathPart) :
    (expression grouped parts).repeatsReluctantly = false := by
  refine repeatsReluctantly_catOf ?_
  simp only [List.mem_append, List.mem_cons, List.mem_map, List.not_mem_nil, or_false]
  rintro a ((rfl | ⟨⟨part, number⟩, _, rfl⟩) | rfl)
  · rfl
  · cases part <;> cases number <;> rfl
  · rfl

/-- The preferred match splits the key along the parts, and its groups are the texts of the variables
    in that split. -/
theorem splits_of_find? {parts : List PathPart} {key : List Char} {u : Thread}
    (found : (expression true parts).find? key = some u) :
    ∃ bound, Splits parts key bound ∧
      ∀ k entry, bound[k]? = some entry → groupText? key u (k + 1) = some entry.2 := by
  obtain ⟨t, on, _, _, way⟩ := carries_of_find? (repeatsReluctantly_expression true parts) found
  obtain ⟨first, inner, last⟩ := carries_expression_iff.mp way
  obtain ⟨taken, bound, split, splits, remembers⟩ := splits_of_carries on inner
  rw [rest_of_first on first, last, List.append_nil] at split
  refine ⟨bound, split ▸ splits, fun k entry here => ?_⟩
  rw [Nat.add_comm]
  exact remembers.found 1 rfl k entry here

theorem isSome_find?_expression_iff {grouped : Bool} {parts : List PathPart} {key : List Char} :
    ((expression grouped parts).find? key).isSome = true ↔ ∃ bound, Splits parts key bound := by
  rw [isSome_find? (repeatsReluctantly_expression grouped parts), isMatch_expression_iff]

/-! ## Patterns -/

/-- Whether the expression of a pattern takes no more room than it may, with groups or without. -/
def fits (readVariable? : VariableReader) (pattern : String) (grouped : Bool) : Bool :=
  (Regex.ofText? (expressionText (segmentText grouped) (piecesOf readVariable? pattern))).all
    Size.fits

theorem plain?_eq (readVariable? : VariableReader) (pattern : String) :
    plain? readVariable? pattern =
      Regex.parse (expressionText (segmentText false) (piecesOf readVariable? pattern)) :=
  rfl

theorem capturing?_eq (readVariable? : VariableReader) (pattern : String) :
    capturing? readVariable? pattern =
      Regex.parse (expressionText (segmentText true) (piecesOf readVariable? pattern)) :=
  rfl

section

variable {readVariable? : VariableReader} {pattern : String} {parts : List PathPart}
  (pieces : piecesOf readVariable? pattern = parts.flatMap (·.pieces))
  (plain : ∀ part ∈ parts, part.IsPlain)

include pieces plain

theorem parse_pieces {grouped : Bool} (small : fits readVariable? pattern grouped = true) :
    Regex.parse (expressionText (segmentText grouped) (piecesOf readVariable? pattern)) =
      some (expression grouped parts) := by
  rw [fits, pieces, expressionText_pieces] at small
  rw [pieces, expressionText_pieces, parse_partsText plain small]

/-- A key matches a pattern just if it splits along its parts. -/
theorem pathMatch_iff (small : fits readVariable? pattern false = true) {key : String} :
    pathMatch readVariable? key pattern = true ↔ ∃ bound, Splits parts key.toList bound := by
  rw [pathMatch, plain?_eq, parse_pieces pieces plain small]
  exact isMatch_expression_iff

end

end AccessControl.Pattern
