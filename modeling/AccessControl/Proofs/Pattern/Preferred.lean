import AccessControl.Proofs.Pattern.Ways
import AccessControl.Proofs.Regex.Preference

/-! # The preferred split

Of the splits of a key along a pattern, the expression of the pattern commits to one: part by part from
the left, the longest text is taken that leaves a split of the rest.
-/

namespace AccessControl.Pattern

open Regex

/-- Split a key along the parts of a pattern, where each takes the longest text that leaves a split of
    what is behind. -/
inductive Preferred : List PathPart → List Char → List (List Char × List Char) → Prop where
  | nil : Preferred [] [] []
  | cons {part : PathPart} {taken : List Char} (takes : part.Takes taken) {parts : List PathPart}
      {key : List Char} (longest : ∀ taken' key', part.Takes taken' → taken ++ key = taken' ++ key' →
        (∃ bound, Splits parts key' bound) → taken'.length ≤ taken.length)
      {bound : List (List Char × List Char)} (rest : Preferred parts key bound) :
      Preferred (part :: parts) (taken ++ key) (part.binding taken ++ bound)

theorem Preferred.splits {parts : List PathPart} {key : List Char}
    {bound : List (List Char × List Char)} (preferred : Preferred parts key bound) :
    Splits parts key bound := by
  induction preferred with
  | nil => exact .nil
  | cons takes _ _ ih => exact .cons takes ih

theorem Preferred.unique {parts : List PathPart} {key : List Char}
    {bound bound' : List (List Char × List Char)} (preferred : Preferred parts key bound)
    (preferred' : Preferred parts key bound') : bound = bound' := by
  generalize same : key = key' at preferred'
  induction preferred generalizing key' bound' with
  | nil =>
      cases preferred'
      rfl
  | cons takes longest rest ih =>
      cases preferred' with
      | cons takes' longest' rest' =>
          have le := longest _ _ takes' same ⟨_, rest'.splits⟩
          have le' := longest' _ _ takes same.symm ⟨_, rest.splits⟩
          obtain ⟨rfl, rfl⟩ := List.append_inj same (Nat.le_antisymm le' le)
          rw [ih _ rfl rest']

theorem Preferred.append {parts parts' : List PathPart} {key : List Char}
    {bound : List (List Char × List Char)} (preferred : Preferred (parts ++ parts') key bound) :
    ∃ before behind first last, key = before ++ behind ∧ bound = first ++ last ∧
      Splits parts before first ∧ Preferred parts' behind last := by
  induction parts generalizing key bound with
  | nil => exact ⟨[], key, [], bound, rfl, rfl, .nil, preferred⟩
  | cons part parts ih =>
      cases preferred with
      | @cons _ taken takes _ _ _ _ rest =>
          obtain ⟨before, behind, first, last, rfl, rfl, splits, others⟩ := ih rest
          exact ⟨taken ++ before, behind, part.binding taken ++ first, last,
            (List.append_assoc _ _ _).symm, (List.append_assoc _ _ _).symm, .cons takes splits, others⟩

/-! ## The order of the ways -/

/-- The ways on from a thread past a part, the longest first. -/
def PathPart.options (number : Option Nat) (t : Thread) : PathPart → List Thread
  | .literal c => pastOne (.single c) t
  | .wildcard => beyond (CodePointSet.single '\n').complement t t.rest ++ [t]
  | .named _ =>
    match number with
    | none => beyond (CodePointSet.single '/').complement t t.rest
    | some number =>
      (beyond (CodePointSet.single '/').complement (t.enter number) t.rest).map (·.leave number)

theorem ranks_part (text : List Char) (number : Option Nat) (part : PathPart) :
    Ranks text (part.regex number) fun t => part.options number t := by
  match part, number with
  | .literal c, _ => exact .set _
  | .wildcard, _ => exact .zeroOrMore _
  | .named _, none => exact .oneOrMore _
  | .named _, some number => exact (Ranks.oneOrMore _).group number

theorem pairwise_options (number : Option Nat) (t : Thread) (part : PathPart) :
    (part.options number t).Pairwise fun u v => v.position < u.position := by
  match part, number with
  | .literal c, _ =>
      simp only [PathPart.options, pastOne]
      split
      · exact .nil
      · split
        · exact List.pairwise_singleton _ _
        · exact .nil
  | .wildcard, _ =>
      refine List.pairwise_append.mpr
        ⟨pairwise_beyond t, List.pairwise_singleton _ _, fun u member v last => ?_⟩
      obtain rfl := List.mem_singleton.mp last
      exact lt_position_beyond member
  | .named _, none => exact pairwise_beyond t
  | .named _, some number =>
      refine List.pairwise_map.mpr ((pairwise_beyond (t.enter number)).imp fun further => ?_)
      rwa [Thread.position_leave, Thread.position_leave]

theorem position_leaveAt {part : PathPart} {number : Option Nat} {t : Thread}
    {taken rest : List Char} :
    (part.leaveAt number t taken rest).position = t.position + taken.length := by
  match part, number with
  | .literal _, _ => rfl
  | .wildcard, _ => rfl
  | .named _, none => rfl
  | .named name, some number => rw [leaveAt_named]

/-- The ways on from a thread along parts to the end of the text, the preferred one first. -/
def rowOptions : Option Nat → List PathPart → Thread → List Thread
  | _, [], t => if holds .textEnd t then [t] else []
  | number, part :: parts, t =>
    (part.options number t).flatMap (rowOptions (part.next number) parts)

theorem ranks_row (text : List Char) (number : Option Nat) (parts : List PathPart) :
    Ranks text (catOf ((numbered number parts).map (fun (part, number) => part.regex number) ++
      [.anchor .textEnd])) (rowOptions number parts) := by
  induction parts generalizing number with
  | nil => exact .anchor .textEnd
  | cons part parts ih =>
      have others := (ranks_part text number part).cat (ih (part.next number))
      cases parts <;> exact others

theorem rowOptions_ne_nil_iff {text : List Char} {number : Option Nat} {parts : List PathPart}
    {t : Thread} (on : t.On text) :
    rowOptions number parts t ≠ [] ↔ ∃ bound, Splits parts t.rest bound := by
  have way {u : Thread} : u ∈ rowOptions number parts t ↔ (catOf ((numbered number parts).map
      fun (part, number) => part.regex number)).Carries t u ∧ u.rest = [] := by
    rw [(ranks_row text number parts).mem_iff on, carries_catOf_append]
    simp only [Carries, holds, List.isEmpty_iff]
    constructor
    · rintro ⟨_, way, rfl, last⟩
      exact ⟨way, last⟩
    · rintro ⟨way, last⟩
      exact ⟨u, way, rfl, last⟩
  constructor
  · intro some
    obtain ⟨u, member⟩ := List.exists_mem_of_ne_nil _ some
    obtain ⟨inner, last⟩ := way.mp member
    obtain ⟨taken, bound, split, splits, _⟩ := splits_of_carries on inner
    rw [last, List.append_nil] at split
    exact ⟨bound, split ▸ splits⟩
  · rintro ⟨bound, splits⟩
    obtain ⟨u, inner, last⟩ := carries_of_splits splits number (List.append_nil t.rest).symm
    exact List.ne_nil_of_mem (way.mpr ⟨inner, last⟩)

theorem preferred_of_head? {text : List Char} {parts : List PathPart} {number : Option Nat}
    {t u : Thread} (on : t.On text) (first : (rowOptions number parts t).head? = some u) :
    ∃ bound, Preferred parts t.rest bound ∧ Remembers text number t u bound := by
  induction parts generalizing number t with
  | nil =>
      unfold rowOptions at first
      split at first
      next last =>
        obtain rfl : t = u := Option.some.inj first
        rw [List.isEmpty_iff.mp last]
        exact ⟨[], .nil, fun _ _ _ _ => rfl, nofun⟩
      · cases first
  | cons part parts ih =>
      rw [rowOptions, List.head?_flatMap, List.findSome?_eq_some_iff] at first
      obtain ⟨longer, m, shorter, order, here, none⟩ := first
      have options {m : Thread} := (ranks_part text number part).mem_iff on (u := m)
      have member : m ∈ part.options number t := by simp [order]
      have middle := (ranks_part text number part).on on m member
      obtain ⟨taken, rest, takes, split, rfl⟩ := carries_part_iff.mp (options.mp member)
      obtain ⟨bound, preferred, remembers⟩ := ih middle here
      rw [rest_leaveAt] at preferred
      refine ⟨part.binding taken ++ bound, split ▸ .cons takes ?_ preferred, remembers.cons on split⟩
      intro taken' key' takes' split' others
      have way : part.leaveAt number t taken' key' ∈ part.options number t :=
        options.mpr (carries_part_iff.mpr ⟨taken', key', takes', split.trans split', rfl⟩)
      have goesOn : rowOptions (part.next number) parts (part.leaveAt number t taken' key') ≠ [] := by
        rw [rowOptions_ne_nil_iff ((ranks_part text number part).on on _ way), rest_leaveAt]
        exact others
      rw [order, List.mem_append, List.mem_cons] at way
      have ordered := order ▸ pairwise_options number t part
      obtain before | same | behind := way
      · exact absurd (List.head?_eq_none_iff.mp (none _ before)) goesOn
      · have place := congrArg Thread.position same
        rw [position_leaveAt, position_leaveAt] at place
        omega
      · have further := (List.pairwise_cons.mp (List.pairwise_append.mp ordered).2.1).1 _ behind
        rw [position_leaveAt, position_leaveAt] at further
        omega

/-! ## Whole keys -/

/-- The preferred match is the preferred split, and its groups are the texts of the variables there. -/
theorem preferred_of_find? {parts : List PathPart} {key : List Char} {u : Thread}
    (found : (expression true parts).find? key = some u) :
    ∃ bound, Preferred parts key bound ∧
      ∀ k entry, bound[k]? = some entry → groupText? key u (k + 1) = some entry.2 := by
  have ranks : Ranks key (expression true parts) fun t =>
      (if holds .textStart t then [t] else []).flatMap (rowOptions (firstNumber true) parts) := by
    have whole := (Ranks.anchor .textStart).cat (ranks_row key (firstNumber true) parts)
    cases parts <;> exact whole
  have starts {t : Thread} (start : t ∈ Thread.startsFrom 0 none key) := Thread.On.of_mem_starts start
  rw [find?, repeatsReluctantly_expression, if_neg (by decide),
    ranks.head?_run fun t start => (starts start).1] at found
  obtain ⟨t, start, first⟩ := List.exists_of_findSome?_eq_some found
  obtain ⟨on, _, _⟩ := starts start
  split at first
  next begins =>
    rw [List.flatMap_singleton] at first
    obtain ⟨bound, preferred, remembers⟩ := preferred_of_head? on first
    rw [rest_of_first on (beq_iff_eq.mp begins)] at preferred
    refine ⟨bound, preferred, fun k entry here => ?_⟩
    rw [Nat.add_comm]
    exact remembers.found 1 rfl k entry here
  · cases first

theorem exists_preferred_iff {parts : List PathPart} {key : List Char} :
    (∃ bound, Preferred parts key bound) ↔ ∃ bound, Splits parts key bound := by
  constructor
  · exact fun ⟨bound, preferred⟩ => ⟨bound, preferred.splits⟩
  · intro splits
    obtain ⟨u, found⟩ : ∃ u, (expression true parts).find? key = some u :=
      Option.isSome_iff_exists.mp (isSome_find?_expression_iff.mpr splits)
    obtain ⟨bound, preferred, _⟩ := preferred_of_find? found
    exact ⟨bound, preferred⟩

end AccessControl.Pattern
