import AccessControl.Proofs.Decision.RowByRow

/-! # Decisions by the matched rows

A fold knows rows by their positions among all rows. Its decision can be said without positions, by
the matched rows alone, so that rows that do not match count for nothing; only where every request is
allowed that no row denies does it matter that there is some row at all.
-/

namespace AccessControl

namespace EffectKind

/-- The decision of matched rows, of which some have been seen: those that allow, where all of them may
    be needed. -/
def settle (kind : EffectKind) (effectOf : Row → Effect) (allowing : List Row) :
    List Row → Decision
  | [] =>
    match kind with
    | .allowOverride => { allowed := false, explain := [] }
    | .priority => { allowed := false, explain := [] }
    | .denyOverride => { allowed := true, explain := [] }
    | .allowAndDeny => { allowed := !allowing.isEmpty, explain := allowing }
  | row :: rest =>
    match EffectFold.forced kind (effectOf row) with
    | some allowed => { allowed, explain := [row] }
    | none =>
      if kind = .allowAndDeny ∧ effectOf row = .allow then
        kind.settle effectOf (allowing ++ [row]) rest
      else kind.settle effectOf allowing rest

end EffectKind

namespace Decision

variable {kind : EffectKind} {answer : Row → Bool} {effectOf : Row → Effect}

theorem ofOutcome_observeAll (before rest : List Row) {fold : EffectFold}
    (undecided : fold.decided = none) (seen : ∀ i ∈ fold.allowing, i < before.length) :
    Decision.ofOutcome (before ++ rest)
        (fold.observeAll before.length (rest.map fun row => (answer row, effectOf row))).finish =
      fold.kind.settle effectOf (fold.allowing.reverse.filterMap fun i => (before ++ rest)[i]?)
        (rest.filter answer) := by
  induction rest generalizing before fold with
  | nil =>
      have some_seen : (fold.allowing.filterMap fun i => before[i]?).isEmpty =
          fold.allowing.isEmpty := by
        rw [Bool.eq_iff_iff]
        simp only [List.isEmpty_iff, List.filterMap_eq_nil_iff, List.getElem?_eq_none_iff]
        constructor
        · intro beyond
          refine List.eq_nil_iff_forall_not_mem.mpr fun i member => ?_
          exact absurd (seen i member) (by have := beyond i member; omega)
        · intro none_seen
          simp [none_seen]
      cases kind : fold.kind <;>
        simp [EffectFold.observeAll, EffectFold.finish, undecided, kind, EffectKind.settle,
          Decision.ofOutcome, some_seen]
  | cons row rest ih =>
      have later (fold : EffectFold) (undecided : fold.decided = none)
          (seen : ∀ i ∈ fold.allowing, i < before.length + 1) :=
        ih (before ++ [row]) undecided (by simpa using seen)
      simp only [List.append_assoc, List.singleton_append, List.length_append,
        List.length_singleton] at later
      rw [List.map_cons, EffectFold.observeAll_cons]
      cases matched : answer row with
      | false =>
          have next : fold.next before.length (false, effectOf row) = fold := rfl
          have open' : fold.isDecided = false := by simp [EffectFold.isDecided, undecided]
          rw [next, open', List.filter_cons_of_neg (by simp [matched])]
          exact later fold undecided fun i member => Nat.lt_succ_of_lt (seen i member)
      | true =>
          rw [List.filter_cons_of_pos matched]
          simp only [EffectFold.next, if_true, EffectFold.observe, undecided, EffectKind.settle]
          cases forced : EffectFold.forced fold.kind (effectOf row) with
          | some allowed =>
              simp [EffectFold.isDecided, EffectFold.finish, Decision.ofOutcome]
          | none =>
              simp only
              split
              · have more := later { fold with allowing := before.length :: fold.allowing } undecided
                  (by simpa using fun i member => Nat.lt_succ_of_lt (seen i member))
                simpa [EffectFold.isDecided, undecided] using more
              · simp only [EffectFold.isDecided, undecided, Option.isSome_none, Bool.false_eq_true,
                  if_false]
                exact later fold undecided fun i member => Nat.lt_succ_of_lt (seen i member)

/-- The decision of a complete sequence of rows is settled by the matched ones. Without any row
    nothing is allowed. -/
theorem ofOutcome_combine (kind : EffectKind) (answer : Row → Bool) (effectOf : Row → Effect)
    (rows : List Row) :
    Decision.ofOutcome rows (combine kind (rows.map fun row => (answer row, effectOf row))) =
      if rows.isEmpty then { allowed := false, explain := [] }
      else kind.settle effectOf [] (rows.filter answer) := by
  unfold combine
  simp only [List.isEmpty_map]
  split
  · rfl
  · let fold : EffectFold := { kind }
    have undecided : fold.decided = none := rfl
    exact ofOutcome_observeAll [] rows undecided (by simp)

/-- Unless all is allowed that no row denies, rows that do not match count for nothing. -/
theorem ofOutcome_combine_filter (strict : kind ≠ .denyOverride) (answer : Row → Bool)
    (effectOf : Row → Effect) (rows : List Row) :
    Decision.ofOutcome rows (combine kind (rows.map fun row => (answer row, effectOf row))) =
      kind.settle effectOf [] (rows.filter answer) := by
  rw [ofOutcome_combine]
  split
  · rename_i none
    rw [List.isEmpty_iff.mp none]
    cases kind with
    | denyOverride => exact absurd rfl strict
    | _ => rfl
  · rfl

end Decision

/-! ## Verdicts

What is allowed can be said from the effects of the matched rows alone. But for the priority effect,
only which effects there are counts for it, so the order of the rows does not matter.
-/

/-- Whether the effects of the matched rows allow a request, of which there are rows at all. -/
def EffectKind.verdict : EffectKind → List Effect → Bool
  | .allowOverride, effects => effects.contains .allow
  | .denyOverride, effects => !effects.contains .deny
  | .allowAndDeny, effects => effects.contains .allow && !effects.contains .deny
  | .priority, effects => effects.find? (· != .indeterminate) == some .allow

namespace EffectKind

theorem allowed_settle_allowAndDeny (effectOf : Row → Effect) (allowing rows : List Row) :
    (EffectKind.allowAndDeny.settle effectOf allowing rows).allowed =
      ((!allowing.isEmpty || (rows.map effectOf).contains .allow) &&
        !(rows.map effectOf).contains .deny) := by
  induction rows generalizing allowing with
  | nil => simp [settle]
  | cons row rest ih =>
      unfold settle
      cases effect : effectOf row with
      | allow => simp [EffectFold.forced, effect, ih]
      | deny => simp [EffectFold.forced, effect]
      | indeterminate => simp [EffectFold.forced, effect, ih]

/-- What the matched rows settle is the verdict on their effects. -/
theorem allowed_settle (kind : EffectKind) (effectOf : Row → Effect) (rows : List Row) :
    (kind.settle effectOf [] rows).allowed = kind.verdict (rows.map effectOf) := by
  cases kind with
  | allowAndDeny => simp [allowed_settle_allowAndDeny, verdict]
  | allowOverride =>
      induction rows with
      | nil => rfl
      | cons row rest ih =>
          unfold settle
          cases effect : effectOf row <;> simp_all [EffectFold.forced, verdict]
  | denyOverride =>
      induction rows with
      | nil => rfl
      | cons row rest ih =>
          unfold settle
          cases effect : effectOf row <;> simp_all [EffectFold.forced, verdict]
  | priority =>
      induction rows with
      | nil => rfl
      | cons row rest ih =>
          unfold settle
          cases effect : effectOf row <;> simp_all [EffectFold.forced, verdict]

/-- But for the priority effect, a verdict does not depend on the order of the effects. -/
theorem verdict_perm {kind : EffectKind} (unordered : kind ≠ .priority) {effects effects' : List Effect}
    (perm : effects.Perm effects') : kind.verdict effects = kind.verdict effects' := by
  have contains (effect : Effect) : effects.contains effect = effects'.contains effect := by
    rw [Bool.eq_iff_iff, List.contains_iff_mem, List.contains_iff_mem]
    exact perm.mem_iff
  cases kind with
  | priority => exact absurd rfl unordered
  | allowOverride | denyOverride | allowAndDeny => simp only [verdict, contains]

end EffectKind

theorem Decision.allowed_ofOutcome_combine (kind : EffectKind) (answer : Row → Bool)
    (effectOf : Row → Effect) (rows : List Row) :
    (Decision.ofOutcome rows
      (combine kind (rows.map fun row => (answer row, effectOf row)))).allowed =
        (!rows.isEmpty && kind.verdict ((rows.filter answer).map effectOf)) := by
  rw [Decision.ofOutcome_combine]
  cases rows.isEmpty with
  | true => rfl
  | false => simp [EffectKind.allowed_settle]

/-- Where every row allows, one matched row is enough. -/
theorem Decision.allowed_allowOverride_iff {effectOf : Row → Effect}
    (allows : ∀ row, effectOf row = .allow) (answer : Row → Bool) (rows : List Row) :
    (Decision.ofOutcome rows (combine .allowOverride
      (rows.map fun row => (answer row, effectOf row)))).allowed = true ↔
        ∃ row ∈ rows, answer row = true := by
  rw [allowed_ofOutcome_combine]
  simp only [EffectKind.verdict, Bool.and_eq_true, List.contains_iff_mem, List.mem_map,
    List.mem_filter, allows, and_true]
  constructor
  · rintro ⟨_, row, stored, matched⟩
    exact ⟨row, stored, matched⟩
  · rintro ⟨row, stored, matched⟩
    refine ⟨?_, row, stored, matched⟩
    cases rows with
    | nil => simp at stored
    | cons => rfl

theorem Decision.allowed_perm {kind : EffectKind} {rows rows' : List Row}
    (perm : rows.Perm rows') (settled : kind = .priority → rows = rows') (answer : Row → Bool)
    (effectOf : Row → Effect) :
    (Decision.ofOutcome rows
      (combine kind (rows.map fun row => (answer row, effectOf row)))).allowed =
    (Decision.ofOutcome rows'
      (combine kind (rows'.map fun row => (answer row, effectOf row)))).allowed := by
  rw [allowed_ofOutcome_combine, allowed_ofOutcome_combine]
  by_cases ordered : kind = .priority
  · rw [settled ordered]
  · have empty : rows.isEmpty = rows'.isEmpty := by
      rw [Bool.eq_iff_iff, List.isEmpty_iff_length_eq_zero, List.isEmpty_iff_length_eq_zero,
        perm.length_eq]
    rw [empty, EffectKind.verdict_perm ordered ((perm.filter answer).map effectOf)]

end AccessControl
