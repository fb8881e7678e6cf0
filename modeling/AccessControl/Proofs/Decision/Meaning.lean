import AccessControl.Proofs.Effect

/-! # What effects mean

A fold takes up one row after another and may stop at any of them. What comes out can be said at
once: the first matched row that settles the effect decides, and where there is none it depends on the
effect whether the request is allowed. A fold that has been decided stays as it is.
-/

namespace AccessControl

/-- The position of the first matched row with an effect that passes a test. -/
def firstMatched? (test : Effect → Bool) (rows : List (Bool × Effect)) : Option Nat :=
  rows.findIdx? fun row => row.1 && test row.2

/-- The positions of the matched rows that allow, in their order. -/
def allowingRows (rows : List (Bool × Effect)) : List Nat := rows.findIdxs (· = (true, .allow))

theorem getElem?_of_firstMatched {test : Effect → Bool} {rows : List (Bool × Effect)} {i : Nat}
    (first : firstMatched? test rows = some i) :
    ∃ effect, rows[i]? = some (true, effect) ∧ test effect = true := by
  obtain ⟨bound, passes, _⟩ := List.findIdx?_eq_some_iff_getElem.mp first
  obtain ⟨matched, passes⟩ := Bool.and_eq_true_iff.mp passes
  exact ⟨rows[i].2, by rw [List.getElem?_eq_getElem bound, ← matched], passes⟩

/-- What an effect makes of a complete sequence of rows, and the rows that it names for it. -/
def EffectKind.meaning (kind : EffectKind) (rows : List (Bool × Effect)) : Bool × List Nat :=
  if rows = [] then (false, [])
  else
    match kind with
    | .allowOverride =>
      match firstMatched? (· = .allow) rows with
      | some i => (true, [i])
      | none => (false, [])
    | .denyOverride =>
      match firstMatched? (· = .deny) rows with
      | some i => (false, [i])
      | none => (true, [])
    | .allowAndDeny =>
      match firstMatched? (· = .deny) rows, allowingRows rows with
      | some i, _ => (false, [i])
      | none, [] => (false, [])
      | none, allowing => (true, allowing)
    | .priority =>
      match firstMatched? (· ≠ .indeterminate) rows with
      | some i => (rows[i]? == some (true, .allow), [i])
      | none => (false, [])

namespace EffectFold

/-! ## Decided folds -/

/-- The fold after further rows, each with its position. -/
def feed (fold : EffectFold) (rows : List (Nat × Effect)) : EffectFold :=
  rows.foldl (fun fold row => fold.observe row.1 row.2) fold

theorem observe_of_isDecided {fold : EffectFold} (decided : fold.isDecided = true)
    (position : Nat) (effect : Effect) : fold.observe position effect = fold := by
  obtain ⟨outcome, settled⟩ := Option.isSome_iff_exists.mp decided
  unfold observe
  rw [settled]

theorem feed_of_isDecided {fold : EffectFold} (decided : fold.isDecided = true)
    (rows : List (Nat × Effect)) : fold.feed rows = fold := by
  induction rows with
  | nil => rfl
  | cons row rest ih =>
      show (fold.observe row.1 row.2).feed rest = fold
      rw [observe_of_isDecided decided, ih]

/-! ## Undecided folds -/

theorem forced_eq (kind : EffectKind) (effect : Effect) :
    forced kind effect = if kind.settledBy effect then some (effect == .allow) else none := by
  cases kind <;> cases effect <;> rfl

section

variable {fold : EffectFold} (undecided : fold.decided = none)
include undecided

theorem isDecided_next_eq (position : Nat) (row : Bool × Effect) :
    (fold.next position row).isDecided = (row.1 && fold.kind.settledBy row.2) :=
  isDecided_next (by simp [isDecided, undecided]) position row

theorem finish_next_of_settled (position : Nat) {effect : Effect}
    (settled : fold.kind.settledBy effect = true) :
    (fold.next position (true, effect)).finish = (effect == .allow, [position]) := by
  simp [next, observe, undecided, forced_eq, settled, finish]

theorem next_of_unsettled (position : Nat) {row : Bool × Effect}
    (unsettled : (row.1 && fold.kind.settledBy row.2) = false) :
    fold.next position row = { fold with
      allowing :=
        if fold.kind = .allowAndDeny ∧ row = (true, .allow) then position :: fold.allowing
        else fold.allowing } := by
  obtain ⟨matched, effect⟩ := row
  cases matched with
  | false => simp [next]
  | true =>
      have unforced : forced fold.kind effect = none := by
        rw [forced_eq, if_neg (by simpa using unsettled)]
      obtain ⟨kind, allowing, decided⟩ := fold
      obtain rfl : decided = none := undecided
      simp only at unforced
      simp only [next, if_true, observe, unforced, Prod.mk.injEq, true_and]
      split <;> rfl

/-- The first matched row that settles an effect decides. -/
theorem finish_observeAll_of_some (position : Nat) {rows : List (Bool × Effect)} {i : Nat}
    (first : firstMatched? fold.kind.settledBy rows = some i) :
    (fold.observeAll position rows).finish = (rows[i]? == some (true, .allow), [position + i]) := by
  induction rows generalizing fold position i with
  | nil => simp [firstMatched?] at first
  | cons row rest ih =>
      rw [observeAll_cons]
      unfold firstMatched? at first
      rw [List.findIdx?_cons] at first
      cases settles : row.1 && fold.kind.settledBy row.2 with
      | true =>
          obtain ⟨matched, effect⟩ := row
          obtain ⟨rfl, settled⟩ := Bool.and_eq_true_iff.mp settles
          rw [settles, if_pos rfl] at first
          obtain rfl := Option.some.inj first
          rw [isDecided_next_eq undecided, settles, if_pos rfl,
            finish_next_of_settled undecided position settled]
          simp
      | false =>
          rw [settles, if_neg Bool.false_ne_true] at first
          obtain ⟨j, later, rfl⟩ := Option.map_eq_some_iff.mp first
          have next := next_of_unsettled undecided position settles
          have still : (fold.next position row).decided = none := by rw [next, undecided]
          have rest' := ih still (position + 1) (by rw [kind_next]; exact later)
          rw [isDecided_next_eq undecided, settles, if_neg Bool.false_ne_true, rest']
          simp [Nat.add_comm, Nat.add_left_comm]

theorem observeAll_of_none (position : Nat) {rows : List (Bool × Effect)}
    (nowhere : firstMatched? fold.kind.settledBy rows = none) :
    fold.observeAll position rows = { fold with
      allowing :=
        if fold.kind = .allowAndDeny then
          (rows.findIdxs (· = (true, .allow)) position).reverse ++ fold.allowing
        else fold.allowing } := by
  induction rows generalizing fold position with
  | nil => simp [observeAll]
  | cons row rest ih =>
      unfold firstMatched? at nowhere
      obtain ⟨unsettled, others⟩ := List.forall_mem_cons.mp (List.findIdx?_eq_none_iff.mp nowhere)
      have next := next_of_unsettled undecided position unsettled
      have still : (fold.next position row).decided = none := by rw [next, undecided]
      have rest' := ih still (position + 1)
        (by rw [kind_next]; exact List.findIdx?_eq_none_iff.mpr others)
      rw [observeAll_cons, isDecided_next_eq undecided, unsettled, if_neg Bool.false_ne_true, rest',
        kind_next, next]
      by_cases all : fold.kind = .allowAndDeny <;> by_cases allows : row = (true, .allow) <;>
        simp [all, allows, List.findIdxs_cons]

end

end EffectFold

namespace EffectKind

theorem settledBy_eq (kind : EffectKind) :
    kind.settledBy =
      match kind with
      | .allowOverride => fun effect => effect = .allow
      | .denyOverride | .allowAndDeny => fun effect => effect = .deny
      | .priority => fun effect => effect ≠ .indeterminate := by
  cases kind <;> funext effect <;> cases effect <;> rfl

theorem finish_of_unsettled (kind : EffectKind) {rows : List (Bool × Effect)}
    (nowhere : firstMatched? kind.settledBy rows = none) :
    (EffectFold.observeAll { kind } 0 rows).finish =
      match kind with
      | .allowOverride | .priority => (false, [])
      | .denyOverride => (true, [])
      | .allowAndDeny => (!(allowingRows rows).isEmpty, allowingRows rows) := by
  have undecided : ({ kind } : EffectFold).decided = none := rfl
  rw [EffectFold.observeAll_of_none undecided 0 nowhere]
  cases kind with
  | allowOverride | denyOverride | priority => rfl
  | allowAndDeny => simp [EffectFold.finish, allowingRows]

/-- To take up some rows one after another comes to what the effect means. -/
theorem finish_observeAll (kind : EffectKind) {rows : List (Bool × Effect)} (nonempty : rows ≠ []) :
    (EffectFold.observeAll { kind } 0 rows).finish = kind.meaning rows := by
  unfold meaning
  rw [if_neg nonempty]
  cases first : firstMatched? kind.settledBy rows with
  | none =>
      rw [kind.finish_of_unsettled first]
      rw [settledBy_eq] at first
      cases kind with
      | allowOverride | denyOverride | priority => simp only [first]
      | allowAndDeny =>
          simp only [first]
          cases allowingRows rows <;> rfl
  | some i =>
      obtain ⟨effect, here, settles⟩ := getElem?_of_firstMatched first
      have undecided : ({ kind } : EffectFold).decided = none := rfl
      rw [EffectFold.finish_observeAll_of_some undecided 0 first, Nat.zero_add]
      rw [settledBy_eq] at first settles
      cases kind with
      | allowOverride | denyOverride | allowAndDeny =>
          obtain rfl := of_decide_eq_true settles
          simp only [first, here]
          rfl
      | priority => simp only [first]

end EffectKind

/-- Complete sequences of rows have the outcome that the effect means, for all of its kinds. Once a
    fold has told that it is decided, whatever rows come it tells so again, and its outcome stays. -/
theorem combine_eq_meaning :
    (∀ kind rows, combine kind rows = EffectKind.meaning kind rows) ∧
      ∀ (fold : EffectFold) position effect, (fold.observe position effect).isDecided = true →
        ∀ further, ((fold.observe position effect).feed further).isDecided = true ∧
          ((fold.observe position effect).feed further).finish =
            (fold.observe position effect).finish := by
  constructor
  · intro kind rows
    unfold combine
    simp only [List.isEmpty_iff]
    split
    · rename_i empty
      simp [EffectKind.meaning, empty]
    · rename_i nonempty
      exact kind.finish_observeAll nonempty
  · intro fold position effect decided further
    rw [EffectFold.feed_of_isDecided decided]
    exact ⟨decided, rfl⟩

/-- A row allows, another one denies. Rows that come behind them do not get the first one back. -/
theorem combine_eq_meaning_denied :
    combine .allowAndDeny [(true, .allow), (false, .deny), (true, .deny), (true, .allow)] =
        (false, [2]) ∧
      (EffectFold.observe { kind := .allowAndDeny, allowing := [0] } 2 .deny).isDecided = true ∧
      ((EffectFold.observe { kind := .allowAndDeny, allowing := [0] } 2 .deny).feed
        [(3, .allow), (4, .deny)]).finish = (false, [2]) := by
  obtain ⟨sequences, folds⟩ := combine_eq_meaning
  exact ⟨(sequences _ _).trans (by decide), rfl, (folds _ 2 .deny rfl _).2.trans rfl⟩

end AccessControl
