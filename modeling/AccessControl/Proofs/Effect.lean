import AccessControl.Effect
import Mathlib.Data.List.Basic

/-! # Folding effects

What one matched row does to a fold, and which rows a fold can name in its outcome: matched ones
only, in the order in which they were seen.
-/

namespace AccessControl

/-- Whether a matched row with an effect settles the outcome, whatever comes behind it. -/
def EffectKind.settledBy : EffectKind → Effect → Bool
  | .allowOverride, effect => effect = .allow
  | .denyOverride, effect => effect = .deny
  | .allowAndDeny, effect => effect = .deny
  | .priority, effect => effect = .allow || effect = .deny

theorem EffectKind.isSome_forced (kind : EffectKind) (effect : Effect) :
    (EffectFold.forced kind effect).isSome = kind.settledBy effect := by
  cases kind <;> cases effect <;> rfl

namespace EffectFold

/-- The fold after one more row. -/
def next (fold : EffectFold) (position : Nat) (outcome : Bool × Effect) : EffectFold :=
  if outcome.1 then fold.observe position outcome.2 else fold

theorem observeAll_cons (fold : EffectFold) (position : Nat) (outcome : Bool × Effect)
    (rest : List (Bool × Effect)) :
    fold.observeAll position (outcome :: rest) =
      if (fold.next position outcome).isDecided then fold.next position outcome
      else (fold.next position outcome).observeAll (position + 1) rest := rfl

@[simp]
theorem kind_observe (fold : EffectFold) (position : Nat) (effect : Effect) :
    (fold.observe position effect).kind = fold.kind := by
  unfold observe
  cases fold.decided with
  | some _ => rfl
  | none =>
      cases forced fold.kind effect with
      | some _ => rfl
      | none =>
          simp only
          split <;> rfl

@[simp]
theorem kind_next (fold : EffectFold) (position : Nat) (outcome : Bool × Effect) :
    (fold.next position outcome).kind = fold.kind := by
  unfold next
  split
  · exact kind_observe fold position outcome.2
  · rfl

/-- An undecided fold is decided by exactly the matched rows that settle its kind. -/
theorem isDecided_next {fold : EffectFold} (undecided : fold.isDecided = false)
    (position : Nat) (outcome : Bool × Effect) :
    (fold.next position outcome).isDecided = (outcome.1 && fold.kind.settledBy outcome.2) := by
  obtain ⟨matched, effect⟩ := outcome
  cases matched with
  | false => exact undecided
  | true =>
      have none_decided : fold.decided = none := by
        simpa only [isDecided, Option.isSome_eq_false_iff, Option.isNone_iff_eq_none] using undecided
      simp only [next, if_true, Bool.true_and, ← EffectKind.isSome_forced, observe, none_decided]
      cases h : forced fold.kind effect with
      | some _ => rfl
      | none =>
          simp only
          split <;> simp only [isDecided, none_decided, Option.isSome_none]

/-! ## The rows that a fold can name -/

/-- A fold that has seen some outcomes keeps the positions of matched ones, the latest first. -/
structure HasSeen (fold : EffectFold) (seen : List (Bool × Effect)) : Prop where
  allowing : ∀ i ∈ fold.allowing, ∃ effect, seen[i]? = some (true, effect)
  descending : fold.allowing.Pairwise (· > ·)
  decided : ∀ allowed i, fold.decided = some (allowed, i) →
    ∃ effect, seen[i]? = some (true, effect)

theorem HasSeen.start (kind : EffectKind) : HasSeen { kind } [] where
  allowing := by simp
  descending := List.Pairwise.nil
  decided := by simp

private theorem seen_append {seen : List (Bool × Effect)} {i : Nat}
    (h : ∃ effect, seen[i]? = some (true, effect)) (more : List (Bool × Effect)) :
    ∃ effect, (seen ++ more)[i]? = some (true, effect) := by
  obtain ⟨effect, at_i⟩ := h
  exact ⟨effect, by rw [List.getElem?_append_left (List.getElem?_eq_some_iff.mp at_i).1, at_i]⟩

theorem HasSeen.more {fold : EffectFold} {seen : List (Bool × Effect)} (h : HasSeen fold seen)
    (rest : List (Bool × Effect)) : HasSeen fold (seen ++ rest) where
  allowing i member := seen_append (h.allowing i member) rest
  descending := h.descending
  decided allowed i eq := seen_append (h.decided allowed i eq) rest

theorem HasSeen.next {fold : EffectFold} {seen : List (Bool × Effect)} (h : HasSeen fold seen)
    (outcome : Bool × Effect) : HasSeen (fold.next seen.length outcome) (seen ++ [outcome]) := by
  obtain ⟨matched, effect⟩ := outcome
  have kept := h.more [(matched, effect)]
  cases matched with
  | false => exact kept
  | true =>
      have here : ∃ effect', (seen ++ [(true, effect)])[seen.length]? = some (true, effect') :=
        ⟨effect, by simp⟩
      simp only [EffectFold.next, if_true, observe]
      cases fold.decided with
      | some _ => exact kept
      | none =>
          cases forced fold.kind effect with
          | some allowed =>
              refine ⟨kept.allowing, kept.descending, ?_⟩
              intro allowed' i eq
              obtain ⟨-, rfl⟩ := Prod.mk.inj (Option.some.inj eq)
              exact here
          | none =>
              simp only
              split
              · refine ⟨?_, ?_, by simp⟩
                · intro i member
                  rcases List.mem_cons.mp member with rfl | member
                  · exact here
                  · exact kept.allowing i member
                · refine List.pairwise_cons.mpr ⟨?_, kept.descending⟩
                  intro i member
                  obtain ⟨_, at_i⟩ := h.allowing i member
                  exact (List.getElem?_eq_some_iff.mp at_i).1
              · exact kept

theorem HasSeen.all {fold : EffectFold} {seen : List (Bool × Effect)} (h : HasSeen fold seen)
    (rest : List (Bool × Effect)) :
    HasSeen (fold.observeAll seen.length rest) (seen ++ rest) := by
  induction rest generalizing fold seen with
  | nil => simpa only [List.append_nil, observeAll] using h
  | cons outcome rest ih =>
      rw [observeAll_cons]
      split
      · simpa only [List.append_assoc, List.singleton_append] using (h.next outcome).more rest
      · simpa only [List.length_append, List.length_singleton, List.append_assoc,
          List.singleton_append] using ih (h.next outcome)

theorem HasSeen.finish {fold : EffectFold} {seen : List (Bool × Effect)} (h : HasSeen fold seen) :
    (∀ i ∈ fold.finish.2, ∃ effect, seen[i]? = some (true, effect)) ∧
      fold.finish.2.Pairwise (· < ·) := by
  unfold EffectFold.finish
  cases decided : fold.decided with
  | some outcome =>
      refine ⟨?_, List.pairwise_singleton _ _⟩
      intro i member
      obtain rfl := List.mem_singleton.mp member
      exact h.decided outcome.1 outcome.2 decided
  | none =>
      cases fold.kind with
      | allowAndDeny =>
          refine ⟨?_, List.pairwise_reverse.mpr h.descending⟩
          intro i member
          exact h.allowing i (List.mem_reverse.mp member)
      | allowOverride | denyOverride | priority => simp

end EffectFold

/-- The decisive rows of a complete sequence are matched, and stand in their order. -/
theorem combine_positions (kind : EffectKind) (rows : List (Bool × Effect)) :
    (∀ i ∈ (combine kind rows).2, ∃ effect, rows[i]? = some (true, effect)) ∧
      (combine kind rows).2.Pairwise (· < ·) := by
  unfold combine
  split
  · simp
  · simpa only [List.nil_append, List.length_nil] using
      ((EffectFold.HasSeen.start kind).all rows).finish

end AccessControl
