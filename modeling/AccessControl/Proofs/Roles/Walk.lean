import AccessControl.Proofs.Roles.Search

/-! # What a search by levels finds

A search goes from level to level and never enters a name twice. Still it misses nothing: the last
name of a walk that has been visited belongs to the present level, so the rest of the walk starts in
the next one.
-/

namespace AccessControl

/-- A walk of a number of steps. -/
inductive Walk (step : String → String → Prop) : Nat → String → String → Prop where
  | stay (name : String) : Walk step 0 name name
  | on {hops : Nat} {name next last : String} (first : step name next)
      (rest : Walk step hops next last) : Walk step (hops + 1) name last

namespace Search

variable {step : String → List String} {test : String → Bool}

/-- The steps of a search as a relation. -/
def Leads (step : String → List String) (name next : String) : Prop := next ∈ step name

theorem reaches_nil (step : String → List String) (test : String → Bool) (hops : Nat)
    (visited : List String) : reaches step test hops visited [] = false := by
  cases hops with
  | zero => rfl
  | succ hops => simp [reaches, nextLevel]

theorem reaches_succ (step : String → List String) (test : String → Bool) (hops : Nat)
    (visited frontier : List String) :
    reaches step test (hops + 1) visited frontier =
      ((frontier.flatMap step).any test ||
        reaches step test hops (visited ++ nextLevel step visited frontier)
          (nextLevel step visited frontier)) := by
  conv_lhs => unfold reaches
  cases (frontier.flatMap step).any test with
  | true => rfl
  | false =>
      simp only [Bool.false_eq_true, if_false, Bool.false_or]
      cases nextLevel step visited frontier with
      | nil => rw [reaches_nil]
      | cons name rest => rfl

/-- What a search knows of the names that it has left behind: their steps lead to visited names, and
    to none that passes the test. -/
structure Explored (step : String → List String) (test : String → Bool)
    (visited frontier : List String) : Prop where
  inside : ∀ name ∈ frontier, name ∈ visited
  closed : ∀ name ∈ visited, name ∉ frontier → ∀ next ∈ step name, next ∈ visited
  failed : ∀ name ∈ visited, name ∉ frontier → ∀ next ∈ step name, test next = false

theorem explored_start (step : String → List String) (test : String → Bool) (name : String) :
    Explored step test [name] [name] where
  inside _ member := member
  closed _ member outside := absurd member outside
  failed _ member outside := absurd member outside

variable {visited frontier : List String}

theorem Explored.next (explored : Explored step test visited frontier)
    (none : (frontier.flatMap step).any test = false) :
    Explored step test (visited ++ nextLevel step visited frontier)
      (nextLevel step visited frontier) := by
  have fails : ∀ name ∈ visited, ∀ next ∈ step name, test next = false := by
    intro name member next leads
    by_cases here : name ∈ frontier
    · rw [List.any_eq_false] at none
      exact Bool.eq_false_iff.mpr (none next (List.mem_flatMap.mpr ⟨name, here, leads⟩))
    · exact explored.failed name member here next leads
  have old {name : String} (member : name ∈ visited ++ nextLevel step visited frontier)
      (outside : name ∉ nextLevel step visited frontier) : name ∈ visited :=
    (List.mem_append.mp member).resolve_right outside
  refine ⟨?_, ?_, ?_⟩
  · intro name member
    exact List.mem_append_right visited member
  · intro name member outside next leads
    by_cases seen : next ∈ visited
    · exact List.mem_append_left _ seen
    · apply List.mem_append_right
      rw [mem_nextLevel]
      refine ⟨⟨name, ?_, leads⟩, seen⟩
      by_contra behind
      exact seen (explored.closed name (old member outside) behind next leads)
  · intro name member outside next leads
    exact fails name (old member outside) next leads

/-- A walk to a name that passes the test leaves the visited names through the next level. -/
theorem Explored.leave (explored : Explored step test visited frontier)
    (none : (frontier.flatMap step).any test = false) {hops : Nat} {name last : String}
    (walk : Walk (Leads step) hops name last) (moves : 0 < hops) (start : name ∈ visited)
    (found : test last = true) :
    ∃ fewer next, 0 < fewer ∧ fewer < hops ∧ next ∈ nextLevel step visited frontier ∧
      Walk (Leads step) fewer next last := by
  induction walk with
  | stay name => omega
  | @on hops name next last first rest ih =>
      have fails : test next = false := by
        apply (explored.next none).failed name (List.mem_append_left _ start) ?_ next first
        intro member
        exact ((mem_nextLevel step visited frontier name).mp member).2 start
      have more : 0 < hops := by
        cases rest with
        | stay => simp [fails] at found
        | on => omega
      by_cases seen : next ∈ visited
      · obtain ⟨fewer, entry, some, less, enters, walk⟩ := ih more seen found
        exact ⟨fewer, entry, some, by omega, enters, walk⟩
      · refine ⟨hops, next, more, by omega, ?_, rest⟩
        rw [mem_nextLevel]
        refine ⟨⟨name, ?_, first⟩, seen⟩
        by_contra behind
        exact seen (explored.closed name start behind next first)

theorem Explored.reaches_iff (explored : Explored step test visited frontier) (hops : Nat) :
    reaches step test hops visited frontier = true ↔
      ∃ taken name last, 0 < taken ∧ taken ≤ hops ∧ name ∈ frontier ∧
        Walk (Leads step) taken name last ∧ test last = true := by
  induction hops generalizing visited frontier with
  | zero =>
      constructor
      · intro reached
        cases reached
      · rintro ⟨taken, name, last, moves, bound, _⟩
        omega
  | succ hops ih =>
      rw [reaches_succ]
      cases none : (frontier.flatMap step).any test with
      | true =>
          obtain ⟨next, member, found⟩ := List.any_eq_true.mp none
          obtain ⟨name, here, leads⟩ := List.mem_flatMap.mp member
          simp only [Bool.true_or, true_iff]
          exact ⟨1, name, next, by omega, by omega, here, .on leads (.stay next), found⟩
      | false =>
          rw [Bool.false_or, ih (explored.next none)]
          constructor
          · rintro ⟨taken, next, last, moves, bound, member, walk, found⟩
            obtain ⟨⟨name, here, leads⟩, _⟩ := (mem_nextLevel step visited frontier next).mp member
            exact ⟨taken + 1, name, last, by omega, by omega, here, .on leads walk, found⟩
          · rintro ⟨taken, name, last, moves, bound, here, walk, found⟩
            obtain ⟨fewer, next, some, less, member, rest⟩ :=
              explored.leave none walk moves (explored.inside name here) found
            exact ⟨fewer, next, last, some, by omega, member, rest, found⟩

/-- A search finds what a walk of at least one and at most as many steps as it may take leads to. -/
theorem reaches_iff_walk (step : String → List String) (test : String → Bool) (hops : Nat)
    (name : String) :
    reaches step test hops [name] [name] = true ↔
      ∃ taken last, 1 ≤ taken ∧ taken ≤ hops ∧ Walk (Leads step) taken name last ∧
        test last = true := by
  rw [(explored_start step test name).reaches_iff]
  constructor
  · rintro ⟨taken, start, last, moves, bound, here, walk, found⟩
    obtain rfl := List.mem_singleton.mp here
    exact ⟨taken, last, moves, bound, walk, found⟩
  · rintro ⟨taken, last, moves, bound, walk, found⟩
    exact ⟨taken, name, last, moves, bound, List.mem_singleton_self name, walk, found⟩

end Search

end AccessControl
