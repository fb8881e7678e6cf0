import AccessControl.Proofs.Roles.Kinds
import AccessControl.Proofs.Roles.Links
import Mathlib.Data.Finset.Card

/-! # What a search collects

A search by levels collects what walks lead to, apart from the names that it starts with. A walk needs
not come twice to a name, so it need not be longer than there are names to come to. A search that may
take as many steps as there are links therefore collects whatever any walk leads to.
-/

namespace AccessControl

/-! ## Walks that do not come back -/

/-- A step to a name of a set. -/
def Into (names : Finset String) (step : String → String → Prop) (name next : String) : Prop :=
  step name next ∧ next ∈ names

namespace Walk

variable {step step' : String → String → Prop} {names : Finset String} {hops : Nat}
  {name last : String}

theorem mono (steps : ∀ name next, step name next → step' name next)
    (walk : Walk step hops name last) : Walk step' hops name last := by
  induction walk with
  | stay name => exact .stay name
  | on first _ ih => exact .on (steps _ _ first) ih

/-- A walk never comes to some name, or else there is one from there that does not come back. -/
theorem leave (walk : Walk (Into names step) hops name last) (home : String) :
    (∃ fewer, Walk (Into (names.erase home) step) fewer name last) ∨
      ∃ fewer, Walk (Into (names.erase home) step) fewer home last := by
  induction walk with
  | stay name => exact .inl ⟨0, .stay name⟩
  | @on _ _ next _ first _ ih =>
      rcases ih with ⟨fewer, rest⟩ | away
      · by_cases back : next = home
        · subst back
          exact .inr ⟨fewer, rest⟩
        · exact .inl ⟨fewer + 1, .on ⟨first.1, Finset.mem_erase.mpr ⟨back, first.2⟩⟩ rest⟩
      · exact .inr away

/-- A walk need not be longer than there are names to come to. -/
theorem shorten (walk : Walk (Into names step) hops name last) :
    ∃ fewer ≤ names.card, Walk (Into names step) fewer name last := by
  induction names using Finset.strongInduction generalizing hops name with
  | H names ih =>
      cases walk with
      | stay => exact ⟨0, Nat.zero_le _, .stay _⟩
      | @on _ _ next _ first rest =>
          have smaller := Finset.erase_ssubset first.2
          -- the rest of the walk need not come to its first name again
          obtain ⟨_, away⟩ : ∃ fewer, Walk (Into (names.erase next) step) fewer next last := by
            rcases rest.leave next with away | away <;> exact away
          obtain ⟨fewer, bound, short⟩ := ih _ smaller away
          refine ⟨fewer + 1, Nat.lt_of_le_of_lt bound (Finset.card_lt_card smaller), .on first ?_⟩
          exact short.mono fun _ _ taken => ⟨taken.1, Finset.mem_of_mem_erase taken.2⟩

variable (names) in
theorem shorten_of_targets (targets : ∀ name next, step name next → next ∈ names)
    (walk : Walk step hops name last) : ∃ fewer ≤ names.card, Walk step fewer name last := by
  have within : Walk (Into names step) hops name last :=
    walk.mono fun name next taken => ⟨taken, targets name next taken⟩
  obtain ⟨fewer, bound, short⟩ := within.shorten
  exact ⟨fewer, bound, short.mono fun _ _ taken => taken.1⟩

end Walk

/-! ## What is collected -/

namespace Search

theorem collect_nil (step : String → List String) (hops : Nat) (visited : List String) :
    collect step hops visited [] = [] := by
  cases hops with
  | zero => rfl
  | succ hops => simp [collect, nextLevel]

theorem collect_succ (step : String → List String) (hops : Nat) (visited frontier : List String) :
    collect step (hops + 1) visited frontier =
      nextLevel step visited frontier ++ collect step hops
        (visited ++ nextLevel step visited frontier) (nextLevel step visited frontier) := by
  conv_lhs => unfold collect
  cases nextLevel step visited frontier with
  | nil => rw [collect_nil]; rfl
  | cons name rest => rfl

theorem mem_collect (step : String → List String) (hops : Nat) (visited frontier : List String)
    (name : String) :
    name ∈ collect step hops visited frontier ↔
      name ∉ visited ∧ reaches step (· == name) hops visited frontier = true := by
  induction hops generalizing visited frontier with
  | zero => simp [collect, reaches]
  | succ hops ih =>
      have found : (frontier.flatMap step).any (· == name) = true ↔
          ∃ before ∈ frontier, name ∈ step before := by simp
      rw [collect_succ, reaches_succ, List.mem_append, ih, List.mem_append, mem_nextLevel,
        Bool.or_eq_true, found]
      generalize (∃ before ∈ frontier, name ∈ step before) = near
      tauto

/-- From a name, a search collects the others that walks of no more steps lead to. -/
theorem mem_collect_iff_walk (step : String → List String) (hops : Nat) (start name : String) :
    name ∈ collect step hops [start] [start] ↔
      name ≠ start ∧ ∃ taken ≤ hops, Walk (Leads step) taken start name := by
  rw [mem_collect, reaches_iff_walk, List.mem_singleton]
  refine and_congr_right fun other => ?_
  constructor
  · rintro ⟨taken, last, _, bound, walk, found⟩
    obtain rfl : last = name := by simpa using found
    exact ⟨taken, bound, walk⟩
  · rintro ⟨taken, bound, walk⟩
    refine ⟨taken, name, ?_, bound, walk, by simp⟩
    cases walk with
    | stay => exact absurd rfl other
    | on => omega

end Search

/-! ## All roles of a name -/

namespace RoleManager

variable {manager : RoleManager}

theorem Regular.exists_link (regular : manager.Regular) {name role : String}
    {domain : Option String} (near : role ∈ manager.getRoles name domain) :
    ∃ link ∈ manager.links, link.role = role := by
  cases manager with
  | indexed graph =>
      obtain ⟨stored, subject, _, _, linked⟩ :=
        (RoleGraph.Regular.mem_rolesOf regular _ name role).mp near
      exact ⟨⟨subject, role, stored⟩, (RoleGraph.Regular.mem_links regular _).mpr linked, rfl⟩
  | listed list =>
      have member := (list.mem_rolesOf _ name role).mp ((NameSet.mem_ofList _ role).mp near)
      exact ⟨_, member, rfl⟩

theorem Regular.shorten (regular : manager.Regular) {domain : Option String} {hops : Nat}
    {name role : String}
    (walk : Walk (fun name next => next ∈ manager.getRoles name domain) hops name role) :
    ∃ fewer ≤ manager.linkBound,
      Walk (fun name next => next ∈ manager.getRoles name domain) fewer name role := by
  let targets := (manager.links.map (·.role)).toFinset
  obtain ⟨fewer, bound, short⟩ := walk.shorten_of_targets targets fun name next near => by
    simpa [targets] using regular.exists_link near
  refine ⟨fewer, bound.trans ?_, short⟩
  rw [← manager.length_links, ← List.length_map (·.role)]
  exact List.toFinset_card_le _

end RoleManager

end AccessControl
